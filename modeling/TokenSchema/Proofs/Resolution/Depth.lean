import Mathlib.Algebra.Ring.GeomSum
import TokenSchema.Proofs.Process.Steps
import TokenSchema.Proofs.Resolution.Outcome

/-!
# Depth — how far references go

A resolution counts down the references that may still be followed. Seen from its start it counts up: what an
attribute refers to is resolved one deeper, and beyond the limit nothing is (`Resolver.Unfolds`).

* However attributes refer to each other, the count from the start comes to an end, and in one way only
  (`Resolver.unfolds_resolveAt`, `Resolver.Unfolds.eq_resolveAt`).
* The steps of a resolution are bounded, whatever it sees and is answered (`Resolver.endsWithin_resolveAt`).
-/

namespace TokenSchema
namespace Resolver

open Process (EndsWithin)

variable (r : Resolver) (options : ResolveOptions) (tokenId : Nat)

/-! ## One level -/

/-- An attribute refers to the one it stands for, and to those that its call names. -/
inductive Refers (a b : Attribute) : Prop where
  | target : r.target? a = some b → Refers a b
  | argument {f : CallTemplate} {name : String} : a.call = some f → name ∈ referredNames f →
      r.definition.attributes.get? name = some b → Refers a b

/-- The resolution of an attribute, given those of the attributes it refers to. -/
def level (nested : Attribute → Process Resolved) (a : Attribute) : Process Resolved :=
  match a.literal with
  | some literal => .done (Resolved.ofLiteral a tokenId literal)
  | none => do
      let session ← Process.session
      match known? session a tokenId with
      | some found => .done found
      | none =>
          match r.target? a with
          | some target => do
              let found ← nested target
              Process.recorded { found with id := a.name, label := a.label }
          | none =>
              if a.userInput then .done (Resolved.blank a tokenId)
              else do
                let found ← r.fromSource options tokenId nested a
                Process.recorded found

theorem resolveAt_succ (left : Nat) (a : Attribute) :
    r.resolveAt options tokenId (left + 1) a =
      r.level options tokenId (r.resolveAt options tokenId left) a := rfl

section Congruence

variable {r options tokenId} {nested nested' : Attribute → Process Resolved}

theorem gather_congr {names : List String}
    (same : ∀ name ∈ names, ∀ b, r.definition.attributes.get? name = some b → nested b = nested' b)
    (found : Std.TreeMap String String) : r.gather nested names found = r.gather nested' names found := by
  -- Which names are resolved depends on the texts found before, so these are not fixed.
  induction names generalizing found with
  | nil => rfl
  | cons name rest ih =>
      have later := fun n (member : n ∈ rest) => same n (List.mem_cons_of_mem name member)
      simp only [gather, ih later]
      cases declared : r.definition.attributes.get? name with
      | none => rfl
      | some b => simp only [same name List.mem_cons_self b declared]

/-- One level depends on the attributes it refers to alone. -/
theorem level_congr {a : Attribute} (same : ∀ b, r.Refers a b → nested b = nested' b) :
    r.level options tokenId nested a = r.level options tokenId nested' a := by
  have source : r.fromSource options tokenId nested a = r.fromSource options tokenId nested' a := by
    unfold fromSource
    cases calls : a.call with
    | none => cases a.event <;> rfl
    | some f =>
        have texts (found : Std.TreeMap String String) :
            r.gather nested (referredNames f) found = r.gather nested' (referredNames f) found :=
          gather_congr (fun name member b declared => same b (.argument calls member declared)) found
        simp only [fromCall, makeCall, texts]
  unfold level
  rw [source]
  cases standsFor : r.target? a with
  | none => rfl
  | some b => simp only [same b (.target standsFor)]

end Congruence

/-! ## All levels -/

/-- The resolution of an attribute at a depth, and how deep references nest below it at most: beyond the limit
it fails, and up to the limit it is one level, whose references are resolved one deeper. -/
inductive Unfolds : Nat → Attribute → Process Resolved → Nat → Prop where
  | beyond {depth : Nat} {a : Attribute} {n : Nat} : r.settings.maxDepth < depth →
      Unfolds depth a (.fail (.referenceDepth a.name)) n
  | level {depth : Nat} {a : Attribute} {nested : Attribute → Process Resolved} {n : Nat} :
      depth ≤ r.settings.maxDepth → (∀ b, r.Refers a b → Unfolds (depth + 1) b (nested b) n) →
      Unfolds depth a (r.level options tokenId nested a) (n + 1)

theorem unfolds_resolveAt {depth left : Nat} (limit : depth + left = r.settings.maxDepth + 1)
    (a : Attribute) : r.Unfolds options tokenId depth a (r.resolveAt options tokenId left a) left := by
  induction left generalizing depth a with
  | zero => exact .beyond (by omega)
  | succ left ih =>
      rw [resolveAt_succ]
      exact .level (by omega) fun b _ => ih (by omega) b

variable {r options tokenId} in
/-- The count from the start leaves no choice. -/
theorem Unfolds.eq_resolveAt {depth left n : Nat} {a : Attribute} {p : Process Resolved}
    (unfolds : r.Unfolds options tokenId depth a p n)
    (limit : depth + left = r.settings.maxDepth + 1) : p = r.resolveAt options tokenId left a := by
  -- Depth and references left have one sum on all levels, so they run out together.
  induction unfolds generalizing left with
  | beyond deep =>
      obtain rfl : left = 0 := by omega
      rfl
  | level shallow _ ih =>
      obtain ⟨left, rfl⟩ := Nat.exists_eq_add_of_le' (show 1 ≤ left by omega)
      rw [resolveAt_succ]
      exact level_congr fun b refers => ih b refers (by omega)

/-! ## Steps -/

/-- How many names the call of an attribute refers to. -/
def argumentCount (a : Attribute) : Nat :=
  (a.call.map fun f => (referredNames f).length).getD 0

/-- The largest number of names that a call refers to, of an attribute or of the declared ones; at least one,
for the attribute that another stands for. -/
def width (a : Attribute) : Nat :=
  (a :: r.definition.attributes.toList.map (·.2)).foldr (fun b n => max (argumentCount b) n) 1

section Steps

variable {r options tokenId} {nested : Attribute → Process Resolved} {cost : Nat} {a : Attribute}

theorem endsWithin_gather {names : List String}
    (each : ∀ name ∈ names, ∀ b, r.definition.attributes.get? name = some b →
      (nested b).EndsWithin cost) (found : Std.TreeMap String String) :
    (r.gather nested names found).EndsWithin (names.length * (1 + cost)) := by
  induction names generalizing found with
  | nil => exact .done found
  | cons name rest ih =>
      have later := ih fun n member => each n (List.mem_cons_of_mem name member)
      rw [List.length_cons, Nat.succ_mul, Nat.add_comm, Nat.add_assoc, Nat.add_comm 1]
      -- A name is a look at the session and a resolution at most; the three ways around them are shorter.
      unfold gather
      split
      · exact (later found).mono (by omega)
      refine .session_bind fun session => ?_
      split
      · exact (later _).mono (by omega)
      split
      · exact (later found).mono (by omega)
      · rename_i b declared
        refine .bind (each name List.mem_cons_self b declared) fun resolved => ?_
        split
        · exact later _
        · exact later found

theorem filterLookups_le (e : EventSource) (store : Store) (tokenId : Nat) :
    e.filterLookups store [tokenId] ≤ 2 := by
  unfold EventSource.filterLookups
  split
  · split
    · exact Nat.zero_le 2
    · split
      · exact Nat.le_succ 1
      · exact Nat.le_refl 2
  · exact Nat.zero_le 2

theorem endsWithin_fetched {contract : Deployment} {keptId : Nat} {v : Abi.Value} :
    (r.fetched a tokenId contract keptId v).EndsWithin 1 :=
  .keep (.done _)

theorem endsWithin_fromEvent (e : EventSource) : (r.fromEvent tokenId a e).EndsWithin 7 := by
  unfold fromEvent
  split
  · exact .done _
  refine .accesses_bind (n := 6) 1 (.store_bind fun store => ?_)
  split
  · exact .done _
  have few := filterLookups_le e store tokenId
  refine (EndsWithin.accesses_bind (n := 3) _ (.store_bind fun store => ?_)).mono (by omega)
  cases e.filterFor store [tokenId] with
  | error cause => exact .fail cause
  | ok filter? =>
      cases filter? with
      | none => exact .done _
      | some filter =>
          refine .answerTo_bind _ fun answer => ?_
          split
          · exact endsWithin_fetched
          · exact .done _

theorem endsWithin_makeCall {f : CallTemplate} {contract : Deployment} {keptId : Nat}
    {kept : Option CachedRecord}
    (gathers : (r.gather nested (referredNames f) ∅).EndsWithin cost) :
    (r.makeCall tokenId nested a f contract keptId kept).EndsWithin (cost + 3) := by
  unfold makeCall
  refine gathers.bind fun references => .store_bind fun store => .answerTo_bind _ fun answer => ?_
  split
  · exact endsWithin_fetched
  · exact .done _

theorem endsWithin_fromCall {f : CallTemplate}
    (gathers : (r.gather nested (referredNames f) ∅).EndsWithin cost) :
    (r.fromCall options tokenId nested a f).EndsWithin (cost + 6) := by
  unfold fromCall
  split
  · exact .fail _
  split
  · exact .done _
  refine (EndsWithin.accesses_bind (n := cost + 5) 1 ?_).mono (by omega)
  refine .store_bind fun store => ?_
  have few (due : Bool) : (if due then 1 else 0) + (cost + 3) ≤ cost + 4 := by
    cases due
    · simp
    · simp
      omega
  refine (EndsWithin.accesses_bind (n := cost + 3) _ ?_).mono (few _)
  split
  · exact .done _
  · exact endsWithin_makeCall gathers

theorem endsWithin_level {most : Nat} (counted : argumentCount a ≤ most) (pos : 1 ≤ most)
    (each : ∀ b, r.Refers a b → (nested b).EndsWithin cost) :
    (r.level options tokenId nested a).EndsWithin (9 + most + most * cost) := by
  -- An attribute that stands for another resolves one, and a call that may resolve none counts one as well.
  have once : cost ≤ most * cost := Nat.le_mul_of_pos_left cost pos
  unfold level
  split
  · exact .done _
  refine (EndsWithin.session_bind (n := 8 + most + most * cost) fun session => ?_).mono (by omega)
  split
  · exact .done _
  split
  · rename_i b standsFor
    exact ((each b (.target standsFor)).bind fun found => .recorded _).mono (by omega)
  split
  · exact .done _
  have source : (r.fromSource options tokenId nested a).EndsWithin (7 + most + most * cost) := by
    unfold fromSource
    split
    · rename_i f calls
      have names : (referredNames f).length ≤ most := by
        simpa [argumentCount, calls] using counted
      have gathers := endsWithin_gather (fun name member b declared =>
        each b (.argument calls member declared)) ∅
      refine (endsWithin_fromCall gathers).mono ?_
      have total := Nat.mul_le_mul_right (1 + cost) names
      rw [Nat.mul_add most, Nat.mul_one] at total
      omega
    · exact (endsWithin_fromEvent _).mono (by omega)
    · exact .done _
  exact (source.bind fun found => .recorded _).mono (by omega)

theorem argumentCount_le_width {b : Attribute}
    (among : b = a ∨ ∃ name, r.definition.attributes.get? name = some b) :
    argumentCount b ≤ r.width a := by
  have member : b ∈ a :: r.definition.attributes.toList.map (·.2) := by
    rcases among with rfl | ⟨name, declared⟩
    · exact List.mem_cons_self
    · rw [Std.TreeMap.get?_eq_getElem?, ← Std.TreeMap.mem_toList_iff_getElem?_eq_some] at declared
      exact List.mem_cons_of_mem a (List.mem_map_of_mem (f := (·.2)) declared)
  unfold width
  generalize a :: r.definition.attributes.toList.map (·.2) = bs at member
  induction bs with
  | nil => cases member
  | cons c rest ih =>
      rw [List.foldr_cons]
      rcases List.mem_cons.1 member with rfl | later
      · exact Nat.le_max_left _ _
      · exact (ih later).trans (Nat.le_max_right _ _)

theorem one_le_width : 1 ≤ r.width a := by
  unfold width
  induction a :: r.definition.attributes.toList.map (·.2) with
  | nil => exact Nat.le_refl 1
  | cons b rest ih => exact ih.trans (Nat.le_max_right _ _)

/-- However attributes refer to each other, the steps of a resolution are bounded by the references that it may
follow: their number grows with each level by the width of the definition. -/
theorem endsWithin_resolveAt {most : Nat} (pos : 1 ≤ most)
    (declared : ∀ name b, r.definition.attributes.get? name = some b → argumentCount b ≤ most)
    (left : Nat) (counted : argumentCount a ≤ most) :
    (r.resolveAt options tokenId left a).EndsWithin
      ((9 + most) * ∑ i ∈ Finset.range left, most ^ i) := by
  induction left generalizing a with
  | zero => exact .fail _
  | succ left ih =>
      have below : ∀ b, r.Refers a b → (r.resolveAt options tokenId left b).EndsWithin
          ((9 + most) * ∑ i ∈ Finset.range left, most ^ i) := by
        rintro b (standsFor | ⟨-, -, known⟩)
        · obtain ⟨name, -, known⟩ := Option.bind_eq_some_iff.1 standsFor
          exact ih (declared name b known)
        · exact ih (declared _ b known)
      rw [resolveAt_succ, geom_sum_succ, Nat.mul_add, Nat.mul_one, Nat.mul_left_comm, Nat.add_comm]
      exact endsWithin_level counted pos below

end Steps

end Resolver
end TokenSchema
