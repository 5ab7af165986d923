import Mathlib.Data.List.Induction
import TokenSchema.Definition
import TokenSchema.Proofs.Attribute.Mask

/-!
# Members — labels by value and labels by place

A document keys the labels of a mapping by value; they are kept by the place that the value has in the token
id, and handed out by value again. Both are one operation on tables, `rekeyed`: each entry is put under another
key, in the order of the old ones.

* Of several entries that come to one key, the one with the greatest old key stays
  (`get?_rekeyed_eq_some_iff`). Where no two come to one key, none is lost (`size_rekeyed`).
* Keys inside the mask stay apart when they are moved to values, and the values lead back to them
  (`Attribute.size_rekeyed_extract`, `Attribute.get?_insert_of_rekeyed_extract`).
-/

namespace TokenSchema

/-- A table with each entry put under another key, in the order of the old keys. -/
def rekeyed (members : Std.TreeMap Nat String) (move : Nat → Nat) : Std.TreeMap Nat String :=
  members.foldl (fun acc key label => acc.insert (move key) label) ∅

section Rekeyed

variable {members : Std.TreeMap Nat String} {move : Nat → Nat} {place : Nat} {label : String}

theorem rekeyed_eq_ofList :
    rekeyed members move = .ofList (members.toList.map fun entry => (move entry.1, entry.2)) := by
  rw [rekeyed, Std.TreeMap.foldl_eq_foldl_toList, Std.TreeMap.ofList_eq_insertMany_empty]
  generalize members.toList = entries
  generalize (∅ : Std.TreeMap Nat String) = start
  induction entries generalizing start with
  | nil => rfl
  | cons entry rest ih => rw [List.map_cons, Std.TreeMap.insertMany_cons, ← ih, List.foldl_cons]

theorem get?_ofList_map_eq_some_iff {entries : List (Nat × String)}
    (ascending : entries.Pairwise fun e e' => e.1 < e'.1) :
    (Std.TreeMap.ofList (entries.map fun entry => (move entry.1, entry.2))).get? place = some label ↔
      ∃ key, (key, label) ∈ entries ∧ move key = place ∧
        ∀ e ∈ entries, move e.1 = place → e.1 ≤ key := by
  simp only [Std.TreeMap.get?_eq_getElem?, Std.TreeMap.ofList_eq_insertMany_empty]
  induction entries using List.reverseRecOn with
  | nil => simp
  | append_singleton entries last ih =>
      obtain ⟨ascending, -, below⟩ := List.pairwise_append.1 ascending
      rw [List.map_append, List.map_singleton, Std.TreeMap.insertMany_append,
        Std.TreeMap.insertMany_list_singleton, Std.TreeMap.getElem?_insert]
      by_cases comes : move last.1 = place
      · -- The last entry has the greatest old key, so it takes the place of all others there.
        rw [if_pos (Std.LawfulEqCmp.compare_eq_iff_eq.2 comes)]
        constructor
        · rintro ⟨⟩
          refine ⟨last.1, by simp, comes, ?_⟩
          intro e member _
          rcases List.mem_append.1 member with early | only
          · exact (below e early last (by simp)).le
          · rw [List.mem_singleton.1 only]
        · rintro ⟨key, member, -, greatest⟩
          have atLeast : last.1 ≤ key := greatest last (by simp) comes
          rcases List.mem_append.1 member with early | only
          · exact absurd (below _ early last (by simp)) (Nat.not_lt.2 atLeast)
          · rw [← List.mem_singleton.1 only]
      · rw [if_neg (mt Std.LawfulEqCmp.compare_eq_iff_eq.1 comes), ih ascending]
        constructor
        · rintro ⟨key, member, same, greatest⟩
          refine ⟨key, List.mem_append_left _ member, same, ?_⟩
          intro e member' same'
          rcases List.mem_append.1 member' with early | only
          · exact greatest e early same'
          · rw [List.mem_singleton.1 only] at same'
            exact absurd same' comes
        · rintro ⟨key, member, same, greatest⟩
          refine ⟨key, ?_, same, fun e member => greatest e (List.mem_append_left _ member)⟩
          rcases List.mem_append.1 member with early | only
          · exact early
          · rw [← List.mem_singleton.1 only] at comes
            exact absurd same comes

/-- Of the entries that come to one key, the one with the greatest old key stays. -/
theorem get?_rekeyed_eq_some_iff :
    (rekeyed members move).get? place = some label ↔
      ∃ key, members.get? key = some label ∧ move key = place ∧
        ∀ key' ∈ members, move key' = place → key' ≤ key := by
  have listed (key : Nat) : key ∈ members ↔ ∃ label, members[key]? = some label := by
    rw [Std.TreeMap.mem_iff_isSome_getElem?, Option.isSome_iff_exists]
  have ascending : members.toList.Pairwise fun e e' => e.1 < e'.1 :=
    members.ordered_keys_toList.imp Nat.compare_eq_lt.1
  rw [rekeyed_eq_ofList, get?_ofList_map_eq_some_iff ascending]
  simp [listed, Std.TreeMap.mem_toList_iff_getElem?_eq_some]

theorem exists_of_mem_rekeyed (kept : place ∈ rekeyed members move) :
    ∃ key ∈ members, move key = place := by
  obtain ⟨label, found⟩ := Option.isSome_iff_exists.1 (Std.TreeMap.mem_iff_isSome_getElem?.1 kept)
  obtain ⟨key, declared, moved, -⟩ := get?_rekeyed_eq_some_iff.1 found
  exact ⟨key, Std.TreeMap.mem_iff_isSome_getElem?.2 (Option.isSome_of_eq_some declared), moved⟩

/-- Where no two entries come to one key, none is lost. -/
theorem size_rekeyed
    (apart : ∀ key ∈ members, ∀ key' ∈ members, move key = move key' → key = key') :
    (rekeyed members move).size = members.size := by
  have kept {e : Nat × String} (listed : e ∈ members.toList) : e.1 ∈ members := by
    rw [← Std.TreeMap.mem_keys, ← Std.TreeMap.map_fst_toList_eq_keys]
    exact List.mem_map_of_mem listed
  rw [rekeyed_eq_ofList, Std.TreeMap.size_ofList, List.length_map, Std.TreeMap.length_toList]
  rw [List.pairwise_map]
  refine members.distinct_keys_toList.imp_of_mem ?_
  intro e e' member member' distinct same
  rw [Std.LawfulEqCmp.compare_eq_iff_eq] at distinct same
  exact distinct (apart _ (kept member) _ (kept member') same)

end Rekeyed

/-! ## Places inside the mask -/

namespace Attribute

variable {a : Attribute} {members : Std.TreeMap Nat String}

/-- The labels of the attribute stand at places inside its mask. -/
def MembersPlaced (a : Attribute) : Prop :=
  ∀ members, a.members = some members → ∀ key ∈ members, key &&& a.bitmask = key

/-- A place inside the mask is found again from its value. -/
theorem insert_extract_of_mem (placed : ∀ key ∈ members, key &&& a.bitmask = key) {key : Nat}
    (member : key ∈ members) : a.insert (a.extract key) = key := by
  rw [insert_extract, placed key member]

theorem size_rekeyed_extract (placed : ∀ key ∈ members, key &&& a.bitmask = key) :
    (rekeyed members a.extract).size = members.size := by
  refine size_rekeyed ?_
  intro key member key' member' same
  rw [← insert_extract_of_mem placed member, same, insert_extract_of_mem placed member']

theorem get?_insert_of_rekeyed_extract (placed : ∀ key ∈ members, key &&& a.bitmask = key)
    {value : Nat} {label : String} (found : (rekeyed members a.extract).get? value = some label) :
    members.get? (a.insert value) = some label := by
  obtain ⟨key, declared, rfl, -⟩ := get?_rekeyed_eq_some_iff.1 found
  have member : key ∈ members :=
    Std.TreeMap.mem_iff_isSome_getElem?.2 (Option.isSome_of_eq_some declared)
  rw [insert_extract_of_mem placed member, declared]

end Attribute

end TokenSchema
