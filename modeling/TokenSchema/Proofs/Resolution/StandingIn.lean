import TokenSchema.Proofs.Resolution.Depth
import TokenSchema.Proofs.Resolution.Persistence

/-!
# Standing in — what an attribute shows that stands for another

An attribute that stands for another is answered in one of two ways. Through the other attribute it shows what
that one has, although it comes to it with one reference less: a resolution that ends well does not change if it
may follow more (`Process.ExtendedBy`, `Resolver.extendedBy_resolveAt`). But a value that the host supplies for
the other attribute is read the way the first one is declared, and not the way the other is
(`Resolver.standing_in`, `Fees.price_ne_amount`).
-/

namespace TokenSchema

/-! ## Going further -/

/-- A process does what another does, and may go on where that one fails. -/
inductive Process.ExtendedBy {α : Type} : Process α → Process α → Prop where
  | done (a : α) : ExtendedBy (.done a) (.done a)
  | fail (e : ResolveError) (q : Process α) : ExtendedBy (.fail e) q
  | access {p q : Process α} : ExtendedBy p q → ExtendedBy (.access p) (.access q)
  | look {p q : Session → Store → Process α} : (∀ session store, ExtendedBy (p session store) (q session store)) →
      ExtendedBy (.look p) (.look q)
  | record (x : Resolved) {p q : Process α} : ExtendedBy p q → ExtendedBy (.record x p) (.record x q)
  | keep (k : CachedRecord) {p q : Process α} : ExtendedBy p q → ExtendedBy (.keep k p) (.keep k q)
  | ask (request : Request) {p q : Answer → Process α} : (∀ answer, ExtendedBy (p answer) (q answer)) →
      ExtendedBy (.ask request p) (.ask request q)

namespace Process.ExtendedBy

variable {α β : Type}

theorem refl (p : Process α) : p.ExtendedBy p := by
  induction p with
  | done a => exact .done a
  | fail e => exact .fail e _
  | access _ ih => exact .access ih
  | look _ ih => exact .look ih
  | record x _ ih => exact .record x ih
  | keep k _ ih => exact .keep k ih
  | ask request _ ih => exact .ask request ih

theorem bind {p q : Process α} {f g : α → Process β} (first : p.ExtendedBy q)
    (rest : ∀ a, (f a).ExtendedBy (g a)) : (p >>= f).ExtendedBy (q >>= g) := by
  change (p.bind f).ExtendedBy (q.bind g)
  induction first with
  | done a => exact rest a
  | fail e q => exact .fail e _
  | access _ ih => exact .access ih
  | look _ ih => exact .look ih
  | record x _ ih => exact .record x ih
  | keep k _ ih => exact .keep k ih
  | ask request _ ih => exact .ask request ih

/-- What a process comes to when it ends well, one that extends it comes to as well. -/
theorem evaluate_eq {p q : Process α} (extended : p.ExtendedBy q) {answers : Answers} {store : Store}
    {a : α} {s s' : Pass} (ended : p.evaluate answers store s = (.ok a, s')) :
    q.evaluate answers store s = (.ok a, s') := by
  induction extended generalizing s with
  | done a => exact ended
  | fail e q => cases ended
  | access _ ih => exact ih ended
  | look _ ih => exact ih s.session store ended
  | record x _ ih => exact ih ended
  | keep k _ ih => exact ih ended
  | ask request _ ih => exact ih (answers s.requests request) ended

end Process.ExtendedBy

namespace Resolver

open Process (ExtendedBy)

section More

variable {r : Resolver} {options : ResolveOptions} {tokenId : Nat}
variable {nested nested' : Attribute → Process Resolved}

theorem extendedBy_gather (more : ∀ b, (nested b).ExtendedBy (nested' b)) (names : List String)
    (found : Std.TreeMap String String) :
    (r.gather nested names found).ExtendedBy (r.gather nested' names found) := by
  -- The texts found grow from name to name, so they are left free in the induction.
  induction names generalizing found with
  | nil => exact .refl _
  | cons name rest ih =>
      simp only [gather]
      split
      · exact ih found
      refine .bind (.refl _) fun session => ?_
      split
      · exact ih _
      split
      · exact ih found
      · refine .bind (more _) fun resolved => ?_
        split
        · exact ih _
        · exact ih found

theorem extendedBy_fromCall (more : ∀ b, (nested b).ExtendedBy (nested' b)) (a : Attribute)
    (f : CallTemplate) :
    (r.fromCall options tokenId nested a f).ExtendedBy (r.fromCall options tokenId nested' a f) := by
  unfold fromCall
  split
  · exact .refl _
  split
  · exact .refl _
  refine .bind (.refl _) fun _ => .bind (.refl _) fun store => .bind (.refl _) fun _ => ?_
  split
  · exact .refl _
  · exact .bind (extendedBy_gather more _ _) fun references => .refl _

theorem extendedBy_level (more : ∀ b, (nested b).ExtendedBy (nested' b)) (a : Attribute) :
    (r.level options tokenId nested a).ExtendedBy (r.level options tokenId nested' a) := by
  have source : (r.fromSource options tokenId nested a).ExtendedBy
      (r.fromSource options tokenId nested' a) := by
    unfold fromSource
    split
    · exact extendedBy_fromCall more a _
    · exact .refl _
    · exact .refl _
  unfold level
  split
  · exact .refl _
  refine .bind (.refl _) fun session => ?_
  split
  · exact .refl _
  split
  · exact .bind (more _) fun found => .refl _
  split
  · exact .refl _
  · exact .bind source fun found => .refl _

/-- One more reference to follow changes nothing in a resolution but where it would fail for want of it. -/
theorem extendedBy_resolveAt (left : Nat) (a : Attribute) :
    (r.resolveAt options tokenId left a).ExtendedBy (r.resolveAt options tokenId (left + 1) a) := by
  induction left generalizing a with
  | zero => exact .fail _ _
  | succ left ih =>
      -- Both are one level over what lies below, which is the same up to the one reference.
      rw [resolveAt_succ, resolveAt_succ]
      exact extendedBy_level ih a

end More

/-! ## Two ways to an answer -/

/-- Two attributes read a text from the host in the same way. -/
structure ReadAlike (a b : Attribute) (raw : String) (tokenId : Nat) : Prop where
  form_eq : a.form = b.form
  kind_eq : a.kind = b.kind
  userInput_eq : a.userInput = b.userInput
  text_eq : (Resolved.ofRaw a tokenId raw).text = (Resolved.ofRaw b tokenId raw).text

/-- What is read from a text: its value goes with the kind, and all else but the text with the declaration. -/
theorem ofRaw_eq (a : Attribute) (tokenId : Nat) (raw : String) :
    Resolved.ofRaw a tokenId raw =
      { Resolved.blank a tokenId with
        value := if Resolved.isTextual a.kind then none else Text.integer? raw
        text := (Resolved.ofRaw a tokenId raw).text } := by
  unfold Resolved.ofRaw
  cases Text.integer? raw with
  | none => simp [Resolved.blank]
  | some z => by_cases textual : Resolved.isTextual a.kind <;> simp [textual, Resolved.blank, Resolved.ofValue]

/-- What an attribute reads is what another reads exactly if they read alike. -/
theorem ofRaw_eq_relayedBy_iff {a b : Attribute} {raw : String} {tokenId : Nat} :
    Resolved.ofRaw a tokenId raw = (Resolved.ofRaw b tokenId raw).relayedBy a ↔
      ReadAlike a b raw tokenId := by
  rw [ofRaw_eq a, ofRaw_eq b]
  constructor
  · intro same
    simp only [Resolved.relayedBy, Resolved.blank, Resolved.mk.injEq] at same
    obtain ⟨-, -, -, -, text, form, kind, userInput⟩ := same
    exact ⟨form, kind, userInput, text⟩
  · intro alike
    simp only [Resolved.relayedBy, Resolved.blank, alike.form_eq, alike.kind_eq, alike.userInput_eq,
      alike.text_eq]

section Answers

variable (r : Resolver) (options : ResolveOptions) (tokenId : Nat) (answers : Answers) (store : Store)
variable {a b : Attribute} {name raw : String} {x y : Resolved} {s : Pass}

/-- A value that the host supplies is read the way the attribute is declared that it is found for. -/
theorem evaluate_resolution_local (noLiteral : a.literal = none)
    (noResult : s.session.result? a.name tokenId = none)
    (supplied : s.session.local? (a.reference.getD a.name) = some raw) :
    (r.resolution options tokenId a).evaluate answers store s = (.ok (Resolved.ofRaw a tokenId raw), s) := by
  have found : known? s.session a tokenId = some (Resolved.ofRaw a tokenId raw) := by
    simp [known?, noResult, supplied]
  simp only [resolution, resolveAt, noLiteral, Process.evaluate_session_bind, found, Process.evaluate_done]

/-- Where nothing is known of an attribute that stands for another, it shows what the other does. -/
theorem eq_relayedBy_of_unsettled (unsettled : Unsettled tokenId s.session a)
    (standsFor : r.target? a = some b)
    (shown : ((r.resolution options tokenId a).evaluate answers store s).1 = .ok x)
    (other : ((r.resolution options tokenId b).evaluate answers store s).1 = .ok y) :
    x = y.relayedBy a := by
  rw [resolution, r.evaluate_resolveAt_target answers store options tokenId _ unsettled standsFor,
    Process.evaluate_bind] at shown
  -- The other was resolved with one reference less, so alone it comes to the same.
  cases below : (r.resolveAt options tokenId r.settings.maxDepth b).evaluate answers store s with
  | mk result s' =>
      rw [below] at shown
      cases result with
      | error e => cases shown
      | ok z =>
          have alone := (extendedBy_resolveAt r.settings.maxDepth b).evaluate_eq below
          rw [resolution, alone] at other
          cases shown
          cases other
          rfl

/-- From one and the same pass an attribute that stands for another shows what the other does, under its own name
and label, as long as the host supplies no value for the other. A value that it supplies is read the way the
first attribute is declared; the other reads it the way it is declared itself, and the two agree only if they read
alike. -/
theorem standing_in (noLiteral : a.literal = none) (standsFor : a.reference = some name)
    (declared : r.definition.attributes.get? name = some b)
    (noResult : s.session.result? a.name tokenId = none)
    (shown : ((r.resolution options tokenId a).evaluate answers store s).1 = .ok x)
    (other : ((r.resolution options tokenId b).evaluate answers store s).1 = .ok y) :
    (s.session.local? name = none → x = y.relayedBy a) ∧
    ∀ raw, s.session.local? name = some raw →
      x = Resolved.ofRaw a tokenId raw ∧
      (b.literal = none → s.session.result? b.name tokenId = none → b.reference.getD b.name = name →
        y = Resolved.ofRaw b tokenId raw ∧ (x = y.relayedBy a ↔ ReadAlike a b raw tokenId)) := by
  have asked : a.reference.getD a.name = name := by rw [standsFor, Option.getD_some]
  constructor
  · intro noLocal
    have target : r.target? a = some b := by rw [target?, standsFor, Option.bind_some, declared]
    exact r.eq_relayedBy_of_unsettled options tokenId answers store
      ⟨noLiteral, noResult, by rw [asked, noLocal]⟩ target shown other
  · intro raw supplied
    rw [r.evaluate_resolution_local options tokenId answers store noLiteral noResult
      (by rw [asked, supplied])] at shown
    cases shown
    -- The other may have a literal or a result of its own, which come before the text; without them it takes the text.
    refine ⟨rfl, fun noLiteral' noResult' sameName => ?_⟩
    rw [r.evaluate_resolution_local options tokenId answers store noLiteral' noResult'
      (by rw [sameName, supplied])] at other
    cases other
    exact ⟨rfl, ofRaw_eq_relayedBy_iff⟩

end Answers

end Resolver

/-! ## A price that stands for an amount -/

namespace Fees

/-- An amount that the user enters, with eighteen decimals. -/
def amount : Attribute :=
  { Attribute.ofName "amount" with kind := .e18, userInput := true }

/-- The amount under another name. -/
def price : Attribute :=
  { Attribute.ofName "price" with reference := some "amount" }

/-- A resolver for the two attributes. -/
def resolver : Resolver :=
  { definition :=
      { Definition.empty "" ⟨none, .current, .oldestSupported⟩ "en" with
        attributes := ((∅ : Std.TreeMap String Attribute).insert "amount" amount).insert "price" price }
    settings := .standard
    clock := 0 }

theorem reference_price : price.reference = some "amount" := rfl

theorem resolver_maxDepth : resolver.settings.maxDepth = 7 + 1 := rfl

/-- A node that is never asked. -/
def node : Node :=
  ⟨fun _ => .bytes [], fun _ => false, false⟩

/-- A host with values for some names. -/
def host (locals : List (String × String)) : Host :=
  { Host.ofStore (.empty "" false) with session := .withLocals locals }

/-- What the host has entered: one and a half, in the smallest units. -/
abbrev entered : Host :=
  host [("amount", "1500000000000000000")]

theorem local?_entered : entered.session.local? "amount" = some "1500000000000000000" := by decide

theorem result?_entered (name : String) : entered.session.result? name 7 = none := by
  simp [Host.ofStore, host, Session.withLocals, Session.result?]

/-- Both attributes take what the host has entered, each in its own way. -/
theorem evaluate_entered {a : Attribute} (noLiteral : a.literal = none)
    (asked : a.reference.getD a.name = "amount") :
    (resolver.resolution ⟨none, .detail⟩ 7 a).evaluate (resolver.exchange node).answers entered.store
      ⟨entered.session, entered.requests, []⟩ =
      (.ok (Resolved.ofRaw a 7 "1500000000000000000"), ⟨entered.session, entered.requests, []⟩) :=
  resolver.evaluate_resolution_local _ _ _ _ noLiteral (result?_entered _)
    (by rw [asked]; exact local?_entered)

theorem resolve_entered {a : Attribute} (noLiteral : a.literal = none)
    (asked : a.reference.getD a.name = "amount") :
    (resolver.resolve node ⟨none, .detail⟩ a 7 entered).1 =
      .ok (Resolved.ofRaw a 7 "1500000000000000000") := by
  rw [Resolver.resolve_fst_eq, evaluate_entered noLiteral asked]

/-- The price stands for the amount and nothing is recorded for it, but it is not what the amount is: what is one
and a half there is shown in the smallest units here. -/
theorem price_ne_amount :
    price.literal = none ∧ resolver.target? price = some amount ∧
    entered.session.result? "price" 7 = none ∧
    ∃ x y, (resolver.resolve node ⟨none, .detail⟩ price 7 entered).1 = .ok x ∧
      (resolver.resolve node ⟨none, .detail⟩ amount 7 entered).1 = .ok y ∧
      y.text = some "1.5" ∧ x.text = some "1500000000000000000" ∧ x ≠ y.relayedBy price :=
  ⟨rfl, rfl, result?_entered _, _, _, resolve_entered rfl rfl, resolve_entered rfl rfl,
    by decide, by decide, by decide⟩

/-- Before anything is entered, the amount is what the user is still to enter. -/
theorem evaluate_unentered (left : Nat) {s : Pass} (new : s.session = .empty) :
    (resolver.resolveAt ⟨none, .detail⟩ 7 (left + 1) amount).evaluate (resolver.exchange node).answers
      entered.store s = (.ok (Resolved.blank amount 7), s) :=
  resolver.evaluate_resolveAt_entry _ _ _ _ left
    ⟨rfl, by simp [new, Session.empty, Session.result?], by simp [new, Session.empty, Session.local?]⟩ rfl rfl

/-- Where nothing is entered the price is what the amount is. What is entered they do not read alike, and so they
differ. -/
theorem standing_in_price :
    (∃ x, ((resolver.resolution ⟨none, .detail⟩ 7 price).evaluate (resolver.exchange node).answers
        entered.store ⟨.empty, [], []⟩).1 = .ok x ∧ x = (Resolved.blank amount 7).relayedBy price) ∧
    ∃ x y, (resolver.resolve node ⟨none, .detail⟩ price 7 entered).1 = .ok x ∧
      (resolver.resolve node ⟨none, .detail⟩ amount 7 entered).1 = .ok y ∧
      ¬ Resolver.ReadAlike price amount "1500000000000000000" 7 ∧ ¬ x = y.relayedBy price := by
  have unlike : ¬ Resolver.ReadAlike price amount "1500000000000000000" 7 := by
    rintro ⟨-, kind, -, -⟩
    cases kind
  constructor
  · have unsettled : Resolver.Unsettled 7 Session.empty price :=
      ⟨rfl, by simp [Session.empty, Session.result?], by simp [Session.empty, Session.local?]⟩
    have shown : ((resolver.resolution ⟨none, .detail⟩ 7 price).evaluate (resolver.exchange node).answers
        entered.store ⟨.empty, [], []⟩).1 = .ok ((Resolved.blank amount 7).relayedBy price) := by
      rw [Resolver.resolution, resolver.evaluate_resolveAt_target _ _ _ _ _ unsettled rfl,
        Process.evaluate_bind, resolver_maxDepth, evaluate_unentered 7 rfl]
      rfl
    have other := congrArg Prod.fst (evaluate_unentered 8 (s := ⟨.empty, [], []⟩) rfl)
    obtain ⟨through, -⟩ := resolver.standing_in ⟨none, .detail⟩ 7 _ _ rfl reference_price rfl
      unsettled.noResult shown other
    exact ⟨_, shown, through (by simp [Session.empty, Session.local?])⟩
  · obtain ⟨-, supplied⟩ := resolver.standing_in ⟨none, .detail⟩ 7 _ _ rfl reference_price rfl
      (result?_entered _) (congrArg Prod.fst (evaluate_entered (a := price) rfl rfl))
      (congrArg Prod.fst (evaluate_entered (a := amount) rfl rfl))
    obtain ⟨-, apart⟩ := supplied _ local?_entered
    obtain ⟨-, agree⟩ := apart rfl (result?_entered _) rfl
    exact ⟨_, _, resolve_entered rfl rfl, resolve_entered rfl rfl, unlike, fun same => unlike (agree.1 same)⟩

end Fees

end TokenSchema
