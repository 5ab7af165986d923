import TokenSchema.Proofs.Resolution.CallDecision
import TokenSchema.Resolver

/-!
# Outcomes — attributes that need neither node nor store

What a host gets for an attribute is what the evaluation of its resolution comes to (`Resolver.resolve_fst_eq`).
For a literal, for what the user is to enter, and for a value taken from the token id, one step is enough, so long as
a reference is left.
-/

namespace TokenSchema

/-! ## New sessions -/

@[simp] theorem Host.result?_ofStore (store : Store) (name : String) (tokenId : Nat) :
    (Host.ofStore store).session.result? name tokenId = none := by
  simp [Host.ofStore, Session.empty, Session.result?]

@[simp] theorem Host.local?_ofStore (store : Store) (name : String) :
    (Host.ofStore store).session.local? name = none := by
  simp [Host.ofStore, Session.empty, Session.local?]

namespace Resolver

variable (r : Resolver) (options : ResolveOptions) (tokenId : Nat)

/-- What a host gets for an attribute does not depend on how it makes its requests. -/
theorem resolve_fst_eq (node : Node) (a : Attribute) (h : Host) :
    (r.resolve node options a tokenId h).1 =
      ((r.resolution options tokenId a).evaluate (r.exchange node).answers h.store
        ⟨h.session, h.requests, []⟩).1 :=
  ((r.exchange node).run_eq_evaluate (r.resolution options tokenId a) [] h).1

section Evaluation

variable (answers : Answers) (store : Store) {a : Attribute} {s : Pass} (left : Nat)

theorem evaluate_resolveAt_literal {literal : String} (written : a.literal = some literal) :
    (r.resolveAt options tokenId (left + 1) a).evaluate answers store s =
      (.ok (Resolved.ofLiteral a tokenId literal), s) := by
  simp only [resolveAt, written, Process.evaluate_done]

/-- What the user is to enter has no value as long as nothing is known of it. -/
theorem evaluate_resolveAt_entry (unsettled : Unsettled tokenId s.session a) (noTarget : r.target? a = none)
    (entry : a.userInput = true) :
    (r.resolveAt options tokenId (left + 1) a).evaluate answers store s =
      (.ok (Resolved.blank a tokenId), s) := by
  have unknown : known? s.session a tokenId = none := by
    simp [known?, unsettled.noResult, unsettled.noLocal]
  simp only [resolveAt, unsettled.noLiteral, Process.evaluate_session_bind, unknown, noTarget, entry, if_true,
    Process.evaluate_done]

/-- Without call and event the value is taken from the token id, and is recorded. -/
theorem evaluate_resolveAt_static (reached : r.ComesToSource tokenId s.session a)
    (static : a.isStatic = true) :
    (r.resolveAt options tokenId (left + 1) a).evaluate answers store s =
      (.ok (Resolved.ofValue a tokenId (a.extract tokenId)),
        s.record (Resolved.ofValue a tokenId (a.extract tokenId))) := by
  obtain ⟨noCall, noEvent⟩ : a.call = none ∧ a.event = none := by
    simpa [Attribute.isStatic] using static
  rw [r.evaluate_resolveAt_source answers store options tokenId left reached, fromSource, noCall, noEvent]
  rfl

end Evaluation

end Resolver
end TokenSchema
