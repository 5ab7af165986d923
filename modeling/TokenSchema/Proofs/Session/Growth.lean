import TokenSchema.Proofs.Process.Course
import TokenSchema.Proofs.Resolution.TokenBlind

/-!
# Growth — what a session knows after acts

A session grows when results are recorded under names that it does not know yet (`Session.Extends`). A
process that is left alone sees the session that its own acts have left (`Pass.seen`), and what is known
there was known before or was recorded by one of them (`Pass.seen_append_cases`).
-/

namespace TokenSchema

/-! ## Sessions that grow -/

namespace Session

/-- A session knows all that another does, and the host has given both the same values. -/
structure Extends (s s' : Session) : Prop where
  locals_eq : s'.locals = s.locals
  keeps : ∀ name tokenId x, s.result? name tokenId = some x → s'.result? name tokenId = some x

namespace Extends

theorem refl (s : Session) : Extends s s :=
  ⟨rfl, fun _ _ _ known => known⟩

theorem trans {s₁ s₂ s₃ : Session} (h : Extends s₁ s₂) (h' : Extends s₂ s₃) : Extends s₁ s₃ :=
  ⟨h'.locals_eq.trans h.locals_eq, fun name t x known => h'.keeps name t x (h.keeps name t x known)⟩

theorem local?_eq {s s' : Session} (h : Extends s s') (name : String) :
    s'.local? name = s.local? name := by
  simp only [local?, h.locals_eq]

theorem unknown {s s' : Session} (h : Extends s s') {name : String} {tokenId : Nat}
    (unknown : s'.result? name tokenId = none) : s.result? name tokenId = none := by
  cases known : s.result? name tokenId with
  | none => rfl
  | some x => rw [h.keeps name tokenId x known] at unknown; cases unknown

theorem record {s : Session} {x : Resolved} (fresh : s.result? x.id x.tokenId = none) :
    Extends s (s.record x) := by
  refine ⟨rfl, ?_⟩
  intro name tokenId y known
  rw [result?_record, if_neg, known]
  rintro ⟨rfl, rfl⟩
  rw [fresh] at known
  cases known

end Extends

theorem result?_record_self (s : Session) (x : Resolved) :
    (s.record x).result? x.id x.tokenId = some x := by
  rw [result?_record, if_pos ⟨rfl, rfl⟩]

end Session

namespace Pass

/-- The session after acts. -/
def seen (s : Pass) (acts : List Act) : Session :=
  (s.after acts).session

variable (s : Pass) (acts : List Act)

@[simp] theorem seen_nil : s.seen [] = s.session := rfl

@[simp] theorem seen_recorded (x : Resolved) :
    s.seen (acts ++ [.recorded x]) = (s.seen acts).record x := by
  rw [seen, after_append]
  rfl

/-- Acts that record nothing leave the session as it is. -/
theorem seen_append_of_quiet {rest : List Act} (quiet : ∀ x, .recorded x ∉ rest) :
    s.seen (acts ++ rest) = s.seen acts := by
  induction rest generalizing acts with
  | nil => rw [List.append_nil]
  | cons act rest ih =>
      have later : ∀ x, .recorded x ∉ rest := fun x member => quiet x (List.mem_cons_of_mem _ member)
      -- Only records are seen in the session.
      have step : s.seen (acts ++ [act]) = s.seen acts := by
        rw [seen, after_append]
        cases act with
        | recorded x => exact absurd List.mem_cons_self (quiet x)
        | kept k => rfl
        | answered q answer => rfl
      rw [List.append_cons, ih _ later, step]

/-- A result that is known after acts was known before, or was recorded by one of them. -/
theorem seen_append_cases {rest : List Act} {name : String} {tokenId : Nat} {x : Resolved}
    (known : (s.seen (acts ++ rest)).result? name tokenId = some x) :
    (s.seen acts).result? name tokenId = some x ∨
      .recorded x ∈ rest ∧ x.id = name ∧ x.tokenId = tokenId := by
  induction rest generalizing acts with
  | nil => exact .inl (by simpa using known)
  | cons act rest ih =>
      rw [List.append_cons] at known
      rcases ih (acts ++ [act]) known with before | ⟨member, keyed⟩
      · -- What the later acts found there was there before the first one, or is what it recorded.
        cases act with
        | recorded y =>
            rw [seen_recorded, Session.result?_record] at before
            split at before
            · rename_i same
              cases before
              exact .inr ⟨List.mem_cons_self, same⟩
            · exact .inl before
        | kept k =>
            rw [s.seen_append_of_quiet acts (by simp)] at before
            exact .inl before
        | answered q answer =>
            rw [s.seen_append_of_quiet acts (by simp)] at before
            exact .inl before
      · exact .inr ⟨List.mem_cons_of_mem _ member, keyed⟩

end Pass

namespace Process.Course

variable {α : Type} {answers : Answers} {store : Store} {start : Pass} {past acts : List Act}
variable {result : Except ResolveError α}

/-- A process that is left alone sees the session that its acts have left. -/
theorem of_session_bind_alone {f : Session → Process α}
    (h : Course (.alone answers store start) past (Process.session >>= f) acts result) :
    Course (.alone answers store start) past (f (start.seen past)) acts result := by
  obtain ⟨session, seenStore, ⟨sees, -⟩, goes⟩ := h.of_session_bind
  rw [Pass.seen, ← sees]
  exact goes

theorem of_store_bind_alone {f : Store → Process α}
    (h : Course (.alone answers store start) past (Process.store >>= f) acts result) :
    Course (.alone answers store start) past (f store) acts result := by
  obtain ⟨session, seenStore, ⟨-, sees⟩, goes⟩ := h.of_store_bind
  subst sees
  exact goes

end Process.Course

end TokenSchema
