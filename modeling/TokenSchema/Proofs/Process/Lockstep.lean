import TokenSchema.Proofs.Process.Evaluation

/-!
# Lockstep — two processes that come to outcomes that agree

Two processes are compared under one node and one store. A relation between passes says how far they
have come alike; `Process.Lockstep` says that alike they remain: both fail for one reason, or both give
results that are related as wished. The rules follow the ways in which processes are put together.
-/

namespace TokenSchema
namespace Process

variable {α β γ δ : Type}

/-- Both fail for one reason, or both give results that are related and leave passes that are alike. -/
inductive Agree (S : Pass → Pass → Prop) (V : α → β → Prop) :
    Except ResolveError α × Pass → Except ResolveError β × Pass → Prop where
  | ok {a : α} {b : β} {s₁ s₂ : Pass} : V a b → S s₁ s₂ → Agree S V (.ok a, s₁) (.ok b, s₂)
  | error (e : ResolveError) (s₁ s₂ : Pass) : Agree S V (.error e, s₁) (.error e, s₂)

/-- From passes that are alike, two processes come to outcomes that agree. -/
def Lockstep (answers : Answers) (store : Store) (S : Pass → Pass → Prop) (V : α → β → Prop)
    (p : Process α) (q : Process β) : Prop :=
  ∀ s₁ s₂, S s₁ s₂ → Agree S V (p.evaluate answers store s₁) (q.evaluate answers store s₂)

variable {answers : Answers} {store : Store} {S : Pass → Pass → Prop}
variable {V : α → β → Prop} {W : γ → δ → Prop}

theorem Agree.imp {V' : α → β → Prop} (weaker : ∀ a b, V a b → V' a b)
    {x : Except ResolveError α × Pass} {y : Except ResolveError β × Pass} (h : Agree S V x y) :
    Agree S V' x y := by
  cases h with
  | ok related alike => exact .ok (weaker _ _ related) alike
  | error e s₁ s₂ => exact .error e s₁ s₂

/-! ## Sequences -/

theorem Agree.bind {p : Process α} {q : Process β} {f : α → Process γ} {g : β → Process δ}
    {s₁ s₂ : Pass} (first : Agree S V (p.evaluate answers store s₁) (q.evaluate answers store s₂))
    (rest : ∀ a b, V a b → Lockstep answers store S W (f a) (g b)) :
    Agree S W ((p >>= f).evaluate answers store s₁) ((q >>= g).evaluate answers store s₂) := by
  rw [evaluate_bind, evaluate_bind]
  generalize p.evaluate answers store s₁ = x at first
  generalize q.evaluate answers store s₂ = y at first
  cases first with
  | ok related alike => exact rest _ _ related _ _ alike
  | error e s₁ s₂ => exact .error e s₁ s₂

namespace Lockstep

theorem bind {p : Process α} {q : Process β} {f : α → Process γ} {g : β → Process δ}
    (first : Lockstep answers store S V p q)
    (rest : ∀ a b, V a b → Lockstep answers store S W (f a) (g b)) :
    Lockstep answers store S W (p >>= f) (q >>= g) := by
  intro s₁ s₂ alike
  exact (first s₁ s₂ alike).bind rest

/-! ## Steps -/

theorem done {a : α} {b : β} (related : V a b) :
    Lockstep answers store S V (.done a) (.done b) := by
  intro s₁ s₂ alike
  exact .ok related alike

theorem fail (e : ResolveError) :
    Lockstep answers store S V (.fail e : Process α) (.fail e : Process β) := by
  intro s₁ s₂ _
  exact .error e s₁ s₂

theorem accesses_bind (n m : Nat) {f : Unit → Process α} {g : Unit → Process β}
    (rest : Lockstep answers store S V (f ()) (g ())) :
    Lockstep answers store S V (accesses n >>= f) (accesses m >>= g) := by
  intro s₁ s₂ alike
  rw [evaluate_accesses_bind, evaluate_accesses_bind]
  exact rest s₁ s₂ alike

theorem store_bind {f : Store → Process α} {g : Store → Process β}
    (rest : Lockstep answers store S V (f store) (g store)) :
    Lockstep answers store S V (Process.store >>= f) (Process.store >>= g) := by
  intro s₁ s₂ alike
  rw [evaluate_store_bind, evaluate_store_bind]
  exact rest s₁ s₂ alike

/-- The two sessions need not be the same, so the rest is compared at the passes themselves. -/
theorem session_bind {f : Session → Process α} {g : Session → Process β}
    (rest : ∀ s₁ s₂, S s₁ s₂ →
      Agree S V ((f s₁.session).evaluate answers store s₁)
        ((g s₂.session).evaluate answers store s₂)) :
    Lockstep answers store S V (Process.session >>= f) (Process.session >>= g) := by
  intro s₁ s₂ alike
  rw [evaluate_session_bind, evaluate_session_bind]
  exact rest s₁ s₂ alike

theorem recorded {V : Resolved → Resolved → Prop} {r₁ r₂ : Resolved} (related : V r₁ r₂)
    (preserved : ∀ s₁ s₂, S s₁ s₂ → S (s₁.record r₁) (s₂.record r₂)) :
    Lockstep answers store S V (Process.recorded r₁) (Process.recorded r₂) := by
  intro s₁ s₂ alike
  exact .ok related (preserved s₁ s₂ alike)

theorem keep_done {k₁ k₂ : CachedRecord} {a : α} {b : β} (related : V a b)
    (preserved : ∀ s₁ s₂, S s₁ s₂ → S (s₁.keep k₁) (s₂.keep k₂)) :
    Lockstep answers store S V (.keep k₁ (.done a)) (.keep k₂ (.done b)) := by
  intro s₁ s₂ alike
  exact .ok related (preserved s₁ s₂ alike)

/-- One question gets one answer after requests that are the same. -/
theorem answerTo_bind {q : Request} {f : Answer → Process α} {g : Answer → Process β}
    (asked : ∀ s₁ s₂, S s₁ s₂ → s₁.requests = s₂.requests)
    (preserved : ∀ s₁ s₂, S s₁ s₂ → S (s₁.ask answers q) (s₂.ask answers q))
    (rest : ∀ answer, Lockstep answers store S V (f answer) (g answer)) :
    Lockstep answers store S V (answerTo q >>= f) (answerTo q >>= g) := by
  intro s₁ s₂ alike
  rw [evaluate_answerTo_bind, evaluate_answerTo_bind, asked s₁ s₂ alike]
  exact rest _ _ _ (preserved s₁ s₂ alike)

end Lockstep

end Process
end TokenSchema
