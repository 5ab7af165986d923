import Mathlib.Algebra.Order.Group.Nat
import TokenSchema.Process

/-!
# Steps — how long a process can go on

A process ends: it is a tree without infinite branches. `Process.EndsWithin` bounds its branches, whatever the
process sees of session and store and whatever it is answered. Bounds of a sequence add up
(`Process.EndsWithin.bind`).
-/

namespace TokenSchema
namespace Process

variable {α β : Type}

/-- Whatever it sees and is answered, a process ends within so many steps. -/
inductive EndsWithin : Nat → {α : Type} → Process α → Prop where
  | done {n : Nat} {α : Type} (a : α) : EndsWithin n (.done a)
  | fail {n : Nat} {α : Type} (e : ResolveError) : EndsWithin n (.fail e : Process α)
  | access {n : Nat} {α : Type} {next : Process α} :
      EndsWithin n next → EndsWithin (n + 1) (.access next)
  | look {n : Nat} {α : Type} {next : Session → Store → Process α} :
      (∀ session store, EndsWithin n (next session store)) → EndsWithin (n + 1) (.look next)
  | record {n : Nat} {α : Type} {r : Resolved} {next : Process α} :
      EndsWithin n next → EndsWithin (n + 1) (.record r next)
  | keep {n : Nat} {α : Type} {r : CachedRecord} {next : Process α} :
      EndsWithin n next → EndsWithin (n + 1) (.keep r next)
  | ask {n : Nat} {α : Type} {q : Request} {next : Answer → Process α} :
      (∀ answer, EndsWithin n (next answer)) → EndsWithin (n + 1) (.ask q next)

namespace EndsWithin

variable {n m : Nat} {p : Process α} {f : α → Process β}

theorem mono (within : EndsWithin n p) (le : n ≤ m) : EndsWithin m p := by
  induction within generalizing m with
  | done a => exact .done a
  | fail e => exact .fail e
  | access _ ih =>
      obtain ⟨m, rfl⟩ := Nat.exists_eq_add_of_le' (Nat.one_le_of_lt le)
      exact .access (ih (Nat.le_of_succ_le_succ le))
  | look _ ih =>
      obtain ⟨m, rfl⟩ := Nat.exists_eq_add_of_le' (Nat.one_le_of_lt le)
      exact .look fun session store => ih session store (Nat.le_of_succ_le_succ le)
  | record _ ih =>
      obtain ⟨m, rfl⟩ := Nat.exists_eq_add_of_le' (Nat.one_le_of_lt le)
      exact .record (ih (Nat.le_of_succ_le_succ le))
  | keep _ ih =>
      obtain ⟨m, rfl⟩ := Nat.exists_eq_add_of_le' (Nat.one_le_of_lt le)
      exact .keep (ih (Nat.le_of_succ_le_succ le))
  | ask _ ih =>
      obtain ⟨m, rfl⟩ := Nat.exists_eq_add_of_le' (Nat.one_le_of_lt le)
      exact .ask fun answer => ih answer (Nat.le_of_succ_le_succ le)

/-! ## Sequences -/

theorem bind (first : EndsWithin n p) (rest : ∀ a, EndsWithin m (f a)) :
    EndsWithin (n + m) (p >>= f) := by
  change EndsWithin (n + m) (p.bind f)
  -- The steps of the first part are counted before those of the rest.
  induction first with
  | done a => exact (rest a).mono (Nat.le_add_left m _)
  | fail e => exact .fail e
  | access _ ih =>
      rw [Nat.add_right_comm]
      exact .access (ih rest)
  | look _ ih =>
      rw [Nat.add_right_comm]
      exact .look fun session store => ih session store rest
  | record _ ih =>
      rw [Nat.add_right_comm]
      exact .record (ih rest)
  | keep _ ih =>
      rw [Nat.add_right_comm]
      exact .keep (ih rest)
  | ask _ ih =>
      rw [Nat.add_right_comm]
      exact .ask fun answer => ih answer rest

theorem accesses_bind {g : Unit → Process β} (count : Nat) (rest : EndsWithin n (g ())) :
    EndsWithin (count + n) (accesses count >>= g) := by
  induction count with
  | zero => exact rest.mono (Nat.le_add_left n 0)
  | succ count ih =>
      rw [Nat.add_right_comm]
      exact .access ih

theorem session_bind {g : Session → Process β} (rest : ∀ session, EndsWithin n (g session)) :
    EndsWithin (n + 1) (Process.session >>= g) :=
  .look fun session _ => rest session

theorem store_bind {g : Store → Process β} (rest : ∀ store, EndsWithin n (g store)) :
    EndsWithin (n + 1) (Process.store >>= g) :=
  .look fun _ store => rest store

theorem answerTo_bind {g : Answer → Process β} (q : Request)
    (rest : ∀ answer, EndsWithin n (g answer)) : EndsWithin (n + 1) (answerTo q >>= g) :=
  .ask rest

theorem recorded (r : Resolved) : EndsWithin 1 (recorded r) :=
  .record (.done r)

end EndsWithin

end Process
end TokenSchema
