import Mathlib.Logic.Function.Basic
import TokenSchema.Proofs.InFlight.Traffic

/-!
# Coalescing — one call for requests that are alike

Requests that share a key share a call:

* for one key at most one call runs at a time (`Traffic.Reachable.one_call`);
* an answer that a request holds was given to a call of its cell (`Traffic.Reachable.exists_fetched`);
* a request that finds nobody in progress for its key finds its cell idle, and whatever it ends with was
  fetched by itself or by one that joined after it (`Traffic.status_joined_of_quiet`,
  `Traffic.Run.exists_fetched_since`).

`Traffic.Reachable.coalesced` puts these together for keys that tell what is asked for apart.
-/

namespace TokenSchema

theorem InFlight.cellOf?_join {κ α : Type} [DecidableEq κ] (t : InFlight κ α) (key : κ) :
    (t.join key).2.cellOf? key = some (t.join key).1 := by
  cases known : t.cellOf? key with
  | some cell => rw [join_of_some known, known]
  | none =>
      obtain ⟨-, cells, -⟩ := opened_laws known rfl
      rw [cells, if_pos rfl, join_of_none known]

/-! ## What becomes of a request -/

namespace Asker

variable {ρ α : Type}

/-- It has called, so no answer but its own can come to it. -/
def OnOwn (x : Asker ρ α) : Prop :=
  match x.standing with
  | .waiting => False
  | .served own _ | .finished own _ => own = true
  | .calling | .dropped => True

/-- What a request may become: the same request, dropped for good once it is dropped, and on its own
once it has called. -/
structure Becomes (x y : Asker ρ α) : Prop where
  target_eq : y.target = x.target
  cell_eq : y.cell = x.cell
  dropped : x.standing = .dropped → y.standing = .dropped
  own : x.OnOwn → y.OnOwn

theorem Becomes.refl (x : Asker ρ α) : x.Becomes x :=
  ⟨rfl, rfl, id, id⟩

theorem Becomes.trans {x y z : Asker ρ α} (first : x.Becomes y) (second : y.Becomes z) :
    x.Becomes z :=
  ⟨second.target_eq.trans first.target_eq, second.cell_eq.trans first.cell_eq,
    fun dropped => second.dropped (first.dropped dropped), fun own => second.own (first.own own)⟩

end Asker

namespace Traffic

variable {ρ κ α : Type} [DecidableEq κ] {key : ρ → κ} {s s' : Traffic ρ κ α} {n : Nat}
variable {x : Asker ρ α}

omit [DecidableEq κ] in
/-- Nobody but the one that moves becomes anything else. -/
theorem exists_becomes_move (here : s.At n x) (going : x.standing ≠ .dropped) {standing : Standing α}
    (own : x.OnOwn → ({ x with standing := standing } : Asker ρ α).OnOwn) {table : InFlight κ α}
    {i : Nat} {y : Asker ρ α} (there : s.At i y) :
    ∃ z, (s.move n x standing table).At i z ∧ y.Becomes z := by
  by_cases same : i = n
  · subst same
    obtain rfl := here.unique there
    exact ⟨_, here.move _ _, rfl, rfl, fun gone => absurd gone going, own⟩
  · exact ⟨y, here.move_of_ne there same, .refl y⟩

theorem Step.becomes (step : Step key s s') {i : Nat} {y : Asker ρ α} (there : s.At i y) :
    ∃ z, s'.At i z ∧ y.Becomes z := by
  cases step with
  | join target => exact ⟨y, at_join_iff.2 (.inr there), .refl y⟩
  | start here stands _ | answer here stands _ | read here stands _ | leave here stands
  | dropWaiting here stands | dropCalling here stands =>
      exact exists_becomes_move here (by simp [stands]) (by simp [Asker.OnOwn, stands]) there

theorem Run.becomes (run : Run key s s') {i : Nat} {y : Asker ρ α} (there : s.At i y) :
    ∃ z, s'.At i z ∧ y.Becomes z := by
  induction run with
  | refl => exact ⟨y, there, .refl y⟩
  | tail _ step ih =>
      obtain ⟨z, there', first⟩ := ih
      obtain ⟨z', there'', second⟩ := step.becomes there'
      exact ⟨z', there'', first.trans second⟩

/-! ## One call at a time -/

/-- The cell of a request that waits or calls is the one that the table lists for its key. -/
theorem Listed.cellOf?_of_unready (listed : Listed key s) (tended : Tended s) (here : s.At n x)
    (unready : ∀ a, s.table.status x.cell ≠ .ready a) :
    s.table.cellOf? (key x.target) = some x.cell := by
  refine (listed.cellOf?_iff _ _).2 ⟨⟨n, x, here, rfl, rfl⟩, ?_⟩
  rintro ⟨i, y, there, inCell, finished⟩
  cases stands : y.standing with
  | finished own a =>
      have ready := tended.holding i y a there (by simp [Asker.Holds, stands])
      exact unready a (inCell ▸ ready)
  | _ => simp [Asker.IsFinished, stands] at finished

theorem Reachable.one_call (reached : Reachable key s) {i j : Nat} {x y : Asker ρ α}
    (here : s.At i x) (there : s.At j y) (calls : x.standing = .calling)
    (calls' : y.standing = .calling) (same : key x.target = key y.target) : i = j := by
  obtain ⟨listed, tended⟩ := reached.sound
  have unready : ∀ k z, s.At k z → z.standing = .calling → ∀ a, s.table.status z.cell ≠ .ready a := by
    intro k z at_ calling a ready
    rw [tended.calling k z at_ calling] at ready
    cases ready
  -- Both are in the cell that the table lists for their key.
  have first := listed.cellOf?_of_unready tended here (unready i x here calls)
  have second := listed.cellOf?_of_unready tended there (unready j y there calls')
  rw [same, second] at first
  exact tended.alone i j x y here there calls calls' (Option.some.inj first).symm

/-! ## Where answers come from -/

theorem Reachable.exists_fetched (reached : Reachable key s) (here : s.At n x) {a : α}
    (has : x.Holds a) :
    ∃ m y, s.At m y ∧ y.cell = x.cell ∧ key y.target = key x.target ∧ y.Fetched a := by
  obtain ⟨listed, tended⟩ := reached.sound
  have ready := tended.holding n x a here has
  obtain ⟨m, y, there, inCell, fetched⟩ := tended.fetched x.cell a ready
  exact ⟨m, y, there, inCell, listed.sameKey m n y x there here inCell, fetched⟩

/-! ## Requests that come to a quiet key -/

/-- Nobody is in progress for the key. -/
def Quiet (key : ρ → κ) (s : Traffic ρ κ α) (k : κ) : Prop :=
  ∀ i x, s.At i x → key x.target = k → ¬ x.InProgress

/-- All requests that were in the cell of a quiet key before have been dropped. -/
theorem Listed.dropped_of_quiet (listed : Listed key s) {target : ρ}
    (quiet : s.Quiet key (key target)) {i : Nat} {y : Asker ρ α} (there : s.At i y)
    (joined : y.cell = (s.table.join (key target)).1) : y.standing = .dropped := by
  have gone := quiet i y there (listed.key_eq_of_joined there joined)
  have listed' := (listed.cellOf?_join_iff target (key target) _).1 (s.table.cellOf?_join (key target))
  cases stands : y.standing with
  | dropped => rfl
  | finished own a => exact absurd ⟨i, y, there, joined, by simp [Asker.IsFinished, stands]⟩ listed'.2
  | _ => simp [Asker.InProgress, stands] at gone

theorem status_joined_of_quiet (listed : Listed key s) (tended : Tended s) {target : ρ}
    (quiet : s.Quiet key (key target)) :
    (s.join key target).table.status (s.table.join (key target)).1 = .idle := by
  have after := tended.join listed target
  -- Whoever calls or has called in the cell was there before, and has been dropped.
  have unanswered : ∀ i y, (s.join key target).At i y → y.cell = (s.table.join (key target)).1 →
      y.standing = .waiting ∨ y.standing = .dropped := by
    intro i y there inCell
    rcases at_join_iff.1 there with ⟨-, rfl⟩ | there
    · exact .inl rfl
    · exact .inr (listed.dropped_of_quiet quiet there inCell)
  cases status : (s.join key target).table.status (s.table.join (key target)).1 with
  | idle => rfl
  | running =>
      obtain ⟨i, y, there, inCell, calls⟩ := after.called _ status
      rcases unanswered i y there inCell with stands | stands
      · rw [stands] at calls
        cases calls
      · rw [stands] at calls
        cases calls
  | ready a =>
      obtain ⟨i, y, there, inCell, got⟩ := after.fetched _ a status
      rcases unanswered i y there inCell with stands | stands
      · simp [Asker.Fetched, stands] at got
      · simp [Asker.Fetched, stands] at got

/-- What the node gave to the cell of a request that came to a quiet key, it gave to that request or to
a later one. -/
theorem Run.exists_fetched_since (reached : Reachable key s) {target : ρ}
    (quiet : s.Quiet key (key target)) (run : Run key (s.join key target) s')
    (here : s'.At s.askers.length x) {a : α} (has : x.Holds a) :
    ∃ m y, s.askers.length ≤ m ∧ s'.At m y ∧ key y.target = key target ∧ y.Fetched a := by
  obtain ⟨listed, -⟩ := reached.sound
  have joined : (s.join key target).At s.askers.length
      ⟨target, (s.table.join (key target)).1, .waiting⟩ := at_join_iff.2 (.inl ⟨rfl, rfl⟩)
  obtain ⟨x', here', became⟩ := run.becomes joined
  obtain rfl := here.unique here'
  have later : Reachable key s' := (reached.tail (.join s target)).trans run
  obtain ⟨m, y, there, inCell, sameKey, got⟩ := later.exists_fetched here has
  refine ⟨m, y, ?_, there, sameKey.trans (congrArg key became.target_eq), got⟩
  -- An earlier request of the cell has been dropped, so nothing was fetched by it.
  apply Nat.le_of_not_lt
  intro earlier
  obtain ⟨y₀, before⟩ : ∃ y₀, s.At m y₀ := ⟨_, List.getElem?_eq_getElem earlier⟩
  obtain ⟨y', there', became'⟩ := run.becomes (at_join_iff.2 (.inr before))
  obtain rfl := there.unique there'
  have inJoined : y₀.cell = (s.table.join (key target)).1 := by
    rw [← became'.cell_eq, inCell, became.cell_eq]
  have dropped := became'.dropped (listed.dropped_of_quiet quiet before inJoined)
  simp [Asker.Fetched, dropped] at got

/-! ## What requests can rely on -/

/-- What requests can rely on that share their answers by a key, wherever they have come:

* for a key at most one call runs at a time;
* a request that has an answer has one that was given to a call for the same target;
* one that joins when all others for its key are finished or dropped may call at once, and then it ends with the answer
  to its own call alone;
* if it has not called when others join after it, it ends with an answer to its own call or to one of theirs, never
  with an earlier one. -/
structure Coalesced (key : ρ → κ) (s : Traffic ρ κ α) : Prop where
  one_call : ∀ i j x y, s.At i x → s.At j y → x.standing = .calling → y.standing = .calling →
    key x.target = key y.target → i = j
  answered : ∀ n x a, s.At n x → x.Holds a → ∃ m y, s.At m y ∧ y.target = x.target ∧ y.Fetched a
  begins : ∀ target, s.Quiet key (key target) →
    let n := s.askers.length
    let joined := s.join key target
    ∃ x, joined.At n x ∧ x.target = target ∧
      let begun := joined.move n x .calling (joined.table.start x.cell)
      Step key joined begun ∧
        ∀ s' y own a, Run key begun s' → s'.At n y → y.standing = .finished own a → own = true
  since : ∀ target, s.Quiet key (key target) →
    let n := s.askers.length
    ∀ s' y own a, Run key (s.join key target) s' → s'.At n y → y.standing = .finished own a →
      own = true ∨ ∃ m z, n < m ∧ s'.At m z ∧ z.target = target ∧ z.Fetched a

/-- A key that tells the targets apart is enough. -/
theorem Reachable.coalesced (reached : Reachable key s) (injective : Function.Injective key) :
    Coalesced key s := by
  obtain ⟨listed, tended⟩ := reached.sound
  refine ⟨?_, ?_, ?_, ?_⟩
  · intro i j x y here there calls calls' same
    exact reached.one_call here there calls calls' same
  · intro n x a here has
    obtain ⟨m, y, there, -, same, fetched⟩ := reached.exists_fetched here has
    exact ⟨m, y, there, injective same, fetched⟩
  · intro target quiet n joined
    have last : joined.At n ⟨target, (s.table.join (key target)).1, .waiting⟩ :=
      at_join_iff.2 (.inl ⟨rfl, rfl⟩)
    -- Nobody calls in its cell, so it may; and once it has called, no other answer comes to it.
    refine ⟨_, last, rfl, .start last rfl (status_joined_of_quiet listed tended quiet), ?_⟩
    intro s' y own a run here finished
    obtain ⟨y', here', became⟩ := run.becomes (last.move _ _)
    obtain rfl := here.unique here'
    simpa [Asker.OnOwn, finished] using became.own trivial
  · intro target quiet n s' y own a run here finished
    have has : y.Holds a := by simp [Asker.Holds, finished]
    obtain ⟨m, z, since, there, same, fetched⟩ := run.exists_fetched_since reached quiet here has
    rcases Nat.lt_or_eq_of_le since with later | rfl
    · exact .inr ⟨m, z, later, there, injective same, fetched⟩
    · obtain rfl := here.unique there
      simp only [Asker.Fetched, finished] at fetched
      exact .inl fetched.1

end Traffic

end TokenSchema
