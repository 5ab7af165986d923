import Mathlib.Logic.Relation
import TokenSchema.InFlight

/-!
# Traffic — requests that share their answers, in any order

Any number of requests join the table, make their calls, take their answers, leave, or are dropped, in
any order (`Traffic.Step`). A cell lets one request call at a time; when that one is dropped, a waiting
one may take its place; once there is an answer, all that wait may read it.

What one step keeps is said in two parts: which cell a key has (`Traffic.Listed`) and what a cell knows
of its requests (`Traffic.Tended`). Both hold wherever steps lead (`Traffic.Reachable.sound`).
-/

namespace TokenSchema

namespace InFlight

variable {κ α : Type}

/-! ## Laws of the table -/

theorem status_setStatus (t : InFlight κ α) (cell other : Nat) (c : Cell α) :
    (t.setStatus cell c).status other = if other = cell then c else t.status other := by
  by_cases same : other = cell
  · simp [setStatus, status, same]
  · simp [setStatus, status, same, Std.TreeMap.getElem?_insert, Ne.symm same]

variable [DecidableEq κ]

theorem join_of_some {t : InFlight κ α} {key : κ} {cell : Nat} (known : t.cellOf? key = some cell) :
    t.join key = (cell, t) := by
  simp only [join, known]

theorem join_of_none {t : InFlight κ α} {key : κ} (unknown : t.cellOf? key = none) :
    t.join key = (t.next, { pending := (key, t.next) :: t.pending
                            cells := t.cells.insert t.next .idle
                            next := t.next + 1 }) := by
  simp only [join, unknown]

/-- The table once a cell is opened for a key: the cell is idle, and no other key or cell is touched. -/
theorem opened_laws {t opened : InFlight κ α} {key : κ} (unknown : t.cellOf? key = none)
    (made : opened = (t.join key).2) :
    opened.next = t.next + 1 ∧
      (∀ other, opened.cellOf? other = if other = key then some t.next else t.cellOf? other) ∧
      ∀ cell, opened.status cell = if cell = t.next then .idle else t.status cell := by
  rw [join_of_none unknown] at made
  subst made
  refine ⟨rfl, ?_, ?_⟩
  · intro other
    by_cases same : other = key
    · simp [cellOf?, same]
    · have apart : (other == key) = false := by simpa using same
      simp [cellOf?, List.lookup_cons, same, apart]
  · intro cell
    exact status_setStatus t t.next cell .idle

theorem lookup_filter_ne (entries : List (κ × Nat)) (key other : κ) :
    (entries.filter fun e => e.1 ≠ key).lookup other =
      if other = key then none else entries.lookup other := by
  induction entries with
  | nil => simp
  | cons e rest ih =>
      obtain ⟨k, cell⟩ := e
      by_cases gone : k = key
      · by_cases same : other = key
        · simp [gone, same] at ih ⊢
          exact ih
        · have apart : (other == key) = false := by simpa using same
          simp [gone, same, apart, List.lookup_cons] at ih ⊢
          exact ih
      · by_cases same : other = k
        · simp [gone, same]
        · have apart : (other == k) = false := by simpa using same
          simp [gone, apart, List.lookup_cons] at ih ⊢
          exact ih

/-- A key is off the table once it is left for the cell it stands for; all others stay. -/
theorem cellOf?_leave (t : InFlight κ α) (key other : κ) (cell : Nat) :
    (t.leave key cell).cellOf? other =
      if t.cellOf? key = some cell ∧ other = key then none else t.cellOf? other := by
  by_cases listed : t.cellOf? key = some cell
  · simp only [leave, listed, if_true, true_and]
    exact lookup_filter_ne t.pending key other
  · simp [leave, listed]

end InFlight

/-! ## Requests -/

/-- Where a request stands that shares its answer. An answer is its own if it came to a call that the
request made itself. -/
inductive Standing (α : Type) where
  | waiting
  /-- Its own call is running. -/
  | calling
  /-- It has an answer, and has not left yet. -/
  | served (own : Bool) (answer : α)
  | finished (own : Bool) (answer : α)
  | dropped
  deriving DecidableEq, Repr

/-- A request that has joined a cell, for something of type `ρ`. -/
structure Asker (ρ α : Type) where
  target : ρ
  cell : Nat
  standing : Standing α
  deriving DecidableEq, Repr

namespace Asker

variable {ρ α : Type}

/-- It has neither finished nor been dropped. -/
def InProgress (x : Asker ρ α) : Prop :=
  match x.standing with
  | .waiting | .calling | .served _ _ => True
  | .finished _ _ | .dropped => False

/-- It has come to its end with an answer. -/
def IsFinished (x : Asker ρ α) : Prop :=
  match x.standing with
  | .finished _ _ => True
  | _ => False

/-- It has the answer, by its own call or not. -/
def Holds (x : Asker ρ α) (answer : α) : Prop :=
  match x.standing with
  | .served _ a | .finished _ a => a = answer
  | _ => False

/-- The answer was given to the call that it made. -/
def Fetched (x : Asker ρ α) (answer : α) : Prop :=
  match x.standing with
  | .served own a | .finished own a => own = true ∧ a = answer
  | _ => False

end Asker

/-- The table, and all requests that have joined so far, in the order in which they joined. -/
structure Traffic (ρ κ α : Type) where
  table : InFlight κ α
  askers : List (Asker ρ α)

namespace Traffic

variable {ρ κ α : Type}

/-- Nobody has asked for anything. -/
def empty : Traffic ρ κ α :=
  ⟨.empty, []⟩

/-- The request with a number. -/
def At (s : Traffic ρ κ α) (n : Nat) (x : Asker ρ α) : Prop :=
  s.askers[n]? = some x

instance [DecidableEq ρ] [DecidableEq α] (s : Traffic ρ κ α) (n : Nat) (x : Asker ρ α) :
    Decidable (s.At n x) :=
  inferInstanceAs (Decidable (_ = _))

/-- A request comes to stand elsewhere, and the table changes. -/
def move (s : Traffic ρ κ α) (n : Nat) (x : Asker ρ α) (standing : Standing α)
    (table : InFlight κ α) : Traffic ρ κ α :=
  ⟨table, s.askers.set n { x with standing := standing }⟩

variable [DecidableEq κ] (key : ρ → κ)

/-- A further request joins the cell of its key. -/
def join (s : Traffic ρ κ α) (target : ρ) : Traffic ρ κ α :=
  let (cell, table) := s.table.join (key target)
  ⟨table, s.askers ++ [⟨target, cell, .waiting⟩]⟩

/-- What may happen next. -/
inductive Step : Traffic ρ κ α → Traffic ρ κ α → Prop where
  | join (s : Traffic ρ κ α) (target : ρ) : Step s (s.join key target)
  /-- Nobody is calling for the cell, and there is no answer yet. -/
  | start {s : Traffic ρ κ α} {n : Nat} {x : Asker ρ α} (here : s.At n x)
      (stands : x.standing = .waiting) (free : s.table.status x.cell = .idle) :
      Step s (s.move n x .calling (s.table.start x.cell))
  | answer {s : Traffic ρ κ α} {n : Nat} {x : Asker ρ α} (here : s.At n x)
      (stands : x.standing = .calling) (a : α) :
      Step s (s.move n x (.served true a) (s.table.setStatus x.cell (.ready a)))
  | read {s : Traffic ρ κ α} {n : Nat} {x : Asker ρ α} {a : α} (here : s.At n x)
      (stands : x.standing = .waiting) (ready : s.table.status x.cell = .ready a) :
      Step s (s.move n x (.served false a) s.table)
  | leave {s : Traffic ρ κ α} {n : Nat} {x : Asker ρ α} {own : Bool} {a : α}
      (here : s.At n x) (stands : x.standing = .served own a) :
      Step s (s.move n x (.finished own a) (s.table.leave (key x.target) x.cell))
  | dropWaiting {s : Traffic ρ κ α} {n : Nat} {x : Asker ρ α} (here : s.At n x)
      (stands : x.standing = .waiting) : Step s (s.move n x .dropped s.table)
  | dropCalling {s : Traffic ρ κ α} {n : Nat} {x : Asker ρ α} (here : s.At n x)
      (stands : x.standing = .calling) :
      Step s (s.move n x .dropped (s.table.abandon x.cell))

/-- Any number of steps. -/
abbrev Run : Traffic ρ κ α → Traffic ρ κ α → Prop :=
  Relation.ReflTransGen (Step key)

/-- Steps lead there from where nobody has asked for anything. -/
def Reachable (s : Traffic ρ κ α) : Prop :=
  Run key .empty s

/-! ## Who stands where -/

variable {key} {s s' : Traffic ρ κ α} {n : Nat} {x : Asker ρ α}

omit [DecidableEq κ] in
theorem at_move_iff (here : s.At n x) {standing : Standing α} {table : InFlight κ α} {i : Nat}
    {y : Asker ρ α} :
    (s.move n x standing table).At i y ↔
      i = n ∧ y = { x with standing := standing } ∨ i ≠ n ∧ s.At i y := by
  obtain ⟨inside, -⟩ := List.getElem?_eq_some_iff.1 here
  by_cases same : i = n
  · simp [At, move, same, inside, eq_comm]
  · simp [At, move, same, Ne.symm same]

omit [DecidableEq κ] in
/-- The one that moves stands where it has moved. -/
theorem At.move (here : s.At n x) (standing : Standing α) (table : InFlight κ α) :
    (s.move n x standing table).At n { x with standing := standing } :=
  (at_move_iff here).2 (.inl ⟨rfl, rfl⟩)

omit [DecidableEq κ] in
theorem At.move_of_ne (here : s.At n x) {standing : Standing α} {table : InFlight κ α} {i : Nat}
    {y : Asker ρ α} (there : s.At i y) (other : i ≠ n) : (s.move n x standing table).At i y :=
  (at_move_iff here).2 (.inr ⟨other, there⟩)

omit [DecidableEq κ] in
theorem At.unique {y : Asker ρ α} (there : s.At n x) (here : s.At n y) : x = y :=
  Option.some.inj (there.symm.trans here)

omit [DecidableEq κ] in
@[simp] theorem table_move {standing : Standing α} {table : InFlight κ α} :
    (s.move n x standing table).table = table := rfl

theorem at_join_iff {target : ρ} {i : Nat} {y : Asker ρ α} :
    (s.join key target).At i y ↔
      i = s.askers.length ∧ y = ⟨target, (s.table.join (key target)).1, .waiting⟩ ∨ s.At i y := by
  by_cases last : i = s.askers.length
  · simp [At, join, last, eq_comm]
  · by_cases before : i < s.askers.length
    · simp [At, join, last, List.getElem?_append, before]
    · have beyond : s.askers.length < i := by omega
      have far : ∀ extra : Asker ρ α, (s.askers ++ [extra])[i]? = none := by
        intro extra
        apply List.getElem?_eq_none
        simp
        omega
      simp [At, join, last, far, List.getElem?_eq_none (Nat.le_of_lt beyond)]

omit [DecidableEq κ] in
theorem At.lt (here : s.At n x) : n < s.askers.length :=
  (List.getElem?_eq_some_iff.1 here).1

/-! ## Keys and cells -/

/-- A request of the cell has come to its end with an answer. -/
def Left (s : Traffic ρ κ α) (cell : Nat) : Prop :=
  ∃ i x, s.At i x ∧ x.cell = cell ∧ x.IsFinished

/-- A request for the key has joined the cell. -/
def Opened (key : ρ → κ) (s : Traffic ρ κ α) (k : κ) (cell : Nat) : Prop :=
  ∃ i x, s.At i x ∧ x.cell = cell ∧ key x.target = k

/-- The table has a cell for a key just as long as requests have joined it and none of them has
finished. -/
structure Listed (key : ρ → κ) (s : Traffic ρ κ α) : Prop where
  opened : ∀ i x, s.At i x → x.cell < s.table.next
  sameKey : ∀ i j x y, s.At i x → s.At j y → x.cell = y.cell → key x.target = key y.target
  cellOf?_iff : ∀ k cell, s.table.cellOf? k = some cell ↔ s.Opened key k cell ∧ ¬ s.Left cell

theorem Listed.empty : Listed key (.empty : Traffic ρ κ α) where
  opened := by simp [Traffic.empty, At]
  sameKey := by simp [Traffic.empty, At]
  cellOf?_iff := by simp [Traffic.empty, InFlight.empty, InFlight.cellOf?, At, Opened]

omit [DecidableEq κ] in
/-- Where it stands aside, a request stays what it was. -/
theorem exists_of_at_move (here : s.At n x) {standing : Standing α} {table : InFlight κ α} {i : Nat}
    {y : Asker ρ α} (there : (s.move n x standing table).At i y) :
    ∃ z, s.At i z ∧ z.cell = y.cell ∧ z.target = y.target := by
  rcases (at_move_iff here).1 there with ⟨rfl, rfl⟩ | ⟨-, there⟩
  · exact ⟨x, here, rfl, rfl⟩
  · exact ⟨y, there, rfl, rfl⟩

omit [DecidableEq κ] in
theorem opened_move_iff (here : s.At n x) {standing : Standing α} {table : InFlight κ α} {k : κ}
    {cell : Nat} : (s.move n x standing table).Opened key k cell ↔ s.Opened key k cell := by
  constructor
  · rintro ⟨i, y, there, rest⟩
    rcases (at_move_iff here).1 there with ⟨rfl, rfl⟩ | ⟨-, there⟩
    · exact ⟨i, x, here, rest⟩
    · exact ⟨i, y, there, rest⟩
  · rintro ⟨i, y, there, rest⟩
    by_cases same : i = n
    · subst same
      obtain rfl := here.unique there
      exact ⟨i, _, here.move _ _, rest⟩
    · exact ⟨i, y, here.move_of_ne there same, rest⟩

omit [DecidableEq κ] in
theorem left_move_iff (here : s.At n x) (going : ¬ x.IsFinished) {standing : Standing α}
    {table : InFlight κ α} {cell : Nat} :
    (s.move n x standing table).Left cell ↔
      x.cell = cell ∧ ({ x with standing := standing } : Asker ρ α).IsFinished ∨ s.Left cell := by
  constructor
  · rintro ⟨i, y, there, rest⟩
    rcases (at_move_iff here).1 there with ⟨rfl, rfl⟩ | ⟨-, there⟩
    · exact .inl rest
    · exact .inr ⟨i, y, there, rest⟩
  · rintro (rest | ⟨i, y, there, inCell, finished⟩)
    · exact ⟨n, _, here.move _ _, rest⟩
    · have other : i ≠ n := by
        rintro rfl
        obtain rfl := here.unique there
        exact going finished
      exact ⟨i, y, here.move_of_ne there other, inCell, finished⟩

/-- A key keeps its cell unless a request of that cell finishes. -/
theorem Listed.move (listed : Listed key s) (here : s.At n x) (going : ¬ x.IsFinished)
    {standing : Standing α} {table : InFlight κ α} (sameNext : table.next = s.table.next)
    (cells : ∀ k cell, table.cellOf? k = some cell ↔ s.table.cellOf? k = some cell ∧
      ¬ (x.cell = cell ∧ ({ x with standing := standing } : Asker ρ α).IsFinished)) :
    Listed key (s.move n x standing table) where
  opened := by
    intro i y there
    obtain ⟨z, before, cell, -⟩ := exists_of_at_move here there
    have known := listed.opened i z before
    change y.cell < table.next
    rw [sameNext, ← cell]
    exact known
  sameKey := by
    intro i j y z there there' same
    obtain ⟨y', before, cell, target⟩ := exists_of_at_move here there
    obtain ⟨z', before', cell', target'⟩ := exists_of_at_move here there'
    rw [← target, ← target']
    exact listed.sameKey i j y' z' before before' (by rw [cell, cell', same])
  cellOf?_iff := by
    intro k cell
    change table.cellOf? k = some cell ↔ _
    rw [cells, listed.cellOf?_iff, opened_move_iff here, left_move_iff here going, not_or, and_assoc,
      and_comm (a := ¬ s.Left cell)]

theorem Listed.move_of_going (listed : Listed key s) (here : s.At n x) (going : ¬ x.IsFinished)
    {standing : Standing α} (still : ¬ ({ x with standing := standing } : Asker ρ α).IsFinished)
    {table : InFlight κ α} (sameNext : table.next = s.table.next)
    (samePending : table.pending = s.table.pending) : Listed key (s.move n x standing table) := by
  refine listed.move here going sameNext ?_
  intro k cell
  simp only [InFlight.cellOf?, samePending, still, and_false, not_false_eq_true, and_true]

theorem opened_join_iff {target : ρ} {k : κ} {cell : Nat} :
    (s.join key target).Opened key k cell ↔
      (s.table.join (key target)).1 = cell ∧ key target = k ∨ s.Opened key k cell := by
  constructor
  · rintro ⟨i, y, there, rest⟩
    rcases at_join_iff.1 there with ⟨-, rfl⟩ | there
    · exact .inl rest
    · exact .inr ⟨i, y, there, rest⟩
  · rintro (rest | ⟨i, y, there, rest⟩)
    · exact ⟨s.askers.length, _, at_join_iff.2 (.inl ⟨rfl, rfl⟩), rest⟩
    · exact ⟨i, y, at_join_iff.2 (.inr there), rest⟩

theorem left_join_iff {target : ρ} {cell : Nat} :
    (s.join key target).Left cell ↔ s.Left cell := by
  constructor
  · rintro ⟨i, y, there, inCell, finished⟩
    rcases at_join_iff.1 there with ⟨-, rfl⟩ | there
    · cases finished
    · exact ⟨i, y, there, inCell, finished⟩
  · rintro ⟨i, y, there, rest⟩
    exact ⟨i, y, at_join_iff.2 (.inr there), rest⟩

/-- Only requests with its key are in the cell that a request joins. -/
theorem Listed.key_eq_of_joined (listed : Listed key s) {target : ρ} {i : Nat} {y : Asker ρ α}
    (there : s.At i y) (joined : y.cell = (s.table.join (key target)).1) :
    key y.target = key target := by
  cases known : s.table.cellOf? (key target) with
  | some cell =>
      rw [InFlight.join_of_some known] at joined
      obtain ⟨⟨j, z, there', inCell, itsKey⟩, -⟩ := (listed.cellOf?_iff _ _).1 known
      rw [← itsKey]
      exact listed.sameKey i j y z there there' (joined.trans inCell.symm)
  | none =>
      rw [InFlight.join_of_none known] at joined
      have before := listed.opened i y there
      exact absurd joined (Nat.ne_of_lt before)

theorem Listed.cellOf?_join_iff (listed : Listed key s) (target : ρ) (k : κ) (cell : Nat) :
    (s.table.join (key target)).2.cellOf? k = some cell ↔
      ((s.table.join (key target)).1 = cell ∧ key target = k ∨ s.Opened key k cell) ∧
        ¬ s.Left cell := by
  cases known : s.table.cellOf? (key target) with
  | some c =>
      -- The cell was there before, so nothing is new about it.
      have was := (listed.cellOf?_iff _ _).1 known
      rw [InFlight.join_of_some known, listed.cellOf?_iff]
      constructor
      · rintro ⟨opened, free⟩
        exact ⟨.inr opened, free⟩
      · rintro ⟨⟨rfl, rfl⟩ | opened, free⟩
        · exact was
        · exact ⟨opened, free⟩
  | none =>
      -- No request has joined the new cell, and the key has no other.
      have fresh : ∀ i y, s.At i y → y.cell ≠ s.table.next := by
        intro i y there same
        have before := listed.opened i y there
        omega
      obtain ⟨-, cells, -⟩ := InFlight.opened_laws known rfl
      rw [cells, InFlight.join_of_none known]
      by_cases same : k = key target
      · rw [if_pos same, same]
        constructor
        · rintro ⟨rfl⟩
          refine ⟨.inl ⟨rfl, rfl⟩, ?_⟩
          rintro ⟨i, y, there, inCell, -⟩
          exact fresh i y there inCell
        · rintro ⟨⟨rfl, -⟩ | opened, free⟩
          · rfl
          · have listed' := (listed.cellOf?_iff _ _).2 ⟨opened, free⟩
            rw [known] at listed'
            cases listed'
      · rw [if_neg same, listed.cellOf?_iff]
        constructor
        · rintro ⟨opened, free⟩
          exact ⟨.inr opened, free⟩
        · rintro ⟨⟨-, rfl⟩ | opened, free⟩
          · exact absurd rfl same
          · exact ⟨opened, free⟩

/-- A request that joins comes to the cell of its key, or opens one that no request has joined. -/
theorem Listed.join (listed : Listed key s) (target : ρ) : Listed key (s.join key target) where
  opened := by
    have grown : (s.table.join (key target)).1 < (s.table.join (key target)).2.next ∧
        s.table.next ≤ (s.table.join (key target)).2.next := by
      cases known : s.table.cellOf? (key target) with
      | some cell =>
          obtain ⟨⟨j, z, there, inCell, -⟩, -⟩ := (listed.cellOf?_iff _ _).1 known
          rw [InFlight.join_of_some known]
          exact ⟨inCell ▸ listed.opened j z there, Nat.le_refl _⟩
      | none =>
          rw [InFlight.join_of_none known]
          exact ⟨Nat.lt_succ_self _, Nat.le_succ _⟩
    intro i y there
    rcases at_join_iff.1 there with ⟨-, rfl⟩ | there
    · exact grown.1
    · exact Nat.lt_of_lt_of_le (listed.opened i y there) grown.2
  sameKey := by
    intro i j y z there there' same
    rcases at_join_iff.1 there with ⟨-, rfl⟩ | there
    · rcases at_join_iff.1 there' with ⟨-, rfl⟩ | there'
      · rfl
      · exact (listed.key_eq_of_joined there' same.symm).symm
    · rcases at_join_iff.1 there' with ⟨-, rfl⟩ | there'
      · exact listed.key_eq_of_joined there same
      · exact listed.sameKey i j y z there there' same
  cellOf?_iff := by
    intro k cell
    rw [opened_join_iff, left_join_iff]
    exact listed.cellOf?_join_iff target k cell

/-- The cell of a finished request is off the table, and every other one stays. -/
theorem Listed.cellOf?_leave_iff (listed : Listed key s) (here : s.At n x) (k : κ) (cell : Nat) :
    (s.table.leave (key x.target) x.cell).cellOf? k = some cell ↔
      s.table.cellOf? k = some cell ∧ x.cell ≠ cell := by
  rw [InFlight.cellOf?_leave]
  constructor
  · intro stays
    split at stays
    · cases stays
    · rename_i kept
      refine ⟨stays, ?_⟩
      rintro rfl
      obtain ⟨⟨i, y, there, inCell, rfl⟩, -⟩ := (listed.cellOf?_iff k x.cell).1 stays
      have same := listed.sameKey i n y x there here inCell
      exact kept ⟨same ▸ stays, same⟩
  · rintro ⟨was, other⟩
    rw [if_neg]
    · exact was
    · rintro ⟨itsOwn, rfl⟩
      exact other (Option.some.inj (itsOwn.symm.trans was))

/-- Whatever happens, the table lists the cells of which no request has finished. -/
theorem Step.listed (step : Step key s s') (listed : Listed key s) : Listed key s' := by
  -- Keys come by joining and go by leaving; no other step touches them.
  cases step with
  | join target => exact listed.join target
  | start here stands _ | answer here stands _ | read here stands _ | dropWaiting here stands
  | dropCalling here stands =>
      exact listed.move_of_going here (by simp [Asker.IsFinished, stands]) id rfl rfl
  | leave here stands =>
      refine listed.move here (by simp [Asker.IsFinished, stands]) ?_ ?_
      · unfold InFlight.leave
        split <;> rfl
      · intro k cell
        rw [listed.cellOf?_leave_iff here]
        simp [Asker.IsFinished]

/-! ## Cells and answers -/

/-- A cell is running while one of its requests calls, and that one alone; it has an answer from the
moment the node gave one to a call of its own, and every request of it that has an answer has that one. -/
structure Tended (s : Traffic ρ κ α) : Prop where
  calling : ∀ i x, s.At i x → x.standing = .calling → s.table.status x.cell = .running
  alone : ∀ i j x y, s.At i x → s.At j y → x.standing = .calling → y.standing = .calling →
    x.cell = y.cell → i = j
  called : ∀ cell, s.table.status cell = .running →
    ∃ i x, s.At i x ∧ x.cell = cell ∧ x.standing = .calling
  holding : ∀ i x a, s.At i x → x.Holds a → s.table.status x.cell = .ready a
  fetched : ∀ cell a, s.table.status cell = .ready a → ∃ i x, s.At i x ∧ x.cell = cell ∧ x.Fetched a

omit [DecidableEq κ] in
theorem Tended.empty : Tended (.empty : Traffic ρ κ α) where
  calling := by simp [Traffic.empty, At]
  alone := by simp [Traffic.empty, At]
  called := by simp [Traffic.empty, InFlight.empty, InFlight.status]
  holding := by simp [Traffic.empty, At]
  fetched := by simp [Traffic.empty, InFlight.empty, InFlight.status]

omit [DecidableEq κ] in
/-- No cell changes when a request comes to stand where it does not call. -/
theorem Tended.move_aside (tended : Tended s) (here : s.At n x) (idle : x.standing ≠ .calling)
    {standing : Standing α} (still : standing ≠ .calling) {table : InFlight κ α}
    (sameCells : ∀ cell, table.status cell = s.table.status cell)
    (holds : ∀ a, ({ x with standing := standing } : Asker ρ α).Holds a →
      s.table.status x.cell = .ready a)
    (fetched : ∀ a, x.Fetched a → ({ x with standing := standing } : Asker ρ α).Fetched a) :
    Tended (s.move n x standing table) where
  calling := by
    intro i y there calls
    rw [table_move, sameCells]
    rcases (at_move_iff here).1 there with ⟨-, rfl⟩ | ⟨-, there⟩
    · exact absurd calls still
    · exact tended.calling i y there calls
  alone := by
    intro i j y z there there' calls calls' same
    rcases (at_move_iff here).1 there with ⟨-, rfl⟩ | ⟨-, there⟩
    · exact absurd calls still
    · rcases (at_move_iff here).1 there' with ⟨-, rfl⟩ | ⟨-, there'⟩
      · exact absurd calls' still
      · exact tended.alone i j y z there there' calls calls' same
  called := by
    intro cell running
    rw [table_move, sameCells] at running
    obtain ⟨i, y, there, inCell, calls⟩ := tended.called cell running
    have other : i ≠ n := by
      rintro rfl
      exact idle ((there.unique here) ▸ calls)
    exact ⟨i, y, here.move_of_ne there other, inCell, calls⟩
  holding := by
    intro i y a there has
    rw [table_move, sameCells]
    rcases (at_move_iff here).1 there with ⟨-, rfl⟩ | ⟨-, there⟩
    · exact holds a has
    · exact tended.holding i y a there has
  fetched := by
    intro cell a ready
    rw [table_move, sameCells] at ready
    obtain ⟨i, y, there, inCell, got⟩ := tended.fetched cell a ready
    by_cases same : i = n
    · subst same
      obtain rfl := there.unique here
      exact ⟨i, _, here.move _ _, inCell, fetched a got⟩
    · exact ⟨i, y, here.move_of_ne there same, inCell, got⟩

omit [DecidableEq κ] in
/-- A cell without answer turns with the one request that calls or may call. -/
theorem Tended.move_turn (tended : Tended s) (here : s.At n x)
    (others : ∀ i y, s.At i y → i ≠ n → y.cell = x.cell → y.standing ≠ .calling)
    (unanswered : ∀ a, s.table.status x.cell ≠ .ready a)
    {standing : Standing α} {c : Cell α} (calls : standing = .calling ↔ c = .running)
    (holds : ∀ a, ({ x with standing := standing } : Asker ρ α).Holds a → c = .ready a)
    (fetched : ∀ a, c = .ready a → ({ x with standing := standing } : Asker ρ α).Fetched a) :
    Tended (s.move n x standing (s.table.setStatus x.cell c)) where
  calling := by
    intro i y there calling
    rw [table_move, InFlight.status_setStatus]
    rcases (at_move_iff here).1 there with ⟨-, rfl⟩ | ⟨other, there⟩
    · simpa using calls.1 calling
    · have apart : y.cell ≠ x.cell := fun same => others i y there other same calling
      rw [if_neg apart]
      exact tended.calling i y there calling
  alone := by
    intro i j y z there there' calling calling' same
    rcases (at_move_iff here).1 there with ⟨rfl, rfl⟩ | ⟨other, was⟩
    · rcases (at_move_iff here).1 there' with ⟨rfl, -⟩ | ⟨other', was'⟩
      · rfl
      · exact absurd calling' (others j z was' other' same.symm)
    · rcases (at_move_iff here).1 there' with ⟨rfl, rfl⟩ | ⟨-, was'⟩
      · exact absurd calling (others i y was other same)
      · exact tended.alone i j y z was was' calling calling' same
  called := by
    intro cell running
    rw [table_move, InFlight.status_setStatus] at running
    by_cases same : cell = x.cell
    · rw [if_pos same] at running
      exact ⟨n, _, here.move _ _, same.symm, calls.2 running⟩
    · rw [if_neg same] at running
      obtain ⟨i, y, there, inCell, calling⟩ := tended.called cell running
      have other : i ≠ n := by
        rintro rfl
        exact same (inCell.symm.trans (congrArg Asker.cell (there.unique here)))
      exact ⟨i, y, here.move_of_ne there other, inCell, calling⟩
  holding := by
    intro i y a there has
    rw [table_move, InFlight.status_setStatus]
    rcases (at_move_iff here).1 there with ⟨-, rfl⟩ | ⟨-, there⟩
    · simpa using holds a has
    · have ready := tended.holding i y a there has
      have apart : y.cell ≠ x.cell := fun same => unanswered a (same ▸ ready)
      rw [if_neg apart]
      exact ready
  fetched := by
    intro cell a ready
    rw [table_move, InFlight.status_setStatus] at ready
    by_cases same : cell = x.cell
    · rw [if_pos same] at ready
      exact ⟨n, _, here.move _ _, same.symm, fetched a ready⟩
    · rw [if_neg same] at ready
      obtain ⟨i, y, there, inCell, got⟩ := tended.fetched cell a ready
      have other : i ≠ n := by
        rintro rfl
        exact same (inCell.symm.trans (congrArg Asker.cell (there.unique here)))
      exact ⟨i, y, here.move_of_ne there other, inCell, got⟩

theorem status_join (s : Traffic ρ κ α) (target : ρ) (cell : Nat) :
    (s.join key target).table.status cell = s.table.status cell ∨
      cell = s.table.next ∧ (s.join key target).table.status cell = .idle := by
  cases known : s.table.cellOf? (key target) with
  | some c => exact .inl (by simp only [Traffic.join, InFlight.join_of_some known])
  | none =>
      obtain ⟨-, -, cells⟩ := InFlight.opened_laws known rfl
      by_cases new : cell = s.table.next
      · exact .inr ⟨new, (cells cell).trans (if_pos new)⟩
      · exact .inl ((cells cell).trans (if_neg new))

/-- A request that joins changes no cell that anybody has joined. -/
theorem Tended.join (tended : Tended s) (listed : Listed key s) (target : ρ) :
    Tended (s.join key target) := by
  have kept : ∀ i y, s.At i y → (s.join key target).table.status y.cell = s.table.status y.cell := by
    intro i y there
    rcases s.status_join target y.cell with same | ⟨new, -⟩
    · exact same
    · exact absurd new (Nat.ne_of_lt (listed.opened i y there))
  have busy : ∀ cell, (s.join key target).table.status cell ≠ .idle →
      (s.join key target).table.status cell = s.table.status cell := by
    intro cell notIdle
    rcases s.status_join target cell with same | ⟨-, idle⟩
    · exact same
    · exact absurd idle notIdle
  refine ⟨?_, ?_, ?_, ?_, ?_⟩
  · intro i y there calls
    rcases at_join_iff.1 there with ⟨-, rfl⟩ | there
    · cases calls
    · rw [kept i y there]
      exact tended.calling i y there calls
  · intro i j y z there there' calls calls' same
    rcases at_join_iff.1 there with ⟨-, rfl⟩ | there
    · cases calls
    · rcases at_join_iff.1 there' with ⟨-, rfl⟩ | there'
      · cases calls'
      · exact tended.alone i j y z there there' calls calls' same
  · intro cell running
    rw [busy cell (by rw [running]; simp)] at running
    obtain ⟨i, y, there, rest⟩ := tended.called cell running
    exact ⟨i, y, at_join_iff.2 (.inr there), rest⟩
  · intro i y a there has
    rcases at_join_iff.1 there with ⟨-, rfl⟩ | there
    · cases has
    · rw [kept i y there]
      exact tended.holding i y a there has
  · intro cell a ready
    rw [busy cell (by rw [ready]; simp)] at ready
    obtain ⟨i, y, there, rest⟩ := tended.fetched cell a ready
    exact ⟨i, y, at_join_iff.2 (.inr there), rest⟩

theorem Step.tended (step : Step key s s') (listed : Listed key s) (tended : Tended s) :
    Tended s' := by
  -- A cell turns when a call begins, is answered or is dropped. Nobody else calls for the cell then:
  -- it was free before, or it was this request that called.
  cases step with
  | join target => exact tended.join listed target
  | start here stands free =>
      refine tended.move_turn here ?_ ?_ ?_ ?_ ?_
      · intro i y there _ same calls
        have running := tended.calling i y there calls
        rw [same, free] at running
        cases running
      · intro a ready
        rw [free] at ready
        cases ready
      · simp
      · simp [Asker.Holds]
      · simp
  | @answer n x here stands a =>
      have running := tended.calling n x here stands
      refine tended.move_turn here ?_ ?_ ?_ ?_ ?_
      · intro i y there other same calls
        exact other (tended.alone i n y x there here calls stands same)
      · intro b ready
        rw [running] at ready
        cases ready
      · simp
      · simp [Asker.Holds]
      · simp [Asker.Fetched]
  | @dropCalling n x here stands =>
      have running := tended.calling n x here stands
      refine tended.move_turn here ?_ ?_ ?_ ?_ ?_
      · intro i y there other same calls
        exact other (tended.alone i n y x there here calls stands same)
      · intro b ready
        rw [running] at ready
        cases ready
      · simp
      · simp [Asker.Holds]
      · simp
  | read here stands ready =>
      refine tended.move_aside here (by simp [stands]) (by simp) (fun _ => rfl) ?_ ?_
      · intro b has
        simp only [Asker.Holds] at has
        rw [ready, has]
      · simp [Asker.Fetched, stands]
  | @leave n x own a here stands =>
      have has : x.Holds a := by simp [Asker.Holds, stands]
      refine tended.move_aside here (by simp [stands]) (by simp) ?_ ?_ ?_
      · intro cell
        unfold InFlight.leave
        split <;> rfl
      · intro b given
        simp only [Asker.Holds] at given
        rw [← given]
        exact tended.holding n x a here has
      · simp [Asker.Fetched, stands]
  | dropWaiting here stands =>
      refine tended.move_aside here (by simp [stands]) (by simp) (fun _ => rfl) ?_ ?_
      · simp [Asker.Holds]
      · simp [Asker.Fetched, stands]

/-! ## Wherever steps lead -/

theorem Reachable.sound (reached : Reachable key s) : Listed key s ∧ Tended s := by
  induction reached with
  | refl => exact ⟨.empty, .empty⟩
  | tail _ step ih => exact ⟨step.listed ih.1, step.tended ih.1 ih.2⟩

end Traffic

end TokenSchema
