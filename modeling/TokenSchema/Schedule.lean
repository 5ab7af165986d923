import TokenSchema.Host

/-!
# Schedules

Several processes on one host. They take turns: each goes on until it has made a request that the node
takes its time over, has joined one that another is making, or has come to a use of what is shared that
the present spell does not allow. When nobody can go on, a new spell begins.

A few take their turns in rounds, always in the same order, one round in each spell (`rounds`). Many
stand in a line (`lineUp`): who waits for another's request comes back to its end once the answer is
there; all others rest until the next spell and come back in the opposite order.
-/

namespace TokenSchema

/-- How far the request of a task has come. -/
inductive Stage where
  /-- The spell does not allow to look whether another is making it. -/
  | held
  /-- Another is making it. -/
  | shared
  /-- It is made; the node takes its time. -/
  | made
  deriving DecidableEq, Repr

/-- A process between two of its turns, with the records it keeps. -/
inductive Task (α : Type) where
  /-- At its beginning, or at a use of the store. -/
  | ready (p : Process α) (kept : List CachedRecord)
  | asking (stage : Stage) (q : Request) (cell : Option Nat) (next : Answer → Process α)
      (kept : List CachedRecord)
  /-- About to write a record that is listed already; the others are not. -/
  | writing (r : CachedRecord) (rest : List CachedRecord) (result : α)
  | finished (result : Except ResolveError α)

namespace Task

variable {α : Type}

/-- Whether a task has its result. -/
def isFinished : Task α → Bool
  | .finished _ => true
  | _ => false

/-- The cell of the request for which a task waits while another makes it. -/
def awaited? : Task α → Option Nat
  | .asking .shared _ cell _ _ => cell
  | _ => none

end Task

/-- Apply a step to each of several things in order, the host going from one to the next. -/
def Host.inOrder {σ τ : Type} (step : σ → Host → τ × Host) : List σ → Host → List τ × Host
  | [], h => ([], h)
  | s :: rest, h =>
      let (t, h) := step s h
      let (ts, h) := Host.inOrder step rest h
      (t :: ts, h)

theorem Host.length_inOrder {σ τ : Type} (step : σ → Host → τ × Host) (ss : List σ) (h : Host) :
    (Host.inOrder step ss h).1.length = ss.length := by
  induction ss generalizing h with
  | nil => rfl
  | cons s rest ih => simp [Host.inOrder, ih]

namespace Exchange

variable {α : Type}

/-! ## One turn -/

/-- Make a request of the node: its answer, or a rest if it takes its time. -/
def issue (x : Exchange) (q : Request) (cell : Option Nat) (h : Host) :
    Except Stage Answer × Host :=
  let h := x.start h q cell
  if x.node.pauses then (.error .made, h) else (.ok (x.node.reply q), x.finish h q cell)

/-- Make a request whose cell is joined, unless another does: the answer, or the stage at which it
rests. -/
def request (x : Exchange) (q : Request) (cell : Option Nat) (h : Host) :
    Except Stage Answer × Host :=
  match cell with
  | none => x.issue q none h
  | some n =>
      if h.credit = 0 then (.error .held, h)
      else
        match h.inFlight.status n with
        | .ready answer => (.ok answer, h.pay.withInFlight (·.leave q n))
        | .running => (.error .shared, h)
        | .idle => x.issue q cell h

/-- Write records as far as the spell allows, and give a result. -/
def writeOut (result : α) : List CachedRecord → Host → Task α × Host
  | [], h => (.finished (.ok result), h)
  | r :: rest, h =>
      if h.credit = 0 then (.writing r rest result, h.listWrite r)
      else writeOut result rest (h.write r)

/-- Go on with a process as far as it comes. -/
def advance (x : Exchange) : Process α → List CachedRecord → Host → Task α × Host
  | .done a, kept, h => writeOut a kept h
  | .fail e, _, h => (.finished (.error e), h)
  | .access next, kept, h =>
      if h.credit = 0 then (.ready (.access next) kept, h) else x.advance next kept h.pay
  | .look next, kept, h => x.advance (next h.session h.store) kept h
  | .record r next, kept, h => x.advance next kept (h.record r)
  | .keep r next, kept, h => x.advance next (kept ++ [r]) h
  | .ask q next, kept, h =>
      let (cell, h) := x.join h q
      match x.request q cell h with
      | (.ok answer, h) => x.advance (next answer) kept h
      | (.error stage, h) => (.asking stage q cell next kept, h)

/-- One turn of a task. One that waits for another's request goes on when the answer is there, and
makes the request itself when the other has given it up. -/
def turn (x : Exchange) : Task α → Host → Task α × Host
  | .ready p kept, h => x.advance p kept h
  | .asking .made q cell next kept, h => x.advance (next (x.node.reply q)) kept (x.finish h q cell)
  | .asking _ q cell next kept, h =>
      match x.request q cell h with
      | (.ok answer, h) => x.advance (next answer) kept h
      | (.error stage, h) => (.asking stage q cell next kept, h)
  | .writing r rest result, h =>
      if h.credit = 0 then (.writing r rest result, h)
      else writeOut result rest (h.pay.withStore (·.put r))
  | .finished result, h => (.finished result, h)

/-! ## Rounds -/

/-- So many rounds of turns, or fewer if all tasks are finished. -/
def rounds (x : Exchange) : Nat → List (Task α) → Host → List (Task α) × Host
  | 0, tasks, h => (tasks, h)
  | limit + 1, tasks, h =>
      let (tasks, h) := Host.inOrder x.turn tasks h
      if tasks.all Task.isFinished then (tasks, h) else x.rounds limit tasks h.renew

end Exchange

/-! ## Lines -/

/-- The places of unfinished tasks. -/
structure Line where
  /-- Those that can go on in this spell, first in, first out. -/
  line : List Nat
  /-- Those that wait for another's request, with its cell, in the order of their coming. -/
  waiting : List (Nat × Nat)
  /-- Those that rest until the next spell, the latest first. -/
  resting : List Nat
  /-- The number of all of them. -/
  unfinished : Nat
  /-- The turns since the spell began or a task was finished. -/
  turns : Nat

namespace Line

/-- All of so many tasks, in order. -/
def ofLength (n : Nat) : Line :=
  { line := List.range n, waiting := [], resting := [], unfinished := n, turns := 0 }

/-- The next task, and the line without it; none when the spell is over: nobody can go on, or as many
turns as there are tasks have brought none to its end. -/
def next? (l : Line) : Option (Nat × Line) :=
  match l.line with
  | [] => none
  | place :: line => if l.turns = l.unfinished then none else some (place, { l with line := line })

/-- The line of a new spell: those that rested come to its end. -/
def renew (l : Line) : Line :=
  { l with line := l.line ++ l.resting, resting := [], turns := 0 }

/-- Let those that waited for a request come to the end of the line when it is over. -/
def wake (l : Line) (h : Host) : Line :=
  let (still, woken) := l.waiting.partition fun w => h.inFlight.status w.2 == .running
  if woken.isEmpty then l
  else { l with line := l.line ++ woken.map (·.1), waiting := still }

/-- Put back a task that had its turn. -/
def putBack {α : Type} (l : Line) (place : Nat) (t : Task α) : Line :=
  if t.isFinished then { l with unfinished := l.unfinished - 1, turns := 0 }
  else
    match t.awaited? with
    | some cell => { l with waiting := l.waiting ++ [(place, cell)], turns := l.turns + 1 }
    | none => { l with resting := place :: l.resting, turns := l.turns + 1 }

end Line

namespace Exchange

variable {α : Type}

/-- So many turns in a line, or fewer if nobody is left who can go on. -/
def lineUp (x : Exchange) : Nat → Line → Array (Task α) → Host → Array (Task α) × Host
  | 0, _, tasks, h => (tasks, h)
  | limit + 1, l, tasks, h =>
      match l.next? with
      | none =>
          if l.line.isEmpty && l.resting.isEmpty then (tasks, h)
          else x.lineUp limit l.renew tasks h.renew
      | some (place, l) =>
          match tasks[place]? with
          | none => (tasks, h)
          | some t =>
              let (t, h) := x.turn t h
              x.lineUp limit ((l.wake h).putBack place t) (tasks.setIfInBounds place t) h

/-! ## Running together -/

/-- The largest number of processes that take their turns in rounds. -/
def roundsAtMost : Nat :=
  30

/-- Let tasks take turns; in rounds or in a line, by their number. -/
def takeTurns (x : Exchange) (limit : Nat) (tasks : List (Task α)) (h : Host) :
    List (Task α) × Host :=
  if tasks.length ≤ roundsAtMost then x.rounds limit tasks h
  else
    let (tasks, h) := x.lineUp limit (.ofLength tasks.length) tasks.toArray h
    (tasks.toList, h)

/-- Bring a task to its end in one turn. -/
def complete (x : Exchange) : Task α → Host → Except ResolveError α × Host
  | .ready p kept, h => x.run none p kept h
  | .asking .made q cell next kept, h =>
      x.run none (next (x.node.reply q)) kept (x.finish h q cell)
  | .asking _ q _ next kept, h => x.run none (.ask q next) kept h
  | .writing r rest result, h => (.ok result, (h.access.withStore (·.put r)).writeAll rest)
  | .finished result, h => (result, h)

/-- Run processes together: in turns, then each to its end. -/
def runTogether (x : Exchange) (limit : Nat) (ps : List (Process α)) (h : Host) :
    List (Except ResolveError α) × Host :=
  let (tasks, h) := x.takeTurns limit (ps.map fun p => .ready p []) h
  Host.inOrder x.complete tasks h

/-! ## Laws -/

theorem length_rounds (x : Exchange) (limit : Nat) (tasks : List (Task α)) (h : Host) :
    (x.rounds limit tasks h).1.length = tasks.length := by
  induction limit generalizing tasks h with
  | zero => rfl
  | succ limit ih =>
      simp only [rounds]
      split
      · exact Host.length_inOrder ..
      · rw [ih, Host.length_inOrder]

theorem size_lineUp (x : Exchange) (limit : Nat) (l : Line) (tasks : Array (Task α)) (h : Host) :
    (x.lineUp limit l tasks h).1.size = tasks.size := by
  induction limit generalizing l tasks h with
  | zero => rfl
  | succ limit ih =>
      simp only [lineUp]
      split
      · split
        · rfl
        · exact ih ..
      · split
        · rfl
        · rw [ih, Array.size_setIfInBounds]

theorem length_takeTurns (x : Exchange) (limit : Nat) (tasks : List (Task α)) (h : Host) :
    (x.takeTurns limit tasks h).1.length = tasks.length := by
  unfold takeTurns
  split
  · exact length_rounds ..
  · simp [size_lineUp]

/-- Every process has its result. -/
theorem length_runTogether (x : Exchange) (limit : Nat) (ps : List (Process α)) (h : Host) :
    (x.runTogether limit ps h).1.length = ps.length := by
  simp [runTogether, Host.length_inOrder, length_takeTurns]

end Exchange

end TokenSchema
