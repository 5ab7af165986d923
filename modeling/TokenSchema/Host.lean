import TokenSchema.InFlight
import TokenSchema.Process

/-!
# Hosts

What the resolutions of one host work on, with a journal of the requests made and the records written,
and the run of a single process to its end. Records that a process keeps reach the store when it gives a
result, in the order in which they were kept, and not before (`run_fail_writes`).

A host works in spells. One spell allows a limited number of uses of the store and of shared requests; a
process that comes to one use more rests until the next spell. So does one that waits for the node.
-/

namespace TokenSchema

/-- What the resolutions of one host work on, and what they have done. -/
structure Host where
  session : Session
  store : Store
  inFlight : InFlight Request Answer
  /-- The requests made, with their answers, in order. -/
  requests : List (Request × Answer)
  /-- The records written to the store, in order. -/
  writes : List CachedRecord
  /-- Whether the user has given up. -/
  cancelled : Bool
  /-- The uses of what is shared that are left in the present spell. -/
  credit : Nat

namespace Host

/-- The uses of what is shared that one spell allows. -/
def usesPerSpell : Nat :=
  128

/-- A host with an empty session, where nothing has been done. -/
def ofStore (store : Store) : Host :=
  { session := .empty
    store := store
    inFlight := .empty
    requests := []
    writes := []
    cancelled := false
    credit := usesPerSpell }

/-- The same host with a session and an empty journal. -/
def visit (h : Host) (session : Session) (cancelled : Bool) : Host :=
  { h with session := session, requests := [], writes := [], cancelled := cancelled }

/-! ## Spells -/

/-- Begin a new spell. -/
def renew (h : Host) : Host :=
  { h with credit := usesPerSpell }

/-- Begin a new spell if the present one allows no more uses. -/
def refresh (h : Host) : Host :=
  if h.credit = 0 then h.renew else h

/-- Count a use of what is shared. -/
def pay (h : Host) : Host :=
  { h with credit := h.credit - 1 }

/-- Come to a use of what is shared, when nobody else is there. -/
def access (h : Host) : Host :=
  h.refresh.pay

/-- Come to so many uses of what is shared, when nobody else is there. -/
def accesses : Nat → Host → Host
  | 0, h => h
  | n + 1, h => accesses n h.access

/-! ## Changes -/

/-- Record a result in the session. -/
def record (h : Host) (r : Resolved) : Host :=
  { h with session := h.session.record r }

/-- List a record that is about to be written. -/
def listWrite (h : Host) (r : CachedRecord) : Host :=
  { h with writes := h.writes ++ [r] }

/-- Change the store. -/
def withStore (h : Host) (f : Store → Store) : Host :=
  { h with store := f h.store }

/-- Write a record to the store. -/
def write (h : Host) (r : CachedRecord) : Host :=
  (h.listWrite r).access.withStore (·.put r)

/-- Write records in order. -/
def writeAll (h : Host) (rs : List CachedRecord) : Host :=
  rs.foldl write h

/-- List a request with its answer; it may be the one at which the user gives up. -/
def list (node : Node) (h : Host) (q : Request) : Host :=
  { h with
    requests := h.requests ++ [(q, node.reply q)]
    cancelled := h.cancelled || node.cancels q }

/-- Change the table of requests in flight. -/
def withInFlight (h : Host) (f : InFlight Request Answer → InFlight Request Answer) : Host :=
  { h with inFlight := f h.inFlight }

end Host

/-- How a host makes requests: the node, and whether identical ones share an answer. -/
structure Exchange where
  node : Node
  coalesces : Bool

namespace Exchange

/-- Join the cell of a request, if requests are shared. -/
def join (x : Exchange) (h : Host) (q : Request) : Option Nat × Host :=
  if x.coalesces then
    let (cell, table) := h.inFlight.join q
    (some cell, { h with inFlight := table })
  else (none, h)

/-- Make a request, which is listed then; a shared one counts as a use. -/
def start (x : Exchange) (h : Host) (q : Request) (cell : Option Nat) : Host :=
  match cell with
  | some n => (h.access.withInFlight (·.start n)).list x.node q
  | none => h.list x.node q

/-- End a request with the node's answer. -/
def finish (x : Exchange) (h : Host) (q : Request) (cell : Option Nat) : Host :=
  match cell with
  | some n => h.withInFlight (·.finish q n (x.node.reply q))
  | none => h

/-- Give up a request before it is answered. -/
def abandon (h : Host) (cell : Option Nat) : Host :=
  match cell with
  | some n => h.withInFlight (·.abandon n)
  | none => h

/-- The host when the node answers: in a new spell, if the node takes its time. -/
def await (x : Exchange) (h : Host) : Host :=
  if x.node.pauses then h.renew else h

/-- The error of a run that may be given up, if it rests after the user has given up. -/
def givenUp? (guard : Option String) (rests : Bool) (h : Host) : Option ResolveError :=
  if rests && h.cancelled then guard.map .cancelled else none

variable {α : Type}

/-- Run a process to its end, with the records that it keeps. A run that may be given up ends when it
rests after the user has given up. -/
def run (x : Exchange) (guard : Option String) :
    Process α → List CachedRecord → Host → Except ResolveError α × Host
  | .done a, kept, h => (.ok a, h.writeAll kept)
  | .fail e, _, h => (.error e, h)
  | .access next, kept, h =>
      match givenUp? guard (h.credit == 0) h with
      | some e => (.error e, h.renew)
      | none => x.run guard next kept h.access
  | .look next, kept, h => x.run guard (next h.session h.store) kept h
  | .record r next, kept, h => x.run guard next kept (h.record r)
  | .keep r next, kept, h => x.run guard next (kept ++ [r]) h
  | .ask q next, kept, h =>
      let (cell, h) := x.join h q
      match givenUp? guard (cell.isSome && h.credit == 0) h with
      | some e => (.error e, h.renew)
      | none =>
          let h := x.start h q cell
          match givenUp? guard x.node.pauses h with
          | some e => (.error e, (abandon h cell).renew)
          | none => x.run guard (next (x.node.reply q)) kept (x.finish (x.await h) q cell)

/-- Run a process from its beginning to its end. -/
def runAll (x : Exchange) (p : Process α) (h : Host) : Except ResolveError α × Host :=
  x.run none p [] h

/-- Run a process that the user may give up; one given up before it begins does nothing. -/
def runCancellable (x : Exchange) (name : String) (p : Process α) (h : Host) :
    Except ResolveError α × Host :=
  if h.cancelled then (.error (.cancelled name), h.refresh) else x.run (some name) p [] h.refresh

end Exchange

/-! ## Laws -/

@[simp] theorem Host.writes_access (h : Host) : h.access.writes = h.writes := by
  unfold Host.access Host.refresh
  split <;> rfl

theorem Host.writes_write (h : Host) (r : CachedRecord) :
    (h.write r).writes = h.writes ++ [r] := by
  simp [Host.write, Host.withStore, Host.listWrite]

theorem Host.writes_writeAll (h : Host) (rs : List CachedRecord) :
    (h.writeAll rs).writes = h.writes ++ rs := by
  induction rs generalizing h with
  | nil => simp [Host.writeAll]
  | cons r rs ih =>
      have step : h.writeAll (r :: rs) = (h.write r).writeAll rs := rfl
      simp [step, ih, Host.writes_write]

namespace Exchange

variable {α : Type}

theorem writes_join (x : Exchange) (h : Host) (q : Request) :
    (x.join h q).2.writes = h.writes := by
  unfold join
  split <;> rfl

theorem writes_start (x : Exchange) (h : Host) (q : Request) (cell : Option Nat) :
    (x.start h q cell).writes = h.writes := by
  cases cell with
  | none => rfl
  | some n => simp [start, Host.list, Host.withInFlight]

theorem writes_finish (x : Exchange) (h : Host) (q : Request) (cell : Option Nat) :
    (x.finish h q cell).writes = h.writes := by
  cases cell <;> rfl

theorem writes_abandon (h : Host) (cell : Option Nat) : (abandon h cell).writes = h.writes := by
  cases cell <;> rfl

theorem writes_await (x : Exchange) (h : Host) : (x.await h).writes = h.writes := by
  unfold await
  split <;> rfl

/-- A process that fails writes nothing. -/
theorem run_fail_writes (x : Exchange) (guard : Option String) (p : Process α)
    (kept : List CachedRecord) (h : Host) {e : ResolveError}
    (failed : (x.run guard p kept h).1 = .error e) :
    (x.run guard p kept h).2.writes = h.writes := by
  induction p generalizing kept h with
  | done a => simp [run] at failed
  | fail e => rfl
  | access next ih =>
      simp only [run] at failed ⊢
      split
      · rfl
      · rename_i going
        rw [going] at failed
        rw [ih kept _ failed, Host.writes_access]
  | look next ih => exact ih _ _ kept h failed
  | record r next ih => exact ih kept (h.record r) failed
  | keep r next ih => exact ih (kept ++ [r]) h failed
  | ask q next ih =>
      have joined := x.writes_join h q
      simp only [run] at failed ⊢
      split
      · exact joined
      · rename_i going
        rw [going] at failed
        simp only at failed
        split
        · exact (writes_abandon _ _).trans ((writes_start ..).trans joined)
        · rename_i going'
          rw [going'] at failed
          rw [ih _ _ _ failed, writes_finish, writes_await, writes_start, joined]

end Exchange

end TokenSchema
