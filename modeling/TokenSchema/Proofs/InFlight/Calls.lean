import TokenSchema.Proofs.InFlight.Turns

/-!
# Calls — what is shared among calls of a node

Calls of a chain, an address and some data share their answers by a text that tells them apart, so they can rely on
what coalescing gives (`Traffic.Coalesced`). So can the tasks of a host, however many turns they have taken: the table
that they share is that of such traffic, and no two of them have made the same request and await its answer
(`Traffic.coalesced_calls`).

A request that finds nobody in progress need not be the one that calls: another may join after it and call before it
(`Traffic.answered_overtaken`).
-/

namespace TokenSchema
namespace Traffic

/-- Calls that share their answers by `callKey`, joined, made, finished and dropped in any order, and the requests of
tasks that take turns on a host: for a key at most one call runs at a time, an answer was given to a call for the same
thing, and it was not given before the request joined that finds nobody in progress. -/
theorem coalesced_calls {α β : Type} :
    (∀ s : Traffic (Deployment × List UInt8) String α, Reachable callKey s → Coalesced callKey s) ∧
      ∀ (x : Exchange) (limit : Nat) (ps : List (Process β)) (h : Host) (s : Traffic Request Request Answer),
        Leaves id s h.inFlight →
          let turned := x.takeTurns limit (ps.map fun p => .ready p []) h
          (∃ s' post, Crew s' post turned.1 turned.2 ∧ Coalesced id s') ∧
            ∀ (i j : Nat) (t t' : Task β) (q : Request), turned.1[i]? = some t → turned.1[j]? = some t' →
              t.Calls q → t'.Calls q → i = j := by
  refine ⟨fun s reached => reached.coalesced callKey_injective, ?_⟩
  intro x limit ps h s before turned
  refine ⟨?_, ?_⟩
  · obtain ⟨s', post, crew⟩ := x.exists_crew_takeTurns limit ps before
    exact ⟨s', post, crew, crew.reached.coalesced Function.injective_id⟩
  · intro i j t t' q first second calls calls'
    exact x.eq_of_calls_takeTurns limit ps before first second calls calls'

/-! ## A balance that is asked for again -/

/-- Two requests for a balance: the one that calls is dropped, and the other, which has waited, calls,
gets its answer and leaves. -/
def takenOver : Traffic (Deployment × List UInt8) String Nat :=
  let joined := (empty.join callKey balanceCall).join callKey balanceCall
  let called := joined.move 0 ⟨balanceCall, 0, .waiting⟩ .calling (joined.table.start 0)
  let dropped := called.move 0 ⟨balanceCall, 0, .calling⟩ .dropped (called.table.abandon 0)
  let again := dropped.move 1 ⟨balanceCall, 0, .waiting⟩ .calling (dropped.table.start 0)
  let served := again.move 1 ⟨balanceCall, 0, .calling⟩ (.served true 5)
    (again.table.setStatus 0 (.ready 5))
  served.move 1 ⟨balanceCall, 0, .served true 5⟩ (.finished true 5)
    (served.table.leave (callKey balanceCall) 0)

theorem reachable_takenOver : Reachable callKey takenOver :=
  Relation.ReflTransGen.refl
    |>.tail (.join _ balanceCall)
    |>.tail (.join _ balanceCall)
    |>.tail (.start (x := ⟨balanceCall, 0, .waiting⟩) (by decide +kernel) rfl (by decide +kernel))
    |>.tail (.dropCalling (x := ⟨balanceCall, 0, .calling⟩) (by decide +kernel) rfl)
    |>.tail (.start (x := ⟨balanceCall, 0, .waiting⟩) (by decide +kernel) rfl (by decide +kernel))
    |>.tail (.answer (x := ⟨balanceCall, 0, .calling⟩) (by decide +kernel) rfl 5)
    |>.tail (.leave (x := ⟨balanceCall, 0, .served true 5⟩) (by decide +kernel) rfl)

theorem askers_takenOver : takenOver.askers =
    [⟨balanceCall, 0, .dropped⟩, ⟨balanceCall, 0, .finished true 5⟩] := by
  decide +kernel

theorem quiet_takenOver : takenOver.Quiet callKey (callKey balanceCall) := by
  intro i x here _
  rw [At, askers_takenOver] at here
  rcases i with _ | _ | i
  · obtain rfl := Option.some.inj here
    exact id
  · obtain rfl := Option.some.inj here
    exact id
  · cases here

/-- After the two requests, one that joins ends with its own answer or a later one; and two tasks that resolve a
balance on a new host have come where requests share their calls. -/
theorem coalesced_calls_takenOver :
    Reachable callKey takenOver ∧ takenOver.At 1 ⟨balanceCall, 0, .finished true 5⟩ ∧
      (∃ m y, takenOver.At m y ∧ y.target = balanceCall ∧ y.Fetched 5) ∧
      takenOver.Quiet callKey (callKey balanceCall) ∧
      (∀ s' y own a, Run callKey (takenOver.join callKey balanceCall) s' → s'.At 2 y →
        y.standing = .finished own a →
          own = true ∨ ∃ m z, 2 < m ∧ s'.At m z ∧ z.target = balanceCall ∧ z.Fetched a) ∧
      let r := Balance.resolver
      let options : ResolveOptions := ⟨some .alwaysUpdate, .detail⟩
      let tasks := [r.resolution options 7 Balance.balance, r.resolution options 8 Balance.balance]
      let turned := (r.exchange Balance.impatient).takeTurns 1 (tasks.map fun p => .ready p []) (.ofStore Balance.store)
      ∃ s' post, Crew s' post turned.1 turned.2 ∧ Coalesced id s' := by
  obtain ⟨shared, turns⟩ := @coalesced_calls Nat Resolved
  have taken : takenOver.At 1 ⟨balanceCall, 0, .finished true 5⟩ := by decide +kernel
  have after := shared takenOver reachable_takenOver
  refine ⟨reachable_takenOver, taken, ?_, quiet_takenOver, ?_, ?_⟩
  · exact after.answered 1 _ 5 taken rfl
  · exact after.since balanceCall quiet_takenOver
  · exact (turns _ 1 _ (.ofStore Balance.store) .empty .empty).1

/-- Two more requests for the balance join behind those two. The second calls and is answered, and the first reads its
answer and leaves. -/
def overtaken : Traffic (Deployment × List UInt8) String Nat :=
  let joined := (takenOver.join callKey balanceCall).join callKey balanceCall
  let called := joined.move 3 ⟨balanceCall, 1, .waiting⟩ .calling (joined.table.start 1)
  let served := called.move 3 ⟨balanceCall, 1, .calling⟩ (.served true 6)
    (called.table.setStatus 1 (.ready 6))
  let read := served.move 2 ⟨balanceCall, 1, .waiting⟩ (.served false 6) served.table
  read.move 2 ⟨balanceCall, 1, .served false 6⟩ (.finished false 6)
    (read.table.leave (callKey balanceCall) 1)

theorem run_overtaken : Run callKey (takenOver.join callKey balanceCall) overtaken :=
  Relation.ReflTransGen.refl
    |>.tail (.join _ balanceCall)
    |>.tail (.start (x := ⟨balanceCall, 1, .waiting⟩) (by decide +kernel) rfl (by decide +kernel))
    |>.tail (.answer (x := ⟨balanceCall, 1, .calling⟩) (by decide +kernel) rfl 6)
    |>.tail (.read (x := ⟨balanceCall, 1, .waiting⟩) (by decide +kernel) rfl (by decide +kernel))
    |>.tail (.leave (x := ⟨balanceCall, 1, .served false 6⟩) (by decide +kernel) rfl)

/-- The first of the two joins when all before it are finished or dropped, and ends without a call of its own: its
answer is that of the second. -/
theorem answered_overtaken :
    Reachable callKey takenOver ∧ takenOver.Quiet callKey (callKey balanceCall) ∧
      takenOver.askers.length = 2 ∧ Run callKey (takenOver.join callKey balanceCall) overtaken ∧
      overtaken.At 2 ⟨balanceCall, 1, .finished false 6⟩ ∧ overtaken.At 3 ⟨balanceCall, 1, .served true 6⟩ := by
  refine ⟨reachable_takenOver, quiet_takenOver, ?_, run_overtaken, ?_, ?_⟩ <;> decide +kernel

end Traffic
end TokenSchema
