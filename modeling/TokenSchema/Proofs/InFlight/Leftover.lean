import TokenSchema.Proofs.InFlight.CallKey
import TokenSchema.Proofs.InFlight.Coalescing
import TokenSchema.Proofs.Resolution.CallDecision
import TokenSchema.Resolver

/-!
# Leftovers — keys that nobody asks for any more

A key leaves the table when a request of its cell comes to its end. A request that is dropped before
takes nothing off, so once nobody is in progress the table lists the cells of which every request was
dropped, and no others (`Traffic.cellOf?_iff_of_settled`). It is empty just when every cell that was
joined has had a request that finished (`Traffic.pending_of_settled`).

A host does not do better than that: what a resolution does to its table is what some requests do that
join, call, and finish or are dropped (`Exchange.exists_run_table`), and the user may give up while the
node takes its time. A run that cannot be given up leaves nothing (`Exchange.pending_run_none`).
-/

namespace TokenSchema

theorem Asker.dropped_iff {ρ α : Type} {x : Asker ρ α} (ended : ¬ x.InProgress) :
    x.standing = .dropped ↔ ¬ x.IsFinished := by
  cases stands : x.standing with
  | dropped | finished own a => simp [IsFinished, stands]
  | _ => simp [InProgress, stands] at ended

namespace Traffic

variable {ρ κ α : Type} [DecidableEq κ] {key : ρ → κ} {s : Traffic ρ κ α} {n : Nat} {x : Asker ρ α}

/-! ## When nobody is in progress -/

/-- Every request has finished or has been dropped. -/
def Settled (s : Traffic ρ κ α) : Prop :=
  ∀ i x, s.At i x → ¬ x.InProgress

omit [DecidableEq κ] in
theorem Settled.quiet (settled : s.Settled) (key : ρ → κ) (k : κ) : s.Quiet key k :=
  fun i x here _ => settled i x here

theorem Listed.cellOf?_iff_of_settled (listed : Listed key s) (settled : s.Settled) (k : κ)
    (cell : Nat) :
    s.table.cellOf? k = some cell ↔
      s.Opened key k cell ∧ ∀ i x, s.At i x → x.cell = cell → x.standing = .dropped := by
  rw [listed.cellOf?_iff]
  refine and_congr_right fun _ => ?_
  constructor
  · intro free i x here inCell
    refine (Asker.dropped_iff (settled i x here)).2 ?_
    exact fun finished => free ⟨i, x, here, inCell, finished⟩
  · rintro dropped ⟨i, x, here, inCell, finished⟩
    exact (Asker.dropped_iff (settled i x here)).1 (dropped i x here inCell) finished

/-- No key is listed if none has a cell. -/
theorem pending_eq_nil_iff (t : InFlight κ α) : t.pending = [] ↔ ∀ k, t.cellOf? k = none := by
  constructor
  · intro nothing k
    simp [InFlight.cellOf?, nothing]
  · intro unknown
    cases entries : t.pending with
    | nil => rfl
    | cons e rest =>
        have known := unknown e.1
        simp [InFlight.cellOf?, entries] at known

/-- A cell that is left over is free: the next request for its key calls. -/
theorem status_of_settled (listed : Listed key s) (tended : Tended s) (settled : s.Settled) {k : κ}
    {cell : Nat} (left : s.table.cellOf? k = some cell) : s.table.status cell = .idle := by
  obtain ⟨-, dropped⟩ := (listed.cellOf?_iff_of_settled settled k cell).1 left
  cases status : s.table.status cell with
  | idle => rfl
  | running =>
      obtain ⟨i, y, here, inCell, calls⟩ := tended.called cell status
      rw [dropped i y here inCell] at calls
      cases calls
  | ready a =>
      obtain ⟨i, y, here, inCell, fetched⟩ := tended.fetched cell a status
      simp [Asker.Fetched, dropped i y here inCell] at fetched

/-- Once nobody is in progress, the keys on the table are those of the cells whose requests have all
been dropped. There is none exactly if each cell that was joined has had a request that finished. -/
theorem pending_of_settled (reached : Reachable key s) (settled : s.Settled) :
    (∀ k cell, s.table.cellOf? k = some cell ↔
        s.Opened key k cell ∧ ∀ i x, s.At i x → x.cell = cell → x.standing = .dropped) ∧
      (∀ k cell, s.table.cellOf? k = some cell → s.table.status cell = .idle) ∧
      (s.table.pending = [] ↔
        ∀ i x, s.At i x → ∃ j y, s.At j y ∧ y.cell = x.cell ∧ y.IsFinished) := by
  obtain ⟨listed, tended⟩ := reached.sound
  refine ⟨listed.cellOf?_iff_of_settled settled, ?_, ?_⟩
  · intro k cell left
    exact status_of_settled listed tended settled left
  · rw [pending_eq_nil_iff]
    constructor
    · intro nothing i x here
      apply Classical.byContradiction
      intro unfinished
      have left := (listed.cellOf?_iff (key x.target) x.cell).2 ⟨⟨i, x, here, rfl, rfl⟩, unfinished⟩
      rw [nothing] at left
      cases left
    · intro finished k
      cases left : s.table.cellOf? k with
      | none => rfl
      | some cell =>
          obtain ⟨⟨i, x, here, rfl, -⟩, free⟩ := (listed.cellOf?_iff k cell).1 left
          exact absurd (finished i x here) free

/-! ## One request after another -/

/-- Nobody but one request may be in progress. -/
def OthersOver (s : Traffic ρ κ α) (n : Nat) : Prop :=
  ∀ i y, s.At i y → i ≠ n → ¬ y.InProgress

omit [DecidableEq κ] in
theorem OthersOver.move (others : s.OthersOver n) (here : s.At n x) (standing : Standing α)
    (table : InFlight κ α) : (s.move n x standing table).OthersOver n := by
  intro i y there apart
  rcases (at_move_iff here).1 there with ⟨rfl, -⟩ | ⟨-, there⟩
  · exact absurd rfl apart
  · exact others i y there apart

omit [DecidableEq κ] in
theorem OthersOver.settled_move (others : s.OthersOver n) (here : s.At n x) {standing : Standing α}
    (ended : ¬ ({ x with standing := standing } : Asker ρ α).InProgress) (table : InFlight κ α) :
    (s.move n x standing table).Settled := by
  intro i y there
  rcases (at_move_iff here).1 there with ⟨-, rfl⟩ | ⟨apart, there⟩
  · exact ended
  · exact others i y there apart

theorem Settled.othersOver_join (settled : s.Settled) (target : ρ) :
    (s.join key target).OthersOver s.askers.length := by
  intro i y there apart
  rcases at_join_iff.1 there with ⟨same, -⟩ | there
  · exact absurd same apart
  · exact settled i y there

/-- The table is what requests have left of which none is in progress. -/
structure Leaves (key : ρ → κ) (s : Traffic ρ κ α) (t : InFlight κ α) : Prop where
  reached : Reachable key s
  settled : s.Settled
  table_eq : s.table = t

theorem Leaves.empty : Leaves key (.empty : Traffic ρ κ α) .empty where
  reached := .refl
  settled := by simp [Settled, Traffic.empty, At]
  table_eq := rfl

/-- What a request can do to a table that nobody else is using: join and be dropped, call and be dropped,
or call, get its answer and leave. -/
theorem Leaves.exists_request {t : InFlight κ α} (before : Leaves key s t) (target : ρ) :
    let cell := (t.join (key target)).1
    let joined := (t.join (key target)).2
    (∃ s', Run key s s' ∧ Leaves key s' joined) ∧
      (∃ s', Run key s s' ∧ Leaves key s' ((joined.start cell).abandon cell)) ∧
      ∀ a, ∃ s', Run key s s' ∧ Leaves key s' ((joined.start cell).finish (key target) cell a) := by
  obtain ⟨reached, settled, rfl⟩ := before
  intro cell joined
  obtain ⟨listed, tended⟩ := reached.sound
  have entered : Run key s (s.join key target) := .single (.join s target)
  have here : (s.join key target).At s.askers.length ⟨target, cell, .waiting⟩ :=
    at_join_iff.2 (.inl ⟨rfl, rfl⟩)
  have others : (s.join key target).OthersOver s.askers.length := settled.othersOver_join target
  have free : (s.join key target).table.status cell = .idle :=
    status_joined_of_quiet listed tended (settled.quiet key (key target))
  -- The three ends branch off one run: joining, calling, answering.
  have begun := entered.tail (.start here rfl free)
  have calling := here.move .calling (joined.start cell)
  have others' := others.move here .calling (joined.start cell)
  refine ⟨⟨_, entered.tail (.dropWaiting here rfl), ?_⟩,
    ⟨_, begun.tail (.dropCalling calling rfl), ?_⟩, ?_⟩
  · exact ⟨reached.trans (entered.tail (.dropWaiting here rfl)), others.settled_move here id _, rfl⟩
  · exact ⟨reached.trans (begun.tail (.dropCalling calling rfl)),
      others'.settled_move calling id _, rfl⟩
  · intro a
    have answered := begun.tail (.answer calling rfl a)
    have served := calling.move (.served true a) ((joined.start cell).setStatus cell (.ready a))
    have ended := answered.tail (.leave served rfl)
    exact ⟨_, ended, reached.trans ended,
      (others'.move calling _ _).settled_move served id _, rfl⟩

end Traffic

/-! ## What a host does to its table -/

namespace Host

@[simp] theorem inFlight_refresh (h : Host) : h.refresh.inFlight = h.inFlight := by
  unfold refresh
  split <;> rfl

@[simp] theorem inFlight_access (h : Host) : h.access.inFlight = h.inFlight :=
  inFlight_refresh h

@[simp] theorem inFlight_writeAll (h : Host) (rs : List CachedRecord) :
    (h.writeAll rs).inFlight = h.inFlight := by
  induction rs generalizing h with
  | nil => rfl
  | cons r rs ih => exact (ih (h.write r)).trans (inFlight_access _)

end Host

namespace Exchange

open Traffic

theorem inFlight_await (x : Exchange) (h : Host) : (x.await h).inFlight = h.inFlight := by
  unfold await
  split <;> rfl

theorem inFlight_start (x : Exchange) (h : Host) (q : Request) (cell : Nat) :
    (x.start h q (some cell)).inFlight = h.inFlight.start cell := by
  simp [start, Host.list, Host.withInFlight]

/-- Whatever a process does, it does to the table what requests do that come one after another. -/
theorem exists_run_table (x : Exchange) (guard : Option String) {α : Type} (p : Process α)
    (kept : List CachedRecord) (h : Host) {s : Traffic Request Request Answer}
    (before : Leaves id s h.inFlight) :
    ∃ s', Run id s s' ∧ Leaves id s' (x.run guard p kept h).2.inFlight := by
  induction p generalizing kept h s with
  | done a => exact ⟨s, .refl, by simpa [run] using before⟩
  | fail e => exact ⟨s, .refl, before⟩
  | access next ih =>
      simp only [run]
      split
      · exact ⟨s, .refl, before⟩
      · exact ih kept h.access (by simpa using before)
  | look next ih => exact ih _ _ kept h before
  | record r next ih => exact ih kept (h.record r) before
  | keep r next ih => exact ih (kept ++ [r]) h before
  | ask q next ih =>
      obtain ⟨waited, called, finished⟩ := before.exists_request q
      cases shares : x.coalesces with
      | false =>
          have joined : x.join h q = (none, h) := by simp [join, shares]
          have rests : givenUp? guard false h = none := rfl
          simp only [run, joined, Option.isSome_none, Bool.false_and, rests]
          split
          · exact ⟨s, .refl, before⟩
          · refine ih _ kept _ ?_
            change Leaves id s (x.await (x.start h q none)).inFlight
            rw [inFlight_await]
            exact before
      | true =>
          have joined : x.join h q = (some (h.inFlight.join q).1,
              { h with inFlight := (h.inFlight.join q).2 }) := by
            simp [join, shares]
          simp only [run, joined, Option.isSome_some, Bool.true_and]
          split
          · exact waited
          · split
            · obtain ⟨s', made, left⟩ := called
              refine ⟨s', made, ?_⟩
              simpa [abandon, Host.withInFlight, Host.renew, inFlight_start] using left
            · obtain ⟨s', made, left⟩ := finished (x.node.reply q)
              obtain ⟨s'', rest, left'⟩ := ih (x.node.reply q) kept (s := s')
                (x.finish (x.await (x.start { h with inFlight := (h.inFlight.join q).2 } q
                  (some (h.inFlight.join q).1))) q (some (h.inFlight.join q).1))
                (by simpa [finish, Host.withInFlight, inFlight_await, inFlight_start] using left)
              exact ⟨s'', made.trans rest, left'⟩

/-- A run that cannot be given up takes off the table whatever it puts there. -/
theorem pending_run_none (x : Exchange) {α : Type} (p : Process α) (kept : List CachedRecord) (h : Host)
    (before : h.inFlight.pending = []) : (x.run none p kept h).2.inFlight.pending = [] := by
  induction p generalizing kept h with
  | done a => simpa [run] using before
  | fail e => exact before
  | access next ih =>
      simp only [run, givenUp?_none]
      exact ih kept h.access (by simpa using before)
  | look next ih => exact ih _ _ kept h before
  | record r next ih => exact ih kept (h.record r) before
  | keep r next ih => exact ih (kept ++ [r]) h before
  | ask q next ih =>
      simp only [run, givenUp?_none]
      refine ih _ kept _ ?_
      cases shares : x.coalesces with
      | false =>
          simp only [join, shares, Bool.false_eq_true, if_false, finish, inFlight_await]
          exact before
      | true =>
          -- The key is not listed before, so joining puts it there and finishing takes it off.
          have unknown : h.inFlight.cellOf? q = none := by
            simp [InFlight.cellOf?, before]
          simp [join, shares, InFlight.join_of_none unknown, finish, Host.withInFlight,
            inFlight_await, inFlight_start, InFlight.finish, InFlight.start, InFlight.setStatus,
            InFlight.leave, InFlight.cellOf?, before]

end Exchange

theorem Resolver.run_resolveAt_source (r : Resolver) (x : Exchange) (guard : Option String)
    (options : ResolveOptions) {tokenId : Nat} (left : Nat) {a : Attribute}
    (kept : List CachedRecord) {h : Host} (reached : r.ComesToSource tokenId h.session a) :
    x.run guard (r.resolveAt options tokenId (left + 1) a) kept h =
      x.run guard (r.fromSource options tokenId (r.resolveAt options tokenId left) a >>=
        Process.recorded) kept h := by
  have unknown : known? h.session a tokenId = none := by
    simp [known?, reached.noResult, reached.noLocal]
  have looked (next : Session → Process Resolved) :
      x.run guard (Process.session >>= next) kept h = x.run guard (next h.session) kept h := rfl
  simp only [resolveAt, reached.noLiteral, looked, unknown, reached.noTarget, reached.noEntry]
  rfl

/-! ## A balance that nobody waits for -/

namespace Balance

open Traffic

/-- A node that takes its time, and over whose requests the user gives up. -/
def impatient : Node :=
  ⟨fun _ => .bytes (Bytes.Word.ofNat 5).bytes, fun _ => true, true⟩

/-- A request for a balance that joins, calls, and is dropped. -/
def deserted : Traffic (Deployment × List UInt8) String Nat :=
  let joined := empty.join callKey balanceCall
  let called := joined.move 0 ⟨balanceCall, 0, .waiting⟩ .calling (joined.table.start 0)
  called.move 0 ⟨balanceCall, 0, .calling⟩ .dropped (called.table.abandon 0)

theorem reachable_deserted : Reachable callKey deserted :=
  Relation.ReflTransGen.refl
    |>.tail (.join _ balanceCall)
    |>.tail (.start (x := ⟨balanceCall, 0, .waiting⟩) (by decide +kernel) rfl (by decide +kernel))
    |>.tail (.dropCalling (x := ⟨balanceCall, 0, .calling⟩) (by decide +kernel) rfl)

theorem askers_deserted : deserted.askers = [⟨balanceCall, 0, .dropped⟩] := by
  decide +kernel

theorem settled_deserted : deserted.Settled := by
  intro i x here
  rw [At, askers_deserted] at here
  rcases i with _ | i
  · obtain rfl := Option.some.inj here
    exact id
  · cases here

theorem pending_of_settled_deserted :
    deserted.table.cellOf? (callKey balanceCall) = some 0 ∧ deserted.table.status 0 = .idle := by
  obtain ⟨listed, free, -⟩ := pending_of_settled reachable_deserted settled_deserted
  have here : deserted.At 0 ⟨balanceCall, 0, .dropped⟩ := by decide +kernel
  have dropped : ∀ i x, deserted.At i x → x.cell = 0 → x.standing = .dropped := by
    intro i x there _
    rw [At, askers_deserted] at there
    rcases i with _ | i
    · rw [← Option.some.inj there]
    · cases there
  have left := (listed (callKey balanceCall) 0).2 ⟨⟨0, _, here, rfl, rfl⟩, dropped⟩
  exact ⟨left, free _ _ left⟩

/-- The key stays when its only request is dropped. So it does in a host where the user gives up, whose
table is that of requests of which none is in progress. -/
theorem pending_ne_nil_of_given_up :
    (Reachable callKey deserted ∧ deserted.Settled ∧ deserted.table.pending ≠ []) ∧
      let table := (resolver.resolveCancellable impatient ⟨some .alwaysUpdate, .detail⟩ balance 7
        (.ofStore store)).2.inFlight
      (∃ s : Traffic Request Request Answer, Reachable id s ∧ s.Settled ∧ s.table = table) ∧
        table.pending ≠ [] := by
  have reached : resolver.ComesToSource 7 (Host.ofStore store).session balance :=
    ⟨⟨rfl, by simp [Host.ofStore, Session.result?, Session.empty],
      by simp [Host.ofStore, Session.local?, Session.empty]⟩, rfl, rfl⟩
  refine ⟨⟨reachable_deserted, settled_deserted, by decide +kernel⟩, ?_⟩
  intro table
  have run : table = ((resolver.exchange impatient).run (some "balance")
      (resolver.resolveAt ⟨some .alwaysUpdate, .detail⟩ 7 (8 + 1) balance) []
      (Host.ofStore store)).2.inFlight := rfl
  constructor
  · have nobody : Leaves id (.empty : Traffic Request Request Answer)
        (Host.ofStore store).inFlight := .empty
    obtain ⟨s, -, left⟩ := (resolver.exchange impatient).exists_run_table (some "balance")
      (resolver.resolveAt ⟨some .alwaysUpdate, .detail⟩ 7 (8 + 1) balance) [] _ nobody
    exact ⟨s, left.reached, left.settled, left.table_eq.trans run.symm⟩
  · rw [run, resolver.run_resolveAt_source _ _ _ 8 [] reached]
    -- The run makes the request of cell 0 and is given up, which leaves the key on the table.
    exact List.cons_ne_nil _ _

end Balance

end TokenSchema
