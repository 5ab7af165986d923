import TokenSchema.Host

/-!
# Evaluation — what a process does when nobody interferes

A host interprets a process with spells, shared requests and cancellation. What comes of a process that
is left alone depends on none of them: `Process.evaluate` follows the tree with a session, the requests
made so far and the records held back. The store does not change before the end of a pass.

* Evaluation of a sequence is evaluation of its parts (`Process.evaluate_bind`).
* A host that runs a process to its end gives the evaluated result, makes the evaluated requests, and
  writes what was held back if and only if there is a result (`Exchange.run_eq_evaluate`,
  `Exchange.StandsAt.run_eq`).
-/

namespace TokenSchema

/-- The answers of a node. An answer may depend on all that was asked before. -/
abbrev Answers :=
  List (Request × Answer) → Request → Answer

/-- How far a process has come. -/
structure Pass where
  session : Session
  /-- The requests made, with their answers, in order. -/
  requests : List (Request × Answer)
  /-- The records held back for the store, in order. -/
  kept : List CachedRecord

namespace Pass

/-- Record a result in the session. -/
def record (s : Pass) (r : Resolved) : Pass :=
  { s with session := s.session.record r }

/-- Hold a record back for the store. -/
def keep (s : Pass) (r : CachedRecord) : Pass :=
  { s with kept := s.kept ++ [r] }

/-- Ask the node. -/
def ask (answers : Answers) (s : Pass) (q : Request) : Pass :=
  { s with requests := s.requests ++ [(q, answers s.requests q)] }

/-- What reaches the store at the end of a pass: nothing, if it failed. -/
def flushed {α : Type} (result : Except ResolveError α) (s : Pass) : List CachedRecord :=
  match result with
  | .ok _ => s.kept
  | .error _ => []

end Pass

namespace Process

variable {α β : Type} (answers : Answers) (store : Store)

/-- Follow a process to its end. -/
def evaluate : Process α → Pass → Except ResolveError α × Pass
  | .done a, s => (.ok a, s)
  | .fail e, s => (.error e, s)
  | .access next, s => next.evaluate s
  | .look next, s => (next s.session store).evaluate s
  | .record r next, s => next.evaluate (s.record r)
  | .keep r next, s => next.evaluate (s.keep r)
  | .ask q next, s => (next (answers s.requests q)).evaluate (s.ask answers q)

/-! ## Sequences -/

theorem bind_assoc {γ : Type} (p : Process α) (f : α → Process β) (g : β → Process γ) :
    p >>= f >>= g = p >>= fun a => f a >>= g := by
  change (p.bind f).bind g = p.bind fun a => (f a).bind g
  induction p with
  | done a => rfl
  | fail e => rfl
  | access next ih => simp only [Process.bind, ih]
  | look next ih => simp only [Process.bind, ih]
  | record r next ih => simp only [Process.bind, ih]
  | keep r next ih => simp only [Process.bind, ih]
  | ask q next ih => simp only [Process.bind, ih]

theorem evaluate_bind (p : Process α) (f : α → Process β) (s : Pass) :
    (p >>= f).evaluate answers store s =
      match p.evaluate answers store s with
      | (.ok a, s) => (f a).evaluate answers store s
      | (.error e, s) => (.error e, s) := by
  change (p.bind f).evaluate answers store s = _
  induction p generalizing s with
  | done a => rfl
  | fail e => rfl
  | access next ih => exact ih s
  | look next ih => exact ih s.session store s
  | record r next ih => exact ih (s.record r)
  | keep r next ih => exact ih (s.keep r)
  | ask q next ih => exact ih (answers s.requests q) (s.ask answers q)

/-- The rest of a sequence goes on from the result of its first part. -/
theorem evaluate_bind_of_ok {p : Process α} {a : α} {s s' : Pass} (f : α → Process β)
    (h : p.evaluate answers store s = (.ok a, s')) :
    (p >>= f).evaluate answers store s = (f a).evaluate answers store s' := by
  rw [evaluate_bind, h]

theorem evaluate_bind_of_error {p : Process α} {e : ResolveError} {s s' : Pass}
    (f : α → Process β) (h : p.evaluate answers store s = (.error e, s')) :
    (p >>= f).evaluate answers store s = (.error e, s') := by
  rw [evaluate_bind, h]

/-! ## Steps -/

@[simp] theorem evaluate_done (a : α) (s : Pass) :
    (done a).evaluate answers store s = (.ok a, s) := rfl

@[simp] theorem evaluate_fail (e : ResolveError) (s : Pass) :
    (fail e : Process α).evaluate answers store s = (.error e, s) := rfl

@[simp] theorem evaluate_accesses (n : Nat) (s : Pass) :
    (accesses n).evaluate answers store s = (.ok (), s) := by
  induction n with
  | zero => rfl
  | succ n ih => exact ih

@[simp] theorem evaluate_accesses_bind (n : Nat) (f : Unit → Process α) (s : Pass) :
    (accesses n >>= f).evaluate answers store s = (f ()).evaluate answers store s := by
  rw [evaluate_bind, evaluate_accesses]

@[simp] theorem evaluate_session_bind (f : Session → Process α) (s : Pass) :
    (Process.session >>= f).evaluate answers store s =
      (f s.session).evaluate answers store s := rfl

@[simp] theorem evaluate_store_bind (f : Store → Process α) (s : Pass) :
    (Process.store >>= f).evaluate answers store s = (f store).evaluate answers store s := rfl

@[simp] theorem evaluate_recorded (r : Resolved) (s : Pass) :
    (recorded r).evaluate answers store s = (.ok r, s.record r) := rfl

@[simp] theorem evaluate_keep_done (r : CachedRecord) (a : α) (s : Pass) :
    (keep r (done a)).evaluate answers store s = (.ok a, s.keep r) := rfl

@[simp] theorem evaluate_answerTo_bind (q : Request) (f : Answer → Process α) (s : Pass) :
    (answerTo q >>= f).evaluate answers store s =
      (f (answers s.requests q)).evaluate answers store (s.ask answers q) := rfl

end Process

/-! ## Hosts -/

/-- What a process can see of a host, and what it leaves there. -/
structure Host.Trace where
  session : Session
  store : Store
  requests : List (Request × Answer)
  writes : List CachedRecord

/-- What a process can see of a host, and what it leaves there. -/
def Host.trace (h : Host) : Host.Trace :=
  ⟨h.session, h.store, h.requests, h.writes⟩

@[simp] theorem Host.trace_access (h : Host) : h.access.trace = h.trace := by
  unfold Host.access Host.refresh
  split <;> rfl

theorem Host.trace_write (h : Host) (r : CachedRecord) :
    (h.write r).trace =
      { h.trace with store := h.trace.store.put r, writes := h.trace.writes ++ [r] } := by
  have put : (h.write r).trace =
      { (h.listWrite r).access.trace with
        store := (h.listWrite r).access.trace.store.put r } := rfl
  rw [put, Host.trace_access]
  rfl

theorem Host.trace_writeAll (h : Host) (rs : List CachedRecord) :
    (h.writeAll rs).trace =
      { h.trace with
        store := rs.foldl Store.put h.trace.store, writes := h.trace.writes ++ rs } := by
  induction rs generalizing h with
  | nil => simp [Host.writeAll]
  | cons r rs ih =>
      have step : h.writeAll (r :: rs) = (h.write r).writeAll rs := rfl
      rw [step, ih, Host.trace_write]
      simp

namespace Exchange

variable {α : Type}

/-- The answers of the node, the same at any time. -/
def answers (x : Exchange) : Answers :=
  fun _ q => x.node.reply q

theorem trace_join (x : Exchange) (h : Host) (q : Request) :
    (x.join h q).2.trace = h.trace := by
  unfold join
  split <;> rfl

theorem trace_start (x : Exchange) (h : Host) (q : Request) (cell : Option Nat) :
    (x.start h q cell).trace =
      { h.trace with requests := h.trace.requests ++ [(q, x.node.reply q)] } := by
  cases cell with
  | none => rfl
  | some n =>
      have listed : (x.start h q (some n)).trace =
          { h.access.trace with
            requests := h.access.trace.requests ++ [(q, x.node.reply q)] } := rfl
      rw [listed, Host.trace_access]

theorem trace_finish (x : Exchange) (h : Host) (q : Request) (cell : Option Nat) :
    (x.finish h q cell).trace = h.trace := by
  cases cell <;> rfl

theorem trace_await (x : Exchange) (h : Host) : (x.await h).trace = h.trace := by
  unfold await
  split <;> rfl

theorem givenUp?_none (rests : Bool) (h : Host) : givenUp? none rests h = none := by
  unfold givenUp?
  split <;> rfl

/-- A host that runs a process to its end gives the evaluated result and makes the evaluated requests;
the records held back reach its store if there is a result. -/
theorem run_eq_evaluate (x : Exchange) (p : Process α) :
    ∀ (kept : List CachedRecord) (h : Host),
      let e := p.evaluate x.answers h.trace.store ⟨h.trace.session, h.trace.requests, kept⟩
      (x.run none p kept h).1 = e.1 ∧
      (x.run none p kept h).2.trace =
        { session := e.2.session
          store := (e.2.flushed e.1).foldl Store.put h.trace.store
          requests := e.2.requests
          writes := h.trace.writes ++ e.2.flushed e.1 } := by
  induction p with
  | done a =>
      intro kept h
      exact ⟨rfl, Host.trace_writeAll h kept⟩
  | fail e =>
      intro kept h
      refine ⟨rfl, ?_⟩
      simp [run, Process.evaluate, Pass.flushed]
  | access next ih =>
      intro kept h
      have rest := ih kept h.access
      rw [Host.trace_access] at rest
      simp only [run, givenUp?_none]
      exact rest
  | look next ih =>
      intro kept h
      exact ih h.session h.store kept h
  | record r next ih =>
      intro kept h
      exact ih kept (h.record r)
  | keep r next ih =>
      intro kept h
      exact ih (kept ++ [r]) h
  | ask q next ih =>
      -- Whether the request is shared shows in the table of requests in flight alone.
      intro kept h
      have rest := ih (x.node.reply q) kept
        (x.finish (x.await (x.start (x.join h q).2 q (x.join h q).1)) q (x.join h q).1)
      rw [trace_finish, trace_await, trace_start, trace_join] at rest
      simp only [run, givenUp?_none]
      exact rest

/-- A host stands where a pass stands: it knows the same, and has asked the same. -/
structure StandsAt (x : Exchange) (h : Host) (answers : Answers) (store : Store) (s : Pass) :
    Prop where
  answers_eq : x.answers = answers
  store_eq : h.store = store
  session_eq : h.session = s.session
  requests_eq : h.requests = s.requests

/-- From where a pass stands, a host gives what the pass comes to, makes its requests, and writes what
it holds back. -/
theorem StandsAt.run_eq {x : Exchange} {h : Host} {answers : Answers} {store : Store} {s : Pass}
    (stands : x.StandsAt h answers store s) (p : Process α) :
    let outcome := p.evaluate answers store s
    let ran := x.run none p s.kept h
    ran.1 = outcome.1 ∧ ran.2.requests = outcome.2.requests ∧
      ran.2.writes = h.writes ++ outcome.2.flushed outcome.1 := by
  obtain ⟨rfl, rfl, session, requests⟩ := stands
  intro outcome ran
  have reached : (⟨h.session, h.requests, s.kept⟩ : Pass) = s := by
    rw [session, requests]
  obtain ⟨result, trace⟩ := x.run_eq_evaluate p s.kept h
  simp only [Host.trace, reached] at result trace
  exact ⟨result, congrArg Host.Trace.requests trace, congrArg Host.Trace.writes trace⟩

end Exchange

end TokenSchema
