import Mathlib.Data.List.Forall2
import TokenSchema.Proofs.Process.Course
import TokenSchema.Schedule

/-!
# Delivery — what processes give when others work on the same host

A process that keeps to a property whatever it sees and is answered (`Process.Delivers`) keeps to it on a host
too: when it is run to its end, and when it takes turns with others. Only the session matters in which they
all record, and only what stays true of it whoever records (`Session.Lasts`).

* One turn of a task (`Exchange.turn_delivers`), and one run of a process (`Exchange.run_delivers`).
* All results of processes that are run together (`Exchange.runTogether_delivers`), each in its place.
-/

namespace TokenSchema

/-- What is true of a session stays true when a result is recorded. -/
def Session.Lasts (S : Session → Prop) : Prop :=
  ∀ session x, S session → S (session.record x)

/-- Others may change the store at any time, and leave sessions of which this is true; the node may answer as it
likes. -/
def Surroundings.within (S : Session → Prop) : Surroundings :=
  ⟨fun _ session _ => S session, fun _ _ _ => True⟩

variable {α : Type} {S : Session → Prop} {P : α → Prop}

/-! ## Processes -/

/-- Whatever it sees of sessions in `S`, and whatever it is answered, all that a process gives has the
property. -/
inductive Process.Delivers (S : Session → Prop) (P : α → Prop) : Process α → Prop where
  | done {a : α} : P a → Delivers S P (.done a)
  | fail (e : ResolveError) : Delivers S P (.fail e)
  | access {next : Process α} : Delivers S P next → Delivers S P (.access next)
  | look {next : Session → Store → Process α} :
      (∀ session store, S session → Delivers S P (next session store)) → Delivers S P (.look next)
  | record {r : Resolved} {next : Process α} : Delivers S P next → Delivers S P (.record r next)
  | keep {r : CachedRecord} {next : Process α} : Delivers S P next → Delivers S P (.keep r next)
  | ask {q : Request} {next : Answer → Process α} :
      (∀ answer, Delivers S P (next answer)) → Delivers S P (.ask q next)

/-- What all courses of a process come to is what it delivers. -/
theorem Process.Delivers.of_courses (p : Process α) (past : List Act)
    (each : ∀ acts a, Course (.within S) past p acts (.ok a) → P a) : p.Delivers S P := by
  induction p generalizing past with
  | done a => exact .done (each [] a (.done a))
  | fail e => exact .fail e
  | access next ih => exact .access (ih past fun acts a course => each acts a (.access course))
  | look next ih =>
      refine .look fun session store here => ih session store past ?_
      exact fun acts a course => each acts a (.look session store here course)
  | record r next ih => exact .record (ih _ fun acts a course => each _ a (.record course))
  | keep r next ih => exact .keep (ih _ fun acts a course => each _ a (.keep course))
  | ask q next ih =>
      exact .ask fun answer => ih answer _ fun acts a course => each _ a (.ask answer trivial course)

/-- All that a task still gives has the property. -/
def Task.Delivers (S : Session → Prop) (P : α → Prop) : Task α → Prop
  | .ready p _ => p.Delivers S P
  | .asking _ _ _ next _ => ∀ answer, (next answer).Delivers S P
  | .writing _ _ result => P result
  | .finished result => ∀ a, result = .ok a → P a

/-! ## Hosts -/

theorem Host.session_congr {h h' : Host} (same : h.trace = h'.trace) : h.session = h'.session :=
  congrArg Host.Trace.session same

theorem Host.session_writeAll (h : Host) (rs : List CachedRecord) :
    (h.writeAll rs).session = h.session :=
  congrArg Host.Trace.session (h.trace_writeAll rs)

theorem Host.session_write (h : Host) (r : CachedRecord) : (h.write r).session = h.session :=
  congrArg Host.Trace.session (h.trace_write r)

namespace Exchange

variable (x : Exchange)

theorem session_join (h : Host) (q : Request) : (x.join h q).2.session = h.session :=
  Host.session_congr (x.trace_join h q)

theorem session_start (h : Host) (q : Request) (cell : Option Nat) :
    (x.start h q cell).session = h.session :=
  congrArg Host.Trace.session (x.trace_start h q cell)

theorem session_finish (h : Host) (q : Request) (cell : Option Nat) :
    (x.finish h q cell).session = h.session :=
  Host.session_congr (x.trace_finish h q cell)

theorem session_request (q : Request) (cell : Option Nat) (h : Host) :
    (x.request q cell h).2.session = h.session := by
  have issued : (x.issue q cell h).2.session = h.session := by
    simp only [issue]
    split
    · exact x.session_start h q cell
    · exact (x.session_finish _ q cell).trans (x.session_start h q cell)
  unfold request
  split
  · exact issued
  · split
    · rfl
    · split
      · rfl
      · rfl
      · exact issued

/-! ## One task -/

theorem writeOut_delivers {a : α} (given : P a) (kept : List CachedRecord) (h : Host) :
    (writeOut a kept h).1.Delivers S P ∧ (writeOut a kept h).2.session = h.session := by
  induction kept generalizing h with
  | nil =>
      refine ⟨?_, rfl⟩
      rintro _ ⟨⟩
      exact given
  | cons r rest ih =>
      unfold writeOut
      split
      · exact ⟨given, rfl⟩
      · obtain ⟨delivers, same⟩ := ih (h.write r)
        exact ⟨delivers, same.trans (h.session_write r)⟩

section Lasting

variable (lasts : Session.Lasts S)
include lasts

/-- What a task leaves after a turn still has the property, and so has the session. -/
theorem advance_delivers {p : Process α} (delivers : p.Delivers S P) (kept : List CachedRecord) {h : Host}
    (here : S h.session) :
    (x.advance p kept h).1.Delivers S P ∧ S (x.advance p kept h).2.session := by
  induction delivers generalizing kept h with
  | done given =>
      obtain ⟨delivers, same⟩ := writeOut_delivers (S := S) given kept h
      exact ⟨delivers, same.symm ▸ here⟩
  | fail e => exact ⟨by rintro _ ⟨⟩, here⟩
  | access next ih =>
      unfold advance
      split
      · exact ⟨.access next, here⟩
      · exact ih kept here
  | look _ ih => exact ih h.session h.store here kept here
  | record _ ih => exact ih kept (lasts _ _ here)
  | keep _ ih => exact ih _ here
  | @ask q next each ih =>
      have joined : S (x.join h q).2.session := (x.session_join h q).symm ▸ here
      have requested := x.session_request q (x.join h q).1 (x.join h q).2
      -- The task goes on at once if it has its answer already, and waits for it otherwise.
      simp only [advance]
      split
      · rename_i outcome
        rw [outcome] at requested
        exact ih _ kept (requested.symm ▸ joined)
      · rename_i outcome
        rw [outcome] at requested
        exact ⟨each, requested.symm ▸ joined⟩

/-- The request of a task is answered, and it goes on, or it is not. -/
theorem turn_asking_delivers {next : Answer → Process α} (each : ∀ answer, (next answer).Delivers S P)
    (q : Request) (cell : Option Nat) (kept : List CachedRecord) {h : Host} (here : S h.session) :
    (x.turn (.asking .shared q cell next kept) h).1.Delivers S P ∧
      S (x.turn (.asking .shared q cell next kept) h).2.session := by
  have requested := x.session_request q cell h
  simp only [turn]
  split
  · rename_i answer h' outcome
    rw [outcome] at requested
    exact x.advance_delivers lasts (each answer) kept (requested.symm ▸ here)
  · rename_i outcome
    rw [outcome] at requested
    exact ⟨each, requested.symm ▸ here⟩

theorem turn_delivers {t : Task α} (delivers : t.Delivers S P) {h : Host} (here : S h.session) :
    (x.turn t h).1.Delivers S P ∧ S (x.turn t h).2.session := by
  cases t with
  | ready p kept => exact x.advance_delivers lasts delivers kept here
  | writing r rest result =>
      simp only [turn]
      split
      · exact ⟨delivers, here⟩
      · obtain ⟨written, same⟩ := writeOut_delivers (S := S) (P := P) delivers rest
          (h.pay.withStore (·.put r))
        exact ⟨written, same.symm ▸ here⟩
  | finished result => exact ⟨delivers, here⟩
  | asking stage q cell next kept =>
      cases stage with
      | made =>
          exact x.advance_delivers lasts (delivers _) kept ((x.session_finish h q cell).symm ▸ here)
      -- One that is held and one that is shared ask alike.
      | shared => exact x.turn_asking_delivers lasts delivers q cell kept here
      | held => exact x.turn_asking_delivers lasts delivers q cell kept here

theorem run_delivers {p : Process α} (delivers : p.Delivers S P) (guard : Option String)
    (kept : List CachedRecord) {h : Host} (here : S h.session) :
    (∀ a, (x.run guard p kept h).1 = .ok a → P a) ∧ S (x.run guard p kept h).2.session := by
  induction delivers generalizing kept h with
  | done given =>
      refine ⟨?_, (h.session_writeAll kept).symm ▸ here⟩
      rintro _ ⟨⟩
      exact given
  | fail e => exact ⟨by rintro _ ⟨⟩, here⟩
  | access _ ih =>
      simp only [run]
      split
      · exact ⟨by rintro _ ⟨⟩, here⟩
      · exact ih kept (Host.session_congr h.trace_access ▸ here)
  | look _ ih => exact ih h.session h.store here kept here
  | record _ ih => exact ih kept (lasts _ _ here)
  | keep _ ih => exact ih _ here
  | @ask q next each ih =>
      have joined : S (x.join h q).2.session := (x.session_join h q).symm ▸ here
      have started := x.session_start (x.join h q).2 q (x.join h q).1
      -- The user may give up before the request is sent, and while it is under way.
      simp only [run]
      split
      · exact ⟨by rintro _ ⟨⟩, joined⟩
      · split
        · refine ⟨by rintro _ ⟨⟩, ?_⟩
          have left := Host.session_congr (trace_abandon
            (x.start (x.join h q).2 q (x.join h q).1) (x.join h q).1)
          exact (left.trans started).symm ▸ joined
        · refine ih _ kept ?_
          rw [session_finish, Host.session_congr (x.trace_await _), started]
          exact joined

theorem complete_delivers {t : Task α} (delivers : t.Delivers S P) {h : Host} (here : S h.session) :
    (∀ a, (x.complete t h).1 = .ok a → P a) ∧ S (x.complete t h).2.session := by
  cases t with
  | ready p kept => exact x.run_delivers lasts delivers none kept here
  | writing r rest result =>
      refine ⟨?_, ?_⟩
      · rintro _ ⟨⟩
        exact delivers
      · have same : (x.complete (.writing r rest result) h).2.session = h.access.session :=
          Host.session_writeAll _ rest
        exact (same.trans (Host.session_congr h.trace_access)).symm ▸ here
  | finished result => exact ⟨delivers, here⟩
  | asking stage q cell next kept =>
      have asks : (Process.ask q next).Delivers S P := .ask delivers
      cases stage with
      | made =>
          exact x.run_delivers lasts (delivers _) none kept ((x.session_finish h q cell).symm ▸ here)
      | shared => exact x.run_delivers lasts asks none kept here
      | held => exact x.run_delivers lasts asks none kept here

end Lasting

end Exchange

/-! ## Several tasks -/

/-- What one step makes of one thing, steps in order make of several. -/
theorem Host.forall₂_inOrder {κ σ τ : Type} {R : κ → σ → Prop} {R' : κ → τ → Prop}
    (step : σ → Host → τ × Host)
    (each : ∀ k s h, R k s → S h.session → R' k (step s h).1 ∧ S (step s h).2.session)
    {ks : List κ} {ss : List σ} (related : List.Forall₂ R ks ss) {h : Host} (here : S h.session) :
    List.Forall₂ R' ks (Host.inOrder step ss h).1 ∧ S (Host.inOrder step ss h).2.session := by
  induction related generalizing h with
  | nil => exact ⟨.nil, here⟩
  | cons first _ ih =>
      obtain ⟨stepped, after⟩ := each _ _ h first here
      obtain ⟨rest, last⟩ := ih after
      exact ⟨.cons stepped rest, last⟩

/-- What is related as the thing in a place was may take the place. -/
theorem exists_forall₂_set {κ σ : Type} {R : κ → σ → Prop} {ks : List κ} {ss : List σ}
    (related : List.Forall₂ R ks ss) {place : Nat} {s : σ} (there : ss[place]? = some s) :
    ∃ k, R k s ∧ ∀ s', R k s' → List.Forall₂ R ks (ss.set place s') := by
  induction related generalizing place with
  | nil => cases there
  | cons first rest ih =>
      cases place with
      | zero =>
          cases there
          exact ⟨_, first, fun s' related => .cons related rest⟩
      | succ place =>
          obtain ⟨k, its, taken⟩ := ih there
          exact ⟨k, its, fun s' related => .cons first (taken s' related)⟩

namespace Exchange

variable (x : Exchange)

section Lasting

variable (lasts : Session.Lasts S) {Ps : List (α → Prop)}
include lasts

theorem rounds_delivers (limit : Nat) {tasks : List (Task α)}
    (delivers : List.Forall₂ (Task.Delivers S) Ps tasks) {h : Host} (here : S h.session) :
    List.Forall₂ (Task.Delivers S) Ps (x.rounds limit tasks h).1 ∧
      S (x.rounds limit tasks h).2.session := by
  induction limit generalizing tasks h with
  | zero => exact ⟨delivers, here⟩
  | succ limit ih =>
      obtain ⟨turned, after⟩ := Host.forall₂_inOrder x.turn
        (fun _ _ _ delivers here => x.turn_delivers lasts delivers here) delivers here
      simp only [rounds]
      split
      · exact ⟨turned, after⟩
      · exact ih turned after

theorem lineUp_delivers (limit : Nat) (l : Line) {tasks : Array (Task α)}
    (delivers : List.Forall₂ (Task.Delivers S) Ps tasks.toList) {h : Host}
    (here : S h.session) :
    List.Forall₂ (Task.Delivers S) Ps (x.lineUp limit l tasks h).1.toList ∧
      S (x.lineUp limit l tasks h).2.session := by
  induction limit generalizing l tasks h with
  | zero => exact ⟨delivers, here⟩
  | succ limit ih =>
      simp only [lineUp]
      split
      · -- Nobody can go on, and a new spell begins.
        split
        · exact ⟨delivers, here⟩
        · exact ih _ delivers here
      · rename_i place l' _
        split
        · exact ⟨delivers, here⟩
        · rename_i t its
          have listed : tasks.toList[place]? = some t := by simpa using its
          obtain ⟨P, its, taken⟩ := exists_forall₂_set delivers listed
          obtain ⟨turned, after⟩ := x.turn_delivers lasts its here
          refine ih _ ?_ after
          rw [Array.toList_setIfInBounds]
          exact taken _ turned

theorem takeTurns_delivers (limit : Nat) {tasks : List (Task α)}
    (delivers : List.Forall₂ (Task.Delivers S) Ps tasks) {h : Host} (here : S h.session) :
    List.Forall₂ (Task.Delivers S) Ps (x.takeTurns limit tasks h).1 ∧
      S (x.takeTurns limit tasks h).2.session := by
  unfold takeTurns
  split
  · exact x.rounds_delivers lasts limit delivers here
  · exact x.lineUp_delivers lasts limit _ (by simpa using delivers) here

/-- Of processes that are run together, each gives what it delivers alone, and the session is as it should
be. -/
theorem runTogether_delivers (limit : Nat) {ps : List (Process α)}
    (delivers : List.Forall₂ (Process.Delivers S) Ps ps) {h : Host} (here : S h.session) :
    List.Forall₂ (fun P result => ∀ a, result = .ok a → P a) Ps (x.runTogether limit ps h).1 ∧
      S (x.runTogether limit ps h).2.session := by
  have begun : List.Forall₂ (Task.Delivers S) Ps (ps.map fun p => .ready p []) :=
    List.forall₂_map_right_iff.2 delivers
  obtain ⟨taken, after⟩ := x.takeTurns_delivers lasts limit begun here
  exact Host.forall₂_inOrder x.complete
    (fun _ _ _ delivers here => x.complete_delivers lasts delivers here) taken after

end Lasting

end Exchange

end TokenSchema
