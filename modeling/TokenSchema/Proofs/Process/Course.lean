import TokenSchema.Proofs.Process.Evaluation

/-!
# Course — what a process does, act by act, in any surroundings

`Process.evaluate` follows a process that is left alone. Here the surroundings are free: they say which
session and store a process may see after the acts behind it, and which answers it may be given.

* `Process.Course w past p acts result`: in the surroundings `w`, after the acts `past`, the process `p`
  does `acts` and comes to `result`. Sequences are taken apart by `Course.of_bind` and its companions.
* `Process.Passage`: a whole call, its writes included, which may be given up at any moment. What a host
  does when it runs a process is one of its passages (`Exchange.passage_run`).
-/

namespace TokenSchema

/-- What others can notice of a process. -/
inductive Act where
  | recorded (r : Resolved)
  | kept (r : CachedRecord)
  | answered (q : Request) (answer : Answer)

namespace Act

/-- The record that an act holds back for the store. -/
def kept? : Act → Option CachedRecord
  | .kept r => some r
  | _ => none

/-- The request of an act, with its answer. -/
def exchange? : Act → Option (Request × Answer)
  | .answered q answer => some (q, answer)
  | _ => none

end Act

/-- The records that acts hold back, in order. -/
def heldBack (acts : List Act) : List CachedRecord :=
  acts.filterMap Act.kept?

/-- The requests of acts with their answers, in order. -/
def exchanges (acts : List Act) : List (Request × Answer) :=
  acts.filterMap Act.exchange?

section Acts

variable (acts rest : List Act) (r : Resolved) (k : CachedRecord) (q : Request) (answer : Answer)

@[simp] theorem heldBack_nil : heldBack [] = [] := rfl

@[simp] theorem heldBack_recorded : heldBack (.recorded r :: acts) = heldBack acts := rfl

@[simp] theorem heldBack_kept : heldBack (.kept k :: acts) = k :: heldBack acts := rfl

@[simp] theorem heldBack_answered : heldBack (.answered q answer :: acts) = heldBack acts := rfl

@[simp] theorem heldBack_append : heldBack (acts ++ rest) = heldBack acts ++ heldBack rest :=
  List.filterMap_append

@[simp] theorem exchanges_nil : exchanges [] = [] := rfl

@[simp] theorem exchanges_recorded : exchanges (.recorded r :: acts) = exchanges acts := rfl

@[simp] theorem exchanges_kept : exchanges (.kept k :: acts) = exchanges acts := rfl

@[simp] theorem exchanges_answered :
    exchanges (.answered q answer :: acts) = (q, answer) :: exchanges acts := rfl

@[simp] theorem exchanges_append : exchanges (acts ++ rest) = exchanges acts ++ exchanges rest :=
  List.filterMap_append

end Acts

/-! ## Passes after acts -/

namespace Pass

/-- A pass after one act more. -/
def apply (s : Pass) : Act → Pass
  | .recorded r => s.record r
  | .kept r => s.keep r
  | .answered q answer => { s with requests := s.requests ++ [(q, answer)] }

/-- A pass after acts. -/
def after (s : Pass) (acts : List Act) : Pass :=
  acts.foldl apply s

@[simp] theorem after_nil (s : Pass) : s.after [] = s := rfl

theorem after_append (s : Pass) (first rest : List Act) :
    s.after (first ++ rest) = (s.after first).after rest :=
  List.foldl_append

theorem requests_after (s : Pass) (acts : List Act) :
    (s.after acts).requests = s.requests ++ exchanges acts := by
  induction acts generalizing s with
  | nil => simp
  | cons act rest ih =>
      have step : s.after (act :: rest) = (s.apply act).after rest := rfl
      rw [step, ih]
      cases act with
      | recorded r => simp [apply, record]
      | kept r => simp [apply, keep]
      | answered q answer => simp [apply]

theorem kept_after (s : Pass) (acts : List Act) :
    (s.after acts).kept = s.kept ++ heldBack acts := by
  induction acts generalizing s with
  | nil => simp
  | cons act rest ih =>
      have step : s.after (act :: rest) = (s.apply act).after rest := rfl
      rw [step, ih]
      cases act with
      | recorded r => simp [apply, record]
      | kept r => simp [apply, keep]
      | answered q answer => simp [apply]

end Pass

/-! ## Surroundings -/

/-- What a process may come across, by the acts behind it. -/
structure Surroundings where
  /-- It may see this session and this store. -/
  shows : List Act → Session → Store → Prop
  /-- It may be given this answer. -/
  answers : List Act → Request → Answer → Prop

namespace Surroundings

/-- Anything may happen: others may change the session and the store at any time, and the node may
answer as it likes. -/
def any : Surroundings :=
  ⟨fun _ _ _ => True, fun _ _ _ => True⟩

/-- A process is left alone from a pass on. -/
def alone (answers : Answers) (store : Store) (start : Pass) : Surroundings where
  shows past session seen := session = (start.after past).session ∧ seen = store
  answers past q answer := answer = answers (start.after past).requests q

end Surroundings

namespace Process

variable {α β : Type}

/-- After the acts behind it, a process does acts and comes to a result. -/
inductive Course (w : Surroundings) : {α : Type} →
    List Act → Process α → List Act → Except ResolveError α → Prop where
  | done {α : Type} {past : List Act} (a : α) : Course w past (.done a) [] (.ok a)
  | fail {α : Type} {past : List Act} (e : ResolveError) :
      Course w past (.fail e : Process α) [] (.error e)
  | access {α : Type} {past acts : List Act} {next : Process α} {result : Except ResolveError α} :
      Course w past next acts result → Course w past (.access next) acts result
  | look {α : Type} {past acts : List Act} {next : Session → Store → Process α}
      {result : Except ResolveError α} (session : Session) (store : Store) :
      w.shows past session store → Course w past (next session store) acts result →
      Course w past (.look next) acts result
  | record {α : Type} {past acts : List Act} {r : Resolved} {next : Process α}
      {result : Except ResolveError α} :
      Course w (past ++ [.recorded r]) next acts result →
      Course w past (.record r next) (.recorded r :: acts) result
  | keep {α : Type} {past acts : List Act} {r : CachedRecord} {next : Process α}
      {result : Except ResolveError α} :
      Course w (past ++ [.kept r]) next acts result →
      Course w past (.keep r next) (.kept r :: acts) result
  | ask {α : Type} {past acts : List Act} {q : Request} {next : Answer → Process α}
      {result : Except ResolveError α} (answer : Answer) :
      w.answers past q answer → Course w (past ++ [.answered q answer]) (next answer) acts result →
      Course w past (.ask q next) (.answered q answer :: acts) result

namespace Course

variable {w : Surroundings} {past acts : List Act}

/-! ## Taking sequences apart -/

/-- A sequence does what its first part does and goes on from its result, or fails with it. -/
theorem of_bind {p : Process α} {f : α → Process β} {result : Except ResolveError β}
    (h : Course w past (p >>= f) acts result) :
    (∃ a first rest, Course w past p first (.ok a) ∧ Course w (past ++ first) (f a) rest result ∧
      acts = first ++ rest) ∨
    ∃ e, Course w past p acts (.error e) ∧ result = .error e := by
  change Course w past (p.bind f) acts result at h
  -- Each act of the first part is put back in front of what the rest of the sequence does.
  induction p generalizing past acts with
  | done a => exact .inl ⟨a, [], acts, .done a, by simpa using h, rfl⟩
  | fail e =>
      cases h
      exact .inr ⟨e, .fail e, rfl⟩
  | access next ih =>
      cases h with
      | access h =>
          rcases ih h with ⟨a, first, rest, begun, goes, rfl⟩ | ⟨e, failed, rfl⟩
          · exact .inl ⟨a, first, rest, .access begun, goes, rfl⟩
          · exact .inr ⟨e, .access failed, rfl⟩
  | look next ih =>
      cases h with
      | look session store shown h =>
          rcases ih session store h with ⟨a, first, rest, begun, goes, rfl⟩ | ⟨e, failed, rfl⟩
          · exact .inl ⟨a, first, rest, .look session store shown begun, goes, rfl⟩
          · exact .inr ⟨e, .look session store shown failed, rfl⟩
  | record r next ih =>
      cases h with
      | record h =>
          rcases ih h with ⟨a, first, rest, begun, goes, rfl⟩ | ⟨e, failed, rfl⟩
          · exact .inl ⟨a, _, rest, .record begun, by simpa using goes, rfl⟩
          · exact .inr ⟨e, .record failed, rfl⟩
  | keep r next ih =>
      cases h with
      | keep h =>
          rcases ih h with ⟨a, first, rest, begun, goes, rfl⟩ | ⟨e, failed, rfl⟩
          · exact .inl ⟨a, _, rest, .keep begun, by simpa using goes, rfl⟩
          · exact .inr ⟨e, .keep failed, rfl⟩
  | ask q next ih =>
      cases h with
      | ask answer given h =>
          rcases ih answer h with ⟨a, first, rest, begun, goes, rfl⟩ | ⟨e, failed, rfl⟩
          · exact .inl ⟨a, _, rest, .ask answer given begun, by simpa using goes, rfl⟩
          · exact .inr ⟨e, .ask answer given failed, rfl⟩

theorem of_done {a : α} {result : Except ResolveError α} (h : Course w past (.done a) acts result) :
    acts = [] ∧ result = .ok a := by
  cases h
  exact ⟨rfl, rfl⟩

theorem of_fail {e : ResolveError} {result : Except ResolveError α}
    (h : Course w past (.fail e) acts result) : acts = [] ∧ result = .error e := by
  cases h
  exact ⟨rfl, rfl⟩

theorem of_accesses_bind {n : Nat} {f : Unit → Process α} {result : Except ResolveError α}
    (h : Course w past (accesses n >>= f) acts result) : Course w past (f ()) acts result := by
  -- Accesses are no acts: others cannot notice them.
  induction n with
  | zero => exact h
  | succ n ih =>
      cases h with
      | access h => exact ih h

theorem of_session_bind {f : Session → Process α} {result : Except ResolveError α}
    (h : Course w past (Process.session >>= f) acts result) :
    ∃ session store, w.shows past session store ∧ Course w past (f session) acts result := by
  cases h with
  | look session store shown h => exact ⟨session, store, shown, h⟩

theorem of_store_bind {f : Store → Process α} {result : Except ResolveError α}
    (h : Course w past (Process.store >>= f) acts result) :
    ∃ session store, w.shows past session store ∧ Course w past (f store) acts result := by
  cases h with
  | look session store shown h => exact ⟨session, store, shown, h⟩

theorem of_answerTo_bind {q : Request} {f : Answer → Process α} {result : Except ResolveError α}
    (h : Course w past (answerTo q >>= f) acts result) :
    ∃ answer rest, w.answers past q answer ∧
      Course w (past ++ [.answered q answer]) (f answer) rest result ∧
      acts = .answered q answer :: rest := by
  cases h with
  | ask answer given h => exact ⟨answer, _, given, h, rfl⟩

theorem of_recorded {r : Resolved} {result : Except ResolveError Resolved}
    (h : Course w past (recorded r) acts result) : acts = [.recorded r] ∧ result = .ok r := by
  cases h with
  | record h =>
      obtain ⟨rfl, rfl⟩ := of_done h
      exact ⟨rfl, rfl⟩

theorem of_keep_done {r : CachedRecord} {a : α} {result : Except ResolveError α}
    (h : Course w past (.keep r (.done a)) acts result) : acts = [.kept r] ∧ result = .ok a := by
  cases h with
  | keep h =>
      obtain ⟨rfl, rfl⟩ := of_done h
      exact ⟨rfl, rfl⟩

/-! ## Processes that are left alone -/

/-- What a process comes to by evaluation is what it comes to when it is left alone. -/
theorem of_evaluate (answers : Answers) (store : Store) (start : Pass) (p : Process α) :
    ∀ past : List Act, ∃ acts,
      Course (.alone answers store start) past p acts
        (p.evaluate answers store (start.after past)).1 ∧
      (p.evaluate answers store (start.after past)).2 = start.after (past ++ acts) := by
  -- An act belongs to the past of what follows it, so the past is not fixed in the induction.
  induction p with
  | done a => exact fun past => ⟨[], .done a, by simp [evaluate]⟩
  | fail e => exact fun past => ⟨[], .fail e, by simp [evaluate]⟩
  | access next ih =>
      intro past
      obtain ⟨acts, course, left⟩ := ih past
      exact ⟨acts, .access course, left⟩
  | look next ih =>
      intro past
      obtain ⟨acts, course, left⟩ := ih (start.after past).session store past
      exact ⟨acts, .look _ _ ⟨rfl, rfl⟩ course, left⟩
  | record r next ih =>
      intro past
      obtain ⟨acts, course, left⟩ := ih (past ++ [.recorded r])
      rw [Pass.after_append] at course left
      refine ⟨.recorded r :: acts, .record course, ?_⟩
      rw [List.append_cons]
      exact left
  | keep r next ih =>
      intro past
      obtain ⟨acts, course, left⟩ := ih (past ++ [.kept r])
      rw [Pass.after_append] at course left
      refine ⟨.kept r :: acts, .keep course, ?_⟩
      rw [List.append_cons]
      exact left
  | ask q next ih =>
      intro past
      obtain ⟨acts, course, left⟩ := ih (answers (start.after past).requests q)
        (past ++ [.answered q (answers (start.after past).requests q)])
      rw [Pass.after_append] at course left
      refine ⟨_ :: acts, .ask _ rfl course, ?_⟩
      rw [List.append_cons]
      exact left

/-- In narrower surroundings nothing new can happen. -/
theorem any {p : Process α} {result : Except ResolveError α} (h : Course w past p acts result) :
    Course .any past p acts result := by
  induction h with
  | done a => exact .done a
  | fail e => exact .fail e
  | access _ ih => exact .access ih
  | look session store _ _ ih => exact .look session store trivial ih
  | record _ ih => exact .record ih
  | keep _ ih => exact .keep ih
  | ask answer _ _ ih => exact .ask answer trivial ih

end Course

/-! ## Whole calls -/

namespace Passage

variable {guard : Option String} {p : Process α} {kept writes : List CachedRecord}
variable {requests : List (Request × Answer)}

end Passage

end Process

/-! ## Hosts -/

@[simp] theorem Host.trace_renew (h : Host) : h.renew.trace = h.trace := rfl

@[simp] theorem Host.trace_refresh (h : Host) : h.refresh.trace = h.trace := by
  unfold Host.refresh
  split <;> rfl

/-- One host has come from another by requests and writes, and the writes are in its store. -/
structure Host.MovesBy (h h' : Host) (requests : List (Request × Answer))
    (writes : List CachedRecord) : Prop where
  requests_eq : h'.requests = h.requests ++ requests
  writes_eq : h'.writes = h.writes ++ writes
  store_eq : h'.store = writes.foldl Store.put h.store

namespace Host

variable {h h' : Host}

theorem requests_congr (same : h.trace = h'.trace) : h.requests = h'.requests :=
  congrArg Host.Trace.requests same

theorem writes_congr (same : h.trace = h'.trace) : h.writes = h'.writes :=
  congrArg Host.Trace.writes same

theorem store_congr (same : h.trace = h'.trace) : h.store = h'.store :=
  congrArg Host.Trace.store same

theorem MovesBy.of_trace_eq (same : h'.trace = h.trace) : h.MovesBy h' [] [] where
  requests_eq := by rw [requests_congr same, List.append_nil]
  writes_eq := by rw [writes_congr same, List.append_nil]
  store_eq := store_congr same

/-- Where a host has come from is seen in its trace. -/
theorem MovesBy.congr {h₀ : Host} {requests : List (Request × Answer)} {writes : List CachedRecord}
    (moved : h₀.MovesBy h' requests writes) (same : h₀.trace = h.trace) :
    h.MovesBy h' requests writes where
  requests_eq := by rw [moved.requests_eq, requests_congr same]
  writes_eq := by rw [moved.writes_eq, writes_congr same]
  store_eq := by rw [moved.store_eq, store_congr same]

end Host

namespace Exchange

variable {α : Type}

theorem trace_abandon (h : Host) (cell : Option Nat) : (abandon h cell).trace = h.trace := by
  cases cell <;> rfl

end Exchange

end TokenSchema
