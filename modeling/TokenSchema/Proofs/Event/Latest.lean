import Mathlib.Data.List.Induction
import Mathlib.Data.List.Nodup
import Mathlib.Data.Prod.Lex
import TokenSchema.Proofs.Process.Evaluation
import TokenSchema.Resolution

/-!
# Latest logs — an event is read from one log, wherever a node lists it

The value of an attribute that looks at logs is that of the log with the last place on the chain. As long as no
two logs stand in one place, the order in which a node lists them has no part in it
(`LogEntry.latest?_eq_some_iff`). So two nodes that list the same logs in different orders leave the same result
and the same writes behind (`Resolver.evaluate_fromEvent_latest`).
-/

namespace TokenSchema

namespace LogEntry

variable {logs logs' : List LogEntry} {l m : LogEntry}

/-- The place of a log on its chain: its block, and its place in that. -/
def place (l : LogEntry) : Nat ×ₗ Nat :=
  toLex (l.block, l.index)

/-- No two of the logs stand in one place. -/
def Apart (logs : List LogEntry) : Prop :=
  (logs.map place).Nodup

instance : Decidable (Apart logs) :=
  inferInstanceAs (Decidable (logs.map place).Nodup)

/-- A log that has the last place of all. -/
structure IsLatest (logs : List LogEntry) (l : LogEntry) : Prop where
  member : l ∈ logs
  last : ∀ m ∈ logs, m.place ≤ l.place

theorem notAfter_iff : l.notAfter m = true ↔ l.place ≤ m.place := by
  simp [notAfter, place, Prod.Lex.toLex_le_toLex]

theorem Apart.perm (apart : Apart logs) (reordered : logs.Perm logs') : Apart logs' :=
  (reordered.map place).nodup_iff.1 apart

theorem IsLatest.perm (latest : IsLatest logs l) (reordered : logs.Perm logs') : IsLatest logs' l :=
  ⟨reordered.mem_iff.1 latest.member, fun m member => latest.last m (reordered.mem_iff.2 member)⟩

theorem IsLatest.unique (apart : Apart logs) (latest : IsLatest logs l) (latest' : IsLatest logs m) :
    l = m :=
  List.inj_on_of_nodup_map apart latest.member latest'.member
    (le_antisymm (latest'.last l latest.member) (latest.last m latest'.member))

/-- The later one of the latest log and one more is the latest of all. -/
theorem IsLatest.concat (latest : IsLatest logs l) (m : LogEntry) :
    IsLatest (logs ++ [m]) (if l.notAfter m then m else l) := by
  by_cases after : l.place ≤ m.place
  · rw [if_pos (notAfter_iff.2 after)]
    refine ⟨by simp, ?_⟩
    intro n member
    rcases List.mem_append.1 member with before | new
    · exact (latest.last n before).trans after
    · exact (List.mem_singleton.1 new) ▸ le_rfl
  · rw [if_neg fun notAfter => after (notAfter_iff.1 notAfter)]
    refine ⟨List.mem_append_left _ latest.member, ?_⟩
    intro n member
    rcases List.mem_append.1 member with before | new
    · exact latest.last n before
    · exact (List.mem_singleton.1 new) ▸ le_of_not_ge after

/-- What is taken for the latest log has the last place. The induction is from the end of the list, where the
newcomer is compared with the best one before it. -/
theorem isLatest_of_latest? (taken : latest? logs = some l) : IsLatest logs l := by
  cases logs with
  | nil => cases taken
  | cons first rest =>
      obtain rfl := Option.some.inj taken
      clear taken
      induction rest using List.reverseRecOn with
      | nil => exact ⟨by simp, by simp⟩
      | append_singleton rest m ih =>
          rw [List.foldl_append, ← List.cons_append]
          exact ih.concat m

theorem latest?_eq_some_iff (apart : Apart logs) : latest? logs = some l ↔ IsLatest logs l := by
  refine ⟨isLatest_of_latest?, fun latest => ?_⟩
  cases logs with
  | nil => cases latest.member
  | cons first rest =>
      obtain ⟨best, taken⟩ : ∃ best, latest? (first :: rest) = some best := ⟨_, rfl⟩
      rw [taken, (isLatest_of_latest? taken).unique apart latest]

theorem latest?_perm (apart : Apart logs) (reordered : logs.Perm logs') : latest? logs = latest? logs' := by
  apply Option.ext
  intro l
  rw [latest?_eq_some_iff apart, latest?_eq_some_iff (apart.perm reordered)]
  exact ⟨fun latest => latest.perm reordered, fun latest => latest.perm reordered.symm⟩

end LogEntry

/-- Two answers are the same, or list the same logs, each in a place of its own, in different orders. -/
inductive Answer.Relists : Answer → Answer → Prop where
  | same (answer : Answer) : Relists answer answer
  | reordered {logs logs' : List LogEntry} (apart : LogEntry.Apart logs) (reordered : logs.Perm logs') :
      Relists (.logs logs) (.logs logs')

/-- What reaches the store depends on what is held back alone. -/
theorem Pass.flushed_congr {α : Type} (result : Except ResolveError α) {s s' : Pass} (kept : s'.kept = s.kept) :
    s'.flushed result = s.flushed result := by
  cases result with
  | ok => exact kept
  | error => rfl

namespace Resolver

variable {a : Attribute} {e : EventSource} {contract : Deployment} {tokenId : Nat}

theorem loggedValue?_relists {answer answer' : Answer} (relists : answer.Relists answer') :
    loggedValue? e answer = loggedValue? e answer' := by
  cases relists with
  | same => rfl
  | reordered apart reordered => simp only [loggedValue?, LogEntry.latest?_perm apart reordered]

/-- The value is that of the log with the last place. -/
theorem loggedValue?_of_isLatest {logs : List LogEntry} {l : LogEntry} (apart : LogEntry.Apart logs)
    (latest : LogEntry.IsLatest logs l) : loggedValue? e (.logs logs) = e.selectValue? l := by
  rw [loggedValue?, (LogEntry.latest?_eq_some_iff apart).2 latest, Option.bind_some]

/-- There is no value where the last log has none, or where there is no log. -/
theorem loggedValue?_eq_none {logs : List LogEntry} (apart : LogEntry.Apart logs)
    (unreadable : ∀ l, LogEntry.IsLatest logs l → e.selectValue? l = none) :
    loggedValue? e (.logs logs) = none := by
  rw [loggedValue?, Option.bind_eq_none_iff]
  exact fun l taken => unreadable l ((LogEntry.latest?_eq_some_iff apart).1 taken)

section Event

variable (r : Resolver) (answers : Answers) (store : Store) (s : Pass)
variable (deployed : e.deployment? = some contract)
include deployed

/-- What is kept is the value; otherwise the logs that pass the filter are asked for, if any can. -/
theorem evaluate_fromEvent :
    (r.fromEvent tokenId a e).evaluate answers store s =
      match store.find? contract a.name tokenId with
      | some record => (.ok (Resolved.ofRaw a tokenId record.result), s)
      | none =>
          match e.filterFor store [tokenId] with
          | .error cause => (.error cause, s)
          | .ok none => (.ok (Resolved.blank a tokenId), s)
          | .ok (some filter) =>
              match loggedValue? e (answers s.requests (.logs filter)) with
              | some v =>
                  let raw := Resolved.rawText a v
                  (.ok (Resolved.ofRaw a tokenId raw), (s.ask answers (.logs filter)).keep
                    ⟨contract, a.name, tokenId, raw, r.clock⟩)
              | none => (.ok (Resolved.blank a tokenId), s.ask answers (.logs filter)) := by
  simp only [fromEvent, deployed, Process.evaluate_accesses_bind, Process.evaluate_store_bind]
  cases store.find? contract a.name tokenId with
  | some record => rfl
  | none =>
      simp only [Process.evaluate_accesses_bind, Process.evaluate_store_bind]
      cases e.filterFor store [tokenId] with
      | error cause => rfl
      | ok question =>
          cases question with
          | none => rfl
          | some filter =>
              change (Process.answerTo (.logs filter) >>= _).evaluate answers store s = _
              rw [Process.evaluate_answerTo_bind]
              dsimp only
              cases loggedValue? e (answers s.requests (.logs filter)) with
              | some v => rfl
              | none => rfl

/-- The order in which logs are listed shows in the recorded answer alone. -/
theorem evaluate_fromEvent_relists {answers' : Answers}
    (relists : ∀ q, (answers s.requests q).Relists (answers' s.requests q)) :
    let outcome := (r.fromEvent tokenId a e).evaluate answers store s
    let outcome' := (r.fromEvent tokenId a e).evaluate answers' store s
    outcome'.1 = outcome.1 ∧ outcome'.2.session = outcome.2.session ∧
      outcome'.2.kept = outcome.2.kept ∧
      outcome'.2.requests.map (·.1) = outcome.2.requests.map (·.1) := by
  intro outcome outcome'
  simp only [outcome, outcome', evaluate_fromEvent _ _ _ _ deployed]
  cases store.find? contract a.name tokenId with
  | some record => exact ⟨rfl, rfl, rfl, rfl⟩
  | none =>
      cases e.filterFor store [tokenId] with
      | error cause => exact ⟨rfl, rfl, rfl, rfl⟩
      | ok question =>
          cases question with
          | none => exact ⟨rfl, rfl, rfl, rfl⟩
          | some filter =>
              simp only [← loggedValue?_relists (relists (.logs filter))]
              cases loggedValue? e (answers s.requests (.logs filter)) with
              | some v => exact ⟨rfl, rfl, rfl, by simp [Pass.ask, Pass.keep]⟩
              | none => exact ⟨rfl, rfl, rfl, by simp [Pass.ask]⟩

/-- Hosts whose nodes list logs in different orders have the same result and the same writes. -/
theorem run_fromEvent_relists {x x' : Exchange} {h : Host} (stands : x.StandsAt h answers store s)
    (relists : ∀ q, (x.node.reply q).Relists (x'.node.reply q)) :
    let process := r.fromEvent tokenId a e
    let ran := x.run none process s.kept h
    let ran' := x'.run none process s.kept h
    ran'.1 = ran.1 ∧ ran'.2.writes = ran.2.writes := by
  intro process ran ran'
  have stands' : x'.StandsAt h x'.answers store s :=
    ⟨rfl, stands.store_eq, stands.session_eq, stands.requests_eq⟩
  have listed : ∀ q, (answers s.requests q).Relists (x'.answers s.requests q) := by
    rw [← stands.answers_eq]
    exact relists
  obtain ⟨result, -, writes⟩ := stands.run_eq process
  obtain ⟨result', -, writes'⟩ := stands'.run_eq process
  obtain ⟨same, -, kept, -⟩ := @evaluate_fromEvent_relists a e contract tokenId r answers store s deployed
    x'.answers listed
  refine ⟨result'.trans (same.trans result.symm), ?_⟩
  rw [writes, writes', same]
  exact congrArg (h.writes ++ ·) (Pass.flushed_congr _ kept)

end Event

/-- A kept record is the value, and nothing is asked or kept. Otherwise the log with the last place gives the value,
which is kept; where it has none, or there is no log, the value is blank and nothing is kept. Another order of the
logs changes neither the value nor what is kept, and so neither the result of a host nor its writes. -/
theorem evaluate_fromEvent_latest (r : Resolver) (answers : Answers) (store : Store) (s : Pass)
    (deployed : e.deployment? = some contract) :
    let process := r.fromEvent tokenId a e
    let outcome := process.evaluate answers store s
    (∀ record, store.find? contract a.name tokenId = some record →
      outcome = (.ok (Resolved.ofRaw a tokenId record.result), s)) ∧
    (store.find? contract a.name tokenId = none →
      (∀ cause, e.filterFor store [tokenId] = .error cause → outcome = (.error cause, s)) ∧
      (e.filterFor store [tokenId] = .ok none → outcome = (.ok (Resolved.blank a tokenId), s)) ∧
      ∀ filter logs, e.filterFor store [tokenId] = .ok (some filter) →
        answers s.requests (.logs filter) = .logs logs → LogEntry.Apart logs →
        let asked := s.ask answers (.logs filter)
        (∀ l v, LogEntry.IsLatest logs l → e.selectValue? l = some v →
          let raw := Resolved.rawText a v
          outcome = (.ok (Resolved.ofRaw a tokenId raw),
            asked.keep ⟨contract, a.name, tokenId, raw, r.clock⟩)) ∧
        ((∀ l, LogEntry.IsLatest logs l → e.selectValue? l = none) →
          outcome = (.ok (Resolved.blank a tokenId), asked))) ∧
    (∀ answers' : Answers, (∀ q, (answers s.requests q).Relists (answers' s.requests q)) →
      let outcome' := process.evaluate answers' store s
      outcome'.1 = outcome.1 ∧ outcome'.2.session = outcome.2.session ∧
        outcome'.2.kept = outcome.2.kept) ∧
    (∀ (x x' : Exchange) (h : Host), x.StandsAt h answers store s →
      (∀ q, (x.node.reply q).Relists (x'.node.reply q)) →
      let ran := x.run none process s.kept h
      let ran' := x'.run none process s.kept h
      ran.1 = outcome.1 ∧ ran.2.writes = h.writes ++ outcome.2.flushed outcome.1 ∧
        ran'.1 = ran.1 ∧ ran'.2.writes = ran.2.writes) := by
  intro process outcome
  have unfolded : outcome = _ := r.evaluate_fromEvent answers store s deployed
  refine ⟨?_, ?_, ?_, ?_⟩
  · intro record kept
    rw [unfolded, kept]
  · intro unkept
    rw [unkept] at unfolded
    refine ⟨?_, ?_, ?_⟩
    · intro cause failed
      rw [unfolded, failed]
    · intro nothing
      rw [unfolded, nothing]
    · intro filter logs asks listed apart asked
      simp only [asks, listed] at unfolded
      refine ⟨?_, ?_⟩
      · intro l v latest selected raw
        simp only [loggedValue?_of_isLatest apart latest, selected] at unfolded
        exact unfolded
      · intro unreadable
        simp only [loggedValue?_eq_none apart unreadable] at unfolded
        exact unfolded
  · intro answers' relists outcome'
    obtain ⟨result, session, kept, -⟩ := r.evaluate_fromEvent_relists answers store s deployed relists
    exact ⟨result, session, kept⟩
  · intro x x' h stands relists ran ran'
    obtain ⟨result, -, writes⟩ := stands.run_eq process
    obtain ⟨result', writes'⟩ := r.run_fromEvent_relists answers store s deployed stands relists
    exact ⟨result, writes, result', writes'⟩

end Resolver

/-! ## An attribute whose value is the price of the last sale -/

namespace Sales

def token : Deployment :=
  ⟨1, "0x00000000000000000000000000000000000000aa"⟩

def sold : EventSource :=
  { EventSource.ofType ⟨"Sold", [⟨"price", "uint256", true⟩]⟩ with
    contract := some ⟨none, [token]⟩
    select := some "price" }

def price : Attribute :=
  { Attribute.ofName "price" with event := some sold }

def resolver : Resolver :=
  ⟨Definition.empty "" ⟨none, .current, .oldestSupported⟩ "en", Settings.standard, 30⟩

/-- The log of a sale. -/
def sale (price block index : Nat) : LogEntry :=
  ⟨token.address, [Bytes.Word.ofNat 0, Bytes.Word.ofNat price], [], block, index⟩

/-- A node that lists some logs, whatever it is asked. -/
def listing (logs : List LogEntry) : Exchange where
  node := { reply := fun _ => .logs logs, cancels := fun _ => false, pauses := false }
  coalesces := false

/-- The last sale is listed second. -/
def unsorted : List LogEntry :=
  [sale 7 2 0, sale 5 2 1, sale 9 1 5]

/-- The last sale is listed last. -/
def sorted : List LogEntry :=
  [sale 9 1 5, sale 7 2 0, sale 5 2 1]

theorem isLatest_unsorted : LogEntry.IsLatest unsorted (sale 5 2 1) :=
  ⟨by decide, by decide⟩

theorem evaluate_fromEvent_latest_sales :
    let h := Host.ofStore (.empty "" false)
    let ran := (listing unsorted).run none (resolver.fromEvent 3 price sold) [] h
    let ran' := (listing sorted).run none (resolver.fromEvent 3 price sold) [] h
    ran.1 = .ok (Resolved.ofRaw price 3 "5") ∧ ran.2.writes = [⟨token, "price", 3, "5", 30⟩] ∧
      ran'.1 = ran.1 ∧ ran'.2.writes = ran.2.writes := by
  intro h ran ran'
  let answers : Answers := fun _ _ => .logs unsorted
  let s : Pass := ⟨.empty, [], []⟩
  have apart : LogEntry.Apart unsorted := by decide
  have reordered : unsorted.Perm sorted := by decide
  have deployed : sold.deployment? = some token := rfl
  have unkept : h.store.find? token "price" 3 = none := rfl
  obtain ⟨filter, asks⟩ : ∃ filter, sold.filterFor h.store [3] = .ok (some filter) := ⟨_, rfl⟩
  have selected : sold.selectValue? (sale 5 2 1) = some (.uint 5) := by rfl
  obtain ⟨-, fresh, -, runs⟩ :=
    @Resolver.evaluate_fromEvent_latest price sold token 3 resolver answers h.store s deployed
  obtain ⟨-, -, latest⟩ := fresh unkept
  have evaluated := (latest filter unsorted asks rfl apart).1 (sale 5 2 1) _ isLatest_unsorted selected
  obtain ⟨result, writes, result', writes'⟩ := runs (listing unsorted) (listing sorted) h
    ⟨rfl, rfl, rfl, rfl⟩ fun _ => .reordered apart reordered
  rw [evaluated] at result writes
  exact ⟨result, writes, result', writes'⟩

end Sales

end TokenSchema
