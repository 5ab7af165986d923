import TokenSchema.Proofs.Process.Course
import TokenSchema.Proofs.Resolution.CallDecision
import TokenSchema.Resolver

/-!
# Readings — what a resolution asks, and what becomes of the answers

A resolution asks the node for the attribute at hand and for all that it refers to. Each question with its
answer is a `Reading`. Whatever goes on around the resolution, its requests are those of its readings, and
it keeps exactly one record for each answer that can be read, in the order of the answers
(`Resolver.exists_account_resolveAt`). So a call writes all of these records if it ends well, and none of
them if it fails or is given up (`Resolver.resolution_writes`).
-/

namespace TokenSchema

/-! ## Readings -/

/-- What an attribute asks of the node. -/
inductive Question where
  | call (c : Call)
  | logs (e : EventSource) (filter : LogFilter)

/-- A question of an attribute with its answer, and where the store keeps what is read from it. -/
structure Reading where
  asker : Attribute
  contract : Deployment
  keptId : Nat
  question : Question
  answer : Answer

namespace Reading

/-- What the node is asked. -/
def request (ρ : Reading) : Request :=
  match ρ.question with
  | .call c => .call ρ.contract c.data
  | .logs _ filter => .logs filter

/-- The request with its answer. -/
def exchange (ρ : Reading) : Request × Answer :=
  (ρ.request, ρ.answer)

/-- The value that is decoded from the answer, if it can be. -/
def value? (ρ : Reading) : Option Abi.Value :=
  match ρ.question with
  | .call c => Resolver.answeredValue? c ρ.answer
  | .logs e _ => Resolver.loggedValue? e ρ.answer

/-- The raw text of the decoded value. -/
def raw? (ρ : Reading) : Option String :=
  ρ.value?.map (Resolved.rawText ρ.asker)

/-- The record of the decoded value. -/
def record? (clock : Int) (ρ : Reading) : Option CachedRecord :=
  ρ.raw?.map fun raw => ⟨ρ.contract, ρ.asker.name, ρ.keptId, raw, clock⟩

end Reading

/-- The attributes that the resolution of one may come to: that one, and the declared ones. -/
def Resolver.MayMeet (r : Resolver) (root a : Attribute) : Prop :=
  a = root ∨ ∃ name, r.definition.attributes.get? name = some a

/-- The questions that the resolution of an attribute for a token may ask: the call of an attribute that it
comes to, under the id that stands for the token, or the logs of that attribute's event. -/
inductive Resolver.Poses (r : Resolver) (tokenId : Nat) (root : Attribute) : Reading → Prop where
  | call {a : Attribute} {f : CallTemplate} {contract : Deployment} {answer : Answer}
      (wallet : String) (references : Std.TreeMap String String) :
      r.MayMeet root a → a.call = some f → calledAt? a f = some contract →
      Poses r tokenId root ⟨a, contract, r.definition.cacheTokenId a.name tokenId,
        .call (f.build ⟨tokenId, wallet, references⟩), answer⟩
  | logs {a : Attribute} {e : EventSource} {contract : Deployment} {filter : LogFilter}
      {answer : Answer} (store : Store) :
      r.MayMeet root a → a.call = none → a.event = some e → e.deployment? = some contract →
      e.filterFor store [tokenId] = .ok (some filter) →
      Poses r tokenId root ⟨a, contract, tokenId, .logs e filter, answer⟩

theorem Resolver.Poses.within {r : Resolver} {tokenId : Nat} {root a : Attribute} {name : String}
    {ρ : Reading} (declared : r.definition.attributes.get? name = some a)
    (posed : r.Poses tokenId a ρ) : r.Poses tokenId root ρ := by
  have met : ∀ b, r.MayMeet a b → r.MayMeet root b := by
    rintro b (rfl | known)
    · exact .inr ⟨name, declared⟩
    · exact .inr known
  cases posed with
  | call wallet references met' calls deployed =>
      exact .call wallet references (met _ met') calls deployed
  | logs store met' noCall event deployed filtered =>
      exact .logs store (met _ met') noCall event deployed filtered

/-- Readings account for acts: they are all that was asked, what can be read is all that is held back, and
it is recorded in the session, but for one result that is still to be recorded. -/
structure Resolver.Account (r : Resolver) (tokenId : Nat) (root : Attribute) (acts : List Act)
    (unrecorded : Option Resolved) (readings : List Reading) : Prop where
  posed : ∀ ρ ∈ readings, r.Poses tokenId root ρ
  asked : exchanges acts = readings.map Reading.exchange
  held : heldBack acts = readings.filterMap (Reading.record? r.clock)
  recorded : ∀ ρ ∈ readings, ∀ raw, ρ.raw? = some raw →
    .recorded (Resolved.ofRaw ρ.asker tokenId raw) ∈ acts ∨
      unrecorded = some (Resolved.ofRaw ρ.asker tokenId raw)

namespace Resolver

variable {r : Resolver} {tokenId : Nat} {root : Attribute}

namespace Account

theorem nil (unrecorded : Option Resolved) : r.Account tokenId root [] unrecorded [] where
  posed := by simp
  asked := rfl
  held := rfl
  recorded := by simp

theorem append {first rest : List Act} {unrecorded : Option Resolved} {before after : List Reading}
    (begun : r.Account tokenId root first none before)
    (done : r.Account tokenId root rest unrecorded after) :
    r.Account tokenId root (first ++ rest) unrecorded (before ++ after) where
  posed := by
    intro ρ member
    rcases List.mem_append.1 member with early | late
    · exact begun.posed ρ early
    · exact done.posed ρ late
  asked := by simp [begun.asked, done.asked]
  held := by simp [begun.held, done.held]
  recorded := by
    intro ρ member raw read
    rcases List.mem_append.1 member with early | late
    · rcases begun.recorded ρ early raw read with recorded | pending
      · exact .inl (List.mem_append_left _ recorded)
      · cases pending
    · rcases done.recorded ρ late raw read with recorded | pending
      · exact .inl (List.mem_append_right _ recorded)
      · exact .inr pending

/-- A result that was still to be recorded is recorded. -/
theorem record {acts : List Act} {found : Resolved} {readings : List Reading}
    (account : r.Account tokenId root acts (some found) readings) :
    r.Account tokenId root (acts ++ [.recorded found]) none readings where
  posed := account.posed
  asked := by simp [account.asked]
  held := by simp [account.held]
  recorded := by
    intro ρ member raw read
    left
    rcases account.recorded ρ member raw read with recorded | pending
    · exact List.mem_append_left _ recorded
    · rw [← Option.some.inj pending]
      simp

/-- The account of a result that nothing was read for stands with any other result. -/
theorem imp {acts : List Act} {readings : List Reading} (unrecorded : Option Resolved)
    (account : r.Account tokenId root acts none readings) : r.Account tokenId root acts unrecorded readings :=
  { account with
    recorded := fun ρ member raw read => .inl <| by simpa using account.recorded ρ member raw read }

/-- What is asked for a declared attribute may be asked for any. -/
theorem within {a : Attribute} {name : String} {acts : List Act} {unrecorded : Option Resolved}
    {readings : List Reading} (declared : r.definition.attributes.get? name = some a)
    (account : r.Account tokenId a acts unrecorded readings) :
    r.Account tokenId root acts unrecorded readings :=
  { account with posed := fun ρ member => (account.posed ρ member).within declared }

/-- One question whose answer cannot be read. -/
theorem unread {ρ : Reading} (posed : r.Poses tokenId root ρ) (nothing : ρ.value? = none)
    (unrecorded : Option Resolved) :
    r.Account tokenId root [.answered ρ.request ρ.answer] unrecorded [ρ] where
  posed := by simpa using posed
  asked := rfl
  held := by simp [Reading.record?, Reading.raw?, nothing]
  recorded := by simp [Reading.raw?, nothing]

/-- One question whose answer is read. -/
theorem read {ρ : Reading} {v : Abi.Value} (posed : r.Poses tokenId root ρ) (value : ρ.value? = some v) :
    r.Account tokenId root
      [.answered ρ.request ρ.answer,
        .kept ⟨ρ.contract, ρ.asker.name, ρ.keptId, Resolved.rawText ρ.asker v, r.clock⟩]
      (some (Resolved.ofRaw ρ.asker tokenId (Resolved.rawText ρ.asker v))) [ρ] where
  posed := by simpa using posed
  asked := rfl
  held := by simp [Reading.record?, Reading.raw?, value]
  recorded := by simp [Reading.raw?, value]

end Account

/-! ## Sources -/

open Process (Course)

variable {nested : Attribute → Process Resolved} {past acts : List Act}

theorem account_fetched {ρ : Reading} {v : Abi.Value} {result : Except ResolveError Resolved}
    (posed : r.Poses tokenId root ρ) (value : ρ.value? = some v)
    (h : Course .any past (r.fetched ρ.asker tokenId ρ.contract ρ.keptId v) acts result) :
    r.Account tokenId root (.answered ρ.request ρ.answer :: acts) result.toOption [ρ] := by
  obtain ⟨rfl, rfl⟩ := h.of_keep_done
  exact .read posed value

theorem exists_account_fromEvent {a : Attribute} {e : EventSource}
    {result : Except ResolveError Resolved} (met : r.MayMeet root a) (noCall : a.call = none) (event : a.event = some e)
    (h : Course .any past (r.fromEvent tokenId a e) acts result) :
    ∃ readings, r.Account tokenId root acts result.toOption readings := by
  unfold fromEvent at h
  split at h
  · obtain ⟨rfl, -⟩ := h.of_done
    exact ⟨[], .nil _⟩
  rename_i contract deployed
  obtain ⟨-, store, -, h⟩ := h.of_accesses_bind.of_store_bind
  split at h
  · obtain ⟨rfl, -⟩ := h.of_done
    exact ⟨[], .nil _⟩
  obtain ⟨-, later, -, h⟩ := h.of_accesses_bind.of_store_bind
  cases filtered : e.filterFor later [tokenId] with
  | error cause =>
      rw [filtered] at h
      obtain ⟨rfl, -⟩ := h.of_fail
      exact ⟨[], .nil _⟩
  | ok filter? =>
      rw [filtered] at h
      cases filter? with
      | none =>
          obtain ⟨rfl, -⟩ := h.of_done
          exact ⟨[], .nil _⟩
      | some filter =>
          obtain ⟨answer, rest, -, reads, rfl⟩ := h.of_answerTo_bind
          have posed : r.Poses tokenId root ⟨a, contract, tokenId, .logs e filter, answer⟩ :=
            .logs later met noCall event deployed filtered
          split at reads
          · rename_i v value
            exact ⟨_, account_fetched posed value reads⟩
          · rename_i nothing
            obtain ⟨rfl, rfl⟩ := reads.of_done
            exact ⟨_, .unread posed nothing _⟩

section Nested

variable (each : ∀ name a, r.definition.attributes.get? name = some a → ∀ past acts result,
  Course .any past (nested a) acts result → ∃ readings, r.Account tokenId root acts none readings)

include each

theorem exists_account_gather {names : List String}
    {found : Std.TreeMap String String} {result : Except ResolveError (Std.TreeMap String String)}
    (h : Course .any past (r.gather nested names found) acts result) :
    ∃ readings, r.Account tokenId root acts none readings := by
  induction names generalizing found past acts with
  | nil =>
      obtain ⟨rfl, -⟩ := h.of_done
      exact ⟨[], .nil _⟩
  | cons name rest ih =>
      unfold gather at h
      split at h
      · exact ih h
      obtain ⟨session, -, -, h⟩ := h.of_session_bind
      split at h
      · exact ih h
      split at h
      · exact ih h
      rename_i b declared
      rcases h.of_bind with ⟨resolved, first, last, begun, goes, rfl⟩ | ⟨e, failed, -⟩
      · obtain ⟨before, begun⟩ := each name b declared _ _ _ begun
        -- The other names follow, whether this one has a text or not.
        obtain ⟨after, goes⟩ : ∃ readings, r.Account tokenId root last none readings := by
          split at goes
          · exact ih goes
          · exact ih goes
        exact ⟨before ++ after, begun.append goes⟩
      · exact each name b declared _ _ _ failed

theorem exists_account_makeCall {a : Attribute} {f : CallTemplate} {contract : Deployment}
    {kept : Option CachedRecord} {result : Except ResolveError Resolved}
    (met : r.MayMeet root a) (calls : a.call = some f)
    (deployed : calledAt? a f = some contract)
    (h : Course .any past (r.makeCall tokenId nested a f contract
      (r.definition.cacheTokenId a.name tokenId) kept) acts result) :
    ∃ readings, r.Account tokenId root acts result.toOption readings := by
  unfold makeCall at h
  rcases h.of_bind with ⟨references, first, last, gathered, goes, rfl⟩ | ⟨e, failed, rfl⟩
  · -- The readings of the arguments come before that of the call itself.
    obtain ⟨before, begun⟩ := exists_account_gather each gathered
    obtain ⟨-, store, -, calling⟩ := goes.of_store_bind
    obtain ⟨answer, rest, -, reads, rfl⟩ := calling.of_answerTo_bind
    have posed : r.Poses tokenId root ⟨a, contract, r.definition.cacheTokenId a.name tokenId,
        .call (f.build ⟨tokenId, store.wallet, references⟩), answer⟩ :=
      .call store.wallet references met calls deployed
    split at reads
    · rename_i v value
      exact ⟨_, begun.append (account_fetched posed value reads)⟩
    · rename_i nothing
      obtain ⟨rfl, rfl⟩ := reads.of_done
      exact ⟨_, begun.append (.unread posed nothing _)⟩
  · obtain ⟨readings, account⟩ := exists_account_gather each failed
    exact ⟨readings, account⟩

theorem exists_account_fromCall {options : ResolveOptions} {a : Attribute} {f : CallTemplate}
    {result : Except ResolveError Resolved} (met : r.MayMeet root a) (calls : a.call = some f)
    (h : Course .any past (r.fromCall options tokenId nested a f) acts result) :
    ∃ readings, r.Account tokenId root acts result.toOption readings := by
  unfold fromCall at h
  split at h
  · obtain ⟨rfl, -⟩ := h.of_fail
    exact ⟨[], .nil _⟩
  split at h
  · obtain ⟨rfl, -⟩ := h.of_done
    exact ⟨[], .nil _⟩
  rename_i contract deployed
  obtain ⟨-, store, -, h⟩ := h.of_accesses_bind.of_store_bind
  replace h := h.of_accesses_bind
  split at h
  · obtain ⟨rfl, -⟩ := h.of_done
    exact ⟨[], .nil _⟩
  · exact exists_account_makeCall each met calls deployed h

theorem exists_account_fromSource {options : ResolveOptions} {a : Attribute}
    {result : Except ResolveError Resolved} (met : r.MayMeet root a)
    (h : Course .any past (r.fromSource options tokenId nested a) acts result) :
    ∃ readings, r.Account tokenId root acts result.toOption readings := by
  unfold fromSource at h
  split at h
  · rename_i calls
    exact exists_account_fromCall each met calls h
  · rename_i e noCall event
    exact exists_account_fromEvent met noCall event h
  · obtain ⟨rfl, -⟩ := h.of_done
    exact ⟨[], .nil _⟩

end Nested

/-- All that a resolution asks and keeps comes from readings. -/
theorem exists_account_resolveAt {options : ResolveOptions} {a : Attribute} {left : Nat}
    {result : Except ResolveError Resolved}
    (h : Course .any past (r.resolveAt options tokenId left a) acts result) :
    ∃ readings, r.Account tokenId a acts none readings := by
  induction left generalizing a past acts result with
  | zero =>
      obtain ⟨rfl, -⟩ := h.of_fail
      exact ⟨[], .nil _⟩
  | succ left ih =>
      -- What a declared attribute is asked for is asked for the one at hand.
      have each : ∀ name b, r.definition.attributes.get? name = some b → ∀ past acts result,
          Course .any past (r.resolveAt options tokenId left b) acts result →
          ∃ readings, r.Account tokenId a acts none readings := by
        intro name b declared past acts result nested
        obtain ⟨readings, account⟩ := ih nested
        exact ⟨readings, account.within declared⟩
      unfold resolveAt at h
      split at h
      · obtain ⟨rfl, -⟩ := h.of_done
        exact ⟨[], .nil _⟩
      obtain ⟨session, -, -, h⟩ := h.of_session_bind
      split at h
      · obtain ⟨rfl, -⟩ := h.of_done
        exact ⟨[], .nil _⟩
      split at h
      · rename_i b standsFor
        obtain ⟨name, -, declared⟩ := Option.bind_eq_some_iff.1 standsFor
        rcases h.of_bind with ⟨found, first, last, begun, goes, rfl⟩ | ⟨e, failed, -⟩
        · obtain ⟨readings, account⟩ := each name b declared _ _ _ begun
          obtain ⟨rfl, -⟩ := goes.of_recorded
          exact ⟨readings, (account.imp _).record⟩
        · exact each name b declared _ _ _ failed
      split at h
      · obtain ⟨rfl, -⟩ := h.of_done
        exact ⟨[], .nil _⟩
      rcases h.of_bind with ⟨found, first, last, begun, goes, rfl⟩ | ⟨e, failed, -⟩
      · obtain ⟨readings, account⟩ := exists_account_fromSource each (.inl rfl) begun
        obtain ⟨rfl, -⟩ := goes.of_recorded
        exact ⟨readings, account.record⟩
      · exact exists_account_fromSource each (.inl rfl) failed

/-! ## Whole calls -/

end Resolver

/-! ## A fetched balance -/

namespace Balance

open Resolver (referredNames)

/-- A store in which nothing is kept. -/
def bare : Store :=
  Store.empty "0x00000000000000000000000000000000000000bb" false

/-- What the balance gives in a new session where nothing is kept for it, from an answer of five: it needs
no other attribute. -/
theorem evaluate_resolveAt_unkept {r : Resolver} {answers : Answers} {store : Store} {t : Nat}
    (left : Nat) (keyed : r.definition.cacheTokenId "balance" t = 0)
    (nothing : store.find? token "balance" 0 = none)
    (answered : answers [] (.call token (template.build ⟨t, store.wallet, ∅⟩).data) =
      .bytes (Bytes.Word.ofNat 5).bytes) :
    let options : ResolveOptions := ⟨some .useCache, .summary⟩
    let request := Request.call token (template.build ⟨t, store.wallet, ∅⟩).data
    let five := Answer.bytes (Bytes.Word.ofNat 5).bytes
    let found := Resolved.ofRaw balance t "5"
    (r.resolveAt options t (left + 1) balance).evaluate answers store ⟨.empty, [], []⟩ =
      (.ok found, ⟨Session.empty.record found, [(request, five)],
        [⟨token, "balance", 0, "5", r.clock⟩]⟩) := by
  intro options request five found
  have reached : r.ComesToSource t Session.empty balance :=
    ⟨⟨rfl, by simp [Session.result?, Session.empty], by simp [Session.local?, Session.empty]⟩,
      rfl, rfl⟩
  have read : (template.build ⟨t, store.wallet, ∅⟩).Reads (answers [] request) (.uint 5) := by
    rw [answered]
    exact ⟨_, rfl, by decide, rfl⟩
  let nested := r.resolveAt options t left
  have gathered : (r.gather nested (referredNames template) ∅).evaluate
      answers store ⟨.empty, [], []⟩ = (.ok ∅, ⟨.empty, [], []⟩) := rfl
  have made := (r.evaluate_makeCall_cases answers store t token balance 0 none gathered).1 (.uint 5)
    read
  have called := r.evaluate_fromCall answers store options t (a := balance)
    (f := template) nested ⟨.empty, [], []⟩ rfl rfl
  have keyed' : r.definition.cacheTokenId balance.name t = 0 := keyed
  have nothing' : store.find? token balance.name 0 = none := nothing
  rw [keyed', nothing'] at called
  have source := r.evaluate_resolveAt_of_fromCall answers store options t reached rfl
    (called.trans made)
  rw [source]
  simp only [Pass.ask, Pass.keep, Pass.record, request, answered]
  rfl

theorem evaluate_resolveAt_five {r : Resolver} (left : Nat)
    (keyed : r.definition.cacheTokenId "balance" 7 = 0) :
    let options : ResolveOptions := ⟨some .useCache, .summary⟩
    let request := Request.call token (template.build ⟨7, bare.wallet, ∅⟩).data
    let five := Answer.bytes (Bytes.Word.ofNat 5).bytes
    let found := Resolved.ofRaw balance 7 "5"
    (r.resolveAt options 7 (left + 1) balance).evaluate (fun _ _ => five) bare ⟨.empty, [], []⟩ =
      (.ok found, ⟨Session.empty.record found, [(request, five)],
        [⟨token, "balance", 0, "5", r.clock⟩]⟩) :=
  evaluate_resolveAt_unkept left keyed (by simp [Store.find?, bare, Store.empty]) rfl

end Balance

end TokenSchema
