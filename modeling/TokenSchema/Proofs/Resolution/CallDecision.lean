import TokenSchema.Proofs.Process.Evaluation
import TokenSchema.Resolution

/-!
# Call decisions — when a kept record stands in for a call

The value of an attribute that asks a contract comes from a kept record or from a call, and the call may
fail. The policy, the view, the record and the store decide together (`UpdatePolicy.Due`), and the answer
decides the rest:

* `Resolver.evaluate_fromCall` and `Resolver.evaluate_makeCall` say what one attribute does;
* `Resolver.evaluate_resolveAt_call` says what its resolution gives, asks and keeps, wherever it is
  reached.
-/

namespace TokenSchema

/-! ## Policies -/

/-- A call is due: nothing is kept, or a page in full asks for more than what is kept. -/
def UpdatePolicy.Due (p : UpdatePolicy) (view : ViewKind) (store : Store) (contract : Deployment)
    (a : Attribute) : Option CachedRecord → Prop
  | none => True
  | some record =>
      view = .detail ∧
        (p = .alwaysUpdate ∨
          p = .updateIfRequired ∧
            (a.isVolatile = true ∨
              store.vouches = false ∧
                record.time < store.lastChange contract.chainId contract.address))

theorem Store.isCurrent_eq_false_iff (store : Store) (contract : Deployment) (a : Attribute)
    (record : CachedRecord) :
    store.isCurrent contract a record = false ↔
      a.isVolatile = true ∨
        store.vouches = false ∧
          record.time < store.lastChange contract.chainId contract.address := by
  cases volatile : a.isVolatile with
  | true => simp [isCurrent, volatile]
  | false => simp [isCurrent, CachedRecord.needsUpdate, volatile]

/-- A policy finds nothing to accept exactly when a call is due. -/
theorem UpdatePolicy.filter_accepts_eq_none_iff (p : UpdatePolicy) (view : ViewKind) (store : Store)
    (contract : Deployment) (a : Attribute) (kept : Option CachedRecord) :
    kept.filter (p.accepts view store contract a) = none ↔ p.Due view store contract a kept := by
  cases kept with
  | none => simp [Due]
  | some record =>
      cases view with
      | summary => simp [Due, accepts]
      | detail =>
          cases p with
          | useCache => simp [Due, accepts]
          | updateIfRequired =>
              simpa [Due, accepts] using store.isCurrent_eq_false_iff contract a record
          | alwaysUpdate => simp [Due, accepts]

/-! ## Answers -/

/-- The answer is not empty and is read as the value. -/
def Call.Reads (call : Call) (answer : Answer) (v : Abi.Value) : Prop :=
  ∃ data, answer = .bytes data ∧ data ≠ [] ∧ call.decodeOutput data = .ok v

theorem Resolver.answeredValue?_eq_some_iff (call : Call) (answer : Answer) (v : Abi.Value) :
    answeredValue? call answer = some v ↔ call.Reads answer v := by
  cases answer with
  | bytes data =>
      cases data with
      | nil => simp [answeredValue?, Call.Reads]
      | cons b rest =>
          cases read : call.decodeOutput (b :: rest) with
          | error e => simp [answeredValue?, Call.Reads, read, Except.toOption]
          | ok w => simp [answeredValue?, Call.Reads, read, Except.toOption]
  | logs entries => simp [answeredValue?, Call.Reads]
  | fault cause => simp [answeredValue?, Call.Reads]

namespace Resolver

variable (r : Resolver) (answers : Answers) (store : Store) (options : ResolveOptions)
variable (tokenId : Nat)

/-! ## Coming to the source -/

/-- Neither the document nor the session says what the value of an attribute is. -/
structure Unsettled (session : Session) (a : Attribute) : Prop where
  noLiteral : a.literal = none
  noResult : session.result? a.name tokenId = none
  noLocal : session.local? (a.reference.getD a.name) = none

/-- Nothing but its own source gives the value of an attribute. -/
structure ComesToSource (session : Session) (a : Attribute) : Prop
    extends Unsettled tokenId session a where
  noTarget : r.target? a = none
  noEntry : a.userInput = false

theorem evaluate_resolveAt_source {a : Attribute} {s : Pass} (left : Nat)
    (reached : r.ComesToSource tokenId s.session a) :
    (r.resolveAt options tokenId (left + 1) a).evaluate answers store s =
      (r.fromSource options tokenId (r.resolveAt options tokenId left) a >>=
        Process.recorded).evaluate answers store s := by
  have unknown : known? s.session a tokenId = none := by
    simp [known?, reached.noResult, reached.noLocal]
  simp only [resolveAt, reached.noLiteral, Process.evaluate_session_bind, unknown,
    reached.noTarget, reached.noEntry]
  rfl

theorem evaluate_resolveAt_target {a b : Attribute} {s : Pass} (left : Nat)
    (unsettled : Unsettled tokenId s.session a) (standsFor : r.target? a = some b) :
    (r.resolveAt options tokenId (left + 1) a).evaluate answers store s =
      (r.resolveAt options tokenId left b >>= fun found =>
        Process.recorded { found with id := a.name, label := a.label }).evaluate answers store s := by
  have unknown : known? s.session a tokenId = none := by
    simp [known?, unsettled.noResult, unsettled.noLocal]
  simp only [resolveAt, unsettled.noLiteral, Process.evaluate_session_bind, unknown, standsFor]

/-- A result of the session is found at once. -/
theorem evaluate_resolveAt_recorded {a : Attribute} {x : Resolved} {s : Pass} (left : Nat)
    (noLiteral : a.literal = none) (recorded : s.session.result? a.name tokenId = some x) :
    (r.resolveAt options tokenId (left + 1) a).evaluate answers store s = (.ok x, s) := by
  have found : known? s.session a tokenId = some x := by
    simp only [known?, recorded, Option.some_or]
  simp only [resolveAt, noLiteral, Process.evaluate_session_bind, found, Process.evaluate_done]

/-- What its call gives is the result of a reached attribute, and is recorded. -/
theorem evaluate_resolveAt_of_fromCall {a : Attribute} {f : CallTemplate} {s s' : Pass}
    {found : Resolved} {left : Nat} (reached : r.ComesToSource tokenId s.session a)
    (calls : a.call = some f)
    (called : (r.fromCall options tokenId (r.resolveAt options tokenId left) a f).evaluate
      answers store s = (.ok found, s')) :
    (r.resolveAt options tokenId (left + 1) a).evaluate answers store s =
      (.ok found, s'.record found) := by
  have source : r.fromSource options tokenId (r.resolveAt options tokenId left) a =
      r.fromCall options tokenId (r.resolveAt options tokenId left) a f := by
    simp only [fromSource, calls]
  rw [r.evaluate_resolveAt_source answers store options tokenId left reached, source,
    Process.evaluate_bind_of_ok answers store _ called]
  rfl

/-! ## Arguments by name -/

section Arguments

variable {nested : Attribute → Process Resolved} {name : String} {rest : List String}
variable {found : Std.TreeMap String String} {s s' : Pass} {a : Attribute}
variable (missing : found.contains name = false) (noLocal : s.session.local? name = none)
variable (declared : r.definition.attributes.get? name = some a)

include missing noLocal declared

/-- An argument that names a declared attribute is resolved. -/
theorem evaluate_gather_ok {x : Resolved} {text : String}
    (resolved : (nested a).evaluate answers store s = (.ok x, s'))
    (taken : x.argumentText = some text) :
    (r.gather nested (name :: rest) found).evaluate answers store s =
      (r.gather nested rest (found.insert name text)).evaluate answers store s' := by
  simp only [gather, missing, Bool.false_eq_true, if_false, Process.evaluate_session_bind, noLocal,
    declared]
  simp only [Process.evaluate_bind, resolved, taken]

end Arguments

/-! ## One call -/

section Call

variable {policy : UpdatePolicy} {contract : Deployment} {a : Attribute} {f : CallTemplate}
variable (nested : Attribute → Process Resolved) (s : Pass)

/-- A kept record that the policy accepts is looked up; otherwise the call is made. -/
theorem evaluate_fromCall (policed : options.policy = some policy)
    (deployed : calledAt? a f = some contract) :
    (r.fromCall options tokenId nested a f).evaluate answers store s =
      match (store.find? contract a.name (r.definition.cacheTokenId a.name tokenId)).filter
          (policy.accepts options.view store contract a) with
      | some record => (.ok (Resolved.ofRaw a tokenId record.result), s)
      | none =>
          (r.makeCall tokenId nested a f contract (r.definition.cacheTokenId a.name tokenId)
            (store.find? contract a.name
              (r.definition.cacheTokenId a.name tokenId))).evaluate answers store s := by
  simp only [fromCall, policed, deployed, Process.evaluate_accesses_bind,
    Process.evaluate_store_bind]
  cases (store.find? contract a.name (r.definition.cacheTokenId a.name tokenId)).filter
      (policy.accepts options.view store contract a) with
  | none => rfl
  | some record => rfl

theorem evaluate_fromCall_of_not_due (policed : options.policy = some policy)
    (deployed : calledAt? a f = some contract)
    (spared : ¬ policy.Due options.view store contract a
      (store.find? contract a.name (r.definition.cacheTokenId a.name tokenId))) :
    ∃ record,
      store.find? contract a.name (r.definition.cacheTokenId a.name tokenId) = some record ∧
      (r.fromCall options tokenId nested a f).evaluate answers store s =
        (.ok (Resolved.ofRaw a tokenId record.result), s) := by
  rw [r.evaluate_fromCall answers store options tokenId nested s policed deployed]
  cases taken : (store.find? contract a.name (r.definition.cacheTokenId a.name tokenId)).filter
      (policy.accepts options.view store contract a) with
  | none =>
      have due := (policy.filter_accepts_eq_none_iff options.view store contract a _).1 taken
      exact absurd due spared
  | some record => exact ⟨record, (Option.filter_eq_some_iff.1 taken).1, rfl⟩

theorem evaluate_fromCall_of_due (policed : options.policy = some policy)
    (deployed : calledAt? a f = some contract)
    (due : policy.Due options.view store contract a
      (store.find? contract a.name (r.definition.cacheTokenId a.name tokenId))) :
    (r.fromCall options tokenId nested a f).evaluate answers store s =
      (r.makeCall tokenId nested a f contract (r.definition.cacheTokenId a.name tokenId)
        (store.find? contract a.name
          (r.definition.cacheTokenId a.name tokenId))).evaluate answers store s := by
  have refused := (policy.filter_accepts_eq_none_iff options.view store contract a _).2 due
  rw [r.evaluate_fromCall answers store options tokenId nested s policed deployed, refused]

variable {nested s} {s' : Pass}

theorem evaluate_makeCall {texts : Std.TreeMap String String} (contract : Deployment)
    (a : Attribute) (keptId : Nat) (kept : Option CachedRecord)
    (gathered : (r.gather nested (referredNames f) ∅).evaluate answers store s = (.ok texts, s')) :
    let call := f.build ⟨tokenId, store.wallet, texts⟩
    let request := Request.call contract call.data
    (r.makeCall tokenId nested a f contract keptId kept).evaluate answers store s =
      match answeredValue? call (answers s'.requests request) with
      | some v => (r.fetched a tokenId contract keptId v).evaluate answers store
          (s'.ask answers request)
      | none => (.ok (orKept a tokenId kept), s'.ask answers request) := by
  intro call request
  simp only [makeCall, Process.evaluate_bind_of_ok answers store _ gathered,
    Process.evaluate_store_bind, Process.evaluate_answerTo_bind]
  cases answeredValue? call (answers s'.requests request) with
  | none => rfl
  | some v => rfl

/-- The answer to a call gives a value that is kept, or leaves what was kept before. -/
theorem evaluate_makeCall_cases {texts : Std.TreeMap String String} (contract : Deployment)
    (a : Attribute) (keptId : Nat) (kept : Option CachedRecord)
    (gathered : (r.gather nested (referredNames f) ∅).evaluate answers store s = (.ok texts, s')) :
    let call := f.build ⟨tokenId, store.wallet, texts⟩
    let request := Request.call contract call.data
    let made := (r.makeCall tokenId nested a f contract keptId kept).evaluate answers store s
    (∀ v, call.Reads (answers s'.requests request) v →
      let raw := Resolved.rawText a v
      made = (.ok (Resolved.ofRaw a tokenId raw),
        (s'.ask answers request).keep ⟨contract, a.name, keptId, raw, r.clock⟩)) ∧
    ((∀ v, ¬ call.Reads (answers s'.requests request) v) →
      made = (.ok (orKept a tokenId kept), s'.ask answers request)) := by
  intro call request made
  have step := r.evaluate_makeCall answers store tokenId contract a keptId kept gathered
  refine ⟨?_, ?_⟩
  · intro v read raw
    have value := (answeredValue?_eq_some_iff call (answers s'.requests request) v).2 read
    simp only [call, request] at value
    simp only [value] at step
    exact step
  · intro unread
    have value : answeredValue? call (answers s'.requests request) = none := by
      rw [Option.eq_none_iff_forall_ne_some]
      intro v value
      exact unread v ((answeredValue?_eq_some_iff call _ v).1 value)
    simp only [call, request] at value
    simp only [value] at step
    exact step

end Call

/-! ## A reached attribute -/

/-- A call is made exactly when it is due. An answer that is read gives the value and is kept under the
id that stands for the token; any other answer keeps nothing and leaves the value of the kept record.
A host that resolves the attribute makes just these requests, and writes just what is kept. -/
theorem evaluate_resolveAt_call {policy : UpdatePolicy} {contract : Deployment} {a : Attribute}
    {f : CallTemplate} {s : Pass} (left : Nat) (policed : options.policy = some policy)
    (reached : r.ComesToSource tokenId s.session a) (calls : a.call = some f)
    (deployed : calledAt? a f = some contract) :
    let keptId := r.definition.cacheTokenId a.name tokenId
    let kept := store.find? contract a.name keptId
    let outcome := (r.resolveAt options tokenId (left + 1) a).evaluate answers store s
    let gathered := (r.gather (r.resolveAt options tokenId left) (referredNames f) ∅).evaluate
      answers store s
    (¬ policy.Due options.view store contract a kept →
      ∃ record, kept = some record ∧
        let found := Resolved.ofRaw a tokenId record.result
        outcome = (.ok found, ⟨s.session.record found, s.requests, s.kept⟩)) ∧
    (policy.Due options.view store contract a kept →
      ∀ texts s', gathered = (.ok texts, s') →
        let call := f.build ⟨tokenId, store.wallet, texts⟩
        let request := Request.call contract call.data
        let answer := answers s'.requests request
        let asked := s'.requests ++ [(request, answer)]
        (∀ v, call.Reads answer v →
          let raw := Resolved.rawText a v
          let found := Resolved.ofRaw a tokenId raw
          outcome = (.ok found, ⟨s'.session.record found, asked,
            s'.kept ++ [⟨contract, a.name, keptId, raw, r.clock⟩]⟩)) ∧
        ((∀ v, ¬ call.Reads answer v) →
          let found := orKept a tokenId kept
          outcome = (.ok found, ⟨s'.session.record found, asked, s'.kept⟩))) ∧
    (∀ (x : Exchange) (h : Host), x.StandsAt h answers store s →
      let ran := x.run none (r.resolveAt options tokenId (left + 1) a) s.kept h
      ran.1 = outcome.1 ∧ ran.2.requests = outcome.2.requests ∧
        ran.2.writes = h.writes ++ outcome.2.flushed outcome.1) := by
  intro keptId kept outcome gathered
  refine ⟨?_, ?_, ?_⟩
  · intro spared
    obtain ⟨record, known, called⟩ := r.evaluate_fromCall_of_not_due answers store options tokenId
      (r.resolveAt options tokenId left) s policed deployed spared
    exact ⟨record, known,
      r.evaluate_resolveAt_of_fromCall answers store options tokenId reached calls called⟩
  · intro due texts s' complete call request answer asked
    -- The references come first, so the request is made from the pass that they leave.
    have made := r.evaluate_makeCall_cases answers store tokenId contract a keptId kept complete
    rw [← r.evaluate_fromCall_of_due answers store options tokenId _ s policed deployed due] at made
    obtain ⟨whenRead, whenUnread⟩ := made
    refine ⟨?_, ?_⟩
    · intro v read raw found
      have called := whenRead v read
      exact r.evaluate_resolveAt_of_fromCall answers store options tokenId reached calls called
    · intro unread found
      have called := whenUnread unread
      exact r.evaluate_resolveAt_of_fromCall answers store options tokenId reached calls called
  · intro x h stands
    exact stands.run_eq _

end Resolver

/-! ## A balance out of date -/

namespace Balance

/-- The contract of the example. -/
def token : Deployment := ⟨1, "0x00000000000000000000000000000000000000aa"⟩

/-- The balance of the wallet, the same for every token. -/
def template : CallTemplate :=
  { CallTemplate.ofMethod "balanceOf" with
    contract := some ⟨none, [token]⟩
    arguments := [⟨"address", .ownerAddress⟩] }

/-- The attribute of that call. -/
def balance : Attribute :=
  { Attribute.ofName "balance" with call := some template }

/-- A definition of this one attribute, resolved thirty seconds after the start of 1970. -/
def resolver : Resolver :=
  { definition :=
      { Definition.empty "" ⟨none, .current, .oldestSupported⟩ "en" with
        attributes := (∅ : Std.TreeMap String Attribute).insert "balance" balance }
    settings := .standard
    clock := 30 }

/-- A record fetched before the last change of its token. -/
def outdated : CachedRecord := ⟨token, "balance", 0, "4", 10⟩

/-- A store with that record. -/
def store : Store :=
  ((Store.empty "0x00000000000000000000000000000000000000bb" false).put outdated).setLastChange
    token.chainId token.address 20

theorem cacheTokenId_eq (tokenId : Nat) :
    resolver.definition.cacheTokenId balance.name tokenId = 0 := by
  simp [resolver, Definition.cacheTokenId, balance, template, Attribute.usesTokenId,
    Attribute.tokenIdCount, CallTemplate.tokenIdCount, Attribute.ofName]

theorem find?_eq : store.find? token balance.name 0 = some outdated :=
  Store.find?_put_self _ outdated

theorem lastChange_eq : store.lastChange token.chainId token.address = 20 := by
  simp [store, Store.setLastChange, Store.lastChange]

/-- The record is fetched anew, and the answer takes its place under the id zero. -/
theorem evaluate_resolveAt_call_outdated :
    let call := template.build ⟨7, store.wallet, ∅⟩
    let request := Request.call token call.data
    let five := Answer.bytes (Bytes.Word.ofNat 5).bytes
    let found := Resolved.ofRaw balance 7 "5"
    (resolver.resolveAt ⟨some .updateIfRequired, .detail⟩ 7 1 balance).evaluate
        (fun _ _ => five) store ⟨.empty, [], []⟩ =
      (.ok found, ⟨Session.empty.record found, [(request, five)],
        [⟨token, "balance", 0, "5", 30⟩]⟩) := by
  intro call request five found
  have reached : resolver.ComesToSource 7 Session.empty balance :=
    ⟨⟨rfl, by simp [Session.result?, Session.empty], by simp [Session.local?, Session.empty]⟩,
      rfl, rfl⟩
  have due : UpdatePolicy.updateIfRequired.Due .detail store token balance
      (store.find? token balance.name (resolver.definition.cacheTokenId balance.name 7)) := by
    have older : outdated.time < store.lastChange token.chainId token.address := by
      rw [lastChange_eq]
      decide
    rw [cacheTokenId_eq, find?_eq]
    exact ⟨rfl, .inr ⟨rfl, .inr ⟨rfl, older⟩⟩⟩
  have read : call.Reads five (.uint 5) := ⟨_, rfl, by decide, rfl⟩
  obtain ⟨-, whenDue, -⟩ := resolver.evaluate_resolveAt_call (fun _ _ => five) store
    ⟨some .updateIfRequired, .detail⟩ 7 (s := ⟨.empty, [], []⟩) 0 rfl reached rfl rfl
  obtain ⟨whenRead, -⟩ := whenDue due ∅ ⟨.empty, [], []⟩ rfl
  have outcome := whenRead (.uint 5) read
  rw [cacheTokenId_eq] at outcome
  exact outcome

end Balance

end TokenSchema
