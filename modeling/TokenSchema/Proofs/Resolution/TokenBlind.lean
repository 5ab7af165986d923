import TokenSchema.Proofs.Call.Arguments
import TokenSchema.Proofs.Process.Lockstep
import TokenSchema.Proofs.Resolution.CallDecision

/-!
# Token blindness — what a call for all tokens may depend on

A call that does not take the token is kept once for all tokens. That it does not take the token says
nothing about the attributes its arguments name, and they see the token at hand. Two resolutions of one
attribute for two tokens are compared here:

* the data of the two calls is the same exactly when all arguments come to the same values;
* that is so if every attribute that feeds the call from its own source is blind to the difference
  (`Resolver.SourceBlind`): the resolutions go in lockstep (`Resolver.lockstep_resolveAt`), and what
  comes of them differs in the token alone (`Resolved.Twins`).

`Resolver.agnosticCall_data` says both.
-/

namespace TokenSchema

/-! ## Twins -/

/-- Two results that differ in nothing but the token they are for. -/
def Resolved.Twins (t₁ t₂ : Nat) (r₁ r₂ : Resolved) : Prop :=
  r₁.tokenId = t₁ ∧ r₂ = { r₁ with tokenId := t₂ }

namespace Resolved.Twins

variable {t₁ t₂ : Nat} {r₁ r₂ : Resolved}

theorem id_eq (h : Twins t₁ t₂ r₁ r₂) : r₂.id = r₁.id := by
  rw [h.2]

theorem tokenId_eq (h : Twins t₁ t₂ r₁ r₂) : r₂.tokenId = t₂ := by
  rw [h.2]

theorem argumentText_eq (h : Twins t₁ t₂ r₁ r₂) : r₂.argumentText = r₁.argumentText := by
  rw [h.2]
  rfl

theorem rename (h : Twins t₁ t₂ r₁ r₂) (id label : String) :
    Twins t₁ t₂ { r₁ with id := id, label := label } { r₂ with id := id, label := label } := by
  obtain ⟨token, rfl⟩ := h
  exact ⟨token, rfl⟩

theorem blank (a : Attribute) : Twins t₁ t₂ (.blank a t₁) (.blank a t₂) :=
  ⟨rfl, rfl⟩

theorem ofLiteral (a : Attribute) (text : String) :
    Twins t₁ t₂ (.ofLiteral a t₁ text) (.ofLiteral a t₂ text) := by
  simp only [Twins, Resolved.ofLiteral, Resolved.blank, and_self]

theorem ofValue (a : Attribute) (z : Int) :
    Twins t₁ t₂ (.ofValue a t₁ z) (.ofValue a t₂ z) := by
  simp only [Twins, Resolved.ofValue, Resolved.blank, and_self]

theorem ofRaw (a : Attribute) (raw : String) : Twins t₁ t₂ (.ofRaw a t₁ raw) (.ofRaw a t₂ raw) := by
  unfold Resolved.ofRaw
  cases Text.integer? raw with
  | none => simp only [Twins, Resolved.blank, and_self]
  | some z =>
      cases isTextual a.kind with
      | true => simp only [Twins, Resolved.blank, if_true, and_self]
      | false => exact ofValue a z

theorem orKept (a : Attribute) (kept : Option CachedRecord) :
    Twins t₁ t₂ (Resolver.orKept a t₁ kept) (Resolver.orKept a t₂ kept) := by
  cases kept with
  | none => exact blank a
  | some record => exact ofRaw a record.result

end Resolved.Twins

/-! ## Passes for two tokens -/

theorem Session.result?_record (session : Session) (r : Resolved) (name : String) (tokenId : Nat) :
    (session.record r).result? name tokenId =
      if r.id = name ∧ r.tokenId = tokenId then some r else session.result? name tokenId := by
  simp [record, result?, Std.HashMap.getElem?_insert]

/-- Two passes for two tokens, from sessions with the same values of the host: they have found results
that differ in the token alone, and have asked the same. What was found at the start is still there. -/
structure Pass.Alike (t₁ t₂ : Nat) (start : Session) (s₁ s₂ : Pass) : Prop where
  locals₁ : s₁.session.locals = start.locals
  locals₂ : s₂.session.locals = start.locals
  results : ∀ name, Option.Rel (Resolved.Twins t₁ t₂) (s₁.session.result? name t₁)
    (s₂.session.result? name t₂)
  grown : ∀ name, s₁.session.result? name t₁ = none → start.result? name t₁ = none
  requests : s₁.requests = s₂.requests

namespace Pass.Alike

variable {t₁ t₂ : Nat} {start : Session} {s₁ s₂ : Pass}

theorem local?_eq (h : Alike t₁ t₂ start s₁ s₂) (name : String) :
    s₁.session.local? name = start.local? name ∧ s₂.session.local? name = start.local? name := by
  simp only [Session.local?, h.locals₁, h.locals₂, and_self]

theorem record (h : Alike t₁ t₂ start s₁ s₂) {r₁ r₂ : Resolved}
    (twins : Resolved.Twins t₁ t₂ r₁ r₂) : Alike t₁ t₂ start (s₁.record r₁) (s₂.record r₂) := by
  refine ⟨h.locals₁, h.locals₂, ?_, ?_, h.requests⟩
  · intro name
    simp only [Pass.record, Session.result?_record, twins.1, twins.id_eq, twins.tokenId_eq,
      and_true]
    by_cases same : r₁.id = name
    · rw [if_pos same, if_pos same]
      exact .some twins
    · rw [if_neg same, if_neg same]
      exact h.results name
  · intro name unknown
    simp only [Pass.record, Session.result?_record] at unknown
    split at unknown
    · cases unknown
    · exact h.grown name unknown

theorem keep (h : Alike t₁ t₂ start s₁ s₂) (k₁ k₂ : CachedRecord) :
    Alike t₁ t₂ start (s₁.keep k₁) (s₂.keep k₂) :=
  ⟨h.locals₁, h.locals₂, h.results, h.grown, h.requests⟩

theorem ask (h : Alike t₁ t₂ start s₁ s₂) (answers : Answers) (q : Request) :
    Alike t₁ t₂ start (s₁.ask answers q) (s₂.ask answers q) := by
  refine ⟨h.locals₁, h.locals₂, h.results, h.grown, ?_⟩
  simp only [Pass.ask, h.requests]

/-- What is known of an attribute is known for both tokens or for neither. -/
theorem known? (h : Alike t₁ t₂ start s₁ s₂) (a : Attribute) :
    Option.Rel (Resolved.Twins t₁ t₂) (Resolver.known? s₁.session a t₁)
      (Resolver.known? s₂.session a t₂) := by
  have found := h.results a.name
  obtain ⟨value₁, value₂⟩ := h.local?_eq (a.reference.getD a.name)
  simp only [Resolver.known?, value₁, value₂]
  generalize s₁.session.result? a.name t₁ = x at found
  generalize s₂.session.result? a.name t₂ = y at found
  cases found with
  | some twins => exact .some twins
  | none =>
      cases start.local? (a.reference.getD a.name) with
      | none => exact .none
      | some raw => exact .some (.ofRaw a raw)

end Pass.Alike

/-- From passes that are alike, two resolutions find results that differ in the token alone. -/
abbrev Process.FindTwins (answers : Answers) (store : Store) (t₁ t₂ : Nat) (start : Session)
    (p q : Process Resolved) : Prop :=
  Process.Lockstep answers store (Pass.Alike t₁ t₂ start) (Resolved.Twins t₁ t₂) p q

/-! ## What feeds a call -/

namespace Resolver

variable (r : Resolver) (answers : Answers) (store : Store) (options : ResolveOptions)
variable (t₁ t₂ : Nat) (start : Session)

/-- A declared attribute that a template names and the host gives no value for. -/
def Draws (f : CallTemplate) (a : Attribute) : Prop :=
  ∃ name ∈ referredNames f, start.local? name = none ∧ r.definition.attributes.get? name = some a

/-- The attributes that may be resolved for a call: those its template draws on, the ones they stand
for, and those that the calls among them draw on. -/
inductive Feeds (f : CallTemplate) : Attribute → Prop where
  | drawn {a : Attribute} : Draws r start f a → Feeds f a
  | target {a b : Attribute} : Feeds f a → Unsettled t₁ start a → r.target? a = some b → Feeds f b
  | nested {a b : Attribute} {g : CallTemplate} : Feeds f a → r.ComesToSource t₁ start a →
      a.call = some g → Draws r start g b → Feeds f b

/-- The own source of an attribute gives the same for both tokens: a call does not take the token, an
event has the same logs and the same kept text, and the masked bits are the same. -/
def SourceBlind (a : Attribute) : Prop :=
  match a.call, a.event with
  | some f, _ =>
      f.tokenIdCount = 0 ∧ r.definition.cacheTokenId a.name t₁ = r.definition.cacheTokenId a.name t₂
  | none, some e =>
      e.filterFor store [t₁] = e.filterFor store [t₂] ∧
        ∀ contract, e.deployment? = some contract →
          (store.find? contract a.name t₁).map (·.result) =
            (store.find? contract a.name t₂).map (·.result)
  | none, none => a.extract t₁ = a.extract t₂

variable {answers store start t₁ t₂}

/-! ## Arguments in lockstep -/

theorem lockstep_gather {nested₁ nested₂ : Attribute → Process Resolved} {names : List String}
    (each : ∀ name ∈ names, ∀ a, start.local? name = none →
      r.definition.attributes.get? name = some a →
      Process.FindTwins answers store t₁ t₂ start (nested₁ a) (nested₂ a))
    (found : Std.TreeMap String String) :
    Process.Lockstep answers store (Pass.Alike t₁ t₂ start) Eq (r.gather nested₁ names found)
      (r.gather nested₂ names found) := by
  induction names generalizing found with
  | nil => exact .done rfl
  | cons name rest ih =>
      have others := ih fun name member => each name (List.mem_cons_of_mem _ member)
      unfold gather
      split
      · exact others found
      refine .session_bind ?_
      intro s₁ s₂ alike
      -- The host gives a value for both tokens or for neither.
      obtain ⟨value₁, value₂⟩ := alike.local?_eq name
      rw [value₁, value₂]
      cases value : start.local? name with
      | some text => exact others _ s₁ s₂ alike
      | none =>
          cases declared : r.definition.attributes.get? name with
          | none => exact others found s₁ s₂ alike
          | some a =>
              refine (each name List.mem_cons_self a value declared s₁ s₂ alike).bind ?_
              intro r₁ r₂ twins
              rw [twins.argumentText_eq]
              cases r₁.argumentText with
              | none => exact others found
              | some text => exact others _

/-! ## Calls in lockstep -/

/-- The call that a template comes to for a token, before it is made. -/
def preparedCall (tokenId : Nat) (nested : Attribute → Process Resolved) (f : CallTemplate) :
    Process Call := do
  let references ← r.gather nested (referredNames f) ∅
  let store ← Process.store
  return f.build ⟨tokenId, store.wallet, references⟩

theorem makeCall_eq (tokenId : Nat) (nested : Attribute → Process Resolved) (a : Attribute)
    (f : CallTemplate) (contract : Deployment) (keptId : Nat) (kept : Option CachedRecord) :
    r.makeCall tokenId nested a f contract keptId kept =
      r.preparedCall tokenId nested f >>= fun call =>
        Process.answerTo (.call contract call.data) >>= fun answer =>
          match answeredValue? call answer with
          | some v => r.fetched a tokenId contract keptId v
          | none => .done (orKept a tokenId kept) := by
  rw [preparedCall, Process.bind_assoc]
  rfl

theorem exists_build_of_preparedCall {tokenId : Nat} {nested : Attribute → Process Resolved}
    {f : CallTemplate} {s s' : Pass} {call : Call}
    (prepared : (r.preparedCall tokenId nested f).evaluate answers store s = (.ok call, s')) :
    ∃ references, call = f.build ⟨tokenId, store.wallet, references⟩ := by
  unfold preparedCall at prepared
  cases gathered : (r.gather nested (referredNames f) ∅).evaluate answers store s with
  | mk result left =>
      cases result with
      | error e =>
          rw [Process.evaluate_bind_of_error answers store _ gathered] at prepared
          cases prepared
      | ok references =>
          rw [Process.evaluate_bind_of_ok answers store _ gathered] at prepared
          cases prepared
          exact ⟨references, rfl⟩

/-- The answers to two calls are asked for and read in the same way. -/
def SameQuestion (c₁ c₂ : Call) : Prop :=
  c₁.data = c₂.data ∧ c₁.outputType = c₂.outputType

theorem SameQuestion.answeredValue?_eq {c₁ c₂ : Call} (h : SameQuestion c₁ c₂) (answer : Answer) :
    answeredValue? c₁ answer = answeredValue? c₂ answer := by
  unfold answeredValue? Call.decodeOutput
  rw [h.2]

section Call

variable {nested₁ nested₂ : Attribute → Process Resolved} {f : CallTemplate}
variable (agnostic : f.tokenIdCount = 0)
variable (each : ∀ a, Draws r start f a →
  Process.FindTwins answers store t₁ t₂ start (nested₁ a) (nested₂ a))

include agnostic each

theorem lockstep_preparedCall :
    Process.Lockstep answers store (Pass.Alike t₁ t₂ start) SameQuestion
      (r.preparedCall t₁ nested₁ f) (r.preparedCall t₂ nested₂ f) := by
  refine Process.Lockstep.bind (r.lockstep_gather ?_ ∅) ?_
  · intro name member a value declared
    exact each a ⟨name, member, value, declared⟩
  · rintro texts _ rfl
    refine .store_bind (.done ⟨?_, rfl⟩)
    simp only [CallTemplate.build, f.arguments_eq agnostic t₁ t₂]

theorem lockstep_makeCall (a : Attribute) (contract : Deployment) (keptId : Nat)
    (kept : Option CachedRecord) :
    Process.FindTwins answers store t₁ t₂ start
      (r.makeCall t₁ nested₁ a f contract keptId kept)
      (r.makeCall t₂ nested₂ a f contract keptId kept) := by
  rw [makeCall_eq, makeCall_eq]
  refine (r.lockstep_preparedCall agnostic each).bind ?_
  intro c₁ c₂ same
  rw [same.1]
  refine .answerTo_bind (fun _ _ alike => alike.requests)
    (fun _ _ alike => alike.ask answers _) ?_
  intro answer
  rw [same.answeredValue?_eq]
  cases answeredValue? c₂ answer with
  | none => exact .done (.orKept a kept)
  | some v => exact .keep_done (.ofRaw a _) fun _ _ alike => alike.keep _ _

theorem lockstep_fromCall (a : Attribute)
    (keyed : r.definition.cacheTokenId a.name t₁ = r.definition.cacheTokenId a.name t₂) :
    Process.FindTwins answers store t₁ t₂ start
      (r.fromCall options t₁ nested₁ a f) (r.fromCall options t₂ nested₂ a f) := by
  unfold fromCall
  cases options.policy with
  | none => exact .fail _
  | some policy =>
      cases calledAt? a f with
      | none => exact .done (.blank a)
      | some contract =>
          refine .accesses_bind 1 1 (.store_bind ?_)
          rw [keyed]
          refine .accesses_bind _ _ ?_
          cases (store.find? contract a.name (r.definition.cacheTokenId a.name t₂)).filter
              (policy.accepts options.view store contract a) with
          | none => exact r.lockstep_makeCall agnostic each a contract _ _
          | some record => exact .done (.ofRaw a record.result)

end Call

/-! ## Resolutions in lockstep -/

theorem lockstep_fromEvent (a : Attribute) (e : EventSource)
    (filters : e.filterFor store [t₁] = e.filterFor store [t₂])
    (texts : ∀ contract, e.deployment? = some contract →
      (store.find? contract a.name t₁).map (·.result) =
        (store.find? contract a.name t₂).map (·.result)) :
    Process.FindTwins answers store t₁ t₂ start
      (r.fromEvent t₁ a e) (r.fromEvent t₂ a e) := by
  unfold fromEvent
  cases deployed : e.deployment? with
  | none => exact .done (.blank a)
  | some contract =>
      refine .accesses_bind 1 1 (.store_bind ?_)
      have text := texts contract deployed
      cases kept₁ : store.find? contract a.name t₁ with
      | some record₁ =>
          cases kept₂ : store.find? contract a.name t₂ with
          | none => simp [kept₁, kept₂] at text
          | some record₂ =>
              have same : record₁.result = record₂.result := by
                simpa [kept₁, kept₂] using text
              refine .done ?_
              rw [same]
              exact .ofRaw a record₂.result
      | none =>
          cases kept₂ : store.find? contract a.name t₂ with
          | some record₂ => simp [kept₁, kept₂] at text
          | none =>
              refine .accesses_bind _ _ (.store_bind ?_)
              rw [filters]
              cases e.filterFor store [t₂] with
              | error cause => exact .fail cause
              | ok filter? =>
                  cases filter? with
                  | none => exact .done (.blank a)
                  | some filter =>
                      refine .answerTo_bind (fun _ _ alike => alike.requests)
                        (fun _ _ alike => alike.ask answers _) ?_
                      intro answer
                      cases loggedValue? e answer with
                      | none => exact .done (.blank a)
                      | some v => exact .keep_done (.ofRaw a _) fun _ _ alike => alike.keep _ _

theorem lockstep_fromSource {nested₁ nested₂ : Attribute → Process Resolved} {a : Attribute}
    (blind : r.SourceBlind store t₁ t₂ a)
    (each : ∀ f b, a.call = some f → Draws r start f b →
      Process.FindTwins answers store t₁ t₂ start (nested₁ b) (nested₂ b)) :
    Process.FindTwins answers store t₁ t₂ start
      (r.fromSource options t₁ nested₁ a) (r.fromSource options t₂ nested₂ a) := by
  unfold SourceBlind at blind
  unfold fromSource
  cases call : a.call with
  | some f =>
      simp only [call] at blind
      obtain ⟨agnostic, keyed⟩ := blind
      exact r.lockstep_fromCall options agnostic (fun b => each f b call) a keyed
  | none =>
      cases event : a.event with
      | some e =>
          simp only [call, event] at blind
          exact r.lockstep_fromEvent a e blind.1 blind.2
      | none =>
          simp only [call, event] at blind
          refine .done ?_
          rw [blind]
          exact .ofValue a _

/-- What feeds a call is resolved in lockstep, if all of it is blind. The induction is on the number of
references that may still be followed. -/
theorem lockstep_resolveAt {f : CallTemplate}
    (blind : ∀ a, r.Feeds t₁ start f a → r.ComesToSource t₁ start a → r.SourceBlind store t₁ t₂ a)
    (left : Nat) {a : Attribute} (feeds : r.Feeds t₁ start f a) :
    Process.FindTwins answers store t₁ t₂ start
      (r.resolveAt options t₁ left a) (r.resolveAt options t₂ left a) := by
  induction left generalizing a with
  | zero => exact .fail _
  | succ left ih =>
      unfold resolveAt
      cases literal : a.literal with
      | some text => exact .done (.ofLiteral a text)
      | none =>
          refine .session_bind ?_
          intro s₁ s₂ alike
          have known := alike.known? a
          generalize found₁ : known? s₁.session a t₁ = x at known
          generalize known? s₂.session a t₂ = y at known
          cases known with
          | some twins => exact .ok twins alike
          | none =>
              -- What was found at the start stays, so what is unknown now was unknown then.
              have unsettled : Unsettled t₁ start a := by
                simp only [known?, Option.or_eq_none_iff, Option.map_eq_none_iff] at found₁
                obtain ⟨noResult, noLocal⟩ := found₁
                rw [(alike.local?_eq _).1] at noLocal
                exact ⟨literal, alike.grown _ noResult, noLocal⟩
              cases aliased : r.target? a with
              | some b =>
                  have fed := Feeds.target feeds unsettled aliased
                  refine (ih fed s₁ s₂ alike).bind ?_
                  intro r₁ r₂ twins
                  exact .recorded (twins.rename _ _) fun _ _ alike =>
                    alike.record (twins.rename _ _)
              | none =>
                  cases entered : a.userInput with
                  | true => exact .ok (.blank a) alike
                  | false =>
                      have reached : r.ComesToSource t₁ start a := ⟨unsettled, aliased, entered⟩
                      have same := blind a feeds reached
                      have nested := r.lockstep_fromSource options same fun g b call drawn =>
                        ih (.nested feeds reached call drawn)
                      refine (nested s₁ s₂ alike).bind ?_
                      intro r₁ r₂ twins
                      exact .recorded twins fun _ _ alike => alike.record twins

/-! ## Calls for all tokens -/

theorem tokenIdCount_of_keyed {a : Attribute} {f : CallTemplate}
    (declared : r.definition.attributes.get? a.name = some a) (calls : a.call = some f)
    (keyed : ∀ t, r.definition.cacheTokenId a.name t = 0) : f.tokenIdCount = 0 := by
  have one := keyed 1
  simp only [Definition.cacheTokenId, declared] at one
  by_contra uses
  have takes : a.usesTokenId = true := by
    simp only [Attribute.usesTokenId, Attribute.tokenIdCount, calls, Option.map_some,
      Option.getD_some, decide_eq_true_eq]
    exact Nat.pos_of_ne_zero uses
  simp [takes] at one

/-- Two tokens, one call for all tokens. Its data is the same for both exactly when its parameters are;
and they are, and the tokens are given the same value, if all that feeds the call is blind. -/
theorem agnosticCall_data {a : Attribute} {f : CallTemplate}
    (declared : r.definition.attributes.get? a.name = some a) (calls : a.call = some f)
    (keyed : ∀ t, r.definition.cacheTokenId a.name t = 0) (left : Nat) {s₁ s₂ : Pass}
    (alike : Pass.Alike t₁ t₂ start s₁ s₂) :
    let prepared (t : Nat) := r.preparedCall t (r.resolveAt options t left) f
    let found (t : Nat) := r.fromCall options t (r.resolveAt options t left) a f
    (∀ c₁ c₂ s₁' s₂', (prepared t₁).evaluate answers store s₁ = (.ok c₁, s₁') →
      (prepared t₂).evaluate answers store s₂ = (.ok c₂, s₂') →
      c₁.data.length < 2 ^ 64 → c₂.data.length < 2 ^ 64 →
      (c₁.data = c₂.data ↔ c₁.parameters = c₂.parameters)) ∧
    ((∀ b, r.Feeds t₁ start f b → r.ComesToSource t₁ start b → r.SourceBlind store t₁ t₂ b) →
      Process.Agree (Pass.Alike t₁ t₂ start) (fun c₁ c₂ => c₁.data = c₂.data)
        ((prepared t₁).evaluate answers store s₁) ((prepared t₂).evaluate answers store s₂) ∧
      Process.Agree (Pass.Alike t₁ t₂ start) (Resolved.Twins t₁ t₂)
        ((found t₁).evaluate answers store s₁) ((found t₂).evaluate answers store s₂)) := by
  intro prepared found
  refine ⟨?_, ?_⟩
  · intro c₁ c₂ s₁' s₂' run₁ run₂ small₁ small₂
    obtain ⟨references₁, rfl⟩ := r.exists_build_of_preparedCall run₁
    obtain ⟨references₂, rfl⟩ := r.exists_build_of_preparedCall run₂
    exact f.build_data_eq_iff small₁ small₂
  · intro blind
    have agnostic := r.tokenIdCount_of_keyed declared calls keyed
    have each : ∀ b, Draws r start f b →
        Process.FindTwins answers store t₁ t₂ start
          (r.resolveAt options t₁ left b) (r.resolveAt options t₂ left b) :=
      fun b drawn => r.lockstep_resolveAt options blind left (.drawn drawn)
    have same : r.definition.cacheTokenId a.name t₁ = r.definition.cacheTokenId a.name t₂ :=
      (keyed t₁).trans (keyed t₂).symm
    refine ⟨?_, r.lockstep_fromCall options agnostic each a same s₁ s₂ alike⟩
    exact (r.lockstep_preparedCall agnostic each s₁ s₂ alike).imp fun _ _ question => question.1

end Resolver

/-! ## A price by level -/

namespace Price

/-- The contract of the example. -/
def shop : Deployment := ⟨1, "0x00000000000000000000000000000000000000aa"⟩

/-- The level of a token is its last byte. -/
def level : Attribute :=
  { Attribute.ofName "level" with bitmask := 255 }

/-- The price of a level. -/
def template : CallTemplate :=
  { CallTemplate.ofMethod "priceOf" with
    contract := some ⟨none, [shop]⟩
    arguments := [⟨"uint256", .reference "level"⟩] }

/-- The attribute of that call. -/
def price : Attribute :=
  { Attribute.ofName "price" with call := some template }

/-- A definition of both attributes. -/
def resolver : Resolver :=
  { definition :=
      { Definition.empty "" ⟨none, .current, .oldestSupported⟩ "en" with
        attributes :=
          ((∅ : Std.TreeMap String Attribute).insert "level" level).insert "price" price }
    settings := .standard
    clock := 0 }

/-- A store that holds nothing. -/
def store : Store :=
  .empty "0x00000000000000000000000000000000000000bb" false

/-- The call for a token in a new session, with an empty answer to every question. -/
def prepared (tokenId : Nat) : Except ResolveError Call × Pass :=
  (resolver.preparedCall tokenId (resolver.resolveAt ⟨some .useCache, .detail⟩ tokenId 1)
    template).evaluate (fun _ _ => .bytes []) store ⟨.empty, [], []⟩

theorem get?_level : resolver.definition.attributes.get? "level" = some level := by
  rw [Std.TreeMap.get?_eq_getElem?, resolver, Std.TreeMap.getElem?_insert]
  simp

theorem get?_price : resolver.definition.attributes.get? price.name = some price := by
  simp [resolver, price, Attribute.ofName]

theorem cacheTokenId_eq (tokenId : Nat) :
    resolver.definition.cacheTokenId price.name tokenId = 0 := by
  simp only [Definition.cacheTokenId, get?_price]
  rfl

theorem prepared_eq (tokenId : Nat) :
    prepared tokenId =
      (.ok (template.build ⟨tokenId, store.wallet,
          (∅ : Std.TreeMap String String).insert "level"
            (Text.signedDecimal (level.extract tokenId))⟩),
        ⟨Session.empty.record (.ofValue level tokenId (level.extract tokenId)), [], []⟩) := by
  have unset (name : String) : Session.empty.local? name = none := by
    simp [Session.local?, Session.empty]
  have reached : resolver.ComesToSource tokenId Session.empty level :=
    ⟨⟨rfl, by simp [Session.result?, Session.empty], unset _⟩, rfl, rfl⟩
  have resolved := resolver.evaluate_resolveAt_source (fun _ _ => .bytes []) store
    ⟨some .useCache, .detail⟩ tokenId (s := ⟨.empty, [], []⟩) 0 reached
  have gathered : (resolver.gather (resolver.resolveAt ⟨some .useCache, .detail⟩ tokenId 1)
      ["level"] ∅).evaluate (fun _ _ => .bytes []) store ⟨.empty, [], []⟩ =
      (.ok ((∅ : Std.TreeMap String String).insert "level"
        (Text.signedDecimal (level.extract tokenId))),
        ⟨Session.empty.record (.ofValue level tokenId (level.extract tokenId)), [], []⟩) := by
    have missing : (∅ : Std.TreeMap String String).contains "level" = false := by simp
    simp only [Resolver.gather, missing, get?_level]
    exact Process.evaluate_bind_of_ok _ _ _ (resolved.trans rfl)
  exact Process.evaluate_bind_of_ok _ _ _ gathered

theorem parameters_eq (tokenId n : Nat) {text : String}
    (fitted : Abi.Ty.uint256.fitArgument (some text) = .ok (.uint n)) :
    (template.build ⟨tokenId, store.wallet,
      (∅ : Std.TreeMap String String).insert "level" text⟩).parameters = [.uint n] := by
  have known : Abi.lookup "uint256" = some .uint256 := by decide +kernel
  have drawn : (CallContext.mk tokenId store.wallet
      ((∅ : Std.TreeMap String String).insert "level" text)).argument
        ⟨"uint256", .reference "level"⟩ = .ok (some (.uint256, .uint n)) := by
    rw [CallContext.argument_of_typed _ (by decide) (by decide), known]
    simp [CallContext.sourceText, fitted, Except.map]
  have arguments : (CallContext.mk tokenId store.wallet
      ((∅ : Std.TreeMap String String).insert "level" text)).arguments template.arguments =
        [(.uint256, .uint n)] := by
    simp only [CallContext.arguments, template, List.mapM_cons, List.mapM_nil, drawn]
    rfl
  simp only [CallTemplate.build, arguments]
  rfl

theorem eq_level_of_feeds {t : Nat} {b : Attribute}
    (feeds : resolver.Feeds t .empty template b) : b = level := by
  induction feeds with
  | drawn drawn =>
      obtain ⟨name, named, -, declared⟩ := drawn
      have names : Resolver.referredNames template = ["level"] := rfl
      rw [names, List.mem_singleton] at named
      rw [named, get?_level] at declared
      exact (Option.some.inj declared).symm
  | target _ _ aliased ih =>
      subst ih
      cases aliased
  | nested _ _ call _ ih =>
      subst ih
      cases call

/-- Tokens of one level share the data of the call, and what it comes to. -/
theorem agnosticCall_data_sameLevel :
    Process.Agree (Pass.Alike 5 261 .empty) (fun c₁ c₂ => c₁.data = c₂.data) (prepared 5)
      (prepared 261) ∧
    Process.Agree (Pass.Alike 5 261 .empty) (Resolved.Twins 5 261)
      ((resolver.fromCall ⟨some .useCache, .detail⟩ 5
        (resolver.resolveAt ⟨some .useCache, .detail⟩ 5 1) price template).evaluate
          (fun _ _ => .bytes []) store ⟨.empty, [], []⟩)
      ((resolver.fromCall ⟨some .useCache, .detail⟩ 261
        (resolver.resolveAt ⟨some .useCache, .detail⟩ 261 1) price template).evaluate
          (fun _ _ => .bytes []) store ⟨.empty, [], []⟩) := by
  have unknown (name : String) (t : Nat) : Session.empty.result? name t = none := by
    simp [Session.result?, Session.empty]
  have alike : Pass.Alike 5 261 .empty ⟨.empty, [], []⟩ ⟨.empty, [], []⟩ := by
    refine ⟨rfl, rfl, ?_, fun _ none => none, rfl⟩
    intro name
    rw [unknown, unknown]
    exact .none
  have blind : ∀ b, resolver.Feeds 5 .empty template b → resolver.ComesToSource 5 .empty b →
      resolver.SourceBlind store 5 261 b := by
    intro b feeds _
    rw [eq_level_of_feeds feeds]
    simp [Resolver.SourceBlind, level, Attribute.ofName, Attribute.extract, Attribute.bitshift,
      maskShift, trailingZeros]
  exact (resolver.agnosticCall_data ⟨some .useCache, .detail⟩ get?_price rfl cacheTokenId_eq 1
    alike).2 blind

/-- The call is kept once for all tokens, and asks different things for two of them. -/
theorem prepared_data_ne :
    resolver.definition.attributes.get? price.name = some price ∧ price.call = some template ∧
    (∀ t, resolver.definition.cacheTokenId price.name t = 0) ∧
    ∃ c₁ c₂ s₁ s₂, prepared 5 = (.ok c₁, s₁) ∧ prepared 6 = (.ok c₂, s₂) ∧
      c₁.data ≠ c₂.data := by
  refine ⟨get?_price, rfl, cacheTokenId_eq, _, _, _, _, prepared_eq 5, prepared_eq 6, ?_⟩
  have five : Text.signedDecimal (level.extract 5) = "5" := by
    simp [Attribute.extract, Attribute.bitshift, maskShift, trailingZeros, level]
    rfl
  have six : Text.signedDecimal (level.extract 6) = "6" := by
    simp [Attribute.extract, Attribute.bitshift, maskShift, trailingZeros, level]
    rfl
  rw [five, six]
  have fitted₅ : Abi.Ty.uint256.fitArgument (some "5") = .ok (.uint 5) := by decide +kernel
  have fitted₆ : Abi.Ty.uint256.fitArgument (some "6") = .ok (.uint 6) := by decide +kernel
  have parameters₅ := parameters_eq 5 5 fitted₅
  have parameters₆ := parameters_eq 6 6 fitted₆
  have size (v : Abi.Value) (static : v.payload? = none) :
      4 + (Abi.encodeParams [v]).length < 2 ^ 64 := by
    simp [Abi.encodeParams, Abi.encodeFrom, static, v.word.length_eq]
  intro same
  rw [CallTemplate.build_data_eq_iff, parameters₅, parameters₆] at same
  · cases same
  · rw [CallTemplate.length_build_data, parameters₅]
    exact size (.uint 5) rfl
  · rw [CallTemplate.length_build_data, parameters₆]
    exact size (.uint 6) rfl

end Price

end TokenSchema
