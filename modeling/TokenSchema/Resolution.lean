import TokenSchema.Call
import TokenSchema.Policy
import TokenSchema.Process
import TokenSchema.Settings

/-!
# Resolution

How the value of an attribute for a token is found: what is known already comes first, then the
attribute it stands for, then its own source (the token id, a call, an event). Attributes refer to each
other, so a resolution carries the number of references that may still be followed.
-/

namespace TokenSchema

/-- What resolutions of one definition need to know. -/
structure Resolver where
  definition : Definition
  settings : Settings
  /-- The time at which results are fetched. -/
  clock : Int

namespace Resolver

/-! ## What is known already -/

/-- The result of the session, or the value that the host supplies. -/
def known? (session : Session) (a : Attribute) (tokenId : Nat) : Option Resolved :=
  (session.result? a.name tokenId).or
    ((session.local? (a.reference.getD a.name)).map (Resolved.ofRaw a tokenId))

/-- The declared attribute that an attribute stands for. -/
def target? (r : Resolver) (a : Attribute) : Option Attribute :=
  a.reference.bind (r.definition.attributes.get? ·)

/-! ## Arguments -/

/-- The name that a source refers to. -/
def referredName? : ArgumentSource → Option String
  | .reference name | .localValue name => some name
  | _ => none

/-- The names that a template refers to: those of its arguments, then those of its transaction by
rising key. -/
def referredNames (f : CallTemplate) : List String :=
  let sources := f.arguments.map (·.source) ++ (f.transaction.map (·.values)).getD []
  sources.filterMap referredName?

/-- The texts for names, in their order. The session's values come first; other declared attributes
are resolved; a name without a text is left out. -/
def gather (r : Resolver) (nested : Attribute → Process Resolved) (names : List String)
    (found : Std.TreeMap String String) : Process (Std.TreeMap String String) :=
  match names with
  | [] => .done found
  | name :: rest =>
      if found.contains name then r.gather nested rest found
      else do
        let session ← Process.session
        match session.local? name with
        | some value => r.gather nested rest (found.insert name value)
        | none =>
            match r.definition.attributes.get? name with
            | none => r.gather nested rest found
            | some a => do
                let resolved ← nested a
                match resolved.argumentText with
                | some text => r.gather nested rest (found.insert name text)
                | none => r.gather nested rest found

/-! ## Calls -/

/-- The value that an answer gives: none for a fault, an empty answer or one that cannot be read. -/
def answeredValue? (call : Call) : Answer → Option Abi.Value
  | .bytes [] => none
  | .bytes data => (call.decodeOutput data).toOption
  | _ => none

/-- Hold a raw result back for the store and give the attribute that text. -/
def fetched (r : Resolver) (a : Attribute) (tokenId : Nat) (contract : Deployment) (keptId : Nat)
    (v : Abi.Value) : Process Resolved :=
  let raw := Resolved.rawText a v
  .keep ⟨contract, a.name, keptId, raw, r.clock⟩ (.done (Resolved.ofRaw a tokenId raw))

/-- The value of a kept record, or no value. -/
def orKept (a : Attribute) (tokenId : Nat) (kept : Option CachedRecord) : Resolved :=
  match kept with
  | some record => Resolved.ofRaw a tokenId record.result
  | none => Resolved.blank a tokenId

/-- The contract that is called: the call's own, else the attribute's. -/
def calledAt? (a : Attribute) (f : CallTemplate) : Option Deployment :=
  (f.contract.or a.originContract).bind Contract.first?

/-- Make the call of a template and read its answer; a call that gives no value leaves what is kept. -/
def makeCall (r : Resolver) (tokenId : Nat) (nested : Attribute → Process Resolved) (a : Attribute)
    (f : CallTemplate) (contract : Deployment) (keptId : Nat) (kept : Option CachedRecord) :
    Process Resolved := do
  let references ← r.gather nested (referredNames f) ∅
  let store ← Process.store
  let call := f.build ⟨tokenId, store.wallet, references⟩
  let answer ← Process.answerTo (.call contract call.data)
  match answeredValue? call answer with
  | some v => r.fetched a tokenId contract keptId v
  | none => .done (orKept a tokenId kept)

/-- The value of an attribute that asks a contract: a kept record where the policy accepts it,
otherwise the answer to a call. -/
def fromCall (r : Resolver) (options : ResolveOptions) (tokenId : Nat)
    (nested : Attribute → Process Resolved) (a : Attribute) (f : CallTemplate) : Process Resolved :=
  match options.policy with
  | none => .fail (.missingPolicy a.name)
  | some policy =>
      match calledAt? a f with
      | none => .done (Resolved.blank a tokenId)
      | some contract => do
          Process.accesses 1
          let store ← Process.store
          let keptId := r.definition.cacheTokenId a.name tokenId
          let kept := store.find? contract a.name keptId
          Process.accesses
            (if kept.isSome && policy.looksUpChange options.view store a then 1 else 0)
          match kept.filter (policy.accepts options.view store contract a) with
          | some record => .done (Resolved.ofRaw a tokenId record.result)
          | none => r.makeCall tokenId nested a f contract keptId kept

/-! ## Events -/

/-- The value that an answer of logs gives: the selected field of the latest log. -/
def loggedValue? (e : EventSource) : Answer → Option Abi.Value
  | .logs entries => (LogEntry.latest? entries).bind e.selectValue?
  | _ => none

/-- The value of an attribute that looks at logs: a kept record, otherwise what the latest log says. -/
def fromEvent (r : Resolver) (tokenId : Nat) (a : Attribute) (e : EventSource) : Process Resolved :=
  match e.deployment? with
  | none => .done (Resolved.blank a tokenId)
  | some contract => do
      Process.accesses 1
      let store ← Process.store
      match store.find? contract a.name tokenId with
      | some record => .done (Resolved.ofRaw a tokenId record.result)
      | none => do
          Process.accesses (e.filterLookups store [tokenId])
          let store ← Process.store
          match ← Process.ofExcept (e.filterFor store [tokenId]) with
          | none => .done (Resolved.blank a tokenId)
          | some filter => do
              let answer ← Process.answerTo (.logs filter)
              match loggedValue? e answer with
              | some v => r.fetched a tokenId contract tokenId v
              | none => .done (Resolved.blank a tokenId)

/-! ## All sources -/

/-- The value from the attribute's own source. -/
def fromSource (r : Resolver) (options : ResolveOptions) (tokenId : Nat)
    (nested : Attribute → Process Resolved) (a : Attribute) : Process Resolved :=
  match a.call, a.event with
  | some f, _ => r.fromCall options tokenId nested a f
  | none, some e => r.fromEvent tokenId a e
  | none, none => .done (Resolved.ofValue a tokenId (a.extract tokenId))

/-- The resolution of an attribute that may follow one reference less than it counts; none are left
when the count is zero. A literal and the user's entries are not recorded. -/
def resolveAt (r : Resolver) (options : ResolveOptions) (tokenId : Nat) :
    Nat → Attribute → Process Resolved
  | 0, a => .fail (.referenceDepth a.name)
  | left + 1, a =>
      match a.literal with
      | some literal => .done (Resolved.ofLiteral a tokenId literal)
      | none => do
          let session ← Process.session
          match known? session a tokenId with
          | some found => .done found
          | none =>
              match r.target? a with
              | some target => do
                  let found ← r.resolveAt options tokenId left target
                  Process.recorded { found with id := a.name, label := a.label }
              | none =>
                  if a.userInput then .done (Resolved.blank a tokenId)
                  else do
                    let found ← r.fromSource options tokenId (r.resolveAt options tokenId left) a
                    Process.recorded found

/-- The resolution of an attribute for a token. -/
def resolution (r : Resolver) (options : ResolveOptions) (tokenId : Nat) (a : Attribute) :
    Process Resolved :=
  r.resolveAt options tokenId (r.settings.maxDepth + 1) a

end Resolver

end TokenSchema
