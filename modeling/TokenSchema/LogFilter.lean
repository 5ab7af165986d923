import TokenSchema.Call
import TokenSchema.Error
import TokenSchema.Log
import TokenSchema.Store

/-!
# Log filters

From an event source and some tokens to the question that a node is asked: the contract, the first
block, and a condition on each topic. A log passes when every condition on its topics holds.
-/

namespace TokenSchema

open TokenSchema.Bytes

/-- A condition on one topic. -/
inductive Topic where
  /-- Any topic will do. -/
  | any
  | exactly (topic : String)
  /-- One of the topics listed. -/
  | oneOf (topics : List String)
  deriving DecidableEq, Repr

/-- A question for logs. -/
structure LogFilter where
  chainId : Nat
  address : String
  fromBlock : Nat
  /-- The last block; absent for the latest one. -/
  toBlock : Option Nat
  topics : List Topic
  deriving DecidableEq, Repr

/-- A topic as text. -/
def topicText (w : Word) : String :=
  Text.Hex.encode0x w.bytes

/-! ## Matching -/

/-- Whether a condition admits a topic. -/
def Topic.admits (t : Topic) (topic : String) : Bool :=
  match t with
  | .any => true
  | .exactly x => x == topic
  | .oneOf xs => xs.contains topic

/-- Whether conditions admit topics, position by position. -/
def Topic.admitAll : List Topic → List String → Bool
  | [], _ => true
  | _ :: _, [] => false
  | t :: ts, x :: xs => t.admits x && Topic.admitAll ts xs

/-- Whether the topics of a log pass a filter. -/
def LogFilter.admits (f : LogFilter) (log : LogEntry) : Bool :=
  Topic.admitAll f.topics (log.topics.map topicText)

/-! ## Building -/

namespace EventSource

/-- The number that a kept result stands for, as a topic. -/
def resultTopic? (r : CachedRecord) : Option String :=
  (parseNatural r.result).map fun n => topicText (Word.ofNat n)

/-- The topics of an attribute's kept results for some tokens, each once; tokens without a number are
passed over. -/
def keptTopics (store : Store) (contract : Deployment) (a : Attribute) (tokenIds : List Nat) :
    List String :=
  tokenIds.foldl (fun found id =>
    match (store.find? contract a.name id).bind resultTopic? with
    | some topic => if found.contains topic then found else found ++ [topic]
    | none => found) []

/-- The condition for some topics; none for no topics at all. -/
def conditionOf : List String → Option Topic
  | [] => none
  | [x] => some (.exactly x)
  | xs => some (.oneOf xs)

/-- The condition that a directive's value gives: the tokens, the wallet, or the kept results of an
attribute. Without tokens, results are those kept for token zero. -/
def conditionFor (store : Store) (contract : Deployment) (value : String) (tokenIds : List Nat) :
    Except ResolveError (Option Topic) :=
  if value = "tokenId" then
    .ok (if tokenIds.isEmpty then none
      else some (.oneOf (tokenIds.map fun id => topicText (Word.ofNat id))))
  else if value = "ownerAddress" then
    match parseAddress store.wallet with
    | some account => .ok (some (.exactly (topicText (Word.ofAddress account))))
    | none => .error (.unresolvedFilter "ownerAddress")
  else
    match store.attribute? contract value with
    | none => .error (.unresolvedFilter value)
    | some a => .ok (conditionOf (keptTopics store contract a
        (if tokenIds.isEmpty then [0] else tokenIds)))

/-- The conditions on the topics after the first, if any log can pass them. -/
def directiveTopics (e : EventSource) (store : Store) (contract : Deployment)
    (tokenIds : List Nat) : Except ResolveError (Option (List Topic)) :=
  match e.filterName? with
  | none => .ok (some [])
  | some name =>
      match e.filterPosition?, e.filterValue? with
      | some position, some value => do
          match ← conditionFor store contract value tokenIds with
          | some condition => return some (List.replicate position .any ++ [condition])
          | none => return none
      | _, _ => .error (.unresolvedFilter name)

/-- The question for the logs of an event about some tokens; none without a deployment, or where no
log can pass. -/
def filterFor (e : EventSource) (store : Store) (tokenIds : List Nat) :
    Except ResolveError (Option LogFilter) :=
  match e.deployment? with
  | none => .ok none
  | some contract => do
      match ← e.directiveTopics store contract tokenIds with
      | none => return none
      | some topics =>
          return some
            { chainId := contract.chainId
              address := contract.address
              fromBlock := e.fromBlock.getD 0
              toBlock := none
              topics := .exactly (topicText e.type.topic) :: topics }

/-- How often the store is used for the question for the logs of an event about some tokens: for the
attribute that the directive's value names, and for its result for each token. -/
def filterLookups (e : EventSource) (store : Store) (tokenIds : List Nat) : Nat :=
  match e.deployment?, e.filterPosition?, e.filterValue? with
  | some contract, some _, some value =>
      if value = "tokenId" || value = "ownerAddress" then 0
      else if (store.attribute? contract value).isNone then 1
      else 1 + max 1 tokenIds.length
  | _, _, _ => 0

end EventSource

end TokenSchema
