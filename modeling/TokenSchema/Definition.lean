import TokenSchema.Card
import TokenSchema.Schema.Date

/-!
# Definitions

Everything a document says about a token, in tables by name, and the questions asked of it.
-/

namespace TokenSchema

/-- What a document says about a token. -/
structure Definition where
  namespaceName : String
  version : SchemaVersion
  locale : String
  attributes : Std.TreeMap String Attribute
  contracts : Std.TreeMap String Contract
  namedTypes : Std.TreeMap String NamedType
  /-- The names of the token by quantity. -/
  labels : Std.TreeMap String String
  selections : Std.TreeMap String Selection
  actions : Std.TreeMap String Action
  tokenViews : Std.TreeMap String View
  activityCards : Std.TreeMap String ActivityCard
  viewContent : Std.TreeMap String String
  attestations : Std.TreeMap String Attestation
  holdingToken : Option String
  defaultOrigin : Option Origin
  keyName : Option String

namespace Definition

/-- A definition that says nothing. -/
def empty (namespaceName : String) (version : SchemaVersion) (locale : String) : Definition :=
  { namespaceName := namespaceName
    version := version
    locale := locale
    attributes := ∅
    contracts := ∅
    namedTypes := ∅
    labels := ∅
    selections := ∅
    actions := ∅
    tokenViews := ∅
    activityCards := ∅
    viewContent := ∅
    attestations := ∅
    holdingToken := none
    defaultOrigin := none
    keyName := none }

/-- The contract that holds the token. -/
def holdingContract? (d : Definition) : Option Contract :=
  d.holdingToken.bind (d.contracts.get? ·)

/-- The attestation that is the token, or else the first one declared. -/
def attestation? (d : Definition) : Option Attestation :=
  (d.holdingToken.bind (d.attestations.get? ·)).or (d.attestations.minEntry?.map (·.2))

/-- The name of so many tokens. -/
def tokenName? (d : Definition) (count : Nat) : Option String :=
  let exact := match count with
    | 1 => (d.labels.get? "one").or (d.labels.get? "")
    | 2 => (d.labels.get? "two").or (d.labels.get? "other")
    | _ => d.labels.get? "other"
  exact.or (d.labels.minEntry?.map (·.2))

/-- The labels of an attribute's values, a value standing at its place in the token id. -/
def placedMembers? (d : Definition) (name : String) : Option (Std.TreeMap Nat String) :=
  (d.attributes.get? name).bind (·.members)

/-- The labels of an attribute's values as the document gives the values. -/
def documentMembers? (d : Definition) (name : String) : Option (Std.TreeMap Nat String) := do
  let a ← d.attributes.get? name
  let members ← a.members
  return members.foldl (fun acc key label => acc.insert (a.extract key) label) ∅

/-- The token id under which a result is kept: zero for calls that do not take the token. -/
def cacheTokenId (d : Definition) (name : String) (tokenId : Nat) : Nat :=
  match d.attributes.get? name with
  | some a => if a.call.isSome && !a.usesTokenId then 0 else tokenId
  | none => tokenId

/-- The event behind an activity card. -/
def activityEvent? (d : Definition) (name : String) : Option EventSource := do
  let card ← d.activityCards.get? name
  let e ← card.event?
  return { e with
    contract := e.contract.or d.holdingContract?
    activityName := some name
    attributeName := none
    select := none }

/-- Whether there are logs to look at. -/
def hasEvents (d : Definition) : Bool :=
  !d.activityCards.isEmpty ||
    d.attributes.any fun _ a => a.event.any fun e => e.deployment?.isSome

end Definition

end TokenSchema
