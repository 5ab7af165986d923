import TokenSchema.Contract
import TokenSchema.NamedType

/-!
# Event sources

Where the logs of an event come from, which of them count, and which field of a log is the value.
-/

namespace TokenSchema

/-- An event declared by an attribute or an activity card. -/
structure EventSource where
  /-- The contract that the declaration names. -/
  contract : Option Contract
  /-- The contract of the attribute that holds the declaration. -/
  parentContract : Option Contract
  type : NamedType
  /-- The directive that narrows the logs: a field name, `=`, and a value in `$` and braces. -/
  filter : Option String
  /-- The field whose value counts. -/
  select : Option String
  /-- The first block to look at. -/
  fromBlock : Option Nat
  attributeName : Option String
  activityName : Option String
  deriving DecidableEq, Repr

namespace EventSource

/-- An event without contract, directive or selection. -/
def ofType (type : NamedType) : EventSource :=
  { contract := none
    parentContract := none
    type := type
    filter := none
    select := none
    fromBlock := none
    attributeName := none
    activityName := none }

/-- What follows the first `$` that stands before an opening brace, from behind that brace. -/
def afterMarker : List Char → Option (List Char)
  | [] => none
  | c :: rest =>
      match c, rest with
      | '$', '\x7b' :: tail => some tail
      | _, _ => afterMarker rest

/-- The value of a directive: the text between the first marker and the closing brace after it,
unless that is empty. -/
def markedValue (directive : String) : Option String :=
  match afterMarker directive.toList with
  | none => none
  | some rest =>
      let value := rest.takeWhile (· != '\x7d')
      if rest.contains '\x7d' && !value.isEmpty then some (String.ofList value) else none

/-- The name of a directive: what stands before the first `=`, without blanks. -/
def directiveName (directive : String) : Option String :=
  let name := (directive.toList.takeWhile (· != '=')).filter fun c => !Text.isBlank c
  if name.isEmpty then none else some (String.ofList name)

/-- The value that the directive asks for. -/
def filterValue? (e : EventSource) : Option String :=
  e.filter.bind markedValue

/-- The field that the directive looks at. -/
def filterName? (e : EventSource) : Option String :=
  e.filter.bind directiveName

/-- The position of the directive's field among the indexed fields. -/
def filterPosition? (e : EventSource) : Option Nat :=
  e.filterName?.bind (e.type.position? true ·)

/-- The position of the selected field on one side. -/
def selectPosition? (e : EventSource) (indexed : Bool) : Option Nat :=
  e.select.bind (e.type.position? indexed ·)

/-- The deployment whose logs are read: the event's own contract, else its parent's. -/
def deployment? (e : EventSource) : Option Deployment :=
  (e.contract.bind Contract.first?).or (e.parentContract.bind Contract.first?)

/-- The bytes whose hash is the key of an event source: the chain in eight bytes, then the texts. -/
def keyBytes (chainId : Nat) (address : String) (activity name : Option String) :
    List UInt8 :=
  Bytes.ofNat 8 chainId ++ Text.Utf8.encode address ++
    (activity.map Text.Utf8.encode).getD [] ++ (name.map Text.Utf8.encode).getD []

/-- A key that stays the same for one event source. -/
def keyOf (chainId : Nat) (address : String) (activity name : Option String) : String :=
  Text.Hex.encode (Abi.Keccak.hash (keyBytes chainId address activity name)).bytes

/-- The key of the event source, if it has a deployment. -/
def key? (e : EventSource) : Option String :=
  e.deployment?.map fun d => keyOf d.chainId d.address e.activityName e.attributeName

end EventSource

end TokenSchema
