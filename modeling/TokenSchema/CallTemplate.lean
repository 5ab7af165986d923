import Std.Data.TreeMap
import TokenSchema.Attribute.Kind
import TokenSchema.Contract

/-!
# Call templates

A contract call or transaction as a document declares it: a method, its arguments, and where the value
of each argument comes from.
-/

namespace TokenSchema

/-- Where the value of an argument comes from. -/
inductive ArgumentSource where
  /-- The text written in the document. -/
  | literal (text : String)
  /-- Another attribute of the token. -/
  | reference (name : String)
  /-- A value the host supplies for the session. -/
  | localValue (name : String)
  /-- The token at hand. -/
  | tokenId
  /-- The wallet of the user. -/
  | ownerAddress
  /-- Neither a reference nor a text. -/
  | empty
  deriving DecidableEq, Repr

namespace ArgumentSource

/-- The source that a reference, a local reference and a text give: the first one that is not empty
counts. -/
def ofParts (referenceName localName : Option String) (text : String) : ArgumentSource :=
  match referenceName.filter (· ≠ ""), localName.filter (· ≠ "") with
  | some "tokenId", _ => .tokenId
  | some "ownerAddress", _ => .ownerAddress
  | some name, _ => .reference name
  | none, some name => .localValue name
  | none, none => if text ≠ "" then .literal text else .empty

end ArgumentSource

/-- An argument: the name of its type and the source of its value. -/
structure Argument where
  typeName : String
  source : ArgumentSource
  deriving DecidableEq, Repr

/-- A call or transaction declared in a document. -/
structure CallTemplate where
  contract : Option Contract
  method : String
  kind : Kind
  /-- The declared result where it names a structure. -/
  resultType : Option String
  arguments : List Argument
  /-- The arguments of a transaction by element name; absent for a call. -/
  transaction : Option (Std.TreeMap String ArgumentSource)
  form : Form

namespace CallTemplate

/-- A call of a method without arguments. -/
def ofMethod (method : String) : CallTemplate :=
  { contract := none
    method := method
    kind := .unsigned
    resultType := none
    arguments := []
    transaction := none
    form := .directoryString }

/-- The name of the type that the answer is read as. -/
def returnType (c : CallTemplate) : String :=
  match c.kind with
  | .utf8 => "string"
  | .signed | .unsigned | .unsignedInput | .tokenId => "uint256"
  | .address => "address"
  | _ => "bytes32"

/-- The source of the amount that a transaction sends. -/
def amountSource? (c : CallTemplate) : Option ArgumentSource :=
  c.transaction.bind fun sources => sources.get? "value"

/-- How many arguments are the token itself. -/
def tokenIdCount (c : CallTemplate) : Nat :=
  (c.arguments.filter (·.source == .tokenId)).length

end CallTemplate

end TokenSchema
