import TokenSchema.Abi.Decode
import TokenSchema.Abi.Encode
import TokenSchema.Attribute.Text

/-!
# Calls

From a call template and the values its arguments refer to, to the bytes that a node is asked with. An
argument of an unknown type is left out; an argument that cannot be converted takes all others with it.
-/

namespace TokenSchema

open TokenSchema.Bytes

/-- The values that arguments are drawn from: the token, the wallet, and texts by name. -/
structure CallContext where
  tokenId : Nat
  wallet : String
  references : Std.TreeMap String String

/-- A call ready to be made. -/
structure Call where
  target : Option Deployment
  method : String
  /-- The method with the types of the arguments that are written. -/
  signature : String
  parameters : List Abi.Value
  /-- The selector and the arguments. -/
  data : List UInt8
  outputType : Abi.Ty
  /-- The amount that a transaction sends. -/
  amount : Option Nat
  deriving DecidableEq, Repr

/-- The value that an answer to the call stands for. -/
def Call.decodeOutput (c : Call) (answer : List UInt8) : Except Abi.DecodeError Abi.Value :=
  Abi.decodeValue c.outputType answer 0

/-- An integer in decimal, or a natural number in hexadecimal after `0x`. -/
def parseInteger (s : String) : Option Int :=
  let cs := Text.trimChars s.toList
  match cs with
  | '0' :: 'x' :: digits => (Text.naturalChars? 16 digits).map Int.ofNat
  | _ => Text.integer? (String.ofList cs)

/-- A natural number in decimal or, after `0x`, in hexadecimal. -/
def parseNatural (s : String) : Option Nat :=
  let cs := Text.trimChars s.toList
  match cs with
  | '0' :: 'x' :: digits => Text.naturalChars? 16 digits
  | _ => Text.naturalChars? 10 cs

namespace Abi

/-- The error for a text that is no value of the type. -/
def Ty.refuseText (t : Ty) (text : String) : Except EncodeError Value :=
  .error (.invalidValue t.canonical text)

/-- The value of a type without a text for it: zero for numbers, flags and fixed byte strings. -/
def Ty.absentValue (t : Ty) : Except EncodeError Value :=
  match t with
  | .uint _ => .ok (.uint 0)
  | .int _ => .ok (.int 0)
  | .bool => .ok (.bool false)
  | .fixed w => .ok (.fixed (List.replicate w.octets 0))
  | .address | .bytes | .string => .error (.missingValue t.canonical)

/-- Fixed bytes from a text: a decimal number stands at the right end, other bytes at the left. -/
def fixedOfText (w : Width) (text : String) : Value :=
  let bytes := argumentBytes text
  if text.toList.all Text.isDigit && bytes.length ≤ w.octets then
    .fixed (List.replicate (w.octets - bytes.length) 0 ++ bytes)
  else .fixed bytes

/-- The value of a type that a text stands for. -/
def Ty.ofText (t : Ty) (text : String) : Except EncodeError Value :=
  match t with
  | .uint _ =>
      match parseInteger text with
      | some (.ofNat n) => .ok (.uint n)
      | _ => t.refuseText text
  | .int _ =>
      match parseInteger text with
      | some z => .ok (.int z)
      | none => t.refuseText text
  | .address =>
      match parseAddress text with
      | some a => .ok (.address a)
      | none => t.refuseText text
  | .bool =>
      let word := Text.lowercase text
      if word = "true" ∨ word = "1" then .ok (.bool true)
      else if word = "false" ∨ word = "0" then .ok (.bool false)
      else t.refuseText word
  | .fixed w => .ok (fixedOfText w text)
  | .bytes => .ok (.bytes (argumentBytes text))
  | .string => .ok (.string text)

/-- The value of a type for an argument; a blank text counts as none. -/
def Ty.ofArgument (t : Ty) (text : Option String) : Except EncodeError Value :=
  match (text.map Text.trim).filter (· ≠ "") with
  | some s => t.ofText s
  | none => t.absentValue

end Abi

namespace CallContext

/-- The text of an argument's source. -/
def sourceText (c : CallContext) : ArgumentSource → Option String
  | .literal text => some text
  | .reference name | .localValue name => c.references.get? name
  | .tokenId => some (Text.decimal c.tokenId)
  | .ownerAddress => some c.wallet
  | .empty => none

/-- The type and value of an argument; nothing for one of an unknown type. The token and the wallet
have types of their own, except that a token may be asked for as 32 bytes. -/
def argument (c : CallContext) (a : Argument) :
    Except Abi.EncodeError (Option (Abi.Ty × Abi.Value)) :=
  match a.source with
  | .tokenId =>
      if Abi.lookup a.typeName = some .bytes32 then
        .ok (some (.bytes32, .fixed (Word.ofNat c.tokenId).bytes))
      else .ok (some (.uint256, .uint (c.tokenId % wordModulus)))
  | .ownerAddress =>
      match parseAddress c.wallet with
      | some account => .ok (some (.address, .address account))
      | none => .error (.invalidValue "address" c.wallet)
  | source =>
      match Abi.lookup a.typeName with
      | none => .ok none
      | some t => do
          let v ← t.ofArgument (c.sourceText source)
          let v ← t.coerce v
          return some (t, v)

/-- The types and values of all arguments, or none at all if one cannot be converted. -/
def arguments (c : CallContext) (args : List Argument) : List (Abi.Ty × Abi.Value) :=
  match args.mapM c.argument with
  | .ok found => found.filterMap id
  | .error _ => []

end CallContext

/-- A method with the types of its arguments in parentheses. -/
def callSignature (method : String) (types : List Abi.Ty) : String :=
  method ++ "(" ++ String.intercalate "," (types.map Abi.Ty.canonical) ++ ")"

/-- The amount that a transaction sends: a natural number. -/
def CallTemplate.amount? (f : CallTemplate) (c : CallContext) : Option Nat := do
  let source ← f.amountSource?
  let text ← c.sourceText source
  match ← parseInteger text with
  | .ofNat n => some n
  | .negSucc _ => none

/-- The call that a template asks for. -/
def CallTemplate.build (f : CallTemplate) (c : CallContext) : Call :=
  let args := c.arguments f.arguments
  let signature := callSignature f.method (args.map (·.1))
  let values := args.map (·.2)
  { target := f.contract.bind Contract.first?
    method := f.method
    signature := signature
    parameters := values
    data := Abi.encodeCall (Abi.selector signature) values
    outputType := (Abi.lookup f.returnType).getD .bytes32
    amount := f.amount? c }

end TokenSchema
