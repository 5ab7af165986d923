import TokenSchema.Bytes.Block
import TokenSchema.Text.Blank
import TokenSchema.Text.Hex
import TokenSchema.Text.Numeral
import TokenSchema.Text.Utf8

/-!
# Parameter types and values

The elementary types of contract calls and the values that belong to them. A width is a number of
octets from one to thirty-two, so every type can be named, and `lookup` finds it by that name
(`registry`).
-/

namespace TokenSchema
namespace Abi

open TokenSchema.Bytes

/-! ## Types -/

/-- A number of octets from one to thirty-two. -/
structure Width where
  octets : Nat
  pos : 1 ≤ octets
  le : octets ≤ 32
  deriving DecidableEq, Repr

namespace Width

/-- The width of a whole word. -/
def word : Width := ⟨32, by decide, by decide⟩

/-- The number of bits. -/
def bits (w : Width) : Nat := 8 * w.octets

/-- All widths, rising. -/
def all : List Width :=
  (List.range 32).attach.map fun ⟨n, h⟩ =>
    ⟨n + 1, by omega, by have := List.mem_range.1 h; omega⟩

end Width

/-- The elementary parameter types. -/
inductive Ty where
  | address
  | uint (width : Width)
  | int (width : Width)
  | bool
  | bytes
  | fixed (width : Width)
  | string
  deriving DecidableEq, Repr

namespace Ty

/-- The unsigned integers of a whole word. -/
def uint256 : Ty := .uint .word

/-- Byte strings that fill a word. -/
def bytes32 : Ty := .fixed .word

/-- Types whose values have no fixed size. -/
def isDynamic : Ty → Bool
  | .bytes | .string => true
  | _ => false

/-- The name in signatures, with the width written out. -/
def canonical : Ty → String
  | .address => "address"
  | .uint w => "uint" ++ Text.decimal w.bits
  | .int w => "int" ++ Text.decimal w.bits
  | .bool => "bool"
  | .bytes => "bytes"
  | .fixed w => "bytes" ++ Text.decimal w.octets
  | .string => "string"

end Ty

/-! ## The registry -/

/-- Every type under its canonical name, and the unsigned and signed integers of a word under their
short names. -/
def registry : List (String × Ty) :=
  [("uint", .uint256), ("int", .int .word), ("address", .address), ("string", .string),
    ("bytes", .bytes), ("bool", .bool)] ++
  Width.all.flatMap fun w =>
    [.uint w, .int w, .fixed w].map fun t : Ty => (t.canonical, t)

/-- The type of a name, blanks around it aside. -/
def lookup (name : String) : Option Ty :=
  let key := Text.trim name
  (registry.find? (·.1 == key)).map (·.2)

/-! ## Values -/

/-- A decoded value, or one to be encoded. -/
inductive Value where
  | address (account : Address)
  | uint (n : Nat)
  | int (z : Int)
  | bool (b : Bool)
  | fixed (data : List UInt8)
  | bytes (data : List UInt8)
  | string (text : String)
  deriving DecidableEq, Repr

namespace Value

/-- The word for the sort of a value. -/
def sort : Value → String
  | .address _ => "address"
  | .uint _ => "uint"
  | .int _ => "int"
  | .bool _ => "bool"
  | .fixed _ => "fixed"
  | .bytes _ => "bytes"
  | .string _ => "string"

/-- The bytes of a value that has no fixed size. -/
def payload? : Value → Option (List UInt8)
  | .bytes data => some data
  | .string text => some (Text.Utf8.encode text)
  | _ => none

/-- Values that have no fixed size. -/
def isDynamic (v : Value) : Bool :=
  v.payload?.isSome

/-- The form in which a value is kept and shown: integers in decimal, addresses and byte strings as
lower-case hexadecimal after `0x`. -/
def display : Value → String
  | .address account => Text.Hex.encode0x account.bytes
  | .uint n => Text.decimal n
  | .int z => Text.signedDecimal z
  | .bool b => if b then "true" else "false"
  | .fixed data | .bytes data => Text.Hex.encode0x data
  | .string text => text

/-- The integer a value of fixed size stands for. -/
def integer? : Value → Option Int
  | .uint n => some n
  | .int z => some z
  | .bool b => some (if b then 1 else 0)
  | .address account => some account.toNat
  | .fixed data => some (Bytes.toNat data)
  | .bytes _ | .string _ => none

end Value

end Abi
end TokenSchema
