import TokenSchema.Abi.Basic
import TokenSchema.Abi.Error

/-!
# Decoding

Reading values back from data in head and tail form. Every read is checked against the length of the
data first. A word is taken as it stands: widths are not checked, and a last byte other than zero is true.
-/

namespace TokenSchema
namespace Abi

open TokenSchema.Bytes

/-! ## Checked reads -/

/-- So many bytes from an offset. -/
def slice (data : List UInt8) (offset size : Nat) : List UInt8 :=
  (data.drop offset).take size

/-- The error for data that ends before `offset + size`; the needed end is capped at 64 bits. -/
def DecodeError.beyond (data : List UInt8) (offset size : Nat) : DecodeError :=
  .tooShort (min (offset + size) Text.maxWord64) data.length

/-- The bytes from an offset, if the data reaches that far. -/
def readBytes (data : List UInt8) (offset size : Nat) : Except DecodeError (List UInt8) :=
  if offset + size ≤ data.length then .ok (slice data offset size)
  else .error (.beyond data offset size)

/-- The word at an offset, if the data reaches that far. -/
def readWord (data : List UInt8) (offset : Nat) : Except DecodeError Word :=
  if h : offset + 32 ≤ data.length then
    .ok ⟨slice data offset 32, by
      simp only [slice, List.length_take, List.length_drop]; omega⟩
  else .error (.beyond data offset 32)

/-- The word at an offset as an offset or length of at most 64 bits. -/
def readOffset (data : List UInt8) (offset : Nat) : Except DecodeError Nat := do
  let w ← readWord data offset
  if w.toNat ≤ Text.maxWord64 then return w.toNat else throw .offsetTooLarge

/-! ## Values -/

/-- The value of a type of fixed size that a word holds; a word stands for any other value by its
bytes. -/
def Ty.ofWord (t : Ty) (w : Word) : Value :=
  match t with
  | .address => .address ⟨w.bytes.drop 12, by simp [w.length_eq]⟩
  | .uint _ => .uint w.toNat
  | .int _ => .int (Bytes.toInt w.bytes)
  | .bool => .bool ((w.bytes.getLast?).getD 0 != 0)
  | .fixed width => .fixed (w.bytes.take width.octets)
  | .bytes | .string => .fixed w.bytes

/-- The bytes of a value without fixed size whose length word stands at an offset. -/
def readPayload (data : List UInt8) (offset : Nat) : Except DecodeError (List UInt8) := do
  let size ← readOffset data offset
  readBytes data (offset + 32) size

/-- The value whose head word stands at an offset. -/
def decodeValue (t : Ty) (data : List UInt8) (head : Nat) : Except DecodeError Value :=
  match t with
  | .bytes => do
      let offset ← readOffset data head
      return .bytes (← readPayload data offset)
  | .string => do
      let offset ← readOffset data head
      let bytes ← readPayload data offset
      match Text.Utf8.decode bytes with
      | .ok text => return .string text
      | .error fault => throw (.notUtf8 fault)
  | t => do
      let w ← readWord data head
      return t.ofWord w

/-- Values in head and tail form whose first head word stands at an offset. -/
def decodeFrom (data : List UInt8) (head : Nat) : List Ty → Except DecodeError (List Value)
  | [] => .ok []
  | t :: rest => do
      let v ← decodeValue t data head
      let vs ← decodeFrom data (head + 32) rest
      return v :: vs

/-- Values in head and tail form. -/
def decodeParams (types : List Ty) (data : List UInt8) : Except DecodeError (List Value) :=
  decodeFrom data 0 types

/-- One value at the start of return data, by the name of its type. -/
def decodeAs (typeName : String) (data : List UInt8) : Except DecodeError Value :=
  match lookup typeName with
  | none => .error (.unknownType typeName)
  | some t => decodeValue t data 0

end Abi
end TokenSchema
