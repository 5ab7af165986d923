import TokenSchema.Abi.Coerce
import TokenSchema.Abi.Keccak

/-!
# Encoding

Parameter lists in head and tail form. Each value has one word in the head: its own, or the offset of
its bytes in the tail, where they follow a word with their number and are filled up to whole words.
-/

namespace TokenSchema
namespace Abi

open TokenSchema.Bytes

/-- The word of a value of fixed size; zero for the others. -/
def Value.word : Value → Word
  | .address account => .ofAddress account
  | .uint n => .ofNat n
  | .int z => .ofInt z
  | .bool b => .ofBool b
  | .fixed data => .ofFixed data
  | .bytes _ | .string _ => .ofNat 0

/-- Bytes filled with zeros up to whole words. -/
def padWords (data : List UInt8) : List UInt8 :=
  data ++ List.replicate ((32 - data.length % 32) % 32) 0

/-- Bytes in the tail, after a word with their number. -/
def tailOf (data : List UInt8) : List UInt8 :=
  (Word.ofNat data.length).bytes ++ padWords data

/-- Heads and tails of a value list whose first tail starts at `offset`. -/
def encodeFrom (offset : Nat) : List Value → List UInt8 × List UInt8
  | [] => ([], [])
  | v :: rest =>
      match v.payload? with
      | none =>
          let r := encodeFrom offset rest
          (v.word.bytes ++ r.1, r.2)
      | some data =>
          let tail := tailOf data
          let r := encodeFrom (offset + tail.length) rest
          ((Word.ofNat offset).bytes ++ r.1, tail ++ r.2)

/-- A parameter list in head and tail form. -/
def encodeParams (values : List Value) : List UInt8 :=
  let r := encodeFrom (32 * values.length) values
  r.1 ++ r.2

/-- The first four bytes of the hash of a signature. -/
def selector (signature : String) : List UInt8 :=
  (Keccak.hash (Text.Utf8.encode signature)).bytes.take 4

/-- A selector and the arguments after it. -/
def encodeCall (selector : List UInt8) (values : List Value) : List UInt8 :=
  selector ++ encodeParams values

/-- One value as the only argument of a call, by the name of its type. -/
def encodeAs (typeName : String) (v : Value) : Except EncodeError (List UInt8) :=
  match lookup typeName with
  | none => .error (.unknownType typeName)
  | some t => do return encodeParams [← t.coerce v]

end Abi
end TokenSchema
