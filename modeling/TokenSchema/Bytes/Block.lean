import TokenSchema.Bytes.BigEndian

/-!
# Byte blocks

Byte lists of a fixed size, with the size in the type: words of 32 bytes and addresses of 20. A word
is a number modulo `wordModulus`, unsigned or signed (`Block.toNat_ofNat`).
-/

namespace TokenSchema
namespace Bytes

/-- Exactly `size` bytes. -/
structure Block (size : Nat) where
  bytes : List UInt8
  length_eq : bytes.length = size
  deriving DecidableEq, Repr

namespace Block

/-- The block of a list that has the right size. -/
def ofList? (size : Nat) (bytes : List UInt8) : Option (Block size) :=
  if h : bytes.length = size then some ⟨bytes, h⟩ else none

/-- The last `size` bytes of a number. -/
def ofNat (size n : Nat) : Block size :=
  ⟨Bytes.ofNat size n, length_ofNat size n⟩

/-- The number a block stands for. -/
def toNat {size : Nat} (b : Block size) : Nat :=
  Bytes.toNat b.bytes

theorem ext_bytes {size : Nat} {a b : Block size} (h : a.bytes = b.bytes) : a = b := by
  cases a; cases b; simp_all

theorem toNat_ofNat (size n : Nat) : (ofNat size n).toNat = n % modulus size :=
  Bytes.toNat_ofNat size n

@[simp] theorem ofList?_bytes {size : Nat} (b : Block size) :
    ofList? size b.bytes = some b := by
  simp [ofList?, b.length_eq]

end Block

/-- The 32 bytes of one slot of call data, return data or a log topic. -/
abbrev Word := Block 32

/-- The 20 bytes of an account address. -/
abbrev Address := Block 20

/-- The number of values of a word. -/
def wordModulus : Nat :=
  modulus 32

namespace Word

/-- A natural number modulo `2 ^ 256`. -/
def ofNat (n : Nat) : Word :=
  Block.ofNat 32 n

/-- An integer modulo `2 ^ 256`, in two's complement. -/
def ofInt (z : Int) : Word :=
  Block.ofNat 32 (z % (wordModulus : Int)).toNat

/-- An address, with zeros before it. -/
def ofAddress (a : Address) : Word :=
  ⟨List.replicate 12 0 ++ a.bytes, by simp [a.length_eq]⟩

/-- One for true, zero for false. -/
def ofBool (b : Bool) : Word :=
  ofNat (if b then 1 else 0)

/-- The first 32 bytes of a list, with zeros after a shorter one. -/
def ofFixed (bytes : List UInt8) : Word :=
  ⟨(bytes.take 32) ++ List.replicate (32 - (bytes.take 32).length) 0, by
    simp only [List.length_append, List.length_replicate, List.length_take]; omega⟩

end Word

end Bytes
end TokenSchema
