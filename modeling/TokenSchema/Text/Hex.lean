/-!
# Hexadecimal texts

Bytes as two digits each, high half first. Writing uses lower-case digits; reading takes either case
and refuses an odd number of digits and anything that is no digit (`decode_encode`).
-/

namespace TokenSchema
namespace Text
namespace Hex

/-- The lower-case digit of a number below sixteen. -/
def digit (n : Nat) : Char :=
  if n < 10 then Char.ofNat (0x30 + n) else Char.ofNat (0x57 + n)

/-- The number a hexadecimal digit stands for, in either case. -/
def digitValue (c : Char) : Option Nat :=
  let n := c.toNat
  if 0x30 ≤ n && n ≤ 0x39 then some (n - 0x30)
  else if 0x61 ≤ n && n ≤ 0x66 then some (n - 0x57)
  else if 0x41 ≤ n && n ≤ 0x46 then some (n - 0x37)
  else none

/-- Two digits a byte. -/
def encodeChars : List UInt8 → List Char
  | [] => []
  | b :: rest => digit (b.toNat / 16) :: digit (b.toNat % 16) :: encodeChars rest

/-- The bytes of a digit list of even length. -/
def decodeChars : List Char → Option (List UInt8)
  | [] => some []
  | [_] => none
  | hi :: lo :: rest => do
      let h ← digitValue hi
      let l ← digitValue lo
      let bytes ← decodeChars rest
      return UInt8.ofNat (h * 16 + l) :: bytes

/-- Bytes as lower-case digits. -/
def encode (bytes : List UInt8) : String :=
  String.ofList (encodeChars bytes)

/-- Bytes as lower-case digits after a leading `0x`. -/
def encode0x (bytes : List UInt8) : String :=
  String.ofList ('0' :: 'x' :: encodeChars bytes)

/-- The bytes of a digit text; nothing for an odd length or a foreign character. -/
def decode (s : String) : Option (List UInt8) :=
  decodeChars s.toList

/-! ## Reading back -/

theorem digitValue_digit_all : ∀ n, n < 16 → digitValue (digit n) = some n := by
  decide

@[simp] theorem decodeChars_encodeChars (bytes : List UInt8) :
    decodeChars (encodeChars bytes) = some bytes := by
  induction bytes with
  | nil => rfl
  | cons b rest ih =>
      have hb : b.toNat < 256 := b.toNat_lt
      have hhi := digitValue_digit_all (b.toNat / 16) (by omega)
      have hlo := digitValue_digit_all (b.toNat % 16) (by omega)
      simp only [encodeChars, decodeChars, hhi, hlo, ih, Option.bind_eq_bind, Option.bind_some]
      rw [show b.toNat / 16 * 16 + b.toNat % 16 = b.toNat by omega]
      simp

@[simp] theorem decode_encode (bytes : List UInt8) : decode (encode bytes) = some bytes := by
  simp [decode, encode]

@[simp] theorem length_encodeChars (bytes : List UInt8) :
    (encodeChars bytes).length = 2 * bytes.length := by
  induction bytes with
  | nil => rfl
  | cons b rest ih => simp only [encodeChars, List.length_cons, ih]; omega

end Hex
end Text
end TokenSchema
