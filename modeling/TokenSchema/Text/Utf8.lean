/-!
# UTF-8

Text as bytes and back. A byte list that is no text has a first fault: how many bytes before it are
text, and how long the broken sequence is, or that the bytes end inside a sequence. Reading leniently
puts one replacement character in the place of each broken sequence.
-/

namespace TokenSchema
namespace Text
namespace Utf8

/-- The bytes of a text. -/
def encode (s : String) : List UInt8 :=
  s.toUTF8.data.toList

/-- The number of bytes of a text. -/
def size (s : String) : Nat :=
  s.utf8ByteSize

/-! ## Sequences -/

/-- What the lead byte of a sequence asks for: the number of bytes that follow it, and the least and
greatest value of the first of them. -/
structure Lead where
  following : Nat
  least : UInt8
  greatest : UInt8
  deriving DecidableEq, Repr

/-- The lead bytes of sequences of two and more bytes. -/
def lead? (b : UInt8) : Option Lead :=
  if 0xC2 ≤ b && b ≤ 0xDF then some ⟨1, 0x80, 0xBF⟩
  else if b == 0xE0 then some ⟨2, 0xA0, 0xBF⟩
  else if b == 0xED then some ⟨2, 0x80, 0x9F⟩
  else if 0xE1 ≤ b && b ≤ 0xEF then some ⟨2, 0x80, 0xBF⟩
  else if b == 0xF0 then some ⟨3, 0x90, 0xBF⟩
  else if b == 0xF4 then some ⟨3, 0x80, 0x8F⟩
  else if 0xF1 ≤ b && b ≤ 0xF3 then some ⟨3, 0x80, 0xBF⟩
  else none

/-- How a sequence at the head of a byte list ends. -/
inductive Sequence where
  /-- A whole sequence of so many bytes. -/
  | whole (size : Nat)
  /-- A byte that cannot stand there follows so many bytes. -/
  | broken (size : Nat)
  /-- The bytes end first. -/
  | cut
  deriving DecidableEq, Repr

/-- Check the bytes after the lead, `taken` bytes of the sequence being read. -/
def following (owed taken : Nat) (least greatest : UInt8) : List UInt8 → Sequence
  | [] => if owed = 0 then .whole taken else .cut
  | b :: rest =>
      match owed with
      | 0 => .whole taken
      | owed + 1 =>
          if least ≤ b && b ≤ greatest then following owed (taken + 1) 0x80 0xBF rest
          else .broken taken

/-- The sequence that starts with the byte `b`. -/
def sequenceAt (b : UInt8) (rest : List UInt8) : Sequence :=
  if b < 0x80 then .whole 1
  else match lead? b with
    | none => .broken 1
    | some l => following l.following 1 l.least l.greatest rest

/-- The code point of a whole sequence of the given bytes. -/
def codePoint : List UInt8 → Nat
  | [a] => a.toNat
  | [a, b] => (a.toNat % 0x20) * 0x40 + b.toNat % 0x40
  | [a, b, c] => ((a.toNat % 0x10) * 0x40 + b.toNat % 0x40) * 0x40 + c.toNat % 0x40
  | [a, b, c, d] =>
      (((a.toNat % 8) * 0x40 + b.toNat % 0x40) * 0x40 + c.toNat % 0x40) * 0x40 + d.toNat % 0x40
  | _ => 0xFFFD

/-! ## Strict reading -/

/-- The first fault of a byte list: the length of the text before it, and the length of the broken
sequence, absent where the bytes end inside a sequence. -/
structure Fault where
  validUpTo : Nat
  brokenSize : Option Nat
  deriving DecidableEq, Repr

/-- The first fault after `start` bytes of text; `skip` bytes of the current sequence remain. -/
def faultFrom (start skip : Nat) : List UInt8 → Option Fault
  | [] => none
  | b :: rest =>
      match skip with
      | skip + 1 => faultFrom (start + 1) skip rest
      | 0 =>
          match sequenceAt b rest with
          | .whole n => faultFrom (start + 1) (n - 1) rest
          | .broken n => some ⟨start, some n⟩
          | .cut => some ⟨start, none⟩

/-- The message for a fault. -/
def Fault.message (f : Fault) : String :=
  match f.brokenSize with
  | some n =>
      "invalid utf-8 sequence of " ++ toString n ++ " bytes from index " ++ toString f.validUpTo
  | none => "incomplete utf-8 byte sequence from index " ++ toString f.validUpTo

/-- The text of a byte list, or its first fault. -/
def decode (bytes : List UInt8) : Except Fault String :=
  match String.fromUTF8? bytes.toByteArray with
  | some s => .ok s
  | none => .error ((faultFrom 0 0 bytes).getD ⟨bytes.length, none⟩)

/-! ## Lenient reading -/

/-- The character that stands for a broken sequence. -/
def replacement : Char := Char.ofNat 0xFFFD

/-- Read on after a fault; `skip` bytes are already accounted for. -/
def repairFrom (skip : Nat) : List UInt8 → List Char
  | [] => []
  | b :: rest =>
      match skip with
      | skip + 1 => repairFrom skip rest
      | 0 =>
          match sequenceAt b rest with
          | .whole n => Char.ofNat (codePoint (b :: rest.take (n - 1))) :: repairFrom (n - 1) rest
          | .broken n => replacement :: repairFrom (n - 1) rest
          | .cut => [replacement]

/-- The text of a byte list, with a replacement character for each broken sequence. -/
def decodeLossy (bytes : List UInt8) : String :=
  match String.fromUTF8? bytes.toByteArray with
  | some s => s
  | none => String.ofList (repairFrom 0 bytes)

/-! ## Reading back -/

theorem fromUTF8?_encode (s : String) :
    String.fromUTF8? (encode s).toByteArray = some s := by
  have h : (encode s).toByteArray = s.toByteArray := by
    apply ByteArray.ext
    simp [encode]
  unfold String.fromUTF8?
  rw [h, dif_pos s.isValidUTF8]
  rfl

@[simp] theorem decode_encode (s : String) : decode (encode s) = .ok s := by
  simp [decode, fromUTF8?_encode]

@[simp] theorem decodeLossy_encode (s : String) : decodeLossy (encode s) = s := by
  simp [decodeLossy, fromUTF8?_encode]

end Utf8
end Text
end TokenSchema
