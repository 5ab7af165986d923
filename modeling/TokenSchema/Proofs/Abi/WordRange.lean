import TokenSchema.Log
import TokenSchema.Proofs.Abi.Checks
import TokenSchema.Proofs.Abi.Coercion

/-!
# Word ranges — values that are read from any word

A word that is read as a number gives the number of all its bytes, whatever the width of the type. So the number is in
the type's range exactly if the bytes before those of the width only fill the word: zeros before an unsigned number,
copies of the sign before a signed one (`toNat_append_lt_iff`, `toInt_append_inRange_iff`). A word of any other type
and bytes of no fixed size always give a value of the type. What is read belongs to the type under just this condition,
and is refused by its own type otherwise (`Ty.coerce_read`).
-/

namespace TokenSchema

open TokenSchema.Bytes

/-! ## Numbers with bytes before them -/

namespace Bytes

/-- The byte that stands before bytes where their sign is copied. -/
def signByte (bytes : List UInt8) : UInt8 :=
  if bytes.headD 0 < 0x80 then 0x00 else 0xFF

/-- Bytes are at least half of their modulus if their first bit is set. -/
theorem two_mul_toNat_lt_iff {bytes : List UInt8} (nonempty : bytes ≠ []) :
    2 * toNat bytes < modulus bytes.length ↔ bytes.headD 0 < 0x80 := by
  cases bytes with
  | nil => exact absurd rfl nonempty
  | cons b rest =>
      have number : toNat (b :: rest) = b.toNat * modulus rest.length + toNat rest := by
        have split := toNat_append [b] rest
        rwa [show toNat [b] = b.toNat by simp [toNat]] at split
      have below := toNat_lt rest
      rw [List.headD_cons, UInt8.lt_iff_toNat_lt, number, List.length_cons, modulus_succ]
      change _ ↔ b.toNat < 128
      constructor
      · intro small
        by_contra large
        have factor := Nat.mul_le_mul_right (modulus rest.length) (Nat.le_of_not_lt large)
        omega
      · intro small
        have factor := Nat.mul_le_mul_right (modulus rest.length) (Nat.succ_le_of_lt small)
        rw [Nat.succ_mul] at factor
        omega

theorem toNat_append_lt_iff (front rest : List UInt8) :
    toNat (front ++ rest) < modulus rest.length ↔ ∀ b ∈ front, b = 0 := by
  have below := toNat_lt rest
  rw [← toNat_eq_zero_iff, toNat_append]
  constructor
  · intro small
    by_contra nonzero
    have factor := Nat.le_mul_of_pos_left (modulus rest.length) (Nat.pos_of_ne_zero nonzero)
    omega
  · intro zero
    rw [zero]
    omega

/-- A front below a whole is the last one there, or there is room for two more; so it is in steps of the rest, too. -/
theorem full_or_partly {front whole : Nat} (below : front < whole) (rest : Nat) :
    (front + 1 = whole ∧ front * rest + rest = whole * rest) ∨
      (front + 1 < whole ∧ front * rest + 2 * rest ≤ whole * rest) := by
  rcases Nat.eq_or_lt_of_le (Nat.succ_le_of_lt below) with full | partly
  · refine .inl ⟨full, ?_⟩
    rw [← full, Nat.succ_mul]
  · refine .inr ⟨partly, ?_⟩
    rw [← Nat.add_mul]
    exact Nat.mul_le_mul_right _ partly

/-- A signed number of more bytes is in the range of its last ones if the others copy their sign. -/
theorem toInt_append_inRange_iff (front : List UInt8) {rest : List UInt8} (nonempty : rest ≠ []) :
    0 ≤ (modulus rest.length : Int) + 2 * toInt (front ++ rest) ∧
        2 * toInt (front ++ rest) < modulus rest.length ↔
      ∀ b ∈ front, b = signByte rest := by
  have sign := two_mul_toNat_lt_iff nonempty
  have below := toNat_lt rest
  have whole : modulus (front ++ rest).length = modulus front.length * modulus rest.length := by
    rw [List.length_append]
    exact Nat.pow_add ..
  -- The number of the front is none or not, and the last one or not.
  have none_or : toNat front = 0 ∨ modulus rest.length ≤ toNat front * modulus rest.length := by
    rcases Nat.eq_zero_or_pos (toNat front) with zero | pos
    · exact .inl zero
    · exact .inr (Nat.le_mul_of_pos_left _ pos)
  have full_or := full_or_partly (toNat_lt front) (modulus rest.length)
  simp only [toInt, toNat_append, whole, signByte]
  by_cases positive : rest.headD 0 < 0x80
  · have half := sign.2 positive
    rw [if_pos positive, ← toNat_eq_zero_iff]
    constructor
    · intro inRange
      split at inRange <;> omega
    · intro zero
      rw [zero, Nat.zero_mul, Nat.zero_add] at *
      rw [if_pos (by omega)]
      omega
  · have half := mt sign.1 positive
    rw [if_neg positive, ← toNat_add_one_eq_modulus_iff]
    constructor
    · intro inRange
      split at inRange <;> omega
    · intro full
      rw [if_neg (by omega)]
      omega

end Bytes

namespace Abi

/-! ## Values that are read -/

namespace Ty

/-- The word is a value of the type's width, brought to 32 bytes: before the number stand zeros, or copies of its sign.
Nothing is asked of a word that is not read as a number. -/
def isExtended : Ty → List UInt8 → Bool
  | .uint w, word => (word.take (32 - w.octets)).all (· == 0)
  | .int w, word => (word.take (32 - w.octets)).all (· == signByte (word.drop (32 - w.octets)))
  | _, _ => true

end Ty

/-- The bytes of a number stand at the end of its word. -/
theorem Width.length_drop (w : Width) (word : Word) : (word.bytes.drop (32 - w.octets)).length = w.octets := by
  have le := w.le
  rw [List.length_drop, word.length_eq]
  omega

theorem Width.toNat_lt_iff (w : Width) (word : Word) :
    word.toNat < 2 ^ w.bits ↔ (Ty.uint w).isExtended word.bytes = true := by
  have parts := toNat_append_lt_iff (word.bytes.take (32 - w.octets)) (word.bytes.drop (32 - w.octets))
  rw [List.take_append_drop, w.length_drop, w.modulus_octets] at parts
  simp only [Ty.isExtended, List.all_eq_true, beq_iff_eq]
  exact parts

theorem Width.signedRange_toInt_iff (w : Width) (word : Word) :
    w.signedRange (Bytes.toInt word.bytes) = true ↔ (Ty.int w).isExtended word.bytes = true := by
  have nonempty : word.bytes.drop (32 - w.octets) ≠ [] := by
    have pos := w.pos
    have length := w.length_drop word
    rintro none
    rw [none, List.length_nil] at length
    omega
  have parts := toInt_append_inRange_iff (word.bytes.take (32 - w.octets)) nonempty
  rw [List.take_append_drop, w.length_drop] at parts
  simp only [Ty.isExtended, List.all_eq_true, beq_iff_eq]
  exact (w.signedRange_iff _).trans parts

namespace Ty

variable {t : Ty}

theorem contains_ofWord_iff (static : t.isDynamic = false) (word : Word) :
    t.Contains (t.ofWord word) ↔ t.isExtended word.bytes = true := by
  cases t with
  | uint w => exact w.toNat_lt_iff word
  | int w => exact (w.signedRange_iff_two_pow _).symm.trans (w.signedRange_toInt_iff word)
  | fixed w =>
      have full : (word.bytes.take w.octets).length = w.octets := by
        rw [List.length_take, word.length_eq]
        exact Nat.min_eq_left w.le
      exact iff_of_true full rfl
  | address | bool => exact iff_of_true trivial rfl
  | bytes | string => cases static

/-- A number that is read from a word is within the words, so its type either takes it as it is or refuses it. -/
theorem coerce_ofWord_of_not_contains (static : t.isDynamic = false) (word : Word)
    (outside : ¬ t.Contains (t.ofWord word)) :
    t.coerce (t.ofWord word) = t.refuse (t.ofWord word) := by
  cases t with
  | uint w =>
      have whole : word.toNat % wordModulus = word.toNat := Nat.mod_eq_of_lt word.toNat_lt
      have large : ¬ word.toNat < modulus w.octets := by
        rw [w.modulus_octets]
        exact outside
      simp only [ofWord, coerce, whole, if_neg large]
  | int w => exact if_neg (mt (w.signedRange_iff_two_pow _).1 outside)
  | fixed w => exact absurd ((contains_ofWord_iff static word).2 rfl) outside
  | address | bool => exact absurd trivial outside
  | bytes | string => cases static

/-- What the type makes of a value that was read as one of its own. -/
structure Judges (t : Ty) (v : Value) (extended : Bool) : Prop where
  contains_iff : t.Contains v ↔ extended = true
  coerce_eq : t.coerce v = if extended then .ok v else t.refuse v

theorem judges_ofWord (static : t.isDynamic = false) (word : Word) :
    t.Judges (t.ofWord word) (t.isExtended word.bytes) := by
  have contains := contains_ofWord_iff static word
  refine ⟨contains, ?_⟩
  by_cases extended : t.isExtended word.bytes = true
  · rw [if_pos extended]
    exact coerce_eq_self_iff.2 ((t.has_iff_contains _).2 (contains.2 extended))
  · rw [if_neg extended]
    exact coerce_ofWord_of_not_contains static word (mt contains.1 extended)

/-- A value of fixed size is that of the word at its place. -/
theorem exists_word_of_decodeValue (static : t.isDynamic = false) {data : List UInt8} {head : Nat} {v : Value}
    (read : decodeValue t data head = .ok v) :
    ∃ word : Word, word.bytes = slice data head 32 ∧ v = t.ofWord word := by
  rw [decodeValue_of_static static, readWord] at read
  split at read
  · cases read
    exact ⟨_, rfl, rfl⟩
  · cases read

/-- Bytes and texts are of any length, and their words are not looked at. -/
theorem judges_of_dynamic (dynamic : t.isDynamic = true) {data : List UInt8} {head : Nat} {v : Value}
    (read : decodeValue t data head = .ok v) (word : List UInt8) : t.Judges v (t.isExtended word) := by
  obtain ⟨-, rfl⟩ := ((decodeValue_obeys t data head).eq_ok_iff v).1 read
  cases t with
  | bytes | string => exact ⟨iff_of_true trivial rfl, rfl⟩
  | _ => cases dynamic

/-- What is read as a value of a type, from any data or from a topic, belongs to the type exactly if its word is a
value of the type's width, brought to 32 bytes. Then coercion leaves it as it is, and otherwise the type refuses it. -/
theorem coerce_read (t : Ty) :
    (∀ data head v, decodeValue t data head = .ok v →
        t.Judges v (t.isExtended (slice data head 32))) ∧
      (t.isDynamic = false → ∀ topic : Word, t.Judges (t.ofTopic topic) (t.isExtended topic.bytes)) := by
  refine ⟨fun data head v read => ?_, judges_ofWord⟩
  cases size : t.isDynamic with
  | true => exact judges_of_dynamic size read _
  | false =>
      obtain ⟨word, there, rfl⟩ := exists_word_of_decodeValue size read
      rw [← there]
      exact judges_ofWord size word

/-- A byte of 255 is a value of the signed octets where the word copies its sign, and none of them where zeros stand
before it. -/
theorem coerce_read_signs :
    decodeValue (.int .octet) (Word.ofInt (-1)).bytes 0 = .ok (.int (-1)) ∧
      (Ty.int .octet).Contains (.int (-1)) ∧
      (Ty.int .octet).isDynamic = false ∧
      (Ty.int .octet).coerce ((Ty.int .octet).ofTopic (.ofNat 255)) =
        .error (.invalidValue "int8" "255") := by
  have read : decodeValue (.int .octet) (Word.ofInt (-1)).bytes 0 = .ok (.int (-1)) := by decide +kernel
  have extended : (Ty.int .octet).isExtended (slice (Word.ofInt (-1)).bytes 0 32) = true := by decide +kernel
  have foreign : ¬ (Ty.int .octet).isExtended (Word.ofNat 255).bytes = true := by decide +kernel
  have refused : (Ty.int .octet).refuse ((Ty.int .octet).ofTopic (.ofNat 255)) =
      .error (.invalidValue "int8" "255") := by decide +kernel
  obtain ⟨values, topics⟩ := coerce_read (.int .octet)
  refine ⟨read, (values _ _ _ read).contains_iff.2 extended, rfl, ?_⟩
  rw [(topics rfl (.ofNat 255)).coerce_eq, if_neg foreign, refused]

/-- The word of 256 is read as an unsigned octet of that number, from data and from a topic, though no octet is as
large, and the type refuses what it has read. -/
theorem read_beyond_octet :
    decodeValue (.uint .octet) (Word.ofNat 256).bytes 0 = .ok (.uint 256) ∧
      (Ty.uint .octet).ofTopic (.ofNat 256) = .uint 256 ∧
      ¬ 256 < 2 ^ Width.octet.bits ∧
      (Ty.uint .octet).coerce (.uint 256) = .error (.invalidValue "uint8" "256") := by
  decide +kernel

end Ty

end Abi
end TokenSchema
