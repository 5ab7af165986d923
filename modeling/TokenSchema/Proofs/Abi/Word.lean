import TokenSchema.Abi.Decode
import TokenSchema.Abi.Encode
import TokenSchema.Proofs.Abi.Membership

/-!
# Words — what the head of a parameter list holds

The word of a value of fixed size is read back as that value by its type (`Ty.Has.ofWord_word`). For
integers this is arithmetic modulo `wordModulus`: a word is an unsigned number (`Word.toNat_ofNat_of_lt`),
or a signed one whose representative is the balanced one (`Word.toInt_ofInt`).
-/

namespace TokenSchema

open TokenSchema.Bytes

namespace Bytes.Word

/-! ## Integers -/

theorem wordModulus_pos : 0 < wordModulus :=
  Nat.pow_pos (by decide)

/-- The number of values of a word is twice that of a word without its first bit. -/
theorem wordModulus_even : wordModulus % 2 = 0 := by
  have factor : wordModulus = 256 * modulus 31 := modulus_succ 31
  omega

theorem toNat_ofNat (n : Nat) : (ofNat n).toNat = n % wordModulus :=
  Block.toNat_ofNat 32 n

theorem toNat_ofNat_of_lt {n : Nat} (h : n < wordModulus) : (ofNat n).toNat = n := by
  rw [toNat_ofNat, Nat.mod_eq_of_lt h]

/-- The unsigned number of an integer's word is the integer modulo the number of words. -/
theorem natCast_toNat_ofInt (z : Int) : ((ofInt z).toNat : Int) = z % (wordModulus : Int) := by
  have pos : (0 : Int) < wordModulus := Int.natCast_pos.2 wordModulus_pos
  have nonneg : 0 ≤ z % (wordModulus : Int) := Int.emod_nonneg z (Int.ne_of_gt pos)
  have below : z % (wordModulus : Int) < wordModulus := Int.emod_lt_of_pos z pos
  have written := toNat_ofNat (z % (wordModulus : Int)).toNat
  rw [Nat.mod_eq_of_lt (by omega)] at written
  calc
    ((ofInt z).toNat : Int) = ((z % (wordModulus : Int)).toNat : Int) := congrArg Nat.cast written
    _ = z % (wordModulus : Int) := Int.toNat_of_nonneg nonneg

/-- A word holds the integer between minus half and half of its modulus that agrees with the one
written, up to a multiple of the modulus. -/
theorem toInt_ofInt (z : Int) : Bytes.toInt (ofInt z).bytes = Int.bmod z wordModulus := by
  have read : (Bytes.toNat (ofInt z).bytes : Int) = z % (wordModulus : Int) := natCast_toNat_ofInt z
  have size : (ofInt z).bytes.length = 32 := (ofInt z).length_eq
  have even := wordModulus_even
  simp only [Bytes.toInt, size, Int.bmod, ← read]
  change (if 2 * Bytes.toNat (ofInt z).bytes < wordModulus then _ else _ - (wordModulus : Int)) = _
  split
  · rw [if_pos (by omega)]
  · rw [if_neg (by omega)]

theorem toInt_ofInt_of_signedRange {w : Abi.Width} {z : Int} (h : w.signedRange z = true) :
    Bytes.toInt (ofInt z).bytes = z := by
  have range := (w.signedRange_iff z).1 h
  have le := w.modulus_le
  have even := wordModulus_even
  rw [toInt_ofInt]
  exact Int.bmod_eq_of_le (by omega) (by omega)

/-! ## Flags, addresses and fixed byte strings -/

theorem getLast?_ofBool (b : Bool) :
    (((ofBool b).bytes.getLast?).getD 0 != 0) = b := by
  cases b <;> rfl

theorem drop_ofAddress (account : Address) : (ofAddress account).bytes.drop 12 = account.bytes := by
  simp [ofAddress]

theorem take_ofFixed {data : List UInt8} (h : data.length ≤ 32) :
    (ofFixed data).bytes.take data.length = data := by
  simp [ofFixed, List.take_of_length_le h]

end Bytes.Word

namespace Abi

/-- A value of fixed size is read back from its own word. -/
theorem Ty.Has.ofWord_word {t : Ty} {v : Value} (h : t.Has v) (static : v.payload? = none) :
    t.ofWord v.word = v := by
  cases h with
  | address account =>
      simp only [ofWord, Value.word, Word.drop_ofAddress]
  | @uint w n small =>
      have whole : n < wordModulus := Nat.lt_of_lt_of_le small w.modulus_le
      simp only [ofWord, Value.word, Word.toNat_ofNat_of_lt whole]
  | int inRange =>
      simp only [ofWord, Value.word, Word.toInt_ofInt_of_signedRange inRange]
  | bool b =>
      simp only [ofWord, Value.word, Word.getLast?_ofBool]
  | bytes data => cases static
  | @fixed w data full =>
      have fits : data.length ≤ 32 := full ▸ w.le
      simp only [ofWord, Value.word, ← full, Word.take_ofFixed fits]
  | string text => cases static

/-- A value of fixed size is read as that of the word at its place. -/
theorem decodeValue_of_static {t : Ty} (static : t.isDynamic = false) (data : List UInt8) (head : Nat) :
    decodeValue t data head = readWord data head >>= fun w => pure (t.ofWord w) := by
  cases t with
  | bytes | string => cases static
  | _ => rfl

end Abi

end TokenSchema
