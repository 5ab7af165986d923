import TokenSchema.Proofs.Bytes.Minimal

/-!
# Signed bytes — integers in two's complement

The last bytes of an integer are told by their number, which is the integer modulo the number of values that they have
(`eq_ofInt_of_toNat`). So bytes cut off the front leave the last bytes of the same integer (`drop_ofInt`), and its sign
may be put before bytes that hold it (`replicate_append_ofInt`). The least bytes with a sign bit hold it
(`signedSize_holds`).
-/

namespace TokenSchema
namespace Bytes

/-! ## The last bytes of an integer -/

/-- The last `size` bytes of an integer. -/
def ofInt (size : Nat) (z : Int) : List UInt8 :=
  ofNat size (z % (modulus size : Int)).toNat

/-- The byte that stands before an integer. -/
def fill (z : Int) : UInt8 :=
  if z < 0 then 0xFF else 0x00

theorem modulus_pos (size : Nat) : 0 < modulus size :=
  Nat.pow_pos (by decide)

theorem modulus_add (front size : Nat) : modulus (front + size) = modulus front * modulus size :=
  Nat.pow_add ..

@[simp] theorem length_ofInt (size : Nat) (z : Int) : (ofInt size z).length = size :=
  length_ofNat _ _

theorem toNat_ofInt (size : Nat) (z : Int) : (toNat (ofInt size z) : Int) = z % (modulus size : Int) := by
  have pos : (0 : Int) < modulus size := Int.natCast_pos.2 (modulus_pos size)
  have nonneg := Int.emod_nonneg z (Int.ne_of_gt pos)
  have below := Int.emod_lt_of_pos z pos
  rw [ofInt, toNat_ofNat, Nat.mod_eq_of_lt (by omega), Int.toNat_of_nonneg nonneg]

theorem eq_ofInt_of_toNat {bytes : List UInt8} {size : Nat} {z : Int} (length : bytes.length = size)
    (number : (toNat bytes : Int) = z % (modulus size : Int)) : bytes = ofInt size z := by
  subst length
  rw [ofInt, ← number, Int.toNat_natCast, ofNat_toNat]

theorem ofInt_natCast (size n : Nat) : ofInt size n = ofNat size n := by
  refine (eq_ofInt_of_toNat (length_ofNat size n) ?_).symm
  rw [toNat_ofNat, Int.natCast_emod]

theorem drop_ofInt (front size : Nat) (z : Int) : (ofInt (front + size) z).drop front = ofInt size z := by
  have length : ((ofInt (front + size) z).drop front).length = size := by
    rw [List.length_drop, length_ofInt, Nat.add_sub_cancel_left]
  have below := toNat_lt ((ofInt (front + size) z).drop front)
  have parts := toNat_append ((ofInt (front + size) z).take front) ((ofInt (front + size) z).drop front)
  rw [List.take_append_drop] at parts
  rw [length] at below parts
  have last : toNat ((ofInt (front + size) z).drop front) = toNat (ofInt (front + size) z) % modulus size := by
    rw [parts, Nat.mul_add_mod_self_right, Nat.mod_eq_of_lt below]
  refine eq_ofInt_of_toNat length ?_
  rw [last, Int.natCast_emod, toNat_ofInt, modulus_add, Int.natCast_mul]
  exact Int.emod_emod_of_dvd z (Int.dvd_mul_left _ _)

/-- Bytes that hold an integer without a sign bit need only its sign before them. -/
theorem replicate_append_ofInt (front : Nat) {size : Nat} {z : Int} (low : -(modulus size : Int) ≤ z)
    (high : z < modulus size) : List.replicate front (fill z) ++ ofInt size z = ofInt (front + size) z := by
  have room : modulus size ≤ modulus (front + size) := Nat.pow_le_pow_right (by decide) (Nat.le_add_left size front)
  have length : (List.replicate front (fill z) ++ ofInt size z).length = front + size := by simp
  refine eq_ofInt_of_toNat length ?_
  rw [toNat_append, length_ofInt, Int.natCast_add, Int.natCast_mul, toNat_ofInt]
  by_cases negative : z < 0
  · -- The number of the front is the last one there, so the sum is one whole above the integer.
    have full : toNat (List.replicate front (fill z)) + 1 = modulus front := by
      have all := (toNat_add_one_eq_modulus_iff (List.replicate front (fill z))).2 fun b member => by
        rw [List.eq_of_mem_replicate member, fill, if_pos negative]
      rwa [List.length_replicate] at all
    have wrapped (count : Nat) (fits : -(modulus count : Int) ≤ z) : z % modulus count = z + modulus count := by
      rw [← Int.add_emod_right, Int.emod_eq_of_lt (by omega) (by omega)]
    have product : (modulus (front + size) : Int) =
        (toNat (List.replicate front (fill z)) : Int) * modulus size + modulus size := by
      rw [modulus_add, ← full, Nat.succ_mul, Int.natCast_add, Int.natCast_mul]
    rw [wrapped size low, wrapped (front + size) (by omega), product]
    omega
  · have none : toNat (List.replicate front (fill z)) = 0 := by
      rw [toNat_eq_zero_iff]
      intro b member
      rw [List.eq_of_mem_replicate member, fill, if_neg negative]
    rw [none, Int.emod_eq_of_lt (by omega) high, Int.emod_eq_of_lt (by omega) (by omega)]
    simp

/-! ## As few bytes as there may be, with a sign bit -/

theorem bitLength_lt_iff {n k : Nat} : bitLength n ≤ k ↔ n < 2 ^ k := by
  unfold bitLength
  split
  · rename_i zero
    subst zero
    exact iff_of_true (Nat.zero_le k) (Nat.two_pow_pos k)
  · rename_i nonzero
    rw [← Nat.log2_lt nonzero, Nat.succ_le_iff]

theorem lt_modulus_bitLength (n : Nat) : n < modulus (bitLength n / 8 + 1) := by
  rw [modulus_eq_two_pow]
  exact bitLength_lt_iff.1 (by omega)

theorem length_minimalSigned (z : Int) : (minimalSigned z).length = signedSize z :=
  length_ofNat _ _

theorem minimalSigned_eq (z : Int) : minimalSigned z = ofInt (signedSize z) z :=
  rfl

theorem signedSize_holds (z : Int) : -(modulus (signedSize z) : Int) ≤ z ∧ z < modulus (signedSize z) := by
  unfold signedSize
  split
  · have bits := lt_modulus_bitLength (-z - 1).toNat
    omega
  · have bits := lt_modulus_bitLength z.toNat
    omega

/-- A number without a sign is written in as few bytes as hold it and a sign bit. -/
theorem minimalSigned_natCast (n : Nat) : minimalSigned n = ofNat (bitLength n / 8 + 1) n := by
  have size : signedSize n = bitLength n / 8 + 1 := by
    simp [signedSize, show ¬ (n : Int) < 0 by omega]
  rw [minimalSigned_eq, size, ofInt_natCast]

end Bytes
end TokenSchema
