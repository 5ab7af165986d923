import Mathlib.Algebra.Group.Nat.Defs
import Mathlib.Data.List.Induction
import TokenSchema.Bytes.Block

/-!
# Minimal bytes — numbers and the bytes that hold them

Bytes are told by their number and their count (`ofNat_toNat`), so zeros may be put before the bytes of a
number as long as they are counted (`replicate_append_ofNat`). The least bytes that hold a number fill a
word in this way (`replicate_append_minimal`).
-/

namespace TokenSchema
namespace Bytes

theorem modulus_eq_two_pow (size : Nat) : modulus size = 2 ^ (8 * size) := by
  rw [Nat.pow_mul]
  rfl

theorem toNat_lt (bytes : List UInt8) : toNat bytes < modulus bytes.length := by
  induction bytes using List.reverseRecOn with
  | nil => decide
  | append_singleton bytes b ih =>
      have last := b.toNat_lt
      rw [toNat_append_singleton, List.length_append, List.length_singleton, modulus_succ]
      omega

theorem toNat_append (front rest : List UInt8) :
    toNat (front ++ rest) = toNat front * modulus rest.length + toNat rest := by
  induction rest using List.reverseRecOn with
  | nil => simp [toNat]
  | append_singleton rest b ih =>
      rw [← List.append_assoc, toNat_append_singleton, ih, toNat_append_singleton, List.length_append,
        List.length_singleton, modulus_succ, Nat.add_mul, Nat.mul_assoc, Nat.mul_comm 256, Nat.add_assoc]

theorem toNat_eq_zero_iff (bytes : List UInt8) : toNat bytes = 0 ↔ ∀ b ∈ bytes, b = 0 := by
  induction bytes using List.reverseRecOn with
  | nil => simp [toNat]
  | append_singleton bytes b ih =>
      have last : b.toNat = 0 ↔ b = 0 := UInt8.toNat_inj (b := 0)
      simp only [toNat_append_singleton, List.forall_mem_append, List.forall_mem_singleton, ← ih, ← last]
      omega

theorem toNat_add_one_eq_modulus_iff (bytes : List UInt8) :
    toNat bytes + 1 = modulus bytes.length ↔ ∀ b ∈ bytes, b = 0xFF := by
  induction bytes using List.reverseRecOn with
  | nil => simp [toNat]
  | append_singleton bytes b ih =>
      have last : b.toNat = 255 ↔ b = 0xFF := UInt8.toNat_inj (b := 0xFF)
      have below := toNat_lt bytes
      have small := b.toNat_lt
      simp only [toNat_append_singleton, List.forall_mem_append, List.forall_mem_singleton, ← ih, ← last,
        List.length_append, List.length_singleton, modulus_succ]
      omega

/-- Bytes are read back from their number and their count. -/
theorem ofNat_toNat (bytes : List UInt8) : ofNat bytes.length (toNat bytes) = bytes := by
  induction bytes using List.reverseRecOn with
  | nil => rfl
  | append_singleton bytes b ih =>
      have last := b.toNat_lt
      have front : (toNat bytes * 256 + b.toNat) / 256 = toNat bytes := by omega
      have rest : (toNat bytes * 256 + b.toNat) % 256 = b.toNat := by omega
      rw [toNat_append_singleton, List.length_append, List.length_singleton, ofNat, front, rest, ih,
        UInt8.ofNat_toNat]

theorem Block.bytes_of_toNat {size : Nat} (b : Block size) : Bytes.ofNat size b.toNat = b.bytes := by
  have read := ofNat_toNat b.bytes
  rw [b.length_eq] at read
  exact read

theorem Block.ofNat_toNat {size : Nat} (b : Block size) : Block.ofNat size b.toNat = b :=
  Block.ext_bytes b.bytes_of_toNat

theorem Block.toNat_lt {size : Nat} (b : Block size) : b.toNat < modulus size := by
  have bound := Bytes.toNat_lt b.bytes
  rw [b.length_eq] at bound
  exact bound

/-! ## Zeros in front -/

theorem toNat_replicate_append (count : Nat) (bytes : List UInt8) :
    toNat (List.replicate count 0 ++ bytes) = toNat bytes := by
  induction count with
  | zero => rfl
  | succ count ih => simpa [toNat, List.replicate_succ] using ih

theorem replicate_append_ofNat (count : Nat) {size n : Nat} (fits : n < modulus size) :
    List.replicate count 0 ++ ofNat size n = ofNat (count + size) n := by
  -- Both have the same number and the same count.
  have number : toNat (List.replicate count 0 ++ ofNat size n) = n := by
    rw [toNat_replicate_append, toNat_ofNat, Nat.mod_eq_of_lt fits]
  have read := ofNat_toNat (List.replicate count 0 ++ ofNat size n)
  rw [number, List.length_append, List.length_replicate, length_ofNat] at read
  exact read.symm

/-! ## As few bytes as there may be -/

theorem length_minimal (n : Nat) : (minimal n).length = n.log2 / 8 + 1 :=
  length_ofNat _ _

theorem lt_modulus_minimal (n : Nat) : n < modulus (n.log2 / 8 + 1) := by
  rw [modulus_eq_two_pow]
  exact Nat.lt_of_lt_of_le Nat.lt_log2_self (Nat.pow_le_pow_right (by decide) (by omega))

theorem toNat_minimal (n : Nat) : toNat (minimal n) = n := by
  rw [minimal, toNat_ofNat, Nat.mod_eq_of_lt (lt_modulus_minimal n)]

theorem length_minimal_le {n size : Nat} (pos : 0 < size) (fits : n < modulus size) :
    (minimal n).length ≤ size := by
  rw [length_minimal]
  by_cases zero : n = 0
  · simp [zero]
    omega
  · rw [modulus_eq_two_pow] at fits
    have bits := (Nat.log2_lt zero).2 fits
    omega

/-- Bytes that do not begin with a zero are the least ones of their number. -/
theorem minimal_toNat {lead : UInt8} {rest : List UInt8} (nonzero : lead ≠ 0) :
    minimal (toNat (lead :: rest)) = lead :: rest := by
  have most := toNat_lt (lead :: rest)
  have least : modulus rest.length ≤ toNat (lead :: rest) := by
    have digit : 0 < lead.toNat := Nat.pos_of_ne_zero fun zero => nonzero (UInt8.toNat_inj.1 zero)
    have split := toNat_append [lead] rest
    have single : toNat [lead] = lead.toNat := by simp [toNat]
    rw [single, List.singleton_append] at split
    rw [split]
    exact Nat.le_trans (Nat.le_mul_of_pos_left _ digit) (Nat.le_add_right _ _)
  have short := length_minimal_le (Nat.zero_lt_succ _) most
  have long := Nat.lt_of_le_of_lt least (lt_modulus_minimal (toNat (lead :: rest)))
  rw [modulus_eq_two_pow, modulus_eq_two_pow, Nat.pow_lt_pow_iff_right (by decide)] at long
  rw [length_minimal] at short
  have count : (toNat (lead :: rest)).log2 / 8 + 1 = (lead :: rest).length := by
    rw [List.length_cons]
    omega
  rw [minimal, count, ofNat_toNat]

/-- With zeros before them, the least bytes of a number fill any size that holds it. -/
theorem replicate_append_minimal {n size : Nat} (pos : 0 < size) (fits : n < modulus size) :
    List.replicate (size - (minimal n).length) 0 ++ minimal n = ofNat size n := by
  have short := length_minimal_le pos fits
  rw [length_minimal] at short ⊢
  rw [minimal, replicate_append_ofNat _ (lt_modulus_minimal n), Nat.sub_add_cancel short]

end Bytes
end TokenSchema
