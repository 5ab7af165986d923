import Mathlib.Algebra.Order.Group.Nat
import Mathlib.Data.Nat.Bitwise
import Mathlib.Order.Bounds.Basic
import TokenSchema.Attribute.Basic

/-!
# Masks — values of an attribute and their places in the token id

An attribute is shifted as far as its mask is zero at the low end, or not at all, so the mask is the span of the values
moved to their place (`Attribute.span_shiftLeft`). Taking a value from its place and putting it back gives the masked
bits of the token id (`Attribute.insert_extract`); the other way round, a value loses the bits that the
attribute cannot have (`Attribute.extract_insert`). All of this holds of any mask, however wide and with gaps or
without (`Attribute.insert_extract_and_extract_insert`).

The shift itself has a limit: it is a number of 32 bits. A mask that begins further up is left where it is
(`Attribute.bitshift_bitAt_far`).
-/

namespace TokenSchema

/-- The low end of a mask is empty up to its shift. -/
theorem two_pow_trailingZeros_dvd (mask : Nat) : 2 ^ trailingZeros mask ∣ mask := by
  fun_induction trailingZeros mask with
  | case1 mask low => simp
  | case2 mask high ih =>
      rw [not_or, Nat.mod_two_not_eq_one] at high
      rw [Nat.pow_succ']
      exact Nat.mul_dvd_of_dvd_div (Nat.dvd_of_mod_eq_zero high.2) ih

/-- No higher power of two divides a mask that is not empty. -/
theorem le_trailingZeros {mask s : Nat} (nonzero : mask ≠ 0) (divides : 2 ^ s ∣ mask) :
    s ≤ trailingZeros mask := by
  fun_induction trailingZeros mask generalizing s with
  | case1 mask low =>
      cases s with
      | zero => exact Nat.le_refl 0
      | succ s =>
          -- A mask with its lowest bit set is odd.
          have even : 2 ∣ mask := Nat.dvd_trans ⟨2 ^ s, Nat.pow_succ'⟩ divides
          omega
  | case2 mask high ih =>
      cases s with
      | zero => exact Nat.zero_le _
      | succ s =>
          rw [Nat.pow_succ'] at divides
          exact Nat.succ_le_succ (ih (by omega) (Nat.dvd_div_of_mul_dvd divides))

/-- As many zeros stand at the low end of a mask as the highest power of two that divides it says. -/
theorem isGreatest_trailingZeros {mask : Nat} (nonzero : mask ≠ 0) :
    IsGreatest {s | 2 ^ s ∣ mask} (trailingZeros mask) :=
  ⟨two_pow_trailingZeros_dvd mask, fun _ divides => le_trailingZeros nonzero divides⟩

theorem maskShift_eq (mask : Nat) :
    maskShift mask = if trailingZeros mask < 2 ^ 32 then trailingZeros mask else 0 :=
  rfl

theorem maskShift_le (mask : Nat) : maskShift mask ≤ trailingZeros mask := by
  rw [maskShift_eq]
  split
  · exact Nat.le_refl _
  · exact Nat.zero_le _

namespace Attribute

variable (a : Attribute)

/-- The bits that a value of the attribute can have. -/
def span : Nat :=
  a.bitmask >>> a.bitshift

theorem two_pow_bitshift_dvd : 2 ^ a.bitshift ∣ a.bitmask :=
  Nat.dvd_trans (Nat.pow_dvd_pow 2 (maskShift_le a.bitmask)) (two_pow_trailingZeros_dvd a.bitmask)

theorem span_shiftLeft : a.span <<< a.bitshift = a.bitmask := by
  rw [span, Nat.shiftRight_eq_div_pow, Nat.shiftLeft_eq]
  exact Nat.div_mul_cancel a.two_pow_bitshift_dvd

/-- A value is put at its place without the bits that the attribute cannot have. -/
theorem insert_eq (value : Nat) : a.insert value = (value &&& a.span) <<< a.bitshift := by
  rw [insert, Nat.shiftLeft_and_distrib, a.span_shiftLeft]

theorem extract_eq (tokenId : Nat) : a.extract tokenId = (tokenId >>> a.bitshift) &&& a.span := by
  rw [extract, span, Nat.shiftRight_and_distrib]

/-- What stands at the place of a value stays inside the mask. -/
@[simp] theorem insert_and_bitmask (value : Nat) : a.insert value &&& a.bitmask = a.insert value := by
  rw [insert, Nat.and_assoc, Nat.and_self]

/-- A value that is taken has no bits that the attribute cannot have. -/
@[simp] theorem extract_and_span (tokenId : Nat) :
    a.extract tokenId &&& a.span = a.extract tokenId := by
  rw [extract_eq, Nat.and_assoc, Nat.and_self]

@[simp] theorem extract_insert (value : Nat) : a.extract (a.insert value) = value &&& a.span := by
  rw [extract, insert_and_bitmask, insert_eq, Nat.shiftLeft_shiftRight]

@[simp] theorem insert_extract (tokenId : Nat) :
    a.insert (a.extract tokenId) = tokenId &&& a.bitmask := by
  -- The masked bits end where the mask ends, so nothing is lost by the two shifts.
  have aligned : 2 ^ a.bitshift ∣ tokenId &&& a.bitmask := by
    rw [Nat.dvd_iff_mod_eq_zero, ← Nat.and_two_pow_sub_one_eq_mod, Nat.and_assoc,
      Nat.and_two_pow_sub_one_eq_mod, Nat.mod_eq_zero_of_dvd a.two_pow_bitshift_dvd, Nat.and_zero]
  calc a.insert (a.extract tokenId)
      = a.extract tokenId <<< a.bitshift := by rw [insert_eq, extract_and_span]
    _ = (tokenId &&& a.bitmask) / 2 ^ a.bitshift * 2 ^ a.bitshift := by
        rw [extract, Nat.shiftRight_eq_div_pow, Nat.shiftLeft_eq]
    _ = tokenId &&& a.bitmask := Nat.div_mul_cancel aligned

/-- Two values have one place if they agree on the bits that the attribute can have. -/
theorem insert_eq_insert_iff {value value' : Nat} :
    a.insert value = a.insert value' ↔ value &&& a.span = value' &&& a.span := by
  constructor
  · intro same
    rw [← extract_insert, same, extract_insert]
  · intro same
    rw [insert_eq, same, ← insert_eq]

/-- A value comes back as it was if it has no bits that the attribute cannot have. -/
theorem extract_insert_eq_self_iff (value : Nat) :
    a.extract (a.insert value) = value ↔
      ∀ i, value.testBit i = true → a.span.testBit i = true := by
  rw [extract_insert]
  constructor
  · intro same i set
    rw [← same, Nat.testBit_and, Bool.and_eq_true] at set
    exact set.2
  · intro inside
    apply Nat.eq_of_testBit_eq
    intro i
    rw [Nat.testBit_and]
    cases set : value.testBit i with
    | false => rfl
    | true => exact inside i set

theorem bitshift_of_empty (empty : a.bitmask = 0) : a.bitshift = 0 := by
  have zeros : trailingZeros 0 = 0 := by
    rw [trailingZeros, if_pos (.inl rfl)]
  rw [bitshift, empty, maskShift_eq, zeros]
  rfl

/-- For every mask, with gaps or without, and as wide as it may be: what is taken from a token id and put back is the
masked part of the token id; a value that is put at its place and taken again keeps the bits that the attribute can
have, and so is the same exactly if it has no others. The shift is as far as the mask is divided by powers of two, if
this is a number of 32 bits; otherwise there is none, as for the empty mask. -/
theorem insert_extract_and_extract_insert (tokenId value : Nat) :
    a.insert (a.extract tokenId) = tokenId &&& a.bitmask ∧
      a.extract (a.insert value) = value &&& (a.bitmask >>> a.bitshift) ∧
      (a.extract (a.insert value) = value ↔
        ∀ i, value.testBit i = true → (a.bitmask >>> a.bitshift).testBit i = true) ∧
      (a.bitmask = 0 → a.bitshift = 0) ∧
      (a.bitmask ≠ 0 →
        ∃ s, IsGreatest {s | 2 ^ s ∣ a.bitmask} s ∧ a.bitshift = if s < 2 ^ 32 then s else 0) :=
  ⟨a.insert_extract tokenId, a.extract_insert value, a.extract_insert_eq_self_iff value,
    a.bitshift_of_empty, fun nonzero =>
      ⟨trailingZeros a.bitmask, isGreatest_trailingZeros nonzero, maskShift_eq a.bitmask⟩⟩

/-- An attribute whose mask has a gap. -/
def gapped : Attribute :=
  { Attribute.ofName "grade" with bitmask := 0x50 }

/-- The gap is passed over by a value of five, and takes a bit from a value of three. -/
theorem insert_extract_and_extract_insert_gapped :
    gapped.bitmask ≠ 0 ∧ IsGreatest {s | 2 ^ s ∣ gapped.bitmask} 4 ∧
      gapped.extract (gapped.insert 5) = 5 ∧ gapped.extract (gapped.insert 3) = 1 ∧
      gapped.insert (gapped.extract 0xFF) = 0x50 := by
  have nonzero : gapped.bitmask ≠ 0 := by decide
  have shift : gapped.bitshift = 4 := by simp [bitshift, maskShift, gapped, trailingZeros]
  have span : gapped.bitmask >>> gapped.bitshift = 5 := by
    rw [shift]
    rfl
  obtain ⟨taken, five, -, -, shifted⟩ := gapped.insert_extract_and_extract_insert 0xFF 5
  obtain ⟨-, three, -⟩ := gapped.insert_extract_and_extract_insert 0xFF 3
  obtain ⟨s, greatest, within⟩ := shifted nonzero
  have four : s = 4 := by
    rw [shift] at within
    split at within
    · exact within.symm
    · cases within
  rw [span] at five three
  exact ⟨nonzero, four ▸ greatest, five, three, taken⟩

/-! ## Beyond the limit -/

/-- An attribute of one bit of the token id. -/
def bitAt (place : Nat) : Attribute :=
  { Attribute.ofName "flag" with bitmask := 2 ^ place }

theorem isGreatest_bitAt (place : Nat) : IsGreatest {s | 2 ^ s ∣ (bitAt place).bitmask} place :=
  ⟨Nat.dvd_refl (2 ^ place), fun _ divides => (Nat.pow_dvd_pow_iff_le_right Nat.one_lt_two).1 divides⟩

theorem bitshift_bitAt (place : Nat) : (bitAt place).bitshift = if place < 2 ^ 32 then place else 0 := by
  have zeros : trailingZeros (bitAt place).bitmask = place :=
    (isGreatest_trailingZeros (Nat.pos_iff_ne_zero.1 (Nat.two_pow_pos place))).unique (isGreatest_bitAt place)
  rw [bitshift, maskShift_eq, zeros]

/-- The first bit whose place is not a number of 32 bits is the lowest of its mask, but the values of the mask are not
moved there: the shift is none, and not as far as powers of two divide the mask. -/
theorem bitshift_bitAt_far :
    IsGreatest {s | 2 ^ s ∣ (bitAt (2 ^ 32)).bitmask} (2 ^ 32) ∧ (bitAt (2 ^ 32)).bitshift = 0 ∧
      ¬ IsGreatest {s | 2 ^ s ∣ (bitAt (2 ^ 32)).bitmask} (bitAt (2 ^ 32)).bitshift := by
  have greatest := isGreatest_bitAt (2 ^ 32)
  have unshifted : (bitAt (2 ^ 32)).bitshift = 0 := (bitshift_bitAt _).trans (if_neg (Nat.lt_irrefl _))
  refine ⟨greatest, unshifted, ?_⟩
  rw [unshifted]
  intro none
  exact absurd (greatest.unique none) (by decide)

end Attribute

end TokenSchema
