import TokenSchema.Proofs.Text.Integer

/-!
# Digits — decimal numbers of a fixed count, and bounded numbers

Digits are told by their number and their count (`eq_of_ofDecimalDigits_eq`). So a number that is filled up with zeros
to the count of the digits from which it was read gives these digits again (`IsDecimal.decimalPadded_eq`). A bounded
number is read from digits after one sign or none (`unsigned?_eq_some_iff`, `isDigit_of_mem_tail`).
-/

namespace TokenSchema
namespace Text

variable {c : Char} {cs ds : List Char} {s : String} {width max n : Nat}

/-! ## Filling up -/

theorem toList_decimalPadded (width n : Nat) :
    (decimalPadded width n).toList =
      List.replicate (width - (Nat.toDigits 10 n).length) '0' ++ Nat.toDigits 10 n :=
  String.toList_ofList

theorem isDigit_of_mem_decimalPadded (member : c ∈ (decimalPadded width n).toList) : isDigit c = true := by
  rw [toList_decimalPadded] at member
  rcases List.mem_append.1 member with zero | digit
  · obtain ⟨-, rfl⟩ := List.mem_replicate.1 zero
    rfl
  · exact isDigit_of_mem_toDigits digit

/-- Zeros in front do not count. -/
theorem ofDecimalDigits_decimalPadded (width n : Nat) : ofDecimalDigits (decimalPadded width n).toList = n := by
  have zeros (k : Nat) : ofDecimalDigits (List.replicate k '0') = 0 := by
    have counted := ofDecimalDigits_append_zeros [] k
    rwa [show ofDecimalDigits [] = 0 from rfl, Nat.zero_mul] at counted
  rw [toList_decimalPadded, ofDecimalDigits_append, zeros, Nat.zero_mul, Nat.zero_add, ofDecimalDigits_toDigits]

/-- A number that is small enough is filled up to the width and no further. -/
theorem length_decimalPadded (pos : 0 < width) (fits : n < 10 ^ width) :
    (decimalPadded width n).toList.length = width := by
  have short : (Nat.toDigits 10 n).length ≤ width := (Nat.length_toDigits_le_iff (by decide) pos).2 fits
  rw [toList_decimalPadded, List.length_append, List.length_replicate, Nat.sub_add_cancel short]

/-! ## Digits and their number -/

theorem ascii_of_isDigit (digit : isDigit c = true) : c.toNat < 128 := by
  have range := isDigit_iff.1 digit
  omega

theorem ofDecimalDigits_lt (digits : ∀ c ∈ cs, isDigit c = true) : ofDecimalDigits cs < 10 ^ cs.length := by
  have small : ∀ d ∈ cs.map decimalValue, d < 10 := by
    intro d member
    obtain ⟨c, inside, rfl⟩ := List.mem_map.1 member
    have range := isDigit_iff.1 (digits c inside)
    simp only [decimalValue]
    omega
  have bound := ofDigits_lt small
  rwa [List.length_map] at bound

theorem ofDecimalDigits_cons (c : Char) (cs : List Char) :
    ofDecimalDigits (c :: cs) = decimalValue c * 10 ^ cs.length + ofDecimalDigits cs := by
  have single : ofDecimalDigits [c] = decimalValue c := by simp [ofDecimalDigits, ofDigits]
  rw [← single, ← ofDecimalDigits_append]
  rfl

theorem eq_of_decimalValue_eq {d : Char} (first : isDigit c = true) (second : isDigit d = true)
    (same : decimalValue c = decimalValue d) : c = d := by
  rw [isDigit_iff] at first second
  simp only [decimalValue] at same
  rw [← Char.toNat_inj]
  omega

/-- Of so many digits, each number has one list. -/
theorem eq_of_ofDecimalDigits_eq (first : ∀ c ∈ cs, isDigit c = true) (second : ∀ c ∈ ds, isDigit c = true)
    (count : cs.length = ds.length) (same : ofDecimalDigits cs = ofDecimalDigits ds) : cs = ds := by
  induction cs generalizing ds with
  | nil => exact (List.length_eq_zero_iff.1 count.symm).symm
  | cons c cs ih =>
      cases ds with
      | nil => cases count
      | cons d ds =>
          obtain ⟨digit, others⟩ := List.forall_mem_cons.1 first
          obtain ⟨digit', others'⟩ := List.forall_mem_cons.1 second
          have counts : cs.length = ds.length := Nat.succ.inj count
          have small := ofDecimalDigits_lt others
          have small' := ofDecimalDigits_lt others'
          rw [ofDecimalDigits_cons, ofDecimalDigits_cons, counts] at same
          rw [counts] at small
          -- The first digit is the quotient by the power of ten, and the others are the remainder.
          have quotient : decimalValue c = decimalValue d := by
            have quotients := congrArg (· / 10 ^ ds.length) same
            simpa [Nat.mul_comm, Nat.mul_add_div (Nat.pow_pos _), Nat.div_eq_of_lt small,
              Nat.div_eq_of_lt small'] using quotients
          rw [quotient] at same
          rw [eq_of_decimalValue_eq digit digit' quotient, ih others others' counts (Nat.add_left_cancel same)]

/-- Decimal digits alone, and the number that they stand for. -/
structure IsDecimal (cs : List Char) (n : Nat) : Prop where
  nonempty : cs ≠ []
  digits : ∀ c ∈ cs, isDigit c = true
  number : ofDecimalDigits cs = n

namespace IsDecimal

variable (decimal : IsDecimal cs n)

include decimal

theorem notMem (foreign : isDigit c = false) : c ∉ cs := fun member =>
  ne_of_isDigit (decimal.digits c member) foreign rfl

theorem lt_pow : n < 10 ^ cs.length :=
  decimal.number ▸ ofDecimalDigits_lt decimal.digits

/-- Filled up to their count, a number gives the digits from which it was read. -/
theorem decimalPadded_eq : decimalPadded cs.length n = String.ofList cs := by
  have count := length_decimalPadded (List.length_pos_iff.2 decimal.nonempty) decimal.lt_pow
  have number := ofDecimalDigits_decimalPadded cs.length n
  rw [← decimal.number] at number count ⊢
  have same := eq_of_ofDecimalDigits_eq (fun _ => isDigit_of_mem_decimalPadded) decimal.digits count number
  rw [← String.toList_inj, same, String.toList_ofList]

end IsDecimal

theorem isDecimal_decimalPadded (pos : 0 < width) (fits : n < 10 ^ width) :
    IsDecimal (decimalPadded width n).toList n where
  nonempty := List.length_pos_iff.1 (by rwa [length_decimalPadded pos fits])
  digits _ := isDigit_of_mem_decimalPadded
  number := ofDecimalDigits_decimalPadded width n

/-! ## Bounded numbers -/

theorem digitsOnly?_eq_some_iff : digitsOnly? cs = some n ↔ IsDecimal cs n := by
  simp only [digitsOnly?]
  split
  · rename_i foreign
    refine ⟨fun read => absurd read.symm (Option.some_ne_none n), fun decimal => ?_⟩
    rw [Bool.or_eq_true, List.isEmpty_iff, Bool.not_eq_true', ← Bool.not_eq_true, List.all_eq_true] at foreign
    exact absurd foreign (not_or.2 ⟨decimal.nonempty, not_not.2 decimal.digits⟩)
  · rename_i clean
    rw [Bool.or_eq_true, not_or, List.isEmpty_iff, Bool.not_eq_true', Bool.not_eq_false, List.all_eq_true] at clean
    exact ⟨fun read => ⟨clean.1, clean.2, Option.some.inj read⟩, fun decimal => congrArg some decimal.number⟩

/-- Decimal digits, after a `+` or after nothing. -/
def IsUnsigned (cs : List Char) (n : Nat) : Prop :=
  IsDecimal cs n ∨ ∃ digits, cs = '+' :: digits ∧ IsDecimal digits n

theorem unsigned?_eq_some_iff : unsigned? max s = some n ↔ IsUnsigned s.toList n ∧ n ≤ max := by
  simp only [unsigned?, Option.filter_eq_some_iff, decide_eq_true_eq]
  refine and_congr_left' ?_
  split
  · rename_i rest signed
    rw [digitsOnly?_eq_some_iff, signed]
    refine ⟨fun decimal => .inr ⟨rest, rfl, decimal⟩, ?_⟩
    rintro (decimal | ⟨digits, same, decimal⟩)
    · exact absurd List.mem_cons_self (decimal.notMem rfl)
    · rwa [(List.cons.inj same).2]
  · rename_i unsigned
    rw [digitsOnly?_eq_some_iff]
    refine ⟨.inl, ?_⟩
    rintro (decimal | ⟨digits, signed, -⟩)
    · exact decimal
    · exact absurd signed (unsigned digits)

namespace IsUnsigned

variable (number : IsUnsigned cs n)

include number

/-- A number without a `+` is its digits. -/
theorem isDecimal (free : '+' ∉ cs) : IsDecimal cs n := by
  rcases number with decimal | ⟨digits, rfl, -⟩
  · exact decimal
  · exact absurd List.mem_cons_self free

theorem isDigit_or_eq : ∀ c ∈ cs, isDigit c = true ∨ c = '+' := by
  intro c member
  rcases number with decimal | ⟨digits, rfl, decimal⟩
  · exact .inl (decimal.digits c member)
  · rcases List.mem_cons.1 member with rfl | member
    · exact .inr rfl
    · exact .inl (decimal.digits c member)

theorem ascii : ∀ c ∈ cs, c.toNat < 128 := by
  intro c member
  rcases number.isDigit_or_eq c member with digit | rfl
  · exact ascii_of_isDigit digit
  · decide

/-- A `+` takes the place of a digit. -/
theorem lt_pow : n < 10 ^ cs.length := by
  rcases number with decimal | ⟨digits, rfl, decimal⟩
  · exact decimal.lt_pow
  · exact Nat.lt_trans decimal.lt_pow (Nat.pow_lt_pow_right (by decide) (Nat.lt_succ_self _))

end IsUnsigned

/-- Behind its first character a signed number has digits only. -/
theorem isDigit_of_mem_tail {lo hi z : Int} (read : signed? lo hi s = some z) :
    ∀ c ∈ s.toList.tail, isDigit c = true := by
  simp only [signed?, Option.filter_eq_some_iff] at read
  obtain ⟨number, -⟩ := read
  have ofDigits {rest : List Char} {n : Nat} (read : digitsOnly? rest = some n) : ∀ c ∈ rest, isDigit c = true :=
    (digitsOnly?_eq_some_iff.1 read).digits
  split at number
  · rename_i rest signed
    obtain ⟨n, read, -⟩ := Option.map_eq_some_iff.1 number
    rw [signed]
    exact ofDigits read
  · rename_i rest signed
    obtain ⟨_, read, -⟩ := Option.map_eq_some_iff.1 number
    obtain ⟨n, read, -⟩ := Option.bind_eq_some_iff.1 read
    rw [signed]
    exact ofDigits read
  · obtain ⟨n, read, -⟩ := Option.map_eq_some_iff.1 number
    exact fun c member => ofDigits read c (List.mem_of_mem_tail member)

end Text
end TokenSchema
