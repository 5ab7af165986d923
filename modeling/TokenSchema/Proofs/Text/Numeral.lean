import Mathlib.Algebra.Group.Nat.Defs
import TokenSchema.Text.Blank
import TokenSchema.Text.Numeral

/-!
# Numerals — decimal texts are read back

The decimal form of a number is made of digits alone. So the bounded and the unbounded reader both give
the number back (`digitsOnly?_toDigits`, `integer?_signedDecimal`), cutting blanks from it changes nothing
(`trim_decimal`), and no two numbers have the same digits (`toDigits_injective`).
-/

namespace TokenSchema
namespace Text

variable {cs : List Char} {c : Char} {n : Nat}

/-! ## Digits -/

theorem isDigit_iff : isDigit c = true ↔ 48 ≤ c.toNat ∧ c.toNat ≤ 57 := by
  have order : ∀ a b : Char, a ≤ b ↔ a.toNat ≤ b.toNat := fun _ _ => Iff.rfl
  simp only [isDigit, Bool.and_eq_true, decide_eq_true_eq, order]
  rfl

theorem isDigit_of_mem_toDigits (h : c ∈ Nat.toDigits 10 n) : isDigit c = true := by
  have digit := Nat.isDigit_of_mem_toDigits (by decide) (by decide) h
  simp only [Char.isDigit, Bool.and_eq_true, decide_eq_true_eq, ge_iff_le, UInt32.le_iff_toNat_le]
    at digit
  exact isDigit_iff.2 digit

theorem isBlank_of_isDigit (h : isDigit c = true) : isBlank c = false := by
  have range := isDigit_iff.1 h
  rw [← Bool.not_eq_true]
  intro blank
  simp only [isBlank, Bool.or_eq_true, Bool.and_eq_true, decide_eq_true_eq, beq_iff_eq] at blank
  omega

theorem ne_of_isDigit {d : Char} (h : isDigit c = true) (other : isDigit d = false) : c ≠ d := by
  rintro rfl
  rw [h] at other
  cases other

/-- A hexadecimal text after its mark is not made of digits alone. -/
theorem ne_hexMark (digits : ∀ c ∈ cs, isDigit c = true) (rest : List Char) :
    cs ≠ '0' :: 'x' :: rest := by
  rintro rfl
  exact ne_of_isDigit (digits 'x' (by simp)) (d := 'x') rfl rfl

/-! ## Reading -/

theorem digitValue?_of_isDigit (h : isDigit c = true) : digitValue? c = some (decimalValue c) := by
  have range := isDigit_iff.1 h
  simp [digitValue?, decimalValue, range]

theorem looseDigits?_of_digits (digits : ∀ c ∈ cs, isDigit c = true) :
    looseDigits? 10 cs = some (cs.map decimalValue) := by
  induction cs with
  | nil => rfl
  | cons c rest ih =>
      have first := digits c List.mem_cons_self
      have others := ih fun d member => digits d (List.mem_cons_of_mem c member)
      have range := isDigit_iff.1 first
      have small : decimalValue c < 10 := by
        simp only [decimalValue]
        omega
      have noLine := ne_of_isDigit first (d := '_') rfl
      rw [looseDigits?.eq_3 10 c rest (by simpa using noLine)]
      simp [digitValue?_of_isDigit first, small, others]

theorem naturalChars?_of_digits (digits : ∀ c ∈ cs, isDigit c = true) (nonempty : cs ≠ []) :
    naturalChars? 10 cs = some (ofDecimalDigits cs) := by
  cases cs with
  | nil => exact absurd rfl nonempty
  | cons c rest =>
      have first := digits c List.mem_cons_self
      have noSign := ne_of_isDigit first (d := '+') rfl
      have noLine := ne_of_isDigit first (d := '_') rfl
      simp only [naturalChars?]
      split
      · simp_all
      · simp_all
      · split
        · simp_all
        · simp_all
        · rw [looseDigits?_of_digits digits]
          rfl

/-! ## Writing and reading -/

theorem ofDecimalDigits_eq (cs : List Char) : ofDecimalDigits cs = Nat.ofDigitChars 10 cs 0 := by
  have fold : ∀ start, (cs.map decimalValue).foldl (fun acc d => acc * 10 + d) start =
      Nat.ofDigitChars 10 cs start := by
    induction cs with
    | nil => intro start; rfl
    | cons c rest ih =>
        intro start
        rw [Nat.ofDigitChars_cons, ← ih, Nat.mul_comm 10 start]
        rfl
  exact fold 0

theorem ofDecimalDigits_append (cs ds : List Char) :
    ofDecimalDigits (cs ++ ds) = ofDecimalDigits cs * 10 ^ ds.length + ofDecimalDigits ds := by
  simp only [ofDecimalDigits_eq]
  rw [Nat.ofDigitChars_append, Nat.ofDigitChars_eq_ofDigitChars_zero, Nat.mul_comm]

theorem ofDecimalDigits_append_zeros (cs : List Char) (n : Nat) :
    ofDecimalDigits (cs ++ List.replicate n '0') = ofDecimalDigits cs * 10 ^ n := by
  simp only [ofDecimalDigits_eq]
  rw [Nat.ofDigitChars_append, Nat.ofDigitChars_replicate_zero, Nat.mul_comm]

@[simp] theorem ofDecimalDigits_toDigits (n : Nat) : ofDecimalDigits (Nat.toDigits 10 n) = n := by
  rw [ofDecimalDigits_eq, Nat.ofDigitChars_ten_toDigits]

@[simp] theorem digitsOnly?_toDigits (n : Nat) : digitsOnly? (Nat.toDigits 10 n) = some n := by
  have digits : (Nat.toDigits 10 n).all isDigit = true :=
    List.all_eq_true.2 fun _ member => isDigit_of_mem_toDigits member
  simp [digitsOnly?, digits]

theorem toList_decimal (n : Nat) : (decimal n).toList = Nat.toDigits 10 n := by
  simp [decimal]

theorem toList_signedDecimal (z : Int) :
    (signedDecimal z).toList =
      if z < 0 then '-' :: Nat.toDigits 10 z.natAbs else Nat.toDigits 10 z.natAbs := by
  unfold signedDecimal
  split <;> simp [toList_decimal]

theorem integer?_of_digits (digits : ∀ c ∈ cs, isDigit c = true) (nonempty : cs ≠ []) :
    integer? (String.ofList cs) = some (ofDecimalDigits cs : Int) ∧
      integer? (String.ofList ('-' :: cs)) = some (-(ofDecimalDigits cs : Int)) := by
  have read := naturalChars?_of_digits digits nonempty
  -- The first character decides which form is read.
  cases cs with
  | nil => exact absurd rfl nonempty
  | cons c rest =>
      have first := digits c List.mem_cons_self
      have noMinus := ne_of_isDigit first (d := '-') rfl
      have noPlus := ne_of_isDigit first (d := '+') rfl
      constructor
      · have form : integer? (String.ofList (c :: rest)) =
            (naturalChars? 10 (c :: rest)).map Int.ofNat := by
          simp only [integer?, String.toList_ofList]
          split <;> simp_all
        rw [form, read]
        rfl
      · have form : integer? (String.ofList ('-' :: c :: rest)) =
            (naturalChars? 10 (c :: rest)).map fun n => -(n : Int) := by
          simp only [integer?, String.toList_ofList]
          split <;> simp_all
        rw [form, read]
        rfl

/-- The decimal form of an integer is read as that integer. -/
theorem integer?_signedDecimal (z : Int) : integer? (signedDecimal z) = some z := by
  have digits : ∀ c ∈ Nat.toDigits 10 z.natAbs, isDigit c = true :=
    fun _ => isDigit_of_mem_toDigits
  obtain ⟨positive, negative⟩ := integer?_of_digits digits Nat.toDigits_ne_nil
  rw [ofDecimalDigits_toDigits] at positive negative
  rw [← String.ofList_toList (s := signedDecimal z), toList_signedDecimal]
  split
  · rw [negative]
    congr 1
    omega
  · rw [positive]
    congr 1
    omega

/-! ## Cutting blanks -/

theorem trimChars_of_noBlank (noBlank : ∀ c ∈ cs, isBlank c = false) : trimChars cs = cs := by
  have front : ∀ ds : List Char, (∀ c ∈ ds, isBlank c = false) → ds.dropWhile isBlank = ds := by
    intro ds noBlank
    cases ds with
    | nil => rfl
    | cons c rest => simp [List.dropWhile, noBlank c List.mem_cons_self]
  simp only [trimChars, stripChars, dropEndWhile, front cs noBlank]
  rw [front cs.reverse fun c member => noBlank c (List.mem_reverse.1 member), List.reverse_reverse]

theorem trimChars_of_digits (digits : ∀ c ∈ cs, isDigit c = true) : trimChars cs = cs :=
  trimChars_of_noBlank fun c member => isBlank_of_isDigit (digits c member)

@[simp] theorem trim_decimal (n : Nat) : trim (decimal n) = decimal n := by
  rw [trim, toList_decimal, trimChars_of_digits fun _ => isDigit_of_mem_toDigits, decimal]

theorem toDigits_injective : Function.Injective (Nat.toDigits 10) := by
  intro m n same
  calc
    m = ofDecimalDigits (Nat.toDigits 10 m) := (ofDecimalDigits_toDigits m).symm
    _ = ofDecimalDigits (Nat.toDigits 10 n) := by rw [same]
    _ = n := ofDecimalDigits_toDigits n

end Text
end TokenSchema
