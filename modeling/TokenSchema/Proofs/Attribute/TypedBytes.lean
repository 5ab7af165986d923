import TokenSchema.Attribute.Text
import TokenSchema.Proofs.Bytes.Minimal
import TokenSchema.Proofs.Text.Numeral
import TokenSchema.Proofs.Text.Utf8

/-!
# Typed bytes — what a number in hexadecimal is taken for without its mark

Bytes that are typed in become the hexadecimal digits of a number, without the mark that would tell them as such.
Where an argument is read, digits alone are taken for a decimal number, and digits with letters for the text that
they are. So a number of more than one decimal digit is taken for a smaller one or for a larger one, never for
itself (`Attribute.toNat_argumentBytes_typed_iff`).
-/

namespace TokenSchema

open TokenSchema.Bytes

/-! ## Hexadecimal digits -/

namespace Text

variable {c : Char} {n d : Nat}

theorem toDigits_sixteen_append (positive : 0 < n) (small : d < 16) :
    Nat.toDigits 16 (16 * n + d) = Nat.toDigits 16 n ++ [d.digitChar] := by
  rw [← Nat.toDigits_append_toDigits (by decide) positive small, Nat.toDigits_of_lt_base small]

/-- A number has a single hexadecimal digit, or a last one after the digits of another number. -/
@[elab_as_elim]
theorem sixteen_induction {motive : Nat → Prop} (single : ∀ d, d < 16 → motive d)
    (append : ∀ n d, 0 < n → d < 16 → motive n → motive (16 * n + d)) (n : Nat) : motive n := by
  induction n using Nat.strongRecOn with
  | ind n ih =>
      rcases Nat.lt_or_ge n 16 with small | large
      · exact single n small
      · have front := ih (n / 16) (by omega)
        have whole := append (n / 16) (n % 16) (by omega) (Nat.mod_lt n (by decide)) front
        rwa [Nat.div_add_mod] at whole

/-- The sixteen digits are characters of seven bits, no blanks and no mark. -/
theorem digitChar_of_lt : ∀ d < 16, isBlank d.digitChar = false ∧ d.digitChar ≠ 'x' ∧
    48 ≤ d.digitChar.toNat ∧ d.digitChar.toNat < 128 := by
  decide

theorem isDigit_digitChar_iff : ∀ d < 16, isDigit d.digitChar = true ↔ d < 10 := by
  decide

theorem decimalValue_digitChar : ∀ d < 10, decimalValue d.digitChar = d := by
  decide

theorem exists_digitChar_of_mem (member : c ∈ Nat.toDigits 16 n) : ∃ d < 16, c = d.digitChar := by
  induction n using sixteen_induction with
  | single d small =>
      rw [Nat.toDigits_of_lt_base small, List.mem_singleton] at member
      exact ⟨d, small, member⟩
  | append n d positive small ih =>
      rw [toDigits_sixteen_append positive small, List.mem_append, List.mem_singleton] at member
      rcases member with front | last
      · exact ih front
      · exact ⟨d, small, last⟩

/-- Read in decimal, hexadecimal digits give a smaller number, unless there is a single one. -/
theorem ofDecimalDigits_toDigits_sixteen (digits : ∀ c ∈ Nat.toDigits 16 n, isDigit c = true) :
    n < 10 ∧ ofDecimalDigits (Nat.toDigits 16 n) = n ∨
      10 ≤ n ∧ ofDecimalDigits (Nat.toDigits 16 n) < n := by
  have last (d : Nat) (low : d < 10) : ofDecimalDigits [d.digitChar] = d := by
    simp [ofDecimalDigits, ofDigits, decimalValue_digitChar d low]
  induction n using sixteen_induction with
  | single d small =>
      rw [Nat.toDigits_of_lt_base small] at digits ⊢
      have low := (isDigit_digitChar_iff d small).1 (digits _ List.mem_cons_self)
      exact .inl ⟨low, last d low⟩
  | append n d positive small ih =>
      rw [toDigits_sixteen_append positive small] at digits ⊢
      obtain ⟨front, back⟩ := List.forall_mem_append.1 digits
      have low := (isDigit_digitChar_iff d small).1 (back _ List.mem_cons_self)
      have read : ofDecimalDigits (Nat.toDigits 16 n ++ [d.digitChar]) =
          ofDecimalDigits (Nat.toDigits 16 n) * 10 + d := by
        rw [ofDecimalDigits_append, last d low, List.length_singleton, Nat.pow_one]
      rw [read]
      have before := ih front
      omega

/-- As text, hexadecimal digits are the bytes of a larger number. -/
theorem lt_toNat_encode_hexadecimal (n : Nat) : n < toNat (Utf8.encode (hexadecimal n)) := by
  have ascii : ∀ c ∈ (hexadecimal n).toList, c.toNat < 128 := by
    intro c member
    rw [hexadecimal, String.toList_ofList] at member
    obtain ⟨d, small, rfl⟩ := exists_digitChar_of_mem member
    exact (digitChar_of_lt d small).2.2.2
  rw [Utf8.encode_of_ascii ascii, hexadecimal, String.toList_ofList]
  clear ascii
  -- Every digit counts for 48 or more in base 256, and for less than sixteen in base sixteen.
  have code (d : Nat) (small : d < 16) : 48 ≤ (UInt8.ofNat d.digitChar.toNat).toNat := by
    obtain ⟨-, -, least, most⟩ := digitChar_of_lt d small
    rw [UInt8.toNat_ofNat_of_lt' (Nat.lt_trans most (by decide))]
    exact least
  induction n using sixteen_induction with
  | single d small =>
      have least := code d small
      rw [Nat.toDigits_of_lt_base small]
      simp only [List.map_cons, List.map_nil, Bytes.toNat, List.foldl_cons, List.foldl_nil]
      omega
  | append n d positive small ih =>
      have least := code d small
      rw [toDigits_sixteen_append positive small, List.map_append, List.map_singleton,
        toNat_append_singleton]
      omega

end Text

/-! ## Hexadecimal texts as arguments -/

theorem Text.trimChars_hexadecimal (n : Nat) :
    trimChars (hexadecimal n).toList = Nat.toDigits 16 n := by
  have noBlank : ∀ c ∈ Nat.toDigits 16 n, isBlank c = false := by
    intro c member
    obtain ⟨d, small, rfl⟩ := exists_digitChar_of_mem member
    exact (digitChar_of_lt d small).1
  rw [hexadecimal, String.toList_ofList, trimChars_of_noBlank noBlank]

/-- Without a mark, digits are taken for a decimal number, and digits with letters for a text. -/
theorem argumentBytes_hexadecimal (n : Nat) :
    argumentBytes (Text.hexadecimal n) =
      if (Nat.toDigits 16 n).all Text.isDigit then minimal (Text.ofDecimalDigits (Nat.toDigits 16 n))
      else Text.Utf8.encode (Text.hexadecimal n) := by
  have noMark : ∀ rest, Nat.toDigits 16 n ≠ '0' :: 'x' :: rest := by
    intro rest marked
    obtain ⟨d, small, mark⟩ := Text.exists_digitChar_of_mem (c := 'x') (n := n) (by simp [marked])
    exact (Text.digitChar_of_lt d small).2.1 mark.symm
  have some : (Nat.toDigits 16 n).isEmpty = false := by
    simp [Nat.toDigits_ne_nil]
  unfold argumentBytes
  rw [Text.trimChars_hexadecimal]
  split
  · rename_i rest marked
    exact absurd marked (noMark rest)
  · unfold Text.digitsOnly?
    rw [some, Bool.false_or]
    by_cases digits : (Nat.toDigits 16 n).all Text.isDigit = true
    · rw [digits]
      rfl
    · rw [if_neg digits, Bool.eq_false_iff.2 digits]
      rfl

namespace Attribute

variable {a : Attribute} {input : String}

theorem typed_of_bytes (kind : a.kind = .bytes) (nonempty : input ≠ "")
    (short : (argumentBytes input).length ≤ 32) :
    a.typed input = Text.hexadecimal (a.extract (toNat (argumentBytes input))) := by
  unfold typed
  simp only [nonempty, kind, short, if_true, if_false]

/-- Where an argument is read, the converted text is the number it was made from exactly if that has a single decimal
digit. Otherwise it is a smaller number if there are no letters among its hexadecimal digits, and a larger one if
there are. -/
theorem toNat_argumentBytes_typed_iff (kind : a.kind = .bytes) (nonempty : input ≠ "")
    (short : (argumentBytes input).length ≤ 32) :
    let value := a.extract (toNat (argumentBytes input))
    let taken := toNat (argumentBytes (a.typed input))
    (taken = value ↔ value < 10) ∧
      (10 ≤ value → (Nat.toDigits 16 value).all Text.isDigit = true → taken < value) ∧
      ((Nat.toDigits 16 value).all Text.isDigit = false → value < taken) := by
  intro value taken
  have read : taken = toNat (argumentBytes (Text.hexadecimal value)) := by
    rw [← typed_of_bytes kind nonempty short]
  rw [argumentBytes_hexadecimal] at read
  by_cases digits : (Nat.toDigits 16 value).all Text.isDigit = true
  · rw [if_pos digits, toNat_minimal] at read
    have decimal := Text.ofDecimalDigits_toDigits_sixteen (List.all_eq_true.1 digits)
    rw [← read] at decimal
    refine ⟨by omega, fun large _ => by omega, fun letters => ?_⟩
    rw [digits] at letters
    cases letters
  · have larger := Text.lt_toNat_encode_hexadecimal value
    rw [if_neg digits] at read
    rw [← read] at larger
    -- A single decimal digit is its own hexadecimal one, and no letter.
    have large : 10 ≤ value := by
      rw [← Nat.not_lt]
      intro low
      apply digits
      rw [Nat.toDigits_of_lt_base (by omega), List.all_cons, List.all_nil, Bool.and_true]
      exact (Text.isDigit_digitChar_iff value (by omega)).2 low
    exact ⟨by omega, fun _ all => absurd all digits, fun _ => larger⟩

end Attribute

/-! ## Two digits -/

namespace Badge

/-- Bytes that the user types in. -/
def badge : Attribute :=
  { Attribute.ofName "badge" with kind := .bytes, userInput := true }

/-- The second byte from the end of what is typed in. -/
def grade : Attribute :=
  { badge with bitmask := 0xff00 }

theorem extract_badge : badge.extract 0x10 = 0x10 := by
  have odd : wholeMask % 2 = 1 := by decide
  have zeros : trailingZeros wholeMask = 0 := by
    rw [trailingZeros, if_pos (.inr odd)]
  have unshifted : maskShift wholeMask = 0 := by
    rw [maskShift, zeros]
    rfl
  simp only [Attribute.extract, Attribute.bitshift, badge, Attribute.ofName, unshifted]
  decide

theorem extract_grade : grade.extract 0x1234 = 0x12 := by
  simp [Attribute.extract, Attribute.bitshift, maskShift, grade, trailingZeros]

/-- The byte `12` of `0x1234` is eighteen, and is taken for less. -/
theorem toNat_argumentBytes_typed_iff_grade :
    grade.kind = .bytes ∧ "0x1234" ≠ "" ∧ (argumentBytes "0x1234").length ≤ 32 ∧
      grade.extract (toNat (argumentBytes "0x1234")) = 0x12 ∧
      toNat (argumentBytes (grade.typed "0x1234")) < 0x12 := by
  have kind : grade.kind = .bytes := rfl
  have nonempty : "0x1234" ≠ "" := by decide
  have short : (argumentBytes "0x1234").length ≤ 32 := by decide
  have number : toNat (argumentBytes "0x1234") = 0x1234 := by decide
  have value : grade.extract (toNat (argumentBytes "0x1234")) = 0x12 := by
    rw [number, extract_grade]
  obtain ⟨-, smaller, -⟩ := Attribute.toNat_argumentBytes_typed_iff kind nonempty short
  rw [value] at smaller
  exact ⟨kind, nonempty, short, value, smaller (by decide) (by decide)⟩

/-- The sixteen of `0x10` becomes `10`, which is taken for ten. -/
theorem toNat_argumentBytes_typed_badge :
    (argumentBytes "0x10").length ≤ 32 ∧ badge.extract (toNat (argumentBytes "0x10")) = 16 ∧
      badge.typed "0x10" = "10" ∧ toNat (argumentBytes (badge.typed "0x10")) = 10 := by
  have short : (argumentBytes "0x10").length ≤ 32 := by decide
  have number : toNat (argumentBytes "0x10") = 0x10 := by decide
  have converted : badge.typed "0x10" = "10" := by
    rw [Attribute.typed_of_bytes rfl (by decide) short, number, extract_badge]
    decide
  refine ⟨short, by rw [number, extract_badge], converted, ?_⟩
  rw [converted]
  decide

end Badge

end TokenSchema
