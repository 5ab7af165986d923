import Mathlib.Data.List.Induction
import TokenSchema.Proofs.Text.Numeral
import TokenSchema.Text.Hex
import TokenSchema.Text.Lowercase

/-!
# Integers — the texts that are read as numbers

A number is read from digits with low lines between them and a sign before them (`integer?_eq_some`), and not from its
decimal form alone. A text that is read so (`IsNumeral`) has a few characters only (`IsNumeral.isNumeralChar_of_mem`)
and at least as many digits as its number (`IsNumeral.natAbs_lt`).
-/

namespace TokenSchema
namespace Text

variable {cs : List Char} {c : Char} {ds : List Nat} {s : String} {z : Int}

/-! ## Reading -/

theorem isDigit_of_digitValue? {d : Nat} (read : digitValue? c = some d) (small : d < 10) : isDigit c = true := by
  rw [isDigit_iff]
  grind [digitValue?]

/-- Loose digits are digits and low lines; as many numbers are read as there are digits. -/
theorem looseDigits?_eq_some (read : looseDigits? 10 cs = some ds) :
    (∀ c ∈ cs, isDigit c = true ∨ c = '_') ∧ ds.length = (cs.filter isDigit).length ∧ ∀ d ∈ ds, d < 10 := by
  fun_induction looseDigits? 10 cs generalizing ds with
  | case1 =>
      cases read
      simp
  | case2 rest ih =>
      obtain ⟨chars, count, small⟩ := ih read
      refine ⟨List.forall_mem_cons.2 ⟨.inr rfl, chars⟩, ?_, small⟩
      rw [count, List.filter_cons_of_neg (by decide)]
  | case3 c rest noLine ih =>
      cases digit : digitValue? c with
      | none =>
          rw [digit] at read
          cases read
      | some d =>
          simp only [digit, bind, Option.bind] at read
          split at read
          · rename_i below
            cases others : looseDigits? 10 rest with
            | none =>
                rw [others] at read
                cases read
            | some more =>
                rw [others] at read
                cases read
                obtain ⟨chars, count, small⟩ := ih others
                have first := isDigit_of_digitValue? digit below
                refine ⟨List.forall_mem_cons.2 ⟨.inl first, chars⟩, ?_, List.forall_mem_cons.2 ⟨below, small⟩⟩
                rw [List.filter_cons_of_pos first, List.length_cons, List.length_cons, count]
          · cases read

theorem ofDigits_lt (small : ∀ d ∈ ds, d < 10) : ofDigits 10 ds < 10 ^ ds.length := by
  induction ds using List.reverseRecOn with
  | nil => decide
  | append_singleton ds d ih =>
      obtain ⟨others, last⟩ := List.forall_mem_append.1 small
      have front := ih others
      have digit := last d List.mem_cons_self
      have step : ofDigits 10 (ds ++ [d]) = ofDigits 10 ds * 10 + d := by
        simp [ofDigits]
      rw [step, List.length_append, List.length_singleton, Nat.pow_succ]
      omega

/-- Loose digits that do not begin with a low line have a digit in front. -/
theorem exists_looseDigits {n : Nat} (nonempty : cs = [] → False) (noLine : ∀ rest, cs = '_' :: rest → False)
    (read : (looseDigits? 10 cs).map (ofDigits 10) = some n) :
    ∃ ds, looseDigits? 10 cs = some ds ∧ ds ≠ [] ∧ n = ofDigits 10 ds := by
  obtain ⟨ds, loose, number⟩ := Option.map_eq_some_iff.1 read
  obtain ⟨chars, count, -⟩ := looseDigits?_eq_some loose
  refine ⟨ds, loose, ?_, number.symm⟩
  cases cs with
  | nil => exact absurd rfl nonempty
  | cons c rest =>
      have digit : isDigit c = true := by
        refine (chars c List.mem_cons_self).resolve_right ?_
        rintro rfl
        exact noLine rest rfl
      rintro rfl
      simp [digit] at count

/-- A natural number is read from loose digits after a `+` or none, the first of them no low line. -/
theorem naturalChars?_eq_some {n : Nat} (read : naturalChars? 10 cs = some n) :
    ∃ front body ds, cs = front ++ body ∧ (∀ c ∈ front, c = '+') ∧ looseDigits? 10 body = some ds ∧ ds ≠ [] ∧
      n = ofDigits 10 ds := by
  unfold naturalChars? at read
  split at read
  · rename_i rest
    obtain ⟨ds, digits⟩ := @exists_looseDigits ('+' :: '+' :: rest) n nofun nofun read
    exact ⟨[], _, ds, rfl, nofun, digits⟩
  -- What is read is what follows the sign.
  · dsimp only at read
    split at read
    · cases read
    · cases read
    · rename_i nonempty noLine
      obtain ⟨ds, digits⟩ := exists_looseDigits nonempty noLine read
      exact ⟨['+'], _, ds, rfl, by simp, digits⟩
  · dsimp only at read
    split at read
    · cases read
    · cases read
    · rename_i nonempty noLine
      obtain ⟨ds, digits⟩ := exists_looseDigits nonempty noLine read
      exact ⟨[], _, ds, rfl, nofun, digits⟩

/-- An integer is read from loose digits after a sign or none. -/
theorem integer?_eq_some (read : integer? s = some z) :
    ∃ front body ds, s.toList = front ++ body ∧ (∀ c ∈ front, c = '+' ∨ c = '-') ∧
      looseDigits? 10 body = some ds ∧ ds ≠ [] ∧ z.natAbs = ofDigits 10 ds := by
  unfold integer? at read
  split at read
  · cases read
  · rename_i rest _ whole
    obtain ⟨n, natural, rfl⟩ : ∃ n, naturalChars? 10 rest = some n ∧ z = -(n : Int) := by
      cases natural : naturalChars? 10 rest with
      | none => simp [natural] at read
      | some n => exact ⟨n, rfl, by simpa [natural] using read.symm⟩
    obtain ⟨front, body, ds, rfl, signs, loose, nonempty, number⟩ := naturalChars?_eq_some natural
    refine ⟨'-' :: front, body, ds, whole, ?_, loose, nonempty, by simpa using number⟩
    exact List.forall_mem_cons.2 ⟨.inr rfl, fun c member => .inl (signs c member)⟩
  · obtain ⟨n, natural, rfl⟩ := Option.map_eq_some_iff.1 read
    obtain ⟨front, body, ds, whole, signs, loose, nonempty, number⟩ := naturalChars?_eq_some natural
    exact ⟨front, body, ds, whole, fun c member => .inl (signs c member), loose, nonempty, number⟩

/-! ## Numerals -/

/-- The characters that a numeral is made of. -/
def isNumeralChar (c : Char) : Bool :=
  isDigit c || c == '_' || c == '+' || c == '-'

theorem isNumeralChar_range (numeral : isNumeralChar c = true) :
    0 < c.toNat ∧ c.toNat < 128 ∧ ¬ (65 ≤ c.toNat ∧ c.toNat ≤ 90) := by
  simp only [isNumeralChar, Bool.or_eq_true, beq_iff_eq, isDigit_iff] at numeral
  rcases numeral with ((digit | rfl) | rfl) | rfl
  · omega
  all_goals decide

/-- A text without blanks around it that is read as a number. -/
structure IsNumeral (s : String) (z : Int) : Prop where
  trimmed : trimChars s.toList = s.toList
  read : integer? s = some z

namespace IsNumeral

theorem signedDecimal (z : Int) : IsNumeral (signedDecimal z) z where
  trimmed := by
    refine trimChars_of_noBlank fun c member => ?_
    rw [toList_signedDecimal] at member
    split at member
    · rcases List.mem_cons.1 member with rfl | digit
      · decide
      · exact isBlank_of_isDigit (isDigit_of_mem_toDigits digit)
    · exact isBlank_of_isDigit (isDigit_of_mem_toDigits member)
  read := integer?_signedDecimal z

variable (numeral : IsNumeral s z)

include numeral

theorem isNumeralChar_of_mem : ∀ c ∈ s.toList, isNumeralChar c = true := by
  obtain ⟨front, body, ds, whole, signs, loose, -⟩ := integer?_eq_some numeral.read
  obtain ⟨chars, -⟩ := looseDigits?_eq_some loose
  rw [whole]
  intro c member
  rcases List.mem_append.1 member with inFront | inBody
  · rcases signs c inFront with rfl | rfl <;> decide
  · rcases chars c inBody with digit | rfl
    · simp [isNumeralChar, digit]
    · decide

/-- A numeral has at least one digit, and its number has no more decimal digits than the numeral has. -/
theorem natAbs_lt : 0 < (s.toList.filter isDigit).length ∧ z.natAbs < 10 ^ (s.toList.filter isDigit).length := by
  obtain ⟨front, body, ds, whole, signs, loose, nonempty, number⟩ := integer?_eq_some numeral.read
  obtain ⟨-, count, small⟩ := looseDigits?_eq_some loose
  have noDigit : front.filter isDigit = [] := by
    rw [List.filter_eq_nil_iff]
    intro c member
    rcases signs c member with rfl | rfl <;> decide
  rw [whole, List.filter_append, noDigit, List.nil_append, ← count, number]
  exact ⟨List.length_pos_iff.2 nonempty, ofDigits_lt small⟩

/-- Digits alone are a number that is not below zero. -/
theorem of_digits (digits : s.toList.all isDigit = true) : z = (ofDecimalDigits s.toList : Int) := by
  have nonempty : s.toList ≠ [] := by
    intro empty
    have some := numeral.natAbs_lt.1
    simp [empty] at some
  have read := (integer?_of_digits (List.all_eq_true.1 digits) nonempty).1
  rw [String.ofList_toList, numeral.read] at read
  exact Option.some.inj read

theorem ascii : ∀ c ∈ s.toList, c.toNat < 128 := fun c member =>
  (isNumeralChar_range (numeral.isNumeralChar_of_mem c member)).2.1

theorem ne_hexMark (rest : List Char) {c : Char} (foreign : isNumeralChar c = false) : s.toList ≠ '0' :: c :: rest := by
  intro marked
  have char := numeral.isNumeralChar_of_mem c (by simp [marked])
  rw [foreign] at char
  cases char

theorem ne_empty : s ≠ "" := by
  rintro rfl
  have some := numeral.natAbs_lt.1
  simp at some

theorem trim_eq : trim s = s := by
  rw [trim, numeral.trimmed, String.ofList_toList]

end IsNumeral

/-! ## Lower case -/

/-- A text of such characters is in lower case. -/
theorem lowercase_eq_self (numerals : ∀ c ∈ s.toList, isNumeralChar c = true) : lowercase s = s := by
  have lower : ∀ cs before, (∀ c ∈ cs, isNumeralChar c = true) → lowerFrom before cs = cs := by
    intro cs
    induction cs with
    | nil => exact fun _ _ => rfl
    | cons c rest ih =>
        intro before all
        obtain ⟨first, others⟩ := List.forall_mem_cons.1 all
        have notSigma : c ≠ 'Σ' := by
          rintro rfl
          revert first
          decide
        obtain ⟨-, small, noCapital⟩ := isNumeralChar_range first
        have own : lowerChar c = [c] := by
          have notUpper : ¬ (c.val ≥ 'A'.val ∧ c.val ≤ 'Z'.val) := noCapital
          have same : c.toLower = c := dif_neg notUpper
          rw [lowerChar, if_pos small, same]
        rw [lowerFrom, if_neg notSigma, own, ih (c :: before) others]
        rfl
  rw [lowercase, lower s.toList [] numerals, String.ofList_toList]

/-! ## Hexadecimal digits -/

theorem Hex.isDigit_of_isNumeralChar (numeral : isNumeralChar c = true) (digit : (Hex.digitValue c).isSome = true) :
    isDigit c = true := by
  simp only [isNumeralChar, Bool.or_eq_true, beq_iff_eq] at numeral
  rcases numeral with ((decimal | rfl) | rfl) | rfl
  · exact decimal
  all_goals revert digit; decide

/-- Decimal digits are written again as they are read. -/
theorem Hex.encodeChars_of_decodeChars {bytes : List UInt8} (digits : ∀ c ∈ cs, isDigit c = true)
    (read : Hex.decodeChars cs = some bytes) : Hex.encodeChars bytes = cs := by
  have value : ∀ c, isDigit c = true → Hex.digitValue c = some (decimalValue c) ∧
      Hex.digit (decimalValue c) = c ∧ decimalValue c < 16 := by
    intro c digit
    have range := isDigit_iff.1 digit
    have whole : 0x30 + (c.toNat - 0x30) = c.toNat := by omega
    refine ⟨by simp [Hex.digitValue, decimalValue, range], ?_, by simp only [decimalValue]; omega⟩
    simp only [Hex.digit, decimalValue, whole, Char.ofNat_toNat]
    exact if_pos (by omega)
  fun_induction Hex.decodeChars cs generalizing bytes with
  | case1 =>
      cases read
      rfl
  | case2 => cases read
  | case3 high low rest ih =>
      obtain ⟨highDigit, others⟩ := List.forall_mem_cons.1 digits
      obtain ⟨lowDigit, others⟩ := List.forall_mem_cons.1 others
      obtain ⟨highValue, highAgain, highSmall⟩ := value high highDigit
      obtain ⟨lowValue, lowAgain, lowSmall⟩ := value low lowDigit
      rw [highValue, lowValue] at read
      cases more : Hex.decodeChars rest with
      | none => simp [more] at read
      | some found =>
          rw [more] at read
          cases read
          have byte : (UInt8.ofNat (decimalValue high * 16 + decimalValue low)).toNat =
              decimalValue high * 16 + decimalValue low := by
            rw [UInt8.toNat_ofNat', Nat.mod_eq_of_lt (by omega)]
          have first : (decimalValue high * 16 + decimalValue low) / 16 = decimalValue high := by omega
          have second : (decimalValue high * 16 + decimalValue low) % 16 = decimalValue low := by omega
          rw [Hex.encodeChars, byte, first, second, highAgain, lowAgain, ih others more]

end Text
end TokenSchema
