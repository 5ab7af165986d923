import TokenSchema.Json.Reader
import TokenSchema.Proofs.Text.Numeral

/-!
# Strings and numbers of JSON — what is written is read back

A character is written as itself or as one escape, and either is read as one piece that gives the character
back (`Json.readPieces_renderChar`, `Json.joinPieces_pieceOf`); so a string is read back up to its closing quote
(`Json.readString_renderText`). The decimal form of an integer is read as that integer, provided that what follows
cannot be taken for more of it (`Json.readNumber_signedDecimal`).
-/

namespace TokenSchema
namespace Json

variable {c e : Char} {rest : List Char}

/-! ## Strings -/

/-- The piece as which a written character is read. -/
def pieceOf (c : Char) : Piece :=
  if (shortEscape? c).isNone ∧ c.toNat < 0x20 then .unit c.toNat else .char c

theorem escapedChar?_of_shortEscape? (short : shortEscape? c = some e) :
    e ≠ 'u' ∧ escapedChar? e = some c := by
  unfold shortEscape? at short
  split at short <;> cases short <;> exact ⟨by decide, rfl⟩

theorem plain_of_shortEscape?_eq_none (long : shortEscape? c = none) : c ≠ '\"' ∧ c ≠ '\\' := by
  constructor <;> rintro rfl <;> cases long

/-- The four digits after the escape of a control character are its number. -/
theorem hexNumber?_control : ∀ n < 0x20,
    hexNumber? ['0', '0', Nat.digitChar (n / 16 % 16), Nat.digitChar (n % 16)] = some n := by
  decide

theorem readPieces_renderChar (c : Char) (rest : List Char) :
    readPieces (renderChar c ++ rest) = (readPieces rest).map fun (ps, rest) => (pieceOf c :: ps, rest) := by
  unfold renderChar pieceOf
  cases escape : shortEscape? c with
  | some e =>
      obtain ⟨notUnit, read⟩ := escapedChar?_of_shortEscape? escape
      simp only [List.cons_append, List.nil_append]
      rw [readPieces.eq_4 e rest fun _ _ _ _ _ unit => absurd unit notUnit, read]
      cases readPieces rest <;> rfl
  | none =>
      by_cases control : c.toNat < 0x20
      · simp only [if_pos control, List.cons_append, List.nil_append, readPieces,
          hexNumber?_control c.toNat control]
        cases readPieces rest <;> simp [control]
      · obtain ⟨notQuote, notEscape⟩ := plain_of_shortEscape?_eq_none escape
        simp only [if_neg control, List.cons_append, List.nil_append]
        rw [readPieces.eq_5 c rest notQuote (fun _ _ _ _ _ mark => absurd mark notEscape)
          fun _ _ mark => absurd mark notEscape, if_neg control]
        cases readPieces rest <;> simp [control]

/-- A unit that is no half of a pair stands for a character, whatever follows. -/
theorem joinPieces_unit {n : Nat} (notHigh : isHighHalf n = false) (notLow : isLowHalf n = false)
    (ps : List Piece) : joinPieces (.unit n :: ps) = (joinPieces ps).map (Char.ofNat n :: ·) := by
  match ps with
  | [] => simp [joinPieces, notHigh, notLow]
  | .char c :: ps => simp [joinPieces, notHigh, notLow]
  | .unit low :: ps => rw [joinPieces, if_neg (by simp [notHigh]), if_neg (by simp [notLow])]

theorem joinPieces_pieceOf (cs : List Char) : joinPieces (cs.map pieceOf) = some cs := by
  induction cs with
  | nil => rfl
  | cons c cs ih =>
      rw [List.map_cons, pieceOf]
      split
      · rename_i control
        have notHigh : isHighHalf c.toNat = false := by
          simp only [isHighHalf, Bool.and_eq_false_iff, decide_eq_false_iff_not]
          omega
        have notLow : isLowHalf c.toNat = false := by
          simp only [isLowHalf, Bool.and_eq_false_iff, decide_eq_false_iff_not]
          omega
        rw [joinPieces_unit notHigh notLow, ih, Char.ofNat_toNat]
        rfl
      · rw [joinPieces, ih]
        rfl

theorem readPieces_renderChars (cs rest : List Char) :
    readPieces (cs.flatMap renderChar ++ '\"' :: rest) = some (cs.map pieceOf, rest) := by
  induction cs with
  | nil => rfl
  | cons c cs ih =>
      rw [List.flatMap_cons, List.append_assoc, readPieces_renderChar, ih]
      rfl

/-- A written string is read back up to its closing quote. -/
theorem readString_renderText (s : String) (rest : List Char) :
    readString (s.toList.flatMap renderChar ++ '\"' :: rest) = some (some s, rest) := by
  simp [readString, readPieces_renderChars, joinPieces_pieceOf]

/-! ## Numbers -/

/-- Nothing at the front that could belong to the number before it. -/
def EndsNumber (rest : List Char) : Prop :=
  ∀ c ∈ rest.head?, Text.isDigit c = false ∧ c ≠ '.' ∧ c ≠ 'e' ∧ c ≠ 'E'

theorem readDigits_append {ds : List Char} (nonempty : ds ≠ []) (digits : ∀ c ∈ ds, Text.isDigit c = true)
    (ends : EndsNumber rest) : readDigits (ds ++ rest) = some (ds, rest) := by
  have stops : rest.takeWhile Text.isDigit = [] ∧ rest.dropWhile Text.isDigit = rest := by
    cases rest with
    | nil => exact ⟨rfl, rfl⟩
    | cons c rest => simp [(ends c rfl).1]
  rw [readDigits, List.takeWhile_append_of_pos digits, List.dropWhile_append_of_pos digits, stops.1, stops.2,
    List.append_nil, if_neg (by simpa using nonempty)]

theorem readFraction_eq_of_ends (ends : EndsNumber rest) : readFraction rest = some ([], rest) := by
  cases rest with
  | nil => rfl
  | cons c rest => exact readFraction.eq_2 _ fun _ point => absurd (List.cons.inj point).1 (ends c rfl).2.1

theorem readExponent_eq_of_ends (ends : EndsNumber rest) : readExponent rest = some ([], rest) := by
  cases rest with
  | nil => rfl
  | cons c rest =>
      exact readExponent.eq_3 _ (fun _ mark => absurd (List.cons.inj mark).1 (ends c rfl).2.2.1)
        fun _ mark => absurd (List.cons.inj mark).1 (ends c rfl).2.2.2

/-- Only zero is written with a zero at the front. -/
theorem eq_zero_of_head?_toDigits {n : Nat} (zero : (Nat.toDigits 10 n).head? = some '0') : n = 0 := by
  induction n using Nat.strongRecOn with
  | ind n ih =>
      rcases Nat.lt_or_ge n 10 with small | large
      · have single : ∀ m < 10, Nat.digitChar m = '0' → m = 0 := by decide
        rw [Nat.toDigits_of_lt_base small] at zero
        exact single n small (Option.some.inj zero)
      · -- A number of several digits begins as its tenth part does.
        rw [Nat.toDigits_of_base_le (by decide) large, List.head?_append, Option.or_of_isSome (by simp)] at zero
        have tenth := ih (n / 10) (by omega) zero
        omega

theorem toDigits_append_ne_minus (n : Nat) (rest more : List Char) :
    Nat.toDigits 10 n ++ rest ≠ '-' :: more := by
  intro same
  obtain ⟨c, cs, first⟩ := List.exists_cons_of_ne_nil (Nat.toDigits_ne_nil (n := n) (b := 10))
  have digit : Text.isDigit c = true := Text.isDigit_of_mem_toDigits (n := n) (by simp [first])
  rw [first, List.cons_append] at same
  exact Text.ne_of_isDigit digit (d := '-') rfl (List.cons.inj same).1

/-- The digits of a number are read up to its end, with a sign in front of them or without one. -/
theorem readNumber_toDigits (n : Nat) (ends : EndsNumber rest) :
    readNumber (Nat.toDigits 10 n ++ rest) = some (.integer n, rest) ∧
      (n ≠ 0 → readNumber ('-' :: (Nat.toDigits 10 n ++ rest)) = some (.integer (-(n : Int)), rest)) := by
  have read : readDigits (Nat.toDigits 10 n ++ rest) = some (Nat.toDigits 10 n, rest) :=
    readDigits_append Nat.toDigits_ne_nil (fun _ => Text.isDigit_of_mem_toDigits) ends
  have strict : ¬ ((Nat.toDigits 10 n).head? = some '0' ∧ Nat.toDigits 10 n ≠ ['0']) := by
    rintro ⟨zero, other⟩
    rw [eq_zero_of_head?_toDigits zero] at other
    exact other rfl
  constructor
  · unfold readNumber
    split
    · rename_i sign cs parts
      split at parts
      · rename_i same
        exact absurd same (toDigits_append_ne_minus n rest _)
      · cases parts
        simp [read, strict, readFraction_eq_of_ends ends, readExponent_eq_of_ends ends]
  · intro nonzero
    simp [readNumber, read, strict, readFraction_eq_of_ends ends, readExponent_eq_of_ends ends, nonzero]

/-- The decimal form of an integer is read as that integer. -/
theorem readNumber_signedDecimal (z : Int) (ends : EndsNumber rest) :
    readNumber ((Text.signedDecimal z).toList ++ rest) = some (.integer z, rest) := by
  obtain ⟨positive, negative⟩ := readNumber_toDigits z.natAbs ends
  rw [Text.toList_signedDecimal]
  split
  · rw [List.cons_append, negative (by omega)]
    congr 3
    omega
  · rw [positive]
    congr 3
    omega

end Json
end TokenSchema
