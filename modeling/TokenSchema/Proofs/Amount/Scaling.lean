import Mathlib.Data.List.DropRight
import Mathlib.Data.Rat.Cast.Order
import Mathlib.Tactic.FieldSimp
import Mathlib.Tactic.Ring
import TokenSchema.Amount
import TokenSchema.Proofs.Text.Numeral

/-!
# Scaling — the number that a decimal text stands for

Digits around a point stand for a number (`Amount.pointed`), and scaling gives this number times a power of ten
if it has no more decimals than asked for (`Amount.ScalesTo`). It never rounds: the zeros that it drops at the
end of a fraction are made up for by those that it fills in (`Amount.scaled_mul`).

All this needs a digit before the point. The number in a text begins with its first digit, so a point before that
is not part of it, and the fraction is read as a whole number (`Amount.scalesTo_scale_iff`).
-/

namespace TokenSchema
namespace Amount

open TokenSchema.Text

/-- The number that digits before and after a point stand for. -/
def pointed (whole fraction : List Char) : ℚ :=
  ofDecimalDigits whole + ofDecimalDigits fraction / 10 ^ fraction.length

/-- A fraction without the zeros at its end. -/
def significant (fraction : List Char) : List Char :=
  dropEndWhile (· == '0') fraction

/-- What scaling is to give for digits around a point: the number times the power of ten, if the fraction has no
more decimals than that without the zeros at its end, and nothing otherwise. -/
def ScalesTo (whole fraction : List Char) (decimals : Nat) (result : Option Nat) : Prop :=
  if (significant fraction).length ≤ decimals then
    ∃ n : Nat, result = some n ∧ (n : ℚ) = pointed whole fraction * 10 ^ decimals
  else result = none

/-- The digits of a scaled number. -/
def scaledDigits (whole fraction : List Char) (decimals : Nat) : List Char :=
  whole ++ significant fraction ++
    List.replicate (decimals - (significant fraction).length) '0'

variable {whole fraction : List Char}

/-! ## Digits -/

theorem exists_significant_append (fraction : List Char) :
    ∃ zeros, fraction = significant fraction ++ List.replicate zeros '0' := by
  have parts : significant fraction ++ fraction.rtakeWhile (· == '0') = fraction :=
    List.rdropWhile_append_rtakeWhile
  have dropped : ∀ c ∈ fraction.rtakeWhile (· == '0'), c = '0' := by
    intro c member
    simpa using List.mem_rtakeWhile_imp member
  refine ⟨(fraction.rtakeWhile (· == '0')).length, ?_⟩
  rw [← List.eq_replicate_of_mem dropped, parts]

/-- The zeros that are dropped and those that are filled in do not change the number. -/
theorem scaled_mul {decimals : Nat} (fits : (significant fraction).length ≤ decimals) :
    ofDecimalDigits (scaledDigits whole fraction decimals) * 10 ^ fraction.length =
      ofDecimalDigits (whole ++ fraction) * 10 ^ decimals := by
  obtain ⟨zeros, parts⟩ := exists_significant_append fraction
  have size : fraction.length = (significant fraction).length + zeros := by
    rw [parts, List.length_append, List.length_replicate, ← parts]
  calc
    ofDecimalDigits (scaledDigits whole fraction decimals) * 10 ^ fraction.length
      = ofDecimalDigits (whole ++ significant fraction) *
          10 ^ (decimals - (significant fraction).length + fraction.length) := by
        rw [scaledDigits, ofDecimalDigits_append_zeros, Nat.mul_assoc, ← Nat.pow_add]
    _ = ofDecimalDigits (whole ++ significant fraction) * 10 ^ (zeros + decimals) := by
        congr 2
        omega
    _ = ofDecimalDigits (whole ++ significant fraction ++ List.replicate zeros '0') *
          10 ^ decimals := by
        rw [ofDecimalDigits_append_zeros, Nat.mul_assoc, ← Nat.pow_add]
    _ = ofDecimalDigits (whole ++ fraction) * 10 ^ decimals := by
        rw [List.append_assoc, ← parts]

theorem pointed_mul_pow (whole fraction : List Char) :
    pointed whole fraction * 10 ^ fraction.length = ofDecimalDigits (whole ++ fraction) := by
  rw [pointed, ofDecimalDigits_append]
  push_cast
  field_simp

theorem scaledDigits_eq_pointed {decimals : Nat} (fits : (significant fraction).length ≤ decimals) :
    (ofDecimalDigits (scaledDigits whole fraction decimals) : ℚ) =
      pointed whole fraction * 10 ^ decimals := by
  have filled : (ofDecimalDigits (scaledDigits whole fraction decimals) : ℚ) * 10 ^ fraction.length =
      ofDecimalDigits (whole ++ fraction) * 10 ^ decimals := by
    exact_mod_cast scaled_mul fits
  have nonzero : (10 : ℚ) ^ fraction.length ≠ 0 := pow_ne_zero _ (by norm_num)
  apply mul_right_cancel₀ nonzero
  rw [filled, ← pointed_mul_pow]
  ring

/-! ## Texts -/

/-- Characters of a number, with others in front that are no blanks: all from the first digit on are isolated. -/
theorem isolate_append {front cs : List Char}
    (skipped : ∀ c ∈ front, isDigit c = false ∧ isBlank c = false)
    (numeric : ∀ c ∈ cs, (isDigit c || c == '.') = true) :
    isolate (String.ofList (front ++ cs)) = cs.dropWhile fun c => !isDigit c := by
  have noBlank : ∀ c ∈ front ++ cs, isBlank c = false := by
    intro c member
    rcases List.mem_append.1 member with other | member
    · exact (skipped c other).2
    rcases Bool.or_eq_true_iff.1 (numeric c member) with digit | point
    · exact isBlank_of_isDigit digit
    · obtain rfl := eq_of_beq point
      rfl
  have noMark : ∀ rest, front ++ cs ≠ '0' :: 'x' :: rest := by
    intro rest marked
    cases front with
    | nil =>
        rw [List.nil_append] at marked
        exact absurd (numeric 'x' (by simp [marked])) (by decide)
    | cons c others =>
        obtain ⟨rfl, -⟩ := List.cons_eq_cons.1 marked
        exact absurd (skipped '0' List.mem_cons_self).1 (by decide)
  have dropped : ∀ c ∈ front, (!isDigit c) = true := fun c member => by simp [(skipped c member).1]
  have all : ∀ c ∈ cs.dropWhile fun c => !isDigit c, (isDigit c || c == '.') = true :=
    fun c member => numeric c ((List.dropWhile_suffix _).subset member)
  unfold isolate
  rw [String.toList_ofList, trimChars_of_noBlank noBlank]
  split
  · rename_i rest marked
    exact absurd marked (noMark rest)
  · rw [List.dropWhile_append_of_pos dropped]
    exact List.takeWhile_eq_self_iff.2 all

theorem isolate_ofList {cs : List Char} (numeric : ∀ c ∈ cs, (isDigit c || c == '.') = true) :
    isolate (String.ofList cs) = cs.dropWhile fun c => !isDigit c :=
  @isolate_append [] cs (by simp) numeric

theorem splitPoint_append (digits : ∀ c ∈ whole, isDigit c = true) (fraction : List Char) :
    splitPoint (whole ++ '.' :: fraction) = (whole, fraction) := by
  have noPoint : ∀ c ∈ whole, (c != '.') = true := by
    intro c member
    simpa using ne_of_isDigit (digits c member) (d := '.') rfl
  simp [splitPoint, List.takeWhile_append_of_pos noPoint, List.dropWhile_append_of_pos noPoint]

theorem splitPoint_digits (digits : ∀ c ∈ whole, isDigit c = true) :
    splitPoint whole = (whole, []) := by
  have noPoint : ∀ c ∈ whole, (c != '.') = true := by
    intro c member
    simpa using ne_of_isDigit (digits c member) (d := '.') rfl
  have none : whole.dropWhile (· != '.') = [] := List.dropWhile_eq_nil_iff.2 noPoint
  simp [splitPoint, none, List.takeWhile_eq_self_iff.2 noPoint]

/-- From digits around a point, scaling gives the digits of the scaled number. -/
theorem scale_of_splitPoint {s : String} (split : splitPoint (isolate s) = (whole, fraction))
    (digits : ∀ c ∈ whole ++ fraction, isDigit c = true) (nonempty : whole ≠ []) (decimals : Nat) :
    scale s decimals =
      if (significant fraction).length ≤ decimals then
        some (ofDecimalDigits (scaledDigits whole fraction decimals))
      else none := by
  obtain ⟨zeros, parts⟩ := exists_significant_append fraction
  have scaled : ∀ c ∈ scaledDigits whole fraction decimals, isDigit c = true := by
    intro c member
    simp only [scaledDigits, List.mem_append, List.mem_replicate] at member
    rcases member with (inWhole | inFraction) | ⟨-, rfl⟩
    · exact digits c (List.mem_append_left _ inWhole)
    · refine digits c (List.mem_append_right _ ?_)
      rw [parts]
      exact List.mem_append_left _ inFraction
    · rfl
  have some : scaledDigits whole fraction decimals ≠ [] := by
    simp [scaledDigits, nonempty]
  have read := naturalChars?_of_digits scaled some
  have present : whole.isEmpty = false := by simp [nonempty]
  have present' : (scaledDigits whole fraction decimals).isEmpty = false := by simp [some]
  unfold scale
  rw [split]
  simp only [present, Bool.false_and, Bool.false_eq_true, if_false]
  change (if (significant fraction).length > decimals then none
    else if (scaledDigits whole fraction decimals).isEmpty then Option.some 0
    else naturalChars? 10 (scaledDigits whole fraction decimals)) = _
  rw [present', read]
  by_cases fits : (significant fraction).length ≤ decimals
  · simp [fits]
  · simp [fits]

section Point

variable (digits : ∀ c ∈ whole ++ fraction, isDigit c = true)
include digits

theorem numeric_of_digits : ∀ c ∈ whole ++ '.' :: fraction, (isDigit c || c == '.') = true := by
  intro c member
  have cases : c = '.' ∨ c ∈ whole ++ fraction := by
    simp only [List.mem_append, List.mem_cons] at member ⊢
    tauto
  rcases cases with rfl | digit
  · rfl
  · simp [digits c digit]

/-- Digits before the point: what is left of the fraction is filled up with zeros, unless it is too long. -/
theorem scale_of_whole (nonempty : whole ≠ []) (decimals : Nat) :
    scale (String.ofList (whole ++ '.' :: fraction)) decimals =
      if (significant fraction).length ≤ decimals then
        some (ofDecimalDigits (scaledDigits whole fraction decimals))
      else none := by
  have isolated : isolate (String.ofList (whole ++ '.' :: fraction)) = whole ++ '.' :: fraction := by
    rw [isolate_ofList (numeric_of_digits digits)]
    cases whole with
    | nil => exact absurd rfl nonempty
    | cons c rest => simp [digits c (by simp)]
  refine scale_of_splitPoint ?_ digits nonempty decimals
  rw [isolated, splitPoint_append fun c member => digits c (List.mem_append_left _ member)]

end Point

/-- No digit before the point: the fraction is read as a whole number. -/
theorem scale_of_noWhole (digits : ∀ c ∈ fraction, isDigit c = true) (nonempty : fraction ≠ [])
    (decimals : Nat) :
    scale (String.ofList ('.' :: fraction)) decimals =
      some (ofDecimalDigits fraction * 10 ^ decimals) := by
  have isolated : isolate (String.ofList ('.' :: fraction)) = fraction := by
    have numeric : ∀ c ∈ '.' :: fraction, (isDigit c || c == '.') = true :=
      @numeric_of_digits [] fraction digits
    rw [isolate_ofList numeric]
    cases fraction with
    | nil => exact absurd rfl nonempty
    | cons c rest => simp [show isDigit '.' = false from rfl, digits c (by simp)]
  have split : splitPoint (isolate (String.ofList ('.' :: fraction))) = (fraction, []) := by
    rw [isolated, splitPoint_digits digits]
  rw [scale_of_splitPoint split (by simpa using digits) nonempty]
  simp [significant, dropEndWhile, scaledDigits, ofDecimalDigits_append_zeros]

/-! ## What scaling is to give -/

theorem significant_of_zero (digits : ∀ c ∈ fraction, isDigit c = true)
    (zero : ofDecimalDigits fraction = 0) : significant fraction = [] := by
  have zeros : ∀ c ∈ fraction, (c == '0') = true := by
    induction fraction with
    | nil => simp
    | cons c rest ih =>
        rw [← List.singleton_append, ofDecimalDigits_append] at zero
        obtain ⟨first, others⟩ := Nat.add_eq_zero_iff.1 zero
        have range := isDigit_iff.1 (digits c List.mem_cons_self)
        have low : decimalValue c = 0 := by simpa [ofDecimalDigits, ofDigits] using first
        have same : c = '0' := by
          apply Char.toNat_inj.1
          simp only [decimalValue] at low
          change c.toNat = 48
          omega
        rw [List.forall_mem_cons]
        exact ⟨by simp [same], ih (fun d member => digits d (List.mem_cons_of_mem c member)) others⟩
  exact List.rdropWhile_eq_nil_iff.2 zeros

/-- The fraction as a whole number is the scaled number only if both are zero. -/
theorem scalesTo_fraction_iff (digits : ∀ c ∈ fraction, isDigit c = true) (nonempty : fraction ≠ [])
    (decimals : Nat) :
    ScalesTo [] fraction decimals (some (ofDecimalDigits fraction * 10 ^ decimals)) ↔
      ofDecimalDigits fraction = 0 := by
  have number : pointed [] fraction * 10 ^ fraction.length = ofDecimalDigits fraction :=
    pointed_mul_pow [] fraction
  have nonzero (k : Nat) : (10 : ℚ) ^ k ≠ 0 := pow_ne_zero k (by norm_num)
  constructor
  · intro scales
    unfold ScalesTo at scales
    split at scales
    · obtain ⟨n, given, equal⟩ := scales
      obtain rfl := Option.some.inj given
      have same : (ofDecimalDigits fraction : ℚ) = pointed [] fraction := by
        apply mul_right_cancel₀ (nonzero decimals)
        rw [← equal]
        push_cast
        rfl
      have repeated : ofDecimalDigits fraction * 10 ^ fraction.length = ofDecimalDigits fraction := by
        rw [← same] at number
        exact_mod_cast number
      have large : 10 ^ fraction.length ≠ 1 := by
        simp [nonempty]
      rcases Nat.eq_zero_or_pos (ofDecimalDigits fraction) with zero | positive
      · exact zero
      · exact absurd ((Nat.mul_eq_left (Nat.pos_iff_ne_zero.1 positive)).1 repeated) large
    · cases scales
  · intro zero
    have none : pointed [] fraction = 0 := by
      have product : pointed [] fraction * 10 ^ fraction.length = 0 := by
        rw [number, zero, Nat.cast_zero]
      exact (mul_eq_zero.1 product).resolve_right (nonzero _)
    have fits : (significant fraction).length ≤ decimals := by
      simp [significant_of_zero digits zero]
    rw [ScalesTo, if_pos fits]
    exact ⟨_, rfl, by simp [zero, none]⟩

/-- Scaling gives the number of a text with a point exactly if there is a digit before the point, or nothing but
zeros after it. Without a digit before the point, it gives the fraction as a whole number. -/
theorem scalesTo_scale_iff (digits : ∀ c ∈ whole ++ fraction, isDigit c = true)
    (nonempty : whole ++ fraction ≠ []) (decimals : Nat) :
    let scaled := scale (String.ofList (whole ++ '.' :: fraction)) decimals
    (ScalesTo whole fraction decimals scaled ↔ whole ≠ [] ∨ ofDecimalDigits fraction = 0) ∧
      (whole = [] → scaled = some (ofDecimalDigits fraction * 10 ^ decimals)) := by
  intro scaled
  rcases eq_or_ne whole [] with rfl | present
  · rw [List.nil_append] at digits nonempty
    have moved : scaled = some (ofDecimalDigits fraction * 10 ^ decimals) :=
      scale_of_noWhole digits nonempty decimals
    refine ⟨?_, fun _ => moved⟩
    rw [moved, scalesTo_fraction_iff digits nonempty]
    simp
  · refine ⟨?_, fun none => absurd none present⟩
    have equal := scale_of_whole digits present decimals
    simp only [ScalesTo, scaled, equal, ne_eq, present, not_false_eq_true, true_or, iff_true]
    split
    · rename_i fits
      exact ⟨_, rfl, scaledDigits_eq_pointed fits⟩
    · rfl

/-- A price of half a unit with a zero too many, in hundredths. -/
theorem scalesTo_scale_iff_half :
    (∀ c ∈ ['0'] ++ ['5', '0', '0'], isDigit c = true) ∧ ['0'] ++ ['5', '0', '0'] ≠ [] ∧
      ScalesTo ['0'] ['5', '0', '0'] 2 (scale "0.500" 2) := by
  have digits : ∀ c ∈ ['0'] ++ ['5', '0', '0'], isDigit c = true := List.all_eq_true.1 (by decide)
  have nonempty : ['0'] ++ ['5', '0', '0'] ≠ [] := by decide
  exact ⟨digits, nonempty, (scalesTo_scale_iff digits nonempty 2).1.2 (.inl (by decide))⟩

/-- Half a unit without the zero before the point is taken for five units. -/
theorem not_scalesTo_scale_half :
    scale ".5" 1 = some 50 ∧ ¬ ScalesTo [] ['5'] 1 (scale ".5" 1) := by
  have moved : scale ".5" 1 = some (ofDecimalDigits ['5'] * 10 ^ 1) := by decide
  refine ⟨moved, ?_⟩
  have digits : ∀ c ∈ ['5'], isDigit c = true := List.all_eq_true.1 (by decide)
  rw [moved, scalesTo_fraction_iff digits (by decide)]
  decide

end Amount
end TokenSchema
