import TokenSchema.Proofs.Amount.Scaling
import TokenSchema.Proofs.Text.Digits

/-!
# Rendering — a shown amount is scaled back to its number

An amount is the digits of its number with a point among them. For this the digits are filled up in front with
zeros, until there is one before the point (`Amount.filled`). What is shown lacks the zeros at the end of the
fraction, all but one where there is nothing else (`Amount.exists_shown`); scaling drops that one, fills the others
in again, and so gives the number back (`Amount.scale_render`).
-/

namespace TokenSchema
namespace Amount

open TokenSchema.Text

/-- The digits of a number, with zeros in front until more than `decimals` are there. -/
def filled (n decimals : Nat) : List Char :=
  List.replicate (decimals + 1 - (Nat.toDigits 10 n).length) '0' ++ Nat.toDigits 10 n

/-- The digits of an amount before its point. -/
def wholePart (n decimals : Nat) : List Char :=
  (filled n decimals).take ((filled n decimals).length - decimals)

/-- The digits of an amount after its point, the zeros at the end among them. -/
def fractionPart (n decimals : Nat) : List Char :=
  (filled n decimals).drop ((filled n decimals).length - decimals)

/-- Digits with a point among them; no point stands at the end. -/
def spelled (whole fraction : List Char) : List Char :=
  if fraction = [] then whole else whole ++ '.' :: fraction

variable {n decimals : Nat} {whole fraction : List Char}

/-! ## The digits of an amount -/

theorem lt_length_filled (n decimals : Nat) : decimals < (filled n decimals).length := by
  rw [filled, List.length_append, List.length_replicate]
  omega

theorem filled_eq (n decimals : Nat) : filled n decimals = (decimalPadded (decimals + 1) n).toList :=
  (toList_decimalPadded (decimals + 1) n).symm

theorem isDigit_of_mem_filled {c : Char} (member : c ∈ filled n decimals) : isDigit c = true := by
  rw [filled_eq] at member
  exact isDigit_of_mem_decimalPadded member

theorem ofDecimalDigits_filled (n decimals : Nat) : ofDecimalDigits (filled n decimals) = n := by
  rw [filled_eq, ofDecimalDigits_decimalPadded]

theorem wholePart_append_fractionPart (n decimals : Nat) :
    wholePart n decimals ++ fractionPart n decimals = filled n decimals :=
  List.take_append_drop _ _

theorem length_fractionPart (n decimals : Nat) : (fractionPart n decimals).length = decimals := by
  have more := lt_length_filled n decimals
  rw [fractionPart, List.length_drop]
  omega

theorem significant_prefix_self (fraction : List Char) : significant fraction <+: fraction :=
  List.rdropWhile_prefix _ fraction

/-- Without the zeros at its end, the fraction is short enough to be scaled. -/
theorem length_significant_fractionPart_le (n decimals : Nat) :
    (significant (fractionPart n decimals)).length ≤ decimals := by
  have shorter := (significant_prefix_self (fractionPart n decimals)).length_le
  rwa [length_fractionPart] at shorter

theorem wholePart_ne_nil (n decimals : Nat) : wholePart n decimals ≠ [] := by
  have more := lt_length_filled n decimals
  apply List.ne_nil_of_length_pos
  rw [wholePart, List.length_take]
  omega

theorem isDigit_of_mem_parts {c : Char}
    (member : c ∈ wholePart n decimals ++ fractionPart n decimals) : isDigit c = true := by
  rw [wholePart_append_fractionPart] at member
  exact isDigit_of_mem_filled member

/-- Scaling fills in the zeros that are not shown. -/
theorem ofDecimalDigits_scaledDigits_parts (n decimals : Nat) :
    ofDecimalDigits (scaledDigits (wholePart n decimals) (fractionPart n decimals) decimals) = n := by
  have size := length_fractionPart n decimals
  have fits := length_significant_fractionPart_le n decimals
  have multiplied := @scaled_mul (wholePart n decimals) _ decimals fits
  rw [size, wholePart_append_fractionPart, ofDecimalDigits_filled] at multiplied
  exact Nat.eq_of_mul_eq_mul_right (Nat.pow_pos (by decide)) multiplied

/-! ## What is shown -/

/-- Below one, a zero stands before the point. -/
theorem parts_of_le (below : (Nat.toDigits 10 n).length ≤ decimals) :
    wholePart n decimals = ['0'] ∧
      fractionPart n decimals =
        List.replicate (decimals - (Nat.toDigits 10 n).length) '0' ++ Nat.toDigits 10 n := by
  have digits : filled n decimals =
      '0' :: (List.replicate (decimals - (Nat.toDigits 10 n).length) '0' ++ Nat.toDigits 10 n) := by
    rw [filled, Nat.succ_sub below, List.replicate_succ, List.cons_append]
  have point : (filled n decimals).length - decimals = 1 := by
    rw [digits, List.length_cons, List.length_append, List.length_replicate]
    omega
  rw [wholePart, fractionPart, point, digits]
  exact ⟨rfl, rfl⟩

theorem filled_of_lt (above : decimals < (Nat.toDigits 10 n).length) :
    filled n decimals = Nat.toDigits 10 n := by
  rw [filled, Nat.sub_eq_zero_of_le above, List.replicate_zero, List.nil_append]

/-- From one on, the zeros at the end of the fraction are left out. -/
theorem render_of_lt (above : decimals < (Nat.toDigits 10 n).length) :
    render n decimals =
      String.ofList (spelled (wholePart n decimals) (significant (fractionPart n decimals))) := by
  have same := filled_of_lt above
  rcases Nat.eq_zero_or_pos decimals with rfl | positive
  · -- Without decimals the number stands alone.
    simp [render, spelled, wholePart, fractionPart, same, significant, dropEndWhile]
  · have pointed : decimals ≠ 0 := Nat.pos_iff_ne_zero.1 positive
    have long : ¬ (Nat.toDigits 10 n).length ≤ decimals := Nat.not_le_of_gt above
    simp only [render, spelled, wholePart, fractionPart, same, significant, pointed, long, if_false,
      List.isEmpty_iff]

/-- Below one, a fraction of zeros is shown as a single zero. -/
theorem render_of_le (below : (Nat.toDigits 10 n).length ≤ decimals) :
    render n decimals =
      String.ofList (spelled (wholePart n decimals)
        (if significant (fractionPart n decimals) = [] then ['0']
          else significant (fractionPart n decimals))) := by
  have nonempty : 0 < (Nat.toDigits 10 n).length := Nat.length_toDigits_pos
  have pointed : decimals ≠ 0 := by omega
  obtain ⟨whole, fraction⟩ := parts_of_le below
  rw [whole, fraction]
  simp only [render, pointed, below, if_true, if_false, List.isEmpty_iff]
  rw [← significant]
  split
  · rfl
  · rename_i present
    rw [spelled, if_neg present, List.singleton_append]

/-- Nothing but zeros at the end of the fraction is left out. -/
theorem exists_shown (n decimals : Nat) :
    ∃ shown, render n decimals = String.ofList (spelled (wholePart n decimals) shown) ∧
      significant shown = significant (fractionPart n decimals) ∧
      ∀ c ∈ wholePart n decimals ++ shown, isDigit c = true := by
  have whole : ∀ c ∈ wholePart n decimals, isDigit c = true := fun c member =>
    isDigit_of_mem_parts (List.mem_append_left _ member)
  have fraction : ∀ c ∈ significant (fractionPart n decimals), isDigit c = true := by
    intro c member
    have present := (significant_prefix_self (fractionPart n decimals)).subset member
    exact isDigit_of_mem_parts (List.mem_append_right _ present)
  have again : significant (significant (fractionPart n decimals)) =
      significant (fractionPart n decimals) :=
    List.rdropWhile_idempotent _ _
  rcases Nat.lt_or_ge decimals (Nat.toDigits 10 n).length with above | below
  · exact ⟨_, render_of_lt above, again, List.forall_mem_append.2 ⟨whole, fraction⟩⟩
  · refine ⟨_, render_of_le below, ?_⟩
    split
    · rename_i zeros
      exact ⟨zeros.symm, List.forall_mem_append.2 ⟨whole, by simp [isDigit]⟩⟩
    · exact ⟨again, List.forall_mem_append.2 ⟨whole, fraction⟩⟩

/-! ## Reading what is shown -/

theorem numeric_spelled (digits : ∀ c ∈ whole ++ fraction, isDigit c = true) :
    ∀ c ∈ spelled whole fraction, (isDigit c || c == '.') = true := by
  unfold spelled
  split
  · rename_i none
    intro c member
    simp [digits c (List.mem_append_left _ member)]
  · exact numeric_of_digits digits

theorem numeric_render (n decimals : Nat) :
    ∀ c ∈ (render n decimals).toList, (isDigit c || c == '.') = true := by
  obtain ⟨shown, text, -, digits⟩ := exists_shown n decimals
  rw [text, String.toList_ofList]
  exact numeric_spelled digits

/-- A shown amount begins with a digit. -/
theorem exists_toList_render (n decimals : Nat) :
    ∃ c rest, (render n decimals).toList = c :: rest ∧ isDigit c = true := by
  obtain ⟨shown, text, -, digits⟩ := exists_shown n decimals
  obtain ⟨c, rest, whole⟩ := List.exists_cons_of_ne_nil (wholePart_ne_nil n decimals)
  have digit : isDigit c = true := digits c (by simp [whole])
  rw [text, String.toList_ofList, whole, spelled]
  split
  · exact ⟨c, rest, rfl, digit⟩
  · exact ⟨c, rest ++ '.' :: shown, rfl, digit⟩

/-- After characters that are no part of a number, a shown amount is isolated as a whole. -/
theorem isolate_append_render {front : List Char}
    (skipped : ∀ c ∈ front, isDigit c = false ∧ isBlank c = false) (n decimals : Nat) :
    isolate (String.ofList (front ++ (render n decimals).toList)) = (render n decimals).toList := by
  obtain ⟨c, rest, chars, digit⟩ := exists_toList_render n decimals
  rw [isolate_append skipped (numeric_render n decimals), chars,
    List.dropWhile_cons_of_neg (by simp [digit])]

theorem isolate_render (n decimals : Nat) :
    isolate (render n decimals) = (render n decimals).toList := by
  have alone := @isolate_append_render [] (by simp) n decimals
  rwa [List.nil_append, String.ofList_toList] at alone

theorem splitPoint_spelled (digits : ∀ c ∈ whole, isDigit c = true) (fraction : List Char) :
    splitPoint (spelled whole fraction) = (whole, fraction) := by
  unfold spelled
  split
  · rename_i none
    rw [none, splitPoint_digits digits]
  · exact splitPoint_append digits fraction

/-- A text whose number is the one shown is scaled back to it. -/
theorem scale_of_isolate_eq {s : String} (isolated : isolate s = (render n decimals).toList) :
    scale s decimals = some n := by
  obtain ⟨shown, text, same, digits⟩ := exists_shown n decimals
  have split : splitPoint (isolate s) = (wholePart n decimals, shown) := by
    rw [isolated, text, String.toList_ofList]
    exact splitPoint_spelled (List.forall_mem_append.1 digits).1 shown
  have fits := length_significant_fractionPart_le n decimals
  -- Scaling sees the fraction only without the zeros at its end.
  have scaled : scaledDigits (wholePart n decimals) shown decimals =
      scaledDigits (wholePart n decimals) (fractionPart n decimals) decimals := by
    rw [scaledDigits, scaledDigits, same]
  rw [scale_of_splitPoint split digits (wholePart_ne_nil n decimals), same, if_pos fits, scaled,
    ofDecimalDigits_scaledDigits_parts]

/-- A shown amount is scaled back to the number that was shown, whatever the number of decimals. -/
theorem scale_render (n decimals : Nat) : scale (render n decimals) decimals = some n :=
  scale_of_isolate_eq (isolate_render n decimals)

end Amount
end TokenSchema
