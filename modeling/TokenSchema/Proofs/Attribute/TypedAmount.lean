import TokenSchema.Attribute.Text
import TokenSchema.Proofs.Amount.Rendering
import TokenSchema.Proofs.Call.WordText

/-!
# Typed amounts — what is made of a shown number that is typed in again

Numbers of some kinds are shown with a sign, as whole numbers or with decimals (`Kind.signedDecimals?`). Of a text
that is typed in, everything before the first digit is dropped, and a sign with it. So a shown number is taken for
its magnitude, never for an error, and it comes back as it was exactly if it is not below zero
(`Attribute.typed_shown_iff`).
-/

namespace TokenSchema

open TokenSchema.Bytes

/-- A text that stands for a failed conversion. -/
def IsConversionError (s : String) : Prop :=
  ∃ reason, s = conversionError ++ reason

/-- The decimals of a kind whose numbers are shown with a sign. -/
def Kind.signedDecimals? : Kind → Option Nat
  | .signed => some 0
  | k => k.decimals?

theorem Amount.render_zero (n : Nat) : render n 0 = Text.decimal n := by
  simp [render, Text.decimal]

theorem not_isConversionError_decimal (n : Nat) : ¬ IsConversionError (Text.decimal n) := by
  rintro ⟨reason, failed⟩
  have chars : Nat.toDigits 10 n = conversionError.toList ++ reason.toList := by
    rw [← Text.toList_decimal, failed, String.toList_append]
  have digit : Text.isDigit '<' = true := by
    apply Text.isDigit_of_mem_toDigits (n := n)
    rw [chars]
    exact List.mem_append_left _ (by decide)
  exact absurd digit (by decide)

theorem Text.decimal_natAbs_eq_signedDecimal_iff {z : Int} :
    decimal z.natAbs = signedDecimal z ↔ 0 ≤ z := by
  constructor
  · intro same
    have read := integer?_signedDecimal z
    rw [← same, ← signedDecimal_natCast, integer?_signedDecimal] at read
    have number : (z.natAbs : Int) = z := Option.some.inj read
    omega
  · intro positive
    rw [signedDecimal, if_neg (Int.not_lt.2 positive)]

namespace Attribute

/-! ## Reading shown numbers -/

/-- A sign before a number is not part of it. -/
theorem isolate_amountText (z : Int) (decimals : Nat) :
    Amount.isolate (amountText z decimals) = (Amount.render z.natAbs decimals).toList := by
  unfold amountText
  split
  · have signed : "-" ++ Amount.render z.natAbs decimals =
        String.ofList (['-'] ++ (Amount.render z.natAbs decimals).toList) := by
      rw [String.ofList_append, String.ofList_toList]
    rw [signed, Amount.isolate_append_render (by simp [Text.isDigit, Text.isBlank])]
  · rw [String.empty_append, Amount.isolate_render]

theorem amountText_zero (z : Int) : amountText z 0 = Text.signedDecimal z := by
  unfold amountText Text.signedDecimal
  rw [Amount.render_zero]
  split
  · rfl
  · rw [String.empty_append]

theorem amountText_ne_empty (z : Int) (decimals : Nat) : amountText z decimals ≠ "" := by
  intro empty
  have scaled := Amount.scale_of_isolate_eq (isolate_amountText z decimals)
  rw [empty] at scaled
  cases scaled

/-- A shown amount is taken for its magnitude. -/
theorem typedAmount_amountText (z : Int) (decimals : Nat) :
    typedAmount (amountText z decimals) decimals = Text.decimal z.natAbs := by
  rw [typedAmount, Amount.scale_of_isolate_eq (isolate_amountText z decimals)]

/-- A shown whole number is taken for its magnitude. -/
theorem typedNumber_signedDecimal (z : Int) :
    typedNumber (Text.signedDecimal z) = Text.decimal z.natAbs := by
  have digits : ∀ c ∈ Nat.toDigits 10 z.natAbs, Text.isDigit c = true :=
    fun _ => Text.isDigit_of_mem_toDigits
  have number : Amount.isolate (Text.signedDecimal z) = Nat.toDigits 10 z.natAbs := by
    rw [← amountText_zero, isolate_amountText, Amount.render_zero, Text.toList_decimal]
  have whole : String.ofList (Amount.splitPoint (Nat.toDigits 10 z.natAbs)).1 =
      Text.decimal z.natAbs := by
    rw [Amount.splitPoint_digits digits, Text.decimal]
  have some : (Nat.toDigits 10 z.natAbs).isEmpty = false := by
    simp [Nat.toDigits_ne_nil]
  unfold typedNumber
  simp only [number, some, Bool.false_eq_true, if_false, whole]
  rw [argumentBytes_decimal, toNat_minimal]

/-! ## Kinds that show a sign -/

section Kinds

variable {a : Attribute} {decimals : Nat} (kind : a.kind.signedDecimals? = some decimals)
include kind

theorem show?_of_signedDecimals (z : Int) : a.show? z = some (amountText z decimals) := by
  unfold show?
  cases given : a.kind with
  | signed =>
      rw [given] at kind
      obtain rfl : 0 = decimals := Option.some.inj kind
      rw [amountText_zero]
  | e18 | e8 | e6 | e4 | e3 | e2 =>
      rw [given] at kind
      obtain rfl := Option.some.inj kind
      rfl
  | _ =>
      rw [given] at kind
      cases kind

/-- Typed in again, a shown number is taken for its magnitude. -/
theorem typed_amountText (z : Int) :
    a.typed (amountText z decimals) = Text.decimal z.natAbs := by
  unfold typed
  rw [if_neg (amountText_ne_empty z decimals)]
  cases given : a.kind with
  | signed =>
      rw [given] at kind
      obtain rfl : 0 = decimals := Option.some.inj kind
      rw [amountText_zero]
      exact typedNumber_signedDecimal z
  | e18 | e8 | e6 | e4 | e3 | e2 =>
      rw [given] at kind
      obtain rfl := Option.some.inj kind
      exact typedAmount_amountText z _
  | _ =>
      rw [given] at kind
      cases kind

/-- A number is shown in every case, and the shown text is taken for its magnitude. So typing back what is shown
never fails, and it gives the number again exactly if that is not below zero. -/
theorem typed_shown_iff (z : Int) :
    ∃ shown, a.show? z = some shown ∧ a.typed shown = Text.decimal z.natAbs ∧
      (a.typed shown = Text.signedDecimal z ∨ IsConversionError (a.typed shown) ↔ 0 ≤ z) := by
  refine ⟨_, show?_of_signedDecimals kind z, typed_amountText kind z, ?_⟩
  rw [typed_amountText kind z, Text.decimal_natAbs_eq_signedDecimal_iff]
  exact or_iff_left (not_isConversionError_decimal _)

end Kinds

end Attribute

/-! ## A number below zero -/

namespace Debt

/-- A number with a sign. -/
def debt : Attribute :=
  { Attribute.ofName "debt" with kind := .signed }

/-- An amount with four decimals. -/
def rate : Attribute :=
  { Attribute.ofName "rate" with kind := .e4 }

/-- A rate below zero, shown as `-0.0005`. -/
theorem typed_shown_iff_rate :
    rate.kind.signedDecimals? = some 4 ∧
      ∃ shown, rate.show? (-5) = some shown ∧ rate.typed shown = Text.decimal 5 ∧
        (rate.typed shown = Text.signedDecimal (-5) ∨ IsConversionError (rate.typed shown) ↔
          (0 : Int) ≤ -5) := by
  have kind : rate.kind.signedDecimals? = some 4 := rfl
  exact ⟨kind, Attribute.typed_shown_iff kind (-5)⟩

/-- A debt of five is shown with its sign, and typed in again it is a claim of five. -/
theorem typed_shown_debt :
    debt.show? (-5) = some "-5" ∧ debt.typed "-5" = "5" ∧
      ¬ (debt.typed "-5" = Text.signedDecimal (-5) ∨ IsConversionError (debt.typed "-5")) := by
  have shown : debt.show? (-5) = some "-5" := by decide
  have taken : debt.typed "-5" = Text.decimal 5 := by decide
  refine ⟨shown, by rw [taken]; decide, ?_⟩
  rintro (same | failed)
  · rw [taken] at same
    exact absurd same (by decide)
  · rw [taken] at failed
    exact not_isConversionError_decimal 5 failed

end Debt

end TokenSchema
