import TokenSchema.Proofs.Text.Numeral

/-!
# Separators — texts that are put together with a separator between them

What stands before the first separator, or after the last one, can be told from a whole text
(`append_separator_inj`, `append_last_separator_inj`), and a colon is never part of a decimal number.
-/

namespace TokenSchema

section Separator

variable {α : Type} {a : α}

/-- What stands before the first separator, and what follows it. -/
theorem append_separator_inj {xs₁ xs₂ ys₁ ys₂ : List α} (free₁ : a ∉ xs₁) (free₂ : a ∉ xs₂)
    (same : xs₁ ++ a :: ys₁ = xs₂ ++ a :: ys₂) : xs₁ = xs₂ ∧ ys₁ = ys₂ := by
  induction xs₁ generalizing xs₂ with
  | nil =>
      cases xs₂ with
      | nil => simpa using same
      | cons x xs₂ =>
          obtain ⟨rfl, -⟩ : a = x ∧ _ := by simpa using same
          exact absurd List.mem_cons_self free₂
  | cons x xs₁ ih =>
      cases xs₂ with
      | nil =>
          obtain ⟨rfl, -⟩ : x = a ∧ _ := by simpa using same
          exact absurd List.mem_cons_self free₁
      | cons y xs₂ =>
          obtain ⟨rfl, rest⟩ : x = y ∧ _ := by simpa using same
          obtain ⟨front, back⟩ := ih (fun member => free₁ (List.mem_cons_of_mem x member))
            (fun member => free₂ (List.mem_cons_of_mem x member)) rest
          exact ⟨by rw [front], back⟩

/-- What stands before the last separator, and what follows it. -/
theorem append_last_separator_inj {xs₁ xs₂ ys₁ ys₂ : List α} (free₁ : a ∉ ys₁) (free₂ : a ∉ ys₂)
    (same : xs₁ ++ a :: ys₁ = xs₂ ++ a :: ys₂) : xs₁ = xs₂ ∧ ys₁ = ys₂ := by
  have reversed : ys₁.reverse ++ a :: xs₁.reverse = ys₂.reverse ++ a :: xs₂.reverse := by
    simpa using congrArg List.reverse same
  obtain ⟨back, front⟩ := append_separator_inj (by simpa using free₁) (by simpa using free₂) reversed
  exact ⟨List.reverse_inj.1 front, List.reverse_inj.1 back⟩

end Separator

theorem Text.colon_notMem_toDigits (n : Nat) : ':' ∉ Nat.toDigits 10 n := by
  intro member
  have digit := isDigit_of_mem_toDigits member
  exact ne_of_isDigit digit (d := ':') rfl rfl

end TokenSchema
