import Mathlib.Data.List.DropRight
import TokenSchema.Text.Blank

/-!
# Blanks — texts that are cut free of them

What is left of a text neither begins nor ends with a blank, so cutting it again changes nothing
(`trimChars_trimChars`).
-/

namespace TokenSchema
namespace Text

theorem stripChars_stripChars (p : Char → Bool) (cs : List Char) :
    stripChars p (stripChars p cs) = stripChars p cs := by
  have front : (stripChars p cs).dropWhile p = stripChars p cs := by
    cases left : stripChars p cs with
    | nil => rfl
    | cons c rest =>
        -- The first character that is left is the first one that was not dropped.
        obtain ⟨more, whole⟩ : c :: rest <+: cs.dropWhile p := by
          rw [← left]
          exact List.rdropWhile_prefix p (cs.dropWhile p)
        have first : ¬ p c = true := by
          have kept := List.dropWhile_idempotent p cs
          rw [← whole, List.cons_append, List.dropWhile_eq_self_iff] at kept
          exact kept (Nat.zero_lt_succ _)
        rw [List.dropWhile_cons_of_neg first]
  calc stripChars p (stripChars p cs)
      = dropEndWhile p (stripChars p cs) := by rw [stripChars, front]
    _ = stripChars p cs := List.rdropWhile_idempotent p (cs.dropWhile p)

/-- What is cut off the end is found again, between an end that stays and nothing. -/
theorem stripChars_append {p : Char → Bool} {cs cut : List Char} (first : ∀ c ∈ cs.head?, p c = false)
    (last : ∀ c ∈ cs.getLast?, p c = false) (dropped : ∀ c ∈ cut, p c = true) : stripChars p (cs ++ cut) = cs := by
  cases cs with
  | nil => rw [List.nil_append, stripChars, List.dropWhile_eq_nil_iff.2 dropped, dropEndWhile, List.reverse_nil,
      List.dropWhile_nil, List.reverse_nil]
  | cons c rest =>
      have stays : ¬ p c = true := by
        rw [first c rfl]
        exact Bool.false_ne_true
      have ends : (c :: rest).reverse.dropWhile p = (c :: rest).reverse := by
        rw [List.dropWhile_eq_self_iff]
        intro nonempty
        rw [List.getElem_reverse, last _ (by simp [List.getLast?_eq_getElem?])]
        exact Bool.false_ne_true
      rw [stripChars, List.cons_append, List.dropWhile_cons_of_neg stays, ← List.cons_append, dropEndWhile,
        List.reverse_append, List.dropWhile_append_of_pos fun d member => dropped d (List.mem_reverse.1 member), ends,
        List.reverse_reverse]

@[simp] theorem trimChars_trimChars (cs : List Char) : trimChars (trimChars cs) = trimChars cs :=
  stripChars_stripChars isBlank cs

end Text
end TokenSchema
