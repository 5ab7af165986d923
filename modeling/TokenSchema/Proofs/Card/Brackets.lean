import TokenSchema.Card

/-!
# Brackets — which filter texts are expressions

Brackets are counted from left to right, and the count ends at a bracket that closes nothing. `scan` is this count on
a counter that could go below zero: it never does, and behind each part of the text it is the number of brackets that
are open there (`scan_eq_some_iff`). So a filter is an expression exactly if it does not start with more closing
brackets than opening ones, however far one reads, has as many of both, and neither is blank nor ends with an operator
(`isExpression_iff`).
-/

namespace TokenSchema
namespace Selection

/-! ## The counter -/

/-- How far the brackets that a text opens outnumber those that it closes. -/
def excess (cs : List Char) : Int :=
  (cs.count '(' : Int) - (cs.count ')' : Int)

/-- What a character adds to the open brackets. -/
def gain (c : Char) : Int :=
  if c = '(' then 1 else if c = ')' then -1 else 0

/-- The counter behind a character; none at a bracket that closes nothing. -/
def counter? (depth : Int) (c : Char) : Option Int :=
  if c = '(' then some (depth + 1)
  else if c = ')' then if depth = 0 then none else some (depth - 1)
  else some depth

/-- The counter behind a text. -/
def scan (depth : Int) (cs : List Char) : Option Int :=
  cs.foldlM counter? depth

variable {depth d : Int} {cs : List Char}

theorem excess_cons (c : Char) (cs : List Char) : excess (c :: cs) = gain c + excess cs := by
  simp only [excess, gain, List.count_cons, beq_iff_eq]
  split
  · rename_i opens
    rw [if_neg (by rw [opens]; decide)]
    omega
  · split <;> omega

/-- The counter follows the brackets as long as it does not have to go below zero. -/
theorem counter?_eq_some_iff (c : Char) (nonneg : 0 ≤ depth) :
    counter? depth c = some d ↔ 0 ≤ d ∧ d = depth + gain c := by
  unfold counter? gain
  split
  · rw [Option.some_inj]
    omega
  · split
    · split
      · refine iff_of_false nofun ?_
        omega
      · rw [Option.some_inj]
        omega
    · rw [Option.some_inj]
      omega

theorem scan_nil : scan depth [] = some depth :=
  rfl

theorem scan_cons (c : Char) : scan depth (c :: cs) = (counter? depth c).bind fun d => scan d cs :=
  rfl

/-- The starts of a text are the empty one and those behind its first character. -/
theorem forall_prefix_cons_iff {p : List Char → Prop} (c : Char) :
    (∀ front, front <+: c :: cs → p front) ↔ p [] ∧ ∀ front, front <+: cs → p (c :: front) := by
  constructor
  · intro all
    exact ⟨all [] List.nil_prefix, fun front start => all _ ((List.prefix_cons_inj c).2 start)⟩
  · rintro ⟨empty, rest⟩ front start
    rcases List.prefix_cons_iff.1 start with rfl | ⟨tail, rfl, behind⟩
    · exact empty
    · exact rest tail behind

/-- A scan comes to the end of a text exactly if no start of the text closes what is not open. Its counter is then the
number of open brackets. -/
theorem scan_eq_some_iff (nonneg : 0 ≤ depth) :
    scan depth cs = some d ↔ (∀ front, front <+: cs → 0 ≤ depth + excess front) ∧ d = depth + excess cs := by
  have start : excess [] = 0 := rfl
  -- The counter behind the first character is where the rest starts, so the depth varies in the induction.
  induction cs generalizing depth with
  | nil =>
      simp only [scan_nil, List.prefix_nil, forall_eq, start, Option.some_inj]
      omega
  | cons c cs ih =>
      rw [scan_cons, Option.bind_eq_some_iff, forall_prefix_cons_iff, start]
      simp only [counter?_eq_some_iff c nonneg, excess_cons, ← Int.add_assoc]
      constructor
      · rintro ⟨next, ⟨counted, rfl⟩, rest⟩
        obtain ⟨opened, rfl⟩ := (ih counted).1 rest
        exact ⟨⟨by omega, opened⟩, rfl⟩
      · rintro ⟨⟨-, opened⟩, rfl⟩
        have counted : 0 ≤ depth + gain c := by
          have first := opened [] List.nil_prefix
          omega
        exact ⟨_, ⟨counted, rfl⟩, (ih counted).2 ⟨opened, rfl⟩⟩

theorem nonneg_of_scan (nonneg : 0 ≤ depth) (counted : scan depth cs = some d) : 0 ≤ d := by
  obtain ⟨opened, rfl⟩ := (scan_eq_some_iff nonneg).1 counted
  exact opened cs (List.prefix_refl cs)

/-! ## Expressions -/

/-- Brackets balance if the counter is at zero in the end. -/
theorem balanced_iff_scan (depth : Nat) (cs : List Char) : balanced depth cs = true ↔ scan depth cs = some 0 := by
  fun_induction balanced depth cs with
  | case1 depth =>
      change (depth == 0) = true ↔ some (depth : Int) = some 0
      rw [beq_iff_eq, Option.some_inj]
      omega
  | case2 depth rest ih => exact ih
  | case3 depth rest ih =>
      rw [scan_cons, Bool.and_eq_true, bne_iff_ne, ih]
      -- At depth zero both end; `depth - 1` is a difference of numbers without a sign only above it.
      by_cases zero : depth = 0
      · subst zero
        exact iff_of_false (fun both => both.1 rfl) nofun
      · have step : counter? depth ')' = some ((depth - 1 : Nat) : Int) := by
          rw [counter?_eq_some_iff _ (Int.natCast_nonneg depth), show gain ')' = -1 from rfl]
          omega
        rw [step, Option.bind_some]
        exact and_iff_right zero
  | case4 depth c rest opens closes ih =>
      have step : counter? depth c = some (depth : Int) := by
        rw [counter?, if_neg opens, if_neg closes]
      rw [scan_cons, step, Option.bind_some, ih]

/-- What an expression looks like. -/
structure IsExpression (cs : List Char) : Prop where
  filled : cs ≠ []
  opened : ∀ front, front <+: cs → front.count ')' ≤ front.count '('
  closed : cs.count '(' = cs.count ')'
  complete : ∀ c ∈ cs.getLast?, c ∉ ['&', '|', '!', '=']

theorem balanced_zero_iff (cs : List Char) :
    balanced 0 cs = true ↔
      (∀ front, front <+: cs → front.count ')' ≤ front.count '(') ∧ cs.count '(' = cs.count ')' := by
  rw [balanced_iff_scan]
  refine (scan_eq_some_iff (Int.le_refl 0)).trans (and_congr (forall₂_congr fun front _ => ?_) ?_)
  · rw [excess]
    omega
  · rw [excess]
    omega

theorem isOperator_iff (c : Char) : isOperator c = true ↔ c ∈ ['&', '|', '!', '='] := by
  simp [isOperator, or_assoc]

/-- A filter text is an expression exactly if it looks like one without the blanks around it. Its brackets are told by
a counter that is not below zero anywhere before the scan ends. -/
theorem isExpression_iff (filter : String) :
    let cs := Text.trimChars filter.toList
    (isExpression filter = true ↔ IsExpression cs) ∧
      (balanced 0 cs = true ↔ scan 0 cs = some 0) ∧
      ∀ front depth, front <+: cs → scan 0 front = some depth → 0 ≤ depth := by
  intro cs
  refine ⟨?_, balanced_iff_scan 0 cs, fun front depth _ => nonneg_of_scan (Int.le_refl 0)⟩
  have last : (!(cs.getLast?.any isOperator)) = true ↔ ∀ c ∈ cs.getLast?, c ∉ ['&', '|', '!', '='] := by
    simp only [← isOperator_iff]
    cases cs.getLast? with
    | none => simp
    | some c => simp
  have parts : isExpression filter = true ↔
      cs ≠ [] ∧ balanced 0 cs = true ∧ ∀ c ∈ cs.getLast?, c ∉ ['&', '|', '!', '='] := by
    rw [← last]
    simp [isExpression, cs, and_assoc]
  rw [parts, balanced_zero_iff]
  constructor
  · rintro ⟨filled, ⟨opened, closed⟩, complete⟩
    exact ⟨filled, opened, closed, complete⟩
  · rintro ⟨filled, opened, closed, complete⟩
    exact ⟨filled, ⟨opened, closed⟩, complete⟩

/-- A filter with a blank before it, and its counter behind the bracket that it opens. -/
theorem isExpression_iff_kinds :
    isExpression " level=3&(kind=1|kind=2)" = true ∧ IsExpression "level=3&(kind=1|kind=2)".toList ∧
      "level=3&(".toList <+: "level=3&(kind=1|kind=2)".toList ∧ scan 0 "level=3&(".toList = some 1 ∧
        (0 : Int) ≤ 1 := by
  have taken : isExpression " level=3&(kind=1|kind=2)" = true := by decide +kernel
  have trimmed : Text.trimChars " level=3&(kind=1|kind=2)".toList = "level=3&(kind=1|kind=2)".toList := by
    decide +kernel
  have start : "level=3&(".toList <+: "level=3&(kind=1|kind=2)".toList := by decide +kernel
  have counted : scan 0 "level=3&(".toList = some 1 := by decide +kernel
  obtain ⟨looks, -, above⟩ := isExpression_iff " level=3&(kind=1|kind=2)"
  simp only [trimmed] at looks above
  exact ⟨taken, looks.1 taken, start, counted, above _ _ start counted⟩

end Selection
end TokenSchema
