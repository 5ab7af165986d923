import TokenSchema.Proofs.Text.Digits
import TokenSchema.Proofs.Text.Utf8
import TokenSchema.Schema.Date

/-!
# Dates — their order, and their texts

Dates are ordered by year and then by month (`SchemaDate.compare_eq_lt_iff`, `SchemaDate.compare_eq_gt_iff`). A text
that is read as a date has two numbers of four and two characters around a slash, all of seven bits, so it has seven
bytes (`SchemaDate.size_of_parse`). Each number may begin with a `+` in the place of a digit, so more texts are read
than those of the form `yyyy/MM` (`SchemaDate.IsSpelled`). The latter are the texts that are written again as they were
read, and the others are told by their `+` (`SchemaDate.parse_spelled`).
-/

namespace TokenSchema
namespace SchemaDate

variable {a b c d : SchemaDate} {s : String}

/-! ## Order -/

theorem compare_eq_lt_iff :
    a.compare b = .lt ↔ a.year < b.year ∨ a.year = b.year ∧ a.month < b.month := by
  rw [compare, Ordering.then_eq_lt, Nat.compare_eq_lt, Nat.compare_eq_eq, Nat.compare_eq_lt]

theorem compare_eq_gt_iff :
    a.compare b = .gt ↔ b.year < a.year ∨ a.year = b.year ∧ b.month < a.month := by
  rw [compare, Ordering.then_eq_gt, Nat.compare_eq_gt, Nat.compare_eq_eq, Nat.compare_eq_gt]

theorem compare_eq_eq_iff : a.compare b = .eq ↔ a = b := by
  rw [compare, Ordering.then_eq_eq, Nat.compare_eq_eq, Nat.compare_eq_eq]
  constructor
  · rintro ⟨year, month⟩
    cases a
    cases b
    cases year
    cases month
    rfl
  · rintro rfl
    exact ⟨rfl, rfl⟩

/-- What comes no later than a date comes no later than any later one. -/
theorem compare_ne_gt_trans (first : a.compare b ≠ .gt) (second : b.compare c ≠ .gt) :
    a.compare c ≠ .gt := by
  rw [Ne, compare_eq_gt_iff] at *
  omega

theorem compare_eq_lt_of_lt_of_ne_gt (first : a.compare b = .lt) (second : b.compare c ≠ .gt) :
    a.compare c = .lt := by
  rw [Ne, compare_eq_gt_iff] at second
  rw [compare_eq_lt_iff] at *
  omega

/-! ## Texts -/

/-- The two numbers of a text that is a date. -/
theorem exists_parts_of_parse (read : parse s = some d) :
    ∃ year month : List Char,
      s.toList = year ++ '/' :: month ∧ year.length = 4 ∧ month.length = 2 ∧
        Text.unsigned? 65535 (String.ofList year) = some d.year ∧
        Text.unsigned? 255 (String.ofList month) = some d.month ∧ 1 ≤ d.month ∧ d.month ≤ 12 := by
  simp only [parse] at read
  have parts := List.takeWhile_append_dropWhile (p := (· != '/')) (l := s.toList)
  cases rest : s.toList.dropWhile (· != '/') with
  | nil =>
      rw [rest] at read
      cases read
  | cons slash month =>
      have isSlash : slash = '/' := by
        have stopped := List.head?_dropWhile_not (· != '/') s.toList
        rw [rest] at stopped
        simpa using stopped
      rw [rest, isSlash] at parts
      rw [rest] at read
      simp only [] at read
      split at read
      · rename_i lengths
        simp only [Option.bind_eq_bind, Option.bind_eq_some_iff] at read
        obtain ⟨y, year, m, number, read⟩ := read
        split at read
        · rename_i range
          cases read
          exact ⟨_, month, parts.symm, lengths.1, lengths.2, year, number, range.1, range.2⟩
        · cases read
      · cases read

/-- A date is written in seven bytes. -/
theorem size_of_parse (read : parse s = some d) : Text.Utf8.size s = 7 := by
  obtain ⟨year, month, whole, yearLength, monthLength, y, m, -, -⟩ := exists_parts_of_parse read
  rw [Text.unsigned?_eq_some_iff, String.toList_ofList] at y m
  have ascii : ∀ c ∈ s.toList, c.toNat < 128 := by
    rw [whole]
    intro c member
    rcases List.mem_append.1 member with member | member
    · exact y.1.ascii c member
    · rcases List.mem_cons.1 member with rfl | member
      · decide
      · exact m.1.ascii c member
  have length : s.toList.length = 7 := by
    rw [whole, List.length_append, List.length_cons, yearLength, monthLength]
  exact (Text.Utf8.length_encode ascii).trans length

/-- Two numbers around a slash, of four and of two characters, of which the second is that of a month. -/
def IsSpelled (number : List Char → Nat → Prop) (s : String) (d : SchemaDate) : Prop :=
  ∃ year month : List Char,
    s.toList = year ++ '/' :: month ∧ year.length = 4 ∧ month.length = 2 ∧ number year d.year ∧
      number month d.month ∧ 1 ≤ d.month ∧ d.month ≤ 12

theorem parse_eq_some_iff : parse s = some d ↔ IsSpelled Text.IsUnsigned s d := by
  constructor
  · intro read
    obtain ⟨year, month, whole, yearLength, monthLength, y, m, range⟩ := exists_parts_of_parse read
    rw [Text.unsigned?_eq_some_iff, String.toList_ofList] at y m
    exact ⟨year, month, whole, yearLength, monthLength, y.1, m.1, range⟩
  · rintro ⟨year, month, whole, yearLength, monthLength, y, m, range⟩
    -- The slash is the first one, since a number has none.
    have ahead : ∀ c ∈ year, (c != '/') = true := by
      intro c member
      rw [bne_iff_ne]
      rcases y.isDigit_or_eq c member with digit | rfl
      · exact Text.ne_of_isDigit digit rfl
      · decide
    have front : s.toList.takeWhile (· != '/') = year := by
      rw [whole, List.takeWhile_append_of_pos ahead]
      simp
    have rest : s.toList.dropWhile (· != '/') = '/' :: month := by
      rw [whole, List.dropWhile_append_of_pos ahead]
      rfl
    -- Four characters leave no year that is too large.
    have yearSmall := y.lt_pow
    rw [yearLength] at yearSmall
    have readYear : Text.unsigned? 65535 (String.ofList year) = some d.year := by
      rw [Text.unsigned?_eq_some_iff, String.toList_ofList]
      exact ⟨y, by omega⟩
    have readMonth : Text.unsigned? 255 (String.ofList month) = some d.month := by
      rw [Text.unsigned?_eq_some_iff, String.toList_ofList]
      exact ⟨m, by omega⟩
    simp only [parse, front, rest]
    rw [if_pos ⟨yearLength, monthLength⟩, readYear, readMonth]
    exact if_pos range

/-- Without a `+` there are only digits, and with one there are not. -/
theorem isSpelled_decimal_iff :
    IsSpelled Text.IsDecimal s d ↔ IsSpelled Text.IsUnsigned s d ∧ '+' ∉ s.toList := by
  constructor
  · rintro ⟨year, month, whole, yearLength, monthLength, y, m, range⟩
    refine ⟨⟨year, month, whole, yearLength, monthLength, .inl y, .inl m, range⟩, ?_⟩
    rw [whole, List.mem_append, List.mem_cons, not_or, not_or]
    exact ⟨y.notMem rfl, by decide, m.notMem rfl⟩
  · rintro ⟨⟨year, month, whole, yearLength, monthLength, y, m, range⟩, free⟩
    rw [whole, List.mem_append, List.mem_cons, not_or, not_or] at free
    exact ⟨year, month, whole, yearLength, monthLength, y.isDecimal free.1, m.isDecimal free.2.2, range⟩

/-- Digits of the right count are written again. -/
theorem text_of_isSpelled (spelled : IsSpelled Text.IsDecimal s d) : d.text = s := by
  obtain ⟨year, month, whole, yearLength, monthLength, y, m, -⟩ := spelled
  have yearText := y.decimalPadded_eq
  have monthText := m.decimalPadded_eq
  rw [yearLength] at yearText
  rw [monthLength] at monthText
  rw [text, yearText, monthText, ← String.toList_inj, whole]
  simp

theorem toList_text (d : SchemaDate) :
    d.text.toList = (Text.decimalPadded 4 d.year).toList ++ '/' :: (Text.decimalPadded 2 d.month).toList := by
  rw [text, String.toList_append, String.toList_append, List.append_assoc]
  rfl

theorem plus_notMem_text (d : SchemaDate) : '+' ∉ d.text.toList := by
  have noDigit (width n : Nat) : '+' ∉ (Text.decimalPadded width n).toList := fun member =>
    Text.ne_of_isDigit (Text.isDigit_of_mem_decimalPadded member) (d := '+') rfl rfl
  rw [toList_text, List.mem_append, List.mem_cons, not_or, not_or]
  exact ⟨noDigit 4 d.year, by decide, noDigit 2 d.month⟩

/-- A month of a year of four digits is read from its text. -/
theorem parse_text (year : d.year < 10 ^ 4) (month : 1 ≤ d.month ∧ d.month ≤ 12) : parse d.text = some d := by
  have two : d.month < 10 ^ 2 := Nat.lt_of_le_of_lt month.2 (by decide)
  exact parse_eq_some_iff.2 ⟨_, _, toList_text d, Text.length_decimalPadded (by decide) year,
    Text.length_decimalPadded (by decide) two, .inl (Text.isDecimal_decimalPadded (by decide) year),
    .inl (Text.isDecimal_decimalPadded (by decide) two), month⟩

/-- What is read as a date, and which of it is written again as it was read: the texts of the form `yyyy/MM`, which are
those without a `+`. -/
theorem parse_spelled (s : String) (d : SchemaDate) :
    (parse s = some d ↔ IsSpelled Text.IsUnsigned s d) ∧
      (parse s = some d ∧ d.text = s ↔ IsSpelled Text.IsDecimal s d) ∧
      (parse s = some d → (d.text = s ↔ '+' ∉ s.toList)) := by
  have again : parse s = some d → (d.text = s ↔ '+' ∉ s.toList) := by
    intro read
    constructor
    · rintro rfl
      exact plus_notMem_text d
    · intro free
      exact text_of_isSpelled (isSpelled_decimal_iff.2 ⟨parse_eq_some_iff.1 read, free⟩)
  refine ⟨parse_eq_some_iff, ?_, again⟩
  rw [isSpelled_decimal_iff, ← parse_eq_some_iff]
  exact and_congr_right again

/-- A date that is written again, and one with signs that is not. -/
theorem parse_spelled_summer :
    (parse "2020/06" = some ⟨2020, 6⟩ ∧ (⟨2020, 6⟩ : SchemaDate).text = "2020/06") ∧
      parse "+202/+6" = some ⟨202, 6⟩ ∧ (⟨202, 6⟩ : SchemaDate).text ≠ "+202/+6" := by
  have plain : parse "2020/06" = some ⟨2020, 6⟩ := by decide +kernel
  have signed : parse "+202/+6" = some ⟨202, 6⟩ := by decide +kernel
  refine ⟨⟨plain, ((parse_spelled _ _).2.2 plain).2 (by decide)⟩, signed, fun same => ?_⟩
  exact ((parse_spelled _ _).2.2 signed).1 same (by decide)

/-- A text with a sign is a date, and it is neither of the form of one nor written again. -/
theorem parse_plus :
    parse "+202/06" = some ⟨202, 6⟩ ∧ (⟨202, 6⟩ : SchemaDate).text = "0202/06" ∧
      ¬ ∃ d, IsSpelled Text.IsDecimal "+202/06" d := by
  refine ⟨by decide +kernel, by decide +kernel, ?_⟩
  rintro ⟨d, spelled⟩
  exact (isSpelled_decimal_iff.1 spelled).2 (by decide)

end SchemaDate

end TokenSchema
