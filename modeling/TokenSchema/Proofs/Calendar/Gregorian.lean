import Mathlib.Order.SuccPred.LinearLocallyFinite
import TokenSchema.Calendar

/-!
# Gregorian calendar — one day after the other

The dates are those of the proleptic Gregorian calendar: day zero is the first of January 1970 (`dateOfDay_zero`), and
each day has the date after that of the day before (`dateOfDay_succ`), by the lengths of the months and the rule for
leap years. For the proof every day is reckoned from the first of March before it (`exists_firstOfMarch_add`): the leap
day is then the last of its year, and the months lie alike in all years (`ofMarch`). Years never go back, so the days of
a year are told by its turn (`year_le_iff`).
-/

namespace TokenSchema
namespace Calendar

/-! ## The calendar -/

/-- A year with a 29th of February. -/
def isLeap (year : Int) : Bool :=
  year % 4 == 0 && (year % 100 != 0 || year % 400 == 0)

/-- The days of a month, in a leap year or in another one. -/
def monthDays (leap : Bool) : Nat → Nat
  | 2 => if leap then 29 else 28
  | 4 | 6 | 9 | 11 => 30
  | _ => 31

namespace Date

/-- A date that the calendar has. -/
structure IsValid (d : Date) : Prop where
  month : 1 ≤ d.month ∧ d.month ≤ 12
  day : 1 ≤ d.day ∧ d.day ≤ monthDays (isLeap d.year) d.month

/-- The next date, if the year has a leap day or has none. -/
def nextIn (leap : Bool) (d : Date) : Date :=
  if d.day < monthDays leap d.month then { d with day := d.day + 1 }
  else if d.month < 12 then ⟨d.year, d.month + 1, 1⟩
  else ⟨d.year + 1, 1, 1⟩

/-- The next date. -/
def next (d : Date) : Date :=
  d.nextIn (isLeap d.year)

/-- The same day of another year. -/
def later (d : Date) (years : Int) : Date :=
  { d with year := d.year + years }

theorem nextIn_later (leap : Bool) (d : Date) (years : Int) :
    (d.later years).nextIn leap = (d.nextIn leap).later years := by
  by_cases inMonth : d.day < monthDays leap d.month
  · simp only [nextIn, later, inMonth, ↓reduceIte]
  by_cases inYear : d.month < 12
  · simp only [nextIn, later, inMonth, inYear, ↓reduceIte]
  · simp only [nextIn, later, inMonth, inYear, ↓reduceIte, Int.add_right_comm]

theorem year_le_next (d : Date) : d.year ≤ d.next.year := by
  simp only [next, nextIn]
  split
  · exact Int.le_refl _
  split
  · exact Int.le_refl _
  · exact Int.le_of_lt (Int.lt_succ _)

end Date

theorem isLeap_iff {year : Int} : isLeap year = true ↔ year % 4 = 0 ∧ (year % 100 ≠ 0 ∨ year % 400 = 0) := by
  simp [isLeap]

theorem monthDays_eq {month : Nat} (other : month ≠ 2) (leap leap' : Bool) :
    monthDays leap month = monthDays leap' month := by
  unfold monthDays
  split
  · contradiction
  all_goals rfl

/-! ## Years from March to February -/

/-- The first of March of a year, counted from the first of January 1970. -/
def firstOfMarch (year : Int) : Int :=
  365 * year + year / 4 - year / 100 + year / 400 - epochDay

/-- The days of a year with a leap day or without one. -/
def yearDays (leap : Bool) : Nat :=
  if leap then 366 else 365

/-- The days from the first of March of a year to the end of the next February. -/
def marchYearDays (year : Int) : Nat :=
  yearDays (isLeap (year + 1))

/-- The date of so many days after the first of March of a year. -/
def ofMarch (year : Int) (inYear : Nat) : Date :=
  let fromMarch := (5 * inYear + 2) / 153
  let month := if fromMarch < 10 then fromMarch + 3 else fromMarch - 9
  { year := year + (if month ≤ 2 then 1 else 0)
    month := month
    day := inYear - (153 * fromMarch + 2) / 5 + 1 }

variable {year day : Int} {inYear : Nat}

theorem firstOfMarch_succ (year : Int) : firstOfMarch (year + 1) = firstOfMarch year + marchYearDays year := by
  simp only [firstOfMarch, marchYearDays, yearDays]
  split
  · rename_i leap
    rw [isLeap_iff] at leap
    omega
  · rename_i common
    rw [isLeap_iff] at common
    omega

theorem marchYearDays_pos (year : Int) : 0 < marchYearDays year := by
  unfold marchYearDays yearDays
  split <;> decide

theorem le_of_lt_marchYearDays (inside : inYear < marchYearDays year) : inYear ≤ 365 := by
  unfold marchYearDays yearDays at inside
  split at inside <;> omega

/-- Every day is in the year of one March. -/
theorem exists_firstOfMarch_add (day : Int) :
    ∃ year inYear, inYear < marchYearDays year ∧ day = firstOfMarch year + (inYear : Int) := by
  induction day using Int.induction_on with
  | zero => exact ⟨1969, 306, by decide, by decide⟩
  | succ n ih =>
      obtain ⟨year, inYear, inside, place⟩ := ih
      by_cases more : inYear + 1 < marchYearDays year
      · exact ⟨year, inYear + 1, more, by omega⟩
      · have turn := firstOfMarch_succ year
        exact ⟨year + 1, 0, marchYearDays_pos _, by omega⟩
  | pred n ih =>
      obtain ⟨year, inYear, inside, place⟩ := ih
      cases inYear with
      | succ inYear => exact ⟨year, inYear, by omega, by omega⟩
      | zero =>
          have turn := firstOfMarch_succ (year - 1)
          rw [Int.sub_add_cancel] at turn
          have nonempty := marchYearDays_pos (year - 1)
          exact ⟨year - 1, marchYearDays (year - 1) - 1, by omega, by omega⟩

/-! ## The year of a day -/

/-- Within an era, centuries, spans of four years and years are counted off one after the other. The last day of a span
is the only one behind three whole years of 365 days, and the last day of an era behind four whole centuries. -/
theorem yearOfEra_spans {c q v t : Nat} (century : c < 4) (span : q < 25) (single : v < 4) (short : t ≤ 365)
    (last : t = 365 → v = 3 ∧ (q = 24 → c = 3)) :
    yearOfEra (36524 * c + 1461 * q + 365 * v + t) = 100 * c + 4 * q + v := by
  generalize place : 36524 * c + 1461 * q + 365 * v + t = n
  have common : ∀ ahead ≤ t, n - (25 * c + q + ahead) + c = 365 * (100 * c + 4 * q + v) + (t - ahead) := by
    omega
  have centuries : n / 36524 = c + n / 146096 := by
    by_cases final : q = 24 ∧ t = 365
    · obtain ⟨rfl, rfl⟩ := final
      obtain ⟨rfl, three⟩ := last rfl
      obtain rfl := three rfl
      rw [← place]
    · have rest : 1461 * q + 365 * v + t < 36524 := by omega
      rw [Nat.div_eq_of_lt (by omega : n < 146096), ← place, Nat.add_assoc, Nat.add_assoc, ← Nat.add_assoc (1461 * q),
        Nat.mul_add_div (by decide), Nat.div_eq_of_lt rest]
  -- The count of leap days is ahead by one from some day of the last year of a span on.
  obtain ⟨ahead, leaps, low, inYear⟩ :
      ∃ ahead, n / 1460 = 25 * c + q + ahead ∧ ahead ≤ t ∧ t - ahead < 365 := by
    rw [← place]
    by_cases late : 1460 ≤ 24 * c + q + 365 * v + t
    · exact ⟨1, by omega, by omega, by omega⟩
    · exact ⟨0, by omega, by omega, by omega⟩
  rw [yearOfEra, leaps, centuries, ← Nat.add_assoc, Nat.add_sub_cancel, common ahead low, Nat.mul_add_div (by decide),
    Nat.div_eq_of_lt inYear, Nat.add_zero]

/-- The years of an era are found from its days. -/
theorem yearOfEra_add {r : Nat} (inEra : r < 400) (inside : inYear < marchYearDays r) :
    yearOfEra (365 * r + r / 4 - r / 100 + inYear) = r := by
  obtain ⟨c, q, v, rfl, century, span, single⟩ :
      ∃ c q v, r = 100 * c + 4 * q + v ∧ c < 4 ∧ q < 25 ∧ v < 4 :=
    ⟨r / 100, r % 100 / 4, r % 4, by omega, by omega, by omega, by omega⟩
  have last : inYear = 365 → v = 3 ∧ (q = 24 → c = 3) := by
    rintro rfl
    have leap : isLeap ((100 * c + 4 * q + v : Nat) + 1) = true := by
      by_contra common
      rw [marchYearDays, yearDays, if_neg common] at inside
      exact Nat.lt_irrefl _ inside
    rw [isLeap_iff] at leap
    push_cast at leap
    omega
  have quarters : (100 * c + 4 * q + v) / 4 = 25 * c + q := by omega
  have centuries : (100 * c + 4 * q + v) / 100 = c := by omega
  have place : 365 * (100 * c + 4 * q + v) + (100 * c + 4 * q + v) / 4 - (100 * c + 4 * q + v) / 100 + inYear =
      36524 * c + 1461 * q + 365 * v + inYear := by
    rw [quarters, centuries]
    omega
  rw [place, yearOfEra_spans century span single (le_of_lt_marchYearDays inside) last]

theorem dateOfDay_firstOfMarch_add (inside : inYear < marchYearDays year) :
    dateOfDay (firstOfMarch year + (inYear : Int)) = ofMarch year inYear := by
  obtain ⟨era, r, inEra, rfl⟩ : ∃ (era : Int) (r : Nat), r < 400 ∧ year = era * 400 + r :=
    ⟨year / 400, (year % 400).toNat, by omega, by omega⟩
  -- Eras are alike.
  have same : isLeap (era * 400 + r + 1) = isLeap (r + 1) := by
    rw [Bool.eq_iff_iff, isLeap_iff, isLeap_iff]
    omega
  rw [marchYearDays, same] at inside
  have found := yearOfEra_add inEra inside
  have short := le_of_lt_marchYearDays inside
  obtain ⟨inDays, days⟩ : ∃ n, n = 365 * r + r / 4 - r / 100 + inYear := ⟨_, rfl⟩
  have small : inDays < 146097 := by omega
  have shifted : firstOfMarch (era * 400 + r) + (inYear : Int) + epochDay = era * eraDays + inDays := by
    have quarters : (era * 400 + r) / 4 = era * 100 + (r : Int) / 4 := by omega
    have centuries : (era * 400 + r) / 100 = era * 4 + (r : Int) / 100 := by omega
    have eras : (era * 400 + r) / 400 = era := by omega
    rw [firstOfMarch, quarters, centuries, eras, eraDays, days]
    omega
  have eras : (era * eraDays + inDays) / eraDays = era := by
    rw [eraDays]
    omega
  have rest : ((era * eraDays + inDays) % eraDays).toNat = inDays := by
    rw [eraDays]
    omega
  simp only [dateOfDay, shifted, eras, rest]
  rw [days, found, Nat.add_sub_cancel_left, ofMarch, Int.add_comm (r : Int)]

/-! ## One day after the other -/

theorem ofMarch_later (year : Int) (inYear : Nat) : ofMarch year inYear = (ofMarch 0 inYear).later year := by
  simp only [ofMarch, Date.later]
  rw [Int.zero_add, Int.add_comm]

/-- The months from March to February, day by day. -/
theorem nextIn_ofMarch_zero : ∀ leap : Bool, ∀ t < yearDays leap,
    (ofMarch 0 t).nextIn leap = (if t + 1 < yearDays leap then ofMarch 0 (t + 1) else ofMarch 1 0) ∧
      (1 ≤ (ofMarch 0 t).month ∧ (ofMarch 0 t).month ≤ 12) ∧
      1 ≤ (ofMarch 0 t).day ∧ (ofMarch 0 t).day ≤ monthDays leap (ofMarch 0 t).month := by
  decide +kernel

/-- The leap day that a date may have before it is that at the end of its March year. -/
theorem monthDays_ofMarch (year : Int) (inYear : Nat) :
    monthDays (isLeap (ofMarch year inYear).year) (ofMarch year inYear).month =
      monthDays (isLeap (year + 1)) (ofMarch year inYear).month := by
  by_cases february : (ofMarch year inYear).month = 2
  · have turned : (ofMarch year inYear).year = year + 1 := by
      simp only [ofMarch] at february ⊢
      rw [february]
      rfl
    rw [turned]
  · exact monthDays_eq february _ _

theorem next_ofMarch (inside : inYear < marchYearDays year) :
    (ofMarch year inYear).next =
      if inYear + 1 < marchYearDays year then ofMarch year (inYear + 1) else ofMarch (year + 1) 0 := by
  have step := (nextIn_ofMarch_zero (isLeap (year + 1)) inYear inside).1
  have leap : (ofMarch year inYear).next = (ofMarch year inYear).nextIn (isLeap (year + 1)) := by
    simp only [Date.next, Date.nextIn, monthDays_ofMarch]
  rw [leap, ofMarch_later, Date.nextIn_later, step, ← marchYearDays]
  split
  · exact (ofMarch_later year _).symm
  · rw [ofMarch_later (year + 1), ofMarch_later 1]
    simp only [Date.later, Int.add_assoc, Int.add_comm 1 year]

theorem isValid_dateOfDay (day : Int) : (dateOfDay day).IsValid := by
  obtain ⟨year, inYear, inside, rfl⟩ := exists_firstOfMarch_add day
  obtain ⟨-, month, days⟩ := nextIn_ofMarch_zero (isLeap (year + 1)) inYear inside
  rw [dateOfDay_firstOfMarch_add inside]
  exact ⟨month, by rw [monthDays_ofMarch]; exact days⟩

theorem dateOfDay_zero : dateOfDay 0 = ⟨1970, 1, 1⟩ := by
  decide

/-- Each day has the date after that of the day before. -/
theorem dateOfDay_succ (day : Int) : dateOfDay (day + 1) = (dateOfDay day).next := by
  obtain ⟨year, inYear, inside, rfl⟩ := exists_firstOfMarch_add day
  rw [dateOfDay_firstOfMarch_add inside, next_ofMarch inside]
  split
  · rename_i more
    rw [← dateOfDay_firstOfMarch_add more, Int.add_assoc]
    rfl
  · rename_i turn
    have last : inYear + 1 = marchYearDays year := by omega
    rw [← dateOfDay_firstOfMarch_add (marchYearDays_pos _), firstOfMarch_succ, ← last, Int.add_assoc, Int.add_assoc]
    rfl

/-! ## Years -/

theorem year_mono {day later : Int} (le : day ≤ later) : (dateOfDay day).year ≤ (dateOfDay later).year :=
  monotone_int_of_le_succ (f := fun day => (dateOfDay day).year)
    (fun day => by
      rw [dateOfDay_succ]
      exact (dateOfDay day).year_le_next)
    le

/-- The days up to the end of a year, told by its last one. -/
theorem year_le_iff (day : Int) {year last : Int} (before : (dateOfDay last).year = year)
    (after : (dateOfDay (last + 1)).year = year + 1) : (dateOfDay day).year ≤ year ↔ day ≤ last := by
  constructor
  · intro early
    by_contra late
    have turned : (dateOfDay (last + 1)).year ≤ (dateOfDay day).year := year_mono (by omega)
    omega
  · intro early
    exact before ▸ year_mono early

end Calendar
end TokenSchema
