import TokenSchema.Text.Blank
import TokenSchema.Text.Numeral

/-!
# Generalized time

Dates of the proleptic Gregorian calendar and times of day in UTC, and their written form
`yyyyMMddHHmmss+0000`. The calendar repeats every 400 years, counted from the first of March of the
year zero, so a leap day ends its year.
-/

namespace TokenSchema
namespace Calendar

/-! ## Dates -/

/-- A day of the proleptic Gregorian calendar. -/
structure Date where
  year : Int
  month : Nat
  day : Nat
  deriving DecidableEq, Repr

/-- Days in 400 years. -/
def eraDays : Nat := 146097

/-- Days from the first of March of the year zero to the first of January 1970. -/
def epochDay : Int := 719468

/-- The year within an era of a day within the era. -/
def yearOfEra (day : Nat) : Nat :=
  (day - day / 1460 + day / 36524 - day / 146096) / 365

/-- The date of a day counted from the first of January 1970. -/
def dateOfDay (day : Int) : Date :=
  let shifted := day + epochDay
  let era := shifted / eraDays
  let inEra := (shifted % eraDays).toNat
  let year := yearOfEra inEra
  let inYear := inEra - (365 * year + year / 4 - year / 100)
  let fromMarch := (5 * inYear + 2) / 153
  let month := if fromMarch < 10 then fromMarch + 3 else fromMarch - 9
  { year := (year : Int) + era * 400 + (if month ≤ 2 then 1 else 0)
    month := month
    day := inYear - (153 * fromMarch + 2) / 5 + 1 }

/-! ## Written form -/

/-- The earliest second with a written form, the first of the year -9999. -/
def earliest : Int := -377705116800

/-- The latest second with a written form, the last of the year 9999. -/
def latest : Int := 253402300799

/-- A year in four digits, after a `-` if it lies before the year zero. -/
def yearText (year : Int) : String :=
  (if year < 0 then "-" else "") ++ Text.decimalPadded 4 year.natAbs

/-- The time, in UTC, of a second counted from the start of 1970; years outside -9999 to 9999 have no
written form. -/
def generalizedTime (epoch : Int) : Option String :=
  if earliest ≤ epoch ∧ epoch ≤ latest then
    let date := dateOfDay (epoch / 86400)
    let second := (epoch % 86400).toNat
    let two := Text.decimalPadded 2
    some (yearText date.year ++ two date.month ++ two date.day ++
      two (second / 3600) ++ two (second / 60 % 60) ++ two (second % 60) ++ "+0000")
  else none

/-- What may follow the fourteen digits of a time: `Z`, or a sign and four digits. -/
def isZone : List Char → Bool
  | ['Z'] => true
  | sign :: rest => (sign == '+' || sign == '-') && rest.length == 4 && rest.all Text.isDigit
  | [] => false

/-- Whether a text, blanks around it aside, has the written form of a time. -/
def isGeneralizedTime (s : String) : Bool :=
  let cs := Text.trimChars s.toList
  (cs.take 14).length == 14 && (cs.take 14).all Text.isDigit && isZone (cs.drop 14)

end Calendar
end TokenSchema
