import TokenSchema.Text.Numeral

/-!
# Schema dates

The year and month that a schema namespace carries, written `yyyy/MM`, and the window of schemas that
a reader takes.
-/

namespace TokenSchema

/-- A month of a year. -/
structure SchemaDate where
  year : Nat
  month : Nat
  deriving DecidableEq, Repr

namespace SchemaDate

/-- The earlier of two dates comes first. -/
def compare (a b : SchemaDate) : Ordering :=
  (Ord.compare a.year b.year).then (Ord.compare a.month b.month)

/-- The written form: four digits, a slash, two digits. -/
def text (d : SchemaDate) : String :=
  Text.decimalPadded 4 d.year ++ "/" ++ Text.decimalPadded 2 d.month

/-- The date in a text of four characters, a slash and two characters, each part a number and the
month one of twelve. -/
def parse (s : String) : Option SchemaDate :=
  let cs := s.toList
  let year := cs.takeWhile (· != '/')
  match cs.dropWhile (· != '/') with
  | [] => none
  | _ :: month =>
      if year.length = 4 ∧ month.length = 2 then do
        let y ← Text.unsigned? 65535 (String.ofList year)
        let m ← Text.unsigned? 255 (String.ofList month)
        if 1 ≤ m ∧ m ≤ 12 then some ⟨y, m⟩ else none
      else none

/-- The oldest schema that counts as supported. -/
def oldestSupported : SchemaDate := ⟨2020, 6⟩

/-- The schema that the library implements. -/
def implemented : SchemaDate := ⟨2024, 1⟩

end SchemaDate

/-- How a document's schema stands to the reader's. -/
inductive SchemaStatus where
  | current
  /-- Older than the reader's schema, and read nonetheless. -/
  | outOfDate
  deriving DecidableEq, Repr

/-- The name of a status. -/
def SchemaStatus.name : SchemaStatus → String
  | .current => "Current"
  | .outOfDate => "OutOfDate"

/-- The schema of a document. -/
structure SchemaVersion where
  /-- Absent for the attestation namespace, which carries no date. -/
  date : Option SchemaDate
  status : SchemaStatus
  minimum : SchemaDate
  deriving DecidableEq, Repr

namespace SchemaVersion

/-- The document's schema is older than the reader's. -/
def isOutOfDate (v : SchemaVersion) : Bool :=
  v.status == .outOfDate

/-- The document's schema is older than the oldest supported one. -/
def isBelowMinimum (v : SchemaVersion) : Bool :=
  v.date.any fun d => d.compare v.minimum == .lt

end SchemaVersion

end TokenSchema
