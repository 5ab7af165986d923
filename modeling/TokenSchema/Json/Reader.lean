import TokenSchema.Json.Basic
import TokenSchema.Markup.Character
import TokenSchema.Text.Hex

/-!
# Reading JSON

The value that a text stands for. The grammar is the strict one: no leading zeros, no trailing commas,
no control characters in strings, nothing after the value but blanks. What is well-formed without being
of use to a record is kept as it is written.
-/

namespace TokenSchema
namespace Json

/-- Skip blanks. -/
def skipSpace (cs : List Char) : List Char :=
  cs.dropWhile Markup.isSpace

/-! ## Strings -/

/-- A piece of a string: a character, or sixteen bits given by an escape. -/
inductive Piece where
  | char (c : Char)
  | unit (n : Nat)
  deriving DecidableEq, Repr

/-- The character of a short escape. -/
def escapedChar? (c : Char) : Option Char :=
  match c with
  | '\"' => some '\"'
  | '\\' => some '\\'
  | '/' => some '/'
  | 'b' => some '\x08'
  | 'f' => some '\x0c'
  | 'n' => some '\n'
  | 'r' => some '\r'
  | 't' => some '\t'
  | _ => none

/-- The number that hexadecimal digits stand for. -/
def hexNumber? (ds : List Char) : Option Nat :=
  (ds.mapM Text.Hex.digitValue).map (Text.ofDigits 16)

/-- The pieces up to the closing quote, and what follows it. -/
def readPieces : List Char → Option (List Piece × List Char)
  | [] => none
  | '\"' :: rest => some ([], rest)
  | '\\' :: 'u' :: a :: b :: c :: d :: rest => do
      let n ← hexNumber? [a, b, c, d]
      let (ps, rest) ← readPieces rest
      return (.unit n :: ps, rest)
  | '\\' :: e :: rest => do
      let c ← escapedChar? e
      let (ps, rest) ← readPieces rest
      return (.char c :: ps, rest)
  | c :: rest =>
      if c.toNat < 0x20 then none
      else do
        let (ps, rest) ← readPieces rest
        return (.char c :: ps, rest)

/-- The first half of a surrogate pair. -/
def isHighHalf (n : Nat) : Bool :=
  0xD800 ≤ n && n < 0xDC00

/-- The second half of a surrogate pair. -/
def isLowHalf (n : Nat) : Bool :=
  0xDC00 ≤ n && n < 0xE000

/-- The character that two halves stand for. -/
def pairChar (high low : Nat) : Char :=
  Char.ofNat (0x10000 + (high - 0xD800) * 0x400 + (low - 0xDC00))

/-- The characters of pieces; nothing if a half stands without the other. -/
def joinPieces : List Piece → Option (List Char)
  | [] => some []
  | .char c :: rest => (joinPieces rest).map (c :: ·)
  | .unit high :: .unit low :: rest =>
      if isHighHalf high then
        if isLowHalf low then (joinPieces rest).map (pairChar high low :: ·) else none
      else if isLowHalf high then none
      else (joinPieces (.unit low :: rest)).map (Char.ofNat high :: ·)
  | .unit n :: rest =>
      if isHighHalf n || isLowHalf n then none else (joinPieces rest).map (Char.ofNat n :: ·)

/-- A string behind its opening quote: its text, if it has one, and what follows. -/
def readString (cs : List Char) : Option (Option String × List Char) := do
  let (ps, rest) ← readPieces cs
  return ((joinPieces ps).map String.ofList, rest)

/-! ## Numbers -/

/-- At least one digit, and what follows. -/
def readDigits (cs : List Char) : Option (List Char × List Char) :=
  let ds := cs.takeWhile Text.isDigit
  if ds.isEmpty then none else some (ds, cs.dropWhile Text.isDigit)

/-- The fraction, if there is one: a point and digits. -/
def readFraction : List Char → Option (List Char × List Char)
  | '.' :: rest => (readDigits rest).map fun (ds, rest) => ('.' :: ds, rest)
  | cs => some ([], cs)

/-- The digits of an exponent, with or without a sign. -/
def readExponentDigits : List Char → Option (List Char × List Char)
  | '+' :: rest => (readDigits rest).map fun (ds, rest) => ('+' :: ds, rest)
  | '-' :: rest => (readDigits rest).map fun (ds, rest) => ('-' :: ds, rest)
  | cs => readDigits cs

/-- The exponent, if there is one. -/
def readExponent : List Char → Option (List Char × List Char)
  | 'e' :: rest => (readExponentDigits rest).map fun (ds, rest) => ('e' :: ds, rest)
  | 'E' :: rest => (readExponentDigits rest).map fun (ds, rest) => ('E' :: ds, rest)
  | cs => some ([], cs)

/-- A number; it is an integer if it has neither fraction nor exponent and is no negative zero. -/
def readNumber (cs : List Char) : Option (Json × List Char) := do
  let (sign, cs) := match cs with
    | '-' :: rest => (['-'], rest)
    | cs => ([], cs)
  let (ds, cs) ← readDigits cs
  if ds.head? = some '0' ∧ ds ≠ ['0'] then none
  else
    let (fraction, cs) ← readFraction cs
    let (exponent, cs) ← readExponent cs
    let n := Text.ofDecimalDigits ds
    if fraction = [] ∧ exponent = [] ∧ (sign = [] ∨ n ≠ 0) then
      return (.integer (if sign = [] then n else -(n : Int)), cs)
    else return (.foreign (String.ofList (sign ++ ds ++ fraction ++ exponent)), cs)

/-! ## Values -/

/-- An object, or its text if one of its names is no text. -/
def objectOf (text : List Char) (fields : List (Option String × Json)) : Json :=
  match fields.mapM fun (name, j) => name.map (·, j) with
  | some fields => .object fields
  | none => .foreign (String.ofList text)

/-- What two rests of one text have between them. -/
def textBetween (start rest : List Char) : List Char :=
  start.take (start.length - rest.length)

mutual

/-- A value and what follows it. Fuel is spent on values, items and fields. -/
def readValue : Nat → List Char → Option (Json × List Char)
  | 0, _ => none
  | fuel + 1, cs =>
      match skipSpace cs with
      | 'n' :: 'u' :: 'l' :: 'l' :: rest => some (.null, rest)
      | 't' :: 'r' :: 'u' :: 'e' :: rest => some (.bool true, rest)
      | 'f' :: 'a' :: 'l' :: 's' :: 'e' :: rest => some (.bool false, rest)
      | '\"' :: rest => do
          let (text, after) ← readString rest
          match text with
          | some s => return (.string s, after)
          | none => return (.foreign (String.ofList ('\"' :: textBetween rest after)), after)
      | '[' :: rest =>
          match skipSpace rest with
          | ']' :: rest => some (.array [], rest)
          | rest => (readItems fuel rest).map fun (items, rest) => (.array items, rest)
      | '\x7b' :: rest =>
          match skipSpace rest with
          | '\x7d' :: rest => some (.object [], rest)
          | inner => (readFields fuel inner).map fun (fields, after) =>
              (objectOf ('\x7b' :: textBetween rest after) fields, after)
      | rest => readNumber rest

/-- The items of an array up to its end; there is at least one. -/
def readItems : Nat → List Char → Option (List Json × List Char)
  | 0, _ => none
  | fuel + 1, cs => do
      let (j, rest) ← readValue fuel cs
      match skipSpace rest with
      | ',' :: rest => do
          let (items, rest) ← readItems fuel rest
          return (j :: items, rest)
      | ']' :: rest => return ([j], rest)
      | _ => none

/-- The fields of an object up to its end; there is at least one. -/
def readFields : Nat → List Char → Option (List (Option String × Json) × List Char)
  | 0, _ => none
  | fuel + 1, cs =>
      match skipSpace cs with
      | '\"' :: rest => do
          let (name, rest) ← readString rest
          match skipSpace rest with
          | ':' :: rest => do
              let (j, rest) ← readValue fuel rest
              match skipSpace rest with
              | ',' :: rest => do
                  let (fields, rest) ← readFields fuel rest
                  return ((name, j) :: fields, rest)
              | '\x7d' :: rest => return ([(name, j)], rest)
              | _ => none
          | _ => none
      | _ => none

end

/-- The value that a text stands for. No character is the first of both a value and an item or field
twice over, so twice their number is fuel enough. -/
def read (text : String) : Option Json :=
  let cs := text.toList
  match readValue (2 * cs.length + 1) cs with
  | some (j, rest) => if (skipSpace rest).isEmpty then some j else none
  | none => none

end Json
end TokenSchema
