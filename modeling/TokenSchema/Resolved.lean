import TokenSchema.Abi.Basic
import TokenSchema.Attribute.Text

/-!
# Resolved attributes

The value of an attribute for one token, with the text that shows it, and the ways it comes about: from
a number, from a literal, or from the raw text that is kept between runs.
-/

namespace TokenSchema

/-- The value of an attribute for one token. -/
structure Resolved where
  /-- The name of the attribute. -/
  id : String
  /-- The label of the attribute. -/
  label : String
  tokenId : Nat
  value : Option Int
  /-- The text shown; absent where nothing is to be shown. -/
  text : Option String
  form : Form
  kind : Kind
  userInput : Bool
  deriving DecidableEq, Repr

/-- A value as a page takes it. -/
inductive ViewValue where
  | absent
  | flag (b : Bool)
  | number (z : Int)
  | text (s : String)
  deriving DecidableEq, Repr

namespace Resolved

/-! ## Making -/

/-- No value. -/
def blank (a : Attribute) (tokenId : Nat) : Resolved :=
  { id := a.name
    label := a.label
    tokenId := tokenId
    value := none
    text := none
    form := a.form
    kind := a.kind
    userInput := a.userInput }

/-- A number, shown as the attribute shows it. -/
def ofValue (a : Attribute) (tokenId : Nat) (z : Int) : Resolved :=
  { blank a tokenId with value := some z, text := a.show? z }

/-- The text written in the document; it has a value if it is a number. -/
def ofLiteral (a : Attribute) (tokenId : Nat) (literal : String) : Resolved :=
  { blank a tokenId with
    value := Text.integer? (Text.trim literal)
    text := some literal }

/-- Kinds whose raw texts are never numbers. -/
def isTextual (k : Kind) : Bool :=
  k == .utf8 || k == .unknown

/-- A raw text: a number is shown as one, except for textual kinds; anything else is fitted to the
attribute's form. -/
def ofRaw (a : Attribute) (tokenId : Nat) (raw : String) : Resolved :=
  match Text.integer? raw with
  | some z =>
      if isTextual a.kind then { blank a tokenId with text := some (a.adapt raw) }
      else ofValue a tokenId z
  | none => { blank a tokenId with text := some (a.adapt raw) }

/-- The raw text of a decoded value: the number that it is, or what shows it. -/
def rawText (a : Attribute) (v : Abi.Value) : String :=
  if isTextual a.kind then v.display
  else match v.integer? with
    | some z => Text.signedDecimal z
    | none => v.display

/-! ## Using -/

/-- Nothing is shown. -/
def isBlank (r : Resolved) : Bool :=
  r.text.all (· == "")

/-- The text that an argument of a call takes: the number, or for addresses what is shown. -/
def argumentText (r : Resolved) : Option String :=
  match r.value with
  | some z => if r.kind = .address then r.text else some (Text.signedDecimal z)
  | none => r.text

/-- Whether the text counts as a flag. -/
def isFlag (r : Resolved) : Bool :=
  r.kind == .boolean || r.form == .boolean

/-- Whether the text counts as a number. -/
def isNumber (r : Resolved) : Bool :=
  r.kind.isNumeric || r.form == .integer

/-- The value as a page takes it: a flag, a number of 64 bits, or the text. -/
def viewValue (r : Resolved) : ViewValue :=
  match r.text with
  | none => .absent
  | some s =>
      if r.isFlag && s == "TRUE" then .flag true
      else if r.isFlag && s == "FALSE" then .flag false
      else if r.isNumber then
        match Text.int64? s, Text.word64? s with
        | some z, _ => .number z
        | none, some n => .number n
        | none, none => .text s
      else .text s

end Resolved

end TokenSchema
