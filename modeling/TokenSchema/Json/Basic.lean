import TokenSchema.Text.Numeral

/-!
# JSON values

The values that records are read from and written as, and the compact form in which they are written:
no blanks, fields in order, and only the escapes that must be.
-/

namespace TokenSchema

/-- A JSON value. -/
inductive Json where
  | null
  | bool (b : Bool)
  | integer (z : Int)
  | string (s : String)
  | array (items : List Json)
  /-- Fields in order; a name may stand twice. -/
  | object (fields : List (String × Json))
  /-- A value that no record reads, as it is written: a number that is no integer, a text that holds
  half a surrogate pair, or an object with such a text for a name. -/
  | foreign (text : String)
  deriving Repr

namespace Json

/-! ## Strings -/

/-- The letter after the backslash in the short escape of a character. -/
def shortEscape? (c : Char) : Option Char :=
  match c with
  | '\"' => some '\"'
  | '\\' => some '\\'
  | '\x08' => some 'b'
  | '\x0c' => some 'f'
  | '\n' => some 'n'
  | '\r' => some 'r'
  | '\t' => some 't'
  | _ => none

/-- The written form of a character in a string: control characters, quotes and backslashes are
escaped. -/
def renderChar (c : Char) : List Char :=
  match shortEscape? c with
  | some e => ['\\', e]
  | none =>
      if c.toNat < 0x20 then
        let digit (n : Nat) := Nat.digitChar (n % 16)
        ['\\', 'u', '0', '0', digit (c.toNat / 16), digit c.toNat]
      else [c]

/-- The written form of a string. -/
def renderText (s : String) : List Char :=
  '\"' :: (s.toList.flatMap renderChar ++ ['\"'])

/-! ## Values -/

mutual

/-- The compact written form of a value. -/
def renderChars : Json → List Char
  | .null => "null".toList
  | .bool true => "true".toList
  | .bool false => "false".toList
  | .integer z => (Text.signedDecimal z).toList
  | .string s => renderText s
  | .array items => '[' :: (renderItems items ++ [']'])
  | .object fields => '\x7b' :: (renderFields fields ++ ['\x7d'])
  | .foreign text => text.toList

/-- The written form of items, with commas between them. -/
def renderItems : List Json → List Char
  | [] => []
  | j :: rest =>
      match rest with
      | [] => renderChars j
      | _ :: _ => renderChars j ++ ',' :: renderItems rest

/-- The written form of fields, with commas between them. -/
def renderFields : List (String × Json) → List Char
  | [] => []
  | (name, j) :: rest =>
      match rest with
      | [] => renderText name ++ ':' :: renderChars j
      | _ :: _ => renderText name ++ ':' :: (renderChars j ++ ',' :: renderFields rest)

end

/-- The compact written form of a value. -/
def render (j : Json) : String :=
  String.ofList (renderChars j)

end Json

end TokenSchema
