import TokenSchema.Text.Blank
import TokenSchema.Text.Lowercase

/-!
# Value kinds and text forms

How the raw value of an attribute is turned into text (`Kind`), and the form that the declared type
asks of a text (`Form`).
-/

namespace TokenSchema

/-- How a raw value is shown and typed in. -/
inductive Kind where
  | unsigned
  | signed
  | utf8
  | bytes
  | address
  | boolean
  | mapping
  | tokenId
  | unsignedInput
  | e18
  | e8
  | e6
  | e4
  | e3
  | e2
  | unknown
  deriving DecidableEq, Repr

namespace Kind

/-- All kinds. -/
def all : List Kind :=
  [unsigned, signed, utf8, bytes, address, boolean, mapping, tokenId, unsignedInput, e18, e8, e6,
    e4, e3, e2, unknown]

/-- The name of a kind in records. -/
def name : Kind → String
  | unsigned => "Unsigned"
  | signed => "Signed"
  | utf8 => "UTF8"
  | bytes => "Bytes"
  | address => "Address"
  | boolean => "Boolean"
  | mapping => "Mapping"
  | tokenId => "TokenId"
  | unsignedInput => "UnsignedInput"
  | e18 => "E18"
  | e8 => "E8"
  | e6 => "E6"
  | e4 => "E4"
  | e3 => "E3"
  | e2 => "E2"
  | unknown => "Unknown"

/-- The kind with a name. -/
def ofName? (s : String) : Option Kind :=
  all.find? (·.name == s)

/-- The kind that a document's word stands for, in any case; no word stands for text, and a foreign
word for no kind. -/
def ofWord (s : String) : Kind :=
  match Text.lowercase (Text.trim s) with
  | "signed" => signed
  | "string" | "utf8" | "" => utf8
  | "bytes" => bytes
  | "e18" => e18
  | "e8" => e8
  | "e6" => e6
  | "e4" => e4
  | "e3" => e3
  | "e2" => e2
  | "bool" => boolean
  | "mapping" => mapping
  | "address" => address
  | "uint" => unsigned
  | _ => unknown

/-- The number of decimals of a fixed-point kind. -/
def decimals? : Kind → Option Nat
  | e18 => some 18
  | e8 => some 8
  | e6 => some 6
  | e4 => some 4
  | e3 => some 3
  | e2 => some 2
  | _ => none

/-- Kinds whose values are numbers. -/
def isNumeric (k : Kind) : Bool :=
  match k with
  | unsigned | signed | unsignedInput | tokenId | boolean => true
  | _ => k.decimals?.isSome

end Kind

/-- The form that a declared type asks of a text. -/
inductive Form where
  | directoryString
  | ia5String
  | integer
  | generalizedTime
  | boolean
  | bitString
  | countryString
  | jpeg
  | numericString
  deriving DecidableEq, Repr

namespace Form

/-- All forms. -/
def all : List Form :=
  [directoryString, ia5String, integer, generalizedTime, boolean, bitString, countryString, jpeg,
    numericString]

/-- The name of a form in records. -/
def name : Form → String
  | directoryString => "DirectoryString"
  | ia5String => "IA5String"
  | integer => "Integer"
  | generalizedTime => "GeneralizedTime"
  | boolean => "Boolean"
  | bitString => "BitString"
  | countryString => "CountryString"
  | jpeg => "JPEG"
  | numericString => "NumericString"

/-- The form with a name. -/
def ofName? (s : String) : Option Form :=
  all.find? (·.name == s)

/-- The last number of the object identifier of a form. -/
def arc : Form → String
  | bitString => "6"
  | boolean => "7"
  | countryString => "11"
  | jpeg => "28"
  | numericString => "36"
  | generalizedTime => "24"
  | ia5String => "26"
  | integer => "27"
  | directoryString => "15"

/-- The object identifier of a form. -/
def oid (f : Form) : String :=
  "1.3.6.1.4.1.1466.115.121.1." ++ f.arc

/-- The form with an object identifier, blanks around it aside. -/
def ofOid? (s : String) : Option Form :=
  let key := Text.trim s
  all.find? (·.oid == key)

end Form

end TokenSchema
