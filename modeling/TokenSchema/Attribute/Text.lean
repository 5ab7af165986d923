import TokenSchema.Amount
import TokenSchema.Attribute.Basic
import TokenSchema.Calendar

/-!
# Values as text

How an attribute shows a raw value (`Attribute.show?`), how it fits a text to its declared form
(`Attribute.adapt`), and what it makes of a text the user types (`Attribute.typed`).
-/

namespace TokenSchema

/-- What stands for a value without twenty bytes where an address is shown. -/
def invalidAddress : String := "<Invalid Address>"

/-- What starts the answer to a text that cannot be converted. -/
def conversionError : String := "<error>"

/-- A number as an address of twenty bytes; negative and longer numbers have none. -/
def addressText (z : Int) : String :=
  if 0 ≤ z ∧ z < Bytes.modulus 20 then Text.Hex.encode0x (Bytes.ofNat 20 z.toNat) else invalidAddress

/-- The bytes of an argument text: digits after `0x`, of which there may be an odd number, or a decimal
number, or else the text itself. Foreign characters after `0x` leave no bytes. -/
def argumentBytes (s : String) : List UInt8 :=
  match Text.trimChars s.toList with
  | '0' :: 'x' :: digits =>
      let even := if digits.length % 2 = 1 then '0' :: digits else digits
      (Text.Hex.decodeChars even).getD []
  | cs =>
      match Text.digitsOnly? cs with
      | some n => Bytes.minimal n
      | none => Text.Utf8.encode (String.ofList cs)

namespace Attribute

/-! ## Showing a value -/

/-- The label of a value, or its time where the form is a time. -/
def label? (a : Attribute) (key : Nat) : Option String :=
  match a.members.bind (·.get? (a.insert key)) with
  | some label => some label
  | none =>
      if a.form = .generalizedTime ∧ key ≤ Text.maxInt64 then Calendar.generalizedTime key else none

/-- A value shown with decimals, after a `-` for a negative one. -/
def amountText (z : Int) (decimals : Nat) : String :=
  (if z < 0 then "-" else "") ++ Amount.render z.natAbs decimals

/-- A raw value as text; a mapping without a label for it and an unknown kind show nothing. -/
def show? (a : Attribute) (z : Int) : Option String :=
  match a.kind with
  | .utf8 =>
      let text := Text.Utf8.decodeLossy (Bytes.minimal z.natAbs)
      some (String.ofList (Text.stripChars (· == '\x00') text.toList))
  | .unsigned | .signed | .tokenId => some (Text.signedDecimal z)
  | .mapping => if z < 0 then none else a.label? z.toNat
  | .boolean => some (if z = 0 then "FALSE" else "TRUE")
  | .unsignedInput => some (Text.decimal (Bytes.toNat (Bytes.minimalSigned z)))
  | .bytes => some (Text.Hex.encode0x (Bytes.minimalSigned z))
  | .address => some (addressText z)
  | .e18 => some (amountText z 18)
  | .e8 => some (amountText z 8)
  | .e6 => some (amountText z 6)
  | .e4 => some (amountText z 4)
  | .e3 => some (amountText z 3)
  | .e2 => some (amountText z 2)
  | .unknown => none

/-! ## Fitting a text to its form -/

/-- A text as the declared form asks for it. -/
def adapt (a : Attribute) (data : String) : String :=
  match a.form with
  | .directoryString | .ia5String | .bitString | .countryString | .jpeg => data
  | .integer =>
      match data.toList.head? with
      | none => "0"
      | some c =>
          if Text.isDigit c then data
          else Text.signedDecimal (Bytes.toInt (Text.Utf8.encode data))
  | .boolean =>
      match data.toList.head? with
      | none => "FALSE"
      | some c =>
          if c == '0' || c == '\x00' then "FALSE"
          else if Text.isDigit c || c == '\x01' then "TRUE"
          else data
  | .numericString =>
      match data.toList with
      | '0' :: 'x' :: rest => if a.kind = .address then data else String.ofList rest
      | _ => data
  | .generalizedTime =>
      if Calendar.isGeneralizedTime data then data
      else ((Text.int64? data).bind Calendar.generalizedTime).getD data

/-! ## What the user types -/

/-- The whole number typed, cut at its first point. -/
def typedNumber (input : String) : String :=
  let number := Amount.isolate input
  if number.isEmpty then conversionError ++ " not a number: " ++ input
  else
    let whole := String.ofList (Amount.splitPoint number).1
    Text.decimal (Bytes.toNat (argumentBytes whole))

/-- The amount typed, scaled by the decimals of the kind. -/
def typedAmount (input : String) (decimals : Nat) : String :=
  match Amount.scale input decimals with
  | some n => Text.decimal n
  | none => conversionError ++ " invalid amount: " ++ input

/-- What a text typed for the attribute means to a call. -/
def typed (a : Attribute) (input : String) : String :=
  if input = "" then ""
  else match a.kind with
  | .unsigned | .signed | .unsignedInput => typedNumber input
  | .utf8 | .address | .unknown => input
  | .bytes =>
      let bytes := argumentBytes input
      if bytes.length ≤ 32 then Text.hexadecimal (a.extract (Bytes.toNat bytes))
      else Text.Hex.encode0x bytes
  | .e18 => typedAmount input 18
  | .e8 => typedAmount input 8
  | .e6 => typedAmount input 6
  | .e4 => typedAmount input 4
  | .e3 => typedAmount input 3
  | .e2 => typedAmount input 2
  | .boolean =>
      match Text.lowercase (Text.trim input) with
      | "true" | "1" => "TRUE"
      | _ => "FALSE"
  | .mapping => conversionError ++ " Mapping in user input params: " ++ a.name
  | .tokenId => conversionError ++ " Token ID in user input params: " ++ a.name

end Attribute

end TokenSchema
