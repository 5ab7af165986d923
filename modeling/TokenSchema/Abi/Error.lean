import TokenSchema.Text.Utf8

/-!
# Codec errors

Why a value cannot be written as a call argument, and why data cannot be read.
-/

namespace TokenSchema
namespace Abi

/-- Why a value cannot be encoded. -/
inductive EncodeError where
  /-- No type has that name. -/
  | unknownType (name : String)
  /-- The value does not belong to the type. -/
  | invalidValue (type value : String)
  /-- A parameter has no value. -/
  | missingValue (what : String)
  deriving DecidableEq, Repr

/-- Why data cannot be decoded. -/
inductive DecodeError where
  /-- The data ends before the needed end. -/
  | tooShort (expected actual : Nat)
  /-- An offset or length does not fit in 64 bits. -/
  | offsetTooLarge
  /-- The bytes of a string are no text. -/
  | notUtf8 (fault : Text.Utf8.Fault)
  /-- No type has that name. -/
  | unknownType (name : String)
  deriving DecidableEq, Repr

/-- The wording of an encoding error. -/
def EncodeError.message : EncodeError → String
  | .unknownType name => "unknown ABI type: " ++ name
  | .invalidValue type value => "value '" ++ value ++ "' cannot be encoded as " ++ type
  | .missingValue what => "no value available for " ++ what ++ " parameter"

/-- The wording of a decoding error. -/
def DecodeError.message : DecodeError → String
  | .tooShort expected actual =>
      "data too short: expected at least " ++ toString expected ++ " bytes, got " ++
        toString actual
  | .offsetTooLarge => "invalid ABI encoding: offset too large for usize"
  | .notUtf8 fault => "invalid ABI encoding: invalid UTF-8: " ++ fault.message
  | .unknownType name => "unknown ABI type: " ++ name

end Abi
end TokenSchema
