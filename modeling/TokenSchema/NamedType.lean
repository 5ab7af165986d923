import TokenSchema.Abi.Encode

/-!
# Named types

Sequences of typed fields under a name: the arguments of an event, or the layout of a structure. A
named type has a signature, whose hash is the first topic of the event's logs.
-/

namespace TokenSchema

open TokenSchema.Bytes

/-- One field of a named type. -/
structure Field where
  name : String
  typeName : String
  indexed : Bool
  deriving DecidableEq, Repr

/-- A sequence of fields under a name. -/
structure NamedType where
  name : String
  fields : List Field
  deriving DecidableEq, Repr

namespace NamedType

/-- The fields on one side: indexed, or in the data. -/
def side (t : NamedType) (indexed : Bool) : List Field :=
  t.fields.filter (·.indexed == indexed)

/-- The field names on one side. -/
def fieldNames (t : NamedType) (indexed : Bool) : List String :=
  (t.side indexed).map (·.name)

/-- The position of a name on one side. -/
def position? (t : NamedType) (indexed : Bool) (name : String) : Option Nat :=
  (t.fieldNames indexed).findIdx? (· == name)

/-- The first field with a name. -/
def field? (t : NamedType) (name : String) : Option Field :=
  t.fields.find? (·.name == name)

/-- The name of a field's type in signatures: canonical, or as written for a foreign type. -/
def signatureType (f : Field) : String :=
  match Abi.lookup f.typeName with
  | some t => t.canonical
  | none => f.typeName

/-- The name followed by the field types in parentheses. -/
def signature (t : NamedType) : String :=
  t.name ++ "(" ++ String.intercalate "," (t.fields.map signatureType) ++ ")"

/-- The hash of the signature. -/
def topic (t : NamedType) : Word :=
  Abi.Keccak.hash (Text.Utf8.encode t.signature)

/-- The types at the head of a list of names that are known. -/
def knownTypes : List String → List Abi.Ty
  | [] => []
  | n :: rest =>
      match Abi.lookup n with
      | some t => t :: knownTypes rest
      | none => []

/-- The types of the fields in the data, up to the first foreign one. -/
def dataTypes (t : NamedType) : List Abi.Ty :=
  knownTypes ((t.side false).map (·.typeName))

end NamedType

end TokenSchema
