import TokenSchema.Document.Attributes

/-!
# Named types in documents

Modules hold named types, whose sequences list their fields. A sequence goes to the name of the element
around it, or to a named type that stands before it on the same level.
-/

namespace TokenSchema
namespace Document

open TokenSchema.Markup

/-- What the attributes of a field say. -/
structure FieldDraft where
  name : Option String
  typeName : Option String
  indexed : Bool

/-- Add what one attribute of a field says; attributes count by their base names. -/
def addFieldProperty (type : String) (f : FieldDraft) (a : Name × String) :
    Except DocumentError FieldDraft :=
  if a.1.base = "type" then .ok { f with typeName := some a.2 }
  else if a.1.base = "name" then .ok { f with name := some a.2 }
  else if a.1.base = "indexed" then .ok { f with indexed := sameIgnoringCase a.2 "true" }
  else .error (.malformed (.foreignFieldProperty type a.1.base))

/-- A field. It must have a name and a type. -/
def readField (type : String) (e : Element) : Except DocumentError Field := do
  let f ← e.tag.attributes.foldlM (addFieldProperty type) ⟨none, none, false⟩
  match f.name.filter (· ≠ ""), f.typeName.filter (· ≠ "") with
  | some name, some typeName => return ⟨name, typeName, f.indexed⟩
  | name, _ => throw (.malformed (.incompleteField type name))

/-- The fields of a sequence. -/
def readSequence (type : String) (e : Element) : Except DocumentError NamedType := do
  return ⟨type, ← e.elements.mapM (readField type)⟩

/-- Add the named types that the content of a module declares. `current` is the name that the next
sequence goes to. -/
def readModule (types : Std.TreeMap String NamedType) (current : Option String) :
    List Node → Except DocumentError (Std.TreeMap String NamedType)
  | [] => .ok types
  | .element tag children :: rest =>
      if tag.name.base = "namedType" then
        let name := (tag.attribute? "name").getD ""
        if name = "" then .error (.malformed .unnamedType)
        else if types.contains name then .error (.duplicateNamedType name)
        else do
          let types ← readModule types (some name) children
          readModule types (some name) rest
      else if tag.name.base = "type" then
        match current with
        | none => .error (.malformed .typeOutsideNamedType)
        | some name => do
            let types ← readModule types (some name) children
            readModule types current rest
      else if tag.name.base = "sequence" then
        match current with
        | none => .error (.malformed .bareSequence)
        | some name => do
            let type ← readSequence name ⟨tag, children⟩
            readModule (types.insert name type) none rest
      else readModule types current rest
  | _ :: rest => readModule types current rest

end Document
end TokenSchema
