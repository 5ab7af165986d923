import TokenSchema.Settings

/-!
# Schema namespaces

The namespace of a document names the schema it follows. A schema namespace holds the base address, a
date, and a name without a slash; the attestation namespace has no date.
-/

namespace TokenSchema
namespace Schema

/-- What every dated schema namespace holds. -/
def baseAddress : String := "http://tokenscript.org/"

/-- The schema namespace without a date. -/
def attestationNamespace : String := "http://attestation.id/ns/tbml"

/-- What follows the first occurrence of a list in another. -/
def afterFirst (pattern : List Char) : List Char → Option (List Char)
  | [] => if pattern.isEmpty then some [] else none
  | c :: rest =>
      if pattern.isPrefixOf (c :: rest) then some ((c :: rest).drop pattern.length)
      else afterFirst pattern rest

/-- What stands before the last slash, if there is one. -/
def beforeLastSlash (cs : List Char) : Option (List Char) :=
  match cs.reverse.dropWhile (· != '/') with
  | [] => none
  | _ :: before => some before.reverse

/-- Whether a namespace is that of a schema, dated well or not. -/
def isSchemaNamespace (name : String) : Bool :=
  (afterFirst baseAddress.toList name.toList).isSome || name == attestationNamespace

/-- The date of a namespace: what stands between the base address and the last slash. -/
def namespaceDate (name : String) : Option SchemaDate := do
  let rest ← afterFirst baseAddress.toList name.toList
  let date ← beforeLastSlash rest
  SchemaDate.parse (String.ofList date)

/-- The schema version of a namespace, judged by the reader's window. -/
def versionOf (name : String) (options : ReaderOptions) : Except DocumentError SchemaVersion :=
  if name = attestationNamespace then .ok ⟨none, .current, options.minimum⟩
  else match namespaceDate name with
  | none => .error (.malformedNamespace name)
  | some date =>
      match date.compare options.current with
      | .eq => .ok ⟨some date, .current, options.minimum⟩
      | .lt => .ok ⟨some date, .outOfDate, options.minimum⟩
      | .gt => .error (.newerSchema date.text options.current.text)

end Schema
end TokenSchema
