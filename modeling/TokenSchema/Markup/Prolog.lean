import TokenSchema.Markup.Token

/-!
# The prolog

What may stand before the root element: a declaration, asides, and a document type, of which only the
internal general entities matter.
-/

namespace TokenSchema
namespace Markup

/-- The replacement texts of entities, in the order of their declarations. -/
abbrev Entities := List (String × List Char)

/-! ## The declaration -/

/-- Some space, or none before the end of the declaration. -/
def declarationSpaces (cs : List Char) : Except MarkupFault (List Char) :=
  match cs with
  | [] => .ok []
  | c :: _ =>
      if isSpace c then .ok (skipSpaces cs)
      else match after? "?>" cs with
        | some _ => .ok cs
        | none => .error .unexpectedCharacter

/-- An item of the declaration that may be missing. -/
def declarationItem (name : String) (cs : List Char) : Except MarkupFault (List Char) :=
  match after? name cs with
  | none => .ok cs
  | some _ => do
      let (_, rest) ← scanAttribute cs
      return rest

/-- The declaration, after its opening `<?xml`: a version, then an encoding and a `standalone` item or
not. -/
def scanDeclaration (cs : List Char) : Except MarkupFault (List Char) := do
  let rest ← declarationSpaces cs
  let _ ← expect "version" rest
  let rest ← declarationSpaces (← declarationItem "version" rest)
  let rest ← match after? "encoding" rest with
    | some _ => declarationSpaces (← declarationItem "encoding" rest)
    | none => .ok rest
  let rest ← declarationItem "standalone" rest
  expect "?>" (skipSpaces rest)

/-- Asides and space. -/
def skipAsides (cs : List Char) : Except MarkupFault (List Char) :=
  let spaced := skipSpaces cs
  match after? "<!--" spaced, after? "<?" spaced with
  | some body, _ => do
      let rest ← scanComment body
      if _h : rest.length < cs.length then skipAsides rest else .error .unexpectedEnd
  | none, some body => do
      let rest ← scanInstruction body
      if _h : rest.length < cs.length then skipAsides rest else .error .unexpectedEnd
  | none, none => .ok spaced
termination_by cs.length

/-! ## The document type -/

/-- The identifier of an external part, if there is one. -/
def externalId (cs : List Char) : Except MarkupFault (Option (List Char)) :=
  match after? "SYSTEM" cs, after? "PUBLIC" cs with
  | some rest, _ => do
      let (_, rest) ← scanLiteral (← expectSpaces rest)
      return some rest
  | none, some rest => do
      let (_, rest) ← scanLiteral (← expectSpaces rest)
      let (_, rest) ← scanLiteral (← expectSpaces rest)
      return some rest
  | none, none => .ok none

/-- The name of a foreign data format after an external identifier. -/
def foreignData (cs : List Char) : Except MarkupFault (List Char) :=
  let spaced := skipSpaces cs
  match after? "NDATA" spaced with
  | none => .ok spaced
  | some rest => do
      let (_, rest) ← scanName (← expectSpaces rest)
      return rest

/-- What an entity stands for: a text, or nothing for an external part. -/
def entityValue (isGeneral : Bool) : Scan (Option (List Char)) := fun cs =>
  match cs with
  | '"' :: _ | '\'' :: _ => do
      let (value, rest) ← scanLiteral cs
      return (some value, rest)
  | _ => do
      match ← externalId cs with
      | none => .error .unexpectedCharacter
      | some rest => return (none, ← if isGeneral then foreignData rest else .ok rest)

/-- An entity declaration, after its opening. -/
def scanEntity : Scan Entities := fun cs => do
  let rest ← expectSpaces cs
  let (isGeneral, rest) ← match rest with
    | '%' :: rest => do pure (false, ← expectSpaces rest)
    | rest => pure (true, rest)
  let (name, rest) ← scanName rest
  let (value, rest) ← entityValue isGeneral (← expectSpaces rest)
  let rest ← expect ">" (skipSpaces rest)
  return ((value.map fun v => (name, v)).toList, rest)

/-- One item of the internal part of the document type. -/
def scanItem : Scan Entities := fun cs =>
  match after? "<!ENTITY" cs, after? "<!--" cs, after? "<?" cs with
  | some rest, _, _ => scanEntity rest
  | none, some rest, _ => do return ([], ← scanComment rest)
  | none, none, some rest => do return ([], ← scanInstruction rest)
  | none, none, none =>
      if ["<!ELEMENT", "<!ATTLIST", "<!NOTATION"].any fun s => (after? s cs).isSome then do
        let rest ← expect ">" (cs.dropWhile (· != '>'))
        return ([], rest)
      else .error .unexpectedCharacter

/-- The internal part of the document type, up to its end. -/
def scanItems (cs : List Char) : Except MarkupFault (Entities × List Char) :=
  match skipSpaces cs with
  | [] => .error .unexpectedEnd
  | ']' :: rest => do return ([], ← expect ">" (skipSpaces rest))
  | spaced => do
      let (found, rest) ← scanItem spaced
      if _h : rest.length < cs.length then
        let (more, rest) ← scanItems rest
        return (found ++ more, rest)
      else .error .unexpectedEnd
termination_by cs.length

/-- The document type, after its opening. -/
def scanDocumentType : Scan Entities := fun cs => do
  let (_, rest) ← scanName (← expectSpaces cs)
  let rest := skipSpaces rest
  let rest := skipSpaces ((← externalId rest).getD rest)
  match rest with
  | '>' :: rest => return ([], rest)
  | '[' :: rest => scanItems rest
  | [] => .error .unexpectedEnd
  | _ => .error .unexpectedCharacter

/-! ## All of it -/

/-- Everything before the root element: the entities declared there, and what remains. -/
def scanProlog : Scan Entities := fun cs => do
  let cs := match cs with
    | c :: rest => if c.toNat = 0xFEFF then rest else cs
    | [] => []
  let rest ← match after? "<?xml " cs with
    | some rest => scanDeclaration (' ' :: rest)
    | none => pure cs
  let rest ← skipAsides rest
  match after? "<!DOCTYPE" rest with
  | none => return ([], rest)
  | some rest => do
      let (entities, rest) ← scanDocumentType rest
      return (entities, ← skipAsides rest)

end Markup
end TokenSchema
