import TokenSchema.Document.Cards

/-!
# Attestations in documents

Reading a kind of attestation: its texts, the service that issues it, and the call that checks it. The
service becomes a contract under the name of the attestation.
-/

namespace TokenSchema
namespace Document

open TokenSchema.Markup

/-- The names of fields, by attribute or by text; empty ones are left out. -/
def readFieldNames (e : Element) : List String :=
  (e.elements.map fun f => (f.tag.filled? "name").getD f.textContent).filter (· ≠ "")

/-- Add the texts of an attestation, each under the name of its element; the first one counts. -/
def addNotes (language : String) (notes : Std.TreeMap String String) (e : Element) :
    Std.TreeMap String String :=
  e.elements.foldl (fun notes child =>
    if notes.contains child.label then notes
    else match localisedText language e child.label with
      | some text => notes.insert child.label text
      | none => notes) notes

/-- Add the service of an attestation. -/
def addService (d : Definition) (a : Attestation) (e : Element) :
    Except DocumentError (Definition × Attestation) := do
  let network := (e.tag.attribute? "network").getD ""
  let chainId ← chainNumber network (.attestationNetwork a.name)
  let address := (e.tag.filled? "address").getD e.textContent
  let contract := (Contract.empty (some "eas")).add chainId address
  return ({ d with contracts := d.contracts.insert a.name contract },
    { a with contract := some contract, schemaUid := e.tag.filled? "schemaUID" })

/-- Add the call that checks an attestation; a structure that it names must be declared. -/
def addCheck (d : Definition) (a : Attestation) (e : Element) :
    Except DocumentError Attestation :=
  match e.elements.head? with
  | none => .ok a
  | some f =>
      let call := readCall d .ia5String f
      match call.resultType with
      | some type =>
          if d.namedTypes.contains type then .ok { a with call := some call }
          else .error (.unresolvedNamedType type)
      | none => .ok { a with call := some call }

/-- Add what an element directly below an attestation says. -/
def addAttestationPart (language : String) (s : Definition × Attestation) (e : Element) :
    Except DocumentError (Definition × Attestation) := do
  let (d, a) := s
  if e.label = "meta" then return (d, { a with notes := addNotes language a.notes e })
  else if e.label = "eas" then addService d a e
  else if e.label = "key" then return (d, { a with issuerKey := some e.textContent })
  else if e.label = "collectionFields" then
    return (d, { a with collectionKeys := readFieldNames e })
  else if e.label = "idFields" then return (d, { a with idFields := readFieldNames e })
  else if e.label = "origins" then
    let a ← addCheck d a e
    return (d, a)
  else return s

/-- Add an attestation to the definition. -/
def addAttestation (language : String) (d : Definition) (e : Element) :
    Except DocumentError Definition := do
  let start : Attestation :=
    { name := (e.tag.attribute? "name").getD ""
      notes := ∅
      contract := none
      schemaUid := none
      issuerKey := none
      collectionKeys := []
      idFields := []
      call := none }
  let (d, a) ← e.elements.foldlM (addAttestationPart language) (d, start)
  return { d with attestations := d.attestations.insert a.name a }

end Document
end TokenSchema
