import TokenSchema.Document.Attestations
import TokenSchema.Markup.Tree
import TokenSchema.Schema.Namespace

/-!
# Reading documents

From the text of a document to the definition of its token. The locale is looked at first, then the
markup, the schema, and the elements in document order; the first fault ends the reading.
-/

namespace TokenSchema
namespace Document

open TokenSchema.Markup

/-! ## Contracts -/

/-- A contract being read, and the named types declared so far. -/
structure ContractDraft where
  contract : Contract
  types : Std.TreeMap String NamedType

/-- Add what an element directly below a contract says. -/
def addContractPart (name : String) (c : ContractDraft) (e : Element) :
    Except DocumentError ContractDraft := do
  if e.label = "address" then
    let chainId ← chainNumber ((e.tag.attribute? "network").getD "") (.network name)
    return { c with contract := c.contract.add chainId e.textContent }
  else if e.label = "module" then
    let types ← readModule c.types none e.children
    return { c with types := types }
  else return c

/-- Add a contract to the definition. -/
def addContract (d : Definition) (e : Element) : Except DocumentError Definition := do
  let name := (e.tag.filled? "name").getD ""
  let start : ContractDraft := ⟨.empty (e.tag.filled? "interface"), d.namedTypes⟩
  let c ← e.elements.foldlM (addContractPart name) start
  return { d with
    contracts := d.contracts.insert name c.contract
    namedTypes := c.types }

/-! ## The token -/

/-- Add the origins of the token; a contract or an attestation holds it. -/
def addOrigins (d : Definition) (e : Element) : Except DocumentError Definition := do
  match ← readOrigins d e with
  | none => return d
  | some o =>
      return { d with
        defaultOrigin := some o
        holdingToken := if o.isHolding then some o.name else d.holdingToken }

/-- Add a selection whose filter is an expression. -/
def addSelection (language : String) (d : Definition) (e : Element) : Definition :=
  match readSelection language e with
  | some s =>
      if Selection.isExpression s.filter then
        { d with selections := d.selections.insert s.name s }
      else d
  | none => d

/-- Add what an element directly below the token says. -/
def addTokenPart (language : String) (s : Draft) (e : Element) : Except DocumentError Draft := do
  let d := s.definition
  if e.label = "origins" then return { s with definition := ← addOrigins d e }
  else if e.label = "contract" then return { s with definition := ← addContract d e }
  else if e.label = "label" then
    let labels := (readQuantities language e).foldl (fun acc k v => acc.insert k v) d.labels
    return { s with definition := { d with labels := labels } }
  else if e.label = "selection" then
    return { s with definition := addSelection language d e }
  else if e.label = "module" then
    let types ← readModule d.namedTypes none e.children
    return { s with definition := { d with namedTypes := types } }
  else if e.label = "cards" then e.elements.foldlM (addCardsPart language) s
  else if e.label = "attribute" then
    let a ← readAttribute language d e
    return { s with definition := { d with attributes := d.attributes.insert a.name a } }
  else if e.label = "attestation" then
    return { s with definition := ← addAttestation language d e }
  else return s

/-! ## Documents -/

/-- The schema namespace of a document: that of the root element, else the first one the root
declares. -/
def schemaNamespace (root : Element) : Option String :=
  (root.tag.name.space.filter Schema.isSchemaNamespace).or
    ((root.tag.scope.map (·.space)).find? Schema.isSchemaNamespace)

/-- The name of the key of the document's signature, from all the elements at the top. -/
def signatureKey (top : List Element) : Option String :=
  ((top.flatMap fun e => e :: e.descendants).find? fun e =>
    e.label == "KeyName" && isSignatureElement e).map (·.textContent)

/-- The definition that the root element gives. -/
def readRoot (language : String) (start : Definition) (root : Element) :
    Except DocumentError Definition := do
  if root.label = "token" then
    let s ← root.elements.foldlM (addTokenPart language) ⟨start, 0⟩
    return s.definition
  else if root.label = "card" then
    let a ← readAction language start 0 root
    return (Draft.addAction ⟨start, 0⟩ a).definition
  else throw (.foreignRoot root.label)

/-- The definition in a document. -/
def read (document : String) (options : ReaderOptions) : Except DocumentError Definition := do
  let language ← languageOf options.locale
  let (root, following) ← (readDocument document).mapError .markup
  match schemaNamespace root with
  | none => throw .noNamespace
  | some name =>
      let version ← Schema.versionOf name options
      let d ← readRoot language (.empty name version options.locale) root
      return { d with keyName := signatureKey (root :: following) }

/-- The definition in a document of bytes. -/
def readBytes (document : List UInt8) (options : ReaderOptions) :
    Except DocumentError Definition :=
  match Text.Utf8.decode document with
  | .ok text => read text options
  | .error fault => .error (.notUtf8 fault)

/-- The definition in a document, read as the settings ask for. -/
def readWith (document : String) (settings : Settings) : Except Error Definition :=
  match settings.readerOptions with
  | .error e => .error (.settings e)
  | .ok options => (read document options).mapError .document

end Document
end TokenSchema
