import TokenSchema.Definition
import TokenSchema.Document.Localised

/-!
# Calls and events in documents

Reading the elements that say where a value comes from: contract calls with their arguments, and
events. Contracts and named types are those declared before the element.
-/

namespace TokenSchema
namespace Document

open TokenSchema.Markup

/-- The namespace of elements about the chain. -/
def chainNamespace : String := "urn:ethereum:constantinople"

/-- The namespace of signatures. -/
def signatureNamespace : String := "http://www.w3.org/2000/09/xmldsig#"

/-- Whether an element is about the chain: by its namespace, or by the prefix of that. -/
def isChainElement (e : Element) : Bool :=
  e.tag.name.space.any fun space =>
    space == chainNamespace || e.tag.prefixOf? space == some "ethereum"

/-- Whether an element belongs to a signature. -/
def isSignatureElement (e : Element) : Bool :=
  e.tag.name.space == some signatureNamespace

/-- A number of at most 64 bits, blanks around it aside. -/
def chainNumber (value : String) (place : NumberPlace) : Except DocumentError Nat :=
  match Text.word64? (Text.trim value) with
  | some n => .ok n
  | none => .error (.invalidNumber value place)

/-- The source of an argument's value. -/
def argumentSource (e : Element) : ArgumentSource :=
  .ofParts (e.tag.attribute? "ref") (e.tag.attribute? "local-ref") e.textContent

/-- Add what an element directly below a call says: the arguments, or one of the two arguments of a
transaction. -/
def addCallPart (c : CallTemplate) (e : Element) : CallTemplate :=
  if e.label = "data" then
    { c with
      arguments := c.arguments ++ e.elements.map fun a => ⟨a.label, argumentSource a⟩ }
  else if e.label = "to" ∨ e.label = "value" then
    { c with transaction := some ((c.transaction.getD ∅).insert e.label (argumentSource e)) }
  else c

/-- A call or transaction. It goes to the contract it names, if that is declared, else to the holding
contract. -/
def readCall (d : Definition) (form : Form) (e : Element) : CallTemplate :=
  let named := (e.tag.filled? "contract").bind (d.contracts.get? ·)
  let word := (e.tag.attribute? "as").getD ""
  let kind := Kind.ofWord word
  let start : CallTemplate :=
    { CallTemplate.ofMethod ((e.tag.filled? "function").getD "") with
      contract := named.or d.holdingContract?
      kind := kind
      resultType := if kind = .unknown then some word else none
      form := form }
  e.elements.foldl addCallPart start

/-- An event. Its type must be declared. -/
def readEvent (d : Definition) (e : Element) : Except DocumentError EventSource := do
  let name ← match e.tag.filled? "type" with
    | some name => .ok name
    | none => .error (.malformed .eventWithoutType)
  let type ← match d.namedTypes.get? name with
    | some t => .ok t
    | none => .error (.unresolvedNamedType name)
  let fromBlock ← match e.tag.filled? "readBlock" with
    | some block => do
        let n ← chainNumber block (.firstBlock name)
        pure (some n)
    | none => .ok none
  return { EventSource.ofType type with
    contract := (e.tag.filled? "contract").bind (d.contracts.get? ·)
    filter := e.tag.filled? "filter"
    select := e.tag.filled? "select"
    fromBlock := fromBlock }

/-- The last origin that an element lists. -/
def readOrigins (d : Definition) (e : Element) : Except DocumentError (Option Origin) :=
  e.elements.foldlM (fun _ o => do
    if o.label = "ethereum" then
      return some (.contract ((o.tag.filled? "contract").getD ""))
    else if o.label = "event" then do
      let source ← readEvent d o
      return some (.event { source with contract := source.contract.or d.holdingContract? })
    else if o.label = "attestation" then
      return some (.attestation ((o.tag.filled? "name").getD ""))
    else throw (.unknownOrigin o.label)) none

end Document
end TokenSchema
