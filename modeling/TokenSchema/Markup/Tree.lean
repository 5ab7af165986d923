import TokenSchema.Markup.Node
import TokenSchema.Markup.Reference

/-!
# Trees from tokens

Building the tree of a document: names are given their namespaces, references are replaced, elements
are closed by end tags of their own name, and neighbouring texts become one.

The replacement text of an entity is read as content where the reference stands. It may leave elements
open, and it may close elements that were open before it, once it has had a start tag. If it breaks a
start tag off, what that tag says passes to the next tag that ends (`Builder.settle`).
-/

namespace TokenSchema
namespace Markup

/-! ## Namespaces -/

/-- The namespace of the prefix `xml`. -/
def xmlNamespace : String := "http://www.w3.org/XML/1998/namespace"

/-- The namespace of the prefix `xmlns`. -/
def xmlnsNamespace : String := "http://www.w3.org/2000/xmlns/"

/-- An attribute whose references are replaced. -/
structure PlainAttribute where
  name : RawName
  value : String
  deriving DecidableEq, Repr

/-- Add the declaration of a prefix to those that the same tag makes. -/
def declarePrefix (own : Scope) (label space : String) : Except MarkupFault Scope :=
  if space = xmlnsNamespace then .error .reservedNamespace
  else if (label == "xml") != (space == xmlNamespace) then .error .reservedNamespace
  else if own.any (·.label == some label) then .error (.duplicateNamespace label)
  else if space = xmlNamespace then .ok own
  else .ok (own ++ [⟨some label, space⟩])

/-- Add the declaration of a default namespace to those that the same tag makes. -/
def declareDefault (own : Scope) (space : String) : Except MarkupFault Scope :=
  if space = xmlnsNamespace ∨ space = xmlNamespace then .error .reservedNamespace
  else .ok (own ++ [⟨none, space⟩])

/-- Add inherited declarations of prefixes that are not declared anew. -/
def inherit (own : Scope) : Scope → Scope
  | [] => own
  | b :: rest => inherit (if own.any (·.label == b.label) then own else own ++ [b]) rest

/-- The declarations in force in an element: its own, then those inherited. -/
def scopeOf (own inherited : Scope) : Scope :=
  if own.isEmpty then inherited else inherit own inherited

/-- The namespace of a qualifier; without one, the default namespace, if there is one. -/
def spaceOf (scope : Scope) (qualifier : String) : Except MarkupFault (Option String) :=
  let label := if qualifier = "" then none else some qualifier
  match scope.find? (·.label == label) with
  | some b => .ok (some b.space)
  | none => if qualifier = "" then .ok none else .error (.unknownPrefix qualifier)

/-- The name of an attribute; one without a qualifier has no namespace. -/
def attributeName (scope : Scope) (n : RawName) : Except MarkupFault Name :=
  if n.qualifier = "xml" then .ok ⟨some xmlNamespace, n.base⟩
  else if n.qualifier = "" then .ok ⟨none, n.base⟩
  else do return ⟨← spaceOf scope n.qualifier, n.base⟩

/-- Attributes under their full names, each name once. -/
def fullAttributes (scope : Scope) (attributes : List PlainAttribute) :
    Except MarkupFault (List (Name × String)) :=
  attributes.foldlM (fun done a => do
    let name ← attributeName scope a.name
    if done.any (·.1 == name) then .error (.duplicateAttribute name.base)
    else return done ++ [(name, a.value)]) []

/-! ## Building -/

/-- An element that is not closed yet: its tag, and what stands before it, nearest first. -/
structure OpenElement where
  raw : RawName
  tag : Tag
  before : List Node

/-- A tree in the making. -/
structure Builder where
  /-- The open elements, innermost first. -/
  stack : List OpenElement
  /-- The nodes of the innermost element, in reverse. -/
  nodes : List Node
  /-- The number of references counted. -/
  count : Nat
  /-- Whether the content at hand has had a start tag. -/
  started : Bool
  /-- The attributes read since a tag last ended, those that declare nothing. -/
  attributes : List PlainAttribute
  /-- The namespaces declared since a tag last ended. -/
  declared : Scope

/-- Neighbouring texts become one. -/
def joinTexts : List Node → List Node
  | .text a :: rest =>
      match joinTexts rest with
      | .text b :: more => .text (a ++ b) :: more
      | more => .text a :: more
  | n :: rest => n :: joinTexts rest
  | [] => []

/-- What is known about the place of a token: the entities, whether it stands inside one, and how the
values of attributes and the contents of entities are had. -/
structure Surroundings where
  entities : Entities
  nested : Bool
  value : Nat → List Char → Except MarkupFault (List Char × Nat)
  content : Builder → List Char → Except MarkupFault Builder

namespace Builder

/-- A document of which nothing is read. -/
def empty : Builder :=
  ⟨[], [], 0, false, [], []⟩

/-- The declarations in force at the place reached. -/
def scope (b : Builder) : Scope :=
  match b.stack with
  | [] => []
  | e :: _ => e.tag.scope

/-- Add a node. -/
def addNode (b : Builder) (n : Node) : Builder :=
  { b with nodes := n :: b.nodes }

/-- Add a text, unless it is empty. -/
def addText (b : Builder) (cs : List Char) : Builder :=
  if cs.isEmpty then b else b.addNode (.text (String.ofList cs))

/-! ### Tags -/

/-- Add an attribute with a value in which references are replaced; it may declare a namespace. -/
def addAttribute (s : Surroundings) (b : Builder) (a : RawAttribute) :
    Except MarkupFault Builder := do
  let (cs, count) ← s.value b.count a.value
  let value := String.ofList cs
  let b := { b with count := count }
  if a.name.qualifier = "xmlns" then
    return { b with declared := ← declarePrefix b.declared a.name.base value }
  else if a.name.base = "xmlns" then
    return { b with declared := ← declareDefault b.declared value }
  else return { b with attributes := b.attributes ++ [⟨a.name, value⟩] }

/-- Add the attributes of a start tag. -/
def startTag (s : Surroundings) (b : Builder) (attributes : List RawAttribute) :
    Except MarkupFault Builder :=
  attributes.foldlM (addAttribute s) { b with started := true }

/-- Where a tag ends: the declarations in force there, the attributes under their full names, and the
builder from which they are taken. -/
def settle (b : Builder) : Except MarkupFault (Scope × List (Name × String) × Builder) := do
  let scope := scopeOf b.declared b.scope
  let attributes ← fullAttributes scope b.attributes
  return (scope, attributes, { b with attributes := [], declared := [] })

/-- The tag with a name at the end of a start tag. -/
def settleTag (b : Builder) (raw : RawName) : Except MarkupFault (Tag × Builder) := do
  let (scope, attributes, b) ← b.settle
  return (⟨⟨← spaceOf scope raw.qualifier, raw.base⟩, attributes, scope⟩, b)

/-- Open an element. -/
def openElement (b : Builder) (raw : RawName) : Except MarkupFault Builder := do
  let (tag, b) ← b.settleTag raw
  return { b with stack := ⟨raw, tag, b.nodes⟩ :: b.stack, nodes := [] }

/-- Close the innermost element. What broken tags have said is checked and forgotten. -/
def closeElement (b : Builder) (raw : RawName) : Except MarkupFault Builder := do
  let (_, _, b) ← b.settle
  match b.stack with
  | [] => throw .unbalancedElement
  | e :: stack =>
      if b.started && e.raw = raw then
        return { b with
          stack := stack
          nodes := .element e.tag (joinTexts b.nodes.reverse) :: e.before }
      else throw .unbalancedElement

/-! ### Texts -/

/-- Add a text as written. `held` is the text since the last entity, in reverse; the character after a
reference, and every referenced one outside entities, is taken as it stands. -/
def addPieces (s : Surroundings) (b : Builder) (held : List Char) (literal : Bool) :
    List Piece → Except MarkupFault Builder
  | [] => .ok (b.addText held.reverse)
  | .plain c :: rest =>
      addPieces s b (if literal then c :: held else pushText held c rest.isEmpty) false rest
  | .referenced c :: rest =>
      if s.nested then addPieces s b (pushText held c rest.isEmpty) literal rest
      else addPieces s b (c :: held) true rest
  | .entity name :: rest => do
      let text ← replacementText s.entities name
      let count ← countReference s.nested b.count
      let inner ← s.content { b.addText held.reverse with count := count, started := false } text
      let count := if s.nested then inner.count else 0
      addPieces s { inner with count := count, started := b.started } [] false rest

/-! ### Tokens -/

/-- Add a token. -/
def step (s : Surroundings) (b : Builder) : Token → Except MarkupFault Builder
  | .openTag raw attributes => do (← b.startTag s attributes).openElement raw
  | .emptyTag raw attributes => do
      let (tag, b) ← (← b.startTag s attributes).settleTag raw
      return b.addNode (.element tag [])
  | .brokenTag _ attributes => do return (← b.startTag s attributes).addNode .aside
  | .closeTag raw => b.closeElement raw
  | .text raw => do addPieces s b [] false (← pieces raw)
  | .verbatim raw => .ok (b.addText (normalizeBreaks [] raw))
  | .aside => .ok (b.addNode .aside)

end Builder

/-- Add the replacement text of an entity, with so many further entities allowed inside one another.
What follows the end tag of the element around it is not read. -/
def addEntity (entities : Entities) : (left : Nat) → Builder → List Char →
    Except MarkupFault Builder
  | 0, b, raw => do
      let s : Surroundings :=
        ⟨entities, true, attributeValue entities 0 true, fun _ _ => .error .entityNesting⟩
      (← scanContent raw).1.foldlM (Builder.step s) b
  | left + 1, b, raw => do
      let s : Surroundings :=
        ⟨entities, true, attributeValue entities (left + 1) true, addEntity entities left⟩
      (← scanContent raw).1.foldlM (Builder.step s) b

/-! ## Documents -/

/-- The elements at the top of a document. The first is its root; others follow only where an entity
closes the root. -/
def topElements (entities : Entities) (tokens : List Token) :
    Except MarkupFault (Element × List Element) := do
  let s : Surroundings :=
    ⟨entities, false, attributeValue entities nestingLimit false,
      addEntity entities (nestingLimit - 1)⟩
  let b ← tokens.foldlM (Builder.step s) .empty
  if !b.stack.isEmpty then throw .unbalancedElement
  else
    match b.nodes.reverse.filterMap (·.element?) with
    | root :: following => return (root, following)
    | [] => throw .noRoot

/-- The root element of a document, and the elements after it at the top. -/
def readDocument (document : String) : Except MarkupFault (Element × List Element) := do
  let (entities, rest) ← scanProlog document.toList
  match rest with
  | [] => throw .noRoot
  | '<' :: rest =>
      let (tokens, rest) ← scanElement rest
      if (← skipAsides rest).isEmpty then topElements entities tokens
      else throw .unexpectedCharacter
  | _ => throw .unexpectedCharacter

end Markup
end TokenSchema
