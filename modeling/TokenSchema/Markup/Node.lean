import TokenSchema.Text.Blank

/-!
# Document trees

Elements, texts, and the asides between texts. A name is a pair of a namespace and a base name; an
attribute without a qualifier has no namespace, whatever the namespace of its element.
-/

namespace TokenSchema
namespace Markup

/-- A name together with its namespace. -/
structure Name where
  space : Option String
  base : String
  deriving DecidableEq, Repr

/-- A namespace declaration that is in force: a prefix, absent for the default namespace, and a
namespace. -/
structure Binding where
  label : Option String
  space : String
  deriving DecidableEq, Repr

/-- The namespace declarations in force, those of the nearest element first. -/
abbrev Scope := List Binding

/-- What the start tag of an element says. -/
structure Tag where
  name : Name
  attributes : List (Name × String)
  scope : Scope
  deriving DecidableEq, Repr

/-- A part of a document. -/
inductive Node where
  | element (tag : Tag) (children : List Node)
  | text (content : String)
  /-- What keeps the texts beside it apart: a comment, an instruction, or a broken tag. -/
  | aside
  deriving Repr

/-- An element. -/
structure Element where
  tag : Tag
  children : List Node
  deriving Repr

/-! ## Tags -/

namespace Tag

/-- The value of the attribute with a base name and no namespace. -/
def attribute? (t : Tag) (name : String) : Option String :=
  (t.attributes.find? fun a => a.1 == ⟨none, name⟩).map (·.2)

/-- The value of an attribute that is there and not empty. -/
def filled? (t : Tag) (name : String) : Option String :=
  (t.attribute? name).filter (· ≠ "")

/-- The prefix that a namespace has; the first declaration in force counts. -/
def prefixOf? (t : Tag) (space : String) : Option String :=
  if space = "http://www.w3.org/XML/1998/namespace" then some "xml"
  else (t.scope.find? (·.space == space)).bind (·.label)

end Tag

/-! ## Elements -/

namespace Node

/-- The element that a node is. -/
def element? : Node → Option Element
  | .element tag children => some ⟨tag, children⟩
  | _ => none

/-- The text that a node is. -/
def text? : Node → Option String
  | .text content => some content
  | _ => none

mutual

/-- A node and everything below it, in document order. -/
def withDescendants : Node → List Node
  | .element tag children => .element tag children :: listDescendants children
  | n => [n]

/-- The nodes of a list and everything below them, in document order. -/
def listDescendants : List Node → List Node
  | [] => []
  | n :: rest => n.withDescendants ++ listDescendants rest

end

end Node

namespace Element

/-- The base name of an element. -/
def label (e : Element) : String :=
  e.tag.name.base

/-- The element as a node. -/
def node (e : Element) : Node :=
  .element e.tag e.children

/-- The elements directly below. -/
def elements (e : Element) : List Element :=
  e.children.filterMap (·.element?)

/-- The elements below, in document order. -/
def descendants (e : Element) : List Element :=
  (Node.listDescendants e.children).filterMap (·.element?)

/-- The texts below, run together, without blanks at either end. -/
def textContent (e : Element) : String :=
  Text.trim (String.join ((Node.listDescendants e.children).filterMap (·.text?)))

/-- The language of an element: its first attribute named `lang`, in whatever namespace. -/
def language (e : Element) : String :=
  match e.tag.attributes.find? fun a => a.1.base == "lang" with
  | some a => Text.trim a.2
  | none => ""

end Element

end Markup
end TokenSchema
