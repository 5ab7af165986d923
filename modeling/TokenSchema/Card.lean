import TokenSchema.Attribute.Basic

/-!
# Cards

What a document declares besides attributes: where the token comes from, views and actions, the
selections that hide them, activity cards and attestations.
-/

namespace TokenSchema

/-- Where a token, or a card's activity, comes from. -/
inductive Origin where
  | contract (name : String)
  | attestation (name : String)
  | event (source : EventSource)

namespace Origin

/-- The name of an origin. -/
def name : Origin → String
  | .contract n | .attestation n => n
  | .event e => e.type.name

/-- The word for the sort of an origin. -/
def sort : Origin → String
  | .contract _ => "contract"
  | .attestation _ => "attestation"
  | .event _ => "event"

/-- The event that an origin is. -/
def event? : Origin → Option EventSource
  | .event e => some e
  | _ => none

/-- Contracts and attestations hold the token. -/
def isHolding : Origin → Bool
  | .contract _ | .attestation _ => true
  | .event _ => false

end Origin

/-- A page shown for a token. -/
structure View where
  label : Option String
  content : String
  style : String
  urlFragment : Option String
  /-- Attributes declared inside the view. -/
  attributes : Std.TreeMap String Attribute

/-- What sets an action apart. -/
inductive Modifier where
  | none
  | attestation
  | activity
  deriving DecidableEq, Repr

namespace Modifier

/-- The name of a modifier. -/
def name : Modifier → String
  | .none => "None"
  | .attestation => "Attestation"
  | .activity => "Activity"

/-- The modifier that a document's word stands for, in any case; no word stands for none. -/
def ofWord? (s : String) : Option Modifier :=
  match Text.lowercase (Text.trim s) with
  | "attestation" => some .attestation
  | "none" | "" => some .none
  | _ => Option.none

end Modifier

/-- Something a user can do with a token. -/
structure Action where
  label : Option String
  /-- The place of the action among all actions of the document. -/
  order : Nat
  /-- The selection that hides the action. -/
  exclude : Option String
  view : Option View
  style : String
  attributes : Std.TreeMap String Attribute
  call : Option CallTemplate
  modifier : Modifier

/-- The key of an action: its label, or its place for an action without one. -/
def Action.key (a : Action) : String :=
  a.label.getD ("#" ++ Text.decimal a.order)

/-- A condition on attributes, with names by quantity and a message for what it refuses. -/
structure Selection where
  name : String
  filter : String
  names : Std.TreeMap String String
  denial : Option String

namespace Selection

/-- Whether the brackets balance from the given depth on: none closes before it opens, and none
stays open. -/
def balanced (depth : Nat) : List Char → Bool
  | [] => depth == 0
  | '(' :: rest => balanced (depth + 1) rest
  | ')' :: rest => depth != 0 && balanced (depth - 1) rest
  | _ :: rest => balanced depth rest

/-- The operators that need something after them. -/
def isOperator (c : Char) : Bool :=
  c == '&' || c == '|' || c == '!' || c == '='

/-- Whether a filter text is an expression: not blank, brackets balanced, no operator at its end. -/
def isExpression (filter : String) : Bool :=
  let cs := Text.trimChars filter.toList
  !cs.isEmpty && balanced 0 cs && !(cs.getLast?.any isOperator)

end Selection

/-- A card for an activity of the token. -/
structure ActivityCard where
  origin : Option Origin
  views : Std.TreeMap String View

/-- The event that an activity card listens to. -/
def ActivityCard.event? (c : ActivityCard) : Option EventSource :=
  c.origin.bind Origin.event?

/-- A kind of attestation. -/
structure Attestation where
  name : String
  /-- Texts by the name of their element. -/
  notes : Std.TreeMap String String
  /-- The deployment of the attestation service. -/
  contract : Option Contract
  schemaUid : Option String
  issuerKey : Option String
  collectionKeys : List String
  idFields : List String
  /-- The call that checks an attestation. -/
  call : Option CallTemplate

end TokenSchema
