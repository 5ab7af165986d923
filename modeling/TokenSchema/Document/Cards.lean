import TokenSchema.Document.NamedTypes
import TokenSchema.Markup.Html

/-!
# Cards in documents

Reading views, actions and activity cards, and the selections that hide actions.
-/

namespace TokenSchema
namespace Document

open TokenSchema.Markup

/-- A definition being read, and the number of actions seen. -/
structure Draft where
  definition : Definition
  actionCount : Nat

/-! ## Texts by quantity -/

/-- Add the text of an element by its quantity. -/
def addQuantity (names : Std.TreeMap String String) (e : Element) : Std.TreeMap String String :=
  if e.label = "string" then
    names.insert ((e.tag.attribute? "quantity").getD "") e.textContent
  else names

/-- The texts of a label by quantity. -/
def readQuantities (language : String) (e : Element) : Std.TreeMap String String :=
  match localisedBelow language e "plurals" with
  | some plurals => plurals.elements.foldl addQuantity ∅
  | none =>
      match localisedBelow language e "string" with
      | some text => addQuantity ∅ text
      | none => ∅

/-! ## Selections -/

/-- Add what an element directly below a selection says. -/
def addSelectionPart (language : String) (s : Selection) (e : Element) : Selection :=
  if e.label = "name" then { s with names := readQuantities language e }
  else if e.label = "denial" then { s with denial := localisedText language e "string" }
  else s

/-- A selection, unless it has no filter. -/
def readSelection (language : String) (e : Element) : Option Selection := do
  let filter ← e.tag.attribute? "filter"
  let name := ((e.tag.filled? "name").or (e.tag.filled? "id")).getD ""
  return e.elements.foldl (addSelectionPart language) ⟨name, filter, ∅, none⟩

/-! ## Views -/

/-- Add what an element directly below a view says. -/
def addViewPart (language : String) (d : Definition) (v : View) (e : Element) :
    Except DocumentError View := do
  if e.label = "label" then
    return { v with label := (localisedChild language e).or v.label }
  else if e.label = "style" then return { v with style := v.style ++ e.html }
  else if e.label = "attribute" then
    let a ← readAttribute language d e
    return { v with attributes := v.attributes.insert a.name a }
  else if e.label = "view" ∨ e.label = "item-view" ∨ e.label = "html" then
    return { v with content := v.content ++ e.html }
  else return v

/-- A view. Without content of its own, all of its element is the content. -/
def readView (language : String) (d : Definition) (e : Element) : Except DocumentError View := do
  let start : View := ⟨e.tag.filled? "name", "", "", e.tag.filled? "urlFragment", ∅⟩
  let v ← e.elements.foldlM (addViewPart language d) start
  return if v.content = "" then { v with content := e.html } else v

/-! ## Actions -/

/-- The transaction of an action: the first element, if it is a transaction on the chain. -/
def readTransaction (d : Definition) (e : Element) : Option CallTemplate :=
  e.elements.head?.bind fun t =>
    if t.label = "transaction" ∧ isChainElement t then some (readCall d .ia5String t) else none

/-- Add what an element directly below an action says. -/
def addActionPart (language : String) (d : Definition) (a : Action) (e : Element) :
    Except DocumentError Action := do
  if isSignatureElement e then return a
  else if e.label = "label" then return { a with label := localisedChild language e }
  else if e.label = "attribute" then
    let value ← readAttribute language d e
    return { a with attributes := a.attributes.insert value.name value }
  else if e.label = "transaction" then return { a with call := (readTransaction d e).or a.call }
  else if e.label = "exclude" then return { a with exclude := e.tag.filled? "selection" }
  else if e.label = "view" then
    let v ← readView language d e
    return { a with view := some v }
  else if e.label = "style" then return { a with style := e.html }
  else if e.label = "input" ∨ e.label = "output" then return a
  else throw (.unexpectedElement (.inAction e.label (a.label.getD "")))

/-- The modifier of a card. -/
def readModifier (e : Element) : Except DocumentError Modifier :=
  let word := (e.tag.attribute? "modifier").getD ""
  match Modifier.ofWord? word with
  | some m => .ok m
  | none => .error (.unexpectedElement (.modifier word))

/-- An action, numbered `order`. -/
def readAction (language : String) (d : Definition) (order : Nat) (e : Element) :
    Except DocumentError Action := do
  let modifier ← readModifier e
  let start : Action :=
    { label := none
      order := order
      exclude := e.tag.filled? "exclude"
      view := none
      style := ""
      attributes := ∅
      call := none
      modifier := modifier }
  e.elements.foldlM (addActionPart language d) start

/-- Add an action to the definition. -/
def Draft.addAction (s : Draft) (a : Action) : Draft :=
  { definition := { s.definition with actions := s.definition.actions.insert a.key a }
    actionCount := s.actionCount + 1 }

/-! ## Activity cards -/

/-- An activity card being read. -/
structure ActivityDraft where
  name : String
  origin : Option Origin
  views : Std.TreeMap String View

/-- Add what an element directly below an activity card says. -/
def addActivityPart (language : String) (d : Definition) (c : ActivityDraft) (e : Element) :
    Except DocumentError ActivityDraft := do
  if e.label = "origins" then
    match ← readOrigins d e with
    | some (.event source) => return { c with origin := some (.event source) }
    | _ => return c
  else if e.label = "view" ∨ e.label = "item-view" then
    let v ← readView language d e
    return { c with views := c.views.insert e.label v }
  else if e.label = "label" then
    return { c with name := if c.name = "" then (localisedChild language e).getD "" else c.name }
  else throw (.unexpectedElement (.inActivityCard e.label))

/-- An activity card with its name. Without an event of its own it has the token's origin. -/
def readActivity (language : String) (d : Definition) (e : Element) :
    Except DocumentError (String × ActivityCard) := do
  let start : ActivityDraft := ⟨(e.tag.filled? "name").getD "", none, ∅⟩
  let c ← e.elements.foldlM (addActivityPart language d) start
  return (c.name, ⟨c.origin.or d.defaultOrigin, c.views⟩)

/-! ## Cards -/

/-- Add a token view to the definition. -/
def addTokenView (language : String) (s : Draft) (e : Element) : Except DocumentError Draft := do
  let d := s.definition
  let v ← readView language d e
  return { s with definition := { d with tokenViews := d.tokenViews.insert (v.label.getD "") v } }

/-- Add a card to the definition, by its type. -/
def addCard (language : String) (s : Draft) (e : Element) : Except DocumentError Draft := do
  let d := s.definition
  let type := (e.tag.attribute? "type").getD ""
  if type = "token" then addTokenView language s e
  else if type = "activity" ∧ (e.elements.any (·.label == "origins")) then
    let (name, card) ← readActivity language d e
    return { s with definition := { d with activityCards := d.activityCards.insert name card } }
  else if type = "action" ∨ type = "activity" then
    let a ← readAction language d s.actionCount e
    return s.addAction (if type = "activity" then { a with modifier := .activity } else a)
  else if type = "onboarding" then return s
  else throw (.unexpectedElement (.cardType type))

/-- Add what an element among the cards says. -/
def addCardsPart (language : String) (s : Draft) (e : Element) : Except DocumentError Draft := do
  if e.label = "token" ∨ e.label = "token-card" then addTokenView language s e
  else if e.label = "card" then addCard language s e
  else if e.label = "viewContent" then
    let name := (e.tag.attribute? "name").getD ""
    let d := s.definition
    return { s with definition := { d with viewContent := d.viewContent.insert name e.html } }
  else return s

end Document
end TokenSchema
