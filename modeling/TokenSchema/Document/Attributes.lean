import TokenSchema.Document.Sources

/-!
# Attributes in documents

Reading an attribute: its type, label and mapping, and the origins that say where its value comes from.
Documents key the options of a mapping by the extracted value; they are kept at its place in the token
id, by the mask that the whole attribute ends up with.
-/

namespace TokenSchema
namespace Document

open TokenSchema.Markup

/-- Whether two texts differ in the case of ASCII letters only. -/
def sameIgnoringCase (a b : String) : Bool :=
  a.toList.map Char.toLower == b.toList.map Char.toLower

/-- A text without the `0x`s it starts with. -/
def dropHexMarks : List Char → List Char
  | '0' :: 'x' :: rest => dropHexMarks rest
  | cs => cs

/-- A mask in hexadecimal digits. -/
def readMask (value : String) (place : NumberPlace) : Except DocumentError Nat :=
  match Text.naturalChars? 16 (dropHexMarks (Text.trimChars value.toList)) with
  | some mask => .ok mask
  | none => .error (.invalidNumber value place)

/-- The key and the label of an option; an empty label counts as none. -/
def readOption (language : String) (e : Element) : Except DocumentError (Nat × Option String) :=
  let key := (e.tag.attribute? "key").getD ""
  match Text.natural? 10 (Text.trim key) with
  | none => .error (.invalidNumber key .optionKey)
  | some n =>
      let label := (e.tag.filled? "value").or (localisedText language e "value")
      .ok (n, label.filter (· ≠ ""))

/-- The labels of a mapping by the keys of its options. -/
def readMapping (language : String) (e : Element) :
    Except DocumentError (Std.TreeMap Nat String) :=
  (e.descendants.filter (·.label == "option")).foldlM (fun members o => do
    match ← readOption language o with
    | (key, some label) => return members.insert key label
    | (_, none) => return members) ∅

/-- An attribute being read, and the mask given for it so far. -/
structure AttributeDraft where
  value : Attribute
  mask : Option Nat

namespace AttributeDraft

/-- The kind becomes that of a mapping, with the given labels unless there are none. -/
def withMapping (a : AttributeDraft) (members : Std.TreeMap Nat String) : AttributeDraft :=
  let value := { a.value with kind := .mapping }
  { a with value := if members.isEmpty then value else { value with members := some members } }

/-- The kind becomes the one that a word stands for; no word stands for text. -/
def withKind (a : AttributeDraft) (word : Option String) : AttributeDraft :=
  { a with value := { a.value with kind := Kind.ofWord (word.getD "") } }

/-- The mask becomes the given one, if one is given. -/
def withMask (a : AttributeDraft) (e : Element) : Except DocumentError AttributeDraft :=
  match e.tag.filled? "bitmask" with
  | none => .ok a
  | some value => do
      let mask ← readMask value (.bitmask a.value.name)
      return { a with mask := some mask }

end AttributeDraft

/-- An origin on the chain: a call, a transaction or an event. -/
def readChainOrigin (d : Definition) (a : AttributeDraft) (e : Element) :
    Except DocumentError AttributeDraft := do
  let a := a.withKind (e.tag.attribute? "as")
  if e.label = "transaction" ∨ e.label = "call" then
    return { a with value := { a.value with call := some (readCall d a.value.form e) } }
  else if e.label = "event" then do
    let source ← readEvent d e
    let source := { source with
      attributeName := some a.value.name
      parentContract := a.value.originContract }
    return { a with value := { a.value with event := some source } }
  else throw (.unknownOrigin ("ethereum:" ++ e.label))

/-- One origin of an attribute. -/
def readAttributeOrigin (language : String) (d : Definition) (a : AttributeDraft) (e : Element) :
    Except DocumentError AttributeDraft := do
  if isChainElement e then readChainOrigin d a e
  else if e.label = "token-id" then
    let a := a.withKind (e.tag.attribute? "as")
    let a ← (e.elements.filter (·.label == "mapping")).foldlM (fun a m => do
      return a.withMapping (← readMapping language m)) a
    a.withMask e
  else if e.label = "user-entry" then
    let a := a.withKind (e.tag.attribute? "as")
    { a with value := { a.value with userInput := true } }.withMask e
  else if e.label = "value" then
    let a := match e.tag.attribute? "as" with
      | some word => a.withKind (some word)
      | none => a
    return { a with value := { a.value with literal := some e.textContent } }
  else if e.label = "attribute" then
    match e.tag.filled? "ref" with
    | some name => return { a with value := { a.value with reference := some name } }
    | none => throw (.malformed (.aliasWithoutTarget a.value.name))
  else throw (.unknownOrigin e.label)

/-- The form that a type declares; that of plain text without one. -/
def readForm (e : Element) : Form :=
  ((e.elements.find? (·.label == "syntax")).bind fun s => Form.ofOid? s.textContent).getD
    .directoryString

/-- What one element directly below an attribute says. -/
def readAttributePart (language : String) (d : Definition) (a : AttributeDraft) (e : Element) :
    Except DocumentError AttributeDraft := do
  let a ←
    if e.label = "type" then
      pure { a with value := { a.value with form := readForm e } }
    else if e.label = "origins" then
      e.elements.foldlM (readAttributeOrigin language d) a
    else if e.label = "label" then
      match localisedChild language e with
      | some label => pure { a with value := { a.value with label := label } }
      | none => pure a
    else if e.label = "mapping" then do
      pure (a.withMapping (← readMapping language e))
    else pure a
  if (e.tag.attribute? "contract").any (sameIgnoringCase · "holding-contract") then
    return { a with value := { a.value with kind := .mapping } }
  else return a

/-- The attribute with its mask, and its labels moved to the places of their values. -/
def AttributeDraft.finish (a : AttributeDraft) : Attribute :=
  let masked := { a.value with bitmask := a.mask.getD a.value.bitmask }
  { masked with
    members := masked.members.map fun members =>
      members.foldl (fun acc key label => acc.insert (masked.insert key) label) ∅ }

/-- An attribute. It must have a name. -/
def readAttribute (language : String) (d : Definition) (e : Element) :
    Except DocumentError Attribute := do
  match (e.tag.filled? "name").or (e.tag.filled? "id") with
  | none => throw (.malformed .unnamedAttribute)
  | some name =>
      let start := { Attribute.ofName name with originContract := d.holdingContract? }
      let a ← e.elements.foldlM (readAttributePart language d) ⟨start, none⟩
      return a.finish

end Document
end TokenSchema
