import TokenSchema.Markup.Prolog

/-!
# References

Texts and attribute values as written are made of characters and references. A character reference
stands for one character, an entity reference for a replacement text that may hold markup. Line breaks
are normalized, those that a character reference gives aside.
-/

namespace TokenSchema
namespace Markup

/-- A piece of a text as written. -/
inductive Piece where
  /-- A character that stands for itself. -/
  | plain (c : Char)
  /-- A character given by a reference. -/
  | referenced (c : Char)
  /-- A replacement text. -/
  | entity (name : String)
  deriving DecidableEq, Repr

/-! ## Reading references -/

/-- The value of a hexadecimal or decimal digit. -/
def digitOf (hexadecimal : Bool) (c : Char) : Option Nat :=
  if isAsciiDigit c then some (c.toNat - 0x30)
  else if hexadecimal && 'a' ≤ c && c ≤ 'f' then some (c.toNat - 0x57)
  else if hexadecimal && 'A' ≤ c && c ≤ 'F' then some (c.toNat - 0x37)
  else none

/-- The character with a code point; surrogates and numbers past the last one give the replacement
character. -/
def charOfCode (n : Nat) : Char :=
  if h : n.isValidChar then Char.ofNatAux n h else Char.ofNat 0xFFFD

/-- A character reference, after its opening `&#`. The number has at most 32 bits. -/
def scanCharReference (cs : List Char) : Option (Char × List Char) :=
  let (hexadecimal, cs) := match cs with
    | 'x' :: rest => (true, rest)
    | _ => (false, cs)
  let isDigit := fun c => (digitOf hexadecimal c).isSome
  let digits := (cs.takeWhile isDigit).filterMap (digitOf hexadecimal)
  let radix := if hexadecimal then 16 else 10
  let n := digits.foldl (fun acc d => acc * radix + d) 0
  match digits, cs.dropWhile isDigit with
  | _ :: _, ';' :: rest =>
      if n ≤ 0xFFFFFFFF && isDocumentChar (charOfCode n) then some (charOfCode n, rest) else none
  | _, _ => none

/-- The five entities that need no declaration. -/
def predefined : List (String × Char) :=
  [("quot", '"'), ("amp", '&'), ("apos", '\''), ("lt", '<'), ("gt", '>')]

/-- A reference, after its ampersand. -/
def scanReference (cs : List Char) : Option (Piece × List Char) :=
  match cs with
  | '#' :: rest => (scanCharReference rest).map fun r => (.referenced r.1, r.2)
  | _ =>
      match scanName cs with
      | .ok (name, ';' :: rest) =>
          match predefined.lookup name with
          | some c => some (.referenced c, rest)
          | none => some (.entity name, rest)
      | _ => none

/-- The pieces of a text as written; every ampersand starts a reference. -/
def pieces (cs : List Char) : Except MarkupFault (List Piece) :=
  match cs with
  | [] => .ok []
  | '&' :: rest =>
      match scanReference rest with
      | none => .error .badReference
      | some (p, rest') =>
          if _h : rest'.length ≤ rest.length then do
            let more ← pieces rest'
            return p :: more
          else .error .badReference
  | c :: rest => do
      let more ← pieces rest
      return .plain c :: more
termination_by cs.length
decreasing_by all_goals simp only [List.length_cons]; omega

/-! ## Nesting of entities -/

/-- How many entities may stand inside one another. -/
def nestingLimit : Nat := 10

/-- How many entity references one outermost reference may lead to. -/
def referenceLimit : Nat := 255

/-- Count a reference that stands inside an entity. -/
def countReference (nested : Bool) (count : Nat) : Except MarkupFault Nat :=
  if !nested then .ok count
  else if count = referenceLimit then .error .entityNesting
  else .ok (count + 1)

/-- The replacement text of an entity; the first declaration counts. -/
def replacementText (entities : Entities) (name : String) : Except MarkupFault (List Char) :=
  match entities.lookup name with
  | some text => .ok text
  | none => .error (.unknownEntity name)

/-! ## Line breaks in texts -/

/-- Add a character to a text held in reverse: a carriage return becomes a line feed once the next
character is known, and vanishes before a line feed. -/
def pushText (reversed : List Char) (c : Char) (isLast : Bool) : List Char :=
  let c' := if isLast && c == '\r' then '\n' else c
  match reversed with
  | '\r' :: before =>
      if isLast && c == '\r' then '\n' :: '\n' :: before
      else if c == '\n' then '\n' :: before
      else c :: '\n' :: before
  | _ => c' :: reversed

/-- A text in which line breaks are normalized. -/
def normalizeBreaks (reversed : List Char) : List Char → List Char
  | [] => reversed.reverse
  | c :: rest => normalizeBreaks (pushText reversed c rest.isEmpty) rest

/-! ## Attribute values -/

/-- A space in the place of a tab or a line break. -/
def spaceFor (c : Char) : Char :=
  if c == '\t' || c == '\n' || c == '\r' then ' ' else c

/-- A line break of two characters starts here. -/
def isBreakPair (c : Char) (rest : List Piece) : Bool :=
  c == '\r' && rest.head? == some (.plain '\n')

/-- The value of an attribute: references replaced, space normalized. `expand` gives the value of the
replacement text of an entity. -/
def attributePieces (entities : Entities) (nested : Bool)
    (expand : Nat → List Char → Except MarkupFault (List Char × Nat)) (count : Nat) :
    List Piece → Except MarkupFault (List Char × Nat)
  | [] => .ok ([], count)
  | .plain c :: rest => do
      let (value, count) ← attributePieces entities nested expand count rest
      return (if isBreakPair c rest then value else spaceFor c :: value, count)
  | .referenced c :: rest =>
      if nested && c == '<' then .error .unexpectedCharacter
      else do
        let (value, count) ← attributePieces entities nested expand count rest
        return ((if nested then spaceFor c else c) :: value, count)
  | .entity name :: rest => do
      let text ← replacementText entities name
      let count ← countReference nested count
      let (inner, count) ← expand count text
      let (value, count) ←
        attributePieces entities nested expand (if nested then count else 0) rest
      return (inner ++ value, count)

/-- The value of an attribute as written, with so many further entities allowed inside one another. -/
def attributeValue (entities : Entities) : (left : Nat) → (nested : Bool) → (count : Nat) →
    List Char → Except MarkupFault (List Char × Nat)
  | 0, nested, count, raw => do
      attributePieces entities nested (fun _ _ => .error .entityNesting) count (← pieces raw)
  | left + 1, nested, count, raw => do
      attributePieces entities nested (attributeValue entities left true) count (← pieces raw)

end Markup
end TokenSchema
