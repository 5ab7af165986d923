import TokenSchema.Error
import TokenSchema.Markup.Character

/-!
# Scanning

The small readers that tokens are made of. Each takes the characters left and gives back what it read
and what remains.
-/

namespace TokenSchema
namespace Markup

/-- A reader on the characters left. -/
abbrev Scan (α : Type) := List Char → Except MarkupFault (α × List Char)

/-! ## Fixed texts -/

/-- What remains after a fixed text, if the input starts with it. -/
def after? (text : String) (cs : List Char) : Option (List Char) :=
  text.toList.isPrefixOf? cs

/-- What remains after a fixed text. -/
def expect (text : String) (cs : List Char) : Except MarkupFault (List Char) :=
  match after? text cs with
  | some rest => .ok rest
  | none => .error .unexpectedCharacter

/-- What remains after any space. -/
def skipSpaces (cs : List Char) : List Char :=
  cs.dropWhile isSpace

/-- What remains after some space. -/
def expectSpaces (cs : List Char) : Except MarkupFault (List Char) :=
  match cs with
  | [] => .error .unexpectedEnd
  | c :: _ => if isSpace c then .ok (skipSpaces cs) else .error .unexpectedCharacter

/-! ## Runs of characters -/

/-- What stands before and after the first occurrence of a pattern. -/
def breakOn (pattern : List Char) : List Char → Option (List Char × List Char)
  | [] => none
  | c :: rest =>
      match pattern.isPrefixOf? (c :: rest) with
      | some tail => some ([], tail)
      | none => (breakOn pattern rest).map fun r => (c :: r.1, r.2)

/-- Whether a list holds a pattern. -/
def holdsText (pattern : String) (cs : List Char) : Bool :=
  (breakOn pattern.toList cs).isSome

/-- Only document characters. -/
def checked (cs : List Char) : Except MarkupFault (List Char) :=
  if cs.all isDocumentChar then .ok cs else .error .foreignCharacter

/-- Document characters up to a pattern, which is read too. -/
def scanUntil (pattern : String) : Scan (List Char) := fun cs =>
  match breakOn pattern.toList cs with
  | none => .error .unexpectedEnd
  | some (body, rest) => do return (← checked body, rest)

/-! ## Names -/

/-- A name that starts well. -/
def scanName : Scan String := fun cs =>
  match cs with
  | [] => .error .badName
  | c :: _ =>
      if isNameStart c then
        .ok (String.ofList (cs.takeWhile isNameChar), cs.dropWhile isNameChar)
      else .error .badName

/-- A name as written: the part before the colon, empty without one, and the part after it. -/
structure RawName where
  qualifier : String
  base : String
  deriving DecidableEq, Repr

/-- Whether a part of a name starts well. -/
def startsName (cs : List Char) : Bool :=
  match cs with
  | [] => false
  | c :: _ => isNameStart c

/-- The parts of a name around its colon; there may be one colon at most. -/
def splitName (cs : List Char) : Option RawName :=
  let before := cs.takeWhile (· != ':')
  match cs.dropWhile (· != ':') with
  | [] => if startsName before then some ⟨"", String.ofList before⟩ else none
  | _ :: base =>
      if (before.isEmpty || startsName before) && startsName base && !base.contains ':' then
        some ⟨String.ofList before, String.ofList base⟩
      else none

/-- A name with or without a qualifier. -/
def scanRawName : Scan RawName := fun cs =>
  match splitName (cs.takeWhile isNameChar) with
  | some n => .ok (n, cs.dropWhile isNameChar)
  | none => .error .badName

/-! ## Quoted texts -/

/-- A single or double quote. -/
def scanQuote : Scan Char
  | '"' :: rest => .ok ('"', rest)
  | '\'' :: rest => .ok ('\'', rest)
  | [] => .error .unexpectedEnd
  | _ => .error .unexpectedCharacter

/-- Anything between quotes. -/
def scanLiteral : Scan (List Char) := fun cs => do
  let (quote, rest) ← scanQuote cs
  match rest.dropWhile (· != quote) with
  | [] => .error .unexpectedEnd
  | _ :: tail => return (rest.takeWhile (· != quote), tail)

/-- An attribute as written. -/
structure RawAttribute where
  name : RawName
  value : List Char
  deriving DecidableEq, Repr

/-- A name, an equals sign, and a quoted value without an opening bracket. -/
def scanAttribute : Scan RawAttribute := fun cs => do
  let (name, rest) ← scanRawName cs
  let rest ← expect "=" (skipSpaces rest)
  let (quote, rest) ← scanQuote (skipSpaces rest)
  let inside := fun c => c != quote && c != '<'
  let value ← checked (rest.takeWhile inside)
  match rest.dropWhile inside with
  | [] => .error .unexpectedEnd
  | c :: tail => if c == quote then return (⟨name, value⟩, tail) else .error .unexpectedCharacter

end Markup
end TokenSchema
