import TokenSchema.Markup.Scanner

/-!
# Tokens

The content of an element as a flat list: tags, texts as written, and the asides that are comments and
instructions. It ends with the end tag of the element around it, or where the characters end; these may
end inside a start tag. References inside texts and attribute values are not looked at here.
-/

namespace TokenSchema
namespace Markup

/-- A piece of content as written. -/
inductive Token where
  | openTag (name : RawName) (attributes : List RawAttribute)
  | emptyTag (name : RawName) (attributes : List RawAttribute)
  /-- A start tag that the end of the characters breaks off. -/
  | brokenTag (name : RawName) (attributes : List RawAttribute)
  | closeTag (name : RawName)
  | text (raw : List Char)
  | verbatim (raw : List Char)
  | aside
  deriving DecidableEq, Repr

/-! ## Asides -/

/-- A comment, after its opening: no two dashes inside, and none at the end. -/
def scanComment (cs : List Char) : Except MarkupFault (List Char) := do
  let (body, rest) ← scanUntil "-->" cs
  if holdsText "--" body || body.getLast? == some '-' then .error .badComment else .ok rest

/-- An instruction, after its opening `<?`; a declaration may not stand here. -/
def scanInstruction (cs : List Char) : Except MarkupFault (List Char) :=
  match after? "xml " cs with
  | some _ => .error .misplacedDeclaration
  | none => do
      let (_, rest) ← scanName cs
      let (_, rest) ← scanUntil "?>" (skipSpaces rest)
      return rest

/-! ## Tags -/

/-- How a start tag ends. -/
inductive TagEnd where
  | opened
  | empty
  /-- The characters end where the tag might go on. -/
  | missing
  deriving DecidableEq, Repr

/-- The attributes of a start tag, each after some space, and the end of the tag. No more attributes
are read than a limit; there are never more than characters left. -/
def scanAttributes (limit : Nat) (cs : List Char) :
    Except MarkupFault (List RawAttribute × TagEnd × List Char) :=
  match cs, skipSpaces cs, limit with
  | [], _, _ => .ok ([], .missing, [])
  | _, [], _ => .error .unexpectedEnd
  | _, '>' :: rest, _ => .ok ([], .opened, rest)
  | _, '/' :: '>' :: rest, _ => .ok ([], .empty, rest)
  | _, _, 0 => .error .unexpectedEnd
  | c :: _, spaced, limit + 1 =>
      if isSpace c then do
        let (a, rest) ← scanAttribute spaced
        let (more, tagEnd, rest) ← scanAttributes limit rest
        return (a :: more, tagEnd, rest)
      else .error .unexpectedCharacter

/-- A start tag, after its opening bracket. -/
def scanTag (limit : Nat) : Scan Token := fun cs => do
  let (name, rest) ← scanRawName cs
  if name.qualifier = "xmlns" then .error .reservedNamespace
  else
    let (attributes, tagEnd, rest) ← scanAttributes limit rest
    match tagEnd with
    | .opened => return (.openTag name attributes, rest)
    | .empty => return (.emptyTag name attributes, rest)
    | .missing => return (.brokenTag name attributes, rest)

/-- An end tag, after its opening `</`. -/
def scanCloseTag : Scan Token := fun cs => do
  let (name, rest) ← scanRawName cs
  let rest ← expect ">" (skipSpaces rest)
  return (.closeTag name, rest)

/-! ## Content -/

/-- A text up to the next tag; it does not hold the end of a verbatim section. -/
def scanText : Scan Token := fun cs => do
  let raw ← checked (cs.takeWhile (· != '<'))
  if holdsText "]]>" raw then .error .unexpectedCharacter
  else return (.text raw, cs.dropWhile (· != '<'))

/-- The next token; the limit is to the attributes of a tag. -/
def scanToken (limit : Nat) : Scan Token := fun cs =>
  match cs with
  | '<' :: '!' :: rest =>
      match after? "--" rest, after? "[CDATA[" rest with
      | some body, _ => do return (.aside, ← scanComment body)
      | none, some body => do
          let (raw, rest) ← scanUntil "]]>" body
          return (.verbatim raw, rest)
      | none, none => .error .unexpectedCharacter
  | '<' :: '?' :: rest => do return (.aside, ← scanInstruction rest)
  | '<' :: '/' :: rest => scanCloseTag rest
  | '<' :: rest => scanTag limit rest
  | _ => scanText cs

/-- The number of open elements after a token, with so many open before it; none if it ends the
element around them. -/
def Token.depthAfter? : Token → Nat → Option Nat
  | .closeTag _, 0 => none
  | .closeTag _, depth + 1 => some depth
  | .openTag .., depth => some (depth + 1)
  | _, depth => some depth

/-- The tokens of some content inside which so many elements are open, as long as the limit is no less
than the number of characters; and what remains. -/
def scanContentUpTo : (limit depth : Nat) → Scan (List Token)
  | _, _, [] => .ok ([], [])
  | 0, _, _ :: _ => .error .unexpectedEnd
  | limit + 1, depth, cs => do
      let (t, rest) ← scanToken (limit + 1) cs
      match t.depthAfter? depth with
      | none => return ([t], rest)
      | some depth =>
          let (more, rest) ← scanContentUpTo limit depth rest
          return (t :: more, rest)

/-- The tokens of some content, with the end tag of the element around it. Each takes a character, so
there are no more of them than characters. -/
def scanContent : Scan (List Token) := fun cs =>
  scanContentUpTo cs.length 0 cs

/-- The tokens of an element, after the opening bracket of its start tag. -/
def scanElement : Scan (List Token) := fun cs => do
  let (t, rest) ← scanTag cs.length cs
  match t with
  | .openTag .. =>
      let (more, rest) ← scanContent rest
      return (t :: more, rest)
  | _ => return ([t], rest)

end Markup
end TokenSchema
