import TokenSchema.Markup.Node

/-!
# Page text

The content of an element written out again as the text of a page. Frames are left out, with all they
hold; names lose their namespaces; texts and attribute values lose the blanks around them.
-/

namespace TokenSchema
namespace Markup

/-- A right single quotation mark as a character reference. -/
def quotationMark : List Char → List Char
  | [] => []
  | c :: rest =>
      (if c.toNat = 0x2019 then "&#x2019;".toList else [c]) ++ quotationMark rest

/-- A text in a page. -/
def htmlText (s : String) : String :=
  String.ofList (Text.trimChars (quotationMark s.toList))

/-- An attribute in a start tag. -/
def htmlAttribute (a : Name × String) : String :=
  " " ++ a.1.base ++ "=\"" ++ Text.trim a.2 ++ "\""

/-- A start tag. -/
def htmlTag (t : Tag) : String :=
  "<" ++ t.name.base ++ String.join (t.attributes.map htmlAttribute) ++ ">"

mutual

/-- A node in a page. -/
def htmlNode : Node → String
  | .element tag children =>
      if tag.name.base = "iframe" then ""
      else htmlTag tag ++ htmlNodes children ++ "</" ++ tag.name.base ++ ">"
  | .text content => htmlText content
  | .aside => ""

/-- Nodes in a page, one after another. -/
def htmlNodes : List Node → String
  | [] => ""
  | n :: rest => htmlNode n ++ htmlNodes rest

end

/-- The content of an element in a page. -/
def Element.html (e : Element) : String :=
  htmlNodes e.children

end Markup
end TokenSchema
