import TokenSchema.Error
import TokenSchema.Markup.Character
import TokenSchema.Markup.Node
import TokenSchema.Text.Lowercase

/-!
# Texts in a language

A document gives a text in several languages. The one in the reader's language is taken, else one
without a language or in English, else the first.
-/

namespace TokenSchema
namespace Document

open TokenSchema.Markup

/-- Whether an element is in no language or in English. -/
def isNeutral (e : Element) : Bool :=
  e.language == "" || e.language == "en"

/-- The element to take among several. -/
def pickLocalised (language : String) (candidates : List Element) : Option Element :=
  (candidates.find? (·.language == language)).or
    ((candidates.find? isNeutral).or candidates.head?)

/-- The element to take among those with a name below another. -/
def localisedBelow (language : String) (e : Element) (name : String) : Option Element :=
  pickLocalised language (e.descendants.filter (·.label == name))

/-- The text to take among the elements with a name below another. -/
def localisedText (language : String) (e : Element) (name : String) : Option String :=
  (localisedBelow language e name).map (·.textContent)

/-- The text to take among the elements directly below another. -/
def localisedChild (language : String) (e : Element) : Option String :=
  (pickLocalised language e.elements).map (·.textContent)

/-- The language of a locale: its first part, two or three letters in lower case. -/
def languageOf (locale : String) : Except DocumentError String :=
  let first := locale.toList.takeWhile fun c => c != '-' && c != '_'
  let language := Text.lowercase (String.ofList first)
  let size := language.utf8ByteSize
  if 2 ≤ size ∧ size ≤ 3 ∧ language.toList.all Markup.isAsciiLetter then .ok language
  else .error (.invalidLocale locale)

end Document
end TokenSchema
