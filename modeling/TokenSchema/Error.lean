import TokenSchema.Abi.Error

/-!
# Errors

Everything that can stop the reading of a document or of settings, or the resolution of an attribute,
each cause with its data. The wording is in the `message` functions alone.
-/

namespace TokenSchema

/-! ## Documents -/

/-- Why a text is no well-formed document. -/
inductive MarkupFault where
  | unexpectedEnd
  | unexpectedCharacter
  | foreignCharacter
  | badName
  | badComment
  | misplacedDeclaration
  | badReference
  | unknownEntity (name : String)
  | entityNesting
  | reservedNamespace
  | unknownPrefix (label : String)
  | duplicateNamespace (label : String)
  | duplicateAttribute (name : String)
  | unbalancedElement
  | noRoot
  deriving DecidableEq, Repr

/-- Structural faults of a document's declarations. -/
inductive Malformation where
  | eventWithoutType
  | unnamedAttribute
  | aliasWithoutTarget (name : String)
  | unnamedType
  | typeOutsideNamedType
  | bareSequence
  | foreignFieldProperty (type property : String)
  | incompleteField (type : String) (field : Option String)
  deriving DecidableEq, Repr

/-- Where a number stands in a document. -/
inductive NumberPlace where
  | firstBlock (event : String)
  | bitmask (name : String)
  | optionKey
  | network (contract : String)
  | attestationNetwork (attestation : String)
  deriving DecidableEq, Repr

/-- An element that the place it stands in does not admit. -/
inductive Misplacement where
  | cardType (type : String)
  | modifier (value : String)
  | inAction (tag action : String)
  | inActivityCard (tag : String)
  deriving DecidableEq, Repr

/-- Why a document has no definition. -/
inductive DocumentError where
  /-- The text is not well-formed. -/
  | markup (fault : MarkupFault)
  /-- The bytes are no text. -/
  | notUtf8 (fault : Text.Utf8.Fault)
  | noNamespace
  | malformedNamespace (namespaceName : String)
  | foreignRoot (tag : String)
  | newerSchema (found current : String)
  | malformed (fault : Malformation)
  | duplicateNamedType (name : String)
  | unknownOrigin (tag : String)
  | unresolvedNamedType (name : String)
  | unexpectedElement (fault : Misplacement)
  | invalidLocale (locale : String)
  | invalidNumber (value : String) (place : NumberPlace)
  deriving DecidableEq, Repr

/-- The wording of a structural fault. -/
def Malformation.message : Malformation → String
  | .eventWithoutType => "event without a type"
  | .unnamedAttribute => "attribute without a name"
  | .aliasWithoutTarget name => "origins of attribute " ++ name ++ ": <attribute> without ref"
  | .unnamedType => "namedType must have name attribute"
  | .typeOutsideNamedType => "type sequence must have name attribute"
  | .bareSequence => "sequence must be enclosed within <namedType name=...>"
  | .foreignFieldProperty type property =>
      "unexpected event attribute in " ++ type ++ ": " ++ property
  | .incompleteField type field =>
      "malformed sequence element in " ++ type ++ ": " ++ field.getD "<unnamed>"

/-- The wording of a place. -/
def NumberPlace.message : NumberPlace → String
  | .firstBlock event => "readBlock of event " ++ event
  | .bitmask name => "origins of attribute " ++ name
  | .optionKey => "mapping option key"
  | .network contract => "network of contract " ++ contract
  | .attestationNetwork attestation => "eas network of attestation " ++ attestation

/-- The wording of a misplaced element. -/
def Misplacement.message : Misplacement → String
  | .cardType type => "unexpected <card type=\"" ++ type ++ "\"> in cards"
  | .modifier value => "unexpected <modifier=\"" ++ value ++ "\"> in card"
  | .inAction tag action => "unexpected <" ++ tag ++ "> in action '" ++ action ++ "'"
  | .inActivityCard tag => "unexpected <" ++ tag ++ "> in activity card"

/-- The wording of a document error; that of markup faults is left open. -/
def DocumentError.message : DocumentError → String
  | .markup _ => "xml error"
  | .notUtf8 fault => "xml error: document is not UTF-8: " ++ fault.message
  | .noNamespace => "parse failed: no TokenScript namespace declared"
  | .malformedNamespace name => "parse failed: malformed schema namespace: " ++ name
  | .foreignRoot tag => "parse failed: root element <" ++ tag ++ "> is not a TokenScript"
  | .newerSchema found current =>
      "schema " ++ found ++ " is newer than this parser supports (" ++ current ++ ")"
  | .malformed fault => "malformed definition: " ++ fault.message
  | .duplicateNamedType name => "duplicate module label: " ++ name
  | .unknownOrigin tag => "unknown origin type: '" ++ tag ++ "'"
  | .unresolvedNamedType name => "named type not found: " ++ name
  | .unexpectedElement fault => fault.message
  | .invalidLocale locale => "locale '" ++ locale ++ "' does not follow ISO 639"
  | .invalidNumber value place => "invalid number '" ++ value ++ "' in " ++ place.message

/-! ## Settings -/

/-- Why settings cannot be used. -/
inductive SettingsError where
  /-- The text is no settings record. -/
  | unreadable
  | invalidMinimum (value : String)
  | invalidCurrent (value : String)
  | emptyWindow (minimum current : String)
  deriving DecidableEq, Repr

/-- The wording of a settings error; that of unreadable settings is left open. -/
def SettingsError.message : SettingsError → String
  | .unreadable => "unreadable"
  | .invalidMinimum value => "invalid minimum schema: " ++ value
  | .invalidCurrent value => "invalid current schema: " ++ value
  | .emptyWindow minimum current =>
      "minimum schema " ++ minimum ++ " is newer than current schema " ++ current

/-! ## Resolution -/

/-- Why resolution gives no value. A failing node never stops it. -/
inductive ResolveError where
  | unresolvedFilter (name : String)
  | missingPolicy (name : String)
  | referenceDepth (name : String)
  | cancelled (name : String)
  deriving DecidableEq, Repr

/-- The wording of a resolution error. -/
def ResolveError.message : ResolveError → String
  | .unresolvedFilter name => "unresolved event filter name: " ++ name
  | .missingPolicy name => "no update policy supplied for attribute '" ++ name ++ "'"
  | .referenceDepth name => "attribute reference chain too deep at '" ++ name ++ "'"
  | .cancelled name => "resolution of '" ++ name ++ "' was cancelled"

/-! ## All of them -/

/-- Any error of the library. -/
inductive Error where
  | document (e : DocumentError)
  | encode (e : Abi.EncodeError)
  | decode (e : Abi.DecodeError)
  | resolve (e : ResolveError)
  | settings (e : SettingsError)
  deriving DecidableEq, Repr

/-- The wording of an error, after the field it comes from. -/
def Error.message : Error → String
  | .document e => "parse error: " ++ e.message
  | .encode e => "encode error: " ++ e.message
  | .decode e => "decode error: " ++ e.message
  | .resolve e => "resolve error: " ++ e.message
  | .settings e => "config error: " ++ e.message

end TokenSchema
