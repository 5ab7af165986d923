import TokenSchema.CallTemplate
import TokenSchema.EventSource

/-!
# Attributes

A named property of a token: where its value comes from (a call, an event, the user, a literal, another
attribute, or bits of the token id) and how the value is shown.
-/

namespace TokenSchema

/-- The number of zero bits at the low end of a mask; zero for the empty mask. -/
def trailingZeros (mask : Nat) : Nat :=
  if mask = 0 ∨ mask % 2 = 1 then 0 else trailingZeros (mask / 2) + 1
termination_by mask
decreasing_by omega

/-- How far the values of a mask stand from the low end of the token id: as far as the mask is zero there. The shift is
a number of 32 bits, and a mask that is zero further than this is not shifted at all. -/
def maskShift (mask : Nat) : Nat :=
  let zeros := trailingZeros mask
  if zeros < 4294967296 then zeros else 0

/-- The mask of a whole word. -/
def wholeMask : Nat :=
  Bytes.wordModulus - 1

/-- A named property of a token. -/
structure Attribute where
  name : String
  label : String
  form : Form
  kind : Kind
  /-- The bits of the token id that make up the value. -/
  bitmask : Nat
  /-- Labels by value; a value stands at its place in the token id. -/
  members : Option (Std.TreeMap Nat String)
  /-- The holding contract where the attribute was declared. -/
  originContract : Option Contract
  call : Option CallTemplate
  event : Option EventSource
  userInput : Bool
  literal : Option String
  /-- The attribute that this one stands for. -/
  reference : Option String

namespace Attribute

/-- An attribute that is the token id. -/
def ofName (name : String) : Attribute :=
  { name := name
    label := name
    form := .directoryString
    kind := .unsigned
    bitmask := wholeMask
    members := none
    originContract := none
    call := none
    event := none
    userInput := false
    literal := none
    reference := none }

/-! ## Bits of the token id -/

/-- How far the value stands from the low end of the token id. -/
def bitshift (a : Attribute) : Nat :=
  maskShift a.bitmask

/-- The value of a token id: its masked bits, moved to the low end. -/
def extract (a : Attribute) (tokenId : Nat) : Nat :=
  (tokenId &&& a.bitmask) >>> a.bitshift

/-- The token id of a value: the value moved to its place and masked. -/
def insert (a : Attribute) (value : Nat) : Nat :=
  (value <<< a.bitshift) &&& a.bitmask

/-! ## Sources -/

/-- How many arguments of the call are the token itself. -/
def tokenIdCount (a : Attribute) : Nat :=
  (a.call.map CallTemplate.tokenIdCount).getD 0

/-- Whether the call takes the token itself. -/
def usesTokenId (a : Attribute) : Bool :=
  a.tokenIdCount > 0

/-- Calls about several tokens are never taken to be up to date. -/
def isVolatile (a : Attribute) : Bool :=
  a.tokenIdCount > 1

/-- The value comes from the token id itself. -/
def isStatic (a : Attribute) : Bool :=
  a.call.isNone && a.event.isNone

end Attribute

end TokenSchema
