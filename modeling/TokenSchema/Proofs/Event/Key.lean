import Mathlib.Algebra.Group.Nat.Defs
import TokenSchema.EventSource
import TokenSchema.Proofs.Text.Utf8

/-!
# Event keys — what two event sources have in common that share a key

The key of an event source is a hash of its chain, its address and its names, one after the other. Chain and
address have a fixed size, so they can be told from the bytes that are hashed. The two names cannot be told from
each other: the bytes are the same for an activity and for an attribute of one name, and wherever the names run
together to the same text (`EventSource.keyOf_eq_iff`).
-/

namespace TokenSchema

/-! ## Bytes of numbers and texts -/

theorem Bytes.ofNat_inj {size m n : Nat} (fits : m < modulus size) (fits' : n < modulus size) :
    ofNat size m = ofNat size n ↔ m = n := by
  refine ⟨fun same => ?_, congrArg (ofNat size)⟩
  have numbers := congrArg toNat same
  rwa [toNat_ofNat, toNat_ofNat, Nat.mod_eq_of_lt fits, Nat.mod_eq_of_lt fits'] at numbers

namespace Text

theorem Hex.encode_inj {bytes bytes' : List UInt8} : encode bytes = encode bytes' ↔ bytes = bytes' := by
  refine ⟨fun same => ?_, congrArg encode⟩
  have decoded := congrArg decode same
  rw [decode_encode, decode_encode] at decoded
  exact Option.some.inj decoded

/-- An address as text: forty hexadecimal digits after `0x`. -/
def IsAddress (s : String) : Prop :=
  ∃ digits : List Char, s.toList = '0' :: 'x' :: digits ∧ digits.length = 40 ∧
    ∀ c ∈ digits, (Hex.digitValue c).isSome = true

theorem Hex.lt_of_isSome_digitValue {c : Char} (digit : (digitValue c).isSome = true) :
    c.toNat < 128 := by
  rcases Nat.lt_or_ge c.toNat 128 with small | large
  · exact small
  · have foreign : digitValue c = none := by
      simp only [digitValue]
      grind
    rw [foreign] at digit
    cases digit

theorem IsAddress.length_encode {s : String} (address : IsAddress s) :
    (Utf8.encode s).length = 42 := by
  obtain ⟨digits, chars, size, hexadecimal⟩ := address
  have ascii : ∀ c ∈ s.toList, c.toNat < 128 := by
    rw [chars, List.forall_mem_cons, List.forall_mem_cons]
    exact ⟨by decide, by decide, fun c member => Hex.lt_of_isSome_digitValue (hexadecimal c member)⟩
  rw [Utf8.length_encode ascii, chars, List.length_cons, List.length_cons, size]

end Text

namespace EventSource

/-- The names of an event source, run together. -/
def joinedName (activity name : Option String) : String :=
  activity.getD "" ++ name.getD ""

theorem keyBytes_eq (chainId : Nat) (address : String) (activity name : Option String) :
    keyBytes chainId address activity name =
      Bytes.ofNat 8 chainId ++
        (Text.Utf8.encode address ++ Text.Utf8.encode (joinedName activity name)) := by
  have optional (n : Option String) : (n.map Text.Utf8.encode).getD [] = Text.Utf8.encode (n.getD "") := by
    cases n <;> rfl
  simp only [keyBytes, joinedName, Text.Utf8.encode_append, optional, List.append_assoc]

section Sources

variable {chainId chainId' : Nat} {address address' : String}
variable {activity activity' name name' : Option String}
variable (chain : chainId < 2 ^ 64) (chain' : chainId' < 2 ^ 64)
variable (text : Text.IsAddress address) (text' : Text.IsAddress address')
include chain chain' text text'

theorem keyBytes_inj :
    keyBytes chainId address activity name = keyBytes chainId' address' activity' name' ↔
      chainId = chainId' ∧ address = address' ∧ joinedName activity name = joinedName activity' name' := by
  rw [keyBytes_eq, keyBytes_eq]
  constructor
  · intro same
    obtain ⟨chains, texts⟩ := List.append_inj same (by simp)
    obtain ⟨addresses, names⟩ := List.append_inj texts (by rw [text.length_encode, text'.length_encode])
    exact ⟨(Bytes.ofNat_inj chain chain').1 chains, Text.Utf8.encode_inj.1 addresses,
      Text.Utf8.encode_inj.1 names⟩
  · rintro ⟨rfl, rfl, names⟩
    rw [names]

end Sources

/-- Two sources have the same bytes to hash exactly if they have the same chain, the same address, and names that
run together to the same text. So they have the same key, unless their bytes collide. -/
theorem keyOf_eq_iff {chainId chainId' : Nat} {address address' : String}
    {activity activity' name name' : Option String} (chain : chainId < 2 ^ 64) (chain' : chainId' < 2 ^ 64)
    (text : Text.IsAddress address) (text' : Text.IsAddress address') :
    let bytes := keyBytes chainId address activity name
    let bytes' := keyBytes chainId' address' activity' name'
    let alike := chainId = chainId' ∧ address = address' ∧
      joinedName activity name = joinedName activity' name'
    (bytes = bytes' ↔ alike) ∧
      ((Abi.Keccak.hash bytes = Abi.Keccak.hash bytes' → bytes = bytes') →
        (keyOf chainId address activity name = keyOf chainId' address' activity' name' ↔ alike)) := by
  intro bytes bytes' alike
  have parts : bytes = bytes' ↔ alike := keyBytes_inj chain chain' text text'
  refine ⟨parts, fun apart => ?_⟩
  have keys : keyOf chainId address activity name = keyOf chainId' address' activity' name' ↔
      Abi.Keccak.hash bytes = Abi.Keccak.hash bytes' := by
    rw [keyOf, keyOf, Text.Hex.encode_inj]
    exact ⟨Bytes.Block.ext_bytes, congrArg Bytes.Block.bytes⟩
  rw [keys, ← parts]
  exact ⟨apart, congrArg Abi.Keccak.hash⟩

end EventSource

/-! ## An activity and an attribute of one name -/

namespace Moved

/-- The address of the example. -/
def address : String := "0x00000000000000000000000000000000000000aa"

theorem isAddress : Text.IsAddress address :=
  ⟨List.replicate 38 '0' ++ ['a', 'a'], rfl, rfl, List.all_eq_true.1 (by decide)⟩

/-- The event of the example: a token gets another owner. -/
def source : EventSource :=
  { EventSource.ofType ⟨"Moved", [⟨"to", "address", true⟩]⟩ with
    contract := some ⟨none, [⟨1, address⟩]⟩ }

/-- The event as the source of an attribute. -/
def ofAttribute : EventSource :=
  { source with attributeName := some "moved" }

/-- The event behind an activity card. -/
def ofActivity : EventSource :=
  { source with activityName := some "moved" }

/-- Names that begin alike give different bytes, and names that are cut in another place give one key. -/
theorem keyOf_eq_iff_moved :
    1 < 2 ^ 64 ∧ Text.IsAddress address ∧
      EventSource.keyBytes 1 address (some "moved") none ≠
        EventSource.keyBytes 1 address none (some "movedOn") ∧
      EventSource.keyOf 1 address (some "moved") (some "On") =
        EventSource.keyOf 1 address (some "move") (some "dOn") := by
  have chain : 1 < 2 ^ 64 := by decide
  refine ⟨chain, isAddress, ?_, ?_⟩
  · intro same
    have names := ((EventSource.keyOf_eq_iff chain chain isAddress isAddress).1.1 same).2.2
    exact absurd names (by decide)
  · have names : EventSource.joinedName (some "moved") (some "On") =
        EventSource.joinedName (some "move") (some "dOn") := by decide
    obtain ⟨parts, keys⟩ := EventSource.keyOf_eq_iff chain chain isAddress isAddress
    exact (keys fun _ => parts.2 ⟨rfl, rfl, names⟩).2 ⟨rfl, rfl, names⟩

/-- The two have one key. -/
theorem key?_ofActivity :
    ofActivity.activityName ≠ ofAttribute.activityName ∧
      ofActivity.attributeName ≠ ofAttribute.attributeName ∧
      EventSource.keyBytes 1 address ofActivity.activityName ofActivity.attributeName =
        EventSource.keyBytes 1 address ofAttribute.activityName ofAttribute.attributeName ∧
      ofActivity.key? = ofAttribute.key? := by
  have bytes : EventSource.keyBytes 1 address (some "moved") none =
      EventSource.keyBytes 1 address none (some "moved") := by
    simp [EventSource.keyBytes]
  refine ⟨by decide, by decide, bytes, ?_⟩
  change some (EventSource.keyOf 1 address (some "moved") none) =
    some (EventSource.keyOf 1 address none (some "moved"))
  rw [EventSource.keyOf, EventSource.keyOf, bytes]

end Moved

end TokenSchema
