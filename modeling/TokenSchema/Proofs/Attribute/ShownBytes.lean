import Mathlib.Algebra.Group.Int.Defs
import TokenSchema.Proofs.Call.WordText
import TokenSchema.Proofs.Text.Blank
import TokenSchema.Proofs.Text.Utf8

/-!
# Shown bytes — addresses and texts that are numbers

A number below 2 ^ 160 is shown as an address, and the address is read back with its number and fills the word of the
number; every other integer is shown as a mark that is no address (`parseAddress_addressText`). A text whose bytes are
a number, with zeros behind it, is shown as it was, since the zeros in front that a number would lose are not there,
and those behind it are cut off (`Attribute.show?_paddedText`).
-/

namespace TokenSchema

open TokenSchema.Bytes

/-! ## Addresses -/

/-- The lower-case hexadecimal digits. -/
def Text.Hex.lowerDigits : List Char :=
  "0123456789abcdef".toList

theorem Text.Hex.digit_mem_lowerDigits : ∀ n < 16, digit n ∈ lowerDigits := by
  decide

theorem Text.Hex.mem_lowerDigits {bytes : List UInt8} : ∀ c ∈ encodeChars bytes, c ∈ lowerDigits := by
  induction bytes with
  | nil => exact nofun
  | cons b rest ih =>
      have size := b.toNat_lt
      rw [encodeChars, List.forall_mem_cons, List.forall_mem_cons]
      exact ⟨digit_mem_lowerDigits _ (by omega), digit_mem_lowerDigits _ (by omega), ih⟩

/-- The word of an address is that of its number. -/
theorem Bytes.Word.ofAddress_eq (account : Address) : Word.ofAddress account = Word.ofNat account.toNat := by
  apply Block.ext_bytes
  have filled := replicate_append_ofNat 12 account.toNat_lt
  rw [account.bytes_of_toNat] at filled
  exact filled

theorem modulus_address : (modulus 20 : Int) = 2 ^ 160 := by
  rw [modulus_eq_two_pow]
  rfl

/-- A number of twenty bytes is shown as the address that has it. -/
theorem exists_addressText {z : Int} (fits : 0 ≤ z ∧ z < 2 ^ 160) :
    ∃ account : Address, (account.toNat : Int) = z ∧ addressText z = Text.Hex.encode0x account.bytes := by
  obtain ⟨n, rfl⟩ := Int.eq_ofNat_of_zero_le fits.1
  have small : n < modulus 20 := by
    rw [← modulus_address] at fits
    exact Int.ofNat_lt.1 fits.2
  have number : (Block.ofNat 20 n).toNat = n := by
    rw [Block.toNat_ofNat, Nat.mod_eq_of_lt small]
  refine ⟨Block.ofNat 20 n, congrArg Int.ofNat number, ?_⟩
  rw [← addressText_toNat, number]

theorem addressText_of_not_fits {z : Int} (long : ¬ (0 ≤ z ∧ z < 2 ^ 160)) : addressText z = invalidAddress := by
  rw [addressText, modulus_address, if_neg long]

/-- How integers are shown as addresses, and how these are read. -/
theorem parseAddress_addressText (z : Int) :
    (0 ≤ z ∧ z < 2 ^ 160 →
      (∃ digits, (addressText z).toList = '0' :: 'x' :: digits ∧ digits.length = 40 ∧
        ∀ c ∈ digits, c ∈ Text.Hex.lowerDigits) ∧
      ∃ account : Address, parseAddress (addressText z) = some account ∧ (account.toNat : Int) = z ∧
        Word.ofAddress account = Word.ofNat z.toNat) ∧
    (¬ (0 ≤ z ∧ z < 2 ^ 160) → addressText z = invalidAddress ∧ parseAddress (addressText z) = none) := by
  constructor
  · intro fits
    obtain ⟨account, number, shown⟩ := exists_addressText fits
    rw [shown]
    refine ⟨⟨Text.Hex.encodeChars account.bytes, String.toList_ofList, ?_, Text.Hex.mem_lowerDigits⟩,
      account, parseAddress_encode0x account, number, ?_⟩
    · rw [Text.Hex.length_encodeChars, account.length_eq]
    · rw [Word.ofAddress_eq, ← number]
      rfl
  · intro long
    have marked := addressText_of_not_fits long
    exact ⟨marked, by rw [marked]; decide +kernel⟩

/-- The greatest address and the number after it. -/
theorem parseAddress_addressText_greatest :
    (0 ≤ (2 : Int) ^ 160 - 1 ∧ (2 : Int) ^ 160 - 1 < 2 ^ 160 ∧
      ∃ account : Address, parseAddress (addressText (2 ^ 160 - 1)) = some account ∧
        account.toNat = 2 ^ 160 - 1) ∧
      ¬ (2 : Int) ^ 160 < 2 ^ 160 ∧ parseAddress (addressText (2 ^ 160)) = none := by
  have fits : 0 ≤ (2 : Int) ^ 160 - 1 ∧ (2 : Int) ^ 160 - 1 < 2 ^ 160 := by decide
  obtain ⟨-, account, read, number, -⟩ := (parseAddress_addressText _).1 fits
  have long : ¬ (2 : Int) ^ 160 < 2 ^ 160 := by decide
  exact ⟨⟨fits.1, fits.2, account, read, by omega⟩, long, ((parseAddress_addressText _).2 (mt And.right long)).2⟩

/-! ## Texts -/

namespace Text.Utf8

/-- A text that does not begin with a NUL does not begin with a zero byte. -/
theorem exists_encode_cons {s : String} {c : Char} {rest : List Char} (chars : s.toList = c :: rest)
    (nonzero : c ≠ '\x00') : ∃ lead bytes, encode s = lead :: bytes ∧ lead ≠ 0 := by
  have whole : encode s = String.utf8EncodeChar c ++ encode (String.ofList rest) := by
    rw [← String.ofList_toList (s := s), chars, encode_ofList, encode_ofList, List.flatMap_cons]
  rcases utf8EncodeChar_cases c with ⟨small, bytes⟩ | ⟨-, lead, more, bytes, high⟩
  · refine ⟨_, _, whole.trans (by rw [bytes, List.singleton_append]), fun zero => nonzero ?_⟩
    have number := congrArg UInt8.toNat zero
    rw [UInt8.toNat_ofNat', Nat.mod_eq_of_lt (by omega)] at number
    exact Char.toNat_inj.1 number
  · refine ⟨_, _, whole.trans (by rw [bytes, List.cons_append]), ?_⟩
    rintro rfl
    exact absurd high (by decide)

/-- Zero bytes are the bytes of NULs. -/
theorem encode_replicate (zeros : Nat) :
    encode (String.ofList (List.replicate zeros '\x00')) = List.replicate zeros 0 := by
  rw [encode_of_ascii, String.toList_ofList, List.map_replicate]
  · rfl
  · rw [String.toList_ofList]
    intro c member
    obtain ⟨-, rfl⟩ := List.mem_replicate.1 member
    decide

end Text.Utf8

namespace Attribute

variable {a : Attribute} {s : String}

/-- The bytes of a text with NULs behind it are read as the text with NULs behind it; without any other character there
is always one. -/
theorem exists_decodeLossy_minimal (first : s.toList.head? ≠ some '\x00') (zeros : Nat) :
    ∃ nuls, Text.Utf8.decodeLossy (minimal (Bytes.toNat (Text.Utf8.encode s ++ List.replicate zeros 0))) =
      s ++ String.ofList (List.replicate nuls '\x00') := by
  cases chars : s.toList with
  | nil =>
      obtain rfl : s = "" := String.toList_eq_nil_iff.1 chars
      have zero : Bytes.toNat (Text.Utf8.encode "" ++ List.replicate zeros 0) = 0 := by
        rw [toNat_eq_zero_iff]
        exact fun b member => (List.mem_replicate.1 member).2
      have nul : minimal 0 = Text.Utf8.encode (String.ofList (List.replicate 1 '\x00')) := rfl
      refine ⟨1, ?_⟩
      rw [zero, nul, Text.Utf8.decodeLossy_encode, String.empty_append]
  | cons c rest =>
      have nonzero : c ≠ '\x00' := by
        rintro rfl
        exact first (congrArg List.head? chars)
      obtain ⟨lead, bytes, whole, notZero⟩ := Text.Utf8.exists_encode_cons chars nonzero
      refine ⟨zeros, ?_⟩
      rw [whole, List.cons_append, minimal_toNat notZero, ← List.cons_append, ← whole, ← Text.Utf8.encode_replicate,
        ← Text.Utf8.encode_append, Text.Utf8.decodeLossy_encode]

/-- A text of which the bytes are kept with zeros behind them is shown as it was. -/
theorem show?_paddedText (kind : a.kind = .utf8) (first : s.toList.head? ≠ some '\x00')
    (last : s.toList.getLast? ≠ some '\x00') (zeros : Nat) :
    a.show? (Bytes.toNat (Text.Utf8.encode s ++ List.replicate zeros 0) : Int) = some s := by
  obtain ⟨nuls, read⟩ := exists_decodeLossy_minimal first zeros
  have differs {c : Char} (other : c ≠ '\x00') : (c == '\x00') = false := beq_eq_false_iff_ne.2 other
  have stripped : Text.stripChars (· == '\x00') (s.toList ++ List.replicate nuls '\x00') = s.toList := by
    refine Text.stripChars_append (fun c head => differs ?_) (fun c final => differs ?_) fun c member => ?_
    · rintro rfl
      exact first head
    · rintro rfl
      exact last final
    · rw [(List.mem_replicate.1 member).2]
      rfl
  simp only [show?, kind, Int.natAbs_natCast, read, String.toList_append, String.toList_ofList, stripped,
    String.ofList_toList]

end Attribute

namespace Motto

/-- An attribute that is a text. -/
def motto : Attribute :=
  { Attribute.ofName "motto" with kind := .utf8 }

/-- A text with a letter of two bytes and a NUL in it fills a word with 28 zeros, and a text without characters with
zeros alone. -/
theorem show?_paddedText_motto :
    motto.kind = .utf8 ∧
      ("é\x00!".toList.head? ≠ some '\x00' ∧ "é\x00!".toList.getLast? ≠ some '\x00' ∧
        motto.show? (Bytes.toNat (Text.Utf8.encode "é\x00!" ++ List.replicate 28 0) : Int) = some "é\x00!") ∧
      motto.show? (Bytes.toNat (Text.Utf8.encode "" ++ List.replicate 32 0) : Int) = some "" :=
  have first : "é\x00!".toList.head? ≠ some '\x00' := by decide
  have last : "é\x00!".toList.getLast? ≠ some '\x00' := by decide
  ⟨rfl, ⟨first, last, Attribute.show?_paddedText rfl first last 28⟩,
    Attribute.show?_paddedText rfl (by decide) (by decide) 32⟩

end Motto

end TokenSchema
