import TokenSchema.Proofs.Bytes.Minimal
import TokenSchema.Proofs.Call.Arguments
import TokenSchema.Proofs.Text.Numeral
import TokenSchema.Resolved

/-!
# Word texts — words that pass through texts

A value on its way from one call to another is a text: a number in decimal while it is kept, the same
number or an address where it is an argument. For the kinds of `Kind.wordType?` no bit is lost on the
way. Each step is a small fact about one text (`Text.parseInteger_decimal`, `argumentBytes_decimal`,
`parseAddress_encode0x`); `Resolved.exists_fitted_argument` puts them together.
-/

namespace TokenSchema

open TokenSchema.Bytes

/-! ## Texts of numbers and addresses -/

theorem Text.decimal_ne_empty (n : Nat) : decimal n ≠ "" := by
  intro empty
  have chars := congrArg String.toList empty
  rw [toList_decimal] at chars
  exact Nat.toDigits_ne_nil chars

theorem Text.signedDecimal_natCast (n : Nat) : signedDecimal (n : Int) = decimal n := by
  have notNegative : ¬ (n : Int) < 0 := by omega
  simp [signedDecimal, notNegative]

theorem Text.Hex.isBlank_digit : ∀ n < 16, isBlank (digit n) = false := by
  decide

theorem Text.Hex.isBlank_of_mem_encodeChars {bytes : List UInt8} :
    ∀ c ∈ encodeChars bytes, isBlank c = false := by
  induction bytes with
  | nil => simp [encodeChars]
  | cons b rest ih =>
      have size := b.toNat_lt
      have high := isBlank_digit (b.toNat / 16) (by omega)
      have low := isBlank_digit (b.toNat % 16) (by omega)
      simpa [encodeChars, high, low] using ih

theorem Text.Hex.trimChars_encode0x (bytes : List UInt8) :
    trimChars (encode0x bytes).toList = '0' :: 'x' :: encodeChars bytes := by
  have noBlank : ∀ c ∈ '0' :: 'x' :: encodeChars bytes, isBlank c = false := by
    intro c member
    rcases List.mem_cons.1 member with rfl | member
    · decide
    · rcases List.mem_cons.1 member with rfl | member
      · decide
      · exact isBlank_of_mem_encodeChars c member
  rw [encode0x, String.toList_ofList, trimChars_of_noBlank noBlank]

theorem Text.parseInteger_decimal (n : Nat) : parseInteger (decimal n) = some n := by
  -- No decimal text bears the mark of a hexadecimal one.
  have digits : ∀ c ∈ Nat.toDigits 10 n, isDigit c = true := fun _ => isDigit_of_mem_toDigits
  have read := integer?_signedDecimal n
  rw [signedDecimal_natCast, decimal] at read
  simp only [parseInteger, toList_decimal, trimChars_of_digits digits]
  split
  · rename_i rest marked
    exact absurd marked (ne_hexMark digits rest)
  · exact read

theorem argumentBytes_decimal (n : Nat) : argumentBytes (Text.decimal n) = minimal n := by
  have digits : ∀ c ∈ Nat.toDigits 10 n, Text.isDigit c = true :=
    fun _ => Text.isDigit_of_mem_toDigits
  unfold argumentBytes
  rw [Text.toList_decimal, Text.trimChars_of_digits digits]
  split
  · rename_i rest marked
    exact absurd marked (Text.ne_hexMark digits rest)
  · rw [Text.digitsOnly?_toDigits]

theorem parseAddress_encode0x (account : Address) :
    parseAddress (Text.Hex.encode0x account.bytes) = some account := by
  simp [parseAddress, addressDigits, Text.Hex.trimChars_encode0x]

theorem addressText_toNat (account : Address) :
    addressText account.toNat = Text.Hex.encode0x account.bytes := by
  have small : account.toNat < modulus 20 := account.toNat_lt
  have range : (0 : Int) ≤ account.toNat ∧ (account.toNat : Int) < modulus 20 :=
    ⟨Int.natCast_nonneg _, Int.ofNat_lt.2 small⟩
  rw [addressText, if_pos range, Int.toNat_natCast, account.bytes_of_toNat]

/-! ## Arguments -/

namespace Abi

/-- A text that is not blank and has no blanks around it is read as it stands. -/
theorem Ty.ofArgument_of_trimmed (t : Ty) {text : String} (trimmed : Text.trim text = text)
    (nonempty : text ≠ "") : t.ofArgument (some text) = t.ofText text := by
  have kept : ((some text).map Text.trim).filter (· ≠ "") = some text := by
    simp [trimmed, Option.filter, nonempty]
  simp only [ofArgument, kept]

/-- A text that is read as a value of the type stands for that value. -/
theorem Ty.Has.fitArgument_eq {t : Ty} {text : String} {v : Value} (has : t.Has v)
    (trimmed : Text.trim text = text) (nonempty : text ≠ "") (read : t.ofText text = .ok v) :
    t.fitArgument (some text) = .ok v := by
  rw [Ty.fitArgument, ofArgument_of_trimmed t trimmed nonempty, read]
  exact has.coerce_eq

theorem Ty.fitArgument_uint256_decimal {n : Nat} (fits : n < modulus 32) :
    Ty.uint256.fitArgument (some (Text.decimal n)) = .ok (.uint n) := by
  refine Has.fitArgument_eq (.uint fits) (Text.trim_decimal n) (Text.decimal_ne_empty n) ?_
  simp only [ofText, uint256, Text.parseInteger_decimal]
  rfl

theorem Width.octets_word : Width.word.octets = 32 := rfl

theorem Ty.fitArgument_bytes32_decimal {n : Nat} (fits : n < modulus 32) :
    Ty.bytes32.fitArgument (some (Text.decimal n)) = .ok (.fixed (Bytes.ofNat 32 n)) := by
  have digits : (Text.decimal n).toList.all Text.isDigit = true := by
    rw [Text.toList_decimal, List.all_eq_true]
    exact fun _ => Text.isDigit_of_mem_toDigits
  have short : (minimal n).length ≤ 32 := length_minimal_le (by decide) fits
  have filled := replicate_append_minimal (by decide) fits
  refine Has.fitArgument_eq (.fixed (length_ofNat 32 n)) (Text.trim_decimal n)
    (Text.decimal_ne_empty n) ?_
  simp only [ofText, bytes32, fixedOfText, argumentBytes_decimal, digits, Width.octets_word, short,
    decide_true, Bool.and_self, if_true, filled]

theorem Ty.fitArgument_address_encode0x (account : Address) :
    Ty.address.fitArgument (some (Text.Hex.encode0x account.bytes)) = .ok (.address account) := by
  have trimmed : Text.trim (Text.Hex.encode0x account.bytes) = Text.Hex.encode0x account.bytes := by
    rw [Text.trim, Text.Hex.trimChars_encode0x, Text.Hex.encode0x]
  have nonempty : Text.Hex.encode0x account.bytes ≠ "" := by
    intro empty
    have chars := congrArg String.toList empty
    simp [Text.Hex.encode0x] at chars
  refine Has.fitArgument_eq (.address account) trimmed nonempty ?_
  simp only [ofText, parseAddress_encode0x]

end Abi

/-! ## Kinds that words pass through -/

/-- The type as which a call takes and gives values of a kind, where it is of a word. -/
def Kind.wordType? : Kind → Option Abi.Ty
  | .unsigned | .signed | .unsignedInput | .tokenId => some .uint256
  | .address => some .address
  | .boolean | .bytes | .mapping | .e18 | .e8 | .e6 | .e4 | .e3 | .e2 => some .bytes32
  | .utf8 | .unknown => none

/-- The word is one for the type of its kind: that of an address has twelve zeros in front. -/
structure Kind.Carries (k : Kind) (t : Abi.Ty) (w : Word) : Prop where
  type_eq : k.wordType? = some t
  zeros : k = .address → w.bytes.take 12 = List.replicate 12 0

theorem Kind.isTextual_eq_false {k : Kind} {t : Abi.Ty} (h : k.wordType? = some t) :
    Resolved.isTextual k = false := by
  cases k <;> first | rfl | cases h

theorem CallTemplate.lookup_returnType {f : CallTemplate} {t : Abi.Ty}
    (h : f.kind.wordType? = some t) : Abi.lookup f.returnType = some t := by
  have numbers : Abi.lookup "uint256" = some .uint256 := by decide +kernel
  have accounts : Abi.lookup "address" = some .address := by decide +kernel
  have words : Abi.lookup "bytes32" = some .bytes32 := by decide +kernel
  rw [← h]
  unfold returnType
  cases kind : f.kind with
  | utf8 | unknown =>
      rw [kind] at h
      cases h
  | signed | unsigned | unsignedInput | tokenId => exact numbers
  | address => exact accounts
  | _ => exact words

/-! ## Words as values -/

theorem Bytes.Word.toNat_drop {w : Word} (zeros : w.bytes.take 12 = List.replicate 12 0) :
    Bytes.toNat (w.bytes.drop 12) = w.toNat := by
  calc
    Bytes.toNat (w.bytes.drop 12) = Bytes.toNat (w.bytes.take 12 ++ w.bytes.drop 12) := by
      rw [zeros, toNat_replicate_append]
    _ = w.toNat := by rw [List.take_append_drop]; rfl

namespace Kind.Carries

variable {k : Kind} {t : Abi.Ty} {w : Word}

theorem cases_type (carries : k.Carries t w) :
    k = .address ∧ t = .address ∨ k ≠ .address ∧ (t = .uint256 ∨ t = .bytes32) := by
  have type := carries.type_eq
  cases k <;> simp_all [wordType?]

/-- Read as the type, the word is the number that it is. -/
theorem integer?_ofWord (carries : k.Carries t w) : (t.ofWord w).integer? = some (w.toNat : Int) := by
  rcases carries.cases_type with ⟨account, rfl⟩ | ⟨-, rfl | rfl⟩
  · have number := Word.toNat_drop (carries.zeros account)
    simp only [Abi.Ty.ofWord, Abi.Value.integer?, Block.toNat, number]
  · rfl
  · have whole : w.bytes.take 32 = w.bytes := List.take_of_length_le (Nat.le_of_eq w.length_eq)
    simp only [Abi.Ty.ofWord, Abi.Ty.bytes32, Abi.Width.word, Abi.Value.integer?, whole]
    rfl

end Kind.Carries

namespace Resolved

variable {a : Attribute} {t : Abi.Ty} {w : Word}

/-- A word is kept as its number in decimal. -/
theorem rawText_ofWord (carries : a.kind.Carries t w) :
    rawText a (t.ofWord w) = Text.decimal w.toNat := by
  simp only [rawText, Kind.isTextual_eq_false carries.type_eq, Bool.false_eq_true, if_false,
    carries.integer?_ofWord, Text.signedDecimal_natCast]

theorem ofRaw_decimal (tokenId : Nat) (carries : a.kind.Carries t w) :
    ofRaw a tokenId (Text.decimal w.toNat) = ofValue a tokenId w.toNat := by
  have read := Text.integer?_signedDecimal w.toNat
  rw [Text.signedDecimal_natCast] at read
  simp [ofRaw, read, Kind.isTextual_eq_false carries.type_eq]

/-- What is kept of a word gives an argument of its type that is that word again. -/
theorem exists_fitted_argument (tokenId : Nat) (carries : a.kind.Carries t w) :
    ∃ text v, (ofRaw a tokenId (rawText a (t.ofWord w))).argumentText = some text ∧
      t.fitArgument (some text) = .ok v ∧ v.payload? = none ∧ v.word = w := by
  rw [rawText_ofWord carries, ofRaw_decimal tokenId carries]
  have fits : w.toNat < modulus 32 := w.toNat_lt
  rcases carries.cases_type with ⟨account, rfl⟩ | ⟨other, type⟩
  · -- An address is shown as its last twenty bytes, and the argument is what is shown.
    have zeros := carries.zeros account
    let found : Address := ⟨w.bytes.drop 12, by simp [w.length_eq]⟩
    have number : found.toNat = w.toNat := Word.toNat_drop zeros
    have shown : addressText w.toNat = Text.Hex.encode0x found.bytes := by
      rw [← number, addressText_toNat]
    refine ⟨Text.Hex.encode0x found.bytes, .address found, ?_,
      Abi.Ty.fitArgument_address_encode0x found, rfl, ?_⟩
    · simp [argumentText, ofValue, blank, account, Attribute.show?, shown]
    · apply Block.ext_bytes
      change List.replicate 12 0 ++ w.bytes.drop 12 = w.bytes
      rw [← zeros, List.take_append_drop]
  · have argument : (ofValue a tokenId w.toNat).argumentText = some (Text.decimal w.toNat) := by
      simp [argumentText, ofValue, blank, other, Text.signedDecimal_natCast]
    rcases type with rfl | rfl
    · refine ⟨_, _, argument, Abi.Ty.fitArgument_uint256_decimal fits, rfl, ?_⟩
      simp only [Abi.Value.word, Word.ofNat, w.ofNat_toNat]
    · refine ⟨_, _, argument, Abi.Ty.fitArgument_bytes32_decimal fits, rfl, ?_⟩
      apply Block.ext_bytes
      rw [w.bytes_of_toNat]
      simp [Abi.Value.word, Word.ofFixed, w.length_eq, List.take_of_length_le]

end Resolved

/-! ## Calls with one argument -/

/-- A call of one static argument is its selector and one word. -/
theorem CallTemplate.data_build_of_single {f : CallTemplate} {c : CallContext} {typeName name : String}
    {t : Abi.Ty} {v : Abi.Value} {text : String}
    (single : f.arguments = [⟨typeName, .reference name⟩]) (typed : Abi.lookup typeName = some t)
    (given : c.references.get? name = some text) (fitted : t.fitArgument (some text) = .ok v)
    (static : v.payload? = none) :
    (f.build c).data =
      Abi.selector (f.method ++ "(" ++ t.canonical ++ ")") ++ v.word.bytes := by
  have argument : c.argument ⟨typeName, .reference name⟩ = .ok (some (t, v)) := by
    rw [c.argument_of_typed (by simp) (by simp)]
    simp only [typed, CallContext.sourceText, given, fitted, Except.map]
  have arguments : c.arguments f.arguments = [(t, v)] := by
    rw [single]
    simp [CallContext.arguments, argument]
  have encoded : Abi.encodeParams [v] = v.word.bytes := by
    simp [Abi.encodeParams, Abi.encodeFrom, static]
  simp [build, arguments, Abi.encodeCall, encoded, callSignature]

end TokenSchema
