import TokenSchema.Proofs.Call.ForeignDigits
import TokenSchema.Proofs.Call.WordText
import TokenSchema.Proofs.Text.Integer
import TokenSchema.Proofs.Text.Utf8

/-!
# Numerals as arguments — what a call makes of a number that is not in decimal form

A number may be written with zeros in front, with a `+` or with low lines. An argument of a number type takes the
number and not the text, so each way to write it gives the same value. The other types take the text:
`Abi.Ty.ReadsAlike` says for each of them when a numeral and the decimal form of its number give the same value all
the same, and `Abi.Ty.fitArgument_decimal_iff` that it is so in no other case.
-/

namespace TokenSchema

open TokenSchema.Bytes

/-! ## What numerals are read as -/

namespace Text.IsNumeral

variable {s : String} {z : Int} (numeral : IsNumeral s z)

include numeral

theorem parseInteger_eq : parseInteger s = some z := by
  unfold parseInteger
  simp only [numeral.trimmed]
  split
  · rename_i rest marked
    exact absurd marked (numeral.ne_hexMark rest (by decide))
  · rw [String.ofList_toList, numeral.read]

theorem argumentBytes_eq :
    argumentBytes s = if s.toList.all isDigit then minimal z.toNat else Utf8.encode s := by
  have nonempty : s.toList.isEmpty = false := by
    simpa using numeral.ne_empty
  unfold argumentBytes
  rw [numeral.trimmed]
  split
  · rename_i rest marked
    exact absurd marked (numeral.ne_hexMark rest (by decide))
  · simp only [digitsOnly?, nonempty, Bool.false_or]
    cases digits : s.toList.all isDigit with
    | true =>
        have number : z.toNat = ofDecimalDigits s.toList := by
          rw [numeral.of_digits digits, Int.toNat_natCast]
        simp [number]
    | false => simp

theorem length_encode_eq : (Utf8.encode s).length = s.toList.length :=
  Utf8.length_encode numeral.ascii

theorem ne_zero_of_mem_encode : ∀ b ∈ Utf8.encode s, b ≠ 0 := by
  rw [Utf8.encode_of_ascii numeral.ascii]
  intro b member
  obtain ⟨c, there, rfl⟩ := List.mem_map.1 member
  obtain ⟨pos, small, -⟩ := isNumeralChar_range (numeral.isNumeralChar_of_mem c there)
  intro zero
  have number := congrArg UInt8.toNat zero
  rw [UInt8.toNat_ofNat', Nat.mod_eq_of_lt (by omega)] at number
  exact absurd number (Nat.ne_of_gt pos)

/-- The number of a numeral that has more than digits needs fewer bytes than the numeral. -/
theorem length_minimal_lt (other : s.toList.all isDigit = false) :
    (minimal z.toNat).length < (Utf8.encode s).length := by
  obtain ⟨some, bound⟩ := numeral.natAbs_lt
  have fits : z.toNat < modulus (s.toList.filter isDigit).length :=
    calc
      z.toNat ≤ z.natAbs := by omega
      _ < 10 ^ (s.toList.filter isDigit).length := bound
      _ ≤ 256 ^ (s.toList.filter isDigit).length := Nat.pow_le_pow_left (by decide) _
  have fewer : (s.toList.filter isDigit).length < s.toList.length := by
    rw [List.length_filter_lt_length_iff_exists]
    simpa using other
  rw [numeral.length_encode_eq]
  exact Nat.lt_of_le_of_lt (length_minimal_le some fits) fewer

theorem parseAddress_eq : parseAddress s = (Hex.decodeChars s.toList).bind (Block.ofList? 20) := by
  have digits : addressDigits s = s.toList := by
    unfold addressDigits
    rw [numeral.trimmed]
    split
    · rename_i rest marked
      exact absurd marked (numeral.ne_hexMark rest (by decide))
    · rename_i rest marked
      exact absurd marked (numeral.ne_hexMark rest (by decide))
    · rfl
  rw [parseAddress, digits]
  rfl

/-- A numeral that is an address is the digits of the address. -/
theorem toList_of_parseAddress {account : Address} (read : parseAddress s = some account) :
    s.toList = Hex.encodeChars account.bytes := by
  rw [numeral.parseAddress_eq] at read
  obtain ⟨bytes, decoded, block⟩ := Option.bind_eq_some_iff.1 read
  have same : bytes = account.bytes := by
    unfold Block.ofList? at block
    split at block
    · cases block
      rfl
    · cases block
  have digits : ∀ c ∈ s.toList, isDigit c = true := by
    intro c member
    refine Hex.isDigit_of_isNumeralChar (numeral.isNumeralChar_of_mem c member) ?_
    by_contra foreign
    have none : Hex.digitValue c = none := by simpa using foreign
    rw [Hex.decodeChars_eq_none ⟨c, member, none⟩] at decoded
    cases decoded
  rw [← same, Hex.encodeChars_of_decodeChars digits decoded]

end Text.IsNumeral

/-! ## Numerals and decimal forms -/

namespace Abi

open Text (IsNumeral signedDecimal isDigit)

variable {s : String} {z : Int}

theorem Ty.fitArgument_numeral (t : Ty) (numeral : IsNumeral s z) :
    t.fitArgument (some s) = (t.ofText s).bind t.coerce := by
  rw [fitArgument, ofArgument_of_trimmed t numeral.trim_eq numeral.ne_empty]

/-- Though a numeral is not the decimal form of its number, it gives the same value as that form, or neither gives a
value. -/
def Ty.ReadsAlike (t : Ty) (s : String) (z : Int) : Prop :=
  match t with
  | .uint _ | .int _ => True
  | .bool => z ≠ 0 ∧ z ≠ 1
  | .address => parseAddress s = none ∧ parseAddress (signedDecimal z) = none
  | .bytes => s.toList.all isDigit = true
  | .fixed w =>
      s.toList.all isDigit = true ∨
        w.octets < (argumentBytes s).length ∧ w.octets < (argumentBytes (signedDecimal z)).length
  | .string => False

theorem ite_some_eq_iff {α : Type} {p q : Prop} [Decidable p] [Decidable q] {a b : α} :
    (if p then some a else none) = (if q then some b else none) ↔ p ∧ q ∧ a = b ∨ ¬ p ∧ ¬ q := by
  by_cases hp : p
  · by_cases hq : q
    · simp [hp, hq]
    · simp [hp, hq]
  · by_cases hq : q
    · simp [hp, hq]
    · simp [hp, hq]

/-- The bytes of a text in those of a width: a number stands at the right end, other characters at the left. -/
def Width.filled (w : Width) (s : String) : List UInt8 :=
  let zeros := List.replicate (w.octets - (argumentBytes s).length) 0
  if s.toList.all isDigit then zeros ++ argumentBytes s else argumentBytes s ++ zeros

section Numeral

variable (numeral : IsNumeral s z)

include numeral

/-! ### Numbers -/

theorem Ty.fit_uint (w : Width) :
    ((Ty.uint w).fitArgument (some s)).toOption =
      if z < 0 then none else ((Ty.uint w).coerce (.uint z.toNat)).toOption := by
  rw [fitArgument_numeral _ numeral]
  simp only [ofText, numeral.parseInteger_eq]
  cases z with
  | ofNat n => rfl
  | negSucc n =>
      rw [if_pos (Int.negSucc_lt_zero n)]
      rfl

theorem Ty.fit_int (w : Width) :
    ((Ty.int w).fitArgument (some s)).toOption = ((Ty.int w).coerce (.int z)).toOption := by
  rw [fitArgument_numeral _ numeral]
  simp only [ofText, numeral.parseInteger_eq]
  rfl

/-! ### Flags -/

theorem Ty.fit_bool :
    (Ty.bool.fitArgument (some s)).toOption =
      if s = "1" then some (.bool true) else if s = "0" then some (.bool false) else none := by
  have noWord : s ≠ "true" ∧ s ≠ "false" := by
    have read := numeral.read
    constructor
    · rintro rfl
      rw [show Text.integer? "true" = none by decide] at read
      cases read
    · rintro rfl
      rw [show Text.integer? "false" = none by decide] at read
      cases read
  rw [fitArgument_numeral _ numeral]
  simp only [ofText, Text.lowercase_eq_self numeral.isNumeralChar_of_mem, noWord, false_or]
  split
  · rfl
  · split
    · rfl
    · rfl

theorem Ty.fit_bool_iff :
    (Ty.bool.fitArgument (some s)).toOption = (Ty.bool.fitArgument (some (signedDecimal z))).toOption ↔
      s = signedDecimal z ∨ z ≠ 0 ∧ z ≠ 1 := by
  have one : s = "1" → z = 1 := by
    rintro rfl
    exact (Option.some.inj numeral.read).symm
  have zero : s = "0" → z = 0 := by
    rintro rfl
    exact (Option.some.inj numeral.read).symm
  rw [fit_bool numeral, fit_bool (IsNumeral.signedDecimal z)]
  by_cases isZero : z = 0
  · subst isZero
    have decimal : signedDecimal 0 = "0" := rfl
    by_cases same : s = "0"
    · simp [same, decimal]
    · have notOne : s ≠ "1" := fun h => absurd (one h) (by decide)
      simp [same, notOne, decimal]
  by_cases isOne : z = 1
  · subst isOne
    have decimal : signedDecimal 1 = "1" := rfl
    by_cases same : s = "1"
    · simp [same, decimal]
    · have notZero : s ≠ "0" := fun h => absurd (zero h) (by decide)
      simp [same, notZero, decimal]
  · have own : signedDecimal z ≠ "1" ∧ signedDecimal z ≠ "0" := by
      constructor
      · intro h
        have read := Text.integer?_signedDecimal z
        rw [h] at read
        exact isOne (Option.some.inj read).symm
      · intro h
        have read := Text.integer?_signedDecimal z
        rw [h] at read
        exact isZero (Option.some.inj read).symm
    simp [mt one isOne, mt zero isZero, own, isZero, isOne]

/-! ### Addresses -/

theorem Ty.fit_address :
    (Ty.address.fitArgument (some s)).toOption = (parseAddress s).map .address := by
  rw [fitArgument_numeral _ numeral]
  simp only [ofText]
  cases parseAddress s with
  | none => rfl
  | some account => rfl

theorem Ty.fit_address_iff :
    (Ty.address.fitArgument (some s)).toOption = (Ty.address.fitArgument (some (signedDecimal z))).toOption ↔
      s = signedDecimal z ∨ parseAddress s = none ∧ parseAddress (signedDecimal z) = none := by
  rw [fit_address numeral, fit_address (IsNumeral.signedDecimal z)]
  constructor
  · intro same
    cases read : parseAddress s with
    | none =>
        rw [read] at same
        exact .inr ⟨rfl, Option.map_eq_none_iff.1 same.symm⟩
    | some account =>
        rw [read] at same
        obtain ⟨account', read', accounts⟩ := Option.map_eq_some_iff.1 same.symm
        cases accounts
        have chars := numeral.toList_of_parseAddress read
        rw [← (IsNumeral.signedDecimal z).toList_of_parseAddress read'] at chars
        exact .inl (String.toList_injective chars)
  · rintro (same | ⟨none, none'⟩)
    · rw [← same]
    · rw [none, none']

/-! ### Byte strings -/

/-- The bytes of a numeral are those of the decimal form if it has digits alone; otherwise it has more of them, if its
number is not below zero, and both have those of their characters if it is. -/
theorem argumentBytes_decimal_cases :
    s.toList.all isDigit = true ∧ (signedDecimal z).toList.all isDigit = true ∧
        argumentBytes s = argumentBytes (signedDecimal z) ∨
      s.toList.all isDigit = false ∧ argumentBytes s = Text.Utf8.encode s ∧
        ((signedDecimal z).toList.all isDigit = true ∧
            argumentBytes (signedDecimal z) = minimal z.toNat ∧
            (minimal z.toNat).length < (Text.Utf8.encode s).length ∨
          (signedDecimal z).toList.all isDigit = false ∧
            argumentBytes (signedDecimal z) = Text.Utf8.encode (signedDecimal z)) := by
  have own := (IsNumeral.signedDecimal z).argumentBytes_eq
  have given := numeral.argumentBytes_eq
  cases digits : s.toList.all isDigit with
  | true =>
      have number := numeral.of_digits digits
      have decimal : (signedDecimal z).toList.all isDigit = true := by
        rw [number, Text.signedDecimal_natCast, Text.toList_decimal, List.all_eq_true]
        exact fun _ => Text.isDigit_of_mem_toDigits
      rw [if_pos decimal] at own
      rw [if_pos digits] at given
      exact .inl ⟨rfl, decimal, given.trans own.symm⟩
  | false =>
      rw [digits] at given
      refine .inr ⟨rfl, given, ?_⟩
      cases decimal : (signedDecimal z).toList.all isDigit with
      | true =>
          rw [decimal] at own
          exact .inl ⟨rfl, own, numeral.length_minimal_lt digits⟩
      | false =>
          rw [decimal] at own
          exact .inr ⟨rfl, own⟩

theorem Ty.fit_bytes : (Ty.bytes.fitArgument (some s)).toOption = some (.bytes (argumentBytes s)) := by
  rw [fitArgument_numeral _ numeral]
  rfl

theorem Ty.fit_bytes_iff :
    (Ty.bytes.fitArgument (some s)).toOption = (Ty.bytes.fitArgument (some (signedDecimal z))).toOption ↔
      s = signedDecimal z ∨ s.toList.all isDigit = true := by
  rw [fit_bytes numeral, fit_bytes (IsNumeral.signedDecimal z), Option.some_inj, Value.bytes.injEq]
  rcases argumentBytes_decimal_cases numeral with
    ⟨digits, -, same⟩ | ⟨digits, given, ⟨decimal, own, fewer⟩ | ⟨-, own⟩⟩
  · exact iff_of_true same (.inr digits)
  · rw [given, own, digits]
    refine iff_of_false ?_ ?_
    · intro same
      rw [same] at fewer
      exact Nat.lt_irrefl _ fewer
    · rintro (same | none)
      · rw [same, decimal] at digits
        cases digits
      · cases none
  · rw [given, own, digits, Text.Utf8.encode_inj]
    simp

theorem Ty.fit_fixed (w : Width) :
    ((Ty.fixed w).fitArgument (some s)).toOption =
      if (argumentBytes s).length ≤ w.octets then some (.fixed (w.filled s)) else none := by
  rw [fitArgument_numeral _ numeral]
  by_cases fits : (argumentBytes s).length ≤ w.octets
  · cases digits : s.toList.all isDigit with
    | true =>
        have full : (w.filled s).length = w.octets := by
          simp [Width.filled, digits, Nat.sub_add_cancel fits]
        have value : fixedOfText w s = .fixed (w.filled s) := by
          simp [fixedOfText, Width.filled, digits, fits]
        simp [ofText, value, Except.bind, coerce, full, fits, padRight, Except.toOption]
    | false =>
        have value : fixedOfText w s = .fixed (argumentBytes s) := by
          simp [fixedOfText, digits]
        simp [ofText, value, Except.bind, coerce, fits, padRight, Width.filled, digits, Except.toOption]
  · have value : fixedOfText w s = .fixed (argumentBytes s) := by
      simp [fixedOfText, fits]
    simp only [ofText, value, Except.bind, coerce, fits, if_false]
    rfl

/-- The zeros that fill the bytes of characters are told from them. -/
theorem Width.filter_filled (w : Width) (other : s.toList.all isDigit = false) :
    (w.filled s).filter (· != 0) = Text.Utf8.encode s := by
  have bytes : argumentBytes s = Text.Utf8.encode s := by
    rw [numeral.argumentBytes_eq, other]
    rfl
  have kept : (Text.Utf8.encode s).filter (· != 0) = Text.Utf8.encode s := by
    rw [List.filter_eq_self]
    simpa using numeral.ne_zero_of_mem_encode
  simp [filled, other, bytes, kept]

theorem Ty.fit_fixed_iff (w : Width) :
    ((Ty.fixed w).fitArgument (some s)).toOption = ((Ty.fixed w).fitArgument (some (signedDecimal z))).toOption ↔
      s = signedDecimal z ∨ s.toList.all isDigit = true ∨
        w.octets < (argumentBytes s).length ∧ w.octets < (argumentBytes (signedDecimal z)).length := by
  rw [fit_fixed numeral, fit_fixed (IsNumeral.signedDecimal z), ite_some_eq_iff, Value.fixed.injEq,
    ← Nat.not_le, ← Nat.not_le]
  rcases argumentBytes_decimal_cases numeral with
    ⟨digits, decimal, same⟩ | ⟨digits, given, ⟨decimal, own, fewer⟩ | ⟨decimal, own⟩⟩
  · have filled : w.filled s = w.filled (signedDecimal z) := by
      simp only [Width.filled, digits, decimal, same]
    refine iff_of_true ?_ (.inr (.inl digits))
    rw [same]
    by_cases fits : (argumentBytes (signedDecimal z)).length ≤ w.octets
    · exact .inl ⟨fits, fits, filled⟩
    · exact .inr ⟨fits, fits⟩
  -- Not below zero, but not digits alone: the decimal form stands at the other end, in fewer bytes.
  · have texts : s ≠ signedDecimal z := by
      intro same
      rw [same, decimal] at digits
      cases digits
    have apart : w.filled s ≠ w.filled (signedDecimal z) := by
      -- Without zeros the one has more bytes than the other.
      intro same
      have kept := w.filter_filled numeral digits
      have count : ((w.filled (signedDecimal z)).filter (· != 0)).length ≤ (minimal z.toNat).length := by
        simpa [Width.filled, decimal, own] using List.length_filter_le _ _
      rw [← same, kept] at count
      omega
    simp [apart, texts, digits]
  -- Below zero both texts are taken as characters.
  · have filled : w.filled s = w.filled (signedDecimal z) ↔ s = signedDecimal z := by
      refine ⟨fun same => ?_, congrArg w.filled⟩
      have kept := w.filter_filled numeral digits
      rw [same, w.filter_filled (IsNumeral.signedDecimal z) decimal] at kept
      exact Text.Utf8.encode_inj.1 kept.symm
    rw [filled, digits]
    constructor
    · rintro (⟨-, -, same⟩ | long)
      · exact .inl same
      · exact .inr (.inr long)
    · rintro (same | none | long)
      · rw [← same]
        by_cases fits : (argumentBytes s).length ≤ w.octets
        · exact .inl ⟨fits, fits, rfl⟩
        · exact .inr ⟨fits, fits⟩
      · cases none
      · exact .inr long

/-! ### All types -/

/-- A numeral and the decimal form of its number are one text, or the type reads them alike; in no other case do both
give the same value, or neither of them one. -/
theorem Ty.fitArgument_decimal_iff (t : Ty) :
    (t.fitArgument (some s)).toOption = (t.fitArgument (some (signedDecimal z))).toOption ↔
      s = signedDecimal z ∨ t.ReadsAlike s z := by
  have decimal := IsNumeral.signedDecimal z
  cases t with
  | uint w =>
      rw [fit_uint numeral, fit_uint decimal]
      exact iff_of_true rfl (.inr trivial)
  | int w =>
      rw [fit_int numeral, fit_int decimal]
      exact iff_of_true rfl (.inr trivial)
  | bool => exact fit_bool_iff numeral
  | address => exact fit_address_iff numeral
  | bytes => exact fit_bytes_iff numeral
  | fixed w => exact fit_fixed_iff numeral w
  | string =>
      have own : ∀ {text : String}, IsNumeral text z →
          (Ty.string.fitArgument (some text)).toOption = some (.string text) := by
        intro text numeral
        rw [fitArgument_numeral _ numeral]
        rfl
      rw [own numeral, own decimal]
      simp [ReadsAlike]

end Numeral

end Abi

end TokenSchema
