import TokenSchema.Proofs.Abi.Bounds
import TokenSchema.Proofs.Abi.Coercion
import TokenSchema.Proofs.Bytes.Signed

/-!
# Number words — the word of an integer of any size

On a machine a word is filled by copying bytes into it: those of a number are as few as hold it, so they may be fewer
than the word has, or more. `Machine.word` makes these copies with the ways in which a copy stops. None of them is
taken, and what is written is the word of the value (`Machine.word_eq`). A word in the head of a parameter list stands
at its place whatever comes before and behind it (`holdsAt_head`), so a number of any size and sign is there modulo
`2 ^ 256`, and is read back from there as such (`encodeParams_number`).
-/

namespace TokenSchema

open TokenSchema.Bytes

theorem Bytes.Word.bytes_ofNat (n : Nat) : (Word.ofNat n).bytes = Bytes.ofNat 32 n :=
  rfl

theorem Bytes.Word.bytes_ofInt (z : Int) : (Word.ofInt z).bytes = Bytes.ofInt 32 z :=
  rfl

namespace Abi

namespace Machine

/-! ## Words on a machine -/

/-- The difference of two offsets. -/
def difference (a b : Nat) : Except Stop Nat :=
  if b ≤ a then .ok (a - b) else .error .overflow

/-- The part of some bytes from one offset to another. -/
def part (bytes : List UInt8) (first last : Nat) : Except Stop (List UInt8) :=
  if first ≤ last ∧ last ≤ bytes.length then .ok (slice bytes first (last - first)) else .error .outside

/-- Bytes with others copied over the part from one offset to another. -/
def copyInto (target : List UInt8) (first last : Nat) (bytes : List UInt8) : Except Stop (List UInt8) :=
  if first ≤ last ∧ last ≤ target.length then
    if bytes.length = last - first then .ok (target.take first ++ bytes ++ target.drop last) else .error .misfit
  else .error .outside

/-- A whole word of one byte. -/
def filled (b : UInt8) : List UInt8 :=
  List.replicate 32 b

/-- The lowest 256 bits of a number. -/
def lowBits (n : Nat) : Nat :=
  if bitLength n ≤ 256 then n else n &&& (2 ^ 256 - 1)

/-- The least bytes of a number at the end of zeros. -/
def uintWord (n : Nat) : Except Stop (List UInt8) := do
  let bytes := minimal (lowBits n)
  copyInto (filled 0) (← difference 32 bytes.length) 32 bytes

/-- The least bytes of an integer with its sign bit, or the last ones that fit, at the end of copies of its sign. -/
def intWord (z : Int) : Except Stop (List UInt8) := do
  let bytes := minimalSigned z
  let size := min bytes.length 32
  let last ← part bytes (← difference bytes.length size) bytes.length
  copyInto (filled (fill z)) (← difference 32 size) 32 last

/-- The word of a value. -/
def word : Value → Except Stop (List UInt8)
  | .address account => copyInto (filled 0) 12 32 account.bytes
  | .uint n => uintWord n
  | .int z => intWord z
  | .bool b => copyInto (filled 0) 31 32 [if b then 1 else 0]
  | .fixed data => do
      let size := min data.length 32
      copyInto (filled 0) 0 size (← part data 0 size)
  | .bytes _ | .string _ => .ok (filled 0)

/-! ## No copy stops -/

theorem difference_eq {a b : Nat} (le : b ≤ a) : difference a b = .ok (a - b) :=
  if_pos le

theorem part_eq {bytes : List UInt8} {first last : Nat} (order : first ≤ last) (inside : last ≤ bytes.length) :
    part bytes first last = .ok (slice bytes first (last - first)) :=
  if_pos ⟨order, inside⟩

theorem length_filled (b : UInt8) : (filled b).length = 32 :=
  List.length_replicate

/-- Bytes that are no more than a word has fit at the end of it. -/
theorem copyInto_end (b : UInt8) {bytes : List UInt8} (fits : bytes.length ≤ 32) :
    copyInto (filled b) (32 - bytes.length) 32 bytes =
      .ok (List.replicate (32 - bytes.length) b ++ bytes) := by
  have inside : 32 - bytes.length ≤ 32 ∧ 32 ≤ (filled b).length := ⟨Nat.sub_le _ _, Nat.le_of_eq (length_filled b).symm⟩
  have size : bytes.length = 32 - (32 - bytes.length) := by omega
  rw [copyInto, if_pos inside, if_pos size, filled, List.take_replicate, List.drop_replicate, Nat.sub_self,
    List.replicate_zero, List.append_nil, Nat.min_eq_left (Nat.sub_le _ _)]

/-- They fit at its beginning as well. -/
theorem copyInto_start (b : UInt8) {bytes : List UInt8} (fits : bytes.length ≤ 32) :
    copyInto (filled b) 0 bytes.length bytes = .ok (bytes ++ List.replicate (32 - bytes.length) b) := by
  have inside : 0 ≤ bytes.length ∧ bytes.length ≤ (filled b).length := ⟨Nat.zero_le _, (length_filled b).symm ▸ fits⟩
  rw [copyInto, if_pos inside, if_pos (Nat.sub_zero _).symm, filled, List.take_zero, List.drop_replicate,
    List.nil_append]

theorem lowBits_eq (n : Nat) : lowBits n = n % wordModulus := by
  rw [wordModulus_eq_two_pow]
  unfold lowBits
  split
  · rename_i short
    rw [Nat.mod_eq_of_lt (bitLength_lt_iff.1 short)]
  · rw [Nat.and_two_pow_sub_one_eq_mod]

theorem uintWord_eq (n : Nat) : uintWord n = .ok (Word.ofNat n).bytes := by
  have low : lowBits n < modulus 32 := by
    rw [lowBits_eq]
    exact Nat.mod_lt _ Word.wordModulus_pos
  have fits : (minimal (lowBits n)).length ≤ 32 := length_minimal_le (by decide) low
  simp only [uintWord, difference_eq fits, bind, Except.bind, copyInto_end 0 fits]
  rw [replicate_append_minimal (by decide) low, ← Word.bytes_ofNat, lowBits_eq, Word.ofNat_mod]

/-- The last of the least bytes of an integer, as many as a word has, with its sign before them if they are fewer. -/
theorem replicate_append_drop_minimalSigned (z : Int) {size : Nat} (least : size = min (minimalSigned z).length 32) :
    List.replicate (32 - size) (fill z) ++ (minimalSigned z).drop ((minimalSigned z).length - size) = ofInt 32 z := by
  obtain ⟨low, high⟩ := signedSize_holds z
  rw [length_minimalSigned] at least ⊢
  rw [minimalSigned_eq]
  -- Up to 32 bytes only the sign comes before them; of more, only the last 32 are left.
  rcases Nat.le_total (signedSize z) 32 with short | long
  · rw [Nat.min_eq_left short] at least
    rw [least, Nat.sub_self, List.drop_zero, replicate_append_ofInt _ low high, Nat.sub_add_cancel short]
  · rw [Nat.min_eq_right long] at least
    have cut := drop_ofInt (signedSize z - 32) 32 z
    rw [Nat.sub_add_cancel long] at cut
    rw [least, Nat.sub_self, List.replicate_zero, List.nil_append, cut]

theorem intWord_eq (z : Int) : intWord z = .ok (Word.ofInt z).bytes := by
  generalize least : min (minimalSigned z).length 32 = size
  have there : size ≤ (minimalSigned z).length := least ▸ Nat.min_le_left _ _
  have fits : size ≤ 32 := least ▸ Nat.min_le_right _ _
  have last : part (minimalSigned z) ((minimalSigned z).length - size) (minimalSigned z).length =
      .ok ((minimalSigned z).drop ((minimalSigned z).length - size)) := by
    rw [part_eq (Nat.sub_le _ _) (Nat.le_refl _), slice, ← List.length_drop, List.take_length]
  have length : ((minimalSigned z).drop ((minimalSigned z).length - size)).length = size := by
    rw [List.length_drop, Nat.sub_sub_self there]
  have copied := copyInto_end (fill z) (Nat.le_trans (Nat.le_of_eq length) fits)
  rw [length, replicate_append_drop_minimalSigned z least.symm] at copied
  simp only [intWord, least, difference_eq there, difference_eq fits, bind, Except.bind, last, copied]
  rw [Word.bytes_ofInt]

/-- The word of a value is written without a stop. -/
theorem word_eq (v : Value) : word v = .ok v.word.bytes := by
  cases v with
  | address account =>
      have size : account.bytes.length = 20 := account.length_eq
      have copied := copyInto_end 0 (show account.bytes.length ≤ 32 by omega)
      rw [size] at copied
      exact copied
  | uint n => exact uintWord_eq n
  | int z => exact intWord_eq z
  | bool b => cases b <;> rfl
  | fixed data =>
      have length : (data.take 32).length = min data.length 32 := by
        rw [List.length_take, Nat.min_comm]
      have taken : part data 0 (min data.length 32) = .ok (data.take 32) := by
        rw [part_eq (Nat.zero_le _) (Nat.min_le_left _ _), slice, List.drop_zero, Nat.sub_zero, Nat.min_comm,
          ← List.take_take, List.take_length]
      have copied := copyInto_start 0 (Nat.le_trans (Nat.le_of_eq length) (Nat.min_le_right _ _))
      rw [length] at copied
      simp only [word, taken, bind, Except.bind, copied]
      simp only [Value.word, Word.ofFixed, length]
  | bytes data => rfl
  | string text => rfl

end Machine

/-! ## Words in the head of a list -/

namespace HoldsAt

variable {data bytes : List UInt8} {offset : Nat}

theorem before (front : List UInt8) (h : HoldsAt data offset bytes) :
    HoldsAt (front ++ data) (front.length + offset) bytes := by
  obtain ⟨first, after, rfl, rfl⟩ := h
  exact ⟨front ++ first, after, by simp, by simp⟩

theorem behind (h : HoldsAt data offset bytes) (rest : List UInt8) : HoldsAt (data ++ rest) offset bytes := by
  obtain ⟨first, after, rfl, length⟩ := h
  exact ⟨first, after ++ rest, by simp, length⟩

end HoldsAt

variable {values : List Value} {place : Nat} {v : Value} {z : Int}

/-- The head of a list is the word of its first value, or that of an offset, and the head of the rest. -/
theorem exists_head_cons (offset : Nat) (v : Value) (rest : List Value) :
    ∃ (w : Word) (next : Nat), (encodeFrom offset (v :: rest)).1 = w.bytes ++ (encodeFrom next rest).1 ∧
      (v.payload? = none → w = v.word) := by
  cases payload : v.payload? with
  | none => exact ⟨v.word, offset, by simp only [encodeFrom, payload], fun _ => rfl⟩
  | some data =>
      exact ⟨.ofNat offset, offset + (tailOf data).length, by simp only [encodeFrom, payload],
        fun none => absurd none (Option.some_ne_none data)⟩

theorem holdsAt_head (there : values[place]? = some v) (static : v.payload? = none) (offset : Nat) :
    HoldsAt (encodeFrom offset values).1 (32 * place) v.word.bytes := by
  -- The values before it may have tails, so the offset of the next tail varies in the induction.
  induction values generalizing place offset with
  | nil => cases there
  | cons u rest ih =>
      obtain ⟨w, next, heads, own⟩ := exists_head_cons offset u rest
      rw [heads]
      cases place with
      | zero =>
          cases there
          rw [own static]
          exact ⟨[], _, rfl, rfl⟩
      | succ place =>
          have rest := (ih there next).before w.bytes
          rwa [w.length_eq, Nat.add_comm, ← Nat.mul_succ] at rest

theorem holdsAt_encodeParams (there : values[place]? = some v) (static : v.payload? = none) :
    HoldsAt (encodeParams values) (32 * place) v.word.bytes :=
  (holdsAt_head there static _).behind _

/-! ## Numbers -/

/-- The value is a number, of an unsigned or a signed type. -/
inductive Value.IsNumber : Value → Int → Prop where
  | uint (n : Nat) : IsNumber (.uint n) n
  | int (z : Int) : IsNumber (.int z) z

theorem Value.IsNumber.payload? (number : v.IsNumber z) : v.payload? = none := by
  cases number <;> rfl

theorem Value.IsNumber.word_eq (number : v.IsNumber z) : v.word = .ofInt z := by
  cases number with
  | uint n => exact (Word.ofInt_natCast n).symm
  | int z => rfl

/-- A number in a parameter list, of any size and sign, has its word at its place in the head: 32 bytes, written
without a stop, whose number is the number modulo `2 ^ 256`. It is read back from there as this by the unsigned type
of a word, and by the signed one as the number of its range that differs by a multiple of `2 ^ 256`. -/
theorem encodeParams_number (there : values[place]? = some v) (number : v.IsNumber z) :
    let data := encodeParams values
    ∃ w : Word, slice data (32 * place) 32 = w.bytes ∧ Machine.word v = .ok w.bytes ∧
      (w.toNat : Int) = z % 2 ^ 256 ∧
      decodeValue .uint256 data (32 * place) = .ok (.uint (z % 2 ^ 256).toNat) ∧
      ∃ s : Int, decodeValue (.int .word) data (32 * place) = .ok (.int s) ∧
        -2 ^ 255 ≤ s ∧ s < 2 ^ 255 ∧ s % 2 ^ 256 = z % 2 ^ 256 := by
  intro data
  have held : HoldsAt data (32 * place) v.word.bytes := holdsAt_encodeParams there number.payload?
  have written := Machine.word_eq v
  -- From here on it does not matter whether the number is of an unsigned or a signed type.
  rw [number.word_eq] at held written
  have bytes := held.slice_eq
  rw [(Word.ofInt z).length_eq] at bytes
  have unsigned : ((Word.ofInt z).toNat : Int) = z % 2 ^ 256 := by
    rw [Word.natCast_toNat_ofInt, wordModulus_eq_two_pow]
    norm_cast
  have signed : Bytes.toInt (Word.ofInt z).bytes = z.bmod (2 ^ 256) := by
    rw [Word.toInt_ofInt, wordModulus_eq_two_pow]
  refine ⟨.ofInt z, bytes, written, unsigned, ?_, z.bmod (2 ^ 256), ?_, ?_, ?_, ?_⟩
  · rw [held.decodeValue_eq rfl, ← unsigned, Int.toNat_natCast]
    rfl
  · rw [held.decodeValue_eq rfl, ← signed]
    rfl
  · exact Int.le_bmod (by decide)
  · exact Int.bmod_lt (by decide)
  · exact Int.bmod_emod

/-- Arguments of which the second is an integer below zero that needs more bytes than a word has. -/
def wideArguments : List Value :=
  [.bytes [1, 2, 3], .int (-2 ^ 256 - 1)]

theorem encodeParams_number_wide :
    wideArguments[1]? = some (.int (-2 ^ 256 - 1)) ∧ Value.IsNumber (.int (-2 ^ 256 - 1)) (-2 ^ 256 - 1) ∧
      decodeValue .uint256 (encodeParams wideArguments) 32 = .ok (.uint (2 ^ 256 - 1)) ∧
      decodeValue (.int .word) (encodeParams wideArguments) 32 = .ok (.int (-1)) := by
  have there : wideArguments[1]? = some (.int (-2 ^ 256 - 1)) := rfl
  have number : Value.IsNumber (.int (-2 ^ 256 - 1)) (-2 ^ 256 - 1) := .int _
  obtain ⟨w, -, -, -, unsigned, s, signed, low, high, modulo⟩ := encodeParams_number there number
  have lowest : s = -1 := by omega
  exact ⟨there, number, unsigned, lowest ▸ signed⟩

end Abi
end TokenSchema
