import Mathlib.Algebra.Group.Nat.Defs
import Mathlib.Data.List.Forall2
import TokenSchema.Proofs.Abi.Word

/-!
# Layout — a parameter list is read back from where it was written

Each value of a list leaves a word in the head and, if it has no fixed size, its bytes in the tail. The
induction follows the list with two places in the data at once, that of the next head word and that of
the next free tail: `HoldsAt` says what stands where, and `decodeFrom_encodeFrom` is the invariant of a
decoder that has come to both places.

Reading a whole list back (`decodeParams_encodeParams`) does not depend on what follows it.
-/

namespace TokenSchema
namespace Abi

open TokenSchema.Bytes

/-! ## Bytes at a place -/

/-- The data holds these bytes from an offset on. -/
def HoldsAt (data : List UInt8) (offset : Nat) (bytes : List UInt8) : Prop :=
  ∃ before after, data = before ++ (bytes ++ after) ∧ before.length = offset

namespace HoldsAt

variable {data first second : List UInt8} {offset : Nat}

theorem left (h : HoldsAt data offset (first ++ second)) : HoldsAt data offset first := by
  obtain ⟨before, after, rfl, length⟩ := h
  exact ⟨before, second ++ after, by simp, length⟩

theorem right (h : HoldsAt data offset (first ++ second)) :
    HoldsAt data (offset + first.length) second := by
  obtain ⟨before, after, rfl, rfl⟩ := h
  exact ⟨before ++ first, after, by simp, by simp⟩

theorem afterWord {w : Word} (h : HoldsAt data offset (w.bytes ++ second)) :
    HoldsAt data (offset + 32) second := by
  have next := h.right
  rwa [w.length_eq] at next

theorem length_le (h : HoldsAt data offset first) : offset + first.length ≤ data.length := by
  obtain ⟨before, after, rfl, rfl⟩ := h
  simp only [List.length_append]
  omega

theorem slice_eq (h : HoldsAt data offset first) : slice data offset first.length = first := by
  obtain ⟨before, after, rfl, rfl⟩ := h
  simp [slice]

/-! ## Checked reads -/

theorem readBytes_eq (h : HoldsAt data offset first) :
    readBytes data offset first.length = .ok first := by
  simp only [readBytes, if_pos h.length_le, h.slice_eq]

theorem readWord_eq {w : Word} (h : HoldsAt data offset w.bytes) :
    readWord data offset = .ok w := by
  have inside : offset + 32 ≤ data.length := w.length_eq ▸ h.length_le
  have same : slice data offset 32 = w.bytes := by
    have read := h.slice_eq
    rwa [w.length_eq] at read
  simp only [readWord, dif_pos inside]
  exact congrArg Except.ok (Block.ext_bytes same)

theorem readOffset_eq {n : Nat} (h : HoldsAt data offset (Word.ofNat n).bytes)
    (small : n ≤ Text.maxWord64) : readOffset data offset = .ok n := by
  have fits : n < wordModulus := Nat.lt_of_le_of_lt small (by decide)
  have number : (Word.ofNat n).toNat = n := Word.toNat_ofNat_of_lt fits
  simp only [readOffset, h.readWord_eq, bind, Except.bind, number, if_pos small]
  rfl

theorem readPayload_eq {payload : List UInt8} (h : HoldsAt data offset (tailOf payload))
    (small : payload.length ≤ Text.maxWord64) : readPayload data offset = .ok payload := by
  have size : readOffset data offset = .ok payload.length := h.left.readOffset_eq small
  have bytes : HoldsAt data (offset + 32) payload := h.afterWord.left
  simp only [readPayload, size, bind, Except.bind, bytes.readBytes_eq]

end HoldsAt

theorem HoldsAt.decodeValue_eq {data : List UInt8} {head : Nat} {w : Word} {t : Ty} (h : HoldsAt data head w.bytes)
    (static : t.isDynamic = false) : decodeValue t data head = .ok (t.ofWord w) := by
  rw [decodeValue_of_static static, h.readWord_eq]
  rfl

/-! ## Heads and tails -/

theorem length_le_tailOf (payload : List UInt8) :
    32 + payload.length ≤ (tailOf payload).length := by
  simp only [tailOf, padWords, List.length_append, (Word.ofNat payload.length).length_eq]
  omega

theorem length_encodeFrom_head (values : List Value) (offset : Nat) :
    (encodeFrom offset values).1.length = 32 * values.length := by
  induction values generalizing offset with
  | nil => rfl
  | cons v rest ih =>
      cases payload : v.payload? with
      | none =>
          simp only [encodeFrom, payload, List.length_append, v.word.length_eq, ih,
            List.length_cons]
          omega
      | some data =>
          simp only [encodeFrom, payload, List.length_append, (Word.ofNat offset).length_eq, ih,
            List.length_cons]
          omega

/-! ## One value -/

theorem Ty.Has.decodeValue_word {t : Ty} {v : Value} (h : t.Has v) (static : v.payload? = none)
    {data : List UInt8} {head : Nat} (word : HoldsAt data head v.word.bytes) :
    decodeValue t data head = .ok v := by
  have fixed : t.isDynamic = false := by
    cases h with
    | bytes payload => cases static
    | string text => cases static
    | _ => rfl
  rw [word.decodeValue_eq fixed, h.ofWord_word static]

theorem Ty.Has.decodeValue_tail {t : Ty} {v : Value} (h : t.Has v) {payload : List UInt8}
    (dynamic : v.payload? = some payload) {data : List UInt8} {head offset : Nat}
    (word : HoldsAt data head (Word.ofNat offset).bytes)
    (tail : HoldsAt data offset (tailOf payload))
    (small : offset + (tailOf payload).length ≤ Text.maxWord64) :
    decodeValue t data head = .ok v := by
  have inTail := length_le_tailOf payload
  have place := word.readOffset_eq (by omega)
  have bytes := tail.readPayload_eq (by omega)
  cases h with
  | bytes data =>
      cases dynamic
      simp only [decodeValue, place, bind, Except.bind, bytes]
      rfl
  | string text =>
      cases dynamic
      simp only [decodeValue, place, bind, Except.bind, bytes, Text.Utf8.decode_encode]
      rfl
  | _ => cases dynamic

/-! ## Lists -/

/-- A decoder that has come to the head words and the tails of some values reads those values. -/
theorem decodeFrom_encodeFrom {types : List Ty} {values : List Value}
    (members : List.Forall₂ Ty.Has types values) :
    ∀ {data : List UInt8} {head offset : Nat},
      HoldsAt data head (encodeFrom offset values).1 →
      HoldsAt data offset (encodeFrom offset values).2 →
      offset + (encodeFrom offset values).2.length ≤ Text.maxWord64 →
      decodeFrom data head types = .ok values := by
  -- The tails grow while the heads are read, so both places vary in the induction.
  induction members with
  | nil =>
      intro data head offset _ _ _
      rfl
  | @cons t v types values member _ ih =>
      intro data head offset heads tails small
      cases payload : v.payload? with
      | none =>
          simp only [encodeFrom, payload] at heads tails small
          have value := member.decodeValue_word payload heads.left
          have rest := ih heads.afterWord tails small
          simp only [decodeFrom, value, rest, bind, Except.bind]
          rfl
      | some bytes =>
          simp only [encodeFrom, payload] at heads tails small
          rw [List.length_append] at small
          have value := member.decodeValue_tail payload heads.left tails.left (by omega)
          have rest := ih heads.afterWord tails.right (by omega)
          simp only [decodeFrom, value, rest, bind, Except.bind]
          rfl

/-- A list of members is read back from its own encoding, whatever follows it. -/
theorem decodeParams_encodeParams {types : List Ty} {values : List Value}
    (members : List.Forall₂ Ty.Has types values) (rest : List UInt8)
    (small : (encodeParams values).length ≤ Text.maxWord64) :
    decodeParams types (encodeParams values ++ rest) = .ok values := by
  have length := length_encodeFrom_head values (32 * values.length)
  simp only [encodeParams, List.length_append, length] at small ⊢
  have whole : HoldsAt ((encodeFrom (32 * values.length) values).1 ++
      (encodeFrom (32 * values.length) values).2 ++ rest) 0
      ((encodeFrom (32 * values.length) values).1 ++ (encodeFrom (32 * values.length) values).2) :=
    ⟨[], rest, rfl, rfl⟩
  have tails := whole.right
  rw [length, Nat.zero_add] at tails
  exact decodeFrom_encodeFrom members whole.left tails small

/-! ## Coerced values -/

/-- Whatever coercion gives for the types of a list is read back from its encoding: static and dynamic
values in any order, with any bytes after them. -/
theorem decodeParams_encodeParams_coerced (types : List Ty) (values : List Value)
    (rest : List UInt8)
    (coerced : List.Forall₂ (fun t v => ∃ u, Ty.coerce t u = .ok v) types values)
    (small : (encodeParams values).length < 2 ^ 64) :
    decodeParams types (encodeParams values ++ rest) = .ok values := by
  have members : List.Forall₂ Ty.Has types values := by
    refine coerced.imp ?_
    rintro t v ⟨u, h⟩
    exact Ty.has_of_coerce h
  have capped : (encodeParams values).length ≤ Text.maxWord64 := Nat.le_of_lt_succ small
  exact decodeParams_encodeParams members rest capped

/-- A text of several bytes a character, a wrapped number, bytes, a filled byte string and a negative
number, with three bytes after them. -/
theorem decodeParams_encodeParams_mixed :
    (encodeParams [.string "Zürich", .uint 7, .bytes [1, 2, 3], .fixed [0xDE, 0xAD, 0, 0],
      .int (-1)]).length < 2 ^ 64 ∧
    decodeParams
      [.string, .uint ⟨1, by decide, by decide⟩, .bytes, .fixed ⟨4, by decide, by decide⟩,
        .int .word]
      (encodeParams [.string "Zürich", .uint 7, .bytes [1, 2, 3], .fixed [0xDE, 0xAD, 0, 0],
        .int (-1)] ++ [9, 9, 9]) =
      .ok [.string "Zürich", .uint 7, .bytes [1, 2, 3], .fixed [0xDE, 0xAD, 0, 0],
        .int (-1)] := by
  have small : (encodeParams [.string "Zürich", .uint 7, .bytes [1, 2, 3],
      .fixed [0xDE, 0xAD, 0, 0], .int (-1)]).length < 2 ^ 64 := by
    decide +kernel
  refine ⟨small, decodeParams_encodeParams_coerced _ _ [9, 9, 9] ?_ small⟩
  refine .cons ⟨.string "Zürich", rfl⟩ (.cons ⟨.uint (wordModulus + 7), by decide⟩
    (.cons ⟨.bytes [1, 2, 3], rfl⟩ (.cons ⟨.fixed [0xDE, 0xAD], by decide⟩
      (.cons ⟨.int (-1), by decide⟩ .nil))))

end Abi
end TokenSchema
