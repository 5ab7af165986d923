import TokenSchema.Text.Utf8

/-!
# UTF-8 — texts and their bytes

The bytes of a text are those of its parts, one after the other (`encode_append`), they tell the text
(`encode_inj`), and characters of seven bits are their own bytes (`encode_of_ascii`), which no other character has as
its first one (`utf8EncodeChar_cases`). Reading gives the text whose bytes they are (`decode_eq_ok_iff`).
-/

namespace TokenSchema
namespace Text
namespace Utf8

theorem encode_append (s t : String) : encode (s ++ t) = encode s ++ encode t := by
  simp only [encode, String.toUTF8, String.toByteArray_append, ByteArray.toList_data_append]

theorem encode_inj {s t : String} : encode s = encode t ↔ s = t := by
  refine ⟨fun same => ?_, congrArg encode⟩
  have decoded := congrArg decode same
  rw [decode_encode, decode_encode] at decoded
  exact Except.ok.inj decoded

theorem decode_eq_ok_iff {bytes : List UInt8} {s : String} : decode bytes = .ok s ↔ encode s = bytes := by
  constructor
  · intro read
    simp only [decode, String.fromUTF8?] at read
    split at read
    · rename_i t found
      split at found
      · cases found
        cases read
        simp [encode, String.fromUTF8]
      · cases found
    · cases read
  · rintro rfl
    exact decode_encode s

/-- Bytes of no text are told by their first fault. -/
theorem decode_eq_error {bytes : List UInt8} (foreign : ¬ ∃ s, encode s = bytes) :
    decode bytes = .error ((faultFrom 0 0 bytes).getD ⟨bytes.length, none⟩) := by
  cases read : String.fromUTF8? bytes.toByteArray with
  | none => simp only [decode, read]
  | some s =>
      have decoded : decode bytes = .ok s := by
        simp only [decode, read]
      exact absurd ⟨s, decode_eq_ok_iff.1 decoded⟩ foreign

theorem length_encode_eq (s : String) : (encode s).length = size s :=
  rfl

theorem encode_ofList (cs : List Char) : encode (String.ofList cs) = cs.flatMap String.utf8EncodeChar := by
  simp [encode, String.toUTF8, String.toByteArray_ofList, List.utf8Encode]

/-- A character of seven bits is its own byte, and every other one begins with a byte that is no such character. -/
theorem utf8EncodeChar_cases (c : Char) :
    c.toNat < 128 ∧ String.utf8EncodeChar c = [UInt8.ofNat c.toNat] ∨
      128 ≤ c.toNat ∧ ∃ lead rest, String.utf8EncodeChar c = lead :: rest ∧ 128 ≤ lead.toNat := by
  have lead (n m : Nat) (few : 0 < m) (most : m ≤ 32) (high : 192 ≤ n ∧ n ≤ 240) (fits : n + m ≤ 256) (k : Nat) :
      128 ≤ (UInt8.ofNat (k % m + n)).toNat := by
    have remainder := Nat.mod_lt k few
    rw [UInt8.toNat_ofNat', Nat.mod_eq_of_lt (by omega)]
    omega
  unfold String.utf8EncodeChar
  dsimp only
  split
  · rename_i small
    exact .inl ⟨Nat.lt_succ_of_le small, rfl⟩
  rename_i large
  refine .inr ⟨Nat.lt_of_not_le large, ?_⟩
  split
  · exact ⟨_, _, rfl, lead 192 32 (by decide) (by decide) (by decide) (by decide) _⟩
  split
  · exact ⟨_, _, rfl, lead 224 16 (by decide) (by decide) (by decide) (by decide) _⟩
  · exact ⟨_, _, rfl, lead 240 8 (by decide) (by decide) (by decide) (by decide) _⟩

/-- Characters of seven bits have one byte each, their number. -/
theorem encode_of_ascii {s : String} (ascii : ∀ c ∈ s.toList, c.toNat < 128) :
    encode s = s.toList.map fun c => UInt8.ofNat c.toNat := by
  have own := encode_ofList s.toList
  rw [String.ofList_toList] at own
  rw [own]
  generalize s.toList = cs at ascii
  induction cs with
  | nil => rfl
  | cons c rest ih =>
      have single : c.utf8Size = 1 := by
        rw [Char.utf8Size_eq_one_iff, UInt32.le_iff_toNat_le]
        exact Nat.le_of_lt_succ (ascii c List.mem_cons_self)
      have others := ih fun d member => ascii d (List.mem_cons_of_mem c member)
      rw [List.flatMap_cons, String.utf8EncodeChar_eq_singleton single, others, List.map_cons]
      rfl

theorem length_encode {s : String} (ascii : ∀ c ∈ s.toList, c.toNat < 128) :
    (encode s).length = s.toList.length := by
  rw [encode_of_ascii ascii, List.length_map]

end Utf8
end Text
end TokenSchema
