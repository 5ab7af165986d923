import Mathlib.Algebra.Group.Int.Defs
import TokenSchema.Proofs.Abi.Layout
import TokenSchema.Proofs.Bytes.Minimal

/-!
# Coercion — which values fit a type, and what they become

A value fits a type if it is of its kind and in its range, where unsigned numbers count modulo `2 ^ 256`, are admitted
for a signed type, and byte strings may be short (`Ty.Fits`). What it becomes belongs to the type (`Ty.Contains`): its
number is in the range as it stands, its bytes are all there. Neither the words nor the bytes of an encoding show
whether a value was coerced before (`Ty.word_of_coerce`, `Ty.payload?_of_coerce`), so it may be encoded as it was given
(`Ty.coerce_fits`).
-/

namespace TokenSchema

open TokenSchema.Bytes

/-! ## Words before coercion -/

theorem Bytes.Word.ofNat_mod (n : Nat) : ofNat (n % wordModulus) = ofNat n := by
  have read := (ofNat n).ofNat_toNat
  rwa [toNat_ofNat] at read

theorem Bytes.Word.ofInt_natCast (n : Nat) : ofInt n = ofNat n := by
  have number : ((n : Int) % (wordModulus : Int)).toNat = n % wordModulus := by
    rw [← Int.natCast_emod, Int.toNat_natCast]
  rw [ofInt, number]
  exact ofNat_mod n

theorem Bytes.Word.ofFixed_padRight {data : List UInt8} {size : Nat} (short : data.length ≤ size)
    (word : size ≤ 32) : ofFixed (Abi.padRight size data) = ofFixed data := by
  have zeros : size - data.length + (32 - size) = 32 - data.length := by omega
  have length := Abi.length_padRight short
  apply Block.ext_bytes
  simp only [ofFixed, List.take_of_length_le (Nat.le_trans short word),
    List.take_of_length_le (length ▸ word), length]
  rw [Abi.padRight, List.append_assoc, List.replicate_append_replicate, zeros]

namespace Abi

variable {t : Ty} {u v : Value}

/-- What coercion does: nothing, or it takes a number modulo that of the words, perhaps as a signed one,
or it fills bytes up. -/
theorem Ty.coerce_cases (coerced : t.coerce u = .ok v) :
    v = u ∨
      (∃ n, u = .uint n ∧ (v = .uint (n % wordModulus) ∨ v = .int (n % wordModulus : Nat))) ∨
      ∃ data size, u = .fixed data ∧ v = .fixed (padRight size data) ∧ data.length ≤ size ∧
        size ≤ 32 := by
  cases t with
  | address | bool | bytes | string =>
      cases u <;> cases coerced
      exact .inl rfl
  | uint w =>
      cases u with
      | uint n =>
          simp only [coerce] at coerced
          split at coerced
          · cases coerced
            exact .inr (.inl ⟨n, rfl, .inl rfl⟩)
          · cases coerced
      | _ => cases coerced
  | int w =>
      cases u with
      | uint n =>
          simp only [coerce] at coerced
          split at coerced
          · cases coerced
            exact .inr (.inl ⟨n, rfl, .inr rfl⟩)
          · cases coerced
      | int z =>
          simp only [coerce] at coerced
          split at coerced
          · cases coerced
            exact .inl rfl
          · cases coerced
      | _ => cases coerced
  | fixed w =>
      cases u with
      | fixed data =>
          simp only [coerce] at coerced
          split at coerced
          · rename_i short
            cases coerced
            exact .inr (.inr ⟨data, w.octets, rfl, rfl, short, w.le⟩)
          · cases coerced
      | _ => cases coerced

theorem Ty.word_of_coerce (coerced : t.coerce u = .ok v) : v.word = u.word := by
  rcases coerce_cases coerced with rfl | ⟨n, rfl, rfl | rfl⟩ | ⟨data, size, rfl, rfl, short, word⟩
  · rfl
  · exact Word.ofNat_mod n
  · exact (Word.ofInt_natCast _).trans (Word.ofNat_mod n)
  · exact Word.ofFixed_padRight short word

theorem Ty.payload?_of_coerce (coerced : t.coerce u = .ok v) : v.payload? = u.payload? := by
  rcases coerce_cases coerced with rfl | ⟨n, rfl, rfl | rfl⟩ | ⟨data, size, rfl, rfl, -, -⟩ <;> rfl

theorem Ty.Has.isDynamic_eq (has : t.Has v) : v.isDynamic = t.isDynamic := by
  cases has <;> rfl

/-- Values with the same words and bytes are encoded alike. -/
theorem encodeParams_congr {us vs : List Value}
    (alike : List.Forall₂ (fun u v => v.word = u.word ∧ v.payload? = u.payload?) us vs) :
    encodeParams us = encodeParams vs := by
  have parts : ∀ offset, encodeFrom offset us = encodeFrom offset vs := by
    induction alike with
    | nil => exact fun _ => rfl
    | @cons u v us vs same _ ih =>
        intro offset
        simp only [encodeFrom, same.1, same.2]
        cases u.payload? with
        | none => simp only [ih]
        | some data => simp only [ih]
  simp only [encodeParams, parts, alike.length_eq]

/-- A value and what coercion makes of it are encoded alike. -/
theorem Ty.encodeParams_of_coerce (coerced : t.coerce u = .ok v) : encodeParams [u] = encodeParams [v] :=
  encodeParams_congr (.cons ⟨word_of_coerce coerced, payload?_of_coerce coerced⟩ .nil)

/-! ## Ranges as powers of two -/

theorem Width.modulus_octets (w : Width) : modulus w.octets = 2 ^ w.bits :=
  modulus_eq_two_pow w.octets

theorem wordModulus_eq_two_pow : wordModulus = 2 ^ 256 :=
  modulus_eq_two_pow 32

/-- Half of the numbers of a width have their first bit set. -/
theorem Width.two_pow_bits (w : Width) : 2 ^ w.bits = 2 * 2 ^ (w.bits - 1) := by
  have pos : 0 < w.bits := Nat.mul_pos (by decide) w.pos
  rw [← Nat.pow_succ', Nat.succ_eq_add_one, Nat.sub_add_cancel pos]

theorem Width.signedRange_iff_two_pow (w : Width) (z : Int) :
    w.signedRange z = true ↔ -(2 ^ (w.bits - 1)) ≤ z ∧ z < 2 ^ (w.bits - 1) := by
  have whole : (modulus w.octets : Int) = 2 * 2 ^ (w.bits - 1) := by
    rw [w.modulus_octets, w.two_pow_bits]
    push_cast
    rfl
  rw [w.signedRange_iff, whole]
  omega

/-- An unsigned number can only be too large. -/
theorem Width.signedRange_natCast_iff (w : Width) (n : Nat) :
    w.signedRange n = true ↔ n < 2 ^ (w.bits - 1) := by
  have half : ((2 ^ (w.bits - 1) : Nat) : Int) = 2 ^ (w.bits - 1) := by
    push_cast
    rfl
  rw [w.signedRange_iff_two_pow]
  omega

/-- The width of one octet. -/
def Width.octet : Width :=
  ⟨1, Nat.one_pos, word.pos⟩

/-! ## Types and their values -/

/-- What is given after a check is given exactly if the check is passed. -/
theorem exists_checked_iff {α ε : Type} {passes : Prop} [Decidable passes] {a : α} {e : ε} :
    (∃ w, (if passes then Except.ok a else Except.error e) = .ok w) ↔ passes := by
  by_cases passed : passes
  · rw [if_pos passed]
    exact iff_of_true ⟨a, rfl⟩ passed
  · rw [if_neg passed]
    refine iff_of_false ?_ passed
    rintro ⟨w, same⟩
    cases same

namespace Ty

/-- The value is of the type's kind, its number is in the type's range, and its bytes are as many as the type has. -/
def Contains : Ty → Value → Prop
  | .address, .address _ => True
  | .uint w, .uint n => n < 2 ^ w.bits
  | .int w, .int z => -(2 ^ (w.bits - 1)) ≤ z ∧ z < 2 ^ (w.bits - 1)
  | .bool, .bool _ => True
  | .bytes, .bytes _ => True
  | .fixed w, .fixed data => data.length = w.octets
  | .string, .string _ => True
  | _, _ => False

/-- The value is in the type, or would be there if its number were taken modulo `2 ^ 256`, read as a signed one, or its
bytes filled up. -/
def Fits : Ty → Value → Prop
  | .uint w, .uint n => n % 2 ^ 256 < 2 ^ w.bits
  | .int w, .uint n => n % 2 ^ 256 < 2 ^ (w.bits - 1)
  | .fixed w, .fixed data => data.length ≤ w.octets
  | t, v => t.Contains v

theorem has_iff_contains (t : Ty) (v : Value) : t.Has v ↔ t.Contains v := by
  constructor
  · intro has
    cases has with
    | @uint w n small => exact Nat.lt_of_lt_of_eq small w.modulus_octets
    | @int w z inRange => exact (w.signedRange_iff_two_pow z).1 inRange
    | fixed full => exact full
    | _ => trivial
  · intro contains
    cases t with
    | uint w =>
        cases v with
        | uint n => exact .uint (Nat.lt_of_lt_of_eq contains w.modulus_octets.symm)
        | _ => exact contains.elim
    | int w =>
        cases v with
        | int z => exact .int ((w.signedRange_iff_two_pow z).2 contains)
        | _ => exact contains.elim
    | fixed w =>
        cases v with
        | fixed data => exact .fixed contains
        | _ => exact contains.elim
    | address | bool | bytes | string =>
        cases v <;> first | exact contains.elim | constructor

/-- Coercion accepts the values that fit, and no others. -/
theorem exists_coerce_iff_fits (t : Ty) (v : Value) : (∃ w, t.coerce v = .ok w) ↔ t.Fits v := by
  -- A value of another kind is refused whatever it is.
  have refused : ¬ ∃ w, t.refuse v = .ok w := by
    rintro ⟨w, same⟩
    cases same
  cases t with
  | uint w =>
      cases v with
      | uint n =>
          rw [Fits, ← w.modulus_octets, ← wordModulus_eq_two_pow]
          exact exists_checked_iff
      | _ => exact iff_of_false refused id
  | int w =>
      cases v with
      | int z =>
          refine Iff.trans ?_ (w.signedRange_iff_two_pow z)
          exact exists_checked_iff
      | uint n =>
          rw [Fits, ← wordModulus_eq_two_pow, ← w.signedRange_natCast_iff]
          exact exists_checked_iff
      | _ => exact iff_of_false refused id
  | fixed w =>
      cases v with
      | fixed data => exact exists_checked_iff
      | _ => exact iff_of_false refused id
  | address | bool | bytes | string =>
      cases v <;> first | exact iff_of_true ⟨_, rfl⟩ trivial | exact iff_of_false refused id

/-- Coercion accepts exactly the values that fit. What it gives belongs to the type, is left alone when it is coerced
again, and is encoded as the value that was given. -/
theorem coerce_fits (t : Ty) (v : Value) :
    ((∃ w, t.coerce v = .ok w) ↔ t.Fits v) ∧
      ∀ w, t.coerce v = .ok w →
        t.Contains w ∧ t.coerce w = .ok w ∧ encodeParams [v] = encodeParams [w] := by
  refine ⟨t.exists_coerce_iff_fits v, fun w coerced => ?_⟩
  have has : t.Has w := has_of_coerce coerced
  exact ⟨(t.has_iff_contains w).1 has, coerce_coerce coerced, encodeParams_of_coerce coerced⟩

/-- The largest signed number of an octet, given as an unsigned one that has gone once around. -/
theorem coerce_fits_wrapped :
    (Ty.int .octet).coerce (.uint (2 ^ 256 + 127)) = .ok (.int 127) ∧
      (Ty.int .octet).Fits (.uint (2 ^ 256 + 127)) ∧
      encodeParams [.uint (2 ^ 256 + 127)] = encodeParams [.int 127] := by
  have coerced : (Ty.int .octet).coerce (.uint (2 ^ 256 + 127)) = .ok (.int 127) := by decide +kernel
  obtain ⟨fits, made⟩ := coerce_fits (.int .octet) (.uint (2 ^ 256 + 127))
  exact ⟨coerced, fits.1 ⟨_, coerced⟩, (made _ coerced).2.2⟩

end Ty

end Abi

end TokenSchema
