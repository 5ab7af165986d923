import TokenSchema.Abi.Coerce

/-!
# Membership — which values belong to a parameter type

`Ty.coerce` fits a value to a type. `Ty.Has` says the same as a relation, without the ways in which a
value may be brought into the type:

* what coercion gives belongs to the type (`Ty.has_of_coerce`);
* coercion leaves a value as it is exactly when the value belongs to the type (`Ty.coerce_eq_self_iff`),
  so coercing twice is coercing once (`Ty.coerce_coerce`).
-/

namespace TokenSchema
namespace Abi

open TokenSchema.Bytes

/-- The value is of the type's kind, in its range, and of its full width. -/
inductive Ty.Has : Ty → Value → Prop where
  | address (account : Address) : Has .address (.address account)
  | uint {w : Width} {n : Nat} : n < modulus w.octets → Has (.uint w) (.uint n)
  | int {w : Width} {z : Int} : w.signedRange z = true → Has (.int w) (.int z)
  | bool (b : Bool) : Has .bool (.bool b)
  | bytes (data : List UInt8) : Has .bytes (.bytes data)
  | fixed {w : Width} {data : List UInt8} : data.length = w.octets → Has (.fixed w) (.fixed data)
  | string (text : String) : Has .string (.string text)

/-! ## Widths -/

theorem Width.modulus_le (w : Width) : modulus w.octets ≤ wordModulus :=
  Nat.pow_le_pow_right (by decide) w.le

theorem Width.signedRange_iff (w : Width) (z : Int) :
    w.signedRange z = true ↔
      0 ≤ (modulus w.octets : Int) + 2 * z ∧ 2 * z < (modulus w.octets : Int) := by
  simp [Width.signedRange]

theorem length_padRight {size : Nat} {data : List UInt8} (h : data.length ≤ size) :
    (padRight size data).length = size := by
  simp only [padRight, List.length_append, List.length_replicate]
  omega

theorem padRight_of_length {size : Nat} {data : List UInt8} (h : data.length = size) :
    padRight size data = data := by
  simp [padRight, h]

/-! ## Coercion -/

namespace Ty

theorem has_of_coerce {t : Ty} {v w : Value} (h : t.coerce v = .ok w) : t.Has w := by
  cases t with
  | address =>
      cases v with
      | address account =>
          cases h
          exact .address account
      | _ => cases h
  | uint width =>
      cases v with
      | uint n =>
          simp only [coerce] at h
          split at h
          · rename_i small
            cases h
            exact .uint small
          · cases h
      | _ => cases h
  | int width =>
      cases v with
      | uint n =>
          simp only [coerce] at h
          split at h
          · rename_i inRange
            cases h
            exact .int inRange
          · cases h
      | int z =>
          simp only [coerce] at h
          split at h
          · rename_i inRange
            cases h
            exact .int inRange
          · cases h
      | _ => cases h
  | bool =>
      cases v with
      | bool b =>
          cases h
          exact .bool b
      | _ => cases h
  | bytes =>
      cases v with
      | bytes data =>
          cases h
          exact .bytes data
      | _ => cases h
  | fixed width =>
      cases v with
      | fixed data =>
          simp only [coerce] at h
          split at h
          · rename_i fits
            cases h
            exact .fixed (length_padRight fits)
          · cases h
      | _ => cases h
  | string =>
      cases v with
      | string text =>
          cases h
          exact .string text
      | _ => cases h

theorem Has.coerce_eq {t : Ty} {v : Value} (h : t.Has v) : t.coerce v = .ok v := by
  cases h with
  | address account => rfl
  | @uint w n small =>
      -- Coercion reduces modulo a whole word first, which does nothing here.
      have whole : n % wordModulus = n :=
        Nat.mod_eq_of_lt (Nat.lt_of_lt_of_le small w.modulus_le)
      simp only [coerce, whole, if_pos small]
  | int inRange => simp only [coerce, if_pos inRange]
  | bool b => rfl
  | bytes data => rfl
  | fixed full => simp only [coerce, if_pos (Nat.le_of_eq full), padRight_of_length full]
  | string text => rfl

theorem coerce_eq_self_iff {t : Ty} {v : Value} : t.coerce v = .ok v ↔ t.Has v :=
  ⟨has_of_coerce, Has.coerce_eq⟩

theorem coerce_coerce {t : Ty} {v w : Value} (h : t.coerce v = .ok w) : t.coerce w = .ok w :=
  coerce_eq_self_iff.2 (has_of_coerce h)

end Ty

end Abi
end TokenSchema
