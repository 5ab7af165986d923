import TokenSchema.Abi.Basic
import TokenSchema.Abi.Error

/-!
# Fitting values to types

A value fits a type when it is of the type's kind and in its range. Unsigned numbers count modulo
`2 ^ 256`, are admitted where a signed type is asked for, and short byte strings are filled with zeros
on the right.
-/

namespace TokenSchema
namespace Abi

open TokenSchema.Bytes

/-- The signed numbers of a width: from minus half of its modulus to just below that half. -/
def Width.signedRange (w : Width) (z : Int) : Bool :=
  let m : Int := modulus w.octets
  0 ≤ m + 2 * z && 2 * z < m

/-- A byte string filled with zeros on the right. -/
def padRight (size : Nat) (data : List UInt8) : List UInt8 :=
  data ++ List.replicate (size - data.length) 0

namespace Ty

/-- The error for a value that does not fit. -/
def refuse (t : Ty) (v : Value) : Except EncodeError Value :=
  .error (.invalidValue t.canonical v.display)

/-- The value as one of the type, if it fits. -/
def coerce (t : Ty) (v : Value) : Except EncodeError Value :=
  match t, v with
  | .address, .address _ => .ok v
  | .bool, .bool _ => .ok v
  | .string, .string _ => .ok v
  | .bytes, .bytes _ => .ok v
  | .uint w, .uint n =>
      let m := n % wordModulus
      if m < modulus w.octets then .ok (.uint m) else t.refuse (.uint m)
  | .int w, .int z => if w.signedRange z then .ok v else t.refuse v
  | .int w, .uint n =>
      let m : Int := (n % wordModulus : Nat)
      if w.signedRange m then .ok (.int m)
      else .error (.invalidValue t.canonical "out of range")
  | .fixed w, .fixed data =>
      if data.length ≤ w.octets then .ok (.fixed (padRight w.octets data)) else t.refuse v
  | _, _ => t.refuse v

end Ty

end Abi
end TokenSchema
