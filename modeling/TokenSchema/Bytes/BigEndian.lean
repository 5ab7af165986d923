/-!
# Big-endian numbers

Numbers as bytes, most significant first: of a fixed size, and of the least size that holds the
number, with or without a sign bit. Writing a number in `n` bytes and reading it back gives it modulo
the number of values that `n` bytes have (`toNat_ofNat`).
-/

namespace TokenSchema
namespace Bytes

/-- The number that bytes stand for. -/
def toNat (bytes : List UInt8) : Nat :=
  bytes.foldl (fun acc b => acc * 256 + b.toNat) 0

/-- The number of values that `size` bytes have. -/
def modulus (size : Nat) : Nat :=
  Nat.pow 256 size

/-- The last `size` bytes of a number. -/
def ofNat : (size : Nat) → Nat → List UInt8
  | 0, _ => []
  | size + 1, n => ofNat size (n / 256) ++ [UInt8.ofNat (n % 256)]

/-- The number of binary digits; none for zero. -/
def bitLength (n : Nat) : Nat :=
  if n = 0 then 0 else n.log2 + 1

/-- A number in as few bytes as hold it, at least one. -/
def minimal (n : Nat) : List UInt8 :=
  ofNat (n.log2 / 8 + 1) n

/-- The number of bytes that hold an integer together with its sign bit. -/
def signedSize (z : Int) : Nat :=
  bitLength (if z < 0 then (-z - 1).toNat else z.toNat) / 8 + 1

/-- An integer as two's complement in as few bytes as hold it and its sign bit. -/
def minimalSigned (z : Int) : List UInt8 :=
  let size := signedSize z
  ofNat size (z % (modulus size : Int)).toNat

/-- The integer that bytes stand for in two's complement. -/
def toInt (bytes : List UInt8) : Int :=
  let n := toNat bytes
  let m := modulus bytes.length
  if 2 * n < m then n else (n : Int) - (m : Int)

/-! ## Laws -/

@[simp] theorem length_ofNat (size n : Nat) : (ofNat size n).length = size := by
  induction size generalizing n with
  | zero => rfl
  | succ size ih => simp [ofNat, ih]

theorem toNat_append_singleton (bytes : List UInt8) (b : UInt8) :
    toNat (bytes ++ [b]) = toNat bytes * 256 + b.toNat := by
  simp [toNat]

@[simp] theorem modulus_zero : modulus 0 = 1 :=
  rfl

theorem modulus_succ (size : Nat) : modulus (size + 1) = 256 * modulus size :=
  Nat.mul_comm _ _

theorem toNat_ofNat (size n : Nat) : toNat (ofNat size n) = n % modulus size := by
  induction size generalizing n with
  | zero => rw [modulus_zero, Nat.mod_one]; rfl
  | succ size ih =>
      rw [ofNat, toNat_append_singleton, ih, modulus_succ, Nat.mod_mul]
      have : (UInt8.ofNat (n % 256)).toNat = n % 256 := by
        simp
      omega

end Bytes
end TokenSchema
