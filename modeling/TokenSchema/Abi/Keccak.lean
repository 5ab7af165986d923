import TokenSchema.Bytes.Block

/-!
# Keccak-256

The sponge hash of function signatures and event topics: a state of twenty-five lanes of 64 bits, a
rate of 136 bytes, and one set bit of padding at either end.
-/

namespace TokenSchema
namespace Abi
namespace Keccak

open TokenSchema.Bytes

/-! ## The permutation -/

/-- Five rows of five lanes; lane `(x, y)` has the index `x + 5 * y`. -/
abbrev State := Vector UInt64 25

/-- The constant that each round adds to the first lane. -/
def roundConstants : List UInt64 :=
  [0x0000000000000001, 0x0000000000008082, 0x800000000000808A, 0x8000000080008000,
   0x000000000000808B, 0x0000000080000001, 0x8000000080008081, 0x8000000000008009,
   0x000000000000008A, 0x0000000000000088, 0x0000000080008009, 0x000000008000000A,
   0x000000008000808B, 0x800000000000008B, 0x8000000000008089, 0x8000000000008003,
   0x8000000000008002, 0x8000000000000080, 0x000000000000800A, 0x800000008000000A,
   0x8000000080008081, 0x8000000000008080, 0x0000000080000001, 0x8000000080008008]

/-- How far each lane is rotated. -/
def rotations : Vector UInt64 25 :=
  #v[0, 1, 62, 28, 27, 36, 44, 6, 55, 20, 3, 10, 43, 25, 39, 41, 45, 15, 21, 8, 18, 2, 61, 56, 14]

/-- A lane rotated to the left. -/
def rotateLeft (w amount : UInt64) : UInt64 :=
  if amount == 0 then w else (w <<< amount) ||| (w >>> (64 - amount))

/-- The entry at an index taken modulo the size. -/
def wrap {n : Nat} (v : Vector UInt64 (n + 1)) (i : Nat) : UInt64 :=
  v.get ⟨i % (n + 1), Nat.mod_lt i n.succ_pos⟩

/-- The lane at an index taken modulo twenty-five. -/
def lane (s : State) (i : Nat) : UInt64 :=
  wrap s i

/-- The lane in column `x` and row `y`, both taken modulo five. -/
def laneXY (s : State) (x y : Nat) : UInt64 :=
  lane s (x % 5 + 5 * (y % 5))

/-- The parity of a column. -/
def parity (s : State) (x : Nat) : UInt64 :=
  laneXY s x 0 ^^^ laneXY s x 1 ^^^ laneXY s x 2 ^^^ laneXY s x 3 ^^^ laneXY s x 4

/-- Add to each lane the parities of the columns beside it. -/
def theta (s : State) : State :=
  let c : Vector UInt64 5 := Vector.ofFn fun x => parity s x
  let d : Vector UInt64 5 := Vector.ofFn fun x =>
    wrap c (x.val + 4) ^^^ rotateLeft (wrap c (x.val + 1)) 1
  Vector.ofFn fun i => lane s i ^^^ wrap d i

/-- Rotate each lane and move it: the lane at `(x, y)` comes from `(x + 3y, x)`. -/
def rhoPi (s : State) : State :=
  Vector.ofFn fun i =>
    let x := i.val % 5
    let y := i.val / 5
    let source := (x + 3 * y) % 5 + 5 * x
    rotateLeft (lane s source) (lane rotations source)

/-- Combine each lane with the two after it in its row. -/
def chi (s : State) : State :=
  Vector.ofFn fun i =>
    let x := i.val % 5
    let y := i.val / 5
    laneXY s x y ^^^ ((laneXY s (x + 1) y ^^^ 0xFFFFFFFFFFFFFFFF) &&& laneXY s (x + 2) y)

/-- Add the round constant to the first lane. -/
def iota (k : UInt64) (s : State) : State :=
  s.set 0 (s[0] ^^^ k)

/-- All rounds of the permutation. -/
def permute (s : State) : State :=
  roundConstants.foldl (fun s k => iota k (chi (rhoPi (theta s)))) s

/-! ## The sponge -/

/-- Bytes taken in at each permutation. -/
def rate : Nat := 136

/-- The padding for so many bytes: a first and a last set bit, in one byte where only one is left. -/
def padding (size : Nat) : List UInt8 :=
  let missing := rate - size % rate
  if missing = 1 then [0x81]
  else 0x01 :: List.replicate (missing - 2) 0 ++ [0x80]

/-- A lane from eight bytes, least significant first. -/
def laneOfBytes (bytes : List UInt8) : UInt64 :=
  bytes.foldr (fun b acc => acc <<< 8 ||| b.toUInt64) 0

/-- The eight bytes of a lane, least significant first. -/
def bytesOfLane (w : UInt64) : List UInt8 :=
  (List.range 8).map fun i => (w >>> (UInt64.ofNat (8 * i))).toUInt8

/-- A list cut into pieces of eight. -/
def octets : List UInt8 → List (List UInt8)
  | a :: b :: c :: d :: e :: f :: g :: h :: rest => [a, b, c, d, e, f, g, h] :: octets rest
  | _ => []

/-- The state with one block of lanes added. -/
def addBlock (s : State) (block : List UInt64) : State :=
  Vector.ofFn fun i => lane s i ^^^ (block[i.val]?).getD 0

/-- Take in lanes, seventeen at each permutation. -/
def absorb (s : State) (lanes : List UInt64) : State :=
  if h : lanes = [] then s
  else
    have : (lanes.drop 17).length < lanes.length := by
      have := List.length_pos_iff.2 h
      simp only [List.length_drop]; omega
    absorb (permute (addBlock s (lanes.take 17))) (lanes.drop 17)
termination_by lanes.length

/-- The hash of a byte list. -/
def hash (bytes : List UInt8) : Word :=
  let lanes := (octets (bytes ++ padding bytes.length)).map laneOfBytes
  let s := absorb (Vector.replicate 25 0) lanes
  ⟨bytesOfLane s[0] ++ bytesOfLane s[1] ++ bytesOfLane s[2] ++ bytesOfLane s[3], by
    simp [bytesOfLane]⟩

end Keccak
end Abi
end TokenSchema
