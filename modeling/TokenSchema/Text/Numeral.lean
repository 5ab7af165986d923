/-!
# Number texts

Two grammars. A *bounded* number is an optional sign and ASCII digits, refused outside its range
(`unsigned?`, `signed?`). An *unbounded* one may also have low lines between and after its digits
(`natural?`, `integer?`), in any radix up to thirty-six.
-/

namespace TokenSchema
namespace Text

/-- An ASCII decimal digit. -/
def isDigit (c : Char) : Bool :=
  '0' ≤ c && c ≤ '9'

/-- The number a decimal digit stands for. -/
def decimalValue (c : Char) : Nat :=
  c.toNat - 0x30

/-- The number a digit or letter stands for; letters continue after nine, in either case. -/
def digitValue? (c : Char) : Option Nat :=
  let n := c.toNat
  if 0x30 ≤ n && n ≤ 0x39 then some (n - 0x30)
  else if 0x61 ≤ n && n ≤ 0x7A then some (n - 0x57)
  else if 0x41 ≤ n && n ≤ 0x5A then some (n - 0x37)
  else none

/-- The number that digit values stand for, most significant first. -/
def ofDigits (radix : Nat) (ds : List Nat) : Nat :=
  ds.foldl (fun acc d => acc * radix + d) 0

/-- The number that decimal digits stand for, most significant first. -/
def ofDecimalDigits (cs : List Char) : Nat :=
  ofDigits 10 (cs.map decimalValue)

/-! ## Bounded numbers -/

/-- At least one digit and nothing else. -/
def digitsOnly? (cs : List Char) : Option Nat :=
  if cs.isEmpty || !cs.all isDigit then none else some (ofDecimalDigits cs)

/-- An optional `+` and digits, at most `max`. -/
def unsigned? (max : Nat) (s : String) : Option Nat :=
  let digits := match s.toList with
    | '+' :: rest => digitsOnly? rest
    | cs => digitsOnly? cs
  digits.filter (· ≤ max)

/-- An optional sign and digits, between `lo` and `hi`. -/
def signed? (lo hi : Int) (s : String) : Option Int :=
  let number : Option Int := match s.toList with
    | '+' :: rest => (digitsOnly? rest).map Int.ofNat
    | '-' :: rest => (digitsOnly? rest).map fun n => -(n : Int)
    | cs => (digitsOnly? cs).map Int.ofNat
  number.filter fun z => lo ≤ z && z ≤ hi

/-- The largest number of eight octets. -/
def maxWord64 : Nat :=
  0xFFFFFFFFFFFFFFFF

/-- The largest signed number of eight octets. -/
def maxInt64 : Nat :=
  0x7FFFFFFFFFFFFFFF

/-- A number of at most 64 bits. -/
def word64? (s : String) : Option Nat :=
  unsigned? maxWord64 s

/-- A signed number of 64 bits. -/
def int64? (s : String) : Option Int :=
  signed? (-(maxInt64 : Int) - 1) maxInt64 s

/-! ## Unbounded numbers -/

/-- Digits below the radix; a low line counts for nothing. -/
def looseDigits? (radix : Nat) : List Char → Option (List Nat)
  | [] => some []
  | '_' :: rest => looseDigits? radix rest
  | c :: rest => do
      let d ← digitValue? c
      if d < radix then
        let ds ← looseDigits? radix rest
        return d :: ds
      else none

/-- An optional `+`, then digits of the radix, the first of them no low line. -/
def naturalChars? (radix : Nat) (cs : List Char) : Option Nat :=
  let body := match cs with
    | '+' :: '+' :: rest => '+' :: '+' :: rest
    | '+' :: rest => rest
    | cs => cs
  match body with
  | [] => none
  | '_' :: _ => none
  | cs => (looseDigits? radix cs).map (ofDigits radix)

/-- An unbounded natural number in the given radix. -/
def natural? (radix : Nat) (s : String) : Option Nat :=
  naturalChars? radix s.toList

/-- An unbounded decimal integer: a `-` may stand before a natural number that has no `+`. -/
def integer? (s : String) : Option Int :=
  match s.toList with
  | '-' :: '+' :: _ => none
  | '-' :: rest => (naturalChars? 10 rest).map fun n => -(n : Int)
  | cs => (naturalChars? 10 cs).map Int.ofNat

/-! ## Writing -/

/-- The decimal digits of a natural number. -/
def decimal (n : Nat) : String :=
  String.ofList (Nat.toDigits 10 n)

/-- The decimal form of an integer, with a `-` before a negative one. -/
def signedDecimal (z : Int) : String :=
  if z < 0 then "-" ++ decimal z.natAbs else decimal z.natAbs

/-- The lower-case hexadecimal digits of a natural number. -/
def hexadecimal (n : Nat) : String :=
  String.ofList (Nat.toDigits 16 n)

/-- The decimal digits of a natural number, filled with zeros on the left to a least width. -/
def decimalPadded (width n : Nat) : String :=
  let ds := Nat.toDigits 10 n
  String.ofList (List.replicate (width - ds.length) '0' ++ ds)

end Text
end TokenSchema
