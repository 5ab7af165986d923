import TokenSchema.Text.Blank
import TokenSchema.Text.Numeral

/-!
# Fixed-point amounts

Whole numbers shown with a number of decimals, and decimal texts scaled back to whole numbers. An
amount that has more decimals than asked for has no scaled form.
-/

namespace TokenSchema
namespace Amount

/-- A number with so many of its digits after the point; zeros at the end of those are dropped. A
number below one keeps at least one of them. -/
def render (n decimals : Nat) : String :=
  let ds := Nat.toDigits 10 n
  if decimals = 0 then String.ofList ds
  else if ds.length ≤ decimals then
    let fraction := Text.dropEndWhile (· == '0') (List.replicate (decimals - ds.length) '0' ++ ds)
    String.ofList ('0' :: '.' :: if fraction.isEmpty then ['0'] else fraction)
  else
    let whole := ds.take (ds.length - decimals)
    let fraction := Text.dropEndWhile (· == '0') (ds.drop (ds.length - decimals))
    String.ofList (if fraction.isEmpty then whole else whole ++ '.' :: fraction)

/-- The number in a text: everything from a leading `0x` on, otherwise the first run of digits with
any points in it. -/
def isolate (s : String) : List Char :=
  match Text.trimChars s.toList with
  | '0' :: 'x' :: rest => '0' :: 'x' :: rest
  | cs => (cs.dropWhile fun c => !Text.isDigit c).takeWhile fun c => Text.isDigit c || c == '.'

/-- The parts of a decimal text before and after its first point. -/
def splitPoint (cs : List Char) : List Char × List Char :=
  (cs.takeWhile (· != '.'), (cs.dropWhile (· != '.')).drop 1)

/-- The amount in a text times `10 ^ decimals`, if that is a whole number. -/
def scale (s : String) (decimals : Nat) : Option Nat :=
  let (whole, fraction) := splitPoint (isolate s)
  if whole.isEmpty && fraction.isEmpty then none
  else
    let fraction := Text.dropEndWhile (· == '0') fraction
    if fraction.length > decimals then none
    else
      let digits := whole ++ fraction ++ List.replicate (decimals - fraction.length) '0'
      if digits.isEmpty then some 0 else Text.naturalChars? 10 digits

end Amount
end TokenSchema
