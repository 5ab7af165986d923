import TokenSchema.Json.Basic

/-!
# Fields of records

A record is an object with the record's fields, each at most once, among any others; or an array of the
fields' values in their order. The readers of this module give the value of one field, or nothing if the
field is not of that sort.
-/

namespace TokenSchema
namespace Json

/-! ## Fields -/

/-- The value of a field in an object: absent, or present once. -/
def fieldOnce? (name : String) (fields : List (String × Json)) : Option (Option Json) :=
  match fields.filter (·.1 == name) with
  | [] => some none
  | [(_, j)] => some (some j)
  | _ => none

/-- The values of a record's fields. An array may leave out fields at its end, down to a least
number. -/
def fieldsOf? (names : List String) (least : Nat) : Json → Option (List (Option Json))
  | .object fields => names.mapM (fieldOnce? · fields)
  | .array items =>
      if least ≤ items.length ∧ items.length ≤ names.length then
        some (items.map some ++ List.replicate (names.length - items.length) none)
      else none
  | _ => none

/-- A field that must be there. -/
def required {α : Type} (f : Json → Option α) (field : Option Json) : Option α :=
  field.bind f

/-- A field that is null where it is absent. -/
def optional {α : Type} (f : Json → Option α) : Option Json → Option (Option α)
  | none | some .null => some none
  | some j => (f j).map some

/-- A field with a value for when it is absent. -/
def withDefault {α : Type} (value : α) (f : Json → Option α) : Option Json → Option α
  | none => some value
  | some j => f j

/-! ## Values -/

/-- A text. -/
def text? : Json → Option String
  | .string s => some s
  | _ => none

/-- A flag. -/
def flag? : Json → Option Bool
  | .bool b => some b
  | _ => none

/-- An integer within bounds. -/
def integer? (lo hi : Int) : Json → Option Int
  | .integer z => if lo ≤ z ∧ z ≤ hi then some z else none
  | _ => none

/-- A natural number up to a bound. -/
def natural? (hi : Nat) : Json → Option Nat
  | .integer (.ofNat n) => if n ≤ hi then some n else none
  | _ => none

/-- A natural number of 64 bits. -/
def word64? : Json → Option Nat :=
  natural? 0xFFFFFFFFFFFFFFFF

/-- A signed number of 64 bits. -/
def int64? : Json → Option Int :=
  integer? (-0x8000000000000000) 0x7FFFFFFFFFFFFFFF

/-- A list. -/
def list? {α : Type} (f : Json → Option α) : Json → Option (List α)
  | .array items => items.mapM f
  | _ => none

/-- A name, given as a text or as the only field of an object, with null for its value. -/
def name? : Json → Option String
  | .string s => some s
  | .object [(s, .null)] => some s
  | _ => none

/-! ## Large numbers -/

/-- The digits of a number in base `0x100000000`, the least significant first and none of them a leading
zero. -/
def digits32 (n : Nat) : List Nat :=
  if n = 0 then [] else n % 0x100000000 :: digits32 (n / 0x100000000)
termination_by n
decreasing_by omega

/-- The number with given digits in base `0x100000000`, the least significant first. -/
def ofDigits32 (ds : List Nat) : Nat :=
  ds.foldr (fun d n => d + 0x100000000 * n) 0

theorem ofDigits32_digits32 (n : Nat) : ofDigits32 (digits32 n) = n := by
  induction n using digits32.induct with
  | case1 => simp [digits32, ofDigits32]
  | case2 n h ih =>
      rw [digits32, if_neg h]
      simp only [ofDigits32, List.foldr_cons] at ih ⊢
      rw [ih]
      omega

theorem digits32_lt (n : Nat) : ∀ d ∈ digits32 n, d < 0x100000000 := by
  induction n using digits32.induct with
  | case1 => simp [digits32]
  | case2 n h ih =>
      rw [digits32, if_neg h]
      intro d hd
      rcases List.mem_cons.1 hd with rfl | hd
      · exact Nat.mod_lt _ (by decide)
      · exact ih d hd

/-- A natural number of any size as a list of digits. -/
def ofNatural (n : Nat) : Json :=
  .array ((digits32 n).map fun (d : Nat) => .integer d)

/-- A natural number of any size from a list of digits; further zeros at the end do not count. -/
def large? (j : Json) : Option Nat :=
  (list? (natural? 0xFFFFFFFF) j).map ofDigits32

/-- An integer of any size as its sign and a list of digits. -/
def ofInteger (z : Int) : Json :=
  .array [.integer z.sign, ofNatural z.natAbs]

/-- An integer of any size from its sign and a list of digits; sign zero is zero for any digits. -/
def largeInteger? : Json → Option Int
  | .array [sign, magnitude] => do
      let s ← integer? (-1) 1 sign
      let n ← large? magnitude
      return s * n
  | _ => none

theorem natural?_ofNat {n hi : Nat} (h : n ≤ hi) : natural? hi (.integer n) = some n := by
  show (if n ≤ hi then some n else none) = some n
  rw [if_pos h]

theorem mapM_integer {hi : Nat} : ∀ ds : List Nat, (∀ d ∈ ds, d ≤ hi) →
    (ds.map fun (d : Nat) => Json.integer d).mapM (natural? hi) = some ds
  | [], _ => rfl
  | d :: ds, h => by
      have hd : natural? hi (.integer d) = some d := natural?_ofNat (h d (by simp))
      have ih := mapM_integer ds fun x hx => h x (by simp [hx])
      rw [List.map_cons, List.mapM_cons, hd, ih]
      rfl

@[simp] theorem large?_ofNatural (n : Nat) : large? (ofNatural n) = some n := by
  have digits := mapM_integer (digits32 n) fun d hd => Nat.le_sub_one_of_lt (digits32_lt n d hd)
  show Option.map ofDigits32
    (((digits32 n).map fun (d : Nat) => Json.integer d).mapM (natural? 0xFFFFFFFF)) = some n
  rw [digits, Option.map_some, ofDigits32_digits32]

@[simp] theorem largeInteger?_ofInteger (z : Int) : largeInteger? (ofInteger z) = some z := by
  have hs : -1 ≤ z.sign ∧ z.sign ≤ 1 := by
    rcases Int.lt_trichotomy z 0 with h | h | h
    · simp [Int.sign_eq_neg_one_of_neg h]
    · simp [h]
    · simp [Int.sign_eq_one_of_pos h]
  have sign : integer? (-1) 1 (.integer z.sign) = some z.sign := if_pos hs
  show ((integer? (-1) 1 (.integer z.sign)).bind fun s =>
    (large? (ofNatural z.natAbs)).bind fun n => some (s * n)) = some z
  rw [sign, large?_ofNatural, Option.bind_some, Option.bind_some, Int.sign_mul_natAbs]

end Json
end TokenSchema
