import TokenSchema.Proofs.Abi.Checks

/-!
# Bounds — reading with offsets of 64 bits

On a machine a sum of two offsets may be too large for an offset, bytes may be asked for that are not there, and a
copy may not have the size of its place. `Machine.decodeValue` is the decoder with these ways to stop. Behind the
checks none of them is taken: it gives what the decoder gives, or its error (`Machine.decodeValue_eq`), whatever the
data, so long as its length is one that a machine can have.
-/

namespace TokenSchema
namespace Abi

open TokenSchema.Bytes

/-- How a run on offsets of 64 bits ends without a value. -/
inductive Stop where
  /-- A sum is too large for an offset. -/
  | overflow
  /-- Bytes are asked for that are not in the data. -/
  | outside
  /-- Bytes are copied to a place of another size. -/
  | misfit
  | refused (cause : DecodeError)
  deriving DecidableEq, Repr

namespace Machine

/-! ## The decoder on a machine -/

/-- The sum of two offsets. -/
def sum (a b : UInt64) : Except Stop UInt64 :=
  if a.toNat + b.toNat < 2 ^ 64 then .ok (a + b) else .error .overflow

/-- The sum of two offsets, or the largest offset. -/
def cappedSum (a b : UInt64) : UInt64 :=
  if a.toNat + b.toNat < 2 ^ 64 then a + b else UInt64.ofNat (2 ^ 64 - 1)

/-- The bytes from one offset to another. -/
def between (data : List UInt8) (first last : UInt64) : Except Stop (List UInt8) :=
  if first.toNat ≤ last.toNat ∧ last.toNat ≤ data.length then
    .ok (slice data first.toNat (last.toNat - first.toNat))
  else .error .outside

/-- The byte at an offset. -/
def byteAt (data : List UInt8) (place : UInt64) : Except Stop UInt8 :=
  match data[place.toNat]? with
  | some b => .ok b
  | none => .error .outside

/-- Bytes as a block of their size. -/
def copied (size : Nat) (bytes : List UInt8) : Except Stop (Block size) :=
  match Block.ofList? size bytes with
  | some block => .ok block
  | none => .error .misfit

/-- Refuse data that ends before so many bytes from an offset. -/
def ensure (data : List UInt8) (place size : UInt64) : Except Stop Unit :=
  let needed := cappedSum place size
  if data.length < needed.toNat then .error (.refused (.tooShort needed.toNat data.length)) else .ok ()

/-- So many bytes from an offset, if the data reaches that far. -/
def bytesAt (data : List UInt8) (place size : UInt64) : Except Stop (List UInt8) := do
  ensure data place size
  between data place (← sum place size)

/-- The word at an offset as an offset or length: its last eight bytes, if the others are zero. -/
def offsetAt (data : List UInt8) (place : UInt64) : Except Stop UInt64 := do
  let word ← bytesAt data place 32
  let front ← between word 0 24
  if front.any (· != 0) then throw (.refused .offsetTooLarge)
  else
    let rest ← copied 8 (← between word 24 32)
    return UInt64.ofNat rest.toNat

/-- The bytes whose number stands in the word at an offset. -/
def payloadAt (data : List UInt8) (place : UInt64) : Except Stop (List UInt8) := do
  let size ← offsetAt data place
  bytesAt data (← sum place 32) size

/-- The text of some bytes as a value. -/
def readText (bytes : List UInt8) : Except Stop Value :=
  match Text.Utf8.decode bytes with
  | .ok text => return .string text
  | .error fault => throw (.refused (.notUtf8 fault))

/-- The value at an offset: its word, or for a value without fixed size the word with its length. -/
def valueAt (t : Ty) (data : List UInt8) (place : UInt64) : Except Stop Value := do
  let word ← bytesAt data place 32
  match t with
  | .address => return .address (← copied 20 (← between word 12 32))
  | .uint _ => return .uint (Bytes.toNat word)
  | .int _ => return .int (Bytes.toInt word)
  | .bool => return .bool ((← byteAt word 31) != 0)
  | .fixed w => return .fixed (← between word 0 (UInt64.ofNat w.octets))
  | .bytes => return .bytes (← payloadAt data place)
  | .string => readText (← payloadAt data place)

/-- The value whose head word stands at an offset. -/
def decodeValue (t : Ty) (data : List UInt8) (head : UInt64) : Except Stop Value := do
  if t.isDynamic then valueAt t data (← offsetAt data head) else valueAt t data head

/-! ## Following a read -/

/-- A run on a machine does what a read does: it gives what stands for the same, or has the same error. -/
inductive Follows {α β : Type} (same : α → β → Prop) : Except Stop α → Except DecodeError β → Prop where
  | ok {a : α} {b : β} : same a b → Follows same (.ok a) (.ok b)
  | refused (e : DecodeError) : Follows same (.error (.refused e)) (.error e)

namespace Follows

variable {α β γ δ : Type} {same : α → β → Prop} {run : Except Stop α} {read : Except DecodeError β}

theorem bind {same' : γ → δ → Prop} {f : α → Except Stop γ} {g : β → Except DecodeError δ}
    (first : Follows same run read) (second : ∀ a b, same a b → Follows same' (f a) (g b)) :
    Follows same' (run >>= f) (read >>= g) := by
  cases first with
  | ok related => exact second _ _ related
  | refused e => exact .refused e

theorem eq_mapError {run : Except Stop α} {read : Except DecodeError α} (follows : Follows Eq run read) :
    run = read.mapError .refused := by
  cases follows with
  | ok same =>
      cases same
      rfl
  | refused e => rfl

end Follows

/-! ## Sums and bytes -/

section Data

variable {data : List UInt8}

theorem sum_eq_ok {a b : UInt64} (fits : a.toNat + b.toNat < 2 ^ 64) :
    ∃ c : UInt64, sum a b = .ok c ∧ c.toNat = a.toNat + b.toNat := by
  refine ⟨a + b, if_pos fits, ?_⟩
  rw [UInt64.toNat_add, Nat.mod_eq_of_lt fits]

theorem toNat_cappedSum (a b : UInt64) :
    (cappedSum a b).toNat = min (a.toNat + b.toNat) (2 ^ 64 - 1) := by
  unfold cappedSum
  split
  · rename_i fits
    rw [UInt64.toNat_add, Nat.mod_eq_of_lt fits]
    omega
  · rename_i exceeds
    have capped : (UInt64.ofNat (2 ^ 64 - 1)).toNat = 2 ^ 64 - 1 := rfl
    omega

theorem between_eq_ok {first last : UInt64} (order : first.toNat ≤ last.toNat)
    (inside : last.toNat ≤ data.length) :
    between data first last = .ok (slice data first.toNat (last.toNat - first.toNat)) :=
  if_pos ⟨order, inside⟩

theorem bytesAt_follows (small : data.length < 2 ^ 63) (place size : UInt64) :
    Follows (fun bytes found => bytes = found ∧ place.toNat + size.toNat ≤ data.length)
      (bytesAt data place size) (readBytes data place.toNat size.toNat) := by
  have needed := toNat_cappedSum place size
  by_cases inside : place.toNat + size.toNat ≤ data.length
  · obtain ⟨last, summed, number⟩ := sum_eq_ok (a := place) (b := size) (by omega)
    have passed : ensure data place size = .ok () := if_neg (by omega)
    have there : between data place last = .ok (slice data place.toNat (last.toNat - place.toNat)) :=
      between_eq_ok (by omega) (by omega)
    rw [number, Nat.add_sub_cancel_left] at there
    have run : bytesAt data place size = .ok (slice data place.toNat size.toNat) := by
      simp only [bytesAt, passed, summed, there, bind, Except.bind]
    rw [run, readBytes, if_pos inside]
    exact .ok ⟨rfl, inside⟩
  · have stopped : ensure data place size =
        .error (.refused (.beyond data place.toNat size.toNat)) := by
      have short : data.length < (cappedSum place size).toNat := by omega
      rw [needed] at short
      simp only [ensure, needed, if_pos short]
      rfl
    have run : bytesAt data place size = .error (.refused (.beyond data place.toNat size.toNat)) := by
      simp only [bytesAt, stopped, bind, Except.bind]
    rw [run, readBytes, if_neg inside]
    exact .refused _

/-- A word that is read is told by its bytes. -/
theorem wordAt_follows (small : data.length < 2 ^ 63) (place : UInt64) :
    Follows (fun bytes w => bytes = w.bytes ∧ place.toNat + 32 ≤ data.length)
      (bytesAt data place 32) (readWord data place.toNat) := by
  have bytes := bytesAt_follows small place 32
  have size : (32 : UInt64).toNat = 32 := rfl
  rw [size] at bytes
  unfold readWord
  by_cases inside : place.toNat + 32 ≤ data.length
  · rw [readBytes, if_pos inside] at bytes
    rw [dif_pos inside]
    generalize bytesAt data place 32 = run at bytes ⊢
    cases bytes with
    | ok same => exact .ok same
  · rw [readBytes, if_neg inside] at bytes
    rw [dif_neg inside]
    generalize bytesAt data place 32 = run at bytes ⊢
    cases bytes with
    | refused => exact .refused _

/-- A word whose first 24 bytes are zero is the number of the others. -/
theorem toNat_of_front (w : Word) :
    w.toNat = Bytes.toNat (slice w.bytes 0 24) * modulus 8 + Bytes.toNat (slice w.bytes 24 8) := by
  have length := w.length_eq
  have rest : slice w.bytes 24 8 = w.bytes.drop 24 := List.take_of_length_le (by simp [length])
  have count : (w.bytes.drop 24).length = 8 := by simp [length]
  calc
    w.toNat = Bytes.toNat (w.bytes.take 24 ++ w.bytes.drop 24) := by
      rw [List.take_append_drop]
      rfl
    _ = Bytes.toNat (w.bytes.take 24) * modulus 8 + Bytes.toNat (w.bytes.drop 24) := by
      rw [toNat_append, count]
    _ = _ := by
      rw [rest]
      rfl

theorem copied_eq_ok {size : Nat} {bytes : List UInt8} (length : bytes.length = size) :
    copied size bytes = .ok ⟨bytes, length⟩ := by
  simp only [copied, Block.ofList?, dif_pos length]

/-- An offset that is read is the number of its word. -/
theorem offsetAt_follows (small : data.length < 2 ^ 63) (place : UInt64) :
    Follows (fun n m => n.toNat = m ∧ place.toNat + 32 ≤ data.length)
      (offsetAt data place) (readOffset data place.toNat) := by
  refine (wordAt_follows small place).bind ?_
  rintro bytes w ⟨rfl, inside⟩
  have length := w.length_eq
  have front : between w.bytes 0 24 = .ok (slice w.bytes 0 24) :=
    between_eq_ok (by decide) (by rw [length]; decide)
  have rest : between w.bytes 24 32 = .ok (slice w.bytes 24 8) :=
    between_eq_ok (by decide) (by rw [length]; decide)
  have count : (slice w.bytes 24 8).length = 8 := by simp [slice, length]
  have below := Bytes.toNat_lt (slice w.bytes 24 8)
  rw [count] at below
  have number := toNat_of_front w
  have bound : modulus 8 = Text.maxWord64 + 1 := rfl
  simp only [front, rest, copied_eq_ok count, bind, Except.bind]
  split
  · -- A byte before the last eight makes the number too large.
    rename_i foreign
    have nonzero : Bytes.toNat (slice w.bytes 0 24) ≠ 0 := by
      intro zero
      obtain ⟨b, member, different⟩ := List.any_eq_true.1 foreign
      simp [(toNat_eq_zero_iff _).1 zero b member] at different
    have large : ¬ w.toNat ≤ Text.maxWord64 := by
      have factor := Nat.le_mul_of_pos_left (modulus 8) (Nat.pos_of_ne_zero nonzero)
      omega
    rw [if_neg large]
    exact .refused _
  · rename_i zeros
    have zero : Bytes.toNat (slice w.bytes 0 24) = 0 := by
      refine (toNat_eq_zero_iff _).2 fun b member => ?_
      by_contra different
      exact zeros (List.any_eq_true.2 ⟨b, member, by simpa using different⟩)
    rw [zero, Nat.zero_mul, Nat.zero_add] at number
    rw [if_pos (by omega)]
    refine .ok ⟨?_, inside⟩
    rw [number]
    exact Nat.mod_eq_of_lt below

theorem payloadAt_follows (small : data.length < 2 ^ 63) (place : UInt64) :
    Follows Eq (payloadAt data place) (readPayload data place.toNat) := by
  refine (offsetAt_follows small place).bind ?_
  rintro size _ ⟨rfl, inside⟩
  have word : (32 : UInt64).toNat = 32 := rfl
  obtain ⟨start, summed, number⟩ := sum_eq_ok (a := place) (b := 32) (by omega)
  have bytes := bytesAt_follows small start size
  rw [number, word] at bytes
  simp only [summed, bind, Except.bind]
  generalize bytesAt data start size = run at bytes ⊢
  generalize readBytes data (place.toNat + 32) size.toNat = read at bytes ⊢
  cases bytes with
  | ok same => exact .ok same.1
  | refused e => exact .refused e

/-! ## Values -/

/-- The length of a payload stands in the word that is read first. -/
theorem readWord_readPayload (place : Nat) :
    (readWord data place >>= fun _ => readPayload data place) = readPayload data place := by
  cases read : readWord data place with
  | ok w => rfl
  | error e =>
      simp only [readPayload, readOffset, read]
      rfl

theorem readText_follows (bytes : List UInt8) :
    Follows Eq (readText bytes) (Abi.readText bytes) := by
  unfold readText Abi.readText
  cases Text.Utf8.decode bytes with
  | ok text => exact .ok rfl
  | error fault => exact .refused _

/-- A static value is read from its word without stopping. -/
theorem valueAt_follows_static {t : Ty} (static : t.isDynamic = false) (small : data.length < 2 ^ 63)
    (place : UInt64) : Follows Eq (valueAt t data place) (Abi.decodeValue t data place.toNat) := by
  cases t with
  | bytes | string => cases static
  | uint | int =>
      refine (wordAt_follows small place).bind ?_
      rintro bytes w ⟨rfl, -⟩
      exact .ok rfl
  | address =>
      refine (wordAt_follows small place).bind ?_
      rintro bytes w ⟨rfl, -⟩
      have length := w.length_eq
      have last : between w.bytes 12 32 = .ok (slice w.bytes 12 20) :=
        between_eq_ok (by decide) (by rw [length]; decide)
      have whole : slice w.bytes 12 20 = w.bytes.drop 12 := List.take_of_length_le (by simp [length])
      have count : (w.bytes.drop 12).length = 20 := by simp [length]
      simp only [last, whole, copied_eq_ok count, bind, Except.bind]
      exact .ok rfl
  | bool =>
      refine (wordAt_follows small place).bind ?_
      rintro bytes w ⟨rfl, -⟩
      have length := w.length_eq
      obtain ⟨b, found⟩ : ∃ b, w.bytes[31]? = some b := ⟨w.bytes[31], List.getElem?_eq_getElem (by omega)⟩
      have last : w.bytes.getLast? = some b := by
        rw [List.getLast?_eq_getElem?, length, found]
      have read : byteAt w.bytes 31 = .ok b := by
        have place : (31 : UInt64).toNat = 31 := rfl
        simp only [byteAt, place, found]
      simp only [read, bind, Except.bind, Ty.ofWord, last, Option.getD_some]
      exact .ok rfl
  | fixed width =>
      refine (wordAt_follows small place).bind ?_
      rintro bytes w ⟨rfl, -⟩
      have length := w.length_eq
      have le := width.le
      have number : (UInt64.ofNat width.octets).toNat = width.octets := by
        rw [UInt64.toNat_ofNat', Nat.mod_eq_of_lt (by omega)]
      have front : between w.bytes 0 (UInt64.ofNat width.octets) = .ok (w.bytes.take width.octets) := by
        have there : between w.bytes 0 (UInt64.ofNat width.octets) =
            .ok (slice w.bytes 0 (UInt64.ofNat width.octets).toNat) :=
          between_eq_ok (Nat.zero_le _) (by omega)
        rw [number] at there
        exact there
      simp only [front, bind, Except.bind]
      exact .ok rfl

/-- A value without fixed size is read from its payload, before which the word of its length is read once more. -/
theorem follows_of_payload (small : data.length < 2 ^ 63) (place : UInt64)
    {made : List UInt8 → Except Stop Value} {given : List UInt8 → Except DecodeError Value}
    (each : ∀ bytes, Follows Eq (made bytes) (given bytes)) :
    Follows Eq (bytesAt data place 32 >>= fun _ => payloadAt data place >>= made)
      (readPayload data place.toNat >>= given) := by
  rw [← readWord_readPayload, bind_assoc]
  refine (wordAt_follows small place).bind fun _ _ _ => ?_
  refine (payloadAt_follows small place).bind ?_
  rintro bytes _ rfl
  exact each bytes

theorem decodeValue_follows (t : Ty) (small : data.length < 2 ^ 63) (head : UInt64) :
    Follows Eq (decodeValue t data head) (Abi.decodeValue t data head.toNat) := by
  unfold decodeValue
  cases dynamic : t.isDynamic with
  | false => exact valueAt_follows_static dynamic small head
  | true =>
      cases t with
      | bytes =>
          refine (offsetAt_follows small head).bind ?_
          rintro place _ ⟨rfl, -⟩
          exact follows_of_payload small place fun bytes => .ok rfl
      | string =>
          refine (offsetAt_follows small head).bind ?_
          rintro place _ ⟨rfl, -⟩
          exact follows_of_payload small place readText_follows
      | _ => cases dynamic

/-- The run neither leaves the data nor comes to a sum that is too large: it gives what the decoder gives. -/
theorem decodeValue_eq (t : Ty) (small : data.length < 2 ^ 63) (head : UInt64) :
    decodeValue t data head = (Abi.decodeValue t data head.toNat).mapError .refused :=
  (decodeValue_follows t small head).eq_mapError

end Data

end Machine

/-! ## All data -/

/-- A value is read from any data at any place without leaving the data and without a sum that is too large. It is
read exactly if all checks are passed, and is what stands there; otherwise the first check that is not passed gives
the error. -/
theorem decodeValue_bounds (t : Ty) (data : List UInt8) (small : data.length < 2 ^ 63) (head : UInt64) :
    let checks := t.checks data head.toNat
    let read := decodeValue t data head.toNat
    Machine.decodeValue t data head = read.mapError .refused ∧
      (∀ v, read = .ok v ↔ (∀ c ∈ checks, c.passes) ∧ v = t.valueAt data head.toNat) ∧
      (∀ e, read = .error e ↔ FirstFault checks e) := by
  intro checks read
  have obeys := decodeValue_obeys t data head.toNat
  exact ⟨Machine.decodeValue_eq t small head, obeys.eq_ok_iff, fun e => obeys.eq_error_iff⟩

/-- An answer with a text that would end behind the last offset. -/
def endlessText : List UInt8 :=
  (Word.ofNat 32).bytes ++ (Word.ofNat (2 ^ 64 - 1)).bytes

theorem decodeValue_bounds_endlessText :
    endlessText.length < 2 ^ 63 ∧
      Machine.decodeValue .string endlessText 0 =
        .error (.refused (.tooShort (2 ^ 64 - 1) 64)) := by
  have small : endlessText.length < 2 ^ 63 := by decide
  obtain ⟨machine, -, stops⟩ := decodeValue_bounds .string endlessText small 0
  have place : numberAt endlessText 0 = 32 := by decide +kernel
  have first : FirstFault (Ty.string.checks endlessText 0) (.tooShort (2 ^ 64 - 1) 64) := by
    simp only [Ty.checks, payloadChecks, offsetChecks, place, List.cons_append, List.nil_append]
    have headThere : 0 + 32 ≤ endlessText.length := by decide
    have placeFits : 32 < 2 ^ 64 := by decide
    have sizeThere : 32 + 32 ≤ endlessText.length := by decide
    have sizeFits : numberAt endlessText 32 < 2 ^ 64 := by decide +kernel
    have endless : ¬ 32 + 32 + numberAt endlessText 32 ≤ endlessText.length := by decide +kernel
    have fault : (reaches endlessText (32 + 32) (numberAt endlessText 32)).fault =
        .tooShort (2 ^ 64 - 1) 64 := by decide +kernel
    rw [← fault]
    exact .later headThere (.later placeFits (.later sizeThere (.later sizeFits (.here endless))))
  have read := (stops _).2 first
  refine ⟨small, ?_⟩
  rw [machine, read]
  rfl

end Abi
end TokenSchema
