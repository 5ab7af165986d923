import TokenSchema.Abi.Decode
import TokenSchema.Proofs.Bytes.Minimal
import TokenSchema.Proofs.Text.Utf8

/-!
# Checks — what a decoder asks of the data before it reads

The head word of a value without fixed size names a place, and the word at that place a length. Both are up to the
contract that answers, so every read is checked first. `Ty.checks` lists the checks for a type in their order. A value
is read exactly if all of them are passed, and otherwise the first one that is not gives the error
(`decodeValue_obeys`).
-/

namespace TokenSchema
namespace Abi

open TokenSchema.Bytes

/-! ## Checks -/

/-- What a read asks of the data, and the error if it is not so. -/
structure Check where
  passes : Prop
  fault : DecodeError

/-- The error is that of the first check that is not passed. -/
inductive FirstFault : List Check → DecodeError → Prop where
  | here {c : Check} {rest : List Check} : ¬ c.passes → FirstFault (c :: rest) c.fault
  | later {c : Check} {rest : List Check} {e : DecodeError} :
      c.passes → FirstFault rest e → FirstFault (c :: rest) e

section Checks

variable {cs ds : List Check} {e : DecodeError}

theorem FirstFault.not_all (first : FirstFault cs e) : ¬ ∀ c ∈ cs, c.passes := by
  intro all
  induction first with
  | here failed => exact failed (all _ List.mem_cons_self)
  | later _ _ ih => exact ih fun c member => all c (List.mem_cons_of_mem _ member)

theorem all_or_firstFault (cs : List Check) : (∀ c ∈ cs, c.passes) ∨ ∃ e, FirstFault cs e := by
  induction cs with
  | nil => exact .inl fun c member => by cases member
  | cons c rest ih =>
      by_cases passed : c.passes
      · rcases ih with all | ⟨e, first⟩
        · exact .inl (List.forall_mem_cons.2 ⟨passed, all⟩)
        · exact .inr ⟨e, .later passed first⟩
      · exact .inr ⟨c.fault, .here passed⟩

theorem firstFault_append_iff :
    FirstFault (cs ++ ds) e ↔ FirstFault cs e ∨ (∀ c ∈ cs, c.passes) ∧ FirstFault ds e := by
  induction cs with
  | nil =>
      constructor
      · intro first
        exact .inr ⟨(fun c member => by cases member), first⟩
      · intro either
        rcases either with none | ⟨-, first⟩
        · cases none
        · exact first
  | cons c rest ih =>
      constructor
      · intro first
        cases first with
        | here failed => exact .inl (.here failed)
        | later passed first =>
            rcases ih.1 first with first | ⟨all, first⟩
            · exact .inl (.later passed first)
            · exact .inr ⟨List.forall_mem_cons.2 ⟨passed, all⟩, first⟩
      · rintro (first | ⟨all, first⟩)
        · cases first with
          | here failed => exact .here failed
          | later passed first => exact .later passed (ih.2 (.inl first))
        · obtain ⟨passed, all⟩ := List.forall_mem_cons.1 all
          exact .later passed (ih.2 (.inr ⟨all, first⟩))

end Checks

/-- A read gives the value if all checks are passed, and otherwise the error of the first one that is not. -/
structure Obeys {α : Type} (read : Except DecodeError α) (checks : List Check) (a : α) : Prop where
  ok : (∀ c ∈ checks, c.passes) → read = .ok a
  error : ∀ e, FirstFault checks e → read = .error e

namespace Obeys

variable {α β : Type} {read : Except DecodeError α} {cs ds : List Check} {a : α} {e : DecodeError}

theorem eq_ok_iff (obeys : Obeys read cs a) (v : α) :
    read = .ok v ↔ (∀ c ∈ cs, c.passes) ∧ v = a := by
  rcases all_or_firstFault cs with all | ⟨e, first⟩
  · rw [obeys.ok all]
    constructor
    · intro same
      cases same
      exact ⟨all, rfl⟩
    · rintro ⟨-, rfl⟩
      rfl
  · rw [obeys.error e first]
    constructor
    · intro same
      cases same
    · rintro ⟨all, -⟩
      exact absurd all first.not_all

theorem eq_error_iff (obeys : Obeys read cs a) : read = .error e ↔ FirstFault cs e := by
  refine ⟨fun failed => ?_, obeys.error e⟩
  rcases all_or_firstFault cs with all | ⟨e', first⟩
  · rw [obeys.ok all] at failed
    cases failed
  · rw [obeys.error e' first] at failed
    cases failed
    exact first

/-- Reads in sequence obey their checks in sequence. -/
theorem bind {next : α → Except DecodeError β} {b : β} (first : Obeys read cs a)
    (second : Obeys (next a) ds b) : Obeys (read >>= next) (cs ++ ds) b where
  ok all := by
    obtain ⟨front, back⟩ := List.forall_mem_append.1 all
    rw [first.ok front]
    exact second.ok back
  error e fault := by
    rcases firstFault_append_iff.1 fault with fault | ⟨all, fault⟩
    · rw [first.error e fault]
      rfl
    · rw [first.ok all]
      exact second.error e fault

theorem map {f : α → β} (obeys : Obeys read cs a) : Obeys (read >>= fun v => pure (f v)) cs (f a) where
  ok all := by
    rw [obeys.ok all]
    rfl
  error e fault := by
    rw [obeys.error e fault]
    rfl

/-- A read with one check. -/
theorem single {c : Check} (passed : c.passes → read = .ok a)
    (failed : ¬ c.passes → read = .error c.fault) : Obeys read [c] a where
  ok all := passed (all c List.mem_cons_self)
  error e fault := by
    cases fault with
    | here refused => exact failed refused
    | later _ none => cases none

end Obeys

/-! ## What is checked -/

/-- The data has so many bytes from a place on. The end that is needed counts as at most the largest offset. -/
def reaches (data : List UInt8) (place size : Nat) : Check where
  passes := place + size ≤ data.length
  fault := .tooShort (min (place + size) (2 ^ 64 - 1)) data.length

/-- The number is a place or a length. -/
def isOffset (n : Nat) : Check where
  passes := n < 2 ^ 64
  fault := .offsetTooLarge

/-- The bytes are those of a text. -/
def isText (bytes : List UInt8) : Check where
  passes := ∃ text, Text.Utf8.encode text = bytes
  fault := .notUtf8 ((Text.Utf8.faultFrom 0 0 bytes).getD ⟨bytes.length, none⟩)

/-- The number of the word at a place. -/
def numberAt (data : List UInt8) (place : Nat) : Nat :=
  Bytes.toNat (slice data place 32)

/-- The bytes at a place, after the word with their number. -/
def payloadAt (data : List UInt8) (place : Nat) : List UInt8 :=
  slice data (place + 32) (numberAt data place)

/-- What is checked before a place is taken from a word. -/
def offsetChecks (data : List UInt8) (place : Nat) : List Check :=
  [reaches data place 32, isOffset (numberAt data place)]

/-- What is checked before bytes are taken from a place. -/
def payloadChecks (data : List UInt8) (place : Nat) : List Check :=
  offsetChecks data place ++ [reaches data (place + 32) (numberAt data place)]

/-- What is checked before a value is read whose head word stands at a place. -/
def Ty.checks (t : Ty) (data : List UInt8) (head : Nat) : List Check :=
  match t with
  | .bytes => offsetChecks data head ++ payloadChecks data (numberAt data head)
  | .string =>
      offsetChecks data head ++ payloadChecks data (numberAt data head) ++
        [isText (payloadAt data (numberAt data head))]
  | _ => [reaches data head 32]

/-- What is read if all checks are passed. -/
def Ty.valueAt (t : Ty) (data : List UInt8) (head : Nat) : Value :=
  match t with
  | .bytes => .bytes (payloadAt data (numberAt data head))
  | .string => .string (Text.Utf8.decodeLossy (payloadAt data (numberAt data head)))
  | t => t.ofWord (.ofNat (numberAt data head))

/-! ## Reads obey their checks -/

section Reads

variable (data : List UInt8) (place : Nat)

theorem readBytes_obeys (size : Nat) :
    Obeys (readBytes data place size) [reaches data place size] (slice data place size) := by
  refine .single (fun inside => ?_) (fun outside => ?_)
  · exact if_pos inside
  · exact if_neg outside

theorem readWord_obeys :
    Obeys (readWord data place) [reaches data place 32] (.ofNat (numberAt data place)) := by
  refine .single (fun inside => ?_) (fun outside => ?_)
  · have there : place + 32 ≤ data.length := inside
    rw [readWord, dif_pos there]
    exact congrArg Except.ok (Block.ofNat_toNat _).symm
  · exact dif_neg outside

theorem toNat_word_numberAt : (Word.ofNat (numberAt data place)).toNat = numberAt data place := by
  have short : (slice data place 32).length ≤ 32 := List.length_take_le ..
  have small : numberAt data place < modulus 32 :=
    Nat.lt_of_lt_of_le (Bytes.toNat_lt _) (Nat.pow_le_pow_right (by decide) short)
  exact (Block.toNat_ofNat 32 _).trans (Nat.mod_eq_of_lt small)

theorem readOffset_obeys :
    Obeys (readOffset data place) (offsetChecks data place) (numberAt data place) := by
  refine (readWord_obeys data place).bind (.single (fun small => ?_) (fun large => ?_))
  · have fits : (Word.ofNat (numberAt data place)).toNat ≤ Text.maxWord64 := by
      rw [toNat_word_numberAt]
      exact Nat.le_of_lt_succ small
    rw [if_pos fits, toNat_word_numberAt]
    rfl
  · have exceeds : ¬ (Word.ofNat (numberAt data place)).toNat ≤ Text.maxWord64 := by
      rw [toNat_word_numberAt]
      exact fun fits => large (Nat.lt_succ_of_le fits)
    rw [if_neg exceeds]
    rfl

theorem readPayload_obeys :
    Obeys (readPayload data place) (payloadChecks data place) (payloadAt data place) :=
  (readOffset_obeys data place).bind (readBytes_obeys data (place + 32) _)

end Reads

/-- The text of some bytes as a value, or their first fault. -/
def readText (bytes : List UInt8) : Except DecodeError Value :=
  match Text.Utf8.decode bytes with
  | .ok text => return .string text
  | .error fault => throw (.notUtf8 fault)

theorem readText_obeys (bytes : List UInt8) :
    Obeys (readText bytes) [isText bytes] (.string (Text.Utf8.decodeLossy bytes)) := by
  refine .single ?_ (fun foreign => ?_)
  · rintro ⟨text, rfl⟩
    simp only [readText, Text.Utf8.decode_encode, Text.Utf8.decodeLossy_encode]
    rfl
  · simp only [readText, Text.Utf8.decode_eq_error foreign]
    rfl

/-- A value is read exactly if all checks are passed; otherwise the first one that is not gives the error. -/
theorem decodeValue_obeys (t : Ty) (data : List UInt8) (head : Nat) :
    Obeys (decodeValue t data head) (t.checks data head) (t.valueAt data head) := by
  cases t with
  | bytes => exact (readOffset_obeys data head).bind (readPayload_obeys data _).map
  | string =>
      -- The decoder is the three reads in sequence.
      change Obeys (readOffset data head >>= fun place => readPayload data place >>= readText) _ _
      rw [Ty.checks, List.append_assoc]
      exact (readOffset_obeys data head).bind ((readPayload_obeys data _).bind (readText_obeys _))
  | _ => exact (readWord_obeys data head).map

end Abi
end TokenSchema
