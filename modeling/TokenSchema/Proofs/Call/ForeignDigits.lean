import TokenSchema.Proofs.Call.Arguments
import TokenSchema.Proofs.Text.Blank
import TokenSchema.Proofs.Text.Numeral

/-!
# Foreign digits — byte arguments that are marked as hexadecimal and are not

A text that cannot be read as a number or as an address takes all arguments of its call with it. A text for bytes
is never refused: one with the mark of a hexadecimal text and a character that is no digit leaves no bytes, as the
mark alone does. So the call is the one with the mark alone in that place, and its arguments are dropped only if
another one cannot be converted (`CallTemplate.build_of_foreignDigit`).
-/

namespace TokenSchema

open TokenSchema.Bytes

/-! ## Texts -/

namespace Text

/-- A text with the mark of a hexadecimal one, and a character after it that is no digit. -/
def HasForeignDigit (s : String) : Prop :=
  ∃ digits, trimChars s.toList = '0' :: 'x' :: digits ∧ ∃ c ∈ digits, Hex.digitValue c = none

theorem Hex.decodeChars_eq_none {cs : List Char} (foreign : ∃ c ∈ cs, digitValue c = none) :
    decodeChars cs = none := by
  obtain ⟨c, member, noDigit⟩ := foreign
  fun_induction decodeChars cs with
  | case1 => cases member
  | case2 => rfl
  | case3 high low rest ih =>
      rcases List.mem_cons.1 member with rfl | member
      · rw [noDigit]
        rfl
      rcases List.mem_cons.1 member with rfl | member
      · rw [noDigit]
        cases digitValue high <;> rfl
      · rw [ih member]
        cases digitValue high with
        | none => rfl
        | some h => cases digitValue low <;> rfl

/-- The token is no such text. -/
theorem not_hasForeignDigit_decimal (n : Nat) : ¬ HasForeignDigit (decimal n) := by
  rintro ⟨rest, marked, -⟩
  have digits : ∀ c ∈ Nat.toDigits 10 n, isDigit c = true := fun _ => isDigit_of_mem_toDigits
  rw [toList_decimal, trimChars_of_digits digits] at marked
  exact ne_hexMark digits rest marked

end Text

/-- A foreign digit leaves no bytes. -/
theorem argumentBytes_of_foreignDigit {s : String} (foreign : Text.HasForeignDigit s) :
    argumentBytes s = [] := by
  obtain ⟨digits, marked, c, member, noDigit⟩ := foreign
  -- A zero in front, which makes an odd number of digits even, does not hide the foreign one.
  have even : ∃ d ∈ (if digits.length % 2 = 1 then '0' :: digits else digits),
      Text.Hex.digitValue d = none := by
    refine ⟨c, ?_, noDigit⟩
    split
    · exact List.mem_cons_of_mem _ member
    · exact member
  unfold argumentBytes
  simp only [marked]
  rw [Text.Hex.decodeChars_eq_none even]
  rfl

/-! ## Values -/

namespace Abi

/-- The types of byte strings. -/
def Ty.isByteString : Ty → Bool
  | .bytes | .fixed _ => true
  | _ => false

/-- The value of a byte string without bytes: one of a fixed size is all zeros. -/
def Ty.noBytes : Ty → Value
  | .fixed w => .fixed (List.replicate w.octets 0)
  | _ => .bytes []

/-- A marked text that leaves no bytes is given as the value without bytes. -/
theorem Ty.fitArgument_of_noBytes {t : Ty} {s : String} {digits : List Char}
    (byteString : t.isByteString = true)
    (marked : Text.trimChars s.toList = '0' :: 'x' :: digits) (none : argumentBytes s = []) :
    t.fitArgument (some s) = .ok t.noBytes := by
  have nonempty : Text.trim s ≠ "" := by
    intro empty
    have chars := congrArg String.toList empty
    rw [Text.toList_trim, marked] at chars
    cases chars
  have trimmed : argumentBytes (Text.trim s) = [] := by
    rw [← none]
    simp only [argumentBytes, Text.toList_trim, Text.trimChars_trimChars]
  have notNumber : (Text.trim s).toList.all Text.isDigit = false := by
    rw [Text.toList_trim, marked]
    rfl
  have kept : ((some s).map Text.trim).filter (· ≠ "") = some (Text.trim s) := by
    simp [Option.filter, nonempty]
  simp only [fitArgument, ofArgument, kept]
  cases t with
  | bytes =>
      simp only [ofText, trimmed]
      rfl
  | fixed w =>
      have padded : padRight w.octets [] = List.replicate w.octets 0 := by
        simp [padRight]
      simp only [ofText, fixedOfText, trimmed, notNumber, Bool.false_and, Bool.false_eq_true, if_false,
        Except.bind, coerce, List.length_nil, Nat.zero_le, if_true, padded, noBytes]
  | _ => cases byteString

end Abi

/-! ## Arguments -/

namespace CallContext

variable {c : CallContext} {a : Argument} {t : Abi.Ty}

/-- The argument is a byte string, and its text has a foreign digit. The wallet is no such argument, since its type is
that of an address. -/
structure GivesForeignDigit (c : CallContext) (a : Argument) (t : Abi.Ty) : Prop where
  notWallet : a.source ≠ .ownerAddress
  typed : Abi.lookup a.typeName = some t
  byteString : t.isByteString = true
  text : ∃ text, c.sourceText a.source = some text ∧ Text.HasForeignDigit text

theorem GivesForeignDigit.notToken (gives : c.GivesForeignDigit a t) : a.source ≠ .tokenId := by
  intro token
  obtain ⟨text, given, foreign⟩ := gives.text
  rw [token] at given
  cases given
  exact Text.not_hasForeignDigit_decimal c.tokenId foreign

/-- The argument is converted, to the value without bytes. -/
theorem GivesForeignDigit.argument_eq (gives : c.GivesForeignDigit a t) :
    c.argument a = .ok (some (t, t.noBytes)) := by
  obtain ⟨text, given, foreign⟩ := gives.text
  have none := argumentBytes_of_foreignDigit foreign
  obtain ⟨digits, marked, -⟩ := foreign
  have fitted := Abi.Ty.fitArgument_of_noBytes gives.byteString marked none
  rw [c.argument_of_typed gives.notToken gives.notWallet, gives.typed, given]
  simp only [fitted, Except.map]

/-- The mark alone is converted to the same value. -/
theorem argument_mark (typed : Abi.lookup a.typeName = some t) (byteString : t.isByteString = true) :
    c.argument { a with source := .literal "0x" } = .ok (some (t, t.noBytes)) := by
  have marked : Text.trimChars "0x".toList = '0' :: 'x' :: [] := by decide
  have fitted := Abi.Ty.fitArgument_of_noBytes byteString marked (by decide)
  rw [c.argument_of_typed (by simp) (by simp), typed]
  simp only [sourceText, fitted, Except.map]

/-! ## Calls -/

theorem exists_mapM_argument {args : List Argument}
    (converted : ∀ b ∈ args, ∃ p, c.argument b = .ok p) :
    ∃ found, args.mapM c.argument = .ok found ∧ c.arguments args = found.filterMap id := by
  cases mapped : args.mapM c.argument with
  | error e =>
      obtain ⟨b, member, failed⟩ := exists_of_mapM_eq_error mapped
      exact absurd ⟨b, member, e, failed⟩ ((c.converted_iff_not_failed args).1 converted)
  | ok found => exact ⟨found, rfl, by simp only [arguments, mapped]⟩

/-- A converted argument stands between those before it and those after it. -/
theorem arguments_between {front rest : List Argument} {v : Abi.Value}
    (given : c.argument a = .ok (some (t, v)))
    (others : ∀ b ∈ front ++ rest, ∃ p, c.argument b = .ok p) :
    c.arguments (front ++ a :: rest) = c.arguments front ++ (t, v) :: c.arguments rest := by
  obtain ⟨inFront, inRest⟩ := List.forall_mem_append.1 others
  obtain ⟨before, mappedFront, keptFront⟩ := exists_mapM_argument inFront
  obtain ⟨after, mappedRest, keptRest⟩ := exists_mapM_argument inRest
  have mapped : (front ++ a :: rest).mapM c.argument = .ok (before ++ some (t, v) :: after) := by
    rw [List.mapM_append, List.mapM_cons, mappedFront, mappedRest, given]
    rfl
  rw [keptFront, keptRest]
  simp only [arguments, mapped, List.filterMap_append]
  rfl

/-- An argument may stand for another one that is converted to the same value. -/
theorem arguments_replace {front rest : List Argument} {b : Argument}
    (same : c.argument a = c.argument b) :
    c.arguments (front ++ a :: rest) = c.arguments (front ++ b :: rest) := by
  simp only [arguments, List.mapM_append, List.mapM_cons, same]

end CallContext

/-- With a foreign digit in a byte string, the call is the one with the mark of a hexadecimal text alone in its
place. If all other arguments are converted, the value without bytes stands among theirs; so the arguments are
dropped exactly if another one cannot be converted. -/
theorem CallTemplate.build_of_foreignDigit (f : CallTemplate) (c : CallContext)
    {front rest : List Argument} {a : Argument} {t : Abi.Ty} (place : f.arguments = front ++ a :: rest)
    (gives : c.GivesForeignDigit a t) :
    f.build c =
        { f with arguments := front ++ { a with source := .literal "0x" } :: rest }.build c ∧
      ((∀ b ∈ front ++ rest, ∃ p, c.argument b = .ok p) →
        (f.build c).parameters =
          (c.arguments front).map (·.2) ++ t.noBytes :: (c.arguments rest).map (·.2)) ∧
      ((f.build c).parameters = [] ↔ ∃ b ∈ front ++ rest, ∃ e, c.argument b = .error e) := by
  have given := gives.argument_eq
  have between : (∀ b ∈ front ++ rest, ∃ p, c.argument b = .ok p) →
      (f.build c).parameters =
        (c.arguments front).map (·.2) ++ t.noBytes :: (c.arguments rest).map (·.2) := by
    intro others
    simp only [build, place, CallContext.arguments_between given others, List.map_append, List.map_cons]
  -- The mark alone changes one argument; the templates are the same in all that is not an argument.
  refine ⟨?_, between, ?_⟩
  · have same : c.argument a = c.argument { a with source := .literal "0x" } := by
      rw [given, CallContext.argument_mark gives.typed gives.byteString]
    have values : c.arguments (front ++ a :: rest) =
        c.arguments (front ++ { a with source := .literal "0x" } :: rest) :=
      CallContext.arguments_replace same
    simp only [build, place, values]
    rfl
  constructor
  · intro dropped
    by_contra none
    have others := (c.converted_iff_not_failed (front ++ rest)).2 none
    rw [between others] at dropped
    simp at dropped
  · rintro ⟨b, member, e, failed⟩
    have present : b ∈ f.arguments := by
      rw [place]
      rcases List.mem_append.1 member with inFront | inRest
      · exact List.mem_append_left _ inFront
      · exact List.mem_append_right _ (List.mem_cons_of_mem a inRest)
    simp [build, c.arguments_of_failed ⟨b, present, e, failed⟩]

/-! ## A word that is none -/

namespace Claiming

/-- A number, and a word that is given by a text. -/
def template (word : String) : CallTemplate :=
  { CallTemplate.ofMethod "claim" with
    arguments := [⟨"uint256", .literal "7"⟩, ⟨"bytes32", .literal word⟩] }

/-- A token and a wallet, and no values by name. -/
def context : CallContext := ⟨5, "0x00000000000000000000000000000000000000aa", ∅⟩

theorem argument_seven :
    context.argument ⟨"uint256", .literal "7"⟩ = .ok (some (.uint256, .uint 7)) := by
  decide +kernel

theorem arguments_seven : context.arguments [⟨"uint256", .literal "7"⟩] = [(.uint256, .uint 7)] := by
  simp [CallContext.arguments, argument_seven]

theorem lookup_bytes32 : Abi.lookup "bytes32" = some .bytes32 := by
  decide +kernel

theorem givesForeignDigit_word {word : String} (foreign : Text.HasForeignDigit word) :
    context.GivesForeignDigit ⟨"bytes32", .literal word⟩ .bytes32 where
  notWallet := by simp
  typed := lookup_bytes32
  byteString := rfl
  text := ⟨word, rfl, foreign⟩

theorem hasForeignDigit_blanks : Text.HasForeignDigit " 0x12g4 " :=
  ⟨['1', '2', 'g', '4'], by decide, 'g', by decide, by decide⟩

/-- A word with a foreign digit, and blanks around it. -/
theorem build_of_foreignDigit_claim :
    (template " 0x12g4 ").arguments =
        [⟨"uint256", .literal "7"⟩] ++ ⟨"bytes32", .literal " 0x12g4 "⟩ :: [] ∧
      context.GivesForeignDigit ⟨"bytes32", .literal " 0x12g4 "⟩ .bytes32 ∧
      (template " 0x12g4 ").build context = (template "0x").build context ∧
      ((template " 0x12g4 ").build context).parameters = [.uint 7, .fixed (List.replicate 32 0)] := by
  have place : (template " 0x12g4 ").arguments =
      [⟨"uint256", .literal "7"⟩] ++ ⟨"bytes32", .literal " 0x12g4 "⟩ :: [] := rfl
  have gives := givesForeignDigit_word hasForeignDigit_blanks
  have others : ∀ b ∈ [⟨"uint256", .literal "7"⟩] ++ [], ∃ p, context.argument b = .ok p := by
    intro b member
    obtain rfl := List.mem_singleton.1 member
    exact ⟨_, argument_seven⟩
  obtain ⟨same, between, -⟩ := CallTemplate.build_of_foreignDigit (template " 0x12g4 ") context place gives
  refine ⟨place, gives, same, ?_⟩
  rw [between others, arguments_seven]
  rfl

/-- The arguments of a call are written although its word is none, and the word is written as zeros. -/
theorem parameters_claim :
    Text.HasForeignDigit "0xzz" ∧
      ((template "0xzz").build context).signature = "claim(uint256,bytes32)" ∧
      ((template "0xzz").build context).parameters = [.uint 7, .fixed (List.replicate 32 0)] := by
  have foreign : Text.HasForeignDigit "0xzz" := ⟨['z', 'z'], by decide, 'z', by decide, by decide⟩
  have word := (givesForeignDigit_word foreign).argument_eq
  have arguments : context.arguments (template "0xzz").arguments =
      [(.uint256, .uint 7), (.bytes32, .fixed (List.replicate 32 0))] := by
    simp only [template, CallContext.arguments, List.mapM_cons, List.mapM_nil, argument_seven, word]
    rfl
  refine ⟨foreign, ?_, ?_⟩
  · rw [CallTemplate.build, arguments]
    decide
  · rw [CallTemplate.build, arguments]
    rfl

end Claiming

end TokenSchema
