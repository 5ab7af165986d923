import TokenSchema.Proofs.Text.Utf8

/-!
# Places — finding and cutting by bytes

A place in a text is the number of bytes before it. A piece may be cut out from one place to another if both are in the
text and none is inside a character (`cut`). The place where a pattern stands first, or a character stands last, is
that of a part of the text (`firstPlace?_of_firstAt`, `lastPlace?_append`), so cutting there gives what stands between
(`cut_append`).
-/

namespace TokenSchema
namespace Text

/-! ## Sizes -/

namespace Utf8

theorem size_append (s t : String) : size (s ++ t) = size s + size t :=
  String.utf8ByteSize_append

theorem size_ofList_append (xs ys : List Char) :
    size (String.ofList (xs ++ ys)) = size (String.ofList xs) + size (String.ofList ys) := by
  rw [String.ofList_append, size_append]

theorem size_ofList_cons (c : Char) (cs : List Char) :
    size (String.ofList (c :: cs)) = c.utf8Size + size (String.ofList cs) := by
  have single : size (String.ofList [c]) = c.utf8Size := by
    rw [← String.singleton_eq_ofList]
    exact String.utf8ByteSize_singleton
  rw [← single, ← size_ofList_append]
  rfl

end Utf8

/-! ## Cutting -/

/-- Why a piece cannot be cut out of a text. -/
inductive CutFault where
  /-- A place is behind the end of the text, or the last one before the first one. -/
  | outside
  | insideCharacter
  deriving DecidableEq, Repr

/-- The piece of a text from one place to another. -/
def cut (text : String) (first last : Nat) : Except CutFault String :=
  if first ≤ last ∧ last ≤ Utf8.size text then
    if ends : (String.Pos.Raw.mk first).IsValid text ∧ (String.Pos.Raw.mk last).IsValid text then
      .ok (text.extract ⟨_, ends.1⟩ ⟨_, ends.2⟩)
    else .error .insideCharacter
  else .error .outside

theorem cut_append (front piece rest : String) :
    cut (front ++ (piece ++ rest)) (Utf8.size front) (Utf8.size front + Utf8.size piece) = .ok piece := by
  have inside : Utf8.size front ≤ Utf8.size front + Utf8.size piece ∧
      Utf8.size front + Utf8.size piece ≤ Utf8.size (front ++ (piece ++ rest)) := by
    rw [Utf8.size_append, Utf8.size_append]
    omega
  have first : (String.Pos.Raw.mk (Utf8.size front)).IsValid (front ++ (piece ++ rest)) :=
    String.Pos.Raw.isValid_iff_exists_append.2 ⟨front, piece ++ rest, rfl, rfl⟩
  have last : (String.Pos.Raw.mk (Utf8.size front + Utf8.size piece)).IsValid (front ++ (piece ++ rest)) := by
    refine String.Pos.Raw.isValid_iff_exists_append.2 ⟨front ++ piece, rest, String.append_assoc.symm, ?_⟩
    rw [← Utf8.size_append]
    rfl
  rw [cut, if_pos inside, dif_pos ⟨first, last⟩]
  refine congrArg Except.ok (String.toByteArray_inj.1 ?_)
  rw [String.toByteArray_extract, String.toByteArray_append, String.toByteArray_append]
  exact (ByteArray.extract_append_size_add (i := 0)).trans (ByteArray.extract_append_eq_left rfl)

/-! ## The first place of a pattern -/

/-- The place where a pattern stands first. -/
def firstPlace? (pattern : List Char) : List Char → Option Nat
  | [] => if pattern.isEmpty then some 0 else none
  | c :: rest =>
      if pattern.isPrefixOf (c :: rest) then some 0
      else (firstPlace? pattern rest).map (c.utf8Size + ·)

/-- A pattern stands nowhere in a text. -/
def Absent (pattern text : List Char) : Prop :=
  ∀ before after, text ≠ before ++ (pattern ++ after)

/-- The pattern stands between two parts of the text, and nowhere before. -/
structure FirstAt (pattern text before after : List Char) : Prop where
  text_eq : text = before ++ (pattern ++ after)
  least : ∀ earlier rest, text = earlier ++ (pattern ++ rest) → before.length ≤ earlier.length

section First

variable {pattern text before after : List Char} {c : Char}

theorem Absent.not_prefix (absent : Absent pattern text) : ¬ pattern.isPrefixOf text = true := by
  rw [List.isPrefixOf_iff_prefix]
  rintro ⟨after, whole⟩
  exact absent [] after whole.symm

theorem Absent.tail (absent : Absent pattern (c :: text)) : Absent pattern text := fun before after whole =>
  absent (c :: before) after (by rw [whole, List.cons_append])

/-- A pattern that begins a text stands first there. -/
theorem exists_firstAt_of_prefix (begins : pattern <+: text) : ∃ after, FirstAt pattern text [] after := by
  obtain ⟨after, whole⟩ := begins
  exact ⟨after, whole.symm, fun _ _ _ => Nat.zero_le _⟩

/-- A pattern that does not begin a text stands first where it does in the rest of the text. -/
theorem FirstAt.cons (other : ¬ pattern <+: c :: text) (first : FirstAt pattern text before after) :
    FirstAt pattern (c :: text) (c :: before) after where
  text_eq := by rw [first.text_eq, List.cons_append]
  least earlier rest whole := by
    cases earlier with
    | nil => exact absurd ⟨rest, whole.symm⟩ other
    | cons d earlier =>
        have tails := (List.cons.inj whole).2
        exact Nat.succ_le_succ (first.least earlier rest tails)

/-- A pattern stands nowhere in a text, or it stands somewhere first. -/
theorem absent_or_firstAt (pattern text : List Char) :
    Absent pattern text ∨ ∃ before after, FirstAt pattern text before after := by
  induction text with
  | nil =>
      by_cases begins : pattern <+: []
      · exact .inr ⟨[], exists_firstAt_of_prefix begins⟩
      · refine .inl fun before after whole => begins ?_
        obtain ⟨-, rest⟩ := List.append_eq_nil_iff.1 whole.symm
        exact ⟨after, rest⟩
  | cons c text ih =>
      by_cases begins : pattern <+: c :: text
      · exact .inr ⟨[], exists_firstAt_of_prefix begins⟩
      · rcases ih with absent | ⟨before, after, first⟩
        · refine .inl fun before after whole => ?_
          cases before with
          | nil => exact begins ⟨after, whole.symm⟩
          | cons d before => exact absent before after (List.cons.inj whole).2
        · exact .inr ⟨c :: before, after, first.cons begins⟩

/-- The walk of a search: the pattern begins the text, or it does not and is found in the rest. -/
@[elab_as_elim]
theorem FirstAt.walk {motive : List Char → List Char → Prop} (here : motive (pattern ++ after) [])
    (later : ∀ c text before, ¬ pattern.isPrefixOf (c :: text) = true → motive text before →
      motive (c :: text) (c :: before))
    (first : FirstAt pattern text before after) : motive text before := by
  induction before generalizing text with
  | nil =>
      rw [first.text_eq]
      exact here
  | cons d before ih =>
      cases text with
      | nil => cases first.text_eq
      | cons c text =>
          obtain ⟨rfl, whole⟩ := List.cons.inj first.text_eq
          have other : ¬ pattern.isPrefixOf (c :: text) = true := by
            rw [List.isPrefixOf_iff_prefix]
            rintro ⟨rest, begins⟩
            exact absurd (first.least [] rest begins.symm) (Nat.not_succ_le_zero _)
          have rest : FirstAt pattern text before after :=
            { text_eq := whole
              least := fun earlier rest tail =>
                Nat.le_of_succ_le_succ (first.least (c :: earlier) rest (by rw [tail, List.cons_append])) }
          exact later c text before other (ih rest)

theorem firstPlace?_eq_none (absent : Absent pattern text) : firstPlace? pattern text = none := by
  induction text with
  | nil => exact if_neg (mt List.isEmpty_iff.1 fun empty => absent [] [] (by rw [empty]; rfl))
  | cons c text ih =>
      rw [firstPlace?, if_neg absent.not_prefix, ih absent.tail]
      rfl

theorem firstPlace?_of_firstAt (first : FirstAt pattern text before after) :
    firstPlace? pattern text = some (Utf8.size (String.ofList before)) := by
  refine FirstAt.walk ?_ (fun c text before other found => ?_) first
  · cases whole : pattern ++ after with
    | nil =>
        obtain ⟨rfl, -⟩ := List.append_eq_nil_iff.1 whole
        rfl
    | cons c text => exact if_pos (List.isPrefixOf_iff_prefix.2 ⟨after, whole⟩)
  · rw [firstPlace?, if_neg other, found, Utf8.size_ofList_cons]
    rfl

end First

/-! ## The last place of a character -/

/-- The place where a character stands last. -/
def lastPlace? (mark : Char) : List Char → Option Nat
  | [] => none
  | c :: rest =>
      match lastPlace? mark rest with
      | some place => some (c.utf8Size + place)
      | none => if c = mark then some 0 else none

section Last

variable {mark : Char} {tail : List Char}

theorem lastPlace?_eq_none (free : mark ∉ tail) : lastPlace? mark tail = none := by
  induction tail with
  | nil => rfl
  | cons c tail ih =>
      rw [List.mem_cons, not_or] at free
      rw [lastPlace?, ih free.2]
      exact if_neg (Ne.symm free.1)

theorem lastPlace?_append (free : mark ∉ tail) (before : List Char) :
    lastPlace? mark (before ++ mark :: tail) = some (Utf8.size (String.ofList before)) := by
  induction before with
  | nil =>
      rw [List.nil_append, lastPlace?, lastPlace?_eq_none free]
      exact if_pos rfl
  | cons c before ih => rw [List.cons_append, lastPlace?, ih, Utf8.size_ofList_cons]

end Last

end Text
end TokenSchema
