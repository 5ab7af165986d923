import TokenSchema.Document.Localised

/-!
# Localised elements — one pass with two fallbacks

Of several elements the first in the reader's language is taken, else the first without a language or in English, else
the first of all (`Takes`). One pass from the front does it: it ends at an element in the language, and notes until
then the first of the others that it would fall back to (`pickPassing_eq`). So the order in which the languages come
does not matter beyond that, and an element is taken wherever there is one (`pickLocalised_takes`).
-/

namespace TokenSchema
namespace Document

open TokenSchema.Markup

/-! ## One pass -/

/-- What a pass falls back to: the first neutral element, and the first of all. -/
structure Fallback where
  neutral : Option Element
  first : Option Element

/-- Note an element in another language; what is noted already stays. -/
def Fallback.note (f : Fallback) (e : Element) : Fallback :=
  { neutral := if f.neutral.isNone && isNeutral e then some e else f.neutral
    first := if f.first.isNone then some e else f.first }

/-- The element that a pass takes among those before it. -/
def pickPassing (language : String) (f : Fallback) : List Element → Option Element
  | [] => f.neutral.or f.first
  | e :: rest => if e.language = language then some e else pickPassing language (f.note e) rest

variable {language : String} {candidates : List Element} {e : Element}

theorem Fallback.neutral_note (f : Fallback) (e : Element) :
    (f.note e).neutral = f.neutral.or (if isNeutral e then some e else none) := by
  cases neutral : f.neutral <;> simp [note, neutral]

theorem Fallback.first_note (f : Fallback) (e : Element) : (f.note e).first = f.first.or (some e) := by
  cases first : f.first <;> simp [note, first]

/-- A pass falls back to what it has noted, and only else to what it notes from here on. -/
theorem pickPassing_eq (language : String) (f : Fallback) (candidates : List Element) :
    pickPassing language f candidates =
      (candidates.find? (·.language == language)).or
        ((f.neutral.or (candidates.find? isNeutral)).or (f.first.or candidates.head?)) := by
  -- What is noted grows on the way, so it varies in the induction.
  induction candidates generalizing f with
  | nil => simp [pickPassing]
  | cons e rest ih =>
      rw [pickPassing]
      split
      · rename_i own
        have found : (e :: rest).find? (·.language == language) = some e :=
          List.find?_cons_of_pos (beq_iff_eq.2 own)
        rw [found, Option.some_or]
      · rename_i foreign
        have passed : (e :: rest).find? (·.language == language) = rest.find? (·.language == language) :=
          List.find?_cons_of_neg (mt beq_iff_eq.1 foreign)
        have noted : f.neutral.or (List.find? isNeutral (e :: rest)) =
            (f.note e).neutral.or (rest.find? isNeutral) := by
          rw [f.neutral_note, Option.or_assoc]
          cases neutral : isNeutral e <;> simp [neutral]
        have headed : f.first.or (e :: rest).head? = (f.note e).first.or rest.head? := by
          rw [f.first_note, Option.or_assoc]
          rfl
        rw [ih, passed, noted, headed]

/-! ## What is taken -/

/-- The first element of a sort: it is of the sort, and none before it is. -/
def IsFirst (sort : Element → Prop) (candidates : List Element) (e : Element) : Prop :=
  ∃ before after, candidates = before ++ e :: after ∧ sort e ∧ ∀ other ∈ before, ¬ sort other

/-- Which of several elements is taken: the first one in the language; without one, the first one in no language or in
English; without any of these, the first one. -/
inductive Takes (language : String) (candidates : List Element) (e : Element) : Prop where
  | own : IsFirst (·.language = language) candidates e → Takes language candidates e
  | neutral : (∀ other ∈ candidates, other.language ≠ language) →
      IsFirst (fun x => x.language = "" ∨ x.language = "en") candidates e → Takes language candidates e
  | first : (∀ other ∈ candidates, other.language ≠ language) →
      (∀ other ∈ candidates, other.language ≠ "" ∧ other.language ≠ "en") →
      IsFirst (fun _ => True) candidates e → Takes language candidates e

theorem find?_eq_some_iff_isFirst {p : Element → Bool} {sort : Element → Prop} (same : ∀ x, p x = true ↔ sort x) :
    candidates.find? p = some e ↔ IsFirst sort candidates e := by
  rw [List.find?_eq_some_iff_append, IsFirst]
  simp only [Bool.not_eq_true', ← Bool.not_eq_true, same]
  constructor
  · rintro ⟨own, before, after, whole, others⟩
    exact ⟨before, after, whole, own, others⟩
  · rintro ⟨before, after, whole, own, others⟩
    exact ⟨own, before, after, whole, others⟩

theorem isNeutral_iff (e : Element) : isNeutral e = true ↔ e.language = "" ∨ e.language = "en" := by
  simp [isNeutral]

theorem head?_eq_some_iff_isFirst : candidates.head? = some e ↔ IsFirst (fun _ => True) candidates e := by
  rw [List.head?_eq_some_iff, IsFirst]
  constructor
  · rintro ⟨after, whole⟩
    exact ⟨[], after, whole, trivial, nofun⟩
  · rintro ⟨before, after, whole, -, others⟩
    cases before with
    | nil => exact ⟨after, whole⟩
    | cons x _ => exact absurd trivial (others x List.mem_cons_self)

theorem pickLocalised_eq_some_iff : pickLocalised language candidates = some e ↔ Takes language candidates e := by
  have own : ∀ x : Element, (x.language == language) = true ↔ x.language = language := fun _ => beq_iff_eq
  rw [pickLocalised, Option.or_eq_some_iff, Option.or_eq_some_iff, List.find?_eq_none, List.find?_eq_none,
    find?_eq_some_iff_isFirst own, find?_eq_some_iff_isFirst isNeutral_iff, head?_eq_some_iff_isFirst]
  simp only [own, isNeutral_iff, not_or]
  constructor
  · rintro (first | ⟨foreign, first | ⟨other, first⟩⟩)
    · exact .own first
    · exact .neutral foreign first
    · exact .first foreign other first
  · rintro (first | ⟨foreign, first⟩ | ⟨foreign, other, first⟩)
    · exact .inl first
    · exact .inr ⟨foreign, .inl first⟩
    · exact .inr ⟨foreign, .inr ⟨other, first⟩⟩

theorem pickLocalised_eq_none_iff : pickLocalised language candidates = none ↔ candidates = [] := by
  rw [pickLocalised, Option.or_eq_none_iff, Option.or_eq_none_iff, List.head?_eq_none_iff]
  constructor
  · rintro ⟨-, -, empty⟩
    exact empty
  · rintro rfl
    exact ⟨rfl, rfl, rfl⟩

/-- One pass over the elements takes the one to be taken, and none only where there is none. -/
theorem pickLocalised_takes (language : String) (candidates : List Element) :
    pickPassing language ⟨none, none⟩ candidates = pickLocalised language candidates ∧
      (∀ e, pickLocalised language candidates = some e ↔ Takes language candidates e) ∧
      (pickLocalised language candidates = none ↔ candidates = []) := by
  refine ⟨?_, fun e => pickLocalised_eq_some_iff, pickLocalised_eq_none_iff⟩
  rw [pickPassing_eq, pickLocalised, Option.none_or, Option.none_or]

end Document
end TokenSchema
