import Mathlib.Data.List.TakeWhile
import TokenSchema.Proofs.Schema.Date
import TokenSchema.Proofs.Text.Place
import TokenSchema.Schema.Namespace

/-!
# Schema namespaces — the date that is found in one, and how it is judged

The date of a namespace stands right behind the first base address, and the last slash of the namespace right behind
the date (`Dated`, `namespaceDate_eq_some_iff`). It can be cut out by places, and no cut misses the text or a character
(`dateByPlaces_eq`). A date is judged by the newest schema of the reader: what is newer is refused, what is older is
out of date, which holds of whatever is below the minimum, and what a reader takes is taken by every newer one
(`versionOf_dated`).
-/

namespace TokenSchema
namespace Schema

/-! ## Slashes and base addresses -/

section Parts

variable {cs front tail : List Char}

/-- The last slash of a text that has one. -/
theorem exists_last_slash (member : '/' ∈ cs) : ∃ front tail, cs = front ++ '/' :: tail ∧ '/' ∉ tail := by
  obtain ⟨tail, front, whole, free⟩ := List.eq_append_cons_of_mem (List.mem_reverse.2 member)
  refine ⟨front.reverse, tail.reverse, ?_, mt List.mem_reverse.1 free⟩
  rw [← List.reverse_reverse cs, whole, List.reverse_append, List.reverse_cons, List.append_assoc,
    List.singleton_append]

theorem ne_slash_of_mem_reverse (free : '/' ∉ cs) : ∀ c ∈ cs.reverse, (c != '/') = true := by
  intro c member
  rw [bne_iff_ne]
  exact ne_of_mem_of_not_mem (List.mem_reverse.1 member) free

theorem beforeLastSlash_append (free : '/' ∉ tail) : beforeLastSlash (front ++ '/' :: tail) = some front := by
  have stopped : (front ++ '/' :: tail).reverse.dropWhile (· != '/') = '/' :: front.reverse := by
    rw [List.reverse_append, List.reverse_cons, List.append_assoc,
      List.dropWhile_append_of_pos (ne_slash_of_mem_reverse free)]
    rfl
  rw [beforeLastSlash, stopped]
  exact congrArg some (List.reverse_reverse front)

theorem beforeLastSlash_eq_none (free : '/' ∉ cs) : beforeLastSlash cs = none := by
  rw [beforeLastSlash, List.dropWhile_eq_nil_iff.2 (ne_slash_of_mem_reverse free)]

end Parts

section First

variable {pattern text before after : List Char}

theorem afterFirst_eq_none (absent : Text.Absent pattern text) : afterFirst pattern text = none := by
  induction text with
  | nil => exact if_neg (mt List.isEmpty_iff.1 fun empty => absent [] [] (by rw [empty]; rfl))
  | cons c text ih =>
      rw [afterFirst, if_neg absent.not_prefix]
      exact ih absent.tail

theorem afterFirst_of_firstAt (first : Text.FirstAt pattern text before after) :
    afterFirst pattern text = some after := by
  refine Text.FirstAt.walk ?_ (fun c text before other found => ?_) first
  · cases whole : pattern ++ after with
    | nil =>
        obtain ⟨rfl, rfl⟩ := List.append_eq_nil_iff.1 whole
        rfl
    | cons c text =>
        rw [afterFirst, if_pos (List.isPrefixOf_iff_prefix.2 ⟨after, whole⟩), ← whole, List.drop_left]
  · rw [afterFirst, if_neg other, found]

end First

/-! ## The date -/

/-- A namespace has a date: it follows the first base address, in seven bytes, and the last slash follows it. -/
def Dated (name : String) (date : SchemaDate) : Prop :=
  ∃ before seven tail : List Char,
    Text.FirstAt baseAddress.toList name.toList before (seven ++ '/' :: tail) ∧ '/' ∉ tail ∧
      Text.Utf8.size (String.ofList seven) = 7 ∧ SchemaDate.parse (String.ofList seven) = some date

variable {name : String} {date : SchemaDate}

/-- What stands between the first base address and the last slash of its rest is read as the date. -/
theorem namespaceDate_of_last_slash {before front tail : List Char}
    (first : Text.FirstAt baseAddress.toList name.toList before (front ++ '/' :: tail)) (free : '/' ∉ tail) :
    namespaceDate name = SchemaDate.parse (String.ofList front) := by
  rw [namespaceDate, afterFirst_of_firstAt first]
  exact congrArg (· >>= _) (beforeLastSlash_append free)

/-- What a namespace can look like, and the date it has then. -/
theorem namespaceDate_cases (name : String) :
    (Text.Absent baseAddress.toList name.toList ∧ namespaceDate name = none) ∨
      (∃ before after, Text.FirstAt baseAddress.toList name.toList before after ∧ '/' ∉ after ∧
        namespaceDate name = none) ∨
      ∃ before front tail, Text.FirstAt baseAddress.toList name.toList before (front ++ '/' :: tail) ∧
        '/' ∉ tail ∧ namespaceDate name = SchemaDate.parse (String.ofList front) := by
  rcases Text.absent_or_firstAt baseAddress.toList name.toList with absent | ⟨before, after, first⟩
  · refine .inl ⟨absent, ?_⟩
    rw [namespaceDate, afterFirst_eq_none absent]
    rfl
  · by_cases slash : '/' ∈ after
    · obtain ⟨front, tail, rfl, free⟩ := exists_last_slash slash
      exact .inr (.inr ⟨before, front, tail, first, free, namespaceDate_of_last_slash first free⟩)
    · refine .inr (.inl ⟨before, after, first, slash, ?_⟩)
      rw [namespaceDate, afterFirst_of_firstAt first]
      exact congrArg (· >>= _) (beforeLastSlash_eq_none slash)

theorem namespaceDate_eq_some_iff : namespaceDate name = some date ↔ Dated name date := by
  constructor
  · intro found
    rcases namespaceDate_cases name with ⟨-, none⟩ | ⟨_, _, -, -, none⟩ | ⟨before, front, tail, first, free, read⟩
    · cases none.symm.trans found
    · cases none.symm.trans found
    · have parsed := read.symm.trans found
      exact ⟨before, front, tail, first, free, SchemaDate.size_of_parse parsed, parsed⟩
  · rintro ⟨before, seven, tail, first, free, -, read⟩
    exact (namespaceDate_of_last_slash first free).trans read

theorem namespaceDate_eq_none_iff : namespaceDate name = none ↔ ¬ ∃ date, Dated name date := by
  rw [Option.eq_none_iff_forall_ne_some, not_exists]
  exact forall_congr' fun date => not_congr namespaceDate_eq_some_iff

/-! ## Places -/

/-- The date of a namespace, cut out by places: from behind the first base address up to the last slash. -/
def dateByPlaces (name : String) : Except Text.CutFault (Option SchemaDate) :=
  match Text.firstPlace? baseAddress.toList name.toList, Text.lastPlace? '/' name.toList with
  | some first, some separator =>
      let start := first + Text.Utf8.size baseAddress
      if separator < start ∨ separator - start ≠ 7 then .ok none
      else (Text.cut name start separator).map SchemaDate.parse
  | _, _ => .ok none

/-- A slash behind the first base address: what stands before the last one is cut out if it has seven bytes, and only
then it can be a date. -/
theorem dateByPlaces_of_last_slash {before front tail : List Char}
    (first : Text.FirstAt baseAddress.toList name.toList before (front ++ '/' :: tail)) (free : '/' ∉ tail) :
    dateByPlaces name = .ok (SchemaDate.parse (String.ofList front)) := by
  have last : Text.lastPlace? '/' name.toList =
      some (Text.Utf8.size (String.ofList before) + Text.Utf8.size baseAddress +
        Text.Utf8.size (String.ofList front)) := by
    have whole : name.toList = (before ++ baseAddress.toList ++ front) ++ '/' :: tail := by
      rw [first.text_eq, List.append_assoc, List.append_assoc]
    rw [whole, Text.lastPlace?_append free, Text.Utf8.size_ofList_append, Text.Utf8.size_ofList_append,
      String.ofList_toList]
  have piece : Text.cut name (Text.Utf8.size (String.ofList before) + Text.Utf8.size baseAddress)
      (Text.Utf8.size (String.ofList before) + Text.Utf8.size baseAddress +
        Text.Utf8.size (String.ofList front)) = .ok (String.ofList front) := by
    have pieces : name = (String.ofList before ++ baseAddress) ++
        (String.ofList front ++ String.ofList ('/' :: tail)) := by
      rw [← String.toList_inj]
      simp only [String.toList_append, String.toList_ofList, first.text_eq, List.append_assoc]
    rw [pieces, ← Text.Utf8.size_append]
    exact Text.cut_append _ _ _
  rw [dateByPlaces, Text.firstPlace?_of_firstAt first, last]
  simp only []
  split
  · rename_i misplaced
    cases read : SchemaDate.parse (String.ofList front) with
    | none => rfl
    | some date =>
        have seven := SchemaDate.size_of_parse read
        omega
  · rw [piece]
    rfl

/-- The last slash is in the base address if none follows it, for the base address ends with one. -/
theorem dateByPlaces_of_no_slash {before after : List Char}
    (first : Text.FirstAt baseAddress.toList name.toList before after) (free : '/' ∉ after) :
    dateByPlaces name = .ok none := by
  obtain ⟨front, ends⟩ : ∃ front, baseAddress.toList = front ++ ['/'] :=
    ⟨baseAddress.toList.dropLast, by decide +kernel⟩
  have whole : name.toList = (before ++ front) ++ '/' :: after := by
    rw [first.text_eq, ends, List.append_assoc, List.append_assoc]
    rfl
  have early : Text.Utf8.size (String.ofList front) < Text.Utf8.size baseAddress := by
    rw [← String.ofList_toList (s := baseAddress), ends, Text.Utf8.size_ofList_append]
    exact Nat.lt_add_of_pos_right (by decide +kernel)
  have last := Text.lastPlace?_append free (before ++ front)
  rw [← whole, Text.Utf8.size_ofList_append] at last
  rw [dateByPlaces, Text.firstPlace?_of_firstAt first, last]
  exact if_pos (.inl (by omega))

/-- The date that is cut out is the date of the namespace: no cut misses the text or a character. -/
theorem dateByPlaces_eq (name : String) : dateByPlaces name = .ok (namespaceDate name) := by
  rcases namespaceDate_cases name with ⟨absent, date⟩ | ⟨before, after, first, free, date⟩ |
    ⟨before, front, tail, first, free, date⟩
  · rw [dateByPlaces, Text.firstPlace?_eq_none absent, date]
  · rw [dateByPlaces_of_no_slash first free, date]
  · rw [dateByPlaces_of_last_slash first free, date]

/-! ## The judgement -/

variable {options : ReaderOptions} {version : SchemaVersion}

theorem minimum_ne_gt_of_readerOptions {settings : Settings} (made : settings.readerOptions = .ok options) :
    options.minimum.compare options.current ≠ .gt := by
  simp only [Settings.readerOptions] at made
  split at made
  · cases made
  · split at made
    · cases made
    · split at made
      · cases made
      · rename_i window
        cases made
        exact window

theorem versionOf_of_not_dated (other : name ≠ attestationNamespace) (undated : ¬ ∃ date, Dated name date) :
    versionOf name options = .error (.malformedNamespace name) := by
  rw [versionOf, if_neg other, namespaceDate_eq_none_iff.2 undated]

theorem versionOf_of_dated (other : name ≠ attestationNamespace) (dated : Dated name date) :
    versionOf name options =
      match date.compare options.current with
      | .eq => .ok ⟨some date, .current, options.minimum⟩
      | .lt => .ok ⟨some date, .outOfDate, options.minimum⟩
      | .gt => .error (.newerSchema date.text options.current.text) := by
  have found := namespaceDate_eq_some_iff.2 dated
  cases order : date.compare options.current <;> simp only [versionOf, if_neg other, found, order]

theorem versionOf_eq_malformed_iff (other : name ≠ attestationNamespace) :
    versionOf name options = .error (.malformedNamespace name) ↔ ¬ ∃ date, Dated name date := by
  refine ⟨?_, versionOf_of_not_dated other⟩
  rintro malformed ⟨date, dated⟩
  rw [versionOf_of_dated other dated] at malformed
  split at malformed <;> cases malformed

/-- A reader takes the namespaces whose date is no newer than the reader. -/
theorem exists_versionOf_iff (other : name ≠ attestationNamespace) :
    (∃ version, versionOf name options = .ok version) ↔
      ∃ date, Dated name date ∧ date.compare options.current ≠ .gt := by
  constructor
  · rintro ⟨version, taken⟩
    by_cases found : ∃ date, Dated name date
    · obtain ⟨date, dated⟩ := found
      refine ⟨date, dated, fun newer => ?_⟩
      rw [versionOf_of_dated other dated, newer] at taken
      cases taken
    · rw [versionOf_of_not_dated other found] at taken
      cases taken
  · rintro ⟨date, dated, old⟩
    rw [versionOf_of_dated other dated]
    split
    · exact ⟨_, rfl⟩
    · exact ⟨_, rfl⟩
    · contradiction

/-- What is below the minimum is older than the reader, since the window of a reader is not empty. -/
theorem status_of_isBelowMinimum (other : name ≠ attestationNamespace)
    (window : options.minimum.compare options.current ≠ .gt) (taken : versionOf name options = .ok version)
    (below : version.isBelowMinimum = true) : version.status = .outOfDate := by
  obtain ⟨date, dated, -⟩ := (exists_versionOf_iff other).1 ⟨version, taken⟩
  rw [versionOf_of_dated other dated] at taken
  split at taken
  · rename_i same
    cases taken
    have early : date.compare options.minimum = .lt := eq_of_beq below
    rw [SchemaDate.compare_eq_lt_of_lt_of_ne_gt early window] at same
    cases same
  · cases taken
    rfl
  · cases taken

/-- How a schema namespace is judged. -/
theorem versionOf_dated {settings : Settings} (made : settings.readerOptions = .ok options)
    (other : name ≠ attestationNamespace) :
    dateByPlaces name = .ok (namespaceDate name) ∧
      (versionOf name options = .error (.malformedNamespace name) ↔ ¬ ∃ date, Dated name date) ∧
      (∀ date, Dated name date →
        (date.compare options.current = .gt →
          versionOf name options = .error (.newerSchema date.text options.current.text)) ∧
        (date = options.current → versionOf name options = .ok ⟨some date, .current, options.minimum⟩) ∧
        (date.compare options.current = .lt →
          versionOf name options = .ok ⟨some date, .outOfDate, options.minimum⟩)) ∧
      (∀ version, versionOf name options = .ok version → version.isBelowMinimum = true →
        version.status = .outOfDate) ∧
      ∀ newer : ReaderOptions, options.current.compare newer.current ≠ .gt →
        (∃ version, versionOf name options = .ok version) → ∃ version, versionOf name newer = .ok version := by
  refine ⟨dateByPlaces_eq name, versionOf_eq_malformed_iff other, fun date dated => ?_, fun version => ?_,
    fun newer later taken => ?_⟩
  · rw [versionOf_of_dated other dated, ← SchemaDate.compare_eq_eq_iff]
    refine ⟨fun order => ?_, fun order => ?_, fun order => ?_⟩ <;> rw [order]
  · exact status_of_isBelowMinimum other (minimum_ne_gt_of_readerOptions made)
  · obtain ⟨date, dated, old⟩ := (exists_versionOf_iff other).1 taken
    exact (exists_versionOf_iff other).2 ⟨date, dated, SchemaDate.compare_ne_gt_trans old later⟩

/-- A namespace with letters of two bytes, and with a date before the oldest supported schema. -/
def springNamespace : String := "é http://tokenscript.org/2020/03/ü"

theorem versionOf_dated_spring :
    dateByPlaces springNamespace = .ok (some ⟨2020, 3⟩) ∧
      versionOf springNamespace ⟨"en", ⟨2020, 6⟩, ⟨2024, 1⟩⟩ =
        .ok ⟨some ⟨2020, 3⟩, .outOfDate, ⟨2020, 6⟩⟩ := by
  have made : Settings.standard.readerOptions = .ok ⟨"en", ⟨2020, 6⟩, ⟨2024, 1⟩⟩ := by decide +kernel
  have found : namespaceDate springNamespace = some ⟨2020, 3⟩ := by decide +kernel
  have other : springNamespace ≠ attestationNamespace := by decide +kernel
  obtain ⟨cutOut, -, judged, -⟩ := versionOf_dated made other
  exact ⟨found ▸ cutOut, (judged _ (namespaceDate_eq_some_iff.1 found)).2.2 (by decide +kernel)⟩

end Schema
end TokenSchema
