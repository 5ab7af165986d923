import TokenSchema.Proofs.Json.Lexical

/-!
# Reading what is written — every value of JSON has one compact form, and it is read as the value

A value that a record can be written as has no foreign parts (`Json.Plain`). Its compact form is read back whatever
follows, as long as that does not go on with a number (`Json.ReadsBack`, `Json.Plain.readsBack`), and the fuel that
the reader sets aside is enough; so the whole text is read as the value (`Json.Plain.read_render`).
-/

namespace TokenSchema
namespace Json

/-- A value without foreign parts. -/
inductive Plain : Json → Prop where
  | null : Plain .null
  | bool (b : Bool) : Plain (.bool b)
  | integer (z : Int) : Plain (.integer z)
  | string (s : String) : Plain (.string s)
  | array {items : List Json} (each : ∀ j ∈ items, Plain j) : Plain (.array items)
  | object {fields : List (String × Json)} (each : ∀ f ∈ fields, Plain f.2) : Plain (.object fields)

attribute [simp] Plain.null Plain.bool Plain.integer Plain.string

@[simp] theorem plain_array {items : List Json} : Plain (.array items) ↔ ∀ j ∈ items, Plain j :=
  ⟨fun | .array each => each, .array⟩

@[simp] theorem plain_object {fields : List (String × Json)} :
    Plain (.object fields) ↔ ∀ f ∈ fields, Plain f.2 :=
  ⟨fun | .object each => each, .object⟩

/-- The written form of a value is read as the value, up to its end. -/
def ReadsBack (j : Json) : Prop :=
  ∀ fuel rest, EndsNumber rest → 2 * (renderChars j).length ≤ fuel →
    readValue fuel (renderChars j ++ rest) = some (j, rest)

variable {fuel : Nat} {rest : List Char}

/-! ## What follows a value -/

theorem endsNumber_nil : EndsNumber [] := by
  simp [EndsNumber]

theorem endsNumber_comma (rest : List Char) : EndsNumber (',' :: rest) := by
  simp [EndsNumber, Text.isDigit]

theorem endsNumber_bracket (rest : List Char) : EndsNumber (']' :: rest) := by
  simp [EndsNumber, Text.isDigit]

theorem endsNumber_brace (rest : List Char) : EndsNumber ('\x7d' :: rest) := by
  simp [EndsNumber, Text.isDigit]

theorem skipSpace_cons {c : Char} (solid : Markup.isSpace c = false) :
    skipSpace (c :: rest) = c :: rest := by
  simp [skipSpace, solid]

/-! ## How a value begins -/

/-- How an integer begins. -/
def StartsNumber (c : Char) : Prop :=
  Text.isDigit c = true ∨ c = '-'

theorem exists_signedDecimal_eq (z : Int) :
    ∃ c cs, (Text.signedDecimal z).toList = c :: cs ∧ StartsNumber c := by
  rw [Text.toList_signedDecimal]
  split
  · exact ⟨'-', _, rfl, .inr rfl⟩
  · obtain ⟨c, cs, digits⟩ := List.exists_cons_of_ne_nil (Nat.toDigits_ne_nil (n := z.natAbs) (b := 10))
    exact ⟨c, cs, digits, .inl (Text.isDigit_of_mem_toDigits (n := z.natAbs) (by simp [digits]))⟩

theorem StartsNumber.ne {c d : Char} (starts : StartsNumber c) (notDigit : Text.isDigit d = false)
    (notMinus : d ≠ '-') : c ≠ d := by
  rcases starts with digit | rfl
  · exact Text.ne_of_isDigit digit notDigit
  · exact notMinus.symm

theorem StartsNumber.isSpace_eq_false {c : Char} (starts : StartsNumber c) : Markup.isSpace c = false := by
  have space := starts.ne (d := ' ') rfl (by decide)
  have tab := starts.ne (d := '\t') rfl (by decide)
  have feed := starts.ne (d := '\n') rfl (by decide)
  have ret := starts.ne (d := '\r') rfl (by decide)
  simp [Markup.isSpace, space, tab, feed, ret]

/-- A value does not begin with a blank, nor as an array ends. -/
theorem Plain.exists_renderChars_eq {j : Json} (plain : j.Plain) :
    ∃ c cs, renderChars j = c :: cs ∧ Markup.isSpace c = false ∧ c ≠ ']' := by
  cases plain with
  | null => exact ⟨'n', _, by rw [renderChars]; rfl, rfl, by decide⟩
  | bool b =>
      cases b
      · exact ⟨'f', _, by rw [renderChars]; rfl, rfl, by decide⟩
      · exact ⟨'t', _, by rw [renderChars]; rfl, rfl, by decide⟩
  | integer z =>
      obtain ⟨c, cs, written, starts⟩ := exists_signedDecimal_eq z
      exact ⟨c, cs, by rw [renderChars, written], starts.isSpace_eq_false, starts.ne rfl (by decide)⟩
  | string s => exact ⟨'\"', _, by rw [renderChars, renderText], rfl, by decide⟩
  | array => exact ⟨'[', _, by rw [renderChars], rfl, by decide⟩
  | object => exact ⟨'\x7b', _, by rw [renderChars], rfl, by decide⟩

theorem readValue_number {c : Char} {cs : List Char} (starts : StartsNumber c) :
    readValue (fuel + 1) (c :: cs) = readNumber (c :: cs) := by
  rw [readValue, skipSpace_cons starts.isSpace_eq_false]
  split
  all_goals first
    | rfl
    | rename_i same
      obtain ⟨rfl, -⟩ := List.cons.inj same
      exact absurd rfl (starts.ne rfl (by decide))

theorem readValue_items {c : Char} {cs : List Char} (solid : Markup.isSpace c = false) (notEnd : c ≠ ']') :
    readValue (fuel + 1) ('[' :: c :: cs) =
      (readItems fuel (c :: cs)).map fun (items, rest) => (.array items, rest) := by
  rw [readValue, skipSpace_cons rfl]
  simp only [skipSpace_cons solid]
  split
  · rename_i same
    exact absurd (List.cons.inj same).1 notEnd
  · rfl

theorem readValue_fields {cs : List Char} :
    readValue (fuel + 1) ('\x7b' :: '\"' :: cs) = (readFields fuel ('\"' :: cs)).map fun (fields, after) =>
      (objectOf ('\x7b' :: textBetween ('\"' :: cs) after) fields, after) := by
  rw [readValue, skipSpace_cons rfl]
  simp only [skipSpace_cons (show Markup.isSpace '\"' = false from rfl)]
  rfl

/-! ## Items and fields -/

variable {items : List Json} {fields : List (String × Json)}

theorem renderItems_cons_cons (j k : Json) (items : List Json) :
    renderItems (j :: k :: items) = renderChars j ++ ',' :: renderItems (k :: items) := by
  rw [renderItems]

theorem renderFields_cons_cons (name : String) (j : Json) (f : String × Json) (fields : List (String × Json)) :
    renderFields ((name, j) :: f :: fields) =
      renderText name ++ ':' :: (renderChars j ++ ',' :: renderFields (f :: fields)) := by
  rw [renderFields]

/-- Items begin as the first of them does. -/
theorem exists_renderItems_eq (j : Json) (items : List Json) :
    ∃ more, renderItems (j :: items) = renderChars j ++ more := by
  cases items with
  | nil => exact ⟨[], by rw [renderItems, List.append_nil]⟩
  | cons k items => exact ⟨_, renderItems_cons_cons j k items⟩

/-- Fields begin with the quote of the first name. -/
theorem exists_renderFields_eq (f : String × Json) (fields : List (String × Json)) :
    ∃ more, renderFields (f :: fields) = '\"' :: more := by
  obtain ⟨name, j⟩ := f
  cases fields with
  | nil => exact ⟨_, by rw [renderFields, renderText, List.cons_append]⟩
  | cons k fields => exact ⟨_, by rw [renderFields_cons_cons, renderText, List.cons_append]⟩

/-- Items are read back if each is. -/
theorem readItems_renderItems (each : ∀ j ∈ items, ReadsBack j) (nonempty : items ≠ []) (rest : List Char)
    (enough : 2 * (renderItems items).length + 1 ≤ fuel) :
    readItems fuel (renderItems items ++ ']' :: rest) = some (items, rest) := by
  induction items generalizing fuel with
  | nil => exact absurd rfl nonempty
  | cons j others ih =>
      rw [List.forall_mem_cons] at each
      obtain ⟨fuel, rfl⟩ : ∃ n, fuel = n + 1 := ⟨fuel - 1, by omega⟩
      cases others with
      | nil =>
          have item : renderItems [j] = renderChars j := by rw [renderItems]
          rw [item] at enough ⊢
          rw [readItems, each.1 fuel _ (endsNumber_bracket rest) (by omega)]
          rfl
      | cons k others =>
          rw [renderItems_cons_cons] at enough ⊢
          simp only [List.length_append, List.length_cons] at enough
          have next := ih each.2 (by simp) (show 2 * (renderItems (k :: others)).length + 1 ≤ fuel by omega)
          rw [List.append_assoc, List.cons_append, readItems, each.1 fuel _ (endsNumber_comma _) (by omega)]
          simp [skipSpace_cons, Markup.isSpace, next]

/-- Fields are read back if the value of each is. -/
theorem readFields_renderFields (each : ∀ f ∈ fields, ReadsBack f.2) (nonempty : fields ≠ []) (rest : List Char)
    (enough : 2 * (renderFields fields).length + 1 ≤ fuel) :
    readFields fuel (renderFields fields ++ '\x7d' :: rest) =
      some (fields.map fun f => (some f.1, f.2), rest) := by
  induction fields generalizing fuel with
  | nil => exact absurd rfl nonempty
  | cons f others ih =>
      obtain ⟨name, j⟩ := f
      rw [List.forall_mem_cons] at each
      obtain ⟨value, each⟩ := each
      dsimp only at value
      obtain ⟨fuel, rfl⟩ : ∃ n, fuel = n + 1 := ⟨fuel - 1, by omega⟩
      cases others with
      | nil =>
          have field : renderFields [(name, j)] = renderText name ++ ':' :: renderChars j := by rw [renderFields]
          rw [field] at enough ⊢
          simp only [List.length_append, List.length_cons] at enough
          have read := value fuel _ (endsNumber_brace rest) (by omega)
          simp [readFields, renderText, skipSpace_cons, Markup.isSpace, readString_renderText, read]
      | cons k others =>
          rw [renderFields_cons_cons] at enough ⊢
          simp only [List.length_append, List.length_cons] at enough
          have next := ih each (by simp) (show 2 * (renderFields (k :: others)).length + 1 ≤ fuel by omega)
          have read := value fuel _
            (endsNumber_comma (renderFields (k :: others) ++ '\x7d' :: rest)) (by omega)
          simp [readFields, renderText, skipSpace_cons, Markup.isSpace, readString_renderText, read, next]

theorem objectOf_names (text : List Char) (fields : List (String × Json)) :
    objectOf text (fields.map fun f => (some f.1, f.2)) = .object fields := by
  have names : (fields.map fun f => (some f.1, f.2)).mapM (fun (f : Option String × Json) =>
      f.1.map (·, f.2)) = some fields := by
    induction fields with
    | nil => rfl
    | cons f fields ih =>
        rw [List.map_cons, List.mapM_cons, ih]
        rfl
  rw [objectOf, names]

/-! ## Values -/

/-- Since no written form is empty, there is fuel for a first step. -/
theorem Plain.readsBack_of_step {j : Json} (plain : j.Plain)
    (step : ∀ fuel rest, EndsNumber rest → 2 * (renderChars j).length ≤ fuel + 1 →
      readValue (fuel + 1) (renderChars j ++ rest) = some (j, rest)) : ReadsBack j := by
  intro fuel rest ends enough
  obtain ⟨c, cs, written, -⟩ := plain.exists_renderChars_eq
  obtain ⟨fuel, rfl⟩ : ∃ n, fuel = n + 1 := ⟨fuel - 1, by simp [written] at enough; omega⟩
  exact step fuel rest ends enough

theorem readsBack_array (plain : ∀ j ∈ items, j.Plain) (each : ∀ j ∈ items, ReadsBack j) :
    ReadsBack (.array items) := by
  refine (Plain.array plain).readsBack_of_step fun fuel rest _ enough => ?_
  rw [renderChars] at enough ⊢
  simp only [List.length_cons, List.length_append, List.length_nil] at enough
  cases items with
  | nil => simp [readValue, renderItems, skipSpace_cons, Markup.isSpace]
  | cons j others =>
      have read := readItems_renderItems each (by simp) rest
        (show 2 * (renderItems (j :: others)).length + 1 ≤ fuel by omega)
      -- The first item begins neither with a blank nor with the bracket of an empty array.
      obtain ⟨more, begins⟩ := exists_renderItems_eq j others
      obtain ⟨c, cs, first, solid, notEnd⟩ := (plain j List.mem_cons_self).exists_renderChars_eq
      rw [begins, first, List.cons_append, List.cons_append] at read
      rw [begins, first, List.cons_append, List.append_assoc, List.cons_append, List.cons_append,
        readValue_items solid notEnd]
      simp only [List.append_assoc, List.cons_append, List.nil_append] at read ⊢
      rw [read]
      rfl

theorem readsBack_object (plain : ∀ f ∈ fields, f.2.Plain) (each : ∀ f ∈ fields, ReadsBack f.2) :
    ReadsBack (.object fields) := by
  refine (Plain.object plain).readsBack_of_step fun fuel rest _ enough => ?_
  rw [renderChars] at enough ⊢
  simp only [List.length_cons, List.length_append, List.length_nil] at enough
  cases fields with
  | nil => simp [readValue, renderFields, skipSpace_cons, Markup.isSpace]
  | cons f others =>
      have read := readFields_renderFields each (by simp) rest
        (show 2 * (renderFields (f :: others)).length + 1 ≤ fuel by omega)
      obtain ⟨more, begins⟩ := exists_renderFields_eq f others
      rw [begins, List.cons_append] at read
      rw [begins, List.cons_append, List.append_assoc, List.cons_append, List.singleton_append,
        readValue_fields, read, Option.map_some]
      dsimp only
      rw [objectOf_names]

/-- Every value is read back, from the items and fields up. -/
theorem Plain.readsBack {j : Json} (plain : j.Plain) : ReadsBack j := by
  induction plain with
  | null =>
      refine Plain.null.readsBack_of_step fun fuel rest _ _ => ?_
      rw [renderChars]
      rfl
  | bool b =>
      refine (Plain.bool b).readsBack_of_step fun fuel rest _ _ => ?_
      cases b <;> rw [renderChars] <;> rfl
  | integer z =>
      refine (Plain.integer z).readsBack_of_step fun fuel rest ends _ => ?_
      obtain ⟨c, cs, written, starts⟩ := exists_signedDecimal_eq z
      rw [renderChars, written, List.cons_append, readValue_number starts, ← List.cons_append, ← written]
      exact readNumber_signedDecimal z ends
  | string s =>
      refine (Plain.string s).readsBack_of_step fun fuel rest _ _ => ?_
      simp [renderChars, renderText, readValue, skipSpace_cons, Markup.isSpace, readString_renderText]
  | array plain each => exact readsBack_array plain each
  | object plain each => exact readsBack_object plain each

/-- The compact form of a value is read as the value. -/
theorem Plain.read_render {j : Json} (plain : j.Plain) : read j.render = some j := by
  have value := plain.readsBack (2 * (renderChars j).length + 1) [] endsNumber_nil (by omega)
  rw [List.append_nil] at value
  simp [read, render, value, skipSpace]

end Json
end TokenSchema
