import TokenSchema.Proofs.Document.Members

/-!
# Mappings in documents — attributes that label bits of their token id

What is read of a mapping is a table in which the last option with a key and a label wins
(`Document.get?_optionTable`). An attribute whose one origin is its token id, with a mapping inside, ends up
with that table and no other source, whatever stands around it (`Document.readAttribute_of_mapsTokenId`). One
induction over the parts of the attribute carries this: before the origin nothing is known of labels
(`AttributeDraft.IsFresh`), after it they are those of the table (`AttributeDraft.HasLabels`).
-/

namespace TokenSchema

/-- Nothing but the token id gives the value of an attribute. -/
structure Attribute.IsPlain (a : Attribute) : Prop where
  noCall : a.call = none
  noEvent : a.event = none
  noLiteral : a.literal = none
  noReference : a.reference = none
  noEntry : a.userInput = false

namespace Document

open TokenSchema.Markup

/-! ## Options -/

/-- The options of a mapping, in document order. -/
def readOptions (language : String) (mapping : Element) :
    Except DocumentError (List (Nat × Option String)) :=
  (mapping.descendants.filter (·.label == "option")).mapM (readOption language)

/-- The label that options give to a key: that of the last option with this key and a label. -/
def lastLabel? (options : List (Nat × Option String)) (key : Nat) : Option String :=
  (options.filterMap fun o => if o.1 = key then o.2 else none).getLast?

theorem mem_of_lastLabel? {options : List (Nat × Option String)} {key : Nat} {label : String}
    (labelled : lastLabel? options key = some label) : (key, some label) ∈ options := by
  obtain ⟨⟨key', label'⟩, member, given⟩ := List.mem_filterMap.1 (List.mem_of_getLast? labelled)
  split at given
  · rename_i same
    cases same
    cases given
    exact member
  · cases given

/-- Add an option to a table of labels, if it has one. -/
def addOption (members : Std.TreeMap Nat String) (o : Nat × Option String) :
    Std.TreeMap Nat String :=
  match o.2 with
  | some label => members.insert o.1 label
  | none => members

/-- The table of the labels of options. -/
def optionTable (options : List (Nat × Option String)) : Std.TreeMap Nat String :=
  options.foldl addOption ∅

theorem readMapping_eq (language : String) (mapping : Element) :
    readMapping language mapping = (readOptions language mapping).map optionTable := by
  unfold readMapping readOptions optionTable
  generalize mapping.descendants.filter _ = elements
  generalize (∅ : Std.TreeMap Nat String) = members
  induction elements generalizing members with
  | nil => rfl
  | cons e rest ih =>
      rw [List.foldlM_cons, List.mapM_cons]
      cases readOption language e with
      | error cause => rfl
      | ok o =>
          obtain ⟨key, label⟩ := o
          cases label with
          | none =>
              refine (ih members).trans ?_
              cases rest.mapM (readOption language) <;> rfl
          | some label =>
              refine (ih (members.insert key label)).trans ?_
              cases rest.mapM (readOption language) <;> rfl

theorem get?_optionTable (options : List (Nat × Option String)) (key : Nat) :
    (optionTable options).get? key = lastLabel? options key := by
  unfold optionTable lastLabel?
  induction options using List.reverseRecOn with
  | nil => simp
  | append_singleton options o ih =>
      obtain ⟨last, label⟩ := o
      rw [List.foldl_append, List.filterMap_append, List.getLast?_append, ← ih]
      cases label with
      | none => simp [addOption]
      | some label =>
          simp only [List.foldl_cons, List.foldl_nil, addOption, Std.TreeMap.get?_eq_getElem?,
            Std.TreeMap.getElem?_insert]
          by_cases same : last = key
          · simp [same]
          · simp [same]

/-! ## Parts of an attribute -/

/-- The kind becomes that of a mapping where an element names the holding contract. -/
def AttributeDraft.atContract (a : AttributeDraft) (e : Element) : AttributeDraft :=
  if (e.tag.attribute? "contract").any (sameIgnoringCase · "holding-contract") then
    { a with value := { a.value with kind := .mapping } }
  else a

/-- What an element directly below an attribute says by its label. -/
def readLabelled (language : String) (d : Definition) (a : AttributeDraft) (e : Element) :
    Except DocumentError AttributeDraft :=
  if e.label = "type" then .ok { a with value := { a.value with form := readForm e } }
  else if e.label = "origins" then e.elements.foldlM (readAttributeOrigin language d) a
  else if e.label = "label" then
    match localisedChild language e with
    | some label => .ok { a with value := { a.value with label := label } }
    | none => .ok a
  else if e.label = "mapping" then (readMapping language e).map a.withMapping
  else .ok a

theorem readAttributePart_eq (language : String) (d : Definition) (a : AttributeDraft)
    (e : Element) :
    readAttributePart language d a e =
      readLabelled language d a e >>= fun a' => .ok (a'.atContract e) := by
  have atEnd (a' : AttributeDraft) :
      (if (e.tag.attribute? "contract").any (sameIgnoringCase · "holding-contract") then
        pure { a' with value := { a'.value with kind := .mapping } } else pure a' :
          Except DocumentError AttributeDraft) = .ok (a'.atContract e) := by
    unfold AttributeDraft.atContract
    split <;> rfl
  unfold readAttributePart readLabelled
  simp only [atEnd]
  split
  · rfl
  split
  · rfl
  split
  · cases localisedChild language e <;> rfl
  split
  · cases readMapping language e <;> rfl
  · rfl

theorem readLabelled_of_origins {language : String} {d : Definition} {part : Element}
    (isOrigins : part.label = "origins") (a : AttributeDraft) :
    readLabelled language d a part = part.elements.foldlM (readAttributeOrigin language d) a := by
  rw [readLabelled, if_neg (by simp [isOrigins]), if_pos isOrigins]

/-! ## The one origin -/

/-- Everything that lists of origins among these elements say. -/
def originsOf (parts : List Element) : List Element :=
  (parts.filter (·.label == "origins")).flatMap (·.elements)

theorem originsOf_cons_of_origins {part : Element} (isOrigins : part.label = "origins")
    (rest : List Element) : originsOf (part :: rest) = part.elements ++ originsOf rest := by
  simp [originsOf, isOrigins]

theorem originsOf_cons_of_ne {part : Element} (other : part.label ≠ "origins")
    (rest : List Element) : originsOf (part :: rest) = originsOf rest := by
  simp [originsOf, other]

theorem elements_of_originsOf_eq_nil {parts : List Element} (none : originsOf parts = [])
    {part : Element} (member : part ∈ parts) (isOrigins : part.label = "origins") :
    part.elements = [] := by
  simp only [originsOf, List.flatMap_eq_nil_iff, List.mem_filter] at none
  exact none part ⟨member, by simp [isOrigins]⟩

/-- An origin is the token id, with one mapping inside. -/
structure IsMappedTokenId (origin mapping : Element) : Prop where
  offChain : isChainElement origin = false
  label : origin.label = "token-id"
  mappings : origin.elements.filter (·.label == "mapping") = [mapping]

/-- The one origin of an attribute is its token id, with one mapping inside, and there is no mapping
elsewhere. -/
structure MapsTokenId (e mapping : Element) : Prop where
  origin : ∃ x, originsOf e.elements = [x] ∧ IsMappedTokenId x mapping
  noOther : ∀ part ∈ e.elements, part.label ≠ "mapping"

namespace AttributeDraft

/-- No labels have been read. -/
structure IsFresh (a : AttributeDraft) : Prop where
  plain : a.value.IsPlain
  noMembers : a.value.members = none

/-- The labels are those of a table, and those of an empty one are none. -/
structure HasLabels (table : Std.TreeMap Nat String) (a : AttributeDraft) : Prop where
  plain : a.value.IsPlain
  kind : a.value.kind = .mapping
  members : a.value.members = if table.isEmpty then none else some table

end AttributeDraft

variable {language : String} {d : Definition} {mapping : Element}

/-- A part that says nothing of a source or of labels. -/
def IsDescriptive (part : Element) : Prop :=
  part.label ≠ "mapping" ∧ (part.label = "origins" → part.elements = [])

/-- A descriptive part changes form and label, and can make the kind that of a mapping. -/
def Describes (a a' : AttributeDraft) : Prop :=
  ∃ form label kind, (kind = a.value.kind ∨ kind = .mapping) ∧
    a' = { a with value := { a.value with form := form, label := label, kind := kind } }

theorem Describes.trans {a b c : AttributeDraft} (first : Describes a b) (second : Describes b c) :
    Describes a c := by
  obtain ⟨form, label, kind, either, rfl⟩ := first
  obtain ⟨form', label', kind', either', rfl⟩ := second
  refine ⟨form', label', kind', ?_, rfl⟩
  rcases either' with rfl | rfl
  · exact either
  · exact .inr rfl

theorem AttributeDraft.IsFresh.describe {a a' : AttributeDraft} (fresh : a.IsFresh)
    (described : Describes a a') : a'.IsFresh := by
  obtain ⟨form, label, kind, -, rfl⟩ := described
  exact ⟨{ fresh.plain with }, fresh.noMembers⟩

theorem AttributeDraft.HasLabels.describe {table : Std.TreeMap Nat String} {a a' : AttributeDraft}
    (labelled : a.HasLabels table) (described : Describes a a') : a'.HasLabels table := by
  obtain ⟨form, label, kind, either, rfl⟩ := described
  exact ⟨{ labelled.plain with }, either.elim (·.trans labelled.kind) id, labelled.members⟩

/-- A fresh attribute takes the kind of a mapping and the labels of its table. -/
theorem AttributeDraft.IsFresh.withMapping {a : AttributeDraft} (fresh : a.IsFresh)
    (table : Std.TreeMap Nat String) : (a.withMapping table).HasLabels table := by
  unfold AttributeDraft.withMapping
  cases empty : table.isEmpty with
  | true => exact ⟨{ fresh.plain with }, rfl, by simp [empty, fresh.noMembers]⟩
  | false => exact ⟨{ fresh.plain with }, rfl, by simp [empty]⟩

theorem AttributeDraft.IsFresh.withKind {a : AttributeDraft} (fresh : a.IsFresh)
    (word : Option String) : (a.withKind word).IsFresh := by
  unfold AttributeDraft.withKind
  generalize Kind.ofWord _ = kind
  exact ⟨{ fresh.plain with }, fresh.noMembers⟩

theorem describes_of_readLabelled {part : Element} (descriptive : IsDescriptive part)
    (a : AttributeDraft) : Ensures (Describes a) (readLabelled language d a part) := by
  unfold readLabelled
  split
  · exact .pure ⟨_, _, _, .inl rfl, rfl⟩
  split
  · rename_i isOrigins
    rw [descriptive.2 isOrigins]
    exact .pure ⟨_, _, _, .inl rfl, rfl⟩
  split
  · split
    · exact .pure ⟨_, _, _, .inl rfl, rfl⟩
    · exact .pure ⟨_, _, _, .inl rfl, rfl⟩
  split
  · rename_i isMapping
    exact absurd isMapping descriptive.1
  · exact .pure ⟨_, _, _, .inl rfl, rfl⟩

theorem describes_atContract (a : AttributeDraft) (part : Element) :
    Describes a (a.atContract part) := by
  unfold AttributeDraft.atContract
  split
  · exact ⟨_, _, _, .inr rfl, rfl⟩
  · exact ⟨_, _, _, .inl rfl, rfl⟩

theorem describes_of_readAttributePart {part : Element} (descriptive : IsDescriptive part)
    (a : AttributeDraft) : Ensures (Describes a) (readAttributePart language d a part) := by
  rw [readAttributePart_eq]
  refine (describes_of_readLabelled descriptive a).bind ?_
  intro a' described
  exact .pure (described.trans (describes_atContract a' part))

/-- Reading the token id with a mapping gives an attribute without labels those of the mapping. -/
theorem hasLabels_of_readAttributeOrigin {origin : Element} (mapped : IsMappedTokenId origin mapping)
    {a : AttributeDraft} (fresh : a.IsFresh) :
    Ensures (fun a' => ∃ table, readMapping language mapping = .ok table ∧ a'.HasLabels table)
      (readAttributeOrigin language d a origin) := by
  have masked {table : Std.TreeMap Nat String} {a : AttributeDraft} (labelled : a.HasLabels table) :
      Ensures (fun a' => a'.HasLabels table) (a.withMask origin) := by
    unfold AttributeDraft.withMask
    split
    · exact .pure labelled
    · exact .after fun _ => .pure { labelled with }
  -- The kind that the origin declares is replaced by its mapping, and its mask is applied at the very end.
  unfold readAttributeOrigin
  rw [mapped.offChain, mapped.mappings]
  simp only [mapped.label, Bool.false_eq_true, if_false, if_true, List.foldlM_cons, List.foldlM_nil]
  cases read : readMapping language mapping with
  | error cause => exact .error cause
  | ok table =>
      intro a' given
      have kinded : (a.withKind (origin.tag.attribute? "as")).IsFresh := fresh.withKind _
      exact ⟨table, rfl, masked (kinded.withMapping table) a' given⟩

theorem hasLabels_of_readAttributePart {part origin : Element} (isOrigins : part.label = "origins")
    (only : part.elements = [origin]) (mapped : IsMappedTokenId origin mapping) {a : AttributeDraft}
    (fresh : a.IsFresh) :
    Ensures (fun a' => ∃ table, readMapping language mapping = .ok table ∧ a'.HasLabels table)
      (readAttributePart language d a part) := by
  rw [readAttributePart_eq, readLabelled_of_origins isOrigins, only, List.foldlM_cons]
  refine Ensures.bind (.bind (hasLabels_of_readAttributeOrigin mapped fresh) fun a' labelled =>
    .pure labelled) ?_
  rintro a' ⟨table, read, labelled⟩
  exact .pure ⟨table, read, labelled.describe (describes_atContract a' part)⟩

theorem hasLabels_of_foldlM {table : Std.TreeMap Nat String} {parts : List Element}
    (descriptive : ∀ part ∈ parts, IsDescriptive part) {a : AttributeDraft}
    (labelled : a.HasLabels table) :
    Ensures (fun a' => a'.HasLabels table) (parts.foldlM (readAttributePart language d) a) := by
  induction parts generalizing a with
  | nil => exact .pure labelled
  | cons part rest ih =>
      rw [List.foldlM_cons]
      refine (describes_of_readAttributePart (descriptive part (by simp)) a).bind ?_
      intro a' described
      exact ih (fun p member => descriptive p (by simp [member])) (labelled.describe described)

/-- Whatever stands around the one origin, an attribute without labels gets those of the mapping. -/
theorem hasLabels_of_originsOf {parts : List Element} {origin : Element}
    (noOther : ∀ part ∈ parts, part.label ≠ "mapping") (only : originsOf parts = [origin])
    (mapped : IsMappedTokenId origin mapping) {a : AttributeDraft} (fresh : a.IsFresh) :
    Ensures (fun a' => ∃ table, readMapping language mapping = .ok table ∧ a'.HasLabels table)
      (parts.foldlM (readAttributePart language d) a) := by
  induction parts generalizing a with
  | nil => cases only
  | cons part rest ih =>
      have noLater : ∀ p ∈ rest, p.label ≠ "mapping" := fun p member => noOther p (by simp [member])
      rw [List.foldlM_cons]
      -- The first part lists no origin, or the only one; then there is none in the parts after it.
      by_cases isOrigins : part.label = "origins"
      · rw [originsOf_cons_of_origins isOrigins] at only
        rcases List.append_eq_singleton_iff.1 only with ⟨none, later⟩ | ⟨here, none⟩
        · have descriptive : IsDescriptive part := ⟨noOther part (by simp), fun _ => none⟩
          exact (describes_of_readAttributePart descriptive a).bind fun a' described =>
            ih noLater later (fresh.describe described)
        · refine (hasLabels_of_readAttributePart isOrigins here mapped fresh).bind ?_
          rintro a' ⟨table, read, labelled⟩
          have quiet : ∀ p ∈ rest, IsDescriptive p := fun p member =>
            ⟨noLater p member, elements_of_originsOf_eq_nil none member⟩
          exact fun a'' given => ⟨table, read, hasLabels_of_foldlM quiet labelled a'' given⟩
      · rw [originsOf_cons_of_ne isOrigins] at only
        have descriptive : IsDescriptive part :=
          ⟨noOther part (by simp), fun isOrigins' => absurd isOrigins' isOrigins⟩
        exact (describes_of_readAttributePart descriptive a).bind fun a' described =>
          ih noLater only (fresh.describe described)

/-- The labels of the whole attribute stand at the places of their keys. -/
theorem AttributeDraft.HasLabels.get?_finish {table : Std.TreeMap Nat String} {a : AttributeDraft}
    (labelled : a.HasLabels table) (place : Nat) :
    a.finish.members.bind (·.get? place) = (rekeyed table a.finish.insert).get? place := by
  rw [a.members_finish, labelled.members]
  cases empty : table.isEmpty with
  | false => rfl
  | true =>
      symm
      rw [if_pos rfl, Option.map_none, Option.bind_none, Option.eq_none_iff_forall_not_mem]
      intro label found
      obtain ⟨key, declared, -⟩ := get?_rekeyed_eq_some_iff.1 found
      rw [Std.TreeMap.get?_eq_getElem?, Std.TreeMap.getElem?_of_isEmpty empty] at declared
      cases declared

/-- An attribute whose one origin is its token id with a mapping has no other source, and its labels are those
of the options, at the places of their keys. -/
theorem readAttribute_of_mapsTokenId {e : Element} (maps : MapsTokenId e mapping) :
    Ensures (fun a => ∃ options, readOptions language mapping = .ok options ∧ a.IsPlain ∧
        a.kind = .mapping ∧ ∀ place,
          a.members.bind (·.get? place) = (rekeyed (optionTable options) a.insert).get? place)
      (readAttribute language d e) := by
  obtain ⟨origin, only, mapped⟩ := maps.origin
  unfold readAttribute
  split
  · exact .error _
  · have fresh (name : String) : AttributeDraft.IsFresh
        ⟨{ Attribute.ofName name with originContract := d.holdingContract? }, none⟩ :=
      ⟨⟨rfl, rfl, rfl, rfl, rfl⟩, rfl⟩
    refine (hasLabels_of_originsOf maps.noOther only mapped (fresh _)).bind ?_
    rintro a ⟨table, read, labelled⟩
    rw [readMapping_eq] at read
    cases given : readOptions language mapping with
    | error cause => rw [given] at read; cases read
    | ok options =>
        rw [given] at read
        cases read
        exact .pure ⟨options, rfl, { labelled.plain with }, labelled.kind, labelled.get?_finish⟩

end Document
end TokenSchema
