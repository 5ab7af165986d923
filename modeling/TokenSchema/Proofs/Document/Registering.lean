import Mathlib.Data.List.Induction
import TokenSchema.Proofs.Document.Names

/-!
# Registering — which sequence a named type has

What modules do to the table of named types is a list of steps, which can be read off a document without looking
at the table (`Document.typeSteps`, `Document.readModule_eq`): names are opened, and are given sequences. A name
that has a sequence is not opened again, but it may be given another sequence, and then the last one counts
(`Document.registered_of_read`, `Document.Pings.read_twice`).
-/

namespace TokenSchema
namespace Document

open TokenSchema.Markup

/-! ## Steps -/

/-- What a module does to the table of named types. -/
inductive TypeStep where
  /-- A named type begins. -/
  | opened (name : String)
  /-- A sequence is given to a name. -/
  | sequence (name : String) (e : Element)
  /-- Something stands where it must not. -/
  | misplaced (fault : Malformation)

/-- The table of named types after a step. -/
def register (types : Std.TreeMap String NamedType) :
    TypeStep → Except DocumentError (Std.TreeMap String NamedType)
  | .opened name => if types.contains name then .error (.duplicateNamedType name) else .ok types
  | .sequence name e => do return types.insert name (← readSequence name e)
  | .misplaced fault => .error (.malformed fault)

mutual

/-- The steps of a node, and the name that the next sequence after it goes to. `current` is the name that one in its
place goes to. -/
def nodeSteps (current : Option String) : Node → List TypeStep × Option String
  | .element tag children =>
      if tag.name.base = "namedType" then
        let name := (tag.attribute? "name").getD ""
        if name = "" then ([.misplaced .unnamedType], none)
        else (.opened name :: typeSteps (some name) children, some name)
      else if tag.name.base = "type" then
        match current with
        | none => ([.misplaced .typeOutsideNamedType], none)
        | some name => (typeSteps (some name) children, some name)
      else if tag.name.base = "sequence" then
        match current with
        | none => ([.misplaced .bareSequence], none)
        | some name => ([.sequence name ⟨tag, children⟩], none)
      else ([], current)
  | .text _ => ([], current)
  | .aside => ([], current)

/-- The steps of the content of a module, in document order. -/
def typeSteps (current : Option String) : List Node → List TypeStep
  | [] => []
  | n :: rest => (nodeSteps current n).1 ++ typeSteps (nodeSteps current n).2 rest

end

section Nodes

variable {tag : Tag} {children : List Node} {current : Option String}

theorem nodeSteps_namedType (opens : tag.name.base = "namedType") :
    nodeSteps current (.element tag children) =
      if (tag.attribute? "name").getD "" = "" then ([.misplaced .unnamedType], none)
      else
        (.opened ((tag.attribute? "name").getD "") ::
          typeSteps (some ((tag.attribute? "name").getD "")) children, (tag.attribute? "name").getD "") := by
  rw [nodeSteps.eq_def]
  exact if_pos opens

theorem nodeSteps_type (notOpens : ¬ tag.name.base = "namedType") (isType : tag.name.base = "type") :
    nodeSteps current (.element tag children) =
      match current with
      | none => ([.misplaced .typeOutsideNamedType], none)
      | some name => (typeSteps (some name) children, some name) := by
  rw [nodeSteps.eq_def]
  exact (if_neg notOpens).trans (if_pos isType)

theorem nodeSteps_sequence (notOpens : ¬ tag.name.base = "namedType") (notType : ¬ tag.name.base = "type")
    (isSequence : tag.name.base = "sequence") :
    nodeSteps current (.element tag children) =
      match current with
      | none => ([.misplaced .bareSequence], none)
      | some name => ([.sequence name ⟨tag, children⟩], none) := by
  rw [nodeSteps.eq_def]
  exact (if_neg notOpens).trans ((if_neg notType).trans (if_pos isSequence))

theorem nodeSteps_other (notOpens : ¬ tag.name.base = "namedType") (notType : ¬ tag.name.base = "type")
    (notSequence : ¬ tag.name.base = "sequence") :
    nodeSteps current (.element tag children) = ([], current) := by
  rw [nodeSteps.eq_def]
  exact (if_neg notOpens).trans ((if_neg notType).trans (if_neg notSequence))

end Nodes

/-- A module is read one step after the other. -/
theorem readModule_eq (types : Std.TreeMap String NamedType) (current : Option String)
    (nodes : List Node) :
    readModule types current nodes = (typeSteps current nodes).foldlM register types := by
  -- Where something is misplaced the reading ends, so the steps after it, which readModule does not see, are not
  -- taken.
  fun_induction readModule types current nodes with
  | case1 types current => rfl
  | case2 types current tag children rest opens name unnamed =>
      rw [typeSteps, nodeSteps_namedType opens, if_pos unnamed]
      rfl
  | case3 types current tag children rest opens name named known =>
      rw [typeSteps, nodeSteps_namedType opens, if_neg named, List.cons_append, List.foldlM_cons, register,
        if_pos known]
      rfl
  | case4 types current tag children rest opens name named unknown below after =>
      rw [typeSteps, nodeSteps_namedType opens, if_neg named, List.cons_append, List.foldlM_cons, register,
        if_neg unknown, below]
      simp only [after]
      exact (List.foldlM_append ..).symm
  | case5 types tag children rest notOpens isType =>
      rw [typeSteps, nodeSteps_type notOpens isType]
      rfl
  | case6 types tag children rest notOpens isType name below after =>
      rw [typeSteps, nodeSteps_type notOpens isType, List.foldlM_append, below]
      simp only [after]
  | case7 types tag children rest notOpens notType isSequence =>
      rw [typeSteps, nodeSteps_sequence notOpens notType isSequence]
      rfl
  | case8 types tag children rest notOpens notType isSequence name after =>
      rw [typeSteps, nodeSteps_sequence notOpens notType isSequence, List.singleton_append, List.foldlM_cons,
        register]
      simp only [after, bind_assoc, pure_bind]
  | case9 types current tag children rest notOpens notType notSequence after =>
      rw [typeSteps, nodeSteps_other notOpens notType notSequence, List.nil_append, after]
  | case10 types current node rest other after =>
      cases node with
      | element tag children => exact absurd rfl (other tag children)
      | text content => exact after
      | aside => exact after

/-! ## Tables -/

/-- The sequence that a step gives to a name. -/
def TypeStep.sequenceFor? (name : String) : TypeStep → Option Element
  | .sequence name' e => if name' = name then some e else none
  | _ => none

/-- The sequences that a name is given, in document order. -/
def sequencesFor (name : String) (steps : List TypeStep) : List Element :=
  steps.filterMap (·.sequenceFor? name)

section Tables

variable {steps before after : List TypeStep} {types types' : Std.TreeMap String NamedType}
variable {name : String} {e : Element}

@[simp] theorem sequencesFor_nil : sequencesFor name [] = [] := rfl

@[simp] theorem sequencesFor_append :
    sequencesFor name (before ++ after) = sequencesFor name before ++ sequencesFor name after :=
  List.filterMap_append ..

@[simp] theorem sequencesFor_opened_cons {name' : String} :
    sequencesFor name (.opened name' :: after) = sequencesFor name after := rfl

@[simp] theorem sequencesFor_sequence_cons {name' : String} :
    sequencesFor name (.sequence name' e :: after) =
      if name' = name then e :: sequencesFor name after else sequencesFor name after := by
  by_cases same : name' = name <;> simp [sequencesFor, TypeStep.sequenceFor?, same]

/-- A name is opened only as long as nothing is registered for it. -/
theorem of_register_opened (h : register types (.opened name) = .ok types') :
    types' = types ∧ types.get? name = none := by
  rw [register] at h
  split at h
  · cases h
  · rename_i unknown
    exact ⟨(Except.ok.inj h).symm, Std.TreeMap.getElem?_eq_none unknown⟩

/-- The reading of a sequence takes the place of whatever is registered. -/
theorem of_register_sequence (h : register types (.sequence name e) = .ok types') :
    ∃ t, readSequence name e = .ok t ∧ types' = types.insert name t := by
  rw [register] at h
  cases read : readSequence name e with
  | error cause => rw [read] at h; cases h
  | ok t => rw [read] at h; exact ⟨t, rfl, (Except.ok.inj h).symm⟩

/-- What has been registered when some of the steps have been taken. -/
theorem exists_register_of_append (h : (before ++ after).foldlM register types = .ok types') :
    ∃ middle, before.foldlM register types = .ok middle ∧ after.foldlM register middle = .ok types' := by
  rw [List.foldlM_append] at h
  cases done : before.foldlM register types with
  | error cause => rw [done] at h; cases h
  | ok middle => rw [done] at h; exact ⟨middle, rfl, h⟩

/-- What has been registered before the last of the steps. -/
theorem exists_register_of_concat {step : TypeStep}
    (h : (steps ++ [step]).foldlM register types = .ok types') :
    ∃ middle, steps.foldlM register types = .ok middle ∧ register middle step = .ok types' := by
  obtain ⟨middle, done, last⟩ := exists_register_of_append h
  simp only [List.foldlM_cons, List.foldlM_nil, bind_pure] at last
  exact ⟨middle, done, last⟩

/-- Every sequence is read. -/
theorem reads_of_register (h : steps.foldlM register types = .ok types') :
    ∀ e ∈ sequencesFor name steps, ∃ t, readSequence name e = .ok t := by
  induction steps using List.reverseRecOn generalizing types' with
  | nil => simp [sequencesFor]
  | append_singleton steps step ih =>
      obtain ⟨middle, done, last⟩ := exists_register_of_concat h
      intro e member
      rw [sequencesFor_append, List.mem_append] at member
      rcases member with early | only
      · exact ih done e early
      · cases step with
        | opened name' => cases only
        | misplaced fault => cases last
        | sequence name' e' =>
            obtain ⟨t, reads, -⟩ := of_register_sequence last
            rw [sequencesFor_sequence_cons] at only
            split at only
            · rename_i same
              cases List.mem_singleton.1 only
              exact ⟨t, same ▸ reads⟩
            · cases only

/-- The table holds the reading of the last sequence that a name has been given. -/
theorem get?_of_register (h : steps.foldlM register ∅ = .ok types) :
    types.get? name =
      (sequencesFor name steps).getLast?.bind fun e => (readSequence name e).toOption := by
  -- From the end: only the last step can put another reading in the place of what is held.
  induction steps using List.reverseRecOn generalizing types with
  | nil =>
      cases h
      simp
  | append_singleton steps step ih =>
      obtain ⟨middle, done, last⟩ := exists_register_of_concat h
      cases step with
      | opened name' =>
          obtain ⟨rfl, -⟩ := of_register_opened last
          rw [ih done, sequencesFor_append, sequencesFor_opened_cons, sequencesFor_nil, List.append_nil]
      | misplaced fault => cases last
      | sequence name' e =>
          obtain ⟨t, reads, rfl⟩ := of_register_sequence last
          rw [Std.TreeMap.get?_eq_getElem?, Std.TreeMap.getElem?_insert, sequencesFor_append,
            sequencesFor_sequence_cons, sequencesFor_nil]
          by_cases same : name' = name
          · subst same
            rw [if_pos (Std.LawfulEqCmp.compare_eq_iff_eq.2 rfl), if_pos rfl, List.getLast?_concat,
              Option.bind_some, reads]
            rfl
          · rw [if_neg (mt Std.LawfulEqCmp.eq_of_compare same), if_neg same, List.append_nil,
              ← Std.TreeMap.get?_eq_getElem?, ih done]

/-- A name is in the table exactly if it has been given a sequence. -/
theorem get?_eq_none_iff (h : steps.foldlM register ∅ = .ok types) :
    types.get? name = none ↔ sequencesFor name steps = [] := by
  rw [get?_of_register h, Option.bind_eq_none_iff]
  constructor
  · -- If there were a last sequence, it would have been read.
    intro unread
    by_contra some
    obtain ⟨t, reads⟩ := reads_of_register h _ (List.getLast_mem some)
    have impossible := unread _ (List.getLast?_eq_some_getLast some)
    rw [reads] at impossible
    cases impossible
  · intro none
    simp [none]

/-- A name is not opened again after it has been given a sequence. -/
theorem sequencesFor_eq_nil_of_opened
    (h : (before ++ .opened name :: after).foldlM register ∅ = .ok types) :
    sequencesFor name before = [] := by
  rw [List.append_cons] at h
  obtain ⟨next, opens, -⟩ := exists_register_of_append h
  obtain ⟨middle, done, opened⟩ := exists_register_of_concat opens
  obtain ⟨-, unknown⟩ := of_register_opened opened
  exact (get?_eq_none_iff done).1 unknown

/-- The first sequence of a name is given to it by a step, and the others by later steps. -/
theorem exists_of_sequencesFor_eq_cons {rest : List Element} (h : sequencesFor name steps = e :: rest) :
    ∃ before after, steps = before ++ .sequence name e :: after ∧ sequencesFor name after = rest := by
  obtain ⟨before, step, after, rfl, -, gives, later⟩ := List.filterMap_eq_cons_iff.1 h
  refine ⟨before, after, ?_, later⟩
  cases step with
  | opened name' => cases gives
  | misplaced fault => cases gives
  | sequence name' e' =>
      simp only [TypeStep.sequenceFor?, Option.ite_none_right_eq_some, Option.some.injEq] at gives
      obtain ⟨rfl, rfl⟩ := gives
      rfl

/-- No sequence takes the place of another exactly if every name is given one at most. -/
theorem fresh_iff (h : steps.foldlM register ∅ = .ok types) :
    (∀ before name e after known, steps = before ++ .sequence name e :: after →
      before.foldlM register ∅ = .ok known → known.get? name = none) ↔
    ∀ name, (sequencesFor name steps).length ≤ 1 := by
  constructor
  · intro fresh name
    match listed : sequencesFor name steps with
    | [] => simp
    | [_] => simp
    | e :: e' :: rest =>
        -- The second sequence comes to a table that has the first.
        obtain ⟨before, later, rfl, listed'⟩ := exists_of_sequencesFor_eq_cons listed
        obtain ⟨between, after, rfl, -⟩ := exists_of_sequencesFor_eq_cons listed'
        rw [← List.cons_append, ← List.append_assoc] at h
        obtain ⟨known, done, -⟩ := exists_register_of_append h
        have unknown := fresh _ name e' after known (by simp) done
        rw [get?_eq_none_iff done] at unknown
        simp at unknown
  · rintro single before name e after known rfl done
    have most := single name
    rw [sequencesFor_append, sequencesFor_sequence_cons, if_pos rfl, List.length_append,
      List.length_cons] at most
    exact (get?_eq_none_iff done).2 (List.eq_nil_of_length_eq_zero (by omega))

end Tables

/-! ## Names before sequences -/

/-- Every sequence goes to one of these names, or to a name that has been opened before it. -/
def LedBy (known : List String) : List TypeStep → Prop
  | [] => True
  | .opened name :: rest => LedBy (name :: known) rest
  | .sequence name _ :: rest => name ∈ known ∧ LedBy known rest
  | .misplaced _ :: rest => LedBy known rest

section Led

variable {steps before after : List TypeStep} {known known' : List String}

theorem LedBy.mono (led : LedBy known steps) (more : known ⊆ known') : LedBy known' steps := by
  induction steps generalizing known known' with
  | nil => trivial
  | cons step rest ih =>
      cases step with
      | opened name => exact ih led (List.cons_subset_cons name more)
      | sequence name e => exact ⟨more led.1, ih led.2 more⟩
      | misplaced fault => exact ih led more

theorem LedBy.append (first : LedBy known before) (last : LedBy known after) :
    LedBy known (before ++ after) := by
  induction before generalizing known with
  | nil => exact last
  | cons step rest ih =>
      cases step with
      | opened name => exact ih first (last.mono (List.subset_cons_self name known))
      | sequence name e => exact ⟨first.1, ih first.2 last⟩
      | misplaced fault => exact ih first last

/-- A sequence under none of the names known follows the opening of its own. -/
theorem LedBy.opened_mem {name : String} {e : Element}
    (led : LedBy known (before ++ .sequence name e :: after)) (unknown : name ∉ known) :
    .opened name ∈ before := by
  induction before generalizing known with
  | nil => exact absurd led.1 unknown
  | cons step rest ih =>
      cases step with
      | opened name' =>
          by_cases same : name = name'
          · subst same
            exact List.mem_cons_self
          · exact List.mem_cons_of_mem _ (ih led (by simp [same, unknown]))
      | sequence name' e' => exact List.mem_cons_of_mem _ (ih led.2 unknown)
      | misplaced fault => exact List.mem_cons_of_mem _ (ih led unknown)

end Led

mutual

theorem ledBy_nodeSteps : ∀ (n : Node) {current : Option String} {known : List String} {after : List TypeStep},
    (∀ name, current = some name → name ∈ known) →
    (∀ known', known ⊆ known' → (∀ name, (nodeSteps current n).2 = some name → name ∈ known') →
      LedBy known' after) →
    LedBy known ((nodeSteps current n).1 ++ after)
  | .element tag children, current, known, after, among, led => by
      have here : (∀ name, (nodeSteps current (.element tag children)).2 = some name → name ∈ known) →
          LedBy known after := led known (List.Subset.refl known)
      by_cases opens : tag.name.base = "namedType"
      · rw [nodeSteps_namedType opens] at led here ⊢
        by_cases unnamed : (tag.attribute? "name").getD "" = ""
        · rw [if_pos unnamed] at here ⊢
          exact here (by simp)
        · rw [if_neg unnamed] at led ⊢
          -- The name that is opened may be used below, and after the named type.
          have own : ∀ name, some ((tag.attribute? "name").getD "") = some name →
              name ∈ (tag.attribute? "name").getD "" :: known := by
            rintro _ ⟨⟩
            exact List.mem_cons_self
          exact (ledBy_typeSteps children own).append (led _ (List.subset_cons_self _ _) own)
      by_cases isType : tag.name.base = "type"
      · rw [nodeSteps_type opens isType] at here ⊢
        cases current with
        | none => exact here (by simp)
        | some name => exact (ledBy_typeSteps children among).append (here among)
      by_cases isSequence : tag.name.base = "sequence"
      · rw [nodeSteps_sequence opens isType isSequence] at here ⊢
        cases current with
        | none => exact here (by simp)
        | some name => exact ⟨among name rfl, here (by simp)⟩
      · rw [nodeSteps_other opens isType isSequence] at here ⊢
        exact here among
  | .text _, _, known, _, among, led => led known (List.Subset.refl known) among
  | .aside, _, known, _, among, led => led known (List.Subset.refl known) among

theorem ledBy_typeSteps : ∀ (nodes : List Node) {current : Option String} {known : List String},
    (∀ name, current = some name → name ∈ known) → LedBy known (typeSteps current nodes)
  | [], _, _, _ => trivial
  -- What follows a node may use the names that the node has opened.
  | n :: rest, _, _, among => ledBy_nodeSteps n among fun _ _ next => ledBy_typeSteps rest next

end

/-! ## Documents -/

/-- The steps of an element that may be a module. -/
def moduleSteps (e : Element) : List TypeStep :=
  if e.label = "module" then typeSteps none e.children else []

/-- The steps of an element directly below the token. A contract may hold modules. -/
def partSteps (e : Element) : List TypeStep :=
  if e.label = "contract" then e.elements.flatMap moduleSteps else moduleSteps e

/-- The steps of a document. -/
def documentSteps (root : Element) : List TypeStep :=
  if root.label = "token" then root.elements.flatMap partSteps else []

theorem ledBy_documentSteps (root : Element) : LedBy [] (documentSteps root) := by
  have flatMap {steps : Element → List TypeStep} (each : ∀ e, LedBy [] (steps e)) (es : List Element) :
      LedBy [] (es.flatMap steps) := by
    induction es with
    | nil => trivial
    | cons e rest ih => exact (each e).append ih
  have ofModule (e : Element) : LedBy [] (moduleSteps e) := by
    unfold moduleSteps
    split
    · exact ledBy_typeSteps _ (by simp)
    · trivial
  have ofPart (e : Element) : LedBy [] (partSteps e) := by
    unfold partSteps
    split
    · exact flatMap ofModule _
    · exact ofModule e
  unfold documentSteps
  split
  · exact flatMap ofPart _
  · trivial

/-- What each element does to the table of named types, all of them do one after the other. -/
theorem register_foldlM {α : Type} {f : α → Element → Except DocumentError α}
    {table : α → Std.TreeMap String NamedType} {steps : Element → List TypeStep}
    (step : ∀ a e, Ensures (fun a' => (steps e).foldlM register (table a) = .ok (table a')) (f a e))
    (a : α) (es : List Element) :
    Ensures (fun a' => (es.flatMap steps).foldlM register (table a) = .ok (table a')) (es.foldlM f a) := by
  refine Ensures.foldlM_flatMap (R := fun steps a' => steps.foldlM register (table a) = .ok (table a'))
    ?_ (x := []) rfl es
  intro earlier a' e done
  rw [List.foldlM_append, done]
  exact step a' e

variable {language : String}

theorem register_addContractPart (name : String) (c : ContractDraft) (e : Element) :
    Ensures (fun c' : ContractDraft => (moduleSteps e).foldlM register c.types = .ok c'.types)
      (addContractPart name c e) := by
  unfold addContractPart moduleSteps
  by_cases isModule : e.label = "module"
  · rw [if_pos isModule, if_neg (by simp [isModule]), if_pos isModule, ← readModule_eq]
    exact (Ensures.self _).bind fun types given => .pure given
  · rw [if_neg isModule, if_neg isModule]
    split
    · exact .after fun _ => .pure rfl
    · exact .pure rfl

theorem register_addContract (d : Definition) (e : Element) :
    Ensures (fun d' : Definition =>
      (e.elements.flatMap moduleSteps).foldlM register d.namedTypes = .ok d'.namedTypes)
      (addContract d e) :=
  (register_foldlM (register_addContractPart _) _ e.elements).bind fun _ done => .pure done

theorem register_of_keeps {d d' : Definition} (kept : KeepsDeclarations d d') :
    List.foldlM register d.namedTypes [] = .ok d'.namedTypes := by
  rw [kept.namedTypes_eq]
  rfl

theorem register_addTokenPart (s : Draft) (e : Element) :
    Ensures (fun s' : Draft => (partSteps e).foldlM register s.definition.namedTypes =
      .ok s'.definition.namedTypes) (addTokenPart language s e) := by
  -- Contracts and modules take steps; everything else leaves the table as it is.
  have quiet (notContract : e.label ≠ "contract") (notModule : e.label ≠ "module") : partSteps e = [] := by
    rw [partSteps, if_neg notContract, moduleSteps, if_neg notModule]
  unfold addTokenPart
  dsimp only
  split
  · rename_i label
    rw [quiet (by simp [label]) (by simp [label])]
    exact (addOrigins_keeps s.definition e).bind fun d kept => .pure (register_of_keeps kept)
  split
  · rename_i label
    rw [partSteps, if_pos label]
    exact (register_addContract s.definition e).bind fun d done => .pure done
  rename_i notContract
  split
  · rename_i label
    rw [quiet notContract (by simp [label])]
    exact .pure rfl
  split
  · rename_i label
    rw [quiet notContract (by simp [label])]
    exact .pure (register_of_keeps (addSelection_keeps s.definition e))
  split
  · rename_i label
    rw [partSteps, if_neg notContract, moduleSteps, if_pos label, ← readModule_eq]
    exact (Ensures.self _).bind fun types given => .pure given
  rename_i notModule
  rw [quiet notContract notModule]
  split
  · intro s' given
    exact register_of_keeps (addCards_keeps s e.elements s' given)
  split
  · exact .after fun _ => .pure rfl
  split
  · exact (addAttestation_keeps s.definition e).bind fun d kept => .pure (register_of_keeps kept)
  · exact .pure rfl

theorem register_readRoot (start : Definition) (root : Element) :
    Ensures (fun d : Definition => (documentSteps root).foldlM register start.namedTypes = .ok d.namedTypes)
      (readRoot language start root) := by
  unfold readRoot documentSteps
  split
  · exact (register_foldlM register_addTokenPart ⟨start, 0⟩ root.elements).bind fun s done => .pure done
  split
  · exact .after fun _ => .pure rfl
  · exact .error _

/-- The table of named types that a document gives comes from its steps. -/
theorem register_of_read {document : String} {options : ReaderOptions} {d : Definition}
    (given : read document options = .ok d) :
    ∃ root following, readDocument document = .ok (root, following) ∧
      (documentSteps root).foldlM register ∅ = .ok d.namedTypes := by
  obtain ⟨root, following, language, namespaceName, version, d₀, parsed, done, rfl⟩ :=
    exists_readRoot_of_read given
  exact ⟨root, following, parsed, register_readRoot _ root d₀ done⟩

section Modules

variable {start : Definition} {e root : Element} {es : List Element} {s : Draft}

theorem addTokenPart_of_module (isModule : e.label = "module") :
    addTokenPart language s e = ((partSteps e).foldlM register s.definition.namedTypes).map fun types =>
      { s with definition := { s.definition with namedTypes := types } } := by
  have steps : partSteps e = typeSteps none e.children := by
    rw [partSteps, if_neg (by simp [isModule]), moduleSteps, if_pos isModule]
  simp only [addTokenPart, isModule, String.reduceEq, if_false, if_true]
  rw [readModule_eq, steps]
  cases (typeSteps none e.children).foldlM register s.definition.namedTypes <;> rfl

theorem addTokenParts_of_modules (modules : ∀ e ∈ es, e.label = "module") :
    es.foldlM (addTokenPart language) s =
      ((es.flatMap partSteps).foldlM register s.definition.namedTypes).map fun types =>
        { s with definition := { s.definition with namedTypes := types } } := by
  induction es generalizing s with
  | nil => rfl
  | cons e rest ih =>
      rw [List.forall_mem_cons] at modules
      rw [List.foldlM_cons, List.flatMap_cons, List.foldlM_append, addTokenPart_of_module modules.1]
      cases (partSteps e).foldlM register s.definition.namedTypes with
      | error cause => rfl
      | ok types => exact ih modules.2

/-- A token with modules alone is read exactly if all their steps can be taken. -/
theorem readRoot_of_modules (isToken : root.label = "token") (modules : ∀ e ∈ root.elements, e.label = "module") :
    readRoot language start root = ((documentSteps root).foldlM register start.namedTypes).map fun types =>
      { start with namedTypes := types } := by
  rw [readRoot, if_pos isToken, documentSteps, if_pos isToken, addTokenParts_of_modules modules]
  cases (root.elements.flatMap partSteps).foldlM register start.namedTypes <;> rfl

/-- A document with modules alone is read if all their steps can be taken. -/
theorem read_of_modules {document space : String} {options : ReaderOptions} {following : List Element}
    {version : SchemaVersion} {types : Std.TreeMap String NamedType}
    (located : languageOf options.locale = .ok language)
    (parsed : readDocument document = .ok (root, following)) (spaced : schemaNamespace root = some space)
    (dated : Schema.versionOf space options = .ok version) (isToken : root.label = "token")
    (modules : ∀ e ∈ root.elements, e.label = "module")
    (done : (documentSteps root).foldlM register ∅ = .ok types) :
    read document options =
      .ok { Definition.empty space version options.locale with
        namedTypes := types
        keyName := signatureKey (root :: following) } := by
  have read : readRoot language (.empty space version options.locale) root =
      .ok { Definition.empty space version options.locale with namedTypes := types } := by
    rw [readRoot_of_modules isToken modules]
    exact congrArg (Except.map _) done
  simp only [Document.read, located, parsed, mapError_ok, ok_bind, spaced, dated, read]
  rfl

end Modules

/-- Under each name a document gives the last sequence that the name has been given. No name is opened again when
it has a sequence, and all sequences of a name follow its opening, but that is all that is checked: the last
sequence has replaced those before it, and none has been replaced exactly if no name has been given two. -/
theorem registered_of_read {document : String} {options : ReaderOptions} {d : Definition}
    (given : read document options = .ok d) :
    ∃ root following, readDocument document = .ok (root, following) ∧
      (documentSteps root).foldlM register ∅ = .ok d.namedTypes ∧
      (∀ name, d.namedTypes.get? name =
        (sequencesFor name (documentSteps root)).getLast?.bind fun e => (readSequence name e).toOption) ∧
      (∀ before name after, documentSteps root = before ++ .opened name :: after →
        sequencesFor name before = []) ∧
      (∀ before name e after, documentSteps root = before ++ .sequence name e :: after →
        .opened name ∈ before) ∧
      ((∀ before name e after known, documentSteps root = before ++ .sequence name e :: after →
          before.foldlM register ∅ = .ok known → known.get? name = none) ↔
        ∀ name, (sequencesFor name (documentSteps root)).length ≤ 1) := by
  obtain ⟨root, following, parsed, done⟩ := register_of_read given
  refine ⟨root, following, parsed, done, fun name => get?_of_register done, ?_, ?_, fresh_iff done⟩
  · intro before name after split
    rw [split] at done
    exact sequencesFor_eq_nil_of_opened done
  · intro before name e after split
    have led := ledBy_documentSteps root
    rw [split] at led
    exact led.opened_mem (by simp)

end Document

/-! ## A ping with two sequences -/

namespace Pings

open Markup

/-- Inside one named type, a sequence for each of two types. -/
def twice : String :=
  "<token xmlns=\"http://tokenscript.org/2024/01/tokenscript\"><module><namedType name=\"Ping\">" ++
  "<type><sequence><element name=\"a\" type=\"uint256\"/></sequence></type>" ++
  "<type><sequence><element name=\"b\" type=\"address\"/></sequence></type>" ++
  "</namedType></module></token>"

/-- The named type with one field. -/
def ping (name typeName : String) : NamedType :=
  ⟨"Ping", [⟨name, typeName, false⟩]⟩

/-- Options under which the document can be read. -/
def options : ReaderOptions :=
  ⟨"en", SchemaDate.oldestSupported, SchemaDate.implemented⟩

/-- What a list of steps registers for the name. -/
def registered? (steps : List Document.TypeStep) : Option NamedType :=
  (steps.foldlM Document.register ∅).toOption.bind (·.get? "Ping")

set_option maxRecDepth 100000 in
theorem readDocument_twice :
    (readDocument twice).toOption.map (fun top =>
      (top.1.label :: top.1.elements.map (·.label), Document.schemaNamespace top.1,
        (Document.sequencesFor "Ping" (Document.documentSteps top.1)).length,
        [registered? ((Document.documentSteps top.1).take 2), registered? (Document.documentSteps top.1)])) =
      some (["token", "module"], some "http://tokenscript.org/2024/01/tokenscript", 2,
        [some (ping "a" "uint256"), some (ping "b" "address")]) := by
  -- Decoding the text would be most of the evaluation, so its characters are put in first.
  unfold readDocument twice
  simp only [String.toList_append]
  rw [String.toList_ofList, String.toList_ofList, String.toList_ofList, String.toList_ofList]
  decide +kernel

/-- The document is accepted. The name is given two sequences; it has the reading of the first after two steps, and
that of the second in the definition. -/
theorem exists_read_twice : ∃ root following d, readDocument twice = .ok (root, following) ∧
    Document.read twice options = .ok d ∧
    (Document.sequencesFor "Ping" (Document.documentSteps root)).length = 2 ∧
    registered? ((Document.documentSteps root).take 2) = some (ping "a" "uint256") ∧
    d.namedTypes.get? "Ping" = some (ping "b" "address") := by
  obtain ⟨⟨root, following⟩, parsed, seen⟩ := Option.map_eq_some_iff.1 readDocument_twice
  simp only [Prod.mk.injEq, List.cons.injEq, and_true] at seen
  obtain ⟨⟨isToken, labels⟩, space, two, first, last⟩ := seen
  obtain ⟨types, done, held⟩ := Option.bind_eq_some_iff.1 last
  replace parsed := eq_ok_of_toOption parsed
  replace done := eq_ok_of_toOption done
  have modules : ∀ e ∈ root.elements, e.label = "module" := by
    intro e member
    have among := List.mem_map_of_mem (f := (·.label)) member
    rw [labels] at among
    exact List.mem_singleton.1 among
  refine ⟨root, following, _, parsed, Document.read_of_modules rfl parsed space rfl isToken modules done, two, first,
    held⟩

/-- The document is accepted although it gives the name a second sequence: the reading of the first is registered
before the last step, and the definition has the reading of the second in its place. -/
theorem replaced_twice : ∃ root following d, readDocument twice = .ok (root, following) ∧
    Document.read twice options = .ok d ∧
    registered? ((Document.documentSteps root).take 2) = some (ping "a" "uint256") ∧
    d.namedTypes.get? "Ping" ≠ registered? ((Document.documentSteps root).take 2) := by
  obtain ⟨root, following, d, parsed, read, -, first, last⟩ := exists_read_twice
  refine ⟨root, following, d, parsed, read, first, ?_⟩
  rw [first, last]
  decide

/-- The definition has the reading of the last sequence of the name, and that one has replaced another, since the
name has been given two. -/
theorem registered_of_read_twice : ∃ root following d, readDocument twice = .ok (root, following) ∧
    Document.read twice options = .ok d ∧
    (Document.sequencesFor "Ping" (Document.documentSteps root)).getLast?.bind
      (fun e => (Document.readSequence "Ping" e).toOption) = some (ping "b" "address") ∧
    ¬ ∀ before name e after known, Document.documentSteps root = before ++ .sequence name e :: after →
      before.foldlM Document.register ∅ = .ok known → known.get? name = none := by
  obtain ⟨root, following, d, parsed, read, two, -, last⟩ := exists_read_twice
  obtain ⟨root', following', parsed', -, held, -, -, fresh⟩ := Document.registered_of_read read
  obtain ⟨rfl, rfl⟩ := Prod.mk.inj (Except.ok.inj (parsed.symm.trans parsed'))
  refine ⟨root, following, d, parsed, read, ?_, ?_⟩
  · rw [← held, last]
  · intro unreplaced
    have single := fresh.1 unreplaced "Ping"
    omega

end Pings

end TokenSchema
