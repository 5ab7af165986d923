import TokenSchema.Document.Reader

/-!
# Names — attributes are found under their own names

Only one element of a document adds to the attributes of its definition, and it adds an attribute under
its own name. All others leave the table of attributes as it is. So what holds of no attributes and is kept
by adding one holds of every definition that is read (`Document.Invariant.of_read`); that attributes are
found under their own names is of this kind (`Document.wellNamed_of_readWith`), and so is whatever is true of
each attribute by itself (`Document.Invariant.each`).
-/

namespace TokenSchema

/-- What is found in a table after an entry has been added is that entry, or was there before. -/
theorem of_get?_insert {α : Type} {table : Std.TreeMap String α} {key name : String} {a b : α}
    (known : (table.insert key a).get? name = some b) :
    (name = key ∧ b = a) ∨ table.get? name = some b := by
  rw [Std.TreeMap.get?_eq_getElem?, Std.TreeMap.getElem?_insert] at known
  split at known
  · rename_i same
    exact .inl ⟨(Std.LawfulEqCmp.eq_of_compare same).symm, (Option.some.inj known).symm⟩
  · exact .inr known

/-- The names of attributes are the keys they are found under. -/
def Definition.WellNamed (d : Definition) : Prop :=
  ∀ name a, d.attributes.get? name = some a → a.name = name

namespace Definition

theorem wellNamed_empty (namespaceName : String) (version : SchemaVersion) (locale : String) :
    (Definition.empty namespaceName version locale).WellNamed := by
  intro name a known
  simp [Definition.empty] at known

/-- An attribute that is found is found under its own name. -/
theorem WellNamed.own {d : Definition} (named : d.WellNamed) {name : String} {a : Attribute}
    (declared : d.attributes.get? name = some a) : d.attributes.get? a.name = some a := by
  rw [named name a declared, declared]

theorem WellNamed.insert {d : Definition} (named : d.WellNamed) (a : Attribute) :
    WellNamed { d with attributes := d.attributes.insert a.name a } := by
  intro name b known
  rcases of_get?_insert known with ⟨rfl, rfl⟩ | before
  · rfl
  · exact named name b before

theorem WellNamed.congr {d d' : Definition} (named : d.WellNamed)
    (same : d'.attributes = d.attributes) : d'.WellNamed := by
  intro name a known
  rw [same] at known
  exact named name a known

end Definition

/-! ## Results that have a property -/

/-- If there is a result, it has the property. -/
def Ensures {ε α : Type} (P : α → Prop) (x : Except ε α) : Prop :=
  ∀ a, x = .ok a → P a

theorem eq_ok_of_toOption {ε α : Type} {x : Except ε α} {a : α} (given : x.toOption = some a) :
    x = .ok a := by
  cases x with
  | error e => cases given
  | ok b => cases given; rfl

namespace Ensures

variable {ε α β : Type} {P : α → Prop} {Q : β → Prop}

theorem pure {a : α} (h : P a) : Ensures P (Pure.pure a : Except ε α) := by
  intro b given
  cases given
  exact h

theorem self (x : Except ε α) : Ensures (fun a => x = .ok a) x :=
  fun _ given => given

theorem error (e : ε) : Ensures P (.error e : Except ε α) := by
  intro b given
  cases given

theorem bind {x : Except ε α} {f : α → Except ε β} (first : Ensures P x)
    (rest : ∀ a, P a → Ensures Q (f a)) : Ensures Q (x >>= f) := by
  intro b given
  cases x with
  | error e => cases given
  | ok a => exact rest a (first a rfl) b given

/-- Nothing need be known of the result of the first part. -/
theorem after {x : Except ε α} {f : α → Except ε β} (rest : ∀ a, Ensures Q (f a)) :
    Ensures Q (x >>= f) := by
  have anything : Ensures (fun _ => True) x := fun _ _ => trivial
  exact anything.bind fun a _ => rest a

theorem foldlM_of_mem {f : α → β → Except ε α} {l : List β}
    (step : ∀ b ∈ l, ∀ a, P a → Ensures P (f a b)) {a : α} (h : P a) : Ensures P (l.foldlM f a) := by
  induction l generalizing a with
  | nil => exact .pure h
  | cons b rest ih =>
      rw [List.forall_mem_cons] at step
      rw [List.foldlM_cons]
      exact (step.1 a h).bind fun _ next => ih step.2 next

theorem foldlM {f : α → β → Except ε α} (step : ∀ a b, P a → Ensures P (f a b)) {a : α} (h : P a)
    (l : List β) : Ensures P (l.foldlM f a) :=
  foldlM_of_mem (fun b _ a => step a b) h

/-- What each step with a result does to a related value, all of them do to it one after the other. -/
theorem foldlM_related {γ : Type} {R : γ → α → Prop} {f : α → β → Except ε α} {g : γ → β → γ}
    (step : ∀ x a b, R x a → Ensures (R (g x b)) (f a b)) {x : γ} {a : α} (h : R x a) (l : List β) :
    Ensures (R (l.foldl g x)) (l.foldlM f a) := by
  induction l generalizing x a with
  | nil => exact .pure h
  | cons b rest ih =>
      rw [List.foldlM_cons]
      exact (step x a b h).bind fun a' h' => ih h'

/-- What each step adds to a list, all of them add one after the other. -/
theorem foldlM_flatMap {γ : Type} {R : List γ → α → Prop} {f : α → β → Except ε α} {g : β → List γ}
    (step : ∀ x a b, R x a → Ensures (R (x ++ g b)) (f a b)) {x : List γ} {a : α} (h : R x a) (l : List β) :
    Ensures (R (x ++ l.flatMap g)) (l.foldlM f a) := by
  rw [List.flatMap_def, ← List.foldl_append_eq_append]
  exact foldlM_related step h l

end Ensures

/-! ## Success that does not depend on what came before -/

/-- Two sequences have a result alike, if their first parts do and what comes of these does not matter. -/
theorem isOk_bind_congr {ε α β : Type} {x x' : Except ε α} {f f' : α → Except ε β}
    (first : x.isOk = x'.isOk) (rest : ∀ a a', (f a).isOk = (f' a').isOk) : (x >>= f).isOk = (x' >>= f').isOk := by
  cases x with
  | error e =>
      cases x' with
      | error e' => rfl
      | ok a' => cases first
  | ok a =>
      cases x' with
      | error e' => cases first
      | ok a' => exact rest a a'

/-- Steps that do not depend on what came before have a result together exactly if each has one. -/
theorem isOk_foldlM {ε α β : Type} {f : α → β → Except ε α}
    (step : ∀ a a' b, (f a b).isOk = (f a' b).isOk) (a a₀ : α) (l : List β) :
    (l.foldlM f a).isOk = l.all fun b => (f a₀ b).isOk := by
  induction l generalizing a with
  | nil => rfl
  | cons b rest ih =>
      rw [List.foldlM_cons, List.all_cons, ← step a a₀ b]
      cases f a b with
      | error e => rfl
      | ok a' => exact ih a'

theorem ok_bind {ε α β : Type} (a : α) (f : α → Except ε β) : (Except.ok a >>= f) = f a := rfl

theorem mapError_ok {ε ε' α : Type} (a : α) (f : ε → ε') : (Except.ok a).mapError f = .ok a := rfl

namespace Document

open TokenSchema.Markup

variable {language : String}

/-- The attributes of a definition are what they were. -/
def KeepsAttributes (d d' : Definition) : Prop :=
  d'.attributes = d.attributes

/-- Neither an attribute nor a named type has been added to a definition. -/
structure KeepsDeclarations (d d' : Definition) : Prop where
  attributes_eq : KeepsAttributes d d'
  namedTypes_eq : d'.namedTypes = d.namedTypes

theorem KeepsDeclarations.refl (d : Definition) : KeepsDeclarations d d :=
  ⟨rfl, rfl⟩

theorem KeepsDeclarations.trans {d d' d'' : Definition} (h : KeepsDeclarations d d')
    (h' : KeepsDeclarations d' d'') : KeepsDeclarations d d'' :=
  ⟨h'.attributes_eq.trans h.attributes_eq, h'.namedTypes_eq.trans h.namedTypes_eq⟩

theorem addOrigins_keeps (d : Definition) (e : Element) :
    Ensures (KeepsDeclarations d) (addOrigins d e) := by
  unfold addOrigins
  refine .after ?_
  intro origin
  cases origin with
  | none => exact .pure ⟨rfl, rfl⟩
  | some o => exact .pure ⟨rfl, rfl⟩

theorem addContract_keeps (d : Definition) (e : Element) :
    Ensures (KeepsAttributes d) (addContract d e) :=
  .after fun _ => .pure rfl

theorem addSelection_keeps (d : Definition) (e : Element) :
    KeepsDeclarations d (addSelection language d e) := by
  unfold addSelection
  split
  · split <;> exact ⟨rfl, rfl⟩
  · exact ⟨rfl, rfl⟩

theorem addAttestation_keeps (d : Definition) (e : Element) :
    Ensures (KeepsDeclarations d) (addAttestation language d e) := by
  -- The parts of an attestation are read into a pair, whose first component is the definition.
  have part : ∀ (s : Definition × Attestation) (e : Element), KeepsDeclarations d s.1 →
      Ensures (fun s => KeepsDeclarations d s.1) (addAttestationPart language s e) := by
    rintro ⟨d', a⟩ e ⟨attributes, namedTypes⟩
    unfold addAttestationPart
    dsimp only
    split
    · exact .pure ⟨attributes, namedTypes⟩
    split
    · exact .after fun _ => .pure ⟨attributes, namedTypes⟩
    split
    · exact .pure ⟨attributes, namedTypes⟩
    split
    · exact .pure ⟨attributes, namedTypes⟩
    split
    · exact .pure ⟨attributes, namedTypes⟩
    split
    · exact .after fun _ => .pure ⟨attributes, namedTypes⟩
    · exact .pure ⟨attributes, namedTypes⟩
  refine Ensures.bind (P := fun s => KeepsDeclarations d s.1) (.foldlM part (.refl d) e.elements) ?_
  rintro s ⟨attributes, namedTypes⟩
  exact .pure ⟨attributes, namedTypes⟩

theorem addTokenView_keeps (s : Draft) (e : Element) :
    Ensures (fun s' : Draft => KeepsDeclarations s.definition s'.definition)
      (addTokenView language s e) :=
  .after fun _ => .pure ⟨rfl, rfl⟩

theorem addCard_keeps (s : Draft) (e : Element) :
    Ensures (fun s' : Draft => KeepsDeclarations s.definition s'.definition)
      (addCard language s e) := by
  unfold addCard
  dsimp only
  split
  · exact addTokenView_keeps s e
  split
  · exact .after fun _ => .pure ⟨rfl, rfl⟩
  split
  · exact .after fun _ => .pure ⟨rfl, rfl⟩
  split
  · exact .pure ⟨rfl, rfl⟩
  · exact .error _

theorem addCardsPart_keeps (s : Draft) (e : Element) :
    Ensures (fun s' : Draft => KeepsDeclarations s.definition s'.definition)
      (addCardsPart language s e) := by
  unfold addCardsPart
  split
  · exact addTokenView_keeps s e
  split
  · exact addCard_keeps s e
  split
  · exact .pure ⟨rfl, rfl⟩
  · exact .pure ⟨rfl, rfl⟩

theorem addCards_keeps (s : Draft) (es : List Element) :
    Ensures (fun s' : Draft => KeepsDeclarations s.definition s'.definition)
      (es.foldlM (addCardsPart language) s) := by
  refine .foldlM (P := fun s' : Draft => KeepsDeclarations s.definition s'.definition) ?_ (.refl _) es
  intro s' e kept s'' given
  exact kept.trans (addCardsPart_keeps s' e s'' given)

/-! ## Definitions that are read -/

/-- A definition that is read is that of the root of a document, read from the start, with the name of a key. -/
theorem exists_readRoot_of_read {document : String} {options : ReaderOptions} {d : Definition}
    (given : read document options = .ok d) :
    ∃ root following language namespaceName version d₀, readDocument document = .ok (root, following) ∧
      readRoot language (.empty namespaceName version options.locale) root = .ok d₀ ∧
      d = { d₀ with keyName := signatureKey (root :: following) } := by
  revert d
  change Ensures _ (read document options)
  unfold read
  refine .after fun language => ?_
  cases parsed : readDocument document with
  | error fault => exact .error _
  | ok top =>
      obtain ⟨root, following⟩ := top
      simp only [mapError_ok, ok_bind]
      split
      · exact .error _
      · rename_i namespaceName _
        refine .after fun version => ?_
        exact (Ensures.self _).bind fun d₀ done =>
          .pure ⟨root, following, language, namespaceName, version, d₀, rfl, done, rfl⟩

/-- A property of the attributes of a definition that reading keeps: it holds when there are none, and an
attribute that is read may be added under its own name. -/
structure Invariant (P : Definition → Prop) : Prop where
  empty : ∀ namespaceName version locale, P (.empty namespaceName version locale)
  insert : ∀ {language d e a}, readAttribute language d e = .ok a → P d →
    P { d with attributes := d.attributes.insert a.name a }
  congr : ∀ {d d' : Definition}, P d → d'.attributes = d.attributes → P d'

namespace Invariant

variable {P : Definition → Prop}

theorem addTokenPart (invariant : Invariant P) (s : Draft) (e : Element) (holds : P s.definition) :
    Ensures (fun s' : Draft => P s'.definition) (addTokenPart language s e) := by
  unfold Document.addTokenPart
  dsimp only
  split
  · exact (addOrigins_keeps s.definition e).bind fun d kept =>
      .pure (invariant.congr holds kept.attributes_eq)
  split
  · exact (addContract_keeps s.definition e).bind fun d kept => .pure (invariant.congr holds kept)
  split
  · exact .pure (invariant.congr holds rfl)
  split
  · exact .pure (invariant.congr holds (addSelection_keeps s.definition e).attributes_eq)
  split
  · exact .after fun _ => .pure (invariant.congr holds rfl)
  split
  · intro s' given
    exact invariant.congr holds (addCards_keeps s e.elements s' given).attributes_eq
  split
  · -- The one part that adds an attribute.
    exact (Ensures.self _).bind fun a given => .pure (invariant.insert given holds)
  split
  · exact (addAttestation_keeps s.definition e).bind fun d kept =>
      .pure (invariant.congr holds kept.attributes_eq)
  · exact .pure holds

theorem readRoot (invariant : Invariant P) {start : Definition} (holds : P start) (root : Element) :
    Ensures P (readRoot language start root) := by
  unfold Document.readRoot
  split
  · refine Ensures.bind (P := fun s : Draft => P s.definition)
      (.foldlM invariant.addTokenPart holds root.elements) ?_
    intro s holds'
    exact .pure holds'
  split
  · exact .after fun _ => .pure (invariant.congr holds rfl)
  · exact .error _

/-- What reading keeps holds of every definition that is read. -/
theorem of_read (invariant : Invariant P) {document : String} {options : ReaderOptions}
    {d : Definition} (given : read document options = .ok d) : P d := by
  obtain ⟨root, following, language, namespaceName, version, d₀, -, done, rfl⟩ :=
    exists_readRoot_of_read given
  exact invariant.congr (invariant.readRoot (invariant.empty _ _ _) root d₀ done) rfl

/-- What is true of every attribute that is read, under its own name, is true of all attributes of a
definition. -/
theorem each {P : String → Attribute → Prop}
    (holds : ∀ {language d e a}, readAttribute language d e = .ok a → P a.name a) :
    Invariant fun d => ∀ name a, d.attributes.get? name = some a → P name a where
  empty := by
    intro namespaceName version locale name a known
    simp [Definition.empty] at known
  insert := by
    intro language d e a given before name b known
    rcases of_get?_insert known with ⟨rfl, rfl⟩ | known
    · exact holds given
    · exact before name b known
  congr := by
    intro d d' before same name a known
    rw [same] at known
    exact before name a known

end Invariant

theorem invariant_wellNamed : Invariant Definition.WellNamed :=
  .each fun _ => rfl

/-- In the definition that a document gives, every attribute is found under its own name. -/
theorem wellNamed_of_readWith {document : String} {settings : Settings} {d : Definition}
    (given : readWith document settings = .ok d) : d.WellNamed := by
  unfold readWith at given
  split at given
  · cases given
  · rename_i options _
    cases done : read document options with
    | error e => rw [done] at given; cases given
    | ok d' =>
        rw [done] at given
        cases given
        exact invariant_wellNamed.of_read done

end Document

end TokenSchema
