import TokenSchema.Proofs.Document.Mapping
import TokenSchema.Proofs.Resolution.Outcome

/-!
# Labels — what an attribute shows for bits of its token id

An attribute that labels bits of its token id looks a value up at its place. Options come to one place when
their keys agree on the bits that the attribute can have, whatever else is in them, and the greatest key has the
place. So a label that belongs to a key with foreign bits stands in for another, or for none
(`Document.resolve_of_mapsTokenId`); where no key has foreign bits, each value has its own label.
-/

namespace TokenSchema

namespace Attribute

variable {a : Attribute}

theorem IsPlain.comesToSource (plain : a.IsPlain) (r : Resolver) {tokenId : Nat} {session : Session}
    (noResult : session.result? a.name tokenId = none) (noLocal : session.local? a.name = none) :
    r.ComesToSource tokenId session a where
  noLiteral := plain.noLiteral
  noResult := noResult
  noLocal := by rw [plain.noReference, Option.getD_none, noLocal]
  noTarget := by rw [Resolver.target?, plain.noReference, Option.bind_none]
  noEntry := plain.noEntry

theorem IsPlain.isStatic (plain : a.IsPlain) : a.isStatic = true := by
  simp [Attribute.isStatic, plain.noCall, plain.noEvent]

theorem IsPlain.resolve_eq (plain : a.IsPlain) (r : Resolver) (node : Node) (options : ResolveOptions)
    {tokenId : Nat} {h : Host} (noResult : h.session.result? a.name tokenId = none)
    (noLocal : h.session.local? a.name = none) :
    (r.resolve node options a tokenId h).1 = .ok (Resolved.ofValue a tokenId (a.extract tokenId)) := by
  rw [r.resolve_fst_eq, Resolver.resolution, r.evaluate_resolveAt_static _ _ _ _ _
    (plain.comesToSource r noResult noLocal) plain.isStatic]

/-- A mapping shows the label at the place of a value, or nothing. -/
theorem show?_of_mapping (mapping : a.kind = .mapping) (form : a.form ≠ .generalizedTime) (value : Nat) :
    a.show? value = a.members.bind (·.get? (a.insert value)) := by
  have nonneg : ¬ (value : Int) < 0 := by omega
  simp only [show?, mapping, if_neg nonneg, Int.toNat_natCast, label?, form, false_and, if_false]
  cases a.members.bind (·.get? (a.insert value)) <;> rfl

end Attribute

namespace Document

variable {language : String} {d : Definition} {e mapping : Markup.Element} {a : Attribute}

/-- Of the options whose keys come to the place of a value, the greatest key gives the label. -/
theorem show?_eq_some_iff {options : List (Nat × Option String)}
    (kind : a.kind = .mapping) (form : a.form ≠ .generalizedTime)
    (members : ∀ place,
      a.members.bind (·.get? place) = (rekeyed (optionTable options) a.insert).get? place)
    (tokenId : Nat) (label : String) :
    a.show? (a.extract tokenId) = some label ↔
      ∃ key, lastLabel? options key = some label ∧ key &&& a.span = a.extract tokenId ∧
        ∀ key' label', lastLabel? options key' = some label' →
          key' &&& a.span = a.extract tokenId → key' ≤ key := by
  have labelled (key : Nat) :
      key ∈ optionTable options ↔ ∃ label, lastLabel? options key = some label := by
    rw [Std.TreeMap.mem_iff_isSome_getElem?, Option.isSome_iff_exists]
    simp only [← get?_optionTable, Std.TreeMap.get?_eq_getElem?]
  rw [Attribute.show?_of_mapping kind form, members, get?_rekeyed_eq_some_iff]
  simp only [get?_optionTable, Attribute.insert_eq_insert_iff, Attribute.extract_and_span, labelled,
    forall_exists_index]

/-- An attribute that labels bits of its token id shows, of the options whose keys agree with the value on the
bits that it can have, the label of the greatest key. If no labelled key has other bits, this is the label of the
last option whose key is the value. -/
theorem resolve_of_mapsTokenId (maps : MapsTokenId e mapping)
    (given : readAttribute language d e = .ok a) (form : a.form ≠ .generalizedTime) :
    ∃ options, readOptions language mapping = .ok options ∧
      ∀ (r : Resolver) (node : Node) (how : ResolveOptions) (tokenId : Nat) (h : Host),
        h.session.result? a.name tokenId = none → h.session.local? a.name = none →
        ∃ x, (r.resolve node how a tokenId h).1 = .ok x ∧
          (∀ label, x.text = some label ↔ ∃ key, lastLabel? options key = some label ∧
            key &&& a.span = a.extract tokenId ∧
            ∀ key' label', lastLabel? options key' = some label' →
              key' &&& a.span = a.extract tokenId → key' ≤ key) ∧
          ((∀ key label, lastLabel? options key = some label → key &&& a.span = key) →
            x.text = lastLabel? options (a.extract tokenId)) := by
  obtain ⟨options, read, plain, kind, members⟩ := readAttribute_of_mapsTokenId maps a given
  refine ⟨options, read, ?_⟩
  intro r node how tokenId h noResult noLocal
  refine ⟨_, plain.resolve_eq r node how noResult noLocal, ?_⟩
  have shown := show?_eq_some_iff kind form members tokenId
  refine ⟨shown, ?_⟩
  intro fitting
  refine Option.ext fun label => (shown label).trans ⟨?_, ?_⟩
  · -- A key that fits is the value whose place it takes.
    rintro ⟨key, labelled, same, -⟩
    rw [← same, fitting key label labelled, labelled]
  · intro labelled
    refine ⟨_, labelled, a.extract_and_span tokenId, ?_⟩
    intro key' label' labelled' same'
    rw [← same', fitting key' label' labelled']

end Document

/-! ## Grades with foreign bits -/

namespace Grades

/-- An element without namespace. -/
def plain (label : String) (attributes : List (String × String)) (children : List Markup.Node) :
    Markup.Node :=
  .element ⟨⟨none, label⟩, attributes.map fun (name, value) => (⟨none, name⟩, value), []⟩ children

/-- A mapping with labels for some keys. -/
def mapping (labels : List (String × String)) : Markup.Element :=
  ⟨⟨⟨none, "mapping"⟩, [], []⟩,
    labels.map fun (key, label) => plain "option" [("key", key), ("value", label)] []⟩

/-- The grade of a token, in the fifth and the seventh bit of its token id. -/
def grade (labels : List (String × String)) : Markup.Element :=
  ⟨⟨⟨none, "attribute"⟩, [(⟨none, "name"⟩, "grade")], []⟩,
    [plain "origins" [] [plain "token-id" [("bitmask", "50")] [(mapping labels).node]]]⟩

theorem mapsTokenId_grade (labels : List (String × String)) :
    Document.MapsTokenId (grade labels) (mapping labels) where
  origin := ⟨_, rfl, rfl, rfl, rfl⟩
  noOther := by
    intro part member
    obtain rfl := List.mem_singleton.1 member
    exact (by decide : "origins" ≠ "mapping")

/-- A resolver for a definition that says nothing else. -/
def resolver : Resolver :=
  ⟨.empty "" ⟨none, .current, .oldestSupported⟩ "en", .standard, 0⟩

/-- A host in a new session. -/
abbrev host : Host :=
  .ofStore (.empty "" false)

/-- A node that is never asked. -/
def node : Node :=
  ⟨fun _ => .bytes [], fun _ => false, false⟩

/-- The two bits make the grades `1` and `4`, and each has its label. -/
theorem resolve_of_mapsTokenId_grade :
    ∃ a x,
      Document.readAttribute "en" resolver.definition (grade [("1", "fair"), ("4", "good")]) = .ok a ∧
      a.form ≠ .generalizedTime ∧
      (resolver.resolve node ⟨none, .detail⟩ a 0x40 host).1 = .ok x ∧ x.text = some "good" := by
  have seen : (Document.readAttribute "en" resolver.definition
      (grade [("1", "fair"), ("4", "good")])).toOption.map
        (fun a => (a.form, a.extract 0x40, a.span)) = some (.directoryString, 4, 5) := by
    decide +kernel
  obtain ⟨a, read, shape⟩ := Option.map_eq_some_iff.1 seen
  have given := eq_ok_of_toOption read
  obtain ⟨form, value, span⟩ : a.form = .directoryString ∧ a.extract 0x40 = 4 ∧ a.span = 5 := by
    simpa using shape
  have timeless : a.form ≠ .generalizedTime := by simp [form]
  obtain ⟨options, listed, each⟩ :=
    Document.resolve_of_mapsTokenId (mapsTokenId_grade _) given timeless
  have both : Document.readOptions "en" (mapping [("1", "fair"), ("4", "good")]) =
      .ok [(1, some "fair"), (4, some "good")] := by
    decide +kernel
  obtain rfl := Except.ok.inj (listed.symm.trans both)
  obtain ⟨x, found, -, own⟩ :=
    each resolver node ⟨none, .detail⟩ 0x40 host (by simp) (by simp)
  refine ⟨a, x, given, timeless, found, ?_⟩
  rw [own, value]
  · rfl
  · intro key label labelled
    have member := Document.mem_of_lastLabel? labelled
    rw [span]
    rcases List.mem_cons.1 member with same | later
    · cases same
      rfl
    · cases List.mem_singleton.1 later
      rfl

/-- The key `3` has a bit that a grade cannot have, and takes the place of the key `1`. -/
theorem resolve_grade_foreign :
    ∃ a options x,
      Document.MapsTokenId (grade [("1", "fair"), ("3", "good")]) (mapping [("1", "fair"), ("3", "good")]) ∧
      Document.readAttribute "en" resolver.definition (grade [("1", "fair"), ("3", "good")]) = .ok a ∧
      a.form ≠ .generalizedTime ∧
      Document.readOptions "en" (mapping [("1", "fair"), ("3", "good")]) = .ok options ∧
      (resolver.resolve node ⟨none, .detail⟩ a 0x10 host).1 = .ok x ∧
      Document.lastLabel? options (a.extract 0x10) = some "fair" ∧ x.text = some "good" := by
  have seen : (Document.readAttribute "en" resolver.definition
      (grade [("1", "fair"), ("3", "good")])).toOption.map
        (fun a => (a.form, a.extract 0x10, a.show? (a.extract 0x10))) =
          some (.directoryString, 1, some "good") := by
    decide +kernel
  obtain ⟨a, read, shape⟩ := Option.map_eq_some_iff.1 seen
  have given := eq_ok_of_toOption read
  obtain ⟨form, value, shown⟩ :
      a.form = .directoryString ∧ a.extract 0x10 = 1 ∧ a.show? (a.extract 0x10) = some "good" := by
    simpa using shape
  have timeless : a.form ≠ .generalizedTime := by simp [form]
  obtain ⟨-, -, plain, -⟩ := Document.readAttribute_of_mapsTokenId (mapsTokenId_grade _) a given
  have both : Document.readOptions "en" (mapping [("1", "fair"), ("3", "good")]) =
      .ok [(1, some "fair"), (3, some "good")] := by
    decide +kernel
  have found := plain.resolve_eq resolver node ⟨none, .detail⟩
    (Host.result?_ofStore (.empty "" false) a.name 0x10) (Host.local?_ofStore _ a.name)
  refine ⟨a, _, _, mapsTokenId_grade _, given, timeless, both, found, ?_, shown⟩
  rw [value]
  rfl

end Grades
end TokenSchema
