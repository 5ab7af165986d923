import TokenSchema.Proofs.Attribute.Members
import TokenSchema.Proofs.Document.Names

/-!
# Members in documents — labels are kept inside the mask

The options of a mapping are moved to their places when the whole attribute has been read, by the mask that it
ends up with, so it does not matter whether the mask or the mapping comes first. All labels stand inside the
mask then (`Document.membersPlaced_of_readAttribute`), and this is what makes the way back to the values of the
document safe (`Document.documentMembers?_of_read`).
-/

namespace TokenSchema

/-- The labels of all attributes stand inside their masks. -/
def Definition.MembersPlaced (d : Definition) : Prop :=
  ∀ name a, d.attributes.get? name = some a → a.MembersPlaced

namespace Document

theorem AttributeDraft.members_finish (a : AttributeDraft) :
    a.finish.members = a.value.members.map (rekeyed · a.finish.insert) := rfl

theorem AttributeDraft.membersPlaced_finish (a : AttributeDraft) : a.finish.MembersPlaced := by
  intro members given key member
  rw [a.members_finish] at given
  obtain ⟨read, -, rfl⟩ := Option.map_eq_some_iff.1 given
  obtain ⟨value, -, rfl⟩ := exists_of_mem_rekeyed member
  exact a.finish.insert_and_bitmask value

theorem membersPlaced_of_readAttribute (language : String) (d : Definition) (e : Markup.Element) :
    Ensures Attribute.MembersPlaced (readAttribute language d e) := by
  unfold readAttribute
  split
  · exact .error _
  · exact .after fun a => .pure a.membersPlaced_finish

theorem invariant_membersPlaced : Invariant Definition.MembersPlaced :=
  .each fun given => membersPlaced_of_readAttribute _ _ _ _ given

end Document

/-- The labels by the values of the document are the kept ones under other keys. -/
theorem Definition.documentMembers?_eq {d : Definition} {name : String} {a : Attribute}
    (declared : d.attributes.get? name = some a) :
    d.documentMembers? name = (d.placedMembers? name).map (rekeyed · a.extract) := by
  rw [documentMembers?, placedMembers?, declared]
  cases members : a.members with
  | none => simp [members]
  | some table => simp [members, rekeyed]

namespace Document

/-- The labels of a mapping stand inside the mask. As the document gives them they are as many, and each is
found at the place of its value. -/
theorem documentMembers?_of_read {document : String} {options : ReaderOptions} {d : Definition}
    {name : String} {a : Attribute} {placed : Std.TreeMap Nat String}
    (given : read document options = .ok d) (declared : d.attributes.get? name = some a)
    (mapped : d.placedMembers? name = some placed) :
    (∀ key ∈ placed, key &&& a.bitmask = key) ∧
    ∃ written, d.documentMembers? name = some written ∧ written.size = placed.size ∧
      ∀ value label, written.get? value = some label →
        placed.get? (a.insert value) = some label := by
  have members : a.members = some placed := by
    rwa [Definition.placedMembers?, declared] at mapped
  have inside := invariant_membersPlaced.of_read given name a declared placed members
  refine ⟨inside, rekeyed placed a.extract, ?_, Attribute.size_rekeyed_extract inside, ?_⟩
  · rw [Definition.documentMembers?_eq declared, mapped, Option.map_some]
  · intro value label found
    exact Attribute.get?_insert_of_rekeyed_extract inside found

end Document

/-! ## Grades -/

namespace Grades

/-- The grade of a token is made of two bits that are not next to each other; the mask comes after the
labels. -/
def document : String :=
  "<token xmlns=\"http://tokenscript.org/2024/01/tokenscript\"><attribute name=\"grade\">" ++
  "<mapping><option key=\"1\" value=\"fair\"/><option key=\"4\" value=\"good\"/></mapping>" ++
  "<origins><token-id bitmask=\"50\"/></origins></attribute></token>"

/-- Options under which the document can be read. -/
def options : ReaderOptions :=
  ⟨"en", SchemaDate.oldestSupported, SchemaDate.implemented⟩

set_option maxRecDepth 100000 in
theorem read_document :
    (Document.read document options).toOption.map (fun d =>
      ((d.attributes.get? "grade").map (·.bitmask),
        (d.placedMembers? "grade").map (·.toList))) =
      some (some 0x50, some [(0x10, "fair"), (0x40, "good")]) := by
  -- Decoding the text would be most of the evaluation, so its characters are put in first.
  unfold Document.read Markup.readDocument document
  simp only [String.toList_append]
  rw [String.toList_ofList, String.toList_ofList, String.toList_ofList]
  decide +kernel

/-- The labels of the grades stand inside the mask, and lead back to the values of the document. -/
theorem documentMembers?_of_read_document :
    ∃ d a placed, Document.read document options = .ok d ∧ d.attributes.get? "grade" = some a ∧
      d.placedMembers? "grade" = some placed ∧
      placed.toList = [(0x10, "fair"), (0x40, "good")] ∧
      (∀ key ∈ placed, key &&& a.bitmask = key) ∧
      ∃ written, d.documentMembers? "grade" = some written ∧ written.size = placed.size ∧
        ∀ value label, written.get? value = some label →
          placed.get? (a.insert value) = some label := by
  obtain ⟨d, read, seen⟩ := Option.map_eq_some_iff.1 read_document
  obtain ⟨found, shown⟩ := Prod.mk.inj seen
  obtain ⟨a, declared, -⟩ := Option.map_eq_some_iff.1 found
  obtain ⟨placed, mapped, listed⟩ := Option.map_eq_some_iff.1 shown
  have given := eq_ok_of_toOption read
  exact ⟨d, a, placed, given, declared, mapped, listed,
    Document.documentMembers?_of_read given declared mapped⟩

end Grades

end TokenSchema
