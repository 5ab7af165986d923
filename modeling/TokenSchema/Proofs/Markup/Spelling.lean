import TokenSchema.Proofs.Document.Names

/-!
# Spelling — what the names of a document are made of

References put any character into the texts and attribute values of a document, but not into its names: these are
taken from tags as they are written, also where the tag stands in the replacement text of an entity. So all names
in the tree of a document are made of name characters (`Markup.spelled_of_readDocument`), and none of them holds
markup (`Markup.Spelled.bracket_not_mem`).
-/

namespace TokenSchema
namespace Markup

/-! ## Names as written -/

/-- A text of name characters. -/
def Spelled (s : String) : Prop :=
  ∀ c ∈ s.toList, isNameChar c = true

theorem Spelled.bracket_not_mem {s : String} (spelled : Spelled s) : '<' ∉ s.toList :=
  fun member => absurd (spelled _ member) (by decide)

/-- The base names of a tag as written. -/
def Token.Spelled : Token → Prop
  | .openTag name attributes | .emptyTag name attributes | .brokenTag name attributes =>
      Markup.Spelled name.base ∧ ∀ a ∈ attributes, Markup.Spelled a.name.base
  | _ => True

theorem spelled_splitName {cs : List Char} {n : RawName} (h : splitName cs = some n)
    (chars : ∀ c ∈ cs, isNameChar c = true) : Spelled n.base := by
  -- The base is what precedes the end where there is no colon, and what follows the colon otherwise.
  unfold splitName at h
  dsimp only at h
  split at h
  · split at h
    · cases h
      intro c member
      rw [String.toList_ofList] at member
      exact chars c (List.takeWhile_subset _ member)
    · cases h
  · rename_i head base rest
    split at h
    · cases h
      intro c member
      rw [String.toList_ofList] at member
      have inside : c ∈ cs.dropWhile (· != ':') := rest ▸ List.mem_cons_of_mem head member
      exact chars c (List.dropWhile_subset _ inside)
    · cases h

theorem spelled_scanRawName (cs : List Char) :
    Ensures (fun r => Spelled r.1.base) (scanRawName cs) := by
  unfold scanRawName
  split
  · rename_i n split
    rintro _ ⟨⟩
    exact spelled_splitName split (List.all_eq_true.1 List.all_takeWhile)
  · exact .error _

theorem spelled_scanAttribute (cs : List Char) :
    Ensures (fun r => Spelled r.1.name.base) (scanAttribute cs) := by
  unfold scanAttribute
  refine (spelled_scanRawName cs).bind ?_
  rintro ⟨name, rest⟩ spelled
  refine .after fun _ => .after fun _ => .after fun _ => ?_
  split
  · exact .error _
  · split
    · exact .pure spelled
    · exact .error _

theorem spelled_scanAttributes (limit : Nat) (cs : List Char) :
    Ensures (fun r => ∀ a ∈ r.1, Spelled a.name.base) (scanAttributes limit cs) := by
  have none : ∀ a ∈ ([] : List RawAttribute), Spelled a.name.base := by simp
  induction limit generalizing cs with
  | zero =>
      unfold scanAttributes
      split
      · exact .pure none
      · exact .error _
      · exact .pure none
      · exact .pure none
      · exact .error _
      · contradiction
  | succ limit ih =>
      unfold scanAttributes
      split
      · exact .pure none
      · exact .error _
      · exact .pure none
      · exact .pure none
      · contradiction
      · rename_i same _ _ _
        obtain rfl := Nat.succ.inj same
        split
        · refine (spelled_scanAttribute _).bind ?_
          rintro ⟨a, rest⟩ spelled
          refine (ih rest).bind ?_
          rintro ⟨more, tagEnd, rest⟩ each
          exact .pure (List.forall_mem_cons.2 ⟨spelled, each⟩)
        · exact .error _

/-- The tokens of a tag and of some content. -/
theorem spelled_scanTag (limit : Nat) (cs : List Char) :
    Ensures (fun r => r.1.Spelled) (scanTag limit cs) := by
  unfold scanTag
  refine (spelled_scanRawName cs).bind ?_
  rintro ⟨name, rest⟩ spelled
  dsimp only
  split
  · exact .error _
  refine (spelled_scanAttributes limit rest).bind ?_
  rintro ⟨attributes, tagEnd, rest⟩ each
  cases tagEnd with
  | opened => exact .pure ⟨spelled, each⟩
  | empty => exact .pure ⟨spelled, each⟩
  | missing => exact .pure ⟨spelled, each⟩

theorem spelled_scanToken (limit : Nat) (cs : List Char) :
    Ensures (fun r => r.1.Spelled) (scanToken limit cs) := by
  unfold scanToken
  split
  · split
    · exact .after fun _ => .pure trivial
    · exact .after fun _ => .pure trivial
    · exact .error _
  · exact .after fun _ => .pure trivial
  · exact .after fun _ => .after fun _ => .pure trivial
  · exact spelled_scanTag limit _
  · refine .after fun _ => ?_
    split
    · exact .error _
    · exact .pure trivial

theorem spelled_scanContentUpTo (limit depth : Nat) (cs : List Char) :
    Ensures (fun r => ∀ t ∈ r.1, t.Spelled) (scanContentUpTo limit depth cs) := by
  induction limit generalizing depth cs with
  | zero =>
      cases cs with
      | nil => exact .pure (by simp)
      | cons c rest => exact .error _
  | succ limit ih =>
      cases cs with
      | nil => exact .pure (by simp)
      | cons c rest =>
          refine (spelled_scanToken (limit + 1) (c :: rest)).bind ?_
          rintro ⟨t, rest⟩ spelled
          dsimp only
          split
          · exact .pure (by simpa using spelled)
          · refine (ih _ rest).bind ?_
            rintro ⟨more, rest⟩ each
            exact .pure (List.forall_mem_cons.2 ⟨spelled, each⟩)

theorem spelled_scanElement (cs : List Char) :
    Ensures (fun r => ∀ t ∈ r.1, t.Spelled) (scanElement cs) := by
  unfold scanElement
  refine (spelled_scanTag cs.length cs).bind ?_
  rintro ⟨t, rest⟩ spelled
  dsimp only
  split
  · refine (spelled_scanContentUpTo _ 0 rest).bind ?_
    rintro ⟨more, rest⟩ each
    exact .pure (List.forall_mem_cons.2 ⟨spelled, each⟩)
  · exact .pure (by simpa using spelled)

/-! ## Trees -/

/-- The base names of a tag and of its attributes. -/
structure Tag.Spelled (t : Tag) : Prop where
  name : Markup.Spelled t.name.base
  attributes : ∀ a ∈ t.attributes, Markup.Spelled a.1.base

/-- All names in a node. -/
inductive Node.Spelled : Node → Prop where
  | element {tag : Tag} {children : List Node} : tag.Spelled → (∀ n ∈ children, Node.Spelled n) →
      Node.Spelled (.element tag children)
  | text (content : String) : Node.Spelled (.text content)
  | aside : Node.Spelled .aside

/-- All names that a tree in the making holds. -/
structure Builder.Spelled (b : Builder) : Prop where
  stack : ∀ o ∈ b.stack, o.tag.Spelled ∧ ∀ n ∈ o.before, n.Spelled
  nodes : ∀ n ∈ b.nodes, n.Spelled
  attributes : ∀ a ∈ b.attributes, Markup.Spelled a.name.base

theorem spelled_joinTexts {nodes : List Node} (each : ∀ n ∈ nodes, n.Spelled) :
    ∀ n ∈ joinTexts nodes, n.Spelled := by
  fun_induction joinTexts nodes with
  | case1 a rest b more joined ih =>
      rw [List.forall_mem_cons] at each
      have later := ih each.2
      rw [joined, List.forall_mem_cons] at later
      exact List.forall_mem_cons.2 ⟨.text _, later.2⟩
  | case2 a rest apart ih =>
      rw [List.forall_mem_cons] at each
      exact List.forall_mem_cons.2 ⟨each.1, ih each.2⟩
  | case3 n rest other ih =>
      rw [List.forall_mem_cons] at each
      exact List.forall_mem_cons.2 ⟨each.1, ih each.2⟩
  | case4 => simp

namespace Builder

variable {s : Surroundings} {b : Builder}

theorem Spelled.addNode {n : Node} (spelled : b.Spelled) (node : n.Spelled) : (b.addNode n).Spelled :=
  ⟨spelled.stack, List.forall_mem_cons.2 ⟨node, spelled.nodes⟩, spelled.attributes⟩

theorem Spelled.addText (spelled : b.Spelled) (cs : List Char) : (b.addText cs).Spelled := by
  unfold Builder.addText
  split
  · exact spelled
  · exact spelled.addNode (.text _)

/-! ### Tags -/

theorem Spelled.addAttribute {a : RawAttribute} (spelled : b.Spelled) (name : Markup.Spelled a.name.base) :
    Ensures Builder.Spelled (b.addAttribute s a) := by
  unfold Builder.addAttribute
  refine .after ?_
  rintro ⟨cs, count⟩
  dsimp only
  split
  · exact .after fun _ => .pure { spelled with }
  split
  · exact .after fun _ => .pure { spelled with }
  · refine .pure { spelled with attributes := ?_ }
    intro a' member
    rcases List.mem_append.1 member with before | only
    · exact spelled.attributes a' before
    · obtain rfl := List.mem_singleton.1 only
      exact name

theorem Spelled.startTag {attributes : List RawAttribute} (spelled : b.Spelled)
    (names : ∀ a ∈ attributes, Markup.Spelled a.name.base) :
    Ensures Builder.Spelled (b.startTag s attributes) := by
  unfold Builder.startTag
  have begun : Builder.Spelled { b with started := true } := { spelled with }
  exact .foldlM_of_mem (fun a member b' spelled' => spelled'.addAttribute (names a member)) begun

theorem base_attributeName (scope : Scope) (n : RawName) :
    Ensures (fun name => name.base = n.base) (attributeName scope n) := by
  unfold attributeName
  split
  · exact .pure rfl
  split
  · exact .pure rfl
  · exact .after fun _ => .pure rfl

theorem spelled_fullAttributes (scope : Scope) {attributes : List PlainAttribute}
    (names : ∀ a ∈ attributes, Markup.Spelled a.name.base) :
    Ensures (fun full => ∀ a ∈ full, Markup.Spelled a.1.base) (fullAttributes scope attributes) := by
  unfold fullAttributes
  refine .foldlM_of_mem ?_ (by simp)
  intro a member done each
  refine (base_attributeName scope a.name).bind ?_
  intro name same
  split
  · exact .error _
  · refine .pure ?_
    intro b among
    rcases List.mem_append.1 among with before | only
    · exact each b before
    · obtain rfl := List.mem_singleton.1 only
      rw [same]
      exact names a member

/-- Where a tag ends, its attributes have left the builder. -/
theorem Spelled.settle (spelled : b.Spelled) :
    Ensures (fun r => (∀ a ∈ r.2.1, Markup.Spelled a.1.base) ∧ r.2.2.Spelled ∧
      r.2.2.stack = b.stack ∧ r.2.2.nodes = b.nodes) b.settle := by
  unfold Builder.settle
  refine (spelled_fullAttributes _ spelled.attributes).bind fun full names => .pure ⟨names, ?_, rfl, rfl⟩
  exact { spelled with attributes := by simp }

theorem Spelled.settleTag {raw : RawName} (spelled : b.Spelled) (name : Markup.Spelled raw.base) :
    Ensures (fun r => r.1.Spelled ∧ r.2.Spelled) (b.settleTag raw) := by
  unfold Builder.settleTag
  refine spelled.settle.bind ?_
  rintro ⟨scope, attributes, b'⟩ ⟨names, spelled', -, -⟩
  exact .after fun space => .pure ⟨⟨name, names⟩, spelled'⟩

theorem Spelled.openElement {raw : RawName} (spelled : b.Spelled) (name : Markup.Spelled raw.base) :
    Ensures Builder.Spelled (b.openElement raw) := by
  unfold Builder.openElement
  refine (spelled.settleTag name).bind ?_
  rintro ⟨tag, b'⟩ ⟨tagSpelled, spelled'⟩
  exact .pure ⟨List.forall_mem_cons.2 ⟨⟨tagSpelled, spelled'.nodes⟩, spelled'.stack⟩, by simp,
    spelled'.attributes⟩

theorem Spelled.closeElement {raw : RawName} (spelled : b.Spelled) :
    Ensures Builder.Spelled (b.closeElement raw) := by
  unfold Builder.closeElement
  refine spelled.settle.bind ?_
  rintro ⟨scope, attributes, b'⟩ ⟨-, spelled', -, -⟩
  dsimp only
  split
  · exact .error _
  · rename_i o stack open_
    split
    · -- The nodes so far become the children of the element, and it is added to those before it.
      have each := spelled'.stack
      rw [open_, List.forall_mem_cons] at each
      have inside : ∀ n ∈ b'.nodes.reverse, n.Spelled := fun n member =>
        spelled'.nodes n (List.mem_reverse.1 member)
      exact .pure ⟨each.2, List.forall_mem_cons.2 ⟨.element each.1.1 (spelled_joinTexts inside), each.1.2⟩,
        spelled'.attributes⟩
    · exact .error _

/-! ### Texts and tokens -/

theorem Spelled.addPieces (entity : ∀ (b : Builder) cs, b.Spelled → Ensures Builder.Spelled (s.content b cs))
    (spelled : b.Spelled) (held : List Char) (literal : Bool) (pieces : List Piece) :
    Ensures Builder.Spelled (b.addPieces s held literal pieces) := by
  induction pieces generalizing b held literal with
  | nil => exact .pure (spelled.addText _)
  | cons piece rest ih =>
      cases piece with
      | plain c => exact ih spelled _ _
      | referenced c =>
          unfold Builder.addPieces
          split
          · exact ih spelled _ _
          · exact ih spelled _ _
      | entity name =>
          -- The text so far is added first, then the content of the entity, and then the pieces behind it.
          unfold Builder.addPieces
          refine .after fun text => .after fun count => ?_
          have before : Builder.Spelled { b.addText held.reverse with count := count, started := false } :=
            { spelled.addText held.reverse with }
          refine (entity _ text before).bind fun inner inside => ?_
          have behind (count : Nat) : Builder.Spelled { inner with count := count, started := b.started } :=
            { inside with }
          exact ih (behind _) _ _

theorem Spelled.step (entity : ∀ (b : Builder) cs, b.Spelled → Ensures Builder.Spelled (s.content b cs))
    (spelled : b.Spelled) {t : Token} (names : t.Spelled) : Ensures Builder.Spelled (b.step s t) := by
  cases t with
  | openTag raw attributes =>
      exact (spelled.startTag names.2).bind fun b' spelled' => spelled'.openElement names.1
  | emptyTag raw attributes =>
      refine (spelled.startTag names.2).bind fun b' spelled' => (spelled'.settleTag names.1).bind ?_
      rintro ⟨tag, b''⟩ ⟨tagSpelled, spelled''⟩
      exact .pure (spelled''.addNode (.element tagSpelled (by simp)))
  | brokenTag raw attributes =>
      exact (spelled.startTag names.2).bind fun b' spelled' => .pure (spelled'.addNode .aside)
  | closeTag raw => exact spelled.closeElement
  | text raw => exact .after fun pieces => spelled.addPieces entity [] false pieces
  | verbatim raw => exact .pure (spelled.addText _)
  | aside => exact .pure (spelled.addNode .aside)

end Builder

/-! ## Documents -/

theorem spelled_addEntity (entities : Entities) (left : Nat) (b : Builder) (raw : List Char)
    (spelled : b.Spelled) : Ensures Builder.Spelled (addEntity entities left b raw) := by
  -- Replacement text is scanned anew, so the names in it are spelled like those of the document itself.
  induction left generalizing b raw with
  | zero =>
      refine (spelled_scanContentUpTo _ 0 raw).bind fun tokens names => ?_
      exact .foldlM_of_mem (fun t member b' spelled' =>
        spelled'.step (fun _ _ _ => .error _) (names t member)) spelled
  | succ left ih =>
      refine (spelled_scanContentUpTo _ 0 raw).bind fun tokens names => ?_
      exact .foldlM_of_mem (fun t member b' spelled' => spelled'.step ih (names t member)) spelled

/-- An element whose names are all spelled. -/
def Element.Spelled (e : Element) : Prop :=
  e.node.Spelled

theorem spelled_topElements (entities : Entities) {tokens : List Token} (names : ∀ t ∈ tokens, t.Spelled) :
    Ensures (fun top => ∀ e ∈ top.1 :: top.2, e.Spelled) (topElements entities tokens) := by
  have empty : Builder.empty.Spelled := ⟨by simp [Builder.empty], by simp [Builder.empty], by simp [Builder.empty]⟩
  unfold topElements
  refine Ensures.bind (.foldlM_of_mem (fun t member b spelled =>
    spelled.step (spelled_addEntity entities _) (names t member)) empty) fun b spelled => ?_
  split
  · exact .error _
  have elements : ∀ e ∈ b.nodes.reverse.filterMap (·.element?), e.Spelled := by
    intro e member
    obtain ⟨n, among, isElement⟩ := List.mem_filterMap.1 member
    cases n with
    | element tag children =>
        cases isElement
        exact spelled.nodes _ (List.mem_reverse.1 among)
    | text content => cases isElement
    | aside => cases isElement
  split
  · rename_i root following listed
    exact .pure (listed ▸ elements)
  · exact .error _

/-- All names in a document that is read are made of name characters. -/
theorem spelled_of_readDocument {document : String} {root : Element} {following : List Element}
    (parsed : readDocument document = .ok (root, following)) : ∀ e ∈ root :: following, e.Spelled := by
  suffices Ensures (fun top : Element × List Element => ∀ e ∈ top.1 :: top.2, e.Spelled)
      (readDocument document) from this _ parsed
  unfold readDocument
  refine .after ?_
  rintro ⟨entities, rest⟩
  dsimp only
  split
  · exact .error _
  · refine (spelled_scanElement _).bind ?_
    rintro ⟨tokens, rest⟩ names
    refine .after fun remaining => ?_
    split
    · exact spelled_topElements entities names
    · exact .error _
  · exact .error _

/-! ## Descendants -/

theorem Node.mem_listDescendants {nodes : List Node} {m : Node} :
    m ∈ Node.listDescendants nodes ↔ ∃ n ∈ nodes, m ∈ n.withDescendants := by
  induction nodes with
  | nil => simp [Node.listDescendants]
  | cons n rest ih => simp [Node.listDescendants, ih]

theorem Node.Spelled.of_mem_withDescendants {n m : Node} (spelled : n.Spelled)
    (below : m ∈ n.withDescendants) : m.Spelled := by
  induction spelled with
  | element tag children ih =>
      rw [Node.withDescendants, List.mem_cons] at below
      rcases below with rfl | below
      · exact .element tag children
      · obtain ⟨n, child, below⟩ := Node.mem_listDescendants.1 below
        exact ih n child below
  | text content =>
      obtain rfl := List.mem_singleton.1 below
      exact .text content
  | aside =>
      obtain rfl := List.mem_singleton.1 below
      exact .aside

theorem Element.Spelled.of_mem_descendants {e e' : Element} (spelled : e.Spelled)
    (below : e' ∈ e.descendants) : e'.Spelled := by
  obtain ⟨m, among, isElement⟩ := List.mem_filterMap.1 below
  have inside : m ∈ e.node.withDescendants := List.mem_cons_of_mem _ among
  cases m with
  | element tag children =>
      cases isElement
      exact Node.Spelled.of_mem_withDescendants spelled inside
  | text content => cases isElement
  | aside => cases isElement

end Markup
end TokenSchema
