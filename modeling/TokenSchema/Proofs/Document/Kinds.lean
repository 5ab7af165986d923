import Mathlib.Logic.Relation
import TokenSchema.Proofs.Resolution.Labels

/-!
# Kinds — the last to speak says of which kind an attribute is

A mapping makes an attribute one that shows labels, and an origin makes it one of the kind that it declares. None
of them looks at what has been said before, so the kind is that of the last one in document order
(`Document.kind_of_readAttribute`). An attribute with a mapping therefore shows its labels exactly if no origin
after the last mapping declares another kind (`Document.kind_eq_mapping_iff`).

Whether an attribute can be read at all does not depend on the order of its parts
(`Document.Rearranges.isOk_readAttribute`). So an origin with a word for another kind can always be put last, and
the order does not matter exactly if there is no such origin (`Document.always_mapping_iff`).
-/

namespace TokenSchema

namespace Attribute

variable {a : Attribute}

/-- A mapping shows the label at the place of a value, whatever the form is. -/
theorem show?_of_label (mapping : a.kind = .mapping) {value : Nat} {label : String}
    (labelled : a.members.bind (·.get? (a.insert value)) = some label) : a.show? value = some label := by
  have nonneg : ¬ (value : Int) < 0 := by omega
  simp only [show?, mapping, if_neg nonneg, Int.toNat_natCast, label?, labelled]

/-- Labels have no part in how a value of another kind is shown. -/
theorem show?_of_ne_mapping (other : a.kind ≠ .mapping) (members : Option (Std.TreeMap Nat String)) (z : Int) :
    { a with members := members }.show? z = a.show? z := by
  unfold show?
  cases kind : a.kind with
  | mapping => exact absurd kind other
  | _ => rfl

end Attribute

namespace Document

open TokenSchema.Markup

/-! ## What is said of the kind -/

/-- What says of which kind an attribute is. -/
inductive KindMark where
  /-- A mapping, or a part that names the holding contract. -/
  | mapping
  /-- An origin with the word for a kind; no word is the empty one. -/
  | declared (word : String)
  deriving DecidableEq, Repr

/-- The kind that is said. -/
def KindMark.kind : KindMark → Kind
  | .mapping => .mapping
  | .declared word => Kind.ofWord word

/-- The kind after all that is said. -/
def kindAfter (marks : List KindMark) : Kind :=
  (marks.getLast?.map KindMark.kind).getD .unsigned

/-- What one origin says, its own word before the mappings inside. -/
def originKinds (e : Element) : List KindMark :=
  let declared := .declared ((e.tag.attribute? "as").getD "")
  if isChainElement e then [declared]
  else if e.label = "token-id" then
    declared :: (e.elements.filter (·.label == "mapping")).map fun _ => .mapping
  else if e.label = "user-entry" then [declared]
  else if e.label = "value" then ((e.tag.attribute? "as").map .declared).toList
  else []

/-- What one element directly below an attribute says by its label. -/
def labelledKinds (e : Element) : List KindMark :=
  if e.label = "origins" then e.elements.flatMap originKinds
  else if e.label = "mapping" then [.mapping]
  else []

/-- Whether an element names the holding contract as its contract. -/
def namesHolder (e : Element) : Bool :=
  (e.tag.attribute? "contract").any (sameIgnoringCase · "holding-contract")

/-- What one element directly below an attribute says in all. -/
def partKinds (e : Element) : List KindMark :=
  labelledKinds e ++ if namesHolder e then [.mapping] else []

/-- All that an attribute says of its kind, in document order. -/
def kindMarks (e : Element) : List KindMark :=
  e.elements.flatMap partKinds

/-- An attribute has a mapping, as a child or inside a token id among its origins. -/
inductive HoldsMapping (e : Element) : Prop where
  | child {part : Element} (member : part ∈ e.elements) (label : part.label = "mapping")
  | tokenId {part origin mapping : Element} (member : part ∈ e.elements) (origins : part.label = "origins")
      (lists : origin ∈ part.elements) (offChain : isChainElement origin = false)
      (tokenId : origin.label = "token-id") (inside : mapping ∈ origin.elements)
      (label : mapping.label = "mapping")

@[simp] theorem kindAfter_concat (marks : List KindMark) (m : KindMark) : kindAfter (marks ++ [m]) = m.kind := by
  simp [kindAfter]

/-- A mapping is something that is said. -/
theorem HoldsMapping.mem_kindMarks {e : Element} (holds : HoldsMapping e) : .mapping ∈ kindMarks e := by
  cases holds with
  | @child part member label =>
      refine List.mem_flatMap.2 ⟨part, member, List.mem_append_left _ ?_⟩
      simp [labelledKinds, label]
  | @tokenId part origin mapping member origins lists offChain tokenId inside label =>
      refine List.mem_flatMap.2 ⟨part, member, List.mem_append_left _ ?_⟩
      rw [labelledKinds, if_pos origins]
      refine List.mem_flatMap.2 ⟨origin, lists, ?_⟩
      have among : mapping ∈ origin.elements.filter (·.label == "mapping") :=
        List.mem_filter.2 ⟨inside, by simp [label]⟩
      simp only [originKinds, offChain, Bool.false_eq_true, if_false, tokenId, if_true]
      exact List.mem_cons_of_mem _ (List.mem_map.2 ⟨mapping, among, rfl⟩)

/-! ## Reading -/

/-- The kind of an attribute being read is what has been said of it. -/
structure Follows (marks : List KindMark) (a : AttributeDraft) : Prop where
  kind_eq : a.value.kind = kindAfter marks

variable {language : String} {d : Definition} {marks : List KindMark} {a : AttributeDraft}

namespace Follows

theorem withKind (marks : List KindMark) (a : AttributeDraft) (word : Option String) :
    Follows (marks ++ [.declared (word.getD "")]) (a.withKind word) := by
  constructor
  simp only [kindAfter_concat, KindMark.kind, AttributeDraft.withKind]

theorem withMapping (marks : List KindMark) (a : AttributeDraft) (members : Std.TreeMap Nat String) :
    Follows (marks ++ [.mapping]) (a.withMapping members) := by
  constructor
  rw [kindAfter_concat, AttributeDraft.withMapping]
  cases members.isEmpty <;> rfl

/-- A mask says nothing of the kind. -/
theorem withMask (follows : Follows marks a) (e : Element) : Ensures (Follows marks) (a.withMask e) := by
  unfold AttributeDraft.withMask
  split
  · exact .pure follows
  · exact .after fun _ => .pure ⟨follows.kind_eq⟩

theorem atContract (follows : Follows marks a) (e : Element) :
    Follows (marks ++ if namesHolder e then [.mapping] else []) (a.atContract e) := by
  unfold AttributeDraft.atContract namesHolder
  split
  · exact ⟨(kindAfter_concat marks .mapping).symm⟩
  · rwa [List.append_nil]

/-- Each mapping inside a token id speaks for itself. -/
theorem readMappings (follows : Follows marks a) (mappings : List Element) :
    Ensures (Follows (marks ++ mappings.map fun _ => .mapping))
      (mappings.foldlM (fun a m => do return a.withMapping (← readMapping language m)) a) := by
  rw [List.map_eq_flatMap]
  refine Ensures.foldlM_flatMap ?_ follows mappings
  intro marks a m _
  exact .after fun members => .pure (withMapping marks a members)

theorem readChainOrigin (marks : List KindMark) (a : AttributeDraft) (e : Element) :
    Ensures (Follows (marks ++ [.declared ((e.tag.attribute? "as").getD "")])) (readChainOrigin d a e) := by
  have follows := withKind marks a (e.tag.attribute? "as")
  unfold Document.readChainOrigin
  generalize a.withKind (e.tag.attribute? "as") = a at follows ⊢
  split
  · exact .pure ⟨follows.kind_eq⟩
  split
  · exact .after fun _ => .pure ⟨follows.kind_eq⟩
  · exact .error _

theorem readAttributeOrigin (follows : Follows marks a) (e : Element) :
    Ensures (Follows (marks ++ originKinds e)) (readAttributeOrigin language d a e) := by
  have declared := withKind marks a (e.tag.attribute? "as")
  unfold Document.readAttributeOrigin originKinds
  dsimp only
  generalize a.withKind (e.tag.attribute? "as") = kinded at declared ⊢
  split
  · exact readChainOrigin marks a e
  split
  · rw [List.append_cons]
    exact (readMappings declared _).bind fun a' follows' => follows'.withMask e
  split
  · have entered : Follows _ { kinded with value := { kinded.value with userInput := true } } :=
      ⟨declared.kind_eq⟩
    exact entered.withMask e
  split
  · cases e.tag.attribute? "as" with
    | none =>
        rw [Option.map_none, Option.toList_none, List.append_nil]
        exact .pure ⟨follows.kind_eq⟩
    | some word =>
        have declared := withKind marks a (some word)
        dsimp only [Option.map_some, Option.toList_some, Option.getD_some] at declared ⊢
        generalize a.withKind (some word) = kinded at declared ⊢
        exact .pure ⟨declared.kind_eq⟩
  split
  · rw [List.append_nil]
    split
    · exact .pure ⟨follows.kind_eq⟩
    · exact .error _
  · exact .error _

theorem readLabelled (follows : Follows marks a) (e : Element) :
    Ensures (Follows (marks ++ labelledKinds e)) (readLabelled language d a e) := by
  have silent (noOrigins : e.label ≠ "origins") (noMapping : e.label ≠ "mapping") :
      marks ++ labelledKinds e = marks := by
    rw [labelledKinds, if_neg noOrigins, if_neg noMapping, List.append_nil]
  unfold Document.readLabelled
  split
  · rename_i isType
    rw [silent (by simp [isType]) (by simp [isType])]
    exact .pure ⟨follows.kind_eq⟩
  split
  · rename_i isOrigins
    rw [labelledKinds, if_pos isOrigins]
    exact .foldlM_flatMap (fun marks a o follows => follows.readAttributeOrigin o) follows e.elements
  split
  · rename_i isLabel
    rw [silent (by simp [isLabel]) (by simp [isLabel])]
    split
    · exact .pure ⟨follows.kind_eq⟩
    · exact .pure follows
  split
  · rename_i noOrigins _ isMapping
    rw [labelledKinds, if_neg noOrigins, if_pos isMapping]
    cases readMapping language e with
    | error cause => exact .error cause
    | ok members => exact .pure (withMapping marks a members)
  · rename_i noOrigins _ noMapping
    rw [silent noOrigins noMapping]
    exact .pure follows

theorem readAttributePart (follows : Follows marks a) (e : Element) :
    Ensures (Follows (marks ++ partKinds e)) (readAttributePart language d a e) := by
  rw [readAttributePart_eq, partKinds, ← List.append_assoc]
  exact (follows.readLabelled e).bind fun a' follows' => .pure (follows'.atContract e)

end Follows

/-- The last to speak in document order says of which kind an attribute is. -/
theorem kind_of_readAttribute (language : String) (d : Definition) (e : Element) :
    Ensures (fun a => a.kind = kindAfter (kindMarks e)) (readAttribute language d e) := by
  unfold readAttribute
  split
  · exact .error _
  · rename_i name _
    have start : Follows [] ⟨{ Attribute.ofName name with originContract := d.holdingContract? }, none⟩ := ⟨rfl⟩
    have step (marks : List KindMark) (a : AttributeDraft) (part : Element) (follows : Follows marks a) :
        Ensures (Follows (marks ++ partKinds part)) (readAttributePart language d a part) :=
      follows.readAttributePart part
    exact (Ensures.foldlM_flatMap step start e.elements).bind fun a follows => .pure follows.kind_eq

/-! ## Other orders -/

section Success

variable (a a' : AttributeDraft) (e : Element)

theorem isOk_withMask : (a.withMask e).isOk = (a'.withMask e).isOk := by
  unfold AttributeDraft.withMask
  split
  · rfl
  · refine isOk_bind_congr ?_ fun _ _ => rfl
    unfold readMask
    split <;> rfl

theorem isOk_readChainOrigin : (readChainOrigin d a e).isOk = (readChainOrigin d a' e).isOk := by
  unfold readChainOrigin
  split
  · rfl
  split
  · exact isOk_bind_congr rfl fun _ _ => rfl
  · rfl

theorem isOk_readAttributeOrigin :
    (readAttributeOrigin language d a e).isOk = (readAttributeOrigin language d a' e).isOk := by
  unfold readAttributeOrigin
  split
  · exact isOk_readChainOrigin a a' e
  split
  · have step (a a' : AttributeDraft) (m : Element) :
        (do return a.withMapping (← readMapping language m) : Except DocumentError AttributeDraft).isOk =
          (do return a'.withMapping (← readMapping language m) : Except DocumentError AttributeDraft).isOk :=
      isOk_bind_congr rfl fun _ _ => rfl
    refine isOk_bind_congr ?_ fun a a' => isOk_withMask a a' e
    rw [isOk_foldlM step _ a, isOk_foldlM step _ a]
  split
  · exact isOk_withMask _ _ e
  split
  · rfl
  split
  · split <;> rfl
  · rfl

theorem isOk_readLabelled : (readLabelled language d a e).isOk = (readLabelled language d a' e).isOk := by
  unfold readLabelled
  split
  · rfl
  split
  · rw [isOk_foldlM isOk_readAttributeOrigin a a, isOk_foldlM isOk_readAttributeOrigin a' a]
  split
  · split <;> rfl
  split
  · cases readMapping language e <;> rfl
  · rfl

theorem isOk_readAttributePart :
    (readAttributePart language d a e).isOk = (readAttributePart language d a' e).isOk := by
  rw [readAttributePart_eq, readAttributePart_eq]
  exact isOk_bind_congr (isOk_readLabelled a a' e) fun _ _ => rfl

end Success

/-- A list of origins in another order. -/
structure Reorders (part part' : Element) : Prop where
  origins : part.label = "origins"
  tag : part'.tag = part.tag
  elements : part.elements.Perm part'.elements

/-- The parts of an attribute are put in another order, or the origins in one list of them. -/
inductive Rearranges (e e' : Element) : Prop where
  | parts (tag : e'.tag = e.tag) (elements : e.elements.Perm e'.elements)
  | origins {before after : List Element} {part part' : Element} (tag : e'.tag = e.tag)
      (elements : e.elements = before ++ part :: after) (elements' : e'.elements = before ++ part' :: after)
      (reorders : Reorders part part')

/-- A part that cannot end with a word for another kind: none of the origins that it lists ends with one, unless it
names the holding contract. -/
def KeepsMapping (part : Element) : Prop :=
  part.label = "origins" → namesHolder part = false → ∀ origin ∈ part.elements,
    ∀ word, (originKinds origin).getLast? = some (.declared word) → Kind.ofWord word = .mapping

namespace Reorders

variable {part part' : Element}

theorem origins' (reorders : Reorders part part') : part'.label = "origins" := by
  rw [Element.label, reorders.tag]
  exact reorders.origins

theorem namesHolder_eq (reorders : Reorders part part') : namesHolder part' = namesHolder part := by
  rw [namesHolder, namesHolder, reorders.tag]

theorem keepsMapping (reorders : Reorders part part') (keeps : KeepsMapping part) : KeepsMapping part' := by
  intro _ notHolder origin member
  rw [reorders.namesHolder_eq] at notHolder
  exact keeps reorders.origins notHolder origin (reorders.elements.mem_iff.2 member)

theorem partKinds_perm (reorders : Reorders part part') : (partKinds part).Perm (partKinds part') := by
  rw [partKinds, partKinds, labelledKinds, labelledKinds, if_pos reorders.origins, if_pos reorders.origins',
    reorders.namesHolder_eq]
  exact (reorders.elements.flatMap_right originKinds).append_right _

theorem isOk_readAttributePart (reorders : Reorders part part') (a : AttributeDraft) :
    (readAttributePart language d a part').isOk = (readAttributePart language d a part).isOk := by
  rw [readAttributePart_eq, readAttributePart_eq]
  refine isOk_bind_congr ?_ fun _ _ => rfl
  rw [readLabelled_of_origins reorders.origins, readLabelled_of_origins reorders.origins',
    isOk_foldlM isOk_readAttributeOrigin a a, isOk_foldlM isOk_readAttributeOrigin a a, reorders.elements.all_eq]

end Reorders

namespace Rearranges

variable {e e' : Element}

theorem keepsMapping (rearranges : Rearranges e e') (keeps : ∀ part ∈ e.elements, KeepsMapping part) :
    ∀ part ∈ e'.elements, KeepsMapping part := by
  cases rearranges with
  | parts _ elements => exact fun part member => keeps part (elements.mem_iff.2 member)
  | origins _ elements elements' reorders =>
      rw [elements, List.forall_mem_append, List.forall_mem_cons] at keeps
      rw [elements', List.forall_mem_append, List.forall_mem_cons]
      exact ⟨keeps.1, reorders.keepsMapping keeps.2.1, keeps.2.2⟩

theorem kindMarks_perm (rearranges : Rearranges e e') : (kindMarks e).Perm (kindMarks e') := by
  cases rearranges with
  | parts _ elements => exact elements.flatMap_right partKinds
  | origins _ elements elements' reorders =>
      rw [kindMarks, kindMarks, elements, elements', List.flatMap_append, List.flatMap_append, List.flatMap_cons,
        List.flatMap_cons]
      exact (reorders.partKinds_perm.append_right _).append_left _

/-- An attribute can be read in all orders, or in none. -/
theorem isOk_readAttribute (rearranges : Rearranges e e') :
    (readAttribute language d e').isOk = (readAttribute language d e).isOk := by
  have folds (a : AttributeDraft) : (e'.elements.foldlM (readAttributePart language d) a).isOk =
      (e.elements.foldlM (readAttributePart language d) a).isOk := by
    rw [isOk_foldlM isOk_readAttributePart a a, isOk_foldlM isOk_readAttributePart a a]
    cases rearranges with
    | parts _ elements => exact elements.all_eq.symm
    | origins _ elements elements' reorders =>
        simp only [elements, elements', List.all_append, List.all_cons, reorders.isOk_readAttributePart]
  have tag : e'.tag = e.tag := by
    cases rearranges with
    | parts tag _ => exact tag
    | origins tag _ _ _ => exact tag
  unfold readAttribute
  rw [tag]
  split
  · rfl
  · exact isOk_bind_congr (folds _) fun _ _ => rfl

end Rearranges

/-- In another order, an attribute says the same of its kind, can be read alike, and none of its parts ends with
another word. -/
theorem of_rearranged {e e' : Element} (order : Relation.ReflTransGen Rearranges e e') :
    (kindMarks e).Perm (kindMarks e') ∧
      (readAttribute language d e').isOk = (readAttribute language d e).isOk ∧
      ((∀ part ∈ e.elements, KeepsMapping part) → ∀ part ∈ e'.elements, KeepsMapping part) := by
  induction order with
  | refl => exact ⟨.refl _, rfl, id⟩
  | tail _ step ih =>
      obtain ⟨marks, reads, keeps⟩ := ih
      exact ⟨marks.trans step.kindMarks_perm, step.isOk_readAttribute.trans reads, step.keepsMapping ∘ keeps⟩

/-! ### The order with one origin last -/

/-- An element with a tag that holds some elements. -/
def holding (tag : Tag) (elements : List Element) : Element :=
  ⟨tag, elements.map (·.node)⟩

@[simp] theorem elements_holding (tag : Tag) (elements : List Element) :
    (holding tag elements).elements = elements := by
  simp only [holding, Element.elements, List.filterMap_map]
  exact List.filterMap_some

/-- An origin can be put behind all others, and its list behind all other parts. -/
theorem exists_rearranged_last {e part origin : Element} (member : part ∈ e.elements)
    (isOrigins : part.label = "origins") (among : origin ∈ part.elements) :
    ∃ e' parts part' origins, Relation.ReflTransGen Rearranges e e' ∧ e'.elements = parts ++ [part'] ∧
      part'.tag = part.tag ∧ part'.elements = origins ++ [origin] := by
  obtain ⟨before, after, parts⟩ := List.append_of_mem member
  obtain ⟨front, back, origins⟩ := List.append_of_mem among
  let part' := holding part.tag (front ++ back ++ [origin])
  let e₁ := holding e.tag (before ++ part' :: after)
  let e₂ := holding e.tag (before ++ after ++ [part'])
  have last (xs ys : List Element) (x : Element) : (xs ++ x :: ys).Perm (xs ++ ys ++ [x]) :=
    List.perm_middle.trans (List.perm_append_singleton x (xs ++ ys)).symm
  have reorders : Reorders part part' :=
    ⟨isOrigins, rfl, by rw [origins, elements_holding]; exact last front back origin⟩
  have first : Rearranges e e₁ := .origins rfl parts (elements_holding _ _) reorders
  have second : Rearranges e₁ e₂ :=
    .parts rfl (by rw [elements_holding, elements_holding]; exact last before after part')
  exact ⟨e₂, before ++ after, part', front ++ back, .tail (.tail .refl first) second, elements_holding _ _, rfl,
    elements_holding _ _⟩

/-! ## Attributes with a mapping -/

/-- After a mapping the kind is that of a mapping exactly if no word for another kind comes last. -/
theorem kindAfter_eq_mapping_iff {marks : List KindMark} (mapped : .mapping ∈ marks) :
    kindAfter marks = .mapping ↔
      ∀ word, marks.getLast? = some (.declared word) → Kind.ofWord word = .mapping := by
  have nonempty : marks ≠ [] := List.ne_nil_of_mem mapped
  obtain ⟨m, last⟩ := Option.ne_none_iff_exists'.1 (mt List.getLast?_eq_none_iff.1 nonempty)
  simp only [kindAfter, last, Option.map_some, Option.getD_some, Option.some.injEq]
  cases m with
  | mapping => simp [KindMark.kind]
  | declared word => simp only [KindMark.kind, KindMark.declared.injEq, forall_eq']

theorem exists_of_getLast?_flatMap {α β : Type} {l : List α} {g : α → List β} {b : β}
    (last : (l.flatMap g).getLast? = some b) : ∃ a ∈ l, (g a).getLast? = some b := by
  rw [List.getLast?_flatMap] at last
  obtain ⟨a, member, found⟩ := List.exists_of_findSome?_eq_some last
  exact ⟨a, List.mem_reverse.1 member, found⟩

/-- A word that comes last in a part is the last one of an origin that it lists. -/
theorem KeepsMapping.of_getLast? {part : Element} (keeps : KeepsMapping part) {word : String}
    (last : (partKinds part).getLast? = some (.declared word)) : Kind.ofWord word = .mapping := by
  rw [partKinds] at last
  cases holder : namesHolder part with
  | true => simp [holder] at last
  | false =>
      simp only [holder, Bool.false_eq_true, if_false, List.append_nil, labelledKinds] at last
      split at last
      · rename_i isOrigins
        obtain ⟨origin, member, own⟩ := exists_of_getLast?_flatMap last
        exact keeps isOrigins holder origin member word own
      split at last
      · cases last
      · cases last

/-- In every order an attribute with a mapping is of its kind exactly if no part can end with another. -/
theorem always_mapping_iff {e : Element} {a : Attribute} (mapped : .mapping ∈ kindMarks e)
    (given : readAttribute language d e = .ok a) :
    (∀ e', Relation.ReflTransGen Rearranges e e' →
      ∃ a', readAttribute language d e' = .ok a' ∧ a'.kind = .mapping) ↔
      ∀ part ∈ e.elements, KeepsMapping part := by
  constructor
  · intro every part member isOrigins notHolder origin among word last
    obtain ⟨e', parts, part', origins, order, elements, tag, elements'⟩ :=
      exists_rearranged_last member isOrigins among
    obtain ⟨a', given', mapping⟩ := every e' order
    have label' : part'.label = "origins" := by rw [Element.label, tag]; exact isOrigins
    have notHolder' : namesHolder part' = false := by rw [namesHolder, tag]; exact notHolder
    have final : (kindMarks e').getLast? = some (.declared word) := by
      simp [kindMarks, elements, partKinds, labelledKinds, label', notHolder', elements', last]
    simp only [kind_of_readAttribute language d e' a' given', kindAfter, final, Option.map_some, Option.getD_some,
      KindMark.kind] at mapping
    exact mapping
  · intro keeps e' order
    obtain ⟨marks, reads, kept⟩ := @of_rearranged language d e e' order
    rw [given] at reads
    cases given' : readAttribute language d e' with
    | error cause => rw [given'] at reads; cases reads
    | ok a' =>
        refine ⟨a', rfl, ?_⟩
        rw [kind_of_readAttribute language d e' a' given', kindAfter_eq_mapping_iff (marks.mem_iff.1 mapped)]
        intro word last
        obtain ⟨part, member, own⟩ := exists_of_getLast?_flatMap last
        exact (kept keeps part member).of_getLast? own

/-- An attribute with a mapping is of its kind exactly if no origin has the last word with one for another kind.
Then every value with a label shows it. Otherwise no label is shown: it is all the same which labels there are. It
is of its kind in whatever order its parts and origins stand, exactly if no origin ends with a word for another
kind, those aside whose list names the holding contract. -/
theorem kind_eq_mapping_iff {e : Element} {a : Attribute} (holds : HoldsMapping e)
    (given : readAttribute language d e = .ok a) :
    (a.kind = .mapping ↔
      ∀ word, (kindMarks e).getLast? = some (.declared word) → Kind.ofWord word = .mapping) ∧
    (a.kind = .mapping → ∀ (value : Nat) (label : String),
      a.members.bind (·.get? (a.insert value)) = some label → a.show? value = some label) ∧
    (a.kind ≠ .mapping → ∀ (members : Option (Std.TreeMap Nat String)) (z : Int),
      { a with members := members }.show? z = a.show? z) ∧
    ((∀ e', Relation.ReflTransGen Rearranges e e' →
        ∃ a', readAttribute language d e' = .ok a' ∧ a'.kind = .mapping) ↔
      ∀ part ∈ e.elements, KeepsMapping part) := by
  refine ⟨?_, ?_, fun other => Attribute.show?_of_ne_mapping other, always_mapping_iff holds.mem_kindMarks given⟩
  · rw [kind_of_readAttribute language d e a given]
    exact kindAfter_eq_mapping_iff holds.mem_kindMarks
  · intro mapping value label labelled
    exact Attribute.show?_of_label mapping labelled

end Document

/-! ## Grades of another kind -/

namespace Grades

/-- The mapping of a grade. -/
def labels : Markup.Node :=
  (mapping [("1", "fair")]).node

/-- The origin of a grade, which declares a number. -/
def number : Markup.Node :=
  plain "origins" [] [plain "token-id" [("as", "uint"), ("bitmask", "ff")] []]

/-- The grade of a token, in the low bits of its token id. -/
def ranked (parts : List Markup.Node) : Markup.Element :=
  ⟨⟨⟨none, "attribute"⟩, [(⟨none, "name"⟩, "grade")], []⟩, parts⟩

theorem holdsMapping_ranked {parts : List Markup.Node} (member : labels ∈ parts) :
    Document.HoldsMapping (ranked parts) := by
  have listed : mapping [("1", "fair")] ∈ (ranked parts).elements := List.mem_filterMap.2 ⟨labels, member, rfl⟩
  exact .child listed rfl

/-- Where the mapping comes last, its labels are shown. -/
theorem kind_eq_mapping_iff_labels_last :
    ∃ a, Document.HoldsMapping (ranked [number, labels]) ∧
      Document.readAttribute "en" resolver.definition (ranked [number, labels]) = .ok a ∧
      a.kind = .mapping ∧ a.show? 1 = some "fair" := by
  have holds : Document.HoldsMapping (ranked [number, labels]) := holdsMapping_ranked (by simp)
  have seen : (Document.readAttribute "en" resolver.definition (ranked [number, labels])).toOption.map
      (fun a => a.members.bind (·.get? (a.insert 1))) = some (some "fair") := by
    decide +kernel
  obtain ⟨a, read, labelled⟩ := Option.map_eq_some_iff.1 seen
  have given := eq_ok_of_toOption read
  obtain ⟨kind, shown, -⟩ := Document.kind_eq_mapping_iff holds given
  have mapping : a.kind = .mapping := by
    rw [kind]
    intro word last
    have isMapping : (Document.kindMarks (ranked [number, labels])).getLast? = some .mapping := by
      decide +kernel
    cases isMapping.symm.trans last
  exact ⟨a, holds, given, mapping, shown mapping 1 "fair" labelled⟩

/-- Where the origin comes last, the grade is a number: its label is read, and never shown. -/
theorem kind_ne_mapping_number_last :
    ∃ a, Document.HoldsMapping (ranked [labels, number]) ∧
      Document.readAttribute "en" resolver.definition (ranked [labels, number]) = .ok a ∧
      a.kind ≠ .mapping ∧ a.members.bind (·.get? (a.insert 1)) = some "fair" ∧ a.show? 1 = some "1" := by
  have holds : Document.HoldsMapping (ranked [labels, number]) := holdsMapping_ranked (by simp)
  have seen : (Document.readAttribute "en" resolver.definition (ranked [labels, number])).toOption.map
      (fun a => (a.kind, a.members.bind (·.get? (a.insert 1)), a.show? 1)) =
        some (.unsigned, some "fair", some "1") := by
    decide +kernel
  obtain ⟨a, read, shape⟩ := Option.map_eq_some_iff.1 seen
  obtain ⟨kind, labelled, shown⟩ :
      a.kind = .unsigned ∧ a.members.bind (·.get? (a.insert 1)) = some "fair" ∧ a.show? 1 = some "1" := by
    simpa using shape
  exact ⟨a, holds, eq_ok_of_toOption read, by simp [kind], labelled, shown⟩

end Grades
end TokenSchema
