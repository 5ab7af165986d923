import TokenSchema.Proofs.Document.Mapping

/-!
# Calls in documents — where the calls of a definition come from

A definition holds calls in five tables, and views and actions inside them hold more (`Definition.HasCall`). Which
elements a part of a document gives its calls from can be read off the part without reading it
(`Document.attributeCalls`, `Document.viewCalls`, `Document.actionCalls`, `Document.cardsPartCalls`), and each call
of what is read is one of these elements, read with the definition as it stood at the part (`Document.ReadFrom`).
-/

namespace TokenSchema

/-! ## Calls that are held -/

/-- An entry of a table has the call. -/
def InTable {α : Type} (table : Std.TreeMap String α) (has : α → CallTemplate → Prop) (c : CallTemplate) : Prop :=
  ∃ name a, table.get? name = some a ∧ has a c

namespace InTable

variable {α : Type} {has : α → CallTemplate → Prop} {c : CallTemplate}

theorem not_empty : ¬ InTable (∅ : Std.TreeMap String α) has c := by
  rintro ⟨name, a, found, -⟩
  simp at found

/-- A call of a table with one more entry is a call of that entry, or was there before. -/
theorem of_insert {table : Std.TreeMap String α} {key : String} {a : α}
    (h : InTable (table.insert key a) has c) : has a c ∨ InTable table has c := by
  obtain ⟨name, b, found, held⟩ := h
  rcases of_get?_insert found with ⟨-, rfl⟩ | before
  · exact .inl held
  · exact .inr ⟨name, b, before, held⟩

end InTable

/-- The value of the attribute comes from the call. -/
def Attribute.HasCall (a : Attribute) (c : CallTemplate) : Prop :=
  a.call = some c

/-- An attribute of the view has the call. -/
def View.HasCall (v : View) (c : CallTemplate) : Prop :=
  InTable v.attributes Attribute.HasCall c

/-- The call is that of the action, of an attribute of it, or of its view. -/
def Action.HasCall (a : Action) (c : CallTemplate) : Prop :=
  a.call = some c ∨ InTable a.attributes Attribute.HasCall c ∨ ∃ v, a.view = some v ∧ v.HasCall c

/-- A view of the card has the call. -/
def ActivityCard.HasCall (card : ActivityCard) (c : CallTemplate) : Prop :=
  InTable card.views View.HasCall c

/-- The attestation is checked by the call. -/
def Attestation.HasCall (a : Attestation) (c : CallTemplate) : Prop :=
  a.call = some c

namespace Definition

/-- The call stands somewhere in the definition. -/
def HasCall (d : Definition) (c : CallTemplate) : Prop :=
  InTable d.attributes Attribute.HasCall c ∨ InTable d.tokenViews View.HasCall c ∨
    InTable d.activityCards ActivityCard.HasCall c ∨ InTable d.actions Action.HasCall c ∨
      InTable d.attestations Attestation.HasCall c

variable {d : Definition} {key : String} {c : CallTemplate}

theorem not_hasCall_empty {namespaceName locale : String} {version : SchemaVersion} :
    ¬ (Definition.empty namespaceName version locale).HasCall c := by
  rintro (h | h | h | h | h) <;> exact InTable.not_empty h

theorem hasCall_of_attribute {a : Attribute}
    (h : HasCall { d with attributes := d.attributes.insert key a } c) : a.HasCall c ∨ d.HasCall c := by
  rcases h with new | rest
  · exact new.of_insert.imp_right .inl
  · exact .inr (.inr rest)

theorem hasCall_of_tokenView {v : View}
    (h : HasCall { d with tokenViews := d.tokenViews.insert key v } c) : v.HasCall c ∨ d.HasCall c := by
  rcases h with before | new | rest
  · exact .inr (.inl before)
  · exact new.of_insert.imp_right fun h => .inr (.inl h)
  · exact .inr (.inr (.inr rest))

theorem hasCall_of_activityCard {card : ActivityCard}
    (h : HasCall { d with activityCards := d.activityCards.insert key card } c) :
    card.HasCall c ∨ d.HasCall c := by
  rcases h with before | before | new | rest
  · exact .inr (.inl before)
  · exact .inr (.inr (.inl before))
  · exact new.of_insert.imp_right fun h => .inr (.inr (.inl h))
  · exact .inr (.inr (.inr (.inr rest)))

theorem hasCall_of_action {a : Action}
    (h : HasCall { d with actions := d.actions.insert key a } c) : a.HasCall c ∨ d.HasCall c := by
  rcases h with before | before | before | new | rest
  · exact .inr (.inl before)
  · exact .inr (.inr (.inl before))
  · exact .inr (.inr (.inr (.inl before)))
  · exact new.of_insert.imp_right fun h => .inr (.inr (.inr (.inl h)))
  · exact .inr (.inr (.inr (.inr (.inr rest))))

theorem hasCall_of_attestation {a : Attestation}
    (h : HasCall { d with attestations := d.attestations.insert key a } c) : a.HasCall c ∨ d.HasCall c := by
  rcases h with before | before | before | before | new
  · exact .inr (.inl before)
  · exact .inr (.inr (.inl before))
  · exact .inr (.inr (.inr (.inl before)))
  · exact .inr (.inr (.inr (.inr (.inl before))))
  · exact new.of_insert.imp_right fun h => .inr (.inr (.inr (.inr h)))

end Definition

namespace Document

open TokenSchema.Markup

/-! ## Elements that are calls -/

/-- An origin of an attribute that is a call or a transaction on the chain. -/
def isCallOrigin (o : Element) : Bool :=
  isChainElement o && (o.label == "transaction" || o.label == "call")

/-- The calls among the origins of an attribute. -/
def attributeCalls (e : Element) : List Element :=
  (originsOf e.elements).filter isCallOrigin

/-- The calls of the attributes in a view. -/
def viewCalls (e : Element) : List Element :=
  (e.elements.filter (·.label == "attribute")).flatMap attributeCalls

/-- The transaction below an element of an action: the first element below it, if it is one on the chain. -/
def transactionCalls (e : Element) : List Element :=
  e.elements.head?.toList.filter fun t => t.label == "transaction" && isChainElement t

/-- The calls of an element directly below an action. -/
def actionPartCalls (e : Element) : List Element :=
  if isSignatureElement e then []
  else if e.label = "attribute" then attributeCalls e
  else if e.label = "transaction" then transactionCalls e
  else if e.label = "view" then viewCalls e
  else []

/-- The calls of an action. -/
def actionCalls (e : Element) : List Element :=
  e.elements.flatMap actionPartCalls

/-- The calls of the views in an activity card. -/
def activityCalls (e : Element) : List Element :=
  (e.elements.filter fun v => v.label == "view" || v.label == "item-view").flatMap viewCalls

/-- The calls of a card, by its type. -/
def cardCalls (e : Element) : List Element :=
  let type := (e.tag.attribute? "type").getD ""
  if type = "token" then viewCalls e
  else if type = "activity" ∧ (e.elements.any (·.label == "origins")) then activityCalls e
  else if type = "action" ∨ type = "activity" then actionCalls e
  else []

/-- The calls of an element among the cards. -/
def cardsPartCalls (e : Element) : List Element :=
  if e.label = "token" ∨ e.label = "token-card" then viewCalls e
  else if e.label = "card" then cardCalls e
  else []

/-- Each of the calls is one of the elements, read with the definition. -/
def ReadFrom (d : Definition) (es : List Element) (calls : CallTemplate → Prop) : Prop :=
  ∀ c, calls c → ∃ e ∈ es, ∃ form, c = readCall d form e

namespace ReadFrom

variable {d : Definition} {es : List Element}

theorem mono {es' : List Element} {calls : CallTemplate → Prop} (h : ReadFrom d es calls) (more : es ⊆ es') :
    ReadFrom d es' calls := by
  intro c held
  obtain ⟨e, member, form, eq⟩ := h c held
  exact ⟨e, more member, form, eq⟩

theorem empty {α : Type} {has : α → CallTemplate → Prop} :
    ReadFrom d es (InTable (∅ : Std.TreeMap String α) has) :=
  fun _ held => absurd held InTable.not_empty

theorem insert {α : Type} {has : α → CallTemplate → Prop} {table : Std.TreeMap String α} {key : String} {a : α}
    (new : ReadFrom d es (has a)) (old : ReadFrom d es (InTable table has)) :
    ReadFrom d es (InTable (table.insert key a) has) :=
  fun c held => held.of_insert.elim (new c) (old c)

end ReadFrom

variable {language : String} {d : Definition} {es : List Element}

/-! ## Attributes -/

/-- The call of an attribute being read is one of the elements. -/
def AttributeDraft.CallFrom (d : Definition) (es : List Element) (a : AttributeDraft) : Prop :=
  ReadFrom d es (a.value.call = some ·)

namespace AttributeDraft.CallFrom

variable {a : AttributeDraft}

theorem congr {a' : AttributeDraft} (h : a.CallFrom d es) (same : a'.value.call = a.value.call) :
    a'.CallFrom d es := by
  intro c held
  rw [same] at held
  exact h c held

theorem withKind (h : a.CallFrom d es) (word : Option String) : (a.withKind word).CallFrom d es := by
  unfold AttributeDraft.withKind
  generalize Kind.ofWord _ = kind
  exact h.congr rfl

theorem withMapping (h : a.CallFrom d es) (members : Std.TreeMap Nat String) :
    (a.withMapping members).CallFrom d es := by
  unfold AttributeDraft.withMapping
  split <;> exact h.congr rfl

theorem withMask (h : a.CallFrom d es) (e : Element) : Ensures (CallFrom d es) (a.withMask e) := by
  unfold AttributeDraft.withMask
  split
  · exact .pure h
  · exact .after fun _ => .pure (h.congr rfl)

theorem atContract (h : a.CallFrom d es) (e : Element) : (a.atContract e).CallFrom d es := by
  unfold AttributeDraft.atContract
  split
  · exact h.congr rfl
  · exact h

/-- An origin adds its own call at most, and an event adds none. -/
theorem readAttributeOrigin (h : a.CallFrom d es) {o : Element} (among : isCallOrigin o → o ∈ es) :
    Ensures (CallFrom d es) (readAttributeOrigin language d a o) := by
  -- Most origins first set the kind of the attribute, which has nothing to do with its call.
  have kinded := h.withKind (o.tag.attribute? "as")
  unfold Document.readAttributeOrigin readChainOrigin
  generalize a.withKind (o.tag.attribute? "as") = b at kinded ⊢
  split
  · rename_i onChain
    dsimp only
    split
    · rename_i label
      have isCall : isCallOrigin o := by simp [isCallOrigin, onChain, label]
      exact .pure fun c held => ⟨o, among isCall, _, (Option.some.inj held).symm⟩
    split
    · exact .after fun _ => .pure (kinded.congr rfl)
    · exact .error _
  split
  · have mapped (a' : AttributeDraft) (m : Element) (h' : a'.CallFrom d es) :
        Ensures (CallFrom d es) (do return a'.withMapping (← readMapping language m)) :=
      .after fun members => .pure (h'.withMapping members)
    exact (Ensures.foldlM mapped kinded _).bind fun a' h' => h'.withMask o
  split
  · refine withMask ?_ o
    exact kinded.congr rfl
  split
  · cases o.tag.attribute? "as" with
    | some word =>
        have worded := h.withKind (some word)
        dsimp only
        generalize a.withKind (some word) = b at worded ⊢
        exact .pure (worded.congr rfl)
    | none => exact .pure (h.congr rfl)
  split
  · split
    · exact .pure (h.congr rfl)
    · exact .error _
  · exact .error _

/-- Of what stands directly below an attribute only lists of origins add calls. -/
theorem readAttributePart (h : a.CallFrom d es) {p : Element}
    (among : p.label = "origins" → ∀ o ∈ p.elements, isCallOrigin o → o ∈ es) :
    Ensures (CallFrom d es) (readAttributePart language d a p) := by
  rw [readAttributePart_eq]
  refine Ensures.bind (P := CallFrom d es) ?_ fun a' h' => .pure (h'.atContract p)
  unfold readLabelled
  split
  · exact .pure (h.congr rfl)
  split
  · rename_i isOrigins
    exact .foldlM_of_mem (fun o inside a' h' => h'.readAttributeOrigin (among isOrigins o inside)) h
  split
  · split
    · exact .pure (h.congr rfl)
    · exact .pure h
  split
  · cases readMapping language p with
    | error cause => exact .error cause
    | ok members => exact .pure (h.withMapping members)
  · exact .pure h

end AttributeDraft.CallFrom

/-- The call of an attribute is one of its origins. -/
theorem readFrom_readAttribute (e : Element) :
    Ensures (fun a => ReadFrom d (attributeCalls e) a.HasCall) (readAttribute language d e) := by
  have among : ∀ p ∈ e.elements, p.label = "origins" → ∀ o ∈ p.elements, isCallOrigin o →
      o ∈ attributeCalls e := by
    intro p member isOrigins o inside isCall
    have listed : o ∈ originsOf e.elements :=
      List.mem_flatMap.2 ⟨p, List.mem_filter.2 ⟨member, by simp [isOrigins]⟩, inside⟩
    exact List.mem_filter.2 ⟨listed, isCall⟩
  unfold readAttribute
  split
  · exact .error _
  · refine (Ensures.foldlM_of_mem (P := AttributeDraft.CallFrom d (attributeCalls e))
      (fun p member a h => h.readAttributePart (among p member)) ?_).bind fun a h => .pure h
    rintro c ⟨⟩

/-! ## Views, actions and cards -/

/-- The calls of a view are those of its attributes. -/
theorem readFrom_readView (e : Element) :
    Ensures (fun v => ReadFrom d (viewCalls e) v.HasCall) (readView language d e) := by
  have part : ∀ p ∈ e.elements, ∀ v : View, ReadFrom d (viewCalls e) v.HasCall →
      Ensures (fun v' : View => ReadFrom d (viewCalls e) v'.HasCall) (addViewPart language d v p) := by
    intro p member v h
    unfold addViewPart
    split
    · exact .pure h
    split
    · exact .pure h
    split
    · rename_i isAttribute
      have among : attributeCalls p ⊆ viewCalls e :=
        fun _ => List.mem_flatMap_of_mem (List.mem_filter.2 ⟨member, by simp [isAttribute]⟩)
      exact (readFrom_readAttribute p).bind fun a new => .pure ((new.mono among).insert h)
    split
    · exact .pure h
    · exact .pure h
  unfold readView
  refine (Ensures.foldlM_of_mem part ReadFrom.empty).bind fun v h => .pure ?_
  split <;> exact h

theorem readFrom_readTransaction (e : Element) :
    ReadFrom d (transactionCalls e) (readTransaction d e = some ·) := by
  intro c held
  unfold readTransaction at held
  obtain ⟨t, first, held⟩ := Option.bind_eq_some_iff.1 held
  rw [Option.ite_none_right_eq_some] at held
  obtain ⟨⟨label, onChain⟩, ⟨⟩⟩ := held
  exact ⟨t, by simp [transactionCalls, first, label, onChain], _, rfl⟩

/-- The calls of an action are its transaction and those of its attributes and its view. -/
theorem readFrom_readAction (order : Nat) (e : Element) :
    Ensures (fun a => ReadFrom d (actionCalls e) a.HasCall) (readAction language d order e) := by
  have part : ∀ p ∈ e.elements, ∀ a : Action, ReadFrom d (actionCalls e) a.HasCall →
      Ensures (fun a' : Action => ReadFrom d (actionCalls e) a'.HasCall) (addActionPart language d a p) := by
    intro p member a h
    -- The calls of a part are told by the tests that its reader makes, so both are followed test by test.
    have among : actionPartCalls p ⊆ actionCalls e := fun _ => List.mem_flatMap_of_mem member
    unfold actionPartCalls at among
    unfold addActionPart
    split
    · exact .pure h
    rename_i signed
    rw [if_neg signed] at among
    split
    · exact .pure h
    split
    · rename_i label
      rw [if_pos label] at among
      refine (readFrom_readAttribute p).bind fun value new => .pure ?_
      rintro c (own | inner | viewed)
      · exact h c (.inl own)
      · exact (new.mono among).insert (fun c old => h c (.inr (.inl old))) c inner
      · exact h c (.inr (.inr viewed))
    rename_i notAttribute
    rw [if_neg notAttribute] at among
    split
    · rename_i label
      rw [if_pos label] at among
      refine .pure ?_
      rintro c (own | rest)
      · rcases Option.or_eq_some_iff.1 own with new | ⟨-, old⟩
        · exact (readFrom_readTransaction p).mono among c new
        · -- Without a transaction below it, the part leaves the one read before it.
          exact h c (.inl old)
      · exact h c (.inr rest)
    rename_i notTransaction
    rw [if_neg notTransaction] at among
    split
    · exact .pure h
    split
    · rename_i label
      rw [if_pos label] at among
      refine (readFrom_readView p).bind fun v new => .pure ?_
      rintro c (own | inner | ⟨v', ⟨⟩, viewed⟩)
      · exact h c (.inl own)
      · exact h c (.inr (.inl inner))
      · exact new.mono among c viewed
    split
    · exact .pure h
    split
    · exact .pure h
    · exact .error _
  unfold readAction
  refine .after fun modifier => Ensures.foldlM_of_mem part ?_
  rintro c (own | inner | ⟨v, shown, -⟩)
  · cases own
  · exact absurd inner InTable.not_empty
  · cases shown

/-- The calls of an activity card are those of its views. -/
theorem readFrom_readActivity (e : Element) :
    Ensures (fun card => ReadFrom d (activityCalls e) card.2.HasCall) (readActivity language d e) := by
  have part : ∀ p ∈ e.elements, ∀ card : ActivityDraft,
      ReadFrom d (activityCalls e) (InTable card.views View.HasCall) →
      Ensures (fun card' : ActivityDraft => ReadFrom d (activityCalls e) (InTable card'.views View.HasCall))
        (addActivityPart language d card p) := by
    intro p member card h
    unfold addActivityPart
    split
    · refine .after fun origin => ?_
      split <;> exact .pure h
    split
    · rename_i isView
      have among : viewCalls p ⊆ activityCalls e :=
        fun _ => List.mem_flatMap_of_mem (List.mem_filter.2 ⟨member, by simpa using isView⟩)
      exact (readFrom_readView p).bind fun v new => .pure ((new.mono among).insert h)
    split
    · exact .pure h
    · exact .error _
  unfold readActivity
  exact (Ensures.foldlM_of_mem part ReadFrom.empty).bind fun card h => .pure h

end Document
end TokenSchema
