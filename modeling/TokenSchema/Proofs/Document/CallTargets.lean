import TokenSchema.Proofs.Document.Calls

/-!
# Call targets — which contract a call goes to

Contracts and the name that the token is held under are declared along a document, and a call finds those declared
before it. So the document is taken as a list of marks (`Document.documentMarks`): contracts, holders and calls, in
the order in which they are read. A definition being read holds what the marks so far declare, and calls that stand
among them (`Document.Tracks`); every part of the token adds its marks and keeps this.

A call that names a declared contract goes there, and a call that names none goes to the holding contract. But a
call that names a contract that is not declared goes to the holding contract too (`Document.contract_of_read`,
`Prices.contract_of_price`).
-/

namespace TokenSchema

/-- The call, sent to this contract. -/
def CallTemplate.sentTo (c : CallTemplate) (k : Option Contract) : CallTemplate :=
  { c with contract := k }

@[simp] theorem CallTemplate.contract_sentTo (c : CallTemplate) (k : Option Contract) :
    (c.sentTo k).contract = k := rfl

namespace Document

open TokenSchema.Markup

/-! ## Marks -/

/-- What bears on where calls go. -/
inductive Mark where
  /-- A contract is declared under a name. -/
  | contract (name : String) (c : Contract)
  /-- The token is said to be held under a name. -/
  | holder (name : String)
  /-- A call or a transaction stands here. -/
  | call (e : Element)

/-- The contract that a mark declares under a name. -/
def Mark.contractFor? (name : String) : Mark → Option Contract
  | .contract name' c => if name' = name then some c else none
  | _ => none

/-- The name under which a mark says the token is held. -/
def Mark.holder? : Mark → Option String
  | .holder name => some name
  | _ => none

/-- The contract under a name: the last one declared. -/
def declared? (marks : List Mark) (name : String) : Option Contract :=
  (marks.filterMap (·.contractFor? name)).getLast?

/-- The name that the token is held under: the last one given. -/
def holderName? (marks : List Mark) : Option String :=
  (marks.filterMap Mark.holder?).getLast?

/-- The contract that holds the token. -/
def holding? (marks : List Mark) : Option Contract :=
  (holderName? marks).bind (declared? marks)

section Marks

variable {marks more : List Mark} {name : String}

theorem declared?_append : declared? (marks ++ more) name = (declared? more name).or (declared? marks name) := by
  rw [declared?, List.filterMap_append, List.getLast?_append]
  rfl

theorem holderName?_append : holderName? (marks ++ more) = (holderName? more).or (holderName? marks) := by
  rw [holderName?, List.filterMap_append, List.getLast?_append]
  rfl

theorem declared?_singleton {name' : String} {c : Contract} :
    declared? [.contract name' c] name = if name' = name then some c else none := by
  by_cases same : name' = name <;> simp [declared?, Mark.contractFor?, same]

@[simp] theorem declared?_calls (es : List Element) : declared? (es.map .call) name = none := by
  simp [declared?, List.filterMap_map, Mark.contractFor?]

@[simp] theorem holderName?_calls (es : List Element) : holderName? (es.map .call) = none := by
  simp [holderName?, List.filterMap_map, Function.comp_def, Mark.holder?]

end Marks

/-! ## The marks of a document -/

/-- The chain that an element names. -/
def networkOf (e : Element) : Nat :=
  (Text.word64? (Text.trim ((e.tag.attribute? "network").getD ""))).getD 0

/-- Add the deployment that an element directly below a contract gives. -/
def addAddress (c : Contract) (e : Element) : Contract :=
  if e.label = "address" then c.add (networkOf e) e.textContent else c

/-- The contract that an element declares. -/
def contractOf (e : Element) : Contract :=
  e.elements.foldl addAddress (.empty (e.tag.filled? "interface"))

/-- The service of an attestation as a contract. -/
def serviceOf (e : Element) : Contract :=
  (Contract.empty (some "eas")).add (networkOf e) ((e.tag.filled? "address").getD e.textContent)

/-- The name under which an origin says the token is held. -/
def originHolder? (o : Element) : Option String :=
  if o.label = "ethereum" then some ((o.tag.filled? "contract").getD "")
  else if o.label = "attestation" then some ((o.tag.filled? "name").getD "")
  else none

/-- The name under which origins say the token is held: the last one counts, whatever it is. -/
def holderOf? (e : Element) : Option String :=
  e.elements.foldl (fun _ o => originHolder? o) none

/-- The marks of an element directly below an attestation with a name. -/
def attestationPartMarks (name : String) (e : Element) : List Mark :=
  if e.label = "eas" then [.contract name (serviceOf e)]
  else if e.label = "origins" then e.elements.head?.toList.map .call
  else []

/-- The marks of an element directly below the token. -/
def partMarks (e : Element) : List Mark :=
  if e.label = "origins" then (holderOf? e).toList.map .holder
  else if e.label = "contract" then [.contract ((e.tag.filled? "name").getD "") (contractOf e)]
  else if e.label = "cards" then e.elements.flatMap fun card => (cardsPartCalls card).map .call
  else if e.label = "attribute" then (attributeCalls e).map .call
  else if e.label = "attestation" then
    e.elements.flatMap (attestationPartMarks ((e.tag.attribute? "name").getD ""))
  else []

/-- The marks of a document, in document order. -/
def documentMarks (root : Element) : List Mark :=
  if root.label = "token" then root.elements.flatMap partMarks
  else if root.label = "card" then (actionCalls root).map .call
  else []

/-! ## Definitions and marks -/

/-- The contracts of a definition, and the name that its token is held under, are those of the marks. -/
structure Registers (marks : List Mark) (d : Definition) : Prop where
  contracts : ∀ name, d.contracts.get? name = declared? marks name
  holder : d.holdingToken = holderName? marks

/-- The call is one of the marks, read with what the marks before it declare. -/
def Placed (marks : List Mark) (c : CallTemplate) : Prop :=
  ∃ before e after, marks = before ++ .call e :: after ∧
    ∃ d form, Registers before d ∧ c = readCall d form e

/-- A definition holds what the marks declare, and its calls stand among them. -/
structure Tracks (marks : List Mark) (d : Definition) : Prop extends Registers marks d where
  calls : ∀ c, d.HasCall c → Placed marks c

section Tracking

variable {marks : List Mark} {d d' : Definition} {es : List Element} {name : String}

theorem Registers.holdingContract? (h : Registers marks d) : d.holdingContract? = holding? marks := by
  have contracts : (d.contracts.get? ·) = declared? marks := funext h.contracts
  rw [Definition.holdingContract?, holding?, h.holder, contracts]

theorem Registers.afterCalls (h : Registers marks d) (es : List Element) :
    Registers (marks ++ es.map .call) d where
  contracts name := by rw [h.contracts, declared?_append, declared?_calls, Option.none_or]
  holder := by rw [h.holder, holderName?_append, holderName?_calls, Option.none_or]

theorem Registers.congr (h : Registers marks d) (contracts : d'.contracts = d.contracts)
    (holder : d'.holdingToken = d.holdingToken) : Registers marks d' where
  contracts name := by rw [contracts, h.contracts]
  holder := holder.trans h.holder

theorem Placed.append {c : CallTemplate} (h : Placed marks c) (more : List Mark) : Placed (marks ++ more) c := by
  obtain ⟨before, e, after, rfl, read⟩ := h
  exact ⟨before, e, after ++ more, by simp, read⟩

/-- What is read from elements when the marks are declared stands after the marks. -/
theorem Registers.placed (h : Registers marks d) {calls : CallTemplate → Prop} (read : ReadFrom d es calls)
    {c : CallTemplate} (held : calls c) : Placed (marks ++ es.map .call) c := by
  obtain ⟨e, member, form, rfl⟩ := read c held
  -- What stands between the marks and the element are calls, and they declare nothing.
  obtain ⟨earlier, later, rfl⟩ := List.append_of_mem member
  exact ⟨marks ++ earlier.map .call, e, later.map .call, by simp, d, form, h.afterCalls earlier, rfl⟩

/-- Nothing is declared, and no call is added. -/
theorem Tracks.congr (t : Tracks marks d) (contracts : d'.contracts = d.contracts)
    (holder : d'.holdingToken = d.holdingToken) (calls : ∀ c, d'.HasCall c → d.HasCall c) : Tracks marks d' :=
  ⟨t.toRegisters.congr contracts holder, fun c held => t.calls c (calls c held)⟩

theorem Tracks.afterCalls (t : Tracks marks d) (es : List Element) : Tracks (marks ++ es.map .call) d :=
  ⟨t.toRegisters.afterCalls es, fun c held => (t.calls c held).append _⟩

/-- Calls are added. -/
theorem Tracks.addCalls (t : Tracks marks d) {calls : CallTemplate → Prop} (new : ReadFrom d es calls)
    (contracts : d'.contracts = d.contracts) (holder : d'.holdingToken = d.holdingToken)
    (held : ∀ c, d'.HasCall c → calls c ∨ d.HasCall c) : Tracks (marks ++ es.map .call) d' where
  toRegisters := (t.toRegisters.afterCalls es).congr contracts holder
  calls c h := (held c h).elim (t.toRegisters.placed new) fun old => (t.calls c old).append _

/-- A contract is declared. -/
theorem Tracks.addContract (t : Tracks marks d) {k : Contract} (contracts : d'.contracts = d.contracts.insert name k)
    (holder : d'.holdingToken = d.holdingToken) (calls : ∀ c, d'.HasCall c → d.HasCall c) :
    Tracks (marks ++ [.contract name k]) d' where
  contracts name' := by
    rw [contracts, Std.TreeMap.get?_eq_getElem?, Std.TreeMap.getElem?_insert, declared?_append,
      declared?_singleton, ← Std.TreeMap.get?_eq_getElem?, t.contracts]
    by_cases same : name = name'
    · simp [same]
    · simp [same]
  holder := by
    rw [holder, holderName?_append, t.holder]
    rfl
  calls c h := (t.calls c (calls c h)).append _

/-- The token is said to be held under a name. -/
theorem Tracks.hold (t : Tracks marks d) (contracts : d'.contracts = d.contracts)
    (holder : d'.holdingToken = some name) (calls : ∀ c, d'.HasCall c → d.HasCall c) :
    Tracks (marks ++ [.holder name]) d' where
  contracts name' := by
    rw [contracts, declared?_append, t.contracts]
    rfl
  holder := by
    rw [holder, holderName?_append]
    rfl
  calls c h := (t.calls c (calls c h)).append _

end Tracking

/-! ## What each part adds -/

variable {language : String} {marks : List Mark} {d : Definition} {s : Draft}

theorem chainNumber_network {e : Element} {place : NumberPlace} :
    Ensures (fun n => n = networkOf e) (chainNumber ((e.tag.attribute? "network").getD "") place) := by
  unfold chainNumber networkOf
  cases Text.word64? (Text.trim ((e.tag.attribute? "network").getD "")) with
  | none => exact .error _
  | some n => exact .pure rfl

theorem contract_foldlM_addContractPart (name : String) (c : ContractDraft) (es : List Element) :
    Ensures (fun c' : ContractDraft => c'.contract = es.foldl addAddress c.contract)
      (es.foldlM (addContractPart name) c) := by
  refine .foldlM_related (R := fun k (c : ContractDraft) => c.contract = k) ?_ rfl es
  rintro _ c e rfl
  unfold addContractPart addAddress
  split
  · refine chainNumber_network.bind fun n eq => .pure ?_
    rw [eq]
  split
  · exact .after fun _ => .pure rfl
  · exact .pure rfl

theorem tracks_addContract (t : Tracks marks d) (e : Element) :
    Ensures (Tracks (marks ++ [.contract ((e.tag.filled? "name").getD "") (contractOf e)])) (addContract d e) := by
  unfold addContract
  refine (contract_foldlM_addContractPart _ _ e.elements).bind fun c read => .pure ?_
  refine t.addContract ?_ rfl fun c held => held
  rw [read]
  rfl

/-- The last origin gives the name that the token is held under, if it is not an event. -/
theorem holder_readOrigins (e : Element) :
    Ensures (fun o : Option Origin => (o.filter Origin.isHolding).map Origin.name = holderOf? e)
      (readOrigins d e) := by
  refine .foldlM_related
    (R := fun name (o : Option Origin) => (o.filter Origin.isHolding).map Origin.name = name) ?_ rfl e.elements
  intro _ _ o _
  unfold originHolder?
  split
  · exact .pure rfl
  split
  · rename_i isAttestation
    rw [if_neg (by simp [isAttestation])]
    exact .pure rfl
  split
  · exact .after fun source => .pure rfl
  · exact .error _

theorem tracks_addOrigins (t : Tracks marks d) (e : Element) :
    Ensures (Tracks (marks ++ (holderOf? e).toList.map .holder)) (addOrigins d e) := by
  unfold addOrigins
  refine (holder_readOrigins e).bind fun o named => ?_
  rw [← named]
  cases o with
  | none =>
      simp only [Option.filter_none, Option.map_none, Option.toList_none, List.map_nil, List.append_nil]
      exact .pure t
  | some o =>
      cases holding : o.isHolding with
      | true =>
          simp only [Option.filter_some, holding, if_true, Option.map_some, Option.toList_some, List.map_cons,
            List.map_nil]
          exact .pure (t.hold rfl rfl fun c held => held)
      | false =>
          -- An event becomes the origin of the token, but the token is held under the name that it had.
          simp only [Option.filter_some, holding, Bool.false_eq_true, if_false, Option.map_none, Option.toList_none,
            List.map_nil, List.append_nil]
          exact .pure (t.congr rfl rfl fun c held => held)

theorem tracks_addTokenView (t : Tracks marks s.definition) (e : Element) :
    Ensures (fun s' : Draft => Tracks (marks ++ (viewCalls e).map .call) s'.definition)
      (addTokenView language s e) :=
  (readFrom_readView e).bind fun _ new =>
    .pure (t.addCalls new rfl rfl fun _ => Definition.hasCall_of_tokenView)

theorem tracks_addCard (t : Tracks marks s.definition) (e : Element) :
    Ensures (fun s' : Draft => Tracks (marks ++ (cardCalls e).map .call) s'.definition)
      (addCard language s e) := by
  unfold addCard cardCalls
  dsimp only
  split
  · exact tracks_addTokenView t e
  split
  · exact (readFrom_readActivity e).bind fun card new =>
      .pure (t.addCalls new rfl rfl fun _ => Definition.hasCall_of_activityCard)
  split
  · refine (readFrom_readAction _ e).bind fun a new => .pure ?_
    -- For an activity the action gets another modifier, and keeps its calls.
    unfold Draft.addAction
    split
    · exact t.addCalls new rfl rfl fun _ => Definition.hasCall_of_action
    · exact t.addCalls new rfl rfl fun _ => Definition.hasCall_of_action
  split
  · rw [List.map_nil, List.append_nil]
    exact .pure t
  · exact .error _

theorem tracks_addCardsPart (t : Tracks marks s.definition) (e : Element) :
    Ensures (fun s' : Draft => Tracks (marks ++ (cardsPartCalls e).map .call) s'.definition)
      (addCardsPart language s e) := by
  unfold addCardsPart cardsPartCalls
  split
  · exact tracks_addTokenView t e
  split
  · exact tracks_addCard t e
  rw [List.map_nil, List.append_nil]
  split
  · exact .pure (t.congr rfl rfl fun c held => held)
  · exact .pure t

/-- The marks so far are declared, and an attestation with a name has a call from among them. -/
structure AttestationTracks (name : String) (marks : List Mark) (s : Definition × Attestation) : Prop where
  tracks : Tracks marks s.1
  named : s.2.name = name
  calls : ∀ c, s.2.HasCall c → Placed marks c

/-- The call that checks an attestation is the first element below its origins; without one it stays. -/
theorem readFrom_addCheck (a : Attestation) (e : Element) :
    Ensures (fun a' : Attestation => a'.name = a.name ∧
      (a' = a ∨ ReadFrom d e.elements.head?.toList a'.HasCall)) (addCheck d a e) := by
  unfold addCheck
  cases e.elements.head? with
  | none => exact .pure ⟨rfl, .inl rfl⟩
  | some f =>
      have read : ReadFrom d [f] ({ a with call := some (readCall d .ia5String f) } : Attestation).HasCall :=
        fun c held => ⟨f, List.mem_singleton.2 rfl, _, (Option.some.inj held).symm⟩
      dsimp only
      split
      · split
        · exact .pure ⟨rfl, .inr read⟩
        · exact .error _
      · exact .pure ⟨rfl, .inr read⟩

theorem tracks_addAttestationPart {name : String} {state : Definition × Attestation}
    (t : AttestationTracks name marks state) (e : Element) :
    Ensures (AttestationTracks name (marks ++ attestationPartMarks name e))
      (addAttestationPart language state e) := by
  obtain ⟨d, a⟩ := state
  obtain ⟨tracks, rfl, calls⟩ := t
  unfold attestationPartMarks
  split
  · rename_i label
    simp only [addAttestationPart, label, String.reduceEq, if_false, if_true]
    refine chainNumber_network.bind fun n network => ?_
    have service : (Contract.empty (some "eas")).add n ((e.tag.filled? "address").getD e.textContent) =
        serviceOf e := by
      rw [network, serviceOf]
    dsimp only
    rw [service]
    exact .pure ⟨tracks.addContract rfl rfl fun c held => held, rfl, fun c held => (calls c held).append _⟩
  rename_i notService
  split
  · rename_i label
    simp only [addAttestationPart, label, String.reduceEq, if_false, if_true]
    refine (readFrom_addCheck a e).bind ?_
    -- Without an element below the origins, the check read before them stays.
    rintro a' ⟨named, rfl | read⟩
    · exact .pure ⟨tracks.afterCalls _, rfl, fun c held => (calls c held).append _⟩
    · exact .pure ⟨tracks.afterCalls _, named, fun c held => tracks.toRegisters.placed read held⟩
  rename_i notOrigins
  -- All that is left are texts and keys.
  have quiet (a' : Attestation) (named : a'.name = a.name) (called : a'.call = a.call) :
      AttestationTracks a.name (marks ++ []) (d, a') := by
    rw [List.append_nil]
    exact ⟨tracks, named, fun c held => calls c (called.symm.trans held)⟩
  unfold addAttestationPart
  dsimp only
  rw [if_neg notService, if_neg notOrigins]
  split
  · exact .pure (quiet _ rfl rfl)
  split
  · exact .pure (quiet _ rfl rfl)
  split
  · exact .pure (quiet _ rfl rfl)
  split
  · exact .pure (quiet _ rfl rfl)
  · exact .pure (quiet a rfl rfl)

theorem tracks_addAttestation (t : Tracks marks d) (e : Element) :
    Ensures (Tracks (marks ++ e.elements.flatMap (attestationPartMarks ((e.tag.attribute? "name").getD ""))))
      (addAttestation language d e) := by
  have fresh (a : Attestation) (named : a.name = (e.tag.attribute? "name").getD "") (noCall : a.call = none) :
      AttestationTracks ((e.tag.attribute? "name").getD "") marks (d, a) :=
    ⟨t, named, fun c held => nomatch noCall.symm.trans held⟩
  unfold addAttestation
  refine (Ensures.foldlM_flatMap (R := AttestationTracks ((e.tag.attribute? "name").getD ""))
    (fun _ _ part t' => tracks_addAttestationPart t' part) (fresh _ rfl rfl) e.elements).bind ?_
  rintro ⟨d', a⟩ ⟨tracks, -, calls⟩
  refine .pure ⟨tracks.toRegisters.congr rfl rfl, fun c held => ?_⟩
  exact (Definition.hasCall_of_attestation held).elim (calls c) (tracks.calls c)

theorem tracks_addSelection (t : Tracks marks d) (e : Element) : Tracks marks (addSelection language d e) := by
  unfold addSelection
  split
  · split
    · exact t.congr rfl rfl fun c held => held
    · exact t
  · exact t

/-! ## Documents -/

theorem tracks_addTokenPart (t : Tracks marks s.definition) (e : Element) :
    Ensures (fun s' : Draft => Tracks (marks ++ partMarks e) s'.definition) (addTokenPart language s e) := by
  unfold partMarks
  split
  · rename_i label
    simp only [addTokenPart, label, if_true]
    exact (tracks_addOrigins t e).bind fun d t' => .pure t'
  rename_i notOrigins
  split
  · rename_i label
    simp only [addTokenPart, label, String.reduceEq, if_false, if_true]
    exact (tracks_addContract t e).bind fun d t' => .pure t'
  rename_i notContract
  split
  · rename_i label
    simp only [addTokenPart, label, String.reduceEq, if_false, if_true]
    exact Ensures.foldlM_flatMap (R := fun marks (s : Draft) => Tracks marks s.definition)
      (fun _ _ card t' => tracks_addCardsPart t' card) t e.elements
  rename_i notCards
  split
  · rename_i label
    simp only [addTokenPart, label, String.reduceEq, if_false, if_true]
    exact (readFrom_readAttribute e).bind fun a new =>
      .pure (t.addCalls new rfl rfl fun _ => Definition.hasCall_of_attribute)
  rename_i notAttribute
  split
  · rename_i label
    simp only [addTokenPart, label, String.reduceEq, if_false, if_true]
    exact (tracks_addAttestation t e).bind fun d t' => .pure t'
  rename_i notAttestation
  -- Labels, selections and named types bear on nothing here.
  rw [List.append_nil]
  unfold addTokenPart
  dsimp only
  rw [if_neg notOrigins, if_neg notContract, if_neg notCards, if_neg notAttribute, if_neg notAttestation]
  split
  · exact .pure (t.congr rfl rfl fun c held => held)
  split
  · exact .pure (tracks_addSelection t e)
  split
  · exact .after fun types => .pure (t.congr rfl rfl fun c held => held)
  · exact .pure t

theorem tracks_empty {namespaceName locale : String} {version : SchemaVersion} :
    Tracks [] (.empty namespaceName version locale) where
  contracts name := by simp [Definition.empty, declared?]
  holder := rfl
  calls c held := absurd held Definition.not_hasCall_empty

theorem tracks_readRoot {start : Definition} (t : Tracks [] start) (root : Element) :
    Ensures (Tracks (documentMarks root)) (readRoot language start root) := by
  unfold readRoot documentMarks
  split
  · exact (Ensures.foldlM_flatMap (R := fun marks (s : Draft) => Tracks marks s.definition)
      (fun _ _ part t' => tracks_addTokenPart t' part) (a := ⟨start, 0⟩) t root.elements).bind fun s t' => .pure t'
  split
  · exact (readFrom_readAction 0 root).bind fun a new =>
      .pure (t.addCalls new rfl rfl fun _ => Definition.hasCall_of_action)
  · exact .error _

/-- The marks of a document track the definition that it gives. -/
theorem tracks_of_read {document : String} {options : ReaderOptions} {d : Definition}
    (given : read document options = .ok d) :
    ∃ root following, readDocument document = .ok (root, following) ∧ Tracks (documentMarks root) d := by
  obtain ⟨root, following, language, namespaceName, version, d₀, parsed, done, rfl⟩ :=
    exists_readRoot_of_read given
  exact ⟨root, following, parsed,
    (tracks_readRoot tracks_empty root d₀ done).congr rfl rfl fun c held => held⟩

/-! ## Where calls go -/

theorem addCallPart_sentTo (c : CallTemplate) (k : Option Contract) (e : Element) :
    addCallPart (c.sentTo k) e = (addCallPart c e).sentTo k := by
  unfold addCallPart
  split
  · rfl
  split
  · rfl
  · rfl

theorem foldl_addCallPart_sentTo (c : CallTemplate) (k : Option Contract) (es : List Element) :
    es.foldl addCallPart (c.sentTo k) = (es.foldl addCallPart c).sentTo k := by
  induction es generalizing c with
  | nil => rfl
  | cons e rest ih => rw [List.foldl_cons, addCallPart_sentTo, ih, List.foldl_cons]

/-- Only the contract of a call depends on the definition. -/
theorem readCall_eq (d d' : Definition) (form : Form) (e : Element) :
    readCall d form e = (readCall d' form e).sentTo
      (((e.tag.filled? "contract").bind (d.contracts.get? ·)).or d.holdingContract?) := by
  simp only [readCall]
  generalize Kind.ofWord _ = kind
  rw [← foldl_addCallPart_sentTo]
  rfl

theorem Registers.readCall_eq {before : List Mark} {d₀ : Definition} (h : Registers before d₀) (d : Definition)
    (form : Form) (e : Element) :
    readCall d₀ form e = (readCall d form e).sentTo
      (((e.tag.filled? "contract").bind (declared? before)).or (holding? before)) := by
  have contracts : (d₀.contracts.get? ·) = declared? before := funext h.contracts
  rw [Document.readCall_eq d₀ d, h.holdingContract?, contracts]

/-- Every call of a definition is an element of its document. If that names no contract, the call goes to the
holding contract. If it names one, the call goes to the contract declared under the name before it, but where there
is none to the holding contract. So it goes where its name leads unless the name is not declared and a holding
contract is. -/
theorem contract_of_read {document : String} {options : ReaderOptions} {d : Definition}
    (given : read document options = .ok d) :
    ∃ root following, readDocument document = .ok (root, following) ∧
      ∀ c, d.HasCall c → ∃ before e after form,
        documentMarks root = before ++ .call e :: after ∧
        c = (readCall d form e).sentTo c.contract ∧
        (e.tag.filled? "contract" = none → c.contract = holding? before) ∧
        ∀ name, e.tag.filled? "contract" = some name →
          c.contract = (declared? before name).or (holding? before) ∧
          (c.contract = declared? before name ↔ (declared? before name).isSome ∨ holding? before = none) := by
  obtain ⟨root, following, parsed, tracks⟩ := tracks_of_read given
  refine ⟨root, following, parsed, fun c held => ?_⟩
  obtain ⟨before, e, after, split, d₀, form, registers, rfl⟩ := tracks.calls c held
  have target := registers.readCall_eq d form e
  refine ⟨before, e, after, form, split, ?_, ?_, ?_⟩
  · rw [target, CallTemplate.contract_sentTo]
  · intro unnamed
    rw [target, unnamed]
    rfl
  · intro name named
    rw [target, named]
    refine ⟨rfl, ?_⟩
    cases found : declared? before name with
    | some k => simp [found]
    | none => simp [found]

end Document

/-! ## A price -/

namespace Prices

open Document

/-- The token is declared and holds itself; the market that the price is asked of is not declared. -/
def document : String :=
  "<token xmlns=\"http://tokenscript.org/2024/01/tokenscript\" xmlns:e=\"urn:ethereum:constantinople\">" ++
  "<contract name=\"Token\"><address network=\"1\">0x00000000000000000000000000000000000000aa</address></contract>" ++
  "<origins><ethereum contract=\"Token\"/></origins><attribute name=\"price\"><origins>" ++
  "<e:call function=\"price\" contract=\"Market\"/></origins></attribute></token>"

/-- Options under which the document can be read. -/
def options : ReaderOptions :=
  ⟨"en", SchemaDate.oldestSupported, SchemaDate.implemented⟩

/-- The contract of the token. -/
def token : Contract :=
  ⟨none, [⟨1, "0x00000000000000000000000000000000000000aa"⟩]⟩

-- Both in one evaluation, since reading the definition begins with reading the document.
set_option maxRecDepth 100000 in
theorem read_document :
    ((Markup.readDocument document).toOption.map fun top =>
      match documentMarks top.1 with
      | [.contract name c, .holder name', .call e] => some (name, c, name', e.tag.filled? "contract")
      | _ => none) = some (some ("Token", token, "Token", some "Market")) ∧
    ((read document options).toOption.map fun d =>
      ((d.attributes.get? "price").bind (·.call)).map fun c => (c.method, c.contract)) =
        some (some ("price", some token)) := by
  -- Decoding the text would be most of the evaluation, so its characters are put in first.
  unfold Document.read Markup.readDocument document
  simp only [String.toList_append]
  rw [String.toList_ofList, String.toList_ofList, String.toList_ofList, String.toList_ofList]
  decide +kernel

theorem exists_marks : ∃ root following e, Markup.readDocument document = .ok (root, following) ∧
    documentMarks root = [.contract "Token" token, .holder "Token", .call e] ∧
    e.tag.filled? "contract" = some "Market" := by
  obtain ⟨⟨root, following⟩, done, seen⟩ := Option.map_eq_some_iff.1 read_document.1
  dsimp only at seen
  split at seen
  · rename_i marks
    simp only [Option.some.injEq, Prod.mk.injEq] at seen
    obtain ⟨rfl, rfl, rfl, named⟩ := seen
    exact ⟨root, following, _, eq_ok_of_toOption done, marks, named⟩
  · cases seen

theorem exists_call : ∃ d c, read document options = .ok d ∧ d.HasCall c ∧ c.method = "price" ∧
    c.contract = some token := by
  obtain ⟨d, done, seen⟩ := Option.map_eq_some_iff.1 read_document.2
  obtain ⟨c, found, shown⟩ := Option.map_eq_some_iff.1 seen
  obtain ⟨a, declared, called⟩ := Option.bind_eq_some_iff.1 found
  obtain ⟨method, contract⟩ := Prod.mk.inj shown
  exact ⟨d, c, eq_ok_of_toOption done, .inl ⟨"price", a, declared, called⟩, method, contract⟩

/-- What holds of every call of the document, for the call of the price. -/
theorem contract_of_read_price :
    ∃ d c root following, read document options = .ok d ∧ d.HasCall c ∧ c.method = "price" ∧
      Markup.readDocument document = .ok (root, following) ∧ ∃ before e after form,
        documentMarks root = before ++ .call e :: after ∧ c = (readCall d form e).sentTo c.contract ∧
        (e.tag.filled? "contract" = none → c.contract = holding? before) ∧
        ∀ name, e.tag.filled? "contract" = some name →
          c.contract = (declared? before name).or (holding? before) ∧
          (c.contract = declared? before name ↔ (declared? before name).isSome ∨ holding? before = none) := by
  obtain ⟨d, c, done, held, method, -⟩ := exists_call
  obtain ⟨root, following, parsed, calls⟩ := contract_of_read done
  exact ⟨d, c, root, following, done, held, method, parsed, calls c held⟩

/-- The one call of the document names the market, which is not declared before it, and goes to the token. -/
theorem contract_of_price :
    ∃ root following d c before e, Markup.readDocument document = .ok (root, following) ∧
      read document options = .ok d ∧ d.HasCall c ∧ c.method = "price" ∧
      documentMarks root = before ++ [.call e] ∧ e.tag.filled? "contract" = some "Market" ∧
      declared? before "Market" = none ∧ c.contract = declared? before "Token" ∧
      c.contract ≠ declared? before "Market" := by
  obtain ⟨d, c, done, held, method, contract⟩ := exists_call
  obtain ⟨root, following, e, parsed, marks, named⟩ := exists_marks
  refine ⟨root, following, d, c, [.contract "Token" token, .holder "Token"], e, parsed, done, held, method, marks,
    named, rfl, contract, ?_⟩
  rw [contract]
  exact Option.some_ne_none token

end Prices

end TokenSchema
