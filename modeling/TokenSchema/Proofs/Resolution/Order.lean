import TokenSchema.Proofs.Resolution.OwnResult
import TokenSchema.Proofs.Resolution.Stability

/-!
# Order — attributes that are called for one after another

A host calls for the attributes of a token one after another, in one session. Each call may find results
of earlier ones in the session, and the records that they have written in the store.

* `Resolver.Faithful.resolveNamed`: what one call preserves. The session and the store stay faithful to
  the outset, since all that a call writes is kept for attributes that its session knows by then.
* `Resolver.givesOwn_outcomes`: what all calls give. A self-contained attribute has its own result, or the
  call for it ran out of references.
* `Resolver.outcomes_agree`: so in two orders it has the same outcome, unless one of them ran out of
  references. `Holding.outcomes_differ` shows both ways in which an order can matter.
-/

namespace TokenSchema

namespace Resolver

/-- What calls for names give, one after another. -/
def outcomes (r : Resolver) (node : Node) (options : ResolveOptions) (tokenId : Nat)
    (names : List String) (h : Host) : List (Except ResolveError (Option Resolved)) :=
  (Host.inOrder (fun name h => r.resolveNamed node options name tokenId h) names h).1

/-- A call gives the own result of an attribute, or has run out of references. -/
def GivesOwn (r : Resolver) (o : Outset) (a : Attribute)
    (outcome : Except ResolveError (Option Resolved)) : Prop :=
  TooDeep outcome ∨ ∃ result, r.ResultsIn o a result ∧ outcome = result.map some

variable {r : Resolver} {o : Outset} {node : Node} {a : Attribute}

/-- There is only one own result. -/
theorem GivesOwn.agree {outcome outcome' : Except ResolveError (Option Resolved)}
    (own : r.GivesOwn o a outcome) (own' : r.GivesOwn o a outcome') :
    TooDeep outcome ∨ TooDeep outcome' ∨ outcome = outcome' := by
  rcases own with deep | ⟨result, comes, rfl⟩
  · exact .inl deep
  rcases own' with deep | ⟨result', comes', rfl⟩
  · exact .inr (.inl deep)
  · rw [comes.unique comes']
    exact .inr (.inr rfl)

/-- What the first call gives comes first, and the others go on from the host that it leaves. -/
theorem outcomes_cons (r : Resolver) (node : Node) (options : ResolveOptions) {tokenId : Nat}
    {h : Host} {tr : Host.Trace} (trace : h.trace = tr) {name : String} (rest : List String)
    {result : Except ResolveError Resolved} {s : Pass}
    (declared : r.definition.attributes.get? name = some a)
    (evaluated : (r.resolution options tokenId a).evaluate (fun _ q => node.reply q) tr.store
      ⟨tr.session, tr.requests, []⟩ = (result, s)) :
    ∃ h' : Host,
      h'.trace =
        { session := s.session
          store := (s.flushed result).foldl Store.put tr.store
          requests := s.requests
          writes := tr.writes ++ s.flushed result } ∧
      r.outcomes node options tokenId (name :: rest) h =
        result.map some :: r.outcomes node options tokenId rest h' := by
  subst trace
  obtain ⟨gives, trace⟩ : (r.resolveNamed node options name tokenId h).1 = result.map some ∧ _ :=
    Definition.resolveNamed_of_evaluate declared evaluated
  refine ⟨_, trace, ?_⟩
  rw [← gives]
  rfl

/-! ## What calls write -/

theorem Poses.met {root : Attribute} {ρ : Reading} (posed : r.Poses o.tokenId root ρ) :
    r.MayMeet root ρ.asker := by
  cases posed with
  | call _ _ met _ _ => exact met
  | logs _ met _ _ _ _ => exact met

/-- What is read for an attribute is kept under its key. -/
theorem Poses.keptUnder {root : Attribute} {ρ : Reading} {clock : Int} {k : CachedRecord}
    (posed : r.Poses o.tokenId root ρ) (read : ρ.record? clock = some k) :
    r.KeptUnder o ρ.asker (Store.keyOf k) := by
  obtain ⟨raw, -, rfl⟩ := Option.map_eq_some_iff.1 read
  cases posed with
  | call _ _ _ calls deployed => exact .call calls deployed
  | logs _ _ noCall event deployed _ => exact .event noCall event deployed

/-- A record is kept for a declared attribute that a session knows. -/
def WrittenFor (r : Resolver) (o : Outset) (session : Session) (k : CachedRecord) : Prop :=
  ∃ b, r.definition.attributes.get? b.name = some b ∧ r.KeptUnder o b (Store.keyOf k) ∧
    session.result? b.name o.tokenId ≠ none

/-- All that a call writes is kept for attributes that it has recorded. -/
theorem writtenFor_of_flushed (named : r.definition.WellNamed) {answers : Answers} {store : Store}
    {session : Session} {asked : List (Request × Answer)} {name : String}
    {result : Except ResolveError Resolved} {s : Pass} (sound : r.definition.Sound session)
    (declared : r.definition.attributes.get? name = some a)
    (evaluated : (r.resolution o.options o.tokenId a).evaluate answers store ⟨session, asked, []⟩ =
      (result, s)) :
    ∀ k ∈ s.flushed result, r.WrittenFor o s.session k := by
  intro k written
  obtain ⟨acts, rfl, course, progress, -⟩ :=
    Definition.Visit.progress o.options answers store asked named sound declared evaluated
  cases result with
  | error e => cases written
  | ok found =>
      obtain ⟨readings, account⟩ := exists_account_resolveAt course.any
      have held : k ∈ readings.filterMap (Reading.record? r.clock) := by
        rw [← account.held, ← List.nil_append (heldBack acts)]
        exact Pass.kept_after ⟨session, asked, []⟩ acts ▸ written
      obtain ⟨ρ, member, read⟩ := List.mem_filterMap.1 held
      have posed := account.posed ρ member
      have own : r.definition.attributes.get? ρ.asker.name = some ρ.asker := by
        rcases posed.met with same | ⟨name', declared'⟩
        · rw [same]
          exact named.own declared
        · exact named.own declared'
      refine ⟨ρ.asker, own, posed.keptUnder read, ?_⟩
      -- What was read has been recorded on the way.
      obtain ⟨raw, text, -⟩ := Option.map_eq_some_iff.1 read
      rcases account.recorded ρ member raw text with recorded | pending
      · have known := progress.held _ recorded
        rw [Resolved.id_ofRaw, Resolved.tokenId_ofRaw] at known
        intro unknown
        exact Option.some_ne_none _ (known.symm.trans unknown)
      · cases pending

namespace Faithful

variable {store : Store} {session : Session}

theorem outset (new : ∀ name tokenId, o.session.result? name tokenId = none) :
    r.Faithful o o.store o.session where
  locals_eq := rfl
  results := by
    intro a x _ _ known
    rw [new] at known
    cases known
  store_eq := rfl
  records := fun _ _ _ _ _ _ => rfl

theorem put (faithful : r.Faithful o store session) {k : CachedRecord}
    (keyed : r.WrittenFor o session k) : r.Faithful o (store.put k) session := by
  refine ⟨faithful.locals_eq, faithful.results, ?_, ?_⟩
  · exact congrArg (fun s : Store => { s with records := (store.put k).records }) faithful.store_eq
  · intro a declared contained unknown key looked
    obtain ⟨b, declared', kept, known⟩ := keyed
    -- The attribute is not the one that the record is kept for, since the session knows that one; and it
    -- does not look where the values of others are kept.
    have elsewhere : Store.keyOf k ≠ key := by
      rintro rfl
      by_cases same : b.name = a.name
      · rw [same] at known
        exact known unknown
      · exact contained.independent _ looked b.name b declared' same kept
    have unchanged : (store.put k).records.get? key = store.records.get? key := by
      simp [Store.put, Std.TreeMap.getElem?_insert, elsewhere]
    rw [unchanged]
    exact faithful.records a declared contained unknown key looked

/-- Writes of a call leave the store faithful, one after another. -/
theorem flush (faithful : r.Faithful o store session) {writes : List CachedRecord}
    (keyed : ∀ k ∈ writes, r.WrittenFor o session k) :
    r.Faithful o (writes.foldl Store.put store) session := by
  induction writes generalizing store with
  | nil => exact faithful
  | cons k rest ih =>
      have first := faithful.put (keyed k List.mem_cons_self)
      exact ih first fun k' member => keyed k' (List.mem_cons_of_mem _ member)

end Faithful

/-! ## One call -/

section Call

variable (named : r.definition.WellNamed)
variable (new : ∀ name tokenId, o.session.result? name tokenId = none)
variable (replies : node.reply = o.reply) {h : Host}

include named new replies

/-- A call leaves a sound session, and a session and a store that are faithful to the outset. -/
theorem Faithful.resolveNamed (sound : r.definition.Sound h.session)
    (faithful : r.Faithful o h.store h.session) (name : String) :
    let called := r.resolveNamed node o.options name o.tokenId h
    r.definition.Sound called.2.session ∧ r.Faithful o called.2.store called.2.session := by
  intro called
  obtain ⟨_, _, visit, -⟩ :=
    Definition.exists_visit_resolveNamed r node o.options name o.tokenId h
  refine ⟨(visit.grown named sound).2, ?_⟩
  cases declared : r.definition.attributes.get? name with
  | none =>
      simp only [called, Resolver.resolveNamed, declared]
      exact faithful
  | some a =>
      have own : r.definition.attributes.get? a.name = some a := named.own declared
      obtain ⟨reply, cancels, pauses⟩ := node
      obtain rfl : reply = o.reply := replies
      cases evaluated : (r.resolution o.options o.tokenId a).evaluate (fun _ q => o.reply q) h.store
          ⟨h.session, h.requests, []⟩ with
      | mk result s =>
          obtain ⟨-, trace⟩ : called.1 = result.map some ∧ called.2.trace = _ :=
            Definition.resolveNamed_of_evaluate declared evaluated
          have session : called.2.session = s.session := congrArg Host.Trace.session trace
          have store : called.2.store = (s.flushed result).foldl Store.put h.store :=
            congrArg Host.Trace.store trace
          have left : r.Faithful o h.store s.session := by
            have follows := follows_resolveAt named (fun name => new name o.tokenId)
              (r.settings.maxDepth + 1) (s := ⟨h.session, h.requests, []⟩) own faithful
            have last := follows.faithful
            rw [← resolution, evaluated] at last
            exact last
          rw [session, store]
          exact left.flush (writtenFor_of_flushed named sound declared evaluated)

/-- The call for a self-contained attribute gives its own result, or runs out of references. -/
theorem givesOwn_resolveNamed (faithful : r.Faithful o h.store h.session) {name : String}
    (declared : r.definition.attributes.get? name = some a) (contained : r.SelfContained o a) :
    r.GivesOwn o a (r.resolveNamed node o.options name o.tokenId h).1 := by
  have own : r.definition.attributes.get? a.name = some a := named.own declared
  obtain ⟨reply, cancels, pauses⟩ := node
  obtain rfl : reply = o.reply := replies
  cases evaluated : (r.resolution o.options o.tokenId a).evaluate (fun _ q => o.reply q) h.store
      ⟨h.session, h.requests, []⟩ with
  | mk result s =>
      obtain ⟨gives, -⟩ :
          (r.resolveNamed ⟨o.reply, cancels, pauses⟩ o.options name o.tokenId h).1 =
            result.map some ∧ _ :=
        Definition.resolveNamed_of_evaluate declared evaluated
      have follows := follows_resolveAt named (fun name => new name o.tokenId)
        (r.settings.maxDepth + 1) (s := ⟨h.session, h.requests, []⟩) own faithful
      have outcome := follows.result contained
      rw [← resolution, evaluated] at outcome
      rw [gives]
      rcases outcome with ⟨deepest, rfl⟩ | comes
      · exact .inl ⟨deepest, rfl⟩
      · exact .inr ⟨result, comes, rfl⟩

/-! ## All calls -/

/-- Whatever is called for in whatever order, the calls for self-contained attributes give their own
results, or run out of references. The induction is on the names; what it carries is that the session and
the store are faithful to the outset. -/
theorem givesOwn_outcomes (sound : r.definition.Sound h.session)
    (faithful : r.Faithful o h.store h.session) (names : List String) {i : Nat} {name : String}
    (listed : names[i]? = some name) (declared : r.definition.attributes.get? name = some a)
    (contained : r.SelfContained o a) :
    ∃ outcome, (r.outcomes node o.options o.tokenId names h)[i]? = some outcome ∧
      r.GivesOwn o a outcome := by
  induction names generalizing h i with
  | nil => cases listed
  | cons first rest ih =>
      cases i with
      | zero =>
          obtain rfl : first = name := Option.some.inj listed
          exact ⟨_, rfl, givesOwn_resolveNamed named new replies faithful declared contained⟩
      | succ i =>
          obtain ⟨sound', faithful'⟩ := faithful.resolveNamed named new replies sound first
          exact ih sound' faithful' listed

end Call

/-- Calls one after another in a session without results give a self-contained attribute its own result, or run out of
references. -/
theorem givesOwn_of_new {options : ResolveOptions} {tokenId : Nat} {h : Host} (named : r.definition.WellNamed)
    (new : ∀ name tokenId, h.session.result? name tokenId = none) {names : List String} {i : Nat} {name : String}
    (listed : names[i]? = some name) (declared : r.definition.attributes.get? name = some a)
    (contained : r.SelfContained ⟨options, tokenId, node.reply, h.session, h.store⟩ a) :
    ∃ outcome, (r.outcomes node options tokenId names h)[i]? = some outcome ∧
      r.GivesOwn ⟨options, tokenId, node.reply, h.session, h.store⟩ a outcome :=
  givesOwn_outcomes (o := ⟨options, tokenId, node.reply, h.session, h.store⟩) named new rfl
    (Definition.sound_of_new new) (.outset new) names listed declared contained

/-- Calls for attributes one after another, in a session without results: for each attribute that is
self-contained at the outset, two orders give the same outcome, unless one of them runs out of
references. -/
theorem outcomes_agree (r : Resolver) (node : Node) (options : ResolveOptions) (tokenId : Nat)
    (h : Host) (named : r.definition.WellNamed)
    (new : ∀ name tokenId, h.session.result? name tokenId = none) {names names' : List String}
    {i j : Nat} {name : String} (listed : names[i]? = some name) (listed' : names'[j]? = some name)
    (declared : r.definition.attributes.get? name = some a)
    (contained : r.SelfContained ⟨options, tokenId, node.reply, h.session, h.store⟩ a) :
    ∃ outcome outcome', (r.outcomes node options tokenId names h)[i]? = some outcome ∧
      (r.outcomes node options tokenId names' h)[j]? = some outcome' ∧
      (TooDeep outcome ∨ TooDeep outcome' ∨ outcome = outcome') := by
  obtain ⟨outcome, gives, own⟩ := givesOwn_of_new named new listed declared contained
  obtain ⟨outcome', gives', own'⟩ := givesOwn_of_new named new listed' declared contained
  exact ⟨outcome, outcome', gives, gives', own.agree own'⟩

end Resolver

/-! ## A holding whose order matters -/

namespace Holding

open Balance (token template balance bare)

/-- An attribute that stands for the balance. -/
def share : Attribute :=
  { Attribute.ofName "share" with reference := some "balance" }

/-- An attribute that stands for the share. -/
def stake : Attribute :=
  { Attribute.ofName "stake" with reference := some "share" }

/-- A move of just the amount that is kept as the balance. -/
def move : EventSource :=
  { EventSource.ofType ⟨"Moved", [⟨"amount", "uint256", true⟩]⟩ with
    contract := some ⟨none, [token]⟩
    filter := some "amount=$\x7bbalance\x7d"
    select := some "amount" }

/-- The amount of the last such move. -/
def moved : Attribute :=
  { Attribute.ofName "moved" with event := some move }

/-- A definition of these attributes, where one reference may be followed. -/
def resolver : Resolver :=
  { definition :=
      { Definition.empty "" ⟨none, .current, .oldestSupported⟩ "en" with
        attributes := ((((∅ : Std.TreeMap String Attribute).insert "balance" balance).insert "share"
          share).insert "stake" stake).insert "moved" moved
        contracts := (∅ : Std.TreeMap String Contract).insert "Token" ⟨none, [token]⟩
        holdingToken := some "Token" }
    settings := { Settings.standard with maxDepth := 1 }
    clock := 30 }

/-- A store that knows the definition, and nothing else. -/
def store : Store :=
  bare.register resolver.definition

/-- A log of a move of five. -/
def entry : LogEntry :=
  ⟨token.address, [Bytes.Word.ofNat 0, Bytes.Word.ofNat 5], [], 1, 0⟩

/-- A node that answers calls with five, and has one log. -/
def node : Node where
  reply
    | .call _ _ => .bytes (Bytes.Word.ofNat 5).bytes
    | .logs _ => .logs [entry]
  cancels := fun _ => false
  pauses := false

theorem keys_eq :
    resolver.definition.attributes.keys = ["balance", "moved", "share", "stake"] := rfl

theorem get?_balance : resolver.definition.attributes.get? "balance" = some balance := rfl

theorem get?_share : resolver.definition.attributes.get? "share" = some share := rfl

theorem get?_stake : resolver.definition.attributes.get? "stake" = some stake := rfl

theorem get?_moved : resolver.definition.attributes.get? "moved" = some moved := rfl

theorem cacheTokenId_balance : resolver.definition.cacheTokenId "balance" 0 = 0 := rfl

theorem wellNamed : resolver.definition.WellNamed := by
  have empty := Definition.wellNamed_empty "" ⟨none, .current, .oldestSupported⟩ "en"
  have filled := (((empty.insert balance).insert share).insert stake).insert moved
  exact filled.congr rfl

theorem attribute?_balance : store.attribute? token "balance" = some balance := rfl

theorem find?_store (name : String) (tokenId : Nat) : store.find? token name tokenId = none := by
  have records : store.records = ∅ := rfl
  simp [Store.find?, records]

/-! ### An attribute whose order does not matter -/

/-- What calls of the host start from. -/
def outset : Outset :=
  ⟨⟨some .useCache, .summary⟩, 0, node.reply, .empty, store⟩

theorem eq_of_declared {name : String} {b : Attribute}
    (declared : resolver.definition.attributes.get? name = some b) :
    b = balance ∨ b = share ∨ b = stake ∨ b = moved := by
  have member : name ∈ resolver.definition.attributes.keys := by
    rw [Std.TreeMap.mem_keys, Std.TreeMap.mem_iff_isSome_getElem?, ← Std.TreeMap.get?_eq_getElem?,
      declared]
    rfl
  rw [keys_eq] at member
  simp only [List.mem_cons, List.not_mem_nil, or_false] at member
  rcases member with rfl | rfl | rfl | rfl
  · exact .inl (Option.some.inj (declared.symm.trans get?_balance))
  · exact .inr (.inr (.inr (Option.some.inj (declared.symm.trans get?_moved))))
  · exact .inr (.inl (Option.some.inj (declared.symm.trans get?_share)))
  · exact .inr (.inr (.inl (Option.some.inj (declared.symm.trans get?_stake))))

/-- The balance is kept under its own key alone. -/
theorem independent_balance : resolver.Independent outset balance := by
  intro key looked name b declared other kept
  cases looked with
  | filter noCall _ _ _ _ _ _ => cases noCall
  | own own =>
      cases own with
      | event noCall _ _ => cases noCall
      | @call f contract calls deployed =>
          cases calls
          cases deployed
          generalize keyed : Store.recordKey token _ _ = key at kept
          rcases eq_of_declared declared with rfl | rfl | rfl | rfl
          · exact other rfl
          · exact Resolver.not_keptUnder rfl rfl key kept
          · exact Resolver.not_keptUnder rfl rfl key kept
          -- The move is kept under another name.
          · cases kept with
            | call calls _ => cases calls
            | event _ event deployed =>
                cases event
                cases deployed
                exact absurd keyed (by decide)

theorem selfContained_share : resolver.SelfContained outset share := by
  have alone : resolver.Independent outset share := .of_noSource rfl rfl
  intro b needs
  rcases Relation.ReflTransGen.cases_head needs with rfl | ⟨c, first, rest⟩
  · exact alone
  obtain rfl := first.eq_of_target get?_balance
  rcases Relation.ReflTransGen.cases_head rest with rfl | ⟨c, second, -⟩
  · exact independent_balance
  -- The call for the balance refers to no other attribute.
  · cases second with
    | target _ standsFor => cases standsFor
    | argument _ calls _ _ _ drawn =>
        cases calls
        obtain ⟨name, member, -, -⟩ := drawn
        cases member

/-- In both orders the share is the balance. -/
theorem outcomes_agree_share :
    let options : ResolveOptions := ⟨some .useCache, .summary⟩
    ∃ outcome outcome',
      (resolver.outcomes node options 0 ["moved", "stake", "share", "balance"]
        (.ofStore store))[2]? = some outcome ∧
      (resolver.outcomes node options 0 ["balance", "moved", "share", "stake"]
        (.ofStore store))[2]? = some outcome' ∧
      (TooDeep outcome ∨ TooDeep outcome' ∨ outcome = outcome') :=
  resolver.outcomes_agree node ⟨some .useCache, .summary⟩ 0 (.ofStore store) wellNamed
    Balance.new_empty rfl rfl get?_share selfContained_share

/-! ### Moves -/

open EventSource (conditionFor conditionOf keptTopics)

theorem conditionFor_balance {store : Store} (table : store.attribute? token "balance" = some balance) :
    conditionFor store token "balance" [0] = .ok (conditionOf (keptTopics store token balance [0])) := by
  have notToken : "balance" ≠ "tokenId" := by decide
  have notOwner : "balance" ≠ "ownerAddress" := by decide
  simp only [conditionFor, notToken, notOwner, if_false, table]
  rfl

theorem directiveTopics_move {store : Store}
    (table : store.attribute? token "balance" = some balance) :
    move.directiveTopics store token [0] =
      .ok ((conditionOf (keptTopics store token balance [0])).map fun condition => [condition]) := by
  have name : move.filterName? = some "amount" := by decide
  have position : move.filterPosition? = some 0 := by decide
  have value : move.filterValue? = some "balance" := by decide
  simp only [EventSource.directiveTopics, name, position, value, conditionFor_balance table]
  cases conditionOf (keptTopics store token balance [0]) with
  | none => rfl
  | some condition => rfl

/-- Where no balance is kept, no log can pass. -/
theorem filterFor_none {store : Store} (table : store.attribute? token "balance" = some balance)
    (nothing : store.find? token "balance" 0 = none) : move.filterFor store [0] = .ok none := by
  have topics : keptTopics store token balance [0] = [] := by
    have unkept : store.find? token balance.name 0 = none := nothing
    simp [keptTopics, unkept]
  have deployed : move.deployment? = some token := rfl
  simp only [EventSource.filterFor, deployed, directiveTopics_move table, topics]
  rfl

/-- Where a balance is kept, its logs are asked for. -/
theorem filterFor_some {store : Store} {k : CachedRecord}
    (table : store.attribute? token "balance" = some balance)
    (kept : store.find? token "balance" 0 = some k) (number : k.result = "5") :
    ∃ filter, move.filterFor store [0] = .ok (some filter) := by
  have read : EventSource.resultTopic? k = some (topicText (Bytes.Word.ofNat 5)) := by
    have five : parseNatural "5" = some 5 := by decide
    simp [EventSource.resultTopic?, number, five]
  have topics : keptTopics store token balance [0] = [topicText (Bytes.Word.ofNat 5)] := by
    have known : store.find? token balance.name 0 = some k := kept
    simp [keptTopics, known, read]
  have deployed : move.deployment? = some token := rfl
  simp only [EventSource.filterFor, deployed, directiveTopics_move table, topics]
  exact ⟨_, rfl⟩

/-! ### What the calls give -/

section Outcomes

variable (answers : Answers) (options : ResolveOptions) (kept : Store) {s : Pass}

/-- An attribute that stands for another one whose result is known shows it. -/
theorem evaluate_relay {b c : Attribute} {x : Resolved} (left : Nat)
    (unsettled : Resolver.Unsettled 0 s.session b) (standsFor : resolver.target? b = some c)
    (noLiteral : c.literal = none) (recorded : s.session.result? c.name 0 = some x) :
    (resolver.resolveAt options 0 (left + 2) b).evaluate answers kept s =
      (.ok (x.relayedBy b), s.record (x.relayedBy b)) := by
  have known := resolver.evaluate_resolveAt_recorded answers kept options 0 left noLiteral recorded
  rw [resolver.evaluate_resolveAt_target answers kept options 0 (left + 1) unsettled standsFor,
    Process.evaluate_bind_of_ok answers kept _ known]
  rfl

/-- Two references are more than may be followed. -/
theorem evaluate_stake (stake' : Resolver.Unsettled 0 s.session stake)
    (share' : Resolver.Unsettled 0 s.session share) :
    (resolver.resolveAt options 0 2 stake).evaluate answers kept s =
      (.error (.referenceDepth "balance"), s) := by
  have deep : (resolver.resolveAt options 0 1 share).evaluate answers kept s =
      (.error (.referenceDepth "balance"), s) := by
    rw [resolver.evaluate_resolveAt_target answers kept options 0 0 share' get?_balance]
    exact Process.evaluate_bind_of_error answers kept _ rfl
  rw [resolver.evaluate_resolveAt_target answers kept options 0 1 stake' get?_share]
  exact Process.evaluate_bind_of_error answers kept _ deep

variable (unsettled : Resolver.Unsettled 0 s.session moved)
variable (table : kept.attribute? token "balance" = some balance)
variable (unkept : kept.find? token "moved" 0 = none)

include unsettled table unkept

/-- Where no balance is kept, there is no move. -/
theorem evaluate_moved_blank (left : Nat) (nothing : kept.find? token "balance" 0 = none) :
    (resolver.resolveAt options 0 (left + 1) moved).evaluate answers kept s =
      (.ok (Resolved.blank moved 0), s.record (Resolved.blank moved 0)) := by
  have reached : resolver.ComesToSource 0 s.session moved := ⟨unsettled, rfl, rfl⟩
  have unkept' : kept.find? token moved.name 0 = none := unkept
  have blank : (resolver.fromEvent 0 moved move).evaluate answers kept s =
      (.ok (Resolved.blank moved 0), s) := by
    have deployed : move.deployment? = some token := rfl
    simp only [Resolver.fromEvent, deployed, Process.evaluate_accesses_bind,
      Process.evaluate_store_bind, unkept', filterFor_none table nothing]
    rfl
  rw [resolver.evaluate_resolveAt_source answers kept options 0 left reached]
  exact Process.evaluate_bind_of_ok answers kept _ blank

/-- Where a balance of five is kept, the last move of five is found. -/
theorem evaluate_moved_five (left : Nat) {k : CachedRecord}
    (known : kept.find? token "balance" 0 = some k) (number : k.result = "5")
    (replies : ∀ filter, answers s.requests (.logs filter) = .logs [entry]) :
    let found := Resolved.ofRaw moved 0 "5"
    ∃ requests, (resolver.resolveAt options 0 (left + 1) moved).evaluate answers kept s =
      (.ok found, ⟨s.session.record found, requests, s.kept ++ [⟨token, "moved", 0, "5", 30⟩]⟩) := by
  intro found
  have reached : resolver.ComesToSource 0 s.session moved := ⟨unsettled, rfl, rfl⟩
  have unkept' : kept.find? token moved.name 0 = none := unkept
  obtain ⟨filter, asked⟩ := filterFor_some table known number
  have logged : Resolver.loggedValue? move (.logs [entry]) = some (.uint 5) := by rfl
  have fetched : (resolver.fromEvent 0 moved move).evaluate answers kept s =
      (.ok found, (s.ask answers (.logs filter)).keep ⟨token, "moved", 0, "5", 30⟩) := by
    have deployed : move.deployment? = some token := rfl
    simp only [Resolver.fromEvent, deployed, Process.evaluate_accesses_bind,
      Process.evaluate_store_bind, unkept', asked]
    change Process.evaluate answers kept (Process.answerTo _ >>= _) s = _
    rw [Process.evaluate_answerTo_bind, replies, logged]
    rfl
  rw [resolver.evaluate_resolveAt_source answers kept options 0 left reached]
  exact ⟨_, Process.evaluate_bind_of_ok answers kept _ fetched⟩

end Outcomes

/-! ### Two orders -/

open Resolver (Unsettled)

theorem unsettled_empty {a : Attribute} (noLiteral : a.literal = none) :
    Unsettled 0 Session.empty a :=
  ⟨noLiteral, Balance.new_empty a.name 0, by simp [Session.local?, Session.empty]⟩

/-- The move is called for before there is a balance, and the stake before the share. -/
theorem outcomes_early :
    let outcomes := resolver.outcomes node ⟨some .useCache, .summary⟩ 0
      ["moved", "stake", "share", "balance"] (.ofStore store)
    outcomes[0]? = some (.ok (some (Resolved.blank moved 0))) ∧
      outcomes[1]? = some (.error (.referenceDepth "balance")) := by
  intro outcomes
  have other : ∀ {name}, "moved" ≠ name → (Resolved.blank moved 0).id ≠ name := fun ne => ne
  obtain ⟨h₁, trace₁, outcomes₁⟩ := resolver.outcomes_cons node ⟨some .useCache, .summary⟩
    (h := .ofStore store) rfl ["stake", "share", "balance"] get?_moved
    (evaluate_moved_blank _ _ _ (s := ⟨.empty, [], []⟩) (unsettled_empty rfl) attribute?_balance
      (find?_store "moved" 0) 1 (find?_store "balance" 0))
  obtain ⟨h₂, -, outcomes₂⟩ := resolver.outcomes_cons node ⟨some .useCache, .summary⟩ trace₁
    ["share", "balance"] get?_stake
    (evaluate_stake _ _ _ (s := ⟨Session.empty.record (Resolved.blank moved 0), [], []⟩)
      ((unsettled_empty rfl).record (other (by decide)))
      ((unsettled_empty rfl).record (other (by decide))))
  simp only [outcomes, outcomes₁, outcomes₂]
  exact ⟨rfl, rfl⟩

/-- The balance is called for before the move, and the share before the stake. -/
theorem outcomes_late :
    let outcomes := resolver.outcomes node ⟨some .useCache, .summary⟩ 0
      ["balance", "moved", "share", "stake"] (.ofStore store)
    let shown := ((Resolved.ofRaw balance 0 "5").relayedBy share).relayedBy stake
    outcomes[1]? = some (.ok (some (Resolved.ofRaw moved 0 "5"))) ∧
      outcomes[3]? = some (.ok (some shown)) := by
  intro outcomes shown
  let found := Resolved.ofRaw balance 0 "5"
  let logged := Resolved.ofRaw moved 0 "5"
  let fetched : CachedRecord := ⟨token, "balance", 0, "5", 30⟩
  have isBalance : ∀ {name}, "balance" ≠ name → found.id ≠ name := fun ne => ne
  have isMoved : ∀ {name}, "moved" ≠ name → logged.id ≠ name := fun ne => ne
  have elsewhere : Store.keyOf fetched ≠ Store.recordKey token "moved" 0 := by decide
  have unkept : (store.put fetched).find? token "moved" 0 = none := by
    rw [Store.find?_put_of_ne store fetched token "moved" 0 elsewhere]
    exact find?_store "moved" 0
  have table : (store.put fetched).attribute? token "balance" = some balance := attribute?_balance
  let options : ResolveOptions := ⟨some .useCache, .summary⟩
  let balanced : Pass := ⟨Session.empty.record found,
    [(.call token (template.build ⟨0, store.wallet, ∅⟩).data, .bytes (Bytes.Word.ofNat 5).bytes)], []⟩
  obtain ⟨h₁, trace₁, outcomes₁⟩ := resolver.outcomes_cons node options (h := .ofStore store) rfl
    ["moved", "share", "stake"] get?_balance
    (Balance.evaluate_resolveAt_unkept 1 cacheTokenId_balance (find?_store "balance" 0) rfl)
  obtain ⟨requests, evaluated⟩ := evaluate_moved_five (fun _ q => node.reply q) options
    (store.put fetched) (s := balanced) ((unsettled_empty rfl).record (isBalance (by decide))) table unkept 1
    (Store.find?_put_self store fetched) rfl (fun _ => rfl)
  obtain ⟨h₂, trace₂, outcomes₂⟩ := resolver.outcomes_cons node options trace₁ ["share", "stake"]
    get?_moved evaluated
  let known := (Session.empty.record found).record logged
  have recorded : known.result? "balance" 0 = some found := by
    rw [Session.result?_record, if_neg fun same => isMoved (by decide) same.1]
    exact Session.result?_record_self .empty found
  obtain ⟨h₃, trace₃, outcomes₃⟩ := resolver.outcomes_cons node options trace₂ ["stake"] get?_share
    (evaluate_relay _ _ _ (s := ⟨known, requests, []⟩) 0
      (((unsettled_empty rfl).record (isBalance (by decide))).record (isMoved (by decide)))
      get?_balance rfl recorded)
  have isShare : ∀ {name}, "share" ≠ name → (found.relayedBy share).id ≠ name := fun ne => ne
  obtain ⟨h₄, -, outcomes₄⟩ := resolver.outcomes_cons node options trace₃ [] get?_stake
    (evaluate_relay _ _ _ (s := ⟨known.record (found.relayedBy share), requests, []⟩) 0
      ((((unsettled_empty rfl).record (isBalance (by decide))).record (isMoved (by decide))).record
        (isShare (by decide)))
      get?_share rfl (Session.result?_record_self known (found.relayedBy share)))
  simp only [outcomes]
  rw [outcomes₁, outcomes₂, outcomes₃, outcomes₄]
  exact ⟨rfl, rfl⟩

/-- The same holding, called for in two orders. First the move is called for before there is a balance, and
the stake before the share; then the other way round. The outcomes of both differ. -/
theorem outcomes_differ :
    let options : ResolveOptions := ⟨some .useCache, .summary⟩
    let names := ["moved", "stake", "share", "balance"]
    let names' := ["balance", "moved", "share", "stake"]
    let outcomes := resolver.outcomes node options 0 names (.ofStore store)
    let outcomes' := resolver.outcomes node options 0 names' (.ofStore store)
    names.Perm resolver.definition.attributes.keys ∧
      names'.Perm resolver.definition.attributes.keys ∧
      outcomes[0]? ≠ outcomes'[1]? ∧ outcomes[1]? ≠ outcomes'[3]? := by
  intro options names names' outcomes outcomes'
  obtain ⟨first, second⟩ := outcomes_early
  obtain ⟨first', second'⟩ := outcomes_late
  refine ⟨?_, ?_, ?_, ?_⟩
  · rw [keys_eq]
    decide
  · rw [keys_eq]
  · intro same
    have impossible := first.symm.trans (same.trans first')
    have blank : Resolved.blank moved 0 ≠ Resolved.ofRaw moved 0 "5" := by decide
    exact blank (by simpa using impossible)
  · intro same
    have impossible := second.symm.trans (same.trans second')
    cases impossible

end Holding

end TokenSchema
