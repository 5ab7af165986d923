import TokenSchema.Proofs.Resolution.Progress

/-!
# Own results — what an attribute gives whatever was resolved before

Resolutions see what earlier ones have left in the session and in the store. The own result of an attribute
is what its resolution gives if nothing of this is seen, and if enough references may be followed
(`Resolver.ResultsIn`). An attribute is self-contained if neither it nor what it needs looks in the store
where the value of another attribute is kept.

`Resolver.follows_resolveAt`: a resolution of a self-contained attribute, from a session and a store that
are faithful to the outset, gives its own result or runs out of references; and every resolution leaves a
faithful session.
-/

namespace TokenSchema

/-- What calls in any order start from. -/
structure Outset where
  options : ResolveOptions
  tokenId : Nat
  reply : Request → Answer
  session : Session
  store : Store

/-! ## Processes that see the outset only -/

namespace Process

variable {α β : Type} (o : Outset)

/-- What a process comes to when it sees the outset, whatever it has done. -/
def value : Process α → Except ResolveError α
  | .done a => .ok a
  | .fail e => .error e
  | .access next => next.value
  | .look next => (next o.session o.store).value
  | .record _ next => next.value
  | .keep _ next => next.value
  | .ask q next => (next (o.reply q)).value

theorem value_bind (p : Process α) (f : α → Process β) :
    (p >>= f).value o =
      match p.value o with
      | .ok a => (f a).value o
      | .error e => .error e := by
  change (p.bind f).value o = _
  induction p with
  | done a => rfl
  | fail e => rfl
  | access next ih => exact ih
  | look next ih => exact ih o.session o.store
  | record r next ih => exact ih
  | keep r next ih => exact ih
  | ask q next ih => exact ih (o.reply q)

@[simp] theorem value_session_bind (f : Session → Process α) :
    (session >>= f).value o = (f o.session).value o := rfl

@[simp] theorem value_accesses_bind (n : Nat) (f : Unit → Process α) :
    (accesses n >>= f).value o = (f ()).value o := by
  have uses : (accesses n).value o = .ok () := by
    induction n with
    | zero => rfl
    | succ n ih => exact ih
  rw [value_bind, uses]

/-- With enough references, processes come to a result. -/
def ComesTo (family : Nat → Process α) (result : Except ResolveError α) : Prop :=
  ∃ enough, ∀ left, enough ≤ left → (family left).value o = result

variable {o} {family : Nat → Process α} {result result' : Except ResolveError α}

namespace ComesTo

theorem const {p : Process α} (comes : p.value o = result) : ComesTo o (fun _ => p) result :=
  ⟨0, fun _ _ => comes⟩

theorem congr {family' : Nat → Process α} (h : ComesTo o family' result)
    (same : ∀ left, (family left).value o = (family' left).value o) : ComesTo o family result := by
  obtain ⟨enough, h⟩ := h
  refine ⟨enough, ?_⟩
  intro left more
  rw [same, h left more]

theorem unique (h : ComesTo o family result) (h' : ComesTo o family result') : result = result' := by
  obtain ⟨n, h⟩ := h
  obtain ⟨n', h'⟩ := h'
  rw [← h (max n n') (by omega), h' (max n n') (by omega)]

theorem of_succ (h : ComesTo o (fun left => family (left + 1)) result) : ComesTo o family result := by
  obtain ⟨enough, h⟩ := h
  refine ⟨enough + 1, ?_⟩
  intro left more
  cases left with
  | zero => omega
  | succ left => exact h left (by omega)

theorem accesses_bind {n : Nat} {g : Nat → Unit → Process α}
    (rest : ComesTo o (fun left => g left ()) result) :
    ComesTo o (fun left => accesses n >>= g left) result :=
  rest.congr fun left => value_accesses_bind o n (g left)

theorem bind_ok {a : α} {g : Nat → α → Process β} {result : Except ResolveError β}
    (first : ComesTo o family (.ok a)) (rest : ComesTo o (fun left => g left a) result) :
    ComesTo o (fun left => family left >>= g left) result := by
  obtain ⟨n, first⟩ := first
  obtain ⟨m, rest⟩ := rest
  refine ⟨max n m, ?_⟩
  intro left more
  rw [value_bind, first left (by omega)]
  exact rest left (by omega)

theorem bind_error {e : ResolveError} {g : Nat → α → Process β}
    (failed : ComesTo o family (.error e)) :
    ComesTo o (fun left => family left >>= g left) (.error e) := by
  obtain ⟨n, failed⟩ := failed
  refine ⟨n, ?_⟩
  intro left more
  rw [value_bind, failed left more]

end ComesTo

end Process

/-- No references were left. -/
def TooDeep {α : Type} (result : Except ResolveError α) : Prop :=
  ∃ name, result = .error (.referenceDepth name)

/-! ## Self-contained attributes -/

namespace Resolver

section Places

variable (r : Resolver) (o : Outset) (a : Attribute)

/-- The own result of an attribute, given enough references. -/
def ResultsIn (result : Except ResolveError Resolved) : Prop :=
  Process.ComesTo o (fun left => r.resolveAt o.options o.tokenId left a) result

/-- The key under which the store keeps what is fetched for an attribute. -/
inductive KeptUnder : String → Prop where
  | call {f : CallTemplate} {contract : Deployment} : a.call = some f →
      calledAt? a f = some contract →
      KeptUnder (Store.recordKey contract a.name (r.definition.cacheTokenId a.name o.tokenId))
  | event {e : EventSource} {contract : Deployment} : a.call = none → a.event = some e →
      e.deployment? = some contract → KeptUnder (Store.recordKey contract a.name o.tokenId)

/-- The keys under which an attribute looks in the store: its own, and that of the attribute that the
directive of its event names. -/
inductive LooksUp : String → Prop where
  | own {key : String} : r.KeptUnder o a key → LooksUp key
  | filter {e : EventSource} {contract : Deployment} {value : String} {b : Attribute} :
      a.call = none → a.event = some e → e.deployment? = some contract →
      e.filterValue? = some value → value ≠ "tokenId" → value ≠ "ownerAddress" →
      o.store.attribute? contract value = some b →
      LooksUp (Store.recordKey contract b.name o.tokenId)

/-- An attribute looks nowhere in the store where the value of another declared one is kept. -/
def Independent : Prop :=
  ∀ key, r.LooksUp o a key → ∀ name b, r.definition.attributes.get? name = some b →
    b.name ≠ a.name → ¬ r.KeptUnder o b key

/-- An attribute and all that it needs look nowhere where the value of another is kept. -/
def SelfContained : Prop :=
  ∀ b, Relation.ReflTransGen (r.Needs o.options o.store o.tokenId o.session) a b → r.Independent o b

end Places

variable {r : Resolver} {o : Outset} {a b : Attribute}

theorem not_keptUnder (noCall : a.call = none) (noEvent : a.event = none) (key : String) :
    ¬ r.KeptUnder o a key := by
  rintro (⟨calls, -⟩ | ⟨-, event, -⟩)
  · rw [noCall] at calls
    cases calls
  · rw [noEvent] at event
    cases event

/-- An attribute without call and event looks nowhere. -/
theorem Independent.of_noSource (noCall : a.call = none) (noEvent : a.event = none) :
    r.Independent o a := by
  intro key looked
  cases looked with
  | own kept => exact absurd kept (not_keptUnder noCall noEvent key)
  | filter _ event _ _ _ _ _ =>
      rw [noEvent] at event
      cases event

theorem SelfContained.independent (contained : r.SelfContained o a) : r.Independent o a :=
  contained a .refl

theorem SelfContained.of_needs (contained : r.SelfContained o a)
    (needs : r.Needs o.options o.store o.tokenId o.session a b) : r.SelfContained o b :=
  fun c later => contained c (.head needs later)

/-! ## Faithful sessions and stores -/

/-- A session and a store are faithful to the outset: what the session has found for self-contained
attributes is their own result, and the store has changed nowhere where the others of them look. -/
structure Faithful (r : Resolver) (o : Outset) (store : Store) (session : Session) : Prop where
  locals_eq : session.locals = o.session.locals
  results : ∀ a x, r.definition.attributes.get? a.name = some a → r.SelfContained o a →
    session.result? a.name o.tokenId = some x → r.ResultsIn o a (.ok x)
  store_eq : store = { o.store with records := store.records }
  records : ∀ a, r.definition.attributes.get? a.name = some a → r.SelfContained o a →
    session.result? a.name o.tokenId = none → ∀ key, r.LooksUp o a key →
    store.records.get? key = o.store.records.get? key

namespace Faithful

variable {store : Store} {session : Session}

theorem local?_eq (h : r.Faithful o store session) (name : String) :
    session.local? name = o.session.local? name := by
  simp only [Session.local?, h.locals_eq]

theorem wallet_eq (h : r.Faithful o store session) : store.wallet = o.store.wallet := by
  rw [h.store_eq]

theorem attribute?_eq (h : r.Faithful o store session) (contract : Deployment) (name : String) :
    store.attribute? contract name = o.store.attribute? contract name := by
  rw [h.store_eq]
  rfl

theorem accepts_eq (h : r.Faithful o store session) {policy : UpdatePolicy} {view : ViewKind}
    {contract : Deployment} {a : Attribute} :
    policy.accepts view store contract a = policy.accepts view o.store contract a := by
  rw [h.store_eq]
  rfl

/-- A result is recorded for an attribute that is its own result, if it is self-contained. -/
theorem record (h : r.Faithful o store session) {x : Resolved}
    (declared : r.definition.attributes.get? a.name = some a) (id_eq : x.id = a.name)
    (own : r.SelfContained o a → r.ResultsIn o a (.ok x)) :
    r.Faithful o store (session.record x) := by
  refine ⟨h.locals_eq, ?_, h.store_eq, ?_⟩
  · intro b y declared' contained known
    rw [Session.result?_record] at known
    split at known
    · rename_i same
      cases known
      -- The names are those under which the attributes are declared.
      have a_eq : a = b := by
        rw [← id_eq, same.1, declared'] at declared
        exact (Option.some.inj declared).symm
      subst a_eq
      exact own contained
    · exact h.results b y declared' contained known
  · intro b declared' contained unknown
    rw [Session.result?_record] at unknown
    split at unknown
    · cases unknown
    · exact h.records b declared' contained unknown

end Faithful

/-! ## Processes that follow their own results -/

/-- From a pass, a process leaves a faithful session; and it comes to what processes come to that see the
outset only, or runs out of references. -/
structure Follows (r : Resolver) (o : Outset) (store : Store) {α : Type} (s : Pass) (clear : Prop)
    (p : Process α) (family : Nat → Process α) : Prop where
  faithful : r.Faithful o store (p.evaluate (fun _ q => o.reply q) store s).2.session
  result : clear → TooDeep (p.evaluate (fun _ q => o.reply q) store s).1 ∨
    Process.ComesTo o family (p.evaluate (fun _ q => o.reply q) store s).1

namespace Follows

variable {store : Store} {α β : Type} {s : Pass} {clear clear' : Prop} {p : Process α}
variable {family : Nat → Process α}

theorem imp (h : r.Follows o store s clear p family) (weaker : clear' → clear) :
    r.Follows o store s clear' p family :=
  ⟨h.faithful, fun holds => h.result (weaker holds)⟩

theorem done (faithful : r.Faithful o store s.session) (a : α) :
    r.Follows o store s clear (.done a) fun _ => .done a :=
  ⟨faithful, fun _ => .inr (.const rfl)⟩

theorem fail (faithful : r.Faithful o store s.session) (e : ResolveError) :
    r.Follows o store s clear (.fail e : Process α) fun _ => .fail e :=
  ⟨faithful, fun _ => .inr (.const rfl)⟩

theorem keep_done (faithful : r.Faithful o store s.session) (k : CachedRecord) (a : α) :
    r.Follows o store s clear (.keep k (.done a)) fun _ => .keep k (.done a) :=
  ⟨faithful, fun _ => .inr (.const rfl)⟩

theorem recorded (faithful : r.Faithful o store s.session) {x : Resolved}
    (declared : r.definition.attributes.get? a.name = some a) (id_eq : x.id = a.name)
    (own : r.SelfContained o a → r.ResultsIn o a (.ok x)) :
    r.Follows o store s clear (Process.recorded x) fun _ => Process.recorded x :=
  ⟨faithful.record declared id_eq own, fun _ => .inr (.const rfl)⟩

/-- One reference more is left for what a process does at first. -/
theorem of_succ {p' : Process α} {family' : Nat → Process α}
    (h : r.Follows o store s clear p family)
    (same : p'.evaluate (fun _ q => o.reply q) store s = p.evaluate (fun _ q => o.reply q) store s)
    (same' : ∀ left, (family' (left + 1)).value o = (family left).value o) :
    r.Follows o store s clear p' family' := by
  obtain ⟨faithful, result⟩ := h
  rw [← same] at faithful result
  exact ⟨faithful, fun holds => (result holds).imp_right fun comes => .of_succ (comes.congr same')⟩

/-- Where something in the way may show what was done before, only the session matters. -/
theorem of_not (unclear : ¬ clear)
    (faithful : r.Faithful o store (p.evaluate (fun _ q => o.reply q) store s).2.session) :
    r.Follows o store s clear p family :=
  ⟨faithful, fun holds => absurd holds unclear⟩

theorem bind {f : α → Process β} {g : Nat → α → Process β}
    (first : r.Follows o store s clear p family)
    (rest : ∀ a s', p.evaluate (fun _ q => o.reply q) store s = (.ok a, s') →
      r.Faithful o store s'.session → (clear → Process.ComesTo o family (.ok a)) →
      r.Follows o store s' clear (f a) fun left => g left a) :
    r.Follows o store s clear (p >>= f) fun left => family left >>= g left := by
  obtain ⟨faithful, result⟩ := first
  cases outcome : p.evaluate (fun _ q => o.reply q) store s with
  | mk found s' =>
      rw [outcome] at faithful result
      cases found with
      | error e =>
          -- An error of the first part is the result, be it an own one or too deep a reference.
          have failed := Process.evaluate_bind_of_error (fun _ q => o.reply q) store f outcome
          refine ⟨?_, ?_⟩
          · rw [failed]
            exact faithful
          · intro holds
            rw [failed]
            rcases result holds with ⟨name, deep⟩ | comes
            · cases deep
              exact .inl ⟨name, rfl⟩
            · exact .inr comes.bind_error
      | ok a =>
          have goes := Process.evaluate_bind_of_ok (fun _ q => o.reply q) store f outcome
          have comes : clear → Process.ComesTo o family (.ok a) := by
            intro holds
            rcases result holds with ⟨name, deep⟩ | comes
            · cases deep
            · exact comes
          obtain ⟨faithful', result'⟩ := rest a s' outcome faithful comes
          refine ⟨?_, ?_⟩
          · rw [goes]
            exact faithful'
          · intro holds
            rw [goes]
            rcases result' holds with deep | comes'
            · exact .inl deep
            · exact .inr ((comes holds).bind_ok comes')

/-- How often the store is used does not matter. -/
theorem accesses_bind {n n' : Nat} {f : Unit → Process α} {g : Nat → Unit → Process α}
    (rest : r.Follows o store s clear (f ()) fun left => g left ()) :
    r.Follows o store s clear (Process.accesses n >>= f)
      fun left => Process.accesses n' >>= g left := by
  obtain ⟨faithful, result⟩ := rest
  rw [← Process.evaluate_accesses_bind _ _ n f] at faithful result
  exact ⟨faithful, fun holds => (result holds).imp_right .accesses_bind⟩

theorem session_bind {f : Session → Process α} {g : Nat → Session → Process α}
    (rest : r.Follows o store s clear (f s.session) fun left => g left o.session) :
    r.Follows o store s clear (Process.session >>= f) fun left => Process.session >>= g left :=
  ⟨rest.faithful, rest.result⟩

theorem store_bind {f : Store → Process α} {g : Nat → Store → Process α}
    (rest : r.Follows o store s clear (f store) fun left => g left o.store) :
    r.Follows o store s clear (Process.store >>= f) fun left => Process.store >>= g left :=
  ⟨rest.faithful, rest.result⟩

theorem answerTo_bind {q : Request} {f : Answer → Process α} {g : Nat → Answer → Process α}
    (rest : r.Follows o store (s.ask (fun _ q => o.reply q) q) clear (f (o.reply q))
      fun left => g left (o.reply q)) :
    r.Follows o store s clear (Process.answerTo q >>= f) fun left => Process.answerTo q >>= g left :=
  ⟨rest.faithful, rest.result⟩

end Follows

/-! ## Events -/

section Events

variable {store : Store} {s : Pass} {e : EventSource} {contract : Deployment}

/-- The condition that a directive gives is what it was at the outset, if the kept result that it names is
what it was. -/
theorem Faithful.conditionFor_eq (faithful : r.Faithful o store s.session) {value : String}
    (kept : ∀ b, value ≠ "tokenId" → value ≠ "ownerAddress" →
      o.store.attribute? contract value = some b →
      store.find? contract b.name o.tokenId = o.store.find? contract b.name o.tokenId) :
    EventSource.conditionFor store contract value [o.tokenId] =
      EventSource.conditionFor o.store contract value [o.tokenId] := by
  unfold EventSource.conditionFor
  rw [faithful.wallet_eq, faithful.attribute?_eq]
  split
  · rfl
  rename_i notToken
  split
  · rfl
  rename_i notOwner
  cases known : o.store.attribute? contract value with
  | none => rfl
  | some b =>
      have same := kept b notToken notOwner known
      simp [EventSource.keptTopics, same]

theorem Faithful.filterFor_eq (faithful : r.Faithful o store s.session)
    (deployed : e.deployment? = some contract)
    (kept : ∀ value b, e.filterValue? = some value → value ≠ "tokenId" → value ≠ "ownerAddress" →
      o.store.attribute? contract value = some b →
      store.find? contract b.name o.tokenId = o.store.find? contract b.name o.tokenId) :
    e.filterFor store [o.tokenId] = e.filterFor o.store [o.tokenId] := by
  have topics : e.directiveTopics store contract [o.tokenId] =
      e.directiveTopics o.store contract [o.tokenId] := by
    unfold EventSource.directiveTopics
    split
    · rfl
    split
    · rename_i position value _ asked
      rw [faithful.conditionFor_eq fun b => kept value b asked]
    · rfl
  unfold EventSource.filterFor
  rw [deployed]
  simp only [topics]

theorem follows_fromEvent (declared : r.definition.attributes.get? a.name = some a)
    (noCall : a.call = none) (event : a.event = some e)
    (unknown : s.session.result? a.name o.tokenId = none)
    (faithful : r.Faithful o store s.session) :
    r.Follows o store s (r.SelfContained o a) (r.fromEvent o.tokenId a e)
      fun _ => r.fromEvent o.tokenId a e := by
  -- An attribute that looks where the values of others are kept may find anything there. It still leaves
  -- the session as it is.
  by_cases clear : r.SelfContained o a
  · unfold fromEvent
    cases deployed : e.deployment? with
    | none => exact .done faithful _
    | some contract =>
    refine .accesses_bind (.store_bind ?_)
    have kept := faithful.records a declared clear unknown
    have own : store.find? contract a.name o.tokenId = o.store.find? contract a.name o.tokenId :=
      kept _ (.own (.event noCall event deployed))
    rw [own]
    cases o.store.find? contract a.name o.tokenId with
    | some record => exact .done faithful _
    | none =>
    refine .accesses_bind (.store_bind ?_)
    have filter : e.filterFor store [o.tokenId] = e.filterFor o.store [o.tokenId] :=
      faithful.filterFor_eq deployed fun value b asked notToken notOwner known =>
        kept _ (.filter noCall event deployed asked notToken notOwner known)
    rw [filter]
    cases e.filterFor o.store [o.tokenId] with
    | error cause => exact .fail faithful _
    | ok filter? =>
    cases filter? with
    | none => exact .done faithful _
    | some filter =>
    refine .answerTo_bind ?_
    cases loggedValue? e (o.reply (.logs filter)) with
    | some v => exact .keep_done (s := s.ask _ _) faithful _ _
    | none => exact .done (s := s.ask _ _) faithful _
  · refine .of_not clear ?_
    obtain ⟨acts, course, last⟩ := Process.Course.of_evaluate (fun _ q => o.reply q) store s
      (r.fromEvent o.tokenId a e) []
    have unchanged : ((r.fromEvent o.tokenId a e).evaluate (fun _ q => o.reply q) store s).2.session =
        s.session := by
      rw [Pass.after_nil] at last
      rw [last]
      exact s.seen_append_of_quiet [] (quiet_of_fromEvent course).1
    rw [unchanged]
    exact faithful

end Events

/-! ## Sources -/

section Nested

variable {store : Store} {left : Nat} {s : Pass}
variable (each : ∀ {b s}, r.definition.attributes.get? b.name = some b →
  r.Faithful o store s.session →
  r.Follows o store s (r.SelfContained o b) (r.resolveAt o.options o.tokenId left b)
    fun left => r.resolveAt o.options o.tokenId left b)
variable (named : r.definition.WellNamed)

include each named

theorem follows_gather {f : CallTemplate} {names : List String} {found : Std.TreeMap String String}
    (listed : ∀ name ∈ names, name ∈ referredNames f) (faithful : r.Faithful o store s.session) :
    r.Follows o store s (∀ b, Draws r o.session f b → r.SelfContained o b)
      (r.gather (r.resolveAt o.options o.tokenId left) names found)
      fun left => r.gather (r.resolveAt o.options o.tokenId left) names found := by
  induction names generalizing found s with
  | nil => exact .done faithful found
  | cons name rest ih =>
      have others := fun n member => listed n (List.mem_cons_of_mem _ member)
      simp only [gather]
      split
      · exact ih others faithful
      refine .session_bind ?_
      -- The session at hand has the host's values of the outset.
      have host := faithful.local?_eq name
      rw [host]
      cases free : o.session.local? name with
      | some value => exact ih others faithful
      | none =>
          dsimp only
          cases declared : r.definition.attributes.get? name with
          | none => exact ih others faithful
          | some b =>
              have own : r.definition.attributes.get? b.name = some b := named.own declared
              have drawn : Draws r o.session f b :=
                ⟨name, listed name List.mem_cons_self, free, declared⟩
              refine ((each own faithful).imp fun clear => clear b drawn).bind ?_
              intro resolved s' _ faithful' _
              cases resolved.argumentText with
              | some text => exact ih others faithful'
              | none => exact ih others faithful'

theorem follows_makeCall {f : CallTemplate} {contract : Deployment} {keptId : Nat}
    {kept : Option CachedRecord} (faithful : r.Faithful o store s.session) :
    r.Follows o store s (∀ b, Draws r o.session f b → r.SelfContained o b)
      (r.makeCall o.tokenId (r.resolveAt o.options o.tokenId left) a f contract keptId kept)
      fun left =>
        r.makeCall o.tokenId (r.resolveAt o.options o.tokenId left) a f contract keptId kept := by
  unfold makeCall
  refine (follows_gather each named (fun _ member => member) faithful).bind ?_
  intro texts s' _ faithful' _
  refine .store_bind ?_
  rw [faithful.wallet_eq]
  refine .answerTo_bind ?_
  cases answeredValue? (f.build ⟨o.tokenId, o.store.wallet, texts⟩)
      (o.reply (.call contract (f.build ⟨o.tokenId, o.store.wallet, texts⟩).data)) with
  | some v => exact .keep_done (s := s'.ask _ _) faithful' _ _
  | none => exact .done (s := s'.ask _ _) faithful' _

theorem follows_fromCall {f : CallTemplate}
    (declared : r.definition.attributes.get? a.name = some a)
    (reached : r.ComesToSource o.tokenId o.session a) (calls : a.call = some f)
    (unknown : s.session.result? a.name o.tokenId = none)
    (faithful : r.Faithful o store s.session) :
    r.Follows o store s (r.SelfContained o a)
      (r.fromCall o.options o.tokenId (r.resolveAt o.options o.tokenId left) a f)
      fun left => r.fromCall o.options o.tokenId (r.resolveAt o.options o.tokenId left) a f := by
  unfold fromCall
  cases policed : o.options.policy with
  | none => exact .fail faithful _
  | some policy =>
  cases deployed : calledAt? a f with
  | none => exact .done faithful _
  | some contract =>
  refine .accesses_bind (.store_bind (.accesses_bind ?_))
  by_cases clear : r.SelfContained o a
  · -- The store keeps for it what was kept at the outset, and judges it in the same way.
    have kept : store.find? contract a.name (r.definition.cacheTokenId a.name o.tokenId) =
        o.store.find? contract a.name (r.definition.cacheTokenId a.name o.tokenId) :=
      faithful.records a declared clear unknown _ (.own (.call calls deployed))
    rw [kept, faithful.accepts_eq]
    cases accepted : (o.store.find? contract a.name
        (r.definition.cacheTokenId a.name o.tokenId)).filter
          (policy.accepts o.options.view o.store contract a) with
    | some record => exact .done faithful _
    | none =>
        have due := (UpdatePolicy.filter_accepts_eq_none_iff ..).1 accepted
        refine (follows_makeCall each named faithful).imp ?_
        intro contained b drawn
        exact contained.of_needs (.argument reached calls policed deployed due drawn)
  · refine .of_not clear ?_
    cases (store.find? contract a.name (r.definition.cacheTokenId a.name o.tokenId)).filter
        (policy.accepts o.options.view store contract a) with
    | some record => exact faithful
    | none => exact (follows_makeCall each named faithful).faithful

theorem follows_fromSource (declared : r.definition.attributes.get? a.name = some a)
    (reached : r.ComesToSource o.tokenId o.session a)
    (unknown : s.session.result? a.name o.tokenId = none)
    (faithful : r.Faithful o store s.session) :
    r.Follows o store s (r.SelfContained o a)
      (r.fromSource o.options o.tokenId (r.resolveAt o.options o.tokenId left) a)
      fun left => r.fromSource o.options o.tokenId (r.resolveAt o.options o.tokenId left) a := by
  unfold fromSource
  cases calls : a.call with
  | some f => exact follows_fromCall each named declared reached calls unknown faithful
  | none =>
      cases event : a.event with
      | some e => exact follows_fromEvent declared calls event unknown faithful
      | none => exact .done faithful _

end Nested

/-! ## Resolutions -/

section Steps

variable {result : Except ResolveError Resolved}

theorem value_resolveAt_target (left : Nat) (unsettled : Unsettled o.tokenId o.session a)
    (standsFor : r.target? a = some b) :
    (r.resolveAt o.options o.tokenId (left + 1) a).value o =
      (r.resolveAt o.options o.tokenId left b >>= fun found =>
        Process.recorded (found.relayedBy a)).value o := by
  have unknown : known? o.session a o.tokenId = none := by
    simp [known?, unsettled.noResult, unsettled.noLocal]
  simp only [resolveAt, unsettled.noLiteral, Process.value_session_bind, unknown, standsFor]
  rfl

theorem value_resolveAt_source (left : Nat) (reached : r.ComesToSource o.tokenId o.session a) :
    (r.resolveAt o.options o.tokenId (left + 1) a).value o =
      (r.fromSource o.options o.tokenId (r.resolveAt o.options o.tokenId left) a >>=
        Process.recorded).value o := by
  have unknown : known? o.session a o.tokenId = none := by
    simp [known?, reached.noResult, reached.noLocal]
  simp only [resolveAt, reached.noLiteral, Process.value_session_bind, unknown, reached.noTarget,
    reached.noEntry]
  rfl

/-- An attribute that stands for another has the own result of the other, under its own name. -/
theorem ResultsIn.relay {x : Resolved} (unsettled : Unsettled o.tokenId o.session a)
    (standsFor : r.target? a = some b) (found : r.ResultsIn o b (.ok x)) :
    r.ResultsIn o a (.ok (x.relayedBy a)) := by
  have relayed : Process.ComesTo o (fun left => r.resolveAt o.options o.tokenId left b >>=
      fun found => Process.recorded (found.relayedBy a)) (.ok (x.relayedBy a)) :=
    Process.ComesTo.bind_ok found (.const rfl)
  exact .of_succ (relayed.congr fun left => value_resolveAt_target left unsettled standsFor)

theorem ResultsIn.source {x : Resolved} (reached : r.ComesToSource o.tokenId o.session a)
    (found : Process.ComesTo o (fun left =>
      r.fromSource o.options o.tokenId (r.resolveAt o.options o.tokenId left) a) (.ok x)) :
    r.ResultsIn o a (.ok x) := by
  have recorded : Process.ComesTo o (fun left => r.fromSource o.options o.tokenId
      (r.resolveAt o.options o.tokenId left) a >>= Process.recorded) (.ok x) :=
    found.bind_ok (.const rfl)
  exact .of_succ (recorded.congr fun left => value_resolveAt_source left reached)

end Steps

section Cases

variable {store : Store} {left : Nat} {s : Pass}
variable (named : r.definition.WellNamed)
variable (declared : r.definition.attributes.get? a.name = some a)
variable (faithful : r.Faithful o store s.session)

include named declared faithful

omit faithful in
theorem follows_relay (unsettled : Unsettled o.tokenId o.session a)
    (unsettled' : Unsettled o.tokenId s.session a) (standsFor : r.target? a = some b)
    (each : r.definition.attributes.get? b.name = some b →
      r.Follows o store s (r.SelfContained o b) (r.resolveAt o.options o.tokenId left b)
        fun left => r.resolveAt o.options o.tokenId left b) :
    r.Follows o store s (r.SelfContained o a) (r.resolveAt o.options o.tokenId (left + 1) a)
      fun left => r.resolveAt o.options o.tokenId left a := by
  have target := (each (named.own_of_target standsFor)).imp fun contained : r.SelfContained o a =>
    contained.of_needs (.target unsettled standsFor)
  have relays : r.Follows o store s (r.SelfContained o a)
      (r.resolveAt o.options o.tokenId left b >>= fun found =>
        Process.recorded (found.relayedBy a))
      fun left => r.resolveAt o.options o.tokenId left b >>= fun found =>
        Process.recorded (found.relayedBy a) := by
    refine target.bind ?_
    intro found s' _ faithful' comes
    refine .recorded faithful' declared rfl ?_
    exact fun contained => .relay unsettled standsFor (comes contained)
  exact relays.of_succ
    (r.evaluate_resolveAt_target _ store o.options o.tokenId left unsettled' standsFor)
    (fun left => value_resolveAt_target left unsettled standsFor)

theorem follows_source (reached : r.ComesToSource o.tokenId o.session a)
    (unknown : s.session.result? a.name o.tokenId = none)
    (each : ∀ {b s}, r.definition.attributes.get? b.name = some b →
      r.Faithful o store s.session →
      r.Follows o store s (r.SelfContained o b) (r.resolveAt o.options o.tokenId left b)
        fun left => r.resolveAt o.options o.tokenId left b) :
    r.Follows o store s (r.SelfContained o a) (r.resolveAt o.options o.tokenId (left + 1) a)
      fun left => r.resolveAt o.options o.tokenId left a := by
  have noLocal : s.session.local? (a.reference.getD a.name) = none :=
    (faithful.local?_eq _).trans reached.noLocal
  have reached' : r.ComesToSource o.tokenId s.session a :=
    ⟨⟨reached.noLiteral, unknown, noLocal⟩, reached.noTarget, reached.noEntry⟩
  have source : r.Follows o store s (r.SelfContained o a)
      (r.fromSource o.options o.tokenId (r.resolveAt o.options o.tokenId left) a >>=
        Process.recorded)
      fun left => r.fromSource o.options o.tokenId (r.resolveAt o.options o.tokenId left) a >>=
        Process.recorded := by
    refine (follows_fromSource each named declared reached unknown faithful).bind ?_
    intro found s' outcome faithful' comes
    obtain ⟨acts, course, -⟩ := Process.Course.of_evaluate (fun _ q => o.reply q) store s
      (r.fromSource o.options o.tokenId (r.resolveAt o.options o.tokenId left) a) []
    rw [Pass.after_nil, outcome] at course
    refine .recorded faithful' declared (belongsTo_of_fromSource course).1 ?_
    exact fun contained => .source reached (comes contained)
  exact source.of_succ
    (r.evaluate_resolveAt_source _ store o.options o.tokenId left reached')
    (fun left => value_resolveAt_source left reached)

end Cases

/-- From a session and a store that are faithful to the outset, the resolution of an attribute leaves a
faithful session, and gives the attribute's own result or runs out of references if the attribute is
self-contained. The induction is on the number of references that may still be followed. -/
theorem follows_resolveAt (named : r.definition.WellNamed)
    (new : ∀ name, o.session.result? name o.tokenId = none) {store : Store} (left : Nat) {s : Pass}
    (declared : r.definition.attributes.get? a.name = some a)
    (faithful : r.Faithful o store s.session) :
    r.Follows o store s (r.SelfContained o a) (r.resolveAt o.options o.tokenId left a)
      fun left => r.resolveAt o.options o.tokenId left a := by
  induction left generalizing a s with
  | zero => exact ⟨faithful, fun _ => .inl ⟨a.name, rfl⟩⟩
  | succ left ih =>
  cases literal : a.literal with
  | some text =>
      refine .of_succ (.done faithful (Resolved.ofLiteral a o.tokenId text)) ?_ ?_
      · simp only [resolveAt, literal]
      · intro left
        simp only [resolveAt, literal]
  | none =>
  cases recorded : s.session.result? a.name o.tokenId with
  | some x =>
      -- The one case in which the session shows what was done before: the invariant says that this is
      -- the attribute's own result.
      have outcome := r.evaluate_resolveAt_recorded (fun _ q => o.reply q) store o.options o.tokenId
        left literal recorded
      refine ⟨?_, ?_⟩
      · rw [outcome]
        exact faithful
      · intro clear
        rw [outcome]
        exact .inr (faithful.results a x declared clear recorded)
  | none =>
  -- From here on the session shows what it showed at the outset.
  have same : known? s.session a o.tokenId = known? o.session a o.tokenId := by
    simp only [known?, recorded, new, faithful.local?_eq]
  cases host : known? o.session a o.tokenId with
  | some x =>
      refine .of_succ (.done faithful x) ?_ ?_
      · simp only [resolveAt, literal, Process.evaluate_session_bind, same, host]
      · intro left
        simp only [resolveAt, literal, Process.value_session_bind, host]
  | none =>
  have unsettled := unsettled_of_unknown literal host
  cases standsFor : r.target? a with
  | some b =>
      have unsettled' := unsettled_of_unknown literal (same.trans host)
      exact follows_relay named declared unsettled unsettled' standsFor fun own =>
        ih own faithful
  | none =>
  cases entry : a.userInput with
  | true =>
      refine .of_succ (.done faithful (Resolved.blank a o.tokenId)) ?_ ?_
      · simp only [resolveAt, literal, Process.evaluate_session_bind, same, host, standsFor, entry,
          if_true]
      · intro left
        simp only [resolveAt, literal, Process.value_session_bind, host, standsFor, entry, if_true]
  | false => exact follows_source named declared faithful ⟨unsettled, standsFor, entry⟩ recorded ih

end Resolver

end TokenSchema
