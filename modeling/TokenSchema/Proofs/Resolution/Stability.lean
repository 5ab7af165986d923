import TokenSchema.Proofs.Resolution.Outcome
import TokenSchema.Proofs.Resolution.Progress
import TokenSchema.Proofs.Resolution.Readings

/-!
# Stability — what a session knows does not change

Hosts call for attributes by name, one call after another, on one session. A call may come with any policy
and view, find any store and be given any answers (`Definition.Visit`).

* Each call leaves a session that knows more, and its result is held there from then on
  (`Visit.grown`, `Visit.holds`); a value that is held is the result of each later call
  (`Visit.of_holds`).
* So all calls for one name that end well have one result (`Definition.Stable`, `Definition.visits_stable`).

Attributes are taken to be found under their own names, as in every definition that is read from a document
(`Document.wellNamed_of_readWith`). Where two attributes of one name are found under other names, a call for one of
them can change what a call for the other gives (`Misnamed.visits_differ`).
-/

namespace TokenSchema

namespace Definition

/-! ## Calls on a session -/

/-- A call for a name and a token on a session: its result, its requests with their answers, what it
writes, and the session that it leaves. -/
inductive Visit (d : Definition) (name : String) (tokenId : Nat) :
    Session → Except ResolveError (Option Resolved) → List (Request × Answer) →
    List CachedRecord → Session → Prop where
  | undeclared {session : Session} : d.attributes.get? name = none →
      Visit d name tokenId session (.ok none) [] [] session
  | declared {r : Resolver} {a : Attribute} {session : Session} (options : ResolveOptions)
      (answers : Answers) (store : Store) {asked requests : List (Request × Answer)}
      {result : Except ResolveError Resolved} {s : Pass} :
      r.definition = d → d.attributes.get? name = some a →
      (r.resolution options tokenId a).evaluate answers store ⟨session, asked, []⟩ = (result, s) →
      s.requests = asked ++ requests →
      Visit d name tokenId session (result.map some) requests (s.flushed result) s.session

/-- Some calls lead from one session to another. -/
def Leads (d : Definition) : Session → Session → Prop :=
  Relation.ReflTransGen fun s s' =>
    ∃ name tokenId result requests writes, d.Visit name tokenId s result requests writes s'

variable {d : Definition} {name : String} {tokenId : Nat} {session session' : Session}
variable {result : Except ResolveError (Option Resolved)} {requests : List (Request × Answer)}
variable {writes : List CachedRecord}

theorem Visit.progress {r : Resolver} {a : Attribute} (options : ResolveOptions) (answers : Answers)
    (store : Store) (asked : List (Request × Answer)) {result : Except ResolveError Resolved}
    {s : Pass} (named : r.definition.WellNamed) (sound : r.definition.Sound session)
    (declared : r.definition.attributes.get? name = some a)
    (evaluated : (r.resolution options tokenId a).evaluate answers store ⟨session, asked, []⟩ =
      (result, s)) :
    ∃ acts, s = Pass.after ⟨session, asked, []⟩ acts ∧
      Process.Course (.alone answers store ⟨session, asked, []⟩) [] (r.resolution options tokenId a)
        acts result ∧
      r.Resolves options store tokenId ⟨session, asked, []⟩ a [] acts result := by
  obtain ⟨acts, course, left⟩ := Process.Course.of_evaluate answers store ⟨session, asked, []⟩
    (r.resolution options tokenId a) []
  rw [Pass.after_nil, evaluated] at course left
  have own : r.definition.attributes.get? a.name = some a := named.own declared
  exact ⟨acts, left, course, Resolver.progress_resolveAt named sound _ own .nil course⟩

/-- A call leaves a sound session that knows all that was known. -/
theorem Visit.grown (visit : d.Visit name tokenId session result requests writes session')
    (named : d.WellNamed) (sound : d.Sound session) : session.Extends session' ∧ d.Sound session' := by
  cases visit with
  | undeclared _ => exact ⟨.refl session, sound⟩
  | declared options answers store same declared evaluated _ =>
      subst same
      obtain ⟨acts, rfl, -, progress, -⟩ :=
        Visit.progress options answers store _ named sound declared evaluated
      exact ⟨progress.grown, progress.sound sound⟩

/-- The result of a call is held by the session that it leaves. -/
theorem Visit.holds {x : Resolved}
    (visit : d.Visit name tokenId session (.ok (some x)) requests writes session')
    (named : d.WellNamed) (sound : d.Sound session) :
    ∃ a, d.attributes.get? name = some a ∧ d.Holds session' tokenId a x := by
  generalize outcome : Except.ok (some x) = result at visit
  cases visit with
  | undeclared _ => cases outcome
  | @declared r a _ options answers store _ _ found _ same declared evaluated _ =>
      subst same
      obtain ⟨acts, rfl, -, -, ended⟩ :=
        Visit.progress options answers store _ named sound declared evaluated
      cases found with
      | error e => cases outcome
      | ok y =>
          cases outcome
          exact ⟨a, declared, (ended x rfl).2⟩

theorem Visit.undeclared_of_none
    (visit : d.Visit name tokenId session (.ok none) requests writes session') :
    d.attributes.get? name = none := by
  generalize outcome : Except.ok none = result at visit
  cases visit with
  | undeclared missing => exact missing
  | @declared _ _ _ _ _ _ _ _ found _ _ _ _ _ =>
      cases found with
      | error e => cases outcome
      | ok x => cases outcome

/-! ## Values that are held -/

theorem Sound.given?_of_known (sound : d.Sound session) {a : Attribute} {x : Resolved}
    (declared : d.attributes.get? a.name = some a)
    (known : session.result? a.name tokenId = some x) : d.given? session tokenId a = none := by
  obtain ⟨id_eq, b, able⟩ := sound a.name tokenId x known
  have own := able.declared
  rw [id_eq, declared] at own
  cases own
  exact able.notGiven

/-- A value that is held is found at once. -/
theorem Holds.evaluate_resolveAt {r : Resolver} {a : Attribute} {x : Resolved} {s : Pass}
    (held : r.definition.Holds s.session tokenId a x) (sound : r.definition.Sound s.session)
    (declared : r.definition.attributes.get? a.name = some a) (options : ResolveOptions)
    (answers : Answers) (store : Store) (left : Nat) :
    (r.resolveAt options tokenId (left + 1) a).evaluate answers store s = (.ok x, s) := by
  unfold Resolver.resolveAt
  cases literal : a.literal with
  | some text =>
      have given : r.definition.given? s.session tokenId a =
          some (Resolved.ofLiteral a tokenId text) := by
        simp only [given?, literal]
      rcases held with found | known
      · rw [given] at found
        cases found
        rfl
      · rw [sound.given?_of_known declared known] at given
        cases given
  | none =>
      simp only [Process.evaluate_session_bind]
      -- Results of the session are looked up first; for an attribute whose value is given there is none.
      rcases held with given | known
      · have unknown : s.session.result? a.name tokenId = none := by
          cases known : s.session.result? a.name tokenId with
          | none => rfl
          | some y =>
              rw [sound.given?_of_known declared known] at given
              cases given
        simp only [given?, literal] at given
        split at given
        · rename_i value host
          cases given
          have found : Resolver.known? s.session a tokenId =
              some (Resolved.ofRaw a tokenId value) := by
            simp only [Resolver.known?, unknown, host, Option.none_or, Option.map_some]
          rw [found]
          rfl
        · rename_i host
          have nothing : Resolver.known? s.session a tokenId = none := by
            simp only [Resolver.known?, unknown, host, Option.none_or, Option.map_none]
          split at given
          · rename_i entry
            rw [Bool.and_eq_true, Option.isNone_iff_eq_none] at entry
            cases given
            have noTarget : r.target? a = none := entry.1
            rw [nothing, noTarget]
            simp only [entry.2, if_true, Process.evaluate_done]
          · cases given
      · have found : Resolver.known? s.session a tokenId = some x := by
          simp only [Resolver.known?, known, Option.some_or]
        rw [found]
        rfl

/-- A call for a name whose value is held gives that value, asks and writes nothing, and leaves the session
as it is. -/
theorem Visit.of_holds {a : Attribute} {x : Resolved}
    (visit : d.Visit name tokenId session result requests writes session') (named : d.WellNamed)
    (sound : d.Sound session) (declared : d.attributes.get? name = some a)
    (held : d.Holds session tokenId a x) :
    result = .ok (some x) ∧ requests = [] ∧ writes = [] ∧ session' = session := by
  cases visit with
  | undeclared missing =>
      rw [missing] at declared
      cases declared
  | @declared r b _ options answers store asked _ _ _ same declared' evaluated added =>
      subst same
      obtain rfl : b = a := Option.some.inj (declared'.symm.trans declared)
      have own : r.definition.attributes.get? b.name = some b := named.own declared
      have found := held.evaluate_resolveAt (s := ⟨session, asked, []⟩) sound own options answers
        store r.settings.maxDepth
      obtain ⟨rfl, rfl⟩ : Except.ok x = _ ∧ (⟨session, asked, []⟩ : Pass) = _ :=
        Prod.mk.inj (found.symm.trans evaluated)
      have nothing : requests = [] := by simpa using added
      exact ⟨rfl, nothing, rfl, rfl⟩

theorem Leads.grown (leads : d.Leads session session') (named : d.WellNamed)
    (sound : d.Sound session) : session.Extends session' ∧ d.Sound session' := by
  induction leads with
  | refl => exact ⟨.refl session, sound⟩
  | tail _ visited ih =>
      obtain ⟨grown, sound'⟩ := ih
      obtain ⟨name, tokenId, result, requests, writes, visit⟩ := visited
      obtain ⟨grown', sound''⟩ := visit.grown named sound'
      exact ⟨grown.trans grown', sound''⟩

/-! ## Hosts -/

/-- Every evaluation of a declared attribute's resolution is a call. -/
theorem exists_visit_evaluate (r : Resolver) (options : ResolveOptions) (answers : Answers)
    (store : Store) (asked : List (Request × Answer)) {a : Attribute}
    (declared : r.definition.attributes.get? name = some a) (session : Session) (tokenId : Nat) :
    let outcome := (r.resolution options tokenId a).evaluate answers store ⟨session, asked, []⟩
    ∃ requests, outcome.2.requests = asked ++ requests ∧
      r.definition.Visit name tokenId session (outcome.1.map some) requests
        (outcome.2.flushed outcome.1) outcome.2.session := by
  intro outcome
  obtain ⟨acts, -, left⟩ := Process.Course.of_evaluate answers store ⟨session, asked, []⟩
    (r.resolution options tokenId a) []
  have added : outcome.2.requests = asked ++ exchanges acts :=
    (congrArg Pass.requests left).trans (Pass.requests_after _ acts)
  exact ⟨exchanges acts, added, .declared options answers store rfl declared rfl added⟩

/-- What a host does for a declared name is what comes of the evaluation. -/
theorem resolveNamed_of_evaluate {r : Resolver} {node : Node} {options : ResolveOptions}
    {a : Attribute} {h : Host} {result : Except ResolveError Resolved} {s : Pass}
    (declared : r.definition.attributes.get? name = some a)
    (evaluated : (r.resolution options tokenId a).evaluate (fun _ q => node.reply q) h.store
      ⟨h.session, h.requests, []⟩ = (result, s)) :
    (r.resolveNamed node options name tokenId h).1 = result.map some ∧
      (r.resolveNamed node options name tokenId h).2.trace =
        { session := s.session
          store := (s.flushed result).foldl Store.put h.store
          requests := s.requests
          writes := h.writes ++ s.flushed result } := by
  have ran := (r.exchange node).run_eq_evaluate (r.resolution options tokenId a) [] h
  have started : (r.resolution options tokenId a).evaluate (r.exchange node).answers h.trace.store
      ⟨h.trace.session, h.trace.requests, []⟩ = (result, s) := evaluated
  rw [started] at ran
  have called : r.resolveNamed node options name tokenId h =
      (((r.exchange node).run none (r.resolution options tokenId a) [] h).1.map some,
        ((r.exchange node).run none (r.resolution options tokenId a) [] h).2) := by
    simp only [Resolver.resolveNamed, declared]
    rfl
  rw [called]
  exact ⟨congrArg (Except.map some) ran.1, ran.2⟩

/-- The call of a host for a name is a call on its session. -/
theorem exists_visit_resolveNamed (r : Resolver) (node : Node) (options : ResolveOptions)
    (name : String) (tokenId : Nat) (h : Host) :
    ∃ requests writes,
      r.definition.Visit name tokenId h.session (r.resolveNamed node options name tokenId h).1 requests
        writes (r.resolveNamed node options name tokenId h).2.session ∧
      h.MovesBy (r.resolveNamed node options name tokenId h).2 requests writes := by
  cases declared : r.definition.attributes.get? name with
  | none =>
      simp only [Resolver.resolveNamed, declared]
      exact ⟨[], [], .undeclared declared, .of_trace_eq rfl⟩
  | some a =>
      obtain ⟨result, trace⟩ : (r.resolveNamed node options name tokenId h).1 = _ ∧
          (r.resolveNamed node options name tokenId h).2.trace = _ :=
        resolveNamed_of_evaluate declared rfl
      obtain ⟨requests, added, visit⟩ := exists_visit_evaluate r options (fun _ q => node.reply q)
        h.store h.requests declared h.session tokenId
      have session := congrArg Host.Trace.session trace
      refine ⟨requests, _, ?_, (congrArg Host.Trace.requests trace).trans added,
        congrArg Host.Trace.writes trace, congrArg Host.Trace.store trace⟩
      change r.definition.Visit name tokenId h.session _ requests _
        (r.resolveNamed node options name tokenId h).2.trace.session
      rw [result, session]
      exact visit

/-! ## Stability -/

/-- What a session knows does not change: what is recorded stays as it is, and is the result of all later calls for
its name and token, which ask and write nothing; and any two calls for one name and token that end well have the same
result. -/
structure Stable (d : Definition) (session : Session) : Prop where
  kept : ∀ name tokenId x session', session.result? name tokenId = some x → d.Leads session session' →
    session'.result? name tokenId = some x
  found : ∀ name tokenId x result requests writes session', session.result? name tokenId = some x →
    d.Visit name tokenId session result requests writes session' →
      result = .ok (some x) ∧ requests = [] ∧ writes = [] ∧ session' = session
  agree : ∀ name tokenId x y requests writes requests' writes' session₁ session₂ session₃,
    d.Visit name tokenId session (.ok x) requests writes session₁ → d.Leads session₁ session₂ →
      d.Visit name tokenId session₂ (.ok y) requests' writes' session₃ → x = y

/-- Of two calls that end well the second gives what the first gave. -/
theorem Visit.agree {x y : Option Resolved} {requests' : List (Request × Answer)}
    {writes' : List CachedRecord} {s₁ s₂ s₃ : Session} (named : d.WellNamed) (sound : d.Sound session)
    (visit : d.Visit name tokenId session (.ok x) requests writes s₁) (leads : d.Leads s₁ s₂)
    (visit' : d.Visit name tokenId s₂ (.ok y) requests' writes' s₃) : x = y := by
  obtain ⟨-, sound₁⟩ := visit.grown named sound
  obtain ⟨grown, sound₂⟩ := leads.grown named sound₁
  -- A name without attribute has none in both calls. Otherwise the first result is held when the second
  -- call begins.
  cases x with
  | none =>
      have missing := visit.undeclared_of_none
      cases y with
      | none => rfl
      | some y =>
          obtain ⟨a, declared, -⟩ := visit'.holds named sound₂
          rw [missing] at declared
          cases declared
  | some x =>
      obtain ⟨a, declared, held⟩ := visit.holds named sound
      obtain ⟨same, -⟩ := visit'.of_holds named sound₂ declared (held.mono grown)
      exact (Except.ok.inj same).symm

theorem Leads.stable {start : Session} (reached : d.Leads start session) (named : d.WellNamed)
    (new : ∀ name tokenId, start.result? name tokenId = none) : d.Stable session := by
  obtain ⟨-, sound⟩ := reached.grown named (sound_of_new new)
  refine ⟨?_, ?_, ?_⟩
  · intro name tokenId x session' known leads
    exact (leads.grown named sound).1.keeps name tokenId x known
  · intro name tokenId x result requests writes session' known visit
    obtain ⟨id_eq, a, able⟩ := sound name tokenId x known
    have declared : d.attributes.get? name = some a := id_eq ▸ able.declared
    refine visit.of_holds named sound declared (.inr ?_)
    rw [named name a declared]
    exact known
  · intro name tokenId x y requests writes requests' writes' s₁ s₂ s₃ visit leads visit'
    exact visit.agree named sound leads visit'

/-- From a new session on: what the session knows stays as it is. What a host does for a name is a call on its
session. -/
theorem visits_stable (d : Definition) (named : d.WellNamed) {start session : Session}
    (new : ∀ name tokenId, start.result? name tokenId = none) (reached : d.Leads start session) :
    d.Stable session ∧
    (∀ (r : Resolver) node options name tokenId (h : Host), r.definition = d → h.session = session →
      let called := r.resolveNamed node options name tokenId h
      ∃ requests writes, d.Visit name tokenId session called.1 requests writes called.2.session ∧
        h.MovesBy called.2 requests writes) := by
  refine ⟨reached.stable named new, ?_⟩
  rintro r node options name tokenId h rfl rfl
  exact exists_visit_resolveNamed r node options name tokenId h

end Definition

/-! ## A balance that changes -/

namespace Balance

theorem wellNamed : resolver.definition.WellNamed :=
  (Definition.wellNamed_empty _ _ _).insert balance

theorem declared : resolver.definition.attributes.get? "balance" = some balance := by
  simp [resolver]

theorem new_empty (name : String) (tokenId : Nat) : Session.empty.result? name tokenId = none := by
  simp [Session.result?, Session.empty]

/-- A call that fetches the balance. -/
theorem visit_five :
    let request := Request.call token (template.build ⟨7, bare.wallet, ∅⟩).data
    let five := Answer.bytes (Bytes.Word.ofNat 5).bytes
    let found := Resolved.ofRaw balance 7 "5"
    resolver.definition.Visit "balance" 7 .empty (.ok (some found)) [(request, five)]
      [⟨token, "balance", 0, "5", 30⟩] (Session.empty.record found) :=
  .declared _ _ _ rfl declared (evaluate_resolveAt_five _ (cacheTokenId_eq 7)) rfl

theorem result?_record_found :
    let found := Resolved.ofRaw balance 7 "5"
    (Session.empty.record found).result? "balance" 7 = some found := by
  intro found
  have kept := Session.result?_record_self .empty found
  rw [Resolved.id_ofRaw, Resolved.tokenId_ofRaw] at kept
  exact kept

/-- After the balance has been fetched, a call finds it in the session, whatever is kept by then and
whatever the node would answer. -/
theorem visits_stable_five :
    let found := Resolved.ofRaw balance 7 "5"
    let known := Session.empty.record found
    resolver.definition.Visit "balance" 7 known (.ok (some found)) [] [] known := by
  intro found known
  have leads : resolver.definition.Leads .empty known := .single ⟨_, _, _, _, _, visit_five⟩
  obtain ⟨requests, -, visit⟩ := Definition.exists_visit_evaluate resolver
    ⟨some .alwaysUpdate, .detail⟩ (fun _ _ => .bytes (Bytes.Word.ofNat 6).bytes) store [] declared
    known 7
  obtain ⟨stable, -⟩ := Definition.visits_stable resolver.definition wellNamed new_empty leads
  obtain ⟨same, silent, unwritten, unchanged⟩ := stable.found _ _ _ _ _ _ _ result?_record_found visit
  rw [same, silent, unwritten, unchanged] at visit
  exact visit

end Balance

/-! ## One name for two attributes -/

namespace Misnamed

/-- A grade that the user is to enter. -/
def entered : Attribute :=
  { Attribute.ofName "grade" with userInput := true }

/-- A grade that stands in the token id. -/
def stored : Attribute :=
  Attribute.ofName "grade"

/-- A definition of the two, under names that are not theirs. -/
def resolver : Resolver :=
  { definition :=
      { Definition.empty "" ⟨none, .current, .oldestSupported⟩ "en" with
        attributes := ((∅ : Std.TreeMap String Attribute).insert "entered" entered).insert "stored" stored }
    settings := .standard
    clock := 30 }

theorem get?_entered : resolver.definition.attributes.get? "entered" = some entered := by
  simp [resolver, Std.TreeMap.getElem_insert]

theorem get?_stored : resolver.definition.attributes.get? "stored" = some stored := by
  simp [resolver]

/-- A call for what is to be entered gives nothing. After a call for what is stored, it gives what is stored: that has
been recorded under the name of both. -/
theorem visits_differ :
    let nothing := Resolved.blank entered 7
    let found := Resolved.ofValue stored 7 (stored.extract 7)
    let known := Session.empty.record found
    resolver.definition.Visit "entered" 7 .empty (.ok (some nothing)) [] [] .empty ∧
      resolver.definition.Visit "stored" 7 .empty (.ok (some found)) [] [] known ∧
      resolver.definition.Visit "entered" 7 known (.ok (some found)) [] [] known ∧ nothing ≠ found := by
  intro nothing found known
  have unsettled (a : Attribute) (noLiteral : a.literal = none) : Resolver.Unsettled 7 Session.empty a :=
    ⟨noLiteral, Balance.new_empty a.name 7, by simp [Session.local?, Session.empty]⟩
  have stored' : resolver.ComesToSource 7 Session.empty stored := ⟨unsettled stored rfl, rfl, rfl⟩
  let options : ResolveOptions := ⟨none, .detail⟩
  let answers : Answers := fun _ _ => .bytes []
  -- The first call finds nothing, and records nothing. The third looks for a result under the name of its attribute, and
  -- there is what the second recorded.
  refine ⟨?_, ?_, ?_, ?_⟩
  · exact .declared options answers Balance.bare rfl get?_entered (resolver.evaluate_resolveAt_entry options 7
      answers Balance.bare resolver.settings.maxDepth (s := ⟨.empty, [], []⟩) (unsettled entered rfl) rfl rfl) rfl
  · exact .declared options answers Balance.bare rfl get?_stored (resolver.evaluate_resolveAt_static options 7
      answers Balance.bare resolver.settings.maxDepth (s := ⟨.empty, [], []⟩) stored' rfl) rfl
  · exact .declared options answers Balance.bare rfl get?_entered (resolver.evaluate_resolveAt_recorded answers
      Balance.bare options 7 (a := entered) (s := ⟨known, [], []⟩) resolver.settings.maxDepth rfl
      (Session.result?_record_self .empty found)) rfl
  · intro same
    cases congrArg Resolved.value same

end Misnamed

end TokenSchema
