import Mathlib.Logic.Relation
import TokenSchema.Proofs.Document.Names
import TokenSchema.Proofs.Session.Growth

/-!
# Progress — what a resolution does to its session

A resolution records a result when it has found one, and by then it has recorded others on the way. That
none of them takes the place of an earlier one needs an argument: an attribute that comes to itself again
would record two results under one name. It never ends well, because within one call the store does not
change, so each return takes the same way again until no references are left.

* `Resolver.Needs` and `Resolver.Grounded`: what must be resolved first, and that this comes to an end.
* `Resolver.Progress`: the session grows, and all that is recorded was needed. One lemma for each source,
  and `Resolver.progress_resolveAt` for a whole resolution.
-/

namespace TokenSchema

/-! ## Values that are given -/

@[simp] theorem Resolved.tokenId_ofRaw (a : Attribute) (tokenId : Nat) (raw : String) :
    (Resolved.ofRaw a tokenId raw).tokenId = tokenId :=
  (Twins.ofRaw a raw : Twins tokenId tokenId _ _).1

@[simp] theorem Resolved.id_ofRaw (a : Attribute) (tokenId : Nat) (raw : String) :
    (Resolved.ofRaw a tokenId raw).id = a.name := by
  unfold ofRaw
  split
  · split <;> rfl
  · rfl

/-- What an attribute shows that stands for another. -/
def Resolved.relayedBy (x : Resolved) (a : Attribute) : Resolved :=
  { x with id := a.name, label := a.label }

/-- A result is the attribute's own, for the token. -/
def Resolved.BelongsTo (x : Resolved) (a : Attribute) (tokenId : Nat) : Prop :=
  x.id = a.name ∧ x.tokenId = tokenId

theorem Resolved.belongsTo_blank (a : Attribute) (tokenId : Nat) :
    (Resolved.blank a tokenId).BelongsTo a tokenId :=
  ⟨rfl, rfl⟩

theorem Resolved.belongsTo_ofRaw (a : Attribute) (tokenId : Nat) (raw : String) :
    (Resolved.ofRaw a tokenId raw).BelongsTo a tokenId :=
  ⟨id_ofRaw .., tokenId_ofRaw ..⟩

theorem Resolver.belongsTo_orKept (a : Attribute) (tokenId : Nat) (kept : Option CachedRecord) :
    (orKept a tokenId kept).BelongsTo a tokenId := by
  cases kept with
  | none => exact Resolved.belongsTo_blank a tokenId
  | some record => exact Resolved.belongsTo_ofRaw a tokenId record.result

namespace Definition

section Values

variable (d : Definition) (session : Session) (tokenId : Nat) (a : Attribute)

/-- The declared attribute that an attribute stands for. -/
def target? : Option Attribute :=
  a.reference.bind (d.attributes.get? ·)

theorem WellNamed.own_of_target {d : Definition} {a b : Attribute} (named : d.WellNamed)
    (standsFor : d.target? a = some b) : d.attributes.get? b.name = some b := by
  obtain ⟨name, -, declared⟩ := Option.bind_eq_some_iff.1 standsFor
  exact named.own declared

/-- The value that an attribute has before anything is resolved: its literal, the host's value, or what
the user is still to enter. -/
def given? : Option Resolved :=
  match a.literal with
  | some literal => some (Resolved.ofLiteral a tokenId literal)
  | none =>
      match session.local? (a.reference.getD a.name) with
      | some value => some (Resolved.ofRaw a tokenId value)
      | none =>
          if (d.target? a).isNone && a.userInput then some (Resolved.blank a tokenId) else none

/-- A value is given, or is a result of the session. -/
def Holds (x : Resolved) : Prop :=
  d.given? session tokenId a = some x ∨ session.result? a.name tokenId = some x

/-- A result that may be recorded for an attribute: no value is given for it, and if it stands for another
it shows what the other has. -/
structure Recordable (x : Resolved) : Prop where
  declared : d.attributes.get? x.id = some a
  token : x.tokenId = tokenId
  notGiven : d.given? session tokenId a = none
  relays : ∀ b, d.target? a = some b → ∃ y, d.Holds session tokenId b y ∧ x = y.relayedBy a

/-- All results of a session are recordable, each under its own name. -/
def Sound : Prop :=
  ∀ name tokenId x, session.result? name tokenId = some x →
    x.id = name ∧ ∃ a, d.Recordable session tokenId a x

end Values

variable {d : Definition} {session session' : Session} {tokenId : Nat} {a : Attribute} {x : Resolved}

theorem sound_of_new (new : ∀ name tokenId, session.result? name tokenId = none) :
    d.Sound session := by
  intro name tokenId x known
  rw [new] at known
  cases known

theorem given?_congr (same : session'.locals = session.locals) :
    d.given? session' tokenId a = d.given? session tokenId a := by
  simp only [given?, Session.local?, same]

/-- The value of an attribute with neither literal nor value from the host is given only where the user is
to enter it. -/
theorem given?_of_unsettled (unsettled : Resolver.Unsettled tokenId session a) :
    d.given? session tokenId a =
      if (d.target? a).isNone && a.userInput then some (Resolved.blank a tokenId) else none := by
  simp only [given?, unsettled.noLiteral, unsettled.noLocal]

theorem Holds.mono (held : d.Holds session tokenId a x) (grown : session.Extends session') :
    d.Holds session' tokenId a x := by
  rcases held with given | known
  · left
    rw [given?_congr grown.locals_eq, given]
  · exact .inr (grown.keeps _ _ _ known)

theorem Recordable.mono (able : d.Recordable session tokenId a x)
    (grown : session.Extends session') : d.Recordable session' tokenId a x where
  declared := able.declared
  token := able.token
  notGiven := (given?_congr grown.locals_eq).trans able.notGiven
  relays := by
    intro b target
    obtain ⟨y, held, shown⟩ := able.relays b target
    exact ⟨y, held.mono grown, shown⟩

theorem Holds.token (held : d.Holds session tokenId a x) (sound : d.Sound session) :
    x.tokenId = tokenId := by
  rcases held with given | known
  · unfold given? at given
    split at given
    · cases given
      rfl
    split at given
    · cases given
      exact Resolved.tokenId_ofRaw ..
    split at given
    · cases given
      rfl
    · cases given
  · obtain ⟨-, b, able⟩ := sound a.name tokenId x known
    exact able.token

end Definition

namespace Resolver

/-! ## Results of sources -/

section Own

open Process (Course)

variable {r : Resolver} {w : Surroundings} {options : ResolveOptions} {tokenId : Nat}
variable {nested : Attribute → Process Resolved} {past acts : List Act} {a : Attribute}

/-- Nothing is recorded for an event, and the result is the attribute's own. -/
theorem quiet_of_fromEvent {e : EventSource} {result : Except ResolveError Resolved}
    (h : Course w past (r.fromEvent tokenId a e) acts result) :
    (∀ x, .recorded x ∉ acts) ∧ ∀ found, result = .ok found → found.BelongsTo a tokenId := by
  unfold fromEvent at h
  split at h
  · obtain ⟨rfl, rfl⟩ := h.of_done
    exact ⟨by simp, by rintro found ⟨⟩; exact Resolved.belongsTo_blank ..⟩
  obtain ⟨-, store, -, h⟩ := h.of_accesses_bind.of_store_bind
  split at h
  · obtain ⟨rfl, rfl⟩ := h.of_done
    exact ⟨by simp, by rintro found ⟨⟩; exact Resolved.belongsTo_ofRaw ..⟩
  obtain ⟨-, later, -, h⟩ := h.of_accesses_bind.of_store_bind
  cases filtered : e.filterFor later [tokenId] with
  | error cause =>
      rw [filtered] at h
      obtain ⟨rfl, rfl⟩ := h.of_fail
      exact ⟨by simp, by simp⟩
  | ok filter? =>
      rw [filtered] at h
      cases filter? with
      | none =>
          obtain ⟨rfl, rfl⟩ := h.of_done
          exact ⟨by simp, by rintro found ⟨⟩; exact Resolved.belongsTo_blank ..⟩
      | some filter =>
          obtain ⟨answer, rest, -, reads, rfl⟩ := h.of_answerTo_bind
          split at reads
          · obtain ⟨rfl, rfl⟩ := reads.of_keep_done
            exact ⟨by simp, by rintro found ⟨⟩; exact Resolved.belongsTo_ofRaw ..⟩
          · obtain ⟨rfl, rfl⟩ := reads.of_done
            exact ⟨by simp, by rintro found ⟨⟩; exact Resolved.belongsTo_blank ..⟩

theorem belongsTo_of_makeCall {f : CallTemplate} {contract : Deployment} {keptId : Nat}
    {kept : Option CachedRecord} {found : Resolved}
    (h : Course w past (r.makeCall tokenId nested a f contract keptId kept) acts (.ok found)) :
    found.BelongsTo a tokenId := by
  unfold makeCall at h
  rcases h.of_bind with ⟨texts, first, last, -, goes, -⟩ | ⟨e, -, impossible⟩
  · obtain ⟨-, store, -, calling⟩ := goes.of_store_bind
    obtain ⟨answer, rest, -, reads, -⟩ := calling.of_answerTo_bind
    split at reads
    · obtain ⟨-, ok⟩ := reads.of_keep_done
      cases ok
      exact Resolved.belongsTo_ofRaw ..
    · obtain ⟨-, ok⟩ := reads.of_done
      cases ok
      exact belongsTo_orKept ..
  · cases impossible

/-- The result of the own source of an attribute is its own. -/
theorem belongsTo_of_fromSource {found : Resolved}
    (h : Course w past (r.fromSource options tokenId nested a) acts (.ok found)) :
    found.BelongsTo a tokenId := by
  unfold fromSource at h
  split at h
  · unfold fromCall at h
    split at h
    · obtain ⟨-, impossible⟩ := h.of_fail
      cases impossible
    split at h
    · obtain ⟨-, ok⟩ := h.of_done
      cases ok
      exact Resolved.belongsTo_blank ..
    obtain ⟨-, store, -, h⟩ := h.of_accesses_bind.of_store_bind
    replace h := h.of_accesses_bind
    split at h
    · obtain ⟨-, ok⟩ := h.of_done
      cases ok
      exact Resolved.belongsTo_ofRaw ..
    · exact belongsTo_of_makeCall h
  · exact (quiet_of_fromEvent h).2 found rfl
  · obtain ⟨-, ok⟩ := h.of_done
    cases ok
    exact ⟨rfl, rfl⟩

end Own

/-! ## Needs -/

section Needs

variable (r : Resolver) (options : ResolveOptions) (store : Store) (tokenId : Nat)
variable (session : Session)

/-- What must be resolved before an attribute: the one it stands for, or those that its call draws on when
the call is due. -/
inductive Needs (a b : Attribute) : Prop where
  | target : Unsettled tokenId session a → r.target? a = some b → Needs a b
  | argument {policy : UpdatePolicy} {f : CallTemplate} {contract : Deployment} :
      r.ComesToSource tokenId session a → a.call = some f → options.policy = some policy →
      calledAt? a f = some contract →
      policy.Due options.view store contract a
        (store.find? contract a.name (r.definition.cacheTokenId a.name tokenId)) →
      Draws r session f b → Needs a b

/-- What an attribute needs comes to an end. -/
def Grounded (a : Attribute) : Prop :=
  Acc (fun c b => r.Needs options store tokenId session b c) a

variable {r options store tokenId session} {a b : Attribute}

theorem Needs.unsettled (needs : r.Needs options store tokenId session a b) :
    Unsettled tokenId session a := by
  cases needs with
  | target unsettled standsFor => exact unsettled
  | argument reached calls policed deployed due drawn => exact reached.toUnsettled

theorem Needs.eq_of_target {c : Attribute} (needs : r.Needs options store tokenId session a c)
    (standsFor : r.target? a = some b) : c = b := by
  cases needs with
  | target _ standsFor' => exact Option.some.inj (standsFor'.symm.trans standsFor)
  | argument reached _ _ _ _ _ => rw [reached.noTarget] at standsFor; cases standsFor

theorem Needs.of_call {f : CallTemplate} (needs : r.Needs options store tokenId session a b)
    (reached : r.ComesToSource tokenId session a) (calls : a.call = some f) :
    ∃ policy contract, options.policy = some policy ∧ calledAt? a f = some contract ∧
      policy.Due options.view store contract a
        (store.find? contract a.name (r.definition.cacheTokenId a.name tokenId)) ∧
      Draws r session f b := by
  cases needs with
  | target _ standsFor => rw [reached.noTarget] at standsFor; cases standsFor
  | argument _ calls' policed deployed due drawn =>
      rw [calls] at calls'
      cases calls'
      exact ⟨_, _, policed, deployed, due, drawn⟩

theorem Grounded.of_noCall (reached : r.ComesToSource tokenId session a) (noCall : a.call = none) :
    r.Grounded options store tokenId session a := by
  refine .intro a ?_
  intro b needs
  cases needs with
  | target _ standsFor => rw [reached.noTarget] at standsFor; cases standsFor
  | argument _ calls _ _ _ _ => rw [noCall] at calls; cases calls

theorem Grounded.of_settled (settled : ¬ Unsettled tokenId session a) :
    r.Grounded options store tokenId session a :=
  .intro a fun _ needs => absurd needs.unsettled settled

/-- What comes to an end does not come to itself again. -/
theorem Grounded.not_returns (grounded : r.Grounded options store tokenId session a) :
    ¬ Relation.TransGen (r.Needs options store tokenId session) a a := by
  induction grounded with
  | intro a _ ih =>
      intro returns
      obtain ⟨b, needs, back⟩ := Relation.TransGen.head'_iff.1 returns
      exact ih b needs (.tail' back needs)

end Needs

/-! ## Progress -/

variable (r : Resolver) (options : ResolveOptions) (store : Store) (tokenId : Nat) (start : Pass)

/-- A result of an attribute that some of these need, directly or not, and which itself comes to an
end. -/
def Earned (roots : Attribute → Prop) (session : Session) (x : Resolved) : Prop :=
  ∃ a b, roots a ∧ Relation.ReflTransGen (r.Needs options store tokenId start.session) a b ∧
    r.Grounded options store tokenId start.session b ∧ r.definition.Recordable session tokenId b x

/-- What acts do to the session, when some attributes are resolved: it grows, all that was recorded is
held, and all of it was needed. -/
structure Progress (roots : Attribute → Prop) (past acts : List Act) : Prop where
  grown : (start.seen past).Extends (start.seen (past ++ acts))
  held : ∀ x, .recorded x ∈ acts →
    (start.seen (past ++ acts)).result? x.id x.tokenId = some x
  earned : ∀ x, .recorded x ∈ acts →
    r.Earned options store tokenId start roots (start.seen (past ++ acts)) x

variable {r options store tokenId start}

theorem Earned.mono {roots roots' : Attribute → Prop} {session session' : Session} {x : Resolved}
    (earned : r.Earned options store tokenId start roots session x)
    (wider : ∀ a, roots a →
      ∃ b, roots' b ∧ Relation.ReflTransGen (r.Needs options store tokenId start.session) b a)
    (grown : session.Extends session') :
    r.Earned options store tokenId start roots' session' x := by
  obtain ⟨a, b, root, needs, grounded, able⟩ := earned
  obtain ⟨a', root', needed⟩ := wider a root
  exact ⟨a', b, root', needed.trans needs, grounded, able.mono grown⟩

namespace Progress

variable {roots roots' : Attribute → Prop} {past acts first rest : List Act}

theorem of_quiet (quiet : ∀ x, .recorded x ∉ acts) :
    r.Progress options store tokenId start roots past acts where
  grown := by
    rw [start.seen_append_of_quiet past quiet]
    exact .refl _
  held := fun x member => absurd member (quiet x)
  earned := fun x member => absurd member (quiet x)

theorem nil : r.Progress options store tokenId start roots past [] :=
  of_quiet (by simp)

theorem append (begun : r.Progress options store tokenId start roots past first)
    (done : r.Progress options store tokenId start roots (past ++ first) rest) :
    r.Progress options store tokenId start roots past (first ++ rest) := by
  have grown := done.grown
  rw [List.append_assoc] at grown
  refine ⟨begun.grown.trans grown, ?_, ?_⟩
  · intro x member
    rcases List.mem_append.1 member with early | late
    · exact grown.keeps _ _ _ (begun.held x early)
    · rw [← List.append_assoc]
      exact done.held x late
  · intro x member
    rcases List.mem_append.1 member with early | late
    · exact (begun.earned x early).mono (fun a root => ⟨a, root, .refl⟩) grown
    · rw [← List.append_assoc]
      exact done.earned x late

theorem mono (h : r.Progress options store tokenId start roots past acts)
    (wider : ∀ a, roots a →
      ∃ b, roots' b ∧ Relation.ReflTransGen (r.Needs options store tokenId start.session) b a) :
    r.Progress options store tokenId start roots' past acts where
  grown := h.grown
  held := h.held
  earned := fun x member => (h.earned x member).mono wider (.refl _)

end Progress

theorem Progress.sound {roots : Attribute → Prop} {acts : List Act}
    (h : r.Progress options store tokenId start roots [] acts) (sound : r.definition.Sound start.session) :
    r.definition.Sound (start.seen acts) := by
  intro name t x known
  rcases start.seen_append_cases [] known with before | ⟨member, rfl, rfl⟩
  · obtain ⟨named, a, able⟩ := sound name t x before
    exact ⟨named, a, able.mono h.grown⟩
  · obtain ⟨a, b, -, -, -, able⟩ := h.earned x member
    have token := able.token
    subst token
    exact ⟨rfl, b, able⟩

/-! ## Sources -/

open Process (Course)

variable {answers : Answers} {past acts : List Act}

/-- The attribute that a call may draw on by a name comes to an end. -/
def GroundedAt (r : Resolver) (options : ResolveOptions) (store : Store) (tokenId : Nat)
    (session : Session) (name : String) : Prop :=
  ∀ a, session.local? name = none → r.definition.attributes.get? name = some a →
    r.Grounded options store tokenId session a

/-- What has been done so far in a call. -/
abbrev Begun (r : Resolver) (options : ResolveOptions) (store : Store) (tokenId : Nat)
    (start : Pass) (past : List Act) : Prop :=
  r.Progress options store tokenId start (fun _ => True) [] past

theorem Progress.begun {roots : Attribute → Prop}
    (h : r.Progress options store tokenId start roots past acts)
    (before : r.Begun options store tokenId start past) :
    r.Begun options store tokenId start (past ++ acts) :=
  Progress.append before (h.mono fun a _ => ⟨a, trivial, .refl⟩)

/-- What the resolution of an attribute does and gives: its result was given or is held. -/
abbrev Resolves (r : Resolver) (options : ResolveOptions) (store : Store) (tokenId : Nat)
    (start : Pass) (a : Attribute) (past acts : List Act) (result : Except ResolveError Resolved) :
    Prop :=
  r.Progress options store tokenId start (· = a) past acts ∧
    ∀ found, result = .ok found → r.Grounded options store tokenId start.session a ∧
      r.definition.Holds (start.seen (past ++ acts)) tokenId a found

/-- What the own source of an attribute does, and that it ends. -/
abbrev FromSource (r : Resolver) (options : ResolveOptions) (store : Store) (tokenId : Nat)
    (start : Pass) (a : Attribute) (past acts : List Act) (result : Except ResolveError Resolved) :
    Prop :=
  r.Progress options store tokenId start (r.Needs options store tokenId start.session a) past acts ∧
    ∀ found, result = .ok found → r.Grounded options store tokenId start.session a

theorem progress_fromEvent {e : EventSource} {a : Attribute}
    {result : Except ResolveError Resolved} (reached : r.ComesToSource tokenId start.session a)
    (noCall : a.call = none)
    (h : Course (.alone answers store start) past (r.fromEvent tokenId a e) acts result) :
    r.FromSource options store tokenId start a past acts result :=
  ⟨.of_quiet (quiet_of_fromEvent h).1, fun _ _ => .of_noCall reached noCall⟩

/-- What it takes to gather the texts for some names of a template: all that is recorded was drawn on, and
if there are texts, the attribute of each name comes to an end. -/
structure Gathers (r : Resolver) (options : ResolveOptions) (store : Store) (tokenId : Nat)
    (start : Pass) (f : CallTemplate) (names : List String) (past acts : List Act)
    (result : Except ResolveError (Std.TreeMap String String)) : Prop where
  progress : r.Progress options store tokenId start (Draws r start.session f) past acts
  ended : ∀ texts, result = .ok texts → ∀ name ∈ names,
    r.GroundedAt options store tokenId start.session name

section Gathering

variable {f : CallTemplate} {names : List String} {name : String}
variable {result : Except ResolveError (Std.TreeMap String String)}

theorem Gathers.cons (rest : r.Gathers options store tokenId start f names past acts result)
    (first : r.GroundedAt options store tokenId start.session name) :
    r.Gathers options store tokenId start f (name :: names) past acts result := by
  refine ⟨rest.progress, ?_⟩
  intro texts ok n member
  rcases List.mem_cons.1 member with rfl | later
  · exact first
  · exact rest.ended texts ok n later

theorem Gathers.after {first last : List Act}
    (rest : r.Gathers options store tokenId start f names (past ++ first) last result)
    (begun : r.Progress options store tokenId start (Draws r start.session f) past first) :
    r.Gathers options store tokenId start f names past (first ++ last) result :=
  ⟨begun.append rest.progress, rest.ended⟩

/-- All names that have a text by now come to an end. -/
def Complete (r : Resolver) (options : ResolveOptions) (store : Store) (tokenId : Nat)
    (start : Pass) (found : Std.TreeMap String String) : Prop :=
  ∀ name, found.contains name = true → r.GroundedAt options store tokenId start.session name

theorem Complete.insert {found : Std.TreeMap String String}
    (complete : r.Complete options store tokenId start found)
    (first : r.GroundedAt options store tokenId start.session name) (text : String) :
    r.Complete options store tokenId start (found.insert name text) := by
  intro n member
  rw [Std.TreeMap.contains_insert, Bool.or_eq_true] at member
  rcases member with same | old
  · rw [← Std.LawfulEqCmp.eq_of_compare (beq_iff_eq.1 same)]
    exact first
  · exact complete n old

end Gathering

section Nested

variable {nested : Attribute → Process Resolved}
variable (each : ∀ {past acts a result}, r.definition.attributes.get? a.name = some a →
  r.Begun options store tokenId start past →
  Course (.alone answers store start) past (nested a) acts result →
  r.Resolves options store tokenId start a past acts result)
variable (named : r.definition.WellNamed)

include each named

theorem progress_gather {f : CallTemplate} {names : List String}
    {found : Std.TreeMap String String} {result : Except ResolveError (Std.TreeMap String String)}
    (listed : ∀ name ∈ names, name ∈ referredNames f)
    (before : r.Begun options store tokenId start past)
    (complete : r.Complete options store tokenId start found)
    (h : Course (.alone answers store start) past (r.gather nested names found) acts result) :
    r.Gathers options store tokenId start f names past acts result := by
  induction names generalizing found past acts with
  | nil =>
      obtain ⟨rfl, -⟩ := h.of_done
      exact ⟨.nil, by simp⟩
  | cons name rest ih =>
      have others := fun n member => listed n (List.mem_cons_of_mem _ member)
      unfold gather at h
      split at h
      · -- The name has a text already.
        rename_i known
        exact (ih others before complete h).cons (complete name known)
      replace h := h.of_session_bind_alone
      have host : start.session.local? name = (start.seen past).local? name :=
        (before.grown.local?_eq name).symm
      split at h
      · rename_i value given
        have first : r.GroundedAt options store tokenId start.session name := by
          intro b free
          rw [host, given] at free
          cases free
        exact (ih others before (complete.insert first value) h).cons first
      rename_i free
      split at h
      · rename_i undeclared
        refine (ih others before complete h).cons ?_
        intro b _ declared
        rw [undeclared] at declared
        cases declared
      rename_i b declared
      have own : r.definition.attributes.get? b.name = some b := named.own declared
      have within : ∀ a, a = b → ∃ c, Draws r start.session f c ∧
          Relation.ReflTransGen (r.Needs options store tokenId start.session) c a := by
        rintro a rfl
        exact ⟨a, ⟨name, listed name List.mem_cons_self, host.trans free, declared⟩, .refl⟩
      rcases h.of_bind with ⟨resolved, begun, last, starts, goes, rfl⟩ | ⟨e, failed, rfl⟩
      · obtain ⟨progress, ended⟩ := each own before starts
        have first : r.GroundedAt options store tokenId start.session name := by
          intro c _ declared'
          rw [declared] at declared'
          cases declared'
          exact (ended resolved rfl).1
        have before' := progress.begun before
        -- With or without a text of its own, the others are still to be gathered.
        split at goes
        · rename_i text _
          have rest' := (ih others before' (complete.insert first text) goes).cons first
          exact rest'.after (progress.mono within)
        · have rest' := (ih others before' complete goes).cons first
          exact rest'.after (progress.mono within)
      · obtain ⟨progress, -⟩ := each own before failed
        exact ⟨progress.mono within, by simp⟩

theorem progress_makeCall {policy : UpdatePolicy} {f : CallTemplate} {contract : Deployment}
    {a : Attribute} {kept : Option CachedRecord} {keptId : Nat}
    {result : Except ResolveError Resolved}
    (reached : r.ComesToSource tokenId start.session a) (calls : a.call = some f)
    (policed : options.policy = some policy) (deployed : calledAt? a f = some contract)
    (due : policy.Due options.view store contract a
      (store.find? contract a.name (r.definition.cacheTokenId a.name tokenId)))
    (before : r.Begun options store tokenId start past)
    (h : Course (.alone answers store start) past
      (r.makeCall tokenId nested a f contract keptId kept) acts result) :
    r.FromSource options store tokenId start a past acts result := by
  have within : ∀ b, Draws r start.session f b →
      ∃ c, r.Needs options store tokenId start.session a c ∧
        Relation.ReflTransGen (r.Needs options store tokenId start.session) c b :=
    fun b drawn => ⟨b, .argument reached calls policed deployed due drawn, .refl⟩
  have listed : ∀ name ∈ referredNames f, name ∈ referredNames f := fun _ member => member
  have nothing : r.Complete options store tokenId start ∅ := by
    intro name member
    simp at member
  unfold makeCall at h
  rcases h.of_bind with ⟨texts, first, last, gathered, goes, rfl⟩ | ⟨e, failed, rfl⟩
  · obtain ⟨progress, ended⟩ := progress_gather each named listed before nothing gathered
    -- A call needs the attributes that it draws on and no others, and these have all been gathered.
    have grounded : r.Grounded options store tokenId start.session a := by
      refine .intro a ?_
      intro b needs
      obtain ⟨_, _, -, -, -, name, member, free, declared⟩ := needs.of_call reached calls
      exact ended texts rfl name member b free declared
    obtain ⟨answer, rest, -, reads, rfl⟩ := goes.of_store_bind_alone.of_answerTo_bind
    split at reads
    · obtain ⟨rfl, rfl⟩ := reads.of_keep_done
      refine ⟨(progress.mono within).append (.of_quiet (by simp)), ?_⟩
      rintro found ⟨⟩
      exact grounded
    · obtain ⟨rfl, rfl⟩ := reads.of_done
      refine ⟨(progress.mono within).append (.of_quiet (by simp)), ?_⟩
      rintro found ⟨⟩
      exact grounded
  · obtain ⟨progress, -⟩ := progress_gather each named listed before nothing failed
    exact ⟨progress.mono within, by simp⟩

theorem progress_fromCall {f : CallTemplate} {a : Attribute}
    {result : Except ResolveError Resolved} (reached : r.ComesToSource tokenId start.session a)
    (calls : a.call = some f) (before : r.Begun options store tokenId start past)
    (h : Course (.alone answers store start) past (r.fromCall options tokenId nested a f) acts
      result) :
    r.FromSource options store tokenId start a past acts result := by
  unfold fromCall at h
  split at h
  · obtain ⟨rfl, rfl⟩ := h.of_fail
    exact ⟨.nil, by simp⟩
  rename_i policy policed
  split at h
  · rename_i notDeployed
    obtain ⟨rfl, rfl⟩ := h.of_done
    refine ⟨.nil, ?_⟩
    rintro found ⟨⟩
    -- Nothing can be called, so nothing is needed.
    refine .intro a ?_
    intro b needs
    obtain ⟨_, _, -, deployed, -, -⟩ := needs.of_call reached calls
    rw [notDeployed] at deployed
    cases deployed
  rename_i contract deployed
  replace h := h.of_accesses_bind.of_store_bind_alone.of_accesses_bind
  split at h
  · rename_i record accepted
    obtain ⟨rfl, rfl⟩ := h.of_done
    refine ⟨.nil, ?_⟩
    rintro found ⟨⟩
    -- A record that the policy accepts means that no call is due, so nothing is needed.
    refine .intro a ?_
    intro b needs
    obtain ⟨policy', contract', policed', deployed', due, -⟩ := needs.of_call reached calls
    obtain rfl : policy = policy' := Option.some.inj (policed.symm.trans policed')
    obtain rfl : contract = contract' := Option.some.inj (deployed.symm.trans deployed')
    rw [(UpdatePolicy.filter_accepts_eq_none_iff ..).2 due] at accepted
    cases accepted
  · rename_i refused
    exact progress_makeCall each named reached calls policed deployed
      ((UpdatePolicy.filter_accepts_eq_none_iff ..).1 refused) before h

theorem progress_fromSource {a : Attribute} {result : Except ResolveError Resolved}
    (reached : r.ComesToSource tokenId start.session a)
    (before : r.Begun options store tokenId start past)
    (h : Course (.alone answers store start) past (r.fromSource options tokenId nested a) acts
      result) :
    r.FromSource options store tokenId start a past acts result := by
  unfold fromSource at h
  split at h
  · rename_i calls
    exact progress_fromCall each named reached calls before h
  · rename_i noCall _
    exact progress_fromEvent reached noCall h
  · rename_i noCall _
    obtain ⟨rfl, rfl⟩ := h.of_done
    refine ⟨.nil, ?_⟩
    rintro found ⟨⟩
    exact .of_noCall reached noCall

end Nested

/-! ## Resolutions -/

/-- The result of an attribute is recorded when all that it needs has been resolved. It is the first one
under its name, since the attribute does not need itself. -/
theorem Progress.record {a : Attribute} {x : Resolved}
    (h : r.Progress options store tokenId start (r.Needs options store tokenId start.session a) past
      acts)
    (fresh : (start.seen past).result? x.id x.tokenId = none)
    (grounded : r.Grounded options store tokenId start.session a)
    (able : r.definition.Recordable (start.seen (past ++ acts)) tokenId a x) :
    r.Progress options store tokenId start (· = a) past (acts ++ [.recorded x]) := by
  have free : (start.seen (past ++ acts)).result? x.id x.tokenId = none := by
    cases known : (start.seen (past ++ acts)).result? x.id x.tokenId with
    | none => rfl
    | some y =>
        rcases start.seen_append_cases past known with before | ⟨member, id_eq, -⟩
        · rw [fresh] at before
          cases before
        -- A result that was recorded on the way would be that of an attribute that needs itself.
        · obtain ⟨b, c, needs, later, -, able'⟩ := h.earned y member
          have declared := able'.declared
          rw [id_eq, able.declared] at declared
          cases declared
          exact absurd (.head' needs later) grounded.not_returns
  have grown := Session.Extends.record free
  have seen : start.seen (past ++ (acts ++ [.recorded x])) =
      (start.seen (past ++ acts)).record x := by
    rw [← List.append_assoc, start.seen_recorded]
  refine ⟨?_, ?_, ?_⟩
  · rw [seen]
    exact h.grown.trans grown
  · intro y member
    rw [seen]
    rcases List.mem_append.1 member with early | last
    · exact grown.keeps _ _ _ (h.held y early)
    · cases List.mem_singleton.1 last
      exact Session.result?_record_self ..
  · intro y member
    rw [seen]
    rcases List.mem_append.1 member with early | last
    · exact (h.earned y early).mono (fun b needs => ⟨a, rfl, .single needs⟩) grown
    · cases List.mem_singleton.1 last
      exact ⟨a, a, rfl, .refl, grounded, able.mono grown⟩

theorem Progress.of_needs {a : Attribute}
    (h : r.Progress options store tokenId start (r.Needs options store tokenId start.session a) past
      acts) : r.Progress options store tokenId start (· = a) past acts :=
  h.mono fun _ needs => ⟨a, rfl, .single needs⟩

theorem Progress.resolves {a : Attribute} {x : Resolved}
    (h : r.Progress options store tokenId start (r.Needs options store tokenId start.session a) past
      acts)
    (unsettled : Unsettled tokenId (start.seen past) a)
    (grounded : r.Grounded options store tokenId start.session a)
    (able : r.definition.Recordable (start.seen (past ++ acts)) tokenId a x)
    (id_eq : x.id = a.name) :
    r.Resolves options store tokenId start a past (acts ++ [.recorded x]) (.ok x) := by
  have fresh : (start.seen past).result? x.id x.tokenId = none := by
    rw [id_eq, able.token]
    exact unsettled.noResult
  have done := h.record fresh grounded able
  refine ⟨done, ?_⟩
  rintro found ⟨⟩
  refine ⟨grounded, .inr ?_⟩
  have held := done.held x (List.mem_append_right _ List.mem_cons_self)
  rw [id_eq, able.token] at held
  exact held

/-- What is known of an attribute after acts was known before, or came to its end by them. -/
theorem Begun.grounded_of_known {a : Attribute} {found : Resolved}
    (before : r.Begun options store tokenId start past)
    (declared : r.definition.attributes.get? a.name = some a)
    (known : known? (start.seen past) a tokenId = some found) :
    r.Grounded options store tokenId start.session a := by
  unfold known? at known
  cases result : (start.seen past).result? a.name tokenId with
  | some x =>
      rcases start.seen_append_cases [] result with earlier | ⟨member, id_eq, -⟩
      · refine .of_settled ?_
        intro unsettled
        have unknown := unsettled.noResult
        rw [start.seen_nil, unknown] at earlier
        cases earlier
      · obtain ⟨-, b, -, -, grounded, able⟩ := before.earned x member
        have own := able.declared
        rw [id_eq, declared] at own
        cases own
        exact grounded
  | none =>
      refine .of_settled ?_
      intro unsettled
      have noLocal : (start.seen past).local? (a.reference.getD a.name) = none :=
        (before.grown.local?_eq _).trans unsettled.noLocal
      rw [result, noLocal] at known
      cases known

theorem holds_of_known {a : Attribute} {session : Session} {found : Resolved}
    (noLiteral : a.literal = none) (known : known? session a tokenId = some found) :
    r.definition.Holds session tokenId a found := by
  unfold known? at known
  cases result : session.result? a.name tokenId with
  | some x =>
      rw [result] at known
      cases known
      exact .inr result
  | none =>
      left
      rw [result, Option.none_or, Option.map_eq_some_iff] at known
      obtain ⟨value, given, rfl⟩ := known
      simp only [Definition.given?, noLiteral, given]

/-- What is known of an attribute without literal is all that would settle it. -/
theorem unsettled_of_unknown {a : Attribute} {session : Session} (noLiteral : a.literal = none)
    (unknown : known? session a tokenId = none) : Unsettled tokenId session a := by
  unfold known? at unknown
  rw [Option.or_eq_none_iff, Option.map_eq_none_iff] at unknown
  exact ⟨noLiteral, unknown.1, unknown.2⟩

theorem Unsettled.of_extends {a : Attribute} {session session' : Session}
    (unsettled : Unsettled tokenId session' a) (grown : session.Extends session') :
    Unsettled tokenId session a where
  noLiteral := unsettled.noLiteral
  noResult := grown.unknown unsettled.noResult
  noLocal := (grown.local?_eq _).symm.trans unsettled.noLocal

theorem Unsettled.record {a : Attribute} {session : Session} {x : Resolved}
    (unsettled : Unsettled tokenId session a) (other : x.id ≠ a.name) :
    Unsettled tokenId (session.record x) a where
  noLiteral := unsettled.noLiteral
  noResult := by
    rw [Session.result?_record, if_neg fun same => other same.1]
    exact unsettled.noResult
  noLocal := unsettled.noLocal

/-- An attribute that stands for another shows what the other has. -/
theorem resolves_relay (named : r.definition.WellNamed) (sound : r.definition.Sound start.session)
    {nested : Process Resolved} {a b : Attribute} {result : Except ResolveError Resolved}
    (declared : r.definition.attributes.get? a.name = some a)
    (before : r.Begun options store tokenId start past)
    (unsettled : Unsettled tokenId (start.seen past) a) (standsFor : r.target? a = some b)
    (each : ∀ {acts result}, r.definition.attributes.get? b.name = some b →
      Course (.alone answers store start) past nested acts result →
      r.Resolves options store tokenId start b past acts result)
    (h : Course (.alone answers store start) past
      (nested >>= fun found => Process.recorded (found.relayedBy a)) acts result) :
    r.Resolves options store tokenId start a past acts result := by
  have needs : r.Needs options store tokenId start.session a b :=
    .target (unsettled.of_extends before.grown) standsFor
  have within : ∀ c, c = b → ∃ d, r.Needs options store tokenId start.session a d ∧
      Relation.ReflTransGen (r.Needs options store tokenId start.session) d c := by
    rintro c rfl
    exact ⟨c, needs, .refl⟩
  have own : r.definition.attributes.get? b.name = some b := named.own_of_target standsFor
  rcases h.of_bind with ⟨found, first, last, begun, goes, rfl⟩ | ⟨e, failed, rfl⟩
  · obtain ⟨progress, ended⟩ := each own begun
    obtain ⟨rfl, rfl⟩ := goes.of_recorded
    obtain ⟨ends, held⟩ := ended found rfl
    have grounded : r.Grounded options store tokenId start.session a := by
      refine .intro a ?_
      intro c needs'
      obtain rfl := needs'.eq_of_target standsFor
      exact ends
    have notGiven : r.definition.given? (start.seen (past ++ first)) tokenId a = none := by
      have relayed : r.definition.target? a = some b := standsFor
      rw [Definition.given?_congr progress.grown.locals_eq,
        Definition.given?_of_unsettled unsettled, relayed]
      rfl
    refine (progress.mono within).resolves unsettled grounded ?_ rfl
    refine ⟨declared, held.token ((progress.begun before).sound sound), notGiven, ?_⟩
    intro c standsFor'
    obtain rfl : b = c := Option.some.inj (standsFor.symm.trans standsFor')
    exact ⟨found, held, rfl⟩
  · obtain ⟨progress, -⟩ := each own failed
    exact ⟨(progress.mono within).of_needs, by simp⟩

/-- An attribute that nothing else settles has the value of its own source. -/
theorem resolves_source (named : r.definition.WellNamed) {nested : Attribute → Process Resolved}
    {a : Attribute} {result : Except ResolveError Resolved}
    (each : ∀ {past acts b result}, r.definition.attributes.get? b.name = some b →
      r.Begun options store tokenId start past →
      Course (.alone answers store start) past (nested b) acts result →
      r.Resolves options store tokenId start b past acts result)
    (declared : r.definition.attributes.get? a.name = some a)
    (before : r.Begun options store tokenId start past)
    (reached : r.ComesToSource tokenId (start.seen past) a)
    (h : Course (.alone answers store start) past
      (r.fromSource options tokenId nested a >>= Process.recorded) acts result) :
    r.Resolves options store tokenId start a past acts result := by
  have reached₀ : r.ComesToSource tokenId start.session a :=
    { reached with toUnsettled := reached.toUnsettled.of_extends before.grown }
  rcases h.of_bind with ⟨found, first, last, begun, goes, rfl⟩ | ⟨e, failed, rfl⟩
  · obtain ⟨progress, ended⟩ := progress_fromSource each named reached₀ before begun
    obtain ⟨rfl, rfl⟩ := goes.of_recorded
    have grounded := ended found rfl
    obtain ⟨id_eq, token⟩ := belongsTo_of_fromSource begun
    have notGiven : r.definition.given? (start.seen (past ++ first)) tokenId a = none := by
      rw [Definition.given?_congr progress.grown.locals_eq,
        Definition.given?_of_unsettled reached.toUnsettled, reached.noEntry, Bool.and_false]
      rfl
    refine progress.resolves reached.toUnsettled grounded ?_ id_eq
    refine ⟨id_eq ▸ declared, token, notGiven, ?_⟩
    intro b standsFor
    have noTarget : r.definition.target? a = none := reached.noTarget
    rw [noTarget] at standsFor
    cases standsFor
  · obtain ⟨progress, -⟩ := progress_fromSource each named reached₀ before failed
    exact ⟨progress.of_needs, by simp⟩

/-- What the resolution of a declared attribute does to the session, and that its result stays there or
was given. The induction is on the number of references that may still be followed. -/
theorem progress_resolveAt (named : r.definition.WellNamed) (sound : r.definition.Sound start.session)
    (left : Nat) {a : Attribute} {result : Except ResolveError Resolved}
    (declared : r.definition.attributes.get? a.name = some a)
    (before : r.Begun options store tokenId start past)
    (h : Course (.alone answers store start) past (r.resolveAt options tokenId left a) acts
      result) :
    r.Resolves options store tokenId start a past acts result := by
  induction left generalizing a past acts result with
  | zero =>
      obtain ⟨rfl, rfl⟩ := h.of_fail
      exact ⟨.nil, by simp⟩
  | succ left ih =>
      unfold resolveAt at h
      split at h
      · rename_i text literal
        obtain ⟨rfl, rfl⟩ := h.of_done
        refine ⟨.nil, ?_⟩
        rintro found ⟨⟩
        refine ⟨.of_settled ?_, .inl ?_⟩
        · intro unsettled
          rw [unsettled.noLiteral] at literal
          cases literal
        · simp only [Definition.given?, literal]
      rename_i noLiteral
      replace h := h.of_session_bind_alone
      split at h
      · rename_i found known
        obtain ⟨rfl, rfl⟩ := h.of_done
        refine ⟨.nil, ?_⟩
        rintro found ⟨⟩
        rw [List.append_nil]
        exact ⟨before.grounded_of_known declared known, holds_of_known noLiteral known⟩
      rename_i unknown
      have unsettled := unsettled_of_unknown noLiteral unknown
      split at h
      · rename_i b standsFor
        exact resolves_relay named sound declared before unsettled standsFor
          (fun own nested => ih own before nested) h
      rename_i noTarget
      split at h
      · rename_i entry
        obtain ⟨rfl, rfl⟩ := h.of_done
        refine ⟨.nil, ?_⟩
        rintro found ⟨⟩
        refine ⟨.intro a ?_, .inl ?_⟩
        · intro c needs
          cases needs with
          | target _ standsFor => rw [noTarget] at standsFor; cases standsFor
          | argument reached _ _ _ _ _ => rw [reached.noEntry] at entry; cases entry
        · have alone : r.definition.target? a = none := noTarget
          rw [List.append_nil, Definition.given?_of_unsettled unsettled, alone, entry]
          rfl
      · rename_i noEntry
        have reached : r.ComesToSource tokenId (start.seen past) a :=
          ⟨unsettled, noTarget, Bool.eq_false_iff.2 noEntry⟩
        exact resolves_source named ih declared before reached h

end Resolver

end TokenSchema
