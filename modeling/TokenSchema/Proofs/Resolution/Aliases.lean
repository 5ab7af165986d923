import TokenSchema.Proofs.Resolution.Depth
import TokenSchema.Proofs.Resolution.Progress

/-!
# Aliases — where a chain of references ends

An attribute that stands for another shows what the other has, under its own name and label. Along a chain of
such attributes each uses up one reference. So the end of the chain is reached if the limit is not below its
length, and otherwise the error names the first attribute beyond the limit
(`Resolver.evaluate_resolveAt_reached`, `Resolver.evaluate_resolveAt_exhausted`). `Resolver.resolve_depth` puts
this beside the bounds for all other ways in which attributes refer to each other.
-/

namespace TokenSchema

/-- A result under the name and label of an attribute is not changed by it. -/
theorem Resolved.relayedBy_self {x : Resolved} {a : Attribute} (id : x.id = a.name)
    (label : x.label = a.label) : x.relayedBy a = x := by
  rw [relayedBy, ← id, ← label]

namespace Resolver

variable (r : Resolver) (options : ResolveOptions) (tokenId : Nat)

/-- So many attributes of a chain stand for the next one each, and neither the document nor the session says
what their values are. -/
structure Relays (session : Session) (chain : Nat → Attribute) (count : Nat) : Prop where
  unsettled : ∀ i < count, Unsettled tokenId session (chain i)
  linked : ∀ i < count, r.target? (chain i) = some (chain (i + 1))

/-- A chain ends in an attribute that has a literal, or takes its value from the token id. -/
def EndsChain (session : Session) (a : Attribute) : Prop :=
  (∃ literal, a.literal = some literal) ∨ r.ComesToSource tokenId session a ∧ a.isStatic = true

variable {r tokenId} {chain : Nat → Attribute} {count : Nat}

/-- Along names that the session does not know, each attribute stands for the next one. -/
theorem Relays.of_names {session : Session} (named : r.definition.WellNamed)
    (noLiteral : ∀ i < count, (chain i).literal = none)
    (noResult : ∀ i < count, session.result? (chain i).name tokenId = none)
    (noLocal : ∀ i ≤ count, session.local? (chain i).name = none)
    (linked : ∀ i < count, r.target? (chain i) = some (chain (i + 1))) :
    r.Relays tokenId session chain count where
  unsettled := by
    intro i below
    -- The session is asked for the name that the attribute stands for, which is that of the next one.
    obtain ⟨name, reference, declared⟩ := Option.bind_eq_some_iff.1 (linked i below)
    refine ⟨noLiteral i below, noResult i below, ?_⟩
    rw [reference, Option.getD_some, ← named name _ declared]
    exact noLocal (i + 1) below
  linked := linked

section Evaluation

variable (answers : Answers) (store : Store) {s s' : Pass}

/-- A chain that goes on beyond the references left fails at the first attribute beyond them. -/
theorem evaluate_resolveAt_exhausted {left first : Nat} (short : first + left ≤ count)
    (relays : r.Relays tokenId s.session chain count) :
    (r.resolveAt options tokenId left (chain first)).evaluate answers store s =
      (.error (.referenceDepth (chain (first + left)).name), s) := by
  -- A link uses up one reference, and hands an error on before it has recorded anything.
  induction left generalizing first with
  | zero => rfl
  | succ left ih =>
      rw [r.evaluate_resolveAt_target answers store options tokenId left
        (relays.unsettled first (by omega)) (relays.linked first (by omega)),
        Process.evaluate_bind_of_error answers store _ (ih (by omega)), Nat.add_right_comm, Nat.add_assoc]

/-- A chain whose end is reached shows what the end has. -/
theorem evaluate_resolveAt_reached {x : Resolved} {left distance first : Nat}
    (relays : r.Relays tokenId s.session chain count) (end_ : first + distance = count)
    (own : x.relayedBy (chain count) = x)
    (ended : (r.resolveAt options tokenId left (chain count)).evaluate answers store s = (.ok x, s')) :
    ∃ s'', (r.resolveAt options tokenId (left + distance) (chain first)).evaluate answers store s =
      (.ok (x.relayedBy (chain first)), s'') := by
  -- All links look at the session before the end of the chain is resolved, so what is recorded on the way back
  -- is seen by none of them.
  induction distance generalizing first with
  | zero =>
      obtain rfl : first = count := end_
      exact ⟨s', by rw [own]; exact ended⟩
  | succ distance ih =>
      have next : first + 1 + distance = count := by omega
      obtain ⟨later, found⟩ := ih next
      refine ⟨later.record ((x.relayedBy (chain (first + 1))).relayedBy (chain first)), ?_⟩
      rw [← Nat.add_assoc, r.evaluate_resolveAt_target answers store options tokenId (left + distance)
        (relays.unsettled first (by omega)) (relays.linked first (by omega)),
        Process.evaluate_bind_of_ok answers store _ found]
      rfl

/-- The end of a chain has a result of its own, as long as a reference is left. -/
theorem EndsChain.exists_evaluate {a : Attribute} (ends : r.EndsChain tokenId s.session a) :
    ∃ x, x.relayedBy a = x ∧ ∀ left, ∃ s',
      (r.resolveAt options tokenId (left + 1) a).evaluate answers store s = (.ok x, s') := by
  rcases ends with ⟨literal, written⟩ | ⟨reached, static⟩
  · exact ⟨Resolved.ofLiteral a tokenId literal, Resolved.relayedBy_self rfl rfl, fun left =>
      ⟨s, r.evaluate_resolveAt_literal options tokenId answers store left written⟩⟩
  · exact ⟨Resolved.ofValue a tokenId (a.extract tokenId), Resolved.relayedBy_self rfl rfl, fun left =>
      ⟨_, r.evaluate_resolveAt_static options tokenId answers store left reached static⟩⟩

end Evaluation

/-- The resolution of an attribute is the one that counts its depth from zero, its references nest at most one
deeper than the limit, and it ends within a number of steps that the definition and the limit set. Along a chain
of attributes that stand for the next, a host gets the result of its end under the name and label of its
beginning; unless the chain is longer than the limit, and then the error names the first attribute beyond it. A
chain without end always comes to that error. -/
theorem resolve_depth (r : Resolver) (options : ResolveOptions) (tokenId : Nat) :
    (∀ a, r.Unfolds options tokenId 0 a (r.resolution options tokenId a) (r.settings.maxDepth + 1)) ∧
    (∀ a p n, r.Unfolds options tokenId 0 a p n → p = r.resolution options tokenId a) ∧
    (∀ a, (r.resolution options tokenId a).EndsWithin
      ((9 + r.width a) * ∑ i ∈ Finset.range (r.settings.maxDepth + 1), r.width a ^ i)) ∧
    (∀ (node : Node) (h : Host) (chain : Nat → Attribute) (count : Nat),
      r.Relays tokenId h.session chain count → r.EndsChain tokenId h.session (chain count) →
      ∃ x, (r.resolve node options (chain count) tokenId h).1 = .ok x ∧
        (r.resolve node options (chain 0) tokenId h).1 =
          if r.settings.maxDepth < count then
            .error (.referenceDepth (chain (r.settings.maxDepth + 1)).name)
          else .ok (x.relayedBy (chain 0))) ∧
    ∀ (node : Node) (h : Host) (chain : Nat → Attribute),
      (∀ count, r.Relays tokenId h.session chain count) →
      (r.resolve node options (chain 0) tokenId h).1 =
        .error (.referenceDepth (chain (r.settings.maxDepth + 1)).name) := by
  have exhausted (node : Node) (h : Host) (chain : Nat → Attribute) (count : Nat)
      (relays : r.Relays tokenId h.session chain count) (long : r.settings.maxDepth < count) :
      (r.resolve node options (chain 0) tokenId h).1 =
        .error (.referenceDepth (chain (r.settings.maxDepth + 1)).name) := by
    have short : 0 + (r.settings.maxDepth + 1) ≤ count := by omega
    rw [r.resolve_fst_eq, resolution, evaluate_resolveAt_exhausted options _ _
      (s := ⟨h.session, h.requests, []⟩) short relays, Nat.zero_add]
  refine ⟨?_, ?_, ?_, ?_, ?_⟩
  · intro a
    exact r.unfolds_resolveAt options tokenId (by omega) a
  · intro a p n unfolds
    exact unfolds.eq_resolveAt (by omega)
  · intro a
    exact endsWithin_resolveAt one_le_width
      (fun name b declared => argumentCount_le_width (.inr ⟨name, declared⟩)) _
      (argumentCount_le_width (.inl rfl))
  · intro node h chain count relays ends
    obtain ⟨x, own, found⟩ := ends.exists_evaluate options (r.exchange node).answers h.store
      (s := ⟨h.session, h.requests, []⟩)
    refine ⟨x, ?_, ?_⟩
    · obtain ⟨s', atEnd⟩ := found r.settings.maxDepth
      rw [r.resolve_fst_eq, resolution, atEnd]
    by_cases long : r.settings.maxDepth < count
    · rw [if_pos long, exhausted node h chain count relays long]
    · obtain ⟨s', atEnd⟩ := found (r.settings.maxDepth - count)
      obtain ⟨s'', reached⟩ := evaluate_resolveAt_reached options _ _ relays (Nat.zero_add count) own atEnd
      have all : r.settings.maxDepth - count + 1 + count = r.settings.maxDepth + 1 := by omega
      rw [all] at reached
      rw [if_neg long, r.resolve_fst_eq, resolution, reached]
  · intro node h chain relays
    exact exhausted node h chain _ (relays _) (Nat.lt_succ_self _)

end Resolver

/-! ## Two names for a level, and a name for itself -/

namespace Ranks

/-- The last byte of a token id. -/
def level : Attribute :=
  { Attribute.ofName "level" with bitmask := 255 }

/-- An attribute that stands for another. -/
def alternative (name target : String) : Attribute :=
  { Attribute.ofName name with reference := some target }

/-- The table of all attributes. -/
def attributes : Std.TreeMap String Attribute :=
  (((∅ : Std.TreeMap String Attribute).insert "level" level).insert "rank"
    (alternative "rank" "level")).insert "title" (alternative "title" "rank") |>.insert "loop"
      (alternative "loop" "loop")

/-- A resolver that follows so many references. -/
def resolver (maxDepth : Nat) : Resolver :=
  { definition :=
      { Definition.empty "" ⟨none, .current, .oldestSupported⟩ "en" with attributes := attributes }
    settings := { Settings.standard with maxDepth := maxDepth }
    clock := 0 }

/-- From the title to the level. -/
def chain : Nat → Attribute
  | 0 => alternative "title" "rank"
  | 1 => alternative "rank" "level"
  | _ => level

/-- A host in a new session. -/
abbrev host : Host :=
  .ofStore (.empty "" false)

/-- A node that is never asked. -/
def node : Node :=
  ⟨fun _ => .bytes [], fun _ => false, false⟩

theorem wellNamed (maxDepth : Nat) : (resolver maxDepth).definition.WellNamed :=
  ((((Definition.wellNamed_empty _ _ _).insert level).insert (alternative "rank" "level")).insert
    (alternative "title" "rank")).insert (alternative "loop" "loop")

theorem relays_chain (maxDepth : Nat) : (resolver maxDepth).Relays 7 host.session chain 2 := by
  refine .of_names (wellNamed maxDepth) ?_ (by simp) (by simp) ?_
  · intro i below
    match i, below with
    | 0, _ => rfl
    | 1, _ => rfl
  · intro i below
    match i, below with
    | 0, _ => rfl
    | 1, _ => rfl

theorem relays_loop (maxDepth count : Nat) :
    (resolver maxDepth).Relays 7 host.session (fun _ => alternative "loop" "loop") count :=
  .of_names (wellNamed maxDepth) (fun _ _ => rfl) (by simp) (by simp) fun _ _ => rfl

theorem endsChain_level (maxDepth : Nat) :
    (resolver maxDepth).EndsChain 7 host.session (chain 2) :=
  .inr ⟨⟨⟨rfl, by simp, by simp⟩, rfl, rfl⟩, rfl⟩

/-- Two references lead from the title to the level. One is not enough, and for a name that stands for itself no
number is. -/
theorem resolve_depth_ranks :
    ((resolver 1).resolve node ⟨none, .detail⟩ (chain 0) 7 host).1 =
      .error (.referenceDepth "level") ∧
    (∃ x, ((resolver 2).resolve node ⟨none, .detail⟩ level 7 host).1 = .ok x ∧
      ((resolver 2).resolve node ⟨none, .detail⟩ (chain 0) 7 host).1 =
        .ok { x with id := "title", label := "title" }) ∧
    ((resolver 8).resolve node ⟨none, .detail⟩ (alternative "loop" "loop") 7 host).1 =
      .error (.referenceDepth "loop") := by
  obtain ⟨-, -, -, one, -⟩ := (resolver 1).resolve_depth ⟨none, .detail⟩ 7
  obtain ⟨-, -, -, two, -⟩ := (resolver 2).resolve_depth ⟨none, .detail⟩ 7
  obtain ⟨-, -, -, -, endless⟩ := (resolver 8).resolve_depth ⟨none, .detail⟩ 7
  obtain ⟨_, -, short⟩ := one node host chain 2 (relays_chain 1) (endsChain_level 1)
  obtain ⟨x, own, relayed⟩ := two node host chain 2 (relays_chain 2) (endsChain_level 2)
  exact ⟨short, ⟨x, own, relayed⟩, endless node host _ (relays_loop 8)⟩

end Ranks

end TokenSchema
