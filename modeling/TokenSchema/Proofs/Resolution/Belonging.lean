import TokenSchema.Proofs.Call.Arguments
import TokenSchema.Proofs.Process.Delivery
import TokenSchema.Proofs.Resolution.Aliases

/-!
# Belonging — results bear the name and the token they were asked for

A result may come from another attribute, from a record that is kept for all tokens, or from the session. A
session keeps every result under the name and the token that it bears (`Session.Arises.bears`), so what is found
there for an attribute and a token is theirs, and each of the other sources makes its result anew for them. This
does not depend on what else happens on the host, so it holds for attributes that are resolved together
(`Resolver.resolve_belongsTo`).
-/

namespace TokenSchema

/-! ## Sessions as hosts come by them -/

/-- A session is new, with values from the host, or a result has been recorded in it, by the host or by a
resolution. -/
inductive Session.Arises : Session → Prop where
  | new (locals : List (String × String)) : Arises (.withLocals locals)
  | record {session : Session} (x : Resolved) : Arises session → Arises (session.record x)

theorem Session.lasts_arises : Session.Lasts Session.Arises :=
  fun _ x arises => .record x arises

/-- A result that is found under a name and a token bears them. -/
theorem Session.Arises.bears {session : Session} (arises : session.Arises) {name : String} {tokenId : Nat}
    {x : Resolved} (known : session.result? name tokenId = some x) : x.id = name ∧ x.tokenId = tokenId := by
  induction arises with
  | new locals => simp [Session.withLocals, Session.result?] at known
  | record y _ ih =>
      -- What is recorded last is found under what it bears, and hides nothing under other keys.
      rw [Session.result?_record] at known
      split at known
      · rename_i same
        cases known
        exact same
      · exact ih known

/-! ## Resolutions -/

namespace Resolver

open Process (Course)

variable {r : Resolver} {options : ResolveOptions} {tokenId : Nat} {a : Attribute} {x : Resolved}

/-- What the session knows of an attribute, or the host supplies for it, is the attribute's own. -/
theorem belongsTo_of_known {session : Session} (arises : session.Arises)
    (known : known? session a tokenId = some x) : x.BelongsTo a tokenId := by
  rcases Option.or_eq_some_iff.1 known with recorded | ⟨-, supplied⟩
  · exact arises.bears recorded
  · obtain ⟨value, -, rfl⟩ := Option.map_eq_some_iff.1 supplied
    exact Resolved.belongsTo_ofRaw ..

/-- Whatever others do in the meantime, the result of a resolution is the attribute's own. -/
theorem belongsTo_of_resolveAt {left : Nat} {past acts : List Act}
    (course : Course (.within Session.Arises) past (r.resolveAt options tokenId left a) acts (.ok x)) :
    x.BelongsTo a tokenId := by
  -- Only a result of the attribute that this one stands for is taken from a resolution further down.
  induction left generalizing past acts a x with
  | zero =>
      obtain ⟨-, impossible⟩ := course.of_fail
      cases impossible
  | succ left ih =>
  unfold resolveAt at course
  split at course
  · obtain ⟨-, ok⟩ := course.of_done
    cases ok
    exact ⟨rfl, rfl⟩
  obtain ⟨session, store, arises, course⟩ := course.of_session_bind
  split at course
  · rename_i known
    obtain ⟨-, ok⟩ := course.of_done
    cases ok
    exact belongsTo_of_known arises known
  split at course
  · rcases course.of_bind with ⟨found, first, rest, resolved, relayed, -⟩ | ⟨e, -, impossible⟩
    · obtain ⟨-, ok⟩ := relayed.of_recorded
      cases ok
      exact ⟨rfl, (ih resolved).2⟩
    · cases impossible
  split at course
  · obtain ⟨-, ok⟩ := course.of_done
    cases ok
    exact Resolved.belongsTo_blank a tokenId
  · rcases course.of_bind with ⟨found, first, rest, sourced, recorded, -⟩ | ⟨e, -, impossible⟩
    · obtain ⟨-, ok⟩ := recorded.of_recorded
      cases ok
      exact belongsTo_of_fromSource sourced
    · cases impossible

theorem delivers_resolution (r : Resolver) (options : ResolveOptions) (a : Attribute) (tokenId : Nat) :
    (r.resolution options tokenId a).Delivers Session.Arises (·.BelongsTo a tokenId) :=
  .of_courses _ [] fun _ _ course => belongsTo_of_resolveAt course

/-- If all of several runs have given something, it is what each delivers. -/
theorem forall₂_of_results {κ α : Type} {P : κ → α → Prop} {ks : List κ}
    {results : List (Except ResolveError α)} {xs : List α}
    (each : List.Forall₂ (fun k result => ∀ a, result = .ok a → P k a) ks results)
    (given : List.Forall₂ (fun result a => id result = .ok a) results xs) : List.Forall₂ P ks xs := by
  induction each generalizing xs with
  | nil =>
      cases given
      exact .nil
  | cons first _ ih =>
      cases given with
      | cons ok rest => exact .cons (first _ ok) (ih rest)

/-- Of attributes that are resolved together, each gets a result of its own, for its own token. -/
theorem resolveTogether_belongsTo (r : Resolver) (node : Node) (options : ResolveOptions)
    (wanted : List (Attribute × Nat)) {h : Host} (arises : h.session.Arises) :
    (∀ xs, (r.resolveTogether node options wanted h).1 = .ok xs →
      List.Forall₂ (fun w x => x.BelongsTo w.1 w.2) wanted xs) ∧
    (r.resolveTogether node options wanted h).2.session.Arises := by
  have delivers : List.Forall₂ (Process.Delivers Session.Arises)
      (wanted.map fun w x => x.BelongsTo w.1 w.2)
      (wanted.map fun w => r.resolution options w.2 w.1) := by
    rw [List.forall₂_map_left_iff, List.forall₂_map_right_iff]
    exact List.forall₂_same.2 fun w _ => r.delivers_resolution options w.1 w.2
  obtain ⟨results, after⟩ := (r.exchange node).runTogether_delivers Session.lasts_arises
    (r.turnLimit wanted.length) delivers arises
  refine ⟨?_, after⟩
  intro xs ok
  exact forall₂_of_results (List.forall₂_map_left_iff.1 results) (forall₂_of_mapM_eq_ok ok)

/-- A result bears the name of the attribute and the token that were asked for. So it is in whatever surroundings
an attribute is resolved; on a host, with or without the right to give up; and for several tokens at once, which
get one result each, in their order. The sessions that are left are such as the ones that were found. -/
theorem resolve_belongsTo (r : Resolver) (options : ResolveOptions) :
    (∀ a tokenId past acts x,
      Course (.within Session.Arises) past (r.resolution options tokenId a) acts (.ok x) →
      x.BelongsTo a tokenId) ∧
    ∀ (node : Node) (h : Host), h.session.Arises → ∀ a,
      (∀ tokenId,
        let ran := r.resolve node options a tokenId h
        (∀ x, ran.1 = .ok x → x.BelongsTo a tokenId) ∧ ran.2.session.Arises) ∧
      (∀ tokenId,
        let ran := r.resolveCancellable node options a tokenId h
        (∀ x, ran.1 = .ok x → x.BelongsTo a tokenId) ∧ ran.2.session.Arises) ∧
      ∀ tokenIds,
        let ran := r.resolveTokens node options a tokenIds h
        (∀ xs, ran.1 = .ok xs → List.Forall₂ (fun tokenId x => x.BelongsTo a tokenId) tokenIds xs) ∧
          ran.2.session.Arises := by
  refine ⟨fun _ _ _ _ _ course => belongsTo_of_resolveAt course, ?_⟩
  intro node h arises a
  refine ⟨?_, ?_, ?_⟩
  · intro tokenId
    exact (r.exchange node).run_delivers Session.lasts_arises (r.delivers_resolution options a tokenId)
      none [] arises
  · intro tokenId
    simp only [resolveCancellable, Exchange.runCancellable]
    split
    · exact ⟨by rintro _ ⟨⟩, (Host.session_congr h.trace_refresh).symm ▸ arises⟩
    · exact (r.exchange node).run_delivers Session.lasts_arises (r.delivers_resolution options a tokenId)
        (some a.name) [] ((Host.session_congr h.trace_refresh).symm ▸ arises)
  · intro tokenIds
    obtain ⟨results, after⟩ := r.resolveTogether_belongsTo node options (tokenIds.map (a, ·)) arises
    refine ⟨?_, after⟩
    intro xs ok
    exact List.forall₂_map_left_iff.1 (results xs ok)

end Resolver

/-! ## Titles -/

/-- A task whose result the session knows is finished in one turn. -/
theorem Exchange.advance_recorded (x : Exchange) (r : Resolver) (options : ResolveOptions) {tokenId : Nat}
    {a : Attribute} {found : Resolved} {h : Host} (noLiteral : a.literal = none)
    (recorded : h.session.result? a.name tokenId = some found) :
    x.advance (r.resolution options tokenId a) [] h = (.finished (.ok found), h) := by
  have known : Resolver.known? h.session a tokenId = some found := by
    simp only [Resolver.known?, recorded, Option.some_or]
  have looks (f : Session → Process Resolved) :
      x.advance (Process.session >>= f) [] h = x.advance (f h.session) [] h := rfl
  simp only [Resolver.resolution, Resolver.resolveAt, noLiteral, looks, known]
  rfl

namespace Ranks

/-- A host that has recorded the titles of two tokens. -/
def titled : Host :=
  { host with
    session := ((Session.withLocals [("seat", "12")]).record (.blank (chain 0) 3)).record
      (.blank (chain 0) 1) }

theorem arises_titled : titled.session.Arises :=
  .record _ (.record _ (.new _))

theorem result?_titled {tokenId : Nat} (recorded : tokenId = 1 ∨ tokenId = 3) :
    titled.session.result? (chain 0).name tokenId = some (.blank (chain 0) tokenId) := by
  rcases recorded with rfl | rfl <;> simp [titled, Session.result?_record, Resolved.blank]

theorem resolveTokens_titled :
    ((resolver 8).resolveTokens node ⟨none, .detail⟩ (chain 0) [3, 1, 3] titled).1 =
      .ok [.blank (chain 0) 3, .blank (chain 0) 1, .blank (chain 0) 3] := by
  obtain ⟨limit, limited⟩ : ∃ limit, (resolver 8).turnLimit 3 = limit + 1 :=
    ⟨(resolver 8).turnLimit 3 - 1, by decide +kernel⟩
  have advanced (tokenId : Nat) (recorded : tokenId = 1 ∨ tokenId = 3) :=
    ((resolver 8).exchange node).advance_recorded (resolver 8) ⟨none, .detail⟩ (a := chain 0) rfl
      (result?_titled recorded)
  -- One round is enough: nobody asks the node.
  simp only [Resolver.resolveTokens, Resolver.resolveTogether, Exchange.runTogether, List.map_cons,
    List.map_nil, List.length_cons, List.length_nil, Nat.reduceAdd, limited, Exchange.takeTurns,
    Exchange.roundsAtMost, Nat.reduceLeDiff, if_true, Exchange.rounds, Host.inOrder, Exchange.turn,
    advanced 1 (.inl rfl), advanced 3 (.inr rfl)]
  rfl

/-- The title of a token comes from its level by way of its rank, and those of the others from the session. -/
theorem resolve_belongsTo_titles :
    (∃ x, ((resolver 8).resolve node ⟨none, .detail⟩ (chain 0) 7 host).1 = .ok x ∧
      x.BelongsTo (chain 0) 7) ∧
    ∃ xs, ((resolver 8).resolveTokens node ⟨none, .detail⟩ (chain 0) [3, 1, 3] titled).1 = .ok xs ∧
      List.Forall₂ (fun tokenId x => x.BelongsTo (chain 0) tokenId) [3, 1, 3] xs := by
  obtain ⟨-, hosted⟩ := (resolver 8).resolve_belongsTo ⟨none, .detail⟩
  refine ⟨?_, ?_⟩
  · obtain ⟨x, own, found⟩ := (endsChain_level 8).exists_evaluate ⟨none, .detail⟩
      ((resolver 8).exchange node).answers host.store (s := ⟨host.session, host.requests, []⟩)
    obtain ⟨s', atEnd⟩ := found 6
    obtain ⟨s'', reached⟩ := Resolver.evaluate_resolveAt_reached _ _ _ (relays_chain 8) (Nat.zero_add 2)
      own atEnd
    have resolved : ((resolver 8).resolve node ⟨none, .detail⟩ (chain 0) 7 host).1 =
        .ok (x.relayedBy (chain 0)) := by
      rw [Resolver.resolve_fst_eq]
      exact congrArg Prod.fst reached
    obtain ⟨alone, -, -⟩ := hosted node host (.new []) (chain 0)
    exact ⟨_, resolved, (alone 7).1 _ resolved⟩
  · obtain ⟨-, -, together⟩ := hosted node titled arises_titled (chain 0)
    exact ⟨_, resolveTokens_titled, (together [3, 1, 3]).1 _ resolveTokens_titled⟩

end Ranks

end TokenSchema
