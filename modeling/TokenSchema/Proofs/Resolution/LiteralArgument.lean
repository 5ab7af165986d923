import TokenSchema.Proofs.Call.Numerals
import TokenSchema.Proofs.Resolution.CarriedWord
import TokenSchema.Proofs.Resolution.Outcome

/-!
# Literal arguments — a text by the name of an attribute, or in the call itself

An argument may be a text of the call, or name an attribute that has this text. Both give the same call unless the
text is a number: then the argument by name is the decimal form of the number. Coming to the attribute asks and
records nothing, so all other arguments are found in both calls alike (`Resolver.gather_literal`); the calls are the
same exactly if the type reads the text and the decimal form alike, or another argument takes all with it
(`Resolver.build_literal_iff`).
-/

namespace TokenSchema

/-! ## Texts of literals -/

/-- The text that an argument takes from an attribute with a literal. -/
def Resolved.literalText (literal : String) : String :=
  match Text.integer? (Text.trim literal) with
  | some z => Text.signedDecimal z
  | none => literal

theorem Resolved.argumentText_ofLiteral {a : Attribute} (tokenId : Nat) (literal : String) (kind : a.kind ≠ .address) :
    (ofLiteral a tokenId literal).argumentText = some (literalText literal) := by
  unfold argumentText literalText
  simp only [ofLiteral, blank, kind, if_false]
  cases Text.integer? (Text.trim literal) <;> rfl

/-! ## Names without effect -/

/-- A process leaves the values of the host as they are. -/
theorem Process.local?_evaluate {α : Type} (answers : Answers) (store : Store) (p : Process α) (s : Pass) (name : String) :
    (p.evaluate answers store s).2.session.local? name = s.session.local? name := by
  induction p generalizing s with
  | done a => rfl
  | fail e => rfl
  | access next ih => exact ih s
  | look next ih => exact ih s.session store s
  | record r next ih => exact ih (s.record r)
  | keep r next ih => exact ih (s.keep r)
  | ask q next ih => exact ih (answers s.requests q) (s.ask answers q)

namespace Resolver

/-- Names, and the same without some of the places in which one of them stands. -/
inductive Spares (name : String) : List String → List String → Prop where
  | nil : Spares name [] []
  | both {names names' : List String} (other : String) :
      Spares name names names' → Spares name (other :: names) (other :: names')
  | first {names names' : List String} : Spares name names names' → Spares name (name :: names) names'

theorem Spares.refl (name : String) (names : List String) : Spares name names names := by
  induction names with
  | nil => exact .nil
  | cons other rest ih => exact .both other ih

theorem Spares.append (name : String) (front rest : List String) :
    Spares name (front ++ name :: rest) (front ++ rest) := by
  induction front with
  | nil => exact .first (.refl name rest)
  | cons other front ih => exact .both other ih

/-- The texts of names are the same, except that one name may have its text in either or not. -/
structure Agree (name text : String) (found found' : Std.TreeMap String String) : Prop where
  others : ∀ other ≠ name, found.get? other = found'.get? other
  own : found.get? name = none ∨ found.get? name = some text
  own' : found'.get? name = none ∨ found'.get? name = some text

/-- Two runs for names come to the same end, and to the same texts; one name has its text where it is asked for. -/
inductive EndAlike (name text : String) (names names' : List String) :
    Except ResolveError (Std.TreeMap String String) × Pass →
      Except ResolveError (Std.TreeMap String String) × Pass → Prop where
  | error (e : ResolveError) (s : Pass) : EndAlike name text names names' (.error e, s) (.error e, s)
  | ok {texts texts' : Std.TreeMap String String} (s : Pass) : Agree name text texts texts' →
      (name ∈ names → texts.get? name = some text) → (name ∈ names' → texts'.get? name = some text) →
      EndAlike name text names names' (.ok texts, s) (.ok texts', s)

theorem EndAlike.imp {name text : String} {names names' more more' : List String}
    {run run' : Except ResolveError (Std.TreeMap String String) × Pass} (alike : EndAlike name text names names' run run')
    (given : name ∈ more → name ∈ names ∨ ∀ texts s', run = (.ok texts, s') → texts.get? name = some text)
    (given' : name ∈ more' → name ∈ names' ∨ ∀ texts s', run' = (.ok texts, s') → texts.get? name = some text) :
    EndAlike name text more more' run run' := by
  cases alike with
  | error e s => exact .error e s
  | ok s agree asked asked' =>
      refine .ok s agree (fun member => ?_) (fun member => ?_)
      · rcases given member with there | found
        · exact asked there
        · exact found _ s rfl
      · rcases given' member with there | found
        · exact asked' there
        · exact found _ s rfl

section Gathering

variable {r : Resolver} {answers : Answers} {store : Store} {nested : Attribute → Process Resolved}
variable {name text : String} {names names' : List String} {found found' : Std.TreeMap String String} {s : Pass}
variable {a : Attribute} {x : Resolved}

theorem contains_eq_isSome (found : Std.TreeMap String String) (name : String) :
    found.contains name = (found.get? name).isSome :=
  Std.TreeMap.contains_eq_isSome_getElem?

theorem get?_insert_of_ne {other : String} (found : Std.TreeMap String String) (text : String) (apart : other ≠ name) :
    (found.insert other text).get? name = found.get? name := by
  simp [Std.TreeMap.getElem?_insert, apart]

theorem Agree.insert (agree : Agree name text found found') {other : String} (value : String) (apart : other ≠ name) :
    Agree name text (found.insert other value) (found'.insert other value) where
  others := by
    intro third different
    by_cases same : other = third
    · subst same
      simp
    · rw [get?_insert_of_ne found value same, get?_insert_of_ne found' value same, agree.others third different]
  own := by
    rw [get?_insert_of_ne found value apart]
    exact agree.own
  own' := by
    rw [get?_insert_of_ne found' value apart]
    exact agree.own'

variable (declared : r.definition.attributes.get? name = some a) (taken : x.argumentText = some text)
variable (free : ∀ s, (nested a).evaluate answers store s = (.ok x, s))

include declared taken free

/-- A name whose attribute has no effect has its text after it has been asked for, and nothing else is changed. -/
theorem exists_evaluate_gather_cons (noLocal : s.session.local? name = none)
    (own : found.get? name = none ∨ found.get? name = some text) (rest : List String) :
    ∃ more : Std.TreeMap String String, more.get? name = some text ∧
      (∀ other ≠ name, more.get? other = found.get? other) ∧
      (r.gather nested (name :: rest) found).evaluate answers store s =
        (r.gather nested rest more).evaluate answers store s := by
  rcases own with missing | there
  · have absent : found.contains name = false := by
      rw [contains_eq_isSome, missing]
      rfl
    refine ⟨found.insert name text, by simp, fun other apart => get?_insert_of_ne found text apart.symm, ?_⟩
    exact r.evaluate_gather_ok answers store absent noLocal declared (free s) taken
  · have present : found.contains name = true := by
      rw [contains_eq_isSome, there]
      rfl
    refine ⟨found, there, fun _ _ => rfl, ?_⟩
    simp only [gather, present, if_true]

theorem endAlike_of_spares (spares : Spares name names names') (noLocal : s.session.local? name = none)
    (agree : Agree name text found found') :
    EndAlike name text names names' ((r.gather nested names found).evaluate answers store s)
      ((r.gather nested names' found').evaluate answers store s) := by
  induction spares generalizing found found' s with
  | nil => exact .ok s agree nofun nofun
  -- Where the name stands in the longer list alone, its text comes into one of the two.
  | @first names names' _ ih =>
      obtain ⟨more, own, others, step⟩ :=
        exists_evaluate_gather_cons declared taken free noLocal agree.own names
      rw [step]
      have agree' : Agree name text more found' :=
        ⟨fun other apart => (others other apart).trans (agree.others other apart), .inr own, agree.own'⟩
      exact (ih noLocal agree').imp (fun _ => .inr fun _ _ gathered => get?_of_gather own gathered) .inl
  | @both names names' other _ ih =>
      by_cases same : other = name
      · subst same
        obtain ⟨more, own, others, step⟩ :=
          exists_evaluate_gather_cons declared taken free noLocal agree.own names
        obtain ⟨more', own', others', step'⟩ :=
          exists_evaluate_gather_cons declared taken free noLocal agree.own' names'
        rw [step, step']
        have agree' : Agree other text more more' := by
          refine ⟨fun third apart => ?_, .inr own, .inr own'⟩
          rw [others third apart, others' third apart, agree.others third apart]
        exact (ih noLocal agree').imp (fun _ => .inr fun _ _ gathered => get?_of_gather own gathered)
          (fun _ => .inr fun _ _ gathered => get?_of_gather own' gathered)
      -- Any other name is found in both, or is resolved from the same pass.
      · have listed : ∀ {names : List String}, name ∈ other :: names → name ∈ names := by
          intro names member
          rcases List.mem_cons.1 member with h | h
          · exact absurd h.symm same
          · exact h
        refine EndAlike.imp ?_ (fun member => .inl (listed member)) (fun member => .inl (listed member))
        have apart : found.contains other = found'.contains other := by
          rw [contains_eq_isSome, contains_eq_isSome, agree.others other same]
        simp only [gather, apart]
        split
        · exact ih noLocal agree
        rw [Process.evaluate_session_bind, Process.evaluate_session_bind]
        cases s.session.local? other with
        | some value => exact ih noLocal (agree.insert value same)
        | none =>
            cases r.definition.attributes.get? other with
            | none => exact ih noLocal agree
            | some b =>
                have noLocal' := Process.local?_evaluate answers store (nested b) s name
                rw [noLocal] at noLocal'
                simp only [Process.evaluate_bind]
                generalize (nested b).evaluate answers store s = outcome at noLocal' ⊢
                obtain ⟨result, s'⟩ := outcome
                cases result with
                | error e => exact .error e s'
                | ok y =>
                    dsimp only
                    cases y.argumentText with
                    | none => exact ih noLocal' agree
                    | some value => exact ih noLocal' (agree.insert value same)

end Gathering

end Resolver

/-! ## Calls -/

theorem toOption_map {ε α β : Type} (x : Except ε α) (f : α → β) : (x.map f).toOption = x.toOption.map f := by
  cases x with
  | error e => rfl
  | ok v => rfl

namespace CallContext

variable {c c' : CallContext} {front rest : List Argument} {a b : Argument}

theorem argument_eq_of_sourceText (token : c.tokenId = c'.tokenId) (wallet : c.wallet = c'.wallet)
    (text : c.sourceText a.source = c'.sourceText a.source) : c.argument a = c'.argument a := by
  unfold argument
  cases source : a.source with
  | tokenId => rw [token]
  | ownerAddress => rw [wallet]
  | _ =>
      rw [source] at text
      simp only [text]

/-- Of one argument it matters only what it is converted to, if at all. -/
theorem arguments_congr (others : ∀ x ∈ front ++ rest, c.argument x = c'.argument x)
    (same : (c.argument a).toOption = (c'.argument b).toOption) :
    c.arguments (front ++ a :: rest) = c'.arguments (front ++ b :: rest) := by
  obtain ⟨inFront, inRest⟩ := List.forall_mem_append.1 others
  cases given : c.argument a with
  | error e =>
      rw [given] at same
      cases given' : c'.argument b with
      | error e' =>
          rw [c.arguments_of_failed ⟨a, by simp, e, given⟩, c'.arguments_of_failed ⟨b, by simp, e', given'⟩]
      | ok p =>
          rw [given'] at same
          cases same
  | ok p =>
      rw [given] at same
      cases given' : c'.argument b with
      | error e' =>
          rw [given'] at same
          cases same
      | ok p' =>
          rw [given'] at same
          cases same
          simp only [arguments, List.mapM_append, List.mapM_cons, mapM_congr inFront, mapM_congr inRest, given, given']

/-- The values tell what one argument is converted to, if the others are converted. -/
theorem toOption_eq_of_arguments {t : Abi.Ty} {fitted fitted' : Except Abi.EncodeError Abi.Value}
    (others : ∀ x ∈ front ++ rest, c.argument x = c'.argument x)
    (converted : ∀ x ∈ front ++ rest, ∃ p, c'.argument x = .ok p)
    (given : c.argument a = fitted.map fun v => some (t, v)) (given' : c'.argument b = fitted'.map fun v => some (t, v))
    (same : (c.arguments (front ++ a :: rest)).map (·.2) = (c'.arguments (front ++ b :: rest)).map (·.2)) :
    fitted.toOption = fitted'.toOption := by
  have converted₁ : ∀ x ∈ front ++ rest, ∃ p, c.argument x = .ok p := by
    intro x member
    rw [others x member]
    exact converted x member
  obtain ⟨inFront, inRest⟩ := List.forall_mem_append.1 others
  have before : c.arguments front = c'.arguments front := by
    rw [arguments, arguments, mapM_congr inFront]
  have after : c.arguments rest = c'.arguments rest := by
    rw [arguments, arguments, mapM_congr inRest]
  cases fitted with
  | error e =>
      cases fitted' with
      | error e' => rfl
      | ok v' =>
          rw [c.arguments_of_failed ⟨a, by simp, e, given⟩, arguments_between given' converted] at same
          simp at same
  | ok v =>
      cases fitted' with
      | error e' =>
          rw [c'.arguments_of_failed ⟨b, by simp, e', given'⟩, arguments_between given converted₁] at same
          simp at same
      | ok v' =>
          rw [arguments_between given converted₁, arguments_between given' converted, before, after] at same
          simp only [List.map_append, List.map_cons] at same
          obtain ⟨values, -⟩ := List.cons.inj (List.append_cancel_left same)
          exact congrArg some values

end CallContext

namespace Abi

/-- A type takes from a literal by name what it takes from the literal itself, unless it is a number of which the type
reads the decimal form in another way. -/
theorem Ty.fit_literalText_iff (t : Ty) (literal : String) :
    (t.fitArgument (some (Resolved.literalText literal))).toOption = (t.fitArgument (some literal)).toOption ↔
      ∀ z, Text.integer? (Text.trim literal) = some z →
        Text.trim literal = Text.signedDecimal z ∨ t.ReadsAlike (Text.trim literal) z := by
  have trimmed : t.fitArgument (some literal) = t.fitArgument (some (Text.trim literal)) := by
    have twice : Text.trim (Text.trim literal) = Text.trim literal := by
      rw [Text.trim, Text.toList_trim, Text.trimChars_trimChars, Text.trim]
    simp only [fitArgument, ofArgument, Option.map_some, twice]
  unfold Resolved.literalText
  cases read : Text.integer? (Text.trim literal) with
  | none => simp
  | some z =>
      have numeral : Text.IsNumeral (Text.trim literal) z := by
        refine ⟨?_, read⟩
        rw [Text.toList_trim, Text.trimChars_trimChars]
      rw [trimmed, eq_comm]
      simpa using t.fitArgument_decimal_iff numeral

end Abi

theorem CallTemplate.mem_values_of_amountSource? {f : CallTemplate} {source : ArgumentSource}
    (amount : f.amountSource? = some source) : source ∈ (f.transaction.map (·.values)).getD [] := by
  obtain ⟨sources, transaction, found⟩ := Option.bind_eq_some_iff.1 amount
  have listed : sources.values = sources.toList.map Prod.snd := by
    have folded : sources.values = sources.foldr (fun _ v l => v :: l) [] := rfl
    rw [folded, Std.TreeMap.foldr_eq_foldr_toList]
    induction sources.toList with
    | nil => rfl
    | cons p rest ih => rw [List.foldr_cons, ih, List.map_cons]
  rw [transaction, Option.map_some, Option.getD_some, listed]
  exact List.mem_map.2 ⟨("value", source), Std.TreeMap.mem_toList_iff_getElem?_eq_some.2 found, rfl⟩

namespace CallTemplate

variable {f : CallTemplate} {c c' : CallContext} {front rest : List Argument} {typeName name literal : String}

/-- The template with a literal in the place of an argument. -/
abbrev withLiteral (f : CallTemplate) (front rest : List Argument) (typeName literal : String) : CallTemplate :=
  { f with arguments := front ++ ⟨typeName, .literal literal⟩ :: rest }

/-- What makes the calls the same: another argument is refused, the literal is no number, it is the decimal form of
its number, or its type reads it as that form. -/
def SameByName (c : CallContext) (others : List Argument) (typeName literal : String) : Prop :=
  (∃ b ∈ others, ∃ e, c.argument b = .error e) ∨
    ∀ t z, Abi.lookup typeName = some t → Text.integer? (Text.trim literal) = some z →
      Text.trim literal = Text.signedDecimal z ∨ t.ReadsAlike (Text.trim literal) z

/-- If all texts but that of one argument are the same, the calls are the same under just that condition. -/
theorem build_withLiteral_iff (place : f.arguments = front ++ ⟨typeName, .reference name⟩ :: rest)
    (token : c.tokenId = c'.tokenId) (wallet : c.wallet = c'.wallet)
    (own : c.references.get? name = some (Resolved.literalText literal))
    (texts : ∀ source ∈ (front ++ rest).map (·.source) ++ (f.transaction.map (·.values)).getD [],
      c.sourceText source = c'.sourceText source) :
    let g := f.withLiteral front rest typeName literal
    (f.build c = g.build c' ↔ SameByName c' (front ++ rest) typeName literal) ∧
      ((f.build c).parameters = (g.build c').parameters ↔ SameByName c' (front ++ rest) typeName literal) := by
  intro g
  have others : ∀ x ∈ front ++ rest, c.argument x = c'.argument x := fun x member =>
    c.argument_eq_of_sourceText token wallet (texts _ (List.mem_append_left _ (List.mem_map_of_mem member)))
  have amounts : f.amount? c = g.amount? c' := by
    have source : g.amountSource? = f.amountSource? := rfl
    unfold amount?
    rw [source]
    cases given : f.amountSource? with
    | none => rfl
    | some source =>
        have same := texts source (List.mem_append_right _ (mem_values_of_amountSource? given))
        simp only [bind, Option.bind, same]
  have byName (t : Abi.Ty) (typed : Abi.lookup typeName = some t) :
      c.argument ⟨typeName, .reference name⟩ =
        (t.fitArgument (some (Resolved.literalText literal))).map fun v => some (t, v) := by
    rw [c.argument_of_typed (by simp) (by simp)]
    simp only [typed, CallContext.sourceText, own]
  have written (t : Abi.Ty) (typed : Abi.lookup typeName = some t) :
      c'.argument ⟨typeName, .literal literal⟩ = (t.fitArgument (some literal)).map fun v => some (t, v) := by
    rw [c'.argument_of_typed (by simp) (by simp)]
    simp only [typed, CallContext.sourceText]
  -- From the condition come the same arguments, from these the same call, and the parameters lead back to it.
  have arguments : SameByName c' (front ++ rest) typeName literal →
      c.arguments f.arguments = c'.arguments g.arguments := by
    rw [place]
    rintro (⟨b, member, e, failed⟩ | alike)
    · have there : ∀ x : Argument, b ∈ front ++ x :: rest := by
        intro x
        rcases List.mem_append.1 member with inFront | inRest
        · exact List.mem_append_left _ inFront
        · exact List.mem_append_right _ (List.mem_cons_of_mem x inRest)
      rw [c.arguments_of_failed ⟨b, there _, e, (others b member).trans failed⟩,
        c'.arguments_of_failed ⟨b, there _, e, failed⟩]
    · refine CallContext.arguments_congr others ?_
      cases typed : Abi.lookup typeName with
      | none =>
          rw [c.argument_of_typed (by simp) (by simp), c'.argument_of_typed (by simp) (by simp)]
          simp only [typed]
      | some t =>
          have fitted := (t.fit_literalText_iff literal).2 (alike t · typed)
          rw [byName t typed, written t typed, toOption_map, toOption_map, fitted]
  have build : c.arguments f.arguments = c'.arguments g.arguments → f.build c = g.build c' := by
    intro same
    simp only [CallTemplate.build, same, amounts]
    rfl
  have back : (f.build c).parameters = (g.build c').parameters → SameByName c' (front ++ rest) typeName literal := by
    intro same
    by_cases refused : ∃ b ∈ front ++ rest, ∃ e, c'.argument b = .error e
    · exact .inl refused
    -- No argument is missing, so the one in question stands at the same place among the parameters.
    · refine .inr fun t z typed read => ?_
      have converted := (c'.converted_iff_not_failed (front ++ rest)).2 refused
      have values : (c.arguments f.arguments).map (·.2) = (c'.arguments g.arguments).map (·.2) := same
      rw [place] at values
      have fitted := CallContext.toOption_eq_of_arguments others converted (byName t typed) (written t typed) values
      exact (t.fit_literalText_iff literal).1 fitted z read
  exact ⟨⟨fun same => back (congrArg Call.parameters same), fun alike => build (arguments alike)⟩,
    back, fun alike => congrArg Call.parameters (build (arguments alike))⟩

end CallTemplate

namespace Resolver

variable {r : Resolver} {answers : Answers} {store : Store} {options : ResolveOptions} {tokenId left : Nat}
variable {f : CallTemplate} {front rest : List Argument} {typeName name literal : String} {a : Attribute} {s : Pass}

/-- The text of a name is missing in the shorter list of names only if no source there refers to it. -/
theorem sourceText_eq_of_agree {text wallet : String} {texts texts' : Std.TreeMap String String} {source : ArgumentSource}
    (agree : Agree name text texts texts')
    (asked : referredName? source = some name → texts.get? name = some text ∧ texts'.get? name = some text) :
    (⟨tokenId, wallet, texts⟩ : CallContext).sourceText source =
      (⟨tokenId, wallet, texts'⟩ : CallContext).sourceText source := by
  have named (other : String) (refers : referredName? source = some other) : texts.get? other = texts'.get? other := by
    by_cases same : other = name
    · subst same
      obtain ⟨own, own'⟩ := asked refers
      rw [own, own']
    · exact agree.others other same
  cases source with
  | reference other => exact named other rfl
  | localValue other => exact named other rfl
  | _ => rfl

variable (r answers store options tokenId left)

/-- A call in which an argument names an attribute with a literal, and the one with the literal in its place, come to
the same end and leave the same behind. They are the same call, and have the same parameters, exactly if another
argument is refused, the literal is no number, it is the decimal form of its number, or its type reads it as that
form. -/
theorem build_literal_iff (place : f.arguments = front ++ ⟨typeName, .reference name⟩ :: rest)
    (declared : r.definition.attributes.get? name = some a) (kind : a.kind = .utf8) (written : a.literal = some literal)
    (noLocal : s.session.local? name = none) :
    let g := f.withLiteral front rest typeName literal
    let gathered (h : CallTemplate) :=
      (r.gather (r.resolveAt options tokenId (left + 1)) (referredNames h) ∅).evaluate answers store s
    (∀ e s', gathered g = (.error e, s') → gathered f = (.error e, s')) ∧
      ∀ texts' s', gathered g = (.ok texts', s') → ∃ texts, gathered f = (.ok texts, s') ∧
        let c' : CallContext := ⟨tokenId, store.wallet, texts'⟩
        let call := f.build ⟨tokenId, store.wallet, texts⟩
        (call = g.build c' ↔ CallTemplate.SameByName c' (front ++ rest) typeName literal) ∧
          (call.parameters = (g.build c').parameters ↔
            CallTemplate.SameByName c' (front ++ rest) typeName literal) := by
  intro g gathered
  have taken := Resolved.argumentText_ofLiteral (a := a) tokenId literal (by simp [kind])
  have free := fun s => r.evaluate_resolveAt_literal options tokenId answers store (s := s) left written
  have names : referredNames f = (front.map (·.source)).filterMap referredName? ++ name ::
      (rest.map (·.source) ++ (f.transaction.map (·.values)).getD []).filterMap referredName? := by
    have refers : referredName? (.reference name) = some name := rfl
    simp [referredNames, place, refers]
  have names' : referredNames g = (front.map (·.source)).filterMap referredName? ++
      (rest.map (·.source) ++ (f.transaction.map (·.values)).getD []).filterMap referredName? := by
    have refers : referredName? (.literal literal) = none := rfl
    simp [referredNames, g, refers]
  have spares : Spares name (referredNames f) (referredNames g) := by
    rw [names, names']
    exact .append name _ _
  have ended : EndAlike name (Resolved.literalText literal) (referredNames f) (referredNames g) (gathered f)
      (gathered g) :=
    endAlike_of_spares declared taken free spares noLocal ⟨fun _ _ => rfl, .inl (by simp), .inl (by simp)⟩
  constructor
  · intro e s' failed
    rw [failed] at ended
    generalize gathered f = run at ended ⊢
    cases ended
    rfl
  · intro texts' s' complete
    rw [complete] at ended
    generalize gathered f = run at ended ⊢
    cases ended with
    | ok s' agree asked asked' =>
        refine ⟨_, rfl, ?_⟩
        have own := asked (by simp [names])
        refine CallTemplate.build_withLiteral_iff place rfl rfl own fun source member => ?_
        refine sourceText_eq_of_agree agree fun refers => ⟨own, asked' ?_⟩
        rw [names', ← List.filterMap_append, ← List.append_assoc, ← List.map_append]
        exact List.mem_filterMap.2 ⟨source, member, refers⟩

end Resolver

/-! ## A code with zeros in front -/

namespace Coupon

/-- A code that is written in the document. -/
def code : Attribute :=
  { Attribute.ofName "code" with kind := .utf8, literal := some "007" }

/-- A call that takes the code, as a value of a type. -/
def template (typeName : String) : CallTemplate :=
  { CallTemplate.ofMethod "redeem" with arguments := [⟨typeName, .reference "code"⟩] }

/-- A definition of the code alone. -/
def resolver : Resolver :=
  { Balance.resolver with
    definition :=
      { Balance.resolver.definition with
        attributes := (∅ : Std.TreeMap String Attribute).insert "code" code } }

/-- A new session. -/
def start : Pass :=
  ⟨.empty, [], []⟩

/-- A store that holds nothing. -/
def store : Store :=
  .empty "0x00000000000000000000000000000000000000bb" false

/-- Contracts that answer nothing. -/
def silent : Answers :=
  fun _ _ => .bytes []

/-- The texts that a call takes from the document, where no contract answers. -/
def gathered (f : CallTemplate) : Except ResolveError (Std.TreeMap String String) × Pass :=
  (resolver.gather (resolver.resolveAt ⟨some .useCache, .detail⟩ 7 1) (Resolver.referredNames f) ∅).evaluate
    silent store start

theorem noLocal : start.session.local? "code" = none := by
  simp [start, Session.empty, Session.local?]

theorem declared : resolver.definition.attributes.get? "code" = some code := by
  simp [resolver]

/-- As a number the code is the same by its name and in the call. -/
theorem build_literal_iff_redeem :
    let inline := (template "uint256").withLiteral [] [] "uint256" "007"
    ∃ texts, gathered (template "uint256") = (.ok texts, start) ∧ gathered inline = (.ok ∅, start) ∧
      (template "uint256").build ⟨7, store.wallet, texts⟩ = inline.build ⟨7, store.wallet, ∅⟩ := by
  intro inline
  have empty : gathered inline = (.ok ∅, start) := rfl
  have place : (template "uint256").arguments = [] ++ ⟨"uint256", .reference "code"⟩ :: [] := rfl
  obtain ⟨-, same⟩ := Resolver.build_literal_iff resolver silent store ⟨some .useCache, .detail⟩ 7 0 place declared rfl
    rfl noLocal
  obtain ⟨texts, found, build, -⟩ := same ∅ start empty
  have number : Abi.lookup "uint256" = some .uint256 := by decide +kernel
  refine ⟨texts, found, empty, build.2 (.inr fun t z typed _ => .inr ?_)⟩
  obtain rfl := Option.some.inj (number.symm.trans typed)
  trivial

/-- As a text it is not: by its name it loses the zeros. -/
theorem parameters_redeem :
    let texts := (∅ : Std.TreeMap String String).insert "code" "7"
    let inline := (template "string").withLiteral [] [] "string" "007"
    gathered (template "string") = (.ok texts, start) ∧ gathered inline = (.ok ∅, start) ∧
      ((template "string").build ⟨7, store.wallet, texts⟩).parameters = [.string "7"] ∧
      (inline.build ⟨7, store.wallet, ∅⟩).parameters = [.string "007"] := by
  intro texts inline
  have typed : Abi.lookup "string" = some .string := by decide +kernel
  refine ⟨?_, rfl, ?_, ?_⟩
  · exact resolver.evaluate_gather_ok silent store (by simp) noLocal declared
      (resolver.evaluate_resolveAt_literal _ 7 _ _ 0 rfl) (by decide)
  · have given : (⟨7, store.wallet, texts⟩ : CallContext).argument ⟨"string", .reference "code"⟩ =
        .ok (some (.string, .string "7")) := by
      have text : texts.get? "code" = some "7" := by simp [texts]
      have fitted : Abi.Ty.string.fitArgument (some "7") = .ok (.string "7") := by decide
      rw [CallContext.argument_of_typed _ (by simp) (by simp)]
      simp only [typed, CallContext.sourceText, text, fitted, Except.map]
    simp [CallTemplate.build, template, CallContext.arguments, given]
  · have given : (⟨7, store.wallet, ∅⟩ : CallContext).argument ⟨"string", .literal "007"⟩ =
        .ok (some (.string, .string "007")) := by
      have fitted : Abi.Ty.string.fitArgument (some "007") = .ok (.string "007") := by decide
      rw [CallContext.argument_of_typed _ (by simp) (by simp)]
      simp only [typed, CallContext.sourceText, fitted, Except.map]
    simp [CallTemplate.build, inline, CallContext.arguments, given]

end Coupon

end TokenSchema
