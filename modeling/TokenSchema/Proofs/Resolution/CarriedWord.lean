import TokenSchema.Proofs.Call.WordText
import TokenSchema.Proofs.Resolution.CallDecision

/-!
# Carried words — an answer that becomes an argument

A call may take the value of another attribute as its argument. If that attribute asks a contract itself,
the word of the answer goes into the call bit for bit, by whatever way the value comes
(`Resolver.Supplies`): fetched, kept in the store, or recorded in the session. On each of them it is the
same result (`Resolver.exists_evaluate_of_supplies`), since what is fetched is kept and recorded as the
number that the word is.
-/

namespace TokenSchema

open TokenSchema.Bytes

namespace Resolver

variable {r : Resolver} {answers : Answers} {store : Store} {options : ResolveOptions} {tokenId : Nat}

/-! ## Gathering texts -/

section Gathering

variable {nested : Attribute → Process Resolved} {names : List String} {name text : String}
variable {found texts : Std.TreeMap String String} {s s' : Pass}

theorem get?_insert_of_missing {other value : String} (known : found.get? name = some text)
    (missing : found.contains other = false) :
    (found.insert other value).get? name = some text := by
  have apart : other ≠ name := by
    rintro rfl
    have contained : found.contains other = true := by
      rw [Std.TreeMap.contains_eq_isSome_getElem?]
      simpa using congrArg Option.isSome known
    rw [missing] at contained
    cases contained
  simpa [Std.TreeMap.getElem?_insert, apart] using known

/-- A text that is found stays, whatever names follow. -/
theorem get?_of_gather (known : found.get? name = some text)
    (gathered : (r.gather nested names found).evaluate answers store s = (.ok texts, s')) :
    texts.get? name = some text := by
  -- Each name is skipped or adds its own text, and one that has a text is not asked for again.
  induction names generalizing found s with
  | nil =>
      cases gathered
      exact known
  | cons other rest ih =>
      simp only [gather] at gathered
      split at gathered
      · exact ih known gathered
      · rename_i missing
        rw [Bool.not_eq_true] at missing
        rw [Process.evaluate_session_bind] at gathered
        split at gathered
        · exact ih (get?_insert_of_missing known missing) gathered
        · split at gathered
          · exact ih known gathered
          · rename_i a _
            rw [Process.evaluate_bind] at gathered
            split at gathered
            · split at gathered
              · exact ih (get?_insert_of_missing known missing) gathered
              · exact ih known gathered
            · cases gathered

end Gathering

/-! ## Ways of a word -/

variable (r answers store options tokenId)

/-- The value of an attribute comes from a word that its call gave: just now, before it was kept, or
before it was recorded. -/
inductive Supplies (left : Nat) (a : Attribute) (f : CallTemplate) (t : Abi.Ty) (w : Word) (s : Pass) :
    Prop where
  | fetched {policy : UpdatePolicy} {contract : Deployment} {texts : Std.TreeMap String String}
      {s' : Pass} (reached : r.ComesToSource tokenId s.session a)
      (policed : options.policy = some policy) (deployed : calledAt? a f = some contract)
      (due : policy.Due options.view store contract a
        (store.find? contract a.name (r.definition.cacheTokenId a.name tokenId)))
      (gathered : (r.gather (r.resolveAt options tokenId left) (referredNames f) ∅).evaluate
        answers store s = (.ok texts, s'))
      (answered : answers s'.requests
        (.call contract (f.build ⟨tokenId, store.wallet, texts⟩).data) = .bytes w.bytes)
  | kept {policy : UpdatePolicy} {contract : Deployment} {record : CachedRecord}
      (reached : r.ComesToSource tokenId s.session a)
      (policed : options.policy = some policy) (deployed : calledAt? a f = some contract)
      (listed : store.find? contract a.name (r.definition.cacheTokenId a.name tokenId) = some record)
      (raw : record.result = Resolved.rawText a (t.ofWord w))
      (spared : ¬ policy.Due options.view store contract a (some record))
  | recorded (noLiteral : a.literal = none)
      (known : s.session.result? a.name tokenId =
        some (Resolved.ofRaw a tokenId (Resolved.rawText a (t.ofWord w))))

variable {r answers store options tokenId}

/-- An answer of one word is read as the value of that word. -/
theorem reads_word {f : CallTemplate} {t : Abi.Ty} (typed : f.kind.wordType? = some t) (w : Word)
    (c : CallContext) : (f.build c).Reads (.bytes w.bytes) (t.ofWord w) := by
  have output : (f.build c).outputType = t := by
    simp [CallTemplate.build, f.lookup_returnType typed]
  have nonempty : w.bytes ≠ [] := by
    intro empty
    have length := w.length_eq
    rw [empty] at length
    cases length
  have word : Abi.readWord w.bytes 0 = .ok w := by
    have whole : w.bytes.take 32 = w.bytes := List.take_of_length_le (Nat.le_of_eq w.length_eq)
    simp [Abi.readWord, Abi.slice, w.length_eq, whole]
  refine ⟨w.bytes, rfl, nonempty, ?_⟩
  rw [Call.decodeOutput, output]
  -- None of the types of a word is read through an offset.
  cases kind : f.kind <;> simp [kind, Kind.wordType?] at typed <;> subst typed <;>
    simp [Abi.decodeValue, word, Abi.Ty.uint256, Abi.Ty.bytes32]

/-- Whichever way the word comes, the attribute has the same result. -/
theorem exists_evaluate_of_supplies {left : Nat} {a : Attribute} {f : CallTemplate} {t : Abi.Ty}
    {w : Word} {s : Pass} (calls : a.call = some f) (typed : f.kind.wordType? = some t)
    (supplied : r.Supplies answers store options tokenId left a f t w s) :
    ∃ s', (r.resolveAt options tokenId (left + 1) a).evaluate answers store s =
      (.ok (Resolved.ofRaw a tokenId (Resolved.rawText a (t.ofWord w))), s') := by
  cases supplied with
  | @fetched policy contract texts s' reached policed deployed due gathered answered =>
      have read : (f.build ⟨tokenId, store.wallet, texts⟩).Reads (answers s'.requests
          (.call contract (f.build ⟨tokenId, store.wallet, texts⟩).data)) (t.ofWord w) := by
        rw [answered]
        exact reads_word typed w _
      have made := (r.evaluate_makeCall_cases answers store tokenId contract a
        (r.definition.cacheTokenId a.name tokenId)
        (store.find? contract a.name (r.definition.cacheTokenId a.name tokenId)) gathered).1 _ read
      rw [← r.evaluate_fromCall_of_due answers store options tokenId _ s policed deployed due] at made
      exact ⟨_, r.evaluate_resolveAt_of_fromCall answers store options tokenId reached calls made⟩
  | @kept policy contract record reached policed deployed listed raw spared =>
      rw [← listed] at spared
      obtain ⟨record', listed', called⟩ := r.evaluate_fromCall_of_not_due answers store options tokenId
        (r.resolveAt options tokenId left) s policed deployed spared
      obtain rfl : record = record' := Option.some.inj (listed.symm.trans listed')
      rw [raw] at called
      exact ⟨_, r.evaluate_resolveAt_of_fromCall answers store options tokenId reached calls called⟩
  | recorded noLiteral known =>
      exact ⟨s, r.evaluate_resolveAt_recorded answers store options tokenId left noLiteral known⟩

/-! ## Words in calls -/

/-- An attribute whose call is due asks for it last, after all that its arguments ask for. -/
theorem requests_resolveAt_of_due {policy : UpdatePolicy} {contract : Deployment} {b : Attribute}
    {g : CallTemplate} {s s' : Pass} {texts : Std.TreeMap String String} {left : Nat}
    (reached : r.ComesToSource tokenId s.session b) (calls : b.call = some g)
    (policed : options.policy = some policy) (deployed : calledAt? b g = some contract)
    (due : policy.Due options.view store contract b
      (store.find? contract b.name (r.definition.cacheTokenId b.name tokenId)))
    (gathered : (r.gather (r.resolveAt options tokenId left) (referredNames g) ∅).evaluate
      answers store s = (.ok texts, s')) :
    let request := Request.call contract (g.build ⟨tokenId, store.wallet, texts⟩).data
    ((r.resolveAt options tokenId (left + 1) b).evaluate answers store s).2.requests =
      s'.requests ++ [(request, answers s'.requests request)] := by
  intro request
  have called := r.evaluate_fromCall_of_due answers store options tokenId
    (r.resolveAt options tokenId left) s policed deployed due
  obtain ⟨whenRead, whenUnread⟩ := r.evaluate_makeCall_cases answers store tokenId contract b
    (r.definition.cacheTokenId b.name tokenId)
    (store.find? contract b.name (r.definition.cacheTokenId b.name tokenId)) gathered
  by_cases read : ∃ v, (g.build ⟨tokenId, store.wallet, texts⟩).Reads
      (answers s'.requests request) v
  · obtain ⟨v, read⟩ := read
    rw [r.evaluate_resolveAt_of_fromCall answers store options tokenId reached calls
      (called.trans (whenRead v read))]
    rfl
  · rw [r.evaluate_resolveAt_of_fromCall answers store options tokenId reached calls
      (called.trans (whenUnread fun v reads => read ⟨v, reads⟩))]
    rfl

/-- A call whose one argument, of the type of words, is the value of an attribute that asks a contract
consists of its selector and the word of the answer, by whatever way the value comes. Its texts are there
if it refers to nothing else, and an attribute that makes the call asks with just these bytes. -/
theorem carried_word {a : Attribute} {f g : CallTemplate} {t : Abi.Ty} {w : Word} {s : Pass}
    {typeName name : String} {left : Nat} (calls : a.call = some f) (sameKind : f.kind = a.kind)
    (carries : a.kind.Carries t w) (declared : r.definition.attributes.get? name = some a)
    (single : g.arguments = [⟨typeName, .reference name⟩]) (typed : Abi.lookup typeName = some t)
    (noLocal : s.session.local? name = none)
    (supplied : r.Supplies answers store options tokenId left a f t w s) :
    let data := Abi.selector (g.method ++ "(" ++ t.canonical ++ ")") ++ w.bytes
    let gathered := (r.gather (r.resolveAt options tokenId (left + 1)) (referredNames g) ∅).evaluate
      answers store s
    Abi.lookup f.returnType = some t ∧
      (g.transaction = none → ∃ texts s', gathered = (.ok texts, s')) ∧
      ∀ texts s', gathered = (.ok texts, s') →
        (g.build ⟨tokenId, store.wallet, texts⟩).data = data ∧
          ∀ b policy contract, r.ComesToSource tokenId s.session b → b.call = some g →
            options.policy = some policy → calledAt? b g = some contract →
            policy.Due options.view store contract b
              (store.find? contract b.name (r.definition.cacheTokenId b.name tokenId)) →
            let asked :=
              ((r.resolveAt options tokenId (left + 2) b).evaluate answers store s).2.requests
            ∃ answer, asked = s'.requests ++ [(Request.call contract data, answer)] := by
  intro data gathered
  have kind : f.kind.wordType? = some t := sameKind ▸ carries.type_eq
  obtain ⟨s₁, resolved⟩ := exists_evaluate_of_supplies calls kind supplied
  obtain ⟨text, v, taken, fitted, static, word⟩ :=
    Resolved.exists_fitted_argument (a := a) tokenId carries
  obtain ⟨rest, names, alone⟩ : ∃ rest, referredNames g = name :: rest ∧
      (g.transaction = none → rest = []) := by
    refine ⟨((g.transaction.map (·.values)).getD []).filterMap referredName?, ?_, ?_⟩
    · simp [referredNames, single, referredName?]
    · intro none
      simp [none]
  -- The name comes first, so its text is there whatever the others are.
  have step : gathered = (r.gather (r.resolveAt options tokenId (left + 1)) rest
      ((∅ : Std.TreeMap String String).insert name text)).evaluate answers store s₁ := by
    simp only [gathered, names]
    exact r.evaluate_gather_ok answers store (by simp) noLocal declared resolved taken
  refine ⟨f.lookup_returnType kind, ?_, ?_⟩
  · intro noTransaction
    refine ⟨(∅ : Std.TreeMap String String).insert name text, s₁, ?_⟩
    rw [step, alone noTransaction]
    rfl
  · intro texts s' complete
    have given : texts.get? name = some text := get?_of_gather (by simp) (step ▸ complete)
    have encoded : (g.build ⟨tokenId, store.wallet, texts⟩).data = data := by
      rw [CallTemplate.data_build_of_single single typed given fitted static, word]
    refine ⟨encoded, ?_⟩
    intro b policy contract reached callsToo policed deployed due asked
    have last := requests_resolveAt_of_due reached callsToo policed deployed due complete
    rw [encoded] at last
    exact ⟨_, last⟩

end Resolver

/-! ## The balance of an owner -/

namespace Owner

open Balance (token)

/-- The owner of the token, an address. -/
def template : CallTemplate :=
  { CallTemplate.ofMethod "ownerOf" with
    contract := some ⟨none, [token]⟩
    kind := .address
    arguments := [⟨"uint256", .tokenId⟩] }

/-- The attribute of that call. -/
def owner : Attribute :=
  { Attribute.ofName "owner" with kind := .address, call := some template }

/-- The balance of whoever owns the token. -/
def balance : CallTemplate :=
  { CallTemplate.ofMethod "balanceOf" with
    contract := some ⟨none, [token]⟩
    arguments := [⟨"address", .reference "owner"⟩] }

/-- A definition of the owner alone. -/
def resolver : Resolver :=
  { Balance.resolver with
    definition :=
      { Balance.resolver.definition with
        attributes := (∅ : Std.TreeMap String Attribute).insert "owner" owner } }

/-- An address that begins with zeros of its own. -/
def word : Word :=
  .ofNat 0xbb

theorem carried_word_owner :
    let answers : Answers := fun _ _ => .bytes word.bytes
    let store := Store.empty "0x00000000000000000000000000000000000000bb" false
    let options : ResolveOptions := ⟨some .alwaysUpdate, .detail⟩
    ∃ texts s', (resolver.gather (resolver.resolveAt options 7 1) (Resolver.referredNames balance)
        ∅).evaluate answers store ⟨.empty, [], []⟩ = (.ok texts, s') ∧
      (balance.build ⟨7, store.wallet, texts⟩).data =
        Abi.selector "balanceOf(address)" ++ word.bytes := by
  intro answers store options
  have reached : resolver.ComesToSource 7 Session.empty owner :=
    ⟨⟨rfl, by simp [Session.result?, Session.empty], by simp [Session.local?, Session.empty]⟩,
      rfl, rfl⟩
  have due : UpdatePolicy.alwaysUpdate.Due .detail store token owner
      (store.find? token owner.name (resolver.definition.cacheTokenId owner.name 7)) := by
    cases store.find? token owner.name (resolver.definition.cacheTokenId owner.name 7) with
    | none => trivial
    | some record => exact ⟨rfl, .inl rfl⟩
  have declared : resolver.definition.attributes.get? "owner" = some owner := by
    simp [resolver]
  have carries : owner.kind.Carries .address word := ⟨rfl, fun _ => by decide⟩
  have noLocal : Session.empty.local? "owner" = none := by
    simp [Session.local?, Session.empty]
  have supplied : resolver.Supplies answers store options 7 0 owner template .address word
      ⟨.empty, [], []⟩ :=
    .fetched reached rfl rfl due rfl rfl
  obtain ⟨-, completes, carried⟩ := Resolver.carried_word (g := balance)
    rfl rfl carries declared rfl (by decide +kernel) noLocal supplied
  obtain ⟨texts, s', complete⟩ := completes rfl
  exact ⟨texts, s', complete, (carried texts s' complete).1⟩

end Owner

end TokenSchema
