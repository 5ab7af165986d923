import TokenSchema.LogFilter
import TokenSchema.Proofs.Abi.Word
import TokenSchema.Proofs.Bytes.Minimal

/-!
# Filters — which logs a directive lets through

A filter compares topics as texts, position by position; what it is made of are numbers, an account and kept
results. Words with one text are one word (`topicText_injective`), so a filter can be read as a condition on
words:

* `EventSource.Wants`: the words that the value of a directive asks for;
* `EventSource.WantsNothing`: the values for which there is nothing to ask;
* `EventSource.Refuses`: the values that cannot be made into a filter.

What comes of one value is one of the three (`EventSource.answers_conditionFor`), and
`EventSource.filterFor_spec` says what that means for the logs of an event.
-/

namespace TokenSchema

open TokenSchema.Bytes

/-! ## Topics as texts -/

theorem topicText_injective {w w' : Word} (same : topicText w = topicText w') : w = w' := by
  have digits : Text.Hex.encodeChars w.bytes = Text.Hex.encodeChars w'.bytes := by
    have chars := congrArg String.toList same
    simpa [topicText, Text.Hex.encode0x, String.toList_ofList] using chars
  have decoded := congrArg Text.Hex.decodeChars digits
  rw [Text.Hex.decodeChars_encodeChars, Text.Hex.decodeChars_encodeChars] at decoded
  exact Block.ext_bytes (Option.some.inj decoded)

@[simp] theorem topicText_inj {w w' : Word} : topicText w = topicText w' ↔ w = w' :=
  ⟨topicText_injective, congrArg topicText⟩

/-- A word is that of a number when it is the number modulo `2 ^ 256`. -/
theorem Bytes.Word.ofNat_eq_iff {n : Nat} {w : Word} : ofNat n = w ↔ w.toNat = n % 2 ^ 256 := by
  have modulus : wordModulus = 2 ^ 256 := modulus_eq_two_pow 32
  constructor
  · rintro rfl
    rw [toNat_ofNat, modulus]
  · intro same
    rw [← modulus, ← toNat_ofNat] at same
    rw [← Block.ofNat_toNat w, same]
    exact (Block.ofNat_toNat (ofNat n)).symm

namespace Topic

/-- After so many free positions, a condition looks at the next topic. -/
theorem admitAll_replicate (count : Nat) (condition : Topic) (texts : List String) :
    admitAll (List.replicate count .any ++ [condition]) texts = true ↔
      ∃ text, texts[count]? = some text ∧ condition.admits text = true := by
  induction count generalizing texts with
  | zero =>
      cases texts with
      | nil => simp [admitAll]
      | cons text rest => simp [admitAll]
  | succ count ih =>
      cases texts with
      | nil => simp [List.replicate_succ, admitAll]
      | cons text rest => simpa [List.replicate_succ, admitAll, admits] using ih rest

end Topic

namespace EventSource

/-! ## Words that are asked for -/

/-- The tokens whose kept results count; token zero stands for no tokens at all. -/
def candidates (tokenIds : List Nat) : List Nat :=
  if tokenIds.isEmpty then [0] else tokenIds

section Values

variable (store : Store) (contract : Deployment) (tokenIds : List Nat)

/-- The number that is kept for an attribute and a token. -/
def keptNumber? (a : Attribute) (tokenId : Nat) : Option Nat :=
  (store.find? contract a.name tokenId).bind fun record => parseNatural record.result

/-- The value names an attribute: it is none of the two words that stand for something else. -/
def NamesAttribute (value : String) : Prop :=
  value ≠ "tokenId" ∧ value ≠ "ownerAddress"

/-- The value of a directive asks for a word. -/
inductive Wants (value : String) (w : Word) : Prop where
  | token {id : Nat} : value = "tokenId" → id ∈ tokenIds → w.toNat = id % 2 ^ 256 → Wants value w
  | wallet {account : Address} : value = "ownerAddress" →
      parseAddress store.wallet = some account → w = .ofAddress account → Wants value w
  | kept {a : Attribute} {id n : Nat} : NamesAttribute value →
      store.attribute? contract value = some a → id ∈ candidates tokenIds →
      keptNumber? store contract a id = some n → w.toNat = n % 2 ^ 256 → Wants value w

/-- There is nothing that the value of a directive could ask for. -/
inductive WantsNothing (value : String) : Prop where
  | token : value = "tokenId" → tokenIds = [] → WantsNothing value
  | kept {a : Attribute} : NamesAttribute value → store.attribute? contract value = some a →
      (∀ id ∈ candidates tokenIds, keptNumber? store contract a id = none) → WantsNothing value

/-- The value of a directive cannot be made into a filter. -/
inductive Refuses (value : String) : Prop where
  | wallet : value = "ownerAddress" → parseAddress store.wallet = none → Refuses value
  | attribute : NamesAttribute value → store.attribute? contract value = none → Refuses value

end Values

variable {store : Store} {contract : Deployment} {tokenIds : List Nat}

/-! ## Kept results -/

theorem bind_resultTopic?_eq_some_iff {a : Attribute} {id : Nat} {text : String} :
    (store.find? contract a.name id).bind resultTopic? = some text ↔
      ∃ n, keptNumber? store contract a id = some n ∧ topicText (.ofNat n) = text := by
  unfold keptNumber? resultTopic?
  cases store.find? contract a.name id <;> simp

theorem mem_addTopic {found : List String} {topic? : Option String} {text : String} :
    (text ∈ match topic? with
      | some topic => if found.contains topic then found else found ++ [topic]
      | none => found) ↔ text ∈ found ∨ topic? = some text := by
  cases topic? with
  | none => simp
  | some topic =>
      by_cases known : topic ∈ found
      · simp only [List.contains_iff_mem, known, if_true, Option.some.injEq]
        exact ⟨.inl, fun either => either.elim id (· ▸ known)⟩
      · simp [known, eq_comm]

/-- The topics are those of the numbers that are kept for the tokens. -/
theorem mem_keptTopics {a : Attribute} {ids : List Nat} {text : String} :
    text ∈ keptTopics store contract a ids ↔
      ∃ id ∈ ids, ∃ n, keptNumber? store contract a id = some n ∧ topicText (.ofNat n) = text := by
  have started (found : List String) :
      text ∈ ids.foldl (fun found id =>
          match (store.find? contract a.name id).bind resultTopic? with
          | some topic => if found.contains topic then found else found ++ [topic]
          | none => found) found ↔
        text ∈ found ∨
          ∃ id ∈ ids, (store.find? contract a.name id).bind resultTopic? = some text := by
    -- A topic that was found before stays, so the list found so far is not fixed.
    induction ids generalizing found with
    | nil => simp
    | cons id rest ih =>
        rw [List.foldl_cons, ih, mem_addTopic]
        simp [or_assoc]
  simp only [← bind_resultTopic?_eq_some_iff]
  exact (started []).trans (by simp)

theorem conditionOf_eq_none_iff {texts : List String} : conditionOf texts = none ↔ texts = [] := by
  unfold conditionOf
  split <;> simp_all

theorem admits_conditionOf {texts : List String} {condition : Topic}
    (given : conditionOf texts = some condition) (text : String) :
    condition.admits text = true ↔ text ∈ texts := by
  unfold conditionOf at given
  split at given
  · cases given
  · cases given
    rw [Topic.admits, beq_iff_eq, List.mem_singleton]
    exact eq_comm
  · cases given
    simp [Topic.admits]

/-! ## One value -/

/-- The topics of tokens are those of the words that they ask for. -/
theorem mem_map_topicText_iff {value : String} {w : Word} (token : value = "tokenId") :
    topicText w ∈ tokenIds.map (fun id => topicText (.ofNat id)) ↔
      Wants store contract tokenIds value w := by
  simp only [List.mem_map, topicText_inj, Word.ofNat_eq_iff]
  constructor
  · rintro ⟨id, member, same⟩
    exact .token token member same
  · rintro (⟨-, member, same⟩ | ⟨owner, -, -⟩ | ⟨names, -, -, -, -⟩)
    · exact ⟨_, member, same⟩
    · exact absurd (token.symm.trans owner) (by decide)
    · exact absurd token names.1

theorem wants_ownerAddress_iff {value : String} {account : Address} {w : Word}
    (owner : value = "ownerAddress") (parsed : parseAddress store.wallet = some account) :
    Wants store contract tokenIds value w ↔ Word.ofAddress account = w := by
  constructor
  · rintro (⟨token, -, -⟩ | ⟨-, parsed', rfl⟩ | ⟨names, -, -, -, -⟩)
    · exact absurd (token.symm.trans owner) (by decide)
    · rw [Option.some.inj (parsed.symm.trans parsed')]
    · exact absurd owner names.2
  · rintro rfl
    exact .wallet owner parsed rfl

theorem topicText_mem_keptTopics_iff {value : String} {a : Attribute} {w : Word}
    (names : NamesAttribute value) (known : store.attribute? contract value = some a) :
    topicText w ∈ keptTopics store contract a (candidates tokenIds) ↔
      Wants store contract tokenIds value w := by
  simp only [mem_keptTopics, topicText_inj, Word.ofNat_eq_iff]
  constructor
  · rintro ⟨id, member, n, kept, same⟩
    exact .kept names known member kept same
  · rintro (⟨token, -, -⟩ | ⟨owner, -, -⟩ | ⟨-, known', member, kept, same⟩)
    · exact absurd token names.1
    · exact absurd owner names.2
    · cases known.symm.trans known'
      exact ⟨_, member, _, kept, same⟩

theorem keptTopics_eq_nil_iff {a : Attribute} {ids : List Nat} :
    keptTopics store contract a ids = [] ↔ ∀ id ∈ ids, keptNumber? store contract a id = none := by
  simp only [List.eq_nil_iff_forall_not_mem, mem_keptTopics, Option.eq_none_iff_forall_ne_some]
  constructor
  · intro none id member n kept
    exact none _ ⟨id, member, n, kept, rfl⟩
  · rintro none text ⟨id, member, n, kept, -⟩
    exact none id member n kept

/-- What comes of the value of a directive: nothing to ask for, a refusal, or a condition for the words that it
asks for. -/
structure Answers (store : Store) (contract : Deployment) (tokenIds : List Nat) (value : String)
    (outcome : Except ResolveError (Option Topic)) : Prop where
  nothing : outcome = .ok none ↔ WantsNothing store contract tokenIds value
  refused : ∀ cause, outcome = .error cause ↔
    Refuses store contract value ∧ cause = .unresolvedFilter value
  admits : ∀ condition, outcome = .ok (some condition) →
    ∀ w, condition.admits (topicText w) = true ↔ Wants store contract tokenIds value w

theorem answers_tokenId {value : String} (token : value = "tokenId") :
    Answers store contract tokenIds value (conditionFor store contract value tokenIds) := by
  rw [conditionFor, if_pos token]
  refine ⟨?_, ?_, ?_⟩
  · constructor
    · intro none
      refine .token token ?_
      simpa using none
    · rintro (⟨-, rfl⟩ | ⟨names, -, -⟩)
      · rfl
      · exact absurd token names.1
  · intro cause
    constructor
    · intro failed
      cases failed
    · rintro ⟨⟨owner, -⟩ | ⟨names, -⟩, -⟩
      · exact absurd (token.symm.trans owner) (by decide)
      · exact absurd token names.1
  · intro condition given w
    split at given
    · cases given
    · cases given
      rw [Topic.admits, List.contains_iff_mem]
      exact mem_map_topicText_iff token

theorem answers_ownerAddress {value : String} (owner : value = "ownerAddress") :
    Answers store contract tokenIds value (conditionFor store contract value tokenIds) := by
  have notToken : value ≠ "tokenId" := by
    rw [owner]
    decide
  have wanted : ¬ WantsNothing store contract tokenIds value := by
    rintro (⟨token, -⟩ | ⟨names, -, -⟩)
    · exact notToken token
    · exact names.2 owner
  rw [conditionFor, if_neg notToken, if_pos owner]
  cases parsed : parseAddress store.wallet with
  | none =>
      refine ⟨by simp [wanted], ?_, by simp⟩
      intro cause
      rw [Except.error.injEq, owner]
      exact ⟨fun same => ⟨.wallet rfl parsed, same.symm⟩, fun refused => refused.2.symm⟩
  | some account =>
      refine ⟨by simp [wanted], ?_, ?_⟩
      · intro cause
        constructor
        · intro failed
          cases failed
        · rintro ⟨⟨-, parsed'⟩ | ⟨names, -⟩, -⟩
          · rw [parsed] at parsed'
            cases parsed'
          · exact absurd owner names.2
      · intro condition given w
        cases given
        rw [wants_ownerAddress_iff owner parsed, Topic.admits, beq_iff_eq, topicText_inj]

theorem answers_attribute {value : String} (names : NamesAttribute value) :
    Answers store contract tokenIds value (conditionFor store contract value tokenIds) := by
  rw [conditionFor, if_neg names.1, if_neg names.2]
  cases known : store.attribute? contract value with
  | none =>
      refine ⟨?_, ?_, by simp⟩
      · constructor
        · intro none
          cases none
        · rintro (⟨token, -⟩ | ⟨-, known', -⟩)
          · exact absurd token names.1
          · rw [known] at known'
            cases known'
      · intro cause
        rw [Except.error.injEq]
        exact ⟨fun same => ⟨.attribute names known, same.symm⟩, fun refused => refused.2.symm⟩
  | some a =>
      change Answers store contract tokenIds value
        (.ok (conditionOf (keptTopics store contract a (candidates tokenIds))))
      refine ⟨?_, ?_, ?_⟩
      · rw [Except.ok.injEq, conditionOf_eq_none_iff, keptTopics_eq_nil_iff]
        constructor
        · exact .kept names known
        · rintro (⟨token, -⟩ | ⟨-, known', none⟩)
          · exact absurd token names.1
          · cases known.symm.trans known'
            exact none
      · intro cause
        constructor
        · intro failed
          cases failed
        · rintro ⟨⟨owner, -⟩ | ⟨-, unknown⟩, -⟩
          · exact absurd owner names.2
          · rw [known] at unknown
            cases unknown
      · intro condition given w
        rw [admits_conditionOf (Except.ok.inj given), topicText_mem_keptTopics_iff names known]

theorem answers_conditionFor (store : Store) (contract : Deployment) (value : String)
    (tokenIds : List Nat) :
    Answers store contract tokenIds value (conditionFor store contract value tokenIds) := by
  by_cases token : value = "tokenId"
  · exact answers_tokenId token
  by_cases owner : value = "ownerAddress"
  · exact answers_ownerAddress owner
  · exact answers_attribute ⟨token, owner⟩

/-! ## Whole filters -/

variable {e : EventSource} {name : String}

theorem filterPosition?_eq (directive : e.filterName? = some name)
    (indexed : name ∈ e.type.fieldNames true) :
    e.filterPosition? = some ((e.type.fieldNames true).idxOf name) := by
  rw [filterPosition?, directive, Option.bind_some, NamedType.position?,
    List.findIdx?_eq_some_of_exists (p := (· == name)) ⟨name, indexed, beq_self_eq_true name⟩]
  rfl

/-- The filter of an event with a directive is made from the condition for the value of the directive. -/
theorem filterFor_eq (deployed : e.deployment? = some contract)
    (directive : e.filterName? = some name) (indexed : name ∈ e.type.fieldNames true) :
    e.filterFor store tokenIds =
      match e.filterValue? with
      | none => .error (.unresolvedFilter name)
      | some value => (conditionFor store contract value tokenIds).map fun condition? =>
          condition?.map fun condition =>
            { chainId := contract.chainId
              address := contract.address
              fromBlock := e.fromBlock.getD 0
              toBlock := none
              topics := .exactly (topicText e.type.topic) ::
                (List.replicate ((e.type.fieldNames true).idxOf name) .any ++ [condition]) } := by
  simp only [filterFor, deployed, directiveTopics, directive, filterPosition?_eq directive indexed]
  cases e.filterValue? with
  | none => rfl
  | some value =>
      dsimp only
      cases conditionFor store contract value tokenIds with
      | error cause => rfl
      | ok condition? => cases condition? <;> rfl

theorem admits_iff {filter : LogFilter} {topic : Word} {count : Nat} {condition : Topic}
    (topics : filter.topics =
      .exactly (topicText topic) :: (List.replicate count .any ++ [condition])) (log : LogEntry) :
    filter.admits log = true ↔
      log.topics[0]? = some topic ∧
        ∃ w, log.topics[count + 1]? = some w ∧ condition.admits (topicText w) = true := by
  rw [LogFilter.admits, topics]
  -- The first topic is compared with that of the event, and the free positions are counted from the second.
  cases log.topics with
  | nil => simp [Topic.admitAll]
  | cons first rest =>
      simp only [List.map_cons, Topic.admitAll, Topic.admits, Bool.and_eq_true, beq_iff_eq,
        topicText_inj, Topic.admitAll_replicate, List.getElem?_cons_zero, List.getElem?_cons_succ,
        List.getElem?_map, Option.map_eq_some_iff, Option.some.injEq]
      constructor
      · rintro ⟨rfl, -, ⟨w, found, rfl⟩, admitted⟩
        exact ⟨rfl, w, found, admitted⟩
      · rintro ⟨rfl, w, found, admitted⟩
        exact ⟨rfl, _, ⟨w, found, rfl⟩, admitted⟩

/-- The filter of an event whose directive looks at an indexed field. There is none exactly where the value of
the directive wants nothing. There is an error exactly where the directive has no value, or its value is refused.
And a filter lets a log through exactly if its first topic is that of the event, and the topic of the first field
with the name is a word that the value asks for. -/
theorem filterFor_spec (e : EventSource) (store : Store) (tokenIds : List Nat)
    {contract : Deployment} {name : String} (deployed : e.deployment? = some contract)
    (directive : e.filterName? = some name) (indexed : name ∈ e.type.fieldNames true) :
    (e.filterFor store tokenIds = .ok none ↔
      ∃ value, e.filterValue? = some value ∧ WantsNothing store contract tokenIds value) ∧
    (∀ cause, e.filterFor store tokenIds = .error cause ↔
      (e.filterValue? = none ∧ cause = .unresolvedFilter name) ∨
        ∃ value, e.filterValue? = some value ∧ Refuses store contract value ∧
          cause = .unresolvedFilter value) ∧
    ∀ filter, e.filterFor store tokenIds = .ok (some filter) → ∀ log,
      filter.admits log = true ↔
        log.topics[0]? = some e.type.topic ∧
          ∃ value, e.filterValue? = some value ∧
            ∃ w, log.topics[(e.type.fieldNames true).idxOf name + 1]? = some w ∧
              Wants store contract tokenIds value w := by
  rw [filterFor_eq deployed directive indexed]
  cases e.filterValue? with
  | none =>
      refine ⟨by simp, ?_, by simp⟩
      intro cause
      rw [Except.error.injEq]
      constructor
      · rintro rfl
        exact .inl ⟨rfl, rfl⟩
      · rintro (⟨-, rfl⟩ | ⟨value, none, -⟩)
        · rfl
        · cases none
  | some value =>
      have answers := answers_conditionFor store contract value tokenIds
      simp only [Option.some.injEq, exists_eq_left', reduceCtorEq, false_and, false_or]
      rw [← answers.nothing]
      simp only [← answers.refused]
      cases outcome : conditionFor store contract value tokenIds with
      | error cause =>
          exact ⟨by simp [Except.map], by simp [Except.map], by simp [Except.map]⟩
      | ok condition? =>
          refine ⟨by simp [Except.map], by simp [Except.map], ?_⟩
          intro filter built log
          obtain ⟨condition, rfl, rfl⟩ := Option.map_eq_some_iff.1 (Except.ok.inj built)
          rw [admits_iff rfl]
          simp only [answers.admits condition outcome]

end EventSource

/-! ## Transfers of tokens -/

namespace Transfer

/-- Transfers of the tokens that are asked about. -/
def source : EventSource :=
  { EventSource.ofType
      ⟨"Transfer",
        [⟨"from", "address", true⟩, ⟨"to", "address", true⟩, ⟨"id", "uint256", true⟩]⟩ with
    contract := some ⟨none, [⟨1, "0x00000000000000000000000000000000000000aa"⟩]⟩
    filter := some "id = $\x7btokenId\x7d" }

/-- A log of a transfer of a token. -/
def log (tokenId : Nat) : LogEntry :=
  { address := "0x00000000000000000000000000000000000000aa"
    topics := [source.type.topic, .ofNat 1, .ofNat 2, .ofNat tokenId]
    data := []
    block := 0
    index := 0 }

/-- A filter for the token `2 ^ 256 + 5` lets the transfers of the token `5` through, and no others. -/
theorem filterFor_spec_transfer :
    ∃ filter, source.filterFor (.empty "" false) [2 ^ 256 + 5] = .ok (some filter) ∧
      filter.admits (log 5) = true ∧ filter.admits (log 6) = false := by
  have deployed : source.deployment? =
      some ⟨1, "0x00000000000000000000000000000000000000aa"⟩ := rfl
  have directive : source.filterName? = some "id" := by decide +kernel
  have asks : source.filterValue? = some "tokenId" := by decide +kernel
  have indexed : "id" ∈ source.type.fieldNames true := by decide
  have third : (source.type.fieldNames true).idxOf "id" + 1 = 3 := by decide
  obtain ⟨nothing, refused, admits⟩ :=
    EventSource.filterFor_spec source (.empty "" false) [2 ^ 256 + 5] deployed directive indexed
  simp only [asks, Option.some.injEq, exists_eq_left', third] at nothing refused admits
  have five : (Bytes.Word.ofNat 5).toNat = (2 ^ 256 + 5) % 2 ^ 256 := by
    rw [Bytes.Word.ofNat_eq_iff.1 rfl, Nat.add_mod_left]
  have six : (Bytes.Word.ofNat 6).toNat ≠ (2 ^ 256 + 5) % 2 ^ 256 := by
    rw [Bytes.Word.ofNat_eq_iff.1 rfl]
    decide
  cases built : source.filterFor (.empty "" false) [2 ^ 256 + 5] with
  | error cause =>
      rcases (refused cause).1 built with ⟨none, -⟩ | ⟨⟨owner, -⟩ | ⟨names, -⟩, -⟩
      · cases none
      · exact absurd owner (by decide)
      · exact absurd rfl names.1
  | ok filter? =>
      cases filter? with
      | none =>
          rcases nothing.1 built with ⟨-, none⟩ | ⟨names, -, -⟩
          · cases none
          · exact absurd rfl names.1
      | some filter =>
          refine ⟨filter, rfl, ?_, ?_⟩
          · exact (admits filter built (log 5)).2 ⟨rfl, _, rfl, .token rfl (by simp) five⟩
          · rw [← Bool.not_eq_true, admits filter built (log 6)]
            rintro ⟨-, w, third, wanted⟩
            cases third
            rcases wanted with ⟨-, member, same⟩ | ⟨owner, -, -⟩ | ⟨names, -, -, -, -⟩
            · rw [List.mem_singleton.1 member] at same
              exact six same
            · exact absurd owner (by decide)
            · exact absurd rfl names.1

end Transfer

end TokenSchema
