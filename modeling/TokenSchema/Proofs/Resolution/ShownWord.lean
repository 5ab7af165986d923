import Mathlib.Algebra.Group.Int.Defs
import TokenSchema.Proofs.Abi.Word
import TokenSchema.Proofs.Bytes.Signed
import TokenSchema.Proofs.Resolution.CarriedWord

/-!
# Shown words — what is shown of a word that a contract answers

A word is the same result right after the call that it answers and from the record that this call keeps
(`Resolver.IsAnswered.givesBoth`): its number, without a sign, shown as the kind asks. The number has no width, so
a byte string is shown in as few bytes as hold the number and a sign bit (`shown_bytes_iff`), and an integer below
zero is shown as the number of its word (`shown_signed_iff`).
-/

namespace TokenSchema

open TokenSchema.Bytes

/-! ## Bytes with a sign bit -/

theorem Text.Hex.encode0x_inj {bytes bytes' : List UInt8} : encode0x bytes = encode0x bytes' ↔ bytes = bytes' := by
  refine ⟨fun same => ?_, congrArg encode0x⟩
  have chars := congrArg (fun s => decodeChars (s.toList.drop 2)) same
  simpa [encode0x] using chars

namespace Bytes.Word

variable (w : Word)

theorem bitLength_le : bitLength w.toNat ≤ 256 := by
  have fits := w.toNat_lt
  rw [modulus_eq_two_pow] at fits
  exact bitLength_lt_iff.2 fits

/-- With zeros before them, the bytes of the number of a word are those of the word and a zero. -/
theorem replicate_append_minimalSigned :
    List.replicate (33 - (minimalSigned w.toNat).length) 0 ++ minimalSigned w.toNat = 0 :: w.bytes := by
  have bits := bitLength_le w
  rw [minimalSigned_natCast, length_ofNat]
  have fits : w.toNat < modulus (bitLength w.toNat / 8 + 1) := by
    rw [modulus_eq_two_pow]
    exact bitLength_lt_iff.1 (by omega)
  have whole : List.replicate 1 0 ++ Bytes.ofNat 32 w.toNat = Bytes.ofNat (1 + 32) w.toNat :=
    replicate_append_ofNat 1 w.toNat_lt
  rw [replicate_append_ofNat _ fits, Nat.sub_add_cancel (by omega)]
  rw [w.bytes_of_toNat] at whole
  exact whole.symm

/-- These bytes are those of the word alone exactly if its first bit is zero and one of the next eight is not. -/
theorem minimalSigned_eq_bytes_iff :
    minimalSigned w.toNat = w.bytes ↔ 2 ^ 247 ≤ w.toNat ∧ w.toNat < 2 ^ 255 := by
  have size : (minimalSigned w.toNat).length = bitLength w.toNat / 8 + 1 := by
    rw [minimalSigned_natCast, length_ofNat]
  have filled := replicate_append_minimalSigned w
  -- With 32 bytes there is one zero to fill up, and what follows it on both sides is the same.
  have count : minimalSigned w.toNat = w.bytes ↔ (minimalSigned w.toNat).length = 32 := by
    constructor
    · intro same
      rw [same, w.length_eq]
    · intro full
      rw [full] at filled
      exact (List.cons.inj filled).2
  rw [count, size, ← bitLength_lt_iff, ← Nat.not_lt, ← bitLength_lt_iff]
  omega

end Bytes.Word

theorem Abi.encodeParams_int (z : Int) : encodeParams [.int z] = (Word.ofInt z).bytes := by
  simp [encodeParams, encodeFrom, Value.payload?, Value.word]

/-! ## After the call and from the record -/

namespace Resolver

variable (r : Resolver) (answers : Answers) (store : Store) (options : ResolveOptions) (tokenId : Nat)

/-- The call of an attribute is due, and is answered with some data. -/
structure IsAnswered (left : Nat) (a : Attribute) (f : CallTemplate) (contract : Deployment) (data : List UInt8)
    (s : Pass) : Prop where
  calls : a.call = some f
  deployed : calledAt? a f = some contract
  reached : r.ComesToSource tokenId s.session a
  due : ∃ policy, options.policy = some policy ∧ policy.Due options.view store contract a
    (store.find? contract a.name (r.definition.cacheTokenId a.name tokenId))
  answered : ∃ texts s', (r.gather (r.resolveAt options tokenId left) (referredNames f) ∅).evaluate answers store s =
      (.ok texts, s') ∧
    answers s'.requests (.call contract (f.build ⟨tokenId, store.wallet, texts⟩).data) = .bytes data

/-- A record is there for an attribute that comes to its source, and no call is due. -/
structure IsSpared (a : Attribute) (contract : Deployment) (record : CachedRecord) (s : Pass) : Prop where
  reached : r.ComesToSource tokenId s.session a
  listed : store.find? contract a.name (r.definition.cacheTokenId a.name tokenId) = some record
  spared : ∃ policy, options.policy = some policy ∧ ¬ policy.Due options.view store contract a (some record)

/-- An attribute has one result right after its call, and from the record that reaches the store: at any later time,
in any session and store, and whatever the node answers then. -/
structure GivesBoth (left : Nat) (a : Attribute) (contract : Deployment) (s : Pass) (x : Resolved) : Prop where
  fresh : ((r.resolveAt options tokenId (left + 1) a).evaluate answers store s).1 = .ok x
  kept : ∃ record,
    let outcome := (r.resolveAt options tokenId (left + 1) a).evaluate answers store s
    ((outcome.2.flushed outcome.1).foldl Store.put store).find? contract a.name
        (r.definition.cacheTokenId a.name tokenId) = some record ∧
      ∀ (later : Resolver) (answers' : Answers) (store' : Store) (options' : ResolveOptions) (left' : Nat) (s' : Pass),
        later.definition = r.definition → later.IsSpared store' options' tokenId a contract record s' →
        (later.resolveAt options' tokenId (left' + 1) a).evaluate answers' store' s' = (.ok x, s'.record x)

variable {r answers store options tokenId} {left : Nat} {a : Attribute} {f : CallTemplate} {contract : Deployment}
variable {s : Pass}

/-- Whatever is read from an answer, its raw text is kept, and gives the result again. -/
theorem IsAnswered.givesBoth_ofRaw {data : List UInt8} {v : Abi.Value}
    (answered : r.IsAnswered answers store options tokenId left a f contract data s)
    (reads : ∀ c, (f.build c).Reads (.bytes data) v) :
    r.GivesBoth answers store options tokenId left a contract s
      (Resolved.ofRaw a tokenId (Resolved.rawText a v)) := by
  obtain ⟨calls, deployed, reached, ⟨policy, policed, due⟩, texts, s', gathered, answer⟩ := answered
  obtain ⟨-, whenDue, -⟩ := r.evaluate_resolveAt_call answers store options tokenId left policed reached calls deployed
  obtain ⟨whenRead, -⟩ := whenDue due texts s' gathered
  have outcome := whenRead v (answer ▸ reads _)
  -- The record of the call is the last one to reach the store, so it is the one that is found there.
  refine ⟨congrArg Prod.fst outcome,
    ⟨contract, a.name, r.definition.cacheTokenId a.name tokenId, Resolved.rawText a v, r.clock⟩, ?_, ?_⟩
  · simp only [outcome, Pass.flushed, List.foldl_append, List.foldl_cons, List.foldl_nil]
    exact Store.find?_put_self _ ⟨contract, a.name, _, _, r.clock⟩
  · rintro later answers' store' options' left' s₁ same ⟨reached', listed, policy', policed', spared⟩
    rw [← listed] at spared
    obtain ⟨record, listed', called⟩ := later.evaluate_fromCall_of_not_due answers' store' options' tokenId
      (later.resolveAt options' tokenId left') s₁ policed' deployed spared
    obtain rfl := Option.some.inj (listed.symm.trans listed')
    exact later.evaluate_resolveAt_of_fromCall answers' store' options' tokenId reached' calls called

/-- A word is the number that it is. -/
theorem IsAnswered.givesBoth {t : Abi.Ty} {w : Word}
    (answered : r.IsAnswered answers store options tokenId left a f contract w.bytes s) (sameKind : f.kind = a.kind)
    (carries : a.kind.Carries t w) :
    r.GivesBoth answers store options tokenId left a contract s (Resolved.ofValue a tokenId w.toNat) := by
  have typed : f.kind.wordType? = some t := sameKind ▸ carries.type_eq
  have both := answered.givesBoth_ofRaw (reads_word typed w)
  rw [Resolved.rawText_ofWord carries, Resolved.ofRaw_decimal tokenId carries] at both
  exact both

end Resolver

/-! ## A position -/

namespace Position

open Balance (token)

/-- A call without arguments that gives a value of a kind. -/
def template (k : Kind) : CallTemplate :=
  { CallTemplate.ofMethod "position" with
    contract := some ⟨none, [token]⟩
    kind := k }

/-- The attribute of that call. -/
def position (k : Kind) : Attribute :=
  { Attribute.ofName "position" with kind := k, call := some (template k) }

/-- A definition of the position alone. -/
def resolver (k : Kind) : Resolver :=
  { Balance.resolver with
    definition :=
      { Balance.resolver.definition with
        attributes := (∅ : Std.TreeMap String Attribute).insert "position" (position k) } }

/-- A store that holds nothing. -/
def bare : Store :=
  .empty "0x00000000000000000000000000000000000000bb" false

/-- A contract that always answers the same. -/
def always (data : List UInt8) : Answers :=
  fun _ _ => .bytes data

theorem isAnswered (k : Kind) (data : List UInt8) :
    (resolver k).IsAnswered (always data) bare ⟨some .useCache, .detail⟩ 7 0 (position k) (template k) token data
      ⟨.empty, [], []⟩ where
  calls := rfl
  deployed := rfl
  reached := ⟨⟨rfl, by simp [Session.result?, Session.empty], by simp [Session.local?, Session.empty]⟩, rfl, rfl⟩
  due := by
    have missing : bare.find? token (position k).name
        ((resolver k).definition.cacheTokenId (position k).name 7) = none := by
      simp [bare, Store.empty, Store.find?]
    refine ⟨.useCache, rfl, ?_⟩
    rw [missing]
    trivial
  answered := ⟨∅, ⟨.empty, [], []⟩, rfl, rfl⟩

/-- The result that the position has for the token, after its call and from the record of it. -/
abbrev IsGiven (k : Kind) (data : List UInt8) (x : Resolved) : Prop :=
  (resolver k).GivesBoth (always data) bare ⟨some .useCache, .detail⟩ 7 0 (position k) token ⟨.empty, [], []⟩ x

/-- The outcome of resolving the position in a new session. -/
def resolved (k : Kind) (answers : Answers) (store : Store) : Except ResolveError Resolved × Pass :=
  ((resolver k).resolveAt ⟨some .useCache, .detail⟩ 7 1 (position k)).evaluate answers store ⟨.empty, [], []⟩

/-- The result in the next session comes from the store that the first one leaves, without an answer. -/
theorem IsGiven.next {k : Kind} {data : List UInt8} {x : Resolved} (given : IsGiven k data x) :
    let first := resolved k (always data) bare
    (resolved k (always []) ((first.2.flushed first.1).foldl Store.put bare)).1 = .ok x := by
  intro first
  obtain ⟨record, listed, later⟩ := given.kept
  have reached : (resolver k).ComesToSource 7 Session.empty (position k) := (isAnswered k data).reached
  exact congrArg Prod.fst (later (resolver k) (always []) _ ⟨some .useCache, .detail⟩ 0 ⟨.empty, [], []⟩ rfl
    ⟨reached, listed, .useCache, rfl, by simp [UpdatePolicy.Due]⟩)

end Position

namespace Resolver

variable {r : Resolver} {answers : Answers} {store : Store} {options : ResolveOptions} {tokenId : Nat} {left : Nat}
variable {a : Attribute} {f : CallTemplate} {contract : Deployment} {s : Pass}

/-! ## Byte strings -/

/-- A word that answers the call of a byte string is shown as `0x` and the digits of some bytes: as few of the
word's last bytes as hold its number and a sign bit, or all of them after a zero if its first bit is one. So they are
the digits of the word exactly if the first bit of the word is zero and one of the next eight is not. -/
theorem shown_bytes_iff {w : Word} (kind : a.kind = .bytes) (sameKind : f.kind = .bytes)
    (answered : r.IsAnswered answers store options tokenId left a f contract w.bytes s) :
    ∃ x bytes, r.GivesBoth answers store options tokenId left a contract s x ∧
      x.text = some (Text.Hex.encode0x bytes) ∧
      List.replicate (33 - bytes.length) 0 ++ bytes = 0 :: w.bytes ∧
      bytes.length = bitLength w.toNat / 8 + 1 ∧
      (x.text = some (Text.Hex.encode0x w.bytes) ↔ 2 ^ 247 ≤ w.toNat ∧ w.toNat < 2 ^ 255) := by
  have carries : a.kind.Carries .bytes32 w := by
    rw [kind]
    exact ⟨rfl, nofun⟩
  have text : (Resolved.ofValue a tokenId w.toNat).text = some (Text.Hex.encode0x (minimalSigned w.toNat)) := by
    simp only [Resolved.ofValue, Attribute.show?, kind]
  refine ⟨_, _, answered.givesBoth (sameKind.trans kind.symm) carries, text,
    Word.replicate_append_minimalSigned w, ?_, ?_⟩
  · rw [minimalSigned_natCast, length_ofNat]
  · rw [text, Option.some_inj, Text.Hex.encode0x_inj, Word.minimalSigned_eq_bytes_iff]

end Resolver

namespace Position

/-- A word whose second bit alone is one is shown with all its digits, in both sessions. -/
theorem shown_bytes_iff_half :
    let data := (Word.ofNat (2 ^ 254)).bytes
    let first := resolved .bytes (always data) bare
    ∃ x, first.1 = .ok x ∧
      (resolved .bytes (always []) ((first.2.flushed first.1).foldl Store.put bare)).1 = .ok x ∧
      x.text = some (Text.Hex.encode0x data) := by
  intro data first
  obtain ⟨x, _, both, -, -, -, whole⟩ := Resolver.shown_bytes_iff rfl rfl (isAnswered .bytes data)
  exact ⟨x, both.fresh, IsGiven.next both, whole.2 (by decide +kernel)⟩

/-- The zeros of a small word are not shown, and a byte is shown before a word whose first bit is one. -/
theorem shown_bytes_position :
    (∃ x, IsGiven .bytes (Word.ofNat 1).bytes x ∧ x.text = some "0x01" ∧
      x.text ≠ some (Text.Hex.encode0x (Word.ofNat 1).bytes)) ∧
    (∃ x, IsGiven .bytes (Word.ofNat (2 ^ 255)).bytes x ∧
      x.text = some ("0x0080" ++ String.ofList (List.replicate 62 '0')) ∧
      x.text ≠ some (Text.Hex.encode0x (Word.ofNat (2 ^ 255)).bytes)) := by
  have given : ∀ w : Word, IsGiven .bytes w.bytes (Resolved.ofValue (position .bytes) 7 w.toNat) :=
    fun w => (isAnswered .bytes w.bytes).givesBoth rfl ⟨rfl, nofun⟩
  exact ⟨⟨_, given _, by decide +kernel, by decide +kernel⟩, ⟨_, given _, by decide +kernel, by decide +kernel⟩⟩

end Position

namespace Resolver

variable {r : Resolver} {answers : Answers} {store : Store} {options : ResolveOptions} {tokenId : Nat} {left : Nat}
variable {a : Attribute} {f : CallTemplate} {contract : Deployment} {s : Pass}

/-! ## Integers with a sign -/

/-- An integer that a contract gives as one with a sign is resolved to the number of its word, as a number without
one: to itself exactly if it is not below zero. -/
theorem shown_signed_iff {z : Int} (least : -2 ^ 255 ≤ z) (most : z < 2 ^ 255) (kind : a.kind = .signed)
    (sameKind : f.kind = .signed)
    (answered : r.IsAnswered answers store options tokenId left a f contract (Abi.encodeParams [.int z]) s) :
    ∃ x, r.GivesBoth answers store options tokenId left a contract s x ∧
      x.value = some (z % 2 ^ 256) ∧ x.text = some (Text.signedDecimal (z % 2 ^ 256)) ∧
      (x.value = some z ∧ x.text = some (Text.signedDecimal z) ↔ 0 ≤ z) := by
  have word : Abi.encodeParams [.int z] = (Word.ofInt z).bytes := Abi.encodeParams_int z
  have carries : a.kind.Carries .uint256 (Word.ofInt z) := by
    rw [kind]
    exact ⟨rfl, nofun⟩
  have number : ((Word.ofInt z).toNat : Int) = z % 2 ^ 256 := Word.natCast_toNat_ofInt z
  have both := (word ▸ answered).givesBoth (sameKind.trans kind.symm) carries
  rw [number] at both
  have text : (Resolved.ofValue a tokenId (z % 2 ^ 256)).text = some (Text.signedDecimal (z % 2 ^ 256)) := by
    simp only [Resolved.ofValue, Attribute.show?, kind]
  refine ⟨_, both, rfl, text, ?_⟩
  have value : (Resolved.ofValue a tokenId (z % 2 ^ 256)).value = some (z % 2 ^ 256) := rfl
  constructor
  · rintro ⟨same, -⟩
    rw [value, Option.some_inj] at same
    rw [← same]
    exact Int.emod_nonneg z (by decide)
  · intro nonneg
    have same : z % 2 ^ 256 = z := Int.emod_eq_of_lt nonneg (by omega)
    rw [value, text, same]
    exact ⟨rfl, rfl⟩

end Resolver

namespace Position

theorem shown_signed_iff_five :
    let data := Abi.encodeParams [.int (-5)]
    let first := resolved .signed (always data) bare
    ∃ x, first.1 = .ok x ∧
      (resolved .signed (always []) ((first.2.flushed first.1).foldl Store.put bare)).1 = .ok x ∧
      x.value = some (2 ^ 256 - 5) := by
  intro data first
  obtain ⟨x, both, value, -⟩ :=
    Resolver.shown_signed_iff (by decide) (by decide) rfl rfl (isAnswered .signed data)
  exact ⟨x, both.fresh, IsGiven.next both, value⟩

/-- A position of minus one is the largest number of a word. -/
theorem shown_signed_position :
    ∃ x, IsGiven .signed (Abi.encodeParams [.int (-1)]) x ∧ x.value = some (2 ^ 256 - 1) ∧
      x.value ≠ some (-1) ∧ x.text = some (Text.signedDecimal (2 ^ 256 - 1)) ∧ x.text ≠ some "-1" := by
  have given : IsGiven .signed (Abi.encodeParams [.int (-1)])
      (Resolved.ofValue (position .signed) 7 (Word.ofInt (-1)).toNat) := by
    have answered := isAnswered .signed (Abi.encodeParams [.int (-1)])
    rw [Abi.encodeParams_int] at answered ⊢
    exact answered.givesBoth rfl ⟨rfl, nofun⟩
  exact ⟨_, given, by decide +kernel, by decide +kernel, by decide +kernel, by decide +kernel⟩

end Position

end TokenSchema
