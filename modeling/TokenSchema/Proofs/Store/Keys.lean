import Mathlib.Data.List.Induction
import TokenSchema.Proofs.Json.Records
import TokenSchema.Proofs.Text.Separator

/-!
# Keys of the store — which record is found again

A record is kept under one text, made of chain, address, attribute and token with colons between them. The chain and
the token are digits and the address of a contract has no colon, so the text tells all four apart, whatever the name of
the attribute (`Store.recordKey_inj`). A store in which records have been put therefore gives the last one for what it
is asked for (`Store.find?_foldl_put_eq_last`).

The text has the address as the record spells it. A deployment that is made from an address spells it in lower case,
but one that is read from JSON keeps the spelling it comes with. So a record that is read is found only if its
address is spelled in lower case (`Store.find?_put_read_iff`).
-/

namespace TokenSchema

namespace CachedRecord

/-- What a record is a result of: an attribute of a contract, for a token. -/
def IsOf (r : CachedRecord) (contract : Deployment) (name : String) (tokenId : Nat) : Prop :=
  r.contract = contract ∧ r.attributeName = name ∧ r.tokenId = tokenId

instance (r : CachedRecord) (contract : Deployment) (name : String) (tokenId : Nat) :
    Decidable (r.IsOf contract name tokenId) :=
  inferInstanceAs (Decidable (_ ∧ _ ∧ _))

end CachedRecord

/-- No colon stands in the address of a deployment. -/
def Deployment.NoColon (d : Deployment) : Prop :=
  ':' ∉ d.address.toList

namespace Store

variable {contract contract' : Deployment} {name name' : String} {tokenId tokenId' : Nat}

/-! ## Keys -/

theorem toList_recordKey (contract : Deployment) (name : String) (tokenId : Nat) :
    (recordKey contract name tokenId).toList =
      Nat.toDigits 10 contract.chainId ++ ':' ::
        (contract.address.toList ++ ':' :: (name.toList ++ ':' :: Nat.toDigits 10 tokenId)) := by
  simp [recordKey, Deployment.text, Text.toList_decimal]

/-- The first two colons end the chain and the address, and the last one begins the token. -/
theorem recordKey_inj (plain : contract.NoColon) (plain' : contract'.NoColon) :
    recordKey contract name tokenId = recordKey contract' name' tokenId' ↔
      contract = contract' ∧ name = name' ∧ tokenId = tokenId' := by
  constructor
  · intro same
    have chars := congrArg String.toList same
    rw [toList_recordKey, toList_recordKey] at chars
    obtain ⟨chain, rest⟩ := append_separator_inj (Text.colon_notMem_toDigits _) (Text.colon_notMem_toDigits _) chars
    obtain ⟨address, rest⟩ := append_separator_inj plain plain' rest
    obtain ⟨named, token⟩ :=
      append_last_separator_inj (Text.colon_notMem_toDigits _) (Text.colon_notMem_toDigits _) rest
    refine ⟨?_, String.toList_injective named, Text.toDigits_injective token⟩
    cases contract
    cases contract'
    exact congrArg₂ Deployment.mk (Text.toDigits_injective chain) (String.toList_injective address)
  · rintro ⟨rfl, rfl, rfl⟩
    rfl

/-- Keys that differ in the address alone differ, whatever the addresses. -/
theorem recordKey_address_inj {chainId : Nat} {address address' : String} :
    recordKey ⟨chainId, address⟩ name tokenId = recordKey ⟨chainId, address'⟩ name tokenId ↔ address = address' := by
  constructor
  · intro same
    have chars := congrArg String.toList same
    rw [toList_recordKey, toList_recordKey] at chars
    have addresses := List.append_cancel_right (List.cons.inj (List.append_cancel_left chars)).2
    exact String.toList_injective addresses
  · rintro rfl
    rfl

/-! ## Records put in a store -/

theorem find?_put (s : Store) (r : CachedRecord) :
    (s.put r).find? contract name tokenId =
      if keyOf r = recordKey contract name tokenId then some r else s.find? contract name tokenId := by
  split
  · rename_i same
    simp [put, find?, same]
  · rename_i other
    exact find?_put_of_ne s r contract name tokenId other

/-- Of the records put in a store the last one with the key is found; without any, what was there before. -/
theorem find?_foldl_put (s : Store) (rs : List CachedRecord) :
    (rs.foldl put s).find? contract name tokenId =
      ((rs.filter fun r => keyOf r = recordKey contract name tokenId).getLast?).or
        (s.find? contract name tokenId) := by
  induction rs using List.reverseRecOn with
  | nil => rfl
  | append_singleton rs r ih =>
      rw [List.foldl_append, List.foldl_cons, List.foldl_nil, find?_put, ih, List.filter_append]
      by_cases same : keyOf r = recordKey contract name tokenId
      · simp [same]
      · simp [same]

theorem find?_empty (wallet : String) (vouches : Bool) : (empty wallet vouches).find? contract name tokenId = none := by
  simp [empty, find?]

/-- Of the records put in an empty store the last one for a contract, an attribute and a token is found under them,
and nothing if there was none; and a record changes only what is found for its own contract, attribute and token.
The names of attributes may have colons, addresses may not. -/
theorem find?_foldl_put_eq_last (wallet : String) (vouches : Bool) (rs : List CachedRecord)
    (plainRecords : ∀ r ∈ rs, r.contract.NoColon) (contract : Deployment) (plain : contract.NoColon) (name : String)
    (tokenId : Nat) :
    (rs.foldl put (empty wallet vouches)).find? contract name tokenId =
        (rs.filter fun r => r.IsOf contract name tokenId).getLast? ∧
      ∀ r : CachedRecord, r.contract.NoColon → ¬ r.IsOf contract name tokenId →
        ((rs ++ [r]).foldl put (empty wallet vouches)).find? contract name tokenId =
          (rs.foldl put (empty wallet vouches)).find? contract name tokenId := by
  constructor
  · rw [find?_foldl_put, find?_empty, Option.or_none]
    congr 1
    apply List.filter_congr
    intro r member
    exact decide_eq_decide.2 (recordKey_inj (plainRecords r member) plain)
  · intro r plainRecord other
    rw [List.foldl_append, List.foldl_cons, List.foldl_nil, find?_put, if_neg]
    exact fun same => other ((recordKey_inj plainRecord plain).1 same)

end Store

/-! ## Levels -/

namespace Levels

/-- The address of the levels in lower case. -/
def low : String :=
  "0x00000000000000000000000000000000000000aa"

/-- A record of a level, with a spelling of the address. -/
def record (address name : String) (tokenId : Nat) (result : String) : CachedRecord :=
  ⟨⟨1, address⟩, name, tokenId, result, 1700000000⟩

/-- Two records of one level, and between them that of an attribute whose name has a colon. -/
def records : List CachedRecord :=
  [record low "level" 3 "9", record low "level:3" 3 "7", record low "level" 3 "10"]

/-- The level of the token has been put in twice, and the second record is found. That of the token 33 changes
nothing about it. -/
theorem find?_foldl_put_eq_last_levels :
    (∀ r ∈ records, r.contract.NoColon) ∧ (⟨1, low⟩ : Deployment).NoColon ∧
      (records.foldl Store.put (.empty "" false)).find? ⟨1, low⟩ "level" 3 = some (record low "level" 3 "10") ∧
      ¬ (record low "level" 33 "1").IsOf ⟨1, low⟩ "level" 3 ∧
      ((records ++ [record low "level" 33 "1"]).foldl Store.put (.empty "" false)).find? ⟨1, low⟩ "level" 3 =
        (records.foldl Store.put (.empty "" false)).find? ⟨1, low⟩ "level" 3 := by
  have plain : (⟨1, low⟩ : Deployment).NoColon := by
    simp [Deployment.NoColon, low]
  have plainRecords : ∀ r ∈ records, r.contract.NoColon := by
    intro r member
    simp only [records, List.mem_cons, List.not_mem_nil, or_false] at member
    rcases member with rfl | rfl | rfl <;> exact plain
  have other : ¬ (record low "level" 33 "1").IsOf ⟨1, low⟩ "level" 3 := by
    decide
  obtain ⟨last, unchanged⟩ :=
    Store.find?_foldl_put_eq_last "" false records plainRecords ⟨1, low⟩ plain "level" 3
  exact ⟨plainRecords, plain, last, other, unchanged _ plain other⟩

end Levels

namespace Store

/-! ## Records read from JSON -/

/-- What is found under a key was put there under that key. -/
theorem keyOf_of_find?_foldl_put {wallet : String} {vouches : Bool} {rs : List CachedRecord} {r : CachedRecord}
    (found : (rs.foldl put (empty wallet vouches)).find? contract name tokenId = some r) :
    keyOf r = recordKey contract name tokenId := by
  rw [find?_foldl_put, find?_empty, Option.or_none] at found
  exact of_decide_eq_true (List.mem_filter.1 (List.mem_of_getLast? found)).2

/-- A record that is read from JSON has its address as it is spelled there, and any spelling can be read. When the
record has been put in a store, it is found for the deployments made from the spellings of its address exactly if it
is spelled in lower case itself; otherwise they find what they found before. -/
theorem find?_put_read_iff (wallet : String) (vouches : Bool) (rs : List CachedRecord) (text : String)
    (r : CachedRecord) (read : (Json.read text).bind CachedRecord.ofJson? = some r) :
    (∀ address, ∃ text', (Json.read text').bind CachedRecord.ofJson? =
        some { r with contract := ⟨r.contract.chainId, address⟩ }) ∧
      ∀ spelling, Text.lowercase spelling = Text.lowercase r.contract.address →
        (((rs ++ [r]).foldl put (empty wallet vouches)).find? (.ofAddress r.contract.chainId spelling)
            r.attributeName r.tokenId = some r ↔
          Text.lowercase r.contract.address = r.contract.address) ∧
        (Text.lowercase r.contract.address ≠ r.contract.address →
          ((rs ++ [r]).foldl put (empty wallet vouches)).find? (.ofAddress r.contract.chainId spelling)
              r.attributeName r.tokenId =
            (rs.foldl put (empty wallet vouches)).find? (.ofAddress r.contract.chainId spelling)
              r.attributeName r.tokenId) := by
  constructor
  · intro address
    obtain ⟨j, -, given⟩ := Option.bind_eq_some_iff.1 read
    have within := CachedRecord.fits_of_ofJson? given
    have fits : CachedRecord.Fits { r with contract := ⟨r.contract.chainId, address⟩ } :=
      ⟨within.contract, within.least, within.most⟩
    exact ⟨_, by rw [(CachedRecord.plain_toJson _).read_render, Option.bind_some, CachedRecord.ofJson?_toJson fits]⟩
  · intro spelling same
    have keys : keyOf r = recordKey (.ofAddress r.contract.chainId spelling) r.attributeName r.tokenId ↔
        Text.lowercase r.contract.address = r.contract.address := by
      rw [← same, eq_comm (a := Text.lowercase spelling)]
      exact recordKey_address_inj
    rw [List.foldl_append, List.foldl_cons, List.foldl_nil, find?_put]
    refine ⟨⟨fun found => ?_, fun low => if_pos (keys.2 low)⟩, fun capital => if_neg (mt keys.1 capital)⟩
    split at found
    · rename_i here
      exact keys.1 here
    · -- If it is found, but not because it has just been put, it must have been put there before under its key.
      exact keys.1 (keyOf_of_find?_foldl_put found)

end Store

/-! ## Levels with capitals -/

namespace Levels

/-- The address of the levels with two capitals. -/
def capital : String :=
  "0x00000000000000000000000000000000000000AA"

theorem lowercase_low : Text.lowercase low = low := by
  decide

theorem lowercase_capital : Text.lowercase capital = low := by
  decide

theorem read_record (address : String) :
    (Json.read (record address "level" 3 "9").toJson.render).bind CachedRecord.ofJson? =
      some (record address "level" 3 "9") := by
  have fits : (record address "level" 3 "9").Fits :=
    ⟨show 1 ≤ Text.maxWord64 by decide, by simp [record, Text.maxInt64], by simp [record, Text.maxInt64]⟩
  rw [CachedRecord.plain_toJson _ |>.read_render, Option.bind_some, CachedRecord.ofJson?_toJson fits]

/-- Read with its capitals and put in a store, the record is found by neither spelling of its address. -/
theorem not_found_capital :
    (Json.read (record capital "level" 3 "9").toJson.render).bind CachedRecord.ofJson? =
        some (record capital "level" 3 "9") ∧
      ((Store.empty "" false).put (record capital "level" 3 "9")).find? (.ofAddress 1 capital) "level" 3 = none ∧
      ((Store.empty "" false).put (record capital "level" 3 "9")).find? (.ofAddress 1 low) "level" 3 = none := by
  have other : Store.keyOf (record capital "level" 3 "9") ≠ Store.recordKey ⟨1, low⟩ "level" 3 := by
    intro same
    exact absurd (Store.recordKey_address_inj.1 same) (by decide)
  refine ⟨read_record capital, ?_, ?_⟩
  · rw [Deployment.ofAddress, lowercase_capital, Store.find?_put, if_neg other, Store.find?_empty]
  · rw [Deployment.ofAddress, lowercase_low, Store.find?_put, if_neg other, Store.find?_empty]

/-- Read in lower case the record is found by the spelling with capitals; read with capitals it is not found by the
one in lower case, which still finds the record that was there. -/
theorem find?_put_read_iff_levels :
    (Json.read (record low "level" 3 "9").toJson.render).bind CachedRecord.ofJson? =
        some (record low "level" 3 "9") ∧
      Text.lowercase capital = Text.lowercase low ∧
      ((records ++ [record low "level" 3 "9"]).foldl Store.put (.empty "" false)).find? (.ofAddress 1 capital)
        "level" 3 = some (record low "level" 3 "9") ∧
      ((records ++ [record capital "level" 3 "9"]).foldl Store.put (.empty "" false)).find? (.ofAddress 1 low)
        "level" 3 = (records.foldl Store.put (.empty "" false)).find? (.ofAddress 1 low) "level" 3 := by
  have same : Text.lowercase capital = Text.lowercase low := by
    rw [lowercase_capital, lowercase_low]
  have spelled : Text.lowercase capital ≠ capital := by
    rw [lowercase_capital]
    decide
  obtain ⟨-, lowRecord⟩ := Store.find?_put_read_iff "" false records _ _ (read_record low)
  obtain ⟨-, capitalRecord⟩ := Store.find?_put_read_iff "" false records _ _ (read_record capital)
  exact ⟨read_record low, same, (lowRecord capital same).1.2 lowercase_low,
    (capitalRecord low same.symm).2 spelled⟩

end Levels

end TokenSchema
