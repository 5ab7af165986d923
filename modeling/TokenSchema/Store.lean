import TokenSchema.Definition

/-!
# The store

What is kept between runs: raw results by contract, attribute and token, the attributes of known
definitions, and the times at which tokens last changed. A result is found again under the key it was
put under (`find?_put_self`), and putting one disturbs no other key (`find?_put_of_ne`).
-/

namespace TokenSchema

/-- A raw result, and when it was fetched. -/
structure CachedRecord where
  contract : Deployment
  attributeName : String
  tokenId : Nat
  result : String
  /-- Seconds from the start of 1970. -/
  time : Int
  deriving DecidableEq, Repr

/-- Whether a record is older than the last change of its token. -/
def CachedRecord.needsUpdate (r : CachedRecord) (lastChange : Int) : Bool :=
  r.time < lastChange

/-- What is kept between runs. -/
structure Store where
  /-- The wallet of the user, in lower case. -/
  wallet : String
  /-- Whether every record counts as up to date. -/
  vouches : Bool
  records : Std.TreeMap String CachedRecord
  attributes : Std.TreeMap String (Std.TreeMap String Attribute)
  changes : Std.TreeMap String Int

namespace Store

/-- A store that holds nothing. -/
def empty (wallet : String) (vouches : Bool) : Store :=
  ⟨Text.lowercase wallet, vouches, ∅, ∅, ∅⟩

/-! ## Records -/

/-- The key of a record: chain, address, attribute and token, with colons between them. -/
def recordKey (contract : Deployment) (attributeName : String) (tokenId : Nat) : String :=
  contract.text ++ ":" ++ attributeName ++ ":" ++ Text.decimal tokenId

/-- The key of a record. -/
def keyOf (r : CachedRecord) : String :=
  recordKey r.contract r.attributeName r.tokenId

/-- Put a record in the place of the one with the same key. -/
def put (s : Store) (r : CachedRecord) : Store :=
  { s with records := s.records.insert (keyOf r) r }

/-- The record of an attribute for a token. -/
def find? (s : Store) (contract : Deployment) (attributeName : String) (tokenId : Nat) :
    Option CachedRecord :=
  s.records.get? (recordKey contract attributeName tokenId)

/-! ## Contracts -/

/-- The key of a contract: chain and lower-case address. -/
def contractKey (chainId : Nat) (address : String) : String :=
  (Deployment.ofAddress chainId address).text

/-- Make the attributes of a definition known for all deployments of its holding contract. -/
def register (s : Store) (d : Definition) : Store :=
  match d.holdingContract? with
  | none => s
  | some contract =>
      { s with
        attributes := contract.deployments.foldl (fun table deployment =>
          let key := contractKey deployment.chainId deployment.address
          let known := (table.get? key).getD ∅
          table.insert key (d.attributes.foldl (fun acc name a => acc.insert name a) known))
          s.attributes }

/-- A known attribute of a contract. -/
def attribute? (s : Store) (contract : Deployment) (name : String) : Option Attribute :=
  (s.attributes.get? (contractKey contract.chainId contract.address)).bind (·.get? name)

/-- Set the time at which the tokens of a contract last changed. -/
def setLastChange (s : Store) (chainId : Nat) (address : String) (time : Int) : Store :=
  { s with changes := s.changes.insert (contractKey chainId address) time }

/-- The time at which the tokens of a contract last changed; the start of 1970 if none is known. -/
def lastChange (s : Store) (chainId : Nat) (address : String) : Int :=
  (s.changes.get? (contractKey chainId address)).getD 0

/-! ## Laws -/

theorem find?_put_self (s : Store) (r : CachedRecord) :
    (s.put r).find? r.contract r.attributeName r.tokenId = some r := by
  simp [put, find?, keyOf]

theorem find?_put_of_ne (s : Store) (r : CachedRecord) (contract : Deployment) (name : String)
    (tokenId : Nat) (h : keyOf r ≠ recordKey contract name tokenId) :
    (s.put r).find? contract name tokenId = s.find? contract name tokenId := by
  simp [put, find?, Std.TreeMap.getElem?_insert, h]

end Store

end TokenSchema
