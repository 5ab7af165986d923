import TokenSchema.Store

/-!
# Update policies

When a kept result may stand in for a new call. A summary never waits for the node where something is
kept; otherwise the policy, the age of the record and the kind of the attribute decide.
-/

namespace TokenSchema

/-- What a value is wanted for. -/
inductive ViewKind where
  | detail
  | summary
  deriving DecidableEq, Repr

/-- When a kept result may be used. -/
inductive UpdatePolicy where
  /-- Always. -/
  | useCache
  /-- Unless the token changed after the result was fetched. -/
  | updateIfRequired
  /-- For summaries alone. -/
  | alwaysUpdate
  deriving DecidableEq, Repr

namespace UpdatePolicy

/-- All policies. -/
def all : List UpdatePolicy :=
  [.useCache, .updateIfRequired, .alwaysUpdate]

/-- The name of a policy. -/
def name : UpdatePolicy → String
  | .useCache => "USE_CACHE"
  | .updateIfRequired => "UPDATE_IF_REQUIRED"
  | .alwaysUpdate => "ALWAYS_UPDATE"

/-- The policy with a name. -/
def ofName? (s : String) : Option UpdatePolicy :=
  all.find? (·.name == s)

theorem ofName?_name (p : UpdatePolicy) : ofName? p.name = some p := by
  cases p <;> decide

end UpdatePolicy

/-- Whether a contract's record counts as up to date: the attribute is not about several tokens, and
the store vouches for the record or no token of the contract has changed since. -/
def Store.isCurrent (s : Store) (contract : Deployment) (a : Attribute) (r : CachedRecord) : Bool :=
  !a.isVolatile &&
    (s.vouches || !r.needsUpdate (s.lastChange contract.chainId contract.address))

/-- Whether a policy lets a kept record stand in for a new call. -/
def UpdatePolicy.accepts (p : UpdatePolicy) (view : ViewKind) (s : Store) (contract : Deployment)
    (a : Attribute) (r : CachedRecord) : Bool :=
  view == .summary ||
    match p with
    | .useCache => true
    | .updateIfRequired => s.isCurrent contract a r
    | .alwaysUpdate => false

/-- Whether a policy needs to know when a token last changed to judge a kept result. -/
def UpdatePolicy.looksUpChange (p : UpdatePolicy) (view : ViewKind) (s : Store) (a : Attribute) :
    Bool :=
  p == .updateIfRequired && view != .summary && !a.isVolatile && !s.vouches

/-- What a host asks of a resolution. -/
structure ResolveOptions where
  /-- The policy for calls; without one, an attribute that needs a call has no value. -/
  policy : Option UpdatePolicy
  view : ViewKind
  deriving DecidableEq, Repr

end TokenSchema
