import TokenSchema.LogFilter

/-!
# Nodes

What a node of a chain is asked, what it answers, and a node that answers from a table of rules.
-/

namespace TokenSchema

/-- What a node is asked. -/
inductive Request where
  /-- The answer of a contract to some call data. -/
  | call (contract : Deployment) (data : List UInt8)
  /-- The logs that pass a filter. -/
  | logs (filter : LogFilter)
  deriving DecidableEq, Repr

/-- Why a node gives no answer. -/
inductive NodeFault where
  | transport (what : String)
  | refused (code : Int) (what : String)
  | unsupportedChain (chainId : Nat)
  deriving DecidableEq, Repr

/-- The wording of a fault. -/
def NodeFault.message : NodeFault → String
  | .transport what => "transport error: " ++ what
  | .refused code what => "rpc error " ++ Text.signedDecimal code ++ ": " ++ what
  | .unsupportedChain chainId => "no provider for chain " ++ Text.decimal chainId

/-- What a node answers. -/
inductive Answer where
  | bytes (data : List UInt8)
  | logs (entries : List LogEntry)
  | fault (cause : NodeFault)
  deriving DecidableEq, Repr

/-- The fault that an answer is. -/
def Answer.fault? : Answer → Option NodeFault
  | .fault cause => some cause
  | _ => none

/-- A node: its answers, the requests that make the host give up, and whether it takes its time over
an answer. -/
structure Node where
  reply : Request → Answer
  cancels : Request → Bool
  pauses : Bool

/-! ## Nodes with rules -/

/-- What a node does when asked: its answer, and whether the host gives up at that moment. -/
structure Rule where
  answer : Answer
  cancels : Bool
  deriving DecidableEq, Repr

/-- A node that answers from a table. -/
structure RuleTable where
  /-- The rules for calls, by selector; the first one that fits counts. -/
  calls : List (List UInt8 × Rule)
  /-- The rule for every question for logs. -/
  logs : Rule
  /-- Whether a call with an argument is answered by that argument. -/
  echoes : Bool
  deriving DecidableEq, Repr

namespace RuleTable

/-- A table without rules: calls are refused, and there are no logs. -/
def empty (echoes : Bool) : RuleTable :=
  ⟨[], ⟨.logs [], false⟩, echoes⟩

/-- The rule for call data that no other rule fits. -/
def refusal : Rule :=
  ⟨.fault (.refused (-32000) "execution reverted"), false⟩

/-- The rule for a request. -/
def ruleFor (t : RuleTable) : Request → Rule
  | .call _ data => (t.calls.lookup (data.take 4)).getD refusal
  | .logs _ => t.logs

/-- The answer to a request. -/
def reply (t : RuleTable) (q : Request) : Answer :=
  match q with
  | .call _ data =>
      if t.echoes && 36 ≤ data.length then .bytes ((data.drop 4).take 32)
      else (t.ruleFor q).answer
  | .logs _ => (t.ruleFor q).answer

/-- Put rules in the place of those for the same selectors. -/
def addCalls (t : RuleTable) (rules : List (List UInt8 × Rule)) : RuleTable :=
  { t with calls := rules ++ t.calls.filter fun r => (rules.lookup r.1).isNone }

/-- The node that answers from the table. -/
def node (t : RuleTable) (pauses : Bool) : Node :=
  ⟨t.reply, fun q => (t.ruleFor q).cancels, pauses⟩

end RuleTable

end TokenSchema
