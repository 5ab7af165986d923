import TokenSchema.Abi.Decode
import TokenSchema.EventSource

/-!
# Logs

The logs of events: which of several is the latest, and the value of the field that an event selects.
-/

namespace TokenSchema

open TokenSchema.Bytes

/-- A log of a contract. -/
structure LogEntry where
  address : String
  topics : List Word
  data : List UInt8
  block : Nat
  index : Nat
  deriving DecidableEq, Repr

namespace LogEntry

/-- Whether a log comes no later than another. -/
def notAfter (a b : LogEntry) : Bool :=
  a.block < b.block || (a.block == b.block && a.index ≤ b.index)

/-- The latest of several logs; the last one listed among equals. -/
def latest? : List LogEntry → Option LogEntry
  | [] => none
  | l :: rest => some (rest.foldl (fun best log => if best.notAfter log then log else best) l)

end LogEntry

/-- The value of a field that stands in a topic; one without fixed size stands there as its hash. -/
def Abi.Ty.ofTopic (t : Abi.Ty) (topic : Word) : Abi.Value :=
  t.ofWord topic

namespace EventSource

/-- The value of the field that an event selects, read from a log. -/
def selectValue? (e : EventSource) (log : LogEntry) : Option Abi.Value := do
  let name ← e.select
  let field ← e.type.field? name
  let type ← Abi.lookup field.typeName
  let position ← e.type.position? field.indexed name
  if field.indexed then
    let topic ← log.topics[position + 1]?
    return type.ofTopic topic
  else
    match Abi.decodeParams e.type.dataTypes log.data with
    | .ok values => values[position]?
    | .error _ => none

end EventSource

end TokenSchema
