import TokenSchema.Json.Reader
import TokenSchema.Json.Record
import TokenSchema.LogFilter
import TokenSchema.Policy
import TokenSchema.Resolved
import TokenSchema.Settings

/-!
# Records as JSON

The written form of settings, contracts, log filters, kept and resolved results, and the reading of it.
A field that may be absent is written as null, except for the interface of a contract and the last block
of a filter, which are left out.
-/

namespace TokenSchema

/-! ## Names -/

/-- The kind with the name that a value gives. -/
def Kind.ofJson? (j : Json) : Option Kind :=
  j.name?.bind Kind.ofName?

/-- The form with the name that a value gives. -/
def Form.ofJson? (j : Json) : Option Form :=
  j.name?.bind Form.ofName?

/-- The written form of a policy: its name. -/
def UpdatePolicy.toJson (p : UpdatePolicy) : Json :=
  .string p.name

/-- The policy with the name that a value gives. -/
def UpdatePolicy.ofJson? (j : Json) : Option UpdatePolicy :=
  j.name?.bind UpdatePolicy.ofName?

/-- The written form of a text that may be absent. -/
def Json.ofText? (s : Option String) : Json :=
  (s.map .string).getD .null

/-- The written form of a natural number below a bound. -/
def Json.ofWord (n : Nat) : Json :=
  .integer n

/-! ## Contracts -/

namespace Deployment

/-- The written form of a deployment. -/
def toJson (d : Deployment) : Json :=
  .object [("chainId", .ofWord d.chainId), ("address", .string d.address)]

/-- The deployment in a value; its address may be in any case. -/
def ofJson? (j : Json) : Option Deployment := do
  match ← j.fieldsOf? ["chainId", "address"] 2 with
  | [chainId, address] =>
      return { chainId := ← Json.required Json.word64? chainId
               address := ← Json.required Json.text? address }
  | _ => none

end Deployment

namespace Contract

/-- The written form of a contract. -/
def toJson (c : Contract) : Json :=
  let interface := match c.interface with
    | some name => [("interface", .string name)]
    | none => []
  .object (interface ++ [("addresses", .array (c.deployments.map Deployment.toJson))])

/-- The contract in a value; one without a list of deployments has none. -/
def ofJson? (j : Json) : Option Contract := do
  match ← j.fieldsOf? ["interface", "addresses"] 1 with
  | [interface, addresses] =>
      return { interface := ← Json.optional Json.text? interface
               deployments :=
                 ← Json.withDefault [] (Json.list? Deployment.ofJson?) addresses }
  | _ => none

end Contract

/-! ## Log filters -/

namespace Topic

/-- The written form of a condition: null for any topic, one topic, or a list of them. -/
def toJson : Topic → Json
  | .any => .null
  | .exactly topic => .string topic
  | .oneOf topics => .array (topics.map .string)

/-- The condition in a value. -/
def ofJson? : Json → Option Topic
  | .null => some .any
  | .string topic => some (.exactly topic)
  | j => (j.list? Json.text?).map .oneOf

end Topic

namespace LogFilter

/-- The written form of a filter. -/
def toJson (f : LogFilter) : Json :=
  let toBlock := match f.toBlock with
    | some block => [("toBlock", .ofWord block)]
    | none => []
  .object ([("chainId", .ofWord f.chainId), ("address", .string f.address),
    ("fromBlock", .ofWord f.fromBlock)] ++ toBlock ++
    [("topics", .array (f.topics.map Topic.toJson))])

/-- The filter in a value. -/
def ofJson? (j : Json) : Option LogFilter := do
  match ← j.fieldsOf? ["chainId", "address", "fromBlock", "toBlock", "topics"] 5 with
  | [chainId, address, fromBlock, toBlock, topics] =>
      return { chainId := ← Json.required Json.word64? chainId
               address := ← Json.required Json.text? address
               fromBlock := ← Json.required Json.word64? fromBlock
               toBlock := ← Json.optional Json.word64? toBlock
               topics := ← Json.required (Json.list? Topic.ofJson?) topics }
  | _ => none

end LogFilter

/-! ## Results -/

namespace CachedRecord

/-- The written form of a kept result. -/
def toJson (r : CachedRecord) : Json :=
  .object [("contract", r.contract.toJson), ("attribute", .string r.attributeName),
    ("tokenId", .ofNatural r.tokenId), ("result", .string r.result), ("resultTime", .integer r.time)]

/-- The kept result in a value. -/
def ofJson? (j : Json) : Option CachedRecord := do
  match ← j.fieldsOf? ["contract", "attribute", "tokenId", "result", "resultTime"] 5 with
  | [contract, name, tokenId, result, time] =>
      return { contract := ← Json.required Deployment.ofJson? contract
               attributeName := ← Json.required Json.text? name
               tokenId := ← Json.required Json.large? tokenId
               result := ← Json.required Json.text? result
               time := ← Json.required Json.int64? time }
  | _ => none

end CachedRecord

namespace Resolved

/-- The written form of a resolved attribute. -/
def toJson (r : Resolved) : Json :=
  .object [("id", .string r.id), ("name", .string r.label), ("tokenId", .ofNatural r.tokenId),
    ("value", (r.value.map Json.ofInteger).getD .null), ("text", .ofText? r.text),
    ("syntax", .string r.form.name), ("as", .string r.kind.name), ("userInput", .bool r.userInput)]

/-- The names of the fields of a resolved attribute. -/
def fieldNames : List String :=
  ["id", "name", "tokenId", "value", "text", "syntax", "as", "userInput"]

/-- The resolved attribute in a value. -/
def ofJson? (j : Json) : Option Resolved := do
  match ← j.fieldsOf? fieldNames 8 with
  | [id, label, tokenId, value, text, form, kind, userInput] =>
      return { id := ← Json.required Json.text? id
               label := ← Json.required Json.text? label
               tokenId := ← Json.required Json.large? tokenId
               value := ← Json.optional Json.largeInteger? value
               text := ← Json.optional Json.text? text
               form := ← Json.required Form.ofJson? form
               kind := ← Json.required Kind.ofJson? kind
               userInput := ← Json.required Json.flag? userInput }
  | _ => none

end Resolved

/-- The written form of a value as a page takes it. -/
def ViewValue.toJson : ViewValue → Json
  | .absent => .null
  | .flag b => .bool b
  | .number z => .integer z
  | .text s => .string s

/-! ## Settings -/

namespace Settings

/-- The written form of settings. -/
def toJson (s : Settings) : Json :=
  .object [("locale", .string s.locale), ("coalesceInFlight", .bool s.coalesce),
    ("maxReferenceDepth", .ofWord s.maxDepth), ("minimumSchema", .string s.minimumSchema),
    ("currentSchema", .string s.currentSchema)]

/-- The names of the fields of settings. -/
def fieldNames : List String :=
  ["locale", "coalesceInFlight", "maxReferenceDepth", "minimumSchema", "currentSchema"]

/-- The settings in a value; what is left out stays as it is by standard. -/
def ofJson? (j : Json) : Option Settings := do
  match ← j.fieldsOf? fieldNames 0 with
  | [locale, coalesce, maxDepth, minimum, current] =>
      return { locale := ← Json.withDefault standard.locale Json.text? locale
               coalesce := ← Json.withDefault standard.coalesce Json.flag? coalesce
               maxDepth := ← Json.withDefault standard.maxDepth Json.word64? maxDepth
               minimumSchema := ← Json.withDefault standard.minimumSchema Json.text? minimum
               currentSchema := ← Json.withDefault standard.currentSchema Json.text? current }
  | _ => none

/-- The settings in a text, which a reader must be able to use. -/
def read (text : String) : Except SettingsError Settings :=
  match (Json.read text).bind ofJson? with
  | none => .error .unreadable
  | some s => s.readerOptions.map fun _ => s

end Settings

end TokenSchema
