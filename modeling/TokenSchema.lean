import TokenSchema.Abi.Basic
import TokenSchema.Abi.Coerce
import TokenSchema.Abi.Decode
import TokenSchema.Abi.Encode
import TokenSchema.Abi.Error
import TokenSchema.Abi.Keccak
import TokenSchema.Amount
import TokenSchema.Attribute.Basic
import TokenSchema.Attribute.Kind
import TokenSchema.Attribute.Text
import TokenSchema.Bytes.BigEndian
import TokenSchema.Bytes.Block
import TokenSchema.Calendar
import TokenSchema.Call
import TokenSchema.CallTemplate
import TokenSchema.Card
import TokenSchema.Contract
import TokenSchema.Definition
import TokenSchema.Document.Attestations
import TokenSchema.Document.Attributes
import TokenSchema.Document.Cards
import TokenSchema.Document.Localised
import TokenSchema.Document.NamedTypes
import TokenSchema.Document.Reader
import TokenSchema.Document.Sources
import TokenSchema.Error
import TokenSchema.EventSource
import TokenSchema.Host
import TokenSchema.InFlight
import TokenSchema.Json.Basic
import TokenSchema.Json.Codec
import TokenSchema.Json.Reader
import TokenSchema.Json.Record
import TokenSchema.Log
import TokenSchema.LogFilter
import TokenSchema.Markup.Character
import TokenSchema.Markup.Html
import TokenSchema.Markup.Node
import TokenSchema.Markup.Prolog
import TokenSchema.Markup.Reference
import TokenSchema.Markup.Scanner
import TokenSchema.Markup.Token
import TokenSchema.Markup.Tree
import TokenSchema.NamedType
import TokenSchema.Node
import TokenSchema.Policy
import TokenSchema.Process
import TokenSchema.Proofs.Abi.Layout
import TokenSchema.Proofs.Abi.Membership
import TokenSchema.Proofs.Abi.Word
import TokenSchema.Proofs.Process.Course
import TokenSchema.Proofs.Process.Evaluation
import TokenSchema.Resolution
import TokenSchema.Resolved
import TokenSchema.Resolver
import TokenSchema.Schedule
import TokenSchema.Schema.Date
import TokenSchema.Schema.Namespace
import TokenSchema.Session
import TokenSchema.Settings
import TokenSchema.Store
import TokenSchema.Text.Blank
import TokenSchema.Text.CaseTable
import TokenSchema.Text.Hex
import TokenSchema.Text.Lowercase
import TokenSchema.Text.Numeral
import TokenSchema.Text.Utf8
import TokenSchema.Proofs.Resolution.CallDecision
import TokenSchema.Proofs.Call.Arguments
import TokenSchema.Proofs.Process.Lockstep
import TokenSchema.Proofs.Resolution.Readings
import TokenSchema.Proofs.Resolution.TokenBlind
import TokenSchema.Proofs.Document.Names
import TokenSchema.Proofs.Session.Growth
import TokenSchema.Proofs.Resolution.Progress
import TokenSchema.Proofs.Resolution.Stability
import TokenSchema.Proofs.Resolution.Persistence
import TokenSchema.Proofs.Resolution.OwnResult
import TokenSchema.Proofs.Resolution.Order
import TokenSchema.Proofs.Text.Numeral
import TokenSchema.Proofs.Text.Separator
import TokenSchema.Proofs.Bytes.Minimal
import TokenSchema.Proofs.Bytes.Signed
import TokenSchema.Proofs.InFlight.CallKey
import TokenSchema.Proofs.InFlight.Traffic
import TokenSchema.Proofs.InFlight.Coalescing
import TokenSchema.Proofs.InFlight.Leftover
import TokenSchema.Proofs.InFlight.Turns
import TokenSchema.Proofs.Call.WordText
import TokenSchema.Proofs.Resolution.CarriedWord
import TokenSchema.Proofs.Event.SelectedValue
import TokenSchema.Proofs.Attribute.Mask
import TokenSchema.Proofs.Attribute.Members
import TokenSchema.Proofs.Document.Members
import TokenSchema.Proofs.Document.CallTargets
import TokenSchema.Proofs.Document.Mapping
import TokenSchema.Proofs.Resolution.Outcome
import TokenSchema.Proofs.Resolution.Labels
import TokenSchema.Proofs.Event.Filter
import TokenSchema.Proofs.Process.Steps
import TokenSchema.Proofs.Resolution.Depth
import TokenSchema.Proofs.Resolution.Aliases
import TokenSchema.Proofs.Process.Delivery
import TokenSchema.Proofs.Resolution.Belonging
import TokenSchema.Proofs.Resolution.StandingIn
import TokenSchema.Proofs.Markup.Spelling
import TokenSchema.Proofs.Markup.PageText
import TokenSchema.Proofs.Document.Registering
import TokenSchema.Proofs.Json.Lexical
import TokenSchema.Proofs.Json.Reading
import TokenSchema.Proofs.Json.Records
import TokenSchema.Proofs.Store.Keys
import TokenSchema.Proofs.Amount.Scaling
import TokenSchema.Proofs.Event.Key
import TokenSchema.Proofs.Event.Latest
import TokenSchema.Proofs.Document.Kinds
import TokenSchema.Proofs.Text.Utf8
import TokenSchema.Proofs.Text.Blank
import TokenSchema.Proofs.Amount.Rendering
import TokenSchema.Proofs.Attribute.TypedAmount
import TokenSchema.Proofs.Attribute.TypedBytes
import TokenSchema.Proofs.Call.ForeignDigits
import TokenSchema.Proofs.Abi.Bounds
import TokenSchema.Proofs.Resolution.ShownWord
import TokenSchema.Proofs.Resolution.LiteralArgument
import TokenSchema.Proofs.Abi.WordRange
import TokenSchema.Proofs.Schema.Namespace
import TokenSchema.Proofs.Text.Digits
import TokenSchema.Proofs.Calendar.Gregorian
import TokenSchema.Proofs.Calendar.TimeText
import TokenSchema.Proofs.Attribute.ShownBytes
import TokenSchema.Proofs.Card.Brackets
import TokenSchema.Proofs.Contract.Deployments
import TokenSchema.Proofs.Document.Localised
import TokenSchema.Proofs.Abi.NumberWord
import TokenSchema.Proofs.Document.Sessions
import TokenSchema.Proofs.InFlight.Calls
