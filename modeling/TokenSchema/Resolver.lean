import TokenSchema.Document.Reader
import TokenSchema.Resolution
import TokenSchema.Schedule

/-!
# Resolving

The questions that a host asks of a definition: the value of an attribute for a token, of all its
attributes, or of one for several tokens, and the filter for the logs of an attribute.
-/

namespace TokenSchema

namespace Resolver

/-- The way in which the resolver makes requests of a node. -/
def exchange (r : Resolver) (node : Node) : Exchange :=
  ⟨node, r.settings.coalesce⟩

/-- The largest number of steps of one resolution. It comes to each attribute once, and beyond that to
as many as references may nest. Each takes at most three uses of the store, a shared request with its
answer, and a write. -/
def stepLimit (r : Resolver) : Nat :=
  6 * (r.definition.attributes.size + r.settings.maxDepth + 3)

/-- The number of rounds, or of turns in a line, within which so many resolutions end: every spell
brings one of them a step further, and has at most so many turns unless one of them ends. -/
def turnLimit (r : Resolver) (count : Nat) : Nat :=
  (count + 1) * (count + 1) * (r.stepLimit + 3)

/-- Resolve an attribute. -/
def resolve (r : Resolver) (node : Node) (options : ResolveOptions) (a : Attribute) (tokenId : Nat)
    (h : Host) : Except ResolveError Resolved × Host :=
  (r.exchange node).runAll (r.resolution options tokenId a) h

/-- Resolve an attribute, unless the user gives up. -/
def resolveCancellable (r : Resolver) (node : Node) (options : ResolveOptions) (a : Attribute)
    (tokenId : Nat) (h : Host) : Except ResolveError Resolved × Host :=
  (r.exchange node).runCancellable a.name (r.resolution options tokenId a) h

/-- Resolve a declared attribute; one that is not declared has no result. -/
def resolveNamed (r : Resolver) (node : Node) (options : ResolveOptions) (name : String)
    (tokenId : Nat) (h : Host) : Except ResolveError (Option Resolved) × Host :=
  match r.definition.attributes.get? name with
  | none => (.ok none, h)
  | some a =>
      let (result, h) := r.resolve node options a tokenId h
      (result.map some, h)

/-- Resolve several attributes together, each for a token; the first error in order is the result. -/
def resolveTogether (r : Resolver) (node : Node) (options : ResolveOptions)
    (wanted : List (Attribute × Nat)) (h : Host) : Except ResolveError (List Resolved) × Host :=
  let (results, h) := (r.exchange node).runTogether (r.turnLimit wanted.length)
    (wanted.map fun (a, tokenId) => r.resolution options tokenId a) h
  (results.mapM id, h)

/-- Resolve all declared attributes for a token, in the order of their names. -/
def resolveAll (r : Resolver) (node : Node) (options : ResolveOptions) (tokenId : Nat) (h : Host) :
    Except ResolveError (List Resolved) × Host :=
  r.resolveTogether node options (r.definition.attributes.values.map (·, tokenId)) h

/-- Resolve an attribute for several tokens. -/
def resolveTokens (r : Resolver) (node : Node) (options : ResolveOptions) (a : Attribute)
    (tokenIds : List Nat) (h : Host) : Except ResolveError (List Resolved) × Host :=
  r.resolveTogether node options (tokenIds.map (a, ·)) h

end Resolver

/-- The filter for the logs of an attribute about some tokens; none for an attribute without event. -/
def Definition.logFilter (d : Definition) (store : Store) (name : String) (tokenIds : List Nat) :
    Except ResolveError (Option LogFilter) :=
  match (d.attributes.get? name).bind (·.event) with
  | none => .ok none
  | some e => e.filterFor store tokenIds

/-- Make the attributes of a definition known to the store of a host, for all deployments of its
holding contract. -/
def Definition.registerOn (d : Definition) (h : Host) : Host :=
  match d.holdingContract? with
  | none => h
  | some _ => h.access.withStore (·.register d)

/-- The filter for the logs of an attribute, and the host after the uses of its store. -/
def Definition.logFilterOn (d : Definition) (h : Host) (name : String) (tokenIds : List Nat) :
    Except ResolveError (Option LogFilter) × Host :=
  let event := (d.attributes.get? name).bind (·.event)
  (d.logFilter h.store name tokenIds,
    h.accesses ((event.map (·.filterLookups h.store tokenIds)).getD 0))

/-- Read a document and resolve one of its attributes for a token in a new session. -/
def resolveDocument (settings : Settings) (clock : Int) (node : Node) (options : ResolveOptions)
    (document name : String) (tokenId : Nat) (h : Host) : Except Error (Option Resolved) × Host :=
  match Document.readWith document settings with
  | .error e => (.error e, h)
  | .ok definition =>
      let (result, h) := Resolver.resolveNamed ⟨definition, settings, clock⟩ node options name tokenId
        { h with session := .empty }
      (result.mapError .resolve, h)

end TokenSchema
