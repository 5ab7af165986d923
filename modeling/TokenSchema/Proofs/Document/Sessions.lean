import TokenSchema.Proofs.Resolution.Order
import TokenSchema.Proofs.Resolution.Persistence

/-!
# Sessions — calls for the attributes of a document

In a definition that is read from a document every attribute is found under its own name
(`Document.wellNamed_of_readWith`). So what holds of calls for attributes that are found under their own names holds of
every document: what a session knows does not change (`Document.stable_of_readWith`), what a call has fetched is
written if and only if the call ends well (`Document.written_of_readWith`), and the order of calls does not matter for
an attribute that depends on none of the others (`Document.outcomes_of_readWith`).
-/

namespace TokenSchema
namespace Document

variable {document : String} {settings : Settings} {d : Definition}

section Calls

variable {start session session' : Session} {name : String} {tokenId : Nat}
variable {result : Except ResolveError (Option Resolved)} {requests : List (Request × Answer)}
variable {writes : List CachedRecord}

theorem stable_of_readWith (given : readWith document settings = .ok d)
    (new : ∀ name tokenId, start.result? name tokenId = none) (reached : d.Leads start session) :
    d.Stable session :=
  reached.stable (wellNamed_of_readWith given) new

/-- A call has the values of its readings. Each is written if and only if the call ends well, and in both cases it is
what later calls give for the attributes that show it. -/
theorem written_of_readWith (given : readWith document settings = .ok d)
    (new : ∀ name tokenId, start.result? name tokenId = none) (reached : d.Leads start session)
    (visit : d.Visit name tokenId session result requests writes session') :
    ∃ clock readings, d.ReadBy tokenId session' result requests writes clock readings ∧
      ∀ ρ ∈ readings, ∀ k, ρ.record? clock = some k →
        (k ∈ writes ↔ ∃ x, result = .ok x) ∧
        ∀ b, d.attributes.get? b.name = some b → d.Shows session' b ρ.asker →
          d.GivesOnly session' tokenId b ((Resolved.ofRaw ρ.asker tokenId k.result).relayedBy b) := by
  have named := wellNamed_of_readWith given
  obtain ⟨-, sound⟩ := reached.grown named (Definition.sound_of_new new)
  obtain ⟨-, sound'⟩ := visit.grown named sound
  obtain ⟨clock, readings, account⟩ := visit.readings named sound
  refine ⟨clock, readings, account, ?_⟩
  intro ρ member k read
  refine ⟨account.mem_writes_iff member read, ?_⟩
  intro b declared shown
  exact account.givesOnly member read named sound' declared shown

end Calls

/-- Reading a document and resolving one of its attributes is a call on a new session, and what that session knows then
does not change. -/
theorem stable_resolveDocument (given : readWith document settings = .ok d) (clock : Int) (node : Node)
    (options : ResolveOptions) (name : String) (tokenId : Nat) (h : Host) :
    d.Stable (resolveDocument settings clock node options document name tokenId h).2.session := by
  have new (name : String) (tokenId : Nat) : Session.empty.result? name tokenId = none := by
    simp [Session.result?, Session.empty]
  obtain ⟨requests, writes, visit, -⟩ := Definition.exists_visit_resolveNamed ⟨d, settings, clock⟩ node options
    name tokenId { h with session := .empty }
  -- One call leads from the new session to the one that is left.
  have left := stable_of_readWith given new (.single ⟨_, _, _, _, _, visit⟩)
  simp only [resolveDocument, given]
  exact left

/-- Two orders of calls in a session without results give an attribute that is self-contained the same outcome, unless
one of them runs out of references. -/
theorem outcomes_of_readWith {r : Resolver} {node : Node} {options : ResolveOptions} {tokenId : Nat} {h : Host}
    (given : readWith document settings = .ok r.definition)
    (new : ∀ name tokenId, h.session.result? name tokenId = none) {names names' : List String} {i j : Nat}
    {name : String} {a : Attribute} (listed : names[i]? = some name) (listed' : names'[j]? = some name)
    (declared : r.definition.attributes.get? name = some a)
    (contained : r.SelfContained ⟨options, tokenId, node.reply, h.session, h.store⟩ a) :
    ∃ outcome outcome', (r.outcomes node options tokenId names h)[i]? = some outcome ∧
      (r.outcomes node options tokenId names' h)[j]? = some outcome' ∧
      (TooDeep outcome ∨ TooDeep outcome' ∨ outcome = outcome') := by
  have named := wellNamed_of_readWith given
  obtain ⟨outcome, gives, own⟩ := Resolver.givesOwn_of_new named new listed declared contained
  obtain ⟨outcome', gives', own'⟩ := Resolver.givesOwn_of_new named new listed' declared contained
  exact ⟨outcome, outcome', gives, gives', own.agree own'⟩

end Document
end TokenSchema
