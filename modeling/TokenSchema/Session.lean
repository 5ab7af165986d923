import Std.Data.HashMap
import TokenSchema.Resolved

/-!
# Sessions

What the resolutions of one page share: the values that the host supplies, and the results found so
far. A result stays for the whole session.
-/

namespace TokenSchema

/-- What the resolutions of one page share. -/
structure Session where
  /-- The values that the host supplies. -/
  locals : Std.TreeMap String String
  /-- The results found so far, by attribute and token. -/
  results : Std.HashMap (String × Nat) Resolved

namespace Session

/-- A session in which nothing is known. -/
def empty : Session :=
  ⟨∅, ∅⟩

/-- A session with values from the host. -/
def withLocals (locals : List (String × String)) : Session :=
  ⟨locals.foldl (fun acc (name, value) => acc.insert name value) ∅, ∅⟩

/-- A value from the host. -/
def local? (s : Session) (name : String) : Option String :=
  s.locals.get? name

/-- A result found before. -/
def result? (s : Session) (name : String) (tokenId : Nat) : Option Resolved :=
  s.results[(name, tokenId)]?

/-- Keep a result. -/
def record (s : Session) (r : Resolved) : Session :=
  { s with results := s.results.insert (r.id, r.tokenId) r }

/-- The number of results. -/
def size (s : Session) : Nat :=
  s.results.size

end Session

end TokenSchema
