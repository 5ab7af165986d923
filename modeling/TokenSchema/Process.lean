import TokenSchema.Node
import TokenSchema.Session

/-!
# Processes

A resolution as a tree of steps: it looks at the session and the store, records results, keeps raw
results for the store, and asks the node. What becomes of the steps is for the interpreter to say, so one
process can be run to its end, stopped between two steps, or run beside others. A host allows only so
many uses of its store at a time, so a process marks each of them (`access`).
-/

namespace TokenSchema

/-- A resolution that gives an `α`. -/
inductive Process (α : Type) where
  | done (result : α)
  | fail (cause : ResolveError)
  /-- Come to a use of the store. -/
  | access (next : Process α)
  /-- Look at what is known at this moment. -/
  | look (next : Session → Store → Process α)
  /-- Record a result in the session. -/
  | record (r : Resolved) (next : Process α)
  /-- Hold a raw result back for the store. -/
  | keep (r : CachedRecord) (next : Process α)
  /-- Ask the node. -/
  | ask (q : Request) (next : Answer → Process α)

namespace Process

variable {α β : Type}

/-- Go on with the result of a process. -/
def bind (p : Process α) (f : α → Process β) : Process β :=
  match p with
  | .done a => f a
  | .fail e => .fail e
  | .access next => .access (next.bind f)
  | .look next => .look fun session store => (next session store).bind f
  | .record r next => .record r (next.bind f)
  | .keep r next => .keep r (next.bind f)
  | .ask q next => .ask q fun answer => (next answer).bind f

instance : Monad Process where
  pure := .done
  bind := bind

/-- The session at this moment. -/
def session : Process Session :=
  .look fun s _ => .done s

/-- The store at this moment. -/
def store : Process Store :=
  .look fun _ s => .done s

/-- Come to so many uses of the store. -/
def accesses : Nat → Process Unit
  | 0 => .done ()
  | n + 1 => .access (accesses n)

/-- Record a result and give it back. -/
def recorded (r : Resolved) : Process Resolved :=
  .record r (.done r)

/-- The answer of the node. -/
def answerTo (q : Request) : Process Answer :=
  .ask q .done

/-- A value, or the reason why there is none. -/
def ofExcept : Except ResolveError α → Process α
  | .ok a => .done a
  | .error e => .fail e

@[simp] theorem done_bind (a : α) (f : α → Process β) : (done a).bind f = f a := rfl

@[simp] theorem fail_bind (e : ResolveError) (f : α → Process β) :
    (fail e).bind f = fail e := rfl

@[simp] theorem bind_done (p : Process α) : p.bind done = p := by
  induction p with
  | done _ => rfl
  | fail _ => rfl
  | access _ ih => simp only [bind, ih]
  | look _ ih => simp only [bind, ih]
  | record _ _ ih => simp only [bind, ih]
  | keep _ _ ih => simp only [bind, ih]
  | ask _ _ ih => simp only [bind, ih]

end Process

end TokenSchema
