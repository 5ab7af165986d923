import Mathlib.Logic.Function.Basic
import TokenSchema.Proofs.InFlight.Leftover

/-!
# Turns — what tasks do to the table they share

Tasks that take turns on one host make their requests in some order of joining, calling, reading and
leaving, so whatever holds of traffic holds of them. A task that rests with a request has a post in the
traffic (`Task.Post`); a turn takes it to another post or to none and leaves all others alone
(`Exchange.exists_shift_turn`). All tasks together are a crew that mans every request in progress
(`Crew`), in rounds as in a line (`Exchange.exists_crew_takeTurns`).

So no two tasks that rest with a request made can have made the same one
(`Exchange.eq_of_calls_takeTurns`).
-/

namespace TokenSchema

open Traffic

/-- Where a request stands whose task rests. -/
def Stage.standing : Stage → Standing Answer
  | .held | .shared => .waiting
  | .made => .calling

/-! ## Shifts -/

namespace Traffic

variable {s s₁ s₂ : Traffic Request Request Answer} {a b c : Option Nat} {n : Nat}
variable {x : Asker Request Answer}

theorem Run.length_le (run : Run id s s₁) : s.askers.length ≤ s₁.askers.length := by
  induction run with
  | refl => exact Nat.le_refl _
  | tail _ step ih =>
      refine Nat.le_trans ih ?_
      cases step with
      | join target => simp [join]
      | start | answer | read | leave | dropWaiting | dropCalling => simp [move]

/-- The request at one post goes elsewhere, to a new post perhaps; the others stay where they are, and
nothing that it leaves behind is in progress. -/
structure Shift (s s' : Traffic Request Request Answer) (a b : Option Nat) : Prop where
  run : Run id s s'
  others : ∀ i y, some i ≠ a → s.At i y → s'.At i y
  late : ∀ i y, some i ≠ b → s'.At i y → y.InProgress → some i ≠ a ∧ s.At i y
  fresh : b = a ∨ ∀ m, b = some m → s.askers.length ≤ m

theorem Shift.refl (s : Traffic Request Request Answer) (a : Option Nat) : Shift s s a a where
  run := .refl
  others := fun _ _ _ there => there
  late := fun _ _ other there _ => ⟨other, there⟩
  fresh := .inl rfl

theorem Shift.trans (first : Shift s s₁ a b) (second : Shift s₁ s₂ b c) : Shift s s₂ a c where
  run := first.run.trans second.run
  others := by
    intro i y other there
    refine second.others i y ?_ (first.others i y other there)
    -- A post that is taken up on the way is new, so nobody has been there.
    rcases first.fresh with same | new
    · rwa [same]
    · intro taken
      have beyond := new i taken.symm
      exact absurd there.lt (Nat.not_lt.2 beyond)
  late := by
    intro i y other there busy
    obtain ⟨other', before⟩ := second.late i y other there busy
    exact first.late i y other' before busy
  fresh := by
    rcases second.fresh with rfl | new
    · exact first.fresh
    · exact .inr fun m taken => Nat.le_trans first.run.length_le (new m taken)

theorem Shift.join (s : Traffic Request Request Answer) (q : Request) :
    Shift s (s.join id q) none (some s.askers.length) where
  run := .single (.join s q)
  others := fun _ _ _ there => at_join_iff.2 (.inr there)
  late := by
    intro i y other there _
    rcases at_join_iff.1 there with ⟨rfl, -⟩ | there
    · exact absurd rfl other
    · exact ⟨nofun, there⟩
  fresh := .inr fun _ taken => Nat.le_of_eq (Option.some.inj taken)

/-- A request that moves keeps its post, and one that comes to its end has none. -/
theorem Shift.move (here : s.At n x) {standing : Standing Answer} {table : InFlight Request Answer}
    (step : Step id s (s.move n x standing table))
    (kept : b = some n ∨ b = none ∧ ¬ ({ x with standing := standing } : Asker _ _).InProgress) :
    Shift s (s.move n x standing table) (some n) b where
  run := .single step
  others := by
    intro i y other there
    exact here.move_of_ne there fun same => other (congrArg some same)
  late := by
    intro i y other there busy
    rcases (at_move_iff here).1 there with ⟨rfl, rfl⟩ | ⟨apart, there⟩
    · rcases kept with rfl | ⟨-, ended⟩
      · exact absurd rfl other
      · exact absurd busy ended
    · exact ⟨fun same => apart (Option.some.inj same), there⟩
  fresh := by
    rcases kept with rfl | ⟨rfl, -⟩
    · exact .inl rfl
    · exact .inr nofun

end Traffic

/-! ## One task -/

/-- The post of a task: that of its request, if it rests with one that is shared. -/
def Task.Post {α : Type} (s : Traffic Request Request Answer) (post : Option Nat) : Task α → Prop
  | .asking stage q (some cell) _ _ => ∃ n, post = some n ∧ s.At n ⟨q, cell, stage.standing⟩
  | _ => post = none

namespace Exchange

variable {α : Type} {s : Traffic Request Request Answer} {h : Host} {n : Nat} (x : Exchange)

/-- What traffic shows of a turn: the post shifts, and the table is that of the host. -/
def Shows (s : Traffic Request Request Answer) (post : Option Nat) (turned : Task α × Host) : Prop :=
  ∃ s' post', Shift s s' post post' ∧ s'.table = turned.2.inFlight ∧ turned.1.Post s' post'

theorem Shows.of_shift {s' : Traffic Request Request Answer} {post post' : Option Nat}
    {turned : Task α × Host} (shift : Shift s s' post post') (shown : Shows s' post' turned) :
    Shows s post turned := by
  obtain ⟨s'', post'', rest, table, posted⟩ := shown
  exact ⟨s'', post'', shift.trans rest, table, posted⟩

/-- A request whose call is answered leaves. -/
theorem exists_shift_finish {q : Request} {cell : Nat} (table : s.table = h.inFlight)
    (here : s.At n ⟨q, cell, .calling⟩) :
    ∃ s', Shift s s' (some n) none ∧ s'.table = (x.finish h q (some cell)).inFlight := by
  have answered := Shift.move here (.answer here rfl (x.node.reply q)) (.inl rfl)
  have served := here.move (.served true (x.node.reply q))
    (s.table.setStatus cell (.ready (x.node.reply q)))
  refine ⟨_, answered.trans (.move served (.leave served rfl) (.inr ⟨rfl, id⟩)), ?_⟩
  change (s.table.setStatus cell (.ready (x.node.reply q))).leave q cell = _
  rw [table]
  rfl

/-- A request that waits is answered or goes on waiting, or its call is made. -/
theorem exists_shift_request {q : Request} {cell : Nat} (table : s.table = h.inFlight)
    (here : s.At n ⟨q, cell, .waiting⟩) :
    (∀ answer h', x.request q (some cell) h = (.ok answer, h') →
        ∃ s', Shift s s' (some n) none ∧ s'.table = h'.inFlight) ∧
      ∀ stage h', x.request q (some cell) h = (.error stage, h') →
        ∃ s', Shift s s' (some n) (some n) ∧ s'.table = h'.inFlight ∧
          s'.At n ⟨q, cell, stage.standing⟩ := by
  simp only [request]
  by_cases spent : h.credit = 0
  · rw [if_pos spent]
    refine ⟨nofun, ?_⟩
    rintro stage h' ⟨⟩
    exact ⟨s, .refl s _, table, here⟩
  rw [if_neg spent]
  -- What the request does depends on its cell alone: wait, take the answer, or call.
  cases status : h.inFlight.status cell with
  | running =>
      refine ⟨nofun, ?_⟩
      rintro stage h' ⟨⟩
      exact ⟨s, .refl s _, table, here⟩
  | ready a =>
      refine ⟨?_, nofun⟩
      rintro answer h' ⟨⟩
      have read := Shift.move here (.read here rfl (table ▸ status)) (.inl rfl)
      have served := here.move (.served false a) s.table
      refine ⟨_, read.trans (.move served (.leave served rfl) (.inr ⟨rfl, id⟩)), ?_⟩
      change s.table.leave q cell = h.inFlight.leave q cell
      rw [table]
  | idle =>
      have called := Shift.move here (.start here rfl (table ▸ status)) (.inl rfl)
      have calling := here.move .calling (s.table.start cell)
      have started : (s.move n ⟨q, cell, .waiting⟩ .calling (s.table.start cell)).table =
          (x.start h q (some cell)).inFlight := by
        rw [inFlight_start, table_move, table]
      simp only [issue]
      by_cases pauses : x.node.pauses = true
      · rw [if_pos pauses]
        refine ⟨nofun, ?_⟩
        rintro stage h' ⟨⟩
        exact ⟨_, called, started, calling⟩
      · rw [if_neg pauses]
        refine ⟨?_, nofun⟩
        rintro answer h' ⟨⟩
        obtain ⟨s', finished, table'⟩ := x.exists_shift_finish started calling
        exact ⟨s', called.trans finished, table'⟩

/-- A request that nobody shares is answered or rests, and the table does not know of it. -/
theorem inFlight_request_none (q : Request) (h : Host) :
    (x.request q none h).2.inFlight = h.inFlight := by
  simp only [request, issue]
  split <;> rfl

/-- A task whose request waits goes on with the answer, or rests. -/
theorem shows_waiting {q : Request} {cell : Option Nat} {next : Answer → Process α}
    {kept : List CachedRecord} {post : Option Nat}
    (goesOn : ∀ answer {s' : Traffic Request Request Answer} {h' : Host},
      s'.table = h'.inFlight → Shows s' none (x.advance (next answer) kept h'))
    (table : s.table = h.inFlight) (posted : (Task.asking .shared q cell next kept).Post s post) :
    Shows s post (x.turn (.asking .shared q cell next kept) h) := by
  simp only [turn]
  cases cell with
  | none =>
      obtain rfl : post = none := posted
      have same := table.trans (x.inFlight_request_none q h).symm
      rcases outcome : x.request q none h with ⟨answer | answer, h'⟩
      · rw [outcome] at same
        exact ⟨s, none, .refl s _, same, rfl⟩
      · rw [outcome] at same
        exact goesOn answer same
  | some c =>
      obtain ⟨n, rfl, here⟩ := posted
      obtain ⟨answered, rests⟩ := x.exists_shift_request table here
      rcases outcome : x.request q (some c) h with ⟨stage | answer, h'⟩
      · obtain ⟨s', waits, table', there⟩ := rests stage h' outcome
        exact ⟨s', some n, waits, table', n, rfl, there⟩
      · obtain ⟨s', left, table'⟩ := answered answer h' outcome
        exact .of_shift left (goesOn answer table')

theorem writeOut_shows (result : α) (kept : List CachedRecord) (table : s.table = h.inFlight) :
    Shows s none (writeOut result kept h) := by
  induction kept generalizing h with
  | nil => exact ⟨s, none, .refl s _, table, rfl⟩
  | cons r rest ih =>
      unfold writeOut
      split
      · exact ⟨s, none, .refl s _, table, rfl⟩
      · have same : (h.write r).inFlight = h.inFlight := Host.inFlight_access _
        exact ih (table.trans same.symm)

/-- A task that asks joins the cell of its request, if requests are shared, and waits. -/
theorem advance_ask (q : Request) (next : Answer → Process α) (kept : List CachedRecord) (h : Host) :
    x.advance (.ask q next) kept h =
      x.turn (.asking .shared q (x.join h q).1 next kept) (x.join h q).2 := by
  simp only [advance, turn]

/-- A task without a post goes on as far as it comes. -/
theorem advance_shows (p : Process α) (kept : List CachedRecord) (table : s.table = h.inFlight) :
    Shows s none (x.advance p kept h) := by
  induction p generalizing kept h s with
  | done a => exact writeOut_shows a kept table
  | fail e => exact ⟨s, none, .refl s _, table, rfl⟩
  | access next ih =>
      unfold advance
      split
      · exact ⟨s, none, .refl s _, table, rfl⟩
      · exact ih kept table
  | look next ih => exact ih _ _ kept table
  | record r next ih => exact ih kept table
  | keep r next ih => exact ih (kept ++ [r]) table
  | ask q next ih =>
      rw [advance_ask]
      have goesOn : ∀ answer {s' : Traffic Request Request Answer} {h' : Host},
          s'.table = h'.inFlight → Shows s' none (x.advance (next answer) kept h') :=
        fun answer _ _ same => ih answer kept same
      cases shares : x.coalesces with
      | false =>
          have joined : x.join h q = (none, h) := by simp [join, shares]
          rw [joined]
          exact x.shows_waiting goesOn table rfl
      | true =>
          have joined : x.join h q = (some (h.inFlight.join q).1,
              { h with inFlight := (h.inFlight.join q).2 }) := by
            simp [join, shares]
          have here : (s.join id q).At s.askers.length ⟨q, (h.inFlight.join q).1, .waiting⟩ := by
            rw [← table]
            exact at_join_iff.2 (.inl ⟨rfl, rfl⟩)
          have table' : (s.join id q).table = (h.inFlight.join q).2 := by
            rw [← table]
            rfl
          rw [joined]
          exact .of_shift (.join s q) (x.shows_waiting goesOn table' ⟨_, rfl, here⟩)

/-- A turn takes a task from its post to another, or from none, or to none. -/
theorem turn_shows {t : Task α} {post : Option Nat} (table : s.table = h.inFlight)
    (posted : t.Post s post) : Shows s post (x.turn t h) := by
  cases t with
  | ready p kept =>
      obtain rfl : post = none := posted
      exact x.advance_shows p kept table
  | writing r rest result =>
      obtain rfl : post = none := posted
      simp only [turn]
      split
      · exact ⟨s, none, .refl s _, table, rfl⟩
      · exact writeOut_shows result rest table
  | finished result =>
      obtain rfl : post = none := posted
      exact ⟨s, none, .refl s _, table, rfl⟩
  | asking stage q cell next kept =>
      have goesOn : ∀ answer {s' : Traffic Request Request Answer} {h' : Host},
          s'.table = h'.inFlight → Shows s' none (x.advance (next answer) kept h') :=
        fun answer _ _ same => x.advance_shows (next answer) kept same
      -- One that is held and one that is shared wait alike.
      cases stage with
      | shared => exact x.shows_waiting goesOn table posted
      | held =>
          have waits : (Task.asking .shared q cell next kept).Post s post := by
            cases cell <;> exact posted
          exact x.shows_waiting goesOn table waits
      | made =>
          cases cell with
          | none =>
              obtain rfl : post = none := posted
              exact x.advance_shows (next (x.node.reply q)) kept table
          | some c =>
              obtain ⟨n, rfl, here⟩ := posted
              obtain ⟨s', left, table'⟩ := x.exists_shift_finish table here
              exact .of_shift left (x.advance_shows (next (x.node.reply q)) kept table')

end Exchange

/-! ## All tasks -/

/-- All tasks at their posts: no two have the same, and somebody stands at every request in progress. -/
structure Crew {α : Type} (s : Traffic Request Request Answer) (post : Nat → Option Nat)
    (tasks : List (Task α)) (h : Host) : Prop where
  reached : Reachable id s
  table_eq : s.table = h.inFlight
  posted : ∀ place (t : Task α), tasks[place]? = some t → t.Post s (post place)
  within : ∀ place n, post place = some n → place < tasks.length
  apart : ∀ i j n, post i = some n → post j = some n → i = j
  manned : ∀ n y, s.At n y → y.InProgress → ∃ place, post place = some n

theorem Task.Post.exists_at {α : Type} {s : Traffic Request Request Answer} {t : Task α} {n : Nat}
    (posted : t.Post s (some n)) : ∃ y, s.At n y := by
  cases t with
  | asking stage q cell next kept =>
      cases cell with
      | none => cases posted
      | some c =>
          obtain ⟨m, ⟨⟩, here⟩ := posted
          exact ⟨_, here⟩
  | _ => cases posted

/-- A task stays at its post while the request there stays where it is. -/
theorem Task.Post.mono {α : Type} {s s' : Traffic Request Request Answer} {t : Task α}
    {post : Option Nat} (posted : t.Post s post)
    (stays : ∀ n y, post = some n → s.At n y → s'.At n y) : t.Post s' post := by
  cases t with
  | asking stage q cell next kept =>
      cases cell with
      | none => exact posted
      | some c =>
          obtain ⟨n, rfl, here⟩ := posted
          exact ⟨n, rfl, stays n _ rfl here⟩
  | _ => exact posted

namespace Crew

variable {α : Type} {s : Traffic Request Request Answer} {post : Nat → Option Nat}
variable {tasks : List (Task α)} {h : Host}

theorem lt_length (crew : Crew s post tasks h) {place n : Nat} (there : post place = some n) :
    n < s.askers.length := by
  have inside := crew.within place n there
  have posted := crew.posted place _ (List.getElem?_eq_getElem inside)
  rw [there] at posted
  obtain ⟨y, here⟩ := posted.exists_at
  exact here.lt

/-- Nothing depends on the host but its table. -/
theorem of_inFlight (crew : Crew s post tasks h) {h' : Host} (same : h'.inFlight = h.inFlight) :
    Crew s post tasks h' :=
  { crew with table_eq := crew.table_eq.trans same.symm }

/-- One task has its turn, and the others keep their posts. -/
theorem turn (x : Exchange) (crew : Crew s post tasks h) {place : Nat} {t : Task α}
    (its : tasks[place]? = some t) :
    ∃ s' post', Crew s' post' (tasks.set place (x.turn t h).1) (x.turn t h).2 := by
  obtain ⟨s', nextPost, shift, table, shown⟩ :=
    x.turn_shows crew.table_eq (crew.posted place t its)
  obtain ⟨inside, -⟩ := List.getElem?_eq_some_iff.1 its
  -- The others are at their posts before and after, and none of these is the one that shifts.
  refine ⟨s', Function.update post place nextPost, crew.reached.trans shift.run, table, ?_, ?_, ?_, ?_⟩
  · intro i t' there
    by_cases same : i = place
    · subst same
      rw [List.getElem?_set_self inside] at there
      obtain rfl := Option.some.inj there
      rwa [Function.update_self]
    · rw [List.getElem?_set_ne (Ne.symm same)] at there
      rw [Function.update_of_ne same]
      refine (crew.posted i t' there).mono ?_
      intro n y manned here
      refine shift.others n y ?_ here
      intro shared
      exact same (crew.apart i place n manned shared.symm)
  · intro i n there
    rw [List.length_set]
    by_cases same : i = place
    · rwa [same]
    · rw [Function.update_of_ne same] at there
      exact crew.within i n there
  · -- A post that is taken up is new, or the task has been there before.
    have new : ∀ i n, i ≠ place → post i = some n → nextPost ≠ some n := by
      intro i n other there taken
      rcases shift.fresh with same | beyond
      · exact other (crew.apart i place n there (same.symm.trans taken))
      · exact absurd (crew.lt_length there) (Nat.not_lt.2 (beyond n taken))
    intro i j n there there'
    by_cases first : i = place
    · by_cases second : j = place
      · rw [first, second]
      · subst first
        rw [Function.update_self] at there
        rw [Function.update_of_ne second] at there'
        exact absurd there (new j n second there')
    · rw [Function.update_of_ne first] at there
      by_cases second : j = place
      · subst second
        rw [Function.update_self] at there'
        exact absurd there' (new i n first there)
      · rw [Function.update_of_ne second] at there'
        exact crew.apart i j n there there'
  · intro n y there busy
    by_cases taken : some n = nextPost
    · exact ⟨place, by rw [Function.update_self, taken]⟩
    · obtain ⟨other, before⟩ := shift.late n y taken there busy
      obtain ⟨i, manned⟩ := crew.manned n y before busy
      have apart : i ≠ place := by
        rintro rfl
        exact other manned.symm
      exact ⟨i, by rw [Function.update_of_ne apart, manned]⟩

/-- Those that have had their turn stand before those that come. -/
theorem inOrder (x : Exchange) (had : List (Task α)) (crew : Crew s post (had ++ tasks) h) :
    ∃ s' post', Crew s' post' (had ++ (Host.inOrder x.turn tasks h).1)
      (Host.inOrder x.turn tasks h).2 := by
  induction tasks generalizing had h s post with
  | nil => exact ⟨s, post, crew⟩
  | cons t rest ih =>
      have its : (had ++ t :: rest)[had.length]? = some t := by simp
      obtain ⟨s', post', turned⟩ := crew.turn x its
      have moved : (had ++ t :: rest).set had.length (x.turn t h).1 =
          (had ++ [(x.turn t h).1]) ++ rest := by simp
      rw [moved] at turned
      simpa [Host.inOrder] using ih (had ++ [(x.turn t h).1]) turned

theorem rounds (x : Exchange) (limit : Nat) (crew : Crew s post tasks h) :
    ∃ s' post', Crew s' post' (x.rounds limit tasks h).1 (x.rounds limit tasks h).2 := by
  induction limit generalizing tasks h s post with
  | zero => exact ⟨s, post, crew⟩
  | succ limit ih =>
      obtain ⟨s', post', round⟩ := inOrder x [] crew
      simp only [Exchange.rounds]
      split
      · exact ⟨s', post', round⟩
      · exact ih (round.of_inFlight rfl)

theorem lineUp (x : Exchange) (limit : Nat) (l : Line) {tasks : Array (Task α)}
    (crew : Crew s post tasks.toList h) :
    ∃ s' post', Crew s' post' (x.lineUp limit l tasks h).1.toList (x.lineUp limit l tasks h).2 := by
  induction limit generalizing l tasks h s post with
  | zero => exact ⟨s, post, crew⟩
  | succ limit ih =>
      simp only [Exchange.lineUp]
      split
      · split
        · exact ⟨s, post, crew⟩
        · exact ih _ (crew.of_inFlight rfl)
      · rename_i place l' _
        split
        · exact ⟨s, post, crew⟩
        · rename_i t its
          have listed : tasks.toList[place]? = some t := by simpa using its
          obtain ⟨s', post', turned⟩ := crew.turn x listed
          exact ih _ (by simpa using turned)

/-- Tasks at their beginning have no posts. -/
theorem ofLeaves (before : Leaves id s h.inFlight) (ps : List (Process α)) :
    Crew s (fun _ => none) (ps.map fun p => Task.ready p []) h where
  reached := before.reached
  table_eq := before.table_eq
  posted := by
    intro place t its
    obtain ⟨p, -, rfl⟩ := List.mem_map.1 (List.mem_of_getElem? its)
    rfl
  within := nofun
  apart := nofun
  manned := fun n y there busy => absurd busy (before.settled n y there)

end Crew

/-- It has made a request that others may share, and awaits the answer. -/
def Task.Calls {α : Type} (t : Task α) (q : Request) : Prop :=
  ∃ c next kept, t = .asking .made q (some c) next kept

namespace Exchange

variable {α : Type} {s : Traffic Request Request Answer} {h : Host}

/-- However many turns the tasks have taken, in rounds or in a line, the table is that of traffic whose
requests in progress are theirs. -/
theorem exists_crew_takeTurns (x : Exchange) (limit : Nat) (ps : List (Process α))
    (before : Leaves id s h.inFlight) :
    ∃ s' post, Crew s' post (x.takeTurns limit (ps.map fun p => .ready p []) h).1
      (x.takeTurns limit (ps.map fun p => .ready p []) h).2 := by
  have crew := Crew.ofLeaves before ps
  unfold takeTurns
  split
  · exact crew.rounds x limit
  · exact Crew.lineUp x limit _ (by simpa using crew)

/-- However many turns the tasks have taken, only one of them has made a shared request of which it awaits
the answer. -/
theorem eq_of_calls_takeTurns (x : Exchange) (limit : Nat) (ps : List (Process α))
    (before : Leaves id s h.inFlight) {i j : Nat} {t t' : Task α} {q : Request}
    (first : (x.takeTurns limit (ps.map fun p => .ready p []) h).1[i]? = some t)
    (second : (x.takeTurns limit (ps.map fun p => .ready p []) h).1[j]? = some t')
    (calls : t.Calls q) (calls' : t'.Calls q) : i = j := by
  obtain ⟨c, next, kept, rfl⟩ := calls
  obtain ⟨d, next', kept', rfl⟩ := calls'
  obtain ⟨s', post, crew⟩ := x.exists_crew_takeTurns limit ps before
  obtain ⟨n, posted, here⟩ := crew.posted i _ first
  obtain ⟨m, posted', there⟩ := crew.posted j _ second
  obtain rfl := crew.reached.one_call here there rfl rfl rfl
  exact crew.apart i j n posted posted'

end Exchange

end TokenSchema
