import Await.General.Transition
import Mathlib.Logic.Function.Basic

/-! `coro` of `awaithe.cpp`: a coroutine that starts when it is awaited and resumes its
waiter from its final awaiter. Everything happens on one call stack, on which resumed
coroutines lie above the calls that have led to them. -/

namespace Await.Jax.Awaithe
open General.Transition StateTransition

/-- The rest of a coroutine's body, with visible actions in `α`. -/
inductive Body (α : Type) where
  | finish
  | act (action : α) (rest : Body α)
  | suspendNever (rest : Body α)
  | await (child rest : Body α)
  deriving DecidableEq, Repr

/-- Where a coroutine is. While it awaits a child, the child's `coro` object is a
temporary in its frame. -/
inductive Point where
  | initialSuspend
  | running
  | awaiting (child : Nat)
  | finalSuspend
  deriving DecidableEq, Repr

/-- A coroutine frame with the `waiter` of its promise. -/
structure Frame (α : Type) where
  body : Body α
  point : Point
  waiter : Option Nat
  deriving DecidableEq, Repr

/-- The calls on the stack. One that is `returning` has made its last call and returns
without another look at any frame: `coro::await_suspend` after `me.resume()`, the final
awaiter's `await_suspend` after `me->waiter.resume()`, and the resume function of a
coroutine that has suspended. -/
inductive Activation where
  | body (k : Nat)
  | awaitSuspend (child waiter : Nat)
  | finalAwaitSuspend (k : Nat)
  | awaitResume (k child : Nat)
  | returning
  | main
  deriving DecidableEq, Repr

inductive Event (α : Type) where
  | created (k : Nat) (parent : Option Nat)
  | resumed (k : Nat)
  | action (k : Nat) (action : α)
  | finished (k : Nat)
  | hasWaiter (k waiter : Nat)
  | noWaiter (k : Nat)
  | destroyed (k : Nat)
  deriving DecidableEq, Repr

variable {α : Type}

/-- The coroutine frames by number, how many there have been, the call stack, and a record
of the run. -/
structure Machine (α : Type) where
  frames : Nat → Option (Frame α)
  created : Nat
  stack : List Activation
  log : List (Event α)

def Machine.put (k : Nat) (frame : Frame α) (s : Machine α) : Machine α :=
  { s with frames := Function.update s.frames k (some frame) }

/-- `coroutine_handle::resume()`, called by what is below on the stack. Resuming a
coroutine that runs, has reached its end or is gone is undefined. -/
def Machine.resume (k : Nat) (below : List Activation) (s : Machine α) : Option (Machine α) := do
  let frame ← s.frames k
  match frame.point with
  | .initialSuspend =>
      some { s.put k { frame with point := .running } with
        stack := .body k :: below, log := s.log ++ [.resumed k] }
  | .awaiting child =>
      some { s.put k { frame with point := .running } with
        stack := .awaitResume k child :: below, log := s.log ++ [.resumed k] }
  | .running | .finalSuspend => none

/-- `coroutine_handle::destroy()`, which is undefined for a coroutine that runs or is gone.
A coroutine suspended in a `co_await` would take its child with it; none is destroyed there. -/
def Machine.destroy (k : Nat) (s : Machine α) : Option (Machine α) := do
  let frame ← s.frames k
  match frame.point with
  | .initialSuspend | .finalSuspend =>
      some { s with frames := Function.update s.frames k none, log := s.log ++ [.destroyed k] }
  | .running | .awaiting _ => none

/-- A running coroutine up to its next visible action, suspension or end. -/
def Machine.body (k : Nat) (below : List Activation) (s : Machine α) : Option (Machine α) := do
  let frame ← s.frames k
  match frame.body with
  | .act action rest => some { s.put k { frame with body := rest } with log := s.log ++ [.action k action] }
  | .suspendNever rest => some (s.put k { frame with body := rest })
  | .await child rest =>
      -- the child is created suspended, `await_ready` is false, and `k` suspends
      let c := s.created
      let s := s.put c { body := child, point := .initialSuspend, waiter := none }
      some { s.put k { frame with body := rest, point := .awaiting c } with
        created := c + 1
        stack := .awaitSuspend c k :: .returning :: below
        log := s.log ++ [.created c (some k)] }
  | .finish =>
      some { s.put k { frame with point := .finalSuspend } with
        stack := .finalAwaitSuspend k :: .returning :: below, log := s.log ++ [.finished k] }

/-- `me.promise().waiter = h; me.resume();` -/
def Machine.awaitSuspend (child waiter : Nat) (below : List Activation) (s : Machine α) : Option (Machine α) := do
  let frame ← s.frames child
  (s.put child { frame with waiter := some waiter }).resume child (.returning :: below)

/-- `if (me->waiter) { puts(...); me->waiter.resume(); } else puts(...);` -/
def Machine.finalAwaitSuspend (k : Nat) (below : List Activation) (s : Machine α) : Option (Machine α) := do
  let frame ← s.frames k
  match frame.waiter with
  | some waiter => Machine.resume waiter (.returning :: below) { s with log := s.log ++ [.hasWaiter k waiter] }
  | none => some { s with stack := .returning :: below, log := s.log ++ [.noWaiter k] }

/-- `await_resume`, and the end of the full expression, where `~coro` destroys the child. -/
def Machine.awaitResume (k child : Nat) (below : List Activation) (s : Machine α) : Option (Machine α) := do
  let s ← s.destroy child
  some { s with stack := .body k :: below }

def step (s : Machine α) : Option (Machine α) :=
  match s.stack with
  | .body k :: below => s.body k below
  | .awaitSuspend child waiter :: below => s.awaitSuspend child waiter below
  | .finalAwaitSuspend k :: below => s.finalAwaitSuspend k below
  | .awaitResume k child :: below => s.awaitResume k child below
  | .returning :: below => some { s with stack := below }
  | .main :: _ | [] => none

/-- `auto x = f(); x.me.resume();` in `main`, with any body for `f`. -/
def start (body : Body α) : Machine α where
  frames := Function.update (fun _ => none) 0 (some ⟨body, .running, none⟩)
  created := 1
  stack := [.body 0, .main]
  log := [.created 0 none, .resumed 0]

/-! ### Plain nested calls -/

/-- What the body does if its coroutines are plain functions and `co_await` is a call. -/
def calls : Body α → List α
  | .finish => []
  | .act action rest => action :: calls rest
  | .suspendNever rest => calls rest
  | .await child rest => calls child ++ calls rest

def actions (log : List (Event α)) : List α :=
  log.filterMap fun
    | .action _ action => some action
    | _ => none

/-- How many coroutines a body creates, its children's included. -/
def descendants : Body α → Nat
  | .finish => 0
  | .act _ rest | .suspendNever rest => descendants rest
  | .await child rest => descendants child + 1 + descendants rest

/-- What the body of coroutine `k` leaves in the log when the next coroutine is number `n`. -/
def trace (k n : Nat) : Body α → List (Event α)
  | .finish => []
  | .act action rest => .action k action :: trace k n rest
  | .suspendNever rest => trace k n rest
  | .await child rest =>
      [.created n (some k), .resumed n] ++ trace n (n + 1) child ++
        [.finished n, .hasWaiter n k, .resumed k, .destroyed n] ++ trace k (n + 1 + descendants child) rest

@[simp] theorem actions_append (log more : List (Event α)) : actions (log ++ more) = actions log ++ actions more :=
  List.filterMap_append ..

theorem actions_trace (k n : Nat) (body : Body α) : actions (trace k n body) = calls body := by
  induction body generalizing k n with
  | finish => rfl
  | act action rest ih => simpa [trace, calls, actions] using ih k n
  | suspendNever rest ih => simpa [trace, calls] using ih k n
  | await child rest ihChild ihRest =>
    simp only [trace, calls, actions_append, ihChild, ihRest]
    simp [actions]

/-! ### The run -/

section
variable {frames : Nat → Option (Frame α)} {created k w : Nat} {below : List Activation} {waiter : Option Nat}
  {log : List (Event α)} {child rest : Body α}

/-- Calls that have nothing left to do but return. -/
theorem reaches_return (m : Nat) :
    Reaches step (⟨frames, created, List.replicate m Activation.returning ++ below, log⟩ : Machine α)
      ⟨frames, created, below, log⟩ := by
  induction m with
  | zero => exact .refl
  | succ m ih => exact .head rfl ih

/-- A `co_await` of a new coroutine, up to the child's first statement. -/
theorem await_starts (below : List Activation) (log : List (Event α))
    (present : frames k = some ⟨.await child rest, .running, waiter⟩)
    (old : k < created) :
    Reaches step ⟨frames, created, .body k :: below, log⟩
      ⟨Function.update (Function.update frames k (some ⟨rest, .awaiting created, waiter⟩)) created
          (some ⟨child, .running, some k⟩),
        created + 1, .body created :: .returning :: .returning :: below,
        log ++ [.created created (some k), .resumed created]⟩ := by
  have apart : created ≠ k := by omega
  refine .head (b := ⟨Function.update (Function.update frames created (some ⟨child, .initialSuspend, none⟩)) k
      (some ⟨rest, .awaiting created, waiter⟩), created + 1, .awaitSuspend created k :: .returning :: below,
      log ++ [.created created (some k)]⟩) ?_ (.single ?_)
  · simp [step, Machine.body, present, Machine.put]
  · simp [step, Machine.awaitSuspend, Machine.put, Machine.resume, apart, Function.update_comm apart]

/-- The end of a child that is awaited, up to the waiter's next statement: the child has
suspended for good, and is destroyed while its final awaiter is still on the stack. -/
theorem child_ends (frames : Nat → Option (Frame α)) (created : Nat) (below : List Activation)
    (log : List (Event α)) (awaiting : frames k = some ⟨rest, .awaiting w, waiter⟩)
    (running : frames w = some ⟨.finish, .running, some k⟩) (apart : w ≠ k) :
    Reaches step ⟨frames, created, .body w :: below, log⟩
      ⟨Function.update (Function.update frames w none) k (some ⟨rest, .running, waiter⟩), created,
        .body k :: .returning :: .returning :: below,
        log ++ [.finished w, .hasWaiter w k, .resumed k, .destroyed w]⟩ := by
  refine .head (b := ⟨Function.update frames w (some ⟨.finish, .finalSuspend, some k⟩), created,
      .finalAwaitSuspend w :: .returning :: below, log ++ [.finished w]⟩) ?_
    (.head (b := ⟨Function.update (Function.update frames w (some ⟨.finish, .finalSuspend, some k⟩)) k
      (some ⟨rest, .running, waiter⟩), created, .awaitResume k w :: .returning :: .returning :: below,
      log ++ [.finished w, .hasWaiter w k, .resumed k]⟩) ?_ (.single ?_))
  · simp [step, Machine.body, running, Machine.put]
  · simp [step, Machine.finalAwaitSuspend, Machine.resume, awaiting, apart.symm, Machine.put]
  · simp [step, Machine.awaitResume, Machine.destroy, apart, Function.update_comm apart]

theorem fresh_update (old : k < created) (fresh : ∀ j, created ≤ j → frames j = none)
    (frame : Option (Frame α)) : ∀ j, created ≤ j → Function.update frames k frame j = none := by
  intro j above
  rw [Function.update_of_ne (by omega)]
  exact fresh j above

/-- The end of a coroutine that nobody awaits, up to the caller of its `resume()`. -/
theorem root_ends (frames : Nat → Option (Frame α)) (created m : Nat) (below : List Activation)
    (log : List (Event α)) (running : frames k = some ⟨.finish, .running, none⟩) :
    Reaches step ⟨frames, created, .body k :: (List.replicate m Activation.returning ++ below), log⟩
      ⟨Function.update frames k (some ⟨.finish, .finalSuspend, none⟩), created, below,
        log ++ [.finished k, .noWaiter k]⟩ := by
  have finishes : step ⟨frames, created, .body k :: (List.replicate m Activation.returning ++ below), log⟩ =
      some ⟨Function.update frames k (some ⟨.finish, .finalSuspend, none⟩), created,
        .finalAwaitSuspend k :: .returning :: (List.replicate m Activation.returning ++ below),
        log ++ [.finished k]⟩ := by
    simp [step, Machine.body, running, Machine.put]
  have reports : step ⟨Function.update frames k (some ⟨.finish, .finalSuspend, none⟩), created,
        .finalAwaitSuspend k :: .returning :: (List.replicate m Activation.returning ++ below),
        log ++ [.finished k]⟩ =
      some ⟨Function.update frames k (some ⟨.finish, .finalSuspend, none⟩), created,
        List.replicate (m + 2) Activation.returning ++ below, log ++ [.finished k, .noWaiter k]⟩ := by
    simp [step, Machine.finalAwaitSuspend, List.replicate_succ]
  exact .head finishes (.head reports (reaches_return (m + 2)))

theorem returning_around (m : Nat) (below : List Activation) :
    Activation.returning :: Activation.returning ::
        (List.replicate m Activation.returning ++ Activation.returning :: Activation.returning :: below) =
      List.replicate (m + 4) Activation.returning ++ below := by
  induction m with
  | zero => rfl
  | succ m ih =>
    rw [Nat.add_right_comm, List.replicate_succ, List.replicate_succ, List.cons_append, List.cons_append, ← ih]

/-- When a child is gone the frames are what they were before it. -/
theorem frames_restored {c : Nat} (gone : frames c = none) (waiting returned : Option (Frame α)) (last : Option (Frame α)) :
    Function.update (Function.update (Function.update (Function.update frames k waiting) c last) c none) k returned =
      Function.update frames k returned := by
  rw [Function.update_idem]
  funext j
  by_cases own : j = k
  · rw [own, Function.update_self, Function.update_self]
  · rw [Function.update_of_ne own, Function.update_of_ne own]
    by_cases child : j = c
    · rw [child, Function.update_self, gone]
    · rw [Function.update_of_ne child, Function.update_of_ne own]

/-- A running coroutine comes to the end of this body, whatever lies below it on the stack:
its children are created, run and destroyed on the way, and only returning calls are left
of them. -/
def RunsBody (body : Body α) : Prop :=
  ∀ (frames : Nat → Option (Frame α)) (created k : Nat) (below : List Activation) (waiter : Option Nat)
    (log : List (Event α)), frames k = some ⟨body, .running, waiter⟩ → k < created →
      (∀ j, created ≤ j → frames j = none) →
      ∃ m, Reaches step ⟨frames, created, .body k :: below, log⟩
        ⟨Function.update frames k (some ⟨.finish, .running, waiter⟩), created + descendants body,
          .body k :: (List.replicate m Activation.returning ++ below), log ++ trace k created body⟩

/-- The whole life of a child that is awaited. -/
theorem RunsBody.awaited (runs : RunsBody child) (rest : Body α) (below : List Activation) (log : List (Event α))
    (present : frames k = some ⟨.await child rest, .running, waiter⟩) (old : k < created)
    (fresh : ∀ j, created ≤ j → frames j = none) :
    ∃ m, Reaches step ⟨frames, created, .body k :: below, log⟩
      ⟨Function.update frames k (some ⟨rest, .running, waiter⟩), created + 1 + descendants child,
        .body k :: (List.replicate m Activation.returning ++ below),
        log ++ [.created created (some k), .resumed created] ++ trace created (created + 1) child ++
          [.finished created, .hasWaiter created k, .resumed k, .destroyed created]⟩ := by
  have apart : created ≠ k := by omega
  have starts := await_starts below log present old
  -- the child runs above the two calls that have started it
  obtain ⟨m, runs⟩ := runs _ (created + 1) created (.returning :: .returning :: below) (some k)
    (log ++ [.created created (some k), .resumed created]) (Function.update_self ..) (Nat.lt_succ_self created)
    (fresh_update (Nat.lt_succ_self created)
      (fun j above => fresh_update old fresh (some ⟨rest, .awaiting created, waiter⟩) j (by omega)) _)
  rw [Function.update_idem] at runs
  have waits : Function.update (Function.update frames k (some ⟨rest, .awaiting created, waiter⟩)) created
      (some ⟨.finish, .running, some k⟩) k = some ⟨rest, .awaiting created, waiter⟩ := by
    rw [Function.update_of_ne apart.symm, Function.update_self]
  have ends := child_ends _ (created + 1 + descendants child)
    (List.replicate m Activation.returning ++ .returning :: .returning :: below)
    (log ++ [.created created (some k), .resumed created] ++ trace created (created + 1) child)
    waits (Function.update_self ..) apart
  rw [frames_restored (fresh created le_rfl)] at ends
  refine ⟨m + 4, starts.trans (runs.trans ?_)⟩
  rw [← returning_around m below]
  exact ends

theorem runs_body (body : Body α) : RunsBody body := by
  induction body with
  | finish =>
    intro frames created k below waiter log present old fresh
    refine ⟨0, ?_⟩
    rw [← present, Function.update_eq_self, trace, List.append_nil]
    exact .refl
  | act action rest ih =>
    intro frames created k below waiter log present old fresh
    obtain ⟨m, later⟩ := ih (Function.update frames k (some ⟨rest, .running, waiter⟩)) created k below waiter
      (log ++ [.action k action]) (Function.update_self ..) old (fresh_update old fresh _)
    rw [Function.update_idem] at later
    rw [trace, List.append_cons]
    exact ⟨m, .head (by simp [step, Machine.body, present, Machine.put]) later⟩
  | suspendNever rest ih =>
    intro frames created k below waiter log present old fresh
    obtain ⟨m, later⟩ := ih (Function.update frames k (some ⟨rest, .running, waiter⟩)) created k below waiter log
      (Function.update_self ..) old (fresh_update old fresh _)
    rw [Function.update_idem] at later
    exact ⟨m, .head (by simp [step, Machine.body, present, Machine.put]) later⟩
  | await child rest ihChild ihRest =>
    intro frames created k below waiter log present old fresh
    obtain ⟨m, first⟩ := RunsBody.awaited ihChild rest below log present old fresh
    obtain ⟨m', later⟩ := ihRest (Function.update frames k (some ⟨rest, .running, waiter⟩))
      (created + 1 + descendants child) k (List.replicate m Activation.returning ++ below) waiter
      (log ++ [.created created (some k), .resumed created] ++ trace created (created + 1) child ++
        [.finished created, .hasWaiter created k, .resumed k, .destroyed created])
      (Function.update_self ..) (by omega) (fresh_update (by omega) (fun j above => fresh j (by omega)) _)
    rw [Function.update_idem] at later
    refine ⟨m' + m, ?_⟩
    have whole : Reaches step _ _ := first.trans later
    rw [List.replicate_add, List.append_assoc]
    simpa [trace, descendants, Nat.add_assoc, Nat.add_comm 1] using whole

end

/-! ### Lives of the coroutines -/

/-- The coroutine an event is about. -/
def Event.subject : Event α → Nat
  | .created k _ | .resumed k | .action k _ | .finished k | .hasWaiter k _ | .noWaiter k | .destroyed k => k

/-- What a coroutine does between its start and its end. -/
def Event.inBody : Event α → Bool
  | .action .. | .resumed _ => true
  | _ => false

/-- Coroutine `c` is created and started by its parent, runs to its end, resumes its waiter,
and is destroyed, once each and in this order. Nothing happens to it before or after. -/
def Lived (c parent : Nat) (log : List (Event α)) : Prop :=
  ∃ before life after : List (Event α), log = before ++ [.created c (some parent), .resumed c] ++ life ++
      [.finished c, .hasWaiter c parent, .resumed parent, .destroyed c] ++ after ∧ parent ≠ c ∧
    (∀ e ∈ before ++ after, e.subject ≠ c) ∧ ∀ e ∈ life, e.subject = c → e.inBody

def Event.resumes (k : Nat) : Event α → Bool
  | .resumed j => j == k
  | _ => false

/-- The final awaiter of a child has found `k` as its waiter. -/
def Event.finds (k : Nat) : Event α → Bool
  | .hasWaiter _ j => j == k
  | _ => false

def resumptions (k : Nat) (log : List (Event α)) : Nat := log.countP (Event.resumes k)

def awaits (k : Nat) (log : List (Event α)) : Nat := log.countP (Event.finds k)

theorem Lived.within {c parent : Nat} {log : List (Event α)} (lived : Lived c parent log)
    {more rest : List (Event α)} (others : ∀ e ∈ more, e.subject ≠ c) (others' : ∀ e ∈ rest, e.subject ≠ c) :
    Lived c parent (more ++ log ++ rest) := by
  obtain ⟨before, life, after, rfl, apart, outside, inside⟩ := lived
  refine ⟨more ++ before, life, after ++ rest, by simp only [List.append_assoc], apart, ?_, inside⟩
  intro e found
  simp only [List.mem_append] at found outside
  rcases found with (early | early) | late | late
  · exact others e early
  · exact outside e (.inl early)
  · exact outside e (.inr late)
  · exact others' e late

/-- What a body leaves in the log is about its own coroutine, between the start and the end,
or about one of its descendants. -/
theorem trace_subjects (k n : Nat) (body : Body α) :
    ∀ e ∈ trace k n body, (e.subject = k ∧ e.inBody) ∨ (n ≤ e.subject ∧ e.subject < n + descendants body) := by
  induction body generalizing k n with
  | finish => simp [trace]
  | act action rest ih => simpa [trace, Event.subject, Event.inBody, descendants] using ih k n
  | suspendNever rest ih => simpa [trace, descendants] using ih k n
  | await child rest ihChild ihRest =>
    intro e found
    simp only [trace, descendants, List.mem_append, List.mem_cons, List.not_mem_nil, or_false] at found ⊢
    rcases found with ((starts | inChild) | ends) | inRest
    · right
      rcases starts with rfl | rfl <;> simp [Event.subject]
    · right
      rcases ihChild n (n + 1) e inChild with ⟨own, -⟩ | range <;> omega
    · -- the resumption is `k`'s own, the other three events are about the child
      rcases ends with rfl | rfl | rfl | rfl
      · exact .inr (by simp [Event.subject])
      · exact .inr (by simp [Event.subject])
      · exact .inl ⟨rfl, rfl⟩
      · exact .inr (by simp [Event.subject])
    · exact (ihRest k (n + 1 + descendants child) e inRest).imp_right fun range => by omega

theorem trace_avoids (k n : Nat) (body : Body α) {c : Nat} (apart : k ≠ c)
    (outside : c < n ∨ n + descendants body ≤ c) : ∀ e ∈ trace k n body, e.subject ≠ c := by
  intro e found
  rcases trace_subjects k n body e found with ⟨own, -⟩ | range <;> omega

/-- Every coroutine that a body creates lives once. -/
theorem trace_lived (k n : Nat) (body : Body α) (old : k < n) :
    ∀ c, n ≤ c → c < n + descendants body → ∃ parent, Lived c parent (trace k n body) := by
  induction body generalizing k n with
  | finish => exact fun c above under => absurd under (by simpa [descendants] using above)
  | act action rest ih =>
    intro c above under
    obtain ⟨parent, lived⟩ := ih k n old c above under
    refine ⟨parent, ?_⟩
    rw [trace, ← List.append_nil (_ :: _), List.cons_append, ← List.singleton_append, ← List.append_assoc]
    exact lived.within (by simpa [Event.subject] using (by omega : k ≠ c)) (by simp)
  | suspendNever rest ih => exact ih k n old
  | await child rest ihChild ihRest =>
    intro c above under
    simp only [descendants] at under
    rcases Nat.lt_or_ge c (n + 1 + descendants child) with early | late
    · rcases Nat.eq_or_lt_of_le above with rfl | above
      · -- the child that is awaited here
        refine ⟨k, [], trace n (n + 1) child, trace k (n + 1 + descendants child) rest, rfl, by omega,
          trace_avoids k _ rest (by omega) (by omega), ?_⟩
        intro e found own
        rcases trace_subjects n (n + 1) child e found with ⟨-, inside⟩ | range
        · exact inside
        · omega
      · -- a descendant of it
        obtain ⟨parent, lived⟩ := ihChild n (n + 1) (Nat.lt_succ_self n) c above early
        refine ⟨parent, ?_⟩
        rw [trace, List.append_assoc]
        apply lived.within
        · simpa [Event.subject] using (by omega : n ≠ c)
        · intro e found
          rcases List.mem_append.1 found with ends | later
          · simp only [List.mem_cons, List.not_mem_nil, or_false] at ends
            rcases ends with rfl | rfl | rfl | rfl <;> simp only [Event.subject] <;> omega
          · exact trace_avoids k _ rest (by omega) (.inl early) e later
    · -- a later child, or a descendant of one
      obtain ⟨parent, lived⟩ := ihRest k (n + 1 + descendants child) (by omega) c late (by omega)
      refine ⟨parent, ?_⟩
      rw [trace, ← List.append_nil (trace k _ rest), ← List.append_assoc]
      refine lived.within ?_ (by simp)
      intro e found
      simp only [List.mem_append, List.mem_cons, List.not_mem_nil, or_false] at found
      rcases found with (starts | inChild) | ends
      · rcases starts with rfl | rfl <;> simp only [Event.subject] <;> omega
      · exact trace_avoids n (n + 1) child (by omega) (.inr late) e inChild
      · rcases ends with rfl | rfl | rfl | rfl <;> simp only [Event.subject] <;> omega

theorem resumptions_append (k : Nat) (log more : List (Event α)) :
    resumptions k (log ++ more) = resumptions k log + resumptions k more := List.countP_append ..

theorem awaits_append (k : Nat) (log more : List (Event α)) :
    awaits k (log ++ more) = awaits k log + awaits k more := List.countP_append ..

/-- A coroutine is resumed once to start and once for each child that it has awaited. -/
theorem resumptions_trace (j k n : Nat) (body : Body α) :
    resumptions j (trace k n body) =
      awaits j (trace k n body) + if n ≤ j ∧ j < n + descendants body then 1 else 0 := by
  induction body generalizing k n with
  | finish => simp [trace, resumptions, awaits, descendants]
  | act action rest ih => exact ih k n
  | suspendNever rest ih => exact ih k n
  | await child rest ihChild ihRest =>
    simp only [trace, resumptions_append, awaits_append, ihChild n (n + 1), ihRest k (n + 1 + descendants child)]
    simp only [resumptions, awaits, List.countP_cons, List.countP_nil, Event.resumes, Event.finds, descendants,
      beq_iff_eq, Bool.false_eq_true, if_false]
    grind

/-- The root has been resumed once from outside and has run its whole body. -/
structure Completed (body : Body α) (final : Machine α) : Prop where
  returned : final.stack = [.main]
  actions_eq : actions final.log = calls body
  root : final.frames 0 = some ⟨.finish, .finalSuspend, none⟩
  others_gone : ∀ k, k ≠ 0 → final.frames k = none
  root_life : ∃ life, final.log = [.created 0 none, .resumed 0] ++ life ++ [.finished 0, .noWaiter 0] ∧
    ∀ e ∈ life, e.subject = 0 → e.inBody
  children : ∀ c, 0 < c → c < final.created → ∃ parent, Lived c parent final.log
  resumptions_eq : ∀ k, k < final.created → resumptions k final.log = awaits k final.log + 1

/-- Nested awaiting is nested calling: one `resume()` of the root runs the whole tree. -/
theorem resume_completes (body : Body α) : ∃ final ∈ eval step (start body), Completed body final := by
  obtain ⟨m, runs⟩ := runs_body body (Function.update (fun _ => none) 0 (some ⟨body, .running, none⟩)) 1 0 [.main]
    none [.created 0 none, .resumed 0] (Function.update_self ..) Nat.one_pos
    (fun j above => Function.update_of_ne (by omega) ..)
  rw [Function.update_idem] at runs
  have ends := root_ends (Function.update (fun _ => none) 0 (some ⟨.finish, .running, none⟩)) (1 + descendants body)
    m [.main] ([.created 0 none, .resumed 0] ++ trace 0 1 body) (Function.update_self 0 ..)
  rw [Function.update_idem] at ends
  refine ⟨_, mem_eval.2 ⟨runs.trans ends, rfl⟩, ?_⟩
  exact {
    returned := rfl
    actions_eq := by
      rw [actions_append, actions_append, actions_trace]
      exact List.append_nil _
    root := by simp
    others_gone := fun k other => by simp [other]
    root_life := ⟨trace 0 1 body, rfl, fun e found own => by
      rcases trace_subjects 0 1 body e found with ⟨-, inside⟩ | range
      · exact inside
      · omega⟩
    children := fun c above under => by
      obtain ⟨parent, lived⟩ := trace_lived 0 1 body Nat.one_pos c above under
      refine ⟨parent, lived.within ?_ ?_⟩ <;> simp [Event.subject] <;> omega
    resumptions_eq := fun k under => by
      dsimp only at under ⊢
      have inBody := resumptions_trace k 0 1 body
      rw [resumptions_append, resumptions_append, awaits_append, awaits_append, inBody]
      simp only [resumptions, awaits, List.countP_cons, List.countP_nil, Event.resumes, Event.finds, beq_iff_eq,
        Bool.false_eq_true, if_false]
      split_ifs <;> omega }

end Await.Jax.Awaithe
