import Await.General.MoveOnly
import Await.General.Transition

/-! The wait of `stop1.cpp`: `async_wait` is given a `Callback` that may be moved, called,
or dropped when the io context is destroyed, and resumes the waiting coroutine in each case. -/

namespace Await.Live.Timer
open General.MoveOnly General.Transition

/-- A pointer to the `Awaiter`, and a handle that may be null. -/
structure Callback where
  me : Nat
  coro : Option Nat
  deriving DecidableEq, Repr

/-- What a callback does to the awaiter and to the coroutine. -/
inductive Touch (ε : Type) where
  | setEc (me : Nat) (ec : ε)
  | resume (coro : Nat)
  deriving DecidableEq, Repr

/-- The objects alive and how many there have been, and what they have touched. -/
structure State (ε : Type) where
  objects : Nat → Option Callback
  made : Nat
  touched : List (Touch ε) := []

/-- What the timer does with an object, or a container that holds it. -/
inductive Action (ε : Type) where
  | move (i : Nat)
  | call (i : Nat) (ec : ε)
  | destroy (i : Nat)
  deriving DecidableEq, Repr

variable {ε : Type}

def State.put (i : Nat) (callback : Option Callback) (s : State ε) : State ε :=
  { s with objects := Function.update s.objects i callback }

/-- `Callback(Callback && other) : me(other.me), coro(other.coro) { other.coro = nullptr; }` -/
def State.move (i : Nat) (s : State ε) : Option (State ε) := do
  let other ← s.objects i
  some { (s.put i (some { other with coro := none })).put s.made (some { me := other.me, coro := other.coro }) with
    made := s.made + 1 }

/-- `me->ec = ec; auto tmp = coro; coro = {}; tmp.resume();`, up to the resumption, after
which nothing is left to do. A null handle cannot be resumed. -/
def State.call (i : Nat) (ec : ε) (s : State ε) : Option (State ε) := do
  let callback ← s.objects i
  let tmp ← callback.coro
  some { s.put i (some { callback with coro := none }) with
    touched := s.touched ++ [.setEc callback.me ec, .resume tmp] }

/-- `if (coro) { me->ec = error::operation_aborted; coro.resume(); }` -/
def State.destroy (operationAborted : ε) (i : Nat) (s : State ε) : Option (State ε) := do
  let callback ← s.objects i
  match callback.coro with
  | some coro => some { s.put i none with touched := s.touched ++ [.setEc callback.me operationAborted, .resume coro] }
  | none => some (s.put i none)

/-- The calls and destructions made while the coroutine runs on from a resumption come
after it, like those made later. -/
def step (operationAborted : ε) (s : State ε) : Action ε → Option (State ε)
  | .move i => s.move i
  | .call i ec => s.call i ec
  | .destroy i => s.destroy operationAborted i

/-- `Callback{this, coro}` in `await_suspend`. -/
def start (me coro : Nat) : State ε where
  objects := Function.update (fun _ => none) 0 (some ⟨me, some coro⟩)
  made := 1

/-- The error codes of the calls. -/
def codes (actions : List (Action ε)) : List ε :=
  actions.filterMap fun
    | .call _ ec => some ec
    | .move _ | .destroy _ => none

/-- What has become of the wait: it goes on, and one object has the handle; or it has ended
with an error code, and none has it. -/
structure Wait (operationAborted : ε) (me coro : Nat) (past : List (Action ε)) (s : State ε) : Prop where
  fresh : ∀ i, s.made ≤ i → s.objects i = none
  awaiter : ∀ i callback, s.objects i = some callback → callback.me = me
  phase : (s.touched = [] ∧ codes past = [] ∧ Sole Callback.coro s.objects coro) ∨
    ∃ ec, s.touched = [.setEc me ec, .resume coro] ∧ (codes past = [ec] ∨ codes past = [] ∧ ec = operationAborted) ∧
      Spent Callback.coro s.objects

section
variable {operationAborted : ε} {me coro i : Nat} {past : List (Action ε)} {s t : State ε} {ec : ε}

theorem codes_concat (past : List (Action ε)) (action : Action ε) :
    codes (past ++ [action]) = codes past ++ codes [action] := List.filterMap_append ..

theorem Wait.move (wait : Wait operationAborted me coro past s) (stepped : s.move i = some t) :
    Wait operationAborted me coro (past ++ [.move i]) t := by
  obtain ⟨other, present, rfl⟩ : ∃ other, s.objects i = some other ∧ _ = t := by
    simpa [State.move, Option.bind_eq_some_iff] using stepped
  have fresh := wait.fresh s.made le_rfl
  have same := wait.awaiter i other present
  have same_codes : codes (past ++ [.move i]) = codes past := by simp [codes]
  refine ⟨fresh_move wait.fresh present _ _, ?_, ?_⟩
  · refine forall_set (forall_set wait.awaiter ?_) ?_ <;> (rintro _ ⟨⟩; exact same)
  · rw [same_codes]
    rcases wait.phase with ⟨untouched, uncalled, sole⟩ | ⟨ec, touched, reason, spent⟩
    · exact .inl ⟨untouched, uncalled, sole.move present fresh rfl rfl⟩
    · exact .inr ⟨ec, touched, reason, spent.move present rfl rfl⟩

theorem Wait.call (wait : Wait operationAborted me coro past s) (stepped : s.call i ec = some t) :
    Wait operationAborted me coro (past ++ [.call i ec]) t := by
  obtain ⟨callback, present, tmp, holds, rfl⟩ : ∃ callback, s.objects i = some callback ∧
      ∃ tmp, callback.coro = some tmp ∧ _ = t := by
    simpa [State.call, Option.bind_eq_some_iff] using stepped
  have same := wait.awaiter i callback present
  refine ⟨fresh_set wait.fresh present _, forall_set wait.awaiter (by rintro _ ⟨⟩; exact same), ?_⟩
  rcases wait.phase with ⟨untouched, uncalled, sole⟩ | ⟨ec', touched, reason, spent⟩
  · obtain rfl := sole.eq present holds
    have called : codes (past ++ [.call i ec]) = [ec] := by
      rw [codes_concat, uncalled]
      rfl
    refine .inr ⟨ec, by simp [untouched, same], .inl called, sole.release present (by simp [holds]) ?_⟩
    rintro _ ⟨⟩
    rfl
  · rw [spent i callback present] at holds
    cases holds

theorem Wait.destroy (wait : Wait operationAborted me coro past s)
    (stepped : s.destroy operationAborted i = some t) :
    Wait operationAborted me coro (past ++ [.destroy i]) t := by
  simp only [State.destroy, Option.bind_eq_bind, Option.bind_eq_some_iff] at stepped
  obtain ⟨callback, present, destroyed⟩ := stepped
  have same := wait.awaiter i callback present
  have same_codes : codes (past ++ [.destroy i]) = codes past := by simp [codes]
  have awaiter : ∀ j callback, Function.update s.objects i none j = some callback → callback.me = me :=
    forall_set wait.awaiter nofun
  cases holds : callback.coro with
  | none =>
    simp only [holds, Option.some.injEq] at destroyed
    subst destroyed
    refine ⟨fresh_set wait.fresh present _, awaiter, ?_⟩
    rw [same_codes]
    rcases wait.phase with ⟨untouched, uncalled, sole⟩ | ⟨ec, touched, reason, spent⟩
    · exact .inl ⟨untouched, uncalled, sole.keep present holds nofun⟩
    · exact .inr ⟨ec, touched, reason, spent.set nofun⟩
  | some handle =>
    simp only [holds, Option.some.injEq] at destroyed
    subst destroyed
    refine ⟨fresh_set wait.fresh present _, awaiter, ?_⟩
    rw [same_codes]
    rcases wait.phase with ⟨untouched, uncalled, sole⟩ | ⟨ec, touched, reason, spent⟩
    · obtain rfl := sole.eq present holds
      exact .inr ⟨operationAborted, by simp [untouched, same], .inr ⟨uncalled, rfl⟩,
        sole.release present (by simp [holds]) nofun⟩
    · rw [spent i callback present] at holds
      cases holds

theorem Wait.step {action : Action ε} (wait : Wait operationAborted me coro past s)
    (stepped : Timer.step operationAborted s action = some t) : Wait operationAborted me coro (past ++ [action]) t := by
  cases action with
  | move i => exact wait.move stepped
  | call i ec => exact wait.call stepped
  | destroy i => exact wait.destroy stepped

theorem step_touched {action : Action ε} (stepped : Timer.step operationAborted s action = some t) :
    s.touched <+: t.touched := by
  cases action with
  | move i =>
    obtain ⟨other, -, rfl⟩ : ∃ other, s.objects i = some other ∧ _ = t := by
      simpa [Timer.step, State.move, Option.bind_eq_some_iff] using stepped
    exact List.prefix_rfl
  | call i ec =>
    obtain ⟨callback, -, tmp, -, rfl⟩ : ∃ callback, s.objects i = some callback ∧
        ∃ tmp, callback.coro = some tmp ∧ _ = t := by
      simpa [Timer.step, State.call, Option.bind_eq_some_iff] using stepped
    exact List.prefix_append ..
  | destroy i =>
    simp only [Timer.step, State.destroy, Option.bind_eq_bind, Option.bind_eq_some_iff] at stepped
    obtain ⟨callback, -, destroyed⟩ := stepped
    split at destroyed <;> cases destroyed
    · exact List.prefix_append ..
    · exact List.prefix_rfl

theorem run_touched {actions : List (Action ε)} (path : run (step operationAborted) s actions = some t) :
    s.touched <+: t.touched := by
  have kept : ∀ u action v, s.touched <+: u.touched → Timer.step operationAborted u action = some v →
      s.touched <+: v.touched := fun _ _ _ grown stepped => grown.trans (step_touched stepped)
  have grown := run_invariant kept path List.prefix_rfl
  exact grown

theorem start_wait : Wait operationAborted me coro [] (start me coro) where
  fresh i above := by
    have apart : i ≠ 0 := by
      simp only [start] at above
      omega
    simp [start, apart]
  awaiter := by
    refine forall_set (fun _ _ found => ?_) (fun callback same => ?_)
    · cases found
    · obtain rfl := Option.some.inj same
      rfl
  phase := by
    refine .inl ⟨rfl, rfl, 0, ⟨me, some coro⟩, by simp [start], rfl, fun j other away found => ?_⟩
    simp [start, away] at found

theorem run_wait {actions : List (Action ε)} (path : run (step operationAborted) (start me coro) actions = some s) :
    Wait operationAborted me coro actions s :=
  run_invariant_past (Wait operationAborted me coro) (fun _ _ _ _ wait stepped => wait.step stepped) path start_wait

end

/-- Whatever is done with the callback and its copies: when all of them are gone the
coroutine has been resumed once, with the code of the call if there was one, and after the
resumption nothing is touched. -/
theorem resumes_once (operationAborted : ε) (me coro : Nat) (actions : List (Action ε)) (s : State ε)
    (path : run (step operationAborted) (start me coro) actions = some s) :
    ((∀ i, s.objects i = none) → (codes actions).length ≤ 1 ∧
      s.touched = [.setEc me ((codes actions).headD operationAborted), .resume coro]) ∧
    ∀ later t, run (step operationAborted) s later = some t → .resume coro ∈ s.touched → t.touched = s.touched := by
  have wait := run_wait path
  refine ⟨fun gone => ?_, fun later t path' resumed => ?_⟩
  · rcases wait.phase with ⟨-, -, i, callback, present, -⟩ | ⟨ec, touched, reason, -⟩
    · rw [gone i] at present
      cases present
    · rcases reason with called | ⟨uncalled, rfl⟩
      · simp [called, touched]
      · simp [uncalled, touched]
  · have wait' := run_wait (run_append.mpr ⟨s, path, path'⟩)
    have grown := run_touched path'
    have two : s.touched.length = 2 := by
      rcases wait.phase with ⟨untouched, -⟩ | ⟨ec, touched, -⟩
      · simp [untouched] at resumed
      · simp [touched]
    have most : t.touched.length ≤ 2 := by
      rcases wait'.phase with ⟨untouched, -⟩ | ⟨ec, touched, -⟩
      · simp [untouched]
      · simp [touched]
    exact (grown.eq_of_length_le (by omega)).symm

/-- Moved into the timer's queue, moved out again, and called: both shells are destroyed. -/
theorem resumes_once_called :
    ∃ s, run (step 995) (start 8 3) [.move 0, .destroy 0, .move 1, .call 2 0, .destroy 1, .destroy 2] = some s ∧
      ((∀ i, s.objects i = none) → [0].length ≤ 1 ∧ s.touched = [.setEc 8 0, .resume 3]) ∧
      ∀ later t, run (step 995) s later = some t → .resume 3 ∈ s.touched → t.touched = s.touched :=
  ⟨_, rfl, resumes_once 995 8 3 [.move 0, .destroy 0, .move 1, .call 2 0, .destroy 1, .destroy 2] _ rfl⟩

end Await.Live.Timer
