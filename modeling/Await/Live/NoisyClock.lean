import Await.Live.Timer
import Mathlib.Data.List.Basic

/-! The program of `stop1.cpp`. The coroutine `noisy_clock` waits on a timer again and again
through `better_async_wait`, a second timer stops the io context, and the destructor of the
io context drops the callback of the wait that is still going. -/

namespace Await.Live.NoisyClock
open General.MoveOnly General.Transition
open Timer (Callback)

/-- The two `co_await`s of the loop. -/
inductive Point where
  | tick | tock
  deriving DecidableEq, Repr

/-- The frame of `noisy_clock`: where it is suspended, and the `Awaiter` there by its number,
with its error code. `none` is no error. -/
structure Frame (ε : Type) where
  point : Point
  awaiter : Nat
  ec : Option ε := none
  deriving DecidableEq, Repr

inductive Line (ε : Type) where
  | tick | tock
  | caught (e : ε)
  | done
  | ioContextDestroyed
  deriving DecidableEq, Repr

/-- The line printed after a wait. -/
def Point.line {ε : Type} : Point → Line ε
  | .tick => .tick
  | .tock => .tock

/-- The wait after it. -/
def Point.next : Point → Point
  | .tick => .tock
  | .tock => .tick

/-- Where `main` is: in `io.run()`, at the end of the block, or after it. -/
inductive Phase where
  | running | leaving | finished
  deriving DecidableEq, Repr

/-- The frame until the body ends, the callbacks alive, how many awaiters and callbacks
there have been, and what has been printed. -/
structure State (ε : Type) where
  frame : Option (Frame ε) := none
  awaiters : Nat := 0
  objects : Nat → Option Callback := fun _ => none
  made : Nat := 0
  phase : Phase := .running
  printed : List (Line ε) := []

/-- What the timer and the io context do with a callback, and the two events of `main`: the
handler of `fast_timer` stops the io context, and the block is left. -/
inductive Action (ε : Type) where
  | move (i : Nat)
  | call (i : Nat) (ec : Option ε)
  | destroy (i : Nat)
  | stop
  | close
  deriving DecidableEq, Repr

/-- The handle of `noisy_clock`, the only coroutine. -/
def clock : Nat := 0

section
variable {ε : Type}

def State.print (line : Line ε) (s : State ε) : State ε := { s with printed := s.printed ++ [line] }

/-- `co_await better_async_wait(timer, 1s)`, up to its suspension: one second is not ready
at once, so that `await_suspend` makes a `Callback{this, coro}`. -/
def State.wait (point : Point) (s : State ε) : State ε :=
  { s with
    frame := some { point, awaiter := s.awaiters }
    awaiters := s.awaiters + 1
    objects := Function.update s.objects s.made (some ⟨s.awaiters, some clock⟩)
    made := s.made + 1 }

/-- `coro.resume()`. Either `await_resume` throws, and the exception is caught outside of the
loop, or the loop goes on to the next wait, which needs the timer to be there still. -/
def State.resume (s : State ε) : Option (State ε) := do
  let frame ← s.frame
  match frame.ec with
  | some e => some ({ s with frame := none }.print (.caught e))
  | none =>
      if s.phase = .running then some ((s.print frame.point.line).wait frame.point.next) else none

/-- `me->ec = ec`, which needs the awaiter to be there still. -/
def State.setEc (me : Nat) (ec : Option ε) (s : State ε) : Option (State ε) := do
  let frame ← s.frame
  if frame.awaiter = me then some { s with frame := some { frame with ec } } else none

def State.put (i : Nat) (callback : Option Callback) (s : State ε) : State ε :=
  { s with objects := Function.update s.objects i callback }

/-- `Callback(Callback && other) : me(other.me), coro(other.coro) { other.coro = nullptr; }` -/
def State.move (i : Nat) (s : State ε) : Option (State ε) := do
  let other ← s.objects i
  some { (s.put i (some { other with coro := none })).put s.made (some { me := other.me, coro := other.coro }) with
    made := s.made + 1 }

/-- `me->ec = ec; auto tmp = coro; coro = {}; tmp.resume();` -/
def State.call (i : Nat) (ec : Option ε) (s : State ε) : Option (State ε) := do
  let callback ← s.objects i
  let s ← s.setEc callback.me ec
  let _ ← callback.coro
  (s.put i (some { callback with coro := none })).resume

/-- `if (coro) { me->ec = error::operation_aborted; coro.resume(); }` -/
def State.destroy (operationAborted : ε) (i : Nat) (s : State ε) : Option (State ε) := do
  let callback ← s.objects i
  let s := s.put i none
  match callback.coro with
  | some _ => do
      let s ← s.setEc callback.me (some operationAborted)
      s.resume
  | none => some s

/-- Handlers are called by `io.run()` only, and the io context is destroyed once nothing is
stored in it. -/
def step (operationAborted : ε) (s : State ε) : Action ε → Option (State ε)
  | .move i => s.move i
  | .call i ec => if s.phase = .running then s.call i ec else none
  | .destroy i => s.destroy operationAborted i
  | .stop => if s.phase = .running then some ({ s with phase := .leaving }.print .done) else none
  | .close =>
      if s.phase = .leaving ∧ ∀ i < s.made, s.objects i = none then
        some ({ s with phase := .finished }.print .ioContextDestroyed)
      else none

/-- `auto f = noisy_clock(timer);` runs to the first wait. -/
def start : State ε := State.wait .tick {}

/-! ### What is printed -/

/-- The `co_await` after `n` of them. -/
def turn (n : Nat) : Point := if n % 2 = 0 then .tick else .tock

/-- The first `n` lines of the loop. -/
def beats (n : Nat) : List (Line ε) := (List.range n).map fun k => (turn k).line

/-- The waits that ended without an error. -/
def elapsed (actions : List (Action ε)) : Nat :=
  actions.countP fun
    | .call _ none => true
    | _ => false

/-- What `main` has printed itself. -/
def Phase.lines : Phase → List (Line ε)
  | .running => []
  | .leaving => [.done]
  | .finished => [.done, .ioContextDestroyed]

/-- The clock waits, and one callback has its handle and a pointer to its awaiter; or it has
caught an exception and is gone, and no callback has a handle. -/
inductive Stage (operationAborted : ε) (n : Nat) (s : State ε) : Prop where
  | waiting (frame : Frame ε) (present : s.frame = some frame) (point : frame.point = turn n)
      (sole : Sole Callback.coro s.objects clock)
      (own : ∀ i callback, s.objects i = some callback → callback.coro ≠ none → callback.me = frame.awaiter)
      (printed : s.printed = beats n ++ s.phase.lines)
  | ended (e : ε) (before after : List (Line ε)) (gone : s.frame = none) (spent : Spent Callback.coro s.objects)
      (lines : s.phase.lines = before ++ after)
      (early : before = [] ∨ before = [.done] ∧ e = operationAborted)
      (printed : s.printed = beats n ++ before ++ .caught e :: after)

structure Ticking (operationAborted : ε) (n : Nat) (s : State ε) : Prop where
  fresh : ∀ i, s.made ≤ i → s.objects i = none
  empty : s.phase = .finished → ∀ i, s.objects i = none
  stage : Stage operationAborted n s

theorem beats_succ (n : Nat) : (beats (n + 1) : List (Line ε)) = beats n ++ [(turn n).line] := by
  simp only [beats, List.range_succ, List.map_append, List.map_singleton]

theorem turn_succ (n : Nat) : turn (n + 1) = (turn n).next := by
  unfold turn
  by_cases even : n % 2 = 0
  · rw [if_pos even, if_neg (by omega)]
    rfl
  · rw [if_neg even, if_pos (by omega)]
    rfl

variable {operationAborted : ε} {n i : Nat} {s t : State ε} {ec : Option ε}

/-- Nothing is left in the end. -/
theorem Ticking.inside {callback : Callback} (ticking : Ticking operationAborted n s)
    (present : s.objects i = some callback) : s.phase ≠ .finished := by
  intro finished
  rw [ticking.empty finished i] at present
  cases present

/-- The handle of a waiting clock can be resumed: its awaiter is there. -/
theorem setEc_own {frame : Frame ε} (present : s.frame = some frame) (ec : Option ε) :
    s.setEc frame.awaiter ec = some { s with frame := some { frame with ec } } := by
  simp [State.setEc, present]

theorem move_eq (stepped : s.move i = some t) : ∃ other, s.objects i = some other ∧
    t = { (s.put i (some { other with coro := none })).put s.made (some other) with made := s.made + 1 } := by
  obtain ⟨other, present, rfl⟩ : ∃ other, s.objects i = some other ∧ _ = t := by
    simpa [State.move, Option.bind_eq_some_iff] using stepped
  exact ⟨other, present, rfl⟩

theorem Ticking.move (ticking : Ticking operationAborted n s) (stepped : s.move i = some t) :
    Ticking operationAborted n t := by
  obtain ⟨other, present, rfl⟩ := move_eq stepped
  have unused := ticking.fresh s.made le_rfl
  refine ⟨fresh_move ticking.fresh present _ _, fun finished => absurd finished (ticking.inside present), ?_⟩
  cases ticking.stage with
  | waiting frame alive point sole own printed =>
    refine .waiting frame alive point (sole.move present unused rfl rfl) ?_ printed
    refine forall_set (forall_set own ?_) ?_
    · rintro _ ⟨⟩ holds
      exact absurd rfl holds
    · rintro _ ⟨⟩
      exact own i other present
  | ended e before after gone spent lines early printed =>
    exact .ended e before after gone (spent.move present rfl rfl) lines early printed

/-- The clock is resumed after its callback has given up the handle. -/
theorem resume_success {frame : Frame ε} (fresh : ∀ j, s.made ≤ j → s.objects j = none) (going : s.phase = .running)
    (present : s.frame = some frame) (fine : frame.ec = none) (point : frame.point = turn n)
    (spent : Spent Callback.coro s.objects) (printed : s.printed = beats n ++ s.phase.lines) :
    ∃ t, s.resume = some t ∧ t.phase = s.phase ∧ Ticking operationAborted (n + 1) t := by
  have resumes : s.resume = some ((s.print (turn n).line).wait (turn n).next) := by
    simp [State.resume, present, fine, point, going]
  refine ⟨_, resumes, rfl, ?_, fun finished => absurd (going.symm.trans finished) (by decide),
    .waiting _ rfl (turn_succ n).symm ?_ ?_ ?_⟩
  · intro j above
    have apart : j ≠ s.made := by
      rintro rfl
      exact absurd above (Nat.not_succ_le_self _)
    change Function.update s.objects s.made _ j = none
    rw [Function.update_of_ne apart]
    exact fresh j (Nat.le_of_succ_le above)
  · exact spent.make s.made rfl
  · refine forall_set (fun j callback found holds => absurd (spent j callback found) holds) ?_
    rintro _ ⟨⟩ -
    rfl
  · change s.printed ++ [(turn n).line] = beats (n + 1) ++ s.phase.lines
    rw [printed, going, beats_succ]
    simp only [Phase.lines, List.append_nil]

theorem resume_failure {frame : Frame ε} {e : ε} (fresh : ∀ j, s.made ≤ j → s.objects j = none)
    (present : s.frame = some frame) (failed : frame.ec = some e) (late : s.phase ≠ .running → e = operationAborted)
    (inside : s.phase ≠ .finished) (spent : Spent Callback.coro s.objects)
    (printed : s.printed = beats n ++ s.phase.lines) :
    ∃ t, s.resume = some t ∧ t.phase = s.phase ∧ t.made = s.made ∧ t.objects = s.objects ∧
      Ticking operationAborted n t := by
  have resumes : s.resume = some ({ s with frame := none }.print (.caught e)) := by
    simp [State.resume, present, failed]
  refine ⟨_, resumes, rfl, rfl, rfl, fresh, fun finished => absurd finished inside,
    .ended e s.phase.lines [] rfl spent (List.append_nil _).symm ?_ ?_⟩
  · cases phase : s.phase with
    | running => exact .inl rfl
    | leaving => exact .inr ⟨rfl, late (by simp [phase])⟩
    | finished => exact absurd phase inside
  · change s.printed ++ [.caught e] = beats n ++ s.phase.lines ++ [.caught e]
    rw [printed]

theorem Ticking.call {callback : Callback} (ticking : Ticking operationAborted n s) (going : s.phase = .running)
    (present : s.objects i = some callback) (holds : callback.coro ≠ none) (ec : Option ε) :
    ∃ t, s.call i ec = some t ∧ Ticking operationAborted (n + elapsed [.call i ec]) t := by
  obtain ⟨tmp, holds'⟩ := Option.ne_none_iff_exists'.mp holds
  cases ticking.stage with
  | ended e before after gone spent lines early printed => exact absurd (spent i callback present) holds
  | waiting frame alive point sole own printed =>
    let u := { s with frame := some { frame with ec } }.put i (some { callback with coro := none })
    have owned : s.setEc callback.me ec = some { s with frame := some { frame with ec } } := by
      rw [own i callback present holds]
      exact setEc_own alive ec
    have called : s.call i ec = u.resume := by
      simp only [State.call, present, owned, holds', Option.bind_eq_bind, Option.bind_some]
      rfl
    have fresh : ∀ j, u.made ≤ j → u.objects j = none := fresh_set ticking.fresh present _
    have spent : Spent Callback.coro u.objects := by
      refine sole.release present holds ?_
      rintro _ ⟨⟩
      rfl
    rw [called]
    cases ec with
    | none =>
      have goes_on : ∃ t, u.resume = some t ∧ t.phase = u.phase ∧ Ticking operationAborted (n + 1) t :=
        resume_success fresh going rfl rfl point spent printed
      obtain ⟨t, resumes, -, ticking'⟩ := goes_on
      exact ⟨t, resumes, ticking'⟩
    | some e =>
      have catches : ∃ t, u.resume = some t ∧ t.phase = u.phase ∧ t.made = u.made ∧ t.objects = u.objects ∧
          Ticking operationAborted n t :=
        resume_failure fresh rfl rfl (fun stopped => absurd going stopped) (ticking.inside present) spent printed
      obtain ⟨t, resumes, -, -, -, ticking'⟩ := catches
      exact ⟨t, resumes, ticking'⟩

theorem Ticking.destroy {callback : Callback} (ticking : Ticking operationAborted n s)
    (present : s.objects i = some callback) :
    ∃ t, s.destroy operationAborted i = some t ∧ t.phase = s.phase ∧ t.made = s.made ∧
      t.objects = Function.update s.objects i none ∧ Ticking operationAborted n t := by
  have inside := ticking.inside present
  have fresh := fresh_set ticking.fresh present none
  cases ticking.stage with
  | ended e before after gone spent lines early printed =>
    have destroyed : s.destroy operationAborted i = some (s.put i none) := by
      simp [State.destroy, present, spent i callback present]
    exact ⟨_, destroyed, rfl, rfl, rfl, fresh, fun finished => absurd finished inside,
      .ended e before after gone (spent.set nofun) lines early printed⟩
  | waiting frame alive point sole own printed =>
    cases holds : callback.coro with
    | none =>
      have destroyed : s.destroy operationAborted i = some (s.put i none) := by
        simp [State.destroy, present, holds]
      exact ⟨_, destroyed, rfl, rfl, rfl, fresh, fun finished => absurd finished inside,
        .waiting frame alive point (sole.keep present holds nofun) (forall_set own nofun) printed⟩
    | some handle =>
      have holder : callback.coro ≠ none := by simp [holds]
      let u := { s.put i none with frame := some { frame with ec := some operationAborted } }
      have destroyed : s.destroy operationAborted i = u.resume := by
        have owned : (s.put i none).setEc callback.me (some operationAborted) = some u := by
          rw [own i callback present holder]
          exact setEc_own (s := s.put i none) alive (some operationAborted)
        simp only [State.destroy, present, holds, Option.bind_eq_bind, Option.bind_some, owned]
      rw [destroyed]
      have spent : Spent Callback.coro u.objects := sole.release present holder nofun
      exact resume_failure (s := u) fresh rfl rfl (fun _ => rfl) inside spent printed

theorem call_holds {callback : Callback} (stepped : s.call i ec = some t) (present : s.objects i = some callback) :
    callback.coro ≠ none := by
  intro null
  simp [State.call, present, null] at stepped

theorem Ticking.step {action : Action ε} (ticking : Ticking operationAborted n s)
    (stepped : NoisyClock.step operationAborted s action = some t) :
    Ticking operationAborted (n + elapsed [action]) t := by
  cases action with
  | move i => exact ticking.move stepped
  | call i ec =>
    simp only [NoisyClock.step, Option.ite_none_right_eq_some] at stepped
    obtain ⟨going, called⟩ := stepped
    obtain ⟨callback, present, -⟩ := Option.bind_eq_some_iff.mp called
    obtain ⟨t', called', ticking'⟩ := ticking.call going present (call_holds called present) ec
    obtain rfl := Option.some.inj (called.symm.trans called')
    exact ticking'
  | destroy i =>
    obtain ⟨callback, present, -⟩ := Option.bind_eq_some_iff.mp stepped
    obtain ⟨t', destroyed, -, -, -, ticking'⟩ := ticking.destroy present
    obtain rfl := Option.some.inj (stepped.symm.trans destroyed)
    exact ticking'
  | stop =>
    simp only [NoisyClock.step, Option.ite_none_right_eq_some, Option.some.injEq] at stepped
    obtain ⟨going, rfl⟩ := stepped
    refine ⟨ticking.fresh, nofun, ?_⟩
    cases ticking.stage with
    | waiting frame alive point sole own printed =>
      refine .waiting frame alive point sole own ?_
      change s.printed ++ [.done] = beats n ++ [.done]
      rw [printed, going]
      simp only [Phase.lines, List.append_nil]
    | ended e before after gone spent lines early printed =>
      rw [going] at lines
      obtain ⟨rfl, rfl⟩ := List.append_eq_nil_iff.mp lines.symm
      refine .ended e [] [.done] gone spent rfl (.inl rfl) ?_
      change s.printed ++ [.done] = beats n ++ [] ++ .caught e :: [.done]
      rw [printed]
      simp only [List.append_assoc, List.cons_append, List.nil_append]
  | close =>
    simp only [NoisyClock.step, Option.ite_none_right_eq_some, Option.some.injEq] at stepped
    obtain ⟨⟨leaving, none_left⟩, rfl⟩ := stepped
    have empty : ∀ j, s.objects j = none := by
      intro j
      by_cases below : j < s.made
      · exact none_left j below
      · exact ticking.fresh j (Nat.not_lt.mp below)
    refine ⟨ticking.fresh, fun _ => empty, ?_⟩
    cases ticking.stage with
    | waiting frame alive point sole own printed =>
      obtain ⟨j, callback, present, -⟩ := sole
      rw [empty j] at present
      cases present
    | ended e before after gone spent lines early printed =>
      rw [leaving] at lines
      refine .ended e before (after ++ [.ioContextDestroyed]) gone spent ?_ early ?_
      · rw [← List.append_assoc, ← lines]
        rfl
      · change s.printed ++ [.ioContextDestroyed] = beats n ++ before ++ .caught e :: (after ++ [.ioContextDestroyed])
        rw [printed]
        simp only [List.append_assoc, List.cons_append]

theorem start_ticking : Ticking operationAborted 0 start where
  fresh j above := by
    have apart : j ≠ 0 := Nat.ne_of_gt above
    exact Function.update_of_ne apart ..
  empty := nofun
  stage := by
    have spent : Spent Callback.coro ({} : State ε).objects := nofun
    refine .waiting _ rfl rfl (spent.make 0 rfl) ?_ rfl
    refine forall_set nofun ?_
    rintro _ ⟨⟩ -
    rfl

theorem run_ticking {actions : List (Action ε)} (path : run (step operationAborted) start actions = some s) :
    Ticking operationAborted (elapsed actions) s := by
  have kept : ∀ past s action t, Ticking operationAborted (elapsed past) s → step operationAborted s action = some t →
      Ticking operationAborted (elapsed (past ++ [action])) t := by
    intro past s action t ticking stepped
    have more : elapsed (past ++ [action]) = elapsed past + elapsed [action] := List.countP_append ..
    exact more ▸ ticking.step stepped
  have ticking := run_invariant_past (fun past s => Ticking operationAborted (elapsed past) s) kept path start_ticking
  exact ticking

/-! ### The end of the program -/

/-- The destructor of the io context drops one callback after the other. -/
theorem drops_all (k : Nat) (ticking : Ticking operationAborted n s) (leaving : s.phase = .leaving)
    (dropped : ∀ i, k ≤ i → s.objects i = none) :
    CanReach (step operationAborted) (fun t => t.phase = .finished) s := by
  induction k generalizing s with
  | zero =>
    have gone : ∀ i < s.made, s.objects i = none := fun i _ => dropped i (Nat.zero_le i)
    exact .after .close (if_pos ⟨leaving, gone⟩) (.here rfl)
  | succ k ih =>
    cases present : s.objects k with
    | none =>
      refine ih ticking leaving fun i above => ?_
      rcases Nat.eq_or_lt_of_le above with rfl | above
      · exact present
      · exact dropped i above
    | some callback =>
      obtain ⟨t, destroyed, same, -, objects, ticking'⟩ := ticking.destroy present
      refine .after (.destroy k) destroyed (ih ticking' (same.trans leaving) fun i above => ?_)
      rw [objects]
      rcases Nat.eq_or_lt_of_le above with rfl | above
      · exact Function.update_self ..
      · rw [Function.update_of_ne (Nat.ne_of_gt above)]
        exact dropped i above

theorem Ticking.can_end (ticking : Ticking operationAborted n s) :
    CanReach (NoisyClock.step operationAborted) (fun t => t.phase = .finished) s := by
  cases phase : s.phase with
  | running =>
    have stopped : NoisyClock.step operationAborted s .stop = some ({ s with phase := .leaving }.print .done) :=
      if_pos phase
    exact .after .stop stopped (drops_all _ (ticking.step stopped) rfl ticking.fresh)
  | leaving => exact drops_all s.made ticking phase ticking.fresh
  | finished => exact .here phase

/-- The clock is there exactly as long as a callback has its handle. -/
theorem Ticking.alive_iff (ticking : Ticking operationAborted n s) :
    s.frame.isSome ↔ ∃ i callback, s.objects i = some callback ∧ callback.coro ≠ none := by
  cases ticking.stage with
  | waiting frame alive point sole own printed =>
    obtain ⟨i, callback, present, holds, -⟩ := sole
    rw [alive]
    exact iff_of_true rfl ⟨i, callback, present, by simp [holds]⟩
  | ended e before after gone spent lines early printed =>
    rw [gone]
    refine iff_of_false Bool.false_ne_true ?_
    rintro ⟨i, callback, present, holds⟩
    exact holds (spent i callback present)

/-- What the program has printed when it has finished. -/
theorem Ticking.printed_finished (ticking : Ticking operationAborted n s) (finished : s.phase = .finished) :
    s.printed = beats n ++ [.done, .caught operationAborted, .ioContextDestroyed] ∨
      ∃ e, s.printed = beats n ++ [.caught e, .done, .ioContextDestroyed] := by
  cases ticking.stage with
  | waiting frame alive point sole own printed =>
    obtain ⟨i, callback, present, -⟩ := sole
    rw [ticking.empty finished i] at present
    cases present
  | ended e before after gone spent lines early printed =>
    rw [finished] at lines
    rcases early with rfl | ⟨rfl, rfl⟩
    · obtain rfl : [.done, .ioContextDestroyed] = after := lines
      exact .inr ⟨e, by simpa using printed⟩
    · obtain rfl : [.ioContextDestroyed] = after := (List.cons.inj lines).2
      exact .inl (by simpa using printed)

/-- Whatever the io context does with the callbacks: what is dropped can be dropped and what
is called can be called, the clock is there as long as a callback has its handle, and the
program can come to its end. There the clock is gone, has printed a line in turn for each
wait that ended well, and has caught one exception before the io context was gone. -/
theorem clock_stops (operationAborted : ε) (actions : List (Action ε)) (s : State ε)
    (path : run (step operationAborted) start actions = some s) :
    (∀ i callback, s.objects i = some callback →
      (∃ t, step operationAborted s (.destroy i) = some t) ∧
      (s.phase = .running → callback.coro ≠ none → ∀ ec, ∃ t, step operationAborted s (.call i ec) = some t)) ∧
    (s.frame.isSome ↔ ∃ i callback, s.objects i = some callback ∧ callback.coro ≠ none) ∧
    CanReach (step operationAborted) (fun t => t.phase = .finished) s ∧
    (s.phase = .finished → s.frame = none ∧
      (s.printed = beats (elapsed actions) ++ [.done, .caught operationAborted, .ioContextDestroyed] ∨
        ∃ e, s.printed = beats (elapsed actions) ++ [.caught e, .done, .ioContextDestroyed])) := by
  have ticking := run_ticking path
  refine ⟨fun i callback present => ⟨?_, fun going holds ec => ?_⟩, ticking.alive_iff, ticking.can_end,
    fun finished => ⟨?_, ?_⟩⟩
  · obtain ⟨t, destroyed, -⟩ := ticking.destroy present
    exact ⟨t, destroyed⟩
  · obtain ⟨t, called, -⟩ := ticking.call going present holds ec
    exact ⟨t, (if_pos going).trans called⟩
  · rw [← Option.not_isSome_iff_eq_none, ticking.alive_iff]
    rintro ⟨i, callback, present, -⟩
    rw [ticking.empty finished i] at present
    cases present
  · exact ticking.printed_finished finished

/-- One tick, and the io context is stopped while the next wait goes on. -/
theorem clock_stops_tick :
    ∃ s, run (step 995) start [.move 0, .destroy 0, .call 1 none, .destroy 1, .stop, .destroy 2, .close] = some s ∧
      (∀ i callback, s.objects i = some callback →
        (∃ t, step 995 s (.destroy i) = some t) ∧
        (s.phase = .running → callback.coro ≠ none → ∀ ec, ∃ t, step 995 s (.call i ec) = some t)) ∧
      (s.frame.isSome ↔ ∃ i callback, s.objects i = some callback ∧ callback.coro ≠ none) ∧
      CanReach (step 995) (fun t => t.phase = .finished) s ∧
      (s.phase = .finished → s.frame = none ∧
        (s.printed = beats 1 ++ [.done, .caught 995, .ioContextDestroyed] ∨
          ∃ e, s.printed = beats 1 ++ [.caught e, .done, .ioContextDestroyed])) :=
  ⟨_, rfl, clock_stops 995 [.move 0, .destroy 0, .call 1 none, .destroy 1, .stop, .destroy 2, .close] _ rfl⟩

end

end Await.Live.NoisyClock
