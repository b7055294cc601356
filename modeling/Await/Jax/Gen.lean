import Await.General.MoveOnly
import Await.General.Transition
import Mathlib.Data.List.Infix

/-! `generator` of `gen.cpp`, a range-for over it, and what may be done with the generator
object meanwhile: it may be moved, and destroyed with the frame that it owns. -/

namespace Await.Jax.Gen
open General.MoveOnly General.Transition StateTransition

/-- A coroutine frame: where the body stands, the `current_value` of the promise, which the
first `co_yield` initializes, and whether the final suspend point has been reached. -/
structure Frame (σ α : Type) where
  body : σ
  currentValue : Option α := none
  done : Bool := false
  deriving DecidableEq, Repr

structure Generator where
  p : Option Nat
  deriving DecidableEq, Repr

structure Iterator where
  coro : Nat
  done : Bool
  deriving DecidableEq, Repr

/-- A range-for, with its `__begin` and `__end`. -/
inductive Loop where
  | outside
  | testing (it last : Iterator)
  | body (it last : Iterator)
  | left
  | ended
  deriving DecidableEq, Repr

/-- The frames and the generator objects there are, how many objects there have been, the
loop, and a record: the values it has seen, the resumptions, and the frames destroyed. -/
structure State (σ α : Type) where
  frames : Nat → Option (Frame σ α)
  objects : Nat → Option Generator
  made : Nat
  loop : Loop := .outside
  seen : List α := []
  resumed : Nat := 0
  destroyed : List Nat := []

inductive Action where
  | move (i : Nat)
  | destroy (i : Nat)
  | forRange (i : Nat)
  | test
  | increment
  | leave
  deriving DecidableEq, Repr

section
variable {σ α : Type} (toYield : σ → Option (α × σ))

/-- The body runs on to its next `co_yield`, or to its end. -/
def Frame.run (frame : Frame σ α) : Frame σ α :=
  match toYield frame.body with
  | some (value, body) => { frame with body, currentValue := some value }
  | none => { frame with done := true }

/-- `resume()`. A coroutine that is done, or gone, cannot be resumed. -/
def State.resume (h : Nat) (s : State σ α) : Option (State σ α) := do
  let frame ← s.frames h
  if frame.done then none
  else some { s with
    frames := Function.update s.frames h (some (frame.run toYield))
    resumed := s.resumed + 1 }

/-- `p.resume(); return {p, p.done()};`, and `end()`, which is `{p, true}`. -/
def State.forRange (i : Nat) (s : State σ α) : Option (State σ α) := do
  let g ← s.objects i
  let p ← g.p
  let s ← s.resume toYield p
  let frame ← s.frames p
  some { s with loop := .testing ⟨p, frame.done⟩ ⟨p, true⟩ }

/-- `__begin != __end`, which is about `_Done` alone, and then `*__begin`. -/
def State.test (it last : Iterator) (s : State σ α) : Option (State σ α) :=
  if it.done = last.done then some { s with loop := .ended }
  else do
    let frame ← s.frames it.coro
    let v ← frame.currentValue
    some { s with seen := s.seen ++ [v], loop := .body it last }

/-- `_Coro.resume(); _Done = _Coro.done();` -/
def State.increment (it last : Iterator) (s : State σ α) : Option (State σ α) := do
  let s ← s.resume toYield it.coro
  let frame ← s.frames it.coro
  some { s with loop := .testing { it with done := frame.done } last }

/-- `generator(generator &&rhs) : p(rhs.p) { rhs.p = nullptr; }` -/
def State.move (i : Nat) (s : State σ α) : Option (State σ α) := do
  let rhs ← s.objects i
  some { s with
    objects := Function.update (Function.update s.objects i (some ⟨none⟩)) s.made (some ⟨rhs.p⟩)
    made := s.made + 1 }

/-- `if (p) p.destroy();` -/
def State.destroy (i : Nat) (s : State σ α) : Option (State σ α) := do
  let g ← s.objects i
  let s := { s with objects := Function.update s.objects i none }
  match g.p with
  | none => some s
  | some p =>
    let _ ← s.frames p
    some { s with frames := Function.update s.frames p none, destroyed := s.destroyed ++ [p] }

/-- There is one loop. Its body may move the generator, and may leave. -/
def step (s : State σ α) : Action → Option (State σ α)
  | .move i => s.move i
  | .destroy i => s.destroy i
  | .forRange i =>
      match s.loop with
      | .outside => s.forRange toYield i
      | _ => none
  | .test =>
      match s.loop with
      | .testing it last => s.test it last
      | _ => none
  | .increment =>
      match s.loop with
      | .body it last => s.increment toYield it last
      | _ => none
  | .leave =>
      match s.loop with
      | .body _ _ => some { s with loop := .left }
      | _ => none

/-- The loop goes on by itself: it is not left, and nothing else is done meanwhile. -/
def loopStep (s : State σ α) : Option (State σ α) :=
  match s.loop with
  | .testing .. => step toYield s .test
  | .body .. => step toYield s .increment
  | _ => none

/-- The generator that a coroutine returns, at its initial suspend point. -/
def start (h : Nat) (body : σ) : State σ α where
  frames := Function.update (fun _ => none) h (some { body })
  objects := Function.update (fun _ => none) 0 (some ⟨some h⟩)
  made := 1

/-- A body that yields these values and returns. -/
inductive Yields : σ → List α → Prop where
  | done {body} : toYield body = none → Yields body []
  | yield {body value rest values} : toYield body = some (value, rest) → Yields rest values → Yields body (value :: values)

/-- Where a body stands after `n` resumptions. At most as many as it has values leave it at a
`co_yield`, with the later values still to come, and one more takes it to its end. -/
def Stands (values : List α) (n : Nat) (frame : Frame σ α) : Prop :=
  (n ≤ values.length ∧ frame.done = false ∧ Yields toYield frame.body (values.drop n) ∧
    (0 < n → frame.currentValue = values[n - 1]?)) ∨
  (n = values.length + 1 ∧ frame.done = true)

end

/-- What the loop has seen and how far it has taken the body. -/
def Progressed {σ α : Type} (values : List α) (s : State σ α) : Prop :=
  match s.loop with
  | .outside => s.seen = [] ∧ s.resumed = 0
  | .testing .. => s.resumed = s.seen.length + 1
  | .body .. | .left => s.resumed = s.seen.length
  | .ended => s.seen = values ∧ s.resumed = values.length + 1

section
variable {σ α : Type} {toYield : σ → Option (α × σ)} {values : List α} {h i n : Nat} {frame : Frame σ α} {body : σ}
  {s t : State σ α} {it last : Iterator}

theorem Stands.run (stands : Stands toYield values n frame) (going : frame.done = false) :
    Stands toYield values (n + 1) (frame.run toYield) := by
  rcases stands with ⟨most, -, yields, -⟩ | ⟨-, ended⟩
  · rcases Nat.lt_or_eq_of_le most with inside | rfl
    · rw [List.drop_eq_getElem_cons inside] at yields
      cases yields with
      | yield reaches later =>
        exact .inl ⟨inside, by simp [Frame.run, reaches, going], by simpa [Frame.run, reaches] using later,
          by simp [Frame.run, reaches, inside]⟩
    · rw [List.drop_length] at yields
      cases yields with
      | done returns => exact .inr ⟨rfl, by simp [Frame.run, returns]⟩
  · rw [going] at ended
    cases ended

theorem Stands.done_iff (stands : Stands toYield values n frame) : frame.done = true ↔ n = values.length + 1 := by
  rcases stands with ⟨most, going, -⟩ | ⟨all, ended⟩
  · simp only [going, Bool.false_eq_true, false_iff]
    omega
  · simp [all, ended]

/-! ### The frame and its owner -/

/-- One of the objects owns the frame, or all is over with it. -/
structure Held (toYield : σ → Option (α × σ)) (values : List α) (h : Nat) (s : State σ α) : Prop where
  fresh : ∀ i, s.made ≤ i → s.objects i = none
  custody : (Sole Generator.p s.objects h ∧ s.destroyed = [] ∧
      ∃ frame, s.frames h = some frame ∧ Stands toYield values s.resumed frame) ∨
    (Spent Generator.p s.objects ∧ s.destroyed = [h] ∧ s.frames h = none)

theorem Held.stands (held : Held toYield values h s) (present : s.frames h = some frame) :
    Stands toYield values s.resumed frame := by
  rcases held.custody with ⟨-, -, found, present', stands⟩ | ⟨-, -, gone⟩
  · obtain rfl : found = frame := Option.some.inj (present'.symm.trans present)
    exact stands
  · rw [gone] at present
    cases present

theorem Held.owner {g : Generator} {p : Nat} (held : Held toYield values h s) (present : s.objects i = some g)
    (owns : g.p = some p) : p = h ∧ s.destroyed = [] ∧ ∃ frame, s.frames h = some frame := by
  rcases held.custody with ⟨sole, none_destroyed, frame, found, -⟩ | ⟨spent, -⟩
  · exact ⟨sole.eq present owns, none_destroyed, frame, found⟩
  · rw [spent i g present] at owns
    cases owns

/-- The loop and what it has seen are not the frame's concern. -/
theorem Held.goto (held : Held toYield values h s) (loop : Loop) (seen : List α) :
    Held toYield values h { s with loop, seen } := ⟨held.fresh, held.custody⟩

theorem resume_eq (present : s.frames h = some frame) (going : frame.done = false) :
    s.resume toYield h = some { s with
      frames := Function.update s.frames h (some (frame.run toYield)), resumed := s.resumed + 1 } := by
  simp [State.resume, present, going]

theorem resume_inv (resumes : s.resume toYield h = some t) :
    ∃ frame, s.frames h = some frame ∧ frame.done = false ∧ t = { s with
      frames := Function.update s.frames h (some (frame.run toYield)), resumed := s.resumed + 1 } := by
  simp only [State.resume, Option.bind_eq_bind, Option.bind_eq_some_iff] at resumes
  obtain ⟨frame, present, resumes⟩ := resumes
  cases done : frame.done with
  | true => simp [done] at resumes
  | false => exact ⟨frame, present, done, by simpa [done] using resumes.symm⟩

theorem Held.resume (held : Held toYield values h s) (present : s.frames h = some frame) (going : frame.done = false) :
    Held toYield values h { s with
      frames := Function.update s.frames h (some (frame.run toYield)), resumed := s.resumed + 1 } := by
  refine ⟨held.fresh, .inl ?_⟩
  rcases held.custody with ⟨sole, none_destroyed, -⟩ | ⟨-, -, gone⟩
  · exact ⟨sole, none_destroyed, frame.run toYield, Function.update_self .., (held.stands present).run going⟩
  · rw [gone] at present
    cases present

theorem Held.move (held : Held toYield values h s) (moves : s.move i = some t) :
    Held toYield values h t ∧ t.loop = s.loop ∧ t.seen = s.seen ∧ t.resumed = s.resumed := by
  obtain ⟨rhs, present, rfl⟩ : ∃ rhs, s.objects i = some rhs ∧ _ = t := by
    simpa [State.move, Option.bind_eq_some_iff] using moves
  have fresh := held.fresh s.made le_rfl
  refine ⟨⟨fresh_move held.fresh present _ _, ?_⟩, rfl, rfl, rfl⟩
  rcases held.custody with ⟨sole, rest⟩ | ⟨spent, rest⟩
  · exact .inl ⟨sole.move present fresh rfl rfl, rest⟩
  · exact .inr ⟨spent.move present rfl rfl, rest⟩

theorem destroy_inv (destroys : s.destroy i = some t) : ∃ g, s.objects i = some g ∧
    ((g.p = none ∧ t = { s with objects := Function.update s.objects i none }) ∨
      ∃ p, g.p = some p ∧ t = { s with
        objects := Function.update s.objects i none, frames := Function.update s.frames p none
        destroyed := s.destroyed ++ [p] }) := by
  simp only [State.destroy, Option.bind_eq_bind, Option.bind_eq_some_iff] at destroys
  obtain ⟨g, present, destroys⟩ := destroys
  refine ⟨g, present, ?_⟩
  cases owns : g.p with
  | none => exact .inl ⟨rfl, by simpa [owns] using destroys.symm⟩
  | some p =>
    simp only [owns, Option.bind_eq_some_iff, Option.some.injEq] at destroys
    obtain ⟨-, -, rfl⟩ := destroys
    exact .inr ⟨p, rfl, rfl⟩

theorem Held.destroy (held : Held toYield values h s) (destroys : s.destroy i = some t) :
    Held toYield values h t ∧ t.loop = s.loop ∧ t.seen = s.seen ∧ t.resumed = s.resumed := by
  obtain ⟨g, present, outcome⟩ := destroy_inv destroys
  have fresh := fresh_set held.fresh present none
  rcases outcome with ⟨idle, rfl⟩ | ⟨p, owns, rfl⟩
  · refine ⟨⟨fresh, ?_⟩, rfl, rfl, rfl⟩
    rcases held.custody with ⟨sole, rest⟩ | ⟨spent, rest⟩
    · exact .inl ⟨sole.keep present idle nofun, rest⟩
    · exact .inr ⟨spent.set nofun, rest⟩
  · obtain ⟨rfl, none_destroyed, -⟩ := held.owner present owns
    refine ⟨⟨fresh, .inr ⟨?_, by simp [none_destroyed], Function.update_self ..⟩⟩, rfl, rfl, rfl⟩
    rcases held.custody with ⟨sole, -⟩ | ⟨spent, -⟩
    · exact sole.release present (by simp [owns]) nofun
    · exact spent.set nofun

/-! ### The loop -/

structure Looping (values : List α) (h : Nat) (s : State σ α) : Prop where
  seen : s.seen <+: values
  progressed : Progressed values s
  testing : ∀ it last, s.loop = .testing it last →
    it.coro = h ∧ last.done = true ∧ (it.done = true ↔ s.resumed = values.length + 1)
  inBody : ∀ it last, s.loop = .body it last → it.coro = h ∧ last.done = true

theorem Looping.same (looping : Looping values h s) (loop : t.loop = s.loop) (seen : t.seen = s.seen)
    (resumed : t.resumed = s.resumed) : Looping values h t := by
  obtain ⟨prefixed, progressed, testing, inBody⟩ := looping
  refine ⟨seen ▸ prefixed, ?_, ?_, ?_⟩
  · simpa only [Progressed, loop, seen, resumed] using progressed
  · simpa only [loop, resumed] using testing
  · simpa only [loop] using inBody

theorem forRange_iterating (held : Held toYield values h s) (outside : s.loop = .outside)
    (looping : Looping values h s) (enters : s.forRange toYield i = some t) :
    Held toYield values h t ∧ Looping values h t := by
  simp only [State.forRange, Option.bind_eq_bind, Option.bind_eq_some_iff, Option.some.injEq] at enters
  obtain ⟨g, present, p, owns, mid, resumes, frame', found, rfl⟩ := enters
  obtain ⟨rfl, -, -⟩ := held.owner present owns
  obtain ⟨frame, alive, going, rfl⟩ := resume_inv resumes
  have held' := held.resume alive going
  have stands := held'.stands found
  have before := looping.progressed
  simp only [Progressed, outside] at before
  refine ⟨held'.goto .., looping.seen, ?_, ?_, by simp⟩
  · simp [Progressed, before]
  · rintro _ _ ⟨⟩
    exact ⟨rfl, rfl, stands.done_iff⟩

theorem test_iterating (held : Held toYield values h s) (testing : s.loop = .testing it last)
    (looping : Looping values h s) (tests : s.test it last = some t) :
    Held toYield values h t ∧ Looping values h t := by
  obtain ⟨rfl, last_done, done_iff⟩ := looping.testing it last testing
  have before := looping.progressed
  simp only [Progressed, testing] at before
  unfold State.test at tests
  rw [last_done] at tests
  by_cases ended : it.done = true
  · rw [if_pos ended] at tests
    cases tests
    have all := done_iff.mp ended
    have whole : s.seen = values := looping.seen.eq_of_length (by omega)
    exact ⟨held.goto .., looping.seen, by simp [Progressed, whole, all], by simp, by simp⟩
  · simp only [if_neg ended, Option.bind_eq_bind, Option.bind_eq_some_iff, Option.some.injEq] at tests
    obtain ⟨frame, present, v, value, rfl⟩ := tests
    have more : s.resumed ≠ values.length + 1 := fun all => ended (done_iff.mpr all)
    rcases held.stands present with ⟨most, -, -, current⟩ | ⟨all, -⟩
    · have inside : s.seen.length < values.length := by omega
      have element := current (by omega)
      have place : s.resumed - 1 = s.seen.length := by omega
      rw [value, place, List.getElem?_eq_getElem inside] at element
      obtain rfl := Option.some.inj element
      refine ⟨held.goto .., List.concat_get_prefix looping.seen inside, ?_, by simp, ?_⟩
      · simp [Progressed, before]
      · rintro _ _ ⟨⟩
        exact ⟨rfl, last_done⟩
    · exact absurd all more

theorem increment_iterating (held : Held toYield values h s) (inBody : s.loop = .body it last)
    (looping : Looping values h s) (increments : s.increment toYield it last = some t) :
    Held toYield values h t ∧ Looping values h t := by
  obtain ⟨rfl, last_done⟩ := looping.inBody it last inBody
  have before := looping.progressed
  simp only [Progressed, inBody] at before
  simp only [State.increment, Option.bind_eq_bind, Option.bind_eq_some_iff, Option.some.injEq] at increments
  obtain ⟨mid, resumes, frame', found, rfl⟩ := increments
  obtain ⟨frame, alive, going, rfl⟩ := resume_inv resumes
  have held' := held.resume alive going
  refine ⟨held'.goto .., looping.seen, ?_, ?_, by simp⟩
  · simp [Progressed, before]
  · rintro _ _ ⟨⟩
    exact ⟨rfl, last_done, (held'.stands found).done_iff⟩

theorem step_iterating {action : Action} (held : Held toYield values h s) (looping : Looping values h s)
    (stepped : step toYield s action = some t) : Held toYield values h t ∧ Looping values h t := by
  cases action with
  | move i =>
    obtain ⟨held', loop, seen, resumed⟩ := held.move stepped
    exact ⟨held', looping.same loop seen resumed⟩
  | destroy i =>
    obtain ⟨held', loop, seen, resumed⟩ := held.destroy stepped
    exact ⟨held', looping.same loop seen resumed⟩
  | forRange i =>
    simp only [step] at stepped
    split at stepped
    · next outside => exact forRange_iterating held outside looping stepped
    · cases stepped
  | test =>
    simp only [step] at stepped
    split at stepped
    · next testing => exact test_iterating held testing looping stepped
    · cases stepped
  | increment =>
    simp only [step] at stepped
    split at stepped
    · next inBody => exact increment_iterating held inBody looping stepped
    · cases stepped
  | leave =>
    simp only [step] at stepped
    split at stepped
    · next inBody =>
      cases stepped
      have before := looping.progressed
      simp only [Progressed, inBody] at before
      exact ⟨held.goto .., looping.seen, before, by simp, by simp⟩
    · cases stepped

theorem start_held (yields : Yields toYield body values) : Held toYield values h (start h body) where
  fresh i above := by
    have apart : i ≠ 0 := by
      simp only [start] at above
      omega
    simp [start, apart]
  custody := by
    refine .inl ⟨⟨0, ⟨some h⟩, by simp [start], rfl, fun j other away found => ?_⟩, rfl, { body }, by simp [start], ?_⟩
    · simp [start, away] at found
    · exact .inl ⟨Nat.zero_le _, rfl, yields, by simp [start]⟩

theorem start_looping : Looping values h (start h body : State σ α) :=
  ⟨List.nil_prefix, ⟨rfl, rfl⟩, nofun, nofun⟩

theorem run_iterating {actions : List Action} (yields : Yields toYield body values)
    (path : run (step toYield) (start h body) actions = some s) : Held toYield values h s ∧ Looping values h s := by
  have kept : ∀ s action t, Held toYield values h s ∧ Looping values h s → step toYield s action = some t →
      Held toYield values h t ∧ Looping values h t := by
    rintro s action t ⟨held, looping⟩ stepped
    exact step_iterating held looping stepped
  have both := run_invariant kept path ⟨start_held yields, start_looping⟩
  exact both

/-! ### Nothing is undefined -/

/-- The loop can be entered with a generator that has not been moved from, and goes on for as
long as the frame lives: it never resumes a body that is done. -/
def Ready (toYield : σ → Option (α × σ)) (h : Nat) (s : State σ α) : Prop :=
  match s.loop with
  | .outside => ∀ i p, s.objects i = some ⟨some p⟩ → ∃ t, step toYield s (.forRange i) = some t
  | .testing .. => s.frames h ≠ none → ∃ t, step toYield s .test = some t
  | .body .. => s.frames h ≠ none → ∃ t, step toYield s .increment = some t
  | .left | .ended => True

theorem resume_ready (held : Held toYield values h s) (present : s.frames h = some frame)
    (few : s.resumed ≤ values.length) : ∃ t frame', s.resume toYield h = some t ∧ t.frames h = some frame' := by
  have going : frame.done = false := by
    rw [Bool.eq_false_iff, ne_eq, (held.stands present).done_iff]
    omega
  exact ⟨_, _, resume_eq present going, Function.update_self ..⟩

theorem iterating_ready (held : Held toYield values h s) (looping : Looping values h s) : Ready toYield h s := by
  have before := looping.progressed
  have few := looping.seen.length_le
  unfold Ready
  cases loop : s.loop with
  | outside =>
    simp only [Progressed, loop] at before
    intro i p present
    obtain ⟨rfl, -, frame, alive⟩ := held.owner present rfl
    obtain ⟨t, frame', resumes, found⟩ := resume_ready held alive (by omega)
    simp [step, loop, State.forRange, present, resumes, found]
  | testing it last =>
    simp only [Progressed, loop] at before
    intro alive
    obtain ⟨frame, present⟩ := Option.ne_none_iff_exists'.mp alive
    obtain ⟨rfl, last_done, done_iff⟩ := looping.testing it last loop
    by_cases ended : it.done = true
    · simp [step, loop, State.test, ended, last_done]
    · rcases held.stands present with ⟨most, -, -, current⟩ | ⟨all, -⟩
      · have value := current (by omega)
        rw [List.getElem?_eq_getElem (by omega)] at value
        simp [step, loop, State.test, ended, last_done, present, value]
      · exact absurd (done_iff.mpr all) ended
  | body it last =>
    simp only [Progressed, loop] at before
    intro alive
    obtain ⟨frame, present⟩ := Option.ne_none_iff_exists'.mp alive
    obtain ⟨rfl, -⟩ := looping.inBody it last loop
    obtain ⟨t, frame', resumes, found⟩ := resume_ready held present (by omega)
    simp [step, loop, State.increment, resumes, found]
  | left => trivial
  | ended => trivial

theorem destroy_ready (held : Held toYield values h s) (present : s.objects i ≠ none) :
    ∃ t, step toYield s (.destroy i) = some t := by
  obtain ⟨g, found⟩ := Option.ne_none_iff_exists'.mp present
  cases owns : g.p with
  | none => simp [step, State.destroy, found, owns]
  | some p =>
    obtain ⟨rfl, -, frame, alive⟩ := held.owner found owns
    simp [step, State.destroy, found, owns, alive]

/-! ### The loop arrives -/

/-- The loop comes to the body of its `k`-th iteration, or to its end if there are fewer. -/
def Arrives (values : List α) (k : Nat) (t : State σ α) : Prop :=
  (k ≤ values.length ∧ (∃ it last, t.loop = .body it last) ∧ t.seen = values.take k) ∨
    (values.length < k ∧ t.loop = .ended ∧ t.seen = values)

/-- The loop is on its way to the `k`-th iteration. -/
structure Underway (toYield : σ → Option (α × σ)) (values : List α) (h k : Nat) (s : State σ α) : Prop where
  held : Held toYield values h s
  looping : Looping values h s
  alive : s.frames h ≠ none
  place : match s.loop with
    | .testing .. => s.seen.length < k
    | .body .. => s.seen.length ≤ k
    | .ended => values.length < k
    | _ => False

/-- The tests and increments left. -/
def rounds (values : List α) (s : State σ α) : Nat :=
  match s.loop with
  | .testing .. => 2 * (values.length - s.seen.length) + 1
  | .body .. => 2 * (values.length - s.seen.length) + 2
  | _ => 0

theorem test_cases (tests : s.test it last = some t) :
    t = { s with loop := .ended } ∨ ∃ v, t = { s with seen := s.seen ++ [v], loop := .body it last } := by
  unfold State.test at tests
  split at tests
  · cases tests
    exact .inl rfl
  · simp only [Option.bind_eq_bind, Option.bind_eq_some_iff, Option.some.injEq] at tests
    obtain ⟨-, -, v, -, rfl⟩ := tests
    exact .inr ⟨v, rfl⟩

theorem increment_cases (increments : s.increment toYield it last = some t) :
    t.frames it.coro ≠ none ∧ (∃ it', t.loop = .testing it' last) ∧ t.seen = s.seen := by
  simp only [State.increment, Option.bind_eq_bind, Option.bind_eq_some_iff, Option.some.injEq] at increments
  obtain ⟨mid, resumes, frame, found, rfl⟩ := increments
  obtain ⟨old, _, _, rfl⟩ := resume_inv resumes
  exact ⟨Option.ne_none_iff_exists'.mpr ⟨frame, found⟩, ⟨_, rfl⟩, rfl⟩

theorem underway_step {k : Nat} (underway : Underway toYield values h k s) (short : ¬Arrives values k s) :
    ∃ t, loopStep toYield s = some t ∧ Underway toYield values h k t ∧ rounds values t < rounds values s := by
  obtain ⟨held, looping, alive, place⟩ := underway
  have ready := iterating_ready held looping
  cases loop : s.loop with
  | testing it last =>
    simp only [loop] at place
    simp only [Ready, loop] at ready
    obtain ⟨t, stepped⟩ := ready alive
    obtain ⟨held', looping'⟩ := step_iterating held looping stepped
    have few := looping'.seen.length_le
    refine ⟨t, by simpa [loopStep, loop] using stepped, ?_⟩
    rcases test_cases (by simpa [step, loop] using stepped) with rfl | ⟨v, rfl⟩
    · obtain ⟨whole, -⟩ : s.seen = values ∧ _ := looping'.progressed
      exact ⟨⟨held', looping', alive, whole ▸ place⟩, by simp [rounds, loop]⟩
    · simp only [List.length_append, List.length_singleton] at few
      refine ⟨⟨held', looping', alive, ?_⟩, ?_⟩
      · simpa using Nat.succ_le_of_lt place
      · simp only [rounds, loop, List.length_append, List.length_singleton]
        omega
  | body it last =>
    simp only [loop] at place
    simp only [Ready, loop] at ready
    have few := looping.seen.length_le
    have early : s.seen.length ≠ k := by
      rintro rfl
      exact short (.inl ⟨few, ⟨it, last, loop⟩, List.prefix_iff_eq_take.mp looping.seen⟩)
    obtain ⟨t, stepped⟩ := ready alive
    obtain ⟨held', looping'⟩ := step_iterating held looping stepped
    obtain ⟨rfl, -⟩ := looping.inBody it last loop
    obtain ⟨alive', ⟨it', loop'⟩, seen⟩ := increment_cases (by simpa [step, loop] using stepped)
    refine ⟨t, by simpa [loopStep, loop] using stepped, ⟨held', looping', alive', ?_⟩, ?_⟩
    · simp only [loop', seen]
      omega
    · simp only [rounds, loop, loop', seen]
      omega
  | ended =>
    simp only [loop] at place
    have progressed := looping.progressed
    simp only [Progressed, loop] at progressed
    exact absurd (.inr ⟨place, loop, progressed.1⟩) short
  | outside => simp [loop] at place
  | left => simp [loop] at place

theorem loop_arrives {k : Nat} (held : Held toYield values h s) (looping : Looping values h s)
    (testing : s.loop = .testing it last) (alive : s.frames h ≠ none) (later : s.seen.length < k) :
    ∃ t, Reaches (loopStep toYield) s t ∧ Arrives values k t := by
  have underway : Underway toYield values h k s := ⟨held, looping, alive, by simpa [testing] using later⟩
  obtain ⟨t, path, -, arrived⟩ := reaches_goal (Arrives values k) (rounds values)
    (fun _ underway short => underway_step underway short) underway
  exact ⟨t, path, arrived⟩

end

/-- A loop over a generator sees the values of its body in order, all of them if it is not
left early, and has the body run only as far as it has seen, or to its end. Nothing that is
done with the generator meanwhile makes a resumption or a destruction undefined; the loop
comes to each of its iterations and to its end as long as the frame lives; and when no object
is left the frame has been destroyed once. -/
theorem generator_iteration {σ α : Type} (toYield : σ → Option (α × σ)) (body : σ) (values : List α)
    (yields : Yields toYield body values) (h : Nat) (actions : List Action) (s : State σ α)
    (path : run (step toYield) (start h body) actions = some s) :
    s.seen <+: values ∧ Progressed values s ∧
      (∀ frame, s.frames h = some frame → Stands toYield values s.resumed frame) ∧
      Ready toYield h s ∧ (∀ i, s.objects i ≠ none → ∃ t, step toYield s (.destroy i) = some t) ∧
      (∀ it last k, s.loop = .testing it last → s.frames h ≠ none → s.seen.length < k →
        ∃ t, Reaches (loopStep toYield) s t ∧ Arrives values k t) ∧
      s.destroyed <+: [h] ∧ ((∀ i, s.objects i = none) → s.destroyed = [h]) := by
  obtain ⟨held, looping⟩ := run_iterating yields path
  refine ⟨looping.seen, looping.progressed, fun _ => held.stands, iterating_ready held looping,
    fun _ => destroy_ready held, fun _ _ _ => loop_arrives held looping, ?_, fun gone => ?_⟩
  · rcases held.custody with ⟨-, none_destroyed, -⟩ | ⟨-, once, -⟩
    · exact none_destroyed ▸ List.nil_prefix
    · exact once ▸ List.prefix_rfl
  · rcases held.custody with ⟨⟨i, g, present, -⟩, -⟩ | ⟨-, once, -⟩
    · rw [gone i] at present
      cases present
    · exact once

/-! ### `f` -/

/-- Where `f` stands: at its start, or at the `co_yield` in its loop. -/
inductive FPoint where
  | initialSuspend
  | coYield (i : Nat)
  deriving DecidableEq, Repr

/-- `i < N` and what follows. -/
def fLoop (i : Nat) : Option (Nat × FPoint) :=
  let N := 200
  if i < N then some (i, .coYield i) else none

def f : FPoint → Option (Nat × FPoint)
  | .initialSuspend => fLoop 3
  | .coYield i => fLoop (i * 2)

theorem f_yields : Yields f .initialSuspend [3, 6, 12, 24, 48, 96, 192] :=
  .yield rfl <| .yield rfl <| .yield rfl <| .yield rfl <| .yield rfl <| .yield rfl <| .yield rfl <| .done rfl

/-- `main`: the loop is not left, and `g` is destroyed after it. -/
example : (run (step f) (start 0 .initialSuspend)
    ([.forRange 0, .test] ++ (List.replicate 7 [Action.increment, .test]).flatten ++ [.destroy 0])).map State.seen =
      some [3, 6, 12, 24, 48, 96, 192] := by
  rfl

theorem generator_iteration_left_early :
    ∃ s, run (step f) (start 4 .initialSuspend)
        [.move 0, .destroy 0, .forRange 1, .test, .increment, .test, .move 1, .leave, .destroy 2, .destroy 1] = some s ∧
      s.seen <+: [3, 6, 12, 24, 48, 96, 192] ∧ Progressed [3, 6, 12, 24, 48, 96, 192] s ∧
      (∀ frame, s.frames 4 = some frame → Stands f [3, 6, 12, 24, 48, 96, 192] s.resumed frame) ∧
      Ready f 4 s ∧ (∀ i, s.objects i ≠ none → ∃ t, step f s (.destroy i) = some t) ∧
      (∀ it last k, s.loop = .testing it last → s.frames 4 ≠ none → s.seen.length < k →
        ∃ t, Reaches (loopStep f) s t ∧ Arrives [3, 6, 12, 24, 48, 96, 192] k t) ∧
      s.destroyed <+: [4] ∧ ((∀ i, s.objects i = none) → s.destroyed = [4]) :=
  ⟨_, rfl, generator_iteration f .initialSuspend [3, 6, 12, 24, 48, 96, 192] f_yields 4
    [.move 0, .destroy 0, .forRange 1, .test, .increment, .test, .move 1, .leave, .destroy 2, .destroy 1] _ rfl⟩

end Await.Jax.Gen
