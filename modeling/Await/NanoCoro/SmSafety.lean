import Await.NanoCoro.SmMultiLookup

/-! Memory safety of `SmMultiLookup`. The inner `for (;;)` runs the next frame without a
look at its state, so what it touches is safe only because all frames are busy by then. -/

namespace Await.NanoCoro.SmSafety
open General.Transition SmFrame SmMultiLookup StateTransition

/-- What `init` prefetches. -/
def Frame.initTouches (first last : Nat) (key : Int) (fr : Frame) : List (Option Nat) :=
  let fr := fr.init first last key
  if fr.len = 0 then [] else [fr.middle]

/-- What `run` reads, and what it prefetches if the search goes on. -/
def Frame.runTouches (v : Array Int) (fr : Frame) : List (Option Nat) :=
  fr.middle :: match fr.run v with
    | some (false, fr) => [fr.middle]
    | _ => []

/-- The frame that the next step calls `run` on. -/
def runsAt (s : Machine) : Option Nat :=
  match s.control with
  | .stepping .. => some s.i
  | .draining index _ => if (s.f[index]?).any (·.Busy) then some index else none
  | .forKeys _ | .returned => none

/-- The pointers that the next step follows or prefetches from, null or not. -/
def touches (v : Array Int) (s : Machine) : List (Option Nat) :=
  match s.control with
  | .forKeys (key :: _) => (s.f[s.i]?).elim [] fun slot =>
      if slot.Busy then [] else Frame.initTouches 0 v.size key slot.frame
  | .stepping key _ => (s.f[s.i]?).elim [] fun slot =>
      Frame.runTouches v slot.frame ++ match slot.frame.run v with
        | some (true, frame) => Frame.initTouches 0 v.size key frame
        | _ => []
  | .draining index _ => (s.f[index]?).elim [] fun slot =>
      if slot.Busy then Frame.runTouches v slot.frame else []
  | .forKeys [] | .returned => []

/-! ### The step and its calls of `run`

`runsAt` and `touches` repeat where `step` goes. The step itself confirms them: it looks at
the array through the frame of `runsAt` only, and reads and prefetches what `touches` lists. -/

section
variable {v w : Array Int} {N index : Nat} {s t : Machine} {fr fr' : Frame} {slot old : Slot} {done : Bool}

theorem run_agrees (same : ∀ n, fr.middle = some n → v[n]? = w[n]?) : fr.run v = fr.run w := by
  cases middle : fr.middle with
  | none => simp [Frame.run, middle]
  | some n => simp only [Frame.run, middle, Option.bind_eq_bind, Option.bind_some, same n middle]

/-- `run` is called without a look at the state by the inner loop, and on a busy frame by
the last one. -/
theorem runsAt_cases (runs : runsAt s = some index) :
    (∃ key keys, s.control = .stepping key keys ∧ s.i = index) ∨
      ∃ moreWork slot, s.control = .draining index moreWork ∧ s.f[index]? = some slot ∧ slot.Busy := by
  unfold runsAt at runs
  split at runs
  · next key keys control => exact .inl ⟨key, keys, control, Option.some.inj runs⟩
  · next moreWork control =>
    split at runs
    · next busy =>
      obtain rfl := Option.some.inj runs
      obtain ⟨slot, present, going⟩ := Option.any_eq_true .. |>.mp busy
      exact .inr ⟨moreWork, slot, control, present, by simpa using going⟩
    · cases runs
  · cases runs
  · cases runs

/-- Whatever the elements are, the step is the call of `run` on that frame, taken further. -/
theorem step_runs (N : Nat) (v : Array Int) (runs : runsAt s = some index) (present : s.f[index]? = some slot) :
    ∃ next : Bool × Frame → Machine, ∀ w : Array Int, w.size = v.size →
      step w N s = (slot.frame.run w).map next := by
  rcases runsAt_cases runs with ⟨key, keys, control, rfl⟩ | ⟨moreWork, slot', control, present', going⟩
  · refine ⟨fun answer =>
      if answer.1 then (s.ran s.i slot answer.1 answer.2).load v N key keys { slot with frame := answer.2 }
      else { s.ran s.i slot answer.1 answer.2 with i := previous N s.i }, fun w sizes => ?_⟩
    simp only [step, control, present, Option.bind_eq_bind, Option.bind_some]
    cases slot.frame.run w with
    | none => rfl
    | some answer =>
      obtain ⟨done, frame⟩ := answer
      cases done
      · rfl
      · simp [Machine.load, sizes]
  · obtain rfl := Option.some.inj (present.symm.trans present')
    refine ⟨fun answer => { s.ran index slot answer.1 answer.2 with control := .draining (index + 1) true },
      fun w _ => ?_⟩
    simp only [step, control, present, if_pos going, Option.bind_eq_bind]
    cases slot.frame.run w <;> rfl

/-- Without a call of `run` the elements make no difference. -/
theorem step_quiet (quiet : runsAt s = none) (sizes : w.size = v.size) : step w N s = step v N s := by
  unfold runsAt at quiet
  split at quiet
  · cases quiet
  · next index moreWork control =>
    split at quiet
    · cases quiet
    · next idle =>
      cases present : s.f[index]? with
      | none => simp only [step, control, present]
      | some slot =>
        have waits : ¬slot.Busy := by simpa [present] using idle
        simp only [step, control, present, if_neg waits]
  · next keys control => cases keys <;> simp only [step, control, Machine.load, sizes]
  · next control => simp only [step, control]

theorem step_absent (runs : runsAt s = some index) (absent : s.f[index]? = none) : step v N s = none := by
  rcases runsAt_cases runs with ⟨key, keys, control, rfl⟩ | ⟨moreWork, slot, -, present, -⟩
  · simp only [step, control, absent, Option.bind_eq_bind, Option.bind_none]
  · cases absent.symm.trans present

theorem middle_touched (runs : runsAt s = some index) (present : s.f[index]? = some slot) :
    slot.frame.middle ∈ touches v s := by
  rcases runsAt_cases runs with ⟨key, keys, control, rfl⟩ | ⟨moreWork, slot', control, present', going⟩
  · simp [touches, control, present, Frame.runTouches]
  · obtain rfl := Option.some.inj (present.symm.trans present')
    simp [touches, control, present, if_pos going, Frame.runTouches]

/-- The step reads no element that `touches` does not list. -/
theorem step_reads (sizes : w.size = v.size) (same : ∀ n, some n ∈ touches v s → v[n]? = w[n]?) :
    step v N s = step w N s := by
  cases runs : runsAt s with
  | none => exact (step_quiet runs sizes).symm
  | some index =>
    cases present : s.f[index]? with
    | none => rw [step_absent runs present, step_absent runs present]
    | some slot =>
      obtain ⟨next, steps⟩ := step_runs N v runs present
      have read (n : Nat) (middle : slot.frame.middle = some n) : v[n]? = w[n]? :=
        same n (middle ▸ middle_touched runs present)
      rw [steps v rfl, steps w sizes, run_agrees read]

theorem init_prefetches {first last : Nat} {key : Int} (busy : (fr.init first last key).state = .keepGoing) :
    (fr.init first last key).middle ∈ Frame.initTouches first last key fr := by
  have nonempty : (fr.init first last key).len ≠ 0 := by
    intro empty
    by_cases none : subSize last first = 0
    · simp [Frame.init, none] at busy
    · simp [Frame.init, none] at empty
  simp [Frame.initTouches, nonempty]

/-- `run` stays busy only if it has prefetched. -/
theorem run_prefetches (ran : fr.run v = some (done, fr')) (busy : fr'.state = .keepGoing) :
    done = false ∧ fr'.middle ∈ Frame.runTouches v fr := by
  have goes_on : done = false := by
    unfold Frame.run at ran
    cases middle : fr.middle with
    | none => simp [middle] at ran
    | some n =>
      cases element : v[n]? with
      | none => simp [middle, element] at ran
      | some x =>
        simp only [middle, element, Option.bind_eq_bind, Option.bind_some] at ran
        split_ifs at ran <;> cases ran
        · cases busy
        · rfl
        · cases busy
  subst goes_on
  exact ⟨rfl, by simp [Frame.runTouches, ran]⟩

theorem stored_new {f : List Slot} {new : Slot} {i : Nat} (present : f[i]? = some old)
    (stored : (f.set i new)[index]? = some slot) (changed : f[index]? ≠ some slot) : slot = new := by
  rcases get_set present stored with ⟨-, same⟩ | ⟨-, kept⟩
  · exact same
  · exact absurd kept changed

/-- A frame that the step has touched and leaves busy has had the element prefetched that
its next `run` will read. -/
theorem step_prefetches (stepped : step v N s = some t) (stored : t.f[index]? = some slot)
    (changed : s.f[index]? ≠ some slot) (busy : slot.Busy) : slot.frame.middle ∈ touches v s := by
  cases control : s.control with
  | forKeys keys =>
    cases keys with
    | nil =>
      obtain rfl := Option.some.inj (by simpa only [step, control] using stepped)
      exact absurd stored changed
    | cons key keys =>
      simp only [step, control, Option.bind_eq_bind, Option.bind_eq_some_iff] at stepped
      obtain ⟨old, present, branch⟩ := stepped
      split at branch <;> obtain rfl := Option.some.inj branch
      · next idle =>
        obtain rfl := stored_new present stored changed
        simpa [touches, control, present, Slot.Busy, idle] using init_prefetches busy
      · exact absurd stored changed
  | stepping key keys =>
    simp only [step, control, Option.bind_eq_bind, Option.bind_eq_some_iff] at stepped
    obtain ⟨old, present, ⟨done, frame⟩, ran, branch⟩ := stepped
    cases done with
    | true =>
      obtain rfl := Option.some.inj (by simpa only [if_true] using branch)
      simp only [Machine.load, Machine.ran, List.set_set] at stored
      obtain rfl := stored_new present stored changed
      simpa [touches, control, present, ran] using .inr (init_prefetches busy)
    | false =>
      obtain rfl := Option.some.inj (by simpa using branch)
      obtain rfl := stored_new present stored changed
      simpa [touches, control, present, ran] using (run_prefetches ran busy).2
  | draining place moreWork =>
    cases present : s.f[place]? with
    | none =>
      obtain rfl := Option.some.inj (by simpa only [step, control, present] using stepped)
      exact absurd stored changed
    | some old =>
      simp only [step, control, present] at stepped
      split at stepped
      · next going =>
        simp only [Option.bind_eq_bind, Option.bind_eq_some_iff] at stepped
        obtain ⟨⟨done, frame⟩, ran, branch⟩ := stepped
        obtain rfl := Option.some.inj branch
        obtain rfl := stored_new present stored changed
        simpa [touches, control, present, if_pos going] using (run_prefetches ran busy).2
      · obtain rfl := Option.some.inj stepped
        exact absurd stored changed
  | returned => simp [step, control] at stepped

end

/-- A pointer to an element of `v`. -/
def Inside (v : Array Int) (place : Option Nat) : Prop := ∃ n, place = some n ∧ n < v.size

/-- A frame on which `run` is safe, and the subtractions in it do not wrap. -/
structure Safe (v : Array Int) (fr : Frame) : Prop extends Running v fr where
  no_wrap : fr.half + 1 ≤ fr.len

section
variable {v : Array Int} {lookups : List Int} {N index : Nat} {s : Machine} {fr : Frame} {slot : Slot}

theorem safe_of_running (running : Running v fr) : Safe v fr where
  toRunning := running
  no_wrap := by
    have positive := running.positive
    rw [running.half_eq]
    omega

theorem middle_inside (running : Running v fr) : Inside v fr.middle := by
  obtain ⟨first, -, middle_eq, inside⟩ := running.window
  have positive := running.positive
  have half_eq := running.half_eq
  exact ⟨first + fr.half, middle_eq, by omega⟩

theorem runTouches_inside (running : Running v fr) : ∀ place ∈ Frame.runTouches v fr, Inside v place := by
  obtain ⟨middle, done, fr', ran⟩ := running.run
  intro place touched
  simp only [Frame.runTouches, ran.run_eq, List.mem_cons] at touched
  rcases touched with rfl | touched
  · exact middle_inside running
  · cases done with
    | true => simp at touched
    | false =>
      obtain rfl : place = fr'.middle := by simpa using touched
      exact middle_inside (ran.goes_on rfl).1

theorem initTouches_inside (nonempty : 0 < v.size) (key : Int) (fr : Frame) :
    ∀ place ∈ Frame.initTouches 0 v.size key fr, Inside v place := by
  intro place touched
  have running := (init_running fr key nonempty).1
  have kept := running.positive
  simp only [Frame.initTouches, if_neg kept.ne', List.mem_singleton] at touched
  exact touched ▸ middle_inside running

theorem busy_running (inv : Inv v lookups N s) (present : s.f[index]? = some slot) (busy : slot.Busy) :
    Running v slot.frame := by
  obtain ⟨rest, -, tracks⟩ := inv.core.searches
  exact (tracks.busy index slot present busy).1

/-- While the inner loop runs all frames are busy, so the one at the cursor is. -/
theorem cursor_running {key : Int} {keys : List Int} (inv : Inv v lookups N s)
    (control : s.control = .stepping key keys) : ∃ slot, s.f[s.i]? = some slot ∧ Running v slot.frame := by
  obtain ⟨slot, present⟩ := inv.core.at_cursor
  have placed := inv.placed
  simp only [Placed, control] at placed
  exact ⟨slot, present, busy_running inv present (placed s.i slot present)⟩

theorem runs_safe (inv : Inv v lookups N s) (runs : runsAt s = some index) :
    ∃ slot, s.f[index]? = some slot ∧ Safe v slot.frame := by
  rcases runsAt_cases runs with ⟨key, keys, control, rfl⟩ | ⟨-, slot, -, present, going⟩
  · obtain ⟨slot, present, running⟩ := cursor_running inv control
    exact ⟨slot, present, safe_of_running running⟩
  · exact ⟨slot, present, safe_of_running (busy_running inv present going)⟩

theorem touches_inside (inv : Inv v lookups N s) (nonempty : 0 < v.size) :
    ∀ place ∈ touches v s, Inside v place := by
  intro place touched
  unfold touches at touched
  split at touched
  · next key keys control =>
    obtain ⟨slot, present⟩ := inv.core.at_cursor
    rw [present, Option.elim_some] at touched
    split at touched
    · cases touched
    · exact initTouches_inside nonempty key slot.frame place touched
  · next key keys control =>
    obtain ⟨slot, present, running⟩ := cursor_running inv control
    rw [present, Option.elim_some] at touched
    rcases List.mem_append.mp touched with ran | loaded
    · exact runTouches_inside running place ran
    · split at loaded
      · next frame ends => exact initTouches_inside nonempty key frame place loaded
      · cases loaded
  · next index moreWork control =>
    cases present : s.f[index]? with
    | none => simp [present] at touched
    | some slot =>
      rw [present, Option.elim_some] at touched
      split at touched
      · next busy => exact runTouches_inside (busy_running inv present busy) place touched
      · cases touched
  · cases touched
  · cases touched

theorem reached_inv (path : Reaches (step v N) (start lookups (N + 1)) s) : Inv v lookups N s := by
  refine reaches_invariant (fun s t inv stepped => ?_) path (start_inv v lookups (Nat.le_add_left 1 N))
  by_cases finished : s.control = .returned
  · simp [step, finished] at stepped
  · obtain ⟨t', stepped', inv', -⟩ := turns inv finished
    exact Option.some.inj (stepped.symm.trans stepped') ▸ inv'

end

/-- In every step of `SmMultiLookup` the cursor is on a frame, `run` is called on a frame in
the middle of a search only, and what is read or prefetched is an element of `v`. -/
theorem smMultiLookup_safe (v : Array Int) (lookups : List Int) (streams : Nat) (nonempty : 0 < v.size)
    (positive : 1 ≤ streams) (s : Machine) (path : Reaches (step v (streams - 1)) (start lookups streams) s) :
    s.i < streams ∧
      (∀ index, runsAt s = some index → ∃ slot, s.f[index]? = some slot ∧ Safe v slot.frame) ∧
      ∀ place ∈ touches v s, Inside v place := by
  obtain ⟨N, rfl⟩ : ∃ N, streams = N + 1 := ⟨streams - 1, by omega⟩
  have inv := reached_inv path
  have cursor := inv.core.cursor
  exact ⟨by omega, fun index runs => runs_safe inv runs, touches_inside inv nonempty⟩

/-- Three keys and two frames: the third key runs the frame that was filled first. -/
theorem smMultiLookup_safe_third_key :
    ∃ s, Reaches (step #[1, 3, 5] 1) (start [1, 5, 4] 2) s ∧ runsAt s = some 1 ∧ s.i < 2 ∧
      (∀ index, runsAt s = some index → ∃ slot, s.f[index]? = some slot ∧ Safe #[1, 3, 5] slot.frame) ∧
      ∀ place ∈ touches #[1, 3, 5] s, Inside #[1, 3, 5] place := by
  have path : Reaches (step #[1, 3, 5] 1) (start [1, 5, 4] 2) _ := .tail (.tail (.tail .refl rfl) rfl) rfl
  exact ⟨_, path, rfl, smMultiLookup_safe #[1, 3, 5] [1, 5, 4] 2 (by decide) (by decide) _ path⟩

end Await.NanoCoro.SmSafety
