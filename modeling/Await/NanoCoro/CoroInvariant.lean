import Await.General.Transition
import Await.NanoCoro.CoroMultiLookup
import Await.NanoCoro.Lookup
import Mathlib.Algebra.Order.BigOperators.Group.Finset
import Mathlib.Data.Prod.Lex

/-! The invariant of a `CoroMultiLookup` run, for any number of streams. Every live frame
is in one place: it waits in `spawn`, it runs, it is in the ring, or the ring has
forgotten it. With fewer than 256 streams or searches nothing is ever forgotten. -/

namespace Await.NanoCoro.CoroInvariant
open General.TaskPool General.Transition CoroMultiLookup CoroSearch Lookup Naive Scheduler
open StateTransition

/-! ### Live frames -/

section
variable {v : Array Int} {frames : Nat → Option SearchFrame} {task flight : List Nat} {k : Nat}
  {old new : SearchFrame}

/-- The live frames are those of the searches in `task`, not yet owned, and in `flight`. -/
structure Frames (v : Array Int) (frames : Nat → Option SearchFrame) (task flight : List Nat) : Prop where
  poised : ∀ k frame, frames k = some frame → Poised v frame
  unowned : ∀ k, (∃ frame, frames k = some frame ∧ frame.hasOwner = false) ↔ k ∈ task
  owned : ∀ k, (∃ frame, frames k = some frame ∧ frame.hasOwner = true) ↔ k ∈ flight
  nodup : (task ++ flight).Nodup

theorem Frames.perm {flight' : List Nat} (live : Frames v frames task flight)
    (same : flight.Perm flight') : Frames v frames task flight' where
  poised := live.poised
  unowned := live.unowned
  owned k := (live.owned k).trans same.mem_iff
  nodup := (same.append_left task).nodup_iff.mp live.nodup

theorem Frames.absent (live : Frames v frames task flight) (gone : frames k = none) :
    k ∉ task ∧ k ∉ flight := by
  constructor <;> intro member
  · obtain ⟨frame, found, -⟩ := (live.unowned k).mpr member
    simp [gone] at found
  · obtain ⟨frame, found, -⟩ := (live.owned k).mpr member
    simp [gone] at found

/-- One frame changes: the others stay where they are, and its own place must fit what
it has become. -/
private theorem Frames.update {task' flight' : List Nat} {frame : Option SearchFrame}
    (live : Frames v frames task flight) (poised : ∀ new, frame = some new → Poised v new)
    (elsewhere : ∀ j, j ≠ k → (j ∈ task' ↔ j ∈ task) ∧ (j ∈ flight' ↔ j ∈ flight))
    (unowned : k ∈ task' ↔ ∃ new, frame = some new ∧ new.hasOwner = false)
    (owned : k ∈ flight' ↔ ∃ new, frame = some new ∧ new.hasOwner = true)
    (nodup : (task' ++ flight').Nodup) :
    Frames v (Function.update frames k frame) task' flight' where
  poised := by
    intro j new found
    by_cases same : j = k
    · subst same
      exact poised new (by simpa using found)
    · exact live.poised j new (by rwa [Function.update_of_ne same] at found)
  unowned := by
    intro j
    by_cases same : j = k
    · subst same
      simp only [Function.update_self, unowned]
    · rw [Function.update_of_ne same, (elsewhere j same).1, live.unowned j]
  owned := by
    intro j
    by_cases same : j = k
    · subst same
      simp only [Function.update_self, owned]
    · rw [Function.update_of_ne same, (elsewhere j same).2, live.owned j]
  nodup := nodup

theorem Frames.create (live : Frames v frames [] flight) (gone : frames k = none)
    (poised : Poised v new) (noOwner : new.hasOwner = false) :
    Frames v (Function.update frames k (some new)) [k] flight := by
  have absent := (live.absent gone).2
  refine live.update ?_ (fun j other => by simp [other]) (by simp [noOwner]) (by simp [noOwner, absent])
    (by simpa [absent] using live.nodup)
  rintro _ ⟨⟩
  exact poised

/-- `set_owner` puts the waiting search in flight. -/
theorem Frames.adopt (live : Frames v frames [k] flight) (present : frames k = some old) :
    Frames v (Function.update frames k (some { old with hasOwner := true })) [] (k :: flight) := by
  refine live.update ?_ (fun j other => by simp [other]) (by simp) (by simp) live.nodup
  rintro _ ⟨⟩
  exact live.poised k old present

/-- A search that suspends again stays where it is. -/
theorem Frames.store (live : Frames v frames task flight) (present : frames k = some old)
    (poised : Poised v new) (sameOwner : new.hasOwner = old.hasOwner) :
    Frames v (Function.update frames k (some new)) task flight := by
  refine live.update ?_ (fun j _ => ⟨Iff.rfl, Iff.rfl⟩) ?_ ?_ live.nodup
  · rintro _ ⟨⟩
    exact poised
  · simpa [present, sameOwner] using (live.unowned k).symm
  · simpa [present, sameOwner] using (live.owned k).symm

theorem Frames.remove (live : Frames v frames task (k :: flight)) :
    Frames v (Function.update frames k none) task flight := by
  obtain ⟨taskNodup, flightNodup, apart⟩ := List.nodup_append.mp live.nodup
  obtain ⟨notFlight, rest⟩ := List.nodup_cons.mp flightNodup
  have notTask : k ∉ task := fun member => apart k member k (List.mem_cons_self ..) rfl
  apply live.update (by simp) (fun j other => by simp [other]) (by simp [notTask]) (by simp [notFlight])
  exact List.nodup_append.mpr ⟨taskNodup, rest,
    fun a inTask b inFlight => apart a inTask b (List.mem_cons_of_mem _ inFlight)⟩

/-- What the searches still have to do. -/
def left (v : Array Int) (frames : Nat → Option SearchFrame) (k : Nat) : Option Outcome :=
  (frames k).bind (remaining v)

theorem left_update (v : Array Int) (frames : Nat → Option SearchFrame) (k : Nat)
    (frame : Option SearchFrame) :
    left v (Function.update frames k frame) =
      Function.update (left v frames) k (frame.bind (remaining v)) := by
  funext j
  by_cases same : j = k
  · subst same
    simp [left]
  · simp [left, Function.update_of_ne same]

/-- A bound on the resumptions that the live frames still need. -/
def weight (frames : Nat → Option SearchFrame) (created : Nat) : Nat :=
  ∑ k ∈ Finset.range created, (frames k).elim 0 window

theorem weight_lt {created : Nat} (frame : Option SearchFrame) (inside : k < created)
    (present : frames k = some old) (shorter : frame.elim 0 window < window old) :
    weight (Function.update frames k frame) created < weight frames created := by
  apply Finset.sum_lt_sum
  · intro j _
    by_cases same : j = k
    · subst same
      simpa [present] using shorter.le
    · simp [Function.update_of_ne same]
  · exact ⟨k, Finset.mem_range.mpr inside, by simpa [present] using shorter⟩

end

/-! ### What holds wherever the control is -/

section
variable {P : Program} {streams : Nat} {s : Machine} {task active queue lost : List Nat} {h : Nat}

/-- The data of a machine, with the search waiting in `spawn`, the running one, those in
the ring and those the ring has forgotten. -/
structure Core (P : Program) (streams : Nat) (s : Machine) (task active queue lost : List Nat) : Prop where
  queued : Queued s.scheduler queue
  progress : Progress P.v P.lookups s.created (left P.v s.frames) s.log
  live : Frames P.v s.frames task (active ++ (queue ++ lost))
  throttled : s.limit + (active ++ (queue ++ lost)).length = streams
  found : s.foundCount = tally id s.log
  notFound : s.notFoundCount = tally not s.log
  total : s.foundCount + s.notFoundCount + (task ++ (active ++ (queue ++ lost))).length = s.created
  dropped : lost = [] ∨ N ≤ lost.length

/-- The fields that `Core` does not read. -/
theorem Core.goto (core : Core P streams s task active queue lost) (control : Control) (bug : Bool)
    (result : Nat) : Core P streams { s with control, bug, result } task active queue lost :=
  ⟨core.queued, core.progress, core.live, core.throttled, core.found, core.notFound, core.total,
    core.dropped⟩

/-- The next number is not in use. -/
theorem Core.gone (core : Core P streams s task active queue lost) : s.frames s.created = none := by
  have untouched := (core.progress.untouched (Nat.le_refl _)).1
  cases present : s.frames s.created with
  | none => rfl
  | some frame =>
    obtain ⟨outcome, known⟩ := (core.live.poised _ _ present).remaining_some
    simp [left, present, known] at untouched

theorem Core.inside {frame : SearchFrame} (core : Core P streams s task active queue lost)
    (present : s.frames h = some frame) : h < s.created := by
  obtain ⟨outcome, known⟩ := (core.live.poised _ _ present).remaining_some
  have underway : left P.v s.frames h = some outcome := by simp [left, present, known]
  exact core.progress.loaded_of_rest underway

theorem Core.create {key : Int} (core : Core P streams s [] [] queue lost)
    (known : P.lookups[s.created]? = some key) :
    Core P streams (s.create P key) [s.created] [] queue lost := by
  obtain ⟨whole, search⟩ := naiveBinarySearch_total P.v key
  have loaded := core.progress.load ((script_eq known).trans search)
  constructor
  · exact core.queued
  · simpa [Machine.create, Machine.store, left_update, remaining, search] using loaded
  · exact core.live.create core.gone (by simp [Poised]) rfl
  · exact core.throttled
  · simpa [Machine.create, Machine.store, tally] using core.found
  · simpa [Machine.create, Machine.store, tally] using core.notFound
  · have total := core.total
    simp only [List.nil_append, List.length_append, List.length_singleton] at total ⊢
    simp only [Machine.create, Machine.store]
    omega
  · exact core.dropped

/-- The task goes into the ring; a full ring forgets everything else for it. -/
theorem Core.enqueue (core : Core P streams s [h] [] queue lost) (positive : 0 < s.limit)
    (small : streams < 2 ^ 32) :
    ∃ t queue' lost', s.enqueue P h = some t ∧ Core P streams t [] [] queue' lost' ∧ queue' ≠ [] ∧
      t.limit + 1 = s.limit ∧ t.created = s.created ∧
      t.foundCount + t.notFoundCount = s.foundCount + s.notFoundCount := by
  obtain ⟨frame, present, -⟩ := (core.live.unowned h).mpr (List.mem_singleton_self h)
  have throttled := core.throttled
  have limit := decrement_eq positive (by omega)
  have adopted := core.live.adopt present
  have total := core.total
  have same : left P.v (Function.update s.frames h (some { frame with hasOwner := true })) =
      left P.v s.frames := by
    have unchanged : remaining P.v { frame with hasOwner := true } = left P.v s.frames h := by
      simp [left, present, remaining]
    rw [left_update, Option.bind_some, unchanged, Function.update_eq_self]
  have built : ∀ queue' lost', Queued (s.scheduler.pushBack (some h)) queue' →
      (h :: (queue ++ lost)).Perm (queue' ++ lost') → (lost' = [] ∨ N ≤ lost'.length) →
      Core P streams { s.store P h { frame with hasOwner := true } with
        scheduler := s.scheduler.pushBack (some h), limit := decrement s.limit } [] [] queue' lost' := by
    intro queue' lost' queued perm dropped
    have sizes := perm.length_eq
    simp only [List.nil_append, List.length_append, List.length_cons, List.length_nil] at throttled total sizes
    refine ⟨queued, same ▸ core.progress, adopted.perm perm, ?_, core.found, core.notFound, ?_, dropped⟩
    · simp only [List.nil_append, List.length_append]
      omega
    · simp only [List.nil_append, List.length_append, Machine.store]
      omega
  by_cases room : queue.length < N
  · refine ⟨_, queue ++ [h], lost, by simp [Machine.enqueue, Machine.store, present],
      built _ _ (core.queued.pushBack room h) ?_ core.dropped, by simp, ?_, rfl, rfl⟩
    · simpa using List.perm_middle.symm
    · simp only [limit]
      omega
  · have full : queue.length = N := by
      have := core.queued.fits
      omega
    refine ⟨_, [h], queue ++ lost, by simp [Machine.enqueue, Machine.store, present],
      built _ _ (core.queued.pushBack_full full h) (.refl _) (.inr ?_), by simp, ?_, rfl, rfl⟩
    · simp only [List.length_append]
      omega
    · simp only [limit]
      omega

/-- The oldest handle of the ring is taken out to be resumed. -/
theorem Core.pop (core : Core P streams s task [] (h :: queue) lost) :
    s.scheduler.popFront.1 = some h ∧
      Core P streams { s with scheduler := s.scheduler.popFront.2 } task [h] queue lost := by
  obtain ⟨oldest, rest⟩ := core.queued.popFront
  exact ⟨oldest, rest, core.progress, core.live, core.throttled, core.found, core.notFound, core.total,
    core.dropped⟩

/-- `run` takes a full ring for an empty one and leaves what is in it. -/
theorem Core.forget (core : Core P streams s task [] queue lost) (full : queue.length = N) :
    Core P streams s task [] [] (queue ++ lost) := by
  obtain ⟨same, -⟩ := core.queued.tryPopFront_none (.inr full)
  refine ⟨queued_nil same core.queued.tail_lt, core.progress, core.live, core.throttled, core.found,
    core.notFound, core.total, .inr ?_⟩
  simp only [List.length_append]
  omega

/-- How an activation of `h` ends for the rest of the machine: `h` goes to the back of
the ring and the front of it runs on, or `h` is counted and gives its stream back. -/
def Resumed (P : Program) (streams : Nat) (s t : Machine) (task queue lost : List Nat) (h : Nat)
    (caller : Caller) : Prop :=
  (∃ next queue', t.control = .resuming (some next) caller ∧ queue ++ [h] = next :: queue' ∧
    Core P streams t task [next] queue' lost ∧ t.limit = s.limit ∧
    t.foundCount + t.notFoundCount = s.foundCount + s.notFoundCount) ∨
  (t.control = caller.back ∧ Core P streams t task [] queue lost ∧ t.limit = s.limit + 1 ∧
    t.foundCount + t.notFoundCount = s.foundCount + s.notFoundCount + 1)

/-- The activation's reads are in the log; the search suspends. -/
theorem Core.suspend {frame next : SearchFrame} {reads : List Nat} (core : Core P streams s task [h] queue lost)
    (caller : Caller) (resumed : List Nat) (room : queue.length < N)
    (present : s.frames h = some frame) (leaves : Leaves P.v frame reads (.suspended next)) :
    Resumed P streams s ({ s with resumed, log := s.log ++ reads.map (Event.step h) }.suspend P h next caller)
      task queue lost h caller := by
  obtain ⟨poised, owner, -, -, later, rest, whole⟩ := leaves
  have pushed := core.queued.pushBack room h
  obtain ⟨front, queue', split⟩ : ∃ front queue', queue ++ [h] = front :: queue' := by
    cases queue with
    | nil => exact ⟨h, [], rfl⟩
    | cons front queue => exact ⟨front, queue ++ [h], rfl⟩
  rw [split] at pushed
  obtain ⟨oldest, popped⟩ := pushed.popFront
  have perm : ([h] ++ (queue ++ lost)).Perm ([front] ++ (queue' ++ lost)) := by
    have turned : (h :: queue).Perm (front :: queue') := by
      rw [← split]
      exact (List.perm_append_singleton h queue).symm
    simpa using turned.append_right lost
  have sizes := perm.length_eq
  have throttled := core.throttled
  have total := core.total
  simp only [List.length_append, List.length_singleton] at throttled total sizes
  refine .inl ⟨front, queue', by simp [Machine.suspend, oldest], split, ?_, rfl, rfl⟩
  constructor
  · exact popped
  · have underway : left P.v s.frames h = some ⟨reads ++ later.steps, later.answer⟩ := by
      simp [left, present, whole]
    have progress := core.progress.step_many underway
    simpa [Machine.suspend, Machine.store, left_update, rest] using progress
  · exact (core.live.store present poised owner).perm perm
  · simp only [Machine.suspend, Machine.store, List.length_append, List.length_singleton]
    omega
  · simpa [Machine.suspend, Machine.store, tally_steps] using core.found
  · simpa [Machine.suspend, Machine.store, tally_steps] using core.notFound
  · simp only [Machine.suspend, Machine.store, List.length_append, List.length_singleton]
    omega
  · exact core.dropped

/-- The activation's reads are in the log; the search ends. -/
theorem Core.finish {frame : SearchFrame} {reads : List Nat} {found : Bool}
    (core : Core P streams s task [h] queue lost) (caller : Caller) (resumed : List Nat) (small : streams < 2 ^ 32)
    (present : s.frames h = some frame) (owned : frame.hasOwner = true)
    (whole : remaining P.v frame = some ⟨reads, found⟩) :
    ∃ t, ({ s with resumed, log := s.log ++ reads.map (Event.step h) }).finish P h frame found caller = some t ∧
      t.created = s.created ∧ t.frames = Function.update s.frames h none ∧ t.resumed = resumed ∧
      Resumed P streams s t task queue lost h caller := by
  have throttled := core.throttled
  have total := core.total
  simp only [List.length_append, List.length_singleton] at throttled total
  have limit : increment s.limit = s.limit + 1 := increment_eq (by omega)
  refine ⟨_, if_pos owned, rfl, rfl, rfl, .inr ⟨rfl, ?_, limit, ?_⟩⟩
  · constructor
    · exact core.queued
    · have underway : left P.v s.frames h = some ⟨reads ++ [], found⟩ := by simp [left, present, whole]
      have retired := (core.progress.step_many underway).retire (Function.update_self ..)
      rw [Function.update_idem] at retired
      simpa [left_update] using retired
    · exact core.live.remove
    · simp only [limit, List.nil_append, List.length_append]
      omega
    · cases found <;> simp [tally, tally_steps, core.found]
    · cases found <;> simp [tally, tally_steps, core.notFound]
    · cases found <;> simp only [List.nil_append, List.length_append, if_true, if_false, Bool.false_eq_true] <;>
        omega
    · exact core.dropped
  · cases found <;> simp <;> omega

/-- The running search has a live frame, so it can be resumed, and that brings its end
closer. -/
theorem Core.resume (core : Core P streams s task [h] queue lost) (room : queue.length < N)
    (small : streams < 2 ^ 32) (caller : Caller) :
    ∃ t, s.resume P h caller = some t ∧ t.created = s.created ∧ t.resumed = s.resumed ++ [h] ∧
      weight t.frames t.created < weight s.frames s.created ∧
      Resumed P streams s t task queue lost h caller := by
  obtain ⟨frame, present, owned⟩ := (core.live.owned h).mpr (List.mem_cons_self ..)
  have inside := core.inside present
  have poised := core.live.poised h frame present
  obtain ⟨reads, activation, resume_eq, leaves⟩ := poised.resume
  have gone : weight (Function.update s.frames h none) s.created < weight s.frames s.created :=
    weight_lt none inside present poised.window_pos
  cases activation with
  | suspended next =>
    exact ⟨Machine.suspend P h next caller
        { s with resumed := s.resumed ++ [h], log := s.log ++ reads.map (Event.step h) },
      by simp [Machine.resume, present, resume_eq], rfl, rfl,
      weight_lt (some next) inside present leaves.2.2.2.1, core.suspend caller _ room present leaves⟩
  | onFound position =>
    obtain ⟨t, finish_eq, created, frames, resumed, done⟩ :=
      core.finish caller (s.resumed ++ [h]) small present owned leaves.1
    exact ⟨t, by simpa [Machine.resume, present, resume_eq] using finish_eq, created, resumed,
      by rwa [created, frames], done⟩
  | onNotFound =>
    obtain ⟨t, finish_eq, created, frames, resumed, done⟩ :=
      core.finish caller (s.resumed ++ [h]) small present owned leaves
    exact ⟨t, by simpa [Machine.resume, present, resume_eq] using finish_eq, created, resumed,
      by rwa [created, frames], done⟩

end

/-! ### The run -/

/-- The search that waits in `spawn` for its place in the ring. -/
def Control.task : Control → List Nat
  | .spawning task _ | .resuming _ (.spawn task _) => [task]
  | _ => []

def Control.active : Control → List Nat
  | .resuming h _ => h.toList
  | _ => []

/-- The keys that have no search yet. -/
def Control.keys : Control → List Int
  | .forKeys keys | .spawning _ keys | .resuming _ (.spawn _ keys) => keys
  | _ => []

section
variable {P : Program} {streams : Nat} {s : Machine}

/-- Enough streams and enough keys to fill the ring. -/
def Overflow (P : Program) (streams : Nat) : Prop := N ≤ streams ∧ N ≤ P.lookups.length

/-- What each point of control adds. While keys are left no search has ended unless the
throttler was used up; once they are spent, the ring has forgotten searches, or is full
and about to, exactly when it could be filled. -/
def Placed (P : Program) (streams : Nat) (s : Machine) (queue lost : List Nat) : Prop :=
  match s.control with
  | .forKeys _ => (queue = [] → lost = []) ∧ (0 < s.limit → s.foundCount + s.notFoundCount = 0)
  | .spawning .. => 0 < s.limit ∧ (1 < s.limit → s.foundCount + s.notFoundCount = 0)
  | .resuming h (.spawn ..) => h ≠ none ∧ queue.length < N ∧ s.limit = 0
  | .resuming h (.run call) => h ≠ none ∧ queue.length < N ∧ call = .explicit ∧
      (lost = [] ↔ ¬Overflow P streams)
  | .running .explicit => (Overflow P streams → lost ≠ [] ∨ queue.length = N) ∧
      (¬Overflow P streams → lost = [] ∧ queue.length < N)
  | .checking => queue = [] ∧ (lost = [] ↔ ¬Overflow P streams)
  | .running .destructor | .returned => queue = [] ∧ (lost = [] ↔ ¬Overflow P streams) ∧
      s.result = s.foundCount ∧ s.bug = decide (s.foundCount + s.notFoundCount ≠ P.lookups.length)

structure Inv (P : Program) (streams : Nat) (s : Machine) : Prop where
  core : ∃ queue lost, Core P streams s (Control.task s.control) (Control.active s.control) queue lost ∧
    Placed P streams s queue lost
  keys : ∃ earlier, P.lookups = earlier ++ Control.keys s.control ∧ earlier.length = s.created

/-- The turns left: first by the keys and loops to come, then by the open windows. -/
def rank (s : Machine) : Nat ×ₗ Nat :=
  match s.control with
  | .forKeys keys => toLex (2 * keys.length + 3, 0)
  | .spawning _ keys => toLex (2 * keys.length + 4, 0)
  | .resuming _ (.spawn _ keys) => toLex (2 * keys.length + 4, weight s.frames s.created + 1)
  | .resuming _ (.run _) => toLex (2, 2 * weight s.frames s.created)
  | .running .explicit => toLex (2, 2 * weight s.frames s.created + 1)
  | .checking => toLex (1, 0)
  | .running .destructor => toLex (0, 1)
  | .returned => toLex (0, 0)

theorem rank_lt {a b a' b' : Nat} (lower : a < a' ∨ a = a' ∧ b < b') : toLex (a, b) < toLex (a', b') := by
  simpa [Prod.Lex.toLex_lt_toLex] using lower

/-- Control has left the body and is in the destructor. -/
def Late (s : Machine) : Prop := s.control = .running .destructor ∨ s.control = .returned

/-- What one turn does: it exists, it does not skip the check at the end, it keeps the
invariant, and it lowers the rank. -/
def Turns (P : Program) (streams : Nat) (s : Machine) : Prop :=
  ∃ t, step P s = some t ∧ (Late t → s.control = .checking ∨ Late s) ∧ Inv P streams t ∧ rank t < rank s

theorem forKeys_nil_turns (inv : Inv P streams s) (control : s.control = .forKeys []) :
    Turns P streams s := by
  obtain ⟨⟨queue, lost, core, placed⟩, earlier, lookups_eq, created_eq⟩ := inv
  simp only [control, Control.task, Control.active, Control.keys, List.append_nil] at core lookups_eq
  simp only [Placed, control] at placed
  have all : s.created = P.lookups.length := by rw [lookups_eq, created_eq]
  refine ⟨{ s with control := .running .explicit }, by simp [step, control], by simp [Late],
    ⟨⟨queue, lost, core.goto .., ?_⟩, earlier, by simpa [Control.keys] using lookups_eq, created_eq⟩, ?_⟩
  · have fits := core.queued.fits
    have throttled := core.throttled
    have total := core.total
    simp only [List.nil_append, List.length_append] at throttled total
    have forgotten : lost ≠ [] → N ≤ lost.length := core.dropped.resolve_left
    have none_lost : lost = [] → lost.length = 0 := fun empty => by simp [empty]
    simp only [Placed, Overflow]
    constructor
    · intro overflow
      by_cases empty : lost = []
      · have := none_lost empty
        exact .inr (by omega)
      · exact .inl empty
    · intro fewer
      have empty : lost = [] := by
        by_contra nonempty
        have := forgotten nonempty
        omega
      exact ⟨empty, by omega⟩
  · simp only [rank, control]
    exact rank_lt (by simp)

theorem forKeys_cons_turns {key : Int} {keys : List Int} (inv : Inv P streams s) (positive : 1 ≤ streams)
    (control : s.control = .forKeys (key :: keys)) : Turns P streams s := by
  obtain ⟨⟨queue, lost, core, placed⟩, earlier, lookups_eq, created_eq⟩ := inv
  simp only [control, Control.task, Control.active, Control.keys] at core lookups_eq
  simp only [Placed, control] at placed
  have known : P.lookups[s.created]? = some key := by simp [lookups_eq, ← created_eq]
  have created := core.create known
  have keys' : P.lookups = (earlier ++ [key]) ++ keys ∧ (earlier ++ [key]).length = s.created + 1 := by
    simp [lookups_eq, created_eq]
  by_cases spent : s.limit = 0
  · cases queue with
    | nil =>
      have throttled := core.throttled
      simp [placed.1 rfl, spent] at throttled
      omega
    | cons h queue =>
      obtain ⟨oldest, popped⟩ := created.pop
      refine ⟨{ s.create P key with
          scheduler := (s.create P key).scheduler.popFront.2
          control := .resuming (some h) (.spawn s.created keys) }, ?_, by simp [Late],
        ⟨⟨queue, lost, popped.goto .., ?_⟩, earlier ++ [key], keys'⟩, ?_⟩
      · have unlimited : (s.create P key).limit = 0 := spent
        simp [step, control, Machine.throttle, unlimited, oldest]
      · have fits := core.queued.fits
        exact ⟨by simp, fits, spent⟩
      · simp only [rank, control, List.length_cons]
        exact rank_lt (by omega)
  · refine ⟨{ s.create P key with control := .spawning s.created keys }, ?_, by simp [Late],
        ⟨⟨queue, lost, created.goto .., ?_⟩, earlier ++ [key], keys'⟩, ?_⟩
    · simp [step, control, Machine.throttle, Machine.create, Machine.store, spent]
    · simp only [Placed]
      exact ⟨Nat.pos_of_ne_zero spent, fun _ => placed.2 (Nat.pos_of_ne_zero spent)⟩
    · simp only [rank, control, List.length_cons]
      exact rank_lt (by omega)

theorem spawning_turns {task : Nat} {keys : List Int} (inv : Inv P streams s) (small : streams < 2 ^ 32)
    (control : s.control = .spawning task keys) : Turns P streams s := by
  obtain ⟨⟨queue, lost, core, placed⟩, earlier, lookups_eq, created_eq⟩ := inv
  simp only [control, Control.task, Control.active, Control.keys] at core lookups_eq
  simp only [Placed, control] at placed
  obtain ⟨t, queue', lost', enqueued, core', nonempty, limit, created, counted⟩ := core.enqueue placed.1 small
  refine ⟨{ t with control := .forKeys keys }, by simp [step, control, enqueued], by simp [Late],
    ⟨⟨queue', lost', core'.goto .., fun empty => absurd empty nonempty, fun left => ?_⟩,
      earlier, lookups_eq, created_eq.trans created.symm⟩, ?_⟩
  · rw [counted]
    exact placed.2 (by simp only at left; omega)
  · simp only [rank, control]
    exact rank_lt (by omega)

theorem resuming_spawn_turns {h : CoroHandle} {task : Nat} {keys : List Int} (inv : Inv P streams s)
    (small : streams < 2 ^ 32) (control : s.control = .resuming h (.spawn task keys)) :
    Turns P streams s := by
  obtain ⟨⟨queue, lost, core, placed⟩, earlier, lookups_eq, created_eq⟩ := inv
  simp only [control, Control.task, Control.active, Control.keys] at core lookups_eq
  simp only [Placed, control] at placed
  obtain ⟨present, room, spent⟩ := placed
  obtain ⟨h, rfl⟩ := Option.ne_none_iff_exists'.mp present
  obtain ⟨t, resume_eq, created, -, lighter, outcome⟩ := core.resume room small (.spawn task keys)
  refine ⟨t, by simp [step, control, resume_eq], ?_⟩
  rcases outcome with ⟨next, queue', control', turned, core', limit, -⟩ | ⟨control', core', limit, -⟩
  · have sizes := congrArg List.length turned
    simp only [List.length_append, List.length_cons, List.length_nil] at sizes
    refine ⟨by simp [Late, control'],
      ⟨⟨queue', lost, by simpa [control', Control.task, Control.active] using core', ?_⟩, earlier,
        by simpa [control', Control.keys] using lookups_eq, created_eq.trans created.symm⟩, ?_⟩
    · simp only [Placed, control']
      exact ⟨by simp, by omega, limit.trans spent⟩
    · simp only [rank, control, control']
      exact rank_lt (by omega)
  · simp only [Caller.back] at control'
    refine ⟨by simp [Late, control'],
      ⟨⟨queue, lost, by simpa [control', Control.task, Control.active] using core', ?_⟩, earlier,
        by simpa [control', Control.keys] using lookups_eq, created_eq.trans created.symm⟩, ?_⟩
    · simp only [Placed, control']
      omega
    · simp only [rank, control, control']
      exact rank_lt (by omega)

theorem resuming_run_turns {h : CoroHandle} {call : RunCall} (inv : Inv P streams s)
    (small : streams < 2 ^ 32) (control : s.control = .resuming h (.run call)) :
    Turns P streams s := by
  obtain ⟨⟨queue, lost, core, placed⟩, earlier, lookups_eq, created_eq⟩ := inv
  simp only [control, Control.task, Control.active, Control.keys] at core lookups_eq
  simp only [Placed, control] at placed
  obtain ⟨present, room, rfl, forgotten⟩ := placed
  obtain ⟨h, rfl⟩ := Option.ne_none_iff_exists'.mp present
  obtain ⟨t, resume_eq, created, -, lighter, outcome⟩ := core.resume room small (.run .explicit)
  refine ⟨t, by simp [step, control, resume_eq], ?_⟩
  rcases outcome with ⟨next, queue', control', turned, core', -, -⟩ | ⟨control', core', -, -⟩
  · have sizes := congrArg List.length turned
    simp only [List.length_append, List.length_cons, List.length_nil] at sizes
    refine ⟨by simp [Late, control'],
      ⟨⟨queue', lost, by simpa [control', Control.task, Control.active] using core', ?_⟩, earlier,
        by simpa [control', Control.keys] using lookups_eq, created_eq.trans created.symm⟩, ?_⟩
    · simp only [Placed, control']
      exact ⟨by simp, by omega, by simp, forgotten⟩
    · simp only [rank, control, control']
      exact rank_lt (by omega)
  · simp only [Caller.back] at control'
    refine ⟨by simp [Late, control'],
      ⟨⟨queue, lost, by simpa [control', Control.task, Control.active] using core', ?_⟩, earlier,
        by simpa [control', Control.keys] using lookups_eq, created_eq.trans created.symm⟩, ?_⟩
    · simp only [Placed, control']
      exact ⟨fun overflow => .inl fun empty => forgotten.mp empty overflow,
        fun fewer => ⟨forgotten.mpr fewer, room⟩⟩
    · simp only [rank, control, control']
      exact rank_lt (by omega)

theorem running_explicit_turns (inv : Inv P streams s) (control : s.control = .running .explicit) :
    Turns P streams s := by
  obtain ⟨⟨queue, lost, core, placed⟩, earlier, lookups_eq, created_eq⟩ := inv
  simp only [control, Control.task, Control.active, Control.keys] at core lookups_eq
  simp only [Placed, control] at placed
  obtain ⟨filled, unfilled⟩ := placed
  by_cases blind : queue = [] ∨ queue.length = N
  · obtain ⟨-, empty_eq⟩ := core.queued.tryPopFront_none blind
    refine ⟨{ s with control := .checking }, by simp [step, control, empty_eq], by simp [Late], ?_⟩
    have left : ∃ lost', Core P streams s [] [] [] lost' ∧ (lost' = [] ↔ ¬Overflow P streams) := by
      rcases blind with rfl | full
      · refine ⟨lost, core, fun empty overflow => ?_, fun fewer => (unfilled fewer).1⟩
        rcases filled overflow with nonempty | full
        · exact nonempty empty
        · simp [N] at full
      · refine ⟨queue ++ lost, core.forget full, fun empty => ?_, fun fewer => ?_⟩
        · have := congrArg List.length empty
          simp [full, N] at this
        · have := (unfilled fewer).2
          omega
    obtain ⟨lost', core', forgotten⟩ := left
    refine ⟨⟨⟨[], lost', core'.goto .., rfl, forgotten⟩, earlier, lookups_eq, created_eq⟩, ?_⟩
    simp only [rank, control]
    exact rank_lt (by omega)
  · obtain ⟨nonempty, short⟩ := not_or.mp blind
    obtain ⟨h, queue, rfl⟩ := List.exists_cons_of_ne_nil nonempty
    have fits := core.queued.fits
    have room : (h :: queue).length < N := by omega
    obtain ⟨popped_eq, -⟩ := core.queued.tryPopFront room
    obtain ⟨-, popped⟩ := core.pop
    refine ⟨{ s with scheduler := s.scheduler.popFront.2, control := .resuming (some h) (.run .explicit) },
      by simp [step, control, popped_eq], by simp [Late],
      ⟨⟨queue, lost, popped.goto .., by simp, ?_, rfl, ?_⟩, earlier, lookups_eq, created_eq⟩, ?_⟩
    · simp only [List.length_cons] at room
      omega
    · refine ⟨fun empty overflow => ?_, fun fewer => (unfilled fewer).1⟩
      rcases filled overflow with nonempty | full
      · exact nonempty empty
      · exact short full
    · simp only [rank, control]
      exact rank_lt (by omega)

theorem checking_turns (inv : Inv P streams s) (control : s.control = .checking) : Turns P streams s := by
  obtain ⟨⟨queue, lost, core, placed⟩, earlier, lookups_eq, created_eq⟩ := inv
  simp only [control, Control.task, Control.active, Control.keys] at core lookups_eq
  simp only [Placed, control] at placed
  refine ⟨{ s with
      bug := decide (s.foundCount + s.notFoundCount ≠ P.lookups.length)
      result := s.foundCount
      control := .running .destructor }, by simp [step, control], fun _ => .inl control,
    ⟨⟨queue, lost, core.goto .., placed.1, placed.2, rfl, rfl⟩, earlier, lookups_eq, created_eq⟩, ?_⟩
  simp only [rank, control]
  exact rank_lt (by omega)

/-- The destructor's `run` finds nothing to resume. -/
theorem running_destructor_turns (inv : Inv P streams s) (control : s.control = .running .destructor) :
    Turns P streams s := by
  obtain ⟨⟨queue, lost, core, placed⟩, earlier, lookups_eq, created_eq⟩ := inv
  simp only [control, Control.task, Control.active, Control.keys] at core lookups_eq
  simp only [Placed, control] at placed
  obtain ⟨-, empty_eq⟩ := core.queued.tryPopFront_none (.inl placed.1)
  refine ⟨{ s with control := .returned }, by simp [step, control, empty_eq], fun _ => .inr (.inl control),
    ⟨⟨queue, lost, core.goto .., placed⟩, earlier, lookups_eq, created_eq⟩, ?_⟩
  simp only [rank, control]
  exact rank_lt (by omega)

theorem turns (inv : Inv P streams s) (positive : 1 ≤ streams) (small : streams < 2 ^ 32)
    (going : s.control ≠ .returned) : Turns P streams s := by
  cases control : s.control with
  | forKeys keys =>
    cases keys with
    | nil => exact forKeys_nil_turns inv control
    | cons key keys => exact forKeys_cons_turns inv positive control
  | spawning task keys => exact spawning_turns inv small control
  | resuming h caller =>
    cases caller with
    | spawn task keys => exact resuming_spawn_turns inv small control
    | run call => exact resuming_run_turns inv small control
  | running call =>
    cases call with
    | explicit => exact running_explicit_turns inv control
    | destructor => exact running_destructor_turns inv control
  | checking => exact checking_turns inv control
  | returned => exact absurd control going

theorem step_inv {t : Machine} (inv : Inv P streams s) (positive : 1 ≤ streams) (small : streams < 2 ^ 32)
    (stepped : step P s = some t) : Inv P streams t := by
  have going : s.control ≠ .returned := by
    intro finished
    simp [step, finished] at stepped
  obtain ⟨t', stepped', -, inv', -⟩ := turns inv positive small going
  exact Option.some.inj (stepped'.symm.trans stepped) ▸ inv'

/-- A scheduler at rest: the ring is empty, whatever its slots still hold. -/
structure Idle (q : SchedulerQueue) : Prop where
  empty : q.head = q.tail
  inside : q.tail < N

theorem start_inv (P : Program) {q : SchedulerQueue} (idle : Idle q) (t : Allocator.Tcalloc)
    (heap : Allocator.Heap) (small : streams < 2 ^ 32) : Inv P streams (start P q t heap streams) where
  core := by
    refine ⟨[], [], ⟨queued_nil idle.empty idle.inside, ?_, ⟨by simp [start], by simp [start, Control.task],
      by simp [start, Control.active], by simp [start, Control.task, Control.active]⟩, ?_, rfl, rfl, rfl, .inl rfl⟩,
      fun _ => rfl, fun _ => rfl⟩
    · have nothing : left P.v (start P q t heap streams).frames = fun _ => none := by
        funext k
        simp [left, start]
      rw [nothing]
      exact .empty
    · simpa [start, Control.active] using Nat.mod_eq_of_lt small
  keys := ⟨[], by simp [start, Control.keys], rfl⟩

/-- Every state of a run is sound. -/
theorem reached_inv {q : SchedulerQueue} {t : Allocator.Tcalloc} {heap : Allocator.Heap} (idle : Idle q)
    (positive : 1 ≤ streams) (small : streams < 2 ^ 32)
    (path : Reaches (step P) (start P q t heap streams) s) : Inv P streams s :=
  reaches_invariant (fun _ _ inv stepped => step_inv inv positive small stepped) path (start_inv P idle t heap small)

end

end Await.NanoCoro.CoroInvariant
