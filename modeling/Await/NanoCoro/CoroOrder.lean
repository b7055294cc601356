import Await.General.RoundRobin
import Await.NanoCoro.CoroResults

/-! The order in which the searches of a `CoroMultiLookup` run are resumed. The running
search and the ring are a line: a search joins it at the back when it is spawned, goes to
the back whenever it suspends, and leaves when it ends. -/

namespace Await.NanoCoro.CoroOrder
open General.RoundRobin General.TaskPool General.Transition CoroInvariant CoroMultiLookup CoroResults CoroSearch
open Lookup Naive Scheduler StateTransition

def ring (q : SchedulerQueue) : List Nat := q.contents.filterMap id

/-- The running search and the ring behind it. -/
def line (s : Machine) : List Nat := Control.active s.control ++ ring s.scheduler

/-- How many searches have been spawned. -/
def spawned (s : Machine) : Nat := s.created - (Control.task s.control).length

/-- The probe that a suspended search makes when it is resumed. -/
def due (frame : SearchFrame) : Nat :=
  match frame.point with
  | .initialSuspend => 0
  | .prefetch => 1

/-- Nobody is resumed: at most a new search is created. -/
structure Quiet (s t : Machine) : Prop where
  resumed : t.resumed = s.resumed
  frames : ∀ k frame, t.frames k = some frame →
    (∃ old, s.frames k = some old ∧ due old = due frame) ∨ k = s.created ∧ due frame = 0
  log : t.log = s.log ∨ t.log = s.log ++ [.load s.created]

/-- What one turn does to the line, the frames and the record. -/
inductive Turn (s t : Machine) : Prop where
  | stay (quiet : Quiet s t) (line : line t = line s) (spawned : spawned t = spawned s)
  | join (quiet : Quiet s t) (line : line t = line s ++ [spawned s]) (spawned : spawned t = spawned s + 1)
  | rotate (h : Nat) (rest : List Nat) (old new : SearchFrame) (reads : List Nat)
      (line : line s = h :: rest) (line' : CoroOrder.line t = rest ++ [h]) (spawned : spawned t = spawned s)
      (resumed : t.resumed = s.resumed ++ [h]) (present : s.frames h = some old) (probes : reads.length = due old)
      (frames : t.frames = Function.update s.frames h (some new)) (pending : due new = 1)
      (log : t.log = s.log ++ reads.map (Event.step h))
  | leave (h : Nat) (rest : List Nat) (old : SearchFrame) (reads : List Nat) (found : Bool)
      (line : line s = h :: rest) (line' : CoroOrder.line t = rest) (spawned : spawned t = spawned s)
      (resumed : t.resumed = s.resumed ++ [h]) (present : s.frames h = some old) (probes : reads.length = due old)
      (frames : t.frames = Function.update s.frames h none)
      (log : t.log = s.log ++ reads.map (Event.step h) ++ [.retire h found])

section
variable {P : Program} {streams : Nat} {s t : Machine} {task active queue : List Nat} {h : Nat}

theorem ring_eq {q : SchedulerQueue} (queued : Queued q queue) (room : queue.length < N) : ring q = queue := by
  rw [ring, queued.contents room, List.filterMap_map]
  exact List.filterMap_some

theorem line_eq (core : Core P streams s task active queue []) (few : streams < N)
    (here : Control.active s.control = active) : line s = active ++ queue := by
  have throttled := core.throttled
  simp only [List.append_nil, List.length_append] at throttled
  rw [line, here, ring_eq core.queued (by omega)]

/-- A suspended search probes at most once when it is resumed, and it suspends before a probe. -/
theorem resume_due {v : Array Int} {frame : SearchFrame} {reads : List Nat} {activation : Activation}
    (resumes : frame.resume v = some (reads, activation)) :
    reads.length = due frame ∧ ∀ next, activation = .suspended next → due next = 1 := by
  have waits (frame next : SearchFrame) (suspends : frame.loop = .suspended next) : due next = 1 := by
    unfold SearchFrame.loop at suspends
    split at suspends
    · cases suspends
      rfl
    · cases suspends
  unfold SearchFrame.resume at resumes
  split at resumes
  · next point =>
    cases resumes
    exact ⟨by simp [due, point], fun next => waits _ next⟩
  · next point =>
    simp only [Option.bind_eq_bind, Option.bind_eq_some_iff] at resumes
    obtain ⟨x, -, branch⟩ := resumes
    split at branch <;> cases branch
    · exact ⟨by simp [due, point], fun next found => by cases found⟩
    · exact ⟨by simp [due, point], fun next => waits _ next⟩

/-- The end of a search takes it out of the line. -/
theorem finish_turn {caller : Caller} {old : SearchFrame} {reads : List Nat} {found : Bool}
    (core : Core P streams s task [h] queue []) (few : streams < N)
    (control : s.control = .resuming (some h) caller) (present : s.frames h = some old)
    (owned : old.hasOwner = true) (probes : reads.length = due old)
    (whole : remaining P.v old = some ⟨reads, found⟩)
    (finishes : ({ s with resumed := s.resumed ++ [h], log := s.log ++ reads.map (Event.step h) }).finish P h old
      found caller = some t) : Turn s t := by
  obtain ⟨t', finish_eq, created, frames, resumed, outcome⟩ :=
    core.finish caller (s.resumed ++ [h]) (by simp only [N] at few; omega) present owned whole
  obtain rfl : t = t' := Option.some.inj (finishes.symm.trans finish_eq)
  have log : t.log = s.log ++ reads.map (Event.step h) ++ [.retire h found] := by
    simp only [Machine.finish, if_pos owned, Option.some.injEq] at finishes
    exact finishes ▸ rfl
  have back : t.control = caller.back := by
    simp only [Machine.finish, if_pos owned, Option.some.injEq] at finishes
    exact finishes ▸ rfl
  rcases outcome with ⟨next, queue', goes, -⟩ | ⟨-, core', -⟩
  · exact absurd (back.symm.trans goes) back_ne_resuming
  · refine .leave h queue old reads found (line_eq core few (by simp [control, Control.active]))
      (line_eq core' few ?_) ?_ resumed present probes frames log
    · cases caller <;> simp [back, Caller.back, Control.active]
    · rw [spawned, spawned, created, back, control]
      cases caller <;> rfl

/-- A resumption turns the line, or takes its first search away. -/
theorem resume_turn {caller : Caller} (core : Core P streams s task [h] queue []) (few : streams < N)
    (control : s.control = .resuming (some h) caller)
    (stepped : step P s = some t) : Turn s t := by
  obtain ⟨old, present, owned⟩ := (core.live.owned h).mpr (List.mem_cons_self ..)
  obtain ⟨reads, activation, resume_eq, leaves⟩ := (core.live.poised h old present).resume
  obtain ⟨probes, pending⟩ := resume_due resume_eq
  have room : queue.length < N := by
    have throttled := core.throttled
    simp only [List.append_nil, List.length_append] at throttled
    omega
  have resumes : s.resume P h caller = some t := by simpa [step, control] using stepped
  cases activation with
  | onFound position =>
    exact finish_turn core few control present owned probes leaves.1
      (by simpa [Machine.resume, present, resume_eq] using resumes)
  | onNotFound =>
    exact finish_turn core few control present owned probes leaves
      (by simpa [Machine.resume, present, resume_eq] using resumes)
  | suspended next =>
    simp only [Machine.resume, present, resume_eq, Option.bind_eq_bind, Option.bind_some, Option.some.injEq] at resumes
    subst resumes
    rcases core.suspend caller (s.resumed ++ [h]) room present leaves with
      ⟨next', queue', goes, turned, core', -⟩ | ⟨back, -⟩
    · refine .rotate h queue old next reads (line_eq core few (by simp [control, Control.active]))
        ((line_eq core' few (by simp [goes, Control.active])).trans turned.symm) ?_ rfl present probes rfl
        (pending next rfl) rfl
      rw [spawned, spawned, goes, control]
      cases caller <;> rfl
    · exact absurd back.symm back_ne_resuming

/-- The search that waits in `spawn` is the newest one. -/
def Newest (s : Machine) : Prop := ∀ k ∈ Control.task s.control, k + 1 = s.created

theorem newest_of_none (none_waits : Control.task s.control = []) : Newest s := by
  simp [Newest, none_waits]

theorem Quiet.of_eq (resumed : t.resumed = s.resumed) (frames : t.frames = s.frames) (log : t.log = s.log) :
    Quiet s t :=
  ⟨resumed, fun _ frame present => .inl ⟨frame, frames ▸ present, rfl⟩, .inl log⟩

theorem create_quiet (s : Machine) (key : Int) : Quiet s (s.create P key) where
  resumed := rfl
  frames k frame present := by
    by_cases new : k = s.created
    · obtain rfl : _ = frame := by simpa [Machine.create, Machine.store, new] using present
      exact .inr ⟨new, rfl⟩
    · exact .inl ⟨frame, by simpa [Machine.create, Machine.store, new] using present, rfl⟩
  log := .inr rfl

theorem create_turn {key : Int} {keys : List Int} (core : Core P streams s [] [] queue []) (few : streams < N)
    (positive : 1 ≤ streams) (known : P.lookups[s.created]? = some key) (control : s.control = .forKeys (key :: keys))
    (stepped : step P s = some t) : Turn s t ∧ Newest t := by
  have here := line_eq core few (by simp [control, Control.active])
  have created := core.create known
  have quiet := create_quiet (P := P) s key
  have none_waits : spawned s = s.created := by simp [spawned, control, Control.task]
  by_cases spent : s.limit = 0
  · have unlimited : (s.create P key).limit = 0 := spent
    cases queue with
    | nil =>
      have throttled := core.throttled
      simp [spent] at throttled
      omega
    | cons h queue =>
      obtain ⟨oldest, popped⟩ := created.pop
      obtain rfl : { s.create P key with
          scheduler := (s.create P key).scheduler.popFront.2
          control := .resuming (some h) (.spawn s.created keys) } = t := by
        simpa [step, control, Machine.throttle, unlimited, oldest] using stepped
      refine ⟨.stay ⟨quiet.resumed, quiet.frames, quiet.log⟩ ?_ none_waits.symm, ?_⟩
      · exact (line_eq (popped.goto ..) few rfl).trans here.symm
      · intro k waits
        obtain rfl : k = s.created := by simpa [Control.task] using waits
        rfl
  · have unspent : (s.create P key).limit ≠ 0 := spent
    obtain rfl : { s.create P key with control := .spawning s.created keys } = t := by
      simpa [step, control, Machine.throttle, unspent] using stepped
    refine ⟨.stay ⟨quiet.resumed, quiet.frames, quiet.log⟩ ?_ none_waits.symm, ?_⟩
    · exact (line_eq (created.goto ..) few rfl).trans here.symm
    · intro k waits
      obtain rfl : k = s.created := by simpa [Control.task] using waits
      rfl

theorem spawn_turn {search : Nat} {keys : List Int} (core : Core P streams s [search] [] queue []) (few : streams < N)
    (spare : 0 < s.limit) (newest : Newest s) (control : s.control = .spawning search keys)
    (stepped : step P s = some t) : Turn s t ∧ Newest t := by
  have here := line_eq core few (by simp [control, Control.active])
  obtain ⟨frame, present, -⟩ := (core.live.unowned search).mpr (List.mem_singleton_self search)
  have throttled := core.throttled
  simp only [List.nil_append, List.append_nil] at throttled
  have last : search + 1 = s.created := newest search (by simp [control, Control.task])
  have waits : spawned s = search := by
    simp only [spawned, control, Control.task, List.length_singleton]
    omega
  simp only [step, control, Machine.enqueue, present, Option.bind_eq_bind, Option.bind_some, Option.some.injEq]
    at stepped
  subst stepped
  refine ⟨.join ⟨rfl, fun k new found => ?_, .inl rfl⟩ ?_ ?_, newest_of_none rfl⟩
  · by_cases own : k = search
    · obtain rfl : _ = new := by simpa [Machine.store, own] using found
      exact .inl ⟨frame, own ▸ present, rfl⟩
    · exact .inl ⟨new, by simpa [Machine.store, own] using found, rfl⟩
  · rw [here, waits]
    exact ring_eq (core.queued.pushBack (by omega) search) (by simp; omega)
  · rw [waits]
    exact last.symm

theorem resuming_turn {h : CoroHandle} {caller : Caller} (inv : Inv P streams s) (few : streams < N)
    (newest : Newest s) (control : s.control = .resuming h caller) (stepped : step P s = some t) :
    Turn s t ∧ Newest t := by
  obtain ⟨k, queue, lost, rfl, core, room⟩ := resuming_live inv control
  obtain rfl := none_lost core few
  refine ⟨resume_turn core few control stepped, ?_⟩
  obtain ⟨t', resume_eq, created, -, -, outcome⟩ := core.resume room (by simp only [N] at few; omega) caller
  obtain rfl : t = t' := by
    have same : step P s = some t' := by simpa [step, control] using resume_eq
    exact Option.some.inj (stepped.symm.trans same)
  intro k waits
  rw [created]
  apply newest k
  rw [control]
  rcases outcome with ⟨next, -, goes, -⟩ | ⟨back, -⟩
  · rw [goes] at waits
    cases caller <;> exact waits
  · rw [back] at waits
    cases caller <;> exact waits

theorem running_turn {call : RunCall} (core : Core P streams s [] [] queue []) (few : streams < N)
    (control : s.control = .running call) (stepped : step P s = some t) : Turn s t ∧ Newest t := by
  have here := line_eq core few (by simp [control, Control.active])
  have throttled := core.throttled
  simp only [List.nil_append, List.append_nil] at throttled
  cases queue with
  | nil =>
    obtain ⟨-, empty_eq⟩ := core.queued.tryPopFront_none (.inl rfl)
    obtain rfl : { s with control := if call = .explicit then .checking else .returned } = t := by
      simpa [step, control, empty_eq] using stepped
    cases call
    all_goals
      refine ⟨.stay (.of_eq rfl rfl rfl) ?_ (by simp [spawned, control, Control.task]), newest_of_none rfl⟩
      exact (line_eq (core.goto ..) few rfl).trans here.symm
  | cons h queue =>
    obtain ⟨popped_eq, -⟩ := core.queued.tryPopFront (by omega)
    obtain ⟨-, popped⟩ := core.pop
    obtain rfl : { s with scheduler := s.scheduler.popFront.2, control := .resuming (some h) (.run call) } = t := by
      simpa [step, control, popped_eq] using stepped
    refine ⟨.stay (.of_eq rfl rfl rfl) ?_ (by simp [spawned, control, Control.task]), newest_of_none rfl⟩
    exact (line_eq (popped.goto ..) few rfl).trans here.symm

theorem step_turn (inv : Inv P streams s) (few : streams < N) (positive : 1 ≤ streams) (newest : Newest s)
    (stepped : step P s = some t) : Turn s t ∧ Newest t := by
  obtain ⟨⟨queue, lost, core, placed⟩, earlier, lookups_eq, created_eq⟩ := id inv
  obtain rfl := none_lost core few
  have here := line_eq core few rfl
  cases control : s.control with
  | forKeys keys =>
    simp only [control, Control.task, Control.active, Control.keys] at core here lookups_eq
    cases keys with
    | nil =>
      obtain rfl : _ = t := by simpa [step, control] using stepped
      refine ⟨.stay (.of_eq rfl rfl rfl) ?_ (by simp [spawned, control, Control.task]), newest_of_none rfl⟩
      exact (line_eq (core.goto ..) few rfl).trans here.symm
    | cons key keys =>
      exact create_turn core few positive (by simp [lookups_eq, ← created_eq]) control stepped
  | spawning search keys =>
    simp only [control, Control.task, Control.active] at core
    simp only [Placed, control] at placed
    exact spawn_turn core few placed.1 newest control stepped
  | resuming h caller => exact resuming_turn inv few newest control stepped
  | running call =>
    simp only [control, Control.task, Control.active] at core
    exact running_turn core few control stepped
  | checking =>
    simp only [control, Control.task, Control.active] at core here
    obtain rfl : _ = t := by simpa [step, control] using stepped
    refine ⟨.stay (.of_eq rfl rfl rfl) ?_ (by simp [spawned, control, Control.task]), newest_of_none rfl⟩
    exact (line_eq (core.goto ..) few rfl).trans here.symm
  | returned => simp [step, control] at stepped

/-! ### Probes and resumptions -/

/-- Whenever a search finishes, the earlier ones that probe no more often have finished. -/
def FinishesInOrder (P : Program) (log : List (Event Nat Bool)) : Prop :=
  ∀ before after j found, log = before ++ .retire j found :: after → ∀ i < j, ∀ outcome outcome',
    script P.v P.lookups i = some outcome → script P.v P.lookups j = some outcome' →
    outcome.steps.length ≤ outcome'.steps.length → ∃ found', .retire i found' ∈ before

structure Ordered (P : Program) (s : Machine) : Prop where
  newest : Newest s
  rounds : Rounds (spawned s) (line s) s.resumed
  counted : ∀ k frame, s.frames k = some frame → s.resumed.count k = (steps k s.log).length + due frame
  finishes : FinishesInOrder P s.log

/-- A search that is to make a probe has one to make. -/
theorem due_le {v : Array Int} {frame : SearchFrame} {later : Outcome} (poised : Poised v frame)
    (rest : remaining v frame = some later) : due frame ≤ later.steps.length := by
  unfold due
  split
  · exact Nat.zero_le _
  · next point =>
    simp only [Poised, remaining, point] at poised rest
    obtain ⟨positive, -, -, inside⟩ := poised
    obtain ⟨x, element⟩ := middle_read positive inside
    rw [naiveLoop_read positive element] at rest
    split at rest
    · cases rest
      exact le_rfl
    · obtain ⟨tail, -, rfl⟩ := Option.map_eq_some_iff.mp rest
      simp [after]

/-- While a search is live it has not been resumed more often than it probes in all. -/
theorem count_le_probes {k : Nat} {frame : SearchFrame} {outcome : Outcome}
    (core : Core P streams s task active queue []) (ordered : Ordered P s) (present : s.frames k = some frame)
    (known : script P.v P.lookups k = some outcome) : s.resumed.count k ≤ outcome.steps.length := by
  have poised := core.live.poised k frame present
  obtain ⟨later, rest⟩ := poised.remaining_some
  obtain ⟨-, whole, known', account⟩ := core.progress.account (core.inside present)
  obtain rfl : outcome = whole := Option.some.inj (known.symm.trans known')
  have left_eq : left P.v s.frames k = some later := by simp [left, present, rest]
  rw [left_eq] at account
  have split := congrArg (·.steps.length) account.2
  simp only [List.length_append] at split
  have counted := ordered.counted k frame present
  have := due_le poised rest
  omega

/-- An earlier search that is not in line any more has finished. -/
theorem finished_of_left {i j : Nat} (core : Core P streams s (Control.task s.control) (Control.active s.control) queue [])
    (few : streams < N) (ordered : Ordered P s) (older : i < j) (inLine : j ∈ line s) (gone : i ∉ line s) :
    ∃ found, .retire i found ∈ s.log := by
  have below := ordered.rounds.nodup.2 j inLine
  have absent : s.frames i = none := by
    by_contra present
    obtain ⟨frame, present⟩ := Option.ne_none_iff_exists'.mp present
    cases owner : frame.hasOwner with
    | true =>
      apply gone
      rw [line_eq core few rfl, ← List.append_nil queue]
      exact (core.live.owned i).mp ⟨frame, present, owner⟩
    | false =>
      have waits := (core.live.unowned i).mp ⟨frame, present, owner⟩
      have newest := ordered.newest i waits
      have some_task := List.length_pos_of_mem waits
      simp only [spawned] at below
      omega
  have inside : i < s.created := by
    simp only [spawned] at below
    omega
  obtain ⟨-, whole, -, account⟩ := core.progress.account inside
  have nothing : left P.v s.frames i = none := by simp [left, absent]
  rw [nothing] at account
  exact retired_of_answers (by rw [account.1]; simp)

/-- Events that finish nothing. -/
theorem FinishesInOrder.append {log more : List (Event Nat Bool)} (finishes : FinishesInOrder P log)
    (none_retires : ∀ j found, .retire j found ∉ more) : FinishesInOrder P (log ++ more) := by
  intro before after j found split
  rcases List.append_eq_append_iff.mp split with ⟨between, -, inMore⟩ | ⟨between, inLog, rest⟩
  · exact absurd (inMore ▸ by simp) (none_retires j found)
  · cases between with
    | nil => exact absurd (show .retire j found ∈ more by rw [← List.nil_append more, ← rest]; simp) (none_retires j found)
    | cons event between =>
      obtain ⟨rfl, -⟩ := List.cons.inj rest
      exact finishes before between j found inLog

/-- A search that finishes last, after all earlier ones that probe no more often. -/
theorem FinishesInOrder.concat {log : List (Event Nat Bool)} {found : Bool} (finishes : FinishesInOrder P log)
    (earlier : ∀ i < h, ∀ outcome outcome', script P.v P.lookups i = some outcome →
      script P.v P.lookups h = some outcome' → outcome.steps.length ≤ outcome'.steps.length →
      ∃ found', .retire i found' ∈ log) : FinishesInOrder P (log ++ [.retire h found]) := by
  intro before after j found' split
  rcases split_concat split with ⟨rfl, rfl, last⟩ | ⟨after', rfl, inLog⟩
  · obtain ⟨rfl, rfl⟩ : j = h ∧ found' = found := by simpa using last
    exact earlier
  · exact finishes before after' j found' inLog

theorem Quiet.counted (quiet : Quiet s t) (core : Core P streams s task active queue []) (ordered : Ordered P s)
    (k : Nat) (frame : SearchFrame) (present : t.frames k = some frame) :
    t.resumed.count k = (steps k t.log).length + due frame := by
  have same : steps k t.log = steps k s.log := by
    rcases quiet.log with log | log <;> simp [log, steps]
  rw [quiet.resumed, same]
  rcases quiet.frames k frame present with ⟨old, present', due_eq⟩ | ⟨rfl, nothing⟩
  · rw [← due_eq]
    exact ordered.counted k old present'
  · have fresh : s.resumed.count s.created = 0 := by
      refine List.count_eq_zero.mpr fun member => ?_
      have := ordered.rounds.turns_below _ member
      simp only [spawned] at this
      omega
    rw [fresh, nothing, (core.progress.untouched le_rfl).2.2.1, List.length_nil]

theorem Quiet.finishes (quiet : Quiet s t) (finishes : FinishesInOrder P s.log) : FinishesInOrder P t.log := by
  rcases quiet.log with log | log
  · exact log ▸ finishes
  · exact log ▸ finishes.append (by simp)

/-- The record of a search that has been resumed once more. -/
theorem counted_other {k : Nat} (reads : List Nat) (ordered : Ordered P s) (apart : k ≠ h) {frame : SearchFrame}
    (present : s.frames k = some frame) :
    (s.resumed ++ [h]).count k = (steps k (s.log ++ reads.map (Event.step h))).length + due frame := by
  rw [List.count_append, List.count_singleton, if_neg (by simpa using apart.symm), steps_append,
    steps_other apart.symm, List.append_nil, Nat.add_zero]
  exact ordered.counted k frame present

/-- A search that has come to its end has been resumed once for each probe, and once before. -/
theorem count_eq_probes {reads : List Nat} {old : SearchFrame} {found : Bool} {outcome : Outcome}
    (inv' : Inv P streams t) (ordered : Ordered P s) (present : s.frames h = some old) (probes : reads.length = due old)
    (gone : t.frames h = none) (log : t.log = s.log ++ reads.map (Event.step h) ++ [.retire h found])
    (known : script P.v P.lookups h = some outcome) : s.resumed.count h = outcome.steps.length := by
  obtain ⟨⟨queue', lost', core', -⟩, -⟩ := inv'
  have retires : answers h t.log ≠ [] := by simp [log, answers]
  have inside : h < t.created := by
    by_contra outside
    exact retires (core'.progress.untouched (Nat.le_of_not_lt outside)).2.2.2
  obtain ⟨-, whole, known', account⟩ := core'.progress.account inside
  obtain rfl : outcome = whole := Option.some.inj (known.symm.trans known')
  have nothing : left P.v t.frames h = none := by simp [left, gone]
  rw [nothing] at account
  rw [account.2, log, steps_append, steps_append, steps_own, ordered.counted h old present, ← probes]
  simp [steps]

/-- When the first in line leaves, an earlier search that probes no more often has left: it
would otherwise have been resumed more often than it probes. -/
theorem Ordered.older_finished {reads rest : List Nat} {old : SearchFrame} {found : Bool} {i : Nat}
    {outcome outcome' : Outcome} (ordered : Ordered P s)
    (core : Core P streams s (Control.task s.control) (Control.active s.control) queue [])
    (inv' : Inv P streams t) (few : streams < N) (first : line s = h :: rest) (present : s.frames h = some old)
    (probes : reads.length = due old) (gone : t.frames h = none)
    (log : t.log = s.log ++ reads.map (Event.step h) ++ [.retire h found]) (older : i < h)
    (known : script P.v P.lookups i = some outcome) (known' : script P.v P.lookups h = some outcome')
    (fewer : outcome.steps.length ≤ outcome'.steps.length) : ∃ found', .retire i found' ∈ s.log := by
  have rounds := first ▸ ordered.rounds
  by_cases waits : i ∈ rest
  · have inLine : i ∈ line s := first ▸ List.mem_cons_of_mem _ waits
    rw [CoroOrder.line_eq core few rfl, ← List.append_nil queue] at inLine
    obtain ⟨frame, live, -⟩ := (core.live.owned i).mpr inLine
    have ahead := rounds.behind older waits
    have most := count_le_probes core ordered live known
    have all := count_eq_probes inv' ordered present probes gone log known'
    omega
  · have left : i ∉ line s := by
      rw [first]
      simp [waits, Nat.ne_of_lt older]
    exact finished_of_left core few ordered older (first ▸ List.mem_cons_self ..) left

theorem Ordered.turn (inv : Inv P streams s) (inv' : Inv P streams t) (few : streams < N) (ordered : Ordered P s)
    (turn : Turn s t) (newest : Newest t) : Ordered P t := by
  obtain ⟨⟨queue, lost, core, -⟩, -⟩ := inv
  obtain rfl := none_lost core few
  cases turn with
  | stay quiet line_eq spawned_eq =>
    refine ⟨newest, ?_, quiet.counted core ordered, quiet.finishes ordered.finishes⟩
    rw [line_eq, spawned_eq, quiet.resumed]
    exact ordered.rounds
  | join quiet line_eq spawned_eq =>
    refine ⟨newest, ?_, quiet.counted core ordered, quiet.finishes ordered.finishes⟩
    rw [line_eq, spawned_eq, quiet.resumed]
    exact ordered.rounds.join
  | rotate h rest old new reads line_eq line_eq' spawned_eq resumed present probes frames pending log =>
    refine ⟨newest, ?_, fun k frame found => ?_, ?_⟩
    · rw [line_eq', spawned_eq, resumed]
      exact (line_eq ▸ ordered.rounds).rotate
    · rw [resumed, log]
      by_cases own : k = h
      · subst own
        obtain rfl : new = frame := by simpa [frames] using found
        have counted := ordered.counted k old present
        rw [List.count_append, List.count_singleton_self, steps_append, steps_own, List.length_append, counted,
          probes, pending]
      · exact counted_other reads ordered own (by simpa [frames, own] using found)
    · exact log ▸ ordered.finishes.append (by simp)
  | leave h rest old reads found line_eq line_eq' spawned_eq resumed present probes frames log =>
    have rounds := line_eq ▸ ordered.rounds
    refine ⟨newest, ?_, fun k frame live => ?_, ?_⟩
    · rw [line_eq', spawned_eq, resumed]
      exact rounds.leave
    · have own : k ≠ h := by
        rintro rfl
        simp [frames] at live
      rw [resumed, log, steps_append]
      simpa [steps] using counted_other reads ordered own (by simpa [frames, own] using live)
    · rw [log]
      apply (ordered.finishes.append (by simp)).concat
      intro i older outcome outcome' known known' fewer
      obtain ⟨found', retired⟩ := ordered.older_finished core inv' few line_eq present probes (by simp [frames]) log
        older known known' fewer
      exact ⟨found', List.mem_append_left _ retired⟩

/-- The order is kept in every state of a run. -/
theorem reached_ordered {q : SchedulerQueue} {a : Allocator.Tcalloc} {heap : Allocator.Heap} (idle : Idle q)
    (positive : 1 ≤ streams) (few : streams < N) (path : Reaches (step P) (start P q a heap streams) s) :
    Inv P streams s ∧ Ordered P s := by
  have small : streams < 2 ^ 32 := by
    simp only [N] at few
    omega
  have kept (s t : Machine) (both : Inv P streams s ∧ Ordered P s) (stepped : step P s = some t) :
      Inv P streams t ∧ Ordered P t := by
    obtain ⟨inv, ordered⟩ := both
    have inv' := step_inv inv positive small stepped
    obtain ⟨turn, newest⟩ := step_turn inv few positive ordered.newest stepped
    exact ⟨inv', ordered.turn inv inv' few turn newest⟩
  have initially : Ordered P (start P q a heap streams) := by
    have empty : ring q = [] := ring_eq (queued_nil idle.empty idle.inside) (by decide)
    refine ⟨newest_of_none rfl, ?_, fun k frame present => ?_, ?_⟩
    · simpa [start, spawned, line, Control.task, Control.active, empty] using Rounds.start
    · simp [start] at present
    · intro before after j found split
      simp [start] at split
  have both := reaches_invariant kept path ⟨start_inv P idle a heap small, initially⟩
  exact both

end

/-- No search is overtaken: the `k`-th resumption of an earlier search comes before the `k`-th
resumption of a later one, and with no more probes to make it finishes first. -/
theorem coroMultiLookup_in_turn (P : Program) (q : SchedulerQueue) (a : Allocator.Tcalloc)
    (heap : Allocator.Heap) (streams : Nat) (idle : Idle q) (positive : 1 ≤ streams) (few : streams ≤ 255) :
    ∃ final ∈ eval (step P) (start P q a heap streams), final.control = .returned ∧
      Answered P.v P.lookups final.log ∧
      (∀ i j k p p', i < j → IsTurn final.resumed i k p → IsTurn final.resumed j k p' → p < p') ∧
      FinishesInOrder P final.log := by
  have fewer : streams < N := by simp only [N]; omega
  obtain ⟨final, ends, inv, finished⟩ := reaches_returned P a heap streams idle positive (by omega)
  obtain ⟨progress, nothing⟩ := returned_progress inv fewer finished
  obtain ⟨-, ordered⟩ := reached_ordered idle positive fewer (mem_eval.mp ends).1
  exact ⟨final, ends, finished, answered_of_idle progress nothing,
    fun i j k p p' older first second => ordered.rounds.in_turn older first second, ordered.finishes⟩

theorem coroMultiLookup_in_turn_three_keys :
    ∃ final ∈ eval (step ⟨#[1, 3, 5], [5, 4, 3], 64, fun _ => ⟨none, 0⟩⟩)
        (start ⟨#[1, 3, 5], [5, 4, 3], 64, fun _ => ⟨none, 0⟩⟩ ⟨9, 9, fun _ => some 2⟩ {}
          ⟨0, fun _ => 0, fun _ => ⟨none, 0⟩⟩ 2), final.control = .returned ∧
      Answered #[1, 3, 5] [5, 4, 3] final.log ∧
      (∀ i j k p p', i < j → IsTurn final.resumed i k p → IsTurn final.resumed j k p' → p < p') ∧
      FinishesInOrder ⟨#[1, 3, 5], [5, 4, 3], 64, fun _ => ⟨none, 0⟩⟩ final.log :=
  coroMultiLookup_in_turn ⟨#[1, 3, 5], [5, 4, 3], 64, fun _ => ⟨none, 0⟩⟩ _ _ _ 2 ⟨rfl, by decide⟩ (by decide)
    (by decide)

end Await.NanoCoro.CoroOrder
