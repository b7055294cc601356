import Await.NanoCoro.CoroInvariant

/-! What a `CoroMultiLookup` run amounts to: one naive search per key as long as the ring
is never filled, and searches left behind whenever it can be. -/

namespace Await.NanoCoro.CoroResults
open General.TaskPool General.Transition CoroInvariant CoroMultiLookup CoroSearch Lookup Naive Scheduler
open StateTransition

/-- The searches spawned and not yet finished: those created, less the one that `spawn` still
holds and those whose end is in the log. -/
def inFlight (s : Machine) : List Nat :=
  (List.range s.created).filter fun k => k ∉ Control.task s.control ∧ answers k s.log = []

/-- The searches that have finished. -/
def retired (s : Machine) : Nat := tally (fun _ => true) s.log

/-- One `resume()` by `caller`, from the handle it resumes over all symmetric transfers
to the moment it returns. -/
inductive Resume (P : Program) (caller : Caller) : Machine → Machine → Prop where
  | back {s t} : step P s = some t → t.control = caller.back → Resume P caller s t
  | transfer {s m t h} : step P s = some m → m.control = .resuming h caller → Resume P caller m t →
      Resume P caller s t

section
variable {P : Program} {streams : Nat} {s t : Machine} {task active queue lost : List Nat} {k : Nat}

/-- Whatever is in flight has a frame, and that frame has an owner to report to. -/
theorem mem_inFlight (core : Core P streams s (Control.task s.control) active queue lost) :
    k ∈ inFlight s ↔ ∃ frame, s.frames k = some frame ∧ frame.hasOwner = true := by
  simp only [inFlight, List.mem_filter, List.mem_range, decide_eq_true_eq]
  constructor
  · rintro ⟨inside, notTask, unanswered⟩
    obtain ⟨-, whole, -, account⟩ := core.progress.account inside
    cases present : s.frames k with
    | none => simp [left, present, Accounted, unanswered] at account
    | some frame =>
      refine ⟨frame, rfl, ?_⟩
      by_contra noOwner
      exact notTask ((core.live.unowned k).mp ⟨frame, present, by simpa using noOwner⟩)
  · rintro ⟨frame, present, owner⟩
    have inside := core.inside present
    obtain ⟨-, whole, -, account⟩ := core.progress.account inside
    obtain ⟨outcome, known⟩ := (core.live.poised k frame present).remaining_some
    have underway : left P.v s.frames k = some outcome := by simp [left, present, known]
    rw [underway] at account
    have flight := (core.live.owned k).mp ⟨frame, present, owner⟩
    exact ⟨inside, fun waits => (List.nodup_append.mp core.live.nodup).2.2 k waits k flight rfl, account.1⟩

/-- The places of the invariant are exactly the searches in flight. -/
theorem inFlight_perm (core : Core P streams s (Control.task s.control) active queue lost) :
    (active ++ (queue ++ lost)).Perm (inFlight s) := by
  have nodup := (List.nodup_append.mp core.live.nodup).2.1
  have distinct : (inFlight s).Nodup := List.nodup_range.filter _
  refine (List.perm_ext_iff_of_nodup nodup distinct).mpr fun k => ?_
  rw [mem_inFlight core, core.live.owned k]

theorem retired_eq (core : Core P streams s task active queue lost) :
    retired s = s.foundCount + s.notFoundCount := by
  rw [retired, tally_split id, core.found, core.notFound]
  rfl

/-- A ring that has forgotten something held 256 searches at a time. -/
theorem none_lost (core : Core P streams s task active queue lost) (few : streams < N) : lost = [] := by
  rcases core.dropped with empty | large
  · exact empty
  · have throttled := core.throttled
    simp only [List.length_append] at throttled
    omega

theorem frames_none_iff (core : Core P streams s [] [] [] lost) : (∀ k, s.frames k = none) ↔ lost = [] := by
  constructor
  · intro gone
    apply List.eq_nil_iff_forall_not_mem.mpr
    intro k member
    obtain ⟨frame, present, -⟩ := (core.live.owned k).mpr member
    simp [gone k] at present
  · rintro rfl k
    by_contra present
    obtain ⟨frame, present⟩ := Option.ne_none_iff_exists'.mp present
    cases owner : frame.hasOwner with
    | true => exact absurd ((core.live.owned k).mp ⟨frame, present, owner⟩) (by simp)
    | false => exact absurd ((core.live.unowned k).mp ⟨frame, present, owner⟩) (by simp)

/-! ### One resumption -/

/-- A handle about to be resumed is that of a search in flight, and the ring has room for
it to suspend again. -/
theorem resuming_live {h : CoroHandle} {caller : Caller} (inv : Inv P streams s)
    (control : s.control = .resuming h caller) :
    ∃ k queue lost, h = some k ∧ Core P streams s (Control.task s.control) [k] queue lost ∧ queue.length < N := by
  obtain ⟨⟨queue, lost, core, placed⟩, -⟩ := inv
  have both : h ≠ none ∧ queue.length < N := by
    cases caller with
    | spawn task keys =>
      simp only [Placed, control] at placed
      exact ⟨placed.1, placed.2.1⟩
    | run call =>
      simp only [Placed, control] at placed
      exact ⟨placed.1, placed.2.1⟩
  obtain ⟨k, rfl⟩ := Option.ne_none_iff_exists'.mp both.1
  exact ⟨k, queue, lost, rfl, by simpa [control, Control.active] using core, both.2⟩

/-- One activation: control goes on to another handle with nothing retired, or back to
the caller with one search retired. -/
theorem resuming_step {h : CoroHandle} {caller : Caller} (inv : Inv P streams s) (positive : 1 ≤ streams)
    (small : streams < 2 ^ 32) (control : s.control = .resuming h caller) :
    ∃ t, step P s = some t ∧ Inv P streams t ∧ rank t < rank s ∧
      ((∃ next, t.control = .resuming (some next) caller ∧ retired t = retired s) ∨
        (t.control = caller.back ∧ retired t = retired s + 1)) := by
  obtain ⟨t, stepped, -, inv', lower⟩ := turns inv positive small (by simp [control])
  refine ⟨t, stepped, inv', lower, ?_⟩
  obtain ⟨k, queue, lost, rfl, core, room⟩ := resuming_live inv control
  obtain ⟨t', resume_eq, -, -, -, outcome⟩ := core.resume room small caller
  obtain rfl : t = t' := by
    have same : step P s = some t' := by simpa [step, control] using resume_eq
    exact Option.some.inj (stepped.symm.trans same)
  rw [retired_eq core]
  rcases outcome with ⟨next, queue', goes, -, core', -, counted⟩ | ⟨ends, core', -, counted⟩
  · exact .inl ⟨next, goes, (retired_eq core').trans counted⟩
  · exact .inr ⟨ends, (retired_eq core').trans counted⟩

theorem back_ne_resuming {caller other : Caller} {h : CoroHandle} : caller.back ≠ .resuming h other := by
  cases caller <;> simp [Caller.back]

/-- Every `resume()` returns. -/
theorem resume_returns {h : CoroHandle} {caller : Caller} (inv : Inv P streams s) (positive : 1 ≤ streams)
    (small : streams < 2 ^ 32) (control : s.control = .resuming h caller) : ∃ t, Resume P caller s t := by
  induction height : rank s using WellFoundedLT.induction generalizing s h with
  | ind r ih =>
    obtain ⟨m, stepped, inv', lower, ⟨next, goes, -⟩ | ⟨ends, -⟩⟩ := resuming_step inv positive small control
    · obtain ⟨t, rest⟩ := ih (rank m) (height ▸ lower) inv' goes rfl
      exact ⟨t, .transfer stepped goes rest⟩
    · exact ⟨m, .back stepped ends⟩

/-- However often control is transferred on the way, one `resume()` retires one search. -/
theorem resume_retires {h : CoroHandle} {caller : Caller} (inv : Inv P streams s) (positive : 1 ≤ streams)
    (small : streams < 2 ^ 32) (control : s.control = .resuming h caller) (resume : Resume P caller s t) :
    retired t = retired s + 1 := by
  induction resume generalizing h with
  | @back s t stepped ends =>
    obtain ⟨t', stepped', -, -, outcome⟩ := resuming_step inv positive small control
    obtain rfl : t = t' := Option.some.inj (stepped.symm.trans stepped')
    rcases outcome with ⟨next, goes, -⟩ | ⟨-, counted⟩
    · exact absurd (ends.symm.trans goes) back_ne_resuming
    · exact counted
  | @transfer s m t h' stepped goes rest ih =>
    obtain ⟨m', stepped', inv', -, outcome⟩ := resuming_step inv positive small control
    obtain rfl : m = m' := Option.some.inj (stepped.symm.trans stepped')
    rcases outcome with ⟨next, -, counted⟩ | ⟨ends, -⟩
    · rw [← counted]
      exact ih inv' goes
    · exact absurd (ends.symm.trans goes) back_ne_resuming

/-! ### The end of the run -/

/-- At the check every key has had its search, and the missing ones are those forgotten. -/
theorem checking_counts (inv : Inv P streams s) (control : s.control = .checking) :
    (s.foundCount + s.notFoundCount = P.lookups.length ↔ ¬Overflow P streams) ∧
      ((∀ k, s.frames k = none) ↔ ¬Overflow P streams) := by
  obtain ⟨⟨queue, lost, core, placed⟩, earlier, lookups_eq, created_eq⟩ := inv
  simp only [control, Control.task, Control.active, Control.keys, List.append_nil] at core lookups_eq
  simp only [Placed, control] at placed
  obtain ⟨rfl, forgotten⟩ := placed
  rw [frames_none_iff core, ← forgotten]
  have total := core.total
  rw [← created_eq, ← lookups_eq] at total
  simp only [List.nil_append] at total
  refine ⟨⟨fun complete => List.length_eq_zero_iff.mp (by omega), ?_⟩, Iff.rfl⟩
  rintro rfl
  simpa using total

theorem reaches_checking {q : SchedulerQueue} (P : Program) (a : Allocator.Tcalloc) (heap : Allocator.Heap)
    (streams : Nat) (idle : Idle q) (positive : 1 ≤ streams) (small : streams < 2 ^ 32) :
    ∃ s, Reaches (step P) (start P q a heap streams) s ∧ s.control = .checking := by
  have onward : ∀ s, Inv P streams s ∧ ¬Late s → s.control ≠ .checking →
      ∃ t, step P s = some t ∧ (Inv P streams t ∧ ¬Late t) ∧ rank t < rank s := by
    rintro s ⟨inv, early⟩ unchecked
    obtain ⟨t, stepped, notSkipped, inv', lower⟩ := turns inv positive small fun ends => early (.inr ends)
    exact ⟨t, stepped, ⟨inv', fun late => (notSkipped late).elim unchecked early⟩, lower⟩
  obtain ⟨s, path, -, arrived⟩ := reaches_goal (fun s => s.control = .checking) rank onward
    ⟨start_inv P idle a heap small, by simp [Late, start]⟩
  exact ⟨s, path, arrived⟩

theorem not_overflow_iff : ¬Overflow P streams ↔ streams < 256 ∨ P.lookups.length < 256 := by
  simp only [Overflow, N]
  omega

/-- After the return no search is anywhere any more, and each key has had its own. -/
theorem returned_core (inv : Inv P streams s) (few : streams < N) (finished : s.control = .returned) :
    Core P streams s [] [] [] [] ∧ s.created = P.lookups.length ∧ s.result = s.foundCount := by
  obtain ⟨⟨queue, lost, core, placed⟩, earlier, lookups_eq, created_eq⟩ := inv
  simp only [finished, Control.task, Control.active, Control.keys, List.append_nil] at core lookups_eq
  simp only [Placed, finished] at placed
  obtain ⟨rfl, -, result, -⟩ := placed
  obtain rfl := none_lost core few
  exact ⟨core, by rw [lookups_eq, created_eq], result⟩

theorem returned_progress (inv : Inv P streams s) (few : streams < N) (finished : s.control = .returned) :
    Progress P.v P.lookups P.lookups.length (left P.v s.frames) s.log ∧ ∀ search, left P.v s.frames search = none := by
  obtain ⟨core, created, -⟩ := returned_core inv few finished
  have gone := (frames_none_iff core).mpr rfl
  exact ⟨created ▸ core.progress, fun search => by simp [left, gone search]⟩

/-- With no search anywhere the ring is empty and no stream is taken. -/
theorem at_rest (core : Core P streams s [] [] [] []) : Idle s.scheduler ∧ s.limit = streams :=
  ⟨⟨(core.queued.tryPopFront_none (.inl rfl)).1, core.queued.tail_lt⟩, by simpa using core.throttled⟩

theorem reaches_returned {q : SchedulerQueue} (P : Program) (a : Allocator.Tcalloc) (heap : Allocator.Heap)
    (streams : Nat) (idle : Idle q) (positive : 1 ≤ streams) (small : streams < 2 ^ 32) :
    ∃ final ∈ eval (step P) (start P q a heap streams), Inv P streams final ∧ final.control = .returned := by
  have onward : ∀ s, Inv P streams s → s.control ≠ .returned →
      ∃ t, step P s = some t ∧ Inv P streams t ∧ rank t < rank s := by
    intro s inv going
    obtain ⟨t, stepped, -, inv', lower⟩ := turns inv positive small going
    exact ⟨t, stepped, inv', lower⟩
  obtain ⟨final, path, inv, finished⟩ := reaches_goal (fun s => s.control = .returned) rank onward
    (start_inv P idle a heap small)
  exact ⟨final, mem_eval.mpr ⟨path, by simp [step, finished]⟩, inv, finished⟩

end

/-! ### Results -/

/-- With at most 255 streams `CoroMultiLookup` returns what `testNaive` counts, each
search reads what the naive search for its key reads, and scheduler and throttler are
left as they were found. -/
theorem coroMultiLookup_naive (P : Program) (q : SchedulerQueue) (a : Allocator.Tcalloc)
    (heap : Allocator.Heap) (streams : Nat) (idle : Idle q) (positive : 1 ≤ streams) (few : streams ≤ 255) :
    ∃ final, final ∈ eval (step P) (start P q a heap streams) ∧ final.control = .returned ∧
      testNaive P.v P.lookups = some final.result ∧ Answered P.v P.lookups final.log ∧
      Idle final.scheduler ∧ final.limit = streams := by
  have fewer : streams < N := by simp only [N]; omega
  obtain ⟨final, ends, inv, finished⟩ := reaches_returned P a heap streams idle positive (by omega)
  obtain ⟨core, -, result⟩ := returned_core inv fewer finished
  obtain ⟨progress, nothing⟩ := returned_progress inv fewer finished
  refine ⟨final, ends, finished, ?_, answered_of_idle progress nothing, at_rest core⟩
  rw [testNaive_eq, result, core.found, tally_of_idle progress nothing id]
  rfl

theorem coroMultiLookup_naive_two_keys :
    ∃ final, final ∈ eval (step ⟨#[1, 3, 5], [3, 4], 64, fun _ => ⟨none, 0⟩⟩)
        (start ⟨#[1, 3, 5], [3, 4], 64, fun _ => ⟨none, 0⟩⟩ ⟨7, 7, fun _ => some 9⟩ {}
          ⟨0, fun _ => 0, fun _ => ⟨none, 0⟩⟩ 2) ∧ final.control = .returned ∧
      testNaive #[1, 3, 5] [3, 4] = some final.result ∧ Answered #[1, 3, 5] [3, 4] final.log ∧
      Idle final.scheduler ∧ final.limit = 2 :=
  coroMultiLookup_naive ⟨#[1, 3, 5], [3, 4], 64, fun _ => ⟨none, 0⟩⟩ _ _ _ 2 ⟨rfl, by decide⟩ (by decide)
    (by decide)

/-- The run always comes to its sanity check, and passes it, with no search left in a
frame, exactly when there are fewer than 256 streams or fewer than 256 keys: with more of
both the ring is full when `run` looks at it, or has been written over. -/
theorem no_search_dropped_iff (P : Program) (q : SchedulerQueue) (a : Allocator.Tcalloc)
    (heap : Allocator.Heap) (streams : Nat) (idle : Idle q) (positive : 1 ≤ streams)
    (representable : streams < 2 ^ 31) :
    (∃ s, Reaches (step P) (start P q a heap streams) s ∧ s.control = .checking) ∧
      ∀ s, Reaches (step P) (start P q a heap streams) s → s.control = .checking →
        (s.foundCount + s.notFoundCount = P.lookups.length ↔ streams < 256 ∨ P.lookups.length < 256) ∧
        ((∀ k, s.frames k = none) ↔ streams < 256 ∨ P.lookups.length < 256) := by
  have small : streams < 2 ^ 32 := by omega
  refine ⟨reaches_checking P a heap streams idle positive small, fun s path control => ?_⟩
  simp only [← not_overflow_iff]
  exact checking_counts (reached_inv idle positive small path) control

theorem no_search_dropped_iff_one_key :
    (∃ s, Reaches (step ⟨#[1], [1], 64, fun _ => ⟨none, 0⟩⟩)
        (start ⟨#[1], [1], 64, fun _ => ⟨none, 0⟩⟩ ⟨0, 0, fun _ => none⟩ {} ⟨0, fun _ => 0, fun _ => ⟨none, 0⟩⟩ 300)
        s ∧ s.control = .checking) ∧
      ∀ s, Reaches (step ⟨#[1], [1], 64, fun _ => ⟨none, 0⟩⟩)
        (start ⟨#[1], [1], 64, fun _ => ⟨none, 0⟩⟩ ⟨0, 0, fun _ => none⟩ {} ⟨0, fun _ => 0, fun _ => ⟨none, 0⟩⟩ 300)
        s → s.control = .checking →
        (s.foundCount + s.notFoundCount = 1 ↔ 300 < 256 ∨ 1 < 256) ∧
        ((∀ k, s.frames k = none) ↔ 300 < 256 ∨ 1 < 256) :=
  no_search_dropped_iff ⟨#[1], [1], 64, fun _ => ⟨none, 0⟩⟩ _ _ _ 300 ⟨rfl, by decide⟩ (by decide) (by decide)

/-- With 256 streams and 256 keys nothing is ever resumed: the ring is full when the keys
are spent, and `run` takes it for empty. -/
theorem no_search_dropped_counterexample :
    ¬∀ (P : Program) (q : SchedulerQueue) (a : Allocator.Tcalloc) (heap : Allocator.Heap) (streams : Nat)
        (s : Machine), Idle q → 1 ≤ streams → streams < 2 ^ 31 →
        Reaches (step P) (start P q a heap streams) s → s.control = .checking →
        s.foundCount + s.notFoundCount = P.lookups.length := by
  intro all
  let P : Program := ⟨#[], List.replicate 256 0, 64, fun _ => ⟨none, 0⟩⟩
  let q : SchedulerQueue := { arr := fun _ => none }
  have idle : Idle q := ⟨rfl, by decide⟩
  obtain ⟨s, path, control⟩ := reaches_checking P {} ⟨0, fun _ => 0, fun _ => ⟨none, 0⟩⟩ 256 idle
    (by decide) (by decide)
  have complete := all P q _ _ 256 s idle (by decide) (by decide) path control
  have sound := (checking_counts (reached_inv idle (by decide) (by decide) path) control).1.mp complete
  exact sound ⟨by decide, by rw [List.length_replicate]; decide⟩

/-- What holds between two resumptions: where each unfinished search is, what is left of
the limit, and that the handle resumed next can be resumed and gives back one search. -/
structure Orderly (P : Program) (streams : Nat) (s : Machine) : Prop where
  balance : s.limit + (inFlight s).length = streams
  ring : ((Control.active s.control).map some ++ s.scheduler.contents).Perm ((inFlight s).map some)
  resumable : ∀ h caller, s.control = .resuming h caller →
    ∃ k ∈ inFlight s, ∃ frame, h = some k ∧ s.frames k = some frame ∧ frame.hasOwner = true
  retires : ∀ h caller, s.control = .resuming h caller →
    (∃ t, Resume P caller s t) ∧ ∀ t, Resume P caller s t → retired t = retired s + 1

theorem reached_orderly (P : Program) (q : SchedulerQueue) (a : Allocator.Tcalloc) (heap : Allocator.Heap)
    (streams : Nat) (s : Machine) (idle : Idle q) (positive : 1 ≤ streams) (few : streams ≤ 255)
    (path : Reaches (step P) (start P q a heap streams) s) : Orderly P streams s := by
  have small : streams < 2 ^ 32 := by omega
  have inv := reached_inv idle positive small path
  obtain ⟨⟨queue, lost, core, -⟩, -⟩ := id inv
  obtain rfl := none_lost core (by simp only [N]; omega)
  have places := inFlight_perm core
  rw [List.append_nil] at places
  have throttled := core.throttled
  rw [List.append_nil, places.length_eq] at throttled
  have room : queue.length < N := by
    have sizes := places.length_eq
    simp only [List.length_append] at sizes
    simp only [N]
    omega
  refine ⟨throttled, ?_, fun h caller control => ?_, fun h caller control => ?_⟩
  · rw [core.queued.contents room, ← List.map_append]
    exact places.map some
  · obtain ⟨k, queue, lost, rfl, core, -⟩ := resuming_live inv control
    obtain ⟨frame, present, owner⟩ := (core.live.owned k).mpr (List.mem_cons_self ..)
    exact ⟨k, (mem_inFlight core).mpr ⟨frame, present, owner⟩, frame, rfl, present, owner⟩
  · exact ⟨resume_returns inv positive small control,
      fun t resume => resume_retires inv positive small control resume⟩

/-- The second key of a single stream waits in `spawn` while the first search runs. -/
theorem reached_orderly_in_spawn :
    ∃ s, Reaches (step ⟨#[1], [1, 2], 64, fun _ => ⟨none, 0⟩⟩)
        (start ⟨#[1], [1, 2], 64, fun _ => ⟨none, 0⟩⟩ ⟨5, 5, fun _ => some 3⟩ {}
          ⟨0, fun _ => 0, fun _ => ⟨none, 0⟩⟩ 1) s ∧
      s.control = .resuming (some 0) (.spawn 1 []) ∧
      Orderly ⟨#[1], [1, 2], 64, fun _ => ⟨none, 0⟩⟩ 1 s :=
  ⟨_, .tail (.tail (.tail .refl rfl) rfl) rfl, rfl,
    reached_orderly _ ⟨5, 5, fun _ => some 3⟩ {} ⟨0, fun _ => 0, fun _ => ⟨none, 0⟩⟩ 1 _ ⟨rfl, by decide⟩ (by decide)
      (by decide) (.tail (.tail (.tail .refl rfl) rfl) rfl)⟩

end Await.NanoCoro.CoroResults
