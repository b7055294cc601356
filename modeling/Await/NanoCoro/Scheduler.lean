import Await.General.RingBuffer

/-! `scheduler_queue` of `coro_infra.h`: a ring of 256 coroutine handles that never
checks for a full or an empty ring, and the queue of handles it stands for. -/

namespace Await.NanoCoro.Scheduler
open General.RingBuffer

/-- `coroutine_handle<>`. The program only tests a handle for null and resumes it, so a
handle is the number of its coroutine in order of creation, and numbers are not reused:
a stale handle can be told from every live one. -/
abbrev CoroHandle := Option Nat

/-- `static constexpr const int N = 256;` -/
def N : Nat := 256

structure SchedulerQueue where
  head : Nat := 0
  tail : Nat := 0
  arr : Nat → CoroHandle

def SchedulerQueue.pushBack (h : CoroHandle) (q : SchedulerQueue) : SchedulerQueue :=
  { q with arr := Function.update q.arr q.head h, head := (q.head + 1) % N }

def SchedulerQueue.popFront (q : SchedulerQueue) : CoroHandle × SchedulerQueue :=
  (q.arr q.tail, { q with tail := (q.tail + 1) % N })

def SchedulerQueue.tryPopFront (q : SchedulerQueue) : CoroHandle × SchedulerQueue :=
  if q.head ≠ q.tail then q.popFront else (none, q)

/-- The slots from `tail` up to `head`, oldest first. -/
def SchedulerQueue.contents (q : SchedulerQueue) : List CoroHandle :=
  (List.range ((q.head + N - q.tail) % N)).map fun i => q.arr ((q.tail + i) % N)

variable {q : SchedulerQueue} {queue : List Nat} {h : Nat}

/-- The ring holds the handles `queue`, the next to be popped first. -/
def Queued (q : SchedulerQueue) (queue : List Nat) : Prop :=
  Holds N q.arr q.head q.tail (queue.map some)

theorem Queued.fits (queued : Queued q queue) : queue.length ≤ N := by
  simpa using Holds.fits queued

theorem queued_nil (idle : q.head = q.tail) (inside : q.tail < N) : Queued q [] := by
  unfold Queued
  rw [idle]
  exact holds_nil N q.arr q.tail inside

theorem Queued.pushBack (queued : Queued q queue) (room : queue.length < N) (h : Nat) :
    Queued (q.pushBack (some h)) (queue ++ [h]) := by
  have pushed := Holds.push queued (by simpa using room) (some h)
  simpa [Queued, SchedulerQueue.pushBack] using pushed

/-- One handle too many: the ring forgets all the older ones. -/
theorem Queued.pushBack_full (queued : Queued q queue) (full : queue.length = N) (h : Nat) :
    Queued (q.pushBack (some h)) [h] := by
  have pushed := Holds.push_full queued (by simpa using full) (by decide) (some h)
  simpa [Queued, SchedulerQueue.pushBack] using pushed

theorem Queued.popFront (queued : Queued q (h :: queue)) :
    q.popFront.1 = some h ∧ Queued q.popFront.2 queue :=
  Holds.pop queued

theorem Queued.tryPopFront (queued : Queued q (h :: queue)) (room : (h :: queue).length < N) :
    q.tryPopFront = (some h, q.popFront.2) ∧ Queued q.popFront.2 queue := by
  have apart : q.head ≠ q.tail := fun same =>
    absurd ((Holds.index_eq_iff queued (by simpa using room)).mp same) (by simp)
  obtain ⟨oldest, rest⟩ := queued.popFront
  exact ⟨by rw [SchedulerQueue.tryPopFront, if_pos apart, ← oldest], rest⟩

/-- Nothing is popped from an empty ring, nor from a full one. -/
theorem Queued.tryPopFront_none (queued : Queued q queue) (blind : queue = [] ∨ queue.length = N) :
    q.head = q.tail ∧ q.tryPopFront = (none, q) := by
  have same : q.head = q.tail := by
    rcases blind with rfl | full
    · exact (Holds.index_eq_iff queued (by decide)).mpr rfl
    · exact Holds.index_eq_of_full queued (by simpa using full)
  exact ⟨same, by simp [SchedulerQueue.tryPopFront, same]⟩

theorem Queued.tail_lt (queued : Queued q queue) : q.tail < N :=
  Holds.tail_lt queued

theorem Queued.head_lt (queued : Queued q queue) : q.head < N := by
  rw [Holds.head_eq queued]
  exact Nat.mod_lt _ (by decide)

theorem Queued.contents (queued : Queued q queue) (room : queue.length < N) :
    q.contents = queue.map some := by
  have count : (q.head + N - q.tail) % N = queue.length := by
    have head := Holds.head_eq queued
    have tail := queued.tail_lt
    simp only [List.length_map] at head
    simp only [N] at *
    omega
  apply List.ext_getElem
  · simp [SchedulerQueue.contents, count]
  · intro i _ inside
    simpa [SchedulerQueue.contents] using Holds.cell queued i inside

end Await.NanoCoro.Scheduler
