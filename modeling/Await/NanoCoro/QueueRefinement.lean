import Await.General.Transition
import Await.NanoCoro.Scheduler

/-! The `scheduler_queue` against the queue it is meant to be. The ring has no length and
no notion of full: as long as at most 255 handles are queued at a time, its pops cannot be
told from those of a list that handles are appended to at the back and taken from at the
front. -/

namespace Await.NanoCoro.QueueRefinement
open General.Transition Scheduler

/-- A call of the queue. Only handles of coroutines are pushed, never the null handle. -/
inductive Call where
  | pushBack (h : Nat)
  | popFront
  | tryPopFront
  deriving DecidableEq, Repr

/-- The queue as its users think of it, and what its pops have returned. -/
structure Fifo where
  queue : List Nat := []
  returned : List CoroHandle := []
  deriving DecidableEq, Repr

/-- There is nothing that `popFront` could return for an empty queue. -/
def Fifo.call (f : Fifo) : Call → Option Fifo
  | .pushBack h => some { f with queue := f.queue ++ [h] }
  | .popFront =>
    match f.queue with
    | [] => none
    | h :: rest => some ⟨rest, f.returned ++ [some h]⟩
  | .tryPopFront =>
    match f.queue with
    | [] => some { f with returned := f.returned ++ [none] }
    | h :: rest => some ⟨rest, f.returned ++ [some h]⟩

/-- The ring, and what its pops have returned. -/
structure Ring where
  q : SchedulerQueue
  returned : List CoroHandle := []

/-- The ring answers every call: a `popFront` too many returns whatever the slot holds. -/
def Ring.call (r : Ring) : Call → Option Ring
  | .pushBack h => some { r with q := r.q.pushBack (some h) }
  | .popFront => some ⟨r.q.popFront.2, r.returned ++ [r.q.popFront.1]⟩
  | .tryPopFront => some ⟨r.q.tryPopFront.2, r.returned ++ [r.q.tryPopFront.1]⟩

/-- After each call at most 255 handles are queued. -/
def Short : Fifo → List Call → Prop :=
  Meets Fifo.call fun f call => ∀ f', f.call call = some f' → f'.queue.length ≤ N - 1

/-- The ring holds the queue with a slot to spare, and has returned the same handles. -/
structure Refines (f : Fifo) (r : Ring) : Prop where
  queued : Queued r.q f.queue
  short : f.queue.length ≤ N - 1
  returned : r.returned = f.returned

variable {f f' : Fifo} {r : Ring}

theorem call_popFront (called : f.call .popFront = some f') :
    ∃ h rest, f.queue = h :: rest ∧ f' = ⟨rest, f.returned ++ [some h]⟩ := by
  cases front : f.queue with
  | nil => simp [Fifo.call, front] at called
  | cons h rest =>
    simp only [Fifo.call, front, Option.some.injEq] at called
    exact ⟨h, rest, rfl, called.symm⟩

theorem call_tryPopFront (called : f.call .tryPopFront = some f') :
    (f.queue = [] ∧ f' = { f with returned := f.returned ++ [none] }) ∨ f.call .popFront = some f' := by
  cases front : f.queue with
  | nil =>
    simp only [Fifo.call, front, Option.some.injEq] at called
    exact .inl ⟨rfl, called.symm⟩
  | cons h rest =>
    simp only [Fifo.call, front] at called ⊢
    exact .inr called

theorem Refines.pushBack (same : Refines f r) {h : Nat} (room : (f.queue ++ [h]).length ≤ N - 1) :
    Refines { f with queue := f.queue ++ [h] } { r with q := r.q.pushBack (some h) } where
  queued := same.queued.pushBack (Nat.lt_of_le_of_lt same.short (by decide)) h
  short := room
  returned := same.returned

theorem Refines.popFront (same : Refines f r) (called : f.call .popFront = some f') :
    Refines f' ⟨r.q.popFront.2, r.returned ++ [r.q.popFront.1]⟩ := by
  obtain ⟨h, rest, front, rfl⟩ := call_popFront called
  have queued := same.queued
  have short := same.short
  rw [front] at queued short
  obtain ⟨oldest, remaining⟩ := queued.popFront
  refine ⟨remaining, ?_, ?_⟩
  · exact Nat.le_of_succ_le short
  · rw [oldest, same.returned]

/-- With a slot to spare, `head != tail` tells whether there is anything to pop. -/
theorem Refines.tryPopFront (same : Refines f r) :
    r.q.tryPopFront = if f.queue = [] then (none, r.q) else r.q.popFront := by
  have queued := same.queued
  have short := same.short
  cases front : f.queue with
  | nil =>
    rw [front] at queued
    rw [if_pos rfl]
    exact (queued.tryPopFront_none (.inl rfl)).2
  | cons h rest =>
    rw [front] at queued short
    rw [if_neg (List.cons_ne_nil h rest)]
    obtain ⟨popped, -⟩ := queued.tryPopFront (Nat.lt_of_le_of_lt short (by decide))
    obtain ⟨oldest, -⟩ := queued.popFront
    rw [popped, ← oldest]

/-- One call: the ring does what the queue does. -/
theorem Refines.call (same : Refines f r) {call : Call}
    (room : ∀ f', f.call call = some f' → f'.queue.length ≤ N - 1) (called : f.call call = some f') :
    ∃ r', r.call call = some r' ∧ Refines f' r' := by
  have fits := room f' called
  cases call with
  | pushBack h =>
    obtain rfl := Option.some.inj called
    exact ⟨_, rfl, same.pushBack fits⟩
  | popFront => exact ⟨_, rfl, same.popFront called⟩
  | tryPopFront =>
    refine ⟨_, rfl, ?_⟩
    rw [same.tryPopFront]
    rcases call_tryPopFront called with ⟨empty, rfl⟩ | popped
    · rw [if_pos empty]
      exact ⟨same.queued, same.short, congrArg (· ++ [none]) same.returned⟩
    · obtain ⟨h, rest, front, -⟩ := call_popFront popped
      rw [if_neg (front ▸ List.cons_ne_nil h rest)]
      exact same.popFront popped

/-- The null handle is what an empty queue answers, and nothing else. -/
theorem Refines.null_iff (same : Refines f r) : r.q.tryPopFront.1 = none ↔ f.queue = [] := by
  rw [same.tryPopFront]
  cases front : f.queue with
  | nil => simp
  | cons h rest =>
    have queued := same.queued
    rw [front] at queued
    simp [queued.popFront.1]

theorem Refines.run {calls : List Call} (same : Refines f r) (short : Short f calls)
    (path : run Fifo.call f calls = some f') :
    ∃ r', General.Transition.run Ring.call r calls = some r' ∧ Refines f' r' :=
  run_simulates (fun _ _ _ _ same room called => same.call room called) path short same

/-- From any ring with `head == tail`, whatever its slots still hold, calls that the queue
can answer and that keep at most 255 handles in it have the queue's answers. -/
theorem ring_refines_fifo (q : SchedulerQueue) (idle : q.head = q.tail) (inside : q.tail < N)
    (calls : List Call) (f : Fifo) (path : run Fifo.call {} calls = some f) (short : Short {} calls) :
    ∃ r, run Ring.call ⟨q, []⟩ calls = some r ∧ r.returned = f.returned ∧
      (r.q.tryPopFront.1 = none ↔ f.queue = []) ∧ r.q.contents = f.queue.map some ∧
      r.q.head < N ∧ r.q.tail < N := by
  have start : Refines {} ⟨q, []⟩ := ⟨queued_nil idle inside, Nat.zero_le _, rfl⟩
  obtain ⟨r, ran, same⟩ := start.run short path
  refine ⟨r, ran, same.returned, same.null_iff, ?_, same.queued.head_lt, same.queued.tail_lt⟩
  exact same.queued.contents (Nat.lt_of_le_of_lt same.short (by decide))

/-- The indices wrap, and stale handles lie in every slot. -/
theorem ring_refines_fifo_wrap :
    ∃ r, run Ring.call ⟨⟨255, 255, fun _ => some 9⟩, []⟩
        [.tryPopFront, .pushBack 1, .pushBack 2, .popFront, .tryPopFront, .tryPopFront] = some r ∧
      r.returned = [none, some 1, some 2, none] ∧
      (r.q.tryPopFront.1 = none ↔ ([] : List Nat) = []) ∧ r.q.contents = [] ∧
      r.q.head < N ∧ r.q.tail < N :=
  ring_refines_fifo ⟨255, 255, fun _ => some 9⟩ rfl (by decide) _ ⟨[], [none, some 1, some 2, none]⟩ rfl
    (by simp [Short, Meets, Fifo.call, N])

end Await.NanoCoro.QueueRefinement
