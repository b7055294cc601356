import Await.NanoCoro.Allocator
import Await.NanoCoro.CoroSearch
import Await.NanoCoro.Scheduler

/-! `CoroMultiLookup` of `coro.h` with the throttler, the scheduler, the promise and the
allocator of `coro_infra.h`. The call is a machine whose steps end where a coroutine is
resumed, suspends or finishes, so that every resumption is one step of it. -/

namespace Await.NanoCoro.CoroMultiLookup
open General.TaskPool Allocator CoroSearch Scheduler

/-- What a call is given, with the frame size the compiler has chosen and the header that
the first bytes of a frame would spell. -/
structure Program where
  v : Array Int
  lookups : List Int
  frameSize : Nat
  image : SearchFrame → Header

/-- `scheduler.run()` is called by `t.run()` and again by the destructor of `t`. -/
inductive RunCall where
  | explicit | destructor
  deriving DecidableEq, Repr

/-- Who called `resume()`: `spawn` with its task before it is queued, or `run`. -/
inductive Caller where
  | spawn (task : Nat) (keys : List Int)
  | run (call : RunCall)
  deriving DecidableEq, Repr

inductive Control where
  | forKeys (keys : List Int)
  | spawning (task : Nat) (keys : List Int)
  | resuming (h : CoroHandle) (caller : Caller)
  | running (call : RunCall)
  | checking
  | returned
  deriving DecidableEq, Repr

/-- Where `resume()` returns to. -/
def Caller.back : Caller → Control
  | .spawn task keys => .spawning task keys
  | .run call => .running call

/-- The globals `scheduler` and `allocator`, the locals of `CoroMultiLookup`, the live
frames under the numbers of their searches, and a record of the run: the searches
created so far, what each of them did, and the order in which they were resumed. -/
structure Machine where
  scheduler : SchedulerQueue
  t : Tcalloc
  heap : Heap
  limit : Nat
  foundCount : Nat := 0
  notFoundCount : Nat := 0
  bug : Bool := false
  result : Nat := 0
  frames : Nat → Option SearchFrame := fun _ => none
  created : Nat := 0
  log : List (Event Nat Bool) := []
  resumed : List Nat := []
  control : Control

/-- `--limit` and `++limit` on an `unsigned`. -/
def decrement (limit : Nat) : Nat := (limit + (2 ^ 32 - 1)) % 2 ^ 32

def increment (limit : Nat) : Nat := (limit + 1) % 2 ^ 32

section
variable (P : Program)

/-- A frame in memory: the coroutine owns its block and writes all over it. -/
def Machine.store (search : Nat) (frame : SearchFrame) (s : Machine) : Machine :=
  { s with
    frames := Function.update s.frames search (some frame)
    heap := s.heap.write frame.address (P.image frame) }

/-- `CoroBinarySearch(v.begin(), v.end(), key, ...)` up to its initial suspension. -/
def Machine.create (key : Int) (s : Machine) : Machine :=
  let (address, t, heap) := s.t.alloc P.frameSize s.heap
  let frame : SearchFrame := { first := 0, last := P.v.size, val := key, address }
  { Machine.store P s.created frame { s with t, heap } with
    created := s.created + 1
    log := s.log ++ [.load s.created] }

/-- `if (limit == 0) scheduler.pop_front().resume();` up to that resumption. -/
def Machine.throttle (task : Nat) (keys : List Int) (s : Machine) : Machine :=
  if s.limit = 0 then
    let (h, scheduler) := s.scheduler.popFront
    { s with scheduler, control := .resuming h (.spawn task keys) }
  else { s with control := .spawning task keys }

/-- `auto h = t.set_owner(this); scheduler.push_back(h); --limit;` -/
def Machine.enqueue (task : Nat) (s : Machine) : Option Machine := do
  let frame ← s.frames task
  let s := s.store P task { frame with hasOwner := true }
  some { s with scheduler := s.scheduler.pushBack (some task), limit := decrement s.limit }

/-- `q.push_back(h); return q.pop_front();`: control goes on to the handle popped. -/
def Machine.suspend (h : Nat) (frame : SearchFrame) (caller : Caller) (s : Machine) : Machine :=
  let (next, scheduler) := (s.scheduler.pushBack (some h)).popFront
  { s.store P h frame with scheduler, control := .resuming next caller }

/-- The callback, `return_void()` with its call through `owner`, and the end of the frame
after `final_suspend`. -/
def Machine.finish (h : Nat) (frame : SearchFrame) (found : Bool) (caller : Caller) (s : Machine) :
    Option Machine :=
  if frame.hasOwner then
    let (t, heap) := s.t.free frame.address P.frameSize s.heap
    some { s with
      foundCount := if found then s.foundCount + 1 else s.foundCount
      notFoundCount := if found then s.notFoundCount else s.notFoundCount + 1
      limit := increment s.limit
      t, heap
      frames := Function.update s.frames h none
      log := s.log ++ [.retire h found]
      control := caller.back }
  else none

/-- One activation of the search `h`. -/
def Machine.resume (h : Nat) (caller : Caller) (s : Machine) : Option Machine := do
  let frame ← s.frames h
  let (reads, activation) ← frame.resume P.v
  let s := { s with resumed := s.resumed ++ [h], log := s.log ++ reads.map (Event.step h) }
  match activation with
  | .suspended next => some (s.suspend P h next caller)
  | .onFound _ => s.finish P h frame true caller
  | .onNotFound => s.finish P h frame false caller

/-- No step is defined on a null handle, on a handle whose frame is gone, or on a search
that finishes without an owner. -/
def step (s : Machine) : Option Machine :=
  match s.control with
  | .forKeys (key :: keys) => some ((s.create P key).throttle s.created keys)
  | .forKeys [] => some { s with control := .running .explicit }
  | .spawning task keys => do
      let s ← s.enqueue P task
      some { s with control := .forKeys keys }
  | .resuming h caller => do s.resume P (← h) caller
  | .running call =>
      let (h, scheduler) := s.scheduler.tryPopFront
      match h with
      | some h => some { s with scheduler, control := .resuming (some h) (.run call) }
      | none => some { s with scheduler, control := if call = .explicit then .checking else .returned }
  | .checking =>
      some { s with
        bug := decide (s.foundCount + s.notFoundCount ≠ P.lookups.length)
        result := s.foundCount
        control := .running .destructor }
  | .returned => none

/-- The call at its first key. `throttler t(streams)` converts to `unsigned`. -/
def start (scheduler : SchedulerQueue) (t : Tcalloc) (heap : Heap) (streams : Nat) : Machine where
  scheduler := scheduler
  t := t
  heap := heap
  limit := streams % 2 ^ 32
  control := .forKeys P.lookups

end

theorem decrement_eq {limit : Nat} (positive : 0 < limit) (small : limit < 2 ^ 32) :
    decrement limit = limit - 1 := by
  unfold decrement
  omega

theorem increment_eq {limit : Nat} (small : limit + 1 < 2 ^ 32) : increment limit = limit + 1 :=
  Nat.mod_eq_of_lt small

end Await.NanoCoro.CoroMultiLookup
