import Await.General.Callback
import Mathlib.Data.Fin.Basic

/-! `PAL.h` and `PAL.cpp`: what the sockets make of the system's answers, the threads of the
pool, and the tracker that stops it. `ERROR_IO_PENDING` is used for an operation that is *not* pending: a
pending one is reported as success. -/

namespace Await.SuperLean.Pal
open General.Callback

/-- The value of a `std::error_code` of the system category; 0 is no error. -/
abbrev ErrorCode := Nat

def readerSize : Nat := 4 * 1024

def writerSize : Nat := 4 * 1024

def kConnectionReset : ErrorCode := 10054

def kSynchCompletion : ErrorCode := 997

/-- `ERROR_IO_PENDING`. -/
def errorIoPending : ErrorCode := 997

/-- What `WSARecv`, `WSASend` or `ConnectEx` comes back with: done, with the number of bytes
transferred, or `SOCKET_ERROR` with a last error. -/
inductive WsaResult where
  | done (nBytes : Nat)
  | socketError (lastError : ErrorCode) (nonzero : lastError ≠ 0)
  deriving DecidableEq

def WsaResult.pending : WsaResult := .socketError errorIoPending (by decide)

def WsaResult.nBytes : WsaResult → Nat
  | .done nBytes => nBytes
  | .socketError .. => 0

/-- The status of a transfer; `syncCompletion` is set when the handles skip the completion
port on success. -/
def OsTcpSocket.status (syncCompletion : Bool) : WsaResult → ErrorCode
  | .socketError status _ => if status = errorIoPending then 0 else status
  | .done _ => if syncCompletion then errorIoPending else 0

def OsTcpSocket.receive (syncCompletion : Bool) : WsaResult → ErrorCode := OsTcpSocket.status syncCompletion

def OsTcpSocket.send (syncCompletion : Bool) : WsaResult → ErrorCode := OsTcpSocket.status syncCompletion

/-- Anything but a pending connect ends the program (`panic_if`). -/
def OsTcpSocket.connect : WsaResult → Option ErrorCode
  | .socketError status _ => if status = errorIoPending then some status else none
  | .done _ => none

/-- The ways out of `Connection::Read` and `Connection::Write`: true, a call of
`o->Invoke(error, 0)`, or false with the operation in flight. The byte count of an
operation that is done at once stays behind in the socket. -/
def Connection.finish (error : ErrorCode) (result : WsaResult) : Outcome :=
  if error = kSynchCompletion then .now result.nBytes
  else if error ≠ 0 then .failed error
  else .later

def Connection.read (syncCompletion : Bool) (result : WsaResult) : Outcome :=
  Connection.finish (OsTcpSocket.receive syncCompletion result) result

def Connection.write (syncCompletion : Bool) (result : WsaResult) : Outcome :=
  Connection.finish (OsTcpSocket.send syncCompletion result) result

/-- The value of an `int`, unless it overflows. -/
def int (n : Int) : Option Int := if -2147483648 ≤ n ∧ n ≤ 2147483647 then some n else none

/-- The threads are known by their numbers. -/
structure CompletionQueue where
  threadCount : Int
  count : Int
  t : Fin 64 → Option Nat := fun _ => none

/-- `t[i] = CreateThread(...)`. Past the end of `t` there is `iocp`. -/
def CompletionQueue.createThread (queue : CompletionQueue) (i : Nat) : Option CompletionQueue :=
  if inside : i < 64 then some { queue with t := Function.update queue.t ⟨i, inside⟩ (some i) } else none

/-- `for (int i = 0; i < threadCount; ++i)` -/
def CompletionQueue.create (threadCount : Int) : Option CompletionQueue :=
  (List.range threadCount.toNat).foldlM CompletionQueue.createThread { threadCount, count := threadCount }

/-- `ThreadPool q(nReaders * 2 + 8, sync);` -/
def ThreadPool.create (nReaders : Int) : Option CompletionQueue := do
  let twice ← int (nReaders * 2)
  let threadCount ← int (twice + 8)
  CompletionQueue.create threadCount

/-- What the readers and writers ask of the rest of the program. -/
inductive Call where
  | connect
  | receive (len : Nat)
  | send (len : Nat)
  | post (nBytes : Nat)
  | completed
  | failed (ec : ErrorCode)
  deriving DecidableEq, Repr

/-- How the system answers each socket operation. -/
def respond (syncCompletion : Bool) : Call → WsaResult → Option Outcome
  | .connect, result => (OsTcpSocket.connect result).map fun _ => .later
  | .receive _, result => some (Connection.read syncCompletion result)
  | .send _, result => some (Connection.write syncCompletion result)
  | _, _ => none

/-- `ThreadPool::Stop` is counted. -/
structure WorkTracker where
  workCount : Int
  stops : Nat := 0
  deriving DecidableEq, Repr

/-- `if (--workCount == 0) ThreadPool::Stop();` -/
def WorkTracker.releaseWork (tracker : WorkTracker) : WorkTracker :=
  let workCount := tracker.workCount - 1
  { workCount, stops := if workCount = 0 then tracker.stops + 1 else tracker.stops }

def WorkTracker.completed (tracker : WorkTracker) : WorkTracker := tracker.releaseWork

def WorkTracker.failed (_ec : ErrorCode) (tracker : WorkTracker) : WorkTracker := tracker.releaseWork

section
variable {sync : Bool} {result : WsaResult} {call : Call} {code bytes : Nat}

theorem finish_failed {error : ErrorCode} (failed : Connection.finish error result = .failed code) :
    code = error ∧ code ≠ 0 := by
  unfold Connection.finish at failed
  split at failed
  · cases failed
  · split at failed
    · next nonzero =>
      cases failed
      exact ⟨rfl, nonzero⟩
    · cases failed

theorem respond_failed (responded : respond sync call result = some (.failed code)) : code ≠ 0 := by
  cases call with
  | connect => simp [respond] at responded
  | receive len => exact (finish_failed (Option.some.inj responded)).2
  | send len => exact (finish_failed (Option.some.inj responded)).2
  | post nBytes => cases responded
  | completed => cases responded
  | failed ec => cases responded

theorem respond_connect (outcome : Outcome) (responded : respond sync .connect result = some outcome) :
    outcome = .later := by
  simp only [respond, Option.map_eq_some_iff] at responded
  obtain ⟨-, -, rfl⟩ := responded
  rfl

end

section
variable {queue : CompletionQueue} {nReaders threadCount : Int}

/-- The loop fills one place after the other, as long as there is one. -/
theorem createThreads (n : Nat) :
    (List.range n).foldlM CompletionQueue.createThread queue =
      if n ≤ 64 then some { queue with t := fun place => if place < n then some place.val else queue.t place }
      else none := by
  induction n with
  | zero => simp
  | succ n ih =>
    rw [List.range_succ, List.foldlM_append, ih]
    by_cases inside : n < 64
    · have before : n ≤ 64 := inside.le
      have room : n + 1 ≤ 64 := inside
      simp only [before, room, if_true, List.foldlM_cons, List.foldlM_nil, CompletionQueue.createThread, inside,
        dite_true, Option.bind_eq_bind, Option.bind_some, bind_pure, Option.some.injEq, CompletionQueue.mk.injEq,
        true_and]
      funext place
      by_cases last : place = ⟨n, inside⟩
      · subst last
        simp
      · have other : place.val ≠ n := fun same => last (Fin.ext same)
        rw [Function.update_of_ne last]
        refine if_congr ?_ rfl rfl
        omega
    · have full : ¬n + 1 ≤ 64 := by omega
      rw [if_neg full]
      split <;> simp [CompletionQueue.createThread, inside]

theorem create_eq : CompletionQueue.create threadCount =
    if threadCount ≤ 64 then some { threadCount, count := threadCount, t := fun place =>
      if place < threadCount.toNat then some place.val else none }
    else none := by
  rw [CompletionQueue.create, createThreads]
  exact if_congr (by omega) rfl rfl

/-- There is a pool for 28 readers at the most. -/
theorem pool_isSome : (ThreadPool.create nReaders).isSome ↔ -1073741824 ≤ nReaders ∧ nReaders ≤ 28 := by
  simp only [ThreadPool.create, int, create_eq, Option.isSome_iff_exists, Option.bind_eq_bind, Option.bind_eq_some_iff,
    Option.ite_none_right_eq_some]
  constructor
  · rintro ⟨queue, twice, ⟨low, same⟩, threadCount, ⟨-, same'⟩, few, -⟩
    injection same
    injection same'
    omega
  · rintro ⟨low, few⟩
    exact ⟨_, _, ⟨by omega, rfl⟩, _, ⟨by omega, rfl⟩, by omega, rfl⟩

/-- And it has a thread unless there are too few. -/
theorem pool_manned (created : ThreadPool.create nReaders = some queue) : queue.t 0 = some 0 ↔ -4 < nReaders := by
  simp only [ThreadPool.create, int, create_eq, Option.bind_eq_bind, Option.bind_eq_some_iff,
    Option.ite_none_right_eq_some] at created
  obtain ⟨twice, ⟨-, same⟩, threadCount, ⟨-, same'⟩, -, made⟩ := created
  have slots : queue.t 0 = some 0 ↔ 0 < threadCount.toNat := by
    rw [← Option.some.inj made]
    simp
  rw [slots]
  injection same
  injection same'
  omega

end

end Await.SuperLean.Pal
