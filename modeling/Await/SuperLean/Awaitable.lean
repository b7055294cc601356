import Await.SuperLean.Pal

/-! `Awaitable.cpp`: the coroutine `TcpReader` and the awaiters it suspends in. An awaiter is
its own completion handler and lives in the coroutine frame. -/

namespace Await.SuperLean.Awaitable
open General.Callback Pal

/-- The awaiters of `Tcp::Connect` and of `Connection::Read`. -/
inductive Awaiter where
  | connect | read
  deriving DecidableEq, Repr

/-- The points of the coroutine: where it starts, where `io_complete_callback` comes in, the
`await_resume` of each awaiter, and the loop. -/
inductive Point where
  | start
  | ioComplete (awaiter : Awaiter) (error : ErrorCode) (byteTransferred : Nat)
  | connectResume
  | loop
  | readResume
  | received (bytes : Nat)
  | finish
  | panicked
  deriving DecidableEq, Repr

structure AwaiterBase where
  err : ErrorCode
  bytes : Nat
  deriving DecidableEq, Repr

structure ReadAwaiter extends AwaiterBase where
  len : Nat
  deriving DecidableEq, Repr

/-- The frame of the coroutine: its parameter and its awaiters. -/
structure TcpReader where
  total : Int
  connect : AwaiterBase
  read : ReadAwaiter
  deriving DecidableEq, Repr

abbrev ReaderMove := Move TcpReader Point Awaiter Call

/-- `co_await Tcp::Connect("127.0.0.1", 13)`. Its `await_suspend` always suspends. -/
def TcpReader.start (r : TcpReader) : ReaderMove := .start r .connect .connect .start none

/-- `me->err = ...; me->bytes = ...; me->resume();` -/
def ioCompleteCallback (awaiter : Awaiter) (error : ErrorCode) (byteTransferred : Nat) (r : TcpReader) :
    ReaderMove :=
  match awaiter with
  | .connect => .goto { r with connect := { err := error, bytes := byteTransferred } } [] .connectResume
  | .read => .goto { r with read := { r.read with err := error, bytes := byteTransferred } } [] .readResume

/-- `panic_if(!!this->err, "Connect failed");` ends the program, and the coroutine goes on
no more. -/
def TcpReader.connectResume (r : TcpReader) : ReaderMove :=
  if r.connect.err ≠ 0 then .goto r [] .panicked else .goto r [] .loop

/-- `while (total > 0) { ... co_await conn.Read(buf, sizeof(buf));` -/
def TcpReader.loop (r : TcpReader) : ReaderMove :=
  if r.total > 0 then
    let len := readerSize
    .start { r with read := { r.read with len } } (.receive len) .read .readResume none
  else .goto r [] .finish

/-- `int await_resume() { return len; }` -/
def TcpReader.readResume (r : TcpReader) : ReaderMove := .goto r [] (.received r.read.len)

/-- `if (bytes == 0) break; total -= bytes;` -/
def TcpReader.received (bytes : Nat) (r : TcpReader) : ReaderMove :=
  if bytes = 0 then .goto r [] .finish else .goto { r with total := r.total - bytes } [] .loop

/-- The frame is destroyed at the end, as `final_suspend` does not suspend. -/
def exec : Point → TcpReader → ReaderMove
  | .start => TcpReader.start
  | .ioComplete awaiter error byteTransferred => ioCompleteCallback awaiter error byteTransferred
  | .connectResume => TcpReader.connectResume
  | .loop => TcpReader.loop
  | .readResume => TcpReader.readResume
  | .received bytes => TcpReader.received bytes
  | .finish => fun _ => .delete
  | .panicked => fun r => .goto r [] .panicked

/-- `await_suspend` of `Connection::Read`: false when the receive is done at once, true when
it is pending. A refused one ends the program (`panic_if`). -/
def ReadAwaiter.suspend (error : ErrorCode) (result : WsaResult) : Option Outcome :=
  if error = kSynchCompletion then some (.now result.nBytes)
  else if error ≠ 0 then none
  else some .later

def respond (syncCompletion : Bool) : Call → WsaResult → Option Outcome
  | .connect, result => (OsTcpSocket.connect result).map fun _ => .later
  | .receive _, result => ReadAwaiter.suspend (OsTcpSocket.receive syncCompletion result) result
  | _, _ => none

def code (sync : Bool) : Code TcpReader Point Awaiter WsaResult Call where
  exec := exec
  entry := .ioComplete
  respond := respond sync

abbrev ReaderState := State TcpReader Point Awaiter Unit Call

/-- The awaiters are the handlers, one at a time, and all of them are in the frame. -/
def awaiters : Supply Awaiter Awaiter Unit := reuse fun _ => true

/-- `awaitable::TcpReader` on its way. -/
def awaitableReader (sync : Bool) : ReaderState → Choice WsaResult → Option ReaderState :=
  step (code sync) awaiters

def awaitableStart (total : Int) : ReaderState :=
  State.launch { total, connect := { err := 0, bytes := 0 }, read := { err := 0, bytes := 0, len := 0 } } () .start

section
variable {r r' : TcpReader} {point next : Point} {call : Call} {calls : List Call} {kind : Awaiter}

/-- All the ways in which the coroutine goes on by itself. -/
theorem exec_goto (move : exec point r = .goto r' calls next) :
    calls = [] ∧
    ((∃ error bytes, point = .ioComplete .connect error bytes ∧ r'.total = r.total ∧ r'.connect.err = error ∧
        next = .connectResume) ∨
      (∃ error bytes, point = .ioComplete .read error bytes ∧ r'.total = r.total ∧ r'.read.len = r.read.len ∧
        next = .readResume) ∨
      (point = .connectResume ∧ r' = r ∧ (r.connect.err ≠ 0 ∧ next = .panicked ∨ r.connect.err = 0 ∧ next = .loop)) ∨
      (point = .loop ∧ r' = r ∧ r.total ≤ 0 ∧ next = .finish) ∨
      (point = .readResume ∧ r' = r ∧ next = .received r.read.len) ∨
      (∃ bytes, point = .received bytes ∧
        (bytes = 0 ∧ r' = r ∧ next = .finish ∨ r'.total = r.total - bytes ∧ next = .loop)) ∨
      point = .panicked ∧ next = .panicked) := by
  cases point with
  | start => simp [exec, TcpReader.start] at move
  | finish => simp [exec] at move
  | ioComplete awaiter error bytes =>
    cases awaiter <;> simp [exec, ioCompleteCallback] at move <;> obtain ⟨rfl, rfl, rfl⟩ := move <;> simp
  | connectResume =>
    by_cases success : r.connect.err = 0 <;> simp [exec, TcpReader.connectResume, success] at move <;>
      obtain ⟨rfl, rfl, rfl⟩ := move <;> simp [success]
  | loop =>
    by_cases more : r.total > 0
    · simp [exec, TcpReader.loop, more] at move
    · simp only [exec, TcpReader.loop, if_neg more, Move.goto.injEq] at move
      obtain ⟨rfl, rfl, rfl⟩ := move
      simpa using more
  | readResume =>
    simp only [exec, TcpReader.readResume, Move.goto.injEq] at move
    obtain ⟨rfl, rfl, rfl⟩ := move
    simp
  | received bytes =>
    by_cases zero : bytes = 0 <;> simp [exec, TcpReader.received, zero] at move <;>
      obtain ⟨rfl, rfl, rfl⟩ := move <;> simp [zero]
  | panicked =>
    simp only [exec, Move.goto.injEq] at move
    simp [← move.2.1, ← move.2.2]

/-- All the operations the coroutine starts. -/
theorem exec_start {otherwise : Option Point} (move : exec point r = .start r' call kind next otherwise) :
    otherwise = none ∧ ((point = .start ∧ r' = r ∧ call = .connect ∧ kind = .connect) ∨
      point = .loop ∧ 0 < r.total ∧ r'.total = r.total ∧ r'.read.len = readerSize ∧ call = .receive readerSize ∧
        kind = .read) := by
  cases point with
  | start =>
    simp only [exec, TcpReader.start, Move.start.injEq] at move
    obtain ⟨rfl, rfl, rfl, -, rfl⟩ := move
    simp
  | loop =>
    by_cases more : r.total > 0
    · simp only [exec, TcpReader.loop, if_pos more, Move.start.injEq] at move
      obtain ⟨rfl, rfl, rfl, -, rfl⟩ := move
      exact ⟨rfl, .inr ⟨rfl, more, rfl, rfl, rfl, rfl⟩⟩
    · simp [exec, TcpReader.loop, more] at move
  | ioComplete awaiter error bytes => cases awaiter <;> simp [exec, ioCompleteCallback] at move
  | connectResume => by_cases success : r.connect.err = 0 <;> simp [exec, TcpReader.connectResume, success] at move
  | readResume => simp [exec, TcpReader.readResume] at move
  | received bytes => by_cases zero : bytes = 0 <;> simp [exec, TcpReader.received, zero] at move
  | finish => simp [exec] at move
  | panicked => simp [exec] at move

theorem code_leaves (sync : Bool) : (code sync).Leaves :=
  fun _ _ _ _ _ _ _ move => (exec_start move).1

/-- The coroutine posts no packet, and leaves only when it has finished. -/
theorem exec_rest (point : Point) (r : TcpReader) :
    (∀ r' call kind bytes, exec point r ≠ .post r' call kind bytes) ∧
      (∀ r', exec point r ≠ .leave r') ∧ (exec point r = .delete → point = .finish) := by
  cases point with
  | ioComplete awaiter error bytes => cases awaiter <;> simp [exec, ioCompleteCallback]
  | connectResume => by_cases success : r.connect.err = 0 <;> simp [exec, TcpReader.connectResume, success]
  | loop => by_cases more : r.total > 0 <;> simp [exec, TcpReader.loop, more]
  | received bytes => by_cases zero : bytes = 0 <;> simp [exec, TcpReader.received, zero]
  | _ => simp [exec, TcpReader.start, TcpReader.readResume]

end

end Await.SuperLean.Awaitable
