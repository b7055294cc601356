import Await.General.Coroutine
import Await.Live.MyServer

/-! The coroutines of `hard1.cpp` and `hard2.cpp` with `await_adapters.h` and
`future_adapter.h`: `session`, which both files have, and `server` of `hard2.cpp`. An
error code becomes an exception in `await_resume`. -/

namespace Await.Live.CoroServer
open General.Coroutine General.Process MyServer

/-- `std::system_error`. -/
structure SystemError where
  code : ErrorCode
  deriving DecidableEq, Repr

/-- What the handlers of `async_read_some` and `async_write` leave for `await_resume`. -/
structure Awaiter where
  ec : ErrorCode := 0
  n : Nat := 0
  deriving DecidableEq, Repr

/-- `if (ec) throw std::system_error(ec); return n;` -/
def Awaiter.awaitResume (awaiter : Awaiter) : Except SystemError Nat :=
  if awaiter.ec ≠ 0 then .error ⟨awaiter.ec⟩ else .ok awaiter.n

/-- The handler's assignments in `hard1.cpp`: `this->ec = ec; this->n = n;`. -/
def Awaiter.completeHard1 (ec : ErrorCode) (n : Nat) (awaiter : Awaiter) : Awaiter :=
  let awaiter := { awaiter with ec }
  { awaiter with n }

/-- The handler's assignments in `await_adapters.h`: `this->n = n; this->ec = ec;`. -/
def Awaiter.completeHard2 (ec : ErrorCode) (n : Nat) (awaiter : Awaiter) : Awaiter :=
  let awaiter := { awaiter with n }
  { awaiter with ec }

/-- Which `co_await` of the loop a session is suspended at. -/
inductive Point where
  | reading | writing
  deriving DecidableEq, Repr

/-- The frame of `session`: the locals `buf` and `n`, and the awaiter of the `co_await`
that the coroutine is suspended at. -/
structure SessionFrame (blockSize : Nat) where
  buf : Vector UInt8 blockSize := Vector.replicate blockSize 0
  n : Nat := 0
  point : Point := .reading
  awaiter : Awaiter := {}

variable {blockSize : Nat}

abbrev SessionLeg (blockSize : Nat) := Leg (SessionFrame blockSize) Operation SystemError Empty

/-- `co_await async_read_some(s, buffer(buf.data(), block_size))`, up to its suspension. -/
def SessionFrame.asyncReadSome (frame : SessionFrame blockSize) : SessionLeg blockSize :=
  .await { frame with point := .reading, awaiter := {} } [] (.asyncReadSome blockSize)

/-- `co_await async_write(s, buffer(buf.data(), n))`, up to its suspension. -/
def SessionFrame.asyncWrite (frame : SessionFrame blockSize) : SessionLeg blockSize :=
  .await { frame with point := .writing, awaiter := {} } [] (.asyncWrite (frame.buf.toList.take frame.n))

/-- `coro.resume()`: from `await_resume` to the next `co_await`, or out of the body. -/
def SessionFrame.resume (frame : SessionFrame blockSize) : SessionLeg blockSize :=
  match frame.awaiter.awaitResume with
  | .error exception => .thrown [] exception
  | .ok n =>
    let frame := { frame with n }
    match frame.point with
    | .reading => frame.asyncWrite
    | .writing => frame.asyncReadSome

/-- The handler of the operation awaited. A successful write reports the length of its
buffer. -/
def SessionFrame.complete (assign : ErrorCode → Nat → Awaiter → Awaiter) (frame : SessionFrame blockSize) :
    Operation → Result blockSize → SessionLeg blockSize
  | _, .readDone ec contents length =>
      { frame with buf := contents, awaiter := assign ec length frame.awaiter }.resume
  | .asyncWrite bytes, .writeDone ec => { frame with awaiter := assign ec bytes.length frame.awaiter }.resume
  | .asyncReadSome _, .writeDone ec => { frame with awaiter := assign ec 0 frame.awaiter }.resume

/-- `session` with the handlers' assignments and the statements before the loop. -/
def sessionBody (assign : ErrorCode → Nat → Awaiter → Awaiter) (begin : SessionLeg blockSize) :
    Body (SessionFrame blockSize) Operation (Result blockSize) SystemError Empty where
  begin := begin
  resume frame operation result :=
    if result.fits operation then some (frame.complete assign operation result) else none

/-- `vector<char> buf(block_size); s.set_option(ip::tcp::no_delay(true));`, and the loop. -/
def beginHard1 (setOptionErr : ErrorCode) : SessionLeg blockSize :=
  let frame : SessionFrame blockSize := { buf := Vector.replicate blockSize 0 }
  if setOptionErr ≠ 0 then .thrown [] ⟨setOptionErr⟩ else frame.asyncReadSome

/-- `s.set_option(ip::tcp::no_delay(true)); std::vector<char> buf(block_size);`, and the loop. -/
def beginHard2 (setOptionErr : ErrorCode) : SessionLeg blockSize :=
  if setOptionErr ≠ 0 then .thrown [] ⟨setOptionErr⟩
  else
    let frame : SessionFrame blockSize := { buf := Vector.replicate blockSize 0 }
    frame.asyncReadSome

/-- `session` of `hard1.cpp`. -/
def sessionHard1 (blockSize : Nat) (setOptionErr : ErrorCode) :
    Body (SessionFrame blockSize) Operation (Result blockSize) SystemError Empty :=
  sessionBody Awaiter.completeHard1 (beginHard1 setOptionErr)

/-- `session` of `hard2.cpp`. -/
def sessionHard2 (blockSize : Nat) (setOptionErr : ErrorCode) :
    Body (SessionFrame blockSize) Operation (Result blockSize) SystemError Empty :=
  sessionBody Awaiter.completeHard2 (beginHard2 setOptionErr)

/-! ### The accept loop of `hard2.cpp` -/

/-- What the handler of `async_accept` leaves for `await_resume`. -/
structure AcceptAwaiter where
  result : Option Socket := none
  ec : ErrorCode := 0
  deriving DecidableEq, Repr

/-- `this->result = std::move(result); this->ec = ec;` -/
def AcceptAwaiter.complete (ec : ErrorCode) (socket : Socket) (awaiter : AcceptAwaiter) : AcceptAwaiter :=
  let awaiter := { awaiter with result := some socket }
  { awaiter with ec }

/-- `if (ec) throw std::system_error(ec); return std::move(*result);` -/
def AcceptAwaiter.awaitResume (awaiter : AcceptAwaiter) : Option (Except SystemError Socket) :=
  if awaiter.ec ≠ 0 then some (.error ⟨awaiter.ec⟩) else awaiter.result.map .ok

structure ServerFrame where
  blockSize : Nat
  awaiter : AcceptAwaiter := {}
  deriving DecidableEq, Repr

abbrev ServerLeg := Leg ServerFrame AcceptOperation SystemError SessionStarted

/-- `co_await async_accept(acceptor)`, up to its suspension, after whatever else was done. -/
def ServerFrame.asyncAccept (effects : List SessionStarted) (frame : ServerFrame) : ServerLeg :=
  .await { frame with awaiter := {} } effects .asyncAccept

/-- From `await_resume` to the next `co_await`, or out of the body. The call of `session`
returns at its first suspension. -/
def ServerFrame.resume (frame : ServerFrame) : Option ServerLeg :=
  frame.awaiter.awaitResume.map fun
    | .error exception => .thrown [] exception
    | .ok s => frame.asyncAccept [⟨s, frame.blockSize⟩]

/-- `server` of `hard2.cpp`. -/
def serverHard2 (blockSize : Nat) : Body ServerFrame AcceptOperation AcceptResult SystemError SessionStarted where
  begin := ServerFrame.asyncAccept [] { blockSize }
  resume frame _ result :=
    { frame with awaiter := frame.awaiter.complete result.ec result.socket }.resume

end Await.Live.CoroServer
