import Await.General.Process

/-! `session` and `server` of `myserver.cpp`, the echo server written with callbacks. Each
member function starts one operation, or posts the deletion of the session. -/

namespace Await.Live.MyServer
open General.Process

/-- The value of a `std::error_code`; 0 is no error. -/
abbrev ErrorCode := Nat

/-- What a session asks of its socket. -/
inductive Operation where
  | asyncReadSome (length : Nat)
  | asyncWrite (bytes : List UInt8)
  deriving DecidableEq, Repr

/-- How an operation completes. A read writes to the buffer it was given and reports how
many bytes of it have arrived. -/
inductive Result (blockSize : Nat) where
  | readDone (ec : ErrorCode) (contents : Vector UInt8 blockSize) (length : Nat)
  | writeDone (ec : ErrorCode)

variable {blockSize : Nat}

def Result.ec : Result blockSize → ErrorCode
  | .readDone ec _ _ => ec
  | .writeDone ec => ec

/-- A result is one of this operation; a successful read brings at least one byte and at
most as many as were asked for. -/
def Result.fits : Operation → Result blockSize → Bool
  | .asyncReadSome limit, .readDone ec _ length => ec ≠ 0 || (1 ≤ length && length ≤ limit)
  | .asyncWrite _, .writeDone _ => true
  | _, _ => false

/-- The members that the code changes. -/
structure Session (blockSize : Nat) where
  buf : Vector UInt8 blockSize := Vector.replicate blockSize 0
  readDataLength : Nat := 0

/-- The operation `none` is the function posted to the `io_context`. -/
abbrev SessionReaction (blockSize : Nat) := Reaction (Session blockSize) (Option Operation) Empty

/-- `net::post(io_context_, [this] { destroy(this); });` -/
def Session.post (s : Session blockSize) : SessionReaction blockSize := .goOn s [] [none]

def Session.start (setOptionErr : ErrorCode) (s : Session blockSize) : SessionReaction blockSize :=
  if setOptionErr = 0 then .goOn s [] [some (.asyncReadSome blockSize)] else s.post

def Session.handleRead (err : ErrorCode) (length : Nat) (s : Session blockSize) : SessionReaction blockSize :=
  if err = 0 then
    let s := { s with readDataLength := length }
    .goOn s [] [some (.asyncWrite (s.buf.toList.take s.readDataLength))]
  else s.post

def Session.handleWrite (err : ErrorCode) (s : Session blockSize) : SessionReaction blockSize :=
  if err = 0 then .goOn s [] [some (.asyncReadSome blockSize)] else s.post

/-- `static void destroy(session *s) { delete s; }` -/
def Session.destroy : SessionReaction blockSize := .destroyed []

/-- The handler of each operation. -/
def Session.complete (s : Session blockSize) : Result blockSize → SessionReaction blockSize
  | .readDone ec contents length => { s with buf := contents }.handleRead ec length
  | .writeDone ec => s.handleWrite ec

def session (blockSize : Nat) (setOptionErr : ErrorCode) :
    Actor (Session blockSize) (Option Operation) (Option (Result blockSize)) Empty where
  begin := Session.start setOptionErr {}
  react
    | s, some operation, some result => if result.fits operation then some (s.complete result) else none
    | _, none, none => some Session.destroy
    | _, _, _ => none

/-! ### The accept loop -/

/-- A connection, by its number. -/
abbrev Socket := Nat

inductive AcceptOperation where
  | asyncAccept
  deriving DecidableEq, Repr

/-- What the handler of `async_accept` is called with. -/
structure AcceptResult where
  ec : ErrorCode
  socket : Socket
  deriving DecidableEq, Repr

/-- A session is started on a socket. -/
structure SessionStarted where
  socket : Socket
  blockSize : Nat
  deriving DecidableEq, Repr

structure Server where
  blockSize : Nat
  deriving DecidableEq, Repr

/-- `acceptor_.async_accept(...)`, after whatever else was done. -/
def Server.startAccept (effects : List SessionStarted) (s : Server) :
    Reaction Server AcceptOperation SessionStarted :=
  .goOn s effects [.asyncAccept]

def Server.handleAccept (err : ErrorCode) (socket : Socket) (s : Server) :
    Reaction Server AcceptOperation SessionStarted :=
  if err = 0 then s.startAccept [⟨socket, s.blockSize⟩] else s.startAccept []

def server (blockSize : Nat) : Actor Server AcceptOperation AcceptResult SessionStarted where
  begin := Server.startAccept [] ⟨blockSize⟩
  react s _ result := some (s.handleAccept result.ec result.socket)

theorem session_sequential (blockSize : Nat) (setOptionErr : ErrorCode) :
    Sequential (session blockSize setOptionErr) where
  begin := by
    simp only [session, Session.start]
    split <;> rfl
  react := by
    intro s operation result reaction reacted
    rcases operation with _ | operation <;> rcases result with _ | result <;>
      simp only [session, Option.ite_none_right_eq_some, Option.some.injEq, reduceCtorEq] at reacted
    · exact reacted ▸ trivial
    · obtain ⟨-, rfl⟩ := reacted
      cases result with
      | readDone ec contents length =>
        simp only [Session.complete, Session.handleRead]
        split <;> rfl
      | writeDone ec =>
        simp only [Session.complete, Session.handleWrite]
        split <;> rfl

theorem server_sequential (blockSize : Nat) : Sequential (server blockSize) where
  begin := rfl
  react := by
    intro s operation result reaction reacted
    obtain rfl : s.handleAccept result.ec result.socket = reaction := by simpa [server] using reacted
    unfold Server.handleAccept
    split <;> rfl

end Await.Live.MyServer
