import Await.SuperLean.Reader

/-! `Server` of `Traditional.cpp`: the loop that accepts connections and starts a writer on
each. What a writer does with its connection is in `Writer`. -/

namespace Await.SuperLean.AcceptLoop
open General.Callback Pal Reader

inductive Lambda where
  | onAccept
  deriving DecidableEq, Repr

inductive Point where
  | start
  | onAccept (ec : ErrorCode)
  | accept
  deriving DecidableEq, Repr

inductive Call where
  | accept
  | startWriter
  deriving DecidableEq, Repr

/-- The code changes none of the members. -/
structure Server where
  deriving DecidableEq, Repr

abbrev ServerMove := Move Server Point Lambda Call

/-- `AcceptEx`, which says FALSE and a last error, or TRUE. Anything but a pending accept
ends the program (`panic_if`). -/
def OsTcpSocket.accept : WsaResult → Option ErrorCode
  | .socketError status _ => if status = errorIoPending then some status else none
  | .done _ => none

/-- `sock.Accept(...)`. An accept that is not pending ends the program, so no code follows
one that is done at once. -/
def Server.start (server : Server) : ServerMove := .start server .accept .onAccept .start none

/-- `panic_if(!!ec, ...); tcp_writer::start(std::move(hdl));` The panic ends the program:
nothing comes after it, so here the thread stays where it is. -/
def Server.onAccept (ec : ErrorCode) (server : Server) : ServerMove :=
  if ec ≠ 0 then .goto server [] (.onAccept ec) else .goto server [.startWriter] .accept

/-- The `sock.Accept(...)` at the end of `OnAccept`. -/
def Server.accept (server : Server) : ServerMove := .start server .accept .onAccept .accept none

def exec : Point → Server → ServerMove
  | .start => Server.start
  | .onAccept ec => Server.onAccept ec
  | .accept => Server.accept

/-- `[this](auto ec, auto b) { OnAccept(ec, std::move(b)); }`. -/
def invoke : Lambda → Nat → Nat → Point
  | .onAccept, ec, _ => .onAccept ec

/-- `Listener::Accept` lets go of the handler of an accept that is pending. -/
def respond : Call → WsaResult → Option Outcome
  | .accept, result => (OsTcpSocket.accept result).map fun _ => .later
  | .startWriter, _ => none

def code : Code Server Point Lambda WsaResult Call where
  exec := exec
  entry := invoke
  respond := respond

abbrev ServerState := State Server Point (Handler Lambda) Handlers Call

def traditionalServer : ServerState → Choice WsaResult → Option ServerState := step code (freshHandlers Lambda)

def traditionalStart : ServerState := State.launch ⟨⟩ {} .start

end Await.SuperLean.AcceptLoop
