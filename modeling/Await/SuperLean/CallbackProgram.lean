import Await.SuperLean.Program
import Await.SuperLean.Writer

/-! `run` of `Traditional.cpp` and of `Improved.cpp`: the readers, and the server with its
writers, with their sockets, on any number of threads. What their member functions do apart
from the sockets is in `Reader`, `Writer` and `AcceptLoop`. Which handler an operation is
given makes no difference here, and so neither does the version. -/

namespace Await.SuperLean.CallbackProgram
open General.Callback (Outcome)
open General.Tasks Pal
open Program (OsTcpSocket)

/-- What is asked of the system, and of the tracker. -/
inductive Call where
  | os (call : Program.Call)
  | post (nBytes : Nat)
  | completed
  | failed (ec : ErrorCode)
  deriving DecidableEq, Repr

/-- What the system answers, or what the tracker finds its `workCount` to be. -/
inductive Answer where
  | wsa (result : WsaResult)
  | workCount (left : Int)
  deriving DecidableEq

/-- The locals of `run`. -/
structure Run where
  nReaders : Int
  bytes : UInt64
  i : Int := 0
  deriving DecidableEq, Repr

/-- The `Server` with the socket of its listener, the one in the handler of its accept, and
the parameter of `OnAccept`. -/
structure Server where
  sock : OsTcpSocket := {}
  handler : OsTcpSocket := {}
  hdl : OsTcpSocket := {}
  deriving DecidableEq, Repr

/-- `tcp_writer` with its connection. -/
structure TcpWriter where
  conn : OsTcpSocket
  deriving DecidableEq, Repr

/-- `tcp_reader` with its connection. -/
structure TcpReader extends Reader.TcpReader where
  conn : OsTcpSocket := {}
  deriving DecidableEq, Repr

inductive Frame where
  | run (r : Run)
  | server (s : Server)
  | writer (w : TcpWriter)
  | reader (r : TcpReader)
  deriving DecidableEq, Repr

inductive RunPoint where
  | readers | next | server | sleep | stop
  deriving DecidableEq, Repr

inductive ServerPoint where
  | listener
  | invoke (ec : ErrorCode)
  | loop (p : AcceptLoop.Point)
  | startWriter (next : AcceptLoop.Point)
  | started (next : AcceptLoop.Point)
  deriving DecidableEq, Repr

inductive Point where
  | run (p : RunPoint)
  | server (p : ServerPoint)
  | writer (p : Writer.Point)
  | reader (p : Reader.Point)
  deriving DecidableEq, Repr

/-- The handlers that operations are in flight for, the calls of the tracker, and the thread
that sleeps. -/
inductive Kind where
  | accept
  | writer (lambda : Writer.Lambda)
  | reader (lambda : Reader.Lambda)
  | tracker
  | sleep
  deriving DecidableEq, Repr

abbrev ProgramMove := Move Frame Point Kind Call

/-- `for (int i = 0; i < nReaders; ++i) tcp_reader::start(trk, bytes);` The parameter is an
`int64_t`. -/
def Run.readers (r : Run) : ProgramMove :=
  if r.i < r.nReaders then
    .spawn (.run r) (.reader { total := r.bytes.toInt64.toInt }) (.reader .start) (.run .next)
  else .goto (.run r) [] (.run .server)

/-- `Server server; server.Start();` -/
def Run.server (r : Run) : ProgramMove := .spawn (.run r) (.server {}) (.server .listener) (.run .sleep)

/-- After the sleep the destructor of the pool ends the program. -/
def Run.exec : RunPoint → Run → ProgramMove
  | .readers, r => r.readers
  | .next, r => .goto (.run { r with i := r.i + 1 }) [] (.run .readers)
  | .server, r => r.server
  | .sleep, r => .await (.run r) [] (.os (.sleep (120 * 1000))) .sleep (.run .stop)
  | .stop, _ => .exit

/-- `Listener()`. -/
def Server.listener (new : Nat) (server : Server) : ProgramMove :=
  let sock : OsTcpSocket := ⟨some new⟩
  .goto (.server { server with sock })
    [.os (.socket new), .os (.bind sock.handle), .os (.associateHandle sock.handle), .os (.listen sock.handle)]
    (.server (.loop .start))

/-- `CompletionWithConnection::Invoke`: the socket is moved out of the handler, whatever `ec`
is. -/
def Server.invoke (ec : ErrorCode) (server : Server) : ProgramMove :=
  let (hdl, handler) := server.handler.move
  .goto (.server { server with hdl, handler }) [.os (.associateHandle server.handler.handle)]
    (.server (.loop (.onAccept ec)))

/-- A move of the server: `sock.Accept(...)` makes a handler with a socket in it, and a panic
ends the program. -/
def Server.lift (new : Nat) (server : Server) : AcceptLoop.ServerMove → ProgramMove
  | .start _ .accept .onAccept next none =>
      let handler : OsTcpSocket := ⟨some new⟩
      .await (.server { server with handler }) [.os (.socket new)]
        (.os (.accept server.sock.handle handler.handle)) .accept (.server (.loop next))
  | .goto _ [.startWriter] next => .goto (.server server) [] (.server (.startWriter next))
  | _ => .exit

/-- `tcp_writer::start(std::move(hdl))`, with the moves on the way to the `conn` of the
writer. -/
def Server.startWriter (server : Server) (next : AcceptLoop.Point) : ProgramMove :=
  let (sock, hdl) := server.hdl.move
  let (conn, _) := sock.move
  .spawn (.server { server with hdl }) (.writer { conn }) (.writer .construct) (.server (.started next))

/-- What is left of the parameters goes. -/
def Server.started (server : Server) (next : AcceptLoop.Point) : ProgramMove :=
  .goto (.server { server with hdl := {} }) (server.hdl.destruct.map .os) (.server (.loop next))

def Server.exec (new : Nat) : ServerPoint → Server → ProgramMove
  | .listener, server => server.listener new
  | .invoke ec, server => server.invoke ec
  | .loop p, server => server.lift new (AcceptLoop.exec p ⟨⟩)
  | .startWriter next, server => server.startWriter next
  | .started next, server => server.started next

/-- A move of a writer at a point. After a `Post` the thread returns, so no code follows one
that is done at once. -/
def TcpWriter.lift (p : Writer.Point) (writer : TcpWriter) : Writer.WriterMove → ProgramMove
  | .goto _ [] next => .goto (.writer writer) [] (.writer next)
  | .start _ (.send len) kind next none =>
      .await (.writer writer) [] (.os (.send writer.conn.handle len)) (.writer kind) (.writer next)
  | .post _ (.post nBytes) kind _ => .await (.writer writer) [] (.post nBytes) (.writer kind) (.writer p)
  | .leave _ => .leave (.writer writer)
  | _ => .exit

def TcpWriter.exec (p : Writer.Point) (writer : TcpWriter) : ProgramMove :=
  writer.lift p (Writer.exec p ⟨⟩)

/-- A move of a reader. The socket is opened in the constructor, just before `conn.Connect`. -/
def TcpReader.lift (new : Nat) (reader : TcpReader) : Reader.ReaderMove → ProgramMove
  | .goto base [] next => .goto (.reader { reader with toTcpReader := base }) [] (.reader next)
  | .goto base [.completed] next =>
      .await (.reader { reader with toTcpReader := base }) [] .completed .tracker (.reader next)
  | .goto base [.failed ec] next =>
      .await (.reader { reader with toTcpReader := base }) [] (.failed ec) .tracker (.reader next)
  | .start base .connect kind next none =>
      let conn : OsTcpSocket := ⟨some new⟩
      .await (.reader { reader with toTcpReader := base, conn })
        [.os (.socket new), .os (.bind conn.handle), .os (.associateHandle conn.handle)]
        (.os (.connect conn.handle)) (.reader kind) (.reader next)
  | .start base (.receive len) kind next none =>
      .await (.reader { reader with toTcpReader := base }) [] (.os (.receive reader.conn.handle len)) (.reader kind)
        (.reader next)
  | .delete => .finish
  | _ => .exit

def TcpReader.exec (new : Nat) (p : Reader.Point) (reader : TcpReader) : ProgramMove :=
  reader.lift new (Reader.exec p reader.toTcpReader)

/-- An object runs its own code only. -/
def exec : Point → Frame → Nat → ProgramMove
  | .run p, .run r, _ => r.exec p
  | .server p, .server server, new => server.exec new p
  | .writer p, .writer writer, _ => writer.exec p
  | .reader p, .reader reader, new => reader.exec new p
  | _, _, _ => .exit

def opens : Point → Bool
  | .server .listener | .server (.loop .start) | .server (.loop .accept) | .reader .start => true
  | _ => false

/-- `io_complete_callback`: the handler calls its lambda. -/
def ioCompleteCallback : Kind → Nat → Nat → Point
  | .accept, error, _ => .server (.invoke error)
  | .writer lambda, error, byteTransferred => .writer (Writer.invoke lambda error byteTransferred)
  | .reader lambda, error, byteTransferred => .reader (Reader.invoke lambda error byteTransferred)
  | .tracker, _, _ | .sleep, _, _ => .run .stop

/-- The ways out of a call: an operation that cannot be started is reported to its handler,
or ends the program. -/
def verdict : Option Outcome → Verdict
  | some (.now _) => .resume
  | some .later => .suspend
  | some (.failed code) => .refuse code
  | none => .exit

def respond (syncCompletion : Bool) : Call → Answer → Option Verdict
  | .os (.connect _), .wsa result => some (verdict (Pal.respond syncCompletion .connect result))
  | .os (.accept _ _), .wsa result => some (verdict (AcceptLoop.respond .accept result))
  | .os (.send _ len), .wsa result => some (verdict (Pal.respond syncCompletion (.send len) result))
  | .os (.receive _ len), .wsa result => some (verdict (Pal.respond syncCompletion (.receive len) result))
  | .os (.sleep _), .wsa _ => some .suspend
  | .post _, .wsa _ => some .suspend
  | .completed, .workCount left | .failed _, .workCount left => some (if left = 0 then .exit else .resume)
  | _, _ => none

/-- The destructors of an object. -/
def drop : Frame → List Call
  | .run _ => []
  | .server server => (server.hdl.destruct ++ server.handler.destruct ++ server.sock.destruct).map .os
  | .writer writer => writer.conn.destruct.map .os
  | .reader reader => reader.conn.destruct.map .os

def code (sync : Bool) : Code Frame Point Kind Answer Call where
  exec := exec
  opens := opens
  entry := ioCompleteCallback
  respond := respond sync
  drop := drop

abbrev ProgramState := State Frame Point Kind Call

/-- `run(nReaders, bytes, sync)` from the pool on. -/
def start (nReaders : Int) (bytes : UInt64) : Option (CompletionQueue × ProgramState) :=
  (ThreadPool.create nReaders).map fun q => (q, State.launch (.run { nReaders, bytes }) (.run .readers))

theorem start_eq {nReaders : Int} {bytes : UInt64} {q : CompletionQueue} {begun : ProgramState} :
    start nReaders bytes = some (q, begun) ↔
      ThreadPool.create nReaders = some q ∧ begun = State.launch (.run { nReaders, bytes }) (.run .readers) := by
  simp [start, eq_comm]

end Await.SuperLean.CallbackProgram
