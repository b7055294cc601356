import Await.General.Tasks
import Await.SuperLean.AcceptLoop
import Await.SuperLean.Awaitable

/-! `run` of `Awaitable.cpp`: the coroutines `Server`, `ServeClient` and `TcpReader` with
their sockets, on any number of threads. What `TcpReader` does apart from its socket is in
`Awaitable`. -/

namespace Await.SuperLean.Program
open General.Callback (Outcome)
open General.Tasks Pal

/-- What is asked of the system. A handle is `none` when it is `kInvalidSocket`. -/
inductive Call where
  | socket (handle : Nat)
  | bind (handle : Option Nat)
  | associateHandle (handle : Option Nat)
  | listen (handle : Option Nat)
  | closesocket (handle : Nat)
  | connect (handle : Option Nat)
  | accept (handle newh : Option Nat)
  | send (handle : Option Nat) (len : Nat)
  | receive (handle : Option Nat) (len : Nat)
  | sleep (ms : Nat)
  deriving DecidableEq, Repr

structure OsTcpSocket where
  handle : Option Nat := none
  deriving DecidableEq, Repr

/-- `handle_(rhs.handle_) { rhs.handle_ = kInvalidSocket; }`: the new socket, and `rhs`. -/
def OsTcpSocket.move (rhs : OsTcpSocket) : OsTcpSocket × OsTcpSocket := (⟨rhs.handle⟩, ⟨none⟩)

/-- `if (handle_ != INVALID_SOCKET) closesocket(handle_);` -/
def OsTcpSocket.destruct (sock : OsTcpSocket) : List Call := sock.handle.toList.map .closesocket

/-- The awaiter of `Listener::Accept`. -/
structure AcceptAwaiter extends Awaitable.AwaiterBase where
  sock : OsTcpSocket
  deriving DecidableEq, Repr

/-- The awaiter of `Connection::Write`. -/
structure WriteAwaiter extends Awaitable.AwaiterBase where
  len : Nat
  deriving DecidableEq, Repr

/-- The locals of `run`. -/
structure Run where
  nReaders : Int
  bytes : UInt64
  i : Int := 0
  deriving DecidableEq, Repr

/-- The frame of `Server`: the listener, the awaiter, and the argument of `ServeClient`. -/
structure Server where
  s : OsTcpSocket := {}
  awaiter : AcceptAwaiter := { err := 0, bytes := 0, sock := {} }
  conn : OsTcpSocket := {}
  deriving DecidableEq, Repr

/-- The frame of `ServeClient`: its parameter and the awaiter. -/
structure ServeClient where
  conn : OsTcpSocket
  awaiter : WriteAwaiter := { err := 0, bytes := 0, len := 0 }
  deriving DecidableEq, Repr

/-- The frame of `TcpReader` with its sockets: the one in the awaiter of `Tcp::Connect`, and
the local `conn`. -/
structure TcpReader extends Awaitable.TcpReader where
  connecting : OsTcpSocket := {}
  conn : OsTcpSocket := {}
  deriving DecidableEq, Repr

inductive Frame where
  | run (r : Run)
  | server (s : Server)
  | client (c : ServeClient)
  | reader (r : TcpReader)
  deriving DecidableEq, Repr

inductive RunPoint where
  | server | readers | next | sleep | stop
  deriving DecidableEq, Repr

inductive ServerPoint where
  | listener
  | accept
  | ioComplete (error : ErrorCode) (byteTransferred : Nat)
  | acceptResume
  | serveClient
  | served
  deriving DecidableEq, Repr

inductive ClientPoint where
  | write
  | ioComplete (error : ErrorCode) (byteTransferred : Nat)
  | writeResume
  deriving DecidableEq, Repr

inductive Point where
  | run (p : RunPoint)
  | server (p : ServerPoint)
  | client (p : ClientPoint)
  | reader (p : Awaitable.Point)
  deriving DecidableEq, Repr

/-- The awaiters that operations are in flight for, and the thread that sleeps. -/
inductive Kind where
  | accept
  | write
  | reader (awaiter : Awaitable.Awaiter)
  | sleep
  deriving DecidableEq, Repr

abbrev ProgramMove := Move Frame Point Kind Call

/-- `Server();` -/
def Run.server (r : Run) : ProgramMove := .spawn (.run r) (.server {}) (.server .listener) (.run .readers)

/-- `for (int i = 0; i < nReaders; ++i) TcpReader(bytes);` The parameter is an `int64_t`. -/
def Run.readers (r : Run) : ProgramMove :=
  if r.i < r.nReaders then
    let reader : Awaitable.TcpReader :=
      { total := r.bytes.toInt64.toInt, connect := { err := 0, bytes := 0 },
        read := { err := 0, bytes := 0, len := 0 } }
    .spawn (.run r) (.reader { reader with }) (.reader .start) (.run .next)
  else .goto (.run r) [] (.run .sleep)

/-- `os_sleep(100 * 1000);`, where the thread waits for the system, and the destructor of the
pool, which ends the program (`exit(0)` in `Stop`). -/
def Run.exec : RunPoint → Run → ProgramMove
  | .server, r => r.server
  | .readers, r => r.readers
  | .next, r => .goto (.run { r with i := r.i + 1 }) [] (.run .readers)
  | .sleep, r => .await (.run r) [] (.sleep (100 * 1000)) .sleep (.run .stop)
  | .stop, _ => .exit

/-- `Tcp::Listener s;` -/
def Server.listener (new : Nat) (server : Server) : ProgramMove :=
  let s : OsTcpSocket := ⟨some new⟩
  .goto (.server { server with s }) [.socket new, .bind s.handle, .associateHandle s.handle, .listen s.handle]
    (.server .accept)

/-- `s.Accept()` and its `await_suspend`. -/
def Server.accept (new : Nat) (server : Server) : ProgramMove :=
  let awaiter : AcceptAwaiter := { err := 0, bytes := 0, sock := ⟨some new⟩ }
  .await (.server { server with awaiter }) [.socket new, .associateHandle awaiter.sock.handle]
    (.accept server.s.handle awaiter.sock.handle) .accept (.server .acceptResume)

/-- `return Connection{std::move(sock)};`, whatever `err` is. -/
def Server.acceptResume (server : Server) : ProgramMove :=
  let (conn, sock) := server.awaiter.sock.move
  .goto (.server { server with conn, awaiter := { server.awaiter with sock } }) [] (.server .serveClient)

/-- `ServeClient(...)`: the parameter is moved into the frame. -/
def Server.serveClient (server : Server) : ProgramMove :=
  let (conn, argument) := server.conn.move
  .spawn (.server { server with conn := argument }) (.client { conn }) (.client .write) (.server .served)

/-- The argument and the awaiter go. -/
def Server.served (server : Server) : ProgramMove :=
  .goto (.server { server with conn := {}, awaiter := { err := 0, bytes := 0, sock := {} } })
    (server.conn.destruct ++ server.awaiter.sock.destruct) (.server .accept)

def Server.exec (new : Nat) : ServerPoint → Server → ProgramMove
  | .listener, server => server.listener new
  | .accept, server => server.accept new
  | .ioComplete error byteTransferred, server =>
      .goto (.server { server with awaiter := { server.awaiter with err := error, bytes := byteTransferred } }) []
        (.server .acceptResume)
  | .acceptResume, server => server.acceptResume
  | .serveClient, server => server.serveClient
  | .served, server => server.served

/-- `co_await conn.Write(buf, sizeof(buf));` up to its suspension. -/
def ServeClient.write (client : ServeClient) : ProgramMove :=
  let awaiter : WriteAwaiter := { err := 0, bytes := 0, len := writerSize }
  .await (.client { client with awaiter }) [] (.send client.conn.handle awaiter.len) .write (.client .writeResume)

/-- `await_resume` looks at no error, and the loop goes on. -/
def ServeClient.exec : ClientPoint → ServeClient → ProgramMove
  | .write, client => client.write
  | .ioComplete error byteTransferred, client =>
      .goto (.client { client with awaiter := { client.awaiter with err := error, bytes := byteTransferred } }) []
        (.client .writeResume)
  | .writeResume, client => .goto (.client client) [] (.client .write)

/-- `co_await Tcp::Connect("127.0.0.1", 13)`: the awaiter has a `Connection` of its own. -/
def TcpReader.start (new : Nat) (reader : TcpReader) : ProgramMove :=
  let connecting : OsTcpSocket := ⟨some new⟩
  .await (.reader { reader with connecting })
    [.socket new, .bind connecting.handle, .associateHandle connecting.handle] (.connect connecting.handle)
    (.reader .connect) (.reader .connectResume)

/-- `panic_if(!!this->err, "Connect failed"); return std::move(conn);`, and the awaiter goes. -/
def TcpReader.connectResume (reader : TcpReader) : ProgramMove :=
  if reader.connect.err ≠ 0 then .exit
  else
    let (conn, connecting) := reader.connecting.move
    .goto (.reader { reader with conn, connecting }) connecting.destruct (.reader .loop)

/-- A move of the coroutine where it does nothing to its sockets but receive. -/
def TcpReader.lift (reader : TcpReader) : Awaitable.ReaderMove → ProgramMove
  | .goto base _ next => .goto (.reader { reader with toTcpReader := base }) [] (.reader next)
  | .start base (.receive len) kind next none =>
      .await (.reader { reader with toTcpReader := base }) [] (.receive reader.conn.handle len) (.reader kind)
        (.reader next)
  | .delete => .finish
  | _ => .exit

def TcpReader.exec (new : Nat) : Awaitable.Point → TcpReader → ProgramMove
  | .start, reader => reader.start new
  | .connectResume, reader => reader.connectResume
  | point, reader => reader.lift (Awaitable.exec point reader.toTcpReader)

/-- A coroutine runs its own code only. -/
def exec : Point → Frame → Nat → ProgramMove
  | .run p, .run r, _ => r.exec p
  | .server p, .server server, new => server.exec new p
  | .client p, .client client, _ => client.exec p
  | .reader p, .reader reader, new => reader.exec new p
  | _, _, _ => .exit

def opens : Point → Bool
  | .server .listener | .server .accept | .reader .start => true
  | _ => false

/-- `io_complete_callback`, and the return from `os_sleep`. -/
def ioCompleteCallback : Kind → Nat → Nat → Point
  | .accept, error, byteTransferred => .server (.ioComplete error byteTransferred)
  | .write, error, byteTransferred => .client (.ioComplete error byteTransferred)
  | .reader awaiter, error, byteTransferred => .reader (.ioComplete awaiter error byteTransferred)
  | .sleep, _, _ => .run .stop

/-- `await_suspend` of `Connection::Write`: a send that is refused destroys the coroutine. -/
def WriteAwaiter.suspend (error : ErrorCode) : Verdict :=
  if error = kSynchCompletion then .resume
  else if error ≠ 0 then .destroy
  else .suspend

/-- The other awaiters. A refused operation ends the program (`panic_if`). -/
def verdict : Option Outcome → Verdict
  | some (.now _) => .resume
  | some .later => .suspend
  | _ => .exit

def respond (syncCompletion : Bool) : Call → WsaResult → Option Verdict
  | .connect _, result => some (verdict ((Pal.OsTcpSocket.connect result).map fun _ => .later))
  | .accept _ _, result => some (verdict ((AcceptLoop.OsTcpSocket.accept result).map fun _ => .later))
  | .send _ _, result => some (WriteAwaiter.suspend (Pal.OsTcpSocket.send syncCompletion result))
  | .receive _ _, result =>
      some (verdict (Awaitable.ReadAwaiter.suspend (Pal.OsTcpSocket.receive syncCompletion result) result))
  | .sleep _, _ => some .suspend
  | _, _ => none

/-- The destructors of what is in a frame. -/
def drop : Frame → List Call
  | .run _ => []
  | .server server => server.conn.destruct ++ server.awaiter.sock.destruct ++ server.s.destruct
  | .client client => client.conn.destruct
  | .reader reader => reader.conn.destruct ++ reader.connecting.destruct

def code (sync : Bool) : Code Frame Point Kind WsaResult Call where
  exec := exec
  opens := opens
  entry := ioCompleteCallback
  respond := respond sync
  drop := drop

abbrev ProgramState := State Frame Point Kind Call

/-- `run(nReaders, bytes, sync)` from the pool on. -/
def start (nReaders : Int) (bytes : UInt64) : Option (CompletionQueue × ProgramState) :=
  (ThreadPool.create nReaders).map fun q => (q, State.launch (.run { nReaders, bytes }) (.run .server))

theorem start_eq {nReaders : Int} {bytes : UInt64} {q : CompletionQueue} {begun : ProgramState} :
    start nReaders bytes = some (q, begun) ↔
      ThreadPool.create nReaders = some q ∧ begun = State.launch (.run { nReaders, bytes }) (.run .server) := by
  simp [start, eq_comm]

end Await.SuperLean.Program
