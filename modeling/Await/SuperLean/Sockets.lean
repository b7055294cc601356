import Await.SuperLean.Program

/-! What becomes of the sockets and of the frames of `Awaitable.cpp`, whichever thread runs
when and whatever the system answers. -/

namespace Await.SuperLean.Sockets
open General.Resources General.Tasks General.Transition Program

/-- The life of a socket. One that a connection was accepted on is closed after a send on it
was refused, and only then. -/
inductive SocketState where
  | fresh | opened | bound | associated | listening | accepted | connected | refused | closed
  deriving DecidableEq, Repr

/-- The sockets that a call is about. -/
def handles : Call → List Nat
  | .socket handle | .closesocket handle => [handle]
  | .bind handle | .associateHandle handle | .listen handle | .connect handle | .send handle _ | .receive handle _ =>
      handle.toList
  | .sleep _ => []
  | .accept handle newh => handle.toList ++ newh.toList

def subject : Entry Call → Call
  | .call call => call
  | .answer operation _ => operation

/-- Where an entry that is about it takes a socket. -/
def SocketState.next : SocketState → Entry Call → Option SocketState
  | .fresh, .call (.socket _) => some .opened
  | .opened, .call (.bind _) => some .bound
  | .opened, .call (.associateHandle _) => some .associated
  | .bound, .call (.associateHandle _) => some .associated
  | .associated, .call (.listen _) => some .listening
  | .listening, .answer (.accept _ _) .suspend => some .listening
  | .associated, .answer (.accept _ _) .suspend => some .accepted
  | .associated, .answer (.connect _) .suspend => some .connected
  | .connected, .answer (.receive _ _) .resume => some .connected
  | .connected, .answer (.receive _ _) .suspend => some .connected
  | .connected, .call (.closesocket _) => some .closed
  | .accepted, .answer (.send _ _) .resume => some .accepted
  | .accepted, .answer (.send _ _) .suspend => some .accepted
  | .accepted, .answer (.send _ _) .destroy => some .refused
  | .refused, .call (.closesocket _) => some .closed
  | _, _ => none

def socketProtocol : Protocol (Entry Call) SocketState where
  step r state entry := if r ∈ handles (subject entry) then state.next entry else some state
  fresh := .fresh
  closed := .closed

/-- The sockets in the objects of a server. -/
structure ServerHas (server : Server) (s awaiter conn : Option Nat) : Prop where
  s : server.s.handle = s
  awaiter : server.awaiter.sock.handle = awaiter
  conn : server.conn.handle = conn

structure ReaderHas (reader : TcpReader) (connecting conn : Option Nat) : Prop where
  connecting : reader.connecting.handle = connecting
  conn : reader.conn.handle = conn

/-- The points of a reader at which it has its connection. -/
def Reads : Awaitable.Point → Prop
  | .loop | .readResume | .received _ | .finish | .ioComplete .read _ _ => True
  | _ => False

/-- What each coroutine holds at each of its points. -/
inductive Holds : Doing Point Kind Call → Frame → (Nat → Option SocketState) → Prop where
  | run {p r} : Holds (.run (.run p)) (.run r) nothing
  | runCalling {p r} : Holds (.calling (.run p)) (.run r) nothing
  | falling {r ms} : Holds (.suspending (.sleep ms) .sleep (.run .stop)) (.run r) nothing
  | sleeping {r} : Holds (.waiting .sleep) (.run r) nothing
  | listener {server} : ServerHas server none none none → Holds (.run (.server .listener)) (.server server) nothing
  | accept {server l} : ServerHas server (some l) none none →
      Holds (.run (.server .accept)) (.server server) (single l .listening)
  | accepting {server l n} : ServerHas server (some l) (some n) none → l ≠ n →
      Holds (.suspending (.accept (some l) (some n)) .accept (.server .acceptResume)) (.server server)
        (pair l .listening n .associated)
  | waiting {server l n} : ServerHas server (some l) (some n) none → l ≠ n →
      Holds (.waiting .accept) (.server server) (pair l .listening n .accepted)
  | complete {server l n error bytes} : ServerHas server (some l) (some n) none → l ≠ n →
      Holds (.run (.server (.ioComplete error bytes))) (.server server) (pair l .listening n .accepted)
  | acceptResume {server l n} : ServerHas server (some l) (some n) none → l ≠ n →
      Holds (.run (.server .acceptResume)) (.server server) (pair l .listening n .accepted)
  | serveClient {server l n} : ServerHas server (some l) none (some n) → l ≠ n →
      Holds (.run (.server .serveClient)) (.server server) (pair l .listening n .accepted)
  | calling {server l} : ServerHas server (some l) none none →
      Holds (.calling (.server .served)) (.server server) (single l .listening)
  | served {server l} : ServerHas server (some l) none none →
      Holds (.run (.server .served)) (.server server) (single l .listening)
  | client {client n p} : client.conn.handle = some n → Holds (.run (.client p)) (.client client) (single n .accepted)
  | sending {client n len} : client.conn.handle = some n →
      Holds (.suspending (.send (some n) len) .write (.client .writeResume)) (.client client) (single n .accepted)
  | clientWaiting {client n} : client.conn.handle = some n →
      Holds (.waiting .write) (.client client) (single n .accepted)
  | refused {client n} : client.conn.handle = some n → Holds .destroying (.client client) (single n .refused)
  | start {reader} : ReaderHas reader none none → Holds (.run (.reader .start)) (.reader reader) nothing
  | connecting {reader n} : ReaderHas reader (some n) none →
      Holds (.suspending (.connect (some n)) (.reader .connect) (.reader .connectResume)) (.reader reader)
        (single n .associated)
  | connectWaiting {reader n} : ReaderHas reader (some n) none →
      Holds (.waiting (.reader .connect)) (.reader reader) (single n .connected)
  | connectComplete {reader n error bytes} : ReaderHas reader (some n) none →
      Holds (.run (.reader (.ioComplete .connect error bytes))) (.reader reader) (single n .connected)
  | connectResume {reader n} : ReaderHas reader (some n) none →
      Holds (.run (.reader .connectResume)) (.reader reader) (single n .connected)
  | reading {reader n p} : ReaderHas reader none (some n) → Reads p →
      Holds (.run (.reader p)) (.reader reader) (single n .connected)
  | receiving {reader n len} : ReaderHas reader none (some n) →
      Holds (.suspending (.receive (some n) len) (.reader .read) (.reader .readResume)) (.reader reader)
        (single n .connected)
  | readWaiting {reader n} : ReaderHas reader none (some n) →
      Holds (.waiting (.reader .read)) (.reader reader) (single n .connected)

/-- How much a connected reader does before its next operation, at the most. -/
def readRank : Awaitable.Point → Nat
  | .finish => 1
  | .loop => 2
  | .received _ => 3
  | .readResume => 4
  | _ => 5

/-- How much a coroutine does before its next operation, at the most. -/
def pointRank : Point → Frame → Nat
  | .run .stop, _ => 1
  | .run .sleep, _ => 2
  | .run .readers, .run r => 3 + 5 * (r.nReaders - r.i).toNat
  | .run .next, .run r => 4 + 5 * (r.nReaders - (r.i + 1)).toNat
  | .run .server, .run r => 8 + 5 * (r.nReaders - r.i).toNat
  | .server .accept, _ => 2
  | .server .listener, _ => 3
  | .server .served, _ => 3
  | .server .serveClient, _ => 7
  | .server .acceptResume, _ => 8
  | .server (.ioComplete ..), _ => 9
  | .client .write, _ => 2
  | .client .writeResume, _ => 3
  | .client (.ioComplete ..), _ => 4
  | .reader .start, _ => 2
  | .reader .connectResume, _ => 3
  | .reader (.ioComplete .connect _ _), _ => 4
  | .reader p, _ => readRank p
  | _, _ => 0

def rank : Doing Point Kind Call → Frame → Nat
  | .run p, frame => pointRank p frame
  | .calling p, frame => pointRank p frame + 1
  | .suspending .., _ => 1
  | .destroying, _ => 1
  | .waiting _, _ | .abandoned, _ => 0

section
variable {sync : Bool}

/-- Entries about other sockets. -/
theorem skips {r : Nat} {entries : List (Entry Call)} (away : ∀ entry ∈ entries, r ∉ handles (subject entry))
    (state : SocketState) : run (socketProtocol.step r) state entries = some state :=
  Protocol.skips fun entry member => if_neg (away entry member)

theorem exec_reads {p : Awaitable.Point} (reads : Reads p) (reader : TcpReader) (made : Nat) :
    exec (.reader p) (.reader reader) made = reader.lift (Awaitable.exec p reader.toTcpReader) := by
  cases p with
  | start => cases reads
  | connectResume => cases reads
  | _ => rfl

theorem pointRank_reads {p : Awaitable.Point} (reads : Reads p) (frame : Frame) :
    pointRank (.reader p) frame = readRank p := by
  cases p with
  | start => cases reads
  | connectResume => cases reads
  | ioComplete awaiter error bytes =>
    cases awaiter with
    | connect => cases reads
    | read => rfl
  | _ => rfl

theorem reads_unopened {p : Awaitable.Point} (reads : Reads p) : opens (.reader p) = false := by
  cases p with
  | start => cases reads
  | _ => rfl

/-- A connected reader goes on with its connection. -/
theorem reads_goto {p next : Awaitable.Point} {r r' : Awaitable.TcpReader} {calls : List Pal.Call} (reads : Reads p)
    (move : Awaitable.exec p r = .goto r' calls next) : Reads next ∧ readRank next < readRank p := by
  obtain ⟨-, ⟨error, bytes, rfl, -⟩ | ⟨error, bytes, rfl, -, -, rfl⟩ | ⟨rfl, -⟩ | ⟨rfl, -, -, rfl⟩ | ⟨rfl, -, rfl⟩ |
    ⟨bytes, rfl, ⟨-, -, rfl⟩ | ⟨-, rfl⟩⟩ | ⟨rfl, -⟩⟩ := Awaitable.exec_goto move
  · cases reads
  · exact ⟨trivial, by simp [readRank]⟩
  · cases reads
  · exact ⟨trivial, by simp [readRank]⟩
  · exact ⟨trivial, by simp [readRank]⟩
  · exact ⟨trivial, by simp [readRank]⟩
  · exact ⟨trivial, by simp [readRank]⟩
  · cases reads

/-- And receives on it. -/
theorem reads_start {p next : Awaitable.Point} {r r' : Awaitable.TcpReader} {call : Pal.Call} {kind : Awaitable.Awaiter}
    {otherwise : Option Awaitable.Point} (reads : Reads p)
    (move : Awaitable.exec p r = .start r' call kind next otherwise) :
    otherwise = none ∧ call = .receive Pal.readerSize ∧ kind = .read ∧ next = .readResume ∧ 1 < readRank p := by
  obtain ⟨rfl, ⟨rfl, -⟩ | ⟨rfl, more, -, -, rfl, rfl⟩⟩ := Awaitable.exec_start move
  · cases reads
  · simp only [Awaitable.exec, Awaitable.TcpReader.loop, if_pos more, General.Callback.Move.start.injEq] at move
    exact ⟨rfl, rfl, rfl, move.2.2.2.1.symm, by simp [readRank]⟩

/-- The local function of `run`. -/
theorem run_lawful (p : RunPoint) (r : Run) (made : Nat) :
    Lawful (code sync) socketProtocol Holds rank (.run p) (.run r) nothing made (r.exec p) := by
  cases p with
  | server =>
    refine .spawn (.runCalling (p := .readers)) (.listener ⟨rfl, rfl, rfl⟩) splits_nothing ?_
    simp only [rank, pointRank]
    omega
  | readers =>
    by_cases more : r.i < r.nReaders
    · simp only [Run.exec, Run.readers, if_pos more]
      refine .spawn .runCalling (.start ⟨rfl, rfl⟩) splits_nothing ?_
      simp only [rank, pointRank]
      omega
    · simp only [Run.exec, Run.readers, if_neg more]
      refine .goto ⟨_, .run, carries_nil _⟩ ?_
      simp only [rank, pointRank]
      omega
  | next =>
    refine .goto ⟨_, .run, carries_nil _⟩ ?_
    simp only [rank, pointRank]
    omega
  | sleep => exact .await ⟨_, .falling, carries_nil _⟩ (by simp [rank, pointRank])
  | stop => exact .exit

/-- A reader with its connection: it receives on it until it closes it. -/
theorem reading_lawful {p : Awaitable.Point} {reader : TcpReader} {n made : Nat} (has : ReaderHas reader none (some n))
    (reads : Reads p) : Lawful (code sync) socketProtocol Holds rank (.reader p) (.reader reader) (single n .connected)
      made (exec (.reader p) (.reader reader) made) := by
  have unopened : ∀ owner, grant socketProtocol ((code sync).opens (.reader p)) made owner = owner := by
    intro owner
    simp [grant, code, reads_unopened reads]
  rw [exec_reads reads]
  cases own : Awaitable.exec p reader.toTcpReader with
  | goto base calls next =>
    obtain ⟨later, lower⟩ := reads_goto reads own
    refine .goto ⟨_, .reading ⟨has.connecting, has.conn⟩ later, (unopened _).symm ▸ carries_nil _⟩ ?_
    simpa only [rank, pointRank_reads reads, pointRank_reads later] using lower
  | start base call kind next otherwise =>
    obtain ⟨rfl, rfl, rfl, rfl, lower⟩ := reads_start reads own
    simp only [TcpReader.lift, has.conn]
    refine .await ⟨_, .receiving ⟨has.connecting, has.conn⟩, (unopened _).symm ▸ carries_nil _⟩ ?_
    simpa only [rank, pointRank_reads reads] using lower
  | delete =>
    refine .finish ?_ ?_
    · simp only [code, drop, OsTcpSocket.destruct, has.connecting, has.conn]
      refine closes_single ?_ fun other apart => skips ?_
      · simp [run, socketProtocol, handles, subject, SocketState.next]
      · simpa [handles, subject] using apart
    · simp only [rank, pointRank_reads reads]
      cases p <;> simp [readRank]
  | post base call kind bytes => exact .exit
  | leave base => exact .exit

/-- What each coroutine does at each of its points. -/
theorem point_lawful {point : Point} {frame : Frame} {owner : Nat → Option SocketState} {made : Nat}
    (holds : Holds (.run point) frame owner) (unmade : ∀ r, made ≤ r → owner r = none) :
    Lawful (code sync) socketProtocol Holds rank point frame owner made (exec point frame made) := by
  cases holds with
  | @run p r => exact run_lawful p r made
  | @listener server has =>
    refine .goto ⟨_, .accept ⟨rfl, has.awaiter, has.conn⟩, carries_single ?_ fun other apart => skips ?_⟩
      (by simp [rank, pointRank])
    · simp [run, socketProtocol, handles, subject, SocketState.next]
    · simpa [handles, subject] using apart
  | @accept server l has =>
    have apart : l ≠ made := by
      rintro rfl
      have absent := unmade l le_rfl
      simp [single] at absent
    simp only [exec, Server.exec, Server.accept, has.s]
    refine .await ⟨_, .accepting ⟨has.s, rfl, has.conn⟩ apart, carries_pair apart ?_ ?_ fun other _ away => skips ?_⟩
      (by simp [rank, pointRank])
    · exact skips (by simp [handles, subject, apart]) _
    · simp [run, socketProtocol, handles, subject, SocketState.next]
    · simpa [handles, subject] using away
  | @complete server l n error bytes has apart =>
    exact .goto ⟨_, .acceptResume ⟨has.s, has.awaiter, has.conn⟩ apart, carries_nil _⟩ (by simp [rank, pointRank])
  | @acceptResume server l n has apart =>
    exact .goto ⟨_, .serveClient ⟨has.s, rfl, has.awaiter⟩ apart, carries_nil _⟩ (by simp [rank, pointRank])
  | @serveClient server l n has apart =>
    exact .spawn (.calling ⟨has.s, has.awaiter, rfl⟩) (.client has.conn) (splits_pair apart) (by simp [rank, pointRank])
  | @served server l has =>
    simp only [exec, Server.exec, Server.served, OsTcpSocket.destruct, has.conn, has.awaiter]
    exact .goto ⟨_, .accept ⟨has.s, rfl, rfl⟩, carries_nil _⟩ (by simp [rank, pointRank])
  | @client client n p conn =>
    cases p with
    | write =>
      simp only [exec, ServeClient.exec, ServeClient.write, conn]
      exact .await ⟨_, .sending conn, carries_nil _⟩ (by simp [rank, pointRank])
    | ioComplete error bytes => exact .goto ⟨_, .client conn, carries_nil _⟩ (by simp [rank, pointRank])
    | writeResume => exact .goto ⟨_, .client conn, carries_nil _⟩ (by simp [rank, pointRank])
  | @start reader has =>
    refine .await ⟨_, .connecting ⟨rfl, has.conn⟩, carries_single ?_ fun other apart => skips ?_⟩
      (by simp [rank, pointRank])
    · simp [run, socketProtocol, handles, subject, SocketState.next]
    · simpa [handles, subject] using apart
  | @connectComplete reader n error bytes has =>
    exact .goto ⟨_, .connectResume ⟨has.connecting, has.conn⟩, carries_nil _⟩ (by simp [rank, pointRank])
  | @connectResume reader n has =>
    by_cases success : reader.connect.err = 0
    · simp only [exec, TcpReader.exec, TcpReader.connectResume, success, ne_eq, not_true_eq_false, if_false]
      exact .goto ⟨_, .reading ⟨rfl, has.connecting⟩ trivial, carries_nil _⟩ (by simp [rank, pointRank, readRank])
    · simp only [exec, TcpReader.exec, TcpReader.connectResume, success, ne_eq, not_false_eq_true, if_true]
      exact .exit
  | @reading reader n p has reads => exact reading_lawful has reads

theorem verdict_later {α : Type} (pending : Option α) : verdict (pending.map fun _ => .later) ≠ .resume := by
  cases pending <;> simp [verdict]

/-- Only the awaiter of `Write` destroys its coroutine. -/
theorem verdict_not_destroy (answer : Option General.Callback.Outcome) : verdict answer ≠ .destroy := by
  rcases answer with _ | _ | _ | _ <;> simp [verdict]

/-- No awaiter goes on with an error. -/
theorem respond_not_refuse {operation : Call} {result : Pal.WsaResult} {code : Nat} :
    respond sync operation result ≠ some (.refuse code) := by
  have verdict_not_refuse : ∀ answer, verdict answer ≠ .refuse code := by
    rintro (_ | _ | _ | _) <;> simp [verdict]
  cases operation with
  | connect | accept | receive => exact fun responded => verdict_not_refuse _ (Option.some.inj responded)
  | send handle len =>
    simp only [respond, WriteAwaiter.suspend]
    split_ifs <;> simp
  | _ => simp [respond]

/-- One socket goes where an answer takes it. -/
theorem carries_answer {n : Nat} {state last : SocketState} {operation : Call} {answered : Verdict}
    (about : handles operation = [n]) (goes : state.next (.answer operation answered) = some last) :
    Carries socketProtocol (single n state) [.answer operation answered] (single n last) := by
  refine carries_single ?_ fun other apart => skips ?_
  · simp [run, socketProtocol, subject, about, goes]
  · simpa [subject, about] using apart

theorem resume_passes {operation : Call} {kind : Kind} {next : Point} {frame : Frame} {owner : Nat → Option SocketState}
    {result : Pal.WsaResult} (holds : Holds (.suspending operation kind next) frame owner)
    (responded : respond sync operation result = some .resume) :
    Passes socketProtocol Holds owner [.answer operation .resume] (.run next) frame := by
  cases holds with
  | falling => simp [respond] at responded
  | accepting has apart => exact absurd (Option.some.inj responded) (verdict_later _)
  | connecting has => exact absurd (Option.some.inj responded) (verdict_later _)
  | sending conn => exact ⟨_, .client conn, carries_answer rfl rfl⟩
  | receiving has => exact ⟨_, .reading has trivial, carries_answer rfl rfl⟩

theorem suspend_passes {operation : Call} {kind : Kind} {next : Point} {frame : Frame}
    {owner : Nat → Option SocketState}
    (holds : Holds (.suspending operation kind next) frame owner) :
    Passes socketProtocol Holds owner [.answer operation .suspend] (.waiting kind) frame := by
  cases holds with
  | falling =>
    refine ⟨_, .sleeping, fun r => .inr ⟨rfl, rfl, skips ?_⟩⟩
    simp [handles, subject]
  | @accepting server l n has apart =>
    refine ⟨_, .waiting has apart, carries_pair apart ?_ ?_ fun other first second => skips ?_⟩
    · simp [run, socketProtocol, handles, subject, SocketState.next]
    · simp [run, socketProtocol, handles, subject, SocketState.next]
    · simp [handles, subject, first, second]
  | connecting has => exact ⟨_, .connectWaiting has, carries_answer rfl rfl⟩
  | sending conn => exact ⟨_, .clientWaiting conn, carries_answer rfl rfl⟩
  | receiving has => exact ⟨_, .readWaiting has, carries_answer rfl rfl⟩

theorem destroy_passes {operation : Call} {kind : Kind} {next : Point} {frame : Frame}
    {owner : Nat → Option SocketState}
    {result : Pal.WsaResult} (holds : Holds (.suspending operation kind next) frame owner)
    (responded : respond sync operation result = some .destroy) :
    Passes socketProtocol Holds owner [.answer operation .destroy] .destroying frame := by
  cases holds with
  | falling => simp [respond] at responded
  | accepting has apart => exact absurd (Option.some.inj responded) (verdict_not_destroy _)
  | connecting has => exact absurd (Option.some.inj responded) (verdict_not_destroy _)
  | sending conn => exact ⟨_, .refused conn, carries_answer rfl rfl⟩
  | receiving has => exact absurd (Option.some.inj responded) (verdict_not_destroy _)

theorem packet_passes {kind : Kind} {frame : Frame} {owner : Nat → Option SocketState} {error bytes : Nat}
    (holds : Holds (.waiting kind) frame owner) :
    Passes socketProtocol Holds owner [] (.run (ioCompleteCallback kind error bytes)) frame := by
  cases holds with
  | sleeping => exact ⟨_, .run, carries_nil _⟩
  | waiting has apart => exact ⟨_, .complete has apart, carries_nil _⟩
  | clientWaiting conn => exact ⟨_, .client conn, carries_nil _⟩
  | connectWaiting has => exact ⟨_, .connectComplete has, carries_nil _⟩
  | readWaiting has => exact ⟨_, .reading has trivial, carries_nil _⟩

theorem program_verified (sync : Bool) : Verified (code sync) socketProtocol Holds rank where
  run := point_lawful
  returned := by
    intro next frame owner holds
    cases holds with
    | runCalling => exact ⟨⟨_, .run, carries_nil _⟩, by simp [rank]⟩
    | calling has => exact ⟨⟨_, .served has, carries_nil _⟩, by simp [rank]⟩
  destroyed := by
    intro frame owner holds
    cases holds with
    | @refused client n conn =>
      simp only [code, drop, OsTcpSocket.destruct, conn]
      refine ⟨closes_single ?_ fun other apart => skips ?_, by simp [rank]⟩
      · simp [run, socketProtocol, handles, subject, SocketState.next]
      · simpa [handles, subject] using apart
  resume := resume_passes
  suspend holds _ := suspend_passes holds
  refuse _ responded := absurd responded respond_not_refuse
  destroy := destroy_passes
  packet := packet_passes

theorem program_sound {nReaders : Int} {bytes : UInt64} {q : Pal.CompletionQueue} {begun s : ProgramState}
    {choices : List (Choice Pal.WsaResult)} (started : start nReaders bytes = some (q, begun))
    (path : run (step (code sync)) begun choices = some s) : Sound socketProtocol Holds s := by
  obtain ⟨-, rfl⟩ := start_eq.mp started
  exact (launch_sound .run).along (program_verified sync) path

end

end Await.SuperLean.Sockets
