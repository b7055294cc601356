import Await.General.TaskProgress
import Await.SuperLean.CallbackSockets

/-! What holds of `Traditional.cpp` and of `Improved.cpp` in all their runs. -/

namespace Await.SuperLean.CallbackSafety
open General.Resources General.TaskProgress General.Tasks General.Transition CallbackProgram CallbackSockets

/-- The sockets in an object. -/
def socketsOf : Frame → List Nat
  | .run _ => []
  | .server server => server.sock.handle.toList ++ server.handler.handle.toList ++ server.hdl.handle.toList
  | .writer writer => writer.conn.handle.toList
  | .reader reader => reader.conn.handle.toList

theorem server_sockets {server : Server} {sock handler hdl : Option Nat} (has : ServerHas server sock handler hdl) :
    socketsOf (.server server) = sock.toList ++ handler.toList ++ hdl.toList := by
  rw [socketsOf, has.sock, has.handler, has.hdl]

section
variable {sync : Bool} {nReaders : Int} {bytes : UInt64} {choices : List (Choice Answer)} {s : ProgramState}
  {doing : Doing Point Kind Call} {frame : Frame} {owner : Nat → Option Life} {handle : Nat} {state : Life}
  {log : List (Entry Call)}

/-- What an object owns is what is in it. -/
theorem shown (holds : Holds doing frame owner) : handle ∈ socketsOf frame ↔ owner handle ≠ none := by
  cases holds with
  | run | runCalling | falling | sleeping => simp [socketsOf, nothing]
  | listener has => simp [server_sockets has, nothing]
  | start conn => simp [socketsOf, conn, nothing]
  | accept has | starting has | started has => simp [server_sockets has, single_ne_none]
  | accepting has | waiting has | invoke has | onAccept has | startWriter has =>
    simp [server_sockets has, pair_ne_none]
  | writer conn | sending conn | posting conn | writerWaiting conn | abandoned conn =>
    simp [socketsOf, conn, single_ne_none]
  | connecting conn | reader conn | receiving conn | releasing conn | readerWaiting conn =>
    simp [socketsOf, conn, single_ne_none]

/-- And none of it is closed. -/
theorem owned_open (holds : Holds doing frame owner) (owned : owner handle = some state) :
    state ≠ .fresh ∧ state ≠ .closed := by
  cases holds <;> simp only [nothing, single_eq_some, pair_eq_some, reduceCtorEq] at owned <;>
    grind [WriterAt, ReaderAt]

/-- A listener stays a listener. -/
theorem listen_listening (listened : .call (.os (.listen (some handle))) ∈ log)
    (after : lifeProtocol.after handle log = some state) : state = .listening := by
  refine lifeProtocol.stays (· = .listening) ?_ ?_ listened after
  · rintro _ entry next rfl stepped
    simp only [lifeProtocol] at stepped
    split at stepped
    · unfold Life.next at stepped
      split at stepped <;> simp_all
    · exact (Option.some.inj stepped).symm
  · intro state next stepped
    simp only [lifeProtocol, handles, Sockets.handles, subject, Option.toList_some, List.mem_singleton, if_true]
      at stepped
    cases state <;> simp [Life.next] at stepped
    exact stepped.symm

/-- Nothing is done with a socket that is closed. -/
theorem closesocket_closed (called : .call (.os (.closesocket handle)) ∈ log)
    (after : lifeProtocol.after handle log = some state) : state = .closed := by
  refine lifeProtocol.stays (· = .closed) ?_ ?_ called after
  · rintro _ entry next rfl stepped
    simp only [lifeProtocol] at stepped
    split at stepped
    · simp [Life.next] at stepped
    · exact (Option.some.inj stepped).symm
  · intro state next stepped
    simp only [lifeProtocol, handles, Sockets.handles, subject, List.mem_singleton, if_true] at stepped
    cases state <;> simp [Life.next] at stepped
    · exact stepped.symm
    · exact stepped.symm

/-- The states of the sockets that the server accepts on. -/
def Kept (state : Life) : Prop := state = .listening ∨ state = .accepting ∨ state = .accepted ∨ state = .refused

theorem accept_kept {sock : Option Nat} (accepted : .answer (.os (.accept sock (some handle))) .suspend ∈ log)
    (after : lifeProtocol.after handle log = some state) : Kept state := by
  refine lifeProtocol.stays Kept ?_ ?_ accepted after
  · rintro state entry next kept stepped
    simp only [lifeProtocol] at stepped
    split at stepped
    · unfold Life.next at stepped
      split at stepped <;> simp_all [Kept]
    · exact Option.some.inj stepped ▸ kept
  · intro state next stepped
    simp only [lifeProtocol, handles, Sockets.handles, subject, Option.toList_some, List.mem_append,
      List.mem_singleton, or_true, if_true] at stepped
    cases state <;> simp [Life.next] at stepped
    · simp [Kept, ← stepped]
    · simp [Kept, ← stepped]

/-- Only the server has a listener. -/
theorem listening_server (holds : Holds doing frame owner) (owned : owner handle = some .listening) :
    ∃ server, frame = .server server ∧ server.sock.handle = some handle := by
  cases holds with
  | accept has | starting has | started has =>
    obtain ⟨rfl, -⟩ := single_eq_some.mp owned
    exact ⟨_, rfl, has.sock⟩
  | accepting has | waiting has | invoke has | onAccept has | startWriter has =>
    rcases pair_eq_some.mp owned with ⟨-, other⟩ | ⟨-, rfl, -⟩
    · cases other
    · exact ⟨_, rfl, has.sock⟩
  | run | runCalling | falling | sleeping | listener | start => simp [nothing] at owned
  | writer _ fits | reader _ fits =>
    obtain ⟨-, rfl⟩ := single_eq_some.mp owned
    simp [WriterAt, ReaderAt] at fits
  | abandoned _ has | releasing _ has =>
    obtain ⟨-, rfl⟩ := single_eq_some.mp owned
    simp at has
  | _ => simp [single_eq_some] at owned

end

/-- No thread touches an object that has been deleted. Every object is in one hand, a call on
the stack of one thread or one operation in flight, or it is a writer that nobody has any
more. -/
theorem objects_safe (sync : Bool) (nReaders : Int) (bytes : UInt64) (q : Pal.CompletionQueue)
    (choices : List (Choice Answer)) (begun s : ProgramState)
    (started : CallbackProgram.start nReaders bytes = some (q, begun))
    (path : run (step (code sync)) begun choices = some s) :
    s.fault = false ∧ (s.abandoned ++ s.parties.map Party.task).Nodup ∧
      (∀ id, (s.frames id).isSome ↔ id ∈ s.abandoned ++ s.parties.map Party.task) ∧
      ∀ id ∈ s.abandoned, ∃ writer, s.frames id = some (.writer writer) := by
  have sound := program_sound started path
  obtain ⟨faultless, alone, everybody⟩ := sound.apart
  refine ⟨faultless, alone, everybody, fun id member => ?_⟩
  obtain ⟨frame, owner, present, holds⟩ := sound.abandoned member
  cases holds
  exact ⟨_, present⟩

/-- A connection is accepted, and the first send on it is refused; and one of two readers
cannot connect. -/
def failing : List (Choice Answer) :=
  [.thread 0, .thread 0, .respond 0 (.wsa .pending), .thread 0, .thread 0, .thread 0, .thread 0,
    .respond 0 (.wsa .pending), .thread 0, .thread 0, .thread 0, .thread 0, .thread 0, .thread 0,
    .respond 0 (.wsa .pending), .packet 2 0 0, .thread 1, .thread 1, .thread 1, .thread 1,
    .respond 1 (.wsa (.socketError Pal.kConnectionReset (Nat.succ_ne_zero 10053))), .thread 1, .thread 1, .thread 1, .thread 1,
    .packet 0 10061 0, .thread 2, .thread 2, .respond 2 (.workCount 1), .thread 2]

/-- The reader is gone, and nobody has the writer. -/
theorem objects_safe_failing : ∃ q begun s, CallbackProgram.start 2 8192 = some (q, begun) ∧
    run (step (code false)) begun failing = some s ∧
    s.abandoned = [4] ∧ s.frames 1 = none ∧
    (s.fault = false ∧ (s.abandoned ++ s.parties.map Party.task).Nodup ∧
      (∀ id, (s.frames id).isSome ↔ id ∈ s.abandoned ++ s.parties.map Party.task) ∧
      ∀ id ∈ s.abandoned, ∃ writer, s.frames id = some (.writer writer)) :=
  ⟨_, _, _, rfl, rfl, rfl, rfl, objects_safe false 2 8192 _ failing _ _ rfl rfl⟩

/-- Every socket goes through its life in order. It is open as long as there is an object that
has it, and no two objects have it. The server's side of a connection is never closed. -/
theorem sockets_live (sync : Bool) (nReaders : Int) (bytes : UInt64) (q : Pal.CompletionQueue)
    (choices : List (Choice Answer)) (begun s : ProgramState)
    (started : CallbackProgram.start nReaders bytes = some (q, begun))
    (path : run (step (code sync)) begun choices = some s) :
    (∀ handle, ∃ state, lifeProtocol.after handle s.log = some state ∧ (state = .fresh ↔ s.made ≤ handle) ∧
      ((∃ id frame, s.frames id = some frame ∧ handle ∈ socketsOf frame) ↔ handle < s.made ∧ state ≠ .closed)) ∧
    (∀ id id' frame frame' handle, s.frames id = some frame → s.frames id' = some frame' →
      handle ∈ socketsOf frame → handle ∈ socketsOf frame' → id = id') ∧
    ∀ sock handle, .answer (.os (.accept sock (some handle))) .suspend ∈ s.log →
      .call (.os (.closesocket handle)) ∉ s.log := by
  have shows : ∀ doing frame owner, Holds doing frame owner →
      ∀ handle, handle ∈ socketsOf frame ↔ owner handle ≠ none :=
    fun _ _ _ holds _ => shown holds
  have opened : ∀ doing frame owner, Holds doing frame owner → ∀ handle state, owner handle = some state →
      state ≠ .fresh ∧ state ≠ .closed := fun _ _ _ holds _ _ owned => owned_open holds owned
  have sound := program_sound started path
  have ledger := sound.ledger shows opened nofun
  refine ⟨ledger, (sound.holders shows).1, fun sock handle accepted closed => ?_⟩
  obtain ⟨state, after, -⟩ := ledger handle
  obtain rfl := closesocket_closed closed after
  have kept := accept_kept accepted after
  simp [Kept] at kept

/-- The reader's socket is closed, and the writer's is not. -/
theorem sockets_live_failing : ∃ q begun s, CallbackProgram.start 2 8192 = some (q, begun) ∧
    run (step (code false)) begun failing = some s ∧
    lifeProtocol.after 0 s.log = some .closed ∧ lifeProtocol.after 3 s.log = some .refused ∧
    ∀ handle, ∃ state, lifeProtocol.after handle s.log = some state ∧ (state = .fresh ↔ s.made ≤ handle) ∧
      ((∃ id frame, s.frames id = some frame ∧ handle ∈ socketsOf frame) ↔ handle < s.made ∧ state ≠ .closed) :=
  ⟨_, _, _, rfl, rfl, rfl, rfl, (sockets_live false 2 8192 _ failing _ _ rfl rfl).1⟩

/-- All threads have returned. Every object waits for an operation, or is a writer that is
done; there is a listener, and its server has an accept in flight. -/
structure Serving (s : ProgramState) : Prop where
  resting : ∀ stack ∈ s.threads, stack = []
  waits : ∀ id frame, s.frames id = some frame → (∃ a ∈ s.attached, a.task = id) ∨
    id ∈ s.abandoned ∧ ∃ writer, frame = .writer writer
  listens : ∃ handle, .call (.os (.listen (some handle))) ∈ s.log
  accepts : ∀ handle, .call (.os (.listen (some handle))) ∈ s.log → ∃ a ∈ s.attached, a.kind = .accept ∧
    ∃ server, s.frames a.task = some (.server server) ∧ server.sock.handle = some handle

/-- An operation is pending, and a reader that is done is not the last one. -/
def Calm : Answer → Prop
  | .wsa result => result = .pending
  | .workCount left => left ≠ 0

/-- The sleep is over, or an accept has failed. -/
def Near : Point → Frame → Prop
  | .run .stop, _ => True
  | .server (.invoke ec), _ | .server (.loop (.onAccept ec)), _ => ec ≠ 0
  | _, _ => False

section
variable {s : ProgramState}

/-- The tracker answers at once; everything else can be left pending. -/
theorem program_settles (sync : Bool) : Settles (code sync) Holds rank Calm where
  answered holds := by
    cases holds with
    | releasing conn has called =>
      refine ⟨.workCount 1, one_ne_zero, ?_⟩
      rcases called with rfl | ⟨ec, rfl⟩ <;> rfl
    | _ => exact ⟨.wsa .pending, rfl, rfl⟩
  lowers := by
    intro operation kind next frame owner result verdict holds calm responded
    cases result with
    | wsa result =>
      obtain rfl : result = .pending := calm
      cases holds with
      | releasing conn has called => rcases called with rfl | ⟨ec, rfl⟩ <;> cases responded
      | _ => exact .inl ⟨(Option.some.inj responded).symm, by simp [rank]⟩
    | workCount left =>
      cases holds with
      | releasing conn has called =>
        have goes_on : respond sync operation (.workCount left) = some .resume := by
          rcases called with rfl | ⟨ec, rfl⟩ <;> exact congrArg some (if_neg calm)
        have same : some verdict = some .resume := responded.symm.trans goes_on
        exact .inr ⟨Option.some.inj same, by simp [rank, pointRank, readerRank]⟩
      | _ => cases responded

/-- A writer does not come to the end. -/
theorem writer_averts (p : Writer.Point) (writer : TcpWriter) (made : Nat) :
    Averts Near (exec (.writer p) (.writer writer) made) := by
  cases p with
  | onWrite ec nBytes =>
    by_cases success : ec = 0 <;>
      simp [exec, TcpWriter.exec, Writer.exec, Writer.TcpWriter.onWrite, TcpWriter.lift, success, Averts, Near]
  | onError ec =>
    by_cases reset : ec = Pal.kConnectionReset <;>
      simp [exec, TcpWriter.exec, Writer.exec, Writer.TcpWriter.onError, TcpWriter.lift, reset, Averts, Near]
  | _ => trivial

/-- Nor does a reader, which only tells the tracker. -/
theorem reader_averts (p : Reader.Point) (reader : TcpReader) (made : Nat) :
    Averts Near (exec (.reader p) (.reader reader) made) := by
  cases p with
  | onConnect ec =>
    by_cases success : ec = 0 <;>
      simp [exec, TcpReader.exec, Reader.exec, Reader.TcpReader.onConnect, TcpReader.lift, success, Averts, Near]
  | onRead ec bytesRead =>
    by_cases success : ec = 0 <;>
      simp [exec, TcpReader.exec, Reader.exec, Reader.TcpReader.onRead, TcpReader.lift, success, Averts, Near]
  | readLoop bytesRead =>
    by_cases last : reader.total - bytesRead ≤ 0 ∨ bytesRead = 0
    · simp [exec, TcpReader.exec, Reader.exec_readLoop_last last, TcpReader.lift, Averts, Near]
    · simp [exec, TcpReader.exec, Reader.exec_readLoop_more last, TcpReader.lift, Averts]
  | _ => trivial

theorem program_foreseen (sync : Bool) : Foreseen (code sync) Holds Near where
  run := by
    intro point frame owner made holds far
    cases holds with
    | @run p r =>
      cases p with
      | stop => exact absurd trivial far
      | readers =>
        simp only [code, exec, Run.exec, Run.readers]
        split <;> simp [Averts, Near]
      | _ => simp [code, exec, Run.exec, Run.server, Averts, Near]
    | accept has accepts => rcases accepts with rfl | rfl <;> trivial
    | invoke has apart => exact far
    | @onAccept server l n ec has apart =>
      obtain rfl : ec = 0 := not_not.mp far
      exact id
    | startWriter has apart accepts => exact ⟨id, id⟩
    | started has accepts => rcases accepts with rfl | rfl <;> exact id
    | @writer writer n p state conn fits => exact writer_averts p writer made
    | @reader reader n p state conn fits => exact reader_averts p reader made
    | start conn => trivial
    | _ => exact id
  resume := by
    intro operation kind next frame owner result holds responded
    cases holds with
    | falling => cases result <;> cases responded
    | accepting has apart =>
      rcases respond_pending (.inl ⟨_, _, rfl⟩) responded with pending | ended
      · cases pending
      · cases ended
    | _ => exact id

/-- The listener has not been opened. -/
def Unopened : Doing Point Kind Call → Prop
  | .run (.run .readers) | .run (.run .next) | .run (.run .server) | .run (.server .listener) | .calling (.run .next) =>
      True
  | _ => False

def Listens (call : Call) : Prop := ∃ handle, call = .os (.listen (some handle))

/-- First `run` starts the readers, then the server. -/
theorem program_dutiful (sync : Bool) : Dutiful (code sync) Holds Unopened Listens where
  run := by
    intro point frame owner made holds due
    cases holds with
    | @run p r =>
      cases p with
      | readers =>
        by_cases more : r.i < r.nReaders
        · simp [code, exec, Run.exec, Run.readers, more, Discharges, Unopened]
        · simp [code, exec, Run.exec, Run.readers, more, Discharges, Unopened]
      | next => exact .inl trivial
      | server => exact .inl trivial
      | _ => exact due.elim
    | listener has =>
      refine .inr ⟨_, ?_, made, rfl⟩
      simp
    | _ => exact due.elim
  returned := by
    intro next due
    cases next with
    | run p =>
      cases p with
      | next => exact trivial
      | _ => exact due.elim
    | _ => exact due.elim
  running := by
    intro doing due
    cases doing with
    | run point => exact .inl ⟨point, rfl⟩
    | calling next => exact .inr ⟨next, rfl⟩
    | _ => exact due.elim

/-- At rest, what is not on a thread is in flight, or done. -/
theorem rest_serving (sound : Sound lifeProtocol Holds s) (resting : ∀ stack ∈ s.threads, stack = []) :
    (∀ id frame, s.frames id = some frame → (∃ a ∈ s.attached, a.task = id) ∨
      id ∈ s.abandoned ∧ ∃ writer, frame = .writer writer) ∧
    ∀ handle, .call (.os (.listen (some handle))) ∈ s.log → ∃ a ∈ s.attached, a.kind = .accept ∧
      ∃ server, s.frames a.task = some (.server server) ∧ server.sock.handle = some handle := by
  refine ⟨fun id frame found => ?_, fun handle listened => ?_⟩
  · rcases sound.resting resting found with ⟨a, member, same, -⟩ | ⟨left, owner, holds⟩
    · exact .inl ⟨a, member, same⟩
    · cases holds
      exact .inr ⟨left, _, rfl⟩
  have shows : ∀ doing frame owner, Holds doing frame owner →
      ∀ handle, handle ∈ socketsOf frame ↔ owner handle ≠ none :=
    fun _ _ _ holds _ => shown holds
  obtain ⟨state, after, owners⟩ := (sound.holders shows).2 handle
  obtain rfl := listen_listening listened after
  rcases owners with ⟨id, doing, frame, owner, found, holds, owned, -⟩ | ⟨-, rest⟩
  · obtain ⟨server, rfl, has⟩ := listening_server holds owned
    rcases sound.resting resting found with ⟨⟨task, kind⟩, member, rfl, owner', holds'⟩ | ⟨-, owner', holds'⟩
    · refine ⟨_, member, ?_, server, found, has⟩
      cases holds'
      rfl
    · cases holds'
  · split at rest <;> cases rest

end

end Await.SuperLean.CallbackSafety
