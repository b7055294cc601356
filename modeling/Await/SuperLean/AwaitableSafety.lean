import Await.General.TaskProgress
import Await.SuperLean.Sockets

/-! What holds of `Awaitable.cpp` in all its runs. -/

namespace Await.SuperLean.AwaitableSafety
open General.Resources General.TaskProgress General.Tasks General.Transition Program Sockets

/-- The sockets that the objects in a frame are left with. -/
def socketsOf : Frame → List Nat
  | .run _ => []
  | .server server => server.s.handle.toList ++ server.awaiter.sock.handle.toList ++ server.conn.handle.toList
  | .client client => client.conn.handle.toList
  | .reader reader => reader.connecting.handle.toList ++ reader.conn.handle.toList

theorem server_sockets {server : Server} {s awaiter conn : Option Nat} (has : ServerHas server s awaiter conn) :
    socketsOf (.server server) = s.toList ++ awaiter.toList ++ conn.toList := by
  rw [socketsOf, has.s, has.awaiter, has.conn]

theorem reader_sockets {reader : TcpReader} {connecting conn : Option Nat} (has : ReaderHas reader connecting conn) :
    socketsOf (.reader reader) = connecting.toList ++ conn.toList := by
  rw [socketsOf, has.connecting, has.conn]

section
variable {sync : Bool} {nReaders : Int} {bytes : UInt64} {choices : List (Choice Pal.WsaResult)} {s : ProgramState}
  {doing : Doing Point Kind Call} {frame : Frame} {owner : Nat → Option SocketState} {handle : Nat}
  {state : SocketState}

/-- What a coroutine owns is what its objects are left with. -/
theorem shown (holds : Holds doing frame owner) : handle ∈ socketsOf frame ↔ owner handle ≠ none := by
  cases holds with
  | run | runCalling | falling | sleeping => simp [socketsOf, nothing]
  | listener has => simp [server_sockets has, nothing]
  | start has => simp [reader_sockets has, nothing]
  | accept has | calling has | served has => simp [server_sockets has, single_ne_none]
  | accepting has | waiting has | complete has | acceptResume has | serveClient has =>
    simp [server_sockets has, pair_ne_none]
  | client conn | sending conn | clientWaiting conn | refused conn => simp [socketsOf, conn, single_ne_none]
  | connecting has | connectWaiting has | connectComplete has | connectResume has =>
    simp [reader_sockets has, single_ne_none]
  | reading has | receiving has | readWaiting has => simp [reader_sockets has, single_ne_none]

/-- And none of it is closed. -/
theorem owned_open (holds : Holds doing frame owner) (owned : owner handle = some state) :
    state ≠ .fresh ∧ state ≠ .closed := by
  cases holds <;> simp only [nothing, single_eq_some, pair_eq_some, reduceCtorEq] at owned <;> grind

/-- A listener stays a listener. -/
theorem listen_listening {log : List (Entry Call)} (listened : .call (.listen (some handle)) ∈ log)
    (after : socketProtocol.after handle log = some state) : state = .listening := by
  refine socketProtocol.stays (· = .listening) ?_ ?_ listened after
  · rintro _ entry next rfl stepped
    simp only [socketProtocol] at stepped
    split at stepped
    · unfold SocketState.next at stepped
      split at stepped <;> simp_all
    · exact (Option.some.inj stepped).symm
  · intro state next stepped
    simp only [socketProtocol, handles, subject, Option.toList_some, List.mem_singleton, if_true] at stepped
    cases state <;> simp [SocketState.next] at stepped
    exact stepped.symm

/-- Only a server has a listener. -/
theorem listening_server (holds : Holds doing frame owner) (owned : owner handle = some .listening) :
    ∃ server, frame = .server server ∧ server.s.handle = some handle := by
  cases holds with
  | accept has | calling has | served has =>
    obtain ⟨rfl, -⟩ := single_eq_some.mp owned
    exact ⟨_, rfl, has.s⟩
  | accepting has | waiting has | complete has | acceptResume has | serveClient has =>
    rcases pair_eq_some.mp owned with ⟨-, other⟩ | ⟨-, rfl, -⟩
    · cases other
    · exact ⟨_, rfl, has.s⟩
  | run | runCalling | falling | sleeping | listener | start => simp [nothing] at owned
  | _ => simp [single_eq_some] at owned

/-- Nobody leaves a coroutine without having it in hand. -/
theorem program_apart (sound : Sound socketProtocol Holds s) :
    s.fault = false ∧ (s.parties.map Party.task).Nodup ∧
      ∀ id, (s.frames id).isSome ↔ id ∈ s.parties.map Party.task := by
  have all_in_hand : s.abandoned = [] := by
    refine List.eq_nil_iff_forall_not_mem.mpr fun id member => ?_
    obtain ⟨frame, owner, -, holds⟩ := sound.abandoned member
    cases holds
  have apart := sound.apart
  rw [all_in_hand, List.nil_append] at apart
  exact apart

end

/-- No thread of the program touches the frame of a coroutine that has been destroyed. Every
frame is in one hand: one call on the stack of one thread, or one operation in flight. -/
theorem frames_safe (sync : Bool) (nReaders : Int) (bytes : UInt64) (q : Pal.CompletionQueue)
    (choices : List (Choice Pal.WsaResult)) (begun s : ProgramState) (started : start nReaders bytes = some (q, begun))
    (path : run (step (code sync)) begun choices = some s) :
    s.fault = false ∧ (s.parties.map Party.task).Nodup ∧
      ∀ id, (s.frames id).isSome ↔ id ∈ s.parties.map Party.task :=
  program_apart (program_sound started path)

/-- A connection is accepted, and the first send on it is refused. -/
def refused : List (Choice Pal.WsaResult) :=
  [.thread 0, .thread 0, .thread 0, .respond 0 .pending, .packet 0 0 0, .thread 1, .thread 1, .thread 1, .thread 1,
    .respond 1 (.socketError Pal.kConnectionReset (by decide)), .thread 1, .thread 1, .thread 1]

theorem frames_safe_refused : ∃ q begun s, start 1 8192 = some (q, begun) ∧
    run (step (code false)) begun refused = some s ∧ s.frames 2 = none ∧
    (s.fault = false ∧ (s.parties.map Party.task).Nodup ∧ ∀ id, (s.frames id).isSome ↔ id ∈ s.parties.map Party.task) :=
  ⟨_, _, _, rfl, rfl, rfl, frames_safe false 1 8192 _ refused _ _ rfl rfl⟩

/-- Every socket goes through the states of its protocol. It is open as long as there is a
frame that has it, and no two frames have it. -/
theorem sockets_in_order (sync : Bool) (nReaders : Int) (bytes : UInt64) (q : Pal.CompletionQueue)
    (choices : List (Choice Pal.WsaResult)) (begun s : ProgramState) (started : start nReaders bytes = some (q, begun))
    (path : run (step (code sync)) begun choices = some s) :
    (∀ handle, ∃ state, socketProtocol.after handle s.log = some state ∧ (state = .fresh ↔ s.made ≤ handle) ∧
      ((∃ id frame, s.frames id = some frame ∧ handle ∈ socketsOf frame) ↔ handle < s.made ∧ state ≠ .closed)) ∧
    ∀ id id' frame frame' handle, s.frames id = some frame → s.frames id' = some frame' →
      handle ∈ socketsOf frame → handle ∈ socketsOf frame' → id = id' := by
  have shows : ∀ doing frame owner, Holds doing frame owner →
      ∀ handle, handle ∈ socketsOf frame ↔ owner handle ≠ none :=
    fun _ _ _ holds _ => shown holds
  have opened : ∀ doing frame owner, Holds doing frame owner → ∀ handle state, owner handle = some state →
      state ≠ .fresh ∧ state ≠ .closed := fun _ _ _ holds _ _ owned => owned_open holds owned
  have sound := program_sound started path
  exact ⟨sound.ledger shows opened nofun, (sound.holders shows).1⟩

/-- Its socket is closed, and the listener's is not. -/
theorem sockets_in_order_refused : ∃ q begun s, start 1 8192 = some (q, begun) ∧
    run (step (code false)) begun refused = some s ∧
    socketProtocol.after 0 s.log = some .listening ∧ socketProtocol.after 1 s.log = some .closed ∧
    ∀ handle, ∃ state, socketProtocol.after handle s.log = some state ∧ (state = .fresh ↔ s.made ≤ handle) ∧
      ((∃ id frame, s.frames id = some frame ∧ handle ∈ socketsOf frame) ↔ handle < s.made ∧ state ≠ .closed) :=
  ⟨_, _, _, rfl, rfl, rfl, rfl, (sockets_in_order false 1 8192 _ refused _ _ rfl rfl).1⟩

/-- All threads have returned. Every coroutine waits for an operation; there is a listener,
and who listens has an accept in flight. -/
structure Serving (s : ProgramState) : Prop where
  resting : ∀ stack ∈ s.threads, stack = []
  waits : ∀ id frame, s.frames id = some frame → ∃ a ∈ s.attached, a.task = id
  listens : ∃ handle, .call (.listen (some handle)) ∈ s.log
  accepts : ∀ handle, .call (.listen (some handle)) ∈ s.log → ∃ a ∈ s.attached, a.kind = .accept ∧
    ∃ server, s.frames a.task = some (.server server) ∧ server.s.handle = some handle

/-- The sleep is over, or a connection could not be made. -/
def Near : Point → Frame → Prop
  | .run .stop, _ => True
  | .reader (.ioComplete .connect error _), _ => error ≠ 0
  | .reader .connectResume, .reader reader => reader.connect.err ≠ 0
  | _, _ => False

section
variable {sync : Bool} {s : ProgramState}

theorem program_settles (sync : Bool) : Settles (code sync) Holds rank (· = .pending) where
  answered holds := by
    refine ⟨.pending, rfl, ?_⟩
    cases holds <;> rfl
  lowers := by
    rintro operation kind next frame owner result verdict holds rfl responded
    have suspends : respond sync operation .pending = some .suspend := by
      cases holds <;> rfl
    have same : some verdict = some .suspend := responded.symm.trans suspends
    exact .inl ⟨Option.some.inj same, by simp [rank]⟩

/-- A reader with its connection does not come to the end. -/
theorem reads_far {p : Awaitable.Point} (reads : Reads p) (frame : Frame) : ¬Near (.reader p) frame := by
  cases p with
  | ioComplete awaiter error bytes => cases awaiter <;> simp_all [Reads, Near]
  | connectResume => cases reads
  | _ => exact id

theorem reading_averts {p : Awaitable.Point} {reader : TcpReader} {made : Nat} (reads : Reads p) :
    Averts Near (exec (.reader p) (.reader reader) made) := by
  rw [exec_reads reads]
  cases own : Awaitable.exec p reader.toTcpReader with
  | goto base calls next => exact reads_far (reads_goto reads own).1 _
  | start base call kind next otherwise =>
    obtain ⟨rfl, rfl, -⟩ := reads_start reads own
    trivial
  | delete => trivial
  | post base call kind bytes => exact (Awaitable.exec_rest p _).1 _ _ _ _ own
  | leave base => exact (Awaitable.exec_rest p _).2.1 _ own

theorem program_foreseen (sync : Bool) : Foreseen (code sync) Holds Near where
  run := by
    intro point frame owner made holds far
    cases holds with
    | @run p r =>
      cases p with
      | stop => exact absurd trivial far
      | readers =>
        simp only [code, exec, Run.exec, Run.readers]
        split <;> simp [Averts, Near]
      | _ => simp [code, exec, Run.exec, Run.server, Averts, Near]
    | @client client n p conn => cases p <;> simp [code, exec, ServeClient.exec, ServeClient.write, Averts, Near]
    | accept has => trivial
    | serveClient has apart => exact ⟨id, id⟩
    | connectComplete has => exact far
    | @connectResume reader n has =>
      simp only [Near, not_not] at far
      simp [code, exec, TcpReader.exec, TcpReader.connectResume, far, Averts, Near]
    | reading has reads => exact reading_averts reads
    | start has => trivial
    | _ => exact id
  resume := by
    intro operation kind next frame owner result holds responded
    cases holds with
    | falling => simp [code, respond] at responded
    | accepting has apart => exact id
    | connecting has => exact absurd (Option.some.inj responded) (verdict_later _)
    | sending conn => exact id
    | receiving has => exact id

/-- The listener has not been opened. -/
def Unopened : Doing Point Kind Call → Prop
  | .run (.run .server) | .run (.server .listener) => True
  | _ => False

def Listens (call : Call) : Prop := ∃ handle, call = .listen (some handle)

theorem program_dutiful (sync : Bool) : Dutiful (code sync) Holds Unopened Listens where
  run := by
    intro point frame owner made holds due
    cases holds with
    | @run p r =>
      cases p with
      | server => exact .inl trivial
      | _ => exact due.elim
    | listener has =>
      refine .inr ⟨_, ?_, made, rfl⟩
      simp
    | _ => exact due.elim
  returned due := due.elim
  running := by
    intro doing due
    cases doing with
    | run point => exact .inl ⟨point, rfl⟩
    | _ => exact due.elim

/-- At rest, what is not on a thread is in flight. -/
theorem rest_serving (sound : Sound socketProtocol Holds s) (resting : ∀ stack ∈ s.threads, stack = []) :
    (∀ id frame, s.frames id = some frame → ∃ a ∈ s.attached, a.task = id) ∧
    ∀ handle, .call (.listen (some handle)) ∈ s.log → ∃ a ∈ s.attached, a.kind = .accept ∧
      ∃ server, s.frames a.task = some (.server server) ∧ server.s.handle = some handle := by
  have waits : ∀ {id frame}, s.frames id = some frame →
      ∃ a ∈ s.attached, a.task = id ∧ ∃ owner, Holds (.waiting a.kind) frame owner := by
    intro id frame found
    refine (sound.resting resting found).resolve_right ?_
    rintro ⟨-, owner, holds⟩
    cases holds
  refine ⟨fun id frame found => ?_, fun handle listened => ?_⟩
  · obtain ⟨a, member, same, -⟩ := waits found
    exact ⟨a, member, same⟩
  have shows : ∀ doing frame owner, Holds doing frame owner →
      ∀ handle, handle ∈ socketsOf frame ↔ owner handle ≠ none :=
    fun _ _ _ holds _ => shown holds
  obtain ⟨state, after, owners⟩ := (sound.holders shows).2 handle
  obtain rfl := listen_listening listened after
  rcases owners with ⟨id, doing, frame, owner, found, holds, owned, -⟩ | ⟨-, rest⟩
  · obtain ⟨server, rfl, has⟩ := listening_server holds owned
    obtain ⟨⟨task, kind⟩, member, rfl, owner', holds'⟩ := waits found
    refine ⟨_, member, ?_, server, found, has⟩
    cases holds'
    rfl
  · split at rest <;> cases rest

end

/-- Whatever has happened: as long as no packet comes and the system leaves the operations
pending, the threads of the program return, however they take turns, and its listener waits
for the next connection. It ends on the way only if it was about to. And the pool has a thread
for the next packet. -/
theorem comes_to_serve (sync : Bool) (nReaders : Int) (bytes : UInt64) (q : Pal.CompletionQueue)
    (choices : List (Choice Pal.WsaResult)) (begun s : ProgramState) (some_thread : -4 < nReaders)
    (started : start nReaders bytes = some (q, begun)) (path : run (step (code sync)) begun choices = some s) :
    (∃ place, (q.t place).isSome) ∧ Inevitable (step (code sync)) (Quiet (· = .pending))
      (fun t => Serving t ∨ t.exited = true ∧ (s.exited = true ∨ Ending Near s)) s := by
  obtain ⟨pool, rfl⟩ := start_eq.mp started
  have busy : Busy s := run_invariant (fun _ _ _ busy stepped => busy.step stepped) path launch_busy
  refine ⟨⟨0, by simp [(Pal.pool_manned pool).mpr some_thread]⟩, ?_⟩
  have owed : Owed Unopened Listens s := by
    refine Owed.along (program_verified sync) (program_dutiful sync) (launch_sound .run) ?_ path
    exact launch_owed trivial
  refine (comes_to_rest_done (program_verified sync) (program_settles sync) (program_foreseen sync)
    (program_dutiful sync) (program_sound started path) busy owed).mono ?_
  rintro t (⟨sound, resting, call, ⟨handle, rfl⟩, listened⟩ | ended)
  · obtain ⟨waits, accepts⟩ := rest_serving sound resting
    exact .inl ⟨resting, waits, ⟨handle, listened⟩, accepts⟩
  · exact .inr ended

theorem comes_to_serve_refused : ∃ q begun s, start 1 8192 = some (q, begun) ∧
    run (step (code false)) begun refused = some s ∧
    (∃ place, (q.t place).isSome) ∧ Inevitable (step (code false)) (Quiet (· = .pending))
      (fun t => Serving t ∨ t.exited = true ∧ (s.exited = true ∨ Ending Near s)) s :=
  ⟨_, _, _, rfl, rfl, comes_to_serve false 1 8192 _ refused _ _ (by decide) rfl rfl⟩

end Await.SuperLean.AwaitableSafety
