import Await.SuperLean.CallbackProgram
import Await.SuperLean.Sockets

/-! What becomes of the sockets and of the objects of `Traditional.cpp` and `Improved.cpp`,
whichever thread runs when and whatever the system answers. -/

namespace Await.SuperLean.CallbackSockets
open General.Resources General.Tasks General.Transition CallbackProgram

/-- The life of a socket. One that a connection was accepted on is never closed. After an
operation on a socket was refused no other is started on it. -/
inductive Life where
  | fresh | opened | bound | associated | listening | accepting | accepted | refused | connected | failed | closed
  deriving DecidableEq, Repr

def handles : Call → List Nat
  | .os call => Sockets.handles call
  | _ => []

def subject : Entry Call → Call
  | .call call => call
  | .answer operation _ => operation

/-- Where an entry that is about it takes a socket. -/
def Life.next : Life → Entry Call → Option Life
  | .fresh, .call (.os (.socket _)) => some .opened
  | .opened, .call (.os (.bind _)) => some .bound
  | .bound, .call (.os (.associateHandle _)) => some .associated
  | .associated, .call (.os (.listen _)) => some .listening
  | .listening, .answer (.os (.accept _ _)) .suspend => some .listening
  | .opened, .answer (.os (.accept _ _)) .suspend => some .accepting
  | .accepting, .call (.os (.associateHandle _)) => some .accepted
  | .accepted, .answer (.os (.send _ _)) .resume => some .accepted
  | .accepted, .answer (.os (.send _ _)) .suspend => some .accepted
  | .accepted, .answer (.os (.send _ _)) (.refuse _) => some .refused
  | .associated, .answer (.os (.connect _)) .suspend => some .connected
  | .connected, .answer (.os (.receive _ _)) .resume => some .connected
  | .connected, .answer (.os (.receive _ _)) .suspend => some .connected
  | .connected, .answer (.os (.receive _ _)) (.refuse _) => some .failed
  | .connected, .call (.os (.closesocket _)) => some .closed
  | .failed, .call (.os (.closesocket _)) => some .closed
  | _, _ => none

def lifeProtocol : Protocol (Entry Call) Life where
  step r state entry := if r ∈ handles (subject entry) then state.next entry else some state
  fresh := .fresh
  closed := .closed

/-- The sockets in the objects of the server. -/
structure ServerHas (server : Server) (sock handler hdl : Option Nat) : Prop where
  sock : server.sock.handle = sock
  handler : server.handler.handle = handler
  hdl : server.hdl.handle = hdl

/-- Where the server starts an accept. -/
def Accepts (p : AcceptLoop.Point) : Prop := p = .start ∨ p = .accept

/-- Where a writer ends after an error. -/
def Quits : Writer.Point → Prop
  | .onWrite ec _ => ec ≠ 0
  | .onError _ | .onComplete => True
  | _ => False

/-- Where a reader ends after an error. -/
def Fails : Reader.Point → Prop
  | .onConnect ec | .onRead ec _ => ec ≠ 0
  | .onError _ | .cleanMe => True
  | _ => False

/-- In which state a writer has its socket. -/
def WriterAt (p : Writer.Point) (state : Life) : Prop := state = .accepted ∨ state = .refused ∧ Quits p

/-- In which state a reader has its socket. -/
def ReaderAt (p : Reader.Point) (state : Life) : Prop := state = .connected ∧ p ≠ .start ∨ state = .failed ∧ Fails p

theorem WriterAt.quits {p : Writer.Point} {state : Life} (has : state = .accepted ∨ state = .refused) (quits : Quits p) :
    WriterAt p state :=
  has.imp id fun refused => ⟨refused, quits⟩

theorem ReaderAt.fails {p : Reader.Point} {state : Life} (has : state = .connected ∨ state = .failed)
    (later : p ≠ .start) (fails : Fails p) : ReaderAt p state :=
  has.imp (fun connected => ⟨connected, later⟩) fun failed => ⟨failed, fails⟩

/-- What each object holds at each of its points. -/
inductive Holds : Doing Point Kind Call → Frame → (Nat → Option Life) → Prop where
  | run {p r} : Holds (.run (.run p)) (.run r) nothing
  | runCalling {p r} : Holds (.calling (.run p)) (.run r) nothing
  | falling {r ms} : Holds (.suspending (.os (.sleep ms)) .sleep (.run .stop)) (.run r) nothing
  | sleeping {r} : Holds (.waiting .sleep) (.run r) nothing
  | listener {server} : ServerHas server none none none → Holds (.run (.server .listener)) (.server server) nothing
  | accept {server l p} : ServerHas server (some l) none none → Accepts p →
      Holds (.run (.server (.loop p))) (.server server) (single l .listening)
  | accepting {server l n next} : ServerHas server (some l) (some n) none → l ≠ n →
      Holds (.suspending (.os (.accept (some l) (some n))) .accept next) (.server server)
        (pair l .listening n .opened)
  | waiting {server l n} : ServerHas server (some l) (some n) none → l ≠ n →
      Holds (.waiting .accept) (.server server) (pair l .listening n .accepting)
  | invoke {server l n ec} : ServerHas server (some l) (some n) none → l ≠ n →
      Holds (.run (.server (.invoke ec))) (.server server) (pair l .listening n .accepting)
  | onAccept {server l n ec} : ServerHas server (some l) none (some n) → l ≠ n →
      Holds (.run (.server (.loop (.onAccept ec)))) (.server server) (pair l .listening n .accepted)
  | startWriter {server l n p} : ServerHas server (some l) none (some n) → l ≠ n → Accepts p →
      Holds (.run (.server (.startWriter p))) (.server server) (pair l .listening n .accepted)
  | starting {server l p} : ServerHas server (some l) none none → Accepts p →
      Holds (.calling (.server (.started p))) (.server server) (single l .listening)
  | started {server l p} : ServerHas server (some l) none none → Accepts p →
      Holds (.run (.server (.started p))) (.server server) (single l .listening)
  | writer {writer n p state} : writer.conn.handle = some n → WriterAt p state →
      Holds (.run (.writer p)) (.writer writer) (single n state)
  | sending {writer n len p} : writer.conn.handle = some n →
      Holds (.suspending (.os (.send (some n) len)) (.writer .onWrite) (.writer p)) (.writer writer)
        (single n .accepted)
  | posting {writer n len p} : writer.conn.handle = some n →
      Holds (.suspending (.post len) (.writer .onWrite) (.writer p)) (.writer writer) (single n .accepted)
  | writerWaiting {writer n} : writer.conn.handle = some n →
      Holds (.waiting (.writer .onWrite)) (.writer writer) (single n .accepted)
  | abandoned {writer n state} : writer.conn.handle = some n → state = .accepted ∨ state = .refused →
      Holds .abandoned (.writer writer) (single n state)
  | start {reader} : reader.conn.handle = none → Holds (.run (.reader .start)) (.reader reader) nothing
  | connecting {reader n p} : reader.conn.handle = some n →
      Holds (.suspending (.os (.connect (some n))) (.reader .onConnect) (.reader p)) (.reader reader)
        (single n .associated)
  | reader {reader n p state} : reader.conn.handle = some n → ReaderAt p state →
      Holds (.run (.reader p)) (.reader reader) (single n state)
  | receiving {reader n len p} : reader.conn.handle = some n → p ≠ .start →
      Holds (.suspending (.os (.receive (some n) len)) (.reader .onRead) (.reader p)) (.reader reader)
        (single n .connected)
  | releasing {reader n operation state} : reader.conn.handle = some n → state = .connected ∨ state = .failed →
      operation = .completed ∨ (∃ ec, operation = .failed ec) →
      Holds (.suspending operation .tracker (.reader .cleanMe)) (.reader reader) (single n state)
  | readerWaiting {reader n lambda} : reader.conn.handle = some n →
      Holds (.waiting (.reader lambda)) (.reader reader) (single n .connected)

/-- How much a reader does before its next operation, at the most. -/
def readerRank : Reader.Point → Nat
  | .cleanMe => 1
  | .start | .connectLoop _ => 2
  | .onError _ | .onComplete => 3
  | .readLoop _ => 4
  | .onConnect _ | .onRead _ _ => 5

def writerRank : Writer.Point → Nat
  | .onComplete => 1
  | .construct | .completedSync _ | .writeLoop | .onError _ => 2
  | .onWrite _ _ => 3

/-- How much an object does before its next operation, at the most. -/
def pointRank : Point → Frame → Nat
  | .run .stop, _ => 1
  | .run .sleep, _ => 2
  | .run .server, _ => 7
  | .run .readers, .run r => 8 + 5 * (r.nReaders - r.i).toNat
  | .run .next, .run r => 9 + 5 * (r.nReaders - (r.i + 1)).toNat
  | .server (.loop (.onAccept _)), _ => 8
  | .server (.loop _), _ => 2
  | .server .listener, _ => 3
  | .server (.started _), _ => 3
  | .server (.startWriter _), _ => 7
  | .server (.invoke _), _ => 9
  | .writer p, _ => writerRank p
  | .reader p, _ => readerRank p
  | _, _ => 0

/-- A call of the tracker that is not the last goes on at once. -/
def rank : Doing Point Kind Call → Frame → Nat
  | .run p, frame => pointRank p frame
  | .calling p, frame => pointRank p frame + 1
  | .suspending _ .tracker _, _ => 2
  | .suspending .., _ => 1
  | .destroying, _ => 1
  | .waiting _, _ | .abandoned, _ => 0

section
variable {sync : Bool} {made : Nat}

/-- Entries about other sockets. -/
theorem skips {r : Nat} {entries : List (Entry Call)} (away : ∀ entry ∈ entries, r ∉ handles (subject entry))
    (state : Life) : run (lifeProtocol.step r) state entries = some state :=
  Protocol.skips fun entry member => if_neg (away entry member)

/-- The local function of `run`. -/
theorem run_lawful (p : RunPoint) (r : Run) (made : Nat) :
    Lawful (code sync) lifeProtocol Holds rank (.run p) (.run r) nothing made (r.exec p) := by
  cases p with
  | readers =>
    by_cases more : r.i < r.nReaders
    · simp only [Run.exec, Run.readers, if_pos more]
      refine .spawn .runCalling (.start rfl) splits_nothing ?_
      simp only [rank, pointRank, readerRank]
      omega
    · simp only [Run.exec, Run.readers, if_neg more]
      refine .goto ⟨_, .run, carries_nil _⟩ ?_
      simp only [rank, pointRank]
      omega
  | next =>
    refine .goto ⟨_, .run, carries_nil _⟩ ?_
    simp only [rank, pointRank]
    omega
  | server => exact .spawn .runCalling (.listener ⟨rfl, rfl, rfl⟩) splits_nothing (by simp [rank, pointRank])
  | sleep => exact .await ⟨_, .falling, carries_nil _⟩ (by simp [rank, pointRank])
  | stop => exact .exit

/-- The server where it starts an accept: the handler is given a socket of its own. -/
theorem accept_lawful {p : AcceptLoop.Point} {server : Server} {l : Nat} (has : ServerHas server (some l) none none)
    (accepts : Accepts p) (apart : l ≠ made) :
    Lawful (code sync) lifeProtocol Holds rank (.server (.loop p)) (.server server) (single l .listening) made
      (exec (.server (.loop p)) (.server server) made) := by
  rcases accepts with rfl | rfl <;>
  · simp only [exec, Server.exec, AcceptLoop.exec, AcceptLoop.Server.start, AcceptLoop.Server.accept, Server.lift,
      has.sock]
    refine .await ⟨_, .accepting ⟨has.sock, rfl, has.hdl⟩ apart, carries_pair apart ?_ ?_ fun other _ away => skips ?_⟩
      (by simp [rank, pointRank])
    · exact skips (by simp [handles, Sockets.handles, subject, apart]) _
    · simp [run, lifeProtocol, handles, Sockets.handles, subject, Life.next]
    · simpa [handles, Sockets.handles, subject] using away

/-- A writer: it sends as long as nothing fails, and keeps its socket. -/
theorem writer_lawful {p : Writer.Point} {writer : TcpWriter} {n : Nat} {state : Life}
    (conn : writer.conn.handle = some n) (fits : WriterAt p state) :
    Lawful (code sync) lifeProtocol Holds rank (.writer p) (.writer writer) (single n state) made
      (exec (.writer p) (.writer writer) made) := by
  have working : ¬Quits p → state = .accepted := fun stays => fits.resolve_right fun refused => stays refused.2
  have has : state = .accepted ∨ state = .refused := fits.imp id And.left
  cases p with
  | construct =>
    obtain rfl := working id
    simp only [exec, TcpWriter.exec, Writer.exec, Writer.TcpWriter.construct, TcpWriter.lift, conn]
    exact .await ⟨_, .sending conn, carries_nil _⟩ (by simp [rank, pointRank, writerRank])
  | completedSync len =>
    obtain rfl := working id
    exact .await ⟨_, .posting conn, carries_nil _⟩ (by simp [rank, pointRank, writerRank])
  | writeLoop =>
    obtain rfl := working id
    simp only [exec, TcpWriter.exec, Writer.exec, Writer.TcpWriter.writeLoop, TcpWriter.lift, conn]
    exact .await ⟨_, .sending conn, carries_nil _⟩ (by simp [rank, pointRank, writerRank])
  | onWrite ec nBytes =>
    by_cases success : ec = 0
    · obtain rfl := working (not_not.mpr success)
      simp only [exec, TcpWriter.exec, Writer.exec, Writer.TcpWriter.onWrite, success, ne_eq, not_true_eq_false, if_false]
      exact .goto ⟨_, .writer conn (.inl rfl), carries_nil _⟩ (by simp [rank, pointRank, writerRank])
    · simp only [exec, TcpWriter.exec, Writer.exec, Writer.TcpWriter.onWrite, success, ne_eq, not_false_eq_true, if_true]
      refine .goto ⟨_, .writer conn (.quits has trivial), carries_nil _⟩ ?_
      simp [rank, pointRank, writerRank]
  | onError ec =>
    by_cases reset : ec = Pal.kConnectionReset
    · simp only [exec, TcpWriter.exec, Writer.exec, Writer.TcpWriter.onError, reset, if_true]
      refine .goto ⟨_, .writer conn (.quits has trivial), carries_nil _⟩ ?_
      simp [rank, pointRank, writerRank]
    · simp only [exec, TcpWriter.exec, Writer.exec, Writer.TcpWriter.onError, reset, if_false]
      exact .leave ⟨_, .abandoned conn has, carries_nil _⟩ (by simp [rank, pointRank, writerRank])
  | onComplete => exact .leave ⟨_, .abandoned conn has, carries_nil _⟩ (by simp [rank, pointRank, writerRank])

/-- A reader with its connection: it receives on it until something fails or it has enough,
tells the tracker, and closes it. -/
theorem reader_lawful {p : Reader.Point} {reader : TcpReader} {n : Nat} {state : Life}
    (conn : reader.conn.handle = some n) (fits : ReaderAt p state) :
    Lawful (code sync) lifeProtocol Holds rank (.reader p) (.reader reader) (single n state) made
      (exec (.reader p) (.reader reader) made) := by
  have working : ¬Fails p → state = .connected := fun stays =>
    (fits.resolve_right fun failed => stays failed.2).1
  have has : state = .connected ∨ state = .failed := fits.imp And.left And.left
  cases p with
  | start => exact absurd fits (by simp [ReaderAt, Fails])
  | onConnect ec =>
    by_cases success : ec = 0
    · obtain rfl := working (not_not.mpr success)
      simp only [exec, TcpReader.exec, Reader.exec, Reader.TcpReader.onConnect, success, ne_eq, not_true_eq_false,
        if_false]
      exact .goto ⟨_, .reader conn (.inl ⟨rfl, by simp⟩), carries_nil _⟩ (by simp [rank, pointRank, readerRank])
    · simp only [exec, TcpReader.exec, Reader.exec, Reader.TcpReader.onConnect, success, ne_eq, not_false_eq_true,
        if_true]
      refine .goto ⟨_, .reader conn (.fails has (by simp) trivial), carries_nil _⟩ ?_
      simp [rank, pointRank, readerRank]
  | onRead ec bytesRead =>
    by_cases success : ec = 0
    · obtain rfl := working (not_not.mpr success)
      simp only [exec, TcpReader.exec, Reader.exec, Reader.TcpReader.onRead, success, ne_eq, not_true_eq_false,
        if_false]
      exact .goto ⟨_, .reader conn (.inl ⟨rfl, by simp⟩), carries_nil _⟩ (by simp [rank, pointRank, readerRank])
    · simp only [exec, TcpReader.exec, Reader.exec, Reader.TcpReader.onRead, success, ne_eq, not_false_eq_true, if_true]
      refine .goto ⟨_, .reader conn (.fails has (by simp) trivial), carries_nil _⟩ ?_
      simp [rank, pointRank, readerRank]
  | connectLoop len =>
    obtain rfl := working id
    simp only [exec, TcpReader.exec, Reader.exec, Reader.TcpReader.connectLoop, TcpReader.lift, conn]
    exact .await ⟨_, .receiving conn (by simp), carries_nil _⟩ (by simp [rank, pointRank, readerRank])
  | readLoop bytesRead =>
    obtain rfl := working id
    by_cases last : reader.total - bytesRead ≤ 0 ∨ bytesRead = 0
    · simp only [exec, TcpReader.exec, Reader.exec_readLoop_last last]
      exact .goto ⟨_, .reader conn (.inl ⟨rfl, by simp⟩), carries_nil _⟩ (by simp [rank, pointRank, readerRank])
    · simp only [exec, TcpReader.exec, Reader.exec_readLoop_more last, TcpReader.lift, conn]
      exact .await ⟨_, .receiving conn (by simp), carries_nil _⟩ (by simp [rank, pointRank, readerRank])
  | onError ec =>
    exact .await ⟨_, .releasing conn has (.inr ⟨ec, rfl⟩), carries_nil _⟩ (by simp [rank, pointRank, readerRank])
  | onComplete =>
    exact .await ⟨_, .releasing conn has (.inl rfl), carries_nil _⟩ (by simp [rank, pointRank, readerRank])
  | cleanMe =>
    refine .finish ?_ (by simp [rank, pointRank, readerRank])
    simp only [code, drop, Program.OsTcpSocket.destruct, conn]
    refine closes_single ?_ fun other apart => skips ?_
    · rcases has with rfl | rfl <;> simp [run, lifeProtocol, handles, Sockets.handles, subject, Life.next]
    · simpa [handles, Sockets.handles, subject] using apart

/-- What each object does at each of its points. -/
theorem point_lawful {point : Point} {frame : Frame} {owner : Nat → Option Life}
    (holds : Holds (.run point) frame owner) (unmade : ∀ r, made ≤ r → owner r = none) :
    Lawful (code sync) lifeProtocol Holds rank point frame owner made (exec point frame made) := by
  cases holds with
  | @run p r => exact run_lawful p r made
  | @listener server has =>
    refine .goto ⟨_, .accept ⟨rfl, has.handler, has.hdl⟩ (.inl rfl), carries_single ?_ fun other apart => skips ?_⟩
      (by simp [rank, pointRank])
    · simp [run, lifeProtocol, handles, Sockets.handles, subject, Life.next]
    · simpa [handles, Sockets.handles, subject] using apart
  | @accept server l p has accepts =>
    refine accept_lawful has accepts ?_
    rintro rfl
    have absent := unmade l le_rfl
    simp [single] at absent
  | @invoke server l n ec has apart =>
    simp only [exec, Server.exec, Server.invoke, has.handler]
    refine .goto ⟨_, .onAccept ⟨has.sock, rfl, has.handler⟩ apart, carries_pair apart ?_ ?_ fun other _ away => skips ?_⟩
      (by simp [rank, pointRank])
    · exact skips (by simp [handles, Sockets.handles, subject, apart]) _
    · simp [run, lifeProtocol, handles, Sockets.handles, subject, Life.next]
    · simpa [handles, Sockets.handles, subject] using away
  | @onAccept server l n ec has apart =>
    by_cases success : ec = 0
    · simp only [exec, Server.exec, AcceptLoop.exec, AcceptLoop.Server.onAccept, success, ne_eq, not_true_eq_false,
        if_false]
      exact .goto ⟨_, .startWriter has apart (.inr rfl), carries_nil _⟩ (by simp [rank, pointRank])
    · simp only [exec, Server.exec, AcceptLoop.exec, AcceptLoop.Server.onAccept, success, ne_eq, not_false_eq_true,
        if_true]
      exact .exit
  | @startWriter server l n p has apart accepts =>
    refine .spawn (.starting ⟨has.sock, has.handler, rfl⟩ accepts) (.writer has.hdl (.inl rfl)) (splits_pair apart) ?_
    simp [rank, pointRank, writerRank]
  | @started server l p has accepts =>
    simp only [exec, Server.exec, Server.started, Program.OsTcpSocket.destruct, has.hdl]
    refine .goto ⟨_, .accept ⟨has.sock, has.handler, rfl⟩ accepts, carries_nil _⟩ ?_
    rcases accepts with rfl | rfl <;> simp [rank, pointRank]
  | @writer writer n p state conn fits => exact writer_lawful conn fits
  | @start reader conn =>
    refine .await ⟨_, .connecting rfl, carries_single ?_ fun other apart => skips ?_⟩
      (by simp [rank, pointRank, readerRank])
    · simp [run, lifeProtocol, handles, Sockets.handles, subject, Life.next]
    · simpa [handles, Sockets.handles, subject] using apart
  | @reader reader n p state conn fits => exact reader_lawful conn fits

section
variable {operation : Call} {kind : Kind} {next : Point} {frame : Frame} {owner : Nat → Option Life} {result : Answer}
  {answered : Verdict} {code : Nat}

theorem verdict_later {α : Type} (pending : Option α) :
    verdict (pending.map fun _ => .later) = .suspend ∨ verdict (pending.map fun _ => .later) = .exit := by
  cases pending with
  | none => exact .inr rfl
  | some _ => exact .inl rfl

/-- An accept or a connect is pending, or ends the program. -/
theorem respond_pending (waits : (∃ sock newh, operation = .os (.accept sock newh)) ∨ ∃ sock, operation = .os (.connect sock))
    (responded : respond sync operation result = some answered) : answered = .suspend ∨ answered = .exit := by
  rcases waits with ⟨sock, newh, rfl⟩ | ⟨sock, rfl⟩
  · cases result with
    | workCount left => cases responded
    | wsa result => exact Option.some.inj responded ▸ verdict_later _
  · cases result with
    | workCount left => cases responded
    | wsa result => exact Option.some.inj responded ▸ verdict_later _

/-- No answer deletes an object at once. -/
theorem respond_not_destroy : respond sync operation result ≠ some .destroy := by
  have verdict_not_destroy : ∀ outcome, verdict outcome ≠ .destroy := by
    rintro (_ | _ | _ | _) <;> simp [verdict]
  intro responded
  unfold respond at responded
  split at responded
  · exact verdict_not_destroy _ (Option.some.inj responded)
  · exact verdict_not_destroy _ (Option.some.inj responded)
  · exact verdict_not_destroy _ (Option.some.inj responded)
  · exact verdict_not_destroy _ (Option.some.inj responded)
  all_goals first | cases responded | (split at responded <;> cases responded)

/-- A handler is called on the spot with an error only. -/
theorem respond_refuse (responded : respond sync operation result = some (.refuse code)) : code ≠ 0 := by
  have failed : ∀ {outcome}, verdict outcome = .refuse code → outcome = some (.failed code) := by
    rintro (_ | _ | _ | _) refused <;> simp_all [verdict]
  unfold respond at responded
  split at responded
  · exact Pal.respond_failed (failed (Option.some.inj responded))
  · next result =>
    rcases verdict_later (AcceptLoop.OsTcpSocket.accept result) with pending | ended
    · cases (Option.some.inj responded).symm.trans pending
    · cases (Option.some.inj responded).symm.trans ended
  · exact Pal.respond_failed (failed (Option.some.inj responded))
  · exact Pal.respond_failed (failed (Option.some.inj responded))
  all_goals first | cases responded | (split at responded <;> cases responded)

/-- One socket goes where an answer takes it. -/
theorem carries_answer {n : Nat} {state last : Life} (about : handles operation = [n])
    (goes : state.next (.answer operation answered) = some last) :
    Carries lifeProtocol (single n state) [.answer operation answered] (single n last) := by
  refine carries_single ?_ fun other apart => skips ?_
  · simp [run, lifeProtocol, subject, about, goes]
  · simpa [subject, about] using apart

/-- An answer that is about no socket takes none anywhere. -/
theorem carries_unconcerned (about : handles operation = []) :
    Carries lifeProtocol owner [.answer operation answered] owner := by
  intro r
  have stays : ∀ state, run (lifeProtocol.step r) state [.answer operation answered] = some state :=
    fun state => skips (by simp [subject, about]) state
  cases owned : owner r with
  | none => exact .inr ⟨rfl, rfl, stays⟩
  | some state => exact .inl ⟨state, state, rfl, rfl, stays state⟩

theorem resume_passes (holds : Holds (.suspending operation kind next) frame owner)
    (responded : respond sync operation result = some .resume) :
    Passes lifeProtocol Holds owner [.answer operation .resume] (.run next) frame := by
  cases holds with
  | falling => cases result <;> cases responded
  | accepting has apart =>
    rcases respond_pending (.inl ⟨_, _, rfl⟩) responded with pending | ended
    · cases pending
    · cases ended
  | connecting conn =>
    rcases respond_pending (.inr ⟨_, rfl⟩) responded with pending | ended
    · cases pending
    · cases ended
  | posting conn => cases result <;> cases responded
  | sending conn => exact ⟨_, .writer conn (.inl rfl), carries_answer rfl rfl⟩
  | receiving conn later => exact ⟨_, .reader conn (.inl ⟨rfl, later⟩), carries_answer rfl rfl⟩
  | releasing conn has called =>
    have about : handles operation = [] := by rcases called with rfl | ⟨ec, rfl⟩ <;> rfl
    exact ⟨_, .reader conn (.fails has (by simp) trivial), carries_unconcerned about⟩

theorem suspend_passes (holds : Holds (.suspending operation kind next) frame owner)
    (responded : respond sync operation result = some .suspend) :
    Passes lifeProtocol Holds owner [.answer operation .suspend] (.waiting kind) frame := by
  cases holds with
  | falling => exact ⟨_, .sleeping, carries_unconcerned rfl⟩
  | @accepting server l n next has apart =>
    refine ⟨_, .waiting has apart, carries_pair apart ?_ ?_ fun other first second => skips ?_⟩
    · simp [run, lifeProtocol, handles, Sockets.handles, subject, Life.next]
    · simp [run, lifeProtocol, handles, Sockets.handles, subject, Life.next]
    · simp [handles, Sockets.handles, subject, first, second]
  | connecting conn => exact ⟨_, .readerWaiting conn, carries_answer rfl rfl⟩
  | posting conn => exact ⟨_, .writerWaiting conn, carries_unconcerned rfl⟩
  | sending conn => exact ⟨_, .writerWaiting conn, carries_answer rfl rfl⟩
  | receiving conn later => exact ⟨_, .readerWaiting conn, carries_answer rfl rfl⟩
  | releasing conn has called =>
    -- the tracker answers at once, or ends the program
    rcases called with rfl | ⟨ec, rfl⟩ <;> cases result <;> simp only [respond, reduceCtorEq] at responded <;>
      split at responded <;> cases responded

theorem refuse_passes (holds : Holds (.suspending operation kind next) frame owner)
    (responded : respond sync operation result = some (.refuse code)) :
    Passes lifeProtocol Holds owner [.answer operation (.refuse code)] (.run (ioCompleteCallback kind code 0)) frame := by
  have error := respond_refuse responded
  cases holds with
  | falling => cases result <;> cases responded
  | accepting has apart =>
    rcases respond_pending (.inl ⟨_, _, rfl⟩) responded with pending | ended
    · cases pending
    · cases ended
  | connecting conn =>
    rcases respond_pending (.inr ⟨_, rfl⟩) responded with pending | ended
    · cases pending
    · cases ended
  | posting conn => cases result <;> cases responded
  | sending conn => exact ⟨_, .writer conn (.inr ⟨rfl, error⟩), carries_answer rfl rfl⟩
  | receiving conn later => exact ⟨_, .reader conn (.inr ⟨rfl, error⟩), carries_answer rfl rfl⟩
  | releasing conn has called =>
    rcases called with rfl | ⟨ec, rfl⟩ <;> cases result <;> simp only [respond, reduceCtorEq] at responded <;>
      split at responded <;> cases responded

theorem packet_passes {error bytes : Nat} (holds : Holds (.waiting kind) frame owner) :
    Passes lifeProtocol Holds owner [] (.run (ioCompleteCallback kind error bytes)) frame := by
  cases holds with
  | sleeping => exact ⟨_, .run, carries_nil _⟩
  | waiting has apart => exact ⟨_, .invoke has apart, carries_nil _⟩
  | writerWaiting conn => exact ⟨_, .writer conn (.inl rfl), carries_nil _⟩
  | @readerWaiting reader n lambda conn =>
    have later : Reader.invoke lambda error bytes ≠ .start := by cases lambda <;> simp [Reader.invoke]
    exact ⟨_, .reader conn (.inl ⟨rfl, later⟩), carries_nil _⟩

end

theorem program_verified (sync : Bool) : Verified (code sync) lifeProtocol Holds rank where
  run := point_lawful
  returned := by
    intro next frame owner holds
    cases holds with
    | runCalling => exact ⟨⟨_, .run, carries_nil _⟩, by simp [rank]⟩
    | starting has accepts => exact ⟨⟨_, .started has accepts, carries_nil _⟩, by simp [rank]⟩
  destroyed holds := by cases holds
  resume := resume_passes
  suspend := suspend_passes
  refuse := refuse_passes
  destroy _ responded := absurd responded respond_not_destroy
  packet := packet_passes

theorem program_sound {nReaders : Int} {bytes : UInt64} {q : Pal.CompletionQueue} {begun s : ProgramState}
    {choices : List (Choice Answer)} (started : CallbackProgram.start nReaders bytes = some (q, begun))
    (path : run (step (code sync)) begun choices = some s) : Sound lifeProtocol Holds s := by
  obtain ⟨-, rfl⟩ := start_eq.mp started
  exact (launch_sound .run).along (program_verified sync) path

end

end Await.SuperLean.CallbackSockets
