import Await.SuperLean.Reader

/-! `tcp_writer` of `Traditional.cpp` and of `Improved.cpp`, and what becomes of both
classes when one handler is used for all operations of an object. -/

namespace Await.SuperLean.Writer
open General.Callback General.Transition Pal Reader

/-- The one lambda that writers make handlers from. -/
inductive Lambda where
  | onWrite
  deriving DecidableEq, Repr

inductive Point where
  | construct
  | completedSync (len : Nat)
  | onWrite (ec : ErrorCode) (nBytes : Nat)
  | writeLoop
  | onError (ec : ErrorCode)
  | onComplete
  deriving DecidableEq, Repr

/-- The code reads and changes none of the members. -/
structure TcpWriter where
  deriving DecidableEq, Repr

abbrev WriterMove := Move TcpWriter Point Lambda Call

/-- The constructor up to the result of `conn.Write(buf, len, ...)`. -/
def TcpWriter.construct (w : TcpWriter) : WriterMove :=
  let len := writerSize
  .start w (.send len) .onWrite (.completedSync len) none

/-- `if (completedSync) ThreadPool::Post(...)`. -/
def TcpWriter.completedSync (len : Nat) (w : TcpWriter) : WriterMove := .post w (.post len) .onWrite len

/-- The byte count is overwritten before it is read. -/
def TcpWriter.onWrite (ec : ErrorCode) (_nBytes : Nat) (w : TcpWriter) : WriterMove :=
  if ec ≠ 0 then .goto w [] (.onError ec) else .goto w [] .writeLoop

/-- `do { nBytes = sizeof(buf); } while (conn.Write(buf, nBytes, ...));` -/
def TcpWriter.writeLoop (w : TcpWriter) : WriterMove := .start w (.send writerSize) .onWrite .writeLoop none

def TcpWriter.onError (ec : ErrorCode) (w : TcpWriter) : WriterMove :=
  if ec = kConnectionReset then .goto w [] .onComplete else .leave w

def TcpWriter.onComplete (w : TcpWriter) : WriterMove := .leave w

def exec : Point → TcpWriter → WriterMove
  | .construct => TcpWriter.construct
  | .completedSync len => TcpWriter.completedSync len
  | .onWrite ec nBytes => TcpWriter.onWrite ec nBytes
  | .writeLoop => TcpWriter.writeLoop
  | .onError ec => TcpWriter.onError ec
  | .onComplete => TcpWriter.onComplete

/-- `[this](std::error_code ec, int nBytes) { OnWrite(ec, nBytes); }`. -/
def invoke : Lambda → Nat → Nat → Point
  | .onWrite, ec, nBytes => .onWrite ec nBytes

def code (sync : Bool) : Code TcpWriter Point Lambda WsaResult Call where
  exec := exec
  entry := invoke
  respond := respond sync

/-! The members of `improved::tcp_writer`. -/

namespace Improved

/-- `bool completedSync = conn.Write(buf, len, wo.get());` -/
def TcpWriter.construct (w : TcpWriter) : WriterMove := Writer.TcpWriter.construct w

/-- `if (completedSync) ThreadPool::Post(wo.get(), ...);` -/
def TcpWriter.completedSync (len : Nat) (w : TcpWriter) : WriterMove := Writer.TcpWriter.completedSync len w

def TcpWriter.onWrite (ec : ErrorCode) (nBytes : Nat) (w : TcpWriter) : WriterMove :=
  Writer.TcpWriter.onWrite ec nBytes w

/-- `do { nBytes = sizeof(buf); } while (conn.Write(buf, nBytes, wo.get()));` -/
def TcpWriter.writeLoop (w : TcpWriter) : WriterMove := Writer.TcpWriter.writeLoop w

def TcpWriter.onError (ec : ErrorCode) (w : TcpWriter) : WriterMove := Writer.TcpWriter.onError ec w

def TcpWriter.onComplete (w : TcpWriter) : WriterMove := Writer.TcpWriter.onComplete w

def exec : Point → TcpWriter → WriterMove
  | .construct => TcpWriter.construct
  | .completedSync len => TcpWriter.completedSync len
  | .onWrite ec nBytes => TcpWriter.onWrite ec nBytes
  | .writeLoop => TcpWriter.writeLoop
  | .onError ec => TcpWriter.onError ec
  | .onComplete => TcpWriter.onComplete

/-- `[this](auto ec, int nBytes) { this->OnWrite(ec, nBytes); }`, in `wo`. -/
def invoke : Lambda → Nat → Nat → Point := Writer.invoke

def code (sync : Bool) : Code TcpWriter Point Lambda WsaResult Call where
  exec := exec
  entry := invoke
  respond := respond sync

end Improved

/-- All the operations the code starts. -/
theorem exec_start {w w' : TcpWriter} {point next : Point} {call : Call} {kind : Lambda} {otherwise : Option Point}
    (move : exec point w = .start w' call kind next otherwise) : otherwise = none ∧ call = .send writerSize ∧
      (point = .construct ∧ next = .completedSync writerSize ∨ point = .writeLoop ∧ next = .writeLoop) := by
  cases point with
  | construct =>
    simp only [exec, TcpWriter.construct, Move.start.injEq] at move
    exact ⟨move.2.2.2.2.symm, move.2.1.symm, .inl ⟨rfl, move.2.2.2.1.symm⟩⟩
  | writeLoop =>
    simp only [exec, TcpWriter.writeLoop, Move.start.injEq] at move
    exact ⟨move.2.2.2.2.symm, move.2.1.symm, .inr ⟨rfl, move.2.2.2.1.symm⟩⟩
  | onWrite ec nBytes => by_cases success : ec = 0 <;> simp [exec, TcpWriter.onWrite, success] at move
  | onError ec => by_cases reset : ec = kConnectionReset <;> simp [exec, TcpWriter.onError, reset] at move
  | completedSync len => simp [exec, TcpWriter.completedSync] at move
  | onComplete => simp [exec, TcpWriter.onComplete] at move

theorem code_leaves (sync : Bool) : (code sync).Leaves :=
  fun _ _ _ _ _ _ _ move => (exec_start move).1

/-- The members of the two classes do the same. -/
theorem improved_code (sync : Bool) : Improved.code sync = code sync := by
  have same : Improved.exec = exec := by
    funext point
    cases point <;> rfl
  rw [Improved.code, same]
  rfl

abbrev WriterState (η σ : Type) := State TcpWriter Point η σ Call

def ownHandler : Supply Lambda Lambda Unit := reuse fun _ => true

/-- `traditional::tcp_writer` in its constructor. -/
def traditionalWriter (sync : Bool) : WriterState (Handler Lambda) Handlers → Choice WsaResult →
    Option (WriterState (Handler Lambda) Handlers) :=
  step (code sync) (freshHandlers Lambda)

def traditionalStart : WriterState (Handler Lambda) Handlers := State.launch ⟨⟩ {} .construct

/-- `improved::tcp_writer` in its constructor. -/
def improvedWriter (sync : Bool) : WriterState Lambda Unit → Choice WsaResult →
    Option (WriterState Lambda Unit) :=
  step (Improved.code sync) ownHandler

def improvedStart : WriterState Lambda Unit := State.launch ⟨⟩ () .construct

/-! ### One handler is enough -/

/-- A run with a fresh handler for every operation shows the log of the run with `wo`. -/
theorem reader_log (sync : Bool) (total : Int) (choices : List (Choice WsaResult)) :
    (run (traditionalReader sync) (Reader.traditionalStart total) choices).map (·.log) =
      (run (improvedReader sync) (Reader.improvedStart total) choices).map (·.log) := by
  have sound : Sound (Reader.code sync) (freshHandlers Reader.Lambda) unconstrained (Reader.traditionalStart total) :=
    launch_sound trivial
  have same := forget_run (fun lambda => lambda == .onRead) (Reader.code_leaves sync) sound choices
  have start : (Reader.traditionalStart total).forget (freshHandlers Reader.Lambda) = Reader.improvedStart total := rfl
  rw [start] at same
  unfold traditionalReader improvedReader Reader.ownHandler
  rw [Reader.improved_code, ← same, Option.map_map]
  rfl

theorem writer_log (sync : Bool) (choices : List (Choice WsaResult)) :
    (run (traditionalWriter sync) traditionalStart choices).map (·.log) =
      (run (improvedWriter sync) improvedStart choices).map (·.log) := by
  have sound : Sound (code sync) (freshHandlers Lambda) unconstrained traditionalStart := launch_sound trivial
  have same := forget_run (fun _ => true) (code_leaves sync) sound choices
  have start : traditionalStart.forget (freshHandlers Lambda) = improvedStart := rfl
  rw [start] at same
  unfold traditionalWriter improvedWriter ownHandler
  rw [improved_code, ← same, Option.map_map]
  rfl

/-- At most one operation in flight or packet posted: `wo` is never attached twice. -/
theorem reader_attached {sync : Bool} {total : Int} {choices : List (Choice WsaResult)}
    {s : ReaderState Reader.Lambda Unit}
    (path : run (improvedReader sync) (Reader.improvedStart total) choices = some s) : s.attached.length ≤ 1 := by
  have sound : Sound (Reader.code sync) Reader.ownHandler unconstrained (Reader.improvedStart total) :=
    launch_sound trivial
  rw [improvedReader, Reader.improved_code] at path
  exact (sound.run (unconstrained_verified (Reader.code_leaves sync) _) path (meets_any choices)).attached_le_one

theorem writer_attached {sync : Bool} {choices : List (Choice WsaResult)} {s : WriterState Lambda Unit}
    (path : run (improvedWriter sync) improvedStart choices = some s) : s.attached.length ≤ 1 := by
  have sound : Sound (code sync) ownHandler unconstrained improvedStart := launch_sound trivial
  rw [improvedWriter, improved_code] at path
  exact (sound.run (unconstrained_verified (code_leaves sync) _) path (meets_any choices)).attached_le_one

/-- The improved classes do what the traditional ones do: under every script they can
follow the same choices and log the same socket operations, answers, posts, packets and
tracker calls; and their one handler serves one operation or packet at a time. -/
theorem improved_refines_traditional (sync : Bool) (total : Int) (choices : List (Choice WsaResult)) :
    ((run (traditionalReader sync) (Reader.traditionalStart total) choices).map (·.log) =
        (run (improvedReader sync) (Reader.improvedStart total) choices).map (·.log) ∧
      (run (traditionalWriter sync) traditionalStart choices).map (·.log) =
        (run (improvedWriter sync) improvedStart choices).map (·.log)) ∧
      (∀ s, run (improvedReader sync) (Reader.improvedStart total) choices = some s → s.attached.length ≤ 1) ∧
      ∀ s, run (improvedWriter sync) improvedStart choices = some s → s.attached.length ≤ 1 :=
  ⟨⟨reader_log sync total choices, writer_log sync choices⟩, fun _ path => reader_attached path,
    fun _ path => writer_attached path⟩

/-- The constructor's write is done at once, and `wo` is posted. -/
def posted : List (Choice WsaResult) := [.thread 0, .respond 0 (.done 4096), .thread 0, .thread 0]

theorem improved_refines_traditional_posted : ∃ s, run (improvedWriter true) improvedStart posted = some s ∧
    s.attached = [⟨.onWrite, some 4096⟩] ∧ s.attached.length ≤ 1 :=
  ⟨_, rfl, rfl, (improved_refines_traditional true 8192 posted).2.2 _ rfl⟩

end Await.SuperLean.Writer
