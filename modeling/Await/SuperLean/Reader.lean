import Await.SuperLean.Pal

/-! `tcp_reader` of `Traditional.cpp` and of `Improved.cpp`. The member functions are the
same in both; they differ in the handler that a `Receive` is given: a fresh one each time,
or the member `wo` again and again. Nothing comes after an operation that is not done at
once: by then the object may have been deleted. -/

namespace Await.SuperLean.Reader
open General.Callback General.Transition Pal

/-- The lambdas that handlers are made from. -/
inductive Lambda where
  | onConnect | onRead
  deriving DecidableEq, Repr

/-- The points of the member functions: a function with its arguments, or the head of its
loop with the local variable that lives across turns. -/
inductive Point where
  | start
  | onConnect (ec : ErrorCode)
  | connectLoop (len : Nat)
  | onRead (ec : ErrorCode) (bytesRead : Nat)
  | readLoop (bytesRead : Nat)
  | onError (ec : ErrorCode)
  | onComplete
  | cleanMe
  deriving DecidableEq, Repr

/-- The member that the code changes. -/
structure TcpReader where
  total : Int
  deriving DecidableEq, Repr

abbrev ReaderMove := Move TcpReader Point Lambda Call

/-- `conn.Connect(...)`. A connect that is not pending ends the program, so no code
follows one that is done at once. -/
def TcpReader.start (r : TcpReader) : ReaderMove := .start r .connect .onConnect .start none

/-- `if (ec) return OnError(ec); int len = sizeof(buf);` -/
def TcpReader.onConnect (ec : ErrorCode) (r : TcpReader) : ReaderMove :=
  if ec ≠ 0 then .goto r [] (.onError ec) else .goto r [] (.connectLoop readerSize)

/-- `while (conn.Read(buf, len, ...));` where `Read` leaves `len` as it is. -/
def TcpReader.connectLoop (len : Nat) (r : TcpReader) : ReaderMove :=
  .start r (.receive len) .onRead (.connectLoop len) none

def TcpReader.onRead (ec : ErrorCode) (bytesRead : Nat) (r : TcpReader) : ReaderMove :=
  if ec ≠ 0 then .goto r [] (.onError ec) else .goto r [] (.readLoop bytesRead)

/-- `do { ... bytesRead = sizeof(buf); } while (conn.Read(buf, bytesRead, ...));` where
`Read` leaves `bytesRead` as it is. -/
def TcpReader.readLoop (bytesRead : Nat) (r : TcpReader) : ReaderMove :=
  let r := { r with total := r.total - bytesRead }
  if r.total ≤ 0 ∨ bytesRead = 0 then .goto r [] .onComplete
  else
    let bytesRead := readerSize
    .start r (.receive bytesRead) .onRead (.readLoop bytesRead) none

/-- The tracker is called before `cleanMe` goes out of scope. -/
def TcpReader.onError (ec : ErrorCode) (r : TcpReader) : ReaderMove := .goto r [.failed ec] .cleanMe

def TcpReader.onComplete (r : TcpReader) : ReaderMove := .goto r [.completed] .cleanMe

def exec : Point → TcpReader → ReaderMove
  | .start => TcpReader.start
  | .onConnect ec => TcpReader.onConnect ec
  | .connectLoop len => TcpReader.connectLoop len
  | .onRead ec bytesRead => TcpReader.onRead ec bytesRead
  | .readLoop bytesRead => TcpReader.readLoop bytesRead
  | .onError ec => TcpReader.onError ec
  | .onComplete => TcpReader.onComplete
  | .cleanMe => fun _ => .delete

/-- `[raw](auto ec, auto) { raw->OnConnect(ec); }` and
`[this](auto ec, int bytesRead) { OnRead(ec, bytesRead); }`. -/
def invoke : Lambda → Nat → Nat → Point
  | .onConnect, ec, _ => .onConnect ec
  | .onRead, ec, bytesRead => .onRead ec bytesRead

def code (sync : Bool) : Code TcpReader Point Lambda WsaResult Call where
  exec := exec
  entry := invoke
  respond := respond sync

/-! The members of `improved::tcp_reader`. -/

namespace Improved

def TcpReader.start (r : TcpReader) : ReaderMove := Reader.TcpReader.start r

def TcpReader.onConnect (ec : ErrorCode) (r : TcpReader) : ReaderMove := Reader.TcpReader.onConnect ec r

/-- `while (conn.Read(buf, len, wo.get()));` -/
def TcpReader.connectLoop (len : Nat) (r : TcpReader) : ReaderMove := Reader.TcpReader.connectLoop len r

def TcpReader.onRead (ec : ErrorCode) (bytesRead : Nat) (r : TcpReader) : ReaderMove :=
  Reader.TcpReader.onRead ec bytesRead r

/-- `do { ... bytesRead = sizeof(buf); } while (conn.Read(buf, bytesRead, wo.get()));` -/
def TcpReader.readLoop (bytesRead : Nat) (r : TcpReader) : ReaderMove := Reader.TcpReader.readLoop bytesRead r

def TcpReader.onError (ec : ErrorCode) (r : TcpReader) : ReaderMove := Reader.TcpReader.onError ec r

def TcpReader.onComplete (r : TcpReader) : ReaderMove := Reader.TcpReader.onComplete r

def exec : Point → TcpReader → ReaderMove
  | .start => TcpReader.start
  | .onConnect ec => TcpReader.onConnect ec
  | .connectLoop len => TcpReader.connectLoop len
  | .onRead ec bytesRead => TcpReader.onRead ec bytesRead
  | .readLoop bytesRead => TcpReader.readLoop bytesRead
  | .onError ec => TcpReader.onError ec
  | .onComplete => TcpReader.onComplete
  | .cleanMe => fun _ => .delete

/-- `[raw](auto ec, auto) { raw->OnConnect(ec); }`, and in `wo`
`[this](auto ec, int nBytes) { this->OnRead(ec, nBytes); }`. -/
def invoke : Lambda → Nat → Nat → Point := Reader.invoke

def code (sync : Bool) : Code TcpReader Point Lambda WsaResult Call where
  exec := exec
  entry := invoke
  respond := respond sync

end Improved

abbrev ReaderState (η σ : Type) := State TcpReader Point η σ Call

section
variable {r r' : TcpReader} {point next : Point} {call : Call} {calls : List Call} {kind : Lambda}

theorem exec_onRead_success (bytesRead : Nat) (r : TcpReader) :
    exec (.onRead 0 bytesRead) r = .goto r [] (.readLoop bytesRead) := rfl

theorem exec_onRead_error {ec : ErrorCode} (error : ec ≠ 0) (bytesRead : Nat) (r : TcpReader) :
    exec (.onRead ec bytesRead) r = .goto r [] (.onError ec) := if_pos error

theorem exec_readLoop_last {bytesRead : Nat} (last : r.total - bytesRead ≤ 0 ∨ bytesRead = 0) :
    exec (.readLoop bytesRead) r = .goto ⟨r.total - bytesRead⟩ [] .onComplete := if_pos last

theorem exec_readLoop_more {bytesRead : Nat} (more : ¬(r.total - bytesRead ≤ 0 ∨ bytesRead = 0)) :
    exec (.readLoop bytesRead) r =
      .start ⟨r.total - bytesRead⟩ (.receive readerSize) .onRead (.readLoop readerSize) none := if_neg more

/-- All the ways in which the code goes on by itself. -/
theorem exec_goto (move : exec point r = .goto r' calls next) :
    (∃ ec, point = .onConnect ec ∧ r' = r ∧ calls = [] ∧
      (ec ≠ 0 ∧ next = .onError ec ∨ ec = 0 ∧ next = .connectLoop readerSize)) ∨
    (∃ ec bytesRead, point = .onRead ec bytesRead ∧ r' = r ∧ calls = [] ∧
      (ec ≠ 0 ∧ next = .onError ec ∨ ec = 0 ∧ next = .readLoop bytesRead)) ∨
    (∃ bytesRead, point = .readLoop bytesRead ∧ (r.total - bytesRead ≤ 0 ∨ bytesRead = 0) ∧
      r' = ⟨r.total - bytesRead⟩ ∧ calls = [] ∧ next = .onComplete) ∨
    (∃ ec, point = .onError ec ∧ r' = r ∧ calls = [.failed ec] ∧ next = .cleanMe) ∨
    point = .onComplete ∧ r' = r ∧ calls = [.completed] ∧ next = .cleanMe := by
  cases point with
  | start => simp [exec, TcpReader.start] at move
  | connectLoop len => simp [exec, TcpReader.connectLoop] at move
  | cleanMe => simp [exec] at move
  | onConnect ec =>
    by_cases success : ec = 0 <;> simp [exec, TcpReader.onConnect, success] at move <;>
      obtain ⟨rfl, rfl, rfl⟩ := move <;> simp [success]
  | onRead ec bytesRead =>
    by_cases success : ec = 0 <;> simp [exec, TcpReader.onRead, success] at move <;>
      obtain ⟨rfl, rfl, rfl⟩ := move <;> simp [success]
  | readLoop bytesRead =>
    by_cases last : r.total - bytesRead ≤ 0 ∨ bytesRead = 0
    · rw [exec_readLoop_last last] at move
      cases move
      exact .inr (.inr (.inl ⟨bytesRead, rfl, last, rfl, rfl, rfl⟩))
    · rw [exec_readLoop_more last] at move
      cases move
  | onError ec =>
    simp only [exec, TcpReader.onError, Move.goto.injEq] at move
    obtain ⟨rfl, rfl, rfl⟩ := move
    simp
  | onComplete =>
    simp only [exec, TcpReader.onComplete, Move.goto.injEq] at move
    obtain ⟨rfl, rfl, rfl⟩ := move
    simp

/-- All the operations the code starts. -/
theorem exec_start {otherwise : Option Point} (move : exec point r = .start r' call kind next otherwise) :
    otherwise = none ∧
    ((point = .start ∧ r' = r ∧ call = .connect ∧ kind = .onConnect ∧ next = .start) ∨
    (∃ len, point = .connectLoop len ∧ r' = r ∧ call = .receive len ∧ kind = .onRead ∧
      next = .connectLoop len) ∨
    ∃ bytesRead, point = .readLoop bytesRead ∧ ¬(r.total - bytesRead ≤ 0 ∨ bytesRead = 0) ∧
      r' = ⟨r.total - bytesRead⟩ ∧ call = .receive readerSize ∧ kind = .onRead ∧ next = .readLoop readerSize) := by
  cases point with
  | start =>
    simp only [exec, TcpReader.start, Move.start.injEq] at move
    obtain ⟨rfl, rfl, rfl, rfl, rfl⟩ := move
    simp
  | connectLoop len =>
    simp only [exec, TcpReader.connectLoop, Move.start.injEq] at move
    obtain ⟨rfl, rfl, rfl, rfl, rfl⟩ := move
    simp
  | readLoop bytesRead =>
    by_cases last : r.total - bytesRead ≤ 0 ∨ bytesRead = 0
    · rw [exec_readLoop_last last] at move
      cases move
    · rw [exec_readLoop_more last] at move
      cases move
      exact ⟨rfl, .inr (.inr ⟨bytesRead, rfl, last, rfl, rfl, rfl, rfl⟩)⟩
  | onConnect ec => by_cases success : ec = 0 <;> simp [exec, TcpReader.onConnect, success] at move
  | onRead ec bytesRead => by_cases success : ec = 0 <;> simp [exec, TcpReader.onRead, success] at move
  | onError ec => simp [exec, TcpReader.onError] at move
  | onComplete => simp [exec, TcpReader.onComplete] at move
  | cleanMe => simp [exec] at move

/-- The reader posts no packet, leaves by deleting itself only, and that in one place. -/
theorem exec_rest (point : Point) (r : TcpReader) :
    (∀ r' call kind bytes, exec point r ≠ .post r' call kind bytes) ∧
      (∀ r', exec point r ≠ .leave r') ∧ (exec point r = .delete → point = .cleanMe) := by
  cases point with
  | onConnect ec => by_cases success : ec = 0 <;> simp [exec, TcpReader.onConnect, success]
  | onRead ec bytesRead => by_cases success : ec = 0 <;> simp [exec, TcpReader.onRead, success]
  | readLoop bytesRead =>
    by_cases last : r.total - bytesRead ≤ 0 ∨ bytesRead = 0
    · simp [exec_readLoop_last last]
    · simp [exec_readLoop_more last]
  | _ => simp [exec, TcpReader.start, TcpReader.connectLoop, TcpReader.onError, TcpReader.onComplete]

theorem code_leaves (sync : Bool) : (code sync).Leaves :=
  fun _ _ _ _ _ _ _ move => (exec_start move).1

/-- The members of the two classes do the same. -/
theorem improved_code (sync : Bool) : Improved.code sync = code sync := by
  have same : Improved.exec = exec := by
    funext point
    cases point <;> rfl
  rw [Improved.code, same]
  rfl

end

/-! ### The two ways to come by a handler -/

/-- A handler on the heap, with the lambda it holds. -/
structure Handler (φ : Type) where
  number : Nat
  lambda : φ
  deriving DecidableEq, Repr

/-- The handlers made so far and those not destroyed yet. -/
structure Handlers where
  made : Nat := 0
  alive : List Nat := []
  deriving DecidableEq, Repr

/-- `make_handler_with_size_t`. In `Connection::Read` a `unique_ptr` destroys the handler of
an operation that is done at once, and lets go of it otherwise. -/
def freshHandlers (φ : Type) : Supply φ (Handler φ) Handlers where
  kind h := h.lambda
  inside _ := false
  make lambda store := (⟨store.made, lambda⟩, ⟨store.made + 1, store.alive ++ [store.made]⟩)
  discard h store := { store with alive := store.alive.erase h.number }
  kind_make _ _ := rfl

/-- `wo`, a member of the reader, serves every `Receive`; the one connect has a handler of
its own on the heap. -/
def ownHandler : Supply Lambda Lambda Unit := reuse fun lambda => lambda == .onRead

/-- `traditional::tcp_reader` on its way through `start`. -/
def traditionalReader (sync : Bool) : ReaderState (Handler Lambda) Handlers → Choice WsaResult →
    Option (ReaderState (Handler Lambda) Handlers) :=
  step (code sync) (freshHandlers Lambda)

def traditionalStart (total : Int) : ReaderState (Handler Lambda) Handlers :=
  State.launch ⟨total⟩ {} .start

/-- `improved::tcp_reader` on its way through `start`. -/
def improvedReader (sync : Bool) : ReaderState Lambda Unit → Choice WsaResult →
    Option (ReaderState Lambda Unit) :=
  step (Improved.code sync) ownHandler

def improvedStart (total : Int) : ReaderState Lambda Unit :=
  State.launch ⟨total⟩ () .start

end Await.SuperLean.Reader
