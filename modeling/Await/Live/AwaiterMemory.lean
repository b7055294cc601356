import Await.Live.ClientMemory
import Await.Live.Echo

/-! The memory of the operations of `session` in `hard2.cpp`. Each awaiter of `await_adapters.h`
has a `handler_allocator` of its own in the coroutine frame, and goes when the coroutine goes
on from its `co_await`. -/

namespace Await.Live.AwaiterMemory
open General General.Coroutine General.Process General.Transition HandlerMemory
open ClientMemory (Lender Lends Placed create_lends)
open MyServer CoroServer Echo

variable {blockSize : Nat}

/-- The session with the allocator of the awaiter that it is suspended in, the sizes that
`operator new` was asked for, and the blocks whose allocator went before they were given back. -/
structure State (blockSize : Nat) where
  session : SessionState blockSize
  alloc : Option Lender
  asked : List UInt64 := []
  dangling : Nat := 0

/-- An operation completes; or an `async_write` goes on with another part of its buffer. The
answer of `operator new` is for the operation that is started then. -/
inductive Action (blockSize : Nat) where
  | complete (result : Result blockSize) (answer : Option Nat)
  | writeOn (answer : Option Nat)

section
variable (readSize writeSize : UInt64) (storage : Nat)

/-- The size of the memory that an operation asks its handler's allocator for. -/
def need : Operation → UInt64
  | .asyncReadSome _ => readSize
  | .asyncWrite _ => writeSize

/-- At its next `co_await`, if there is one, the coroutine makes an awaiter, and the operation
that `await_suspend` starts takes its memory. -/
def suspend (asked : List UInt64) (dangling : Nat) (answer : Option Nat) (session : SessionState blockSize) :
    Option (State blockSize) :=
  match session.inFlight with
  | [] => some { session, alloc := none, asked, dangling }
  | operation :: _ => do
      let alloc ← (Lender.create storage).start (need readSize writeSize operation) answer
      some { session, alloc := some alloc, asked, dangling }

/-- The memory is given back before the handler is called, which resumes the coroutine. What
the session does then does not depend on how `set_option` went. -/
def step (s : State blockSize) : Action blockSize → Option (State blockSize)
  | .complete result answer => do
      let operation ← s.session.inFlight.head?
      let alloc ← s.alloc
      let alloc ← alloc.finish (need readSize writeSize operation) 0
      let session ← Process.step (sessionHard2 blockSize 0).actor s.session (0, result)
      suspend readSize writeSize storage (s.asked ++ alloc.asked) (s.dangling + alloc.loans.length) answer session
  | .writeOn answer =>
      match s.session.inFlight with
      | .asyncWrite _ :: _ => do
          let alloc ← s.alloc
          let alloc ← alloc.finish writeSize 0
          let alloc ← alloc.start writeSize answer
          some { s with alloc := some alloc }
      | _ => none

/-- A session that is called. -/
def create (setOptionErr : ErrorCode) (answer : Option Nat) : Option (State blockSize) :=
  suspend readSize writeSize storage [] 0 answer (Process.start (sessionHard2 blockSize setOptionErr).actor)

end

/-! ### Nothing dangles -/

section
variable {readSize writeSize : UInt64} {storage : Nat} {s t : State blockSize} {session : SessionState blockSize}
  {answer : Option Nat} {asked : List UInt64}

/-- The operation that the session waits for has the memory of the session's awaiter. -/
inductive Borrows (readSize writeSize : UInt64) (storage : Nat) (s : State blockSize) : Prop where
  | waiting (object : SessionFrame blockSize) (operation : Operation) (alloc : Lender)
      (present : s.session.object = some object)
      (single : s.session.inFlight = [operation]) (alive : s.session.destructions = 0) (awaiter : s.alloc = some alloc)
      (lends : Lends (need readSize writeSize operation) storage 1 alloc)
      (tied : ∀ loan ∈ alloc.loans, loan.tied = true)
  | gone (absent : s.session.object = none) (idle : s.session.inFlight = []) (once : s.session.destructions = 1)
      (noAwaiter : s.alloc = none)

structure Sound (readSize writeSize : UInt64) (storage : Nat) (s : State blockSize) : Prop where
  borrows : Borrows readSize writeSize storage s
  large : ∀ size ∈ s.asked, storageSize < size
  safe : s.dangling = 0

theorem suspend_sound (orderly : Orderly session) (large : ∀ size ∈ asked, storageSize < size)
    (suspended : suspend readSize writeSize storage asked 0 answer session = some t) :
    Sound readSize writeSize storage t := by
  cases orderly with
  | gone absent idle once =>
    simp only [suspend, idle, Option.some.injEq] at suspended
    subst suspended
    exact ⟨.gone absent idle once rfl, large, rfl⟩
  | waiting object operation present single alive =>
    simp only [suspend, single, Option.bind_eq_bind, Option.bind_eq_some_iff, Option.some.injEq] at suspended
    obtain ⟨alloc, started, rfl⟩ := suspended
    obtain ⟨lends, tied⟩ := (create_lends _ storage).start started
    exact ⟨.waiting object operation alloc present single alive rfl lends tied, large, rfl⟩

/-- Operations that fit are started whatever `operator new` would do. -/
theorem suspend_able (orderly : Orderly session) (fitsRead : readSize ≤ storageSize)
    (fitsWrite : writeSize ≤ storageSize) (dangling : Nat) :
    ∃ t, suspend readSize writeSize storage asked dangling none session = some t ∧ t.session = session := by
  cases orderly with
  | gone absent idle once => exact ⟨_, by simp only [suspend, idle]; rfl, rfl⟩
  | waiting object operation present single alive =>
    have fits : need readSize writeSize operation ≤ storageSize := by
      cases operation with
      | asyncReadSome length => exact fitsRead
      | asyncWrite bytes => exact fitsWrite
    obtain ⟨alloc, started⟩ := (create_lends _ storage).start_small fits
    exact ⟨_, by simp only [suspend, single, started]; rfl, rfl⟩

theorem Sound.complete {result : Result blockSize} (sound : Sound readSize writeSize storage s)
    (stepped : step readSize writeSize storage s (.complete result answer) = some t) :
    Sound readSize writeSize storage t := by
  obtain ⟨borrows, large, safe⟩ := sound
  simp only [step, Option.bind_eq_bind, Option.bind_eq_some_iff] at stepped
  obtain ⟨operation, waits, alloc, awaiter, rest, finished, session, moved, suspended⟩ := stepped
  cases borrows with
  | gone absent idle => simp [idle] at waits
  | waiting object operation' alloc' present single alive awaiter' lends =>
    obtain rfl : operation' = operation := by simpa [single] using waits
    obtain rfl : alloc' = alloc := Option.some.inj (awaiter'.symm.trans awaiter)
    obtain ⟨rest', finished', free⟩ := lends.finish
    obtain rfl : rest' = rest := Option.some.inj (finished'.symm.trans finished)
    have orderly : Orderly session :=
      (Body.sequential (sessionHard2 blockSize 0)).step (.waiting object operation' present single alive) moved
    rw [safe, free.count] at suspended
    refine suspend_sound orderly (fun size member => ?_) suspended
    rcases List.mem_append.mp member with earlier | now
    · exact large size earlier
    · exact free.asked size now

theorem Sound.writeOn (sound : Sound readSize writeSize storage s)
    (stepped : step readSize writeSize storage s (.writeOn answer) = some t) : Sound readSize writeSize storage t := by
  obtain ⟨borrows, large, safe⟩ := sound
  cases borrows with
  | gone absent idle => simp [step, idle] at stepped
  | waiting object operation alloc present single alive awaiter lends tied =>
    cases operation with
    | asyncReadSome length => simp [step, single] at stepped
    | asyncWrite bytes =>
      simp only [step, single, awaiter, Option.bind_eq_bind, Option.bind_some, Option.bind_eq_some_iff,
        Option.some.injEq] at stepped
      obtain ⟨rest, finished, alloc', started, rfl⟩ := stepped
      obtain ⟨rest', finished', free⟩ := lends.finish
      obtain rfl : rest' = rest := Option.some.inj (finished'.symm.trans finished)
      obtain ⟨lends', tied⟩ := free.start started
      exact ⟨.waiting object _ alloc' present single alive rfl lends' tied, large, safe⟩

theorem Sound.run {setOptionErr : ErrorCode} {actions : List (Action blockSize)} {begun : State blockSize}
    (called : create readSize writeSize storage setOptionErr answer = some begun)
    (path : Transition.run (step readSize writeSize storage) begun actions = some s) :
    Sound readSize writeSize storage s := by
  have kept : ∀ (u : State blockSize) (action : Action blockSize) (v : State blockSize),
      Sound readSize writeSize storage u → step readSize writeSize storage u action = some v →
      Sound readSize writeSize storage v := by
    intro u action v sound stepped
    cases action with
    | complete result answer => exact sound.complete stepped
    | writeOn answer => exact sound.writeOn stepped
  have fresh : Sound readSize writeSize storage begun :=
    suspend_sound (Body.sequential (sessionHard2 blockSize setOptionErr)).start_orderly (by simp) called
  exact run_invariant kept path fresh

/-- What the session can do it can do with the memory of its awaiters, if its operations fit. -/
theorem Sound.able {result : Result blockSize} {next : SessionState blockSize}
    (sound : Sound readSize writeSize storage s)
    (fitsRead : readSize ≤ storageSize) (fitsWrite : writeSize ≤ storageSize)
    (moved : Process.step (sessionHard2 blockSize 0).actor s.session (0, result) = some next) :
    ∃ t, step readSize writeSize storage s (.complete result none) = some t ∧ t.session = next := by
  cases sound.borrows with
  | gone absent idle => simp [Process.step, idle] at moved
  | waiting object operation alloc present single alive awaiter lends tied =>
    have orderly : Orderly next :=
      (Body.sequential (sessionHard2 blockSize 0)).step (.waiting object operation present single alive) moved
    obtain ⟨rest, finished, free⟩ := lends.finish
    have able : ∃ t, suspend readSize writeSize storage (s.asked ++ rest.asked) (s.dangling + rest.loans.length) none
        next = some t ∧ t.session = next := suspend_able orderly fitsRead fitsWrite _
    obtain ⟨t, suspended, same⟩ := able
    exact ⟨t, by simp [step, single, awaiter, finished, moved, suspended], same⟩

theorem Sound.able_on {bytes : List UInt8} (sound : Sound readSize writeSize storage s)
    (fits : writeSize ≤ storageSize) (writing : s.session.inFlight = [.asyncWrite bytes]) :
    ∃ t, step readSize writeSize storage s (.writeOn none) = some t ∧ t.session = s.session := by
  cases sound.borrows with
  | gone absent idle => simp [idle] at writing
  | waiting object operation alloc present single alive awaiter lends tied =>
    obtain rfl : operation = .asyncWrite bytes := by simpa [single] using writing
    obtain ⟨rest, finished, free⟩ := lends.finish
    obtain ⟨alloc', started⟩ := free.start_small fits
    simp only [need] at finished started
    exact ⟨{ s with alloc := some alloc' }, by simp [step, single, awaiter, finished, started], rfl⟩

end

/-- What the session waits for, and the memory that it has for it in its awaiter. -/
inductive Lent {blockSize : Nat} (readSize writeSize : UInt64) (storage : Nat) (s : State blockSize) : Prop where
  | gone (idle : s.session.inFlight = []) (noAwaiter : s.alloc = none)
  | waiting (operation : Operation) (alloc : Lender) (p : Nat) (single : s.session.inFlight = [operation])
      (awaiter : s.alloc = some alloc) (asked : ∀ size ∈ alloc.asked, storageSize < size)
      (sole : alloc.loans = [⟨p, true⟩]) (placed : Placed (need readSize writeSize operation) storage alloc ⟨p, true⟩)

theorem Sound.lent {readSize writeSize : UInt64} {storage : Nat} {s : State blockSize}
    (sound : Sound readSize writeSize storage s) : Lent readSize writeSize storage s := by
  cases sound.borrows with
  | gone absent idle once noAwaiter => exact .gone idle noAwaiter
  | waiting object operation alloc present single alive awaiter lends tied =>
    obtain ⟨loan, sole⟩ := List.length_eq_one_iff.mp lends.count
    have held : loan ∈ alloc.loans := by simp [sole]
    obtain ⟨p, kind⟩ := loan
    obtain rfl : kind = true := tied _ held
    exact .waiting operation alloc p single awaiter lends.asked sole ((lends.placed held).1 rfl)

/-- Whatever completes, and however often a write goes on: every awaiter gets its block back
before it goes; while the session waits its operation has one block, which is in the awaiter
if it fits; `operator new` is asked for larger ones only; and if both kinds of operation fit,
the session can do all that it could do with memory without bounds, even where `operator new`
always throws. -/
theorem awaiters_lend (readSize writeSize : UInt64) (storage : Nat) (setOptionErr : ErrorCode) (answer : Option Nat)
    (actions : List (Action blockSize)) (begun s : State blockSize)
    (called : create readSize writeSize storage setOptionErr answer = some begun)
    (path : run (step readSize writeSize storage) begun actions = some s) :
    s.dangling = 0 ∧ (∀ size ∈ s.asked, storageSize < size) ∧ Lent readSize writeSize storage s ∧
      (readSize ≤ storageSize → writeSize ≤ storageSize → ∀ result next,
        Process.step (sessionHard2 blockSize 0).actor s.session (0, result) = some next →
          ∃ t, step readSize writeSize storage s (.complete result none) = some t ∧ t.session = next) ∧
      (writeSize ≤ storageSize → ∀ bytes, s.session.inFlight = [.asyncWrite bytes] →
        ∃ t, step readSize writeSize storage s (.writeOn none) = some t ∧ t.session = s.session) := by
  have sound := Sound.run called path
  exact ⟨sound.safe, sound.large, sound.lent,
    fun fitsRead fitsWrite result next moved => sound.able fitsRead fitsWrite moved,
    fun fits bytes writing => sound.able_on fits writing⟩

/-- The write does not fit and goes on once, each time with a block of the heap. -/
theorem awaiters_lend_large_write :
    let actions : List (Action 1) := [.complete (.readDone 0 #v[7] 1) (some 64), .writeOn (some 80)]
    ∃ begun s, create 200 2000 4096 0 none = some begun ∧ run (step 200 2000 4096) begun actions = some s ∧
      s.session.inFlight = [.asyncWrite [7]] ∧ s.dangling = 0 ∧ Lent 200 2000 4096 s := by
  intro actions
  have lends := awaiters_lend 200 2000 4096 0 none actions _ _ rfl rfl
  exact ⟨_, _, rfl, rfl, rfl, lends.1, lends.2.2.1⟩

end Await.Live.AwaiterMemory
