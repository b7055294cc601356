import Await.Live.HandlerMemory
import Await.Live.SessionSteps

/-! The memory of the operations of `session` in `myclient.cpp`. `make_custom_alloc_handler`
ties a handler to `read_allocator_` or `write_allocator_`: an operation takes a block when it
is started, and gives it back before its handler is called. -/

namespace Await.Live.ClientMemory
open Client HandlerMemory General.Transition SessionSteps

/-- The memory of an operation in flight, and whether its handler is tied to the
`handler_allocator`. The memory of the others comes from the default allocator. -/
structure Loan where
  pointer : Nat
  tied : Bool
  deriving DecidableEq, Repr

/-- A `handler_allocator` with the heap behind it, the memory of each operation in flight, and
the sizes for which the allocator has asked `operator new`. -/
structure Lender where
  memory : Memory
  loans : List Loan := []
  asked : List UInt64 := []

/-- A `handler_allocator` at some address. -/
def Lender.create (storage : Nat) : Lender where
  memory := ⟨{ storage }, fun _ => none⟩

/-- An operation of `size` bytes is started. `operator new` gives `answer` if it is asked;
`none`: `bad_alloc` is thrown out of the handler, and ends the program. -/
def Lender.start (size : UInt64) (answer : Option Nat) (l : Lender) : Option Lender :=
  if l.memory.Offers answer then
    match SimpleAllocator.allocate char size answer l.memory with
    | (some p, memory) => some {
        memory
        loans := l.loans ++ [⟨p, true⟩]
        asked := if p = l.memory.myAlloc.storage then l.asked else l.asked ++ [size] }
    | (none, _) => none
  else none

/-- An operation with a handler that is not tied to the allocator is started. The default
allocator asks `operator new`, which may throw here too. -/
def Lender.startDefault (size : UInt64) (answer : Option Nat) (l : Lender) : Option Lender :=
  if l.memory.Offers answer then
    answer.map fun p => { l with
      memory := { l.memory with heap := Function.update l.memory.heap p (some size) }
      loans := l.loans ++ [⟨p, false⟩] }
  else none

/-- The operation numbered `i` has ended. -/
def Lender.finish (size : UInt64) (i : Nat) (l : Lender) : Option Lender := do
  let loan ← l.loans[i]?
  let loans := l.loans.eraseIdx i
  if loan.tied then
    some { l with memory := (SimpleAllocator.deallocate loan.pointer size l.memory).2, loans }
  else
    some { l with memory := { l.memory with heap := Function.update l.memory.heap loan.pointer none }, loans }

/-- The session with `read_allocator_` and `write_allocator_`. -/
structure State (blockSize : Nat) where
  session : Session blockSize
  read : Lender
  write : Lender

/-- What happens to the session, with the answers of `operator new` for the operations that
are started then; or an `async_write` goes on with another part of its buffer, for which it
gives its block back and takes one again. -/
inductive Action (blockSize : Nat) where
  | session (action : Client.Action blockSize) (readAnswer writeAnswer : Option Nat)
  | writeOn (i : Nat) (answer : Option Nat)

/-- The read or the write whose handler is called. -/
def readEnds {blockSize : Nat} : Client.Action blockSize → Option Nat
  | .readDone i _ => some i
  | _ => none

def writeEnds {blockSize : Nat} : Client.Action blockSize → Option Nat
  | .writeDone i _ => some i
  | _ => none

/-- `handle_connect` does not tie the handler of its write to `write_allocator_`. -/
def tied {blockSize : Nat} : Client.Action blockSize → Bool
  | .connected err setOptionErr => err || setOptionErr
  | _ => true

/-- Memory for each operation that the handler has started: the last ones in flight. One
that is not tied is of another type, and of another size. -/
def Lender.supply (size plainSize : UInt64) (tied : Bool) (answer : Option Nat) (inFlight : Nat) (l : Lender) :
    Option Lender :=
  if l.loans.length < inFlight then
    if tied then l.start size answer else l.startDefault plainSize answer
  else some l

/-- What happens to one of the allocators while the session makes a step. -/
def Lender.serve (size plainSize : UInt64) (ends : Option Nat) (tied : Bool) (answer : Option Nat) (inFlight : Nat)
    (l : Lender) : Option Lender := do
  let l ← match ends with
    | some i => l.finish size i
    | none => some l
  l.supply size plainSize tied answer inFlight

section
variable {blockSize : Nat} (readSize writeSize plainSize : UInt64)

def step (s : State blockSize) : Action blockSize → Option (State blockSize)
  | .session action readAnswer writeAnswer => do
      let session ← Client.step s.session action
      let read ← s.read.serve readSize plainSize (readEnds action) true readAnswer session.reads.length
      let write ← s.write.serve writeSize plainSize (writeEnds action) (tied action) writeAnswer session.writes.length
      some { session, read, write }
  | .writeOn i answer => do
      let loan ← s.write.loans[i]?
      let write ← s.write.serve writeSize plainSize (some i) loan.tied answer s.session.writes.length
      some { s with write }

def create (uninitialised : Vector UInt8 blockSize) (readStorage writeStorage : Nat) : State blockSize where
  session := Session.create uninitialised
  read := .create readStorage
  write := .create writeStorage

end

/-! ### One operation at a time -/

/-- Whose the memory is: nobody's, or that of one operation, which has the inline block if it
is tied and fits into it, and a block of the heap otherwise. -/
inductive Lent (size : UInt64) (m : Memory) : List Loan → Prop where
  | free (unused : m.myAlloc.inUse = false) (empty : m.heap = fun _ => none) : Lent size m []
  | inline (small : size ≤ storageSize) (used : m.myAlloc.inUse = true) (empty : m.heap = fun _ => none) :
      Lent size m [⟨m.myAlloc.storage, true⟩]
  | heap (p : Nat) (tied : Bool) (bytes : UInt64) (large : tied = true → storageSize < size ∧ bytes = size)
      (outside : p ≠ m.myAlloc.storage) (unused : m.myAlloc.inUse = false)
      (sole : m.heap = Function.update (fun _ => none) p (some bytes)) : Lent size m [⟨p, tied⟩]

/-- The allocator while so many operations are in flight. -/
structure Lends (size : UInt64) (storage inFlight : Nat) (l : Lender) : Prop where
  place : l.memory.myAlloc.storage = storage
  lent : Lent size l.memory l.loans
  count : l.loans.length = inFlight
  asked : ∀ asked ∈ l.asked, storageSize < asked

section
variable {size : UInt64} {storage inFlight : Nat} {l l' : Lender} {answer : Option Nat} {m : Memory}

/-- A free allocator serves what fits from its block, whatever `operator new` would do. -/
theorem allocate_small (unused : m.myAlloc.inUse = false) (small : size ≤ storageSize) :
    SimpleAllocator.allocate char size answer m =
      (some m.myAlloc.storage, { m with myAlloc := { m.myAlloc with inUse := true } }) := by
  simp [SimpleAllocator.allocate, HandlerAllocator.allocate, char, unused, small]

theorem allocate_large (unused : m.myAlloc.inUse = false) (large : ¬size ≤ storageSize) (p : Nat) :
    SimpleAllocator.allocate char size (some p) m =
      (some p, { m with heap := Function.update m.heap p (some size) }) := by
  simp [SimpleAllocator.allocate, HandlerAllocator.allocate, char, unused, large]

theorem allocate_throws (unused : m.myAlloc.inUse = false) (large : ¬size ≤ storageSize) :
    SimpleAllocator.allocate char size none m = (none, m) := by
  simp [SimpleAllocator.allocate, HandlerAllocator.allocate, char, unused, large]

/-- As long as no operation is in flight all memory is free. -/
theorem Lends.idle (lends : Lends size storage 0 l) :
    l.loans = [] ∧ l.memory.myAlloc.inUse = false ∧ l.memory.heap = fun _ => none := by
  have none_out : l.loans = [] := List.length_eq_zero_iff.mp lends.count
  have lent := lends.lent
  rw [none_out] at lent
  cases lent with
  | free unused empty => exact ⟨none_out, unused, empty⟩

theorem Lends.start (lends : Lends size storage 0 l) (started : l.start size answer = some l') :
    Lends size storage 1 l' ∧ ∀ loan ∈ l'.loans, loan.tied = true := by
  obtain ⟨none_out, unused, empty⟩ := lends.idle
  simp only [Lender.start, Option.ite_none_right_eq_some] at started
  obtain ⟨offered, served⟩ := started
  by_cases small : size ≤ storageSize
  · simp only [allocate_small unused small, if_true, Option.some.injEq, none_out, List.nil_append] at served
    subst served
    exact ⟨⟨lends.place, .inline small rfl empty, rfl, lends.asked⟩, by simp⟩
  · cases answer with
    | none =>
      rw [allocate_throws unused small] at served
      cases served
    | some p =>
      obtain ⟨outside, -⟩ := offered p rfl
      have large : storageSize < size := UInt64.not_le.mp small
      simp only [allocate_large unused small, if_neg outside, Option.some.injEq, none_out, List.nil_append] at served
      subst served
      refine ⟨⟨lends.place, .heap p true size (fun _ => ⟨large, rfl⟩) outside unused (by rw [empty]), rfl, ?_⟩, by simp⟩
      intro other member
      rcases List.mem_append.mp member with earlier | now
      · exact lends.asked other earlier
      · exact List.mem_singleton.mp now ▸ large

/-- What fits is served even where `operator new` always throws. -/
theorem Lends.start_small (lends : Lends size storage 0 l) (small : size ≤ storageSize) :
    ∃ l', l.start size none = some l' := by
  obtain ⟨-, unused, -⟩ := lends.idle
  have offered : l.memory.Offers none := by simp [Memory.Offers]
  exact ⟨_, by rw [Lender.start, if_pos offered, allocate_small unused small]⟩

theorem Lends.startDefault {bytes : UInt64} (lends : Lends size storage 0 l)
    (started : l.startDefault bytes answer = some l') : Lends size storage 1 l' := by
  obtain ⟨none_out, unused, empty⟩ := lends.idle
  simp only [Lender.startDefault, Option.ite_none_right_eq_some, Option.map_eq_some_iff] at started
  obtain ⟨offered, p, rfl, rfl⟩ := started
  obtain ⟨outside, -⟩ := offered p rfl
  refine ⟨lends.place, ?_, by simp [none_out], lends.asked⟩
  simp only [none_out, List.nil_append]
  exact .heap p false bytes nofun outside unused (by rw [empty])

theorem startDefault_some {bytes : UInt64} {p : Nat} (offered : l.memory.Offers (some p)) :
    ∃ l', l.startDefault bytes (some p) = some l' := ⟨_, if_pos offered⟩

/-- The memory is free again before the handler runs. -/
theorem Lends.finish (lends : Lends size storage 1 l) :
    ∃ l', l.finish size 0 = some l' ∧ Lends size storage 0 l' := by
  obtain ⟨place, lent, count, asked⟩ := lends
  generalize known : l.loans = loans at lent count
  cases lent with
  | free => cases count
  | inline small used empty =>
    refine ⟨{ l with memory := _, loans := [] }, by simp [Lender.finish, known]; rfl, ?_⟩
    rw [deallocate_inline]
    exact ⟨place, .free rfl empty, rfl, asked⟩
  | heap p tied bytes large outside unused sole =>
    have freed : Function.update l.memory.heap p none = fun _ => none := by
      rw [sole, Function.update_idem]
      exact Function.update_eq_self p _
    refine ⟨{ l with memory := { l.memory with heap := fun _ => none }, loans := [] }, ?_, place, .free unused rfl, rfl, asked⟩
    cases tied <;> simp [Lender.finish, known, deallocate_heap outside, freed]

/-- What serving a step comes to: an operation in flight ends or goes on, and afterwards there
is at most one, which may be new. -/
theorem Lends.serve {plainSize : UInt64} {ends : Option Nat} {tied : Bool} {before after : Nat}
    (lends : Lends size storage before l)
    (ended : ends = none ∧ before ≤ after ∨ ends = some 0 ∧ before = 1) (few : after ≤ 1) :
    (∀ answer l', l.serve size plainSize ends tied answer after = some l' → Lends size storage after l' ∧
        ∀ loan ∈ l'.loans, loan.tied = false → tied = false ∨ ends = none ∧ loan ∈ l.loans) ∧
      (size ≤ storageSize → ∀ answer, (tied = true → answer = none) →
        (tied = false → ends = none ∧ ∃ p, answer = some p ∧ l.memory.Offers answer) →
        ∃ l', l.serve size plainSize ends tied answer after = some l') := by
  obtain ⟨mid, rest, lends', fewer, kept, serve_eq⟩ : ∃ mid rest, Lends size storage rest mid ∧ rest ≤ after ∧
      (ends = none ∧ mid = l ∨ rest = 0 ∧ ends ≠ none) ∧
      ∀ answer, l.serve size plainSize ends tied answer after = mid.supply size plainSize tied answer after := by
    rcases ended with ⟨rfl, fewer⟩ | ⟨rfl, rfl⟩
    · exact ⟨l, before, lends, fewer, .inl ⟨rfl, rfl⟩, fun _ => rfl⟩
    · obtain ⟨mid, finished, lends'⟩ := lends.finish
      refine ⟨mid, 0, lends', Nat.zero_le _, .inr ⟨rfl, by simp⟩, fun answer => ?_⟩
      simp [Lender.serve, finished]
  simp only [serve_eq, Lender.supply, lends'.count]
  by_cases more : rest < after
  · obtain rfl : rest = 0 := by omega
    obtain rfl : after = 1 := by omega
    cases tied with
    | true =>
      simp only [more, if_true]
      refine ⟨fun answer l' started => ?_, fun small answer throws _ => ?_⟩
      · obtain ⟨lends'', new⟩ := lends'.start started
        exact ⟨lends'', fun loan member plain => by simp [new loan member] at plain⟩
      · obtain rfl := throws trivial
        exact lends'.start_small small
    | false =>
      simp only [more, if_true, Bool.false_eq_true, if_false]
      refine ⟨fun answer l' started => ⟨lends'.startDefault started, fun _ _ _ => .inl trivial⟩,
        fun _ answer _ serves => ?_⟩
      obtain ⟨begins, p, rfl, offered⟩ := serves trivial
      rcases kept with ⟨-, rfl⟩ | ⟨-, other⟩
      · exact startDefault_some offered
      · exact absurd begins other
  · obtain rfl : rest = after := by omega
    simp only [if_neg more, Option.some.injEq]
    refine ⟨?_, fun _ _ _ _ => ⟨_, rfl⟩⟩
    rintro answer _ rfl
    refine ⟨lends', fun loan member _ => ?_⟩
    rcases kept with ⟨begins, rfl⟩ | ⟨rfl, -⟩
    · exact .inr ⟨begins, member⟩
    · simp [lends'.idle.1] at member

end

/-! ### The operations of a session -/

section
variable {blockSize : Nat} {uninitialised : Vector UInt8 blockSize} {s t : Session blockSize}
  {action : Client.Action blockSize}

theorem stage_few (stage : Stage uninitialised s) : s.reads.length ≤ 1 ∧ s.writes.length ≤ 1 := by
  cases stage with
  | idle _ idle => simp [idle.noRead, idle.noWrite]
  | running running _ =>
    constructor
    · rcases running.reading with none | ⟨r, sole, -⟩
      · simp [none]
      · simp [sole]
    · rcases running.writing with none | ⟨-, w, sole, -⟩
      · simp [none]
      · simp [sole]

theorem only_index {α : Type} {xs : List α} {x : α} {i : Nat} (found : xs[i]? = some x) (few : xs.length ≤ 1) :
    i = 0 ∧ xs.length = 1 := by
  obtain ⟨inside, -⟩ := List.getElem?_eq_some_iff.mp found
  omega

theorem readDone_found {i : Nat} {length : Option Nat} (stepped : Client.step s (.readDone i length) = some t) :
    ∃ r, s.reads[i]? = some r := by
  cases length with
  | none =>
    obtain ⟨r, found, -⟩ := Option.bind_eq_some_iff.mp stepped
    exact ⟨r, found⟩
  | some n =>
    obtain ⟨r, found, -⟩ := Option.bind_eq_some_iff.mp stepped
    exact ⟨r, found⟩

theorem writeDone_found {i : Nat} {success : Bool} (stepped : Client.step s (.writeDone i success) = some t) :
    ∃ w, s.writes[i]? = some w := by
  cases success with
  | false =>
    obtain ⟨w, found, -⟩ := Option.bind_eq_some_iff.mp stepped
    exact ⟨w, found⟩
  | true =>
    obtain ⟨w, found, -⟩ := Option.bind_eq_some_iff.mp stepped
    exact ⟨w, found⟩

/-- A handler is called for the only operation of its kind, and starts new ones after it. -/
theorem flights (stage : Stage uninitialised s) (stepped : Client.step s action = some t) :
    (readEnds action = none ∧ s.reads.length ≤ t.reads.length ∨ readEnds action = some 0 ∧ s.reads.length = 1) ∧
      (writeEnds action = none ∧ s.writes.length ≤ t.writes.length ∨
        writeEnds action = some 0 ∧ s.writes.length = 1) := by
  have few := stage_few stage
  cases stage with
  | idle _ idle =>
    cases action with
    | connected | closeSocket => simp [readEnds, writeEnds, idle.noRead, idle.noWrite]
    | fill i contents => simp [Client.step, idle.noRead] at stepped
    | readDone i length => cases length <;> simp [Client.step, idle.noRead] at stepped
    | writeDone i success => cases success <;> simp [Client.step, idle.noWrite] at stepped
  | running running _ =>
    cases action with
    | connected err setOptionErr => simp [Client.step, running.settled] at stepped
    | fill i contents =>
      rw [(fill_cases running stepped).2]
      simp [readEnds, writeEnds]
    | closeSocket =>
      obtain rfl : { s with closed := true } = t := by simpa [Client.step] using stepped
      simp [readEnds, writeEnds]
    | readDone i length =>
      obtain ⟨r, found⟩ := readDone_found stepped
      obtain ⟨rfl, one⟩ := only_index found few.1
      refine ⟨.inr ⟨rfl, one⟩, .inl ⟨rfl, ?_⟩⟩
      cases length with
      | none =>
        rw [(readFailed_cases running stepped).2]
      | some n =>
        rcases (readDone_cases running stepped).2 with ⟨-, noWrite, -⟩ | ⟨-, -, writes, -⟩
        · simp [noWrite]
        · rw [writes]
    | writeDone i success =>
      obtain ⟨w, found⟩ := writeDone_found stepped
      obtain ⟨rfl, one⟩ := only_index found few.2
      refine ⟨.inl ⟨rfl, ?_⟩, .inr ⟨rfl, one⟩⟩
      cases success with
      | false => rw [(writeFailed_cases running stepped).2.2]
      | true =>
        rcases (writeDone_cases running stepped).2 with ⟨-, -, -, reads, -⟩ | ⟨-, noRead, -⟩
        · rw [reads]
        · simp [noRead]

/-- As long as the first write is in flight nothing else is handed on. -/
theorem handed_first (stage : Stage uninitialised s) (stepped : Client.step s action = some t)
    (begun : tied action = false ∨ writeEnds action = none ∧ s.writes ≠ [] ∧ s.handed.length = 1) :
    t.handed.length = 1 := by
  cases stage with
  | idle _ idle =>
    have plain : tied action = false := begun.resolve_right fun later => later.2.1 idle.noWrite
    cases action with
    | connected err setOptionErr =>
      obtain ⟨rfl, rfl⟩ : err = false ∧ setOptionErr = false := by simpa [tied] using plain
      obtain ⟨⟨w, -, handed, -⟩, -⟩ := connect_cases idle stepped
      simp [handed]
    | fill | readDone | writeDone | closeSocket => cases plain
  | running running _ =>
    cases action with
    | connected err setOptionErr => simp [Client.step, running.settled] at stepped
    | fill i contents =>
      rw [(fill_cases running stepped).2]
      exact (begun.resolve_left (by simp [tied])).2.2
    | closeSocket =>
      obtain rfl : { s with closed := true } = t := by simpa [Client.step] using stepped
      exact (begun.resolve_left (by simp [tied])).2.2
    | readDone i length =>
      obtain ⟨-, busy, first⟩ := begun.resolve_left (by simp [tied])
      cases length with
      | none =>
        rw [(readFailed_cases running stepped).2]
        exact first
      | some n =>
        rcases (readDone_cases running stepped).2 with ⟨-, noWrite, -⟩ | ⟨-, handed, -⟩
        · exact absurd noWrite busy
        · rw [handed]
          exact first
    | writeDone i success => simp [tied, writeEnds] at begun

/-- The session does as it does without the allocators, and each of them serves it. Only the
first write has a handler that is not tied. -/
structure Served (uninitialised : Vector UInt8 blockSize) (readSize writeSize : UInt64) (readStorage writeStorage : Nat)
    (s : State blockSize) : Prop where
  stage : Stage uninitialised s.session
  read : Lends readSize readStorage s.session.reads.length s.read
  write : Lends writeSize writeStorage s.session.writes.length s.write
  reads : ∀ loan ∈ s.read.loans, loan.tied = true
  first : ∀ loan ∈ s.write.loans, loan.tied = false → s.session.handed.length = 1

variable {readSize writeSize plainSize : UInt64} {readStorage writeStorage : Nat} {w w' : State blockSize}

theorem create_lends (size : UInt64) (storage : Nat) : Lends size storage 0 (.create storage) :=
  ⟨rfl, .free rfl rfl, rfl, nofun⟩

theorem create_served (uninitialised : Vector UInt8 blockSize) (readSize writeSize : UInt64)
    (readStorage writeStorage : Nat) : Served uninitialised readSize writeSize readStorage writeStorage
      (create uninitialised readStorage writeStorage) :=
  ⟨create_stage uninitialised, create_lends readSize readStorage, create_lends writeSize writeStorage,
    nofun, nofun⟩

theorem Served.session {readAnswer writeAnswer : Option Nat} (positive : 1 ≤ blockSize)
    (served : Served uninitialised readSize writeSize readStorage writeStorage w)
    (stepped : step readSize writeSize plainSize w (.session action readAnswer writeAnswer) = some w') :
    Served uninitialised readSize writeSize readStorage writeStorage w' := by
  simp only [step, Option.bind_eq_bind, Option.bind_eq_some_iff, Option.some.injEq] at stepped
  obtain ⟨t, moved, read, readServed, write, writeServed, rfl⟩ := stepped
  have stage := served.stage.step positive moved
  obtain ⟨reading, writing⟩ := flights served.stage moved
  obtain ⟨fewReads, fewWrites⟩ := stage_few stage
  obtain ⟨readLends, readTied⟩ := (served.read.serve reading fewReads).1 _ read readServed
  obtain ⟨writeLends, writeTied⟩ := (served.write.serve writing fewWrites).1 _ write writeServed
  refine ⟨stage, readLends, writeLends, fun loan member => ?_, fun loan member plain => ?_⟩
  · by_contra plain
    rcases readTied loan member (by simpa using plain) with untied | ⟨-, old⟩
    · cases untied
    · exact plain (served.reads loan old)
  · refine handed_first served.stage moved ((writeTied loan member plain).imp_right fun ⟨goesOn, old⟩ => ?_)
    refine ⟨goesOn, fun none_out => ?_, served.first loan old plain⟩
    have count := served.write.count
    rw [none_out, List.length_nil, List.length_eq_zero_iff] at count
    simp [count] at old

/-- As long as the operations fit nothing depends on `operator new`, the first write apart. -/
theorem Served.able {answer : Option Nat} (positive : 1 ≤ blockSize)
    (served : Served uninitialised readSize writeSize readStorage writeStorage w) (fitsRead : readSize ≤ storageSize)
    (fitsWrite : writeSize ≤ storageSize) (moved : Client.step w.session action = some t)
    (throws : tied action = true → answer = none)
    (serves : tied action = false → ∃ p, answer = some p ∧ w.write.memory.Offers answer) :
    ∃ w', step readSize writeSize plainSize w (.session action none answer) = some w' ∧ w'.session = t := by
  obtain ⟨reading, writing⟩ := flights served.stage moved
  obtain ⟨fewReads, fewWrites⟩ := stage_few (served.stage.step positive moved)
  have begins : tied action = false → writeEnds action = none := by cases action <;> simp [tied, writeEnds]
  have canRead : ∃ read, w.read.serve readSize plainSize (readEnds action) true none t.reads.length = some read :=
    (served.read.serve reading fewReads).2 fitsRead none (fun _ => rfl) nofun
  have canWrite : ∃ write, w.write.serve writeSize plainSize (writeEnds action) (tied action) answer t.writes.length =
      some write :=
    (served.write.serve writing fewWrites).2 fitsWrite answer throws fun plain => ⟨begins plain, serves plain⟩
  obtain ⟨read, readServed⟩ := canRead
  obtain ⟨write, writeServed⟩ := canWrite
  exact ⟨⟨t, read, write⟩, by simp [step, moved, readServed, writeServed], rfl⟩

theorem Served.writeOn {i : Nat} {answer : Option Nat}
    (served : Served uninitialised readSize writeSize readStorage writeStorage w)
    (stepped : step readSize writeSize plainSize w (.writeOn i answer) = some w') :
    Served uninitialised readSize writeSize readStorage writeStorage w' := by
  simp only [step, Option.bind_eq_bind, Option.bind_eq_some_iff, Option.some.injEq] at stepped
  obtain ⟨loan, present, write, writeServed, rfl⟩ := stepped
  have few := (stage_few served.stage).2
  obtain ⟨rfl, one⟩ := only_index present (served.write.count.trans_le few)
  have sole : w.session.writes.length = 1 := served.write.count.symm.trans one
  obtain ⟨lends, new⟩ := (served.write.serve (.inr ⟨rfl, sole⟩) few).1 _ write writeServed
  refine ⟨served.stage, served.read, lends, served.reads, fun other member plain => ?_⟩
  rcases new other member plain with untied | ⟨ends, -⟩
  · exact served.first loan (List.mem_of_getElem? present) untied
  · cases ends

/-- A write that is tied and fits goes on even where `operator new` throws. -/
theorem Served.writeOn_able {i : Nat} {loan : Loan}
    (served : Served uninitialised readSize writeSize readStorage writeStorage w) (fits : writeSize ≤ storageSize)
    (present : w.write.loans[i]? = some loan) (tied : loan.tied = true) :
    ∃ w', step readSize writeSize plainSize w (.writeOn i none) = some w' := by
  have few := (stage_few served.stage).2
  obtain ⟨rfl, one⟩ := only_index present (served.write.count.trans_le few)
  have sole : w.session.writes.length = 1 := served.write.count.symm.trans one
  have can : ∃ write, w.write.serve writeSize plainSize (some 0) loan.tied none w.session.writes.length = some write :=
    (served.write.serve (.inr ⟨rfl, sole⟩) few).2 fits none (fun _ => rfl) (by simp [tied])
  obtain ⟨write, writeServed⟩ := can
  exact ⟨{ w with write }, by simp only [step, present, writeServed, Option.bind_eq_bind, Option.bind_some]⟩

theorem Served.run {actions : List (Action blockSize)} (positive : 1 ≤ blockSize)
    (path : run (step readSize writeSize plainSize) (create uninitialised readStorage writeStorage) actions = some w) :
    Served uninitialised readSize writeSize readStorage writeStorage w := by
  have kept : ∀ (u : State blockSize) (action : Action blockSize) (v : State blockSize),
      Served uninitialised readSize writeSize readStorage writeStorage u →
      step readSize writeSize plainSize u action = some v →
      Served uninitialised readSize writeSize readStorage writeStorage v := by
    intro u action v served stepped
    cases action with
    | session action readAnswer writeAnswer => exact served.session positive stepped
    | writeOn i answer => exact served.writeOn stepped
  have served := run_invariant kept path (create_served uninitialised readSize writeSize readStorage writeStorage)
  exact served

end

/-- Where the memory of an operation of this size is: in the allocator exactly if it fits. It
has room for the operation. -/
structure Placed (size : UInt64) (storage : Nat) (l : Lender) (loan : Loan) : Prop where
  inline : loan.pointer = storage ↔ size ≤ storageSize
  room : size.toNat ≤ l.memory.capacity loan.pointer

/-- The memory of an operation that is tied to its allocator, and of one that is not. -/
theorem Lends.placed {size : UInt64} {storage inFlight : Nat} {l : Lender} {loan : Loan}
    (lends : Lends size storage inFlight l) (held : loan ∈ l.loans) :
    (loan.tied = true → Placed size storage l loan) ∧ (loan.tied = false → loan.pointer ≠ storage) := by
  obtain ⟨place, lent, -, -⟩ := lends
  cases lent_eq : l.loans with
  | nil => simp [lent_eq] at held
  | cons first rest =>
    rw [lent_eq] at lent held
    cases lent with
    | inline small used empty =>
      obtain rfl : loan = ⟨l.memory.myAlloc.storage, true⟩ := by simpa using held
      refine ⟨fun _ => ⟨iff_of_true place small, ?_⟩, nofun⟩
      simpa [Memory.capacity] using UInt64.le_iff_toNat_le.mp small
    | heap p tied bytes large outside unused sole =>
      obtain rfl : loan = ⟨p, tied⟩ := by simpa using held
      refine ⟨fun yes => ⟨iff_of_false (place ▸ outside) (UInt64.not_le.mpr (large yes).1), ?_⟩, fun _ => place ▸ outside⟩
      simp [Memory.capacity, outside, sole, (large yes).2]

/-- How the two allocators of a session serve it. Of its reads and writes only the first write is
not tied to one of them: it needs `operator new`, which may throw. -/
structure Custom {blockSize : Nat} (readSize writeSize plainSize : UInt64) (readStorage writeStorage : Nat)
    (w : State blockSize) : Prop where
  asked : ∀ size ∈ w.read.asked ++ w.write.asked, storageSize < size
  reads : w.read.loans.length = w.session.reads.length ∧
    ∀ loan ∈ w.read.loans, loan.tied = true ∧ Placed readSize readStorage w.read loan
  writes : w.write.loans.length = w.session.writes.length ∧
    ∀ loan ∈ w.write.loans, loan.tied = true ∧ Placed writeSize writeStorage w.write loan ∨
      loan.tied = false ∧ w.session.handed.length = 1 ∧ loan.pointer ≠ writeStorage
  able : readSize ≤ storageSize → writeSize ≤ storageSize → ∀ action t answer,
    Client.step w.session action = some t → (tied action = true → answer = none) →
    (tied action = false → ∃ p, answer = some p ∧ w.write.memory.Offers answer) →
    ∃ w', step readSize writeSize plainSize w (.session action none answer) = some w' ∧ w'.session = t
  ableOn : writeSize ≤ storageSize → ∀ (i : Nat) loan, w.write.loans[i]? = some loan → loan.tied = true →
    ∃ w', step readSize writeSize plainSize w (.writeOn i none) = some w'

/-- Whatever completes in whatever order, and however often a write goes on: the allocators
ask `operator new` for operations only that are larger than their block, an operation that
fits is in the block, since no other one is, and if both kinds of operation fit the session
can do all that it could do with memory without bounds, even where `operator new` throws
whenever it is asked but for the first write. -/
theorem operations_in_block {blockSize : Nat} (uninitialised : Vector UInt8 blockSize)
    (readSize writeSize plainSize : UInt64) (readStorage writeStorage : Nat) (actions : List (Action blockSize))
    (w : State blockSize) (positive : 1 ≤ blockSize)
    (path : run (step readSize writeSize plainSize) (create uninitialised readStorage writeStorage) actions = some w) :
    Custom readSize writeSize plainSize readStorage writeStorage w := by
  have served := Served.run positive path
  refine ⟨fun size asked => ?_, ⟨served.read.count, fun loan held => ?_⟩, ⟨served.write.count, fun loan held => ?_⟩,
    fun fitsRead fitsWrite action t answer moved throws serves =>
      served.able positive fitsRead fitsWrite moved throws serves,
    fun fits i loan present tied => served.writeOn_able fits present tied⟩
  · rcases List.mem_append.mp asked with read | write
    · exact served.read.asked size read
    · exact served.write.asked size write
  · exact ⟨served.reads loan held, (served.read.placed held).1 (served.reads loan held)⟩
  · obtain ⟨tied, plain⟩ := served.write.placed held
    cases kind : loan.tied with
    | true => exact .inl ⟨rfl, tied kind⟩
    | false => exact .inr ⟨rfl, served.first loan held kind, plain kind⟩

/-- The initial write is not tied to the allocator, and goes on once; the write after it does
not fit and gets a block of the heap. -/
theorem operations_in_block_one_chunk :
    ∃ w, run (step 200 2000 120) (create #v[0, 0] 4096 8192) [.session (.connected false false) none (some 32),
        .session (.readDone 0 (some 1)) none none, .writeOn 0 (some 48),
        .session (.writeDone 0 true) none (some 64)] = some w ∧
      w.write.loans = [⟨64, true⟩] ∧ Custom 200 2000 120 4096 8192 w :=
  ⟨_, rfl, rfl, operations_in_block #v[0, 0] 200 2000 120 4096 8192 [.session (.connected false false) none (some 32),
    .session (.readDone 0 (some 1)) none none, .writeOn 0 (some 48), .session (.writeDone 0 true) none (some 64)] _
    (by decide) rfl⟩

end Await.Live.ClientMemory
