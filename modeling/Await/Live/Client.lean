import Await.General.Transition
import Mathlib.Data.List.Basic
import Mathlib.Logic.Function.Basic

/-! `session` of `myclient.cpp`: an echo client that keeps a read and a write going at
the same time on two buffers. The session is driven by the strand, which runs the
handlers of its operations in any order, and by the reads filling their buffers. -/

namespace Await.Live.Client
open General.Transition

/-- The two arrays made by the constructor. `read_data_` and `write_data_` point to them. -/
inductive Buffer where
  | first | second
  deriving DecidableEq, Repr

/-- An `async_read_some` whose handler has not run. One begun on a closed socket fails. -/
structure Read where
  buffer : Buffer
  opened : Bool
  deriving DecidableEq, Repr

/-- An `async_write` whose handler has not run, with the bytes it was handed. -/
structure Write where
  buffer : Buffer
  length : Nat
  bytes : List UInt8
  opened : Bool
  deriving DecidableEq, Repr

variable {blockSize : Nat}

/-- The members of `session`, its operations in flight, and a record of the chunks
received, of the data handed to `async_write`, and of that which has been written. The
two counters are of type `size_t`. -/
structure Session (blockSize : Nat) where
  data : Buffer → Vector UInt8 blockSize
  readData : Buffer := .first
  readDataLength : Nat := 0
  writeData : Buffer := .second
  unwrittenCount : Int := 0
  bytesWritten : UInt64 := 0
  bytesRead : UInt64 := 0
  connecting : Bool := true
  closed : Bool := false
  reads : List Read := []
  writes : List Write := []
  received : List (List UInt8) := []
  handed : List (List UInt8) := []
  sent : List (List UInt8) := []

/-- `write_data_[i] = static_cast<char>(i % 128)`. -/
def initialBlock (blockSize : Nat) : Vector UInt8 blockSize :=
  Vector.ofFn fun i => UInt8.ofNat (i % 128)

/-- The constructor and `start`. The read buffer is left uninitialised. -/
def Session.create (uninitialised : Vector UInt8 blockSize) : Session blockSize where
  data
    | .first => uninitialised
    | .second => initialBlock blockSize

/-- The first `length` bytes of a buffer. -/
def Session.bytes (s : Session blockSize) (buffer : Buffer) (length : Nat) : List UInt8 :=
  (s.data buffer).toList.take length

/-- `async_write(socket_, net::buffer(write_data_, length), ...)`. -/
def Session.asyncWrite (length : Nat) (s : Session blockSize) : Session blockSize :=
  let bytes := s.bytes s.writeData length
  { s with writes := s.writes ++ [⟨s.writeData, length, bytes, !s.closed⟩], handed := s.handed ++ [bytes] }

/-- `socket_.async_read_some(net::buffer(read_data_, block_size_), ...)`. -/
def Session.asyncReadSome (s : Session blockSize) : Session blockSize :=
  { s with reads := s.reads ++ [⟨s.readData, !s.closed⟩] }

/-- `std::swap(read_data_, write_data_)`, and both operations again. -/
def Session.exchange (s : Session blockSize) : Session blockSize :=
  ({ s with readData := s.writeData, writeData := s.readData }.asyncWrite s.readDataLength).asyncReadSome

def Session.handleConnect (err setOptionErr : Bool) (s : Session blockSize) : Session blockSize :=
  if !err then
    if !setOptionErr then
      ({ s with unwrittenCount := s.unwrittenCount + 1 }.asyncWrite blockSize).asyncReadSome
    else s
  else s

def Session.handleRead (err : Bool) (length : Nat) (s : Session blockSize) : Session blockSize :=
  if !err then
    let s := { s with
      bytesRead := s.bytesRead + UInt64.ofNat length
      readDataLength := length
      unwrittenCount := s.unwrittenCount + 1 }
    if s.unwrittenCount = 1 then s.exchange else s
  else s

def Session.handleWrite (err : Bool) (length : Nat) (s : Session blockSize) : Session blockSize :=
  if !err ∧ 0 < length then
    let s := { s with
      bytesWritten := s.bytesWritten + UInt64.ofNat length
      unwrittenCount := s.unwrittenCount - 1 }
    if s.unwrittenCount = 1 then s.exchange else s
  else s

/-- What can happen to a session. Operations in flight are named by their position. -/
inductive Action (blockSize : Nat) where
  | connected (err setOptionErr : Bool)
  | fill (read : Nat) (contents : Vector UInt8 blockSize)
  | readDone (read : Nat) (length : Option Nat)
  | writeDone (write : Nat) (success : Bool)
  | closeSocket

/-- A read writes to its own buffer only, and may do so until its handler runs. Its
length is `none` for an error. A successful write reports the length of its buffer.
Nothing that is begun on a closed socket succeeds. -/
def step (s : Session blockSize) : Action blockSize → Option (Session blockSize)
  | .connected err setOptionErr =>
      if s.connecting ∧ (s.closed → err ∨ setOptionErr) then
        some ({ s with connecting := false }.handleConnect err setOptionErr)
      else none
  | .fill read contents => do
      let r ← s.reads[read]?
      some { s with data := Function.update s.data r.buffer contents }
  | .readDone read none => do
      let _ ← s.reads[read]?
      some ({ s with reads := s.reads.eraseIdx read }.handleRead true 0)
  | .readDone read (some length) => do
      let r ← s.reads[read]?
      if r.opened ∧ 1 ≤ length ∧ length ≤ blockSize then
        some ({ s with
          reads := s.reads.eraseIdx read
          received := s.received ++ [s.bytes r.buffer length] }.handleRead false length)
      else none
  | .writeDone write false => do
      let _ ← s.writes[write]?
      some ({ s with writes := s.writes.eraseIdx write }.handleWrite true 0)
  | .writeDone write true => do
      let w ← s.writes[write]?
      if w.opened then
        some ({ s with
          writes := s.writes.eraseIdx write
          sent := s.sent ++ [w.bytes] }.handleWrite false w.length)
      else none
  | .closeSocket => some { s with closed := true }

section
variable {s t : Session blockSize} {action : Action blockSize} {actions : List (Action blockSize)}

/-- Which chunks have been handed on: all of them, or all but one that waits in the read
buffer while no read is going. -/
def Echoing (s : Session blockSize) : Prop :=
  ∃ chunks, s.handed = (initialBlock blockSize).toList :: chunks ∧
    (s.received = chunks ∧ s.unwrittenCount ≤ 1 ∨
      s.received = chunks ++ [s.bytes s.readData s.readDataLength] ∧ s.reads = [] ∧ s.unwrittenCount = 2)

/-- The session after a successful connect. A write in flight keeps the counter at 1 or
2, and each operation has its own buffer. -/
structure Running (s : Session blockSize) : Prop where
  settled : s.connecting = false
  apart : s.readData ≠ s.writeData
  reading : s.reads = [] ∨ ∃ r, s.reads = [r] ∧ r.buffer = s.readData
  writing : s.writes = [] ∨ 1 ≤ s.unwrittenCount ∧ ∃ w, s.writes = [w] ∧ w.buffer = s.writeData ∧
    1 ≤ w.length ∧ s.bytes w.buffer w.length = w.bytes ∧ s.handed.getLast? = some w.bytes
  counted : 0 ≤ s.unwrittenCount
  nonempty : s.unwrittenCount = 2 → 1 ≤ s.readDataLength
  echoing : Echoing s

@[simp] theorem exchange_reads : s.exchange.reads = s.reads ++ [⟨s.writeData, !s.closed⟩] := rfl

@[simp] theorem exchange_writes : s.exchange.writes =
    s.writes ++ [⟨s.readData, s.readDataLength, s.bytes s.readData s.readDataLength, !s.closed⟩] := rfl

@[simp] theorem exchange_handed :
    s.exchange.handed = s.handed ++ [s.bytes s.readData s.readDataLength] := rfl

/-- The two buffers trade places once the write buffer is free and the read buffer holds
a chunk that has not been handed on. -/
theorem exchange_running {chunks : List (List UInt8)} (settled : s.connecting = false)
    (apart : s.readData ≠ s.writeData) (noRead : s.reads = []) (noWrite : s.writes = [])
    (one : s.unwrittenCount = 1) (nonempty : 1 ≤ s.readDataLength)
    (handed : s.handed = (initialBlock blockSize).toList :: chunks)
    (received : s.received = chunks ++ [s.bytes s.readData s.readDataLength]) : Running s.exchange := by
  have one' : s.exchange.unwrittenCount = 1 := one
  refine ⟨settled, apart.symm, ?_, ?_, by omega, by omega, ?_⟩
  · exact .inr ⟨_, by rw [exchange_reads, noRead]; rfl, rfl⟩
  · exact .inr ⟨by omega, _, by rw [exchange_writes, noWrite]; rfl, rfl, nonempty, rfl, by simp⟩
  · exact ⟨chunks ++ [s.bytes s.readData s.readDataLength], by simp [handed], .inl ⟨received, by omega⟩⟩

theorem erase_sole {α : Type} {xs : List α} {x y : α} {i : Nat} (sole : xs = [x])
    (found : xs[i]? = some y) : y = x ∧ xs.eraseIdx i = [] := by
  subst sole
  cases i with
  | zero => exact ⟨by simpa using found.symm, rfl⟩
  | succ i => simp at found

theorem Running.read {r : Read} {i : Nat} (running : Running s) (found : s.reads[i]? = some r) :
    s.reads = [r] ∧ r.buffer = s.readData ∧ s.reads.eraseIdx i = [] := by
  rcases running.reading with none | ⟨r', sole, own⟩
  · simp [none] at found
  · obtain ⟨rfl, rest⟩ := erase_sole sole found
    exact ⟨sole, own, rest⟩

theorem Running.write {w : Write} {i : Nat} (running : Running s) (found : s.writes[i]? = some w) :
    1 ≤ s.unwrittenCount ∧ 1 ≤ w.length ∧ s.writes.eraseIdx i = [] := by
  rcases running.writing with none | ⟨busy, w', sole, -, nonempty, -⟩
  · simp [none] at found
  · obtain ⟨rfl, rest⟩ := erase_sole sole found
    exact ⟨busy, nonempty, rest⟩

/-- A read in flight fills a buffer that nobody else is using. -/
theorem Running.fill {i : Nat} {contents : Vector UInt8 blockSize} (running : Running s)
    (stepped : step s (.fill i contents) = some t) : Running t := by
  obtain ⟨r, found, rfl⟩ : ∃ r, s.reads[i]? = some r ∧
      { s with data := Function.update s.data r.buffer contents } = t := by
    simpa [step, Option.bind_eq_some_iff] using stepped
  obtain ⟨sole, own, -⟩ := running.read found
  refine ⟨running.settled, running.apart, running.reading, ?_, running.counted, running.nonempty, ?_⟩
  · rcases running.writing with none | ⟨busy, w, only, buffer, nonempty, intact, last⟩
    · exact .inl none
    · refine .inr ⟨busy, w, only, buffer, nonempty, ?_, last⟩
      have other : w.buffer ≠ r.buffer := by
        rw [buffer, own]
        exact running.apart.symm
      simpa [Session.bytes, Function.update_of_ne other] using intact
  · obtain ⟨chunks, handed, ⟨received, few⟩ | ⟨-, noRead, -⟩⟩ := running.echoing
    · exact ⟨chunks, handed, .inl ⟨received, few⟩⟩
    · simp [noRead] at sole

/-- A read that fails is not repeated. -/
theorem Running.readFailed {i : Nat} (running : Running s)
    (stepped : step s (.readDone i none) = some t) : Running t := by
  obtain ⟨⟨r, found⟩, rfl⟩ : (∃ r, s.reads[i]? = some r) ∧
      ({ s with reads := s.reads.eraseIdx i }.handleRead true 0) = t := by
    simpa [step, Option.bind_eq_some_iff] using stepped
  obtain ⟨sole, -, rest⟩ := running.read found
  refine ⟨running.settled, running.apart, .inl rest, running.writing, running.counted, running.nonempty, ?_⟩
  obtain ⟨chunks, handed, ⟨received, few⟩ | ⟨-, noRead, -⟩⟩ := running.echoing
  · exact ⟨chunks, handed, .inl ⟨received, few⟩⟩
  · simp [noRead] at sole

/-- A chunk arrives: it is handed on at once if no write is in flight, and waits if one is. -/
theorem Running.readDone {i length : Nat} (running : Running s)
    (stepped : step s (.readDone i (some length)) = some t) : Running t := by
  obtain ⟨r, found, ⟨-, positive, -⟩, rfl⟩ : ∃ r, s.reads[i]? = some r ∧
      (r.opened ∧ 1 ≤ length ∧ length ≤ blockSize) ∧
      ({ s with
        reads := s.reads.eraseIdx i
        received := s.received ++ [s.bytes r.buffer length] }.handleRead false length) = t := by
    simpa [step, Option.bind_eq_some_iff] using stepped
  obtain ⟨sole, own, rest⟩ := running.read found
  obtain ⟨chunks, handed, ⟨received, few⟩ | ⟨-, noRead, -⟩⟩ := running.echoing
  · have counted := running.counted
    by_cases idle : s.unwrittenCount = 0
    · have noWrite : s.writes = [] := by
        rcases running.writing with none | ⟨busy, -⟩
        · exact none
        · omega
      simp only [Session.handleRead, idle, Bool.not_false, if_true, Int.zero_add]
      exact exchange_running running.settled running.apart rest noWrite rfl positive handed
        (by simp [received, own, Session.bytes])
    · have one : s.unwrittenCount = 1 := by omega
      simp only [Session.handleRead, one, Bool.not_false, if_true]
      refine ⟨running.settled, running.apart, .inl rest, ?_, by simp, fun _ => positive, ?_⟩
      · rcases running.writing with none | ⟨-, kept⟩
        · exact .inl none
        · exact .inr ⟨by simp, kept⟩
      · exact ⟨chunks, handed, .inr ⟨by simp [received, own, Session.bytes], rest, rfl⟩⟩
  · simp [noRead] at sole

/-- A write that fails is not followed by another. -/
theorem Running.writeFailed {i : Nat} (running : Running s)
    (stepped : step s (.writeDone i false) = some t) : Running t := by
  obtain ⟨⟨w, found⟩, rfl⟩ : (∃ w, s.writes[i]? = some w) ∧
      ({ s with writes := s.writes.eraseIdx i }.handleWrite true 0) = t := by
    simpa [step, Option.bind_eq_some_iff] using stepped
  obtain ⟨-, -, rest⟩ := running.write found
  exact ⟨running.settled, running.apart, running.reading, .inl rest, running.counted, running.nonempty,
    running.echoing⟩

/-- A write has ended: the chunk that waits, if there is one, is handed on. -/
theorem Running.writeDone {i : Nat} (running : Running s)
    (stepped : step s (.writeDone i true) = some t) : Running t := by
  obtain ⟨w, found, -, rfl⟩ : ∃ w, s.writes[i]? = some w ∧ w.opened ∧
      ({ s with
        writes := s.writes.eraseIdx i
        sent := s.sent ++ [w.bytes] }.handleWrite false w.length) = t := by
    simpa [step, Option.bind_eq_some_iff] using stepped
  obtain ⟨busy, positive, rest⟩ := running.write found
  have advance : 0 < w.length := positive
  obtain ⟨chunks, handed, ⟨received, few⟩ | ⟨received, noRead, two⟩⟩ := running.echoing
  · have one : s.unwrittenCount = 1 := by omega
    simp only [Session.handleWrite, one, advance]
    refine ⟨running.settled, running.apart, running.reading, .inl rest, by simp, by simp, ?_⟩
    exact ⟨chunks, handed, .inl ⟨received, by simp⟩⟩
  · simp only [Session.handleWrite, two, advance]
    exact exchange_running running.settled running.apart noRead rest rfl
      (running.nonempty two) handed received

theorem Running.step (running : Running s) (stepped : Client.step s action = some t) : Running t := by
  cases action with
  | connected err setOptionErr => simp [Client.step, running.settled] at stepped
  | fill i contents => exact running.fill stepped
  | readDone i length =>
    cases length with
    | none => exact running.readFailed stepped
    | some length => exact running.readDone stepped
  | writeDone i success =>
    cases success with
    | false => exact running.writeFailed stepped
    | true => exact running.writeDone stepped
  | closeSocket =>
    obtain rfl : { s with closed := true } = t := by simpa [Client.step] using stepped
    exact ⟨running.settled, running.apart, running.reading, running.writing, running.counted,
      running.nonempty, running.echoing⟩

/-- Before a successful connect nothing is in flight, and until the connect is answered
the session is as it was made. -/
structure Unconnected (uninitialised : Vector UInt8 blockSize) (s : Session blockSize) : Prop where
  noRead : s.reads = []
  noWrite : s.writes = []
  fresh : s.connecting = true → s = { Session.create uninitialised with closed := s.closed }

/-- The initial block is written first, from the write buffer as the constructor left it. -/
theorem Unconnected.connect {uninitialised : Vector UInt8 blockSize} (unconnected : Unconnected uninitialised s)
    (positive : 1 ≤ blockSize) (stepped : step s (.connected false false) = some t) : Running t := by
  obtain ⟨⟨connecting, opened⟩, rfl⟩ : (s.connecting = true ∧ s.closed = false) ∧
      ({ s with connecting := false }.handleConnect false false) = t := by
    simpa [step] using stepped
  have fresh := unconnected.fresh connecting
  rw [opened] at fresh
  subst fresh
  simp only [Session.handleConnect, Bool.not_false, if_true]
  refine ⟨rfl, by simp [Session.create, Session.asyncReadSome, Session.asyncWrite], .inr ⟨_, rfl, rfl⟩,
    .inr ⟨by simp [Session.create, Session.asyncReadSome, Session.asyncWrite], _, rfl, rfl, positive, rfl, rfl⟩,
    by simp [Session.create, Session.asyncReadSome, Session.asyncWrite],
    by simp [Session.create, Session.asyncReadSome, Session.asyncWrite], [], ?_, .inl ⟨rfl, ?_⟩⟩
  · simp [Session.create, Session.asyncReadSome, Session.asyncWrite, Session.bytes]
  · simp [Session.create, Session.asyncReadSome, Session.asyncWrite]

theorem Unconnected.step {uninitialised : Vector UInt8 blockSize} (unconnected : Unconnected uninitialised s)
    (stepped : Client.step s action = some t) (other : action ≠ .connected false false) :
    Unconnected uninitialised t := by
  cases action with
  | connected err setOptionErr =>
    obtain ⟨-, rfl⟩ : _ ∧ ({ s with connecting := false }.handleConnect err setOptionErr) = t := by
      simpa [Client.step] using stepped
    have failed : ({ s with connecting := false } : Session blockSize).handleConnect err setOptionErr =
        { s with connecting := false } := by
      cases err <;> cases setOptionErr <;> simp_all [Session.handleConnect]
    rw [failed]
    exact ⟨unconnected.noRead, unconnected.noWrite, by simp⟩
  | fill i contents => simp [Client.step, unconnected.noRead] at stepped
  | readDone i length => cases length <;> simp [Client.step, unconnected.noRead] at stepped
  | writeDone i success => cases success <;> simp [Client.step, unconnected.noWrite] at stepped
  | closeSocket =>
    obtain rfl : { s with closed := true } = t := by simpa [Client.step] using stepped
    refine ⟨unconnected.noRead, unconnected.noWrite, fun connecting => ?_⟩
    have fresh := unconnected.fresh connecting
    simp only at fresh ⊢
    rw [fresh]

theorem Running.run (running : Running s) (path : run Client.step s actions = some t) : Running t :=
  run_invariant (fun _ _ _ running stepped => running.step stepped) path running

theorem Unconnected.run {uninitialised : Vector UInt8 blockSize} (unconnected : Unconnected uninitialised s)
    (positive : 1 ≤ blockSize) (path : run Client.step s actions = some t)
    (connected : .connected false false ∈ actions) : Running t := by
  induction actions generalizing s with
  | nil => simp at connected
  | cons action actions ih =>
    obtain ⟨next, head, tail⟩ := run_cons.mp path
    by_cases now : action = .connected false false
    · subst now
      exact (unconnected.connect positive head).run tail
    · have later := (List.mem_cons.mp connected).resolve_left (Ne.symm now)
      exact ih (unconnected.step head now) tail later

end

/-- What the session keeps to after a successful connect. The chunks handed on are the
first ones received; at most one more has come in, and it waits intact in the read
buffer with no read going. -/
structure Sound (s : Session blockSize) : Prop where
  oneRead : s.reads.length ≤ 1
  oneWrite : s.writes.length ≤ 1
  apart : ∀ r ∈ s.reads, ∀ w ∈ s.writes, r.buffer ≠ w.buffer
  counter : s.unwrittenCount = 0 ∨ s.unwrittenCount = 1 ∨ s.unwrittenCount = 2
  echoed : ∃ chunks, s.handed = (initialBlock blockSize).toList :: chunks ∧
    s.handed.flatten = (initialBlock blockSize).toList ++ chunks.flatten ∧
    (s.received = chunks ∨
      s.received = chunks ++ [s.bytes s.readData s.readDataLength] ∧ s.reads = [])
  intact : ∀ w ∈ s.writes, s.bytes w.buffer w.length = w.bytes ∧ s.handed.getLast? = some w.bytes

/-- In every state after a successful connect, whatever completes in whatever order. -/
theorem session_sound (uninitialised : Vector UInt8 blockSize) (actions : List (Action blockSize))
    (s : Session blockSize) (positive : 1 ≤ blockSize)
    (path : run step (Session.create uninitialised) actions = some s)
    (connected : .connected false false ∈ actions) : Sound s := by
  have fresh : Unconnected uninitialised (Session.create uninitialised) := ⟨rfl, rfl, fun _ => rfl⟩
  have running := fresh.run positive path connected
  obtain ⟨chunks, handed, waiting⟩ := running.echoing
  have counted := running.counted
  refine ⟨?_, ?_, ?_, ?_, ⟨chunks, handed, by rw [handed, List.flatten_cons], ?_⟩, ?_⟩
  · rcases running.reading with none | ⟨r, sole, -⟩
    · simp [none]
    · simp [sole]
  · rcases running.writing with none | ⟨-, w, sole, -⟩
    · simp [none]
    · simp [sole]
  · intro r reading w writing
    rcases running.reading with none | ⟨r', sole, own⟩
    · simp [none] at reading
    rcases running.writing with none | ⟨-, w', only, buffer, -⟩
    · simp [none] at writing
    obtain rfl : r = r' := by simpa [sole] using reading
    obtain rfl : w = w' := by simpa [only] using writing
    rw [own, buffer]
    exact running.apart
  · rcases waiting with ⟨-, few⟩ | ⟨-, -, two⟩ <;> omega
  · exact waiting.imp And.left fun ⟨received, noRead, _⟩ => ⟨received, noRead⟩
  · intro w writing
    rcases running.writing with none | ⟨-, w', only, -, -, intact, last⟩
    · simp [none] at writing
    · obtain rfl : w = w' := by simpa [only] using writing
      exact ⟨intact, last⟩

theorem session_sound_one_chunk :
    ∃ s, run step (Session.create #v[0, 0]) [.connected false false, .fill 0 #v[7, 8], .readDone 0 (some 1),
      .writeDone 0 true] = some s ∧ Sound s :=
  ⟨_, rfl, session_sound #v[0, 0] [.connected false false, .fill 0 #v[7, 8], .readDone 0 (some 1),
    .writeDone 0 true] _ (by decide) rfl (List.mem_cons_self ..)⟩

end Await.Live.Client
