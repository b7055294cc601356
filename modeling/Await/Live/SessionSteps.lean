import Await.Live.Client

/-! What one step of `session` of `myclient.cpp` does: case by case, to its counters, and to
the handlers that are still to run once its socket is closed. -/

namespace Await.Live.SessionSteps
open Client General.Transition

variable {blockSize : Nat}

section
variable {s t : Session blockSize} {action : Action blockSize}

/-- A write in flight is the only one, and its buffer is as it was. -/
theorem write_in_flight {w : Write} {i : Nat} (running : Running s) (found : s.writes[i]? = some w) :
    s.writes = [w] ∧ s.writes.eraseIdx i = [] ∧ s.bytes w.buffer w.length = w.bytes ∧
      s.handed.getLast? = some w.bytes := by
  rcases running.writing with none | ⟨-, w', sole, -, -, intact, last⟩
  · simp [none] at found
  · obtain ⟨rfl, rest⟩ := erase_sole sole found
    exact ⟨sole, rest, intact, last⟩

/-- A chunk has come: it becomes a write of its own, or waits for the one in flight. -/
theorem readDone_cases {i n : Nat} (running : Running s) (stepped : step s (.readDone i (some n)) = some t) :
    ((∃ r, s.reads = [r] ∧ r.opened) ∧ 1 ≤ n ∧ n ≤ blockSize ∧ t.closed = s.closed ∧
        t.received = s.received ++ [s.bytes s.readData n] ∧ t.bytesRead = s.bytesRead + UInt64.ofNat n ∧
        t.bytesWritten = s.bytesWritten ∧ t.readDataLength = n ∧ t.sent = s.sent) ∧
      (s.unwrittenCount = 0 ∧ s.writes = [] ∧ t.handed = s.handed ++ [s.bytes s.readData n] ∧
          t.writes = [⟨s.readData, n, s.bytes s.readData n, !s.closed⟩] ∧
          t.reads = [⟨s.writeData, !s.closed⟩] ∧ t.unwrittenCount = 1 ∨
        s.unwrittenCount = 1 ∧ t.handed = s.handed ∧ t.writes = s.writes ∧ t.reads = [] ∧
          t.unwrittenCount = 2) := by
  obtain ⟨r, found, ⟨opened, positive, few⟩, rfl⟩ : ∃ r, s.reads[i]? = some r ∧
      (r.opened ∧ 1 ≤ n ∧ n ≤ blockSize) ∧
      ({ s with
        reads := s.reads.eraseIdx i
        received := s.received ++ [s.bytes r.buffer n] }.handleRead false n) = t := by
    simpa [step, Option.bind_eq_some_iff] using stepped
  obtain ⟨sole, own, rest⟩ := running.read found
  rw [sole] at rest
  have counted := running.counted
  have atMost : s.unwrittenCount ≤ 1 := by
    obtain ⟨chunks, -, ⟨-, few⟩ | ⟨-, noRead, -⟩⟩ := running.echoing
    · exact few
    · simp [noRead] at sole
  by_cases idle : s.unwrittenCount = 0
  · have noWrite : s.writes = [] := by
      rcases running.writing with none | ⟨busy, -⟩
      · exact none
      · omega
    simp [Session.handleRead, idle, noWrite, rest, sole, opened, own, positive, few, Session.exchange,
      Session.asyncWrite, Session.asyncReadSome, Session.bytes]
  · have one : s.unwrittenCount = 1 := by omega
    simp [Session.handleRead, one, rest, sole, opened, own, positive, few, Session.bytes]

/-- A write has ended: the chunk that waits is written next, if there is one. -/
theorem writeDone_cases {i : Nat} (running : Running s) (stepped : step s (.writeDone i true) = some t) :
    ((∃ w, s.writes = [w] ∧ w.opened ∧ 1 ≤ w.length ∧ s.handed.getLast? = some w.bytes ∧
          t.bytesWritten = s.bytesWritten + UInt64.ofNat w.length ∧ t.sent = s.sent ++ [w.bytes]) ∧
        t.closed = s.closed ∧ t.received = s.received ∧ t.bytesRead = s.bytesRead ∧
        t.readDataLength = s.readDataLength) ∧
      (s.unwrittenCount = 1 ∧ t.handed = s.handed ∧ t.writes = [] ∧ t.reads = s.reads ∧ t.unwrittenCount = 0 ∧
          t.data = s.data ∧ t.readData = s.readData ∨
        s.unwrittenCount = 2 ∧ s.reads = [] ∧ 1 ≤ s.readDataLength ∧
          t.handed = s.handed ++ [s.bytes s.readData s.readDataLength] ∧
          t.writes = [⟨s.readData, s.readDataLength, s.bytes s.readData s.readDataLength, !s.closed⟩] ∧
          t.reads = [⟨s.writeData, !s.closed⟩] ∧ t.unwrittenCount = 1) := by
  obtain ⟨w, found, opened, rfl⟩ : ∃ w, s.writes[i]? = some w ∧ w.opened ∧
      ({ s with
        writes := s.writes.eraseIdx i
        sent := s.sent ++ [w.bytes] }.handleWrite false w.length) = t := by
    simpa [step, Option.bind_eq_some_iff] using stepped
  obtain ⟨sole, rest, -, last⟩ := write_in_flight running found
  rw [sole] at rest
  obtain ⟨busy, positive, -⟩ := running.write found
  have advance : 0 < w.length := positive
  obtain ⟨chunks, handed, ⟨received, few⟩ | ⟨received, noRead, two⟩⟩ := running.echoing
  · have one : s.unwrittenCount = 1 := by omega
    simp [Session.handleWrite, one, positive, sole, opened, last, advance, rest]
  · simp [Session.handleWrite, two, positive, sole, opened, last, advance, rest, noRead, running.nonempty two,
      Session.exchange, Session.asyncWrite, Session.asyncReadSome, Session.bytes]

/-- A failed read leaves everything else as it is. -/
theorem readFailed_cases {i : Nat} (running : Running s) (stepped : step s (.readDone i none) = some t) :
    (∃ r, s.reads = [r]) ∧ t = { s with reads := [] } := by
  obtain ⟨⟨r, found⟩, rfl⟩ : (∃ r, s.reads[i]? = some r) ∧
      ({ s with reads := s.reads.eraseIdx i }.handleRead true 0) = t := by
    simpa [step, Option.bind_eq_some_iff] using stepped
  obtain ⟨sole, -, rest⟩ := running.read found
  exact ⟨⟨r, sole⟩, by simp [Session.handleRead, rest]⟩

theorem writeFailed_cases {i : Nat} (running : Running s) (stepped : step s (.writeDone i false) = some t) :
    (∃ w, s.writes = [w]) ∧ 1 ≤ s.unwrittenCount ∧ t = { s with writes := [] } := by
  obtain ⟨⟨w, found⟩, rfl⟩ : (∃ w, s.writes[i]? = some w) ∧
      ({ s with writes := s.writes.eraseIdx i }.handleWrite true 0) = t := by
    simpa [step, Option.bind_eq_some_iff] using stepped
  obtain ⟨sole, rest, -⟩ := write_in_flight running found
  exact ⟨⟨w, sole⟩, (running.write found).1, by simp [Session.handleWrite, rest]⟩

theorem fill_cases {i : Nat} {contents : Vector UInt8 blockSize} (running : Running s)
    (stepped : step s (.fill i contents) = some t) :
    (∃ r, s.reads = [r]) ∧ t = { s with data := Function.update s.data s.readData contents } := by
  obtain ⟨r, found, rfl⟩ : ∃ r, s.reads[i]? = some r ∧
      { s with data := Function.update s.data r.buffer contents } = t := by
    simpa [step, Option.bind_eq_some_iff] using stepped
  obtain ⟨sole, own, -⟩ := running.read found
  exact ⟨⟨r, sole⟩, by rw [own]⟩

/-! ### Its counters -/

/-- Nothing is connected, or the connection has failed. -/
structure Idle (s : Session blockSize) : Prop where
  noRead : s.reads = []
  noWrite : s.writes = []
  count : s.unwrittenCount = 0
  received : s.received = []
  handed : s.handed = []
  sent : s.sent = []
  bytesRead : s.bytesRead = 0
  bytesWritten : s.bytesWritten = 0
  readDataLength : s.readDataLength = 0

/-- The counters of a session count bytes (modulo 2^64): those received, and those written. What has been
handed on has been written, but for the last while it is going or if it has failed. -/
structure Accounts (s : Session blockSize) : Prop where
  read : s.bytesRead = UInt64.ofNat s.received.flatten.length
  written : s.bytesWritten = UInt64.ofNat s.sent.flatten.length
  idle : s.unwrittenCount = 0 → s.sent = s.handed
  busy : s.unwrittenCount ≠ 0 → s.sent = s.handed.dropLast
  fits : s.readDataLength ≤ blockSize
  lengths : ∀ w ∈ s.writes, w.bytes.length = w.length

theorem Idle.accounts (idle : Idle s) : Accounts s where
  read := by rw [idle.bytesRead, idle.received]; rfl
  written := by rw [idle.bytesWritten, idle.sent]; rfl
  idle _ := by rw [idle.sent, idle.handed]
  busy other := absurd idle.count other
  fits := by rw [idle.readDataLength]; exact Nat.zero_le _
  lengths := by simp [idle.noWrite]

theorem bytes_length {buffer : Buffer} {n : Nat} (few : n ≤ blockSize) : (s.bytes buffer n).length = n := by
  simp [Session.bytes, few]

theorem dropLast_concat {chunks : List (List UInt8)} {chunk : List UInt8} (last : chunks.getLast? = some chunk) :
    chunks.dropLast ++ [chunk] = chunks := by
  obtain ⟨front, rfl⟩ := List.getLast?_eq_some_iff.mp last
  simp

theorem Accounts.readDone {i n : Nat} (accounts : Accounts s) (running : Running s)
    (stepped : step s (.readDone i (some n)) = some t) : Accounts t := by
  obtain ⟨⟨-, -, few, -, received, bytesRead, bytesWritten, length, sent⟩,
    ⟨zero, noWrite, handed, writes, -, one⟩ | ⟨one, handed, writes, -, two⟩⟩ := readDone_cases running stepped
  · refine ⟨?_, by rw [bytesWritten, sent, accounts.written], by simp [one], fun _ => ?_, length.trans_le few, ?_⟩
    · simp [bytesRead, received, accounts.read, bytes_length few]
    · rw [sent, handed, List.dropLast_concat, accounts.idle zero]
    · simp [writes, bytes_length few]
  · refine ⟨?_, by rw [bytesWritten, sent, accounts.written], by simp [two], fun _ => ?_, length.trans_le few,
      writes ▸ accounts.lengths⟩
    · simp [bytesRead, received, accounts.read, bytes_length few]
    · rw [sent, handed, accounts.busy (by simp [one])]

theorem Accounts.writeDone {i : Nat} (accounts : Accounts s) (running : Running s)
    (stepped : step s (.writeDone i true) = some t) : Accounts t := by
  obtain ⟨⟨⟨w, sole, -, -, last, bytesWritten, sent⟩, -, received, bytesRead, length⟩,
    ⟨one, handed, writes, -, zero, -⟩ | ⟨two, -, -, handed, writes, -, one⟩⟩ := writeDone_cases running stepped
  all_goals
    have whole : t.sent = s.handed := by rw [sent, accounts.busy (by omega), dropLast_concat last]
    have counted : t.bytesWritten = UInt64.ofNat t.sent.flatten.length := by
      rw [bytesWritten, accounts.written, sent, ← accounts.lengths w (by simp [sole])]
      simp
  · refine ⟨by rw [bytesRead, received, accounts.read], counted, fun _ => ?_, by simp [zero],
      length ▸ accounts.fits, ?_⟩
    · rw [whole, handed]
    · simp [writes]
  · refine ⟨by rw [bytesRead, received, accounts.read], counted, by simp [one], fun _ => ?_,
      length ▸ accounts.fits, ?_⟩
    · rw [whole, handed, List.dropLast_concat]
    · simp [writes, bytes_length accounts.fits]

/-- A session as it is made, or after its connection, with what it has done so far. -/
inductive Stage (uninitialised : Vector UInt8 blockSize) (s : Session blockSize) : Prop where
  | idle (unconnected : Unconnected uninitialised s) (idle : Idle s)
  | running (running : Running s) (accounts : Accounts s)

variable {uninitialised : Vector UInt8 blockSize}

theorem create_stage (uninitialised : Vector UInt8 blockSize) :
    Stage uninitialised (Session.create uninitialised) :=
  .idle ⟨rfl, rfl, fun _ => rfl⟩ ⟨rfl, rfl, rfl, rfl, rfl, rfl, rfl, rfl, rfl⟩

theorem Stage.accounts (stage : Stage uninitialised s) : Accounts s := by
  cases stage with
  | idle _ idle => exact idle.accounts
  | running _ accounts => exact accounts

/-- A connection has come about: the initial block is written. -/
theorem connect_cases (idle : Idle s) (stepped : step s (.connected false false) = some t) :
    (∃ w, t.writes = [w] ∧ t.handed = [w.bytes] ∧ w.bytes.length = blockSize ∧ w.opened = !s.closed) ∧
      t.received = [] ∧ t.reads = [⟨s.readData, !s.closed⟩] ∧ t.closed = s.closed ∧ t.unwrittenCount = 1 := by
  obtain ⟨-, rfl⟩ : _ ∧ ({ s with connecting := false }.handleConnect false false) = t := by
    simpa [step] using stepped
  simp [Session.handleConnect, Session.asyncReadSome, Session.asyncWrite, Session.bytes, idle.noRead, idle.noWrite,
    idle.handed, idle.received, idle.count]

theorem connect_accounts (idle : Idle s) (stepped : step s (.connected false false) = some t) :
    Accounts t := by
  obtain ⟨-, rfl⟩ : _ ∧ ({ s with connecting := false }.handleConnect false false) = t := by
    simpa [step] using stepped
  refine ⟨?_, ?_, ?_, fun _ => ?_, ?_, ?_⟩
  · simp [Session.handleConnect, Session.asyncReadSome, Session.asyncWrite, idle.bytesRead, idle.received]
  · simp [Session.handleConnect, Session.asyncReadSome, Session.asyncWrite, idle.bytesWritten, idle.sent]
  · simp [Session.handleConnect, Session.asyncReadSome, Session.asyncWrite, idle.count]
  · simp [Session.handleConnect, Session.asyncReadSome, Session.asyncWrite, idle.sent, idle.handed]
  · simp [Session.handleConnect, Session.asyncReadSome, Session.asyncWrite, idle.readDataLength]
  · simp [Session.handleConnect, Session.asyncReadSome, Session.asyncWrite, idle.noWrite, Session.bytes]

/-- A failed connect, and a close, leave the session idle. -/
theorem Idle.step (idle : Idle s) (stepped : Client.step s action = some t)
    (other : action ≠ .connected false false) :
    Idle t ∧ (action = .closeSocket ∧ t = { s with closed := true } ∨
      (∃ err setOptionErr, action = .connected err setOptionErr) ∧ s.connecting = true ∧
        t = { s with connecting := false }) := by
  cases action with
  | connected err setOptionErr =>
    obtain ⟨⟨connecting, -⟩, rfl⟩ : (s.connecting = true ∧ (s.closed = true → err = true ∨ setOptionErr = true)) ∧
        ({ s with connecting := false }.handleConnect err setOptionErr) = t := by
      simpa [Client.step] using stepped
    have failed : ({ s with connecting := false } : Session blockSize).handleConnect err setOptionErr =
        { s with connecting := false } := by
      cases err <;> cases setOptionErr <;> simp_all [Session.handleConnect]
    rw [failed]
    exact ⟨⟨idle.noRead, idle.noWrite, idle.count, idle.received, idle.handed, idle.sent, idle.bytesRead,
      idle.bytesWritten, idle.readDataLength⟩, .inr ⟨⟨_, _, rfl⟩, connecting, rfl⟩⟩
  | fill i contents => simp [Client.step, idle.noRead] at stepped
  | readDone i length => cases length <;> simp [Client.step, idle.noRead] at stepped
  | writeDone i success => cases success <;> simp [Client.step, idle.noWrite] at stepped
  | closeSocket =>
    obtain rfl : { s with closed := true } = t := by simpa [Client.step] using stepped
    exact ⟨⟨idle.noRead, idle.noWrite, idle.count, idle.received, idle.handed, idle.sent, idle.bytesRead,
      idle.bytesWritten, idle.readDataLength⟩, .inl ⟨rfl, rfl⟩⟩

theorem Accounts.step (accounts : Accounts s) (running : Running s) (stepped : Client.step s action = some t) :
    Accounts t := by
  cases action with
  | connected err setOptionErr => simp [Client.step, running.settled] at stepped
  | fill i contents =>
    obtain ⟨-, rfl⟩ := fill_cases running stepped
    exact ⟨accounts.read, accounts.written, accounts.idle, accounts.busy, accounts.fits, accounts.lengths⟩
  | readDone i length =>
    cases length with
    | none =>
      obtain ⟨-, rfl⟩ := readFailed_cases running stepped
      exact ⟨accounts.read, accounts.written, accounts.idle, accounts.busy, accounts.fits, accounts.lengths⟩
    | some n => exact accounts.readDone running stepped
  | writeDone i success =>
    cases success with
    | false =>
      obtain ⟨-, -, rfl⟩ := writeFailed_cases running stepped
      exact ⟨accounts.read, accounts.written, accounts.idle, accounts.busy, accounts.fits, by simp⟩
    | true => exact accounts.writeDone running stepped
  | closeSocket =>
    obtain rfl : { s with closed := true } = t := by simpa [Client.step] using stepped
    exact ⟨accounts.read, accounts.written, accounts.idle, accounts.busy, accounts.fits, accounts.lengths⟩

theorem Stage.step (positive : 1 ≤ blockSize) (stage : Stage uninitialised s)
    (stepped : Client.step s action = some t) : Stage uninitialised t := by
  cases stage with
  | running running accounts => exact .running (running.step stepped) (accounts.step running stepped)
  | idle unconnected idle =>
    by_cases connected : action = .connected false false
    · subst connected
      exact .running (unconnected.connect positive stepped) (connect_accounts idle stepped)
    · exact .idle (unconnected.step stepped connected) (idle.step stepped connected).1

/-- A session writes its own block and what it has received, and nothing else. -/
theorem Stage.sent_le (stage : Stage uninitialised s) :
    s.sent.flatten.length ≤ blockSize + s.received.flatten.length := by
  have some_of : s.sent.flatten.length ≤ s.handed.flatten.length := by
    by_cases idle : s.unwrittenCount = 0
    · rw [stage.accounts.idle idle]
    · rw [stage.accounts.busy idle]
      exact ((List.dropLast_sublist _).flatten).length_le
  refine some_of.trans ?_
  cases stage with
  | idle _ idle => simp [idle.handed]
  | running running _ =>
    obtain ⟨chunks, handed, ⟨received, -⟩ | ⟨received, -⟩⟩ := running.echoing
    · simp [handed, received]
    · simp [handed, received]

/-! ### After its socket is closed -/

/-- How many handlers a closed session may still run: one for each operation in flight,
and two more if one of these may succeed and begin new ones. -/
def work (s : Session blockSize) : Nat :=
  s.reads.length + s.writes.length + (if s.connecting then 1 else 0) +
    (if s.reads.any (·.opened) || s.writes.any (·.opened) then 2 else 0)

/-- The system fills buffers by itself; everything else that happens is a handler. -/
def isHandler : Action blockSize → Bool
  | .fill .. => false
  | _ => true

theorem work_le (stage : Stage uninitialised s) : work s ≤ 4 := by
  have options : (if s.reads.any (·.opened) || s.writes.any (·.opened) then 2 else 0) ≤ 2 := by
    split <;> omega
  cases stage with
  | idle _ idle =>
    have none : (if s.connecting then 1 else 0) ≤ 1 := by split <;> omega
    simp only [work, idle.noRead, idle.noWrite, List.length_nil, List.any_nil, Bool.or_self]
    split <;> simp
  | running running _ =>
    have oneRead : s.reads.length ≤ 1 := by
      rcases running.reading with none | ⟨r, sole, -⟩
      · simp [none]
      · simp [sole]
    have oneWrite : s.writes.length ≤ 1 := by
      rcases running.writing with none | ⟨-, w, sole, -⟩
      · simp [none]
      · simp [sole]
    simp only [work, running.settled, Bool.false_eq_true, if_false]
    omega

/-- Only `close_socket` closes the socket. -/
theorem Stage.closed (stage : Stage uninitialised s) (stepped : Client.step s action = some t)
    (other : action ≠ .closeSocket) : t.closed = s.closed := by
  cases stage with
  | idle _ idle =>
    by_cases connected : action = .connected false false
    · subst connected
      obtain ⟨-, rfl⟩ : _ ∧ ({ s with connecting := false }.handleConnect false false) = t := by
        simpa [Client.step] using stepped
      simp [Session.handleConnect, Session.asyncReadSome, Session.asyncWrite]
    · rcases (idle.step stepped connected).2 with ⟨close, -⟩ | ⟨-, -, rfl⟩
      · exact absurd close other
      · rfl
  | running running _ =>
    cases action with
    | connected err setOptionErr => simp [Client.step, running.settled] at stepped
    | fill i contents => rw [(fill_cases running stepped).2]
    | readDone i length =>
      cases length with
      | none => rw [(readFailed_cases running stepped).2]
      | some n => exact (readDone_cases running stepped).1.2.2.2.1
    | writeDone i success =>
      cases success with
      | false => rw [(writeFailed_cases running stepped).2.2]
      | true => exact (writeDone_cases running stepped).1.2.1
    | closeSocket => exact absurd rfl other

/-- What a closed session begins fails, so that its work comes to an end. -/
theorem Stage.work (stage : Stage uninitialised s) (closed : s.closed = true)
    (stepped : Client.step s action = some t) (other : action ≠ .closeSocket) :
    work t + (if isHandler action then 1 else 0) ≤ work s := by
  cases stage with
  | idle _ idle =>
    have failed : action ≠ .connected false false := by
      rintro rfl
      simp [Client.step, closed] at stepped
    rcases (idle.step stepped failed).2 with ⟨close, -⟩ | ⟨⟨err, setOptionErr, rfl⟩, connecting, rfl⟩
    · exact absurd close other
    · simp only [SessionSteps.work, isHandler, connecting, Bool.false_eq_true, if_true, if_false]
      omega
  | running running _ =>
    cases action with
    | connected err setOptionErr => simp [Client.step, running.settled] at stepped
    | fill i contents =>
      rw [(fill_cases running stepped).2]
      simp [SessionSteps.work, isHandler]
    | readDone i length =>
      cases length with
      | none =>
        obtain ⟨⟨r, sole⟩, rfl⟩ := readFailed_cases running stepped
        simp only [SessionSteps.work, isHandler, sole, List.length_nil, List.length_singleton, List.any_nil,
          Bool.false_or, if_true]
        split <;> split <;> simp_all <;> omega
      | some n =>
        have settled := (running.readDone stepped).settled
        obtain ⟨⟨⟨r, sole, opened⟩, -, -, -⟩, ⟨-, noWrite, -, writes, reads, -⟩ | ⟨-, -, writes, reads, -⟩⟩ :=
          readDone_cases running stepped
        · simp [SessionSteps.work, isHandler, running.settled, settled, sole, opened, noWrite, writes, reads, closed]
        · have atMost : (if s.writes.any (·.opened) then 2 else 0) ≤ 2 := by split <;> omega
          simp only [SessionSteps.work, isHandler, running.settled, settled, sole, opened, writes, reads,
            List.length_nil, List.length_singleton, List.any_nil, List.any_cons, Bool.true_or, Bool.false_or,
            Bool.false_eq_true, if_true, if_false]
          omega
    | writeDone i success =>
      cases success with
      | false =>
        obtain ⟨⟨w, sole⟩, -, rfl⟩ := writeFailed_cases running stepped
        simp only [SessionSteps.work, isHandler, sole, List.length_nil, List.length_singleton, List.any_nil,
          Bool.or_false, if_true]
        split <;> split <;> simp_all
      | true =>
        have settled := (running.writeDone stepped).settled
        obtain ⟨⟨⟨w, sole, opened, -⟩, -⟩, ⟨-, -, writes, reads, -⟩ | ⟨-, noRead, -, -, writes, reads, -⟩⟩ :=
          writeDone_cases running stepped
        · have atMost : (if s.reads.any (·.opened) then 2 else 0) ≤ 2 := by split <;> omega
          simp only [SessionSteps.work, isHandler, running.settled, settled, sole, opened, writes, reads,
            List.length_nil, List.length_singleton, List.any_nil, List.any_cons, Bool.or_true, Bool.or_false,
            Bool.false_eq_true, if_true, if_false]
          omega
        · simp [SessionSteps.work, isHandler, running.settled, settled, sole, opened, noRead, writes, reads, closed]
    | closeSocket => exact absurd rfl other

end

end Await.Live.SessionSteps
