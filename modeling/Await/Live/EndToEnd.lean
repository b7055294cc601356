import Await.Live.SessionSteps
import Await.Live.Serving
import Mathlib.Data.List.PeriodicityLemma

/-! `session` of `myclient.cpp` against a session of one of the servers. The connection
keeps the bytes in order in both directions and may cut them in any way; everything may
fail at any time, and each side may be slow. -/

namespace Await.Live.EndToEnd
open General.Transition SessionSteps Serving
open MyServer (ErrorCode Operation Result)
open Client (Running Unconnected Echoing)

variable {blockSize serverBlock : Nat}

/-- The two sessions, how much of each one's write has left, the bytes on their way, and
how many bytes the client's read has been given whose handler has not run. -/
structure Connection (server : EchoSession serverBlock) (blockSize : Nat) where
  client : Client.Session blockSize
  session : server.σ
  sent : Nat := 0
  toServer : List UInt8 := []
  answered : Nat := 0
  toClient : List UInt8 := []
  arrived : Option Nat := none

def Connection.create (server : EchoSession serverBlock) (err : ErrorCode)
    (uninitialised : Vector UInt8 blockSize) : Connection server blockSize where
  client := .create uninitialised
  session := server.begin err

inductive Choice (blockSize serverBlock : Nat) where
  | connected (err setOptionErr : Bool)
  | transmit (n : Nat)
  | written
  | writeFailed
  | fill (contents : Vector UInt8 blockSize) (n : Nat)
  | read
  | readFailed
  | closeSocket
  | serverRead (contents : Vector UInt8 serverBlock) (n : Nat)
  | serverTransmit (n : Nat)
  | serverWritten
  | serverFailed (result : Result serverBlock)
  | posted

section
variable {server : EchoSession serverBlock}

/-- A write takes its bytes from its buffer as they leave, and succeeds once all of them
have left. A read is given the bytes that come first. -/
def step (server : EchoSession serverBlock) (c : Connection server blockSize) :
    Choice blockSize serverBlock → Option (Connection server blockSize)
  | .connected err setOptionErr => do
      let client ← Client.step c.client (.connected err setOptionErr)
      some { c with client }
  | .transmit n => do
      let w ← c.client.writes[0]?
      if w.opened ∧ c.client.closed = false ∧ 1 ≤ n ∧ c.sent + n ≤ w.length then
        some { c with
          toServer := c.toServer ++ ((c.client.bytes w.buffer w.length).drop c.sent).take n
          sent := c.sent + n }
      else none
  | .written => do
      let w ← c.client.writes[0]?
      let client ← Client.step c.client (.writeDone 0 true)
      if c.sent = w.length then some { c with client, sent := 0 } else none
  | .writeFailed => do
      let client ← Client.step c.client (.writeDone 0 false)
      some { c with client, sent := 0 }
  | .fill contents n => do
      let r ← c.client.reads[0]?
      let client ← Client.step c.client (.fill 0 contents)
      if r.opened ∧ c.client.closed = false ∧ c.arrived = none ∧ 1 ≤ n ∧ n ≤ blockSize ∧
          n ≤ c.toClient.length ∧ contents.toList.take n = c.toClient.take n then
        some { c with client, arrived := some n, toClient := c.toClient.drop n }
      else none
  | .read => do
      let n ← c.arrived
      let client ← Client.step c.client (.readDone 0 (some n))
      some { c with client, arrived := none }
  | .readFailed => do
      let client ← Client.step c.client (.readDone 0 none)
      if c.arrived = none then some { c with client } else none
  | .closeSocket => do
      let client ← Client.step c.client .closeSocket
      some { c with client }
  | .serverRead contents n => do
      let session ← server.step c.session (some (.readDone 0 contents n))
      if n ≤ c.toServer.length ∧ contents.toList.take n = c.toServer.take n then
        some { c with session, toServer := c.toServer.drop n }
      else none
  | .serverTransmit n =>
      match server.inFlight c.session with
      | .asyncWrite bytes :: _ =>
          if 1 ≤ n ∧ c.answered + n ≤ bytes.length then
            some { c with toClient := c.toClient ++ (bytes.drop c.answered).take n, answered := c.answered + n }
          else none
      | _ => none
  | .serverWritten =>
      match server.inFlight c.session with
      | .asyncWrite bytes :: _ => do
          let session ← server.step c.session (some (.writeDone 0))
          if c.answered = bytes.length then some { c with session, answered := 0 } else none
      | _ => none
  | .serverFailed result => do
      let session ← server.step c.session (some result)
      if result.ec ≠ 0 then some { c with session, answered := 0 } else none
  | .posted => do
      let session ← server.step c.session none
      some { c with session }

/-! ### What a step does -/

variable {c d : Connection server blockSize} {n : Nat}

theorem step_connected {err setOptionErr : Bool} (stepped : step server c (.connected err setOptionErr) = some d) :
    ∃ client, Client.step c.client (.connected err setOptionErr) = some client ∧ { c with client } = d := by
  simpa [step, Option.bind_eq_some_iff] using stepped

theorem step_transmit (stepped : step server c (.transmit n) = some d) :
    ∃ w, c.client.writes[0]? = some w ∧ 1 ≤ n ∧ c.sent + n ≤ w.length ∧
      { c with
        toServer := c.toServer ++ ((c.client.bytes w.buffer w.length).drop c.sent).take n
        sent := c.sent + n } = d := by
  obtain ⟨w, found, ⟨-, -, positive, within⟩, moved⟩ : ∃ w, c.client.writes[0]? = some w ∧
      (w.opened = true ∧ c.client.closed = false ∧ 1 ≤ n ∧ c.sent + n ≤ w.length) ∧
      { c with
        toServer := c.toServer ++ ((c.client.bytes w.buffer w.length).drop c.sent).take n
        sent := c.sent + n } = d := by
    simpa [step, Option.bind_eq_some_iff] using stepped
  exact ⟨w, found, positive, within, moved⟩

theorem step_written (stepped : step server c .written = some d) :
    ∃ w, c.client.writes[0]? = some w ∧ ∃ client, Client.step c.client (.writeDone 0 true) = some client ∧
      c.sent = w.length ∧ { c with client, sent := 0 } = d := by
  simpa [step, Option.bind_eq_some_iff] using stepped

theorem step_fill {contents : Vector UInt8 blockSize} (stepped : step server c (.fill contents n) = some d) :
    ∃ client, Client.step c.client (.fill 0 contents) = some client ∧ c.arrived = none ∧ 1 ≤ n ∧ n ≤ blockSize ∧
      n ≤ c.toClient.length ∧ contents.toList.take n = c.toClient.take n ∧
      { c with client, arrived := some n, toClient := c.toClient.drop n } = d := by
  obtain ⟨r, -, client, moved, ⟨-, -, arrived, positive, few, enough, first⟩, onward⟩ :
      ∃ r, c.client.reads[0]? = some r ∧ ∃ client, Client.step c.client (.fill 0 contents) = some client ∧
        (r.opened = true ∧ c.client.closed = false ∧ c.arrived = none ∧ 1 ≤ n ∧ n ≤ blockSize ∧
          n ≤ c.toClient.length ∧ contents.toList.take n = c.toClient.take n) ∧
        { c with client, arrived := some n, toClient := c.toClient.drop n } = d := by
    simpa [step, Option.bind_eq_some_iff] using stepped
  exact ⟨client, moved, arrived, positive, few, enough, first, onward⟩

theorem step_read (stepped : step server c .read = some d) :
    ∃ n, c.arrived = some n ∧ ∃ client, Client.step c.client (.readDone 0 (some n)) = some client ∧
      { c with client, arrived := none } = d := by
  simpa [step, Option.bind_eq_some_iff] using stepped

theorem step_serverRead {contents : Vector UInt8 serverBlock}
    (stepped : step server c (.serverRead contents n) = some d) :
    ∃ session, server.step c.session (some (.readDone 0 contents n)) = some session ∧ n ≤ c.toServer.length ∧
      contents.toList.take n = c.toServer.take n ∧ { c with session, toServer := c.toServer.drop n } = d := by
  simpa [step, Option.bind_eq_some_iff, and_assoc] using stepped

theorem step_posted (stepped : step server c .posted = some d) :
    ∃ session, server.step c.session none = some session ∧ { c with session } = d := by
  simpa [step, Option.bind_eq_some_iff] using stepped

end

/-! ### Where the bytes are -/

/-- What the client's read has been given. -/
def arriving (client : Client.Session blockSize) : Option Nat → List UInt8
  | some n => client.bytes client.readData n
  | none => []

/-- What the client has to send of its write in flight. -/
def sending (sent : Nat) : List Client.Write → List UInt8
  | w :: _ => w.bytes.drop sent
  | [] => []

/-- What the server has to send of its write in flight. -/
def answering (answered : Nat) : Option Operation → List UInt8
  | some (.asyncWrite bytes) => bytes.drop answered
  | _ => []

@[simp] theorem arriving_none (client : Client.Session blockSize) : arriving client none = [] := rfl

@[simp] theorem sending_nil (sent : Nat) : sending sent [] = [] := rfl

@[simp] theorem sending_singleton (sent : Nat) (w : Client.Write) : sending sent [w] = w.bytes.drop sent := rfl

@[simp] theorem answering_none (answered : Nat) : answering answered none = [] := rfl

@[simp] theorem answering_read (answered limit : Nat) : answering answered (some (.asyncReadSome limit)) = [] := rfl

@[simp] theorem answering_write (answered : Nat) (bytes : List UInt8) :
    answering answered (some (.asyncWrite bytes)) = bytes.drop answered := rfl

/-- How far the server has got with what it does. -/
inductive Answered (serverBlock n : Nat) : Option Operation → Prop where
  | reading (fresh : n = 0) : Answered serverBlock n (some (.asyncReadSome serverBlock))
  | writing {bytes : List UInt8} (within : n ≤ bytes.length) : Answered serverBlock n (some (.asyncWrite bytes))
  | ended (fresh : n = 0) : Answered serverBlock n none

section
variable {server : EchoSession serverBlock} {c d : Connection server blockSize}
  {uninitialised : Vector UInt8 blockSize} {operation later : Option Operation} {lost lost' : List UInt8}

/-- What the client has handed to its writes is what it has received and what is on its
way, in this order. A write that fails loses what it has not sent. -/
structure Flow (c : Connection server blockSize) (operation : Option Operation) (lost lost' : List UInt8) : Prop where
  bytes : c.client.handed.flatten = c.client.received.flatten ++ (arriving c.client c.arrived ++ (c.toClient ++
    (answering c.answered operation ++ (lost ++ (c.toServer ++ (sending c.sent c.client.writes ++ lost'))))))
  served : operation ≠ none → lost = []
  wrote : c.client.writes ≠ [] ∨ c.client.unwrittenCount = 0 → lost' = []

/-- The server waits for this operation, and no byte is anywhere but on its way. -/
structure Carries (uninitialised : Vector UInt8 blockSize) (operation : Option Operation)
    (c : Connection server blockSize) : Prop where
  stage : Stage uninitialised c.client
  arrival : ∀ n, c.arrived = some n → (∃ r, c.client.reads = [r]) ∧ 1 ≤ n ∧ n ≤ blockSize
  unsent : c.client.writes = [] → c.sent = 0
  sent : ∀ w ∈ c.client.writes, c.sent ≤ w.length
  waits : server.Waits c.session operation
  answered : Answered serverBlock c.answered operation
  flow : ∃ lost lost', Flow c operation lost lost'

theorem create_carries (server : EchoSession serverBlock) (err : ErrorCode) (uninitialised : Vector UInt8 blockSize) :
    Carries uninitialised (if err = 0 then some (.asyncReadSome serverBlock) else none)
      (Connection.create server err uninitialised) where
  stage := create_stage uninitialised
  arrival _ none := by cases none
  unsent _ := rfl
  sent := by simp [Connection.create, Client.Session.create]
  waits := server.begins err
  answered := by
    split
    · exact .reading rfl
    · exact .ended rfl
  flow := by
    refine ⟨[], [], ?_, fun _ => rfl, fun _ => rfl⟩
    split <;> rfl

/-- Before the connection nothing is on its way. -/
theorem Carries.quiet (carries : Carries uninitialised operation c) (idle : Idle c.client) :
    c.arrived = none ∧ c.toClient = [] ∧ answering c.answered operation = [] ∧ c.toServer = [] := by
  obtain ⟨lost, lost', flow⟩ := carries.flow
  have nothing := flow.bytes.symm
  simp only [idle.handed, idle.received, List.flatten_nil, List.append_eq_nil_iff] at nothing
  obtain ⟨-, -, toClient, answering, -, toServer, -⟩ := nothing
  refine ⟨?_, toClient, answering, toServer⟩
  cases arrived : c.arrived with
  | none => rfl
  | some n =>
    obtain ⟨⟨r, sole⟩, -⟩ := carries.arrival n arrived
    simp [idle.noRead] at sole

theorem Carries.connected {err setOptionErr : Bool} (positive : 1 ≤ blockSize)
    (carries : Carries uninitialised operation c) (stepped : step server c (.connected err setOptionErr) = some d) :
    Carries uninitialised operation d := by
  obtain ⟨client, moved, rfl⟩ := step_connected stepped
  have stage := carries.stage.step positive moved
  cases carries.stage with
  | running running _ => simp [Client.step, running.settled] at moved
  | idle unconnected idle =>
    obtain ⟨arrived, toClient, quiet, toServer⟩ := carries.quiet idle
    have sent := carries.unsent idle.noWrite
    have noArrival : ∀ n, c.arrived = some n → (∃ r, client.reads = [r]) ∧ 1 ≤ n ∧ n ≤ blockSize := by
      simp [arrived]
    by_cases success : Client.Action.connected err setOptionErr = (.connected false false : Client.Action blockSize)
    · rw [success] at moved
      obtain ⟨⟨w, writes, handed, -⟩, received, -⟩ := connect_cases idle moved
      refine ⟨stage, noArrival, by simp [writes], by simp [sent], carries.waits, carries.answered, [], [], ?_,
        fun _ => rfl, fun _ => rfl⟩
      simp [handed, received, arrived, toClient, quiet, toServer, writes, sent]
    · obtain ⟨idle', -⟩ := idle.step moved success
      refine ⟨stage, noArrival, fun _ => sent, by simp [idle'.noWrite], carries.waits, carries.answered, [], [], ?_,
        fun _ => rfl, fun _ => rfl⟩
      simp [idle'.handed, idle'.received, arrived, toClient, quiet, toServer, idle'.noWrite]

/-- The write in flight puts some of its bytes on their way. -/
theorem Carries.transmit {n : Nat} (carries : Carries uninitialised operation c)
    (stepped : step server c (.transmit n) = some d) : Carries uninitialised operation d := by
  obtain ⟨w, found, positive, within, rfl⟩ := step_transmit stepped
  cases carries.stage with
  | idle _ idle => simp [idle.noWrite] at found
  | running running _ =>
    obtain ⟨sole, -, intact, -⟩ := write_in_flight running found
    obtain ⟨lost, lost', flow⟩ := carries.flow
    refine ⟨carries.stage, carries.arrival, by simp [sole], by simpa [sole] using within, carries.waits,
      carries.answered, lost, lost', ?_, flow.served, flow.wrote⟩
    have parts : w.bytes.drop c.sent = (w.bytes.drop c.sent).take n ++ w.bytes.drop (c.sent + n) := by
      rw [← List.drop_drop, List.take_append_drop]
    rw [flow.bytes, sole, sending_singleton, sending_singleton, parts, intact]
    simp only [List.append_assoc]

/-- The handler of a write of which every byte has left: a chunk that waits is next. -/
theorem Carries.written (positive : 1 ≤ blockSize) (carries : Carries uninitialised operation c)
    (stepped : step server c .written = some d) : Carries uninitialised operation d := by
  obtain ⟨w, found, client, moved, whole, rfl⟩ := step_written stepped
  have stage := carries.stage.step positive moved
  cases carries.stage with
  | idle _ idle => simp [idle.noWrite] at found
  | running running accounts =>
    obtain ⟨sole, -⟩ := write_in_flight running found
    have length := accounts.lengths w (by simp [sole])
    obtain ⟨lost, lost', flow⟩ := carries.flow
    have none' : lost' = [] := flow.wrote (.inl (by simp [sole]))
    have left : sending c.sent c.client.writes = [] := by
      rw [sole, sending_singleton, whole, ← length, List.drop_length]
    have bytes := flow.bytes
    rw [none', left] at bytes
    obtain ⟨⟨-, -, received, -⟩, ⟨-, handed, writes, reads, -, data, readData⟩ |
      ⟨-, noRead, -, handed, writes, -⟩⟩ := writeDone_cases running moved
    · refine ⟨stage, by rw [reads]; exact carries.arrival, fun _ => rfl, by simp [writes], carries.waits,
        carries.answered, lost, [], ?_, flow.served, fun _ => rfl⟩
      have same : arriving client c.arrived = arriving c.client c.arrived := by
        unfold arriving Client.Session.bytes
        rw [data, readData]
      rw [handed, received, writes, same, bytes]
      rfl
    · have noArrival : c.arrived = none := by
        cases arrived : c.arrived with
        | none => rfl
        | some n =>
          obtain ⟨⟨r, sole⟩, -⟩ := carries.arrival n arrived
          simp [noRead] at sole
      refine ⟨stage, by simp [noArrival], fun _ => rfl, by simp [writes], carries.waits, carries.answered, lost, [], ?_,
        flow.served, fun _ => rfl⟩
      rw [handed, received, writes, List.flatten_append, bytes, noArrival]
      simp only [arriving_none, sending_singleton, List.drop_zero, List.flatten_cons, List.flatten_nil,
        List.append_assoc, List.append_nil, List.nil_append]

/-- A failed write is not followed by another. What it has not sent is lost. -/
theorem Carries.writeFailed (positive : 1 ≤ blockSize) (carries : Carries uninitialised operation c)
    (stepped : step server c .writeFailed = some d) : Carries uninitialised operation d := by
  obtain ⟨client, moved, rfl⟩ : ∃ client, Client.step c.client (.writeDone 0 false) = some client ∧
      { c with client, sent := 0 } = d := by
    simpa [step, Option.bind_eq_some_iff] using stepped
  have stage := carries.stage.step positive moved
  cases carries.stage with
  | idle _ idle => simp [Client.step, idle.noWrite] at moved
  | running running _ =>
    obtain ⟨⟨w, sole⟩, busy, rfl⟩ := writeFailed_cases running moved
    obtain ⟨lost, lost', flow⟩ := carries.flow
    refine ⟨stage, carries.arrival, fun _ => rfl, by simp, carries.waits, carries.answered, lost,
      sending c.sent c.client.writes ++ lost', flow.bytes, flow.served, ?_⟩
    rintro (other | idle)
    · exact absurd rfl other
    · simp only at idle
      omega

/-- The client's read is given the bytes that come first. -/
theorem Carries.fill {contents : Vector UInt8 blockSize} {n : Nat} (positive : 1 ≤ blockSize)
    (carries : Carries uninitialised operation c) (stepped : step server c (.fill contents n) = some d) :
    Carries uninitialised operation d := by
  obtain ⟨client, moved, arrived, some_bytes, few, -, first, rfl⟩ := step_fill stepped
  have stage := carries.stage.step positive moved
  cases carries.stage with
  | idle _ idle => simp [Client.step, idle.noRead] at moved
  | running running _ =>
    obtain ⟨⟨r, sole⟩, rfl⟩ := fill_cases running moved
    obtain ⟨lost, lost', flow⟩ := carries.flow
    refine ⟨stage, ?_, carries.unsent, carries.sent, carries.waits, carries.answered, lost, lost', ?_, flow.served,
      flow.wrote⟩
    · rintro m ⟨⟩
      exact ⟨⟨r, sole⟩, some_bytes, few⟩
    · have given : arriving { c.client with data := Function.update c.client.data c.client.readData contents }
          (some n) = c.toClient.take n := by
        simp [arriving, Client.Session.bytes, first]
      have bytes := flow.bytes
      rw [arrived, arriving_none, List.nil_append, ← List.take_append_drop n c.toClient, List.append_assoc] at bytes
      rw [given]
      exact bytes

/-- The handler of the client's read: the chunk has been received. -/
theorem Carries.read (positive : 1 ≤ blockSize) (carries : Carries uninitialised operation c)
    (stepped : step server c .read = some d) : Carries uninitialised operation d := by
  obtain ⟨n, arrived, client, moved, rfl⟩ := step_read stepped
  have stage := carries.stage.step positive moved
  cases carries.stage with
  | idle _ idle => simp [Client.step, idle.noRead] at moved
  | running running _ =>
    obtain ⟨lost, lost', flow⟩ := carries.flow
    have bytes := flow.bytes
    rw [arrived, arriving] at bytes
    obtain ⟨⟨-, -, -, -, received, -⟩, ⟨zero, noWrite, handed, writes, -⟩ | ⟨one, handed, writes, -, two⟩⟩ :=
      readDone_cases running moved
    · have none' : lost' = [] := flow.wrote (.inr zero)
      rw [none', noWrite] at bytes
      refine ⟨stage, by simp, by simp [writes], ?_, carries.waits, carries.answered, lost, [], ?_, flow.served,
        fun _ => rfl⟩
      · simp [writes, carries.unsent noWrite]
      · rw [handed, received, writes, List.flatten_append, bytes, List.flatten_append, carries.unsent noWrite]
        simp only [arriving_none, sending_nil, sending_singleton, List.drop_zero, List.flatten_cons,
          List.flatten_nil, List.append_assoc, List.append_nil, List.nil_append]
    · refine ⟨stage, by simp, by simpa only [writes] using carries.unsent, by simpa only [writes] using carries.sent,
        carries.waits, carries.answered, lost, lost', ?_, flow.served, ?_⟩
      · rw [handed, received, writes, bytes, List.flatten_append]
        simp only [arriving_none, List.flatten_cons, List.flatten_nil, List.append_assoc, List.append_nil,
          List.nil_append]
      · intro condition
        refine flow.wrote (condition.imp (fun other => writes ▸ other) fun zero => ?_)
        simp only [two] at zero
        cases zero

theorem Carries.readFailed (positive : 1 ≤ blockSize) (carries : Carries uninitialised operation c)
    (stepped : step server c .readFailed = some d) : Carries uninitialised operation d := by
  obtain ⟨client, moved, arrived, rfl⟩ : ∃ client, Client.step c.client (.readDone 0 none) = some client ∧
      c.arrived = none ∧ { c with client } = d := by
    simpa [step, Option.bind_eq_some_iff] using stepped
  have stage := carries.stage.step positive moved
  cases carries.stage with
  | idle _ idle => simp [Client.step, idle.noRead] at moved
  | running running _ =>
    obtain ⟨-, rfl⟩ := readFailed_cases running moved
    obtain ⟨lost, lost', flow⟩ := carries.flow
    refine ⟨stage, by simp [arrived], carries.unsent, carries.sent, carries.waits, carries.answered, lost, lost', ?_,
      flow.served, flow.wrote⟩
    have bytes := flow.bytes
    rw [arrived] at bytes ⊢
    exact bytes

theorem Carries.closeSocket (positive : 1 ≤ blockSize) (carries : Carries uninitialised operation c)
    (stepped : step server c .closeSocket = some d) : Carries uninitialised operation d := by
  obtain ⟨client, moved, rfl⟩ : ∃ client, Client.step c.client .closeSocket = some client ∧ { c with client } = d := by
    simpa [step, Option.bind_eq_some_iff] using stepped
  have stage := carries.stage.step positive moved
  obtain rfl : { c.client with closed := true } = client := by simpa [Client.step] using moved
  obtain ⟨lost, lost', flow⟩ := carries.flow
  refine ⟨stage, carries.arrival, carries.unsent, carries.sent, carries.waits, carries.answered, lost, lost', ?_,
    flow.served, flow.wrote⟩
  have same : arriving { c.client with closed := true } c.arrived = arriving c.client c.arrived := by
    unfold arriving
    rfl
  rw [same]
  exact flow.bytes

/-- A read of the server is given the bytes that come first, and has them written. -/
theorem Carries.serverRead {contents : Vector UInt8 serverBlock} {n : Nat}
    (carries : Carries uninitialised operation c) (stepped : step server c (.serverRead contents n) = some d) :
    operation = some (.asyncReadSome serverBlock) ∧ 1 ≤ n ∧ n ≤ c.toServer.length ∧
      Carries uninitialised (some (.asyncWrite (c.toServer.take n))) d := by
  obtain ⟨session, moved, enough, first, rfl⟩ := step_serverRead stepped
  obtain ⟨lost, lost', flow⟩ := carries.flow
  obtain ⟨later, echoes, waits⟩ := server.follows carries.waits moved
  cases carries.answered with
  | ended fresh => simp [echo] at echoes
  | writing within => simp [echo, Result.fits] at echoes
  | reading fresh =>
    obtain ⟨⟨positive, few⟩, rfl⟩ :
        (1 ≤ n ∧ n ≤ serverBlock) ∧ some (.asyncWrite (contents.toList.take n)) = later := by
      simpa [echo, Result.fits, Result.ec, Echo.next] using echoes
    rw [first] at waits
    refine ⟨rfl, positive, enough, carries.stage, carries.arrival, carries.unsent, carries.sent, waits,
      .writing (by rw [fresh]; exact Nat.zero_le _), lost, lost', ?_,
        fun _ => flow.served (Option.some_ne_none _), flow.wrote⟩
    have bytes := flow.bytes
    rw [answering_read, List.nil_append, flow.served (Option.some_ne_none _), List.nil_append,
      ← List.take_append_drop n c.toServer] at bytes
    rw [bytes, flow.served (Option.some_ne_none _), answering_write, fresh, List.drop_zero]
    simp only [List.append_assoc, List.nil_append]

/-- The server has only a write to send from. -/
theorem Carries.step_serverTransmit {n : Nat} (carries : Carries uninitialised operation c)
    (stepped : step server c (.serverTransmit n) = some d) :
    ∃ bytes, operation = some (.asyncWrite bytes) ∧ 1 ≤ n ∧ c.answered + n ≤ bytes.length ∧
      { c with toClient := c.toClient ++ (bytes.drop c.answered).take n, answered := c.answered + n } = d := by
  simp only [step, server.flight carries.waits] at stepped
  cases carries.answered with
  | reading fresh => cases stepped
  | ended fresh => cases stepped
  | @writing bytes within => exact ⟨bytes, rfl, by simpa [and_assoc] using stepped⟩

theorem Carries.serverTransmit {n : Nat} (carries : Carries uninitialised operation c)
    (stepped : step server c (.serverTransmit n) = some d) : Carries uninitialised operation d := by
  obtain ⟨lost, lost', flow⟩ := carries.flow
  obtain ⟨bytes, rfl, positive, more, rfl⟩ := carries.step_serverTransmit stepped
  refine ⟨carries.stage, carries.arrival, carries.unsent, carries.sent, carries.waits, .writing more, lost, lost', ?_,
    flow.served, flow.wrote⟩
  have parts : bytes.drop c.answered = (bytes.drop c.answered).take n ++ bytes.drop (c.answered + n) := by
    rw [← List.drop_drop, List.take_append_drop]
  have moved := flow.bytes
  rw [answering_write, parts] at moved
  rw [moved, answering_write]
  simp only [List.append_assoc]

theorem Carries.step_serverWritten (carries : Carries uninitialised operation c)
    (stepped : step server c .serverWritten = some d) :
    ∃ bytes, operation = some (.asyncWrite bytes) ∧ ∃ session,
      server.step c.session (some (.writeDone 0)) = some session ∧ c.answered = bytes.length ∧
        { c with session, answered := 0 } = d := by
  simp only [step, server.flight carries.waits] at stepped
  cases carries.answered with
  | reading fresh => cases stepped
  | ended fresh => cases stepped
  | @writing bytes within => exact ⟨bytes, rfl, by simpa [Option.bind_eq_some_iff] using stepped⟩

/-- The server has answered, and reads on. -/
theorem Carries.serverWritten (carries : Carries uninitialised operation c)
    (stepped : step server c .serverWritten = some d) :
    Carries uninitialised (some (.asyncReadSome serverBlock)) d := by
  obtain ⟨lost, lost', flow⟩ := carries.flow
  obtain ⟨bytes, rfl, session, moved, whole, rfl⟩ := carries.step_serverWritten stepped
  obtain ⟨later, echoes, waits⟩ := server.follows carries.waits moved
  obtain rfl : some (.asyncReadSome serverBlock) = later := by
    simpa [echo, Result.fits, Result.ec, Echo.next] using echoes
  refine ⟨carries.stage, carries.arrival, carries.unsent, carries.sent, waits, .reading rfl, lost, lost', ?_,
    fun _ => flow.served (Option.some_ne_none _), flow.wrote⟩
  have left := flow.bytes
  rw [answering_write, whole, List.drop_length] at left
  exact left

/-- After an error the server answers no more. What it has not sent is lost. -/
theorem Carries.serverFailed {result : Result serverBlock} (carries : Carries uninitialised operation c)
    (stepped : step server c (.serverFailed result) = some d) : Carries uninitialised none d := by
  obtain ⟨session, moved, error, rfl⟩ : ∃ session, server.step c.session (some result) = some session ∧
      result.ec ≠ 0 ∧ { c with session, answered := 0 } = d := by
    simpa [step, Option.bind_eq_some_iff] using stepped
  obtain ⟨lost, lost', flow⟩ := carries.flow
  obtain ⟨later, echoes, waits⟩ := server.follows carries.waits moved
  obtain rfl : later = none := by
    cases operation with
    | none => simp [echo] at echoes
    | some operation =>
      obtain ⟨-, same⟩ : _ ∧ none = later := by simpa [echo, error] using echoes
      exact same.symm
  refine ⟨carries.stage, carries.arrival, carries.unsent, carries.sent, waits, .ended rfl,
    answering c.answered operation ++ lost, lost', ?_, fun other => absurd rfl other, flow.wrote⟩
  rw [flow.bytes]
  simp only [answering_none, List.nil_append, List.append_assoc]

theorem Carries.posted (carries : Carries uninitialised operation c) (stepped : step server c .posted = some d) :
    Carries uninitialised none d := by
  obtain ⟨session, moved, rfl⟩ := step_posted stepped
  obtain ⟨rfl, waits⟩ := server.posted carries.waits moved
  obtain ⟨lost, lost', flow⟩ := carries.flow
  exact ⟨carries.stage, carries.arrival, carries.unsent, carries.sent, waits, carries.answered, lost, lost', flow.bytes,
    flow.served, flow.wrote⟩

theorem Carries.step {choice : Choice blockSize serverBlock} (positive : 1 ≤ blockSize)
    (carries : Carries uninitialised operation c) (stepped : EndToEnd.step server c choice = some d) :
    ∃ later, Carries uninitialised later d := by
  cases choice with
  | connected err setOptionErr => exact ⟨_, carries.connected positive stepped⟩
  | transmit n => exact ⟨_, carries.transmit stepped⟩
  | written => exact ⟨_, carries.written positive stepped⟩
  | writeFailed => exact ⟨_, carries.writeFailed positive stepped⟩
  | fill contents n => exact ⟨_, carries.fill positive stepped⟩
  | read => exact ⟨_, carries.read positive stepped⟩
  | readFailed => exact ⟨_, carries.readFailed positive stepped⟩
  | closeSocket => exact ⟨_, carries.closeSocket positive stepped⟩
  | serverRead contents n => exact ⟨_, (carries.serverRead stepped).2.2.2⟩
  | serverTransmit n => exact ⟨_, carries.serverTransmit stepped⟩
  | serverWritten => exact ⟨_, carries.serverWritten stepped⟩
  | serverFailed result => exact ⟨_, carries.serverFailed stepped⟩
  | posted => exact ⟨_, carries.posted stepped⟩

theorem run_carries (positive : 1 ≤ blockSize) {err : ErrorCode} {choices : List (Choice blockSize serverBlock)}
    (path : run (EndToEnd.step server) (Connection.create server err uninitialised) choices = some c) :
    ∃ operation, Carries uninitialised operation c := by
  have kept : ∀ (c : Connection server blockSize) choice d, (∃ operation, Carries uninitialised operation c) →
      EndToEnd.step server c choice = some d → ∃ operation, Carries uninitialised operation d :=
    fun c choice d ⟨_, carries⟩ stepped => carries.step positive stepped
  have invariant := run_invariant kept path ⟨_, create_carries server err uninitialised⟩
  exact invariant

end

/-! ### What comes back -/

/-- A stream that begins with a block and goes on with what has come out of it repeats the
block. -/
theorem repeats {α : Type} {block fed out : List α} (nonempty : block ≠ []) (back : fed <+: out)
    (forth : out <+: block ++ fed) {i : Nat} {x : α} (here : out[i]? = some x) :
    block[i % block.length]? = some x := by
  have period : out.HasPeriod block.length := by
    rcases Nat.le_total out.length block.length with short | long
    · exact List.hasPeriod_of_length_le _ _ short
    · have begins : block = out.take block.length :=
        List.prefix_iff_eq_take.mp (List.prefix_of_prefix_length_le (List.prefix_append ..) forth long)
      rw [List.HasPeriod, ← begins]
      exact forth.trans ((List.prefix_append_right_inj block).mpr back)
  have inside := (List.getElem?_eq_some_iff.mp here).1
  have early : i % block.length < block.length := Nat.mod_lt _ (List.length_pos_iff.mpr nonempty)
  rw [← period.getElem?_mod _ i out inside] at here
  obtain ⟨rest, whole⟩ := forth
  rw [← List.getElem?_append_left early, ← whole,
    List.getElem?_append_left (List.getElem?_eq_some_iff.mp here).1]
  exact here

/-- What the client has received is what it has sent, in order and without a gap, and so
its initial block over and over; never more than one block is on its way. -/
structure Faithful (client : Client.Session blockSize) : Prop where
  inOrder : client.received.flatten <+: client.handed.flatten
  outstanding : client.handed.flatten.length ≤ client.received.flatten.length + blockSize
  pattern : ∀ i byte, client.received.flatten[i]? = some byte → byte = UInt8.ofNat (i % blockSize % 128)
  counted : client.bytesRead = UInt64.ofNat client.received.flatten.length

theorem initialBlock_getElem? {i : Nat} {byte : UInt8} (inside : i < blockSize)
    (here : (Client.initialBlock blockSize).toList[i]? = some byte) : byte = UInt8.ofNat (i % 128) := by
  simpa [Client.initialBlock, inside] using here.symm

theorem Carries.faithful {server : EchoSession serverBlock} {c : Connection server blockSize}
    {uninitialised : Vector UInt8 blockSize} {operation : Option Operation} (positive : 1 ≤ blockSize)
    (carries : Carries uninitialised operation c) : Faithful c.client := by
  have counted := carries.stage.accounts.read
  cases carries.stage with
  | idle _ idle =>
    exact ⟨by simp [idle.received], by simp [idle.handed], by simp [idle.received], counted⟩
  | running running _ =>
    obtain ⟨lost, lost', flow⟩ := carries.flow
    have inOrder : c.client.received.flatten <+: c.client.handed.flatten := ⟨_, flow.bytes.symm⟩
    obtain ⟨chunks, handed, waiting⟩ := running.echoing
    have back : chunks.flatten <+: c.client.received.flatten := by
      rcases waiting with ⟨received, -⟩ | ⟨received, -⟩
      · rw [received]
      · rw [received, List.flatten_append]
        exact List.prefix_append ..
    have forth : c.client.handed.flatten = (Client.initialBlock blockSize).toList ++ chunks.flatten := by
      rw [handed, List.flatten_cons]
    have length : (Client.initialBlock blockSize).toList.length = blockSize := by simp
    refine ⟨inOrder, ?_, fun i byte here => ?_, counted⟩
    · rw [forth, List.length_append, length]
      have := back.length_le
      omega
    · have nonempty : (Client.initialBlock blockSize).toList ≠ [] := by
        rw [← List.length_pos_iff, length]
        exact positive
      have repeated := repeats nonempty back (forth ▸ inOrder) here
      rw [length] at repeated
      exact initialBlock_getElem? (Nat.mod_lt _ positive) repeated

/-- However the connection cuts the bytes, whatever fails, and whichever server answers. -/
theorem connection_echoes (version : Version) (err : ErrorCode) (uninitialised : Vector UInt8 blockSize)
    (choices : List (Choice blockSize serverBlock)) (c : Connection (version.session serverBlock) blockSize)
    (positive : 1 ≤ blockSize)
    (path : run (step (version.session serverBlock)) (.create _ err uninitialised) choices = some c) :
    Faithful c.client := by
  obtain ⟨operation, carries⟩ := run_carries positive path
  exact carries.faithful positive

theorem connection_echoes_one_byte :
    let choices : List (Choice 2 1) := [.connected false false, .transmit 2, .serverRead #v[0] 1, .serverTransmit 1,
      .serverWritten, .serverRead #v[1] 1, .fill #v[0, 9] 1, .read, .serverFailed (.writeDone 32), .written]
    ∃ c, run (step (Version.session 1 .hard2)) (.create _ 0 #v[0, 0]) choices = some c ∧ Faithful c.client :=
  ⟨_, rfl, connection_echoes .hard2 0 #v[0, 0] [.connected false false, .transmit 2, .serverRead #v[0] 1,
    .serverTransmit 1, .serverWritten, .serverRead #v[1] 1, .fill #v[0, 9] 1, .read, .serverFailed (.writeDone 32),
    .written] _ (by decide) rfl⟩

end Await.Live.EndToEnd
