import Await.Live.EndToEnd

/-! The connection of an echo client with an echo server as long as nothing fails: the bytes
go round, and each step but the client's reads brings one of them nearer to its next read. -/

namespace Await.Live.EndToEnd
open General.Transition SessionSteps Serving
open MyServer (Operation Result)
open Client (Running Unconnected)

variable {blockSize serverBlock : Nat}

def Choice.fails : Choice blockSize serverBlock → Bool
  | .connected err setOptionErr => err || setOptionErr
  | .writeFailed | .readFailed | .closeSocket | .serverFailed _ => true
  | _ => false

/-- The chunk that waits in the client's read buffer. -/
def waiting (client : Client.Session blockSize) : Nat :=
  if client.unwrittenCount = 2 then client.readDataLength else 0

def answers : Option Operation → Nat
  | some (.asyncWrite _) => 1
  | _ => 0

section
variable {server : EchoSession serverBlock} {c d : Connection server blockSize}
  {uninitialised : Vector UInt8 blockSize} {operation later : Option Operation}

/-- The further a byte has to go until the client reads it, the more it counts. -/
def distance (operation : Option Operation) (c : Connection server blockSize) : Nat :=
  (if c.client.connecting then 5 * blockSize + 2 else 0) + 6 * waiting c.client +
    (5 * (sending c.sent c.client.writes).length + c.client.writes.length) + 4 * c.toServer.length +
    (2 * (answering c.answered operation).length + answers operation) + c.toClient.length

/-- Both sides are at work, and nothing has failed. -/
structure Healthy (uninitialised : Vector UInt8 blockSize) (operation : Option Operation)
    (c : Connection server blockSize) : Prop where
  carries : Carries uninitialised operation c
  serving : operation ≠ none
  running : Running c.client
  accounts : Accounts c.client
  opened : c.client.closed = false
  reads : ∀ r ∈ c.client.reads, r.opened = true
  writes : ∀ w ∈ c.client.writes, w.opened = true
  reading : c.client.reads = [] → c.client.unwrittenCount = 2
  writing : c.client.writes = [] → c.client.unwrittenCount = 0

/-- Nothing has failed, but the client is not connected yet. -/
structure Fresh (uninitialised : Vector UInt8 blockSize) (c : Connection server blockSize) : Prop where
  carries : Carries uninitialised (some (.asyncReadSome serverBlock)) c
  idle : Idle c.client
  unconnected : Unconnected uninitialised c.client
  connecting : c.client.connecting = true
  opened : c.client.closed = false

inductive Fine (uninitialised : Vector UInt8 blockSize) (operation : Option Operation)
    (c : Connection server blockSize) : Prop where
  | fresh (waits : operation = some (.asyncReadSome serverBlock)) (fresh : Fresh uninitialised c)
  | healthy (healthy : Healthy uninitialised operation c)

/-- Every byte of the initial block is somewhere. -/
theorem Healthy.total (healthy : Healthy uninitialised operation c) :
    (arriving c.client c.arrived).length + c.toClient.length + (answering c.answered operation).length +
      c.toServer.length + (sending c.sent c.client.writes).length + waiting c.client = blockSize := by
  obtain ⟨lost, lost', flow⟩ := healthy.carries.flow
  have none := flow.served healthy.serving
  have none' : lost' = [] := flow.wrote (by
    by_cases noWrite : c.client.writes = []
    · exact .inr (healthy.writing noWrite)
    · exact .inl noWrite)
  have lengths := congrArg List.length flow.bytes
  obtain ⟨chunks, handed, ⟨received, few⟩ | ⟨received, -, two⟩⟩ := healthy.running.echoing
  · have idle : waiting c.client = 0 := if_neg (by omega)
    simp only [handed, received, none, none', List.flatten_cons, List.length_append, List.length_nil,
      Vector.length_toList] at lengths
    omega
  · have chunk : waiting c.client = c.client.readDataLength := if_pos two
    have length : (c.client.bytes c.client.readData c.client.readDataLength).length = c.client.readDataLength :=
      bytes_length healthy.accounts.fits
    simp only [handed, received, none, none', List.flatten_append, List.flatten_cons, List.flatten_nil,
      List.length_append, List.length_nil, Vector.length_toList, length] at lengths
    omega

theorem Fine.distance_le (positive : 1 ≤ blockSize) (fine : Fine uninitialised operation c) :
    distance operation c ≤ 6 * blockSize + 2 := by
  cases fine with
  | fresh waits fresh =>
    obtain ⟨-, toClient, quiet, toServer⟩ := fresh.carries.quiet fresh.idle
    have idle : waiting c.client = 0 := if_neg (by simp [fresh.idle.count])
    subst waits
    simp only [distance, fresh.connecting, idle, fresh.idle.noWrite, toServer, toClient, answers, answering_read,
      sending_nil, List.length_nil, if_true]
    omega
  | healthy healthy =>
    have total := healthy.total
    have oneWrite : c.client.writes.length ≤ 1 := by
      rcases healthy.running.writing with none | ⟨-, w, sole, -⟩
      · simp [none]
      · simp [sole]
    have oneAnswer : answers operation ≤ 1 := by
      unfold answers
      split <;> omega
    simp only [distance, healthy.running.settled, Bool.false_eq_true, if_false]
    omega

/-- The server's steps leave the client as it is. -/
theorem Healthy.served (healthy : Healthy uninitialised operation c) (same : d.client = c.client)
    (serving : later ≠ none) (carries : Carries uninitialised later d) : Healthy uninitialised later d := by
  obtain ⟨-, -, running, accounts, opened, reads, writes, reading, writing⟩ := healthy
  rw [← same] at running accounts opened reads writes reading writing
  exact ⟨carries, serving, running, accounts, opened, reads, writes, reading, writing⟩

theorem Healthy.transmit {n : Nat} (healthy : Healthy uninitialised operation c)
    (stepped : step server c (.transmit n) = some d) :
    Healthy uninitialised operation d ∧ distance operation d + 1 ≤ distance operation c := by
  have carries := healthy.carries.transmit stepped
  obtain ⟨w, found, some_bytes, within, rfl⟩ := step_transmit stepped
  obtain ⟨sole, -, intact, -⟩ := write_in_flight healthy.running found
  have length := healthy.accounts.lengths w (by simp [sole])
  refine ⟨healthy.served rfl healthy.serving carries, ?_⟩
  simp only [distance, sole, sending_singleton, intact, List.length_append, List.length_take, List.length_drop]
  omega

theorem Healthy.written (positive : 1 ≤ blockSize) (healthy : Healthy uninitialised operation c)
    (stepped : step server c .written = some d) :
    Healthy uninitialised operation d ∧ distance operation d + 1 ≤ distance operation c := by
  have carries := healthy.carries.written positive stepped
  obtain ⟨w, found, client, moved, whole, rfl⟩ := step_written stepped
  have running := healthy.running.step moved
  have accounts := healthy.accounts.step healthy.running moved
  obtain ⟨sole, -⟩ := write_in_flight healthy.running found
  have settled := running.settled
  obtain ⟨⟨-, closed, -⟩, ⟨one, -, writes, reads, zero, -⟩ | ⟨two, -, chunk, -, writes, reads, one⟩⟩ :=
    writeDone_cases healthy.running moved
  · refine ⟨⟨carries, healthy.serving, running, accounts, closed.trans healthy.opened, ?_, by simp [writes], ?_,
      fun _ => zero⟩, ?_⟩
    · simpa only [reads] using healthy.reads
    · intro noRead
      have := healthy.reading (reads ▸ noRead)
      omega
    · have idle : waiting client = 0 := if_neg (by omega)
      have idle' : waiting c.client = 0 := if_neg (by omega)
      simp only [distance, idle, idle', healthy.running.settled, settled, writes, sole, sending_nil, sending_singleton,
        List.length_nil, List.length_singleton, Bool.false_eq_true, if_false]
      omega
  · refine ⟨⟨carries, healthy.serving, running, accounts, closed.trans healthy.opened, ?_, ?_, by simp [reads],
      by simp [writes]⟩, ?_⟩
    · simp [reads, healthy.opened]
    · simp [writes, healthy.opened]
    · have length : (c.client.bytes c.client.readData c.client.readDataLength).length = c.client.readDataLength :=
        bytes_length healthy.accounts.fits
      have idle : waiting client = 0 := if_neg (by omega)
      have chunk' : waiting c.client = c.client.readDataLength := if_pos two
      simp only [distance, idle, chunk', healthy.running.settled, settled, writes, sole, sending_singleton,
        List.length_singleton, List.drop_zero, length, Bool.false_eq_true, if_false]
      omega

theorem Healthy.fill {contents : Vector UInt8 blockSize} {n : Nat} (positive : 1 ≤ blockSize)
    (healthy : Healthy uninitialised operation c) (stepped : step server c (.fill contents n) = some d) :
    Healthy uninitialised operation d ∧ distance operation d + 1 ≤ distance operation c := by
  have carries := healthy.carries.fill positive stepped
  obtain ⟨client, moved, arrived, some_bytes, few, enough, first, rfl⟩ := step_fill stepped
  have running := healthy.running.step moved
  have accounts := healthy.accounts.step healthy.running moved
  obtain ⟨-, rfl⟩ := fill_cases healthy.running moved
  refine ⟨⟨carries, healthy.serving, running, accounts, healthy.opened, healthy.reads, healthy.writes,
    healthy.reading, healthy.writing⟩, ?_⟩
  simp only [distance, waiting, List.length_drop]
  omega

/-- A read brings the bytes back to where they started from. -/
theorem Healthy.read (positive : 1 ≤ blockSize) (healthy : Healthy uninitialised operation c)
    (stepped : step server c .read = some d) : Healthy uninitialised operation d := by
  have carries := healthy.carries.read positive stepped
  obtain ⟨n, arrived, client, moved, rfl⟩ := step_read stepped
  have running := healthy.running.step moved
  have accounts := healthy.accounts.step healthy.running moved
  obtain ⟨⟨-, -, -, closed, -⟩, ⟨zero, noWrite, handed, writes, reads, one⟩ | ⟨one, handed, writes, reads, two⟩⟩ :=
    readDone_cases healthy.running moved
  · exact ⟨carries, healthy.serving, running, accounts, closed.trans healthy.opened, by simp [reads, healthy.opened],
      by simp [writes, healthy.opened], by simp [reads], by simp [writes]⟩
  · refine ⟨carries, healthy.serving, running, accounts, closed.trans healthy.opened, by simp [reads], ?_, fun _ => two,
      ?_⟩
    · simpa only [writes] using healthy.writes
    · intro noWrite
      have := healthy.writing (writes ▸ noWrite)
      omega

theorem Healthy.serverRead {contents : Vector UInt8 serverBlock} {n : Nat}
    (healthy : Healthy uninitialised operation c) (stepped : step server c (.serverRead contents n) = some d) :
    ∃ later, Healthy uninitialised later d ∧ distance later d + 1 ≤ distance operation c := by
  obtain ⟨rfl, some_bytes, enough, carries⟩ := healthy.carries.serverRead stepped
  obtain ⟨session, -, -, -, rfl⟩ := step_serverRead stepped
  refine ⟨_, healthy.served rfl (Option.some_ne_none _) carries, ?_⟩
  simp only [distance, answers, answering_read, answering_write, List.length_drop, List.length_take, List.length_nil]
  omega

theorem Healthy.serverTransmit {n : Nat} (healthy : Healthy uninitialised operation c)
    (stepped : step server c (.serverTransmit n) = some d) :
    Healthy uninitialised operation d ∧ distance operation d + 1 ≤ distance operation c := by
  have carries := healthy.carries.serverTransmit stepped
  obtain ⟨bytes, rfl, some_bytes, more, rfl⟩ := healthy.carries.step_serverTransmit stepped
  refine ⟨healthy.served rfl healthy.serving carries, ?_⟩
  simp only [distance, answers, answering_write, List.length_append, List.length_take, List.length_drop]
  omega

theorem Healthy.serverWritten (healthy : Healthy uninitialised operation c)
    (stepped : step server c .serverWritten = some d) :
    ∃ later, Healthy uninitialised later d ∧ distance later d + 1 ≤ distance operation c := by
  have carries := healthy.carries.serverWritten stepped
  obtain ⟨bytes, rfl, session, -, whole, rfl⟩ := healthy.carries.step_serverWritten stepped
  refine ⟨_, healthy.served rfl (Option.some_ne_none _) carries, ?_⟩
  simp only [distance, answers, answering_read, answering_write, List.length_drop, List.length_nil]
  omega

theorem Fresh.connected (positive : 1 ≤ blockSize) (fresh : Fresh uninitialised c)
    (stepped : step server c (.connected false false) = some d) :
    Healthy uninitialised (some (.asyncReadSome serverBlock)) d ∧
      distance (some (.asyncReadSome serverBlock)) d + 1 ≤ distance (some (.asyncReadSome serverBlock)) c := by
  have carries := fresh.carries.connected positive stepped
  obtain ⟨client, moved, rfl⟩ := step_connected stepped
  obtain ⟨-, toClient, quiet, toServer⟩ := fresh.carries.quiet fresh.idle
  have running := fresh.unconnected.connect positive moved
  have settled := running.settled
  obtain ⟨⟨w, writes, -, length, opened⟩, -, reads, closed, one⟩ := connect_cases fresh.idle moved
  refine ⟨⟨carries, Option.some_ne_none _, running, connect_accounts fresh.idle moved,
    closed.trans fresh.opened, ?_, ?_, by simp [reads], by simp [writes]⟩, ?_⟩
  · simp [reads, fresh.opened]
  · simp [writes, opened, fresh.opened]
  · have idle : waiting client = 0 := if_neg (by simp [one])
    have idle' : waiting c.client = 0 := if_neg (by simp [fresh.idle.count])
    simp only [distance, idle, idle', fresh.connecting, settled, writes, fresh.idle.noWrite, toServer, toClient,
      sending_singleton, sending_nil, answering_read, answers, List.length_drop, List.length_singleton, List.length_nil,
      length, Bool.false_eq_true, if_true, if_false]
    omega

/-- A step that is no failure comes nearer to the client's next read. -/
theorem Fine.step {choice : Choice blockSize serverBlock} (positive : 1 ≤ blockSize)
    (fine : Fine uninitialised operation c) (unfailed : choice.fails = false)
    (stepped : EndToEnd.step server c choice = some d) :
    ∃ later, Fine uninitialised later d ∧ (choice ≠ .read → distance later d + 1 ≤ distance operation c) := by
  cases fine with
  | healthy healthy =>
    cases choice with
    | connected err setOptionErr => simp [EndToEnd.step, Client.step, healthy.running.settled] at stepped
    | transmit n => exact ⟨_, .healthy (healthy.transmit stepped).1, fun _ => (healthy.transmit stepped).2⟩
    | written =>
      exact ⟨_, .healthy (healthy.written positive stepped).1, fun _ => (healthy.written positive stepped).2⟩
    | fill contents n =>
      exact ⟨_, .healthy (healthy.fill positive stepped).1, fun _ => (healthy.fill positive stepped).2⟩
    | read => exact ⟨_, .healthy (healthy.read positive stepped), fun other => absurd rfl other⟩
    | serverRead contents n =>
      obtain ⟨later, healthy', lower⟩ := healthy.serverRead stepped
      exact ⟨later, .healthy healthy', fun _ => lower⟩
    | serverTransmit n =>
      exact ⟨_, .healthy (healthy.serverTransmit stepped).1, fun _ => (healthy.serverTransmit stepped).2⟩
    | serverWritten =>
      obtain ⟨later, healthy', lower⟩ := healthy.serverWritten stepped
      exact ⟨later, .healthy healthy', fun _ => lower⟩
    | posted =>
      obtain ⟨session, moved, -⟩ := step_posted stepped
      exact absurd (server.posted healthy.carries.waits moved).1 healthy.serving
    | writeFailed | readFailed | closeSocket | serverFailed => cases unfailed
  | fresh waits fresh =>
    subst waits
    obtain ⟨arrived, -, -, toServer⟩ := fresh.carries.quiet fresh.idle
    cases choice with
    | connected err setOptionErr =>
      obtain ⟨rfl, rfl⟩ : err = false ∧ setOptionErr = false := by simpa [Choice.fails] using unfailed
      obtain ⟨healthy, lower⟩ := fresh.connected positive stepped
      exact ⟨_, .healthy healthy, fun _ => lower⟩
    | transmit | written => simp [EndToEnd.step, fresh.idle.noWrite] at stepped
    | fill => simp [EndToEnd.step, fresh.idle.noRead] at stepped
    | read => simp [EndToEnd.step, arrived] at stepped
    | serverRead contents n =>
      obtain ⟨-, some_bytes, enough, -⟩ := fresh.carries.serverRead stepped
      simp [toServer] at enough
      omega
    | serverTransmit | serverWritten => simp [EndToEnd.step, server.flight fresh.carries.waits] at stepped
    | posted =>
      obtain ⟨session, moved, -⟩ := step_posted stepped
      cases (server.posted fresh.carries.waits moved).1
    | writeFailed | readFailed | closeSocket | serverFailed => cases unfailed

/-- The client's write can go on, or is done. -/
theorem Healthy.sends {w : Client.Write} (healthy : Healthy uninitialised operation c)
    (sole : c.client.writes = [w]) :
    ∃ choice : Choice blockSize serverBlock, choice.fails = false ∧ (EndToEnd.step server c choice).isSome := by
  have opened := healthy.writes w (by simp [sole])
  have within := healthy.carries.sent w (by simp [sole])
  by_cases done : c.sent = w.length
  · exact ⟨.written, rfl, by simp [EndToEnd.step, Client.step, sole, opened, done]⟩
  · have more : c.sent + 1 ≤ w.length := by omega
    refine ⟨.transmit 1, rfl, ?_⟩
    simp only [EndToEnd.step, sole, opened, healthy.opened, more, List.getElem?_cons_zero, Option.bind_eq_bind,
      Option.bind_some, Nat.le_refl, and_self, if_true, Option.isSome_some]

/-- The client can be given what has come for it, and read it. -/
theorem Healthy.receives {r : Client.Read} (positive : 1 ≤ blockSize) (healthy : Healthy uninitialised operation c)
    (sole : c.client.reads = [r]) (come : c.arrived ≠ none ∨ c.toClient ≠ []) :
    ∃ choice : Choice blockSize serverBlock, choice.fails = false ∧ (EndToEnd.step server c choice).isSome := by
  have opened := healthy.reads r (by simp [sole])
  cases arrived : c.arrived with
  | some n =>
    obtain ⟨-, some_bytes, few⟩ := healthy.carries.arrival n arrived
    exact ⟨.read, rfl, by simp [EndToEnd.step, Client.step, arrived, sole, opened, some_bytes, few]⟩
  | none =>
    cases bytes : c.toClient with
    | nil => simp [arrived, bytes] at come
    | cons byte bytes' =>
      refine ⟨.fill (Vector.replicate blockSize byte) 1, rfl, ?_⟩
      simp [EndToEnd.step, Client.step, arrived, sole, opened, healthy.opened, positive, bytes]

/-- The server can go on with its answer, or with what has come for it. -/
theorem Healthy.serves (positive : 1 ≤ serverBlock) (healthy : Healthy uninitialised operation c)
    (come : 0 < answers operation ∨ c.toServer ≠ []) :
    ∃ choice : Choice blockSize serverBlock, choice.fails = false ∧ (EndToEnd.step server c choice).isSome := by
  have waits := healthy.carries.waits
  have flight := server.flight waits
  cases healthy.carries.answered with
  | ended fresh => exact absurd rfl healthy.serving
  | @writing bytes within =>
    by_cases done : c.answered = bytes.length
    · have fits : echo (some (.asyncWrite bytes)) (.writeDone 0 : Result serverBlock) =
          some (some (.asyncReadSome serverBlock)) := by
        simp [echo, Result.fits, Result.ec, Echo.next]
      obtain ⟨session, moved, -⟩ := server.able waits fits
      exact ⟨.serverWritten, rfl, by simp [EndToEnd.step, flight, moved, done]⟩
    · have more : c.answered + 1 ≤ bytes.length := by omega
      exact ⟨.serverTransmit 1, rfl, by simp [EndToEnd.step, flight, more]⟩
  | reading fresh =>
    cases bytes : c.toServer with
    | nil => simp [answers, bytes] at come
    | cons byte bytes' =>
      have fits : echo (some (.asyncReadSome serverBlock)) (.readDone 0 (Vector.replicate serverBlock byte) 1) =
          some (some (.asyncWrite ((Vector.replicate serverBlock byte).toList.take 1))) := by
        simp [echo, Result.fits, Result.ec, Echo.next, positive]
      obtain ⟨session, moved, -⟩ := server.able waits fits
      exact ⟨.serverRead (Vector.replicate serverBlock byte) 1, rfl, by simp [EndToEnd.step, moved, bytes, positive]⟩

/-- Somebody can always go on: there are bytes somewhere. -/
theorem Fine.onward (positive : 1 ≤ blockSize) (positive' : 1 ≤ serverBlock)
    (fine : Fine uninitialised operation c) :
    ∃ choice : Choice blockSize serverBlock, choice.fails = false ∧ (EndToEnd.step server c choice).isSome := by
  cases fine with
  | fresh waits fresh =>
    exact ⟨.connected false false, rfl, by simp [EndToEnd.step, Client.step, fresh.connecting, fresh.opened]⟩
  | healthy healthy =>
    rcases healthy.running.writing with noWrite | ⟨-, w, sole, -⟩
    · have idle := healthy.writing noWrite
      rcases healthy.running.reading with noRead | ⟨r, sole, -⟩
      · have two := healthy.reading noRead
        omega
      by_cases come : c.arrived ≠ none ∨ c.toClient ≠ []
      · exact healthy.receives positive sole come
      by_cases come' : 0 < answers operation ∨ c.toServer ≠ []
      · exact healthy.serves positive' come'
      simp only [ne_eq, not_or, not_not, not_lt] at come come'
      obtain ⟨arrived, toClient⟩ := come
      obtain ⟨answers, toServer⟩ := come'
      have total := healthy.total
      have idle' : waiting c.client = 0 := if_neg (by omega)
      have quiet : answering c.answered operation = [] := by
        cases healthy.carries.answered with
        | reading | ended => rfl
        | writing within => simp [EndToEnd.answers] at answers
      simp only [arrived, toClient, toServer, noWrite, idle', quiet, arriving_none, sending_nil,
        List.length_nil] at total
      omega
    · exact healthy.sends sole

end

/-- The connection goes on, and the client soon gets to read. -/
structure Lively (server : EchoSession serverBlock) (c : Connection server blockSize) : Prop where
  onward : ∃ choice : Choice blockSize serverBlock, choice.fails = false ∧ (step server c choice).isSome
  soon : ∀ (later : List (Choice blockSize serverBlock)) d, run (step server) c later = some d →
    (∀ choice ∈ later, choice.fails = false ∧ choice ≠ .read) → later.length ≤ 6 * blockSize + 2

theorem create_fine (server : EchoSession serverBlock) (uninitialised : Vector UInt8 blockSize) :
    Fine uninitialised (some (.asyncReadSome serverBlock)) (Connection.create server 0 uninitialised) :=
  .fresh rfl ⟨create_carries server 0 uninitialised, ⟨rfl, rfl, rfl, rfl, rfl, rfl, rfl, rfl, rfl⟩,
    ⟨rfl, rfl, fun _ => rfl⟩, rfl, rfl⟩

section
variable {server : EchoSession serverBlock} {c d : Connection server blockSize}
  {uninitialised : Vector UInt8 blockSize}

def SomehowFine (uninitialised : Vector UInt8 blockSize) (c : Connection server blockSize) : Prop :=
  ∃ operation, Fine uninitialised operation c

/-- How far the bytes are from the client's next read. -/
def toNextRead (c : Connection server blockSize) : Nat := distance (server.inFlight c.session).head? c

theorem Fine.waits {operation : Option Operation} (fine : Fine uninitialised operation c) :
    server.Waits c.session operation := by
  cases fine with
  | fresh waits fresh =>
    subst waits
    exact fresh.carries.waits
  | healthy healthy => exact healthy.carries.waits

theorem Fine.toNextRead {operation : Option Operation} (fine : Fine uninitialised operation c) :
    toNextRead c = distance operation c := by
  rw [EndToEnd.toNextRead, server.flight fine.waits]
  cases operation <;> rfl

theorem run_fine (positive : 1 ≤ blockSize) {choices : List (Choice blockSize serverBlock)}
    (path : run (step server) c choices = some d) (unfailed : ∀ choice ∈ choices, choice.fails = false)
    (start : SomehowFine uninitialised c) : SomehowFine uninitialised d := by
  have kept : ∀ (c : Connection server blockSize) (choice : Choice blockSize serverBlock) d,
      SomehowFine uninitialised c → choice.fails = false → step server c choice = some d →
      SomehowFine uninitialised d := by
    intro c choice d ⟨operation, fine⟩ unfailed stepped
    obtain ⟨later, fine', -⟩ := fine.step positive unfailed stepped
    exact ⟨later, fine'⟩
  exact run_invariant_of_meets kept path (meets_of_forall fun choice present _ => unfailed choice present) start

/-- Each step that is no read lowers the distance. -/
theorem run_soon (positive : 1 ≤ blockSize) {later : List (Choice blockSize serverBlock)}
    (path : run (step server) c later = some d)
    (allowed : ∀ choice ∈ later, choice.fails = false ∧ choice ≠ .read)
    (start : SomehowFine uninitialised c) : later.length ≤ 6 * blockSize + 2 := by
  have each : ∀ (c : Connection server blockSize) (choice : Choice blockSize serverBlock) d,
      SomehowFine uninitialised c → choice.fails = false ∧ choice ≠ .read → step server c choice = some d →
      SomehowFine uninitialised d ∧ toNextRead d + (if true then 1 else 0) ≤ toNextRead c := by
    intro c choice d ⟨operation, fine⟩ legal stepped
    obtain ⟨later, fine', lower⟩ := fine.step positive legal.1 stepped
    rw [fine.toNextRead, fine'.toNextRead]
    exact ⟨⟨later, fine'⟩, lower legal.2⟩
  have few := run_count_le (fun _ => true) each path allowed start
  obtain ⟨operation, fine⟩ := start
  have atMost := fine.distance_le positive
  rw [fine.toNextRead, List.countP_true] at few
  omega

end

/-- As long as nothing fails the connection never gets stuck, and it is never busy with
anything else for long before the client reads again. -/
theorem connection_lively (version : Version) (uninitialised : Vector UInt8 blockSize)
    (choices : List (Choice blockSize serverBlock)) (c : Connection (version.session serverBlock) blockSize)
    (positive : 1 ≤ blockSize) (positive' : 1 ≤ serverBlock)
    (path : run (step (version.session serverBlock)) (.create _ 0 uninitialised) choices = some c)
    (unfailed : ∀ choice ∈ choices, choice.fails = false) : Lively (version.session serverBlock) c := by
  obtain ⟨operation, fine⟩ := run_fine positive path unfailed ⟨_, create_fine _ uninitialised⟩
  exact ⟨fine.onward positive positive', fun later d path allowed => run_soon positive path allowed ⟨operation, fine⟩⟩

theorem connection_lively_one_byte :
    let choices : List (Choice 2 1) := [.connected false false, .transmit 2, .serverRead #v[0] 1, .serverTransmit 1,
      .serverWritten, .fill #v[0, 9] 1, .read]
    ∃ c, run (step (Version.session 1 .myserver)) (.create _ 0 #v[0, 0]) choices = some c ∧
      Lively (Version.session 1 .myserver) c :=
  ⟨_, rfl, connection_lively .myserver #v[0, 0] [.connected false false, .transmit 2, .serverRead #v[0] 1,
    .serverTransmit 1, .serverWritten, .fill #v[0, 9] 1, .read] _ (by decide) (by decide) rfl (by simp [Choice.fails])⟩

end Await.Live.EndToEnd
