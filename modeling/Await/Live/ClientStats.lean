import Await.General.Population
import Await.Live.SessionSteps

/-! `client` of `myclient.cpp` with all its sessions, the timer that stops them, and the
`stats` that the sessions add their counters to when they are deleted. -/

namespace Await.Live.ClientStats
open General Client SessionSteps Transition

variable {blockSize : Nat}

/-! ### The sessions of a client -/

/-- A session of the list `sessions_`, with the calls of `close_socket` posted to its strand. -/
structure Member (blockSize : Nat) where
  session : Session blockSize
  posted : Nat := 0

/-- `net::post(strand_, [this] { close_socket(); });` -/
def Member.stop (m : Member blockSize) : Member blockSize := { m with posted := m.posted + 1 }

/-- `close_socket` runs as often as it was posted. -/
def Member.step (m : Member blockSize) : Action blockSize → Option (Member blockSize)
  | .closeSocket =>
      if 0 < m.posted then
        (Client.step m.session .closeSocket).map fun session => { session, posted := m.posted - 1 }
      else none
  | action => (Client.step m.session action).map fun session => { m with session }

/-- The members of `client` that change: whether `stop_timer_` still has its handler, and
the sessions. -/
abbrev Program (blockSize : Nat) := Population.State Bool (Member blockSize)

/-- The constructor, with what the sessions' read buffers hold. -/
def create (uninitialised : List (Vector UInt8 blockSize)) : Program blockSize where
  host := true
  members := uninitialised.map fun contents => { session := .create contents }

/-- `handle_timeout`, whatever the timer's error code is. -/
def handleTimeout (p : Program blockSize) (_ : Unit) : Option (Program blockSize) :=
  if p.host then some { host := false, members := p.members.map Member.stop } else none

def step : Program blockSize → Population.Choice Unit (Action blockSize) → Option (Program blockSize) :=
  Population.step handleTimeout Member.step

/-- The members of `stats` that `add` changes. -/
structure Stats where
  totalBytesWritten : UInt64 := 0
  totalBytesRead : UInt64 := 0
  deriving DecidableEq, Repr

def Stats.add (bytesWritten bytesRead : UInt64) (s : Stats) : Stats where
  totalBytesWritten := s.totalBytesWritten + bytesWritten
  totalBytesRead := s.totalBytesRead + bytesRead

/-- `~session()`. -/
def Member.destroy (s : Stats) (m : Member blockSize) : Stats := s.add m.session.bytesWritten m.session.bytesRead

/-- `~client()`, up to the call of `print`. -/
def destroy (p : Program blockSize) : Stats := p.members.foldl Member.destroy {}

/-- The timer's handler and the handlers of the sessions. -/
def handles : Population.Choice Unit (Action blockSize) → Bool
  | .host _ => true
  | .member _ action => isHandler action

section
variable {p q : Program blockSize} {m m' : Member blockSize} {action : Action blockSize}

/-- A session in some stage; its socket is closed once after the timer's handler has run. -/
structure Managed (waiting : Bool) (m : Member blockSize) : Prop where
  stage : ∃ uninitialised, Stage uninitialised m.session
  closing : waiting.toNat + m.posted + m.session.closed.toNat = 1

theorem member_cases (stepped : m.step action = some m') :
    (action = .closeSocket ∧ 0 < m.posted ∧ Client.step m.session .closeSocket = some m'.session ∧
        m'.posted = m.posted - 1) ∨
      (action ≠ .closeSocket ∧ Client.step m.session action = some m'.session ∧ m'.posted = m.posted) := by
  cases action with
  | closeSocket =>
    obtain ⟨some_posted, moved⟩ := Option.ite_none_right_eq_some.mp stepped
    obtain ⟨session, closed, rfl⟩ := Option.map_eq_some_iff.mp moved
    exact .inl ⟨rfl, some_posted, closed, rfl⟩
  | connected | fill | readDone | writeDone =>
    obtain ⟨session, moved, rfl⟩ := Option.map_eq_some_iff.mp stepped
    exact .inr ⟨nofun, moved, rfl⟩

theorem Managed.step {waiting : Bool} (positive : 1 ≤ blockSize) (managed : Managed waiting m)
    (stepped : m.step action = some m') : Managed waiting m' := by
  obtain ⟨⟨uninitialised, stage⟩, closing⟩ := managed
  rcases member_cases stepped with ⟨rfl, more, moved, posted⟩ | ⟨other, moved, posted⟩
  · refine ⟨⟨uninitialised, stage.step positive moved⟩, ?_⟩
    have closed : m'.session.closed = true := by
      simp only [Client.step, Option.some.injEq] at moved
      rw [← moved]
    rw [posted, closed, Bool.toNat_true]
    omega
  · refine ⟨⟨uninitialised, stage.step positive moved⟩, ?_⟩
    rw [posted, stage.closed moved other]
    exact closing

theorem Managed.stop (managed : Managed true m) : Managed false m.stop := by
  refine ⟨managed.stage, ?_⟩
  have closing := managed.closing
  rw [Bool.toNat_true] at closing
  simp only [Member.stop, Bool.toNat_false]
  omega

theorem timeout_cases (stepped : step p (.host ()) = some q) :
    p.host = true ∧ q = { host := false, members := p.members.map Member.stop } := by
  obtain ⟨waiting, same⟩ := Option.ite_none_right_eq_some.mp stepped
  exact ⟨waiting, (Option.some.inj same).symm⟩

theorem step_managed (positive : 1 ≤ blockSize) {choice : Population.Choice Unit (Action blockSize)}
    (managed : ∀ m ∈ p.members, Managed p.host m) (stepped : step p choice = some q) :
    ∀ m ∈ q.members, Managed q.host m := by
  cases choice with
  | host choice =>
    obtain ⟨waiting, rfl⟩ := timeout_cases stepped
    rw [waiting] at managed
    intro m stopped
    obtain ⟨before, present, rfl⟩ := List.mem_map.mp stopped
    exact (managed before present).stop
  | member i action =>
    obtain ⟨same, all⟩ := Population.member_all (fun m m' inv moved => Managed.step positive inv moved) managed stepped
    rw [same]
    exact all

theorem create_managed (uninitialised : List (Vector UInt8 blockSize)) :
    ∀ m ∈ (create uninitialised).members, Managed (create uninitialised).host m := by
  intro m made
  obtain ⟨contents, -, rfl⟩ := List.mem_map.mp made
  exact ⟨⟨contents, create_stage contents⟩, rfl⟩

theorem step_length {choice : Population.Choice Unit (Action blockSize)} (stepped : step p choice = some q) :
    q.members.length = p.members.length := by
  cases choice with
  | host choice =>
    obtain ⟨-, rfl⟩ := timeout_cases stepped
    exact List.length_map ..
  | member i action =>
    obtain ⟨before, m, after, m', members, -, -, rfl⟩ := Population.member_cases stepped
    simp [members]

theorem run_managed (positive : 1 ≤ blockSize) {uninitialised : List (Vector UInt8 blockSize)}
    {choices : List (Population.Choice Unit (Action blockSize))}
    (path : run step (create uninitialised) choices = some p) :
    (∀ m ∈ p.members, Managed p.host m) ∧ p.members.length = uninitialised.length := by
  have kept : ∀ p choice q, ((∀ m ∈ p.members, Managed p.host m) ∧ p.members.length = uninitialised.length) →
      step p choice = some q →
      (∀ m ∈ q.members, Managed q.host m) ∧ q.members.length = uninitialised.length :=
    fun p choice q inv stepped => ⟨step_managed positive inv.1 stepped, (step_length stepped).trans inv.2⟩
  have start : (∀ m ∈ (create uninitialised).members, Managed (create uninitialised).host m) ∧
      (create uninitialised).members.length = uninitialised.length :=
    ⟨create_managed uninitialised, List.length_map ..⟩
  have invariant := run_invariant kept path start
  exact invariant

end

/-! ### The totals -/

def writtenBytes (m : Member blockSize) : Nat := m.session.sent.flatten.length

def receivedBytes (m : Member blockSize) : Nat := m.session.received.flatten.length

theorem destroy_eq (members : List (Member blockSize)) (s : Stats)
    (accounts : ∀ m ∈ members, Accounts m.session) :
    members.foldl Member.destroy s =
      ⟨s.totalBytesWritten + UInt64.ofNat (members.map writtenBytes).sum,
        s.totalBytesRead + UInt64.ofNat (members.map receivedBytes).sum⟩ := by
  induction members generalizing s with
  | nil => simp
  | cons m members ih =>
    obtain ⟨now, later⟩ := List.forall_mem_cons.mp accounts
    rw [List.foldl_cons, ih _ later]
    simp only [Member.destroy, Stats.add, List.map_cons, List.sum_cons, UInt64.ofNat_add, UInt64.add_assoc,
      now.written, now.read, writtenBytes, receivedBytes]

theorem total_le (members : List (Member blockSize))
    (each : ∀ m ∈ members, writtenBytes m ≤ blockSize + receivedBytes m) :
    (members.map writtenBytes).sum ≤ members.length * blockSize + (members.map receivedBytes).sum :=
  calc (members.map writtenBytes).sum
      ≤ (members.map fun m => blockSize + receivedBytes m).sum := List.sum_le_sum each
    _ = members.length * blockSize + (members.map receivedBytes).sum := by
      rw [List.sum_map_add, List.map_const', List.sum_replicate, Nat.nsmul_eq_mul]

/-- Whatever the sessions do in whatever order, and whenever the client is deleted: the
totals are what its sessions have written and received, and no more has been written than
was received and one block for each session. -/
theorem client_totals (uninitialised : List (Vector UInt8 blockSize))
    (choices : List (Population.Choice Unit (Action blockSize))) (p : Program blockSize)
    (positive : 1 ≤ blockSize) (path : run step (create uninitialised) choices = some p) :
    destroy p = ⟨UInt64.ofNat (p.total writtenBytes), UInt64.ofNat (p.total receivedBytes)⟩ ∧
      p.total writtenBytes ≤ uninitialised.length * blockSize + p.total receivedBytes := by
  obtain ⟨managed, length⟩ := run_managed positive path
  constructor
  · have totals := destroy_eq p.members {} fun m present => by
      obtain ⟨contents, stage⟩ := (managed m present).stage
      exact stage.accounts
    simpa [destroy, Population.State.total] using totals
  · rw [← length]
    refine total_le p.members fun m present => ?_
    obtain ⟨contents, stage⟩ := (managed m present).stage
    exact stage.sent_le

theorem client_totals_one_chunk :
    let choices : List (Population.Choice Unit (Action 2)) := [.member 1 (.connected false false),
      .member 0 (.connected true false), .member 1 (.fill 0 #v[7, 8]), .member 1 (.readDone 0 (some 1)), .host (),
      .member 1 (.writeDone 0 true), .member 1 .closeSocket]
    ∃ p, run step (create [#v[0, 0], #v[0, 0]]) choices = some p ∧
      destroy p = ⟨UInt64.ofNat (p.total writtenBytes), UInt64.ofNat (p.total receivedBytes)⟩ ∧
      p.total writtenBytes ≤ 2 * 2 + p.total receivedBytes :=
  ⟨_, rfl, client_totals [#v[0, 0], #v[0, 0]] [.member 1 (.connected false false),
    .member 0 (.connected true false), .member 1 (.fill 0 #v[7, 8]), .member 1 (.readDone 0 (some 1)), .host (),
    .member 1 (.writeDone 0 true), .member 1 .closeSocket] _ (by decide) rfl⟩

/-! ### The end of the program -/

/-- Nothing is left to do for the `io_context`, so that `run` returns. -/
def AtRest (p : Program blockSize) : Prop :=
  p.host = false ∧ ∀ m ∈ p.members,
    m.posted = 0 ∧ m.session.connecting = false ∧ m.session.reads = [] ∧ m.session.writes = []

/-- The timer's handler has run, and so has each `close_socket` it has posted. -/
def Stopped (p : Program blockSize) : Prop := p.host = false ∧ ∀ m ∈ p.members, m.posted = 0

/-- How many handlers the sessions may still run once their sockets are closed. -/
def remaining (p : Program blockSize) : Nat := p.total fun m => work m.session

/-- How a client comes to its end. -/
structure WindsDown (p : Program blockSize) : Prop where
  onward : AtRest p ∨ ∃ choice, handles choice ∧ (step p choice).isSome
  closed : Stopped p → ∀ m ∈ p.members, m.session.closed = true
  bounded : Stopped p → ∀ later q, run step p later = some q →
    Stopped q ∧ later.countP handles ≤ p.members.length * 4 ∧
      ∀ i, (Population.own i later).countP isHandler ≤ 4

section
variable {p q : Program blockSize} {m m' : Member blockSize} {action : Action blockSize}

/-- Whatever a session waits for, its handler may run: an operation may fail at any time. -/
theorem member_onward (m : Member blockSize) :
    (m.posted = 0 ∧ m.session.connecting = false ∧ m.session.reads = [] ∧ m.session.writes = []) ∨
      ∃ action, isHandler action ∧ (m.step action).isSome := by
  by_cases posted : m.posted = 0
  · cases connecting : m.session.connecting with
    | true => exact .inr ⟨.connected true false, rfl, by simp [Member.step, Client.step, connecting]⟩
    | false =>
      cases reads : m.session.reads with
      | cons r reads => exact .inr ⟨.readDone 0 none, rfl, by simp [Member.step, Client.step, reads]⟩
      | nil =>
        cases writes : m.session.writes with
        | cons w writes => exact .inr ⟨.writeDone 0 false, rfl, by simp [Member.step, Client.step, writes]⟩
        | nil => exact .inl ⟨posted, rfl, rfl, rfl⟩
  · have more : 0 < m.posted := Nat.pos_of_ne_zero posted
    exact .inr ⟨.closeSocket, rfl, by simp [Member.step, Client.step, more]⟩

theorem program_onward (p : Program blockSize) :
    AtRest p ∨ ∃ choice, handles choice ∧ (step p choice).isSome := by
  cases waiting : p.host with
  | true => exact .inr ⟨.host (), rfl, by simp [step, Population.step, handleTimeout, waiting]⟩
  | false =>
    by_cases rest : ∀ m ∈ p.members,
        m.posted = 0 ∧ m.session.connecting = false ∧ m.session.reads = [] ∧ m.session.writes = []
    · exact .inl ⟨waiting, rest⟩
    · simp only [not_forall] at rest
      obtain ⟨m, present, busy⟩ := rest
      obtain ⟨action, handler, moves⟩ := (member_onward m).resolve_left busy
      obtain ⟨m', moved⟩ := Option.isSome_iff_exists.mp moves
      obtain ⟨i, inside, rfl⟩ := List.getElem_of_mem present
      exact .inr ⟨.member i action, handler, by simp [step, Population.step, inside, moved]⟩

theorem Managed.closed (managed : Managed false m) (posted : m.posted = 0) : m.session.closed = true := by
  have closing := managed.closing
  cases closed : m.session.closed with
  | true => rfl
  | false => simp [posted, closed] at closing

/-- A session's work is used up by each of its handlers, and nothing adds to it. -/
theorem stopped_step {choice : Population.Choice Unit (Action blockSize)}
    (managed : ∀ m ∈ p.members, Managed p.host m) (stopped : Stopped p) (stepped : step p choice = some q) :
    Stopped q ∧ remaining q + (if handles choice then 1 else 0) ≤ remaining p ∧
      ∀ i, q.weigh (work ·.session) i + (if choice.mine i isHandler then 1 else 0) ≤ p.weigh (work ·.session) i := by
  obtain ⟨fired, posted⟩ := stopped
  rw [fired] at managed
  cases choice with
  | host choice =>
    obtain ⟨waiting, -⟩ := timeout_cases stepped
    rw [waiting] at fired
    cases fired
  | member i action =>
    have none_posted : ∀ m m' : Member blockSize, m.posted = 0 → m.step action = some m' → m'.posted = 0 := by
      intro m m' none moved
      rcases member_cases moved with ⟨-, more, -⟩ | ⟨-, -, same⟩
      · omega
      · rw [same, none]
    have lower : ∀ m m', m ∈ p.members → m.step action = some m' →
        work m'.session + (if isHandler action then 1 else 0) ≤ work m.session := by
      intro m m' present moved
      obtain ⟨contents, stage⟩ := (managed m present).stage
      rcases member_cases moved with ⟨-, more, -⟩ | ⟨other, moved, -⟩
      · rw [posted m present] at more
        cases more
      · exact stage.work ((managed m present).closed (posted m present)) moved other
    obtain ⟨same, all⟩ := Population.member_all none_posted posted stepped
    refine ⟨⟨same.trans fired, all⟩, Population.total_member lower stepped, fun j => ?_⟩
    have each := Population.weigh_member (j := j) lower stepped
    by_cases here : i = j <;> simpa [Population.Choice.mine, here] using each

theorem stopped_bounded (positive : 1 ≤ blockSize) (managed : ∀ m ∈ p.members, Managed p.host m)
    (stopped : Stopped p) {later : List (Population.Choice Unit (Action blockSize))}
    (path : run step p later = some q) :
    Stopped q ∧ later.countP handles ≤ p.members.length * 4 ∧
      ∀ i, (Population.own i later).countP isHandler ≤ 4 := by
  have kept : ∀ (p : Program blockSize) choice (q : Program blockSize),
      ((∀ m ∈ p.members, Managed p.host m) ∧ Stopped p) → step p choice = some q →
      (∀ m ∈ q.members, Managed q.host m) ∧ Stopped q :=
    fun p choice q inv stepped =>
      ⟨step_managed positive inv.1 stepped, (stopped_step inv.1 inv.2 stepped).1⟩
  have few : ∀ m ∈ p.members, work m.session ≤ 4 := fun m present => by
    obtain ⟨contents, stage⟩ := (managed m present).stage
    exact work_le stage
  have all : ∀ (p : Program blockSize) choice (q : Program blockSize),
      ((∀ m ∈ p.members, Managed p.host m) ∧ Stopped p) → True → step p choice = some q →
      ((∀ m ∈ q.members, Managed q.host m) ∧ Stopped q) ∧
        remaining q + (if handles choice then 1 else 0) ≤ remaining p :=
    fun p choice q inv _ stepped => ⟨kept p choice q inv stepped, (stopped_step inv.1 inv.2 stepped).2.1⟩
  have together := run_count_le handles all path (fun _ _ => trivial) ⟨managed, stopped⟩
  have atMost : remaining p ≤ p.members.length * 4 := Population.total_le few
  refine ⟨(run_invariant kept path ⟨managed, stopped⟩).2, by omega, fun i => ?_⟩
  have each : ∀ (p : Program blockSize) choice (q : Program blockSize),
      ((∀ m ∈ p.members, Managed p.host m) ∧ Stopped p) → True → step p choice = some q →
      ((∀ m ∈ q.members, Managed q.host m) ∧ Stopped q) ∧
        q.weigh (work ·.session) i + (if choice.mine i isHandler then 1 else 0) ≤ p.weigh (work ·.session) i :=
    fun p choice q inv _ stepped => ⟨kept p choice q inv stepped, (stopped_step inv.1 inv.2 stepped).2.2 i⟩
  have mine := run_count_le (Population.Choice.mine i isHandler) each path (fun _ _ => trivial) ⟨managed, stopped⟩
  have own_few : p.weigh (work ·.session) i ≤ 4 := Population.weigh_le few
  rw [Population.own_countP]
  omega

end

/-- A client never gets stuck: until it is at rest some handler can run. Once the timer's
handler and the calls of `close_socket` have run, every socket is closed and each session
runs four more handlers at most, so that `run` returns. -/
theorem client_winds_down (uninitialised : List (Vector UInt8 blockSize))
    (choices : List (Population.Choice Unit (Action blockSize))) (p : Program blockSize)
    (positive : 1 ≤ blockSize) (path : run step (create uninitialised) choices = some p) : WindsDown p := by
  obtain ⟨managed, -⟩ := run_managed positive path
  refine ⟨program_onward p, fun stopped m present => ?_, fun stopped later q path => ?_⟩
  · have inv := managed m present
    rw [stopped.1] at inv
    exact inv.closed (stopped.2 m present)
  · exact stopped_bounded positive managed stopped path

theorem client_winds_down_one_chunk :
    let choices : List (Population.Choice Unit (Action 2)) := [.member 0 (.connected false false), .host (),
      .member 0 .closeSocket, .member 0 (.writeDone 0 false)]
    ∃ p, run step (create [#v[0, 0]]) choices = some p ∧ WindsDown p :=
  ⟨_, rfl, client_winds_down [#v[0, 0]] [.member 0 (.connected false false), .host (), .member 0 .closeSocket,
    .member 0 (.writeDone 0 false)] _ (by decide) rfl⟩

end Await.Live.ClientStats
