import Await.SuperLean.Reader

/-! Byte accounting of `tcp_reader`. The byte count of an operation that is done at once
never reaches the reader: the loop in `OnConnect` counts nothing for it and the loop in
`OnRead` a full buffer. -/

namespace Await.SuperLean.Accounting
open General.Callback General.Transition Pal Reader

abbrev Log := List (Entry Point Call)

/-- The bytes that have reached the buffer: those of the operations done at once and
those that packets without an error report. -/
def delivered : Log → Nat
  | [] => 0
  | .result (.now bytes) :: log => bytes + delivered log
  | .packet (.onRead ec bytes) :: log => (if ec = 0 then bytes else 0) + delivered log
  | _ :: log => delivered log

/-- A receive has ended with no byte and no error. -/
def ZeroByteReceive (log : Log) : Prop := .result (.now 0) ∈ log ∨ .packet (.onRead 0 0) ∈ log

/-- The reader has called `OnComplete` with good reason. -/
def Justified (requested : Int) (log : Log) : Prop :=
  .call .completed ∈ log → requested ≤ delivered log ∨ ZeroByteReceive log

/-- Between callbacks `total` is what is still to come, and `OnComplete` is not reached
before its time. Between callbacks an operation is in flight. -/
structure Accounted {η σ : Type} (requested : Int) (s : ReaderState η σ) : Prop where
  remaining : ∀ r, s.object = some r → s.attached ≠ [] → r.total = requested - delivered s.log
  completion : Justified requested s.log

/-- An operation done at once delivers what the loop that started it will count for it. -/
def Counted : Point → Nat → Prop
  | .connectLoop _, bytes => bytes = 0
  | .readLoop _, bytes => bytes = readerSize
  | _, _ => True

theorem delivered_append (log more : Log) : delivered (log ++ more) = delivered log + delivered more := by
  induction log with
  | nil => simp [delivered]
  | cons entry log ih =>
    cases entry with
    | call e => simpa [delivered] using ih
    | result outcome => cases outcome <;> simp [delivered, ih, Nat.add_assoc]
    | packet point => cases point <;> simp [delivered, ih, Nat.add_assoc]

theorem ZeroByteReceive.append {log : Log} (more : Log) (zero : ZeroByteReceive log) :
    ZeroByteReceive (log ++ more) :=
  zero.imp (List.mem_append_left more) (List.mem_append_left more)

/-- `total` says what is still to come, and the reader has not completed. -/
def Open (requested : Int) (r : TcpReader) (log : Log) : Prop :=
  r.total = requested - delivered log ∧ .call .completed ∉ log

/-- The last bytes delivered are about to be taken from `total`. -/
def Owing (requested : Int) (bytesRead : Nat) (r : TcpReader) (log : Log) : Prop :=
  r.total - bytesRead = requested - delivered log ∧ (bytesRead = 0 → ZeroByteReceive log) ∧
    .call .completed ∉ log

/-- The accounts at every point of the code. -/
def accounts (requested : Int) : Assertion TcpReader Point Lambda Call where
  working
    | .point .start, r, log | .point (.onConnect _), r, log | .point (.connectLoop _), r, log => Open requested r log
    | .point (.onRead ec bytesRead), r, log =>
        .call .completed ∉ log ∧ (ec = 0 → Owing requested bytesRead r log)
    | .point (.readLoop bytesRead), r, log => Owing requested bytesRead r log
    | .point (.onError _), _, log => .call .completed ∉ log
    | .point .onComplete, _, log => requested ≤ delivered log ∨ ZeroByteReceive log
    | .point .cleanMe, _, log => Justified requested log
    | .operation call kind next, r, log => Open requested r log ∧
        (call = .connect ∨ kind = .onRead ∧ ((∃ len, next = .connectLoop len) ∨ next = .readLoop readerSize))
  waiting _ posted r log := posted = none ∧ Open requested r log
  ended _ log := Justified requested log

section
variable {requested : Int} {r r' : TcpReader} {log : Log} {point next : Point} {call : Call}
  {kind : Lambda} {sync : Bool} {result : WsaResult} {bytes ec : Nat}

theorem silent_append {more : Log} (before : .call .completed ∉ log) (now : .call .completed ∉ more) :
    .call .completed ∉ log ++ more :=
  fun member => (List.mem_append.mp member).elim before now

/-- Entries that deliver nothing and complete nothing leave the accounts open. -/
theorem Open.append {more : Log} (opened : Open requested r log) (nothing : delivered more = 0)
    (silent : .call .completed ∉ more) : Open requested r (log ++ more) := by
  refine ⟨?_, silent_append opened.2 silent⟩
  rw [delivered_append, nothing]
  exact opened.1

theorem Justified.of_silent (silent : .call .completed ∉ log) : Justified requested log :=
  fun member => absurd member silent

theorem accounts_goto {calls : List Call} (holds : (accounts requested).working (.point point) r log)
    (move : exec point r = .goto r' calls next) :
    (accounts requested).working (.point next) r' (log ++ calls.map Entry.call) := by
  rcases exec_goto move with ⟨ec, rfl, rfl, rfl, ⟨-, rfl⟩ | ⟨-, rfl⟩⟩ |
    ⟨ec, bytesRead, rfl, rfl, rfl, ⟨-, rfl⟩ | ⟨success, rfl⟩⟩ | ⟨bytesRead, rfl, last, rfl, rfl, rfl⟩ |
    ⟨ec, rfl, rfl, rfl, rfl⟩ | ⟨rfl, rfl, rfl, rfl⟩
  · simpa [accounts] using holds.2
  · simpa [accounts] using holds
  · simpa [accounts] using holds.1
  · simpa [accounts] using holds.2 success
  · -- the loop ends with the total used up, or with a receive of no bytes
    obtain ⟨owing, zero, -⟩ := holds
    simp only [accounts, List.map_nil, List.append_nil]
    exact last.imp (fun spent => by omega) zero
  · have silent : .call .completed ∉ log := holds
    exact Justified.of_silent (by simpa using silent)
  · intro _
    rw [delivered_append]
    exact holds.imp (fun covered => by simpa [delivered] using covered) (·.append _)

theorem accounts_start (holds : (accounts requested).working (.point point) r log)
    (move : exec point r = .start r' call kind next none) :
    (accounts requested).working (.operation call kind next) r' log := by
  rcases (exec_start move).2 with ⟨rfl, rfl, rfl, rfl, rfl⟩ | ⟨len, rfl, rfl, rfl, rfl, rfl⟩ |
    ⟨bytesRead, rfl, -, rfl, rfl, rfl, rfl⟩
  · exact ⟨holds, .inl rfl⟩
  · exact ⟨holds, .inr ⟨rfl, .inl ⟨len, rfl⟩⟩⟩
  · exact ⟨⟨holds.1, holds.2.2⟩, .inr ⟨rfl, .inr rfl⟩⟩

/-- The system answers socket operations only. -/
theorem silent_answer {outcome : Outcome} (responded : respond sync call result = some outcome) :
    (.call .completed : Entry Point Call) ∉ [.call call, .result outcome] := by
  intro member
  obtain rfl : .completed = call := by simpa using member
  cases responded

/-- An operation done at once keeps the books only if it delivers what the loop counts. -/
theorem accounts_now (holds : (accounts requested).working (.operation call kind next) r log)
    (responded : respond sync call result = some (.now bytes)) (counted : Counted next bytes) :
    (accounts requested).working (.point next) r (log ++ [.call call, .result (.now bytes)]) := by
  obtain ⟨opened, rfl | ⟨-, ⟨len, rfl⟩ | rfl⟩⟩ := holds
  · cases respond_connect _ responded
  · obtain rfl : bytes = 0 := counted
    exact opened.append rfl (silent_answer responded)
  · obtain rfl : bytes = readerSize := counted
    refine ⟨?_, by simp [readerSize], silent_append opened.2 (silent_answer responded)⟩
    rw [delivered_append]
    have total := opened.1
    simp only [delivered]
    omega

theorem accounts_verified (requested : Int) (sync : Bool) :
    Verified (code sync) Counted (accounts requested) where
  leaves := code_leaves sync
  goto := accounts_goto
  start := accounts_start
  post _ move := absurd move ((exec_rest _ _).1 _ _ _ _)
  leave _ move := absurd move ((exec_rest _ _).2.1 _)
  delete holds move := by
    obtain rfl := (exec_rest _ _).2.2 move
    exact holds
  now := accounts_now
  later := by
    intro call kind next r log result holds responded
    exact ⟨rfl, holds.1.append rfl (silent_answer responded)⟩
  failed := by
    intro call kind next r log result ec holds responded
    have nonzero := respond_failed responded
    obtain ⟨opened, rfl | ⟨rfl, -⟩⟩ := holds
    · have pending : respond sync .connect result = some (.failed ec) := responded
      cases respond_connect _ pending
    · exact ⟨silent_append opened.2 (silent_answer responded), fun zero => absurd zero nonzero⟩
  packet := by
    rintro kind posted r log ec bytes ⟨-, opened⟩ -
    cases kind with
    | onConnect => exact opened.append rfl (by simp [code, invoke])
    | onRead =>
      have silent : .call .completed ∉ log ++ [.packet (.onRead ec bytes)] := by simpa using opened.2
      refine ⟨silent, fun success => ⟨?_, ?_, silent⟩⟩
      · have total := opened.1
        simp only [code, invoke, delivered_append, delivered, success, if_true]
        omega
      · rintro rfl
        exact .inr (by simp [code, invoke, success])

/-- What the rules give for a state. -/
theorem accounted_of_sound {η σ : Type} {S : Supply Lambda η σ} {s : ReaderState η σ}
    (sound : Sound (code sync) S (accounts requested) s) : Accounted requested s := by
  cases sound.phase with
  | waiting a r attached present others holds =>
    refine ⟨fun r' found _ => ?_, Justified.of_silent holds.2.2⟩
    obtain rfl := Option.some.inj (present.symm.trans found)
    exact holds.2.1
  | ended attached others holds => exact ⟨fun _ _ busy => absurd attached busy, holds⟩
  | working i stack pending r attached present running works others holds =>
    refine ⟨fun _ _ busy => absurd attached busy, ?_⟩
    cases pending with
    | operation call kind next => exact Justified.of_silent holds.1.2
    | point point =>
      cases point with
      | start | onConnect ec | connectLoop len => exact Justified.of_silent holds.2
      | onRead ec bytesRead => exact Justified.of_silent holds.1
      | readLoop bytesRead => exact Justified.of_silent holds.2.2
      | onError ec => exact Justified.of_silent holds
      | onComplete => exact fun _ => holds
      | cleanMe => exact holds

/-- What a choice must be for the accounts to stay right: a receive done at once in
`OnConnect`'s loop delivers nothing, and one in `OnRead`'s loop a full buffer. -/
def Exact {η σ : Type} (sync : Bool) (s : ReaderState η σ) (choice : Choice WsaResult) : Prop :=
  Permitted (code sync) Counted s choice

/-- A run without operations done at once has nothing to miscount. -/
theorem exact_pending {η σ : Type} (s : ReaderState η σ) (i : Nat) :
    Exact sync s (.respond i .pending) := by
  intro call h next otherwise rest bytes _ responded
  cases call <;> simp [code, respond, WsaResult.pending, OsTcpSocket.receive, OsTcpSocket.send, OsTcpSocket.status,
    OsTcpSocket.connect, Connection.read, Connection.write, Connection.finish, kSynchCompletion] at responded

end

/-- In every run of either reader in which receives done at once deliver just what is
counted for them, the accounts are right in every state. -/
theorem readers_accounted (sync : Bool) (requested : Int) (choices : List (Choice WsaResult)) :
    (∀ s, run (traditionalReader sync) (traditionalStart requested) choices = some s →
      Meets (traditionalReader sync) (Exact sync) (traditionalStart requested) choices →
      Accounted requested s) ∧
    ∀ s, run (improvedReader sync) (improvedStart requested) choices = some s →
      Meets (improvedReader sync) (Exact sync) (improvedStart requested) choices → Accounted requested s := by
  have fresh : (accounts requested).working (.point .start) ⟨requested⟩ [] :=
    ⟨by simp [delivered], by simp⟩
  constructor
  · intro s path exact
    have sound : Sound (code sync) (freshHandlers Lambda) (accounts requested) (traditionalStart requested) :=
      launch_sound fresh
    exact accounted_of_sound (sound.run (accounts_verified requested sync) path exact)
  · intro s path exact
    have sound : Sound (code sync) ownHandler (accounts requested) (improvedStart requested) :=
      launch_sound fresh
    exact accounted_of_sound (sound.run (accounts_verified requested sync) path exact)

/-- A successful connect, up to the system's answer to the first receive. -/
def connected : List (Choice WsaResult) :=
  [.thread 0, .respond 0 .pending, .thread 0, .packet 0 0 0, .thread 1, .thread 1, .thread 1]

/-- A pending receive of 100 bytes, up to the next receive. -/
def oneHundred : List (Choice WsaResult) :=
  connected ++ [.respond 1 .pending, .packet 0 0 100, .thread 2, .thread 2, .thread 2, .respond 2 .pending]

theorem oneHundred_exact {η σ : Type} {step : ReaderState η σ → Choice WsaResult → Option (ReaderState η σ)}
    (sync : Bool) (s : ReaderState η σ) : Meets step (Exact sync) s oneHundred := by
  refine meets_of_forall fun choice member s => ?_
  have harmless : (∃ i, choice = .respond i .pending) ∨ ∀ i result, choice ≠ .respond i result := by
    simp only [oneHundred, connected, List.cons_append, List.nil_append, List.mem_cons, List.not_mem_nil,
      or_false] at member
    rcases member with rfl | rfl | rfl | rfl | rfl | rfl | rfl | rfl | rfl | rfl | rfl | rfl | rfl <;> simp
  rcases harmless with ⟨i, rfl⟩ | other
  · exact exact_pending s i
  · cases choice with
    | respond i result => exact absurd rfl (other i result)
    | thread i => trivial
    | packet i ec bytes => trivial

theorem readers_accounted_oneHundred :
    (∃ s, run (traditionalReader true) (traditionalStart 8192) oneHundred = some s ∧
      s.attached.length = 1 ∧ Accounted 8192 s) ∧
    ∃ s, run (improvedReader true) (improvedStart 8192) oneHundred = some s ∧
      s.attached.length = 1 ∧ Accounted 8192 s :=
  ⟨⟨_, rfl, rfl, (readers_accounted true 8192 oneHundred).1 _ rfl (oneHundred_exact true _)⟩,
    ⟨_, rfl, rfl, (readers_accounted true 8192 oneHundred).2 _ rfl (oneHundred_exact true _)⟩⟩

/-- The first receive after the connect is done at once with 4096 bytes; the next one is
pending, and `total` still asks for all 8192. -/
theorem readers_accounted_counterexample :
    (¬∀ (sync : Bool) (requested : Int) (choices : List (Choice WsaResult)) s,
      run (traditionalReader sync) (traditionalStart requested) choices = some s → Accounted requested s) ∧
    ¬∀ (sync : Bool) (requested : Int) (choices : List (Choice WsaResult)) s,
      run (improvedReader sync) (improvedStart requested) choices = some s → Accounted requested s := by
  constructor
  · intro all
    have accounted := all true 8192
      (connected ++ [.respond 1 (.done 4096), .thread 1, .thread 1, .respond 1 .pending]) _ rfl
    exact absurd (accounted.remaining ⟨8192⟩ rfl (List.cons_ne_nil _ _)) (by decide)
  · intro all
    have accounted := all true 8192
      (connected ++ [.respond 1 (.done 4096), .thread 1, .thread 1, .respond 1 .pending]) _ rfl
    exact absurd (accounted.remaining ⟨8192⟩ rfl (List.cons_ne_nil _ _)) (by decide)

end Await.SuperLean.Accounting
