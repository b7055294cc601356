import Await.General.Progress
import Await.SuperLean.Script
import Await.SuperLean.Reader
import Await.SuperLean.Awaitable
import Mathlib.Algebra.BigOperators.Group.Finset.Basic

/-! The coroutine reader beside the callback reader, when every receive is pending. The
callback reader decides by what a completion reports; the coroutine never looks at it and
takes every receive for a full buffer. -/

namespace Await.SuperLean.Agreement
open General.Callback General.Transition General.Progress Pal Script

/-! ### What the two readers take -/

/-- `OnRead` and `OnError`. -/
def afterRead (total : Int) (completion : ErrorCode × Nat) : Option Int :=
  if completion.1 ≠ 0 then none
  else if total - completion.2 ≤ 0 ∨ completion.2 = 0 then none
  else some (total - completion.2)

/-- `await_resume` and the loop in `TcpReader`: the completion is not looked at. -/
def afterResume (total : Int) (_completion : ErrorCode × Nat) : Option Int :=
  if total - readerSize ≤ 0 then none else some (total - readerSize)

section
variable {total left : Int} {script : Nat → Completion} {n : Nat}

theorem afterRead_eq_some {completion : ErrorCode × Nat} : afterRead total completion = some left ↔
    completion.1 = 0 ∧ completion.2 ≠ 0 ∧ 0 < left ∧ left = total - completion.2 := by
  unfold afterRead
  split_ifs with error last
  · simp [error]
  · simp only [false_iff]
    rintro ⟨-, some_bytes, more, rfl⟩
    omega
  · have success : completion.1 = 0 := not_not.mp error
    simp only [Option.some.injEq, success, true_and]
    omega

theorem afterRead_eq_none {completion : ErrorCode × Nat} : afterRead total completion = none ↔
    completion.1 ≠ 0 ∨ total - completion.2 ≤ 0 ∨ completion.2 = 0 := by
  unfold afterRead
  split_ifs with error last
  · exact ⟨fun _ => .inl error, fun _ => rfl⟩
  · exact ⟨fun _ => .inr last, fun _ => rfl⟩
  · exact iff_of_false (by simp) (not_or.mpr ⟨error, last⟩)

theorem afterResume_eq_some {completion : ErrorCode × Nat} : afterResume total completion = some left ↔
    0 < left ∧ left = total - readerSize := by
  unfold afterResume
  split_ifs with last
  · simp only [false_iff]
    omega
  · simp only [Option.some.injEq]
    omega

/-- A completion with no error and at least one byte. -/
def Useful (completion : Completion) : Prop := completion.error = 0 ∧ completion.bytes ≠ 0

instance : DecidablePred Useful :=
  fun completion => inferInstanceAs (Decidable (completion.error = 0 ∧ completion.bytes ≠ 0))

/-- The bytes of the first completions. -/
def received (script : Nat → Completion) (n : Nat) : Nat := ∑ i ∈ Finset.range n, (script i).bytes

theorem received_succ : received script (n + 1) = received script n + (script n).bytes :=
  Finset.sum_range_succ ..

theorem received_le : received script n ≤ n * readerSize := by
  induction n with
  | zero => simp [received]
  | succ n ih =>
    calc received script (n + 1)
        = received script n + (script n).bytes := received_succ
      _ ≤ n * readerSize + readerSize := Nat.add_le_add ih (script n).fits
      _ = (n + 1) * readerSize := (Nat.succ_mul n readerSize).symm

theorem le_received (useful : ∀ i < n, Useful (script i)) : n ≤ received script n := by
  induction n with
  | zero => exact Nat.zero_le _
  | succ n ih =>
    have before := ih fun i earlier => useful i (Nat.lt_succ_of_lt earlier)
    have positive := (useful n (Nat.lt_succ_self n)).2
    rw [received_succ]
    omega

theorem run_afterRead (positive : 0 < total) : run afterRead total (reports script n) = some left ↔
    (∀ i < n, Useful (script i)) ∧ 0 < left ∧ left = total - received script n := by
  induction n generalizing left with
  | zero =>
    have here : run afterRead total (reports script 0) = some total := rfl
    simp only [here, Option.some.injEq, received, Finset.range_zero, Finset.sum_empty]
    constructor
    · rintro rfl
      simpa using positive
    · rintro ⟨-, -, rfl⟩
      simp
  | succ n ih =>
    simp only [run_reports_succ, ih, afterRead_eq_some, received_succ, Nat.forall_lt_succ_right, Useful]
    constructor
    · rintro ⟨mid, ⟨useful, -, rfl⟩, success, some_bytes, more, rfl⟩
      exact ⟨⟨useful, success, some_bytes⟩, more, by omega⟩
    · rintro ⟨⟨useful, success, some_bytes⟩, more, rfl⟩
      exact ⟨_, ⟨useful, by omega, rfl⟩, success, some_bytes, more, by omega⟩

theorem run_afterResume (positive : 0 < total) : run afterResume total (reports script n) = some left ↔
    0 < left ∧ left = total - n * readerSize := by
  induction n generalizing left with
  | zero =>
    have here : run afterResume total (reports script 0) = some total := rfl
    simp only [here, Option.some.injEq]
    omega
  | succ n ih =>
    simp only [run_reports_succ, ih, afterResume_eq_some, readerSize]
    constructor
    · rintro ⟨mid, ⟨-, rfl⟩, more, rfl⟩
      exact ⟨more, by omega⟩
    · rintro ⟨more, rfl⟩
      refine ⟨_, ⟨?_, rfl⟩, more, ?_⟩ <;> omega

end

def callbackView : View Reader.Point where
  connect
    | .onConnect ec => some ec
    | _ => none
  receive
    | .onRead ec bytesRead => some (ec, bytesRead)
    | _ => none

def awaiterView : View Awaitable.Point where
  connect
    | .ioComplete .connect error _ => some error
    | _ => none
  receive
    | .ioComplete .read error byteTransferred => some (error, byteTransferred)
    | _ => none

/-! ### Runs that end -/

section
variable {ω κ φ η σ ι : Type}

/-- A state at the end of a run that follows the script, with the reader deleted. -/
structure EndsIn (V : View κ) (script : Nat → Completion)
    (step : State ω κ η σ Call → ι → Option (State ω κ η σ Call)) (start s : State ω κ η σ Call) : Prop where
  reached : ∃ choices, run step start choices = some s
  follows : V.Follows script s.log
  deleted : s.object = none

/-- A receive is in flight, and so many have completed before. -/
def Idle (V : View κ) (S : Supply φ η σ) (script : Nat → Completion) (kind : φ) (object : ω) (n : Nat)
    (s : State ω κ η σ Call) : Prop :=
  ∃ log, Waits S s kind object log ∧ V.Heard script n log

/-- The reader is deleted after so many completions. -/
def Over (V : View κ) (script : Nat → Completion) (n : Nat) (s : State ω κ η σ Call) : Prop :=
  s.object = none ∧ V.Heard script n s.log

variable {C : Code ω κ φ WsaResult Call} {S : Supply φ η σ} {V : View κ} {script : Nat → Completion} {n : Nat}
  {s : State ω κ η σ Call} {log : List (Entry κ Call)} {kind : φ} {object : ω}
  {goal : State ω κ η σ Call → Prop}

theorem over_of_gone (gone : Gone s log) (heard : V.Heard script n log) : Over V script n s := by
  obtain ⟨absent, rfl⟩ := gone
  exact ⟨absent, heard⟩

/-- The receive in flight completes as the script says. -/
theorem Idle.packet (idle : Idle V S script kind object n s)
    (fine : (V.connect (C.entry kind (script n).error (script n).bytes)).getD 0 = 0)
    (reported : V.receive (C.entry kind (script n).error (script n).bytes) =
      some ((script n).error, (script n).bytes))
    (rest : ∀ log t, At t (C.entry kind (script n).error (script n).bytes) object log →
      V.Heard script (n + 1) log → CanReach (step C S) goal t) : CanReach (step C S) goal s := by
  obtain ⟨log, waits, heard⟩ := idle
  exact waits.packet _ _ fun t here => rest _ t here (heard.packet fine reported)

theorem exists_ends {step : State ω κ η σ Call → ι → Option (State ω κ η σ Call)}
    (reach : CanReach step (Over V script n) s) : ∃ t, EndsIn V script step s t := by
  obtain ⟨choices, t, path, deleted, heard⟩ := reach
  exact ⟨t, ⟨choices, path⟩, heard.follows, deleted⟩

end

/-! ### The callback reader -/

section
open Reader

/-- How far the callback reader has got at each of its points. -/
def paced (total : Int) : Assertion TcpReader Point Lambda Call where
  working pending r log := callbackView.Asynchronous log →
    match pending with
    | .point .start | .point (.connectLoop _) => Going afterRead callbackView total r.total 0 log
    | .point (.onConnect ec) => ec = 0 ∧ Going afterRead callbackView total r.total 0 log
    | .point (.onRead ec bytesRead) => Due afterRead callbackView total r.total (ec, bytesRead) log
    | .point (.readLoop bytesRead) => Due afterRead callbackView total r.total (0, bytesRead) log
    | .point (.onError _) | .point .onComplete | .point .cleanMe => Ended afterRead callbackView total log
    | .operation call kind _ => Going afterRead callbackView total r.total 0 log ∧
        (call = .connect ∧ kind = .onConnect ∨ (∃ len, call = .receive len) ∧ kind = .onRead)
  waiting kind _ r log := callbackView.Asynchronous log →
    match kind with
    | .onConnect => Going afterRead callbackView total r.total 0 log
    | .onRead => Going afterRead callbackView total r.total 1 log
  ended object log := object = none ∧ (callbackView.Asynchronous log → Ended afterRead callbackView total log)

variable {total : Int} {r r' : TcpReader} {log : List (Entry Point Call)} {point next : Point} {call : Call}
  {calls : List Call} {kind : Lambda}

theorem paced_goto (holds : (paced total).working (.point point) r log)
    (move : exec point r = .goto r' calls next) :
    (paced total).working (.point next) r' (log ++ calls.map Entry.call) := by
  intro async
  have holds := holds async.before
  rcases exec_goto move with ⟨ec, rfl, rfl, rfl, ⟨error, rfl⟩ | ⟨success, rfl⟩⟩ |
    ⟨ec, bytesRead, rfl, rfl, rfl, ⟨error, rfl⟩ | ⟨rfl, rfl⟩⟩ | ⟨bytesRead, rfl, last, rfl, rfl, rfl⟩ |
    ⟨ec, rfl, rfl, rfl, rfl⟩ | ⟨rfl, rfl, rfl, rfl⟩
  · exact absurd holds.1 error
  · rw [List.map_nil, List.append_nil]
    exact holds.2
  · rw [List.map_nil, List.append_nil]
    exact holds.stop (afterRead_eq_none.mpr (.inl error))
  · rw [List.map_nil, List.append_nil]
    exact holds
  · rw [List.map_nil, List.append_nil]
    exact holds.stop (afterRead_eq_none.mpr (.inr last))
  · exact holds.silent rfl rfl
  · exact holds.silent rfl rfl

theorem paced_start (holds : (paced total).working (.point point) r log)
    (move : exec point r = .start r' call kind next none) :
    (paced total).working (.operation call kind next) r' log := by
  intro async
  have holds := holds async
  rcases (exec_start move).2 with ⟨rfl, rfl, rfl, rfl, rfl⟩ | ⟨len, rfl, rfl, rfl, rfl, rfl⟩ |
    ⟨bytesRead, rfl, more, rfl, rfl, rfl, rfl⟩
  · exact ⟨holds, .inl ⟨rfl, rfl⟩⟩
  · exact ⟨holds, .inr ⟨⟨len, rfl⟩, rfl⟩⟩
  · have left : 0 < r.total - bytesRead := by omega
    have taken : afterRead r.total (0, bytesRead) = some (r.total - bytesRead) :=
      afterRead_eq_some.mpr ⟨rfl, fun none => more (.inr none), left, rfl⟩
    exact ⟨holds.next taken left, .inr ⟨⟨readerSize, rfl⟩, rfl⟩⟩

theorem paced_verified (total : Int) (sync : Bool) : Verified (code sync) (fun _ _ => True) (paced total) where
  leaves := code_leaves sync
  goto := paced_goto
  start := paced_start
  post _ move := absurd move ((exec_rest _ _).1 _ _ _ _)
  leave _ move := absurd move ((exec_rest _ _).2.1 _)
  delete holds move := by
    obtain rfl := (exec_rest _ _).2.2 move
    exact ⟨rfl, holds⟩
  now := by
    intro call kind next r log result bytes _ _ _ async
    cases async (.result (.now bytes)) (by simp)
  later := by
    intro call kind next r log result holds _ async
    obtain ⟨going, ⟨rfl, rfl⟩ | ⟨⟨len, rfl⟩, rfl⟩⟩ := holds async.before
    · exact going.silent rfl rfl
    · exact going.silent rfl rfl
  failed := by
    intro call kind next r log result ec _ _ async
    cases async (.result (.failed ec)) (by simp)
  packet := by
    intro kind posted r log ec bytes holds _ async
    have going := holds async.before
    cases kind with
    | onConnect => exact ⟨async (.packet (.onConnect ec)) (by simp [code, invoke]), going.silent rfl rfl⟩
    | onRead => exact going.packet rfl

/-- A run of the callback reader that has ended has stopped where `OnRead` stops. -/
theorem callback_ended {script : Nat → Completion} {s : ReaderState (Handler Lambda) Handlers} (positive : 0 < total)
    (ends : EndsIn callbackView script (traditionalReader false) (traditionalStart total) s) :
    Ended afterRead callbackView total s.log := by
  obtain ⟨⟨choices, path⟩, follows, deleted⟩ := ends
  have fresh : (paced total).working (.point .start) ⟨total⟩ [] := fun _ => ⟨positive, rfl, rfl⟩
  have sound : Sound (code false) (freshHandlers Lambda) (paced total) (traditionalStart total) :=
    launch_sound fresh
  exact ((sound.run (paced_verified total false) path (meets_any choices)).gone deleted).2 follows.async

theorem callback_idle (script : Nat → Completion) (total : Int) :
    CanReach (traditionalReader false) (Idle callbackView (freshHandlers Lambda) script .onRead (⟨total⟩ : TcpReader) 0)
      (traditionalStart total) := by
  refine (launch_at _ _ _).start .pending rfl rfl fun t waits => waits.packet 0 0 fun t here =>
    here.goto rfl fun t here => here.start .pending rfl rfl fun t waits => .here ⟨_, waits, ?_⟩
  have connected : callbackView.Asynchronous [.packet (.onConnect 0)] := by decide
  exact (((heard_nil.later .connect).quiet connected rfl).calls []).later _

/-- A completion after which `OnRead` starts the next receive. -/
theorem callback_next {script : Nat → Completion} {remaining left : Int} {n : Nat}
    {s : ReaderState (Handler Lambda) Handlers}
    (idle : Idle callbackView (freshHandlers Lambda) script .onRead (⟨remaining⟩ : TcpReader) n s)
    (taken : afterRead remaining ((script n).error, (script n).bytes) = some left) :
    CanReach (traditionalReader false)
      (Idle callbackView (freshHandlers Lambda) script .onRead (⟨left⟩ : TcpReader) (n + 1)) s := by
  obtain ⟨success, some_bytes, more, rfl⟩ := afterRead_eq_some.mp taken
  dsimp only at success some_bytes more
  have going : ¬(remaining - (script n).bytes ≤ 0 ∨ (script n).bytes = 0) := by omega
  apply idle.packet rfl rfl
  intro log t here heard
  rw [success] at here
  exact here.goto (exec_onRead_success _ _) fun t here =>
    here.start .pending (exec_readLoop_more going) rfl fun t waits => .here ⟨_, waits, (heard.calls []).later _⟩

/-- A completion after which the callback reader is deleted, through `OnError` or through
`OnComplete`. -/
theorem callback_last {script : Nat → Completion} {remaining : Int} {n : Nat}
    {s : ReaderState (Handler Lambda) Handlers}
    (idle : Idle callbackView (freshHandlers Lambda) script .onRead (⟨remaining⟩ : TcpReader) n s)
    (stopped : afterRead remaining ((script n).error, (script n).bytes) = none) :
    CanReach (traditionalReader false) (Over callbackView script (n + 1)) s := by
  apply idle.packet rfl rfl
  intro log t here heard
  by_cases error : (script n).error ≠ 0
  · exact here.goto (exec_onRead_error error _ _) fun t here => here.goto rfl fun t here =>
      here.delete rfl fun t gone => .here (over_of_gone gone ((heard.calls []).calls [.failed _]))
  · have last := (afterRead_eq_none.mp stopped).resolve_left error
    rw [not_not.mp error] at here
    exact here.goto (exec_onRead_success _ _) fun t here => here.goto (exec_readLoop_last last) fun t here =>
      here.goto rfl fun t here => here.delete rfl fun t gone =>
        .here (over_of_gone gone (((heard.calls []).calls []).calls [.completed]))

theorem callback_ends {script : Nat → Completion} {n : Nat} (stops : Stops afterRead total script n) :
    ∃ s, EndsIn callbackView script (traditionalReader false) (traditionalStart total) s :=
  exists_ends (reach_end
    (fun left => Idle callbackView (freshHandlers Lambda) script .onRead (⟨left⟩ : TcpReader))
    (callback_idle script total) (fun _ _ _ _ => callback_next) (fun _ _ _ => callback_last) stops)

end

/-! ### The coroutine -/

section
open Awaitable

/-- How far the coroutine has got at each of its points. -/
def awaited (total : Int) : Assertion TcpReader Point Awaiter Call where
  working pending r log := awaiterView.Asynchronous log →
    match pending with
    | .point .start => Going afterResume awaiterView total r.total 0 log
    | .point (.ioComplete .connect error _) => error = 0 ∧ Going afterResume awaiterView total r.total 0 log
    | .point .connectResume => r.connect.err = 0 ∧ Going afterResume awaiterView total r.total 0 log
    | .point .loop => (0 < r.total → Going afterResume awaiterView total r.total 0 log) ∧
        (r.total ≤ 0 → Ended afterResume awaiterView total log)
    | .point (.ioComplete .read _ _) | .point .readResume => r.read.len = readerSize ∧
        ∃ completion, Due afterResume awaiterView total r.total completion log
    | .point (.received bytes) => bytes = readerSize ∧
        ∃ completion, Due afterResume awaiterView total r.total completion log
    | .point .finish => Ended afterResume awaiterView total log
    | .point .panicked => False
    | .operation call kind _ => Going afterResume awaiterView total r.total 0 log ∧
        (call = .connect ∧ kind = .connect ∨
          call = .receive readerSize ∧ kind = .read ∧ r.read.len = readerSize)
  waiting kind _ r log := awaiterView.Asynchronous log →
    match kind with
    | .connect => Going afterResume awaiterView total r.total 0 log
    | .read => r.read.len = readerSize ∧ Going afterResume awaiterView total r.total 1 log
  ended object log := object = none ∧ (awaiterView.Asynchronous log → Ended afterResume awaiterView total log)

variable {total : Int} {r r' : TcpReader} {log : List (Entry Point Call)} {point next : Point} {call : Call}
  {calls : List Call} {kind : Awaiter}

theorem awaited_goto (holds : (awaited total).working (.point point) r log)
    (move : exec point r = .goto r' calls next) :
    (awaited total).working (.point next) r' (log ++ calls.map Entry.call) := by
  intro async
  have holds := holds async.before
  obtain ⟨rfl, moved⟩ := exec_goto move
  rw [List.map_nil, List.append_nil]
  rcases moved with ⟨error, bytes, rfl, same, written, rfl⟩ | ⟨error, bytes, rfl, same, kept, rfl⟩ |
    ⟨rfl, rfl, ⟨error, rfl⟩ | ⟨success, rfl⟩⟩ | ⟨rfl, rfl, spent, rfl⟩ | ⟨rfl, rfl, rfl⟩ |
    ⟨bytes, rfl, ⟨zero, rfl, rfl⟩ | ⟨counted, rfl⟩⟩ | ⟨rfl, rfl⟩
  · exact ⟨written.trans holds.1, same ▸ holds.2⟩
  · exact ⟨kept.trans holds.1, same ▸ holds.2⟩
  · exact absurd holds.1 error
  · exact ⟨fun _ => holds.2, fun spent => absurd holds.2.more (Int.not_lt.mpr spent)⟩
  · exact holds.2 spent
  · exact ⟨holds.1, holds.2⟩
  · simp [holds.1, readerSize] at zero
  · -- the loop is left when a full buffer would use up the total
    obtain ⟨rfl, completion, due⟩ := holds
    refine ⟨fun more => due.next ?_ more, fun spent => due.stop ?_⟩
    · exact afterResume_eq_some.mpr ⟨more, counted⟩
    · rw [counted] at spent
      simp [afterResume, spent]
  · exact holds

theorem awaited_start (holds : (awaited total).working (.point point) r log)
    (move : exec point r = .start r' call kind next none) :
    (awaited total).working (.operation call kind next) r' log := by
  intro async
  have holds := holds async
  rcases (exec_start move).2 with ⟨rfl, rfl, rfl, rfl⟩ | ⟨rfl, more, same, len, rfl, rfl⟩
  · exact ⟨holds, .inl ⟨rfl, rfl⟩⟩
  · exact ⟨same ▸ holds.1 more, .inr ⟨rfl, rfl, len⟩⟩

theorem awaited_verified (total : Int) (sync : Bool) : Verified (code sync) (fun _ _ => True) (awaited total) where
  leaves := code_leaves sync
  goto := awaited_goto
  start := awaited_start
  post _ move := absurd move ((exec_rest _ _).1 _ _ _ _)
  leave _ move := absurd move ((exec_rest _ _).2.1 _)
  delete holds move := by
    obtain rfl := (exec_rest _ _).2.2 move
    exact ⟨rfl, holds⟩
  now := by
    intro call kind next r log result bytes _ _ _ async
    cases async (.result (.now bytes)) (by simp)
  later := by
    intro call kind next r log result holds _ async
    obtain ⟨going, ⟨rfl, rfl⟩ | ⟨rfl, rfl, len⟩⟩ := holds async.before
    · exact going.silent rfl rfl
    · exact ⟨len, going.silent rfl rfl⟩
  failed := by
    intro call kind next r log result error _ _ async
    cases async (.result (.failed error)) (by simp)
  packet := by
    intro kind posted r log error bytes holds _ async
    have going := holds async.before
    cases kind with
    | connect => exact ⟨async (.packet (.ioComplete .connect error bytes)) (by simp [code]), going.silent rfl rfl⟩
    | read => exact ⟨going.1, _, going.2.packet rfl⟩

/-- A run of the coroutine that has ended has counted full buffers until the total was used up. -/
theorem coroutine_ended {script : Nat → Completion} {s : ReaderState} (positive : 0 < total)
    (ends : EndsIn awaiterView script (awaitableReader false) (awaitableStart total) s) :
    Ended afterResume awaiterView total s.log := by
  obtain ⟨⟨choices, path⟩, follows, deleted⟩ := ends
  have fresh : (awaited total).working (.point .start) ⟨total, ⟨0, 0⟩, ⟨⟨0, 0⟩, 0⟩⟩ [] :=
    fun _ => ⟨positive, rfl, rfl⟩
  have sound : Sound (code false) awaiters (awaited total) (awaitableStart total) := launch_sound fresh
  exact ((sound.run (awaited_verified total false) path (meets_any choices)).gone deleted).2 follows.async

/-- The coroutine waits for a receive, with so much to come by its own count. -/
def Reading (script : Nat → Completion) (left : Int) (n : Nat) (s : ReaderState) : Prop :=
  ∃ r : TcpReader, r.total = left ∧ r.read.len = readerSize ∧ Idle awaiterView awaiters script .read r n s

/-- From the head of the loop to the next receive. -/
theorem loop_reading {script : Nat → Completion} {n : Nat} {s : ReaderState} (here : At s .loop r log)
    (more : 0 < r.total) (heard : awaiterView.Heard script n log) :
    CanReach (awaitableReader false) (Reading script r.total n) s := by
  let reading : TcpReader := { r with read := { r.read with len := readerSize } }
  have read : (code false).exec .loop r = .start reading (.receive readerSize) .read .readResume none := by
    simp [code, exec, TcpReader.loop, more, reading]
  exact here.start .pending read rfl fun t waits => .here ⟨reading, rfl, rfl, _, waits, heard.later _⟩

/-- What every completion of a receive comes to: a full buffer is counted. -/
theorem reading_loop {script : Nat → Completion} {left : Int} {n : Nat} {s : ReaderState} {goal : ReaderState → Prop}
    (reading : Reading script left n s)
    (rest : ∀ r log t, At t .loop r log → r.total = left - readerSize → awaiterView.Heard script (n + 1) log →
      CanReach (awaitableReader false) goal t) :
    CanReach (awaitableReader false) goal s := by
  obtain ⟨r, rfl, len, idle⟩ := reading
  have counted : ∀ r : TcpReader, r.read.len = readerSize → (code false).exec (.received r.read.len) r =
      .goto { r with total := r.total - readerSize } [] .loop := by
    intro r len
    rw [len]
    simp [code, exec, TcpReader.received, readerSize]
  apply idle.packet (C := code false) rfl rfl
  intro log t here heard
  exact here.goto rfl fun t here => here.goto rfl fun t here => here.goto (counted _ len) fun t here =>
    rest _ _ t here rfl (((heard.calls []).calls []).calls [])

theorem coroutine_ends {script : Nat → Completion} {n : Nat} (positive : 0 < total)
    (stops : Stops afterResume total script n) :
    ∃ s, EndsIn awaiterView script (awaitableReader false) (awaitableStart total) s := by
  apply exists_ends (n := n)
  refine reach_end (Reading script) ?_ ?_ ?_ stops
  · refine (launch_at _ _ _).start .pending rfl rfl fun t waits => waits.packet 0 0 fun t here =>
      here.goto rfl fun t here => here.goto rfl fun t here => loop_reading here positive ?_
    have connected : awaiterView.Asynchronous [.packet (.ioComplete .connect 0 0)] := by decide
    exact (((heard_nil.later .connect).quiet connected rfl).calls []).calls []
  · intro remaining n left s reading taken
    obtain ⟨more, rfl⟩ := afterResume_eq_some.mp taken
    apply reading_loop reading
    intro r log t here total heard
    rw [← total] at more ⊢
    exact loop_reading here more heard
  · intro remaining n s reading stopped
    apply reading_loop reading
    intro r log t here total heard
    have spent : ¬r.total > 0 := by
      intro more
      rw [afterResume_eq_some.mpr ⟨total ▸ more, rfl⟩] at stopped
      cases stopped
    have last : (code false).exec .loop r = .goto r [] .finish := by
      simp [code, exec, TcpReader.loop, spent]
    exact here.goto last fun t here => here.delete rfl fun t gone => .here (over_of_gone gone (heard.calls []))

end

/-! ### When the readers agree -/

section
open Reader Awaitable
variable {total : Int} {script : Nat → Completion} {n : Nat}

/-- Agreement on a script: as many `Receive` calls, and the same last completion. -/
def Agree (total : Int) (script : Nat → Completion) : Prop :=
  ∀ s t, EndsIn callbackView script (traditionalReader false) (traditionalStart total) s →
    EndsIn awaiterView script (awaitableReader false) (awaitableStart total) t →
    receives s.log = receives t.log ∧
      (callbackView.completions s.log).length = (awaiterView.completions t.log).length

/-- The completion, counted from 0, that makes up for the whole total if all buffers are full. -/
def lastBuffer (total : Int) : Nat := ((total - 1) / readerSize).toNat

/-- The callback reader has no reason to stop before that completion, and one to stop at it:
an error, no bytes, or enough of them. -/
def StopsAtLast (total : Int) (script : Nat → Completion) : Prop :=
  (∀ i < lastBuffer total, Useful (script i)) ∧
    (¬Useful (script (lastBuffer total)) ∨ total ≤ received script (lastBuffer total + 1))

instance (total : Int) (script : Nat → Completion) : Decidable (StopsAtLast total script) :=
  inferInstanceAs (Decidable (_ ∧ (_ ∨ _)))

theorem lastBuffer_lt (positive : 0 < total) :
    (lastBuffer total * readerSize : Int) < total ∧ total ≤ (lastBuffer total + 1) * readerSize := by
  simp only [lastBuffer, readerSize]
  omega

theorem stops_afterResume (positive : 0 < total) (script : Nat → Completion) :
    Stops afterResume total script (lastBuffer total + 1) := by
  obtain ⟨before, last⟩ := lastBuffer_lt positive
  constructor
  · by_contra more
    obtain ⟨left, path⟩ := Option.ne_none_iff_exists'.mp more
    obtain ⟨some_left, rfl⟩ := (run_afterResume positive).mp path
    push_cast at some_left
    omega
  · intro k earlier stopped
    have going : run afterResume total (reports script k) = some (total - k * readerSize) := by
      refine (run_afterResume positive).mpr ⟨?_, rfl⟩
      simp only [readerSize] at before ⊢
      omega
    cases stopped.symm.trans going

theorem afterRead_going (positive : 0 < total) : run afterRead total (reports script n) ≠ none ↔
    (∀ i < n, Useful (script i)) ∧ (received script n : Int) < total := by
  rw [Option.ne_none_iff_exists']
  constructor
  · rintro ⟨left, path⟩
    obtain ⟨useful, more, rfl⟩ := (run_afterRead positive).mp path
    exact ⟨useful, by omega⟩
  · rintro ⟨useful, more⟩
    exact ⟨_, (run_afterRead positive).mpr ⟨useful, by omega, rfl⟩⟩

/-- As long as full buffers would not make up the total, only an error or an empty receive
stops the callback reader. -/
theorem stops_afterRead_iff (positive : 0 < total) (short : (n * readerSize : Int) < total) :
    Stops afterRead total script (n + 1) ↔
      (∀ i < n, Useful (script i)) ∧ (¬Useful (script n) ∨ total ≤ received script (n + 1)) := by
  constructor
  · rintro ⟨stopped, going⟩
    obtain ⟨useful, -⟩ := (afterRead_going positive).mp (going n (Nat.lt_succ_self n))
    refine ⟨useful, ?_⟩
    by_contra! more
    refine (afterRead_going positive).mpr ⟨?_, more.2⟩ stopped
    exact Nat.forall_lt_succ_right.mpr ⟨useful, more.1⟩
  · rintro ⟨useful, last⟩
    constructor
    · by_contra going
      obtain ⟨useful', more⟩ := (afterRead_going positive).mp going
      exact last.elim (fun useless => useless (useful' n (Nat.lt_succ_self n))) (fun enough => by omega)
    · intro k earlier
      refine (afterRead_going positive).mpr ⟨fun i before => useful i (by omega), ?_⟩
      have few : received script k ≤ k * readerSize := received_le
      simp only [readerSize] at few short
      omega

theorem exists_stops_afterRead (positive : 0 < total) (script : Nat → Completion) :
    ∃ n, Stops afterRead total script n := by
  apply exists_stops (n := total.toNat)
  by_contra more
  obtain ⟨left, path⟩ := Option.ne_none_iff_exists'.mp more
  obtain ⟨useful, some_left, rfl⟩ := (run_afterRead positive).mp path
  have enough := le_received useful
  omega

/-- Both readers end on every script. They agree on it exactly if the callback reader stops
at the completion with which full buffers would make up the total: the coroutine stops
there whatever the completions report. -/
theorem readers_agree_iff (total : Int) (script : Nat → Completion) (positive : 0 < total) :
    (∃ s, EndsIn callbackView script (traditionalReader false) (traditionalStart total) s) ∧
      (∃ t, EndsIn awaiterView script (awaitableReader false) (awaitableStart total) t) ∧
      (Agree total script ↔ StopsAtLast total script) := by
  have full := stops_afterResume positive script
  obtain ⟨n, stops⟩ := exists_stops_afterRead positive script
  obtain ⟨s, ends⟩ := callback_ends stops
  obtain ⟨t, ends'⟩ := coroutine_ends positive full
  refine ⟨⟨s, ends⟩, ⟨t, ends'⟩, ?_⟩
  rw [StopsAtLast, ← stops_afterRead_iff positive (lastBuffer_lt positive).1]
  constructor
  · intro agree
    have same := (agree s t ends ends').2
    have stopped := (callback_ended positive ends).stops ends.follows
    rwa [same, ((coroutine_ended positive ends').stops ends'.follows).unique full] at stopped
  · intro stops s t ends ends'
    have callback := callback_ended positive ends
    have coroutine := coroutine_ended positive ends'
    have same := (callback.stops ends.follows).unique stops
    have same' := (coroutine.stops ends'.follows).unique full
    exact ⟨by rw [callback.issued, coroutine.issued, same, same'], same.trans same'.symm⟩

end

/-- A total of one buffer, the first completion short and the second with the rest. -/
def shortRead (i : Nat) : Completion :=
  if i = 0 then { error := 0, bytes := 100, fits := by decide } else { error := 0, bytes := 3996, fits := by decide }

/-- The callback reader on this script, up to its deletion in `OnComplete`. -/
def callbackChoices : List (Choice WsaResult) :=
  [.thread 0, .respond 0 .pending, .packet 0 0 0, .thread 1, .thread 1, .thread 1, .respond 1 .pending,
    .packet 0 0 100, .thread 2, .thread 2, .thread 2, .respond 2 .pending,
    .packet 0 0 3996, .thread 3, .thread 3, .thread 3, .thread 3, .thread 3]

/-- The coroutine on it, up to the end of its body. -/
def coroutineChoices : List (Choice WsaResult) :=
  [.thread 0, .respond 0 .pending, .packet 0 0 0, .thread 1, .thread 1, .thread 1, .thread 1, .respond 1 .pending,
    .packet 0 0 100, .thread 2, .thread 2, .thread 2, .thread 2, .thread 2, .thread 2]

theorem readers_agree_counterexample :
    ¬∀ (total : Int) (script : Nat → Completion), 0 < total → Agree total script := by
  intro all
  have callback : ∃ s, EndsIn callbackView shortRead (Reader.traditionalReader false)
      (Reader.traditionalStart 4096) s ∧ receives s.log = 2 :=
    ⟨_, ⟨⟨callbackChoices, rfl⟩, ⟨by decide, by decide⟩, rfl⟩, rfl⟩
  have coroutine : ∃ t, EndsIn awaiterView shortRead (Awaitable.awaitableReader false)
      (Awaitable.awaitableStart 4096) t ∧ receives t.log = 1 :=
    ⟨_, ⟨⟨coroutineChoices, rfl⟩, ⟨by decide, by decide⟩, rfl⟩, rfl⟩
  obtain ⟨s, ends, two⟩ := callback
  obtain ⟨t, ends', one⟩ := coroutine
  have same := (all 4096 shortRead (by decide) s t ends ends').1
  omega

/-- A script of full buffers. -/
def fullBuffers (_ : Nat) : Completion := { error := 0, bytes := readerSize, fits := le_refl _ }

theorem readers_agree_iff_fullBuffers : Agree 8192 fullBuffers :=
  (readers_agree_iff 8192 fullBuffers (by decide)).2.2.mpr (by decide)

end Await.SuperLean.Agreement
