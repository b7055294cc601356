import Await.General.Future
import Await.Live.Echo

/-! `session` of `easy.cpp` with `use_boost_future.h` and `boost_coro.h`. The result of an
operation goes through a promise and a future, which any thread of the io context may fill
while the coroutine is on its way to wait for it. -/

namespace Await.Live.Easy
open General General.Coroutine General.Future General.Process General.Transition
open CoroServer (Point SystemError sessionHard2)
open Echo MyServer

variable {blockSize : Nat}

/-- `completion_handler_type::operator()`: what the promise is given. -/
def completionHandler (ec : ErrorCode) (n : Nat) : Except SystemError Nat :=
  if ec ≠ 0 then .error ⟨ec⟩ else .ok n

/-- The frame of `session`: the locals `buf_` and `n`, and the future `output` of the awaiter
at which the coroutine is suspended. -/
structure Frame (blockSize : Nat) where
  buf : Vector UInt8 blockSize := Vector.replicate blockSize 0
  n : Nat := 0
  point : Point := .reading
  output : Option (Except SystemError Nat) := none

abbrev SessionLeg (blockSize : Nat) := Leg (Frame blockSize) Operation SystemError Empty

/-- `co_await s.async_read_some(buffer(buf_.data(), block_size), use_boost_future)`. -/
def Frame.asyncReadSome (frame : Frame blockSize) : SessionLeg blockSize :=
  .await { frame with point := .reading, output := none } [] (.asyncReadSome blockSize)

/-- `co_await async_write(s, buffer(buf_.data(), n), use_boost_future)`. -/
def Frame.asyncWrite (frame : Frame blockSize) : SessionLeg blockSize :=
  .await { frame with point := .writing, output := none } [] (.asyncWrite (frame.buf.toList.take frame.n))

/-- From `output.get()`, which throws what the promise was given, to the next `co_await`. A
future that is not valid cannot be asked. -/
def Frame.resume (frame : Frame blockSize) : Option (SessionLeg blockSize) := do
  match ← frame.output with
  | .error exception => some (.thrown [] exception)
  | .ok n =>
    let frame := { frame with n }
    match frame.point with
    | .reading => some frame.asyncWrite
    | .writing => some frame.asyncReadSome

/-- The future of the operation is ready, and moved to `output`. A successful write reports
the length of its buffer. -/
def Frame.complete (frame : Frame blockSize) : Operation → Result blockSize → Option (SessionLeg blockSize)
  | _, .readDone ec contents length =>
      { frame with buf := contents, output := some (completionHandler ec length) }.resume
  | .asyncWrite bytes, .writeDone ec => { frame with output := some (completionHandler ec bytes.length) }.resume
  | .asyncReadSome _, .writeDone ec => { frame with output := some (completionHandler ec 0) }.resume

/-- `std::vector<char> buf_(block_size); s.set_option(no_delay);`, and the loop. -/
def beginEasy (setOptionErr : ErrorCode) : SessionLeg blockSize :=
  let frame : Frame blockSize := { buf := Vector.replicate blockSize 0 }
  if setOptionErr ≠ 0 then .thrown [] ⟨setOptionErr⟩ else frame.asyncReadSome

def sessionEasy (blockSize : Nat) (setOptionErr : ErrorCode) :
    Body (Frame blockSize) Operation (Result blockSize) SystemError Empty where
  begin := beginEasy setOptionErr
  resume frame operation result := if result.fits operation then frame.complete operation result else none

/-- The suspended session waits at the `co_await` of this operation. -/
def Awaits : Operation → Frame blockSize → Prop
  | .asyncReadSome _, frame => frame.point = .reading
  | .asyncWrite _, frame => frame.point = .writing

/-- A session throws at an error and goes on with the next operation otherwise. -/
theorem complete_eq (frame : Frame blockSize) (operation : Operation) (result : Result blockSize)
    (awaits : Awaits operation frame) (fits : result.fits operation = true) :
    (result.ec ≠ 0 ∧ frame.complete operation result = some (.thrown [] ⟨result.ec⟩)) ∨
      (result.ec = 0 ∧ ∃ frame', Awaits (next result) frame' ∧
        frame.complete operation result = some (.await frame' [] (next result))) := by
  cases operation with
  | asyncReadSome limit =>
    cases result with
    | writeDone ec => simp [Result.fits] at fits
    | readDone ec contents length =>
      by_cases success : ec = 0
      · refine .inr ⟨success, ?_⟩
        simp only [Awaits] at awaits
        simp [Frame.complete, Frame.resume, completionHandler, success, awaits, Frame.asyncWrite, next, Awaits]
      · exact .inl ⟨success, by simp [Frame.complete, Frame.resume, completionHandler, success, Result.ec]⟩
  | asyncWrite bytes =>
    cases result with
    | readDone ec contents length => simp [Result.fits] at fits
    | writeDone ec =>
      by_cases success : ec = 0
      · refine .inr ⟨success, ?_⟩
        simp only [Awaits] at awaits
        simp [Frame.complete, Frame.resume, completionHandler, success, awaits, Frame.asyncReadSome, next, Awaits]
      · exact .inl ⟨success, by simp [Frame.complete, Frame.resume, completionHandler, success, Result.ec]⟩

/-- The callback session and the coroutine react alike. -/
theorem session_follows (blockSize : Nat) (setOptionErr : ErrorCode) :
    Follows (session blockSize setOptionErr) (sessionEasy blockSize setOptionErr).actor
      fun operation _ frame => Awaits operation frame where
  begin := by
    by_cases success : setOptionErr = 0
    · subst success
      exact .goOn rfl
    · simp only [session, Session.start, if_neg success, sessionEasy, Body.actor, beginEasy, if_pos success]
      exact .closing
  react := by
    intro s frame operation result awaits
    by_cases fits : result.fits operation = true
    · rcases complete_eq frame operation result awaits fits with ⟨error, thrown⟩ | ⟨fine, frame', atNext, goesOn⟩
      · obtain ⟨s', posts⟩ := complete_error s result error
        refine .inr ⟨s.complete result, _, by simp [session, fits],
          by simp [Body.actor, sessionEasy, fits, thrown]; rfl, ?_⟩
        rw [posts]
        exact .closing
      · obtain ⟨s', starts⟩ := complete_success s result fine
        refine .inr ⟨s.complete result, _, by simp [session, fits],
          by simp [Body.actor, sessionEasy, fits, goesOn]; rfl, ?_⟩
        rw [starts]
        exact .goOn atNext
    · exact .inl ⟨by simp [session, fits], by simp [Body.actor, sessionEasy, fits]⟩
  posted _ _ := rfl
  unposted _ _ := rfl
  closes _ := ⟨[], rfl⟩

/-! ### Every interleaving -/

/-- A session that is given results directly has done the echoing, and all that the session of
`myserver.cpp` has done by then. -/
def EchoesAlike (setOptionErr : ErrorCode) (used : List (Result blockSize))
    (process : Process.State (Frame blockSize) Operation (Effect SystemError Empty)) : Prop :=
  let callback := settle (session blockSize setOptionErr) (drive (session blockSize setOptionErr) (used.map some)).1
  Echoes setOptionErr used used process ∧ process.inFlight = callback.visible.inFlight ∧
    process.operations = callback.visible.operations ∧ process.destructions = callback.destructions

variable {setOptionErr : ErrorCode} {used : List (Result blockSize)}

/-- Everything is taken by the session of `hard2.cpp` that is taken by this one. -/
theorem hard2_takes (taken : (drive (sessionEasy blockSize setOptionErr).actor used).2 = []) :
    (drive (sessionHard2 blockSize setOptionErr).actor used).2 = [] := by
  have easy := (session_follows blockSize setOptionErr).feed (session_follows blockSize setOptionErr).start used
  have hard :=
    (Echo.session_follows blockSize setOptionErr).feed (Echo.session_follows blockSize setOptionErr).start used
  have left : (drive (sessionHard2 blockSize setOptionErr).actor used).2.map some =
      (drive (sessionEasy blockSize setOptionErr).actor used).2.map some := hard.1.symm.trans easy.1
  rw [taken, List.map_nil] at left
  exact List.map_eq_nil_iff.mp left

/-- A coroutine that has taken every result has echoed them all. -/
theorem Conversing.echoes {s : SessionState blockSize} (conversing : Conversing setOptionErr used s) :
    Echoes setOptionErr used used s := by
  have taken : ∃ rest, used = used ++ rest ∧ ∀ result later, rest = result :: later →
      Failed setOptionErr used ∨ ∃ operation, s.inFlight = [operation] ∧ result.fits operation = false :=
    ⟨[], (List.append_nil used).symm, fun _ _ none_left => by cases none_left⟩
  cases conversing with
  | suspended frame operation present single alive at_op success echo =>
    refine ⟨taken, ?_, echo, fun failed => absurd failed success, fun _ => ⟨by simp [present], by simp [single], alive⟩⟩
    rintro before result after rfl (early | ⟨other, member, error⟩)
    · exact success (.inl early)
    · exact success (.inr ⟨other, List.mem_append_left _ member, error⟩)
  | gone absent idle once error first echo =>
    exact ⟨taken, first, echo, fun _ => ⟨absent, idle, once⟩, fun success => absurd error success⟩

theorem conversing_run {choices : List (Nat × Result blockSize)} {s : SessionState blockSize}
    (path : run (Process.step (sessionHard2 blockSize setOptionErr).actor)
      (Process.start (sessionHard2 blockSize setOptionErr).actor) choices = some s) :
    Conversing setOptionErr (choices.map Prod.snd) s := by
  have kept : ∀ past s choice t, Conversing setOptionErr (past.map Prod.snd) s →
      Process.step (sessionHard2 blockSize setOptionErr).actor s choice = some t →
      Conversing setOptionErr ((past ++ [choice]).map Prod.snd) t := by
    intro past s choice t conversing stepped
    rw [List.map_append, List.map_singleton]
    exact conversing.step stepped
  have conversing := run_invariant_past (fun past s => Conversing setOptionErr (past.map Prod.snd) s) kept path
    (start_conversing blockSize setOptionErr)
  exact conversing

theorem hard2_echoes_all (taken : (drive (sessionHard2 blockSize setOptionErr).actor used).2 = []) :
    Echoes setOptionErr used used (drive (sessionHard2 blockSize setOptionErr).actor used).1 := by
  obtain ⟨given, split, path⟩ := feed_run (sessionHard2 blockSize setOptionErr).actor
    (Process.start (sessionHard2 blockSize setOptionErr).actor) used
  have whole : used = given := by
    change used = given ++ (drive (sessionHard2 blockSize setOptionErr).actor used).2 at split
    rw [split, taken, List.append_nil]
  have conversing := conversing_run path
  have past : (given.map fun result => (0, result)).map Prod.snd = given := by simp [Function.comp_def]
  rw [past, ← whole] at conversing
  exact Conversing.echoes conversing

/-- The session does what the other two do. -/
theorem drive_alike (taken : (drive (sessionEasy blockSize setOptionErr).actor used).2 = []) :
    EchoesAlike setOptionErr used (drive (sessionEasy blockSize setOptionErr).actor used).1 := by
  obtain ⟨flight, operations, destructions, present⟩ := (session_follows blockSize setOptionErr).settle
    ((session_follows blockSize setOptionErr).drive used)
  obtain ⟨flight', operations', destructions', present'⟩ := (Echo.session_follows blockSize setOptionErr).settle
    ((Echo.session_follows blockSize setOptionErr).drive used)
  refine ⟨?_, flight.symm, operations.symm, destructions.symm⟩
  exact (hard2_echoes_all (hard2_takes taken)).transfer (flight.symm.trans flight') (operations.symm.trans operations')
    (destructions.symm.trans destructions') (present.symm.trans present')

theorem futures_alike {choices : List (Choice (Result blockSize))}
    {s : Future.State (Frame blockSize) Operation (Result blockSize) (Effect SystemError Empty)}
    (path : run (Future.step (sessionEasy blockSize setOptionErr).actor)
      (Future.start (sessionEasy blockSize setOptionErr).actor) choices = some s) :
    ∃ used, completed choices = used ++ s.cell.kept ∧ EchoesAlike setOptionErr used s.process := by
  obtain ⟨used, split, direct⟩ := (run_handed path).given
  have driven := (Body.sequential (sessionEasy blockSize setOptionErr)).driven _ _ direct
  have same : (used.map fun result => (0, result)).map Prod.snd = used := by simp [Function.comp_def]
  rw [same] at driven
  have alike : EchoesAlike setOptionErr used (drive (sessionEasy blockSize setOptionErr).actor used).1 :=
    drive_alike (by rw [driven])
  rw [driven] at alike
  exact ⟨used, split, alike⟩

/-- The session of `easy.cpp`, whichever thread completes an operation and however far its own
thread has come by then. It takes the results one by one, in order and each once; with the
ones it has taken it has echoed and is where the session of `myserver.cpp` is. A result that
is kept is found; the thread of the session goes on until the continuation is attached, and
takes two steps at most for an operation. -/
theorem futures_echo (blockSize : Nat) (setOptionErr : ErrorCode) (choices : List (Choice (Result blockSize)))
    (s : Future.State (Frame blockSize) Operation (Result blockSize) (Effect SystemError Empty))
    (path : run (Future.step (sessionEasy blockSize setOptionErr).actor)
      (Future.start (sessionEasy blockSize setOptionErr).actor) choices = some s) :
    let easy := (sessionEasy blockSize setOptionErr).actor
    (∃ used, completed choices = used ++ s.cell.kept ∧ EchoesAlike setOptionErr used s.process) ∧
      (∀ result, s.cell = .ready result →
        ∃ t, Future.step easy s .proceed = some t ∧ Process.step easy s.process (0, result) = some t.process) ∧
      (s.process.inFlight ≠ [] → (∃ t, Future.step easy s .proceed = some t) ∨
        ∀ result next, Process.step easy s.process (0, result) = some next →
          ∃ t, Future.step easy s (.complete result) = some t ∧ t.process = next) ∧
      proceeds choices ≤ 2 * ((completed choices).length + 1) := by
  intro easy
  have handed := run_handed path
  exact ⟨futures_alike path, fun result kept => handed.finds kept, fun waiting => handed.onward waiting,
    proceeds_le path⟩

/-- A read completes before the session looks, and the write while it is on its way. -/
theorem futures_echo_two :
    let choices : List (Choice (Result 1)) :=
      [.complete (.readDone 0 #v[7] 1), .proceed, .proceed, .complete (.writeDone 0), .proceed, .proceed, .proceed]
    ∃ s, run (Future.step (sessionEasy 1 0).actor) (Future.start (sessionEasy 1 0).actor) choices = some s ∧
      s.stage = .away ∧ written s.process.operations = [[7]] ∧ proceeds choices ≤ 6 :=
  ⟨_, rfl, rfl, rfl, (futures_echo 1 0 _ _ rfl).2.2.2⟩

end Await.Live.Easy
