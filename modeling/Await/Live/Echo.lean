import Await.Live.CoroServer

/-! The coroutine servers beside the callback server. The sessions do the same on every
script of results; the accept loops do so until the first accept error. -/

namespace Await.Live.Echo
open General.Coroutine General.Process General.Transition CoroServer MyServer

variable {blockSize : Nat} {setOptionErr : ErrorCode} {script used : List (Result blockSize)}

/-- The bytes handed to `async_write`, one chunk for each write. -/
def written (operations : List Operation) : List (List UInt8) :=
  operations.filterMap fun
    | .asyncReadSome _ => none
    | .asyncWrite bytes => some bytes

/-- The bytes that a result brings. -/
def Result.chunk : Result blockSize → Option (List UInt8)
  | .readDone ec contents length => if ec = 0 then some (contents.toList.take length) else none
  | .writeDone _ => none

def received (results : List (Result blockSize)) : List (List UInt8) := results.filterMap Result.chunk

/-- An error has come, from `set_option` or from an operation. -/
def Failed (setOptionErr : ErrorCode) (used : List (Result blockSize)) : Prop :=
  setOptionErr ≠ 0 ∨ ∃ result ∈ used, result.ec ≠ 0

/-- A session that has taken the results `used` of a script: it takes no more after the
first error, and until then every one that is of the operation it waits for; it has
written the bytes it has read; and it is gone, once and with nothing in flight, as soon as
there was an error. -/
structure Echoes {σ ε : Type} (setOptionErr : ErrorCode) (script used : List (Result blockSize))
    (s : State σ Operation ε) : Prop where
  taken : ∃ rest, script = used ++ rest ∧ ∀ result later, rest = result :: later →
    Failed setOptionErr used ∨ ∃ operation, s.inFlight = [operation] ∧ result.fits operation = false
  firstError : ∀ before result after, used = before ++ result :: after → ¬Failed setOptionErr before
  written : written s.operations = received used
  failed : Failed setOptionErr used → s.object = none ∧ s.inFlight = [] ∧ s.destructions = 1
  working : ¬Failed setOptionErr used → s.object.isSome ∧ s.inFlight.length = 1 ∧ s.destructions = 0

@[simp] theorem written_append (operations more : List Operation) :
    written (operations ++ more) = written operations ++ written more := List.filterMap_append ..

theorem failed_append (before : List (Result blockSize)) (result : Result blockSize) :
    Failed setOptionErr (before ++ [result]) ↔ Failed setOptionErr before ∨ result.ec ≠ 0 := by
  simp only [Failed, List.mem_append, List.mem_singleton]
  constructor
  · rintro (early | ⟨other, before | rfl, error⟩)
    · exact .inl (.inl early)
    · exact .inl (.inr ⟨other, before, error⟩)
    · exact .inr error
  · rintro ((early | ⟨other, before, error⟩) | error)
    · exact .inl early
    · exact .inr ⟨other, .inl before, error⟩
    · exact .inr ⟨result, .inr rfl, error⟩

/-! ### One coroutine session -/

/-- The suspended session waits at the `co_await` of this operation. -/
def Suspended : Operation → SessionFrame blockSize → Prop
  | .asyncReadSome _, frame => frame.point = .reading
  | .asyncWrite _, frame => frame.point = .writing

/-- The operation that follows a successful one. -/
def next : Result blockSize → Operation
  | .readDone _ contents length => .asyncWrite (contents.toList.take length)
  | .writeDone _ => .asyncReadSome blockSize

/-- A session throws at an error and goes on with the next operation otherwise. -/
theorem complete_eq (frame : SessionFrame blockSize) (operation : Operation) (result : Result blockSize)
    (suspended : Suspended operation frame) (fits : result.fits operation = true) :
    (result.ec ≠ 0 ∧ frame.complete Awaiter.completeHard2 operation result = .thrown [] ⟨result.ec⟩) ∨
      (result.ec = 0 ∧ ∃ frame', Suspended (next result) frame' ∧
        frame.complete Awaiter.completeHard2 operation result = .await frame' [] (next result)) := by
  cases operation with
  | asyncReadSome limit =>
    cases result with
    | writeDone ec => simp [Result.fits] at fits
    | readDone ec contents length =>
      by_cases success : ec = 0
      · refine .inr ⟨success, ?_⟩
        simp only [Suspended] at suspended
        simp [SessionFrame.complete, SessionFrame.resume, Awaiter.completeHard2, Awaiter.awaitResume, success,
          suspended, SessionFrame.asyncWrite, next, Suspended]
      · exact .inl ⟨success, by simp [SessionFrame.complete, SessionFrame.resume, Awaiter.completeHard2,
          Awaiter.awaitResume, success, Result.ec]⟩
  | asyncWrite bytes =>
    cases result with
    | readDone ec contents length => simp [Result.fits] at fits
    | writeDone ec =>
      by_cases success : ec = 0
      · refine .inr ⟨success, ?_⟩
        simp only [Suspended] at suspended
        simp [SessionFrame.complete, SessionFrame.resume, Awaiter.completeHard2, Awaiter.awaitResume, success,
          suspended, SessionFrame.asyncReadSome, next, Suspended]
      · exact .inl ⟨success, by simp [SessionFrame.complete, SessionFrame.resume, Awaiter.completeHard2,
          Awaiter.awaitResume, success, Result.ec]⟩

abbrev SessionState (blockSize : Nat) :=
  State (SessionFrame blockSize) Operation (General.Coroutine.Effect SystemError Empty)

/-- The coroutine after the results `past`: suspended, or gone with its one error. -/
inductive Conversing (setOptionErr : ErrorCode) (past : List (Result blockSize)) (s : SessionState blockSize) :
    Prop where
  | suspended (frame : SessionFrame blockSize) (operation : Operation) (present : s.object = some frame)
      (single : s.inFlight = [operation]) (alive : s.destructions = 0) (at_op : Suspended operation frame)
      (success : ¬Failed setOptionErr past) (echo : written s.operations = received past)
  | gone (absent : s.object = none) (idle : s.inFlight = []) (once : s.destructions = 1)
      (error : Failed setOptionErr past)
      (first : ∀ before result after, past = before ++ result :: after → ¬Failed setOptionErr before)
      (echo : written s.operations = received past)

theorem start_conversing (blockSize : Nat) (setOptionErr : ErrorCode) :
    Conversing setOptionErr [] (start (sessionHard2 blockSize setOptionErr).actor) := by
  by_cases success : setOptionErr = 0
  · subst success
    exact .suspended _ _ rfl rfl rfl rfl (by simp [Failed]) rfl
  · have thrown : (sessionHard2 blockSize setOptionErr).actor.begin =
        .destroyed [.settled (.error ⟨setOptionErr⟩)] := by
      simp [sessionHard2, sessionBody, Body.actor, beginHard2, success, Leg.reaction]
    rw [start, thrown]
    exact .gone rfl rfl rfl (.inl success) (by simp) rfl

/-- What is written next is what has just been read. -/
theorem written_next (result : Result blockSize) (success : result.ec = 0) :
    written [next result] = received [result] := by
  cases result with
  | readDone ec contents length =>
    simp only [Result.ec] at success
    simp [written, next, received, Result.chunk, success]
  | writeDone ec => rfl

theorem received_error (result : Result blockSize) (error : result.ec ≠ 0) : received [result] = [] := by
  cases result with
  | readDone ec contents length =>
    simp only [Result.ec] at error
    simp [received, Result.chunk, error]
  | writeDone ec => rfl

theorem received_append (results more : List (Result blockSize)) :
    received (results ++ more) = received results ++ received more := List.filterMap_append ..

theorem Conversing.step {past : List (Result blockSize)} {s t : SessionState blockSize}
    {choice : Nat × Result blockSize} (conversing : Conversing setOptionErr past s)
    (stepped : step (sessionHard2 blockSize setOptionErr).actor s choice = some t) :
    Conversing setOptionErr (past ++ [choice.2]) t := by
  cases conversing with
  | gone absent idle => simp [General.Process.step, idle] at stepped
  | suspended frame operation present single alive at_op success echo =>
    obtain ⟨-, reaction, reacted, rfl⟩ := step_single present single stepped
    obtain ⟨leg, resumed, rfl⟩ := Option.map_eq_some_iff.mp reacted
    obtain ⟨fits, rfl⟩ : choice.2.fits operation = true ∧
        frame.complete Awaiter.completeHard2 operation choice.2 = leg := by
      simpa [sessionHard2, sessionBody] using resumed
    rcases complete_eq frame operation choice.2 at_op fits with ⟨error, thrown⟩ | ⟨fine, frame', at_next, goes_on⟩
    · rw [thrown]
      refine .gone rfl rfl (by simp [Leg.reaction, State.after, alive]) ((failed_append ..).mpr (.inr error)) ?_ ?_
      · intro before result after split
        have inside : before <+: past := by
          have prefixed : before <+: past ++ [choice.2] := ⟨result :: after, split.symm⟩
          rcases List.prefix_concat_iff.mp prefixed with whole | short
          · simp [whole] at split
          · exact short
        rintro (early | ⟨other, member, error⟩)
        · exact success (.inl early)
        · exact success (.inr ⟨other, inside.subset member, error⟩)
      · simp [Leg.reaction, State.after, received_append, received_error _ error, echo]
    · rw [goes_on]
      refine .suspended frame' (next choice.2) rfl rfl alive at_next ?_ ?_
      · simpa [failed_append, fine] using success
      · simp [Leg.reaction, State.after, received_append, echo, written_next _ fine]

theorem hard2_echoes (blockSize : Nat) (setOptionErr : ErrorCode) (script : List (Result blockSize)) :
    ∃ used, Echoes setOptionErr script used (drive (sessionHard2 blockSize setOptionErr).actor script).1 := by
  obtain ⟨used, split, path⟩ := feed_run (sessionHard2 blockSize setOptionErr).actor
    (start (sessionHard2 blockSize setOptionErr).actor) script
  have conversing := run_invariant_past (fun past s => Conversing setOptionErr (past.map Prod.snd) s)
    (fun past s choice t inv stepped => by simpa using inv.step stepped) path (start_conversing blockSize setOptionErr)
  have past : (used.map fun result => (0, result)).map Prod.snd = used := by simp [Function.comp_def]
  rw [past] at conversing
  refine ⟨used, ?_⟩
  rw [drive]
  cases conversing with
  | suspended frame operation present single alive at_op success echo =>
    refine ⟨⟨_, split, fun result later rest => .inr ⟨operation, single, ?_⟩⟩, ?_, echo, fun failed => absurd failed success,
      fun _ => ⟨by simp [present], by simp [single], alive⟩⟩
    · have misfit := react_of_stuck present single (feed_rest rest)
      simpa [Body.actor, sessionHard2, sessionBody] using misfit
    · rintro before result after rfl (early | ⟨other, member, error⟩)
      · exact success (.inl early)
      · exact success (.inr ⟨other, List.mem_append_left _ member, error⟩)
  | gone absent idle once error first echo =>
    exact ⟨⟨_, split, fun _ _ _ => .inl error⟩, first, echo, fun _ => ⟨absent, idle, once⟩,
      fun success => absurd error success⟩

/-! ### The callback session -/

theorem complete_error (s : Session blockSize) (result : Result blockSize) (error : result.ec ≠ 0) :
    ∃ s', s.complete result = .goOn s' [] [none] := by
  cases result with
  | readDone ec contents length =>
    have error : ec ≠ 0 := error
    simp [Session.complete, Session.handleRead, error, Session.post]
  | writeDone ec =>
    have error : ec ≠ 0 := error
    simp [Session.complete, Session.handleWrite, error, Session.post]

theorem complete_success (s : Session blockSize) (result : Result blockSize) (success : result.ec = 0) :
    ∃ s', s.complete result = .goOn s' [] [some (next result)] := by
  cases result with
  | readDone ec contents length =>
    have success : ec = 0 := success
    simp [Session.complete, Session.handleRead, success, next]
  | writeDone ec =>
    have success : ec = 0 := success
    simp [Session.complete, Session.handleWrite, success, next]

/-- The callback session and the coroutine react alike, whatever their buffers hold. -/
theorem session_follows (blockSize : Nat) (setOptionErr : ErrorCode) :
    Follows (session blockSize setOptionErr) (sessionHard2 blockSize setOptionErr).actor
      fun operation _ frame => Suspended operation frame where
  begin := by
    by_cases success : setOptionErr = 0
    · subst success
      exact .goOn rfl
    · simp only [session, Session.start, if_neg success, sessionHard2, sessionBody, Body.actor, beginHard2, if_pos success]
      exact .closing
  react := by
    intro s frame operation result suspended
    by_cases fits : result.fits operation = true
    · refine .inr ⟨s.complete result, _, by simp [session, fits], by simp [Body.actor, sessionHard2, sessionBody, fits]; rfl, ?_⟩
      rcases complete_eq frame operation result suspended fits with ⟨error, thrown⟩ | ⟨fine, frame', at_next, goes_on⟩
      · obtain ⟨s', posts⟩ := complete_error s result error
        rw [thrown, posts]
        exact .closing
      · obtain ⟨s', starts⟩ := complete_success s result fine
        rw [goes_on, starts]
        exact .goOn at_next
    · exact .inl ⟨by simp [session, fits], by simp [Body.actor, sessionHard2, sessionBody, fits]⟩
  posted _ _ := rfl
  unposted _ _ := rfl
  closes _ := ⟨[], rfl⟩

/-- The order of the handlers' assignments, and of the statements before the loop, makes
no difference. -/
theorem sessionHard1_eq (blockSize : Nat) (setOptionErr : ErrorCode) :
    sessionHard1 blockSize setOptionErr = sessionHard2 blockSize setOptionErr := rfl

theorem Echoes.transfer {σ τ ε δ : Type} {s : State σ Operation ε} {t : State τ Operation δ}
    (echoes : Echoes setOptionErr script used t) (flight : s.inFlight = t.inFlight)
    (operations : s.operations = t.operations) (destructions : s.destructions = t.destructions)
    (present : s.object.isSome ↔ t.object.isSome) : Echoes setOptionErr script used s where
  taken := by simpa only [flight] using echoes.taken
  firstError := echoes.firstError
  written := operations ▸ echoes.written
  failed error := by
    obtain ⟨absent, idle, once⟩ := echoes.failed error
    refine ⟨?_, flight.trans idle, destructions.trans once⟩
    by_contra alive
    have := present.mp (Option.isSome_iff_ne_none.mpr alive)
    simp [absent] at this
  working success := by
    obtain ⟨alive, single, none_yet⟩ := echoes.working success
    exact ⟨present.mpr alive, flight ▸ single, destructions.trans none_yet⟩

/-- The sessions of `hard1.cpp` and `hard2.cpp` and the class of `myserver.cpp` take the
same results of every script and start the same reads and writes. All of them echo. -/
theorem sessions_agree (blockSize : Nat) (setOptionErr : ErrorCode) (script : List (Result blockSize)) :
    let callback := (drive (session blockSize setOptionErr) (script.map some)).1
    let settled := (settle (session blockSize setOptionErr) callback).visible
    let hard1 := (drive (sessionHard1 blockSize setOptionErr).actor script).1
    let hard2 := (drive (sessionHard2 blockSize setOptionErr).actor script).1
    hard1.operations = settled.operations ∧ hard2.operations = settled.operations ∧
      ∃ used, Echoes setOptionErr script used settled ∧ Echoes setOptionErr script used hard1 ∧
        Echoes setOptionErr script used hard2 ∧ (Failed setOptionErr used → callback.visible.inFlight = []) := by
  intro callback settled hard1 hard2
  have follows := session_follows blockSize setOptionErr
  have agree := follows.drive script
  obtain ⟨flight, operations, destructions, present⟩ := follows.settle agree
  obtain ⟨used, echoes⟩ := hard2_echoes blockSize setOptionErr script
  have same : hard1 = hard2 := by simp only [hard1, hard2, sessionHard1_eq]
  refine ⟨same ▸ operations.symm, operations.symm, used, echoes.transfer flight operations destructions present,
    same ▸ echoes, echoes, fun failed => ?_⟩
  obtain ⟨absent, -⟩ := echoes.failed failed
  cases agree with
  | waiting a b operation related first second => simp [second] at absent
  | closing a first second posted => simp [callback, State.visible, posted]

/-- Whichever operation completes first, the sessions and the accept loops do what their
results, handed over one by one, make them do. -/
theorem runs_driven (blockSize : Nat) (setOptionErr : ErrorCode) :
    Driven (session blockSize setOptionErr) ∧ Driven (sessionHard1 blockSize setOptionErr).actor ∧
      Driven (sessionHard2 blockSize setOptionErr).actor ∧ Driven (server blockSize) ∧
      Driven (serverHard2 blockSize).actor :=
  ⟨(session_sequential ..).driven, (Body.sequential _).driven, (Body.sequential _).driven,
    (server_sequential _).driven, (Body.sequential _).driven⟩

/-! ### The accept loops -/

/-- The connections of a script of accept results, in order. -/
def accepted (script : List AcceptResult) : List Socket :=
  (script.filter fun result => result.ec = 0).map AcceptResult.socket

/-- No connection is accepted after an accept error. -/
def ErrorsLast (script : List AcceptResult) : Prop :=
  ∀ before result after, script = before ++ result :: after → result.ec ≠ 0 → accepted after = []

/-- The callback server goes on whatever comes. -/
theorem server_feed (blockSize : Nat) (script : List AcceptResult) {s : State Server AcceptOperation SessionStarted}
    (present : s.object = some ⟨blockSize⟩) (single : s.inFlight = [.asyncAccept]) :
    (feed (server blockSize) s script).1.effects = s.effects ++ (accepted script).map (⟨·, blockSize⟩) := by
  induction script generalizing s with
  | nil => simp [feed, accepted]
  | cons result later ih =>
    have reacted : (server blockSize).react ⟨blockSize⟩ .asyncAccept result =
        some (.goOn ⟨blockSize⟩ (if result.ec = 0 then [⟨result.socket, blockSize⟩] else []) [.asyncAccept]) := by
      by_cases success : result.ec = 0 <;> simp [server, Server.handleAccept, Server.startAccept, success]
    rw [feed_cons (step_of_react present single reacted), ih rfl rfl]
    by_cases success : result.ec = 0 <;> simp [State.after, accepted, success]

/-- The coroutine server goes on until the first error. -/
theorem serverHard2_feed (blockSize : Nat) (script : List AcceptResult)
    {s : State ServerFrame AcceptOperation (General.Coroutine.Effect SystemError SessionStarted)}
    (present : s.object = some { blockSize }) (single : s.inFlight = [.asyncAccept]) :
    bodyEffects (feed (serverHard2 blockSize).actor s script).1.effects =
      bodyEffects s.effects ++ (accepted (script.takeWhile fun result => result.ec = 0)).map (⟨·, blockSize⟩) := by
  induction script generalizing s with
  | nil => simp [feed, accepted]
  | cons result later ih =>
    by_cases success : result.ec = 0
    · have reacted : (serverHard2 blockSize).actor.react { blockSize } .asyncAccept result =
          some (.goOn { blockSize } [.body ⟨result.socket, blockSize⟩] [.asyncAccept]) := by
        simp [serverHard2, Body.actor, ServerFrame.resume, ServerFrame.asyncAccept, AcceptAwaiter.complete,
          AcceptAwaiter.awaitResume, Leg.reaction, success]
      rw [feed_cons (step_of_react present single reacted), ih rfl rfl]
      simp [State.after, accepted, success, bodyEffects]
    · have reacted : (serverHard2 blockSize).actor.react { blockSize } .asyncAccept result =
          some (.destroyed [.settled (.error ⟨result.ec⟩)]) := by
        simp [serverHard2, Body.actor, ServerFrame.resume, AcceptAwaiter.complete, AcceptAwaiter.awaitResume,
          Leg.reaction, success]
      rw [feed_cons (step_of_react present single reacted), feed_idle rfl]
      simp [State.after, accepted, success, bodyEffects]

/-- Cutting a script at its first error loses the connections after it. -/
theorem accepted_takeWhile_iff (script : List AcceptResult) :
    accepted (script.takeWhile fun result => result.ec = 0) = accepted script ↔ ErrorsLast script := by
  induction script with
  | nil => simp [ErrorsLast, accepted]
  | cons result later ih =>
    by_cases success : result.ec = 0
    · have same : accepted ((result :: later).takeWhile fun result => result.ec = 0) = accepted (result :: later) ↔
          ErrorsLast later := by
        rw [← ih]
        simp [accepted, success]
      rw [same]
      constructor
      · intro last before first after split error
        cases before with
        | nil =>
          obtain ⟨rfl, -⟩ := List.cons.inj split
          exact absurd success error
        | cons head before => exact last before first after (List.cons.inj split).2 error
      · intro last before first after split error
        exact last (result :: before) first after (by rw [split, List.cons_append]) error
    · have cut : accepted ((result :: later).takeWhile fun result => result.ec = 0) = [] := by
        simp [accepted, success]
      have whole : accepted (result :: later) = accepted later := by simp [accepted, success]
      rw [cut, whole]
      constructor
      · intro none before first after split error
        have inside : accepted after <:+ accepted (result :: later) := by
          rw [split, List.append_cons]
          exact ((List.suffix_append ..).filter _).map _
        rw [whole, ← none] at inside
        exact List.suffix_nil.mp inside
      · intro last
        exact (last [] result later rfl success).symm

/-- `myserver.cpp` serves every accepted connection of every script; `hard2.cpp` serves
them exactly when none is accepted after an accept error, for `await_resume` throws it out
of the accept loop. -/
theorem accept_loops_agree_iff (blockSize : Nat) (script : List AcceptResult) :
    let callback := (drive (server blockSize) script).1
    let coroutine := (drive (serverHard2 blockSize).actor script).1
    callback.effects = (accepted script).map (⟨·, blockSize⟩) ∧
      (bodyEffects coroutine.effects = callback.effects ↔ ErrorsLast script) := by
  intro callback coroutine
  have served : callback.effects = (accepted script).map (⟨·, blockSize⟩) :=
    server_feed blockSize script (s := start (server blockSize)) rfl rfl
  have servedHard2 : bodyEffects coroutine.effects =
      (accepted (script.takeWhile fun result => result.ec = 0)).map (⟨·, blockSize⟩) :=
    serverHard2_feed blockSize script (s := start (serverHard2 blockSize).actor) rfl rfl
  refine ⟨served, ?_⟩
  rw [servedHard2, served, ← accepted_takeWhile_iff]
  have injective : Function.Injective fun socket : Socket => (⟨socket, blockSize⟩ : SessionStarted) :=
    fun _ _ same => (SessionStarted.mk.inj same).1
  exact (List.map_injective_iff.mpr injective).eq_iff

/-- An accept error, and then a connection. -/
theorem accept_loops_agree_counterexample :
    ¬∀ (blockSize : Nat) (script : List AcceptResult),
      bodyEffects (drive (serverHard2 blockSize).actor script).1.effects =
        (accepted script).map (⟨·, blockSize⟩) := by
  intro all
  exact absurd (all 128 [⟨24, 0⟩, ⟨0, 7⟩]) (by decide)

end Await.Live.Echo
