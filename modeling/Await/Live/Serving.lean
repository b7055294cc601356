import Await.Live.Echo

/-! An echo session as its connection sees it: it waits for a read or for a write of what
it has just read, until there is an error. The sessions of all three servers are such. -/

namespace Await.Live.Serving
open General.Coroutine General.Process CoroServer MyServer Echo

variable {blockSize : Nat}

/-- What an echo session waits for after a result; `none` once it has ended. -/
def echo : Option Operation → Result blockSize → Option (Option Operation)
  | some operation, result =>
      if result.fits operation then some (if result.ec = 0 then some (next result) else none) else none
  | none, _ => none

/-- A session with the operation it waits for. A posted function is the result `none`. -/
structure EchoSession (blockSize : Nat) where
  σ : Type
  begin : ErrorCode → σ
  step : σ → Option (Result blockSize) → Option σ
  inFlight : σ → List Operation
  Waits : σ → Option Operation → Prop
  flight : ∀ {s operation}, Waits s operation → inFlight s = operation.toList
  begins : ∀ err, Waits (begin err) (if err = 0 then some (.asyncReadSome blockSize) else none)
  follows : ∀ {s t operation result}, Waits s operation → step s (some result) = some t →
    ∃ later, echo operation result = some later ∧ Waits t later
  able : ∀ {s operation result later}, Waits s operation → echo operation result = some later →
    ∃ t, step s (some result) = some t ∧ Waits t later
  posted : ∀ {s t operation}, Waits s operation → step s none = some t → operation = none ∧ Waits t none

/-! ### The coroutines -/

/-- The coroutine is suspended at the `co_await` of this operation, or its frame is gone. -/
inductive Suspends (s : SessionState blockSize) : Option Operation → Prop where
  | suspended (frame : SessionFrame blockSize) (operation : Operation) (present : s.object = some frame)
      (single : s.inFlight = [operation]) (point : Suspended operation frame) : Suspends s (some operation)
  | gone (absent : s.object = none) (idle : s.inFlight = []) : Suspends s none

theorem Suspends.begins (err : ErrorCode) : Suspends (start (sessionHard2 blockSize err).actor)
    (if err = 0 then some (.asyncReadSome blockSize) else none) := by
  cases start_conversing blockSize err with
  | suspended frame operation present single alive point success =>
    have fine : err = 0 := by
      by_contra error
      exact success (.inl error)
    subst fine
    exact .suspended _ _ rfl rfl rfl
  | gone absent idle once error =>
    have failed : err ≠ 0 := by simpa [Failed] using error
    rw [if_neg failed]
    exact .gone absent idle

theorem Suspends.able {s : SessionState blockSize} {operation later : Option Operation}
    {result : Result blockSize} (err : ErrorCode) (suspends : Suspends s operation)
    (echoes : echo operation result = some later) :
    ∃ t, step (sessionHard2 blockSize err).actor s (0, result) = some t ∧ Suspends t later := by
  cases suspends with
  | gone absent idle => simp [echo] at echoes
  | suspended frame operation present single point =>
    obtain ⟨fits, rfl⟩ : result.fits operation = true ∧
        (if result.ec = 0 then some (next result) else none) = later := by
      simpa [echo] using echoes
    have reacted : (sessionHard2 blockSize err).actor.react frame operation result =
        some (frame.complete Awaiter.completeHard2 operation result).reaction := by
      simp [Body.actor, sessionHard2, sessionBody, fits]
    refine ⟨_, step_of_react present single reacted, ?_⟩
    rcases complete_eq frame operation result point fits with ⟨error, thrown⟩ | ⟨fine, frame', atNext, goesOn⟩
    · rw [thrown, if_neg error]
      exact .gone rfl rfl
    · rw [goesOn, if_pos fine]
      exact .suspended frame' _ rfl rfl atNext

theorem Suspends.follows {s t : SessionState blockSize} {operation : Option Operation}
    {result : Result blockSize} (err : ErrorCode) (suspends : Suspends s operation)
    (stepped : step (sessionHard2 blockSize err).actor s (0, result) = some t) :
    ∃ later, echo operation result = some later ∧ Suspends t later := by
  have taken : ∃ later, echo operation result = some later := by
    cases suspends with
    | gone absent idle => simp [step, idle] at stepped
    | suspended frame operation present single point =>
      obtain ⟨-, reaction, reacted, -⟩ := step_single present single stepped
      have fits : result.fits operation = true := by
        by_contra misfit
        simp [Body.actor, sessionHard2, sessionBody, misfit] at reacted
      exact ⟨_, if_pos fits⟩
  obtain ⟨later, echoes⟩ := taken
  obtain ⟨t', able, suspends'⟩ := suspends.able err echoes
  obtain rfl : t = t' := Option.some.inj (stepped.symm.trans able)
  exact ⟨later, echoes, suspends'⟩

/-- `session` of `hard2.cpp`. Its reactions do not depend on how `set_option` went. -/
def hard2 (blockSize : Nat) : EchoSession blockSize where
  σ := SessionState blockSize
  begin err := start (sessionHard2 blockSize err).actor
  step s result := result.bind fun result => step (sessionHard2 blockSize 0).actor s (0, result)
  inFlight s := s.inFlight
  Waits := Suspends
  flight waits := by
    cases waits with
    | suspended frame operation present single point => exact single
    | gone absent idle => exact idle
  begins := Suspends.begins
  follows waits stepped := waits.follows 0 stepped
  able waits echoes := waits.able 0 echoes
  posted _ stepped := by cases stepped

/-- `session` of `hard1.cpp`. -/
def hard1 (blockSize : Nat) : EchoSession blockSize where
  σ := SessionState blockSize
  begin err := start (sessionHard1 blockSize err).actor
  step s result := result.bind fun result => step (sessionHard1 blockSize 0).actor s (0, result)
  inFlight s := s.inFlight
  Waits := Suspends
  flight := (hard2 blockSize).flight
  begins err := by
    rw [sessionHard1_eq]
    exact Suspends.begins err
  follows waits stepped := waits.follows 0 stepped
  able waits echoes := waits.able 0 echoes
  posted _ stepped := by cases stepped

/-! ### The class with callbacks -/

abbrev CallbackState (blockSize : Nat) := State (Session blockSize) (Option Operation) Empty

/-- The session runs along with the coroutine, or has posted its deletion, or is deleted. -/
inductive Answers (s : CallbackState blockSize) : Option Operation → Prop where
  | waiting (object : Session blockSize) (operation : Operation) (present : s.object = some object)
      (single : s.inFlight = [some operation]) : Answers s (some operation)
  | closing (object : Session blockSize) (present : s.object = some object) (single : s.inFlight = [none]) :
      Answers s none
  | deleted (absent : s.object = none) (idle : s.inFlight = []) : Answers s none

theorem Answers.begins (err : ErrorCode) : Answers (start (session blockSize err))
    (if err = 0 then some (.asyncReadSome blockSize) else none) := by
  by_cases fine : err = 0
  · subst fine
    exact .waiting _ _ rfl rfl
  · have closing : (session blockSize err).begin = .goOn {} [] [none] := by
      simp [session, Session.start, fine, Session.post]
    rw [start, closing, if_neg fine]
    exact .closing _ rfl rfl

theorem Answers.able {s : CallbackState blockSize} {operation later : Option Operation}
    {result : Result blockSize} (answers : Answers s operation) (echoes : echo operation result = some later) :
    ∃ t, step (session blockSize 0) s (0, some result) = some t ∧ Answers t later := by
  cases answers with
  | closing | deleted => simp [echo] at echoes
  | waiting object operation present single =>
    obtain ⟨fits, rfl⟩ : result.fits operation = true ∧
        (if result.ec = 0 then some (next result) else none) = later := by
      simpa [echo] using echoes
    have reacted : (session blockSize 0).react object (some operation) (some result) =
        some (object.complete result) := by
      simp [session, fits]
    refine ⟨_, step_of_react present single reacted, ?_⟩
    by_cases fine : result.ec = 0
    · obtain ⟨object', goesOn⟩ := complete_success object result fine
      rw [goesOn, if_pos fine]
      exact .waiting object' _ rfl rfl
    · obtain ⟨object', posts⟩ := complete_error object result fine
      rw [posts, if_neg fine]
      exact .closing object' rfl rfl

theorem Answers.follows {s t : CallbackState blockSize} {operation : Option Operation}
    {result : Result blockSize} (answers : Answers s operation)
    (stepped : step (session blockSize 0) s (0, some result) = some t) :
    ∃ later, echo operation result = some later ∧ Answers t later := by
  have taken : ∃ later, echo operation result = some later := by
    cases answers with
    | closing object present single =>
      obtain ⟨-, reaction, reacted, -⟩ := step_single present single stepped
      simp [session] at reacted
    | deleted absent idle => simp [step, idle] at stepped
    | waiting object operation present single =>
      obtain ⟨-, reaction, reacted, -⟩ := step_single present single stepped
      have fits : result.fits operation = true := by
        by_contra misfit
        simp [session, misfit] at reacted
      exact ⟨_, if_pos fits⟩
  obtain ⟨later, echoes⟩ := taken
  obtain ⟨t', able, answers'⟩ := answers.able echoes
  obtain rfl : t = t' := Option.some.inj (stepped.symm.trans able)
  exact ⟨later, echoes, answers'⟩

/-- The posted function runs after an error only, and deletes the session. -/
theorem Answers.posted {s t : CallbackState blockSize} {operation : Option Operation}
    (answers : Answers s operation) (stepped : step (session blockSize 0) s (0, none) = some t) :
    operation = none ∧ Answers t none := by
  cases answers with
  | waiting object operation present single =>
    obtain ⟨-, reaction, reacted, -⟩ := step_single present single stepped
    simp [session] at reacted
  | closing object present single =>
    obtain ⟨-, reaction, reacted, rfl⟩ := step_single present single stepped
    obtain rfl : Session.destroy = reaction := by simpa [session] using reacted
    exact ⟨rfl, .deleted rfl rfl⟩
  | deleted absent idle => simp [step, idle] at stepped

/-- `session` of `myserver.cpp`. -/
def myserver (blockSize : Nat) : EchoSession blockSize where
  σ := CallbackState blockSize
  begin err := start (session blockSize err)
  step s result := step (session blockSize 0) s (0, result)
  inFlight s := s.inFlight.reduceOption
  Waits := Answers
  flight waits := by
    cases waits with
    | waiting object operation present single => simp [single]
    | closing object present single => simp [single]
    | deleted absent idle => simp [idle]
  begins := Answers.begins
  follows waits stepped := waits.follows stepped
  able waits echoes := waits.able echoes
  posted waits stepped := waits.posted stepped

/-- The programs that serve connections by echoing. -/
inductive Version where
  | myserver | hard1 | hard2
  deriving DecidableEq, Repr

def Version.session (blockSize : Nat) : Version → EchoSession blockSize
  | .myserver => Serving.myserver blockSize
  | .hard1 => Serving.hard1 blockSize
  | .hard2 => Serving.hard2 blockSize

end Await.Live.Serving
