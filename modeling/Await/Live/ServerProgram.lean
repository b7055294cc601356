import Await.General.Population
import Await.Live.Easy

/-! The servers of `myserver.cpp`, `hard1.cpp`, `easy.cpp` and `hard2.cpp` as programs: an accept
loop and all the sessions that it has started, with completions in any order. -/

namespace Await.Live.ServerProgram
open General General.Coroutine General.Process General.Transition
open General.Population hiding State step
open CoroServer MyServer Echo

variable {blockSize : Nat} {setOptionErr : ErrorCode}

/-! ### One session -/

/-- What a session has done that has been given these results. Its end may be posted and not
have come yet. -/
structure Served (setOptionErr : ErrorCode) (used : List (Result blockSize)) (operations inFlight : List Operation)
    (ends : Nat) : Prop where
  echoed : written operations = received used
  firstError : ∀ before result after, used = before ++ result :: after → ¬Failed setOptionErr before
  ended : Failed setOptionErr used → inFlight = [] ∧ ends = 1
  working : ¬Failed setOptionErr used → inFlight.length = 1 ∧ ends = 0

/-- A kind of session. Of the operations that have completed, it may not have been given the
last result yet. As long as the call that has begun it goes on, the accept loop does not. -/
structure SessionKind (blockSize : Nat) where
  σ : Type
  α : Type
  begin : ErrorCode → σ
  step : ErrorCode → σ → α → Option σ
  completed : List α → List (Result blockSize)
  untaken : σ → List (Result blockSize)
  operations : σ → List Operation
  inFlight : σ → List Operation
  ends : σ → Nat
  called : σ → Bool
  serves : ∀ {setOptionErr choices m}, run (step setOptionErr) (begin setOptionErr) choices = some m →
    ∃ used, completed choices = used ++ untaken m ∧ Served setOptionErr used (operations m) (inFlight m) (ends m)
  returns : ∀ {setOptionErr choices m}, run (step setOptionErr) (begin setOptionErr) choices = some m →
    ∃ later m', run (step setOptionErr) m later = some m' ∧ called m' = false

theorem Served.of_echoes {σ ε : Type} {used : List (Result blockSize)} {s : Process.State σ Operation ε}
    (echoes : Echoes setOptionErr used used s) : Served setOptionErr used s.operations s.inFlight s.destructions where
  echoed := echoes.written
  firstError := echoes.firstError
  ended failed := (echoes.failed failed).2
  working success := (echoes.working success).2

/-- `session` of `hard2.cpp`. -/
def hard2Session (blockSize : Nat) : SessionKind blockSize where
  σ := SessionState blockSize
  α := Nat × Result blockSize
  begin setOptionErr := Process.start (sessionHard2 blockSize setOptionErr).actor
  step setOptionErr := Process.step (sessionHard2 blockSize setOptionErr).actor
  completed choices := choices.map Prod.snd
  untaken _ := []
  operations m := m.operations
  inFlight m := m.inFlight
  ends m := m.destructions
  called _ := false
  returns _ := ⟨[], _, rfl, rfl⟩
  serves path := ⟨_, (List.append_nil _).symm, .of_echoes (Easy.Conversing.echoes (Easy.conversing_run path))⟩

/-- `session` of `hard1.cpp`. -/
def hard1Session (blockSize : Nat) : SessionKind blockSize where
  σ := SessionState blockSize
  α := Nat × Result blockSize
  begin setOptionErr := Process.start (sessionHard1 blockSize setOptionErr).actor
  step setOptionErr := Process.step (sessionHard1 blockSize setOptionErr).actor
  completed choices := choices.map Prod.snd
  untaken _ := []
  operations m := m.operations
  inFlight m := m.inFlight
  ends m := m.destructions
  called _ := false
  returns _ := ⟨[], _, rfl, rfl⟩
  serves path := by
    simp only [sessionHard1_eq] at path
    exact (hard2Session blockSize).serves path

abbrev EasyState (blockSize : Nat) :=
  Future.State (Easy.Frame blockSize) Operation (Result blockSize) (Effect SystemError Empty)

/-- A session of `easy.cpp` and the call that has begun it. That call runs the session until
its thread goes away from it, or the session ends, and only then returns to `handle_accept`. -/
structure Call (blockSize : Nat) where
  session : EasyState blockSize
  returned : Bool

def Call.after (returned : Bool) (session : EasyState blockSize) : Call blockSize where
  session := session
  returned := returned || session.stage = .away || session.process.inFlight.isEmpty

def Call.begin (setOptionErr : ErrorCode) : Call blockSize :=
  .after false (Future.start (Easy.sessionEasy blockSize setOptionErr).actor)

def Call.step (setOptionErr : ErrorCode) (c : Call blockSize) (choice : Future.Choice (Result blockSize)) :
    Option (Call blockSize) :=
  (Future.step (Easy.sessionEasy blockSize setOptionErr).actor c.session choice).map (Call.after c.returned)

/-- The session takes no notice of the call. -/
theorem Call.run_session (c : Call blockSize) (choices : List (Future.Choice (Result blockSize))) :
    (Transition.run (Call.step setOptionErr) c choices).map Call.session =
      Transition.run (Future.step (Easy.sessionEasy blockSize setOptionErr).actor) c.session choices :=
  run_map (fun _ => True) (fun _ _ _ _ _ => trivial)
    (fun c choice _ => by simp [Call.step, Function.comp_def, Call.after]) trivial

theorem Call.run {c c' : Call blockSize} {choices : List (Future.Choice (Result blockSize))}
    (path : Transition.run (Call.step setOptionErr) c choices = some c') :
    Transition.run (Future.step (Easy.sessionEasy blockSize setOptionErr).actor) c.session choices =
      some c'.session := by
  rw [← Call.run_session, path, Option.map_some]

/-- The thread of the session has gone away from it, or there is no session any more. -/
def Call.Left (c : Call blockSize) : Prop := c.session.stage = .away ∨ c.session.process.inFlight = []

theorem after_left {returned : Bool} {session : EasyState blockSize} (left : (Call.after returned session).Left) :
    (Call.after returned session).returned = true := by
  rcases left with away | idle
  · simp only [Call.after] at away
    simp [Call.after, away]
  · simp only [Call.after] at idle
    simp [Call.after, idle]

theorem Call.left_run {c c' : Call blockSize} {choices : List (Future.Choice (Result blockSize))}
    (path : Transition.run (Call.step setOptionErr) c choices = some c') (start : c.Left → c.returned = true) :
    c'.Left → c'.returned = true := by
  have kept : ∀ (c : Call blockSize) choice c', (c.Left → c.returned = true) →
      Call.step setOptionErr c choice = some c' → c'.Left → c'.returned = true := by
    intro c choice c' _ stepped
    obtain ⟨session, -, rfl⟩ := Option.map_eq_some_iff.mp stepped
    exact after_left
  exact run_invariant kept path start

/-- The call comes to its end if the results of the session take their time. -/
theorem Call.returns {c : Call blockSize} {choices : List (Future.Choice (Result blockSize))}
    (path : Transition.run (Call.step setOptionErr) (Call.begin setOptionErr) choices = some c) :
    ∃ later c', Transition.run (Call.step setOptionErr) c later = some c' ∧ c'.returned = true := by
  have sofar := Call.left_run path after_left
  by_cases left : c.Left
  · exact ⟨[], c, rfl, sofar left⟩
  · obtain ⟨here, waiting⟩ := not_or.mp left
    have handed := Future.run_handed (Call.run path)
    obtain ⟨n, s, onward, departed⟩ := handed.departs here waiting
    rw [← Call.run_session] at onward
    obtain ⟨c', path', rfl⟩ := Option.map_eq_some_iff.mp onward
    exact ⟨_, c', path', Call.left_run path' sofar departed⟩

/-- `session` of `easy.cpp`. -/
def easySession (blockSize : Nat) : SessionKind blockSize where
  σ := Call blockSize
  α := Future.Choice (Result blockSize)
  begin := Call.begin
  step := Call.step
  completed := Future.completed
  untaken m := m.session.cell.kept
  operations m := m.session.process.operations
  inFlight m := m.session.process.inFlight
  ends m := m.session.process.destructions
  called m := !m.returned
  serves path := by
    obtain ⟨used, split, echoes, -⟩ := Easy.futures_alike (Call.run path)
    exact ⟨used, split, .of_echoes echoes⟩
  returns path := by
    obtain ⟨later, c', onward, returned⟩ := Call.returns path
    exact ⟨later, c', onward, by simp [returned]⟩

abbrev CallbackState (blockSize : Nat) := Process.State (Session blockSize) (Option Operation) Empty

/-- The session of `myserver.cpp` runs along with a coroutine, or its posted deletion has run. -/
inductive Along (setOptionErr : ErrorCode) (past : List (Result blockSize)) (s : CallbackState blockSize) : Prop where
  | running (t : SessionState blockSize) (conversing : Conversing setOptionErr past t)
      (agree : Agree (fun operation _ frame => Suspended operation frame) s t)
  | deleted (t : SessionState blockSize) (conversing : Conversing setOptionErr past t) (gone : t.object = none)
      (absent : s.object = none) (idle : s.inFlight = []) (once : s.destructions = 1)
      (same : s.operations = t.operations.map some ++ [none])

theorem Along.step {past : List (Result blockSize)} {s s' : CallbackState blockSize}
    {choice : Nat × Option (Result blockSize)}
    (along : Along setOptionErr past s) (stepped : Process.step (session blockSize setOptionErr) s choice = some s') :
    Along setOptionErr (past ++ choice.2.toList) s' := by
  have follows := Echo.session_follows blockSize setOptionErr
  cases along with
  | deleted t conversing gone absent idle once same => simp [Process.step, idle] at stepped
  | running t conversing agree =>
    obtain ⟨index, answer⟩ := choice
    have first : index = 0 := by
      cases agree with
      | waiting a b operation related present other flight => exact (step_single present flight stepped).1
      | closing a present other flight => exact (step_single present flight stepped).1
    subst first
    cases answer with
    | some result =>
      rcases follows.step agree result with ⟨stuck, -⟩ | ⟨next, t', moved, moved', agree'⟩
      · cases stuck.symm.trans stepped
      · obtain rfl := Option.some.inj (moved.symm.trans stepped)
        exact .running t' (conversing.step moved') agree'
    | none =>
      rw [Option.toList_none, List.append_nil]
      cases agree with
      | waiting a b operation related present other flight =>
        have misfit := step_of_misfit present flight (follows.unposted a operation)
        cases misfit.symm.trans stepped
      | closing a present other flight idle same alive once =>
        obtain ⟨effects, closes⟩ := follows.closes a
        obtain rfl := Option.some.inj ((step_of_react present flight closes).symm.trans stepped)
        exact .deleted t conversing other rfl rfl (by simp [State.after, alive]) same

theorem along_run {choices : List (Nat × Option (Result blockSize))} {s : CallbackState blockSize}
    (path : run (Process.step (session blockSize setOptionErr))
      (Process.start (session blockSize setOptionErr)) choices =
      some s) : Along setOptionErr (choices.filterMap Prod.snd) s := by
  have kept : ∀ past s choice t, Along setOptionErr (past.filterMap Prod.snd) s →
      Process.step (session blockSize setOptionErr) s choice = some t →
      Along setOptionErr ((past ++ [choice]).filterMap Prod.snd) t := by
    intro past s choice t along stepped
    have last : [choice].filterMap Prod.snd = choice.2.toList := by
      cases answer : choice.2 <;> simp [answer]
    rw [List.filterMap_append, last]
    exact along.step stepped
  have start : Along setOptionErr [] (Process.start (session blockSize setOptionErr)) :=
    .running _ (start_conversing blockSize setOptionErr) (Echo.session_follows blockSize setOptionErr).start
  have along := run_invariant_past (fun past s => Along setOptionErr (past.filterMap Prod.snd) s) kept path start
  exact along

theorem Along.served {past : List (Result blockSize)} {s : CallbackState blockSize}
    (along : Along setOptionErr past s) :
    Served setOptionErr past s.visible.operations s.visible.inFlight
      (s.destructions + s.inFlight.countP Option.isNone) := by
  have alike : ∃ t : SessionState blockSize, Conversing setOptionErr past t ∧ s.visible.operations = t.operations ∧
      s.visible.inFlight = t.inFlight ∧ s.destructions + s.inFlight.countP Option.isNone = t.destructions := by
    cases along with
    | deleted t conversing gone absent idle once same =>
      cases conversing with
      | suspended frame operation present => simp [present] at gone
      | gone absent' idle' once' error first echo =>
        refine ⟨t, .gone absent' idle' once' error first echo, ?_, ?_, ?_⟩
        · simp [State.visible, same, List.reduceOption]
        · simp [State.visible, idle, idle']
        · simp [once, idle, once']
    | running t conversing agree =>
      refine ⟨t, conversing, ?_⟩
      cases agree with
      | waiting a b operation related first second flight flight' same alive alive' =>
        exact ⟨by simp [State.visible, same, reduceOption_map_some], by simp [State.visible, flight, flight'],
          by simp [flight, alive, alive']⟩
      | closing a first second flight idle same alive once =>
        exact ⟨by simp [State.visible, same, List.reduceOption], by simp [State.visible, flight, idle],
          by simp [flight, alive, once]⟩
  obtain ⟨t, conversing, operations, inFlight, ends⟩ := alike
  rw [operations, inFlight, ends]
  exact .of_echoes (Easy.Conversing.echoes conversing)

/-- `session` of `myserver.cpp`. -/
def callbackSession (blockSize : Nat) : SessionKind blockSize where
  σ := CallbackState blockSize
  α := Nat × Option (Result blockSize)
  begin setOptionErr := Process.start (session blockSize setOptionErr)
  step setOptionErr := Process.step (session blockSize setOptionErr)
  completed choices := choices.filterMap Prod.snd
  untaken _ := []
  operations m := m.visible.operations
  inFlight m := m.visible.inFlight
  ends m := m.destructions + m.inFlight.countP Option.isNone
  called _ := false
  returns _ := ⟨[], _, rfl, rfl⟩
  serves path := ⟨_, (List.append_nil _).symm, (along_run path).served⟩

/-! ### The accept loop -/

/-- An accept loop, which may go on after an accept error or be at its end. -/
structure AcceptLoop (blockSize : Nat) where
  θ : Type
  begin : θ
  accept : θ → AcceptResult → Option (θ × List SessionStarted)
  goesOn : Bool
  Waits : θ → Prop
  begins : Waits begin
  accepts : ∀ {l}, Waits l → ∀ result, ∃ l',
    accept l result = some (l', if result.ec = 0 then [⟨result.socket, blockSize⟩] else []) ∧
      (result.ec = 0 ∨ goesOn → Waits l') ∧ (result.ec ≠ 0 → goesOn = false → ∀ later, accept l' later = none)

/-- The sessions that a step has started are the last ones in the record. -/
def handle {σ ε : Type} (A : Actor σ AcceptOperation AcceptResult ε) (started : List ε → List SessionStarted)
    (l : Process.State σ AcceptOperation ε) (result : AcceptResult) :
    Option (Process.State σ AcceptOperation ε × List SessionStarted) :=
  (Process.step A l (0, result)).map fun l' => (l', (started l'.effects).drop (started l.effects).length)

theorem handle_eq {σ ε : Type} {A : Actor σ AcceptOperation AcceptResult ε} {started : List ε → List SessionStarted}
    {l l' : Process.State σ AcceptOperation ε} {result : AcceptResult} {new : List SessionStarted}
    (stepped : Process.step A l (0, result) = some l') (more : started l'.effects = started l.effects ++ new) :
    handle A started l result = some (l', new) := by
  rw [handle, stepped, Option.map_some, more, List.drop_left]

/-- `server` of `myserver.cpp`, `hard1.cpp` and `easy.cpp`. -/
def callbackLoop (blockSize : Nat) : AcceptLoop blockSize where
  θ := Process.State Server AcceptOperation SessionStarted
  begin := Process.start (server blockSize)
  accept := handle (server blockSize) id
  goesOn := true
  Waits l := l.object = some ⟨blockSize⟩ ∧ l.inFlight = [.asyncAccept]
  begins := ⟨rfl, rfl⟩
  accepts := by
    rintro l ⟨present, single⟩ result
    have reacted : (server blockSize).react ⟨blockSize⟩ .asyncAccept result =
        some (.goOn ⟨blockSize⟩ (if result.ec = 0 then [⟨result.socket, blockSize⟩] else []) [.asyncAccept]) := by
      by_cases success : result.ec = 0 <;> simp [server, Server.handleAccept, Server.startAccept, success]
    have stepped := step_of_react present single reacted
    exact ⟨_, handle_eq stepped rfl, fun _ => ⟨rfl, rfl⟩, fun _ stops => by cases stops⟩

/-- `server` of `hard2.cpp`. -/
def coroutineLoop (blockSize : Nat) : AcceptLoop blockSize where
  θ := Process.State ServerFrame AcceptOperation (General.Coroutine.Effect SystemError SessionStarted)
  begin := Process.start (serverHard2 blockSize).actor
  accept := handle (serverHard2 blockSize).actor bodyEffects
  goesOn := false
  Waits l := l.object = some { blockSize } ∧ l.inFlight = [.asyncAccept]
  begins := ⟨rfl, rfl⟩
  accepts := by
    rintro l ⟨present, single⟩ result
    by_cases success : result.ec = 0
    · have reacted : (serverHard2 blockSize).actor.react { blockSize } .asyncAccept result =
          some (.goOn { blockSize } [.body ⟨result.socket, blockSize⟩] [.asyncAccept]) := by
        simp [serverHard2, Body.actor, ServerFrame.resume, ServerFrame.asyncAccept, AcceptAwaiter.complete,
          AcceptAwaiter.awaitResume, Leg.reaction, success]
      have stepped := step_of_react present single reacted
      rw [if_pos success]
      refine ⟨_, handle_eq stepped ?_, fun _ => ⟨rfl, rfl⟩, fun error => absurd success error⟩
      simp [State.after, bodyEffects]
    · have reacted : (serverHard2 blockSize).actor.react { blockSize } .asyncAccept result =
          some (.destroyed [.settled (.error ⟨result.ec⟩)]) := by
        simp [serverHard2, Body.actor, ServerFrame.resume, AcceptAwaiter.complete, AcceptAwaiter.awaitResume,
          Leg.reaction, success]
      have stepped := step_of_react present single reacted
      rw [if_neg success]
      refine ⟨_, handle_eq stepped ?_, fun goes => ?_, fun _ _ later => ?_⟩
      · simp [State.after, bodyEffects]
      · rcases goes with fine | never
        · exact absurd fine success
        · cases never
      · simp [handle, Process.step, State.after]

/-! ### The program -/

/-- A session on the connection that was accepted, with what `set_option` reports for it. -/
structure Connection (kind : SessionKind blockSize) where
  started : SessionStarted
  setOptionErr : ErrorCode
  session : kind.σ

/-- The sessions act by themselves; each is started by the accept loop. -/
def Connection.step {kind : SessionKind blockSize} (c : Connection kind) (choice : kind.α) : Option (Connection kind) :=
  (kind.step c.setOptionErr c.session choice).map fun session => { c with session }

def Connection.begin (kind : SessionKind blockSize) (setOptionErr : ErrorCode) (started : SessionStarted) :
    Connection kind where
  started := started
  setOptionErr := setOptionErr
  session := kind.begin setOptionErr

/-- A connection is accepted, or not, and its session runs to its first operation. -/
def accept (loop : AcceptLoop blockSize) (kind : SessionKind blockSize) (l : loop.θ)
    (choice : AcceptResult × ErrorCode) : Option (loop.θ × List (Connection kind)) :=
  (loop.accept l choice.1).map fun (l', started) => (l', started.map (Connection.begin kind choice.2))

inductive Version where
  | myserver | hard1 | easy | hard2
  deriving DecidableEq, Repr

def Version.loop (blockSize : Nat) : Version → AcceptLoop blockSize
  | .hard2 => coroutineLoop blockSize
  | .myserver | .hard1 | .easy => callbackLoop blockSize

def Version.kind (blockSize : Nat) : Version → SessionKind blockSize
  | .myserver => callbackSession blockSize
  | .hard1 => hard1Session blockSize
  | .easy => easySession blockSize
  | .hard2 => hard2Session blockSize

abbrev ProgramState (loop : AcceptLoop blockSize) (kind : SessionKind blockSize) :=
  Population.State loop.θ (Connection kind)

abbrev ProgramChoice (kind : SessionKind blockSize) := Choice (AcceptResult × ErrorCode) kind.α

/-- The newest session has been called and has returned, so that the loop has gone on to its
next `async_accept`. -/
def rearmed {kind : SessionKind blockSize} (connections : List (Connection kind)) : Bool :=
  connections.getLast?.all fun c => !kind.called c.session

def step (loop : AcceptLoop blockSize) (kind : SessionKind blockSize) :
    ProgramState loop kind → ProgramChoice kind → Option (ProgramState loop kind) :=
  Population.step (guarded rearmed (spawning (accept loop kind))) Connection.step

def start (loop : AcceptLoop blockSize) (kind : SessionKind blockSize) : ProgramState loop kind := ⟨loop.begin, []⟩

/-- The successful ones of the completed accepts. -/
def welcome (accepts : List (AcceptResult × ErrorCode)) : List (AcceptResult × ErrorCode) :=
  accepts.filter fun a => a.1.ec = 0

section
variable {loop : AcceptLoop blockSize} {kind : SessionKind blockSize}

/-- A connection keeps to its session. -/
theorem Connection.run {c c' : Connection kind} {choices : List kind.α}
    (path : Transition.run Connection.step c choices = some c') :
    c'.started = c.started ∧ c'.setOptionErr = c.setOptionErr ∧
      Transition.run (kind.step c.setOptionErr) c.session choices = some c'.session := by
  induction choices generalizing c with
  | nil =>
    obtain rfl : c = c' := by simpa using path
    exact ⟨rfl, rfl, rfl⟩
  | cons choice later ih =>
    obtain ⟨next, head, tail⟩ := run_cons.mp path
    obtain ⟨session, stepped, rfl⟩ := Option.map_eq_some_iff.mp head
    obtain ⟨started, err, rest⟩ := ih tail
    exact ⟨started, err, run_cons.mpr ⟨session, stepped, rest⟩⟩

/-- The accept loop waits for the next connection, or an error has ended it. -/
inductive Listening (loop : AcceptLoop blockSize) (accepts : List (AcceptResult × ErrorCode)) (l : loop.θ) : Prop where
  | waiting (waits : loop.Waits l) (fine : loop.goesOn = true ∨ ∀ a ∈ accepts, a.1.ec = 0)
  | stopped (stops : loop.goesOn = false) (failed : ∃ a ∈ accepts, a.1.ec ≠ 0)
      (never : ∀ later, loop.accept l later = none)

theorem Listening.step {accepts : List (AcceptResult × ErrorCode)} {l l' : loop.θ} {a : AcceptResult × ErrorCode}
    {new : List (Connection kind)} (listening : Listening loop accepts l)
    (accepted : accept loop kind l a = some (l', new)) :
    Listening loop (accepts ++ [a]) l' ∧
      new = (welcome [a]).map fun a => Connection.begin kind a.2 ⟨a.1.socket, blockSize⟩ := by
  obtain ⟨⟨next, started⟩, handled, same⟩ := Option.map_eq_some_iff.mp accepted
  obtain ⟨rfl, rfl⟩ := Prod.mk.inj same
  cases listening with
  | stopped stops failed never => cases (never a.1).symm.trans handled
  | waiting waits fine =>
    obtain ⟨next', handled', goes, stops⟩ := loop.accepts waits a.1
    obtain ⟨rfl, rfl⟩ := Prod.mk.inj (Option.some.inj (handled'.symm.trans handled))
    by_cases success : a.1.ec = 0
    · refine ⟨.waiting (goes (.inl success)) ?_, by simp [welcome, success]⟩
      rcases fine with always | earlier
      · exact .inl always
      · refine .inr fun other present => ?_
        rcases List.mem_append.mp present with old | last
        · exact earlier other old
        · rw [List.mem_singleton.mp last, success]
    · refine ⟨?_, by simp [welcome, success]⟩
      cases onward : loop.goesOn with
      | true => exact .waiting (goes (.inr onward)) (.inl onward)
      | false => exact .stopped onward ⟨a, by simp, success⟩ (stops success onward)

theorem listening_run {accepts : List (AcceptResult × ErrorCode)} {l : loop.θ}
    (path : Transition.run (alone (accept loop kind)) loop.begin accepts = some l) :
    Listening loop accepts l ∧ arrivals (accept loop kind) loop.begin accepts =
      (welcome accepts).map fun a => Connection.begin kind a.2 ⟨a.1.socket, blockSize⟩ := by
  induction accepts using List.reverseRecOn generalizing l with
  | nil =>
    obtain rfl : loop.begin = l := by simpa using path
    exact ⟨.waiting loop.begins (.inr (by simp)), rfl⟩
  | append_singleton accepts a ih =>
    obtain ⟨mid, front, last⟩ := run_concat.mp path
    obtain ⟨⟨next, new⟩, accepted, rfl⟩ := Option.map_eq_some_iff.mp last
    obtain ⟨listening, before⟩ := ih front
    obtain ⟨listening', rfl⟩ := listening.step accepted
    refine ⟨listening', ?_⟩
    rw [arrivals_concat front accepted, before, ← List.map_append]
    congr 1
    exact (List.filter_append ..).symm

/-- The next accept may complete, unless an error has ended the loop, or the newest session
has not returned to it. -/
theorem Listening.able_iff {accepts : List (AcceptResult × ErrorCode)} {s : ProgramState loop kind}
    (listening : Listening loop accepts s.host) (a : AcceptResult × ErrorCode) :
    (∃ t, ServerProgram.step loop kind s (.host a) = some t) ↔
      (loop.goesOn = true ∨ ∀ a ∈ accepts, a.1.ec = 0) ∧ rearmed s.members = true := by
  have guard : ServerProgram.step loop kind s (.host a) =
      if rearmed s.members then spawning (accept loop kind) s a else none := rfl
  rw [guard]
  cases armed : rearmed s.members with
  | false => simp
  | true =>
    simp only [if_true, and_true]
    cases listening with
    | waiting waits fine =>
      obtain ⟨next, handled, -⟩ := loop.accepts waits a.1
      have able : (spawning (accept loop kind) s a).isSome = true := by
        simp only [spawning, accept, handled, Option.map_some, Option.isSome_some]
      exact ⟨fun _ => fine, fun _ => Option.isSome_iff_exists.mp able⟩
    | stopped stops failed never =>
      obtain ⟨bad, present, error⟩ := failed
      constructor
      · rintro ⟨t, stepped⟩
        simp [spawning, accept, never a.1] at stepped
      · rintro (always | fine)
        · cases stops.symm.trans always
        · exact absurd (fine bad present) error

/-- A session acts as a connection does. -/
theorem Connection.run_of_session {c : Connection kind} {choices : List kind.α} {session : kind.σ}
    (path : Transition.run (kind.step c.setOptionErr) c.session choices = some session) :
    Transition.run Connection.step c choices = some { c with session } := by
  induction choices generalizing c with
  | nil =>
    obtain rfl : c.session = session := by simpa using path
    rfl
  | cons choice later ih =>
    obtain ⟨next, head, tail⟩ := run_cons.mp path
    have moved : c.step choice = some { c with session := next } := by simp [Connection.step, head]
    exact run_cons.mpr ⟨_, moved, ih (c := { c with session := next }) tail⟩

/-- Each connection that has been accepted has its session, which has been given its own
results alone. -/
theorem program_run {choices : List (ProgramChoice kind)} {s : ProgramState loop kind}
    (path : Transition.run (ServerProgram.step loop kind) (start loop kind) choices = some s) :
    Listening loop (hosts choices) s.host ∧ s.members.length = (welcome (hosts choices)).length ∧
      ∀ i c, s.members[i]? = some c → ∃ a, (welcome (hosts choices))[i]? = some a ∧
        c.started = ⟨a.1.socket, blockSize⟩ ∧ c.setOptionErr = a.2 ∧
        Transition.run (kind.step a.2) (kind.begin a.2) (own i choices) = some c.session := by
  have spawned := spawning_run (guarded_run path)
  obtain ⟨listening, arrived⟩ := listening_run spawned.host
  refine ⟨listening, by rw [spawned.count, arrived, List.length_map], fun i c present => ?_⟩
  obtain ⟨began, entered, acts⟩ := spawned.members i c present
  rw [arrived, List.getElem?_map] at entered
  obtain ⟨a, welcomed, rfl⟩ := Option.map_eq_some_iff.mp entered
  obtain ⟨started, err, session⟩ := Connection.run acts
  exact ⟨a, welcomed, started, err, session⟩

end

/-- Only in `easy.cpp` the call of a session may take longer than to its first operation. -/
theorem rearmed_other {version : Version} (other : version ≠ .easy)
    (connections : List (Connection (version.kind blockSize))) : rearmed connections = true := by
  cases version with
  | easy => exact absurd rfl other
  | myserver | hard1 | hard2 =>
    unfold rearmed
    cases connections.getLast? <;> rfl

theorem goesOn_iff (version : Version) : (version.loop blockSize).goesOn = true ↔ version ≠ .hard2 := by
  cases version <;> simp [Version.loop, callbackLoop, coroutineLoop]

/-- The newest session comes to return to the accept loop. -/
theorem program_rearms {loop : AcceptLoop blockSize} {kind : SessionKind blockSize}
    {choices : List (ProgramChoice kind)} {s : ProgramState loop kind}
    (path : run (step loop kind) (start loop kind) choices = some s) :
    ∃ later t, run (step loop kind) s later = some t ∧ t.host = s.host ∧ rearmed t.members = true := by
  obtain ⟨-, -, members⟩ := program_run path
  rcases List.eq_nil_or_concat s.members with empty | ⟨before, c, split⟩
  · exact ⟨[], s, rfl, rfl, by simp [rearmed, empty]⟩
  · rw [List.concat_eq_append] at split
    have newest : s.members[before.length]? = some c := by simp [split]
    obtain ⟨a, -, -, err, acts⟩ := members before.length c newest
    obtain ⟨later, session, onward, returned⟩ := kind.returns acts
    rw [← err] at onward
    refine ⟨_, _, member_run split (Connection.run_of_session onward), rfl, ?_⟩
    simp [rearmed, returned]

/-- The four servers, with completions in any order. Each connection that has been accepted has
a session, and no other has. A session has taken all results of its own operations, but for
one that may be on its way to it through a future; it has written what it has read, and it
waits for one operation, or ends once, from the first error on: whatever the other sessions do
and whether the accept loop goes on or not. The accept loop goes on whatever comes, but that
of `hard2.cpp` until the first accept error only: it takes the next connection once the newest
session has returned to it, which that session comes to do. -/
theorem servers_serve (version : Version) (blockSize : Nat) (choices : List (ProgramChoice (version.kind blockSize)))
    (s : ProgramState (version.loop blockSize) (version.kind blockSize))
    (path : run (step (version.loop blockSize) (version.kind blockSize)) (start _ _) choices = some s) :
    s.members.length = (welcome (hosts choices)).length ∧
      (∀ i c, s.members[i]? = some c → ∃ a, (welcome (hosts choices))[i]? = some a ∧
        c.started = ⟨a.1.socket, blockSize⟩ ∧ ∃ used,
          (version.kind blockSize).completed (own i choices) = used ++ (version.kind blockSize).untaken c.session ∧
          Served a.2 used ((version.kind blockSize).operations c.session) ((version.kind blockSize).inFlight c.session)
            ((version.kind blockSize).ends c.session)) ∧
      (∀ a, (∃ t, step (version.loop blockSize) (version.kind blockSize) s (.host a) = some t) ↔
        (version ≠ .hard2 ∨ ∀ a ∈ hosts choices, a.1.ec = 0) ∧ (version = .easy → rearmed s.members = true)) ∧
      ((version ≠ .hard2 ∨ ∀ a ∈ hosts choices, a.1.ec = 0) → ∀ a,
        CanReach (step (version.loop blockSize) (version.kind blockSize))
          (fun t => ∃ u, step (version.loop blockSize) (version.kind blockSize) t (.host a) = some u) s) := by
  obtain ⟨listening, count, members⟩ := program_run path
  refine ⟨count, fun i c present => ?_, fun a => ?_, fun goes a => ?_⟩
  · obtain ⟨a, welcomed, started, -, acts⟩ := members i c present
    exact ⟨a, welcomed, started, (version.kind blockSize).serves acts⟩
  · rw [listening.able_iff a, goesOn_iff]
    refine and_congr_right fun _ => ⟨fun armed _ => armed, fun armed => ?_⟩
    by_cases easy : version = .easy
    · exact armed easy
    · exact rearmed_other easy s.members
  · obtain ⟨later, t, onward, same, armed⟩ := program_rearms path
    refine ⟨later, t, onward, ?_⟩
    rw [← same] at listening
    exact (listening.able_iff a).mpr ⟨by rwa [goesOn_iff], armed⟩

/-- An accept error between a connection and what is read from it. -/
theorem servers_serve_accept_error :
    let choices : List (ProgramChoice (Version.kind 1 .hard2)) :=
      [.host (⟨0, 5⟩, 0), .host (⟨13, 6⟩, 0), .member 0 (0, Result.readDone 0 #v[7] 1),
        .member 0 (0, Result.writeDone 0)]
    ∃ s, run (step (Version.loop 1 .hard2) (Version.kind 1 .hard2)) (start _ _) choices = some s ∧
      s.members.length = 1 ∧
      ¬∃ t, step (Version.loop 1 .hard2) (Version.kind 1 .hard2) s (.host (⟨0, 8⟩, 0)) = some t := by
  intro choices
  obtain ⟨s, path⟩ := Option.isSome_iff_exists.mp
    (show (run (step (Version.loop 1 .hard2) (Version.kind 1 .hard2)) (start _ _) choices).isSome = true from rfl)
  obtain ⟨count, -, accepts, -⟩ := servers_serve .hard2 1 choices s path
  refine ⟨s, path, count, fun able => ?_⟩
  rcases ((accepts _).mp able).1 with other | fine
  · exact other rfl
  · exact absurd (fine (⟨13, 6⟩, 0) (.tail _ (.head _))) (by decide)

end Await.Live.ServerProgram
