import Await.General.Transition
import Mathlib.Data.List.Basic

/-! Objects driven by callbacks. An object starts asynchronous operations, each with a
handler; a handler is invoked by a completion packet on some thread, or on the spot when
the operation is refused. Threads are stacks of frames and take turns in any order, so a
callback may run while the thread that started the operation is still returning.

The object's code is a parameter, and so is the way it comes by its handlers. -/

namespace Await.General.Callback
open Transition

/-- How an operation turned out when it was started: done at once, to be completed by a
packet, or refused. -/
inductive Outcome where
  | now (bytes : Nat)
  | later
  | failed (code : Nat)
  deriving DecidableEq, Repr

/-- What the code does at one of its points: go on at the next point, start an operation
that goes on at `next` if it is done at once and else at another point or, with none, by
returning, post a packet and return, just return, or delete the object and return. -/
inductive Move (ω κ φ ε : Type) where
  | goto (object : ω) (calls : List ε) (next : κ)
  | start (object : ω) (call : ε) (kind : φ) (next : κ) (otherwise : Option κ)
  | post (object : ω) (call : ε) (kind : φ) (bytes : Nat)
  | leave (object : ω)
  | delete

/-- The code of an object: its points, the point that each kind of handler calls with the
error code and the byte count it is given, and what the system makes of each call. -/
structure Code (ω κ φ ρ ε : Type) where
  exec : κ → ω → Move ω κ φ ε
  entry : φ → Nat → Nat → κ
  respond : ε → ρ → Option Outcome

/-- Code that returns after an operation that is not done at once. -/
def Code.Leaves {ω κ φ ρ ε : Type} (C : Code ω κ φ ρ ε) : Prop :=
  ∀ point object object' call kind next otherwise,
    C.exec point object = .start object' call kind next otherwise → otherwise = none

/-- Where handlers come from: how one of a kind is made, what becomes of it when its
operation was done at once, and whether it is a part of the object. -/
structure Supply (φ η σ : Type) where
  kind : η → φ
  inside : η → Bool
  make : φ → σ → η × σ
  discard : η → σ → σ
  kind_make : ∀ which store, kind (make which store).1 = which

inductive Frame (κ η ε : Type) where
  | run (point : κ)
  | io (call : ε) (h : η)
  | awaiting (next : κ) (otherwise : Option κ)
  | done (h : η) (outcome : Outcome)
  | reported (h : η)
  | invoke (h : η) (code bytes : Nat)
  | invoked
  deriving DecidableEq, Repr

/-- A handler with an operation in flight, or with a posted packet of so many bytes. -/
structure Attached (η : Type) where
  handler : η
  posted : Option Nat
  deriving DecidableEq, Repr

/-- A posted packet reports what was posted; an operation may complete in any way. -/
def Attached.Allows {η : Type} (a : Attached η) (code bytes : Nat) : Prop :=
  ∀ n, a.posted = some n → code = 0 ∧ bytes = n

instance {η : Type} (a : Attached η) (code bytes : Nat) : Decidable (a.Allows code bytes) :=
  match known : a.posted with
  | none => .isTrue (by simp [Attached.Allows, known])
  | some n => decidable_of_iff (code = 0 ∧ bytes = n) (by simp [Attached.Allows, known])

inductive Entry (κ ε : Type) where
  | call (e : ε)
  | result (outcome : Outcome)
  | packet (point : κ)
  deriving DecidableEq, Repr

/-- The object (`none` once deleted), its handlers, and the threads that run its code. A
fault is an access to the object after its deletion. -/
structure State (ω κ η σ ε : Type) where
  object : Option ω
  store : σ
  attached : List (Attached η) := []
  threads : List (List (Frame κ η ε))
  log : List (Entry κ ε) := []
  fault : Bool := false

inductive Choice (ρ : Type) where
  | thread (i : Nat)
  | respond (i : Nat) (result : ρ)
  | packet (i : Nat) (code bytes : Nat)
  deriving DecidableEq, Repr

variable {ω κ φ ρ ε η σ : Type}

/-- Thread `i` has got to this stack. -/
def State.goOn (i : Nat) (stack : List (Frame κ η ε)) (s : State ω κ η σ ε) : State ω κ η σ ε :=
  { s with threads := s.threads.set i stack }

def State.access (s : State ω κ η σ ε) (use : ω → State ω κ η σ ε) : State ω κ η σ ε :=
  match s.object with
  | some object => use object
  | none => { s with fault := true }

section
variable (C : Code ω κ φ ρ ε) (S : Supply φ η σ)

def State.perform (s : State ω κ η σ ε) (i : Nat) (rest : List (Frame κ η ε)) :
    Move ω κ φ ε → State ω κ η σ ε
  | .goto object calls next =>
      State.goOn i (.run next :: rest) { s with
        object := some object
        log := s.log ++ calls.map Entry.call }
  | .start object call kind next otherwise =>
      State.goOn i (.io call (S.make kind s.store).1 :: .awaiting next otherwise :: rest) { s with
        object := some object
        store := (S.make kind s.store).2 }
  | .post object call kind bytes =>
      State.goOn i rest { s with
        object := some object
        store := (S.make kind s.store).2
        attached := s.attached ++ [⟨(S.make kind s.store).1, some bytes⟩]
        log := s.log ++ [.call call] }
  | .leave object => State.goOn i rest { s with object := some object }
  | .delete => State.goOn i rest { s with object := none }

/-- One step of a thread that does not wait for the system. -/
def State.advance (s : State ω κ η σ ε) (i : Nat) : List (Frame κ η ε) → Option (State ω κ η σ ε)
  | .run point :: rest => some (s.access fun object => s.perform S i rest (C.exec point object))
  | .done h (.now _) :: .awaiting next _ :: rest =>
      some (State.goOn i (.run next :: rest) { s with store := S.discard h s.store })
  | .done _ .later :: .awaiting _ otherwise :: rest => some (s.goOn i (otherwise.toList.map .run ++ rest))
  | .done h (.failed code) :: .awaiting next otherwise :: rest =>
      some (s.goOn i (.invoke h code 0 :: .reported h :: .awaiting next otherwise :: rest))
  | .reported _ :: .awaiting _ otherwise :: rest => some (s.goOn i (otherwise.toList.map .run ++ rest))
  | .invoke h code bytes :: rest =>
      let called := s.goOn i (.run (C.entry (S.kind h) code bytes) :: .invoked :: rest)
      some (if S.inside h then s.access fun _ => called else called)
  | .invoked :: rest => some (s.goOn i rest)
  | _ => none

/-- The system's answer to an operation; its packet may come from now on. -/
def State.answer (s : State ω κ η σ ε) (i : Nat) (call : ε) (h : η) (rest : List (Frame κ η ε))
    (outcome : Outcome) : State ω κ η σ ε :=
  s.access fun _ => State.goOn i (.done h outcome :: rest) { s with
    attached := if outcome = .later then s.attached ++ [⟨h, none⟩] else s.attached
    log := s.log ++ [.call call, .result outcome] }

def step (s : State ω κ η σ ε) : Choice ρ → Option (State ω κ η σ ε)
  | .thread i => s.threads[i]?.bind (s.advance C S i)
  | .respond i result =>
      match s.threads[i]? with
      | some (.io call h :: rest) => (C.respond call result).map (s.answer i call h rest)
      | _ => none
  | .packet i code bytes => do
      let a ← s.attached[i]?
      if a.Allows code bytes then
        some { s with
          attached := s.attached.eraseIdx i
          threads := s.threads ++ [[.invoke a.handler code bytes]]
          log := s.log ++ [.packet (C.entry (S.kind a.handler) code bytes)] }
      else none

end

/-! ### The log only grows -/

section
variable {C : Code ω κ φ ρ ε} {S : Supply φ η σ} {s t : State ω κ η σ ε} {i : Nat}

theorem perform_log (rest : List (Frame κ η ε)) (move : Move ω κ φ ε) :
    s.log <+: (s.perform S i rest move).log := by
  cases move <;> simp [State.perform, State.goOn]

theorem access_log {use : ω → State ω κ η σ ε} (grows : ∀ object, s.log <+: (use object).log) :
    s.log <+: (s.access use).log := by
  unfold State.access
  split
  · exact grows _
  · exact List.prefix_rfl

theorem advance_log {stack : List (Frame κ η ε)} (advanced : s.advance C S i stack = some t) :
    s.log <+: t.log := by
  unfold State.advance at advanced
  split at advanced <;> cases advanced
  · exact access_log fun object => perform_log _ _
  · exact List.prefix_rfl
  · exact List.prefix_rfl
  · exact List.prefix_rfl
  · exact List.prefix_rfl
  · split
    · exact access_log fun _ => List.prefix_rfl
    · exact List.prefix_rfl
  · exact List.prefix_rfl

theorem step_log {choice : Choice ρ} (stepped : step C S s choice = some t) : s.log <+: t.log := by
  cases choice with
  | thread i =>
    obtain ⟨stack, -, advanced⟩ : ∃ stack, s.threads[i]? = some stack ∧ s.advance C S i stack = some t := by
      simpa [step, Option.bind_eq_some_iff] using stepped
    exact advance_log advanced
  | respond i result =>
    simp only [step] at stepped
    split at stepped
    · obtain ⟨outcome, -, rfl⟩ := Option.map_eq_some_iff.mp stepped
      exact access_log fun _ => List.prefix_append ..
    · cases stepped
  | packet i code bytes =>
    simp only [step, Option.bind_eq_bind, Option.bind_eq_some_iff] at stepped
    obtain ⟨a, -, taken⟩ := stepped
    split at taken
    · cases taken
      exact List.prefix_append ..
    · cases taken

end

/-! ### Who may touch the object -/

/-- The stacks that have nothing left to do but return. -/
inductive Returns : List (Frame κ η ε) → Prop where
  | nil : Returns []
  | invoked {rest} : Returns rest → Returns (.invoked :: rest)
  | reported {h next rest} : Returns rest → Returns (.reported h :: .awaiting next none :: rest)
  | later {h next rest} : Returns rest → Returns (.done h .later :: .awaiting next none :: rest)

/-- What a working thread does to the object next: it runs a point of the code, or has the
system start an operation. -/
inductive Pending (κ φ ε : Type) where
  | point (point : κ)
  | operation (call : ε) (kind : φ) (next : κ)

section
variable {C : Code ω κ φ ρ ε} {S : Supply φ η σ} {s t : State ω κ η σ ε} {i : Nat}
  {stack rest : List (Frame κ η ε)}

/-- The stacks that go on to touch the object, and what they do to it next. -/
inductive Works (C : Code ω κ φ ρ ε) (S : Supply φ η σ) : List (Frame κ η ε) → Pending κ φ ε → Prop where
  | run {point rest} : Returns rest → Works C S (.run point :: rest) (.point point)
  | io {call h next rest} : Returns rest →
      Works C S (.io call h :: .awaiting next none :: rest) (.operation call (S.kind h) next)
  | now {h bytes next rest} : Returns rest →
      Works C S (.done h (.now bytes) :: .awaiting next none :: rest) (.point next)
  | failed {h code next rest} : Returns rest →
      Works C S (.done h (.failed code) :: .awaiting next none :: rest) (.point (C.entry (S.kind h) code 0))
  | invoke {h code bytes rest} : Returns rest →
      Works C S (.invoke h code bytes :: rest) (.point (C.entry (S.kind h) code bytes))

/-- A returning thread returns, and does nothing else. -/
theorem Returns.advance (returns : Returns stack) (stepped : s.advance C S i stack = some t) :
    ∃ rest, Returns rest ∧ t = s.goOn i rest := by
  cases returns with
  | nil => simp [State.advance] at stepped
  | invoked rest => exact ⟨_, rest, by simpa [State.advance] using stepped.symm⟩
  | reported rest => exact ⟨_, rest, by simpa [State.advance] using stepped.symm⟩
  | later rest => exact ⟨_, rest, by simpa [State.advance] using stepped.symm⟩

/-- A working thread is not a returning one. -/
theorem Works.not_returns {pending : Pending κ φ ε} (works : Works C S stack pending) : ¬Returns stack := by
  intro returns
  cases works <;> cases returns

/-! ### Assertions -/

/-- What a client asserts of the object and the log: before each thing a working thread
does, while a handler is attached, and after the last callback. -/
structure Assertion (ω κ φ ε : Type) where
  working : Pending κ φ ε → ω → List (Entry κ ε) → Prop
  waiting : φ → Option Nat → ω → List (Entry κ ε) → Prop
  ended : Option ω → List (Entry κ ε) → Prop

/-- The proof rules: one for each move of the code, each answer of the system, and the
arrival of a packet. `cond` is what may be assumed of an operation done at once. -/
structure Verified (C : Code ω κ φ ρ ε) (cond : κ → Nat → Prop) (A : Assertion ω κ φ ε) : Prop where
  leaves : C.Leaves
  goto : ∀ {point object log object' calls next}, A.working (.point point) object log →
    C.exec point object = .goto object' calls next →
    A.working (.point next) object' (log ++ calls.map Entry.call)
  start : ∀ {point object log object' call kind next}, A.working (.point point) object log →
    C.exec point object = .start object' call kind next none → A.working (.operation call kind next) object' log
  post : ∀ {point object log object' call kind bytes}, A.working (.point point) object log →
    C.exec point object = .post object' call kind bytes →
    A.waiting kind (some bytes) object' (log ++ [.call call])
  leave : ∀ {point object log object'}, A.working (.point point) object log →
    C.exec point object = .leave object' → A.ended (some object') log
  delete : ∀ {point object log}, A.working (.point point) object log →
    C.exec point object = .delete → A.ended none log
  now : ∀ {call kind next object log result bytes}, A.working (.operation call kind next) object log →
    C.respond call result = some (.now bytes) → cond next bytes →
    A.working (.point next) object (log ++ [.call call, .result (.now bytes)])
  later : ∀ {call kind next object log result}, A.working (.operation call kind next) object log →
    C.respond call result = some .later → A.waiting kind none object (log ++ [.call call, .result .later])
  failed : ∀ {call kind next object log result code}, A.working (.operation call kind next) object log →
    C.respond call result = some (.failed code) →
    A.working (.point (C.entry kind code 0)) object (log ++ [.call call, .result (.failed code)])
  packet : ∀ {kind posted object log code bytes}, A.waiting kind posted object log →
    (∀ n, posted = some n → code = 0 ∧ bytes = n) →
    A.working (.point (C.entry kind code bytes)) object (log ++ [.packet (C.entry kind code bytes)])

/-- One party at a time has the object: a single attached handler, or a single working
thread, or nobody any more. All other threads are returning. -/
inductive Phase (C : Code ω κ φ ρ ε) (S : Supply φ η σ) (A : Assertion ω κ φ ε) (s : State ω κ η σ ε) : Prop where
  | waiting (a : Attached η) (object : ω) (attached : s.attached = [a]) (present : s.object = some object)
      (others : ∀ stack ∈ s.threads, Returns stack)
      (holds : A.waiting (S.kind a.handler) a.posted object s.log)
  | working (i : Nat) (stack : List (Frame κ η ε)) (pending : Pending κ φ ε) (object : ω)
      (attached : s.attached = []) (present : s.object = some object)
      (running : s.threads[i]? = some stack) (works : Works C S stack pending)
      (others : ∀ (j : Nat) other, j ≠ i → s.threads[j]? = some other → Returns other)
      (holds : A.working pending object s.log)
  | ended (attached : s.attached = []) (others : ∀ stack ∈ s.threads, Returns stack)
      (holds : A.ended s.object s.log)

structure Sound (C : Code ω κ φ ρ ε) (S : Supply φ η σ) (A : Assertion ω κ φ ε) (s : State ω κ η σ ε) : Prop where
  phase : Phase C S A s
  faultless : s.fault = false

/-- What may be assumed of a choice: operations done at once meet `cond`. -/
def Permitted (C : Code ω κ φ ρ ε) (cond : κ → Nat → Prop) (s : State ω κ η σ ε) : Choice ρ → Prop
  | .respond i result => ∀ call h next otherwise rest bytes,
      s.threads[i]? = some (.io call h :: .awaiting next otherwise :: rest) →
      C.respond call result = some (.now bytes) → cond next bytes
  | _ => True

theorem returns_set {threads : List (List (Frame κ η ε))} (others : ∀ stack ∈ threads, Returns stack)
    (returns : Returns stack) : ∀ other ∈ threads.set i stack, Returns other := by
  intro other member
  rcases List.mem_or_eq_of_mem_set member with old | rfl
  · exact others other old
  · exact returns

theorem get_set_self {threads : List (List (Frame κ η ε))} (running : threads[i]? = some stack)
    (new : List (Frame κ η ε)) : (threads.set i new)[i]? = some new := by
  obtain ⟨inside, -⟩ := List.getElem?_eq_some_iff.mp running
  simp [inside]

theorem others_set {threads : List (List (Frame κ η ε))} (new : List (Frame κ η ε))
    (others : ∀ (j : Nat) other, j ≠ i → threads[j]? = some other → Returns other) :
    ∀ (j : Nat) other, j ≠ i → (threads.set i new)[j]? = some other → Returns other := by
  intro j other apart found
  rw [List.getElem?_set_ne (Ne.symm apart)] at found
  exact others j other apart found

/-- All threads return once the working one does. -/
theorem returns_all {threads : List (List (Frame κ η ε))} (running : threads[i]? = some stack)
    (others : ∀ (j : Nat) other, j ≠ i → threads[j]? = some other → Returns other) (returns : Returns rest) :
    ∀ other ∈ threads.set i rest, Returns other := by
  intro other member
  obtain ⟨j, found⟩ := List.mem_iff_getElem?.mp member
  by_cases same : j = i
  · subst same
    exact Option.some.inj ((get_set_self running rest).symm.trans found) ▸ returns
  · exact others_set rest others j other same found

/-! ### Soundness of the rules -/

variable {cond : κ → Nat → Prop} {A : Assertion ω κ φ ε}

/-- A returning thread changes nothing but its own stack. -/
theorem Sound.return {rest : List (Frame κ η ε)} (sound : Sound C S A s) (running : s.threads[i]? = some stack)
    (returns : Returns stack) (returns' : Returns rest) : Sound C S A (s.goOn i rest) := by
  refine ⟨?_, sound.faultless⟩
  cases sound.phase with
  | waiting a object attached present others holds =>
    exact .waiting a object attached present (returns_set others returns') holds
  | working j stack' pending object attached present running' works others holds =>
    have apart : j ≠ i := by
      rintro rfl
      exact works.not_returns (Option.some.inj (running.symm.trans running') ▸ returns)
    refine .working j stack' pending object attached present
      (by rwa [State.goOn, List.getElem?_set_ne (Ne.symm apart)]) works (fun k other away found => ?_) holds
    by_cases here : k = i
    · subst here
      exact Option.some.inj ((get_set_self running rest).symm.trans found) ▸ returns'
    · rw [State.goOn, List.getElem?_set_ne (Ne.symm here)] at found
      exact others k other away found
  | ended attached others holds => exact .ended attached (returns_set others returns') holds

/-- What a working thread does to an object at a point of its code. -/
theorem perform_sound (verified : Verified C cond A) {point : κ} {object : ω} (attached : s.attached = [])
    (faultless : s.fault = false) (running : s.threads[i]? = some stack)
    (others : ∀ (j : Nat) other, j ≠ i → s.threads[j]? = some other → Returns other) (returns : Returns rest)
    (holds : A.working (.point point) object s.log) :
    Sound C S A (s.perform S i rest (C.exec point object)) := by
  cases move : C.exec point object with
  | goto object' calls next =>
    exact ⟨.working i _ _ object' attached rfl (get_set_self running _) (.run returns)
      (others_set _ others) (verified.goto holds move), faultless⟩
  | start object' call kind next otherwise =>
    obtain rfl := verified.leaves _ _ _ _ _ _ _ move
    have holds' := verified.start holds move
    rw [← S.kind_make kind s.store] at holds'
    exact ⟨.working i _ _ object' attached rfl (get_set_self running _) (.io returns)
      (others_set _ others) holds', faultless⟩
  | post object' call kind bytes =>
    have holds' := verified.post holds move
    rw [← S.kind_make kind s.store] at holds'
    exact ⟨.waiting ⟨_, some bytes⟩ object' (by simp [State.perform, State.goOn, attached]) rfl
      (returns_all running others returns) holds', faultless⟩
  | leave object' =>
    exact ⟨.ended attached (returns_all running others returns) (verified.leave holds move), faultless⟩
  | delete =>
    exact ⟨.ended attached (returns_all running others returns) (verified.delete holds move), faultless⟩

theorem Sound.thread (verified : Verified C cond A) (sound : Sound C S A s)
    (stepped : step C S s (.thread i) = some t) : Sound C S A t := by
  obtain ⟨stack, running, advanced⟩ : ∃ stack, s.threads[i]? = some stack ∧ s.advance C S i stack = some t := by
    simpa [step, Option.bind_eq_some_iff] using stepped
  by_cases returns : Returns stack
  · obtain ⟨rest, returns', rfl⟩ := returns.advance advanced
    exact sound.return running returns returns'
  · obtain ⟨phase, faultless⟩ := sound
    cases phase with
    | waiting a object attached present others holds =>
      exact absurd (others stack (List.mem_of_getElem? running)) returns
    | ended attached others holds => exact absurd (others stack (List.mem_of_getElem? running)) returns
    | working j stack' pending object attached present running' works others holds =>
      obtain rfl : i = j := by
        by_contra apart
        exact returns (others i stack apart running)
      obtain rfl := Option.some.inj (running.symm.trans running')
      cases works with
      | run below =>
        simp only [State.advance, State.access, present, Option.some.injEq] at advanced
        exact advanced ▸ perform_sound verified attached faultless running others below holds
      | io below => simp [State.advance] at advanced
      | now below =>
        simp only [State.advance, Option.some.injEq] at advanced
        exact advanced ▸ ⟨.working i _ _ object attached present (get_set_self running _) (.run below)
          (others_set _ others) holds, faultless⟩
      | failed below =>
        simp only [State.advance, Option.some.injEq] at advanced
        exact advanced ▸ ⟨.working i _ _ object attached present (get_set_self running _)
          (.invoke (.reported below)) (others_set _ others) holds, faultless⟩
      | invoke below =>
        simp only [State.advance, State.access, present, ite_self, Option.some.injEq] at advanced
        exact advanced ▸ ⟨.working i _ _ object attached present (get_set_self running _)
          (.run (.invoked below)) (others_set _ others) holds, faultless⟩

theorem Sound.respond {result : ρ} (verified : Verified C cond A) (sound : Sound C S A s)
    (permitted : Permitted C cond s (.respond i result)) (stepped : step C S s (.respond i result) = some t) :
    Sound C S A t := by
  obtain ⟨call, h, rest, running, outcome, responded, rfl⟩ : ∃ call h rest,
      s.threads[i]? = some (.io call h :: rest) ∧ ∃ outcome, C.respond call result = some outcome ∧
        s.answer i call h rest outcome = t := by
    simp only [step] at stepped
    split at stepped
    · next call h rest running =>
      obtain ⟨outcome, responded, answered⟩ := Option.map_eq_some_iff.mp stepped
      exact ⟨call, h, rest, running, outcome, responded, answered⟩
    · cases stepped
  have busy : ¬Returns (.io call h :: rest : List (Frame κ η ε)) := by
    intro returns
    cases returns
  obtain ⟨phase, faultless⟩ := sound
  cases phase with
  | waiting a object attached present others holds =>
    exact absurd (others _ (List.mem_of_getElem? running)) busy
  | ended attached others holds => exact absurd (others _ (List.mem_of_getElem? running)) busy
  | working j stack' pending object attached present running' works others holds =>
    obtain rfl : i = j := by
      by_contra apart
      exact busy (others i _ apart running)
    obtain rfl := Option.some.inj (running.symm.trans running')
    cases works with
    | @io _ _ next rest below =>
      simp only [State.answer, State.access, present]
      cases outcome with
      | now bytes =>
        have allowed := permitted call h next none rest bytes running responded
        exact ⟨.working i _ _ object (by simpa [State.goOn] using attached) rfl (get_set_self running _)
          (.now below) (others_set _ others) (verified.now holds responded allowed), faultless⟩
      | later =>
        exact ⟨.waiting ⟨h, none⟩ object (by simp [State.goOn, attached]) rfl
          (returns_all running others (.later below)) (verified.later holds responded), faultless⟩
      | failed code =>
        exact ⟨.working i _ _ object (by simpa [State.goOn] using attached) rfl (get_set_self running _)
          (.failed below) (others_set _ others) (verified.failed holds responded), faultless⟩

theorem Sound.packet {code bytes : Nat} (verified : Verified C cond A) (sound : Sound C S A s)
    (stepped : step C S s (.packet i code bytes) = some t) : Sound C S A t := by
  obtain ⟨a, taken, allows, rfl⟩ : ∃ a, s.attached[i]? = some a ∧ a.Allows code bytes ∧
      { s with
        attached := s.attached.eraseIdx i
        threads := s.threads ++ [[.invoke a.handler code bytes]]
        log := s.log ++ [.packet (C.entry (S.kind a.handler) code bytes)] } = t := by
    simpa [step, Option.bind_eq_some_iff] using stepped
  obtain ⟨phase, faultless⟩ := sound
  cases phase with
  | working j stack' pending object attached present running' works others holds => simp [attached] at taken
  | ended attached others holds => simp [attached] at taken
  | waiting a' object attached present others holds =>
    obtain ⟨rfl, rfl⟩ : i = 0 ∧ a' = a := by
      cases i with
      | zero => simpa [attached] using taken
      | succ i => simp [attached] at taken
    refine ⟨.working s.threads.length _ _ object (by simp [attached]) present (by simp) (.invoke .nil)
      (fun j other apart found => ?_) (verified.packet holds allows), faultless⟩
    rcases Nat.lt_or_ge j s.threads.length with inside | outside
    · rw [List.getElem?_append_left inside] at found
      exact others other (List.mem_of_getElem? found)
    · rw [List.getElem?_eq_none (by simp; omega)] at found
      cases found

/-- One step keeps a verified object sound. -/
theorem Sound.step {choice : Choice ρ} (verified : Verified C cond A) (sound : Sound C S A s)
    (permitted : Permitted C cond s choice) (stepped : Callback.step C S s choice = some t) :
    Sound C S A t := by
  cases choice with
  | thread i => exact sound.thread verified stepped
  | respond i result => exact sound.respond verified permitted stepped
  | packet i code bytes => exact sound.packet verified stepped

/-- And so does every run. -/
theorem Sound.run {choices : List (Choice ρ)} (verified : Verified C cond A) (sound : Sound C S A s)
    (path : run (Callback.step C S) s choices = some t)
    (permitted : Meets (Callback.step C S) (Permitted C cond) s choices) : Sound C S A t :=
  run_invariant_of_meets (fun _ _ _ sound permitted stepped => sound.step verified permitted stepped)
    path permitted sound

theorem Sound.attached_le_one (sound : Sound C S A s) : s.attached.length ≤ 1 := by
  cases sound.phase with
  | waiting a object attached => simp [attached]
  | working i stack pending object attached => simp [attached]
  | ended attached => simp [attached]

theorem Sound.gone (sound : Sound C S A s) (gone : s.object = none) : A.ended none s.log := by
  cases sound.phase with
  | waiting a object attached present => cases gone.symm.trans present
  | working i stack pending object attached present => cases gone.symm.trans present
  | ended attached others holds => exact gone ▸ holds

/-- An object about to run a point of its code on the only thread. -/
def State.launch (object : ω) (store : σ) (point : κ) : State ω κ η σ ε where
  object := some object
  store := store
  threads := [[.run point]]

theorem launch_sound {object : ω} {store : σ} {point : κ} (holds : A.working (.point point) object []) :
    Sound C S A (State.launch object store point) := by
  refine ⟨.working 0 _ _ object rfl rfl rfl (.run .nil) (fun j other apart found => ?_) holds, rfl⟩
  have outside : j ≠ 0 := apart
  rw [State.launch, List.getElem?_eq_none (by simp; omega)] at found
  cases found

/-- The assertion that says nothing. -/
def unconstrained : Assertion ω κ φ ε := ⟨fun _ _ _ => True, fun _ _ _ _ => True, fun _ _ => True⟩

theorem unconstrained_verified (leaves : C.Leaves) (cond : κ → Nat → Prop) : Verified C cond unconstrained := by
  constructor
  · exact leaves
  all_goals intros; trivial

theorem permitted_any (s : State ω κ η σ ε) (choice : Choice ρ) : Permitted C (fun _ _ => True) s choice := by
  cases choice <;> simp [Permitted]

theorem meets_any (choices : List (Choice ρ)) :
    Meets (step C S) (Permitted C fun _ _ => True) s choices :=
  meets_of_forall fun choice _ s => permitted_any s choice

/-! ### Handlers do not matter -/

/-- One handler of each kind, made once and used again and again. -/
def reuse (inside : φ → Bool) : Supply φ φ Unit where
  kind := id
  inside := inside
  make which _ := (which, ())
  discard _ _ := ()
  kind_make _ _ := rfl

def Frame.mapHandler {η' : Type} (f : η → η') : Frame κ η ε → Frame κ η' ε
  | .run point => .run point
  | .io call h => .io call (f h)
  | .awaiting next otherwise => .awaiting next otherwise
  | .done h outcome => .done (f h) outcome
  | .reported h => .reported (f h)
  | .invoke h code bytes => .invoke (f h) code bytes
  | .invoked => .invoked

theorem mapHandler_run {η' : Type} (f : η → η') : (Frame.mapHandler f ∘ .run : κ → Frame κ η' ε) = .run := rfl

/-- All that is left of a handler is its kind. -/
def State.forget (S : Supply φ η σ) (s : State ω κ η σ ε) : State ω κ φ Unit ε where
  object := s.object
  store := ()
  attached := s.attached.map fun a => ⟨S.kind a.handler, a.posted⟩
  threads := s.threads.map fun stack => stack.map (Frame.mapHandler S.kind)
  log := s.log
  fault := s.fault

theorem forget_goOn (s : State ω κ η σ ε) (stack : List (Frame κ η ε)) :
    (s.goOn i stack).forget S = (s.forget S).goOn i (stack.map (Frame.mapHandler S.kind)) := by
  simp [State.forget, State.goOn, List.map_set]

theorem forget_perform (inside : φ → Bool) (s : State ω κ η σ ε) (rest : List (Frame κ η ε)) (move : Move ω κ φ ε) :
    (s.perform S i rest move).forget S =
      (s.forget S).perform (reuse inside) i (rest.map (Frame.mapHandler S.kind)) move := by
  cases move <;>
    simp [State.perform, State.forget, State.goOn, List.map_set, Frame.mapHandler, reuse, S.kind_make]

theorem forget_advance (inside : φ → Bool) (s : State ω κ η σ ε) (present : ∀ h code bytes rest,
      stack = .invoke h code bytes :: rest → s.object ≠ none) :
    (s.advance C S i stack).map (State.forget S) =
      (s.forget S).advance C (reuse inside) i (stack.map (Frame.mapHandler S.kind)) := by
  cases stack with
  | nil => rfl
  | cons top rest =>
    cases top with
    | run point =>
      simp only [State.advance, List.map_cons, Frame.mapHandler, Option.map_some, State.access]
      cases object : s.object with
      | none => simp [State.forget, object]
      | some object' =>
        have object_eq : (s.forget S).object = some object' := object
        simp only [object_eq, forget_perform inside]
    | io call h => rfl
    | awaiting next otherwise => rfl
    | done h outcome =>
      rcases rest with _ | ⟨below, rest⟩
      · cases outcome <;> rfl
      · cases below <;> cases outcome <;>
          simp [State.advance, Frame.mapHandler, mapHandler_run, State.forget, State.goOn, List.map_set, reuse]
    | reported h =>
      rcases rest with _ | ⟨below, rest⟩
      · rfl
      · cases below <;> simp [State.advance, Frame.mapHandler, mapHandler_run, forget_goOn]
    | invoke h code bytes =>
      obtain ⟨object, present⟩ := Option.ne_none_iff_exists'.mp (present h code bytes rest rfl)
      have object_eq : (s.forget S).object = some object := present
      simp [State.advance, Frame.mapHandler, forget_goOn, State.access, present, object_eq, reuse]
    | invoked => simp [State.advance, Frame.mapHandler, forget_goOn]

theorem forget_thread (inside : φ → Bool) (sound : Sound C S unconstrained s) (i : Nat) :
    (step (ρ := ρ) C S s (.thread i)).map (State.forget S) = step C (reuse inside) (s.forget S) (.thread i) := by
  cases running : s.threads[i]? with
  | none => simp [step, State.forget, running]
  | some stack =>
    have running' : (s.forget S).threads[i]? = some (stack.map (Frame.mapHandler S.kind)) := by
      simp [State.forget, running]
    simp only [step, running, running', Option.bind_some]
    apply forget_advance
    rintro h code bytes rest rfl
    have busy : ¬Returns (.invoke h code bytes :: rest : List (Frame κ η ε)) := by
      intro returns
      cases returns
    cases sound.phase with
    | waiting a object attached present => simp [present]
    | working j stack pending object attached present => simp [present]
    | ended attached others => exact absurd (others _ (List.mem_of_getElem? running)) busy

theorem forget_respond (inside : φ → Bool) (s : State ω κ η σ ε) (i : Nat) (result : ρ) :
    (step C S s (.respond i result)).map (State.forget S) =
      step C (reuse inside) (s.forget S) (.respond i result) := by
  cases running : s.threads[i]? with
  | none => simp [step, State.forget, running]
  | some stack =>
    have running' : (s.forget S).threads[i]? = some (stack.map (Frame.mapHandler S.kind)) := by
      simp [State.forget, running]
    simp only [step, running, running']
    rcases stack with _ | ⟨top, rest⟩
    · rfl
    · cases top with
      | io call h =>
        simp only [List.map_cons, Frame.mapHandler]
        cases C.respond call result with
        | none => rfl
        | some outcome =>
          cases object : s.object with
          | none => simp [State.answer, State.access, State.forget, object]
          | some object' =>
            by_cases later : outcome = .later <;>
              simp [State.answer, State.access, State.forget, object, State.goOn, List.map_set,
                Frame.mapHandler, later]
      | _ => rfl

theorem forget_packet (inside : φ → Bool) (s : State ω κ η σ ε) (i code bytes : Nat) :
    (step (ρ := ρ) C S s (.packet i code bytes)).map (State.forget S) =
      step C (reuse inside) (s.forget S) (.packet i code bytes) := by
  cases taken : s.attached[i]? with
  | none => simp [step, State.forget, taken]
  | some a =>
    have taken' : (s.forget S).attached[i]? = some ⟨S.kind a.handler, a.posted⟩ := by
      simp [State.forget, taken]
    by_cases allows : a.Allows code bytes
    · have allows' : Attached.Allows ⟨S.kind a.handler, a.posted⟩ code bytes := allows
      simp [step, taken, allows, allows', State.forget, Frame.mapHandler, reuse, List.eraseIdx_map]
    · have refused : ¬Attached.Allows ⟨S.kind a.handler, a.posted⟩ code bytes := allows
      simp [step, taken, taken', allows, refused]

/-- Whatever its supply, a sound object does step by step what it would do with one
handler of each kind. -/
theorem forget_step (inside : φ → Bool) (sound : Sound C S unconstrained s) (choice : Choice ρ) :
    (step C S s choice).map (State.forget S) = step C (reuse inside) (s.forget S) choice := by
  cases choice with
  | thread i => exact forget_thread inside sound i
  | respond i result => exact forget_respond inside s i result
  | packet i code bytes => exact forget_packet inside s i code bytes

theorem forget_run (inside : φ → Bool) (leaves : C.Leaves) (sound : Sound C S unconstrained s)
    (choices : List (Choice ρ)) :
    (run (step C S) s choices).map (State.forget S) = run (step C (reuse inside)) (s.forget S) choices :=
  run_map (Sound C S unconstrained)
    (fun s choice _ sound stepped => sound.step (unconstrained_verified leaves _) (permitted_any s choice) stepped)
    (fun _ choice sound => forget_step inside sound choice) sound

end

end Await.General.Callback
