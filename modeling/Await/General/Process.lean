import Await.General.Transition
import Mathlib.Data.List.Basic
import Mathlib.Data.List.ReduceOption

/-! Objects that live by asynchronous operations. Such an object starts operations, reacts
to their results, and is destroyed in one of its reactions. A class of callbacks is one;
so is a coroutine, whose frame is the object. -/

namespace Await.General.Process
open Transition

/-- What comes of a reaction: the object stays, with the operations it has started, or it
is destroyed. Either way it may have had other effects. -/
inductive Reaction (σ ο ε : Type) where
  | goOn (object : σ) (effects : List ε) (started : List ο)
  | destroyed (effects : List ε)

/-- A reaction is undefined for a result that is none of this operation. -/
structure Actor (σ ο ρ ε : Type) where
  begin : Reaction σ ο ε
  react : σ → ο → ρ → Option (Reaction σ ο ε)

/-- The object (`none` once destroyed), its operations in flight, and a record of the
operations it has started, of its effects, and of its destructions. -/
structure State (σ ο ε : Type) where
  object : Option σ := none
  inFlight : List ο := []
  operations : List ο := []
  effects : List ε := []
  destructions : Nat := 0

variable {σ τ ο ρ ε δ : Type}

def State.after (s : State σ ο ε) : Reaction σ ο ε → State σ ο ε
  | .goOn object effects started => { s with
      object := some object
      inFlight := s.inFlight ++ started
      operations := s.operations ++ started
      effects := s.effects ++ effects }
  | .destroyed effects => { s with
      object := none
      effects := s.effects ++ effects
      destructions := s.destructions + 1 }

def start (P : Actor σ ο ρ ε) : State σ ο ε := State.after {} P.begin

/-- One of the operations in flight completes. No step is defined on an object that has
been destroyed. -/
def step (P : Actor σ ο ρ ε) (s : State σ ο ε) (choice : Nat × ρ) : Option (State σ ο ε) := do
  let operation ← s.inFlight[choice.1]?
  let object ← s.object
  let reaction ← P.react object operation choice.2
  some (State.after { s with inFlight := s.inFlight.eraseIdx choice.1 } reaction)

/-- Results are handed to the oldest operation in flight as long as they fit it. The rest
of them comes back. -/
def feed (P : Actor σ ο ρ ε) (s : State σ ο ε) : List ρ → State σ ο ε × List ρ
  | [] => (s, [])
  | result :: later =>
    match step P s (0, result) with
    | some t => feed P t later
    | none => (s, result :: later)

/-- An object from its beginning, with a script of results. -/
def drive (P : Actor σ ο ρ ε) (script : List ρ) : State σ ο ε × List ρ := feed P (start P) script

section
variable {P : Actor σ ο ρ ε} {s t : State σ ο ε} {results later : List ρ} {result : ρ}

theorem feed_cons (stepped : step P s (0, result) = some t) :
    feed P s (result :: later) = feed P t later := by
  simp [feed, stepped]

theorem feed_stuck (stuck : step P s (0, result) = none) :
    feed P s (result :: later) = (s, result :: later) := by
  simp [feed, stuck]

/-- With nothing in flight no result is taken. -/
theorem feed_idle (idle : s.inFlight = []) : feed P s results = (s, results) := by
  cases results with
  | nil => rfl
  | cons result later => exact feed_stuck (by simp [step, idle])

/-- The results taken drive the object from state to state. -/
theorem feed_run (P : Actor σ ο ρ ε) (s : State σ ο ε) (results : List ρ) :
    ∃ used, results = used ++ (feed P s results).2 ∧
      run (step P) s (used.map fun result => (0, result)) = some (feed P s results).1 := by
  induction results generalizing s with
  | nil => exact ⟨[], rfl, rfl⟩
  | cons result later ih =>
    cases stepped : step P s (0, result) with
    | none => exact ⟨[], by simp [feed_stuck stepped], by simp [feed_stuck stepped]⟩
    | some t =>
      obtain ⟨used, split, path⟩ := ih t
      rw [feed_cons stepped]
      refine ⟨result :: used, ?_, ?_⟩
      · rw [List.cons_append, ← split]
      · rw [List.map_cons]
        exact run_cons.mpr ⟨t, stepped, path⟩

/-- A result that comes back is none of the operation waited for. -/
theorem feed_rest (rest : (feed P s results).2 = result :: later) :
    step P (feed P s results).1 (0, result) = none := by
  induction results generalizing s with
  | nil => cases rest
  | cons first results ih =>
    cases stepped : step P s (0, first) with
    | none =>
      rw [feed_stuck stepped] at rest ⊢
      obtain ⟨rfl, -⟩ := List.cons.inj rest
      exact stepped
    | some t =>
      rw [feed_cons stepped] at rest ⊢
      exact ih rest

/-! ### One operation at a time -/

/-- A reaction that leaves the object with one operation to wait for. -/
def Reaction.Single : Reaction σ ο ε → Prop
  | .goOn _ _ started => started.length = 1
  | .destroyed _ => True

/-- No reaction starts more than one operation, and none leaves the object without one. -/
structure Sequential (P : Actor σ ο ρ ε) : Prop where
  begin : P.begin.Single
  react : ∀ object operation result reaction,
    P.react object operation result = some reaction → reaction.Single

/-- The object waits for one operation, or it has been destroyed once and for all. -/
inductive Orderly (s : State σ ο ε) : Prop where
  | waiting (object : σ) (operation : ο) (present : s.object = some object)
      (single : s.inFlight = [operation]) (alive : s.destructions = 0)
  | gone (absent : s.object = none) (idle : s.inFlight = []) (once : s.destructions = 1)

theorem orderly_after {reaction : Reaction σ ο ε} (single : reaction.Single) (idle : s.inFlight = [])
    (alive : s.destructions = 0) : Orderly (s.after reaction) := by
  cases reaction with
  | goOn object effects started =>
    obtain ⟨operation, rfl⟩ := List.length_eq_one_iff.mp single
    exact .waiting object operation rfl (by simp [State.after, idle]) alive
  | destroyed effects => exact .gone rfl idle (by simp [State.after, alive])

/-- What a step of an object that waits for one operation is. -/
theorem step_single {object : σ} {operation : ο} {choice : Nat × ρ} (present : s.object = some object)
    (single : s.inFlight = [operation]) (stepped : step P s choice = some t) :
    choice.1 = 0 ∧ ∃ reaction, P.react object operation choice.2 = some reaction ∧
      t = State.after { s with inFlight := [] } reaction := by
  obtain ⟨index, result⟩ := choice
  cases index with
  | succ index => simp [step, single] at stepped
  | zero =>
    cases reacted : P.react object operation result with
    | none => simp [step, single, present, reacted] at stepped
    | some reaction => exact ⟨rfl, reaction, rfl, by simpa [step, single, present, reacted] using stepped.symm⟩

theorem step_of_react {object : σ} {operation : ο} {reaction : Reaction σ ο ε} (present : s.object = some object)
    (single : s.inFlight = [operation]) (reacted : P.react object operation result = some reaction) :
    step P s (0, result) = some (State.after { s with inFlight := [] } reaction) := by
  simp [step, single, present, reacted]

theorem step_of_misfit {object : σ} {operation : ο} (present : s.object = some object)
    (single : s.inFlight = [operation]) (misfit : P.react object operation result = none) :
    step P s (0, result) = none := by
  simp [step, single, present, misfit]

theorem react_of_stuck {object : σ} {operation : ο} (present : s.object = some object)
    (single : s.inFlight = [operation]) (stuck : step P s (0, result) = none) :
    P.react object operation result = none := by
  cases reacted : P.react object operation result with
  | none => rfl
  | some reaction =>
    rw [step_of_react present single reacted] at stuck
    cases stuck

theorem Sequential.start_orderly (sequential : Sequential P) : Orderly (start P) :=
  orderly_after sequential.begin rfl rfl

theorem Sequential.step (sequential : Sequential P) {choice : Nat × ρ} (orderly : Orderly s)
    (stepped : step P s choice = some t) : Orderly t := by
  cases orderly with
  | waiting object operation present single alive =>
    obtain ⟨-, reaction, reacted, rfl⟩ := step_single present single stepped
    exact orderly_after (sequential.react _ _ _ _ reacted) rfl alive
  | gone absent idle once => simp [Process.step, idle] at stepped

/-- Every run comes from handing over its results one by one. -/
def Driven (P : Actor σ ο ρ ε) : Prop :=
  ∀ choices t, run (step P) (start P) choices = some t → drive P (choices.map Prod.snd) = (t, [])

/-- There is only one order to complete the operations in. -/
theorem Sequential.driven (sequential : Sequential P) : Driven P := by
  have onward : ∀ (choices : List (Nat × ρ)) (s t : State σ ο ε), Orderly s →
      Transition.run (Process.step P) s choices = some t → Process.feed P s (choices.map Prod.snd) = (t, []) := by
    intro choices
    induction choices with
    | nil =>
      intro s t _ path
      obtain rfl : s = t := by simpa using path
      rfl
    | cons choice choices ih =>
      intro s t orderly path
      obtain ⟨next, stepped, tail⟩ := run_cons.mp path
      have first : choice.1 = 0 := by
        cases orderly with
        | waiting object operation present single alive => exact (step_single present single stepped).1
        | gone absent idle once => simp [Process.step, idle] at stepped
      obtain ⟨index, result⟩ := choice
      obtain rfl : index = 0 := first
      rw [List.map_cons, feed_cons stepped]
      exact ih next t (sequential.step orderly stepped) tail
  exact fun choices t path => onward choices _ t sequential.start_orderly path

end

/-! ### The same operations

One actor destroys itself on the spot, the other posts its destruction as a function of its
own, the operation `none`, and is destroyed when that function runs. -/

section
variable {P : Actor σ (Option ο) (Option ρ) ε} {Q : Actor τ ο ρ δ} {R : ο → σ → τ → Prop}
  {s : State σ (Option ο) ε} {t : State τ ο δ} {result : ρ}

inductive Matches (R : ο → σ → τ → Prop) : Reaction σ (Option ο) ε → Reaction τ ο δ → Prop where
  | goOn {a b effects effects' operation} : R operation a b →
      Matches R (.goOn a effects [some operation]) (.goOn b effects' [operation])
  | closing {a effects effects'} : Matches R (.goOn a effects [none]) (.destroyed effects')

/-- Objects that wait for the same operation and are related for it react alike, and the
first one's posted function destroys it. -/
structure Follows (P : Actor σ (Option ο) (Option ρ) ε) (Q : Actor τ ο ρ δ) (R : ο → σ → τ → Prop) : Prop where
  begin : Matches R P.begin Q.begin
  react : ∀ a b operation result, R operation a b →
    P.react a (some operation) (some result) = none ∧ Q.react b operation result = none ∨
      ∃ first second, P.react a (some operation) (some result) = some first ∧
        Q.react b operation result = some second ∧ Matches R first second
  posted : ∀ a result, P.react a none (some result) = none
  unposted : ∀ a operation, P.react a (some operation) none = none
  closes : ∀ a, ∃ effects, P.react a none none = some (.destroyed effects)

/-- Both objects wait for the same operation, or the second one is gone and the first one
waits for its posted function. -/
inductive Agree (R : ο → σ → τ → Prop) (s : State σ (Option ο) ε) (t : State τ ο δ) : Prop where
  | waiting (a : σ) (b : τ) (operation : ο) (related : R operation a b) (first : s.object = some a)
      (second : t.object = some b) (flight : s.inFlight = [some operation]) (flight' : t.inFlight = [operation])
      (same : s.operations = t.operations.map some) (alive : s.destructions = 0) (alive' : t.destructions = 0)
  | closing (a : σ) (first : s.object = some a) (second : t.object = none) (flight : s.inFlight = [none])
      (idle : t.inFlight = []) (same : s.operations = t.operations.map some ++ [none])
      (alive : s.destructions = 0) (once : t.destructions = 1)

theorem agree_after {first : Reaction σ (Option ο) ε} {second : Reaction τ ο δ} (alike : Matches R first second)
    (flight : s.inFlight = []) (flight' : t.inFlight = []) (same : s.operations = t.operations.map some)
    (alive : s.destructions = 0) (alive' : t.destructions = 0) : Agree R (s.after first) (t.after second) := by
  cases alike with
  | @goOn a b _ _ operation related =>
    exact .waiting a b operation related rfl rfl (by simp [State.after, flight]) (by simp [State.after, flight'])
      (by simp [State.after, same]) alive alive'
  | @closing a =>
    exact .closing a rfl rfl (by simp [State.after, flight]) flight' (by simp [State.after, same]) alive
      (by simp [State.after, alive'])

theorem Follows.start (follows : Follows P Q R) : Agree R (start P) (start Q) :=
  agree_after follows.begin rfl rfl rfl rfl rfl

/-- A result moves both actors or neither. -/
theorem Follows.step (follows : Follows P Q R) (agree : Agree R s t) (result : ρ) :
    step P s (0, some result) = none ∧ step Q t (0, result) = none ∨
      ∃ s' t', step P s (0, some result) = some s' ∧ step Q t (0, result) = some t' ∧ Agree R s' t' := by
  cases agree with
  | waiting a b operation related first second flight flight' same alive alive' =>
    rcases follows.react a b operation result related with ⟨misfit, misfit'⟩ | ⟨ra, rb, reacted, reacted', alike⟩
    · exact .inl ⟨step_of_misfit first flight misfit, step_of_misfit second flight' misfit'⟩
    · exact .inr ⟨_, _, step_of_react first flight reacted, step_of_react second flight' reacted',
        agree_after alike rfl rfl same alive alive'⟩
  | closing a first second flight idle same alive once =>
    exact .inl ⟨step_of_misfit first flight (follows.posted a result), by simp [Process.step, idle]⟩

/-- Both actors take the same results of a script and start the same operations. -/
theorem Follows.feed (follows : Follows P Q R) (agree : Agree R s t) (results : List ρ) :
    (feed P s (results.map some)).2 = (feed Q t results).2.map some ∧
      Agree R (feed P s (results.map some)).1 (feed Q t results).1 := by
  induction results generalizing s t with
  | nil => exact ⟨rfl, agree⟩
  | cons result later ih =>
    rw [List.map_cons]
    rcases follows.step agree result with ⟨stuck, stuck'⟩ | ⟨s', t', stepped, stepped', agree'⟩
    · rw [feed_stuck stuck, feed_stuck stuck']
      exact ⟨rfl, agree⟩
    · rw [feed_cons stepped, feed_cons stepped']
      exact ih agree'

theorem Follows.drive (follows : Follows P Q R) (script : List ρ) :
    Agree R (drive P (script.map some)).1 (drive Q script).1 :=
  (follows.feed follows.start script).2

/-- The posted function runs, if there is one. -/
def settle (P : Actor σ (Option ο) (Option ρ) ε) (s : State σ (Option ο) ε) : State σ (Option ο) ε :=
  (Process.step P s (0, none)).getD s

/-- The state without the posted functions. -/
def State.visible (s : State σ (Option ο) ε) : State σ ο ε :=
  { s with inFlight := s.inFlight.reduceOption, operations := s.operations.reduceOption }

theorem reduceOption_map_some (operations : List ο) : (operations.map some).reduceOption = operations := by
  simp [List.reduceOption]

/-- Once the posted function has run, the two actors cannot be told apart. -/
theorem Follows.settle (follows : Follows P Q R) (agree : Agree R s t) :
    (Process.settle P s).visible.inFlight = t.inFlight ∧ (Process.settle P s).visible.operations = t.operations ∧
      (Process.settle P s).destructions = t.destructions ∧
      ((Process.settle P s).object.isSome ↔ t.object.isSome) := by
  cases agree with
  | waiting a b operation related first second flight flight' same alive alive' =>
    have stays : Process.settle P s = s := by
      rw [Process.settle, step_of_misfit first flight (follows.unposted a operation)]
      rfl
    rw [stays]
    refine ⟨?_, ?_, ?_, ?_⟩
    · simp [State.visible, flight, flight']
    · simp [State.visible, same, reduceOption_map_some]
    · rw [alive, alive']
    · simp [first, second]
  | closing a first second flight idle same alive once =>
    obtain ⟨effects, closed⟩ := follows.closes a
    have ends : Process.settle P s = State.after { s with inFlight := [] } (.destroyed effects) := by
      rw [Process.settle, step_of_react first flight closed]
      rfl
    rw [ends]
    refine ⟨?_, ?_, ?_, ?_⟩
    · simp [State.visible, State.after, idle]
    · simp [State.visible, State.after, same, List.reduceOption_append, reduceOption_map_some]
    · simp [State.after, alive, once]
    · simp [State.after, second]

end

end Await.General.Process
