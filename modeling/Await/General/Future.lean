import Await.General.Process

/-! Results that come to an object through a future. The thread that runs the object looks
whether the future is ready, and attaches a continuation to it if it is not; in the meantime
the operation completes on another thread. Whichever of them comes second runs the object on. -/

namespace Await.General.Future
open Process Transition

/-- What a promise shares with its future: nothing yet, a continuation, or a result. -/
inductive Cell (ρ : Type) where
  | empty
  | attached
  | ready (result : ρ)

/-- Where the thread of the object is: it has the future, it has found it not ready, or it
has attached the continuation and gone away. -/
inductive Stage where
  | fresh | checked | away
  deriving DecidableEq, Repr

/-- An object with the future of the operation it waits for. -/
structure State (σ ο ρ ε : Type) where
  process : Process.State σ ο ε
  cell : Cell ρ := .empty
  stage : Stage := .fresh

inductive Choice (ρ : Type) where
  | complete (result : ρ)
  | proceed

variable {σ ο ρ ε : Type}

/-- The object gets the result and runs to its next operation, which has a future of its own. -/
def resume (P : Actor σ ο ρ ε) (result : ρ) (s : State σ ο ρ ε) : Option (State σ ο ρ ε) :=
  (Process.step P s.process (0, result)).map fun process => { process }

/-- An operation completes with a result of its own: the continuation runs, if there is one,
and else the result is kept. The thread of the object, when it finds the result, runs the
object on itself. -/
def step (P : Actor σ ο ρ ε) (s : State σ ο ρ ε) : Choice ρ → Option (State σ ο ρ ε)
  | .complete result =>
      match s.cell with
      | .attached => resume P result s
      | .empty =>
          if (Process.step P s.process (0, result)).isSome then some { s with cell := .ready result } else none
      | .ready _ => none
  | .proceed =>
      if s.process.inFlight.isEmpty then none
      else
        match s.stage, s.cell with
        | .away, _ => none
        | _, .ready result => resume P result s
        | .fresh, _ => some { s with stage := .checked }
        | .checked, _ => some { s with cell := .attached, stage := .away }

def start (P : Actor σ ο ρ ε) : State σ ο ρ ε where
  process := Process.start P

/-- The results of the operations that have completed. -/
def completed (choices : List (Choice ρ)) : List ρ :=
  choices.filterMap fun
    | .complete result => some result
    | .proceed => none

/-- The looks at a future and the continuations attached. -/
def proceeds (choices : List (Choice ρ)) : Nat :=
  choices.countP fun
    | .complete _ => false
    | .proceed => true

/-- The result that the object has not been given. -/
def Cell.kept : Cell ρ → List ρ
  | .ready result => [result]
  | .empty | .attached => []

/-- The object is where the results that it has been given take it, all but the one that is
kept, and the thread goes away only with the continuation attached. -/
structure Handed (P : Actor σ ο ρ ε) (results : List ρ) (s : State σ ο ρ ε) : Prop where
  given : ∃ used, results = used ++ s.cell.kept ∧
    run (Process.step P) (Process.start P) (used.map fun result => (0, result)) = some s.process
  met : s.cell = .attached ↔ s.stage = .away
  able : ∀ result, s.cell = .ready result → ∃ next, Process.step P s.process (0, result) = some next

section
variable {P : Actor σ ο ρ ε} {s t : State σ ο ρ ε} {results : List ρ} {result : ρ} {choice : Choice ρ}

theorem start_handed (P : Actor σ ο ρ ε) : Handed P [] (start P) where
  given := ⟨[], rfl, rfl⟩
  met := ⟨nofun, nofun⟩
  able _ kept := by cases kept

theorem resume_eq (resumed : resume P result s = some t) :
    Process.step P s.process (0, result) = some t.process ∧ t.cell = .empty ∧ t.stage = .fresh := by
  obtain ⟨next, stepped, rfl⟩ := Option.map_eq_some_iff.mp resumed
  exact ⟨stepped, rfl, rfl⟩

/-- The object is given one more result. -/
theorem Handed.resume {used : List ρ}
    (path : run (Process.step P) (Process.start P) (used.map fun result => (0, result)) = some s.process)
    (resumed : Future.resume P result s = some t) : Handed P (used ++ [result]) t := by
  obtain ⟨stepped, empty, fresh⟩ := resume_eq resumed
  refine ⟨⟨used ++ [result], ?_, ?_⟩, ?_, ?_⟩
  · rw [empty, Cell.kept, List.append_nil]
  · rw [List.map_append, List.map_singleton]
    exact run_concat.mpr ⟨s.process, path, stepped⟩
  · rw [empty, fresh]
    exact ⟨nofun, nofun⟩
  · rw [empty]
    exact fun _ kept => by cases kept

theorem Handed.complete (handed : Handed P results s) (stepped : step P s (.complete result) = some t) :
    Handed P (results ++ [result]) t := by
  obtain ⟨⟨used, rfl, path⟩, met, able⟩ := handed
  cases cell : s.cell with
  | ready kept => simp [step, cell] at stepped
  | attached =>
    simp only [step, cell] at stepped
    rw [Cell.kept, List.append_nil]
    exact Handed.resume path stepped
  | empty =>
    simp only [step, cell, Option.ite_none_right_eq_some, Option.some.injEq] at stepped
    obtain ⟨fits, rfl⟩ := stepped
    have here : s.stage ≠ .away := mt met.mpr (by simp [cell])
    refine ⟨⟨used, by simp [Cell.kept], path⟩, ⟨nofun, fun away => absurd away here⟩, fun other kept => ?_⟩
    cases kept
    exact Option.isSome_iff_exists.mp fits

/-- What the thread of the object does next: it looks, it attaches the continuation, or it
has found a result. -/
theorem proceed_cases (met : s.cell = .attached ↔ s.stage = .away) (stepped : step P s .proceed = some t) :
    (s.cell = .empty ∧ s.stage = .fresh ∧ t = { s with stage := .checked }) ∨
      (s.cell = .empty ∧ s.stage = .checked ∧ t = { s with cell := .attached, stage := .away }) ∨
      ∃ result, s.cell = .ready result ∧ s.stage ≠ .away ∧ resume P result s = some t := by
  simp only [step, Option.ite_none_left_eq_some] at stepped
  obtain ⟨-, goes⟩ := stepped
  cases cell : s.cell with
  | attached =>
    have away := met.mp cell
    simp [away] at goes
  | empty =>
    cases stage : s.stage with
    | fresh => exact .inl ⟨rfl, rfl, by simpa [cell, stage] using goes.symm⟩
    | checked => exact .inr (.inl ⟨rfl, rfl, by simpa [cell, stage] using goes.symm⟩)
    | away => simp [stage] at goes
  | ready result =>
    cases stage : s.stage with
    | fresh => exact .inr (.inr ⟨result, rfl, nofun, by simpa [cell, stage] using goes⟩)
    | checked => exact .inr (.inr ⟨result, rfl, nofun, by simpa [cell, stage] using goes⟩)
    | away => simp [stage] at goes

theorem Handed.proceed (handed : Handed P results s) (stepped : step P s .proceed = some t) : Handed P results t := by
  obtain ⟨⟨used, rfl, path⟩, met, able⟩ := handed
  rcases proceed_cases met stepped with ⟨empty, fresh, rfl⟩ | ⟨empty, checked, rfl⟩ | ⟨result, kept, -, resumed⟩
  · refine ⟨⟨used, rfl, path⟩, ⟨fun attached => ?_, nofun⟩, able⟩
    rw [empty] at attached
    cases attached
  · rw [empty]
    exact ⟨⟨used, rfl, path⟩, ⟨fun _ => rfl, fun _ => rfl⟩, nofun⟩
  · rw [kept]
    exact Handed.resume path resumed

theorem completed_append (past more : List (Choice ρ)) : completed (past ++ more) = completed past ++ completed more :=
  List.filterMap_append ..

theorem proceeds_append (past more : List (Choice ρ)) : proceeds (past ++ more) = proceeds past + proceeds more :=
  List.countP_append ..

theorem length_choices (choices : List (Choice ρ)) :
    (completed choices).length + proceeds choices = choices.length := by
  induction choices with
  | nil => rfl
  | cons choice later ih =>
    cases choice with
    | complete result =>
      have more : completed (.complete result :: later) = result :: completed later := rfl
      have same : proceeds (.complete result :: later) = proceeds later := List.countP_cons_of_neg (by simp)
      rw [more, same, List.length_cons, List.length_cons]
      omega
    | proceed =>
      have same : completed (.proceed :: later) = completed later := rfl
      have more : proceeds (.proceed :: later) = proceeds later + 1 := List.countP_cons_of_pos (by simp)
      rw [same, more, List.length_cons]
      omega

theorem Handed.step (handed : Handed P results s) (stepped : Future.step P s choice = some t) :
    Handed P (results ++ completed [choice]) t := by
  cases choice with
  | complete result => exact handed.complete stepped
  | proceed =>
    change Handed P (results ++ []) t
    rw [List.append_nil]
    exact handed.proceed stepped

/-- The object is given its results in the order in which they come, each once, whichever
thread is first. -/
theorem run_handed {choices : List (Choice ρ)} (path : run (step P) (start P) choices = some s) :
    Handed P (completed choices) s := by
  have kept : ∀ past s choice t, Handed P (completed past) s → Future.step P s choice = some t →
      Handed P (completed (past ++ [choice])) t := by
    intro past s choice t handed stepped
    rw [completed_append]
    exact handed.step stepped
  have handed := run_invariant_past (fun past s => Handed P (completed past) s) kept path (start_handed P)
  exact handed

/-! ### Nobody waits in vain -/

/-- A result that is kept is found by the thread of the object. -/
theorem Handed.finds (handed : Handed P results s) (kept : s.cell = .ready result) :
    ∃ t, Future.step P s .proceed = some t ∧ Process.step P s.process (0, result) = some t.process := by
  obtain ⟨next, stepped⟩ := handed.able result kept
  have busy : s.process.inFlight.isEmpty = false := by
    cases flight : s.process.inFlight with
    | nil => simp [Process.step, flight] at stepped
    | cons => rfl
  have resumed : Future.resume P result s = some { process := next } := by simp [Future.resume, stepped]
  have here : s.stage ≠ .away := mt handed.met.mpr (by simp [kept])
  cases stage : s.stage with
  | away => exact absurd stage here
  | fresh => exact ⟨_, by simp only [Future.step, busy, stage, kept]; exact resumed, stepped⟩
  | checked => exact ⟨_, by simp only [Future.step, busy, stage, kept]; exact resumed, stepped⟩

/-- As long as the object waits for an operation, its thread can go on or the continuation
is attached, and then the result of the operation runs the object on. -/
theorem Handed.onward (handed : Handed P results s) (waiting : s.process.inFlight ≠ []) :
    (∃ t, Future.step P s .proceed = some t) ∨
      ∀ result next, Process.step P s.process (0, result) = some next →
        ∃ t, Future.step P s (.complete result) = some t ∧ t.process = next := by
  have busy : s.process.inFlight.isEmpty = false := by simpa using waiting
  cases cell : s.cell with
  | ready result =>
    obtain ⟨t, stepped, -⟩ := handed.finds cell
    exact .inl ⟨t, stepped⟩
  | attached =>
    refine .inr fun result next stepped => ⟨{ process := next }, ?_, rfl⟩
    simp [Future.step, cell, Future.resume, stepped]
  | empty =>
    have here : s.stage ≠ .away := mt handed.met.mpr (by simp [cell])
    cases stage : s.stage with
    | away => exact absurd stage here
    | fresh => exact .inl ⟨_, by simp only [Future.step, busy, stage, cell]; rfl⟩
    | checked => exact .inl ⟨_, by simp only [Future.step, busy, stage, cell]; rfl⟩

/-- A thread that finds no result goes away. -/
theorem departs (empty : s.cell = .empty) (here : s.stage ≠ .away) (waiting : s.process.inFlight ≠ []) :
    ∃ n t, run (Future.step P) s (List.replicate n .proceed) = some t ∧ t.stage = .away := by
  have busy : s.process.inFlight.isEmpty = false := by simpa using waiting
  cases stage : s.stage with
  | away => exact absurd stage here
  | checked =>
    have attaches : Future.step P s .proceed = some { s with cell := .attached, stage := .away } := by
      simp [Future.step, busy, stage, empty]
    exact ⟨1, _, run_cons.mpr ⟨_, attaches, rfl⟩, rfl⟩
  | fresh =>
    have looks : Future.step P s .proceed = some { s with stage := .checked } := by
      simp [Future.step, busy, stage, empty]
    have attaches : Future.step P { s with stage := .checked } .proceed =
        some { s with cell := .attached, stage := .away } := by
      simp [Future.step, busy, empty]
    exact ⟨2, _, run_cons.mpr ⟨_, looks, run_cons.mpr ⟨_, attaches, rfl⟩⟩, rfl⟩

/-- As long as no more results come the thread of the object comes to go away, or the object
waits for nothing more. -/
theorem Handed.departs (handed : Handed P results s) (here : s.stage ≠ .away) (waiting : s.process.inFlight ≠ []) :
    ∃ n t, run (Future.step P) s (List.replicate n .proceed) = some t ∧
      (t.stage = .away ∨ t.process.inFlight = []) := by
  cases cell : s.cell with
  | attached => exact absurd (handed.met.mp cell) here
  | empty =>
    obtain ⟨n, t, path, away⟩ := Future.departs (P := P) cell here waiting
    exact ⟨n, t, path, .inl away⟩
  | ready result =>
    obtain ⟨next, stepped⟩ := handed.able result cell
    obtain ⟨mid, goes, -⟩ := handed.finds cell
    have resumed : Future.resume P result s = some mid := by
      rcases proceed_cases handed.met goes with ⟨empty, -⟩ | ⟨empty, -⟩ | ⟨other, kept, -, resumed⟩
      · cases cell.symm.trans empty
      · cases cell.symm.trans empty
      · obtain rfl := (Cell.ready.inj (cell.symm.trans kept))
        exact resumed
    obtain ⟨-, empty, fresh⟩ := resume_eq resumed
    by_cases done : mid.process.inFlight = []
    · exact ⟨1, mid, run_cons.mpr ⟨mid, goes, rfl⟩, .inr done⟩
    · obtain ⟨n, t, path, away⟩ := Future.departs (P := P) empty (by simp [fresh]) done
      exact ⟨n + 1, t, run_cons.mpr ⟨mid, goes, path⟩, .inl away⟩

/-- What the thread can still do without another result. -/
def credit (s : State σ ο ρ ε) : Nat :=
  (match s.stage with
    | .fresh => 2
    | .checked => 1
    | .away => 0) + 2 * s.cell.kept.length

theorem credit_resume (resumed : resume P result s = some t) : credit t = 2 := by
  obtain ⟨-, empty, fresh⟩ := resume_eq resumed
  simp [credit, empty, fresh, Cell.kept]

theorem credit_step (met : s.cell = .attached ↔ s.stage = .away) (stepped : step P s choice = some t) :
    credit t + proceeds [choice] ≤ credit s + 2 * (completed [choice]).length := by
  cases choice with
  | proceed =>
    change credit t + 1 ≤ credit s
    rcases proceed_cases met stepped with ⟨empty, fresh, rfl⟩ | ⟨empty, checked, rfl⟩ | ⟨result, kept, here, resumed⟩
    · simp only [credit, fresh]
      omega
    · simp only [credit, empty, checked, Cell.kept, List.length_nil]
      omega
    · rw [credit_resume resumed, credit, kept]
      cases stage : s.stage with
      | away => exact absurd stage here
      | fresh => simp [Cell.kept]
      | checked => simp [Cell.kept]
  | complete result =>
    change credit t ≤ credit s + 2
    cases cell : s.cell with
    | ready kept => simp [step, cell] at stepped
    | attached =>
      simp only [step, cell] at stepped
      rw [credit_resume stepped]
      omega
    | empty =>
      simp only [step, cell, Option.ite_none_right_eq_some, Option.some.injEq] at stepped
      obtain ⟨-, rfl⟩ := stepped
      simp [credit, cell, Cell.kept]

/-- The thread never spins: it takes at most two steps for an operation. -/
theorem proceeds_le {choices : List (Choice ρ)} (path : run (step P) (start P) choices = some s) :
    proceeds choices ≤ 2 * ((completed choices).length + 1) := by
  have kept : ∀ past s choice t,
      Handed P (completed past) s ∧ credit s + proceeds past ≤ 2 * ((completed past).length + 1) →
      step P s choice = some t →
      Handed P (completed (past ++ [choice])) t ∧
        credit t + proceeds (past ++ [choice]) ≤ 2 * ((completed (past ++ [choice])).length + 1) := by
    rintro past s choice t ⟨handed, bound⟩ stepped
    have lower := credit_step handed.met stepped
    rw [completed_append, proceeds_append, List.length_append]
    exact ⟨handed.step stepped, by omega⟩
  have bounded :=
    run_invariant_past _ kept path ⟨start_handed P, by simp [credit, start, Cell.kept, proceeds, completed]⟩
  omega

end

end Await.General.Future
