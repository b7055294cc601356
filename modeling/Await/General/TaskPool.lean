import Mathlib.Algebra.BigOperators.Group.Finset.Basic
import Mathlib.Algebra.BigOperators.Group.Finset.Piecewise
import Mathlib.Data.Finset.Range
import Mathlib.Logic.Function.Basic

/-! Sequential tasks that take turns. Each task has a script: the steps it makes on its
own, in order, and the answer it ends with. A pool loads tasks one after another and may
let any loaded task make its next step at any time. Whatever the turns, the log of the
pool shows each task its own script, and the answers can be counted from the log. -/

namespace Await.General.TaskPool

structure Script (α β : Type) where
  steps : List α
  answer : β
  deriving DecidableEq, Repr

inductive Event (α β : Type) where
  | load (task : Nat)
  | step (task : Nat) (seen : α)
  | retire (task : Nat) (answer : β)
  deriving DecidableEq, Repr

variable {α β : Type} {script rest : Nat → Option (Script α β)} {loaded task : Nat}
  {log : List (Event α β)}

def loads (task : Nat) : List (Event α β) → Nat
  | [] => 0
  | .load other :: log => (if other = task then 1 else 0) + loads task log
  | _ :: log => loads task log

def steps (task : Nat) : List (Event α β) → List α
  | [] => []
  | .step other seen :: log => if other = task then seen :: steps task log else steps task log
  | _ :: log => steps task log

def answers (task : Nat) : List (Event α β) → List β
  | [] => []
  | .retire other answer :: log =>
      if other = task then answer :: answers task log else answers task log
  | _ :: log => answers task log

/-- How many tasks have retired with an answer that satisfies `p`. -/
def tally (p : β → Bool) : List (Event α β) → Nat
  | [] => 0
  | .retire _ answer :: log => (if p answer then 1 else 0) + tally p log
  | _ :: log => tally p log

@[simp] theorem loads_append (log more : List (Event α β)) :
    loads task (log ++ more) = loads task log + loads task more := by
  induction log with
  | nil => simp [loads]
  | cons event log ih => cases event <;> simp [loads, ih, Nat.add_assoc]

@[simp] theorem steps_append (log more : List (Event α β)) :
    steps task (log ++ more) = steps task log ++ steps task more := by
  induction log with
  | nil => simp [steps]
  | cons event log ih =>
    cases event with
    | step other seen => by_cases same : other = task <;> simp [steps, ih, same]
    | load other => simpa [steps] using ih
    | retire other answer => simpa [steps] using ih

@[simp] theorem answers_append (log more : List (Event α β)) :
    answers task (log ++ more) = answers task log ++ answers task more := by
  induction log with
  | nil => simp [answers]
  | cons event log ih =>
    cases event with
    | retire other answer => by_cases same : other = task <;> simp [answers, ih, same]
    | load other => simpa [answers] using ih
    | step other seen => simpa [answers] using ih

@[simp] theorem tally_append (p : β → Bool) (log more : List (Event α β)) :
    tally p (log ++ more) = tally p log + tally p more := by
  induction log with
  | nil => simp [tally]
  | cons event log ih => cases event <;> simp [tally, ih, Nat.add_assoc]

/-- Steps are not counted. -/
theorem tally_steps (p : β → Bool) (task : Nat) (seen : List α) :
    tally p (seen.map (Event.step task)) = 0 := by
  induction seen with
  | nil => rfl
  | cons first seen ih => simpa [tally] using ih

theorem steps_own (task : Nat) (seen : List α) : steps task (seen.map (Event.step (β := β) task)) = seen := by
  induction seen with
  | nil => rfl
  | cons first seen ih => simp [steps, ih]

theorem steps_other {other : Nat} (apart : other ≠ task) (seen : List α) :
    steps task (seen.map (Event.step (β := β) other)) = [] := by
  induction seen with
  | nil => rfl
  | cons first seen ih => simpa [steps, apart] using ih

theorem retired_of_answers {log : List (Event α β)} (answered : answers task log ≠ []) :
    ∃ answer, .retire task answer ∈ log := by
  induction log with
  | nil => simp [answers] at answered
  | cons event log ih =>
    have later (known : answers task log ≠ []) : ∃ answer, .retire task answer ∈ event :: log := by
      obtain ⟨answer, member⟩ := ih known
      exact ⟨answer, List.mem_cons_of_mem _ member⟩
    cases event with
    | load other => exact later answered
    | step other seen => exact later answered
    | retire other answer =>
      by_cases own : other = task
      · exact ⟨answer, own ▸ List.mem_cons_self ..⟩
      · exact later (by simpa [answers, own] using answered)

theorem tally_split (p : β → Bool) (log : List (Event α β)) :
    tally (fun _ => true) log = tally p log + tally (fun answer => !p answer) log := by
  induction log with
  | nil => rfl
  | cons event log ih =>
    cases event with
    | retire task answer =>
      cases kind : p answer <;> simp [tally, kind, ih] <;> omega
    | load task => simpa [tally] using ih
    | step task seen => simpa [tally] using ih

/-- The states of a pool: how many tasks are loaded, what each still has to do (`none`
when it is not loaded or has retired), and the log so far. -/
inductive Pool (script : Nat → Option (Script α β)) :
    Nat → (Nat → Option (Script α β)) → List (Event α β) → Prop where
  | empty : Pool script 0 (fun _ => none) []
  | load {loaded rest log whole} : Pool script loaded rest log → script loaded = some whole →
      Pool script (loaded + 1) (Function.update rest loaded (some whole)) (log ++ [.load loaded])
  | step {loaded rest log task seen later answer} : Pool script loaded rest log →
      rest task = some ⟨seen :: later, answer⟩ →
      Pool script loaded (Function.update rest task (some ⟨later, answer⟩))
        (log ++ [.step task seen])
  | retire {loaded rest log task answer} : Pool script loaded rest log →
      rest task = some ⟨[], answer⟩ →
      Pool script loaded (Function.update rest task none) (log ++ [.retire task answer])

/-- Several steps of one task in a row. -/
theorem Pool.step_many {seen later : List α} {answer : β} (pool : Pool script loaded rest log)
    (underway : rest task = some ⟨seen ++ later, answer⟩) :
    Pool script loaded (Function.update rest task (some ⟨later, answer⟩))
      (log ++ seen.map (Event.step task)) := by
  induction seen generalizing rest log with
  | nil =>
    have same : Function.update rest task (some ⟨later, answer⟩) = rest := by
      rw [← List.nil_append later, ← underway, Function.update_eq_self]
    simpa [same] using pool
  | cons first seen ih =>
    have rest_steps := ih (pool.step underway) (Function.update_self ..)
    simpa [Function.update_idem] using rest_steps

/-- A task that is not loaded has left no trace. -/
theorem Pool.untouched (pool : Pool script loaded rest log) (outside : loaded ≤ task) :
    rest task = none ∧ loads task log = 0 ∧ steps task log = [] ∧ answers task log = [] := by
  induction pool with
  | empty => simp [loads, steps, answers]
  | @load loaded rest log whole _ _ ih =>
    obtain ⟨unloaded, noLoad, noStep, noAnswer⟩ := ih (by omega)
    have other : task ≠ loaded := by omega
    simp [Function.update_of_ne other, unloaded, noLoad, noStep, noAnswer, loads, steps, answers,
      other.symm]
  | @step loaded rest log active seen later answer _ underway ih =>
    obtain ⟨unloaded, noLoad, noStep, noAnswer⟩ := ih outside
    have other : task ≠ active := by
      rintro rfl
      simp [unloaded] at underway
    simp [Function.update_of_ne other, unloaded, noLoad, noStep, noAnswer, loads, steps, answers,
      other.symm]
  | @retire loaded rest log active answer _ underway ih =>
    obtain ⟨unloaded, noLoad, noStep, noAnswer⟩ := ih outside
    have other : task ≠ active := by
      rintro rfl
      simp [unloaded] at underway
    simp [Function.update_of_ne other, unloaded, noLoad, noStep, noAnswer, loads, steps, answers,
      other.symm]

theorem Pool.loaded_of_rest {script' : Script α β} (pool : Pool script loaded rest log)
    (underway : rest task = some script') : task < loaded := by
  by_contra outside
  rw [(pool.untouched (Nat.le_of_not_lt outside)).1] at underway
  cases underway

/-- What the log must show of a task with this script that still has `left` to do. -/
def Accounted (log : List (Event α β)) (task : Nat) (whole : Script α β) :
    Option (Script α β) → Prop
  | some left => answers task log = [] ∧ whole = ⟨steps task log ++ left.steps, left.answer⟩
  | none => answers task log = [whole.answer] ∧ whole.steps = steps task log

/-- An event of another task changes nothing in a task's account. -/
private theorem Accounted.other {event : Event α β} {whole : Script α β}
    {left : Option (Script α β)} (kept : Accounted log task whole left)
    (noStep : steps task [event] = []) (noAnswer : answers task [event] = []) :
    Accounted (log ++ [event]) task whole left := by
  cases left <;> simpa [Accounted, noStep, noAnswer] using kept

/-- Every loaded task was loaded once, and log and remaining script make up its script. -/
theorem Pool.account (pool : Pool script loaded rest log) (inside : task < loaded) :
    loads task log = 1 ∧ ∃ whole, script task = some whole ∧
      Accounted log task whole (rest task) := by
  induction pool with
  | empty => omega
  | @load loaded rest log whole pool known ih =>
    by_cases same : task = loaded
    · subst same
      obtain ⟨-, noLoad, noStep, noAnswer⟩ := pool.untouched (Nat.le_refl task)
      exact ⟨by simp [loads, noLoad], whole, known,
        by simp [Accounted, steps, answers, noStep, noAnswer]⟩
    · obtain ⟨once, mine, found, kept⟩ := ih (by omega)
      refine ⟨by simp [loads, once, Ne.symm same], mine, found, ?_⟩
      rw [Function.update_of_ne same]
      exact kept.other rfl rfl
  | @step loaded rest log active seen later answer pool underway ih =>
    obtain ⟨once, mine, found, kept⟩ := ih inside
    refine ⟨by simp [loads, once], mine, found, ?_⟩
    by_cases same : task = active
    · subst same
      rw [underway] at kept
      obtain ⟨noAnswer, split⟩ := kept
      simp [Accounted, steps, answers, noAnswer, split]
    · rw [Function.update_of_ne same]
      exact kept.other (by simp [steps, Ne.symm same]) rfl
  | @retire loaded rest log active answer pool underway ih =>
    obtain ⟨once, mine, found, kept⟩ := ih inside
    refine ⟨by simp [loads, once], mine, found, ?_⟩
    by_cases same : task = active
    · subst same
      rw [underway] at kept
      obtain ⟨noAnswer, split⟩ := kept
      simp [Accounted, steps, answers, noAnswer, split]
    · rw [Function.update_of_ne same]
      exact kept.other rfl (by simp [answers, Ne.symm same])

/-- The counters kept along the way agree with the answers found in the log. -/
theorem Pool.tally_eq_sum (pool : Pool script loaded rest log) (p : β → Bool) :
    tally p log = ∑ task ∈ Finset.range loaded, (answers task log).countP p := by
  induction pool with
  | empty => simp [tally]
  | @load loaded rest log whole pool known ih =>
    have fresh := (pool.untouched (Nat.le_refl loaded)).2.2.2
    simp [Finset.sum_range_succ, tally, answers, ih, fresh]
  | @step loaded rest log active seen later answer pool underway ih =>
    simpa [tally, answers] using ih
  | @retire loaded rest log active answer pool underway ih =>
    have inside : active ∈ Finset.range loaded :=
      Finset.mem_range.mpr (pool.loaded_of_rest underway)
    have extra : ∀ task, (answers task [Event.retire (α := α) active answer]).countP p =
        if active = task then (if p answer then 1 else 0) else 0 := by
      intro task
      by_cases same : active = task <;> simp [answers, same, List.countP_cons]
    simp only [tally_append, answers_append, List.countP_append, Finset.sum_add_distrib, extra,
      Finset.sum_ite_eq, inside, if_true, ← ih]
    simp [tally]

/-- A pool with nothing left to do has shown every loaded task its whole script. -/
theorem Pool.finished (pool : Pool script loaded rest log) (idle : rest task = none)
    (inside : task < loaded) :
    ∃ whole, script task = some whole ∧ loads task log = 1 ∧ steps task log = whole.steps ∧
      answers task log = [whole.answer] := by
  obtain ⟨once, whole, known, kept⟩ := pool.account inside
  rw [idle] at kept
  exact ⟨whole, known, once, kept.2.symm, kept.1⟩

end Await.General.TaskPool
