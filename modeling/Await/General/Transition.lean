import Mathlib.Computability.StateTransition
import Mathlib.Order.WellFounded

/-! Rules for two kinds of machine: one that steps by itself, `σ → Option σ`, and one
that is driven by the choices of its surroundings, `σ → ι → Option σ`. In both `none`
says that the machine has no step: it is finished, or its next move is undefined. -/

namespace Await.General.Transition
open StateTransition

section Alone
variable {σ : Type} {step : σ → Option σ} {s t : σ}

/-- What the start has and every step keeps, every reachable state has. -/
theorem reaches_invariant {Inv : σ → Prop}
    (kept : ∀ s t, Inv s → step s = some t → Inv t)
    (path : Reaches step s t) (start : Inv s) : Inv t := by
  induction path with
  | refl => exact start
  | tail _ last ih => exact kept _ _ ih last

/-- A machine that keeps stepping while the goal is not met, and goes down in some
well-founded order with each step, meets the goal. -/
theorem reaches_goal {Inv : σ → Prop} {ρ : Type} [LT ρ] [WellFoundedLT ρ] (goal : σ → Prop) (rank : σ → ρ)
    (progress : ∀ s, Inv s → ¬goal s → ∃ t, step s = some t ∧ Inv t ∧ rank t < rank s)
    (start : Inv s) : ∃ t, Reaches step s t ∧ Inv t ∧ goal t := by
  induction height : rank s using WellFoundedLT.induction generalizing s with
  | ind r ih =>
    by_cases arrived : goal s
    · exact ⟨s, .refl, start, arrived⟩
    · obtain ⟨mid, first, inv, lower⟩ := progress s start arrived
      obtain ⟨last, path, rest⟩ := ih (rank mid) (height ▸ lower) inv rfl
      exact ⟨last, .head first path, rest⟩

end Alone

section Driven
variable {σ τ ι : Type} {step : σ → ι → Option σ} {s t u : σ}

/-- The state after a list of choices; `none` when one of them has no step. -/
def run (step : σ → ι → Option σ) : σ → List ι → Option σ
  | s, [] => some s
  | s, choice :: later => (step s choice).bind fun next => run step next later

@[simp] theorem run_nil : run step s [] = some s := rfl

theorem run_cons {choice : ι} {later : List ι} :
    run step s (choice :: later) = some t ↔
      ∃ next, step s choice = some next ∧ run step next later = some t := by
  simp [run, Option.bind_eq_some_iff]

theorem run_append {first later : List ι} :
    run step s (first ++ later) = some t ↔
      ∃ mid, run step s first = some mid ∧ run step mid later = some t := by
  induction first generalizing s with
  | nil => simp
  | cons choice first ih =>
    rw [List.cons_append, run_cons]
    constructor
    · rintro ⟨next, head, tail⟩
      obtain ⟨mid, front, back⟩ := ih.mp tail
      exact ⟨mid, run_cons.mpr ⟨next, head, front⟩, back⟩
    · rintro ⟨mid, front, back⟩
      obtain ⟨next, head, tail⟩ := run_cons.mp front
      exact ⟨next, head, ih.mpr ⟨mid, tail, back⟩⟩

theorem run_concat {choices : List ι} {last : ι} :
    run step s (choices ++ [last]) = some t ↔
      ∃ mid, run step s choices = some mid ∧ step mid last = some t := by
  simp [run_append, run_cons]

theorem run_invariant {Inv : σ → Prop}
    (kept : ∀ s choice t, Inv s → step s choice = some t → Inv t)
    {choices : List ι} (path : run step s choices = some t) (start : Inv s) : Inv t := by
  induction choices generalizing s with
  | nil => exact Option.some.inj path ▸ start
  | cons choice choices ih =>
    obtain ⟨next, head, tail⟩ := run_cons.mp path
    exact ih tail (kept s choice next start head)

/-- An invariant that speaks of the choices made so far. -/
theorem run_invariant_past (Inv : List ι → σ → Prop)
    (kept : ∀ past s choice t, Inv past s → step s choice = some t → Inv (past ++ [choice]) t)
    {choices : List ι} (path : run step s choices = some t) (start : Inv [] s) : Inv choices t := by
  have onward : ∀ past s, Inv past s → run step s choices = some t → Inv (past ++ choices) t := by
    clear path start
    induction choices with
    | nil =>
      intro past s inv path
      obtain rfl : s = t := by simpa using path
      simpa using inv
    | cons choice choices ih =>
      intro past s inv path
      obtain ⟨next, head, tail⟩ := run_cons.mp path
      rw [List.append_cons]
      exact ih _ _ (kept past s choice next inv head) tail
  exact onward [] s start path

/-- Every choice of the run meets a condition in the state in which it is made. -/
def Meets (step : σ → ι → Option σ) (cond : σ → ι → Prop) : σ → List ι → Prop
  | _, [] => True
  | s, choice :: later => cond s choice ∧ ∀ next, step s choice = some next → Meets step cond next later

theorem meets_cons {cond : σ → ι → Prop} {choice : ι} {later : List ι} (head : step s choice = some t) :
    Meets step cond s (choice :: later) ↔ cond s choice ∧ Meets step cond t later := by
  simp [Meets, head]

theorem meets_of_forall {cond : σ → ι → Prop} {choices : List ι}
    (always : ∀ choice ∈ choices, ∀ s, cond s choice) : Meets step cond s choices := by
  induction choices generalizing s with
  | nil => trivial
  | cons choice choices ih =>
    obtain ⟨now, later⟩ := List.forall_mem_cons.mp always
    exact ⟨now s, fun _ _ => ih later⟩

/-- An invariant of the steps that meet a condition, along a run that meets it. -/
theorem run_invariant_of_meets {Inv : σ → Prop} {cond : σ → ι → Prop}
    (kept : ∀ s choice t, Inv s → cond s choice → step s choice = some t → Inv t)
    {choices : List ι} (path : run step s choices = some t) (meets : Meets step cond s choices)
    (start : Inv s) : Inv t := by
  induction choices generalizing s with
  | nil => exact Option.some.inj path ▸ start
  | cons choice choices ih =>
    obtain ⟨next, head, tail⟩ := run_cons.mp path
    obtain ⟨now, later⟩ := (meets_cons head).mp meets
    exact ih tail later (kept s choice next start now head)

/-- A property that each step keeps or loses by a condition, and that does not come back,
holds at the end exactly if it held at the start and the whole run meets the condition. -/
theorem run_iff_meets {Inv P : σ → Prop} {cond : σ → ι → Prop} {legal : ι → Prop}
    (each : ∀ s choice t, Inv s → legal choice → step s choice = some t →
      Inv t ∧ (P t ↔ P s ∧ cond s choice))
    {choices : List ι} (path : run step s choices = some t)
    (allowed : ∀ choice ∈ choices, legal choice) (start : Inv s) :
    P t ↔ P s ∧ Meets step cond s choices := by
  induction choices generalizing s with
  | nil =>
    obtain rfl : s = t := by simpa using path
    simp [Meets]
  | cons choice choices ih =>
    obtain ⟨next, head, tail⟩ := run_cons.mp path
    obtain ⟨now, later⟩ := List.forall_mem_cons.mp allowed
    obtain ⟨inv, here⟩ := each s choice next start now head
    rw [ih tail later inv, here, meets_cons head, and_assoc]

/-- Where no legal choice raises the rank and each of some kind lowers it, only so many of
that kind can be made. -/
theorem run_count_le {Inv : σ → Prop} {legal : ι → Prop} {rank : σ → Nat} (counted : ι → Bool)
    (each : ∀ s choice t, Inv s → legal choice → step s choice = some t →
      Inv t ∧ rank t + (if counted choice then 1 else 0) ≤ rank s)
    {choices : List ι} (path : run step s choices = some t)
    (allowed : ∀ choice ∈ choices, legal choice) (start : Inv s) :
    choices.countP counted + rank t ≤ rank s := by
  induction choices generalizing s with
  | nil =>
    obtain rfl : s = t := by simpa using path
    simp
  | cons choice choices ih =>
    obtain ⟨next, head, tail⟩ := run_cons.mp path
    obtain ⟨now, later⟩ := List.forall_mem_cons.mp allowed
    obtain ⟨inv, lower⟩ := each s choice next start now head
    have rest := ih tail later inv
    rw [List.countP_cons]
    omega

/-- Lock-step simulation, as far as the choices meet a condition: each such step of the
first machine is one of the second, and the relation carries over to where they lead. -/
theorem run_simulates {other : τ → ι → Option τ} {R : σ → τ → Prop} {cond : σ → ι → Prop}
    (kept : ∀ s t choice s', R s t → cond s choice → step s choice = some s' →
      ∃ t', other t choice = some t' ∧ R s' t')
    {choices : List ι} {s' : σ} {t : τ} (path : run step s choices = some s')
    (meets : Meets step cond s choices) (start : R s t) :
    ∃ t', run other t choices = some t' ∧ R s' t' := by
  induction choices generalizing s t with
  | nil =>
    obtain rfl : s = s' := by simpa using path
    exact ⟨t, rfl, start⟩
  | cons choice choices ih =>
    obtain ⟨next, head, tail⟩ := run_cons.mp path
    obtain ⟨now, later⟩ := (meets_cons head).mp meets
    obtain ⟨mid, first, related⟩ := kept s t choice next start now head
    obtain ⟨last, rest, arrived⟩ := ih tail later related
    exact ⟨last, run_cons.mpr ⟨mid, first, rest⟩, arrived⟩

/-- Some choices drive the machine to the goal. -/
def CanReach (step : σ → ι → Option σ) (goal : σ → Prop) (s : σ) : Prop :=
  ∃ choices t, run step s choices = some t ∧ goal t

theorem CanReach.here {goal : σ → Prop} (arrived : goal s) : CanReach step goal s :=
  ⟨[], s, rfl, arrived⟩

theorem CanReach.after {goal : σ → Prop} (choice : ι) (head : step s choice = some t)
    (rest : CanReach step goal t) : CanReach step goal s := by
  obtain ⟨choices, last, path, arrived⟩ := rest
  exact ⟨choice :: choices, last, run_cons.mpr ⟨t, head, path⟩, arrived⟩

theorem CanReach.trans {goal mid : σ → Prop} (first : CanReach step mid s)
    (later : ∀ t, mid t → CanReach step goal t) : CanReach step goal s := by
  obtain ⟨choices, t, path, arrived⟩ := first
  obtain ⟨more, last, path', arrived'⟩ := later t arrived
  exact ⟨choices ++ more, last, run_append.mpr ⟨t, path, path'⟩, arrived'⟩

/-- However the surroundings choose among the legal choices, the machine comes to the goal,
and until then there is one. -/
inductive Inevitable (step : σ → ι → Option σ) (legal : ι → Prop) (goal : σ → Prop) : σ → Prop where
  | here {s : σ} : goal s → Inevitable step legal goal s
  | later {s : σ} : (∃ choice, legal choice ∧ (step s choice).isSome) →
      (∀ choice t, legal choice → step s choice = some t → Inevitable step legal goal t) →
      Inevitable step legal goal s

theorem Inevitable.mono {legal : ι → Prop} {goal goal' : σ → Prop} (weaker : ∀ t, goal t → goal' t)
    (inevitable : Inevitable step legal goal s) : Inevitable step legal goal' s := by
  induction inevitable with
  | here arrived => exact .here (weaker _ arrived)
  | later able _ ih => exact .later able ih

/-- And what the start has and every step keeps, it has there. -/
theorem Inevitable.invariant {legal : ι → Prop} {goal Inv : σ → Prop}
    (kept : ∀ s choice t, Inv s → step s choice = some t → Inv t)
    (inevitable : Inevitable step legal goal s) (start : Inv s) :
    Inevitable step legal (fun t => goal t ∧ Inv t) s := by
  induction inevitable with
  | here arrived => exact .here ⟨arrived, start⟩
  | later able _ ih =>
    exact .later able fun choice t allowed stepped => ih choice t allowed stepped (kept _ _ _ start stepped)

/-- An invariant with a bound that every legal step lowers. -/
theorem inevitable_of_less {legal : ι → Prop} {goal : σ → Prop} (Inv : Nat → σ → Prop)
    (progress : ∀ n s, Inv n s → goal s ∨ (∃ choice, legal choice ∧ (step s choice).isSome) ∧
      ∀ choice t, legal choice → step s choice = some t → goal t ∨ ∃ m < n, Inv m t)
    {n : Nat} (start : Inv n s) : Inevitable step legal goal s := by
  induction n using Nat.strong_induction_on generalizing s with
  | _ n ih =>
    rcases progress n s start with arrived | ⟨able, onward⟩
    · exact .here arrived
    · refine .later able fun choice t allowed stepped => ?_
      rcases onward choice t allowed stepped with arrived | ⟨m, lower, inv⟩
      · exact .here arrived
      · exact ih m lower inv

/-- A map that commutes with the steps commutes with the runs: the second machine is the
first one with part of its state forgotten. -/
theorem run_map {other : τ → ι → Option τ} {forget : σ → τ} (Inv : σ → Prop)
    (kept : ∀ s choice t, Inv s → step s choice = some t → Inv t)
    (same : ∀ s choice, Inv s → (step s choice).map forget = other (forget s) choice)
    {choices : List ι} (start : Inv s) :
    (run step s choices).map forget = run other (forget s) choices := by
  induction choices generalizing s with
  | nil => rfl
  | cons choice choices ih =>
    rw [run, run, ← same s choice start]
    cases head : step s choice with
    | none => rfl
    | some next => exact ih (kept s choice next start head)

end Driven

end Await.General.Transition
