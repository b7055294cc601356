import Await.NanoCoro.Naive

/-! What a multi lookup is for: each key gets one naive search, and the searches may
take turns. `SmMultiLookup` and `CoroMultiLookup` are both shown to be such pools. -/

namespace Await.NanoCoro.Lookup
open General.TaskPool Naive

/-- The search numbered `search` is the naive one for the key in that place. -/
def script (v : Array Int) (lookups : List Int) (search : Nat) : Option Outcome :=
  lookups[search]?.bind (naiveBinarySearch v 0 v.size)

abbrev Progress (v : Array Int) (lookups : List Int) :=
  Pool (script v lookups)

theorem script_eq {v : Array Int} {lookups : List Int} {search : Nat} {key : Int}
    (known : lookups[search]? = some key) :
    script v lookups search = naiveBinarySearch v 0 v.size key := by
  simp [script, known]

/-- What a finished multi lookup owes its caller, read off its log: every key was
loaded once, probed where the naive search probes, and answered once as it answers. -/
def Answered (v : Array Int) (lookups : List Int) (log : List (Event Nat Bool)) : Prop :=
  ∀ search key, lookups[search]? = some key →
    ∃ outcome, naiveBinarySearch v 0 v.size key = some outcome ∧
      loads search log = 1 ∧ steps search log = outcome.steps ∧
      answers search log = [outcome.answer]

section
variable {v : Array Int} {lookups : List Int} {rest : Nat → Option Outcome}
  {log : List (Event Nat Bool)}

theorem answered_of_idle (progress : Progress v lookups lookups.length rest log)
    (idle : ∀ search, rest search = none) : Answered v lookups log := by
  intro search key known
  obtain ⟨inside, -⟩ := List.getElem?_eq_some_iff.mp known
  obtain ⟨whole, mine, once, probes, answer⟩ := progress.finished (idle search) inside
  exact ⟨whole, (script_eq known).symm.trans mine, once, probes, answer⟩

private theorem sum_range_countP (p : Int → Bool) (xs : List Int) (f : Nat → Nat)
    (each : ∀ i x, xs[i]? = some x → f i = if p x then 1 else 0) :
    ∑ i ∈ Finset.range xs.length, f i = xs.countP p := by
  induction xs generalizing f with
  | nil => simp
  | cons x xs ih =>
    have head : f 0 = if p x then 1 else 0 := each 0 x rfl
    have tail := ih (fun i => f (i + 1)) (fun i y known => each (i + 1) y (by simpa using known))
    rw [List.length_cons, Finset.sum_range_succ', tail, head, List.countP_cons]

/-- A counter bumped at every retirement whose answer satisfies `p` ends at the number
of keys whose naive answer satisfies `p`. -/
theorem tally_of_idle (progress : Progress v lookups lookups.length rest log)
    (idle : ∀ search, rest search = none) (p : Bool → Bool) :
    tally p log = lookups.countP fun key => p (naiveFinds v key) := by
  rw [progress.tally_eq_sum p]
  apply sum_range_countP
  intro search key known
  obtain ⟨outcome, done, -, -, answer⟩ := answered_of_idle progress idle search key known
  rw [answer, naiveFinds_eq done]
  simp [List.countP_cons]

end

end Await.NanoCoro.Lookup
