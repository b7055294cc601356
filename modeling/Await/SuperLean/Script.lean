import Await.SuperLean.Pal
import Mathlib.Data.Nat.Find

/-! Readers that follow a script: all receives are pending and complete as the script says.
A reader is known here by what it takes from each completion, and its log shows how far it
has got. -/

namespace Await.SuperLean.Script
open General.Callback General.Transition Pal

/-- How a pending receive completes. -/
structure Completion where
  error : ErrorCode
  bytes : Nat
  fits : bytes ≤ readerSize

/-- The first completions of a script, as packets report them. -/
def reports (script : Nat → Completion) (n : Nat) : List (ErrorCode × Nat) :=
  (List.range n).map fun i => ((script i).error, (script i).bytes)

/-- What a reader does with a completion: how much is still to come after it, if the reader
goes on at all. -/
abbrev Take := Int → ErrorCode × Nat → Option Int

/-- The reader goes on after each of the first completions and stops after the `n`-th. -/
def Stops (take : Take) (total : Int) (script : Nat → Completion) (n : Nat) : Prop :=
  run take total (reports script n) = none ∧ ∀ k < n, run take total (reports script k) ≠ none

section
variable {take : Take} {total remaining left : Int} {script : Nat → Completion} {n m : Nat}

theorem reports_succ : reports script (n + 1) = reports script n ++ [((script n).error, (script n).bytes)] := by
  simp [reports, List.range_succ]

theorem reports_prefix (script : Nat → Completion) (shorter : m ≤ n) : reports script m <+: reports script n := by
  obtain ⟨k, rfl⟩ := Nat.exists_eq_add_of_le shorter
  simp [reports, List.range_add]

theorem run_reports_succ : run take total (reports script (n + 1)) = some left ↔
    ∃ mid, run take total (reports script n) = some mid ∧ take mid ((script n).error, (script n).bytes) = some left := by
  rw [reports_succ, run_concat]

@[simp] theorem length_reports : (reports script n).length = n := by
  simp [reports]

theorem Stops.unique (stops : Stops take total script n) (stops' : Stops take total script m) : n = m := by
  rcases Nat.lt_trichotomy n m with less | same | more
  · exact absurd stops.1 (stops'.2 n less)
  · exact same
  · exact absurd stops'.1 (stops.2 m more)

theorem exists_stops (never : run take total (reports script n) = none) : ∃ m, Stops take total script m := by
  classical
  have some_stop : ∃ n, run take total (reports script n) = none := ⟨n, never⟩
  exact ⟨Nat.find some_stop, Nat.find_spec some_stop, fun _ earlier => Nat.find_min some_stop earlier⟩

/-- A machine that goes along with `take`, one completion at a time, can be driven to the
end when `take` stops. -/
theorem reach_end {σ ι : Type} {step : σ → ι → Option σ} {s : σ} (Idle : Int → Nat → σ → Prop)
    {Over : Nat → σ → Prop} (start : CanReach step (Idle total 0) s)
    (next : ∀ remaining n left s, Idle remaining n s →
      take remaining ((script n).error, (script n).bytes) = some left → CanReach step (Idle left (n + 1)) s)
    (last : ∀ remaining n s, Idle remaining n s →
      take remaining ((script n).error, (script n).bytes) = none → CanReach step (Over (n + 1)) s)
    (stops : Stops take total script n) : CanReach step (Over n) s := by
  have idle : ∀ n left, run take total (reports script n) = some left → CanReach step (Idle left n) s := by
    intro n
    induction n with
    | zero =>
      intro left same
      obtain rfl : total = left := by simpa [reports] using same
      exact start
    | succ n ih =>
      intro left more
      obtain ⟨mid, before, taken⟩ := run_reports_succ.mp more
      exact (ih mid before).trans fun t idle => next mid n left t idle taken
  cases n with
  | zero => simp [Stops, reports] at stops
  | succ n =>
    obtain ⟨remaining, before⟩ := Option.ne_none_iff_exists'.mp (stops.2 n (Nat.lt_succ_self n))
    refine (idle n remaining before).trans fun t idle => last remaining n t idle ?_
    by_contra more
    obtain ⟨left, taken⟩ := Option.ne_none_iff_exists'.mp more
    have never := stops.1
    rw [run_reports_succ.mpr ⟨remaining, before, taken⟩] at never
    cases never

end

/-! ### What a log shows -/

/-- Which points of a reader's code take the packets of its connect and of its receives. -/
structure View (κ : Type) where
  connect : κ → Option ErrorCode
  receive : κ → Option (ErrorCode × Nat)

section
variable {κ : Type}

def isReceive : Entry κ Call → Bool
  | .call (.receive _) => true
  | _ => false

/-- The number of `Receive` calls. -/
def receives (log : List (Entry κ Call)) : Nat := log.countP isReceive

def View.reported (V : View κ) : Entry κ Call → Option (ErrorCode × Nat)
  | .packet point => V.receive point
  | _ => none

/-- The completions of receives, in order. -/
def View.completions (V : View κ) (log : List (Entry κ Call)) : List (ErrorCode × Nat) :=
  log.filterMap V.reported

/-- An operation is pending when it is started, and a connect succeeds. -/
def View.Fine (V : View κ) : Entry κ Call → Prop
  | .call _ => True
  | .result outcome => outcome = .later
  | .packet point => (V.connect point).getD 0 = 0

instance (V : View κ) : DecidablePred V.Fine
  | .call _ => .isTrue trivial
  | .result outcome => inferInstanceAs (Decidable (outcome = .later))
  | .packet point => inferInstanceAs (Decidable ((V.connect point).getD 0 = 0))

def View.Asynchronous (V : View κ) (log : List (Entry κ Call)) : Prop := ∀ entry ∈ log, V.Fine entry

instance (V : View κ) (log : List (Entry κ Call)) : Decidable (V.Asynchronous log) :=
  inferInstanceAs (Decidable (∀ entry ∈ log, V.Fine entry))

/-- All receives are pending and complete as the script says. -/
structure View.Follows (V : View κ) (script : Nat → Completion) (log : List (Entry κ Call)) : Prop where
  async : V.Asynchronous log
  scripted : V.completions log = reports script (V.completions log).length

/-- So much is still to come, by the reader's own count, with so many receives in flight. -/
structure Going (take : Take) (V : View κ) (total remaining : Int) (inFlight : Nat)
    (log : List (Entry κ Call)) : Prop where
  more : 0 < remaining
  left : run take total (V.completions log) = some remaining
  issued : receives log = (V.completions log).length + inFlight

/-- A completion has come in and is about to be taken. -/
structure Due (take : Take) (V : View κ) (total remaining : Int) (completion : ErrorCode × Nat)
    (log : List (Entry κ Call)) : Prop where
  left : ∃ before, V.completions log = before ++ [completion] ∧ run take total before = some remaining
  issued : receives log = (V.completions log).length

/-- The reader has stopped after the last completion, and not before. -/
structure Ended (take : Take) (V : View κ) (total : Int) (log : List (Entry κ Call)) : Prop where
  stopped : ∃ before completion remaining, V.completions log = before ++ [completion] ∧
    run take total before = some remaining ∧ take remaining completion = none
  issued : receives log = (V.completions log).length

variable {take : Take} {V : View κ} {total remaining left : Int} {inFlight : Nat} {log more : List (Entry κ Call)}
  {completion : ErrorCode × Nat} {point : κ} {script : Nat → Completion} {n : Nat}

@[simp] theorem receives_append : receives (log ++ more) = receives log + receives more := List.countP_append

@[simp] theorem completions_append : V.completions (log ++ more) = V.completions log ++ V.completions more :=
  List.filterMap_append

theorem View.Asynchronous.before (both : V.Asynchronous (log ++ more)) : V.Asynchronous log :=
  fun entry member => both entry (List.mem_append_left more member)

/-- Entries that report no completion. -/
theorem Going.silent (going : Going take V total remaining inFlight log) (none : V.completions more = [])
    (begun : inFlight + receives more = n) : Going take V total remaining n (log ++ more) := by
  refine ⟨going.more, by simpa [none] using going.left, ?_⟩
  have issued := going.issued
  simp [none]
  omega

theorem Ended.silent (ended : Ended take V total log) (none : V.completions more = [])
    (idle : receives more = 0) : Ended take V total (log ++ more) :=
  ⟨by simpa [none] using ended.stopped, by simpa [none, idle] using ended.issued⟩

theorem Going.packet (going : Going take V total remaining 1 log) (reported : V.receive point = some completion) :
    Due take V total remaining completion (log ++ [.packet point]) := by
  have now : V.completions [.packet point] = [completion] := by simp [View.completions, View.reported, reported]
  refine ⟨⟨V.completions log, by simp [now], going.left⟩, ?_⟩
  have quiet : receives [(.packet point : Entry κ Call)] = 0 := rfl
  simp [now, quiet, going.issued]

theorem Due.next (due : Due take V total remaining completion log) (taken : take remaining completion = some left)
    (more : 0 < left) : Going take V total left 0 log := by
  obtain ⟨⟨before, all, going⟩, issued⟩ := due
  exact ⟨more, by rw [all, run_concat]; exact ⟨remaining, going, taken⟩, issued⟩

theorem Due.stop (due : Due take V total remaining completion log) (stopped : take remaining completion = none) :
    Ended take V total log := by
  obtain ⟨⟨before, all, going⟩, issued⟩ := due
  exact ⟨⟨before, completion, remaining, all, going, stopped⟩, issued⟩

/-- A reader that has ended on a script has stopped where `take` stops on it. -/
theorem Ended.stops (ended : Ended take V total log) (follows : V.Follows script log) :
    Stops take total script (V.completions log).length := by
  obtain ⟨before, completion, remaining, all, going, stopped⟩ := ended.stopped
  have scripted := follows.scripted
  have long : (V.completions log).length = before.length + 1 := by simp [all]
  rw [long, reports_succ, all] at scripted
  obtain ⟨same, last⟩ := List.append_inj' scripted rfl
  have never : run take total (before ++ [completion]) = none := by
    by_contra more
    obtain ⟨left, path⟩ := Option.ne_none_iff_exists'.mp more
    obtain ⟨mid, going', taken⟩ := run_concat.mp path
    obtain rfl : remaining = mid := Option.some.inj (going.symm.trans going')
    cases stopped.symm.trans taken
  refine ⟨by rw [long, reports_succ, ← scripted]; exact never, fun k earlier stopped' => ?_⟩
  obtain ⟨rest, split⟩ := reports_prefix script (show k ≤ before.length by omega)
  rw [same, ← split] at going
  obtain ⟨mid, path, -⟩ := run_append.mp going
  cases stopped'.symm.trans path

/-! Logs that are made to follow a script, entry by entry. -/

/-- So many completions of the script have come in. -/
structure View.Heard (V : View κ) (script : Nat → Completion) (n : Nat) (log : List (Entry κ Call)) : Prop where
  async : V.Asynchronous log
  scripted : V.completions log = reports script n

theorem heard_nil : V.Heard script 0 [] := ⟨by simp [View.Asynchronous], rfl⟩

theorem View.Heard.follows (heard : V.Heard script n log) : V.Follows script log :=
  ⟨heard.async, by rw [heard.scripted, length_reports]⟩

/-- Ordinary entries that report no completion. -/
theorem View.Heard.quiet (heard : V.Heard script n log) (fine : V.Asynchronous more)
    (none : V.completions more = []) : V.Heard script n (log ++ more) :=
  ⟨List.forall_mem_append.mpr ⟨heard.async, fine⟩, by rw [completions_append, none, List.append_nil, heard.scripted]⟩

theorem View.Heard.calls (heard : V.Heard script n log) (calls : List Call) :
    V.Heard script n (log ++ calls.map Entry.call) :=
  heard.quiet (by simp [View.Asynchronous, View.Fine]) (by simp [View.completions, View.reported])

theorem View.Heard.later (heard : V.Heard script n log) (call : Call) :
    V.Heard script n (log ++ [.call call, .result .later]) :=
  heard.quiet (by simp [View.Asynchronous, View.Fine]) rfl

theorem View.Heard.packet (heard : V.Heard script n log) (fine : (V.connect point).getD 0 = 0)
    (reported : V.receive point = some ((script n).error, (script n).bytes)) :
    V.Heard script (n + 1) (log ++ [.packet point]) := by
  refine ⟨List.forall_mem_append.mpr ⟨heard.async, by simpa [View.Fine] using fine⟩, ?_⟩
  rw [completions_append, heard.scripted, reports_succ]
  simp [View.completions, View.reported, reported]

end

end Await.SuperLean.Script
