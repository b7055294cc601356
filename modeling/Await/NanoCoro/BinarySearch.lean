import Await.General.Bisection
import Await.General.Transition
import Await.NanoCoro.CoroSearch
import Await.NanoCoro.SmFrame

/-! The three binary searches on their own: `naive_binary_search`, `sm_binary_search` and
`CoroBinarySearch` resumed to its end. The window is shrunk before the element is compared
with the key, so each of them may be left with no window on the very step that finds it. -/

namespace Await.NanoCoro.BinarySearch
open General.Bisection General.TaskPool General.Transition CoroSearch Naive SmFrame StateTransition

abbrev cells (v : Array Int) (place : Nat) : Option Int := v[place]?

/-- What a search of `[first, last)` owes its caller: the right answer, the last element read
as its evidence, and at most `⌊log₂ n⌋ + 1` reads, all inside. -/
structure Correct (v : Array Int) (first last : Nat) (key : Int) (outcome : Outcome) : Prop where
  answer_iff : outcome.answer = true ↔ Occurs (cells v) first last key
  hit : outcome.answer = true → ∃ before place, outcome.steps = before ++ [place] ∧ v[place]? = some key
  inside : ∀ place ∈ outcome.steps, first ≤ place ∧ place < last
  short : outcome.steps.length ≤ halvings (last - first)

section
variable {v : Array Int} {first last len : Nat} {key x : Int}

/-- A miss, and what a search of the half that is left does. -/
theorem Correct.after {middle first' last' : Nat} {later : Outcome} (half : Correct v first' last' key later)
    (same : Occurs (cells v) first last key ↔ Occurs (cells v) first' last' key)
    (lower : first ≤ middle) (upper : middle < last) (lower' : first ≤ first') (upper' : last' ≤ last)
    (shorter : last' - first' ≤ (last - first) / 2) : Correct v first last key (Naive.after middle later) where
  answer_iff := half.answer_iff.trans same.symm
  hit answer := by
    obtain ⟨before, place, steps_eq, found⟩ := half.hit answer
    exact ⟨middle :: before, place, by simp [Naive.after, steps_eq], found⟩
  inside place read := by
    rcases List.mem_cons.mp read with rfl | later_read
    · exact ⟨lower, upper⟩
    · have := half.inside place later_read
      omega
  short := by
    have := half.short
    have := halvings_half (by omega) shorter
    simp only [Naive.after, List.length_cons]
    omega

theorem naiveLoop_correct (key : Int) (sorted : SortedOn (cells v) first (first + len)) (inside : first + len ≤ v.size) :
    ∃ outcome, naiveLoop v key first len = some outcome ∧ Correct v first (first + len) key outcome := by
  induction len using Nat.strongRecOn generalizing first with
  | ind len ih =>
    by_cases positive : 0 < len
    · obtain ⟨x, element⟩ := middle_read positive inside
      rw [naiveLoop_read positive element]
      by_cases hit : x = key
      · subst hit
        refine ⟨_, if_pos rfl, ?_⟩
        have bound := halvings_half positive (Nat.zero_le (len / 2))
        exact {
          answer_iff := iff_of_true rfl ⟨_, by omega, by omega, element⟩
          hit := fun _ => ⟨[], _, rfl, element⟩
          inside := fun place read => by
            obtain rfl := List.mem_singleton.mp read
            omega
          short := by
            simp only [Nat.add_sub_cancel_left, List.length_singleton]
            omega }
      · rw [if_neg hit]
        by_cases below : x < key
        · rw [if_pos below, if_pos below]
          have whole : first + len / 2 + 1 + (len - len / 2 - 1) = first + len := by omega
          have upper : SortedOn (cells v) (first + len / 2 + 1) (first + len / 2 + 1 + (len - len / 2 - 1)) :=
            whole ▸ sorted.sub (by omega) le_rfl
          obtain ⟨later, rest, half⟩ := ih (len - len / 2 - 1) (by omega) upper (whole ▸ inside)
          rw [whole] at half
          exact ⟨_, by rw [rest, Option.map_some], half.after
            (occurs_above sorted (by omega) (by omega) element below) (by omega) (by omega) (by omega) le_rfl (by omega)⟩
        · rw [if_neg below, if_neg below]
          have lower : SortedOn (cells v) first (first + len / 2) := sorted.sub le_rfl (by omega)
          obtain ⟨later, rest, half⟩ := ih (len / 2) (by omega) lower (by omega)
          exact ⟨_, by rw [rest, Option.map_some], half.after
            (occurs_below sorted (by omega) (by omega) element (by omega)) (by omega) (by omega) le_rfl (by omega) (by omega)⟩
    · obtain rfl : len = 0 := by omega
      refine ⟨_, naiveLoop_empty v key first, ?_⟩
      exact {
        answer_iff := iff_of_false (by simp) (not_occurs_empty (by omega))
        hit := nofun
        inside := nofun
        short := Nat.zero_le _ }

/-- `naive_binary_search(first, last, key)`. -/
theorem naive_correct (key : Int) (sorted : SortedOn (cells v) first last) (order : first ≤ last) (inside : last ≤ v.size) :
    ∃ outcome, naiveBinarySearch v first last key = some outcome ∧ Correct v first last key outcome := by
  have whole : first + (last - first) = last := by omega
  obtain ⟨outcome, done, correct⟩ :=
    naiveLoop_correct key (whole.symm ▸ sorted : SortedOn (cells v) first (first + (last - first))) (by omega)
  exact ⟨outcome, done, whole ▸ correct⟩

end

/-! ### The state machine -/

/-- The local `Frame f` of `sm_binary_search`, and the elements read so far. -/
structure SmSearch where
  f : Frame
  reads : List Nat := []

/-- `while (f.state == 0) f.run();` -/
def smStep (v : Array Int) (s : SmSearch) : Option SmSearch :=
  if s.f.state = .keepGoing then do
    let middle ← s.f.middle
    let (_, f) ← s.f.run v
    some ⟨f, s.reads ++ [middle]⟩
  else none

/-- `Frame f; f.init(first, last, key);` where all of `f` but its state is indeterminate. -/
def smStart (f : Frame) (first last : Nat) (key : Int) : SmSearch := ⟨f.init first last key, []⟩

/-- `return f.state == 1;` -/
def SmSearch.result (s : SmSearch) : Bool := decide (s.f.state = .found)

theorem init_running_at {v : Array Int} {first last : Nat} (f : Frame) (key : Int) (nonempty : first < last)
    (inside : last ≤ v.size) : Running v (f.init first last key) ∧
      SmFrame.remaining v (f.init first last key) = naiveBinarySearch v first last key := by
  have len : subSize last first = last - first := subSize_of_le nonempty.le
  have kept : last - first ≠ 0 := by omega
  simp only [Frame.init, len, if_neg kept]
  have whole : first + (last - first) ≤ v.size := by omega
  exact ⟨⟨rfl, Nat.sub_pos_of_lt nonempty, rfl, first, rfl, rfl, whole⟩, rfl⟩

/-- The state machine reads on as the naive loop does from where it is. -/
theorem sm_runs (v : Array Int) (s : SmSearch) {outcome : Outcome} (running : Running v s.f)
    (rest : SmFrame.remaining v s.f = some outcome) :
    ∃ final, Reaches (smStep v) s final ∧ final.f.state ≠ .keepGoing ∧
      final.reads = s.reads ++ outcome.steps ∧ final.result = outcome.answer := by
  induction height : s.f.len using Nat.strongRecOn generalizing s outcome with
  | ind len ih =>
    obtain ⟨middle, done, f, ran⟩ := running.run
    have stepped : smStep v s = some ⟨f, s.reads ++ [middle]⟩ := by
      simp [smStep, running.going, ran.middle_eq, ran.run_eq]
    cases done with
    | true =>
      obtain ⟨ended, last⟩ := ran.stopped rfl
      obtain rfl := Option.some.inj (last.symm.trans rest)
      exact ⟨_, .single stepped, ended, rfl, rfl⟩
    | false =>
      obtain ⟨running', shorter, later, rest', whole⟩ := ran.goes_on rfl
      obtain rfl := Option.some.inj (whole.symm.trans rest)
      obtain ⟨final, path, ended, reads, result⟩ :=
        ih f.len (height ▸ shorter) ⟨f, s.reads ++ [middle]⟩ running' rest' rfl
      exact ⟨final, .head stepped path, ended, by simpa [Naive.after] using reads, result⟩

theorem sm_correct {v : Array Int} {first last : Nat} {key : Int} (f : Frame)
    (sorted : SortedOn (cells v) first last) (order : first ≤ last) (inside : last ≤ v.size) :
    ∃ final ∈ eval (smStep v) (smStart f first last key), final.f.state ≠ .keepGoing ∧
      Correct v first last key ⟨final.reads, final.result⟩ := by
  obtain ⟨outcome, done, correct⟩ := naive_correct key sorted order inside
  rcases order.lt_or_eq with nonempty | rfl
  · obtain ⟨running, rest⟩ := init_running_at f key nonempty inside
    obtain ⟨final, path, ended, reads, result⟩ := sm_runs v (smStart f first last key) running (rest.trans done)
    refine ⟨final, mem_eval.mpr ⟨path, by simp [smStep, ended]⟩, ended, ?_⟩
    rw [reads, result]
    exact correct
  · -- `init` ends the search
    have ended : (f.init first first key).state = .notFound := by simp [Frame.init, subSize]
    obtain rfl : outcome = ⟨[], false⟩ := by
      simpa [naiveBinarySearch, naiveLoop_empty] using done.symm
    refine ⟨_, mem_eval.mpr ⟨.refl, by simp [smStart, smStep, ended]⟩, by simp [smStart, ended], ?_⟩
    simpa [smStart, SmSearch.result, ended] using correct

/-! ### The coroutine -/

inductive Callback where
  | onFound (place : Nat)
  | onNotFound
  deriving DecidableEq, Repr

def Callback.found : Callback → Bool
  | .onFound _ => true
  | .onNotFound => false

/-- A coroutine that is resumed until it ends, what it has read, and its calls back. -/
structure CoroRun where
  frame : Option SearchFrame
  reads : List Nat := []
  calls : List Callback := []
  deriving DecidableEq, Repr

/-- One `resume()`. -/
def coroStep (v : Array Int) (s : CoroRun) : Option CoroRun := do
  let frame ← s.frame
  let (reads, activation) ← frame.resume v
  let reads := s.reads ++ reads
  match activation with
  | .suspended next => some { s with frame := some next, reads }
  | .onFound middle => some { frame := none, reads, calls := s.calls ++ [.onFound middle] }
  | .onNotFound => some { frame := none, reads, calls := s.calls ++ [.onNotFound] }

/-- `CoroBinarySearch(first, last, val, on_found, on_not_found)`. -/
def coroStart (first last : Nat) (val : Int) (address : Nat) : CoroRun where
  frame := some { first, last, val, address }

/-- The call back that an outcome makes, with the element that was read last. -/
def Answers (outcome : Outcome) : Callback → Prop
  | .onFound place => outcome.answer = true ∧ ∃ before, outcome.steps = before ++ [place]
  | .onNotFound => outcome.answer = false

theorem found_read {v : Array Int} {frame : SearchFrame} {reads : List Nat} {place : Nat}
    (resumes : frame.resume v = some (reads, .onFound place)) : reads = [place] := by
  have goes_on (frame : SearchFrame) : frame.loop ≠ .onFound place := by
    unfold SearchFrame.loop
    split <;> simp
  unfold SearchFrame.resume at resumes
  split at resumes
  · exact absurd (Prod.ext_iff.mp (Option.some.inj resumes)).2 (goes_on _)
  · simp only [Option.bind_eq_bind, Option.bind_eq_some_iff] at resumes
    obtain ⟨x, -, branch⟩ := resumes
    split at branch
    · cases branch
      rfl
    · exact absurd (Prod.ext_iff.mp (Option.some.inj branch)).2 (goes_on _)

theorem coro_runs (v : Array Int) (s : CoroRun) {frame : SearchFrame} {outcome : Outcome} (live : s.frame = some frame)
    (poised : Poised v frame) (rest : CoroSearch.remaining v frame = some outcome) :
    ∃ final callback, Reaches (coroStep v) s final ∧ final.frame = none ∧ final.reads = s.reads ++ outcome.steps ∧
      final.calls = s.calls ++ [callback] ∧ Answers outcome callback := by
  induction height : window frame using Nat.strongRecOn generalizing s frame outcome with
  | ind size ih =>
    obtain ⟨reads, activation, resumes, leaves⟩ := poised.resume
    cases activation with
    | suspended next =>
      obtain ⟨poised', -, -, shorter, later, rest', whole⟩ := leaves
      obtain rfl := Option.some.inj (whole.symm.trans rest)
      have stepped : coroStep v s = some { s with frame := some next, reads := s.reads ++ reads } := by
        simp [coroStep, live, resumes]
      obtain ⟨final, callback, path, ended, reads', calls, answers⟩ :=
        ih (window next) (height ▸ shorter) { s with frame := some next, reads := s.reads ++ reads } rfl poised' rest' rfl
      refine ⟨final, callback, .head stepped path, ended, by simpa using reads', calls, ?_⟩
      cases callback with
      | onFound place =>
        obtain ⟨found, before, steps_eq⟩ := answers
        exact ⟨found, reads ++ before, by simp [steps_eq]⟩
      | onNotFound => exact answers
    | onFound place =>
      obtain rfl := Option.some.inj (leaves.1.symm.trans rest)
      obtain rfl := found_read resumes
      exact ⟨_, .onFound place, .single (by simp [coroStep, live, resumes]; rfl), rfl, rfl, rfl, rfl, [], rfl⟩
    | onNotFound =>
      obtain rfl := Option.some.inj (Eq.symm (Eq.trans (Eq.symm rest) leaves))
      exact ⟨_, .onNotFound, .single (by simp [coroStep, live, resumes]; rfl), rfl, rfl, rfl, rfl⟩

/-- The position given to `on_found` is one in the window where the key is. -/
def Points (v : Array Int) (first last : Nat) (key : Int) : Callback → Prop
  | .onFound place => first ≤ place ∧ place < last ∧ v[place]? = some key
  | .onNotFound => True

theorem coro_correct {v : Array Int} {first last : Nat} {key : Int} (address : Nat)
    (sorted : SortedOn (cells v) first last) (order : first ≤ last) (inside : last ≤ v.size) :
    ∃ final ∈ eval (coroStep v) (coroStart first last key address), final.frame = none ∧
      ∃ callback, final.calls = [callback] ∧ Points v first last key callback ∧
        Correct v first last key ⟨final.reads, callback.found⟩ := by
  obtain ⟨outcome, done, correct⟩ := naive_correct key sorted order inside
  have poised : Poised v { first, last, val := key, address } := by
    simp only [Poised]
    omega
  obtain ⟨final, callback, path, ended, reads, calls, answers⟩ :=
    coro_runs v (coroStart first last key address) rfl poised done
  refine ⟨final, mem_eval.mpr ⟨path, by simp [coroStep, ended]⟩, ended, callback, calls, ?_, ?_⟩
  · cases callback with
    | onNotFound => trivial
    | onFound place =>
      obtain ⟨found, before, steps_eq⟩ := answers
      obtain ⟨before', place', steps_eq', element⟩ := correct.hit found
      obtain ⟨-, same⟩ := List.append_inj' (steps_eq.symm.trans steps_eq') rfl
      obtain rfl := (List.cons.inj same).1
      obtain ⟨lower, upper⟩ := correct.inside place (by simp [steps_eq])
      exact ⟨lower, upper, element⟩
  · have found_eq : callback.found = outcome.answer := by
      cases callback with
      | onFound place => exact answers.1.symm
      | onNotFound => exact Eq.symm answers
    rw [reads, found_eq]
    exact correct

/-- Three versions of one search: on a sorted window each says whether the key occurs, with
at most `⌊log₂ n⌋ + 1` reads inside the window. -/
theorem binary_searches_correct (v : Array Int) (first last : Nat) (key : Int) (f : Frame) (address : Nat)
    (sorted : SortedOn (cells v) first last) (order : first ≤ last) (inside : last ≤ v.size) :
    (∃ outcome, naiveBinarySearch v first last key = some outcome ∧ Correct v first last key outcome) ∧
    (∃ final ∈ eval (smStep v) (smStart f first last key), final.f.state ≠ .keepGoing ∧
      Correct v first last key ⟨final.reads, final.result⟩) ∧
    ∃ final ∈ eval (coroStep v) (coroStart first last key address), final.frame = none ∧
      ∃ callback, final.calls = [callback] ∧ Points v first last key callback ∧
        Correct v first last key ⟨final.reads, callback.found⟩ :=
  ⟨naive_correct key sorted order inside, sm_correct f sorted order inside, coro_correct address sorted order inside⟩

theorem binary_searches_correct_duplicates :
    (∃ outcome, naiveBinarySearch #[2, 2, 2, 7] 1 3 2 = some outcome ∧ Correct #[2, 2, 2, 7] 1 3 2 outcome) ∧
    (∃ final ∈ eval (smStep #[2, 2, 2, 7]) (smStart {} 1 3 2), final.f.state ≠ .keepGoing ∧
      Correct #[2, 2, 2, 7] 1 3 2 ⟨final.reads, final.result⟩) ∧
    ∃ final ∈ eval (coroStep #[2, 2, 2, 7]) (coroStart 1 3 2 64), final.frame = none ∧
      ∃ callback, final.calls = [callback] ∧ Points #[2, 2, 2, 7] 1 3 2 callback ∧
        Correct #[2, 2, 2, 7] 1 3 2 ⟨final.reads, callback.found⟩ := by
  refine binary_searches_correct #[2, 2, 2, 7] 1 3 2 {} 64 ?_ (by decide) (by decide)
  intro i j x y above order below atI atJ
  have two (place : Nat) (inWindow : 1 ≤ place ∧ place < 3) : (#[2, 2, 2, 7] : Array Int)[place]? = some 2 := by
    rcases (by omega : place = 1 ∨ place = 2) with rfl | rfl <;> rfl
  obtain rfl := Option.some.inj ((two i (by omega)).symm.trans atI)
  obtain rfl := Option.some.inj ((two j (by omega)).symm.trans atJ)
  exact le_rfl

end Await.NanoCoro.BinarySearch
