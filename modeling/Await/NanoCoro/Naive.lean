import Await.General.TaskPool
import Mathlib.Data.List.Basic
import Mathlib.Data.Nat.Init
import Mathlib.Tactic.SplitIfs

/-! `naive.h` and the counting loop over it in `nanotest.cpp`. A `vector<int>` is an
array of integers, an iterator is a position, and a read outside the array is `none`.
Besides its answer a search returns the positions it dereferenced. -/

namespace Await.NanoCoro.Naive

open General.TaskPool

/-- What a finished search did: the positions it read, in order, and whether it
returned true. -/
abbrev Outcome := Script Nat Bool

def after (position : Nat) (later : Outcome) : Outcome :=
  ⟨position :: later.steps, later.answer⟩

/-- `while (len > 0) { ... } return false;` -/
def naiveLoop (v : Array Int) (val : Int) (first len : Nat) : Option Outcome :=
  if 0 < len then
    let half := len / 2
    let middle := first + half
    match v[middle]? with
    | none => none
    | some middleKey =>
      -- the interval shrinks before the equality test, as in the source
      let first' := if middleKey < val then middle + 1 else first
      let len' := if middleKey < val then len - half - 1 else half
      if middleKey = val then some ⟨[middle], true⟩
      else (naiveLoop v val first' len').map (after middle)
  else some ⟨[], false⟩
termination_by len
decreasing_by split_ifs <;> omega

def naiveBinarySearch (v : Array Int) (first last : Nat) (val : Int) : Option Outcome :=
  naiveLoop v val first (last - first)

/-- `naive_binary_search(v.begin(), v.end(), key)` returned true. -/
def naiveFinds (v : Array Int) (key : Int) : Bool :=
  (naiveBinarySearch v 0 v.size key).any fun outcome => outcome.answer

/-- `if (naive_binary_search(beg, end, key)) ++found;` -/
def countHit (v : Array Int) (found : Nat) (key : Int) : Option Nat :=
  (naiveBinarySearch v 0 v.size key).map fun outcome =>
    if outcome.answer then found + 1 else found

/-- `testNaive`: one naive search per key, counting the hits. -/
def testNaive (v : Array Int) (lookups : List Int) : Option Nat :=
  lookups.foldlM (countHit v) 0

theorem naiveLoop_empty (v : Array Int) (val : Int) (first : Nat) :
    naiveLoop v val first 0 = some ⟨[], false⟩ := by
  rw [naiveLoop]
  simp

/-- One turn of the loop, with the element it reads. -/
theorem naiveLoop_read {v : Array Int} {val x : Int} {first len : Nat} (positive : 0 < len)
    (element : v[first + len / 2]? = some x) :
    naiveLoop v val first len =
      if x = val then some ⟨[first + len / 2], true⟩
      else (naiveLoop v val (if x < val then first + len / 2 + 1 else first)
        (if x < val then len - len / 2 - 1 else len / 2)).map
          (after (first + len / 2)) := by
  rw [naiveLoop]
  simp only [positive, if_true, element]

/-- A window inside the array stays inside it. -/
theorem window_inside {v : Array Int} {first len : Nat} (val x : Int) (positive : 0 < len)
    (inside : first + len ≤ v.size) :
    (if x < val then first + len / 2 + 1 else first) +
      (if x < val then len - len / 2 - 1 else len / 2) ≤ v.size := by
  split_ifs <;> omega

theorem middle_read {v : Array Int} {first len : Nat} (positive : 0 < len)
    (inside : first + len ≤ v.size) : ∃ x, v[first + len / 2]? = some x :=
  ⟨_, Array.getElem?_eq_getElem (by omega)⟩

/-- The loop never reads outside the array, so it always ends with an outcome. -/
theorem naiveLoop_total {v : Array Int} (val : Int) {first len : Nat}
    (inside : first + len ≤ v.size) : ∃ outcome, naiveLoop v val first len = some outcome := by
  induction len using Nat.strongRecOn generalizing first with
  | ind len ih =>
    by_cases positive : 0 < len
    · obtain ⟨x, element⟩ := middle_read positive inside
      rw [naiveLoop_read positive element]
      by_cases hit : x = val
      · exact ⟨_, if_pos hit⟩
      · have shorter : (if x < val then len - len / 2 - 1 else len / 2) < len := by
          split_ifs <;> omega
        obtain ⟨later, done⟩ := ih _ shorter (window_inside val x positive inside)
        exact ⟨after (first + len / 2) later, by rw [if_neg hit, done]; rfl⟩
    · have empty : len = 0 := by omega
      exact ⟨_, empty ▸ naiveLoop_empty v val first⟩

theorem naiveBinarySearch_total (v : Array Int) (key : Int) :
    ∃ outcome, naiveBinarySearch v 0 v.size key = some outcome :=
  naiveLoop_total key (by omega)

theorem naiveFinds_eq {v : Array Int} {key : Int} {outcome : Outcome}
    (done : naiveBinarySearch v 0 v.size key = some outcome) :
    naiveFinds v key = outcome.answer := by
  simp [naiveFinds, done]

theorem countHit_eq (v : Array Int) (found : Nat) (key : Int) :
    countHit v found key = some (found + if naiveFinds v key then 1 else 0) := by
  obtain ⟨outcome, done⟩ := naiveBinarySearch_total v key
  simp only [countHit, done, Option.map_some, naiveFinds_eq done]
  split_ifs <;> rfl

/-- `testNaive` counts the keys that a naive search finds. -/
theorem testNaive_eq (v : Array Int) (lookups : List Int) :
    testNaive v lookups = some (lookups.countP (naiveFinds v)) := by
  have from_count : ∀ found, lookups.foldlM (countHit v) found =
      some (found + lookups.countP (naiveFinds v)) := by
    induction lookups with
    | nil => simp
    | cons key lookups ih =>
      intro found
      rw [List.foldlM_cons, countHit_eq, List.countP_cons]
      simp only [Option.bind_eq_bind, Option.bind_some, ih]
      congr 1
      omega
  simpa [testNaive] using from_count 0

end Await.NanoCoro.Naive
