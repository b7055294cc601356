import Await.NanoCoro.Naive

/-! `CoroBinarySearch` of `coro.h`, cut at its suspension points. A frame remembers where
the coroutine stopped; one resumption runs it to its next `co_await` or to its end. -/

namespace Await.NanoCoro.CoroSearch
open General.TaskPool Naive

/-- Where a suspended search will go on: before its first statement, or at
`co_await prefetch(*middle)`. -/
inductive Point where
  | initialSuspend | prefetch
  deriving DecidableEq, Repr

/-- The coroutine frame: parameters, locals, resume point, the promise's `owner` (null
until `set_owner`), and the block that `operator new` gave it. -/
structure SearchFrame where
  first : Nat
  last : Nat
  val : Int
  len : Nat := 0
  half : Nat := 0
  middle : Nat := 0
  point : Point := .initialSuspend
  hasOwner : Bool := false
  address : Nat
  deriving DecidableEq, Repr

/-- How an activation of the body ends. -/
inductive Activation where
  | suspended (frame : SearchFrame)
  | onFound (middle : Nat)
  | onNotFound
  deriving DecidableEq, Repr

/-- From the test of `while (len > 0)` to the `co_await` in the loop, or past the loop. -/
def SearchFrame.loop (frame : SearchFrame) : Activation :=
  if 0 < frame.len then
    let half := frame.len / 2
    .suspended { frame with half := half, middle := frame.first + half, point := .prefetch }
  else .onNotFound

/-- `if (x < val) { first = middle; ++first; len = len - half - 1; } else len = half;` -/
def SearchFrame.narrow (x : Int) (frame : SearchFrame) : SearchFrame :=
  if x < frame.val then { frame with first := frame.middle + 1, len := frame.len - frame.half - 1 }
  else { frame with len := frame.half }

/-- One activation of the body, with the positions it reads. The element awaited is read
when the coroutine is resumed, as `await_resume` returns a reference. -/
def SearchFrame.resume (v : Array Int) (frame : SearchFrame) : Option (List Nat × Activation) :=
  match frame.point with
  | .initialSuspend => some ([], SearchFrame.loop { frame with len := frame.last - frame.first })
  | .prefetch => do
      let x ← v[frame.middle]?
      let next := frame.narrow x
      if x = frame.val then some ([frame.middle], .onFound frame.middle)
      else some ([frame.middle], next.loop)

section
variable {v : Array Int} {frame : SearchFrame}

/-- The frame of a suspended search is what its resume point needs. -/
def Poised (v : Array Int) (frame : SearchFrame) : Prop :=
  match frame.point with
  | .initialSuspend => frame.first + (frame.last - frame.first) ≤ v.size
  | .prefetch => 0 < frame.len ∧ frame.half = frame.len / 2 ∧
      frame.middle = frame.first + frame.half ∧ frame.first + frame.len ≤ v.size

/-- What a suspended search has still to do, as the naive loop does it. -/
def remaining (v : Array Int) (frame : SearchFrame) : Option Outcome :=
  match frame.point with
  | .initialSuspend => naiveBinarySearch v frame.first frame.last frame.val
  | .prefetch => naiveLoop v frame.val frame.first frame.len

/-- A bound on the resumptions a suspended search still needs. -/
def window (frame : SearchFrame) : Nat :=
  match frame.point with
  | .initialSuspend => frame.last - frame.first + 1
  | .prefetch => frame.len

theorem Poised.window_pos (poised : Poised v frame) : 0 < window frame := by
  unfold Poised at poised
  unfold window
  split at poised
  · omega
  · exact poised.1

theorem Poised.remaining_some (poised : Poised v frame) : ∃ outcome, remaining v frame = some outcome := by
  unfold Poised at poised
  unfold remaining
  split at poised
  · exact naiveLoop_total frame.val poised
  · exact naiveLoop_total frame.val poised.2.2.2

/-- What an activation leaves behind, given what the search had to do before it: the
positions it read, and after them the rest, or the answer. -/
def Leaves (v : Array Int) (frame : SearchFrame) (reads : List Nat) : Activation → Prop
  | .suspended next => Poised v next ∧ next.hasOwner = frame.hasOwner ∧ next.address = frame.address ∧
      window next < window frame ∧ ∃ later, remaining v next = some later ∧
        remaining v frame = some ⟨reads ++ later.steps, later.answer⟩
  | .onFound position => remaining v frame = some ⟨reads, true⟩ ∧ v[position]? = some frame.val
  | .onNotFound => remaining v frame = some ⟨reads, false⟩

/-- Reaching the loop test with `len` elements left does what the naive loop does there. -/
private theorem loop_leaves (frame start : SearchFrame) {reads : List Nat} (inside : frame.first + frame.len ≤ v.size)
    (owner : frame.hasOwner = start.hasOwner) (block : frame.address = start.address)
    (shorter : frame.len < window start)
    (whole : remaining v start =
      (naiveLoop v frame.val frame.first frame.len).map fun later => ⟨reads ++ later.steps, later.answer⟩) :
    Leaves v start reads frame.loop := by
  unfold SearchFrame.loop
  by_cases nonempty : 0 < frame.len
  · obtain ⟨later, rest⟩ := naiveLoop_total frame.val inside
    rw [if_pos nonempty]
    refine ⟨⟨nonempty, rfl, rfl, inside⟩, owner, block, shorter, later, rest, ?_⟩
    rw [whole, rest, Option.map_some]
  · have empty : frame.len = 0 := by omega
    rw [if_neg nonempty]
    rw [empty, naiveLoop_empty] at whole
    simpa [Leaves] using whole

/-- A poised search can be resumed, and the activation does its share of the naive one. -/
theorem Poised.resume (poised : Poised v frame) :
    ∃ reads activation, frame.resume v = some (reads, activation) ∧
      Leaves v frame reads activation := by
  cases point : frame.point with
  | initialSuspend =>
    simp only [Poised, point] at poised
    refine ⟨[], SearchFrame.loop { frame with len := frame.last - frame.first },
      by unfold SearchFrame.resume; rw [point], ?_⟩
    have whole : remaining v frame = naiveLoop v frame.val frame.first (frame.last - frame.first) := by
      simp [remaining, point, naiveBinarySearch]
    refine loop_leaves { frame with len := frame.last - frame.first } frame poised rfl rfl ?_ ?_
    · simp [window, point]
    · obtain ⟨outcome, done⟩ := naiveLoop_total frame.val poised
      simp [whole, done]
  | prefetch =>
    simp only [Poised, point] at poised
    obtain ⟨positive, half_eq, middle_eq, inside⟩ := poised
    have middle : frame.middle = frame.first + frame.len / 2 := by rw [middle_eq, half_eq]
    obtain ⟨x, element⟩ := middle_read positive inside
    have whole : remaining v frame = naiveLoop v frame.val frame.first frame.len := by
      simp [remaining, point]
    rw [naiveLoop_read positive element, ← middle] at whole
    rw [← middle] at element
    by_cases hit : x = frame.val
    · refine ⟨[frame.middle], .onFound frame.middle, by simp [SearchFrame.resume, point, element, hit], ?_, ?_⟩
      · rw [whole, if_pos hit]
      · rw [element, hit]
    · refine ⟨[frame.middle], (frame.narrow x).loop, by simp [SearchFrame.resume, point, element, hit], ?_⟩
      rw [if_neg hit] at whole
      have inside' := window_inside frame.val x positive inside
      unfold SearchFrame.narrow
      by_cases below : x < frame.val
      · simp only [if_pos below, half_eq] at whole inside' ⊢
        exact loop_leaves _ frame (by rwa [middle]) rfl rfl (by simp only [window, point]; omega) whole
      · simp only [if_neg below, half_eq] at whole inside' ⊢
        exact loop_leaves _ frame inside' rfl rfl (by simp only [window, point]; omega) whole

end

end Await.NanoCoro.CoroSearch
