import Await.NanoCoro.Naive

/-! `struct Frame` of `sm.h`, and what one call of its `run` does to a search. Pointers
into the array are positions; following a null or dangling pointer is `none`. -/

namespace Await.NanoCoro.SmFrame
open General.TaskPool Naive

inductive State where
  | keepGoing | found | notFound | empty
  deriving DecidableEq, Repr

/-- `struct Frame`; the null pointers are those of the value-initialized vector. -/
structure Frame where
  first : Option Nat := none
  last : Option Nat := none
  middle : Option Nat := none
  len : Nat := 0
  half : Nat := 0
  val : Int := 0
  state : State := .empty
  deriving DecidableEq, Repr

/-- Subtraction of `size_t`. -/
def subSize (a b : Nat) : Nat := if b ≤ a then a - b else a + 2 ^ 64 - b

def Frame.init (first last : Nat) (key : Int) (fr : Frame) : Frame :=
  let fr := { fr with
    val := key, first := some first, last := some last, len := subSize last first }
  if fr.len = 0 then { fr with state := .notFound }
  else
    let half := fr.len / 2
    { fr with half := half, middle := some (first + half), state := .keepGoing }

/-- `if (x < val) { first = middle; ++first; len = len - half - 1; } else len = half;` -/
def Frame.narrow (middle : Nat) (x : Int) (fr : Frame) : Frame :=
  if x < fr.val then
    { fr with first := some (middle + 1), len := subSize (subSize fr.len fr.half) 1 }
  else { fr with len := fr.half }

/-- `bool run()`; the prefetches are not modelled, they read nothing. -/
def Frame.run (v : Array Int) (fr : Frame) : Option (Bool × Frame) := do
  let middle ← fr.middle
  let x ← v[middle]?
  let fr := fr.narrow middle x
  if x = fr.val then
    some (true, { fr with state := .found })
  else if 0 < fr.len then
    let half := fr.len / 2
    some (false, { fr with half := half, middle := fr.first.map (· + half) })
  else
    some (true, { fr with state := .notFound })

section
variable {v : Array Int} {fr : Frame}

/-- A frame in the middle of a search: its window is not empty and lies in the array,
and `middle` is the element it will read next. -/
structure Running (v : Array Int) (fr : Frame) : Prop where
  going : fr.state = .keepGoing
  positive : 0 < fr.len
  half_eq : fr.half = fr.len / 2
  window : ∃ first, fr.first = some first ∧ fr.middle = some (first + fr.half) ∧
    first + fr.len ≤ v.size

/-- What a running frame has still to do, as the naive loop does it. -/
def remaining (v : Array Int) (fr : Frame) : Option Outcome :=
  naiveLoop v fr.val (fr.first.getD 0) fr.len

theorem subSize_of_le {a b : Nat} (le : b ≤ a) : subSize a b = a - b := if_pos le

theorem init_running (fr : Frame) (key : Int) (nonempty : 0 < v.size) :
    Running v (fr.init 0 v.size key) ∧
      remaining v (fr.init 0 v.size key) = naiveBinarySearch v 0 v.size key := by
  have len : subSize v.size 0 = v.size := subSize_of_le (Nat.zero_le _)
  have kept : v.size ≠ 0 := by omega
  simp only [Frame.init, len, if_neg kept]
  exact ⟨⟨rfl, nonempty, rfl, 0, rfl, by simp, by simp⟩, rfl⟩

theorem init_empty (fr : Frame) (key : Int) (empty : v.size = 0) :
    (fr.init 0 v.size key).state = .notFound ∧
      naiveBinarySearch v 0 v.size key = some ⟨[], false⟩ := by
  constructor
  · simp [Frame.init, subSize, empty]
  · simp [naiveBinarySearch, empty, naiveLoop_empty]

/-- How a call of `run` on a running frame ends: it has read `middle`, and either the
search is over or the frame runs on with a shorter window. -/
structure Ran (v : Array Int) (fr : Frame) (middle : Nat) (done : Bool) (fr' : Frame) : Prop where
  run_eq : fr.run v = some (done, fr')
  middle_eq : fr.middle = some middle
  stopped : done = true → fr'.state ≠ .keepGoing ∧
    remaining v fr = some ⟨[middle], decide (fr'.state = .found)⟩
  goes_on : done = false → Running v fr' ∧ fr'.len < fr.len ∧
    ∃ later, remaining v fr' = some later ∧ remaining v fr = some (after middle later)

/-- The window that a missed element leaves, and what the naive loop does on it. -/
private theorem narrow_eq {first : Nat} {x : Int} (positive : 0 < fr.len)
    (half_eq : fr.half = fr.len / 2) (first_eq : fr.first = some first)
    (inside : first + fr.len ≤ v.size) (element : v[first + fr.len / 2]? = some x)
    (miss : x ≠ fr.val) :
    ∃ first' len',
      fr.narrow (first + fr.len / 2) x = { fr with first := some first', len := len' } ∧
      len' < fr.len ∧ first' + len' ≤ v.size ∧
      remaining v fr = (naiveLoop v fr.val first' len').map (after (first + fr.len / 2)) := by
  have inside' := window_inside fr.val x positive inside
  have whole : remaining v fr = naiveLoop v fr.val first fr.len := by simp [remaining, first_eq]
  rw [naiveLoop_read positive element, if_neg miss] at whole
  unfold Frame.narrow
  by_cases below : x < fr.val
  · have shrunk : subSize (subSize fr.len fr.half) 1 = fr.len - fr.len / 2 - 1 := by
      have inner : subSize fr.len fr.half = fr.len - fr.len / 2 := by
        rw [half_eq, subSize_of_le (by omega)]
      rw [inner, subSize_of_le (by omega)]
    simp only [if_pos below] at whole inside'
    exact ⟨_, _, by rw [if_pos below, shrunk], by omega, inside', whole⟩
  · simp only [if_neg below] at whole inside'
    exact ⟨first, fr.len / 2, by rw [if_neg below, half_eq, ← first_eq], by omega, inside', whole⟩

theorem Running.run (running : Running v fr) : ∃ middle done fr', Ran v fr middle done fr' := by
  obtain ⟨going, positive, half_eq, first, first_eq, middle_eq, inside⟩ := running
  obtain ⟨x, element⟩ := middle_read positive inside
  rw [half_eq] at middle_eq
  by_cases hit : x = fr.val
  · subst hit
    have whole : remaining v fr = some ⟨[first + fr.len / 2], true⟩ := by
      simp [remaining, first_eq, naiveLoop_read positive element]
    have kept : fr.narrow (first + fr.len / 2) fr.val = { fr with len := fr.half } := by
      simp [Frame.narrow]
    refine ⟨first + fr.len / 2, true, { fr with len := fr.half, state := .found }, ?_, middle_eq,
      by simp [whole], by simp⟩
    simp [Frame.run, middle_eq, element, kept]
  · obtain ⟨first', len', next, shorter, inside', whole⟩ :=
      narrow_eq positive half_eq first_eq inside element hit
    by_cases nonempty : 0 < len'
    · obtain ⟨later, rest⟩ := naiveLoop_total fr.val inside'
      let onward : Frame := { fr with
        first := some first', len := len', half := len' / 2, middle := some (first' + len' / 2) }
      have running' : Running v onward := ⟨going, nonempty, rfl, first', rfl, rfl, inside'⟩
      refine ⟨first + fr.len / 2, false, onward, ?_, middle_eq, by simp, fun _ =>
        ⟨running', shorter, later, rest, by rw [whole, rest]; rfl⟩⟩
      simp [Frame.run, middle_eq, element, next, hit, nonempty, onward]
    · have empty : len' = 0 := by omega
      refine ⟨first + fr.len / 2, true, { fr with first := some first', len := len', state := .notFound },
        ?_, middle_eq, fun _ => ⟨by simp, ?_⟩, by simp⟩
      · simp [Frame.run, middle_eq, element, next, hit, empty]
      · rw [whole, empty, naiveLoop_empty]
        simp [after]

end

end Await.NanoCoro.SmFrame
