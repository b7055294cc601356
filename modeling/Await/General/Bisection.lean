import Mathlib.Data.Nat.Log
import Mathlib.Order.Lattice

/-! Bisection of a sorted window. A cell that is not the one looked for leaves one half of
the window to look in, and halving a window of `n` cells down to nothing takes
`⌊log₂ n⌋ + 1` cells. -/

namespace Await.General.Bisection

variable {α : Type} {cells : Nat → Option α} {first last middle : Nat} {x key : α}

def Occurs (cells : Nat → Option α) (first last : Nat) (key : α) : Prop :=
  ∃ place, first ≤ place ∧ place < last ∧ cells place = some key

theorem not_occurs_empty (empty : last ≤ first) : ¬Occurs cells first last key := by
  rintro ⟨place, above, below, -⟩
  omega

variable [LinearOrder α]

/-- From `first` up to `last` the cells do not go down. -/
def SortedOn (cells : Nat → Option α) (first last : Nat) : Prop :=
  ∀ i j x y, first ≤ i → i ≤ j → j < last → cells i = some x → cells j = some y → x ≤ y

theorem SortedOn.sub {first' last' : Nat} (sorted : SortedOn cells first last) (lower : first ≤ first')
    (upper : last' ≤ last) : SortedOn cells first' last' :=
  fun i j x y above order below => sorted i j x y (lower.trans above) order (Nat.lt_of_lt_of_le below upper)

/-- Past a cell below the key, the key can only be above. -/
theorem occurs_above (sorted : SortedOn cells first last) (lower : first ≤ middle) (upper : middle < last)
    (element : cells middle = some x) (below : x < key) :
    Occurs cells first last key ↔ Occurs cells (middle + 1) last key := by
  constructor
  · rintro ⟨place, above, under, found⟩
    refine ⟨place, ?_, under, found⟩
    by_contra early
    exact absurd (sorted place middle key x above (by omega) upper found element) (not_le.mpr below)
  · rintro ⟨place, above, under, found⟩
    exact ⟨place, by omega, under, found⟩

/-- Before a cell above the key, the key can only be below. -/
theorem occurs_below (sorted : SortedOn cells first last) (lower : first ≤ middle) (upper : middle < last)
    (element : cells middle = some x) (above : key < x) :
    Occurs cells first last key ↔ Occurs cells first middle key := by
  constructor
  · rintro ⟨place, beyond, under, found⟩
    refine ⟨place, beyond, ?_, found⟩
    by_contra late
    exact absurd (sorted middle place x key lower (by omega) under element found) (not_le.mpr above)
  · rintro ⟨place, beyond, under, found⟩
    exact ⟨place, beyond, by omega, found⟩

/-- `⌊log₂ n⌋ + 1`, and nothing for an empty window. -/
def halvings (n : Nat) : Nat := if n = 0 then 0 else Nat.log 2 n + 1

theorem halvings_half {n m : Nat} (positive : 0 < n) (shorter : m ≤ n / 2) : halvings m + 1 ≤ halvings n := by
  unfold halvings
  rw [if_neg positive.ne']
  split_ifs with empty
  · omega
  · have drop := Nat.log_of_one_lt_of_le Nat.one_lt_two (show 2 ≤ n by omega)
    have mono := Nat.log_mono_right (b := 2) shorter
    omega

end Await.General.Bisection
