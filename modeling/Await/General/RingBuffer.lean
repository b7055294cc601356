import Mathlib.Data.Nat.ModEq
import Mathlib.Logic.Function.Basic

/-! A ring of `size` cells with two wrapping indices, and the queue it stands for.
Nothing in the ring tells full from empty, so the queue is a parameter of the
representation relation and each rule says which length it needs. -/

namespace Await.General.RingBuffer

variable {α : Type} {size head tail : Nat} {cells : Nat → α} {items rest : List α}

/-- From `tail` up to `head` the cells hold `items`, oldest first. A full ring
(`items.length = size`) is allowed, and then the two indices coincide again. -/
structure Holds (size : Nat) (cells : Nat → α) (head tail : Nat) (items : List α) : Prop where
  tail_lt : tail < size
  fits : items.length ≤ size
  head_eq : head = (tail + items.length) % size
  cell : ∀ i (bound : i < items.length), cells ((tail + i) % size) = items[i]

theorem Holds.size_pos (ring : Holds size cells head tail items) : 0 < size := by
  have := ring.tail_lt
  omega

/-- Equal indices stand for the empty queue, whatever the cells contain. -/
theorem holds_nil (size : Nat) (cells : Nat → α) (index : Nat) (inside : index < size) :
    Holds size cells index index [] where
  tail_lt := inside
  fits := Nat.zero_le _
  head_eq := by simp [Nat.mod_eq_of_lt inside]
  cell := by simp

/-- Two offsets less than one turn apart name different cells. -/
private theorem offset_ne (base : Nat) {i j : Nat} (order : i < j) (turn : j < i + size) :
    (base + i) % size ≠ (base + j) % size := by
  intro same
  have congruent : Nat.ModEq size i j := Nat.ModEq.add_left_cancel' base same
  have gap : size ≤ j - i :=
    Nat.le_of_dvd (by omega) ((Nat.modEq_iff_dvd' order.le).mp congruent)
  omega

/-- Writing at `head` appends, as long as one cell is free. -/
theorem Holds.push (ring : Holds size cells head tail items) (room : items.length < size) (x : α) :
    Holds size (Function.update cells head x) ((head + 1) % size) tail (items ++ [x]) where
  tail_lt := ring.tail_lt
  fits := by simpa using Nat.succ_le_of_lt room
  head_eq := by simp [ring.head_eq, Nat.add_assoc]
  cell := by
    intro i bound
    simp only [List.length_append, List.length_singleton] at bound
    by_cases last : i = items.length
    · subst i
      simp [ring.head_eq]
    · have earlier : i < items.length := by omega
      have other : (tail + i) % size ≠ head := by
        rw [ring.head_eq]
        exact offset_ne tail earlier (by omega)
      rw [Function.update_of_ne other, ring.cell i earlier]
      simp [List.getElem_append_left earlier]

/-- Writing into a full ring leaves a queue of one: the indices have made a full
turn and every older item has lost its place. -/
theorem Holds.push_full (ring : Holds size cells head tail items) (full : items.length = size)
    (large : 1 < size) (x : α) :
    Holds size (Function.update cells head x) ((head + 1) % size) tail [x] where
  tail_lt := ring.tail_lt
  fits := by simpa using Nat.le_of_lt large
  head_eq := by
    rw [ring.head_eq, full, Nat.add_mod_right, List.length_singleton, Nat.mod_add_mod]
  cell := by
    intro i bound
    have first : i = 0 := by simpa using bound
    subst i
    have back : head = tail := by
      rw [ring.head_eq, full, Nat.add_mod_right, Nat.mod_eq_of_lt ring.tail_lt]
    simp [back, Nat.mod_eq_of_lt ring.tail_lt]

/-- The cell at `tail` is the oldest item, and stepping past it removes that item. -/
theorem Holds.pop {x : α} (ring : Holds size cells head tail (x :: rest)) :
    cells tail = x ∧ Holds size cells head ((tail + 1) % size) rest := by
  have first := ring.cell 0 (by simp)
  have shift : ∀ i, ((tail + 1) % size + i) % size = (tail + (i + 1)) % size := by
    intro i
    rw [Nat.mod_add_mod, Nat.add_assoc, Nat.add_comm 1 i]
  refine ⟨by simpa [Nat.mod_eq_of_lt ring.tail_lt] using first, ?_⟩
  constructor
  · exact Nat.mod_lt _ ring.size_pos
  · have := ring.fits
    simp only [List.length_cons] at this
    omega
  · rw [shift, ring.head_eq, List.length_cons]
  · intro i bound
    rw [shift, ring.cell (i + 1) (by simpa using bound)]
    simp

/-- Short of a full ring, equal indices mean an empty queue. -/
theorem Holds.index_eq_iff (ring : Holds size cells head tail items) (room : items.length < size) :
    head = tail ↔ items = [] := by
  rw [ring.head_eq]
  constructor
  · intro same
    by_contra nonempty
    have positive : 0 < items.length := List.length_pos_iff.mpr nonempty
    have start : (tail + 0) % size = tail := Nat.mod_eq_of_lt ring.tail_lt
    exact offset_ne tail positive (by omega) (start.trans same.symm)
  · intro empty
    simp [empty, Nat.mod_eq_of_lt ring.tail_lt]

/-- A full ring shows the same indices as an empty one. -/
theorem Holds.index_eq_of_full (ring : Holds size cells head tail items)
    (full : items.length = size) : head = tail := by
  rw [ring.head_eq, full, Nat.add_mod_right, Nat.mod_eq_of_lt ring.tail_lt]

end Await.General.RingBuffer
