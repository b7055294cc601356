import Await.NanoCoro.FreeList

/-! `tcalloc` from its construction to its destructor, for clients that ask for blocks of
one size and write what they like to those they hold. -/

namespace Await.NanoCoro.FreeListHistory
open Allocator FreeList General.LinkedList General.Transition StateTransition

/-- Every request, and so every release, is for `sz` bytes. -/
def OneSize (sz : Nat) : Call → Prop
  | .alloc size => size = sz
  | .free _ size => size = sz
  | .overwrite .. => True

/-- The allocator and its clients, with what an observer of the calls writes down: the
blocks handed out, those freed and not reused since (the last freed first), and the
largest number handed out at a time so far. -/
structure Watched where
  w : World
  out : List Nat := []
  freed : List Nat := []
  peak : Nat := 0

/-- The notes depend on the calls and on what `alloc` returns, never on the free list. -/
def Watched.call (h : Watched) (call : Call) : Option Watched :=
  (Allocator.step h.w call).map fun w =>
    match call with
    | .alloc sz =>
      let p := (h.w.t.alloc sz h.w.heap).1
      ⟨w, h.out ++ [p], h.freed.erase p, max h.peak (h.out.length + 1)⟩
    | .free p _ => ⟨w, h.out.erase p, p :: h.freed, h.peak⟩
    | .overwrite .. => { h with w }

/-- `~tcalloc()` between two turns of its loop, and the blocks it has given to `::free`. -/
structure Destructor where
  current : Option Nat
  heap : Heap
  released : List Nat := []

/-- A turn of `while (current)`: reading a block that was released, or releasing it once
more, is undefined. What a released block contains is no longer the program's business:
`scrap` stands for whatever `::free` leaves there. -/
def Destructor.turn (scrap : Nat → Header) (d : Destructor) : Option Destructor :=
  match d.current with
  | none => none
  | some current =>
    if current < d.heap.blocks ∧ current ∉ d.released then
      some ⟨(d.heap.header current).next, d.heap.write current (scrap current), d.released ++ [current]⟩
    else none

section
variable {sz : Nat} {h h' : Watched} {call : Call}

/-- The allocator with its notes is the allocator. -/
theorem watched_run (w : World) (calls : List Call) :
    (run Watched.call ⟨w, [], [], 0⟩ calls).map Watched.w = run Allocator.step w calls := by
  have same : ∀ (h : Watched) call, True → (h.call call).map Watched.w = Allocator.step h.w call := by
    intro h call _
    cases call <;> simp [Watched.call, Function.comp_def]
  exact run_map (fun _ => True) (fun _ _ _ _ _ => trivial) same trivial

/-- The observer's notes agree with the allocator: the list is what was freed. -/
structure Noted (sz : Nat) (h : Watched) : Prop where
  pool : Pool sz h.w.t h.w.heap h.freed h.out
  held : ∀ p size, h.w.held p = some size ↔ p ∈ h.out ∧ size = sz
  peak : h.w.heap.blocks = h.peak

theorem noted_start (sz : Nat) (memory : Nat → Header) : Noted sz ⟨start memory, [], [], 0⟩ where
  pool := pool_nil sz memory
  held := by simp [start]
  peak := rfl

/-- What `alloc` returns is neither out nor, from now on, listed. -/
theorem Noted.alloc (noted : Noted sz h) {w : World} (stepped : Allocator.step h.w (.alloc sz) = some w) :
    Noted sz ⟨w, h.out ++ [(h.w.t.alloc sz h.w.heap).1], h.freed.erase (h.w.t.alloc sz h.w.heap).1,
      max h.peak (h.out.length + 1)⟩ := by
  obtain ⟨grown, blocks⟩ := noted.pool.alloc
  simp only [Allocator.step, Option.ite_none_right_eq_some, Option.some.injEq] at stepped
  obtain ⟨-, rfl⟩ := stepped
  refine ⟨grown, ?_, ?_⟩
  · intro p size
    by_cases own : p = (h.w.t.alloc sz h.w.heap).1
    · subst own
      simp [eq_comm]
    · simp [noted.held p size, own]
  · rw [blocks, noted.peak]

theorem Noted.free (noted : Noted sz h) {p : Nat} {w : World}
    (stepped : Allocator.step h.w (.free p sz) = some w) :
    Noted sz ⟨w, h.out.erase p, p :: h.freed, h.peak⟩ := by
  obtain ⟨held, rfl⟩ := step_free stepped
  obtain ⟨out, -⟩ := (noted.held p sz).mp held
  have pool := (noted.pool.perm (List.perm_cons_erase out)).free
  refine ⟨pool, ?_, noted.peak⟩
  intro q size
  have once : h.out.Nodup := (List.nodup_append.mp noted.pool.nodup).2.1
  by_cases own : q = p
  · subst own
    simp [once.not_mem_erase]
  · simp [Function.update_of_ne own, noted.held q size, List.mem_erase_of_ne own]

theorem Noted.overwrite (noted : Noted sz h) {p : Nat} {bytes : Header} {w : World}
    (stepped : Allocator.step h.w (.overwrite p bytes) = some w) : Noted sz { h with w } := by
  obtain ⟨held, rfl⟩ := step_overwrite stepped
  obtain ⟨size, some_size⟩ := Option.isSome_iff_exists.mp held
  obtain ⟨out, -⟩ := (noted.held p size).mp some_size
  exact ⟨noted.pool.write out bytes, noted.held, noted.peak⟩

/-- Every call keeps the notes true. -/
theorem Noted.kept (noted : Noted sz h) (oneSize : OneSize sz call) (called : h.call call = some h') :
    Noted sz h' := by
  obtain ⟨w, stepped, rfl⟩ := Option.map_eq_some_iff.mp called
  cases call with
  | alloc size =>
    obtain rfl : size = sz := oneSize
    exact noted.alloc stepped
  | free p size =>
    obtain rfl : size = sz := oneSize
    exact noted.free stepped
  | overwrite p bytes => exact noted.overwrite stepped

theorem Noted.run {calls : List Call} (noted : Noted sz h) (oneSize : ∀ call ∈ calls, OneSize sz call)
    (path : run Watched.call h calls = some h') : Noted sz h' := by
  have meets : Meets Watched.call (fun _ call => OneSize sz call) h calls :=
    meets_of_forall fun call member _ => oneSize call member
  exact run_invariant_of_meets (fun _ _ _ noted oneSize called => noted.kept oneSize called) path meets noted

/-- The loop releases the listed blocks in order. A block is read before it is released,
and no later one lies in it. -/
theorem Destructor.sweep (scrap : Nat → Header) {nodes released : List Nat} {root : Option Nat} {heap : Heap}
    (linked : Linked (fun p => (heap.header p).next) root nodes) (nodup : nodes.Nodup)
    (listed : ∀ p ∈ nodes, p < heap.blocks ∧ p ∉ released) :
    ∃ d, Reaches (Destructor.turn scrap) ⟨root, heap, released⟩ d ∧ d.current = none ∧
      d.released = released ++ nodes := by
  induction nodes generalizing root heap released with
  | nil => exact ⟨_, .refl, linked, by simp⟩
  | cons node rest ih =>
    obtain ⟨rfl, tail⟩ := linked
    obtain ⟨absent, restNodup⟩ := List.nodup_cons.mp nodup
    obtain ⟨inside, unreleased⟩ := List.forall_mem_cons.mp listed |>.1
    have other : ∀ p ∈ rest, p ≠ node := by
      rintro p member rfl
      exact absent member
    have kept := linked_write tail absent (scrap node)
    have ahead : ∀ p ∈ rest, p < (heap.write node (scrap node)).blocks ∧ p ∉ released ++ [node] := by
      intro p member
      obtain ⟨inside, unreleased⟩ := listed p (List.mem_cons_of_mem _ member)
      exact ⟨inside, by simp [unreleased, other p member]⟩
    obtain ⟨d, path, done, all⟩ := ih kept restNodup ahead
    refine ⟨d, .head ?_ path, done, ?_⟩
    · simp [Destructor.turn, inside, unreleased]
    · rw [all, List.append_assoc, List.singleton_append]

theorem Noted.destroy (noted : Noted sz h) (scrap : Nat → Header) :
    ∃ d, Reaches (Destructor.turn scrap) ⟨h.w.t.root, h.w.heap, []⟩ d ∧ d.current = none ∧
      d.released = h.freed := by
  have nodup : h.freed.Nodup := (List.nodup_append.mp noted.pool.nodup).1
  apply Destructor.sweep scrap noted.pool.linked nodup
  intro p member
  have known : p ∈ List.range h.w.heap.blocks :=
    noted.pool.blocks.mem_iff.mp (List.mem_append_left _ member)
  exact ⟨List.mem_range.mp known, List.not_mem_nil⟩

end

/-- In every history of one size, the list threaded through the blocks is that of the
freed ones, the last freed first; no block is both listed and out, or out twice; as many
blocks were made as were once out at a time; and the destructor gives each listed block
back once. -/
theorem free_list_history (sz : Nat) (memory : Nat → Header) (calls : List Call)
    (oneSize : ∀ call ∈ calls, OneSize sz call) (h : Watched)
    (path : run Watched.call ⟨start memory, [], [], 0⟩ calls = some h) :
    Linked (fun p => (h.w.heap.header p).next) h.w.t.root h.freed ∧ (h.freed ++ h.out).Nodup ∧
      (∀ p, p ∈ h.out ↔ (h.w.held p).isSome) ∧
      h.w.t.allocCount = h.peak ∧ h.w.t.total = h.w.t.allocCount * sz ∧
      ∀ scrap, ∃ d, Reaches (Destructor.turn scrap) ⟨h.w.t.root, h.w.heap, []⟩ d ∧ d.current = none ∧
        d.released = h.freed := by
  have noted := (noted_start sz memory).run oneSize path
  refine ⟨noted.pool.linked, noted.pool.nodup, ?_, ?_, noted.pool.total, noted.destroy⟩
  · intro p
    rw [Option.isSome_iff_exists]
    simp [noted.held]
  · rw [noted.pool.count, noted.peak]

/-- Two blocks are out, overwritten and freed, and the one freed last is reused. -/
theorem free_list_history_reuse :
    ∃ h, run Watched.call ⟨start fun _ => ⟨some 7, 0⟩, [], [], 0⟩
        [.alloc 64, .alloc 64, .overwrite 0 ⟨some 1, 3⟩, .free 0 64, .free 1 64, .alloc 64,
          .overwrite 1 ⟨some 1, 64⟩] = some h ∧
      h.freed = [0] ∧ h.out = [1] ∧ h.peak = 2 ∧
      (Linked (fun p => (h.w.heap.header p).next) h.w.t.root h.freed ∧ (h.freed ++ h.out).Nodup ∧
        (∀ p, p ∈ h.out ↔ (h.w.held p).isSome) ∧
        h.w.t.allocCount = h.peak ∧ h.w.t.total = h.w.t.allocCount * 64 ∧
        ∀ scrap, ∃ d, Reaches (Destructor.turn scrap) ⟨h.w.t.root, h.w.heap, []⟩ d ∧ d.current = none ∧
          d.released = h.freed) :=
  ⟨_, rfl, rfl, rfl, rfl, free_list_history 64 (fun _ => ⟨some 7, 0⟩)
    [.alloc 64, .alloc 64, .overwrite 0 ⟨some 1, 3⟩, .free 0 64, .free 1 64, .alloc 64, .overwrite 1 ⟨some 1, 64⟩]
    (by simp [OneSize]) _ rfl⟩

end Await.NanoCoro.FreeListHistory
