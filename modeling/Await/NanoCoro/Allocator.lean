import Await.General.LinkedList
import Await.General.Transition

/-! `tcalloc`, the caching allocator of `coro_infra.h`, over a heap of numbered blocks.
The free list lives in the first bytes of blocks that their owners overwrite at will
while they hold them. -/

namespace Await.NanoCoro.Allocator
open General.LinkedList General.Transition

/-- `struct header`: the first bytes of a block, as the allocator reads them. -/
structure Header where
  next : Option Nat
  size : Nat
  deriving DecidableEq, Repr

/-- `sizeof(header)`. -/
def headerSize : Nat := 16

/-- The blocks `malloc` has handed out, in order, with the size each was made with and
the header its first bytes spell. -/
structure Heap where
  blocks : Nat
  capacity : Nat → Nat
  header : Nat → Header

def Heap.malloc (sz : Nat) (heap : Heap) : Nat × Heap :=
  (heap.blocks, { heap with
    blocks := heap.blocks + 1
    capacity := Function.update heap.capacity heap.blocks sz })

def Heap.write (p : Nat) (header : Header) (heap : Heap) : Heap :=
  { heap with header := Function.update heap.header p header }

section
variable {heap : Heap} {p q : Nat} {root : Option Nat} {nodes : List Nat}

@[simp] theorem write_blocks (bytes : Header) : (heap.write p bytes).blocks = heap.blocks := rfl

@[simp] theorem write_capacity (bytes : Header) : (heap.write p bytes).capacity = heap.capacity := rfl

@[simp] theorem write_header_self (bytes : Header) : (heap.write p bytes).header p = bytes :=
  Function.update_self ..

theorem write_header_of_ne (other : q ≠ p) (bytes : Header) : (heap.write p bytes).header q = heap.header q :=
  Function.update_of_ne other ..

/-- Writing to a block that is not listed leaves the list. -/
theorem linked_write (list : Linked (fun q => (heap.header q).next) root nodes) (absent : p ∉ nodes)
    (bytes : Header) : Linked (fun q => ((heap.write p bytes).header q).next) root nodes := by
  apply list.frame
  intro node member
  have other : node ≠ p := fun same => absent (same ▸ member)
  rw [write_header_of_ne other]

/-- A header with the root in it puts its block in front. -/
theorem linked_push (list : Linked (fun q => (heap.header q).next) root nodes) (absent : p ∉ nodes) (sz : Nat) :
    Linked (fun q => ((heap.write p ⟨root, sz⟩).header q).next) (some p) (p :: nodes) := by
  have links : (fun q => ((heap.write p ⟨root, sz⟩).header q).next) =
      Function.update (fun q => (heap.header q).next) p root := by
    funext q
    by_cases own : q = p
    · rw [own, write_header_self, Function.update_self]
    · rw [write_header_of_ne own, Function.update_of_ne own]
  rw [links]
  exact list.push absent

end

structure Tcalloc where
  root : Option Nat := none
  lastSizeAllocated : Nat := 0
  total : Nat := 0
  allocCount : Nat := 0
  deriving DecidableEq, Repr

/-- `++alloc_count; total += sz; last_size_allocated = sz; return malloc(sz);` -/
def Tcalloc.fresh (sz : Nat) (t : Tcalloc) (heap : Heap) : Nat × Tcalloc × Heap :=
  let (mem, heap) := heap.malloc sz
  (mem, { t with
    allocCount := t.allocCount + 1, total := t.total + sz, lastSizeAllocated := sz }, heap)

/-- `void *alloc(size_t sz)`: the first listed block if `root && root->size <= sz`,
else a new one. -/
def Tcalloc.alloc (sz : Nat) (t : Tcalloc) (heap : Heap) : Nat × Tcalloc × Heap :=
  match t.root with
  | some root =>
    if (heap.header root).size ≤ sz then
      (root, { t with root := (heap.header root).next }, heap)
    else t.fresh sz heap
  | none => t.fresh sz heap

/-- `void free(void *p, size_t sz)`. -/
def Tcalloc.free (p sz : Nat) (t : Tcalloc) (heap : Heap) : Tcalloc × Heap :=
  ({ t with root := some p }, heap.write p ⟨t.root, sz⟩)

/-! ### Clients -/

/-- What a client of the allocator does next. -/
inductive Call where
  | alloc (sz : Nat)
  | free (p sz : Nat)
  | overwrite (p : Nat) (bytes : Header)
  deriving DecidableEq, Repr

/-- The allocator with its client: `held` gives each block handed out the size it was
last requested with, `served` lists every block ever returned with that request. -/
structure World where
  t : Tcalloc
  heap : Heap
  held : Nat → Option Nat
  served : List (Nat × Nat)

/-- A request is at least a header long; only a held block is freed, with the size it
was last requested with; only held blocks are overwritten. -/
def step (w : World) : Call → Option World
  | .alloc sz =>
      if headerSize ≤ sz then
        let (p, t, heap) := w.t.alloc sz w.heap
        some ⟨t, heap, Function.update w.held p (some sz), w.served ++ [(p, sz)]⟩
      else none
  | .free p sz =>
      if w.held p = some sz then
        let (t, heap) := w.t.free p sz w.heap
        some { w with t, heap, held := Function.update w.held p none }
      else none
  | .overwrite p bytes =>
      if (w.held p).isSome then some { w with heap := w.heap.write p bytes } else none

/-- An empty allocator, no block in existence, and whatever the memory holds. -/
def start (memory : Nat → Header) : World where
  t := {}
  heap := ⟨0, fun _ => 0, memory⟩
  held := fun _ => none
  served := []

section
variable {w w' : World} {calls : List Call} {p sz : Nat}

/-- Every block ever returned really has the bytes that were asked for. -/
def Served (w : World) : Prop := ∀ p sz, (p, sz) ∈ w.served → sz ≤ w.heap.capacity p

/-- The first listed block, if there is one, records at least `sz` bytes. -/
def RootFits (w : World) (sz : Nat) : Prop :=
  ∀ root, w.t.root = some root → sz ≤ (w.heap.header root).size

/-- Each request of the history meets a free list that is empty or starts with a block
that records enough. -/
def Fitting : World → List Call → Prop :=
  Meets step fun w call => ∀ sz, call = .alloc sz → RootFits w sz

/-- Recorded sizes are true capacities, and the listed blocks are the freed ones. -/
structure Exact (w : World) : Prop where
  listed : ∃ nodes, Linked (fun p => (w.heap.header p).next) w.t.root nodes ∧ nodes.Nodup ∧
    ∀ p ∈ nodes, w.held p = none ∧ p < w.heap.blocks ∧ (w.heap.header p).size = w.heap.capacity p
  exact : ∀ p sz, w.held p = some sz → p < w.heap.blocks ∧ sz = w.heap.capacity p
  known : ∀ p sz, (p, sz) ∈ w.served → p < w.heap.blocks

theorem start_exact (memory : Nat → Header) : Exact (start memory) where
  listed := ⟨[], rfl, .nil, by simp⟩
  exact := by simp [start]
  known := by simp [start]

theorem alloc_reuse {t : Tcalloc} {heap : Heap} (listed : t.root = some p)
    (small : (heap.header p).size ≤ sz) :
    t.alloc sz heap = (p, { t with root := (heap.header p).next }, heap) := by
  simp [Tcalloc.alloc, listed, small]

theorem alloc_fresh {t : Tcalloc} {heap : Heap}
    (large : ∀ root, t.root = some root → sz < (heap.header root).size) :
    t.alloc sz heap = t.fresh sz heap := by
  cases listed : t.root with
  | none => simp [Tcalloc.alloc, listed]
  | some root =>
    have refused : ¬(heap.header root).size ≤ sz := Nat.not_le_of_lt (large root listed)
    simp [Tcalloc.alloc, listed, refused]

/-- What a request does to the world: the first listed block is taken when it records at
most `sz` bytes, and otherwise a new block is made. -/
theorem step_alloc (stepped : step w (.alloc sz) = some w') :
    (∃ root, w.t.root = some root ∧ (w.heap.header root).size ≤ sz ∧
      w' = ⟨{ w.t with root := (w.heap.header root).next }, w.heap,
        Function.update w.held root (some sz), w.served ++ [(root, sz)]⟩) ∨
    ((∀ root, w.t.root = some root → sz < (w.heap.header root).size) ∧ ∃ t : Tcalloc,
      t.root = w.t.root ∧ w' = ⟨t, (w.heap.malloc sz).2,
        Function.update w.held w.heap.blocks (some sz), w.served ++ [(w.heap.blocks, sz)]⟩) := by
  have enough : headerSize ≤ sz := by
    by_contra short
    simp [step, short] at stepped
  by_cases reuse : ∃ root, w.t.root = some root ∧ (w.heap.header root).size ≤ sz
  · obtain ⟨root, listed, small⟩ := reuse
    simp only [step, enough, if_true, alloc_reuse listed small, Option.some.injEq] at stepped
    exact .inl ⟨root, listed, small, stepped.symm⟩
  · have large : ∀ root, w.t.root = some root → sz < (w.heap.header root).size := by
      intro root listed
      by_contra small
      exact reuse ⟨root, listed, Nat.le_of_not_lt small⟩
    simp only [step, enough, if_true, alloc_fresh large, Option.some.injEq] at stepped
    exact .inr ⟨large, (w.t.fresh sz w.heap).2.1, rfl, stepped.symm⟩

theorem step_free (stepped : step w (.free p sz) = some w') :
    w.held p = some sz ∧ w' = { w with
      t := { w.t with root := some p }, heap := w.heap.write p ⟨w.t.root, sz⟩,
      held := Function.update w.held p none } := by
  by_cases held : w.held p = some sz
  · simp only [step, held, if_true, Tcalloc.free, Option.some.injEq] at stepped
    exact ⟨held, stepped.symm⟩
  · simp [step, held] at stepped

theorem step_overwrite {bytes : Header} (stepped : step w (.overwrite p bytes) = some w') :
    (w.held p).isSome ∧ w' = { w with heap := w.heap.write p bytes } := by
  by_cases held : (w.held p).isSome
  · simp only [step, held, if_true, Option.some.injEq] at stepped
    exact ⟨held, stepped.symm⟩
  · simp [step, held] at stepped

theorem served_append {served : List (Nat × Nat)} {good : Nat → Nat → Prop} {p sz : Nat}
    (old : ∀ q size, (q, size) ∈ served → good q size) (new : good p sz) :
    ∀ q size, (q, size) ∈ served ++ [(p, sz)] → good q size := by
  intro q size member
  rcases List.mem_append.mp member with before | last
  · exact old q size before
  · obtain ⟨rfl, rfl⟩ : q = p ∧ size = sz := by simpa using last
    exact new

/-- The first listed block goes to a request of its own size. -/
private theorem Exact.reuse {root : Nat} (good : Exact w) (listed : w.t.root = some root)
    (same : sz = w.heap.capacity root) (w' : World)
    (reused : w' = ⟨{ w.t with root := (w.heap.header root).next }, w.heap,
      Function.update w.held root (some sz), w.served ++ [(root, sz)]⟩) :
    Exact w' ∧ (Served w → Served w') := by
  subst reused
  obtain ⟨⟨nodes, linked, nodup, free⟩, exact, known⟩ := good
  rw [listed] at linked
  obtain ⟨rest, rfl, tail⟩ := linked.root_some
  obtain ⟨-, inside, -⟩ := free root (List.mem_cons_self ..)
  obtain ⟨absent, restNodup⟩ := List.nodup_cons.mp nodup
  refine ⟨⟨⟨rest, tail, restNodup, fun p member => ?_⟩, fun p size held => ?_, ?_⟩, fun served => ?_⟩
  · have other : p ≠ root := fun same => absent (same ▸ member)
    simpa [Function.update_of_ne other] using free p (List.mem_cons_of_mem _ member)
  · by_cases here : p = root
    · subst here
      obtain rfl : sz = size := by simpa using held
      exact ⟨inside, same⟩
    · exact exact p size (by simpa [Function.update_of_ne here] using held)
  · exact served_append known inside
  · exact served_append served same.le

/-- A new block has the size of its request, and the listed blocks stay as they are. -/
private theorem Exact.fresh {t : Tcalloc} (good : Exact w) (sameRoot : t.root = w.t.root) (w' : World)
    (made : w' = ⟨t, (w.heap.malloc sz).2, Function.update w.held w.heap.blocks (some sz),
      w.served ++ [(w.heap.blocks, sz)]⟩) : Exact w' ∧ (Served w → Served w') := by
  subst made
  obtain ⟨⟨nodes, linked, nodup, free⟩, exact, known⟩ := good
  have kept : ∀ p, p < w.heap.blocks → (w.heap.malloc sz).2.capacity p = w.heap.capacity p :=
    fun p inside => Function.update_of_ne (Nat.ne_of_lt inside) _ _
  refine ⟨⟨⟨nodes, sameRoot ▸ linked, nodup, fun p member => ?_⟩, fun p size held => ?_, ?_⟩, fun served => ?_⟩
  · obtain ⟨unheld, inside, size_eq⟩ := free p member
    exact ⟨(Function.update_of_ne (Nat.ne_of_lt inside) _ _).trans unheld,
      Nat.lt_succ_of_lt inside, size_eq.trans (kept p inside).symm⟩
  · by_cases here : p = w.heap.blocks
    · subst here
      obtain rfl : sz = size := by simpa using held
      exact ⟨Nat.lt_succ_self _, by simp [Heap.malloc]⟩
    · obtain ⟨inside, size_eq⟩ := exact p size (by simpa [Function.update_of_ne here] using held)
      exact ⟨Nat.lt_succ_of_lt inside, size_eq.trans (kept p inside).symm⟩
  · exact served_append (fun p size member => Nat.lt_succ_of_lt (known p size member)) (Nat.lt_succ_self _)
  · refine served_append (fun p size member => ?_) (by simp [Heap.malloc])
    rw [kept p (known p size member)]
    exact served p size member

/-- A request that fits the root is served exactly: a listed block is only reused for
precisely its own size. -/
theorem Exact.alloc (good : Exact w) (fits : RootFits w sz)
    (stepped : step w (.alloc sz) = some w') : Exact w' ∧ (Served w → Served w') := by
  rcases step_alloc stepped with ⟨root, listed, small, reused⟩ | ⟨-, t, sameRoot, made⟩
  · have same : sz = w.heap.capacity root := by
      obtain ⟨nodes, linked, -, free⟩ := good.listed
      rw [listed] at linked
      obtain ⟨rest, rfl, -⟩ := linked.root_some
      obtain ⟨-, -, size_eq⟩ := free root (List.mem_cons_self ..)
      have enough := fits root listed
      omega
    exact good.reuse listed same w' reused
  · exact good.fresh sameRoot w' made

/-- Writing to a held block reaches no listed one. -/
private theorem Exact.write {bytes : Header} (good : Exact w) (held : (w.held p).isSome) :
    Exact { w with heap := w.heap.write p bytes } := by
  obtain ⟨⟨nodes, linked, nodup, free⟩, exact, known⟩ := good
  have absent : p ∉ nodes := by
    intro member
    simp [(free p member).1] at held
  refine ⟨⟨nodes, linked_write linked absent bytes, nodup, fun node member => ?_⟩, exact, known⟩
  have other : node ≠ p := fun same => absent (same ▸ member)
  dsimp only
  rw [write_header_of_ne other]
  exact free node member

theorem Exact.free (good : Exact w) (stepped : step w (.free p sz) = some w') : Exact w' := by
  obtain ⟨held, rfl⟩ := step_free stepped
  obtain ⟨inside, size_eq⟩ := good.exact p sz held
  obtain ⟨⟨nodes, linked, nodup, free⟩, exact, known⟩ := good
  have absent : p ∉ nodes := by
    intro member
    simp [(free p member).1] at held
  refine ⟨⟨p :: nodes, linked_push linked absent sz, List.nodup_cons.mpr ⟨absent, nodup⟩, ?_⟩, ?_, known⟩
  · intro node member
    by_cases here : node = p
    · subst here
      simpa using ⟨inside, size_eq⟩
    · have listed := free node ((List.mem_cons.mp member).resolve_left here)
      simpa [write_header_of_ne here, Function.update_of_ne here] using listed
  · intro node size stillHeld
    by_cases here : node = p
    · subst here
      simp at stillHeld
    · exact exact node size (by simpa [Function.update_of_ne here] using stillHeld)

/-- A block that was returned too short. It stays too short for the rest of the run. -/
def Short (w : World) : Prop :=
  ∃ p sz, (p, sz) ∈ w.served ∧ p < w.heap.blocks ∧ w.heap.capacity p < sz

theorem Short.not_served (short : Short w) : ¬Served w := by
  obtain ⟨p, sz, member, -, less⟩ := short
  exact fun served => Nat.not_le_of_lt less (served p sz member)

/-- A request larger than the size the root records takes the root all the same. -/
theorem Exact.alloc_short (good : Exact w) (misfit : ¬RootFits w sz)
    (stepped : step w (.alloc sz) = some w') : Short w' := by
  obtain ⟨root, listed, larger⟩ : ∃ root, w.t.root = some root ∧ (w.heap.header root).size < sz := by
    by_contra none
    exact misfit fun root listed => Nat.le_of_not_lt fun larger => none ⟨root, listed, larger⟩
  obtain ⟨nodes, linked, -, free⟩ := good.listed
  rw [listed] at linked
  obtain ⟨rest, rfl, -⟩ := linked.root_some
  obtain ⟨-, inside, size_eq⟩ := free root (List.mem_cons_self ..)
  rcases step_alloc stepped with ⟨root', listed', -, rfl⟩ | ⟨refused, -⟩
  · obtain rfl : root = root' := Option.some.inj (listed.symm.trans listed')
    exact ⟨root, sz, by simp, inside, by simpa [← size_eq] using larger⟩
  · exact absurd (refused root listed) (by omega)

theorem Short.step {call : Call} (short : Short w) (stepped : step w call = some w') : Short w' := by
  obtain ⟨p, size, member, inside, less⟩ := short
  cases call with
  | alloc sz =>
    rcases step_alloc stepped with ⟨root, -, -, rfl⟩ | ⟨-, t, -, rfl⟩
    · exact ⟨p, size, List.mem_append_left _ member, inside, less⟩
    · refine ⟨p, size, List.mem_append_left _ member, Nat.lt_succ_of_lt inside, ?_⟩
      simpa [Heap.malloc, Function.update_of_ne (Nat.ne_of_lt inside)] using less
  | free p' sz =>
    obtain ⟨-, rfl⟩ := step_free stepped
    exact ⟨p, size, member, inside, less⟩
  | overwrite p' bytes =>
    obtain ⟨-, rfl⟩ := step_overwrite stepped
    exact ⟨p, size, member, inside, less⟩

/-- A call that fits keeps everything. -/
theorem Exact.step {call : Call} (good : Exact w) (served : Served w)
    (fits : ∀ sz, call = .alloc sz → RootFits w sz) (stepped : Allocator.step w call = some w') :
    Exact w' ∧ Served w' := by
  cases call with
  | alloc sz =>
    obtain ⟨good', served'⟩ := good.alloc (fits sz rfl) stepped
    exact ⟨good', served' served⟩
  | free p sz =>
    refine ⟨good.free stepped, ?_⟩
    obtain ⟨-, rfl⟩ := step_free stepped
    exact served
  | overwrite p bytes =>
    obtain ⟨held, rfl⟩ := step_overwrite stepped
    exact ⟨good.write held, served⟩

/-- One that does not fit spoils the run for good. -/
theorem Exact.step_short {call : Call} (good : Exact w)
    (misfit : ¬∀ sz, call = .alloc sz → RootFits w sz) (stepped : Allocator.step w call = some w') :
    Short w' := by
  push Not at misfit
  obtain ⟨sz, rfl, misfit⟩ := misfit
  exact good.alloc_short misfit stepped

theorem Exact.run_served_iff (good : Exact w) (served : Served w)
    (path : run Allocator.step w calls = some w') : Served w' ↔ Fitting w calls := by
  have each : ∀ w call w', (Exact w ∧ Served w) ∨ Short w → True → Allocator.step w call = some w' →
      ((Exact w' ∧ Served w') ∨ Short w') ∧ (Served w' ↔ Served w ∧ ∀ sz, call = .alloc sz → RootFits w sz) := by
    rintro w call w' (⟨good, served⟩ | short) - stepped
    · by_cases fits : ∀ sz, call = .alloc sz → RootFits w sz
      · have next := good.step served fits stepped
        exact ⟨.inl next, iff_of_true next.2 ⟨served, fits⟩⟩
      · have spoilt := good.step_short fits stepped
        exact ⟨.inr spoilt, iff_of_false spoilt.not_served fun both => fits both.2⟩
    · have spoilt := short.step stepped
      exact ⟨.inr spoilt, iff_of_false spoilt.not_served fun both => short.not_served both.1⟩
  have whole := run_iff_meets each path (fun _ _ => trivial) (.inl ⟨good, served⟩)
  exact whole.trans (and_iff_right served)

end

/-- `alloc` gives every block of a history the bytes asked for exactly when no request of
the history is larger than the size recorded in a block at the root: the reuse test
`root->size <= sz` lets just the wrong blocks through. -/
theorem alloc_capacity_iff (memory : Nat → Header) (calls : List Call) (w : World)
    (path : run step (start memory) calls = some w) :
    Served w ↔ Fitting (start memory) calls :=
  (start_exact memory).run_served_iff (by simp [Served, start]) path

theorem alloc_capacity_iff_one_size :
    ∃ w, run step (start fun _ => ⟨none, 0⟩) [.alloc 32, .free 0 32, .alloc 32] = some w ∧
      (Served w ↔ Fitting (start fun _ => ⟨none, 0⟩) [.alloc 32, .free 0 32, .alloc 32]) :=
  ⟨_, rfl, alloc_capacity_iff _ _ _ rfl⟩

/-- A block of 16 bytes is freed and then handed out for a request of 32. -/
theorem alloc_capacity_counterexample :
    ¬∀ (memory : Nat → Header) (calls : List Call) (w : World),
      run step (start memory) calls = some w → Served w := by
  intro all
  have served := all (fun _ => ⟨none, 0⟩) [.alloc 16, .free 0 16, .alloc 32] _ rfl 0 32 (by decide)
  exact absurd served (by decide)

end Await.NanoCoro.Allocator
