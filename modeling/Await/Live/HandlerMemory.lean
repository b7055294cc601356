import Await.General.Transition
import Mathlib.Data.List.Perm.Basic
import Mathlib.Logic.Function.Basic

/-! The memory of `handler_allocator.hpp`: one inline block of 1024 bytes, which a
`handler_allocator` lends to one client at a time, and the heap behind it. Any number of
`SimpleAllocator`s of different element types share one `handler_allocator`. -/

namespace Await.Live.HandlerMemory
open General.Transition

/-- A `T` of `SimpleAllocator<T>`, of which only `sizeof(T)` matters. No type has size 0. -/
structure ElementType where
  sizeof : UInt64
  positive : 0 < sizeof.toNat
  deriving DecidableEq

/-- `storage_` is the address of the inline block. -/
structure HandlerAllocator where
  storage : Nat
  inUse : Bool := false
  deriving DecidableEq, Repr

/-- `storage_.size()`. -/
def storageSize : UInt64 := 1024

/-- `none` is the null pointer. -/
def HandlerAllocator.allocate (size : UInt64) (a : HandlerAllocator) : Option Nat × HandlerAllocator :=
  if !a.inUse && size ≤ storageSize then (some a.storage, { a with inUse := true }) else (none, a)

def HandlerAllocator.deallocate (pointer : Nat) (a : HandlerAllocator) : Bool × HandlerAllocator :=
  if pointer = a.storage then (true, { a with inUse := false }) else (false, a)

/-- The `handler_allocator`, and the blocks that `operator new` has given out and
`operator delete` has not taken back, each with its size in bytes. -/
structure Memory where
  myAlloc : HandlerAllocator
  heap : Nat → Option UInt64

/-- What `operator new` may answer: it throws `bad_alloc`, or gives the address of a block
apart from every other. -/
def Memory.Offers (m : Memory) (answer : Option Nat) : Prop :=
  ∀ p ∈ answer, p ≠ m.myAlloc.storage ∧ m.heap p = none

instance (m : Memory) (answer : Option Nat) : Decidable (m.Offers answer) :=
  inferInstanceAs (Decidable (∀ p ∈ answer, p ≠ m.myAlloc.storage ∧ m.heap p = none))

/-- The bytes there are at an address. -/
def Memory.capacity (m : Memory) (p : Nat) : Nat :=
  if p = m.myAlloc.storage then storageSize.toNat else ((m.heap p).getD 0).toNat

/-- A call `operator delete(pointer, size)`, with the bytes the block was obtained with, if
it was obtained from `operator new` and not given back. -/
structure Deletion where
  pointer : Nat
  size : UInt64
  obtained : Option UInt64
  deriving DecidableEq, Repr

namespace SimpleAllocator

/-- `T *allocate(std::size_t n)`, where `operator new` gives `answer` if it is asked.
`none`: `bad_alloc` is thrown. -/
def allocate (T : ElementType) (n : UInt64) (answer : Option Nat) (m : Memory) : Option Nat × Memory :=
  let bytes := n * T.sizeof
  if bytes / T.sizeof ≠ n then (none, m)
  else
    match m.myAlloc.allocate bytes with
    | (some result, myAlloc) => (some result, { m with myAlloc })
    | (none, myAlloc) =>
      match answer with
      | some p => (some p, ⟨myAlloc, Function.update m.heap p (some bytes)⟩)
      | none => (none, { m with myAlloc })

/-- `void deallocate(T *p, std::size_t n)`, and the call of `operator delete` it makes. -/
def deallocate (p : Nat) (n : UInt64) (m : Memory) : Option Deletion × Memory :=
  match m.myAlloc.deallocate p with
  | (true, myAlloc) => (none, { m with myAlloc })
  | (false, myAlloc) => (some ⟨p, n, m.heap p⟩, ⟨myAlloc, Function.update m.heap p none⟩)

end SimpleAllocator

/-- A block in the hands of a client: where it is, and by which type and for how many
elements it was allocated. -/
structure Block where
  pointer : Nat
  T : ElementType
  n : UInt64
  deriving DecidableEq

/-- `sizeof(T) * n` as it should be. -/
def Block.bytes (block : Block) : Nat := block.n.toNat * block.T.sizeof.toNat

inductive Use where
  | allocate (T : ElementType) (n : UInt64) (answer : Option Nat)
  | deallocate (block : Block) (n : UInt64)
  deriving DecidableEq

structure World where
  memory : Memory
  live : List Block := []
  deleted : List Deletion := []

/-- A live block is deallocated by the type that allocated it, with any `n`. -/
def step (w : World) : Use → Option World
  | .allocate T n answer =>
    if w.memory.Offers answer then
      match SimpleAllocator.allocate T n answer w.memory with
      | (some p, memory) => some { w with memory, live := ⟨p, T, n⟩ :: w.live }
      | (none, memory) => some { w with memory }
    else none
  | .deallocate block n =>
    if block ∈ w.live then
      let (deletion, memory) := SimpleAllocator.deallocate block.pointer n w.memory
      some ⟨memory, w.live.erase block, w.deleted ++ deletion.toList⟩
    else none

/-- A `handler_allocator` at some address, and an empty heap. -/
def start (storage : Nat) : World where
  memory := ⟨{ storage }, fun _ => none⟩

section
variable {w w' : World} {T : ElementType} {n : UInt64} {answer : Option Nat} {m : Memory} {block : Block}

/-- The guard of `allocate`: dividing the product gives `n` back exactly if nothing was
carried out of the 64 bits. -/
theorem mul_div_eq_iff (T : ElementType) (n : UInt64) :
    n * T.sizeof / T.sizeof = n ↔ n.toNat * T.sizeof.toNat < 2 ^ 64 := by
  rw [← UInt64.toNat_inj, UInt64.toNat_div, UInt64.toNat_mul]
  constructor
  · intro same
    calc n.toNat * T.sizeof.toNat
        = n.toNat * T.sizeof.toNat % 2 ^ 64 / T.sizeof.toNat * T.sizeof.toNat := by rw [same]
      _ ≤ n.toNat * T.sizeof.toNat % 2 ^ 64 := Nat.div_mul_le_self _ _
      _ < 2 ^ 64 := Nat.mod_lt _ (by decide)
  · intro exact
    rw [Nat.mod_eq_of_lt exact, Nat.mul_div_cancel _ T.positive]

theorem toNat_bytes (exact : n.toNat * T.sizeof.toNat < 2 ^ 64) :
    (n * T.sizeof).toNat = n.toNat * T.sizeof.toNat := by
  rw [UInt64.toNat_mul, Nat.mod_eq_of_lt exact]

/-- The number of elements and the number of bytes are the same for `char`, and for none. -/
theorem count_eq_bytes_iff (exact : n.toNat * T.sizeof.toNat < 2 ^ 64) :
    n * T.sizeof = n ↔ T.sizeof = 1 ∨ n = 0 := by
  rw [← UInt64.toNat_inj, ← UInt64.toNat_inj, ← UInt64.toNat_inj, toNat_bytes exact]
  change n.toNat * T.sizeof.toNat = n.toNat ↔ T.sizeof.toNat = 1 ∨ n.toNat = 0
  by_cases none : n.toNat = 0
  · simp [none]
  · rw [Nat.mul_eq_left none]
    exact (or_iff_left none).symm

theorem offer_inline_or (size : UInt64) (a : HandlerAllocator) :
    (a.inUse = false ∧ size.toNat ≤ storageSize.toNat ∧ a.allocate size = (some a.storage, { a with inUse := true })) ∨
      a.allocate size = (none, a) := by
  unfold HandlerAllocator.allocate
  split
  next free =>
    rw [Bool.and_eq_true, Bool.not_eq_true', decide_eq_true_iff, UInt64.le_iff_toNat_le] at free
    exact .inl ⟨free.1, free.2, rfl⟩
  next => exact .inr rfl

/-- The three ends of `allocate`: it throws, because the bytes cannot be counted in 64
bits or because `operator new` does; it lends out the inline block; or the heap serves. -/
theorem allocate_cases (T : ElementType) (n : UInt64) (answer : Option Nat) (m : Memory) :
    ((2 ^ 64 ≤ n.toNat * T.sizeof.toNat ∨ answer = none) ∧
      SimpleAllocator.allocate T n answer m = (none, m)) ∨
    (n.toNat * T.sizeof.toNat < 2 ^ 64 ∧ m.myAlloc.inUse = false ∧
      n.toNat * T.sizeof.toNat ≤ storageSize.toNat ∧ SimpleAllocator.allocate T n answer m =
        (some m.myAlloc.storage, { m with myAlloc := { m.myAlloc with inUse := true } })) ∨
    (n.toNat * T.sizeof.toNat < 2 ^ 64 ∧ ∃ p, answer = some p ∧ SimpleAllocator.allocate T n answer m =
      (some p, { m with heap := Function.update m.heap p (some (n * T.sizeof)) })) := by
  unfold SimpleAllocator.allocate
  by_cases exact : n.toNat * T.sizeof.toNat < 2 ^ 64
  · have passed : ¬n * T.sizeof / T.sizeof ≠ n := not_not.mpr ((mul_div_eq_iff T n).mpr exact)
    rw [if_neg passed]
    rcases offer_inline_or (n * T.sizeof) m.myAlloc with ⟨free, small, lent⟩ | refused
    · rw [toNat_bytes exact] at small
      exact .inr (.inl ⟨exact, free, small, by rw [lent]⟩)
    · rw [refused]
      cases answer with
      | none => exact .inl ⟨.inr rfl, rfl⟩
      | some p => exact .inr (.inr ⟨exact, p, rfl, rfl⟩)
  · have caught : n * T.sizeof / T.sizeof ≠ n := fun same => exact ((mul_div_eq_iff T n).mp same)
    rw [if_pos caught]
    exact .inl ⟨.inl (Nat.le_of_not_lt exact), rfl⟩

theorem deallocate_inline (n : UInt64) (m : Memory) :
    SimpleAllocator.deallocate m.myAlloc.storage n m =
      (none, { m with myAlloc := { m.myAlloc with inUse := false } }) := by
  simp [SimpleAllocator.deallocate, HandlerAllocator.deallocate]

theorem deallocate_heap {p : Nat} (outside : p ≠ m.myAlloc.storage) (n : UInt64) :
    SimpleAllocator.deallocate p n m = (some ⟨p, n, m.heap p⟩, { m with heap := Function.update m.heap p none }) := by
  simp [SimpleAllocator.deallocate, HandlerAllocator.deallocate, outside]

/-- A live block has its bytes: in the inline block, or in one of that size on the heap. -/
structure Backed (m : Memory) (block : Block) : Prop where
  exact : block.bytes < 2 ^ 64
  inline : block.pointer = m.myAlloc.storage → block.bytes ≤ storageSize.toNat
  heap : block.pointer ≠ m.myAlloc.storage → m.heap block.pointer = some (block.n * block.T.sizeof)

theorem Backed.fits (backed : Backed m block) : block.bytes ≤ m.capacity block.pointer := by
  unfold Memory.capacity
  split
  next inline => exact backed.inline inline
  next outside =>
    rw [backed.heap outside, Option.getD_some, toNat_bytes backed.exact]
    exact le_rfl

theorem Backed.flag (backed : Backed m block) (inUse : Bool) :
    Backed { m with myAlloc := { m.myAlloc with inUse } } block :=
  ⟨backed.exact, backed.inline, backed.heap⟩

/-- What happens elsewhere on the heap does not matter. -/
theorem Backed.update (backed : Backed m block) {p : Nat} (other : block.pointer ≠ p) (bytes : Option UInt64) :
    Backed { m with heap := Function.update m.heap p bytes } block := by
  refine ⟨backed.exact, backed.inline, fun outside => ?_⟩
  rw [← backed.heap outside]
  exact Function.update_of_ne other ..

/-- The flag, the heap and the clients agree on where the live blocks are. -/
structure Sound (m : Memory) (live : List Block) : Prop where
  apart : (live.map Block.pointer).Nodup
  inline : m.myAlloc.inUse = true ↔ m.myAlloc.storage ∈ live.map Block.pointer
  heap : ∀ p, (m.heap p).isSome ↔ p ≠ m.myAlloc.storage ∧ p ∈ live.map Block.pointer
  backed : ∀ block ∈ live, Backed m block

variable {live live' : List Block}

theorem pointer_ne {p : Nat} (absent : p ∉ live.map Block.pointer) : ∀ block ∈ live, block.pointer ≠ p := by
  rintro block member rfl
  exact absent (List.mem_map_of_mem member)

theorem sound_start (storage : Nat) : Sound (start storage).memory [] := by
  constructor <;> simp [start]

/-- The order in which the clients took their blocks does not matter. -/
theorem Sound.perm (sound : Sound m live) (same : live.Perm live') : Sound m live' := by
  have pointers := same.map Block.pointer
  refine ⟨pointers.nodup_iff.mp sound.apart, ?_, ?_, ?_⟩
  · rw [← pointers.mem_iff]
    exact sound.inline
  · intro p
    rw [← pointers.mem_iff]
    exact sound.heap p
  · intro block member
    exact sound.backed block (same.mem_iff.mpr member)

/-- The inline block is lent out. -/
theorem Sound.lend (sound : Sound m live) (block : Block) (place : block.pointer = m.myAlloc.storage)
    (free : m.myAlloc.inUse = false) (exact : block.bytes < 2 ^ 64) (small : block.bytes ≤ storageSize.toNat) :
    Sound { m with myAlloc := { m.myAlloc with inUse := true } } (block :: live) := by
  have absent : m.myAlloc.storage ∉ live.map Block.pointer := by
    rw [← sound.inline, free]
    exact Bool.false_ne_true
  refine ⟨?_, ?_, ?_, ?_⟩
  · rw [List.map_cons, place]
    exact List.nodup_cons.mpr ⟨absent, sound.apart⟩
  · simp [place]
  · intro p
    rw [List.map_cons, List.mem_cons, place, sound.heap p]
    tauto
  · intro other member
    rcases List.mem_cons.mp member with rfl | member
    · exact ⟨exact, fun _ => small, fun outside => absurd place outside⟩
    · exact (sound.backed other member).flag true

/-- A block of the heap is handed out. -/
theorem Sound.obtain (sound : Sound m live) (block : Block) (outside : block.pointer ≠ m.myAlloc.storage)
    (unused : m.heap block.pointer = none) (exact : block.bytes < 2 ^ 64) :
    Sound { m with heap := Function.update m.heap block.pointer (some (block.n * block.T.sizeof)) } (block :: live) := by
  have absent : block.pointer ∉ live.map Block.pointer := by
    intro member
    have used := (sound.heap block.pointer).mpr ⟨outside, member⟩
    rw [unused] at used
    cases used
  refine ⟨?_, ?_, ?_, ?_⟩
  · rw [List.map_cons]
    exact List.nodup_cons.mpr ⟨absent, sound.apart⟩
  · rw [List.map_cons, List.mem_cons]
    exact sound.inline.trans (or_iff_right outside.symm).symm
  · intro p
    by_cases own : p = block.pointer
    · subst own
      simp [outside]
    · simpa [Function.update_of_ne own, own] using sound.heap p
  · intro other member
    rcases List.mem_cons.mp member with rfl | member
    · exact ⟨exact, fun inline => absurd inline outside, fun _ => Function.update_self ..⟩
    · exact (sound.backed other member).update (pointer_ne absent other member) _

/-- A block comes back: to the flag if it is the inline one, else to the heap. -/
theorem Sound.release (sound : Sound m (block :: live)) (n : UInt64) :
    Sound (SimpleAllocator.deallocate block.pointer n m).2 live := by
  obtain ⟨apart, inline, heap, backed⟩ := sound
  rw [List.map_cons] at apart
  obtain ⟨absent, restNodup⟩ := List.nodup_cons.mp apart
  by_cases place : block.pointer = m.myAlloc.storage
  · rw [place, deallocate_inline]
    refine ⟨restNodup, ?_, ?_, ?_⟩
    · simpa [place] using absent
    · intro p
      rw [heap p, List.map_cons, List.mem_cons, place]
      tauto
    · intro other member
      exact (backed other (List.mem_cons_of_mem _ member)).flag false
  · rw [deallocate_heap place]
    refine ⟨restNodup, ?_, ?_, ?_⟩
    · rw [inline, List.map_cons, List.mem_cons]
      exact or_iff_right (Ne.symm place)
    · intro p
      by_cases own : p = block.pointer
      · subst own
        simpa using fun _ => absent
      · simpa [Function.update_of_ne own, own] using heap p
    · intro other member
      exact (backed other (List.mem_cons_of_mem _ member)).update (pointer_ne absent other member) none

theorem step_allocate (stepped : step w (.allocate T n answer) = some w') :
    w.memory.Offers answer ∧ w'.deleted = w.deleted ∧
      match SimpleAllocator.allocate T n answer w.memory with
      | (some p, memory) => w'.memory = memory ∧ w'.live = ⟨p, T, n⟩ :: w.live
      | (none, memory) => w'.memory = memory ∧ w'.live = w.live := by
  by_cases offered : w.memory.Offers answer
  · simp only [step, offered, if_true] at stepped
    refine ⟨offered, ?_⟩
    split at stepped <;> cases stepped <;> simp [*]
  · simp [step, offered] at stepped

theorem step_deallocate (stepped : step w (.deallocate block n) = some w') :
    block ∈ w.live ∧ w' = ⟨(SimpleAllocator.deallocate block.pointer n w.memory).2, w.live.erase block,
      w.deleted ++ (SimpleAllocator.deallocate block.pointer n w.memory).1.toList⟩ := by
  simp only [step, Option.ite_none_right_eq_some, Option.some.injEq] at stepped
  exact ⟨stepped.1, stepped.2.symm⟩

theorem Sound.allocate (sound : Sound w.memory w.live) (stepped : step w (.allocate T n answer) = some w') :
    Sound w'.memory w'.live := by
  obtain ⟨offered, -, ended⟩ := step_allocate stepped
  rcases allocate_cases T n answer w.memory with
    ⟨-, threw⟩ | ⟨exact, free, small, lent⟩ | ⟨exact, p, rfl, served⟩
  · rw [threw] at ended
    rw [ended.1, ended.2]
    exact sound
  · rw [lent] at ended
    rw [ended.1, ended.2]
    exact sound.lend ⟨w.memory.myAlloc.storage, T, n⟩ rfl free exact small
  · rw [served] at ended
    obtain ⟨outside, unused⟩ := offered p rfl
    rw [ended.1, ended.2]
    exact sound.obtain ⟨p, T, n⟩ outside unused exact

theorem Sound.deallocate (sound : Sound w.memory w.live) (stepped : step w (.deallocate block n) = some w') :
    Sound w'.memory w'.live := by
  obtain ⟨member, rfl⟩ := step_deallocate stepped
  exact (sound.perm (List.perm_cons_erase member)).release n

theorem Sound.step {use : Use} (sound : Sound w.memory w.live) (stepped : step w use = some w') :
    Sound w'.memory w'.live := by
  cases use with
  | allocate T n answer => exact sound.allocate stepped
  | deallocate block n => exact sound.deallocate stepped

theorem Sound.run {uses : List Use} (sound : Sound w.memory w.live) (path : run HandlerMemory.step w uses = some w') :
    Sound w'.memory w'.live := by
  have kept : ∀ w use w', Sound w.memory w.live → HandlerMemory.step w use = some w' → Sound w'.memory w'.live :=
    fun _ _ _ sound stepped => sound.step stepped
  have after := run_invariant kept path sound
  exact after

/-- What `allocate` returns is large enough, whether or not anyone has checked. -/
theorem allocate_fits (T : ElementType) (n : UInt64) (answer : Option Nat) (m : Memory) (offered : m.Offers answer) :
    ((SimpleAllocator.allocate T n answer m).1 = none ∧ (2 ^ 64 ≤ n.toNat * T.sizeof.toNat ∨ answer = none)) ∨
      ∃ p, (SimpleAllocator.allocate T n answer m).1 = some p ∧
        n.toNat * T.sizeof.toNat ≤ (SimpleAllocator.allocate T n answer m).2.capacity p := by
  rcases allocate_cases T n answer m with ⟨why, threw⟩ | ⟨-, -, small, lent⟩ | ⟨exact, p, rfl, served⟩
  · exact .inl ⟨by rw [threw], why⟩
  · refine .inr ⟨m.myAlloc.storage, by rw [lent], ?_⟩
    rw [lent, Memory.capacity, if_pos rfl]
    exact small
  · refine .inr ⟨p, by rw [served], ?_⟩
    rw [served, Memory.capacity, if_neg (offered p rfl).1]
    simp only [Function.update_self, Option.getD_some]
    exact (toNat_bytes exact).ge

/-- At most one live block is the inline one, and the flag tells whether there is one. -/
theorem Sound.count_inline (sound : Sound m live) :
    live.countP (·.pointer = m.myAlloc.storage) = if m.myAlloc.inUse then 1 else 0 := by
  have count : live.countP (·.pointer = m.myAlloc.storage) =
      (live.map Block.pointer).count m.myAlloc.storage := by
    rw [List.count, List.countP_map]
    rfl
  rw [count]
  split
  next used => exact List.count_eq_one_of_mem sound.apart (sound.inline.mp used)
  next unused => exact List.count_eq_zero.mpr fun member => unused (sound.inline.mpr member)

/-- The address of a block tells where it came from. -/
theorem Sound.deletes_iff (sound : Sound m live) (member : block ∈ live) (n : UInt64) :
    (SimpleAllocator.deallocate block.pointer n m).1.isSome ↔ (m.heap block.pointer).isSome := by
  rw [sound.heap]
  by_cases place : block.pointer = m.myAlloc.storage
  · rw [place, deallocate_inline]
    simp
  · rw [deallocate_heap place]
    simpa [place] using ⟨block, member, rfl⟩

end

/-- After any calls through any `SimpleAllocator`s of one `handler_allocator`: the next
`allocate` throws or returns a block that is large enough, as those in use are; the flag
counts the clients of the inline block; and the next `deallocate` of a live block calls
`operator delete` exactly if the block came from `operator new`. -/
theorem handler_memory_sound (storage : Nat) (uses : List Use) (w : World)
    (path : run step (start storage) uses = some w) :
    (∀ T n answer, w.memory.Offers answer →
      ((SimpleAllocator.allocate T n answer w.memory).1 = none ∧
          (2 ^ 64 ≤ n.toNat * T.sizeof.toNat ∨ answer = none)) ∨
        ∃ p, (SimpleAllocator.allocate T n answer w.memory).1 = some p ∧
          n.toNat * T.sizeof.toNat ≤ (SimpleAllocator.allocate T n answer w.memory).2.capacity p) ∧
      (∀ block ∈ w.live, block.n.toNat * block.T.sizeof.toNat ≤ w.memory.capacity block.pointer) ∧
      w.live.countP (·.pointer = w.memory.myAlloc.storage) = (if w.memory.myAlloc.inUse then 1 else 0) ∧
      ∀ block ∈ w.live, ∀ n, (SimpleAllocator.deallocate block.pointer n w.memory).1.isSome ↔
        (w.memory.heap block.pointer).isSome := by
  have sound : Sound w.memory w.live := (sound_start storage).run path
  refine ⟨fun T n answer offered => allocate_fits T n answer w.memory offered, ?_, sound.count_inline, ?_⟩
  · intro block member
    exact (sound.backed block member).fits
  · intro block member n
    exact sound.deletes_iff member n

/-- `SimpleAllocator<char>`, the `allocator_type` of the handlers. -/
def char : ElementType := ⟨1, by decide⟩

/-- An element type of 8 bytes. -/
def double : ElementType := ⟨8, by decide⟩

/-- A second block goes to the heap and comes back with a count that is not its own, and
2^61 elements of 8 bytes are too many. -/
theorem handler_memory_sound_heap :
    ∃ w, run step (start 4096) [.allocate char 100 none, .allocate double 3 (some 8192),
        .allocate double 2305843009213693952 (some 64), .deallocate ⟨8192, double, 3⟩ 77] = some w ∧
      (∀ T n answer, w.memory.Offers answer →
        ((SimpleAllocator.allocate T n answer w.memory).1 = none ∧
            (2 ^ 64 ≤ n.toNat * T.sizeof.toNat ∨ answer = none)) ∨
          ∃ p, (SimpleAllocator.allocate T n answer w.memory).1 = some p ∧
            n.toNat * T.sizeof.toNat ≤ (SimpleAllocator.allocate T n answer w.memory).2.capacity p) ∧
        (∀ block ∈ w.live, block.n.toNat * block.T.sizeof.toNat ≤ w.memory.capacity block.pointer) ∧
        w.live.countP (·.pointer = w.memory.myAlloc.storage) = (if w.memory.myAlloc.inUse then 1 else 0) ∧
        ∀ block ∈ w.live, ∀ n, (SimpleAllocator.deallocate block.pointer n w.memory).1.isSome ↔
          (w.memory.heap block.pointer).isSome :=
  ⟨_, rfl, handler_memory_sound 4096 [.allocate char 100 none, .allocate double 3 (some 8192),
    .allocate double 2305843009213693952 (some 64), .deallocate ⟨8192, double, 3⟩ 77] _ rfl⟩

/-! ### Sized deallocation -/

/-- `deallocate` receives the count that `allocate` received. -/
def SameCount : Use → Prop
  | .allocate .. => True
  | .deallocate block n => n = block.n

/-- A block that goes back to the heap is one of `char`s, or of no elements. -/
def Bytewise (w : World) : Use → Prop
  | .allocate .. => True
  | .deallocate block _ =>
    block.pointer ≠ w.memory.myAlloc.storage → block.T.sizeof = 1 ∨ block.n = 0

/-- Every `operator delete` was told the size of its block. -/
def Sized (w : World) : Prop := ∀ d ∈ w.deleted, d.obtained = some d.size

section
variable {w w' : World} {use : Use} {m : Memory} {live : List Block} {block : Block}

/-- `operator delete(p, n)` passes a count for a size. -/
theorem Sound.sized_iff (sound : Sound m live) (member : block ∈ live) :
    (∀ d ∈ (SimpleAllocator.deallocate block.pointer block.n m).1.toList, d.obtained = some d.size) ↔
      (block.pointer ≠ m.myAlloc.storage → block.T.sizeof = 1 ∨ block.n = 0) := by
  have backed := sound.backed block member
  by_cases place : block.pointer = m.myAlloc.storage
  · rw [place, deallocate_inline]
    simp
  · rw [deallocate_heap place, backed.heap place, ← count_eq_bytes_iff backed.exact]
    simp [place]

theorem Sound.step_sized (sound : Sound w.memory w.live) (same : SameCount use)
    (stepped : HandlerMemory.step w use = some w') : Sized w' ↔ Sized w ∧ Bytewise w use := by
  cases use with
  | allocate T n answer =>
    obtain ⟨-, deleted, -⟩ := step_allocate stepped
    simp [Sized, Bytewise, deleted]
  | deallocate block n =>
    obtain rfl : n = block.n := same
    obtain ⟨member, rfl⟩ := step_deallocate stepped
    rw [Bytewise, ← sound.sized_iff member]
    exact List.forall_mem_append

end

/-- When every block comes back with the count it was allocated for, the sizes passed to
`operator delete` are right exactly as long as no block of several bytes an element, and
of any elements at all, comes back from the heap. -/
theorem operator_delete_size_iff (storage : Nat) (uses : List Use) (w : World)
    (path : run step (start storage) uses = some w) (same : ∀ use ∈ uses, SameCount use) :
    (∀ d ∈ w.deleted, d.obtained = some d.size) ↔ Meets step Bytewise (start storage) uses := by
  have each : ∀ w use w', Sound w.memory w.live → SameCount use → step w use = some w' →
      Sound w'.memory w'.live ∧ (Sized w' ↔ Sized w ∧ Bytewise w use) :=
    fun _ _ _ sound same stepped => ⟨sound.step stepped, sound.step_sized same stepped⟩
  have sized := run_iff_meets each path same (sound_start storage)
  have none_yet : Sized (start storage) := by simp [Sized, start]
  exact sized.trans (and_iff_right none_yet)

/-- A block of `char`s and an inline one of `double`s go back as they should. -/
theorem operator_delete_size_iff_char :
    ∃ w, run step (start 4096) [.allocate double 3 none, .allocate char 5 (some 8192),
        .deallocate ⟨8192, char, 5⟩ 5, .deallocate ⟨4096, double, 3⟩ 3] = some w ∧
      ((∀ d ∈ w.deleted, d.obtained = some d.size) ↔ Meets step Bytewise (start 4096)
        [.allocate double 3 none, .allocate char 5 (some 8192),
          .deallocate ⟨8192, char, 5⟩ 5, .deallocate ⟨4096, double, 3⟩ 3]) :=
  ⟨_, rfl, operator_delete_size_iff 4096 _ _ rfl (by simp [SameCount])⟩

/-- The second of two `double`s comes from the heap with 8 bytes and goes back as 1. -/
theorem operator_delete_size_counterexample :
    ¬∀ (storage : Nat) (uses : List Use) (w : World), run step (start storage) uses = some w →
      (∀ use ∈ uses, SameCount use) → ∀ d ∈ w.deleted, d.obtained = some d.size := by
  intro all
  have sized := all 4096 [.allocate double 1 none, .allocate double 1 (some 8192),
    .deallocate ⟨8192, double, 1⟩ 1] _ rfl (by simp [SameCount]) ⟨8192, 1, some 8⟩ (by decide)
  exact absurd sized (by decide)

end Await.Live.HandlerMemory
