import Await.NanoCoro.Allocator
import Mathlib.Data.List.Perm.Basic

/-! `tcalloc` when all requests have one size, as those for the frames of one coroutine
have. A new block is made only when every block is out, so that there are never more
blocks than were once out at a time. -/

namespace Await.NanoCoro.FreeList
open Allocator General.LinkedList

/-- Every block is listed, last freed first, or out. -/
structure Pool (sz : Nat) (t : Tcalloc) (heap : Heap) (nodes out : List Nat) : Prop where
  linked : Linked (fun p => (heap.header p).next) t.root nodes
  sizes : ∀ p ∈ nodes, (heap.header p).size = sz
  blocks : (nodes ++ out).Perm (List.range heap.blocks)
  count : t.allocCount = heap.blocks
  total : t.total = t.allocCount * sz

variable {sz p : Nat} {t : Tcalloc} {heap : Heap} {nodes out out' : List Nat}

theorem pool_nil (sz : Nat) (memory : Nat → Header) : Pool sz {} ⟨0, fun _ => 0, memory⟩ [] [] :=
  ⟨rfl, by simp, .refl _, rfl, by simp⟩

theorem Pool.perm (pool : Pool sz t heap nodes out) (same : out.Perm out') : Pool sz t heap nodes out' :=
  ⟨pool.linked, pool.sizes, (same.append_left nodes).symm.trans pool.blocks, pool.count, pool.total⟩

theorem Pool.nodup (pool : Pool sz t heap nodes out) : (nodes ++ out).Nodup :=
  pool.blocks.nodup_iff.mpr List.nodup_range

theorem Pool.size_eq (pool : Pool sz t heap nodes out) : nodes.length + out.length = heap.blocks := by
  simpa using pool.blocks.length_eq

/-- A block that is out is not listed. -/
theorem Pool.apart (pool : Pool sz t heap nodes out) (held : p ∈ out) : p ∉ nodes := fun listed =>
  (List.nodup_append.mp pool.nodup).2.2 p listed p held rfl

theorem Pool.make (pool : Pool sz t heap [] out) :
    t.alloc sz heap = t.fresh sz heap ∧ Pool sz (t.fresh sz heap).2.1 (t.fresh sz heap).2.2 [] (out ++ [heap.blocks]) := by
  have empty : t.root = none := pool.linked
  refine ⟨alloc_fresh (by simp [empty]), empty, by simp, ?_, ?_, ?_⟩
  · have more := pool.blocks.append_right [heap.blocks]
    rwa [List.append_assoc, ← List.range_succ] at more
  · exact congrArg (· + 1) pool.count
  · simp [Tcalloc.fresh, pool.total, Nat.succ_mul]

theorem Pool.take (pool : Pool sz t heap (p :: nodes) out) :
    t.alloc sz heap = (p, { t with root := (heap.header p).next }, heap) ∧
      Pool sz { t with root := (heap.header p).next } heap nodes (out ++ [p]) := by
  obtain ⟨first, rest⟩ := pool.linked
  have small := pool.sizes p (List.mem_cons_self ..)
  refine ⟨alloc_reuse first small.le, rest, fun q member => pool.sizes q (List.mem_cons_of_mem _ member), ?_,
    pool.count, pool.total⟩
  have moved : (nodes ++ (out ++ [p])).Perm (p :: nodes ++ out) := by
    rw [← List.append_assoc]
    exact List.perm_append_singleton p (nodes ++ out)
  exact moved.trans pool.blocks

/-- A block that was not out is handed out and leaves the list, and the number of blocks
goes up only if the number of those out reaches a new height. -/
theorem Pool.alloc (pool : Pool sz t heap nodes out) :
    Pool sz (t.alloc sz heap).2.1 (t.alloc sz heap).2.2 (nodes.erase (t.alloc sz heap).1)
        (out ++ [(t.alloc sz heap).1]) ∧
      (t.alloc sz heap).2.2.blocks = max heap.blocks (out.length + 1) := by
  have sizes := pool.size_eq
  cases nodes with
  | nil =>
    obtain ⟨same, grown⟩ := pool.make
    rw [same]
    refine ⟨grown, ?_⟩
    simp only [List.length_nil] at sizes
    simp only [Tcalloc.fresh, Heap.malloc]
    omega
  | cons p nodes =>
    obtain ⟨same, rest⟩ := pool.take
    rw [same, List.erase_cons_head]
    refine ⟨rest, ?_⟩
    simp only [List.length_cons] at sizes
    simp only
    omega

theorem Pool.write (pool : Pool sz t heap nodes out) (held : p ∈ out) (bytes : Header) :
    Pool sz t (heap.write p bytes) nodes out := by
  have absent := pool.apart held
  refine ⟨linked_write pool.linked absent bytes, ?_, pool.blocks, pool.count, pool.total⟩
  intro node member
  have other : node ≠ p := fun same => absent (same ▸ member)
  rw [write_header_of_ne other]
  exact pool.sizes node member

theorem Pool.free (pool : Pool sz t heap nodes (p :: out)) :
    Pool sz (t.free p sz heap).1 (t.free p sz heap).2 (p :: nodes) out := by
  have absent := pool.apart (List.mem_cons_self ..)
  refine ⟨linked_push pool.linked absent sz, ?_, List.perm_middle.symm.trans pool.blocks, pool.count, pool.total⟩
  intro node member
  change ((heap.write p ⟨t.root, sz⟩).header node).size = sz
  by_cases own : node = p
  · rw [own, write_header_self]
  · rw [write_header_of_ne own]
    exact pool.sizes node ((List.mem_cons.mp member).resolve_left own)

end Await.NanoCoro.FreeList
