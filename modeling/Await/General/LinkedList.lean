import Mathlib.Logic.Function.Basic

/-! Singly linked lists threaded through cells that have other owners as well: a root, a
`next` map over all cells, and the list of nodes one meets from the root. -/

namespace Await.General.LinkedList

variable {κ : Type} {next other : κ → Option κ} {root : Option κ} {node : κ} {nodes rest : List κ}

/-- From `root` on, following `next` meets exactly `nodes` and then the end. -/
def Linked (next : κ → Option κ) : Option κ → List κ → Prop
  | root, [] => root = none
  | root, node :: rest => root = some node ∧ Linked next (next node) rest

theorem Linked.root_some (list : Linked next (some node) nodes) :
    ∃ rest, nodes = node :: rest ∧ Linked next (next node) rest := by
  cases nodes with
  | nil => cases list
  | cons head rest =>
    obtain ⟨same, tail⟩ := list
    cases same
    exact ⟨rest, rfl, tail⟩

/-- Cells off the list may be overwritten. -/
theorem Linked.frame (list : Linked next root nodes) (kept : ∀ node ∈ nodes, other node = next node) :
    Linked other root nodes := by
  induction nodes generalizing root with
  | nil => exact list
  | cons node rest ih =>
    obtain ⟨start, tail⟩ := list
    refine ⟨start, ?_⟩
    rw [kept node (List.mem_cons_self ..)]
    exact ih tail fun later member => kept later (List.mem_cons_of_mem _ member)

theorem Linked.push [DecidableEq κ] (list : Linked next root nodes) (fresh : node ∉ nodes) :
    Linked (Function.update next node root) (some node) (node :: nodes) := by
  refine ⟨rfl, ?_⟩
  rw [Function.update_self]
  refine list.frame fun later member => Function.update_of_ne ?_ _ _
  rintro rfl
  exact fresh member

end Await.General.LinkedList
