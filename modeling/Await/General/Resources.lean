import Await.General.Transition
import Mathlib.Data.List.Perm.Basic
import Mathlib.Logic.Function.Basic

/-! Resources with a protocol. What is done with each of them is in a log, whose entries take
it from one state to another. A resource belongs to one owner at a time, who knows which
state it is in; it can be handed on, and it is closed before its owner goes. -/

namespace Await.General.Resources
open Transition

/-- The states of a resource: where it starts, where each entry of the log takes it, and
where it ends. -/
structure Protocol (ε ς : Type) where
  step : Nat → ς → ε → Option ς
  fresh : ς
  closed : ς

variable {ε ς : Type} {P : Protocol ε ς}

/-- `none`: the log breaks the protocol of the resource. -/
def Protocol.after (P : Protocol ε ς) (resource : Nat) (log : List ε) : Option ς :=
  run (P.step resource) P.fresh log

theorem Protocol.after_append {resource : Nat} {log more : List ε} {state : ς}
    (before : P.after resource log = some state) :
    P.after resource (log ++ more) = run (P.step resource) state more := by
  cases rest : run (P.step resource) state more with
  | some last => exact run_append.mpr ⟨state, before, rest⟩
  | none =>
    cases whole : P.after resource (log ++ more) with
    | none => rfl
    | some last =>
      obtain ⟨mid, first, later⟩ := run_append.mp whole
      obtain rfl := Option.some.inj (before.symm.trans first)
      cases rest.symm.trans later

/-- Entries that leave a resource alone leave it where it is. -/
theorem Protocol.skips {resource : Nat} {state : ς} {entries : List ε}
    (alone : ∀ entry ∈ entries, P.step resource state entry = some state) :
    run (P.step resource) state entries = some state := by
  induction entries with
  | nil => rfl
  | cons entry entries ih =>
    obtain ⟨first, later⟩ := List.forall_mem_cons.mp alone
    exact run_cons.mpr ⟨state, first, ih later⟩

/-- An entry of the log has brought a resource to states that no entry brings it out of. -/
theorem Protocol.stays {resource : Nat} {state : ς} {entry : ε} {log : List ε} (kept : ς → Prop)
    (stays : ∀ state entry next, kept state → P.step resource state entry = some next → kept next)
    (enters : ∀ state next, P.step resource state entry = some next → kept next) (member : entry ∈ log)
    (after : P.after resource log = some state) : kept state := by
  obtain ⟨before, later, rfl⟩ := List.append_of_mem member
  obtain ⟨mid, -, rest⟩ := run_append.mp after
  obtain ⟨next, stepped, path⟩ := run_cons.mp rest
  have now := enters mid next stepped
  exact run_invariant stays path now

/-- The entries take each resource that is owned before to where it is owned after, and do
not concern the others. -/
def Carries (P : Protocol ε ς) (before : Nat → Option ς) (entries : List ε) (after : Nat → Option ς) : Prop :=
  ∀ r, (∃ first last, before r = some first ∧ after r = some last ∧ run (P.step r) first entries = some last) ∨
    before r = none ∧ after r = none ∧ ∀ state, run (P.step r) state entries = some state

/-- What is owned before is shared out. -/
def Splits (before left right : Nat → Option ς) : Prop :=
  ∀ r, before r = left r ∧ right r = none ∨ left r = none ∧ before r = right r

/-- The entries close all that is owned before. -/
def Closes (P : Protocol ε ς) (before : Nat → Option ς) (entries : List ε) : Prop :=
  ∀ r, (∃ first, before r = some first ∧ run (P.step r) first entries = some P.closed) ∨
    before r = none ∧ ∀ state, run (P.step r) state entries = some state

/-- With the new resource, if there is one. -/
def grant (P : Protocol ε ς) (opens : Bool) (made : Nat) (owned : Nat → Option ς) : Nat → Option ς :=
  if opens then Function.update owned made (some P.fresh) else owned

def nothing : Nat → Option ς := fun _ => none

def single (r : Nat) (state : ς) : Nat → Option ς := Function.update nothing r (some state)

def pair (r : Nat) (state : ς) (r' : Nat) (state' : ς) : Nat → Option ς :=
  Function.update (single r state) r' (some state')

theorem single_eq_some {r other : Nat} {state found : ς} :
    single r state other = some found ↔ other = r ∧ state = found := by
  by_cases same : other = r <;> simp [single, nothing, same]

theorem pair_eq_some {r r' other : Nat} {state state' found : ς} :
    pair r state r' state' other = some found ↔
      other = r' ∧ state' = found ∨ other ≠ r' ∧ other = r ∧ state = found := by
  by_cases second : other = r'
  · simp [pair, second]
  · simp [pair, second, single_eq_some]

theorem single_ne_none {r other : Nat} {state : ς} : single r state other ≠ none ↔ other = r := by
  simp [Option.ne_none_iff_exists', single_eq_some]

theorem pair_ne_none {r r' other : Nat} {state state' : ς} :
    pair r state r' state' other ≠ none ↔ other = r ∨ other = r' := by
  by_cases second : other = r' <;> simp [Option.ne_none_iff_exists', pair_eq_some, second]

theorem carries_nil (owner : Nat → Option ς) : Carries P owner [] owner := by
  intro r
  cases owned : owner r with
  | none => exact .inr ⟨rfl, rfl, fun _ => rfl⟩
  | some state => exact .inl ⟨state, state, rfl, rfl, rfl⟩

theorem carries_single {r : Nat} {state last : ς} {entries : List ε}
    (path : run (P.step r) state entries = some last)
    (others : ∀ other, other ≠ r → ∀ state, run (P.step other) state entries = some state) :
    Carries P (single r state) entries (single r last) := by
  intro other
  by_cases same : other = r
  · subst same
    exact .inl ⟨state, last, by simp [single], by simp [single], path⟩
  · exact .inr ⟨by simp [single, same, nothing], by simp [single, same, nothing], others other same⟩

theorem carries_pair {r r' : Nat} {state state' last last' : ς} {entries : List ε} (apart : r ≠ r')
    (path : run (P.step r) state entries = some last) (path' : run (P.step r') state' entries = some last')
    (others : ∀ other, other ≠ r → other ≠ r' → ∀ state, run (P.step other) state entries = some state) :
    Carries P (pair r state r' state') entries (pair r last r' last') := by
  intro other
  by_cases second : other = r'
  · subst second
    exact .inl ⟨state', last', by simp [pair], by simp [pair], path'⟩
  · by_cases first : other = r
    · subst first
      exact .inl ⟨state, last, by simp [pair, second, single], by simp [pair, second, single], path⟩
    · exact .inr ⟨by simp [pair, second, single, first, nothing], by simp [pair, second, single, first, nothing],
        others other first second⟩

theorem closes_single {r : Nat} {state : ς} {entries : List ε}
    (path : run (P.step r) state entries = some P.closed)
    (others : ∀ other, other ≠ r → ∀ state, run (P.step other) state entries = some state) :
    Closes P (single r state) entries := by
  intro other
  by_cases same : other = r
  · subst same
    exact .inl ⟨state, by simp [single], path⟩
  · exact .inr ⟨by simp [single, same, nothing], others other same⟩

/-- The second of two resources is handed on. -/
theorem splits_pair {r r' : Nat} {state state' : ς} (apart : r ≠ r') :
    Splits (pair r state r' state') (single r state) (single r' state') := by
  intro other
  by_cases second : other = r'
  · subst second
    exact .inr ⟨by simp [single, apart.symm, nothing], by simp [pair, single]⟩
  · exact .inl ⟨by simp [pair, second], by simp [single, second, nothing]⟩

theorem splits_nothing : Splits (nothing : Nat → Option ς) nothing nothing := fun _ => .inl ⟨rfl, rfl⟩

/-- Who owns what. The resources without an owner are closed, or have not been made. -/
structure Shared (P : Protocol ε ς) (owners : List (Nat → Option ς)) (made : Nat) (log : List ε) : Prop where
  unshared : owners.Pairwise fun one other => ∀ r, one r = none ∨ other r = none
  bounded : ∀ owner ∈ owners, ∀ r, made ≤ r → owner r = none
  owned : ∀ owner ∈ owners, ∀ r state, owner r = some state → P.after r log = some state
  rest : ∀ r, (∀ owner ∈ owners, owner r = none) → P.after r log = some (if r < made then P.closed else P.fresh)

section
variable {owner owner' left right : Nat → Option ς} {owners owners' : List (Nat → Option ς)} {made : Nat}
  {log entries : List ε}

theorem Shared.perm (shared : Shared P owners made log) (same : owners.Perm owners') : Shared P owners' made log where
  unshared := (same.pairwise_iff fun disjoint r => (disjoint r).symm).mp shared.unshared
  bounded owner member := shared.bounded owner (same.mem_iff.mpr member)
  owned owner member := shared.owned owner (same.mem_iff.mpr member)
  rest r free := shared.rest r fun owner member => free owner (same.mem_iff.mp member)

/-- The new resource has an owner at once. -/
theorem Shared.grant (shared : Shared P (owner :: owners) made log) (opens : Bool) :
    Shared P (grant P opens made owner :: owners) (if opens then made + 1 else made) log := by
  cases opens with
  | false => exact shared
  | true =>
    obtain ⟨unshared, bounded, owned, rest⟩ := shared
    obtain ⟨alone, others⟩ := List.pairwise_cons.mp unshared
    have unmade : P.after made log = some P.fresh := by
      simpa using rest made fun owner member => bounded owner member made le_rfl
    simp only [Resources.grant, if_true]
    refine ⟨List.pairwise_cons.mpr ⟨fun other member r => ?_, others⟩, ?_, ?_, ?_⟩
    · by_cases new : r = made
      · exact .inr (bounded other (List.mem_cons_of_mem _ member) r (by omega))
      · rw [Function.update_of_ne new]
        exact alone other member r
    · refine List.forall_mem_cons.mpr ⟨fun r above => ?_, fun other member r above => ?_⟩
      · rw [Function.update_of_ne (by omega)]
        exact bounded owner (List.mem_cons_self ..) r (by omega)
      · exact bounded other (List.mem_cons_of_mem _ member) r (by omega)
    · refine List.forall_mem_cons.mpr ⟨fun r state found => ?_, fun other member => ?_⟩
      · by_cases new : r = made
        · subst new
          rw [unmade, ← found, Function.update_self]
        · rw [Function.update_of_ne new] at found
          exact owned owner (List.mem_cons_self ..) r state found
      · exact owned other (List.mem_cons_of_mem _ member)
    · intro r free
      obtain ⟨own, others⟩ := List.forall_mem_cons.mp free
      have apart : r ≠ made := by
        rintro rfl
        simp at own
      rw [Function.update_of_ne apart] at own
      have same : r < made + 1 ↔ r < made := by omega
      simp only [same]
      exact rest r (List.forall_mem_cons.mpr ⟨own, others⟩)

/-- Calls and answers bring the resources of one owner on. -/
theorem Shared.carry (shared : Shared P (owner :: owners) made log) (carries : Carries P owner entries owner') :
    Shared P (owner' :: owners) made (log ++ entries) := by
  obtain ⟨unshared, bounded, owned, rest⟩ := shared
  obtain ⟨alone, others⟩ := List.pairwise_cons.mp unshared
  have self : owner ∈ owner :: owners := List.mem_cons_self ..
  refine ⟨List.pairwise_cons.mpr ⟨fun other member r => ?_, others⟩, ?_, ?_, ?_⟩
  · rcases carries r with ⟨first, last, before, -⟩ | ⟨-, after, -⟩
    · exact .inr ((alone other member r).resolve_left (by simp [before]))
    · exact .inl after
  · refine List.forall_mem_cons.mpr ⟨fun r above => ?_,
      fun other member => bounded other (List.mem_cons_of_mem _ member)⟩
    rcases carries r with ⟨first, last, before, -⟩ | ⟨-, after, -⟩
    · simp [bounded owner self r above] at before
    · exact after
  · refine List.forall_mem_cons.mpr ⟨fun r state found => ?_, fun other member r state found => ?_⟩
    · rcases carries r with ⟨first, last, before, after, path⟩ | ⟨-, after, -⟩
      · obtain rfl := Option.some.inj (after.symm.trans found)
        rw [P.after_append (owned owner self r first before), path]
      · simp [after] at found
    · have before : owner r = none := (alone other member r).resolve_right (by simp [found])
      rcases carries r with ⟨first, last, before', -⟩ | ⟨-, -, skips⟩
      · simp [before] at before'
      · rw [P.after_append (owned other (List.mem_cons_of_mem _ member) r state found), skips]
  · intro r free
    obtain ⟨own, free⟩ := List.forall_mem_cons.mp free
    rcases carries r with ⟨first, last, before, after, -⟩ | ⟨before, -, skips⟩
    · simp [own] at after
    · rw [P.after_append (rest r (List.forall_mem_cons.mpr ⟨before, free⟩)), skips]

theorem Shared.split (shared : Shared P (owner :: owners) made log) (splits : Splits owner left right) :
    Shared P (right :: left :: owners) made log := by
  obtain ⟨unshared, bounded, owned, rest⟩ := shared
  obtain ⟨alone, others⟩ := List.pairwise_cons.mp unshared
  have self : owner ∈ owner :: owners := List.mem_cons_self ..
  have part : ∀ r, (left r = none ∨ left r = owner r) ∧ (right r = none ∨ right r = owner r) := by
    intro r
    rcases splits r with ⟨kept, gone⟩ | ⟨gone, kept⟩
    · exact ⟨.inr kept.symm, .inl gone⟩
    · exact ⟨.inl gone, .inr kept.symm⟩
  refine ⟨List.pairwise_cons.mpr ⟨?_, List.pairwise_cons.mpr ⟨fun other member r => ?_, others⟩⟩, ?_, ?_, ?_⟩
  · refine List.forall_mem_cons.mpr ⟨fun r => ?_, fun other member r => ?_⟩
    · rcases splits r with ⟨-, gone⟩ | ⟨gone, -⟩
      · exact .inl gone
      · exact .inr gone
    · rcases (part r).2 with gone | kept
      · exact .inl gone
      · rw [kept]
        exact alone other member r
  · rcases (part r).1 with gone | kept
    · exact .inl gone
    · rw [kept]
      exact alone other member r
  · refine List.forall_mem_cons.mpr ⟨fun r above => ?_, List.forall_mem_cons.mpr ⟨fun r above => ?_,
      fun other member => bounded other (List.mem_cons_of_mem _ member)⟩⟩
    · exact (part r).2.elim id fun kept => kept.trans (bounded owner self r above)
    · exact (part r).1.elim id fun kept => kept.trans (bounded owner self r above)
  · refine List.forall_mem_cons.mpr ⟨fun r state found => ?_, List.forall_mem_cons.mpr ⟨fun r state found => ?_,
      fun other member => owned other (List.mem_cons_of_mem _ member)⟩⟩
    · rcases (part r).2 with gone | kept
      · simp [gone] at found
      · exact owned owner self r state (kept ▸ found)
    · rcases (part r).1 with gone | kept
      · simp [gone] at found
      · exact owned owner self r state (kept ▸ found)
  · intro r free
    obtain ⟨freeRight, free⟩ := List.forall_mem_cons.mp free
    obtain ⟨freeLeft, free⟩ := List.forall_mem_cons.mp free
    refine rest r (List.forall_mem_cons.mpr ⟨?_, free⟩)
    rcases splits r with ⟨kept, -⟩ | ⟨-, kept⟩
    · rw [kept, freeLeft]
    · rw [kept, freeRight]

theorem Shared.close (shared : Shared P (owner :: owners) made log) (closes : Closes P owner entries) :
    Shared P owners made (log ++ entries) := by
  obtain ⟨unshared, bounded, owned, rest⟩ := shared
  obtain ⟨alone, others⟩ := List.pairwise_cons.mp unshared
  have self : owner ∈ owner :: owners := List.mem_cons_self ..
  refine ⟨others, fun other member => bounded other (List.mem_cons_of_mem _ member),
    fun other member r state found => ?_, fun r free => ?_⟩
  · have before : owner r = none := (alone other member r).resolve_right (by simp [found])
    rcases closes r with ⟨first, before', -⟩ | ⟨-, skips⟩
    · simp [before] at before'
    · rw [P.after_append (owned other (List.mem_cons_of_mem _ member) r state found), skips]
  · rcases closes r with ⟨first, before, path⟩ | ⟨before, skips⟩
    · have made_before : r < made := by
        by_contra above
        simp [bounded owner self r (by omega)] at before
      rw [P.after_append (owned owner self r first before), path, if_pos made_before]
    · rw [P.after_append (rest r (List.forall_mem_cons.mpr ⟨before, free⟩)), skips]

end

end Await.General.Resources
