import Await.General.Transition
import Mathlib.Algebra.GroupWithZero.Nat
import Mathlib.Algebra.Order.BigOperators.Group.List

/-! Members of one kind that take steps in any order, and a host that steps among them: it
may let new ones in or speak to all of them. What each member keeps to by itself, all of
them keep to together. -/

namespace Await.General.Population
open Transition

structure State (τ σ : Type) where
  host : τ
  members : List σ

inductive Choice (β α : Type) where
  | host (choice : β)
  | member (i : Nat) (choice : α)
  deriving DecidableEq, Repr

variable {τ σ α β : Type}

def step (host : State τ σ → β → Option (State τ σ)) (member : σ → α → Option σ) (s : State τ σ) :
    Choice β α → Option (State τ σ)
  | .host choice => host s choice
  | .member i choice => do
      let m ← s.members[i]?
      let m' ← member m choice
      some { s with members := s.members.set i m' }

/-- What all members weigh together. -/
def State.total (weight : σ → Nat) (s : State τ σ) : Nat := (s.members.map weight).sum

/-- What one of them weighs. -/
def State.weigh (weight : σ → Nat) (i : Nat) (s : State τ σ) : Nat := (s.members[i]?).elim 0 weight

/-- The choices of one member. -/
def own (i : Nat) (choices : List (Choice β α)) : List α :=
  choices.filterMap fun
    | .host _ => none
    | .member j choice => if j = i then some choice else none

/-- A choice of this member, and one of some kind. -/
def Choice.mine (i : Nat) (kind : α → Bool) : Choice β α → Bool
  | .host _ => false
  | .member j choice => j == i && kind choice

theorem own_countP (i : Nat) (kind : α → Bool) (choices : List (Choice β α)) :
    (own i choices).countP kind = choices.countP (Choice.mine i kind) := by
  induction choices with
  | nil => rfl
  | cons choice choices ih =>
    rw [List.countP_cons, ← ih]
    cases choice with
    | host choice => simp [own, Choice.mine]
    | member j choice => by_cases same : j = i <;> simp [own, Choice.mine, same, List.countP_cons]

section
variable {host : State τ σ → β → Option (State τ σ)} {member : σ → α → Option σ} {s t : State τ σ}
  {Inv : σ → Prop} {weight : σ → Nat} {i : Nat} {choice : α}

/-- One member changes and all others stay as they are. -/
theorem member_cases (stepped : step host member s (.member i choice) = some t) :
    ∃ before m after m', s.members = before ++ m :: after ∧ before.length = i ∧
      member m choice = some m' ∧ t = { s with members := before ++ m' :: after } := by
  simp only [step, Option.bind_eq_bind, Option.bind_eq_some_iff, Option.some.injEq] at stepped
  obtain ⟨m, found, m', moved, rfl⟩ := stepped
  obtain ⟨inside, rfl⟩ := List.getElem?_eq_some_iff.mp found
  have split : s.members = s.members.take i ++ s.members[i] :: s.members.drop (i + 1) := by
    rw [← List.drop_eq_getElem_cons inside, List.take_append_drop]
  refine ⟨_, _, _, m', split, by rw [List.length_take]; omega, moved, ?_⟩
  rw [List.set_eq_take_append_cons_drop, if_pos inside]

/-- What a member keeps to in each of its steps, all of them keep to. -/
theorem member_all (kept : ∀ m m', Inv m → member m choice = some m' → Inv m')
    (all : ∀ m ∈ s.members, Inv m) (stepped : step host member s (.member i choice) = some t) :
    t.host = s.host ∧ ∀ m ∈ t.members, Inv m := by
  obtain ⟨before, m, after, m', members, -, moved, rfl⟩ := member_cases stepped
  rw [members] at all
  refine ⟨rfl, fun other present => ?_⟩
  rcases List.mem_append.mp present with left | right
  · exact all other (List.mem_append_left _ left)
  rcases List.mem_cons.mp right with rfl | right
  · exact kept m _ (all m (by simp)) moved
  · exact all other (by simp [right])

/-- The total changes as the one member's weight does. -/
theorem total_member {n : Nat} (kept : ∀ m m', m ∈ s.members → member m choice = some m' →
    weight m' + n ≤ weight m) (stepped : step host member s (.member i choice) = some t) :
    t.total weight + n ≤ s.total weight := by
  obtain ⟨before, m, after, m', members, -, moved, rfl⟩ := member_cases stepped
  have lower := kept m m' (by simp [members]) moved
  simp only [State.total, members, List.map_append, List.map_cons, List.sum_append, List.sum_cons]
  omega

/-- Each member's weight changes by its own steps only. -/
theorem weigh_member {n j : Nat} (kept : ∀ m m', m ∈ s.members → member m choice = some m' →
    weight m' + n ≤ weight m) (stepped : step host member s (.member i choice) = some t) :
    t.weigh weight j + (if i = j then n else 0) ≤ s.weigh weight j := by
  obtain ⟨before, m, after, m', members, rfl, moved, rfl⟩ := member_cases stepped
  have lower := kept m m' (by simp [members]) moved
  simp only [State.weigh, members]
  by_cases here : before.length = j
  · subst here
    simpa using lower
  · have same : (before ++ m' :: after)[j]? = (before ++ m :: after)[j]? := by
      rw [List.getElem?_append, List.getElem?_append]
      split
      · rfl
      · obtain ⟨k, apart⟩ : ∃ k, j - before.length = k + 1 := ⟨j - before.length - 1, by omega⟩
        simp [apart]
    simp [same, here]

theorem weigh_le {bound : Nat} (all : ∀ m ∈ s.members, weight m ≤ bound) : s.weigh weight i ≤ bound := by
  unfold State.weigh
  cases found : s.members[i]? with
  | none => exact Nat.zero_le _
  | some m => exact all m (List.mem_of_getElem? found)

theorem total_le {bound : Nat} (all : ∀ m ∈ s.members, weight m ≤ bound) :
    s.total weight ≤ s.members.length * bound := by
  have each : ∀ w ∈ s.members.map weight, w ≤ bound := by
    intro w present
    obtain ⟨m, inside, rfl⟩ := List.mem_map.mp present
    exact all m inside
  simpa [State.total] using List.sum_le_card_nsmul _ _ each

end

/-! ### A host that only lets new members in -/

section
variable {accept : τ → β → Option (τ × List σ)} {member : σ → α → Option σ} {t : State τ σ} {h : τ} {i : Nat}

/-- The host goes its own way, and new members come last. -/
def spawning (accept : τ → β → Option (τ × List σ)) (s : State τ σ) (choice : β) : Option (State τ σ) :=
  (accept s.host choice).map fun (host, new) => { host, members := s.members ++ new }

/-- The host by itself. -/
def alone (accept : τ → β → Option (τ × List σ)) (h : τ) (choice : β) : Option τ := (accept h choice).map Prod.fst

/-- The members that the host lets in, as they begin. -/
def arrivals (accept : τ → β → Option (τ × List σ)) : τ → List β → List σ
  | _, [] => []
  | h, choice :: later =>
      match accept h choice with
      | some (next, new) => new ++ arrivals accept next later
      | none => []

def hosts (choices : List (Choice β α)) : List β :=
  choices.filterMap fun
    | .host choice => some choice
    | .member _ _ => none

/-- A host that does nothing as long as the members do not let it. -/
def guarded (may : List σ → Bool) (host : State τ σ → β → Option (State τ σ)) (s : State τ σ) (choice : β) :
    Option (State τ σ) :=
  if may s.members then host s choice else none

/-- A guard only takes runs away. -/
theorem guarded_run {may : List σ → Bool} {host : State τ σ → β → Option (State τ σ)} {s : State τ σ}
    {choices : List (Choice β α)} (path : run (step (guarded may host) member) s choices = some t) :
    run (step host member) s choices = some t := by
  induction choices generalizing s with
  | nil => exact path
  | cons choice later ih =>
    obtain ⟨next, head, tail⟩ := run_cons.mp path
    refine run_cons.mpr ⟨next, ?_, ih tail⟩
    cases choice with
    | host choice => exact (Option.ite_none_right_eq_some.mp head).2
    | member i choice => exact head

/-- A member by itself gets as far among the others. -/
theorem member_run {host : State τ σ → β → Option (State τ σ)} {s : State τ σ} {before after : List σ} {m m' : σ}
    {choices : List α} (members : s.members = before ++ m :: after) (path : run member m choices = some m') :
    run (step host member) s (choices.map (Choice.member before.length)) =
      some { s with members := before ++ m' :: after } := by
  induction choices generalizing s m with
  | nil =>
    obtain rfl : m = m' := by simpa using path
    rw [List.map_nil, run_nil, ← members]
  | cons choice later ih =>
    obtain ⟨next, head, tail⟩ := run_cons.mp path
    rw [List.map_cons]
    have moved : step host member s (.member before.length choice) =
        some { s with members := before ++ next :: after } := by
      simp [step, members, head]
    have rest := ih (s := { s with members := before ++ next :: after }) rfl tail
    exact run_cons.mpr ⟨_, moved, rest⟩

theorem arrivals_concat {choices : List β} {choice : β} {mid next : τ} {new : List σ}
    (path : run (alone accept) h choices = some mid) (accepted : accept mid choice = some (next, new)) :
    arrivals accept h (choices ++ [choice]) = arrivals accept h choices ++ new := by
  induction choices generalizing h with
  | nil =>
    obtain rfl : h = mid := by simpa using path
    simp [arrivals, accepted]
  | cons first later ih =>
    obtain ⟨after, moved, tail⟩ := run_cons.mp path
    obtain ⟨⟨host, early⟩, entered, rfl⟩ := Option.map_eq_some_iff.mp moved
    simp only [List.cons_append, arrivals, entered, ih tail, List.append_assoc]

theorem hosts_append (choices more : List (Choice β α)) : hosts (choices ++ more) = hosts choices ++ hosts more :=
  List.filterMap_append ..

theorem own_append (choices more : List (Choice β α)) : own i (choices ++ more) = own i choices ++ own i more :=
  List.filterMap_append ..

/-- Each member is where its own choices have brought it from its beginning, whatever the
others and the host have done meanwhile. -/
structure Spawned (accept : τ → β → Option (τ × List σ)) (member : σ → α → Option σ) (h : τ)
    (choices : List (Choice β α)) (s : State τ σ) : Prop where
  host : run (alone accept) h (hosts choices) = some s.host
  members : ∀ i m, s.members[i]? = some m →
    ∃ began, (arrivals accept h (hosts choices))[i]? = some began ∧ run member began (own i choices) = some m
  count : s.members.length = (arrivals accept h (hosts choices)).length
  later : ∀ i, s.members.length ≤ i → own i choices = []

/-- The host lets new members in, or none. -/
theorem Spawned.arrive {choices : List (Choice β α)} {s : State τ σ} {choice : β} {next : τ} {new : List σ}
    (spawned : Spawned accept member h choices s) (accepted : accept s.host choice = some (next, new)) :
    Spawned accept member h (choices ++ [.host choice]) { host := next, members := s.members ++ new } := by
  have moved : alone accept s.host choice = some next := by simp [alone, accepted]
  have now : hosts (choices ++ [Choice.host choice]) = hosts choices ++ [choice] := hosts_append ..
  have same : ∀ i, own i (choices ++ [Choice.host choice]) = own i choices := by
    intro i
    rw [own_append]
    exact List.append_nil _
  have more := arrivals_concat spawned.host accepted
  refine ⟨by rw [now]; exact run_concat.mpr ⟨_, spawned.host, moved⟩, ?_, ?_, ?_⟩
  · intro i m present
    rw [now, more, same]
    by_cases early : i < s.members.length
    · rw [List.getElem?_append_left early] at present
      rw [List.getElem?_append_left (spawned.count ▸ early)]
      exact spawned.members i m present
    · have old : s.members.length ≤ i := Nat.le_of_not_lt early
      rw [List.getElem?_append_right old, spawned.count] at present
      rw [List.getElem?_append_right (spawned.count ▸ old), spawned.later i old]
      exact ⟨m, present, rfl⟩
  · rw [now, more, List.length_append, List.length_append, spawned.count]
  · intro i beyond
    rw [List.length_append] at beyond
    rw [same]
    exact spawned.later i (by omega)

theorem Spawned.act {choices : List (Choice β α)} {s : State τ σ} {j : Nat} {choice : α} {m m' : σ}
    (spawned : Spawned accept member h choices s) (found : s.members[j]? = some m)
    (moved : member m choice = some m') :
    Spawned accept member h (choices ++ [.member j choice]) { s with members := s.members.set j m' } := by
  obtain ⟨inside, -⟩ := List.getElem?_eq_some_iff.mp found
  have now : hosts (choices ++ [Choice.member j choice]) = hosts choices := by
    rw [hosts_append]
    exact List.append_nil _
  have mine : own j (choices ++ [Choice.member j choice]) = own j choices ++ [choice] := by
    rw [own_append]
    simp [own]
  have other : ∀ i, i ≠ j → own i (choices ++ [Choice.member j choice]) = own i choices := by
    intro i apart
    rw [own_append]
    simp [own, apart.symm]
  refine ⟨by rw [now]; exact spawned.host, ?_, by rw [now, List.length_set]; exact spawned.count, ?_⟩
  · intro i other' present
    rw [now]
    by_cases here : i = j
    · subst here
      rw [List.getElem?_set_self inside, Option.some.injEq] at present
      obtain ⟨began, arrived, path⟩ := spawned.members i m found
      rw [mine, ← present]
      exact ⟨began, arrived, run_concat.mpr ⟨m, path, moved⟩⟩
    · rw [List.getElem?_set_ne (Ne.symm here)] at present
      rw [other i here]
      exact spawned.members i other' present
  · intro i beyond
    rw [List.length_set] at beyond
    rw [other i (by omega)]
    exact spawned.later i beyond

theorem Spawned.step {choices : List (Choice β α)} {s : State τ σ} {choice : Choice β α}
    (spawned : Spawned accept member h choices s) (stepped : step (spawning accept) member s choice = some t) :
    Spawned accept member h (choices ++ [choice]) t := by
  cases choice with
  | host choice =>
    obtain ⟨⟨next, new⟩, accepted, rfl⟩ := Option.map_eq_some_iff.mp stepped
    exact spawned.arrive accepted
  | member j choice =>
    simp only [Population.step, Option.bind_eq_bind, Option.bind_eq_some_iff, Option.some.injEq] at stepped
    obtain ⟨m, found, m', moved, rfl⟩ := stepped
    exact spawned.act found moved

theorem spawning_run {choices : List (Choice β α)}
    (path : run (step (spawning accept) member) ⟨h, []⟩ choices = some t) :
    Spawned accept member h choices t := by
  have kept : ∀ past s choice t, Spawned accept member h past s → step (spawning accept) member s choice = some t →
      Spawned accept member h (past ++ [choice]) t := fun _ _ _ _ spawned stepped => spawned.step stepped
  have start : Spawned accept member h [] ⟨h, []⟩ :=
    ⟨rfl, fun _ _ none_yet => by simp at none_yet, rfl, fun _ _ => rfl⟩
  have spawned := run_invariant_past (fun past s => Spawned accept member h past s) kept path start
  exact spawned

end

end Await.General.Population
