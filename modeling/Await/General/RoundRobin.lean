import Mathlib.Data.List.Count
import Mathlib.Data.List.Nodup

/-! Round robin. Tasks join a line at the back in order of their numbers; the first in
line takes a turn and goes to the back again, or leaves. Tasks join at any time, also in
the middle of a round, and still nobody is overtaken by a younger one. -/

namespace Await.General.RoundRobin

/-- How many tasks have joined, who is in line, and the turns so far. -/
inductive Rounds : Nat → List Nat → List Nat → Prop where
  | start : Rounds 0 [] []
  | join {joined line turns} : Rounds joined line turns → Rounds (joined + 1) (line ++ [joined]) turns
  | rotate {joined h line turns} : Rounds joined (h :: line) turns →
      Rounds joined (line ++ [h]) (turns ++ [h])
  | leave {joined h line turns} : Rounds joined (h :: line) turns → Rounds joined line (turns ++ [h])

/-- The turn in this place is the one that `task` takes after `k` others of its own. -/
def IsTurn (turns : List Nat) (task k place : Nat) : Prop :=
  turns[place]? = some task ∧ (turns.take place).count task = k

/-- What `x` must have over `y` behind it: an older one is not behind in turns, and a
younger one has still to catch up. -/
def Ahead (turns : List Nat) (x y : Nat) : Prop :=
  if x < y then turns.count y ≤ turns.count x else turns.count x < turns.count y

section
variable {joined h : Nat} {line turns : List Nat}

theorem Rounds.nodup (rounds : Rounds joined line turns) : line.Nodup ∧ ∀ x ∈ line, x < joined := by
  induction rounds with
  | start => simp
  | @join joined line turns rounds ih =>
    obtain ⟨nodup, below⟩ := ih
    refine ⟨List.nodup_append.mpr ⟨nodup, by simp, ?_⟩, fun x member => ?_⟩
    · intro x inLine y isNew
      have := below x inLine
      simp at isNew
      omega
    · rcases List.mem_append.mp member with old | new
      · exact Nat.lt_succ_of_lt (below x old)
      · simp at new
        omega
  | @rotate joined h line turns rounds ih =>
    have turned := List.perm_append_singleton h line
    exact ⟨turned.nodup_iff.mpr ih.1, fun x member => ih.2 x (turned.mem_iff.mp member)⟩
  | leave rounds ih => exact ⟨ih.1.of_cons, fun x member => ih.2 x (List.mem_cons_of_mem _ member)⟩

theorem Rounds.turns_below (rounds : Rounds joined line turns) : ∀ x ∈ turns, x < joined := by
  induction rounds with
  | start => simp
  | join rounds ih => exact fun x member => Nat.lt_succ_of_lt (ih x member)
  | rotate rounds ih | leave rounds ih =>
    intro x member
    rcases List.mem_append.mp member with old | new
    · exact ih x old
    · obtain rfl : x = _ := by simpa using new
      exact rounds.nodup.2 x (List.mem_cons_self ..)

/-- A turn of `h` moves it past everybody it was ahead of. -/
theorem ahead_turn {x y : Nat} (ahead : Ahead turns x y) (left : x ≠ h) (right : y ≠ h) :
    Ahead (turns ++ [h]) x y := by
  simpa [Ahead, List.count_singleton, left.symm, right.symm] using ahead

theorem ahead_back {y : Nat} (ahead : Ahead turns h y) (other : y ≠ h) : Ahead (turns ++ [h]) y h := by
  simp only [Ahead, List.count_append, List.count_singleton_self, List.count_singleton, beq_iff_eq,
    if_neg other.symm] at ahead ⊢
  split_ifs at ahead ⊢ <;> omega

/-- The invariant of the line, from place to place. -/
theorem Rounds.order (rounds : Rounds joined line turns) : line.Pairwise (Ahead turns) := by
  induction rounds with
  | start => exact .nil
  | @join joined line turns rounds ih =>
    refine List.pairwise_append.mpr ⟨ih, by simp, fun x inLine y isNew => ?_⟩
    obtain rfl : y = joined := by simpa using isNew
    have fresh : turns.count y = 0 :=
      List.count_eq_zero.mpr fun member => Nat.lt_irrefl _ (rounds.turns_below y member)
    rw [Ahead, if_pos (rounds.nodup.2 x inLine), fresh]
    exact Nat.zero_le _
  | @rotate joined h line turns rounds ih =>
    obtain ⟨first, later⟩ := List.pairwise_cons.mp ih
    obtain ⟨fresh, -⟩ := List.nodup_cons.mp rounds.nodup.1
    have others (x : Nat) (member : x ∈ line) : x ≠ h := fun same => fresh (same ▸ member)
    refine List.pairwise_append.mpr ⟨?_, by simp, fun x inLine y isBack => ?_⟩
    · exact later.imp_of_mem fun inLine inLine' ahead => ahead_turn ahead (others _ inLine) (others _ inLine')
    · obtain rfl : y = h := by simpa using isBack
      exact ahead_back (first x inLine) (others x inLine)
  | @leave joined h line turns rounds ih =>
    obtain ⟨-, later⟩ := List.pairwise_cons.mp ih
    obtain ⟨fresh, -⟩ := List.nodup_cons.mp rounds.nodup.1
    have others (x : Nat) (member : x ∈ line) : x ≠ h := fun same => fresh (same ▸ member)
    exact later.imp_of_mem fun inLine inLine' ahead => ahead_turn ahead (others _ inLine) (others _ inLine')

/-- Before a turn of `h` the older ones that are still in line have had one turn more. -/
theorem Rounds.behind (rounds : Rounds joined (h :: line) turns) {i : Nat} (older : i < h) (waits : i ∈ line) :
    turns.count h < turns.count i := by
  have ahead := (List.pairwise_cons.mp rounds.order).1 i waits
  rwa [Ahead, if_neg (Nat.not_lt_of_lt older)] at ahead

/-- A place in a list with one more item is the last one, or it was there before. -/
theorem split_concat {α : Type} {items before after : List α} {last x : α}
    (split : items ++ [last] = before ++ x :: after) :
    (after = [] ∧ before = items ∧ x = last) ∨ ∃ after', after = after' ++ [last] ∧ items = before ++ x :: after' := by
  rcases List.eq_nil_or_concat after with rfl | ⟨after', final, rfl⟩
  · obtain ⟨rfl, same⟩ := List.append_inj' split rfl
    exact .inl ⟨rfl, rfl, (List.cons.inj same).1.symm⟩
  · rw [List.concat_eq_append, ← List.cons_append, ← List.append_assoc] at split
    obtain ⟨rfl, same⟩ := List.append_inj' split rfl
    obtain rfl := (List.cons.inj same).1
    exact .inr ⟨after', List.concat_eq_append, rfl⟩

/-- At each turn of `j` an older `i` has had more turns than `j` before, or it has left. -/
theorem Rounds.past (rounds : Rounds joined line turns) {before after : List Nat} {i j : Nat}
    (split : turns = before ++ j :: after) (older : i < j) :
    before.count j < before.count i ∨ i ∉ after ∧ i ∉ line := by
  induction rounds generalizing after with
  | start => simp at split
  | @join joined line turns rounds ih =>
    have inside : j < joined := rounds.turns_below j (by simp [split])
    refine (ih split).imp_right fun ⟨notAfter, notLine⟩ => ⟨notAfter, ?_⟩
    simp only [List.mem_append, List.mem_singleton, not_or]
    exact ⟨notLine, by omega⟩
  | @rotate joined h line turns rounds ih =>
    rcases split_concat split with ⟨rfl, rfl, rfl⟩ | ⟨after', rfl, split'⟩
    · by_cases waits : i ∈ line
      · exact .inl (rounds.behind older waits)
      · exact .inr ⟨by simp, by simp [waits, Nat.ne_of_lt older]⟩
    · refine (ih split').imp_right fun ⟨notAfter, notLine⟩ => ?_
      obtain ⟨other, notLine⟩ := not_or.mp (List.mem_cons.not.mp notLine)
      exact ⟨by simp [notAfter, other], by simp [notLine, other]⟩
  | @leave joined h line turns rounds ih =>
    rcases split_concat split with ⟨rfl, rfl, rfl⟩ | ⟨after', rfl, split'⟩
    · by_cases waits : i ∈ line
      · exact .inl (rounds.behind older waits)
      · exact .inr ⟨by simp, waits⟩
    · refine (ih split').imp_right fun ⟨notAfter, notLine⟩ => ?_
      obtain ⟨other, notLine⟩ := not_or.mp (List.mem_cons.not.mp notLine)
      exact ⟨by simp [notAfter, other], notLine⟩

/-- No overtaking: of two tasks the older one takes its `k`-th turn first. -/
theorem Rounds.in_turn (rounds : Rounds joined line turns) {i j k p q : Nat} (older : i < j)
    (first : IsTurn turns i k p) (second : IsTurn turns j k q) : p < q := by
  by_contra late
  obtain ⟨atQ, countJ⟩ := second
  obtain ⟨atP, countI⟩ := first
  obtain ⟨inside, eq⟩ := List.getElem?_eq_some_iff.mp atQ
  have apart : p ≠ q := by
    rintro rfl
    exact Nat.ne_of_lt older (Option.some.inj (atP.symm.trans atQ))
  have split : turns = turns.take q ++ j :: turns.drop (q + 1) := by
    rw [← eq, List.getElem_cons_drop, List.take_append_drop]
  rcases rounds.past split older with more | ⟨gone, -⟩
  · -- the turn of `i` comes later, when it has had no more turns than `j` has
    have fewer : (turns.take q).count i ≤ (turns.take p).count i :=
      (List.take_prefix_take_left (by omega)).sublist.count_le i
    omega
  · refine gone (List.mem_of_getElem? (i := p - (q + 1)) ?_)
    rw [List.getElem?_drop, ← atP]
    congr 1
    omega

end

end Await.General.RoundRobin
