import Mathlib.Logic.Function.Basic

/-! Move-only types. An object of such a type has a token or has been moved from. Moving
an object makes a new one and leaves the old one without the token, so that what is done
with the token, by a call or by the destructor, is done once. -/

namespace Await.General.MoveOnly

variable {ω τ : Type}

section
variable (token : ω → Option τ) (objects : Nat → Option ω)

/-- One of the objects has the token. -/
def Sole (t : τ) : Prop :=
  ∃ i o, objects i = some o ∧ token o = some t ∧ ∀ j other, j ≠ i → objects j = some other → token other = none

/-- None of them has it any more. -/
def Spent : Prop := ∀ j o, objects j = some o → token o = none

end

variable {token : ω → Option τ} {objects : Nat → Option ω} {t : τ} {i n : Nat} {o source target : ω}
  {new : Option ω}

/-- An object that there is has a number below `n`. -/
theorem fresh_set (fresh : ∀ j, n ≤ j → objects j = none) (present : objects i = some o) (new : Option ω) :
    ∀ j, n ≤ j → Function.update objects i new j = none := by
  intro j above
  have apart : j ≠ i := by
    rintro rfl
    rw [fresh j above] at present
    cases present
  rw [Function.update_of_ne apart]
  exact fresh j above

theorem fresh_move (fresh : ∀ j, n ≤ j → objects j = none) (present : objects i = some o) (source target : Option ω) :
    ∀ j, n + 1 ≤ j → Function.update (Function.update objects i source) n target j = none := by
  intro j above
  rw [Function.update_of_ne (by omega)]
  exact fresh_set fresh present source j (by omega)

theorem Sole.eq {t' : τ} (sole : Sole token objects t) (present : objects i = some o) (holds : token o = some t') :
    t' = t := by
  obtain ⟨k, holder, found, holds', others⟩ := sole
  by_cases same : i = k
  · subst same
    obtain rfl := Option.some.inj (present.symm.trans found)
    exact Option.some.inj (holds.symm.trans holds')
  · rw [others i o same present] at holds
    cases holds

/-- What holds of all objects, and of a new one, holds of all objects then. -/
theorem forall_set {good : ω → Prop} (all : ∀ j o, objects j = some o → good o) (one : ∀ o, new = some o → good o) :
    ∀ j o, Function.update objects i new j = some o → good o := by
  intro j o found
  by_cases same : j = i
  · exact one o (by simpa [same] using found)
  · exact all j o (by rwa [Function.update_of_ne same] at found)

theorem Spent.set (spent : Spent token objects) (empty : ∀ o, new = some o → token o = none) :
    Spent token (Function.update objects i new) := forall_set spent empty

/-- The token is used, or destroyed with its object. -/
theorem Sole.release (sole : Sole token objects t) (present : objects i = some o) (holds : token o ≠ none)
    (empty : ∀ o, new = some o → token o = none) : Spent token (Function.update objects i new) := by
  obtain ⟨k, holder, found, -, others⟩ := sole
  obtain rfl : i = k := by
    by_contra apart
    exact holds (others i o apart present)
  intro j other found'
  by_cases same : j = i
  · exact empty other (by simpa [same] using found')
  · exact others j other same (by rwa [Function.update_of_ne same] at found')

/-- An object that has been moved from is destroyed. -/
theorem Sole.keep (sole : Sole token objects t) (present : objects i = some o) (idle : token o = none)
    (empty : ∀ o, new = some o → token o = none) : Sole token (Function.update objects i new) t := by
  obtain ⟨k, holder, found, holds, others⟩ := sole
  have apart : k ≠ i := by
    rintro rfl
    obtain rfl := Option.some.inj (present.symm.trans found)
    rw [idle] at holds
    cases holds
  refine ⟨k, holder, by rwa [Function.update_of_ne apart], holds, fun j other away found' => ?_⟩
  by_cases same : j = i
  · exact empty other (by simpa [same] using found')
  · exact others j other away (by rwa [Function.update_of_ne same] at found')

/-- A new object is made with a token. -/
theorem Spent.make (spent : Spent token objects) (n : Nat) (holds : token o = some t) :
    Sole token (Function.update objects n (some o)) t := by
  refine ⟨n, o, Function.update_self .., holds, fun j other away found => ?_⟩
  rw [Function.update_of_ne away] at found
  exact spent j other found

/-- The move constructor: what the source had, the target has. -/
theorem Sole.move (sole : Sole token objects t) (present : objects i = some o) (fresh : objects n = none)
    (left : token source = none) (taken : token target = token o) :
    Sole token (Function.update (Function.update objects i (some source)) n (some target)) t := by
  have apart : i ≠ n := by
    rintro rfl
    rw [present] at fresh
    cases fresh
  have source_idle : ∀ o, some source = some o → token o = none := by
    rintro _ ⟨⟩
    exact left
  cases holds : token o with
  | none =>
    obtain ⟨k, holder, found, holds', others⟩ := sole.keep present holds source_idle
    have away : k ≠ n := by
      rintro rfl
      rw [Function.update_of_ne apart.symm, fresh] at found
      cases found
    refine ⟨k, holder, by rwa [Function.update_of_ne away], holds', fun j other apart' found' => ?_⟩
    by_cases same : j = n
    · obtain rfl : target = other := by simpa [same] using found'
      rw [taken, holds]
    · exact others j other apart' (by rwa [Function.update_of_ne same] at found')
  | some t' =>
    have spent : Spent token (Function.update objects i (some source)) :=
      sole.release present (by simp [holds]) source_idle
    obtain rfl := sole.eq present holds
    refine ⟨n, target, Function.update_self .., taken.trans holds, fun j other away found => ?_⟩
    exact spent j other (by rwa [Function.update_of_ne away] at found)

theorem Spent.move (spent : Spent token objects) (present : objects i = some o)
    (left : token source = none) (taken : token target = token o) :
    Spent token (Function.update (Function.update objects i (some source)) n (some target)) := by
  refine (spent.set ?_).set ?_
  · rintro _ ⟨⟩
    exact left
  · rintro _ ⟨⟩
    exact taken.trans (spent i o present)

end Await.General.MoveOnly
