import Await.General.Process

/-! Coroutines that run at once when they are called and whose frame goes as soon as their
body ends. What the body ended in is kept in a future. -/

namespace Await.General.Coroutine
open Process

/-- How a stretch of a body ends: at the next `co_await`, by returning, or with an
exception that leaves the body. -/
inductive Leg (σ ο χ ε : Type) where
  | await (frame : σ) (effects : List ε) (operation : ο)
  | returned (effects : List ε)
  | thrown (effects : List ε) (exception : χ)

/-- The body up to its first suspension, and from the result of the operation it waits for
to the next one. -/
structure Body (σ ο ρ χ ε : Type) where
  begin : Leg σ ο χ ε
  resume : σ → ο → ρ → Option (Leg σ ο χ ε)

inductive Effect (χ ε : Type) where
  | body (effect : ε)
  | settled (outcome : Except χ Unit)

variable {σ ο ρ χ ε : Type}

/-- `return_void` and `unhandled_exception` of the promise, and the end of the frame, as
neither `initial_suspend` nor `final_suspend` suspends. -/
def Leg.reaction : Leg σ ο χ ε → Reaction σ ο (Effect χ ε)
  | .await frame effects operation => .goOn frame (effects.map .body) [operation]
  | .returned effects => .destroyed (effects.map .body ++ [.settled (.ok ())])
  | .thrown effects exception => .destroyed (effects.map .body ++ [.settled (.error exception)])

def Body.actor (body : Body σ ο ρ χ ε) : Actor σ ο ρ (Effect χ ε) where
  begin := body.begin.reaction
  react frame operation result := (body.resume frame operation result).map Leg.reaction

theorem Leg.single (leg : Leg σ ο χ ε) : leg.reaction.Single := by
  cases leg <;> simp [Leg.reaction, Reaction.Single]

/-- A coroutine waits for one operation at a time. -/
theorem Body.sequential (body : Body σ ο ρ χ ε) : Sequential body.actor where
  begin := body.begin.single
  react := by
    intro frame operation result reaction reacted
    obtain ⟨leg, -, rfl⟩ := Option.map_eq_some_iff.mp reacted
    exact leg.single

/-- The effects of the body itself. -/
def bodyEffects (effects : List (Effect χ ε)) : List ε :=
  effects.filterMap fun
    | .body effect => some effect
    | .settled _ => none

end Await.General.Coroutine
