import Await.General.Callback

/-! How the surroundings can drive an object on: one rule for each move of its code and one
for a packet. The thread that works is the last one; what the others have left to return
does not matter. -/

namespace Await.General.Progress
open Transition Callback

variable {ω κ φ ρ ε η σ : Type}

/-- The last thread is about to run a point of the code, and nothing is in flight. -/
structure At (s : State ω κ η σ ε) (point : κ) (object : ω) (log : List (Entry κ ε)) : Prop where
  running : ∃ below rest, s.threads = below ++ [.run point :: rest]
  attached : s.attached = []
  present : s.object = some object
  entries : s.log = log

/-- A single operation is in flight, with a handler of this kind. -/
structure Waits (S : Supply φ η σ) (s : State ω κ η σ ε) (kind : φ) (object : ω)
    (log : List (Entry κ ε)) : Prop where
  attached : ∃ h, s.attached = [⟨h, none⟩] ∧ S.kind h = kind
  present : s.object = some object
  entries : s.log = log

/-- The object has been deleted. -/
structure Gone (s : State ω κ η σ ε) (log : List (Entry κ ε)) : Prop where
  absent : s.object = none
  entries : s.log = log

variable {C : Code ω κ φ ρ ε} {S : Supply φ η σ} {s : State ω κ η σ ε} {goal : State ω κ η σ ε → Prop}
  {point next : κ} {object object' : ω} {log : List (Entry κ ε)} {call : ε} {calls : List ε} {kind : φ}

theorem launch_at (object : ω) (store : σ) (point : κ) :
    At (State.launch object store point : State ω κ η σ ε) point object [] :=
  ⟨⟨[], [], rfl⟩, rfl, rfl, rfl⟩

/-- The last thread steps by itself. -/
theorem step_last {below : List (List (Frame κ η ε))} {stack : List (Frame κ η ε)}
    (threads : s.threads = below ++ [stack]) :
    step C S s (.thread below.length) = s.advance C S below.length stack := by
  simp [step, threads]

theorem goOn_last {below : List (List (Frame κ η ε))} {stack : List (Frame κ η ε)}
    (threads : s.threads = below ++ [stack]) (new : List (Frame κ η ε)) :
    (s.goOn below.length new).threads = below ++ [new] := by
  simp [State.goOn, threads]

theorem access_present (present : s.object = some object) (use : ω → State ω κ η σ ε) :
    s.access use = use object := by
  simp [State.access, present]

/-- The last thread runs its point. -/
theorem step_run {below : List (List (Frame κ η ε))} {under : List (Frame κ η ε)}
    (threads : s.threads = below ++ [.run point :: under]) (present : s.object = some object) :
    step C S s (.thread below.length) = some (s.perform S below.length under (C.exec point object)) := by
  rw [step_last threads, State.advance, access_present present]

/-- The system answers the last thread. -/
theorem step_respond {below : List (List (Frame κ η ε))} {under : List (Frame κ η ε)} {h : η} {result : ρ}
    {outcome : Outcome} (threads : s.threads = below ++ [.io call h :: under])
    (responded : C.respond call result = some outcome) :
    step C S s (.respond below.length result) = some (s.answer below.length call h under outcome) := by
  simp [step, threads, responded]

/-- The last thread invokes a handler. -/
theorem step_invoke {below : List (List (Frame κ η ε))} {under : List (Frame κ η ε)} {h : η} {code bytes : Nat}
    (threads : s.threads = below ++ [.invoke h code bytes :: under]) (present : s.object = some object) :
    step C S s (.thread below.length) =
      some (s.goOn below.length (.run (C.entry (S.kind h) code bytes) :: .invoked :: under)) := by
  simp only [step_last threads, State.advance, access_present present, ite_self]

theorem At.goto (here : At s point object log) (move : C.exec point object = .goto object' calls next)
    (rest : ∀ t, At t next object' (log ++ calls.map Entry.call) → CanReach (step C S) goal t) :
    CanReach (step C S) goal s := by
  obtain ⟨⟨below, under, threads⟩, attached, present, rfl⟩ := here
  have head := step_run (C := C) (S := S) threads present
  rw [move] at head
  exact .after _ head (rest _ ⟨⟨below, under, goOn_last threads _⟩, attached, rfl, rfl⟩)

theorem At.delete (here : At s point object log) (move : C.exec point object = .delete)
    (rest : ∀ t, Gone t log → CanReach (step C S) goal t) : CanReach (step C S) goal s := by
  obtain ⟨⟨below, under, threads⟩, attached, present, rfl⟩ := here
  have head := step_run (C := C) (S := S) threads present
  rw [move] at head
  exact .after _ head (rest _ ⟨rfl, rfl⟩)

/-- The system may leave an operation pending. -/
theorem At.start {otherwise : Option κ} (here : At s point object log) (result : ρ)
    (move : C.exec point object = .start object' call kind next otherwise)
    (pending : C.respond call result = some .later)
    (rest : ∀ t, Waits S t kind object' (log ++ [.call call, .result .later]) → CanReach (step C S) goal t) :
    CanReach (step C S) goal s := by
  obtain ⟨⟨below, under, threads⟩, attached, present, rfl⟩ := here
  have head := step_run (C := C) (S := S) threads present
  rw [move] at head
  have answered := step_respond (C := C) (S := S)
    (s := s.perform S below.length under (.start object' call kind next otherwise)) (goOn_last threads _) pending
  refine .after _ head (.after _ answered (rest _ ⟨⟨_, ?_, S.kind_make kind s.store⟩, rfl, rfl⟩))
  simp [State.answer, State.access, State.perform, State.goOn, attached]

/-- The operation in flight may complete in any way. -/
theorem Waits.packet (waits : Waits S s kind object log) (code bytes : Nat)
    (rest : ∀ t, At t (C.entry kind code bytes) object (log ++ [.packet (C.entry kind code bytes)]) →
      CanReach (step C S) goal t) : CanReach (step C S) goal s := by
  obtain ⟨⟨h, attached, rfl⟩, present, rfl⟩ := waits
  have allows : Attached.Allows (⟨h, none⟩ : Attached η) code bytes := by simp [Attached.Allows]
  have taken : step C S s (.packet 0 code bytes) = some { s with
      attached := []
      threads := s.threads ++ [[.invoke h code bytes]]
      log := s.log ++ [.packet (C.entry (S.kind h) code bytes)] } := by
    simp [step, attached, allows]
  exact .after _ taken (.after _ (step_invoke rfl present)
    (rest _ ⟨⟨s.threads, [.invoked], goOn_last rfl _⟩, rfl, present, rfl⟩))

end Await.General.Progress
