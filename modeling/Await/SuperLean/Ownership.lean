import Await.SuperLean.Writer
import Await.SuperLean.AcceptLoop
import Mathlib.Data.List.Count
import Mathlib.Data.List.Range

/-! Who owns the handlers of the callback classes. A handler belongs to the call that has
made it, then to the system, then to the call of its `Invoke`. After that nobody deletes
it: `io_complete_callback` does not, and `Read` and `Write` let go of it. -/

namespace Await.SuperLean.Ownership
open General.Callback General.Transition Pal Reader

variable {ω κ φ ρ ε : Type}

/-- A state together with the handlers whose packets the threads have been given (`none` for
the first thread), and with the handlers that have been destroyed and those whose `Invoke`
has returned. -/
structure Tracked (ω κ φ ε : Type) where
  state : State ω κ (Handler φ) Handlers ε
  delivered : List (Option (Handler φ))
  destroyed : List Nat := []
  returned : List Nat := []

/-- The handler that a `unique_ptr` destroys in this step. -/
def Tracked.destroys (t : Tracked ω κ φ ε) : Choice ρ → List Nat
  | .thread i =>
      match t.state.threads[i]? with
      | some (.done h (.now _) :: .awaiting _ _ :: _) => [h.number]
      | _ => []
  | _ => []

/-- The handler whose `Invoke` returns in this step, to `Read` or `Write`, or else to
`io_complete_callback`. -/
def Tracked.returns (t : Tracked ω κ φ ε) : Choice ρ → List Nat
  | .thread i =>
      match t.state.threads[i]?, t.delivered[i]? with
      | some (.invoked :: .reported h :: _), _ => [h.number]
      | some (.invoked :: _), some (some h) => [h.number]
      | _, _ => []
  | _ => []

def Tracked.delivers (t : Tracked ω κ φ ε) : Choice ρ → List (Option (Handler φ))
  | .packet i _ _ => [t.state.attached[i]?.map (·.handler)]
  | _ => []

def tracked (C : Code ω κ φ ρ ε) (t : Tracked ω κ φ ε) (choice : Choice ρ) : Option (Tracked ω κ φ ε) :=
  (step C (freshHandlers φ) t.state choice).map fun state => {
    state
    delivered := t.delivered ++ t.delivers choice
    destroyed := t.destroyed ++ t.destroys choice
    returned := t.returned ++ t.returns choice }

def Tracked.launch (object : ω) (point : κ) : Tracked ω κ φ ε where
  state := State.launch object {} point
  delivered := [none]

/-- Tracking changes nothing: the states are those of the class itself. -/
theorem tracked_run (C : Code ω κ φ ρ ε) (t : Tracked ω κ φ ε) (choices : List (Choice ρ)) :
    (run (tracked C) t choices).map (·.state) = run (step C (freshHandlers φ)) t.state choices := by
  refine run_map (fun _ => True) (fun _ _ _ _ _ => trivial) (fun t choice _ => ?_) trivial
  rw [tracked, Option.map_map]
  exact congrFun Option.map_id _

/-! ### Owners -/

/-- The call on top of a thread that has made the handler and still holds it. -/
def starting : List (Frame κ (Handler φ) ε) → List (Handler φ)
  | .io _ h :: _ | .done h (.now _) :: _ | .done h (.failed _) :: _ => [h]
  | _ => []

/-- The handler of a `Read` or `Write` that has called its `Invoke`. -/
def called : Frame κ (Handler φ) ε → Option (Handler φ)
  | .reported h => some h
  | _ => none

/-- The calls of `Invoke` that run on a thread: those made by `Read` and `Write`, which wait
below the top of the stack, and the one the thread has begun with. -/
def invoking (delivered : Option (Handler φ)) (stack : List (Frame κ (Handler φ) ε)) : List (Handler φ) :=
  stack.tail.filterMap called ++ if stack = [] then [] else delivered.toList

def holders (delivered : Option (Handler φ)) (stack : List (Frame κ (Handler φ) ε)) : List Nat :=
  (starting stack ++ invoking delivered stack).map (·.number)

/-- The handlers of the operations in flight, from the call that starts them, of the posted
packets, and of the calls of `Invoke` that run. -/
def Tracked.owned (t : Tracked ω κ φ ε) : List Nat :=
  t.state.attached.map (·.handler.number) ++ (List.zipWith holders t.delivered t.state.threads).flatten

/-- Each handler ever made is destroyed once or not yet, and one that is not has an owner. -/
structure Tracked.Disposed (t : Tracked ω κ φ ε) : Prop where
  once : ∀ n < t.state.store.made, t.state.store.alive.count n + t.destroyed.count n = 1
  owner : ∀ n ∈ t.state.store.alive, n ∈ t.owned

/-- No call of a handler's `Invoke` returns. -/
def NoReturn (t : Tracked ω κ φ ε) : Choice ρ → Prop
  | .thread i => ∀ rest, t.state.threads[i]? ≠ some (.invoked :: rest)
  | _ => True

/-! ### Stacks -/

/-- What lies below the top of a thread: the calls of `Invoke` that have led to it, the first
one by `io_complete_callback`. -/
inductive Callers : Option (Handler φ) → List (Frame κ (Handler φ) ε) → Prop where
  | first : Callers none []
  | delivered {h} : Callers (some h) [.invoked]
  | refused {d h next otherwise rest} : Callers d rest →
      Callers d (.invoked :: .reported h :: .awaiting next otherwise :: rest)

inductive Shape : Option (Handler φ) → List (Frame κ (Handler φ) ε) → Prop where
  | ended {d} : Shape d []
  | callers {d rest} : Callers d rest → Shape d rest
  | run {d point rest} : Callers d rest → Shape d (.run point :: rest)
  | io {d call h next otherwise rest} : Callers d rest → Shape d (.io call h :: .awaiting next otherwise :: rest)
  | done {d h outcome next otherwise rest} : Callers d rest →
      Shape d (.done h outcome :: .awaiting next otherwise :: rest)
  | reported {d h next otherwise rest} : Callers d rest →
      Shape d (.reported h :: .awaiting next otherwise :: rest)
  | refused {d h code bytes next otherwise rest} : Callers d rest →
      Shape d (.invoke h code bytes :: .reported h :: .awaiting next otherwise :: rest)
  | packet {h code bytes} : Shape (some h) [.invoke h code bytes]

section
variable {d : Option (Handler φ)} {rest : List (Frame κ (Handler φ) ε)}

/-- Returning to the callers ends no call but the one that returns. -/
theorem Callers.holders_eq (callers : Callers d rest) :
    holders d rest = (rest.filterMap called ++ d.toList).map (·.number) := by
  cases callers <;> simp [holders, starting, invoking, called, List.filterMap_cons]

theorem holders_cons (top : Frame κ (Handler φ) ε) (d : Option (Handler φ)) (rest : List (Frame κ (Handler φ) ε)) :
    holders d (top :: rest) =
      (starting (top :: rest) ++ rest.filterMap called ++ d.toList).map (·.number) := by
  simp [holders, invoking]

/-- What comes after a call that is not done at once has the same callers. -/
theorem Callers.onward (callers : Callers d rest) (otherwise : Option κ) :
    Shape d (otherwise.toList.map .run ++ rest) ∧
      holders d (otherwise.toList.map .run ++ rest) = (rest.filterMap called ++ d.toList).map (·.number) := by
  cases otherwise with
  | none => exact ⟨.callers callers, callers.holders_eq⟩
  | some point => exact ⟨.run callers, by simp [holders_cons, starting]⟩

end

section
variable {delivered : List (Option (Handler φ))} {threads : List (List (Frame κ (Handler φ) ε))} {i : Nat}
  {d : Option (Handler φ)} {old : List (Frame κ (Handler φ) ε)}

/-- A thread that moves on changes what it holds itself. -/
theorem held_set (given : delivered[i]? = some d) (running : threads[i]? = some old)
    (new : List (Frame κ (Handler φ) ε)) (n : Nat) :
    (List.zipWith holders delivered (threads.set i new)).flatten.count n + (holders d old).count n =
      (List.zipWith holders delivered threads).flatten.count n + (holders d new).count n := by
  induction i generalizing delivered threads with
  | zero =>
    obtain ⟨_, delivered, rfl⟩ : ∃ first later, delivered = first :: later := by
      cases delivered <;> simp_all
    obtain ⟨_, threads, rfl⟩ : ∃ first later, threads = first :: later := by
      cases threads <;> simp_all
    simp only [List.getElem?_cons_zero, Option.some.injEq] at given running
    simp only [given, running, List.set_cons_zero, List.zipWith_cons_cons, List.flatten_cons, List.count_append]
    omega
  | succ i ih =>
    obtain ⟨_, delivered, rfl⟩ : ∃ first later, delivered = first :: later := by
      cases delivered <;> simp_all
    obtain ⟨_, threads, rfl⟩ : ∃ first later, threads = first :: later := by
      cases threads <;> simp_all
    have given' : delivered[i]? = some d := by simpa using given
    have running' : threads[i]? = some old := by simpa using running
    have later := ih given' running'
    simp only [List.set_cons_succ, List.zipWith_cons_cons, List.flatten_cons, List.count_append]
    omega

end

/-- The stacks have their shapes, and each handler is where the books say. -/
structure Custody (t : Tracked ω κ φ ε) : Prop where
  aligned : t.delivered.length = t.state.threads.length
  shape : ∀ (i : Nat) d stack, t.delivered[i]? = some d → t.state.threads[i]? = some stack → Shape d stack
  owned : ∀ n, t.state.store.alive.count n = t.owned.count n + t.returned.count n
  made : ∀ n, t.state.store.alive.count n + t.destroyed.count n = (List.range t.state.store.made).count n

section
variable {C : Code ω κ φ ρ ε} {t t' : Tracked ω κ φ ε} {s' : State ω κ (Handler φ) Handlers ε} {i : Nat}
  {d : Option (Handler φ)} {old new : List (Frame κ (Handler φ) ε)} {destroyed returned : List Nat}

theorem Custody.held_le (given : t.delivered[i]? = some d) (running : t.state.threads[i]? = some old) (n : Nat) :
    (holders d old).count n ≤ t.owned.count n := by
  have without := held_set given running [] n
  rw [Tracked.owned, List.count_append]
  have nothing : (holders d ([] : List (Frame κ (Handler φ) ε))).count n = 0 := by simp [holders, starting, invoking]
  omega

/-- A thread goes on: the handlers it gets, gives away or drops are accounted for. -/
theorem Custody.goOn (custody : Custody t) (given : t.delivered[i]? = some d)
    (running : t.state.threads[i]? = some old) (moved : s'.threads = t.state.threads.set i new)
    (shape : Shape d new)
    (owned : ∀ n, s'.store.alive.count n + (t.state.attached.map (·.handler.number)).count n + (holders d old).count n =
      t.state.store.alive.count n + (s'.attached.map (·.handler.number)).count n + (holders d new).count n +
        returned.count n)
    (made : ∀ n, s'.store.alive.count n + destroyed.count n + (List.range t.state.store.made).count n =
      t.state.store.alive.count n + (List.range s'.store.made).count n) :
    Custody ⟨s', t.delivered ++ [], t.destroyed ++ destroyed, t.returned ++ returned⟩ where
  aligned := by simp [moved, custody.aligned]
  shape j d' stack given' running' := by
    rw [List.append_nil] at given'
    dsimp only at running'
    rw [moved] at running'
    by_cases same : i = j
    · subst same
      obtain rfl := Option.some.inj (given.symm.trans given')
      obtain rfl := Option.some.inj ((get_set_self running new).symm.trans running')
      exact shape
    · rw [List.getElem?_set_ne same] at running'
      exact custody.shape j d' stack given' running'
  owned n := by
    have before := custody.owned n
    have here := owned n
    have held := held_set given running new n
    simp only [Tracked.owned, List.append_nil, moved, List.count_append] at before ⊢
    omega
  made n := by
    have before := custody.made n
    have here := made n
    simp only [List.count_append]
    omega

/-- A thread goes on and holds what it held. -/
theorem Custody.quiet (custody : Custody t) (given : t.delivered[i]? = some d)
    (running : t.state.threads[i]? = some old) (drops : t.destroys (.thread i : Choice ρ) = [])
    (ends : t.returns (.thread i : Choice ρ) = []) (shape : Shape d new) (same : holders d new = holders d old) :
    Custody ⟨t.state.goOn i new, t.delivered ++ [], t.destroyed ++ t.destroys (.thread i : Choice ρ),
      t.returned ++ t.returns (.thread i : Choice ρ)⟩ := by
  rw [drops, ends]
  apply custody.goOn given running rfl shape <;> intro n
  · rw [same]
    simp [State.goOn]
  · simp [State.goOn]

theorem set_same {threads : List (List (Frame κ (Handler φ) ε))} (running : threads[i]? = some old) :
    threads.set i old = threads := by
  obtain ⟨inside, rfl⟩ := List.getElem?_eq_some_iff.mp running
  exact List.set_getElem_self inside

/-- A point of the code, or an access to an object that is gone. -/
theorem Custody.point {point : κ} {rest : List (Frame κ (Handler φ) ε)} (custody : Custody t)
    (given : t.delivered[i]? = some d) (running : t.state.threads[i]? = some (.run point :: rest))
    (callers : Callers d rest) (advanced : t.state.advance C (freshHandlers φ) i (.run point :: rest) = some s') :
    Custody ⟨s', t.delivered ++ [], t.destroyed ++ [], t.returned ++ []⟩ := by
  simp only [State.advance, State.access, Option.some.injEq] at advanced
  split at advanced
  · next object present =>
    subst advanced
    cases C.exec point object with
    | goto object calls next =>
      apply custody.goOn given running rfl (.run callers) <;> intro n <;>
        simp [State.perform, State.goOn, holders_cons, starting]
    | start object call kind next otherwise =>
      apply custody.goOn given running rfl (.io callers) <;> intro n
      · simp [State.perform, State.goOn, holders_cons, starting, freshHandlers, called, List.filterMap_cons,
          List.count_cons]
        omega
      · simp [State.perform, State.goOn, freshHandlers, List.range_succ]
        omega
    | post object call kind bytes =>
      apply custody.goOn given running rfl (.callers callers) <;> intro n
      · simp [State.perform, State.goOn, holders_cons, callers.holders_eq, starting, freshHandlers]
        omega
      · simp [State.perform, State.goOn, freshHandlers, List.range_succ]
        omega
    | leave object =>
      apply custody.goOn given running rfl (.callers callers) <;> intro n <;>
        simp [State.perform, State.goOn, holders_cons, callers.holders_eq, starting]
    | delete =>
      apply custody.goOn given running rfl (.callers callers) <;> intro n <;>
        simp [State.perform, State.goOn, holders_cons, callers.holders_eq, starting]
  · subst advanced
    exact custody.goOn given running (set_same running).symm (.run callers) (fun n => rfl) (fun n => rfl)

/-- The handler of an operation that is done at once is still there to be destroyed. -/
theorem Custody.discard {h : Handler φ} {bytes : Nat} {next : κ} {otherwise : Option κ}
    {rest : List (Frame κ (Handler φ) ε)} (custody : Custody t) (given : t.delivered[i]? = some d)
    (running : t.state.threads[i]? = some (.done h (.now bytes) :: .awaiting next otherwise :: rest))
    (callers : Callers d rest)
    (dropped : s' = State.goOn i (.run next :: rest)
      { t.state with store := (freshHandlers φ).discard h t.state.store }) :
    Custody ⟨s', t.delivered ++ [], t.destroyed ++ [h.number], t.returned ++ []⟩ := by
  have alive (n : Nat) : (t.state.store.alive.erase h.number).count n + [h.number].count n =
      t.state.store.alive.count n := by
    have held := held_le given running h.number
    have balance := custody.owned h.number
    by_cases same : n = h.number
    · subst same
      simp [holders_cons, starting] at held
      rw [List.count_erase_self, List.count_singleton_self]
      omega
    · rw [List.count_erase_of_ne same, List.count_singleton, if_neg (by simpa using Ne.symm same), Nat.add_zero]
  subst dropped
  apply custody.goOn given running rfl (.run callers) <;> intro n <;> have := alive n
  · simp [State.goOn, freshHandlers, holders_cons, starting, called, List.filterMap_cons, List.count_cons] at this ⊢
    omega
  · simp only [State.goOn, freshHandlers]
    omega

/-- An `Invoke` has returned to its caller. -/
theorem Custody.back (custody : Custody t) (given : t.delivered[i]? = some d) (callers : Callers d old)
    (running : t.state.threads[i]? = some old) (advanced : t.state.advance C (freshHandlers φ) i old = some s') :
    Custody ⟨s', t.delivered ++ [], t.destroyed ++ t.destroys (.thread i : Choice ρ),
      t.returned ++ t.returns (.thread i : Choice ρ)⟩ := by
  have drops : t.destroys (.thread i : Choice ρ) = [] := by
    cases callers <;> simp [Tracked.destroys, running]
  cases callers with
  | first => simp [State.advance] at advanced
  | @delivered h =>
    -- the thread is back in `io_complete_callback`
    have ends : t.returns (.thread i : Choice ρ) = [h.number] := by simp [Tracked.returns, running, given]
    rw [drops, ends]
    simp only [State.advance, Option.some.injEq] at advanced
    subst advanced
    apply custody.goOn given running rfl .ended <;> intro n <;>
      simp [State.goOn, starting, holders, invoking]
  | @refused d h next otherwise rest callers =>
    -- the thread is back in `Read` or `Write`
    have ends : t.returns (.thread i : Choice ρ) = [h.number] := by simp [Tracked.returns, running]
    rw [drops, ends]
    simp only [State.advance, Option.some.injEq] at advanced
    subst advanced
    apply custody.goOn given running rfl (.reported callers) <;> intro n
    · simp [State.goOn, holders_cons, starting, called, List.filterMap_cons, List.count_cons]
      omega
    · simp [State.goOn]

theorem Custody.advance (custody : Custody t) (given : t.delivered[i]? = some d)
    (running : t.state.threads[i]? = some old) (advanced : t.state.advance C (freshHandlers φ) i old = some s') :
    Custody ⟨s', t.delivered ++ [], t.destroyed ++ t.destroys (.thread i : Choice ρ),
      t.returned ++ t.returns (.thread i : Choice ρ)⟩ := by
  cases custody.shape i d old given running with
  | ended => simp [State.advance] at advanced
  | callers callers => exact custody.back given callers running advanced
  | run callers =>
    have drops : t.destroys (.thread i : Choice ρ) = [] := by simp [Tracked.destroys, running]
    have ends : t.returns (.thread i : Choice ρ) = [] := by simp [Tracked.returns, running]
    rw [drops, ends]
    exact custody.point given running callers advanced
  | io callers => simp [State.advance] at advanced
  | @done _ h outcome next otherwise rest callers =>
    have ends : t.returns (.thread i : Choice ρ) = [] := by simp [Tracked.returns, running]
    cases outcome with
    | now bytes =>
      have drops : t.destroys (.thread i : Choice ρ) = [h.number] := by simp [Tracked.destroys, running]
      rw [drops, ends]
      exact custody.discard given running callers (Option.some.inj advanced).symm
    | later =>
      simp only [State.advance, Option.some.injEq] at advanced
      subst advanced
      obtain ⟨shape, same⟩ := callers.onward otherwise
      refine custody.quiet given running (by simp [Tracked.destroys, running]) ends shape (same.trans ?_)
      simp [holders_cons, starting, called, List.filterMap_cons]
    | failed code =>
      simp only [State.advance, Option.some.injEq] at advanced
      subst advanced
      exact custody.quiet given running (by simp [Tracked.destroys, running]) ends (.refused callers)
        (by simp [holders_cons, starting, called, List.filterMap_cons])
  | @reported _ h next otherwise rest callers =>
    simp only [State.advance, Option.some.injEq] at advanced
    subst advanced
    obtain ⟨shape, same⟩ := callers.onward otherwise
    refine custody.quiet given running (by simp [Tracked.destroys, running]) (by simp [Tracked.returns, running])
      shape (same.trans ?_)
    simp [holders_cons, starting, called, List.filterMap_cons]
  | refused callers =>
    simp only [State.advance, freshHandlers, Bool.false_eq_true, if_false, Option.some.injEq] at advanced
    subst advanced
    exact custody.quiet given running (by simp [Tracked.destroys, running]) (by simp [Tracked.returns, running])
      (.run (.refused callers)) (by simp [holders_cons, starting, called, List.filterMap_cons])
  | packet =>
    simp only [State.advance, freshHandlers, Bool.false_eq_true, if_false, Option.some.injEq] at advanced
    subst advanced
    exact custody.quiet given running (by simp [Tracked.destroys, running]) (by simp [Tracked.returns, running])
      (.run .delivered) (by simp [holders_cons, starting, called, List.filterMap_cons])

/-- The system takes a handler over, or hands it back to the call. -/
theorem Custody.respond {result : ρ} (custody : Custody t)
    (stepped : tracked C t (.respond i result) = some t') : Custody t' := by
  obtain ⟨s', answered, rfl⟩ := Option.map_eq_some_iff.mp stepped
  simp only [step] at answered
  split at answered
  · next call h rest running =>
    obtain ⟨outcome, -, rfl⟩ := Option.map_eq_some_iff.mp answered
    obtain ⟨d, given⟩ : ∃ d, t.delivered[i]? = some d := by
      refine ⟨_, List.getElem?_eq_getElem (custody.aligned ▸ ?_)⟩
      exact (List.getElem?_eq_some_iff.mp running).1
    cases custody.shape i d _ given running with
    | callers callers => cases callers
    | @io _ _ _ next otherwise rest callers =>
      change Custody ⟨_, t.delivered ++ [], t.destroyed ++ [], t.returned ++ []⟩
      unfold State.answer State.access
      split
      · apply custody.goOn given running rfl (.done callers) <;> intro n
        · cases outcome <;>
            simp [State.goOn, holders_cons, starting, called, List.filterMap_cons, List.count_cons]
          omega
        · simp [State.goOn]
      · exact custody.goOn given running (set_same running).symm (.io callers) (fun n => rfl) (fun n => rfl)
  · cases answered

/-- A packet takes its handler to a new thread. -/
theorem Custody.packet {code bytes : Nat} (custody : Custody t)
    (stepped : tracked C t (.packet i code bytes : Choice ρ) = some t') : Custody t' := by
  obtain ⟨s', taken, rfl⟩ := Option.map_eq_some_iff.mp stepped
  simp only [step, Option.bind_eq_bind, Option.bind_eq_some_iff] at taken
  obtain ⟨a, found, allowed⟩ := taken
  split at allowed
  · cases allowed
    have given : t.delivers (.packet i code bytes : Choice ρ) = [some a.handler] := by
      simp [Tracked.delivers, found]
    rw [given]
    change Custody ⟨_, _, t.destroyed ++ [], t.returned ++ []⟩
    rw [List.append_nil, List.append_nil]
    refine ⟨by simp [custody.aligned], fun j d stack given running => ?_, fun n => ?_, ?_⟩
    · rcases Nat.lt_or_ge j t.delivered.length with old | new
      · rw [List.getElem?_append_left old] at given
        rw [List.getElem?_append_left (custody.aligned ▸ old)] at running
        exact custody.shape j d stack given running
      · obtain rfl : j = t.delivered.length := by
          have := (List.getElem?_eq_some_iff.mp given).1
          simp at this
          omega
        obtain rfl : some a.handler = d := by simpa using given
        obtain rfl : [.invoke a.handler code bytes] = stack := by simpa [custody.aligned] using running
        exact .packet
    · have before := custody.owned n
      obtain ⟨inside, rfl⟩ := List.getElem?_eq_some_iff.mp found
      have moved := ((List.getElem_cons_eraseIdx_perm inside).map fun a => a.handler.number).count_eq n
      simp only [Tracked.owned, List.zipWith_append custody.aligned, List.flatten_append, List.count_append,
        List.map_cons, List.count_cons, beq_iff_eq] at before moved ⊢
      simp [holders, starting, invoking, List.count_cons]
      omega
    · exact custody.made
  · cases allowed

theorem Custody.step {choice : Choice ρ} (custody : Custody t) (stepped : tracked C t choice = some t') :
    Custody t' := by
  cases choice with
  | thread i =>
    obtain ⟨s', advanced, rfl⟩ := Option.map_eq_some_iff.mp stepped
    obtain ⟨stack, running, advanced⟩ : ∃ stack, t.state.threads[i]? = some stack ∧
        t.state.advance C (freshHandlers φ) i stack = some s' := by
      simpa [General.Callback.step, Option.bind_eq_some_iff] using advanced
    obtain ⟨d, given⟩ : ∃ d, t.delivered[i]? = some d :=
      ⟨_, List.getElem?_eq_getElem (custody.aligned ▸ (List.getElem?_eq_some_iff.mp running).1)⟩
    exact custody.advance given running advanced
  | respond i result => exact custody.respond stepped
  | packet i code bytes => exact custody.packet stepped

/-- In this step no `Invoke` returns, or the handler of one is on record. -/
theorem Custody.returns_nil (custody : Custody t) (choice : Choice ρ) :
    t.returns choice = [] ↔ NoReturn t choice := by
  cases choice with
  | respond i result => simp [Tracked.returns, NoReturn]
  | packet i code bytes => simp [Tracked.returns, NoReturn]
  | thread i =>
    cases running : t.state.threads[i]? with
    | none => simp [Tracked.returns, NoReturn, running]
    | some stack =>
      obtain ⟨d, given⟩ : ∃ d, t.delivered[i]? = some d :=
        ⟨_, List.getElem?_eq_getElem (custody.aligned ▸ (List.getElem?_eq_some_iff.mp running).1)⟩
      cases custody.shape i d stack given running with
      | callers callers => cases callers <;> simp [Tracked.returns, NoReturn, running, given]
      | _ => simp [Tracked.returns, NoReturn, running]

/-- Handlers whose `Invoke` has returned stay on record. -/
theorem Custody.step_returned (custody : Custody t) {choice : Choice ρ} (stepped : tracked C t choice = some t') :
    t'.returned = [] ↔ t.returned = [] ∧ NoReturn t choice := by
  rw [← custody.returns_nil choice]
  obtain ⟨s', -, rfl⟩ := Option.map_eq_some_iff.mp stepped
  exact List.append_eq_nil_iff

/-- At the end of a run there is none exactly if no `Invoke` has returned. -/
theorem Custody.run {choices : List (Choice ρ)} (custody : Custody t)
    (path : General.Transition.run (tracked C) t choices = some t') :
    Custody t' ∧ (t'.returned = [] ↔ t.returned = [] ∧ Meets (tracked C) NoReturn t choices) := by
  have kept : ∀ t choice t', Custody t → tracked C t choice = some t' → Custody t' :=
    fun _ _ _ custody stepped => custody.step stepped
  have each : ∀ t (choice : Choice ρ) t', Custody t → True → tracked C t choice = some t' →
      Custody t' ∧ (t'.returned = [] ↔ t.returned = [] ∧ NoReturn t choice) :=
    fun _ _ _ custody _ stepped => ⟨custody.step stepped, custody.step_returned stepped⟩
  have after := run_invariant kept path custody
  have record := run_iff_meets each path (fun _ _ => trivial) custody
  exact ⟨after, record⟩

/-- All handlers are disposed of as they should exactly as long as no `Invoke` has returned. -/
theorem Custody.disposed_iff (custody : Custody t) : t.Disposed ↔ t.returned = [] := by
  constructor
  · intro disposed
    by_contra leaked
    -- a handler whose `Invoke` has returned is alive, but not among the owned ones
    obtain ⟨n, member⟩ := List.exists_mem_of_ne_nil _ leaked
    have back := List.one_le_count_iff.mpr member
    have balance := custody.owned n
    have alive : n ∈ t.state.store.alive := List.count_pos_iff.mp (by omega)
    have owner := List.one_le_count_iff.mpr (disposed.owner n alive)
    have made := custody.made n
    have once : (List.range t.state.store.made).count n ≤ 1 := List.nodup_iff_count_le_one.mp List.nodup_range n
    omega
  · intro nobody
    refine ⟨fun n made => ?_, fun n alive => ?_⟩
    · rw [custody.made n]
      exact List.count_eq_one_of_mem List.nodup_range (List.mem_range.mpr made)
    · have balance := custody.owned n
      rw [nobody, List.count_nil, Nat.add_zero] at balance
      exact List.count_pos_iff.mp (balance ▸ List.count_pos_iff.mpr alive)

end

theorem launch_custody (object : ω) (point : κ) : Custody (Tracked.launch object point : Tracked ω κ φ ε) where
  aligned := rfl
  shape i d stack given running := by
    cases i with
    | zero =>
      obtain rfl : none = d := by simpa [Tracked.launch] using given
      obtain rfl : [.run point] = stack := by simpa [Tracked.launch, State.launch] using running
      exact .run .first
    | succ i => simp [Tracked.launch] at given
  owned n := by simp [Tracked.launch, State.launch, Tracked.owned, holders, starting, invoking]
  made n := by simp [Tracked.launch, State.launch]

/-- Whatever the code of the class. -/
theorem disposed_iff_no_return {C : Code ω κ φ ρ ε} {object : ω} {point : κ} {choices : List (Choice ρ)}
    {t : Tracked ω κ φ ε} (path : run (tracked C) (Tracked.launch object point) choices = some t) :
    t.Disposed ↔ Meets (tracked C) NoReturn (Tracked.launch object point) choices := by
  obtain ⟨custody, record⟩ := (launch_custody object point).run path
  rw [custody.disposed_iff, record]
  exact and_iff_right rfl

/-- The runs of the three classes are their tracked runs. -/
theorem tracked_classes :
    (∀ sync total choices, run (traditionalReader sync) (Reader.traditionalStart total) choices =
      (run (tracked (Reader.code sync)) (Tracked.launch ⟨total⟩ .start) choices).map (·.state)) ∧
    (∀ sync choices, run (Writer.traditionalWriter sync) Writer.traditionalStart choices =
      (run (tracked (Writer.code sync)) (Tracked.launch ⟨⟩ .construct) choices).map (·.state)) ∧
    ∀ choices, run AcceptLoop.traditionalServer AcceptLoop.traditionalStart choices =
      (run (tracked AcceptLoop.code) (Tracked.launch ⟨⟩ .start) choices).map (·.state) :=
  ⟨fun sync total choices => (tracked_run (Reader.code sync) (Tracked.launch ⟨total⟩ .start) choices).symm,
    fun sync choices => (tracked_run (Writer.code sync) (Tracked.launch ⟨⟩ .construct) choices).symm,
    fun choices => (tracked_run AcceptLoop.code (Tracked.launch ⟨⟩ .start) choices).symm⟩

/-- Handlers are disposed of as they should exactly if no call of an `Invoke` returns: in every
run of the reader, of the writer and of the accept loop. -/
theorem handlers_disposed_iff (sync : Bool) (total : Int) :
    (∀ choices t, run (tracked (Reader.code sync)) (Tracked.launch ⟨total⟩ .start) choices = some t →
      (t.Disposed ↔ Meets (tracked (Reader.code sync)) NoReturn (Tracked.launch ⟨total⟩ .start) choices)) ∧
    (∀ choices t, run (tracked (Writer.code sync)) (Tracked.launch ⟨⟩ .construct) choices = some t →
      (t.Disposed ↔ Meets (tracked (Writer.code sync)) NoReturn (Tracked.launch ⟨⟩ .construct) choices)) ∧
    ∀ choices t, run (tracked AcceptLoop.code) (Tracked.launch ⟨⟩ .start) choices = some t →
      (t.Disposed ↔ Meets (tracked AcceptLoop.code) NoReturn (Tracked.launch ⟨⟩ .start) choices) :=
  ⟨fun _ _ path => disposed_iff_no_return path, fun _ _ path => disposed_iff_no_return path,
    fun _ _ path => disposed_iff_no_return path⟩

/-- The connect is pending, its packet arrives, `OnConnect` has started a read that is
pending, and `io_complete_callback` returns. -/
def connected : List (Choice WsaResult) :=
  [.thread 0, .respond 0 .pending, .packet 0 0 0, .thread 1, .thread 1, .thread 1, .respond 1 .pending,
    .thread 1, .thread 1]

theorem handlers_disposed_iff_connected : ∃ t,
    run (tracked (Reader.code true)) (Tracked.launch ⟨8192⟩ .start) (connected.take 3) = some t ∧ t.Disposed :=
  ⟨_, rfl, ((handlers_disposed_iff true 8192).1 (connected.take 3) _ rfl).mpr
    ((meets_cons rfl).mpr ⟨nofun, (meets_cons rfl).mpr ⟨trivial, (meets_cons rfl).mpr ⟨trivial, trivial⟩⟩⟩)⟩

/-- The handler of the connect is alive, and nobody has it any more. -/
theorem handlers_disposed_counterexample : ∃ t,
    run (tracked (Reader.code true)) (Tracked.launch ⟨8192⟩ .start) connected = some t ∧ ¬t.Disposed := by
  refine ⟨_, rfl, fun disposed => ?_⟩
  have owner := disposed.owner 0 (by decide)
  revert owner
  decide

end Await.SuperLean.Ownership
