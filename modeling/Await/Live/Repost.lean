import Await.General.Coroutine
import Await.General.Future

/-! `repost` of `over1.cpp`, which waits for a future of every post, and of `over2.cpp`, where
the posted function resumes the coroutine itself. -/

namespace Await.Live.Repost
open General General.Coroutine General.Process General.Transition

inductive Operation where
  | post
  deriving DecidableEq, Repr

/-- What no `int` may do. -/
inductive Fault where
  | overflow
  deriving DecidableEq, Repr

def intMin : Int := -2147483648

abbrev RepostLeg (σ : Type) := Leg σ Operation Empty Fault

/-- `while (n-- > 0) co_await post(...)`, up to the suspension or to the end. The frame is left
with what remains of `n`. -/
def whileLoop {σ : Type} (suspended : Int → σ) (n : Int) : RepostLeg σ :=
  let faults := if n = intMin then [Fault.overflow] else []
  if 0 < n then .await (suspended (n - 1)) faults .post else .returned faults

/-! ### `over1.cpp` -/

/-- The parameter `n`, and the future `output` of the awaiter. -/
structure FutureFrame where
  n : Int
  output : Option Unit := none
  deriving DecidableEq, Repr

/-- `co_await post(ex, use_boost_future);` -/
def FutureFrame.loop (frame : FutureFrame) : RepostLeg FutureFrame := whileLoop (fun n => { n }) frame.n

/-- `output.get()`, and the loop. A future that is not valid cannot be asked. -/
def FutureFrame.resume (frame : FutureFrame) : Option (RepostLeg FutureFrame) := do
  let () ← frame.output
  some frame.loop

/-- `repost`. The completion handler calls `p.set_value()`. -/
def repostOver1 (n : Int) : Body FutureFrame Operation Unit Empty Fault where
  begin := FutureFrame.loop { n }
  resume frame _ value := { frame with output := some value }.resume

/-! ### `over2.cpp` -/

/-- The parameter `n`. -/
structure Frame where
  n : Int
  deriving DecidableEq, Repr

/-- `co_await post(ex);` -/
def Frame.loop (frame : Frame) : RepostLeg Frame := whileLoop Frame.mk frame.n

/-- `repost`. What is posted is `[h]() mutable {h.resume();}`, and `await_resume` does nothing. -/
def repostOver2 (n : Int) : Body Frame Operation Unit Empty Fault where
  begin := Frame.loop ⟨n⟩
  resume frame _ _ := some frame.loop

/-! ### Posting `n` times -/

/-- After so many posts have completed: one more is on its way, or there have been `n`. -/
structure Reposted {σ : Type} (n : Int) (given : Nat) (s : Process.State σ Operation (Effect Empty Fault)) : Prop where
  within : given ≤ n.toNat
  posts : s.operations = List.replicate (min (given + 1) n.toNat) .post
  going : given < n.toNat → s.object.isSome ∧ s.inFlight = [.post] ∧ s.effects = []
  returned : given = n.toNat → s.object = none ∧ s.inFlight = [] ∧ s.effects = [.settled (.ok ())]

section
variable {σ : Type} {body : Body σ Operation Unit Empty Fault} {suspended : Int → σ} {left : σ → Int} {n m : Int}
  {given : Nat} {s t : Process.State σ Operation (Effect Empty Fault)}

/-- The body is the loop, and is resumed with what its frame has left. -/
structure Loops (body : Body σ Operation Unit Empty Fault) (suspended : Int → σ) (left : σ → Int) (n : Int) : Prop where
  begin : body.begin = whileLoop suspended n
  resume : ∀ frame, body.resume frame .post () = some (whileLoop suspended (left frame))
  left : ∀ k, left (suspended k) = k

inductive Reposting (left : σ → Int) (n : Int) (given : Nat) (s : Process.State σ Operation (Effect Empty Fault)) :
    Prop where
  | waiting (frame : σ) (present : s.object = some frame) (single : s.inFlight = [.post])
      (more : given < n.toNat) (count : left frame = n - (given + 1))
      (posts : s.operations = List.replicate (given + 1) .post)
      (quiet : s.effects = [])
  | returned (absent : s.object = none) (idle : s.inFlight = []) (count : given = n.toNat)
      (posts : s.operations = List.replicate given .post) (settled : s.effects = [.settled (.ok ())])

theorem Reposting.reposted (reposting : Reposting left n given s) : Reposted n given s := by
  cases reposting with
  | waiting frame present single more count posts quiet =>
    refine ⟨more.le, ?_, fun _ => ⟨by simp [present], single, quiet⟩, fun last => absurd last more.ne⟩
    rw [posts, Nat.min_eq_left more]
  | returned absent idle count posts settled =>
    refine ⟨count.le, ?_, fun more => absurd count more.ne, fun _ => ⟨absent, idle, settled⟩⟩
    rw [posts, count, Nat.min_eq_right (Nat.le_succ _)]

/-- The loop is entered with `n` less the number of posts that have completed. -/
theorem Loops.enter (loops : Loops body suspended left n) (inside : intMin < m) (within : given ≤ n.toNat)
    (count : m = n - given) (idle : s.inFlight = []) (alive : s.effects = [])
    (posts : s.operations = List.replicate given .post) :
    Reposting left n given (s.after (whileLoop suspended m).reaction) := by
  have calm : m ≠ intMin := ne_of_gt inside
  by_cases more : 0 < m
  · have onward : whileLoop suspended m = .await (suspended (m - 1)) [] .post := by
      rw [whileLoop, if_neg calm, if_pos more]
    rw [onward]
    refine .waiting (suspended (m - 1)) rfl ?_ (by omega) ?_ ?_ ?_
    · rw [Leg.reaction, State.after, idle, List.nil_append]
    · rw [loops.left, count]
      omega
    · rw [Leg.reaction, State.after, posts, List.replicate_succ']
    · rw [Leg.reaction, State.after, alive, List.map_nil, List.append_nil]
  · have ends : whileLoop suspended m = .returned [] := by
      rw [whileLoop, if_neg calm, if_neg more]
    rw [ends]
    refine .returned rfl idle (by omega) posts ?_
    rw [Leg.reaction, State.after, alive, List.map_nil, List.nil_append, List.nil_append]

theorem Loops.start (loops : Loops body suspended left n) (inside : intMin < n) :
    Reposting left n 0 (Process.start body.actor) := by
  have begins : body.actor.begin = (whileLoop suspended n).reaction := by rw [Body.actor, loops.begin]
  rw [Process.start, begins]
  exact loops.enter inside (Nat.zero_le _) (by simp) rfl rfl rfl

theorem Loops.reacts (loops : Loops body suspended left n) (frame : σ) :
    body.actor.react frame .post () = some (whileLoop suspended (left frame)).reaction := by
  rw [Body.actor]
  simp only [loops.resume, Option.map_some]

theorem Loops.step (loops : Loops body suspended left n) {choice : Nat × Unit} (reposting : Reposting left n given s)
    (stepped : Process.step body.actor s choice = some t) : Reposting left n (given + 1) t := by
  cases reposting with
  | returned absent idle => simp [Process.step, idle] at stepped
  | waiting frame present single more count posts quiet =>
    obtain ⟨-, reaction, reacted, rfl⟩ := step_single present single stepped
    rw [loops.reacts frame] at reacted
    obtain rfl := Option.some.inj reacted
    refine loops.enter ?_ more (by push_cast; exact count) rfl quiet posts
    rw [count, intMin]
    omega

theorem Loops.run (loops : Loops body suspended left n) (inside : intMin < n) {choices : List (Nat × Unit)}
    (path : Transition.run (Process.step body.actor) (Process.start body.actor) choices = some t) :
    Reposting left n choices.length t := by
  have kept : ∀ past s choice t, Reposting left n past.length s → Process.step body.actor s choice = some t →
      Reposting left n (past ++ [choice]).length t := by
    intro past s choice t reposting stepped
    rw [List.length_append, List.length_singleton]
    exact loops.step reposting stepped
  have reposting := run_invariant_past (fun past s => Reposting left n past.length s) kept path (loops.start inside)
  exact reposting

/-- Until it has returned the next post may complete. -/
theorem Loops.onward (loops : Loops body suspended left n) (reposting : Reposting left n given s)
    (more : given < n.toNat) : ∃ t, Process.step body.actor s (0, ()) = some t := by
  cases reposting with
  | returned absent idle count => exact absurd count more.ne
  | waiting frame present single => exact ⟨_, step_of_react present single (loops.reacts frame)⟩

end

theorem loops_over1 (n : Int) : Loops (repostOver1 n) (fun n => { n }) FutureFrame.n n where
  begin := rfl
  resume _ := rfl
  left _ := rfl

theorem loops_over2 (n : Int) : Loops (repostOver2 n) Frame.mk Frame.n n where
  begin := rfl
  resume _ := rfl
  left _ := rfl

/-- No post completes that has not been made, a completion that is kept included. -/
theorem Loops.completed_le {σ : Type} {body : Body σ Operation Unit Empty Fault} {suspended : Int → σ} {left : σ → Int}
    {n : Int} {given : Nat} {results : List Unit} {s : Future.State σ Operation Unit (Effect Empty Fault)}
    (loops : Loops body suspended left n) (handed : Future.Handed body.actor results s)
    (reposting : Reposting left n given s.process) : given + s.cell.kept.length ≤ n.toNat := by
  cases cell : s.cell with
  | ready result =>
    obtain ⟨next, stepped⟩ := handed.able result cell
    exact (loops.step reposting stepped).reposted.within
  | empty => exact reposting.reposted.within
  | attached => exact reposting.reposted.within

/-- For every `n` with which `n--` is defined both coroutines post `n` times, if it is positive,
and return with no exception: `over1.cpp` whichever thread completes a post and however far
its own thread has come by then, in at most three steps for a post and two at the end, and
`over2.cpp` in one for each. Neither ever waits for a post in vain. -/
theorem reposts (n : Int) (inside : intMin < n) :
    (∀ choices s, run (Future.step (repostOver1 n).actor) (Future.start (repostOver1 n).actor) choices = some s →
      (∃ given, given + s.cell.kept.length = (Future.completed choices).length ∧ Reposted n given s.process ∧
        (given < n.toNat → ∃ choice t, Future.step (repostOver1 n).actor s choice = some t)) ∧
      choices.length ≤ 3 * n.toNat + 2) ∧
    ∀ choices s, run (Process.step (repostOver2 n).actor) (Process.start (repostOver2 n).actor) choices = some s →
      Reposted n choices.length s ∧
      (choices.length < n.toNat → ∃ t, Process.step (repostOver2 n).actor s (0, ()) = some t) := by
  refine ⟨fun choices s path => ?_, fun choices s path => ?_⟩
  · have handed := Future.run_handed path
    obtain ⟨used, split, direct⟩ := handed.given
    have reposting := (loops_over1 n).run inside direct
    rw [List.length_map] at reposting
    have length := congrArg List.length split
    rw [List.length_append] at length
    refine ⟨⟨used.length, length.symm, reposting.reposted, fun more => ?_⟩, ?_⟩
    · have waiting : s.process.inFlight ≠ [] := by simp [(reposting.reposted.going more).2.1]
      rcases handed.onward waiting with ⟨t, stepped⟩ | wakes
      · exact ⟨_, t, stepped⟩
      · obtain ⟨next, stepped⟩ := (loops_over1 n).onward reposting more
        obtain ⟨t, stepped, -⟩ := wakes () next stepped
        exact ⟨_, t, stepped⟩
    · have looks := Future.proceeds_le path
      have steps := Future.length_choices choices
      have most := (loops_over1 n).completed_le handed reposting
      omega
  · have reposting := (loops_over2 n).run inside path
    exact ⟨reposting.reposted, fun more => (loops_over2 n).onward reposting more⟩

/-- The first of two posts completes on its way to the attached continuation. -/
theorem reposts_two :
    let choices : List (Future.Choice Unit) := [.proceed, .complete (), .proceed, .complete (), .proceed]
    ∃ s, run (Future.step (repostOver1 2).actor) (Future.start (repostOver1 2).actor) choices = some s ∧
      s.process.object = none ∧ s.process.operations = [.post, .post] ∧ choices.length ≤ 3 * (2 : Int).toNat + 2 :=
  ⟨_, rfl, rfl, rfl, ((reposts 2 (by decide)).1 _ _ rfl).2⟩

end Await.Live.Repost
