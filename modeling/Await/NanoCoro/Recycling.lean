import Await.NanoCoro.CoroResults
import Await.NanoCoro.FreeList

/-! Calls of `CoroMultiLookup` one after another. Scheduler and allocator are globals, so
that each call starts from what the last one has left, and takes its frames from the free
list that the earlier ones have filled. -/

namespace Await.NanoCoro.Recycling
open Allocator (Header Heap Tcalloc)
open CoroInvariant CoroMultiLookup CoroResults CoroSearch FreeList Scheduler
open General.LinkedList General.TaskPool General.Transition StateTransition

/-- What is done with a block. -/
inductive Use where
  | alloc (p : Nat)
  | write (p : Nat) (bytes : Header)
  | free (p : Nat)
  deriving DecidableEq, Repr

/-- The uses of memory in order, each with the search it is made for. -/
abbrev Ledger := List (Nat × Use)

/-- A use changes the allocator and the memory; a block is allocated if it is the one that
`alloc` returns. -/
def use (sz : Nat) (m : Tcalloc × Heap) : Nat × Use → Option (Tcalloc × Heap)
  | (_, .alloc p) =>
      let (mem, t, heap) := m.1.alloc sz m.2
      if mem = p then some (t, heap) else none
  | (_, .write p bytes) => some (m.1, m.2.write p bytes)
  | (_, .free p) => some (m.1.free p sz m.2)

/-- The calls of `operator new` and `operator delete` for a search. -/
def requests (search : Nat) (ledger : Ledger) : List Use :=
  ledger.filterMap fun
    | (_, .write ..) => none
    | (k, use) => if k = search then some use else none

section
variable (P : Program)

/-- The uses that the next step makes: `operator new` for the frame of a new search, the
writes to a frame whose search goes on, `operator delete` for one whose search ends. -/
def Machine.uses (s : Machine) : Ledger :=
  match s.control with
  | .forKeys (key :: _) =>
      let address := (s.t.alloc P.frameSize s.heap).1
      [(s.created, .alloc address),
        (s.created, .write address (P.image { first := 0, last := P.v.size, val := key, address }))]
  | .spawning task _ =>
      match s.frames task with
      | some frame => [(task, .write frame.address (P.image { frame with hasOwner := true }))]
      | none => []
  | .resuming (some h) _ =>
      match s.frames h with
      | some frame =>
        match frame.resume P.v with
        | some (_, .suspended next) => [(h, .write next.address (P.image next))]
        | some (_, .onFound _) | some (_, .onNotFound) => [(h, .free frame.address)]
        | none => []
      | none => []
  | _ => []

/-- A step with its uses written down. -/
def audit (a : Machine × Ledger) : Option (Machine × Ledger) :=
  (step P a.1).map fun t => (t, a.2 ++ Machine.uses P a.1)

end

/-- The arguments of a call. -/
structure Job where
  v : Array Int
  lookups : List Int
  streams : Nat

/-- The globals `scheduler` and `allocator`, and the memory. -/
structure Globals where
  scheduler : SchedulerQueue
  t : Tcalloc
  heap : Heap

def globals (s : Machine) : Globals := ⟨s.scheduler, s.t, s.heap⟩

section
variable (frameSize : Nat) (image : SearchFrame → Header)

def Job.program (job : Job) : Program := ⟨job.v, job.lookups, frameSize, image⟩

/-- A call for each job, with the last state and the uses of each. -/
def session : List Job → Globals → Part (List (Machine × Ledger) × Globals)
  | [], g => .some ([], g)
  | job :: jobs, g => do
      let P := job.program frameSize image
      let last ← eval (audit P) (start P g.scheduler g.t g.heap job.streams, [])
      let (later, g) ← session jobs (globals last.1)
      return (last :: later, g)

end

/-- The frames of the searches that are not finished. -/
def leased (s : Machine) : List Nat :=
  (List.range s.created).filterMap fun k => (s.frames k).map SearchFrame.address

def finished (s : Machine) : Nat := s.foundCount + s.notFoundCount

/-- What a step does to the memory and the frames. -/
inductive Stepped (P : Program) (s t : Machine) : Prop where
  | idle (uses : Machine.uses P s = []) (pool : t.t = s.t ∧ t.heap = s.heap) (frames : t.frames = s.frames)
      (created : t.created = s.created) (finished : finished t = finished s)
  | create (key : Int) (keys : List Int) (frame : SearchFrame) (control : s.control = .forKeys (key :: keys))
      (address : frame.address = (s.t.alloc P.frameSize s.heap).1)
      (uses : Machine.uses P s =
        [(s.created, .alloc frame.address), (s.created, .write frame.address (P.image frame))])
      (pool : t.t = (s.t.alloc P.frameSize s.heap).2.1 ∧
        t.heap = (s.t.alloc P.frameSize s.heap).2.2.write frame.address (P.image frame))
      (frames : t.frames = Function.update s.frames s.created (some frame))
      (created : t.created = s.created + 1) (finished : finished t = finished s)
  | write (h : Nat) (old new : SearchFrame) (present : s.frames h = some old) (address : new.address = old.address)
      (uses : Machine.uses P s = [(h, .write new.address (P.image new))])
      (pool : t.t = s.t ∧ t.heap = s.heap.write new.address (P.image new))
      (frames : t.frames = Function.update s.frames h (some new))
      (created : t.created = s.created) (finished : Recycling.finished t = Recycling.finished s)
  | free (h : Nat) (old : SearchFrame) (present : s.frames h = some old)
      (uses : Machine.uses P s = [(h, .free old.address)])
      (pool : (t.t, t.heap) = s.t.free old.address P.frameSize s.heap)
      (frames : t.frames = Function.update s.frames h none)
      (created : t.created = s.created) (finished : Recycling.finished t = Recycling.finished s + 1)

section
variable {P : Program} {streams before : Nat} {s t : Machine}

theorem finish_stepped {h : Nat} {caller : Caller} {old : SearchFrame} {reads : List Nat} {found : Bool}
    (present : s.frames h = some old) (uses : Machine.uses P s = [(h, .free old.address)])
    (finishes : ({ s with resumed := s.resumed ++ [h], log := s.log ++ reads.map (Event.step h) }).finish P h old
      found caller = some t) : Stepped P s t := by
  by_cases owned : old.hasOwner
  · simp only [Machine.finish, if_pos owned, Option.some.injEq] at finishes
    subst finishes
    refine .free h old present uses rfl rfl rfl ?_
    cases found <;> simp only [finished, if_true, if_false, Bool.false_eq_true] <;> omega
  · simp [Machine.finish, owned] at finishes

theorem resume_stepped {h : Nat} {caller : Caller} {old : SearchFrame} (control : s.control = .resuming (some h) caller)
    (present : s.frames h = some old) (poised : Poised P.v old) (stepped : step P s = some t) : Stepped P s t := by
  obtain ⟨reads, activation, resume_eq, leaves⟩ := poised.resume
  have resumes : s.resume P h caller = some t := by simpa [step, control] using stepped
  cases activation with
  | suspended next =>
    simp only [Machine.resume, present, resume_eq, Option.bind_eq_bind, Option.bind_some, Option.some.injEq] at resumes
    subst resumes
    exact .write h old next present leaves.2.2.1 (by simp [Machine.uses, control, present, resume_eq]) ⟨rfl, rfl⟩ rfl
      rfl rfl
  | onFound position =>
    exact finish_stepped present (by simp [Machine.uses, control, present, resume_eq])
      (by simpa [Machine.resume, present, resume_eq] using resumes)
  | onNotFound =>
    exact finish_stepped present (by simp [Machine.uses, control, present, resume_eq])
      (by simpa [Machine.resume, present, resume_eq] using resumes)

theorem create_stepped {key : Int} {keys : List Int} (control : s.control = .forKeys (key :: keys))
    (stepped : step P s = some t) : Stepped P s t := by
  simp only [step, control, Option.some.injEq] at stepped
  subst stepped
  have uses : Machine.uses P s = [(s.created, .alloc (s.t.alloc P.frameSize s.heap).1),
      (s.created, .write (s.t.alloc P.frameSize s.heap).1
        (P.image ⟨0, P.v.size, key, 0, 0, 0, .initialSuspend, false, (s.t.alloc P.frameSize s.heap).1⟩))] := by
    simp [Machine.uses, control]
  unfold Machine.throttle
  split
  · exact .create key keys _ control rfl uses ⟨rfl, rfl⟩ rfl rfl rfl
  · exact .create key keys _ control rfl uses ⟨rfl, rfl⟩ rfl rfl rfl

theorem step_stepped (inv : Inv P streams s) (going : step P s = some t) : Stepped P s t := by
  cases control : s.control with
  | forKeys keys =>
    cases keys with
    | nil =>
      obtain rfl : _ = t := by simpa [step, control] using going
      exact .idle (by simp [Machine.uses, control]) ⟨rfl, rfl⟩ rfl rfl rfl
    | cons key keys => exact create_stepped control going
  | spawning task keys =>
    simp only [step, control, Machine.enqueue, Option.bind_eq_bind, Option.bind_eq_some_iff, Option.some.injEq] at going
    obtain ⟨_, ⟨frame, present, rfl⟩, rfl⟩ := going
    exact .write task frame { frame with hasOwner := true } present rfl (by simp [Machine.uses, control, present])
      ⟨rfl, rfl⟩ rfl rfl rfl
  | resuming h caller =>
    obtain ⟨k, queue, lost, rfl, core, -⟩ := resuming_live inv control
    obtain ⟨old, present, -⟩ := (core.live.owned k).mpr (List.mem_cons_self ..)
    exact resume_stepped control present (core.live.poised k old present) going
  | running call =>
    simp only [step, control] at going
    split at going <;> cases going <;> exact .idle (by simp [Machine.uses, control]) ⟨rfl, rfl⟩ rfl rfl rfl
  | checking =>
    obtain rfl : _ = t := by simpa [step, control] using going
    exact .idle (by simp [Machine.uses, control]) ⟨rfl, rfl⟩ rfl rfl rfl
  | returned => simp [step, control] at going

end

/-! ### Frames and blocks -/

theorem filterMap_update_perm {α β : Type} [DecidableEq α] {l : List α} {f : α → Option β} {k : α} {b : β}
    (nodup : l.Nodup) (member : k ∈ l) (value : f k = some b) :
    (l.filterMap f).Perm (b :: l.filterMap (Function.update f k none)) := by
  obtain ⟨front, back, rfl⟩ := List.append_of_mem member
  obtain ⟨-, notBack, apart⟩ := List.nodup_append.mp nodup
  have kept : ∀ part : List α, k ∉ part → part.filterMap (Function.update f k none) = part.filterMap f := by
    intro part absent
    apply List.filterMap_congr
    intro j inside
    apply Function.update_of_ne
    rintro rfl
    exact absent inside
  have notFront : k ∉ front := fun inside => apart k inside k (List.mem_cons_self ..) rfl
  simp only [List.filterMap_append, List.filterMap_cons, value, Function.update_self, kept front notFront,
    kept back (List.nodup_cons.mp notBack).1]
  exact List.perm_middle

section
variable {P : Program} {streams before h : Nat} {s t : Machine} {old new frame : SearchFrame} {ledger : Ledger}
  {origin : Tcalloc × Heap}

theorem leased_create (frames : t.frames = Function.update s.frames s.created (some frame))
    (created : t.created = s.created + 1) : leased t = leased s ++ [frame.address] := by
  have older : ∀ k ∈ List.range s.created, (t.frames k).map SearchFrame.address =
      (s.frames k).map SearchFrame.address := by
    intro k inside
    rw [frames, Function.update_of_ne (Nat.ne_of_lt (List.mem_range.mp inside))]
  rw [leased, leased, created, List.range_succ, List.filterMap_append, List.filterMap_congr older]
  simp [frames]

theorem leased_write (present : s.frames h = some old) (address : new.address = old.address)
    (frames : t.frames = Function.update s.frames h (some new)) (created : t.created = s.created) :
    leased t = leased s := by
  rw [leased, leased, created]
  apply List.filterMap_congr
  intro k _
  by_cases own : k = h
  · simp [frames, own, present, address]
  · rw [frames, Function.update_of_ne own]

theorem leased_free (present : s.frames h = some old) (inside : h < s.created)
    (frames : t.frames = Function.update s.frames h none) (created : t.created = s.created) :
    (leased s).Perm (old.address :: leased t) := by
  have gone : (fun k => (t.frames k).map SearchFrame.address) =
      Function.update (fun k => (s.frames k).map SearchFrame.address) h none := by
    funext k
    by_cases own : k = h
    · simp [frames, own]
    · simp [frames, own]
  rw [leased, leased, created, gone]
  exact filterMap_update_perm List.nodup_range (List.mem_range.mpr inside) (by simp [present])

theorem requests_append (k : Nat) (ledger more : Ledger) :
    requests k (ledger ++ more) = requests k ledger ++ requests k more := List.filterMap_append ..

/-- What is done for one search is no business of the others. -/
theorem requests_other {k search : Nat} {ledger uses : Ledger} (theirs : ∀ use ∈ uses, use.1 = search)
    (other : k ≠ search) : requests k (ledger ++ uses) = requests k ledger := by
  have none_own : requests k uses = [] := by
    apply List.filterMap_eq_nil_iff.mpr
    intro use member
    have theirs := theirs use member
    split
    · rfl
    · next j _ _ =>
      have apart : j ≠ k := fun same => other (same ▸ theirs)
      rw [if_neg apart]
  rw [requests_append, none_own, List.append_nil]

/-- What holds of the memory, the frames and the ledger of a call that found `before`
blocks in existence. -/
structure Recycled (P : Program) (streams before : Nat) (origin : Tcalloc × Heap) (a : Machine × Ledger) : Prop where
  replay : run (use P.frameSize) origin a.2 = some (a.1.t, a.1.heap)
  pool : ∃ nodes, Pool P.frameSize a.1.t a.1.heap nodes (leased a.1)
  account : (leased a.1).length + finished a.1 = a.1.created
  peak : a.1.heap.blocks = max before (min a.1.created (streams + 1))
  fresh : ∀ k, a.1.created ≤ k → requests k a.2 = []
  live : ∀ k frame, a.1.frames k = some frame → requests k a.2 = [.alloc frame.address]
  ended : ∀ k < a.1.created, a.1.frames k = none → ∃ p, requests k a.2 = [.alloc p, .free p]

/-- A frame is allocated before `spawn` looks at the limit, so one more than `streams` of
them can be out; and none has come back while streams are left. -/
theorem create_peak {key : Int} {keys : List Int} (inv : Inv P streams s)
    (control : s.control = .forKeys (key :: keys)) (account : (leased s).length + finished s = s.created)
    (peak : s.heap.blocks = max before (min s.created (streams + 1))) :
    max s.heap.blocks ((leased s).length + 1) = max before (min (s.created + 1) (streams + 1)) := by
  obtain ⟨⟨queue, lost, core, placed⟩, -⟩ := inv
  simp only [control, Control.task, Control.active] at core
  simp only [Placed, control] at placed
  have throttled := core.throttled
  have total := core.total
  simp only [List.nil_append] at throttled total
  simp only [finished] at account
  by_cases spent : s.limit = 0
  · omega
  · have none_ended := placed.2 (Nat.pos_of_ne_zero spent)
    omega

theorem Recycled.create {key : Int} {keys : List Int} (inv : Inv P streams s)
    (recycled : Recycled P streams before origin (s, ledger)) (control : s.control = .forKeys (key :: keys))
    (address : frame.address = (s.t.alloc P.frameSize s.heap).1)
    (pool : t.t = (s.t.alloc P.frameSize s.heap).2.1 ∧
      t.heap = (s.t.alloc P.frameSize s.heap).2.2.write frame.address (P.image frame))
    (frames : t.frames = Function.update s.frames s.created (some frame)) (created : t.created = s.created + 1)
    (same : finished t = finished s) :
    Recycled P streams before origin
      (t, ledger ++ [(s.created, .alloc frame.address), (s.created, .write frame.address (P.image frame))]) := by
  obtain ⟨nodes, listed⟩ := recycled.pool
  have leased_eq := leased_create frames created
  have account := recycled.account
  obtain ⟨grown, blocks⟩ := listed.alloc
  rw [← address] at grown
  have theirs : ∀ use ∈ [(s.created, Use.alloc frame.address), (s.created, .write frame.address (P.image frame))],
      use.1 = s.created := by simp
  refine ⟨run_append.mpr ⟨_, recycled.replay, ?_⟩, ⟨nodes.erase frame.address, ?_⟩, ?_, ?_, ?_, ?_, ?_⟩
  · simp [run, use, address, pool]
  · simp only [pool, leased_eq]
    exact grown.write (by simp) _
  · simp only [leased_eq, same, created, List.length_append, List.length_singleton] at account ⊢
    omega
  · simp only [pool, created, ← create_peak inv control account recycled.peak, ← blocks]
    rfl
  · intro k above
    simp only [created] at above
    rw [requests_other theirs (by omega)]
    exact recycled.fresh k (by simp only; omega)
  · intro k live present
    by_cases own : k = s.created
    · obtain rfl : frame = live := by simpa [frames, own] using present
      rw [requests_append, own, recycled.fresh _ le_rfl]
      simp [requests]
    · rw [requests_other theirs own]
      exact recycled.live k live (by simpa [frames, own] using present)
  · intro k below gone
    have own : k ≠ s.created := by
      rintro rfl
      simp [frames] at gone
    rw [requests_other theirs own]
    simp only [created] at below
    exact recycled.ended k (by simp only; omega) (by simpa [frames, own] using gone)

theorem Recycled.write (recycled : Recycled P streams before origin (s, ledger)) (inside : h < s.created)
    (present : s.frames h = some old) (address : new.address = old.address)
    (pool : t.t = s.t ∧ t.heap = s.heap.write new.address (P.image new))
    (frames : t.frames = Function.update s.frames h (some new)) (created : t.created = s.created)
    (same : finished t = finished s) :
    Recycled P streams before origin (t, ledger ++ [(h, .write new.address (P.image new))]) := by
  obtain ⟨nodes, listed⟩ := recycled.pool
  have leased_eq := leased_write present address frames created
  have held : new.address ∈ leased s :=
    List.mem_filterMap.mpr ⟨h, List.mem_range.mpr inside, by simp [present, address]⟩
  have unasked : ∀ k, requests k (ledger ++ [(h, .write new.address (P.image new))]) = requests k ledger := by
    intro k
    simp [requests]
  refine ⟨run_append.mpr ⟨_, recycled.replay, ?_⟩, ⟨nodes, ?_⟩, ?_, ?_, ?_, ?_, ?_⟩
  · simp [run, use, pool]
  · simp only [pool, leased_eq]
    exact listed.write held _
  · simp only [leased_eq, same, created]
    exact recycled.account
  · simp only [pool, created]
    exact recycled.peak
  · intro k above
    rw [unasked]
    exact recycled.fresh k (created ▸ above)
  · intro k live found
    rw [unasked]
    by_cases own : k = h
    · obtain rfl : new = live := by simpa [frames, own] using found
      rw [address, own]
      exact recycled.live h old present
    · exact recycled.live k live (by simpa [frames, own] using found)
  · intro k below gone
    have own : k ≠ h := by
      rintro rfl
      simp [frames] at gone
    rw [unasked]
    exact recycled.ended k (created ▸ below) (by simpa [frames, own] using gone)

theorem Recycled.free (recycled : Recycled P streams before origin (s, ledger)) (inside : h < s.created)
    (present : s.frames h = some old) (pool : (t.t, t.heap) = s.t.free old.address P.frameSize s.heap)
    (frames : t.frames = Function.update s.frames h none) (created : t.created = s.created)
    (more : finished t = finished s + 1) :
    Recycled P streams before origin (t, ledger ++ [(h, .free old.address)]) := by
  obtain ⟨nodes, listed⟩ := recycled.pool
  have perm := leased_free present inside frames created
  obtain ⟨t_eq, heap_eq⟩ := Prod.mk.inj pool
  have theirs : ∀ use ∈ [(h, Use.free old.address)], use.1 = h := by simp
  refine ⟨run_append.mpr ⟨_, recycled.replay, ?_⟩, ⟨old.address :: nodes, ?_⟩, ?_, ?_, ?_, ?_, ?_⟩
  · simp [run, use, ← pool]
  · simp only [t_eq, heap_eq]
    exact (listed.perm perm).free
  · have account := recycled.account
    have sizes := perm.length_eq
    simp only [List.length_cons] at account sizes
    simp only [more, created]
    omega
  · simp only [heap_eq, created]
    exact recycled.peak
  · intro k above
    simp only [created] at above
    rw [requests_other theirs (by omega)]
    exact recycled.fresh k above
  · intro k live found
    have own : k ≠ h := by
      rintro rfl
      simp [frames] at found
    rw [requests_other theirs own]
    exact recycled.live k live (by simpa [frames, own] using found)
  · intro k below gone
    by_cases own : k = h
    · subst own
      rw [requests_append, recycled.live k old present]
      exact ⟨old.address, by simp [requests]⟩
    · rw [requests_other theirs own]
      exact recycled.ended k (created ▸ below) (by simpa [frames, own] using gone)

theorem Recycled.step (inv : Inv P streams s) (recycled : Recycled P streams before origin (s, ledger))
    (going : CoroMultiLookup.step P s = some t) :
    Recycled P streams before origin (t, ledger ++ Machine.uses P s) := by
  have within : ∀ k frame, s.frames k = some frame → k < s.created := by
    obtain ⟨⟨queue, lost, core, -⟩, -⟩ := inv
    exact fun k frame present => core.inside present
  cases step_stepped inv going with
  | idle uses pool frames created same =>
    have leased_eq : leased t = leased s := by rw [leased, leased, frames, created]
    obtain ⟨replay, listed, account, peak, fresh, live, ended⟩ := recycled
    rw [uses, List.append_nil]
    constructor <;> simp only [pool, leased_eq, same, created, frames]
    all_goals assumption
  | create key keys frame control address uses pool frames created same =>
    rw [uses]
    exact recycled.create inv control address pool frames created same
  | write h old new present address uses pool frames created same =>
    rw [uses]
    exact recycled.write (within h old present) present address pool frames created same
  | free h old present uses pool frames created more =>
    rw [uses]
    exact recycled.free (within h old present) present pool frames created more

/-! ### Calls -/

theorem audit_reaches (path : Reaches (CoroMultiLookup.step P) s t) (ledger : Ledger) :
    ∃ ledger', Reaches (audit P) (s, ledger) (t, ledger') := by
  induction path with
  | refl => exact ⟨ledger, .refl⟩
  | @tail mid last _ stepped ih =>
    obtain ⟨ledger', front⟩ := ih
    refine ⟨ledger' ++ Machine.uses P mid, .tail front ?_⟩
    have going : CoroMultiLookup.step P mid = some last := stepped
    simp [audit, going]

/-- The searches up to `searches` have each been given a block and have given it back. -/
def Released (searches : Nat) (ledger : Ledger) : Prop :=
  (∀ k < searches, ∃ p, requests k ledger = [.alloc p, .free p]) ∧ ∀ k, searches ≤ k → requests k ledger = []

theorem start_recycled {g : Globals} {nodes : List Nat} (pool : Pool P.frameSize g.t g.heap nodes []) :
    Recycled P streams g.heap.blocks (g.t, g.heap) (start P g.scheduler g.t g.heap streams, []) where
  replay := rfl
  pool := ⟨nodes, pool⟩
  account := rfl
  peak := by simp [start]
  fresh _ _ := rfl
  live k frame present := by simp [start] at present
  ended k below := by simp [start] at below

theorem reached_recycled {g : Globals} {nodes : List Nat} {a : Machine × Ledger} (idle : Idle g.scheduler)
    (pool : Pool P.frameSize g.t g.heap nodes []) (positive : 1 ≤ streams) (small : streams < 2 ^ 32)
    (path : Reaches (audit P) (start P g.scheduler g.t g.heap streams, []) a) :
    Inv P streams a.1 ∧ Recycled P streams g.heap.blocks (g.t, g.heap) a := by
  have kept : ∀ a b : Machine × Ledger,
      Inv P streams a.1 ∧ Recycled P streams g.heap.blocks (g.t, g.heap) a → audit P a = some b →
      Inv P streams b.1 ∧ Recycled P streams g.heap.blocks (g.t, g.heap) b := by
    rintro ⟨s, ledger⟩ b ⟨inv, recycled⟩ audited
    obtain ⟨t, going, rfl⟩ := Option.map_eq_some_iff.mp audited
    exact ⟨step_inv inv positive small going, recycled.step inv going⟩
  have both := reaches_invariant kept path ⟨start_inv P idle g.t g.heap small, start_recycled pool⟩
  exact both

/-- A call gives back every block it has taken. -/
theorem call_recycles {g : Globals} {nodes : List Nat} (idle : Idle g.scheduler)
    (pool : Pool P.frameSize g.t g.heap nodes []) (positive : 1 ≤ streams) (few : streams ≤ 255) :
    ∃ last ∈ eval (audit P) (start P g.scheduler g.t g.heap streams, []), last.1.control = .returned ∧
      Idle last.1.scheduler ∧ (∃ nodes', Pool P.frameSize last.1.t last.1.heap nodes' []) ∧
      last.1.heap.blocks = max g.heap.blocks (min P.lookups.length (streams + 1)) ∧
      run (use P.frameSize) (g.t, g.heap) last.2 = some (last.1.t, last.1.heap) ∧
      Released P.lookups.length last.2 := by
  obtain ⟨final, ends, inv, returned⟩ := reaches_returned P g.t g.heap streams idle positive (by omega)
  obtain ⟨ledger, path⟩ := audit_reaches (mem_eval.mp ends).1 []
  obtain ⟨-, recycled⟩ := reached_recycled idle pool positive (by omega) path
  obtain ⟨core, all, -⟩ := returned_core inv (by simp only [N]; omega) returned
  have gone := (frames_none_iff core).mpr rfl
  have none_out : leased final = [] := by simp [leased, gone]
  refine ⟨(final, ledger), mem_eval.mpr ⟨path, by simp [audit, CoroMultiLookup.step, returned]⟩, returned, (at_rest core).1,
    none_out ▸ recycled.pool, all ▸ recycled.peak, recycled.replay, fun k below => ?_, fun k above => ?_⟩
  · exact recycled.ended k (all ▸ below) (gone k)
  · exact recycled.fresh k (all ▸ above)

end

/-- The most frames that a call has out at a time: one for every stream and the one that
`spawn` is given, or all. -/
def Job.peak (job : Job) : Nat := min job.lookups.length (job.streams + 1)

def Complete (job : Job) (call : Machine × Ledger) : Prop :=
  call.1.control = .returned ∧ Released job.lookups.length call.2

theorem session_recycles (frameSize : Nat) (image : SearchFrame → Header) (jobs : List Job) (g : Globals)
    (nodes : List Nat) (idle : Idle g.scheduler) (pool : Pool frameSize g.t g.heap nodes [])
    (bounds : ∀ job ∈ jobs, 1 ≤ job.streams ∧ job.streams ≤ 255) :
    ∃ calls g', (calls, g') ∈ session frameSize image jobs g ∧
      (∃ nodes', Pool frameSize g'.t g'.heap nodes' []) ∧
      g'.heap.blocks = (jobs.map Job.peak).foldl max g.heap.blocks ∧
      run (use frameSize) (g.t, g.heap) (calls.flatMap Prod.snd) = some (g'.t, g'.heap) ∧
      List.Forall₂ Complete jobs calls := by
  induction jobs generalizing g nodes with
  | nil => exact ⟨[], g, Part.mem_some _, ⟨nodes, pool⟩, rfl, rfl, .nil⟩
  | cons job jobs ih =>
    obtain ⟨⟨positive, few⟩, later⟩ := List.forall_mem_cons.mp bounds
    obtain ⟨last, ends, returned, idle', ⟨nodes', pool'⟩, blocks, replay, released⟩ :=
      call_recycles (P := job.program frameSize image) idle pool positive few
    obtain ⟨calls, g', rest, listed, blocks', replay', all⟩ := ih (globals last.1) nodes' idle' pool' later
    refine ⟨last :: calls, g', ?_, listed, ?_, run_append.mpr ⟨_, replay, replay'⟩, .cons ⟨returned, released⟩ all⟩
    · exact Part.mem_bind ends (Part.mem_bind rest (Part.mem_some _))
    · rw [blocks', List.map_cons, List.foldl_cons]
      exact congrArg (List.foldl max · (jobs.map Job.peak)) blocks

/-- After any number of calls the free list has every block there is, each once; there are as
many as the largest of the calls had out at a time; and every search has given its frame
back once. -/
theorem frames_recycled (frameSize : Nat) (image : SearchFrame → Header) (jobs : List Job)
    (scheduler : SchedulerQueue) (memory : Nat → Header) (idle : Idle scheduler)
    (bounds : ∀ job ∈ jobs, 1 ≤ job.streams ∧ job.streams ≤ 255) :
    ∃ calls g, (calls, g) ∈ session frameSize image jobs ⟨scheduler, {}, ⟨0, fun _ => 0, memory⟩⟩ ∧
      g.t.allocCount = (jobs.map Job.peak).foldl max 0 ∧
      (∃ nodes, Linked (fun p => (g.heap.header p).next) g.t.root nodes ∧ nodes.Nodup ∧
        ∀ p, p ∈ nodes ↔ p < g.heap.blocks) ∧
      run (use frameSize) ({}, ⟨0, fun _ => 0, memory⟩) (calls.flatMap Prod.snd) = some (g.t, g.heap) ∧
      List.Forall₂ Complete jobs calls := by
  obtain ⟨calls, g, ends, ⟨nodes, pool⟩, blocks, replay, released⟩ := session_recycles frameSize image jobs
    ⟨scheduler, {}, ⟨0, fun _ => 0, memory⟩⟩ [] idle (pool_nil frameSize memory) bounds
  refine ⟨calls, g, ends, pool.count.trans blocks, ⟨nodes, pool.linked, ?_, fun p => ?_⟩, replay, released⟩
  · simpa using pool.nodup
  · simpa using pool.blocks.mem_iff (a := p)

theorem frames_recycled_two_calls :
    ∃ calls g, (calls, g) ∈ session 64 (fun _ => ⟨none, 0⟩) [⟨#[1, 3, 5], [3, 4, 5, 3], 2⟩, ⟨#[7], [7], 1⟩]
        ⟨⟨9, 9, fun _ => some 2⟩, {}, ⟨0, fun _ => 0, fun _ => ⟨none, 0⟩⟩⟩ ∧
      g.t.allocCount = 3 ∧
      (∃ nodes, Linked (fun p => (g.heap.header p).next) g.t.root nodes ∧ nodes.Nodup ∧
        ∀ p, p ∈ nodes ↔ p < g.heap.blocks) ∧
      run (use 64) ({}, ⟨0, fun _ => 0, fun _ => ⟨none, 0⟩⟩) (calls.flatMap Prod.snd) = some (g.t, g.heap) ∧
      List.Forall₂ Complete [⟨#[1, 3, 5], [3, 4, 5, 3], 2⟩, ⟨#[7], [7], 1⟩] calls :=
  frames_recycled 64 (fun _ => ⟨none, 0⟩) [⟨#[1, 3, 5], [3, 4, 5, 3], 2⟩, ⟨#[7], [7], 1⟩] ⟨9, 9, fun _ => some 2⟩
    (fun _ => ⟨none, 0⟩) ⟨rfl, by decide⟩ (by decide)

end Await.NanoCoro.Recycling
