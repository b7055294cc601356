import Await.General.Resources
import Mathlib.Algebra.GroupWithZero.Nat

/-! Coroutines that nobody waits for, on any number of threads. A coroutine runs on the
thread that calls it until it suspends in an operation, and goes on on a thread of its own
when the packet of the operation comes. Its frame owns resources, which its calls and its
destruction bring from one state to another; it may hand them on to a coroutine it calls.
Objects driven by callbacks are coroutines that go on at the entry of a handler, also on the
spot when an operation is refused; and nobody need have one of them in the end. -/

namespace Await.General.Tasks
open Resources Transition

/-- What an awaiter makes of the system's answer: it does not suspend after all, or it does,
or it calls its handler on the spot, or destroys the coroutine, or ends the program. -/
inductive Verdict where
  | resume | suspend
  | refuse (code : Nat)
  | destroy | exit
  deriving DecidableEq, Repr

/-- What a coroutine does at one of its points: it makes some calls and goes on, or starts an
operation after them, or calls another coroutine and goes on when that call returns, or
returns and leaves its frame to nobody, or comes to its end, or ends the program. -/
inductive Move (ω κ φ ε : Type) where
  | goto (frame : ω) (calls : List ε) (next : κ)
  | await (frame : ω) (calls : List ε) (operation : ε) (kind : φ) (next : κ)
  | spawn (frame child : ω) (entry next : κ)
  | leave (frame : ω)
  | finish
  | exit

/-- The code of all coroutines. At some of its points it makes a resource, and is given the
name of the new one. `drop` are the calls of the destructors of a frame. -/
structure Code (ω κ φ ρ ε : Type) where
  exec : κ → ω → Nat → Move ω κ φ ε
  opens : κ → Bool
  entry : φ → Nat → Nat → κ
  respond : ε → ρ → Option Verdict
  drop : ω → List ε

inductive Doing (κ φ ε : Type) where
  | run (point : κ)
  | suspending (operation : ε) (kind : φ) (next : κ)
  | calling (next : κ)
  | destroying
  | waiting (kind : φ)
  | abandoned

/-- Somebody who has a coroutine in hand: a call on the stack of a thread, or the system. -/
structure Party (κ φ ε : Type) where
  task : Nat
  doing : Doing κ φ ε

inductive Entry (ε : Type) where
  | call (e : ε)
  | answer (operation : ε) (verdict : Verdict)
  deriving DecidableEq, Repr

/-- An operation in flight, whose awaiter is in the frame of the coroutine. -/
structure Attached (φ : Type) where
  task : Nat
  kind : φ
  deriving DecidableEq, Repr

/-- The frames there are, the operations in flight, the coroutines that nobody has any more,
the stacks of the threads, how many coroutines and resources there have been, and what was
asked of the system. A fault is an access to a frame after its destruction. -/
structure State (ω κ φ ε : Type) where
  frames : Nat → Option ω
  born : Nat
  attached : List (Attached φ) := []
  abandoned : List Nat := []
  threads : List (List (Party κ φ ε))
  made : Nat := 0
  log : List (Entry ε) := []
  fault : Bool := false
  exited : Bool := false

inductive Choice (ρ : Type) where
  | thread (i : Nat)
  | respond (i : Nat) (result : ρ)
  | packet (i : Nat) (code bytes : Nat)
  deriving DecidableEq, Repr

variable {ω κ φ ρ ε ς : Type}

def State.access (s : State ω κ φ ε) (task : Nat) (use : ω → State ω κ φ ε) : State ω κ φ ε :=
  match s.frames task with
  | some frame => use frame
  | none => { s with fault := true }

section
variable (C : Code ω κ φ ρ ε)

/-- Thread `i` runs a point of the code. -/
def State.perform (s : State ω κ φ ε) (i task : Nat) (point : κ) (rest : List (Party κ φ ε)) (frame : ω) :
    State ω κ φ ε :=
  let made := if C.opens point then s.made + 1 else s.made
  match C.exec point frame s.made with
  | .goto frame calls next => { s with
      frames := Function.update s.frames task (some frame)
      made
      log := s.log ++ calls.map .call
      threads := s.threads.set i (⟨task, .run next⟩ :: rest) }
  | .await frame calls operation kind next => { s with
      frames := Function.update s.frames task (some frame)
      made
      log := s.log ++ calls.map .call
      threads := s.threads.set i (⟨task, .suspending operation kind next⟩ :: rest) }
  | .spawn frame child entry next => { s with
      frames := Function.update (Function.update s.frames task (some frame)) s.born (some child)
      born := s.born + 1
      threads := s.threads.set i (⟨s.born, .run entry⟩ :: ⟨task, .calling next⟩ :: rest) }
  | .leave frame => { s with
      frames := Function.update s.frames task (some frame)
      made
      abandoned := s.abandoned ++ [task]
      threads := s.threads.set i rest }
  | .finish => { s with
      frames := Function.update s.frames task none
      log := s.log ++ (C.drop frame).map .call
      threads := s.threads.set i rest }
  | .exit => { s with exited := true }

/-- One step of a thread that does not wait for the system. -/
def State.advance (s : State ω κ φ ε) (i : Nat) : List (Party κ φ ε) → Option (State ω κ φ ε)
  | ⟨task, .run point⟩ :: rest => some (s.access task (s.perform C i task point rest))
  | ⟨task, .calling next⟩ :: rest => some { s with threads := s.threads.set i (⟨task, .run next⟩ :: rest) }
  | ⟨task, .destroying⟩ :: rest => some (s.access task fun frame => { s with
      frames := Function.update s.frames task none
      log := s.log ++ (C.drop frame).map .call
      threads := s.threads.set i rest })
  | _ => none

/-- The awaiter has the system's answer. An operation that is pending can complete from now
on, and after that the awaiter touches its frame no more. -/
def State.answer (s : State ω κ φ ε) (i task : Nat) (operation : ε) (kind : φ) (next : κ)
    (rest : List (Party κ φ ε)) (verdict : Verdict) : State ω κ φ ε :=
  s.access task fun _ =>
    match verdict with
    | .resume => { s with
        log := s.log ++ [.answer operation .resume]
        threads := s.threads.set i (⟨task, .run next⟩ :: rest) }
    | .suspend => { s with
        log := s.log ++ [.answer operation .suspend]
        attached := s.attached ++ [⟨task, kind⟩]
        threads := s.threads.set i rest }
    | .refuse code => { s with
        log := s.log ++ [.answer operation (.refuse code)]
        threads := s.threads.set i (⟨task, .run (C.entry kind code 0)⟩ :: rest) }
    | .destroy => { s with
        log := s.log ++ [.answer operation .destroy]
        threads := s.threads.set i (⟨task, .destroying⟩ :: rest) }
    | .exit => { s with exited := true }

def step (s : State ω κ φ ε) (choice : Choice ρ) : Option (State ω κ φ ε) :=
  if s.exited then none
  else
    match choice with
    | .thread i => s.threads[i]?.bind (s.advance C i)
    | .respond i result =>
        match s.threads[i]? with
        | some (⟨task, .suspending operation kind next⟩ :: rest) =>
            (C.respond operation result).map (s.answer C i task operation kind next rest)
        | _ => none
    | .packet i code bytes => do
        let a ← s.attached[i]?
        some { s with
          attached := s.attached.eraseIdx i
          threads := s.threads ++ [[⟨a.task, .run (C.entry a.kind code bytes)⟩]] }

end

/-- A coroutine that is called on the only thread. -/
def State.launch (frame : ω) (point : κ) : State ω κ φ ε where
  frames := Function.update (fun _ => none) 0 (some frame)
  born := 1
  threads := [[⟨0, .run point⟩]]

def Attached.party (a : Attached φ) : Party κ φ ε := ⟨a.task, .waiting a.kind⟩

def State.parties (s : State ω κ φ ε) : List (Party κ φ ε) := s.attached.map Attached.party ++ s.threads.flatten

/-- The coroutines that are on no thread. -/
def State.away (s : State ω κ φ ε) : List (Party κ φ ε) :=
  s.abandoned.map (⟨·, .abandoned⟩) ++ s.attached.map Attached.party

/-- What a step can be. -/
inductive Taken (C : Code ω κ φ ρ ε) (s : State ω κ φ ε) : Choice ρ → State ω κ φ ε → Prop where
  | thread {i top rest t} : s.threads[i]? = some (top :: rest) → s.advance C i (top :: rest) = some t →
      Taken C s (.thread i) t
  | respond {i id operation kind next rest result verdict} :
      s.threads[i]? = some (⟨id, .suspending operation kind next⟩ :: rest) →
      C.respond operation result = some verdict →
      Taken C s (.respond i result) (s.answer C i id operation kind next rest verdict)
  | packet {i a code bytes} : s.attached[i]? = some a → Taken C s (.packet i code bytes) { s with
      attached := s.attached.eraseIdx i
      threads := s.threads ++ [[⟨a.task, .run (C.entry a.kind code bytes)⟩]] }

theorem step_taken {C : Code ω κ φ ρ ε} {s t : State ω κ φ ε} {choice : Choice ρ} (stepped : step C s choice = some t) :
    s.exited = false ∧ Taken C s choice t := by
  unfold step at stepped
  split at stepped
  · cases stepped
  next goes_on =>
    refine ⟨by simpa using goes_on, ?_⟩
    cases choice with
    | thread i =>
      obtain ⟨stack, running, advanced⟩ := Option.bind_eq_some_iff.mp stepped
      cases stack with
      | nil => cases advanced
      | cons top rest => exact .thread running advanced
    | respond i result =>
      simp only at stepped
      split at stepped
      next id operation kind next rest running =>
        obtain ⟨verdict, responded, rfl⟩ := Option.map_eq_some_iff.mp stepped
        exact .respond running responded
      next => cases stepped
    | packet i code bytes =>
      obtain ⟨a, taken, same⟩ := Option.bind_eq_some_iff.mp stepped
      obtain rfl := Option.some.inj same
      exact .packet taken

/-! ### The rules -/

/-- What is claimed of a coroutine, by what is being done with it, and of what it owns. -/
abbrev Claim (ω κ φ ε ς : Type) := Doing κ φ ε → ω → (Nat → Option ς) → Prop

variable {C : Code ω κ φ ρ ε} {P : Protocol (Entry ε) ς} {A : Claim ω κ φ ε ς}
  {rank : Doing κ φ ε → ω → Nat}

/-- The claim is kept when the resources have been carried on. -/
def Passes (P : Protocol (Entry ε) ς) (A : Claim ω κ φ ε ς) (owner : Nat → Option ς) (entries : List (Entry ε))
    (doing : Doing κ φ ε) (frame : ω) : Prop :=
  ∃ owner', A doing frame owner' ∧ Carries P owner entries owner'

/-- A move at a point that keeps the claim, carries the resources on, and brings the coroutine
nearer to its next operation. -/
inductive Lawful (C : Code ω κ φ ρ ε) (P : Protocol (Entry ε) ς) (A : Claim ω κ φ ε ς) (rank : Doing κ φ ε → ω → Nat)
    (point : κ) (frame : ω) (owner : Nat → Option ς) (made : Nat) : Move ω κ φ ε → Prop where
  | goto {frame' calls next} :
      Passes P A (grant P (C.opens point) made owner) (calls.map .call) (.run next) frame' →
      rank (.run next) frame' < rank (.run point) frame →
        Lawful C P A rank point frame owner made (.goto frame' calls next)
  | await {frame' calls operation kind next} :
      Passes P A (grant P (C.opens point) made owner) (calls.map .call) (.suspending operation kind next) frame' →
      rank (.suspending operation kind next) frame' < rank (.run point) frame →
      Lawful C P A rank point frame owner made (.await frame' calls operation kind next)
  | spawn {frame' child entry next left right} : A (.calling next) frame' left → A (.run entry) child right →
      Splits owner left right → rank (.run entry) child + rank (.calling next) frame' < rank (.run point) frame →
      Lawful C P A rank point frame owner made (.spawn frame' child entry next)
  | leave {frame'} : Passes P A (grant P (C.opens point) made owner) [] .abandoned frame' →
      rank .abandoned frame' < rank (.run point) frame → Lawful C P A rank point frame owner made (.leave frame')
  | finish : Closes P owner ((C.drop frame).map .call) → 0 < rank (.run point) frame →
      Lawful C P A rank point frame owner made .finish
  | exit : Lawful C P A rank point frame owner made .exit

/-- The proof rules as long as nothing comes from outside: for the code at each point, the
return of a call and the end of a coroutine that was destroyed, and an operation that is done
at once or stays pending. -/
structure Undisturbed (C : Code ω κ φ ρ ε) (P : Protocol (Entry ε) ς) (A : Claim ω κ φ ε ς)
    (rank : Doing κ φ ε → ω → Nat) : Prop where
  run : ∀ {point frame owner made}, A (.run point) frame owner → (∀ r, made ≤ r → owner r = none) →
    Lawful C P A rank point frame owner made (C.exec point frame made)
  returned : ∀ {next frame owner}, A (.calling next) frame owner →
    Passes P A owner [] (.run next) frame ∧ rank (.run next) frame < rank (.calling next) frame
  destroyed : ∀ {frame owner}, A .destroying frame owner →
    Closes P owner ((C.drop frame).map .call) ∧ 0 < rank .destroying frame
  resume : ∀ {operation kind next frame owner result}, A (.suspending operation kind next) frame owner →
    C.respond operation result = some .resume → Passes P A owner [.answer operation .resume] (.run next) frame
  suspend : ∀ {operation kind next frame owner result}, A (.suspending operation kind next) frame owner →
    C.respond operation result = some .suspend → Passes P A owner [.answer operation .suspend] (.waiting kind) frame

/-- The proof rules: also for an operation that is refused, and for the arrival of a packet. -/
structure Verified (C : Code ω κ φ ρ ε) (P : Protocol (Entry ε) ς) (A : Claim ω κ φ ε ς)
    (rank : Doing κ φ ε → ω → Nat) : Prop extends Undisturbed C P A rank where
  refuse : ∀ {operation kind next frame owner result code}, A (.suspending operation kind next) frame owner →
    C.respond operation result = some (.refuse code) →
      Passes P A owner [.answer operation (.refuse code)] (.run (C.entry kind code 0)) frame
  destroy : ∀ {operation kind next frame owner result}, A (.suspending operation kind next) frame owner →
    C.respond operation result = some .destroy → Passes P A owner [.answer operation .destroy] .destroying frame
  packet : ∀ {kind frame owner code bytes}, A (.waiting kind) frame owner →
    Passes P A owner [] (.run (C.entry kind code bytes)) frame

/-- A coroutine, what is being done with it, its frame, and what it owns. -/
structure Task (ω κ φ ε ς : Type) where
  id : Nat
  doing : Doing κ φ ε
  frame : ω
  owner : Nat → Option ς

def Task.party (task : Task ω κ φ ε ς) : Party κ φ ε := ⟨task.id, task.doing⟩

/-- The coroutines that there are have the frames that there are. -/
structure Placed (tasks : List (Task ω κ φ ε ς)) (frames : Nat → Option ω) (born : Nat) : Prop where
  apart : (tasks.map Task.id).Nodup
  present : ∀ task ∈ tasks, frames task.id = some task.frame
  absent : ∀ id, id ∉ tasks.map Task.id → frames id = none
  old : ∀ task ∈ tasks, task.id < born

structure Safe (P : Protocol (Entry ε) ς) (A : Claim ω κ φ ε ς) (tasks : List (Task ω κ φ ε ς)) (s : State ω κ φ ε) :
    Prop where
  parties : (s.away ++ s.threads.flatten).Perm (tasks.map Task.party)
  placed : Placed tasks s.frames s.born
  claims : ∀ task ∈ tasks, A task.doing task.frame task.owner
  shared : Shared P (tasks.map Task.owner) s.made s.log
  faultless : s.fault = false

/-- Every coroutine is in one hand, and is as claimed with what it owns. -/
def Sound (P : Protocol (Entry ε) ς) (A : Claim ω κ φ ε ς) (s : State ω κ φ ε) : Prop := ∃ tasks, Safe P A tasks s

section
variable {tasks tasks' : List (Task ω κ φ ε ς)} {frames : Nat → Option ω} {born : Nat} {id : Nat}
  {doing doing' : Doing κ φ ε} {frame frame' : ω} {owner owner' : Nat → Option ς}

theorem Placed.perm (placed : Placed tasks frames born) (same : tasks.Perm tasks') : Placed tasks' frames born where
  apart := (same.map Task.id).nodup_iff.mp placed.apart
  present task member := placed.present task (same.mem_iff.mpr member)
  absent id away := placed.absent id (by rwa [(same.map Task.id).mem_iff])
  old task member := placed.old task (same.mem_iff.mpr member)

/-- The frames of the other coroutines are where they were. -/
theorem Placed.others (placed : Placed (⟨id, doing, frame, owner⟩ :: tasks) frames born) (value : Option ω) :
    ∀ other ∈ tasks, Function.update frames id value other.id = some other.frame := by
  intro other member
  obtain ⟨away, -⟩ := List.nodup_cons.mp placed.apart
  have other_id : other.id ≠ id := by
    rintro rfl
    exact away (List.mem_map.mpr ⟨other, member, rfl⟩)
  rw [Function.update_of_ne other_id]
  exact placed.present other (List.mem_cons_of_mem _ member)

theorem Placed.update (placed : Placed (⟨id, doing, frame, owner⟩ :: tasks) frames born) :
    Placed (⟨id, doing', frame', owner'⟩ :: tasks) (Function.update frames id (some frame')) born := by
  refine ⟨placed.apart, List.forall_mem_cons.mpr ⟨Function.update_self .., placed.others _⟩, fun other out => ?_,
    List.forall_mem_cons.mpr (List.forall_mem_cons.mp placed.old)⟩
  have other_id : other ≠ id := by
    rintro rfl
    simp at out
  rw [Function.update_of_ne other_id]
  exact placed.absent other out

theorem Placed.remove (placed : Placed (⟨id, doing, frame, owner⟩ :: tasks) frames born) :
    Placed tasks (Function.update frames id none) born := by
  obtain ⟨-, rest⟩ := List.nodup_cons.mp placed.apart
  refine ⟨rest, placed.others _, fun other out => ?_, fun other member => placed.old other (List.mem_cons_of_mem _ member)⟩
  by_cases same : other = id
  · rw [same, Function.update_self]
  · rw [Function.update_of_ne same]
    exact placed.absent other (by simpa [same] using out)

theorem Placed.add (placed : Placed tasks frames born) :
    Placed (⟨born, doing, frame, owner⟩ :: tasks) (Function.update frames born (some frame)) (born + 1) := by
  obtain ⟨apart, present, absent, old⟩ := placed
  have away : born ∉ tasks.map Task.id := by
    intro member
    obtain ⟨task, member, same⟩ := List.mem_map.mp member
    have := old task member
    omega
  refine ⟨List.nodup_cons.mpr ⟨away, apart⟩, ?_, fun other out => ?_, ?_⟩
  · refine List.forall_mem_cons.mpr ⟨Function.update_self .., fun other member => ?_⟩
    have other_id : other.id ≠ born := by
      have := old other member
      omega
    rw [Function.update_of_ne other_id]
    exact present other member
  · obtain ⟨other_id, out⟩ := not_or.mp (List.mem_cons.not.mp out)
    rw [Function.update_of_ne other_id]
    exact absent other out
  · refine List.forall_mem_cons.mpr ⟨Nat.lt_succ_self _, fun other member => ?_⟩
    have := old other member
    omega

end

section
variable {s t : State ω κ φ ε} {tasks : List (Task ω κ φ ε ς)} {i id : Nat} {doing doing' : Doing κ φ ε}
  {frame frame' : ω} {owner : Nat → Option ς} {entries : List (Entry ε)} {rest : List (Party κ φ ε)}

theorem set_flatten {α : Type} {lists : List (List α)} {old : List α} (found : lists[i]? = some old) :
    ∃ others, lists.flatten.Perm (old ++ others) ∧ ∀ new, (lists.set i new).flatten.Perm (new ++ others) := by
  induction lists generalizing i with
  | nil => simp at found
  | cons first lists ih =>
    cases i with
    | zero =>
      obtain rfl : first = old := by simpa using found
      exact ⟨lists.flatten, .refl _, fun new => .refl _⟩
    | succ i =>
      obtain ⟨others, whole, replaced⟩ := ih (by simpa using found)
      refine ⟨first ++ others, ?_, fun new => ?_⟩
      · exact (whole.append_left first).trans (List.perm_append_comm_assoc ..)
      · exact ((replaced new).append_left first).trans (List.perm_append_comm_assoc ..)

theorem perm_map_cons {α β : Type} {f : α → β} {y : β} {xs : List α} {ys : List β} (same : (y :: ys).Perm (xs.map f)) :
    ∃ x later, xs.Perm (x :: later) ∧ f x = y ∧ ys.Perm (later.map f) := by
  obtain ⟨x, member, image⟩ := List.mem_map.mp (same.subset (List.mem_cons_self ..))
  obtain ⟨front, back, rfl⟩ := List.append_of_mem member
  have regrouped : (front ++ x :: back).Perm (x :: (front ++ back)) := List.perm_middle
  refine ⟨x, front ++ back, regrouped, image, ?_⟩
  have whole := same.trans (regrouped.map f)
  rw [List.map_cons, image] at whole
  exact whole.cons_inv

theorem Safe.perm {tasks' : List (Task ω κ φ ε ς)} (safe : Safe P A tasks s) (same : tasks.Perm tasks') :
    Safe P A tasks' s where
  parties := safe.parties.trans (same.map _)
  placed := safe.placed.perm same
  claims task member := safe.claims task (same.mem_iff.mpr member)
  shared := safe.shared.perm (same.map _)
  faultless := safe.faultless

/-- The coroutine on top of a stack, apart from all the others. -/
theorem Safe.focus (safe : Safe P A tasks s) (running : s.threads[i]? = some (⟨id, doing⟩ :: rest)) :
    ∃ frame owner later, tasks.Perm (⟨id, doing, frame, owner⟩ :: later) ∧ ∀ new,
      (s.away ++ (s.threads.set i (new ++ rest)).flatten).Perm (new ++ later.map Task.party) := by
  obtain ⟨others, whole, replaced⟩ := set_flatten running
  have front : ∀ new : List (Party κ φ ε), (s.away ++ (new ++ rest ++ others)).Perm
      (new ++ (rest ++ (s.away ++ others))) := by
    intro new
    rw [List.append_assoc]
    exact (List.perm_append_comm_assoc ..).trans ((List.perm_append_comm_assoc ..).append_left new)
  have parties := ((whole.append_left _).trans (front [⟨id, doing⟩])).symm.trans safe.parties
  obtain ⟨⟨id', doing', frame, owner⟩, later, same, image, tail⟩ := perm_map_cons parties
  obtain ⟨rfl, rfl⟩ := Party.mk.inj image
  refine ⟨frame, owner, later, same, fun new => ?_⟩
  exact (((replaced _).append_left _).trans (front new)).trans (tail.append_left new)

theorem Safe.present (safe : Safe P A (⟨id, doing, frame, owner⟩ :: tasks) s) : s.frames id = some frame :=
  safe.placed.present _ (List.mem_cons_self ..)

theorem Safe.claim (safe : Safe P A (⟨id, doing, frame, owner⟩ :: tasks) s) : A doing frame owner :=
  safe.claims _ (List.mem_cons_self ..)

theorem Safe.bounded (safe : Safe P A (⟨id, doing, frame, owner⟩ :: tasks) s) : ∀ r, s.made ≤ r → owner r = none :=
  safe.shared.bounded _ (List.mem_cons_self ..)

/-- The coroutine goes on to the next thing. -/
theorem Safe.pass {opens : Bool} (safe : Safe P A (⟨id, doing, frame, owner⟩ :: tasks) s)
    (passes : Passes P A (grant P opens s.made owner) entries doing' frame')
    (parties : (t.away ++ t.threads.flatten).Perm (⟨id, doing'⟩ :: tasks.map Task.party))
    (frames : t.frames = Function.update s.frames id (some frame')) (born : t.born = s.born)
    (made : t.made = if opens then s.made + 1 else s.made) (log : t.log = s.log ++ entries)
    (faultless : t.fault = false) :
    ∃ owner', Safe P A (⟨id, doing', frame', owner'⟩ :: tasks) t := by
  obtain ⟨owner', claim, carries⟩ := passes
  refine ⟨owner', parties, ?_, ?_, ?_, faultless⟩
  · rw [frames, born]
    exact safe.placed.update
  · exact List.forall_mem_cons.mpr ⟨claim, (List.forall_mem_cons.mp safe.claims).2⟩
  · rw [made, log]
    exact (safe.shared.grant opens).carry carries

/-- The coroutine goes on in the same frame, and makes nothing. -/
theorem Safe.stay (safe : Safe P A (⟨id, doing, frame, owner⟩ :: tasks) s)
    (passes : Passes P A owner entries doing' frame)
    (parties : (t.away ++ t.threads.flatten).Perm (⟨id, doing'⟩ :: tasks.map Task.party))
    (frames : t.frames = s.frames) (born : t.born = s.born) (made : t.made = s.made) (log : t.log = s.log ++ entries)
    (faultless : t.fault = false) : ∃ owner', Safe P A (⟨id, doing', frame, owner'⟩ :: tasks) t := by
  have unchanged : s.frames = Function.update s.frames id (some frame) := by
    rw [← safe.present, Function.update_eq_self]
  have nothing_made : Passes P A (grant P false s.made owner) entries doing' frame := passes
  exact safe.pass nothing_made parties (frames.trans unchanged) born made log faultless

/-- The coroutine is destroyed, and closes what it owns. -/
theorem Safe.drop (safe : Safe P A (⟨id, doing, frame, owner⟩ :: tasks) s) (closes : Closes P owner entries)
    (parties : (t.away ++ t.threads.flatten).Perm (tasks.map Task.party))
    (frames : t.frames = Function.update s.frames id none)
    (born : t.born = s.born) (made : t.made = s.made) (log : t.log = s.log ++ entries) (faultless : t.fault = false) :
    Safe P A tasks t := by
  refine ⟨parties, ?_, (List.forall_mem_cons.mp safe.claims).2, ?_, faultless⟩
  · rw [frames, born]
    exact safe.placed.remove
  · rw [made, log]
    exact safe.shared.close closes

theorem Safe.exit (safe : Safe P A tasks s) : Safe P A tasks { s with exited := true } :=
  ⟨safe.parties, safe.placed, safe.claims, safe.shared, safe.faultless⟩

theorem Safe.sound (kept : ∃ owner', Safe P A (⟨id, doing', frame', owner'⟩ :: tasks) t) : Sound P A t := by
  obtain ⟨owner', safe⟩ := kept
  exact ⟨_, safe⟩

/-- A coroutine of rank `bound` has been led on to something of a lower rank, and the others
are as they were. -/
def Leads (P : Protocol (Entry ε) ς) (A : Claim ω κ φ ε ς) (rank : Doing κ φ ε → ω → Nat) (bound : Nat)
    (tasks : List (Task ω κ φ ε ς)) (t : State ω κ φ ε) : Prop :=
  ∃ now, Safe P A (now ++ tasks) t ∧ (now.map fun task => rank task.doing task.frame).sum < bound

theorem Safe.leads {bound : Nat} (kept : ∃ owner', Safe P A (⟨id, doing', frame', owner'⟩ :: tasks) t)
    (lower : rank doing' frame' < bound) : Leads P A rank bound tasks t := by
  obtain ⟨owner', safe⟩ := kept
  exact ⟨[_], safe, by simpa using lower⟩

/-- The thread ends the program, or leads its coroutine on. -/
theorem Safe.thread (rules : Undisturbed C P A rank) (safe : Safe P A (⟨id, doing, frame, owner⟩ :: tasks) s)
    (regroup : ∀ new, (s.away ++ (s.threads.set i (new ++ rest)).flatten).Perm (new ++ tasks.map Task.party))
    (advanced : s.advance C i (⟨id, doing⟩ :: rest) = some t) :
    (∃ point, doing = .run point ∧ C.exec point frame s.made = .exit ∧ t = { s with exited := true }) ∨
      t.exited = s.exited ∧ Leads P A rank (rank doing frame) tasks t := by
  have claim := safe.claim
  cases doing with
  | waiting kind => cases advanced
  | suspending operation kind next => cases advanced
  | abandoned => cases advanced
  | calling next =>
    obtain rfl := Option.some.inj advanced
    obtain ⟨passes, lower⟩ := rules.returned claim
    exact .inr ⟨rfl, Safe.leads (safe.stay passes (regroup [_]) rfl rfl rfl (by simp) safe.faultless) lower⟩
  | destroying =>
    simp only [State.advance, State.access, safe.present, Option.some.injEq] at advanced
    subst advanced
    obtain ⟨closes, positive⟩ := rules.destroyed claim
    exact .inr ⟨rfl, [], safe.drop closes (regroup []) rfl rfl rfl rfl safe.faultless, positive⟩
  | run point =>
    simp only [State.advance, State.access, safe.present, Option.some.injEq, State.perform] at advanced
    subst advanced
    have lawful := rules.run claim safe.bounded
    split
    next frame' calls next move =>
      rw [move] at lawful
      cases lawful with
      | goto passes lower =>
        exact .inr ⟨rfl, Safe.leads (safe.pass passes (regroup [_]) rfl rfl rfl rfl safe.faultless) lower⟩
    next frame' calls operation kind next move =>
      rw [move] at lawful
      cases lawful with
      | await passes lower =>
        exact .inr ⟨rfl, Safe.leads (safe.pass passes (regroup [_]) rfl rfl rfl rfl safe.faultless) lower⟩
    next frame' child entry next move =>
      rw [move] at lawful
      cases lawful with
      | @spawn _ _ _ _ left right parent called splits lower =>
        obtain ⟨-, placed, claims, shared, faultless⟩ := safe
        refine .inr ⟨rfl, [⟨s.born, .run entry, child, right⟩, ⟨id, .calling next, frame', left⟩],
          ⟨regroup [_, _], placed.update.add, ?_, shared.split splits, faultless⟩, by simpa using lower⟩
        refine List.forall_mem_cons.mpr ⟨called, List.forall_mem_cons.mpr ⟨parent, ?_⟩⟩
        exact (List.forall_mem_cons.mp claims).2
    next frame' move =>
      rw [move] at lawful
      cases lawful with
      | leave passes lower =>
        refine .inr ⟨rfl, Safe.leads (safe.pass passes ?_ rfl rfl rfl (by simp) safe.faultless) lower⟩
        rw [State.away, List.map_append, List.append_assoc, List.append_assoc]
        exact (List.perm_append_comm_assoc ..).trans ((List.append_assoc .. ▸ regroup []).cons _)
    next move =>
      rw [move] at lawful
      cases lawful with
      | finish closes positive =>
        exact .inr ⟨rfl, [], safe.drop closes (regroup []) rfl rfl rfl rfl safe.faultless, positive⟩
    next move => exact .inl ⟨point, rfl, move, rfl⟩

/-- The system leaves an operation pending. -/
theorem Safe.suspend {operation : ε} {kind : φ} {next : κ} {result : ρ} (rules : Undisturbed C P A rank)
    (safe : Safe P A (⟨id, .suspending operation kind next, frame, owner⟩ :: tasks) s)
    (regroup : ∀ new, (s.away ++ (s.threads.set i (new ++ rest)).flatten).Perm (new ++ tasks.map Task.party))
    (responded : C.respond operation result = some .suspend) :
    ∃ owner', Safe P A (⟨id, .waiting kind, frame, owner'⟩ :: tasks)
      (s.answer C i id operation kind next rest .suspend) := by
  simp only [State.answer, State.access, safe.present]
  refine safe.stay (rules.suspend safe.claim responded) ?_ rfl rfl rfl rfl safe.faultless
  rw [State.away, List.map_append, ← List.append_assoc, List.append_assoc]
  exact (List.perm_append_comm_assoc ..).trans ((regroup []).cons _)

/-- The operation is done at once. -/
theorem Safe.resume {operation : ε} {kind : φ} {next : κ} {result : ρ} (rules : Undisturbed C P A rank)
    (safe : Safe P A (⟨id, .suspending operation kind next, frame, owner⟩ :: tasks) s)
    (regroup : ∀ new, (s.away ++ (s.threads.set i (new ++ rest)).flatten).Perm (new ++ tasks.map Task.party))
    (responded : C.respond operation result = some .resume) :
    ∃ owner', Safe P A (⟨id, .run next, frame, owner'⟩ :: tasks)
      (s.answer C i id operation kind next rest .resume) := by
  simp only [State.answer, State.access, safe.present]
  exact safe.stay (rules.resume safe.claim responded) (regroup [_]) rfl rfl rfl rfl safe.faultless

theorem Sound.thread {top : Party κ φ ε} (verified : Verified C P A rank) (sound : Sound P A s)
    (running : s.threads[i]? = some (top :: rest)) (advanced : s.advance C i (top :: rest) = some t) : Sound P A t := by
  obtain ⟨tasks, safe⟩ := sound
  obtain ⟨frame, owner, later, same, regroup⟩ := safe.focus running
  rcases (safe.perm same).thread verified.toUndisturbed regroup advanced with ⟨-, -, -, rfl⟩ | ⟨-, now, safe', -⟩
  · exact ⟨_, safe.exit⟩
  · exact ⟨_, safe'⟩

theorem Sound.respond {operation : ε} {kind : φ} {next : κ} {result : ρ} {verdict : Verdict}
    (verified : Verified C P A rank) (sound : Sound P A s)
    (running : s.threads[i]? = some (⟨id, .suspending operation kind next⟩ :: rest))
    (responded : C.respond operation result = some verdict) :
    Sound P A (s.answer C i id operation kind next rest verdict) := by
  obtain ⟨tasks, safe⟩ := sound
  obtain ⟨frame, owner, later, same, regroup⟩ := safe.focus running
  have safe := safe.perm same
  cases verdict with
  | resume =>
    exact Safe.sound (safe.resume verified.toUndisturbed regroup responded)
  | refuse code =>
    simp only [State.answer, State.access, safe.present]
    exact Safe.sound (safe.stay (verified.refuse safe.claim responded) (regroup [_]) rfl rfl rfl rfl safe.faultless)
  | destroy =>
    simp only [State.answer, State.access, safe.present]
    exact Safe.sound (safe.stay (verified.destroy safe.claim responded) (regroup [_]) rfl rfl rfl rfl safe.faultless)
  | exit =>
    simp only [State.answer, State.access, safe.present]
    exact ⟨_, safe.exit⟩
  | suspend =>
    exact Safe.sound (safe.suspend verified.toUndisturbed regroup responded)

theorem Sound.packet {a : Attached φ} {code bytes : Nat} (verified : Verified C P A rank) (sound : Sound P A s)
    (taken : s.attached[i]? = some a) : Sound P A { s with
      attached := s.attached.eraseIdx i
      threads := s.threads ++ [[⟨a.task, .run (C.entry a.kind code bytes)⟩]] } := by
  obtain ⟨tasks, safe⟩ := sound
  have front : s.attached.Perm (a :: s.attached.eraseIdx i) := by
    obtain ⟨inside, rfl⟩ := List.getElem?_eq_some_iff.mp taken
    exact (List.getElem_cons_eraseIdx_perm inside).symm
  have away : s.away.Perm (a.party :: State.away { s with attached := s.attached.eraseIdx i }) :=
    ((front.map Attached.party).append_left _).trans List.perm_middle
  have parties := (away.append_right s.threads.flatten).symm.trans safe.parties
  obtain ⟨⟨id', doing', frame, owner⟩, later, same, image, tail⟩ := perm_map_cons parties
  obtain ⟨rfl, rfl⟩ := Party.mk.inj image
  have safe := safe.perm same
  have passes : Passes P A owner [] (.run (C.entry a.kind code bytes)) frame :=
    verified.packet safe.claim
  refine Safe.sound (safe.stay passes ?_ rfl rfl rfl (by simp) safe.faultless)
  rw [List.flatten_append, ← List.append_assoc]
  exact List.perm_append_comm.trans (tail.cons _)

/-- One step keeps everything as it should be. -/
theorem Sound.step {choice : Choice ρ} (verified : Verified C P A rank) (sound : Sound P A s)
    (stepped : Tasks.step C s choice = some t) : Sound P A t := by
  obtain ⟨-, taken⟩ := step_taken stepped
  cases taken with
  | thread running advanced => exact sound.thread verified running advanced
  | respond running responded => exact sound.respond verified running responded
  | packet taken => exact sound.packet verified taken

/-- And so does every run. -/
theorem Sound.along {choices : List (Choice ρ)} (verified : Verified C P A rank) (sound : Sound P A s)
    (path : Transition.run (Tasks.step C) s choices = some t) : Sound P A t :=
  run_invariant (fun _ _ _ sound stepped => sound.step verified stepped) path sound

theorem launch_sound {frame : ω} {point : κ} (claim : A (.run point) frame fun _ => none) :
    Sound P A (State.launch frame point) := by
  refine ⟨[⟨0, .run point, frame, fun _ => none⟩], .refl _,
    ⟨by simp, by simp [State.launch], fun id away => ?_, by simp [State.launch]⟩, by simpa using claim,
    ⟨by simp, by simp, by simp, fun r _ => rfl⟩, rfl⟩
  have apart : id ≠ 0 := by simpa using away
  simp [State.launch, apart]

/-! ### What comes of it -/

/-- Nobody uses a frame that is gone, and everybody who has a frame in hand has it alone. -/
theorem Sound.apart (sound : Sound P A s) : s.fault = false ∧ (s.abandoned ++ s.parties.map Party.task).Nodup ∧
    ∀ id, (s.frames id).isSome ↔ id ∈ s.abandoned ++ s.parties.map Party.task := by
  obtain ⟨tasks, parties, placed, -, -, faultless⟩ := sound
  have everybody : (s.away ++ s.threads.flatten).map Party.task = s.abandoned ++ s.parties.map Party.task := by
    simp [State.away, State.parties, Function.comp_def]
  have same : (s.abandoned ++ s.parties.map Party.task).Perm (tasks.map Task.id) := by
    rw [← everybody]
    simpa only [List.map_map, Function.comp_def, Task.party] using parties.map Party.task
  refine ⟨faultless, same.nodup_iff.mpr placed.apart, fun id => ?_⟩
  rw [same.mem_iff]
  constructor
  · intro alive
    by_contra out
    simp [placed.absent id out] at alive
  · intro member
    obtain ⟨task, inside, rfl⟩ := List.mem_map.mp member
    simp [placed.present task inside]

theorem Sound.claims (sound : Sound P A s) {party : Party κ φ ε} (member : party ∈ s.away ++ s.threads.flatten) :
    ∃ frame owner, s.frames party.task = some frame ∧ A party.doing frame owner := by
  obtain ⟨tasks, parties, placed, claims, -⟩ := sound
  obtain ⟨task, inside, rfl⟩ := List.mem_map.mp (parties.subset member)
  exact ⟨task.frame, task.owner, placed.present task inside, claims task inside⟩

theorem Sound.abandoned (sound : Sound P A s) (member : id ∈ s.abandoned) :
    ∃ frame owner, s.frames id = some frame ∧ A .abandoned frame owner := by
  have away : (⟨id, .abandoned⟩ : Party κ φ ε) ∈ s.away ++ s.threads.flatten :=
    List.mem_append_left _ (List.mem_append_left _ (List.mem_map.mpr ⟨id, member, rfl⟩))
  exact sound.claims away

/-- When all threads have returned, a coroutine waits for an operation or is left to nobody. -/
theorem Sound.resting (sound : Sound P A s) (resting : ∀ stack ∈ s.threads, stack = [])
    (found : s.frames id = some frame) :
    (∃ a ∈ s.attached, a.task = id ∧ ∃ owner, A (.waiting a.kind) frame owner) ∨
      id ∈ s.abandoned ∧ ∃ owner, A .abandoned frame owner := by
  have idle : s.threads.flatten = [] := List.flatten_eq_nil_iff.mpr resting
  have member := (sound.apart.2.2 id).mp (by simp [found])
  rw [State.parties, idle, List.append_nil] at member
  rcases List.mem_append.mp member with left | waits
  · obtain ⟨frame', owner, found', claim⟩ := sound.abandoned left
    obtain rfl := Option.some.inj (found.symm.trans found')
    exact .inr ⟨left, owner, claim⟩
  · simp only [List.map_map, List.mem_map, Function.comp_apply] at waits
    obtain ⟨a, inside, rfl⟩ := waits
    have in_hand : a.party ∈ s.away ++ s.threads.flatten :=
      List.mem_append_left _ (List.mem_append_right _ (List.mem_map_of_mem inside))
    obtain ⟨frame', owner, found', claim⟩ := sound.claims in_hand
    obtain rfl := Option.some.inj (found.symm.trans found')
    exact .inl ⟨a, inside, rfl, owner, claim⟩

theorem Placed.task (placed : Placed tasks s.frames s.born) (found : s.frames id = some frame) :
    ∃ task ∈ tasks, task.id = id ∧ task.frame = frame := by
  have member : id ∈ tasks.map Task.id := by
    by_contra out
    rw [placed.absent id out] at found
    cases found
  obtain ⟨task, inside, same⟩ := List.mem_map.mp member
  refine ⟨task, inside, same, ?_⟩
  rw [← same, placed.present task inside] at found
  exact Option.some.inj found

/-- When a frame shows what it owns: no resource is in two frames, and the log keeps to the
protocol of each. It is where its owner says, or closed, or has not been made. -/
theorem Sound.holders (sound : Sound P A s) {shows : ω → Nat → Prop}
    (shown : ∀ doing frame owner, A doing frame owner → ∀ r, shows frame r ↔ owner r ≠ none) :
    (∀ id id' frame frame' r, s.frames id = some frame → s.frames id' = some frame' → shows frame r → shows frame' r →
      id = id') ∧
    ∀ r, ∃ state, P.after r s.log = some state ∧
      ((∃ id doing frame owner, s.frames id = some frame ∧ A doing frame owner ∧ owner r = some state ∧ r < s.made) ∨
        (∀ id frame, s.frames id = some frame → ¬shows frame r) ∧
          state = if r < s.made then P.closed else P.fresh) := by
  obtain ⟨tasks, parties, placed, claims, shared, -⟩ := sound
  have symmetric : Std.Symm fun one other : Task ω κ φ ε ς => ∀ r, one.owner r = none ∨ other.owner r = none :=
    ⟨fun _ _ disjoint r => (disjoint r).symm⟩
  have apart := (List.pairwise_map.mp shared.unshared).forall
  refine ⟨fun id id' frame frame' r found found' here there => ?_, fun r => ?_⟩
  · obtain ⟨task, inside, rfl, rfl⟩ := placed.task found
    obtain ⟨task', inside', rfl, rfl⟩ := placed.task found'
    have owns := (shown _ _ _ (claims task inside) r).mp here
    have owns' := (shown _ _ _ (claims task' inside') r).mp there
    by_contra different
    rcases apart inside inside' (by rintro rfl; exact different rfl) r with none | none
    · exact owns none
    · exact owns' none
  · by_cases free : ∀ task ∈ tasks, task.owner r = none
    · refine ⟨_, shared.rest r (by simpa using free), .inr ⟨fun id frame found here => ?_, rfl⟩⟩
      obtain ⟨task, inside, rfl, rfl⟩ := placed.task found
      exact (shown _ _ _ (claims task inside) r).mp here (free task inside)
    · simp only [not_forall] at free
      obtain ⟨task, inside, owns⟩ := free
      obtain ⟨state, owns⟩ := Option.ne_none_iff_exists'.mp owns
      have made_before : r < s.made := by
        by_contra above
        rw [shared.bounded _ (List.mem_map_of_mem inside) r (by omega)] at owns
        cases owns
      exact ⟨state, shared.owned _ (List.mem_map_of_mem inside) r state owns,
        .inl ⟨task.id, task.doing, task.frame, task.owner, placed.present task inside, claims task inside,
          owns, made_before⟩⟩

/-- And what the frames show is what has been made and not closed, if nobody keeps what is
closed. -/
theorem Sound.ledger (sound : Sound P A s) {shows : ω → Nat → Prop}
    (shown : ∀ doing frame owner, A doing frame owner → ∀ r, shows frame r ↔ owner r ≠ none)
    (opened : ∀ doing frame owner, A doing frame owner → ∀ r state, owner r = some state →
      state ≠ P.fresh ∧ state ≠ P.closed) (ends : P.closed ≠ P.fresh) (r : Nat) :
    ∃ state, P.after r s.log = some state ∧ (state = P.fresh ↔ s.made ≤ r) ∧
      ((∃ id frame, s.frames id = some frame ∧ shows frame r) ↔ r < s.made ∧ state ≠ P.closed) := by
  obtain ⟨state, after, ⟨id, doing, frame, owner, found, claim, owned, old⟩ | ⟨free, rest⟩⟩ := (sound.holders shown).2 r
  · obtain ⟨made, notClosed⟩ := opened _ _ _ claim r state owned
    have has : shows frame r := (shown _ _ _ claim r).mpr (by simp [owned])
    exact ⟨state, after, iff_of_false made (by omega), iff_of_true ⟨id, frame, found, has⟩ ⟨old, notClosed⟩⟩
  · refine ⟨state, after, ?_, iff_of_false (fun ⟨id, frame, found, has⟩ => free id frame found has) ?_⟩
    · by_cases made : r < s.made
      · exact iff_of_false (by rw [rest, if_pos made]; exact ends) (by omega)
      · exact iff_of_true (rest.trans (if_neg made)) (by omega)
    · rintro ⟨made, notClosed⟩
      exact notClosed (rest.trans (if_pos made))

end

end Await.General.Tasks
