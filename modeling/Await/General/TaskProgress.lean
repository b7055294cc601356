import Await.General.Tasks

/-! How all threads come to rest as long as no packet comes: they run on, and the system
leaves every operation pending that it can leave pending. -/

namespace Await.General.TaskProgress
open Tasks Transition Resources

variable {ω κ φ ρ ε ς : Type} {C : Code ω κ φ ρ ε} {P : Protocol (Entry ε) ς} {A : Claim ω κ φ ε ς}
  {rank : Doing κ φ ε → ω → Nat}

/-- What is on a thread does not wait for a packet, and is not left to nobody. -/
def Busy (s : State ω κ φ ε) : Prop :=
  ∀ stack ∈ s.threads, ∀ party ∈ stack, (∀ kind, party.doing ≠ .waiting kind) ∧ party.doing ≠ .abandoned

/-- A thread runs on, or the system gives an answer of some kind. -/
def Quiet (calm : ρ → Prop) : Choice ρ → Prop
  | .thread _ => True
  | .respond _ result => calm result
  | .packet .. => False

/-- There is an answer of the kind to every operation, and with each of them the coroutine
waits, or goes on to less. -/
structure Settles (C : Code ω κ φ ρ ε) (A : Claim ω κ φ ε ς) (rank : Doing κ φ ε → ω → Nat) (calm : ρ → Prop) :
    Prop where
  answered : ∀ {operation kind next frame owner}, A (.suspending operation kind next) frame owner →
    ∃ result, calm result ∧ (C.respond operation result).isSome
  lowers : ∀ {operation kind next frame owner result verdict}, A (.suspending operation kind next) frame owner →
    calm result → C.respond operation result = some verdict →
      verdict = .suspend ∧ rank (.waiting kind) frame < rank (.suspending operation kind next) frame ∨
      verdict = .resume ∧ rank (.run next) frame < rank (.suspending operation kind next) frame

/-- All threads have returned. -/
def AtRest (s : State ω κ φ ε) : Prop := ∀ stack ∈ s.threads, stack = []

/-- Some coroutine that is as claimed can end the program. -/
def Exits (C : Code ω κ φ ρ ε) (A : Claim ω κ φ ε ς) : Prop :=
  ∃ point frame owner made, A (.run point) frame owner ∧ C.exec point frame made = .exit

/-- What all coroutines have to do before their next operations, at the most. -/
def weight (rank : Doing κ φ ε → ω → Nat) (tasks : List (Task ω κ φ ε ς)) : Nat :=
  (tasks.map fun task => rank task.doing task.frame).sum

section
variable {s t : State ω κ φ ε} {i id : Nat} {rest : List (Party κ φ ε)}

/-- The top of a stack is replaced. -/
theorem Busy.set {top : Party κ φ ε} (busy : Busy s) (running : s.threads[i]? = some (top :: rest))
    (new : List (Party κ φ ε))
    (fine : ∀ party ∈ new, (∀ kind, party.doing ≠ .waiting kind) ∧ party.doing ≠ .abandoned)
    (threads : t.threads = s.threads.set i (new ++ rest)) : Busy t := by
  intro stack member party inside
  rw [threads] at member
  rcases List.mem_or_eq_of_mem_set member with before | rfl
  · exact busy stack before party inside
  · rcases List.mem_append.mp inside with first | later
    · exact fine party first
    · exact busy _ (List.mem_of_getElem? running) party (List.mem_cons_of_mem _ later)

theorem Busy.advance {top : Party κ φ ε} (busy : Busy s) (running : s.threads[i]? = some (top :: rest))
    (advanced : s.advance C i (top :: rest) = some t) : Busy t := by
  obtain ⟨id, doing⟩ := top
  cases doing with
  | waiting kind => cases advanced
  | suspending operation kind next => cases advanced
  | abandoned => cases advanced
  | calling next =>
    obtain rfl := Option.some.inj advanced
    exact busy.set running [⟨id, .run next⟩] (by simp) rfl
  | destroying =>
    obtain rfl := Option.some.inj advanced
    unfold State.access
    split
    · exact busy.set running [] (by simp) rfl
    · exact busy
  | run point =>
    obtain rfl := Option.some.inj advanced
    unfold State.access
    split
    next frame present =>
      simp only [State.perform]
      split
      next next' _ => exact busy.set running [⟨id, .run next'⟩] (by simp) rfl
      next operation kind next' _ => exact busy.set running [⟨id, .suspending operation kind next'⟩] (by simp) rfl
      next entry next' _ => exact busy.set running [⟨s.born, .run entry⟩, ⟨id, .calling next'⟩] (by simp) rfl
      next => exact busy.set running [] (by simp) rfl
      next => exact busy.set running [] (by simp) rfl
      next => exact busy
    next => exact busy

theorem Busy.answer {operation : ε} {kind : φ} {next : κ} (verdict : Verdict) (busy : Busy s)
    (running : s.threads[i]? = some (⟨id, .suspending operation kind next⟩ :: rest)) :
    Busy (s.answer C i id operation kind next rest verdict) := by
  unfold State.answer State.access
  split
  · cases verdict with
    | resume => exact busy.set running [⟨id, .run next⟩] (by simp) rfl
    | suspend => exact busy.set running [] (by simp) rfl
    | refuse code => exact busy.set running [⟨id, .run (C.entry kind code 0)⟩] (by simp) rfl
    | destroy => exact busy.set running [⟨id, .destroying⟩] (by simp) rfl
    | exit => exact busy
  · exact busy

theorem Busy.step {choice : Choice ρ} (busy : Busy s) (stepped : Tasks.step C s choice = some t) : Busy t := by
  obtain ⟨-, taken⟩ := step_taken stepped
  cases taken with
  | thread running advanced => exact busy.advance running advanced
  | respond running responded => exact busy.answer _ running
  | packet taken =>
    intro stack member party inside
    rcases List.mem_append.mp member with before | new
    · exact busy stack before party inside
    · obtain rfl := List.mem_singleton.mp new
      obtain rfl := List.mem_singleton.mp inside
      simp

theorem launch_busy {frame : ω} {point : κ} : Busy (State.launch frame point : State ω κ φ ε) := by
  simp [Busy, State.launch]

variable {tasks : List (Task ω κ φ ε ς)} {calm : ρ → Prop} {choice : Choice ρ} {near : κ → ω → Prop}

theorem weight_perm {tasks' : List (Task ω κ φ ε ς)} (same : tasks.Perm tasks') :
    weight rank tasks = weight rank tasks' :=
  (same.map _).sum_eq

/-- What a coroutine has been led on to weighs less. -/
theorem leads_less {task : Task ω κ φ ε ς} {later : List (Task ω κ φ ε ς)} (same : tasks.Perm (task :: later))
    (leads : Leads P A rank (rank task.doing task.frame) later t) :
    ∃ tasks', Safe P A tasks' t ∧ weight rank tasks' < weight rank tasks := by
  obtain ⟨now, safe, lower⟩ := leads
  refine ⟨_, safe, ?_⟩
  rw [weight_perm same]
  simp only [weight, List.map_append, List.sum_append, List.map_cons, List.sum_cons]
  omega

/-- A quiet step ends the program from a point of the code, or there is less to do. -/
theorem quiet_step (rules : Undisturbed C P A rank) (settling : Settles C A rank calm) (safe : Safe P A tasks s)
    (quiet : Quiet calm choice) (stepped : step C s choice = some t) :
    t.exited = true ∧ Sound P A t ∧ Exits C A ∨
      t.exited = false ∧ ∃ tasks', Safe P A tasks' t ∧ weight rank tasks' < weight rank tasks := by
  obtain ⟨goes_on, taken⟩ := step_taken stepped
  cases taken with
  | packet taken => cases quiet
  | thread running advanced =>
    obtain ⟨frame, owner, later, same, regroup⟩ := safe.focus running
    have safe := safe.perm same
    rcases safe.thread rules regroup advanced with ⟨point, doing, move, rfl⟩ | ⟨exited, leads⟩
    · exact .inl ⟨rfl, ⟨_, safe.exit⟩, point, frame, owner, s.made, doing ▸ safe.claim, move⟩
    · exact .inr ⟨exited.trans goes_on, leads_less same leads⟩
  | respond running responded =>
    obtain ⟨frame, owner, later, same, regroup⟩ := safe.focus running
    have safe := safe.perm same
    rcases settling.lowers safe.claim quiet responded with ⟨rfl, lower⟩ | ⟨rfl, lower⟩
    · refine .inr ⟨?_, leads_less same (Safe.leads (safe.suspend rules regroup responded) lower)⟩
      simp [State.answer, State.access, safe.present, goes_on]
    · refine .inr ⟨?_, leads_less same (Safe.leads (safe.resume rules regroup responded) lower)⟩
      simp [State.answer, State.access, safe.present, goes_on]

/-- A thread that has not returned can run on, or has an answer to get. -/
theorem quiet_choice (settling : Settles C A rank calm) (busy : Busy s) (safe : Safe P A tasks s)
    (goes_on : s.exited = false) (moving : ¬AtRest s) : ∃ choice, Quiet calm choice ∧ (step C s choice).isSome := by
  obtain ⟨stack, member, occupied⟩ : ∃ stack ∈ s.threads, stack ≠ [] := by
    simpa [AtRest] using moving
  obtain ⟨i, running⟩ := List.getElem?_of_mem member
  obtain ⟨⟨id, doing⟩, rest, rfl⟩ := List.exists_cons_of_ne_nil occupied
  cases doing with
  | waiting kind => exact absurd rfl ((busy _ member _ (List.mem_cons_self ..)).1 kind)
  | abandoned => exact absurd rfl (busy _ member _ (List.mem_cons_self ..)).2
  | run point => exact ⟨.thread i, trivial, by simp [step, goes_on, running, State.advance]⟩
  | calling next => exact ⟨.thread i, trivial, by simp [step, goes_on, running, State.advance]⟩
  | destroying => exact ⟨.thread i, trivial, by simp [step, goes_on, running, State.advance]⟩
  | suspending operation kind next =>
    obtain ⟨frame, owner, later, same, -⟩ := safe.focus running
    obtain ⟨result, calm, responded⟩ := settling.answered (safe.perm same).claim
    exact ⟨.respond i result, calm, by simp [step, goes_on, running, responded]⟩

/-- By the weight: the threads return, or they end the program. -/
theorem comes_to_rest (rules : Undisturbed C P A rank) (settling : Settles C A rank calm) (sound : Sound P A s)
    (busy : Busy s) : Inevitable (step C) (Quiet calm)
      (fun t => Sound P A t ∧ (AtRest t ∨ t.exited = true ∧ (s.exited = true ∨ Exits C A))) s := by
  obtain ⟨tasks, safe⟩ := sound
  refine inevitable_of_less (fun n t => Busy t ∧ (t.exited = true → s.exited = true) ∧
    ∃ tasks, Safe P A tasks t ∧ weight rank tasks = n) ?_ ⟨busy, id, tasks, safe, rfl⟩
  rintro n t ⟨busy, ended, tasks, safe, rfl⟩
  by_cases resting : AtRest t
  · exact .inl ⟨⟨tasks, safe⟩, .inl resting⟩
  cases goes_on : t.exited with
  | true => exact .inl ⟨⟨tasks, safe⟩, .inr ⟨rfl, .inl (ended goes_on)⟩⟩
  | false =>
    refine .inr ⟨quiet_choice settling busy safe goes_on resting, fun choice u quiet stepped => ?_⟩
    rcases quiet_step rules settling safe quiet stepped with ⟨exited, sound, exits⟩ | ⟨going, tasks', safe', lower⟩
    · exact .inl ⟨sound, .inr ⟨exited, .inr exits⟩⟩
    · exact .inr ⟨_, lower, busy.step stepped, by simp [going], tasks', safe', rfl⟩

/-! ### The end of the program -/

/-- What a thread does leads to the end of the program. -/
def Ends (near : κ → ω → Prop) : Doing κ φ ε → ω → Prop
  | .run point, frame => near point frame
  | .calling next, frame => near next frame
  | _, _ => False

/-- Some thread is about to end the program. -/
def Ending (near : κ → ω → Prop) (s : State ω κ φ ε) : Prop :=
  ∃ party ∈ s.threads.flatten, ∃ frame, s.frames party.task = some frame ∧ Ends near party.doing frame

/-- The move leads away from the end. -/
def Averts (near : κ → ω → Prop) : Move ω κ φ ε → Prop
  | .goto frame _ next => ¬near next frame
  | .spawn frame child entry next => ¬near entry child ∧ ¬near next frame
  | .exit => False
  | _ => True

/-- Without a packet, only what is near the end comes to it. -/
structure Foreseen (C : Code ω κ φ ρ ε) (A : Claim ω κ φ ε ς) (near : κ → ω → Prop) : Prop where
  run : ∀ {point frame owner made}, A (.run point) frame owner → ¬near point frame →
    Averts near (C.exec point frame made)
  resume : ∀ {operation kind next frame owner result}, A (.suspending operation kind next) frame owner →
    C.respond operation result = some .resume → ¬near next frame

/-- The claim, of coroutines that are not near the end. -/
def Far (A : Claim ω κ φ ε ς) (near : κ → ω → Prop) : Claim ω κ φ ε ς :=
  fun doing frame owner => A doing frame owner ∧ ¬Ends near doing frame

theorem far_passes {owner : Nat → Option ς} {entries : List (Entry ε)} {doing : Doing κ φ ε} {frame : ω}
    (passes : Passes P A owner entries doing frame) (far : ¬Ends near doing frame) :
    Passes P (Far A near) owner entries doing frame := by
  obtain ⟨owner', claim, carries⟩ := passes
  exact ⟨owner', ⟨claim, far⟩, carries⟩

theorem far_rules (rules : Undisturbed C P A rank) (foreseen : Foreseen C A near) :
    Undisturbed C P (Far A near) rank where
  run := by
    rintro point frame owner made ⟨claim, far⟩ unmade
    have lawful := rules.run claim unmade
    have averts : Averts near (C.exec point frame made) := foreseen.run claim far
    cases move : C.exec point frame made with
    | goto frame' calls next =>
      rw [move] at lawful averts
      cases lawful with
      | goto passes lower => exact .goto (far_passes passes averts) lower
    | await frame' calls operation kind next =>
      rw [move] at lawful averts
      cases lawful with
      | await passes lower => exact .await (far_passes passes id) lower
    | spawn frame' child entry next =>
      rw [move] at lawful averts
      cases lawful with
      | spawn parent called splits lower => exact .spawn ⟨parent, averts.2⟩ ⟨called, averts.1⟩ splits lower
    | leave frame' =>
      rw [move] at lawful
      cases lawful with
      | leave passes lower => exact .leave (far_passes passes id) lower
    | finish =>
      rw [move] at lawful
      cases lawful with
      | finish closes positive => exact .finish closes positive
    | exit => exact .exit
  returned := by
    rintro next frame owner ⟨claim, far⟩
    exact ⟨far_passes (rules.returned claim).1 far, (rules.returned claim).2⟩
  destroyed := fun claim => rules.destroyed claim.1
  resume := fun claim responded => far_passes (rules.resume claim.1 responded) (foreseen.resume claim.1 responded)
  suspend := fun claim responded => far_passes (rules.suspend claim.1 responded) id

theorem Settles.far (settling : Settles C A rank calm) (near : κ → ω → Prop) : Settles C (Far A near) rank calm where
  answered claim := settling.answered claim.1
  lowers claim := settling.lowers claim.1

theorem far_safe (safe : Safe P (Far A near) tasks s) : Safe P A tasks s where
  parties := safe.parties
  placed := safe.placed
  claims task member := (safe.claims task member).1
  shared := safe.shared
  faultless := safe.faultless

/-- Where nothing is near the end, the program does not come to its end. -/
theorem Foreseen.never (foreseen : Foreseen C A near) : ¬Exits C (Far A near) := by
  rintro ⟨point, frame, owner, made, ⟨claim, far⟩, move⟩
  have averts : Averts near (C.exec point frame made) := foreseen.run claim far
  rw [move] at averts
  exact averts

/-- Nobody else is near the end. -/
theorem far_sound (sound : Sound P A s) (far : ¬Ending near s) : Sound P (Far A near) s := by
  obtain ⟨tasks, parties, placed, claims, shared, faultless⟩ := sound
  refine ⟨tasks, parties, placed, fun task member => ⟨claims task member, fun ends => ?_⟩, shared, faultless⟩
  have resting : ∀ party ∈ s.away, ¬Ends near party.doing task.frame := by
    intro party away
    rcases List.mem_append.mp away with left | waits
    · obtain ⟨id, -, rfl⟩ := List.mem_map.mp left
      exact not_false
    · obtain ⟨a, -, rfl⟩ := List.mem_map.mp waits
      exact not_false
  rcases List.mem_append.mp (parties.symm.subset (List.mem_map_of_mem member)) with elsewhere | running
  · exact resting _ elsewhere ends
  · exact far ⟨_, running, task.frame, placed.present task member, ends⟩

/-- All threads return, unless the program has ended or one of them is about to end it. -/
theorem comes_to_rest_unless (rules : Undisturbed C P A rank) (settling : Settles C A rank calm)
    (foreseen : Foreseen C A near) (sound : Sound P A s) (busy : Busy s) : Inevitable (step C) (Quiet calm)
      (fun t => Sound P A t ∧ (AtRest t ∨ t.exited = true ∧ (s.exited = true ∨ Ending near s))) s := by
  by_cases ending : Ending near s
  · refine (comes_to_rest rules settling sound busy).mono ?_
    rintro t ⟨sound, resting | ⟨exited, -⟩⟩
    · exact ⟨sound, .inl resting⟩
    · exact ⟨sound, .inr ⟨exited, .inr ending⟩⟩
  · have far := comes_to_rest (far_rules rules foreseen) (settling.far near) (far_sound sound ending) busy
    refine far.mono ?_
    rintro t ⟨⟨tasks, safe⟩, resting | ⟨exited, before | exits⟩⟩
    · exact ⟨⟨tasks, far_safe safe⟩, .inl resting⟩
    · exact ⟨⟨tasks, far_safe safe⟩, .inr ⟨exited, .inl before⟩⟩
    · exact absurd exits foreseen.never

/-! ### What has to be done -/

/-- A call of the kind has been made, or some thread has it still to do. -/
def Owed (due : Doing κ φ ε → Prop) (did : ε → Prop) (s : State ω κ φ ε) : Prop :=
  (∃ party ∈ s.threads.flatten, due party.doing) ∨ ∃ call, did call ∧ .call call ∈ s.log

/-- The move makes a call of the kind, or what follows has it still to do. -/
def Discharges (due : Doing κ φ ε → Prop) (did : ε → Prop) : Move ω κ φ ε → Prop
  | .goto _ calls next => due (.run next) ∨ ∃ call ∈ calls, did call
  | .await _ calls _ _ _ => ∃ call ∈ calls, did call
  | .spawn _ _ entry next => due (.run entry) ∨ due (.calling next)
  | .leave _ | .finish => False
  | .exit => True

/-- What has it to do does it before its next operation. -/
structure Dutiful (C : Code ω κ φ ρ ε) (A : Claim ω κ φ ε ς) (due : Doing κ φ ε → Prop) (did : ε → Prop) : Prop where
  run : ∀ {point frame owner made}, A (.run point) frame owner → due (.run point) →
    Discharges due did (C.exec point frame made)
  returned : ∀ {next}, due (.calling next) → due (.run next)
  running : ∀ {doing}, due doing → (∃ point, doing = .run point) ∨ ∃ next, doing = .calling next

variable {due : Doing κ φ ε → Prop} {did : ε → Prop}

/-- The top of a stack is replaced, and what it has to do is done or handed on. -/
theorem Owed.set {top : Party κ φ ε} (owed : Owed due did s) (running : s.threads[i]? = some (top :: rest))
    (new : List (Party κ φ ε)) (threads : t.threads = s.threads.set i (new ++ rest)) (log : s.log ⊆ t.log)
    (onward : due top.doing → (∃ party ∈ new, due party.doing) ∨ ∃ call, did call ∧ .call call ∈ t.log) :
    Owed due did t := by
  rcases owed with ⟨party, inside, late⟩ | ⟨call, made, logged⟩
  · obtain ⟨others, whole, replaced⟩ := set_flatten running
    have kept : ∀ party ∈ new ++ rest ++ others, party ∈ t.threads.flatten := by
      rw [threads]
      exact fun party member => (replaced _).symm.subset member
    rcases List.mem_cons.mp (whole.subset inside) with rfl | elsewhere
    · refine (onward late).imp_left ?_
      rintro ⟨party, first, late⟩
      exact ⟨party, kept party (by simp [first]), late⟩
    · refine .inl ⟨party, kept party ?_, late⟩
      rw [List.append_assoc]
      exact List.mem_append_right _ elsewhere
  · exact .inr ⟨call, made, log logged⟩

theorem Owed.perform {point : κ} {frame : ω} {owner : Nat → Option ς} (dutiful : Dutiful C A due did)
    (owed : Owed due did s) (running : s.threads[i]? = some (⟨id, .run point⟩ :: rest))
    (claim : A (.run point) frame owner) : Owed due did (s.perform C i id point rest frame) := by
  have onward : due (.run point) → Discharges due did (C.exec point frame s.made) := dutiful.run claim
  simp only [State.perform]
  split
  next frame' calls next move =>
    rw [move] at onward
    refine owed.set running [⟨id, .run next⟩] rfl (List.subset_append_left ..) fun late => ?_
    rcases onward late with later | ⟨call, member, made⟩
    · exact .inl ⟨_, List.mem_singleton_self _, later⟩
    · exact .inr ⟨call, made, List.mem_append_right _ (List.mem_map_of_mem member)⟩
  next frame' calls operation kind next move =>
    rw [move] at onward
    refine owed.set running [⟨id, .suspending operation kind next⟩] rfl (List.subset_append_left ..) fun late => ?_
    obtain ⟨call, member, made⟩ := onward late
    exact .inr ⟨call, made, List.mem_append_right _ (List.mem_map_of_mem member)⟩
  next frame' child entry next move =>
    rw [move] at onward
    refine owed.set running [⟨s.born, .run entry⟩, ⟨id, .calling next⟩] rfl (List.Subset.refl _) fun late => .inl ?_
    rcases onward late with called | later
    · exact ⟨_, List.mem_cons_self .., called⟩
    · exact ⟨_, List.mem_cons_of_mem _ (List.mem_singleton_self _), later⟩
  next frame' move =>
    rw [move] at onward
    exact owed.set running [] rfl (List.Subset.refl _) fun late => (onward late).elim
  next move =>
    rw [move] at onward
    exact owed.set running [] rfl (List.subset_append_left ..) fun late => (onward late).elim
  next move => exact owed

theorem Owed.answer {operation : ε} {kind : φ} {next : κ} (verdict : Verdict) (dutiful : Dutiful C A due did)
    (owed : Owed due did s) (running : s.threads[i]? = some (⟨id, .suspending operation kind next⟩ :: rest)) :
    Owed due did (s.answer C i id operation kind next rest verdict) := by
  have idle : ¬due (.suspending operation kind next) := by
    intro late
    rcases dutiful.running late with ⟨point, same⟩ | ⟨next, same⟩ <;> cases same
  unfold State.answer State.access
  split
  · cases verdict with
    | exit => exact owed
    | resume => exact owed.set running [⟨id, .run next⟩] rfl (List.subset_append_left ..) (absurd · idle)
    | suspend => exact owed.set running [] rfl (List.subset_append_left ..) (absurd · idle)
    | refuse code =>
      exact owed.set running [⟨id, .run (C.entry kind code 0)⟩] rfl (List.subset_append_left ..) (absurd · idle)
    | destroy => exact owed.set running [⟨id, .destroying⟩] rfl (List.subset_append_left ..) (absurd · idle)
  · exact owed

theorem Owed.advance {top : Party κ φ ε} (dutiful : Dutiful C A due did) (sound : Sound P A s)
    (owed : Owed due did s) (running : s.threads[i]? = some (top :: rest))
    (advanced : s.advance C i (top :: rest) = some t) : Owed due did t := by
  obtain ⟨id, doing⟩ := top
  have member : (⟨id, doing⟩ : Party κ φ ε) ∈ s.away ++ s.threads.flatten :=
    List.mem_append_right _ (List.mem_flatten.mpr ⟨_, List.mem_of_getElem? running, List.mem_cons_self ..⟩)
  obtain ⟨frame, owner, present, claim⟩ := sound.claims member
  cases doing with
  | waiting kind => cases advanced
  | suspending operation kind next => cases advanced
  | abandoned => cases advanced
  | calling next =>
    obtain rfl := Option.some.inj advanced
    exact owed.set running [⟨id, .run next⟩] rfl (List.Subset.refl _) fun late =>
      .inl ⟨_, List.mem_singleton_self _, dutiful.returned late⟩
  | destroying =>
    simp only [State.advance, State.access, present, Option.some.injEq] at advanced
    subst advanced
    refine owed.set running [] rfl (List.subset_append_left ..) fun late => ?_
    rcases dutiful.running late with ⟨point, same⟩ | ⟨next, same⟩ <;> cases same
  | run point =>
    simp only [State.advance, State.access, present, Option.some.injEq] at advanced
    subst advanced
    exact owed.perform dutiful running claim

theorem Owed.step {choice : Choice ρ} (dutiful : Dutiful C A due did) (sound : Sound P A s)
    (owed : Owed due did s) (stepped : Tasks.step C s choice = some t) : Owed due did t := by
  obtain ⟨-, taken⟩ := step_taken stepped
  cases taken with
  | thread running advanced => exact owed.advance dutiful sound running advanced
  | respond running responded => exact owed.answer _ dutiful running
  | packet taken =>
    refine owed.imp_left ?_
    rintro ⟨party, inside, late⟩
    exact ⟨party, by simp [inside], late⟩

theorem launch_owed {frame : ω} {point : κ} (late : due (.run point)) : Owed due did (State.launch frame point) :=
  .inl ⟨⟨0, .run point⟩, by simp [State.launch], late⟩

/-- With all that holds of the state, a step keeps it. -/
theorem Owed.kept (verified : Verified C P A rank) (dutiful : Dutiful C A due did) {choice : Choice ρ}
    (holds : Sound P A s ∧ Owed due did s) (stepped : Tasks.step C s choice = some t) :
    Sound P A t ∧ Owed due did t :=
  ⟨holds.1.step verified stepped, holds.2.step dutiful holds.1 stepped⟩

theorem Owed.along {choices : List (Choice ρ)} (verified : Verified C P A rank) (dutiful : Dutiful C A due did)
    (sound : Sound P A s) (owed : Owed due did s) (path : run (Tasks.step C) s choices = some t) : Owed due did t :=
  (run_invariant (fun _ _ _ holds stepped => Owed.kept verified dutiful holds stepped) path ⟨sound, owed⟩).2

/-- At rest it has been done. -/
theorem Owed.done (owed : Owed due did s) (resting : AtRest s) : ∃ call, did call ∧ .call call ∈ s.log := by
  rcases owed with ⟨party, inside, -⟩ | made
  · have idle : s.threads.flatten = [] := List.flatten_eq_nil_iff.mpr resting
    simp [idle] at inside
  · exact made

/-- All threads return, unless the program ends, and no thread leaves undone what it has to do. -/
theorem comes_to_rest_done (verified : Verified C P A rank) (settling : Settles C A rank calm)
    (foreseen : Foreseen C A near) (dutiful : Dutiful C A due did) (sound : Sound P A s) (busy : Busy s)
    (owed : Owed due did s) : Inevitable (step C) (Quiet calm)
      (fun t => Sound P A t ∧ AtRest t ∧ (∃ call, did call ∧ .call call ∈ t.log) ∨
        t.exited = true ∧ (s.exited = true ∨ Ending near s)) s := by
  have rests := comes_to_rest_unless verified.toUndisturbed settling foreseen sound busy
  refine (rests.invariant (fun _ _ _ holds stepped => Owed.kept verified dutiful holds stepped) ⟨sound, owed⟩).mono ?_
  rintro t ⟨⟨sound, resting | ended⟩, -, owed⟩
  · exact .inl ⟨sound, resting, owed.done resting⟩
  · exact .inr ended

end

end Await.General.TaskProgress
