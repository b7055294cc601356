import Await.SuperLean.Reader
import Mathlib.Algebra.BigOperators.Fin
import Mathlib.Algebra.Order.BigOperators.Group.Finset

/-! How the readers end. Each makes one call of the tracker, with nothing in flight, and is
gone after it; the last call stops the pool. -/

namespace Await.SuperLean.Shutdown
open General.Callback General.Transition Pal Reader

abbrev Log := List (Entry Point Call)

def isTrackerCall : Entry Point Call → Bool
  | .call .completed | .call (.failed _) => true
  | _ => false

/-- How often a reader has called `tracker.completed` or `tracker.failed`. -/
def trackerCalls (log : Log) : Nat := log.countP isTrackerCall

@[simp] theorem trackerCalls_append (log more : Log) :
    trackerCalls (log ++ more) = trackerCalls log + trackerCalls more :=
  List.countP_append

/-! ### One reader -/

/-- The one call of the tracker is made on the way to `cleanMe`. -/
def release : Assertion TcpReader Point Lambda Call where
  working
    | .point .cleanMe, _, log => trackerCalls log = 1
    | .point _, _, log => trackerCalls log = 0
    | .operation _ _ next, _, log => trackerCalls log = 0 ∧ next ≠ .cleanMe
  waiting _ _ _ log := trackerCalls log = 0
  ended object log := object = none ∧ trackerCalls log = 1

section
variable {r r' : TcpReader} {log : Log} {point next : Point} {call : Call} {calls : List Call}
  {kind : Lambda} {sync : Bool} {result : WsaResult}

theorem release_goto (holds : release.working (.point point) r log)
    (move : exec point r = .goto r' calls next) :
    release.working (.point next) r' (log ++ calls.map Entry.call) := by
  rcases exec_goto move with ⟨ec, rfl, rfl, rfl, ⟨-, rfl⟩ | ⟨-, rfl⟩⟩ |
    ⟨ec, bytesRead, rfl, rfl, rfl, ⟨-, rfl⟩ | ⟨-, rfl⟩⟩ | ⟨bytesRead, rfl, -, rfl, rfl, rfl⟩ |
    ⟨ec, rfl, rfl, rfl, rfl⟩ | ⟨rfl, rfl, rfl, rfl⟩ <;>
  simpa [release, trackerCalls, isTrackerCall] using holds

theorem release_start (holds : release.working (.point point) r log)
    (move : exec point r = .start r' call kind next none) : release.working (.operation call kind next) r' log := by
  rcases (exec_start move).2 with ⟨rfl, rfl, rfl, rfl, rfl⟩ | ⟨len, rfl, rfl, rfl, rfl, rfl⟩ |
    ⟨bytesRead, rfl, -, rfl, rfl, rfl, rfl⟩ <;>
  exact ⟨holds, by simp⟩

/-- The system answers socket operations, and those are not calls of the tracker. -/
theorem trackerCalls_answer {outcome : Outcome} (responded : respond sync call result = some outcome) :
    trackerCalls [.call call, .result outcome] = 0 := by
  cases call <;> first | rfl | cases responded

theorem release_verified (sync : Bool) : Verified (code sync) (fun _ _ => True) release where
  leaves := code_leaves sync
  goto := release_goto
  start := release_start
  post _ move := absurd move ((exec_rest _ _).1 _ _ _ _)
  leave _ move := absurd move ((exec_rest _ _).2.1 _)
  delete holds move := by
    obtain rfl := (exec_rest _ _).2.2 move
    exact ⟨rfl, holds⟩
  now := by
    rintro call kind next r log result bytes ⟨none, other⟩ responded -
    have silent := trackerCalls_answer responded
    cases next with
    | cleanMe => exact absurd rfl other
    | _ => simp [release, none, silent]
  later := by
    rintro call kind next r log result ⟨none, -⟩ responded
    simp [release, none, trackerCalls_answer responded]
  failed := by
    rintro call kind next r log result ec ⟨none, -⟩ responded
    have silent := trackerCalls_answer responded
    cases kind <;> simp [release, code, invoke, none, silent]
  packet := by
    intro kind posted r log ec bytes holds _
    have none : trackerCalls log = 0 := holds
    have silent : ∀ point, trackerCalls [.packet point] = 0 := fun _ => rfl
    cases kind <;> simp [release, code, invoke, none, silent]

/-- What one reader keeps to: at most one call of the tracker, with nothing in flight from
then on, and no access after its deletion. -/
structure Released {η σ : Type} (s : ReaderState η σ) : Prop where
  once : trackerCalls s.log ≤ 1
  idle : trackerCalls s.log = 1 → s.attached = []
  untouched : s.fault = false

theorem released_of_sound {η σ : Type} {S : Supply Lambda η σ} {s : ReaderState η σ}
    (sound : Sound (code sync) S release s) : Released s := by
  have faultless := sound.faultless
  cases sound.phase with
  | waiting a r attached present others holds =>
    have none : trackerCalls s.log = 0 := holds
    exact ⟨by omega, by omega, faultless⟩
  | ended attached others holds => exact ⟨holds.2.le, fun _ => attached, faultless⟩
  | working i stack pending r attached present running works others holds =>
    refine ⟨?_, fun _ => attached, faultless⟩
    cases pending with
    | operation call kind next =>
      have none : trackerCalls s.log = 0 := holds.1
      omega
    | point point =>
      cases point with
      | cleanMe =>
        have one : trackerCalls s.log = 1 := holds
        omega
      | _ =>
        have none : trackerCalls s.log = 0 := holds
        omega

end

/-! ### All readers -/

/-- The tracker hears the calls among these entries, in order. -/
def hear (tracker : WorkTracker) (entries : Log) : WorkTracker :=
  entries.foldl (fun tracker entry =>
    match entry with
    | .call .completed => tracker.completed
    | .call (.failed ec) => tracker.failed ec
    | _ => tracker) tracker

/-- The readers of `run`, which share one tracker. -/
structure World (nReaders : Nat) (η σ : Type) where
  readers : Fin nReaders → ReaderState η σ
  trk : WorkTracker

section
variable {nReaders : Nat} {η σ : Type}

/-- One reader takes a step of its own; the tracker hears what it calls in it. -/
def step (machine : ReaderState η σ → Choice WsaResult → Option (ReaderState η σ))
    (w : World nReaders η σ) (choice : Fin nReaders × Choice WsaResult) : Option (World nReaders η σ) := do
  let before := w.readers choice.1
  let reader ← machine before choice.2
  some {
    readers := Function.update w.readers choice.1 reader
    trk := hear w.trk (reader.log.drop before.log.length) }

/-- `WorkTracker trk(nReaders);` and the readers about to start. -/
def start (nReaders : Nat) (reader : ReaderState η σ) : World nReaders η σ where
  readers _ := reader
  trk := { workCount := nReaders }

/-- The calls of the tracker made by all readers together. -/
def allCalls (w : World nReaders η σ) : Nat := ∑ i, trackerCalls (w.readers i).log

/-- The tracker has counted every call, and has stopped the pool at the last one. -/
structure Counts (w : World nReaders η σ) : Prop where
  work : w.trk.workCount = nReaders - (allCalls w : Int)
  stops : w.trk.stops = if allCalls w = nReaders then 1 else 0

theorem hear_eq (tracker : WorkTracker) (entries : Log) :
    hear tracker entries = WorkTracker.releaseWork^[trackerCalls entries] tracker := by
  induction entries generalizing tracker with
  | nil => rfl
  | cons entry entries ih =>
    unfold hear at ih ⊢
    rw [List.foldl_cons, ih]
    cases entry with
    | call e =>
      cases e <;> simp [trackerCalls, isTrackerCall, List.countP_cons, WorkTracker.completed, WorkTracker.failed]
    | result outcome => simp [trackerCalls, isTrackerCall]
    | packet point => simp [trackerCalls, isTrackerCall]

variable {w w' : World nReaders η σ} {i : Fin nReaders} {reader : ReaderState η σ} {more : Log}

theorem allCalls_update (grown : reader.log = (w.readers i).log ++ more) (trk : WorkTracker) :
    allCalls ⟨Function.update w.readers i reader, trk⟩ = allCalls w + trackerCalls more := by
  have each : ∀ j, trackerCalls (Function.update w.readers i reader j).log =
      trackerCalls (w.readers j).log + if j = i then trackerCalls more else 0 := by
    intro j
    by_cases same : j = i
    · subst same
      simp [grown]
    · simp [same]
  calc allCalls ⟨Function.update w.readers i reader, trk⟩
      = ∑ j, (trackerCalls (w.readers j).log + if j = i then trackerCalls more else 0) :=
        Finset.sum_congr rfl fun j _ => each j
    _ = allCalls w + ∑ j, if j = i then trackerCalls more else 0 := Finset.sum_add_distrib
    _ = allCalls w + trackerCalls more := by simp

theorem allCalls_le (once : ∀ i, trackerCalls (w.readers i).log ≤ 1) : allCalls w ≤ nReaders := by
  calc allCalls w
      ≤ ∑ _ : Fin nReaders, 1 := Finset.sum_le_sum fun i _ => once i
    _ = nReaders := by simp

/-- When as many calls have been made as there are readers, each has made its own. -/
theorem all_called (once : ∀ i, trackerCalls (w.readers i).log ≤ 1) (all : allCalls w = nReaders) (i : Fin nReaders) :
    trackerCalls (w.readers i).log = 1 := by
  by_contra missing
  have less : allCalls w < ∑ _ : Fin nReaders, 1 := by
    apply Finset.sum_lt_sum (fun j _ => once j)
    have := once i
    exact ⟨i, Finset.mem_univ i, by omega⟩
  simp [all] at less

/-- One more call of the tracker, or none, as long as no reader calls twice. -/
theorem Counts.hear (counts : Counts w) (grown : reader.log = (w.readers i).log ++ more)
    (few : trackerCalls more ≤ 1)
    (bounded : allCalls w + trackerCalls more ≤ nReaders) :
    Counts ⟨Function.update w.readers i reader, Shutdown.hear w.trk more⟩ := by
  have calls := fun trk => allCalls_update grown trk
  rcases Nat.le_one_iff_eq_zero_or_eq_one.mp few with none | one
  · have same : Shutdown.hear w.trk more = w.trk := by rw [hear_eq, none, Function.iterate_zero_apply]
    rw [same]
    exact ⟨by rw [calls, none, Nat.add_zero, counts.work], by rw [calls, none, Nat.add_zero, counts.stops]⟩
  · have released : Shutdown.hear w.trk more = w.trk.releaseWork := by rw [hear_eq, one, Function.iterate_one]
    have work := counts.work
    have stops := counts.stops
    rw [one] at bounded
    rw [if_neg (by omega)] at stops
    rw [released]
    refine ⟨?_, ?_⟩
    · simp only [calls, one, WorkTracker.releaseWork, work]
      omega
    · simp only [calls, one, WorkTracker.releaseWork, work, stops]
      by_cases last : allCalls w + 1 = nReaders
      · rw [if_pos last, if_pos (by omega)]
      · rw [if_neg last, if_neg (by omega)]

/-- What all the readers and their tracker keep to. -/
structure Orderly (w : World nReaders η σ) : Prop where
  released : ∀ i, Released (w.readers i)
  stopOnce : w.trk.stops ≤ 1
  stopLast : w.trk.stops = 1 → ∀ i, trackerCalls (w.readers i).log = 1

variable {sync : Bool} {S : Supply Lambda η σ} {choices : List (Fin nReaders × Choice WsaResult)}

structure Inv (sync : Bool) (S : Supply Lambda η σ) (w : World nReaders η σ) : Prop where
  sound : ∀ i, Sound (code sync) S release (w.readers i)
  counts : Counts w

theorem Inv.step {choice : Fin nReaders × Choice WsaResult} (inv : Inv sync S w)
    (stepped : Shutdown.step (General.Callback.step (code sync) S) w choice = some w') : Inv sync S w' := by
  obtain ⟨i, choice⟩ := choice
  obtain ⟨reader, moved, rfl⟩ : ∃ reader, General.Callback.step (code sync) S (w.readers i) choice = some reader ∧
      ⟨Function.update w.readers i reader, hear w.trk (reader.log.drop (w.readers i).log.length)⟩ = w' := by
    simpa [Shutdown.step, Option.bind_eq_some_iff] using stepped
  obtain ⟨more, grown⟩ := step_log moved
  have sound := (inv.sound i).step (release_verified sync) (permitted_any _ _) moved
  have sounds : ∀ j, Sound (code sync) S release (Function.update w.readers i reader j) := by
    intro j
    by_cases same : j = i
    · subst same
      simpa using sound
    · simpa [same] using inv.sound j
  have once := (released_of_sound sound).once
  rw [← grown, trackerCalls_append] at once
  have bounded := allCalls_le (w := ⟨Function.update w.readers i reader, w.trk⟩)
    fun j => (released_of_sound (sounds j)).once
  rw [allCalls_update grown.symm] at bounded
  rw [← grown, List.drop_left]
  exact ⟨sounds, inv.counts.hear grown.symm (by omega) bounded⟩

theorem Inv.orderly (inv : Inv sync S w) : Orderly w := by
  have released := fun i => released_of_sound (inv.sound i)
  have stops := inv.counts.stops
  refine ⟨released, ?_, fun stopped => all_called (fun i => (released i).once) ?_⟩
  · rw [stops]
    split <;> omega
  · by_contra others
    rw [if_neg others] at stops
    omega

theorem start_inv (positive : 1 ≤ nReaders) {reader : ReaderState η σ} (sound : Sound (code sync) S release reader)
    (silent : reader.log = []) : Inv sync S (start nReaders reader) := by
  have none : allCalls (start nReaders reader) = 0 := by
    simp [allCalls, start, silent, trackerCalls]
  refine ⟨fun _ => sound, ⟨?_, ?_⟩⟩
  · rw [none]
    simp [start]
  · rw [none, if_neg (by omega)]
    rfl

theorem Inv.run (inv : Inv sync S w)
    (path : run (Shutdown.step (General.Callback.step (code sync) S)) w choices = some w') : Inv sync S w' :=
  run_invariant (fun _ _ _ inv stepped => inv.step stepped) path inv

end

/-- Under every interleaving of the readers of either kind, each reader makes its one call
of the tracker with nothing in flight and is not touched after its end, and the pool is
stopped at most once, after the call of the last reader. -/
theorem readers_shut_down (nReaders : Nat) (sync : Bool) (total : Int)
    (choices : List (Fin nReaders × Choice WsaResult)) (positive : 1 ≤ nReaders) :
    (∀ w, run (step (traditionalReader sync)) (start nReaders (traditionalStart total)) choices = some w → Orderly w) ∧
      ∀ w, run (step (improvedReader sync)) (start nReaders (improvedStart total)) choices = some w → Orderly w := by
  have silent : release.working (.point .start) ⟨total⟩ [] := by simp [release, trackerCalls]
  constructor
  · intro w path
    have sound : Sound (code sync) (freshHandlers Lambda) release (traditionalStart total) := launch_sound silent
    exact ((start_inv positive sound rfl).run path).orderly
  · intro w path
    have sound : Sound (code sync) ownHandler release (improvedStart total) := launch_sound silent
    exact ((start_inv positive sound rfl).run path).orderly

/-- The first receive is refused, and `OnError` deletes the reader below `OnConnect`. -/
def refused : List (Fin 1 × Choice WsaResult) :=
  [.thread 0, .respond 0 .pending, .thread 0, .packet 0 0 0, .thread 1, .thread 1, .thread 1,
    .respond 1 (.socketError 10054 (by decide)), .thread 1, .thread 1, .thread 1, .thread 1, .thread 1,
    .thread 1, .thread 1, .thread 1].map (0, ·)

theorem readers_shut_down_refused :
    (∃ w, run (step (traditionalReader true)) (start 1 (traditionalStart 8192)) refused = some w ∧
      w.trk.stops = 1 ∧ Orderly w) ∧
    ∃ w, run (step (improvedReader true)) (start 1 (improvedStart 8192)) refused = some w ∧
      w.trk.stops = 1 ∧ Orderly w :=
  ⟨⟨_, rfl, rfl, (readers_shut_down 1 true 8192 refused (by decide)).1 _ rfl⟩,
    ⟨_, rfl, rfl, (readers_shut_down 1 true 8192 refused (by decide)).2 _ rfl⟩⟩

end Await.SuperLean.Shutdown
