import Await.General.Transition
import Await.NanoCoro.Lookup
import Await.NanoCoro.SmFrame
import Mathlib.Data.Prod.Lex
import Mathlib.Algebra.Ring.Nat
import Mathlib.Data.List.Basic

/-! `SmMultiLookup` of `sm.h` over a vector of frames. The call is a machine that steps
once per turn of one of its loops, so that every call of `run` is one step of it. -/

namespace Await.NanoCoro.SmMultiLookup
open General.TaskPool General.Transition Naive Lookup SmFrame StateTransition

/-- A frame of the vector, and the number of the lookup last loaded into it. The
number is not in the source; it only names the search in the log. -/
structure Slot where
  frame : Frame
  search : Nat
  deriving DecidableEq, Repr

inductive Control where
  | forKeys (keys : List Int)
  | stepping (key : Int) (keys : List Int)
  | draining (index : Nat) (moreWork : Bool)
  | returned
  deriving DecidableEq, Repr

/-- The locals of `SmMultiLookup`, its point of control, and a log of the searches. -/
structure Machine where
  f : List Slot
  i : Nat
  result : Nat
  loaded : Nat
  log : List (Event Nat Bool)
  control : Control
  deriving DecidableEq, Repr

/-- `if (i == 0) i = N; else --i;` -/
def previous (N i : Nat) : Nat := if i = 0 then N else i - 1

/-- `fr->init(beg, end, key)` on the frame at the cursor, and the cursor's move. An
`init` on an empty array ends the search at once. -/
def Machine.load (v : Array Int) (N : Nat) (key : Int) (keys : List Int) (slot : Slot)
    (s : Machine) : Machine :=
  let frame := slot.frame.init 0 v.size key
  { s with
    f := s.f.set s.i ⟨frame, s.loaded⟩
    i := previous N s.i
    loaded := s.loaded + 1
    log := s.log ++ .load s.loaded ::
      if frame.state = .keepGoing then [] else [.retire s.loaded false]
    control := .forKeys keys }

/-- The frame at `index` has run: store it, and count it if it found its key. -/
def Machine.ran (index : Nat) (slot : Slot) (done : Bool) (frame : Frame) (s : Machine) : Machine :=
  { s with
    f := s.f.set index { slot with frame }
    result := if done ∧ frame.state = .found then s.result + 1 else s.result
    log := s.log ++ .step slot.search (slot.frame.middle.getD 0) ::
      if done then [.retire slot.search (decide (frame.state = .found))] else [] }

def step (v : Array Int) (N : Nat) (s : Machine) : Option Machine :=
  match s.control with
  | .forKeys [] => some { s with control := .draining 0 false }
  | .forKeys (key :: keys) => do
      let slot ← s.f[s.i]?
      if slot.frame.state ≠ .keepGoing then some (s.load v N key keys slot)
      else some { s with control := .stepping key keys }
  | .stepping key keys => do
      let slot ← s.f[s.i]?
      let (done, frame) ← slot.frame.run v
      let s := s.ran s.i slot done frame
      if done then some (s.load v N key keys { slot with frame })
      else some { s with i := previous N s.i }
  | .draining index moreWork =>
      match s.f[index]? with
      | some slot =>
          if slot.frame.state = .keepGoing then do
            let (done, frame) ← slot.frame.run v
            some { s.ran index slot done frame with control := .draining (index + 1) true }
          else some { s with control := .draining (index + 1) moreWork }
      | none => some { s with control := if moreWork then .draining 0 false else .returned }
  | .returned => none

/-- The call `SmMultiLookup(v, lookups, streams)` at its first key. -/
def start (lookups : List Int) (streams : Nat) : Machine where
  f := List.replicate streams ⟨{}, 0⟩
  i := streams - 1
  result := 0
  loaded := 0
  log := []
  control := .forKeys lookups

/-! ### The frames and the searches in them -/

section
variable {v : Array Int} {f : List Slot} {rest : Nat → Option Outcome} {index : Nat}
  {old new slot : Slot}

abbrev Slot.Busy (slot : Slot) : Prop := slot.frame.state = .keepGoing

/-- The searches under way are those of the busy frames, each in one frame. -/
structure Tracks (v : Array Int) (f : List Slot) (rest : Nat → Option Outcome) : Prop where
  busy : ∀ (j : Nat) (slot : Slot), f[j]? = some slot → slot.Busy →
    Running v slot.frame ∧ rest slot.search = remaining v slot.frame
  covered : ∀ search, rest search ≠ none →
    ∃ (j : Nat) (slot : Slot), f[j]? = some slot ∧ slot.Busy ∧ slot.search = search
  distinct : ∀ (j k : Nat) (slot other : Slot), f[j]? = some slot → f[k]? = some other →
    slot.Busy → other.Busy → slot.search = other.search → j = k

theorem get_set_self (present : f[index]? = some old) : (f.set index new)[index]? = some new := by
  obtain ⟨inside, -⟩ := List.getElem?_eq_some_iff.mp present
  simp [inside]

theorem get_set {j : Nat} (present : f[index]? = some old) (found : (f.set index new)[j]? = some slot) :
    (j = index ∧ slot = new) ∨ (j ≠ index ∧ f[j]? = some slot) := by
  by_cases same : j = index
  · subst same
    rw [get_set_self present] at found
    exact .inl ⟨rfl, (Option.some.inj found).symm⟩
  · exact .inr ⟨same, by rwa [List.getElem?_set_ne (Ne.symm same)] at found⟩

/-- Making a frame idle, whether or not it was busy. -/
private theorem Tracks.settle {rest' : Nat → Option Outcome} (tracks : Tracks v f rest)
    (present : f[index]? = some old) (idle : ¬new.Busy)
    (kept : ∀ j slot, f[j]? = some slot → j ≠ index → slot.Busy → rest' slot.search = rest slot.search)
    (left : ∀ search, rest' search ≠ none → rest search ≠ none ∧ (old.Busy → search ≠ old.search)) :
    Tracks v (f.set index new) rest' where
  busy := by
    intro j slot found busy
    rcases get_set present found with ⟨-, rfl⟩ | ⟨other, found⟩
    · exact absurd busy idle
    · rw [kept j slot found other busy]
      exact tracks.busy j slot found busy
  covered := by
    intro search underway
    obtain ⟨before, apart⟩ := left search underway
    obtain ⟨j, slot, found, busy, rfl⟩ := tracks.covered search before
    have other : index ≠ j := by
      rintro rfl
      obtain rfl := Option.some.inj (found.symm.trans present)
      exact apart busy rfl
    exact ⟨j, slot, by rwa [List.getElem?_set_ne other], busy, rfl⟩
  distinct := by
    intro j k slot other foundSlot foundOther busySlot busyOther same
    rcases get_set present foundSlot with ⟨-, rfl⟩ | ⟨-, wasSlot⟩
    · exact absurd busySlot idle
    · rcases get_set present foundOther with ⟨-, rfl⟩ | ⟨-, wasOther⟩
      · exact absurd busyOther idle
      · exact tracks.distinct j k slot other wasSlot wasOther busySlot busyOther same

/-- A frame whose search has ended. -/
theorem Tracks.clear (tracks : Tracks v f rest) (new : Slot) (present : f[index]? = some old) (wasBusy : old.Busy)
    (idle : ¬new.Busy) : Tracks v (f.set index new) (Function.update rest old.search none) := by
  refine tracks.settle present idle (fun j slot found other busy => ?_) (fun search underway => ?_)
  · exact Function.update_of_ne
      (fun same => other (tracks.distinct j index slot old found present busy wasBusy same)) _ _
  · have apart : search ≠ old.search := by
      rintro rfl
      simp at underway
    rw [Function.update_of_ne apart] at underway
    exact ⟨underway, fun _ => apart⟩

/-- An idle frame that stays idle. -/
theorem Tracks.skip (tracks : Tracks v f rest) (new : Slot) (present : f[index]? = some old) (wasIdle : ¬old.Busy)
    (idle : ¬new.Busy) : Tracks v (f.set index new) rest :=
  tracks.settle present idle (fun _ _ _ _ _ => rfl)
    (fun _ underway => ⟨underway, fun busy => absurd busy wasIdle⟩)

/-- A new search in an idle frame. -/
theorem Tracks.fill (tracks : Tracks v f rest) (new : Slot) (present : f[index]? = some old) (idle : ¬old.Busy)
    (running : Running v new.frame) (fresh : rest new.search = none) :
    Tracks v (f.set index new) (Function.update rest new.search (remaining v new.frame)) := by
  have apart : ∀ (j : Nat) (slot : Slot), f[j]? = some slot → slot.Busy →
      slot.search ≠ new.search := by
    intro j slot found busy same
    obtain ⟨-, known⟩ := tracks.busy j slot found busy
    obtain ⟨first, first_eq, -, inside⟩ := (tracks.busy j slot found busy).1.window
    obtain ⟨outcome, done⟩ := naiveLoop_total slot.frame.val inside
    rw [same, fresh, remaining, first_eq] at known
    simp [done] at known
  constructor
  · intro j slot found busy
    rcases get_set present found with ⟨-, rfl⟩ | ⟨-, found⟩
    · exact ⟨running, by simp⟩
    · rw [Function.update_of_ne (apart j slot found busy)]
      exact tracks.busy j slot found busy
  · intro search underway
    by_cases same : search = new.search
    · exact ⟨index, new, get_set_self present, running.going, same.symm⟩
    · rw [Function.update_of_ne same] at underway
      obtain ⟨j, slot, found, busy, named⟩ := tracks.covered search underway
      have other : index ≠ j := by
        rintro rfl
        exact idle (Option.some.inj (found.symm.trans present) ▸ busy)
      exact ⟨j, slot, by rwa [List.getElem?_set_ne other], busy, named⟩
  · intro j k slot other foundSlot foundOther busySlot busyOther same
    rcases get_set present foundSlot with ⟨rfl, rfl⟩ | ⟨-, wasSlot⟩
    · rcases get_set present foundOther with ⟨rfl, -⟩ | ⟨-, wasOther⟩
      · rfl
      · exact absurd same.symm (apart k other wasOther busyOther)
    · rcases get_set present foundOther with ⟨-, rfl⟩ | ⟨-, wasOther⟩
      · exact absurd same (apart j slot wasSlot busySlot)
      · exact tracks.distinct j k slot other wasSlot wasOther busySlot busyOther same

end

/-! ### The run -/

/-- The windows still open, which every call of `run` makes smaller. -/
def weight (f : List Slot) : Nat :=
  (f.map fun slot => if slot.Busy then slot.frame.len else 0).sum

theorem weight_set {f : List Slot} {index : Nat} {old : Slot} (present : f[index]? = some old)
    (new : Slot) :
    weight (f.set index new) + (if old.Busy then old.frame.len else 0) =
      weight f + (if new.Busy then new.frame.len else 0) := by
  unfold weight
  induction f generalizing index with
  | nil => simp at present
  | cons head tail ih =>
    cases index with
    | zero =>
      obtain rfl : head = old := by simpa using present
      simp only [List.set_cons_zero, List.map_cons, List.sum_cons]
      omega
    | succ index =>
      have there : tail[index]? = some old := by simpa using present
      have rest := ih there
      simp only [List.set_cons_succ, List.map_cons, List.sum_cons]
      omega

section
variable {v : Array Int} {lookups : List Int} {N : Nat} {s : Machine} {slot : Slot} {index : Nat}

/-- What holds wherever the control is. -/
structure Core (v : Array Int) (lookups : List Int) (N : Nat) (s : Machine) : Prop where
  frames : s.f.length = N + 1
  cursor : s.i ≤ N
  searches : ∃ rest, Progress v lookups s.loaded rest s.log ∧ Tracks v s.f rest
  counted : s.result = tally id s.log

theorem previous_le (cursor : s.i ≤ N) : previous N s.i ≤ N := by
  unfold previous
  split_ifs <;> omega

/-- Loading a key into an idle frame starts its search there, or ends it at once when
the array is empty. -/
theorem Core.load {key : Int} (core : Core v lookups N s) (keys : List Int)
    (present : s.f[s.i]? = some slot) (idle : ¬slot.Busy) (known : lookups[s.loaded]? = some key) :
    Core v lookups N (s.load v N key keys slot) ∧
      (0 < v.size → (slot.frame.init 0 v.size key).state = .keepGoing) := by
  obtain ⟨frames, cursor, ⟨rest, progress, tracks⟩, counted⟩ := core
  have fresh := (progress.untouched (Nat.le_refl _)).1
  obtain ⟨whole, script_some⟩ := naiveBinarySearch_total v key
  have started := progress.load ((script_eq known).trans script_some)
  by_cases nonempty : 0 < v.size
  · obtain ⟨running, rest_eq⟩ := init_running slot.frame key nonempty
    have going := running.going
    refine ⟨⟨by simp [Machine.load, frames], previous_le cursor, ?_, ?_⟩, fun _ => going⟩
    · have filled := tracks.fill ⟨slot.frame.init 0 v.size key, s.loaded⟩ present idle running fresh
      rw [rest_eq, script_some] at filled
      exact ⟨_, by simpa [Machine.load, going] using started, filled⟩
    · simp [Machine.load, going, counted, tally]
  · have empty : v.size = 0 := by omega
    obtain ⟨ended, none_found⟩ := init_empty slot.frame key empty
    obtain rfl : whole = ⟨[], false⟩ := Option.some.inj (script_some.symm.trans none_found)
    have retired := started.retire (Function.update_self ..)
    rw [Function.update_idem, ← fresh, Function.update_eq_self] at retired
    refine ⟨⟨by simp [Machine.load, frames], previous_le cursor, ?_, ?_⟩, fun positive => absurd positive nonempty⟩
    · refine ⟨rest, by simpa [Machine.load, ended] using retired, ?_⟩
      exact tracks.skip ⟨slot.frame.init 0 v.size key, s.loaded⟩ present idle (by simp [ended])
    · simp [Machine.load, ended, counted, tally]

/-- A call of `run` on a busy frame reads one element, shortens what is left to do, and
counts the search exactly when it ends with its key found. -/
theorem Core.ran (core : Core v lookups N s) (present : s.f[index]? = some slot) (busy : slot.Busy) :
    ∃ done frame, slot.frame.run v = some (done, frame) ∧
      Core v lookups N (s.ran index slot done frame) ∧
      weight (s.ran index slot done frame).f < weight s.f ∧
      (frame.state = .keepGoing ↔ done = false) := by
  obtain ⟨frames, cursor, ⟨rest, progress, tracks⟩, counted⟩ := core
  obtain ⟨running, rest_eq⟩ := tracks.busy index slot present busy
  obtain ⟨middle, done, frame, run_eq, middle_eq, stopped, goes_on⟩ := running.run
  have sizes := weight_set present { slot with frame }
  rw [if_pos busy] at sizes
  refine ⟨done, frame, run_eq, ⟨by simp [Machine.ran, frames], cursor, ?_, ?_⟩, ?_, ?_⟩
  · cases done with
    | true =>
      obtain ⟨ended, last⟩ := stopped rfl
      have probed := progress.step (rest_eq.trans last)
      have retired := probed.retire (Function.update_self ..)
      rw [Function.update_idem, List.append_assoc] at retired
      exact ⟨_, by simpa [Machine.ran, middle_eq] using retired, tracks.clear _ present busy ended⟩
    | false =>
      obtain ⟨running', -, later, left, whole⟩ := goes_on rfl
      have probed := progress.step (rest_eq.trans whole)
      have cleared := tracks.clear ⟨{ frame with state := .empty }, slot.search⟩ present busy (by simp)
      have filled := cleared.fill { slot with frame } (get_set_self present) (by simp) running' (by simp)
      rw [List.set_set, Function.update_idem, left] at filled
      exact ⟨_, by simpa [Machine.ran, middle_eq] using probed, filled⟩
  · cases done <;> simp [Machine.ran, tally, counted]
    split_ifs <;> simp
  · cases done with
    | true =>
      rw [if_neg (stopped rfl).1] at sizes
      have positive := running.positive
      simp only [Machine.ran]
      omega
    | false =>
      obtain ⟨running', shorter, -⟩ := goes_on rfl
      rw [if_pos running'.going] at sizes
      simp only [Machine.ran] at sizes ⊢
      omega
  · cases done with
    | true => simpa using (stopped rfl).1
    | false => simpa using (goes_on rfl).1.going

/-- The keys not loaded yet. -/
def Control.keys : Control → List Int
  | .forKeys keys => keys
  | .stepping key keys => key :: keys
  | .draining .. | .returned => []

def AllBusy (f : List Slot) : Prop := ∀ (j : Nat) (slot : Slot), f[j]? = some slot → slot.Busy

/-- Which frames are busy. While keys are loaded these are the frames behind the cursor,
until the cursor has gone round once and all of them are. -/
def Placed (v : Array Int) (s : Machine) : Prop :=
  match s.control with
  | .forKeys _ => v.size = 0 ∨ AllBusy s.f ∨
      ∀ (j : Nat) (slot : Slot), s.f[j]? = some slot → (slot.Busy ↔ s.i < j)
  | .stepping .. => AllBusy s.f
  | .draining index moreWork => moreWork = false →
      ∀ (j : Nat) (slot : Slot), j < index → s.f[j]? = some slot → ¬slot.Busy
  | .returned => ∀ (j : Nat) (slot : Slot), s.f[j]? = some slot → ¬slot.Busy

structure Inv (v : Array Int) (lookups : List Int) (N : Nat) (s : Machine) : Prop where
  core : Core v lookups N s
  keys : ∃ earlier, lookups = earlier ++ s.control.keys ∧ earlier.length = s.loaded
  placed : Placed v s

theorem Core.at_cursor (core : Core v lookups N s) : ∃ slot, s.f[s.i]? = some slot :=
  ⟨_, List.getElem?_eq_getElem (by have := core.frames; have := core.cursor; omega)⟩

/-- A busy frame needs an element to look at. -/
theorem Core.nonempty (core : Core v lookups N s) (present : s.f[index]? = some slot)
    (busy : slot.Busy) : 0 < v.size := by
  obtain ⟨rest, -, tracks⟩ := core.searches
  obtain ⟨⟨-, positive, -, first, -, -, inside⟩, -⟩ := tracks.busy index slot present busy
  omega

/-- The turns left: first by the keys left, then by the open windows, then by the place
in the pass over the frames. -/
def rank (s : Machine) : Nat ×ₗ Nat ×ₗ Nat :=
  match s.control with
  | .forKeys keys => toLex (2 * keys.length + 2, toLex (0, 0))
  | .stepping _ keys => toLex (2 * keys.length + 3, toLex (weight s.f, 0))
  | .draining index moreWork => toLex (1, toLex (weight s.f,
      (if moreWork then s.f.length + 1 else 0) + (s.f.length - index)))
  | .returned => toLex (0, toLex (0, 0))

theorem rank_lt {a b c a' b' c' : Nat} (lower : a < a' ∨ a = a' ∧ (b < b' ∨ b = b' ∧ c < c')) :
    toLex (a, toLex (b, c)) < toLex (a', toLex (b', c')) := by
  simpa [Prod.Lex.toLex_lt_toLex] using lower

/-- What one turn does: it exists, it keeps the invariant, and it lowers the rank. -/
def Turns (v : Array Int) (lookups : List Int) (N : Nat) (s : Machine) : Prop :=
  ∃ t, step v N s = some t ∧ Inv v lookups N t ∧ rank t < rank s

theorem forKeys_nil_turns (inv : Inv v lookups N s) (control : s.control = .forKeys []) :
    Turns v lookups N s := by
  obtain ⟨⟨frames, cursor, searches, counted⟩, keys, -⟩ := inv
  rw [control] at keys
  refine ⟨{ s with control := .draining 0 false }, by simp [step, control],
    ⟨⟨frames, cursor, searches, counted⟩, keys, ?_⟩, ?_⟩
  · intro _ j slot before
    exact absurd before (Nat.not_lt_zero j)
  · simp only [rank, control]
    exact rank_lt (by simp)

/-- Loading the frame at the cursor moves the border between the idle and the busy frames
by one, and round the end when it was the last idle one. -/
private theorem placed_load {f : List Slot} {old new : Slot} {i : Nat} (N : Nat) (present : f[i]? = some old)
    (started : new.Busy) (suffix : ∀ (j : Nat) (slot : Slot), f[j]? = some slot → (slot.Busy ↔ i < j)) :
    AllBusy (f.set i new) ∨
      ∀ (j : Nat) (slot : Slot), (f.set i new)[j]? = some slot → (slot.Busy ↔ previous N i < j) := by
  by_cases wraps : i = 0
  · left
    intro j slot found
    rcases get_set present found with ⟨-, rfl⟩ | ⟨apart, found⟩
    · exact started
    · exact (suffix j slot found).mpr (by omega)
  · right
    intro j slot found
    simp only [previous, if_neg wraps]
    rcases get_set present found with ⟨rfl, rfl⟩ | ⟨apart, found⟩
    · exact ⟨fun _ => by omega, fun _ => started⟩
    · rw [suffix j slot found]
      omega

theorem forKeys_cons_turns {key : Int} {keys : List Int} (inv : Inv v lookups N s)
    (control : s.control = .forKeys (key :: keys)) : Turns v lookups N s := by
  obtain ⟨core, ⟨earlier, lookups_eq, loaded_eq⟩, placed⟩ := inv
  obtain ⟨slot, present⟩ := core.at_cursor
  rw [control] at lookups_eq
  simp only [Placed, control] at placed
  by_cases busy : slot.Busy
  · refine ⟨{ s with control := .stepping key keys }, by simp [step, control, present, busy],
      ⟨⟨core.frames, core.cursor, core.searches, core.counted⟩, ⟨earlier, lookups_eq, loaded_eq⟩, ?_⟩, ?_⟩
    · rcases placed with empty | all | suffix
      · have := core.nonempty present busy
        omega
      · exact all
      · exact absurd ((suffix s.i slot present).mp busy) (Nat.lt_irrefl _)
    · simp only [rank, control, List.length_cons]
      exact rank_lt (by omega)
  · have known : lookups[s.loaded]? = some key := by simp [lookups_eq, ← loaded_eq, Control.keys]
    obtain ⟨core', going⟩ := core.load keys present busy known
    refine ⟨s.load v N key keys slot, by simp [step, control, present, busy],
      ⟨core', ⟨earlier ++ [key], by simp [lookups_eq, Machine.load, Control.keys],
        by simp [loaded_eq, Machine.load]⟩, ?_⟩, ?_⟩
    · by_cases nonempty : v.size = 0
      · exact .inl nonempty
      have started : (slot.frame.init 0 v.size key).state = .keepGoing := going (by omega)
      have suffix : ∀ j (other : Slot), s.f[j]? = some other → (other.Busy ↔ s.i < j) := by
        rcases placed with empty | all | suffix
        · exact absurd empty nonempty
        · exact absurd (all s.i slot present) busy
        · exact suffix
      exact .inr (placed_load N present started suffix)
    · simp only [rank, control, Machine.load, List.length_cons]
      exact rank_lt (by omega)

theorem stepping_turns {key : Int} {keys : List Int} (inv : Inv v lookups N s)
    (control : s.control = .stepping key keys) : Turns v lookups N s := by
  obtain ⟨core, ⟨earlier, lookups_eq, loaded_eq⟩, placed⟩ := inv
  obtain ⟨slot, present⟩ := core.at_cursor
  rw [control] at lookups_eq
  simp only [Placed, control] at placed
  have busy := placed s.i slot present
  obtain ⟨done, frame, run_eq, core', shrunk, going⟩ := core.ran present busy
  have present' : (s.ran s.i slot done frame).f[s.i]? = some { slot with frame } := get_set_self present
  cases done with
  | true =>
    have idle : ¬({ slot with frame } : Slot).Busy := by simpa using going.not.mpr (by simp)
    have known : lookups[s.loaded]? = some key := by simp [lookups_eq, ← loaded_eq, Control.keys]
    obtain ⟨core'', started⟩ := core'.load keys present' idle known
    refine ⟨_, by simp [step, control, present, run_eq],
      ⟨core'', ⟨earlier ++ [key], by simp [lookups_eq, Machine.load, Control.keys],
        by simp [loaded_eq, Machine.load, Machine.ran]⟩, ?_⟩, ?_⟩
    · right; left
      intro j other found
      rcases get_set present' found with ⟨-, rfl⟩ | ⟨apart, found⟩
      · exact started (core.nonempty present busy)
      · exact placed j other (by rwa [Machine.ran, List.getElem?_set_ne (Ne.symm apart)] at found)
    · simp only [rank, control, Machine.load]
      exact rank_lt (by omega)
  | false =>
    refine ⟨{ s.ran s.i slot false frame with i := previous N s.i },
      by simp [step, control, present, run_eq, Machine.ran],
      ⟨⟨core'.frames, previous_le core.cursor, core'.searches, core'.counted⟩,
        ⟨earlier, by simpa [Machine.ran, control] using lookups_eq, loaded_eq⟩, ?_⟩, ?_⟩
    · simp only [Placed, Machine.ran, control]
      intro j other found
      rcases get_set present found with ⟨-, rfl⟩ | ⟨-, found⟩
      · exact going.mpr rfl
      · exact placed j other found
    · simp only [Machine.ran] at shrunk
      simp only [rank, Machine.ran, control]
      exact rank_lt (by omega)

theorem draining_turns {moreWork : Bool} (inv : Inv v lookups N s)
    (control : s.control = .draining index moreWork) : Turns v lookups N s := by
  obtain ⟨core, keys, placed⟩ := inv
  rw [control] at keys
  simp only [Placed, control] at placed
  cases present : s.f[index]? with
  | some slot =>
    obtain ⟨inside, -⟩ := List.getElem?_eq_some_iff.mp present
    by_cases busy : slot.Busy
    · obtain ⟨done, frame, run_eq, core', shrunk, -⟩ := core.ran present busy
      refine ⟨{ s.ran index slot done frame with control := .draining (index + 1) true },
        by simp [step, control, present, busy, run_eq],
        ⟨⟨core'.frames, core'.cursor, core'.searches, core'.counted⟩, keys, by simp [Placed]⟩, ?_⟩
      simp only [rank, control]
      exact rank_lt (by omega)
    · refine ⟨{ s with control := .draining (index + 1) moreWork }, by simp [step, control, present, busy],
        ⟨⟨core.frames, core.cursor, core.searches, core.counted⟩, keys, ?_⟩, ?_⟩
      · intro unworked j other before found
        rcases Nat.lt_succ_iff_lt_or_eq.mp before with before | rfl
        · exact placed unworked j other before found
        · exact Option.some.inj (present.symm.trans found) ▸ busy
      · simp only [rank, control]
        exact rank_lt (by omega)
  | none =>
    have outside := List.getElem?_eq_none_iff.mp present
    cases moreWork with
    | true =>
      refine ⟨{ s with control := .draining 0 false }, by simp [step, control, present],
        ⟨⟨core.frames, core.cursor, core.searches, core.counted⟩, keys, ?_⟩, ?_⟩
      · intro _ j other before
        exact absurd before (Nat.not_lt_zero j)
      · simp only [rank, control]
        exact rank_lt (by simp; omega)
    | false =>
      refine ⟨{ s with control := .returned }, by simp [step, control, present],
        ⟨⟨core.frames, core.cursor, core.searches, core.counted⟩, keys, ?_⟩, ?_⟩
      · intro j other found
        obtain ⟨inside, -⟩ := List.getElem?_eq_some_iff.mp found
        exact placed rfl j other (Nat.lt_of_lt_of_le inside outside) found
      · simp only [rank, control]
        exact rank_lt (by simp)

theorem turns (inv : Inv v lookups N s) (going : s.control ≠ .returned) : Turns v lookups N s := by
  cases control : s.control with
  | forKeys keys =>
    cases keys with
    | nil => exact forKeys_nil_turns inv control
    | cons key keys => exact forKeys_cons_turns inv control
  | stepping key keys => exact stepping_turns inv control
  | draining index moreWork => exact draining_turns inv control
  | returned => exact absurd control going

theorem start_idle {streams j : Nat} (found : (start lookups streams).f[j]? = some slot) :
    j < streams ∧ ¬slot.Busy := by
  obtain ⟨inside, rfl⟩ : j < streams ∧ ⟨{}, 0⟩ = slot := by
    simpa [start, List.getElem?_replicate] using found
  exact ⟨inside, by simp⟩

theorem start_inv (v : Array Int) (lookups : List Int) {streams : Nat} (positive : 1 ≤ streams) :
    Inv v lookups (streams - 1) (start lookups streams) where
  core :=
    { frames := by simp [start]; omega
      cursor := Nat.le_refl _
      searches := ⟨fun _ => none, .empty,
        fun _ _ found busy => absurd busy (start_idle found).2,
        fun _ underway => absurd rfl underway,
        fun _ _ _ _ found _ busy _ _ => absurd busy (start_idle found).2⟩
      counted := rfl }
  keys := ⟨[], rfl, rfl⟩
  placed := by
    right; right
    intro j slot found
    obtain ⟨inside, idle⟩ := start_idle found
    have before : ¬streams - 1 < j := by omega
    exact ⟨fun busy => absurd busy idle, fun beyond => absurd beyond before⟩

/-- A finished call has no search left to do. -/
theorem Inv.returned (inv : Inv v lookups N s) (control : s.control = .returned) :
    s.result = lookups.countP (naiveFinds v) ∧ Answered v lookups s.log := by
  obtain ⟨⟨-, -, ⟨rest, progress, tracks⟩, counted⟩, ⟨earlier, lookups_eq, loaded_eq⟩, placed⟩ := inv
  rw [control] at lookups_eq
  simp only [Placed, control] at placed
  have all : s.loaded = lookups.length := by simp [lookups_eq, Control.keys, loaded_eq]
  have idle : ∀ search, rest search = none := by
    intro search
    by_contra underway
    obtain ⟨j, slot, found, busy, -⟩ := tracks.covered search underway
    exact placed j slot found busy
  rw [all] at progress
  exact ⟨by simpa using counted.trans (tally_of_idle progress idle id), answered_of_idle progress idle⟩

end

/-- Whatever the array, the keys and the number of streams, `SmMultiLookup` returns what
`testNaive` counts, and each search is loaded once, reads what the naive search for its
key reads, and is answered once as it answers. -/
theorem smMultiLookup_naive (v : Array Int) (lookups : List Int) (streams : Nat)
    (positive : 1 ≤ streams) :
    ∃ final, final ∈ eval (step v (streams - 1)) (start lookups streams) ∧
      final.control = .returned ∧ testNaive v lookups = some final.result ∧
      Answered v lookups final.log ∧ tally id final.log = final.result := by
  obtain ⟨final, path, inv, finished⟩ := reaches_goal (fun s => s.control = .returned) rank
    (fun s inv going => turns inv going) (start_inv v lookups positive)
  obtain ⟨result, answered⟩ := inv.returned finished
  refine ⟨final, mem_eval.mpr ⟨path, by simp [step, finished]⟩, finished, ?_, answered,
    inv.core.counted.symm⟩
  rw [testNaive_eq, result]

theorem smMultiLookup_naive_three_keys :
    ∃ final, final ∈ eval (step #[5, 1, 3] 1) (start [1, 5, 4] 2) ∧
      final.control = .returned ∧ testNaive #[5, 1, 3] [1, 5, 4] = some final.result ∧
      Answered #[5, 1, 3] [1, 5, 4] final.log ∧ tally id final.log = final.result :=
  smMultiLookup_naive #[5, 1, 3] [1, 5, 4] 2 (by decide)

end Await.NanoCoro.SmMultiLookup
