import Await.NanoCoro.BinarySearch
import Await.NanoCoro.Recycling
import Await.NanoCoro.SmMultiLookup

/-! The program of `nanotest.cpp` with `rng.h`: its arguments, its table and its keys, and
the loop that calls one of the three multi lookups again and again and compares the sum of
what they return with a number that was written down beforehand. -/

namespace Await.NanoCoro.Nanotest
open BinarySearch (cells naive_correct)
open FreeList (Pool pool_nil)
open CoroInvariant (Idle)
open General.Bisection Naive Recycling Scheduler StateTransition

/-- The generator and the distribution of the standard library: what `seed` makes of the
generator, and the next value between two bounds. -/
structure Random (γ : Type) where
  seed : Nat → γ
  distribution : Int → Int → γ → Int × γ
  between : ∀ lower upper generator, lower ≤ upper →
    lower ≤ (distribution lower upper generator).1 ∧ (distribution lower upper generator).1 ≤ upper

/-- `for (auto i : rng)`: from `begin()`, which counts down, to `end()` at 0. -/
def values {γ : Type} (distribution : γ → Int × γ) : Nat → γ → List Int
  | 0, _ => []
  | count + 1, generator =>
      let (i, generator) := distribution generator
      i :: values distribution count generator

def rng {γ : Type} (random : Random γ) (seed : Nat) (lower upper : Int) (count : Nat) : List Int :=
  values (random.distribution lower upper) count (random.seed seed)

structure State where
  v : Array Int
  lookups : List Int
  repeatCount : Nat
  streams : Nat := 0

/-- The constructor of `State`, where an `int` has 4 bytes. -/
def State.create {γ : Type} (random : Random γ) (byteCount lookupCount repeatCount : Nat) : State :=
  let seed1 := 0
  let count := byteCount / 4
  { v := (Array.range count).map fun (i : Nat) => (i : Int) + i
    lookups := rng random seed1 0 (count + count) lookupCount
    repeatCount }

def State.start (streams : Nat) (s : State) : State := { s with streams }

structure TestParam where
  sizeInBytes : Nat
  lookupSize : Nat
  repeatCount : Nat
  expectedResult : Nat
  deriving DecidableEq, Repr

/-- `argv[2]`. -/
def TestParam.named (size : String) : Option TestParam :=
  if size = "quick" then some ⟨16 * 1024, 1024, 1, 505⟩
  else if size = "l1" then some ⟨16 * 1024, 1024, 10000, 5050000⟩
  else if size = "l2" then some ⟨200 * 1024, 1024 * 1024, 50, 26225050⟩
  else if size = "l3" then some ⟨6 * 1024 * 1024, 1024 * 1024, 50, 26215900⟩
  else if size = "big" then some ⟨256 * 1024 * 1024, 1024 * 1024, 5, 2624940⟩
  else none

inductive Algo where
  | naive | sm | coro
  deriving DecidableEq, Repr

/-- `argv[1]`. -/
def Algo.named (algo : String) : Option Algo :=
  if algo = "coro" then some .coro
  else if algo = "naive" then some .naive
  else if algo = "sm" then some .sm
  else none

def isSpace (c : Char) : Bool := c = ' ' || ('\t' ≤ c && c ≤ '\r')

def isDigit (c : Char) : Bool := '0' ≤ c && c ≤ '9'

def digits (text : List Char) : Nat :=
  (text.takeWhile isDigit).foldl (fun value c => 10 * value + (c.toNat - '0'.toNat)) 0

/-- `atoi`, which is undefined on a number that is not an `int`. -/
def atoi (text : String) : Option Int :=
  let value : Int := match text.toList.dropWhile isSpace with
    | '-' :: rest => -digits rest
    | '+' :: rest => digits rest
    | rest => digits rest
  if -2 ^ 31 ≤ value ∧ value < 2 ^ 31 then some value else none

/-- What `main` prints last, and with it its exit status. -/
inductive Report where
  | usage (msg : Option String)
  | sum (sum : Nat)
  | bug (sum expected : Nat)
  deriving DecidableEq, Repr

def Report.status : Report → Nat
  | .usage _ => 1
  | .sum _ => 0
  | .bug .. => 1

section
variable (frameSize : Nat) (image : CoroSearch.SearchFrame → Allocator.Header)

def State.job (s : State) : Job := ⟨s.v, s.lookups, s.streams⟩

/-- `(*testFn)(s)`: `testNaive`, `testSm` or `testCoro`, of which only the last one has to
do with the globals. -/
def testFn (algo : Algo) (s : State) (g : Globals) : Part (Nat × Globals) :=
  match algo with
  | .naive => (testNaive s.v s.lookups : Part Nat).map fun found => (found, g)
  | .sm => (eval (SmMultiLookup.step s.v (s.streams - 1)) (SmMultiLookup.start s.lookups s.streams)).map
      fun last => (last.result, g)
  | .coro =>
      let P := s.job.program frameSize image
      (eval (CoroMultiLookup.step P) (CoroMultiLookup.start P g.scheduler g.t g.heap s.streams)).map
        fun last => (last.result, globals last)

/-- `while (repeat-- > 0) { ... sum += result; }` -/
def sumLoop (test : Globals → Part (Nat × Globals)) : Nat → Nat → Globals → Part (Nat × Globals)
  | 0, sum, g => .some (sum, g)
  | again + 1, sum, g => do
      let (result, g) ← test g
      sumLoop test again (sum + result) g

def main {γ : Type} (random : Random γ) (argv : List String) (g : Globals) : Part (Report × Globals) :=
  match argv with
  | [_, algo, size, streams] =>
      match Algo.named algo with
      | none => .some (.usage "invalid algorithm name\n\n", g)
      | some algo =>
          match TestParam.named size with
          | none => .some (.usage "invalid size\n\n", g)
          | some param => do
              let streams ← (atoi streams : Part Int)
              if streams < 1 then .some (.usage "invalid stream count", g)
              else
                let s := (State.create random param.sizeInBytes param.lookupSize param.repeatCount).start
                  streams.toNat
                let (sum, g) ← sumLoop (testFn frameSize image algo s) s.repeatCount 0 g
                .some (if sum ≠ param.expectedResult then .bug sum param.expectedResult else .sum sum, g)
  | _ => .some (.usage none, g)

end

/-! ### The table and the keys -/

theorem length_values {γ : Type} (distribution : γ → Int × γ) (count : Nat) (generator : γ) :
    (values distribution count generator).length = count := by
  induction count generalizing generator with
  | zero => rfl
  | succ count ih =>
    simp only [values, List.length_cons, ih]

theorem values_between {γ : Type} {distribution : γ → Int × γ} {lower upper : Int}
    (between : ∀ generator, lower ≤ (distribution generator).1 ∧ (distribution generator).1 ≤ upper)
    (count : Nat) (generator : γ) : ∀ key ∈ values distribution count generator, lower ≤ key ∧ key ≤ upper := by
  induction count generalizing generator with
  | zero => simp [values]
  | succ count ih =>
    intro key drawn
    rcases List.mem_cons.mp drawn with rfl | later
    · exact between generator
    · exact ih _ key later

section
variable {γ : Type} (random : Random γ) (byteCount lookupCount repeatCount : Nat)

theorem create_cells (place : Nat) :
    cells (State.create random byteCount lookupCount repeatCount).v place =
      if place < byteCount / 4 then some ((place : Int) + place) else none := by
  unfold cells State.create
  split_ifs with inside
  · simp [inside]
  · simp [Nat.not_lt.mp inside]

theorem create_size : (State.create random byteCount lookupCount repeatCount).v.size = byteCount / 4 := by
  simp [State.create]

theorem create_sorted :
    SortedOn (cells (State.create random byteCount lookupCount repeatCount).v) 0 (byteCount / 4) := by
  intro i j x y _ order below first second
  rw [create_cells, if_pos (by omega)] at first
  rw [create_cells, if_pos below] at second
  cases first
  cases second
  omega

/-- What the table has: the even numbers below twice its size. -/
theorem create_finds (key : Int) :
    naiveFinds (State.create random byteCount lookupCount repeatCount).v key = true ↔
      0 ≤ key ∧ key < 2 * (byteCount / 4 : Nat) ∧ key % 2 = 0 := by
  have size := create_size random byteCount lookupCount repeatCount
  obtain ⟨outcome, done, correct⟩ := naive_correct key
    (create_sorted random byteCount lookupCount repeatCount) (Nat.zero_le _) size.ge
  rw [naiveFinds_eq (size.symm ▸ done), correct.answer_iff]
  constructor
  · rintro ⟨place, -, below, found⟩
    rw [create_cells, if_pos below] at found
    cases found
    omega
  · rintro ⟨positive, below, even⟩
    refine ⟨key.toNat / 2, Nat.zero_le _, by omega, ?_⟩
    rw [create_cells, if_pos (by omega)]
    exact congrArg some (by omega)

/-- The draws that are in the table: the distribution may also give odd numbers and its
upper bound, which is one past the last even number there is. -/
def hits (s : State) : Nat :=
  s.lookups.countP fun (key : Int) => decide (key % 2 = 0 ∧ key ≠ 2 * s.v.size)

theorem create_hits :
    (State.create random byteCount lookupCount repeatCount).lookups.countP
      (naiveFinds (State.create random byteCount lookupCount repeatCount).v) =
        hits (State.create random byteCount lookupCount repeatCount) := by
  apply List.countP_congr
  intro key drawn
  have bounds := values_between (fun generator => random.between 0 (_ + _) generator (by omega)) _ _ key drawn
  rw [create_finds, create_size, decide_eq_true_iff]
  omega

theorem hits_le : hits (State.create random byteCount lookupCount repeatCount) ≤ lookupCount := by
  have all : (State.create random byteCount lookupCount repeatCount).lookups.length = lookupCount :=
    length_values ..
  exact List.countP_le_length.trans all.le

end

/-! ### The three tests -/

/-- Between two calls nothing is queued and no block is out. -/
structure Ready (frameSize : Nat) (g : Globals) : Prop where
  idle : Idle g.scheduler
  pool : ∃ nodes, Pool frameSize g.t g.heap nodes []

/-- The blocks there are after a call that found `blocks` of them. -/
def blocksAfter (algo : Algo) (s : State) (blocks : Nat) : Nat :=
  if algo = .coro then max blocks s.job.peak else blocks

/-- What a call of a test gives: the keys that the naive search finds, and globals that
another call can start from. -/
structure Tested (frameSize : Nat) (algo : Algo) (s : State) (g : Globals) (last : Nat × Globals) : Prop where
  count : last.1 = s.lookups.countP (naiveFinds s.v)
  ready : Ready frameSize last.2
  blocks : last.2.heap.blocks = blocksAfter algo s g.heap.blocks

section
variable {frameSize : Nat} {image : CoroSearch.SearchFrame → Allocator.Header} {s : State} {g : Globals}

theorem testNaive_tested (ready : Ready frameSize g) :
    ∃ last ∈ testFn frameSize image .naive s g, Tested frameSize .naive s g last := by
  refine ⟨(s.lookups.countP (naiveFinds s.v), g), ?_, rfl, ready, rfl⟩
  rw [testFn, testNaive_eq]
  exact Part.mem_map _ (Part.mem_some _)

theorem testSm_tested (ready : Ready frameSize g) (positive : 1 ≤ s.streams) :
    ∃ last ∈ testFn frameSize image .sm s g, Tested frameSize .sm s g last := by
  obtain ⟨final, path, inv, finished⟩ := General.Transition.reaches_goal
    (fun t => t.control = .returned) SmMultiLookup.rank (fun t inv going => SmMultiLookup.turns inv going)
    (SmMultiLookup.start_inv s.v s.lookups positive)
  obtain ⟨result, -⟩ := inv.returned finished
  have ends : final ∈ eval (SmMultiLookup.step s.v (s.streams - 1)) (SmMultiLookup.start s.lookups s.streams) :=
    mem_eval.mpr ⟨path, by simp [SmMultiLookup.step, finished]⟩
  exact ⟨(final.result, g), Part.mem_map _ ends, result, ready, rfl⟩

theorem testCoro_tested (ready : Ready frameSize g) (positive : 1 ≤ s.streams) (few : s.streams ≤ 255) :
    ∃ last ∈ testFn frameSize image .coro s g, Tested frameSize .coro s g last := by
  obtain ⟨idle, nodes, pool⟩ := ready
  have small : s.streams < 2 ^ 32 := by omega
  obtain ⟨final, ends, inv, returned⟩ := CoroResults.reaches_returned (s.job.program frameSize image) g.t g.heap
    s.streams idle positive small
  have fewer : s.streams < N := by
    simp only [N]
    omega
  obtain ⟨core, all, result⟩ := CoroResults.returned_core inv fewer returned
  obtain ⟨progress, nothing⟩ := CoroResults.returned_progress inv fewer returned
  obtain ⟨ledger, path⟩ := audit_reaches (mem_eval.mp ends).1 []
  obtain ⟨-, recycled⟩ := reached_recycled idle pool positive small path
  have gone := (CoroResults.frames_none_iff core).mpr rfl
  have none_out : leased final = [] := by simp [leased, gone]
  refine ⟨(final.result, globals final), Part.mem_map _ ends, ?_,
    ⟨(CoroResults.at_rest core).1, none_out ▸ recycled.pool⟩, ?_⟩
  · rw [result, core.found, Lookup.tally_of_idle progress nothing id]
    rfl
  · have peak := recycled.peak
    rw [all] at peak
    exact peak

theorem testFn_tested {algo : Algo} (ready : Ready frameSize g) (positive : 1 ≤ s.streams)
    (few : algo = .coro → s.streams ≤ 255) :
    ∃ last ∈ testFn frameSize image algo s g, Tested frameSize algo s g last := by
  cases algo with
  | naive => exact testNaive_tested ready
  | sm => exact testSm_tested ready positive
  | coro => exact testCoro_tested ready positive (few rfl)

/-- A later call makes no block that the first one has not made. -/
theorem blocksAfter_again (algo : Algo) (s : State) (blocks : Nat) :
    blocksAfter algo s (blocksAfter algo s blocks) = blocksAfter algo s blocks := by
  unfold blocksAfter
  split_ifs
  · exact max_eq_left (le_max_right ..)
  · rfl

variable (image) in
theorem sumLoop_tested {algo : Algo} (positive : 1 ≤ s.streams) (few : algo = .coro → s.streams ≤ 255)
    (again sum : Nat) (ready : Ready frameSize g) :
    ∃ g', (sum + again * s.lookups.countP (naiveFinds s.v), g') ∈
        sumLoop (testFn frameSize image algo s) again sum g ∧ Ready frameSize g' ∧
      g'.heap.blocks = if again = 0 then g.heap.blocks else blocksAfter algo s g.heap.blocks := by
  induction again generalizing sum g with
  | zero => exact ⟨g, by simp [sumLoop], ready, rfl⟩
  | succ again ih =>
    have tested : ∃ last ∈ testFn frameSize image algo s g, Tested frameSize algo s g last :=
      testFn_tested ready positive few
    obtain ⟨⟨result, mid⟩, called, count, ready', blocks⟩ := tested
    have result_eq : result = s.lookups.countP (naiveFinds s.v) := count
    have grown : mid.heap.blocks = blocksAfter algo s g.heap.blocks := blocks
    obtain ⟨g', rest, ready'', blocks'⟩ := ih (sum + result) ready'
    refine ⟨g', Part.mem_bind called ?_, ready'', ?_⟩
    · have total : sum + (again + 1) * s.lookups.countP (naiveFinds s.v) =
          sum + result + again * s.lookups.countP (naiveFinds s.v) := by
        rw [result_eq, Nat.succ_mul]
        omega
      rw [total]
      exact rest
    · rw [if_neg (Nat.succ_ne_zero again), blocks', grown, blocksAfter_again, ite_self]

end

/-! ### The program -/

/-- The sizes are such that the sum stays below the bound of even a 32-bit `long`. -/
theorem named_fits {size : String} {param : TestParam} (sized : TestParam.named size = some param) :
    0 < param.repeatCount ∧ param.repeatCount * param.lookupSize < 2 ^ 31 := by
  unfold TestParam.named at sized
  split_ifs at sized <;> cases sized <;> decide

/-- The globals before `main`. -/
def initial (memory : Nat → Allocator.Header) : Globals := ⟨{ arr := fun _ => none }, {}, ⟨0, fun _ => 0, memory⟩⟩

theorem ready_initial (frameSize : Nat) (memory : Nat → Allocator.Header) : Ready frameSize (initial memory) where
  idle := ⟨rfl, Nat.zero_lt_of_lt (show 0 < N by decide)⟩
  pool := ⟨[], pool_nil frameSize memory⟩

/-- Whatever the generator draws and whichever test is run with however many streams, the
sum is the number of draws in the table for every repetition, so that the three tests pass
or fail together; and `coro` makes its frames in the first repetition, has them all back at
the end, and makes one more than there are streams or one for each key. -/
theorem main_reports {γ : Type} (random : Random γ) (frameSize : Nat)
    (image : CoroSearch.SearchFrame → Allocator.Header) (memory : Nat → Allocator.Header)
    (program algoName sizeName streamsName : String) (algo : Algo) (param : TestParam) (streams : Int)
    (named : Algo.named algoName = some algo) (sized : TestParam.named sizeName = some param)
    (given : atoi streamsName = some streams) (positive : 1 ≤ streams) (few : algo = .coro → streams ≤ 255) :
    ∃ sum g', sum = param.repeatCount *
          hits (State.create random param.sizeInBytes param.lookupSize param.repeatCount) ∧
      ((if sum = param.expectedResult then .sum sum else .bug sum param.expectedResult, g') : Report × Globals) ∈
        main frameSize image random [program, algoName, sizeName, streamsName] (initial memory) ∧
      sum < 2 ^ 31 ∧ Ready frameSize g' ∧
      g'.t.allocCount = if algo = .coro then min param.lookupSize (streams.toNat + 1) else 0 := by
  obtain ⟨again, small⟩ := named_fits sized
  let s := (State.create random param.sizeInBytes param.lookupSize param.repeatCount).start streams.toNat
  have positive' : 1 ≤ s.streams := by
    change 1 ≤ streams.toNat
    omega
  have few' : algo = .coro → s.streams ≤ 255 := by
    intro coro
    have bound := few coro
    change streams.toNat ≤ 255
    omega
  have keys : s.lookups.length = param.lookupSize := length_values ..
  obtain ⟨g', ends, ready, blocks⟩ := sumLoop_tested image positive' few' param.repeatCount 0
    (ready_initial frameSize memory)
  have found : s.lookups.countP (naiveFinds s.v) =
      hits (State.create random param.sizeInBytes param.lookupSize param.repeatCount) := create_hits ..
  rw [found, Nat.zero_add] at ends
  refine ⟨_, g', rfl, ?_, ?_, ready, ?_⟩
  · have counted : (streams : Int) ∈ ((atoi streamsName : Option Int) : Part Int) := by
      rw [given]
      exact Part.mem_some _
    simp only [main, named, sized]
    refine Part.mem_bind counted ?_
    rw [if_neg (by omega)]
    refine Part.mem_bind ends ?_
    rw [ite_not]
    exact Part.mem_some _
  · have bound := hits_le random param.sizeInBytes param.lookupSize param.repeatCount
    exact (Nat.mul_le_mul_left _ bound).trans_lt small
  · obtain ⟨nodes, pool⟩ := ready.pool
    rw [if_neg again.ne'] at blocks
    rw [pool.count, blocks, blocksAfter]
    split_ifs
    · change max 0 (min s.lookups.length (streams.toNat + 1)) = _
      rw [keys, Nat.zero_max]
    · rfl

/-- A generator that only ever gives the lower bound. -/
def lowest : Random Unit where
  seed _ := ()
  distribution lower _ _ := (lower, ())
  between _ _ _ order := ⟨le_rfl, order⟩

theorem main_reports_three_streams :
    ∃ param, TestParam.named "quick" = some param ∧
      ∃ sum g', sum = param.repeatCount *
            hits (State.create lowest param.sizeInBytes param.lookupSize param.repeatCount) ∧
        ((if sum = param.expectedResult then .sum sum else .bug sum param.expectedResult, g') : Report × Globals) ∈
          main 64 (fun _ => ⟨none, 0⟩) lowest ["nanotest", "coro", "quick", "3"] (initial fun _ => ⟨none, 0⟩) ∧
        sum < 2 ^ 31 ∧ Ready 64 g' ∧
        g'.t.allocCount = if Algo.coro = .coro then min param.lookupSize (Int.toNat 3 + 1) else 0 :=
  ⟨⟨16 * 1024, 1024, 1, 505⟩, by decide, main_reports lowest 64 (fun _ => ⟨none, 0⟩) (fun _ => ⟨none, 0⟩) "nanotest"
    "coro" "quick" "3" .coro _ 3 (by decide) (by decide) (by decide) (by decide) (by decide)⟩

end Await.NanoCoro.Nanotest
