import Await.SuperLean.Writer

/-! How `tcp_writer` goes on writing, and how it ends: it never does, but after an error it
does nothing any more. -/

namespace Await.SuperLean.Writing
open General.Callback General.Transition Pal Writer

abbrev Log := List (Entry Point Call)

/-- A write is started, or a packet posted in its place. -/
def asks : Entry Point Call → Bool
  | .call (.send _) | .call (.post _) => true
  | _ => false

/-- A write has been done at once, or a packet reports no error. -/
def succeeds : Entry Point Call → Bool
  | .result (.now _) => true
  | .packet (.onWrite ec _) => ec = 0
  | _ => false

def fails : Entry Point Call → Bool
  | .result (.failed _) => true
  | .packet (.onWrite ec _) => ec ≠ 0
  | _ => false

/-- All calls write the whole buffer. -/
def whole : Entry Point Call → Bool
  | .call (.send len) | .call (.post len) => len = writerSize
  | _ => true

/-- The constructor's write has been done at once. -/
def Opening (log : Log) : Prop := ∃ bytes, log = [.call (.send writerSize), .result (.now bytes)]

/-- A packet is posted there, and nowhere else. -/
def Posts (log : Log) : Prop :=
  ∀ before entry after, log = before ++ entry :: after → ((∃ len, entry = .call (.post len)) ↔ Opening before)

/-- The constructor's write is past. -/
def Begun (log : Log) : Prop := log ≠ [] ∧ ¬Opening log

/-- Nothing has failed, and of the writes that were asked for so many have not succeeded yet. -/
structure Going (open' : Nat) (log : Log) : Prop where
  fine : log.all fun entry => !fails entry
  sizes : log.all whole
  posts : Posts log
  balance : log.countP asks = log.countP succeeds + open'

/-- The first failure has just come. -/
def Failed (log : Log) : Prop :=
  Posts log ∧ ∃ before entry, log = before ++ [entry] ∧ Going 1 before ∧ fails entry = true

/-- What is asked for at every point of the code. -/
def writing : Assertion TcpWriter Point Lambda Call where
  working
    | .point .construct, _, log => log = []
    | .point (.completedSync len), _, log => Going 0 log ∧ Opening log ∧ len = writerSize
    | .point .writeLoop, _, log => Going 0 log ∧ Begun log
    | .point (.onWrite ec _), _, log => if ec = 0 then Going 0 log ∧ Begun log else Failed log
    | .point (.onError _), _, log | .point .onComplete, _, log => Failed log
    | .operation call _ next, _, log => Going 0 log ∧ call = .send writerSize ∧
        (next = .completedSync writerSize ∧ log = [] ∨ next = .writeLoop ∧ Begun log)
  waiting _ _ _ log := Going 1 log ∧ Begun log
  ended object log := object.isSome ∧ Failed log

section
variable {log more : Log} {n m : Nat} {w w' : TcpWriter} {point next : Point} {call : Call} {calls : List Call}
  {kind : Lambda} {sync : Bool} {result : WsaResult} {bytes ec : Nat}

theorem posts_nil : Posts [] := by
  intro before entry after split
  simp at split

/-- One entry more: it is a post where there is to be one. -/
theorem Posts.snoc {entry : Entry Point Call} (posts : Posts log)
    (here : (∃ len, entry = .call (.post len)) ↔ Opening log) : Posts (log ++ [entry]) := by
  intro before other after split
  cases after using List.reverseRecOn with
  | nil =>
    obtain ⟨rfl, same⟩ := List.append_inj' split rfl
    obtain rfl : entry = other := by simpa using same
    exact here
  | append_singleton later final =>
    rw [← List.cons_append, ← List.append_assoc] at split
    exact posts before other later (List.append_inj' split rfl).1

/-- What ends with something else is past the constructor's write. -/
theorem begun_snoc {entry : Entry Point Call} (other : ∀ bytes, entry ≠ .result (.now bytes)) : Begun (log ++ [entry]) := by
  refine ⟨by simp, ?_⟩
  rintro ⟨bytes, same⟩
  have last := congrArg List.getLast? same
  exact other bytes (by simpa using last)

/-- A write and its answer. -/
theorem Posts.write {outcome : Outcome} (posts : Posts log) (before : ¬Opening log) :
    Posts (log ++ [.call (.send writerSize), .result outcome]) := by
  rw [List.append_cons]
  exact (posts.snoc (iff_of_false (by simp) before)).snoc (iff_of_false (by simp) (begun_snoc (by simp)).2)

theorem Begun.write {outcome : Outcome} (begun : Begun log) :
    Begun (log ++ [.call (.send writerSize), .result outcome]) := by
  refine ⟨by simp, ?_⟩
  rintro ⟨bytes, same⟩
  have positive := List.length_pos_iff.mpr begun.1
  have lengths := congrArg List.length same
  simp only [List.length_append, List.length_cons, List.length_nil] at lengths
  omega

theorem not_opening_nil : ¬Opening [] := by simp [Opening]

theorem Going.append (going : Going n log) (fine : more.all fun entry => !fails entry) (sizes : more.all whole)
    (posts : Posts (log ++ more)) (balance : more.countP asks + n = more.countP succeeds + m) :
    Going m (log ++ more) := by
  refine ⟨?_, ?_, posts, ?_⟩
  · rw [List.all_append, going.fine, fine, Bool.and_self]
  · rw [List.all_append, going.sizes, sizes, Bool.and_self]
  · rw [List.countP_append, List.countP_append, going.balance]
    omega

theorem going_nil : Going 0 [] := ⟨rfl, rfl, posts_nil, rfl⟩

/-- All the ways in which the writer goes on by itself. -/
theorem exec_goto (move : exec point w = .goto w' calls next) : calls = [] ∧
    ((∃ ec nBytes, point = .onWrite ec nBytes ∧ (ec ≠ 0 ∧ next = .onError ec ∨ ec = 0 ∧ next = .writeLoop)) ∨
      ∃ ec, point = .onError ec ∧ next = .onComplete) := by
  cases point with
  | onWrite ec nBytes =>
    by_cases success : ec = 0
    · simp only [exec, TcpWriter.onWrite, success, ne_eq, not_true_eq_false, if_false, Move.goto.injEq] at move
      exact ⟨move.2.1.symm, .inl ⟨ec, nBytes, rfl, .inr ⟨success, move.2.2.symm⟩⟩⟩
    · simp only [exec, TcpWriter.onWrite, ne_eq, success, not_false_eq_true, if_true, Move.goto.injEq] at move
      exact ⟨move.2.1.symm, .inl ⟨ec, nBytes, rfl, .inl ⟨success, move.2.2.symm⟩⟩⟩
  | onError ec =>
    by_cases reset : ec = kConnectionReset
    · simp only [exec, TcpWriter.onError, reset, if_true, Move.goto.injEq] at move
      exact ⟨move.2.1.symm, .inr ⟨ec, rfl, move.2.2.symm⟩⟩
    · simp [exec, TcpWriter.onError, reset] at move
  | construct => simp [exec, TcpWriter.construct] at move
  | completedSync len => simp [exec, TcpWriter.completedSync] at move
  | writeLoop => simp [exec, TcpWriter.writeLoop] at move
  | onComplete => simp [exec, TcpWriter.onComplete] at move

/-- A packet is posted for the constructor's write only, the writer returns after an error
only, and nothing deletes it. -/
theorem exec_rest (point : Point) (w : TcpWriter) :
    (∀ w' call kind bytes, exec point w = .post w' call kind bytes →
        call = .post bytes ∧ point = .completedSync bytes) ∧
      (∀ w', exec point w = .leave w' → (∃ ec, point = .onError ec) ∨ point = .onComplete) ∧
        exec point w ≠ .delete := by
  cases point with
  | construct => simp [exec, TcpWriter.construct]
  | writeLoop => simp [exec, TcpWriter.writeLoop]
  | onWrite ec nBytes => by_cases success : ec = 0 <;> simp [exec, TcpWriter.onWrite, success]
  | onError ec => by_cases reset : ec = kConnectionReset <;> simp [exec, TcpWriter.onError, reset]
  | onComplete => simp [exec, TcpWriter.onComplete]
  | completedSync len =>
    refine ⟨fun w' call kind bytes move => ?_, by simp [exec, TcpWriter.completedSync],
      by simp [exec, TcpWriter.completedSync]⟩
    simp only [exec, TcpWriter.completedSync, Move.post.injEq] at move
    obtain ⟨-, rfl, -, rfl⟩ := move
    exact ⟨rfl, rfl⟩

theorem writing_goto (holds : writing.working (.point point) w log) (move : exec point w = .goto w' calls next) :
    writing.working (.point next) w' (log ++ calls.map Entry.call) := by
  obtain ⟨rfl, ⟨ec, nBytes, rfl, ⟨error, rfl⟩ | ⟨rfl, rfl⟩⟩ | ⟨ec, rfl, rfl⟩⟩ := exec_goto move
  · simpa [writing, error] using holds
  · simpa [writing] using holds
  · simpa [writing] using holds

theorem writing_start (holds : writing.working (.point point) w log) (move : exec point w = .start w' call kind next none) :
    writing.working (.operation call kind next) w' log := by
  obtain ⟨-, rfl, ⟨rfl, rfl⟩ | ⟨rfl, rfl⟩⟩ := exec_start move
  · obtain rfl : log = [] := holds
    exact ⟨going_nil, rfl, .inl ⟨rfl, rfl⟩⟩
  · exact ⟨holds.1, rfl, .inr ⟨rfl, holds.2⟩⟩

/-- Whatever write is under way, it is not the time for a post. -/
theorem operation_quiet (holds : writing.working (.operation call kind next) w log) : ¬Opening log := by
  obtain ⟨-, -, ⟨-, rfl⟩ | ⟨-, begun⟩⟩ := holds
  · exact not_opening_nil
  · exact begun.2

theorem writing_now (holds : writing.working (.operation call kind next) w log) :
    writing.working (.point next) w (log ++ [.call call, .result (.now bytes)]) := by
  have quiet := operation_quiet holds
  obtain ⟨going, rfl, ⟨rfl, rfl⟩ | ⟨rfl, begun⟩⟩ := holds
  · exact ⟨going.append rfl rfl (going.posts.write quiet) rfl, ⟨bytes, rfl⟩, rfl⟩
  · exact ⟨going.append rfl rfl (going.posts.write quiet) rfl, begun.write⟩

theorem writing_later (holds : writing.working (.operation call kind next) w log) :
    Going 1 (log ++ [.call call, .result .later]) ∧ Begun (log ++ [.call call, .result .later]) := by
  have quiet := operation_quiet holds
  obtain ⟨going, rfl, -⟩ := holds
  refine ⟨going.append rfl rfl (going.posts.write quiet) rfl, ?_⟩
  rw [List.append_cons]
  exact begun_snoc (by simp)

theorem writing_failed (holds : writing.working (.operation call kind next) w log)
    (responded : respond sync call result = some (.failed ec)) :
    ec ≠ 0 ∧ Failed (log ++ [.call call, .result (.failed ec)]) := by
  have quiet := operation_quiet holds
  obtain ⟨going, rfl, -⟩ := holds
  refine ⟨respond_failed responded, going.posts.write quiet, log ++ [.call (.send writerSize)], .result (.failed ec),
    by simp, going.append rfl rfl ?_ rfl, rfl⟩
  exact going.posts.snoc (iff_of_false (by simp) quiet)

theorem writing_packet (holds : Going 1 log ∧ Begun log) :
    writing.working (.point (.onWrite ec bytes)) w (log ++ [.packet (.onWrite ec bytes)]) := by
  obtain ⟨going, begun⟩ := holds
  have posts : Posts (log ++ [.packet (.onWrite ec bytes)]) := going.posts.snoc (iff_of_false (by simp) begun.2)
  by_cases success : ec = 0
  · subst success
    exact ⟨going.append rfl rfl posts rfl, begun_snoc (by simp)⟩
  · have failed : Failed (log ++ [.packet (.onWrite ec bytes)]) := ⟨posts, log, _, rfl, going, by simp [fails, success]⟩
    simpa [writing, success] using failed

theorem writing_verified (sync : Bool) : Verified (code sync) (fun _ _ => True) writing where
  leaves := code_leaves sync
  goto := writing_goto
  start := writing_start
  post := by
    intro point w log w' call kind bytes holds move
    obtain ⟨rfl, rfl⟩ := (exec_rest _ _).1 _ _ _ _ move
    obtain ⟨going, opening, rfl⟩ := holds
    exact ⟨going.append rfl rfl (going.posts.snoc (iff_of_true ⟨_, rfl⟩ opening)) rfl, begun_snoc (by simp)⟩
  leave holds move := by
    rcases (exec_rest _ _).2.1 _ move with ⟨ec, rfl⟩ | rfl
    · exact ⟨rfl, holds⟩
    · exact ⟨rfl, holds⟩
  delete _ move := absurd move (exec_rest _ _).2.2
  now holds _ _ := writing_now holds
  later holds _ := writing_later holds
  failed := by
    intro call kind next w log result ec holds responded
    obtain ⟨nonzero, failed⟩ := writing_failed holds responded
    simpa [writing, code, invoke, nonzero] using failed
  packet holds _ := writing_packet holds

/-! ### Every run -/

theorem fails_cases {entry : Entry Point Call} (failing : fails entry = true) :
    asks entry = false ∧ succeeds entry = false ∧ whole entry = true := by
  cases entry with
  | call e => simp [fails] at failing
  | result outcome =>
    cases outcome with
    | failed ec => exact ⟨rfl, rfl, rfl⟩
    | now bytes => simp [fails] at failing
    | later => simp [fails] at failing
  | packet point =>
    cases point with
    | onWrite ec bytes =>
      have error : ec ≠ 0 := by simpa [fails] using failing
      exact ⟨rfl, by simp [succeeds, error], rfl⟩
    | _ => simp [fails] at failing

/-- What the log of a writer shows: it writes whole buffers, one at a time, each after the one
before it has succeeded, after the constructor's write done at once by a posted packet and never
else so, and nothing after a failure. -/
structure Writes (log : Log) : Prop where
  sizes : ∀ len, .call (.send len) ∈ log ∨ .call (.post len) ∈ log → len = writerSize
  posts : Posts log
  single : log.countP asks ≤ log.countP succeeds + 1
  last : ∀ before entry after, log = before ++ entry :: after → fails entry = true → after = []

theorem sizes_of_whole (sizes : log.all whole) {len : Nat}
    (member : .call (.send len) ∈ log ∨ .call (.post len) ∈ log) : len = writerSize := by
  rcases member with sent | posted
  · have checked := List.all_eq_true.mp sizes _ sent
    simpa [whole] using checked
  · have checked := List.all_eq_true.mp sizes _ posted
    simpa [whole] using checked

theorem Going.writes (going : Going n log) (few : n ≤ 1) : Writes log := by
  refine ⟨fun len member => sizes_of_whole going.sizes member, going.posts, by rw [going.balance]; omega, ?_⟩
  rintro before entry after rfl failing
  have fine := List.all_eq_true.mp going.fine entry (by simp)
  simp [failing] at fine

theorem Failed.balance (failed : Failed log) : log.countP asks = log.countP succeeds + 1 := by
  obtain ⟨-, before, entry, rfl, going, failing⟩ := failed
  obtain ⟨silent, unsuccessful, -⟩ := fails_cases failing
  simp [List.countP_append, silent, unsuccessful, going.balance]

theorem Failed.writes (failed : Failed log) : Writes log := by
  have balance := failed.balance
  obtain ⟨posts, before, entry, rfl, going, failing⟩ := failed
  refine ⟨fun len member => sizes_of_whole ?_ member, posts, by rw [balance], fun early other after split failing' => ?_⟩
  · rw [List.all_append, going.sizes, List.all_cons, (fails_cases failing).2.2]
    rfl
  · cases after using List.reverseRecOn with
    | nil => rfl
    | append_singleton later final =>
      -- a failure before the last entry is one of the entries that are fine
      have same : before = early ++ other :: later := by
        rw [← List.cons_append, ← List.append_assoc] at split
        exact (List.append_inj' split rfl).1
      have fine := List.all_eq_true.mp going.fine other (by simp [same])
      simp [failing'] at fine

theorem writing_writes {pending : Pending Point Lambda Call} (holds : writing.working pending w log) : Writes log := by
  cases pending with
  | operation call kind next => exact holds.1.writes (Nat.zero_le 1)
  | point point =>
    cases point with
    | construct =>
      obtain rfl : log = [] := holds
      exact going_nil.writes (Nat.zero_le 1)
    | writeLoop | completedSync len => exact Going.writes holds.1 (Nat.zero_le 1)
    | onError ec | onComplete => exact Failed.writes holds
    | onWrite ec nBytes =>
      by_cases success : ec = 0
      · have going : Going 0 log ∧ Begun log := by simpa [writing, success] using holds
        exact going.1.writes (Nat.zero_le 1)
      · have failed : Failed log := by simpa [writing, success] using holds
        exact failed.writes

end

/-- A writer at any moment. -/
structure Kept {η σ : Type} (s : WriterState η σ) : Prop where
  object : s.object.isSome
  writes : Writes s.log
  rests : (∀ stack ∈ s.threads, stack = []) → s.log.countP asks = s.log.countP succeeds + 1 ∧
    ((∃ a, s.attached = [a]) ∧ (∀ entry ∈ s.log, fails entry = false) ∨
      s.attached = [] ∧ ∃ entry ∈ s.log, fails entry = true)

theorem kept_of_sound {η σ : Type} {S : Supply Lambda η σ} {s : WriterState η σ} {sync : Bool}
    (sound : Sound (code sync) S writing s) : Kept s := by
  cases sound.phase with
  | waiting a object attached present others holds =>
    have going : Going 1 s.log := holds.1
    refine ⟨by simp [present], going.writes (Nat.le_refl 1), fun _ => ⟨going.balance, .inl ⟨⟨a, attached⟩, ?_⟩⟩⟩
    intro entry member
    simpa using List.all_eq_true.mp going.fine entry member
  | ended attached others holds =>
    obtain ⟨present, failed⟩ := holds
    refine ⟨present, failed.writes, fun _ => ⟨failed.balance, .inr ⟨attached, ?_⟩⟩⟩
    obtain ⟨-, before, entry, split, -, failing⟩ := failed
    exact ⟨entry, by simp [split], failing⟩
  | working i stack pending object attached present running works others holds =>
    have writes : Writes s.log := writing_writes holds
    refine ⟨by simp [present], writes, fun rest => ?_⟩
    have empty := rest stack (List.mem_of_getElem? running)
    subst empty
    cases works

/-- In every run of either writer, whichever thread has the packets and whether writes may be
done at once or not: it writes whole buffers, one at a time, each as soon as the one before has
succeeded, and posts a packet after the constructor's write done at once and nowhere else; when
all threads have returned either one write or packet is still to complete or there was an error,
after which nothing is written any more; and the writer is never deleted, after an error neither,
so that its connection stays open for good. -/
theorem writers_kept (sync : Bool) (choices : List (Choice WsaResult)) :
    (∀ s, run (traditionalWriter sync) traditionalStart choices = some s → Kept s) ∧
      ∀ s, run (improvedWriter sync) improvedStart choices = some s → Kept s := by
  have fresh : writing.working (.point .construct) ⟨⟩ [] := rfl
  constructor
  · intro s path
    have sound : Sound (code sync) (Reader.freshHandlers Lambda) writing traditionalStart := launch_sound fresh
    exact kept_of_sound (sound.run (writing_verified sync) path (meets_any choices))
  · intro s path
    have sound : Sound (code sync) ownHandler writing improvedStart := launch_sound fresh
    exact kept_of_sound (sound.run (writing_verified sync) path (meets_any choices))

/-- The first write is done at once, the second one fails with a reset connection. -/
theorem writers_kept_reset :
    let choices : List (Choice WsaResult) :=
      [.thread 0, .respond 0 (.done 4096), .thread 0, .thread 0, .packet 0 0 4096, .thread 1, .thread 1, .thread 1,
        .respond 1 .pending, .thread 1, .thread 1, .packet 0 10054 0, .thread 2, .thread 2, .thread 2,
          .thread 2, .thread 2]
    ∃ s, run (improvedWriter true) improvedStart choices = some s ∧ s.threads = [[], [], []] ∧
      s.attached = [] ∧ Kept s := by
  intro choices
  exact ⟨_, rfl, rfl, rfl, (writers_kept true choices).2 _ rfl⟩

end Await.SuperLean.Writing
