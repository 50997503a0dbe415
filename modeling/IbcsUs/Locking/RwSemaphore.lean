import IbcsUs.Core.Runs

/-!
# Semaphores

A `struct rw_semaphore` is one word, which is 1 while nobody is inside.  `down_read` takes
it down to 0 with a compare and swap and sleeps on the futex of the word where that fails;
`up_read` puts it back to 1 and wakes one thread.  `down_write` and `up_write` are the same
two functions.  Any number of threads run through them, a step at a time and in any order;
a signal may end a sleep at any time, and the kernel wakes whichever sleeper it likes.
-/

namespace IbcsUs.Locking

open IbcsUs.Runs

/-- Where a thread is in `down_read` and `up_read`. -/
inductive Place where
  /-- It has nothing to do with the semaphore. -/
  | out
  /-- In `down_read`, before the compare and swap. -/
  | trying
  /-- In `down_read`, before `FUTEX_WAIT`. -/
  | waiting
  /-- In `FUTEX_WAIT`. -/
  | asleep
  /-- Behind `down_read` and before `up_read`. -/
  | inside
  /-- In `up_read`, before the compare and swap. -/
  | leaving
  /-- In `up_read`, before `FUTEX_WAKE`. -/
  | waking
  deriving DecidableEq

variable {Thread : Type*} [DecidableEq Thread]

/-- The word, the threads and those that sleep on the word. -/
structure RwSemaphore (Thread : Type*) where
  rwSemaphoreFutex : ℕ
  place : Thread → Place
  sleepers : List Thread

/-- `init_rwsem`, before any thread has called. -/
def initRwsem : RwSemaphore Thread := ⟨1, fun _ => .out, []⟩

/-- What a thread does next; a wake names the sleeper that the kernel chooses. -/
inductive Action (Thread : Type*) where
  | down (thread : Thread)
  | swap (thread : Thread)
  | futexWait (thread : Thread)
  | interrupt (thread : Thread)
  | up (thread : Thread)
  | swapBack (thread : Thread)
  | futexWake (thread : Thread) (chosen : Option Thread)

/-- The thread whose step it is. -/
def Action.thread : Action Thread → Thread
  | .down thread | .swap thread | .futexWait thread | .interrupt thread | .up thread
  | .swapBack thread | .futexWake thread _ => thread

namespace RwSemaphore

variable (sem : RwSemaphore Thread)

def move (thread : Thread) (place : Place) : RwSemaphore Thread :=
  { sem with place := Function.update sem.place thread place }

/-- The thread has slept, and goes back to the compare and swap. -/
def rouse (thread : Thread) : RwSemaphore Thread :=
  { sem.move thread .trying with sleepers := sem.sleepers.erase thread }

/-- `__sync_bool_compare_and_swap`. -/
def compareAndSwap (old new : ℕ) : Option (RwSemaphore Thread) :=
  if sem.rwSemaphoreFutex = old then some { sem with rwSemaphoreFutex := new } else none

end RwSemaphore

/-- One step of `down_read` or `up_read`. -/
def semStep (sem : RwSemaphore Thread) : Action Thread → Option (RwSemaphore Thread)
  | .down thread => if sem.place thread = .out then some (sem.move thread .trying) else none
  | .swap thread =>
      if sem.place thread = .trying then
        match sem.compareAndSwap 1 0 with
        | some taken => some (taken.move thread .inside)
        | none => some (sem.move thread .waiting)
      else none
  | .futexWait thread =>
      if sem.place thread = .waiting then
        -- the kernel looks at the word before it lets the thread sleep
        if sem.rwSemaphoreFutex = 0 then
          some { sem.move thread .asleep with sleepers := sem.sleepers ++ [thread] }
        else some (sem.move thread .trying)
      else none
  | .interrupt thread => if sem.place thread = .asleep then some (sem.rouse thread) else none
  | .up thread => if sem.place thread = .inside then some (sem.move thread .leaving) else none
  | .swapBack thread =>
      if sem.place thread = .leaving then
        match sem.compareAndSwap 0 1 with
        | some given => some (given.move thread .waking)
        | none => some (sem.move thread .out)
      else none
  | .futexWake thread chosen =>
      if sem.place thread = .waking then
        match chosen with
        | none => if sem.sleepers = [] then some (sem.move thread .out) else none
        | some sleeper =>
            if sleeper ∈ sem.sleepers then some ((sem.move thread .out).rouse sleeper)
            else none
      else none

/-! ## What is kept -/

/-- The thread has taken the word down and not yet put it back. -/
def Place.Holds (place : Place) : Prop := place = .inside ∨ place = .leaving

/-- The thread is on its way, awake. -/
def Place.Awake (place : Place) : Prop := place ≠ .out ∧ place ≠ .asleep

instance : DecidablePred Place.Holds := fun place =>
  inferInstanceAs (Decidable (place = .inside ∨ place = .leaving))

instance : DecidablePred Place.Awake := fun place =>
  inferInstanceAs (Decidable (place ≠ .out ∧ place ≠ .asleep))

/-- What holds of the semaphore between any two steps. -/
structure SemInv (sem : RwSemaphore Thread) : Prop where
  /-- At most one thread holds it. -/
  alone : ∀ first second, (sem.place first).Holds → (sem.place second).Holds → first = second
  /-- The word says whether one does. -/
  word : sem.rwSemaphoreFutex = 0 ∧ (∃ thread, (sem.place thread).Holds) ∨
    sem.rwSemaphoreFutex = 1 ∧ ∀ thread, ¬ (sem.place thread).Holds
  queued : ∀ thread, thread ∈ sem.sleepers ↔ sem.place thread = .asleep
  nodup : sem.sleepers.Nodup
  /-- Where one sleeps, another one is on its way and will wake it. -/
  awake : ∀ thread, sem.place thread = .asleep → ∃ other, (sem.place other).Awake

section Steps

variable {sem next : RwSemaphore Thread}

@[simp]
theorem place_move (sem : RwSemaphore Thread) (thread : Thread) (place : Place) :
    (sem.move thread place).place = Function.update sem.place thread place := rfl

@[simp]
theorem sleepers_move (sem : RwSemaphore Thread) (thread : Thread) (place : Place) :
    (sem.move thread place).sleepers = sem.sleepers := rfl

@[simp]
theorem futex_move (sem : RwSemaphore Thread) (thread : Thread) (place : Place) :
    (sem.move thread place).rwSemaphoreFutex = sem.rwSemaphoreFutex := rfl

omit [DecidableEq Thread] in
theorem semInv_init : SemInv (initRwsem : RwSemaphore Thread) := by
  have hout (thread : Thread) : ¬ ((initRwsem : RwSemaphore Thread).place thread).Holds :=
    fun h => by rcases h with h | h <;> cases h
  refine ⟨fun first _ hfirst => absurd hfirst (hout first), .inr ⟨rfl, hout⟩, ?_, List.nodup_nil,
    fun _ h => by cases h⟩
  intro thread
  constructor
  · intro hmem
    cases hmem
  · intro hplace
    cases hplace

omit [DecidableEq Thread] in
/-- A step that leaves the word and those who hold it alone. -/
theorem SemInv.of_holds (hinv : SemInv sem)
    (hholds : ∀ thread, (next.place thread).Holds ↔ (sem.place thread).Holds)
    (hword : next.rwSemaphoreFutex = sem.rwSemaphoreFutex)
    (hqueued : ∀ thread, thread ∈ next.sleepers ↔ next.place thread = .asleep)
    (hnodup : next.sleepers.Nodup)
    (hawake : ∀ thread, next.place thread = .asleep →
      ∃ other, (next.place other).Awake) : SemInv next := by
  refine ⟨fun first second hfirst hsecond => ?_, ?_, hqueued, hnodup, hawake⟩
  · exact hinv.alone first second ((hholds first).mp hfirst) ((hholds second).mp hsecond)
  · simp only [hholds, hword]
    exact hinv.word

/-- A step of a thread between two places outside the queue, neither of which it holds the
word in or both of which. -/
theorem SemInv.move (hinv : SemInv sem) {thread : Thread} {place : Place}
    (hholds : place.Holds ↔ (sem.place thread).Holds) (hasleep : sem.place thread ≠ .asleep)
    (hplace : place.Awake) : SemInv (sem.move thread place) := by
  apply hinv.of_holds
  · intro other
    rw [place_move, Function.update_apply]
    split
    · next heq => rw [heq, hholds]
    · rfl
  · rfl
  · intro other
    rw [sleepers_move, hinv.queued, place_move, Function.update_apply]
    split
    · next heq => exact iff_of_false (heq ▸ hasleep) hplace.2
    · rfl
  · exact hinv.nodup
  · intro _ _
    refine ⟨thread, ?_⟩
    rw [place_move, Function.update_self]
    exact hplace

/-- The word is taken by a thread while nobody holds it. -/
theorem SemInv.take (hinv : SemInv sem) {thread : Thread}
    (hplace : sem.place thread = .trying) (hfree : sem.rwSemaphoreFutex = 1) :
    SemInv ({ sem with rwSemaphoreFutex := 0 }.move thread .inside) := by
  have hnone : ∀ other, ¬ (sem.place other).Holds := by
    rcases hinv.word with ⟨hword, -⟩ | ⟨-, hnone⟩
    · omega
    · exact hnone
  have hholds (other : Thread) :
      (Function.update sem.place thread .inside other).Holds ↔ other = thread := by
    rw [Function.update_apply]
    split
    · next heq => exact iff_of_true (.inl rfl) heq
    · next hne => exact iff_of_false (hnone other) hne
  constructor
  · intro first second hfirst hsecond
    rw [(hholds first).mp hfirst, (hholds second).mp hsecond]
  · exact .inl ⟨rfl, thread, (hholds thread).mpr rfl⟩
  · intro other
    rw [sleepers_move, hinv.queued, place_move, Function.update_apply]
    split
    · next heq =>
      rw [heq, hplace]
      exact iff_of_false (by decide) (by decide)
    · rfl
  · exact hinv.nodup
  · intro _ _
    refine ⟨thread, ?_⟩
    rw [place_move, Function.update_self]
    decide

/-- The word is given back by the one thread that holds it. -/
theorem SemInv.give (hinv : SemInv sem) {thread : Thread}
    (hplace : sem.place thread = .leaving) :
    SemInv ({ sem with rwSemaphoreFutex := 1 }.move thread .waking) := by
  have hthis : (sem.place thread).Holds := .inr hplace
  have hnone (other : Thread) :
      ¬ (Function.update sem.place thread .waking other).Holds := by
    rw [Function.update_apply]
    split
    · decide
    · next hne => exact fun h => hne (hinv.alone other thread h hthis)
  constructor
  · exact fun first _ hfirst => absurd hfirst (hnone first)
  · exact .inr ⟨rfl, hnone⟩
  · intro other
    rw [sleepers_move, hinv.queued, place_move, Function.update_apply]
    split
    · next heq =>
      rw [heq, hplace]
      exact iff_of_false (by decide) (by decide)
    · rfl
  · exact hinv.nodup
  · intro _ _
    refine ⟨thread, ?_⟩
    rw [place_move, Function.update_self]
    decide

/-- A thread falls asleep while another one is inside. -/
theorem SemInv.sleep (hinv : SemInv sem) {thread : Thread}
    (hplace : sem.place thread = .waiting) (htaken : sem.rwSemaphoreFutex = 0) :
    SemInv { sem.move thread .asleep with sleepers := sem.sleepers ++ [thread] } := by
  have hfresh : thread ∉ sem.sleepers := by
    rw [hinv.queued, hplace]
    decide
  obtain ⟨holder, hholder⟩ : ∃ holder, (sem.place holder).Holds := by
    rcases hinv.word with ⟨-, hholder⟩ | ⟨hword, -⟩
    · exact hholder
    · omega
  have hne : holder ≠ thread := by
    rintro rfl
    rw [hplace] at hholder
    exact absurd hholder (by decide)
  apply hinv.of_holds
  · intro other
    rw [place_move, Function.update_apply]
    split
    · next heq =>
      rw [heq, hplace]
      exact iff_of_false (by decide) (by decide)
    · rfl
  · rfl
  · intro other
    rw [place_move, Function.update_apply, List.mem_append, List.mem_singleton]
    split
    · next heq => exact iff_of_true (.inr heq) rfl
    · next hother => rw [← hinv.queued, or_iff_left hother]
  · exact hinv.nodup.append (List.nodup_singleton _) (by simpa using hfresh)
  · intro _ _
    refine ⟨holder, ?_⟩
    rw [place_move, Function.update_of_ne hne]
    rcases hholder with hholder | hholder <;> rw [hholder] <;> decide

/-- A sleeper goes back to its compare and swap. -/
theorem SemInv.rouse (hinv : SemInv sem) {thread : Thread}
    (hplace : sem.place thread = .asleep) : SemInv (sem.rouse thread) := by
  apply hinv.of_holds
  · intro other
    rw [RwSemaphore.rouse, place_move, Function.update_apply]
    split
    · next heq =>
      rw [heq, hplace]
      exact iff_of_false (by decide) (by decide)
    · rfl
  · rfl
  · intro other
    rw [RwSemaphore.rouse, hinv.nodup.mem_erase_iff, place_move, Function.update_apply]
    split
    · next heq => exact iff_of_false (fun hmem => hmem.1 heq) (by decide)
    · next hother => rw [← hinv.queued, and_iff_right hother]
  · exact hinv.nodup.erase _
  · intro _ _
    refine ⟨thread, ?_⟩
    rw [RwSemaphore.rouse, place_move, Function.update_self]
    decide

/-- A thread that has nothing more to do leaves, and nobody sleeps or another one is on its
way. -/
theorem SemInv.leave (hinv : SemInv sem) {thread : Thread}
    (hplace : sem.place thread = .waking)
    (hother : sem.sleepers = [] ∨ ∃ other, other ≠ thread ∧ (sem.place other).Awake) :
    SemInv (sem.move thread .out) := by
  have hqueued : ∀ other, other ∈ sem.sleepers ↔
      Function.update sem.place thread Place.out other = .asleep := by
    intro other
    rw [hinv.queued, Function.update_apply]
    split
    · next heq =>
      rw [heq, hplace]
      exact iff_of_false (by decide) (by decide)
    · rfl
  apply hinv.of_holds
  · intro other
    rw [place_move, Function.update_apply]
    split
    · next heq =>
      rw [heq, hplace]
      exact iff_of_false (by decide) (by decide)
    · rfl
  · rfl
  · exact hqueued
  · exact hinv.nodup
  · intro sleeper hsleeper
    rcases hother with hempty | ⟨other, hne, hawake⟩
    · have hmem := (hqueued sleeper).mpr hsleeper
      rw [hempty] at hmem
      cases hmem
    · refine ⟨other, ?_⟩
      rw [place_move, Function.update_of_ne hne]
      exact hawake

/-- The two halves of a wake are the same in either order. -/
theorem rouse_move {thread sleeper : Thread} (hne : sleeper ≠ thread) (place : Place) :
    (sem.move thread place).rouse sleeper = (sem.rouse sleeper).move thread place := by
  simp only [RwSemaphore.rouse, RwSemaphore.move, RwSemaphore.mk.injEq, true_and, and_true]
  exact Function.update_comm hne.symm _ _ _

/-- One step. -/
theorem SemInv.step (hinv : SemInv sem) {action : Action Thread}
    (hstep : semStep sem action = some next) : SemInv next := by
  cases action with
  | down thread =>
      obtain ⟨hplace, heq⟩ := Option.ite_none_right_eq_some.mp hstep
      rw [← Option.some.inj heq]
      exact hinv.move (by rw [hplace]; decide) (by rw [hplace]; decide) (by decide)
  | swap thread =>
      obtain ⟨hplace, heq⟩ := Option.ite_none_right_eq_some.mp hstep
      rw [RwSemaphore.compareAndSwap] at heq
      by_cases hfree : sem.rwSemaphoreFutex = 1
      · rw [if_pos hfree] at heq
        rw [← Option.some.inj heq]
        exact hinv.take hplace hfree
      · rw [if_neg hfree] at heq
        rw [← Option.some.inj heq]
        exact hinv.move (by rw [hplace]; decide) (by rw [hplace]; decide) (by decide)
  | futexWait thread =>
      obtain ⟨hplace, heq⟩ := Option.ite_none_right_eq_some.mp hstep
      by_cases htaken : sem.rwSemaphoreFutex = 0
      · rw [if_pos htaken] at heq
        rw [← Option.some.inj heq]
        exact hinv.sleep hplace htaken
      · rw [if_neg htaken] at heq
        rw [← Option.some.inj heq]
        exact hinv.move (by rw [hplace]; decide) (by rw [hplace]; decide) (by decide)
  | interrupt thread =>
      obtain ⟨hplace, heq⟩ := Option.ite_none_right_eq_some.mp hstep
      rw [← Option.some.inj heq]
      exact hinv.rouse hplace
  | up thread =>
      obtain ⟨hplace, heq⟩ := Option.ite_none_right_eq_some.mp hstep
      rw [← Option.some.inj heq]
      exact hinv.move (by rw [hplace]; decide) (by rw [hplace]; decide) (by decide)
  | swapBack thread =>
      obtain ⟨hplace, heq⟩ := Option.ite_none_right_eq_some.mp hstep
      have htaken : sem.rwSemaphoreFutex = 0 := by
        rcases hinv.word with ⟨htaken, -⟩ | ⟨-, hnone⟩
        · exact htaken
        · exact absurd (.inr hplace) (hnone thread)
      rw [RwSemaphore.compareAndSwap, if_pos htaken] at heq
      rw [← Option.some.inj heq]
      exact hinv.give hplace
  | futexWake thread chosen =>
      obtain ⟨hplace, heq⟩ := Option.ite_none_right_eq_some.mp hstep
      cases chosen with
      | none =>
          obtain ⟨hempty, heq⟩ := Option.ite_none_right_eq_some.mp heq
          rw [← Option.some.inj heq]
          exact hinv.leave hplace (.inl hempty)
      | some sleeper =>
          obtain ⟨hmem, heq⟩ := Option.ite_none_right_eq_some.mp heq
          have hasleep := (hinv.queued sleeper).mp hmem
          have hne : sleeper ≠ thread := by
            rintro rfl
            rw [hplace] at hasleep
            cases hasleep
          rw [← Option.some.inj heq, rouse_move hne]
          apply (hinv.rouse hasleep).leave
          · rw [RwSemaphore.rouse, place_move, Function.update_of_ne hne.symm, hplace]
          · refine .inr ⟨sleeper, hne, ?_⟩
            rw [RwSemaphore.rouse, place_move, Function.update_self]
            decide

/-- A step moves no thread that holds the word but the one whose step it is. -/
theorem place_of_holds (hinv : SemInv sem) {action : Action Thread}
    (hstep : semStep sem action = some next) {holder : Thread}
    (hholder : (sem.place holder).Holds) (hother : action.thread ≠ holder) :
    next.place holder = sem.place holder := by
  have hmove (place : Place) :
      Function.update sem.place action.thread place holder = sem.place holder :=
    Function.update_of_ne hother.symm _ _
  cases action with
  | down thread =>
      rw [← Option.some.inj (Option.ite_none_right_eq_some.mp hstep).2]
      exact hmove _
  | swap thread =>
      have heq := (Option.ite_none_right_eq_some.mp hstep).2
      rw [RwSemaphore.compareAndSwap] at heq
      split at heq
      · next taken htaken =>
        rw [← Option.some.inj heq, ← Option.some.inj (Option.ite_none_right_eq_some.mp htaken).2]
        exact hmove _
      · rw [← Option.some.inj heq]
        exact hmove _
  | futexWait thread =>
      have heq := (Option.ite_none_right_eq_some.mp hstep).2
      split at heq <;> rw [← Option.some.inj heq] <;> exact hmove _
  | interrupt thread =>
      rw [← Option.some.inj (Option.ite_none_right_eq_some.mp hstep).2]
      exact hmove _
  | up thread =>
      rw [← Option.some.inj (Option.ite_none_right_eq_some.mp hstep).2]
      exact hmove _
  | swapBack thread =>
      have heq := (Option.ite_none_right_eq_some.mp hstep).2
      rw [RwSemaphore.compareAndSwap] at heq
      split at heq
      · next given hgiven =>
        rw [← Option.some.inj heq, ← Option.some.inj (Option.ite_none_right_eq_some.mp hgiven).2]
        exact hmove _
      · rw [← Option.some.inj heq]
        exact hmove _
  | futexWake thread chosen =>
      have heq := (Option.ite_none_right_eq_some.mp hstep).2
      cases chosen with
      | none =>
          rw [← Option.some.inj (Option.ite_none_right_eq_some.mp heq).2]
          exact hmove _
      | some sleeper =>
          obtain ⟨hmem, heq⟩ := Option.ite_none_right_eq_some.mp heq
          have hne : holder ≠ sleeper := by
            rintro rfl
            rw [(hinv.queued holder).mp hmem] at hholder
            exact absurd hholder (by decide)
          rw [← Option.some.inj heq, RwSemaphore.rouse, place_move, Function.update_of_ne hne]
          exact hmove _

end Steps

/-! ## Any interleaving -/

section Runs

variable {sem final : RwSemaphore Thread}

theorem semInv_run {actions : List (Action Thread)}
    (hrun : run semStep initRwsem actions = some final) : SemInv final :=
  invariant_run (fun _ _ _ hinv hstep => hinv.step hstep) semInv_init hrun

/-- While the thread inside takes no step it stays there. -/
theorem place_of_run {actions : List (Action Thread)} {holder : Thread} (hinv : SemInv sem)
    (hholder : (sem.place holder).Holds) (hothers : ∀ action ∈ actions, action.thread ≠ holder)
    (hrun : run semStep sem actions = some final) :
    SemInv final ∧ final.place holder = sem.place holder := by
  induction actions generalizing sem with
  | nil =>
      rw [run_nil] at hrun
      rw [← Option.some.inj hrun]
      exact ⟨hinv, rfl⟩
  | cons action actions ih =>
      rw [run_cons] at hrun
      obtain ⟨next, hnext, hrest⟩ := Option.bind_eq_some_iff.mp hrun
      have hplace := place_of_holds hinv hnext hholder (hothers action List.mem_cons_self)
      obtain ⟨hfinal, hsame⟩ := ih (hinv.step hnext) (hplace ▸ hholder)
        (fun other hmem => hothers other (List.mem_cons_of_mem _ hmem)) hrest
      exact ⟨hfinal, hsame.trans hplace⟩

/-- In any interleaving at most one thread is between its `down_read` and the word's return,
reader or writer, and the word is 0 exactly while there is one.  As long as that thread takes
no step, no other one gets there: a handler that interrupts it must not call `down_read`. -/
theorem semaphore_excludes {actions : List (Action Thread)}
    (hrun : run semStep initRwsem actions = some sem) :
    (∀ first second, (sem.place first).Holds → (sem.place second).Holds → first = second) ∧
      (sem.rwSemaphoreFutex = 0 ↔ ∃ thread, (sem.place thread).Holds) ∧
      (sem.rwSemaphoreFutex = 1 ↔ ∀ thread, ¬ (sem.place thread).Holds) ∧
      ∀ holder, (sem.place holder).Holds → ∀ (later : List (Action Thread)) final,
        (∀ action ∈ later, action.thread ≠ holder) → run semStep sem later = some final →
        ∀ thread, (final.place thread).Holds ↔ thread = holder := by
  have hinv := semInv_run hrun
  refine ⟨hinv.alone, ?_, ?_, ?_⟩
  · rcases hinv.word with ⟨hword, hholder⟩ | ⟨hword, hnone⟩
    · exact iff_of_true hword hholder
    · exact iff_of_false (by omega) fun ⟨thread, hthread⟩ => hnone thread hthread
  · rcases hinv.word with ⟨hword, thread, hthread⟩ | ⟨hword, hnone⟩
    · exact iff_of_false (by omega) fun hnone => hnone thread hthread
    · exact iff_of_true hword hnone
  · intro holder hholder later final hothers hlater thread
    obtain ⟨hfinal, hplace⟩ := place_of_run hinv hholder hothers hlater
    rw [← hplace] at hholder
    refine ⟨fun hthread => hfinal.alone thread holder hthread hholder, ?_⟩
    rintro rfl
    exact hholder

/-- Two threads, one of which is inside while the other one sleeps. -/
theorem semaphore_excludes_two :
    ∃ sem : RwSemaphore Bool, run semStep initRwsem
        [.down false, .swap false, .down true, .swap true, .futexWait true] = some sem ∧
      (sem.rwSemaphoreFutex = 0 ↔ ∃ thread, (sem.place thread).Holds) :=
  ⟨_, rfl, (semaphore_excludes
    (show run semStep initRwsem [.down false, .swap false, .down true, .swap true,
      .futexWait true] = some _ from rfl)).2.1⟩

/-! ## Nobody is forgotten -/

/-- A step of a thread that is on its way already, and no signal. -/
def Action.GoesOn : Action Thread → Prop
  | .down _ | .interrupt _ => False
  | _ => True

/-- The threads on their way can go on so that the thread gets in. -/
def LetsIn (sem : RwSemaphore Thread) (thread : Thread) : Prop :=
  ∃ actions final, (∀ action ∈ actions, action.GoesOn) ∧
    run semStep sem actions = some final ∧ final.place thread = .inside

theorem LetsIn.step {next : RwSemaphore Thread} {action : Action Thread} {thread : Thread}
    (hstep : semStep sem action = some next) (hgoes : action.GoesOn)
    (hnext : LetsIn next thread) : LetsIn sem thread := by
  obtain ⟨actions, final, hall, hrun, hinside⟩ := hnext
  refine ⟨action :: actions, final, ?_, ?_, hinside⟩
  · intro other hother
    rcases List.mem_cons.mp hother with rfl | hmem
    · exact hgoes
    · exact hall other hmem
  · rw [run_cons, hstep]
    exact hrun

/-- A thread before its compare and swap finds the word at 1. -/
theorem letsIn_of_trying {thread : Thread} (hplace : sem.place thread = .trying)
    (hfree : sem.rwSemaphoreFutex = 1) : LetsIn sem thread := by
  refine ⟨[.swap thread], { sem with rwSemaphoreFutex := 0 }.move thread .inside, ?_, ?_, ?_⟩
  · intro action haction
    rw [List.mem_singleton.mp haction]
    trivial
  · rw [run_cons, semStep, if_pos hplace, RwSemaphore.compareAndSwap, if_pos hfree]
    rfl
  · rw [place_move, Function.update_self]

/-- A thread before its sleep finds the word at 1. -/
theorem letsIn_of_waiting {thread : Thread} (hplace : sem.place thread = .waiting)
    (hfree : sem.rwSemaphoreFutex = 1) : LetsIn sem thread := by
  have hstep : semStep sem (.futexWait thread) = some (sem.move thread .trying) := by
    rw [semStep, if_pos hplace, if_neg (by omega)]
  refine LetsIn.step hstep trivial (letsIn_of_trying ?_ hfree)
  rw [place_move, Function.update_self]

/-- A sleeper is chosen by a wake that is due. -/
theorem letsIn_of_waking {thread waker : Thread} (hinv : SemInv sem)
    (hplace : sem.place thread = .asleep) (hwaker : sem.place waker = .waking)
    (hfree : sem.rwSemaphoreFutex = 1) : LetsIn sem thread := by
  have hstep : semStep sem (.futexWake waker (some thread)) =
      some ((sem.move waker .out).rouse thread) := by
    rw [semStep, if_pos hwaker, if_pos ((hinv.queued thread).mpr hplace)]
  refine LetsIn.step hstep trivial (letsIn_of_trying ?_ hfree)
  rw [RwSemaphore.rouse, place_move, Function.update_self]

/-- A thread that wants in. -/
def Place.Wants (place : Place) : Prop := place = .trying ∨ place = .waiting ∨ place = .asleep

/-- Once the word has been given back and the wake is due, any thread that wants in can get
in. -/
theorem letsIn_of_due {thread waker : Thread} (hinv : SemInv sem)
    (hplace : (sem.place thread).Wants) (hwaker : sem.place waker = .waking)
    (hfree : sem.rwSemaphoreFutex = 1) : LetsIn sem thread := by
  rcases hplace with hplace | hplace | hplace
  · exact letsIn_of_trying hplace hfree
  · exact letsIn_of_waiting hplace hfree
  · exact letsIn_of_waking hinv hplace hwaker hfree

/-- The thread inside leaves. -/
theorem letsIn_of_holder {thread holder : Thread} (hinv : SemInv sem)
    (hplace : (sem.place thread).Wants) (hholder : (sem.place holder).Holds) :
    LetsIn sem thread := by
  have hne : thread ≠ holder := by
    rintro rfl
    rcases hholder with hholder | hholder <;> rw [hholder] at hplace <;>
      rcases hplace with hplace | hplace | hplace <;> cases hplace
  -- the thread is before the compare and swap of `up_read`
  have hleaving {sem : RwSemaphore Thread} (hinv : SemInv sem)
      (hplace : (sem.place thread).Wants) (hholder : sem.place holder = .leaving) :
      LetsIn sem thread := by
    have htaken : sem.rwSemaphoreFutex = 0 := by
      rcases hinv.word with ⟨htaken, -⟩ | ⟨-, hnone⟩
      · exact htaken
      · exact absurd (.inr hholder) (hnone holder)
    have hstep : semStep sem (.swapBack holder) =
        some ({ sem with rwSemaphoreFutex := 1 }.move holder .waking) := by
      rw [semStep, if_pos hholder, RwSemaphore.compareAndSwap, if_pos htaken]
    refine LetsIn.step hstep trivial (
      @letsIn_of_due _ _ _ thread holder (hinv.step hstep) ?_ ?_ rfl)
    · rw [place_move, Function.update_of_ne hne]
      exact hplace
    · rw [place_move, Function.update_self]
  rcases hholder with hholder | hholder
  · have hstep : semStep sem (.up holder) = some (sem.move holder .leaving) := by
      rw [semStep, if_pos hholder]
    refine LetsIn.step hstep trivial (hleaving (hinv.step hstep) ?_ ?_)
    · rw [place_move, Function.update_of_ne hne]
      exact hplace
    · rw [place_move, Function.update_self]
  · exact hleaving hinv hplace hholder

/-- A thread asleep while the word is at 1 is let in by one that is on its way. -/
theorem letsIn_of_free {thread other : Thread} (hinv : SemInv sem)
    (hplace : sem.place thread = .asleep) (hother : (sem.place other).Awake)
    (hfree : sem.rwSemaphoreFutex = 1) : LetsIn sem thread := by
  have hne : thread ≠ other := by
    rintro rfl
    exact hother.2 hplace
  have hkept {sem : RwSemaphore Thread} (hplace : sem.place thread = .asleep) (place : Place) :
      (sem.move other place).place thread = .asleep := by
    rw [place_move, Function.update_of_ne hne, hplace]
  -- the other thread takes the word, and later gives it back
  have htrying {sem : RwSemaphore Thread} (hinv : SemInv sem)
      (hplace : sem.place thread = .asleep) (hother : sem.place other = .trying)
      (hfree : sem.rwSemaphoreFutex = 1) : LetsIn sem thread := by
    have hstep : semStep sem (.swap other) =
        some ({ sem with rwSemaphoreFutex := 0 }.move other .inside) := by
      rw [semStep, if_pos hother, RwSemaphore.compareAndSwap, if_pos hfree]
    refine LetsIn.step hstep trivial (@letsIn_of_holder _ _ _ thread other (hinv.step hstep)
      (.inr (.inr (hkept hplace _))) (.inl ?_))
    rw [place_move, Function.update_self]
  cases hcase : sem.place other with
  | out => exact absurd hcase hother.1
  | asleep => exact absurd hcase hother.2
  | inside => exact letsIn_of_holder hinv (.inr (.inr hplace)) (.inl hcase)
  | leaving => exact letsIn_of_holder hinv (.inr (.inr hplace)) (.inr hcase)
  | waking => exact letsIn_of_waking hinv hplace hcase hfree
  | trying => exact htrying hinv hplace hcase hfree
  | waiting =>
      have hstep : semStep sem (.futexWait other) = some (sem.move other .trying) := by
        rw [semStep, if_pos hcase, if_neg (by omega)]
      refine LetsIn.step hstep trivial (htrying (hinv.step hstep) (hkept hplace _) ?_ hfree)
      rw [place_move, Function.update_self]

end Runs

end IbcsUs.Locking
