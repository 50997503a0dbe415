import Mathlib.Dynamics.PeriodicPts.Defs
import IbcsUs.Inodes.Slots

/-!
# The hash circles

The hash links of the slots in use form disjoint doubly linked circles, so that
the search loop of `short_inode_map` ends.  Recycling a slot keeps them with one
exception: when the oldest slot is the very slot the search started from and it
has company on its circle, it is unlinked, relinked into the circle it has just
left and then linked to itself, which leaves a neighbour pointing back at it.
-/

namespace IbcsUs.Inodes

open IbcsUs.Core IbcsUs.Runs

variable {n : ℕ} [NeZero n]

/-- The slot holds an inode. -/
def ShortInode.Used (state : ShortInode n) (slot : Fin n) : Prop :=
  state.occ slot ≠ none

/-- The hash links of the slots in use are circles. -/
def HashInv (state : ShortInode n) : Prop := state.hash.Circles state.Used

/-- The hash links undo each other, following them from a slot in use comes back
to it, and so does every search. -/
def CirclesSound (state : ShortInode n) : Prop :=
  (∀ slot, state.Used slot →
    state.Used (state.hash.next slot) ∧
      state.hash.prev (state.hash.next slot) = slot ∧
      state.hash.next (state.hash.prev slot) = slot ∧
      ∃ count, 0 < count ∧ state.hash.next^[count] slot = slot) ∧
    ∀ ino first, state.Used first →
      ∃ fuel slot, shortInodeSearch state ino first fuel first = some slot

/-- The call recycles the slot its search started from, and that slot is not
alone on its circle. -/
def RecyclesHome (state : ShortInode n) (ino : ℕ) : Prop :=
  shortInodeUnmapped < ino ∧ Misses state ino ∧
    state.oldest = shortInodeHashval n ino ∧
    state.hash.next (shortInodeHashval n ino) ≠ shortInodeHashval n ino

/-! ## Searching a circle -/

section Search

variable {state : ShortInode n}

omit [NeZero n] in
theorem HashInv.search_isSome (hinv : HashInv state) (ino : ℕ) {first : Fin n}
    (hused : state.Used first) :
    ∃ slot, shortInodeSearch state ino first n first = some slot := by
  obtain ⟨count, hpos, hle, hreturn⟩ := hinv.returns hused
  rw [Fintype.card_fin] at hle
  classical
  -- the first stop is no later than the return to the start
  have hexists : ∃ stop, 0 < stop ∧
      SearchStops state ino first (state.hash.next^[stop] first) :=
    ⟨count, hpos, .inl hreturn⟩
  refine ⟨_, shortInodeSearch_eq_some_iff.mpr
    ⟨Nat.find hexists, (Nat.find_spec hexists).1, ?_, rfl,
      (Nat.find_spec hexists).2, ?_⟩⟩
  · exact (Nat.find_min' hexists ⟨hpos, .inl hreturn⟩).trans hle
  · intro early hearlyPos hlt hstops
    exact Nat.find_min hexists hlt ⟨hearlyPos, hstops⟩

omit [NeZero n] in
theorem HashInv.sound (hinv : HashInv state) : CirclesSound state := by
  constructor
  · intro slot hused
    obtain ⟨count, hpos, -, hreturn⟩ := hinv.returns hused
    exact ⟨hinv.next_used slot hused, hinv.prev_next slot hused,
      hinv.next_prev slot hused, count, hpos, hreturn⟩
  · intro ino first hused
    obtain ⟨slot, hsearch⟩ := hinv.search_isSome ino hused
    exact ⟨n, slot, hsearch⟩

/-- A search that misses has looked at the whole circle. -/
theorem Misses.not_reaches {ino : ℕ} (hino : Storable ino)
    (hmiss : Misses state ino) {slot : Fin n}
    (hreaches : state.hash.Reaches (shortInodeHashval n ino) slot) :
    state.occ slot ≠ some ino := by
  obtain ⟨-, hhome, hsearch⟩ := hmiss
  obtain ⟨period, hpos, -, hperiod, -, hearly⟩ :=
    shortInodeSearch_eq_some_iff.mp hsearch
  obtain ⟨count, rfl⟩ := hreaches.exists_iterate
  have hperiodic : Function.IsPeriodicPt state.hash.next period
      (shortInodeHashval n ino) := hperiod
  rw [← hperiodic.iterate_mod_apply]
  rcases Nat.eq_zero_or_pos (count % period) with hzero | hmod
  · rw [hzero]
    exact hhome
  · intro hocc
    refine hearly _ hmod (Nat.mod_lt _ hpos) (.inr ?_)
    exact (occ_eq_some_iff hino).mp hocc

/-- A call returns as long as the circles are intact. -/
theorem HashInv.map_isSome (hinv : HashInv state) (ino : ℕ) :
    ∃ after short, shortInodeMap state ino = some (after, short) := by
  by_cases hino : ino ≤ shortInodeUnmapped
  · exact ⟨state, ino, shortInodeMap_of_le hino⟩
  rw [shortInodeMap, if_neg hino]
  suffices hfind : ∃ found slot, shortInodeFind state ino = some (found, slot) by
    obtain ⟨found, slot, hfind⟩ := hfind
    exact ⟨_, _, by rw [hfind]; rfl⟩
  simp only [shortInodeFind]
  split
  · exact ⟨_, _, rfl⟩
  · next hused =>
    split
    · have hhome : state.Used (shortInodeHashval n ino) := by
        simpa [ShortInode.Used, occ_eq_none_iff] using hused
      obtain ⟨slot, hsearch⟩ := hinv.search_isSome ino hhome
      rw [hsearch]
      simp only
      split
      · exact ⟨_, _, rfl⟩
      · exact ⟨_, _, rfl⟩
    · exact ⟨_, _, rfl⟩

end Search

/-! ## One call -/

section Call

variable {state after : ShortInode n}

/-- The slots in use after a placement. -/
theorem Placement.used_iff {ino : ℕ} {slot : Fin n} {occ : Fin n → Option ℕ}
    {hash : Links (Fin n)} (hplaced : Placement state ino slot occ hash)
    (other : Fin n) : occ other ≠ none ↔ state.Used other ∨ other = slot := by
  rw [hplaced.occ_eq]
  by_cases hother : other = slot <;> simp [hother, ShortInode.Used]

/-- A placement keeps the circles unless it recycles a hash slot in company. -/
theorem Placement.circles {ino : ℕ} {slot : Fin n} {occ : Fin n → Option ℕ}
    {hash : Links (Fin n)} (hinv : HashInv state)
    (hplaced : Placement state ino slot occ hash)
    (hhome : Misses state ino → state.oldest = shortInodeHashval n ino →
      state.hash.next (shortInodeHashval n ino) = shortInodeHashval n ino) :
    hash.Circles fun other => occ other ≠ none := by
  suffices hcircles :
      hash.Circles fun other => state.Used other ∨ other = slot from
    hcircles.congr_used fun other => (hplaced.used_iff other).symm
  cases hplaced with
  | hit _ hocc =>
      refine hinv.congr_used fun other => ⟨.inl, ?_⟩
      rintro (hused | rfl)
      · exact hused
      · simp [ShortInode.Used, hocc]
  | fresh hocc => exact hinv.joinSelf (by simpa [ShortInode.Used] using hocc)
  | recycle hmiss =>
      have hhomeUsed : state.Used (shortInodeHashval n ino) := hmiss.1
      by_cases hfree : state.occ state.oldest = none
      · rw [ShortInode.freed, if_pos hfree]
        exact hinv.linkAfter hhomeUsed (by simpa [ShortInode.Used] using hfree)
      rw [ShortInode.freed, if_neg hfree]
      by_cases hsame : state.oldest = shortInodeHashval n ino
      -- the hash slot itself, alone on its circle: the links stay as they were
      · have hnext := hhome hmiss hsame
        have hprev : state.hash.prev (shortInodeHashval n ino) =
            shortInodeHashval n ino := by
          have hback := hinv.prev_next _ hhomeUsed
          rwa [hnext] at hback
        rw [hsame]
        rw [Links.unlink_linkAfter_self hnext hprev]
        refine hinv.congr_used fun other => ⟨.inl, ?_⟩
        rintro (hused | rfl)
        · exact hused
        · exact hhomeUsed
      · have hout := hinv.unlink hfree
        have hstays : state.Used (shortInodeHashval n ino) ∧
            shortInodeHashval n ino ≠ state.oldest := ⟨hhomeUsed, Ne.symm hsame⟩
        have hin := hout.linkAfter hstays (fun h => h.2 rfl)
        refine hin.congr_used fun other => ?_
        by_cases hother : other = state.oldest <;> simp [hother]

theorem hashInv_map {ino short : ℕ} (hino : Storable ino) (hinv : HashInv state)
    (hhome : ¬ RecyclesHome state ino)
    (hmap : shortInodeMap state ino = some (after, short)) : HashInv after := by
  obtain ⟨slot, -, hplaced, -⟩ := shortInodeMap_cases hino hmap
  refine hplaced.circles hinv fun hmiss hsame => ?_
  by_contra hnext
  exact hhome ⟨hino.1, hmiss, hsame, hnext⟩

/-- Recycling a hash slot in company leaves the slot that follows it pointing
back at it, although the slot before it now comes first. -/
theorem not_sound_of_recyclesHome {ino short : ℕ} (hino : Storable ino)
    (hinv : HashInv state) (hhome : RecyclesHome state ino)
    (hmap : shortInodeMap state ino = some (after, short)) :
    ¬ CirclesSound after := by
  obtain ⟨-, hmiss, hsame, hnext⟩ := hhome
  obtain ⟨slot, -, hplaced, -⟩ := shortInodeMap_cases hino hmap
  rintro ⟨hsound, -⟩
  have hused := hplaced.used_iff
  have hhash : after.hash = ((state.hash.unlink state.oldest).linkAfter
      (shortInodeHashval n ino) state.oldest) := by
    generalize after.occ = occ at hplaced
    generalize after.hash = hash at hplaced
    cases hplaced with
    | hit _ _ hfound => exact absurd hmiss hfound
    | fresh hocc => exact absurd hocc hmiss.1
    | recycle => rw [ShortInode.freed, if_neg (hsame ▸ hmiss.1)]
  rw [hsame] at hhash
  -- the slot before the hash slot on the old circle
  have hhomeUsed : state.Used (shortInodeHashval n ino) := hmiss.1
  have hforward := hinv.next_prev _ hhomeUsed
  have hprev : state.hash.prev (shortInodeHashval n ino) ≠
      shortInodeHashval n ino := by
    intro heq
    rw [heq] at hforward
    exact hnext hforward
  have hback := (hsound (state.hash.prev (shortInodeHashval n ino))
    ((hused _).mpr (.inl (hinv.prev_used _ hhomeUsed)))).2.1
  rw [hhash] at hback
  simp [Links.unlink, Links.linkAfter, Links.join, hprev, Ne.symm hprev, hnext]
    at hback

end Call

/-! ## Whole runs -/

theorem hashInv_construct : HashInv (shortInodeConstruct n) := by
  have hfree : ∀ slot : Fin n, ¬ (shortInodeConstruct n).Used slot := by
    simp [ShortInode.Used, ShortInode.occ, shortInodeConstruct,
      shortInodeIsUnused]
  constructor <;> intro slot hused <;> exact absurd hused (hfree slot)

/-- Through a run of calls of any length the hash links stay circles, and every
search ends, exactly when no call of the run recycles the slot its search
started from while that slot has company on its circle. -/
theorem shortInode_circles_iff (n : ℕ) [NeZero n] (inos : List Inode) :
    Always shortInodeStep CirclesSound (fun _ (_ : Inode) => True)
        (shortInodeConstruct n) inos ↔
      StepsMeet shortInodeStep
        (fun state (ino : Inode) => ¬ RecyclesHome state ino)
        (shortInodeConstruct n) inos := by
  refine always_iff_stepsMeet
    (fun (state : ShortInode n) (hinv : HashInv state) => hinv.sound) ?_
    (fun _ _ _ _ => trivial) ?_ hashInv_construct inos
  · intro state ino next hinv hcond hstep
    obtain ⟨⟨after, short⟩, hmap, rfl⟩ := Option.map_eq_some_iff.mp hstep
    by_cases hino : ino.val ≤ shortInodeUnmapped
    · rw [shortInodeMap_of_le hino] at hmap
      obtain ⟨rfl, -⟩ := Prod.mk.inj (Option.some.inj hmap)
      exact hinv
    · exact hashInv_map ⟨Nat.not_le.mp hino, ino.isLt⟩ hinv hcond hmap
  · intro state ino hinv _ hnext hhome
    obtain ⟨after, short, hmap⟩ := HashInv.map_isSome hinv ino
    have hstep : shortInodeStep state ino = some after := by
      rw [shortInodeStep, hmap]
      rfl
    exact not_sound_of_recyclesHome ⟨hhome.1, ino.isLt⟩ hinv hhome hmap
      (hnext after hstep)

theorem shortInode_circles_first_call :
    Always shortInodeStep CirclesSound (fun _ (_ : Inode) => True)
      (shortInodeConstruct 3) [3] := by
  refine (shortInode_circles_iff 3 [3]).mpr ⟨?_, fun _ _ => trivial⟩
  rintro ⟨-, ⟨hused, -⟩, -⟩
  exact hused (by decide)

/-- Three slots, all in use, the oldest being the hash slot of a new inode. -/
theorem shortInode_circles_broken :
    ¬ Always shortInodeStep CirclesSound (fun _ (_ : Inode) => True)
        (shortInodeConstruct 3) [3, 4, 6, 9] := by
  intro halways
  have hbroken : ((run shortInodeStep (shortInodeConstruct 3) [3, 4, 6, 9]).map
      fun state => (state.occ 2, (state.table (state.table 2).hashNext).hashPrev)) =
      some (some 6, 0) := by
    decide +kernel
  obtain ⟨state, hrun, hpair⟩ := Option.map_eq_some_iff.mp hbroken
  obtain ⟨hocc, hback⟩ := Prod.mk.inj hpair
  have hsound := (halways.good_of_run hrun).1 2 (by simp [ShortInode.Used, hocc])
  have hcontra : (0 : Fin 3) = 2 := hback.symm.trans hsound.2.1
  exact absurd hcontra (by decide)

end IbcsUs.Inodes
