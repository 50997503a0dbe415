import IbcsUs.Core.Links
import IbcsUs.Inodes.ShortInode

/-!
# The table as occupants and links

What a slot of the short inode table means does not depend on whether its links
have been written: a slot whose `ino` is zero reads as linked to its index
neighbours, and both zero and the unused marker mean no occupant.  In this view
`short_inode_lazy_init` changes nothing, each of the other helpers is one
operation on links, and a call is one of three transitions.
-/

namespace IbcsUs.Inodes

open IbcsUs.Core

variable {n : ℕ} [NeZero n]

/-- The inode a slot holds, if any. -/
def ShortInode.occ (state : ShortInode n) (slot : Fin n) : Option ℕ :=
  if shortInodeIsUnused (state.table slot).ino then none
  else some (state.table slot).ino

/-- The least recently used links, reading a slot not yet initialised as linked
to its index neighbours. -/
def ShortInode.lru (state : ShortInode n) : Links (Fin n) :=
  ⟨fun slot =>
      if (state.table slot).ino = 0 then slotOf n (slot + 1)
      else (state.table slot).lruNext,
    fun slot =>
      if (state.table slot).ino = 0 then slotOf n (slot + n - 1)
      else (state.table slot).lruPrev⟩

/-- The hash links. -/
def ShortInode.hash (state : ShortInode n) : Links (Fin n) :=
  ⟨fun slot => (state.table slot).hashNext,
    fun slot => (state.table slot).hashPrev⟩

/-- An inode that may be stored in a slot. -/
def Storable (ino : ℕ) : Prop := shortInodeUnmapped < ino ∧ ino < shortInodeUnused

theorem Storable.ne_zero {ino : ℕ} (hino : Storable ino) : ino ≠ 0 := by
  have hlow := hino.1
  omega

theorem Storable.isUnused {ino : ℕ} (hino : Storable ino) :
    shortInodeIsUnused ino = false := by
  obtain ⟨hlow, hhigh⟩ := hino
  simp only [shortInodeIsUnused, Bool.or_eq_false_iff, decide_eq_false_iff_not]
  omega

omit [NeZero n] in
theorem occ_eq_some_iff {state : ShortInode n} {slot : Fin n} {ino : ℕ}
    (hino : Storable ino) :
    state.occ slot = some ino ↔ (state.table slot).ino = ino := by
  rw [ShortInode.occ]
  constructor
  · intro hocc
    split at hocc
    · simp at hocc
    · simpa using hocc
  · intro heq
    rw [heq, hino.isUnused]
    simp

omit [NeZero n] in
theorem occ_eq_none_iff {state : ShortInode n} {slot : Fin n} :
    state.occ slot = none ↔
      shortInodeIsUnused (state.table slot).ino = true := by
  rw [ShortInode.occ]
  split <;> simp_all

/-! ## The helpers -/

section Helpers

variable (state : ShortInode n)

@[simp]
theorem occ_lazyInit (entry : Fin n) :
    (shortInodeLazyInit state entry).occ = state.occ := by
  funext slot
  simp only [shortInodeLazyInit]
  split
  · rfl
  · next hzero =>
    by_cases hslot : slot = entry
    · subst hslot
      simp_all [ShortInode.occ, ShortInode.set, shortInodeIsUnused]
    · simp [ShortInode.occ, ShortInode.set, hslot]

@[simp]
theorem lru_lazyInit (entry : Fin n) :
    (shortInodeLazyInit state entry).lru = state.lru := by
  simp only [shortInodeLazyInit]
  split
  · rfl
  · next hzero =>
    simp only [ShortInode.lru, Links.mk.injEq]
    constructor <;> funext slot <;> by_cases hslot : slot = entry
    · subst hslot
      simp_all [ShortInode.set]
    · simp [ShortInode.set, hslot]
    · subst hslot
      simp_all [ShortInode.set]
    · simp [ShortInode.set, hslot]

@[simp]
theorem hash_lazyInit (entry : Fin n) :
    (shortInodeLazyInit state entry).hash = state.hash := by
  simp only [shortInodeLazyInit]
  split
  · rfl
  · simp only [ShortInode.hash, Links.mk.injEq]
    constructor <;> funext slot <;> by_cases hslot : slot = entry <;>
      simp [ShortInode.set, hslot]

@[simp]
theorem oldest_lazyInit (entry : Fin n) :
    (shortInodeLazyInit state entry).oldest = state.oldest := by
  simp only [shortInodeLazyInit]
  split <;> rfl

/-- Once initialised a slot stays so. -/
theorem ino_ne_zero_lazyInit (entry slot : Fin n)
    (hinit : slot = entry ∨ (state.table slot).ino ≠ 0) :
    ((shortInodeLazyInit state entry).table slot).ino ≠ 0 := by
  simp only [shortInodeLazyInit]
  split
  · next hentry =>
    rcases hinit with rfl | hinit
    · exact hentry
    · exact hinit
  · by_cases hslot : slot = entry
    · simp [ShortInode.set, hslot]
    · simpa [ShortInode.set, hslot] using hinit

omit [NeZero n] in
theorem table_writeLru (prev next slot : Fin n) :
    (state.writeLru prev next).table slot =
      { state.table slot with
        lruNext := if slot = prev then next else (state.table slot).lruNext
        lruPrev := if slot = next then prev else (state.table slot).lruPrev } := by
  simp only [ShortInode.writeLru, ShortInode.set, Function.update_apply]
  by_cases hnext : slot = next <;> by_cases hprev : slot = prev <;>
    simp_all

omit [NeZero n] in
theorem table_hashJoin (prev next slot : Fin n) :
    (shortInodeHashJoin state prev next).table slot =
      { state.table slot with
        hashNext := if slot = prev then next else (state.table slot).hashNext
        hashPrev := if slot = next then prev else (state.table slot).hashPrev } := by
  simp only [shortInodeHashJoin, ShortInode.set, Function.update_apply]
  by_cases hnext : slot = next <;> by_cases hprev : slot = prev <;>
    simp_all

@[simp]
theorem occ_lruJoin (prev next : Fin n) :
    (shortInodeLruJoin state prev next).occ = state.occ := by
  rw [← occ_lazyInit state prev,
    ← occ_lazyInit (shortInodeLazyInit state prev) next]
  funext slot
  simp only [shortInodeLruJoin, ShortInode.occ, table_writeLru]

omit [NeZero n] in
@[simp]
theorem occ_hashJoin (prev next : Fin n) :
    (shortInodeHashJoin state prev next).occ = state.occ := by
  funext slot
  simp only [ShortInode.occ, table_hashJoin]

@[simp]
theorem oldest_lruJoin (prev next : Fin n) :
    (shortInodeLruJoin state prev next).oldest = state.oldest := by
  simp [shortInodeLruJoin, ShortInode.writeLru, ShortInode.set]

omit [NeZero n] in
@[simp]
theorem oldest_hashJoin (prev next : Fin n) :
    (shortInodeHashJoin state prev next).oldest = state.oldest := rfl

@[simp]
theorem hash_lruJoin (prev next : Fin n) :
    (shortInodeLruJoin state prev next).hash = state.hash := by
  rw [← hash_lazyInit state prev,
    ← hash_lazyInit (shortInodeLazyInit state prev) next]
  simp only [shortInodeLruJoin, ShortInode.hash, table_writeLru]

omit [NeZero n] in
@[simp]
theorem hash_hashJoin (prev next : Fin n) :
    (shortInodeHashJoin state prev next).hash = state.hash.join prev next := by
  simp only [ShortInode.hash, Links.join, table_hashJoin, Links.mk.injEq]
  constructor <;> funext slot <;> simp [Function.update_apply]

@[simp]
theorem lru_hashJoin (prev next : Fin n) :
    (shortInodeHashJoin state prev next).lru = state.lru := by
  simp only [ShortInode.lru, table_hashJoin]

/-- Joining two slots initialises both, so that the join is real. -/
@[simp]
theorem lru_lruJoin (prev next : Fin n) :
    (shortInodeLruJoin state prev next).lru = state.lru.join prev next := by
  rw [← lru_lazyInit state prev,
    ← lru_lazyInit (shortInodeLazyInit state prev) next]
  have hprev := ino_ne_zero_lazyInit (shortInodeLazyInit state prev) next prev
    (.inr (ino_ne_zero_lazyInit _ _ _ (.inl rfl)))
  have hnext := ino_ne_zero_lazyInit (shortInodeLazyInit state prev) next next
    (.inl rfl)
  simp only [shortInodeLruJoin, ShortInode.lru, Links.join, table_writeLru,
    Links.mk.injEq]
  constructor <;> funext slot <;> simp only [Function.update_apply] <;> grind

omit [NeZero n] in
theorem occ_setIno {slot : Fin n} {ino : ℕ} (hino : Storable ino) :
    (state.setIno slot ino).occ = Function.update state.occ slot (some ino) := by
  funext other
  by_cases hother : other = slot
  · subst hother
    simp [ShortInode.occ, ShortInode.setIno, ShortInode.set, hino.isUnused]
  · simp [ShortInode.occ, ShortInode.setIno, ShortInode.set, hother]

omit [NeZero n] in
@[simp]
theorem hash_setIno (slot : Fin n) (ino : ℕ) :
    (state.setIno slot ino).hash = state.hash := by
  simp only [ShortInode.hash, ShortInode.setIno, ShortInode.set,
    Links.mk.injEq, Function.update_apply]
  constructor <;> funext other <;> grind

/-- Storing an inode keeps the links of a slot that is initialised. -/
theorem lru_setIno {slot : Fin n} {ino : ℕ} (hino : Storable ino)
    (hinit : (state.table slot).ino ≠ 0) :
    (state.setIno slot ino).lru = state.lru := by
  have hne := hino.ne_zero
  simp only [ShortInode.lru, ShortInode.setIno, ShortInode.set,
    Links.mk.injEq, Function.update_apply]
  constructor <;> funext other <;> grind

/-- Freeing a slot that is initialised unlinks it and, if it was the oldest,
makes its successor the oldest. -/
theorem lru_lruFree {slot : Fin n} (hinit : (state.table slot).ino ≠ 0) :
    (shortInodeLruFree state slot).lru = state.lru.unlink slot ∧
      (shortInodeLruFree state slot).oldest =
        if slot = state.oldest then state.lru.next slot else state.oldest := by
  have hnext : (state.table slot).lruNext = state.lru.next slot := by
    simp [ShortInode.lru, hinit]
  have hprev : (state.table slot).lruPrev = state.lru.prev slot := by
    simp [ShortInode.lru, hinit]
  simp only [shortInodeLruFree]
  split
  · simp only [hnext, hprev, lru_lruJoin, oldest_lruJoin]
    exact ⟨rfl, trivial⟩
  · simp only [hnext, hprev, lru_lruJoin, oldest_lruJoin]
    exact ⟨rfl, trivial⟩

@[simp]
theorem occ_lruFree (slot : Fin n) :
    (shortInodeLruFree state slot).occ = state.occ := by
  simp only [shortInodeLruFree, occ_lruJoin]
  split <;> rfl

@[simp]
theorem hash_lruFree (slot : Fin n) :
    (shortInodeLruFree state slot).hash = state.hash := by
  simp only [shortInodeLruFree, hash_lruJoin]
  split <;> rfl

/-- The oldest slot after a slot has been used. -/
def ShortInode.nextOldest (slot : Fin n) : Fin n :=
  if slot = state.oldest then state.lru.next slot else state.oldest

/-- Using a slot moves it before the oldest and leaves occupants and circles
alone. -/
theorem shortInodeTouch_view {slot : Fin n} (hinit : (state.table slot).ino ≠ 0) :
    (shortInodeTouch state slot).occ = state.occ ∧
      (shortInodeTouch state slot).hash = state.hash ∧
      (shortInodeTouch state slot).oldest = state.nextOldest slot ∧
      (shortInodeTouch state slot).lru =
        (state.lru.unlink slot).linkBefore (state.nextOldest slot) slot := by
  obtain ⟨hlru, holdest⟩ := lru_lruFree state hinit
  simp only [shortInodeTouch, occ_lruJoin, occ_lazyInit, occ_lruFree,
    hash_lruJoin, hash_lazyInit, hash_lruFree, oldest_lruJoin, oldest_lazyInit,
    lru_lruJoin, lru_lazyInit, hlru, holdest, Links.linkBefore,
    ShortInode.nextOldest, true_and]
  -- the link read from memory is the one in the view, the slot being initialised
  have hprev : ∀ entry : Fin n,
      ((shortInodeLazyInit (shortInodeLruFree state slot) entry).table
        entry).lruPrev = (state.lru.unlink slot).prev entry := by
    intro entry
    rw [← hlru, ← lru_lazyInit (shortInodeLruFree state slot) entry]
    have hentry := ino_ne_zero_lazyInit (shortInodeLruFree state slot) entry entry
      (.inl rfl)
    simp [ShortInode.lru, hentry]
  rw [hprev]

end Helpers

/-! ## The search -/

section Search

variable {state : ShortInode n} {ino : ℕ} {first : Fin n}

/-- The loop stops at this slot. -/
def SearchStops (state : ShortInode n) (ino : ℕ) (first slot : Fin n) : Prop :=
  slot = first ∨ (state.table slot).ino = ino

omit [NeZero n] in
/-- The search returns the first slot after its start at which it stops. -/
theorem shortInodeSearch_eq_some_iff {fuel : ℕ} {start slot : Fin n} :
    shortInodeSearch state ino first fuel start = some slot ↔
      ∃ count, 0 < count ∧ count ≤ fuel ∧
        state.hash.next^[count] start = slot ∧ SearchStops state ino first slot ∧
        ∀ early, 0 < early → early < count →
          ¬ SearchStops state ino first (state.hash.next^[early] start) := by
  induction fuel generalizing start with
  | zero =>
      simp only [shortInodeSearch, reduceCtorEq, false_iff]
      rintro ⟨count, hpos, hle, -⟩
      omega
  | succ fuel ih =>
      have hnext : (state.table start).hashNext = state.hash.next start := rfl
      simp only [shortInodeSearch, hnext]
      by_cases hstop : SearchStops state ino first (state.hash.next start)
      · rw [if_neg (by simpa [SearchStops, or_iff_not_imp_left] using hstop)]
        constructor
        · intro heq
          obtain rfl : state.hash.next start = slot := by simpa using heq
          exact ⟨1, by omega, by omega, rfl, hstop, by omega⟩
        · rintro ⟨count, hpos, -, heq, -, hearly⟩
          by_cases hone : count = 1
          · subst hone
            exact congrArg some heq
          · exact absurd hstop (hearly 1 (by omega) (by omega))
      · rw [if_pos (by simpa [SearchStops] using hstop), ih]
        constructor
        · rintro ⟨count, hpos, hle, heq, hslot, hearly⟩
          refine ⟨count + 1, by omega, by omega, heq, hslot, ?_⟩
          intro early hearlyPos hlt
          obtain ⟨before, rfl⟩ := Nat.exists_eq_succ_of_ne_zero hearlyPos.ne'
          rcases Nat.eq_zero_or_pos before with rfl | hbefore
          · exact hstop
          · exact hearly before hbefore (by omega)
        · rintro ⟨count, hpos, hle, heq, hslot, hearly⟩
          obtain ⟨before, rfl⟩ := Nat.exists_eq_succ_of_ne_zero hpos.ne'
          rcases Nat.eq_zero_or_pos before with rfl | hbefore
          · subst heq
            exact absurd hslot hstop
          · refine ⟨before, hbefore, by omega, heq, hslot, ?_⟩
            intro early hearlyPos hlt
            exact hearly (early + 1) (by omega) (by omega)

omit [NeZero n] in
/-- A search of `n` slots settles the matter: if it has not ended, no longer one
ends. -/
theorem shortInodeSearch_of_fuel {fuel : ℕ} {slot : Fin n}
    (hsearch : shortInodeSearch state ino first fuel first = some slot) :
    shortInodeSearch state ino first n first = some slot := by
  rw [shortInodeSearch_eq_some_iff] at hsearch ⊢
  obtain ⟨count, hpos, -, heq, hslot, hearly⟩ := hsearch
  refine ⟨count, hpos, ?_, heq, hslot, hearly⟩
  by_contra hlong
  -- the first `n` slots visited avoid `first`, so two coincide and the walk loops
  obtain ⟨left, right, hne, hsame⟩ := Fintype.exists_ne_map_eq_of_card_lt
    (fun index : Fin (n + 1) => state.hash.next^[index.val] first) (by simp)
  wlog hlt : left < right generalizing left right
  · exact this right left hne.symm hsame.symm
      (lt_of_le_of_ne (not_lt.mp hlt) hne.symm)
  have hval : left.val < right.val := hlt
  have hrepeat : state.hash.next^[count - (right.val - left.val)] first =
      slot := by
    have hleft : count - (right.val - left.val) =
        (count - right.val) + left.val := by omega
    have hright : count = (count - right.val) + right.val := by omega
    rw [← heq, hleft, Function.iterate_add_apply]
    rw [hsame, ← Function.iterate_add_apply, ← hright]
  refine hearly (count - (right.val - left.val)) (by omega) (by omega) ?_
  rw [hrepeat]
  exact hslot

end Search

/-! ## One call -/

section Call

variable (state : ShortInode n)

/-- The inode collides: its hash slot is in use for another one, and the search
of that slot's circle comes back to where it started. -/
def Misses (ino : ℕ) : Prop :=
  state.occ (shortInodeHashval n ino) ≠ none ∧
    state.occ (shortInodeHashval n ino) ≠ some ino ∧
    shortInodeSearch state ino (shortInodeHashval n ino) n
      (shortInodeHashval n ino) = some (shortInodeHashval n ino)

/-- The circles after `short_inode_hash_free`. -/
def ShortInode.freed (entry : Fin n) : Links (Fin n) :=
  if state.occ entry = none then state.hash else state.hash.unlink entry

/-- The three things a call can do with occupants and circles. -/
inductive Placement (ino : ℕ) :
    Fin n → (Fin n → Option ℕ) → Links (Fin n) → Prop
  /-- The inode is already in a slot. -/
  | hit (slot : Fin n) (hocc : state.occ slot = some ino)
      (hfound : ¬ Misses state ino) : Placement ino slot state.occ state.hash
  /-- The hash slot is free and becomes a circle of its own. -/
  | fresh (hocc : state.occ (shortInodeHashval n ino) = none) :
      Placement ino (shortInodeHashval n ino)
        (Function.update state.occ (shortInodeHashval n ino) (some ino))
        (state.hash.join (shortInodeHashval n ino) (shortInodeHashval n ino))
  /-- The oldest slot is taken from its circle and put on that of the hash slot. -/
  | recycle (hmiss : Misses state ino) :
      Placement ino state.oldest
        (Function.update state.occ state.oldest (some ino))
        ((state.freed state.oldest).linkAfter (shortInodeHashval n ino)
          state.oldest)

variable {state}

/-- Every placement stores the inode in its slot. -/
theorem Placement.occ_eq {ino : ℕ} {slot : Fin n} {occ : Fin n → Option ℕ}
    {hash : Links (Fin n)} (hplaced : Placement state ino slot occ hash) :
    occ = Function.update state.occ slot (some ino) := by
  cases hplaced with
  | hit _ hocc => rw [← hocc, Function.update_eq_self]
  | fresh => rfl
  | recycle => rfl

/-- A collision recycles the oldest slot. -/
theorem Placement.slot_of_misses {ino : ℕ} {slot : Fin n}
    {occ : Fin n → Option ℕ} {hash : Links (Fin n)}
    (hplaced : Placement state ino slot occ hash) (hmiss : Misses state ino) :
    slot = state.oldest := by
  cases hplaced with
  | hit _ _ hfound => exact absurd hmiss hfound
  | fresh hocc => exact absurd hocc hmiss.1
  | recycle => rfl

theorem shortInodeRecycle_view {ino : ℕ} (hino : Storable ino) (home : Fin n) :
    (shortInodeRecycle state home ino).1.occ =
        Function.update state.occ state.oldest (some ino) ∧
      (shortInodeRecycle state home ino).1.hash =
        (state.freed state.oldest).linkAfter home state.oldest ∧
      (shortInodeRecycle state home ino).1.lru = state.lru ∧
      (shortInodeRecycle state home ino).1.oldest = state.oldest ∧
      (shortInodeRecycle state home ino).2 = state.oldest ∧
      ((shortInodeRecycle state home ino).1.table state.oldest).ino = ino := by
  -- the table after the slot has left its circle
  have hfree : ∃ freed : ShortInode n,
      shortInodeHashFree (shortInodeLazyInit state state.oldest) state.oldest =
        freed ∧ freed.occ = state.occ ∧ freed.hash = state.freed state.oldest ∧
      freed.lru = state.lru ∧ freed.oldest = state.oldest ∧
      (freed.table state.oldest).ino ≠ 0 := by
    have hinit := ino_ne_zero_lazyInit state state.oldest state.oldest (.inl rfl)
    refine ⟨_, rfl, ?_⟩
    simp only [shortInodeHashFree, ← occ_eq_none_iff, occ_lazyInit,
      ShortInode.freed]
    split
    · simp [hinit]
    · have hlinks := hash_lazyInit state state.oldest
      simp only [occ_hashJoin, occ_lazyInit, hash_hashJoin, hlinks, lru_hashJoin,
        lru_lazyInit, oldest_hashJoin, oldest_lazyInit, table_hashJoin]
      refine ⟨trivial, ?_, trivial, trivial, hinit⟩
      rw [Links.unlink, ← hlinks]
      rfl
  obtain ⟨freed, heq, hocc, hhash, hlru, holdest, hinit⟩ := hfree
  simp only [shortInodeRecycle, heq]
  refine ⟨?_, ?_, ?_, ?_, trivial, ?_⟩
  · simp [occ_setIno _ hino, hocc]
  · simp only [hash_setIno, hash_hashJoin, Links.linkAfter, hhash]
    rw [← hhash]
    rfl
  · rw [lru_setIno _ hino]
    · simp [hlru]
    · simpa [table_hashJoin] using hinit
  · simp [ShortInode.setIno, ShortInode.set, holdest]
  · simp [ShortInode.setIno, ShortInode.set]

/-- What finding a slot leaves for the second half of the call. -/
structure Found (state : ShortInode n) (ino : ℕ) (found : ShortInode n)
    (slot : Fin n) : Prop where
  placed : Placement state ino slot found.occ found.hash
  oldest : found.oldest = state.oldest
  lru : found.lru = state.lru
  /-- The slot is initialised. -/
  init : (found.table slot).ino ≠ 0

/-- The inode is stored in its hash slot, which was free. -/
theorem Found.fresh {ino : ℕ} (hino : Storable ino)
    (hfree : state.occ (shortInodeHashval n ino) = none) :
    Found state ino
      (shortInodeHashJoin
        ((shortInodeLazyInit state (shortInodeHashval n ino)).setIno
          (shortInodeHashval n ino) ino)
        (shortInodeHashval n ino) (shortInodeHashval n ino))
      (shortInodeHashval n ino) := by
  have hinit := ino_ne_zero_lazyInit state (shortInodeHashval n ino)
    (shortInodeHashval n ino) (.inl rfl)
  refine ⟨?_, oldest_lazyInit _ _, ?_, ?_⟩
  · simp only [occ_hashJoin, occ_setIno _ hino, occ_lazyInit, hash_hashJoin,
      hash_setIno, hash_lazyInit]
    exact Placement.fresh hfree
  · simp [lru_setIno _ hino hinit]
  · simp [table_hashJoin, ShortInode.setIno, ShortInode.set, hino.ne_zero]

/-- The inode was found in the slot. -/
theorem Found.hit {ino : ℕ} {slot : Fin n} (hino : Storable ino)
    (hequal : (state.table slot).ino = ino) (hfound : ¬ Misses state ino) :
    Found state ino state slot :=
  ⟨.hit slot ((occ_eq_some_iff hino).mpr hequal) hfound, rfl, rfl,
    hequal.trans_ne hino.ne_zero⟩

/-- The oldest slot is recycled for an inode that collides. -/
theorem Found.recycle {ino : ℕ} (hino : Storable ino) (hmiss : Misses state ino) :
    Found state ino (shortInodeRecycle state (shortInodeHashval n ino) ino).1
      (shortInodeRecycle state (shortInodeHashval n ino) ino).2 := by
  obtain ⟨hocc, hhash, hlru, holdest, hslot, hstored⟩ :=
    @shortInodeRecycle_view n _ state ino hino (shortInodeHashval n ino)
  refine ⟨?_, holdest, hlru, ?_⟩
  · rw [hocc, hhash, hslot]
    exact Placement.recycle hmiss
  · rw [hslot, hstored]
    exact hino.ne_zero

/-- Finding or allocating the slot is one of the placements. -/
theorem shortInodeFind_found {ino : ℕ} {found : ShortInode n} {slot : Fin n}
    (hino : Storable ino) (hfind : shortInodeFind state ino = some (found, slot)) :
    Found state ino found slot := by
  simp only [shortInodeFind] at hfind
  split at hfind
  -- the hash slot is free
  · next hunused =>
    obtain ⟨rfl, rfl⟩ := Prod.mk.inj (Option.some.inj hfind)
    exact Found.fresh hino (occ_eq_none_iff.mpr hunused)
  · next hused =>
    split at hfind
    · next hother =>
      split at hfind
      · simp at hfind
      · next stop hsearch =>
        split at hfind
        -- not on the circle: recycle the oldest slot
        · next hmissing =>
          have hstop : stop = shortInodeHashval n ino := by
            obtain ⟨-, -, -, -, hstops, -⟩ :=
              shortInodeSearch_eq_some_iff.mp hsearch
            exact hstops.resolve_right hmissing
          subst hstop
          obtain ⟨rfl, rfl⟩ := Prod.mk.inj (Option.some.inj hfind)
          refine Found.recycle hino ⟨?_, ?_, hsearch⟩
          · simpa [occ_eq_none_iff] using hused
          · simpa [occ_eq_some_iff hino] using hother
        -- found on the circle
        · next hfoundIno =>
          obtain ⟨rfl, rfl⟩ := Prod.mk.inj (Option.some.inj hfind)
          have hequal := not_not.mp hfoundIno
          refine Found.hit hino hequal fun hmiss => ?_
          obtain rfl : stop = shortInodeHashval n ino :=
            Option.some.inj (hsearch.symm.trans hmiss.2.2)
          exact hmiss.2.1 ((occ_eq_some_iff hino).mpr hequal)
    -- in its hash slot
    · next hsame =>
      obtain ⟨rfl, rfl⟩ := Prod.mk.inj (Option.some.inj hfind)
      have hequal := not_not.mp hsame
      exact Found.hit hino hequal fun hmiss =>
        hmiss.2.1 ((occ_eq_some_iff hino).mpr hequal)

/-- Everything a call does: one of the placements, then the slot moves to the
end of the queue. -/
theorem shortInodeMap_cases {after : ShortInode n} {ino short : ℕ}
    (hino : Storable ino)
    (hmap : shortInodeMap state ino = some (after, short)) :
    ∃ slot : Fin n, short = slot + 3 ∧
      Placement state ino slot after.occ after.hash ∧
      after.oldest = state.nextOldest slot ∧
      after.lru =
        (state.lru.unlink slot).linkBefore (state.nextOldest slot) slot := by
  rw [shortInodeMap, if_neg (Nat.not_le.mpr hino.1)] at hmap
  obtain ⟨⟨found, slot⟩, hfind, hpair⟩ := Option.map_eq_some_iff.mp hmap
  obtain ⟨rfl, rfl⟩ := Prod.mk.inj hpair
  obtain ⟨hplaced, holdest, hlru, hinit⟩ := shortInodeFind_found hino hfind
  obtain ⟨hocc', hhash', holdest', hlru'⟩ := shortInodeTouch_view found hinit
  have hnext : found.nextOldest slot = state.nextOldest slot := by
    simp [ShortInode.nextOldest, holdest, hlru]
  refine ⟨slot, rfl, ?_, ?_, ?_⟩
  · rw [hocc', hhash']
    exact hplaced
  · rw [holdest', hnext]
  · rw [hlru', hnext, hlru]

end Call

end IbcsUs.Inodes
