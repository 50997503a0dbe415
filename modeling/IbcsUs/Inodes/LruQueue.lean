import Mathlib.Tactic.Ring
import IbcsUs.Inodes.Slots

/-!
# The least recently used queue

The lru links, most of which never exist in memory, form one circle through all
slots.  Read from `short_inode_oldest` it is the queue of an ideal least
recently used cache: the slots never used, in index order, then the used slots
in the order of their last use.
-/

namespace IbcsUs.Inodes

open IbcsUs.Core

variable {n : ℕ} [NeZero n]

/-- The queue after the given slots have been used, one after another. -/
def lruQueue (n : ℕ) (uses : List (Fin n)) : List (Fin n) :=
  lastUse (List.finRange n) uses

/-- The links represent the queue, and the slots in use are those used. -/
structure QueueInv (state : ShortInode n) (uses : List (Fin n)) : Prop where
  ring : state.lru.IsRing (lruQueue n uses)
  head : (lruQueue n uses).head? = some state.oldest
  used : ∀ slot, state.occ slot ≠ none ↔ slot ∈ uses

omit [NeZero n] in
theorem nodup_lruQueue (uses : List (Fin n)) : (lruQueue n uses).Nodup :=
  nodup_lastUse (List.nodup_finRange n)

omit [NeZero n] in
theorem mem_lruQueue (uses : List (Fin n)) (slot : Fin n) :
    slot ∈ lruQueue n uses := mem_lastUse (List.mem_finRange slot)

omit [NeZero n] in
theorem length_lruQueue (uses : List (Fin n)) : (lruQueue n uses).length = n := by
  have hcard : (lruQueue n uses).toFinset = Finset.univ := by
    ext slot
    simp [mem_lruQueue]
  rw [← List.toFinset_card_of_nodup (nodup_lruQueue uses), hcard]
  simp

theorem queueInv_construct (hn : 2 ≤ n) :
    QueueInv (shortInodeConstruct n) [] := by
  have hqueue : lruQueue n [] = List.finRange n := by simp [lruQueue, lastUse]
  have hnext : ∀ slot : Fin n,
      (shortInodeConstruct n).lru.next slot = slotOf n (slot + 1) := fun _ => rfl
  have hprev : ∀ slot : Fin n,
      (shortInodeConstruct n).lru.prev slot = slotOf n (slot + n - 1) :=
    fun _ => rfl
  refine ⟨?_, ?_, fun slot => ?_⟩
  · rw [hqueue]
    refine ⟨List.isChain_iff_getElem.mpr fun index hindex => ?_, ?_⟩
    · simp only [List.length_finRange] at hindex
      simp only [Links.Linked, hnext, hprev, List.getElem_finRange, slotOf]
      refine ⟨Fin.ext ?_, Fin.ext ?_⟩
      · exact Nat.mod_eq_of_lt hindex
      · simp only [Fin.val_cast]
        rw [show index + 1 + n - 1 = index + n by omega, Nat.add_mod_right]
        exact Nat.mod_eq_of_lt (by omega)
    · intro last hlast head hhead
      rw [List.head?_eq_getElem?, List.getElem?_eq_getElem (by simp; omega)]
        at hhead
      rw [List.getLast?_eq_getElem?, List.getElem?_eq_getElem (by simp; omega)]
        at hlast
      simp only [Option.mem_def, Option.some.injEq, List.getElem_finRange]
        at hhead hlast
      subst hhead hlast
      simp only [Links.Linked, hnext, hprev, slotOf, List.length_finRange]
      refine ⟨Fin.ext ?_, Fin.ext ?_⟩
      · simp only [Fin.val_cast]
        rw [show n - 1 + 1 = n by omega, Nat.mod_self]
      · simp only [Fin.val_cast]
        rw [Nat.zero_add]
        exact Nat.mod_eq_of_lt (by omega)
  · rw [hqueue, List.head?_eq_getElem?,
      List.getElem?_eq_getElem (by simp; omega)]
    exact congrArg some (Fin.ext (by simp [shortInodeConstruct]))
  · simp [ShortInode.occ, shortInodeConstruct, shortInodeIsUnused]

/-- A call uses one slot, and moves it to the end of the queue. -/
theorem queueInv_map (hn : 2 ≤ n) {state after : ShortInode n}
    {uses : List (Fin n)} {ino short : ℕ} (hino : Storable ino)
    (hinv : QueueInv state uses)
    (hmap : shortInodeMap state ino = some (after, short)) :
    ∃ slot : Fin n, short = slot + 3 ∧ QueueInv after (uses ++ [slot]) := by
  obtain ⟨slot, hshort, hplaced, holdest, hlru⟩ := shortInodeMap_cases hino hmap
  have hlength := length_lruQueue uses
  obtain ⟨hhead, hring⟩ := hinv.ring.moveToEnd (nodup_lruQueue uses) hinv.head
    (mem_lruQueue uses slot) (by omega)
  have hmove : lruQueue n (uses ++ [slot]) =
      (lruQueue n uses).erase slot ++ [slot] :=
    lastUse_snoc (List.nodup_finRange n)
  refine ⟨slot, hshort, ?_, ?_, fun other => ?_⟩
  · rw [hmove, hlru]
    exact hring
  · rw [hmove, holdest]
    exact hhead
  · have hused := hinv.used other
    rw [hplaced.occ_eq]
    by_cases hother : other = slot
    · simp [hother]
    · simpa [hother] using hused

/-- A run of calls uses the slots its results name. -/
theorem queueInv_run (hn : 2 ≤ n) {state final : ShortInode n}
    {uses : List (Fin n)} {inos : List Inode} {shorts : List ℕ}
    (hinos : ∀ ino ∈ inos, shortInodeUnmapped < ino.val)
    (hinv : QueueInv state uses)
    (hrun : shortInodeRun state inos = some (final, shorts)) :
    ∃ slots : List (Fin n), shorts = slots.map (fun slot => slot.val + 3) ∧
      QueueInv final (uses ++ slots) := by
  induction inos generalizing state uses shorts with
  | nil =>
      obtain ⟨rfl, rfl⟩ := Prod.mk.inj (Option.some.inj hrun)
      exact ⟨[], rfl, by simpa using hinv⟩
  | cons ino inos ih =>
      obtain ⟨after, short, rest, hmap, hrest, rfl⟩ :=
        shortInodeRun_cons_eq_some hrun
      have hino : Storable ino := ⟨hinos ino List.mem_cons_self, ino.isLt⟩
      obtain ⟨slot, rfl, hafter⟩ := queueInv_map hn hino hinv hmap
      obtain ⟨slots, rfl, hfinal⟩ :=
        ih (fun other hother => hinos other (List.mem_cons_of_mem _ hother))
          hafter hrest
      exact ⟨slot :: slots, rfl, by simpa using hfinal⟩

/-- The oldest slot is a free one while there is one, and otherwise the one
whose last use is furthest back. -/
theorem QueueInv.oldest {state : ShortInode n} {uses : List (Fin n)}
    (hinv : QueueInv state uses) :
    ((∃ slot, state.occ slot = none) → state.occ state.oldest = none) ∧
      ((∀ slot, state.occ slot ≠ none) →
        uses.dedup.head? = some state.oldest) := by
  have hhead := hinv.head
  rw [lruQueue, lastUse, List.head?_append] at hhead
  have hmem : ∀ slot, slot ∈ (List.finRange n).filter (· ∉ uses) ↔
      state.occ slot = none := by
    intro slot
    rw [← not_iff_not, ← ne_eq (state.occ slot), hinv.used]
    simp
  cases hfree : (List.finRange n).filter (· ∉ uses) with
  | nil =>
      rw [hfree] at hhead hmem
      constructor
      · rintro ⟨slot, hslot⟩
        exact absurd ((hmem slot).mpr hslot) List.not_mem_nil
      · intro _
        exact hhead
  | cons first rest =>
      rw [hfree] at hhead hmem
      obtain rfl : first = state.oldest := Option.some.inj hhead
      have hfirst := (hmem state.oldest).mp List.mem_cons_self
      exact ⟨fun _ => hfirst, fun hall => absurd hfirst (hall _)⟩

/-- After any run of calls the links are one circle through all slots, which
read from the oldest is the queue of the slots used; the slot a collision
recycles is the head of that queue. -/
theorem shortInode_lru_queue (hn : 3 ≤ n) {inos : List Inode}
    (hinos : ∀ ino ∈ inos, shortInodeUnmapped < ino.val) {state : ShortInode n}
    {shorts : List ℕ}
    (hrun : shortInodeRun (shortInodeConstruct n) inos = some (state, shorts)) :
    ∃ slots : List (Fin n), shorts = slots.map (fun slot => slot.val + 3) ∧
      (∀ slot, state.occ slot ≠ none ↔ slot ∈ slots) ∧
      state.lru.IsRing (lruQueue n slots) ∧
      (lruQueue n slots).Nodup ∧ (∀ slot, slot ∈ lruQueue n slots) ∧
      List.iterate state.lru.next state.oldest n =
        (List.finRange n).filter (· ∉ slots) ++ slots.dedup ∧
      ∀ (ino : Inode) (after : ShortInode n) (short : ℕ),
        Misses state ino → shortInodeMap state ino = some (after, short) →
        shortInodeUnmapped < ino.val →
        short = state.oldest + 3 ∧
          ((∃ slot, slot ∉ slots) → state.oldest ∉ slots) ∧
          ((∀ slot, slot ∈ slots) → slots.dedup.head? = some state.oldest) := by
  obtain ⟨slots, hshorts, hinv⟩ :=
    queueInv_run (by omega) hinos (queueInv_construct (by omega)) hrun
  rw [List.nil_append] at hinv
  have hwalk := hinv.ring.iterate_next hinv.head
  rw [length_lruQueue] at hwalk
  refine ⟨slots, hshorts, hinv.used, hinv.ring, nodup_lruQueue slots,
    mem_lruQueue slots, hwalk, ?_⟩
  intro ino after short hmiss hmap hino
  obtain ⟨slot, hshort, hplaced, -⟩ :=
    shortInodeMap_cases ⟨hino, ino.isLt⟩ hmap
  obtain ⟨hfree, hused⟩ := hinv.oldest
  refine ⟨hplaced.slot_of_misses hmiss ▸ hshort, ?_, ?_⟩
  · rintro ⟨other, hother⟩
    rw [← hinv.used, not_not] at hother ⊢
    exact hfree ⟨other, hother⟩
  · intro hall
    exact hused fun other => (hinv.used other).mpr (hall other)

theorem shortInode_lru_queue_three :
    ∃ state : ShortInode 3, ∃ slots : List (Fin 3),
      shortInodeRun (shortInodeConstruct 3) [5, 8, 6] =
        some (state, slots.map fun slot => slot.val + 3) ∧
      List.iterate state.lru.next state.oldest 3 =
        (List.finRange 3).filter (· ∉ slots) ++ slots.dedup := by
  have hsome : (shortInodeRun (shortInodeConstruct 3) [5, 8, 6]).isSome := by
    decide +kernel
  obtain ⟨⟨state, shorts⟩, hrun⟩ := Option.isSome_iff_exists.mp hsome
  have hinos : ∀ ino ∈ ([5, 8, 6] : List Inode), shortInodeUnmapped < ino.val := by
    simp only [List.forall_mem_cons]
    exact ⟨by decide, by decide, by decide, by simp⟩
  obtain ⟨slots, rfl, -, -, -, -, hwalk, -⟩ :=
    shortInode_lru_queue (by decide) hinos hrun
  exact ⟨state, slots, hrun, hwalk⟩

end IbcsUs.Inodes
