import Mathlib.Data.BitVec
import Mathlib.Data.Nat.Cast.Order.Ring
import Mathlib.Order.Nat
import IbcsUs.Core.Runs

/-!
# Mapping 32-bit inodes to 16-bit ones

The short inode table of `short-inode.c`.  Each slot stores an inode and two
pairs of links: one threads all slots in least recently used order, the other
threads the slots of one hash circle.  Memory starts out zero, and a slot whose
`ino` is still zero has no links yet; `short_inode_lazy_init` writes them the
first time a neighbour needs them.

The number of slots is the parameter `n`; the program has 65533.  Slot indices
are `u_short` in the source, which holds every index below `n`.
-/

namespace IbcsUs.Inodes

/-- `SHORT_INODE_UNMAPPED`. -/
abbrev shortInodeUnmapped : ℕ := 2

/-- `SHORT_INODE_MAX`. -/
abbrev shortInodeMax : ℕ := 0x10000 - (shortInodeUnmapped + 1)

instance : NeZero shortInodeMax := ⟨by decide⟩

/-- `SHORT_INODE_UNUSED`. -/
abbrev shortInodeUnused : ℕ := 2 ^ 32 - 1

/-- `SHORT_INODE_IS_UNUSED(x)`. -/
def shortInodeIsUnused (ino : ℕ) : Bool := ino = 0 || ino = shortInodeUnused

/-- `struct short_inode_element`. -/
@[ext]
structure ShortInodeElement (n : ℕ) where
  ino : ℕ
  lruPrev : Fin n
  lruNext : Fin n
  hashPrev : Fin n
  hashNext : Fin n
  deriving DecidableEq

/-- The statics `short_inode_table` and `short_inode_oldest`. -/
structure ShortInode (n : ℕ) where
  table : Fin n → ShortInodeElement n
  oldest : Fin n

variable {n : ℕ}

/-- An index computed modulo the number of slots. -/
def slotOf (n : ℕ) [NeZero n] (index : ℕ) : Fin n :=
  ⟨index % n, Nat.mod_lt _ (Nat.pos_of_ne_zero (NeZero.ne n))⟩

/-- Overwrite one slot. -/
def ShortInode.set (state : ShortInode n) (entry : Fin n)
    (element : ShortInodeElement n) : ShortInode n :=
  { state with table := Function.update state.table entry element }

variable [NeZero n]

/-- The state `short_inode_construct` leaves: zero filled memory. -/
def shortInodeConstruct (n : ℕ) [NeZero n] : ShortInode n :=
  ⟨fun _ => ⟨0, 0, 0, 0, 0⟩, 0⟩

/-- `short_inode_lazy_init`. -/
def shortInodeLazyInit (state : ShortInode n) (entry : Fin n) : ShortInode n :=
  let element := state.table entry
  if element.ino ≠ 0 then state
  else
    state.set entry
      { element with
        ino := shortInodeUnused
        lruPrev := slotOf n (entry + n - 1)
        lruNext := slotOf n (entry + 1) }

/-- `short_inode_hashval`. -/
def shortInodeHashval (n : ℕ) [NeZero n] (ino : ℕ) : Fin n :=
  let low := ino % 2 ^ 16
  let hash := if n < ino then low ^^^ (ino / 2 ^ 16 % 2 ^ 16) else low
  slotOf n (hash + n - shortInodeUnmapped - 1)

/-- Write the two links between neighbours in the lru chain. -/
def ShortInode.writeLru (state : ShortInode n) (prev next : Fin n) :
    ShortInode n :=
  let state := state.set prev { state.table prev with lruNext := next }
  state.set next { state.table next with lruPrev := prev }

/-- `short_inode_lru_join`. -/
def shortInodeLruJoin (state : ShortInode n) (prev next : Fin n) :
    ShortInode n :=
  let state := shortInodeLazyInit state prev
  let state := shortInodeLazyInit state next
  state.writeLru prev next

/-- `short_inode_lru_free`. -/
def shortInodeLruFree (state : ShortInode n) (entry : Fin n) : ShortInode n :=
  let state :=
    if entry = state.oldest then
      { state with oldest := (state.table entry).lruNext }
    else state
  shortInodeLruJoin state (state.table entry).lruPrev (state.table entry).lruNext

/-- `short_inode_hash_join`. -/
def shortInodeHashJoin (state : ShortInode n) (prev next : Fin n) :
    ShortInode n :=
  let state := state.set prev { state.table prev with hashNext := next }
  state.set next { state.table next with hashPrev := prev }

/-- `short_inode_hash_free`. -/
def shortInodeHashFree (state : ShortInode n) (entry : Fin n) : ShortInode n :=
  if shortInodeIsUnused (state.table entry).ino then state
  else
    shortInodeHashJoin state (state.table entry).hashPrev
      (state.table entry).hashNext

/-- The search loop of `short_inode_map`: follow the circle until it is back at
`first` or at a slot that holds the inode.  `none` when the fuel runs out. -/
def shortInodeSearch (state : ShortInode n) (ino : ℕ) (first : Fin n) :
    ℕ → Fin n → Option (Fin n)
  | 0, _ => none
  | fuel + 1, slot =>
      let slot := (state.table slot).hashNext
      if slot ≠ first ∧ (state.table slot).ino ≠ ino then
        shortInodeSearch state ino first fuel slot
      else some slot

/-- Store the inode in a slot. -/
def ShortInode.setIno (state : ShortInode n) (slot : Fin n) (ino : ℕ) :
    ShortInode n :=
  state.set slot { state.table slot with ino := ino }

/-- The branch of `short_inode_map` for an inode that is not on the circle of
`slot`: the oldest slot leaves its own circle and joins this one. -/
def shortInodeRecycle (state : ShortInode n) (slot : Fin n) (ino : ℕ) :
    ShortInode n × Fin n :=
  let newNode := state.oldest
  let state := shortInodeLazyInit state newNode
  let state := shortInodeHashFree state newNode
  let state := shortInodeHashJoin state newNode (state.table slot).hashNext
  let state := shortInodeHashJoin state slot newNode
  (state.setIno newNode ino, newNode)

/-- The part of `short_inode_map` that finds or allocates the slot.  A search
that has not ended after `n` slots never ends. -/
def shortInodeFind (state : ShortInode n) (ino : ℕ) :
    Option (ShortInode n × Fin n) :=
  let home := shortInodeHashval n ino
  if shortInodeIsUnused (state.table home).ino then
    let state := shortInodeLazyInit state home
    let state := state.setIno home ino
    some (shortInodeHashJoin state home home, home)
  else if (state.table home).ino ≠ ino then
    match shortInodeSearch state ino home n home with
    | none => none
    | some slot =>
        if (state.table slot).ino ≠ ino then
          some (shortInodeRecycle state slot ino)
        else some (state, slot)
  else some (state, home)

/-- The part of `short_inode_map` that makes the slot the most recently used. -/
def shortInodeTouch (state : ShortInode n) (slot : Fin n) : ShortInode n :=
  let state := shortInodeLruFree state slot
  let state := shortInodeLazyInit state state.oldest
  let state := shortInodeLruJoin state (state.table state.oldest).lruPrev slot
  shortInodeLruJoin state slot state.oldest

/-- `short_inode_map` on a constructed table: the new table and the short inode,
`none` when the search does not end. -/
def shortInodeMap (state : ShortInode n) (ino : ℕ) :
    Option (ShortInode n × ℕ) :=
  if ino ≤ shortInodeUnmapped then some (state, ino)
  else
    (shortInodeFind state ino).map fun (state, slot) =>
      (shortInodeTouch state slot, slot + shortInodeUnmapped + 1)

/-- `short_inode_map` before `short_inode_construct` and after
`short_inode_destruct`, when there is no table: `-ENOENT` for an inode whose low
half is zero. -/
def shortInodeMapNoTable (ino : ℕ) : ℕ :=
  if ino % 2 ^ 16 ≠ 0 then ino else 2 ^ 32 - 2

/-- The inodes a caller may pass: 32-bit numbers other than the unused
marker. -/
abbrev Inode := Fin (2 ^ 32 - 1)

instance neZeroInode : NeZero (2 ^ 32 - 1) := ⟨by decide⟩

/-- The table after a call. -/
def shortInodeStep (state : ShortInode n) (ino : Inode) :
    Option (ShortInode n) :=
  (shortInodeMap state ino).map Prod.fst

/-- The table after a list of calls, and the short inode each returned. -/
def shortInodeRun (state : ShortInode n) :
    List Inode → Option (ShortInode n × List ℕ)
  | [] => some (state, [])
  | ino :: inos =>
      (shortInodeMap state ino).bind fun (after, short) =>
        (shortInodeRun after inos).map fun (final, shorts) =>
          (final, short :: shorts)

theorem shortInodeRun_cons_eq_some {state final : ShortInode n} {ino : Inode}
    {inos : List Inode} {shorts : List ℕ}
    (hrun : shortInodeRun state (ino :: inos) = some (final, shorts)) :
    ∃ after short rest, shortInodeMap state ino = some (after, short) ∧
      shortInodeRun after inos = some (final, rest) ∧ shorts = short :: rest := by
  rw [shortInodeRun] at hrun
  obtain ⟨⟨after, short⟩, hmap, hrest⟩ := Option.bind_eq_some_iff.mp hrun
  obtain ⟨⟨final', rest⟩, hrun', hpair⟩ := Option.map_eq_some_iff.mp hrest
  obtain ⟨rfl, rfl⟩ := Prod.mk.inj hpair
  exact ⟨after, short, rest, hmap, hrun', rfl⟩

/-- Inodes 0 to 2 are answered without looking at the table. -/
theorem shortInodeMap_of_le {state : ShortInode n} {ino : ℕ}
    (hino : ino ≤ shortInodeUnmapped) :
    shortInodeMap state ino = some (state, ino) := by
  rw [shortInodeMap, if_pos hino]

end IbcsUs.Inodes
