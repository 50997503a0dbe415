import IbcsUs.Inodes.Stability
import IbcsUs.Syscalls.ReadDir

/-!
# Three views of an inode number

`svr4_stat`, `svr4_getdents` and `read` on a directory each show a program the
number of a file as 16 bits.  All three ask the short inode table; the record
that `read` makes gets only the low byte of the answer.
-/

namespace IbcsUs.Inodes

open IbcsUs.Syscalls

/-- `abi_map(NodeFrom, 1)`.  The argument is 32 bits wide. -/
def abiMap (inodeTab : Option (List (ℕ × ℕ))) (nodeFrom : ℕ) : ℕ :=
  let nodeFrom := nodeFrom % 2 ^ 32
  match inodeTab with
  | none => nodeFrom
  | some tab =>
      ((tab.find? fun row => row.1 = nodeFrom).map Prod.snd).getD nodeFrom

/-- `InodeTab` after `svr4_initmap`: `InodeMap` is a module parameter, which
nothing sets. -/
def svr4Initmap : Option (List (ℕ × ℕ)) := none

/-- The inode number in the entry that the kernel's `readdir` fills in, where it
fits 32 bits; the kernel refuses the entry with `EOVERFLOW` where it does not.
-/
def readdirIno (ino : ℕ) : Option ℕ := if ino < 2 ^ 32 then some ino else none

/-- The short inode table of the program. -/
abbrev ShortInodeTable := ShortInode shortInodeMax

/-- `linux_to_svr4_ino_t`. -/
def linuxToSvr4InoT (shortInode : Bool) (state : ShortInodeTable) (ino : ℕ) :
    Option (ShortInodeTable × BitVec 32) :=
  if shortInode then
    (shortInodeMap state ino).map fun (state, short) =>
      (state, BitVec.ofNat 32 short)
  else some (state, BitVec.ofNat 32 ino)

/-- `linux_to_svr4_o_ino_t`. -/
def linuxToSvr4OInoT (state : ShortInodeTable) (ino : ℕ) :
    Option (ShortInodeTable × BitVec 16) :=
  (shortInodeMap state ino).map fun (state, short) =>
    (state, BitVec.ofNat 16 short)

/-- The `st_ino` of `report_svr4_stat`. -/
def reportSvr4StatIno (state : ShortInodeTable) (ino : ℕ) :
    Option (ShortInodeTable × BitVec 16) :=
  linuxToSvr4OInoT state (abiMap svr4Initmap ino)

/-- The `d_ino` of `svr4_filldir`. -/
def svr4FilldirIno (shortInode : Bool) (state : ShortInodeTable) (ino : ℕ) :
    Option (ShortInodeTable × BitVec 32) :=
  linuxToSvr4InoT shortInode state (abiMap svr4Initmap ino)

/-- The buffer after `abi_read_dir` has put an entry behind the records that are
there. -/
def abiReadDirPut (shortInode : Bool) (state : ShortInodeTable) (ino : ℕ)
    (buf : ℕ → Byte) (out : List Byte) (name : FileName) :
    Option (ShortInodeTable × List Byte) :=
  (readdirIno ino).bind fun dIno =>
    (linuxToSvr4InoT shortInode state dIno).map fun (state, number) =>
      (state, putName number buf out name.bytes)

/-! ## What the program sees -/

/-- A place in the buffer of a `read` for an entry: what the buffer held, the
records before it, and the name. -/
structure EntryPlace where
  buf : ℕ → Byte
  out : List Byte
  whole : out.length % 16 = 0
  name : FileName

/-- The inode number that `svr4_stat` reports. -/
def statView (state : ShortInodeTable) (ino : ℕ) : Option (BitVec 16) :=
  (reportSvr4StatIno state ino).map Prod.snd

/-- The low half of the inode number that `svr4_getdents` reports. -/
def getdentsView (state : ShortInodeTable) (ino : ℕ) : Option (BitVec 16) :=
  (svr4FilldirIno true state ino).map fun (_, dIno) => dIno.setWidth 16

/-- The inode number in the last record of the entry that `read` returns. -/
def readView (state : ShortInodeTable) (ino : ℕ) (place : EntryPlace) :
    Option (BitVec 16) :=
  (abiReadDirPut true state ino place.buf place.out place.name).bind
    fun (_, out) => (dirRecords out).getLast?.map DirRecord.ino

/-- The three views show one number, which is not 0. -/
def ViewsAgree (stat getdents read : ShortInodeTable) (ino : ℕ)
    (place : EntryPlace) : Prop :=
  ∃ number, statView stat ino = some number ∧
    getdentsView getdents ino = some number ∧
    readView read ino place = some number ∧ number ≠ 0

/-- The table holds the inode: a slot stores it, and it is found there. -/
structure Holds (state : ShortInodeTable) (slot : Fin shortInodeMax) (ino : ℕ) :
    Prop where
  occ : state.occ slot = some ino
  found : ∃ after, shortInodeMap state ino = some (after, slot.val + 3)

/-- The byte of the buffer above the one that is stored. -/
def EntryPlace.highByte (place : EntryPlace) : Byte :=
  place.buf (place.out.length + dirReclen place.name.bytes - 15)

/-! ## Each view -/

/-- A table without lost inodes holds every inode it stores. -/
theorem holds_of_filed {state : ShortInodeTable} {slot : Fin shortInodeMax}
    {ino : ℕ} (hfiled : Filed state) (hino : Storable ino)
    (hocc : state.occ slot = some ino) : Holds state slot ino :=
  ⟨hocc, hfiled.map_stored hino hocc⟩

/-- The first inode that is mapped is held in its hash slot. -/
theorem holds_first {ino : ℕ} (hino : Storable ino) :
    ∃ after, shortInodeMap (shortInodeConstruct shortInodeMax) ino =
        some (after, (shortInodeHashval shortInodeMax ino).val + 3) ∧
      Holds after (shortInodeHashval shortInodeMax ino) ino := by
  have hempty : ∀ slot, (shortInodeConstruct shortInodeMax).occ slot = none := by
    simp [ShortInode.occ, shortInodeConstruct, shortInodeIsUnused]
  have hnone : ¬ Misses (shortInodeConstruct shortInodeMax) ino :=
    fun hmiss => hmiss.1 (hempty _)
  have hcircles : HashInv (shortInodeConstruct shortInodeMax) :=
    hashInv_construct
  obtain ⟨after, short, hmap⟩ := hcircles.map_isSome ino
  have hfiled : Filed after :=
    filed_map hino filed_construct (fun _ hmiss => absurd hmiss hnone) hmap
  obtain ⟨slot, rfl, hplaced, -⟩ := shortInodeMap_cases hino hmap
  have hplace : slot = shortInodeHashval shortInodeMax ino ∧
      after.occ slot = some ino := by
    generalize after.occ = occ at hplaced
    generalize after.hash = hash at hplaced
    cases hplaced with
    | hit _ hocc =>
      rw [hempty] at hocc
      cases hocc
    | fresh => exact ⟨rfl, Function.update_self _ _ _⟩
    | recycle hmiss => exact absurd hmiss hnone
  obtain ⟨rfl, hocc⟩ := hplace
  exact ⟨after, hmap, holds_of_filed hfiled hino hocc⟩

section Views

variable {state : ShortInodeTable} {slot : Fin shortInodeMax} {ino : ℕ}

theorem statView_of_holds (hholds : Holds state slot (ino % 2 ^ 32)) :
    statView state ino = some (BitVec.ofNat 16 (slot + 3)) := by
  obtain ⟨after, hmap⟩ := hholds.found
  simp only [statView, reportSvr4StatIno, abiMap, svr4Initmap,
    linuxToSvr4OInoT, hmap, Option.map_some]

theorem getdentsView_of_holds (hholds : Holds state slot (ino % 2 ^ 32)) :
    getdentsView state ino = some (BitVec.ofNat 16 (slot + 3)) := by
  obtain ⟨after, hmap⟩ := hholds.found
  simp only [getdentsView, svr4FilldirIno, abiMap, svr4Initmap,
    linuxToSvr4InoT, hmap, if_true, Option.map_some]
  rw [BitVec.setWidth_ofNat_of_le (by decide)]

/-- The last record of a name has the number of the entry. -/
theorem getLast?_nameRecords (front : List DirRecord) (number : BitVec 16)
    (name : List Byte) :
    (front ++ nameRecords number name).getLast?.map DirRecord.ino =
      some number := by
  induction name using nameRecords.induct generalizing front with
  | case1 name hlong ih =>
    rw [nameRecords, if_pos hlong, List.append_cons]
    exact ih _
  | case2 name hshort =>
    rw [nameRecords, if_neg hshort, List.getLast?_concat]
    rfl

theorem readView_of_holds (hino : ino < 2 ^ 32)
    (hholds : Holds state slot (ino % 2 ^ 32)) (place : EntryPlace) :
    readView state ino place =
      some (place.highByte ++ BitVec.ofNat 8 (slot + 3)) := by
  obtain ⟨after, hmap⟩ := hholds.found
  rw [Nat.mod_eq_of_lt hino] at hmap
  have hrecords := (putName_records (BitVec.ofNat 32 (slot + 3)) place.buf
    place.whole place.name.nonempty).2
  simp only [readView, abiReadDirPut, readdirIno, if_pos hino,
    linuxToSvr4InoT, hmap, if_true, Option.bind_some, Option.map_some,
    hrecords, getLast?_nameRecords]
  rw [lastIno, BitVec.setWidth_ofNat_of_le (by decide), EntryPlace.highByte]

/-- An inode number of more than 32 bits is not shown at all. -/
theorem readView_of_wide (hino : ¬ ino < 2 ^ 32) (place : EntryPlace) :
    readView state ino place = none := by
  rw [readView, abiReadDirPut, readdirIno, if_neg hino]
  rfl

/-- Two bytes make up a number below 65536 exactly when the upper one is its
upper half. -/
theorem append_ofNat_eq_iff {high : Byte} {number : ℕ} (hlt : number < 2 ^ 16) :
    high ++ BitVec.ofNat 8 number = BitVec.ofNat 16 number ↔
      high = BitVec.ofNat 8 (number / 2 ^ 8) := by
  have hhigh := high.isLt
  rw [← BitVec.toNat_inj, ← BitVec.toNat_inj, BitVec.toNat_append,
    ← Nat.shiftLeft_add_eq_or_of_lt (BitVec.isLt _), Nat.shiftLeft_eq,
    BitVec.toNat_ofNat, BitVec.toNat_ofNat, BitVec.toNat_ofNat]
  omega

end Views

/-- The three views of an inode that the table holds throughout agree exactly
when its number fits 32 bits and the buffer of the `read` already held the high
byte of the short inode. -/
theorem inodeViews_agree_iff {stat getdents read : ShortInodeTable}
    {slot : Fin shortInodeMax} {ino : ℕ} (place : EntryPlace)
    (hstat : Holds stat slot (ino % 2 ^ 32))
    (hgetdents : Holds getdents slot (ino % 2 ^ 32))
    (hread : Holds read slot (ino % 2 ^ 32)) :
    ViewsAgree stat getdents read ino place ↔
      ino < 2 ^ 32 ∧
        place.highByte = BitVec.ofNat 8 ((slot.val + 3) / 2 ^ 8) := by
  have hslot : slot.val + 3 < 2 ^ 16 := by
    have hlt := slot.isLt
    have hmax : shortInodeMax = 65533 := rfl
    omega
  rw [ViewsAgree, statView_of_holds hstat, getdentsView_of_holds hgetdents]
  by_cases hino : ino < 2 ^ 32
  · rw [readView_of_holds hino hread, ← append_ofNat_eq_iff hslot]
    constructor
    · rintro ⟨number, hnumber, -, hsame, -⟩
      exact ⟨hino, Option.some.inj (hsame.trans hnumber.symm)⟩
    · rintro ⟨-, hsame⟩
      refine ⟨_, rfl, rfl, congrArg some hsame, fun hzero => ?_⟩
      have hnat := congrArg BitVec.toNat hzero
      rw [BitVec.toNat_ofNat, Nat.mod_eq_of_lt hslot] at hnat
      exact absurd hnat (by simp)
  · rw [readView_of_wide hino]
    refine iff_of_false ?_ fun hmeets => hino hmeets.1
    rintro ⟨number, -, -, hnone, -⟩
    cases hnone

/-- The only entry of a buffer, with the name `a`. -/
def entryA (buf : ℕ → Byte) : EntryPlace :=
  ⟨buf, [], rfl, ⟨[0x61], by decide, by decide, by decide⟩⟩

/-- Inode 300 in a buffer full of ones. -/
theorem inodeViews_agree_by_chance :
    ∃ state slot, Holds state slot 300 ∧
      ViewsAgree state state state 300 (entryA fun _ => 1) := by
  obtain ⟨state, -, hholds⟩ := @holds_first 300 ⟨by decide, by decide⟩
  exact ⟨state, _, hholds, (inodeViews_agree_iff (entryA fun _ => 1) hholds
    hholds hholds).2 ⟨by decide, by decide⟩⟩

/-- Inode 300 in a buffer of zeros: `read` shows 44. -/
theorem inodeViews_differ :
    ∃ state slot, Holds state slot 300 ∧
      statView state 300 = some 300 ∧
      readView state 300 (entryA fun _ => 0) = some 44 ∧
      ¬ ViewsAgree state state state 300 (entryA fun _ => 0) := by
  obtain ⟨state, -, hholds⟩ := @holds_first 300 ⟨by decide, by decide⟩
  refine ⟨state, _, hholds, ?_, ?_, ?_⟩
  · rw [statView_of_holds hholds]
    rfl
  · rw [readView_of_holds (by decide) hholds]
    rfl
  · rintro ⟨number, hstat, -, hread, -⟩
    rw [statView_of_holds hholds] at hstat
    rw [readView_of_holds (by decide) hholds] at hread
    exact absurd (hread.trans hstat.symm) (by decide)

end IbcsUs.Inodes
