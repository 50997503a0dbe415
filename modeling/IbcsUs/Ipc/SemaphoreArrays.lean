import Mathlib.Tactic.IntervalCases
import IbcsUs.Ipc.Control

/-!
# Semaphore arrays

`GETALL` and `SETALL` go through `__ibcs2_semctl` like the structure commands: what
lies at the program's array is taken for a `struct ibcs2_semid_ds` and translated
into a `struct semid_ds` on the emulator's stack, and that is where the kernel finds
or leaves the values.  Memory is read here as cells of 16 bits, counted from the
program's array and from the emulator's structure.
-/

namespace IbcsUs.Ipc

/-- The cells from an address on. -/
abbrev Cells := ℕ → BitVec 16

/-- The word in two cells. -/
def word (cells : Cells) (index : ℕ) : BitVec 32 :=
  cells (index + 1) ++ cells index

def low (number : BitVec 32) : BitVec 16 := number.setWidth 16
def high (number : BitVec 32) : BitVec 16 := (number >>> 16).setWidth 16

/-- Cells are overwritten from the first on. -/
def storeCells (stored : List (BitVec 16)) (cells : Cells) : Cells :=
  fun index => stored.getD index (cells index)

/-- The `struct ibcs2_semid_ds` at an address. -/
def readIsem (cells : Cells) : Ibcs2SemidDs where
  semPerm :=
    ⟨cells 0, cells 1, cells 2, cells 3, cells 4, cells 5, word cells 6⟩
  semBase := word cells 8
  semNsems := cells 10
  pad := cells 11
  semOtime := word cells 12
  semCtime := word cells 14

/-- The cells of a `struct ibcs2_semid_ds`. -/
def isemCells (is : Ibcs2SemidDs) : List (BitVec 16) :=
  [is.semPerm.uid, is.semPerm.gid, is.semPerm.cuid, is.semPerm.cgid,
    is.semPerm.mode, is.semPerm.seq, low is.semPerm.key, high is.semPerm.key,
    low is.semBase, high is.semBase, is.semNsems, is.pad, low is.semOtime,
    high is.semOtime, low is.semCtime, high is.semCtime]

/-- The `struct semid_ds` at an address. -/
def readLsem (cells : Cells) : SemidDs where
  semPerm :=
    ⟨word cells 0, cells 2, cells 3, cells 4, cells 5, cells 6, cells 7⟩
  semOtime := word cells 8
  semCtime := word cells 10
  semBase := word cells 12
  semPending := word cells 14
  semPendingLast := word cells 16
  undo := word cells 18
  semNsems := cells 20

/-- The cells of a `struct semid_ds`, up to the gap at its end. -/
def lsemCells (ls : SemidDs) : List (BitVec 16) :=
  [low ls.semPerm.key, high ls.semPerm.key, ls.semPerm.uid, ls.semPerm.gid,
    ls.semPerm.cuid, ls.semPerm.cgid, ls.semPerm.mode, ls.semPerm.seq,
    low ls.semOtime, high ls.semOtime, low ls.semCtime, high ls.semCtime,
    low ls.semBase, high ls.semBase, low ls.semPending, high ls.semPending,
    low ls.semPendingLast, high ls.semPendingLast, low ls.undo, high ls.undo,
    ls.semNsems]

/-- The number of cells of a `struct semid_ds`, with the gap. -/
def lsemSize : ℕ := 22

/-! ## The code -/

/-- The emulator's structure when the kernel is called. -/
def handedCells (user stack : Cells) : Cells :=
  storeCells (lsemCells (isemToLsem (readIsem user) (readLsem stack))) stack

/-- `__ibcs2_semctl` on memory: the result, the program's memory and the
emulator's. -/
def ibcs2Semctl (kernel : Cells → ℤ × Cells) (user stack : Cells) :
    ℤ × Cells × Cells :=
  let is := readIsem user
  let (err, stack) := kernel (handedCells user stack)
  if err < 0 then (err, user, stack)
  else (0, storeCells (isemCells (lsemToIsem (readLsem stack) is)) user, stack)

/-- The kernel's `GETALL` for a set of `count` semaphores. -/
def kernelGetall (count : ℕ) (values : Cells) (cells : Cells) : ℤ × Cells :=
  (0, fun index => if index < count then values index else cells index)

/-- `svr4_semctl(id, _, GETALL, arg)`. -/
def semctlGetall (count : ℕ) (values user stack : Cells) : ℤ × Cells × Cells :=
  ibcs2Semctl (kernelGetall count values) user stack

/-- The values that `svr4_semctl(id, _, SETALL, arg)` gives the kernel. -/
def semctlSetall (count : ℕ) (user stack : Cells) : List (BitVec 16) :=
  (List.range count).map (handedCells user stack)

/-! ## What is asked -/

/-- The values arrive in the program's array, and no other memory of the program or
of the emulator changes. -/
structure GetallRight (count : ℕ) (values user stack : Cells)
    (outcome : ℤ × Cells × Cells) : Prop where
  result : outcome.1 = 0
  array : ∀ index, outcome.2.1 index =
    if index < count then values index else user index
  frame : ∀ index, lsemSize ≤ index → outcome.2.2 index = stack index

/-- The kernel is given the values of the program's array. -/
def SetallRight (count : ℕ) (user : Cells) (given : List (BitVec 16)) : Prop :=
  given = (List.range count).map user

/-- For a cell of the program's array, the cell of the emulator's structure that is
copied to it. -/
def getallPlaces : List (Option ℕ) :=
  [some 2, some 3, some 4, some 5, some 6, some 7, some 0, some 1, some 12,
    some 13, some 20, none, some 8, some 9, some 10, some 11]

/-- For a cell of the emulator's structure, the cell of the program's array that is
copied to it. -/
def setallPlaces : List (Option ℕ) :=
  [some 6, some 7, some 0, some 1, some 2, some 3, some 4, some 5, some 12,
    some 13, some 14, some 15, some 8, some 9, none, none, none, none, none,
    none, some 10]

/-- The values and what the array held before agree along the places they are
exchanged between, and no value beyond the emulator's structure changes what the
stack held. -/
structure GetallMeets (count : ℕ) (values user stack : Cells) : Prop where
  exchanged : ∀ index place, getallPlaces.getD index none = some place →
    place < count → values place = if index < count then values index else user index
  kept : ∀ index < count,
    (∀ place, getallPlaces.getD index none = some place → count ≤ place) →
    user index = values index
  frame : ∀ index, lsemSize ≤ index → index < count →
    values index = stack index

/-- The values agree along the places they are exchanged between, and with what the
stack held in the cells nothing is copied to. -/
structure SetallMeets (count : ℕ) (user stack : Cells) : Prop where
  exchanged : ∀ index < count, ∀ place, setallPlaces.getD index none = some place →
    user place = user index
  kept : ∀ index < count, setallPlaces.getD index none = none →
    stack index = user index

/-- What `GETALL` leaves in a cell of the program. -/
def getallCell (count : ℕ) (values user : Cells) (index : ℕ) : BitVec 16 :=
  match getallPlaces.getD index none with
  | some place => if place < count then values place else user index
  | none => user index

/-- What `SETALL` gives the kernel in a cell. -/
def setallCell (user stack : Cells) (index : ℕ) : BitVec 16 :=
  match setallPlaces.getD index none with
  | some place => user place
  | none => stack index

/-! ## Structures in memory -/

@[simp]
theorem low_append (upper lower : BitVec 16) : low (upper ++ lower) = lower := by
  apply BitVec.eq_of_getLsbD_eq
  intro index hindex
  simp only [low, BitVec.getLsbD_setWidth, BitVec.getLsbD_append]
  grind

@[simp]
theorem high_append (upper lower : BitVec 16) :
    high (upper ++ lower) = upper := by
  apply BitVec.eq_of_getLsbD_eq
  intro index hindex
  simp only [high, BitVec.getLsbD_setWidth, BitVec.getLsbD_ushiftRight,
    BitVec.getLsbD_append]
  grind

@[simp]
theorem high_low (number : BitVec 32) : high number ++ low number = number := by
  apply BitVec.eq_of_getLsbD_eq
  intro index hindex
  simp only [high, low, BitVec.getLsbD_append, BitVec.getLsbD_setWidth,
    BitVec.getLsbD_ushiftRight]
  grind

theorem readIsem_storeCells (is : Ibcs2SemidDs) (cells : Cells) :
    readIsem (storeCells (isemCells is) cells) = is := by
  simp [readIsem, storeCells, isemCells, word]

theorem readLsem_storeCells (ls : SemidDs) (cells : Cells) :
    readLsem (storeCells (lsemCells ls) cells) = ls := by
  simp [readLsem, storeCells, lsemCells, word]

/-- On structures the code is the structure command. -/
theorem ibcs2Semctl_copyInOut (cmd : IpcCommand) (user stack : Cells)
    (answer : CtlAnswer SemidDs) :
    let kernel := fun cells =>
      let called := answer.call cmd (readLsem cells)
      (called.1, storeCells (lsemCells called.2) cells)
    let outcome := ibcs2Semctl kernel user stack
    (outcome.1, readIsem outcome.2.1) =
      copyInOut ibcs2Semaphores cmd (readIsem user) (readLsem stack) answer := by
  simp only [ibcs2Semctl, copyInOut, handedCells, readLsem_storeCells]
  change _ = if (answer.call cmd (isemToLsem (readIsem user)
    (readLsem stack))).1 < 0 then _ else _
  split_ifs with herr
  · rfl
  · rw [readIsem_storeCells]
    rfl

/-- The emulator's structure, cell by cell. -/
theorem handedCells_eq (user stack : Cells) :
    handedCells user stack = setallCell user stack := by
  have hcells : lsemCells (isemToLsem (readIsem user) (readLsem stack)) =
      [user 6, user 7, user 0, user 1, user 2, user 3, user 4, user 5, user 12,
        user 13, user 14, user 15, user 8, user 9, stack 14, stack 15, stack 16,
        stack 17, stack 18, stack 19, user 10] := by
    simp [lsemCells, isemToLsem, readIsem, readLsem, ipToLp, word]
  funext index
  rw [handedCells, hcells, storeCells, setallCell]
  by_cases hinside : index < 21
  · interval_cases index <;> rfl
  · have hoff : setallPlaces.length ≤ index := not_lt.mp hinside
    rw [List.getD_eq_default _ _ hoff,
      List.getD_eq_default _ _ (not_lt.mp hinside)]

/-- What is copied back, cell by cell. -/
theorem copiedCells_eq (user stack : Cells) (index : ℕ) :
    storeCells (isemCells (lsemToIsem (readLsem stack) (readIsem user))) user
      index =
      match getallPlaces.getD index none with
      | some place => stack place
      | none => user index := by
  have hcells : isemCells (lsemToIsem (readLsem stack) (readIsem user)) =
      [stack 2, stack 3, stack 4, stack 5, stack 6, stack 7, stack 0, stack 1,
        stack 12, stack 13, stack 20, user 11, stack 8, stack 9, stack 10,
        stack 11] := by
    simp [isemCells, lsemToIsem, readIsem, readLsem, lpToIp, word]
  rw [hcells, storeCells]
  by_cases hinside : index < 16
  · interval_cases index <;> rfl
  · have hoff : getallPlaces.length ≤ index := not_lt.mp hinside
    rw [List.getD_eq_default _ _ hoff,
      List.getD_eq_default _ _ (not_lt.mp hinside)]

/-- A cell that comes back without having been written by the kernel is the
program's own. -/
theorem setallCell_getallPlace (user stack : Cells) {index place : ℕ}
    (hplace : getallPlaces.getD index none = some place) :
    setallCell user stack place = user index := by
  by_cases hinside : index < 16
  · interval_cases index <;> cases hplace <;> rfl
  · rw [List.getD_eq_default _ _ (not_lt.mp hinside)] at hplace
    cases hplace

/-! ## The two commands -/

section Arrays

variable (count : ℕ) (values user stack : Cells)

theorem semctlGetall_array (index : ℕ) :
    (semctlGetall count values user stack).2.1 index =
      getallCell count values user index := by
  change storeCells (isemCells (lsemToIsem (readLsem _) (readIsem user))) user
    index = _
  rw [copiedCells_eq, getallCell]
  cases hplace : getallPlaces.getD index none with
  | none => rfl
  | some place =>
    change (if place < count then values place
      else handedCells user stack place) = _
    rw [handedCells_eq, setallCell_getallPlace user stack hplace]

theorem semctlGetall_stack (index : ℕ) (hoff : lsemSize ≤ index) :
    (semctlGetall count values user stack).2.2 index =
      if index < count then values index else stack index := by
  change (if index < count then values index
    else handedCells user stack index) = _
  have hlength : setallPlaces.length ≤ index :=
    (show setallPlaces.length ≤ lsemSize by decide).trans hoff
  rw [handedCells_eq, setallCell, List.getD_eq_default _ _ hlength]

/-- The cells of the array are right exactly when the exchanged ones agree. -/
theorem getallCell_right_iff :
    (∀ index, getallCell count values user index =
      if index < count then values index else user index) ↔
    (∀ index place, getallPlaces.getD index none = some place → place < count →
      values place = if index < count then values index else user index) ∧
    ∀ index < count,
      (∀ place, getallPlaces.getD index none = some place → count ≤ place) →
      user index = values index := by
  constructor
  · intro hcells
    refine ⟨fun index place hplace hvalue => ?_, fun index hindex hbeyond => ?_⟩
    · rw [← hcells index, getallCell, hplace]
      exact (if_pos hvalue).symm
    · have hcell := hcells index
      rw [if_pos hindex] at hcell
      rw [← hcell, getallCell]
      cases hplace : getallPlaces.getD index none with
      | none => rfl
      | some place => exact (if_neg (not_lt.mpr (hbeyond place hplace))).symm
  · rintro ⟨hexchanged, hkept⟩ index
    rw [getallCell]
    cases hplace : getallPlaces.getD index none with
    | none =>
      change user index = _
      split
      next hindex => exact hkept index hindex fun _ hsome => nomatch hplace.symm.trans hsome
      next => rfl
    | some place =>
      change (if place < count then values place else user index) = _
      split
      next hvalue => exact hexchanged index place hplace hvalue
      next hbeyond =>
        split
        next hindex =>
          refine hkept index hindex fun other hother => ?_
          obtain rfl := Option.some.inj (hplace.symm.trans hother)
          exact not_lt.mp hbeyond
        next => rfl

theorem semctlGetall_right_iff :
    GetallRight count values user stack
      (semctlGetall count values user stack) ↔
      GetallMeets count values user stack := by
  have hcells := getallCell_right_iff count values user
  constructor
  · intro hright
    have harray : ∀ index, getallCell count values user index =
        if index < count then values index else user index := by
      intro index
      rw [← semctlGetall_array count values user stack index]
      exact hright.array index
    obtain ⟨hexchanged, hkept⟩ := hcells.mp harray
    refine ⟨hexchanged, hkept, fun index hoff hcount => ?_⟩
    have hframe := hright.frame index hoff
    rw [semctlGetall_stack count values user stack index hoff,
      if_pos hcount] at hframe
    exact hframe
  · intro hmeets
    refine ⟨rfl, fun index => ?_, fun index hoff => ?_⟩
    · rw [semctlGetall_array]
      exact hcells.mpr ⟨hmeets.exchanged, hmeets.kept⟩ index
    · rw [semctlGetall_stack count values user stack index hoff]
      split_ifs with hcount
      · exact hmeets.frame index hoff hcount
      · rfl

theorem semctlSetall_right_iff :
    SetallRight count user (semctlSetall count user stack) ↔
      SetallMeets count user stack := by
  have hcells : SetallRight count user (semctlSetall count user stack) ↔
      ∀ index < count, setallCell user stack index = user index := by
    rw [SetallRight, semctlSetall, handedCells_eq, List.map_inj_left]
    simp only [List.mem_range]
  rw [hcells]
  constructor
  · intro hright
    refine ⟨fun index hindex place hplace => ?_, fun index hindex hplace => ?_⟩ <;>
      rw [← hright index hindex, setallCell, hplace]
  · intro hmeets index hindex
    rw [setallCell]
    cases hplace : setallPlaces.getD index none with
    | none => exact hmeets.kept index hindex hplace
    | some place => exact hmeets.exchanged index hindex place hplace

/-- `GETALL` brings the values into the program's array and `SETALL` takes them from
there exactly when they agree along the places the structures exchange them
between. -/
theorem semaphoreArrays_right_iff :
    (GetallRight count values user stack
      (semctlGetall count values user stack) ↔
      GetallMeets count values user stack) ∧
    (SetallRight count user (semctlSetall count user stack) ↔
      SetallMeets count user stack) :=
  ⟨semctlGetall_right_iff count values user stack,
    semctlSetall_right_iff count user stack⟩

end Arrays

/-- A set of one semaphore of the value 5, and an array of zeros. -/
theorem one_value_goes_astray :
    ¬ ∀ (count : ℕ) (values user stack : Cells),
      GetallRight count values user stack
        (semctlGetall count values user stack) ∧
      SetallRight count user (semctlSetall count user stack) := by
  intro hall
  obtain ⟨hgetall, -⟩ := hall 1 (fun _ => 5) (fun _ => 0) (fun _ => 0)
  have hfirst := hgetall.array 0
  rw [semctlGetall_array] at hfirst
  exact absurd hfirst (by decide)

end IbcsUs.Ipc
