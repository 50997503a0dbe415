import IbcsUs.Files.FileTable

/-!
# The file table in order

A file table in order has accessed its array within its bounds only, has lost
nothing by growing, and has in each slot null or the file of its index.  The
requests keep it in order, save for three slips that the conditions here leave
out: the look up of read, write, dup and fstat lets the first index behind the
array through, the size of a very large array wraps, and the first array is not
cleared.
-/

namespace IbcsUs.Files

open IbcsUs.Memory

/-- The access is inside the array; a growth keeps all entries and adds null
ones. -/
def TableEvent.Ok : TableEvent → Prop
  | .access index maxFds => index < maxFds
  | .grow before after =>
      ∀ index, (index < before.maxFds →
          index < after.maxFds ∧ after.slots index = before.slots index) ∧
        (before.maxFds ≤ index → index < after.maxFds → after.slots index = 0)

/-- Every event so far was in order, the array has all the slots it is said to
have, and each slot is null or leads to the file of its index. -/
structure TableSafe (state : FileState) : Prop where
  events : ∀ event ∈ state.record, event.Ok
  within : state.table.maxFds ≤ state.table.allocated
  slots : ∀ index < state.table.maxFds, state.table.slots index = 0 ∨
    ∃ file, state.files (state.table.slots index) = some file ∧ file.fd = index

/-- The look up does not hit the slot behind the array. -/
def LookupMeets (state : FileState) (fd : ℕ) : Prop :=
  negative fd = false → fd ≠ state.table.maxFds

/-- If the array has to grow, its size does not wrap, and the first one happens
to be made of zeros. -/
def FgetMeets (state : FileState) (fd : ℕ) (memory : ℕ → ℕ) : Prop :=
  state.table.maxFds ≤ fd → fd + 1 < 2 ^ 29 ∧
    (state.table.fdNull → ∀ index < 2 * (fd + 1), memory index = 0)

/-! ## The invariant -/

/-- A safe table whose files are all in it. -/
structure TableInv (state : FileState) : Prop extends TableSafe state where
  linked : ∀ pointer file, state.files pointer = some file →
    pointer ≠ 0 ∧ pointer < state.nextFile ∧ file.fd < state.table.maxFds ∧
      state.table.slots file.fd = pointer
  small : state.table.maxFds < 2 ^ 30
  unused : state.table.fdNull → state.table.maxFds = 0
  alive : state.crashed = false
  next_pos : 0 < state.nextFile

section Invariant

variable {state : FileState}

/-- A slot that is not null leads to the file of its index. -/
theorem TableInv.file_of_slot (hinv : TableInv state) {fd : ℕ}
    (hfd : fd < state.table.maxFds) (hslot : state.table.slots fd ≠ 0) :
    ∃ file, state.files (state.table.slots fd) = some file ∧ file.fd = fd :=
  (hinv.slots fd hfd).resolve_left hslot

theorem TableInv.note_access (hinv : TableInv state) {fd : ℕ}
    (hfd : fd < state.table.maxFds) :
    TableInv (state.note (.access fd state.table.maxFds)) :=
  { hinv with
    events := by
      intro event hevent
      rcases List.mem_cons.mp hevent with rfl | hold
      · exact hfd
      · exact hinv.events event hold }

/-- Changing a file keeps the table as long as its index stays. -/
theorem TableInv.setFile (hinv : TableInv state) {pointer : ℕ} {file : File}
    (hfile : state.files pointer = some file) {changed : File}
    (hfd : changed.fd = file.fd) : TableInv (state.setFile pointer changed) := by
  refine
    { events := hinv.events
      within := hinv.within
      slots := ?_
      linked := ?_
      small := hinv.small
      unused := hinv.unused
      alive := hinv.alive
      next_pos := hinv.next_pos }
  · intro index hindex
    rcases hinv.slots index hindex with hnull | ⟨other, hother, hotherFd⟩
    · exact .inl hnull
    right
    by_cases hsame : state.table.slots index = pointer
    · rw [hsame, hfile] at hother
      obtain rfl := Option.some.inj hother
      refine ⟨changed, ?_, hfd.trans hotherFd⟩
      change Function.update state.files pointer (some changed)
        (state.table.slots index) = some changed
      rw [hsame, Function.update_self]
    · refine ⟨other, ?_, hotherFd⟩
      change Function.update state.files pointer (some changed)
        (state.table.slots index) = some other
      rw [Function.update_of_ne hsame, hother]
  · intro other otherFile hother
    change Function.update state.files pointer (some changed) other =
      some otherFile at hother
    by_cases hsame : other = pointer
    · subst hsame
      rw [Function.update_self] at hother
      obtain rfl := Option.some.inj hother
      rw [hfd]
      exact hinv.linked other file hfile
    · rw [Function.update_of_ne hsame] at hother
      exact hinv.linked other otherFile hother

/-- Destroying a file empties its slot. -/
theorem TableInv.fdestroy (hinv : TableInv state) {pointer : ℕ} {file : File}
    (hfile : state.files pointer = some file) :
    TableInv (fdestroy state pointer file) := by
  simp only [Files.fdestroy]
  split
  · obtain ⟨hne, hlt, hfd, hslot⟩ := hinv.linked pointer file hfile
    have hnote := hinv.note_access hfd
    refine
      { events := hnote.events
        within := hinv.within
        slots := ?_
        linked := ?_
        small := hinv.small
        unused := hinv.unused
        alive := hinv.alive
        next_pos := hinv.next_pos }
    · intro index hindex
      change Function.update state.table.slots file.fd 0 index = 0 ∨
        ∃ other, Function.update state.files pointer none
          (Function.update state.table.slots file.fd 0 index) = some other ∧
          other.fd = index
      by_cases hsame : index = file.fd
      · exact .inl (by rw [hsame, Function.update_self])
      rw [Function.update_of_ne hsame]
      rcases hinv.slots index hindex with hnull | ⟨other, hother, hotherFd⟩
      · exact .inl hnull
      · refine .inr ⟨other, ?_, hotherFd⟩
        rw [Function.update_of_ne ?_, hother]
        intro heq
        rw [heq, hfile] at hother
        obtain rfl := Option.some.inj hother
        exact hsame hotherFd.symm
    · intro other otherFile hother
      change Function.update state.files pointer none other = some otherFile
        at hother
      have hne' : other ≠ pointer := by
        rintro rfl
        rw [Function.update_self] at hother
        simp at hother
      rw [Function.update_of_ne hne'] at hother
      obtain ⟨hpos, hnext, hfd', hslot'⟩ := hinv.linked other otherFile hother
      refine ⟨hpos, hnext, hfd', ?_⟩
      change Function.update state.table.slots file.fd 0 otherFile.fd = other
      rw [Function.update_of_ne ?_, hslot']
      intro heq
      rw [heq, hslot] at hslot'
      exact hne' hslot'.symm
  · exact hinv

/-- The file the table has for a descriptor. -/
def FileState.shadow (state : FileState) (fd : ℕ) : Option File :=
  if fd < state.table.maxFds then state.files (state.table.slots fd) else none

theorem TableInv.files_zero (hinv : TableInv state) : state.files 0 = none := by
  by_contra hsome
  obtain ⟨file, hfile⟩ := Option.ne_none_iff_exists'.mp hsome
  exact (hinv.linked 0 file hfile).1 rfl

/-- A file found by its pointer is the shadow of its own descriptor. -/
theorem TableInv.shadow_of_file (hinv : TableInv state) {pointer : ℕ}
    {file : File} (hfile : state.files pointer = some file) :
    state.shadow file.fd = some file := by
  obtain ⟨-, -, hfd, hslot⟩ := hinv.linked pointer file hfile
  rw [FileState.shadow, if_pos hfd, hslot, hfile]

theorem TableInv.shadow_fd (hinv : TableInv state) {fd : ℕ} {file : File}
    (hshadow : state.shadow fd = some file) :
    fd < state.table.maxFds ∧ state.files (state.table.slots fd) = some file ∧
      file.fd = fd := by
  rw [FileState.shadow] at hshadow
  split at hshadow
  · next hfd =>
    refine ⟨hfd, hshadow, ?_⟩
    rcases hinv.slots fd hfd with hnull | ⟨other, hother, hotherFd⟩
    · rw [hnull, hinv.files_zero] at hshadow
      simp at hshadow
    · rw [hshadow] at hother
      exact Option.some.inj hother ▸ hotherFd
  · simp at hshadow

theorem TableInv.slot_of_shadow (hinv : TableInv state) {fd : ℕ} {file : File}
    (hshadow : state.shadow fd = some file) :
    fd < state.table.maxFds ∧ state.table.slots fd ≠ 0 := by
  obtain ⟨hfd, hfile, -⟩ := hinv.shadow_fd hshadow
  refine ⟨hfd, fun hnull => ?_⟩
  rw [hnull, hinv.files_zero] at hfile
  simp at hfile

/-- The shadows after a file has been changed. -/
theorem TableInv.shadow_setFile (hinv : TableInv state) {pointer : ℕ}
    {file : File} (hfile : state.files pointer = some file) (changed : File) :
    (state.setFile pointer changed).shadow =
      Function.update state.shadow file.fd (some changed) := by
  obtain ⟨-, -, hfd, hslot⟩ := hinv.linked pointer file hfile
  funext fd
  change (if fd < state.table.maxFds then
    Function.update state.files pointer (some changed) (state.table.slots fd)
    else none) = _
  by_cases hsame : fd = file.fd
  · rw [hsame, if_pos hfd, hslot, Function.update_self, Function.update_self]
  rw [Function.update_of_ne hsame, FileState.shadow]
  by_cases hlt : fd < state.table.maxFds
  · rw [if_pos hlt, if_pos hlt, Function.update_of_ne]
    intro heq
    have hshadow : state.shadow fd = some file := by
      rw [FileState.shadow, if_pos hlt, heq, hfile]
    exact hsame (hinv.shadow_fd hshadow).2.2.symm
  · rw [if_neg hlt, if_neg hlt]

/-- What `fdestroy` leaves of a file. -/
def File.remains (file : File) : Option File :=
  if file.fCount = 0 ∧ file.fIsopen = false then none else some file

/-- The shadows after a file may have been destroyed. -/
theorem TableInv.shadow_fdestroy (hinv : TableInv state) {pointer : ℕ}
    {file : File} (hfile : state.files pointer = some file) :
    (Files.fdestroy state pointer file).shadow =
      Function.update state.shadow file.fd file.remains := by
  obtain ⟨-, -, hfd, hslot⟩ := hinv.linked pointer file hfile
  simp only [Files.fdestroy, Bool.and_eq_true, decide_eq_true_eq,
    Bool.not_eq_true', File.remains]
  split
  · funext fd
    change (if fd < state.table.maxFds then
      Function.update state.files pointer none
        (Function.update state.table.slots file.fd 0 fd) else none) = _
    by_cases hsame : fd = file.fd
    · rw [hsame, if_pos hfd, Function.update_self, Function.update_self,
        Function.update_apply, hinv.files_zero]
      split <;> rfl
    rw [Function.update_of_ne hsame, Function.update_of_ne hsame,
      FileState.shadow]
    by_cases hlt : fd < state.table.maxFds
    · rw [if_pos hlt, if_pos hlt, Function.update_of_ne]
      intro heq
      have hshadow : state.shadow fd = some file := by
        rw [FileState.shadow, if_pos hlt, heq, hfile]
      exact hsame (hinv.shadow_fd hshadow).2.2.symm
    · rw [if_neg hlt, if_neg hlt]
  · rw [← hinv.shadow_of_file hfile, Function.update_eq_self]

theorem maxFds_fdestroy (state : FileState) (pointer : ℕ) (file : File) :
    (Files.fdestroy state pointer file).table.maxFds = state.table.maxFds := by
  simp only [Files.fdestroy]
  split <;> rfl

/-- A file is changed and then destroyed if nobody needs it any more. -/
theorem TableInv.settle (hinv : TableInv state) {pointer : ℕ} {file : File}
    (hfile : state.files pointer = some file) {changed : File}
    (hfd : changed.fd = file.fd) :
    TableInv (Files.fdestroy (state.setFile pointer changed) pointer changed) ∧
      (Files.fdestroy (state.setFile pointer changed) pointer changed).shadow =
        Function.update state.shadow file.fd changed.remains ∧
      (Files.fdestroy (state.setFile pointer changed) pointer
        changed).table.maxFds = state.table.maxFds := by
  have hset := hinv.setFile hfile hfd
  have hchanged : (state.setFile pointer changed).files pointer = some changed :=
    Function.update_self _ _ _
  refine ⟨hset.fdestroy hchanged, ?_, maxFds_fdestroy _ _ _⟩
  rw [hset.shadow_fdestroy hchanged, hinv.shadow_setFile hfile, hfd,
    Function.update_idem]

/-- Dropping a reference to a file. -/
theorem TableInv.fput (hinv : TableInv state) {pointer : ℕ} {file : File}
    (hfile : state.files pointer = some file) :
    TableInv (Files.fput state pointer) ∧
      (Files.fput state pointer).shadow = Function.update state.shadow file.fd
        { file with fCount := file.fCount - 1 }.remains ∧
      (Files.fput state pointer).table.maxFds = state.table.maxFds := by
  simp only [Files.fput, hfile]
  exact hinv.settle hfile rfl

/-- Changing a file and dropping a reference to it. -/
theorem TableInv.fput_setFile (hinv : TableInv state) {pointer : ℕ} {file : File}
    (hfile : state.files pointer = some file) {changed : File}
    (hfd : changed.fd = file.fd) :
    TableInv (Files.fput (state.setFile pointer changed) pointer) ∧
      (Files.fput (state.setFile pointer changed) pointer).shadow =
        Function.update state.shadow file.fd
          { changed with fCount := changed.fCount - 1 }.remains ∧
      (Files.fput (state.setFile pointer changed) pointer).table.maxFds =
        state.table.maxFds := by
  have hchanged : (state.setFile pointer changed).files pointer = some changed :=
    Function.update_self _ _ _
  obtain ⟨hput, hshadow, hmax⟩ := (hinv.setFile hfile hfd).fput hchanged
  refine ⟨hput, ?_, hmax⟩
  rw [hshadow, hinv.shadow_setFile hfile, hfd, Function.update_idem]

end Invariant

/-! ## Making and finding files -/

section Fget

variable {state : FileState} {fd : ℕ} {memory : ℕ → ℕ}

/-- An array grown without wrapping has twice the slots needed, the old entries
and otherwise null. -/
theorem growTable_spec {table : FdTable} (hgrow : table.maxFds ≤ fd)
    (hsmall : fd + 1 < 2 ^ 29)
    (hmemory : table.fdNull → ∀ index < 2 * (fd + 1), memory index = 0) :
    (growTable table fd memory).maxFds = 2 * (fd + 1) ∧
      (growTable table fd memory).allocated = 2 * (fd + 1) ∧
      ∀ index < 2 * (fd + 1), (growTable table fd memory).slots index =
        if index < table.maxFds then table.slots index else 0 := by
  have hsize : fdSize fd = 8 * (fd + 1) := by
    simp only [fdSize]
    omega
  have hcleared : wordSub (fdSize fd) (table.maxFds * 4) / 4 =
      2 * (fd + 1) - table.maxFds := by
    simp only [hsize, wordSub]
    omega
  refine ⟨by simp only [growTable, hsize]; omega,
    by simp only [growTable, hsize]; omega, fun index hindex => ?_⟩
  simp only [growTable, hcleared]
  by_cases hold : index < table.maxFds
  · rw [if_pos hold, if_pos hold]
  rw [if_neg hold, if_neg hold]
  cases hnull : table.fdNull with
  | true => simpa using hmemory hnull index hindex
  | false => simp [show index < table.maxFds + (2 * (fd + 1) - table.maxFds) by omega]

/-- With room for the descriptor the table is safe and has the same files. -/
theorem TableInv.ensureSlot (hinv : TableInv state)
    (hmeets : FgetMeets state fd memory) :
    TableInv (ensureSlot state fd memory) ∧
      fd < (Files.ensureSlot state fd memory).table.maxFds ∧
      (Files.ensureSlot state fd memory).table.maxFds =
        (if state.table.maxFds ≤ fd then 2 * (fd + 1) else state.table.maxFds) ∧
      (Files.ensureSlot state fd memory).files = state.files ∧
      (Files.ensureSlot state fd memory).shadow = state.shadow := by
  by_cases hgrow : state.table.maxFds ≤ fd
  · obtain ⟨hsmall, hmemory⟩ := hmeets hgrow
    obtain ⟨hmax, hallocated, hslots⟩ :=
      growTable_spec hgrow hsmall hmemory
    simp only [Files.ensureSlot, if_pos hgrow]
    refine ⟨?_, by simp only [hmax]; omega, by simp only [hmax], rfl, ?_⟩
    · refine
        { events := ?_
          within := by simp only [hmax, hallocated]; exact le_rfl
          slots := ?_
          linked := ?_
          small := by simp only [hmax]; omega
          unused := by simp [growTable]
          alive := hinv.alive
          next_pos := hinv.next_pos }
      · intro event hevent
        rcases List.mem_cons.mp hevent with rfl | hold
        · intro index
          refine ⟨fun hindex => ⟨by simp only [hmax]; omega, ?_⟩,
            fun hlow hhigh => ?_⟩
          · rw [hslots index (by omega), if_pos hindex]
          · rw [hslots index (by rwa [hmax] at hhigh), if_neg (by omega)]
        · exact hinv.events event hold
      · intro index hindex
        simp only [hmax] at hindex
        simp only [hslots index hindex]
        by_cases hold : index < state.table.maxFds
        · rw [if_pos hold]
          exact hinv.slots index hold
        · exact .inl (if_neg hold)
      · intro pointer file hfile
        obtain ⟨hpos, hnext, hfd, hslot⟩ := hinv.linked pointer file hfile
        refine ⟨hpos, hnext, by simp only [hmax]; omega, ?_⟩
        simp only [hslots file.fd (by omega), if_pos hfd, hslot]
    · funext other
      simp only [FileState.shadow, hmax]
      by_cases hold : other < state.table.maxFds
      · rw [if_pos hold, if_pos (by omega), hslots other (by omega), if_pos hold]
        rfl
      · rw [if_neg hold]
        split
        · next hnew =>
          rw [hslots other hnew, if_neg hold]
          exact hinv.files_zero
        · rfl
  · simp only [Files.ensureSlot, if_neg hgrow]
    exact ⟨hinv, by omega, trivial, trivial, trivial⟩

/-- The state after a file has been put in an empty slot. -/
def addFile (state : FileState) (fd : ℕ) (file : File) : FileState :=
  { (state.note (.access fd state.table.maxFds)).setFile state.nextFile file with
      nextFile := state.nextFile + 1 }.writeSlot fd state.nextFile

theorem findFile_of_null {fstat : Option FileInode}
    (hnull : state.table.slots fd = 0) :
    findFile state fd fstat =
      (addFile state fd (newFile fd fstat), state.nextFile) :=
  if_pos hnull

theorem findFile_of_ne {fstat : Option FileInode}
    (hslot : state.table.slots fd ≠ 0) :
    findFile state fd fstat =
      (state.note (.access fd state.table.maxFds), state.table.slots fd) :=
  if_neg hslot

theorem TableInv.ne_nextFile (hinv : TableInv state) {pointer : ℕ} {file : File}
    (hfile : state.files pointer = some file) : pointer ≠ state.nextFile :=
  (hinv.linked pointer file hfile).2.1.ne

/-- A new file in an empty slot keeps the table in order. -/
theorem TableInv.addFile (hinv : TableInv state) (hfd : fd < state.table.maxFds)
    (hnull : state.table.slots fd = 0) {file : File} (hfile : file.fd = fd) :
    TableInv (addFile state fd file) := by
  refine
    { events := ((hinv.note_access hfd).note_access hfd).events
      within := hinv.within
      slots := ?_
      linked := ?_
      small := hinv.small
      unused := hinv.unused
      alive := hinv.alive
      next_pos := Nat.succ_pos _ }
  · intro index hindex
    change Function.update state.table.slots fd state.nextFile index = 0 ∨
      ∃ other, Function.update state.files state.nextFile (some file)
        (Function.update state.table.slots fd state.nextFile index) =
        some other ∧ other.fd = index
    by_cases hsame : index = fd
    · refine .inr ⟨file, ?_, hfile.trans hsame.symm⟩
      rw [hsame, Function.update_self, Function.update_self]
    · rw [Function.update_of_ne hsame]
      rcases hinv.slots index hindex with hzero | ⟨other, hother, hotherFd⟩
      · exact .inl hzero
      · refine .inr ⟨other, ?_, hotherFd⟩
        rw [Function.update_of_ne (hinv.ne_nextFile hother), hother]
  · intro pointer other hother
    change Function.update state.files state.nextFile (some file) pointer =
      some other at hother
    change pointer ≠ 0 ∧ pointer < state.nextFile + 1 ∧
      other.fd < state.table.maxFds ∧
      Function.update state.table.slots fd state.nextFile other.fd = pointer
    by_cases hsame : pointer = state.nextFile
    · subst hsame
      rw [Function.update_self] at hother
      obtain rfl := Option.some.inj hother
      rw [hfile]
      exact ⟨hinv.next_pos.ne', Nat.lt_succ_self _, hfd,
        Function.update_self _ _ _⟩
    · rw [Function.update_of_ne hsame] at hother
      obtain ⟨hpos, hnext, hotherFd, hslot⟩ := hinv.linked pointer other hother
      refine ⟨hpos, by omega, hotherFd, ?_⟩
      rw [Function.update_of_ne ?_, hslot]
      intro heq
      rw [heq, hnull] at hslot
      exact hpos hslot.symm

/-- The shadows after a file has been put in an empty slot. -/
theorem TableInv.shadow_addFile (hinv : TableInv state)
    (hfd : fd < state.table.maxFds) (file : File) :
    (Files.addFile state fd file).shadow =
      Function.update state.shadow fd (some file) := by
  funext other
  change (if other < state.table.maxFds then
    Function.update state.files state.nextFile (some file)
      (Function.update state.table.slots fd state.nextFile other)
    else none) = _
  by_cases hsame : other = fd
  · rw [hsame, if_pos hfd, Function.update_self, Function.update_self,
      Function.update_self]
  rw [Function.update_of_ne hsame, Function.update_of_ne hsame,
    FileState.shadow]
  split
  · next hlt =>
    refine Function.update_of_ne ?_ _ _
    rcases hinv.slots other hlt with hzero | ⟨otherFile, hother, -⟩
    · rw [hzero]
      exact hinv.next_pos.ne
    · exact hinv.ne_nextFile hother
  · rfl

/-- The slot of a descriptor within the array leads to its file, made if there
is none. -/
theorem TableInv.findFile (hinv : TableInv state)
    (hfd : fd < state.table.maxFds) (fstat : Option FileInode) :
    ∃ state' pointer, findFile state fd fstat = (state', pointer) ∧
      TableInv state' ∧ state'.table.maxFds = state.table.maxFds ∧
      state'.files pointer = some ((state.shadow fd).getD (newFile fd fstat)) ∧
      state'.shadow = Function.update state.shadow fd
        (some ((state.shadow fd).getD (newFile fd fstat))) ∧
      ∀ other file, state.files other = some file →
        state'.files other = some file := by
  have hshadow : state.shadow fd = state.files (state.table.slots fd) := by
    rw [FileState.shadow, if_pos hfd]
  by_cases hnull : state.table.slots fd = 0
  -- a new file
  · rw [findFile_of_null hnull]
    have hnone : state.shadow fd = none := by
      rw [hshadow, hnull, hinv.files_zero]
    rw [hnone, Option.getD_none]
    refine ⟨_, _, rfl, hinv.addFile hfd hnull rfl, rfl,
      Function.update_self _ _ _, hinv.shadow_addFile hfd _, ?_⟩
    intro other file hfile
    exact (Function.update_of_ne (hinv.ne_nextFile hfile) _ _).trans hfile
  -- a file that is there
  · rw [findFile_of_ne hnull]
    obtain ⟨file, hfile, hfileFd⟩ := hinv.file_of_slot hfd hnull
    rw [hshadow, hfile, Option.getD_some]
    refine ⟨_, _, rfl, hinv.note_access hfd, rfl, hfile, ?_, fun _ _ h => h⟩
    change state.shadow = _
    rw [← hfile, ← hshadow, Function.update_eq_self]

/-- The file `fget` returns. -/
def fgetFile (state : FileState) (fd : ℕ) (fstat : Option FileInode) : File :=
  let file := (state.shadow fd).getD (newFile fd fstat)
  { file with fCount := file.fCount + 1 }

/-- `fget` finds or makes the file of the descriptor and counts the
reference. -/
theorem TableInv.fget (hinv : TableInv state)
    (hmeets : FgetMeets state fd memory) (fstat : Option FileInode) :
    ∃ state' pointer, fget state fd memory fstat = (state', some pointer) ∧
      TableInv state' ∧
      state'.table.maxFds =
        (if state.table.maxFds ≤ fd then 2 * (fd + 1) else state.table.maxFds) ∧
      state'.files pointer = some (fgetFile state fd fstat) ∧
      (fgetFile state fd fstat).fd = fd ∧
      state'.shadow = Function.update state.shadow fd
        (some (fgetFile state fd fstat)) ∧
      ∀ other file, state.files other = some file → state'.files other =
        some (if file.fd = fd then fgetFile state fd fstat else file) := by
  obtain ⟨hroom, hfd, hmax, hfiles, hshadow⟩ := hinv.ensureSlot hmeets
  obtain ⟨found, pointer, hfind, hfound, hmax', hfile, hshadow', hkeeps⟩ :=
    hroom.findFile hfd fstat
  rw [hshadow] at hfile hshadow'
  have hfileFd : ((state.shadow fd).getD (newFile fd fstat)).fd = fd := by
    cases hold : state.shadow fd with
    | none => rfl
    | some file => exact (hinv.shadow_fd hold).2.2
  have hset := hfound.shadow_setFile hfile (fgetFile state fd fstat)
  rw [hshadow', hfileFd, Function.update_idem] at hset
  simp only [Files.fget, hfind, hfile]
  refine ⟨_, pointer, rfl, hfound.setFile hfile rfl, hmax'.trans hmax,
    Function.update_self _ _ _, hfileFd, hset, fun other file hother => ?_⟩
  have hfoundFile := hkeeps other file (by rw [hfiles]; exact hother)
  have hslot := (hfound.linked other file hfoundFile).2.2.2
  have hslot' := (hfound.linked pointer _ hfile).2.2.2
  change Function.update found.files pointer (some (fgetFile state fd fstat))
    other = _
  by_cases hsame : file.fd = fd
  · rw [hsame] at hslot
    rw [hfileFd] at hslot'
    rw [if_pos hsame, ← hslot, hslot', Function.update_self]
  · rw [if_neg hsame, Function.update_of_ne ?_, hfoundFile]
    intro heq
    rw [heq, hfile] at hfoundFile
    exact hsame (Option.some.inj hfoundFile ▸ hfileFd)

end Fget

/-! ## Keeping the table -/

section Keep

variable {state : FileState} {fd : ℕ} {memory : ℕ → ℕ}

/-- A look up reads a slot of the array or none. -/
theorem TableInv.lookup (hinv : TableInv state) (hmeets : LookupMeets state fd) :
    ∃ state' pointer, lookup state fd = (state', pointer) ∧ TableInv state' ∧
      state'.files = state.files ∧ state'.table = state.table ∧
      (pointer = 0 ∧ (negative fd = true ∨ state.shadow fd = none) ∨
        negative fd = false ∧ fd < state.table.maxFds ∧
          pointer = state.table.slots fd ∧ pointer ≠ 0 ∧
          ∃ file, state.files pointer = some file ∧
            state.shadow fd = some file) := by
  simp only [Files.lookup]
  split
  · next hout =>
    refine ⟨_, _, rfl, hinv, rfl, rfl, .inl ⟨rfl, ?_⟩⟩
    simp only [Bool.or_eq_true, decide_eq_true_eq] at hout
    refine hout.imp_right fun hlt => ?_
    rw [FileState.shadow, if_neg (by omega)]
  · next hin =>
    simp only [Bool.or_eq_true, decide_eq_true_eq, not_or, Bool.not_eq_true,
      not_lt] at hin
    have hfd : fd < state.table.maxFds :=
      lt_of_le_of_ne hin.2 (hmeets hin.1)
    refine ⟨_, _, rfl, hinv.note_access hfd, rfl, rfl, ?_⟩
    have hshadow : state.shadow fd = state.files (state.table.slots fd) := by
      rw [FileState.shadow, if_pos hfd]
    rcases hinv.slots fd hfd with hnull | ⟨file, hfile, -⟩
    · refine .inl ⟨hnull, .inr ?_⟩
      rw [hshadow, hnull, hinv.files_zero]
    · refine .inr ⟨hin.1, hfd, rfl, ?_, file, hfile, hshadow.trans hfile⟩
      intro hzero
      rw [hzero, hinv.files_zero] at hfile
      simp at hfile

/-- Reads and writes go where the shadow says. -/
theorem TableInv.transfer (hinv : TableInv state) (hmeets : LookupMeets state fd)
    (operation : FileOperations → Op) :
    TableInv (linux26Transfer operation state fd).1 ∧
      (negative fd = false → (linux26Transfer operation state fd).2 =
        some ((state.shadow fd).elim .kernel
          fun file => (operation file.fOp).dispatch)) := by
  obtain ⟨state', pointer, hlookup, hinv', hfiles, -, hcases⟩ :=
    hinv.lookup hmeets
  simp only [linux26Transfer, hlookup]
  rcases hcases with ⟨rfl, hnone⟩ | ⟨-, -, -, hne, file, hfile, hshadow⟩
  · refine ⟨hinv', fun hnonneg => ?_⟩
    rw [hnone.resolve_left (by simp [hnonneg])]
    rfl
  · rw [if_neg hne, hfiles, hfile, hshadow]
    exact ⟨hinv', fun _ => rfl⟩

/-- The mode and device number come from the shadow if there is one. -/
theorem TableInv.fstat (hinv : TableInv state) {answer : Option FileInode}
    (hmeets : answer.isSome → LookupMeets state fd) :
    TableInv (linux26Fstat state fd answer).1 ∧
      (negative fd = false → (linux26Fstat state fd answer).2 =
        answer.map fun stat => (((state.shadow fd).elim stat File.inode).mode,
          ((state.shadow fd).elim stat File.inode).rdev)) := by
  cases answer with
  | none => exact ⟨hinv, fun _ => rfl⟩
  | some stat =>
      obtain ⟨state', pointer, hlookup, hinv', hfiles, -, hcases⟩ :=
        hinv.lookup (hmeets rfl)
      simp only [linux26Fstat, hlookup]
      rcases hcases with ⟨rfl, hnone⟩ | ⟨-, -, -, hne, file, hfile, hshadow⟩
      · refine ⟨hinv', fun hnonneg => ?_⟩
        rw [hnone.resolve_left (by simp [hnonneg])]
        rfl
      · rw [if_neg hne, hfiles, hfile, hshadow]
        exact ⟨hinv', fun _ => rfl⟩

/-- Closing a descriptor drops its shadow, unless somebody holds that. -/
theorem TableInv.close (hinv : TableInv state) (fd : ℕ) :
    TableInv (linux26Close state fd) ∧
      (linux26Close state fd).table.maxFds = state.table.maxFds ∧
      (negative fd = false → (linux26Close state fd).shadow =
        Function.update state.shadow fd ((state.shadow fd).bind
          fun file => { file with fIsopen := false }.remains)) := by
  have hkept : state.shadow fd = none → Function.update state.shadow fd
      ((state.shadow fd).bind fun file =>
        { file with fIsopen := false }.remains) = state.shadow := by
    intro hnone
    rw [hnone, Option.bind_none, ← hnone, Function.update_eq_self]
  simp only [linux26Close]
  split
  · next hin =>
    simp only [Bool.and_eq_true, decide_eq_true_eq] at hin
    have hnote := hinv.note_access hin.2
    have hshadow : state.shadow fd = state.files (state.table.slots fd) := by
      rw [FileState.shadow, if_pos hin.2]
    by_cases hnull : state.table.slots fd = 0
    · rw [show (state.readSlot fd).2 = 0 from hnull, if_pos rfl]
      refine ⟨hnote, rfl, fun _ => (hkept ?_).symm⟩
      rw [hshadow, hnull, hinv.files_zero]
    · obtain ⟨file, hfile, hfileFd⟩ := hinv.file_of_slot hin.2 hnull
      rw [if_neg (show (state.readSlot fd).2 ≠ 0 from hnull)]
      rw [show (state.readSlot fd).1.files (state.readSlot fd).2 = some file
        from hfile]
      obtain ⟨hclosed, hshadow', hmax⟩ := TableInv.settle hnote hfile
        (show { file with fIsopen := false }.fd = file.fd from rfl)
      refine ⟨hclosed, hmax, fun _ => ?_⟩
      subst hfileFd
      rw [hshadow, hfile]
      exact hshadow'
  · next hout =>
    refine ⟨hinv, rfl, fun hnonneg => (hkept ?_).symm⟩
    rw [FileState.shadow, if_neg]
    intro hlt
    exact hout (by simp [hnonneg, hlt])

/-- The size of the array once it has a slot for the descriptor. -/
def grownTo (state : FileState) (fd : ℕ) : ℕ :=
  if state.table.maxFds ≤ fd then 2 * (fd + 1) else state.table.maxFds

/-- Opening a device makes the shadow that stands for it. -/
theorem TableInv.openChrdev (hinv : TableInv state) {answer : ℕ}
    (herr : isErr answer = false) (hmeets : FgetMeets state answer memory)
    (chrdev : Chrdev) (rdev : ℕ) (fstat : Option FileInode) :
    TableInv (Files.openChrdev state chrdev rdev answer memory fstat).1 ∧
      (Files.openChrdev state chrdev rdev answer memory fstat).1.table.maxFds =
        grownTo state answer ∧
      (Files.openChrdev state chrdev rdev answer memory fstat).1.shadow =
        Function.update state.shadow answer (chrdevFile
          ((state.shadow answer).getD (newFile answer fstat)) chrdev
          rdev).remains := by
  obtain ⟨state', pointer, hfget, hinv', hmax, hfile, hfileFd, hshadow, -⟩ :=
    hinv.fget hmeets fstat
  simp only [Files.openChrdev, herr, hfget, hfile]
  obtain ⟨hput, hshadow', hmax'⟩ := hinv'.fput_setFile hfile
    (show (chrdevFile (fgetFile state answer fstat) chrdev rdev).fd =
      (fgetFile state answer fstat).fd from rfl)
  refine ⟨hput, hmax'.trans hmax, ?_⟩
  refine hshadow'.trans ?_
  rw [hshadow, hfileFd, Function.update_idem]
  rfl

/-- The file of a new descriptor takes over the operations and the inode of the
old one. -/
def dupFile (oldFile newFile : File) : File :=
  { newFile with
    fOpReal := oldFile.fOpReal
    fOpIsReal := oldFile.fOpIsReal
    inode := oldFile.inode }

/-- Duplicating a descriptor without a shadow changes no shadow. -/
theorem TableInv.dup_of_none (hinv : TableInv state) {answer : ℕ}
    (hlook : LookupMeets state fd)
    (hnone : negative fd = true ∨ state.shadow fd = none)
    (fstat : Option FileInode) :
    TableInv (linux26Dup state fd answer memory fstat).1 ∧
      (linux26Dup state fd answer memory fstat).1.table = state.table ∧
      (linux26Dup state fd answer memory fstat).1.shadow = state.shadow := by
  cases herr : isErr answer with
  | true =>
      simp only [linux26Dup, herr, if_true]
      exact ⟨hinv, trivial, trivial⟩
  | false =>
      obtain ⟨state₁, pointer, hlookup, hinv₁, hfiles₁, htable₁, hcases⟩ :=
        hinv.lookup hlook
      simp only [linux26Dup, herr, hlookup, Bool.false_eq_true, if_false]
      rcases hcases with ⟨rfl, -⟩ | ⟨hnonneg, -, -, -, file, -, hshadow⟩
      · refine ⟨hinv₁, htable₁, ?_⟩
        funext other
        rw [if_pos rfl, FileState.shadow, FileState.shadow, htable₁, hfiles₁]
      · rcases hnone with hnegative | hnone
        · simp [hnonneg] at hnegative
        · simp [hshadow] at hnone

/-- Duplicating a descriptor with a shadow makes the new one's like it. -/
theorem TableInv.dup_of_some (hinv : TableInv state) {answer : ℕ} {old : File}
    (herr : isErr answer = false) (hnonneg : negative fd = false)
    (hold : state.shadow fd = some old)
    (hmeets : FgetMeets state answer memory) (fstat : Option FileInode) :
    TableInv (linux26Dup state fd answer memory fstat).1 ∧
      (linux26Dup state fd answer memory fstat).1.table.maxFds =
        grownTo state answer ∧
      (linux26Dup state fd answer memory fstat).1.shadow =
        Function.update state.shadow answer (dupFile old
          ((state.shadow answer).getD (newFile answer fstat))).remains := by
  obtain ⟨hfd, hfile, holdFd⟩ := hinv.shadow_fd hold
  have hslot := (hinv.slot_of_shadow hold).2
  have hlookup : Files.lookup state fd =
      (state.note (.access fd state.table.maxFds), state.table.slots fd) :=
    if_neg (by simp [hnonneg, hfd.le])
  have hnote := hinv.note_access hfd
  obtain ⟨state₂, pointer, hfget, hinv₂, hmax, hnew, hnewFd, hshadow, hkeeps⟩ :=
    TableInv.fget hnote (show FgetMeets (state.note
      (.access fd state.table.maxFds)) answer memory from hmeets) fstat
  have hold₂ := hkeeps _ old hfile
  simp only [linux26Dup, herr, hlookup, hfget, hnew, hold₂, if_neg hslot,
    Bool.false_eq_true, if_false]
  obtain ⟨hput, hshadow', hmax'⟩ := hinv₂.fput_setFile hnew
    (show (dupFile (if old.fd = answer then fgetFile (state.note
      (.access fd state.table.maxFds)) answer fstat else old) (fgetFile
      (state.note (.access fd state.table.maxFds)) answer fstat)).fd = _ from rfl)
  refine ⟨hput, hmax'.trans hmax, hshadow'.trans ?_⟩
  rw [hshadow, hnewFd, Function.update_idem]
  -- a descriptor may be duplicated onto itself
  by_cases hself : fd = answer
  · subst hself
    have hget : fgetFile (state.note (.access fd state.table.maxFds)) fd fstat =
        { old with fCount := old.fCount + 1 } := by
      simp only [fgetFile]
      rw [show (state.note (.access fd state.table.maxFds)).shadow fd = some old
        from hold, Option.getD_some]
    rw [if_pos holdFd, hget, hold]
    rfl
  · rw [if_neg (by rw [holdFd]; exact hself)]
    rfl

end Keep

theorem tableInv_noFiles : TableInv noFiles := by
  refine
    { events := ?_
      within := le_rfl
      slots := ?_
      linked := ?_
      small := by decide
      unused := fun _ => rfl
      alive := rfl
      next_pos := Nat.one_pos }
  · intro event hevent
    simp [noFiles] at hevent
  · intro index hindex
    exact absurd hindex (Nat.not_lt_zero index)
  · intro pointer file hfile
    simp [noFiles] at hfile

end IbcsUs.Files
