import IbcsUs.Core.Runs
import IbcsUs.Memory.Word

/-!
# The file table

The emulator shadows some of the kernel's descriptors by a `struct file` of its
own, kept in the array `fdt->fd` under the descriptor's number.  `fget` makes
and finds the shadows, `fput` and the close functions drop them, and the
descriptors of emulated character devices live by them: their shadow carries the
operations of the device and a faked mode and device number.

A pointer is a number, zero being null; a `struct file` is a value found by its
pointer.  Following a pointer that leads to no `struct file` is a crash.  Each
access to the array and each growth of it is recorded, with the size of the
array at the time.
-/

namespace IbcsUs.Files

open IbcsUs.Memory

/-- A function pointer of a `struct file_operations`: null, the plain operation
of `file_operations`, or that of a character device. -/
inductive Op where
  | null
  | plain
  | device (index : ℕ)
  deriving DecidableEq

/-- `struct file_operations`. -/
structure FileOperations where
  llseek : Op
  mmap : Op
  read : Op
  write : Op
  openFile : Op
  release : Op
  deriving DecidableEq

/-- The static `file_operations`. -/
def fileOperations : FileOperations :=
  ⟨.plain, .plain, .plain, .plain, .plain, .plain⟩

/-- The part of `struct inode` and `struct kstat` the file table uses. -/
structure FileInode where
  ino : ℕ
  dev : ℕ
  rdev : ℕ
  mode : ℕ
  deriving DecidableEq

/-- `struct file`.  `f_op` points to `file_operations` or to the file's own
`_f_op_real`. -/
structure File where
  fd : ℕ
  fCount : ℕ
  fIsopen : Bool
  fOpIsReal : Bool
  fOpReal : FileOperations
  inode : FileInode
  deriving DecidableEq

/-- What `f_op` points to. -/
def File.fOp (file : File) : FileOperations :=
  if file.fOpIsReal then file.fOpReal else fileOperations

/-- `struct fdtable`, with the number of slots its array was allocated with. -/
structure FdTable where
  maxFds : ℕ
  fdNull : Bool
  slots : ℕ → ℕ
  allocated : ℕ

/-- What happens to the array. -/
inductive TableEvent where
  /-- Slot `index` is read or written. -/
  | access (index maxFds : ℕ)
  /-- The array is replaced by a larger one. -/
  | grow (before after : FdTable)

/-- The file table, the files, the pointer the next file gets, and the
record. -/
structure FileState where
  table : FdTable
  files : ℕ → Option File
  nextFile : ℕ
  record : List TableEvent
  crashed : Bool

namespace FileState

variable (state : FileState)

/-- Follow a pointer that leads nowhere. -/
def crash : FileState := { state with crashed := true }

/-- Note an event. -/
def note (event : TableEvent) : FileState :=
  { state with record := event :: state.record }

/-- Overwrite a file. -/
def setFile (pointer : ℕ) (file : File) : FileState :=
  { state with files := Function.update state.files pointer (some file) }

/-- Read `fdt->fd[fd]`. -/
def readSlot (fd : ℕ) : FileState × ℕ :=
  (state.note (.access fd state.table.maxFds), state.table.slots fd)

/-- Write `fdt->fd[fd]`. -/
def writeSlot (fd pointer : ℕ) : FileState :=
  { state.note (.access fd state.table.maxFds) with
    table :=
      { state.table with
        slots := Function.update state.table.slots fd pointer } }

end FileState

/-- The size `fget` asks for, in 32-bit arithmetic. -/
def fdSize (fd : ℕ) : ℕ := (fd + 1) * 2 * 4 % 2 ^ 32

/-- The array `fget` replaces a too small one by.  `memory` is what the new
memory holds; it is cleared unless this is the first array. -/
def growTable (table : FdTable) (fd : ℕ) (memory : ℕ → ℕ) : FdTable :=
  let cleared := wordSub (fdSize fd) (table.maxFds * 4) / 4
  { maxFds := fdSize fd / 4
    fdNull := false
    allocated := fdSize fd / 4
    slots := fun index =>
      if index < table.maxFds then table.slots index
      else if !table.fdNull && index < table.maxFds + cleared then 0
      else memory index }

/-- A file made by `fget`; `fstat` is the kernel's answer to `vfs_fstat`, if it
is not an error. -/
def newFile (fd : ℕ) (fstat : Option FileInode) : File :=
  { fd := fd
    fCount := 0
    fIsopen := fstat.isSome
    fOpIsReal := false
    fOpReal := ⟨.null, .null, .null, .null, .null, .null⟩
    inode := fstat.getD ⟨0, 0, 0, 0⟩ }

/-- The array is grown if it has no slot for the descriptor. -/
def ensureSlot (state : FileState) (fd : ℕ) (memory : ℕ → ℕ) : FileState :=
  if state.table.maxFds ≤ fd then
    let after := growTable state.table fd memory
    { state.note (.grow state.table after) with table := after }
  else state

/-- The slot of the descriptor is read, and a file is made if it is null. -/
def findFile (state : FileState) (fd : ℕ) (fstat : Option FileInode) :
    FileState × ℕ :=
  let (state, pointer) := state.readSlot fd
  if pointer = 0 then
    let pointer := state.nextFile
    let state := state.setFile pointer (newFile fd fstat)
    ({ state with nextFile := pointer + 1 }.writeSlot fd pointer, pointer)
  else (state, pointer)

/-- `fget`: the pointer to the file, `none` after a crash. -/
def fget (state : FileState) (fd : ℕ) (memory : ℕ → ℕ)
    (fstat : Option FileInode) : FileState × Option ℕ :=
  let (state, pointer) := findFile (ensureSlot state fd memory) fd fstat
  match state.files pointer with
  | none => (state.crash, none)
  | some file =>
      (state.setFile pointer { file with fCount := file.fCount + 1 },
        some pointer)

/-- `fdestroy`. -/
def fdestroy (state : FileState) (pointer : ℕ) (file : File) : FileState :=
  if file.fCount = 0 && !file.fIsopen then
    let state := state.writeSlot file.fd 0
    { state with files := Function.update state.files pointer none }
  else state

/-- `fput`. -/
def fput (state : FileState) (pointer : ℕ) : FileState :=
  match state.files pointer with
  | none => state.crash
  | some file =>
      let file := { file with fCount := file.fCount - 1 }
      fdestroy (state.setFile pointer file) pointer file

/-- A registered entry of `chrdev_list`: its operations and its
`linux26_chrdev_open`, which returns a device number or an error. -/
structure Chrdev where
  fops : FileOperations
  chrdevOpen : String → ℕ → ℕ → ℕ

/-- `socksys_fops`, the device of the socket emulation; `mkdev` is `MKDEV` with
the major number `SOCKSYS_MAJOR`. -/
def socksysFops (mkdev : ℕ → ℕ) : Chrdev :=
  { fops :=
      { llseek := .null
        mmap := .null
        read := .device 0
        write := .device 0
        openFile := .device 0
        release := .device 0 }
    chrdevOpen := fun filename _ _ =>
      if filename = "socksys" then mkdev 0
      else if filename = "spx" then mkdev 1
      else 2 ^ 32 - 2 }

/-- `find_chrdev`: the first registered device that accepts the name. -/
def findChrdev (chrdevList : List Chrdev) (path : String) (mode flags : ℕ) :
    Option (Chrdev × ℕ) :=
  if path.startsWith "/dev/" then
    chrdevList.findSome? fun chrdev =>
      let rdev := chrdev.chrdevOpen (path.drop 5).copy mode flags
      if isErr rdev then none else some (chrdev, rdev)
  else none

/-- `S_IFCHR | 0666`. -/
def chrdevMode : ℕ := 0o020000 ||| 0o666

/-- One operation of a device, or the one in place if it has none. -/
def Op.orElse (op other : Op) : Op :=
  match op with
  | .null => other
  | _ => op

/-- The operations of a file with those of a device put over them. -/
def overrideOps (ops fops : FileOperations) : FileOperations :=
  { llseek := fops.llseek.orElse ops.llseek
    mmap := fops.mmap.orElse ops.mmap
    read := fops.read.orElse ops.read
    write := fops.write.orElse ops.write
    openFile := fops.openFile.orElse ops.openFile
    release := fops.release.orElse ops.release }

/-- The file of a character device. -/
def chrdevFile (file : File) (chrdev : Chrdev) (rdev : ℕ) : File :=
  { file with
    inode := { file.inode with mode := chrdevMode, rdev := rdev }
    fOpReal := overrideOps file.fOp chrdev.fops
    fOpIsReal := true }

/-- `open_chrdev` for a device that accepted the name; `answer` is the kernel's
answer to opening `/dev`, which is not tested for an error. -/
def openChrdev (state : FileState) (chrdev : Chrdev) (rdev answer : ℕ)
    (memory : ℕ → ℕ) (fstat : Option FileInode) : FileState × Option ℕ :=
  if isErr answer then (state.crash, none)
  else
    match fget state answer memory fstat with
    | (state, none) => (state, none)
    | (state, some pointer) =>
        match state.files pointer with
        | none => (state.crash, none)
        | some file =>
            (fput (state.setFile pointer (chrdevFile file chrdev rdev)) pointer,
              some file.fd)

/-- `linux26_open` on a mapped name.  `devAnswer` is the kernel's answer to
opening `/dev` for a device, `answer` that to opening any other name. -/
def linux26Open (chrdevList : List Chrdev) (state : FileState) (path : String)
    (mode flags devAnswer answer : ℕ) (memory : ℕ → ℕ)
    (fstat : Option FileInode) : FileState × Option ℕ :=
  match findChrdev chrdevList path mode flags with
  | none => (state, some answer)
  | some (chrdev, rdev) => openChrdev state chrdev rdev devAnswer memory fstat

/-- The descriptor, an `int`, is negative. -/
def negative (fd : ℕ) : Bool := 2 ^ 31 ≤ fd

/-- `linux26_close`, up to the system call. -/
def linux26Close (state : FileState) (fd : ℕ) : FileState :=
  if !negative fd && fd < state.table.maxFds then
    let (state, pointer) := state.readSlot fd
    if pointer = 0 then state
    else
      match state.files pointer with
      | none => state.crash
      | some file =>
          let file := { file with fIsopen := false }
          fdestroy (state.setFile pointer file) pointer file
  else state

/-- The look up that read, write, dup and fstat share: the slot of the
descriptor, null if the descriptor is negative or above the size of the
array. -/
def lookup (state : FileState) (fd : ℕ) : FileState × ℕ :=
  if negative fd || state.table.maxFds < fd then (state, 0)
  else state.readSlot fd

/-- Where a read or write goes. -/
inductive Dispatch where
  | kernel
  | device (index : ℕ)
  deriving DecidableEq

/-- A null or plain operation means the system call. -/
def Op.dispatch : Op → Dispatch
  | .null => .kernel
  | .plain => .kernel
  | .device index => .device index

/-- `linux26_read` and `linux26_write`, which differ in the operation they look
at. -/
def linux26Transfer (operation : FileOperations → Op) (state : FileState)
    (fd : ℕ) : FileState × Option Dispatch :=
  let (state, pointer) := lookup state fd
  if pointer = 0 then (state, some .kernel)
  else
    match state.files pointer with
    | none => (state.crash, none)
    | some file => (state, some (operation file.fOp).dispatch)

/-- `linux26_read`. -/
def linux26Read : FileState → ℕ → FileState × Option Dispatch :=
  linux26Transfer FileOperations.read

/-- `linux26_write`. -/
def linux26Write : FileState → ℕ → FileState × Option Dispatch :=
  linux26Transfer FileOperations.write

/-- `linux26_fstat`: the mode and the device number stored for the caller.
`answer` is the kernel's answer, if it is not an error. -/
def linux26Fstat (state : FileState) (fd : ℕ) (answer : Option FileInode) :
    FileState × Option (ℕ × ℕ) :=
  match answer with
  | none => (state, none)
  | some stat =>
      let (state, pointer) := lookup state fd
      if pointer = 0 then (state, some (stat.mode, stat.rdev))
      else
        match state.files pointer with
        | none => (state.crash, none)
        | some file => (state, some (file.inode.mode, file.inode.rdev))

/-- `linux26_dup` for `dup` and `dup2`; `answer` is the kernel's. -/
def linux26Dup (state : FileState) (fd answer : ℕ) (memory : ℕ → ℕ)
    (fstat : Option FileInode) : FileState × ℕ :=
  if isErr answer then (state, answer)
  else
    let (state, oldPointer) := lookup state fd
    if oldPointer = 0 then (state, answer)
    else
      match fget state answer memory fstat with
      | (state, none) => (state, answer)
      | (state, some newPointer) =>
          match state.files oldPointer, state.files newPointer with
          | some oldFile, some newFile =>
              let file :=
                { newFile with
                  fOpReal := oldFile.fOpReal
                  fOpIsReal := oldFile.fOpIsReal
                  inode := oldFile.inode }
              (fput (state.setFile newPointer file) newPointer, answer)
          | _, _ => (state.crash, answer)

/-- `linux26_fclose`, with the operation it calls for the release. -/
def linux26Fclose (state : FileState) (pointer : ℕ) : FileState × Option Op :=
  match state.files pointer with
  | none => (state.crash, none)
  | some file =>
      (fput (state.setFile pointer { file with fIsopen := false }) pointer,
        some file.fOp.release)

/-- The state `linux26_compat_init` finds: no array and no files. -/
def noFiles : FileState :=
  { table := ⟨0, true, fun _ => 0, 0⟩
    files := fun _ => none
    nextFile := 1
    record := []
    crashed := false }

end IbcsUs.Files
