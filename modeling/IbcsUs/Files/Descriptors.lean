import IbcsUs.Core.Runs
import IbcsUs.Files.TableInvariant

/-!
# Descriptors and the files behind them

The kernel knows which open file stands behind a descriptor; the emulator knows
it only as far as its own calls told the file table.  Here both run side by
side: the kernel's table of descriptors, the emulator's file table, and the
calls that change either of them.  Calls the kernel refuses are left out.

An open file carries the device it was opened as, if `open_chrdev` opened it,
and what the kernel's `fstat` answers for it.
-/

namespace IbcsUs.Files

open IbcsUs.Memory

/-- An open file of the kernel. -/
structure OpenFile where
  id : ℕ
  stat : FileInode
  chrdev : Option (Chrdev × ℕ)

/-- The operations that calls on the open file should reach. -/
def OpenFile.ops (file : OpenFile) : FileOperations :=
  match file.chrdev with
  | none => fileOperations
  | some (chrdev, _) => overrideOps fileOperations chrdev.fops

/-- The mode and the device number the program should see. -/
def OpenFile.modeRdev (file : OpenFile) : ℕ × ℕ :=
  match file.chrdev with
  | none => (file.stat.mode, file.stat.rdev)
  | some (_, rdev) => (chrdevMode, rdev)

/-- The file table, the kernel's descriptors, the identity of the next open
file, the files opened as devices, and the calls of a release operation. -/
structure Descriptors where
  files : FileState
  kernel : ℕ → Option OpenFile
  nextId : ℕ
  opened : List OpenFile
  released : List (ℕ × Op)

/-- The calls, with the descriptor the kernel chooses, the status of a newly
opened file and the contents of new memory. -/
inductive DescriptorCall where
  | openFile (path : String) (mode flags answer : ℕ) (stat : FileInode)
      (memory : ℕ → ℕ)
  | close (fd : ℕ)
  | dup (fd answer : ℕ) (memory : ℕ → ℕ)
  | dup2 (fd fd2 : ℕ) (memory : ℕ → ℕ)
  | fcntlDupFd (fd answer : ℕ)
  | fget (fd : ℕ) (memory : ℕ → ℕ)
  | fput (pointer : ℕ)
  | fclose (pointer : ℕ)

/-- The kernel's bound on descriptors. -/
def descriptorLimit : ℕ := 2 ^ 20

namespace Descriptors

variable (world : Descriptors)

/-- The kernel may choose this descriptor for a new file. -/
def free (fd : ℕ) : Bool :=
  (world.kernel fd).isNone && fd < descriptorLimit

/-- The kernel opens a file. -/
def install (fd : ℕ) (file : OpenFile) : Descriptors :=
  { world with
    kernel := Function.update world.kernel fd (some file)
    nextId := world.nextId + 1
    opened := if file.chrdev.isSome then file :: world.opened else world.opened }

/-- The kernel lets a descriptor stand for the file. -/
def refer (fd : ℕ) (file : OpenFile) : Descriptors :=
  { world with kernel := Function.update world.kernel fd (some file) }

/-- The kernel closes a descriptor. -/
def drop (fd : ℕ) : Descriptors :=
  { world with kernel := Function.update world.kernel fd none }

/-- A release operation is called for the file behind a descriptor, unless there
is none. -/
def release (file : OpenFile) (op : Option Op) : Descriptors :=
  match op with
  | none => world
  | some .null => world
  | some op => { world with released := (file.id, op) :: world.released }

/-- The file behind a pointer somebody holds. -/
def held (pointer : ℕ) : Option File :=
  (world.files.files pointer).filter fun file => file.fCount != 0

/-- The effect of `linux26_dup` once the kernel has answered. -/
def duplicate (file : OpenFile) (fd answer : ℕ) (memory : ℕ → ℕ) :
    Descriptors :=
  { world.refer answer file with
    files := (linux26Dup world.files fd answer memory (some file.stat)).1 }

end Descriptors

/-- One call that succeeds in the kernel. -/
def descriptorStep (chrdevList : List Chrdev) (world : Descriptors)
    (call : DescriptorCall) : Option Descriptors :=
  if world.files.crashed then none
  else
    match call with
    | .openFile path mode flags answer stat memory =>
        if world.free answer then
          let file : OpenFile :=
            ⟨world.nextId, stat, findChrdev chrdevList path mode flags⟩
          some { world.install answer file with
            files := (linux26Open chrdevList world.files path mode flags answer
              answer memory (some stat)).1 }
        else none
    | .close fd =>
        (world.kernel fd).map fun _ =>
          { world.drop fd with files := linux26Close world.files fd }
    | .dup fd answer memory =>
        (world.kernel fd).bind fun file =>
          if world.free answer then
            some (world.duplicate file fd answer memory)
          else none
    | .dup2 fd fd2 memory =>
        (world.kernel fd).bind fun file =>
          if fd2 < descriptorLimit then
            some (world.duplicate file fd fd2 memory)
          else none
    | .fcntlDupFd fd answer =>
        (world.kernel fd).bind fun file =>
          if world.free answer then some (world.refer answer file) else none
    | .fget fd memory =>
        some { world with
          files := (fget world.files fd memory
            ((world.kernel fd).map OpenFile.stat)).1 }
    | .fput pointer =>
        (world.held pointer).map fun _ =>
          { world with files := fput world.files pointer }
    | .fclose pointer =>
        (world.held pointer).bind fun shadow =>
          (world.kernel shadow.fd).map fun file =>
            let (files, op) := linux26Fclose world.files pointer
            { (world.drop shadow.fd).release file op with files := files }

theorem Descriptors.kernel_release (world : Descriptors) (file : OpenFile)
    (op : Option Op) : (world.release file op).kernel = world.kernel := by
  simp only [Descriptors.release]
  split <;> rfl

theorem Descriptors.free_iff {world : Descriptors} {fd : ℕ} :
    world.free fd = true ↔ world.kernel fd = none ∧ fd < descriptorLimit := by
  simp [Descriptors.free]

theorem Descriptors.held_eq_some_iff {world : Descriptors} {pointer : ℕ}
    {shadow : File} : world.held pointer = some shadow ↔
      world.files.files pointer = some shadow ∧ shadow.fCount ≠ 0 := by
  simp [Descriptors.held, Option.filter_eq_some_iff]

/-- What a call that succeeds does. -/
theorem descriptorStep_cases {chrdevList : List Chrdev}
    {world next : Descriptors} {call : DescriptorCall}
    (hstep : descriptorStep chrdevList world call = some next) :
    match call with
    | .openFile path mode flags answer stat memory =>
        world.kernel answer = none ∧ answer < descriptorLimit ∧
          next = { world.install answer
              ⟨world.nextId, stat, findChrdev chrdevList path mode flags⟩ with
            files := (linux26Open chrdevList world.files path mode flags answer
              answer memory (some stat)).1 }
    | .close fd =>
        ∃ file, world.kernel fd = some file ∧
          next = { world.drop fd with files := linux26Close world.files fd }
    | .dup fd answer memory =>
        ∃ file, world.kernel fd = some file ∧ world.kernel answer = none ∧
          answer < descriptorLimit ∧
          next = world.duplicate file fd answer memory
    | .dup2 fd fd2 memory =>
        ∃ file, world.kernel fd = some file ∧ fd2 < descriptorLimit ∧
          next = world.duplicate file fd fd2 memory
    | .fcntlDupFd fd answer =>
        ∃ file, world.kernel fd = some file ∧ world.kernel answer = none ∧
          answer < descriptorLimit ∧ next = world.refer answer file
    | .fget fd memory =>
        next = { world with
          files := (fget world.files fd memory
            ((world.kernel fd).map OpenFile.stat)).1 }
    | .fput pointer =>
        ∃ shadow, world.files.files pointer = some shadow ∧
          next = { world with files := fput world.files pointer }
    | .fclose pointer =>
        ∃ shadow file, world.files.files pointer = some shadow ∧
          world.kernel shadow.fd = some file ∧
          next = { (world.drop shadow.fd).release file
              (some shadow.fOp.release) with
            files := (linux26Fclose world.files pointer).1 } := by
  simp only [descriptorStep] at hstep
  split at hstep
  · simp at hstep
  cases call with
  | openFile path mode flags answer stat memory =>
      simp only [Option.ite_none_right_eq_some, Descriptors.free_iff,
        Option.some.injEq] at hstep
      exact ⟨hstep.1.1, hstep.1.2, hstep.2.symm⟩
  | close fd =>
      obtain ⟨file, hfile, rfl⟩ := Option.map_eq_some_iff.mp hstep
      exact ⟨file, hfile, rfl⟩
  | dup fd answer memory =>
      obtain ⟨file, hfile, hrest⟩ := Option.bind_eq_some_iff.mp hstep
      simp only [Option.ite_none_right_eq_some, Descriptors.free_iff,
        Option.some.injEq] at hrest
      exact ⟨file, hfile, hrest.1.1, hrest.1.2, hrest.2.symm⟩
  | dup2 fd fd2 memory =>
      obtain ⟨file, hfile, hrest⟩ := Option.bind_eq_some_iff.mp hstep
      simp only [Option.ite_none_right_eq_some, Option.some.injEq] at hrest
      exact ⟨file, hfile, hrest.1, hrest.2.symm⟩
  | fcntlDupFd fd answer =>
      obtain ⟨file, hfile, hrest⟩ := Option.bind_eq_some_iff.mp hstep
      simp only [Option.ite_none_right_eq_some, Descriptors.free_iff,
        Option.some.injEq] at hrest
      exact ⟨file, hfile, hrest.1.1, hrest.1.2, hrest.2.symm⟩
  | fget fd memory => exact (Option.some.inj hstep).symm
  | fput pointer =>
      obtain ⟨shadow, hheld, rfl⟩ := Option.map_eq_some_iff.mp hstep
      exact ⟨shadow, (Descriptors.held_eq_some_iff.mp hheld).1, rfl⟩
  | fclose pointer =>
      obtain ⟨shadow, hheld, hrest⟩ := Option.bind_eq_some_iff.mp hstep
      obtain ⟨file, hfile, rfl⟩ := Option.map_eq_some_iff.mp hrest
      have hshadow := (Descriptors.held_eq_some_iff.mp hheld).1
      refine ⟨shadow, file, hshadow, hfile, ?_⟩
      simp only [linux26Fclose, hshadow]

/-- The file table once the executable has been opened under `fd`, by
`linux26_fopen`, and closed again. -/
def startFiles (fd : ℕ) (stat : FileInode) : FileState :=
  match fget noFiles fd (fun _ => 0) (some stat) with
  | (files, none) => files
  | (files, some pointer) => (linux26Fclose files pointer).1

/-- The descriptors when the program starts: those it inherits, none of them
known to the file table. -/
def startDescriptors (inherited : ℕ → Option FileInode) (fd : ℕ)
    (stat : FileInode) : Descriptors :=
  { files := startFiles fd stat
    kernel := fun fd => (inherited fd).map fun stat => ⟨fd, stat, none⟩
    nextId := descriptorLimit
    opened := []
    released := [] }

end IbcsUs.Files
