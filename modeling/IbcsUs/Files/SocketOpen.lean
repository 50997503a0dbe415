import IbcsUs.Files.StatusFlags
import IbcsUs.Memory.Word

/-!
# Opening a socket by its name

A program may expect a named pipe where Linux has a Unix domain socket.  `svr4_open`
means to connect to it instead, by looking at the file once it is open.  The kernel
does not open sockets, so the call has returned before it looks.
-/

namespace IbcsUs.SocketOpen

open IbcsUs.StatusFlags (mapWord flSvr4ToLinux)
open IbcsUs.Memory (Errno)

/-- What a name of the file system stands for: a socket, of the stream kind or not,
with the server that listens on it; or anything else. -/
inductive Node where
  | socket (stream : Bool) (server : Option ℕ)
  | other
  deriving DecidableEq

/-- What a descriptor is open on. -/
inductive Object where
  | file (id : ℕ)
  | socket (server : Option ℕ)
  deriving DecidableEq

/-- `S_ISSOCK` of the mode. -/
def Object.isSocket : Object → Bool
  | .file _ => false
  | .socket _ => true

/-- The open descriptors, and for those that have a `struct file` in the emulator's
table whether it is the one of a socket.  The table speaks of open descriptors. -/
structure OpenFiles where
  objects : ℕ → Option Object
  entries : ℕ → Option Bool
  belongs : ∀ fd isSocket, entries fd = some isSocket →
    ∃ object, objects fd = some object ∧ object.isSocket = isSocket

namespace OpenFiles

/-- A descriptor that was not open. -/
def add (files : OpenFiles) (fd : ℕ) (hfree : files.objects fd = none)
    (object : Object) : OpenFiles where
  objects := Function.update files.objects fd (some object)
  entries := files.entries
  belongs other isSocket hentry := by
    obtain ⟨found, hfound, hsocket⟩ := files.belongs other isSocket hentry
    have hother : other ≠ fd := fun heq => by
      rw [heq, hfree] at hfound
      cases hfound
    exact ⟨found, by rw [Function.update_of_ne hother, hfound], hsocket⟩

/-- `close`. -/
def remove (files : OpenFiles) (fd : ℕ) : OpenFiles where
  objects := Function.update files.objects fd none
  entries := Function.update files.entries fd none
  belongs other isSocket hentry := by
    by_cases hother : other = fd
    · simp [hother] at hentry
    · rw [Function.update_of_ne hother] at hentry
      obtain ⟨found, hfound, hsocket⟩ := files.belongs other isSocket hentry
      exact ⟨found, by rw [Function.update_of_ne hother, hfound], hsocket⟩

/-- A descriptor that was open on a socket is connected. -/
def connect (files : OpenFiles) (fd server : ℕ) {before : Option ℕ}
    (hopen : files.objects fd = some (.socket before)) : OpenFiles where
  objects := Function.update files.objects fd (some (.socket (some server)))
  entries := files.entries
  belongs other isSocket hentry := by
    obtain ⟨found, hfound, hsocket⟩ := files.belongs other isSocket hentry
    by_cases hother : other = fd
    · refine ⟨.socket (some server), by rw [hother, Function.update_self], ?_⟩
      rw [hother, hopen, Option.some.injEq] at hfound
      rw [← hsocket, ← hfound]
      rfl
    · exact ⟨found, by rw [Function.update_of_ne hother, hfound], hsocket⟩

/-- `fget` of an open descriptor, which makes an entry where there is none, and
whether it is a socket's. -/
def fget (files : OpenFiles) (fd : ℕ) : OpenFiles × Option Bool :=
  match hobject : files.objects fd with
  | none => (files, none)
  | some object =>
      if hentry : files.entries fd = none then
        ({ files with
            entries := Function.update files.entries fd (some object.isSocket)
            belongs := fun other isSocket hsome => by
              by_cases hother : other = fd
              · subst hother
                rw [Function.update_self, Option.some.injEq] at hsome
                exact ⟨object, hobject, hsome⟩
              · rw [Function.update_of_ne hother] at hsome
                exact files.belongs other isSocket hsome },
          some object.isSocket)
      else (files, files.entries fd)

end OpenFiles

def enxio : ℤ := 6
def e2big : ℤ := 7
def emfile : ℤ := 24
def econnrefused : ℤ := 111
def eprototype : ℤ := 91

/-- `UNIX_PATH_MAX`. -/
def unixPathMax : ℕ := 108

/-- The kernel: what names stand for, which descriptor comes next, what opening
another file than a socket leads to, and what it refuses. -/
structure Kernel where
  node : List Char → Node
  newFd : OpenFiles → Option ℕ
  newFd_free : ∀ files fd, newFd files = some fd → files.objects fd = none
  openOther : List Char → BitVec 32 → BitVec 32 → Except Errno ℕ
  refusesSocket : Option Errno
  refusesConnect : List Char → Option Errno

namespace Kernel

variable (kernel : Kernel)

/-- A new descriptor for an object. -/
def install (files : OpenFiles) (object : Object) : ℤ × OpenFiles :=
  match hnew : kernel.newFd files with
  | none => (-emfile, files)
  | some fd => (fd, files.add fd (kernel.newFd_free files fd hnew) object)

/-- `open`.  A socket is refused with `ENXIO`. -/
def openFile (files : OpenFiles) (name : List Char) (flags mode : BitVec 32) :
    ℤ × OpenFiles :=
  match kernel.node name with
  | .socket _ _ => (-enxio, files)
  | .other =>
      match kernel.openOther name flags mode with
      | .error errno => (-errno.number, files)
      | .ok id => kernel.install files (.file id)

/-- `socket(AF_UNIX, SOCK_STREAM, 0)`. -/
def socket (files : OpenFiles) : ℤ × OpenFiles :=
  match kernel.refusesSocket with
  | some errno => (-errno.number, files)
  | none => kernel.install files (.socket none)

/-- `connect` to a name. -/
def connect (files : OpenFiles) (fd : ℕ) (name : List Char) : ℤ × OpenFiles :=
  match kernel.node name with
  | .socket true (some server) =>
      match kernel.refusesConnect name with
      | some errno => (-errno.number, files)
      | none =>
          match hopen : files.objects fd with
          | some (.socket _) => (0, files.connect fd server hopen)
          | _ => (-econnrefused, files)
  | .socket false (some _) => (-eprototype, files)
  | _ => (-econnrefused, files)

end Kernel

/-! ## The emulator -/

/-- What the emulator adds: the loaded map of names, and which of its devices takes a
name. -/
structure Emulator where
  filemapMap : List Char → List Char
  device : List Char → Option ℕ

section Open

variable (kernel : Kernel) (emulator : Emulator)

/-- `linux26_open`; for a device of the emulator `open_chrdev` opens `/dev`, and the
emulator crashes when that fails. -/
def linux26Open (files : OpenFiles) (fname : List Char) (flags mode : BitVec 32) :
    Option (ℤ × OpenFiles) :=
  let mappedName := emulator.filemapMap fname
  match emulator.device mappedName with
  | some _ =>
      let (fd, files) := kernel.openFile files "/dev".toList 0 0
      if fd < 0 then none else some (fd, files)
  | none => some (kernel.openFile files mappedName flags mode)

/-- The part of `svr4_open` for a file that is a socket; `fd` is the descriptor it was
opened on, and `getname` returns the name as it was given. -/
def reopenSocket (files : OpenFiles) (fd : ℕ) (fname : List Char) : ℤ × OpenFiles :=
  let files := files.remove fd
  let (fd, files) := kernel.socket files
  if fd < 0 then (fd, files)
  else if unixPathMax ≤ fname.length then (-e2big, files.remove fd.toNat)
  else
    let (error, files) := kernel.connect files fd.toNat fname
    if error ≠ 0 then (error, files.remove fd.toNat) else (fd, files)

/-- `svr4_open`. -/
def svr4Open (files : OpenFiles) (fname : List Char) (flag mode : BitVec 32) :
    Option (ℤ × OpenFiles) :=
  (linux26Open kernel emulator files fname (mapWord flag flSvr4ToLinux) mode).map
    fun (fd, files) =>
      if fd < 0 then (fd, files)
      else
        match files.fget fd.toNat with
        | (files, some true) => reopenSocket kernel files fd.toNat fname
        | (files, _) => (fd, files)

/-! ## What the call is for -/

/-- The mapped name is that of a stream socket with a listening server, it fits in an
address, and the kernel grants the socket and the connection. -/
def Connectable (files : OpenFiles) (fname : List Char) (server : ℕ) : Prop :=
  let name := emulator.filemapMap fname
  kernel.node name = .socket true (some server) ∧ name.length < unixPathMax ∧
    kernel.refusesSocket = none ∧ kernel.refusesConnect name = none ∧
    ∃ fd, kernel.newFd files = some fd

/-- A descriptor and what is open, without the emulator's own table. -/
def visible (outcome : ℤ × OpenFiles) : ℤ × (ℕ → Option Object) :=
  (outcome.1, outcome.2.objects)

/-- A server that can be reached is connected to; opening another socket fails and
leaves nothing open; any other file, and a device of the emulator, is opened as by the
plain call with mapped flags. -/
def OpenRight (files : OpenFiles) (fname : List Char) (flag mode : BitVec 32) : Prop :=
  (∀ server, Connectable kernel emulator files fname server →
    ∃ fd after, svr4Open kernel emulator files fname flag mode = some (fd, after) ∧
      0 ≤ fd ∧ files.objects fd.toNat = none ∧
      after.objects = Function.update files.objects fd.toNat
        (some (.socket (some server)))) ∧
  ((∀ server, ¬ Connectable kernel emulator files fname server) →
    emulator.device (emulator.filemapMap fname) = none →
    kernel.node (emulator.filemapMap fname) ≠ .other →
    ∃ error after, svr4Open kernel emulator files fname flag mode = some (error, after) ∧
      error < 0 ∧ after.objects = files.objects) ∧
  ((emulator.device (emulator.filemapMap fname) ≠ none ∨
      kernel.node (emulator.filemapMap fname) = .other) →
    (∀ server, ¬ Connectable kernel emulator files fname server) →
    (svr4Open kernel emulator files fname flag mode).map visible =
      (linux26Open kernel emulator files fname (mapWord flag flSvr4ToLinux) mode).map
        visible)

end Open

/-! ## What comes of it -/

section Outcome

variable {kernel : Kernel} {emulator : Emulator} {files : OpenFiles} {fname : List Char}
  {flag mode : BitVec 32}

/-- The kernel opens a file that is no socket, or nothing. -/
theorem openFile_cases (kernel : Kernel) (files : OpenFiles) (name : List Char)
    (flags mode : BitVec 32) :
    ((kernel.openFile files name flags mode).1 < 0 ∧
      (kernel.openFile files name flags mode).2 = files) ∨
    ∃ fd id, ∃ hfree : files.objects fd = none,
      kernel.openFile files name flags mode = ((fd : ℤ), files.add fd hfree (.file id)) := by
  rw [Kernel.openFile]
  cases hnode : kernel.node name with
  | socket stream server => exact .inl ⟨by simp [enxio], rfl⟩
  | other =>
      cases hopen : kernel.openOther name flags mode with
      | error errno =>
          have hpos := errno.pos
          exact .inl ⟨by simp only; omega, rfl⟩
      | ok id =>
          simp only [Kernel.install]
          split
          · exact .inl ⟨by simp [emfile], rfl⟩
          · rename_i fd hnew
            exact .inr ⟨fd, id, kernel.newFd_free files fd hnew, rfl⟩

/-- A descriptor that has just been opened has no entry yet, and is no socket's. -/
theorem fget_add {fd : ℕ} (id : ℕ) (hfree : files.objects fd = none) :
    ((files.add fd hfree (.file id)).fget fd).2 = some false ∧
      ((files.add fd hfree (.file id)).fget fd).1.objects =
        (files.add fd hfree (.file id)).objects := by
  have hentry : files.entries fd = none := by
    by_contra hsome
    obtain ⟨isSocket, hisSocket⟩ := Option.ne_none_iff_exists'.mp hsome
    obtain ⟨object, hobject, -⟩ := files.belongs fd isSocket hisSocket
    rw [hfree] at hobject
    cases hobject
  have hobject : (files.add fd hfree (.file id)).objects fd = some (.file id) :=
    Function.update_self ..
  rw [OpenFiles.fget]
  split
  · rename_i hnone
    rw [hobject] at hnone
    cases hnone
  · rename_i object hsome
    rw [hobject, Option.some.injEq] at hsome
    subst hsome
    rw [dif_pos (show (files.add fd hfree (.file id)).entries fd = none from hentry)]
    exact ⟨rfl, rfl⟩

/-- Either `linux26_open` fails and opens nothing, or it opens a file that is no
socket. -/
theorem linux26Open_cases (flags : BitVec 32) {outcome : ℤ × OpenFiles}
    (hopen : linux26Open kernel emulator files fname flags mode = some outcome) :
    (outcome.1 < 0 ∧ outcome.2 = files) ∨
      ∃ fd id, ∃ hfree : files.objects fd = none,
        outcome = ((fd : ℤ), files.add fd hfree (.file id)) := by
  simp only [linux26Open] at hopen
  split at hopen
  · split at hopen
    · cases hopen
    · simp only [Option.some.injEq] at hopen
      subst hopen
      exact openFile_cases kernel files _ _ _
  · simp only [Option.some.injEq] at hopen
    subst hopen
    exact openFile_cases kernel files _ _ _

/-- `svr4_open` is the plain open: it never finds that it has opened a socket. -/
theorem svr4Open_visible :
    (svr4Open kernel emulator files fname flag mode).map visible =
      (linux26Open kernel emulator files fname (mapWord flag flSvr4ToLinux) mode).map
        visible := by
  rw [svr4Open]
  cases hopen : linux26Open kernel emulator files fname (mapWord flag flSvr4ToLinux)
    mode with
  | none => rfl
  | some outcome =>
      obtain ⟨hneg, -⟩ | ⟨fd, id, hfree, rfl⟩ := linux26Open_cases _ hopen
      · simp only [Option.map_some, if_pos hneg]
      · obtain ⟨hentry, hobjects⟩ := fget_add id hfree
        have hnonneg : ¬ (fd : ℤ) < 0 := by omega
        simp only [Option.map_some, if_neg hnonneg, Int.toNat_natCast]
        generalize hfget : (files.add fd hfree (.file id)).fget fd = found at *
        obtain ⟨after, isSocket⟩ := found
        simp only at hentry hobjects
        subst hentry
        simp only [visible, hobjects]

/-- A socket that is no device of the emulator is refused. -/
theorem svr4Open_socket (hdevice : emulator.device (emulator.filemapMap fname) = none)
    (hnode : kernel.node (emulator.filemapMap fname) ≠ .other) :
    svr4Open kernel emulator files fname flag mode = some (-enxio, files) := by
  rw [svr4Open, linux26Open]
  simp only [hdevice, Kernel.openFile]
  cases hsocket : kernel.node (emulator.filemapMap fname) with
  | socket stream server => rfl
  | other => exact absurd hsocket hnode

/-- No call ends with a descriptor of a socket that was not open before. -/
theorem not_connected {fd : ℤ} {after : OpenFiles} {server : ℕ}
    (hopen : svr4Open kernel emulator files fname flag mode = some (fd, after))
    (hnonneg : 0 ≤ fd) :
    after.objects ≠ Function.update files.objects fd.toNat
      (some (.socket (some server))) := by
  have hvisible : (svr4Open kernel emulator files fname flag mode).map visible =
      (linux26Open kernel emulator files fname (mapWord flag flSvr4ToLinux) mode).map
        visible := svr4Open_visible
  rw [hopen, Option.map_some] at hvisible
  obtain ⟨outcome, hplain, hsame⟩ := Option.map_eq_some_iff.mp hvisible.symm
  have hret : outcome.1 = fd := congrArg Prod.fst hsame
  have hobjects : outcome.2.objects = after.objects := congrArg Prod.snd hsame
  obtain ⟨hneg, -⟩ | ⟨new, id, hfree, rfl⟩ := linux26Open_cases _ hplain
  · omega
  · intro hconnected
    rw [← hobjects, ← hret] at hconnected
    have hat := congrFun hconnected new
    simp [OpenFiles.add] at hat

end Outcome

/-- `svr4_open` does what it is for exactly when the name is not that of a server that
could be reached. -/
theorem svr4Open_right_iff (kernel : Kernel) (emulator : Emulator) (files : OpenFiles)
    (fname : List Char) (flag mode : BitVec 32) :
    OpenRight kernel emulator files fname flag mode ↔
      ∀ server, ¬ Connectable kernel emulator files fname server := by
  constructor
  · intro hright server hconnectable
    obtain ⟨fd, after, hopen, hnonneg, -, hobjects⟩ := hright.1 server hconnectable
    exact not_connected hopen hnonneg hobjects
  · intro hnot
    refine ⟨fun server hconnectable => absurd hconnectable (hnot server),
      fun _ hdevice hnode => ?_, fun _ _ => svr4Open_visible⟩
    exact ⟨-enxio, files, svr4Open_socket hdevice hnode, by decide, rfl⟩

/-! ## A server that listens -/

/-- A kernel where `/s` is a socket with a listening server, and nothing else is. -/
def serverKernel : Kernel where
  node name := if name = ['/', 's'] then .socket true (some 1) else .other
  newFd files := if files.objects 3 = none then some 3 else none
  newFd_free files fd hnew := by
    split at hnew
    · rename_i hfree
      simp only [Option.some.injEq] at hnew
      exact hnew ▸ hfree
    · cases hnew
  openOther _ _ _ := .error Memory.enomem
  refusesSocket := none
  refusesConnect _ := none

def plainEmulator : Emulator := ⟨id, fun _ => none⟩

def noFiles : OpenFiles := ⟨fun _ => none, fun _ => none, fun _ _ h => by cases h⟩

theorem svr4Open_wrong :
    ¬ ∀ (kernel : Kernel) (emulator : Emulator) (files : OpenFiles)
        (fname : List Char) (flag mode : BitVec 32),
      OpenRight kernel emulator files fname flag mode := by
  intro h
  obtain ⟨fd, after, hopen, hnonneg, -, -⟩ :=
    (h serverKernel plainEmulator noFiles ['/', 's'] 2 0).1 1
      ⟨rfl, by decide, rfl, rfl, 3, rfl⟩
  have hrefused : (svr4Open serverKernel plainEmulator noFiles ['/', 's'] 2 0).map
      (·.1) = some (-6) := by
    decide
  rw [hopen, Option.map_some, Option.some.injEq] at hrefused
  have : fd = -6 := hrefused
  omega

end IbcsUs.SocketOpen
