import Mathlib.Data.PNat.Defs
import IbcsUs.Files.FileTable
import IbcsUs.Core.Paths

/-!
# The sockets of the emulation

A socket that a program gets from the socket emulation is a descriptor of the kernel
with a `struct file` of the emulator, its shadow, that makes it look like a character
device.  The devices `socksys` and `spx` are shadows of the directory `/dev` whose
reads and writes are the emulation's; the first write to `spx` puts a connected socket
in their place.

A shadow is found here by its descriptor: each lies in the slot of its own.
-/

namespace IbcsUs.Socksys

open IbcsUs.Files IbcsUs.Paths

/-! ## Descriptors and their shadows -/

abbrev Byte := BitVec 8

/-- What a descriptor of the kernel refers to: a socket, an end of a socket pair, a
stream to the server at a path, or a file that is none of them. -/
inductive Description where
  | file (mode rdev : ℕ)
  | socket (id : ℕ)
  | pairEnd (pair : ℕ) (second : Bool)
  | stream (path : Text)
  deriving DecidableEq

def sIfmt : ℕ := 0o170000
def sIfsock : ℕ := 0o140000
def sIfchr : ℕ := 0o020000

/-- `S_ISSOCK`. -/
def sIssock (mode : ℕ) : Prop := mode &&& sIfmt = sIfsock

instance (mode : ℕ) : Decidable (sIssock mode) :=
  inferInstanceAs (Decidable (_ = _))

/-- The mode and the device number that `fstat` reports. -/
def Description.stat : Description → ℕ × ℕ
  | .file mode rdev => (mode, rdev)
  | _ => (sIfsock ||| 0o777, 0)

/-- Whether the position in a file can be set. -/
def Description.seekable : Description → Bool
  | .file _ _ => true
  | _ => false

/-- `f_op`: `file_operations`, the file's own `_f_op_real`, or
`socksys_socket_fops`. -/
inductive FopPointer where
  | plain
  | own
  | sockets
  deriving DecidableEq

/-- `struct file`. -/
structure Shadow where
  fCount : ℤ
  fIsopen : Bool
  fOp : FopPointer
  fOpReal : FileOperations
  iMode : ℕ
  iRdev : ℕ
  deriving DecidableEq

/-- A table of operations that nothing has been put in. -/
def noFops : FileOperations := ⟨.null, .null, .null, .null, .null, .null⟩

/-- The descriptors with their shadows, `socksys_socket_fops`, what servers have
received, and the descriptors that the program has from `socksys_socket` and has
neither closed nor replaced. -/
structure World where
  kernel : ℕ → Option Description
  shadow : ℕ → Option Shadow
  socketFops : FileOperations
  received : Text → List Byte
  obtained : Finset ℕ

/-- The operations of a file. -/
def World.ops (world : World) (file : Shadow) : FileOperations :=
  match file.fOp with
  | .plain => fileOperations
  | .own => file.fOpReal
  | .sockets => world.socketFops

/-- `MKDEV(SOCKSYS_MAJOR, minor)`. -/
def mkdev (minor : ℕ) : ℕ := 30 * 256 + minor

/-- `MINOR`. -/
def minor (rdev : ℕ) : ℕ := rdev % 256

/-! ## The file table -/

section Table

variable (world : World) (fd : ℕ)

/-- The file that `fget` returns: the descriptor's shadow, or a new one. -/
def held : Shadow :=
  match world.shadow fd with
  | some file => { file with fCount := file.fCount + 1 }
  | none =>
      { fCount := 1
        fIsopen := (world.kernel fd).isSome
        fOp := .plain
        fOpReal := noFops
        iMode := ((world.kernel fd).elim (0, 0) Description.stat).1
        iRdev := ((world.kernel fd).elim (0, 0) Description.stat).2 }

/-- `fget`. -/
def fget : World :=
  { world with
    shadow := Function.update world.shadow fd (some (held world fd)) }

/-- `fdestroy`: what is left of a file. -/
def fdestroy (file : Shadow) : Option Shadow :=
  if file.fCount = 0 ∧ file.fIsopen = false then none else some file

/-- A holder is dropped. -/
def released (file : Shadow) : Option Shadow :=
  fdestroy { file with fCount := file.fCount - 1 }

/-- `fput`. -/
def fput : World :=
  { world with
    shadow := Function.update world.shadow fd
      ((world.shadow fd).bind released) }

/-- `fget`, a change of the file, and `fput`. -/
def withFile (change : Shadow → Shadow) : World :=
  let world := fget world fd
  fput
    { world with
      shadow := Function.update world.shadow fd
        ((world.shadow fd).map change) } fd

/-- `linux26_close`. -/
def linux26Close : World :=
  { world with
    kernel := Function.update world.kernel fd none
    shadow := Function.update world.shadow fd
      ((world.shadow fd).bind fun file =>
        fdestroy { file with fIsopen := false })
    obtained := world.obtained.erase fd }

/-- `linux26_dup` for `dup2`, and for `dup` with the descriptor the kernel
chooses. -/
def linux26Dup (fd2 : ℕ) : World :=
  if world.kernel fd = none then world
  else
    let next : World :=
      { world with
        kernel := Function.update world.kernel fd2 (world.kernel fd)
        obtained :=
          if fd = fd2 then world.obtained else world.obtained.erase fd2 }
    match next.shadow fd with
    | none => next
    | some old =>
        withFile next fd2 fun new =>
          { new with
            fOpReal := old.fOpReal
            fOp := old.fOp
            iMode := old.iMode
            iRdev := old.iRdev }

/-- The kernel opens a descriptor. -/
def install (description : Description) : World :=
  { world with
    kernel := Function.update world.kernel fd (some description) }

/-- `open_chrdev` for a device of the emulation; the kernel opens `/dev`. -/
def openChrdev (minor : ℕ) : World :=
  withFile (install world fd (.file 0o040755 0)) fd fun file =>
    { file with
      fOpReal := overrideOps (world.ops file) (Files.socksysFops mkdev).fops
      fOp := .own
      iMode := sIfchr ||| 0o666
      iRdev := mkdev minor }

/-! ## The sockets -/

/-- `inherit_socksys_funcs`. -/
def inheritSocksysFuncs : World :=
  let fOps := world.ops (held world fd)
  let next := withFile world fd fun file =>
    { file with fOp := .sockets, iMode := sIfchr, iRdev := mkdev 0 }
  if world.socketFops.read ≠ fOps.read then
    { next with socketFops := { fOps with release := .device 0 } }
  else next

/-- `socksys_socket`, when the kernel answers with a descriptor. -/
def socksysSocket (id : ℕ) : World :=
  let next := inheritSocksysFuncs (install world fd (.socket id)) fd
  { next with obtained := insert fd next.obtained }

end Table

def enoent : ℤ := 2
def ebadf : ℤ := 9
def einval : ℤ := 22
def emfile : ℤ := 24
def espipe : ℤ := 29
def enotconn : ℤ := 107
def econnrefused : ℤ := 111

/-- The kernel's answer to `socketpair`. -/
inductive PairAnswer where
  | refused (errno : ℕ+)
  | granted (pair first second : ℕ)
  deriving DecidableEq

/-- The kernel can give the answer: it grants two descriptors that are free once the
two old ones are closed. -/
def PairAnswer.Fits (world : World) (left right : ℕ) : PairAnswer → Prop
  | .refused _ => True
  | .granted _ first second =>
      first ≠ second ∧
        (linux26Close (linux26Close world left) right).kernel first = none ∧
        (linux26Close (linux26Close world left) right).kernel second = none

instance (world : World) (left right : ℕ) (answer : PairAnswer) :
    Decidable (answer.Fits world left right) :=
  match answer with
  | .refused _ => instDecidableTrue
  | .granted _ _ _ => instDecidableAnd

/-- `socksys_socketpair` from the closing of the two descriptors on. -/
def replaceByPair (world : World) (left right : ℕ) (answer : PairAnswer) :
    ℤ × World :=
  let world := linux26Close (linux26Close world left) right
  match answer with
  | .refused errno => (-(errno : ℤ), world)
  | .granted pair first second =>
      let world := install (install world first (.pairEnd pair false)) second
        (.pairEnd pair true)
      let world :=
        if first ≠ left then linux26Close (linux26Dup world first left) first
        else world
      let world :=
        if second ≠ right then
          linux26Close (linux26Dup world second right) second
        else world
      (0, inheritSocksysFuncs (inheritSocksysFuncs world left) right)

/-- `socksys_socketpair`. -/
def socksysSocketpair (world : World) (left right : ℕ) (answer : PairAnswer) :
    ℤ × World :=
  let mode := (held world left).iMode
  let world := withFile world left id
  if sIssock mode then replaceByPair world left right answer
  else (-ebadf, world)

/-! ## The device `spx` -/

/-- The text `/dev/spx.map/1`. -/
def spxName : Text := "/dev/spx.map/1".toList

/-- The path of the server of the display. -/
def x11Name : Text := "/tmp/.X11-unix/X0".toList

/-- What lies around the device: what the kernel says about the link
`/dev/spx.map/1`, the paths servers accept connections at, and the kernel's choice of
a free descriptor. -/
structure Surroundings where
  link : Except ℕ+ Text
  servers : Text → Bool
  pick : World → Option ℕ
  pick_free : ∀ world fd, pick world = some fd → world.kernel fd = none

/-- `sun_path` after `readlink` into the name's own buffer, which it is told to be as
long as the name. -/
def sunPath (around : Surroundings) : Except ℤ Text :=
  match around.link with
  | .ok target => .ok (target.take spxName.length)
  | .error errno =>
      if (errno : ℤ) = enoent then .ok x11Name else .error (-(errno : ℤ))

/-- `spx_connect`: the socket, or an error. -/
def spxConnect (around : Surroundings) (world : World) :
    Except ℤ ℕ × World :=
  match sunPath around with
  | .error error => (.error error, world)
  | .ok path =>
      match around.pick world with
      | none => (.error (-emfile), world)
      | some newfd =>
          if around.servers path then
            (.ok newfd, install world newfd (.stream path))
          else
            (.error (-econnrefused),
              linux26Close (install world newfd (.socket 0)) newfd)

/-- `socksys_fdinit`, for the minor numbers that can be opened: 1 or an error. -/
def socksysFdinit (around : Surroundings) (world : World) (fd : ℕ) :
    ℤ × World :=
  let rdev := (held world fd).iRdev
  let world := withFile world fd id
  if minor rdev = 0 then (-einval, world)
  else
    match spxConnect around world with
    | (.error error, world) => (error, world)
    | (.ok sockfd, world) =>
        let world := inheritSocksysFuncs world sockfd
        (1, linux26Close (linux26Dup world sockfd fd) sockfd)

/-- The kernel's `write`; sockets accept everything. -/
def kernelWrite (world : World) (fd : ℕ) (bytes : List Byte) : ℤ × World :=
  match world.kernel fd with
  | none => (-ebadf, world)
  | some (.socket _) => (-enotconn, world)
  | some (.stream path) =>
      (bytes.length,
        { world with
          received := Function.update world.received path
            (world.received path ++ bytes) })
  | some _ => (bytes.length, world)

/-- `file_operations_write` at position 0, which seeks first. -/
def fileOperationsWrite (world : World) (fd : ℕ) (bytes : List Byte) :
    ℤ × World :=
  match world.kernel fd with
  | none => (-ebadf, world)
  | some description =>
      if description.seekable then kernelWrite world fd bytes
      else (-espipe, world)

/-- `socksys_write` on the file of the descriptor.  The file is dropped, though it was
not held, and got again; `none` is a call through another pointer than that of
`file_operations_write`. -/
def socksysWrite (around : Surroundings) (world : World) (fd : ℕ)
    (bytes : List Byte) : Option ℤ × World :=
  let (error, world) := socksysFdinit around world fd
  if error < 0 then (some error, world)
  else
    let world := fput world fd
    let fOps := world.ops (held world fd)
    let world := fget world fd
    if bytes.length = 1 then (some 1, world)
    else if fOps.write = .plain then
      let (written, world) := fileOperationsWrite world fd bytes
      (some written, world)
    else (none, world)

/-- `linux26_write`. -/
def linux26Write (around : Surroundings) (world : World) (fd : ℕ)
    (bytes : List Byte) : Option ℤ × World :=
  match (world.shadow fd).map fun file => (world.ops file).write with
  | some (.device _) => socksysWrite around world fd bytes
  | _ =>
      let (written, world) := kernelWrite world fd bytes
      (some written, world)

/-! ## Runs -/

/-- A call of the program, with the kernel's answers. -/
inductive Call where
  | socket (fd id : ℕ)
  | openFile (fd mode rdev : ℕ)
  | openDevice (fd minor : ℕ)
  | close (fd : ℕ)
  | dup (fd fd2 : ℕ)
  | look (fd : ℕ)
  | socketpair (left right : ℕ) (answer : PairAnswer)
  | write (around : Surroundings) (fd : ℕ) (bytes : List Byte)

/-- The world after a call; one with an answer that the kernel cannot give, a new
descriptor that is open already, leaves it as it is. -/
def step (world : World) : Call → World
  | .socket fd id =>
      if world.kernel fd = none then socksysSocket world fd id else world
  | .openFile fd mode rdev =>
      if world.kernel fd = none then install world fd (.file mode rdev)
      else world
  | .openDevice fd minor =>
      if world.kernel fd = none then openChrdev world fd minor else world
  | .close fd => linux26Close world fd
  | .dup fd fd2 => linux26Dup world fd fd2
  | .look fd => withFile world fd id
  | .socketpair left right answer =>
      if answer.Fits world left right then
        (socksysSocketpair world left right answer).2
      else world
  | .write around fd bytes => (linux26Write around world fd bytes).2

/-- The start: descriptors that are open, and no shadows. -/
def start (kernel : ℕ → Option Description) : World where
  kernel := kernel
  shadow _ := none
  socketFops := noFops
  received _ := []
  obtained := ∅

/-- The world after calls. -/
def after (kernel : ℕ → Option Description) (calls : List Call) : World :=
  calls.foldl step (start kernel)

end IbcsUs.Socksys
