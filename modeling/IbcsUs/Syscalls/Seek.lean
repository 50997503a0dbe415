import Mathlib.Data.BitVec
import Mathlib.Data.Nat.Cast.Order.Ring
import Mathlib.Order.Nat
import IbcsUs.Core.Runs

/-!
# Marshalling of system calls, and the position of a file

`ibcs_syscall` hands its variadic arguments to the kernel word by word: the caller
lays them out as 32-bit words, a 64-bit one as two with the low word first, and
`ibcs_vsyscall` loads the first six words into the argument registers.  The kernel's
`lseek` takes three words, so that a 64-bit offset pushes the origin out of the
register it is read from.
-/

namespace IbcsUs.Syscalls

open IbcsUs.Runs

/-- A variadic argument. -/
inductive Arg where
  | int (word : BitVec 32)
  | loff (value : BitVec 64)
  deriving DecidableEq

def lowWord (value : BitVec 64) : BitVec 32 := value.setWidth 32

def highWord (value : BitVec 64) : BitVec 32 := (value >>> 32).setWidth 32

/-- The words a caller pushes. -/
def layout : List Arg → List (BitVec 32)
  | [] => []
  | .int word :: args => word :: layout args
  | .loff value :: args => lowWord value :: highWord value :: layout args

/-- The registers the kernel reads a system call's arguments from. -/
structure Registers where
  ebx : BitVec 32
  ecx : BitVec 32
  edx : BitVec 32
  esi : BitVec 32
  edi : BitVec 32
  ebp : BitVec 32
  deriving DecidableEq

/-- The loads of `ibcs_vsyscall`; `above` is what the stack holds after the
arguments. -/
def vsyscallRegisters (above : ℕ → BitVec 32) (args : List Arg) : Registers :=
  let words := layout args
  let word (index : ℕ) := words.getD index (above (index - words.length))
  ⟨word 0, word 1, word 2, word 3, word 4, word 5⟩

/-- The pair `edx:eax` that `ibcs_vsyscall` returns.  The kernel sets `eax` and
leaves `edx` as it was. -/
def returnPair (registers : Registers) (eax : BitVec 32) : BitVec 64 :=
  registers.edx ++ eax

/-! ## The kernel's side -/

/-- An open regular file in the kernel. -/
structure OpenFile where
  size : ℕ
  pos : ℕ
  deriving DecidableEq

/-- The arguments of `lseek` as the i386 kernel reads them. -/
structure LseekRequest where
  fd : BitVec 32
  offset : ℤ
  whence : BitVec 32
  deriving DecidableEq

def lseekRequest (registers : Registers) : LseekRequest :=
  ⟨registers.ebx, registers.ecx.toInt, registers.edx⟩

def einval : ℕ := 22

def enxio : ℕ := 6

def eoverflow : ℕ := 75

/-- The word for an error number. -/
def errorWord (errno : ℕ) : BitVec 32 := -BitVec.ofNat 32 errno

/-- `IBCS_IS_ERR`. -/
def isErrWord (word : BitVec 32) : Bool := 2 ^ 32 - 4096 < word.toNat

/-- The position `lseek` asks for: `SEEK_SET`, `SEEK_CUR`, `SEEK_END`, `SEEK_DATA`
and `SEEK_HOLE` in a file without holes. -/
def lseekTarget (file : OpenFile) (request : LseekRequest) : Except ℕ ℤ :=
  match request.whence.toNat with
  | 0 => .ok request.offset
  | 1 => .ok (file.pos + request.offset)
  | 2 => .ok (file.size + request.offset)
  | 3 => if 0 ≤ request.offset ∧ request.offset < file.size then
      .ok request.offset else .error enxio
  | 4 => if 0 ≤ request.offset ∧ request.offset < file.size then
      .ok file.size else .error enxio
  | _ => .error einval

/-- The kernel's `lseek`.  A position that does not fit the result is taken and
reported as `EOVERFLOW`. -/
def kernelLseek (file : OpenFile) (request : LseekRequest) :
    OpenFile × BitVec 32 :=
  match lseekTarget file request with
  | .error errno => (file, errorWord errno)
  | .ok target =>
      if target < 0 then (file, errorWord einval)
      else
        ({ file with pos := target.toNat },
          if target < 2 ^ 31 then BitVec.ofInt 32 target
          else errorWord eoverflow)

/-- The kernel's `read` or `write`, which answers a count or an error. -/
def kernelTransfer (file : OpenFile) (answer : BitVec 32) : OpenFile :=
  if isErrWord answer then file
  else { file with pos := file.pos + answer.toNat }

/-! ## The emulator's side -/

section File

variable (above : ℕ → BitVec 32) (fd : BitVec 32)

/-- The registers of `file_operations_llseek`'s call. -/
def llseekRegisters (loff : BitVec 64) (origin : BitVec 32) : Registers :=
  vsyscallRegisters above [.int fd, .loff loff, .int origin]

/-- `file_operations_llseek`. -/
def fileOperationsLlseek (file : OpenFile) (loff : BitVec 64)
    (origin : BitVec 32) : OpenFile × BitVec 64 :=
  let registers := llseekRegisters above fd loff origin
  let (file, eax) := kernelLseek file (lseekRequest registers)
  (file, returnPair registers eax)

/-- The common body of `file_operations_read` and `file_operations_write`: the
result and the new `*loff`. -/
def fileTransfer (file : OpenFile) (loff : BitVec 64) (answer : BitVec 32) :
    OpenFile × BitVec 32 × BitVec 64 :=
  let (file, lseekRet) := fileOperationsLlseek above fd file loff 0
  if lseekRet ≠ loff then (file, lowWord lseekRet, loff)
  else
    let file := kernelTransfer file answer
    if isErrWord answer then (file, answer, loff)
    else (file, answer, loff + answer.signExtend 64)

/-- `file_operations_read`; `answer` is what the kernel's `read` returns. -/
def fileOperationsRead (file : OpenFile) (loff : BitVec 64)
    (answer : BitVec 32) :
    OpenFile × BitVec 32 × BitVec 64 :=
  fileTransfer above fd file loff answer

/-- `file_operations_write`; `answer` is what the kernel's `write` returns. -/
def fileOperationsWrite (file : OpenFile) (loff : BitVec 64)
    (answer : BitVec 32) :
    OpenFile × BitVec 32 × BitVec 64 :=
  fileTransfer above fd file loff answer

/-- `kernel_read`, whose offset is an unsigned word. -/
def kernelRead (file : OpenFile) (offset : BitVec 32) (answer : BitVec 32) :
    OpenFile × BitVec 32 :=
  let (file, got, _) :=
    fileOperationsRead above fd file (offset.setWidth 64) answer
  (file, got)

/-- `file_get_f_pos`. -/
def fileGetFPos (file : OpenFile) : OpenFile × BitVec 64 :=
  fileOperationsLlseek above fd file 0 1

/-! ## Sequences of calls -/

/-- A call on an open file, with the kernel's answer to the transfer it may make. -/
inductive FileCall where
  | read (loff : BitVec 64) (answer : BitVec 32)
  | write (loff : BitVec 64) (answer : BitVec 32)
  | kernelRead (offset : BitVec 32) (answer : BitVec 32)
  | llseek (loff : BitVec 64) (origin : BitVec 32)
  | getFPos
  deriving DecidableEq

def fileStep (file : OpenFile) : FileCall → Option OpenFile
  | .read loff answer => some (fileOperationsRead above fd file loff answer).1
  | .write loff answer => some (fileOperationsWrite above fd file loff answer).1
  | .kernelRead offset answer => some (kernelRead above fd file offset answer).1
  | .llseek loff origin =>
      some (fileOperationsLlseek above fd file loff origin).1
  | .getFPos => some (fileGetFPos above fd file).1

/-- A call of `file_operations_llseek` makes the kernel perform it. -/
def LlseekRight (loff : BitVec 64) (origin : BitVec 32) : Prop :=
  lseekRequest (llseekRegisters above fd loff origin) = ⟨fd, loff.toInt, origin⟩

/-- Every `file_operations_llseek` that a call makes is performed as asked, and
`file_get_f_pos` returns the position and leaves it. -/
def FileCallRight (file : OpenFile) : FileCall → Prop
  | .read loff _ | .write loff _ => LlseekRight above fd loff 0
  | .kernelRead offset _ => LlseekRight above fd (offset.setWidth 64) 0
  | .llseek loff origin => LlseekRight above fd loff origin
  | .getFPos =>
      (fileGetFPos above fd file).1 = file ∧
        (fileGetFPos above fd file).2.toInt = file.pos

/-- The offset has no more than 31 bits and the origin is `SEEK_SET`; or it is
negative, has 32 bits, and the origin is `-1`. -/
def SeekMeets (loff : BitVec 64) (origin : BitVec 32) : Prop :=
  0 ≤ loff.toInt ∧ loff.toInt < 2 ^ 31 ∧ origin = 0 ∨
    -2 ^ 31 ≤ loff.toInt ∧ loff.toInt < 0 ∧ origin = -1

/-- The condition on a call: its offset and origin are read as they are meant; the
position is asked for at the start of the file. -/
def FileCallMeets (file : OpenFile) : FileCall → Prop
  | .read loff _ | .write loff _ => SeekMeets loff 0
  | .kernelRead offset _ => SeekMeets (offset.setWidth 64) 0
  | .llseek loff origin => SeekMeets loff origin
  | .getFPos => file.pos = 0

/-! ## When the words are read as they are meant -/

theorem lowWord_toInt_eq_iff (loff : BitVec 64) (origin : BitVec 32) :
    (lowWord loff).toInt = loff.toInt ∧ highWord loff = origin ↔
      SeekMeets loff origin := by
  have hbound := loff.isLt
  have hzero : origin = 0 ↔ origin.toNat = 0 := by
    rw [← BitVec.toNat_inj]
    rfl
  have hminus : origin = -1 ↔ origin.toNat = 2 ^ 32 - 1 := by
    rw [← BitVec.toNat_inj]
    rfl
  rw [← BitVec.toNat_inj, SeekMeets, hzero, hminus]
  simp only [lowWord, highWord, BitVec.toInt_eq_toNat_cond,
    BitVec.toNat_setWidth, BitVec.toNat_ushiftRight, Nat.shiftRight_eq_div_pow]
  split_ifs <;> omega

theorem lseekRequest_llseek (loff : BitVec 64) (origin : BitVec 32) :
    lseekRequest (llseekRegisters above fd loff origin) =
      ⟨fd, (lowWord loff).toInt, highWord loff⟩ := rfl

theorem llseekRight_iff (loff : BitVec 64) (origin : BitVec 32) :
    LlseekRight above fd loff origin ↔ SeekMeets loff origin := by
  rw [LlseekRight, lseekRequest_llseek, ← lowWord_toInt_eq_iff]
  simp

/-- `file_get_f_pos` rewinds the file. -/
theorem fileGetFPos_eq (file : OpenFile) :
    fileGetFPos above fd file = ({ file with pos := 0 }, 0) := by
  have hrequest : lseekRequest (llseekRegisters above fd 0 1) = ⟨fd, 0, 0⟩ :=
    rfl
  have hpair (eax : BitVec 32) :
      returnPair (llseekRegisters above fd 0 1) eax = (0 : BitVec 32) ++ eax :=
        rfl
  have hseek : kernelLseek file ⟨fd, 0, 0⟩ = ({ file with pos := 0 }, 0) := rfl
  simp only [fileGetFPos, fileOperationsLlseek, hrequest, hseek, hpair]
  rfl

theorem fileCallRight_iff (file : OpenFile) (call : FileCall) :
    FileCallRight above fd file call ↔ FileCallMeets file call := by
  cases call with
  | read loff answer => exact llseekRight_iff above fd loff 0
  | write loff answer => exact llseekRight_iff above fd loff 0
  | kernelRead offset answer => exact llseekRight_iff above fd _ 0
  | llseek loff origin => exact llseekRight_iff above fd loff origin
  | getFPos =>
      obtain ⟨size, pos⟩ := file
      simp only [FileCallRight, FileCallMeets, fileGetFPos_eq]
      constructor
      · intro hright
        exact congrArg OpenFile.pos hright.1.symm
      · rintro rfl
        exact ⟨rfl, rfl⟩

end File

/-- In a sequence of calls on an open file every `file_operations_llseek` is
performed as asked and every `file_get_f_pos` is right exactly when the sought
offsets have 31 bits and start from the beginning, and the position is only asked
for when it is 0. -/
theorem fileCalls_right_iff (above : ℕ → BitVec 32) (fd : BitVec 32)
    (file : OpenFile) (calls : List FileCall) :
    Always (fileStep above fd) (fun _ => True)
      (FileCallRight above fd) file calls ↔
      StepsMeet (fileStep above fd) FileCallMeets file calls := by
  apply always_iff_stepsMeet fun (file : OpenFile) (_ : True) => trivial
  · exact fun _ _ _ _ _ _ => trivial
  · exact fun file call _ hmeets =>
      (fileCallRight_iff above fd file call).2 hmeets
  · exact fun file call _ hright _ =>
      (fileCallRight_iff above fd file call).1 hright
  · trivial

/-- The position of a file that has been read to its fifth byte. -/
theorem fileGetFPos_rewinds :
    ¬ Always (fileStep (fun _ => 0) 3) (fun _ => True)
      (FileCallRight (fun _ => 0) 3)
        ⟨100, 0⟩ [.read 0 5, .getFPos] := by
  rintro ⟨-, -, hrest⟩
  obtain ⟨-, hright, -⟩ := hrest ⟨100, 5⟩ (by decide)
  rw [fileCallRight_iff] at hright
  exact absurd hright (by simp [FileCallMeets])

end IbcsUs.Syscalls
