import IbcsUs.Syscalls.Seek

/-!
# 64-bit offsets of UnixWare

The large file calls of UnixWare pass an offset as two words.  Each function puts
the words together and sends them through `ibcs_syscall`, where their position among
the arguments decides which registers they land in.  None of the numbers is in
`linux26_syscall_tab`, so that `SYS` goes to `ibcs_vsyscall` at once.
-/

namespace IbcsUs.Syscalls

/-- A system call: the number and the registers. -/
structure Trap where
  number : ℕ
  registers : Registers
  deriving DecidableEq

/-- `SYS`, of a call that is not intercepted. -/
def sysTrap (above : ℕ → BitVec 32) (number : ℕ) (args : List Arg) : Trap :=
  ⟨number, vsyscallRegisters above args⟩

def nrLlseek : ℕ := 140
def nrPread64 : ℕ := 180
def nrPwrite64 : ℕ := 181
def nrTruncate64 : ℕ := 193
def nrFtruncate64 : ℕ := 194

/-- `(lo | (loff_t)hi << 32)`. -/
def joinWords (lo hi : BitVec 32) : BitVec 64 :=
  lo.setWidth 64 ||| hi.setWidth 64 <<< 32

section Code

variable (above : ℕ → BitVec 32)

/-- `uw7_truncate64`. -/
def uw7Truncate64 (filename len lenHi : BitVec 32) : Trap :=
  sysTrap above nrTruncate64 [.int filename, .loff (joinWords len lenHi)]

/-- `uw7_ftruncate64`. -/
def uw7Ftruncate64 (fd len lenHi : BitVec 32) : Trap :=
  sysTrap above nrFtruncate64 [.int fd, .loff (joinWords len lenHi)]

/-- `uw7_pread64`. -/
def uw7Pread64 (fd bufp count pos posHi : BitVec 32) : Trap :=
  sysTrap above nrPread64
    [.int fd, .int bufp, .int count, .loff (joinWords pos posHi)]

/-- `uw7_pwrite64`. -/
def uw7Pwrite64 (fd bufp count pos posHi : BitVec 32) : Trap :=
  sysTrap above nrPwrite64
    [.int fd, .int bufp, .int count, .loff (joinWords pos posHi)]

/-- `uw7_lseek64`; `result` is the address of the local the kernel stores the
position in. -/
def uw7Lseek64 (result fd off offHi orig : BitVec 32) : Trap :=
  let offHi := if offHi = -1 then 0 else offHi
  sysTrap above nrLlseek
    [.int fd, .int offHi, .int off, .int result, .int orig]

end Code

/-! ## What is asked of the kernel -/

/-- A call at an offset, with the words besides the offset. -/
structure OffsetRequest where
  number : ℕ
  operands : List (BitVec 32)
  offset : ℤ
  deriving DecidableEq

/-- The signed 64-bit number of two words. -/
def signedOffset (lo hi : BitVec 32) : ℤ := (hi ++ lo).toInt

/-- How the i386 kernel reads the registers of the calls that take an offset. -/
def offsetRequest (trap : Trap) : Option OffsetRequest :=
  let regs := trap.registers
  if trap.number = nrTruncate64 ∨ trap.number = nrFtruncate64 then
    some ⟨trap.number, [regs.ebx], signedOffset regs.ecx regs.edx⟩
  else if trap.number = nrPread64 ∨ trap.number = nrPwrite64 then
    some ⟨trap.number, [regs.ebx, regs.ecx, regs.edx],
      signedOffset regs.esi regs.edi⟩
  else if trap.number = nrLlseek then
    some ⟨trap.number, [regs.ebx, regs.esi, regs.edi],
      signedOffset regs.edx regs.ecx⟩
  else none

/-- A call of the program, with the words of the offset last. -/
inductive OffsetCall where
  | truncate64 (filename lo hi : BitVec 32)
  | ftruncate64 (fd lo hi : BitVec 32)
  | pread64 (fd bufp count lo hi : BitVec 32)
  | pwrite64 (fd bufp count lo hi : BitVec 32)
  | lseek64 (result fd orig lo hi : BitVec 32)
  deriving DecidableEq

/-- The function that answers the call. -/
def OffsetCall.trap (above : ℕ → BitVec 32) : OffsetCall → Trap
  | .truncate64 filename lo hi => uw7Truncate64 above filename lo hi
  | .ftruncate64 fd lo hi => uw7Ftruncate64 above fd lo hi
  | .pread64 fd bufp count lo hi => uw7Pread64 above fd bufp count lo hi
  | .pwrite64 fd bufp count lo hi => uw7Pwrite64 above fd bufp count lo hi
  | .lseek64 result fd orig lo hi => uw7Lseek64 above result fd lo hi orig

/-- The request that means what the program asks for. -/
def OffsetCall.asked : OffsetCall → OffsetRequest
  | .truncate64 filename lo hi =>
      ⟨nrTruncate64, [filename], signedOffset lo hi⟩
  | .ftruncate64 fd lo hi => ⟨nrFtruncate64, [fd], signedOffset lo hi⟩
  | .pread64 fd bufp count lo hi =>
      ⟨nrPread64, [fd, bufp, count], signedOffset lo hi⟩
  | .pwrite64 fd bufp count lo hi =>
      ⟨nrPwrite64, [fd, bufp, count], signedOffset lo hi⟩
  | .lseek64 result fd orig lo hi =>
      ⟨nrLlseek, [fd, result, orig], signedOffset lo hi⟩

/-- A position is not sought from less than `2 ^ 32` bytes before the origin on. -/
def OffsetCall.Meets : OffsetCall → Prop
  | .lseek64 _ _ _ _ hi => hi ≠ -1
  | _ => True

/-! ## Words that are put together -/

theorem joinWords_eq (lo hi : BitVec 32) : joinWords lo hi = hi ++ lo := by
  apply BitVec.eq_of_getLsbD_eq
  intro index hindex
  simp only [joinWords, BitVec.getLsbD_or, BitVec.getLsbD_shiftLeft,
    BitVec.getLsbD_setWidth, BitVec.getLsbD_append]
  grind

@[simp]
theorem lowWord_joinWords (lo hi : BitVec 32) :
    lowWord (joinWords lo hi) = lo := by
  rw [joinWords_eq]
  apply BitVec.eq_of_getLsbD_eq
  intro index hindex
  simp only [lowWord, BitVec.getLsbD_setWidth, BitVec.getLsbD_append]
  grind

@[simp]
theorem highWord_joinWords (lo hi : BitVec 32) :
    highWord (joinWords lo hi) = hi := by
  rw [joinWords_eq]
  apply BitVec.eq_of_getLsbD_eq
  intro index hindex
  simp only [highWord, BitVec.getLsbD_setWidth, BitVec.getLsbD_ushiftRight,
    BitVec.getLsbD_append]
  grind

theorem layout_joinWords (lo hi : BitVec 32) (args : List Arg) :
    layout (.loff (joinWords lo hi) :: args) = lo :: hi :: layout args := by
  rw [layout, lowWord_joinWords, highWord_joinWords]

theorem signedOffset_inj {lo hi lo' hi' : BitVec 32} :
    signedOffset lo hi = signedOffset lo' hi' ↔ lo = lo' ∧ hi = hi' := by
  constructor
  · intro hsame
    have hwords : hi ++ lo = hi' ++ lo' := BitVec.eq_of_toInt_eq hsame
    rw [← joinWords_eq, ← joinWords_eq] at hwords
    have hlow := congrArg lowWord hwords
    have hhigh := congrArg highWord hwords
    rw [lowWord_joinWords, lowWord_joinWords] at hlow
    rw [highWord_joinWords, highWord_joinWords] at hhigh
    exact ⟨hlow, hhigh⟩
  · rintro ⟨rfl, rfl⟩
    rfl

/-! ## The calls -/

section Calls

variable (above : ℕ → BitVec 32)

theorem offsetRequest_truncate64 (filename lo hi : BitVec 32) :
    offsetRequest (uw7Truncate64 above filename lo hi) =
      some ⟨nrTruncate64, [filename], signedOffset lo hi⟩ := by
  rw [uw7Truncate64, sysTrap, vsyscallRegisters, layout, layout_joinWords]
  rfl

theorem offsetRequest_ftruncate64 (fd lo hi : BitVec 32) :
    offsetRequest (uw7Ftruncate64 above fd lo hi) =
      some ⟨nrFtruncate64, [fd], signedOffset lo hi⟩ := by
  rw [uw7Ftruncate64, sysTrap, vsyscallRegisters, layout, layout_joinWords]
  rfl

theorem offsetRequest_pread64 (fd bufp count lo hi : BitVec 32) :
    offsetRequest (uw7Pread64 above fd bufp count lo hi) =
      some ⟨nrPread64, [fd, bufp, count], signedOffset lo hi⟩ := by
  rw [uw7Pread64, sysTrap, vsyscallRegisters, layout, layout, layout,
    layout_joinWords]
  rfl

theorem offsetRequest_pwrite64 (fd bufp count lo hi : BitVec 32) :
    offsetRequest (uw7Pwrite64 above fd bufp count lo hi) =
      some ⟨nrPwrite64, [fd, bufp, count], signedOffset lo hi⟩ := by
  rw [uw7Pwrite64, sysTrap, vsyscallRegisters, layout, layout, layout,
    layout_joinWords]
  rfl

theorem offsetRequest_lseek64 (result fd lo hi orig : BitVec 32) :
    offsetRequest (uw7Lseek64 above result fd lo hi orig) =
      some ⟨nrLlseek, [fd, result, orig],
        signedOffset lo (if hi = -1 then 0 else hi)⟩ := rfl

/-- The kernel acts at the signed offset of the two words exactly when these are
not the words of a position sought from less than `2 ^ 32` bytes before the
origin. -/
theorem uw7Offsets_signed_iff (call : OffsetCall) :
    offsetRequest (call.trap above) = some call.asked ↔ call.Meets := by
  cases call with
  | truncate64 filename lo hi =>
    exact iff_of_true (offsetRequest_truncate64 above filename lo hi) trivial
  | ftruncate64 fd lo hi =>
    exact iff_of_true (offsetRequest_ftruncate64 above fd lo hi) trivial
  | pread64 fd bufp count lo hi =>
    exact iff_of_true (offsetRequest_pread64 above fd bufp count lo hi) trivial
  | pwrite64 fd bufp count lo hi =>
    exact iff_of_true (offsetRequest_pwrite64 above fd bufp count lo hi) trivial
  | lseek64 result fd orig lo hi =>
    rw [OffsetCall.trap, offsetRequest_lseek64, OffsetCall.asked,
      OffsetCall.Meets, Option.some.injEq, OffsetRequest.mk.injEq,
      signedOffset_inj]
    constructor
    · rintro ⟨-, -, -, hhigh⟩ hminus
      rw [if_pos hminus, hminus] at hhigh
      exact absurd hhigh (by decide)
    · intro hhigh
      rw [if_neg hhigh]
      exact ⟨rfl, rfl, rfl, rfl⟩

end Calls

/-- `uw7_lseek64(3, 0xfffffff6, 0xffffffff, SEEK_CUR)`, ten bytes back, asks for
`2 ^ 32 - 10` bytes forward. -/
theorem lseek64_back_goes_forward :
    ¬ ∀ (above : ℕ → BitVec 32) (call : OffsetCall),
      offsetRequest (call.trap above) = some call.asked := by
  intro hall
  have hback := hall (fun _ => 0) (.lseek64 0x8000 3 1 0xfffffff6 0xffffffff)
  rw [OffsetCall.trap, offsetRequest_lseek64, OffsetCall.asked,
    Option.some.injEq, OffsetRequest.mk.injEq, signedOffset_inj] at hback
  exact absurd hback.2.2.2 (by decide)

end IbcsUs.Syscalls
