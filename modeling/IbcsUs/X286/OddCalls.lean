import IbcsUs.X286.Calls

/-!
# The calls of a 286 program that need more than their arguments

The functions of `emu_odd.c` translate structures, whose longs a 286 program does not
align, or results in two registers, or requests with pointers of their own.  For a
structure the kernel gets a buffer of the emulator, which is copied into the memory of the
program or out of it.
-/

namespace IbcsUs.X286

/-! ## Buffers and memory -/

/-- The bytes of a buffer, by offset. -/
abbrev Buffer := ℕ → BitVec 8

/-- The linear addresses of the program. -/
abbrev ProgramMemory := BitVec 32 → BitVec 8

/-- `memmove` inside a buffer. -/
def memmove (buffer : Buffer) (dest src count : ℕ) : Buffer := fun offset =>
  if dest ≤ offset ∧ offset < dest + count then buffer (offset - dest + src)
  else buffer offset

/-- `memcpy` of a buffer to the program. -/
def copyOut (memory : ProgramMemory) (address : BitVec 32) (count : ℕ) (buffer : Buffer) :
    ProgramMemory := fun other =>
  if (other - address).toNat < count then buffer (other - address).toNat else memory other

/-- The bytes at an address. -/
def bytesAt (memory : ProgramMemory) (address : BitVec 32) : Buffer :=
  fun offset => memory (address + BitVec.ofNat 32 offset)

/-- `memcpy` from the program into a buffer. -/
def copyIn (memory : ProgramMemory) (address : BitVec 32) (count : ℕ) (buffer : Buffer) :
    Buffer := fun offset =>
  if offset < count then bytesAt memory address offset else buffer offset

/-- Two buffers begin with the same bytes. -/
def SameBytes (count : ℕ) (left right : Buffer) : Prop :=
  ∀ offset < count, left offset = right offset

section Copies

variable {memory : ProgramMemory} {address other : BitVec 32} {count : ℕ} {buffer : Buffer}

theorem copyOut_outside (hother : count ≤ (other - address).toNat) :
    copyOut memory address count buffer other = memory other :=
  if_neg (Nat.not_lt.mpr hother)

theorem bytesAt_copyOut (hcount : count ≤ 2 ^ 32) :
    SameBytes count (bytesAt (copyOut memory address count buffer) address) buffer := by
  intro offset hoffset
  have hdistance : (address + BitVec.ofNat 32 offset - address).toNat = offset := by
    rw [add_sub_cancel_left, BitVec.toNat_ofNat, Nat.mod_eq_of_lt (by omega)]
  rw [bytesAt, copyOut, hdistance, if_pos hoffset]

theorem copyIn_sameBytes :
    SameBytes count (copyIn memory address count buffer) (bytesAt memory address) :=
  fun _ hoffset => if_pos hoffset

end Copies

/-! ## `struct stat` -/

/-- The fields of `struct ibcs_stat`. -/
structure StatRecord where
  stDev : BitVec 16
  stIno : BitVec 16
  stMode : BitVec 16
  stNlink : BitVec 16
  stUid : BitVec 16
  stGid : BitVec 16
  stRdev : BitVec 16
  stSize : BitVec 32
  stAtime : BitVec 32
  stMtime : BitVec 32
  stCtime : BitVec 32
  deriving DecidableEq

def shortAt (buffer : Buffer) (offset : ℕ) : BitVec 16 :=
  buffer (offset + 1) ++ buffer offset

def longAt (buffer : Buffer) (offset : ℕ) : BitVec 32 :=
  shortAt buffer (offset + 2) ++ shortAt buffer offset

/-- The structure with its longs from an offset on. -/
def statRecord (longs : ℕ) (buffer : Buffer) : StatRecord where
  stDev := shortAt buffer 0
  stIno := shortAt buffer 2
  stMode := shortAt buffer 4
  stNlink := shortAt buffer 6
  stUid := shortAt buffer 8
  stGid := shortAt buffer 10
  stRdev := shortAt buffer 12
  stSize := longAt buffer longs
  stAtime := longAt buffer (longs + 4)
  stMtime := longAt buffer (longs + 8)
  stCtime := longAt buffer (longs + 12)

/-- The structure of the kernel, with the longs at multiples of four. -/
def stat386 : Buffer → StatRecord := statRecord 16

/-- The structure of the program. -/
def stat286 : Buffer → StatRecord := statRecord 14

def sizeStat : ℕ := 30
def sizeTimeb : ℕ := 10
def sizeTermio : ℕ := 17

theorem shortAt_congr {left right : Buffer} {count offset : ℕ}
    (hsame : SameBytes count left right) (hoffset : offset + 2 ≤ count) :
    shortAt left offset = shortAt right offset := by
  rw [shortAt, shortAt, hsame offset (by omega), hsame (offset + 1) (by omega)]

theorem longAt_congr {left right : Buffer} {count offset : ℕ}
    (hsame : SameBytes count left right) (hoffset : offset + 4 ≤ count) :
    longAt left offset = longAt right offset := by
  rw [longAt, longAt, shortAt_congr hsame (by omega), shortAt_congr hsame (by omega)]

theorem stat286_congr {left right : Buffer} (hsame : SameBytes sizeStat left right) :
    stat286 left = stat286 right := by
  have hshort : ∀ offset ≤ 12, shortAt left offset = shortAt right offset :=
    fun offset hoffset => shortAt_congr hsame (by rw [sizeStat]; omega)
  have hlong : ∀ offset ≤ 26, longAt left offset = longAt right offset :=
    fun offset hoffset => longAt_congr hsame (by rw [sizeStat]; omega)
  simp only [stat286, statRecord, hshort 0 (by decide), hshort 2 (by decide),
    hshort 4 (by decide), hshort 6 (by decide), hshort 8 (by decide), hshort 10 (by decide),
    hshort 12 (by decide), hlong 14 (by decide), hlong 18 (by decide), hlong 22 (by decide),
    hlong 26 (by decide)]

/-- The longs moved up to the shorts. -/
theorem stat286_memmove (td : Buffer) : stat286 (memmove td 14 16 16) = stat386 td := by
  have hshort : ∀ offset ≤ 12, shortAt (memmove td 14 16 16) offset = shortAt td offset := by
    intro offset hoffset
    rw [shortAt, memmove, memmove, if_neg (by omega), if_neg (by omega)]
    rfl
  have hmoved : ∀ offset, 14 ≤ offset → offset < 30 →
      memmove td 14 16 16 offset = td (offset + 2) := by
    intro offset hlow hhigh
    rw [memmove, if_pos ⟨hlow, hhigh⟩]
    exact congrArg td (by omega)
  have hlong : ∀ offset, 14 ≤ offset → offset ≤ 26 →
      longAt (memmove td 14 16 16) offset = longAt td (offset + 2) := by
    intro offset hlow hhigh
    simp only [longAt, shortAt]
    rw [hmoved offset hlow (by omega), hmoved (offset + 1) (by omega) (by omega),
      hmoved (offset + 2) (by omega) (by omega), hmoved (offset + 2 + 1) (by omega) (by omega)]
  simp only [stat286, stat386, statRecord, hshort 0 (by decide), hshort 2 (by decide),
    hshort 4 (by decide), hshort 6 (by decide), hshort 8 (by decide), hshort 10 (by decide),
    hshort 12 (by decide), hlong 14 (by decide) (by decide), hlong 18 (by decide) (by decide),
    hlong 22 (by decide) (by decide), hlong 26 (by decide) (by decide)]

/-! ## `emu_odd.c` -/

/-- The memory of the program, and the kernel. -/
structure Machine (State : Type*) where
  state : State
  memory : ProgramMemory

/-- What the kernel answers with a value in `edx` too. -/
inductive PairReply where
  | values (eax edx : BitVec 32)
  | failed (errno : ℕ)

/-- What these functions ask for: `dup` and `dup2` of the C library, which answer with a
descriptor or not at all, calls with two results, and calls that have a buffer of the
emulator as their last argument and leave it changed or not. -/
structure OddHost (State : Type*) where
  dup : State → List ℕ → State × Option (BitVec 31)
  pair : State → ℕ → State × PairReply
  buffer : State → ℕ → List (BitVec 32) → Buffer → State × Buffer × Reply

section Functions

variable {State : Type*} (large : Bool) (initDs : ℕ) (table : Table)
  (kernel : Kernel (Machine State)) (host : OddHost State) (td : Buffer) (sc : Sigcontext)
  (emulator : Emulator (Machine State))

def opcode : ℕ := sc.eax.toNat % 2 ^ 16

/-- A pointer, in the register with the first number or in the words of the stack from the
second on. -/
def pointerArg (near far : ℕ) : FarPointer :=
  if large then ⟨argWord large sc far, argWord large sc (far + 1)⟩
  else ⟨argWord large sc near, sc.ds⟩

def pointerAddress (ptr : FarPointer) : BitVec 32 := BitVec.ofNat 32 (linear table ptr)

/-- `check_addr` does not return. -/
def Checked (kind : Verify) (ptr : FarPointer) (size : ℕ) : Prop :=
  verifyArea initDs table kind ptr.selector.toNat ptr.offset (BitVec.ofNat 32 size) = 0

instance (kind : Verify) (ptr : FarPointer) (size : ℕ) :
    Decidable (Checked initDs table kind ptr size) :=
  inferInstanceAs (Decidable (_ = _))

/-- The return of `check_addr`, and of an `ioctl` that is not known. -/
def invalid : Emulator (Machine State) × ℤ :=
  ({ emulator with xerrno := einval }, -1)

/-- `lcall7` with a buffer of the emulator. -/
def lcall7Buffer (args : List (BitVec 32)) : Emulator (Machine State) × Buffer × ℤ :=
  match host.buffer emulator.state.state (opcode sc) args td with
  | (state, td, .value eax) =>
      ({ emulator with state := { emulator.state with state := state } }, td, eax.toInt)
  | (state, td, .failed errno) => (⟨{ emulator.state with state := state }, errno⟩, td, -1)

/-- A buffer is put into the program's memory. -/
def putBuffer (ptr : FarPointer) (size : ℕ) : Emulator (Machine State) :=
  { emulator with
    state := { emulator.state with
      memory := copyOut emulator.state.memory (pointerAddress table ptr) size td } }

/-- `emu_i_pipe`: the result, and `edx` for `bx`. -/
def emuIPipe : Emulator (Machine State) × BitVec 32 × ℤ :=
  match host.pair emulator.state.state (opcode sc) with
  | (state, .values eax edx) =>
      ({ emulator with state := { emulator.state with state := state } }, edx,
        ((edx.setWidth 16 : BitVec 16) ++ (eax.setWidth 16 : BitVec 16)).toInt)
  | (state, .failed errno) =>
      (⟨{ emulator.state with state := state }, errno⟩, BitVec.allOnes 32, -1)

/-- The call and the translation of `emu_i_stat` and `emu_i_fstat`. -/
def statInto (arg : BitVec 32) (buf : FarPointer) : Emulator (Machine State) × ℤ :=
  let (emulator, td, result) := lcall7Buffer host td sc emulator [arg]
  if 0 ≤ result then (putBuffer table (memmove td 14 16 16) emulator buf sizeStat, result)
  else (emulator, result)

def emuIFstat : Emulator (Machine State) × ℤ :=
  let filedes := argWord large sc 0
  let buf := pointerArg large sc 1 1
  if Checked initDs table .write buf sizeStat then
    statInto table host td sc emulator (filedes.setWidth 32) buf
  else invalid emulator

def emuIStat : Emulator (Machine State) × ℤ :=
  let path := pointerArg large sc 0 0
  let buf := pointerArg large sc 1 2
  if Checked initDs table .read path 1 then
    if Checked initDs table .write buf sizeStat then
      statInto table host td sc emulator (pointerAddress table path) buf
    else invalid emulator
  else invalid emulator

/-- `emu_i_ftime`, which copies whatever the result. -/
def emuIFtime : Emulator (Machine State) × ℤ :=
  let tp := pointerArg large sc 0 0
  if Checked initDs table .write tp sizeTimeb then
    let (emulator, td, result) := lcall7Buffer host td sc emulator []
    (putBuffer table td emulator tp sizeTimeb, result)
  else invalid emulator

/-- `emu_i_ioctl`. -/
def emuIIoctl : Emulator (Machine State) × ℤ :=
  let fd := argWord large sc 0
  let type := (argWord large sc 1).toNat
  let arg := pointerArg large sc 2 2
  if type / 2 ^ 8 = 0x54 then
    if type % 2 ^ 8 ≤ 4 then
      let kind := if type % 2 ^ 8 = 1 then Verify.write else Verify.read
      if Checked initDs table kind arg sizeTermio then
        let td :=
          if type % 2 ^ 8 ≠ 1 then
            copyIn emulator.state.memory (pointerAddress table arg) sizeTermio td
          else td
        let (emulator, td, result) :=
          lcall7Buffer host td sc emulator [fd.setWidth 32, BitVec.ofNat 32 type]
        if 0 ≤ result ∧ type % 2 ^ 8 = 1 then
          (putBuffer table td emulator arg sizeTermio, result)
        else (emulator, result)
      else invalid emulator
    else
      lcall7 kernel emulator (opcode sc)
        [fd.setWidth 32, BitVec.ofNat 32 type, arg.offset.setWidth 32]
  else invalid emulator

/-- The arguments of `dup2`, for a descriptor with the bit 0x40, or of `dup`. -/
def dupArgs : List ℕ :=
  let fd1 := (argWord large sc 0).toNat
  let fd2 := (argWord large sc 1).toNat
  if fd1 / 0x40 % 2 = 1 then [fd1 % 0x40, fd2] else [fd1]

/-- `emu_i_dup`.  The C library leaves its errors in `errno`, not in `xerrno`. -/
def emuIDup : Emulator (Machine State) × ℤ :=
  match host.dup emulator.state.state (dupArgs large sc) with
  | (state, some fd) =>
      ({ emulator with state := { emulator.state with state := state } }, fd.toNat)
  | (state, none) => ({ emulator with state := { emulator.state with state := state } }, -1)

end Functions

section Calls

variable {State : Type*} (large : Bool) (initDs : ℕ) (table : Table)
  (kernel : Kernel (Machine State)) (host : OddHost State) (td : Buffer)
  (other : OddCalls (Machine State))

/-- The functions above, with the registers as they were where these are not changed; the
functions of the other files are left as they are. -/
def oddCalls : OddCalls (Machine State) := fun call sc emulator =>
  match call with
  | .emuIPipe => emuIPipe host sc emulator
  | .emuIStat => unchanged sc (emuIStat large initDs table host td sc emulator)
  | .emuIFstat => unchanged sc (emuIFstat large initDs table host td sc emulator)
  | .emuIFtime => unchanged sc (emuIFtime large initDs table host td sc emulator)
  | .emuIIoctl => unchanged sc (emuIIoctl large initDs table kernel host td sc emulator)
  | .emuIDup => unchanged sc (emuIDup large host sc emulator)
  | call => other call sc emulator
where
  /-- A function that leaves `bx` alone. -/
  unchanged (sc : Sigcontext) (answer : Emulator (Machine State) × ℤ) :
      Emulator (Machine State) × BitVec 32 × ℤ :=
    (answer.1, sc.ebx, answer.2)

end Calls

/-! ## What the program gets -/

section Results

variable {State : Type*} {v3lock large : Bool} {initDs : ℕ} {table : Table}
  {kernel : Kernel (Machine State)} {host : OddHost State} {td : Buffer}
  {other : OddCalls (Machine State)} {sc : Sigcontext} {machine : Machine State}
  {carry : Bool} {ret : RetType}

/-- What `lcall7` returns. -/
def Reply.result : Reply → ℤ
  | .value eax => eax.toInt
  | .failed _ => -1

/-- `xerrno` once `lcall7` has returned. -/
def Reply.xerrno : Reply → ℕ
  | .value _ => enosys
  | .failed errno => errno

theorem returned_setResult (hvoid : ret ≠ .void) (hspecial : ret ≠ .special)
    {emulator : Emulator State} {reply : Reply} (hxerrno : emulator.xerrno = reply.xerrno)
    (ebx : BitVec 32) :
    returned ret (setResult large sc ret emulator ebx carry reply.result) =
      delivered ret reply := by
  cases reply with
  | failed errno =>
    rw [Reply.result, returned_setResult_of_neg hvoid hspecial _ _ _ (by decide), hxerrno]
    rfl
  | value eax =>
    rw [Reply.result, delivered]
    by_cases hmsb : eax.msb
    · rw [returned_setResult_of_neg hvoid hspecial _ _ _ (BitVec.toInt_neg_of_msb_true hmsb),
        hxerrno, if_pos hmsb]
      rfl
    · rw [returned_setResult_of_value hvoid hspecial _ _ _ (by simpa using hmsb), if_neg hmsb]

theorem result_nonneg_iff {reply : Reply} :
    0 ≤ reply.result ↔ ∃ value, delivered .short reply = .ok value := by
  cases reply with
  | failed errno => simp [Reply.result, delivered]
  | value eax =>
    by_cases hmsb : eax.msb
    · have hneg := BitVec.toInt_neg_of_msb_true hmsb
      simp [Reply.result, delivered, hmsb, hneg]
    · have hvalue : eax.toInt = (eax.toNat : ℤ) :=
        BitVec.toInt_eq_toNat_of_msb (by simpa using hmsb)
      simp [Reply.result, delivered, hmsb, hvalue]

/-- `x286syscall` for one of the functions. -/
theorem x286syscall_odd {call : OddCall} {odd : OddCalls (Machine State)}
    (hentry : syscallEntry sc.eax = (.odd call, ret)) :
    x286syscall v3lock large initDs table kernel odd sc machine carry =
      setResult large sc ret (odd call sc ⟨machine, enosys⟩).1
        (odd call sc ⟨machine, enosys⟩).2.1 carry (odd call sc ⟨machine, enosys⟩).2.2 := by
  simp only [x286syscall, hentry, callFunc]

/-! ### Two results -/

/-- `wait` and `pipe`: the program gets both results unless bit 15 of the second one is
set, as it is in the status of a child that exits with 128 or more. -/
theorem pair_delivered (hentry : syscallEntry sc.eax = (.odd .emuIPipe, .long)) :
    let regs := x286syscall v3lock large initDs table kernel
      (oddCalls large initDs table kernel host td other) sc machine carry
    regs.emulator.state =
        { machine with state := (host.pair machine.state (opcode sc)).1 } ∧
      match (host.pair machine.state (opcode sc)).2 with
      | .values eax edx =>
          returned .long regs =
            if edx.getLsbD 15 then .error 38
            else .ok ((edx.setWidth 16 : BitVec 16) ++ (eax.setWidth 16 : BitVec 16))
      | .failed errno => returned .long regs = .error (BitVec.ofNat 16 errno) := by
  intro regs
  have hregs : regs = _ := x286syscall_odd hentry
  rw [hregs, setResult_emulator]
  simp only [oddCalls, emuIPipe]
  cases hpair : host.pair machine.state (opcode sc) with
  | mk state reply =>
    cases reply with
    | failed errno =>
      have hreply := @returned_setResult (Machine State) large sc carry .long (by decide)
        (by decide) ⟨{ machine with state := state }, errno⟩ (.failed errno) rfl
        (BitVec.allOnes 32)
      exact ⟨rfl, hreply⟩
    | values eax edx =>
      refine ⟨rfl, ?_⟩
      have hmsb : BitVec.msb ((edx.setWidth 16 : BitVec 16) ++ (eax.setWidth 16 : BitVec 16)) =
          edx.getLsbD 15 := by
        have hhigh : (edx.setWidth 16 : BitVec 16).msb = edx.getLsbD 15 := by
          rw [BitVec.msb_eq_getLsbD_last, BitVec.getLsbD_setWidth]
          rfl
        rw [BitVec.msb_append, hhigh]
        rfl
      have hreply := @returned_setResult (Machine State) large sc carry .long (by decide)
        (by decide) ⟨{ machine with state := state }, enosys⟩
        (.value ((edx.setWidth 16 : BitVec 16) ++ (eax.setWidth 16 : BitVec 16))) rfl edx
      refine hreply.trans ?_
      rw [delivered, if_pos rfl, hmsb]

/-! ### Descriptors -/

/-- `dup`: whatever the reason of a failure, the program gets `ENOSYS`. -/
theorem dup_delivered (hentry : syscallEntry sc.eax = (.odd .emuIDup, .short)) :
    let regs := x286syscall v3lock large initDs table kernel
      (oddCalls large initDs table kernel host td other) sc machine carry
    let answer := host.dup machine.state (dupArgs large sc)
    regs.emulator.state = { machine with state := answer.1 } ∧
      returned .short regs =
        match answer.2 with
        | some fd => .ok ((fd.setWidth 16 : BitVec 16).setWidth 32)
        | none => .error 38 := by
  intro regs answer
  have hregs : regs = _ := x286syscall_odd hentry
  rw [hregs, setResult_emulator]
  simp only [oddCalls, oddCalls.unchanged, emuIDup]
  cases hdup : answer with
  | mk state fd =>
    cases fd with
    | none =>
      have hreply := @returned_setResult (Machine State) large sc carry .short (by decide)
        (by decide) ⟨{ machine with state := state }, enosys⟩ (.failed enosys) rfl sc.ebx
      simp only [answer] at hdup
      rw [hdup]
      exact ⟨rfl, hreply⟩
    | some fd =>
      have hmsb : (fd.setWidth 32 : BitVec 32).msb = false := by
        rw [BitVec.msb_eq_false_iff_two_mul_lt, BitVec.toNat_setWidth]
        omega
      have hvalue : (fd.setWidth 32 : BitVec 32).toInt = fd.toNat := by
        rw [BitVec.toInt_eq_toNat_of_msb hmsb, BitVec.toNat_setWidth_of_le (by decide)]
      have hlow : ((fd.setWidth 32 : BitVec 32).setWidth 16 : BitVec 16) = fd.setWidth 16 :=
        BitVec.setWidth_setWidth_of_le fd (by decide)
      have hreply := @returned_setResult (Machine State) large sc carry .short (by decide)
        (by decide) ⟨{ machine with state := state }, enosys⟩ (.value (fd.setWidth 32)) rfl
        sc.ebx
      rw [Reply.result, hvalue, delivered, hmsb, hlow] at hreply
      simp only [answer] at hdup
      rw [hdup]
      exact ⟨rfl, hreply⟩

/-! ### Structures -/

theorem pointerArg_pointers {path buf : FarPointer}
    (hpasses : Passes large sc [.pointer path, .pointer buf]) :
    pointerArg large sc 0 0 = path ∧ pointerArg large sc 1 2 = buf := by
  have htaken := takeArgs_of_passes hpasses
  cases large <;> simpa [takeArgs, Arg.type, pointerArg] using htaken

theorem pointerArg_short {fd : BitVec 16} {buf : FarPointer}
    (hpasses : Passes large sc [.short fd, .pointer buf]) :
    argWord large sc 0 = fd ∧ pointerArg large sc 1 1 = buf := by
  have htaken := takeArgs_of_passes hpasses
  cases large <;> simpa [takeArgs, Arg.type, pointerArg] using htaken

theorem pointerArg_shorts {fd type : BitVec 16} {arg : FarPointer}
    (hpasses : Passes large sc [.short fd, .short type, .pointer arg]) :
    argWord large sc 0 = fd ∧ argWord large sc 1 = type ∧ pointerArg large sc 2 2 = arg := by
  have htaken := takeArgs_of_passes hpasses
  cases large <;> simpa [takeArgs, Arg.type, pointerArg] using htaken

/-- `lcall7` with a buffer, as it is called by `x286syscall`. -/
theorem lcall7Buffer_eq (args : List (BitVec 32)) :
    lcall7Buffer host td sc ⟨machine, enosys⟩ args =
      let answer := host.buffer machine.state (opcode sc) args td
      (⟨{ machine with state := answer.1 }, answer.2.2.xerrno⟩, answer.2.1,
        answer.2.2.result) := by
  simp only [lcall7Buffer]
  cases hanswer : host.buffer machine.state (opcode sc) args td with
  | mk state rest =>
    obtain ⟨td, reply⟩ := rest
    cases reply <;> rfl

/-- The call and the translation, as they are called by `x286syscall`. -/
theorem statInto_eq (arg : BitVec 32) (buf : FarPointer) :
    statInto table host td sc ⟨machine, enosys⟩ arg buf =
      let answer := host.buffer machine.state (opcode sc) [arg] td
      let state : Machine State := { machine with state := answer.1 }
      (⟨if 0 ≤ answer.2.2.result then
          { state with
            memory := copyOut machine.memory (pointerAddress table buf) sizeStat
              (memmove answer.2.1 14 16 16) }
        else state, answer.2.2.xerrno⟩, answer.2.2.result) := by
  simp only [statInto, lcall7Buffer_eq]
  split_ifs <;> rfl

/-- What `stat` or `fstat` has to do.  Where the program may write to the structure, and
read the path, the kernel is asked; the program gets the kernel's answer, and with a
result the fields that the kernel has filled in, and nothing else. -/
def StatServed (initDs : ℕ) (table : Table) (host : OddHost State) (td : Buffer)
    (machine : Machine State) (number : ℕ) (arg : Arg) (buf : FarPointer)
    (regs : SyscallRegs (Machine State)) : Prop :=
  let answer := host.buffer machine.state number [arg.passed table] td
  if arg.Accepted initDs table ∧ Checked initDs table .write buf sizeStat then
    regs.emulator.state.state = answer.1 ∧
      returned .short regs = delivered .short answer.2.2 ∧
      match delivered .short answer.2.2 with
      | .ok _ =>
          stat286 (bytesAt regs.emulator.state.memory (pointerAddress table buf)) =
              stat386 answer.2.1 ∧
            ∀ address, sizeStat ≤ (address - pointerAddress table buf).toNat →
              regs.emulator.state.memory address = machine.memory address
      | .error _ => regs.emulator.state.memory = machine.memory
  else regs.emulator.state = machine ∧ returned .short regs = .error 22

theorem statServed_statInto {odd : OddCalls (Machine State)} {call : OddCall} {arg : Arg}
    {buf : FarPointer} (hentry : syscallEntry sc.eax = (.odd call, .short))
    (hodd : odd call sc ⟨machine, enosys⟩ =
      let answer :=
        if arg.Accepted initDs table ∧ Checked initDs table .write buf sizeStat then
          statInto table host td sc ⟨machine, enosys⟩ (arg.passed table) buf
        else invalid ⟨machine, enosys⟩
      (answer.1, sc.ebx, answer.2)) :
    StatServed initDs table host td machine (opcode sc) arg buf
      (x286syscall v3lock large initDs table kernel odd sc machine carry) := by
  rw [x286syscall_odd hentry, hodd, StatServed]
  by_cases hchecked : arg.Accepted initDs table ∧ Checked initDs table .write buf sizeStat
  · simp only [if_pos hchecked, statInto_eq, setResult_emulator]
    refine ⟨?_, returned_setResult (by decide) (by decide) rfl _, ?_⟩
    · split_ifs <;> rfl
    · split
      · next value hvalue =>
        rw [if_pos (result_nonneg_iff.mpr ⟨value, hvalue⟩)]
        refine ⟨?_, fun address haddress => copyOut_outside haddress⟩
        exact (stat286_congr (bytesAt_copyOut (by decide))).trans (stat286_memmove _)
      · next errno herror =>
        have hneg : ¬ 0 ≤ (host.buffer machine.state (opcode sc) [arg.passed table]
            td).2.2.result := by
          rw [result_nonneg_iff]
          rintro ⟨value, hvalue⟩
          cases herror.symm.trans hvalue
        rw [if_neg hneg]
  · simp only [if_neg hchecked, setResult_emulator]
    have hreply := @returned_setResult (Machine State) large sc carry .short (by decide)
      (by decide) ⟨machine, einval⟩ (.failed einval) rfl sc.ebx
    exact ⟨rfl, hreply⟩

/-- `stat` in both memory models, and `fstat`. -/
theorem stat_served {arg : Arg} {buf : FarPointer}
    (hentry : syscallEntry sc.eax = (.odd .emuIStat, .short) ∧ arg.type = .pointer ∨
      syscallEntry sc.eax = (.odd .emuIFstat, .short) ∧ arg.type = .short)
    (hpasses : Passes large sc [arg, .pointer buf]) :
    StatServed initDs table host td machine (opcode sc) arg buf
      (x286syscall v3lock large initDs table kernel
        (oddCalls large initDs table kernel host td other) sc machine carry) := by
  obtain ⟨hentry, htype⟩ | ⟨hentry, htype⟩ := hentry
  · cases arg with
    | pointer path =>
      obtain ⟨hpath, hbuf⟩ := pointerArg_pointers hpasses
      apply statServed_statInto hentry
      simp only [oddCalls, oddCalls.unchanged, emuIStat, hpath, hbuf]
      by_cases hread : Checked initDs table .read path 1
      · by_cases hwrite : Checked initDs table .write buf sizeStat
        · rw [if_pos hread, if_pos hwrite, if_pos ⟨hread, hwrite⟩]
          rfl
        · rw [if_pos hread, if_neg hwrite, if_neg fun hboth => hwrite hboth.2]
      · rw [if_neg hread, if_neg fun hboth => hread hboth.1]
    | short value => cases htype
    | long value => cases htype
  · cases arg with
    | short fd =>
      obtain ⟨hfd, hbuf⟩ := pointerArg_short hpasses
      apply statServed_statInto hentry
      simp only [oddCalls, oddCalls.unchanged, emuIFstat, hfd, hbuf, Arg.Accepted, true_and]
      rfl
    | pointer path => cases htype
    | long value => cases htype

/-- The requests `TCSETA`, `TCSETAW` and `TCSETAF`. -/
def SetsTermio (type : BitVec 16) : Prop :=
  type = 0x5402 ∨ type = 0x5403 ∨ type = 0x5404

/-- `emu_i_ioctl` for `TCGETA`, as it is called by `x286syscall`. -/
theorem emuIIoctl_get {fd : BitVec 16} {arg : FarPointer}
    (hpasses : Passes large sc [.short fd, .short 0x5401, .pointer arg])
    (hchecked : Checked initDs table .write arg sizeTermio) :
    emuIIoctl large initDs table kernel host td sc ⟨machine, enosys⟩ =
      let answer := host.buffer machine.state (opcode sc) [fd.setWidth 32, 0x5401] td
      let state : Machine State := { machine with state := answer.1 }
      (⟨if 0 ≤ answer.2.2.result then
          { state with
            memory := copyOut machine.memory (pointerAddress table arg) sizeTermio answer.2.1 }
        else state, answer.2.2.xerrno⟩, answer.2.2.result) := by
  obtain ⟨hfd, htype, harg⟩ := pointerArg_shorts hpasses
  have hnumber : (0x5401 : BitVec 16).toNat = 0x5401 := rfl
  have hclass : (0x5401 : ℕ) / 2 ^ 8 = 0x54 := rfl
  have hrequest : (0x5401 : ℕ) % 2 ^ 8 = 1 := rfl
  have hknown : 1 ≤ 4 := by decide
  have hwidth : BitVec.ofNat 32 0x5401 = 0x5401 := rfl
  simp only [emuIIoctl, hfd, htype, harg, hnumber, hclass, hrequest, if_pos hknown, if_true,
    if_pos hchecked, ne_eq, not_true_eq_false, if_false, and_true, hwidth, lcall7Buffer_eq]
  split_ifs <;> rfl

/-- `emu_i_ioctl` for the requests that set. -/
theorem emuIIoctl_set {fd type : BitVec 16} {arg : FarPointer}
    (hpasses : Passes large sc [.short fd, .short type, .pointer arg]) (htype : SetsTermio type)
    (hchecked : Checked initDs table .read arg sizeTermio) :
    emuIIoctl large initDs table kernel host td sc ⟨machine, enosys⟩ =
      let answer := host.buffer machine.state (opcode sc)
        [fd.setWidth 32, type.setWidth 32]
        (copyIn machine.memory (pointerAddress table arg) sizeTermio td)
      (⟨{ machine with state := answer.1 }, answer.2.2.xerrno⟩, answer.2.2.result) := by
  obtain ⟨hfd, hargtype, harg⟩ := pointerArg_shorts hpasses
  have hclass : type.toNat / 2 ^ 8 = 0x54 := by
    obtain rfl | rfl | rfl := htype <;> rfl
  have hrequest : type.toNat % 2 ^ 8 ≤ 4 ∧ type.toNat % 2 ^ 8 ≠ 1 := by
    obtain rfl | rfl | rfl := htype <;> decide
  have hwidth : BitVec.ofNat 32 type.toNat = type.setWidth 32 := BitVec.ofNat_toNat 32 type
  simp only [emuIIoctl, hfd, hargtype, harg, if_pos hclass, if_pos hrequest.1, hrequest.2,
    if_pos hchecked, lcall7Buffer_eq, hwidth, ne_eq, not_false_eq_true, and_false, if_true,
    if_false]

/-- What `TCGETA` has given the program, a set request with the same pointer gives back to
the kernel, and the memory of the program stays as it is. -/
theorem termio_returned {getSc setSc : Sigcontext} {getCarry setCarry : Bool}
    {fd setFd type : BitVec 16} {arg : FarPointer} {eax : BitVec 32}
    (hget : syscallEntry getSc.eax = (.odd .emuIIoctl, .short))
    (hset : syscallEntry setSc.eax = (.odd .emuIIoctl, .short))
    (hgetPasses : Passes large getSc [.short fd, .short 0x5401, .pointer arg])
    (hsetPasses : Passes large setSc [.short setFd, .short type, .pointer arg])
    (htype : SetsTermio type)
    (hwrite : Checked initDs table .write arg sizeTermio)
    (hread : Checked initDs table .read arg sizeTermio)
    (hreply : (host.buffer machine.state (opcode getSc) [fd.setWidth 32, 0x5401] td).2.2 =
      .value eax) (hmsb : eax.msb = false) :
    let call := fun sc machine => x286syscall v3lock large initDs table kernel
      (oddCalls large initDs table kernel host td other) sc machine
    let answer := host.buffer machine.state (opcode getSc) [fd.setWidth 32, 0x5401] td
    let got := call getSc machine getCarry
    let set := call setSc got.emulator.state setCarry
    ∃ buffer, SameBytes sizeTermio buffer answer.2.1 ∧
      let setAnswer := host.buffer answer.1 (opcode setSc)
        [setFd.setWidth 32, type.setWidth 32] buffer
      set.emulator.state = { got.emulator.state with state := setAnswer.1 } ∧
        returned .short set = delivered .short setAnswer.2.2 := by
  intro call answer got set
  have hgot : got.emulator.state = ⟨answer.1, copyOut machine.memory
      (pointerAddress table arg) sizeTermio answer.2.1⟩ := by
    simp only [got, call, x286syscall_odd hget, setResult_emulator, oddCalls,
      oddCalls.unchanged, emuIIoctl_get hgetPasses hwrite]
    have hresult : 0 ≤ answer.2.2.result := by
      rw [hreply, Reply.result, BitVec.toInt_eq_toNat_of_msb hmsb]
      exact Int.natCast_nonneg _
    rw [if_pos hresult]
  have hbuffer := (@copyIn_sameBytes got.emulator.state.memory (pointerAddress table arg)
    sizeTermio td)
  refine ⟨copyIn got.emulator.state.memory (pointerAddress table arg) sizeTermio td,
    fun offset hoffset => ?_, ?_⟩
  · rw [hbuffer offset hoffset, hgot]
    exact bytesAt_copyOut (by decide) offset hoffset
  · have hstate : got.emulator.state.state = answer.1 := by rw [hgot]
    rw [← hstate]
    simp only [set, call, x286syscall_odd hset, setResult_emulator, oddCalls,
      oddCalls.unchanged, emuIIoctl_set hsetPasses htype hread]
    exact ⟨trivial, returned_setResult (by decide) (by decide) rfl _⟩

end Results

/-! ## A program's calls -/

/-- A near program's call of a function in `ax`, with the words in its registers. -/
def nearContext (eax ebx ecx esi : BitVec 32) : Sigcontext where
  eax := eax
  ebx := ebx
  ecx := ecx
  esi := esi
  edi := 0
  ds := 0x47
  stkladdr := fun _ => 0

/-- A host that counts its calls: a child that has exited with 1, and buffers filled with
the numbers of their bytes. -/
def countingHost : OddHost ℕ where
  dup := fun calls _ => (calls + 1, none)
  pair := fun calls _ => (calls + 1, .values 0x123 0x100)
  buffer := fun calls _ _ td =>
    (calls + 1, if calls = 0 then BitVec.ofNat 8 else td, .value 0)

def noMemory : ProgramMemory := fun _ => 0

theorem passes_near {eax ebx ecx esi : BitVec 32} {args : List Arg} (hlength : args.length ≤ 3)
    (hwords : args.flatMap (Arg.words false) =
      ([ebx.setWidth 16, ecx.setWidth 16, esi.setWidth 16] : List (BitVec 16)).take args.length)
    (hnear : ∀ ptr, Arg.pointer ptr ∈ args → ptr.selector = 0x47) :
    Passes false (nearContext eax ebx ecx esi) args where
  words := by
    rw [hwords]
    intro index word hword
    match index with
    | 0 | 1 | 2 => grind [argWord, nearContext]
    | index + 3 => grind
  near := fun _ => hnear

/-- A near program's call, with the functions of `emu_odd.c`. -/
def nearCall (sc : Sigcontext) (machine : Machine ℕ) : SyscallRegs (Machine ℕ) :=
  let kernel : Kernel (Machine ℕ) := fun machine _ _ => (machine, .value 0)
  x286syscall false false 0x47 smallTable kernel
    (oddCalls false 0x47 smallTable kernel countingHost (fun _ => 0)
      fun _ sc emulator => (emulator, sc.ebx, 0)) sc machine false

theorem pair_delivered_wait :
    returned .long (nearCall (nearContext 7 0 0 0) ⟨0, noMemory⟩) = .ok 0x1000123 := by
  have hentry : syscallEntry (nearContext 7 0 0 0).eax = (.odd .emuIPipe, .long) := by decide
  have hpair := @pair_delivered ℕ false false 0x47 smallTable (fun machine _ _ =>
    (machine, .value 0)) countingHost (fun _ => 0) (fun _ sc emulator => (emulator, sc.ebx, 0))
    (nearContext 7 0 0 0) ⟨0, noMemory⟩ false hentry
  exact hpair.2

/-- `stat(ds:0x100, ds:0x200)`. -/
theorem stat_served_near :
    stat286 (bytesAt
        (nearCall (nearContext 18 0x100 0x200 0) ⟨0, noMemory⟩).emulator.state.memory
        (pointerAddress smallTable ⟨0x200, 0x47⟩)) =
      stat386 (BitVec.ofNat 8) := by
  have hserved : StatServed 0x47 smallTable countingHost (fun _ => 0) ⟨0, noMemory⟩ 18
      (.pointer ⟨0x100, 0x47⟩) ⟨0x200, 0x47⟩
      (nearCall (nearContext 18 0x100 0x200 0) ⟨0, noMemory⟩) :=
    stat_served (.inl ⟨by decide, rfl⟩) (passes_near (by decide) rfl (by simp))
  rw [StatServed, if_pos ⟨by decide, by decide⟩] at hserved
  exact hserved.2.2.1

/-- `ioctl(0, TCGETA, ds:0x100)`, and `TCSETA` after it. -/
theorem termio_returned_near :
    ∃ buffer, SameBytes sizeTermio buffer (BitVec.ofNat 8) ∧
      (nearCall (nearContext 54 0 0x5402 0x100)
          (nearCall (nearContext 54 0 0x5401 0x100) ⟨0, noMemory⟩).emulator.state).emulator.state =
        { (nearCall (nearContext 54 0 0x5401 0x100) ⟨0, noMemory⟩).emulator.state with
          state := (countingHost.buffer 1 54 [0, 0x5402] buffer).1 } := by
  obtain ⟨buffer, hsame, hset, -⟩ := @termio_returned ℕ false false 0x47 smallTable
    (fun machine _ _ => (machine, .value 0)) countingHost (fun _ => 0)
    (fun _ sc emulator => (emulator, sc.ebx, 0)) ⟨0, noMemory⟩
    (nearContext 54 0 0x5401 0x100) (nearContext 54 0 0x5402 0x100) false false 0 0 0x5402
    ⟨0x100, 0x47⟩ 0 (by decide) (by decide) (passes_near (by decide) rfl (by simp))
    (passes_near (by decide) rfl (by simp)) (.inl rfl) (by decide) (by decide) rfl (by decide)
  exact ⟨buffer, hsame, hset⟩

end IbcsUs.X286
