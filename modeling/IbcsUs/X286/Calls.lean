import IbcsUs.X286.Exec

/-!
# The system calls of a 286 program

A program of the small or the middle model passes its arguments in four registers, one
of the large model on its stack, as 16-bit words.  `x286syscall` finds the call's entry,
whose function takes the words apart according to the call's types and calls the kernel,
and puts the result back into the registers.  Most entries share the functions of
`emu_generic.c`, which differ only in the types; the functions of the other files are a
parameter here.
-/

namespace IbcsUs.X286

/-- What a word or two words of the arguments are: an `s`, an `l` or an `a` in the names
of the functions. -/
inductive ArgType where
  | short
  | long
  | pointer
  deriving DecidableEq

/-- An argument of a call. -/
inductive Arg where
  | short (value : BitVec 16)
  | long (value : BitVec 32)
  | pointer (ptr : FarPointer)
  deriving DecidableEq

def Arg.type : Arg → ArgType
  | .short _ => .short
  | .long _ => .long
  | .pointer _ => .pointer

/-- What the kernel answers to a call: a value in `eax`, or an error with the carry
flag. -/
inductive Reply where
  | value (eax : BitVec 32)
  | failed (errno : ℕ)

/-- The kernel's calls, on a kernel with states of some kind. -/
abbrev Kernel (State : Type*) := State → ℕ → List (BitVec 32) → State × Reply

/-- The kernel and `xerrno`. -/
structure Emulator (State : Type*) where
  state : State
  xerrno : ℕ

variable {State : Type*}

/-- `lcall7`. -/
def lcall7 (kernel : Kernel State) (emulator : Emulator State) (opcode : ℕ)
    (args : List (BitVec 32)) : Emulator State × ℤ :=
  match kernel emulator.state opcode args with
  | (state, .value eax) => (⟨state, emulator.xerrno⟩, eax.toInt)
  | (state, .failed errno) => (⟨state, errno⟩, -1)

/-! ## `emu_generic.c` -/

section Generic

variable (large : Bool) (initDs : ℕ) (table : Table) (sc : Sigcontext)

/-- The words of the arguments: those on the stack, or `bx`, `cx`, `si` and `di`. -/
def argWord (index : ℕ) : BitVec 16 :=
  if large then sc.stkladdr index
  else
    match index with
    | 0 => sc.ebx.setWidth 16
    | 1 => sc.ecx.setWidth 16
    | 2 => sc.esi.setWidth 16
    | _ => sc.edi.setWidth 16

/-- The arguments of a call with these types, from a word on. -/
def takeArgs : List ArgType → ℕ → List Arg
  | [], _ => []
  | .short :: types, index => .short (argWord large sc index) :: takeArgs types (index + 1)
  | .long :: types, index =>
      .long (argWord large sc (index + 1) ++ argWord large sc index) ::
        takeArgs types (index + 2)
  | .pointer :: types, index =>
      if large then
        .pointer ⟨argWord large sc index, argWord large sc (index + 1)⟩ ::
          takeArgs types (index + 2)
      else .pointer ⟨argWord large sc index, sc.ds⟩ :: takeArgs types (index + 1)

/-- An argument as the kernel gets it. -/
def Arg.passed : Arg → BitVec 32
  | .short value => value.setWidth 32
  | .long value => value
  | .pointer ptr => BitVec.ofNat 32 (linear table ptr)

/-- `check_addr` lets an argument pass. -/
def Arg.Accepted : Arg → Prop
  | .pointer ptr => Readable initDs table ptr
  | _ => True

instance : (arg : Arg) → Decidable (arg.Accepted initDs table)
  | .short _ => inferInstanceAs (Decidable True)
  | .long _ => inferInstanceAs (Decidable True)
  | .pointer ptr => inferInstanceAs (Decidable (Readable initDs table ptr))

/-- A function of `emu_generic.c` for arguments of these types. -/
def emuGeneric (kernel : Kernel State) (types : List ArgType) (emulator : Emulator State) :
    Emulator State × ℤ :=
  let args := takeArgs large sc types 0
  if args.all fun arg => arg.Accepted initDs table then
    lcall7 kernel emulator (sc.eax.toNat % 2 ^ 16) (args.map (Arg.passed table))
  else ({ emulator with xerrno := einval }, -1)

end Generic

/-- `emu_locking`: with `V3LOCK`, a lock for reading is given to those who could have one
for writing, and a refusal is `EACCES`. -/
def emuLocking (v3lock large : Bool) (sc : Sigcontext) (kernel : Kernel State)
    (emulator : Emulator State) : Emulator State × ℤ :=
  let func := sc.eax.toNat % 2 ^ 16
  let fd := (argWord large sc 0).setWidth 32
  let mode := (argWord large sc 1).setWidth 32
  let len := argWord large sc 3 ++ argWord large sc 2
  if v3lock then
    if mode = 3 ∨ mode = 4 then
      let (emulator, ret) := lcall7 kernel emulator func [fd, 2, len]
      if ret = -1 then ({ emulator with xerrno := 13 }, ret)
      else lcall7 kernel emulator func [fd, mode, len]
    else
      let (emulator, ret) := lcall7 kernel emulator func [fd, mode, len]
      if ret = -1 then ({ emulator with xerrno := 13 }, ret) else (emulator, ret)
  else lcall7 kernel emulator func [fd, mode, len]

/-! ## `x286syscall` -/

/-- The types of a call's result, from `R_VOID` to `R_FPOINTER`. -/
inductive RetType where
  | void
  | special
  | pointer
  | short
  | long
  | fpointer
  deriving DecidableEq

/-- The functions that are not in `emu_generic.c`. -/
inductive OddCall where
  | emuIPipe
  | emuExec
  | emuBrk
  | emuIStat
  | emuIFstat
  | emuIKill
  | emuIDup
  | emuISignal
  | emuIIoctl
  | emuIFcntl
  | emuIUlimit
  | emuStkgro
  | emuIFtime
  | emuBrkctl
  deriving DecidableEq

/-- The function of an entry. -/
inductive SyscallFunc where
  | null
  | generic (types : List ArgType)
  | locking
  | odd (call : OddCall)
  deriving DecidableEq

/-! The functions of `emu_generic.c`, as their types. -/

namespace SyscallFunc

abbrev emuISas : SyscallFunc := .generic [.short, .pointer, .short]
abbrev emuIAss : SyscallFunc := .generic [.pointer, .short, .short]
abbrev emuIS : SyscallFunc := .generic [.short]
abbrev emuISls : SyscallFunc := .generic [.short, .long, .short]
abbrev emuISsl : SyscallFunc := .generic [.short, .short, .long]
abbrev emuIA : SyscallFunc := .generic [.pointer]
abbrev emuIAa : SyscallFunc := .generic [.pointer, .pointer]
abbrev emuISsa : SyscallFunc := .generic [.short, .short, .pointer]
abbrev emuIL : SyscallFunc := .generic [.long]
abbrev emuIV : SyscallFunc := .generic []

end SyscallFunc

/-- `unix_syscall`.  Entries that are not listed have no function and are `R_SHORT`. -/
def unixSyscall : ℕ → SyscallFunc × RetType
  | 1 => (.emuIS, .void)
  | 2 => (.emuIV, .short)
  | 3 | 4 => (.emuISas, .short)
  | 5 | 8 | 14 | 15 | 16 | 33 => (.emuIAss, .short)
  | 6 | 20 | 23 | 24 | 27 | 34 | 46 | 47 | 60 => (.emuIS, .short)
  | 7 | 42 => (.odd .emuIPipe, .long)
  | 9 | 30 => (.emuIAa, .short)
  | 10 | 12 | 61 => (.emuIA, .short)
  | 11 | 59 => (.odd .emuExec, .short)
  | 13 | 43 => (.emuIA, .long)
  | 17 => (.odd .emuBrk, .short)
  | 18 => (.odd .emuIStat, .short)
  | 19 => (.emuISls, .long)
  | 25 => (.emuIL, .short)
  | 28 => (.odd .emuIFstat, .short)
  | 29 => (.emuIV, .short)
  | 36 => (.emuIV, .void)
  | 37 => (.odd .emuIKill, .short)
  | 40 | 44 => (.null, .void)
  | 41 => (.odd .emuIDup, .short)
  | 48 => (.odd .emuISignal, .special)
  | 54 => (.odd .emuIIoctl, .short)
  | 62 => (.odd .emuIFcntl, .short)
  | 63 => (.odd .emuIUlimit, .long)
  | _ => (.null, .short)

/-- `xenix_syscall`. -/
def xenixSyscall : ℕ → SyscallFunc × RetType
  | 0 => (.null, .void)
  | 1 => (.locking, .short)
  | 7 => (.emuIS, .short)
  | 8 => (.odd .emuStkgro, .short)
  | 10 => (.emuISls, .short)
  | 11 => (.odd .emuIFtime, .short)
  | 12 => (.emuIL, .long)
  | 13 => (.null, .pointer)
  | 19 => (.odd .emuBrkctl, .fpointer)
  | 31 | 33 => (.null, .fpointer)
  | 37 => (.emuIAss, .short)
  | 48 => (.emuIAa, .short)
  | 50 => (.emuIA, .short)
  | _ => (.null, .short)

/-- The entry of the call in `ax`; a number behind the end of its table is like one
without a function. -/
def syscallEntry (eax : BitVec 32) : SyscallFunc × RetType :=
  if eax.toNat % 2 ^ 8 = 0x28 then
    let callNo := eax.toNat / 2 ^ 8 % 2 ^ 8
    if callNo < 64 then xenixSyscall callNo else (.null, .short)
  else
    let callNo := eax.toNat % 2 ^ 8
    if callNo < 144 then unixSyscall callNo else (.null, .short)

/-- What a call leaves: the emulator, `eax`, `ebx` and the carry flag. -/
structure SyscallRegs (State : Type*) where
  emulator : Emulator State
  eax : BitVec 32
  ebx : BitVec 32
  carry : Bool

/-- What the other functions do: the emulator, `ebx` and the result. -/
abbrev OddCalls (State : Type*) :=
  OddCall → Sigcontext → Emulator State → Emulator State × BitVec 32 × ℤ

def enosys : ℕ := 38

section Syscall

variable (v3lock large : Bool) (initDs : ℕ) (table : Table) (kernel : Kernel State)
  (odd : OddCalls State) (sc : Sigcontext)

/-- The call of the entry's function. -/
def callFunc (func : SyscallFunc) (emulator : Emulator State) :
    Emulator State × BitVec 32 × ℤ :=
  match func with
  | .null => (emulator, sc.ebx, -1)
  | .generic types =>
      let (emulator, error) := emuGeneric large initDs table sc kernel types emulator
      (emulator, sc.ebx, error)
  | .locking =>
      let (emulator, error) := emuLocking v3lock large sc kernel emulator
      (emulator, sc.ebx, error)
  | .odd call => odd call sc emulator

/-- The registers once the function has returned.  The last test for an error is an
assignment, so that `bx` becomes 0xff whatever the type. -/
def setResult (ret : RetType) (emulator : Emulator State) (ebx : BitVec 32) (carry : Bool)
    (error : ℤ) : SyscallRegs State :=
  if ret = .void ∨ ret = .special then ⟨emulator, sc.eax, ebx, carry⟩
  else if error < 0 then ⟨emulator, BitVec.ofNat 32 emulator.xerrno, 0xff, true⟩
  else
    { emulator := emulator
      eax := BitVec.ofInt 32 (error % 2 ^ 16)
      ebx :=
        if ret = .long ∨ (ret = .pointer ∧ large) ∨ ret = .fpointer then
          BitVec.ofInt 32 (error / 2 ^ 16 % 2 ^ 16)
        else ebx
      carry := false }

/-- `x286syscall`. -/
def x286syscall (state : State) (carry : Bool) : SyscallRegs State :=
  let (func, ret) := syscallEntry sc.eax
  let (emulator, ebx, error) :=
    callFunc v3lock large initDs table kernel odd sc func ⟨state, enosys⟩
  setResult large sc ret emulator ebx carry error

end Syscall

/-! ## What the program passes and gets -/

/-- The words of an argument. -/
def Arg.words (large : Bool) : Arg → List (BitVec 16)
  | .short value => [value]
  | .long value => [value.setWidth 16, (value >>> 16).setWidth 16]
  | .pointer ptr => if large then [ptr.offset, ptr.selector] else [ptr.offset]

/-- The words of the arguments from an index on are these. -/
def WordsAt (large : Bool) (sc : Sigcontext) (index : ℕ) (words : List (BitVec 16)) : Prop :=
  ∀ i word, words[i]? = some word → argWord large sc (index + i) = word

/-- The program has put the arguments where its model puts them; near pointers are into
`ds`. -/
structure Passes (large : Bool) (sc : Sigcontext) (args : List Arg) : Prop where
  words : WordsAt large sc 0 (args.flatMap (Arg.words large))
  near : large = false → ∀ ptr, Arg.pointer ptr ∈ args → ptr.selector = sc.ds

/-- What a C function of the program makes of the registers: the error number, or the
result with as many bits as its type has. -/
def returned (ret : RetType) (regs : SyscallRegs State) :
    Except (BitVec 16) (BitVec 32) :=
  if regs.carry then .error (regs.eax.setWidth 16)
  else if ret = .long then
    .ok ((regs.ebx.setWidth 16 : BitVec 16) ++ (regs.eax.setWidth 16 : BitVec 16))
  else .ok ((regs.eax.setWidth 16 : BitVec 16).setWidth 32)

/-- What the program is to get of the kernel's answer.  A value with the sign bit is taken
for a failure, and `xerrno` is `ENOSYS` then. -/
def delivered (ret : RetType) : Reply → Except (BitVec 16) (BitVec 32)
  | .failed errno => .error (BitVec.ofNat 16 errno)
  | .value eax =>
      if eax.msb then .error 38
      else if ret = .long then .ok eax
      else .ok ((eax.setWidth 16 : BitVec 16).setWidth 32)

/-- What a call is to do: the kernel's, with the arguments translated, when the program
may read what they point to. -/
def serve (initDs : ℕ) (table : Table) (kernel : Kernel State) (state : State)
    (opcode : ℕ) (args : List Arg) : State × Reply :=
  if ∀ arg ∈ args, arg.Accepted initDs table then
    kernel state opcode (args.map (Arg.passed table))
  else (state, .failed einval)

/-! ### The arguments -/

theorem wordsAt_cons {large : Bool} {sc : Sigcontext} {index : ℕ} {word : BitVec 16}
    {words : List (BitVec 16)} :
    WordsAt large sc index (word :: words) ↔
      argWord large sc index = word ∧ WordsAt large sc (index + 1) words := by
  constructor
  · intro h
    refine ⟨h 0 word rfl, fun i word' hword => ?_⟩
    rw [Nat.add_assoc, Nat.add_comm 1 i]
    exact h (i + 1) word' (by simpa using hword)
  · rintro ⟨hword, hwords⟩ (_ | i) word' h
    · simpa using hword.trans (Option.some.inj (by simpa using h))
    · rw [Nat.add_comm i 1, ← Nat.add_assoc]
      exact hwords i word' (by simpa using h)

/-- The two words of a long, put together again. -/
theorem append_words (value : BitVec 32) :
    ((value >>> 16).setWidth 16 : BitVec 16) ++ (value.setWidth 16 : BitVec 16) = value := by
  apply BitVec.eq_of_toNat_eq
  rw [BitVec.toNat_append, ← Nat.shiftLeft_add_eq_or_of_lt (BitVec.isLt _)]
  simp [Nat.shiftRight_eq_div_pow, Nat.shiftLeft_eq]
  omega

/-- The functions find the arguments that the program has passed. -/
theorem takeArgs_of_wordsAt {large : Bool} {sc : Sigcontext} (args : List Arg) :
    ∀ index, WordsAt large sc index (args.flatMap (Arg.words large)) →
      (large = false → ∀ ptr, Arg.pointer ptr ∈ args → ptr.selector = sc.ds) →
      takeArgs large sc (args.map Arg.type) index = args := by
  induction args with
  | nil => intro index _ _; rfl
  | cons arg args ih =>
    intro index hwords hnear
    have hnear' : large = false → ∀ ptr, Arg.pointer ptr ∈ args → ptr.selector = sc.ds :=
      fun hlarge ptr hptr => hnear hlarge ptr (List.mem_cons_of_mem _ hptr)
    cases arg with
    | short value =>
      simp only [List.flatMap_cons, Arg.words, List.cons_append, List.nil_append,
        wordsAt_cons] at hwords
      simp [Arg.type, takeArgs, hwords.1, ih _ hwords.2 hnear']
    | long value =>
      simp only [List.flatMap_cons, Arg.words, List.cons_append, List.nil_append,
        wordsAt_cons] at hwords
      obtain ⟨hlow, hhigh, hrest⟩ := hwords
      simp only [List.map_cons, Arg.type, takeArgs, hlow, hhigh, append_words,
        ih _ hrest hnear']
    | pointer ptr =>
      cases large with
      | false =>
        simp only [List.flatMap_cons, Arg.words, Bool.false_eq_true, if_false,
          List.cons_append, List.nil_append, wordsAt_cons] at hwords
        have hds : ptr.selector = sc.ds := hnear rfl ptr List.mem_cons_self
        simp [Arg.type, takeArgs, hwords.1, ih _ hwords.2 hnear', ← hds]
      | true =>
        simp only [List.flatMap_cons, Arg.words, if_true, List.cons_append,
          List.nil_append, wordsAt_cons] at hwords
        obtain ⟨hoffset, hselector, hrest⟩ := hwords
        simp [Arg.type, takeArgs, hoffset, hselector, ih _ hrest hnear']

theorem takeArgs_of_passes {large : Bool} {sc : Sigcontext} {args : List Arg}
    (h : Passes large sc args) : takeArgs large sc (args.map Arg.type) 0 = args :=
  takeArgs_of_wordsAt args 0 h.words h.near

/-! ### The result -/

/-- The function of an entry does what the call is to do. -/
theorem emuGeneric_serves {large : Bool} {initDs : ℕ} {table : Table} {sc : Sigcontext}
    {kernel : Kernel State} {args : List Arg} (h : Passes large sc args)
    (emulator : Emulator State) :
    emuGeneric large initDs table sc kernel (args.map Arg.type) emulator =
      match serve initDs table kernel emulator.state (sc.eax.toNat % 2 ^ 16) args with
      | (state, .value eax) => (⟨state, emulator.xerrno⟩, eax.toInt)
      | (state, .failed errno) => (⟨state, errno⟩, -1) := by
  simp only [emuGeneric, takeArgs_of_passes h, List.all_eq_true, decide_eq_true_eq, serve]
  split
  · rfl
  · rfl

/-- Only `signal` leaves its result in the registers by itself. -/
theorem ret_of_generic {eax : BitVec 32} {types : List ArgType} {ret : RetType}
    (h : syscallEntry eax = (.generic types, ret)) : ret ≠ .special := by
  rintro rfl
  unfold syscallEntry unixSyscall xenixSyscall at h
  grind

theorem returned_setResult_of_neg {large : Bool} {sc : Sigcontext} {ret : RetType}
    (hvoid : ret ≠ .void) (hspecial : ret ≠ .special) (emulator : Emulator State)
    (ebx : BitVec 32) (carry : Bool) {error : ℤ} (h : error < 0) :
    returned ret (setResult large sc ret emulator ebx carry error) =
      .error (BitVec.ofNat 16 emulator.xerrno) := by
  simp [setResult, hvoid, hspecial, h, returned]

theorem returned_setResult_of_value {large : Bool} {sc : Sigcontext} {ret : RetType}
    (hvoid : ret ≠ .void) (hspecial : ret ≠ .special) (emulator : Emulator State)
    (ebx : BitVec 32) (carry : Bool) {eax : BitVec 32} (h : eax.msb = false) :
    returned ret (setResult large sc ret emulator ebx carry eax.toInt) =
      if ret = .long then .ok eax else .ok ((eax.setWidth 16 : BitVec 16).setWidth 32) := by
  have hvalue : eax.toInt = (eax.toNat : ℤ) := BitVec.toInt_eq_toNat_of_msb h
  have hpos : ¬ ((eax.toNat : ℤ) < 0) := by omega
  have hlow : (BitVec.ofInt 32 ((eax.toNat : ℤ) % 65536)).setWidth 16 =
      (eax.setWidth 16 : BitVec 16) := by
    apply BitVec.eq_of_toNat_eq
    simp
    omega
  have hhigh : (BitVec.ofInt 32 ((eax.toNat : ℤ) / 65536 % 65536)).setWidth 16 =
      ((eax >>> 16).setWidth 16 : BitVec 16) := by
    apply BitVec.eq_of_toNat_eq
    simp
    omega
  rw [hvalue]
  by_cases hlong : ret = .long
  · simp [setResult, hpos, returned, hlong, hlow, hhigh, append_words]
  · simp [setResult, hvoid, hspecial, hpos, returned, hlong, hlow]

theorem setResult_emulator (large : Bool) (sc : Sigcontext) (ret : RetType)
    (emulator : Emulator State) (ebx : BitVec 32) (carry : Bool) (error : ℤ) :
    (setResult large sc ret emulator ebx carry error).emulator = emulator := by
  unfold setResult
  split_ifs <;> rfl

/-- A near program's `read(3, ds:0x100, 16)`. -/
def readContext : Sigcontext where
  eax := 3
  ebx := 3
  ecx := 0x100
  esi := 16
  edi := 0
  ds := 0x47
  stkladdr := fun _ => 0

/-- A kernel that keeps the calls it gets, and reads five bytes. -/
def readKernel : Kernel (List (ℕ × List (BitVec 32))) :=
  fun calls opcode args => ((opcode, args) :: calls, .value 5)

theorem passes_read :
    Passes false readContext [.short 3, .pointer ⟨0x100, 0x47⟩, .short 16] where
  words := by
    show WordsAt false readContext 0 [3, 0x100, 16]
    simp only [wordsAt_cons]
    exact ⟨by decide, by decide, by decide, fun i word h => by simp at h⟩
  near := by simp [readContext]

end IbcsUs.X286
