import IbcsUs.X286.Calls
import IbcsUs.X286.Frame
import IbcsUs.X286.LoadXout
import IbcsUs.X286.VerifyArea

/-!
# The emulator of 286 programs as a whole

`main` loads the program, builds its frame and its segment table, and then serves its
system calls, of which the memory calls change the table and those of `emu_generic.c` go on
to the kernel.  The parts are put together here: from what the linker makes, through the
start, to every call of a run.
-/

namespace IbcsUs.X286

open Runs

/-! ## A program that runs -/

/-- A call as the kernel gets it. -/
structure KernelCall where
  opcode : ℕ
  args : List (BitVec 32)
  deriving DecidableEq

/-- A kernel whose answers go by the calls that it has had, the last one first. -/
def answering (reply : List KernelCall → KernelCall → Reply) : Kernel (List KernelCall) :=
  fun calls opcode args => (⟨opcode, args⟩ :: calls, reply calls ⟨opcode, args⟩)

/-- The segment table, and the calls that the kernel has had. -/
structure Emulated where
  table : Table
  calls : List KernelCall

/-- What a program does to the emulator. -/
inductive ProgramCall where
  | memory (call : MemoryCall)
  | syscall (sc : Sigcontext) (carry : Bool)

section Step

variable (settings : Settings) (v3lock : Bool)
  (reply : List KernelCall → KernelCall → Reply) (odd : OddCalls (List KernelCall))

def emulatedStep (state : Emulated) : ProgramCall → Option Emulated
  | .memory call =>
      (memoryStep settings state.table call).map fun table => { state with table := table }
  | .syscall sc carry =>
      some { state with
        calls := (x286syscall v3lock settings.large settings.initDs state.table
          (answering reply) odd sc state.calls carry).emulator.state }

/-- The memory calls are in range, and the others have an entry of `emu_generic.c` or
none. -/
def ProgramMeets (state : Emulated) : ProgramCall → Prop
  | .memory call => MemoryCallInRange settings state.table call
  | .syscall sc _ =>
      (syscallEntry sc.eax).1 = .null ∨ ∃ types, (syscallEntry sc.eax).1 = .generic types

/-- A pointer to a byte of a valid segment or of the stack. -/
def PointsIn (table : Table) (ptr : FarPointer) : Prop :=
  ¬ badSegment table .read ptr.selector.toNat ∧
    ((ptr.offset.toNat : ℤ) ≤ (table.ldt (ptr.selector.toNat >>> 3)).limit ∨
      (ptr.selector.toNat = settings.initDs ∧
        (table.ldt (ptr.selector.toNat >>> 3)).rlimit < ptr.offset.toNat))

/-- A system call hands nothing to the kernel, or its own number with arguments of the
entry's types, whose pointers are to bytes of the program unless their segment is empty. -/
def HandsOver (table : Table) (sc : Sigcontext) (before after : List KernelCall) : Prop :=
  after = before ∨
    ∃ args : List Arg, (syscallEntry sc.eax).1 = .generic (args.map Arg.type) ∧
      after = ⟨sc.eax.toNat % 2 ^ 16, args.map (Arg.passed table)⟩ :: before ∧
      ∀ ptr, Arg.pointer ptr ∈ args →
        0 ≤ (table.ldt (ptr.selector.toNat >>> 3)).limit → PointsIn settings table ptr

/-- A memory call does what it should; a system call hands over what it may. -/
def ProgramRight (state : Emulated) : ProgramCall → Prop
  | .memory call => CallSafe state.table (memoryCall settings state.table call)
  | .syscall sc carry =>
      HandsOver settings state.table sc state.calls
        (x286syscall v3lock settings.large settings.initDs state.table (answering reply) odd
          sc state.calls carry).emulator.state

/-! ## What is handed over -/

variable {settings v3lock reply odd}

theorem map_type_takeArgs (large : Bool) (sc : Sigcontext) (types : List ArgType) :
    ∀ index, (takeArgs large sc types index).map Arg.type = types := by
  induction types with
  | nil => intro index; rfl
  | cons type types ih =>
    intro index
    cases type with
    | short => simp [takeArgs, Arg.type, ih]
    | long => simp [takeArgs, Arg.type, ih]
    | pointer => cases large <;> simp [takeArgs, Arg.type, ih]

/-- `check_addr` lets a pointer into a segment that is not empty pass only where the
program has a byte. -/
theorem pointsIn_of_readable {table : Table} {ptr : FarPointer} (hlimits : LimitsLong table)
    (hlimit : 0 ≤ (table.ldt (ptr.selector.toNat >>> 3)).limit)
    (hreadable : Readable settings.initDs table ptr) : PointsIn settings table ptr := by
  have hgood : ¬ badSegment table .read ptr.selector.toNat := by
    intro hbad
    rw [Readable, verifyArea.eq_def, if_pos hbad] at hreadable
    cases hreadable
  have hoffset := ptr.offset.isLt
  have hone : (1 : BitVec 32).toNat = 1 := rfl
  have hchecked : AreaChecked settings.initDs table .read ptr.selector.toNat ptr.offset 1 :=
    .inr (.inl ⟨hlimit, by omega⟩)
  obtain ⟨hin | ⟨hds, hstack⟩, -⟩ :=
    (areaSound_of_limitsLong (by decide) (by decide) hlimits).mpr hchecked hreadable
  · exact ⟨hgood, .inl (by simpa using hin 0 (by decide))⟩
  · exact ⟨hgood, .inr ⟨hds, by simpa using (hstack 0 (by decide)).1⟩⟩

theorem handsOver_syscall {state : Emulated} (hlimits : LimitsLong state.table)
    {sc : Sigcontext} (carry : Bool)
    (hmeets : ProgramMeets settings state (.syscall sc carry)) :
    ProgramRight settings v3lock reply odd state (.syscall sc carry) := by
  simp only [ProgramRight, x286syscall, setResult_emulator]
  obtain hnull | ⟨types, hgeneric⟩ := hmeets
  · left
    rw [hnull]
    rfl
  · rw [hgeneric]
    simp only [callFunc, emuGeneric]
    split
    · next haccepted =>
      right
      refine ⟨takeArgs settings.large sc types 0, ?_, ?_, fun ptr hptr hlimit => ?_⟩
      · rw [hgeneric, map_type_takeArgs]
      · simp only [lcall7, answering]
        split <;> simp_all
      · have hreadable : Readable settings.initDs state.table ptr :=
          of_decide_eq_true (List.all_eq_true.mp haccepted _ hptr)
        exact pointsIn_of_readable hlimits hlimit hreadable
    · exact .inl rfl

/-! ## Runs -/

/-- One call keeps the table in order. -/
theorem kept_emulatedStep {start : Table} {state next : Emulated} {call : ProgramCall}
    (hkept : Kept start state.table) (hmeets : ProgramMeets settings state call)
    (hstep : emulatedStep settings v3lock reply odd state call = some next) :
    Kept start next.table := by
  cases call with
  | memory call =>
    obtain ⟨table, htable, rfl⟩ := Option.map_eq_some_iff.mp hstep
    exact hkept.step hmeets htable
  | syscall sc carry =>
    obtain rfl := Option.some.inj hstep
    exact hkept

theorem programRight {start : Table} {state : Emulated} {call : ProgramCall}
    (hkept : Kept start state.table) (hmeets : ProgramMeets settings state call) :
    ProgramRight settings v3lock reply odd state call := by
  cases call with
  | memory call => exact (callSafe_memoryCall_iff hkept.inv call).mpr hmeets
  | syscall sc carry => exact handsOver_syscall hkept.inv.limit_long carry hmeets

/-- From a table in order, a run keeps it so, and every call of it is right. -/
theorem always_programRight {table : Table} (hinv : table.Inv) (calls : List ProgramCall)
    (hmeets : StepsMeet (emulatedStep settings v3lock reply odd) (ProgramMeets settings)
      ⟨table, []⟩ calls) :
    Always (emulatedStep settings v3lock reply odd) (fun state => Kept table state.table)
      (ProgramRight settings v3lock reply odd) ⟨table, []⟩ calls := by
  have hkept : Kept table (⟨table, []⟩ : Emulated).table := ⟨hinv, rfl, fun _ _ => rfl⟩
  exact @always_of_stepsMeet _ _ (emulatedStep settings v3lock reply odd)
    (fun state => Kept table state.table) _ _ _ (fun _ hstate => hstate)
    (fun _ _ _ hstate hcall hstep => kept_emulatedStep hstate hcall hstep)
    (fun _ _ hstate hcall => programRight hstate hcall) _ hkept _ hmeets

end Step

/-! ## From the file to the run -/

/-- The program that `main` starts after `load_xout`. -/
def LoadXout.Loading.started (loading : LoadXout.Loading)
    (hloaded : Loaded (LoadXout.kernelTable loading.ldts) maxSegments loading.initDs
      loading.limitStk)
    (large : Bool) (stksize : ℕ) (argv envp : List CString) : X286.Program where
  large := large
  initDs := BitVec.ofNat 16 loading.initDs
  stksize := stksize
  descs := LoadXout.kernelTable loading.ldts
  count := maxSegments
  limitStk := loading.limitStk
  limitStk_lt := lt_of_le_of_lt hloaded.data_le (by decide)
  argv := argv
  envp := envp

/-- The settings that `main` leaves for the calls of a program. -/
def Program.settings (program : Program) (old : ℕ → Byte) : Settings :=
  ⟨program.large, program.initDs.toNat, (offsetOf (program.frame old)).toNat, program.stksize⟩

/-- The argument list of a program called `a`. -/
def nameOnly : List CString :=
  [⟨[0x61], by decide⟩]

end IbcsUs.X286
