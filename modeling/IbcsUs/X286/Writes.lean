import IbcsUs.X286.Emulator
import IbcsUs.X286.OddCalls

/-!
# What the emulator writes

Of the calls that the emulator serves itself, four copy a structure into the memory of the
program, behind `verify_area`.  In a run of these calls and of the memory calls, which
change the table that `verify_area` reads, no byte is written that is not the program's.
-/

namespace IbcsUs.X286

open Runs

/-! ## The program's bytes -/

/-- A byte of a segment that the program may write to, or of its stack. -/
def OwnByte (initDs : ℕ) (table : Table) (address : BitVec 32) : Prop :=
  ∃ seg offset : ℕ, Writable (table.ldt (seg >>> 3)) ∧
    ((offset : ℤ) ≤ (table.ldt (seg >>> 3)).limit ∨
      (seg = initDs ∧ (table.ldt (seg >>> 3)).rlimit < offset ∧ offset ≤ 0xffff)) ∧
    address = BitVec.ofNat 32 ((table.ldt (seg >>> 3)).base + offset)

/-- The pointer's segment has not been shrunk to nothing. -/
def NotEmpty (table : Table) (ptr : FarPointer) : Prop :=
  0 ≤ (table.ldt (ptr.selector.toNat >>> 3)).limit

/-- The pointer that a call writes to. -/
def writtenPointer (large : Bool) (sc : Sigcontext) : OddCall → Option FarPointer
  | .emuIStat => some (pointerArg large sc 1 2)
  | .emuIFstat => some (pointerArg large sc 1 1)
  | .emuIFtime => some (pointerArg large sc 0 0)
  | .emuIIoctl => some (pointerArg large sc 2 2)
  | _ => none

/-- The calls of `emu_odd.c`. -/
def OddCall.Structured (call : OddCall) : Prop :=
  call = .emuIPipe ∨ call = .emuIStat ∨ call = .emuIFstat ∨ call = .emuIFtime ∨
    call = .emuIIoctl ∨ call = .emuIDup

section Writes

variable {State : Type*} {v3lock large : Bool} {initDs : ℕ} {table : Table}
  {kernel : Kernel (Machine State)} {host : OddHost State} {td : Buffer}
  {other : OddCalls (Machine State)} {sc : Sigcontext} {machine : Machine State}
  {carry : Bool}

/-- The requests that `emu_i_ioctl` passes on have no pointer, and leave the memory of the
program alone. -/
def Quiet (kernel : Kernel (Machine State)) : Prop :=
  ∀ machine number args, (kernel machine number args).1.memory = machine.memory

theorem ownByte_of_checked {ptr : FarPointer} {size index : ℕ} (hlimits : LimitsLong table)
    (hempty : NotEmpty table ptr) (hchecked : Checked initDs table .write ptr size)
    (hindex : index < size) (hsize : size < 2 ^ 31) :
    OwnByte initDs table (pointerAddress table ptr + BitVec.ofNat 32 index) := by
  have hlength : (BitVec.ofNat 32 size).toNat = size := by
    rw [BitVec.toNat_ofNat, Nat.mod_eq_of_lt (by omega)]
  have hnonzero : BitVec.ofNat 32 size ≠ 0 := by
    intro hzero
    rw [hzero] at hlength
    have : (0 : BitVec 32).toNat = 0 := rfl
    omega
  have hoffset := ptr.offset.isLt
  have harea : AreaChecked initDs table .write ptr.selector.toNat ptr.offset
      (BitVec.ofNat 32 size) := .inr (.inl ⟨hempty, by omega⟩)
  obtain ⟨hin, hwritable⟩ :=
    (areaSound_of_limitsLong (by decide) hnonzero hlimits).mpr harea hchecked
  refine ⟨ptr.selector.toNat, ptr.offset.toNat + index, hwritable rfl, ?_, ?_⟩
  · obtain hlimit | ⟨hds, hstack⟩ := hin
    · exact .inl (hlimit index (by omega))
    · exact .inr ⟨hds, hstack index (by omega)⟩
  · apply BitVec.eq_of_toNat_eq
    simp only [pointerAddress, linear, BitVec.toNat_add, BitVec.toNat_ofNat]
    omega

theorem memory_lcall7 (hquiet : Quiet kernel) (number : ℕ) (args : List (BitVec 32)) :
    (lcall7 kernel ⟨machine, enosys⟩ number args).1.state.memory = machine.memory := by
  have hkept := hquiet machine number args
  simp only [lcall7]
  split <;> simp_all

/-- `TCGETA` alone copies something out. -/
theorem memory_emuIIoctl (hquiet : Quiet kernel) :
    let memory := (emuIIoctl large initDs table kernel host td sc ⟨machine, enosys⟩).1.state.memory
    memory = machine.memory ∨
      Checked initDs table .write (pointerArg large sc 2 2) sizeTermio ∧
        ∃ buffer, memory =
          copyOut machine.memory (pointerAddress table (pointerArg large sc 2 2)) sizeTermio
            buffer := by
  intro memory
  by_cases hget : (argWord large sc 1).toNat % 2 ^ 8 = 1
  · simp only [memory, emuIIoctl, lcall7Buffer_eq, hget, if_true, ne_eq, not_true_eq_false,
      if_false, and_true]
    split_ifs with hclass hknown hchecked hresult
    · exact .inr ⟨hchecked, _, rfl⟩
    · exact .inl rfl
    · exact .inl rfl
    · exact .inl (memory_lcall7 hquiet _ _)
    · exact .inl rfl
  · left
    simp only [memory, emuIIoctl, lcall7Buffer_eq, hget, and_false, if_false]
    split_ifs with hclass hknown hchecked
    · rfl
    · rfl
    · exact memory_lcall7 hquiet _ _
    · rfl

/-- What a call does to memory: nothing, or one copy behind the check. -/
theorem memory_oddCalls (hquiet : Quiet kernel) {call : OddCall} (hcall : call.Structured) :
    let memory := (oddCalls large initDs table kernel host td other call sc
      ⟨machine, enosys⟩).1.state.memory
    memory = machine.memory ∨
      ∃ ptr size buffer, writtenPointer large sc call = some ptr ∧ size < 2 ^ 31 ∧
        Checked initDs table .write ptr size ∧
        memory = copyOut machine.memory (pointerAddress table ptr) size buffer := by
  intro memory
  obtain rfl | rfl | rfl | rfl | rfl | rfl := hcall
  · left
    simp only [memory, oddCalls, emuIPipe]
    split <;> rfl
  · simp only [memory, oddCalls, oddCalls.unchanged, emuIStat, statInto_eq]
    split_ifs with hread hwrite hresult
    · exact .inr ⟨_, _, _, rfl, by decide, hwrite, rfl⟩
    · exact .inl rfl
    · exact .inl rfl
    · exact .inl rfl
  · simp only [memory, oddCalls, oddCalls.unchanged, emuIFstat, statInto_eq]
    split_ifs with hwrite hresult
    · exact .inr ⟨_, _, _, rfl, by decide, hwrite, rfl⟩
    · exact .inl rfl
    · exact .inl rfl
  · simp only [memory, oddCalls, oddCalls.unchanged, emuIFtime, lcall7Buffer_eq]
    split_ifs with hwrite
    · exact .inr ⟨_, _, _, rfl, by decide, hwrite, rfl⟩
    · exact .inl rfl
  · obtain hkept | ⟨hwrite, buffer, hcopied⟩ := @memory_emuIIoctl State large initDs table kernel
      host td sc machine hquiet
    · exact .inl hkept
    · exact .inr ⟨_, _, buffer, rfl, by decide, hwrite, hcopied⟩
  · left
    simp only [memory, oddCalls, oddCalls.unchanged, emuIDup]
    split <;> rfl

/-- A byte that a call changes is the program's. -/
theorem ownByte_of_changed (hlimits : LimitsLong table) (hquiet : Quiet kernel)
    {call : OddCall} {ret : RetType} (hentry : syscallEntry sc.eax = (.odd call, ret))
    (hcall : call.Structured)
    (hempty : ∀ ptr, writtenPointer large sc call = some ptr → NotEmpty table ptr)
    {address : BitVec 32}
    (hchanged : (x286syscall v3lock large initDs table kernel
      (oddCalls large initDs table kernel host td other) sc machine
      carry).emulator.state.memory address ≠ machine.memory address) :
    OwnByte initDs table address := by
  rw [x286syscall_odd hentry, setResult_emulator] at hchanged
  obtain hkept | ⟨ptr, size, buffer, hpointer, hsize, hchecked, hcopied⟩ :=
    @memory_oddCalls State large initDs table kernel host td other sc machine hquiet call hcall
  · rw [hkept] at hchanged
    exact absurd rfl hchanged
  · rw [hcopied] at hchanged
    have hindex : (address - pointerAddress table ptr).toNat < size := by
      by_contra houtside
      exact hchanged (copyOut_outside (by omega))
    have hown := ownByte_of_checked hlimits (hempty ptr hpointer) hchecked hindex hsize
    rwa [BitVec.ofNat_toNat, BitVec.setWidth_eq, add_sub_cancel] at hown

end Writes

/-! ## Runs -/

/-- The segment table, and the memory with the kernel. -/
structure Guest (State : Type*) where
  table : Table
  machine : Machine State

/-- A memory call, or a call of `emu_odd.c`. -/
inductive GuestCall where
  | memory (call : MemoryCall)
  | structured (sc : Sigcontext) (carry : Bool)

section Runs

variable {State : Type*} (settings : Settings) (v3lock : Bool)
  (kernel : Kernel (Machine State)) (host : OddHost State) (td : Buffer)
  (other : OddCalls (Machine State))

def guestStep (guest : Guest State) : GuestCall → Option (Guest State)
  | .memory call =>
      (memoryStep settings guest.table call).map fun table => { guest with table := table }
  | .structured sc carry =>
      some { guest with
        machine := (x286syscall v3lock settings.large settings.initDs guest.table kernel
          (oddCalls settings.large settings.initDs guest.table kernel host td other) sc
          guest.machine carry).emulator.state }

/-- The memory calls are in range; the others are of `emu_odd.c`, and do not write through
a pointer into a segment that has been shrunk to nothing. -/
def GuestMeets (guest : Guest State) : GuestCall → Prop
  | .memory call => MemoryCallInRange settings guest.table call
  | .structured sc _ =>
      ∃ call ret, syscallEntry sc.eax = (.odd call, ret) ∧ call.Structured ∧
        ∀ ptr, writtenPointer settings.large sc call = some ptr → NotEmpty guest.table ptr

/-- What a call changes in memory is the program's. -/
def WritesOwn (guest : Guest State) (call : GuestCall) : Prop :=
  ∀ next, guestStep settings v3lock kernel host td other guest call = some next →
    ∀ address, next.machine.memory address ≠ guest.machine.memory address →
      OwnByte settings.initDs guest.table address

variable {settings v3lock kernel host td other}

theorem kept_guestStep {start : Table} {guest next : Guest State} {call : GuestCall}
    (hkept : Kept start guest.table) (hmeets : GuestMeets settings guest call)
    (hstep : guestStep settings v3lock kernel host td other guest call = some next) :
    Kept start next.table := by
  cases call with
  | memory call =>
    obtain ⟨table, htable, rfl⟩ := Option.map_eq_some_iff.mp hstep
    exact hkept.step hmeets htable
  | structured sc carry =>
    obtain rfl := Option.some.inj hstep
    exact hkept

theorem writesOwn_of_meets (hquiet : Quiet kernel) {start : Table} {guest : Guest State}
    {call : GuestCall} (hkept : Kept start guest.table)
    (hmeets : GuestMeets settings guest call) :
    WritesOwn settings v3lock kernel host td other guest call := by
  intro next hstep address hchanged
  cases call with
  | memory call =>
    obtain ⟨table, -, rfl⟩ := Option.map_eq_some_iff.mp hstep
    exact absurd rfl hchanged
  | structured sc carry =>
    obtain ⟨call, ret, hentry, hcall, hempty⟩ := hmeets
    obtain rfl := Option.some.inj hstep
    exact ownByte_of_changed hkept.inv.limit_long hquiet hentry hcall hempty hchanged

/-- From the table that `main` goes on with, and in every run of the memory calls in range
and the calls of `emu_odd.c`, no byte of memory is changed that is not the program's. -/
theorem run_writesOwn {descs : ℕ → KernelDesc} {count limitStk : ℕ} {table : Table}
    (hloaded : Loaded descs count settings.initDs limitStk)
    (hmain : mainTable settings descs count limitStk = some table) (hquiet : Quiet kernel)
    (machine : Machine State) (calls : List GuestCall)
    (hmeets : StepsMeet (guestStep settings v3lock kernel host td other) (GuestMeets settings)
      ⟨table, machine⟩ calls) :
    Always (guestStep settings v3lock kernel host td other)
      (fun guest => Kept table guest.table)
      (WritesOwn settings v3lock kernel host td other) ⟨table, machine⟩ calls := by
  have hkept : Kept table (⟨table, machine⟩ : Guest State).table :=
    ⟨mainTable_inv hloaded hmain, rfl, fun _ _ => rfl⟩
  exact @always_of_stepsMeet _ _ (guestStep settings v3lock kernel host td other)
    (fun guest => Kept table guest.table) _ _ _ (fun _ hguest => hguest)
    (fun _ _ _ hguest hcall hstep => kept_guestStep hguest hcall hstep)
    (fun _ _ hguest hcall => writesOwn_of_meets hquiet hguest hcall) _ hkept _ hmeets

end Runs

/-- `stat(ds:0x100, ds:0x200)`, the first call of a small program. -/
theorem run_writesOwn_near :
    WritesOwn smallSettings false (fun machine _ _ => (machine, .value 0)) countingHost
      (fun _ => 0) (fun _ sc emulator => (emulator, sc.ebx, 0)) ⟨smallTable, ⟨0, noMemory⟩⟩
      (.structured (nearContext 18 0x100 0x200 0) false) := by
  have hmeets : StepsMeet (guestStep smallSettings false (fun machine _ _ => (machine, .value 0))
      countingHost (fun _ => 0) fun _ sc emulator => (emulator, sc.ebx, 0))
      (GuestMeets smallSettings) ⟨smallTable, ⟨0, noMemory⟩⟩
      [.structured (nearContext 18 0x100 0x200 0) false] := by
    refine ⟨⟨.emuIStat, .short, by decide, .inr (.inl rfl), fun ptr hptr => ?_⟩,
      fun _ _ => trivial⟩
    cases hptr
    rw [NotEmpty]
    decide
  have hrun := run_writesOwn smallDescs_loaded smallTable_main (fun _ _ _ => rfl)
    ⟨0, noMemory⟩ _ hmeets
  exact hrun.2.1

end IbcsUs.X286
