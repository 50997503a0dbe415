import IbcsUs.Core.WordMemory
import IbcsUs.Signals.Faults

/-!
# Interception of `lcall`

A system call of the emulated program is an `lcall`, which faults.
`lcall_sigsegv` puts a push of the gate and a call of `ibcs_lcall` in its place,
and `ibcs_lcall` saves the registers in a `struct pt_regs` on the stack, calls
the handler of the exec domain and loads the registers from there.  The i386 is
modelled as far as these instructions need it.
-/

namespace IbcsUs.Lcall

open IbcsUs.WordMemory IbcsUs.Signals

abbrev Word := BitVec 32

/-! ## The machine -/

inductive Reg where
  | eax | ebx | ecx | edx | esi | edi | ebp | esp
  deriving DecidableEq

inductive Seg where
  | cs | ds | es | fs | gs | ss
  deriving DecidableEq

@[ext]
structure Regs where
  eax : Word
  ebx : Word
  ecx : Word
  edx : Word
  esi : Word
  edi : Word
  ebp : Word
  esp : Word
  deriving DecidableEq

def Regs.get (regs : Regs) : Reg → Word
  | .eax => regs.eax
  | .ebx => regs.ebx
  | .ecx => regs.ecx
  | .edx => regs.edx
  | .esi => regs.esi
  | .edi => regs.edi
  | .ebp => regs.ebp
  | .esp => regs.esp

def Regs.set (regs : Regs) (value : Word) : Reg → Regs
  | .eax => { regs with eax := value }
  | .ebx => { regs with ebx := value }
  | .ecx => { regs with ecx := value }
  | .edx => { regs with edx := value }
  | .esi => { regs with esi := value }
  | .edi => { regs with edi := value }
  | .ebp => { regs with ebp := value }
  | .esp => { regs with esp := value }

@[ext]
structure Segs where
  cs : BitVec 16
  ds : BitVec 16
  es : BitVec 16
  fs : BitVec 16
  gs : BitVec 16
  ss : BitVec 16
  deriving DecidableEq

def Segs.get (segs : Segs) : Seg → BitVec 16
  | .cs => segs.cs
  | .ds => segs.ds
  | .es => segs.es
  | .fs => segs.fs
  | .gs => segs.gs
  | .ss => segs.ss

def Segs.set (segs : Segs) (value : BitVec 16) : Seg → Segs
  | .cs => { segs with cs := value }
  | .ds => { segs with ds := value }
  | .es => { segs with es := value }
  | .fs => { segs with fs := value }
  | .gs => { segs with gs := value }
  | .ss => { segs with ss := value }

/-- The state of the processor, with `eflags` as `pushf` shows it, and the
memory. -/
structure Machine where
  regs : Regs
  segs : Segs
  eip : Word
  eflags : Word
  memory : Memory

/-- The flags that `popf` sets outside the kernel: CF, PF, AF, ZF, SF, TF, DF,
OF, NT, AC and ID. -/
def userFlags : Word := 0x244dd5

/-- The flags that an addition sets. -/
def statusFlags : Word := 0x8d5

/-- The emulator: where it lies, and what the handler does. -/
structure Emulator where
  /-- The address of `ibcs_lcall`. -/
  entry : Word
  /-- The addresses behind the two calls of `ibcs_lcall`. -/
  thunkReturn : Word
  handlerReturn : Word
  /-- `_GLOBAL_OFFSET_TABLE_`, from where it is added. -/
  got : Word
  /-- `current->exec_domain->handler`. -/
  handlerAddress : Word
  /-- The status flags of a sum. -/
  sumFlags : Word → Word → Word
  /-- The handler, from its first instruction to behind its return. -/
  handler : Machine → Machine

/-! ## Instructions -/

/-- The instructions of `ibcs_lcall`; memory is addressed by `%esp`. -/
inductive Instr where
  | lea (disp : Word) (dst : Reg)
  | store (src : Reg) (disp : Word)
  | load (disp : Word) (dst : Reg)
  | move (src dst : Reg)
  | fromSeg (src : Seg) (dst : Reg)
  | toSeg (src : Reg) (dst : Seg)
  | push (src : Reg)
  | pushMem (disp : Word)
  | pop (dst : Reg)
  | pushf
  | popf
  | add (value : Word) (dst : Reg)
  | getPcThunk
  | addGot
  | loadHandler

/-- A word is pushed. -/
def Machine.pushWord (machine : Machine) (value : Word) : Machine :=
  let esp := machine.regs.esp - 4
  { machine with
    regs := { machine.regs with esp }
    memory := writeWord machine.memory esp value }

/-- The stack pointer behind a pop. -/
def Machine.popped (machine : Machine) : Machine :=
  { machine with regs := { machine.regs with esp := machine.regs.esp + 4 } }

/-- A sum is put in a register. -/
def Machine.addTo (emulator : Emulator) (machine : Machine) (value : Word)
    (dst : Reg) : Machine :=
  let old := machine.regs.get dst
  { machine with
    regs := machine.regs.set (old + value) dst
    eflags := machine.eflags &&& ~~~statusFlags |||
      emulator.sumFlags old value &&& statusFlags }

/-- One instruction. -/
def exec (emulator : Emulator) (machine : Machine) : Instr → Machine
  | .lea disp dst =>
      { machine with
        regs := machine.regs.set (machine.regs.esp + disp) dst }
  | .store src disp =>
      { machine with
        memory := writeWord machine.memory (machine.regs.esp + disp)
          (machine.regs.get src) }
  | .load disp dst =>
      { machine with
        regs := machine.regs.set
          (readWord machine.memory (machine.regs.esp + disp)) dst }
  | .move src dst =>
      { machine with regs := machine.regs.set (machine.regs.get src) dst }
  | .fromSeg src dst =>
      { machine with
        regs := machine.regs.set ((machine.segs.get src).setWidth 32) dst }
  | .toSeg src dst =>
      { machine with
        segs := machine.segs.set ((machine.regs.get src).setWidth 16) dst }
  | .push src => machine.pushWord (machine.regs.get src)
  | .pushMem disp =>
      machine.pushWord (readWord machine.memory (machine.regs.esp + disp))
  | .pop dst =>
      let value := readWord machine.memory machine.regs.esp
      { machine.popped with regs := machine.popped.regs.set value dst }
  | .pushf => machine.pushWord machine.eflags
  | .popf =>
      { machine.popped with
        eflags := machine.eflags &&& ~~~userFlags |||
          readWord machine.memory machine.regs.esp &&& userFlags }
  | .add value dst => machine.addTo emulator value dst
  | .getPcThunk =>
      -- `mov (%esp),%eax; ret`
      let called := machine.pushWord emulator.thunkReturn
      { called.popped with
        regs := called.popped.regs.set emulator.thunkReturn .eax }
  | .addGot => machine.addTo emulator emulator.got .eax
  | .loadHandler =>
      { machine with regs := machine.regs.set emulator.handlerAddress .eax }

/-- Instructions one after the other. -/
def execAll (emulator : Emulator) (machine : Machine) (instrs : List Instr) :
    Machine :=
  instrs.foldl (exec emulator) machine

/-! ## `ibcs_lcall` -/

/-- The first instructions, up to the flags. -/
def saveRegs : List Instr := [
  .store .ebx 0, .store .ecx 4, .store .edx 8, .store .esi 12, .store .edi 16,
  .store .ebp 20, .store .eax 24,
  .fromSeg .ds .edx, .store .edx 28, .fromSeg .es .edx, .store .edx 32,
  .fromSeg .fs .edx, .store .edx 36, .fromSeg .gs .edx, .store .edx 40,
  .store .eax 44, .load 60 .edx, .store .edx 48, .load 64 .ebp,
  .fromSeg .cs .edx, .store .edx 52]

/-- The flags are brought to `%edx`. -/
def saveFlags : List Instr := [.pushf, .pop .edx]

/-- The rest of `struct pt_regs`. -/
def saveStack : List Instr := [
  .store .edx 56, .lea 68 .edx, .store .edx 60, .fromSeg .ss .edx, .store .edx 64]

/-- The handler is found. -/
def findHandler : List Instr := [.getPcThunk, .addGot, .loadHandler]

/-- The arguments of the handler. -/
def pushArguments : List Instr := [.move .esp .edx, .push .edx, .push .ebp]

/-- The flags, and the address to return to. -/
def restoreFlags : List Instr := [.pushMem 56, .popf]

/-- The registers, down to `struct pt_regs` without its last word. -/
def restoreRegs : List Instr := [
  .load 48 .edx, .store .edx 64,
  .load 40 .edx, .toSeg .edx .gs, .load 36 .edx, .toSeg .edx .fs,
  .load 32 .edx, .toSeg .edx .es, .load 28 .edx, .toSeg .edx .ds,
  .load 28 .edx, .load 24 .eax, .load 20 .ebp, .load 16 .edi, .load 12 .esi,
  .load 8 .edx, .load 4 .ecx, .load 0 .ebx]

/-- `ret`. -/
def Machine.ret (machine : Machine) : Machine :=
  { machine.popped with eip := readWord machine.memory machine.regs.esp }

/-- `call *%eax`. -/
def Machine.callHandler (emulator : Emulator) (machine : Machine) : Machine :=
  { machine.pushWord emulator.handlerReturn with eip := machine.regs.eax }

/-- The machine in which the handler is called. -/
def handlerCalled (emulator : Emulator) (machine : Machine) : Machine :=
  let saved := execAll emulator machine
    (.lea (-60) .esp :: (saveRegs ++ saveFlags ++ saveStack))
  (execAll emulator saved (findHandler ++ pushArguments)).callHandler emulator

/-- What is done behind the handler. -/
def handlerReturned (emulator : Emulator) (machine : Machine) : Machine :=
  (execAll emulator machine
    (.add 8 .esp :: (restoreFlags ++ (restoreRegs ++ [.lea 64 .esp])))).ret

/-- `ibcs_lcall`: the machine that the handler gets, and the one in which the
program goes on. -/
def ibcsLcall (emulator : Emulator) (machine : Machine) : Machine × Machine :=
  let called := handlerCalled emulator machine
  (called, handlerReturned emulator (emulator.handler called))

/-! ## The program -/

/-- A push of a byte, or a call, in the program. -/
def programStep (machine : Machine) : Option Machine :=
  let opcode := machine.memory machine.eip
  if opcode = 0x6a then
    let value := (machine.memory (machine.eip + 1)).signExtend 32
    some { machine.pushWord value with eip := machine.eip + 2 }
  else if opcode = 0xe8 then
    let next := machine.eip + 5
    let target := next + readWord machine.memory (machine.eip + 1)
    some { machine.pushWord next with eip := target }
  else none

/-- The patch of `lcall_sigsegv`. -/
def patchLcall (emulator : Emulator) (memory : Memory) (ip : Word)
    (gate : BitVec 16) : Memory :=
  let first : BitVec 16 := gate <<< 8 ||| 0x6a
  let opcode := Function.update (Function.update memory ip (first.setWidth 8))
    (ip + 1) ((first >>> 8).setWidth 8)
  let call := Function.update opcode (ip + 2) 0xe8
  writeWord call (ip + 3) (emulator.entry - ip - 2 - 5)

/-- A fault: the kernel builds the frame of the signal on the stack, which
leaves the memory as `framed`, and calls `lcall_sigsegv`; the program goes on if
that has patched an `lcall`. -/
def fault (emulator : Emulator) (task : Task) (framed : Memory)
    (machine : Machine) : Option Machine :=
  match (lcallSigsegv task (fun address => some (framed address))
      machine.eip).1 with
  | .patched gate =>
      some { machine with memory := patchLcall emulator framed machine.eip gate }
  | _ => none

/-- The program runs from a push and a call to behind the return of
`ibcs_lcall`. -/
def runPatched (emulator : Emulator) (machine : Machine) :
    Option (Machine × Machine) := do
  let pushed ← programStep machine
  let called ← programStep pushed
  if called.eip = emulator.entry then some (ibcsLcall emulator called) else none

/-- The program runs from an `lcall` on. -/
def runLcall (emulator : Emulator) (task : Task) (framed : Memory)
    (machine : Machine) : Option (Machine × Machine) :=
  (fault emulator task framed machine).bind (runPatched emulator)

/-! ## What is meant -/

/-- What matters here of the calling convention, and of what no program can
change: the handler pops the address that it returns to, and keeps `%cs`, `%ss`
and the flags that `popf` does not set. -/
structure FollowsAbi (handler : Machine → Machine) : Prop where
  esp : ∀ machine, (handler machine).regs.esp = machine.regs.esp + 4
  cs : ∀ machine, (handler machine).segs.cs = machine.segs.cs
  ss : ∀ machine, (handler machine).segs.ss = machine.segs.ss
  systemFlags : ∀ machine, (handler machine).eflags &&& ~~~userFlags =
    machine.eflags &&& ~~~userFlags

/-- Where `struct pt_regs` has a register. -/
def regOffset : Reg → Word
  | .ebx => 0
  | .ecx => 4
  | .edx => 8
  | .esi => 12
  | .edi => 16
  | .ebp => 20
  | .eax => 24
  | .esp => 60

/-- Where `struct pt_regs` has a segment register. -/
def segOffset : Seg → Word
  | .ds => 28
  | .es => 32
  | .fs => 36
  | .gs => 40
  | .cs => 52
  | .ss => 64

def eipOffset : Word := 48
def eflagsOffset : Word := 56

/-- The second argument of the handler, a `struct pt_regs *`. -/
def Machine.ptRegs (called : Machine) : Word :=
  readWord called.memory (called.regs.esp + 8)

/-- The handler is called with the gate and the registers of the program. -/
structure CalledWith (machine : Machine) (gate : BitVec 8) (called : Machine) :
    Prop where
  gate : readWord called.memory (called.regs.esp + 4) = gate.setWidth 32
  regs : ∀ reg, readWord called.memory (called.ptRegs + regOffset reg) =
    machine.regs.get reg
  segs : ∀ seg, readWord called.memory (called.ptRegs + segOffset seg) =
    (machine.segs.get seg).setWidth 32
  eflags : readWord called.memory (called.ptRegs + eflagsOffset) = machine.eflags
  eip : readWord called.memory (called.ptRegs + eipOffset) = machine.eip + 7

/-- The program goes on with the registers that the handler has left, except
what is not loaded: `%esp`, `%cs`, `%ss` and the flags that `popf` does not set.
-/
structure GoesOn (machine : Machine) (ptRegs : Word) (after final : Machine) :
    Prop where
  regs : ∀ reg, reg ≠ .esp →
    final.regs.get reg = readWord after.memory (ptRegs + regOffset reg)
  esp : final.regs.esp = machine.regs.esp
  segs : ∀ seg, seg ≠ .cs → seg ≠ .ss → final.segs.get seg =
    (readWord after.memory (ptRegs + segOffset seg)).setWidth 16
  cs : final.segs.cs = machine.segs.cs
  ss : final.segs.ss = machine.segs.ss
  eflags : final.eflags = machine.eflags &&& ~~~userFlags |||
    readWord after.memory (ptRegs + eflagsOffset) &&& userFlags
  eip : final.eip = readWord after.memory (ptRegs + eipOffset)

/-- A run that passes through the handler. -/
def Intercepted (emulator : Emulator) (machine : Machine) (gate : BitVec 8)
    (run : Option (Machine × Machine)) : Prop :=
  ∃ called final, run = some (called, final) ∧ CalledWith machine gate called ∧
    GoesOn machine called.ptRegs (emulator.handler called) final

/-- The seven bytes of `lcall $gate,$0`. -/
structure HoldsLcall (memory : Memory) (ip : Word) (gate : BitVec 8) : Prop where
  opcode : memory ip = 0x9a
  first : memory (ip + 1) = 0
  second : memory (ip + 2) = 0
  third : memory (ip + 3) = 0
  fourth : memory (ip + 4) = 0
  gate : memory (ip + 5) = gate
  last : memory (ip + 6) = 0

/-- The bytes of the push and the call. -/
structure HoldsPatch (emulator : Emulator) (memory : Memory) (ip : Word)
    (gate : BitVec 8) : Prop where
  push : memory ip = 0x6a
  gate : memory (ip + 1) = gate
  call : memory (ip + 2) = 0xe8
  target : readWord memory (ip + 3) = emulator.entry - ip - 7

/-- The gates of system calls. -/
def IsGate (gate : BitVec 8) : Prop := gate = 7 ∨ gate = 27

/-- An address among the first bytes below the stack pointer. -/
def Below (esp : Word) (room : ℕ) (address : Word) : Prop :=
  (esp - 1 - address).toNat < room

/-! ## The parts of `ibcs_lcall` -/

section Parts

variable (emulator : Emulator) (machine : Machine)

theorem add_offset {base first second both : Word}
    (hboth : first + second = both) : base + first + second = base + both := by
  rw [add_assoc, hboth]

theorem execAll_append (first second : List Instr) :
    execAll emulator machine (first ++ second) =
      execAll emulator (execAll emulator machine first) second :=
  List.foldl_append

/-- The words that are put at offsets from the stack pointer until `struct
pt_regs` is complete. -/
def frame (machine : Machine) : List (Word × Word) := [
  (0, machine.regs.ebx), (4, machine.regs.ecx), (8, machine.regs.edx),
  (12, machine.regs.esi), (16, machine.regs.edi), (20, machine.regs.ebp),
  (24, machine.regs.eax), (28, machine.segs.ds.setWidth 32),
  (32, machine.segs.es.setWidth 32), (36, machine.segs.fs.setWidth 32),
  (40, machine.segs.gs.setWidth 32), (44, machine.regs.eax),
  (48, readWord machine.memory (machine.regs.esp + 60)),
  (52, machine.segs.cs.setWidth 32), (-4, machine.eflags),
  (56, machine.eflags), (60, machine.regs.esp + 68),
  (64, machine.segs.ss.setWidth 32)]

/-- The machine with `struct pt_regs` complete. -/
def savedMachine (machine : Machine) : Machine :=
  { machine with
    regs := { machine.regs with
      edx := machine.segs.ss.setWidth 32
      ebp := readWord machine.memory (machine.regs.esp + 64) }
    memory := writeWords machine.memory machine.regs.esp (frame machine) }

theorem execAll_saved :
    execAll emulator machine (saveRegs ++ saveFlags ++ saveStack) =
      savedMachine machine := by
  simp (disch := decide) only [execAll, saveRegs, saveFlags, saveStack,
    List.cons_append, List.nil_append, List.foldl_cons, List.foldl_nil, exec,
    Machine.pushWord, Machine.popped, Regs.get, Regs.set, Segs.get,
    readWord_writeWord_offset, readWord_writeWord, savedMachine, frame,
    writeWords, sub_eq_add_neg, neg_add_cancel_right]

/-- What is pushed below `struct pt_regs`. -/
def arguments (emulator : Emulator) (machine : Machine) : List (Word × Word) := [
  (-4, emulator.thunkReturn), (-4, machine.regs.esp), (-8, machine.regs.ebp),
  (-12, emulator.handlerReturn)]

/-- The machine in which the handler is called, from one with `struct pt_regs`
complete. -/
def calledMachine (emulator : Emulator) (machine : Machine) : Machine :=
  { machine with
    regs := { machine.regs with
      eax := emulator.handlerAddress
      edx := machine.regs.esp
      esp := machine.regs.esp + -12 }
    eip := emulator.handlerAddress
    eflags := machine.eflags &&& ~~~statusFlags |||
      emulator.sumFlags emulator.thunkReturn emulator.got &&& statusFlags
    memory := writeWords machine.memory machine.regs.esp
      (arguments emulator machine) }

theorem callHandler_ready :
    (execAll emulator machine (findHandler ++ pushArguments)).callHandler
      emulator = calledMachine emulator machine := by
  have height : machine.regs.esp + -4 + -4 = machine.regs.esp + -8 :=
    add_offset (by decide)
  have htwelve : machine.regs.esp + -8 + -4 = machine.regs.esp + -12 :=
    add_offset (by decide)
  simp only [execAll, findHandler, pushArguments, List.cons_append,
    List.nil_append, List.foldl_cons, List.foldl_nil, exec,
    Machine.callHandler, Machine.pushWord, Machine.popped, Machine.addTo,
    Regs.get, Regs.set, calledMachine, arguments,
    writeWords, sub_eq_add_neg, neg_add_cancel_right, height, htwelve]

/-- The machine behind the return, by the stack pointer at `struct pt_regs`. -/
def finalMachine (emulator : Emulator) (after : Machine) : Machine :=
  let ptRegs := after.regs.esp + 8
  let field := fun offset => readWord after.memory (ptRegs + offset)
  { regs :=
      { ebx := field 0, ecx := field 4, edx := field 8, esi := field 12
        edi := field 16, ebp := field 20, eax := field 24
        esp := ptRegs + 64 + 4 }
    segs :=
      { after.segs with
        ds := (field 28).setWidth 16, es := (field 32).setWidth 16
        fs := (field 36).setWidth 16, gs := (field 40).setWidth 16 }
    eip := field 48
    eflags :=
      (after.eflags &&& ~~~statusFlags |||
        emulator.sumFlags after.regs.esp 8 &&& statusFlags) &&& ~~~userFlags |||
      field 56 &&& userFlags
    memory := writeWords after.memory ptRegs [(-4, field 56), (64, field 48)] }

/-- `%esp` at `struct pt_regs` again, and the flags as they are left. -/
theorem execAll_restoreFlags :
    execAll emulator machine restoreFlags =
      { machine with
        eflags := machine.eflags &&& ~~~userFlags |||
          readWord machine.memory (machine.regs.esp + 56) &&& userFlags
        memory := writeWord machine.memory (machine.regs.esp + -4)
          (readWord machine.memory (machine.regs.esp + 56)) } := by
  obtain ⟨⟨_, _, _, _, _, _, _, esp⟩, _, _, _, _⟩ := machine
  simp only [execAll, restoreFlags, List.foldl_cons, List.foldl_nil, exec,
    Machine.pushWord, Machine.popped, sub_eq_add_neg, neg_add_cancel_right,
    readWord_writeWord]

theorem execAll_restoreRegs :
    execAll emulator machine restoreRegs =
      { machine with
        regs :=
          { ebx := readWord machine.memory (machine.regs.esp + 0)
            ecx := readWord machine.memory (machine.regs.esp + 4)
            edx := readWord machine.memory (machine.regs.esp + 8)
            esi := readWord machine.memory (machine.regs.esp + 12)
            edi := readWord machine.memory (machine.regs.esp + 16)
            ebp := readWord machine.memory (machine.regs.esp + 20)
            eax := readWord machine.memory (machine.regs.esp + 24)
            esp := machine.regs.esp }
        segs :=
          { machine.segs with
            ds := (readWord machine.memory (machine.regs.esp + 28)).setWidth 16
            es := (readWord machine.memory (machine.regs.esp + 32)).setWidth 16
            fs := (readWord machine.memory (machine.regs.esp + 36)).setWidth 16
            gs := (readWord machine.memory (machine.regs.esp + 40)).setWidth 16 }
        memory := writeWord machine.memory (machine.regs.esp + 64)
          (readWord machine.memory (machine.regs.esp + 48)) } := by
  simp (disch := decide) only [execAll, restoreRegs, List.foldl_cons,
    List.foldl_nil, exec, Regs.get, Regs.set, Segs.set,
    readWord_writeWord_offset]

theorem execAll_cons (instr : Instr) (instrs : List Instr) :
    execAll emulator machine (instr :: instrs) =
      execAll emulator (exec emulator machine instr) instrs := rfl

theorem handlerCalled_eq :
    handlerCalled emulator machine =
      calledMachine emulator
        (savedMachine (exec emulator machine (.lea (-60) .esp))) := by
  unfold handlerCalled
  dsimp only
  rw [execAll_cons, execAll_saved, callHandler_ready]

theorem handlerReturned_eq :
    handlerReturned emulator machine = finalMachine emulator machine := by
  unfold handlerReturned
  rw [execAll_cons, execAll_append, execAll_restoreFlags, execAll_append,
    execAll_restoreRegs]
  obtain ⟨⟨_, _, _, _, _, _, _, esp⟩, ⟨_, _, _, _, _, _⟩, _, _, _⟩ := machine
  simp (disch := decide) only [execAll, List.foldl_cons, List.foldl_nil, exec,
    Machine.addTo, Machine.popped, Machine.ret, Regs.get, Regs.set, finalMachine,
    writeWords, readWord_writeWord_offset, readWord_writeWord]

end Parts

/-! ## The call of the handler -/

section Frame

variable {emulator : Emulator} {machine : Machine} {offset value : Word}

theorem frame_apart (machine : Machine) :
    ((frame machine).map Prod.fst).Pairwise Apart := by
  change List.Pairwise Apart
    [0, 4, 8, 12, 16, 20, 24, 28, 32, 36, 40, 44, 48, 52, -4, 56, 60, 64]
  decide

/-- What is pushed lies below `struct pt_regs`. -/
theorem arguments_apart (emulator : Emulator) (machine : Machine)
    (hoffset : offset.toNat ≤ 64) :
    ∀ entry ∈ arguments emulator machine, Apart entry.1 offset := by
  have hbelow : ∀ below : Word, 4294967284 ≤ below.toNat →
      below.toNat ≤ 4294967292 → Apart below offset := by
    intro below hlow hhigh
    unfold Apart
    rw [BitVec.toNat_sub, BitVec.toNat_sub]
    omega
  intro entry hentry
  simp only [arguments, List.mem_cons, List.not_mem_nil, or_false] at hentry
  rcases hentry with rfl | rfl | rfl | rfl
  · exact hbelow (-4) (by decide) (by decide)
  · exact hbelow (-4) (by decide) (by decide)
  · exact hbelow (-8) (by decide) (by decide)
  · exact hbelow (-12) (by decide) (by decide)

/-- The handler finds the words of the frame. -/
theorem readWord_called (hoffset : offset.toNat ≤ 64)
    (hentry : (offset, value) ∈ frame machine) :
    readWord (calledMachine emulator (savedMachine machine)).memory
      (machine.regs.esp + offset) = value :=
  calc readWord (calledMachine emulator (savedMachine machine)).memory
        (machine.regs.esp + offset)
      = readWord (savedMachine machine).memory (machine.regs.esp + offset) :=
        readWord_writeWords_of_apart _
          (arguments_apart emulator (savedMachine machine) hoffset)
    _ = value :=
        readWord_writeWords _ (frame_apart machine) hentry

theorem called_ptRegs :
    (calledMachine emulator machine).ptRegs = machine.regs.esp := by
  have haddress : machine.regs.esp + -12 + 8 = machine.regs.esp + -4 :=
    add_offset (by decide)
  unfold Machine.ptRegs calledMachine
  dsimp only
  rw [haddress]
  simp (disch := decide) only [arguments, writeWords, readWord_writeWord_offset,
    readWord_writeWord]

theorem called_gate :
    readWord (calledMachine emulator machine).memory
      ((calledMachine emulator machine).regs.esp + 4) = machine.regs.ebp := by
  have haddress : machine.regs.esp + -12 + 4 = machine.regs.esp + -8 :=
    add_offset (by decide)
  unfold calledMachine
  dsimp only
  rw [haddress]
  simp (disch := decide) only [arguments, writeWords, readWord_writeWord_offset,
    readWord_writeWord]

end Frame

/-! ## A push and a call -/

section Entry

variable {emulator : Emulator} {machine : Machine} {gate : BitVec 8}

/-- The machine at the first instruction of `ibcs_lcall`. -/
def enteredMachine (emulator : Emulator) (machine : Machine) (gate : BitVec 8) :
    Machine :=
  let pushed := machine.pushWord (gate.setWidth 32)
  { pushed.pushWord (machine.eip + 7) with eip := emulator.entry }

/-- The machine with room for `struct pt_regs` from `base` on. -/
def baseMachine (emulator : Emulator) (machine : Machine) (gate : BitVec 8)
    (base : Word) : Machine where
  regs := { machine.regs with esp := base }
  segs := machine.segs
  eip := emulator.entry
  eflags := machine.eflags
  memory := writeWords machine.memory base
    [(64, gate.setWidth 32), (60, machine.eip + 7)]

theorem exec_entered (emulator : Emulator) (machine : Machine)
    (gate : BitVec 8) :
    exec emulator (enteredMachine emulator machine gate) (.lea (-60) .esp) =
      baseMachine emulator machine gate (machine.regs.esp + -68) := by
  have hpushed : machine.regs.esp + -4 = machine.regs.esp + -68 + 64 :=
    (add_offset (by decide)).symm
  have hcalled : machine.regs.esp + -68 + 64 + -4 =
      machine.regs.esp + -68 + 60 := add_offset (by decide)
  have hbase : machine.regs.esp + -68 + 60 + -60 = machine.regs.esp + -68 :=
    add_neg_cancel_right _ _
  simp only [exec, enteredMachine, Machine.pushWord, baseMachine, Regs.set,
    writeWords, sub_eq_add_neg, hcalled, hbase, hpushed]

theorem mem_frame_reg (machine : Machine) {reg : Reg} (hreg : reg ≠ .esp) :
    (regOffset reg, machine.regs.get reg) ∈ frame machine := by
  cases reg with
  | ebx => exact List.mem_of_getElem? (i := 0) rfl
  | ecx => exact List.mem_of_getElem? (i := 1) rfl
  | edx => exact List.mem_of_getElem? (i := 2) rfl
  | esi => exact List.mem_of_getElem? (i := 3) rfl
  | edi => exact List.mem_of_getElem? (i := 4) rfl
  | ebp => exact List.mem_of_getElem? (i := 5) rfl
  | eax => exact List.mem_of_getElem? (i := 6) rfl
  | esp => exact absurd rfl hreg

theorem mem_frame_seg (machine : Machine) (seg : Seg) :
    (segOffset seg, (machine.segs.get seg).setWidth 32) ∈ frame machine := by
  cases seg with
  | ds => exact List.mem_of_getElem? (i := 7) rfl
  | es => exact List.mem_of_getElem? (i := 8) rfl
  | fs => exact List.mem_of_getElem? (i := 9) rfl
  | gs => exact List.mem_of_getElem? (i := 10) rfl
  | cs => exact List.mem_of_getElem? (i := 13) rfl
  | ss => exact List.mem_of_getElem? (i := 17) rfl

theorem mem_frame_eip (machine : Machine) :
    (eipOffset, readWord machine.memory (machine.regs.esp + 60)) ∈
      frame machine :=
  List.mem_of_getElem? (i := 12) rfl

theorem mem_frame_eflags (machine : Machine) :
    (eflagsOffset, machine.eflags) ∈ frame machine :=
  List.mem_of_getElem? (i := 15) rfl

theorem mem_frame_esp (machine : Machine) :
    (regOffset .esp, machine.regs.esp + 68) ∈ frame machine :=
  List.mem_of_getElem? (i := 16) rfl

section Base

variable (emulator : Emulator) (machine : Machine) (gate : BitVec 8) (base : Word)

theorem baseMachine_get {reg : Reg} (hreg : reg ≠ .esp) :
    (baseMachine emulator machine gate base).regs.get reg =
      machine.regs.get reg := by
  cases reg with
  | esp => exact absurd rfl hreg
  | _ => rfl

/-- What the push and the call have left above `struct pt_regs`. -/
theorem readWord_baseMachine :
    readWord (baseMachine emulator machine gate base).memory (base + 64) =
        gate.setWidth 32 ∧
      readWord (baseMachine emulator machine gate base).memory (base + 60) =
        machine.eip + 7 := by
  have hapart : List.Pairwise Apart [64, 60] := by decide
  constructor
  · exact readWord_writeWords _ hapart List.mem_cons_self
  · exact readWord_writeWords _ hapart
      (List.mem_cons_of_mem _ List.mem_cons_self)

/-- The handler gets the gate and the registers of the program. -/
theorem calledWith_base {base : Word} (hbase : base + 68 = machine.regs.esp) :
    CalledWith machine gate (calledMachine emulator
      (savedMachine (baseMachine emulator machine gate base))) := by
  obtain ⟨htop, hreturn⟩ := readWord_baseMachine emulator machine gate base
  have hregs := @baseMachine_get emulator machine gate base
  have hptRegs : (calledMachine emulator (savedMachine
      (baseMachine emulator machine gate base))).ptRegs = base := called_ptRegs
  have hread : ∀ offset value, offset.toNat ≤ 64 →
      (offset, value) ∈ frame (baseMachine emulator machine gate base) →
        readWord (calledMachine emulator (savedMachine
          (baseMachine emulator machine gate base))).memory (base + offset) =
            value :=
    fun offset value hoffset hentry => readWord_called hoffset hentry
  constructor
  · rw [called_gate]
    exact htop
  · intro reg
    have hoffset : (regOffset reg).toNat ≤ 64 := by
      cases reg <;> decide
    rw [hptRegs]
    by_cases hreg : reg = .esp
    · subst hreg
      exact (hread _ _ hoffset (mem_frame_esp _)).trans hbase
    · exact (hread _ _ hoffset (mem_frame_reg _ hreg)).trans (hregs hreg)
  · intro seg
    have hoffset : (segOffset seg).toNat ≤ 64 := by
      cases seg <;> decide
    rw [hptRegs]
    exact hread _ _ hoffset (mem_frame_seg _ seg)
  · rw [hptRegs]
    exact hread _ _ (by decide) (mem_frame_eflags _)
  · rw [hptRegs]
    exact (hread _ _ (by decide) (mem_frame_eip _)).trans hreturn

/-- `ibcs_lcall` is entered with the stack as the push and the call leave it. -/
theorem calledWith_entered :
    CalledWith machine gate
        (handlerCalled emulator (enteredMachine emulator machine gate)) ∧
      (handlerCalled emulator (enteredMachine emulator machine gate)).ptRegs =
        machine.regs.esp + -68 := by
  rw [handlerCalled_eq, exec_entered]
  constructor
  · exact calledWith_base emulator machine gate (neg_add_cancel_right _ _)
  · exact called_ptRegs

end Base

end Entry

/-! ## Behind the handler -/

section Return

variable {emulator : Emulator} {machine after : Machine} {ptRegs : Word}

theorem and_userFlags (flags sum : Word) :
    (flags &&& ~~~statusFlags ||| sum &&& statusFlags) &&& ~~~userFlags =
      flags &&& ~~~userFlags := by
  have hkept : ~~~statusFlags &&& ~~~userFlags = ~~~userFlags := by decide
  have hcleared : statusFlags &&& ~~~userFlags = 0#32 := by decide
  calc (flags &&& ~~~statusFlags ||| sum &&& statusFlags) &&& ~~~userFlags
      = flags &&& (~~~statusFlags &&& ~~~userFlags) |||
          sum &&& (statusFlags &&& ~~~userFlags) := by
        rw [BitVec.and_or_distrib_right, BitVec.and_assoc, BitVec.and_assoc]
    _ = flags &&& ~~~userFlags ||| sum &&& 0#32 := by rw [hkept, hcleared]
    _ = flags &&& ~~~userFlags := by
        rw [BitVec.and_zero]
        exact BitVec.or_zero

/-- The program goes on with what the handler has left in `struct pt_regs`. -/
theorem goesOn_finalMachine (hptRegs : after.regs.esp + 8 = ptRegs)
    (hesp : ptRegs + 68 = machine.regs.esp)
    (hcs : after.segs.cs = machine.segs.cs)
    (hss : after.segs.ss = machine.segs.ss)
    (hsystem : after.eflags &&& ~~~userFlags =
      machine.eflags &&& ~~~userFlags) :
    GoesOn machine ptRegs after (finalMachine emulator after) := by
  unfold finalMachine
  rw [hptRegs]
  constructor
  · intro reg hreg
    cases reg with
    | esp => exact absurd rfl hreg
    | _ => rfl
  · exact (add_offset (by decide)).trans hesp
  · intro seg hnotCs hnotSs
    cases seg with
    | cs => exact absurd rfl hnotCs
    | ss => exact absurd rfl hnotSs
    | _ => rfl
  · exact hcs
  · exact hss
  · dsimp only
    rw [and_userFlags, hsystem]
    rfl
  · rfl

theorem goesOn_base (habi : FollowsAbi emulator.handler) (machine : Machine)
    (gate : BitVec 8) {base : Word} (hbase : base + 68 = machine.regs.esp)
    {called : Machine} (hcalled : called = calledMachine emulator
      (savedMachine (baseMachine emulator machine gate base))) :
    GoesOn machine base (emulator.handler called)
      (handlerReturned emulator (emulator.handler called)) := by
  have hesp : called.regs.esp = base + -12 := by rw [hcalled]; rfl
  have hsegs : called.segs = machine.segs := by rw [hcalled]; rfl
  have hsystem : called.eflags &&& ~~~userFlags =
      machine.eflags &&& ~~~userFlags := by
    rw [hcalled]
    exact and_userFlags _ _
  rw [handlerReturned_eq]
  apply goesOn_finalMachine
  · calc (emulator.handler called).regs.esp + 8
        = base + -12 + 4 + 8 := by rw [habi.esp, hesp]
      _ = base + -8 + 8 := congrArg (· + 8) (add_offset (by decide))
      _ = base := neg_add_cancel_right _ _
  · exact hbase
  · rw [habi.cs, hsegs]
  · rw [habi.ss, hsegs]
  · rw [habi.systemFlags, hsystem]

/-- From the first instruction of `ibcs_lcall` to behind its return. -/
theorem intercepted_entered (habi : FollowsAbi emulator.handler)
    (machine : Machine) (gate : BitVec 8) :
    Intercepted emulator machine gate
      (some (ibcsLcall emulator (enteredMachine emulator machine gate))) := by
  obtain ⟨hcalled, hptRegs⟩ := calledWith_entered emulator machine gate
  refine ⟨_, _, rfl, hcalled, ?_⟩
  rw [hptRegs]
  apply goesOn_base habi machine gate
  · exact neg_add_cancel_right _ _
  · rw [handlerCalled_eq, exec_entered]

end Return

/-! ## The program -/

section Program

variable {emulator : Emulator} {machine : Machine} {memory : Memory}
  {gate : BitVec 8} {room : ℕ}

/-- The bytes of the program lie off the stack that is used. -/
def OffStack (machine : Machine) (room : ℕ) : Prop :=
  ∀ offset : Word, offset.toNat < 7 →
    ¬ Below machine.regs.esp room (machine.eip + offset)

/-- A push of one word does not reach an address off the stack. -/
theorem outside_of_not_below {esp address : Word} (hroom : 4 ≤ room)
    (hoff : ¬ Below esp room address) :
    4 ≤ (address - (esp - 4)).toNat := by
  have hone : (1 : Word).toNat = 1 := rfl
  have hfour : (4 : Word).toNat = 4 := rfl
  unfold Below at hoff
  simp only [BitVec.toNat_sub] at hoff ⊢
  omega

theorem pushed_byte (hroom : 4 ≤ room) (hoff : OffStack machine room)
    (value : Word) {offset : Word} (hoffset : offset.toNat < 7) :
    (machine.pushWord value).memory (machine.eip + offset) =
      machine.memory (machine.eip + offset) :=
  writeWord_outside (outside_of_not_below hroom (hoff offset hoffset))

/-- The target of the call survives the push. -/
theorem pushed_target (hroom : 4 ≤ room) (hoff : OffStack machine room)
    (value : Word) :
    readWord (machine.pushWord value).memory (machine.eip + 3) =
      readWord machine.memory (machine.eip + 3) := by
  have hbyte : ∀ offset : Word, offset.toNat < 4 →
      (machine.pushWord value).memory (machine.eip + 3 + offset) =
        machine.memory (machine.eip + 3 + offset) := by
    intro offset hoffset
    rw [add_assoc]
    apply pushed_byte hroom hoff
    rw [BitVec.toNat_add]
    have hthree : (3 : Word).toNat = 3 := rfl
    omega
  have hzero := hbyte 0 (by decide)
  rw [add_zero] at hzero
  unfold readWord
  rw [hzero, hbyte 1 (by decide), hbyte 2 (by decide), hbyte 3 (by decide)]

theorem setWidth_gate (hgate : IsGate gate) :
    gate.signExtend 32 = gate.setWidth 32 := by
  cases hgate with
  | inl hseven => rw [hseven]; decide
  | inr hother => rw [hother]; decide

/-- The push and the call lead to `ibcs_lcall`. -/
theorem runPatched_eq (hgate : IsGate gate) (hroom : 4 ≤ room)
    (hoff : OffStack machine room)
    (hpatch : HoldsPatch emulator machine.memory machine.eip gate) :
    runPatched emulator machine =
      some (ibcsLcall emulator (enteredMachine emulator machine gate)) := by
  have hpush : programStep machine =
      some { machine.pushWord (gate.setWidth 32) with
        eip := machine.eip + 2 } := by
    unfold programStep
    dsimp only
    rw [if_pos hpatch.push, hpatch.gate, setWidth_gate hgate]
  have hcall : programStep { machine.pushWord (gate.setWidth 32) with
      eip := machine.eip + 2 } =
        some (enteredMachine emulator machine gate) := by
    have hopcode : (machine.pushWord (gate.setWidth 32)).memory
        (machine.eip + 2) = 0xe8 :=
      (pushed_byte hroom hoff _ (by decide)).trans hpatch.call
    have htarget := (pushed_target hroom hoff (gate.setWidth 32)).trans
      hpatch.target
    have hnext : machine.eip + 2 + 5 = machine.eip + 7 := add_offset (by decide)
    have hfield : machine.eip + 2 + 1 = machine.eip + 3 := add_offset (by decide)
    have hentry : machine.eip + 7 + (emulator.entry - machine.eip - 7) =
        emulator.entry := by
      rw [sub_sub, add_sub_cancel]
    unfold programStep
    dsimp only
    rw [hopcode, if_neg (by decide), if_pos rfl, hnext, hfield, htarget, hentry]
    rfl
  unfold runPatched
  rw [hpush, Option.bind_eq_bind, Option.bind_some, hcall, Option.bind_some]
  exact if_pos rfl

/-- The bytes of an `lcall` are recognised. -/
theorem lcallGate_of_holds (hgate : IsGate gate) {ip : Word}
    (hlcall : HoldsLcall memory ip gate) :
    lcallGate (fun address => some (memory address)) ip =
      some (some (gate.setWidth 16)) := by
  have hzero : (0 : BitVec 8) ++ (0 : BitVec 8) ++ (0 : BitVec 8) ++
      (0 : BitVec 8) = (0 : BitVec 32) := by decide
  have hword : (0 : BitVec 8) ++ gate = gate.setWidth 16 := by
    cases hgate with
    | inl hseven => rw [hseven]; decide
    | inr hother => rw [hother]; decide
  have hknown : (gate.setWidth 16 : BitVec 16) = 7 ∨
      (gate.setWidth 16 : BitVec 16) = 27 := by
    cases hgate with
    | inl hseven => rw [hseven]; decide
    | inr hother => rw [hother]; decide
  unfold lcallGate
  simp only [Option.bind_eq_bind, Option.bind_some]
  rw [hlcall.opcode, hlcall.first, hlcall.second, hlcall.third, hlcall.fourth,
    hlcall.gate, hlcall.last, hzero, hword, if_neg (by decide),
    if_neg (by decide), if_pos hknown]
  rfl

/-- The patch is a push of the gate and a call of `ibcs_lcall`. -/
theorem holdsPatch_patchLcall (emulator : Emulator) (memory : Memory) (ip : Word)
    (hgate : IsGate gate) :
    HoldsPatch emulator (patchLcall emulator memory ip (gate.setWidth 16)) ip
      gate := by
  have hbytes : ((gate.setWidth 16 <<< 8 ||| 0x6a : BitVec 16).setWidth 8 :
        BitVec 8) = 0x6a ∧
      (((gate.setWidth 16 <<< 8 ||| 0x6a : BitVec 16) >>> 8).setWidth 8 :
        BitVec 8) = gate := by
    cases hgate with
    | inl hseven => rw [hseven]; decide
    | inr hother => rw [hother]; decide
  have hone : ip ≠ ip + 1 := by simp
  have htwo : ip ≠ ip + 2 := by simp
  have hthree : ip + 1 ≠ ip + 2 := by simp
  have hoff : ∀ offset : Word, offset.toNat < 3 →
      4 ≤ (ip + offset - (ip + 3)).toNat := by
    intro offset hoffset
    rw [add_sub_add_left_eq_sub, BitVec.toNat_sub]
    have hthree : (3 : Word).toNat = 3 := rfl
    omega
  have hfirst := hoff 0 (by decide)
  rw [add_zero] at hfirst
  unfold patchLcall
  dsimp only
  rw [hbytes.1, hbytes.2]
  constructor
  · rw [writeWord_outside hfirst, Function.update_of_ne htwo,
      Function.update_of_ne hone, Function.update_self]
  · rw [writeWord_outside (hoff 1 (by decide)), Function.update_of_ne hthree,
      Function.update_self]
  · rw [writeWord_outside (hoff 2 (by decide)), Function.update_self]
  · calc readWord (writeWord _ (ip + 3) (emulator.entry - ip - 2 - 5)) (ip + 3)
        = emulator.entry - ip - 2 - 5 := readWord_writeWord
      _ = emulator.entry - ip - (2 + 5) := sub_sub _ _ _
      _ = emulator.entry - ip - 7 := congrArg _ (by decide)

/-- The bytes of the program are in the memory that the signal leaves. -/
theorem HoldsLcall.congr {other : Memory} {ip : Word}
    (hlcall : HoldsLcall memory ip gate)
    (hsame : ∀ offset : Word, offset.toNat < 7 →
      other (ip + offset) = memory (ip + offset)) :
    HoldsLcall other ip gate := by
  have hzero := hsame 0 (by decide)
  rw [add_zero] at hzero
  constructor
  · exact hzero.trans hlcall.opcode
  · exact (hsame 1 (by decide)).trans hlcall.first
  · exact (hsame 2 (by decide)).trans hlcall.second
  · exact (hsame 3 (by decide)).trans hlcall.third
  · exact (hsame 4 (by decide)).trans hlcall.fourth
  · exact (hsame 5 (by decide)).trans hlcall.gate
  · exact (hsame 6 (by decide)).trans hlcall.last

/-- A fault at an `lcall` patches it. -/
theorem fault_lcall (emulator : Emulator) (task : Task) (framed : Memory)
    (hgate : IsGate gate) (hlcall : HoldsLcall framed machine.eip gate) :
    fault emulator task framed machine =
      some { machine with
        memory := patchLcall emulator framed machine.eip (gate.setWidth 16) } := by
  unfold fault lcallSigsegv
  rw [lcallGate_of_holds hgate hlcall]

/-- A push and a call pass through the handler. -/
theorem intercepted_runPatched (habi : FollowsAbi emulator.handler)
    (hgate : IsGate gate) (hroom : 4 ≤ room) (hoff : OffStack machine room)
    (hpatch : HoldsPatch emulator machine.memory machine.eip gate) :
    Intercepted emulator machine gate (runPatched emulator machine) := by
  rw [runPatched_eq hgate hroom hoff hpatch]
  exact intercepted_entered habi machine gate

/-- What a run passes on does not depend on the memory that it begins with. -/
theorem Intercepted.congr {other : Memory} {run : Option (Machine × Machine)}
    (hrun : Intercepted emulator { machine with memory := other } gate run) :
    Intercepted emulator machine gate run := by
  obtain ⟨called, final, heq, hcalled, hgoesOn⟩ := hrun
  refine ⟨called, final, heq, ?_, ?_⟩
  · exact ⟨hcalled.gate, hcalled.regs, hcalled.segs, hcalled.eflags,
      hcalled.eip⟩
  · exact ⟨hgoesOn.regs, hgoesOn.esp, hgoesOn.segs, hgoesOn.cs, hgoesOn.ss,
      hgoesOn.eflags, hgoesOn.eip⟩

/-- An `lcall` is patched and passes through the handler. -/
theorem intercepted_runLcall (habi : FollowsAbi emulator.handler)
    (task : Task) {framed : Memory} (hgate : IsGate gate) (hroom : 4 ≤ room)
    (hoff : OffStack machine room)
    (hframed : ∀ address, ¬ Below machine.regs.esp room address →
      framed address = machine.memory address)
    (hlcall : HoldsLcall machine.memory machine.eip gate) :
    Intercepted emulator machine gate
      (runLcall emulator task framed machine) := by
  have hkept : HoldsLcall framed machine.eip gate :=
    hlcall.congr fun offset hoffset => hframed _ (hoff offset hoffset)
  unfold runLcall
  rw [fault_lcall emulator task framed hgate hkept, Option.bind_some]
  apply Intercepted.congr
  exact intercepted_runPatched habi hgate hroom hoff
    (holdsPatch_patchLcall emulator framed machine.eip hgate)

/-- An `lcall`, and what it has been patched to, call the handler with the gate
and the registers, and the program goes on with what the handler leaves.  The
code lies off the part of the stack that the signal and the pushes use. -/
theorem lcall_transparent (habi : FollowsAbi emulator.handler)
    (task : Task) {framed : Memory} (hgate : IsGate gate) (hroom : 4 ≤ room)
    (hoff : OffStack machine room)
    (hframed : ∀ address, ¬ Below machine.regs.esp room address →
      framed address = machine.memory address) :
    (HoldsLcall machine.memory machine.eip gate →
      Intercepted emulator machine gate
        (runLcall emulator task framed machine)) ∧
    (HoldsPatch emulator machine.memory machine.eip gate →
      Intercepted emulator machine gate (runPatched emulator machine)) :=
  ⟨intercepted_runLcall habi task hgate hroom hoff hframed,
    intercepted_runPatched habi hgate hroom hoff⟩

/-! ## Two handlers -/

/-- A handler that leaves a word in `struct pt_regs`. -/
def leaves (offset value : Word) (machine : Machine) : Machine :=
  { machine.popped with
    memory := writeWord machine.memory (machine.ptRegs + offset) value }

theorem followsAbi_leaves (offset value : Word) :
    FollowsAbi (leaves offset value) where
  esp _ := rfl
  cs _ := rfl
  ss _ := rfl
  systemFlags _ := rfl

/-- An emulator in high memory. -/
def highEmulator (handler : Machine → Machine) : Emulator where
  entry := 0xb7700000
  thunkReturn := 0xb7700052
  handlerReturn := 0xb7700064
  got := 0x4000
  handlerAddress := 0xb7701000
  sumFlags _ _ := 0
  handler := handler

/-- `lcall $7,$0` at the start of the text. -/
def lcallMachine : Machine where
  regs := ⟨20, 0, 0, 0, 0, 0, 0, 0x8047f00⟩
  segs := ⟨0x73, 0x7b, 0x7b, 0, 0, 0x7b⟩
  eip := 0x8048000
  eflags := 0x202
  memory := fun address =>
    if address = 0x8048000 then 0x9a else if address = 0x8048005 then 7 else 0

theorem holdsLcall_lcallMachine :
    HoldsLcall lcallMachine.memory lcallMachine.eip 7 := by
  constructor <;> decide

/-- Code above the stack is off it. -/
theorem offStack_of_above (habove : machine.regs.esp.toNat ≤ machine.eip.toNat)
    (hend : machine.eip.toNat + 7 ≤ 2 ^ 32)
    (hbelow : room ≤ machine.regs.esp.toNat) :
    OffStack machine room := by
  intro offset hoffset
  have hone : (1 : Word).toNat = 1 := rfl
  unfold Below
  simp only [BitVec.toNat_sub, BitVec.toNat_add]
  omega

theorem offStack_lcallMachine : OffStack lcallMachine 0x1000 :=
  offStack_of_above (by decide) (by decide) (by decide)

theorem lcall_transparent_getpid :
    Intercepted (highEmulator (leaves 24 1234)) lcallMachine 7
      (runLcall (highEmulator (leaves 24 1234)) startTask lcallMachine.memory
        lcallMachine) :=
  (lcall_transparent (followsAbi_leaves 24 1234) startTask (.inl rfl)
    (show 4 ≤ 0x1000 by decide) offStack_lcallMachine
    (fun _ _ => rfl)).1 holdsLcall_lcallMachine

/-- A patched `lcall` in the word below the stack pointer. -/
def stackMachine : Machine :=
  let emulator := highEmulator (leaves 24 1234)
  { lcallMachine with
    regs := { lcallMachine.regs with esp := 0x8048006 }
    memory := patchLcall emulator lcallMachine.memory 0x8048000 7 }

theorem holdsPatch_stackMachine :
    HoldsPatch (highEmulator (leaves 24 1234)) stackMachine.memory
      stackMachine.eip 7 := by
  have hgate : (7 : BitVec 8).setWidth 16 = 7 := by decide
  have hpatch := @holdsPatch_patchLcall 7 (highEmulator (leaves 24 1234))
    lcallMachine.memory 0x8048000 (.inl rfl)
  rw [hgate] at hpatch
  exact hpatch

/-- The push of the gate lands on the call. -/
theorem runPatched_stackMachine :
    runPatched (highEmulator (leaves 24 1234)) stackMachine = none := by
  have hpush : programStep stackMachine =
      some { stackMachine.pushWord 7 with eip := 0x8048002 } := by
    have hgate : (7 : BitVec 8).signExtend 32 = 7 := by decide
    have hpatch := holdsPatch_stackMachine
    unfold programStep
    dsimp only
    rw [if_pos hpatch.push, hpatch.gate, hgate]
    rfl
  have hopcode : (stackMachine.pushWord 7).memory 0x8048002 = 7 := by
    have hesp : stackMachine.regs.esp - 4 = 0x8048002 := by decide
    have hbyte : ∀ memory : Memory,
        writeWord memory 0x8048002 7 0x8048002 = 7 := by
      intro memory
      have hinside := @writeWord_inside memory 0x8048002 0 7 (by decide)
      rw [add_zero] at hinside
      exact hinside.trans (by decide)
    unfold Machine.pushWord
    dsimp only
    rw [hesp, hbyte]
  have hcall : programStep { stackMachine.pushWord 7 with eip := 0x8048002 } =
      none := by
    unfold programStep
    dsimp only
    rw [hopcode, if_neg (by decide), if_neg (by decide)]
  unfold runPatched
  rw [hpush, Option.bind_eq_bind, Option.bind_some, hcall]
  rfl

/-- `%cs` is not loaded from `struct pt_regs`, and an `lcall` at the stack
pointer is lost to the push. -/
theorem lcall_not_transparent :
    (FollowsAbi (leaves 52 0x23) ∧
      HoldsLcall lcallMachine.memory lcallMachine.eip 7 ∧
      ∃ called final,
        runLcall (highEmulator (leaves 52 0x23)) startTask lcallMachine.memory
          lcallMachine = some (called, final) ∧
        readWord (leaves 52 0x23 called).memory
          (called.ptRegs + segOffset .cs) = 0x23 ∧
        final.segs.cs = 0x73) ∧
    FollowsAbi (leaves 24 1234) ∧
    HoldsPatch (highEmulator (leaves 24 1234)) stackMachine.memory
      stackMachine.eip 7 ∧
    runPatched (highEmulator (leaves 24 1234)) stackMachine = none := by
  obtain ⟨called, final, hrun, -, hgoesOn⟩ :=
    @intercepted_runLcall (highEmulator (leaves 52 0x23)) lcallMachine 7 0x1000
      (followsAbi_leaves 52 0x23) startTask lcallMachine.memory (.inl rfl)
      (by decide) offStack_lcallMachine (fun _ _ => rfl) holdsLcall_lcallMachine
  refine ⟨⟨followsAbi_leaves 52 0x23, holdsLcall_lcallMachine, called, final,
    hrun, ?_, ?_⟩, followsAbi_leaves 24 1234, holdsPatch_stackMachine,
    runPatched_stackMachine⟩
  · have hoffset : segOffset .cs = 52 := rfl
    unfold leaves
    dsimp only
    rw [hoffset, readWord_writeWord]
  · exact hgoesOn.cs

end Program

end IbcsUs.Lcall
