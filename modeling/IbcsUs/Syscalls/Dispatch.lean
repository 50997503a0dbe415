import IbcsUs.Syscalls.Sysent

/-!
# Calling system calls

`lcall7_dispatch` calls what a row of a personality's table names, with the
calling convention that the row asks for, and reports the result as the emulated
systems do: an error as its number in `eax` with the carry flag set, anything
else as it is. What the functions do is a parameter.
-/

namespace IbcsUs.Sysent

/-! ## The state of a call -/

/-- The saved registers that the dispatcher uses. -/
structure PtRegs where
  eax : BitVec 32
  eflags : BitVec 32
  esp : BitVec 32
  deriving DecidableEq

/-- The emulated program at a system call: its saved registers, where they lie,
and the words of its memory. -/
structure Machine where
  regs : PtRegs
  regsAddr : BitVec 32
  memory : BitVec 32 → BitVec 32

/-- A call of a function with the words that it finds as its arguments. -/
structure Call where
  target : Target
  args : List (BitVec 32)
  deriving DecidableEq

/-- The calls that a system call has made, and the state it leaves. -/
structure Dispatched where
  calls : List Call
  machine : Machine

/-- `set_error`. -/
def setError (machine : Machine) (errno : ℤ) : Machine :=
  { machine with regs :=
    { machine.regs with
      eax := BitVec.ofInt 32 errno
      eflags := machine.regs.eflags ||| 1 } }

/-- `clear_error` and `set_result`. -/
def setResult (machine : Machine) (result : BitVec 32) : Machine :=
  { machine with regs :=
    { machine.regs with
      eax := result
      eflags := machine.regs.eflags &&& ~~~1 } }

/-- The word at `sp + index` of the stack, counted from `off` words above `esp`.
-/
def Machine.stackWord (machine : Machine) (off index : ℕ) : BitVec 32 :=
  machine.memory (machine.regs.esp + BitVec.ofNat 32 (4 * (off + index)))

/-! ## The code -/

def einval : ℤ := 22
def enosys : ℤ := 38

/-- `map_value`; the personality has a map. -/
def mapValue (map : List Segment) (val fallback : ℤ) : ℤ :=
  match map.find? fun seg => seg.start ≤ val ∧ val ≤ seg.stop with
  | none => fallback
  | some seg =>
      match seg.map with
      | .value number => number
      | .vector numbers => numbers.getD (val - seg.start).toNat fallback
      | .identity => val

/-- `iABI_errors`. -/
def iABIErrors (errMap : List Segment) (errno : ℤ) : ℤ :=
  mapValue errMap errno 1

/-- `IBCS_IS_ERR`. -/
def isErr (value : BitVec 32) : Bool := 0xfffff000 < value

/-- The functions that read a system call's number and find its row. -/
inductive Table where
  | uw7
  | sco
  | cxenix
  deriving DecidableEq

/-- The rows of the table. -/
def Table.rows : Table → List Row
  | uw7 => uw7SyscallTable
  | sco => scoSyscallTable
  | cxenix => cxenixTable

/-- The error map of the personalities that use the table. -/
def Table.errMap : Table → List Segment
  | uw7 => uw7ErrMap
  | sco => scoErrMap
  | cxenix => scoErrMap

/-- The number of the call. -/
def Table.number (table : Table) (eax : BitVec 32) : ℕ :=
  match table with
  | uw7 => (eax &&& 0xff).toNat
  | sco => (eax &&& 0xff).toNat
  | cxenix => ((eax &&& 0xffff) >>> 8).toNat

section Code

variable (errMap : List Segment)
-- what a called function returns, and the state it leaves
variable (run : Call → Machine → BitVec 32 × Machine)

/-- How the result of a call is handed to the program. -/
def formatResult (result : BitVec 32 × Machine) : Machine :=
  if isErr result.1 then
    setError result.2 (iABIErrors errMap (-result.1).toInt)
  else setResult result.2 result.1

/-- A call whose result is handed to the program. -/
def callFormatted (call : Call) (machine : Machine) : Dispatched where
  calls := [call]
  machine := formatResult errMap (run call machine)

/-- The six words that C functions are called with. -/
def sixWords (machine : Machine) (off : ℕ) : List (BitVec 32) :=
  (List.range 6).map (machine.stackWord off)

/-- `lcall7_dispatch`. -/
def lcall7Dispatch (machine : Machine) (row : Row) (off : ℕ) : Dispatched :=
  if row.nargs = unimpl then
    ⟨[], setError machine (iABIErrors errMap enosys)⟩
  else
    match row.syscall with
    | .none => ⟨[], setError machine (iABIErrors errMap enosys)⟩
    | .linux number =>
        callFormatted errMap run ⟨.linux number, sixWords machine off⟩ machine
    | .callee callee =>
        if row.nargs ≤ 6 then
          callFormatted errMap run ⟨.callee callee, sixWords machine off⟩
            machine
        else if row.nargs = fast then
          let call := ⟨.callee callee, [machine.regsAddr]⟩
          ⟨[call], (run call machine).2⟩
        else if row.nargs = spl then
          callFormatted errMap run ⟨.callee callee, [machine.regsAddr]⟩ machine
        else
          ⟨[], formatResult errMap (BitVec.ofInt 32 (-enosys), machine)⟩

end Code

/-- `uw7_lcall7`, `sco_lcall7` and `cxenix`. -/
def lcall7 (table : Table) (run : Call → Machine → BitVec 32 × Machine)
    (machine : Machine) : Dispatched :=
  match table.rows[table.number machine.regs.eax]? with
  | none => ⟨[], setError machine (iABIErrors table.errMap (-einval))⟩
  | some row => lcall7Dispatch table.errMap run machine row 1


/-! ## What is meant -/

/-- The words lead with the arguments that the function's definition takes. -/
def Call.Delivers (call : Call) (machine : Machine) (off : ℕ) : Prop :=
  match call.target with
  | .none => False
  | .linux _ => call.args = sixWords machine off
  | .callee callee =>
      match callee.parameters with
      | .words count =>
          count ≤ call.args.length ∧
            ∀ index < count,
              call.args[index]? = some (machine.stackWord off index)
      | .registers => call.args.head? = some machine.regsAddr

/-- The program sees a result. -/
def Sees (errMap : List Segment) (result : BitVec 32) (after : Machine) :
    Prop :=
  if -4095 ≤ result.toInt ∧ result.toInt ≤ -1 then
    after.regs.eflags.getLsbD 0 = true ∧
      after.regs.eax = BitVec.ofInt 32 (iABIErrors errMap (-result.toInt))
  else after.regs.eflags.getLsbD 0 = false ∧ after.regs.eax = result

/-- The function of a row is called once, with its arguments, and the program
sees its result. -/
def Called (errMap : List Segment) (run : Call → Machine → BitVec 32 × Machine)
    (machine : Machine) (row : Row) (off : ℕ) (after : Dispatched) : Prop :=
  ∃ call, after.calls = [call] ∧ call.target = row.syscall ∧
    call.Delivers machine off ∧
      (row.nargs ≠ fast → Sees errMap (run call machine).1 after.machine)

/-- A system call is made as it should be. -/
def CallRight (table : Table) (run : Call → Machine → BitVec 32 × Machine)
    (machine : Machine) : Prop :=
  match table.rows[table.number machine.regs.eax]? with
  | none =>
      (lcall7 table run machine).calls = [] ∧
        (lcall7 table run machine).machine =
          setError machine (iABIErrors table.errMap einval)
  | some row =>
      row.syscall ≠ .none →
        Called table.errMap run machine row 1 (lcall7 table run machine)

/-- The number is in the table and not that of `mmap64` of UnixWare 7, and for
the two rows of UnixWare 7 that pass words for the registers, the first word
happens to be the address of the registers. -/
def CallMeets (table : Table) (machine : Machine) : Prop :=
  let number := table.number machine.regs.eax
  number < table.rows.length ∧
    ¬ (table = .uw7 ∧ number = 223) ∧
    (table = .uw7 ∧ (number = 132 ∨ number = 133) →
      machine.stackWord 1 0 = machine.regsAddr)

/-! ## Results -/

theorem isErr_iff (result : BitVec 32) :
    isErr result = true ↔ -4095 ≤ result.toInt ∧ result.toInt ≤ -1 := by
  have hbound : result.toNat < 4294967296 := result.isLt
  have hfloor : (0xfffff000 : BitVec 32).toNat = 4294963200 := rfl
  rw [isErr]
  rw [decide_eq_true_iff, BitVec.lt_def, BitVec.toInt_eq_toNat_cond, hfloor]
  split <;> omega

theorem toInt_neg_of_isErr {result : BitVec 32} (herr : isErr result = true) :
    (-result).toInt = -result.toInt := by
  have hrange := (isErr_iff result).mp herr
  rw [BitVec.toInt_neg, Int.bmod_eq_of_le] <;> omega

theorem sees_formatResult (errMap : List Segment)
    (result : BitVec 32 × Machine) :
    Sees errMap result.1 (formatResult errMap result) := by
  rw [Sees, formatResult]
  by_cases herr : isErr result.1 = true
  · rw [if_pos ((isErr_iff result.1).mp herr), if_pos herr,
      toInt_neg_of_isErr herr]
    exact ⟨by simp [setError], rfl⟩
  · rw [if_neg (mt (isErr_iff result.1).mpr herr), if_neg herr]
    exact ⟨by simp [setResult], rfl⟩

/-! ## Rows -/

/-- The row passes what the function that it names takes. -/
def Row.conforms (row : Row) : Bool :=
  row.nargs ≠ unimpl &&
    match row.syscall with
    | .none => false
    | .linux _ => true
    | .callee callee =>
        match callee.parameters with
        | .words count => count ≤ 6 && row.nargs ≤ 6
        | .registers => row.nargs = fast || row.nargs = spl

/-- The rows of UnixWare 7 that do not pass what their function takes. -/
def misfits : List (ℕ × Row) := [
  (132, ⟨.callee .svr4Getpmsg, 5⟩),
  (133, ⟨.callee .svr4Putpmsg, 5⟩),
  (223, ⟨.callee .uw7Mmap64, 7⟩)]

set_option maxRecDepth 8000 in
theorem uw7_rows_conform : ∀ entry ∈ uw7SyscallTable.zipIdx,
    entry.1.syscall = .none ∨ entry.1.conforms = true ∨
      (entry.2, entry.1) ∈ misfits := by
  decide

set_option maxRecDepth 8000 in
theorem sco_rows_conform : ∀ row ∈ scoSyscallTable,
    row.syscall = .none ∨ row.conforms = true := by
  decide

set_option maxRecDepth 8000 in
theorem cxenix_rows_conform : ∀ row ∈ cxenixTable,
    row.syscall = .none ∨ row.conforms = true := by
  decide

section Row

variable {errMap : List Segment} {run : Call → Machine → BitVec 32 × Machine}
variable {machine : Machine} {row : Row} {off : ℕ}

theorem called_callFormatted {call : Call} (htarget : call.target = row.syscall)
    (hdelivers : call.Delivers machine off) :
    Called errMap run machine row off
      (callFormatted errMap run call machine) :=
  ⟨call, rfl, htarget, hdelivers, fun _ => sees_formatResult errMap _⟩

theorem sixWords_getElem? {count index : ℕ} (hcount : count ≤ 6)
    (hindex : index < count) :
    (sixWords machine off)[index]? = some (machine.stackWord off index) := by
  have hsix : index < 6 := hindex.trans_le hcount
  simp [sixWords, hsix]

/-- A row that conforms is called as it should be. -/
theorem called_of_conforms (hconforms : row.conforms = true) :
    Called errMap run machine row off
      (lcall7Dispatch errMap run machine row off) := by
  rw [Row.conforms] at hconforms
  simp only [Bool.and_eq_true, decide_eq_true_eq] at hconforms
  have himplemented := hconforms.1
  have hpasses := hconforms.2
  rw [lcall7Dispatch]
  rw [if_neg himplemented]
  cases hsyscall : row.syscall with
  | none => simp [hsyscall] at hpasses
  | linux number =>
    exact called_callFormatted hsyscall.symm rfl
  | callee callee =>
    simp only [hsyscall] at hpasses
    dsimp only
    cases hparameters : callee.parameters with
    | words count =>
      simp only [hparameters, Bool.and_eq_true, decide_eq_true_eq] at hpasses
      rw [if_pos hpasses.2]
      apply called_callFormatted hsyscall.symm
      simp only [Call.Delivers, hparameters]
      exact ⟨hpasses.1, fun index hindex => sixWords_getElem? hpasses.1 hindex⟩
    | registers =>
      have hdelivers : (⟨.callee callee, [machine.regsAddr]⟩ : Call).Delivers
          machine off := by
        simp [Call.Delivers, hparameters]
      simp only [hparameters, Bool.or_eq_true, decide_eq_true_eq] at hpasses
      cases hpasses with
      | inl hfast =>
        rw [if_neg (by rw [hfast]; decide), if_pos hfast]
        exact ⟨_, rfl, hsyscall.symm, hdelivers, fun hnot => absurd hfast hnot⟩
      | inr hspl =>
        rw [if_neg (by rw [hspl]; decide), if_neg (by rw [hspl]; decide),
          if_pos hspl]
        exact called_callFormatted hsyscall.symm hdelivers

end Row

/-- A row at a number is empty, conforms or is one of the three. -/
theorem row_cases {table : Table} {number : ℕ} {row : Row}
    (hrow : table.rows[number]? = some row) :
    row.syscall = .none ∨ row.conforms = true ∨
      table = .uw7 ∧ (number, row) ∈ misfits := by
  cases table with
  | uw7 =>
    have hmem : (row, number) ∈ uw7SyscallTable.zipIdx :=
      List.mem_zipIdx_iff_getElem?.mpr hrow
    apply (uw7_rows_conform _ hmem).imp_right
    exact Or.imp_right fun hmisfit => ⟨rfl, hmisfit⟩
  | sco =>
    apply (sco_rows_conform row (List.mem_of_getElem? hrow)).imp_right
    exact Or.inl
  | cxenix =>
    apply (cxenix_rows_conform row (List.mem_of_getElem? hrow)).imp_right
    exact Or.inl

set_option maxRecDepth 8000 in
/-- The number for an unknown call is not that of `EINVAL`, which is negated on
its way to the map. -/
theorem einval_lost (table : Table) (machine : Machine) :
    setError machine (iABIErrors table.errMap (-einval)) ≠
      setError machine (iABIErrors table.errMap einval) := by
  have hnumbers : BitVec.ofInt 32 (iABIErrors table.errMap (-einval)) ≠
      BitVec.ofInt 32 (iABIErrors table.errMap einval) := by
    cases table <;> decide
  intro heq
  exact hnumbers (congrArg (fun machine => machine.regs.eax) heq)

set_option maxRecDepth 2000 in
theorem misfit_rows :
    uw7SyscallTable[132]? = some ⟨.callee .svr4Getpmsg, 5⟩ ∧
      uw7SyscallTable[133]? = some ⟨.callee .svr4Putpmsg, 5⟩ ∧
      uw7SyscallTable[223]? = some ⟨.callee .uw7Mmap64, 7⟩ :=
  ⟨rfl, rfl, rfl⟩

theorem misfit_at {row : Row} {number : ℕ}
    (hnumber : number = 132 ∨ number = 133 ∨ number = 223)
    (hrow : uw7SyscallTable[number]? = some row) : (number, row) ∈ misfits := by
  rcases hnumber with rfl | rfl | rfl
  · rw [misfit_rows.1, Option.some.injEq] at hrow
    simp [← hrow, misfits]
  · rw [misfit_rows.2.1, Option.some.injEq] at hrow
    simp [← hrow, misfits]
  · rw [misfit_rows.2.2, Option.some.injEq] at hrow
    simp [← hrow, misfits]

theorem lcall7_of_row {table : Table}
    {run : Call → Machine → BitVec 32 × Machine} {machine : Machine} {row : Row}
    (hrow : table.rows[table.number machine.regs.eax]? = some row) :
    lcall7 table run machine =
      lcall7Dispatch table.errMap run machine row 1 := by
  rw [lcall7]
  rw [hrow]

/-- The registers are passed where words are: right only if the first word is
their address. -/
theorem called_pmsg_iff {errMap : List Segment}
    {run : Call → Machine → BitVec 32 × Machine} {machine : Machine} {row : Row}
    {callee : Callee} (hrow : row = ⟨.callee callee, 5⟩)
    (hparameters : callee.parameters = .registers) :
    Called errMap run machine row 1
        (lcall7Dispatch errMap run machine row 1) ↔
      machine.stackWord 1 0 = machine.regsAddr := by
  subst hrow
  have hcalls : lcall7Dispatch errMap run machine ⟨.callee callee, 5⟩ 1 =
      callFormatted errMap run ⟨.callee callee, sixWords machine 1⟩ machine :=
    rfl
  have hdelivers : (⟨.callee callee, sixWords machine 1⟩ : Call).Delivers
      machine 1 ↔ machine.stackWord 1 0 = machine.regsAddr := by
    simp [Call.Delivers, hparameters, sixWords, List.range_succ]
  rw [hcalls, ← hdelivers]
  constructor
  · intro hcalled
    obtain ⟨call, hcall, -, hright, -⟩ := hcalled
    have heq : ⟨.callee callee, sixWords machine 1⟩ = call :=
      List.head_eq_of_cons_eq hcall
    rwa [heq]
  · exact called_callFormatted rfl

theorem not_called_mmap64 {errMap : List Segment}
    {run : Call → Machine → BitVec 32 × Machine} {machine : Machine} :
    ¬ Called errMap run machine ⟨.callee .uw7Mmap64, 7⟩ 1
      (lcall7Dispatch errMap run machine ⟨.callee .uw7Mmap64, 7⟩ 1) := by
  intro hcalled
  obtain ⟨call, hcall, -⟩ := hcalled
  cases hcall

theorem called_iff {table : Table} {number : ℕ}
    {run : Call → Machine → BitVec 32 × Machine} {machine : Machine} {row : Row}
    (hrow : table.rows[number]? = some row) :
    (row.syscall ≠ .none → Called table.errMap run machine row 1
        (lcall7Dispatch table.errMap run machine row 1)) ↔
      ¬ (table = .uw7 ∧ number = 223) ∧
        (table = .uw7 ∧ (number = 132 ∨ number = 133) →
          machine.stackWord 1 0 = machine.regsAddr) := by
  by_cases hmisfit : table = .uw7 ∧ (number, row) ∈ misfits
  · obtain ⟨rfl, hmem⟩ := hmisfit
    simp only [misfits, List.mem_cons, Prod.mk.injEq, List.not_mem_nil,
      or_false] at hmem
    rcases hmem with ⟨rfl, rfl⟩ | ⟨rfl, rfl⟩ | ⟨rfl, rfl⟩
    · simp [@called_pmsg_iff _ _ _ _ .svr4Getpmsg rfl rfl]
    · simp [@called_pmsg_iff _ _ _ _ .svr4Putpmsg rfl rfl]
    · simp [not_called_mmap64]
  · have helsewhere : ∀ n, n = 132 ∨ n = 133 ∨ n = 223 →
        ¬ (table = .uw7 ∧ number = n) := by
      rintro n hn ⟨rfl, rfl⟩
      exact hmisfit ⟨rfl, misfit_at hn hrow⟩
    constructor
    · intro _
      refine ⟨helsewhere 223 (by simp), fun hnumber => ?_⟩
      cases hnumber.2 with
      | inl hget => exact absurd ⟨hnumber.1, hget⟩ (helsewhere 132 (by simp))
      | inr hput => exact absurd ⟨hnumber.1, hput⟩ (helsewhere 133 (by simp))
    · intro _ hsome
      rcases row_cases hrow with hnone | hconforms | hbad
      · exact absurd hnone hsome
      · exact called_of_conforms hconforms
      · exact absurd hbad hmisfit

/-! ## System calls -/

/-- System calls are made as they should be exactly when the number is in the
table and its row is none of the three that do not pass what their function
takes, unless the words that such a row passes happen to begin with the address
of the registers. -/
theorem callRight_iff (table : Table)
    (run : Call → Machine → BitVec 32 × Machine) (machine : Machine) :
    CallRight table run machine ↔ CallMeets table machine := by
  rw [CallRight, CallMeets]
  cases hrow : table.rows[table.number machine.regs.eax]? with
  | none =>
    have hout := List.getElem?_eq_none_iff.mp hrow
    constructor
    · intro hright
      rw [lcall7] at hright
      rw [hrow] at hright
      exact absurd hright.2 (einval_lost table machine)
    · intro hmeets
      exact absurd hmeets.1 hout.not_gt
  | some row =>
    have hin : table.number machine.regs.eax < table.rows.length :=
      (List.getElem?_eq_some_iff.mp hrow).1
    dsimp only
    rw [lcall7_of_row hrow, called_iff hrow, and_iff_right hin]

/-- `mmap64` of UnixWare 7 is never called. -/
theorem callRight_mmap64 :
    ¬ CallRight .uw7 (fun _ machine => (0, machine))
      ⟨⟨223, 0, 0x8047000⟩, 0xbffff000, fun _ => 0⟩ := by
  have hrow : Table.uw7.rows[Table.uw7.number 223]? =
      some ⟨.callee .uw7Mmap64, 7⟩ := by
    exact misfit_rows.2.2
  intro hright
  rw [CallRight] at hright
  rw [hrow] at hright
  exact not_called_mmap64 (hright (by decide))

end IbcsUs.Sysent
