import IbcsUs.Syscalls.Table

/-!
# The names of an SCO program

The calls of `sco_syscall_table` that name a file, from the table down to the kernel.
Some are passed on by number, the others go through a function that makes a call of
its own.  All of them should give the kernel the name that `filemap_map` makes of
the program's.
-/

namespace IbcsUs.Syscalls

/-- The entries of `sco_syscall_table` for the calls that name a file: a Linux call
by number, or a function. -/
inductive ScoEntry where
  | kernel (number : ℕ)
  | svr4Open
  | abiExec
  | svr4Mknod
  | svr4Stat
  | abiUtime
  | svr4Statfs
  | abiMkdir
  | svr4Lstat
  deriving DecidableEq

/-- `sco_syscall_table`, for the calls that name a file. -/
def scoSyscallTable : List (ℕ × ScoEntry) :=
  [(5, .svr4Open), (8, .kernel nrCreat), (9, .kernel nrLink),
    (10, .kernel nrUnlink), (11, .abiExec), (12, .kernel nrChdir),
    (14, .svr4Mknod), (15, .kernel nrChmod), (16, .kernel nrChown),
    (18, .svr4Stat), (30, .abiUtime), (33, .kernel nrAccess), (35, .svr4Statfs),
    (59, .abiExec), (61, .kernel nrChroot), (79, .kernel nrRmdir),
    (80, .abiMkdir), (90, .kernel nrSymlink), (91, .svr4Lstat),
    (92, .kernel nrReadlink)]

/-- Which arguments of a call of the table are names. -/
def scoNameArgs (number : ℕ) : List ℕ :=
  if number = 9 then [0, 1] else if number = 90 then [1] else [0]

/-- The size of `struct svr4_statfs`. -/
def sizeofSvr4Statfs : ℤ := 40

section Routes

variable (strings : BitVec 32 → List Char) (filemapMap : List Char → List Char)
variable (isDevice : List Char → Bool) (isDeviceFd : BitVec 32 → Bool)
-- the flags and the device number as Linux has them, and the emulator's own buffers
variable (mapFlags mapDev : BitVec 32 → BitVec 32) (st64 : BitVec 32)
variable (args : ℕ → BitVec 32)

/-- `SYS(name, ...)`. -/
def sys (number : ℕ) (words : List (BitVec 32)) : Outcome :=
  linux26Syscall strings filemapMap isDevice isDeviceFd number
    fun index => words.getD index 0

/-- `vfs_stat`. -/
def vfsStat (name : BitVec 32) : Outcome :=
  .request ⟨nrStat64, [.buffer (filemapMap (strings name)), .word st64]⟩

/-- `vfs_lstat`. -/
def vfsLstat (name : BitVec 32) : Outcome :=
  .request ⟨nrLstat64, [.buffer (filemapMap (strings name)), .word st64]⟩

/-- `abi_mkdir`. -/
def abiMkdir (fname mode : BitVec 32) : Outcome :=
  sys strings filemapMap isDevice isDeviceFd nrMkdir [fname, mode]

/-- The low 16 bits of a word, `svr4_o_mode_t`. -/
def shortWord (word : BitVec 32) : BitVec 32 := word &&& 0xffff

/-- Whether `mknod` is asked for a directory. -/
def wantsDirectory (mode : BitVec 32) : Bool :=
  shortWord mode &&& 0o170000 = 0o040000

/-- `svr4_mknod`. -/
def svr4Mknod (filename mode dev : BitVec 32) : Outcome :=
  if wantsDirectory mode then
    abiMkdir strings filemapMap isDevice isDeviceFd filename (shortWord mode)
  else
    sys strings filemapMap isDevice isDeviceFd nrMknod
      [filename, shortWord mode, mapDev dev]

/-- What a function does with the name.  The kernel opens no socket by name, so that
`svr4_open` ends with its `open`; `svr4_statfs` looks at the file to find its mount,
unless it fails or answers from a fixed record. -/
def runEntry : ScoEntry → Outcome
  | .kernel number =>
      linux26Syscall strings filemapMap isDevice isDeviceFd number args
  | .svr4Open =>
      sys strings filemapMap isDevice isDeviceFd nrOpen
        [args 0, mapFlags (args 1), args 2]
  | .abiExec =>
      sys strings filemapMap isDevice isDeviceFd nrExecve
        [args 0, args 1, args 2]
  | .svr4Mknod =>
      svr4Mknod strings filemapMap isDevice isDeviceFd mapDev (args 0) (args 1)
        (args 2)
  | .svr4Stat => vfsStat strings filemapMap st64 (args 0)
  | .abiUtime =>
      sys strings filemapMap isDevice isDeviceFd nrUtime [args 0, args 1]
  | .svr4Statfs =>
      if (args 2).toInt > sizeofSvr4Statfs ∨ args 3 ≠ 0 then .answered
      else vfsStat strings filemapMap st64 (args 0)
  | .abiMkdir =>
      abiMkdir strings filemapMap isDevice isDeviceFd (args 0) (args 1)
  | .svr4Lstat => vfsLstat strings filemapMap st64 (args 0)

/-- A call of an SCO program. -/
def scoCall (number : ℕ) : Outcome :=
  match scoSyscallTable.lookup number with
  | none => .answered
  | some entry =>
      runEntry strings filemapMap isDevice isDeviceFd mapFlags mapDev st64 args
        entry

/-- The names that a request gives the kernel to look up. -/
def Request.names (request : Request) : List (List Char) :=
  (List.range 6).filterMap fun index =>
    if isPathArg request.number index then
      (request.kernelArg strings index).bind fun
        | .name name => some name
        | .word _ => none
    else none

/-- The kernel is given the mapped names of the call. -/
def NamesRight (number : ℕ) : Prop :=
  ∀ request,
    scoCall strings filemapMap isDevice isDeviceFd mapFlags mapDev
      st64 args number =
        .request request →
      request.names strings =
        (scoNameArgs number).map (mappedArg strings filemapMap args)

/-- The calls that hand on the name as it is. -/
def unmappedCalls : List ℕ := [30, 33, 61, 79, 80, 90, 92]

/-- The condition on a call: it is not one of those that hand on the name as it is,
or the name is its own image; `chmod` is not used on a registered device. -/
def NamesMeet (number : ℕ) : Prop :=
  (number ∈ unmappedCalls ∨ number = 14 ∧ wantsDirectory (args 1) →
    ∀ index ∈ scoNameArgs number,
      mappedArg strings filemapMap args index = strings (args index)) ∧
  (number = 15 → isDevice (mappedArg strings filemapMap args 0) →
    mappedArg strings filemapMap args 0 = "/dev".toList)

/-! ## What the kernel is given -/

theorem namesRight_of_request {number : ℕ} {request : Request}
    (hcall : scoCall strings filemapMap isDevice isDeviceFd mapFlags mapDev
      st64 args number = .request request)
    (hnames : request.names strings =
      (scoNameArgs number).map (mappedArg strings filemapMap args)) :
    NamesRight strings filemapMap isDevice isDeviceFd mapFlags mapDev st64 args
      number := by
  intro other hother
  rw [hcall] at hother
  obtain rfl := Outcome.request.inj hother
  exact hnames

theorem namesRight_iff_of_request {number : ℕ} {request : Request}
    (hcall : scoCall strings filemapMap isDevice isDeviceFd mapFlags mapDev
      st64 args number = .request request) :
    NamesRight strings filemapMap isDevice isDeviceFd mapFlags mapDev st64 args
        number ↔
      request.names strings =
        (scoNameArgs number).map (mappedArg strings filemapMap args) :=
  ⟨fun hright => hright request hcall,
    namesRight_of_request strings filemapMap isDevice isDeviceFd mapFlags mapDev
      st64 args hcall⟩

theorem namesRight_of_answered {number : ℕ}
    (hcall : scoCall strings filemapMap isDevice isDeviceFd mapFlags mapDev
      st64 args number = .answered) :
    NamesRight strings filemapMap isDevice isDeviceFd mapFlags mapDev st64 args
      number := by
  intro request hrequest
  rw [hcall] at hrequest
  cases hrequest

theorem namesRight_unmapped {number : ℕ} (hnumber : number ∈ unmappedCalls) :
    NamesRight strings filemapMap isDevice isDeviceFd mapFlags mapDev st64 args
        number ↔
      ∀ index ∈ scoNameArgs number,
        mappedArg strings filemapMap args index = strings (args index) := by
  simp only [unmappedCalls, List.mem_cons, List.not_mem_nil,
    or_false] at hnumber
  rcases hnumber with rfl | rfl | rfl | rfl | rfl | rfl | rfl
  all_goals
    rw [namesRight_iff_of_request strings filemapMap isDevice isDeviceFd
      mapFlags mapDev st64 args rfl]
  -- `symlink` names a file by its second argument, the others by their first
  case inr.inr.inr.inr.inr.inl =>
    change [strings (args 1)] = [mappedArg strings filemapMap args 1] ↔ _
    simp [scoNameArgs, eq_comm]
  all_goals
    change [strings (args 0)] = [mappedArg strings filemapMap args 0] ↔ _
    simp [scoNameArgs, eq_comm]

/-- `mknod` hands on the name as it is when it makes a directory. -/
theorem namesRight_mknod :
    NamesRight strings filemapMap isDevice isDeviceFd mapFlags mapDev
      st64 args 14 ↔
      (wantsDirectory (args 1) →
        mappedArg strings filemapMap args 0 = strings (args 0)) := by
  have hcall : scoCall strings filemapMap isDevice isDeviceFd mapFlags mapDev
      st64 args 14 = svr4Mknod strings filemapMap isDevice isDeviceFd mapDev (args 0)
        (args 1) (args 2) := rfl
  by_cases hdirectory : wantsDirectory (args 1)
  · rw [svr4Mknod, if_pos hdirectory] at hcall
    rw [namesRight_iff_of_request _ _ _ _ _ _ _ _ hcall]
    change [strings (args 0)] = [mappedArg strings filemapMap args 0] ↔ _
    simp [hdirectory, eq_comm]
  · rw [svr4Mknod, if_neg hdirectory] at hcall
    rw [namesRight_iff_of_request _ _ _ _ _ _ _ _ hcall]
    exact iff_of_true rfl fun hwants => absurd hwants hdirectory

/-- `chmod` is made a `stat`, of `/dev` when the name is that of a device. -/
theorem namesRight_chmod :
    NamesRight strings filemapMap isDevice isDeviceFd mapFlags mapDev
      st64 args 15 ↔
      (isDevice (mappedArg strings filemapMap args 0) →
        mappedArg strings filemapMap args 0 = "/dev".toList) := by
  have hcall : scoCall strings filemapMap isDevice isDeviceFd mapFlags mapDev
      st64 args 15 = linux26Stat strings filemapMap isDevice args := rfl
  by_cases hdevice : isDevice (mappedArg strings filemapMap args 0)
  · rw [linux26Stat, if_pos hdevice] at hcall
    rw [namesRight_iff_of_request _ _ _ _ _ _ _ _ hcall]
    change ["/dev".toList] = [mappedArg strings filemapMap args 0] ↔ _
    simp [hdevice, eq_comm]
  · rw [linux26Stat, if_neg hdevice] at hcall
    rw [namesRight_iff_of_request _ _ _ _ _ _ _ _ hcall]
    exact iff_of_true rfl fun hname => absurd hname hdevice

/-- `open`, `creat` and `chown` map the name, and answer for a device. -/
theorem namesRight_device {number : ℕ} (hnumber : number ∈ [5, 8, 16]) :
    NamesRight strings filemapMap isDevice isDeviceFd mapFlags mapDev st64 args
      number := by
  simp only [List.mem_cons, List.not_mem_nil, or_false] at hnumber
  by_cases hdevice : isDevice (mappedArg strings filemapMap args 0)
  · refine namesRight_of_answered _ _ _ _ _ _ _ _ ?_
    rcases hnumber with rfl | rfl | rfl <;> exact if_pos hdevice
  · rcases hnumber with rfl | rfl | rfl
    all_goals
      exact namesRight_of_request _ _ _ _ _ _ _ _ (if_neg hdevice) rfl

/-- `statfs` maps the name, when it looks at the file. -/
theorem namesRight_statfs :
    NamesRight strings filemapMap isDevice isDeviceFd mapFlags mapDev st64 args
      35 := by
  by_cases hfixed : (args 2).toInt > sizeofSvr4Statfs ∨ args 3 ≠ 0
  · exact namesRight_of_answered _ _ _ _ _ _ _ _ (if_pos hfixed)
  · exact namesRight_of_request _ _ _ _ _ _ _ _ (if_neg hfixed) rfl

/-- These calls map the name in any case. -/
theorem namesRight_mapped {number : ℕ}
    (hnumber : number ∈ [9, 10, 11, 12, 18, 59, 91]) :
    NamesRight strings filemapMap isDevice isDeviceFd mapFlags mapDev st64 args
      number := by
  simp only [List.mem_cons, List.not_mem_nil, or_false] at hnumber
  rcases hnumber with rfl | rfl | rfl | rfl | rfl | rfl | rfl
  all_goals exact namesRight_of_request _ _ _ _ _ _ _ _ rfl rfl

end Routes

/-- Every call number is one of these. -/
theorem scoNumber_cases (number : ℕ) :
    scoSyscallTable.lookup number = none ∨ number ∈ unmappedCalls ∨
      number = 14 ∨
      number = 15 ∨ number ∈ [5, 8, 16, 35, 9, 10, 11, 12, 18, 59, 91] := by
  by_cases hlookup : scoSyscallTable.lookup number = none
  · exact .inl hlookup
  obtain ⟨entry, hsome⟩ := Option.ne_none_iff_exists'.1 hlookup
  obtain ⟨front, back, hsplit, -⟩ := List.lookup_eq_some_iff.1 hsome
  have hmem : number ∈ scoSyscallTable.map Prod.fst := by
    rw [hsplit]
    simp
  revert hmem
  simp only [scoSyscallTable, unmappedCalls, List.map_cons, List.map_nil,
    List.mem_cons, List.not_mem_nil, or_false]
  tauto

theorem namesMeet_of_notMem (strings : BitVec 32 → List Char)
    (filemapMap : List Char → List Char) (isDevice : List Char → Bool)
    (args : ℕ → BitVec 32) {number : ℕ}
    (hnumber : number ∉ 14 :: 15 :: unmappedCalls) :
    NamesMeet strings filemapMap isDevice args number := by
  simp only [List.mem_cons, not_or] at hnumber
  obtain ⟨hmknod, hchmod, hunmapped⟩ := hnumber
  simp [NamesMeet, hmknod, hchmod, hunmapped]

end IbcsUs.Syscalls
