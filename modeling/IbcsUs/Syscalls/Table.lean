import Mathlib.Data.BitVec
import Mathlib.Data.Nat.Cast.Order.Ring
import Mathlib.Order.Nat
import Mathlib.Tactic.IntervalCases

/-!
# The table of system calls

`linux26_syscall` hands a Linux system call to the kernel, through a handler where
`linux26_syscall_tab` has one.  Handlers give the kernel the name that `filemap_map`
makes of a name; a call without a handler gets the caller's words as they are.  What
`filemap_map` makes of a name, and which names and descriptors belong to a
registered character device, are parameters.
-/

namespace IbcsUs.Syscalls

/-- An argument handed to the kernel: a word of the caller's, or the address of a
buffer of the emulator's that holds a name. -/
inductive SysArg where
  | word (value : BitVec 32)
  | buffer (name : List Char)
  deriving DecidableEq

/-- A request made to the kernel. -/
structure Request where
  number : ℕ
  args : List SysArg
  deriving DecidableEq

/-- What a handler ends in. -/
inductive Outcome where
  /-- The emulator has answered the call itself. -/
  | answered
  | request (request : Request)
  deriving DecidableEq

/-! ## Linux system calls on i386 -/

def nrRead : ℕ := 3
def nrWrite : ℕ := 4
def nrOpen : ℕ := 5
def nrClose : ℕ := 6
def nrCreat : ℕ := 8
def nrLink : ℕ := 9
def nrUnlink : ℕ := 10
def nrExecve : ℕ := 11
def nrChdir : ℕ := 12
def nrMknod : ℕ := 14
def nrChmod : ℕ := 15
def nrOldfstat : ℕ := 28
def nrUtime : ℕ := 30
def nrAccess : ℕ := 33
def nrMkdir : ℕ := 39
def nrRmdir : ℕ := 40
def nrDup : ℕ := 41
def nrBrk : ℕ := 45
def nrSignal : ℕ := 48
def nrChroot : ℕ := 61
def nrDup2 : ℕ := 63
def nrSigaction : ℕ := 67
def nrSymlink : ℕ := 83
def nrOldlstat : ℕ := 84
def nrReadlink : ℕ := 85
def nrStat : ℕ := 106
def nrLstat : ℕ := 107
def nrFstat : ℕ := 108
def nrRtSigaction : ℕ := 174
def nrChown : ℕ := 182
def nrStat64 : ℕ := 195
def nrLstat64 : ℕ := 196
def nrFstat64 : ℕ := 197

/-- The calls whose first argument is a name. -/
def firstArgCalls : List ℕ :=
  [5, 8, 9, 10, 11, 12, 14, 15, 16, 18, 21, 22, 30, 33, 38, 39, 40, 51, 52, 61,
    84, 85, 86, 87, 92, 99, 106, 107, 115, 182, 193, 195, 196, 198, 212, 217,
    226, 227, 229, 230, 232, 233, 235, 236, 268, 271]

/-- The calls whose second argument is a name.  The first argument of `symlink` is
the text of the link and is not looked up. -/
def secondArgCalls : List ℕ :=
  [9, 21, 38, 83, 131, 217, 292, 295, 296, 297, 298, 299, 300, 301, 302, 303,
    305, 306, 307, 320, 341, 353, 358, 383]

/-- The calls whose third or fourth argument is a name. -/
def laterArgCalls : List (ℕ × ℕ) := [(302, 3), (303, 3), (304, 2), (353, 3)]

/-- Whether an argument of a call is a name. -/
def isPathArg (number index : ℕ) : Bool :=
  match index with
  | 0 => number ∈ firstArgCalls
  | 1 => number ∈ secondArgCalls
  | _ => (number, index) ∈ laterArgCalls

/-- How many arguments a call takes, for the calls whose handlers pass them one by
one; for the others all six words count. -/
def arity (number : ℕ) : ℕ :=
  if number = nrClose ∨ number = nrDup then 1
  else if number = nrCreat ∨ number = nrLink ∨ number = nrDup2 ∨
    number = nrFstat then 2
  else if number = nrRead ∨ number = nrWrite ∨ number = nrOpen then 3
  else 6

theorem arity_le (number : ℕ) : arity number ≤ 6 := by
  rw [arity]
  split_ifs <;> omega

/-- An argument as the kernel reads it. -/
inductive KernelArg where
  | word (value : BitVec 32)
  | name (name : List Char)
  deriving DecidableEq

/-! ## Handlers -/

/-- The entries of `linux26_syscall_tab`. -/
inductive Handler where
  | read
  | write
  | open
  | close
  | creat
  | link
  | mapA1Fname
  | stat
  | access
  | dup
  | brk
  | signal
  | rtSigaction
  | fstat
  deriving DecidableEq

/-- `linux26_syscall_tab`. -/
def linux26SyscallTab : List (ℕ × Handler) :=
  [(nrRead, .read), (nrWrite, .write), (nrOpen, .open), (nrClose, .close),
    (nrCreat, .creat), (nrLink, .link), (nrUnlink, .mapA1Fname),
    (nrExecve, .mapA1Fname), (nrChdir, .mapA1Fname), (nrMknod, .mapA1Fname),
    (nrChmod, .stat), (nrChown, .access), (nrOldfstat, .stat), (nrDup, .dup),
    (nrBrk, .brk), (nrSignal, .signal), (nrOldlstat, .stat), (nrDup2, .dup),
    (nrSigaction, .rtSigaction), (nrStat, .stat), (nrLstat, .stat),
    (nrFstat, .fstat), (nrRtSigaction, .rtSigaction)]

section Calls

-- the caller's memory read as strings, and the loaded map
variable (strings : BitVec 32 → List Char) (filemapMap : List Char → List Char)
-- names that `find_chrdev` knows, and descriptors with a device's operations
variable (isDevice : List Char → Bool) (isDeviceFd : BitVec 32 → Bool)
variable (number : ℕ) (args : ℕ → BitVec 32)

/-- The name `filemap_map` makes of the string an argument points to. -/
def mappedArg (index : ℕ) : List Char := filemapMap (strings (args index))

/-- `linux26_read` and `linux26_write`. -/
def linux26Transfer : Outcome :=
  if isDeviceFd (args 0) then .answered
  else .request ⟨number, [.word (args 0), .word (args 1), .word (args 2)]⟩

/-- `linux26_open`. -/
def linux26Open : Outcome :=
  let mapped := mappedArg strings filemapMap args 0
  if isDevice mapped then .answered
  else .request ⟨nrOpen, [.buffer mapped, .word (args 1), .word (args 2)]⟩

/-- `linux26_creat`. -/
def linux26Creat : Outcome :=
  let mapped := mappedArg strings filemapMap args 0
  if isDevice mapped then .answered
  else .request ⟨nrCreat, [.buffer mapped, .word (args 1)]⟩

/-- `linux26_link`. -/
def linux26Link : Outcome :=
  .request ⟨number, [.buffer (mappedArg strings filemapMap args 0),
    .buffer (mappedArg strings filemapMap args 1)]⟩

/-- `linux26_map_a1_fname`. -/
def linux26MapA1Fname : Outcome :=
  .request ⟨number, .buffer (mappedArg strings filemapMap args 0) ::
    [1, 2, 3, 4, 5].map fun index => .word (args index)⟩

/-- `linux26_dup`. -/
def linux26Dup : Outcome :=
  .request ⟨number, [.word (args 0),
    .word (if number = nrDup2 then args 1 else -1)]⟩

/-- `linux26_access`. -/
def linux26Access : Outcome :=
  let mapped := mappedArg strings filemapMap args 0
  if isDevice mapped then .answered
  else .request ⟨nrAccess, [.buffer mapped, .word (args 1)]⟩

/-- `linux26_stat`. -/
def linux26Stat : Outcome :=
  let mapped := mappedArg strings filemapMap args 0
  if isDevice mapped then
    .request ⟨nrStat64, [.buffer "/dev".toList, .word (args 1)]⟩
  else .request ⟨nrStat64, [.buffer mapped, .word (args 1)]⟩

/-- A handler's request.  The break and the signal dispositions are kept by the
emulator. -/
def runHandler : Handler → Outcome
  | .read => linux26Transfer isDeviceFd nrRead args
  | .write => linux26Transfer isDeviceFd nrWrite args
  | .open => linux26Open strings filemapMap isDevice args
  | .close => .request ⟨nrClose, [.word (args 0)]⟩
  | .creat => linux26Creat strings filemapMap isDevice args
  | .link => linux26Link strings filemapMap number args
  | .mapA1Fname => linux26MapA1Fname strings filemapMap number args
  | .stat => linux26Stat strings filemapMap isDevice args
  | .access => linux26Access strings filemapMap isDevice args
  | .dup => linux26Dup number args
  | .fstat => .request ⟨nrFstat64, [.word (args 0), .word (args 1)]⟩
  | .brk | .signal | .rtSigaction => .answered

/-- `linux26_syscall` with six words of arguments. -/
def linux26Syscall : Outcome :=
  match linux26SyscallTab.lookup number with
  | none =>
      .request ⟨number, (List.range 6).map fun index => .word (args index)⟩
  | some handler =>
      runHandler strings filemapMap isDevice isDeviceFd number args handler

/-! ## What a call is meant to be -/

/-- What the kernel reads as an argument of a request. -/
def Request.kernelArg (request : Request) (index : ℕ) : Option KernelArg :=
  request.args[index]?.map fun
    | .buffer name => .name name
    | .word value =>
        if isPathArg request.number index then .name (strings value)
        else .word value

/-- What the kernel should read: the image of a name, and every other argument as it
is. -/
def intendedArg (index : ℕ) : KernelArg :=
  if isPathArg number index then .name (mappedArg strings filemapMap args index)
  else .word (args index)

/-- The calls that the emulator answers itself. -/
def AnsweredItself : Prop :=
  number ∈ [nrBrk, nrSignal, nrSigaction, nrRtSigaction] ∨
    number ∈ [nrOpen, nrCreat, nrStat, nrLstat, nrOldlstat] ∧
      isDevice (mappedArg strings filemapMap args 0) ∨
    number ∈ [nrRead, nrWrite, nrFstat] ∧ isDeviceFd (args 0)

/-- The request made is the call itself, with its names mapped. -/
def HandsOn : Prop :=
  ∃ request, linux26Syscall strings filemapMap isDevice isDeviceFd number args =
      .request request ∧ request.number = number ∧
    ∀ index < arity number, request.kernelArg strings index =
      some (intendedArg strings filemapMap number args index)

def SyscallRight : Prop :=
  AnsweredItself strings filemapMap isDevice isDeviceFd number args ∨
    HandsOn strings filemapMap isDevice isDeviceFd number args

/-- The calls whose handler makes another call of them. -/
def otherCalls : List ℕ :=
  [nrChmod, nrChown, nrOldfstat, nrOldlstat, nrStat, nrLstat, nrFstat]

/-- The condition on a call: its handler does not make another one of it; where it
has no handler, its names are their own images. -/
def SyscallMeets : Prop :=
  AnsweredItself strings filemapMap isDevice isDeviceFd number args ∨
    number ∉ otherCalls ∧
      (linux26SyscallTab.lookup number = none → ∀ index < arity number,
        isPathArg number index →
          mappedArg strings filemapMap args index = strings (args index))

/-! ## When a call reaches the kernel as itself -/

/-- A call without a handler. -/
theorem syscallRight_of_lookup_none
    (hlookup : linux26SyscallTab.lookup number = none) :
    SyscallRight strings filemapMap isDevice isDeviceFd number args ↔
      SyscallMeets strings filemapMap isDevice isDeviceFd number args := by
  have hother : number ∉ otherCalls := by
    intro hmem
    have hhandled :
        ∀ other ∈ otherCalls, linux26SyscallTab.lookup other ≠ none := by
      decide
    exact hhandled number hmem hlookup
  have harg (index : ℕ) (hindex : index < arity number) :
      Request.kernelArg strings
          ⟨number, (List.range 6).map fun index => .word (args index)⟩ index =
        some (intendedArg strings filemapMap number args index) ↔
      (isPathArg number index →
        mappedArg strings filemapMap args index = strings (args index)) := by
    have hlt : index < 6 := hindex.trans_le (arity_le number)
    simp only [Request.kernelArg, List.getElem?_map, List.getElem?_range hlt,
      Option.map_some, intendedArg, Option.some.injEq]
    by_cases hpath : isPathArg number index <;> simp [hpath, eq_comm]
  rw [SyscallRight, SyscallMeets, HandsOn, linux26Syscall]
  rw [hlookup]
  refine or_congr_right ?_
  constructor
  · rintro ⟨request, hrequest, -, hargs⟩
    obtain rfl := Outcome.request.inj hrequest
    exact ⟨hother, fun _ index hindex => (harg index hindex).1
      (hargs index hindex)⟩
  · rintro ⟨-, himages⟩
    exact ⟨_, rfl, rfl, fun index hindex =>
      (harg index hindex).2 (himages rfl index hindex)⟩

theorem linux26Stat_number {request : Request}
    (hrequest : linux26Stat strings filemapMap isDevice args =
      .request request) :
    request.number = nrStat64 := by
  simp only [linux26Stat] at hrequest
  split_ifs at hrequest
  all_goals
    obtain rfl := Outcome.request.inj hrequest
    rfl

theorem linux26Access_number {request : Request}
    (hrequest : linux26Access strings filemapMap isDevice args =
      .request request) :
    request.number = nrAccess := by
  simp only [linux26Access] at hrequest
  split_ifs at hrequest
  obtain rfl := Outcome.request.inj hrequest
  rfl

/-- The handlers of these calls make another call of them. -/
theorem number_ne_of_mem_otherCalls (hother : number ∈ otherCalls)
    {request : Request}
    (hrequest : linux26Syscall strings filemapMap isDevice isDeviceFd number
      args = .request request) : request.number ≠ number := by
  simp only [otherCalls, List.mem_cons, List.not_mem_nil, or_false] at hother
  rcases hother with rfl | rfl | rfl | rfl | rfl | rfl | rfl
  -- chown is handled by `linux26_access`, fstat by `linux26_fstat`
  case inr.inl =>
    rw [linux26Access_number strings filemapMap isDevice args hrequest]
    decide
  case inr.inr.inr.inr.inr.inr =>
    rw [← Outcome.request.inj hrequest]
    change nrFstat64 ≠ nrFstat
    decide
  all_goals
    rw [linux26Stat_number strings filemapMap isDevice args hrequest]
    decide

/-- `linux26_read` and `linux26_write` hand on the call. -/
theorem handsOn_transfer (hnumber : number = nrRead ∨ number = nrWrite)
    (hfd : ¬ isDeviceFd (args 0)) :
    HandsOn strings filemapMap isDevice isDeviceFd number args := by
  rcases hnumber with rfl | rfl
  all_goals
    refine ⟨_, if_neg hfd, rfl, fun index hindex => ?_⟩
    change index < 3 at hindex
    interval_cases index <;> rfl

/-- `linux26_open` and `linux26_creat` hand on the call. -/
theorem handsOn_create (hnumber : number = nrOpen ∨ number = nrCreat)
    (hname : ¬ isDevice (mappedArg strings filemapMap args 0)) :
    HandsOn strings filemapMap isDevice isDeviceFd number args := by
  rcases hnumber with rfl | rfl
  · refine ⟨_, if_neg hname, rfl, fun index hindex => ?_⟩
    change index < 3 at hindex
    interval_cases index <;> rfl
  · refine ⟨_, if_neg hname, rfl, fun index hindex => ?_⟩
    change index < 2 at hindex
    interval_cases index <;> rfl

/-- `linux26_map_a1_fname` hands on the call. -/
theorem handsOn_mapA1Fname
    (hnumber : number ∈ [nrUnlink, nrExecve, nrChdir, nrMknod]) :
    HandsOn strings filemapMap isDevice isDeviceFd number args := by
  simp only [List.mem_cons, List.not_mem_nil, or_false] at hnumber
  rcases hnumber with rfl | rfl | rfl | rfl
  all_goals
    refine ⟨_, rfl, rfl, fun index hindex => ?_⟩
    change index < 6 at hindex
    interval_cases index <;> rfl

/-- `linux26_close`, `linux26_link` and `linux26_dup` hand on the call. -/
theorem handsOn_always (hnumber : number ∈ [nrClose, nrLink, nrDup, nrDup2]) :
    HandsOn strings filemapMap isDevice isDeviceFd number args := by
  simp only [List.mem_cons, List.not_mem_nil, or_false] at hnumber
  rcases hnumber with rfl | rfl | rfl | rfl
  all_goals refine ⟨_, rfl, rfl, fun index hindex => ?_⟩
  · change index < 1 at hindex
    interval_cases index
    rfl
  · change index < 2 at hindex
    interval_cases index <;> rfl
  · change index < 1 at hindex
    interval_cases index
    rfl
  · change index < 2 at hindex
    interval_cases index <;> rfl

/-- Every call with a handler is one of these. -/
theorem handled_cases (hlookup : linux26SyscallTab.lookup number ≠ none) :
    number ∈ otherCalls ∨
      number ∈ [nrBrk, nrSignal, nrSigaction, nrRtSigaction] ∨
      (number = nrRead ∨ number = nrWrite) ∨
        (number = nrOpen ∨ number = nrCreat) ∨
      number ∈ [nrUnlink, nrExecve, nrChdir, nrMknod] ∨
      number ∈ [nrClose, nrLink, nrDup, nrDup2] := by
  obtain ⟨handler, hsome⟩ := Option.ne_none_iff_exists'.1 hlookup
  obtain ⟨front, back, hsplit, -⟩ := List.lookup_eq_some_iff.1 hsome
  have hmem : number ∈ linux26SyscallTab.map Prod.fst := by
    rw [hsplit]
    simp
  revert hmem
  simp only [linux26SyscallTab, otherCalls, List.map_cons, List.map_nil,
    List.mem_cons, List.not_mem_nil, or_false]
  tauto

/-- The other handlers hand on the call, its names mapped. -/
theorem handsOn_of_lookup (hlookup : linux26SyscallTab.lookup number ≠ none)
    (hother : number ∉ otherCalls)
    (hitself : ¬ AnsweredItself strings filemapMap isDevice isDeviceFd number
      args) :
    HandsOn strings filemapMap isDevice isDeviceFd number args := by
  rcases handled_cases number hlookup with
    hmem | hmem | hmem | hmem | hmem | hmem
  · exact absurd hmem hother
  · exact absurd (.inl hmem) hitself
  · refine handsOn_transfer _ _ _ _ _ _ hmem fun hfd =>
      hitself (.inr (.inr ⟨?_, hfd⟩))
    rcases hmem with rfl | rfl <;> decide
  · refine handsOn_create _ _ _ _ _ _ hmem
      fun hname => hitself (.inr (.inl ⟨?_, hname⟩))
    rcases hmem with rfl | rfl <;> decide
  · exact handsOn_mapA1Fname _ _ _ _ _ _ hmem
  · exact handsOn_always _ _ _ _ _ _ hmem

end Calls

/-- A system call reaches the kernel as itself, with its names mapped, exactly when
its handler is not that of another call, and, where it has none, its names are their
own images. -/
theorem linux26Syscall_right_iff (strings : BitVec 32 → List Char)
    (filemapMap : List Char → List Char) (isDevice : List Char → Bool)
    (isDeviceFd : BitVec 32 → Bool) (number : ℕ) (args : ℕ → BitVec 32) :
    SyscallRight strings filemapMap isDevice isDeviceFd number args ↔
      SyscallMeets strings filemapMap isDevice isDeviceFd number args := by
  cases hlookup : linux26SyscallTab.lookup number with
  | none => exact syscallRight_of_lookup_none _ _ _ _ _ _ hlookup
  | some handler =>
      by_cases hitself :
          AnsweredItself strings filemapMap isDevice isDeviceFd number args
      · exact iff_of_true (.inl hitself) (.inl hitself)
      by_cases hother : number ∈ otherCalls
      · refine iff_of_false ?_ ?_
        · rintro (hanswered | ⟨request, hrequest, hnumber, -⟩)
          · exact hitself hanswered
          · exact number_ne_of_mem_otherCalls _ _ _ _ _ _ hother hrequest
              hnumber
        · rintro (hanswered | ⟨hnot, -⟩)
          · exact hitself hanswered
          · exact hnot hother
      · refine iff_of_true (.inr ?_) (.inr ⟨hother, ?_⟩)
        · exact handsOn_of_lookup _ _ _ _ _ _ (by simp [hlookup]) hother hitself
        · simp [hlookup]

/-- `chmod` asks the kernel to look at the file. -/
theorem chmod_reaches_kernel_as_stat :
    ¬ SyscallRight (fun _ => "/etc/motd".toList) id (fun _ => false)
        (fun _ => false) nrChmod
        (fun index => if index = 1 then 0o644 else 0) := by
  rintro (hitself | ⟨request, hrequest, hnumber, -⟩)
  · rcases hitself with hitself | hitself | hitself
    · exact absurd hitself (by decide)
    · exact absurd hitself.1 (by decide)
    · exact absurd hitself.1 (by decide)
  · exact number_ne_of_mem_otherCalls _ _ _ _ _ _ (by decide) hrequest hnumber

end IbcsUs.Syscalls
