import Mathlib.Data.BitVec
import Mathlib.Data.Nat.Cast.Order.Ring
import Mathlib.Data.PNat.Defs
import Mathlib.Order.Nat

/-!
# Record locks

`fcntl` and the Xenix `locking` hand a lock to the kernel in the program's own
memory.  The program's structure and the kernel's have both sixteen bytes without
gaps; the kernel's process number of 32 bits lies where the program has a system
number and a process number of 16 bits each, and the kinds of a lock have different
numbers on all three sides.
-/

namespace IbcsUs.RecordLocks

/-! ## The structures -/

/-- `struct svr4_flock`, and `struct ibcs_flock`, which has the same fields. -/
structure Svr4Flock where
  lType : BitVec 16
  lWhence : BitVec 16
  lStart : BitVec 32
  lLen : BitVec 32
  lSysid : BitVec 16
  lPid : BitVec 16
  deriving DecidableEq

/-- The kernel's `struct flock`. -/
structure Flock where
  lType : BitVec 16
  lWhence : BitVec 16
  lStart : BitVec 32
  lLen : BitVec 32
  lPid : BitVec 32
  deriving DecidableEq

/-- The bytes of a kernel's structure, read as the program's. -/
def Flock.bytes (lock : Flock) : Svr4Flock where
  lType := lock.lType
  lWhence := lock.lWhence
  lStart := lock.lStart
  lLen := lock.lLen
  lSysid := lock.lPid.setWidth 16
  lPid := (lock.lPid >>> 16).setWidth 16

/-- The bytes of a program's structure, read as the kernel's. -/
def Svr4Flock.bytes (lock : Svr4Flock) : Flock where
  lType := lock.lType
  lWhence := lock.lWhence
  lStart := lock.lStart
  lLen := lock.lLen
  lPid := lock.lPid ++ lock.lSysid

@[simp]
theorem bytes_bytes (lock : Flock) : lock.bytes.bytes = lock := by
  have hpid : (lock.lPid >>> 16).setWidth 16 ++ lock.lPid.setWidth 16 =
      lock.lPid := by
    apply BitVec.eq_of_getLsbD_eq
    intro index hindex
    simp only [BitVec.getLsbD_append, BitVec.getLsbD_setWidth,
      BitVec.getLsbD_ushiftRight]
    grind
  simp only [Flock.bytes, Svr4Flock.bytes, hpid]

/-! ## Kinds of locks -/

inductive LockKind where
  | read
  | write
  | unlock
  deriving DecidableEq

/-- `F_RDLCK`, `F_WRLCK` and `F_UNLCK` of the kernel. -/
def LockKind.number : LockKind → BitVec 16
  | read => 0
  | write => 1
  | unlock => 2

/-- The kind of a kernel's lock. -/
def linuxKind (number : BitVec 16) : Option LockKind :=
  if number = 0 then some .read
  else if number = 1 then some .write
  else if number = 2 then some .unlock
  else none

/-- The kind of an SVR4 lock. -/
def svr4Kind (number : BitVec 16) : Option LockKind :=
  if number = 1 then some .read
  else if number = 2 then some .write
  else if number = 3 then some .unlock
  else none

/-- The kind of a Xenix lock: `XF_RDLCK`, `XF_WRLCK` and `XF_UNLCK`. -/
def xenixKind (number : BitVec 16) : Option LockKind :=
  if number = 3 then some .read
  else if number = 1 then some .write
  else if number = 0 then some .unlock
  else none

/-- The number of a Xenix lock. -/
def LockKind.xenix : LockKind → BitVec 16
  | read => 3
  | write => 1
  | unlock => 0

/-! ## The kernel's side -/

/-- `F_GETLK`, `F_SETLK` and `F_SETLKW`, numbered 5 to 7 on all sides. -/
inductive LockCommand where
  | getlk
  | setlk
  | setlkw
  deriving DecidableEq

/-- A lock the kernel knows. -/
structure KernelLock where
  kind : LockKind
  whence : BitVec 16
  start : BitVec 32
  len : BitVec 32
  pid : BitVec 32
  deriving DecidableEq

/-- The structure the kernel stores for a lock. -/
def KernelLock.flock (lock : KernelLock) : Flock :=
  ⟨lock.kind.number, lock.whence, lock.start, lock.len, lock.pid⟩

/-- The kernel's answer: it refuses, or it grants the request.  A granted `F_GETLK`
is answered by a lock, which the other commands do not ask for. -/
inductive LockAnswer where
  | refused (errno : ℕ+)
  | granted (lock : KernelLock)
  deriving DecidableEq

/-- What the call returns. -/
def LockAnswer.result : LockAnswer → ℤ
  | .refused errno => -(errno : ℕ)
  | .granted _ => 0

/-- The memory after the call. -/
def LockAnswer.stores (answer : LockAnswer) (cmd : LockCommand)
    (memory : Svr4Flock) : Svr4Flock :=
  match answer, cmd with
  | .granted lock, .getlk => lock.flock.bytes
  | _, _ => memory

/-- What a call of the program leads to: the request made of the kernel, the
program's structure afterwards, and the result. -/
structure LockOutcome where
  request : Option (LockCommand × Flock)
  memory : Svr4Flock
  result : ℤ
  deriving DecidableEq

def einval : ℤ := 22

/-! ## The emulator's side -/

/-- `svr4_fcntl_flock` up to the call of the kernel. -/
def flockToLinux (fl : Svr4Flock) : Flock where
  lType := fl.lType - 1
  lWhence := fl.lWhence
  lStart := fl.lStart
  lLen := fl.lLen
  lPid := fl.lPid.signExtend 32

/-- `svr4_fcntl_flock` from the call of the kernel on. -/
def flockToSvr4 (lock : Flock) : Svr4Flock where
  lType := lock.lType + 1
  lWhence := lock.lWhence
  lStart := lock.lStart
  lLen := lock.lLen
  lSysid := 0
  lPid := lock.lPid.setWidth 16

/-- `svr4_fcntl_flock`. -/
def svr4FcntlFlock (cmd : LockCommand) (fl : Svr4Flock) (answer : LockAnswer) :
    LockOutcome :=
  let memory := (flockToLinux fl).bytes
  let request := some (cmd, memory.bytes)
  let memory := answer.stores cmd memory
  if answer.result ≠ 0 then ⟨request, fl, answer.result⟩
  else ⟨request, flockToSvr4 memory.bytes, 0⟩

/-- The second switch of `xnx_locking`, which leaves other numbers alone. -/
def xenixType (number : BitVec 16) : BitVec 16 :=
  match linuxKind number with
  | some kind => kind.xenix
  | none => number

/-- `xnx_locking` in modes 5 to 7. -/
def xnxLocking (mode : LockCommand) (ifl : Svr4Flock) (answer : LockAnswer) :
    LockOutcome :=
  match xenixKind ifl.lType with
  | none => ⟨none, ifl, -einval⟩
  | some kind =>
      let memory := { ifl with lType := kind.number }
      let request := some (mode, memory.bytes)
      let memory := answer.stores mode memory
      let memory := { memory with lType := xenixType memory.lType }
      let memory := { memory with lPid := memory.lSysid, lSysid := 0 }
      ⟨request, memory, answer.result⟩

/-! ## Faithful requests -/

/-- The two functions. -/
inductive LockCall where
  | svr4FcntlFlock
  | xnxLocking
  deriving DecidableEq

/-- The kind of a lock of the program. -/
def LockCall.kind : LockCall → BitVec 16 → Option LockKind
  | .svr4FcntlFlock => svr4Kind
  | .xnxLocking => xenixKind

def LockCall.run : LockCall → LockCommand → Svr4Flock → LockAnswer → LockOutcome
  | .svr4FcntlFlock => RecordLocks.svr4FcntlFlock
  | .xnxLocking => RecordLocks.xnxLocking

/-- The kernel is asked for what the program asks for. -/
structure SameRequest (kind : BitVec 16 → Option LockKind) (cmd : LockCommand)
    (lock : Svr4Flock) (request : LockCommand × Flock) : Prop where
  cmd : request.1 = cmd
  kind : linuxKind request.2.lType = kind lock.lType
  whence : request.2.lWhence = lock.lWhence
  start : request.2.lStart = lock.lStart
  len : request.2.lLen = lock.lLen

/-- The structure holds the kernel's lock, in the program's numbers. -/
structure HoldsLock (kind : BitVec 16 → Option LockKind) (lock : KernelLock)
    (memory : Svr4Flock) : Prop where
  kind : kind memory.lType = some lock.kind
  whence : memory.lWhence = lock.whence
  start : memory.lStart = lock.start
  len : memory.lLen = lock.len
  pid : memory.lPid = lock.pid.setWidth 16

/-- A lock of a known kind is asked for, what is asked for is the program's request, a
refusal leaves the structure alone, and `F_GETLK` puts the answer there. -/
structure LockRight (kind : BitVec 16 → Option LockKind) (cmd : LockCommand)
    (lock : Svr4Flock) (answer : LockAnswer) (outcome : LockOutcome) : Prop where
  asked : (kind lock.lType).isSome → outcome.request.isSome
  request : ∀ request, outcome.request = some request →
    SameRequest kind cmd lock request
  refused : ∀ errno, answer = .refused errno → outcome.request.isSome →
    outcome.memory = lock ∧ outcome.result = -(errno : ℕ)
  answered : ∀ found, answer = .granted found → outcome.request.isSome →
    outcome.result = 0 ∧ (cmd = .getlk → HoldsLock kind found outcome.memory)

/-- `xnx_locking` moves `l_sysid` to `l_pid` whatever the kernel says: when it
refuses, both are 0 already, or the kind is unknown. -/
def LockCall.Meets (call : LockCall) (lock : Svr4Flock) (answer : LockAnswer) :
    Prop :=
  call = .xnxLocking → (xenixKind lock.lType).isSome →
    ∀ errno, answer = .refused errno → lock.lSysid = 0 ∧ lock.lPid = 0

/-! ## Numbers of kinds -/

@[simp]
theorem linuxKind_number (kind : LockKind) :
    linuxKind kind.number = some kind := by
  cases kind <;> rfl

@[simp]
theorem xenixKind_xenix (kind : LockKind) :
    xenixKind kind.xenix = some kind := by
  cases kind <;> rfl

theorem xenix_of_xenixKind {number : BitVec 16} {kind : LockKind}
    (hkind : xenixKind number = some kind) : kind.xenix = number := by
  simp only [xenixKind] at hkind
  split_ifs at hkind with hread hwrite hunlock
  · cases hkind
    exact hread.symm
  · cases hkind
    exact hwrite.symm
  · cases hkind
    exact hunlock.symm

@[simp]
theorem xenixType_number (kind : LockKind) :
    xenixType kind.number = kind.xenix := by
  rw [xenixType, linuxKind_number]

/-- The kernel's numbers are one below those of SVR4. -/
theorem linuxKind_sub_one (number : BitVec 16) :
    linuxKind (number - 1) = svr4Kind number := by
  have hread : number - 1 = 0 ↔ number = 1 := sub_eq_iff_eq_add
  have hwrite : number - 1 = 1 ↔ number = 2 := sub_eq_iff_eq_add
  have hunlock : number - 1 = 2 ↔ number = 3 := sub_eq_iff_eq_add
  simp only [linuxKind, svr4Kind, hread, hwrite, hunlock]

theorem svr4Kind_add_one (kind : LockKind) :
    svr4Kind (kind.number + 1) = some kind := by
  cases kind <;> rfl

/-! ## The two functions -/

theorem result_refused_ne_zero (errno : ℕ+) :
    (LockAnswer.refused errno).result ≠ 0 := by
  have hpos := errno.pos
  simp only [LockAnswer.result]
  omega

/-- `svr4_fcntl_flock` is faithful. -/
theorem svr4FcntlFlock_right (cmd : LockCommand) (fl : Svr4Flock)
    (answer : LockAnswer) :
    LockRight svr4Kind cmd fl answer (svr4FcntlFlock cmd fl answer) := by
  have hrequest : (svr4FcntlFlock cmd fl answer).request =
      some (cmd, flockToLinux fl) := by
    rw [svr4FcntlFlock, bytes_bytes]
    split <;> rfl
  refine ⟨fun _ => ?_, fun request hasked => ?_, fun errno hrefused _ => ?_,
    fun found hgranted _ => ?_⟩
  · rw [hrequest]
    rfl
  · rw [hrequest, Option.some.injEq] at hasked
    rw [← hasked]
    exact ⟨rfl, linuxKind_sub_one fl.lType, rfl, rfl, rfl⟩
  · rw [hrefused, svr4FcntlFlock, if_pos (result_refused_ne_zero errno)]
    exact ⟨rfl, rfl⟩
  · rw [hgranted, svr4FcntlFlock, if_neg (fun hresult => hresult rfl)]
    refine ⟨rfl, fun hget => ?_⟩
    rw [hget]
    simp only [LockAnswer.stores, bytes_bytes]
    exact ⟨svr4Kind_add_one found.kind, rfl, rfl, rfl, rfl⟩

/-- What `xnx_locking` leaves after a refusal. -/
theorem xnxLocking_refused {ifl : Svr4Flock} {kind : LockKind}
    (hkind : xenixKind ifl.lType = some kind) (mode : LockCommand)
    (errno : ℕ+) :
    (xnxLocking mode ifl (.refused errno)).memory =
      { ifl with lPid := ifl.lSysid, lSysid := 0 } := by
  simp only [xnxLocking, hkind, LockAnswer.stores, xenixType_number,
    xenix_of_xenixKind hkind]

/-- A lock of an unknown kind is refused without a request. -/
theorem xnxLocking_unknown {ifl : Svr4Flock} (hkind : xenixKind ifl.lType = none)
    (mode : LockCommand) (answer : LockAnswer) :
    LockRight xenixKind mode ifl answer (xnxLocking mode ifl answer) := by
  have houtcome : xnxLocking mode ifl answer = ⟨none, ifl, -einval⟩ := by
    simp only [xnxLocking, hkind]
  rw [houtcome]
  refine ⟨fun hknown => ?_, ?_, ?_, ?_⟩
  · rw [hkind] at hknown
    cases hknown
  · intro request hasked
    cases hasked
  · intro errno _ hasked
    cases hasked
  · intro found _ hasked
    cases hasked

/-- The kernel's lock is put into the structure, in the program's numbers. -/
theorem xnxLocking_answered {ifl : Svr4Flock} {kind : LockKind}
    (hkind : xenixKind ifl.lType = some kind) (found : KernelLock) :
    HoldsLock xenixKind found (xnxLocking .getlk ifl (.granted found)).memory := by
  simp only [xnxLocking, hkind, LockAnswer.stores]
  refine ⟨?_, rfl, rfl, rfl, rfl⟩
  change xenixKind (xenixType found.kind.number) = some found.kind
  rw [xenixType_number, xenixKind_xenix]

theorem xnxLocking_right_iff (mode : LockCommand) (ifl : Svr4Flock)
    (answer : LockAnswer) :
    LockRight xenixKind mode ifl answer (xnxLocking mode ifl answer) ↔
      LockCall.xnxLocking.Meets ifl answer := by
  cases hkind : xenixKind ifl.lType with
  | none =>
    refine iff_of_true (xnxLocking_unknown hkind mode answer) fun _ hknown => ?_
    rw [hkind] at hknown
    cases hknown
  | some kind =>
    have hrequest : (xnxLocking mode ifl answer).request =
        some (mode, Svr4Flock.bytes { ifl with lType := kind.number }) := by
      simp only [xnxLocking, hkind]
    have hresult : (xnxLocking mode ifl answer).result = answer.result := by
      simp only [xnxLocking, hkind]
    constructor
    · intro hright _ _ errno hrefused
      obtain ⟨hmemory, -⟩ := hright.refused errno hrefused (by rw [hrequest]; rfl)
      rw [hrefused, xnxLocking_refused hkind] at hmemory
      have hsysid := congrArg Svr4Flock.lSysid hmemory
      have hpid := congrArg Svr4Flock.lPid hmemory
      exact ⟨hsysid.symm, hpid.symm.trans hsysid.symm⟩
    · intro hmeets
      refine ⟨fun _ => ?_, fun request hasked => ?_, fun errno hrefused _ => ?_,
        fun found hgranted _ => ?_⟩
      · rw [hrequest]
        rfl
      · rw [hrequest, Option.some.injEq] at hasked
        rw [← hasked]
        refine ⟨rfl, ?_, rfl, rfl, rfl⟩
        rw [hkind]
        exact linuxKind_number kind
      · obtain ⟨hsysid, hpid⟩ :=
          hmeets rfl (by rw [hkind]; rfl) errno hrefused
        rw [hresult, hrefused, xnxLocking_refused hkind]
        refine ⟨?_, rfl⟩
        obtain ⟨lType, lWhence, lStart, lLen, lSysid, lPid⟩ := ifl
        obtain rfl : lSysid = 0 := hsysid
        obtain rfl : lPid = 0 := hpid
        rfl
      · rw [hresult, hgranted]
        refine ⟨rfl, ?_⟩
        rintro rfl
        exact xnxLocking_answered hkind found

/-- A call of either function is faithful exactly when it is not a refused
`xnx_locking` on a structure whose `l_sysid` or `l_pid` is set. -/
theorem recordLock_faithful_iff (call : LockCall) (cmd : LockCommand)
    (lock : Svr4Flock) (answer : LockAnswer) :
    LockRight call.kind cmd lock answer (call.run cmd lock answer) ↔
      call.Meets lock answer := by
  cases call with
  | svr4FcntlFlock =>
    exact iff_of_true (svr4FcntlFlock_right cmd lock answer)
      fun hcall => nomatch hcall
  | xnxLocking => exact xnxLocking_right_iff cmd lock answer

/-- `locking(fd, 6, &lock)` for a write lock that another process holds, with a
process number in the structure. -/
theorem refused_locking_loses_pid :
    ¬ ∀ (call : LockCall) (cmd : LockCommand) (lock : Svr4Flock)
      (answer : LockAnswer),
      LockRight call.kind cmd lock answer (call.run cmd lock answer) := by
  intro hall
  have hright := hall .xnxLocking .setlk ⟨1, 0, 0, 0, 0, 7⟩ (.refused 11)
  obtain ⟨hmemory, -⟩ := hright.refused 11 rfl rfl
  exact absurd hmemory (by decide)

end IbcsUs.RecordLocks
