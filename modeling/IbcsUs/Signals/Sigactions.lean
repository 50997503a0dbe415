import IbcsUs.Signals.Tables
import IbcsUs.Signals.Masks
import IbcsUs.Syscalls.Dispatch

/-!
# Setting what signals do

The emulator owns the kernel's disposition of SIGSEGV, since a system call of the
emulated program arrives as one; `linux26_rt_sigaction` keeps the program's own
dispositions in `_linux26_sigtab` and does not tell the kernel about SIGSEGV.  The
calls of the emulated systems that set dispositions and block signals are built on
it.
-/

namespace IbcsUs.Signals

open IbcsUs.Sysent

/-! ## Dispositions -/

/-- `struct sigaction`; the restorer is always that of the emulator. -/
structure Sigaction where
  handler : BitVec 32
  flags : BitVec 32
  mask : BitVec 64
  deriving DecidableEq

def sigDfl : BitVec 32 := 0
def sigIgn : BitVec 32 := 1
def sigHold : BitVec 32 := 2

def sigKill : BitVec 32 := 9
def sigSegv : BitVec 32 := 11
def sigStop : BitVec 32 := 19

def saNocldstop : BitVec 32 := 0x00000001
def saNocldwait : BitVec 32 := 0x00000002
def saSiginfo : BitVec 32 := 0x00000004
def saRestorer : BitVec 32 := 0x04000000
def saOnstack : BitVec 32 := 0x08000000
def saRestart : BitVec 32 := 0x10000000

/-- `SA_NODEFER`, also `SA_NOMASK`. -/
def saNodefer : BitVec 32 := 0x40000000

/-- `SA_RESETHAND`, also `SA_ONESHOT`. -/
def saResethand : BitVec 32 := 0x80000000

/-- An emulated process: what the emulator and the kernel keep of its signals, and
the registers that a call hands back. -/
structure Task where
  /-- `_linux26_sigtab`, by the number of the signal. -/
  sigtab : ℕ → Sigaction
  /-- The kernel's dispositions. -/
  actions : ℕ → Sigaction
  /-- The kernel's set of blocked signals. -/
  blocked : BitVec 64
  eax : BitVec 32
  eflags : BitVec 32

/-- The task of a program that has just started. -/
def startTask : Task where
  sigtab _ := ⟨sigDfl, 0, 0⟩
  actions _ := ⟨sigDfl, 0, 0⟩
  blocked := 0
  eax := 0
  eflags := 0

/-- The tables of an exec domain.  `signal_map` is indexed with whatever number it is
given, also one that lies before the table. -/
structure Domain where
  signalMap : ℤ → BitVec 32
  signalInvmap : ℕ → BitVec 32
  errMap : List Segment

/-- The exec domain of UnixWare 7, with no signals before its table. -/
def unixWare7Domain : Domain where
  signalMap number :=
    if 0 ≤ number then Personality.unixWare7.signalMap.getD number.toNat (-1)
    else -1
  signalInvmap number := Personality.unixWare7.signalInvmap.getD number (-1)
  errMap := uw7ErrMap

/-! ## Kernel calls -/

/-- The signals that cannot be blocked. -/
def unblockable : BitVec 64 := 1#64 <<< 8 ||| 1#64 <<< 18

/-- `rt_sigaction` of the kernel. -/
def kernelSigaction (task : Task) (signum : BitVec 32) (act : Option Sigaction) :
    Except ℤ Sigaction × Task :=
  let old := task.actions signum.toNat
  if ¬ (1 ≤ signum.toInt ∧ signum.toInt ≤ 64) then (.error einval, task)
  else
    match act with
    | none => (.ok old, task)
    | some action =>
        if signum = sigKill ∨ signum = sigStop then (.error einval, task)
        else
          let action := { action with mask := action.mask &&& ~~~unblockable }
          (.ok old, { task with
            actions := Function.update task.actions signum.toNat action })

/-- What `rt_sigprocmask` is asked to do. -/
inductive How where
  | block
  | unblock

/-- `rt_sigprocmask` of the kernel. -/
def kernelSigprocmask (task : Task) (how : How) (set : BitVec 64) : Task :=
  let set := set &&& ~~~unblockable
  match how with
  | .block => { task with blocked := task.blocked ||| set }
  | .unblock => { task with blocked := task.blocked &&& ~~~set }

/-- What `rt_sigsuspend` finds besides its first argument: the word that stands for
its second, and the signal sets in memory. -/
structure Surroundings where
  size : BitVec 32
  memory : BitVec 32 → Option (BitVec 64)

/-- `rt_sigsuspend` of the kernel: the mask that the process waits with, or the
error. -/
def kernelSigsuspend (around : Surroundings) (unewset : BitVec 32) :
    Except ℤ (BitVec 64) :=
  if around.size ≠ 8 then .error einval
  else
    match around.memory unewset with
    | none => .error 14
    | some mask => .ok (mask &&& ~~~unblockable)

/-! ## The emulator's `rt_sigaction` -/

/-- `ibcs_sigaction`. -/
def ibcsSigaction (task : Task) (sig : BitVec 32) (act : Option Sigaction) :
    Except ℤ Sigaction × Task :=
  kernelSigaction task sig
    (act.map fun action => { action with flags := action.flags ||| saRestorer })

/-- An action is kept in `_linux26_sigtab`, which has 17 entries. -/
def storeSigtab (task : Task) (signum : BitVec 32) : Option Sigaction → Task
  | none => task
  | some action =>
      if 0 < signum.toInt ∧ signum.toInt < 17 then
        { task with sigtab := Function.update task.sigtab signum.toNat action }
      else task

/-- `linux26_rt_sigaction`. -/
def linux26RtSigaction (task : Task) (signum : BitVec 32)
    (act : Option Sigaction) : Except ℤ Sigaction × Task :=
  if signum = sigSegv then
    (.ok (task.sigtab signum.toNat), storeSigtab task signum act)
  else ibcsSigaction (storeSigtab task signum act) signum act

/-- The program's own disposition of SIGSEGV. -/
def Task.segv (task : Task) : Sigaction := task.sigtab sigSegv.toNat

section Segv

variable {task : Task} {sig : BitVec 32}

theorem segv_kernelSigprocmask (how : How) (set : BitVec 64) :
    (kernelSigprocmask task how set).segv = task.segv := by
  cases how <;> rfl

theorem segv_kernelSigaction (act : Option Sigaction) :
    (kernelSigaction task sig act).2.segv = task.segv := by
  unfold kernelSigaction
  cases act <;> dsimp only <;> split_ifs <;> rfl

theorem segv_storeSigtab (task : Task) (sig : BitVec 32) (action : Sigaction) :
    (storeSigtab task sig (some action)).segv =
      if sig = sigSegv then action else task.segv := by
  unfold storeSigtab Task.segv
  dsimp only
  by_cases hsegv : sig = sigSegv
  · subst hsegv
    rw [if_pos (by decide), if_pos rfl]
    exact Function.update_self sigSegv.toNat action task.sigtab
  · have hne : sigSegv.toNat ≠ sig.toNat := fun heq =>
      hsegv (BitVec.eq_of_toNat_eq heq.symm)
    rw [if_neg hsegv]
    split_ifs
    · exact Function.update_of_ne hne action task.sigtab
    · rfl

theorem segv_linux26RtSigaction (task : Task) (sig : BitVec 32)
    (act : Option Sigaction) :
    (linux26RtSigaction task sig act).2.segv = (storeSigtab task sig act).segv := by
  rw [linux26RtSigaction, ibcsSigaction]
  split_ifs
  · rfl
  · exact segv_kernelSigaction _

end Segv

/-! ## `per-svr4/signal.c` -/

/-- `set_error`. -/
def Task.setError (task : Task) (errno : ℤ) : Task :=
  { task with
    eax := BitVec.ofInt 32 errno
    eflags := task.eflags ||| 1 }

/-- `set_result`. -/
def Task.setResult (task : Task) (result : BitVec 32) : Task :=
  { task with eax := result }

/-- `abi_mapsig`. -/
def abiMapsig (domain : Domain) (sig : BitVec 32) : BitVec 32 :=
  if nsignals ≤ sig.toNat then -1 else domain.signalMap sig.toNat

/-- `abi_signo`, and what is done with the signal; `word` is the first parameter of
the call. -/
def withSigno (domain : Domain) (task : Task) (word : BitVec 32)
    (body : BitVec 32 → Task) : Task :=
  let value := abiMapsig domain (word &&& 0xff)
  if value = -1 then task.setError (iABIErrors domain.errMap einval)
  else body value

/-- The flags that `abi_sig_handler` sets. -/
def handlerFlags (oneshot : Bool) : BitVec 32 :=
  if oneshot then saSiginfo ||| (saResethand ||| saNodefer) else saSiginfo

/-- `abi_sig_handler`. -/
def abiSigHandler (domain : Domain) (task : Task) (sig handler : BitVec 32)
    (oneshot : Bool) : Task :=
  match linux26RtSigaction task sig (some ⟨handler, handlerFlags oneshot, 0⟩) with
  | (.error errno, task) => task.setError (iABIErrors domain.errMap errno)
  | (.ok old, task) => task.setResult old.handler

/-- The set of one signal. -/
def oneSignal (sig : BitVec 32) : BitVec 64 := (sigaddset sigemptyset sig).set

/-- `abi_signal`. -/
def abiSignal (domain : Domain) (task : Task) (word vec : BitVec 32) : Task :=
  withSigno domain task word fun sig => abiSigHandler domain task sig vec true

/-- `abi_sigset`. -/
def abiSigset (domain : Domain) (task : Task) (word vec : BitVec 32) : Task :=
  withSigno domain task word fun sig =>
    if vec ≠ sigHold then
      kernelSigprocmask (abiSigHandler domain task sig vec false) .unblock
        (oneSignal sig)
    else kernelSigprocmask task .block (oneSignal sig)

/-- `abi_sighold`. -/
def abiSighold (domain : Domain) (task : Task) (word : BitVec 32) : Task :=
  withSigno domain task word fun sig =>
    kernelSigprocmask task .block (oneSignal sig)

/-- `abi_sigrelse`. -/
def abiSigrelse (domain : Domain) (task : Task) (word : BitVec 32) : Task :=
  withSigno domain task word fun sig =>
    kernelSigprocmask task .unblock (oneSignal sig)

/-- `abi_sigignore`. -/
def abiSigignore (domain : Domain) (task : Task) (word : BitVec 32) : Task :=
  withSigno domain task word fun sig =>
    match linux26RtSigaction task sig (some ⟨sigIgn, saSiginfo, 0⟩) with
    | (.error errno, task) => task.setError (iABIErrors domain.errMap errno)
    | (.ok _, task) => task

/-- `abi_sigpause`, with the mask that the process waits with. -/
def abiSigpause (domain : Domain) (task : Task) (word : BitVec 32)
    (around : Surroundings) : Task × Option (BitVec 64) :=
  let value := abiMapsig domain (word &&& 0xff)
  if value = -1 then
    (task.setError (iABIErrors domain.errMap einval), none)
  else
    let newset : BitVec 32 := ~~~0 &&& 1#32 <<< (value - 1).toNat
    match kernelSigsuspend around newset with
    | .error errno => (task.setError (iABIErrors domain.errMap errno), none)
    -- the call ends with EINTR when a signal has been caught
    | .ok mask => (task.setError (iABIErrors domain.errMap 4), some mask)

/-- `abi_sigfunc`: the request is in the high bits of the first parameter. -/
def abiSigfunc (domain : Domain) (task : Task) (word vec : BitVec 32)
    (around : Surroundings) : Task × Option (BitVec 64) :=
  let task := { task with eflags := task.eflags &&& ~~~1, eax := 0 }
  let sigType := word &&& ~~~0xff
  if sigType = 0x0000 then (abiSignal domain task word vec, none)
  else if sigType = 0x0100 then (abiSigset domain task word vec, none)
  else if sigType = 0x0200 then (abiSighold domain task word, none)
  else if sigType = 0x0400 then (abiSigrelse domain task word, none)
  else if sigType = 0x0800 then (abiSigignore domain task word, none)
  else if sigType = 0x1000 then abiSigpause domain task word around
  else (task.setError einval, none)

/-! ## `sigaction` of SVR4 and Xenix -/

/-- The flags of a list of pairs whose first flags are set are added. -/
def addFlags (pairs : List (BitVec 32 × BitVec 32)) (start flags : BitVec 32) :
    BitVec 32 :=
  pairs.foldl (fun added pair =>
    if flags &&& pair.1 ≠ 0 then added ||| pair.2 else added) start

/-- `struct svr4_sigaction`, also `struct sco_sigaction`. -/
structure AbiSigaction where
  flags : BitVec 32
  handler : BitVec 32
  mask : BitVec 32
  deriving DecidableEq

/-- The flags of SVR4 and those of Linux. -/
def svr4Flags : List (BitVec 32 × BitVec 32) := [
  (0x00001, saOnstack), (0x00004, saRestart), (0x00010, saNodefer),
  (0x00002, saResethand), (0x20000, saNocldstop), (0x10000, saNocldwait)]

/-- The flag of SCO and that of Linux. -/
def scoFlags : List (BitVec 32 × BitVec 32) := [(0x00001, saNocldstop)]

/-- The action that an emulated one stands for. -/
def AbiSigaction.toKernel (domain : Domain)
    (pairs : List (BitVec 32 × BitVec 32)) (start : BitVec 32)
    (action : AbiSigaction) : Sigaction where
  handler := action.handler
  flags := addFlags pairs start action.flags
  mask := (mapSigvecToKernel action.mask fun i => domain.signalMap i).set

/-- The emulated action that a kernel's is shown as. -/
def Sigaction.toAbi (domain : Domain) (pairs : List (BitVec 32 × BitVec 32))
    (action : Sigaction) : AbiSigaction where
  flags := addFlags (pairs.map Prod.swap) 0 action.flags
  handler := action.handler
  mask := mapSigvecFromKernel action.mask domain.signalInvmap

/-- `abi_sigaction`; the old action is copied if it is asked for. -/
def abiSigaction (domain : Domain) (task : Task) (abiSignum : BitVec 32)
    (action : Option AbiSigaction) : Except ℤ AbiSigaction × Task :=
  let signo := abiMapsig domain abiSignum
  if signo = -1 then (.error einval, task)
  else
    let nsa := action.map (AbiSigaction.toKernel domain svr4Flags saSiginfo)
    let answer := linux26RtSigaction task signo nsa
    (answer.1.map (Sigaction.toAbi domain svr4Flags), answer.2)

/-- `xnx_sigaction`: the number is compared as a signed one. -/
def xnxSigaction (domain : Domain) (task : Task) (scoSignum : BitVec 32)
    (action : Option AbiSigaction) : Except ℤ AbiSigaction × Task :=
  if (nsignals : ℤ) ≤ scoSignum.toInt then (.error einval, task)
  else
    let signo := domain.signalMap scoSignum.toInt
    let nsa := action.map
      (AbiSigaction.toKernel domain scoFlags (saNodefer ||| saSiginfo))
    let answer := linux26RtSigaction task signo nsa
    (answer.1.map (Sigaction.toAbi domain scoFlags), answer.2)

end IbcsUs.Signals
