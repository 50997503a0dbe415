import Mathlib.Data.BitVec
import Mathlib.Data.Nat.Cast.Order.Ring
import Mathlib.Order.Nat

/-!
# The tables of system calls

A personality's table has a row for each system call: what answers it, and how it is
called.  A row names a function of the emulator or, for `_K(..)`, a Linux system call;
`se_nargs` is a number of arguments or one of four letters.
-/

namespace IbcsUs.Sysent

/-! ## Rows -/

/-- The functions that the tables name. -/
inductive Callee where
  | abiBrk | abiDebug | abiExec | abiFork | abiGetgid | abiGetpid | abiGettime
  | abiGetuid | abiKill | abiMkdir | abiPipe | abiProcids | abiRead | abiSettime
  | abiSigaction | abiSigfunc | abiSigprocmask | abiSigsuspend | abiStime
  | abiSyscall | abiTime | abiUtime | abiUtsname | abiWait | cxenix
  | ibcsSysconf | scoFcntl | scoFstatvfs | scoFxstat | scoGetdents | scoIoctl
  | scoLseek | scoLxstat | scoMmap | scoPtrace | scoStatvfs | scoSysi86
  | scoXstat | socksysSyscall | svr4Context | svr4Fcntl | svr4Fpathconf
  | svr4Fstat | svr4Fstatfs | svr4Fstatvfs | svr4Getdents | svr4Getmsg
  | svr4Getpmsg | svr4Getrlimit | svr4Hrtsys | svr4Lstat | svr4Mknod | svr4Mmap
  | svr4Msgsys | svr4Open | svr4Pathconf | svr4Putmsg | svr4Putpmsg | svr4Semsys
  | svr4Setrlimit | svr4Shmsys | svr4Sigpending | svr4Stat | svr4Statfs
  | svr4Statvfs | svr4Sysconfig | svr4Sysfs | svr4Sysi86 | svr4Sysinfo
  | svr4Ulimit | svr4Waitid | svr4Xmknod | swSecurity | uw7Access | uw7Context
  | uw7Creat64 | uw7Fstatvfs64 | uw7Ftruncate64 | uw7Fxstat | uw7Getrlimit64
  | uw7Gtty | uw7Ioctl | uw7Lseek64 | uw7Lxstat | uw7Mldmode | uw7Mmap64
  | uw7Pread | uw7Pread64 | uw7Pwrite | uw7Pwrite64 | uw7Setegid | uw7Seteuid
  | uw7Setrlimit64 | uw7Sigaltstack | uw7Sleep | uw7Statvfs64 | uw7Stty
  | uw7Truncate64 | uw7Xstat | v7Utsname | xnxCreatsem | xnxEaccess | xnxExecseg
  | xnxFpathconf | xnxFtime | xnxLocking | xnxNap | xnxNbwaitsem | xnxOpensem
  | xnxPaccess | xnxPathconf | xnxProctl | xnxRdchk | xnxSdenter | xnxSdfree
  | xnxSdget | xnxSdgetv | xnxSdleave | xnxSdwaitv | xnxSigaction
  | xnxSigpending | xnxSigsem | xnxUnexecseg | xnxUtsname | xnxWaitsem
  deriving DecidableEq

/-- `se_syscall`. -/
inductive Target where
  | none
  | linux (number : ℕ)
  | callee (callee : Callee)
  deriving DecidableEq

/-- `Spl`: the registers are passed and an error is returned. -/
def spl : ℕ := 's'.toNat

/-- `Fast`: the registers are passed and hold the result on return. -/
def fast : ℕ := 'f'.toNat

/-- `Unimpl`. -/
def unimpl : ℕ := 'u'.toNat

/-- `Ukn`. -/
def ukn : ℕ := 'k'.toNat

/-- `struct sysent`, without the texts for the trace. -/
structure Row where
  syscall : Target
  nargs : ℕ
  deriving DecidableEq

/-- The parameters of a function: words, or the saved registers. -/
inductive Parameters where
  | words (count : ℕ)
  | registers
  deriving DecidableEq

/-- The parameters in a function's C definition. -/
def Callee.parameters : Callee → Parameters
  | .abiTime =>
      .words 0
  | .abiBrk | .abiStime | .abiUtsname | .ibcsSysconf | .socksysSyscall
  | .svr4Sysconfig | .uw7Mldmode | .uw7Setegid | .uw7Seteuid | .uw7Sleep
  | .v7Utsname | .xnxFtime | .xnxNap | .xnxNbwaitsem | .xnxOpensem | .xnxRdchk
  | .xnxSdfree | .xnxSdgetv | .xnxSdleave | .xnxSigpending | .xnxSigsem
  | .xnxUnexecseg | .xnxUtsname | .xnxWaitsem =>
      .words 1
  | .abiGettime | .abiKill | .abiMkdir | .abiSettime | .abiUtime | .scoFstatvfs
  | .scoStatvfs | .svr4Fpathconf | .svr4Fstat | .svr4Fstatvfs | .svr4Getrlimit
  | .svr4Lstat | .svr4Pathconf | .svr4Setrlimit | .svr4Sigpending | .svr4Stat
  | .svr4Statvfs | .svr4Ulimit | .uw7Access | .uw7Creat64 | .uw7Fstatvfs64
  | .uw7Getrlimit64 | .uw7Gtty | .uw7Setrlimit64 | .uw7Sigaltstack
  | .uw7Statvfs64 | .uw7Stty | .xnxCreatsem | .xnxEaccess | .xnxExecseg
  | .xnxFpathconf | .xnxPathconf | .xnxSdenter | .xnxSdwaitv =>
      .words 2
  | .abiRead | .abiSigaction | .abiSigprocmask | .scoFcntl | .scoFxstat
  | .scoGetdents | .scoLseek | .scoLxstat | .scoSysi86 | .scoXstat | .svr4Fcntl
  | .svr4Getdents | .svr4Mknod | .svr4Open | .svr4Sysfs | .svr4Sysi86
  | .svr4Sysinfo | .uw7Ftruncate64 | .uw7Fxstat | .uw7Lxstat | .uw7Truncate64
  | .uw7Xstat | .xnxLocking | .xnxProctl | .xnxSigaction =>
      .words 3
  | .scoPtrace | .svr4Fstatfs | .svr4Statfs | .svr4Waitid | .svr4Xmknod
  | .uw7Lseek64 | .uw7Pread | .uw7Pwrite | .xnxSdget =>
      .words 4
  | .uw7Pread64 | .uw7Pwrite64 | .xnxPaccess =>
      .words 5
  | .scoMmap | .svr4Mmap | .swSecurity =>
      .words 6
  | .uw7Mmap64 =>
      .words 7
  | .abiDebug | .abiExec | .abiFork | .abiGetgid | .abiGetpid | .abiGetuid
  | .abiPipe | .abiProcids | .abiSigfunc | .abiSigsuspend | .abiSyscall
  | .abiWait | .cxenix | .scoIoctl | .svr4Context | .svr4Getmsg | .svr4Getpmsg
  | .svr4Hrtsys | .svr4Msgsys | .svr4Putmsg | .svr4Putpmsg | .svr4Semsys
  | .svr4Shmsys | .uw7Context | .uw7Ioctl =>
      .registers

/-! ## Tables -/

/-- `uw7_syscall_table`. -/
def uw7SyscallTable : List Row := [
  -- 0
  ⟨.callee .abiSyscall, fast⟩, ⟨.linux 1, 1⟩, ⟨.callee .abiFork, spl⟩,
  ⟨.callee .abiRead, 3⟩, ⟨.linux 4, 3⟩, ⟨.callee .svr4Open, 3⟩, ⟨.linux 6, 1⟩,
  ⟨.callee .abiWait, spl⟩, ⟨.linux 8, 2⟩, ⟨.linux 9, 2⟩,
  -- 10
  ⟨.linux 10, 1⟩, ⟨.callee .abiExec, spl⟩, ⟨.linux 12, 1⟩,
  ⟨.callee .abiTime, 0⟩, ⟨.callee .svr4Mknod, 3⟩, ⟨.linux 15, 2⟩,
  ⟨.linux 182, 3⟩, ⟨.callee .abiBrk, 1⟩, ⟨.callee .svr4Stat, 2⟩, ⟨.linux 19, 3⟩,
  -- 20
  ⟨.callee .abiGetpid, spl⟩, ⟨.none, ukn⟩, ⟨.linux 22, 1⟩, ⟨.linux 23, 1⟩,
  ⟨.callee .abiGetuid, spl⟩, ⟨.callee .abiStime, 1⟩, ⟨.none, 4⟩, ⟨.linux 27, 1⟩,
  ⟨.callee .svr4Fstat, 2⟩, ⟨.linux 29, 0⟩,
  -- 30
  ⟨.callee .abiUtime, 2⟩, ⟨.callee .uw7Stty, 2⟩, ⟨.callee .uw7Gtty, 2⟩,
  ⟨.callee .uw7Access, 2⟩, ⟨.linux 34, 1⟩, ⟨.callee .svr4Statfs, 4⟩,
  ⟨.linux 36, 0⟩, ⟨.callee .abiKill, 2⟩, ⟨.callee .svr4Fstatfs, 4⟩,
  ⟨.callee .abiProcids, spl⟩,
  -- 40
  ⟨.none, ukn⟩, ⟨.linux 41, 1⟩, ⟨.callee .abiPipe, spl⟩, ⟨.linux 43, 1⟩,
  ⟨.none, 4⟩, ⟨.none, ukn⟩, ⟨.linux 46, 1⟩, ⟨.callee .abiGetgid, spl⟩,
  ⟨.callee .abiSigfunc, fast⟩, ⟨.callee .svr4Msgsys, spl⟩,
  -- 50
  ⟨.callee .svr4Sysi86, 3⟩, ⟨.linux 51, 1⟩, ⟨.callee .svr4Shmsys, fast⟩,
  ⟨.callee .svr4Semsys, spl⟩, ⟨.callee .uw7Ioctl, spl⟩, ⟨.none, 3⟩,
  ⟨.none, ukn⟩, ⟨.callee .v7Utsname, 1⟩, ⟨.linux 118, 1⟩,
  ⟨.callee .abiExec, spl⟩,
  -- 60
  ⟨.linux 60, 1⟩, ⟨.linux 61, 1⟩, ⟨.callee .svr4Fcntl, 3⟩,
  ⟨.callee .svr4Ulimit, 2⟩, ⟨.none, ukn⟩, ⟨.none, ukn⟩, ⟨.none, ukn⟩,
  ⟨.none, ukn⟩, ⟨.none, ukn⟩, ⟨.none, ukn⟩,
  -- 70
  ⟨.none, ukn⟩, ⟨.none, ukn⟩, ⟨.none, ukn⟩, ⟨.none, ukn⟩, ⟨.none, ukn⟩,
  ⟨.none, ukn⟩, ⟨.callee .abiDebug, spl⟩, ⟨.none, ukn⟩, ⟨.none, ukn⟩,
  ⟨.linux 40, 1⟩,
  -- 80
  ⟨.linux 39, 2⟩, ⟨.callee .svr4Getdents, 3⟩, ⟨.none, ukn⟩, ⟨.none, ukn⟩,
  ⟨.callee .svr4Sysfs, 3⟩, ⟨.callee .svr4Getmsg, spl⟩,
  ⟨.callee .svr4Putmsg, spl⟩, ⟨.linux 168, 3⟩, ⟨.callee .svr4Lstat, 2⟩,
  ⟨.linux 83, 2⟩,
  -- 90
  ⟨.linux 85, 3⟩, ⟨.linux 206, 2⟩, ⟨.linux 205, 2⟩, ⟨.linux 94, 2⟩,
  ⟨.linux 95, 3⟩, ⟨.callee .abiSigprocmask, 3⟩, ⟨.callee .abiSigsuspend, spl⟩,
  ⟨.callee .uw7Sigaltstack, 2⟩, ⟨.callee .abiSigaction, 3⟩,
  ⟨.callee .svr4Sigpending, 2⟩,
  -- 100
  ⟨.callee .uw7Context, spl⟩, ⟨.none, ukn⟩, ⟨.none, ukn⟩,
  ⟨.callee .svr4Statvfs, 2⟩, ⟨.callee .svr4Fstatvfs, 2⟩, ⟨.none, ukn⟩,
  ⟨.none, ukn⟩, ⟨.callee .svr4Waitid, 4⟩, ⟨.none, 3⟩,
  ⟨.callee .svr4Hrtsys, spl⟩,
  -- 110
  ⟨.none, 3⟩, ⟨.none, ukn⟩, ⟨.none, ukn⟩, ⟨.callee .svr4Pathconf, 2⟩,
  ⟨.none, 3⟩, ⟨.callee .svr4Mmap, 6⟩, ⟨.linux 125, 3⟩, ⟨.linux 91, 2⟩,
  ⟨.callee .svr4Fpathconf, 2⟩, ⟨.callee .abiFork, spl⟩,
  -- 120
  ⟨.linux 133, 1⟩, ⟨.linux 145, 3⟩, ⟨.linux 146, 3⟩, ⟨.callee .uw7Xstat, 3⟩,
  ⟨.callee .uw7Lxstat, 3⟩, ⟨.callee .uw7Fxstat, 3⟩, ⟨.callee .svr4Xmknod, 4⟩,
  ⟨.none, spl⟩, ⟨.callee .svr4Getrlimit, 2⟩, ⟨.callee .svr4Setrlimit, 2⟩,
  -- 130
  ⟨.linux 16, 3⟩, ⟨.none, ukn⟩, ⟨.callee .svr4Getpmsg, 5⟩,
  ⟨.callee .svr4Putpmsg, 5⟩, ⟨.linux 38, 2⟩, ⟨.callee .abiUtsname, 1⟩,
  ⟨.callee .uw7Setegid, 1⟩, ⟨.callee .svr4Sysconfig, 1⟩, ⟨.none, ukn⟩,
  ⟨.callee .svr4Sysinfo, 3⟩,
  -- 140
  ⟨.callee .socksysSyscall, 1⟩, ⟨.callee .uw7Seteuid, 1⟩, ⟨.none, ukn⟩,
  ⟨.none, ukn⟩, ⟨.none, 2⟩, ⟨.none, 4⟩, ⟨.none, 3⟩, ⟨.none, 3⟩, ⟨.none, 5⟩,
  ⟨.none, 3⟩,
  -- 150
  ⟨.none, 3⟩, ⟨.none, 3⟩, ⟨.none, ukn⟩, ⟨.none, 2⟩, ⟨.none, 2⟩, ⟨.none, ukn⟩,
  ⟨.none, 4⟩, ⟨.none, 4⟩, ⟨.none, ukn⟩, ⟨.none, ukn⟩,
  -- 160
  ⟨.none, ukn⟩, ⟨.none, ukn⟩, ⟨.none, ukn⟩, ⟨.none, 2⟩, ⟨.none, ukn⟩,
  ⟨.none, 2⟩, ⟨.callee .uw7Mldmode, 1⟩, ⟨.none, 2⟩, ⟨.none, ukn⟩,
  ⟨.linux 104, 3⟩,
  -- 170
  ⟨.linux 105, 2⟩, ⟨.callee .abiGettime, 2⟩, ⟨.callee .abiSettime, 2⟩,
  ⟨.none, ukn⟩, ⟨.none, ukn⟩, ⟨.none, ukn⟩, ⟨.none, ukn⟩, ⟨.none, ukn⟩,
  ⟨.none, ukn⟩, ⟨.none, ukn⟩,
  -- 180
  ⟨.none, ukn⟩, ⟨.none, ukn⟩, ⟨.none, ukn⟩, ⟨.none, ukn⟩, ⟨.none, ukn⟩,
  ⟨.none, ukn⟩, ⟨.none, ukn⟩, ⟨.none, ukn⟩, ⟨.none, ukn⟩,
  ⟨.callee .uw7Pread, 4⟩,
  -- 190
  ⟨.callee .uw7Pwrite, 4⟩, ⟨.linux 92, 2⟩, ⟨.linux 93, 2⟩, ⟨.none, ukn⟩,
  ⟨.none, ukn⟩, ⟨.callee .abiFork, spl⟩, ⟨.callee .abiFork, spl⟩, ⟨.none, ukn⟩,
  ⟨.none, ukn⟩, ⟨.none, ukn⟩,
  -- 200
  ⟨.none, ukn⟩, ⟨.none, ukn⟩, ⟨.none, ukn⟩, ⟨.none, ukn⟩, ⟨.none, ukn⟩,
  ⟨.none, ukn⟩, ⟨.callee .uw7Sleep, 1⟩, ⟨.none, ukn⟩, ⟨.none, ukn⟩,
  ⟨.none, ukn⟩,
  -- 210
  ⟨.none, ukn⟩, ⟨.none, ukn⟩, ⟨.none, ukn⟩, ⟨.none, ukn⟩, ⟨.none, ukn⟩,
  ⟨.none, ukn⟩, ⟨.callee .uw7Fstatvfs64, 2⟩, ⟨.callee .uw7Statvfs64, 2⟩,
  ⟨.callee .uw7Ftruncate64, 3⟩, ⟨.callee .uw7Truncate64, 3⟩,
  -- 220
  ⟨.callee .uw7Getrlimit64, 2⟩, ⟨.callee .uw7Setrlimit64, 2⟩,
  ⟨.callee .uw7Lseek64, 4⟩, ⟨.callee .uw7Mmap64, 7⟩, ⟨.callee .uw7Pread64, 5⟩,
  ⟨.callee .uw7Pwrite64, 5⟩, ⟨.callee .uw7Creat64, 2⟩, ⟨.none, ukn⟩,
  ⟨.none, ukn⟩, ⟨.none, ukn⟩,
  -- 230
  ⟨.none, ukn⟩, ⟨.none, ukn⟩, ⟨.none, ukn⟩, ⟨.none, ukn⟩, ⟨.none, ukn⟩,
  ⟨.none, ukn⟩, ⟨.none, ukn⟩, ⟨.none, ukn⟩, ⟨.none, ukn⟩, ⟨.none, ukn⟩,
  -- 240
  ⟨.none, ukn⟩, ⟨.none, ukn⟩, ⟨.none, ukn⟩, ⟨.none, ukn⟩, ⟨.none, ukn⟩,
  ⟨.none, ukn⟩, ⟨.none, ukn⟩, ⟨.none, ukn⟩, ⟨.none, ukn⟩, ⟨.none, ukn⟩,
  -- 250
  ⟨.none, ukn⟩]

/-- `sco_syscall_table`. -/
def scoSyscallTable : List Row := [
  -- 0
  ⟨.callee .abiSyscall, fast⟩, ⟨.linux 1, 1⟩, ⟨.callee .abiFork, spl⟩,
  ⟨.callee .abiRead, 3⟩, ⟨.linux 4, 3⟩, ⟨.callee .svr4Open, 3⟩, ⟨.linux 6, 1⟩,
  ⟨.callee .abiWait, spl⟩, ⟨.linux 8, 2⟩, ⟨.linux 9, 2⟩,
  -- 10
  ⟨.linux 10, 1⟩, ⟨.callee .abiExec, spl⟩, ⟨.linux 12, 1⟩,
  ⟨.callee .abiTime, 0⟩, ⟨.callee .svr4Mknod, 3⟩, ⟨.linux 15, 2⟩,
  ⟨.linux 182, 3⟩, ⟨.callee .abiBrk, 1⟩, ⟨.callee .svr4Stat, 2⟩,
  ⟨.callee .scoLseek, 3⟩,
  -- 20
  ⟨.callee .abiGetpid, spl⟩, ⟨.none, ukn⟩, ⟨.linux 22, 1⟩, ⟨.linux 23, 1⟩,
  ⟨.callee .abiGetuid, spl⟩, ⟨.callee .abiStime, 1⟩, ⟨.callee .scoPtrace, 4⟩,
  ⟨.linux 27, 1⟩, ⟨.callee .svr4Fstat, 2⟩, ⟨.linux 29, 0⟩,
  -- 30
  ⟨.callee .abiUtime, 2⟩, ⟨.none, ukn⟩, ⟨.none, ukn⟩, ⟨.linux 33, 2⟩,
  ⟨.linux 34, 1⟩, ⟨.callee .svr4Statfs, 4⟩, ⟨.linux 36, 0⟩,
  ⟨.callee .abiKill, 2⟩, ⟨.callee .svr4Fstatfs, 4⟩, ⟨.callee .abiProcids, spl⟩,
  -- 40
  ⟨.callee .cxenix, fast⟩, ⟨.linux 41, 1⟩, ⟨.callee .abiPipe, spl⟩,
  ⟨.linux 43, 1⟩, ⟨.none, ukn⟩, ⟨.none, ukn⟩, ⟨.linux 46, 1⟩,
  ⟨.callee .abiGetgid, spl⟩, ⟨.callee .abiSigfunc, fast⟩,
  ⟨.callee .svr4Msgsys, spl⟩,
  -- 50
  ⟨.callee .scoSysi86, 3⟩, ⟨.linux 51, 1⟩, ⟨.callee .svr4Shmsys, fast⟩,
  ⟨.callee .svr4Semsys, spl⟩, ⟨.callee .scoIoctl, spl⟩, ⟨.none, 3⟩,
  ⟨.none, ukn⟩, ⟨.callee .v7Utsname, 1⟩, ⟨.linux 118, 1⟩,
  ⟨.callee .abiExec, spl⟩,
  -- 60
  ⟨.linux 60, 1⟩, ⟨.linux 61, 1⟩, ⟨.callee .scoFcntl, 3⟩,
  ⟨.callee .svr4Ulimit, 2⟩, ⟨.none, ukn⟩, ⟨.none, ukn⟩, ⟨.none, ukn⟩,
  ⟨.none, ukn⟩, ⟨.none, ukn⟩, ⟨.none, ukn⟩,
  -- 70
  ⟨.none, ukn⟩, ⟨.none, ukn⟩, ⟨.none, ukn⟩, ⟨.none, ukn⟩, ⟨.none, ukn⟩,
  ⟨.none, ukn⟩, ⟨.callee .abiDebug, spl⟩, ⟨.none, ukn⟩, ⟨.none, ukn⟩,
  ⟨.linux 40, 1⟩,
  -- 80
  ⟨.callee .abiMkdir, 2⟩, ⟨.callee .scoGetdents, 3⟩, ⟨.none, ukn⟩, ⟨.none, ukn⟩,
  ⟨.callee .svr4Sysfs, 3⟩, ⟨.callee .svr4Getmsg, spl⟩,
  ⟨.callee .svr4Putmsg, spl⟩, ⟨.linux 168, 3⟩, ⟨.none, ukn⟩,
  ⟨.callee .swSecurity, 6⟩,
  -- 90
  ⟨.linux 83, 2⟩, ⟨.callee .svr4Lstat, 2⟩, ⟨.linux 85, 3⟩, ⟨.none, ukn⟩,
  ⟨.none, ukn⟩, ⟨.callee .abiSigprocmask, 3⟩, ⟨.callee .abiSigsuspend, spl⟩,
  ⟨.none, 2⟩, ⟨.callee .abiSigaction, 3⟩, ⟨.callee .svr4Sigpending, 2⟩,
  -- 100
  ⟨.callee .svr4Context, spl⟩, ⟨.none, ukn⟩, ⟨.none, ukn⟩,
  ⟨.callee .scoStatvfs, 2⟩, ⟨.callee .scoFstatvfs, 2⟩, ⟨.none, ukn⟩,
  ⟨.none, ukn⟩, ⟨.none, 4⟩, ⟨.none, 3⟩, ⟨.callee .svr4Hrtsys, spl⟩,
  -- 110
  ⟨.none, 3⟩, ⟨.none, ukn⟩, ⟨.none, ukn⟩, ⟨.callee .svr4Pathconf, 2⟩,
  ⟨.linux 218, 3⟩, ⟨.callee .scoMmap, 6⟩, ⟨.linux 125, 3⟩, ⟨.linux 91, 2⟩,
  ⟨.callee .svr4Fpathconf, 2⟩, ⟨.callee .abiFork, spl⟩,
  -- 120
  ⟨.linux 133, 1⟩, ⟨.linux 145, 3⟩, ⟨.linux 146, 3⟩, ⟨.callee .scoXstat, 3⟩,
  ⟨.callee .scoLxstat, 3⟩, ⟨.callee .scoFxstat, 3⟩, ⟨.callee .svr4Xmknod, 4⟩,
  ⟨.none, ukn⟩, ⟨.callee .svr4Getrlimit, 2⟩, ⟨.callee .svr4Setrlimit, 2⟩,
  -- 130
  ⟨.none, ukn⟩, ⟨.none, ukn⟩, ⟨.none, ukn⟩, ⟨.none, ukn⟩, ⟨.none, ukn⟩,
  ⟨.none, ukn⟩, ⟨.none, ukn⟩, ⟨.none, ukn⟩, ⟨.none, ukn⟩, ⟨.none, ukn⟩,
  -- 140
  ⟨.callee .socksysSyscall, 1⟩, ⟨.none, ukn⟩, ⟨.none, ukn⟩, ⟨.none, ukn⟩,
  ⟨.none, 2⟩, ⟨.none, 4⟩, ⟨.none, 3⟩, ⟨.none, ukn⟩, ⟨.none, ukn⟩, ⟨.none, ukn⟩,
  -- 150
  ⟨.none, ukn⟩, ⟨.none, ukn⟩, ⟨.none, ukn⟩, ⟨.none, ukn⟩, ⟨.none, ukn⟩,
  ⟨.none, ukn⟩, ⟨.none, ukn⟩, ⟨.none, ukn⟩, ⟨.none, ukn⟩, ⟨.none, ukn⟩,
  -- 160
  ⟨.none, ukn⟩, ⟨.none, ukn⟩, ⟨.none, ukn⟩, ⟨.none, ukn⟩, ⟨.none, ukn⟩,
  ⟨.none, ukn⟩, ⟨.none, ukn⟩, ⟨.none, ukn⟩, ⟨.none, ukn⟩, ⟨.none, ukn⟩,
  -- 170
  ⟨.none, ukn⟩, ⟨.callee .abiGettime, 2⟩, ⟨.callee .abiSettime, 2⟩]

/-- `cxenix_table`. -/
def cxenixTable : List Row := [
  -- 0
  ⟨.none, ukn⟩, ⟨.callee .xnxLocking, 3⟩, ⟨.callee .xnxCreatsem, 2⟩,
  ⟨.callee .xnxOpensem, 1⟩, ⟨.callee .xnxSigsem, 1⟩, ⟨.callee .xnxWaitsem, 1⟩,
  ⟨.callee .xnxNbwaitsem, 1⟩, ⟨.callee .xnxRdchk, 1⟩, ⟨.none, ukn⟩,
  ⟨.none, ukn⟩,
  -- 10
  ⟨.linux 93, 2⟩, ⟨.callee .xnxFtime, 1⟩, ⟨.callee .xnxNap, 1⟩,
  ⟨.callee .xnxSdget, 4⟩, ⟨.callee .xnxSdfree, 1⟩, ⟨.callee .xnxSdenter, 2⟩,
  ⟨.callee .xnxSdleave, 1⟩, ⟨.callee .xnxSdgetv, 1⟩, ⟨.callee .xnxSdwaitv, 2⟩,
  ⟨.none, ukn⟩,
  -- 20
  ⟨.none, ukn⟩, ⟨.none, 2⟩, ⟨.none, ukn⟩, ⟨.none, ukn⟩, ⟨.none, ukn⟩,
  ⟨.none, ukn⟩, ⟨.none, ukn⟩, ⟨.none, ukn⟩, ⟨.none, ukn⟩, ⟨.none, ukn⟩,
  -- 30
  ⟨.none, ukn⟩, ⟨.none, ukn⟩, ⟨.callee .xnxProctl, 3⟩, ⟨.callee .xnxExecseg, 2⟩,
  ⟨.callee .xnxUnexecseg, 1⟩, ⟨.none, ukn⟩, ⟨.linux 142, 5⟩,
  ⟨.callee .xnxEaccess, 2⟩, ⟨.callee .xnxPaccess, 5⟩,
  ⟨.callee .xnxSigaction, 3⟩,
  -- 40
  ⟨.callee .abiSigprocmask, 3⟩, ⟨.callee .xnxSigpending, 1⟩,
  ⟨.callee .abiSigsuspend, spl⟩, ⟨.linux 80, 2⟩, ⟨.linux 81, 2⟩,
  ⟨.callee .ibcsSysconf, 1⟩, ⟨.callee .xnxPathconf, 2⟩,
  ⟨.callee .xnxFpathconf, 2⟩, ⟨.linux 38, 2⟩, ⟨.none, ukn⟩,
  -- 50
  ⟨.callee .xnxUtsname, 1⟩, ⟨.none, ukn⟩, ⟨.none, ukn⟩, ⟨.none, ukn⟩,
  ⟨.none, ukn⟩, ⟨.linux 105, 2⟩, ⟨.linux 104, 3⟩]

/-! ## Error numbers -/

/-- What a segment of an error map leads to. -/
inductive SegmentMap where
  | value (number : ℤ)
  | vector (numbers : List ℤ)
  | identity

/-- `struct map_segment`, with the end of the map left out. -/
structure Segment where
  start : ℤ
  stop : ℤ
  map : SegmentMap

/-- `uw7_err_table`. -/
def uw7ErrTable : List ℤ := [
  0, 1, 2, 3, 4, 5, 6, 7, 8, 9, 10, 11, 12, 13, 14, 15, 16, 17, 18, 19, 20, 21,
  22, 23, 24, 25, 26, 27, 28, 29, 30, 31, 32, 33, 34, 45, 78, 46, 89, 93, 90,
  90, 35, 36, 37, 38, 39, 40, 41, 42, 43, 44, 50, 51, 52, 53, 54, 55, 56, 57,
  60, 61, 62, 63, 64, 65, 66, 67, 68, 69, 70, 71, 74, 76, 77, 79, 80, 81, 82,
  83, 84, 85, 86, 87, 88, 91, 92, 94, 95, 96, 97, 98, 99, 120, 121, 122, 123,
  124, 125, 126, 127, 128, 129, 130, 131, 132, 133, 134, 143, 144, 145, 146,
  147, 148, 149, 150, 22, 135, 137, 138, 139, 140, 28]

/-- `sco_err_table`. -/
def scoErrTable : List ℤ := [
  0, 1, 2, 3, 4, 5, 6, 7, 8, 9, 10, 11, 12, 13, 14, 15, 16, 17, 18, 19, 20, 21,
  22, 23, 24, 25, 26, 27, 28, 29, 30, 31, 32, 33, 34, 45, 78, 46, 89, 145, 150,
  90, 35, 36, 37, 38, 39, 40, 41, 42, 43, 44, 50, 51, 52, 53, 54, 55, 56, 57,
  60, 61, 62, 63, 64, 65, 66, 67, 68, 69, 70, 71, 74, 76, 77, 79, 80, 81, 82,
  83, 84, 85, 86, 87, 88, 152, 153, 22, 93, 94, 95, 96, 118, 97, 98, 99, 100,
  101, 102, 103, 104, 105, 106, 107, 108, 63, 110, 111, 112, 113, 114, 115, 116,
  117, 92, 91, 151, 135, 137, 138, 139, 140, 28]

/-- `lnx_err_table`. -/
def lnxErrTable : List ℤ := [4, 4, 4]

/-- `uw7_err_map`. -/
def uw7ErrMap : List Segment := [
  ⟨0, uw7ErrTable.length - 1, .vector uw7ErrTable⟩,
  ⟨512, 512 + lnxErrTable.length - 1, .vector lnxErrTable⟩]

/-- `sco_err_map`, also that of the Xenix personality. -/
def scoErrMap : List Segment := [
  ⟨0, scoErrTable.length - 1, .vector scoErrTable⟩,
  ⟨512, 512 + lnxErrTable.length - 1, .vector lnxErrTable⟩]

end IbcsUs.Sysent
