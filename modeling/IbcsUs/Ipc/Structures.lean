import Mathlib.Data.BitVec
import Mathlib.Data.List.GetD
import Mathlib.Data.Nat.Cast.Order.Ring
import Mathlib.Data.PNat.Defs
import Mathlib.Order.Nat

/-!
# Structures of the IPC control calls

Semaphores, shared memory and message queues have each a structure that describes
them: the kernel's, that of the older programs with 16-bit numbers (`ibcs2`) and
that of the newer ones (`abi4`).  The fields are numbers of the width they have in
C; padding is a field of its own.
-/

namespace IbcsUs.Ipc

/-- The two layouts of a program's structures. -/
inductive Layout where
  | ibcs2
  | abi4
  deriving DecidableEq

/-! ## Permissions -/

/-- The kernel's `struct ipc_perm`. -/
structure IpcPerm where
  key : BitVec 32
  uid : BitVec 16
  gid : BitVec 16
  cuid : BitVec 16
  cgid : BitVec 16
  mode : BitVec 16
  seq : BitVec 16
  deriving DecidableEq

/-- `struct ibcs2_ipc_perm`. -/
structure Ibcs2IpcPerm where
  uid : BitVec 16
  gid : BitVec 16
  cuid : BitVec 16
  cgid : BitVec 16
  mode : BitVec 16
  seq : BitVec 16
  key : BitVec 32
  deriving DecidableEq

/-- `struct abi4_ipc_perm`. -/
structure Abi4IpcPerm where
  uid : BitVec 32
  gid : BitVec 32
  cuid : BitVec 32
  cgid : BitVec 32
  mode : BitVec 32
  seq : BitVec 32
  key : BitVec 32
  pad : BitVec 128
  deriving DecidableEq

/-- `ip_to_lp`. -/
def ipToLp (ip : Ibcs2IpcPerm) : IpcPerm where
  uid := ip.uid
  gid := ip.gid
  cuid := ip.cuid
  cgid := ip.cgid
  mode := ip.mode
  seq := ip.seq
  key := ip.key

/-- `lp_to_ip`. -/
def lpToIp (lp : IpcPerm) : Ibcs2IpcPerm where
  uid := lp.uid
  gid := lp.gid
  cuid := lp.cuid
  cgid := lp.cgid
  mode := lp.mode
  seq := lp.seq
  key := lp.key

/-- `ip_to_lp_l`. -/
def ipToLpL (ip : Abi4IpcPerm) : IpcPerm where
  uid := ip.uid.setWidth 16
  gid := ip.gid.setWidth 16
  cuid := ip.cuid.setWidth 16
  cgid := ip.cgid.setWidth 16
  mode := ip.mode.setWidth 16
  seq := ip.seq.setWidth 16
  key := ip.key

/-- `lp_to_ip_l`, on a cleared structure. -/
def lpToIpL (lp : IpcPerm) : Abi4IpcPerm where
  uid := lp.uid.setWidth 32
  gid := lp.gid.setWidth 32
  cuid := lp.cuid.setWidth 32
  cgid := lp.cgid.setWidth 32
  mode := lp.mode.setWidth 32
  seq := lp.seq.setWidth 32
  key := lp.key
  pad := 0

/-! ## Semaphores -/

/-- The kernel's `struct semid_ds`. -/
structure SemidDs where
  semPerm : IpcPerm
  semOtime : BitVec 32
  semCtime : BitVec 32
  semBase : BitVec 32
  semPending : BitVec 32
  semPendingLast : BitVec 32
  undo : BitVec 32
  semNsems : BitVec 16
  deriving DecidableEq

/-- `struct ibcs2_semid_ds`. -/
structure Ibcs2SemidDs where
  semPerm : Ibcs2IpcPerm
  semBase : BitVec 32
  semNsems : BitVec 16
  pad : BitVec 16
  semOtime : BitVec 32
  semCtime : BitVec 32
  deriving DecidableEq

/-- `struct abi4_semid_ds`. -/
structure Abi4SemidDs where
  semPerm : Abi4IpcPerm
  semBase : BitVec 32
  semNsems : BitVec 16
  pad : BitVec 16
  semOtime : BitVec 32
  semPad1 : BitVec 32
  semCtime : BitVec 32
  semPad2 : BitVec 32
  semPad3 : BitVec 128
  deriving DecidableEq

/-- `isem_to_lsem`. -/
def isemToLsem (is : Ibcs2SemidDs) (ls : SemidDs) : SemidDs :=
  { ls with
    semPerm := ipToLp is.semPerm
    semBase := is.semBase
    semNsems := is.semNsems
    semOtime := is.semOtime
    semCtime := is.semCtime }

/-- `lsem_to_isem`. -/
def lsemToIsem (ls : SemidDs) (is : Ibcs2SemidDs) : Ibcs2SemidDs :=
  { is with
    semPerm := lpToIp ls.semPerm
    semBase := ls.semBase
    semNsems := ls.semNsems
    semOtime := ls.semOtime
    semCtime := ls.semCtime }

/-- `isem_to_lsem_l`. -/
def isemToLsemL (is : Abi4SemidDs) (ls : SemidDs) : SemidDs :=
  { ls with
    semPerm := ipToLpL is.semPerm
    semBase := is.semBase
    semNsems := is.semNsems
    semOtime := is.semOtime
    semCtime := is.semCtime }

/-- `lsem_to_isem_l`. -/
def lsemToIsemL (ls : SemidDs) (_ : Abi4SemidDs) : Abi4SemidDs where
  semPerm := lpToIpL ls.semPerm
  semBase := ls.semBase
  semNsems := ls.semNsems
  pad := 0
  semOtime := ls.semOtime
  semPad1 := 0
  semCtime := ls.semCtime
  semPad2 := 0
  semPad3 := 0

/-! ## Shared memory -/

/-- The kernel's `struct shmid_ds`. -/
structure ShmidDs where
  shmPerm : IpcPerm
  shmSegsz : BitVec 32
  shmAtime : BitVec 32
  shmDtime : BitVec 32
  shmCtime : BitVec 32
  shmCpid : BitVec 16
  shmLpid : BitVec 16
  shmNattch : BitVec 16
  shmUnused : BitVec 16
  shmUnused2 : BitVec 32
  shmUnused3 : BitVec 32
  deriving DecidableEq

/-- `struct ibcs2_shmid_ds`. -/
structure Ibcs2ShmidDs where
  shmPerm : Ibcs2IpcPerm
  shmSegsz : BitVec 32
  pad1 : BitVec 32
  pad2 : BitVec 32
  shmLpid : BitVec 16
  shmCpid : BitVec 16
  shmNattch : BitVec 16
  pad3 : BitVec 16
  shmAtime : BitVec 32
  shmDtime : BitVec 32
  shmCtime : BitVec 32
  deriving DecidableEq

/-- `struct abi4_shmid_ds`. -/
structure Abi4ShmidDs where
  shmPerm : Abi4IpcPerm
  shmSegsz : BitVec 32
  pad1 : BitVec 32
  shmLckcnt : BitVec 16
  pad2 : BitVec 16
  shmLpid : BitVec 32
  shmCpid : BitVec 32
  shmNattch : BitVec 32
  shmCnattch : BitVec 32
  shmAtime : BitVec 32
  shmPad1 : BitVec 32
  shmDtime : BitVec 32
  shmPad2 : BitVec 32
  shmCtime : BitVec 32
  shmPad3 : BitVec 32
  shmPad4 : BitVec 128
  deriving DecidableEq

/-- `ishm_to_lshm`. -/
def ishmToLshm (is : Ibcs2ShmidDs) (ls : ShmidDs) : ShmidDs :=
  { ls with
    shmPerm := ipToLp is.shmPerm
    shmSegsz := is.shmSegsz
    shmLpid := is.shmLpid
    shmCpid := is.shmCpid
    shmNattch := is.shmNattch
    shmAtime := is.shmAtime
    shmDtime := is.shmDtime
    shmCtime := is.shmCtime }

/-- `lshm_to_ishm`. -/
def lshmToIshm (ls : ShmidDs) (is : Ibcs2ShmidDs) : Ibcs2ShmidDs :=
  { is with
    shmPerm := lpToIp ls.shmPerm
    shmSegsz := ls.shmSegsz
    shmLpid := ls.shmLpid
    shmCpid := ls.shmCpid
    shmNattch := ls.shmNattch
    shmAtime := ls.shmAtime
    shmDtime := ls.shmDtime
    shmCtime := ls.shmCtime }

/-- `ishm_to_lshm_l`. -/
def ishmToLshmL (is : Abi4ShmidDs) (ls : ShmidDs) : ShmidDs :=
  { ls with
    shmPerm := ipToLpL is.shmPerm
    shmSegsz := is.shmSegsz
    shmLpid := is.shmLpid.setWidth 16
    shmCpid := is.shmCpid.setWidth 16
    shmNattch := is.shmNattch.setWidth 16
    shmAtime := is.shmAtime
    shmDtime := is.shmDtime
    shmCtime := is.shmCtime }

/-- `lshm_to_ishm_l`. -/
def lshmToIshmL (ls : ShmidDs) (_ : Abi4ShmidDs) : Abi4ShmidDs where
  shmPerm := lpToIpL ls.shmPerm
  shmSegsz := ls.shmSegsz
  pad1 := 0
  shmLckcnt := 0
  pad2 := 0
  shmLpid := ls.shmLpid.setWidth 32
  shmCpid := ls.shmCpid.setWidth 32
  shmNattch := ls.shmNattch.setWidth 32
  shmCnattch := 0
  shmAtime := ls.shmAtime
  shmPad1 := 0
  shmDtime := ls.shmDtime
  shmPad2 := 0
  shmCtime := ls.shmCtime
  shmPad3 := 0
  shmPad4 := 0

/-! ## Message queues -/

/-- The kernel's `struct msqid_ds`. -/
structure MsqidDs where
  msgPerm : IpcPerm
  msgFirst : BitVec 32
  msgLast : BitVec 32
  msgStime : BitVec 32
  msgRtime : BitVec 32
  msgCtime : BitVec 32
  msgLcbytes : BitVec 32
  msgLqbytes : BitVec 32
  msgCbytes : BitVec 16
  msgQnum : BitVec 16
  msgQbytes : BitVec 16
  msgLspid : BitVec 16
  msgLrpid : BitVec 16
  deriving DecidableEq

/-- `struct ibcs2_msqid_ds`; `pad` is the gap the compiler leaves. -/
structure Ibcs2MsqidDs where
  msgPerm : Ibcs2IpcPerm
  msgFirst : BitVec 32
  msgLast : BitVec 32
  msgCbytes : BitVec 16
  msgQnum : BitVec 16
  msgQbytes : BitVec 16
  msgLspid : BitVec 16
  msgLrpid : BitVec 16
  pad : BitVec 16
  msgStime : BitVec 32
  msgRtime : BitVec 32
  msgCtime : BitVec 32
  deriving DecidableEq

/-- `struct abi4_msqid_ds`. -/
structure Abi4MsqidDs where
  msgPerm : Abi4IpcPerm
  msgFirst : BitVec 32
  msgLast : BitVec 32
  msgCbytes : BitVec 32
  msgQnum : BitVec 32
  msgQbytes : BitVec 32
  msgLspid : BitVec 32
  msgLrpid : BitVec 32
  msgStime : BitVec 32
  msgPad1 : BitVec 32
  msgRtime : BitVec 32
  msgPad2 : BitVec 32
  msgCtime : BitVec 32
  msgPad3 : BitVec 32
  msgPad4 : BitVec 128
  deriving DecidableEq

/-- `imsq_to_lmsq`. -/
def imsqToLmsq (im : Ibcs2MsqidDs) (lm : MsqidDs) : MsqidDs :=
  { lm with
    msgPerm := ipToLp im.msgPerm
    msgFirst := im.msgFirst
    msgLast := im.msgLast
    msgCbytes := im.msgCbytes
    msgQnum := im.msgQnum
    msgQbytes := im.msgQbytes
    msgLspid := im.msgLspid
    msgLrpid := im.msgLrpid
    msgStime := im.msgStime
    msgRtime := im.msgRtime
    msgCtime := im.msgCtime }

/-- `lmsq_to_imsq`. -/
def lmsqToImsq (lm : MsqidDs) (im : Ibcs2MsqidDs) : Ibcs2MsqidDs :=
  { im with
    msgPerm := lpToIp lm.msgPerm
    msgFirst := lm.msgFirst
    msgLast := lm.msgLast
    msgCbytes := lm.msgCbytes
    msgQnum := lm.msgQnum
    msgQbytes := lm.msgQbytes
    msgLspid := lm.msgLspid
    msgLrpid := lm.msgLrpid
    msgStime := lm.msgStime
    msgRtime := lm.msgRtime
    msgCtime := lm.msgCtime }

/-- `imsq_to_lmsq_l`. -/
def imsqToLmsqL (im : Abi4MsqidDs) (lm : MsqidDs) : MsqidDs :=
  { lm with
    msgPerm := ipToLpL im.msgPerm
    msgFirst := im.msgFirst
    msgLast := im.msgLast
    msgCbytes := im.msgCbytes.setWidth 16
    msgQnum := im.msgQnum.setWidth 16
    msgQbytes := im.msgQbytes.setWidth 16
    msgLspid := im.msgLspid.setWidth 16
    msgLrpid := im.msgLrpid.setWidth 16
    msgStime := im.msgStime
    msgRtime := im.msgRtime
    msgCtime := im.msgCtime }

/-- `lmsq_to_imsq_l`. -/
def lmsqToImsqL (lm : MsqidDs) (_ : Abi4MsqidDs) : Abi4MsqidDs where
  msgPerm := lpToIpL lm.msgPerm
  msgFirst := lm.msgFirst
  msgLast := lm.msgLast
  msgCbytes := lm.msgCbytes.setWidth 32
  msgQnum := lm.msgQnum.setWidth 32
  msgQbytes := lm.msgQbytes.setWidth 32
  msgLspid := lm.msgLspid.setWidth 32
  msgLrpid := lm.msgLrpid.setWidth 32
  msgStime := lm.msgStime
  msgPad1 := 0
  msgRtime := lm.msgRtime
  msgPad2 := 0
  msgCtime := lm.msgCtime
  msgPad3 := 0
  msgPad4 := 0

/-! ## Translations -/

/-- Structures of the program and of the kernel, with the copying of the common
fields both ways: what the kernel holds survives the way to the program and back, and
no other field has a part in it. -/
structure Translation (User Kernel : Type) where
  toKernel : User → Kernel → Kernel
  toUser : Kernel → User → User
  toKernel_toUser : ∀ kernel user, toKernel (toUser kernel user) kernel = kernel
  toKernel_through : ∀ user kernel other user',
    toKernel (toUser (toKernel user other) user') kernel = toKernel user kernel
  toUser_through : ∀ user kernel other user',
    toUser (toKernel user kernel) user' = toUser (toKernel user other) user'

@[simp]
theorem ipToLp_lpToIp (lp : IpcPerm) : ipToLp (lpToIp lp) = lp := rfl

@[simp]
theorem setWidth_widened (number : BitVec 16) :
    (number.setWidth 32).setWidth 16 = number :=
  BitVec.setWidth_setWidth_of_le number (by decide)

@[simp]
theorem ipToLpL_lpToIpL (lp : IpcPerm) : ipToLpL (lpToIpL lp) = lp := by
  simp only [ipToLpL, lpToIpL, setWidth_widened]

def ibcs2Semaphores : Translation Ibcs2SemidDs SemidDs where
  toKernel := isemToLsem
  toUser := lsemToIsem
  toKernel_toUser _ _ := rfl
  toKernel_through _ _ _ _ := rfl
  toUser_through _ _ _ _ := rfl

def abi4Semaphores : Translation Abi4SemidDs SemidDs where
  toKernel := isemToLsemL
  toUser := lsemToIsemL
  toKernel_toUser kernel user := by
    simp only [isemToLsemL, lsemToIsemL, ipToLpL_lpToIpL]
  toKernel_through user kernel other user' := by
    simp only [isemToLsemL, lsemToIsemL, ipToLpL_lpToIpL]
  toUser_through _ _ _ _ := rfl

def ibcs2Memory : Translation Ibcs2ShmidDs ShmidDs where
  toKernel := ishmToLshm
  toUser := lshmToIshm
  toKernel_toUser _ _ := rfl
  toKernel_through _ _ _ _ := rfl
  toUser_through _ _ _ _ := rfl

def abi4Memory : Translation Abi4ShmidDs ShmidDs where
  toKernel := ishmToLshmL
  toUser := lshmToIshmL
  toKernel_toUser kernel user := by
    simp only [ishmToLshmL, lshmToIshmL, ipToLpL_lpToIpL, setWidth_widened]
  toKernel_through user kernel other user' := by
    simp only [ishmToLshmL, lshmToIshmL, ipToLpL_lpToIpL, setWidth_widened]
  toUser_through _ _ _ _ := rfl

def ibcs2Queues : Translation Ibcs2MsqidDs MsqidDs where
  toKernel := imsqToLmsq
  toUser := lmsqToImsq
  toKernel_toUser _ _ := rfl
  toKernel_through _ _ _ _ := rfl
  toUser_through _ _ _ _ := rfl

def abi4Queues : Translation Abi4MsqidDs MsqidDs where
  toKernel := imsqToLmsqL
  toUser := lmsqToImsqL
  toKernel_toUser kernel user := by
    simp only [imsqToLmsqL, lmsqToImsqL, ipToLpL_lpToIpL, setWidth_widened]
  toKernel_through user kernel other user' := by
    simp only [imsqToLmsqL, lmsqToImsqL, ipToLpL_lpToIpL, setWidth_widened]
  toUser_through _ _ _ _ := rfl

end IbcsUs.Ipc
