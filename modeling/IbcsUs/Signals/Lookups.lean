import IbcsUs.Signals.SetThenGet
import IbcsUs.Signals.WaitStatus

/-!
# Lookups in tables

Some calls look their arguments up in tables: signals in the maps of the exec domain,
`how` in `howcnv`, the commands of `semctl` in `svr4sem2linux` and the registers of
`ptrace` in a table of offsets.  Each has a check of its own, or none.
-/

namespace IbcsUs.Signals.Lookups

open IbcsUs.Sysent

/-- An entry of a table, `none` when the table is read out of range.  A negative index is
one from 2^31 on. -/
def entryAt {Entry : Type} (table : List Entry) (index : BitVec 32) : Option Entry :=
  table[index.toNat]?

/-! ## The calls -/

/-- What the kernel answers to each call; `wait4` stands for its result and for what is in
`status` behind the call, which it leaves alone when no child has changed. -/
structure Kernel where
  task : Task
  kill : BitVec 32 → BitVec 32 → BitVec 32
  rtSigprocmask : BitVec 32 → Option (BitVec 64) → BitVec 32 × BitVec 64
  wait4 : BitVec 32 → BitVec 32 → BitVec 32 × BitVec 32
  nativePtrace : BitVec 32 → BitVec 32 → BitVec 32 → BitVec 32 × BitVec 32
  ptrace : BitVec 32 → BitVec 32 → BitVec 32 → BitVec 32 → BitVec 32

variable (personality : Personality) (kernel : Kernel)

/-- `abi_kill`. -/
def abiKill (pid sig : BitVec 32) : Option (BitVec 32) := do
  let insig := sig &&& 0xff
  let outsig ← mapEntry personality insig
  return kernel.kill pid outsig

/-- `map_sigvec_to_kernel`, on a table that ends. -/
def mapSigvecToKernel (vec : BitVec 32) (map : List (BitVec 32)) : Option SigSet :=
  eachSignal (fun i m newvec => do
    let newvec ← newvec
    if vec &&& m ≠ 0 then
      let signal ← map[i]?
      if signal ≠ -1 then return sigaddset newvec signal else return newvec
    else return newvec) 32 1 1 (some sigemptyset)

/-- `map_sigvec_from_kernel`, on a table that ends. -/
def mapSigvecFromKernel (vec : BitVec 64) (map : List (BitVec 32)) : Option (BitVec 32) :=
  eachSignal (fun i _ newvec => do
    let newvec ← newvec
    if sigismember vec i then
      let signal ← map[i]?
      if signal ≠ -1 ∧ signal ≠ 0 then return newvec ||| 1#32 <<< (signal - 1).toNat
      else return newvec
    else return newvec) 32 1 1 (some 0)

/-- `howcnv`: `SIG_SETMASK`, `SIG_BLOCK`, `SIG_UNBLOCK` and `SIG_SETMASK`. -/
def howcnv : List (BitVec 32) := [2, 0, 1, 2]

/-- `abi_sigprocmask`, with the mask at `abinset` and whether there is an `abioset`: the
error, and what is put there. -/
def abiSigprocmask (how : BitVec 32) (abinset : Option (BitVec 32)) (abioset : Bool) :
    Option (BitVec 32 × Option (BitVec 32)) := do
  let nset ← abinset.mapM fun set => mapSigvecToKernel set personality.signalMap
  let how ← entryAt howcnv how
  let (error, oldSet) := kernel.rtSigprocmask how (nset.map SigSet.set)
  if error = 0 ∧ abioset then
    let set ← mapSigvecFromKernel oldSet personality.signalInvmap
    return (error, some set)
  else return (error, none)

/-- The action that an emulated one stands for, with the flags of `xnx_sigaction`. -/
def scoToKernel (action : AbiSigaction) : Option Sigaction := do
  let mask ← mapSigvecToKernel action.mask personality.signalMap
  return {
    handler := action.handler
    flags := addFlags scoFlags (saNodefer ||| saSiginfo) action.flags
    mask := mask.set }

/-- The emulated action that a kernel's is shown as. -/
def scoFromKernel (action : Sigaction) : Option AbiSigaction := do
  let mask ← mapSigvecFromKernel action.mask personality.signalInvmap
  return {
    flags := addFlags (scoFlags.map Prod.swap) 0 action.flags
    handler := action.handler
    mask }

/-- `xnx_sigaction`: the number is compared as a signed one. -/
def xnxSigaction (scoSignum : BitVec 32) (action : Option AbiSigaction) (oldaction : Bool) :
    Option (Except ℤ (Option AbiSigaction) × Task) :=
  if (nsignals : ℤ) ≤ scoSignum.toInt then some (.error einval, kernel.task)
  else do
    let signo ← mapEntry personality scoSignum
    let nsa ← action.mapM (scoToKernel personality)
    match linux26RtSigaction kernel.task signo nsa with
    | (.error errno, task) => return (.error errno, task)
    | (.ok osa, task) =>
        if oldaction then
          let old ← scoFromKernel personality osa
          return (.ok (some old), task)
        else return (.ok none, task)

/-- The children that `svr4_waitid` waits for. -/
def waitedFor (idtype id : BitVec 32) : Option (BitVec 32) :=
  if idtype = 0 then some id
  else if idtype = 1 then some (-id)
  else if idtype = 7 then some (-1)
  else none

/-- The options that are handed to `wait4`. -/
def waitOptions (options : BitVec 32) : BitVec 32 :=
  (if options &&& 0o100 ≠ 0 then 1 else 0) ||| if options &&& 4 ≠ 0 then 2 else 0

/-- `svr4_waitid`: the result, and what is put at `infop`. -/
def svr4WaitidCall (idtype id : BitVec 32) (infop : Bool) (options : BitVec 32) :
    Option (BitVec 32 × Option (BitVec 32 × SigInfo)) :=
  match waitedFor idtype id with
  | none => some (BitVec.ofInt 32 (-einval), none)
  | some pid =>
      let (result, status) := kernel.wait4 pid (waitOptions options)
      if result.slt 0 then some (result, none)
      else if infop then
        (svr4Waitid personality status).map fun info : SigInfo => (0, some (result, info))
      else some (0, none)

/-- `svr4sem2linux`. -/
def svr4sem2linux : List (BitVec 32) := [0, 1, 2, 14, 11, 12, 13, 15, 16, 17, 0, 1, 2]

/-- Where `svr4_semctl` goes on, with the arguments. -/
inductive SemctlRoute where
  | ibcs2Semctl (first second third : BitVec 32)
  | abi4Semctl (first second third : BitVec 32)
  | ipc (arg1 arg2 cmd : BitVec 32)
  | unsupported
  deriving DecidableEq

/-- `svr4_semctl`. -/
def svr4Semctl (arg1 arg2 arg3 : BitVec 32) : Option SemctlRoute := do
  let cmd ← entryAt svr4sem2linux arg3
  if arg3 = 9 ∨ arg3 = 6 then return .ibcs2Semctl arg1 0 cmd
  else if arg3 = 0 ∨ arg3 = 10 ∨ arg3 = 8 ∨ arg3 = 5 ∨ arg3 = 4 ∨ arg3 = 3 ∨ arg3 = 7 then
    return .ipc arg1 arg2 cmd
  else if arg3 = 1 ∨ arg3 = 2 then return .ibcs2Semctl arg1 arg2 cmd
  else if arg3 = 12 ∨ arg3 = 11 then return .abi4Semctl arg1 arg2 cmd
  else return .unsupported

/-- `NREGS`. -/
def nregs : BitVec 32 := 19

/-- `sco_to_linux_reg`. -/
def scoToLinuxReg : List (BitVec 32) := [
  44, 40, 32, 24,
  20, 56,
  4,
  60,
  8, 28, 16, 0,
  68,
  72,
  48, 12, 36,
  60, 64]

/-- `wysev386_to_linux_reg`. -/
def wysev386ToLinuxReg : List (BitVec 32) := [
  32, 24, 20, 56,
  4, 60,
  8, 28, 16, 0,
  68,
  72,
  48, 12,
  36,
  60,
  64,
  40, 44]

/-- `-EIO`. -/
def eio : BitVec 32 := BitVec.ofInt 32 (-5)

/-- The register that an address stands for. -/
def registerIndex (addr : BitVec 32) : BitVec 32 := (addr &&& 0xff) >>> 2

/-- Remap access to the registers. -/
def remapRegister (registers : List (BitVec 32)) (addr : BitVec 32) :
    Option (Except (BitVec 32) (BitVec 32)) :=
  if addr &&& 0xff00 = 0x4000 then
    if nregs.ult (registerIndex addr) then some (.error eio)
    else do
      let addr ← entryAt registers (registerIndex addr)
      if addr = -1 then return .error eio else return .ok addr
  else some (.ok addr)

/-- The signal of a request to go on. -/
def remapSignal (req data : BitVec 32) : Option (Except (BitVec 32) (BitVec 32)) :=
  if req = 7 ∧ data ≠ 0 then
    if (BitVec.ofNat 32 nsignals).ult data then some (.error eio)
    else (mapEntry personality data).map .ok
  else some (.ok data)

/-- `PTRACE_ATTACH` and `PTRACE_DETACH` have other codes in the emulated systems. -/
def ptraceRequest (req : BitVec 32) : BitVec 32 :=
  if req = 16 then 10 else if req = 17 then 11 else req

/-- The kernel's part of `ptrace`. -/
def ptraceKernel (req pid addr data : BitVec 32) : BitVec 32 :=
  if req = 1 ∨ req = 2 ∨ req = 3 then
    let (error, res) := kernel.nativePtrace req pid addr
    if error ≠ 0 then error else res
  else kernel.ptrace req pid addr data

/-- `sco_ptrace` and `wyse_ptrace`, which have their own address of `u_ar0` and their own
table. -/
def ptraceCall (uAr0 : BitVec 32) (registers : List (BitVec 32))
    (req pid addr data : BitVec 32) : Option (BitVec 32) := do
  let req := ptraceRequest req
  if (req = 3 ∨ req = 6) ∧ addr = uAr0 then return 0x4000
  let remapped ← (if req = 3 ∨ req = 6 then remapRegister registers addr else some (.ok addr))
  match remapped with
  | .error err => return err
  | .ok addr =>
      match ← remapSignal personality req data with
      | .error err => return err
      | .ok data => return ptraceKernel kernel req pid addr data

/-- `sco_ptrace`. -/
def scoPtrace : BitVec 32 → BitVec 32 → BitVec 32 → BitVec 32 → Option (BitVec 32) :=
  ptraceCall personality kernel 0x1200 scoToLinuxReg

/-- `wyse_ptrace`. -/
def wysePtrace : BitVec 32 → BitVec 32 → BitVec 32 → BitVec 32 → Option (BitVec 32) :=
  ptraceCall personality kernel 0x1292 wysev386ToLinuxReg

/-! ## Where they stay in their tables -/

/-- A call with its arguments. -/
inductive LookupCall where
  | abiKill (pid sig : BitVec 32)
  | abiSigprocmask (how : BitVec 32) (abinset : Option (BitVec 32)) (abioset : Bool)
  | xnxSigaction (scoSignum : BitVec 32) (action : Option AbiSigaction) (oldaction : Bool)
  | svr4Waitid (idtype id : BitVec 32) (infop : Bool) (options : BitVec 32)
  | svr4Semctl (arg1 arg2 arg3 : BitVec 32)
  | scoPtrace (req pid addr data : BitVec 32)
  | wysePtrace (req pid addr data : BitVec 32)

/-- Every table is read in its range. -/
def InTables : LookupCall → Prop
  | .abiKill pid sig => (abiKill personality kernel pid sig).isSome
  | .abiSigprocmask how abinset abioset =>
      (abiSigprocmask personality kernel how abinset abioset).isSome
  | .xnxSigaction scoSignum action oldaction =>
      (xnxSigaction personality kernel scoSignum action oldaction).isSome
  | .svr4Waitid idtype id infop options =>
      (svr4WaitidCall personality kernel idtype id infop options).isSome
  | .svr4Semctl arg1 arg2 arg3 => (svr4Semctl arg1 arg2 arg3).isSome
  | .scoPtrace req pid addr data => (scoPtrace personality kernel req pid addr data).isSome
  | .wysePtrace req pid addr data => (wysePtrace personality kernel req pid addr data).isSome

/-- No signal above 32 stands in a status that is not that of a normal exit. -/
def StatusMeets (status : BitVec 32) : Prop :=
  status &&& 0xff = 0 ∨ ((status &&& 0xff00) >>> 8).toNat ≤ nsignals

/-- Not the access to a register behind the last one. -/
def PtraceMeets (req addr : BitVec 32) : Prop :=
  ¬ ((req = 3 ∨ req = 6) ∧ addr &&& 0xff00 = 0x4000 ∧ registerIndex addr = nregs)

/-- The arguments that are in range. -/
def LookupMeets : LookupCall → Prop
  | .abiKill _ sig => (sig &&& 0xff).toNat ≤ nsignals
  | .abiSigprocmask how _ _ => how.toNat < 4
  | .xnxSigaction scoSignum _ _ => 0 ≤ scoSignum.toInt
  | .svr4Waitid idtype id infop options => ∀ pid ∈ waitedFor idtype id, infop = true →
      ¬ (kernel.wait4 pid (waitOptions options)).1.slt 0 →
      StatusMeets (kernel.wait4 pid (waitOptions options)).2
  | .svr4Semctl _ _ arg3 => arg3.toNat < 13
  | .scoPtrace req _ addr _ => PtraceMeets req addr
  | .wysePtrace req _ addr _ => PtraceMeets req addr

section Tables

variable {Entry : Type} {table : List Entry} {index : BitVec 32}

/-- A lookup that is followed by none that fails. -/
theorem isSome_bind_iff {Word Answer : Type} {word : Option Word} {rest : Word → Option Answer}
    (hrest : ∀ value, (rest value).isSome) : (word >>= rest).isSome ↔ word.isSome := by
  cases word with
  | none => exact Iff.rfl
  | some value => exact iff_of_true (hrest value) rfl

theorem isSome_mapM {Word Answer : Type} {lookup : Word → Option Answer}
    (hlookup : ∀ value, (lookup value).isSome) (word : Option Word) :
    (word.mapM lookup).isSome := by
  cases word with
  | none => rfl
  | some value =>
      rw [Option.mapM_some, Option.map_eq_map, Option.isSome_map]
      exact hlookup value

theorem isSome_entryAt : (entryAt table index).isSome ↔ index.toNat < table.length := by
  rw [entryAt, isSome_getElem?]

variable {personality} {kernel}

theorem isSome_mapEntry : (mapEntry personality index).isSome ↔ index.toNat ≤ nsignals := by
  rw [mapEntry, isSome_getElem?, signalMap_length, Nat.lt_succ_iff]

theorem isSome_invmapEntry :
    (invmapEntry personality index).isSome ↔ index.toNat ≤ nsignals := by
  rw [invmapEntry, isSome_getElem?, signalInvmap_length, Nat.lt_succ_iff]

end Tables

/-! ## The masks -/

section Masks

variable {σ : Type} {body : ℕ → BitVec 32 → σ → σ}
  {lookups : ℕ → BitVec 32 → Option σ → Option σ} {map : List (BitVec 32)}
  {words : ℕ → BitVec 32}

/-- A loop whose lookups are all in range is the loop on their words. -/
theorem eachSignal_some (hround : ∀ i m state, 1 ≤ i → i ≤ 32 →
      lookups i m (some state) = some (body i m state))
    {rounds i : ℕ} (hpos : 1 ≤ i) (hend : i + rounds ≤ 33) (m : BitVec 32) (state : σ) :
    eachSignal lookups rounds i m (some state) = some (eachSignal body rounds i m state) := by
  induction rounds generalizing i m state with
  | zero => rfl
  | succ rounds ih =>
      rw [eachSignal, eachSignal, hround i m state hpos (by omega)]
      exact ih (by omega) (by omega) _ _

theorem mapSigvecToKernel_eq (hmap : ∀ i, 1 ≤ i → i ≤ 32 → map[i]? = some (words i))
    (vec : BitVec 32) :
    mapSigvecToKernel vec map = some (Signals.mapSigvecToKernel vec words) := by
  refine eachSignal_some (fun i m newvec hpos hle => ?_) (Nat.le_refl 1) (Nat.le_refl 33) _ _
  simp only [hmap i hpos hle, Option.bind_eq_bind, Option.bind_some, Option.pure_def]
  by_cases hselected : vec &&& m ≠ 0
  · by_cases hsignal : words i ≠ -1
    · rw [if_pos hselected, if_pos hsignal, if_pos ⟨hselected, hsignal⟩]
    · rw [if_pos hselected, if_neg hsignal, if_neg fun hadded => hsignal hadded.2]
  · rw [if_neg hselected, if_neg fun hadded => hselected hadded.1]

theorem mapSigvecFromKernel_eq (hmap : ∀ i, 1 ≤ i → i ≤ 32 → map[i]? = some (words i))
    (vec : BitVec 64) :
    mapSigvecFromKernel vec map = some (Signals.mapSigvecFromKernel vec words) := by
  refine eachSignal_some (fun i m newvec hpos hle => ?_) (Nat.le_refl 1) (Nat.le_refl 33) _ _
  simp only [hmap i hpos hle, Option.bind_eq_bind, Option.bind_some, Option.pure_def]
  by_cases hmember : sigismember vec i
  · by_cases hsignal : words i ≠ -1 ∧ words i ≠ 0
    · rw [if_pos hmember, if_pos hsignal, if_pos ⟨hmember, hsignal⟩]
    · rw [if_pos hmember, if_neg hsignal, if_neg fun hadded => hsignal hadded.2]
  · rw [if_neg hmember, if_neg fun hadded => hmember hadded.1]

/-- The words of a table of 33. -/
theorem getElem?_of_length (hlength : map.length = nsignals + 1) {i : ℕ} (hle : i ≤ 32) :
    map[i]? = some (map.getD i (-1)) := by
  have hlt : i < map.length := hlength ▸ Nat.lt_succ_of_le hle
  rw [List.getElem?_eq_getElem hlt, List.getD_eq_getElem _ _ hlt]

end Masks

section Calls

variable {personality} {kernel}

theorem isSome_mapSigvecToKernel (vec : BitVec 32) :
    (mapSigvecToKernel vec personality.signalMap).isSome := by
  rw [mapSigvecToKernel_eq fun i _ hle => getElem?_of_length (signalMap_length personality) hle]
  rfl

theorem isSome_mapSigvecFromKernel (vec : BitVec 64) :
    (mapSigvecFromKernel vec personality.signalInvmap).isSome := by
  rw [mapSigvecFromKernel_eq fun i _ hle =>
    getElem?_of_length (signalInvmap_length personality) hle]
  rfl

theorem isSome_abiSigprocmask (how : BitVec 32) (abinset : Option (BitVec 32))
    (abioset : Bool) :
    (abiSigprocmask personality kernel how abinset abioset).isSome ↔ how.toNat < 4 := by
  obtain ⟨nset, hnset⟩ :=
    Option.isSome_iff_exists.mp (isSome_mapM isSome_mapSigvecToKernel abinset)
  rw [abiSigprocmask, hnset, Option.bind_eq_bind, Option.bind_some]
  refine (isSome_bind_iff fun how => ?_).trans isSome_entryAt
  dsimp only
  split
  · exact (isSome_bind_iff fun _ => rfl).mpr (isSome_mapSigvecFromKernel _)
  · rfl

theorem isSome_scoToKernel (action : AbiSigaction) : (scoToKernel personality action).isSome :=
  (isSome_bind_iff fun _ => rfl).mpr (isSome_mapSigvecToKernel action.mask)

theorem isSome_scoFromKernel (action : Sigaction) :
    (scoFromKernel personality action).isSome :=
  (isSome_bind_iff fun _ => rfl).mpr (isSome_mapSigvecFromKernel action.mask)

theorem isSome_xnxSigaction (scoSignum : BitVec 32) (action : Option AbiSigaction)
    (oldaction : Bool) :
    (xnxSigaction personality kernel scoSignum action oldaction).isSome ↔
      0 ≤ scoSignum.toInt := by
  have hword := BitVec.toInt_eq_toNat_cond scoSignum
  rw [xnxSigaction]
  split
  · rename_i hrefused
    exact iff_of_true rfl ((Int.natCast_nonneg nsignals).trans hrefused)
  · rename_i hsmall
    have hindex : scoSignum.toNat ≤ nsignals ↔ 0 ≤ scoSignum.toInt := by
      rw [nsignals] at hsmall ⊢
      split at hword <;> omega
    rw [← hindex, ← isSome_mapEntry]
    refine isSome_bind_iff fun signo => ?_
    refine (isSome_bind_iff fun nsa => ?_).mpr (isSome_mapM isSome_scoToKernel action)
    split
    · rfl
    · split
      · exact (isSome_bind_iff fun _ => rfl).mpr (isSome_scoFromKernel _)
      · rfl

theorem isSome_svr4Waitid (status : BitVec 32) :
    (svr4Waitid personality status).isSome ↔ StatusMeets status := by
  obtain ⟨signo, hsigno⟩ : ∃ signo, mapEntry personality sigchld = some signo :=
    Option.isSome_iff_exists.mp (isSome_mapEntry.mpr (by decide))
  rw [svr4Waitid, hsigno, Option.bind_eq_bind, Option.bind_some, StatusMeets]
  split
  · rename_i hexit
    exact iff_of_true rfl (.inl hexit)
  · rename_i hsignal
    rw [or_iff_right hsignal, ← isSome_invmapEntry]
    split
    · exact isSome_bind_iff fun _ => rfl
    · exact isSome_bind_iff fun _ => rfl

theorem isSome_svr4WaitidCall (idtype id : BitVec 32) (infop : Bool) (options : BitVec 32) :
    (svr4WaitidCall personality kernel idtype id infop options).isSome ↔
      ∀ pid ∈ waitedFor idtype id, infop = true →
        ¬ (kernel.wait4 pid (waitOptions options)).1.slt 0 →
        StatusMeets (kernel.wait4 pid (waitOptions options)).2 := by
  rw [svr4WaitidCall]
  cases waitedFor idtype id with
  | none => simp
  | some pid =>
      simp only [Option.mem_some_iff, forall_eq']
      split
      · rename_i hrefused
        exact iff_of_true rfl fun _ hwaited => absurd hrefused hwaited
      · rename_i hwaited
        split
        · rename_i hinfop
          rw [Option.isSome_map, isSome_svr4Waitid]
          exact ⟨fun hmeets _ _ => hmeets, fun hmeets => hmeets hinfop hwaited⟩
        · rename_i hinfop
          exact iff_of_true rfl fun hasked => absurd hasked hinfop

theorem isSome_remapRegister {registers : List (BitVec 32)} (hlength : registers.length = 19)
    (addr : BitVec 32) :
    (remapRegister registers addr).isSome ↔
      ¬ (addr &&& 0xff00 = 0x4000 ∧ registerIndex addr = nregs) := by
  rw [remapRegister]
  split
  · rename_i hregister
    rw [and_iff_right hregister]
    split
    · rename_i hbehind
      refine iff_of_true rfl fun hlast => ?_
      rw [hlast] at hbehind
      exact absurd hbehind (by decide)
    · rename_i hbefore
      have hle : (registerIndex addr).toNat ≤ 19 := by
        rw [BitVec.ult_iff_lt, BitVec.lt_def, Nat.not_lt] at hbefore
        exact hbefore
      have hlast : registerIndex addr = nregs ↔ (registerIndex addr).toNat = 19 :=
        BitVec.toNat_inj.symm
      rw [hlast]
      refine (isSome_bind_iff fun word => ?_).trans ?_
      · split <;> rfl
      · rw [isSome_entryAt, hlength]
        omega
  · rename_i hother
    exact iff_of_true rfl fun hlast => hother hlast.1

theorem isSome_remapSignal (req data : BitVec 32) :
    (remapSignal personality req data).isSome := by
  rw [remapSignal]
  split
  · split
    · rfl
    · rename_i hsignal
      rw [BitVec.ult_iff_lt, BitVec.lt_def, Nat.not_lt] at hsignal
      rw [Option.isSome_map]
      exact isSome_mapEntry.mpr hsignal
  · rfl

theorem ptraceRequest_eq (req : BitVec 32) :
    (ptraceRequest req = 3 ∨ ptraceRequest req = 6) ↔ (req = 3 ∨ req = 6) := by
  rw [ptraceRequest]
  split
  · rename_i hattach
    subst hattach
    decide
  · split
    · rename_i hdetach
      subst hdetach
      decide
    · rfl

theorem isSome_ptraceCall {uAr0 : BitVec 32} {registers : List (BitVec 32)}
    (hlength : registers.length = 19) (huAr0 : uAr0 &&& 0xff00 ≠ 0x4000)
    (req pid addr data : BitVec 32) :
    (ptraceCall personality kernel uAr0 registers req pid addr data).isSome ↔
      PtraceMeets req addr := by
  have hremap : (if req = 3 ∨ req = 6 then remapRegister registers addr
      else some (.ok addr)).isSome ↔ PtraceMeets req addr := by
    rw [PtraceMeets]
    split
    · rename_i huser
      rw [isSome_remapRegister hlength, and_iff_right huser]
    · rename_i huser
      exact iff_of_true rfl fun hlast => huser hlast.1
  rw [ptraceCall]
  simp only [ptraceRequest_eq]
  split
  · rename_i hoffset
    exact iff_of_true rfl fun hlast => huAr0 (hoffset.2 ▸ hlast.2.1)
  · refine (isSome_bind_iff fun remapped => ?_).trans hremap
    split
    · rfl
    · refine (isSome_bind_iff fun signal => ?_).mpr (isSome_remapSignal _ _)
      split <;> rfl

end Calls

/-! ## The calls whose lookups are in range -/

section Domains

variable {kernel} (exec : PersonalityDomain)

theorem signalMap_word {i : ℕ} (hle : i ≤ nsignals) :
    exec.personality.signalMap[i]? = some (exec.domain.signalMap i) := by
  rw [exec.signalMap_eq i hle]
  exact getElem?_of_length (signalMap_length _) hle

theorem signalInvmap_word {i : ℕ} (hle : i ≤ nsignals) :
    exec.personality.signalInvmap[i]? = some (exec.domain.signalInvmap i) := by
  rw [exec.signalInvmap_eq i hle]
  exact getElem?_of_length (signalInvmap_length _) hle

theorem scoToKernel_eq (action : AbiSigaction) :
    scoToKernel exec.personality action =
      some (action.toKernel exec.domain scoFlags (saNodefer ||| saSiginfo)) := by
  rw [scoToKernel, mapSigvecToKernel_eq fun i _ hle => signalMap_word exec hle]
  rfl

theorem scoFromKernel_eq (action : Sigaction) :
    scoFromKernel exec.personality action = some (action.toAbi exec.domain scoFlags) := by
  rw [scoFromKernel, mapSigvecFromKernel_eq fun i _ hle => signalInvmap_word exec hle]
  rfl

/-- With a number that is not negative `xnx_sigaction` does what it does on tables that
have no end. -/
theorem xnxSigaction_eq {scoSignum : BitVec 32} (hpos : 0 ≤ scoSignum.toInt)
    (action : Option AbiSigaction) :
    xnxSigaction exec.personality kernel scoSignum action true =
      some ((Signals.xnxSigaction exec.domain kernel.task scoSignum action).map
        (fun old => old.map some) id) := by
  rw [xnxSigaction, Signals.xnxSigaction]
  split
  · rfl
  · rename_i hsmall
    have hword : scoSignum.toInt = scoSignum.toNat := by
      rw [BitVec.toInt_eq_toNat_cond] at hpos ⊢
      have hlt := scoSignum.isLt
      split at hpos <;> omega
    have hentry : mapEntry exec.personality scoSignum =
        some (exec.domain.signalMap scoSignum.toInt) := by
      rw [hword]
      exact signalMap_word exec (by omega)
    have hnsa : action.mapM (scoToKernel exec.personality) =
        some (action.map (AbiSigaction.toKernel exec.domain scoFlags
          (saNodefer ||| saSiginfo))) := by
      cases action with
      | none => rfl
      | some action => rw [Option.mapM_some, scoToKernel_eq]; rfl
    rw [hentry, hnsa]
    simp only [Option.bind_eq_bind, Option.bind_some]
    split
    · rename_i hanswer
      rw [hanswer]
      rfl
    · rename_i osa task hanswer
      rw [hanswer, if_pos trivial, scoFromKernel_eq]
      rfl

end Domains

/-- A call reads its tables in their range exactly when its arguments are in range. -/
theorem inTables_iff (personality : Personality) (kernel : Kernel) (call : LookupCall) :
    InTables personality kernel call ↔ LookupMeets kernel call := by
  cases call with
  | abiKill pid sig => exact (isSome_bind_iff fun _ => rfl).trans isSome_mapEntry
  | abiSigprocmask how abinset abioset => exact isSome_abiSigprocmask how abinset abioset
  | xnxSigaction scoSignum action oldaction =>
      exact isSome_xnxSigaction scoSignum action oldaction
  | svr4Waitid idtype id infop options => exact isSome_svr4WaitidCall idtype id infop options
  | svr4Semctl arg1 arg2 arg3 =>
      refine (isSome_bind_iff fun cmd => ?_).trans isSome_entryAt
      split_ifs <;> rfl
  | scoPtrace req pid addr data => exact isSome_ptraceCall rfl (by decide) req pid addr data
  | wysePtrace req pid addr data => exact isSome_ptraceCall rfl (by decide) req pid addr data

/-- Signal 64 has no entry in `signal_map`. -/
theorem kill_outside_table :
    ¬ ∀ (personality : Personality) (kernel : Kernel) (call : LookupCall),
      InTables personality kernel call := by
  intro hall
  have hkill := hall .openServer ⟨startTask, fun _ _ => 0, fun _ _ => (0, 0), fun _ _ => (0, 0),
    fun _ _ _ => (0, 0), fun _ _ _ _ => 0⟩ (.abiKill 1 64)
  exact Bool.false_ne_true hkill

end IbcsUs.Signals.Lookups
