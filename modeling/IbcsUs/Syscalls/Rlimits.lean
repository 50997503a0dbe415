import Mathlib.Data.PNat.Defs
import IbcsUs.Syscalls.Dispatch

/-!
# Resource limits

Three pairs of calls set and report limits: `setrlimit` and `getrlimit` of SVR4,
their 64-bit forms of UnixWare, and `ulimit`.  The kernel keeps the limits by its
own numbers of the resources; it grants what is set or refuses it, and reports what
has been set.
-/

namespace IbcsUs.Rlimits

open IbcsUs.Sysent

/-- `struct rlimit`. -/
structure Rlimit where
  cur : BitVec 32
  max : BitVec 32
  deriving DecidableEq

/-- `struct uw7_rlim64`. -/
structure Uw7Rlim64 where
  cur : BitVec 64
  max : BitVec 64
  deriving DecidableEq

/-! ## The kernel's side -/

/-- The limits by the kernel's numbers. -/
abbrev Limits := ℕ → Rlimit

/-- `RLIM_NLIMITS`. -/
def rlimNlimits : ℕ := 16

def rlimitFsize : ℕ := 1
def rlimitData : ℕ := 2
def rlimitNofile : ℕ := 7

def erange : ℤ := 34
def eperm : ℤ := 1

/-- The kernel's `getrlimit`: the result and what `val` holds then. -/
def kernelGetrlimit (limits : Limits) (resource : ℕ) (val : Rlimit) :
    ℤ × Rlimit :=
  if resource < rlimNlimits then (0, limits resource) else (-einval, val)

/-- The kernel's decision about a limit. -/
abbrev Refusal := ℕ → Rlimit → Option ℕ+

/-- The kernel's `setrlimit`. -/
def kernelSetrlimit (refusal : Refusal) (limits : Limits) (resource : ℕ)
    (val : Rlimit) : ℤ × Limits :=
  if resource < rlimNlimits then
    match refusal resource val with
    | some errno => (-(errno : ℤ), limits)
    | none => (0, Function.update limits resource val)
  else (-einval, limits)

/-! ## SVR4 -/

/-- The switch of `svr4_getrlimit` and `svr4_setrlimit`. -/
def svr4Resource (cmd : ℤ) : Option ℕ :=
  if cmd = 0 then some 0
  else if cmd = 1 then some rlimitFsize
  else if cmd = 2 then some rlimitData
  else if cmd = 3 then some 3
  else if cmd = 4 then some 4
  else if cmd = 5 then some rlimitNofile
  else if cmd = 6 then some 9
  else none

/-- `svr4_getrlimit`: the result and what `val` holds then. -/
def svr4Getrlimit (limits : Limits) (cmd : ℤ) (val : Rlimit) : ℤ × Rlimit :=
  match svr4Resource cmd with
  | none => (-einval, val)
  | some resource => kernelGetrlimit limits resource val

/-- `svr4_setrlimit`, which makes the same call: the result, what `val` holds then,
and the limits. -/
def svr4Setrlimit (limits : Limits) (cmd : ℤ) (val : Rlimit) :
    ℤ × Rlimit × Limits :=
  match svr4Resource cmd with
  | none => (-einval, val, limits)
  | some resource =>
      let (err, val) := kernelGetrlimit limits resource val
      (err, val, limits)

/-! ## UnixWare -/

/-- `uw7_to_linux_rlimit`. -/
def uw7ToLinuxRlimit : List ℕ := [0, rlimitData, 3, 4, rlimitNofile, 9]

/-- An element of the table; `beyond` is what the memory behind it holds. -/
def uw7LinuxRlimit (beyond : ℕ → ℕ) (resource : ℕ) : ℕ :=
  uw7ToLinuxRlimit.getD resource (beyond resource)

/-- The elements of the table that `uw7_getrlimit64` reads.  `resource` is compared
as an unsigned number. -/
def uw7Reads (resource : BitVec 32) : List ℕ :=
  if uw7ToLinuxRlimit.length < resource.toNat then [] else [resource.toNat]

def Rlimit.widen (rlim : Rlimit) : Uw7Rlim64 :=
  ⟨rlim.cur.setWidth 64, rlim.max.setWidth 64⟩

def Uw7Rlim64.narrow (rlim : Uw7Rlim64) : Rlimit :=
  ⟨rlim.cur.setWidth 32, rlim.max.setWidth 32⟩

/-- `uw7_rlim64_to_user`; `stack` is what the local held. -/
def uw7Rlim64ToUser (limits : Limits) (resource : ℕ) (stack : Rlimit)
    (rlimp : Uw7Rlim64) : ℤ × Uw7Rlim64 :=
  let (error, lxrlim) := kernelGetrlimit limits resource stack
  if error ≠ 0 then (error, rlimp) else (0, lxrlim.widen)

/-- `uw7_getrlimit64`. -/
def uw7Getrlimit64 (beyond : ℕ → ℕ) (limits : Limits) (resource : BitVec 32)
    (stack : Rlimit) (rlimp : Uw7Rlim64) : ℤ × Uw7Rlim64 :=
  if uw7ToLinuxRlimit.length < resource.toNat then (-einval, rlimp)
  else
    uw7Rlim64ToUser limits (uw7LinuxRlimit beyond resource.toNat) stack rlimp

/-- `capable`; `answer` is that of `linux26_capability`. -/
def capable (answer : ℤ) : ℤ := if answer ≠ 0 then 0 else -eperm

/-- `RLIM_INFINITY`. -/
def rlimInfinity : BitVec 64 := 0xffffffff

/-- `uw7_check_rlimit64`. -/
def uw7CheckRlimit64 (answer : ℤ) (resource : BitVec 32) (rlim : Uw7Rlim64)
    (lxrlim : Rlimit) : ℤ :=
  if rlimInfinity < rlim.cur ∨ rlimInfinity < rlim.max then -eperm
  else if (lxrlim.widen.max < rlim.cur ∨ lxrlim.widen.max < rlim.max) ∧
      capable answer = 0 then -eperm
  else if resource.toNat = rlimitNofile ∧ (1024 < rlim.cur ∨ 1024 < rlim.max)
    then -eperm
  else 0

/-- `uw7_setrlimit64`, which asks about the capability and hands on the number of the
resource as it is. -/
def uw7Setrlimit64 (refusal : Refusal) (answer : ℤ) (limits : Limits)
    (resource : BitVec 32) (rlim : Uw7Rlim64) : ℤ × Limits :=
  if uw7ToLinuxRlimit.length < resource.toNat then (-einval, limits)
  else if uw7CheckRlimit64 answer resource rlim ⟨0, 0⟩ ≠ 0 then (-eperm, limits)
  else kernelSetrlimit refusal limits resource.toNat rlim.narrow

/-! ## ulimit -/

/-- `U_GETFSIZE` and the commands that follow it. -/
def uGetfsize : ℤ := 1
def uSetfsize : ℤ := 2
def uGetmemlim : ℤ := 3
def uGetmaxopen : ℤ := 4

/-- `ULIM_MAX_BLOCKSIZE`. -/
def ulimMaxBlocksize : ℤ := (2 ^ 31 - 1) / 2 ^ 9

/-- A number in 512-byte blocks. -/
def blocks (bytes : BitVec 32) : BitVec 32 := bytes >>> 9

/-- The limit that `svr4_ulimit` hands to the kernel. -/
def ulimitRlimit (rlim : Rlimit) (val : BitVec 32) : Rlimit :=
  let limCur := val <<< 9
  ⟨limCur, if rlim.max < limCur then limCur else rlim.max⟩

/-- `svr4_ulimit`: the result and the limits. -/
def svr4Ulimit (refusal : Refusal) (answer : ℤ) (limits : Limits) (cmd : ℤ)
    (val : BitVec 32) : ℤ × Limits :=
  if cmd = uGetfsize then ((blocks (limits rlimitFsize).cur).toInt, limits)
  else if cmd = uSetfsize then
    let rlim := limits rlimitFsize
    if ulimMaxBlocksize < val.toInt ∨ val.toInt < 0 then (-erange, limits)
    else if rlim.max < val <<< 9 ∧ capable answer = 0 then (-eperm, limits)
    else
      -- the kernel's answer is dropped
      (0, (kernelSetrlimit refusal limits rlimitFsize
        (ulimitRlimit rlim val)).2)
  else if cmd = uGetmemlim then ((limits rlimitData).cur.toInt, limits)
  else if cmd = uGetmaxopen then ((limits rlimitNofile).cur.toInt, limits)
  else (-einval, limits)

/-! ## What is asked -/

/-- What the getter reports, given what it reported before: after 0 the limit that
was set, after an error what it reported before. -/
def TakesEffect {Report : Type} (result : ℤ) (set before after : Report) : Prop :=
  (result = 0 → after = set) ∧ (result ≠ 0 → after = before)

def Svr4Right (limits : Limits) (cmd : ℤ) (val seen : Rlimit) : Prop :=
  let outcome := svr4Setrlimit limits cmd val
  TakesEffect outcome.1 (0, val) (svr4Getrlimit limits cmd seen)
    (svr4Getrlimit outcome.2.2 cmd seen)

def Uw7Right (refusal : Refusal) (answer : ℤ) (beyond : ℕ → ℕ) (limits : Limits)
    (resource : BitVec 32) (rlim seen : Uw7Rlim64) (stack : Rlimit) : Prop :=
  let outcome := uw7Setrlimit64 refusal answer limits resource rlim
  TakesEffect outcome.1 (0, rlim)
    (uw7Getrlimit64 beyond limits resource stack seen)
    (uw7Getrlimit64 beyond outcome.2 resource stack seen)

def UlimitRight (refusal : Refusal) (answer : ℤ) (limits : Limits)
    (val : BitVec 32) : Prop :=
  let outcome := svr4Ulimit refusal answer limits uSetfsize val
  TakesEffect outcome.1 val.toInt
    (svr4Ulimit refusal answer limits uGetfsize 0).1
    (svr4Ulimit refusal answer outcome.2 uGetfsize 0).1

/-- The rows named `setrlimit` and `getrlimit` reach the setter and the getter. -/
def RowsRight (rows : List Row) : Prop :=
  rows[128]?.map Row.syscall = some (.callee .svr4Setrlimit) ∧
    rows[129]?.map Row.syscall = some (.callee .svr4Getrlimit)

/-- The table is read within its bounds. -/
def ReadsRight (resource : BitVec 32) : Prop :=
  ∀ index ∈ uw7Reads resource, index < uw7ToLinuxRlimit.length

/-- The limit is in force already, or the resource is unknown. -/
def Svr4Meets (limits : Limits) (cmd : ℤ) (val : Rlimit) : Prop :=
  ∀ resource, svr4Resource cmd = some resource → limits resource = val

/-- A limit that is checked and granted is for a resource with the same number on
both sides, or it is in force already for the resource the table names. -/
def Uw7Meets (refusal : Refusal) (answer : ℤ) (beyond : ℕ → ℕ) (limits : Limits)
    (resource : BitVec 32) (rlim : Uw7Rlim64) : Prop :=
  resource.toNat ≤ uw7ToLinuxRlimit.length →
    uw7CheckRlimit64 answer resource rlim ⟨0, 0⟩ = 0 →
    refusal resource.toNat rlim.narrow = none →
    uw7LinuxRlimit beyond resource.toNat < rlimNlimits ∧
      (uw7LinuxRlimit beyond resource.toNat = resource.toNat ∨
        limits (uw7LinuxRlimit beyond resource.toNat) = rlim.narrow)

/-- A size within the bounds that the kernel refuses is in force already. -/
def UlimitMeets (refusal : Refusal) (answer : ℤ) (limits : Limits)
    (val : BitVec 32) : Prop :=
  0 ≤ val.toInt → val.toInt ≤ ulimMaxBlocksize →
    ((limits rlimitFsize).max < val <<< 9 → capable answer ≠ 0) →
    refusal rlimitFsize (ulimitRlimit (limits rlimitFsize) val) ≠ none →
    blocks (limits rlimitFsize).cur = val

theorem neg_einval_ne_zero : -einval ≠ 0 := by decide

theorem neg_erange_ne_zero : -erange ≠ 0 := by decide

theorem neg_eperm_ne_zero : -eperm ≠ 0 := by decide

/-! ## SVR4 -/

theorem svr4Resource_lt {cmd : ℤ} {resource : ℕ}
    (hresource : svr4Resource cmd = some resource) : resource < rlimNlimits := by
  simp only [svr4Resource] at hresource
  split_ifs at hresource <;> cases hresource <;> decide

theorem svr4Right_iff (limits : Limits) (cmd : ℤ) (val seen : Rlimit) :
    Svr4Right limits cmd val seen ↔ Svr4Meets limits cmd val := by
  rw [Svr4Right, Svr4Meets]
  simp only [svr4Setrlimit, svr4Getrlimit]
  cases hresource : svr4Resource cmd with
  | none =>
    refine iff_of_true
      ⟨fun hzero => absurd hzero neg_einval_ne_zero, fun _ => rfl⟩ ?_
    rintro _ ⟨⟩
  | some resource =>
    have hget : ∀ seen, kernelGetrlimit limits resource seen =
        (0, limits resource) := fun _ => if_pos (svr4Resource_lt hresource)
    simp only [hget]
    constructor
    · rintro ⟨hset, -⟩ _ ⟨⟩
      exact (Prod.mk.inj (hset rfl)).2
    · intro hforce
      refine ⟨fun _ => ?_, fun herr => absurd rfl herr⟩
      rw [hforce resource rfl]

/-! ## UnixWare -/

theorem le_rlimInfinity_of_check {answer : ℤ} {resource : BitVec 32}
    {rlim : Uw7Rlim64} {lxrlim : Rlimit}
    (hcheck : uw7CheckRlimit64 answer resource rlim lxrlim = 0) :
    rlim.cur ≤ rlimInfinity ∧ rlim.max ≤ rlimInfinity := by
  rw [uw7CheckRlimit64] at hcheck
  split_ifs at hcheck with hbig
  · cases hcheck
  all_goals exact ⟨BitVec.not_lt.mp (not_or.mp hbig).1,
    BitVec.not_lt.mp (not_or.mp hbig).2⟩

theorem widen_narrow {number : BitVec 64} (hsmall : number ≤ rlimInfinity) :
    (number.setWidth 32).setWidth 64 = number := by
  apply BitVec.eq_of_toNat_eq
  have hbound : number.toNat ≤ 2 ^ 32 - 1 := hsmall
  rw [BitVec.toNat_setWidth, BitVec.toNat_setWidth]
  omega

@[simp]
theorem narrow_widen (rlim : Rlimit) : rlim.widen.narrow = rlim := by
  simp [Rlimit.widen, Uw7Rlim64.narrow]

/-- A checked limit is the kernel's, in 64 bits. -/
theorem widen_eq_iff {answer : ℤ} {resource : BitVec 32} {rlim : Uw7Rlim64}
    {lxrlim : Rlimit}
    (hcheck : uw7CheckRlimit64 answer resource rlim lxrlim = 0)
    (limit : Rlimit) : limit.widen = rlim ↔ limit = rlim.narrow := by
  obtain ⟨hcur, hmax⟩ := le_rlimInfinity_of_check hcheck
  constructor
  · rintro rfl
    exact (narrow_widen limit).symm
  · rintro rfl
    rw [Rlimit.widen, Uw7Rlim64.narrow, widen_narrow hcur, widen_narrow hmax]

/-- What the getter reports of an accepted resource. -/
theorem uw7Getrlimit64_eq (beyond : ℕ → ℕ) (limits : Limits)
    {resource : BitVec 32} (hle : resource.toNat ≤ uw7ToLinuxRlimit.length)
    (stack : Rlimit) (seen : Uw7Rlim64) :
    uw7Getrlimit64 beyond limits resource stack seen =
      if uw7LinuxRlimit beyond resource.toNat < rlimNlimits then
        (0, (limits (uw7LinuxRlimit beyond resource.toNat)).widen)
      else (-einval, seen) := by
  rw [uw7Getrlimit64, if_neg (not_lt.mpr hle), uw7Rlim64ToUser, kernelGetrlimit]
  by_cases hnumber : uw7LinuxRlimit beyond resource.toNat < rlimNlimits
  · rw [if_pos hnumber, if_pos hnumber]
    rfl
  · rw [if_neg hnumber, if_neg hnumber]
    rfl

/-- A limit that is not checked and granted changes nothing. -/
theorem uw7Setrlimit64_cases (refusal : Refusal) (answer : ℤ) (limits : Limits)
    (resource : BitVec 32) (rlim : Uw7Rlim64) :
    ((uw7Setrlimit64 refusal answer limits resource rlim).1 ≠ 0 ∧
      (uw7Setrlimit64 refusal answer limits resource rlim).2 = limits ∧
      ¬ (resource.toNat ≤ uw7ToLinuxRlimit.length ∧
        uw7CheckRlimit64 answer resource rlim ⟨0, 0⟩ = 0 ∧
        refusal resource.toNat rlim.narrow = none)) ∨
    (resource.toNat ≤ uw7ToLinuxRlimit.length ∧
      uw7CheckRlimit64 answer resource rlim ⟨0, 0⟩ = 0 ∧
      refusal resource.toNat rlim.narrow = none ∧
      uw7Setrlimit64 refusal answer limits resource rlim =
        (0, Function.update limits resource.toNat rlim.narrow)) := by
  rw [uw7Setrlimit64]
  by_cases hbig : uw7ToLinuxRlimit.length < resource.toNat
  · rw [if_pos hbig]
    exact .inl ⟨neg_einval_ne_zero, rfl,
      fun hgranted => absurd hgranted.1 (not_le.mpr hbig)⟩
  · rw [if_neg hbig]
    by_cases hcheck : uw7CheckRlimit64 answer resource rlim ⟨0, 0⟩ = 0
    · have hnumber : resource.toNat < rlimNlimits :=
        (not_lt.mp hbig).trans_lt (by decide)
      rw [if_neg (not_not.mpr hcheck), kernelSetrlimit, if_pos hnumber]
      cases hrefusal : refusal resource.toNat rlim.narrow with
      | none => exact .inr ⟨not_lt.mp hbig, hcheck, rfl, rfl⟩
      | some errno =>
        have hpos := errno.pos
        refine .inl ⟨?_, rfl, fun hgranted => nomatch hgranted.2.2⟩
        simp
    · rw [if_pos hcheck]
      exact .inl ⟨neg_eperm_ne_zero, rfl, fun hgranted => hcheck hgranted.2.1⟩

theorem uw7Right_iff (refusal : Refusal) (answer : ℤ) (beyond : ℕ → ℕ)
    (limits : Limits) (resource : BitVec 32) (rlim seen : Uw7Rlim64)
    (stack : Rlimit) :
    Uw7Right refusal answer beyond limits resource rlim seen stack ↔
      Uw7Meets refusal answer beyond limits resource rlim := by
  rw [Uw7Right]
  obtain ⟨herr, hsame, hnot⟩ | ⟨hle, hcheck, hrefusal, hset⟩ :=
    uw7Setrlimit64_cases refusal answer limits resource rlim
  · simp only [hsame]
    refine iff_of_true ⟨fun hzero => absurd hzero herr, fun _ => rfl⟩ ?_
    intro hle hcheck hrefusal
    exact absurd ⟨hle, hcheck, hrefusal⟩ hnot
  · simp only [hset, uw7Getrlimit64_eq beyond _ hle]
    have hmeets : Uw7Meets refusal answer beyond limits resource rlim ↔
        uw7LinuxRlimit beyond resource.toNat < rlimNlimits ∧
          Function.update limits resource.toNat rlim.narrow
            (uw7LinuxRlimit beyond resource.toNat) = rlim.narrow := by
      rw [Function.update_apply]
      constructor
      · intro hmeets
        obtain ⟨hnumber, hsame | hforce⟩ := hmeets hle hcheck hrefusal
        · exact ⟨hnumber, if_pos hsame⟩
        · refine ⟨hnumber, ?_⟩
          split
          · rfl
          · exact hforce
      · rintro ⟨hnumber, hforce⟩ - - -
        refine ⟨hnumber, ?_⟩
        split at hforce
        · next hsame => exact .inl hsame
        · exact .inr hforce
    rw [hmeets, ← widen_eq_iff hcheck]
    constructor
    · rintro ⟨hreport, -⟩
      have hreport := hreport rfl
      split at hreport
      · next hnumber => exact ⟨hnumber, (Prod.mk.inj hreport).2⟩
      · exact absurd (Prod.mk.inj hreport).1 (by decide)
    · rintro ⟨hnumber, hforce⟩
      refine ⟨fun _ => ?_, fun herr => absurd rfl herr⟩
      rw [if_pos hnumber, hforce]

theorem readsRight_iff (resource : BitVec 32) :
    ReadsRight resource ↔ resource ≠ 6 := by
  have hsix : resource = 6 ↔ resource.toNat = 6 := by
    rw [← BitVec.toNat_inj]
    rfl
  have hlength : uw7ToLinuxRlimit.length = 6 := rfl
  rw [ReadsRight, uw7Reads, Ne, hsix, hlength]
  split_ifs with hbig
  · exact iff_of_true (fun index hindex => nomatch hindex) hbig.ne'
  · simp only [List.mem_singleton, forall_eq]
    omega

/-! ## ulimit -/

theorem blocks_shiftLeft {val : BitVec 32} (hneg : 0 ≤ val.toInt)
    (hbig : val.toInt ≤ ulimMaxBlocksize) : blocks (val <<< 9) = val := by
  have hbound : val.toInt ≤ 4194303 := hbig
  apply BitVec.eq_of_toNat_eq
  rw [blocks, BitVec.toNat_ushiftRight, BitVec.toNat_shiftLeft,
    Nat.shiftRight_eq_div_pow, Nat.shiftLeft_eq]
  rw [BitVec.toInt_eq_toNat_cond] at hneg hbound
  split_ifs at hneg hbound <;> omega

theorem ulimitRight_iff (refusal : Refusal) (answer : ℤ) (limits : Limits)
    (val : BitVec 32) :
    UlimitRight refusal answer limits val ↔
      UlimitMeets refusal answer limits val := by
  have hreport : ∀ limits,
      (svr4Ulimit refusal answer limits uGetfsize 0).1 =
        (blocks (limits rlimitFsize).cur).toInt := fun _ => rfl
  rw [UlimitRight]
  simp only [hreport]
  have hsetter : svr4Ulimit refusal answer limits uSetfsize val =
      if ulimMaxBlocksize < val.toInt ∨ val.toInt < 0 then (-erange, limits)
      else if (limits rlimitFsize).max < val <<< 9 ∧ capable answer = 0 then
        (-eperm, limits)
      else (0, (kernelSetrlimit refusal limits rlimitFsize
        (ulimitRlimit (limits rlimitFsize) val)).2) := rfl
  rw [hsetter]
  split_ifs with hrange hperm
  · refine iff_of_true
      ⟨fun hzero => absurd hzero neg_erange_ne_zero, fun _ => rfl⟩ ?_
    intro hneg hbig
    exact absurd hrange (not_or.mpr ⟨not_lt.mpr hbig, not_lt.mpr hneg⟩)
  · refine iff_of_true
      ⟨fun hzero => absurd hzero neg_eperm_ne_zero, fun _ => rfl⟩ ?_
    intro _ _ hcapable
    exact absurd hperm.2 (hcapable hperm.1)
  · obtain ⟨hbig, hneg⟩ := not_or.mp hrange
    rw [not_lt] at hbig hneg
    have hcapable : (limits rlimitFsize).max < val <<< 9 → capable answer ≠ 0 :=
      fun hmax hzero => hperm ⟨hmax, hzero⟩
    rw [kernelSetrlimit, if_pos (by decide)]
    cases hrefusal :
        refusal rlimitFsize (ulimitRlimit (limits rlimitFsize) val) with
    | none =>
      refine iff_of_true ⟨fun _ => ?_, fun herr => absurd rfl herr⟩ ?_
      · simp only [Function.update_self, ulimitRlimit]
        rw [blocks_shiftLeft hneg hbig]
      · intro _ _ _ hrefused
        exact absurd hrefusal hrefused
    | some errno =>
      have hrefused : refusal rlimitFsize
          (ulimitRlimit (limits rlimitFsize) val) ≠ none := by
        rw [hrefusal]
        exact Option.some_ne_none errno
      constructor
      · intro hright _ _ _ _
        exact BitVec.eq_of_toInt_eq (hright.1 rfl)
      · intro hmeets
        refine ⟨fun _ => ?_, fun herr => absurd rfl herr⟩
        exact congrArg BitVec.toInt (hmeets hneg hbig hcapable hrefused)

/-! ## All of them -/

theorem not_rowsRight (table : Table) (htable : table = .sco ∨ table = .uw7) :
    ¬ RowsRight table.rows := by
  have hrow : table.rows[128]?.map Row.syscall =
      some (.callee .svr4Getrlimit) := by
    obtain rfl | rfl := htable <;> rfl
  intro hright
  exact absurd (hrow.symm.trans hright.1) (by decide)

/-- When a limit that is set takes effect, for each of the three pairs; the rows of
`setrlimit` and `getrlimit` are exchanged, and resource 6 is looked up behind the
table. -/
theorem rlimits_takeEffect_iff (refusal : Refusal) (answer : ℤ)
    (beyond : ℕ → ℕ) (limits : Limits) (cmd : ℤ) (resource val : BitVec 32)
    (given seen stack : Rlimit) (given64 seen64 : Uw7Rlim64) :
    (Svr4Right limits cmd given seen ↔ Svr4Meets limits cmd given) ∧
    (Uw7Right refusal answer beyond limits resource given64 seen64 stack ↔
      Uw7Meets refusal answer beyond limits resource given64) ∧
    (UlimitRight refusal answer limits val ↔
      UlimitMeets refusal answer limits val) ∧
    ¬ RowsRight scoSyscallTable ∧ ¬ RowsRight uw7SyscallTable ∧
    (ReadsRight resource ↔ resource ≠ 6) :=
  ⟨svr4Right_iff limits cmd given seen,
    uw7Right_iff refusal answer beyond limits resource given64 seen64 stack,
    ulimitRight_iff refusal answer limits val,
    not_rowsRight .sco (.inl rfl), not_rowsRight .uw7 (.inr rfl),
    readsRight_iff resource⟩

/-- `setrlimit(RLIMIT_CORE, {0, 0})` where the limit is 1. -/
theorem core_limit_stays :
    ¬ ((∀ (limits : Limits) (cmd : ℤ) (given seen : Rlimit),
        Svr4Right limits cmd given seen) ∧
      (∀ (refusal : Refusal) (answer : ℤ) (beyond : ℕ → ℕ) (limits : Limits)
        (resource : BitVec 32) (rlim seen : Uw7Rlim64) (stack : Rlimit),
        Uw7Right refusal answer beyond limits resource rlim seen stack) ∧
      (∀ (refusal : Refusal) (answer : ℤ) (limits : Limits) (val : BitVec 32),
        UlimitRight refusal answer limits val) ∧
      RowsRight scoSyscallTable ∧ RowsRight uw7SyscallTable ∧
      ∀ resource, ReadsRight resource) := by
  rintro ⟨hall, -⟩
  have hright := hall (fun _ => ⟨1, 1⟩) 4 ⟨0, 0⟩ ⟨0, 0⟩
  rw [svr4Right_iff] at hright
  exact absurd (hright 4 rfl) (by decide)

end IbcsUs.Rlimits
