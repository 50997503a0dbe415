import IbcsUs.Syscalls.Seek

/-!
# Sleeping for some milliseconds

`xnx_nap` turns its period into clock ticks, waits for them with `select`, and returns
the time that has passed.  The conversion is right.  The call is not:
`linux26_schedule_timeout` passes the five arguments of `select` in registers, under
the number of the old call, which takes one pointer to a block of them.  The first
argument is 0, and so the kernel looks for its block at address 0.
-/

namespace IbcsUs.Nap

open IbcsUs.Syscalls

/-- Clock ticks a second. -/
def hz : ℤ := 100

/-! ## The conversion -/

/-- The variables of `xnx_nap` before the wait. -/
structure Ticks where
  periodS : ℤ
  periodMsHz : ℤ
  periodJ : ℤ
  deriving DecidableEq

/-- `period_j` before the correction. -/
def ticks (period : ℤ) : Ticks :=
  let periodS := period.tdiv 1000
  let periodMsHz := (period - periodS * 1000) * hz
  ⟨periodS, periodMsHz, periodS * hz + periodMsHz.tdiv 1000⟩

/-- `period_j`. -/
def periodJ (period : ℤ) : ℤ :=
  let periodJ := (ticks period).periodJ
  if period > periodJ * (1000 / hz) then periodJ + 1 else periodJ

structure Timeval where
  sec : ℤ
  usec : ℤ
  deriving DecidableEq

/-- The `tv` of `linux26_schedule_timeout`. -/
def timeout (periodInJiffies : ℤ) : Timeval :=
  let sec := periodInJiffies.tdiv hz
  ⟨sec, ((periodInJiffies - sec * hz) * 1000).tdiv hz * 1000⟩

def Timeval.micros (tv : Timeval) : ℤ := tv.sec * 1000000 + tv.usec

/-- Every value computed on the way to the wait. -/
def intermediates (period : ℤ) : List ℤ :=
  let t := ticks period
  let j := periodJ period
  let tv := timeout j
  [t.periodS, t.periodS * 1000, period - t.periodS * 1000, t.periodMsHz,
    t.periodS * hz, t.periodMsHz.tdiv 1000, t.periodJ, t.periodJ * (1000 / hz), j,
    tv.sec, tv.sec * hz, j - tv.sec * hz, (j - tv.sec * hz) * 1000,
    ((j - tv.sec * hz) * 1000).tdiv hz, tv.usec]

/-- The value returned after a wait. -/
def elapsed (tv1 tv2 : Timeval) : ℤ :=
  (tv2.sec - tv1.sec) * 1000 + (tv2.usec - tv1.usec + 500).tdiv 1000

/-! ## The kernel's side -/

def nrSelect : ℕ := 82
def nrNewselect : ℕ := 142

/-- The five arguments of `select`. -/
structure SelectRequest where
  n : BitVec 32
  inp : BitVec 32
  outp : BitVec 32
  exp : BitVec 32
  tvp : BitVec 32
  deriving DecidableEq

/-- The arguments that the kernel takes for a call number, `none` where it cannot
read the block of the old call; `memory` holds the words that can be read. -/
def selectRequest (memory : BitVec 32 → Option (BitVec 32)) (number : ℕ)
    (registers : Registers) : Option SelectRequest :=
  if number = nrSelect then do
    let block := registers.ebx
    let n ← memory block
    let inp ← memory (block + 4)
    let outp ← memory (block + 8)
    let exp ← memory (block + 12)
    let tvp ← memory (block + 16)
    return ⟨n, inp, outp, exp, tvp⟩
  else some ⟨registers.ebx, registers.ecx, registers.edx, registers.esi, registers.edi⟩

/-- The time a request that watches nothing waits, in microseconds. -/
def SelectRequest.waits (memory : BitVec 32 → Option (BitVec 32))
    (request : SelectRequest) : Option ℤ :=
  if request.n = 0 ∧ request.tvp ≠ 0 then do
    let sec ← memory request.tvp
    let usec ← memory (request.tvp + 4)
    return (Timeval.mk sec.toInt usec.toInt).micros
  else none

def efault : ℤ := 14

/-! ## `xnx_nap` -/

/-- What a call meets: the words that can be read, what the stack holds above the
arguments of `ibcs_syscall`, where the locals of `linux26_schedule_timeout` lie, and
what the kernel answers to a request. -/
structure World where
  memory : BitVec 32 → Option (BitVec 32)
  above : ℕ → BitVec 32
  zfdset : BitVec 32
  tv : BitVec 32
  tv_low : 0x1000 ≤ tv.toNat
  tv_high : tv.toNat + 8 ≤ 2 ^ 32
  answer : SelectRequest → ℤ

section Nap

variable (world : World) (period : ℤ)

/-- The registers of `IBCS_SYSCALL(select, 0, &zfdset, &zfdset, &zfdset, &tv)`. -/
def scheduleRegisters : Registers :=
  vsyscallRegisters world.above
    [.int 0, .int world.zfdset, .int world.zfdset, .int world.zfdset, .int world.tv]

/-- The words that can be read while `linux26_schedule_timeout` waits: `tv` is among
them. -/
def scheduleMemory (periodInJiffies : ℤ) (address : BitVec 32) : Option (BitVec 32) :=
  if address = world.tv then some (BitVec.ofInt 32 (timeout periodInJiffies).sec)
  else if address = world.tv + 4 then
    some (BitVec.ofInt 32 (timeout periodInJiffies).usec)
  else world.memory address

/-- The request that the kernel sees. -/
def scheduleRequest (periodInJiffies : ℤ) : Option SelectRequest :=
  selectRequest (scheduleMemory world periodInJiffies) nrSelect (scheduleRegisters world)

/-- `linux26_schedule_timeout`. -/
def scheduleTimeout (periodInJiffies : ℤ) : ℤ :=
  match scheduleRequest world periodInJiffies with
  | none => -efault
  | some request => world.answer request

/-- `xnx_nap`, with the two readings of the clock. -/
def xnxNap (tv1 tv2 : Timeval) : ℤ :=
  if period = 0 then 0
  else
    let error := scheduleTimeout world (periodJ period)
    if error < 0 then error else elapsed tv1 tv2

/-! ## What a nap has to be -/

/-- One request waits at least the period and less than a tick longer. -/
def NapWaits : Prop :=
  ∃ request micros, scheduleRequest world (periodJ period) = some request ∧
    request.waits (scheduleMemory world (periodJ period)) = some micros ∧
    period * 1000 ≤ micros ∧ micros < (period + 1000 / hz) * 1000

/-- No intermediate value leaves the range of a `long`. -/
def NoOverflow : Prop :=
  ∀ value ∈ intermediates period, -2 ^ 31 ≤ value ∧ value < 2 ^ 31

/-- A number of milliseconds is as near to the microseconds as any. -/
def IsNearest (millis micros : ℤ) : Prop :=
  -500 ≤ micros - millis * 1000 ∧ micros - millis * 1000 ≤ 500

/-- A reading of `gettimeofday`. -/
def Timeval.Valid (tv : Timeval) : Prop := 0 ≤ tv.usec ∧ tv.usec < 1000000

/-- The value is the difference of the readings, whatever they are. -/
def NapReturns : Prop :=
  ∀ tv1 tv2 : Timeval, tv1.Valid → tv2.Valid →
    IsNearest (xnxNap world period tv1 tv2) (tv2.micros - tv1.micros)

def NapRight : Prop :=
  NapWaits world period ∧ NoOverflow period ∧ NapReturns world period

end Nap

/-! ## The conversion is right -/

section Conversion

variable {period : ℤ}

theorem ticks_periodJ_eq (hpos : 0 < period) : (ticks period).periodJ = period / 10 := by
  have hsec : period.tdiv 1000 = period / 1000 := Int.tdiv_eq_ediv_of_nonneg (by omega)
  have hms : ((period - period / 1000 * 1000) * 100).tdiv 1000 =
      (period - period / 1000 * 1000) * 100 / 1000 :=
    Int.tdiv_eq_ediv_of_nonneg (by omega)
  simp only [ticks, hz, hsec, hms]
  omega

/-- The ticks are the period in units of ten milliseconds, rounded up. -/
theorem periodJ_bounds (hpos : 0 < period) :
    period ≤ periodJ period * 10 ∧ periodJ period * 10 < period + 10 := by
  simp only [periodJ, ticks_periodJ_eq hpos, hz]
  split_ifs <;> omega

/-- The timeout is exactly the ticks. -/
theorem timeout_micros {jiffies : ℤ} (hnonneg : 0 ≤ jiffies) :
    (timeout jiffies).micros = jiffies * 10000 := by
  have hsec : jiffies.tdiv 100 = jiffies / 100 := Int.tdiv_eq_ediv_of_nonneg hnonneg
  have husec : ((jiffies - jiffies / 100 * 100) * 1000).tdiv 100 =
      (jiffies - jiffies / 100 * 100) * 1000 / 100 :=
    Int.tdiv_eq_ediv_of_nonneg (by omega)
  simp only [timeout, Timeval.micros, hz, hsec, husec]
  omega

/-- The timeout that `xnx_nap` asks for is in range. -/
theorem timeout_periodJ (hpos : 0 < period) :
    period * 1000 ≤ (timeout (periodJ period)).micros ∧
      (timeout (periodJ period)).micros < (period + 1000 / hz) * 1000 := by
  obtain ⟨hlow, hhigh⟩ := periodJ_bounds hpos
  rw [timeout_micros (by omega)]
  simp only [hz]
  omega

/-- Nothing overflows. -/
theorem noOverflow (hpos : 0 < period) (hlt : period < 2 ^ 31) : NoOverflow period := by
  obtain ⟨hlow, hhigh⟩ := periodJ_bounds hpos
  have hsec : period.tdiv 1000 = period / 1000 := Int.tdiv_eq_ediv_of_nonneg (by omega)
  have hms : ((period - period / 1000 * 1000) * 100).tdiv 1000 =
      (period - period / 1000 * 1000) * 100 / 1000 :=
    Int.tdiv_eq_ediv_of_nonneg (by omega)
  have htv : (periodJ period).tdiv 100 = periodJ period / 100 :=
    Int.tdiv_eq_ediv_of_nonneg (by omega)
  have husec : ((periodJ period - periodJ period / 100 * 100) * 1000).tdiv 100 =
      (periodJ period - periodJ period / 100 * 100) * 1000 / 100 :=
    Int.tdiv_eq_ediv_of_nonneg (by omega)
  intro value hvalue
  simp only [intermediates, ticks, timeout, hz, hsec, hms, htv, husec,
    List.mem_cons, List.not_mem_nil, or_false] at hvalue
  obtain rfl | rfl | rfl | rfl | rfl | rfl | rfl | rfl | rfl | rfl | rfl | rfl | rfl |
    rfl | rfl := hvalue <;> omega

end Conversion

/-! ## The wait -/

section Wait

variable {world : World} {period : ℤ}

theorem scheduleRegisters_eq :
    scheduleRegisters world =
      ⟨0, world.zfdset, world.zfdset, world.zfdset, world.tv, world.above 0⟩ := rfl

/-- The first page is not where the locals are. -/
theorem scheduleMemory_zero (jiffies : ℤ) :
    scheduleMemory world jiffies 0 = world.memory 0 := by
  have hlow := world.tv_low
  have hhigh := world.tv_high
  have hself : (0 : BitVec 32) ≠ world.tv := fun heq => by
    rw [← heq] at hlow
    exact absurd hlow (by decide)
  have hnext : (0 : BitVec 32) ≠ world.tv + 4 := fun heq => by
    have hnat := congrArg BitVec.toNat heq
    rw [BitVec.toNat_add] at hnat
    simp at hnat
    omega
  rw [scheduleMemory, if_neg hself, if_neg hnext]

/-- With nothing to read at address 0 the kernel refuses the request. -/
theorem scheduleRequest_of_unreadable (hzero : world.memory 0 = none) (jiffies : ℤ) :
    scheduleRequest world jiffies = none := by
  have hblock : scheduleMemory world jiffies 0 = none :=
    (scheduleMemory_zero jiffies).trans hzero
  rw [scheduleRequest, scheduleRegisters_eq, selectRequest, if_pos rfl]
  simp only [hblock, Option.bind_eq_bind, Option.bind_none]

/-- The same registers under the number of the new call would have been right. -/
theorem newselect_waits (hpos : 0 < period) (hlt : period < 2 ^ 31) :
    ∃ request micros,
      selectRequest (scheduleMemory world (periodJ period)) nrNewselect
        (scheduleRegisters world) = some request ∧
      request.waits (scheduleMemory world (periodJ period)) = some micros ∧
      period * 1000 ≤ micros ∧ micros < (period + 1000 / hz) * 1000 := by
  obtain ⟨hlow, hhigh⟩ := timeout_periodJ hpos
  have hrange := noOverflow hpos hlt
  have hsec := hrange (timeout (periodJ period)).sec (by simp [intermediates])
  have husec := hrange (timeout (periodJ period)).usec (by simp [intermediates])
  have htv : world.tv ≠ 0 := fun heq => by
    have hlow := world.tv_low
    rw [heq] at hlow
    exact absurd hlow (by decide)
  have hnext : world.tv + 4 ≠ world.tv := by
    intro heq
    have hnat := congrArg BitVec.toNat heq
    have hhigh := world.tv_high
    rw [BitVec.toNat_add] at hnat
    simp at hnat
    omega
  refine ⟨⟨0, world.zfdset, world.zfdset, world.zfdset, world.tv⟩,
    (timeout (periodJ period)).micros, rfl, ?_, hlow, hhigh⟩
  rw [SelectRequest.waits, if_pos ⟨rfl, htv⟩]
  simp only [scheduleMemory, if_neg hnext, if_true, Option.bind_eq_bind,
    Option.bind_some, Option.pure_def, Option.some.injEq]
  rw [BitVec.toInt_ofInt_eq_self (by decide) hsec.1 hsec.2,
    BitVec.toInt_ofInt_eq_self (by decide) husec.1 husec.2]

/-! ## The value -/

/-- The value after a wait is the nearest number of milliseconds unless the
microseconds run back by more than half a millisecond; the division then rounds
towards zero, and is right only when it leaves no remainder. -/
theorem elapsed_nearest_iff (tv1 tv2 : Timeval) :
    IsNearest (elapsed tv1 tv2) (tv2.micros - tv1.micros) ↔
      -500 ≤ tv2.usec - tv1.usec ∨ (tv2.usec - tv1.usec + 500) % 1000 = 0 := by
  simp only [IsNearest, elapsed, Timeval.micros]
  by_cases hsign : 0 ≤ tv2.usec - tv1.usec + 500
  · rw [Int.tdiv_eq_ediv_of_nonneg hsign]
    omega
  · have hneg : (tv2.usec - tv1.usec + 500).tdiv 1000 =
        -((-(tv2.usec - tv1.usec + 500)) / 1000) := by
      rw [← Int.tdiv_eq_ediv_of_nonneg (by omega), Int.neg_tdiv, neg_neg]
    rw [hneg]
    omega

/-- Whatever the wait does, there are readings for which the value is not their
difference: half a second short of one by 600 microseconds. -/
theorem not_napReturns (hpos : 0 < period) : ¬ NapReturns world period := by
  intro hreturns
  have hnearest := hreturns ⟨0, 600⟩ ⟨1, 0⟩ (by simp [Timeval.Valid])
    (by simp [Timeval.Valid])
  rw [xnxNap, if_neg hpos.ne'] at hnearest
  by_cases herror : scheduleTimeout world (periodJ period) < 0
  · simp only [if_pos herror, IsNearest, Timeval.micros] at hnearest
    omega
  · simp only [if_neg herror] at hnearest
    rw [elapsed_nearest_iff] at hnearest
    revert hnearest
    decide

end Wait

/-- No period is slept right; and where nothing can be read at address 0, every call
is refused at once. -/
theorem nap_never_right (world : World) (period : ℤ) (hpos : 0 < period) :
    ¬ NapRight world period ∧
      (world.memory 0 = none → ¬ NapWaits world period ∧
        ∀ tv1 tv2, xnxNap world period tv1 tv2 = -efault) := by
  refine ⟨fun hright => not_napReturns hpos hright.2.2, fun hzero => ?_⟩
  have hrequest := scheduleRequest_of_unreadable hzero (periodJ period)
  constructor
  · rintro ⟨request, micros, hsome, -⟩
    rw [hrequest] at hsome
    cases hsome
  · intro tv1 tv2
    rw [xnxNap, if_neg hpos.ne', scheduleTimeout, hrequest]
    rfl

/-- A process with nothing at address 0. -/
def unmappedWorld : World where
  memory _ := none
  above _ := 0
  zfdset := 0xbffff000
  tv := 0xbffff100
  tv_low := by decide
  tv_high := by decide
  answer _ := 0

theorem nap_one_never_right :
    ¬ NapRight unmappedWorld 1 ∧
      (unmappedWorld.memory 0 = none → ¬ NapWaits unmappedWorld 1 ∧
        ∀ tv1 tv2, xnxNap unmappedWorld 1 tv1 tv2 = -efault) :=
  nap_never_right unmappedWorld 1 (by decide)

theorem nap_wrong :
    ¬ ∀ (world : World) (period : ℤ), 1 ≤ period → period < 2 ^ 31 →
        NapRight world period := by
  intro h
  obtain ⟨⟨request, micros, hrequest, -⟩, -⟩ := h unmappedWorld 1 (by decide) (by decide)
  have hnone : scheduleRequest unmappedWorld (periodJ 1) = none :=
    scheduleRequest_of_unreadable rfl _
  rw [hnone] at hrequest
  cases hrequest

end IbcsUs.Nap
