import Mathlib.Data.BitVec
import Mathlib.Data.Nat.Cast.Order.Ring
import Mathlib.Order.Nat

/-!
# The high-resolution timers

`hrtalarm` gives a program the interval timers of the kernel.  Its command block holds
two times of three words each, the last of them a resolution; the kernel's structure
holds two times of two words.  The set commands take the words one time after the
other.  The get command copies the kernel's structure in one piece over the words of
the first time and on into the second.
-/

namespace IbcsUs.Hrtsys

/-- `struct hrt_time_t`. -/
structure HrtTime where
  secs : BitVec 32
  subSec : BitVec 32
  resolution : BitVec 32
  deriving DecidableEq

/-- `struct hrtcmd`, as far as it is read or written. -/
structure Hrtcmd where
  cmd : BitVec 32
  clk : BitVec 32
  interval : HrtTime
  tod : HrtTime
  deriving DecidableEq

structure Timeval where
  sec : BitVec 32
  usec : BitVec 32
  deriving DecidableEq

structure Itimerval where
  interval : Timeval
  value : Timeval
  deriving DecidableEq

/-! ## The kernel's side -/

/-- What the kernel accepts as a time. -/
def Timeval.Valid (tv : Timeval) : Prop :=
  tv.sec.toNat < 2 ^ 31 ∧ tv.usec.toNat < 1000000

def Itimerval.Valid (it : Itimerval) : Prop := it.interval.Valid ∧ it.value.Valid

instance (tv : Timeval) : Decidable tv.Valid := inferInstanceAs (Decidable (_ ∧ _))

instance (it : Itimerval) : Decidable it.Valid := inferInstanceAs (Decidable (_ ∧ _))

/-- The interval timers of a process. -/
structure Timers where
  timer : ℕ → Itimerval
  valid : ∀ which, (timer which).Valid

/-- `setitimer`. -/
def setitimer (timers : Timers) (which : ℕ) (new : Itimerval) : ℤ × Timers :=
  if hvalid : new.Valid then
    (0, { timer := Function.update timers.timer which new
          valid := fun other => by
            by_cases hother : other = which
            · rw [hother, Function.update_self]
              exact hvalid
            · rw [Function.update_of_ne hother]
              exact timers.valid other })
  else (-22, timers)

/-- `getitimer`, which leaves `buffer` as it was when the kernel refuses. -/
def getitimer (refusal : Option ℕ) (timers : Timers) (which : ℕ)
    (buffer : Itimerval) : ℤ × Itimerval :=
  match refusal with
  | some errno => (-errno, buffer)
  | none => (0, timers.timer which)

/-! ## `ibcs_hrtalarm` -/

/-- The timer that a clock stands for. -/
def whichTimer (clk : BitVec 32) : Option ℕ :=
  if clk = 4 then some 2 else if clk = 2 then some 1 else if clk = 1 then some 0 else none

structure HrtOutcome where
  retval : ℤ
  timers : Timers
  block : Hrtcmd

/-- Two words of a time, as `copy_from_user` takes them. -/
def HrtTime.timeval (time : HrtTime) : Timeval := ⟨time.secs, time.subSec⟩

/-- `memset` of a `struct timeval`. -/
def Timeval.zero : Timeval := ⟨0, 0⟩

def ticks : BitVec 32 := 1000000

/-- `copy_to_user` of a `struct itimerval` to the third word of the block. -/
def Hrtcmd.copyTimer (block : Hrtcmd) (it : Itimerval) : Hrtcmd :=
  { block with
    interval := ⟨it.interval.sec, it.interval.usec, it.value.sec⟩
    tod := { block.tod with secs := it.value.usec } }

section Hrtalarm

variable (refusal : Option ℕ) (buffer : Itimerval) (timers : Timers) (block : Hrtcmd)

/-- The command, for a timer: `refusal` is the kernel's answer if it refuses a
`getitimer`, and `buffer` what the stack holds. -/
def command (which : ℕ) : HrtOutcome :=
  let set (new : Itimerval) : HrtOutcome :=
    let (retval, timers) := setitimer timers which new
    ⟨retval, timers, block⟩
  if block.cmd = 0xc then
    if block.interval.resolution ≠ ticks then ⟨-22, timers, block⟩
    else set ⟨Timeval.zero, block.interval.timeval⟩
  else if block.cmd = 0xd then
    let (_, buffer) := getitimer refusal timers which buffer
    let block := { block with interval := { block.interval with resolution := ticks } }
    ⟨1, timers, block.copyTimer buffer⟩
  else if block.cmd = 0xf then
    if block.interval.resolution ≠ ticks then ⟨-22, timers, block⟩
    else if block.tod.resolution ≠ ticks then ⟨-22, timers, block⟩
    else set ⟨block.interval.timeval, block.tod.timeval⟩
  else if block.cmd = 0x10 then set ⟨Timeval.zero, Timeval.zero⟩
  else ⟨-22, timers, block⟩

/-- `ibcs_hrtalarm`, with the number of blocks and whether the block can be
written. -/
def ibcsHrtalarm (count : BitVec 32) (writable : Bool) : HrtOutcome :=
  if count ≠ 1 then ⟨-22, timers, block⟩
  else if !writable then ⟨-14, timers, block⟩
  else
    match whichTimer block.clk with
    | none => ⟨-22, timers, block⟩
    | some which => command refusal buffer timers block which

end Hrtalarm

/-- A call with one block that can be written. -/
def hrtalarm (refusal : Option ℕ) (buffer : Itimerval) (timers : Timers)
    (block : Hrtcmd) : HrtOutcome :=
  ibcsHrtalarm refusal buffer timers block 1 true

/-! ## What the commands have to do together -/

/-- The block with another command. -/
def Hrtcmd.withCmd (block : Hrtcmd) (cmd : BitVec 32) : Hrtcmd := { block with cmd := cmd }

/-- A use of the timers: a get and a set with the same block; a set by command 0xc or
0xf and then a get; and a get that the kernel refuses. -/
inductive TimerUse where
  | getThenSet (block : Hrtcmd)
  | setThenGet (periodic : Bool) (block after : Hrtcmd)
  | refusedGet (errno : ℕ) (block : Hrtcmd)

/-- What command 0xf, or 0xc, sets. -/
def requested (periodic : Bool) (block : Hrtcmd) : Itimerval :=
  if periodic then ⟨block.interval.timeval, block.tod.timeval⟩
  else ⟨Timeval.zero, block.interval.timeval⟩

def setCommand (periodic : Bool) : BitVec 32 := if periodic then 0xf else 0xc

/-- The block reports the interval and the value. -/
def Hrtcmd.Reports (block : Hrtcmd) (it : Itimerval) : Prop :=
  block.interval.timeval = it.interval ∧ block.tod.timeval = it.value

section Uses

variable (buffer : Itimerval) (timers : Timers)

/-- What is promised of a use of a clock that is accepted. -/
def UseRight : TimerUse → Prop
  | .getThenSet block =>
      ∀ which, whichTimer block.clk = some which →
        let got := hrtalarm none buffer timers (block.withCmd 0xd)
        0 ≤ got.retval →
        let set := hrtalarm none buffer got.timers (got.block.withCmd 0xf)
        0 ≤ set.retval ∧ set.timers.timer which = timers.timer which
  | .setThenGet periodic block after =>
      whichTimer block.clk ≠ none → after.clk = block.clk →
        let set := hrtalarm none buffer timers (block.withCmd (setCommand periodic))
        0 ≤ set.retval →
        let got := hrtalarm none buffer set.timers (after.withCmd 0xd)
        0 ≤ got.retval ∧ got.block.Reports (requested periodic block)
  | .refusedGet errno block =>
      whichTimer block.clk ≠ none →
        let got := hrtalarm (some errno) buffer timers (block.withCmd 0xd)
        got.retval = -errno ∧ got.block = block.withCmd 0xd

/-- The set command is accepted: its resolutions are microseconds and its times
valid. -/
def SetAccepted (periodic : Bool) (block : Hrtcmd) : Prop :=
  block.interval.resolution = ticks ∧ (periodic → block.tod.resolution = ticks) ∧
    (requested periodic block).Valid

/-- The uses that keep the promise: those of a clock that is refused; and a set that
is refused, or of a value whose seconds are its microseconds, when the block of the
get holds them already. -/
def UseMeets : TimerUse → Prop
  | .getThenSet block => whichTimer block.clk = none
  | .setThenGet periodic block after =>
      whichTimer block.clk = none ∨ after.clk ≠ block.clk ∨
        ¬ SetAccepted periodic block ∨
        ((requested periodic block).value.usec = (requested periodic block).value.sec ∧
          after.tod.subSec = (requested periodic block).value.usec)
  | .refusedGet _ block => whichTimer block.clk = none

end Uses

/-! ## The commands -/

section Commands

variable {refusal : Option ℕ} {buffer : Itimerval} {timers : Timers} {block : Hrtcmd}
  {which : ℕ}

theorem hrtalarm_eq (block : Hrtcmd) (hwhich : whichTimer block.clk = some which) :
    hrtalarm refusal buffer timers block = command refusal buffer timers block which := by
  simp [hrtalarm, ibcsHrtalarm, hwhich]

/-- The get command reports success whatever the kernel answers. -/
theorem hrtalarm_get (hwhich : whichTimer block.clk = some which) :
    hrtalarm refusal buffer timers (block.withCmd 0xd) =
      ⟨1, timers, (block.withCmd 0xd).copyTimer
        (getitimer refusal timers which buffer).2⟩ := by
  rw [hrtalarm_eq (block.withCmd 0xd) hwhich]
  rfl

theorem setitimer_of_valid {new : Itimerval} (hvalid : new.Valid) :
    (setitimer timers which new).1 = 0 ∧
      (setitimer timers which new).2.timer which = new := by
  rw [setitimer, dif_pos hvalid]
  exact ⟨rfl, Function.update_self ..⟩

theorem setitimer_of_not_valid {new : Itimerval} (hvalid : ¬ new.Valid) :
    (setitimer timers which new).1 = -22 := by
  rw [setitimer, dif_neg hvalid]

/-- A set whose resolutions are right hands its times to the kernel. -/
theorem hrtalarm_set {periodic : Bool} (hwhich : whichTimer block.clk = some which)
    (hresolution : block.interval.resolution = ticks)
    (htod : periodic → block.tod.resolution = ticks) :
    hrtalarm refusal buffer timers (block.withCmd (setCommand periodic)) =
      ⟨(setitimer timers which (requested periodic block)).1,
        (setitimer timers which (requested periodic block)).2,
        block.withCmd (setCommand periodic)⟩ := by
  rw [hrtalarm_eq (block.withCmd (setCommand periodic)) hwhich]
  cases periodic with
  | false => simp [command, Hrtcmd.withCmd, setCommand, hresolution, requested]
  | true =>
      simp [command, Hrtcmd.withCmd, setCommand, hresolution, htod rfl, requested]

/-- A set with another resolution is refused. -/
theorem hrtalarm_set_refused {periodic : Bool}
    (hwhich : whichTimer block.clk = some which)
    (hresolution : ¬ (block.interval.resolution = ticks ∧
      (periodic → block.tod.resolution = ticks))) :
    (hrtalarm refusal buffer timers (block.withCmd (setCommand periodic))).retval =
      -22 := by
  rw [hrtalarm_eq (block.withCmd (setCommand periodic)) hwhich]
  by_cases hinterval : block.interval.resolution = ticks
  · cases periodic with
    | false => exact absurd ⟨hinterval, fun h => by cases h⟩ hresolution
    | true =>
        have htod : block.tod.resolution ≠ ticks :=
          fun h => hresolution ⟨hinterval, fun _ => h⟩
        simp [command, Hrtcmd.withCmd, setCommand, hinterval, htod]
  · cases periodic <;> simp [command, Hrtcmd.withCmd, setCommand, hinterval]

/-- A set succeeds exactly when it is accepted, and the timer is then what was asked
for. -/
theorem hrtalarm_set_accepted {periodic : Bool}
    (hwhich : whichTimer block.clk = some which) (haccepted : SetAccepted periodic block) :
    (hrtalarm refusal buffer timers
        (block.withCmd (setCommand periodic))).retval = 0 ∧
      (hrtalarm refusal buffer timers
        (block.withCmd (setCommand periodic))).timers.timer which =
          requested periodic block := by
  obtain ⟨hresolution, htod, hvalid⟩ := haccepted
  rw [hrtalarm_set hwhich hresolution htod]
  exact setitimer_of_valid hvalid

theorem hrtalarm_set_of_not_accepted {periodic : Bool}
    (hwhich : whichTimer block.clk = some which)
    (haccepted : ¬ SetAccepted periodic block) :
    (hrtalarm refusal buffer timers
      (block.withCmd (setCommand periodic))).retval = -22 := by
  by_cases hresolution : block.interval.resolution = ticks ∧
      (periodic → block.tod.resolution = ticks)
  · rw [hrtalarm_set hwhich hresolution.1 hresolution.2]
    exact setitimer_of_not_valid
      fun hvalid => haccepted ⟨hresolution.1, hresolution.2, hvalid⟩
  · exact hrtalarm_set_refused hwhich hresolution

end Commands

/-! ## The uses -/

section Uses

variable (buffer : Itimerval) (timers : Timers)

/-- What a get leaves cannot be given to a set: the word of the resolution holds the
seconds of the value, and its microseconds stand for seconds. -/
theorem not_getThenSet {block : Hrtcmd} {which : ℕ}
    (hwhich : whichTimer block.clk = some which) :
    ¬ UseRight buffer timers (.getThenSet block) := by
  intro hright
  have hright := hright which hwhich
  simp only [hrtalarm_get hwhich, getitimer] at hright
  obtain ⟨hretval, htimer⟩ := hright (by decide)
  set got := (block.withCmd 0xd).copyTimer (timers.timer which) with hgot
  have hclk : whichTimer got.clk = some which := hwhich
  by_cases haccepted : SetAccepted true got
  · have hset : (hrtalarm none buffer timers (got.withCmd 0xf)).timers.timer which =
        requested true got := (hrtalarm_set_accepted hclk haccepted).2
    have hvalue : requested true got = timers.timer which := hset.symm.trans htimer
    have hsec : (timers.timer which).value.sec = ticks := haccepted.1
    have husec : (timers.timer which).value.usec = (timers.timer which).value.sec :=
      congrArg (fun it => it.value.sec) hvalue
    have hlt := (timers.valid which).2.2
    rw [husec, hsec] at hlt
    exact absurd hlt (by decide)
  · have hset : (hrtalarm none buffer timers (got.withCmd 0xf)).retval = -22 :=
      hrtalarm_set_of_not_accepted hclk haccepted
    rw [hset] at hretval
    omega

theorem getThenSet_iff (block : Hrtcmd) :
    UseRight buffer timers (.getThenSet block) ↔ UseMeets (.getThenSet block) := by
  cases hwhich : whichTimer block.clk with
  | none =>
      refine iff_of_true (fun which hsome => ?_) hwhich
      rw [hwhich] at hsome
      cases hsome
  | some which =>
      refine iff_of_false (not_getThenSet buffer timers hwhich) fun hmeets => ?_
      rw [UseMeets, hwhich] at hmeets
      cases hmeets

/-- A get after a set reports the interval, and of the value its microseconds as
seconds. -/
theorem setThenGet_iff (periodic : Bool) (block after : Hrtcmd) :
    UseRight buffer timers (.setThenGet periodic block after) ↔
      UseMeets (.setThenGet periodic block after) := by
  simp only [UseRight, UseMeets]
  cases hwhich : whichTimer block.clk with
  | none => simp
  | some which =>
      by_cases hclk : after.clk = block.clk
      swap
      · simp [hclk]
      by_cases haccepted : SetAccepted periodic block
      swap
      · rw [hrtalarm_set_of_not_accepted hwhich haccepted]
        simp [haccepted]
      have hafter : whichTimer after.clk = some which := hclk ▸ hwhich
      have hset : (hrtalarm none buffer timers
            (block.withCmd (setCommand periodic))).retval = 0 ∧
          (hrtalarm none buffer timers
            (block.withCmd (setCommand periodic))).timers.timer which =
              requested periodic block := hrtalarm_set_accepted hwhich haccepted
      obtain ⟨hretval, htimer⟩ := hset
      simp only [hrtalarm_get hafter, getitimer, hretval, htimer, hclk, haccepted,
        reduceCtorEq, ne_eq, not_false_eq_true, not_true_eq_false, forall_const,
        le_refl, false_or, zero_le_one, true_and]
      simp only [Hrtcmd.Reports, Hrtcmd.copyTimer, HrtTime.timeval, Hrtcmd.withCmd,
        true_and]
      constructor
      · intro hvalue
        exact ⟨congrArg Timeval.sec hvalue, congrArg Timeval.usec hvalue⟩
      · rintro ⟨hsec, husec⟩
        rw [hsec, husec]

theorem refusedGet_iff (errno : ℕ) (block : Hrtcmd) :
    UseRight buffer timers (.refusedGet errno block) ↔
      UseMeets (.refusedGet errno block) := by
  simp only [UseRight, UseMeets]
  cases hwhich : whichTimer block.clk with
  | none => simp
  | some which =>
      rw [hrtalarm_get hwhich]
      refine iff_of_false (fun hright => ?_) (by simp)
      obtain ⟨hretval, -⟩ := hright (by simp)
      have : (1 : ℤ) = -errno := hretval
      omega

end Uses

/-- A use of the timers keeps its promise exactly when it meets the condition. -/
theorem timerUse_right_iff (buffer : Itimerval) (timers : Timers) (use : TimerUse) :
    UseRight buffer timers use ↔ UseMeets use := by
  cases use with
  | getThenSet block => exact getThenSet_iff buffer timers block
  | setThenGet periodic block after =>
      exact setThenGet_iff buffer timers periodic block after
  | refusedGet errno block => exact refusedGet_iff buffer timers errno block

/-- Three timers that are not running. -/
def idleTimers : Timers where
  timer _ := ⟨Timeval.zero, Timeval.zero⟩
  valid _ := by decide

/-- A block for the first clock, with resolutions of microseconds. -/
def plainBlock : Hrtcmd := ⟨0, 1, ⟨0, 0, ticks⟩, ⟨0, 0, ticks⟩⟩

theorem timerUse_wrong :
    ¬ ∀ (buffer : Itimerval) (timers : Timers) (use : TimerUse),
      UseRight buffer timers use := by
  intro h
  have hright := h ⟨Timeval.zero, Timeval.zero⟩ idleTimers (.getThenSet plainBlock) 0
    (by decide) (by decide)
  have hretval : (hrtalarm none ⟨Timeval.zero, Timeval.zero⟩ idleTimers
      ((hrtalarm none ⟨Timeval.zero, Timeval.zero⟩ idleTimers
        (plainBlock.withCmd 0xd)).block.withCmd 0xf)).retval = -22 := by
    decide
  exact absurd (hretval ▸ hright.1) (by decide)

end IbcsUs.Hrtsys
