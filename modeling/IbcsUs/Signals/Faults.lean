import IbcsUs.Signals.Sigactions

/-!
# Genuine faults

`lcall_sigsegv` gets every SIGSEGV.  One that no `lcall` has caused belongs to the
emulated program, and the function delivers it in the kernel's place, by the
disposition that the program's calls have left in `_linux26_sigtab`.
-/

namespace IbcsUs.Signals

open IbcsUs.Sysent

/-! ## The code -/

/-- The calls that set dispositions. -/
inductive Request where
  | signal (word vec : BitVec 32)
  | sigset (word vec : BitVec 32)
  | sigignore (word : BitVec 32)
  | sigaction (signum : BitVec 32) (action : Option AbiSigaction)
  | xnxSigaction (signum : BitVec 32) (action : Option AbiSigaction)

/-- The function that a call is answered by. -/
def answer (domain : Domain) (task : Task) : Request → Task
  | .signal word vec => abiSignal domain task word vec
  | .sigset word vec => abiSigset domain task word vec
  | .sigignore word => abiSigignore domain task word
  | .sigaction signum action => (abiSigaction domain task signum action).2
  | .xnxSigaction signum action => (xnxSigaction domain task signum action).2

/-- The calls of a program. -/
def answerAll (domain : Domain) (task : Task) (requests : List Request) : Task :=
  requests.foldl (answer domain) task

/-- The `lcall` at an address, if it is one that is a system call; `none` where
memory that cannot be read is looked at. -/
def lcallGate (memory : BitVec 32 → Option (BitVec 8)) (ip : BitVec 32) :
    Option (Option (BitVec 16)) := do
  let opcode ← memory ip
  if opcode ≠ 0x9a then return none
  let first ← memory (ip + 1)
  let second ← memory (ip + 2)
  let third ← memory (ip + 3)
  let fourth ← memory (ip + 4)
  if fourth ++ third ++ second ++ first ≠ (0 : BitVec 32) then return none
  let low ← memory (ip + 5)
  let high ← memory (ip + 6)
  let gate := high ++ low
  if gate = 7 ∨ gate = 27 then return some gate
  return none

/-- How a fault goes on. -/
inductive Outcome where
  /-- A fault in the function itself, which runs with all signals blocked: the
  kernel kills the process. -/
  | killed
  /-- The `lcall` is patched. -/
  | patched (gate : BitVec 16)
  /-- An address is called with the number of the signal. -/
  | called (handler signal : BitVec 32)
  /-- The function returns, and the instruction faults again. -/
  | retried
  deriving DecidableEq

/-- `lcall_sigsegv`. -/
def lcallSigsegv (task : Task) (memory : BitVec 32 → Option (BitVec 8))
    (ip : BitVec 32) : Outcome × Task :=
  match lcallGate memory ip with
  | none => (.killed, task)
  | some (some gate) => (.patched gate, task)
  | some none =>
      let sa := task.sigtab sigSegv.toNat
      if sa.flags &&& saSiginfo ≠ 0 then (.called sa.handler sigSegv, task)
      else if sa.handler = sigIgn then (.retried, task)
      else if sa.handler ≠ sigDfl then (.called sa.handler sigSegv, task)
      else (.retried, (ibcsSigaction task sigSegv (some sa)).2)

/-! ## What is meant -/

/-- What a program has asked for. -/
structure Disposition where
  handler : BitVec 32
  resethand : Bool
  deriving DecidableEq

/-- The Linux signal that a call is about, if its number is one. -/
def Request.names (domain : Domain) (request : Request) (sig : BitVec 32) :
    Prop :=
  match request with
  | .signal word _ => abiMapsig domain (word &&& 0xff) = sig
  | .sigset word _ => abiMapsig domain (word &&& 0xff) = sig
  | .sigignore word => abiMapsig domain (word &&& 0xff) = sig
  | .sigaction signum _ => abiMapsig domain signum = sig
  | .xnxSigaction signum _ =>
      signum.toInt < nsignals ∧ domain.signalMap signum.toInt = sig

instance (domain : Domain) (request : Request) (sig : BitVec 32) :
    Decidable (request.names domain sig) := by
  cases request <;> unfold Request.names <;> infer_instance

/-- The disposition that a call asks for. -/
def Request.disposition : Request → Option Disposition
  | .signal _ vec => some ⟨vec, true⟩
  | .sigset _ vec => if vec = sigHold then none else some ⟨vec, false⟩
  | .sigignore _ => some ⟨sigIgn, false⟩
  | .sigaction _ action =>
      action.map fun action => ⟨action.handler, action.flags &&& 2 ≠ 0⟩
  | .xnxSigaction _ action => action.map fun action => ⟨action.handler, false⟩

/-- The disposition that a call sets for SIGSEGV. -/
def Request.sets (domain : Domain) (request : Request) : Option Disposition :=
  if request.names domain sigSegv then request.disposition else none

/-- The last disposition that the calls set for SIGSEGV. -/
def lastSet (domain : Domain) (requests : List Request) : Option Disposition :=
  requests.foldl (fun last request => (request.sets domain).or last) none

/-- The task of a program that has set nothing yet: `exec` leaves no handler. -/
def Fresh (task : Task) : Prop :=
  task.segv.flags = 0 ∧
    (task.segv.handler = sigDfl ∨ task.segv.handler = sigIgn)

/-- The default action is taken. -/
def EndsInDefault (after : Outcome × Task) : Prop :=
  after.1 = .killed ∨
    after.1 = .retried ∧ (after.2.actions sigSegv.toNat).handler = sigDfl

/-- A fault is delivered as the kernel would deliver it. -/
def DeliveredAs (disposition : Disposition) (after : Outcome × Task) : Prop :=
  if disposition.handler = sigDfl then EndsInDefault after
  else if disposition.handler = sigIgn then
    ∀ signal, after.1 ≠ .called sigIgn signal ∧ after.1 ≠ .called sigDfl signal
  else
    after.1 = .called disposition.handler sigSegv ∧
      (disposition.resethand = true → after.2.segv.handler = sigDfl)

/-- A fault behind the calls is delivered as the last of them asks. -/
def FaultRight (domain : Domain) (task : Task) (requests : List Request)
    (memory : BitVec 32 → Option (BitVec 8)) (ip : BitVec 32) : Prop :=
  DeliveredAs
    ((lastSet domain requests).getD ⟨task.segv.handler, false⟩)
    (lcallSigsegv (answerAll domain task requests) memory ip)

/-- A call that sets a handler has not asked for a reset, and the instruction can be
read; a call that sets anything else is right only where the instruction cannot. -/
def FaultMeets (domain : Domain) (requests : List Request)
    (memory : BitVec 32 → Option (BitVec 8)) (ip : BitVec 32) : Prop :=
  ∀ last, lastSet domain requests = some last →
    if last.handler = sigDfl ∨ last.handler = sigIgn then
      lcallGate memory ip = none
    else lcallGate memory ip ≠ none ∧ last.resethand = false

/-! ## One call -/

/-- A call sets the disposition of SIGSEGV that it asks for, if it names SIGSEGV and
asks for one, and leaves it as it is otherwise.  Whatever it sets, it wants to be
called with `siginfo`. -/
structure Effect (named : Prop) (asked : Option Disposition)
    (before after : Task) : Prop where
  keeps : ¬ named ∨ asked = none → after.segv = before.segv
  sets : ∀ disposition, named → asked = some disposition →
    after.segv.handler = disposition.handler ∧
      after.segv.flags &&& saSiginfo ≠ 0

section Call

variable {domain : Domain} {task after : Task} {sig word vec : BitVec 32}
  {named : Prop} {asked : Option Disposition}

theorem Effect.same (hsegv : after.segv = task.segv)
    (hnothing : ¬ named ∨ asked = none) : Effect named asked task after where
  keeps _ := hsegv
  sets disposition hnamed hasked := by
    cases hnothing with
    | inl hnot => exact absurd hnamed hnot
    | inr hnone => simp [hnone] at hasked

theorem Effect.congr {other : Task} (heffect : Effect named asked task after)
    (hsegv : other.segv = after.segv) : Effect named asked task other where
  keeps hnothing := hsegv.trans (heffect.keeps hnothing)
  sets := by
    rw [hsegv]
    exact heffect.sets

theorem effect_linux26RtSigaction {action : Sigaction}
    {disposition : Disposition} (hhandler : action.handler = disposition.handler)
    (hflags : action.flags &&& saSiginfo ≠ 0) :
    Effect (sig = sigSegv) (some disposition) task
      (linux26RtSigaction task sig (some action)).2 := by
  have hsegv := segv_linux26RtSigaction task sig (some action)
  rw [segv_storeSigtab] at hsegv
  constructor
  · intro hnothing
    rwa [if_neg (hnothing.resolve_right (Option.some_ne_none _))] at hsegv
  · intro other hnamed hasked
    rw [if_pos hnamed] at hsegv
    rw [hsegv, ← Option.some.inj hasked]
    exact ⟨hhandler, hflags⟩

theorem and_saSiginfo_handlerFlags (oneshot : Bool) :
    handlerFlags oneshot &&& saSiginfo ≠ 0 := by
  cases oneshot <;> decide

theorem effect_abiSigHandler (handler : BitVec 32) (oneshot : Bool) :
    Effect (sig = sigSegv) (some ⟨handler, oneshot⟩) task
      (abiSigHandler domain task sig handler oneshot) := by
  have heffect := @effect_linux26RtSigaction task sig
    ⟨handler, handlerFlags oneshot, 0⟩ ⟨handler, oneshot⟩ rfl
    (and_saSiginfo_handlerFlags oneshot)
  apply heffect.congr
  rw [abiSigHandler]
  rcases linux26RtSigaction task sig _ with ⟨_ | _, _⟩ <;> rfl

theorem effect_withSigno {body : BitVec 32 → Task}
    (hbody : ∀ sig, Effect (sig = sigSegv) asked task (body sig)) :
    Effect (abiMapsig domain (word &&& 0xff) = sigSegv) asked task
      (withSigno domain task word body) := by
  unfold withSigno
  dsimp only
  by_cases hnone : abiMapsig domain (word &&& 0xff) = -1
  · rw [if_pos hnone, hnone]
    exact Effect.same rfl (Or.inl (by decide))
  · rw [if_neg hnone]
    exact hbody _

theorem and_saSiginfo_addFlags (pairs : List (BitVec 32 × BitVec 32))
    {start : BitVec 32} (flags : BitVec 32)
    (hstart : start &&& saSiginfo ≠ 0) :
    addFlags pairs start flags &&& saSiginfo ≠ 0 := by
  rw [addFlags]
  induction pairs generalizing start with
  | nil => exact hstart
  | cons pair pairs ih =>
    apply ih
    dsimp only
    split_ifs
    · intro hzero
      rw [BitVec.and_or_distrib_right] at hzero
      exact hstart (BitVec.or_eq_zero_iff.mp hzero).1
    · exact hstart

theorem effect_toKernel {pairs : List (BitVec 32 × BitVec 32)}
    {start : BitVec 32} (action : Option AbiSigaction)
    (resethand : AbiSigaction → Bool) (hstart : start &&& saSiginfo ≠ 0) :
    Effect (sig = sigSegv)
      (action.map fun action => ⟨action.handler, resethand action⟩) task
      (linux26RtSigaction task sig
        (action.map (AbiSigaction.toKernel domain pairs start))).2 := by
  cases action with
  | none => exact Effect.same (segv_linux26RtSigaction task sig none) (Or.inr rfl)
  | some action =>
    exact effect_linux26RtSigaction rfl
      (and_saSiginfo_addFlags pairs action.flags hstart)

/-- What one call does to the disposition of SIGSEGV. -/
theorem effect_answer (domain : Domain) (task : Task) (request : Request) :
    Effect (request.names domain sigSegv) request.disposition task
      (answer domain task request) := by
  unfold Request.names Request.disposition
  cases request with
  | signal word vec =>
    exact effect_withSigno fun sig => effect_abiSigHandler vec true
  | sigset word vec =>
    dsimp only [answer, abiSigset]
    apply effect_withSigno
    intro sig
    by_cases hhold : vec = sigHold
    · rw [if_pos hhold, if_neg (not_not_intro hhold)]
      exact Effect.same (segv_kernelSigprocmask _ _) (Or.inr rfl)
    · rw [if_neg hhold, if_pos hhold]
      exact (effect_abiSigHandler vec false).congr (segv_kernelSigprocmask _ _)
  | sigignore word =>
    dsimp only [answer, abiSigignore]
    apply effect_withSigno
    intro sig
    have heffect := @effect_linux26RtSigaction task sig
      ⟨sigIgn, saSiginfo, 0⟩ ⟨sigIgn, false⟩ rfl (by decide)
    apply heffect.congr
    rcases linux26RtSigaction task sig _ with ⟨_ | _, _⟩ <;> rfl
  | sigaction signum action =>
    dsimp only [answer, abiSigaction]
    by_cases hnone : abiMapsig domain signum = -1
    · rw [if_pos hnone, hnone]
      exact Effect.same rfl (Or.inl (by decide))
    · rw [if_neg hnone]
      exact effect_toKernel action _ (by decide)
  | xnxSigaction signum action =>
    dsimp only [answer, xnxSigaction]
    by_cases hout : (nsignals : ℤ) ≤ signum.toInt
    · rw [if_pos hout]
      exact Effect.same rfl (Or.inl fun hnames => hout.not_gt hnames.1)
    · rw [if_neg hout, and_iff_right (not_le.mp hout)]
      exact effect_toKernel action _ (by decide)

end Call

/-! ## Calls and faults -/

section Fault

variable {domain : Domain} {task : Task} {requests : List Request}
  {memory : BitVec 32 → Option (BitVec 8)} {ip : BitVec 32}

/-- What the calls have left: the disposition at the start, or the last one set. -/
def Shows (start now : Sigaction) : Option Disposition → Prop
  | none => now = start
  | some last => now.handler = last.handler ∧ now.flags &&& saSiginfo ≠ 0

theorem shows_answer {start : Sigaction} {last : Option Disposition}
    (hshows : Shows start task.segv last) (request : Request) :
    Shows start (answer domain task request).segv
      ((request.sets domain).or last) := by
  have heffect := effect_answer domain task request
  rw [Request.sets]
  by_cases hnamed : request.names domain sigSegv
  · rw [if_pos hnamed]
    cases hasked : request.disposition with
    | none =>
      rw [heffect.keeps (Or.inr hasked)]
      exact hshows
    | some disposition => exact heffect.sets disposition hnamed hasked
  · rw [if_neg hnamed, heffect.keeps (Or.inl hnamed)]
    exact hshows

theorem shows_foldl {start : Sigaction} {last : Option Disposition}
    (hshows : Shows start task.segv last) (requests : List Request) :
    Shows start (requests.foldl (answer domain) task).segv
      (requests.foldl (fun last request => (request.sets domain).or last)
        last) := by
  induction requests generalizing task last with
  | nil => exact hshows
  | cons request requests ih => exact ih (shows_answer hshows request)

/-- What a whole list of calls leaves. -/
theorem shows_answerAll (domain : Domain) (task : Task)
    (requests : List Request) :
    Shows task.segv (answerAll domain task requests).segv
      (lastSet domain requests) :=
  @shows_foldl domain task task.segv none rfl requests

theorem Fresh.congr {after : Task} (hfresh : Fresh task)
    (hsegv : after.segv = task.segv) : Fresh after := by
  rw [Fresh]
  rwa [hsegv]

theorem lcallSigsegv_of_unreadable (task : Task)
    (hread : lcallGate memory ip = none) :
    lcallSigsegv task memory ip = (.killed, task) := by
  rw [lcallSigsegv]
  rw [hread]

/-- An action that wants `siginfo` is called, whatever its handler is. -/
theorem lcallSigsegv_of_siginfo (hread : lcallGate memory ip = some none)
    (hflags : task.segv.flags &&& saSiginfo ≠ 0) :
    lcallSigsegv task memory ip =
      (.called task.segv.handler sigSegv, task) := by
  rw [lcallSigsegv]
  rw [hread]
  exact if_pos hflags

theorem deliveredAs_killed {disposition : Disposition} :
    DeliveredAs disposition (.killed, task) ↔
      disposition.handler = sigDfl ∨ disposition.handler = sigIgn := by
  rw [DeliveredAs]
  by_cases hdfl : disposition.handler = sigDfl
  · rw [if_pos hdfl]
    exact iff_of_true (Or.inl rfl) (Or.inl hdfl)
  · rw [if_neg hdfl, or_iff_right hdfl]
    by_cases hign : disposition.handler = sigIgn
    · rw [if_pos hign]
      exact iff_of_true (fun signal => by simp) hign
    · rw [if_neg hign]
      exact iff_of_false (fun hright => by cases hright.1) hign

theorem deliveredAs_called {disposition : Disposition}
    (hhandler : task.segv.handler = disposition.handler) :
    DeliveredAs disposition (.called disposition.handler sigSegv, task) ↔
      ¬ (disposition.handler = sigDfl ∨ disposition.handler = sigIgn) ∧
        disposition.resethand = false := by
  rw [DeliveredAs]
  by_cases hdfl : disposition.handler = sigDfl
  · rw [if_pos hdfl]
    apply iff_of_false
    · rintro (hkilled | hretried)
      · cases hkilled
      · cases hretried.1
    · exact fun hmeets => hmeets.1 (Or.inl hdfl)
  · rw [if_neg hdfl, or_iff_right hdfl]
    by_cases hign : disposition.handler = sigIgn
    · rw [if_pos hign]
      apply iff_of_false
      · intro hright
        exact (hright sigSegv).1 (by rw [hign])
      · exact fun hmeets => hmeets.1 hign
    · rw [if_neg hign]
      have hstays : task.segv.handler ≠ sigDfl := by
        rwa [hhandler]
      simp [hign, hstays]

theorem lcallSigsegv_of_fresh (hread : lcallGate memory ip = some none)
    (hflags : task.segv.flags = 0) :
    lcallSigsegv task memory ip =
      if task.segv.handler = sigIgn then (.retried, task)
      else if task.segv.handler ≠ sigDfl then
        (.called task.segv.handler sigSegv, task)
      else (.retried, (ibcsSigaction task sigSegv (some task.segv)).2) := by
  have hnot : ¬ task.segv.flags &&& saSiginfo ≠ 0 := by
    rw [hflags]
    decide
  rw [lcallSigsegv]
  rw [hread]
  exact if_neg hnot

/-- A program that has set nothing gets the default action, or none if the signal
was ignored from the start. -/
theorem deliveredAs_fresh (hfresh : Fresh task)
    (hread : ∀ gate, lcallGate memory ip ≠ some (some gate)) :
    DeliveredAs ⟨task.segv.handler, false⟩ (lcallSigsegv task memory ip) := by
  obtain ⟨hflags, hhandler⟩ := hfresh
  cases hgate : lcallGate memory ip with
  | none =>
    rw [lcallSigsegv_of_unreadable task hgate]
    exact deliveredAs_killed.mpr hhandler
  | some found =>
    cases found with
    | some gate => exact absurd hgate (hread gate)
    | none =>
      rw [lcallSigsegv_of_fresh hgate hflags]
      cases hhandler with
      | inl hdfl =>
        rw [if_neg (by rw [hdfl]; decide), if_neg (not_not_intro hdfl)]
        rw [DeliveredAs]
        rw [if_pos hdfl]
        exact Or.inr ⟨rfl, hdfl⟩
      | inr hign =>
        rw [if_pos hign]
        rw [DeliveredAs]
        rw [if_neg (by rw [hign]; decide), if_pos hign]
        exact fun signal => by simp

end Fault

end IbcsUs.Signals
