import IbcsUs.Core.Runs

/-!
# The emulator's own process number

The emulator asks the kernel for its process number once, when it starts, and keeps
the answer in `current->pid`.  A fork copies its memory, and nothing asks again: a
child goes on under the number of its parent.  The number is used to name the owner of
a stream's signals and to read and change capabilities.
-/

namespace IbcsUs.ProcessIds

open Runs

/-- The processes that run the emulator, by the number the kernel knows them by, with
what each has in `current->pid`; and what the kernel keeps for them: the effective
capabilities, and the owners of the open files. -/
structure System where
  task : ℕ → Option ℕ
  caps : ℕ → BitVec 64
  owner : ℕ → ℕ

namespace System

/-- `current->pid = getpid()` in `linux26_compat_init`, in the process `pid`. -/
def compatInit (system : System) (pid : ℕ) : System :=
  { system with task := Function.update system.task pid (some pid) }

/-- The emulator has been started in the process `root`. -/
def start (root : ℕ) (caps : ℕ → BitVec 64) (owner : ℕ → ℕ) : System :=
  compatInit ⟨fun _ => none, caps, owner⟩ root

/-- The kernel's `fork`: the child has a copy of its parent's memory and
capabilities. -/
def fork (system : System) (parent child : ℕ) : System :=
  { system with
    task := Function.update system.task child (system.task parent)
    caps := Function.update system.caps child (system.caps parent) }

end System

/-! ## The calls -/

/-- What `abi_fork` leaves in the program's registers: the value, with carry clear
and `edx` zero. -/
structure ForkReturn where
  eax : ℤ
  carry : Bool
  edx : ℕ
  deriving DecidableEq

/-- `abi_fork` in the parent; `answer` is the child's number, or nothing when the
kernel refuses with `errno`. -/
def abiFork (system : System) (parent : ℕ) (answer : Option ℕ) (errno : ℕ) :
    System × ForkReturn :=
  match answer with
  | none => (system, ⟨-errno, false, 0⟩)
  | some child => (system.fork parent child, ⟨child, false, 0⟩)

/-- `SYS(ioctl, fd, FIOSETOWN, current->pid)` for `I_SETSIG`. -/
def iSetsig (system : System) (current file : ℕ) : System :=
  { system with owner := Function.update system.owner file current }

def esrch : ℤ := 3
def eperm : ℤ := 1
def einval : ℤ := 22

/-- `capget` for a process. -/
def capget (system : System) (pid : ℕ) : Except ℤ (BitVec 64) :=
  if system.task pid = none then .error esrch else .ok (system.caps pid)

/-- `capset`, which a process may use for itself only; `grant` tells whether the
kernel lets it have the capabilities. -/
def capset (system : System) (caller pid : ℕ) (grant : Bool) (effective : BitVec 64) :
    Except ℤ System :=
  if pid ≠ caller ∨ grant = false then .error eperm
  else .ok { system with caps := Function.update system.caps pid effective }

/-- The capabilities that `linux26_capability` is to leave. -/
def newEffective (old capBit : BitVec 64) : ℤ → Option (BitVec 64)
  | -1 => some (old &&& ~~~capBit)
  | 0 => some old
  | 1 => some (old ||| capBit)
  | _ => none

/-- `linux26_capability` in the process `caller`, whose `current->pid` is
`current`. -/
def linux26Capability (system : System) (caller current : ℕ) (flag : ℕ) (action : ℤ)
    (grant : Bool) : ℤ × System :=
  let capBit : BitVec 64 := 1 <<< flag
  match capget system current with
  | .error errno => (-errno, system)
  | .ok old =>
      match newEffective old capBit action with
      | none => (-einval, system)
      | some new =>
          if new ≠ old then
            match capset system caller current grant new with
            | .error errno => (-errno, system)
            | .ok system => (((new &&& capBit).setWidth 32).toInt, system)
          else (((new &&& capBit).setWidth 32).toInt, system)

/-! ## Runs -/

/-- What the processes do: a fork, with the kernel's answer; an `exec`, which starts
the emulator anew; an exit; and the two calls. -/
inductive Action where
  | fork (parent : ℕ) (answer : Option ℕ) (errno : ℕ)
  | exec (pid : ℕ)
  | exit (pid : ℕ)
  | setsig (pid file : ℕ)
  | capability (pid flag : ℕ) (action : ℤ) (grant : Bool)

/-- The kernel gives a child a number that is not in use. -/
def Fresh (system : System) (answer : Option ℕ) : Prop :=
  ∀ child ∈ answer, system.task child = none

instance (system : System) (answer : Option ℕ) : Decidable (Fresh system answer) :=
  inferInstanceAs (Decidable (∀ child ∈ answer, _))

/-- One action, of a process there is. -/
def step (system : System) : Action → Option System
  | .fork parent answer errno =>
      (system.task parent).bind fun _ =>
        if Fresh system answer then some (abiFork system parent answer errno).1 else none
  | .exec pid => (system.task pid).map fun _ => system.compatInit pid
  | .exit pid =>
      (system.task pid).map fun _ =>
        { system with task := Function.update system.task pid none }
  | .setsig pid file => (system.task pid).map fun current => iSetsig system current file
  | .capability pid flag action grant =>
      (system.task pid).map fun current =>
        (linux26Capability system pid current flag action grant).2

/-- Every process knows its own number. -/
def KnowsItself (system : System) : Prop :=
  ∀ pid current, system.task pid = some current → current = pid

/-- What the capability call is to do: read and change the caller's own. -/
def OwnCapabilities (system : System) (pid flag : ℕ) (action : ℤ) (grant : Bool)
    (result : ℤ × System) : Prop :=
  let capBit : BitVec 64 := 1 <<< flag
  match newEffective (system.caps pid) capBit action with
  | none => result = (-einval, system)
  | some new =>
      if new = system.caps pid ∨ grant then
        result = (((new &&& capBit).setWidth 32).toInt,
          { system with caps := Function.update system.caps pid new })
      else result = (-eperm, system)

/-- What is promised of an action: `I_SETSIG` names the caller as the owner, and the
capabilities are the caller's own. -/
def ActsForItself (system : System) : Action → Prop
  | .setsig pid file =>
      ∀ current, system.task pid = some current →
        (iSetsig system current file).owner file = pid
  | .capability pid flag action grant =>
      ∀ current, system.task pid = some current →
        OwnCapabilities system pid flag action grant
          (linux26Capability system pid current flag action grant)
  | _ => True

/-- The action is no fork that the kernel grants. -/
def NoNewProcess (system : System) : Action → Prop
  | .fork parent answer _ =>
      answer = none ∨ system.task parent = none ∨ ¬ Fresh system answer
  | _ => True

section Steps

variable {system next : System} {action : Action}

theorem knowsItself_start (root : ℕ) (caps : ℕ → BitVec 64) (owner : ℕ → ℕ) :
    KnowsItself (System.start root caps owner) := by
  intro pid current htask
  by_cases hpid : pid = root
  · subst hpid
    simp only [System.start, System.compatInit, Function.update_self,
      Option.some.injEq] at htask
    exact htask.symm
  · simp [System.start, System.compatInit, Function.update_of_ne hpid] at htask

theorem KnowsItself.compatInit (hknows : KnowsItself system) (pid : ℕ) :
    KnowsItself (system.compatInit pid) := by
  intro other current htask
  by_cases hother : other = pid
  · subst hother
    simp only [System.compatInit, Function.update_self, Option.some.injEq] at htask
    exact htask.symm
  · simp only [System.compatInit, Function.update_of_ne hother] at htask
    exact hknows other current htask

theorem KnowsItself.exit (hknows : KnowsItself system) (pid : ℕ) :
    KnowsItself { system with task := Function.update system.task pid none } := by
  intro other current htask
  by_cases hother : other = pid
  · simp [hother] at htask
  · simp only [Function.update_of_ne hother] at htask
    exact hknows other current htask

/-- The capability call leaves the processes alone. -/
theorem linux26Capability_task (caller current flag : ℕ) (act : ℤ) (grant : Bool) :
    (linux26Capability system caller current flag act grant).2.task = system.task := by
  simp only [linux26Capability, capget, capset]
  split
  · rfl
  · split
    · rfl
    · split_ifs <;> rfl

/-- In a process that knows its number the capability call is the caller's own. -/
theorem ownCapabilities_of_self {pid flag : ℕ} {act : ℤ} {grant : Bool}
    (htask : system.task pid = some pid) :
    OwnCapabilities system pid flag act grant
      (linux26Capability system pid pid flag act grant) := by
  have hget : capget system pid = .ok (system.caps pid) := by
    rw [capget, if_neg (by simp [htask])]
  simp only [OwnCapabilities, linux26Capability, hget]
  cases hnew : newEffective (system.caps pid) (1 <<< flag) act with
  | none => rfl
  | some new =>
      by_cases hsame : new = system.caps pid
      · simp [hsame]
      · cases grant <;> simp [hsame, capset]

/-- A fork that is granted leaves a child that goes by its parent's number. -/
theorem not_knowsItself_fork {parent child current : ℕ}
    (hparent : system.task parent = some current) (hchild : system.task child = none)
    (hknows : KnowsItself system) : ¬ KnowsItself (system.fork parent child) := by
  intro hafter
  have hcurrent := hknows parent current hparent
  have htask : (system.fork parent child).task child = some current := by
    simp only [System.fork, Function.update_self, hparent]
  have hsame := hafter child current htask
  rw [← hsame, hcurrent, hparent] at hchild
  cases hchild

theorem KnowsItself.step (hknows : KnowsItself system)
    (hmeets : NoNewProcess system action) (hstep : step system action = some next) :
    KnowsItself next := by
  cases action with
  | fork parent answer errno =>
      obtain ⟨current, hparent, hfork⟩ := Option.bind_eq_some_iff.mp hstep
      split at hfork
      · rename_i hfresh
        obtain rfl | hnone | hnot := hmeets
        · simp only [abiFork, Option.some.injEq] at hfork
          exact hfork ▸ hknows
        · rw [hnone] at hparent
          cases hparent
        · exact absurd hfresh hnot
      · cases hfork
  | exec pid =>
      obtain ⟨current, -, rfl⟩ := Option.map_eq_some_iff.mp hstep
      exact hknows.compatInit pid
  | exit pid =>
      obtain ⟨current, -, rfl⟩ := Option.map_eq_some_iff.mp hstep
      exact hknows.exit pid
  | setsig pid file =>
      obtain ⟨current, -, rfl⟩ := Option.map_eq_some_iff.mp hstep
      exact hknows
  | capability pid flag act grant =>
      obtain ⟨current, -, rfl⟩ := Option.map_eq_some_iff.mp hstep
      intro other cached htask
      rw [linux26Capability_task] at htask
      exact hknows other cached htask

theorem KnowsItself.actsForItself (hknows : KnowsItself system) (action : Action) :
    ActsForItself system action := by
  cases action with
  | setsig pid file =>
      intro current htask
      simp only [iSetsig, Function.update_self, hknows pid current htask]
  | capability pid flag act grant =>
      intro current htask
      have hself := hknows pid current htask
      subst hself
      exact ownCapabilities_of_self htask
  | _ => trivial

theorem noNewProcess_of_knowsItself (hknows : KnowsItself system)
    (hnext : ∀ next, ProcessIds.step system action = some next → KnowsItself next) :
    NoNewProcess system action := by
  cases action with
  | fork parent answer errno =>
      by_contra hnew
      simp only [NoNewProcess, not_or, not_not] at hnew
      obtain ⟨hanswer, hparent, hfresh⟩ := hnew
      obtain ⟨child, rfl⟩ := Option.ne_none_iff_exists'.mp hanswer
      obtain ⟨current, hcurrent⟩ := Option.ne_none_iff_exists'.mp hparent
      refine not_knowsItself_fork hcurrent (hfresh child rfl) hknows
        (hnext _ ?_)
      simp only [ProcessIds.step, hcurrent, Option.bind_some, if_pos hfresh, abiFork]
  | _ => trivial

end Steps

/-- In a tree of processes that comes from one start of the emulator, every process
knows its number and acts for itself at all times exactly when no fork is granted. -/
theorem processIds_always_iff (root : ℕ) (caps : ℕ → BitVec 64) (owner : ℕ → ℕ)
    (actions : List Action) :
    Always step KnowsItself ActsForItself (System.start root caps owner) actions ↔
      StepsMeet step NoNewProcess (System.start root caps owner) actions :=
  always_iff_stepsMeet (fun _ (hknows : KnowsItself _) => hknows)
    (fun _ _ _ hknows hmeets hstep => hknows.step hmeets hstep)
    (fun _ action hknows _ => hknows.actsForItself action)
    (fun _ _ hknows _ hnext => noNewProcess_of_knowsItself hknows hnext)
    (knowsItself_start root caps owner) actions

/-- One fork, and an `I_SETSIG` of the child. -/
theorem processIds_wrong :
    ¬ ∀ (root : ℕ) (caps : ℕ → BitVec 64) (owner : ℕ → ℕ) (actions : List Action),
      Always step KnowsItself ActsForItself (System.start root caps owner) actions := by
  intro h
  have hafter := (h 100 (fun _ => 0) (fun _ => 0)
    [.fork 100 (some 101) 0, .setsig 101 3]).2.2 _ rfl
  exact absurd (hafter.1 101 100 (by decide)) (by decide)

end IbcsUs.ProcessIds
