import IbcsUs.Ipc.Structures

/-!
# IPC control calls

`svr4_semctl`, `svr4_shmctl` and `svr4_msgctl` copy the program's structure in, call
the kernel on a structure of its own layout and copy the outcome back.  They differ
in what they copy in and in where they look at the kernel's answer.
-/

namespace IbcsUs.Ipc

/-- `IPC_SET` and `IPC_STAT`. -/
inductive IpcCommand where
  | set
  | stat
  deriving DecidableEq

/-- `SVR4_IPC_SET` and `SVR4_IPC_STAT`, and their forms ending in `_L`. -/
def IpcCommand.number : IpcCommand → Layout → ℕ
  | set, .ibcs2 => 1
  | stat, .ibcs2 => 2
  | set, .abi4 => 11
  | stat, .abi4 => 12

/-! ## The kernel's side -/

/-- The kernel's answer: it refuses, or it grants the call, after which it holds a
structure for the object. -/
inductive CtlAnswer (Kernel : Type) where
  | refused (errno : ℕ+)
  | granted (held : Kernel)

/-- The kernel's call: its result, and the structure it was handed.  `IPC_STAT` stores
what the kernel holds, `IPC_SET` only reads. -/
def CtlAnswer.call {Kernel : Type} (answer : CtlAnswer Kernel)
    (cmd : IpcCommand) (handed : Kernel) : ℤ × Kernel :=
  match answer with
  | .refused errno => (-(errno : ℤ), handed)
  | .granted held =>
      match cmd with
      | .set => (0, handed)
      | .stat => (0, held)

/-! ## The emulator's side -/

section Code

variable {User Kernel : Type} (translation : Translation User Kernel)

/-- The program's structure is copied in and translated, the kernel called, and the
structure translated and copied back unless the kernel reports an error.  `stack` is
what the emulator's structure held. -/
def copyInOut (cmd : IpcCommand) (user : User) (stack : Kernel)
    (answer : CtlAnswer Kernel) : ℤ × User :=
  let is := user
  let ls := translation.toKernel is stack
  let (err, ls) := answer.call cmd ls
  if err < 0 then (err, user) else (0, translation.toUser ls is)

/-- The kernel is called on an empty structure, which is translated into a local and
copied back unless the kernel reports an error. -/
def copyOut (user is : User) (stack : Kernel) (answer : CtlAnswer Kernel) :
    ℤ × User :=
  let (err, ls) := answer.call .stat stack
  if err < 0 then (err, user) else (0, translation.toUser ls is)

/-- As `copyInOut`, with the kernel's result overwritten by that of the copying. -/
def copyInOutUnchecked (user : User) (stack : Kernel)
    (answer : CtlAnswer Kernel) : ℤ × User :=
  let im := user
  let lm := translation.toKernel im stack
  let (_, lm) := answer.call .set lm
  (0, translation.toUser lm im)

/-- The structure commands of `svr4_semctl`: `__ibcs2_semctl` and
`__abi4_semctl`. -/
def svr4Semctl (cmd : IpcCommand) (user _ : User) (stack : Kernel)
    (answer : CtlAnswer Kernel) : ℤ × User :=
  copyInOut translation cmd user stack answer

/-- The structure commands of `svr4_shmctl`; `is` is what its local for the
program's structure held. -/
def svr4Shmctl (cmd : IpcCommand) (user is : User) (stack : Kernel)
    (answer : CtlAnswer Kernel) : ℤ × User :=
  match cmd with
  | .set => copyInOut translation .set user stack answer
  | .stat => copyOut translation user is stack answer

/-- The structure commands of `svr4_msgctl`. -/
def svr4Msgctl (cmd : IpcCommand) (user im : User) (stack : Kernel)
    (answer : CtlAnswer Kernel) : ℤ × User :=
  match cmd with
  | .set => copyInOutUnchecked translation user stack answer
  | .stat => copyOut translation user im stack answer

end Code

/-! ## The three kinds of objects -/

inductive IpcObject where
  | semaphores
  | memory
  | queue
  deriving DecidableEq

namespace IpcObject

/-- The kernel's structure. -/
abbrev Kernel : IpcObject → Type
  | semaphores => SemidDs
  | memory => ShmidDs
  | queue => MsqidDs

/-- The program's structure. -/
abbrev User : IpcObject → Layout → Type
  | semaphores, .ibcs2 => Ibcs2SemidDs
  | semaphores, .abi4 => Abi4SemidDs
  | memory, .ibcs2 => Ibcs2ShmidDs
  | memory, .abi4 => Abi4ShmidDs
  | queue, .ibcs2 => Ibcs2MsqidDs
  | queue, .abi4 => Abi4MsqidDs

def translation : (object : IpcObject) → (layout : Layout) →
    Translation (object.User layout) object.Kernel
  | semaphores, .ibcs2 => ibcs2Semaphores
  | semaphores, .abi4 => abi4Semaphores
  | memory, .ibcs2 => ibcs2Memory
  | memory, .abi4 => abi4Memory
  | queue, .ibcs2 => ibcs2Queues
  | queue, .abi4 => abi4Queues

/-- The control call of the object. -/
def control {User Kernel : Type} (object : IpcObject)
    (translation : Translation User Kernel) :
    IpcCommand → User → User → Kernel → CtlAnswer Kernel → ℤ × User :=
  match object with
  | semaphores => svr4Semctl translation
  | memory => svr4Shmctl translation
  | queue => svr4Msgctl translation

end IpcObject

/-! ## What is reported -/

section Control

variable {User Kernel : Type} (translation : Translation User Kernel)

/-- The program's structure is the translation of the kernel's, with anything in its
padding. -/
def HoldsTranslation (held : Kernel) (user : User) : Prop :=
  ∃ padding, user = translation.toUser held padding

/-- An error of the kernel is returned and the structure is as before; otherwise the
call returns 0 and the structure holds what the kernel holds. -/
structure CtlRight (user : User) (answer : CtlAnswer Kernel)
    (outcome : ℤ × User) : Prop where
  refused : ∀ errno, answer = .refused errno →
    outcome = (-(errno : ℤ), user)
  granted : ∀ held, answer = .granted held →
    outcome.1 = 0 ∧ HoldsTranslation translation held outcome.2

/-- `IPC_SET` on a queue is granted, and after any granted `IPC_SET` the kernel holds
what the program's structure says, in every field. -/
structure CtlMeets (object : IpcObject) (cmd : IpcCommand) (user : User)
    (answer : CtlAnswer Kernel) : Prop where
  refused : object = .queue → cmd = .set → ∀ errno, answer ≠ .refused errno
  granted : cmd = .set → ∀ held, answer = .granted held →
    translation.toKernel user held = held

variable {translation}

theorem holdsTranslation_toUser (held : Kernel) (user : User) :
    HoldsTranslation translation held (translation.toUser held user) :=
  ⟨user, rfl⟩

/-- What is translated there and back holds the kernel's structure exactly when it
agrees with it in every field. -/
theorem holdsTranslation_through_iff (user : User) (stack held : Kernel)
    (user' : User) :
    HoldsTranslation translation held
      (translation.toUser (translation.toKernel user stack) user') ↔
      translation.toKernel user held = held := by
  constructor
  · rintro ⟨padding, hsame⟩
    have hback := translation.toKernel_toUser held padding
    rw [← hsame, translation.toKernel_through] at hback
    exact hback
  · intro hagrees
    refine ⟨user', ?_⟩
    rw [translation.toUser_through user stack held user', hagrees]

theorem refused_neg (errno : ℕ+) : -(errno : ℤ) < 0 := by
  have hpos := errno.pos
  omega

/-- The calls that look at the kernel's answer after copying in. -/
theorem copyInOut_right_iff (cmd : IpcCommand) (user : User) (stack : Kernel)
    (answer : CtlAnswer Kernel) :
    CtlRight translation user answer
      (copyInOut translation cmd user stack answer) ↔
      (cmd = .set → ∀ held, answer = .granted held →
        translation.toKernel user held = held) := by
  cases answer with
  | refused errno =>
    have houtcome : copyInOut translation cmd user stack (.refused errno) =
        (-(errno : ℤ), user) := if_pos (refused_neg errno)
    rw [houtcome]
    refine iff_of_true ⟨?_, ?_⟩ ?_
    · rintro _ ⟨⟩
      rfl
    · rintro _ ⟨⟩
    · rintro _ _ ⟨⟩
  | granted held =>
    have hcopied : copyInOut translation cmd user stack (.granted held) =
        (0, translation.toUser
          ((CtlAnswer.granted held).call cmd
            (translation.toKernel user stack)).2 user) := by
      cases cmd <;> rfl
    rw [hcopied]
    constructor
    · rintro hright rfl _ ⟨⟩
      exact (holdsTranslation_through_iff user stack held user).mp
        (hright.granted held rfl).2
    · intro hmeets
      refine ⟨?_, ?_⟩
      · rintro _ ⟨⟩
      · rintro _ ⟨⟩
        refine ⟨rfl, ?_⟩
        cases cmd with
        | set =>
          exact (holdsTranslation_through_iff user stack held user).mpr
            (hmeets rfl held rfl)
        | stat => exact holdsTranslation_toUser held user

/-- The calls that copy nothing in. -/
theorem copyOut_right (user is : User) (stack : Kernel)
    (answer : CtlAnswer Kernel) :
    CtlRight translation user answer
      (copyOut translation user is stack answer) := by
  cases answer with
  | refused errno =>
    have houtcome : copyOut translation user is stack (.refused errno) =
        (-(errno : ℤ), user) := if_pos (refused_neg errno)
    rw [houtcome]
    constructor
    · rintro _ ⟨⟩
      rfl
    · rintro _ ⟨⟩
  | granted held =>
    constructor
    · rintro _ ⟨⟩
    · rintro _ ⟨⟩
      exact ⟨rfl, holdsTranslation_toUser held is⟩

/-- The call that does not look at the kernel's answer. -/
theorem copyInOutUnchecked_right_iff (user : User) (stack : Kernel)
    (answer : CtlAnswer Kernel) :
    CtlRight translation user answer
      (copyInOutUnchecked translation user stack answer) ↔
      (∀ errno, answer ≠ .refused errno) ∧
        ∀ held, answer = .granted held →
          translation.toKernel user held = held := by
  cases answer with
  | refused errno =>
    refine iff_of_false (fun hright => ?_) fun hmeets => hmeets.1 errno rfl
    have hresult := congrArg Prod.fst (hright.refused errno rfl)
    exact absurd hresult (refused_neg errno).ne'
  | granted held =>
    constructor
    · intro hright
      refine ⟨?_, ?_⟩
      · rintro _ ⟨⟩
      · rintro _ ⟨⟩
        exact (holdsTranslation_through_iff user stack held user).mp
          (hright.granted held rfl).2
    · rintro ⟨-, hagrees⟩
      refine ⟨?_, ?_⟩
      · rintro _ ⟨⟩
      · rintro _ ⟨⟩
        exact ⟨rfl, (holdsTranslation_through_iff user stack held user).mpr
          (hagrees held rfl)⟩

theorem control_right_iff (object : IpcObject) (cmd : IpcCommand)
    (user is : User) (stack : Kernel) (answer : CtlAnswer Kernel) :
    CtlRight translation user answer
      (object.control translation cmd user is stack answer) ↔
      CtlMeets translation object cmd user answer := by
  cases object with
  | semaphores =>
    refine (copyInOut_right_iff cmd user stack answer).trans
      ⟨fun hgranted => ⟨(nomatch ·), hgranted⟩,
        CtlMeets.granted⟩
  | memory =>
    cases cmd with
    | set =>
      refine (copyInOut_right_iff .set user stack answer).trans
        ⟨fun hgranted => ⟨(nomatch ·), hgranted⟩,
          CtlMeets.granted⟩
    | stat =>
      exact iff_of_true (copyOut_right user is stack answer)
        ⟨(nomatch ·), (nomatch ·)⟩
  | queue =>
    cases cmd with
    | set =>
      refine (copyInOutUnchecked_right_iff user stack answer).trans
        ⟨fun ⟨hrefused, hgranted⟩ => ⟨fun _ _ => hrefused, fun _ => hgranted⟩,
          fun hmeets => ⟨hmeets.refused rfl rfl, hmeets.granted rfl⟩⟩
    | stat =>
      exact iff_of_true (copyOut_right user is stack answer)
        ⟨fun _ => (nomatch ·), (nomatch ·)⟩

end Control

/-- The control calls of the three kinds of objects report the kernel's answer exactly
when it is not a refusal of `IPC_SET` on a queue, and the kernel holds what a granted
`IPC_SET` says. -/
theorem ipcControl_reports_iff (object : IpcObject) (layout : Layout)
    (cmd : IpcCommand) (user is : object.User layout) (stack : object.Kernel)
    (answer : CtlAnswer object.Kernel) :
    CtlRight (object.translation layout) user answer
      (object.control (object.translation layout) cmd user is stack answer) ↔
      CtlMeets (object.translation layout) object cmd user answer :=
  control_right_iff object cmd user is stack answer

/-- `msgctl(id, IPC_SET, &ds)` by somebody who does not own the queue. -/
theorem refused_msgctl_returns_zero :
    ¬ ∀ (object : IpcObject) (layout : Layout) (cmd : IpcCommand)
      (user is : object.User layout) (stack : object.Kernel)
      (answer : CtlAnswer object.Kernel),
      CtlRight (object.translation layout) user answer
        (object.control (object.translation layout) cmd user is stack
          answer) := by
  intro hall
  let structure' : Ibcs2MsqidDs :=
    ⟨⟨0, 0, 0, 0, 0o600, 0, 0⟩, 0, 0, 0, 0, 0, 0, 0, 0, 0, 0, 0⟩
  let stack : MsqidDs :=
    ⟨⟨0, 0, 0, 0, 0, 0, 0⟩, 0, 0, 0, 0, 0, 0, 0, 0, 0, 0, 0, 0⟩
  have hright :=
    hall .queue .ibcs2 .set structure' structure' stack (.refused 1)
  have hresult := congrArg Prod.fst (hright.refused 1 rfl)
  exact absurd hresult (by decide)

end IbcsUs.Ipc
