import IbcsUs.Core.Runs
import IbcsUs.Signals.Sigactions

/-!
# The signal management of SVR3

`abi_sigfunc` answers `signal`, `sigset`, `sighold`, `sigrelse`, `sigignore` and
`sigpause` with the kernel's dispositions and its set of blocked signals.  A machine
that does to both what the requests ask for runs beside it.
-/

namespace IbcsUs.Signals

open IbcsUs.Runs IbcsUs.Sysent IbcsUs.Bits

/-! ## Requests -/

/-- The requests. -/
inductive Kind where
  | signal
  | sigset
  | sighold
  | sigrelse
  | sigignore
  | sigpause
  deriving DecidableEq

/-- The code of a request. -/
def Kind.code : Kind → BitVec 32
  | signal => 0x0000
  | sigset => 0x0100
  | sighold => 0x0200
  | sigrelse => 0x0400
  | sigignore => 0x0800
  | sigpause => 0x1000

/-- The request sets a disposition. -/
def Kind.Installs (kind : Kind) (vec : BitVec 32) : Prop :=
  match kind with
  | signal => True
  | sigset => vec ≠ sigHold
  | sigignore => True
  | _ => False

/-- A request about a signal that the personality maps to one of Linux, which the
kernel does not refuse. -/
structure SigCall (domain : Domain) where
  kind : Kind
  number : BitVec 8
  vec : BitVec 32
  around : Surroundings
  isSignal : IsSignal (abiMapsig domain (number.setWidth 32))
  accepted : kind.Installs vec →
    abiMapsig domain (number.setWidth 32) ≠ sigKill ∧
      abiMapsig domain (number.setWidth 32) ≠ sigStop

variable {domain : Domain}

/-- The Linux signal. -/
def SigCall.sig (call : SigCall domain) : BitVec 32 :=
  abiMapsig domain (call.number.setWidth 32)

/-- The first parameter of the system call. -/
def SigCall.word (call : SigCall domain) : BitVec 32 :=
  call.kind.code ||| call.number.setWidth 32

/-- A request is answered. -/
def SigCall.answer (call : SigCall domain) (task : Task) :
    Task × Option (BitVec 64) :=
  abiSigfunc domain task call.word call.vec call.around

/-! ## The reference machine -/

/-- The dispositions and the blocked signals. -/
@[ext]
structure Reference where
  disposition : ℕ → BitVec 32
  blocked : Set ℕ

/-- What the program sees of its task: the disposition of SIGSEGV is kept by the
emulator. -/
def Task.view (task : Task) : Reference where
  disposition s :=
    if s = sigSegv.toNat then task.segv.handler else (task.actions s).handler
  blocked := {s | 1 ≤ s ∧ task.blocked.getLsbD (s - 1) = true}

/-- A handler is installed. -/
def Reference.install (reference : Reference) (s : ℕ) (handler : BitVec 32) :
    Reference :=
  { reference with
    disposition := Function.update reference.disposition s handler }

/-- A signal is blocked. -/
def Reference.block (reference : Reference) (s : ℕ) : Reference :=
  { reference with blocked := insert s reference.blocked }

/-- A signal is unblocked. -/
def Reference.unblock (reference : Reference) (s : ℕ) : Reference :=
  { reference with blocked := reference.blocked \ {s} }

/-- A request is done. -/
def Reference.step (reference : Reference) (kind : Kind) (s : ℕ)
    (vec : BitVec 32) : Reference :=
  match kind with
  | .signal => reference.install s vec
  | .sigset =>
      if vec = sigHold then reference.block s
      else (reference.install s vec).unblock s
  | .sighold => reference.block s
  | .sigrelse => reference.unblock s
  | .sigignore => reference.install s sigIgn
  | .sigpause => reference

/-- Both machines answer a request. -/
def sigStep (state : Task × Reference) (call : SigCall domain) :
    Option (Task × Reference) :=
  some ((call.answer state.1).1,
    state.2.step call.kind call.sig.toNat call.vec)

/-- The kernel's dispositions and blocked set are those of the reference machine. -/
def Agree (state : Task × Reference) : Prop := state.1.view = state.2

/-- The request hands back what it should: `signal` and `sigset` the disposition
before, and `sigpause` waits with a mask without the signal. -/
def AnswerRight (state : Task × Reference) (call : SigCall domain) : Prop :=
  (call.kind = .signal ∨ call.kind = .sigset →
    (call.answer state.1).1.eax = state.2.disposition call.sig.toNat ∧
      (call.answer state.1).1.eflags.getLsbD 0 = false) ∧
  (call.kind = .sigpause →
    ∃ mask, (call.answer state.1).2 = some mask ∧
      mask.getLsbD (call.sig.toNat - 1) = false)

/-- Both machines agree behind every request, and every request hands back what it
should. -/
def SigfuncRight (task : Task) (calls : List (SigCall domain)) : Prop :=
  Always sigStep Agree AnswerRight (task, task.view) calls

/-- The signal can be blocked. -/
def Blockable (sig : BitVec 32) : Prop := sig ≠ sigKill ∧ sig ≠ sigStop

/-- A request to block is about a signal that can be blocked, and one with SIG_HOLD
also about one whose disposition is SIG_DFL; `sigpause` happens to be called with 8
as the size of the mask and with a mask without the signal where the set of only the
signal, taken as an address, leads. -/
def AnswerMeets (state : Task × Reference) (call : SigCall domain) : Prop :=
  match call.kind with
  | .signal => True
  | .sigset =>
      call.vec = sigHold →
        Blockable call.sig ∧ state.2.disposition call.sig.toNat = sigDfl
  | .sighold => Blockable call.sig
  | .sigrelse => True
  | .sigignore => True
  | .sigpause =>
      call.around.size = 8 ∧
        ∃ mask, call.around.memory (1#32 <<< (call.sig.toNat - 1)) = some mask ∧
          (Blockable call.sig → mask.getLsbD (call.sig.toNat - 1) = false)

/-- Every request meets the condition. -/
def SigfuncMeets (task : Task) (calls : List (SigCall domain)) : Prop :=
  StepsMeet sigStep AnswerMeets (task, task.view) calls

/-! ## The first parameter -/

theorem number_and_not (number : BitVec 8) :
    number.setWidth 32 &&& ~~~(0xff : BitVec 32) = 0 := by
  revert number
  decide

theorem number_and (number : BitVec 8) :
    number.setWidth 32 &&& (0xff : BitVec 32) = number.setWidth 32 := by
  revert number
  decide

theorem word_and_not (call : SigCall domain) :
    call.word &&& ~~~0xff = call.kind.code := by
  rw [SigCall.word]
  rw [BitVec.and_or_distrib_right, number_and_not]
  cases call.kind <;> rfl

theorem word_and (call : SigCall domain) :
    call.word &&& 0xff = call.number.setWidth 32 := by
  have hcode : call.kind.code &&& 0xff = 0 := by
    cases call.kind <;> rfl
  rw [SigCall.word]
  rw [BitVec.and_or_distrib_right, hcode, number_and]
  exact BitVec.zero_or

theorem SigCall.isSignal_sig (call : SigCall domain) : IsSignal call.sig :=
  call.isSignal

theorem SigCall.blockable_sig (call : SigCall domain)
    (hinstalls : call.kind.Installs call.vec) : Blockable call.sig :=
  call.accepted hinstalls

theorem withSigno_word (call : SigCall domain) (task : Task)
    (body : BitVec 32 → Task) :
    withSigno domain task call.word body = body call.sig := by
  rw [withSigno]
  rw [word_and]
  exact if_neg call.isSignal.ne_neg_one

/-- The task with the result preset and the carry flag clear. -/
def Task.cleared (task : Task) : Task :=
  { task with eflags := task.eflags &&& ~~~1, eax := 0 }

/-- What `abi_sigpause` does with the signal. -/
def suspendWith (domain : Domain) (task : Task) (around : Surroundings)
    (sig : BitVec 32) : Task × Option (BitVec 64) :=
  match kernelSigsuspend around (1#32 <<< (sig.toNat - 1)) with
  | .error errno => (task.setError (iABIErrors domain.errMap errno), none)
  | .ok mask => (task.setError (iABIErrors domain.errMap 4), some mask)

theorem abiSigpause_word (call : SigCall domain) (task : Task) :
    abiSigpause domain task call.word call.around =
      suspendWith domain task call.around call.sig := by
  have hset : ~~~(0 : BitVec 32) &&& 1#32 <<< (call.sig - 1).toNat =
      1#32 <<< (call.sig.toNat - 1) := by
    rw [(show IsSignal call.sig from call.isSignal).toNat_sub_one]
    exact BitVec.allOnes_and
  unfold abiSigpause suspendWith
  rw [word_and, ← hset]
  exact if_neg call.isSignal.ne_neg_one

/-- Each request with the signal that it is about. -/
theorem answer_eq (call : SigCall domain) (task : Task) :
    call.answer task =
      match call.kind with
      | .signal => (abiSigHandler domain task.cleared call.sig call.vec true, none)
      | .sigset =>
          (if call.vec ≠ sigHold then
            kernelSigprocmask
              (abiSigHandler domain task.cleared call.sig call.vec false)
              .unblock (oneSignal call.sig)
          else kernelSigprocmask task.cleared .block (oneSignal call.sig), none)
      | .sighold =>
          (kernelSigprocmask task.cleared .block (oneSignal call.sig), none)
      | .sigrelse =>
          (kernelSigprocmask task.cleared .unblock (oneSignal call.sig), none)
      | .sigignore =>
          (match linux26RtSigaction task.cleared call.sig
              (some ⟨sigIgn, saSiginfo, 0⟩) with
            | (.error errno, task) =>
                task.setError (iABIErrors domain.errMap errno)
            | (.ok _, task) => task, none)
      | .sigpause => suspendWith domain task.cleared call.around call.sig := by
  have htype := word_and_not call
  unfold SigCall.answer abiSigfunc abiSignal abiSigset abiSighold abiSigrelse
    abiSigignore
  dsimp only
  rw [htype, abiSigpause_word]
  simp only [withSigno_word]
  cases call.kind <;> rfl

/-! ## The kernel calls -/

section Kernel

variable {task : Task} {sig : BitVec 32}

theorem toInt_of_isSignal (hsig : IsSignal sig) : sig.toInt = sig.toNat := by
  have hle := hsig.2
  exact BitVec.toInt_eq_toNat_of_lt (by omega)

/-- `rt_sigaction` of the kernel, where it does not refuse. -/
theorem kernelSigaction_accepted (hsig : IsSignal sig) (hok : Blockable sig)
    (action : Sigaction) :
    kernelSigaction task sig (some action) =
      (.ok (task.actions sig.toNat), { task with
        actions := Function.update task.actions sig.toNat
          { action with mask := action.mask &&& ~~~unblockable } }) := by
  have hvalid : 1 ≤ sig.toInt ∧ sig.toInt ≤ 64 := by
    rw [toInt_of_isSignal hsig]
    have hrange := hsig
    rw [IsSignal] at hrange
    omega
  rw [kernelSigaction]
  dsimp only
  rw [if_neg (not_not_intro hvalid), if_neg (not_or.mpr hok)]

/-- Only the table changes. -/
theorem storeSigtab_eq (task : Task) (sig : BitVec 32)
    (act : Option Sigaction) :
    ∃ table, storeSigtab task sig act = { task with sigtab := table } := by
  unfold storeSigtab
  cases act with
  | none => exact ⟨task.sigtab, rfl⟩
  | some action =>
    dsimp only
    split_ifs
    · exact ⟨_, rfl⟩
    · exact ⟨task.sigtab, rfl⟩

theorem linux26RtSigaction_kernel {table : ℕ → Sigaction} {action : Sigaction}
    (hsig : IsSignal sig) (hok : Blockable sig) (hsegv : sig ≠ sigSegv)
    (htable : storeSigtab task sig (some action) =
      { task with sigtab := table }) :
    linux26RtSigaction task sig (some action) =
      (.ok (task.actions sig.toNat), { task with
        sigtab := table
        actions := Function.update task.actions sig.toNat
          { action with
            flags := action.flags ||| saRestorer
            mask := action.mask &&& ~~~unblockable } }) := by
  rw [linux26RtSigaction, ibcsSigaction]
  rw [if_neg hsegv, Option.map_some, kernelSigaction_accepted hsig hok, htable]

/-- The state that an accepted action leads to. -/
structure Installed (task : Task) (sig handler : BitVec 32) (after : Task) :
    Prop where
  view : after.view = task.view.install sig.toNat handler
  blocked : after.blocked = task.blocked
  eflags : after.eflags = task.eflags

/-- An action is installed, and the handler before is handed back. -/
theorem linux26RtSigaction_accepted (task : Task) (hsig : IsSignal sig)
    (hok : Blockable sig) (action : Sigaction) :
    ∃ old after, linux26RtSigaction task sig (some action) = (.ok old, after) ∧
      old.handler = task.view.disposition sig.toNat ∧
      Installed task sig action.handler after := by
  have hstored := segv_storeSigtab task sig action
  obtain ⟨table, htable⟩ := storeSigtab_eq task sig (some action)
  rw [htable] at hstored
  by_cases hsegv : sig = sigSegv
  · rw [if_pos hsegv] at hstored
    refine ⟨task.sigtab sig.toNat, { task with sigtab := table }, ?_, ?_, ?_⟩
    · rw [linux26RtSigaction]
      rw [if_pos hsegv, htable]
    · rw [hsegv]
      rfl
    · refine ⟨Reference.ext (funext fun s => ?_) rfl, rfl, rfl⟩
      unfold Task.view Reference.install
      rw [hstored, hsegv]
      by_cases hs : s = sigSegv.toNat
      · simp [hs]
      · simp [hs]
  · rw [if_neg hsegv] at hstored
    have hne : sig.toNat ≠ sigSegv.toNat := fun heq =>
      hsegv (BitVec.eq_of_toNat_eq heq)
    refine ⟨_, _, linux26RtSigaction_kernel hsig hok hsegv htable,
      (if_neg hne).symm, ?_⟩
    refine ⟨Reference.ext (funext fun s => ?_) rfl, rfl, rfl⟩
    by_cases hs : s = sigSegv.toNat
    · have hother : s ≠ sig.toNat := fun heq => hne (heq.symm.trans hs)
      have hkept : (task.view.install sig.toNat action.handler).disposition s =
          task.segv.handler :=
        (Function.update_of_ne hother _ _).trans (if_pos hs)
      rw [hkept, ← hstored]
      exact if_pos hs
    · by_cases hsig' : s = sig.toNat
      · subst hsig'
        simp [Task.view, Reference.install, hne]
      · simp [Task.view, Reference.install, hs, hsig']

/-- `abi_sig_handler`, where the kernel does not refuse. -/
theorem abiSigHandler_accepted (domain : Domain) (task : Task)
    (hsig : IsSignal sig) (hok : Blockable sig) (handler : BitVec 32)
    (oneshot : Bool) :
    Installed task sig handler
        (abiSigHandler domain task sig handler oneshot) ∧
      (abiSigHandler domain task sig handler oneshot).eax =
        task.view.disposition sig.toNat := by
  obtain ⟨old, after, hcall, hold, hinstalled⟩ := linux26RtSigaction_accepted
    task hsig hok ⟨handler, handlerFlags oneshot, 0⟩
  rw [abiSigHandler]
  rw [hcall]
  exact ⟨⟨hinstalled.view, hinstalled.blocked, hinstalled.eflags⟩, hold⟩

/-- No signal is blocked that cannot be. -/
def Consistent (task : Task) : Prop := task.blocked &&& unblockable = 0

theorem oneSignal_of_isSignal (hsig : IsSignal sig) :
    oneSignal sig = 1#64 <<< (sig.toNat - 1) := by
  rw [oneSignal]
  rw [sigaddset_of_isSignal _ hsig]
  exact BitVec.zero_or

theorem getLsbD_unblockable (index : ℕ) :
    unblockable.getLsbD index = true ↔ index = 8 ∨ index = 18 := by
  rw [unblockable]
  rw [getLsbD_or_shiftLeft _ _ _ (by decide), ← BitVec.zero_or (x := 1#64 <<< 8),
    getLsbD_or_shiftLeft _ _ _ (by decide)]
  simp

theorem blockable_iff (hsig : IsSignal sig) :
    Blockable sig ↔ unblockable.getLsbD (sig.toNat - 1) = false := by
  have hrange := hsig
  rw [IsSignal] at hrange
  have hkill : sig = sigKill ↔ sig.toNat = 9 := by
    rw [← BitVec.toNat_inj]
    rfl
  have hstop : sig = sigStop ↔ sig.toNat = 19 := by
    rw [← BitVec.toNat_inj]
    rfl
  rw [Blockable]
  rw [← Bool.not_eq_true, getLsbD_unblockable, Ne, Ne, hkill, hstop]
  omega

theorem Consistent.not_blocked (hcons : Consistent task) {index : ℕ}
    (hbit : unblockable.getLsbD index = true) :
    task.blocked.getLsbD index = false := by
  have hzero := congrArg (fun set => BitVec.getLsbD set index) hcons
  simpa [hbit] using hzero

theorem Consistent.of_bits
    (hbits : ∀ index, unblockable.getLsbD index = true →
      task.blocked.getLsbD index = false) : Consistent task := by
  apply eq_of_bits
  intro index _
  rw [BitVec.getLsbD_and]
  by_cases hbit : unblockable.getLsbD index = true
  · simp [hbits index hbit]
  · simp [hbit]

/-- The bits of the set of one signal that the kernel looks at. -/
theorem getLsbD_maskable (hsig : IsSignal sig) (index : ℕ) :
    (oneSignal sig &&& ~~~unblockable).getLsbD index = true ↔
      index = sig.toNat - 1 ∧ Blockable sig := by
  have hindex : sig.toNat - 1 < 64 := by
    have hrange := hsig
    rw [IsSignal] at hrange
    omega
  rw [blockable_iff hsig, oneSignal_of_isSignal hsig, ← BitVec.twoPow_eq,
    BitVec.getLsbD_and, Bool.and_eq_true, BitVec.getLsbD_twoPow,
    BitVec.getLsbD_not]
  constructor
  · intro hbits
    simp only [Bool.and_eq_true, decide_eq_true_eq, Bool.not_eq_true'] at hbits
    obtain ⟨⟨-, rfl⟩, -, hnot⟩ := hbits
    exact ⟨rfl, hnot⟩
  · rintro ⟨rfl, hnot⟩
    rw [hnot]
    simp [hindex]

theorem consistent_sigprocmask (hcons : Consistent task) (hsig : IsSignal sig)
    (how : How) : Consistent (kernelSigprocmask task how (oneSignal sig)) := by
  apply Consistent.of_bits
  intro index hbit
  have hclear := hcons.not_blocked hbit
  cases how with
  | block =>
    rw [kernelSigprocmask]
    dsimp only
    rw [BitVec.getLsbD_or, hclear, Bool.false_or, ← Bool.not_eq_true,
      getLsbD_maskable hsig]
    rintro ⟨rfl, hok⟩
    rw [blockable_iff hsig, hbit] at hok
    cases hok
  | unblock =>
    rw [kernelSigprocmask]
    dsimp only
    rw [BitVec.getLsbD_and, hclear, Bool.false_and]

theorem mem_view_blocked (task : Task) (s : ℕ) :
    s ∈ task.view.blocked ↔
      1 ≤ s ∧ task.blocked.getLsbD (s - 1) = true := Iff.rfl

/-- A signal is blocked, if it can be. -/
theorem mem_blocked_block (hsig : IsSignal sig) (s : ℕ) :
    s ∈ (kernelSigprocmask task .block (oneSignal sig)).view.blocked ↔
      s ∈ task.view.blocked ∨ s = sig.toNat ∧ Blockable sig := by
  have hpos := hsig.1
  rw [mem_view_blocked, mem_view_blocked]
  rw [kernelSigprocmask]
  dsimp only
  rw [BitVec.getLsbD_or, Bool.or_eq_true, getLsbD_maskable hsig, and_or_left]
  apply or_congr Iff.rfl
  rw [← and_assoc]
  apply and_congr_left'
  omega

theorem view_block_iff (hcons : Consistent task) (hsig : IsSignal sig) :
    (kernelSigprocmask task .block (oneSignal sig)).view =
        task.view.block sig.toNat ↔ Blockable sig := by
  constructor
  · intro hview
    have hmem : sig.toNat ∈ (task.view.block sig.toNat).blocked :=
      Set.mem_insert _ _
    rw [← hview, mem_blocked_block hsig] at hmem
    by_contra hnot
    have hbit := (hmem.resolve_right fun hboth => hnot hboth.2).2
    rw [blockable_iff hsig, Bool.not_eq_false] at hnot
    rw [hcons.not_blocked hnot] at hbit
    cases hbit
  · intro hok
    refine Reference.ext rfl (Set.ext fun s => ?_)
    rw [mem_blocked_block hsig, and_iff_left hok]
    exact Or.comm

theorem view_unblock (hcons : Consistent task) (hsig : IsSignal sig) :
    (kernelSigprocmask task .unblock (oneSignal sig)).view =
      task.view.unblock sig.toNat := by
  refine Reference.ext rfl (Set.ext fun s => ?_)
  change _ ↔ s ∈ task.view.blocked ∧ s ≠ sig.toNat
  rw [mem_view_blocked, mem_view_blocked]
  rw [kernelSigprocmask]
  dsimp only
  rw [BitVec.getLsbD_and, Bool.and_eq_true, ← and_assoc]
  apply and_congr_right
  rintro ⟨hpos, hblocked⟩
  have hindex : s - 1 < 64 := BitVec.lt_of_getLsbD hblocked
  rw [BitVec.getLsbD_not, decide_eq_true hindex, Bool.true_and,
    Bool.not_eq_true', ← Bool.not_eq_true, getLsbD_maskable hsig]
  constructor
  · rintro hnot rfl
    refine hnot ⟨rfl, ?_⟩
    rw [blockable_iff hsig, ← Bool.not_eq_true]
    intro hbit
    rw [hcons.not_blocked hbit] at hblocked
    cases hblocked
  · rintro hne ⟨heq, -⟩
    have hsigpos := hsig.1
    omega

end Kernel

/-! ## One request -/

section Step

variable {task : Task} {call : SigCall domain}

theorem Consistent.congr {after : Task} (hcons : Consistent task)
    (hblocked : after.blocked = task.blocked) : Consistent after := by
  rw [Consistent]
  rwa [hblocked]

theorem carry_cleared (task : Task) :
    task.cleared.eflags.getLsbD 0 = false := by
  rw [Task.cleared]
  simp

theorem sigprocmask_registers (task : Task) (how : How) (set : BitVec 64) :
    (kernelSigprocmask task how set).eax = task.eax ∧
      (kernelSigprocmask task how set).eflags = task.eflags := by
  cases how <;> exact ⟨rfl, rfl⟩

/-- One request: both machines agree behind it and it hands back what it should. -/
def StepRight (task : Task) (call : SigCall domain) : Prop :=
  (call.answer task).1.view =
      task.view.step call.kind call.sig.toNat call.vec ∧
    AnswerRight (task, task.view) call

/-- A request that neither hands back a disposition nor waits. -/
theorem stepRight_silent
    (hsilent : call.kind = .sighold ∨ call.kind = .sigrelse ∨
      call.kind = .sigignore) :
    StepRight task call ↔ (call.answer task).1.view =
      task.view.step call.kind call.sig.toNat call.vec := by
  apply and_iff_left
  constructor
  · rintro (hkind | hkind) <;> simp [hkind] at hsilent
  · intro hkind
    simp [hkind] at hsilent

/-- A request that hands back a disposition. -/
theorem stepRight_returning
    (hreturning : call.kind = .signal ∨ call.kind = .sigset) :
    StepRight task call ↔
      (call.answer task).1.view =
          task.view.step call.kind call.sig.toNat call.vec ∧
        (call.answer task).1.eax = task.view.disposition call.sig.toNat ∧
          (call.answer task).1.eflags.getLsbD 0 = false := by
  apply and_congr_right'
  rw [AnswerRight]
  rw [and_iff_left]
  · exact ⟨fun hright => hright hreturning, fun hboth _ => hboth⟩
  · intro hkind
    simp [hkind] at hreturning

theorem stepRight_signal (hkind : call.kind = .signal) :
    StepRight task call := by
  obtain ⟨hinstalled, heax⟩ := abiSigHandler_accepted domain task.cleared
    call.isSignal_sig (call.blockable_sig (by rw [hkind]; trivial)) call.vec true
  rw [stepRight_returning (Or.inl hkind), answer_eq, hkind]
  refine ⟨hinstalled.view, heax, ?_⟩
  exact hinstalled.eflags ▸ carry_cleared task

theorem stepRight_sigset_install (hcons : Consistent task)
    (hkind : call.kind = .sigset) (hvec : call.vec ≠ sigHold) :
    StepRight task call := by
  obtain ⟨hinstalled, heax⟩ := abiSigHandler_accepted domain task.cleared
    call.isSignal_sig (call.blockable_sig (by rw [hkind]; exact hvec)) call.vec false
  have hafter : Consistent
      (abiSigHandler domain task.cleared call.sig call.vec false) :=
    hcons.congr hinstalled.blocked
  have hstep : task.view.step .sigset call.sig.toNat call.vec =
      (task.view.install call.sig.toNat call.vec).unblock call.sig.toNat :=
    if_neg hvec
  rw [stepRight_returning (Or.inr hkind), answer_eq, hkind, hstep]
  dsimp only
  rw [if_pos hvec]
  refine ⟨?_, heax, ?_⟩
  · rw [view_unblock hafter call.isSignal_sig]
    exact congrArg (fun view => Reference.unblock view _) hinstalled.view
  · exact hinstalled.eflags ▸ carry_cleared task

theorem stepRight_sigset_hold (hcons : Consistent task)
    (hkind : call.kind = .sigset) (hvec : call.vec = sigHold) :
    StepRight task call ↔
      Blockable call.sig ∧ task.view.disposition call.sig.toNat = sigDfl := by
  have hstep : task.view.step .sigset call.sig.toNat call.vec =
      task.view.block call.sig.toNat := if_pos hvec
  have hblock := @view_block_iff task.cleared call.sig hcons call.isSignal_sig
  rw [stepRight_returning (Or.inr hkind), answer_eq, hkind, hstep]
  dsimp only
  rw [if_neg (not_not_intro hvec)]
  apply and_congr hblock
  obtain ⟨heax, heflags⟩ :=
    sigprocmask_registers task.cleared .block (oneSignal call.sig)
  rw [heax, heflags, and_iff_left (carry_cleared task)]
  exact eq_comm

theorem stepRight_sighold (hcons : Consistent task)
    (hkind : call.kind = .sighold) :
    StepRight task call ↔ Blockable call.sig := by
  rw [stepRight_silent (Or.inl hkind), answer_eq, hkind]
  exact @view_block_iff task.cleared call.sig hcons call.isSignal_sig

theorem stepRight_sigrelse (hcons : Consistent task)
    (hkind : call.kind = .sigrelse) : StepRight task call := by
  rw [stepRight_silent (Or.inr (Or.inl hkind)), answer_eq, hkind]
  exact @view_unblock task.cleared call.sig hcons call.isSignal_sig

theorem stepRight_sigignore (hkind : call.kind = .sigignore) :
    StepRight task call := by
  obtain ⟨old, after, hcall, -, hinstalled⟩ := linux26RtSigaction_accepted
    task.cleared call.isSignal_sig
    (call.blockable_sig (by rw [hkind]; trivial)) ⟨sigIgn, saSiginfo, 0⟩
  rw [stepRight_silent (Or.inr (Or.inr hkind)), answer_eq, hkind]
  dsimp only
  rw [hcall]
  exact hinstalled.view

theorem suspendWith_view (task : Task) (around : Surroundings)
    (sig : BitVec 32) :
    (suspendWith domain task around sig).1.view = task.view := by
  rw [suspendWith]
  cases kernelSigsuspend around (1#32 <<< (sig.toNat - 1)) with
  | error errno => rfl
  | ok mask => rfl

/-- The mask that the process waits with. -/
theorem suspendWith_mask (task : Task) (around : Surroundings)
    (sig : BitVec 32) (good : BitVec 64 → Prop) :
    (∃ mask, (suspendWith domain task around sig).2 = some mask ∧ good mask) ↔
      around.size = 8 ∧
        ∃ mask, around.memory (1#32 <<< (sig.toNat - 1)) = some mask ∧
          good (mask &&& ~~~unblockable) := by
  rw [suspendWith, kernelSigsuspend]
  by_cases hsize : around.size = 8
  · rw [if_neg (not_not_intro hsize), and_iff_right hsize]
    cases around.memory (1#32 <<< (sig.toNat - 1)) with
    | none => simp
    | some mask => simp
  · rw [if_pos hsize]
    apply iff_of_false
    · simp
    · exact fun hsuspends => hsize hsuspends.1

theorem getLsbD_suspended {sig : BitVec 32} (hsig : IsSignal sig)
    (mask : BitVec 64) :
    (mask &&& ~~~unblockable).getLsbD (sig.toNat - 1) = false ↔
      (Blockable sig → mask.getLsbD (sig.toNat - 1) = false) := by
  have hindex : sig.toNat - 1 < 64 := by
    have hrange := hsig
    rw [IsSignal] at hrange
    omega
  rw [blockable_iff hsig, BitVec.getLsbD_and, BitVec.getLsbD_not,
    decide_eq_true hindex, Bool.true_and]
  cases unblockable.getLsbD (sig.toNat - 1) <;> simp

theorem stepRight_sigpause (hkind : call.kind = .sigpause) :
    StepRight task call ↔
      call.around.size = 8 ∧
        ∃ mask, call.around.memory (1#32 <<< (call.sig.toNat - 1)) = some mask ∧
          (Blockable call.sig → mask.getLsbD (call.sig.toNat - 1) = false) := by
  have hview : (suspendWith domain task.cleared call.around call.sig).1.view =
      task.view.step .sigpause call.sig.toNat call.vec :=
    suspendWith_view task.cleared call.around call.sig
  have hsilent : ¬ (call.kind = .signal ∨ call.kind = .sigset) := by
    simp [hkind]
  rw [StepRight, AnswerRight]
  rw [answer_eq, hkind]
  dsimp only
  rw [and_iff_right hview]
  rw [hkind] at hsilent
  rw [and_iff_right fun hreturning => absurd hreturning hsilent,
    imp_iff_right rfl, suspendWith_mask]
  apply and_congr_right'
  apply exists_congr
  intro mask
  apply and_congr_right'
  exact getLsbD_suspended call.isSignal_sig mask

/-- A request is right exactly when it meets the condition. -/
theorem stepRight_iff (hcons : Consistent task) (call : SigCall domain) :
    StepRight task call ↔ AnswerMeets (task, task.view) call := by
  rw [AnswerMeets]
  cases hkind : call.kind with
  | signal => exact iff_of_true (stepRight_signal hkind) trivial
  | sigset =>
    by_cases hvec : call.vec = sigHold
    · rw [stepRight_sigset_hold hcons hkind hvec]
      exact (imp_iff_right hvec).symm
    · exact iff_of_true (stepRight_sigset_install hcons hkind hvec)
        fun hhold => absurd hhold hvec
  | sighold => exact stepRight_sighold hcons hkind
  | sigrelse => exact iff_of_true (stepRight_sigrelse hcons hkind) trivial
  | sigignore => exact iff_of_true (stepRight_sigignore hkind) trivial
  | sigpause => exact stepRight_sigpause hkind

theorem suspendWith_blocked (task : Task) (around : Surroundings)
    (sig : BitVec 32) :
    (suspendWith domain task around sig).1.blocked = task.blocked := by
  rw [suspendWith]
  cases kernelSigsuspend around (1#32 <<< (sig.toNat - 1)) with
  | error errno => rfl
  | ok mask => rfl

/-- No request blocks a signal that cannot be blocked. -/
theorem consistent_answer (hcons : Consistent task) (call : SigCall domain) :
    Consistent (call.answer task).1 := by
  have hcleared : Consistent task.cleared := hcons
  have hhandler : call.kind.Installs call.vec → ∀ oneshot, Consistent
      (abiSigHandler domain task.cleared call.sig call.vec oneshot) :=
    fun hinstalls oneshot => hcleared.congr (abiSigHandler_accepted domain
      task.cleared call.isSignal_sig (call.blockable_sig hinstalls) call.vec
      oneshot).1.blocked
  rw [answer_eq]
  cases hkind : call.kind with
  | signal => exact hhandler (by rw [hkind]; trivial) true
  | sigset =>
    dsimp only
    by_cases hvec : call.vec = sigHold
    · rw [if_neg (not_not_intro hvec)]
      exact consistent_sigprocmask hcleared call.isSignal_sig .block
    · rw [if_pos hvec]
      exact consistent_sigprocmask
        (hhandler (by rw [hkind]; exact hvec) false) call.isSignal_sig .unblock
  | sighold => exact consistent_sigprocmask hcleared call.isSignal_sig .block
  | sigrelse => exact consistent_sigprocmask hcleared call.isSignal_sig .unblock
  | sigignore =>
    obtain ⟨old, after, hcall, -, hinstalled⟩ := linux26RtSigaction_accepted
      task.cleared call.isSignal_sig
      (call.blockable_sig (by rw [hkind]; trivial)) ⟨sigIgn, saSiginfo, 0⟩
    dsimp only
    rw [hcall]
    exact hcleared.congr hinstalled.blocked
  | sigpause => exact hcleared.congr (suspendWith_blocked _ _ _)

end Step

/-! ## Every run -/

/-- Both machines agree behind every request of a run, and every request hands back
what it should, exactly when all its requests meet the condition. -/
theorem sigfuncRight_iff (domain : Domain) (task : Task)
    (calls : List (SigCall domain)) (hcons : Consistent task) :
    SigfuncRight task calls ↔ SigfuncMeets task calls := by
  have hstep : ∀ (state : Task × Reference) (call : SigCall domain),
      Agree state ∧ Consistent state.1 →
        ((∀ next, sigStep state call = some next → Agree next) ∧
          AnswerRight state call ↔ AnswerMeets state call) := by
    rintro ⟨task, reference⟩ call ⟨hagree, hcons⟩
    obtain rfl : task.view = reference := hagree
    rw [← stepRight_iff hcons call]
    apply and_congr_left'
    rw [sigStep]
    simp only [Option.some.injEq, forall_eq']
    rfl
  refine @always_iff_stepsMeet _ _ sigStep
    (fun state => Agree state ∧ Consistent state.1) Agree AnswerRight AnswerMeets
    (fun state hinv => hinv.1) ?_ ?_ ?_ (task, task.view) ⟨rfl, hcons⟩ calls
  · intro state call next hinv hmeets hnext
    refine ⟨((hstep state call hinv).mpr hmeets).1 next hnext, ?_⟩
    rw [← Option.some.inj hnext]
    exact consistent_answer hinv.2 call
  · exact fun state call hinv hmeets => ((hstep state call hinv).mpr hmeets).2
  · intro state call hinv hright hgood
    exact (hstep state call hinv).mp ⟨hgood, hright⟩

theorem consistent_startTask : Consistent startTask := by
  rw [Consistent, startTask]
  exact BitVec.zero_and

/-- `sighold` and `sigset` of SIGINT. -/
theorem sigfuncRight_sighold :
    @SigfuncRight unixWare7Domain startTask
      [⟨.sighold, 2, 0, ⟨0, fun _ => none⟩, by decide, fun hnot => hnot.elim⟩,
        ⟨.sigset, 2, 0x8048100, ⟨0, fun _ => none⟩, by decide,
          fun _ => by decide⟩] := by
  apply (sigfuncRight_iff _ _ _ consistent_startTask).mpr
  refine ⟨⟨by decide, by decide⟩, fun next _ => ⟨?_, fun _ _ => trivial⟩⟩
  intro hhold
  exact absurd hhold (by decide)

/-- `sigset` with SIG_HOLD hands back 0, not the handler. -/
theorem sigfuncRight_sigHold :
    ¬ @SigfuncRight unixWare7Domain startTask
      [⟨.sigset, 2, 0x8048100, ⟨0, fun _ => none⟩, by decide,
          fun _ => by decide⟩,
        ⟨.sigset, 2, sigHold, ⟨0, fun _ => none⟩, by decide,
          fun hnot => absurd rfl hnot⟩] := by
  intro hright
  have hlast := hright.2.2 _ rfl
  have hreturned := (hlast.2.1.1 (Or.inr rfl)).1
  exact absurd hreturned (by decide)

end IbcsUs.Signals
