import IbcsUs.Signals.Sigfunc

/-!
# A disposition that is set is what is got

`abi_sigaction` hands an action to the kernel in the kernel's own layout and shows
what it gets back in that of SVR4.  Flags and mask pass through two tables each, and
the action for SIGSEGV through `_linux26_sigtab`, which is written for all of the
first signals and read for that one only.
-/

namespace IbcsUs.Signals

open IbcsUs.Sysent IbcsUs.Bits

/-! ## What can be set -/

/-- An exec domain with the signal tables of a personality. -/
structure PersonalityDomain where
  personality : Personality
  domain : Domain
  signalMap_eq : ∀ s : ℕ, s ≤ nsignals →
    domain.signalMap s = personality.signalMap.getD s (-1)
  signalInvmap_eq : ∀ s ≤ nsignals,
    domain.signalInvmap s = personality.signalInvmap.getD s (-1)

/-- The six flags. -/
structure FlagChoice where
  onstack : Bool
  restart : Bool
  nodefer : Bool
  resethand : Bool
  nocldstop : Bool
  nocldwait : Bool

/-- The word of `svr4_sa_flags`. -/
def FlagChoice.word (choice : FlagChoice) : BitVec 32 :=
  (if choice.onstack then 0x00001 else 0) ||| (if choice.restart then 0x00004 else 0)
    ||| (if choice.nodefer then 0x00010 else 0)
    ||| (if choice.resethand then 0x00002 else 0)
    ||| (if choice.nocldstop then 0x20000 else 0)
    ||| (if choice.nocldwait then 0x10000 else 0)

/-- A mask of signals each of which is mapped to one that is mapped back to it, and
which is neither SIGKILL nor SIGSTOP. -/
structure OneToOneMask (exec : PersonalityDomain) where
  word : BitVec 32
  isSignal : ∀ s : ℕ, Selected word s → IsSignal (exec.domain.signalMap s)
  back : ∀ s : ℕ, Selected word s →
    exec.domain.signalInvmap (exec.domain.signalMap s).toNat = BitVec.ofNat 32 s
  blockable : ∀ s : ℕ, Selected word s → Blockable (exec.domain.signalMap s)

/-- A signal of the personality that is mapped, to neither SIGKILL nor SIGSTOP. -/
structure SettableSignal (exec : PersonalityDomain) where
  number : BitVec 32
  ne_zero : number ≠ 0
  mapped : abiMapsig exec.domain number ≠ -1
  blockable : Blockable (abiMapsig exec.domain number)

/-- The action with a handler, flags and a mask. -/
def settable {exec : PersonalityDomain} (handler : BitVec 32) (choice : FlagChoice)
    (mask : OneToOneMask exec) : AbiSigaction where
  flags := choice.word
  handler := handler
  mask := mask.word

/-! ## Flags -/

/-- The flags come back; those that the emulator adds are not looked at. -/
theorem addFlags_word (choice : FlagChoice) :
    addFlags (svr4Flags.map Prod.swap) 0
        (addFlags svr4Flags saSiginfo choice.word) = choice.word ∧
      addFlags (svr4Flags.map Prod.swap) 0
        (addFlags svr4Flags saSiginfo choice.word ||| saRestorer) =
          choice.word := by
  obtain ⟨onstack, restart, nodefer, resethand, nocldstop, nocldwait⟩ := choice
  revert onstack restart nodefer resethand nocldstop nocldwait
  decide

/-! ## Masks -/

section Masks

variable {σ : Type} {exec : PersonalityDomain}

/-- Loops whose rounds do the same end with the same. -/
theorem eachSignal_congr {body other : ℕ → BitVec 32 → σ → σ} {start : σ}
    (hsame : ∀ i state, 1 ≤ i → i ≤ 32 →
      body i (1#32 <<< (i - 1)) state = other i (1#32 <<< (i - 1)) state) :
    eachSignal body 32 1 1 start = eachSignal other 32 1 1 start := by
  have hend := @eachSignal_rule σ body start
    (fun n state => eachSignal other (33 - n) n (1#32 <<< (n - 1)) state =
      eachSignal other 32 1 1 start) rfl ?_
  · exact hend
  · intro i state hpos hle hkept
    have hrounds : 33 - i = (33 - (i + 1)) + 1 := by omega
    have hnext : 1#32 <<< (i - 1) <<< 1 = 1#32 <<< (i + 1 - 1) := by
      rw [← BitVec.shiftLeft_add]
      congr 1
      omega
    rw [hrounds, eachSignal, hnext] at hkept
    rw [hsame i state hpos hle]
    exact hkept

/-- What holds of every entry of a table and of the default. -/
theorem getD_rule {α : Type} {rows : List α} {default : α} (kept : α → Prop)
    (hrows : ∀ row ∈ rows, kept row) (hdefault : kept default) (index : ℕ) :
    kept (rows.getD index default) := by
  rw [List.getD_eq_getElem?_getD]
  rcases hrow : rows[index]? with _ | row
  · exact hdefault
  · exact hrows row (List.mem_of_getElem? hrow)

/-- An entry is -1 or a signal, or 0. -/
theorem entry_cases {entry : BitVec 32}
    (hentry : (entry = -1 || decide (entry.toNat ≤ 32)) = true) :
    entry = -1 ∨ entry = 0 ∨ IsSignal entry := by
  rw [Bool.or_eq_true, decide_eq_true_eq, decide_eq_true_eq] at hentry
  apply hentry.imp_right
  intro hle
  rcases Nat.eq_zero_or_pos entry.toNat with hzero | hpos
  · exact .inl (BitVec.eq_of_toNat_eq hzero)
  · exact .inr ⟨hpos, hle⟩

theorem invmap_entry (personality : Personality) (s : ℕ) :
    personality.signalInvmap.getD s (-1) = -1 ∨
      personality.signalInvmap.getD s (-1) = 0 ∨
      IsSignal (personality.signalInvmap.getD s (-1)) := by
  have hall : personality.signalInvmap.all (fun entry =>
      entry = -1 || decide (entry.toNat ≤ 32)) = true := by
    cases personality <;> rfl
  apply getD_rule fun entry => entry = -1 ∨ entry = 0 ∨ IsSignal entry
  · exact fun entry hmem => entry_cases (List.all_eq_true.1 hall entry hmem)
  · exact .inl rfl

theorem map_entry (personality : Personality) (s : ℕ) (hpos : s ≠ 0) :
    personality.signalMap.getD s (-1) = -1 ∨
      IsSignal (personality.signalMap.getD s (-1)) := by
  have hall : personality.signalMap.tail.all (fun entry =>
      (entry = -1 || decide (entry.toNat ≤ 32)) && entry ≠ 0) = true := by
    cases personality <;> rfl
  have hhead : personality.signalMap = 0 :: personality.signalMap.tail := by
    cases personality <;> rfl
  obtain ⟨s, rfl⟩ := Nat.exists_eq_succ_of_ne_zero hpos
  rw [hhead, List.getD_cons_succ]
  apply getD_rule fun entry => entry = -1 ∨ IsSignal entry
  · intro entry hmem
    have hentry := List.all_eq_true.1 hall entry hmem
    rw [Bool.and_eq_true, decide_eq_true_eq] at hentry
    exact (entry_cases hentry.1).imp_right (Or.resolve_left · hentry.2)
  · exact .inl rfl

/-- A signal of the mask that is set is one of the kernel. -/
def OneToOneMask.tables (mask : OneToOneMask exec) : TablePair where
  map s := if Selected mask.word s then exec.domain.signalMap s else -1
  invmap := exec.domain.signalInvmap
  map_entry s _ _ := by
    by_cases hselected : Selected mask.word s
    · rw [if_pos hselected]
      exact .inr (.inr (mask.isSignal s hselected))
    · exact .inl (if_neg hselected)
  invmap_entry s _ hle := by
    rw [exec.signalInvmap_eq s hle]
    exact invmap_entry exec.personality s
  inverse s _ _ hsig := by
    by_cases hselected : Selected mask.word s
    · rw [if_pos hselected]
      exact mask.back s hselected
    · rw [if_neg hselected] at hsig
      exact absurd rfl hsig.ne_neg_one

theorem OneToOneMask.tables_map (mask : OneToOneMask exec) {s : ℕ}
    (hselected : Selected mask.word s) :
    mask.tables.map s = exec.domain.signalMap s := if_pos hselected

/-- The kernel's set of a mask; the signals that are not in the mask do not
matter. -/
theorem OneToOneMask.toKernel (mask : OneToOneMask exec) :
    mapSigvecToKernel mask.word (fun i => exec.domain.signalMap i) =
      mapSigvecToKernel mask.word mask.tables.map := by
  apply eachSignal_congr
  intro i state hpos hle
  have hmask := and_mask_ne_zero mask.word hpos hle
  by_cases hselected : Selected mask.word i
  · rw [mask.tables_map hselected]
  · have hzero : ¬ mask.word &&& 1#32 <<< (i - 1) ≠ 0 := mt hmask.1 hselected
    rw [if_neg fun hadds => hzero hadds.1, if_neg fun hadds => hzero hadds.1]

/-- The kernel takes nothing out of the set. -/
theorem OneToOneMask.and_unblockable (mask : OneToOneMask exec) :
    (mapSigvecToKernel mask.word mask.tables.map).set &&& ~~~unblockable =
      (mapSigvecToKernel mask.word mask.tables.map).set := by
  have hset := (kernelSet_mapSigvecToKernel mask.tables mask.word).1
  apply eq_of_bits
  intro index hindex
  rw [BitVec.getLsbD_and, BitVec.getLsbD_not, decide_eq_true hindex,
    Bool.true_and, Bool.and_eq_true, and_iff_left_iff_imp, hset index hindex]
  rintro ⟨s, _, _, hselected, hsig, hentry⟩
  rw [mask.tables_map hselected] at hsig hentry
  have hbit := (blockable_iff hsig).1 (mask.blockable s hselected)
  rw [hentry, Nat.add_sub_cancel] at hbit
  rw [hbit, Bool.not_false]

/-- The mask comes back. -/
theorem OneToOneMask.back_eq (mask : OneToOneMask exec) :
    mapSigvecFromKernel (mapSigvecToKernel mask.word mask.tables.map).set
      exec.domain.signalInvmap = mask.word := by
  apply eq_of_bits
  intro index hindex
  have hback := @mapSigvecFromKernel_back mask.tables mask.word (index + 1)
    (by omega) (by omega)
  rw [Nat.add_sub_cancel] at hback
  apply hback.trans
  constructor
  · exact fun hselected => hselected.1.2.2
  · intro hbit
    have hselected : Selected mask.word (index + 1) :=
      ⟨by omega, by omega, hbit⟩
    rw [mask.tables_map hselected]
    exact ⟨hselected, mask.isSignal _ hselected⟩

end Masks

/-! ## The disposition that is shown -/

/-- What `rt_sigaction` shows for a signal. -/
def Task.shown (task : Task) (sig : BitVec 32) : Sigaction :=
  if sig = sigSegv then task.segv else task.actions sig.toNat

section Shown

variable {task : Task} {sig : BitVec 32} {exec : PersonalityDomain}

/-- A signal that is not refused shows its disposition, whatever is installed. -/
theorem linux26RtSigaction_shows (hsig : IsSignal sig) (hok : Blockable sig)
    (next : Option Sigaction) :
    (linux26RtSigaction task sig next).1 = .ok (task.shown sig) := by
  rw [Task.shown]
  by_cases hsegv : sig = sigSegv
  · rw [if_pos hsegv, linux26RtSigaction, if_pos hsegv, hsegv]
    rfl
  · rw [if_neg hsegv]
    cases next with
    | some action =>
        obtain ⟨table, htable⟩ := storeSigtab_eq task sig (some action)
        rw [linux26RtSigaction_kernel hsig hok hsegv htable]
    | none =>
        have hvalid : 1 ≤ sig.toInt ∧ sig.toInt ≤ 64 := by
          have hrange := hsig
          rw [IsSignal] at hrange
          rw [toInt_of_isSignal hsig]
          omega
        unfold linux26RtSigaction ibcsSigaction kernelSigaction
        rw [if_neg hsegv]
        dsimp only [storeSigtab, Option.map_none]
        rw [if_neg (not_not_intro hvalid)]

/-- What is shown after an action has been installed. -/
theorem shown_linux26RtSigaction (hsig : IsSignal sig) (hok : Blockable sig)
    (action : Sigaction) :
    (linux26RtSigaction task sig (some action)).2.shown sig =
      if sig = sigSegv then action
      else { action with
        flags := action.flags ||| saRestorer
        mask := action.mask &&& ~~~unblockable } := by
  rw [Task.shown]
  by_cases hsegv : sig = sigSegv
  · rw [if_pos hsegv, if_pos hsegv, segv_linux26RtSigaction,
      segv_storeSigtab, if_pos hsegv]
  · obtain ⟨table, htable⟩ := storeSigtab_eq task sig (some action)
    rw [if_neg hsegv, if_neg hsegv, linux26RtSigaction_kernel hsig hok hsegv htable]
    exact Function.update_self _ _ _

/-- A settable action comes back from the kernel's layout, also with what is added
to it. -/
theorem toAbi_toKernel (handler : BitVec 32) (choice : FlagChoice)
    (mask : OneToOneMask exec) (sig : BitVec 32) :
    let action := (settable handler choice mask).toKernel exec.domain svr4Flags
      saSiginfo
    Sigaction.toAbi exec.domain svr4Flags
        (if sig = sigSegv then action
        else { action with
          flags := action.flags ||| saRestorer
          mask := action.mask &&& ~~~unblockable }) =
      settable handler choice mask := by
  obtain ⟨hflags, hadded⟩ := addFlags_word choice
  dsimp only [settable, AbiSigaction.toKernel]
  rw [mask.toKernel, mask.and_unblockable]
  split_ifs
  · rw [Sigaction.toAbi, hflags, mask.back_eq]
  · rw [Sigaction.toAbi, hadded, mask.back_eq]

/-- The kernel's signal of a signal that can be set. -/
theorem SettableSignal.isSignal (signal : SettableSignal exec) :
    IsSignal (abiMapsig exec.domain signal.number) := by
  have hmapped := signal.mapped
  unfold abiMapsig at hmapped ⊢
  by_cases hhigh : nsignals ≤ signal.number.toNat
  · rw [if_pos hhigh] at hmapped
    exact absurd rfl hmapped
  · have hne : signal.number.toNat ≠ 0 := fun hzero =>
      signal.ne_zero (BitVec.eq_of_toNat_eq hzero)
    rw [if_neg hhigh, exec.signalMap_eq _ (by omega)] at hmapped ⊢
    exact (map_entry exec.personality _ hne).resolve_left hmapped

/-- What `abi_sigaction` answers for such a signal. -/
theorem abiSigaction_shows (signal : SettableSignal exec)
    (next : Option AbiSigaction) :
    (abiSigaction exec.domain task signal.number next).1 =
      .ok (Sigaction.toAbi exec.domain svr4Flags
        (task.shown (abiMapsig exec.domain signal.number))) := by
  unfold abiSigaction
  dsimp only
  rw [if_neg signal.mapped, linux26RtSigaction_shows signal.isSignal signal.blockable]
  rfl

end Shown

/-! ## A call that is refused -/

section Refused

variable {domain : Domain} {task after : Task} {number : BitVec 32}
variable {action : Option AbiSigaction}

/-- The kernel's dispositions and the program's one for SIGSEGV are those of another
state. -/
structure SameDispositions (task after : Task) : Prop where
  actions : after.actions = task.actions
  segv : after.segv = task.segv

/-- What is asked for without being set depends on nothing else. -/
theorem SameDispositions.get (hsame : SameDispositions task after)
    (domain : Domain) (number : BitVec 32) :
    (abiSigaction domain after number none).1 =
      (abiSigaction domain task number none).1 := by
  unfold abiSigaction
  dsimp only [Option.map_none]
  by_cases hmapped : abiMapsig domain number = -1
  · rw [if_pos hmapped, if_pos hmapped]
  · rw [if_neg hmapped, if_neg hmapped]
    dsimp only
    congr 1
    unfold linux26RtSigaction
    by_cases hsegv : abiMapsig domain number = sigSegv
    · rw [if_pos hsegv, if_pos hsegv, hsegv]
      exact congrArg Except.ok hsame.segv
    · rw [if_neg hsegv, if_neg hsegv]
      dsimp only [ibcsSigaction, kernelSigaction, storeSigtab, Option.map_none]
      rw [hsame.actions]
      split_ifs <;> rfl

/-- A kernel call that is refused changes nothing. -/
theorem kernelSigaction_refused {sig : BitVec 32} {act : Option Sigaction}
    {errno : ℤ} (hrefused : (kernelSigaction task sig act).1 = .error errno) :
    (kernelSigaction task sig act).2 = task := by
  unfold kernelSigaction at hrefused ⊢
  dsimp only at hrefused ⊢
  by_cases hvalid : 1 ≤ sig.toInt ∧ sig.toInt ≤ 64
  · rw [if_neg (not_not_intro hvalid)] at hrefused ⊢
    cases act with
    | none => rfl
    | some action =>
        dsimp only at hrefused ⊢
        by_cases hkept : sig = sigKill ∨ sig = sigStop
        · rw [if_pos hkept]
        · rw [if_neg hkept] at hrefused
          cases hrefused
  · rw [if_pos hvalid]

/-- An error is not made by what is done with a result. -/
theorem error_of_map {α β : Type} {f : α → β} {result : Except ℤ α} {errno : ℤ}
    (herror : result.map f = .error errno) : result = .error errno := by
  cases result with
  | error other => exact congrArg Except.error (Except.error.inj herror)
  | ok value => cases herror

/-- A call that is refused leaves the dispositions; the entry of the table that it
may have written is not that of SIGSEGV. -/
theorem sameDispositions_of_refused {errno : ℤ}
    (hrefused : (abiSigaction domain task number action).1 = .error errno) :
    SameDispositions task (abiSigaction domain task number action).2 := by
  rw [abiSigaction] at hrefused ⊢
  dsimp only at hrefused ⊢
  by_cases hmapped : abiMapsig domain number = -1
  · rw [if_pos hmapped]
    exact ⟨rfl, rfl⟩
  · rw [if_neg hmapped] at hrefused ⊢
    dsimp only at hrefused ⊢
    generalize action.map (AbiSigaction.toKernel domain svr4Flags saSiginfo) = act
      at hrefused ⊢
    by_cases hsegv : abiMapsig domain number = sigSegv
    · rw [linux26RtSigaction, if_pos hsegv] at hrefused
      cases hrefused
    · obtain ⟨table, htable⟩ := storeSigtab_eq task (abiMapsig domain number) act
      have hkernel : linux26RtSigaction task (abiMapsig domain number) act =
          ibcsSigaction (storeSigtab task (abiMapsig domain number) act)
            (abiMapsig domain number) act := if_neg hsegv
      constructor
      · rw [hkernel, htable] at hrefused ⊢
        rw [ibcsSigaction] at hrefused ⊢
        rw [kernelSigaction_refused (error_of_map hrefused)]
      · rw [segv_linux26RtSigaction]
        cases act with
        | none => rfl
        | some action => rw [segv_storeSigtab, if_neg hsegv]

end Refused

/-- What has been set for a signal that the personality maps is what is shown next,
and a call that is refused changes nothing of what is shown. -/
theorem sigaction_set_get (exec : PersonalityDomain) (task : Task) :
    (∀ (signal : SettableSignal exec) (handler : BitVec 32) (choice : FlagChoice)
      (mask : OneToOneMask exec) (next : Option AbiSigaction),
      let set := abiSigaction exec.domain task signal.number
        (some (settable handler choice mask))
      (∃ old, set.1 = .ok old) ∧
        (abiSigaction exec.domain set.2 signal.number next).1 =
          .ok (settable handler choice mask)) ∧
    ∀ (number : BitVec 32) (action : Option AbiSigaction) (errno : ℤ),
      (abiSigaction exec.domain task number action).1 = .error errno →
      ∀ shown, (abiSigaction exec.domain
          (abiSigaction exec.domain task number action).2 shown none).1 =
        (abiSigaction exec.domain task shown none).1 := by
  constructor
  · intro signal handler choice mask next
    dsimp only
    constructor
    · exact ⟨_, abiSigaction_shows signal _⟩
    · have hset : (abiSigaction exec.domain task signal.number
          (some (settable handler choice mask))).2 =
        (linux26RtSigaction task (abiMapsig exec.domain signal.number)
          (some ((settable handler choice mask).toKernel exec.domain svr4Flags
            saSiginfo))).2 := by
        rw [abiSigaction]
        dsimp only
        rw [if_neg signal.mapped]
        rfl
      rw [abiSigaction_shows, hset,
        shown_linux26RtSigaction signal.isSignal signal.blockable, toAbi_toKernel]
  · intro number action errno hrefused shown
    exact (sameDispositions_of_refused hrefused).get exec.domain shown

theorem selected_one {s : ℕ} (hselected : Selected 1 s) : s = 1 := by
  have hbit := hselected.2.2
  have hpos := hselected.1
  change (1#32).getLsbD (s - 1) = true at hbit
  rw [BitVec.getLsbD_one, Bool.and_eq_true, decide_eq_true_eq,
    decide_eq_true_eq] at hbit
  omega

/-- UnixWare 7. -/
def unixWare7Exec : PersonalityDomain where
  personality := .unixWare7
  domain := unixWare7Domain
  signalMap_eq s _ := by
    rw [unixWare7Domain]
    dsimp only
    rw [if_pos (Int.natCast_nonneg s), Int.toNat_natCast]
  signalInvmap_eq _ _ := rfl

/-- SIGHUP alone. -/
def hangupMask : OneToOneMask unixWare7Exec where
  word := 1
  isSignal s hselected := by
    obtain rfl := selected_one hselected
    decide
  back s hselected := by
    obtain rfl := selected_one hselected
    rfl
  blockable s hselected := by
    obtain rfl := selected_one hselected
    exact ⟨by decide, by decide⟩

/-- SIGSEGV. -/
def segvSignal : SettableSignal unixWare7Exec where
  number := 11
  ne_zero := by decide
  mapped := by decide
  blockable := ⟨by decide, by decide⟩

/-- A handler for SIGSEGV is shown again. -/
theorem sigaction_set_get_segv :
    (abiSigaction unixWare7Domain (abiSigaction unixWare7Domain startTask 11
      (some ⟨0x20001, 0x8048000, 1⟩)).2 11 none).1 = .ok ⟨0x20001, 0x8048000, 1⟩ :=
  ((sigaction_set_get unixWare7Exec startTask).1 segvSignal 0x8048000
    ⟨true, false, false, false, true, false⟩ hangupMask none).2

end IbcsUs.Signals
