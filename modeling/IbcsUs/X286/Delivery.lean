import Mathlib.Data.Set.BooleanAlgebra
import IbcsUs.Core.Runs
import IbcsUs.X286.Brkctl
import IbcsUs.X286.Signals

/-!
# Delayed signals are delivered

As long as no disposition is set for a signal that is still pending, table, pending
signals and kernel agree: a signal that the kernel would pass on, or that has still to
be passed on, has the entry that the program has registered.  Every transfer then goes
there, and every arrival has one.
-/

namespace IbcsUs.X286

open Runs

/-- The entry of a signal once a call of `signal` that is under way has ended as it is
known to end. -/
def entryFor (state : SigState) (nr : ℕ) : SigEnt :=
  match state.phase with
  | .written n saved _ => if nr = n then saved else state.sigTable nr
  | .got n saved _ _ => if nr = n then saved else state.sigTable nr
  | .finish n saved _ none => if nr = n then saved else state.sigTable nr
  | _ => state.sigTable nr

/-- The address registered then. -/
def registeredFor (state : SigState) (nr : ℕ) : Option (BitVec 16 × BitVec 16) :=
  match state.phase with
  | .finish n _ new (some _) => if nr = n then new.address else state.ledger.registered nr
  | _ => state.ledger.registered nr

/-- The entry is the address registered last, which `verify_area` has accepted. -/
def Armed (state : SigState) (nr : ℕ) : Prop :=
  ∃ cs ip, entryFor state nr = ⟨1, cs, ip⟩ ∧ registeredFor state nr = some (cs, ip) ∧
    (cs, ip) ∈ state.ledger.accepted nr

/-- A handler under way is in the table, and its address has been accepted. -/
def NewStored (state : SigState) : Prop :=
  match state.phase with
  | .written n _ new => state.sigTable n = new.entry ∧
      ∀ address, new.address = some address → address ∈ state.ledger.accepted n
  | .got n _ new _ => state.sigTable n = new.entry ∧
      ∀ address, new.address = some address → address ∈ state.ledger.accepted n
  | .finish n _ new _ => state.sigTable n = new.entry ∧
      ∀ address, new.address = some address → address ∈ state.ledger.accepted n
  | _ => True

/-- The part of a system call before the pending signals are looked at. -/
def Phase.BeforeLoop : Phase → Prop
  | .entered _ => True
  | .written .. => True
  | .got .. => True
  | .finish .. => True
  | _ => False

/-- No call of `signal` is between its first store and its end. -/
def Phase.Quiet : Phase → Prop
  | .written .. => False
  | .got .. => False
  | .finish .. => False
  | _ => True

/-- Table, pending signals and kernel agree. -/
structure SigInv (state : SigState) : Prop where
  armed : ∀ nr, state.kernel nr = .sigSigf ∨ Owed state nr → Armed state nr
  free : ∀ nr, state.kernel nr = .sigSigf →
    ¬ Owed state nr ∧ state.ledger.sinceReturn nr = false
  taken : ∀ nr, state.phase = .transfer nr → nr ∉ state.pending
  early : state.phase.BeforeLoop → ∀ nr, state.ledger.sinceReturn nr = true →
    nr ∈ state.pending
  returned : state.phase = .program → ∀ nr, state.ledger.sinceReturn nr = false
  stored : NewStored state
  counts : CountsRight state

section Steps

variable {settings : Settings} {ltext : Bool} {state next : SigState}

theorem Armed.congr {nr : ℕ} (harmed : Armed state nr)
    (hentry : entryFor next nr = entryFor state nr)
    (hregistered : registeredFor next nr = registeredFor state nr)
    (haccepted : state.ledger.accepted nr ⊆ next.ledger.accepted nr) : Armed next nr := by
  obtain ⟨cs, ip, hthis, haddress, hin⟩ := harmed
  exact ⟨cs, ip, hentry.trans hthis, hregistered.trans haddress, haccepted hin⟩

theorem entryFor_of_quiet (hquiet : state.phase.Quiet) (nr : ℕ) :
    entryFor state nr = state.sigTable nr := by
  cases hphase : state.phase <;> simp only [hphase, Phase.Quiet] at hquiet <;>
    simp only [entryFor, hphase]

theorem registeredFor_of_quiet (hquiet : state.phase.Quiet) (nr : ℕ) :
    registeredFor state nr = state.ledger.registered nr := by
  cases hphase : state.phase <;> simp only [hphase, Phase.Quiet] at hquiet <;>
    simp only [registeredFor, hphase]

theorem newStored_of_quiet (hquiet : state.phase.Quiet) : NewStored state := by
  cases hphase : state.phase <;> simp only [hphase, Phase.Quiet] at hquiet <;>
    simp only [NewStored, hphase]

theorem armed_iff_of_quiet (hquiet : state.phase.Quiet) (nr : ℕ) :
    Armed state nr ↔ TargetRight state nr := by
  simp only [Armed, TargetRight, entryFor_of_quiet hquiet, registeredFor_of_quiet hquiet]

/-- Only the pending signals are owed where none is being passed on. -/
theorem owed_iff_pending (hphase : ∀ nr, state.phase ≠ .transfer nr) (nr : ℕ) :
    Owed state nr ↔ nr ∈ state.pending :=
  or_iff_left (hphase nr)

/-! ## A signal arrives -/

/-- `SA_ONESHOT`: the signal that has arrived is no longer waited for. -/
theorem reset_eq_sigSigf_iff {kernel : ℕ → Disposition} {nr other : ℕ} :
    Function.update kernel nr .dfl other = .sigSigf ↔
      other ≠ nr ∧ kernel other = .sigSigf := by
  by_cases hnr : other = nr
  · rw [hnr, Function.update_self]
    exact iff_of_false (by decide) fun h => h.1 rfl
  · rw [Function.update_of_ne hnr]
    exact ⟨fun h => ⟨hnr, h⟩, And.right⟩

theorem SigInv.interrupt {nr : ℕ} (hinv : SigInv state) (hphase : state.phase = .program)
    (hkernel : state.kernel nr = .sigSigf) : SigInv (state.interrupt nr) := by
  have hquiet : state.phase.Quiet := by rw [hphase]; trivial
  have hafter : (state.interrupt nr).phase.Quiet := hquiet
  obtain ⟨hfree, -⟩ := hinv.free nr hkernel
  have howed : ∀ other, Owed (state.interrupt nr) other ↔ Owed state other :=
    fun other => Iff.rfl
  have hwaited : ∀ other, (state.interrupt nr).kernel other = .sigSigf ↔
      other ≠ nr ∧ state.kernel other = .sigSigf := fun other => reset_eq_sigSigf_iff
  refine ⟨fun other hother => ?_, fun other hother => ?_, hinv.taken, hinv.early,
    hinv.returned, newStored_of_quiet hafter, fun other => ?_⟩
  · rw [hwaited, howed] at hother
    have hnr : other ≠ nr := by
      obtain ⟨hne, -⟩ | hin := hother
      · exact hne
      · exact fun heq => hfree (heq ▸ hin)
    refine (hinv.armed other (hother.imp_left And.right)).congr ?_ ?_ (Set.Subset.refl _)
    · rw [entryFor_of_quiet hquiet, entryFor_of_quiet hafter]
      exact Function.update_of_ne hnr ..
    · rw [registeredFor_of_quiet hquiet, registeredFor_of_quiet hafter]
      exact Function.update_of_ne hnr ..
  · exact hinv.free other ((hwaited other).mp hother).2
  · rw [howed]
    by_cases hnr : other = nr
    · subst hnr
      refine ⟨fun hin => absurd hin hfree, fun _ => ?_⟩
      have hcount := (hinv.counts other).2 hfree
      simp only [SigState.interrupt, SigState.doSigPending, Function.update_self]
      omega
    · simp only [SigState.interrupt, SigState.doSigPending, Function.update_of_ne hnr]
      exact hinv.counts other

theorem owed_delay (nr other : ℕ) :
    Owed (state.delay nr) other ↔ other = nr ∨ Owed state other := by
  simp only [Owed, SigState.delay, Finset.mem_insert]
  exact or_assoc

theorem SigInv.delay {nr : ℕ} (hinv : SigInv state) (hphase : state.phase ≠ .program)
    (hkernel : state.kernel nr = .sigSigf) : SigInv (state.delay nr) := by
  obtain ⟨hfree, hsince⟩ := hinv.free nr hkernel
  have hwaited : ∀ other, (state.delay nr).kernel other = .sigSigf ↔
      other ≠ nr ∧ state.kernel other = .sigSigf := fun other => reset_eq_sigSigf_iff
  refine ⟨fun other hother => ?_, fun other hother => ?_, fun other hother => ?_,
    fun hbefore other hother => ?_, fun hprogram => absurd hprogram hphase, hinv.stored,
    fun other => ?_⟩
  · rw [hwaited, owed_delay] at hother
    have harmed : Armed state other := by
      obtain ⟨-, hother⟩ | rfl | hother := hother
      · exact hinv.armed other (.inl hother)
      · exact hinv.armed other (.inl hkernel)
      · exact hinv.armed other (.inr hother)
    exact harmed.congr rfl rfl (Set.Subset.refl _)
  · obtain ⟨hnr, hother⟩ := (hwaited other).mp hother
    obtain ⟨hnot, hfalse⟩ := hinv.free other hother
    refine ⟨fun hin => hnot (((owed_delay nr other).mp hin).resolve_left hnr), ?_⟩
    simp only [SigState.delay, SigState.countArrival, Function.update_of_ne hnr]
    exact hfalse
  · have hnr : other ≠ nr := fun heq => hfree (.inr (heq ▸ hother))
    simp only [SigState.delay, Finset.mem_insert, not_or]
    exact ⟨hnr, hinv.taken other hother⟩
  · simp only [SigState.delay, Finset.mem_insert]
    by_cases hnr : other = nr
    · exact .inl hnr
    · simp only [SigState.delay, SigState.countArrival, Function.update_of_ne hnr] at hother
      exact .inr (hinv.early hbefore other hother)
  · rw [owed_delay]
    by_cases hnr : other = nr
    · subst hnr
      refine ⟨fun _ => ?_, fun hnot => absurd (.inl rfl) hnot⟩
      have hcount := (hinv.counts other).2 hfree
      simp [SigState.delay, SigState.countArrival, hsince, hcount]
    · simp only [SigState.delay, SigState.countArrival, Function.update_of_ne hnr, hnr,
        false_or]
      exact hinv.counts other

theorem SigInv.arrive (hinv : SigInv state) (nr : ℕ) : SigInv (state.arrive nr) := by
  rw [SigState.arrive]
  split
  · rename_i hkernel
    split
    · rename_i hphase
      exact hinv.interrupt hphase hkernel
    · rename_i hphase
      exact hinv.delay hphase hkernel
  · exact hinv

/-! ## The emulator goes on -/

/-- A step after which the same signals are waited for and owed. -/
theorem SigInv.of_same (hinv : SigInv state)
    (hentry : ∀ nr, entryFor next nr = entryFor state nr)
    (hregistered : ∀ nr, registeredFor next nr = registeredFor state nr)
    (haccepted : ∀ nr, state.ledger.accepted nr ⊆ next.ledger.accepted nr)
    (hkernel : next.kernel = state.kernel)
    (howed : ∀ nr, Owed next nr ↔ Owed state nr)
    (hsince : next.ledger.sinceReturn = state.ledger.sinceReturn)
    (harrived : next.ledger.arrived = state.ledger.arrived)
    (hmade : next.ledger.made = state.ledger.made)
    (htaken : ∀ nr, next.phase = .transfer nr → nr ∉ next.pending)
    (hearly : next.phase.BeforeLoop → ∀ nr, state.ledger.sinceReturn nr = true →
      nr ∈ next.pending)
    (hreturned : next.phase = .program → ∀ nr, state.ledger.sinceReturn nr = false)
    (hstored : NewStored next) : SigInv next where
  armed nr hnr := by
    rw [hkernel, howed] at hnr
    exact (hinv.armed nr hnr).congr (hentry nr) (hregistered nr) (haccepted nr)
  free nr hnr := by
    rw [hkernel] at hnr
    rw [howed, hsince]
    exact hinv.free nr hnr
  taken := htaken
  early hbefore nr hnr := hearly hbefore nr (hsince ▸ hnr)
  returned hprogram nr := hsince ▸ hreturned hprogram nr
  stored := hstored
  counts nr := by
    rw [howed, harrived, hmade]
    exact hinv.counts nr

/-- A step outside of `emu_i_signal`, which changes neither table nor kernel. -/
theorem SigInv.quietStep (hinv : SigInv state) (hquiet : state.phase.Quiet)
    (hnext : next.phase.Quiet) (htable : next.sigTable = state.sigTable)
    (hkernel : next.kernel = state.kernel) (hledger : next.ledger = state.ledger)
    (howed : ∀ nr, Owed next nr ↔ Owed state nr)
    (htaken : ∀ nr, next.phase = .transfer nr → nr ∉ next.pending)
    (hearly : next.phase.BeforeLoop → ∀ nr, state.ledger.sinceReturn nr = true →
      nr ∈ next.pending)
    (hreturned : next.phase ≠ .program) : SigInv next := by
  have hentry : ∀ nr, entryFor next nr = entryFor state nr := fun nr => by
    rw [entryFor_of_quiet hquiet, entryFor_of_quiet hnext, htable]
  have hregistered : ∀ nr, registeredFor next nr = registeredFor state nr := fun nr => by
    rw [registeredFor_of_quiet hquiet, registeredFor_of_quiet hnext, hledger]
  have haccepted : ∀ nr, state.ledger.accepted nr ⊆ next.ledger.accepted nr := fun nr => by
    rw [hledger]
  exact hinv.of_same hentry hregistered haccepted hkernel howed (by rw [hledger])
    (by rw [hledger]) (by rw [hledger]) htaken hearly
    (fun hprogram => absurd hprogram hreturned) (newStored_of_quiet hnext)

theorem SigInv.enter (hinv : SigInv state) (hphase : state.phase = .program)
    (call : SysCall) (context : Context) :
    SigInv { state with phase := .entered call, context := context } := by
  have hquiet : state.phase.Quiet := by rw [hphase]; trivial
  refine hinv.quietStep hquiet trivial rfl rfl rfl (fun nr => by simp [Owed, hphase])
    (fun nr h => by cases h) (fun _ nr hnr => ?_) (fun h => by cases h)
  rw [hinv.returned hphase nr] at hnr
  cases hnr

theorem SigInv.otherCall {segments : Table} (hinv : SigInv state)
    (hphase : state.phase = .entered (.other segments)) :
    SigInv { state with phase := .loop 1, segments := segments } := by
  have hquiet : state.phase.Quiet := by rw [hphase]; trivial
  exact hinv.quietStep hquiet trivial rfl rfl rfl (fun nr => by simp [Owed, hphase])
    (fun nr h => by cases h) (fun h => h.elim) (fun h => by cases h)

theorem SigInv.fail {call : SysCall} {errno : ℕ} (hinv : SigInv state)
    (hphase : state.phase = .entered call) : SigInv (state.failSignal ltext errno) := by
  have hquiet : state.phase.Quiet := by rw [hphase]; trivial
  exact hinv.quietStep hquiet trivial rfl rfl rfl
    (fun nr => by simp [Owed, hphase, SigState.failSignal]) (fun nr h => by cases h)
    (fun h => h.elim) (fun h => by cases h)

/-- The new entry is stored, and the old one is remembered. -/
theorem SigInv.save {call : SysCall} {new : Handler} {nr : ℕ}
    {accepted : ℕ → Set (BitVec 16 × BitVec 16)} (hinv : SigInv state)
    (hphase : state.phase = .entered call)
    (haccepted : ∀ other, state.ledger.accepted other ⊆ accepted other)
    (hnew : ∀ address, new.address = some address → address ∈ accepted nr) :
    SigInv
      { state with
        phase := .written nr (state.sigTable nr) new
        sigTable := Function.update state.sigTable nr new.entry
        ledger := { state.ledger with accepted := accepted } } := by
  refine hinv.of_same (fun other => ?_) (fun other => by simp [registeredFor, hphase])
    haccepted rfl (fun other => by simp [Owed, hphase]) rfl rfl rfl
    (fun other h => by cases h) (fun _ => hinv.early (by rw [hphase]; trivial))
    (fun h => by cases h) ⟨Function.update_self .., hnew⟩
  simp only [entryFor, hphase]
  by_cases hother : other = nr
  · rw [if_pos hother, hother]
  · rw [if_neg hother, Function.update_of_ne hother]

theorem SigInv.beginSignal {call : SysCall} (hinv : SigInv state)
    (hphase : state.phase = .entered call) (args : SignalArgs) :
    SigInv (state.beginSignal settings ltext args) := by
  rw [SigState.beginSignal]
  split
  · exact hinv.fail hphase
  · cases hnew : handlerOf args with
    | function cs ip =>
        simp only
        split
        · exact hinv.fail hphase
        · refine hinv.save hphase (fun other => ?_) (fun address haddress => ?_)
          · by_cases hother : other = toLinux args.signr.toNat
            · rw [hother, Function.update_self]
              exact Set.subset_insert _ _
            · rw [Function.update_of_ne hother]
          · simp only [Handler.address, Option.some.injEq] at haddress
            rw [Function.update_self, ← haddress]
            exact Set.mem_insert _ _
    | code ignore =>
        simp only
        have haccepted : ∀ nr, state.ledger.accepted nr ⊆ state.ledger.accepted nr :=
          fun _ => Set.Subset.refl _
        exact hinv.save hphase haccepted (fun address haddress => by cases haddress)

theorem SigInv.get {nr : ℕ} {saved : SigEnt} {new : Handler} (hinv : SigInv state)
    (hphase : state.phase = .written nr saved new) (result : Option Disposition) :
    SigInv { state with phase := .got nr saved new result } :=
  hinv.of_same (fun other => by simp [entryFor, hphase])
    (fun other => by simp [registeredFor, hphase]) (fun _ => Set.Subset.refl _) rfl
    (fun other => by simp [Owed, hphase]) rfl rfl rfl (fun other h => by cases h)
    (fun _ => hinv.early (by rw [hphase]; trivial)) (fun h => by cases h)
    (by
      have hstored := hinv.stored
      rw [NewStored, hphase] at hstored
      exact hstored)

/-- The kernel refuses the new disposition. -/
theorem SigInv.setRefused {nr : ℕ} {saved : SigEnt} {new : Handler}
    {result : Option Disposition} (hinv : SigInv state)
    (hphase : state.phase = .got nr saved new result) :
    SigInv { state with phase := .finish nr saved new none } :=
  hinv.of_same (fun other => by simp [entryFor, hphase])
    (fun other => by simp [registeredFor, hphase]) (fun _ => Set.Subset.refl _) rfl
    (fun other => by simp [Owed, hphase]) rfl rfl rfl (fun other h => by cases h)
    (fun _ => hinv.early (by rw [hphase]; trivial)) (fun h => by cases h)
    (by
      have hstored := hinv.stored
      rw [NewStored, hphase] at hstored
      exact hstored)

/-- The kernel takes the new disposition. -/
theorem SigInv.setWith {nr : ℕ} {saved : SigEnt} {new : Handler}
    {result : Option Disposition} (hinv : SigInv state)
    (hphase : state.phase = .got nr saved new result)
    (hnext : next = { state with
      phase := .finish nr saved new result
      kernel := Function.update state.kernel nr new.disposition })
    (harmed : new.disposition = .sigSigf ∨ nr ∈ state.pending → Armed next nr)
    (hfree : new.disposition = .sigSigf → nr ∉ state.pending) : SigInv next := by
  have howed : ∀ other, Owed state other ↔ other ∈ state.pending :=
    owed_iff_pending fun other h => by rw [hphase] at h; cases h
  have hsame : ∀ other, Owed next other ↔ Owed state other := fun other => by
    rw [howed, hnext, owed_iff_pending (fun other h => by cases h)]
  have hbefore : state.phase.BeforeLoop := by rw [hphase]; trivial
  have hset : next.kernel nr = new.disposition := by
    rw [hnext]
    exact Function.update_self ..
  have hkept : ∀ other, other ≠ nr → next.kernel other = state.kernel other :=
    fun other hnr => by
      rw [hnext]
      exact Function.update_of_ne hnr ..
  refine ⟨fun other hother => ?_, fun other hother => ?_, ?_, ?_, ?_, ?_, fun other => ?_⟩
  · rw [hsame] at hother
    by_cases hnr : other = nr
    · subst hnr
      rw [hset, howed] at hother
      exact harmed hother
    · rw [hkept other hnr] at hother
      refine (hinv.armed other hother).congr ?_ ?_ (by rw [hnext])
      · cases result <;> simp [entryFor, hphase, hnext, hnr]
      · cases result <;> simp [registeredFor, hphase, hnext, hnr]
  · rw [hsame]
    by_cases hnr : other = nr
    · subst hnr
      rw [hset] at hother
      rw [howed]
      refine ⟨hfree hother, Bool.eq_false_iff.mpr fun hsince => ?_⟩
      rw [hnext] at hsince
      exact hfree hother (hinv.early hbefore other hsince)
    · rw [hkept other hnr] at hother
      rw [hnext]
      exact hinv.free other hother
  · rw [hnext]
    exact fun other h => by cases h
  · rw [hnext]
    exact fun _ => hinv.early hbefore
  · rw [hnext]
    exact fun h => by cases h
  · have hstored := hinv.stored
    rw [NewStored, hphase] at hstored
    rw [hnext]
    exact hstored
  · rw [hsame, hnext]
    exact hinv.counts other

/-- The old disposition could be read: the call will succeed. -/
theorem SigInv.setRead {nr : ℕ} {saved : SigEnt} {new : Handler} {old : Disposition}
    (hinv : SigInv state) (hphase : state.phase = .got nr saved new (some old))
    (hpending : nr ∉ state.pending) :
    SigInv
      { state with
        phase := .finish nr saved new (some old)
        kernel := Function.update state.kernel nr new.disposition } := by
  refine hinv.setWith hphase rfl (fun hnr => ?_) (fun _ => hpending)
  have hfunction := hnr.resolve_right hpending
  have hstored := hinv.stored
  rw [NewStored, hphase] at hstored
  obtain ⟨hentry, haccepted⟩ := hstored
  cases new with
  | function cs ip =>
      exact ⟨cs, ip, hentry, by simp [registeredFor, Handler.address],
        haccepted (cs, ip) rfl⟩
  | code ignore => cases ignore <;> cases hfunction

/-- It could not: the entry of before will be restored. -/
theorem SigInv.setUnread {nr : ℕ} {saved : SigEnt} {new : Handler}
    (hinv : SigInv state) (hphase : state.phase = .got nr saved new none)
    (hwaited : new.disposition = .sigSigf →
      nr ∉ state.pending ∧ state.kernel nr = .sigSigf) :
    SigInv
      { state with
        phase := .finish nr saved new none
        kernel := Function.update state.kernel nr new.disposition } := by
  refine hinv.setWith hphase rfl (fun hnr => ?_) (fun hnr => (hwaited hnr).1)
  refine (hinv.armed nr (hnr.imp (fun h => (hwaited h).2) Or.inl)).congr ?_ ?_
    (Set.Subset.refl _)
  · simp [entryFor, hphase]
  · simp [registeredFor, hphase]

theorem SigInv.finishSignal {nr errno : ℕ} {saved : SigEnt} {new : Handler}
    {result : Option Disposition} (hinv : SigInv state)
    (hphase : state.phase = .finish nr saved new result) :
    SigInv (state.finishSignal ltext nr saved new result errno) := by
  cases result with
  | none =>
      refine hinv.of_same (fun other => ?_)
        (fun other => by
          simp [registeredFor, hphase, SigState.finishSignal, SigState.failSignal])
        (fun _ => Set.Subset.refl _) rfl
        (fun other => by simp [Owed, hphase, SigState.finishSignal, SigState.failSignal])
        rfl rfl rfl (fun other h => by cases h) (fun h => h.elim) (fun h => by cases h)
        trivial
      simp only [entryFor, hphase, SigState.finishSignal, SigState.failSignal]
      by_cases hother : other = nr
      · rw [if_pos hother, hother, Function.update_self]
      · rw [if_neg hother, Function.update_of_ne hother]
  | some old =>
      refine hinv.of_same (fun other => by simp [entryFor, hphase, SigState.finishSignal])
        (fun other => ?_) (fun _ => Set.Subset.refl _) rfl
        (fun other => by simp [Owed, hphase, SigState.finishSignal]) rfl rfl rfl
        (fun other h => by cases h) (fun h => h.elim) (fun h => by cases h) trivial
      simp only [registeredFor, hphase, SigState.finishSignal]
      by_cases hother : other = nr
      · rw [if_pos hother, hother, Function.update_self]
      · rw [if_neg hother, Function.update_of_ne hother]

/-! ## The end of a system call -/

/-- The next signal is not pending. -/
theorem SigInv.loopOn {signo : ℕ} (hinv : SigInv state)
    (hphase : state.phase = .loop signo) :
    SigInv { state with phase := .loop (signo + 1) } := by
  have hquiet : state.phase.Quiet := by rw [hphase]; trivial
  exact hinv.quietStep hquiet trivial rfl rfl rfl (fun nr => by simp [Owed, hphase])
    (fun nr h => by cases h) (fun h => h.elim) (fun h => by cases h)

/-- It is. -/
theorem SigInv.loopTake {signo : ℕ} (hinv : SigInv state)
    (hphase : state.phase = .loop signo) (hpending : signo ∈ state.pending) :
    SigInv
      { state with
        phase := .transfer signo
        pending := state.pending.erase signo } := by
  have hquiet : state.phase.Quiet := by rw [hphase]; trivial
  refine hinv.quietStep hquiet trivial rfl rfl rfl (fun nr => ?_) (fun nr h => ?_)
    (fun h => h.elim) (fun h => by cases h)
  · simp only [Owed, hphase, reduceCtorEq, or_false, Finset.mem_erase, Phase.transfer.injEq]
    constructor
    · rintro (⟨-, hin⟩ | rfl)
      · exact hin
      · exact hpending
    · intro hin
      by_cases hnr : nr = signo
      · exact .inr hnr.symm
      · exact .inl ⟨hnr, hin⟩
  · cases h
    exact Finset.notMem_erase _ _

theorem SigInv.loopEnd {signo : ℕ} (hinv : SigInv state)
    (hphase : state.phase = .loop signo) : SigInv { state with phase := .leaving } := by
  have hquiet : state.phase.Quiet := by rw [hphase]; trivial
  exact hinv.quietStep hquiet trivial rfl rfl rfl (fun nr => by simp [Owed, hphase])
    (fun nr h => by cases h) (fun h => h.elim) (fun h => by cases h)

/-- The signal is passed on: it is no longer owed, and the kernel does not wait for it. -/
theorem SigInv.transfer {signo : ℕ} (hinv : SigInv state)
    (hphase : state.phase = .transfer signo) :
    SigInv { state.doSigPending signo with phase := .loop (signo + 1) } := by
  have hin : Owed state signo := .inr hphase
  have hkernel : state.kernel signo ≠ .sigSigf := fun hkernel =>
    (hinv.free signo hkernel).1 hin
  have howed : ∀ other, Owed
      { state.doSigPending signo with phase := .loop (signo + 1) } other ↔
        other ∈ state.pending := owed_iff_pending fun other h => by cases h
  refine ⟨fun other hother => ?_, fun other hother => ?_, fun other h => (by cases h),
    fun h => h.elim, fun h => (by cases h), trivial, fun other => ?_⟩
  · rw [howed] at hother
    have hnr : other ≠ signo := fun heq => by
      subst heq
      exact hother.elim hkernel (hinv.taken other hphase)
    refine (hinv.armed other (hother.imp_right .inl)).congr ?_ ?_ (Set.Subset.refl _)
    · simp only [entryFor, SigState.doSigPending, hphase]
      exact Function.update_of_ne hnr ..
    · simp only [registeredFor, SigState.doSigPending, hphase]
      exact Function.update_of_ne hnr ..
  · obtain ⟨hnot, hsince⟩ := hinv.free other hother
    rw [howed]
    exact ⟨fun hpending => hnot (.inl hpending), hsince⟩
  · rw [howed]
    have hcount := hinv.counts other
    by_cases hnr : other = signo
    · subst hnr
      refine ⟨fun hpending => absurd hpending (hinv.taken other hphase), fun _ => ?_⟩
      simp only [SigState.doSigPending, Function.update_self]
      exact hcount.1 hin
    · simp only [SigState.doSigPending, Function.update_of_ne hnr]
      have hold : Owed state other ↔ other ∈ state.pending := or_iff_left fun h => by
        rw [hphase] at h
        cases h
        exact hnr rfl
      rw [hold] at hcount
      exact hcount

theorem SigInv.leave (hinv : SigInv state) (hphase : state.phase = .leaving) :
    SigInv
      { state with
        phase := .program
        ledger := { state.ledger with sinceReturn := fun _ => false } } := by
  have howed : ∀ other, Owed
      { state with
        phase := .program
        ledger := { state.ledger with sinceReturn := fun _ => false } } other ↔
        Owed state other := fun other => by
    simp [Owed, hphase]
  refine ⟨fun other hother => ?_, fun other hother => ?_, fun other h => (by cases h),
    fun h => h.elim, fun _ _ => rfl, trivial, fun other => ?_⟩
  · rw [howed] at hother
    exact (hinv.armed other hother).congr (by simp [entryFor, hphase])
      (by simp [registeredFor, hphase]) (Set.Subset.refl _)
  · rw [howed]
    exact ⟨(hinv.free other hother).1, rfl⟩
  · rw [howed]
    exact hinv.counts other

/-! ## Every run -/

theorem SigInv.advance {granted : Bool} {errno : ℕ} (hinv : SigInv state)
    (hmeets : SetMeets state (.advance granted errno))
    (hnext : state.advance settings ltext granted errno = some next) : SigInv next := by
  cases hphase : state.phase with
  | program => simp [SigState.advance, hphase] at hnext
  | entered call =>
      cases call with
      | signal sc cs =>
          simp only [SigState.advance, hphase, Option.some.injEq] at hnext
          exact hnext ▸ hinv.beginSignal hphase _
      | other segments =>
          simp only [SigState.advance, hphase, Option.some.injEq] at hnext
          exact hnext ▸ hinv.otherCall hphase
  | written nr saved new =>
      simp only [SigState.advance, hphase, Option.some.injEq] at hnext
      exact hnext ▸ hinv.get hphase _
  | got nr saved new result =>
      simp only [SigState.advance, hphase, Option.some.injEq] at hnext
      cases granted with
      | false => exact hnext ▸ hinv.setRefused hphase
      | true =>
          rw [SetMeets, hphase] at hmeets
          rw [if_pos rfl] at hnext
          cases result with
          | some old => exact hnext ▸ hinv.setRead hphase hmeets
          | none =>
              refine hnext ▸ hinv.setUnread hphase fun hfunction => ?_
              cases new with
              | function cs ip => exact hmeets
              | code ignore => cases ignore <;> cases hfunction
  | finish nr saved new result =>
      simp only [SigState.advance, hphase, Option.some.injEq] at hnext
      exact hnext ▸ hinv.finishSignal hphase
  | loop signo =>
      simp only [SigState.advance, hphase, Option.some.injEq] at hnext
      subst hnext
      split
      · split
        · rename_i hpending
          exact hinv.loopTake hphase hpending
        · exact hinv.loopOn hphase
      · exact hinv.loopEnd hphase
  | transfer signo =>
      simp only [SigState.advance, hphase, Option.some.injEq] at hnext
      exact hnext ▸ hinv.transfer hphase
  | leaving =>
      simp only [SigState.advance, hphase, Option.some.injEq] at hnext
      exact hnext ▸ hinv.leave hphase

theorem SigInv.step {action : SigAction} (hinv : SigInv state)
    (hmeets : SetMeets state action)
    (hstep : sigStep settings ltext state action = some next) : SigInv next := by
  cases action with
  | arrive nr =>
      simp only [sigStep] at hstep
      split at hstep
      · cases hstep
        exact hinv.arrive nr
      · cases hstep
  | enter call context =>
      simp only [sigStep] at hstep
      split at hstep
      · rename_i hphase
        cases hstep
        exact hinv.enter hphase call context
      · cases hstep
  | advance granted errno => exact hinv.advance hmeets hstep

theorem initSigs_kernel_ne (segments : Table) (context : Context) (ignored : ℕ → Bool)
    (nr : ℕ) : (initSigs segments context ignored).kernel nr ≠ .sigSigf := by
  cases hignored : ignored nr <;> simp [initSigs, hignored]

theorem sigInv_initSigs (segments : Table) (context : Context) (ignored : ℕ → Bool) :
    SigInv (initSigs segments context ignored) where
  armed nr hnr := by
    obtain hkernel | hpending | hphase := hnr
    · exact absurd hkernel (initSigs_kernel_ne segments context ignored nr)
    · exact absurd hpending (Finset.notMem_empty nr)
    · cases hphase
  free nr hnr := absurd hnr (initSigs_kernel_ne segments context ignored nr)
  taken nr h := by cases h
  early h := h.elim
  returned _ _ := rfl
  stored := trivial
  counts nr := by simp [Owed, initSigs]

/-- What the invariant is for: a transfer goes to the registered address. -/
theorem SigInv.transferRight (hinv : SigInv state) (action : SigAction) :
    TransferRight state action := by
  cases action with
  | arrive nr =>
      intro hphase hkernel
      have hquiet : state.phase.Quiet := by rw [hphase]; trivial
      exact (armed_iff_of_quiet hquiet nr).mp (hinv.armed nr (.inl hkernel))
  | enter call context => trivial
  | advance granted errno =>
      intro nr hphase
      have hquiet : state.phase.Quiet := by rw [hphase]; trivial
      exact (armed_iff_of_quiet hquiet nr).mp (hinv.armed nr (.inr (.inr hphase)))

end Steps

/-- A program with its text in segment 7. -/
def handlerTable : Table where
  ldt i :=
    if i = 7 then ⟨0x800000, 0xffff, 0x1a, 3, 0⟩
    else if i = 8 then ⟨0x400000, 0xffff, 0x12, 3, 0⟩
    else ⟨0, 0, 0, 0, 0⟩
  baseDesc := 8
  lastDesc := 8

/-- `signal(2, func)`. -/
def signalInt (func : BitVec 32) : SigAction :=
  .enter (.signal ⟨0, 2, func, 0, 0, 0x47, fun _ => 0⟩ 0x3f) ⟨0, 0x3f, 0⟩

def handlerStart : SigState := initSigs handlerTable ⟨0, 0x3f, 0⟩ fun _ => false

/-- A handler is registered; the signal arrives as the next call, which asks for
`SIG_DFL`, begins; and that call has come to the pending signals. -/
def removedWhilePending : List SigAction :=
  signalInt 0x100 :: List.replicate 70 (.advance true 0) ++
    [signalInt 0, .arrive 2] ++ List.replicate 6 (.advance true 0)

theorem removed_phase :
    (run (sigStep smallSettings false) handlerStart removedWhilePending).map
      SigState.phase = some (.transfer 2) := by
  rfl

theorem removed_entry :
    (run (sigStep smallSettings false) handlerStart removedWhilePending).map
      (fun state => state.sigTable 2) = some SigEnt.zero := by
  decide +kernel

end IbcsUs.X286
