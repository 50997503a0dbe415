import IbcsUs.Syscalls.Seek

/-!
# The highest open descriptor

A SCO program asks for its highest open descriptor by `fcntl(-1, 8, ..)`.  The
emulator looks through the numbers from 0 on and means to ask the kernel about each
with `F_GETFD`, but the number itself is missing from the call: its arguments stand
one place too far to the front, and the kernel duplicates descriptor 1.
-/

namespace IbcsUs.Files

open IbcsUs.Syscalls

def ebadf : ℕ := 9
def emfile : ℕ := 24

def fDupfd : BitVec 32 := 0
def fGetfd : BitVec 32 := 1

/-! ## The kernel's side -/

/-- The lowest free descriptor from `start` on. -/
def lowestFree (fds : Finset ℕ) (limit start : ℕ) : Option ℕ :=
  (List.range' start (limit - start)).find? (· ∉ fds)

/-- The kernel's `fcntl`: the answer and the open descriptors.  `limit` is
`RLIMIT_NOFILE`, and `other` answers the commands that open and close nothing. -/
def kernelFcntl (other : Registers → ℤ) (limit : ℕ) (fds : Finset ℕ)
    (registers : Registers) : ℤ × Finset ℕ :=
  if registers.ebx.toNat ∉ fds then (-ebadf, fds)
  else if registers.ecx ≠ fDupfd then (other registers, fds)
  else if limit ≤ registers.edx.toNat then (-einval, fds)
  else
    match lowestFree fds limit registers.edx.toNat with
    | none => (-emfile, fds)
    | some fd => (fd, insert fd fds)

/-! ## The loop -/

/-- The variables of the loop, and the open descriptors. -/
structure FdScan where
  i : ℕ
  fd : ℤ
  fds : Finset ℕ
  deriving DecidableEq

section Loop

variable (other : Registers → ℤ) (limit : ℕ) (above : ℕ → ℕ → BitVec 32)

/-- `SYS(fcntl, F_GETFD, 0)` in the turn `i`, when the stack holds `above i` behind
the arguments. -/
def probe (i : ℕ) (fds : Finset ℕ) : ℤ × Finset ℕ :=
  kernelFcntl other limit fds
    (vsyscallRegisters (above i) [.int fGetfd, .int 0])

/-- The body of the loop. -/
def scanBody (scan : FdScan) : FdScan :=
  let probed := probe other limit above scan.i scan.fds
  ⟨scan.i + 1, if 0 ≤ probed.1 then scan.i else scan.fd, probed.2⟩

/-- The loop of `sco_fcntl`, for at most so many turns. -/
def scanFds : ℕ → FdScan → Option FdScan
  | 0, _ => none
  | turns + 1, scan =>
      if (scan.i : ℤ) < scan.fd + 100 then
        scanFds turns (scanBody other limit above scan)
      else some scan

/-- `sco_fcntl(-1, 8, _)`: what is returned and the descriptors that are open
then. -/
def scoHighestFd (turns : ℕ) (fds : Finset ℕ) : Option (ℤ × Finset ℕ) :=
  (scanFds other limit above turns ⟨0, -1, fds⟩).map fun scan =>
    (scan.fd, scan.fds)

end Loop

/-- The highest open descriptor; -1 if none is open. -/
structure IsHighest (fds : Finset ℕ) (highest : ℤ) : Prop where
  bound : ∀ fd ∈ fds, (fd : ℤ) ≤ highest
  reached : highest = -1 ∨ ∃ fd ∈ fds, (fd : ℤ) = highest

/-- The call returns, with the highest open descriptor, and opens and closes
nothing. -/
def ReportsHighest (other : Registers → ℤ) (limit : ℕ)
    (above : ℕ → ℕ → BitVec 32) (fds : Finset ℕ) : Prop :=
  ∃ turns highest,
    scoHighestFd other limit above turns fds = some (highest, fds) ∧
      IsHighest fds highest

/-! ## One turn -/

theorem lowestFree_eq_some {fds : Finset ℕ} {limit start fd : ℕ}
    (hfree : lowestFree fds limit start = some fd) : fd < limit ∧ fd ∉ fds := by
  have hnot := List.find?_some hfree
  have hmem := List.mem_of_find?_eq_some hfree
  rw [List.mem_range'_1] at hmem
  rw [decide_eq_true_eq] at hnot
  exact ⟨by omega, hnot⟩

section Turn

variable (other : Registers → ℤ) (limit : ℕ) (above : ℕ → ℕ → BitVec 32)
  {scan : FdScan}

/-- What a probe does: nothing, or it duplicates descriptor 1. -/
theorem probe_cases (i : ℕ) (fds : Finset ℕ) :
    ((probe other limit above i fds).1 < 0 ∧
      (probe other limit above i fds).2 = fds) ∨
    1 ∈ fds ∧ ∃ fd, fd < limit ∧ fd ∉ fds ∧
      probe other limit above i fds = ((fd : ℤ), insert fd fds) := by
  have hregisters : vsyscallRegisters (above i) [.int fGetfd, .int 0] =
      ⟨1, 0, above i 0, above i 1, above i 2, above i 3⟩ := rfl
  rw [probe, hregisters]
  by_cases hone : 1 ∈ fds
  · have hstdout : ¬ (1 : BitVec 32).toNat ∉ fds := fun hnot => hnot hone
    rw [kernelFcntl, if_neg hstdout, if_neg (fun hdup => hdup rfl)]
    by_cases hlimit : limit ≤ (above i 0).toNat
    · rw [if_pos hlimit]
      exact .inl ⟨by simp [einval], rfl⟩
    · rw [if_neg hlimit]
      cases hfree : lowestFree fds limit (above i 0).toNat with
      | none => exact .inl ⟨by simp [emfile], rfl⟩
      | some fd =>
        obtain ⟨hlt, hnot⟩ := lowestFree_eq_some hfree
        exact .inr ⟨hone, fd, hlt, hnot, rfl⟩
  · have hstdout : (1 : BitVec 32).toNat ∉ fds := hone
    rw [kernelFcntl, if_pos hstdout]
    exact .inl ⟨by simp [ebadf], rfl⟩

/-- What a turn does: it passes on, or it has opened a descriptor. -/
theorem scanBody_cases (scan : FdScan) :
    scanBody other limit above scan = { scan with i := scan.i + 1 } ∨
    1 ∈ scan.fds ∧ ∃ fd, fd < limit ∧ fd ∉ scan.fds ∧
      scanBody other limit above scan =
        ⟨scan.i + 1, scan.i, insert fd scan.fds⟩ := by
  obtain ⟨hneg, hsame⟩ | ⟨hone, fd, hlt, hnot, hprobe⟩ :=
    probe_cases other limit above scan.i scan.fds
  · left
    simp only [scanBody, if_neg (not_le.mpr hneg), hsame]
  · right
    refine ⟨hone, fd, hlt, hnot, ?_⟩
    simp only [scanBody, hprobe, if_pos (Int.natCast_nonneg fd)]

/-- Nothing is closed. -/
theorem subset_scanBody (scan : FdScan) :
    scan.fds ⊆ (scanBody other limit above scan).fds := by
  obtain hsame | ⟨-, fd, -, -, hbody⟩ := scanBody_cases other limit above scan
  · rw [hsame]
  · rw [hbody]
    exact Finset.subset_insert fd scan.fds

/-! ## The whole loop -/

theorem subset_scanFds {turns : ℕ} {scan last : FdScan}
    (hscan : scanFds other limit above turns scan = some last) :
    scan.fds ⊆ last.fds := by
  induction turns generalizing scan with
  | zero => cases hscan
  | succ turns ih =>
    rw [scanFds] at hscan
    split at hscan
    · exact (subset_scanBody other limit above scan).trans (ih hscan)
    · cases hscan
      exact subset_rfl

/-- A loop that has opened nothing returns what it began with. -/
theorem scanFds_fd {turns : ℕ} {scan last : FdScan}
    (hscan : scanFds other limit above turns scan = some last)
    (hsame : last.fds = scan.fds) : last.fd = scan.fd := by
  induction turns generalizing scan with
  | zero => cases hscan
  | succ turns ih =>
    rw [scanFds] at hscan
    split at hscan
    · obtain hbody | ⟨-, fd, -, hnot, hbody⟩ :=
        scanBody_cases other limit above scan
      · rw [hbody] at hscan
        have hlast := ih hscan hsame
        exact hlast
      · have hsubset := subset_scanFds other limit above hscan
        rw [hbody, hsame] at hsubset
        exact absurd (hsubset (Finset.mem_insert_self fd scan.fds)) hnot
    · cases hscan
      rfl

/-- Where descriptor 1 is closed the loop goes on to its bound and opens
nothing. -/
theorem scanFds_of_notMem (hone : 1 ∉ scan.fds) {turns : ℕ}
    (hturns : (scan.fd + 100 - scan.i).toNat < turns) :
    ∃ i, scanFds other limit above turns scan =
      some { scan with i := i } := by
  induction turns generalizing scan with
  | zero => omega
  | succ turns ih =>
    rw [scanFds]
    by_cases hmore : (scan.i : ℤ) < scan.fd + 100
    · rw [if_pos hmore]
      obtain hbody | ⟨hmem, -⟩ := scanBody_cases other limit above scan
      · rw [hbody]
        refine ih hone ?_
        simp only [Nat.cast_add, Nat.cast_one]
        omega
      · exact absurd hmem hone
    · rw [if_neg hmore]
      exact ⟨scan.i, rfl⟩

/-- The turns that are left at most: a hundred for each descriptor that can still be
opened, and those up to the bound. -/
def turnsLeft (scan : FdScan) : ℕ :=
  100 * (limit - (scan.fds.filter (· < limit)).card) +
    (scan.fd + 100 - scan.i).toNat

theorem turnsLeft_scanBody (hmore : (scan.i : ℤ) < scan.fd + 100) :
    turnsLeft limit (scanBody other limit above scan) <
      turnsLeft limit scan := by
  obtain hbody | ⟨-, fd, hlt, hnot, hbody⟩ :=
    scanBody_cases other limit above scan
  · rw [hbody]
    simp only [turnsLeft, Nat.cast_add, Nat.cast_one]
    omega
  · have hopened : ((insert fd scan.fds).filter (· < limit)).card =
        (scan.fds.filter (· < limit)).card + 1 := by
      rw [Finset.filter_insert, if_pos hlt]
      exact Finset.card_insert_of_notMem fun hmem =>
        hnot (Finset.mem_of_mem_filter fd hmem)
    have hroom : ((insert fd scan.fds).filter (· < limit)).card ≤ limit := by
      have hsubset : (insert fd scan.fds).filter (· < limit) ⊆
          Finset.range limit := fun other hother =>
        Finset.mem_range.mpr (Finset.mem_filter.mp hother).2
      simpa using Finset.card_le_card hsubset
    rw [hbody]
    simp only [turnsLeft, hopened, Nat.cast_add, Nat.cast_one]
    omega

/-- The call returns. -/
theorem scanFds_returns {turns : ℕ} {scan : FdScan}
    (hturns : turnsLeft limit scan < turns) :
    ∃ last, scanFds other limit above turns scan = some last := by
  induction turns generalizing scan with
  | zero => omega
  | succ turns ih =>
    rw [scanFds]
    by_cases hmore : (scan.i : ℤ) < scan.fd + 100
    · rw [if_pos hmore]
      exact ih (by
        have hless := turnsLeft_scanBody other limit above hmore
        omega)
    · rw [if_neg hmore]
      exact ⟨scan, rfl⟩

/-- The call reports the highest open descriptor, and opens nothing, exactly when no
descriptor is open. -/
theorem scoHighestFd_iff (fds : Finset ℕ) :
    ReportsHighest other limit above fds ↔ fds = ∅ := by
  constructor
  · rintro ⟨turns, highest, hreturn, hhighest⟩
    rw [scoHighestFd, Option.map_eq_some_iff] at hreturn
    obtain ⟨last, hscan, hlast⟩ := hreturn
    rw [Prod.mk.injEq] at hlast
    have hfd := scanFds_fd other limit above hscan hlast.2
    rw [hlast.1] at hfd
    apply Finset.eq_empty_of_forall_notMem
    intro fd hmem
    have hbound := hhighest.bound fd hmem
    rw [hfd] at hbound
    change (fd : ℤ) ≤ -1 at hbound
    omega
  · rintro rfl
    obtain ⟨i, hscan⟩ := scanFds_of_notMem other limit above
      (show 1 ∉ (⟨0, -1, ∅⟩ : FdScan).fds from Finset.notMem_empty 1)
      (show ((-1 : ℤ) + 100 - (0 : ℕ)).toNat < 100 by decide)
    refine ⟨100, -1, ?_, fun fd hmem => ?_, .inl rfl⟩
    · rw [scoHighestFd, hscan]
      rfl
    · cases hmem

end Turn

/-- A program with the standard descriptors open, room for one more, and a zero
behind the arguments. -/
theorem standard_descriptors_are_duplicated :
    ¬ ∀ (other : Registers → ℤ) (limit : ℕ) (above : ℕ → ℕ → BitVec 32)
      (fds : Finset ℕ), ReportsHighest other limit above fds := by
  intro hall
  obtain ⟨turns, highest, hreturn, hhighest⟩ :=
    hall (fun _ => 0) 4 (fun _ _ => 0) {0, 1, 2}
  rw [scoHighestFd, Option.map_eq_some_iff] at hreturn
  obtain ⟨last, hscan, hlast⟩ := hreturn
  rw [Prod.mk.injEq] at hlast
  have hfd := scanFds_fd _ _ _ hscan hlast.2
  have hbound := hhighest.bound 2 (by decide)
  rw [← hlast.1, hfd] at hbound
  exact absurd hbound (by decide)

end IbcsUs.Files
