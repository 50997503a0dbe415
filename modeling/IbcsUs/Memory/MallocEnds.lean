import Mathlib.Tactic.NormNum
import IbcsUs.Memory.Heap

/-!
# Termination of the allocator

The scan stops when it is back at the roving block.  If that block is free and
the block before it is free too, the scan merges it away on its way round; it
then has nowhere to stop, and ends only at a free run that is large enough.
-/

namespace IbcsUs.Memory

open IbcsUs.Core IbcsUs.Runs

/-- The call ends, by returning or by ending the process. -/
def MallocEnds (state : MallocState) (wanted : ℕ) : Prop :=
  ∃ fuel, ibcsMalloc fuel state wanted true ≠ .running

/-- It is the first call, or the roving block is busy, or the block before it
is, or some run of free blocks is large enough. -/
def ScanStops (state : MallocState) (wanted : ℕ) : Prop :=
  state.mallocP = 0 ∨ mallocIsBusy state.mem state.mallocP ∨
    AfterBusy state.mem state.Block state.mallocP ∨
    ∃ r e, FreeRun state.mem state.Block r e ∧
      mallocWanted wanted ≤ headerDiff e r

theorem mallocGrow_ne_running (state : MallocState) (p wanted : ℕ)
    (grants : Bool) : mallocGrow state p wanted grants ≠ .running := by
  simp only [mallocGrow]
  split_ifs <;> simp

/-- Apart from its scan, a call always ends. -/
theorem ibcsMalloc_running_iff {state : MallocState} {fuel wanted : ℕ}
    {grants : Bool} (hused : state.mallocP ≠ 0) :
    ibcsMalloc fuel state wanted grants = .running ↔
      mallocScan state.mallocP (mallocWanted wanted) fuel state.mem
        state.mallocP = none := by
  simp only [ibcsMalloc, if_neg hused]
  split
  · next hscan => simp [hscan]
  · next hscan => simp [hscan]
  · next hscan => simp [hscan, mallocGrow_ne_running]

theorem mallocEnds_iff_scan {state : MallocState} {wanted : ℕ}
    (hused : state.mallocP ≠ 0) :
    MallocEnds state wanted ↔
      ∃ fuel, (mallocScan state.mallocP (mallocWanted wanted) fuel state.mem
        state.mallocP).isSome := by
  simp only [MallocEnds, ne_eq, ibcsMalloc_running_iff hused,
    Option.isSome_iff_ne_none]

/-- On a heap in use the scan ends exactly when it has a place to stop. -/
theorem HeapInv.mallocEnds_iff {state : HeapState} {blocks : List ℕ}
    (hinv : HeapInv state blocks) (wanted : ℕ) :
    MallocEnds state.malloc wanted ↔ ScanStops state.malloc wanted := by
  rw [mallocEnds_iff_scan hinv.mallocP_ne, ScanStops, hinv.block_eq]
  have hlast := hinv.last_lt
  have hword : ∀ q ∈ blocks, q < 2 ^ 32 := by
    intro q hq
    have hle := hinv.chained.le_last hq
    omega
  constructor
  · rintro ⟨fuel, hsome⟩
    by_contra hstops
    simp only [not_or, not_exists, not_and] at hstops
    obtain ⟨-, hfree, hafter, hnone⟩ := hstops
    rw [hinv.chained.scan_forever hinv.roving hnone (fun _ => hfree) hafter]
      at hsome
    simp at hsome
  · rintro (hzero | hbusy | hafter | ⟨r, e, hrun, hlarge⟩)
    · exact absurd hzero hinv.mallocP_ne
    · obtain ⟨enough, henough⟩ := hinv.chained.scan_returns (by omega)
        hinv.roving hinv.roving (.inl hbusy)
      exact ⟨enough, henough enough le_rfl⟩
    · obtain ⟨enough, henough⟩ := hinv.chained.scan_returns (by omega)
        hinv.roving hinv.roving (.inr hafter)
      exact ⟨enough, henough enough le_rfl⟩
    -- the largest run with the same end is large enough as well
    · obtain ⟨s, hle, hrun', hafter⟩ := hrun.exists_afterBusy hinv.chained
      have hlarge' := wanted_le_headerDiff_mono hle hrun.lt
        (hword e hrun.end_mem) (mallocWanted_le wanted)
        (hinv.chained.aligned s hrun'.start_mem)
        (hinv.chained.aligned r hrun.start_mem)
        (hinv.chained.aligned e hrun.end_mem) hlarge
      obtain ⟨enough, henough⟩ := hinv.chained.scan_finds (by omega)
        (hword _ hinv.roving) hinv.roving hrun' hafter hlarge' (by
          rw [distance_self (hword _ hinv.roving)]
          exact Nat.zero_le _)
      exact ⟨enough, henough enough le_rfl⟩

theorem FreshHeap.mallocEnds {state : MallocState} (hfresh : FreshHeap state)
    (wanted : ℕ) : MallocEnds state wanted := by
  refine ⟨0, ?_⟩
  simp only [ibcsMalloc, if_pos hfresh.unused]
  exact mallocGrow_ne_running _ _ _ _

/-- In every state reached by requests that `ibcs_malloc` gets right, frees of
blocks held and writes into them, the next call ends exactly when its scan has a
place to stop. -/
theorem ibcsMalloc_ends_iff {malloc : MallocState} (hfresh : FreshHeap malloc)
    {fuel : ℕ} {actions : List HeapAction} {final : HeapState}
    (hmeet : StepsMeet (heapStep fuel) HeapActionMeets (freshHeap malloc) actions)
    (hrun : run (heapStep fuel) (freshHeap malloc) actions = some final)
    (wanted : ℕ) :
    MallocEnds final.malloc wanted ↔ ScanStops final.malloc wanted := by
  have hready : HeapReady final := invariant_run_of_stepsMeet
    (fun _ _ _ hready hmeets hstep => heapReady_step hready hmeets hstep)
    (heapReady_fresh hfresh) hmeet hrun
  rcases hready with ⟨hfresh', -⟩ | ⟨blocks, hinv⟩
  · exact ⟨fun _ => .inl hfresh'.unused, fun _ => hfresh'.mallocEnds wanted⟩
  · exact hinv.mallocEnds_iff wanted

theorem ibcsMalloc_ends_second :
    ∃ final, run (heapStep 0) (freshHeap bareHeap) [.malloc 4] = some final ∧
      MallocEnds final.malloc 100 := by
  have hmeet : StepsMeet (heapStep 0) HeapActionMeets (freshHeap bareHeap)
      [.malloc 4] := by
    refine ⟨?_, fun _ _ => trivial⟩
    change MallocMeets bareHeap 4
    rw [MallocMeets, if_pos bareHeap_fresh.unused]
    decide
  have hroving : (run (heapStep 0) (freshHeap bareHeap) [.malloc 4]).map
      (fun state => mallocIsBusy state.malloc.mem state.malloc.mallocP) =
      some true := by
    decide +kernel
  obtain ⟨final, hrun, hbusy⟩ := Option.map_eq_some_iff.mp hroving
  exact ⟨final, hrun, (ibcsMalloc_ends_iff bareHeap_fresh hmeet hrun 100).mpr
    (.inr (.inl hbusy))⟩

/-- Two blocks are allocated and freed in this order.  The roving pointer is at
the second one, which the scan for a larger block merges into the first. -/
theorem ibcsMalloc_scans_forever :
    ∃ final, run (heapStep 10) (freshHeap bareHeap)
        [.malloc 1, .malloc 1, .free 0x8050004, .free 0x805000c] = some final ∧
      ¬ MallocEnds final.malloc 100 := by
  have hheaders : (run (heapStep 10) (freshHeap bareHeap)
      [.malloc 1, .malloc 1, .free 0x8050004, .free 0x805000c]).map
      (fun state => (state.malloc.mallocP, state.malloc.mem 0x8050000,
        state.malloc.mem 0x8050008, state.malloc.mem 0x8050010)) =
      some (0x8050008, 0x8050008, 0x8050010, 0x8050001) := by
    decide +kernel
  obtain ⟨final, hrun, hfinal⟩ := Option.map_eq_some_iff.mp hheaders
  simp only [Prod.mk.injEq] at hfinal
  obtain ⟨hroving, hfirst, hsecond, hlast⟩ := hfinal
  have hblocks : Blocks final.malloc.mem 0x8050000 0x8050010
      [0x8050000, 0x8050008, 0x8050010] := by
    refine
      { chain := ?_
        head := rfl
        getLast := rfl
        closes := hlast
        aligned := by simp }
    simp [Chain, nextOf, hfirst, hsecond, mallocClrBusy]
  have hbusy : ∀ q ∈ [0x8050000, 0x8050008, 0x8050010],
      mallocIsBusy final.malloc.mem q → q = 0x8050010 := by
    simp [mallocIsBusy, hfirst, hsecond]
  refine ⟨final, hrun, ?_⟩
  rw [mallocEnds_iff_scan (by simp [hroving]), hroving]
  rintro ⟨fuel, hsome⟩
  rw [hblocks.scan_forever (by simp) ?_ ?_ ?_] at hsome
  · simp at hsome
  -- the only run ends at the end marker and has sixteen bytes at most
  · intro r e hrun'
    obtain rfl := hbusy e hrun'.end_mem hrun'.end_busy
    have hlow := hblocks.first_le hrun'.start_mem
    have haligned := hblocks.aligned r hrun'.start_mem
    rw [wanted_le_headerDiff_iff hrun'.lt (by norm_num) (mallocWanted_le 100)
      haligned (by norm_num)]
    have hwanted : mallocWanted 100 = 26 := by decide
    omega
  · intro _
    simp [mallocIsBusy, hsecond]
  · rintro ⟨q, hq, hqbusy, hnext⟩
    obtain rfl := hbusy q hq hqbusy
    simp [nextOf, hlast, mallocClrBusy] at hnext

end IbcsUs.Memory
