import IbcsUs.Memory.Refusal

/-!
# First fit

Free blocks are merged while the chain is searched, from whatever block the search
comes to first.  It goes round the whole chain all the same, and the kernel is asked
only when no run of free blocks has room, however it has been cut into blocks.
-/

namespace IbcsUs.Memory

open IbcsUs.Core IbcsUs.Runs

/-- If the call asks the kernel for memory and returns, no run of adjacent free blocks
of the chain had room for the block with its header. -/
def FirstFit (state : MallocState) : Prop :=
  ∀ fuel wanted grants after blk, state.mallocP ≠ 0 → AsksKernel fuel state wanted →
    ibcsMalloc fuel state wanted grants = .returned after blk →
    ∀ r e, FreeRun state.mem state.Block r e → e - r < 4 * mallocWanted wanted

/-- The requests that keep the chain where nobody else moves the break: the first one
does not wrap, and a later one meets no free run whose size is taken for a negative
number although it is not larger, and finds a free run or does not wrap. -/
def KeepsChain (state : MallocState) (wanted : ℕ) : Prop :=
  if state.mallocP = 0 then
    state.kernel.brk + 4 * (mallocWanted wanted + 1) < 2 ^ 32
  else
    (∀ r e, FreeRun state.mem state.Block r e → 2 ^ 31 ≤ e - r →
      4 * mallocWanted wanted < e - r) ∧
    ((∃ r e, FreeRun state.mem state.Block r e ∧
        4 * mallocWanted wanted ≤ e - r) ∨
      state.mallocLast + 4 * (mallocWanted wanted + 1) < 2 ^ 32)

/-- What the actions of a run have to meet: nobody else moves the break, the requests
keep the chain, the kernel does not refuse the first one, and a block whose size
computation wrapped is not written to. -/
def FirstFitMeets (state : HeapState) : Bool × HeapAction → Prop
  | (grants, .malloc wanted) =>
      KeepsChain state.malloc wanted ∧ (state.malloc.mallocP = 0 → grants = true)
  | (_, .free _) => True
  | (_, .store blk _ _) => ∀ size, (blk, size) ∈ state.live → size + 3 < 2 ^ 32
  | (_, .moveBrk _) => False

/-- The heap is in order, and its break is where `ibcs_malloc` left it. -/
def OwnBrk (state : HeapState) : Prop :=
  HeapReady state ∧
    (state.malloc.mallocP ≠ 0 → state.malloc.kernel.brk = state.malloc.mallocLast + 4)

section Step

variable {state next : HeapState} {fuel : ℕ}

/-- On a heap in use nothing is asked for that a free run has room for. -/
theorem HeapInv.firstFit {blocks : List ℕ} (hinv : HeapInv state blocks) :
    FirstFit state.malloc := by
  intro fuel wanted grants after blk hused hasks hreturned r e hrun
  obtain ⟨mem, hscan⟩ := hasks.resolve_left hused
  rw [hinv.block_eq] at hrun
  have hlast := hinv.last_lt
  have hend := hinv.chained.le_last hrun.end_mem
  have hnone := hinv.no_room (mallocWanted_le wanted) hscan hrun
  rw [wanted_le_headerDiff_iff hrun.lt (by omega) (mallocWanted_le wanted)
    (hinv.chained.aligned r hrun.start_mem)
    (hinv.chained.aligned e hrun.end_mem), not_or, not_le] at hnone
  exact hnone.1

theorem HeapReady.firstFit (hready : HeapReady state) : FirstFit state.malloc := by
  obtain ⟨hfresh, -⟩ | ⟨blocks, hinv⟩ := hready
  · intro fuel wanted grants after blk hused
    exact absurd hfresh.unused hused
  · exact hinv.firstFit

theorem OwnBrk.mallocMeets (hown : OwnBrk state) {wanted : ℕ}
    (hkeeps : KeepsChain state.malloc wanted) : MallocMeets state.malloc wanted := by
  rw [KeepsChain] at hkeeps
  rw [MallocMeets]
  by_cases hfirst : state.malloc.mallocP = 0
  · rwa [if_pos hfirst] at hkeeps ⊢
  · rw [if_neg hfirst] at hkeeps ⊢
    exact ⟨hkeeps.1, hkeeps.2.imp_right fun hroom => ⟨hown.2 hfirst, hroom⟩⟩

/-- The condition is the one under which the heap stays in order. -/
theorem OwnBrk.grantMeets (hown : OwnBrk state) {action : Bool × HeapAction}
    (hmeets : FirstFitMeets state action) : GrantMeets state action := by
  obtain ⟨grants, action⟩ := action
  cases action with
  | malloc wanted =>
      refine ⟨hown.mallocMeets hmeets.1, fun other hother hfirst => ?_⟩
      exact hmeets.2 hfirst
  | free blk => exact ⟨trivial, fun _ hother => HeapAction.noConfusion hother⟩
  | store blk index value =>
      exact ⟨hmeets, fun _ hother => HeapAction.noConfusion hother⟩
  | moveBrk brk => exact hmeets.elim

/-- A call leaves the break right behind the end marker. -/
theorem OwnBrk.malloc (hown : OwnBrk state) {wanted blk : ℕ} {after : MallocState}
    (hmeets : MallocMeets state.malloc wanted)
    (hreturned : ibcsMalloc fuel state.malloc wanted true = .returned after blk) :
    after.kernel.brk = after.mallocLast + 4 := by
  have hpos := mallocWanted_pos wanted
  have hends (last : ℕ) : last + 4 * (mallocWanted wanted + 1) =
      last + 4 * mallocWanted wanted + 4 := by
    rw [Nat.mul_succ, Nat.add_assoc]
  obtain ⟨⟨hfresh, -⟩ | ⟨blocks, hinv⟩, hbrk⟩ := hown
  · simp only [ibcsMalloc, if_pos hfresh.unused, sysBrk_query hfresh.start_pos]
      at hreturned
    rw [MallocMeets, if_pos hfresh.unused] at hmeets
    obtain ⟨-, hafter⟩ := @mallocGrow_returned
      { state.malloc with
        mallocFirst := state.malloc.kernel.brk
        mallocLast := state.malloc.kernel.brk
        mallocP := state.malloc.kernel.brk } after _ blk (.inl rfl) hfresh.start_le hpos
      hmeets hreturned
    rw [hafter]
    exact hends _
  · have hmarker := hbrk hinv.mallocP_ne
    simp only [ibcsMalloc, if_neg hinv.mallocP_ne] at hreturned
    split at hreturned
    · cases hreturned
    · obtain ⟨rfl, -⟩ := MallocOutcome.returned.inj hreturned
      exact hmarker
    · next mem hscan =>
      rw [sysBrk_query hinv.start_pos] at hreturned
      obtain ⟨-, hroom⟩ := hinv.grow_room hmeets hscan
      obtain ⟨-, hafter⟩ := @mallocGrow_returned { state.malloc with mem := mem } after _
        blk (.inr hmarker) hinv.kernelInv.start_le hpos hroom hreturned
      rw [hafter]
      exact hends state.malloc.mallocLast

theorem ownBrk_step {action : Bool × HeapAction} (hown : OwnBrk state)
    (hmeets : FirstFitMeets state action)
    (hstep : heapStepWith fuel state action = some next) : OwnBrk next := by
  have hgrant := hown.grantMeets hmeets
  refine ⟨heapReady_stepWith hown.1 hgrant hstep, ?_⟩
  have hgranted := heapStepWith_granted hown.1 hgrant hstep
  obtain ⟨grants, action⟩ := action
  cases heapStepped hgranted with
  | malloc hreturned => exact fun _ => hown.malloc hgrant.1 hreturned
  | free hmem =>
      intro _
      obtain ⟨-, hlive⟩ | ⟨blocks, hinv⟩ := hown.1
      · simp [hlive] at hmem
      · exact hown.2 hinv.mallocP_ne
  | store => exact hown.2
  | moveBrk => exact hmeets.elim

end Step

/-- Whether a call that is granted memory asks for it and returns. -/
def asksAndReturns (fuel : ℕ) (state : MallocState) (wanted : ℕ) : Bool :=
  match mallocScan state.mallocP (mallocWanted wanted) fuel state.mem state.mallocP,
    ibcsMalloc fuel state wanted true with
  | some (_, none), .returned _ _ => true
  | _, _ => false

theorem of_asksAndReturns {fuel : ℕ} {state : MallocState} {wanted : ℕ}
    (hboth : asksAndReturns fuel state wanted = true) :
    AsksKernel fuel state wanted ∧
      ∃ after blk, ibcsMalloc fuel state wanted true = .returned after blk := by
  rw [asksAndReturns] at hboth
  split at hboth
  · next mem after blk hscan hreturned =>
    exact ⟨.inr ⟨mem, hscan⟩, after, blk, hreturned⟩
  · cases hboth

/-- The actions after which a block links to itself: the size of the free run of 2 GiB
at 0x8050068 is taken for a negative number, and the block taken for 4 GiB begins and
ends there. -/
def selfLink : List (Bool × HeapAction) :=
  [(true, .malloc 100), (true, .malloc 0x7fffffff), (true, .free 0x8050004),
    (true, .free 0x805006c), (true, .malloc 0xfffffffc)]

end IbcsUs.Memory
