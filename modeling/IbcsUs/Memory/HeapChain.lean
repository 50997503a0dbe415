import IbcsUs.Memory.Heap

/-!
# The chain over whole runs

The comment of the allocator says that the links lead from the first header over
every block to the end marker.  Here a run carries along the headers of the blocks
that were ever handed out and not merged into another one since, and the chain is
shown to pass through all of them, as long as the requests are such that
`ibcs_malloc` gets them right.
-/

namespace IbcsUs.Memory

open IbcsUs.Core IbcsUs.Runs

/-! ## The blocks a scan merges -/

/-- The headers that `mallocCoalesce` takes out of the chain. -/
def coalesceMerged (p : ℕ) : ℕ → Words → List ℕ
  | 0, _ => []
  | fuel + 1, mem =>
      if mallocIsBusy mem (mem p) then []
      else mem p :: coalesceMerged p fuel (Function.update mem p (mem (mem p)))

/-- The headers that `mallocScan` takes out of the chain. -/
def scanMerged (start wanted : ℕ) : ℕ → Words → ℕ → List ℕ
  | 0, _, _ => []
  | fuel + 1, mem, p =>
      let advance := fun mem : Words =>
        if mallocClrBusy (mem p) ≠ start then
          scanMerged start wanted fuel mem (mallocClrBusy (mem p))
        else []
      if mallocIsBusy mem p then advance mem
      else
        match mallocCoalesce p fuel mem with
        | none => []
        | some after =>
            coalesceMerged p fuel mem ++
              if wanted ≤ headerDiff (after p) p then [] else advance after

/-- The headers that a call of `ibcs_malloc` takes out of the chain. -/
def mallocMerged (fuel : ℕ) (state : MallocState) (wanted : ℕ) : List ℕ :=
  if state.mallocP = 0 then []
  else scanMerged state.mallocP
    (mallocWanted wanted) fuel state.mem state.mallocP

/-- The heap together with the headers handed out and not merged since. -/
structure ChainState where
  heap : HeapState
  handed : List ℕ

/-- A step of the heap.  A request hands out the header before its block. -/
def chainStep (fuel : ℕ) (state : ChainState) (action : HeapAction) :
    Option ChainState :=
  (heapStep fuel state.heap action).map fun heap =>
    { heap := heap
      handed :=
        match action with
        | .malloc wanted =>
            (heap.live.take 1).map (fun entry => wordSub entry.1 4) ++
              state.handed.filter
                (· ∉ mallocMerged fuel state.heap.malloc wanted)
        | _ => state.handed }

def freshChain (malloc : MallocState) : ChainState := ⟨freshHeap malloc, []⟩

/-- The links from the first header ascend to the end marker, which closes the
circle with its busy bit set; they pass through every header handed out and not
merged, and through the roving one. -/
def ChainRight (state : ChainState) : Prop :=
  ∃ blocks, Blocks state.heap.malloc.mem state.heap.malloc.mallocFirst
      state.heap.malloc.mallocLast blocks ∧
    (∀ header ∈ state.handed, header ∈ blocks) ∧
    state.heap.malloc.mallocP ∈ blocks

/-- A call of one of the two functions. -/
def HeapAction.IsCall : HeapAction → Prop
  | .malloc _ | .free _ => True
  | .store _ _ _ | .moveBrk _ => False

/-! ## What stays in the chain -/

section Keeps

variable {mem mem' : Words} {first last p q start wanted fuel : ℕ}
variable {blocks blocks' : List ℕ}

/-- The links determine the chain. -/
theorem Blocks.mem_iff (hblocks : Blocks mem first last blocks)
    (hblocks' : Blocks mem first last blocks') : q ∈ blocks ↔ q ∈ blocks' := by
  rw [← hblocks.reachable_iff, hblocks'.reachable_iff]

/-- A round of the inner loop takes out one header only. -/
theorem Blocks.merge_keeps (hblocks : Blocks mem first last blocks)
    (hp : p ∈ blocks) (hfree : ¬ mallocIsBusy mem p)
    (hnext : ¬ mallocIsBusy mem (mem p)) (hq : q ∈ blocks) (hne : q ≠ mem p) :
    ∃ blocks', Blocks (Function.update mem p (mem (mem p))) first last blocks' ∧
      p ∈ blocks' ∧
      ¬ mallocIsBusy (Function.update mem p (mem (mem p))) p ∧ q ∈ blocks' := by
  obtain ⟨blocks', hblocks', -, hp', hfree', -⟩ :=
    hblocks.merge hp hfree hnext
  refine ⟨blocks', hblocks', hp', hfree', ?_⟩
  -- along the chain: the header before `q` is still there, or was the one merged
  induction q using Nat.strong_induction_on with
  | _ q ih =>
      obtain ⟨r, hr, rfl⟩ := hblocks.exists_prev hq
      by_cases hlast : r = last
      · rw [hlast, hblocks.next_last]
        exact hblocks'.first_mem
      have hup := (hblocks.next_above hr hlast).2
      by_cases hrp : r = p
      · rw [hrp, nextOf_of_free hfree] at hne
        exact absurd rfl hne
      by_cases hmerged : r = mem p
      · have hlink : nextOf (Function.update mem p (mem (mem p))) p =
            nextOf mem r := by
          rw [nextOf_update, Function.update_self, hmerged, nextOf]
        exact hlink ▸ hblocks'.next_mem hp'
      · have hlink : nextOf (Function.update mem p (mem (mem p))) r =
            nextOf mem r := by
          rw [nextOf_update, Function.update_of_ne hrp]
        exact hlink ▸ hblocks'.next_mem (ih r hup hr hmerged)

/-- The inner loop takes out the headers listed. -/
theorem Blocks.coalesce_keeps (hblocks : Blocks mem first last blocks)
    (hp : p ∈ blocks) (hfree : ¬ mallocIsBusy mem p)
    (hrun : mallocCoalesce p fuel mem = some mem')
    (hblocks' : Blocks mem' first last blocks') (hq : q ∈ blocks)
    (hkept : q ∉ coalesceMerged p fuel mem) : q ∈ blocks' := by
  induction fuel generalizing mem blocks with
  | zero => cases hrun
  | succ fuel ih =>
      rw [mallocCoalesce] at hrun
      rw [coalesceMerged] at hkept
      split_ifs at hrun hkept with hbusy
      · obtain rfl := Option.some.inj hrun
        exact (hblocks.mem_iff hblocks').1 hq
      · rw [List.mem_cons, not_or] at hkept
        obtain ⟨blocks₁, hblocks₁, hp₁, hfree₁, hq₁⟩ :=
          hblocks.merge_keeps hp hfree hbusy hq hkept.1
        exact ih hblocks₁ hp₁ hfree₁ hrun hq₁ hkept.2

/-- The scan takes out the headers listed. -/
theorem Blocks.scan_keeps {found : Option ℕ}
    (hblocks : Blocks mem first last blocks) (hp : p ∈ blocks)
    (hscan : mallocScan start wanted fuel mem p = some (mem', found))
    (hblocks' : Blocks mem' first last blocks') (hq : q ∈ blocks)
    (hkept : q ∉ scanMerged start wanted fuel mem p) : q ∈ blocks' := by
  induction fuel generalizing mem p blocks with
  | zero => cases hscan
  | succ fuel ih =>
      have hadvance : ∀ {mem₁ : Words} {blocks₁ : List ℕ},
          Blocks mem₁ first last blocks₁ → p ∈ blocks₁ → q ∈ blocks₁ →
          (if mallocClrBusy (mem₁ p) ≠ start then
            mallocScan start wanted fuel mem₁ (mallocClrBusy (mem₁ p))
            else some (mem₁, none)) = some (mem', found) →
          (q ∉ if mallocClrBusy (mem₁ p) ≠ start then
            scanMerged start wanted fuel mem₁ (mallocClrBusy (mem₁ p))
            else []) →
          q ∈ blocks' := by
        intro mem₁ blocks₁ hblocks₁ hp₁ hq₁ hscan₁ hkept₁
        split_ifs at hscan₁ hkept₁ with hstart
        · exact ih hblocks₁ (hblocks₁.next_mem hp₁) hscan₁ hq₁ hkept₁
        · obtain ⟨rfl, -⟩ := Prod.mk.inj (Option.some.inj hscan₁)
          exact (hblocks₁.mem_iff hblocks').1 hq₁
      rw [mallocScan] at hscan
      rw [scanMerged] at hkept
      by_cases hbusy : mallocIsBusy mem p
      · simp only [hbusy, if_true] at hscan hkept
        exact hadvance hblocks hp hq hscan hkept
      · obtain ⟨mem₁, blocks₁, need, hblocks₁, -, hp₁, -, hfuel⟩ :=
          hblocks.coalesce hp hbusy
        have hcoalesce := hfuel fuel
        split_ifs at hcoalesce
        · simp only [hbusy, Bool.false_eq_true, if_false, hcoalesce,
            Option.bind_some, List.mem_append, not_or] at hscan hkept
          have hq₁ :=
            hblocks.coalesce_keeps hp hbusy hcoalesce hblocks₁ hq hkept.1
          by_cases hfits : wanted ≤ headerDiff (mem₁ p) p
          · rw [if_pos hfits] at hscan
            obtain ⟨rfl, -⟩ := Prod.mk.inj (Option.some.inj hscan)
            exact (hblocks₁.mem_iff hblocks').1 hq₁
          · rw [if_neg hfits] at hscan hkept
            exact hadvance hblocks₁ hp₁ hq₁ hscan hkept.2
        · simp [hbusy, hcoalesce] at hscan

/-- A request on a heap in use takes out the headers listed. -/
theorem HeapInv.malloc_keeps {state : HeapState} (hinv : HeapInv state blocks)
    {blk : ℕ} {after : MallocState} (hmeets : MallocMeets state.malloc wanted)
    (hreturned : ibcsMalloc fuel state.malloc wanted true = .returned after blk)
    (hblocks' : Blocks after.mem after.mallocFirst after.mallocLast blocks')
    (hq : q ∈ blocks) (hkept : q ∉ mallocMerged fuel state.malloc wanted) :
    q ∈ blocks' := by
  rw [mallocMerged, if_neg hinv.mallocP_ne] at hkept
  have hlast := hinv.last_lt
  simp only [ibcsMalloc, if_neg hinv.mallocP_ne] at hreturned
  split at hreturned
  · simp at hreturned
  · next mem r hscan =>
    obtain ⟨rfl, rfl⟩ := MallocOutcome.returned.inj hreturned
    obtain ⟨blocks₁, hblocks₁, hmerged, hfound, -⟩ :=
      hinv.chained.scan hinv.roving hscan
    obtain ⟨-, hfits, hrun⟩ := hfound r rfl
    rw [MallocMeets, if_neg hinv.mallocP_ne, hinv.block_eq] at hmeets
    obtain ⟨blocks₂, hblocks₂, -, hsub, -⟩ :=
      Blocks.take { state.malloc with mem := mem } hblocks₁ hrun
        (mallocWanted_pos wanted) (by omega) hfits.2
        (hmeets.1 r (mem r) (hrun.before_merge hmerged))
          (mallocWanted_le wanted)
    refine (hblocks₂.mem_iff hblocks').1 (hsub q ?_)
    exact hinv.chained.scan_keeps hinv.roving hscan hblocks₁ hq hkept
  · next mem hscan =>
    rw [sysBrk_query hinv.start_pos] at hreturned
    obtain ⟨blocks₁, hblocks₁, -, -, -⟩ := hinv.chained.scan hinv.roving hscan
    have hq₁ := hinv.chained.scan_keeps hinv.roving hscan hblocks₁ hq hkept
    obtain ⟨hbrk, hroom⟩ := hinv.grow_room hmeets hscan
    have hstart := hinv.start_le.trans
      (hinv.chained.first_le hinv.chained.last_mem)
    have hbelow : state.malloc.kernel.startBrk ≤ state.malloc.kernel.brk := by
      omega
    obtain ⟨-, rfl⟩ :=
      @mallocGrow_returned { state.malloc with mem := mem } after
      (mallocWanted wanted) blk (.inr hbrk) hbelow
        (mallocWanted_pos wanted) hroom
      hreturned
    obtain ⟨front, rfl⟩ := List.getLast?_eq_some_iff.mp hblocks₁.getLast
    have haligned := hblocks₁.aligned _ hblocks₁.last_mem
    have hpos := mallocWanted_pos wanted
    have hgrown := Blocks.grow
      (n := state.malloc.mallocLast + 4 * mallocWanted wanted)
      hblocks₁.chain hblocks₁.head hblocks₁.aligned (by omega) (by omega)
    refine (hgrown.mem_iff hblocks').1 ?_
    rw [List.append_cons]
    exact List.mem_append_left _ hq₁

end Keeps

/-! ## Whole runs -/

/-- A heap in use whose chain passes through the headers handed out. -/
def ChainInUse (state : ChainState) : Prop :=
  ∃ blocks, HeapInv state.heap blocks ∧ ∀ header ∈ state.handed, header ∈ blocks

/-- A heap before its first allocation, or one in use. -/
def ChainReady (state : ChainState) : Prop :=
  (FreshHeap state.heap.malloc ∧ state.heap.live = []) ∧ state.handed = [] ∨
    ChainInUse state

theorem ChainInUse.right {state : ChainState} (hinUse : ChainInUse state) :
    ChainRight state := by
  obtain ⟨blocks, hinv, hhanded⟩ := hinUse
  exact ⟨blocks, hinv.chained, hhanded, hinv.roving⟩

theorem HeapInv.live_header {state : HeapState} {blocks : List ℕ}
    (hinv : HeapInv state blocks) (entry : ℕ × ℕ)
    (hentry : entry ∈ state.live) :
    wordSub entry.1 4 ∈ blocks := by
  obtain ⟨p, hp, hp4, -⟩ := hinv.live entry hentry
  have hple := hinv.chained.le_last hp
  have hlast := hinv.last_lt
  have hheader : wordSub entry.1 4 = p := by
    simp only [wordSub]
    omega
  exact hheader ▸ hp

section Step

variable {fuel : ℕ} {state next : ChainState}

/-- After a request the heap is in use. -/
theorem chainInUse_malloc {wanted : ℕ} (hready : ChainReady state)
    (hmeets : MallocMeets state.heap.malloc wanted)
    (hstep : chainStep fuel state (.malloc wanted) = some next) :
    ChainInUse next := by
  obtain ⟨heap, hheap, rfl⟩ := Option.map_eq_some_iff.1 hstep
  cases heapStepped hheap with
  | @malloc _ blk after hreturned =>
      rcases hready with ⟨⟨hfresh, hlive⟩, hnone⟩ | ⟨blocks, hinv, hhanded⟩
      · obtain ⟨blocks', hinv'⟩ := hfresh.malloc hlive hmeets hreturned
        refine ⟨blocks', hinv', fun header hheader => ?_⟩
        have hnew : header = wordSub blk 4 := by simpa [hnone] using hheader
        rw [hnew]
        exact hinv'.live_header (blk, wanted) List.mem_cons_self
      · obtain ⟨blocks', hinv'⟩ := hinv.malloc hmeets hreturned
        refine ⟨blocks', hinv', fun header hheader => ?_⟩
        rcases List.mem_append.1 hheader with hnew | hold
        · have hsame : header = wordSub blk 4 := by simpa using hnew
          rw [hsame]
          exact hinv'.live_header (blk, wanted) List.mem_cons_self
        · obtain ⟨hmem, hkept⟩ := List.mem_filter.1 hold
          exact hinv.malloc_keeps hmeets hreturned hinv'.chained
            (hhanded header hmem) (by simpa using hkept)

/-- After a block is given back the heap is in use. -/
theorem chainInUse_free {blk : ℕ} (hready : ChainReady state)
    (hstep : chainStep fuel state (.free blk) = some next) :
    ChainInUse next := by
  obtain ⟨heap, hheap, rfl⟩ := Option.map_eq_some_iff.1 hstep
  cases heapStepped hheap with
  | free hblk =>
      rcases hready with ⟨⟨-, hlive⟩, -⟩ | ⟨blocks, hinv, hhanded⟩
      · simp [hlive] at hblk
      · exact ⟨blocks, hinv.free hblk, hhanded⟩

theorem chainReady_step {action : HeapAction} (hready : ChainReady state)
    (hmeets : HeapActionMeets state.heap action)
    (hstep : chainStep fuel state action = some next) : ChainReady next := by
  cases action with
  | malloc wanted => exact .inr (chainInUse_malloc hready hmeets hstep)
  | free blk => exact .inr (chainInUse_free hready hstep)
  | store blk index value =>
      obtain ⟨heap, hheap, rfl⟩ := Option.map_eq_some_iff.1 hstep
      cases heapStepped hheap with
      | store hmem hindex =>
          rcases hready with ⟨⟨-, hlive⟩, -⟩ | ⟨blocks, hinv, hhanded⟩
          · simp [hlive] at hmem
          · exact .inr ⟨blocks, hinv.store hmem hindex (hmeets _ hmem), hhanded⟩
  | moveBrk brk =>
      obtain ⟨heap, hheap, rfl⟩ := Option.map_eq_some_iff.1 hstep
      cases heapStepped hheap with
      | moveBrk hup haligned hword =>
          rcases hready with ⟨⟨hfresh, hlive⟩, hnone⟩ | ⟨blocks, hinv, hhanded⟩
          · exact .inl ⟨⟨hfresh.moveBrk hup haligned hword, hlive⟩, hnone⟩
          · exact .inr ⟨blocks, hinv.moveBrk hup hword, hhanded⟩

end Step

/-- After every call, in any sequence of requests, frees of blocks held, writes into
blocks held and moves of the break by others, the chain is right, as long as every
request is one that `ibcs_malloc` gets right. -/
theorem chainRight_after_call {malloc : MallocState} (hfresh : FreshHeap malloc)
    {fuel : ℕ} {actions : List HeapAction} {call : HeapAction}
    (hcall : call.IsCall)
    {final : ChainState}
    (hmeet : StepsMeet (chainStep fuel)
      (fun state action => HeapActionMeets state.heap action)
      (freshChain malloc) (actions ++ [call]))
    (hrun : run (chainStep fuel) (freshChain malloc) (actions ++ [call]) =
      some final) :
    ChainRight final := by
  obtain ⟨middle, hfront, hlast⟩ := run_concat hrun
  have hready : ChainReady middle :=
    invariant_run_of_stepsMeet (fun _ _ _ => chainReady_step)
      (.inl ⟨⟨hfresh, rfl⟩, rfl⟩) hmeet.left_of_append hfront
  have hmeets := (hmeet.right_of_append hfront).1
  cases call with
  | malloc wanted => exact (chainInUse_malloc hready hmeets hlast).right
  | free blk => exact (chainInUse_free hready hlast).right
  | store blk index value => exact absurd hcall id
  | moveBrk brk => exact absurd hcall id

/-- The first request. -/
theorem chainRight_after_first :
    ∃ final, run (chainStep 0) (freshChain bareHeap) [.malloc 4] = some final ∧
      final.handed = [0x8050000] ∧ ChainRight final := by
  have hmeet : StepsMeet (chainStep 0)
      (fun state action => HeapActionMeets state.heap action)
      (freshChain bareHeap) ([] ++ [.malloc 4]) := by
    refine ⟨?_, fun _ _ => trivial⟩
    change MallocMeets bareHeap 4
    rw [MallocMeets, if_pos bareHeap_fresh.unused]
    decide
  have hhanded : (run (chainStep 0) (freshChain bareHeap) [.malloc 4]).map
      ChainState.handed = some [0x8050000] := by
    decide
  obtain ⟨final, hrun, hfinal⟩ := Option.map_eq_some_iff.mp hhanded
  exact ⟨final, hrun, hfinal,
    chainRight_after_call bareHeap_fresh
      (show (HeapAction.malloc 4).IsCall from trivial) hmeet hrun⟩

/-- After somebody else has moved the break, the header of the block handed out at
0x8051000 is passed over. -/
theorem chain_passes_over_block :
    ∃ final, run (chainStep 10) (freshChain bareHeap)
        [.malloc 4, .moveBrk 0x8051000, .malloc 4] = some final ∧
      0x8051000 ∈ final.handed ∧ ¬ ChainRight final := by
  have hlinks : (run (chainStep 10) (freshChain bareHeap)
      [.malloc 4, .moveBrk 0x8051000, .malloc 4]).map
      (fun state => (state.handed, state.heap.malloc.mallocFirst,
        nextOf state.heap.malloc.mem 0x8050000,
        nextOf state.heap.malloc.mem 0x8050008)) =
      some ([0x8051000, 0x8050000], 0x8050000, 0x8050008, 0x8051008) := by
    decide
  obtain ⟨final, hrun, hfinal⟩ := Option.map_eq_some_iff.mp hlinks
  simp only [Prod.mk.injEq] at hfinal
  obtain ⟨hhanded, hfirst, hsecond, hthird⟩ := hfinal
  refine ⟨final, hrun, by simp [hhanded], ?_⟩
  rintro ⟨blocks, hblocks, hall, -⟩
  have hpassed := hall 0x8051000 (by simp [hhanded])
  have hmem := hblocks.next_mem hblocks.first_mem
  rw [hfirst, hsecond] at hmem
  have hle := hblocks.chain.next_le hmem hpassed (by decide)
  rw [hthird] at hle
  exact absurd hle (by decide)

end IbcsUs.Memory
