import IbcsUs.Memory.Heap

/-!
# Heap safety

What the holders of blocks rely on: blocks are apart, large enough, made of
memory the allocator got from the kernel, and hold no header.
-/

namespace IbcsUs.Memory

open IbcsUs.Runs

/-- The end of the block that was returned as `blk`. -/
def MallocState.blockEnd (state : MallocState) (blk : ℕ) : ℕ :=
  nextOf state.mem (blk - 4)

/-- The blocks held are pairwise disjoint, headers included.  Each is as large
as was asked for, consists of memory obtained from the kernel, and covers no
header of another block or of the end marker. -/
structure HeapSafe (state : HeapState) : Prop where
  disjoint : state.live.Pairwise fun entry other =>
    state.malloc.blockEnd entry.1 ≤ other.1 - 4 ∨
      state.malloc.blockEnd other.1 ≤ entry.1 - 4
  owns : ∀ entry ∈ state.live, 4 ≤ entry.1 ∧
    entry.1 + entry.2 ≤ state.malloc.blockEnd entry.1
  obtained : ∀ entry ∈ state.live, ∀ byte, entry.1 ≤ byte →
    byte < entry.1 + entry.2 →
    ∃ range ∈ state.obtained, range.1 ≤ byte ∧ byte < range.2
  headers : ∀ entry ∈ state.live, ∀ header,
    state.malloc.Block header ∨ header = state.malloc.mallocLast →
    header ≠ entry.1 - 4 →
    header + 4 ≤ entry.1 ∨ state.malloc.blockEnd entry.1 ≤ header

section Safe

variable {state : HeapState} {blocks : List ℕ}

/-- The invariant gives the holders of blocks what they rely on. -/
theorem HeapInv.safe (hinv : HeapInv state blocks)
    (hsmall : ∀ entry ∈ state.live, entry.2 + 3 < 2 ^ 32) : HeapSafe state := by
  have hlast := hinv.last_lt
  -- a header other than that of the block lies before it or at its end or above
  have hapart : ∀ entry ∈ state.live, ∀ q ∈ blocks, q ≠ entry.1 - 4 →
      q < entry.1 - 4 ∨ state.malloc.blockEnd entry.1 ≤ q := by
    intro entry hentry q hq hne
    obtain ⟨p, hp, hp4, -⟩ := hinv.live entry hentry
    have hheader : entry.1 - 4 = p := by omega
    rw [hheader] at hne
    rw [MallocState.blockEnd, hheader]
    rcases lt_or_gt_of_ne hne with hlt | hgt
    · exact .inl hlt
    · exact .inr (hinv.chained.chain.next_le hp hq hgt)
  have howns : ∀ entry ∈ state.live, 4 ≤ entry.1 ∧
      entry.1 + entry.2 ≤ state.malloc.blockEnd entry.1 := by
    intro entry hentry
    obtain ⟨p, hp, hp4, -, -, hsize⟩ := hinv.live entry hentry
    have hheader : entry.1 - 4 = p := by omega
    rw [MallocState.blockEnd, hheader]
    exact ⟨by omega, hsize (hsmall entry hentry)⟩
  refine
    { disjoint := ?_
      owns := howns
      obtained := ?_
      headers := ?_ }
  · have hdistinct := List.pairwise_map.mp hinv.distinct
    refine hdistinct.imp_of_mem ?_
    intro entry other hentry hother hne
    obtain ⟨p, hp, hp4, -⟩ := hinv.live entry hentry
    obtain ⟨q, hq, hq4, -⟩ := hinv.live other hother
    rcases lt_or_gt_of_ne (show p ≠ q by omega) with hlt | hgt
    · left
      rcases hapart entry hentry q hq (by omega) with hbelow | habove
      · omega
      · omega
    · right
      rcases hapart other hother p hp (by omega) with hbelow | habove
      · omega
      · omega
  · intro entry hentry byte hlow hhigh
    obtain ⟨p, hp, hp4, hne, -, hsize⟩ := hinv.live entry hentry
    have hroom := hsize (hsmall entry hentry)
    have hend := hinv.chained.le_last (hinv.chained.next_mem hp)
    have hfirst := hinv.chained.first_le hp
    exact hinv.obtained byte (by omega) (by omega)
  · intro entry hentry header hheader hne
    have hmem : header ∈ blocks := by
      rcases hheader with hblock | rfl
      · rwa [hinv.block_eq] at hblock
      · exact hinv.chained.last_mem
    obtain ⟨p, hp, hp4, -⟩ := hinv.live entry hentry
    have haligned := hinv.chained.aligned p hp
    have haligned' := hinv.chained.aligned header hmem
    rcases hapart entry hentry header hmem hne with hbelow | habove
    · left
      omega
    · exact .inr habove

end Safe

/-! ## Whole runs -/

/-- The condition on the calls of a run. -/
def CallMeets (state : HeapState) : HeapAction → Prop
  | .malloc wanted => MallocMeets state.malloc wanted
  | _ => True

/-- No block held was asked for with more than 2 GiB. -/
def SmallBlocks (state : HeapState) : Prop :=
  ∀ entry ∈ state.live, entry.2 ≤ 0x7fffffff

theorem smallBlocks_step {fuel : ℕ} {state next : HeapState}
    {action : HeapAction} (hsmall : SmallBlocks state)
    (hwanted : ∀ wanted, action = .malloc wanted → wanted ≤ 0x7fffffff)
    (hstep : heapStep fuel state action = some next) : SmallBlocks next := by
  cases heapStepped hstep with
  | malloc =>
      intro entry hentry
      rcases List.mem_cons.mp hentry with rfl | hmem
      · exact hwanted _ rfl
      · exact hsmall entry hmem
  | free => exact fun entry hentry => hsmall entry (List.mem_of_mem_eraseP hentry)
  | store => exact hsmall
  | moveBrk => exact hsmall

/-- Any sequence of requests of up to 2 GiB, frees of blocks held, writes into
blocks held and moves of the break by others leaves the blocks held safe, as
long as every request is one that `ibcs_malloc` gets right. -/
theorem ibcsMalloc_heapSafe {malloc : MallocState} (hfresh : FreshHeap malloc)
    {fuel : ℕ} {actions : List HeapAction} {final : HeapState}
    (hwanted : ∀ wanted, HeapAction.malloc wanted ∈ actions →
      wanted ≤ 0x7fffffff)
    (hmeet : StepsMeet (heapStep fuel) CallMeets (freshHeap malloc) actions)
    (hrun : run (heapStep fuel) (freshHeap malloc) actions = some final) :
    HeapSafe final := by
  have hmeet' : StepsMeet (heapStep fuel)
      (fun state action => CallMeets state action ∧
        ∀ wanted, action = .malloc wanted → wanted ≤ 0x7fffffff)
      (freshHeap malloc) actions := by
    refine hmeet.imp fun state action hmem hcall => ⟨hcall, ?_⟩
    rintro wanted rfl
    exact hwanted wanted hmem
  have hstep : ∀ state action next, HeapReady state ∧ SmallBlocks state →
      (CallMeets state action ∧
        ∀ wanted, action = .malloc wanted → wanted ≤ 0x7fffffff) →
      heapStep fuel state action = some next →
      HeapReady next ∧ SmallBlocks next := by
    rintro state action next ⟨hready, hsmall⟩ ⟨hcall, hsize⟩ hstep
    refine ⟨heapReady_step hready ?_ hstep, smallBlocks_step hsmall hsize hstep⟩
    cases action with
    | malloc wanted => exact hcall
    | free blk => trivial
    | store blk index value =>
        intro size hmem
        have hle := hsmall _ hmem
        simp only at hle
        omega
    | moveBrk brk => trivial
  have hfinal := invariant_run_of_stepsMeet hstep
    ⟨heapReady_fresh hfresh, by simp [SmallBlocks, freshHeap]⟩ hmeet' hrun
  obtain ⟨⟨-, hlive⟩ | ⟨blocks, hinv⟩, hsmall⟩ := hfinal
  · constructor <;> simp [hlive]
  · refine hinv.safe fun entry hentry => ?_
    have hle := hsmall entry hentry
    omega

theorem ibcsMalloc_heapSafe_first :
    ∃ final, run (heapStep 0) (freshHeap bareHeap) [.malloc 4] = some final ∧
      final.live = [(0x8050004, 4)] ∧ HeapSafe final := by
  have hmeet : StepsMeet (heapStep 0) CallMeets (freshHeap bareHeap)
      [.malloc 4] := by
    refine ⟨?_, fun _ _ => trivial⟩
    change MallocMeets bareHeap 4
    rw [MallocMeets, if_pos bareHeap_fresh.unused]
    decide
  have hlive : (run (heapStep 0) (freshHeap bareHeap) [.malloc 4]).map
      HeapState.live = some [(0x8050004, 4)] := by
    decide +kernel
  obtain ⟨final, hrun, hfinal⟩ := Option.map_eq_some_iff.mp hlive
  refine ⟨final, hrun, hfinal, ibcsMalloc_heapSafe bareHeap_fresh ?_ hmeet hrun⟩
  intro wanted hmem
  obtain rfl : wanted = 4 := by simpa using hmem
  decide

/-- After somebody else has moved the break, the block at 0x8051000 is not in
the chain.  Freed together with its neighbour it is merged over that one, whose
header stays in the chain and is handed out again. -/
theorem ibcsMalloc_overlap :
    ∃ final, run (heapStep 10) (freshHeap bareHeap)
        [.malloc 4, .moveBrk 0x8051000, .malloc 4, .malloc 4, .free 0x805100c,
          .free 0x8051004, .malloc 12, .malloc 4] = some final ∧
      (0x8051004, 12) ∈ final.live ∧ (0x805100c, 4) ∈ final.live ∧
      ¬ HeapSafe final := by
  have hoverlap : (run (heapStep 10) (freshHeap bareHeap)
      [.malloc 4, .moveBrk 0x8051000, .malloc 4, .malloc 4, .free 0x805100c,
        .free 0x8051004, .malloc 12, .malloc 4]).map
      (fun state => (state.live, state.malloc.mem 0x8051000,
        state.malloc.mem 0x8051008)) =
      some ([(0x805100c, 4), (0x8051004, 12), (0x8050004, 4)], 0x8051011,
        0x8051011) := by
    decide +kernel
  obtain ⟨final, hrun, hfinal⟩ := Option.map_eq_some_iff.mp hoverlap
  obtain ⟨hlive, hends⟩ := Prod.mk.inj hfinal
  obtain ⟨hend, hend'⟩ := Prod.mk.inj hends
  refine ⟨final, hrun, by simp [hlive], by simp [hlive], fun hsafe => ?_⟩
  have hdisjoint := hsafe.disjoint
  rw [hlive, List.pairwise_cons] at hdisjoint
  have hapart := hdisjoint.1 (0x8051004, 12) (by simp)
  simp only [MallocState.blockEnd, nextOf, Nat.reduceSub, hend, hend',
    mallocClrBusy] at hapart
  omega

end IbcsUs.Memory
