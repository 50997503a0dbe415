import IbcsUs.Memory.HeapSafety

/-!
# Memory the kernel refuses

The kernel refuses to move the break by leaving it where it is.  `ibcs_malloc` looks
at the distance from the new block to the break less one word, as an unsigned number.
It notices a refusal only where the block starts at the old end marker: elsewhere the
distance is -1, which counts as plenty.
-/

namespace IbcsUs.Memory

open IbcsUs.Core IbcsUs.Runs

/-- The heap after an action during which the kernel grants memory or does not. -/
def heapStepWith (fuel : ℕ) (state : HeapState) : Bool × HeapAction → Option HeapState
  | (grants, .malloc wanted) =>
      match ibcsMalloc fuel state.malloc wanted grants with
      | .returned malloc blk =>
          some
            { malloc := malloc
              live := (blk, wanted) :: state.live
              obtained :=
                (state.malloc.kernel.brk, malloc.kernel.brk) :: state.obtained }
      | _ => none
  | (_, action) => heapStep fuel state action

/-- The call ends in `ibcs_fatal_syscall`. -/
def MallocOutcome.IsFatal : MallocOutcome → Prop
  | .fatalQuery _ => True
  | .fatalBrk _ _ => True
  | .fatalShort _ _ _ => True
  | _ => False

/-- The call finds no block and asks the kernel for memory. -/
def AsksKernel (fuel : ℕ) (state : MallocState) (wanted : ℕ) : Prop :=
  state.mallocP = 0 ∨
    ∃ mem, mallocScan state.mallocP (mallocWanted wanted) fuel state.mem
      state.mallocP = some (mem, none)

/-- The break stands right behind the end marker. -/
def BehindMarker (state : MallocState) : Prop :=
  state.mallocP ≠ 0 ∧ wordAdd state.mallocLast 4 = state.kernel.brk

instance (state : MallocState) : Decidable (BehindMarker state) :=
  inferInstanceAs (Decidable (_ ∧ _))

/-- Where the new block starts. -/
def growthPlace (state : MallocState) : ℕ :=
  if BehindMarker state then state.mallocLast else state.kernel.brk

/-- The break that a call asks for. -/
def growthRequest (state : MallocState) (wanted : ℕ) : ℕ :=
  wordAdd (growthPlace state) (4 * (mallocWanted wanted + 1))

/-- The kernel leaves the break where it is. -/
def Refuses (state : MallocState) (wanted : ℕ) (grants : Bool) : Prop :=
  (sysBrk state.kernel (growthRequest state wanted) grants).2 = state.kernel.brk

instance (state : MallocState) (wanted : ℕ) (grants : Bool) :
    Decidable (Refuses state wanted grants) :=
  inferInstanceAs (Decidable (_ = _))

/-- If the kernel refuses the memory, the call does not return but is fatal. -/
def RefusalEnds (fuel : ℕ) (state : MallocState) (wanted : ℕ) (grants : Bool) : Prop :=
  AsksKernel fuel state wanted → Refuses state wanted grants →
    (ibcsMalloc fuel state wanted grants).IsFatal

/-- If the call returns a block, it lies below the break that the kernel reports. -/
def BelowBreak (fuel : ℕ) (state : MallocState) (wanted : ℕ) (grants : Bool) : Prop :=
  ∀ after blk, ibcsMalloc fuel state wanted grants = .returned after blk →
    blk + wanted ≤ after.kernel.brk

/-- A call that asks for memory gets it, or notices that it does not: the kernel moves
the break up to where it is asked to, or refuses while the break stands right behind the
end marker, or has no place for an answer. -/
def GrowthMeets (state : MallocState) (wanted : ℕ) (grants : Bool) : Prop :=
  isErr state.kernel.brk ∨
    (state.kernel.brk < growthRequest state wanted ∧ grants = true) ∨
    (BehindMarker state ∧ Refuses state wanted grants)

/-- What the actions of a run have to meet for blocks to lie below the break: the
requests keep the chain, and the kernel does not refuse the first one. -/
def GrantMeets (state : HeapState) (action : Bool × HeapAction) : Prop :=
  HeapActionMeets state action.2 ∧
    ∀ wanted, action.2 = .malloc wanted → state.malloc.mallocP = 0 → action.1 = true

/-! ## A call that is refused -/

section Call

variable {state : MallocState} {fuel wanted : ℕ} {grants : Bool}

/-- What a call that asks for memory comes to. -/
theorem ibcsMalloc_of_asks (hpos : 0 < state.kernel.startBrk)
    (hasks : AsksKernel fuel state wanted) :
    ∃ grown : MallocState, grown.kernel = state.kernel ∧
      grown.mallocLast =
        (if state.mallocP = 0 then state.kernel.brk else state.mallocLast) ∧
      ibcsMalloc fuel state wanted grants =
        mallocGrow grown state.kernel.brk (mallocWanted wanted) grants := by
  by_cases hfirst : state.mallocP = 0
  · refine ⟨{ state with
        mallocFirst := state.kernel.brk
        mallocLast := state.kernel.brk
        mallocP := state.kernel.brk }, rfl, (if_pos hfirst).symm, ?_⟩
    simp only [ibcsMalloc, if_pos hfirst, sysBrk_query hpos]
  · obtain ⟨mem, hscan⟩ := hasks.resolve_left hfirst
    refine ⟨{ state with mem := mem }, rfl, (if_neg hfirst).symm, ?_⟩
    simp only [ibcsMalloc, if_neg hfirst, hscan, sysBrk_query hpos]

theorem headerDiff_self {p : ℕ} (hword : p < 2 ^ 32) : headerDiff p p = 0 := by
  have hzero : wordSub p p = 0 := by
    rw [wordSub, Nat.add_sub_cancel' hword.le, Nat.mod_self]
  rw [headerDiff, hzero]
  rfl

/-- One word below the block counts as a distance of almost 4 GiB. -/
theorem headerDiff_below {p : ℕ} (hword : p < 2 ^ 32) :
    headerDiff (wordSub p 4) p = 2 ^ 32 - 1 := by
  have hminus : wordSub (wordSub p 4) p = 2 ^ 32 - 4 := by
    simp only [wordSub]
    omega
  rw [headerDiff, hminus]
  rfl

/-- A break where it has been asked for is far enough, even if the sum has wrapped. -/
theorem headerDiff_request {p wanted : ℕ} (hword : p < 2 ^ 32)
    (hwanted : 4 * wanted < 2 ^ 32) :
    wanted ≤ headerDiff (wordSub (wordAdd p (4 * (wanted + 1))) 4) p := by
  have hbytes : wordSub (wordSub (wordAdd p (4 * (wanted + 1))) 4) p = 4 * wanted := by
    simp only [wordSub, wordAdd]
    omega
  simp only [headerDiff, hbytes]
  split <;> omega

/-- What growing the heap comes to, by the answer of the kernel. -/
theorem mallocGrow_cases (state : MallocState) (p wanted : ℕ) (grants : Bool)
    (place : ℕ) (hplace : (if wordAdd state.mallocLast 4 = p then state.mallocLast
      else p) = place) (answer : KernelBrk × ℕ)
    (hanswer : sysBrk state.kernel (wordAdd place (4 * (wanted + 1))) grants = answer) :
    (isErr p ∨ isErr answer.2 ∨ headerDiff (wordSub answer.2 4) place < wanted) ∧
        (mallocGrow state p wanted grants).IsFatal ∨
      ¬ isErr p ∧ ¬ isErr answer.2 ∧ wanted ≤ headerDiff (wordSub answer.2 4) place ∧
        ∃ after, mallocGrow state p wanted grants = .returned after (wordAdd place 4) ∧
          after.kernel = answer.1 := by
  rw [mallocGrow]
  split
  · next herr => exact .inl ⟨.inl herr, trivial⟩
  · next herr =>
    dsimp only
    rw [hplace, hanswer]
    split
    · next hfailed => exact .inl ⟨.inr (.inl hfailed), trivial⟩
    · next hgood =>
      split
      · next hshort => exact .inl ⟨.inr (.inr hshort), trivial⟩
      · next hfar => exact .inr ⟨herr, hgood, Nat.le_of_not_lt hfar, _, rfl, rfl⟩

end Call

/-! ## Every state of a run -/

/-- What holds in every run, whatever its calls: the break is an address above the start
of the heap, and so is the end marker once there is one. -/
structure KernelInv (state : HeapState) : Prop where
  start_pos : 0 < state.malloc.kernel.startBrk
  start_le : state.malloc.kernel.startBrk ≤ state.malloc.kernel.brk
  brk_lt : state.malloc.kernel.brk < 2 ^ 32
  marker : state.malloc.mallocP = 0 ∧ state.live = [] ∨ state.malloc.mallocLast < 2 ^ 32

section Invariant

variable {state next : HeapState} {fuel : ℕ}

theorem sysBrk_keeps {kernel : KernelBrk} {request : ℕ} {grants : Bool}
    (hstart : kernel.startBrk ≤ kernel.brk) (hbrk : kernel.brk < 2 ^ 32)
    (hrequest : request < 2 ^ 32) :
    (sysBrk kernel request grants).1.startBrk = kernel.startBrk ∧
      kernel.startBrk ≤ (sysBrk kernel request grants).1.brk ∧
      (sysBrk kernel request grants).1.brk < 2 ^ 32 := by
  simp only [sysBrk]
  refine ⟨trivial, ?_⟩
  split_ifs <;> omega

theorem wordSub_lt (left right : ℕ) : wordSub left right < 2 ^ 32 :=
  Nat.mod_lt _ (by decide)

theorem wordAdd_lt (left right : ℕ) : wordAdd left right < 2 ^ 32 :=
  Nat.mod_lt _ (by decide)

/-- What growing the heap keeps of the break. -/
theorem mallocGrow_kernelInv {malloc after : MallocState} {p wanted blk : ℕ}
    {grants : Bool} (hstart : malloc.kernel.startBrk ≤ malloc.kernel.brk)
    (hbrk : malloc.kernel.brk < 2 ^ 32)
    (hgrow : mallocGrow malloc p wanted grants = .returned after blk) :
    after.kernel.startBrk = malloc.kernel.startBrk ∧
      malloc.kernel.startBrk ≤ after.kernel.brk ∧ after.kernel.brk < 2 ^ 32 ∧
      after.mallocLast < 2 ^ 32 := by
  have hkeeps (place : ℕ) := @sysBrk_keeps malloc.kernel
    (wordAdd place (4 * (wanted + 1))) grants hstart hbrk (wordAdd_lt _ _)
  rw [mallocGrow] at hgrow
  dsimp only at hgrow
  split_ifs at hgrow <;> obtain ⟨rfl, -⟩ := MallocOutcome.returned.inj hgrow
  · obtain ⟨hstartBrk, hle, hlt⟩ := hkeeps malloc.mallocLast
    exact ⟨hstartBrk, hle, hlt, wordSub_lt _ _⟩
  · obtain ⟨hstartBrk, hle, hlt⟩ := hkeeps p
    exact ⟨hstartBrk, hle, hlt, wordSub_lt _ _⟩

theorem ibcsMalloc_kernelInv {after : MallocState} {wanted blk : ℕ} {grants : Bool}
    (hinv : KernelInv state)
    (hreturned : ibcsMalloc fuel state.malloc wanted grants = .returned after blk) :
    after.kernel.startBrk = state.malloc.kernel.startBrk ∧
      state.malloc.kernel.startBrk ≤ after.kernel.brk ∧ after.kernel.brk < 2 ^ 32 ∧
      after.mallocLast < 2 ^ 32 := by
  by_cases hasks : AsksKernel fuel state.malloc wanted
  · obtain ⟨grown, hkernel, -, hgrow⟩ :=
      @ibcsMalloc_of_asks state.malloc fuel wanted grants hinv.start_pos hasks
    rw [hgrow] at hreturned
    rw [← hkernel]
    exact mallocGrow_kernelInv (hkernel ▸ hinv.start_le) (hkernel ▸ hinv.brk_lt) hreturned
  · obtain ⟨hused, hfound⟩ := not_or.1 hasks
    have hlast := hinv.marker.resolve_left fun hfirst => hused hfirst.1
    simp only [ibcsMalloc, if_neg hused] at hreturned
    split at hreturned
    · cases hreturned
    · obtain ⟨rfl, -⟩ := MallocOutcome.returned.inj hreturned
      exact ⟨rfl, hinv.start_le, hinv.brk_lt, hlast⟩
    · next mem hscan => exact absurd ⟨mem, hscan⟩ hfound

theorem FreshHeap.kernelInv {malloc : MallocState} (hfresh : FreshHeap malloc) :
    KernelInv (freshHeap malloc) :=
  ⟨hfresh.start_pos, hfresh.start_le, hfresh.brk_lt, .inl ⟨hfresh.unused, rfl⟩⟩

theorem heapSteppedWith {grants : Bool} {action : HeapAction}
    (hstep : heapStepWith fuel state (grants, action) = some next) :
    HeapStepped fuel grants state action next := by
  cases action with
  | malloc wanted =>
      simp only [heapStepWith] at hstep
      split at hstep
      · next after blk hreturned =>
        obtain rfl := Option.some.inj hstep
        exact .malloc hreturned
      · cases hstep
  | free blk =>
      have hother : heapStep fuel state (.free blk) = some next := hstep
      cases heapStepped hother with
      | free hblk => exact .free hblk
  | store blk index value =>
      have hother : heapStep fuel state (.store blk index value) = some next := hstep
      cases heapStepped hother with
      | store hmem hindex => exact .store hmem hindex
  | moveBrk brk =>
      have hother : heapStep fuel state (.moveBrk brk) = some next := hstep
      cases heapStepped hother with
      | moveBrk hup haligned hword => exact .moveBrk hup haligned hword

theorem kernelInv_step {action : Bool × HeapAction} (hinv : KernelInv state)
    (hstep : heapStepWith fuel state action = some next) : KernelInv next := by
  obtain ⟨grants, action⟩ := action
  cases heapSteppedWith hstep with
  | malloc hreturned =>
      obtain ⟨hstart, hle, hbrk, hlast⟩ := ibcsMalloc_kernelInv hinv hreturned
      exact ⟨hstart.symm ▸ hinv.start_pos, hstart.symm ▸ hle, hbrk, .inr hlast⟩
  | free hmem =>
      have hlast := hinv.marker.resolve_left fun hfirst => by simp [hfirst.2] at hmem
      exact ⟨hinv.start_pos, hinv.start_le, hinv.brk_lt, .inr hlast⟩
  | store => exact ⟨hinv.start_pos, hinv.start_le, hinv.brk_lt, hinv.marker⟩
  | moveBrk hup _ hword =>
      exact ⟨hinv.start_pos, hinv.start_le.trans hup.le, hword, hinv.marker⟩

theorem KernelInv.place_lt (hinv : KernelInv state) :
    growthPlace state.malloc < 2 ^ 32 := by
  rw [growthPlace]
  split
  · next hbehind => exact hinv.marker.resolve_left fun hfirst => hbehind.1 hfirst.1
  · exact hinv.brk_lt

/-- What a call that asks for memory comes to, by the answer of the kernel. -/
theorem KernelInv.asks_cases (hinv : KernelInv state) {wanted : ℕ} {grants : Bool}
    (hasks : AsksKernel fuel state.malloc wanted) (answer : KernelBrk × ℕ)
    (hanswer : sysBrk state.malloc.kernel (growthRequest state.malloc wanted) grants =
      answer) :
    (isErr state.malloc.kernel.brk ∨ isErr answer.2 ∨
        headerDiff (wordSub answer.2 4) (growthPlace state.malloc) < mallocWanted wanted) ∧
        (ibcsMalloc fuel state.malloc wanted grants).IsFatal ∨
      ¬ isErr state.malloc.kernel.brk ∧ ¬ isErr answer.2 ∧
        mallocWanted wanted ≤
          headerDiff (wordSub answer.2 4) (growthPlace state.malloc) ∧
        ∃ after, ibcsMalloc fuel state.malloc wanted grants =
            .returned after (wordAdd (growthPlace state.malloc) 4) ∧
          after.kernel = answer.1 := by
  obtain ⟨grown, hkernel, hlast, hgrow⟩ :=
    @ibcsMalloc_of_asks state.malloc fuel wanted grants hinv.start_pos hasks
  have hbrk := hinv.brk_lt
  have hplace : (if wordAdd grown.mallocLast 4 = state.malloc.kernel.brk then
      grown.mallocLast else state.malloc.kernel.brk) = growthPlace state.malloc := by
    rw [hlast, growthPlace]
    by_cases hfirst : state.malloc.mallocP = 0
    · have hnot : ¬ BehindMarker state.malloc := fun hbehind => hbehind.1 hfirst
      rw [if_pos hfirst, ite_self, if_neg hnot]
    · rw [if_neg hfirst]
      by_cases hsame : wordAdd state.malloc.mallocLast 4 = state.malloc.kernel.brk
      · have hbehind : BehindMarker state.malloc := ⟨hfirst, hsame⟩
        rw [if_pos hsame, if_pos hbehind]
      · have hnot : ¬ BehindMarker state.malloc := fun hbehind => hsame hbehind.2
        rw [if_neg hsame, if_neg hnot]
  rw [hgrow]
  exact mallocGrow_cases grown _ _ grants _ hplace answer (hkernel ▸ hanswer)

/-- A break that is left where it was is far enough from the new block, unless this
starts at the old end marker. -/
theorem KernelInv.unmoved_iff (hinv : KernelInv state) (wanted : ℕ) :
    headerDiff (wordSub state.malloc.kernel.brk 4) (growthPlace state.malloc) <
        mallocWanted wanted ↔ BehindMarker state.malloc := by
  have hpos := mallocWanted_pos wanted
  have hwanted := mallocWanted_le wanted
  have hplace := hinv.place_lt
  rw [growthPlace] at hplace ⊢
  by_cases hbehind : BehindMarker state.malloc
  · rw [if_pos hbehind] at hplace ⊢
    have hmarker : wordSub state.malloc.kernel.brk 4 = state.malloc.mallocLast := by
      rw [← hbehind.2]
      simp only [wordSub, wordAdd]
      omega
    rw [hmarker, headerDiff_self hplace]
    exact iff_of_true hpos hbehind
  · rw [if_neg hbehind, headerDiff_below hinv.brk_lt]
    exact iff_of_false (by omega) hbehind

/-- A refused call in a state of a run is fatal exactly where the break is no address
that `brk` can return, or stands right behind the end marker. -/
theorem KernelInv.refused_iff (hinv : KernelInv state) {wanted : ℕ} {grants : Bool}
    (hasks : AsksKernel fuel state.malloc wanted)
    (hrefuses : Refuses state.malloc wanted grants) :
    (ibcsMalloc fuel state.malloc wanted grants).IsFatal ↔
      isErr state.malloc.kernel.brk ∨ BehindMarker state.malloc := by
  have hunmoved := hinv.unmoved_iff wanted
  have hcases := @KernelInv.asks_cases state fuel hinv wanted grants hasks _ rfl
  rw [show (sysBrk state.malloc.kernel (growthRequest state.malloc wanted) grants).2 =
    state.malloc.kernel.brk from hrefuses, hunmoved] at hcases
  obtain ⟨hnoticed, hfatal⟩ | ⟨herr, -, hfar, after, hreturned, -⟩ := hcases
  · exact iff_of_true hfatal (hnoticed.elim .inl id)
  · refine iff_of_false ?_ ?_
    · rw [hreturned]
      exact id
    · exact not_or.2 ⟨herr, fun hbehind => Nat.not_lt.2 hfar (hunmoved.2 hbehind)⟩

/-- The kernel moves the break up, leaves it, or moves it down. -/
theorem sysBrk_cases {kernel : KernelBrk} (hstart : kernel.startBrk ≤ kernel.brk)
    (request : ℕ) (grants : Bool) :
    (sysBrk kernel request grants).1.brk = (sysBrk kernel request grants).2 ∧
      ((kernel.brk < request ∧ grants = true) ∧
          (sysBrk kernel request grants).2 = request ∨
        ¬ (kernel.brk < request ∧ grants = true) ∧
          (sysBrk kernel request grants).2 = kernel.brk ∨
        request < kernel.brk ∧ (sysBrk kernel request grants).2 = request) := by
  refine ⟨rfl, ?_⟩
  simp only [sysBrk]
  cases grants with
  | true =>
      simp only [if_true, and_true]
      split_ifs <;> omega
  | false =>
      simp only [Bool.false_eq_true, if_false, and_false, false_and, not_false_eq_true,
        true_and, false_or]
      split_ifs <;> omega

/-- The new block starts at the break or one word above it. -/
theorem growthPlace_cases (herr : ¬ isErr state.malloc.kernel.brk) :
    state.malloc.kernel.brk ≤ wordAdd (growthPlace state.malloc) 4 ∧
      wordAdd (growthPlace state.malloc) 4 ≤ state.malloc.kernel.brk + 4 := by
  have hbrk : state.malloc.kernel.brk ≤ 2 ^ 32 - 4096 :=
    isErr_eq_false_iff.1 (Bool.eq_false_of_not_eq_true herr)
  rw [growthPlace]
  split
  · next hbehind =>
    rw [hbehind.2]
    omega
  · simp only [wordAdd]
    omega

/-- A block whose break has been moved up to where it was asked for lies below it. -/
theorem KernelInv.block_below (hinv : KernelInv state) {wanted : ℕ}
    (hwanted : wanted ≤ 0x7fffffff) (herr : ¬ isErr state.malloc.kernel.brk)
    (habove : state.malloc.kernel.brk < growthRequest state.malloc wanted) :
    wordAdd (growthPlace state.malloc) 4 + wanted ≤ growthRequest state.malloc wanted := by
  have hroom := mallocWanted_room (show wanted + 3 < 2 ^ 32 by omega)
  have hless : 4 * mallocWanted wanted < 2 ^ 32 - 8 := by
    simp only [mallocWanted, wordAdd]
    omega
  have hblock := growthPlace_cases herr
  have hplace := hinv.place_lt
  rw [growthRequest] at habove ⊢
  simp only [wordAdd] at habove hblock ⊢
  omega

/-- A call that asks for memory ends in a refusal or returns a block below the break
exactly if it meets the condition. -/
theorem KernelInv.growth_iff (hinv : KernelInv state) {wanted : ℕ} {grants : Bool}
    (hwanted : wanted ≤ 0x7fffffff) (hasks : AsksKernel fuel state.malloc wanted) :
    (RefusalEnds fuel state.malloc wanted grants ∧
        BelowBreak fuel state.malloc wanted grants) ↔
      GrowthMeets state.malloc wanted grants := by
  have hunmoved := hinv.unmoved_iff wanted
  have hless : 4 * mallocWanted wanted < 2 ^ 32 := by
    simp only [mallocWanted, wordAdd]
    omega
  have hfar := headerDiff_request hinv.place_lt hless
  obtain ⟨hafter, hmoved⟩ := sysBrk_cases hinv.start_le
    (growthRequest state.malloc wanted) grants
  obtain ⟨hnoticed, hfatal⟩ | ⟨herr, -, hplenty, after, hreturned, hkernel⟩ :=
    @KernelInv.asks_cases state fuel hinv wanted grants hasks _ rfl
  · refine iff_of_true ⟨fun _ _ => hfatal, fun after blk hreturned => ?_⟩ ?_
    · rw [hreturned] at hfatal
      exact hfatal.elim
    · by_cases herr : isErr state.malloc.kernel.brk
      · exact .inl herr
      obtain ⟨hup, -⟩ | ⟨-, hleft⟩ | ⟨hdown, hrequest⟩ := hmoved
      · exact .inr (.inl hup)
      · rw [hleft, hunmoved] at hnoticed
        exact .inr (.inr ⟨(hnoticed.resolve_left herr).resolve_left herr, hleft⟩)
      · rw [hrequest] at hnoticed
        refine absurd ((hnoticed.resolve_left herr).resolve_right (Nat.not_lt.2 hfar)) ?_
        rw [Bool.not_eq_true, isErr_eq_false_iff] at herr ⊢
        omega
  · have hbelow : BelowBreak fuel state.malloc wanted grants ↔
        wordAdd (growthPlace state.malloc) 4 + wanted ≤ after.kernel.brk := by
      constructor
      · exact fun hbelow => hbelow after _ hreturned
      · intro hle after' blk' hreturned'
        obtain ⟨rfl, rfl⟩ := MallocOutcome.returned.inj (hreturned.symm.trans hreturned')
        exact hle
    rw [hbelow, hkernel, hafter]
    obtain ⟨hup, hrequest⟩ | ⟨hnot, hleft⟩ | ⟨hdown, hrequest⟩ := hmoved
    · refine iff_of_true ⟨fun _ hrefuses => ?_, ?_⟩ (.inr (.inl hup))
      · exact absurd (hrefuses.symm.trans hrequest) hup.1.ne
      · rw [hrequest]
        exact hinv.block_below hwanted herr hup.1
    · refine iff_of_false (fun hboth => ?_) ?_
      · have hfatal := hboth.1 hasks hleft
        rw [hreturned] at hfatal
        exact hfatal
      · rw [hleft] at hplenty
        rintro (herr' | hup | hbehind)
        · exact herr herr'
        · exact hnot hup
        · exact Nat.not_lt.2 hplenty (hunmoved.2 hbehind.1)
    · have hblock := growthPlace_cases herr
      refine iff_of_false (fun hboth => ?_) ?_
      · have hle := hboth.2
        rw [hrequest] at hle
        omega
      · rintro (herr' | hup | hbehind)
        · exact herr herr'
        · omega
        · exact hdown.ne (hrequest.symm.trans hbehind.2)

/-! ## Blocks below the break -/

theorem HeapInv.kernelInv {blocks : List ℕ} (hinv : HeapInv state blocks) :
    KernelInv state := by
  have hlast := hinv.last_lt
  have hbelow := hinv.below
  have hstart := hinv.start_le
  have hfirst := hinv.chained.first_le hinv.chained.last_mem
  exact ⟨hinv.start_pos, by omega, hinv.brk_lt, .inr (by omega)⟩

/-- A request that grows a heap in use asks for a break above the old one. -/
theorem HeapInv.refuses {blocks : List ℕ} (hinv : HeapInv state blocks) {wanted : ℕ}
    (hmeets : MallocMeets state.malloc wanted)
    (hasks : AsksKernel fuel state.malloc wanted) :
    BehindMarker state.malloc ∧ Refuses state.malloc wanted false := by
  obtain ⟨mem, hscan⟩ := hasks.resolve_left hinv.mallocP_ne
  obtain ⟨hbrk, hroom⟩ := hinv.grow_room hmeets hscan
  have hpos := mallocWanted_pos wanted
  have hstart := hinv.kernelInv.start_le
  have hbehind : BehindMarker state.malloc := by
    refine ⟨hinv.mallocP_ne, ?_⟩
    rw [hbrk, wordAdd, Nat.mod_eq_of_lt hinv.last_lt]
  refine ⟨hbehind, ?_⟩
  have hrequest : growthRequest state.malloc wanted =
      state.malloc.mallocLast + 4 * (mallocWanted wanted + 1) := by
    rw [growthRequest, growthPlace, if_pos hbehind, wordAdd, Nat.mod_eq_of_lt hroom]
  have hlow : ¬ growthRequest state.malloc wanted < state.malloc.kernel.startBrk := by
    omega
  have hhigh : ¬ growthRequest state.malloc wanted ≤ state.malloc.kernel.brk := by
    omega
  simp only [Refuses, sysBrk, if_neg hlow, if_neg hhigh, Bool.false_eq_true, if_false]

/-- A call that returns although the kernel grants nothing has found its block. -/
theorem ibcsMalloc_without_grant {wanted blk : ℕ} {after : MallocState} {grants : Bool}
    (hready : HeapReady state) (hmeets : GrantMeets state (grants, .malloc wanted))
    (hreturned : ibcsMalloc fuel state.malloc wanted grants = .returned after blk) :
    ibcsMalloc fuel state.malloc wanted true = .returned after blk := by
  cases grants with
  | true => exact hreturned
  | false =>
      have hused : state.malloc.mallocP ≠ 0 := fun hfirst =>
        Bool.false_ne_true (hmeets.2 wanted rfl hfirst)
      obtain ⟨hfresh, -⟩ | ⟨blocks, hinv⟩ := hready
      · exact absurd hfresh.unused hused
      by_cases hasks : AsksKernel fuel state.malloc wanted
      · obtain ⟨hbehind, hrefuses⟩ := hinv.refuses hmeets.1 hasks
        have hfatal := (hinv.kernelInv.refused_iff hasks hrefuses).2 (.inr hbehind)
        rw [hreturned] at hfatal
        exact hfatal.elim
      · obtain ⟨-, hfound⟩ := not_or.1 hasks
        simp only [ibcsMalloc, if_neg hused] at hreturned ⊢
        split at hreturned
        · cases hreturned
        · exact hreturned
        · next mem hscan => exact absurd ⟨mem, hscan⟩ hfound

/-- A step of such a run is one that the kernel grants. -/
theorem heapStepWith_granted {action : Bool × HeapAction} (hready : HeapReady state)
    (hmeets : GrantMeets state action)
    (hstep : heapStepWith fuel state action = some next) :
    heapStep fuel state action.2 = some next := by
  obtain ⟨grants, action⟩ := action
  cases action with
  | malloc wanted =>
      cases heapSteppedWith hstep with
      | malloc hreturned =>
          simp only [heapStep, ibcsMalloc_without_grant hready hmeets hreturned]
  | free blk => exact hstep
  | store blk index value => exact hstep
  | moveBrk brk => exact hstep

theorem heapReady_stepWith {action : Bool × HeapAction} (hready : HeapReady state)
    (hmeets : GrantMeets state action)
    (hstep : heapStepWith fuel state action = some next) : HeapReady next :=
  heapReady_step hready hmeets.1 (heapStepWith_granted hready hmeets hstep)

/-- The block that a request returns lies below the break. -/
theorem HeapReady.belowBreak (hready : HeapReady state) {wanted : ℕ} {grants : Bool}
    (hmeets : GrantMeets state (grants, .malloc wanted))
    (hwanted : wanted + 3 < 2 ^ 32) :
    BelowBreak fuel state.malloc wanted grants := by
  intro after blk hreturned
  have hstep : heapStepWith fuel state (grants, .malloc wanted) = some
      ⟨after, (blk, wanted) :: state.live,
        (state.malloc.kernel.brk, after.kernel.brk) :: state.obtained⟩ := by
    simp only [heapStepWith, hreturned]
  obtain ⟨-, hlive⟩ | ⟨blocks, hinv⟩ := heapReady_stepWith hready hmeets hstep
  · cases hlive
  · obtain ⟨p, hp, -, -, -, hsize⟩ := hinv.live (blk, wanted) List.mem_cons_self
    have hend := hinv.chained.le_last (hinv.chained.next_mem hp)
    exact (hsize hwanted).trans (hend.trans ((Nat.le_add_right _ _).trans hinv.below))

end Invariant

/-- In every state of a run, a call that asks for memory ends in a refusal or returns a
block below the break exactly if it meets the condition; and in a run whose requests keep
the chain, every block returned lies below the break, those that are found as well. -/
theorem ibcsMalloc_refused_iff {malloc : MallocState} (hfresh : FreshHeap malloc)
    {fuel : ℕ} {actions : List (Bool × HeapAction)} {final : HeapState}
    (hrun : run (heapStepWith fuel) (freshHeap malloc) actions = some final)
    {wanted : ℕ} (hwanted : wanted ≤ 0x7fffffff) (grants : Bool) :
    (AsksKernel fuel final.malloc wanted →
      ((RefusalEnds fuel final.malloc wanted grants ∧
          BelowBreak fuel final.malloc wanted grants) ↔
        GrowthMeets final.malloc wanted grants)) ∧
    (StepsMeet (heapStepWith fuel) GrantMeets (freshHeap malloc) actions →
      GrantMeets final (grants, .malloc wanted) →
      BelowBreak fuel final.malloc wanted grants) := by
  have hinv : KernelInv final := invariant_run
    (fun _ _ _ hinv hstep => kernelInv_step hinv hstep) hfresh.kernelInv hrun
  constructor
  · exact fun hasks => hinv.growth_iff hwanted hasks
  · intro hmeet hmeets
    have hready : HeapReady final := invariant_run_of_stepsMeet
      (fun _ _ _ hready hmeets hstep => heapReady_stepWith hready hmeets hstep)
      (heapReady_fresh hfresh) hmeet hrun
    exact hready.belowBreak hmeets (by omega)

/-- A process that has allocated a block asks for another one and gets no memory. -/
theorem ibcsMalloc_refused_second :
    ∃ final, run (heapStepWith 10) (freshHeap bareHeap) [(true, .malloc 4)] =
        some final ∧ RefusalEnds 10 final.malloc 4 false := by
  have hbehind : (run (heapStepWith 10) (freshHeap bareHeap) [(true, .malloc 4)]).map
      (fun state => decide (BehindMarker state.malloc ∧ Refuses state.malloc 4 false)) =
      some true := by
    decide +kernel
  obtain ⟨final, hrun, hnoticed⟩ := Option.map_eq_some_iff.mp hbehind
  refine ⟨final, hrun, fun hasks hrefuses => ?_⟩
  have hmeets : GrowthMeets final.malloc 4 false :=
    .inr (.inr (of_decide_eq_true hnoticed))
  exact (((ibcsMalloc_refused_iff bareHeap_fresh hrun (by decide) false).1 hasks).2
    hmeets).1 hasks hrefuses

/-- The first request of a process is refused, and returns the word above the break. -/
theorem first_refusal_returns :
    ¬ RefusalEnds 0 bareHeap 4 false ∧ ¬ BelowBreak 0 bareHeap 4 false := by
  have hreturned : ∃ after, ibcsMalloc 0 bareHeap 4 false = .returned after 0x8050004 ∧
      after.kernel.brk = 0x8050000 := by
    simp [ibcsMalloc, bareHeap, sysBrk, mallocGrow, mallocWanted, wordAdd, wordSub,
      headerDiff, isErr]
  obtain ⟨after, hafter, hbrk⟩ := hreturned
  constructor
  · intro hends
    have hfatal := hends (.inl rfl) (by decide +kernel)
    rw [hafter] at hfatal
    exact hfatal
  · intro hbelow
    have hle := hbelow after 0x8050004 hafter
    rw [hbrk] at hle
    exact absurd hle (by decide)

end IbcsUs.Memory
