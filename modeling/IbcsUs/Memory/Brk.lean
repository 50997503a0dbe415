import IbcsUs.Core.Runs
import IbcsUs.Memory.Word

/-!
# The emulated program break

The break of the emulated program is not the kernel's break: `init_brk` finds or
creates an anonymous mapping and `linux26_brk` resizes that mapping with
`mremap`.  The record of the mapping in `struct mm_struct` and the mapping the
kernel holds are separate pieces of state here, so that the two can disagree.
-/

namespace IbcsUs.Memory

open IbcsUs.Runs

/-- The fields of `struct mm_struct` that the break emulation reads and
writes. -/
structure MmStruct where
  brk : ℕ
  ibcsBrkMmapAddr : ℕ
  ibcsBrkMmapMax : ℕ
  ibcsBrkMmapMin : ℕ
  ibcsBssMmapAddr : ℕ
  ibcsBssMmapLen : ℕ
  ibcsHighMmapAddr : ℕ
  ibcsHighMmapLen : ℕ
  deriving DecidableEq

/-- A range of mapped addresses, as the kernel holds it. -/
structure Mapping where
  addr : ℕ
  len : ℕ
  deriving DecidableEq

/-- The emulator's record, the kernel's heap mapping and the number of `mremap`
requests made so far. -/
structure BrkState where
  mm : MmStruct
  mapping : Mapping
  mremaps : ℕ
  deriving DecidableEq

/-- The kernel's `mremap` without `MREMAP_MAYMOVE`: a granted request resizes
the mapping in place and returns its address, a refused one changes nothing. -/
def mremap (state : BrkState) (oldAddress newSize : ℕ) (answer : KernelAnswer) :
    BrkState × ℕ :=
  match answer with
  | .granted =>
      ({ state with
          mapping := ⟨oldAddress, newSize⟩
          mremaps := state.mremaps + 1 }, oldAddress)
  | .refused errno =>
      ({ state with mremaps := state.mremaps + 1 }, errno.word)

/-- `do_brk`.  After the `mremap` it tests its own argument `addr` for an error
value, not the address `mremap` returned. -/
def doBrk (state : BrkState) (addr len : ℕ) (answer : KernelAnswer) :
    BrkState × ℕ :=
  let mm := state.mm
  let newBrkEnd := pageAlign (wordAdd addr len)
  if newBrkEnd ≠ mm.ibcsBrkMmapMax then
    if newBrkEnd < mm.ibcsBrkMmapMin then
      (state, enomem.word)
    else
      let newBrkEnd :=
        if newBrkEnd = mm.ibcsBrkMmapMin then
          pageAlign (wordAdd mm.ibcsBrkMmapMin 1)
        else newBrkEnd
      let (remapped, newAddr) :=
        mremap state mm.ibcsBrkMmapAddr
          (wordSub newBrkEnd mm.ibcsBrkMmapAddr) answer
      if isErr addr then
        (remapped, newAddr)
      else
        ({ remapped with
            mm := { remapped.mm with ibcsBrkMmapMax := newBrkEnd } }, addr)
  else (state, addr)

/-- `mm->brk = new_brk`. -/
def BrkState.setBrk (state : BrkState) (newBrk : ℕ) : BrkState :=
  { state with mm := { state.mm with brk := newBrk } }

/-- `linux26_brk`. -/
def linux26Brk (state : BrkState) (newBrk : ℕ) (answer : KernelAnswer) :
    BrkState × ℕ :=
  if newBrk < state.mm.ibcsBrkMmapMin then
    (state, enomem.word)
  else
    let newBrkPage := pageAlign newBrk
    let oldBrkPage := pageAlign state.mm.brk
    if newBrkPage ≠ oldBrkPage then
      let (resized, retval) :=
        doBrk state oldBrkPage (wordSub newBrkPage oldBrkPage) answer
      if isErr retval then
        (resized, retval)
      else (resized.setBrk newBrk, newBrk)
    else (state.setBrk newBrk, newBrk)

/-- The highest mapping of the loaded program is its `.bss`. -/
def MmStruct.HighestIsBss (mm : MmStruct) : Prop :=
  0 < mm.ibcsHighMmapLen ∧ mm.ibcsBssMmapAddr = mm.ibcsHighMmapAddr

instance (mm : MmStruct) : Decidable mm.HighestIsBss :=
  inferInstanceAs (Decidable (_ ∧ _))

/-- The part of `init_brk` that takes over the mapping the loader made for
`.bss`, which covers whole pages, or asks the kernel for a page at the break.
Also the messages it logs. -/
def initBrkMmap (mm : MmStruct) (answer : KernelAnswer) :
    BrkState × List String :=
  if mm.HighestIsBss then
    let addr := pageMask mm.ibcsBssMmapAddr
    let max := pageAlign (wordAdd mm.ibcsBssMmapAddr mm.ibcsBssMmapLen)
    (BrkState.mk
      { mm with
        ibcsBrkMmapAddr := addr
        ibcsBrkMmapMax := max
        ibcsBrkMmapMin := mm.brk }
      ⟨addr, wordSub max addr⟩ 0, [])
  else
    let newAddr := pageAlign mm.brk
    match answer with
    | .granted =>
        (BrkState.mk
          { mm with
            ibcsBrkMmapAddr := newAddr
            ibcsBrkMmapMax := wordAdd newAddr 4096
            ibcsBrkMmapMin := newAddr }
          ⟨newAddr, 4096⟩ 0, [])
    | .refused _ => (BrkState.mk mm ⟨0, 0⟩ 0, ["Can not allocate heap"])

/-- `init_brk`, with the kernel's answer to the `do_mmap` it may make and the
messages it logs. -/
def initBrk (mm : MmStruct) (answer : KernelAnswer) : BrkState × List String :=
  let (state, messages) := initBrkMmap mm answer
  if state.mm.brk < state.mm.ibcsBrkMmapMin ∨
      state.mm.ibcsBrkMmapMax ≤ state.mm.brk then
    (state, messages ++ ["mm->brk does not lie within mmap"])
  else (state, messages)

/-! ## The record and the kernel -/

/-- The kernel has mapped exactly the range the emulator has recorded, and the
break lies in the part of it that is the program's. -/
structure BrkAgrees (state : BrkState) : Prop where
  addr_le_max : state.mm.ibcsBrkMmapAddr ≤ state.mm.ibcsBrkMmapMax
  mapping_eq : state.mapping =
    ⟨state.mm.ibcsBrkMmapAddr,
      state.mm.ibcsBrkMmapMax - state.mm.ibcsBrkMmapAddr⟩
  min_le_brk : state.mm.ibcsBrkMmapMin ≤ state.mm.brk
  brk_le_max : state.mm.brk ≤ state.mm.ibcsBrkMmapMax

/-- What every call keeps while the kernel grants what it is asked: agreement,
and the page geometry that makes the three roundings of the code coincide. -/
structure BrkInv (state : BrkState) : Prop extends BrkAgrees state where
  addr_aligned : state.mm.ibcsBrkMmapAddr % 4096 = 0
  max_aligned : state.mm.ibcsBrkMmapMax % 4096 = 0
  max_word : state.mm.ibcsBrkMmapMax < 2 ^ 32
  addr_le_min : state.mm.ibcsBrkMmapAddr ≤ state.mm.ibcsBrkMmapMin
  min_lt_max : state.mm.ibcsBrkMmapMin < state.mm.ibcsBrkMmapMax

/-- The states `init_brk` leaves when it has nothing to complain about.  A
loader that mapped the `.bss` last has set the break at its end, so not below
it. -/
def BrkReady (state : BrkState) : Prop :=
  ∃ mm answer, mm.brk < 2 ^ 32 ∧
    (mm.HighestIsBss → mm.ibcsBssMmapAddr ≤ mm.brk) ∧
    initBrk mm answer = (state, [])

theorem initBrk_state (mm : MmStruct) (answer : KernelAnswer) :
    (initBrk mm answer).1 = (initBrkMmap mm answer).1 := by
  simp only [initBrk]
  split <;> rfl

/-- `init_brk` stays silent only when it got its mapping and the break lies in
it. -/
theorem initBrk_silent {mm : MmStruct} {answer : KernelAnswer}
    {state : BrkState} (hinit : initBrk mm answer = (state, [])) :
    initBrkMmap mm answer = (state, []) ∧
      state.mm.ibcsBrkMmapMin ≤ state.mm.brk ∧
      state.mm.brk < state.mm.ibcsBrkMmapMax := by
  simp only [initBrk] at hinit
  split at hinit
  · simp at hinit
  · next hrange =>
    push Not at hrange
    obtain ⟨rfl, hmessages⟩ := Prod.mk.inj hinit
    exact ⟨Prod.ext rfl hmessages, hrange⟩

theorem BrkReady.inv {state : BrkState} (hready : BrkReady state) :
    BrkInv state := by
  obtain ⟨mm, answer, hword, hloader, hinit⟩ := hready
  obtain ⟨hmmap, hmin, hmax⟩ := initBrk_silent hinit
  simp only [initBrkMmap] at hmmap
  split at hmmap
  -- the heap takes over the `.bss` mapping
  · next hhighest =>
    have hbss := hloader hhighest
    obtain ⟨rfl, -⟩ := Prod.mk.inj hmmap
    have hlt := pageAlign_lt (wordAdd mm.ibcsBssMmapAddr mm.ibcsBssMmapLen)
    have hmod := pageAlign_mod (wordAdd mm.ibcsBssMmapAddr mm.ibcsBssMmapLen)
    have hmask : pageMask mm.ibcsBssMmapAddr ≤ mm.ibcsBssMmapAddr := by
      simp only [pageMask]
      omega
    simp only at hmin hmax
    have hsize : pageMask mm.ibcsBssMmapAddr ≤
        pageAlign (wordAdd mm.ibcsBssMmapAddr mm.ibcsBssMmapLen) := by
      omega
    exact {
      addr_le_max := hsize
      mapping_eq := by simp only [wordSub_of_le hsize hlt]
      min_le_brk := le_rfl
      brk_le_max := by simp only; omega
      addr_aligned := by simp [pageMask]
      max_aligned := hmod
      max_word := hlt
      addr_le_min := by simp only; omega
      min_lt_max := hmax }
  -- a fresh page at the break
  · cases answer with
    | refused errno => simp at hmmap
    | granted =>
        obtain ⟨rfl, -⟩ := Prod.mk.inj hmmap
        have hmod := pageAlign_mod mm.brk
        have hlt := pageAlign_lt mm.brk
        simp only at hmin hmax
        have hsum : wordAdd (pageAlign mm.brk) 4096 =
            pageAlign mm.brk + 4096 := by
          simp only [wordAdd] at hmax ⊢
          omega
        rw [hsum] at hmax
        exact {
          addr_le_max := by simp only [hsum]; omega
          mapping_eq := by simp [hsum]
          min_le_brk := hmin
          brk_le_max := by simp only [hsum]; omega
          addr_aligned := hmod
          max_aligned := by simp only [hsum]; omega
          max_word := by simp only [wordAdd]; omega
          addr_le_min := le_rfl
          min_lt_max := by simp only [hsum]; omega }

/-! ## One call -/

/-- The call gets as far as asking the kernel for an `mremap`. -/
def Remaps (mm : MmStruct) (newBrk : ℕ) : Prop :=
  mm.ibcsBrkMmapMin ≤ newBrk ∧ pageAlign newBrk ≠ pageAlign mm.brk ∧
    pageAlign newBrk ≠ mm.ibcsBrkMmapMax ∧
    mm.ibcsBrkMmapMin ≤ pageAlign newBrk

/-- The end of the mapping that call asks for. -/
def remapEnd (mm : MmStruct) (newBrk : ℕ) : ℕ :=
  if pageAlign newBrk = mm.ibcsBrkMmapMin then
    pageAlign (wordAdd mm.ibcsBrkMmapMin 1)
  else pageAlign newBrk

theorem pageAlign_wordAdd_wordSub (newBrk oldBrk : ℕ) :
    pageAlign (wordAdd (pageAlign oldBrk)
      (wordSub (pageAlign newBrk) (pageAlign oldBrk))) = pageAlign newBrk := by
  have hnew := pageAlign_lt newBrk
  have hold := pageAlign_lt oldBrk
  have hsum : wordAdd (pageAlign oldBrk)
      (wordSub (pageAlign newBrk) (pageAlign oldBrk)) = pageAlign newBrk := by
    simp only [wordAdd, wordSub]
    omega
  rw [hsum, pageAlign_of_aligned (pageAlign_mod newBrk) hnew]

/-- A call that remaps never sees the kernel's refusal: the value `do_brk` tests
is page aligned and so never an error. -/
theorem linux26Brk_of_remaps {state : BrkState} {newBrk : ℕ}
    (answer : KernelAnswer) (hremaps : Remaps state.mm newBrk) :
    linux26Brk state newBrk answer =
      (BrkState.mk
        { state.mm with
          brk := newBrk
          ibcsBrkMmapMax := remapEnd state.mm newBrk }
        (match answer with
          | .granted => ⟨state.mm.ibcsBrkMmapAddr,
              wordSub (remapEnd state.mm newBrk) state.mm.ibcsBrkMmapAddr⟩
          | .refused _ => state.mapping)
        (state.mremaps + 1), newBrk) := by
  obtain ⟨hmin, hpages, hmax, hend⟩ := hremaps
  have herr : isErr (pageAlign state.mm.brk) = false :=
    isErr_pageAligned (pageAlign_mod _) (pageAlign_lt _)
  rw [linux26Brk, if_neg (Nat.not_lt.mpr hmin)]
  simp only [if_pos hpages, doBrk, pageAlign_wordAdd_wordSub, if_pos hmax,
    if_neg (Nat.not_lt.mpr hend)]
  cases answer <;> simp [mremap, herr, remapEnd, BrkState.setBrk]

/-- Every other call either fails without a trace or only moves the break inside
the pages already mapped. -/
theorem linux26Brk_of_not_remaps {state : BrkState} {newBrk : ℕ}
    (answer : KernelAnswer) (hremaps : ¬ Remaps state.mm newBrk) :
    linux26Brk state newBrk answer =
      if state.mm.ibcsBrkMmapMin ≤ newBrk ∧
          (pageAlign newBrk = pageAlign state.mm.brk ∨
            pageAlign newBrk = state.mm.ibcsBrkMmapMax) then
        (state.setBrk newBrk, newBrk)
      else (state, enomem.word) := by
  rw [linux26Brk]
  by_cases hmin : newBrk < state.mm.ibcsBrkMmapMin
  · rw [if_pos hmin, if_neg (by omega)]
  rw [if_neg hmin]
  have hmin' := Nat.not_lt.mp hmin
  by_cases hpages : pageAlign newBrk = pageAlign state.mm.brk
  · simp [hpages, hmin']
  have herr : isErr (pageAlign state.mm.brk) = false :=
    isErr_pageAligned (pageAlign_mod _) (pageAlign_lt _)
  simp only [if_pos hpages, doBrk, pageAlign_wordAdd_wordSub]
  by_cases hmax : pageAlign newBrk = state.mm.ibcsBrkMmapMax
  · simp [hmax, not_lt.mp hmin, herr]
  have hend : pageAlign newBrk < state.mm.ibcsBrkMmapMin := by
    by_contra hend
    exact hremaps ⟨hmin', hpages, hmax, Nat.not_lt.mp hend⟩
  simp [hpages, hmax, hend, isErr_errno_word]

/-! ## Whole runs -/

/-- One request of the emulated program, with the kernel's answer should the
emulator ask it for an `mremap`. -/
structure BrkCall where
  newBrk : BitVec 32
  answer : KernelAnswer
  deriving DecidableEq

/-- The state after a request. -/
def brkStep (state : BrkState) (call : BrkCall) : Option BrkState :=
  some (linux26Brk state call.newBrk.toNat call.answer).1

/-- A request whose `mremap` the kernel refused fails, and leaves the break and
the recorded end of the mapping alone. -/
def RefusalReported (state : BrkState) (call : BrkCall) : Prop :=
  let outcome := linux26Brk state call.newBrk.toNat call.answer
  outcome.1.mremaps ≠ state.mremaps → call.answer ≠ .granted →
    isErr outcome.2 ∧ outcome.1.mm.brk = state.mm.brk ∧
      outcome.1.mm.ibcsBrkMmapMax = state.mm.ibcsBrkMmapMax

/-- The requests the emulation gets right: the kernel grants the `mremap` if one
is made, and a heap that starts at address zero is not asked for a break in the
last page of memory, where `PAGE_ALIGN` wraps. -/
def BrkCallMeets (state : BrkState) (call : BrkCall) : Prop :=
  (Remaps state.mm call.newBrk.toNat → call.answer = .granted) ∧
    (state.mm.ibcsBrkMmapMin = 0 → call.newBrk.toNat ≤ 2 ^ 32 - 4096)

/-- The mapping a granted request asks for ends above the lower bound of the
break, on a page boundary, and not below the new break. -/
theorem remapEnd_bounds {state : BrkState} (hinv : BrkInv state) {newBrk : ℕ}
    (hlow : newBrk ≤ 2 ^ 32 - 4096) (hremaps : Remaps state.mm newBrk) :
    state.mm.ibcsBrkMmapMin < remapEnd state.mm newBrk ∧
      newBrk ≤ remapEnd state.mm newBrk ∧
      remapEnd state.mm newBrk % 4096 = 0 ∧
      remapEnd state.mm newBrk < 2 ^ 32 := by
  obtain ⟨hmin, -, -, hend⟩ := hremaps
  have hnew := pageAlign_bounds hlow
  have hmax := hinv.max_word
  have hlt := hinv.min_lt_max
  have hmaxAligned := hinv.max_aligned
  simp only [remapEnd]
  split
  · next heq =>
    have hsucc : wordAdd state.mm.ibcsBrkMmapMin 1 =
        state.mm.ibcsBrkMmapMin + 1 := by
      simp only [wordAdd]
      omega
    have hmod := pageAlign_mod newBrk
    have hbound : state.mm.ibcsBrkMmapMin + 1 ≤ 2 ^ 32 - 4096 := by omega
    have hnext := pageAlign_bounds hbound
    have hnextMod := pageAlign_mod (state.mm.ibcsBrkMmapMin + 1)
    have hnextLt := pageAlign_lt (state.mm.ibcsBrkMmapMin + 1)
    rw [hsucc]
    omega
  · have hmod := pageAlign_mod newBrk
    have hword := pageAlign_lt newBrk
    omega

/-- A request that reaches the kernel does not ask for a break in the last page,
unless the heap starts at address zero. -/
theorem newBrk_low_of_remaps {mm : MmStruct} {newBrk : ℕ}
    (hword : newBrk < 2 ^ 32) (hremaps : Remaps mm newBrk)
    (hzero : mm.ibcsBrkMmapMin = 0 → newBrk ≤ 2 ^ 32 - 4096) :
    newBrk ≤ 2 ^ 32 - 4096 := by
  by_contra hhigh
  have hwrap := pageAlign_high (by omega) hword
  obtain ⟨-, -, -, hend⟩ := hremaps
  rw [hwrap] at hend
  exact hhigh (hzero (by omega))

theorem brkStep_inv {state after : BrkState} {call : BrkCall}
    (hinv : BrkInv state) (hmeets : BrkCallMeets state call)
    (hstep : brkStep state call = some after) : BrkInv after := by
  obtain ⟨hgranted, hzero⟩ := hmeets
  have hword := call.newBrk.isLt
  simp only [brkStep, Option.some.injEq] at hstep
  by_cases hremaps : Remaps state.mm call.newBrk.toNat
  · have hlow := newBrk_low_of_remaps hword hremaps hzero
    obtain ⟨hmin, hbrk, hmod, hend⟩ := remapEnd_bounds hinv hlow hremaps
    have haddr := hinv.addr_le_min
    have hsize : state.mm.ibcsBrkMmapAddr ≤
        remapEnd state.mm call.newBrk.toNat := by
      omega
    rw [linux26Brk_of_remaps _ hremaps, hgranted hremaps] at hstep
    subst hstep
    exact {
      addr_le_max := hsize
      mapping_eq := by simp only [wordSub_of_le hsize hend]
      min_le_brk := hremaps.1
      brk_le_max := hbrk
      addr_aligned := hinv.addr_aligned
      max_aligned := hmod
      max_word := hend
      addr_le_min := haddr
      min_lt_max := hmin }
  · rw [linux26Brk_of_not_remaps _ hremaps] at hstep
    split at hstep
    · next hpage =>
      subst hstep
      have hle : call.newBrk.toNat ≤ state.mm.ibcsBrkMmapMax := by
        have hmax := hinv.max_word
        have haligned := hinv.max_aligned
        have hbrk := hinv.brk_le_max
        have hold := pageAlign_bounds (by omega :
          state.mm.brk ≤ 2 ^ 32 - 4096)
        have holdMod := pageAlign_mod state.mm.brk
        by_cases hhigh : call.newBrk.toNat ≤ 2 ^ 32 - 4096
        · have hnew := pageAlign_bounds hhigh
          rcases hpage.2 with heq | heq <;> omega
        · have hwrap := pageAlign_high (by omega) hword
          have hlt := hinv.min_lt_max
          have hmin := hinv.min_le_brk
          exact absurd (hzero (by omega)) hhigh
      exact {
        addr_le_max := hinv.addr_le_max
        mapping_eq := hinv.mapping_eq
        min_le_brk := hpage.1
        brk_le_max := hle
        addr_aligned := hinv.addr_aligned
        max_aligned := hinv.max_aligned
        max_word := hinv.max_word
        addr_le_min := hinv.addr_le_min
        min_lt_max := hinv.min_lt_max }
    · exact hstep ▸ hinv

theorem refusalReported_of_meets {state : BrkState} {call : BrkCall}
    (hmeets : BrkCallMeets state call) : RefusalReported state call := by
  simp only [RefusalReported]
  by_cases hremaps : Remaps state.mm call.newBrk.toNat
  · intro _ hrefused
    exact absurd (hmeets.1 hremaps) hrefused
  · rw [linux26Brk_of_not_remaps _ hremaps]
    intro hcount
    split at hcount <;> exact absurd rfl hcount

/-- A request the emulation does not get right either hides the kernel's refusal
or leaves the break outside the mapping. -/
theorem brkCallMeets_of_agrees {state : BrkState} {call : BrkCall}
    (hinv : BrkInv state) (hreported : RefusalReported state call)
    (hnext : ∀ after, brkStep state call = some after → BrkAgrees after) :
    BrkCallMeets state call := by
  have hword := call.newBrk.isLt
  have hagrees := hnext _ rfl
  have hmax := hinv.max_word
  have haligned := hinv.max_aligned
  have hlow : state.mm.ibcsBrkMmapMin = 0 →
      call.newBrk.toNat ≤ 2 ^ 32 - 4096 := by
    intro hzero
    by_contra hhigh
    have hwrap : pageAlign call.newBrk.toNat = 0 :=
      pageAlign_high (by omega) hword
    have hbrk := hagrees.brk_le_max
    by_cases hremaps : Remaps state.mm call.newBrk.toNat
    · rw [linux26Brk_of_remaps _ hremaps] at hbrk
      have hend : remapEnd state.mm call.newBrk.toNat = 4096 := by
        rw [remapEnd, hwrap, hzero]
        decide
      simp only [hend] at hbrk
      omega
    · rw [linux26Brk_of_not_remaps _ hremaps] at hbrk
      have hpage : pageAlign call.newBrk.toNat = pageAlign state.mm.brk ∨
          pageAlign call.newBrk.toNat = state.mm.ibcsBrkMmapMax := by
        by_contra hne
        push Not at hne
        exact hremaps ⟨by omega, hne.1, hne.2, by omega⟩
      rw [if_pos ⟨by omega, hpage⟩] at hbrk
      simp only [BrkState.setBrk] at hbrk
      omega
  refine ⟨fun hremaps => ?_, hlow⟩
  by_contra hrefused
  have hsmall := newBrk_low_of_remaps hword hremaps hlow
  simp only [RefusalReported] at hreported
  rw [linux26Brk_of_remaps _ hremaps] at hreported
  have herr := (hreported (by simp) hrefused).1
  rw [isErr_eq_false_iff.mpr hsmall] at herr
  simp at herr

/-- The break emulation agrees with the kernel through a run of requests, and
reports every refusal, exactly when every request of the run is one of those it
gets right. -/
theorem linux26Brk_agrees_iff {state : BrkState} (hready : BrkReady state)
    (calls : List BrkCall) :
    Always brkStep BrkAgrees RefusalReported state calls ↔
      StepsMeet brkStep BrkCallMeets state calls :=
  always_iff_stepsMeet (fun _ hinv => hinv.toBrkAgrees)
    (fun _ _ _ hinv hmeets hstep => brkStep_inv hinv hmeets hstep)
    (fun _ _ _ hmeets => refusalReported_of_meets hmeets)
    (fun _ _ hinv hreported hnext =>
      brkCallMeets_of_agrees hinv hreported hnext)
    hready.inv calls

/-- The loader's record of a program whose `.bss` of 0x200 bytes starts at
0x8050000 and ends at the break. -/
def bssLoaded : MmStruct :=
  ⟨0x8050200, 0, 0, 0, 0x8050000, 0x200, 0x8050000, 0x200⟩

/-- The heap `init_brk` makes for it. -/
def bssHeap : BrkState := (initBrk bssLoaded .granted).1

theorem bssHeap_ready : BrkReady bssHeap :=
  ⟨bssLoaded, .granted, by decide, fun _ => by decide, rfl⟩

theorem linux26Brk_agrees_granted :
    BrkReady bssHeap ∧
      Always brkStep BrkAgrees RefusalReported bssHeap
        [⟨0x8060000, .granted⟩] := by
  refine ⟨bssHeap_ready, (linux26Brk_agrees_iff bssHeap_ready _).mpr ?_⟩
  exact ⟨⟨fun _ => rfl, by decide⟩, fun _ _ => trivial⟩

/-- Out of memory, the same request is reported as a success. -/
theorem linux26Brk_hides_refusal :
    BrkReady bssHeap ∧
      ¬ Always brkStep BrkAgrees RefusalReported bssHeap
        [⟨0x8060000, .refused enomem⟩] := by
  refine ⟨bssHeap_ready, fun halways => ?_⟩
  have hreported := (halways.2.1 (by decide) (by decide)).1
  exact absurd hreported (by decide)

end IbcsUs.Memory
