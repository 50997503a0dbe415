import IbcsUs.Memory.Brk

/-!
# The break that System V programs see

`abi_brk` stands between the program and `linux26_brk`.  It answers a request
for the page the break is already in without telling anybody, puts the break
back to where it was at the start before it is lowered, and takes an error for a
success when the new break is in the last page.
-/

namespace IbcsUs.Memory

open IbcsUs.Runs

/-- The first statement of `abi_brk`: a break that is lowered goes back to
`start_brk` for the time being. -/
def restartBrk (startBrk : ℕ) (state : BrkState) (brk : ℕ) : BrkState :=
  if brk < state.mm.brk ∧ startBrk < brk then state.setBrk startBrk else state

/-- `abi_brk`. -/
def abiBrk (startBrk : ℕ) (state : BrkState) (brk : ℕ) (answer : KernelAnswer) :
    BrkState × ℕ :=
  let state := restartBrk startBrk state brk
  let newbrk := pageAlign brk
  if brk = 0 then (state, state.mm.brk)
  else
    let oldbrk := pageAlign state.mm.brk
    if newbrk ≠ oldbrk then
      let (state, sysbrk) := linux26Brk state brk answer
      if pageAlign sysbrk ≠ newbrk then (state, enomem.word) else (state, 0)
    else (state, 0)

instance decidableRemaps (mm : MmStruct) (brk : ℕ) :
    Decidable (Remaps mm brk) :=
  inferInstanceAs (Decidable (_ ∧ _ ∧ _ ∧ _))

/-- The state after a request. -/
def abiBrkStep (startBrk : ℕ) (state : BrkState) (call : BrkCall) :
    Option BrkState :=
  some (abiBrk startBrk state call.newBrk.toNat call.answer).1

/-! ## What the program is told -/

section

variable (startBrk initialBrk : ℕ) (loaded : ℕ → Prop)

/-- What is mapped: the segments the loader has mapped, and the heap. -/
def Mapped (state : BrkState) (address : ℕ) : Prop :=
  loaded address ∨ state.mapping.addr ≤ address ∧
    address < state.mapping.addr + state.mapping.len

/-- Everything from the initial break to `brk` is mapped. -/
def MappedTo (state : BrkState) (brk : ℕ) : Prop :=
  ∀ address, initialBrk ≤ address → address < brk → Mapped loaded state address

/-- A request that succeeds leaves the break where it was asked for, with all
the memory below it; one that fails leaves it where it was. -/
def AbiBrkRight (state : BrkState) (call : BrkCall) : Prop :=
  let brk := call.newBrk.toNat
  let (after, result) := abiBrk startBrk state brk call.answer
  (brk ≠ 0 → result = 0 →
    (abiBrk startBrk after 0 call.answer).2 = brk ∧
      MappedTo initialBrk loaded after brk) ∧
  (isErr result →
    (abiBrk startBrk after 0 call.answer).2 =
      (abiBrk startBrk state 0 call.answer).2)

/-- The request lowers the break, but not to where it started. -/
def Restarts (state : BrkState) (brk : ℕ) : Prop :=
  brk < state.mm.brk ∧ startBrk < brk

/-- Between the initial break and the start of the heap everything is mapped. -/
def GapMapped (state : BrkState) : Prop :=
  ∀ address, initialBrk ≤ address → address < state.mm.ibcsBrkMmapAddr →
    loaded address

/-- A request below the heap, which fails as it should. -/
def RefusedBelow (state : BrkState) (brk : ℕ) : Prop :=
  brk < state.mm.ibcsBrkMmapMin ∧ ¬ Restarts startBrk state brk ∧
    pageAlign brk ≠ pageAlign state.mm.brk

/-- A request that moves the break to another page, with the memory for it. -/
def MovesPage (state : BrkState) (call : BrkCall) : Prop :=
  let brk := call.newBrk.toNat
  state.mm.ibcsBrkMmapMin ≤ brk ∧
    pageAlign brk ≠ pageAlign (restartBrk startBrk state brk).mm.brk ∧
    (if Remaps (restartBrk startBrk state brk).mm brk ∧ call.answer = .granted
      then initialBrk < brk → GapMapped initialBrk loaded state
      else MappedTo initialBrk loaded state brk)

/-- The requests that `abi_brk` gets right: a question, the break as it is, and,
outside the last page of memory, what is refused below the heap and what moves
the break to another page. -/
def AbiBrkMeets (state : BrkState) (call : BrkCall) : Prop :=
  let brk := call.newBrk.toNat
  brk = 0 ∨ brk = state.mm.brk ∨
    brk ≤ 2 ^ 32 - 4096 ∧
      (RefusedBelow startBrk state brk ∨
        MovesPage startBrk initialBrk loaded state call)

/-- The states `init_brk` leaves, whether or not it got its mapping or has
something to complain about.  The kernel maps nothing in the last two pages of
memory, where no loader can have put the break. -/
def AbiReady (state : BrkState) : Prop :=
  ∃ mm answer messages, initBrk mm answer = (state, messages) ∧
    mm.ibcsBrkMmapAddr = 0 ∧ mm.ibcsBrkMmapMin = 0 ∧
    mm.brk = initialBrk ∧ mm.brk ≤ 2 ^ 32 - 8192 ∧
    (mm.HighestIsBss → mm.ibcsBssMmapAddr ≤ mm.brk ∧
      mm.ibcsBssMmapAddr + mm.ibcsBssMmapLen ≤ 2 ^ 32 - 8192) ∧
    ∀ address, loaded address → address < 2 ^ 32 - 4096

/-- What the right requests keep. -/
structure AbiInv (state : BrkState) : Prop where
  addr_le_min : state.mm.ibcsBrkMmapAddr ≤ state.mm.ibcsBrkMmapMin
  min_low : state.mm.ibcsBrkMmapMin ≤ 2 ^ 32 - 8192
  initial_low : initialBrk ≤ 2 ^ 32 - 4096
  mapped_low : ∀ address, Mapped loaded state address → address < 2 ^ 32 - 4096
  mapped_to : MappedTo initialBrk loaded state state.mm.brk

end

variable {startBrk initialBrk brk : ℕ} {loaded : ℕ → Prop} {state : BrkState}
  {call : BrkCall}

/-! ## One call -/

@[simp]
theorem abiBrk_zero (answer : KernelAnswer) :
    abiBrk startBrk state 0 answer = (state, state.mm.brk) := by
  simp [abiBrk, restartBrk]

@[simp]
theorem restartBrk_mapping :
    (restartBrk startBrk state brk).mapping = state.mapping := by
  rw [restartBrk]
  split <;> rfl

@[simp]
theorem restartBrk_min : (restartBrk startBrk state brk).mm.ibcsBrkMmapMin =
    state.mm.ibcsBrkMmapMin := by
  rw [restartBrk]
  split <;> rfl

@[simp]
theorem restartBrk_addr : (restartBrk startBrk state brk).mm.ibcsBrkMmapAddr =
    state.mm.ibcsBrkMmapAddr := by
  rw [restartBrk]
  split <;> rfl

theorem remapEnd_restartBrk :
    remapEnd (restartBrk startBrk state brk).mm brk = remapEnd state.mm brk := by
  rw [remapEnd, remapEnd, restartBrk_min]

/-- A request for the page the break is in is answered with nothing done. -/
theorem abiBrk_same (hpos : brk ≠ 0) (answer : KernelAnswer)
    (hpage : pageAlign brk = pageAlign (restartBrk startBrk state brk).mm.brk) :
    abiBrk startBrk state brk answer = (restartBrk startBrk state brk, 0) := by
  rw [abiBrk, if_neg hpos]
  simp only [hpage, ne_eq, not_true_eq_false, if_false]

theorem abiBrk_other (hpos : brk ≠ 0) (answer : KernelAnswer)
    (hpage : pageAlign brk ≠ pageAlign (restartBrk startBrk state brk).mm.brk) :
    abiBrk startBrk state brk answer =
      let outcome := linux26Brk (restartBrk startBrk state brk) brk answer
      (outcome.1, if pageAlign outcome.2 ≠ pageAlign brk then enomem.word
        else 0) := by
  rw [abiBrk, if_neg hpos]
  simp only [if_pos hpage]
  split <;> rfl

theorem pageAlign_pos (hpos : brk ≠ 0) (hlow : brk ≤ 2 ^ 32 - 4096) :
    pageAlign brk ≠ 0 := by
  have hbounds := pageAlign_bounds hlow
  omega

theorem pageAlign_enomem : pageAlign enomem.word = 0 := by decide

/-- Below the heap the request fails. -/
theorem abiBrk_below (hpos : brk ≠ 0) (hlow : brk ≤ 2 ^ 32 - 4096)
    (answer : KernelAnswer)
    (hpage : pageAlign brk ≠ pageAlign (restartBrk startBrk state brk).mm.brk)
    (hbelow : brk < state.mm.ibcsBrkMmapMin) :
    abiBrk startBrk state brk answer =
      (restartBrk startBrk state brk, enomem.word) := by
  rw [abiBrk_other hpos answer hpage, linux26Brk, restartBrk_min,
    if_pos hbelow]
  simp only [pageAlign_enomem]
  rw [if_pos (pageAlign_pos hpos hlow).symm]

/-- Outside the last page, a request above the heap's lower end succeeds. -/
theorem abiBrk_above (hpos : brk ≠ 0) (hlow : brk ≤ 2 ^ 32 - 4096)
    (answer : KernelAnswer)
    (hpage : pageAlign brk ≠ pageAlign (restartBrk startBrk state brk).mm.brk)
    (habove : state.mm.ibcsBrkMmapMin ≤ brk) :
    (abiBrk startBrk state brk answer).2 = 0 ∧
      (abiBrk startBrk state brk answer).1.mm.brk = brk ∧
      (abiBrk startBrk state brk answer).1.mm.ibcsBrkMmapAddr =
        state.mm.ibcsBrkMmapAddr ∧
      (abiBrk startBrk state brk answer).1.mm.ibcsBrkMmapMin =
        state.mm.ibcsBrkMmapMin ∧
      (abiBrk startBrk state brk answer).1.mapping =
        if Remaps (restartBrk startBrk state brk).mm brk ∧ answer = .granted
        then ⟨state.mm.ibcsBrkMmapAddr,
          wordSub (remapEnd state.mm brk) state.mm.ibcsBrkMmapAddr⟩
        else state.mapping := by
  rw [abiBrk_other hpos answer hpage]
  by_cases hremaps : Remaps (restartBrk startBrk state brk).mm brk
  · rw [linux26Brk_of_remaps answer hremaps]
    cases answer <;> simp [hremaps, remapEnd_restartBrk]
  · have hmax : pageAlign brk =
        (restartBrk startBrk state brk).mm.ibcsBrkMmapMax := by
      by_contra hmax
      have hbounds := pageAlign_bounds hlow
      exact hremaps ⟨by rwa [restartBrk_min], hpage, hmax, by
        rw [restartBrk_min]
        omega⟩
    rw [linux26Brk_of_not_remaps answer hremaps,
      if_pos ⟨by rwa [restartBrk_min], .inr hmax⟩]
    simp [BrkState.setBrk, hremaps]

/-- In the last page the request is taken for a success, and there is no memory
for it. -/
theorem abiBrk_last_page (hinv : AbiInv initialBrk loaded state)
    (hhigh : 2 ^ 32 - 4096 < brk) (hword : brk < 2 ^ 32) (answer : KernelAnswer)
    (hpage : pageAlign brk ≠ pageAlign (restartBrk startBrk state brk).mm.brk) :
    (abiBrk startBrk state brk answer).2 = 0 ∧
      ∀ address, Mapped loaded (abiBrk startBrk state brk answer).1 address →
        address < 2 ^ 32 - 4096 := by
  have hzero := pageAlign_high hhigh hword
  rw [abiBrk_other (by omega) answer hpage]
  by_cases hremaps : Remaps (restartBrk startBrk state brk).mm brk
  · have hmin : state.mm.ibcsBrkMmapMin = 0 := by
      have hend := hremaps.2.2.2
      rw [hzero, restartBrk_min] at hend
      omega
    have haddr : state.mm.ibcsBrkMmapAddr = 0 := by
      have hle := hinv.addr_le_min
      omega
    have hend : remapEnd state.mm brk = 4096 := by
      rw [remapEnd, hzero, hmin]
      decide
    rw [linux26Brk_of_remaps answer hremaps]
    refine ⟨by simp, fun address hmapped => ?_⟩
    cases answer with
    | granted =>
        simp only [remapEnd_restartBrk, restartBrk_addr, hend, haddr] at hmapped
        obtain hloaded | hheap := hmapped
        · exact hinv.mapped_low address (.inl hloaded)
        · simp only [wordSub] at hheap
          omega
    | refused errno =>
        simp only [Mapped, restartBrk_mapping] at hmapped
        exact hinv.mapped_low address hmapped
  · rw [linux26Brk_of_not_remaps answer hremaps]
    split
    · refine ⟨by simp, fun address hmapped => ?_⟩
      simp only [Mapped, BrkState.setBrk, restartBrk_mapping] at hmapped
      exact hinv.mapped_low address hmapped
    · refine ⟨by simp [pageAlign_enomem, hzero], fun address hmapped => ?_⟩
      simp only [Mapped, restartBrk_mapping] at hmapped
      exact hinv.mapped_low address hmapped

/-- The mapping asked for reaches from the heap's lower end to the break. -/
theorem remapEnd_above (hinv : AbiInv initialBrk loaded state)
    (hlow : brk ≤ 2 ^ 32 - 4096)
    (hremaps : Remaps (restartBrk startBrk state brk).mm brk) :
    brk ≤ remapEnd state.mm brk ∧
      state.mm.ibcsBrkMmapMin ≤ remapEnd state.mm brk ∧
      remapEnd state.mm brk ≤ 2 ^ 32 - 4096 := by
  have hbounds := pageAlign_bounds hlow
  have hmod := pageAlign_mod brk
  have hword := pageAlign_lt brk
  have hend := hremaps.2.2.2
  rw [restartBrk_min] at hend
  rw [remapEnd]
  split
  · next heq =>
    have hmin := hinv.min_low
    have hsucc : wordAdd state.mm.ibcsBrkMmapMin 1 =
        state.mm.ibcsBrkMmapMin + 1 := by
      simp only [wordAdd]
      omega
    have hnext := @pageAlign_bounds (state.mm.ibcsBrkMmapMin + 1)
      (by omega)
    have hnextMod := pageAlign_mod (state.mm.ibcsBrkMmapMin + 1)
    rw [hsucc]
    omega
  · omega

/-- After a request above the heap's lower end, what is mapped. -/
theorem mapped_above (hinv : AbiInv initialBrk loaded state) (hpos : brk ≠ 0)
    (hlow : brk ≤ 2 ^ 32 - 4096) {answer : KernelAnswer}
    (hpage : pageAlign brk ≠ pageAlign (restartBrk startBrk state brk).mm.brk)
    (habove : state.mm.ibcsBrkMmapMin ≤ brk) (address : ℕ) :
    Mapped loaded (abiBrk startBrk state brk answer).1 address ↔
      if Remaps (restartBrk startBrk state brk).mm brk ∧ answer = .granted
      then loaded address ∨ state.mm.ibcsBrkMmapAddr ≤ address ∧
        address < remapEnd state.mm brk
      else Mapped loaded state address := by
  obtain ⟨-, -, -, -, hmapping⟩ := abiBrk_above hpos hlow answer hpage habove
  simp only [Mapped, hmapping]
  split
  · next hgranted =>
    obtain ⟨-, hend, hhigh⟩ := remapEnd_above hinv hlow hgranted.1
    have haddr := hinv.addr_le_min
    rw [wordSub_of_le (haddr.trans hend) (by omega),
      Nat.add_sub_cancel' (haddr.trans hend)]
  · rfl

theorem mappedTo_above (hinv : AbiInv initialBrk loaded state) (hpos : brk ≠ 0)
    (hlow : brk ≤ 2 ^ 32 - 4096) (answer : KernelAnswer)
    (hpage : pageAlign brk ≠ pageAlign (restartBrk startBrk state brk).mm.brk)
    (habove : state.mm.ibcsBrkMmapMin ≤ brk) :
    MappedTo initialBrk loaded (abiBrk startBrk state brk answer).1 brk ↔
      if Remaps (restartBrk startBrk state brk).mm brk ∧ answer = .granted
      then initialBrk < brk → GapMapped initialBrk loaded state
      else MappedTo initialBrk loaded state brk := by
  simp only [MappedTo, mapped_above hinv hpos hlow hpage habove]
  split
  · next hgranted =>
    have haddr := hinv.addr_le_min
    constructor
    · intro hmapped _ address hinitial hbelow
      obtain hloaded | hheap := hmapped address hinitial (by omega)
      · exact hloaded
      · omega
    · intro hgap address hinitial hbelow
      by_cases hstart : address < state.mm.ibcsBrkMmapAddr
      · exact .inl (hgap (by omega) address hinitial hstart)
      · have hend := (remapEnd_above hinv hlow hgranted.1).1
        exact .inr ⟨by omega, by omega⟩
  · rfl

/-- Such a request is right exactly when the memory is there. -/
theorem right_above_iff (hinv : AbiInv initialBrk loaded state)
    (hpos : call.newBrk.toNat ≠ 0) (hlow : call.newBrk.toNat ≤ 2 ^ 32 - 4096)
    (hpage : pageAlign call.newBrk.toNat ≠
      pageAlign (restartBrk startBrk state call.newBrk.toNat).mm.brk)
    (habove : state.mm.ibcsBrkMmapMin ≤ call.newBrk.toNat) :
    AbiBrkRight startBrk initialBrk loaded state call ↔
      MovesPage startBrk initialBrk loaded state call := by
  obtain ⟨hresult, hbrk, -⟩ :=
    abiBrk_above hpos hlow call.answer hpage habove
  have hmapped := mappedTo_above hinv hpos hlow call.answer hpage habove
  simp only [AbiBrkRight, MovesPage, abiBrk_zero, hresult, hbrk, ← hmapped]
  simp [hpos, hpage, habove, isErr]

theorem restartBrk_of_restarts (hrestarts : Restarts startBrk state brk) :
    restartBrk startBrk state brk = state.setBrk startBrk := if_pos hrestarts

theorem restartBrk_of_not (hrestarts : ¬ Restarts startBrk state brk) :
    restartBrk startBrk state brk = state := if_neg hrestarts

/-- The break is where it was asked for only if nothing has put it back. -/
theorem restartBrk_brk_eq_iff :
    (restartBrk startBrk state brk).mm.brk = brk ↔ brk = state.mm.brk := by
  by_cases hrestarts : Restarts startBrk state brk
  · rw [restartBrk_of_restarts hrestarts]
    obtain ⟨hlower, hstart⟩ := hrestarts
    change startBrk = brk ↔ _
    omega
  · rw [restartBrk_of_not hrestarts]
    exact eq_comm

theorem not_restarts_self : ¬ Restarts startBrk state state.mm.brk :=
  fun hrestarts => Nat.lt_irrefl _ hrestarts.1

/-- A request for the page the break is in is right only if it asks for the
break as it is. -/
theorem right_same_iff (hinv : AbiInv initialBrk loaded state)
    (hpos : call.newBrk.toNat ≠ 0)
    (hpage : pageAlign call.newBrk.toNat =
      pageAlign (restartBrk startBrk state call.newBrk.toNat).mm.brk) :
    AbiBrkRight startBrk initialBrk loaded state call ↔
      call.newBrk.toNat = state.mm.brk := by
  simp only [AbiBrkRight, abiBrk_same hpos _ hpage, abiBrk_zero,
    restartBrk_brk_eq_iff]
  constructor
  · intro hright
    exact (hright.1 hpos trivial).1
  · intro hbrk
    refine ⟨fun _ _ => ⟨hbrk, ?_⟩, by simp [isErr]⟩
    rw [restartBrk_of_not (hbrk ▸ not_restarts_self), hbrk]
    exact hinv.mapped_to

/-- A request below the heap is right if the break was not put back before. -/
theorem right_below_iff (hpos : call.newBrk.toNat ≠ 0)
    (hlow : call.newBrk.toNat ≤ 2 ^ 32 - 4096)
    (hpage : pageAlign call.newBrk.toNat ≠
      pageAlign (restartBrk startBrk state call.newBrk.toNat).mm.brk)
    (hbelow : call.newBrk.toNat < state.mm.ibcsBrkMmapMin) :
    AbiBrkRight startBrk initialBrk loaded state call ↔
      RefusedBelow startBrk state call.newBrk.toNat := by
  simp only [AbiBrkRight, abiBrk_below hpos hlow _ hpage hbelow, abiBrk_zero,
    RefusedBelow]
  by_cases hrestarts : Restarts startBrk state call.newBrk.toNat
  · refine iff_of_false (fun hright => ?_) (fun hmeets => hmeets.2.1 hrestarts)
    have hbrk := hright.2 (isErr_errno_word enomem)
    rw [restartBrk_of_restarts hrestarts] at hbrk
    obtain ⟨hlower, hstart⟩ := hrestarts
    change startBrk = _ at hbrk
    omega
  · rw [restartBrk_of_not hrestarts] at hpage ⊢
    simp [hpage, hbelow, hrestarts, enomem, Errno.word]

/-- A request in the last page is never right. -/
theorem not_right_last_page (hinv : AbiInv initialBrk loaded state)
    (hhigh : 2 ^ 32 - 4096 < call.newBrk.toNat)
    (hpage : pageAlign call.newBrk.toNat ≠
      pageAlign (restartBrk startBrk state call.newBrk.toNat).mm.brk) :
    ¬ AbiBrkRight startBrk initialBrk loaded state call := by
  intro hright
  obtain ⟨hresult, hmapped⟩ :=
    abiBrk_last_page hinv hhigh call.newBrk.isLt call.answer hpage
  have hall := (hright.1 (by omega) hresult).2
  exact absurd (hmapped _ (hall _ hinv.initial_low hhigh)) (Nat.lt_irrefl _)

theorem abiBrkRight_iff (hinv : AbiInv initialBrk loaded state) :
    AbiBrkRight startBrk initialBrk loaded state call ↔
      AbiBrkMeets startBrk initialBrk loaded state call := by
  by_cases hpos : call.newBrk.toNat = 0
  · simp [AbiBrkRight, AbiBrkMeets, hpos]
  simp only [AbiBrkMeets, hpos, false_or]
  by_cases hpage : pageAlign call.newBrk.toNat =
      pageAlign (restartBrk startBrk state call.newBrk.toNat).mm.brk
  · rw [right_same_iff hinv hpos hpage]
    refine ⟨.inl, ?_⟩
    rintro (hbrk | ⟨-, ⟨-, hrestarts, hother⟩ | ⟨-, hother, -⟩⟩)
    · exact hbrk
    · rw [restartBrk_of_not hrestarts] at hpage
      exact absurd hpage hother
    · exact absurd hpage hother
  have hmoved : call.newBrk.toNat ≠ state.mm.brk := by
    intro hbrk
    apply hpage
    rw [restartBrk_of_not (hbrk ▸ not_restarts_self), ← hbrk]
  rw [or_iff_right hmoved]
  by_cases hlow : call.newBrk.toNat ≤ 2 ^ 32 - 4096
  · simp only [hlow, true_and]
    by_cases hbelow : call.newBrk.toNat < state.mm.ibcsBrkMmapMin
    · rw [right_below_iff hpos hlow hpage hbelow]
      exact (or_iff_left fun hmoves => Nat.not_le.2 hbelow hmoves.1).symm
    · rw [right_above_iff hinv hpos hlow hpage (Nat.not_lt.1 hbelow)]
      exact (or_iff_right fun hrefused => hbelow hrefused.1).symm
  · exact iff_of_false (not_right_last_page hinv (Nat.not_le.1 hlow) hpage)
      (fun hmeets => hlow hmeets.1)

/-! ## Whole runs -/

/-- The states `init_brk` leaves have the invariant. -/
theorem AbiReady.inv (hready : AbiReady initialBrk loaded state) :
    AbiInv initialBrk loaded state := by
  obtain ⟨mm, answer, messages, hinit, haddr, hmin, rfl, hlow, hbss, hloaded⟩ :=
    hready
  obtain rfl : (initBrkMmap mm answer).1 = state := by
    rw [← initBrk_state, hinit]
  have hpage := @pageAlign_bounds mm.brk (by omega)
  have hpageMod := pageAlign_mod mm.brk
  rw [initBrkMmap]
  split
  -- the heap takes over the `.bss` mapping
  · next hhighest =>
    obtain ⟨hstart, hend⟩ := hbss hhighest
    have hmask : pageMask mm.ibcsBssMmapAddr ≤ mm.ibcsBssMmapAddr := by
      simp only [pageMask]
      omega
    have hsum : wordAdd mm.ibcsBssMmapAddr mm.ibcsBssMmapLen =
        mm.ibcsBssMmapAddr + mm.ibcsBssMmapLen := by
      simp only [wordAdd]
      omega
    have hmax := @pageAlign_bounds (mm.ibcsBssMmapAddr + mm.ibcsBssMmapLen)
      (by omega)
    have hmaxMod := pageAlign_mod (mm.ibcsBssMmapAddr + mm.ibcsBssMmapLen)
    refine ⟨hmask.trans hstart, hlow, by omega, fun address hmapped => ?_,
      fun address hinitial hbelow => ?_⟩
    · obtain hseg | hheap := hmapped
      · exact hloaded address hseg
      · simp only [hsum] at hheap
        rw [wordSub_of_le (by omega) (by omega)] at hheap
        omega
    · exact absurd hbelow (Nat.not_lt.2 hinitial)
  · cases answer with
    | granted =>
        refine ⟨le_rfl, by simp only; omega, by omega,
          fun address hmapped => ?_, fun address hinitial hbelow => ?_⟩
        · obtain hseg | hheap := hmapped
          · exact hloaded address hseg
          · simp only at hheap
            omega
        · exact absurd hbelow (Nat.not_lt.2 hinitial)
    | refused errno =>
        refine ⟨by simp only; omega, by simp only; omega, by omega,
          fun address hmapped => ?_, fun address hinitial hbelow => ?_⟩
        · obtain hseg | hheap := hmapped
          · exact hloaded address hseg
          · simp only at hheap
            omega
        · exact absurd hbelow (Nat.not_lt.2 hinitial)

/-- A request that moves the break keeps the invariant. -/
theorem MovesPage.inv (hinv : AbiInv initialBrk loaded state)
    (hpos : call.newBrk.toNat ≠ 0) (hlow : call.newBrk.toNat ≤ 2 ^ 32 - 4096)
    (hmoves : MovesPage startBrk initialBrk loaded state call) :
    AbiInv initialBrk loaded
      (abiBrk startBrk state call.newBrk.toNat call.answer).1 := by
  obtain ⟨habove, hpage, hmemory⟩ := hmoves
  obtain ⟨-, hbrk, haddr, hmin, -⟩ :=
    abiBrk_above hpos hlow call.answer hpage habove
  refine ⟨by rw [haddr, hmin]; exact hinv.addr_le_min,
    by rw [hmin]; exact hinv.min_low, hinv.initial_low, ?_, ?_⟩
  · intro address hmapped
    rw [mapped_above hinv hpos hlow hpage habove] at hmapped
    split at hmapped
    · next hgranted =>
      obtain ⟨-, -, hend⟩ := remapEnd_above hinv hlow hgranted.1
      obtain hloaded | hheap := hmapped
      · exact hinv.mapped_low address (.inl hloaded)
      · omega
    · exact hinv.mapped_low address hmapped
  · rw [hbrk, mappedTo_above hinv hpos hlow _ hpage habove]
    exact hmemory

theorem abiBrkStep_inv {after : BrkState}
    (hinv : AbiInv initialBrk loaded state)
    (hmeets : AbiBrkMeets startBrk initialBrk loaded state call)
    (hstep : abiBrkStep startBrk state call = some after) :
    AbiInv initialBrk loaded after := by
  obtain rfl := Option.some.inj hstep
  by_cases hpos : call.newBrk.toNat = 0
  · rw [hpos, abiBrk_zero]
    exact hinv
  obtain hzero | hbrk | ⟨hlow, hrefused | hmoves⟩ := hmeets
  · exact absurd hzero hpos
  · have hsame : restartBrk startBrk state call.newBrk.toNat = state :=
      restartBrk_of_not (hbrk ▸ not_restarts_self)
    rw [abiBrk_same hpos _ (by rw [hsame, ← hbrk]), hsame]
    exact hinv
  · obtain ⟨hbelow, hrestarts, hpage⟩ := hrefused
    have hsame : restartBrk startBrk state call.newBrk.toNat = state :=
      restartBrk_of_not hrestarts
    rw [abiBrk_below hpos hlow _ (by rwa [hsame]) hbelow, hsame]
    exact hinv
  · exact hmoves.inv hinv hpos hlow

/-- The program is told the truth about its break, through a run of requests,
exactly when every request of the run is one of those `abi_brk` gets right. -/
theorem abiBrk_right_iff (startBrk : ℕ)
    (hready : AbiReady initialBrk loaded state) (calls : List BrkCall) :
    Always (abiBrkStep startBrk) (fun _ => True)
        (AbiBrkRight startBrk initialBrk loaded) state calls ↔
      StepsMeet (abiBrkStep startBrk) (AbiBrkMeets startBrk initialBrk loaded)
        state calls :=
  always_iff_stepsMeet (fun _ _ => trivial)
    (fun _ _ _ hinv hmeets hstep => abiBrkStep_inv hinv hmeets hstep)
    (fun _ _ hinv hmeets => (abiBrkRight_iff hinv).2 hmeets)
    (fun _ _ hinv hright _ => (abiBrkRight_iff hinv).1 hright)
    hready.inv calls

theorem bssHeap_abiReady : AbiReady 0x8050200 (fun _ => False) bssHeap :=
  ⟨bssLoaded, .granted, [], rfl, rfl, rfl, rfl, by decide,
    fun _ => by decide, fun _ hloaded => hloaded.elim⟩

/-- A break in another page, that the kernel grants. -/
theorem abiBrk_right_other_page :
    AbiReady 0x8050200 (fun _ => False) bssHeap ∧
      Always (abiBrkStep 0x8050000) (fun _ => True)
        (AbiBrkRight 0x8050000 0x8050200 fun _ => False) bssHeap
        [⟨0x8060000, .granted⟩] := by
  refine ⟨bssHeap_abiReady,
    (abiBrk_right_iff 0x8050000 bssHeap_abiReady _).2 ⟨?_, fun _ _ => trivial⟩⟩
  refine .inr (.inr ⟨by decide, .inr ⟨by decide, by decide, ?_⟩⟩)
  rw [if_pos (by decide)]
  intro _ address hinitial hbelow
  change address < 0x8050000 at hbelow
  omega

/-- A break inside the page it is in: the answer is 0, and the break stays. -/
theorem abiBrk_ignores_small_growth :
    AbiReady 0x8050200 (fun _ => False) bssHeap ∧
      ¬ Always (abiBrkStep 0x8050000) (fun _ => True)
        (AbiBrkRight 0x8050000 0x8050200 fun _ => False) bssHeap
        [⟨0x8050300, .granted⟩] := by
  refine ⟨bssHeap_abiReady, fun halways => ?_⟩
  have hbrk := (halways.2.1.1 (by decide) (by decide)).1
  exact absurd hbrk (by decide)

end IbcsUs.Memory
