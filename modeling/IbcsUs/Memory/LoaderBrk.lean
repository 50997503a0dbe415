import IbcsUs.Memory.AbiBrk

/-!
# The zero pages loaders ask `do_brk` for

The ELF and COFF loaders call `do_brk` to create the pages of a `.bss` anywhere in
memory, before there is a heap.  The function can only resize the mapping in the
break record, which is not filled in yet, and it does not look at the kernel's
answer.
-/

namespace IbcsUs.Memory

/-- A kernel with the mapping of the break record: `held` bytes at the recorded
address, none if there is no mapping. -/
def recordState (mm : MmStruct) (held : ℕ) : BrkState :=
  ⟨mm, ⟨mm.ibcsBrkMmapAddr, held⟩, 0⟩

section

variable (loaded : ℕ → Prop) (mm : MmStruct) (held addr len : ℕ)
  (answer : KernelAnswer)

/-- The address is in a page of `[addr, addr + len)`. -/
def InPages (address : ℕ) : Prop :=
  addr ≤ address ∧ pageMask address < addr + len

/-- A value that is no error means that every page of the range is mapped. -/
def DoBrkRight : Prop :=
  let (after, result) := doBrk (recordState mm held) addr len answer
  isErr result = false →
    ∀ address, InPages addr len address → Mapped loaded after address

/-- `do_brk` fails without asking the kernel. -/
def FailsEarly : Prop :=
  pageAlign (addr + len) ≠ mm.ibcsBrkMmapMax ∧
    pageAlign (addr + len) < mm.ibcsBrkMmapMin

/-- `do_brk` asks the kernel for an `mremap`, which is granted, and what of the
range is below the heap is mapped. -/
def GrantedAbove : Prop :=
  pageAlign (addr + len) ≠ mm.ibcsBrkMmapMax ∧
    mm.ibcsBrkMmapMin ≤ pageAlign (addr + len) ∧ answer = .granted ∧
    addr + len ≤ 2 ^ 32 - 8192 ∧
    ∀ address, InPages addr len address → address < mm.ibcsBrkMmapAddr →
      loaded address

/-- The requests `do_brk` gets right. -/
def DoBrkMeets : Prop :=
  FailsEarly mm addr len ∨ GrantedAbove loaded mm addr len answer ∨
    ∀ address, InPages addr len address →
      Mapped loaded (recordState mm held) address

/-- The kernel maps nothing in the last two pages of memory, before or after. -/
def LastPagesFree : Prop :=
  (∀ address, Mapped loaded (recordState mm held) address →
    address < 2 ^ 32 - 8192) ∧
  ∀ address,
    Mapped loaded (doBrk (recordState mm held) addr len answer).1 address →
      address < 2 ^ 32 - 8192

end

variable {loaded : ℕ → Prop} {mm : MmStruct} {held addr len : ℕ}
  {answer : KernelAnswer}

variable (held) in
/-- When the kernel is not asked, or refuses, the caller is told of a success and
nothing has changed. -/
theorem doBrk_unchanged (haligned : addr % 4096 = 0) (hword : addr + len < 2 ^ 32)
    (hearly : ¬ FailsEarly mm addr len)
    (hasked : pageAlign (addr + len) = mm.ibcsBrkMmapMax ∨
      answer ≠ .granted) :
    (doBrk (recordState mm held) addr len answer).2 = addr ∧
      (doBrk (recordState mm held) addr len answer).1.mapping =
        (recordState mm held).mapping := by
  have herr : isErr addr = false := isErr_pageAligned haligned (by omega)
  have hsum : wordAdd addr len = addr + len := Nat.mod_eq_of_lt hword
  simp only [doBrk, hsum]
  split
  · next hmax =>
    have hmin : ¬ pageAlign (addr + len) < mm.ibcsBrkMmapMin :=
      fun hlt => hearly ⟨hmax, hlt⟩
    have hrefused := hasked.resolve_left hmax
    cases answer with
    | granted => exact absurd rfl hrefused
    | refused errno => simp [recordState, hmin, mremap, herr]
  · exact ⟨rfl, rfl⟩

variable (held) in
theorem doBrk_granted (haligned : addr % 4096 = 0) (hword : addr + len < 2 ^ 32)
    (hmax : pageAlign (addr + len) ≠ mm.ibcsBrkMmapMax)
    (hmin : mm.ibcsBrkMmapMin ≤ pageAlign (addr + len)) :
    (doBrk (recordState mm held) addr len .granted).2 = addr ∧
      (doBrk (recordState mm held) addr len .granted).1.mapping =
        ⟨mm.ibcsBrkMmapAddr,
          wordSub (remapEnd mm (addr + len)) mm.ibcsBrkMmapAddr⟩ := by
  have herr : isErr addr = false := isErr_pageAligned haligned (by omega)
  have hsum : wordAdd addr len = addr + len := Nat.mod_eq_of_lt hword
  simp [doBrk, hsum, recordState, hmax, Nat.not_lt.2 hmin, mremap, herr,
    remapEnd]

/-- A range that reaches into the last pages has a page there. -/
theorem exists_inPages_high (haligned : addr % 4096 = 0)
    (hhigh : 2 ^ 32 - 8192 < addr + len) (hpos : 0 < len) :
    ∃ address, InPages addr len address ∧ 2 ^ 32 - 8192 ≤ address := by
  simp only [InPages, pageMask]
  by_cases hstart : 2 ^ 32 - 8192 ≤ addr
  · exact ⟨addr, ⟨le_rfl, by omega⟩, hstart⟩
  · exact ⟨2 ^ 32 - 8192, ⟨by omega, by omega⟩, le_rfl⟩

theorem inPages_lt_pageAlign (hlow : addr + len ≤ 2 ^ 32 - 8192) {address : ℕ}
    (hpages : InPages addr len address) : address < pageAlign (addr + len) := by
  have hbounds := @pageAlign_bounds (addr + len) (by omega)
  have hmod := pageAlign_mod (addr + len)
  simp only [InPages, pageMask] at hpages
  omega

/-- A granted request maps everything from the heap's start to the end of the
range. -/
theorem mapped_doBrk_granted (haligned : addr % 4096 = 0)
    (hlow : addr + len ≤ 2 ^ 32 - 8192)
    (hmax : pageAlign (addr + len) ≠ mm.ibcsBrkMmapMax)
    (hmin : mm.ibcsBrkMmapMin ≤ pageAlign (addr + len)) {address : ℕ}
    (hpages : InPages addr len address) :
    Mapped loaded (doBrk (recordState mm held) addr len .granted).1 address ↔
      (address < mm.ibcsBrkMmapAddr → loaded address) := by
  have hlt := inPages_lt_pageAlign hlow hpages
  have hend : pageAlign (addr + len) ≤ remapEnd mm (addr + len) := by
    have hbounds := @pageAlign_bounds (addr + len) (by omega)
    have hmod := pageAlign_mod (addr + len)
    rw [remapEnd]
    split
    · next heq =>
      have hsucc : wordAdd mm.ibcsBrkMmapMin 1 = mm.ibcsBrkMmapMin + 1 := by
        simp only [wordAdd]
        omega
      have hnext := @pageAlign_bounds (mm.ibcsBrkMmapMin + 1)
        (by omega)
      rw [hsucc]
      omega
    · exact le_rfl
  have hsize : remapEnd mm (addr + len) ≤ mm.ibcsBrkMmapAddr +
      wordSub (remapEnd mm (addr + len)) mm.ibcsBrkMmapAddr := by
    have hword : remapEnd mm (addr + len) < 2 ^ 32 := by
      rw [remapEnd]
      split <;> exact pageAlign_lt _
    simp only [wordSub]
    omega
  rw [Mapped, (doBrk_granted held haligned (by omega) hmax hmin).2]
  simp only
  constructor
  · rintro (hloaded | ⟨hstart, -⟩) hbelow
    · exact hloaded
    · omega
  · intro hbelow
    by_cases hstart : address < mm.ibcsBrkMmapAddr
    · exact .inl (hbelow hstart)
    · exact .inr ⟨by omega, by omega⟩

/-- With the kernel not asked or refusing, the value is only right if everything
was mapped already. -/
theorem right_unchanged_iff (haligned : addr % 4096 = 0)
    (hword : addr + len < 2 ^ 32) (hearly : ¬ FailsEarly mm addr len)
    (hasked : pageAlign (addr + len) = mm.ibcsBrkMmapMax ∨ answer ≠ .granted) :
    DoBrkRight loaded mm held addr len answer ↔
      ∀ address, InPages addr len address →
        Mapped loaded (recordState mm held) address := by
  obtain ⟨hresult, hmapping⟩ :=
    doBrk_unchanged held haligned hword hearly hasked
  have herr : isErr addr = false := isErr_pageAligned haligned (by omega)
  simp only [DoBrkRight, Mapped, hresult, hmapping, herr, true_implies]

theorem right_granted_iff (haligned : addr % 4096 = 0)
    (hlow : addr + len ≤ 2 ^ 32 - 8192)
    (hmax : pageAlign (addr + len) ≠ mm.ibcsBrkMmapMax)
    (hmin : mm.ibcsBrkMmapMin ≤ pageAlign (addr + len)) :
    DoBrkRight loaded mm held addr len .granted ↔
      ∀ address, InPages addr len address → address < mm.ibcsBrkMmapAddr →
        loaded address := by
  have hresult := (doBrk_granted held haligned (by omega) hmax hmin).1
  have herr : isErr addr = false := isErr_pageAligned haligned (by omega)
  simp only [DoBrkRight, hresult, herr, true_implies]
  exact forall₂_congr fun address hpages =>
    mapped_doBrk_granted haligned hlow hmax hmin hpages

theorem right_of_failsEarly (hword : addr + len < 2 ^ 32)
    (hearly : FailsEarly mm addr len) :
    DoBrkRight loaded mm held addr len answer := by
  have hsum : wordAdd addr len = addr + len := Nat.mod_eq_of_lt hword
  have hresult : (doBrk (recordState mm held) addr len answer).2 =
      enomem.word := by
    simp [doBrk, hsum, recordState, hearly.1, hearly.2]
  simp only [DoBrkRight, hresult, isErr_errno_word, Bool.true_eq_false,
    false_implies]

/-- `do_brk` reports no page as created that is not there, exactly when it fails
by itself, or its `mremap` is granted and the range does not begin below the heap,
or everything was mapped before. -/
theorem doBrk_right_iff (haligned : addr % 4096 = 0)
    (hword : addr + len < 2 ^ 32)
    (hkernel : LastPagesFree loaded mm held addr len answer) :
    DoBrkRight loaded mm held addr len answer ↔
      DoBrkMeets loaded mm held addr len answer := by
  by_cases hearly : FailsEarly mm addr len
  · exact iff_of_true (right_of_failsEarly hword hearly) (.inl hearly)
  rw [DoBrkMeets, or_iff_right hearly]
  by_cases hasked : pageAlign (addr + len) = mm.ibcsBrkMmapMax ∨
      answer ≠ .granted
  · rw [right_unchanged_iff haligned hword hearly hasked]
    refine (or_iff_right fun hgranted => ?_).symm
    obtain hmax | hrefused := hasked
    · exact hgranted.1 hmax
    · exact hrefused hgranted.2.2.1
  push Not at hasked
  obtain ⟨hmax, rfl⟩ := hasked
  have hmin : mm.ibcsBrkMmapMin ≤ pageAlign (addr + len) :=
    Nat.not_lt.1 fun hlt => hearly ⟨hmax, hlt⟩
  by_cases hlow : addr + len ≤ 2 ^ 32 - 8192
  · rw [right_granted_iff haligned hlow hmax hmin]
    constructor
    · exact fun hbelow => .inl ⟨hmax, hmin, rfl, hlow, hbelow⟩
    · rintro (hgranted | hall) address hpages hstart
      · exact hgranted.2.2.2.2 address hpages hstart
      · refine (hall address hpages).resolve_right fun hheap => ?_
        exact Nat.not_le.2 hstart hheap.1
  · obtain rfl | hpos := Nat.eq_zero_or_pos len
    · refine iff_of_true (fun _ address hpages => ?_)
        (.inr fun address hpages => ?_)
      all_goals
        simp only [InPages, pageMask] at hpages
        omega
    · obtain ⟨address, hpages, hhigh⟩ :=
        exists_inPages_high haligned (Nat.not_le.1 hlow) hpos
      refine iff_of_false (fun hright => ?_) ?_
      · have hresult :=
          (doBrk_granted held haligned hword hmax hmin).1
        have herr : isErr addr = false :=
          isErr_pageAligned haligned (by omega)
        simp only [DoBrkRight, hresult, herr, true_implies] at hright
        have hmapped := hright address hpages
        exact Nat.not_lt.2 hhigh (hkernel.2 address hmapped)
      · rintro (hgranted | hall)
        · exact hlow hgranted.2.2.2.1
        · exact Nat.not_lt.2 hhigh (hkernel.1 address (hall address hpages))

/-- A heap of a page at 0x8050000 that grows by a second one. -/
theorem doBrk_right_granted :
    DoBrkRight (fun _ => False)
      ⟨0x8050000, 0x8050000, 0x8051000, 0x8050000, 0, 0, 0, 0⟩ 0x1000
      0x8051000 0x1000 .granted := by
  refine (doBrk_right_iff (by decide) (by decide) ⟨?_, ?_⟩).2
    (.inr (.inl ⟨by decide, by decide, rfl, by decide, ?_⟩))
  · rintro address (hloaded | hheap)
    · exact hloaded.elim
    · exact hheap.2.trans (by decide)
  · rintro address (hloaded | hheap)
    · exact hloaded.elim
    · exact hheap.2.trans (by decide)
  · rintro address ⟨hstart, -⟩ hbelow
    exact absurd hstart (Nat.not_le.2 (hbelow.trans (by decide)))

/-- Before `init_brk`, with nothing mapped at all: the kernel refuses to resize a
mapping at address zero, and the page is reported as created. -/
theorem doBrk_creates_nothing :
    (doBrk (recordState ⟨0, 0, 0, 0, 0, 0, 0, 0⟩ 0) 0x8050000 0x1000
        (.refused ⟨14, by decide, by decide⟩)).2 = 0x8050000 ∧
      ¬ DoBrkRight (fun _ => False) ⟨0, 0, 0, 0, 0, 0, 0, 0⟩ 0 0x8050000 0x1000
        (.refused ⟨14, by decide, by decide⟩) := by
  refine ⟨by decide, fun hright => ?_⟩
  obtain hloaded | hheap :=
    hright (by decide) 0x8050000 ⟨le_rfl, by decide⟩
  · exact hloaded
  · exact absurd hheap.2 (by decide)

end IbcsUs.Memory
