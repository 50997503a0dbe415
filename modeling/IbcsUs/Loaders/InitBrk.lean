import IbcsUs.Loaders.XoutImage
import IbcsUs.Loaders.CoffImage

/-!
# The initial break

`init_brk` makes the heap out of the highest mapping if that is a `.bss`, and
else out of a new page.  It expects the break that the loader has set to be in
the last page of that mapping, or at the start of the new page.
-/

namespace IbcsUs.Loaders

open IbcsUs.Addresses IbcsUs.Memory

/-- `load_binfmt` for the COFF and x.out formats. -/
def loadBinfmt (kernel : Kernel) (preload : PreloadShlibs) (file : Image) :
    Except LoadFailure LoadState :=
  match coffLoadObject kernel preload file with
  | .ok state => .ok state
  | .error failure =>
      if failure = .status enoexec.word then do
        let state ← xoutLoadObject kernel file
        if isErr state.mm.brk then .error (.status state.mm.brk)
        else .ok state
      else .error failure

/-- With the memory that it asks for, `init_brk` leaves the break inside the
heap, and a page that it maps was not mapped before. -/
def InitialBreakUsable (state : LoadState) : Prop :=
  let mm := (initBrk state.mm .granted).1.mm
  mm.ibcsBrkMmapMin ≤ mm.brk ∧ mm.brk < mm.ibcsBrkMmapMax ∧
    (¬ state.mm.HighestIsBss → ∀ address,
      InRange (pageAlign state.mm.brk) 4096 address →
        state.space address = none)

/-- The break starts a page that is not mapped. -/
def FreshPage (space : Space UInt8) (brk : ℕ) : Prop :=
  brk % 4096 = 0 ∧ brk + 4096 < 2 ^ 32 ∧
    ∀ address, InRange brk 4096 address → space address = none

/-- The mapping of the `.bss` is made, and no section is mapped above it. -/
def BssHighest (kernel : Kernel) (object : CoffObject) : Prop :=
  object.bss.size ≠ 0 ∧ object.bss.BssGranted kernel ∧
    0 < pageAlign object.bss.vaddr ∧
    (object.pageable →
      pageMask object.text.vaddr ≤ pageAlign object.bss.vaddr ∧
        (object.data.size ≠ 0 →
          pageMask object.data.vaddr ≤ pageAlign object.bss.vaddr))

instance (kernel : Kernel) (object : CoffObject) :
    Decidable (BssHighest kernel object) :=
  inferInstanceAs (Decidable (_ ∧ _))

/-- The end of the `.bss`. -/
def CoffObject.bssEnd (object : CoffObject) : ℕ :=
  wordAdd object.bss.size object.bss.vaddr

/-- A `.bss` that is the highest mapping does not end with a page; any other one
does, before a page that is free. -/
def CoffBreakMeets (kernel : Kernel) (object : CoffObject)
    (space : Space UInt8) : Prop :=
  if BssHighest kernel object then object.bssEnd % 4096 ≠ 0
  else FreshPage space object.bssEnd

/-- The ranges that are mapped for the segments of a file. -/
def xoutPieces (file : Image) : List (ℕ × ℕ) :=
  (inMemory (seglist file)).flatMap fun sp =>
    sp.pieces (xoutPageable (seglist file))

/-- The higher one of two ranges, the first one if they start at one address. -/
def higherPiece (high piece : ℕ × ℕ) : ℕ × ℕ :=
  if high.1 < piece.1 then piece else high

/-- The first one of the highest ranges. -/
def highestPiece (pieces : List (ℕ × ℕ)) : ℕ × ℕ :=
  pieces.foldl higherPiece (0, 0)

/-- The sizes in the header lead to a place behind all segments and in the last
page of the highest one; or, if nothing is mapped but the first pages of memory,
to the end of a page, or not behind all segments. -/
def XoutBreakMeets (file : Image) : Prop :=
  let high := highestPiece (xoutPieces file)
  ndata (seglist file) = 0 ∨
    if 0 < high.1 then
      (∀ sp ∈ inMemory (seglist file), sp.limit ≤ xoutSize file) ∧
        xoutSize file < pageAlign (high.1 + high.2)
    else
      (∃ sp ∈ inMemory (seglist file), xoutSize file < sp.limit) ∨
        (xoutSize file % 4096 = 0 ∧ xoutSize file + 4096 < 2 ^ 32)

/-- The executables whose initial break is usable. -/
def BreakMeets (kernel : Kernel) (file : Image) (space : Space UInt8) : Prop :=
  match coffObject file with
  | .ok object => CoffBreakMeets kernel object space
  | .error _ => XoutBreakMeets file

variable {kernel : Kernel} {preload : PreloadShlibs} {file : Image}
  {object : CoffObject} {state after : LoadState} {mm : MmStruct}
  {addr len : ℕ}

/-- What `init_brk` needs of the record and of memory. -/
theorem initialBreakUsable_iff (hword : state.mm.brk < 2 ^ 32) :
    InitialBreakUsable state ↔
      if state.mm.HighestIsBss then
        state.mm.brk <
          pageAlign (wordAdd state.mm.ibcsBssMmapAddr state.mm.ibcsBssMmapLen)
      else FreshPage state.space state.mm.brk := by
  simp only [InitialBreakUsable, initBrk_state, initBrkMmap]
  split
  · next hhighest =>
    simp [hhighest]
  · next hhighest =>
    simp only [hhighest, not_false_eq_true, true_implies]
    constructor
    · rintro ⟨hmin, hmax, hfree⟩
      simp only [wordAdd] at hmax
      have haligned : state.mm.brk % 4096 = 0 := by
        simp only [pageAlign, pageMask, wordAdd] at hmin hmax
        omega
      rw [pageAlign_of_aligned haligned hword] at hfree hmax
      exact ⟨haligned, by omega, hfree⟩
    · rintro ⟨haligned, hend, hfree⟩
      rw [pageAlign_of_aligned haligned hword]
      refine ⟨le_rfl, ?_, hfree⟩
      simp only [wordAdd]
      omega

@[simp]
theorem recordMmap_brk (mm : MmStruct) (image : Option Image) (addr len : ℕ) :
    (recordMmap mm image addr len).brk = mm.brk := by
  simp only [recordMmap]
  split <;> split <;> rfl

section CoffBreak

/-- The record after mappings from a file, up to one at `top`. -/
structure FilesRecorded (mm : MmStruct) (top : ℕ) : Prop where
  bss_addr : mm.ibcsBssMmapAddr = 0
  high_addr : mm.ibcsHighMmapAddr = top
  high_len : 0 < mm.ibcsHighMmapLen ↔ 0 < top

theorem FilesRecorded.next {top : ℕ} (hfiles : FilesRecorded mm top)
    (image : Image) (hlen : 0 < len) :
    FilesRecorded (recordMmap mm (some image) addr len) (max top addr) := by
  obtain ⟨hbss, hhigh, hhighLen⟩ := hfiles
  simp only [recordMmap, Option.isNone_some, Bool.false_eq_true, false_and,
    if_false, hhigh]
  split
  · next hlt =>
    refine ⟨hbss, (max_eq_right hlt.le).symm, iff_of_true hlen ?_⟩
    exact (Nat.zero_le top).trans_lt hlt |>.trans_le (le_max_right _ _)
  · next hle =>
    rw [max_eq_left (Nat.not_lt.1 hle)]
    exact ⟨hbss, hhigh, hhighLen⟩

theorem FilesRecorded.not_highestIsBss {top : ℕ}
    (hfiles : FilesRecorded mm top) :
    ¬ mm.HighestIsBss := by
  rintro ⟨hlen, haddr⟩
  have htop := hfiles.high_len.1 hlen
  rw [hfiles.bss_addr, hfiles.high_addr] at haddr
  omega

/-- The `.bss` is the highest mapping unless one from the file is above it. -/
theorem FilesRecorded.bss {top : ℕ} (hfiles : FilesRecorded mm top)
    (hlen : 0 < len) :
    ((recordMmap mm none addr len).HighestIsBss ↔ 0 < addr ∧ top ≤ addr) ∧
      (0 < addr → (recordMmap mm none addr len).ibcsBssMmapAddr = addr ∧
        (recordMmap mm none addr len).ibcsBssMmapLen = len) := by
  obtain ⟨hbss, hhigh, hhighLen⟩ := hfiles
  simp only [recordMmap, Option.isNone_none, true_and, hbss,
    MmStruct.HighestIsBss]
  by_cases hpos : 0 < addr
  · simp only [hpos, if_true, hhigh]
    split
    · next hlt => simp [hlen, hlt.le]
    · next hle =>
      refine ⟨?_, fun _ => ⟨rfl, rfl⟩⟩
      simp only [hhighLen, true_and]
      omega
  · simp only [hpos, if_false, hhigh, false_and, iff_false, false_implies,
      and_true]
    rw [if_neg (by omega)]
    rw [hhighLen, hbss, hhigh]
    omega

/-- The highest address that a section is mapped from the file to. -/
def CoffObject.top (object : CoffObject) : ℕ :=
  if object.pageable then
    if object.data.size ≠ 0 then
      max (pageMask object.text.vaddr) (pageMask object.data.vaddr)
    else pageMask object.text.vaddr
  else 0

/-- `do_brk` changes no more of the record than the end of the heap. -/
theorem doBrk_mm (state : BrkState) (addr len : ℕ) (answer : KernelAnswer) :
    ∃ max, (doBrk state addr len answer).1.mm =
      { state.mm with ibcsBrkMmapMax := max } := by
  simp only [doBrk]
  split
  · split
    · exact ⟨_, rfl⟩
    · cases answer <;> (simp only [mremap]; split <;> exact ⟨_, rfl⟩)
  · exact ⟨_, rfl⟩

theorem mm_loadSections (hload : loadSections kernel file object = .ok state) :
    state.mm.brk = object.bssEnd ∧ FilesRecorded state.mm object.top := by
  have hstart : FilesRecorded (coffStart object).mm 0 := ⟨rfl, rfl, Iff.rfl⟩
  simp only [loadSections] at hload
  split at hload
  · next hpageable =>
    obtain ⟨middle, htext, hdata⟩ := bind_eq_ok.1 hload
    obtain ⟨htextGranted, rfl⟩ := mapSection_eq_ok htext
    have hfirst := @FilesRecorded.next _ (pageMask object.text.vaddr) _ _ hstart
      file htextGranted.pos
    rw [Nat.zero_max] at hfirst
    rw [CoffObject.top, if_pos hpageable]
    split at hdata
    · next hsize =>
      obtain ⟨hdataGranted, rfl⟩ := mapSection_eq_ok hdata
      rw [if_pos hsize]
      exact ⟨by simp [LoadState.mapped, coffStart, CoffObject.bssEnd],
        hfirst.next file hdataGranted.pos⟩
    · next hsize =>
      obtain rfl := Except.ok.inj hdata
      rw [if_neg hsize]
      exact ⟨by simp [LoadState.mapped, coffStart, CoffObject.bssEnd], hfirst⟩
  · next hpageable =>
    obtain rfl := Except.ok.inj hload
    rw [CoffObject.top, if_neg hpageable]
    simp only [readSections]
    obtain ⟨first, hfirst⟩ := doBrk_mm ⟨(coffStart object).mm, ⟨0, 0⟩, 0⟩
      object.text.vaddr object.text.size (.refused efault)
    rw [hfirst]
    obtain ⟨second, hsecond⟩ := doBrk_mm
      ⟨{ (coffStart object).mm with ibcsBrkMmapMax := first }, ⟨0, 0⟩, 0⟩
      object.data.vaddr object.data.size (.refused efault)
    rw [hsecond]
    exact ⟨rfl, rfl, rfl, Iff.rfl⟩

theorem bssHighest_iff : BssHighest kernel object ↔
    object.bss.size ≠ 0 ∧ object.bss.BssGranted kernel ∧
      0 < pageAlign object.bss.vaddr ∧
        object.top ≤ pageAlign object.bss.vaddr := by
  simp only [BssHighest, CoffObject.top]
  by_cases hpageable : object.pageable
  · by_cases hsize : object.data.size = 0
    · simp [hpageable, hsize]
    · simp [hpageable, hsize]
  · simp [hpageable]

/-- A loaded file has its break at the end of the `.bss`, and is ready for
`init_brk` just if the `.bss` is the highest mapping. -/
theorem mm_coff (hload : loadSections kernel file object = .ok state)
    (hbss : mapBss kernel state object.bss = .ok after) :
    after.mm.brk = object.bssEnd ∧
      (after.mm.HighestIsBss ↔ BssHighest kernel object) ∧
      (BssHighest kernel object →
        after.mm.ibcsBssMmapAddr = pageAlign object.bss.vaddr ∧
          after.mm.ibcsBssMmapLen = object.bss.bssLen) := by
  obtain ⟨hbrk, hfiles⟩ := mm_loadSections hload
  rw [bssHighest_iff]
  by_cases hsize : object.bss.size = 0
  · obtain rfl := mapBss_of_size_zero hbss hsize
    refine ⟨hbrk, iff_of_false hfiles.not_highestIsBss ?_, ?_⟩
    all_goals exact fun hhighest => absurd hsize hhighest.1
  obtain ⟨mapped, hmapped, -, rfl⟩ := mapBss_eq_ok hbss hsize
  by_cases hgranted : object.bss.BssGranted kernel
  · obtain ⟨hhighest, hrecord⟩ :=
      @FilesRecorded.bss _ (pageAlign object.bss.vaddr) _ _ hfiles hgranted.pos
    rw [if_pos hgranted] at hmapped
    have hmm : mapped.mm = recordMmap state.mm none
        (pageAlign object.bss.vaddr) object.bss.bssLen := by
      rw [hmapped]
      rfl
    simp only [hmm, recordMmap_brk, hhighest, hsize, hgranted, ne_eq,
      not_false_eq_true, true_and]
    exact ⟨hbrk, fun hpos => hrecord hpos.1⟩
  · rw [if_neg hgranted] at hmapped
    subst hmapped
    refine ⟨hbrk, iff_of_false hfiles.not_highestIsBss ?_, ?_⟩
    all_goals exact fun hhighest => absurd hhighest.2.1 hgranted

theorem coffUsable_iff (hobject : coffObject file = .ok object)
    (hload : coffLoadObject kernel preload file = .ok after) :
    InitialBreakUsable after ↔ CoffBreakMeets kernel object after.space := by
  obtain ⟨middle, hsections, built, hbss, hmm, -⟩ :=
    coffLoadObject_cases hobject hload
  obtain ⟨hbrk, hhighest, hrecord⟩ := mm_coff hsections hbss
  rw [← hmm] at hbrk hhighest hrecord
  have hword : object.bssEnd < 2 ^ 32 := Nat.mod_lt _ (by decide)
  rw [initialBreakUsable_iff (by rw [hbrk]; exact hword), CoffBreakMeets, hbrk]
  by_cases hbssHighest : BssHighest kernel object
  · rw [if_pos (hhighest.2 hbssHighest), if_pos hbssHighest,
      (hrecord hbssHighest).1, (hrecord hbssHighest).2]
    -- the mapping ends in the page where the `.bss` does
    have hgranted : Granted kernel _ _ := hbssHighest.2.1
    have hend := hgranted.end_le (Nat.mod_lt _ (by decide))
    have hsum : wordAdd (pageAlign object.bss.vaddr) object.bss.bssLen =
        object.bssEnd := by
      have hstart := pageAlign_lt object.bss.vaddr
      simp only [CoffSection.bssLen, CoffObject.bssEnd, wordSub, wordAdd]
      omega
    rw [hsum]
    have hlow : object.bssEnd ≤ taskSize := by
      rw [← hsum]
      exact (Nat.mod_le _ _).trans hend
    simp only [pageAlign, pageMask, wordAdd, taskSize] at hlow ⊢
    omega
  · rw [if_neg (fun hboth => hbssHighest (hhighest.1 hboth)),
      if_neg hbssHighest]

end CoffBreak

section XoutBreak

variable {sp : Xseg} {pageable : Bool} {segs : List Xseg}
  {pieces : List (ℕ × ℕ)} {high piece : ℕ × ℕ}

/-- The record after mappings without a file, the highest of them `high`. -/
structure ZerosRecorded (mm : MmStruct) (high : ℕ × ℕ) : Prop where
  bss_addr : mm.ibcsBssMmapAddr = high.1
  bss_len : mm.ibcsBssMmapLen = high.2
  high_addr : mm.ibcsHighMmapAddr = high.1
  high_len : mm.ibcsHighMmapLen = high.2

theorem ZerosRecorded.next (hzeros : ZerosRecorded mm high)
    (piece : ℕ × ℕ) :
    ZerosRecorded (recordMmap mm none piece.1 piece.2)
      (higherPiece high piece) := by
  obtain ⟨hbssAddr, hbssLen, hhighAddr, hhighLen⟩ := hzeros
  simp only [recordMmap, higherPiece, Option.isNone_none, true_and, hbssAddr]
  by_cases hlt : high.1 < piece.1
  · simp only [hlt, if_true, hhighAddr]
    exact ⟨rfl, rfl, rfl, rfl⟩
  · simp only [hlt, if_false, hhighAddr]
    exact ⟨hbssAddr, hbssLen, hhighAddr, hhighLen⟩

theorem ZerosRecorded.mapPieces (hzeros : ZerosRecorded state.mm high)
    (pieces : List (ℕ × ℕ)) :
    ZerosRecorded (state.mapPieces pieces).mm
      (pieces.foldl higherPiece high) := by
  induction pieces generalizing state high with
  | nil => exact hzeros
  | cons piece pieces ih =>
      exact @ih (state.mapped none piece.1 piece.2 0) _ (hzeros.next piece)

theorem mapPieces_brk (state : LoadState) (pieces : List (ℕ × ℕ)) :
    (state.mapPieces pieces).mm.brk = state.mm.brk := by
  induction pieces generalizing state with
  | nil => rfl
  | cons piece pieces ih =>
      exact (ih (state.mapped none piece.1 piece.2 0)).trans
        (recordMmap_brk _ _ _ _)

theorem ZerosRecorded.raised (hzeros : ZerosRecorded state.mm high)
    (sp : Xseg) :
    ZerosRecorded (state.raised sp).mm high := by
  obtain ⟨hbssAddr, hbssLen, hhighAddr, hhighLen⟩ := hzeros
  simp only [LoadState.raised, raiseBrk]
  split <;> exact ⟨hbssAddr, hbssLen, hhighAddr, hhighLen⟩

/-- The record after the first scan has the highest piece. -/
theorem zerosRecorded_amenAll (hzeros : ZerosRecorded state.mm high) :
    ZerosRecorded (state.amenAll pageable segs).mm
      (((inMemory segs).flatMap fun sp => sp.pieces pageable).foldl
        higherPiece high) := by
  simp only [LoadState.amenAll]
  induction inMemory segs generalizing state high with
  | nil => exact hzeros
  | cons sp segs ih =>
      rw [List.flatMap_cons, List.foldl_append]
      exact ih ((hzeros.raised sp).mapPieces (sp.pieces pageable))

/-- The break after a segment that ends at `limit`. -/
def raisedBrk (brk limit : ℕ) : ℕ :=
  if brk < limit then pageAlign limit else brk

/-- The break after some segments. -/
def brkAfter (brk : ℕ) (segs : List Xseg) : ℕ :=
  segs.foldl (fun brk sp => raisedBrk brk sp.limit) brk

theorem amen_brk (state : LoadState) (pageable : Bool) (sp : Xseg) :
    (state.amen pageable sp).mm.brk = raisedBrk state.mm.brk sp.limit := by
  rw [LoadState.amen, mapPieces_brk, LoadState.raised, raiseBrk, raisedBrk]
  split <;> rfl

theorem amenAll_brk (state : LoadState) (pageable : Bool) (segs : List Xseg) :
    (state.amenAll pageable segs).mm.brk =
      brkAfter state.mm.brk (inMemory segs) := by
  simp only [LoadState.amenAll, brkAfter]
  induction inMemory segs generalizing state with
  | nil => rfl
  | cons sp segs ih =>
      rw [List.foldl_cons, List.foldl_cons, ih, amen_brk]

theorem raisedBrk_cases {brk limit : ℕ} (hlimit : limit ≤ taskSize) :
    (limit ≤ brk ∧ raisedBrk brk limit = brk) ∨
      (brk < limit ∧ limit ≤ raisedBrk brk limit ∧
        raisedBrk brk limit % 4096 = 0 ∧ raisedBrk brk limit ≤ taskSize) := by
  simp only [raisedBrk]
  split
  · next hlt =>
    simp only [pageAlign, pageMask, wordAdd, taskSize] at hlimit ⊢
    omega
  · next hle => exact .inl ⟨Nat.not_lt.1 hle, rfl⟩

/-- The break after the first scan is behind all segments.  It is the one of the
header, or the end of a page. -/
theorem brkAfter_cases {brk : ℕ} (hlimits : ∀ sp ∈ segs, sp.limit ≤ taskSize) :
    (∀ sp ∈ segs, sp.limit ≤ brkAfter brk segs) ∧ brk ≤ brkAfter brk segs ∧
      (((∀ sp ∈ segs, sp.limit ≤ brk) ∧ brkAfter brk segs = brk) ∨
        ((∃ sp ∈ segs, brk < sp.limit) ∧ brkAfter brk segs % 4096 = 0 ∧
          brkAfter brk segs ≤ taskSize)) := by
  induction segs generalizing brk with
  | nil => simp [brkAfter]
  | cons sp segs ih =>
      obtain ⟨hlimit, hlimits⟩ := List.forall_mem_cons.1 hlimits
      have hstep : brkAfter brk (sp :: segs) =
          brkAfter (raisedBrk brk sp.limit) segs := rfl
      obtain ⟨hall, hle, hcases⟩ := @ih (raisedBrk brk sp.limit) hlimits
      rw [hstep, List.forall_mem_cons, List.forall_mem_cons,
        List.exists_mem_cons_iff]
      obtain ⟨hbehind, hsame⟩ | ⟨hlt, hraised, haligned, hlow⟩ :=
        @raisedBrk_cases brk sp.limit hlimit
      · rw [hsame] at hall hle hcases ⊢
        refine ⟨⟨hbehind.trans hle, hall⟩, hle, ?_⟩
        obtain ⟨hothers, heq⟩ | ⟨hother, hend⟩ := hcases
        · exact .inl ⟨⟨hbehind, hothers⟩, heq⟩
        · exact .inr ⟨.inr hother, hend⟩
      · refine ⟨⟨hraised.trans hle, hall⟩, by omega, .inr ⟨.inl hlt, ?_⟩⟩
        obtain ⟨-, heq⟩ | ⟨-, hend⟩ := hcases
        · rw [heq]
          exact ⟨haligned, hlow⟩
        · exact hend

/-- The highest range is the one before, or a higher one of the list. -/
theorem foldl_higherPiece (pieces : List (ℕ × ℕ)) (high : ℕ × ℕ) :
    (pieces.foldl higherPiece high = high ∨
        pieces.foldl higherPiece high ∈ pieces ∧
          high.1 < (pieces.foldl higherPiece high).1) ∧
      high.1 ≤ (pieces.foldl higherPiece high).1 ∧
      ∀ piece ∈ pieces, piece.1 ≤ (pieces.foldl higherPiece high).1 := by
  induction pieces generalizing high with
  | nil => simp
  | cons piece pieces ih =>
      obtain ⟨hmem, hle, hall⟩ := ih (higherPiece high piece)
      rw [List.foldl_cons, List.forall_mem_cons]
      by_cases hlt : high.1 < piece.1
      · have hpiece : higherPiece high piece = piece := if_pos hlt
        rw [hpiece] at hmem hle hall ⊢
        refine ⟨.inr ⟨?_, by omega⟩, by omega, hle, hall⟩
        obtain hsame | ⟨hmem, -⟩ := hmem
        · rw [hsame]
          exact List.mem_cons_self
        · exact List.mem_cons_of_mem piece hmem
      · have hhigh : higherPiece high piece = high := if_neg hlt
        rw [hhigh] at hmem hle hall ⊢
        refine ⟨hmem.imp_right fun hlater => ?_, hle, by omega, hall⟩
        exact ⟨List.mem_cons_of_mem piece hlater.1, hlater.2⟩

theorem highestPiece_cases (pieces : List (ℕ × ℕ)) :
    highestPiece pieces = (0, 0) ∨
      highestPiece pieces ∈ pieces ∧ 0 < (highestPiece pieces).1 :=
  (foldl_higherPiece pieces (0, 0)).1

theorem highestPiece_mem (hpos : 0 < (highestPiece pieces).1) :
    highestPiece pieces ∈ pieces := by
  obtain hnone | ⟨hmem, -⟩ := highestPiece_cases pieces
  · rw [hnone] at hpos
    exact absurd hpos (lt_irrefl 0)
  · exact hmem

theorem fst_le_highestPiece (hmem : piece ∈ pieces) :
    piece.1 ≤ (highestPiece pieces).1 :=
  (foldl_higherPiece pieces (0, 0)).2.2 piece hmem

/-- The pieces of a segment end at its end or before it. -/
theorem piece_end_le (hwords : sp.Words)
    (hpieces : ∀ piece ∈ sp.pieces pageable, PieceOk kernel piece)
    (hmem : piece ∈ sp.pieces pageable) :
    piece.1 + piece.2 ≤ sp.limit ∧ sp.limit ≤ taskSize ∧ piece.2 < 2 ^ 32 := by
  cases pageable with
  | false =>
      have hlist : sp.pieces false = [(sp.xsRbase, sp.xsVsize)] := by
        simp [Xseg.pieces]
      rw [hlist, List.mem_singleton] at hmem
      subst hmem
      have hend : sp.xsRbase + sp.xsVsize ≤ 2 ^ 32 - 8192 :=
        (hpieces (sp.xsRbase, sp.xsVsize) (by simp [hlist])).1.end_le
          hwords.vsize_lt
      have hlimit : sp.limit = sp.xsRbase + sp.xsVsize :=
        Nat.mod_eq_of_lt (by omega)
      exact ⟨hlimit.ge, hlimit ▸ hend, hwords.vsize_lt⟩
  | true =>
      have hfirst := hpieces (sp.xsRbase, sp.xsPsize) (by simp [Xseg.pieces])
      have hend : sp.xsRbase + sp.xsPsize ≤ 2 ^ 32 - 8192 :=
        hfirst.1.end_le hwords.psize_lt
      obtain ⟨hsizes, hlist⟩ | ⟨start, len, hlist, hlow, -, hlen, hsum⟩ :=
        pieces_cases hwords hfirst
      · rw [hlist, List.mem_singleton] at hmem
        subst hmem
        have hlimit : sp.limit = sp.xsRbase + sp.xsPsize := by
          rw [Xseg.limit, hsizes]
          exact Nat.mod_eq_of_lt (by omega)
        exact ⟨hlimit.ge, hlimit ▸ hend, hwords.psize_lt⟩
      · have hsecond : start + len ≤ 2 ^ 32 - 8192 :=
          (hpieces (start, len) (by simp [hlist])).1.end_le hlen
        have hlimit : sp.limit = start + len := by
          rw [← hsum]
          exact Nat.mod_eq_of_lt (by omega)
        rw [hlist] at hmem
        obtain rfl | hmem := List.mem_cons.1 hmem
        · refine ⟨?_, hlimit ▸ hsecond, hwords.psize_lt⟩
          rw [hlimit]
          exact hlow.trans (Nat.le_add_right start len)
        · obtain rfl := List.mem_singleton.1 hmem
          exact ⟨hlimit.ge, hlimit ▸ hsecond, hlen⟩

theorem exists_mem_pieces (sp : Xseg) (pageable : Bool) :
    ∃ piece, piece ∈ sp.pieces pageable := by
  cases pageable with
  | false => exact ⟨(sp.xsRbase, sp.xsVsize), by simp [Xseg.pieces]⟩
  | true => exact ⟨(sp.xsRbase, sp.xsPsize), by simp [Xseg.pieces]⟩

theorem isSome_readSegments {address : ℕ}
    (hread : readSegments file segs state = .ok after) :
    (after.space address).isSome ↔ (state.space address).isSome := by
  induction segs generalizing state with
  | nil =>
      obtain rfl := Except.ok.inj hread
      exact Iff.rfl
  | cons sp segs ih =>
      simp only [readSegments] at hread
      split at hread
      · split at hread
        · cases hread
        · exact (ih hread).trans isSome_fileRead
      · exact ih hread

/-- What `init_brk` finds after an x.out file with data segments. -/
structure XoutLoaded (kernel : Kernel) (file : Image) (state : LoadState) :
    Prop where
  pieces_ok : ∀ sp ∈ inMemory (seglist file),
    ∀ piece ∈ sp.pieces (xoutPageable (seglist file)), PieceOk kernel piece
  recorded : ZerosRecorded state.mm (highestPiece (xoutPieces file))
  brk_eq : state.mm.brk =
    brkAfter (xoutSize file) (inMemory (seglist file))
  mapped : ∀ address, (state.space address).isSome →
    ∃ piece ∈ xoutPieces file, InRange piece.1 (pageAlign piece.2) address

theorem xoutLoaded_cases (hload : xoutLoadObject kernel file = .ok after) :
    (ndata (seglist file) = 0 ∧ after = .initial) ∨
      (ndata (seglist file) ≠ 0 ∧ XoutLoaded kernel file after) := by
  refine (xoutLoadObject_cases hload).imp_right ?_
  rintro ⟨hndata, hpieces, mapped, rfl, hafter⟩
  have hzeros : ZerosRecorded (xoutStart file).mm (0, 0) := ⟨rfl, rfl, rfl, rfl⟩
  have hmapped (address : ℕ)
      (hsome : (((xoutStart file).amenAll (xoutPageable (seglist file))
        (seglist file)).space address).isSome) :
      ∃ piece ∈ xoutPieces file,
        InRange piece.1 (pageAlign piece.2) address := by
    obtain hstart | ⟨sp, hmem, piece, hpiece, hin⟩ := isSome_amenAll.1 hsome
    · nomatch hstart
    · exact ⟨piece, List.mem_flatMap.2 ⟨sp, hmem, hpiece⟩, hin⟩
  refine ⟨hndata, ?_⟩
  split at hafter
  · subst hafter
    exact ⟨hpieces, zerosRecorded_amenAll hzeros, amenAll_brk _ _ _, hmapped⟩
  · have hmm := (readSegments_eq_ok hafter).1
    refine ⟨hpieces, ?_, ?_, fun address hsome => ?_⟩
    · rw [hmm]
      exact zerosRecorded_amenAll hzeros
    · rw [hmm]
      exact amenAll_brk _ _ _
    · exact hmapped address ((isSome_readSegments hafter).1 hsome)

theorem XoutLoaded.limit_le (hloaded : XoutLoaded kernel file state)
    (hmem : sp ∈ inMemory (seglist file)) : sp.limit ≤ taskSize := by
  obtain ⟨piece, hpiece⟩ := exists_mem_pieces sp (xoutPageable (seglist file))
  exact (piece_end_le (words_of_mem (List.mem_of_mem_filter hmem))
    (hloaded.pieces_ok sp hmem) hpiece).2.1

/-- Every range is before the break. -/
theorem XoutLoaded.piece_le (hloaded : XoutLoaded kernel file state)
    (hmem : piece ∈ xoutPieces file) :
    piece.1 + piece.2 ≤ state.mm.brk ∧ piece.1 + piece.2 ≤ taskSize ∧
      0 < piece.2 := by
  obtain ⟨sp, hsp, hpiece⟩ := List.mem_flatMap.1 hmem
  have hend := (piece_end_le (words_of_mem (List.mem_of_mem_filter hsp))
    (hloaded.pieces_ok sp hsp) hpiece).1
  have hbehind := (@brkAfter_cases _ (xoutSize file)
    fun _ => hloaded.limit_le).1 sp hsp
  rw [← hloaded.brk_eq] at hbehind
  exact ⟨hend.trans hbehind, hend.trans (hloaded.limit_le hsp),
    (hloaded.pieces_ok sp hsp piece hpiece).1.pos⟩

/-- Behind a break that ends a page nothing is mapped, if all that is mapped is
at the start of memory. -/
theorem XoutLoaded.free (hloaded : XoutLoaded kernel file state)
    (hlow : (highestPiece (xoutPieces file)).1 = 0)
    (haligned : state.mm.brk % 4096 = 0) {address : ℕ}
    (hle : state.mm.brk ≤ address) : state.space address = none := by
  by_contra hsome
  obtain ⟨piece, hmem, hin⟩ :=
    hloaded.mapped address (Option.isSome_iff_ne_none.2 hsome)
  have hstart := fst_le_highestPiece hmem
  rw [hlow] at hstart
  obtain ⟨hend, htask, -⟩ := hloaded.piece_le hmem
  have hpages : pageAlign piece.2 ≤ state.mm.brk := by
    simp only [pageAlign, pageMask, wordAdd, taskSize] at htask ⊢
    omega
  have hlt := hin.2
  omega

theorem XoutLoaded.highestIsBss_iff (hloaded : XoutLoaded kernel file state) :
    state.mm.HighestIsBss ↔ 0 < (highestPiece (xoutPieces file)).1 := by
  obtain ⟨hbssAddr, -, hhighAddr, hhighLen⟩ := hloaded.recorded
  rw [MmStruct.HighestIsBss, hbssAddr, hhighAddr, hhighLen,
    and_iff_left rfl]
  obtain hnone | ⟨hmem, hpos⟩ := highestPiece_cases (xoutPieces file)
  · rw [hnone]
  · exact iff_of_true (hloaded.piece_le hmem).2.2 hpos

theorem xoutUsable_iff (hload : xoutLoadObject kernel file = .ok state) :
    InitialBreakUsable state ↔ XoutBreakMeets file := by
  obtain ⟨hndata, rfl⟩ | ⟨hndata, hloaded⟩ := xoutLoaded_cases hload
  · refine iff_of_true ((initialBreakUsable_iff (by decide)).2 ?_) (.inl hndata)
    rw [if_neg (by decide)]
    exact ⟨rfl, by decide, fun _ _ => rfl⟩
  have hcases := (@brkAfter_cases _ (xoutSize file)
    fun _ => hloaded.limit_le).2.2
  rw [← hloaded.brk_eq] at hcases
  have hword : state.mm.brk < 2 ^ 32 := by
    obtain ⟨-, heq⟩ | ⟨-, -, hlow⟩ := hcases
    · rw [heq]
      exact Nat.mod_lt _ (by decide)
    · exact hlow.trans_lt (by decide)
  rw [initialBreakUsable_iff hword, XoutBreakMeets, or_iff_right hndata]
  simp only [hloaded.highestIsBss_iff, hloaded.recorded.bss_addr,
    hloaded.recorded.bss_len]
  by_cases hpos : 0 < (highestPiece (xoutPieces file)).1
  · rw [if_pos hpos, if_pos hpos]
    obtain ⟨hend, htask, -⟩ := hloaded.piece_le (highestPiece_mem hpos)
    have hsum : wordAdd (highestPiece (xoutPieces file)).1
        (highestPiece (xoutPieces file)).2 =
          (highestPiece (xoutPieces file)).1 +
            (highestPiece (xoutPieces file)).2 :=
      Nat.mod_eq_of_lt (htask.trans_lt (by decide))
    rw [hsum]
    obtain ⟨hall, heq⟩ | ⟨⟨sp, hsp, hlt⟩, haligned, hlow⟩ := hcases
    · rw [heq]
      exact (and_iff_right hall).symm
    · -- a break that was raised is behind the last page of the mapping
      refine iff_of_false ?_ fun hmeets => ?_
      · simp only [pageAlign, pageMask, wordAdd, taskSize] at htask ⊢
        omega
      · exact absurd (hmeets.1 sp hsp) (Nat.not_le.2 hlt)
  · rw [if_neg hpos, if_neg hpos]
    have hzero := Nat.eq_zero_of_not_pos hpos
    obtain ⟨hall, heq⟩ | ⟨hraised, haligned, hlow⟩ := hcases
    · rw [or_iff_right fun hraised => ?_]
      · rw [FreshPage, heq, ← and_assoc]
        refine and_iff_left_of_imp fun hend address hin => ?_
        refine hloaded.free hzero ?_ ?_
        · rw [heq]
          exact hend.1
        · rw [heq]
          exact hin.1
      · obtain ⟨sp, hsp, hlt⟩ := hraised
        exact absurd (hall sp hsp) (Nat.not_le.2 hlt)
    · refine iff_of_true ⟨haligned, ?_, fun address hin => ?_⟩ (.inl hraised)
      · simp only [taskSize] at hlow
        omega
      · exact hloaded.free hzero haligned hin.1

end XoutBreak

/-- No file is of both formats. -/
theorem not_coff_of_xout (hload : xoutLoadObject kernel file = .ok state) :
    coffObject file ≠ .ok object := by
  intro hobject
  have hxout : le16 file 0 = 0x0206 := by
    obtain ⟨_, hcheck, -⟩ := bind_eq_ok.1 hload
    by_contra hmagic
    simp only [checkXexec, xoutHeader, hmagic, ne_eq, not_false_eq_true,
      if_true] at hcheck
    cases hcheck
  simp only [coffObject, hxout] at hobject
  cases hobject

end IbcsUs.Loaders
