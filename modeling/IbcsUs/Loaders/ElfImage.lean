import IbcsUs.Loaders.Elf
import IbcsUs.Loaders.InitBrk

/-!
# The image of an ELF program

The segments of a program that is not relocated lie at the addresses its headers give
them, in ascending order and on pages of their own.  After a load every page that has a
byte of the file is right: the file's bytes, and zeros behind them.  The pages of a
`.bss` behind those are not there at all, so that the image is right just if no segment
has such pages.  The initial break, on the other hand, is always usable.
-/

namespace IbcsUs.Loaders

open IbcsUs.Addresses IbcsUs.Memory

/-- The end of what the file has of a segment. -/
def ElfPhdr.fileEnd (phdr : ElfPhdr) : ℕ := phdr.pVaddr + phdr.pFilesz

/-- The end of a segment. -/
def ElfPhdr.memEnd (phdr : ElfPhdr) : ℕ := phdr.pVaddr + phdr.pMemsz

/-- The byte at an offset of a segment. -/
def ElfPhdr.byte (phdr : ElfPhdr) (file : Image) (offset : ℕ) : UInt8 :=
  if offset < phdr.pFilesz then file (phdr.pOffset + offset) else 0

/-- Every segment of the program is in memory. -/
def ElfImageRight (file : Image) (space : Space UInt8) : Prop :=
  ∀ phdr ∈ elfLoads file, ∀ offset < phdr.pMemsz,
    space (phdr.pVaddr + offset) = some (phdr.byte file offset)

/-- The pages of one segment end before those of the other. -/
def ElfPhdr.Before (phdr next : ElfPhdr) : Prop :=
  pageAlign phdr.memEnd ≤ pageMask next.pVaddr

/-- A program that is not relocated and has no interpreter, with its segments in
ascending order, on pages of their own, and none in the first page. -/
structure ElfStatic (file : Image) : Prop where
  exec : (elfhdr file).eType = etExec
  alone : ∀ phdr ∈ elfPhdata file, phdr.pType ≠ ptInterp
  ascending : (elfLoads file).Pairwise ElfPhdr.Before
  low : ∀ phdr ∈ elfLoads file, 4096 ≤ phdr.pVaddr

/-! ## Steps that have not failed -/

/-- What is checked of the size of a segment. -/
structure ElfPhdr.Fits (phdr : ElfPhdr) : Prop where
  filesz_le : phdr.pFilesz ≤ phdr.pMemsz
  end_le : phdr.memEnd ≤ taskSize

theorem ElfPhdr.fits_of_not_badSize {phdr : ElfPhdr} (hsize : ¬ phdr.badSize phdr.pVaddr) :
    phdr.Fits := by
  simp only [ElfPhdr.badSize, not_or, badAddr, decide_eq_true_eq] at hsize
  obtain ⟨hstart, hfilesz, hmemsz, hend⟩ := hsize
  exact ⟨Nat.not_lt.mp hfilesz, by rw [ElfPhdr.memEnd]; omega⟩

section Steps

variable {host : ElfHost} {file : Image} {phdr : ElfPhdr} {state after : ElfState}
  {addr len : ℕ}

theorem clearUser_eq_ok (hclear : clearUser state addr len = .ok after) :
    after.space = mapRange state.space addr len (fun _ => 0) ∧ after.mm = state.mm := by
  rw [clearUser] at hclear
  split at hclear
  · obtain ⟨cleared, hcleared, hafter⟩ := bind_eq_ok.mp hclear
    obtain ⟨-, rfl⟩ := clearMemory_eq_ok hcleared
    obtain rfl := Except.ok.inj hafter
    exact ⟨rfl, rfl⟩
  · nomatch hclear

/-- The part of a page behind an address. -/
def pageRest (address : ℕ) : ℕ := pageAlign address - address

theorem pageRest_of_mod {address : ℕ} (hle : address ≤ taskSize) (hmod : address % 4096 ≠ 0) :
    pageRest address = 4096 - address % 4096 := by
  simp only [pageRest, pageAlign, pageMask, wordAdd, taskSize] at *
  omega

theorem pageRest_of_aligned {address : ℕ} (hle : address ≤ taskSize)
    (hmod : address % 4096 = 0) : pageRest address = 0 := by
  rw [pageRest, pageAlign_of_aligned hmod (by rw [taskSize] at hle; omega), Nat.sub_self]

theorem padzero_eq_ok {elfBss : ℕ} (hle : elfBss ≤ taskSize)
    (hpad : padzero state elfBss = .ok after) :
    after.space = mapRange state.space elfBss (pageRest elfBss) (fun _ => 0) ∧
      after.mm = state.mm := by
  rw [padzero] at hpad
  split at hpad
  · next hmod =>
    obtain rfl := Except.ok.inj hpad
    rw [pageRest_of_aligned hle hmod, mapRange_zero]
    exact ⟨rfl, rfl⟩
  · next hmod =>
    rw [pageRest_of_mod hle hmod]
    exact clearUser_eq_ok hpad

/-- What `set_brk` leaves of the record. -/
structure SetBrk (mm after : MmStruct) (stop : ℕ) : Prop where
  brk_eq : after.brk = pageAlign stop
  bssAddr_eq : after.ibcsBssMmapAddr = mm.ibcsBssMmapAddr
  highAddr_eq : after.ibcsHighMmapAddr = mm.ibcsHighMmapAddr
  highLen_eq : after.ibcsHighMmapLen = mm.ibcsHighMmapLen

theorem setBrk_eq_ok {mm afterMm : MmStruct} {start stop : ℕ}
    (hset : setBrk mm start stop = .ok afterMm) : SetBrk mm afterMm stop := by
  simp only [setBrk] at hset
  split at hset
  · split at hset
    · nomatch hset
    · obtain rfl := Except.ok.inj hset
      obtain ⟨max, hmm⟩ := doBrk_mm ⟨mm, ⟨0, 0⟩, 0⟩ (pageAlign start)
        (wordSub (pageAlign stop) (pageAlign start)) (.refused efault)
      rw [hmm]
      exact ⟨rfl, rfl, rfl, rfl⟩
  · obtain rfl := Except.ok.inj hset
    exact ⟨rfl, rfl, rfl, rfl⟩

/-- The record has no mapping without a file, and the highest mapping is not at the
address zero. -/
structure ElfRecord (mm : MmStruct) : Prop where
  bssAddr_eq : mm.ibcsBssMmapAddr = 0
  high : mm.ibcsHighMmapLen = 0 ∨ 0 < mm.ibcsHighMmapAddr

theorem SetBrk.record {mm afterMm : MmStruct} {stop : ℕ} (hset : SetBrk mm afterMm stop)
    (hrecord : ElfRecord mm) : ElfRecord afterMm :=
  ⟨hset.bssAddr_eq.trans hrecord.bssAddr_eq,
    by rw [hset.highLen_eq, hset.highAddr_eq]; exact hrecord.high⟩

theorem ElfRecord.recordMmap {mm : MmStruct} (hrecord : ElfRecord mm) (image : Image)
    (addr len : ℕ) : ElfRecord (recordMmap mm (some image) addr len) := by
  simp only [Loaders.recordMmap, Option.isNone_some, Bool.false_eq_true, false_and, if_false]
  split
  · next hhigher => exact ⟨hrecord.bssAddr_eq, .inr (Nat.zero_lt_of_lt hhigher)⟩
  · exact hrecord

/-- What the pages of a segment hold of the file. -/
def ElfPhdr.content (phdr : ElfPhdr) (file : Image) (index : ℕ) : UInt8 :=
  file (wordSub phdr.pOffset phdr.pageOffset + index)

/-- The place in the file of the page that a segment begins in. -/
def ElfPhdr.Congruent (phdr : ElfPhdr) : Prop :=
  phdr.mapSize = 0 ∨ wordSub phdr.pOffset phdr.pageOffset % 4096 = 0

theorem badAddr_of_isErr {result : ℕ} (herr : isErr result = true) : badAddr result = true := by
  have hhigh : 2 ^ 32 - 4096 < result := of_decide_eq_true herr
  refine decide_eq_true ?_
  rw [taskSize]
  omega

theorem ElfPhdr.pageAlign_mapSize (phdr : ElfPhdr) : pageAlign phdr.mapSize = phdr.mapSize :=
  pageAlign_of_aligned (pageAlign_mod _) (pageAlign_lt _)

theorem elfMap_eq {result : ℕ} (hmap : elfMap host state file addr phdr true = (after, result))
    (hgood : badAddr result = false) :
    after.space = mapRange state.space (pageMask addr) phdr.mapSize (phdr.content file) ∧
      phdr.Congruent ∧ (ElfRecord state.mm → ElfRecord after.mm) ∧
      after.mm.brk = state.mm.brk := by
  simp only [elfMap, if_true] at hmap
  split at hmap
  · next hsize =>
    obtain ⟨rfl, -⟩ := Prod.mk.inj hmap
    rw [hsize, mapRange_zero]
    exact ⟨rfl, .inl hsize, id, rfl⟩
  · obtain ⟨hgranted, hoffset, hmapped⟩ | ⟨-, errno, hrefused⟩ :=
      binfmtMmap_cases host.toKernel state.toLoadState (some file) (pageMask addr) phdr.mapSize
        (wordSub phdr.pOffset phdr.pageOffset)
    · rw [hmapped] at hmap
      simp only at hmap
      split at hmap
      · next herr =>
        obtain ⟨-, rfl⟩ := Prod.mk.inj hmap
        exact absurd (hgood.symm.trans (badAddr_of_isErr herr)) Bool.false_ne_true
      · obtain ⟨rfl, -⟩ := Prod.mk.inj hmap
        refine ⟨?_, .inr hoffset.2, fun hrecord => hrecord.recordMmap file _ _, ?_⟩
        · show mapRange _ _ (pageAlign phdr.mapSize) _ = _
          rw [phdr.pageAlign_mapSize]
          rfl
        · exact recordMmap_brk _ _ _ _
    · -- an error number is no good address
      rw [hrefused] at hmap
      simp only [isErr_errno_word, if_true] at hmap
      obtain ⟨-, rfl⟩ := Prod.mk.inj hmap
      exact absurd (hgood.symm.trans (badAddr_of_isErr (isErr_errno_word errno)))
        Bool.false_ne_true

/-- How much of the `.bss` so far is cleared in front of the next segment. -/
def ElfLoop.clearLen (loop : ElfLoop) : ℕ :=
  min (pageRest loop.elfBss) (loop.elfBrk - loop.elfBss)

theorem clearBss_eq_ok {loop : ElfLoop} (hbias : loop.loadBias = 0)
    (hbrk : loop.elfBrk ≤ taskSize) (hclear : clearBss loop = .ok after) :
    after.space = mapRange loop.state.space loop.elfBss loop.clearLen (fun _ => 0) ∧
      (ElfRecord loop.state.mm → ElfRecord after.mm) := by
  have hword : ∀ address ≤ taskSize, wordAdd address loop.loadBias = address := by
    intro address hle
    rw [taskSize] at hle
    rw [hbias, wordAdd, Nat.add_zero, Nat.mod_eq_of_lt (by omega)]
  rw [clearBss] at hclear
  split at hclear
  · next hlt =>
    have hbss : loop.elfBss ≤ taskSize := hlt.le.trans hbrk
    obtain ⟨mm, hset, hclear⟩ := bind_eq_ok.mp hclear
    have hset := setBrk_eq_ok hset
    split at hclear
    · next hmod =>
      obtain rfl := Except.ok.inj hclear
      rw [ElfLoop.clearLen, pageRest_of_aligned hbss hmod, Nat.zero_min, mapRange_zero]
      exact ⟨rfl, hset.record⟩
    · next hmod =>
      rw [hword _ hbss] at hclear
      obtain ⟨hspace, hmm⟩ := clearUser_eq_ok hclear
      rw [ElfLoop.clearLen, pageRest_of_mod hbss hmod]
      exact ⟨hspace, fun hrecord => hmm ▸ hset.record hrecord⟩
  · next hlt =>
    obtain rfl := Except.ok.inj hclear
    rw [ElfLoop.clearLen, Nat.sub_eq_zero_of_le (Nat.not_lt.mp hlt), Nat.min_zero, mapRange_zero]
    exact ⟨rfl, id⟩

/-- What one segment of a program that is not relocated does. -/
structure ElfStep (file : Image) (loop : ElfLoop) (phdr : ElfPhdr) (next : ElfLoop) : Prop where
  fits : phdr.Fits
  congruent : phdr.Congruent
  space_eq : next.state.space =
    mapRange (mapRange loop.state.space loop.elfBss loop.clearLen fun _ => 0)
      (pageMask phdr.pVaddr) phdr.mapSize (phdr.content file)
  elfBss_eq : next.elfBss = max loop.elfBss phdr.fileEnd
  elfBrk_eq : next.elfBrk = max loop.elfBrk phdr.memEnd
  loadBias_eq : next.loadBias = 0
  record : ElfRecord loop.state.mm → ElfRecord next.state.mm

theorem elfStep_of_eq_ok {loop next : ElfLoop} (hexec : (elfhdr file).eType = etExec)
    (hbias : loop.loadBias = 0) (hbrk : loop.elfBrk ≤ taskSize)
    (hstep : elfPhdr host file loop phdr = .ok next) : ElfStep file loop phdr next := by
  rw [elfPhdr] at hstep
  obtain ⟨cleared, hcleared, hstep⟩ := bind_eq_ok.mp hstep
  obtain ⟨hspace, hrecord⟩ := clearBss_eq_ok hbias hbrk hcleared
  simp only [hexec, decide_true, Bool.true_or, if_true, hbias] at hstep
  obtain ⟨mapped, result, hmap⟩ : ∃ mapped result,
      elfMap host cleared file (wordAdd 0 phdr.pVaddr) phdr true = (mapped, result) :=
    ⟨_, _, rfl⟩
  rw [hmap] at hstep
  simp only at hstep
  split at hstep
  · nomatch hstep
  · next hgood =>
    split at hstep
    · nomatch hstep
    · next hsize =>
      have hfits := ElfPhdr.fits_of_not_badSize hsize
      have hend := hfits.end_le
      have hfilesz := hfits.filesz_le
      rw [ElfPhdr.memEnd, taskSize] at hend
      obtain ⟨hmapSpace, hcongruent, hmapRecord, -⟩ :=
        elfMap_eq hmap (Bool.eq_false_iff.mpr hgood)
      have hvaddr : wordAdd 0 phdr.pVaddr = phdr.pVaddr := by
        rw [wordAdd, Nat.zero_add, Nat.mod_eq_of_lt (by omega)]
      obtain rfl := Except.ok.inj hstep
      exact {
        fits := hfits
        congruent := hcongruent
        space_eq := by rw [← hspace, ← hvaddr]; exact hmapSpace
        elfBss_eq := congrArg (max loop.elfBss) (Nat.mod_eq_of_lt (by omega))
        elfBrk_eq := congrArg (max loop.elfBrk) (Nat.mod_eq_of_lt (by omega))
        loadBias_eq := if_neg fun h => absurd h.2 (by decide)
        record := fun h => hmapRecord (hrecord h) }

end Steps

/-! ## What holds while the segments are loaded -/

/-- The pages of a segment as they are mapped. -/
def ElfPhdr.Raw (phdr : ElfPhdr) (file : Image) (space : Space UInt8) : Prop :=
  ∀ offset, phdr.pVaddr + offset < pageAlign phdr.fileEnd →
    space (phdr.pVaddr + offset) = some (file (phdr.pOffset + offset))

/-- A segment is in memory as far as its pages are mapped. -/
def ElfPhdr.Filled (phdr : ElfPhdr) (file : Image) (space : Space UInt8) : Prop :=
  ∀ offset < phdr.pMemsz, space (phdr.pVaddr + offset) =
    if phdr.pVaddr + offset < pageAlign phdr.fileEnd then some (phdr.byte file offset)
    else none

/-- The segments that are loaded, the last one first. -/
structure ElfInv (file : Image) (done : List ElfPhdr) (loop : ElfLoop) : Prop where
  loadBias_eq : loop.loadBias = 0
  record : ElfRecord loop.state.mm
  elfBss_eq : loop.elfBss = (done.head?.map ElfPhdr.fileEnd).getD 0
  elfBrk_eq : loop.elfBrk = (done.head?.map ElfPhdr.memEnd).getD 0
  ordered : done.Pairwise fun phdr earlier => earlier.Before phdr
  fits : ∀ phdr ∈ done, phdr.Fits
  raw : ∀ last ∈ done.head?, last.Raw file loop.state.space
  filled : ∀ phdr ∈ done.tail, phdr.Filled file loop.state.space
  free : ∀ address, pageAlign loop.elfBss ≤ address → loop.state.space address = none

section Inv

variable {file : Image} {phdr next : ElfPhdr} {space : Space UInt8}

theorem le_pageAlign_of_le {address : ℕ} (hle : address ≤ taskSize) :
    address ≤ pageAlign address := by
  rw [taskSize] at hle
  exact (pageAlign_bounds (by omega)).1

theorem pageAlign_mono {low high : ℕ} (hle : low ≤ high) (hhigh : high ≤ taskSize) :
    pageAlign low ≤ pageAlign high := by
  simp only [pageAlign, pageMask, wordAdd, taskSize] at *
  omega

theorem ElfPhdr.Fits.fileEnd_le (hfits : phdr.Fits) : phdr.fileEnd ≤ phdr.memEnd :=
  Nat.add_le_add_left hfits.filesz_le phdr.pVaddr

theorem ElfPhdr.Before.memEnd_le (hbefore : phdr.Before next) (hfits : phdr.Fits) :
    phdr.memEnd ≤ pageMask next.pVaddr :=
  (le_pageAlign_of_le hfits.end_le).trans hbefore

theorem pageMask_le (address : ℕ) : pageMask address ≤ address := by
  rw [pageMask]
  omega

/-- What is mapped behind a segment leaves it as it is. -/
theorem ElfPhdr.Filled.mapRange (hfilled : phdr.Filled file space) {start len : ℕ}
    {content : ℕ → UInt8} (hend : phdr.memEnd ≤ start) :
    phdr.Filled file (mapRange space start len content) := by
  intro offset hoffset
  rw [mapRange_outside, hfilled offset hoffset]
  intro hin
  have hlow := hin.1
  rw [ElfPhdr.memEnd] at hend
  omega

/-- Clearing the `.bss` of the last segment fills it. -/
theorem ElfPhdr.Raw.filled (hraw : phdr.Raw file space) (hfits : phdr.Fits)
    (hfree : ∀ address, pageAlign phdr.fileEnd ≤ address → space address = none) {len : ℕ}
    (hlow : min (pageRest phdr.fileEnd) (phdr.memEnd - phdr.fileEnd) ≤ len)
    (hhigh : len ≤ pageRest phdr.fileEnd) :
    phdr.Filled file (Addresses.mapRange space phdr.fileEnd len fun _ => 0) := by
  intro offset hoffset
  have hpages := le_pageAlign_of_le (hfits.fileEnd_le.trans hfits.end_le)
  simp only [pageRest] at hlow hhigh
  have hmemEnd : phdr.memEnd = phdr.pVaddr + phdr.pMemsz := rfl
  have hfileEnd : phdr.fileEnd = phdr.pVaddr + phdr.pFilesz := rfl
  by_cases hfile : offset < phdr.pFilesz
  · rw [mapRange_outside fun hin => absurd hin.1 (by omega), hraw offset (by omega),
      if_pos (by omega), ElfPhdr.byte, if_pos hfile]
  · by_cases hpage : phdr.pVaddr + offset < pageAlign phdr.fileEnd
    · rw [mapRange_inside ⟨by omega, by omega⟩, if_pos hpage, ElfPhdr.byte, if_neg hfile]
    · rw [mapRange_outside fun hin => absurd hin.2 (by omega), if_neg hpage]
      exact hfree _ (Nat.not_lt.mp hpage)

/-- Once the `.bss` of the last segment is cleared, all segments are in memory. -/
theorem ElfInv.filled_of_clear {done : List ElfPhdr} {loop : ElfLoop}
    (hinv : ElfInv file done loop) {len : ℕ} (hlow : loop.clearLen ≤ len)
    (hhigh : len ≤ pageRest loop.elfBss) :
    ∀ phdr ∈ done,
      phdr.Filled file (mapRange loop.state.space loop.elfBss len fun _ => 0) := by
  cases done with
  | nil => exact fun _ hphdr => absurd hphdr List.not_mem_nil
  | cons last earlier =>
      have hbss : loop.elfBss = last.fileEnd := hinv.elfBss_eq
      have hbrk : loop.elfBrk = last.memEnd := hinv.elfBrk_eq
      obtain ⟨hordered, -⟩ := List.pairwise_cons.mp hinv.ordered
      obtain ⟨hlast, hearlier⟩ := List.forall_mem_cons.mp hinv.fits
      have hfree := hinv.free
      rw [ElfLoop.clearLen, hbss, hbrk] at hlow
      rw [hbss] at hhigh hfree ⊢
      refine List.forall_mem_cons.mpr ⟨?_, fun phdr hphdr => ?_⟩
      · exact (hinv.raw last rfl).filled hlast hfree hlow hhigh
      · refine (hinv.filled phdr hphdr).mapRange ?_
        have hend := (hordered phdr hphdr).memEnd_le (hearlier phdr hphdr)
        have hmask := pageMask_le last.pVaddr
        rw [ElfPhdr.fileEnd]
        omega

/-- The pages of a segment, up to the end of the page its last byte of the file is in. -/
theorem ElfPhdr.Fits.mapSize_eq (hfits : phdr.Fits) :
    pageMask phdr.pVaddr + phdr.mapSize = pageAlign phdr.fileEnd := by
  have hend := hfits.fileEnd_le.trans hfits.end_le
  simp only [ElfPhdr.fileEnd, taskSize] at hend
  simp only [ElfPhdr.mapSize, ElfPhdr.fileEnd, ElfPhdr.pageOffset, pageAlign, pageMask, wordAdd]
  omega

/-- A segment that is mapped from its place in the file. -/
theorem ElfPhdr.raw_mapRange (hfits : phdr.Fits) (hcongruent : phdr.Congruent)
    (hoffset : phdr.pOffset < 2 ^ 32) :
    phdr.Raw file
      (Addresses.mapRange space (pageMask phdr.pVaddr) phdr.mapSize (phdr.content file)) := by
  intro offset hlt
  have hmapSize := hfits.mapSize_eq
  have hmask := pageMask_le phdr.pVaddr
  rw [mapRange_inside ⟨by omega, by omega⟩, ElfPhdr.content]
  rcases hcongruent with hempty | hmod
  · omega
  · refine congrArg (some ∘ file) ?_
    simp only [wordSub, ElfPhdr.pageOffset, pageMask] at *
    omega

theorem ElfInv.elfBrk_le {done : List ElfPhdr} {loop : ElfLoop} (hinv : ElfInv file done loop) :
    loop.elfBss ≤ loop.elfBrk ∧ loop.elfBrk ≤ taskSize := by
  rw [hinv.elfBss_eq, hinv.elfBrk_eq]
  cases done with
  | nil => exact ⟨le_rfl, Nat.zero_le _⟩
  | cons last earlier =>
      have hfits := hinv.fits last List.mem_cons_self
      exact ⟨hfits.fileEnd_le, hfits.end_le⟩

/-- The ends so far are in front of a segment that all others are before. -/
theorem ElfInv.ends_le {done : List ElfPhdr} {loop : ElfLoop} (hinv : ElfInv file done loop)
    (hbefore : ∀ earlier ∈ done, earlier.Before phdr) :
    loop.elfBrk ≤ pageMask phdr.pVaddr ∧ pageAlign loop.elfBss ≤ pageMask phdr.pVaddr := by
  rw [hinv.elfBss_eq, hinv.elfBrk_eq]
  cases done with
  | nil => exact ⟨Nat.zero_le _, Nat.zero_le _⟩
  | cons last earlier =>
      have hfits := hinv.fits last List.mem_cons_self
      have hlast := hbefore last List.mem_cons_self
      exact ⟨hlast.memEnd_le hfits, (pageAlign_mono hfits.fileEnd_le hfits.end_le).trans hlast⟩

/-- One segment. -/
theorem ElfInv.step {host : ElfHost} {done : List ElfPhdr} {loop next : ElfLoop}
    (hinv : ElfInv file done loop) (hexec : (elfhdr file).eType = etExec)
    (hbefore : ∀ earlier ∈ done, earlier.Before phdr) (hoffset : phdr.pOffset < 2 ^ 32)
    (hstep : elfPhdr host file loop phdr = .ok next) : ElfInv file (phdr :: done) next := by
  obtain ⟨hle, hbrkLe⟩ := hinv.elfBrk_le
  obtain ⟨hbrkMask, hbssMask⟩ := hinv.ends_le hbefore
  have hnext := elfStep_of_eq_ok hexec hinv.loadBias_eq hbrkLe hstep
  have hmask := pageMask_le phdr.pVaddr
  have hpages := hnext.fits.mapSize_eq
  have hfilled := hinv.filled_of_clear le_rfl (Nat.min_le_left _ _)
  have hfileEnd : phdr.fileEnd = phdr.pVaddr + phdr.pFilesz := rfl
  have hmemEnd : phdr.memEnd = phdr.pVaddr + phdr.pMemsz := rfl
  have hbss : next.elfBss = phdr.fileEnd := hnext.elfBss_eq.trans (max_eq_right (by omega))
  exact {
    loadBias_eq := hnext.loadBias_eq
    record := hnext.record hinv.record
    elfBss_eq := hbss
    elfBrk_eq := hnext.elfBrk_eq.trans (max_eq_right (by omega))
    ordered := List.pairwise_cons.mpr ⟨hbefore, hinv.ordered⟩
    fits := List.forall_mem_cons.mpr ⟨hnext.fits, hinv.fits⟩
    raw := fun last hlast => by
      obtain rfl := Option.some.inj hlast
      rw [hnext.space_eq]
      exact ElfPhdr.raw_mapRange hnext.fits hnext.congruent hoffset
    filled := fun earlier hearlier => by
      rw [hnext.space_eq]
      refine (hfilled earlier hearlier).mapRange ?_
      exact (hbefore earlier hearlier).memEnd_le (hinv.fits earlier hearlier)
    free := fun address haddress => by
      rw [hbss] at haddress
      rw [hnext.space_eq, mapRange_outside fun hin => absurd hin.2 (by omega),
        mapRange_outside, hinv.free address (by omega)]
      -- the cleared part is in front of the new pages
      intro hin
      have hend := hin.2
      have hlen : loop.clearLen ≤ loop.elfBrk - loop.elfBss := Nat.min_le_right _ _
      omega }

/-- All segments. -/
theorem ElfInv.run {host : ElfHost} (hexec : (elfhdr file).eType = etExec)
    (phdrs : List ElfPhdr) (hascending : phdrs.Pairwise ElfPhdr.Before)
    (hoffsets : ∀ phdr ∈ phdrs, phdr.pOffset < 2 ^ 32) {done : List ElfPhdr} {loop final : ElfLoop}
    (hinv : ElfInv file done loop)
    (hbefore : ∀ phdr ∈ phdrs, ∀ earlier ∈ done, earlier.Before phdr)
    (hrun : phdrs.foldlM (elfPhdr host file) loop = .ok final) :
    ElfInv file (phdrs.reverse ++ done) final := by
  induction phdrs generalizing done loop with
  | nil =>
      obtain rfl := Except.ok.inj hrun
      exact hinv
  | cons phdr phdrs ih =>
      obtain ⟨hfirst, hascending⟩ := List.pairwise_cons.mp hascending
      obtain ⟨hoffset, hoffsets⟩ := List.forall_mem_cons.mp hoffsets
      obtain ⟨hphdr, hbefore⟩ := List.forall_mem_cons.mp hbefore
      rw [List.foldlM_cons] at hrun
      obtain ⟨middle, hstep, hrun⟩ := bind_eq_ok.mp hrun
      rw [List.reverse_cons, List.append_assoc]
      refine ih hascending hoffsets (hinv.step hexec hphdr hoffset hstep) ?_ hrun
      exact fun later hlater => List.forall_mem_cons.mpr ⟨hfirst later hlater, hbefore later hlater⟩

theorem elfInv_start :
    ElfInv file [] ⟨⟨LoadState.initial, fun _ => false⟩, 0, 0, 0, false⟩ where
  loadBias_eq := rfl
  record := ⟨rfl, .inl rfl⟩
  elfBss_eq := rfl
  elfBrk_eq := rfl
  ordered := .nil
  fits := fun _ hphdr => absurd hphdr List.not_mem_nil
  raw := fun _ hlast => nomatch hlast
  filled := fun _ hphdr => absurd hphdr List.not_mem_nil
  free := fun _ _ => rfl

end Inv

/-! ## The end of the load -/

/-- What a load of such a program leaves. -/
structure ElfLoaded (file : Image) (after : ElfState) : Prop where
  filled : ∀ phdr ∈ elfLoads file, phdr.Filled file after.space
  fits : ∀ phdr ∈ elfLoads file, phdr.Fits
  record : ElfRecord after.mm
  brk_eq : ∀ last ∈ (elfLoads file).getLast?, after.mm.brk = pageAlign last.memEnd
  free : ∀ last ∈ (elfLoads file).getLast?, ∀ address, pageAlign last.fileEnd ≤ address →
    after.space address = none

section Loaded

variable {host : ElfHost} {openExec : List UInt8 → Except LoadFailure Image}
  {abi personality entry : ℕ} {file : Image} {after : ElfState}

theorem pOffset_lt {phdr : ElfPhdr} (hphdr : phdr ∈ elfLoads file) : phdr.pOffset < 2 ^ 32 := by
  obtain ⟨index, -, rfl⟩ := List.mem_map.mp (List.mem_filter.mp hphdr).1
  exact le32_lt file _

theorem openInterpreter_static (hstatic : ElfStatic file) :
    openInterpreter openExec file = .ok none := by
  have hnone : (elfPhdata file).find? (fun phdr => phdr.pType = ptInterp) = none :=
    List.find?_eq_none.mpr fun phdr hphdr htype =>
      hstatic.alone phdr hphdr (of_decide_eq_true htype)
  rw [openInterpreter, hnone]

theorem finishElf_eq_ok {done : List ElfPhdr} {loop : ElfLoop} (hinv : ElfInv file done loop)
    (hfinish : finishElf host file none loop = .ok (after, entry)) :
    ∃ len, loop.clearLen ≤ len ∧ len ≤ pageRest loop.elfBss ∧
      after.space = mapRange loop.state.space loop.elfBss len (fun _ => 0) ∧
      ElfRecord after.mm ∧ after.mm.brk = pageAlign loop.elfBrk := by
  obtain ⟨hle, hbrk⟩ := hinv.elfBrk_le
  have hword : ∀ address ≤ taskSize, wordAdd address 0 = address := by
    intro address haddress
    rw [taskSize] at haddress
    rw [wordAdd, Nat.add_zero, Nat.mod_eq_of_lt (by omega)]
  rw [finishElf, hinv.loadBias_eq, hword _ hbrk, hword _ (hle.trans hbrk)] at hfinish
  obtain ⟨mm, hset, hfinish⟩ := bind_eq_ok.mp hfinish
  obtain ⟨padded, hpad, hfinish⟩ := bind_eq_ok.mp hfinish
  have hset := setBrk_eq_ok hset
  simp only at hfinish
  split at hfinish
  · cases hfinish
  · obtain ⟨rfl, -⟩ := Prod.mk.inj (Except.ok.inj hfinish)
    rw [padBss] at hpad
    split at hpad
    · obtain ⟨hspace, hmm⟩ := padzero_eq_ok (hle.trans hbrk) hpad
      exact ⟨_, Nat.min_le_left _ _, le_rfl, hspace, hmm ▸ hset.record hinv.record,
        hmm ▸ hset.brk_eq⟩
    · next hsame =>
      obtain rfl := Except.ok.inj hpad
      refine ⟨0, ?_, Nat.zero_le _, mapRange_zero.symm, hset.record hinv.record, hset.brk_eq⟩
      rw [ElfLoop.clearLen, Nat.sub_eq_zero_of_le (not_not.mp hsame).ge, Nat.min_zero]

/-- The page at address zero is all that its mapping changes. -/
theorem mapPageZero_eq (host : ElfHost) (state : ElfState) :
    (∀ address, 4096 ≤ address →
      (mapPageZero host state).space address = state.space address) ∧
      (mapPageZero host state).mm = state.mm := by
  have hrecord : recordMmap state.mm none 0 4096 = state.mm := by
    simp only [recordMmap, Nat.not_lt_zero, and_false, if_false]
  obtain ⟨-, -, hmapped⟩ | ⟨-, errno, hrefused⟩ :=
    binfmtMmap_cases host.toKernel state.toLoadState none 0 4096 0
  · simp only [mapPageZero, hmapped]
    split
    · exact ⟨fun address hhigh => mapRange_outside fun hin => absurd hin.2 (by
        rw [show pageAlign 4096 = 4096 from rfl]
        omega), hrecord⟩
    · exact ⟨fun address hhigh => mapRange_outside fun hin => absurd hin.2 (by
        rw [show pageAlign 4096 = 4096 from rfl]
        omega), hrecord⟩
  · have hsame : mapPageZero host state = state := by
      simp only [mapPageZero, hrefused, isErr_errno_word, if_true]
    rw [hsame]
    exact ⟨fun _ _ => rfl, rfl⟩

/-- A state that differs in the first page only. -/
theorem ElfLoaded.of_pageZero {state : ElfState} (hloaded : ElfLoaded file state)
    (hlow : ∀ phdr ∈ elfLoads file, 4096 ≤ phdr.pVaddr)
    (hspace : ∀ address, 4096 ≤ address → after.space address = state.space address)
    (hmm : after.mm = state.mm) : ElfLoaded file after where
  filled := fun phdr hphdr offset hoffset => by
    have hvaddr := hlow phdr hphdr
    rw [hspace _ (by omega)]
    exact hloaded.filled phdr hphdr offset hoffset
  fits := hloaded.fits
  record := hmm ▸ hloaded.record
  brk_eq := hmm ▸ hloaded.brk_eq
  free := fun last hlast address haddress => by
    have hmem := List.mem_of_getLast? hlast
    have hvaddr := hlow last hmem
    have hfits := hloaded.fits last hmem
    have hpages := le_pageAlign_of_le (hfits.fileEnd_le.trans hfits.end_le)
    have hfileEnd : last.fileEnd = last.pVaddr + last.pFilesz := rfl
    rw [hspace address (by omega)]
    exact hloaded.free last hlast address haddress

theorem elfLoaded_of_eq_ok (hstatic : ElfStatic file)
    (hload : loadElfBinary host openExec abi personality file = .ok (after, entry)) :
    ElfLoaded file after := by
  rw [loadElfBinary] at hload
  obtain ⟨_, -, hload⟩ := bind_eq_ok.mp hload
  obtain ⟨interp, hinterp, hload⟩ := bind_eq_ok.mp hload
  obtain rfl : none = interp :=
    Except.ok.inj ((openInterpreter_static hstatic).symm.trans hinterp)
  obtain ⟨loop, hrun, hload⟩ := bind_eq_ok.mp hload
  obtain ⟨⟨state, stateEntry⟩, hfinish, hload⟩ := bind_eq_ok.mp hload
  have hinv := ElfInv.run hstatic.exec (elfLoads file) hstatic.ascending
    (fun _ hphdr => pOffset_lt hphdr) elfInv_start
    (fun _ _ _ hearlier => absurd hearlier List.not_mem_nil) hrun
  rw [List.append_nil] at hinv
  obtain ⟨len, hlow, hhigh, hspace, hrecord, hbrk⟩ := finishElf_eq_ok hinv hfinish
  have hhead : (elfLoads file).reverse.head? = (elfLoads file).getLast? := List.head?_reverse
  have hstate : ElfLoaded file state := {
    filled := fun phdr hphdr => by
      rw [hspace]
      exact hinv.filled_of_clear hlow hhigh phdr (List.mem_reverse.mpr hphdr)
    fits := fun phdr hphdr => hinv.fits phdr (List.mem_reverse.mpr hphdr)
    record := hrecord
    brk_eq := fun last hlast => by
      rw [hbrk, hinv.elfBrk_eq, hhead, Option.mem_def.mp hlast]
      rfl
    free := fun last hlast address haddress => by
      have hbss : loop.elfBss = last.fileEnd := by
        rw [hinv.elfBss_eq, hhead, Option.mem_def.mp hlast]
        rfl
      rw [← hbss] at haddress
      rw [hspace, mapRange_outside, hinv.free address haddress]
      intro hin
      have hend := hin.2
      have hpages := le_pageAlign_of_le (hinv.elfBrk_le.1.trans hinv.elfBrk_le.2)
      rw [pageRest] at hhigh
      omega }
  simp only at hload
  split at hload
  · obtain ⟨rfl, -⟩ := Prod.mk.inj (Except.ok.inj hload)
    obtain ⟨hkeep, hmm⟩ := mapPageZero_eq host state
    exact hstate.of_pageZero hstatic.low hkeep hmm
  · obtain ⟨rfl, -⟩ := Prod.mk.inj (Except.ok.inj hload)
    exact hstate

end Loaded

/-- A program with one segment, the last 96 bytes of a page; the file has 90 of them. -/
def smallElf : Image := fun pos =>
  if pos = 4000 then 0xc3
  else
    [0x7f, 0x45, 0x4c, 0x46, 0, 0, 0, 0, 0, 0, 0, 0, 0, 0, 0, 0, 2, 0, 3, 0, 0, 0, 0, 0,
      0xa0, 0x8f, 0x04, 0x08, 52, 0, 0, 0, 0, 0, 0, 0, 0, 0, 0, 0, 0, 0, 32, 0, 1, 0, 0, 0,
      0, 0, 0, 0, 1, 0, 0, 0, 0xa0, 0x0f, 0, 0, 0xa0, 0x8f, 0x04, 0x08, 0, 0, 0, 0,
      90, 0, 0, 0, 96, 0, 0, 0, 6, 0, 0, 0].getD pos 0

/-- The kernel grants every mapping. -/
def grantingHost : ElfHost := ⟨⟨fun _ _ => none⟩, fun addr _ => addr⟩

theorem elfPhdata_smallElf :
    elfPhdata smallElf = [⟨1, 4000, 0x8048fa0, 90, 96, 6⟩] := by
  decide

theorem elfLoads_smallElf : elfLoads smallElf = [⟨1, 4000, 0x8048fa0, 90, 96, 6⟩] := by
  rw [elfLoads, elfPhdata_smallElf]
  rfl

theorem elfStatic_smallElf : ElfStatic smallElf where
  exec := by decide
  alone := by
    rw [elfPhdata_smallElf]
    decide
  ascending := by
    rw [elfLoads_smallElf]
    exact List.pairwise_singleton _ _
  low := by
    rw [elfLoads_smallElf]
    decide

theorem exists_load_smallElf : ∃ state entry,
    loadElfBinary grantingHost (fun _ => .error .segfault) 0 0 smallElf = .ok (state, entry) := by
  have hloads :
      (loadElfBinary grantingHost (fun _ => .error .segfault) 0 0 smallElf).isOk := by
    decide
  cases hload : loadElfBinary grantingHost (fun _ => .error .segfault) 0 0 smallElf with
  | error failure =>
      rw [hload] at hloads
      nomatch hloads
  | ok result => exact ⟨result.1, result.2, rfl⟩

end IbcsUs.Loaders
