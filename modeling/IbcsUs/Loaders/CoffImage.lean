import IbcsUs.Loaders.Coff

/-!
# The image of a COFF file

Sections that can be mapped are in memory unless the pages of a later section
are mapped over them or the last page before the mapping of the `.bss` is
cleared over them.  Of a file with sections that can not be mapped only the
`.bss` is ever in memory.
-/

namespace IbcsUs.Loaders

open IbcsUs.Addresses IbcsUs.Memory

/-- The address is one of the section. -/
def CoffSection.Holds (sect : CoffSection) (address : ℕ) : Prop :=
  InRange sect.vaddr sect.size address

/-- The byte of the file that belongs at an address of the section. -/
def CoffSection.byte (sect : CoffSection) (file : Image) (address : ℕ) :
    UInt8 :=
  file (sect.scnptr + (address - sect.vaddr))

/-- Memory holds the sections. -/
structure CoffImageRight (file : Image) (object : CoffObject)
    (space : Space UInt8) : Prop where
  text : ∀ address, object.text.Holds address →
    space address = some (object.text.byte file address)
  data : ∀ address, object.data.Holds address →
    space address = some (object.data.byte file address)
  bss : ∀ address, object.bss.Holds address → space address = some 0

/-- The sections are low, have no address in common, and the `.bss` is behind
the data. -/
structure SectionsApart (object : CoffObject) : Prop where
  text_le : object.text.vaddr + object.text.size ≤ 2 ^ 31
  data_le : object.data.vaddr + object.data.size ≤ 2 ^ 31
  bss_le : object.bss.vaddr + object.bss.size ≤ 2 ^ 31
  text_data : ∀ address, object.text.Holds address →
    ¬ object.data.Holds address
  text_bss : ∀ address, object.text.Holds address → ¬ object.bss.Holds address
  data_le_bss : object.data.vaddr + object.data.size ≤ object.bss.vaddr

/-- The address is one of a section. -/
def CoffObject.Holds (object : CoffObject) (address : ℕ) : Prop :=
  object.text.Holds address ∨ object.data.Holds address ∨
    object.bss.Holds address

/-- The libraries are loaded somewhere else. -/
def LibrariesElsewhere (preload : PreloadShlibs) (object : CoffObject) : Prop :=
  ∀ space after, preload space = .ok after →
    ∀ address, object.Holds address → after address = space address

/-- The text survives the sections that are mapped after it. -/
def TextSurvives (kernel : Kernel) (file : Image) (object : CoffObject) :
    Prop :=
  ∀ address, object.text.Holds address →
    if object.bss.Zeroed kernel address then
      object.text.byte file address = 0
    else object.data.size ≠ 0 → object.data.InPages address →
      object.data.pageByte file address = object.text.byte file address

/-- The kernel maps the `.bss`, or it has no pages of its own, or there are
zeros of the text in them. -/
def BssBacked (kernel : Kernel) (file : Image) (object : CoffObject) : Prop :=
  object.bss.size = 0 ∨ object.bss.BssGranted kernel ∨
    ∀ address, object.bss.Holds address →
      pageAlign object.bss.vaddr ≤ address →
        object.text.InPages address ∧ object.text.pageByte file address = 0

/-- There is nothing to read, because there is no data and the text is zeros in
the pages of the `.bss`. -/
def NothingToRead (kernel : Kernel) (file : Image) (object : CoffObject) :
    Prop :=
  object.data.size = 0 ∧
    (∀ address, object.text.Holds address →
      object.bss.Zeroed kernel address ∧ object.text.byte file address = 0) ∧
    (object.bss.size = 0 ∨ object.bss.BssGranted kernel)

/-- The files that `coff_load_object` loads as they say. -/
def CoffMeets (kernel : Kernel) (file : Image) (object : CoffObject) : Prop :=
  if object.pageable then
    TextSurvives kernel file object ∧ BssBacked kernel file object
  else NothingToRead kernel file object

variable {kernel : Kernel} {preload : PreloadShlibs} {file : Image}
  {object : CoffObject} {state after : LoadState} {sect : CoffSection}
  {address : ℕ}

section Headers

/-- The fields of a section are words. -/
structure CoffSection.Words (sect : CoffSection) : Prop where
  scnptr_lt : sect.scnptr < 2 ^ 32
  size_lt : sect.size < 2 ^ 32
  vaddr_lt : sect.vaddr < 2 ^ 32

/-- The section is at the same place in a page of memory as in the file. -/
def CoffSection.Aligned (sect : CoffSection) : Prop :=
  sect.vaddr % 4096 = sect.scnptr % 4096

/-- What the headers say of the sections. -/
structure CoffObject.WellFormed (object : CoffObject) : Prop where
  text_words : object.text.Words
  data_words : object.data.Words
  bss_words : object.bss.Words
  aligned : object.pageable → object.text.Aligned ∧ object.data.Aligned

theorem words_of_onlySection {type : ℕ} {sect : CoffScnhdr}
    (honly : onlySection (sectBufr file) type = some sect) :
    sect.section.Words := by
  have hmem : sect ∈ sectBufr file := by
    simp only [onlySection] at honly
    split at honly
    · next only hfilter =>
      obtain rfl := Option.some.inj honly
      exact List.mem_of_mem_filter (hfilter ▸ List.mem_singleton_self only)
    · nomatch honly
  obtain ⟨index, -, rfl⟩ := List.mem_map.1 hmem
  exact ⟨le32_lt _ _, le32_lt _ _, le32_lt _ _⟩

theorem aligned_of_coffIsaligned {sect : CoffScnhdr}
    (hwords : sect.section.Words) (haligned : coffIsaligned sect) :
    sect.section.Aligned := by
  have hscnptr : sect.sScnptr < 2 ^ 32 := hwords.scnptr_lt
  have hvaddr : sect.sVaddr < 2 ^ 32 := hwords.vaddr_lt
  have hmod := of_decide_eq_true haligned
  simp only [wordSub] at hmod
  simp only [CoffSection.Aligned, CoffScnhdr.section]
  omega

theorem coffObject_wellFormed (hobject : coffObject file = .ok object) :
    object.WellFormed := by
  simp only [coffObject] at hobject
  iterate 6
    split at hobject
    · nomatch hobject
  split at hobject
  · next text data bss htext hdata hbss =>
    obtain ⟨-, -, hobject⟩ := bind_eq_ok.1 hobject
    obtain rfl := Except.ok.inj hobject
    have htextWords := words_of_onlySection htext
    have hdataWords := words_of_onlySection hdata
    refine ⟨htextWords, hdataWords, words_of_onlySection hbss, ?_⟩
    intro hpageable
    obtain ⟨htextAligned, hdataAligned⟩ := Bool.and_eq_true_iff.1 hpageable
    exact ⟨aligned_of_coffIsaligned htextWords htextAligned,
      aligned_of_coffIsaligned hdataWords hdataAligned⟩
  · nomatch hobject

end Headers

section Pages

variable {bss : CoffSection}

theorem not_holds_of_size_zero (hsize : sect.size = 0) :
    ¬ sect.Holds address := by
  rw [CoffSection.Holds, hsize]
  exact not_inRange_zero

theorem SectionsApart.bss_low (hapart : SectionsApart object) :
    object.bss.vaddr ≤ 2 ^ 31 := by
  have hend := hapart.bss_le
  omega

/-- The pages that a section is mapped to hold it. -/
theorem inPages_of_holds (hend : sect.vaddr + sect.size ≤ 2 ^ 31)
    (hgranted : Granted kernel (pageMask sect.vaddr)
      (wordAdd sect.size (sect.vaddr % 4096)))
    (hholds : sect.Holds address) : sect.InPages address := by
  have hlen : wordAdd sect.size (sect.vaddr % 4096) =
      sect.size + sect.vaddr % 4096 :=
    Nat.mod_eq_of_lt (by omega)
  have hpages := le_pageAlign hgranted.2.2.1 (by rw [hlen]; omega)
  simp only [CoffSection.Holds, CoffSection.InPages, InRange] at hholds ⊢
  rw [hlen] at hpages ⊢
  simp only [pageMask]
  omega

theorem pageByte_of_holds (haligned : sect.Aligned)
    (hholds : sect.Holds address) :
    sect.pageByte file address = sect.byte file address := by
  have hstart := hholds.1
  rw [CoffSection.pageByte, CoffSection.byte]
  congr 1
  simp only [CoffSection.Aligned, pageMask] at haligned ⊢
  omega

/-- The pages of a section before the `.bss` end where its own pages begin. -/
theorem lt_pageAlign_of_inPages (hend : sect.vaddr + sect.size ≤ bss.vaddr)
    (hbss : bss.vaddr ≤ 2 ^ 31) (hin : sect.InPages address) :
    address < pageAlign bss.vaddr := by
  simp only [CoffSection.InPages, InRange, pageAlign, pageMask,
    wordAdd] at hin ⊢
  omega

theorem vaddr_add_clearSize (hlow : bss.vaddr ≤ 2 ^ 31) :
    bss.vaddr + clearSize bss.vaddr = pageAlign bss.vaddr := by
  simp only [clearSize, pageAlign, pageMask, wordAdd]
  omega

theorem vaddr_le_of_zeroed (hlow : bss.vaddr ≤ 2 ^ 31)
    (hzeroed : bss.Zeroed kernel address) : bss.vaddr ≤ address := by
  obtain hclear | hpages := hzeroed.2
  · exact hclear.1
  · exact (pageAlign_bounds (by omega)).1.trans hpages.2.1

/-- The part of the `.bss` in the page it starts in is cleared. -/
theorem zeroed_of_lt (hlow : bss.vaddr ≤ 2 ^ 31) (hholds : bss.Holds address)
    (hlt : address < pageAlign bss.vaddr) : bss.Zeroed kernel address := by
  have hclear := vaddr_add_clearSize hlow
  exact ⟨fun hsize => not_holds_of_size_zero hsize hholds,
    .inl ⟨hholds.1, by omega⟩⟩

theorem zeroed_of_granted (hend : bss.vaddr + bss.size ≤ 2 ^ 31)
    (hgranted : bss.BssGranted kernel) (hholds : bss.Holds address) :
    bss.Zeroed kernel address := by
  have hlow : bss.vaddr ≤ 2 ^ 31 := by omega
  by_cases hlt : address < pageAlign bss.vaddr
  · exact zeroed_of_lt hlow hholds hlt
  have hpages : bss.bssLen ≤ pageAlign bss.bssLen :=
    le_pageAlign hgranted.2.2.1 (Nat.mod_lt _ (by decide))
  have hlen : pageAlign bss.vaddr + bss.bssLen = bss.vaddr + bss.size := by
    have hholdsEnd := hholds.2
    simp only [CoffSection.bssLen, wordSub, wordAdd]
    omega
  refine ⟨fun hsize => not_holds_of_size_zero hsize hholds,
    .inr ⟨hgranted, Nat.not_lt.1 hlt, ?_⟩⟩
  have hholdsEnd := hholds.2
  omega

theorem not_zeroed_of_not_granted (hlow : bss.vaddr ≤ 2 ^ 31)
    (hgranted : ¬ bss.BssGranted kernel)
    (hle : pageAlign bss.vaddr ≤ address) : ¬ bss.Zeroed kernel address := by
  rintro ⟨-, hclear | hpages⟩
  · have hend := vaddr_add_clearSize hlow
    have hlt := hclear.2
    omega
  · exact hgranted hpages.1

end Pages

section Images

/-- What the mappings of the text and the data section have at an address. -/
def CoffObject.mappedByte (object : CoffObject) (file : Image) (address : ℕ) :
    Option UInt8 :=
  if object.data.size ≠ 0 ∧ object.data.InPages address then
    some (object.data.pageByte file address)
  else if object.text.InPages address then
    some (object.text.pageByte file address)
  else none

/-- Memory with the text and the data section mapped. -/
theorem loadSections_pageable (hpageable : object.pageable)
    (hload : loadSections kernel file object = .ok state) :
    Granted kernel (pageMask object.text.vaddr)
        (wordAdd object.text.size (object.text.vaddr % 4096)) ∧
      (object.data.size ≠ 0 → Granted kernel (pageMask object.data.vaddr)
        (wordAdd object.data.size (object.data.vaddr % 4096))) ∧
      state.space = object.mappedByte file := by
  rw [loadSections, if_pos hpageable] at hload
  obtain ⟨middle, htext, hdata⟩ := bind_eq_ok.1 hload
  refine ⟨(mapSection_eq_ok htext).1, ?_, ?_⟩
  · intro hsize
    rw [if_pos hsize] at hdata
    exact (mapSection_eq_ok hdata).1
  · funext address
    by_cases hsize : object.data.size = 0
    · rw [if_neg (not_not.2 hsize)] at hdata
      obtain rfl := Except.ok.inj hdata
      simp only [space_mapSection htext, CoffObject.mappedByte, hsize, ne_eq,
        not_true, false_and, if_false]
      rfl
    · rw [if_pos hsize] at hdata
      simp only [space_mapSection hdata, space_mapSection htext,
        CoffObject.mappedByte, hsize, ne_eq, not_false_eq_true, true_and]
      rfl

theorem loadSections_not_pageable (hpageable : ¬ object.pageable)
    (hload : loadSections kernel file object = .ok state) :
    state.space = fun _ => none := by
  rw [loadSections, if_neg hpageable] at hload
  obtain rfl := Except.ok.inj hload
  exact space_readSections file object

/-- The right image is a matter of what the loader itself has built. -/
theorem coffImageRight_congr {left right : Space UInt8}
    (hsame : ∀ address, object.Holds address → left address = right address) :
    CoffImageRight file object left ↔ CoffImageRight file object right := by
  suffices hmp : ∀ left right : Space UInt8,
      (∀ address, object.Holds address → left address = right address) →
        CoffImageRight file object left → CoffImageRight file object right from
    ⟨hmp left right hsame,
      hmp right left fun address hholds => (hsame address hholds).symm⟩
  intro left right hsame hright
  refine ⟨fun address hholds => ?_, fun address hholds => ?_,
    fun address hholds => ?_⟩
  · rw [← hsame address (.inl hholds), hright.text address hholds]
  · rw [← hsame address (.inr (.inl hholds)), hright.data address hholds]
  · rw [← hsame address (.inr (.inr hholds)), hright.bss address hholds]

variable {space : Space UInt8}

/-- The data is before everything that is zeroed, and always right. -/
theorem data_right (hwell : object.WellFormed) (hapart : SectionsApart object)
    (hpageable : object.pageable)
    (hdata : object.data.size ≠ 0 → Granted kernel (pageMask object.data.vaddr)
      (wordAdd object.data.size (object.data.vaddr % 4096)))
    (hspace : ∀ address, space address =
      if object.bss.Zeroed kernel address then some 0
      else object.mappedByte file address)
    (hholds : object.data.Holds address) :
    space address = some (object.data.byte file address) := by
  have hsize : object.data.size ≠ 0 := fun hsize =>
    not_holds_of_size_zero hsize hholds
  have hzeroed : ¬ object.bss.Zeroed kernel address := by
    intro hzeroed
    have hle := vaddr_le_of_zeroed hapart.bss_low hzeroed
    have hlt := hholds.2.trans_le hapart.data_le_bss
    omega
  have hin := inPages_of_holds hapart.data_le (hdata hsize) hholds
  rw [hspace, if_neg hzeroed, CoffObject.mappedByte, if_pos ⟨hsize, hin⟩,
    pageByte_of_holds (hwell.aligned hpageable).2 hholds]

theorem text_right_iff (hwell : object.WellFormed)
    (hapart : SectionsApart object)
    (hpageable : object.pageable)
    (htext : Granted kernel (pageMask object.text.vaddr)
      (wordAdd object.text.size (object.text.vaddr % 4096)))
    (hspace : ∀ address, space address =
      if object.bss.Zeroed kernel address then some 0
      else object.mappedByte file address) :
    (∀ address, object.text.Holds address →
      space address = some (object.text.byte file address)) ↔
      TextSurvives kernel file object := by
  refine forall₂_congr fun address hholds => ?_
  have hin := inPages_of_holds hapart.text_le htext hholds
  have hbyte := @pageByte_of_holds file _ _
    (hwell.aligned hpageable).1 hholds
  rw [hspace address]
  split
  · rw [Option.some.injEq]
    exact eq_comm
  · rw [CoffObject.mappedByte]
    by_cases hdata : object.data.size ≠ 0 ∧ object.data.InPages address
    · rw [if_pos hdata, Option.some.injEq]
      exact ⟨fun heq _ _ => heq, fun hall => hall hdata.1 hdata.2⟩
    · rw [if_neg hdata, if_pos hin, hbyte]
      exact iff_of_true rfl fun hsize hpages => absurd ⟨hsize, hpages⟩ hdata

theorem bss_right_iff (hapart : SectionsApart object)
    (hspace : ∀ address, space address =
      if object.bss.Zeroed kernel address then some 0
      else object.mappedByte file address) :
    (∀ address, object.bss.Holds address → space address = some 0) ↔
      BssBacked kernel file object := by
  have hlow := hapart.bss_low
  by_cases hsize : object.bss.size = 0
  · refine iff_of_true (fun address hholds => ?_) (.inl hsize)
    exact absurd hholds (not_holds_of_size_zero hsize)
  by_cases hgranted : object.bss.BssGranted kernel
  · refine iff_of_true (fun address hholds => ?_) (.inr (.inl hgranted))
    rw [hspace, if_pos (zeroed_of_granted hapart.bss_le hgranted hholds)]
  rw [BssBacked, or_iff_right hsize, or_iff_right hgranted]
  refine forall₂_congr fun address hholds => ?_
  by_cases hle : pageAlign object.bss.vaddr ≤ address
  · -- no page of the data reaches this far
    have hdata : ¬ object.data.InPages address := fun hin =>
      absurd (lt_pageAlign_of_inPages hapart.data_le_bss hlow hin)
        (Nat.not_lt.2 hle)
    rw [hspace, if_neg (not_zeroed_of_not_granted hlow hgranted hle),
      CoffObject.mappedByte, if_neg fun hboth => hdata hboth.2]
    split
    · next hin => simp [hin, hle]
    · next hin => simp [hin, hle]
  · refine iff_of_true ?_ fun hle' => absurd hle' hle
    rw [hspace, if_pos (zeroed_of_lt hlow hholds (Nat.not_le.1 hle))]

/-- A file whose sections are mapped is in memory as it says exactly when its
text survives and its `.bss` is backed. -/
theorem right_pageable_iff (hwell : object.WellFormed)
    (hapart : SectionsApart object) (hpageable : object.pageable)
    (hload : loadSections kernel file object = .ok state)
    (hbss : mapBss kernel state object.bss = .ok after) :
    CoffImageRight file object after.space ↔
      TextSurvives kernel file object ∧ BssBacked kernel file object := by
  obtain ⟨htext, hdata, hstate⟩ := loadSections_pageable hpageable hload
  have hspace (address : ℕ) : after.space address =
      if object.bss.Zeroed kernel address then some 0
      else object.mappedByte file address := by
    rw [space_mapBss hbss, hstate]
  rw [← text_right_iff hwell hapart hpageable htext hspace,
    ← bss_right_iff hapart hspace]
  constructor
  · exact fun hright => ⟨hright.text, hright.bss⟩
  · exact fun ⟨htextRight, hbssRight⟩ => ⟨htextRight, fun address hholds =>
      data_right hwell hapart hpageable hdata hspace hholds, hbssRight⟩

/-- Without anything mapped the `.bss` starts a page, or there would be nothing
to clear in the page it starts in. -/
theorem clearSize_of_unmapped (hlow : object.bss.vaddr ≤ 2 ^ 31)
    (hstate : state.space = fun _ => none)
    (hbss : mapBss kernel state object.bss = .ok after)
    (hsize : object.bss.size ≠ 0) : clearSize object.bss.vaddr = 0 := by
  by_contra hclear
  have hend := vaddr_add_clearSize hlow
  have hfirst : InRange object.bss.vaddr (clearSize object.bss.vaddr)
      object.bss.vaddr := ⟨le_rfl, by omega⟩
  obtain hpages | hsome := isSome_of_mapBss hbss hsize hfirst
  · have hstart := hpages.2.1
    omega
  · rw [hstate] at hsome
    nomatch hsome

theorem right_not_pageable_iff (hapart : SectionsApart object)
    (hpageable : ¬ object.pageable)
    (hload : loadSections kernel file object = .ok state)
    (hbss : mapBss kernel state object.bss = .ok after) :
    CoffImageRight file object after.space ↔
      NothingToRead kernel file object := by
  have hlow := hapart.bss_low
  have hstate := loadSections_not_pageable hpageable hload
  have hspace (address : ℕ) : after.space address =
      if object.bss.Zeroed kernel address then some 0 else none := by
    rw [space_mapBss hbss, hstate]
  constructor
  · intro hright
    refine ⟨?_, fun address hholds => ?_, ?_⟩
    · by_contra hsize
      have hholds : object.data.Holds object.data.vaddr := ⟨le_rfl, by omega⟩
      have hbyte := hright.data _ hholds
      rw [hspace] at hbyte
      split at hbyte
      · next hzeroed =>
        have hle := vaddr_le_of_zeroed hlow hzeroed
        have hend := hapart.data_le_bss
        omega
      · nomatch hbyte
    · have hbyte := hright.text address hholds
      rw [hspace] at hbyte
      split at hbyte
      · next hzeroed => exact ⟨hzeroed, (Option.some.inj hbyte).symm⟩
      · nomatch hbyte
    · refine or_iff_not_imp_left.2 fun hsize => ?_
      by_contra hgranted
      have hclear := clearSize_of_unmapped hlow hstate hbss hsize
      have hend := vaddr_add_clearSize hlow
      have hbyte := hright.bss object.bss.vaddr ⟨le_rfl, by omega⟩
      rw [hspace, if_neg (not_zeroed_of_not_granted hlow hgranted
        (by omega))] at hbyte
      nomatch hbyte
  · rintro ⟨hdata, htext, hbacked⟩
    refine ⟨fun address hholds => ?_, fun address hholds => ?_,
      fun address hholds => ?_⟩
    · obtain ⟨hzeroed, hbyte⟩ := htext address hholds
      rw [hspace, if_pos hzeroed, hbyte]
    · exact absurd hholds (not_holds_of_size_zero hdata)
    · obtain hsize | hgranted := hbacked
      · exact absurd hholds (not_holds_of_size_zero hsize)
      · rw [hspace,
          if_pos (zeroed_of_granted hapart.bss_le hgranted hholds)]

/-- A file that is loaded is in memory as it says exactly when its sections are
mapped, the text survives and the `.bss` is backed, or there is nothing to read.
-/
theorem coffImage_right_iff (hobject : coffObject file = .ok object)
    (hload : coffLoadObject kernel preload file = .ok after)
    (hapart : SectionsApart object)
    (hlibraries : LibrariesElsewhere preload object) :
    CoffImageRight file object after.space ↔ CoffMeets kernel file object := by
  obtain ⟨middle, hsections, built, hbss, -, hspace⟩ :=
    coffLoadObject_cases hobject hload
  have hwell := coffObject_wellFormed hobject
  have hbuilt : CoffImageRight file object after.space ↔
      CoffImageRight file object built.space := by
    obtain hsame | hpreload := hspace
    · rw [hsame]
    · exact coffImageRight_congr (hlibraries _ _ hpreload)
  rw [hbuilt, CoffMeets]
  split
  · next hpageable =>
    exact right_pageable_iff hwell hapart hpageable hsections hbss
  · next hpageable =>
    exact right_not_pageable_iff hapart hpageable hsections hbss

/-- A file with a byte of text for 0x1000, a byte of data for 0x2000 and a byte
of `.bss` at 0x3000. -/
def smallCoff (scnptr : UInt8 × UInt8) : Image := fun pos =>
  if pos = 0x1000 ∨ pos = 0x2000 then 0xc3
  else
    [0x4c, 0x01, 3, 0, 0, 0, 0, 0, 0, 0, 0, 0, 0, 0, 0, 0, 0, 0, 0x02, 0x01,
      0, 0, 0, 0, 0, 0, 0, 0, 0, 0, 0, 0, 0, 0x10, 0, 0, 1, 0, 0, 0,
      scnptr.1, scnptr.2, 0, 0, 0, 0, 0, 0, 0, 0, 0, 0, 0, 0, 0, 0,
      0x20, 0, 0, 0,
      0, 0, 0, 0, 0, 0, 0, 0, 0, 0, 0, 0, 0, 0x20, 0, 0, 1, 0, 0, 0,
      0, 0x20, 0, 0, 0, 0, 0, 0, 0, 0, 0, 0, 0, 0, 0, 0, 0x40, 0, 0, 0,
      0, 0, 0, 0, 0, 0, 0, 0, 0, 0, 0, 0, 0, 0x30, 0, 0, 1, 0, 0, 0,
      0, 0, 0, 0, 0, 0, 0, 0, 0, 0, 0, 0, 0, 0, 0, 0, 0x80, 0, 0, 0].getD pos 0

/-- What the headers of `smallCoff` say. -/
def smallObject (scnptr : ℕ) (pageable : Bool) : CoffObject :=
  ⟨⟨scnptr, 1, 0x1000⟩, ⟨0x2000, 1, 0x2000⟩, ⟨0, 1, 0x3000⟩, pageable, false⟩

theorem sectionsApart_small (scnptr : ℕ) (pageable : Bool) :
    SectionsApart (smallObject scnptr pageable) where
  text_le := by simp [smallObject]
  data_le := by simp [smallObject]
  bss_le := by simp [smallObject]
  text_data address := by
    simp only [smallObject, CoffSection.Holds, InRange]
    omega
  text_bss address := by
    simp only [smallObject, CoffSection.Holds, InRange]
    omega
  data_le_bss := by simp [smallObject]

theorem librariesElsewhere_ok (object : CoffObject) :
    LibrariesElsewhere .ok object :=
  fun _ _ hpreload _ _ => congrFun (Except.ok.inj hpreload).symm _

/-- With its text at the start of a page of the file it is mapped. -/
theorem coffImage_right_mapped :
    ∃ state, coffLoadObject ⟨fun _ _ => none⟩ .ok (smallCoff (0, 0x10)) =
        .ok state ∧
      CoffImageRight (smallCoff (0, 0x10)) (smallObject 0x1000 true)
        state.space := by
  have hobject : coffObject (smallCoff (0, 0x10)) =
      .ok (smallObject 0x1000 true) := by
    decide
  have hloads : (coffLoadObject ⟨fun _ _ => none⟩ .ok
      (smallCoff (0, 0x10))).isOk := by
    decide
  cases hload : coffLoadObject ⟨fun _ _ => none⟩ .ok (smallCoff (0, 0x10)) with
  | error failure =>
      rw [hload] at hloads
      nomatch hloads
  | ok state =>
      refine ⟨state, rfl, (coffImage_right_iff hobject hload
        (sectionsApart_small _ _) (librariesElsewhere_ok _)).2 ⟨?_, ?_⟩⟩
      · intro address hholds
        have haddress : address = 0x1000 := by
          simp only [smallObject, CoffSection.Holds, InRange] at hholds
          omega
        subst haddress
        decide
      · exact .inr (.inl (by decide))

/-- With its text anywhere else in the file nothing is loaded. -/
theorem coffImage_nothing :
    ∃ state, coffObject (smallCoff (140, 0)) = .ok (smallObject 140 false) ∧
      coffLoadObject ⟨fun _ _ => none⟩ .ok (smallCoff (140, 0)) = .ok state ∧
      SectionsApart (smallObject 140 false) ∧
      LibrariesElsewhere .ok (smallObject 140 false) ∧
      ¬ CoffImageRight (smallCoff (140, 0)) (smallObject 140 false)
        state.space := by
  have hbyte : (coffLoadObject ⟨fun _ _ => none⟩ .ok (smallCoff (140, 0))).map
      (fun state => state.space 0x2000) = .ok none := by
    decide
  cases hload : coffLoadObject ⟨fun _ _ => none⟩ .ok (smallCoff (140, 0)) with
  | error failure =>
      rw [hload] at hbyte
      nomatch hbyte
  | ok state =>
      refine ⟨state, by decide, rfl, sectionsApart_small _ _,
        librariesElsewhere_ok _, fun hright => ?_⟩
      rw [hload] at hbyte
      have hnone : state.space 0x2000 = none := Except.ok.inj hbyte
      have hfirst := hright.data 0x2000 ⟨by decide, by decide⟩
      nomatch hnone.symm.trans hfirst

end Images

end IbcsUs.Loaders
