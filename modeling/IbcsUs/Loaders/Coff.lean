import IbcsUs.Loaders.Mmap

/-!
# Loading a COFF file

`coff_load_object` maps the text and the data section from the file if both can
be mapped, and the `.bss` without a file.  If they can not, it asks `do_brk` for
memory and reads the file into it, but with the places in the file for lengths.
The shared libraries of a program are loaded by the kernel's own `uselib`, which
is a parameter.
-/

namespace IbcsUs.Loaders

open IbcsUs.Addresses IbcsUs.Memory

/-- The fields of `COFF_SCNHDR` that the loader reads. -/
structure CoffScnhdr where
  sVaddr : ℕ
  sSize : ℕ
  sScnptr : ℕ
  sFlags : ℕ
  deriving DecidableEq

/-- `COFF_SCNHSZ`. -/
def coffScnhsz : ℕ := 40

/-- `COFF_FILHSZ`. -/
def coffFilhsz : ℕ := 20

/-- The section header at a place in the file. -/
def scnhdrAt (file : Image) (pos : ℕ) : CoffScnhdr where
  sVaddr := le32 file (pos + 12)
  sSize := le32 file (pos + 16)
  sScnptr := le32 file (pos + 20)
  sFlags := le32 file (pos + 36)

/-- `COFF_SHORT`. -/
def coffShort (file : Image) (pos : ℕ) : ℤ :=
  if le16 file pos < 2 ^ 15 then le16 file pos else le16 file pos - 2 ^ 16

/-- `struct coff_section`. -/
structure CoffSection where
  scnptr : ℕ
  size : ℕ
  vaddr : ℕ
  deriving DecidableEq

/-- The section of a header. -/
def CoffScnhdr.section (sect : CoffScnhdr) : CoffSection :=
  ⟨sect.sScnptr, sect.sSize, sect.sVaddr⟩

/-- What the loader takes from the headers of an executable. -/
structure CoffObject where
  text : CoffSection
  data : CoffSection
  bss : CoffSection
  pageable : Bool
  hasLibs : Bool
  deriving DecidableEq

/-- `COFF_STYP_TEXT`. -/
def coffStypText : ℕ := 0x20

/-- `COFF_STYP_DATA`. -/
def coffStypData : ℕ := 0x40

/-- `COFF_STYP_BSS`. -/
def coffStypBss : ℕ := 0x80

/-- `COFF_STYP_LIB`. -/
def coffStypLib : ℕ := 0x800

/-- `coff_isaligned`. -/
def coffIsaligned (sect : CoffScnhdr) : Bool :=
  wordSub sect.sVaddr sect.sScnptr % 4096 = 0

/-- `sect_bufr`. -/
def sectBufr (file : Image) : List CoffScnhdr :=
  (List.range (le16 file 2)).map fun index =>
    scnhdrAt file (le16 file 16 + coffFilhsz + coffScnhsz * index)

/-- The one section of a type. -/
def onlySection (sections : List CoffScnhdr) (type : ℕ) : Option CoffScnhdr :=
  match sections.filter fun sect => sect.sFlags = type with
  | [sect] => some sect
  | _ => none

/-- The check of the optional header of an executable. -/
def checkAouthdr (file : Image) : Except LoadFailure Unit :=
  let aoutSize := coffShort file 16
  let aoutMagic := le16 file coffFilhsz
  if aoutSize = 0 then .ok ()
  else if aoutSize < 28 then .error (.status enoexec.word)
  else if aoutMagic = 0o404 ∨ aoutMagic = 0o413 ∨ aoutMagic = 0o401 then .ok ()
  else .error (.status enoexec.word)

/-- The part of `coff_load_object` before the point of no return, for an
executable. -/
def coffObject (file : Image) : Except LoadFailure CoffObject :=
  let flags := le16 file 18
  if le16 file 0 ≠ 0x14c then .error (.status enoexec.word)
  else if flags &&& (0o400 ||| 0o200) ≠ 0o400 then
    .error (.status enoexec.word)
  else if flags &&& 0o2 = 0 then .error (.status enoexec.word)
  else if coffShort file 2 = 0 then .error (.status enoexec.word)
  else if coffShort file 2 < 0 then .error (.status enomem.word)
  else if coffShort file 16 + coffFilhsz < 0 then .error (.status einval.word)
  else
    let sections := sectBufr file
    match onlySection sections coffStypText, onlySection sections coffStypData,
      onlySection sections coffStypBss with
    | some text, some data, some bss => do
        checkAouthdr file
        .ok {
          text := text.section
          data := data.section
          bss := bss.section
          pageable := coffIsaligned text && coffIsaligned data
          hasLibs := sections.any fun sect => sect.sFlags = coffStypLib }
    | _, _, _ => .error (.status enoexec.word)

/-- `map_coff`. -/
def mapCoff (kernel : Kernel) (state : LoadState) (file : Image)
    (sect : CoffSection) (offset : ℕ) : LoadState × ℕ :=
  binfmtMmap kernel state (some file) (pageMask sect.vaddr)
    (wordAdd sect.size (sect.vaddr % 4096)) offset

/-- The mapping of the text or the data section. -/
def mapSection (kernel : Kernel) (state : LoadState) (file : Image)
    (sect : CoffSection) : Except LoadFailure LoadState :=
  let (state, mAddr) := mapCoff kernel state file sect (pageMask sect.scnptr)
  if mAddr ≠ pageMask sect.vaddr then .error (.status enoexec.word)
  else .ok state

/-- The way to load sections that can not be mapped.  Nothing is mapped at the
address zero of the record, so the kernel refuses the `mremap` of `do_brk`. -/
def readSections (state : LoadState) (file : Image) (object : CoffObject) :
    LoadState :=
  let pos := object.data.scnptr
  let mm := (doBrk ⟨state.mm, ⟨0, 0⟩, 0⟩ object.text.vaddr object.text.size
    (.refused efault)).1.mm
  let (space, got) :=
    fileRead file state.space object.data.vaddr object.data.scnptr pos
  let pos := if isErr got then pos else pos + got
  let mm := (doBrk ⟨mm, ⟨0, 0⟩, 0⟩ object.data.vaddr object.data.size
    (.refused efault)).1.mm
  let (space, _) :=
    fileRead file space object.text.vaddr object.text.scnptr pos
  ⟨space, mm⟩

/-- The size that `coff_clear_memory` computes for itself. -/
def clearSize (addr : ℕ) : ℕ := (4096 - addr % 4096) % 4096

/-- `coff_clear_memory`. -/
def coffClearMemory (state : LoadState) (addr : ℕ) :
    Except LoadFailure LoadState :=
  clearMemory state addr (clearSize addr)

/-- The length of the mapping for the `.bss`. -/
def CoffSection.bssLen (bss : CoffSection) : ℕ :=
  wordSub (wordAdd bss.size bss.vaddr) (pageAlign bss.vaddr)

/-- The construction of the `.bss`.  Nobody looks at what the mapping returns.
-/
def mapBss (kernel : Kernel) (state : LoadState) (bss : CoffSection) :
    Except LoadFailure LoadState :=
  if bss.size ≠ 0 then
    let (state, _) :=
      binfmtMmap kernel state none (pageAlign bss.vaddr) bss.bssLen 0
    coffClearMemory state bss.vaddr
  else .ok state

/-- `coff_preload_shlibs`, by what it does to memory. -/
abbrev PreloadShlibs := Space UInt8 → Except LoadFailure (Space UInt8)

/-- Nothing is mapped and the break is at the end of the `.bss`. -/
def coffStart (object : CoffObject) : LoadState :=
  { LoadState.initial with
    mm := { LoadState.initial.mm with
      brk := wordAdd object.bss.size object.bss.vaddr } }

/-- The text and the data section, put into memory one way or the other. -/
def loadSections (kernel : Kernel) (file : Image) (object : CoffObject) :
    Except LoadFailure LoadState :=
  if object.pageable then do
    let state ← mapSection kernel (coffStart object) file object.text
    if object.data.size ≠ 0 then mapSection kernel state file object.data
    else .ok state
  else .ok (readSections (coffStart object) file object)

/-- `coff_load_object`, for an executable. -/
def coffLoadObject (kernel : Kernel) (preload : PreloadShlibs) (file : Image) :
    Except LoadFailure LoadState := do
  let object ← coffObject file
  let state ← loadSections kernel file object
  let state ← mapBss kernel state object.bss
  if object.hasLibs then do
    let space ← preload state.space
    .ok { state with space := space }
  else .ok state

/-! ## The steps of a load that does not fail -/

/-- The addresses of the pages that a section is mapped to. -/
def CoffSection.InPages (sect : CoffSection) (address : ℕ) : Prop :=
  InRange (pageMask sect.vaddr)
    (pageAlign (wordAdd sect.size (sect.vaddr % 4096))) address

instance (sect : CoffSection) (address : ℕ) :
    Decidable (sect.InPages address) :=
  inferInstanceAs (Decidable (InRange _ _ _))

/-- The byte of the file that is mapped to an address of its pages. -/
def CoffSection.pageByte (sect : CoffSection) (file : Image) (address : ℕ) :
    UInt8 :=
  file (pageMask sect.scnptr + (address - pageMask sect.vaddr))

/-- The kernel maps the pages of the `.bss`. -/
def CoffSection.BssGranted (bss : CoffSection) (kernel : Kernel) : Prop :=
  Granted kernel (pageAlign bss.vaddr) bss.bssLen

instance (bss : CoffSection) (kernel : Kernel) :
    Decidable (bss.BssGranted kernel) :=
  inferInstanceAs (Decidable (Granted _ _ _))

/-- The address is in the pages mapped for the `.bss`, or in the rest of the
page that it starts in. -/
def CoffSection.Zeroed (bss : CoffSection) (kernel : Kernel) (address : ℕ) :
    Prop :=
  bss.size ≠ 0 ∧
    (InRange bss.vaddr (clearSize bss.vaddr) address ∨
      bss.BssGranted kernel ∧
        InRange (pageAlign bss.vaddr) (pageAlign bss.bssLen) address)

instance (bss : CoffSection) (kernel : Kernel) (address : ℕ) :
    Decidable (bss.Zeroed kernel address) :=
  inferInstanceAs (Decidable (_ ∧ _))

variable {kernel : Kernel} {preload : PreloadShlibs} {file : Image}
  {object : CoffObject} {state after : LoadState} {sect bss : CoffSection}

theorem mapSection_eq_ok
    (hmap : mapSection kernel state file sect = .ok after) :
    Granted kernel (pageMask sect.vaddr)
        (wordAdd sect.size (sect.vaddr % 4096)) ∧
      after = state.mapped (some file) (pageMask sect.vaddr)
        (wordAdd sect.size (sect.vaddr % 4096)) (pageMask sect.scnptr) := by
  obtain ⟨hgranted, -, hmapped⟩ | ⟨-, errno, hrefused⟩ :=
    binfmtMmap_cases kernel state (some file) (pageMask sect.vaddr)
      (wordAdd sect.size (sect.vaddr % 4096)) (pageMask sect.scnptr)
  · simp only [mapSection, mapCoff, hmapped, ne_eq, not_true, if_false] at hmap
    exact ⟨hgranted, (Except.ok.inj hmap).symm⟩
  · -- an error number is not a multiple of the page size
    have hword : errno.word ≠ pageMask sect.vaddr := by
      have hpos := errno.pos
      have hlt := errno.lt
      simp only [Errno.word, pageMask]
      omega
    simp only [mapSection, mapCoff, hrefused, ne_eq, hword, not_false_eq_true,
      if_true] at hmap
    cases hmap

theorem space_mapSection (hmap : mapSection kernel state file sect = .ok after)
    (address : ℕ) : after.space address =
      if sect.InPages address then some (sect.pageByte file address)
      else state.space address := by
  obtain ⟨-, rfl⟩ := mapSection_eq_ok hmap
  rfl

theorem bssMmap_fst (kernel : Kernel) (state : LoadState) (bss : CoffSection) :
    (binfmtMmap kernel state none (pageAlign bss.vaddr) bss.bssLen 0).1 =
      if bss.BssGranted kernel then
        state.mapped none (pageAlign bss.vaddr) bss.bssLen 0
      else state := by
  split
  · next hgranted =>
    rw [binfmtMmap_of_granted hgranted (offsetOk_zero _)]
  · next hgranted =>
    obtain ⟨hboth, -⟩ | ⟨-, errno, hrefused⟩ :=
      binfmtMmap_cases kernel state none (pageAlign bss.vaddr) bss.bssLen 0
    · exact absurd hboth hgranted
    · rw [hrefused]

/-- The state with the pages of the `.bss` mapped, if the kernel does so. -/
theorem mapBss_eq_ok (hmap : mapBss kernel state bss = .ok after)
    (hsize : bss.size ≠ 0) :
    ∃ mapped, mapped = (if bss.BssGranted kernel then
        state.mapped none (pageAlign bss.vaddr) bss.bssLen 0 else state) ∧
      (∀ address, InRange bss.vaddr (clearSize bss.vaddr) address →
        (mapped.space address).isSome) ∧
      after = { mapped with
        space := mapRange mapped.space bss.vaddr (clearSize bss.vaddr)
          fun _ => 0 } := by
  simp only [mapBss, if_pos hsize, bssMmap_fst] at hmap
  exact ⟨_, rfl, clearMemory_eq_ok hmap⟩

theorem mapBss_of_size_zero (hmap : mapBss kernel state bss = .ok after)
    (hsize : bss.size = 0) : after = state := by
  rw [mapBss, if_neg (not_not.2 hsize)] at hmap
  exact (Except.ok.inj hmap).symm

/-- The construction of the `.bss` zeroes its pages and the rest of its first
page, and touches nothing else. -/
theorem space_mapBss (hmap : mapBss kernel state bss = .ok after)
    (address : ℕ) :
    after.space address =
      if bss.Zeroed kernel address then some 0 else state.space address := by
  by_cases hsize : bss.size = 0
  · rw [mapBss_of_size_zero hmap hsize, if_neg fun hzeroed => hzeroed.1 hsize]
  obtain ⟨mapped, hmapped, -, rfl⟩ := mapBss_eq_ok hmap hsize
  simp only
  by_cases hclear : InRange bss.vaddr (clearSize bss.vaddr) address
  · rw [mapRange_inside hclear, if_pos ⟨hsize, .inl hclear⟩]
  rw [mapRange_outside hclear, hmapped]
  by_cases hgranted : bss.BssGranted kernel
  · rw [if_pos hgranted]
    by_cases hpages :
        InRange (pageAlign bss.vaddr) (pageAlign bss.bssLen) address
    · rw [if_pos ⟨hsize, .inr ⟨hgranted, hpages⟩⟩]
      exact mapRange_inside hpages
    · rw [if_neg fun hzeroed => hzeroed.2.elim hclear fun hin => hpages hin.2]
      exact mapRange_outside hpages
  · rw [if_neg hgranted,
      if_neg fun hzeroed => hzeroed.2.elim hclear fun hin => hgranted hin.1]

/-- Where the `.bss` does not start a page, something is mapped there before. -/
theorem isSome_of_mapBss (hmap : mapBss kernel state bss = .ok after)
    (hsize : bss.size ≠ 0) {address : ℕ}
    (hin : InRange bss.vaddr (clearSize bss.vaddr) address) :
    (bss.BssGranted kernel ∧
        InRange (pageAlign bss.vaddr) (pageAlign bss.bssLen) address) ∨
      (state.space address).isSome := by
  obtain ⟨mapped, hmapped, hsome, -⟩ := mapBss_eq_ok hmap hsize
  have haddress := hsome address hin
  rw [hmapped] at haddress
  split at haddress
  · next hgranted =>
    exact (isSome_mapRange.1 haddress).imp_left fun hpages => ⟨hgranted, hpages⟩
  · exact .inr haddress

/-- Nothing is read into memory that is not there. -/
theorem fileRead_unmapped {space : Space UInt8} {buf len pos : ℕ}
    (hnone : space buf = none) :
    (fileRead file space buf len pos).1 = space := by
  simp only [fileRead, copyInto_of_unmapped hnone]
  split
  · rfl
  · split <;> rfl

theorem space_readSections (file : Image) (object : CoffObject) :
    (readSections (coffStart object) file object).space = fun _ => none := by
  have hfirst (len pos : ℕ) : (fileRead file (coffStart object).space
      object.data.vaddr len pos).1 = fun _ => none := fileRead_unmapped rfl
  simp only [readSections, hfirst]
  exact fileRead_unmapped rfl

/-- The states of a load that has not failed. -/
theorem coffLoadObject_cases (hobject : coffObject file = .ok object)
    (hload : coffLoadObject kernel preload file = .ok after) :
    ∃ middle, loadSections kernel file object = .ok middle ∧
      ∃ built, mapBss kernel middle object.bss = .ok built ∧
        after.mm = built.mm ∧
        (after.space = built.space ∨
          preload built.space = .ok after.space) := by
  obtain ⟨object', hobject', hload⟩ := bind_eq_ok.1 hload
  obtain rfl := Except.ok.inj (hobject.symm.trans hobject')
  obtain ⟨middle, hsections, hload⟩ := bind_eq_ok.1 hload
  obtain ⟨built, hbss, hload⟩ := bind_eq_ok.1 hload
  refine ⟨middle, hsections, built, hbss, ?_⟩
  split at hload
  · obtain ⟨space, hpreload, hload⟩ := bind_eq_ok.1 hload
    obtain rfl := Except.ok.inj hload
    exact ⟨rfl, .inr hpreload⟩
  · obtain rfl := Except.ok.inj hload
    exact ⟨rfl, .inl rfl⟩

end IbcsUs.Loaders
