import IbcsUs.Loaders.Mmap

/-!
# Loading an x.out file

`xout_load_object` has two ways to load a file.  If every text and data segment
is aligned to pages, `xout_amen` maps each segment from the file and its rest
without one; else it maps all of them without a file, and the bytes are read
afterwards. The file that is mapped is `fp`, which is never set.
-/

namespace IbcsUs.Loaders

open IbcsUs.Addresses IbcsUs.Memory

/-- The fields of `struct xexec`, and of the `struct xext` behind it, that the
loader reads. -/
structure XoutHeader where
  xMagic : ℕ
  xExt : ℕ
  xText : ℕ
  xData : ℕ
  xBss : ℕ
  xCpu : ℕ
  xRenv : ℕ
  xeSegpos : ℕ
  xeSegsize : ℕ

/-- The header of a file. -/
def xoutHeader (file : Image) : XoutHeader where
  xMagic := le16 file 0
  xExt := le16 file 2
  xText := le32 file 4
  xData := le32 file 8
  xBss := le32 file 12
  xCpu := (file 28).toNat
  xRenv := le16 file 30
  xeSegpos := le32 file 52
  xeSegsize := le32 file 56

/-- The fields of `struct xseg` that the loader reads. -/
structure Xseg where
  xsType : ℕ
  xsAttr : ℕ
  xsFilpos : ℕ
  xsPsize : ℕ
  xsVsize : ℕ
  xsRbase : ℕ
  deriving DecidableEq

/-- The segment description at a place in the file. -/
def xsegAt (file : Image) (pos : ℕ) : Xseg where
  xsType := le16 file pos
  xsAttr := le16 file (pos + 2)
  xsFilpos := le32 file (pos + 8)
  xsPsize := le32 file (pos + 12)
  xsVsize := le32 file (pos + 16)
  xsRbase := le32 file (pos + 20)

/-- `seglist`, of `xe_segsize / sizeof(struct xseg)` entries. -/
def seglist (file : Image) : List Xseg :=
  let header := xoutHeader file
  (List.range (header.xeSegsize / 32)).map fun index =>
    xsegAt file (header.xeSegpos + 32 * index)

/-- A segment of type `XS_TTEXT` or `XS_TDATA`. -/
def Xseg.IsTextOrData (sp : Xseg) : Prop := sp.xsType = 1 ∨ sp.xsType = 2

instance (sp : Xseg) : Decidable sp.IsTextOrData :=
  inferInstanceAs (Decidable (_ ∨ _))

/-- A segment with `XS_AMEM`. -/
def Xseg.InMemory (sp : Xseg) : Prop := sp.xsAttr &&& 0x8000 ≠ 0

instance (sp : Xseg) : Decidable sp.InMemory :=
  inferInstanceAs (Decidable (_ ≠ _))

/-- `isnotaligned`. -/
def isnotaligned (seg : Xseg) : Bool :=
  seg.xsFilpos % 4096 ≠ 0 ∨ seg.xsRbase % 4096 ≠ 0

/-- `pageable`. -/
def xoutPageable (segs : List Xseg) : Bool :=
  segs.all fun seg => ¬ (seg.IsTextOrData ∧ isnotaligned seg)

/-- The checks of the header, and the read of the segment table. -/
def checkXexec (file : Image) : Except LoadFailure Unit :=
  let xexec := xoutHeader file
  if xexec.xMagic ≠ 0x0206 then .error (.status enoexec.word)
  else if xexec.xCpu &&& 0x3f ≠ 0x0a then .error (.status enoexec.word)
  else if xexec.xCpu &&& 0xc0 ≠ 0x40 then .error (.status enoexec.word)
  else if xexec.xRenv &&& 0x0001 = 0 then .error (.status enoexec.word)
  else if xexec.xExt ≠ 44 then .error (.status enoexec.word)
  else if xexec.xRenv &&& 0x0800 = 0 ∨ xexec.xeSegsize = 0 then
    .error (.status enoexec.word)
  else if 2 ^ 31 ≤ xexec.xeSegpos then .error (.status einval.word)
  else .ok ()

/-- `xout_mmap` for the `NULL` that `fp` is.  The loader keeps the result in an
`int`. -/
def xoutMmap (kernel : Kernel) (state : LoadState) (addr len offset : ℕ) :
    Except LoadFailure LoadState :=
  let (state, err) := binfmtMmap kernel state none addr len offset
  if 2 ^ 31 ≤ err then .error (.status err) else .ok state

/-- `sp->xs_rbase + sp->xs_vsize`. -/
def Xseg.limit (sp : Xseg) : ℕ := wordAdd sp.xsRbase sp.xsVsize

/-- The break once `xout_amen` has seen a segment. -/
def raiseBrk (mm : MmStruct) (sp : Xseg) : MmStruct :=
  if mm.brk < sp.limit then { mm with brk := pageAlign sp.limit } else mm

/-- The state with the break of its record raised. -/
def LoadState.raised (state : LoadState) (sp : Xseg) : LoadState :=
  { state with mm := raiseBrk state.mm sp }

/-- `xout_amen`. -/
def xoutAmen (kernel : Kernel) (state : LoadState) (sp : Xseg)
    (pageable : Bool) : Except LoadFailure LoadState :=
  let bssSize := wordSub sp.xsVsize sp.xsPsize
  let bssBase := wordAdd sp.xsRbase sp.xsPsize
  let state := state.raised sp
  if pageable then do
    let state ← xoutMmap kernel state sp.xsRbase sp.xsPsize sp.xsFilpos
    if bssSize = 0 then .ok state
    else if pageMask bssBase ≠ 0 then do
      let tail := wordSub (pageAlign bssBase) bssBase
      let state ← clearMemory state bssBase tail
      xoutMmap kernel state (pageAlign bssBase) (wordSub bssSize tail) 0
    else xoutMmap kernel state bssBase bssSize 0
  else xoutMmap kernel state sp.xsRbase sp.xsVsize 0

/-- The scan of the segments that maps them. -/
def mapSegments (kernel : Kernel) (pageable : Bool) :
    List Xseg → LoadState → Except LoadFailure LoadState
  | [], state => .ok state
  | sp :: segs, state =>
      if sp.InMemory then do
        let state ← xoutAmen kernel state sp pageable
        mapSegments kernel pageable segs state
      else mapSegments kernel pageable segs state

/-- A segment that the second scan reads. -/
def Xseg.IsRead (sp : Xseg) : Prop := sp.IsTextOrData ∧ sp.xsPsize < 2 ^ 31

instance (sp : Xseg) : Decidable sp.IsRead :=
  inferInstanceAs (Decidable (_ ∧ _))

/-- The scan of the segments that reads them. -/
def readSegments (file : Image) :
    List Xseg → LoadState → Except LoadFailure LoadState
  | [], state => .ok state
  | sp :: segs, state =>
      if sp.IsRead then
        let (space, psize) :=
          fileRead file state.space sp.xsRbase sp.xsPsize sp.xsFilpos
        if psize ≠ sp.xsPsize then .error (.status (2 ^ 32 - 1))
        else readSegments file segs { state with space := space }
      else readSegments file segs state

/-- The number of data segments. -/
def ndata (segs : List Xseg) : ℕ := segs.countP fun sp => sp.xsType = 2

/-- The break of the header. -/
def xoutSize (file : Image) : ℕ :=
  let xexec := xoutHeader file
  wordAdd (wordAdd xexec.xText xexec.xData) xexec.xBss

/-- Nothing is mapped and the break is that of the header. -/
def xoutStart (file : Image) : LoadState :=
  { LoadState.initial with
    mm := { LoadState.initial.mm with brk := xoutSize file } }

/-- `xout_load_object`, for an executable. -/
def xoutLoadObject (kernel : Kernel) (file : Image) :
    Except LoadFailure LoadState := do
  checkXexec file
  let segs := seglist file
  if ndata segs = 0 then .ok .initial
  else do
    let state ← mapSegments kernel (xoutPageable segs) segs (xoutStart file)
    if xoutPageable segs then .ok state
    else readSegments file segs state

/-! ## The mappings of a segment -/

/-- The ranges that `xout_amen` maps for a segment. -/
def Xseg.pieces (sp : Xseg) (pageable : Bool) : List (ℕ × ℕ) :=
  let bssSize := wordSub sp.xsVsize sp.xsPsize
  let bssBase := wordAdd sp.xsRbase sp.xsPsize
  if pageable then
    (sp.xsRbase, sp.xsPsize) ::
      if bssSize = 0 then []
      else if pageMask bssBase ≠ 0 then
        [(pageAlign bssBase,
          wordSub bssSize (wordSub (pageAlign bssBase) bssBase))]
      else [(bssBase, bssSize)]
  else [(sp.xsRbase, sp.xsVsize)]

/-- The state with ranges mapped without a file. -/
def LoadState.mapPieces (state : LoadState) (pieces : List (ℕ × ℕ)) :
    LoadState :=
  pieces.foldl (fun state piece => state.mapped none piece.1 piece.2 0) state

/-- What a segment does to the state where nothing fails. -/
def LoadState.amen (state : LoadState) (pageable : Bool) (sp : Xseg) :
    LoadState :=
  (state.raised sp).mapPieces (sp.pieces pageable)

/-- The segments of a list that have a memory image. -/
def inMemory (segs : List Xseg) : List Xseg :=
  segs.filter fun sp => sp.InMemory

/-- What the first scan does where nothing fails. -/
def LoadState.amenAll (state : LoadState) (pageable : Bool) (segs : List Xseg) :
    LoadState :=
  (inMemory segs).foldl (fun state sp => state.amen pageable sp) state

variable {kernel : Kernel} {state after : LoadState} {sp : Xseg}
  {pageable : Bool} {segs : List Xseg} {file : Image}

/-- A piece the kernel has mapped, at an address that is no negative `int`. -/
def PieceOk (kernel : Kernel) (piece : ℕ × ℕ) : Prop :=
  Granted kernel piece.1 piece.2 ∧ piece.1 < 2 ^ 31

theorem xoutMmap_eq_ok {addr len offset : ℕ}
    (hmmap : xoutMmap kernel state addr len offset = .ok after) :
    PieceOk kernel (addr, len) ∧ after = state.mapped none addr len 0 := by
  simp only [xoutMmap] at hmmap
  obtain ⟨hgranted, -, hmapped⟩ | ⟨-, errno, hrefused⟩ :=
    binfmtMmap_cases kernel state none addr len offset
  · rw [hmapped] at hmmap
    simp only at hmmap
    split at hmmap
    · nomatch hmmap
    · next hlow =>
      exact ⟨⟨hgranted, Nat.not_le.1 hlow⟩, (Except.ok.inj hmmap).symm⟩
  · rw [hrefused] at hmmap
    simp only [errno_word_ge errno, if_true] at hmmap
    nomatch hmmap

/-- Zeros over zeros change nothing. -/
theorem clearMemory_constant {addr size : ℕ}
    (hconstant : Constant state.space 0)
    (hclear : clearMemory state addr size = .ok after) : after = state := by
  obtain ⟨hmapped, rfl⟩ := clearMemory_eq_ok hclear
  rw [hconstant.remap_eq hmapped]

theorem LoadState.mapped_constant (hconstant : Constant state.space 0)
    (addr len : ℕ) : Constant (state.mapped none addr len 0).space 0 :=
  hconstant.remap

/-- A segment that is loaded has had its pieces mapped, and no more. -/
theorem xoutAmen_eq_ok (hconstant : Constant state.space 0)
    (hamen : xoutAmen kernel state sp pageable = .ok after) :
    (∀ piece ∈ sp.pieces pageable, PieceOk kernel piece) ∧
      after = state.amen pageable sp := by
  cases pageable with
  | false =>
      simp only [xoutAmen, Bool.false_eq_true, if_false] at hamen
      obtain ⟨hpiece, rfl⟩ := xoutMmap_eq_ok hamen
      exact ⟨by simpa [Xseg.pieces] using hpiece, rfl⟩
  | true =>
      simp only [xoutAmen, if_true, bind_eq_ok] at hamen
      obtain ⟨middle, hfirst, hrest⟩ := hamen
      obtain ⟨hpiece, rfl⟩ := xoutMmap_eq_ok hfirst
      simp only [Xseg.pieces, LoadState.amen, if_true]
      split at hrest
      · next hbss =>
        obtain rfl := Except.ok.inj hrest
        rw [if_pos hbss]
        exact ⟨by simpa using hpiece, rfl⟩
      · next hbss =>
        rw [if_neg hbss]
        split at hrest
        · next hmask =>
          obtain ⟨cleared, hclear, hrest⟩ := bind_eq_ok.1 hrest
          have hzero : Constant
              ((state.raised sp).mapped none sp.xsRbase sp.xsPsize 0).space 0 :=
            LoadState.mapped_constant hconstant _ _
          obtain rfl := clearMemory_constant hzero hclear
          obtain ⟨hsecond, rfl⟩ := xoutMmap_eq_ok hrest
          rw [if_pos hmask]
          exact ⟨by simpa using ⟨hpiece, hsecond⟩, rfl⟩
        · next hmask =>
          obtain ⟨hsecond, rfl⟩ := xoutMmap_eq_ok hrest
          rw [if_neg hmask]
          exact ⟨by simpa using ⟨hpiece, hsecond⟩, rfl⟩

theorem LoadState.mapPieces_constant (hconstant : Constant state.space 0)
    (pieces : List (ℕ × ℕ)) : Constant (state.mapPieces pieces).space 0 := by
  induction pieces generalizing state with
  | nil => exact hconstant
  | cons piece pieces ih =>
      exact ih (state.mapped_constant hconstant piece.1 piece.2)

theorem LoadState.amen_constant (hconstant : Constant state.space 0)
    (pageable : Bool) (sp : Xseg) :
    Constant (state.amen pageable sp).space 0 :=
  @LoadState.mapPieces_constant (state.raised sp) hconstant _

theorem mapSegments_eq_ok (hconstant : Constant state.space 0)
    (hmap : mapSegments kernel pageable segs state = .ok after) :
    (∀ sp ∈ inMemory segs, ∀ piece ∈ sp.pieces pageable,
      PieceOk kernel piece) ∧
      after = state.amenAll pageable segs := by
  induction segs generalizing state with
  | nil =>
      obtain rfl := Except.ok.inj hmap
      exact ⟨by simp [inMemory], rfl⟩
  | cons sp segs ih =>
      simp only [mapSegments] at hmap
      split at hmap
      · next hmemory =>
        obtain ⟨middle, hamen, hrest⟩ := bind_eq_ok.1 hmap
        obtain ⟨hpieces, rfl⟩ := xoutAmen_eq_ok hconstant hamen
        obtain ⟨hothers, rfl⟩ :=
          ih (state.amen_constant hconstant pageable sp) hrest
        have hfilter : inMemory (sp :: segs) = sp :: inMemory segs :=
          List.filter_cons_of_pos (by simpa using hmemory)
        simp only [LoadState.amenAll, hfilter]
        exact ⟨List.forall_mem_cons.2 ⟨hpieces, hothers⟩, rfl⟩
      · next hmemory =>
        have hfilter : inMemory (sp :: segs) = inMemory segs :=
          List.filter_cons_of_neg (by simpa using hmemory)
        simp only [LoadState.amenAll, hfilter]
        exact ih hconstant hmap

theorem xoutStart_constant (file : Image) : Constant (xoutStart file).space 0 :=
  fun _ _ hcontent => nomatch hcontent

/-- The states of a load that has not failed. -/
theorem xoutLoadObject_cases (hload : xoutLoadObject kernel file = .ok after) :
    (ndata (seglist file) = 0 ∧ after = .initial) ∨
    (ndata (seglist file) ≠ 0 ∧
      (∀ sp ∈ inMemory (seglist file),
        ∀ piece ∈ sp.pieces (xoutPageable (seglist file)),
          PieceOk kernel piece) ∧
      ∃ mapped, mapped = (xoutStart file).amenAll
          (xoutPageable (seglist file)) (seglist file) ∧
        if xoutPageable (seglist file) then after = mapped
        else readSegments file (seglist file) mapped = .ok after) := by
  obtain ⟨-, -, hload⟩ := bind_eq_ok.1 hload
  simp only at hload
  split at hload
  · next hndata => exact .inl ⟨hndata, (Except.ok.inj hload).symm⟩
  · next hndata =>
    obtain ⟨mapped, hmap, hload⟩ := bind_eq_ok.1 hload
    obtain ⟨hpieces, hmapped⟩ :=
      mapSegments_eq_ok (xoutStart_constant file) hmap
    refine .inr ⟨hndata, hpieces, mapped, hmapped, ?_⟩
    split at hload
    · next hpageable =>
      rw [if_pos hpageable]
      exact (Except.ok.inj hload).symm
    · next hpageable =>
      rw [if_neg hpageable]
      exact hload

end IbcsUs.Loaders
