import IbcsUs.Loaders.Xout
import Mathlib.Data.List.Pairwise
import IbcsUs.X286.SegmentTable

/-!
# Loading a 286 program

`load_xout` gives every memory segment of a Xenix 286 program the next free pages
above the emulator and a descriptor of its own, and then reads the segments from
the file.  The first data segment gets 64K, for the stack; the data segment of an
impure program gets a second descriptor, under the selector the program starts in,
so that its code can run there.  A file whose segments all begin at pages is mapped
and then refused.

The results below are about what the program sees through its selectors, and about
the table that `main` and the memory calls go on to use.
-/

namespace IbcsUs.X286.LoadXout

open IbcsUs.Addresses IbcsUs.Memory
open IbcsUs.Loaders (Image le16 le32 mmap2 doMmap)

/-- An open file.  What lies behind its size is what the emulator's buffers held
before. -/
structure Program where
  image : Image
  size : ℕ

/-- `struct xexec`, and the `struct xext` behind it. -/
structure Header extends Loaders.XoutHeader where
  xEntry : ℕ
  xeEseg : ℕ

def xHdr (program : Program) : Header where
  toXoutHeader := Loaders.xoutHeader program.image
  xEntry := le32 program.image 24
  xeEseg := le16 program.image 72

/-- `struct xseg`. -/
structure Xseg extends Loaders.Xseg where
  xsSeg : ℕ
  deriving DecidableEq

/-- `lseek`, which leaves the position alone when it fails. -/
def lseek (position offset : ℕ) : ℕ :=
  if 2 ^ 31 ≤ offset then position else offset

/-- Where the segment table is read from. -/
def seglistStart (program : Program) : ℕ :=
  lseek (min 76 program.size) (xHdr program).xeSegpos

/-- Where the file is left once the segment table is read. -/
def seglistEnd (program : Program) : ℕ :=
  seglistStart program +
    min (xHdr program).xeSegsize (program.size - seglistStart program)

/-- `seglist`, once it is read. -/
def seglist (program : Program) : List Xseg :=
  let start := seglistStart program
  (List.range ((xHdr program).xeSegsize / 32)).map fun index =>
    { Loaders.xsegAt program.image (start + 32 * index) with
      xsSeg := le16 program.image (start + 32 * index + 4) }

/-- `struct user_ldt`, as `xout_amen` fills it. -/
structure UserLdt where
  entryNumber : ℕ
  baseAddr : ℕ
  limit : ℕ
  seg32bit : Bool
  contents : ℕ
  deriving DecidableEq

/-- How the emulator ends before the program starts; `endless` stands for a loop
that goes on for longer than asked. -/
inductive Failure where
  | exit (status : ℕ)
  | segfault
  | endless
  deriving DecidableEq

/-- What the emulator runs on: the kernel's `mmap`, and which descriptors its
`modify_ldt` takes. -/
structure Host where
  kernel : Loaders.Kernel
  modifyLdt : UserLdt → Bool

/-- The variables of `load_xout`, with the memory and the descriptors it has set;
`init_ss` is always `init_ds`. -/
structure Loading where
  space : Space UInt8
  ldts : List UserLdt
  addr : ℕ
  initDs : ℕ
  limitStk : ℕ

/-! ## `xout_amen` -/

/-- The segment's place, and what it leaves of the address and of the first data
segment. -/
def placeSeg (initCs : ℕ) (sp : Xseg) (state : Loading) : Xseg × Loading :=
  let sp := { sp with xsRbase := state.addr }
  if sp.xsType = 2 ∧ initCs = state.initDs then
    ({ sp with xsVsize := 0x10000 },
      { state with
        addr := pageAlign (wordAdd state.addr 0x10000)
        initDs := sp.xsSeg
        limitStk := sp.xsVsize })
  else (sp, { state with addr := pageAlign (wordAdd state.addr sp.xsVsize) })

/-- `ldt_info` for a segment that has its place. -/
def Xseg.ldtInfo (sp : Xseg) : UserLdt where
  entryNumber := sp.xsSeg >>> 3
  baseAddr := sp.xsRbase
  limit := wordSub sp.xsVsize 1
  seg32bit := sp.xsAttr &&& 0x0040 ≠ 0
  contents := if sp.xsType = 1 then 2 else 0

/-- The mappings of a segment in a pageable file.  None of their results is looked
at; the rest of the page behind the file's bytes is cleared, which a pure segment
does not allow. -/
def mapFromFile (kernel : Loaders.Kernel) (program : Program) (sp : Xseg)
    (bssSize bssBase : ℕ) (space : Space UInt8) : Except Failure (Space UInt8) :=
  let space :=
    (doMmap kernel space (some program.image) sp.xsRbase sp.xsPsize sp.xsFilpos).1
  if bssSize = 0 then .ok space
  else if pageMask bssBase = 0 then
    .ok (mmap2 kernel space bssBase bssSize fun _ => 0).1
  else
    let tail := wordSub (pageAlign bssBase) bssBase
    if tail ≠ 0 ∧ (sp.xsAttr &&& 0x0008 ≠ 0 ∨ mappedRun space bssBase tail < tail) then
      .error .segfault
    else
      .ok (mmap2 kernel (mapRange space bssBase tail fun _ => 0) (pageAlign bssBase)
        (wordSub bssSize tail) fun _ => 0).1

section Amen

variable (host : Host) (program : Program) (pageable impure : Bool)

/-- `xout_amen`, with so many rounds from `seg_again` at most. -/
def xoutAmen : ℕ → Xseg → Loading → Except Failure (Xseg × Loading)
  | 0, _, _ => .error .endless
  | rounds + 1, sp, state => do
      let initCs := (xHdr program).xeEseg
      let bssSize := wordSub sp.xsVsize sp.xsPsize
      let bssBase := wordAdd state.addr sp.xsPsize
      let (sp, state) := placeSeg initCs sp state
      if host.modifyLdt sp.ldtInfo = false then
        .error (.exit (if pageable then 8 else 9))
      else
        let space ←
          if pageable then mapFromFile host.kernel program sp bssSize bssBase state.space
          else .ok (mmap2 host.kernel state.space sp.xsRbase sp.xsVsize fun _ => 0).1
        let state := { state with space := space, ldts := state.ldts ++ [sp.ldtInfo] }
        if impure ∧ 0x47 ≤ sp.xsSeg then
          -- the same segment once more, as the text the program starts in
          xoutAmen rounds { sp with xsSeg := initCs, xsType := 1 }
            { state with addr := sp.xsRbase }
        else .ok (sp, state)

/-- The scan of the segments that maps them, which also gives them their places. -/
def mapSegs (rounds : ℕ) : List Xseg → Loading → Except Failure (List Xseg × Loading)
  | [], state => .ok ([], state)
  | sp :: segs, state =>
      if sp.InMemory then do
        let (sp, state) ← xoutAmen host program pageable impure rounds sp state
        let (segs, state) ← mapSegs rounds segs state
        .ok (sp :: segs, state)
      else do
        let (segs, state) ← mapSegs rounds segs state
        .ok (sp :: segs, state)

end Amen

/-! ## `load_xout` -/

/-- `read`: what is in memory then, the result as an unsigned long, and the
position. -/
def readFile (program : Program) (space : Space UInt8) (position buf len : ℕ) :
    Space UInt8 × ℕ × ℕ :=
  if 2 ^ 31 ≤ len then (space, 2 ^ 32 - 1, position)
  else
    let count := min (min len 0x7ffff000) (program.size - position)
    let got := mappedRun space buf count
    if got = 0 ∧ 0 < count then (space, 2 ^ 32 - 1, position)
    else
      (copyInto space buf count fun index => program.image (position + index), got,
        position + got)

/-- The scan of the segments that reads them. -/
def readSegs (program : Program) :
    List Xseg → ℕ → Space UInt8 → Except Failure (Space UInt8)
  | [], _, space => .ok space
  | sp :: segs, position, space =>
      if sp.IsTextOrData then
        let (space, psize, position) :=
          readFile program space (lseek position sp.xsFilpos) sp.xsRbase sp.xsPsize
        if psize ≠ sp.xsPsize then .error (.exit 10)
        else readSegs program segs position space
      else readSegs program segs position space

/-- The checks of the header. -/
def checkHeader (header : Header) : Except Failure Unit :=
  if header.xMagic ≠ 0x0206 then .error (.exit 2)
  else if header.xCpu &&& 0xc0 ≠ 0x40 then .error (.exit 3)
  else if header.xRenv &&& 0x0001 = 0 then .error (.exit 4)
  else if header.xExt ≠ 44 then .error (.exit 5)
  else if header.xRenv &&& 0x0800 = 0 ∨ header.xeSegsize = 0 then .error (.exit 6)
  else .ok ()

/-- `ntext` or `ndata`. -/
def countType (type : ℕ) (segs : List Xseg) : ℕ := segs.countP fun sp => sp.xsType = type

/-- `pageable`. -/
def pageable (segs : List Xseg) : Bool :=
  segs.all fun sp => ¬ (sp.IsTextOrData ∧ Loaders.isnotaligned sp.toXseg)

/-- A program with its text in its one data segment. -/
def impure (segs : List Xseg) : Bool :=
  countType 1 segs = 0 ∧ countType 2 segs = 1

/-- `X286_MAP_ADDR + 0x1000`. -/
def mapStart : ℕ := 0x4000000 + 0x1000

/-- `load_xout`, once the file is open. -/
def loadXout (host : Host) (program : Program) (rounds : ℕ) : Except Failure Loading := do
  checkHeader (xHdr program)
  let segs := seglist program
  if countType 2 segs = 0 then .error (.exit 7)
  else
    let initCs := (xHdr program).xeEseg
    let (placed, state) ←
      mapSegs host program (pageable segs) (impure segs) rounds segs
        ⟨fun _ => none, [], mapStart, initCs, 0⟩
    if pageable segs then .error (.exit 8)
    else
      let space ← readSegs program placed (seglistEnd program) state.space
      .ok { state with space := space }

/-! ## What the program sees -/

/-- The kernel's descriptor of a segment: a limit of 20 bits, memory that can be
written or, for code, executed and read. -/
def kernelDesc (ldt : UserLdt) : KernelDesc where
  base := ldt.baseAddr
  limit := ldt.limit % 2 ^ 20
  limit_lt := Nat.mod_lt _ (by decide)
  type := if ldt.contents = 2 then 0x1a else 0x12
  dpl := 3

/-- The kernel's table once these descriptors are set, one after the other. -/
def kernelTable (ldts : List UserLdt) (entry : ℕ) : KernelDesc :=
  match ldts.reverse.find? fun ldt => ldt.entryNumber = entry with
  | some ldt => kernelDesc ldt
  | none => .unused

/-- The byte at an offset under a selector, if the segment has one there. -/
def Loading.sees (loading : Loading) (selector offset : ℕ) : Option UInt8 :=
  let desc := kernelTable loading.ldts (selector >>> 3)
  if offset ≤ desc.limit then loading.space (desc.base + offset) else none

/-- What a segment holds according to the file. -/
def Xseg.byte (sp : Xseg) (program : Program) (offset : ℕ) : UInt8 :=
  if offset < sp.xsPsize then program.image (sp.xsFilpos + offset) else 0

/-- A segment as the linker makes them: text and data is what goes into memory, it
has at most 64K there, and its bytes are in the file. -/
structure Xseg.Sound (sp : Xseg) (program : Program) : Prop where
  memory_iff : sp.InMemory ↔ sp.IsTextOrData
  vsize_pos : sp.InMemory → 0 < sp.xsVsize
  vsize_le : sp.InMemory → sp.xsVsize ≤ 0x10000
  psize_le : sp.InMemory → sp.xsPsize ≤ sp.xsVsize
  filpos_lt : sp.InMemory → sp.xsFilpos < 2 ^ 31
  inside : sp.InMemory → sp.xsFilpos + sp.xsPsize ≤ program.size
  entry_lt : sp.InMemory → sp.xsSeg >>> 3 < maxSegments

/-- The segments of the program's memory. -/
def memorySegs (program : Program) : List Xseg :=
  (seglist program).filter fun sp => sp.InMemory

/-- A 286 program as the linker makes them. -/
structure Sound (program : Program) : Prop where
  header : checkHeader (xHdr program) = .ok ()
  data : countType 2 (seglist program) ≠ 0
  unaligned : pageable (seglist program) = false
  length_le : (seglist program).length ≤ maxSegments
  segs : ∀ sp ∈ seglist program, sp.Sound program
  entries : ((memorySegs program).map fun sp => sp.xsSeg >>> 3).Nodup
  text_apart : ∀ sp ∈ memorySegs program, sp.xsType = 2 →
    sp.xsSeg >>> 3 ≠ (xHdr program).xeEseg >>> 3
  eseg_lt : (xHdr program).xeEseg < 0x47

/-- A kernel that has memory to give, and takes every descriptor of the table. -/
structure Host.Obliging (host : Host) : Prop where
  memory : ∀ addr pages, host.kernel.refusal addr pages = none
  descriptors : ∀ ldt, ldt.entryNumber < maxSegments → host.modifyLdt ldt = true

/-! ## Where the segments come to lie -/

/-- A memory segment with its place, from `low` on; the next one begins at `high`. -/
structure Settled (sp placed : Xseg) (low high : ℕ) : Prop where
  rbase_eq : placed.xsRbase = low
  vsize_ge : sp.xsVsize ≤ placed.xsVsize
  vsize_le : placed.xsVsize ≤ 0x10000
  psize_eq : placed.xsPsize = sp.xsPsize
  filpos_eq : placed.xsFilpos = sp.xsFilpos
  textOrData : placed.IsTextOrData
  end_le : low + placed.xsVsize ≤ high
  high_le : high ≤ low + 0x10000
  aligned : high % 4096 = 0

/-- The segments of the file with their places, from `low` on; the rest of the
memory begins at `high`. -/
inductive Laid : ℕ → List (Xseg × Xseg) → ℕ → Prop
  | nil {low : ℕ} : Laid low [] low
  | skip {low high : ℕ} {sp : Xseg} {pairs : List (Xseg × Xseg)} (hout : ¬ sp.InMemory)
      (hrest : Laid low pairs high) : Laid low ((sp, sp) :: pairs) high
  | take {low middle high : ℕ} {sp placed : Xseg} {pairs : List (Xseg × Xseg)}
      (hmem : sp.InMemory) (hsettled : Settled sp placed low middle)
      (hrest : Laid middle pairs high) : Laid low ((sp, placed) :: pairs) high

/-- The descriptor of a segment with its place. -/
def ownLdt (sp placed : Xseg) : UserLdt :=
  { sp with xsRbase := placed.xsRbase, xsVsize := placed.xsVsize : Xseg }.ldtInfo

/-- The same segment as the text of an impure program. -/
def mirrorLdt (initCs : ℕ) (sp placed : Xseg) : UserLdt :=
  { ownLdt sp placed with entryNumber := initCs >>> 3, contents := 2 }

/-- The descriptors of a segment. -/
def ldtsOf (initCs : ℕ) (impure : Bool) (pair : Xseg × Xseg) : List UserLdt :=
  if pair.1.InMemory then
    ownLdt pair.1 pair.2 ::
      if impure ∧ 0x47 ≤ pair.1.xsSeg then [mirrorLdt initCs pair.1 pair.2] else []
  else []

/-- The data segment the program starts in, once a segment is loaded. -/
def startData (initCs : ℕ) (sp : Xseg) (start : ℕ × ℕ) : ℕ × ℕ :=
  if sp.xsType = 2 ∧ initCs = start.1 then (sp.xsSeg, sp.xsVsize) else start

def Loading.start (state : Loading) : ℕ × ℕ := (state.initDs, state.limitStk)

section Amen

variable {host : Host} {program : Program} {impure : Bool} {sp : Xseg} {state : Loading}

theorem mapRange_again (space : Space UInt8) (start len : ℕ) (content : ℕ → UInt8) :
    mapRange (mapRange space start len content) start len content =
      mapRange space start len content := by
  funext address
  by_cases hin : InRange start len address
  · rw [mapRange_inside hin, mapRange_inside hin]
  · rw [mapRange_outside hin]

theorem mmap2_of_obliging (hhost : host.Obliging) {space : Space UInt8} {addr len : ℕ}
    {content : ℕ → UInt8} (haligned : addr % 4096 = 0)
    (hroom : addr + 0x10000 ≤ Loaders.taskSize) (hpos : 0 < len) (hlen : len ≤ 0x10000) :
    (mmap2 host.kernel space addr len content).1 =
      mapRange space addr (pageAlign len) content := by
  have hbounds := pageAlign_bounds (show len ≤ 2 ^ 32 - 4096 by omega)
  have hmod := pageAlign_mod len
  simp only [mmap2, if_neg (show ¬ (len = 0 ∨ addr % 4096 ≠ 0) by omega),
    if_neg (show ¬ (pageAlign len = 0 ∨ Loaders.taskSize < addr + pageAlign len) by omega),
    hhost.memory]

/-- The sum of an aligned address and a segment's size, up to the next page. -/
theorem pageAlign_wordAdd {addr len : ℕ} (haligned : addr % 4096 = 0)
    (hroom : addr + 0x10000 ≤ Loaders.taskSize) (hlen : len ≤ 0x10000) :
    pageAlign (wordAdd addr len) = addr + pageAlign len := by
  simp only [pageAlign, pageMask, wordAdd, Loaders.taskSize] at *
  omega

theorem settled_of_size {size addr : ℕ} (hsound : sp.Sound program) (hmem : sp.InMemory)
    (haligned : addr % 4096 = 0) (hroom : addr + 0x10000 ≤ Loaders.taskSize)
    (hsize : sp.xsVsize ≤ size) (hle : size ≤ 0x10000) :
    Settled sp { sp with xsRbase := addr, xsVsize := size } addr
      (pageAlign (wordAdd addr size)) := by
  have hbounds := pageAlign_bounds (show size ≤ 2 ^ 32 - 4096 by omega)
  have hmod := pageAlign_mod size
  rw [pageAlign_wordAdd haligned hroom hle]
  exact {
    rbase_eq := rfl
    vsize_ge := hsize
    vsize_le := hle
    psize_eq := rfl
    filpos_eq := rfl
    textOrData := hsound.memory_iff.mp hmem
    end_le := Nat.add_le_add_left hbounds.1 addr
    high_le := by omega
    aligned := by omega }

/-- The size a segment gets. -/
def placedSize (initCs : ℕ) (sp : Xseg) (start : ℕ × ℕ) : ℕ :=
  if sp.xsType = 2 ∧ initCs = start.1 then 0x10000 else sp.xsVsize

/-- A segment with its place and size. -/
def Xseg.placed (sp : Xseg) (addr size : ℕ) : Xseg :=
  { sp with xsRbase := addr, xsVsize := size }

/-- The state once a segment has its place, its descriptor and its pages. -/
def Loading.settle (state : Loading) (initCs : ℕ) (sp : Xseg) : Loading :=
  let size := placedSize initCs sp state.start
  { space := mapRange state.space state.addr (pageAlign size) fun _ => 0
    ldts := state.ldts ++ [(sp.placed state.addr size).ldtInfo]
    addr := pageAlign (wordAdd state.addr size)
    initDs := (startData initCs sp state.start).1
    limitStk := (startData initCs sp state.start).2 }

/-- `placeSeg`, by the size the segment gets. -/
theorem placeSeg_eq (initCs : ℕ) (sp : Xseg) (state : Loading) :
    placeSeg initCs sp state =
      (sp.placed state.addr (placedSize initCs sp state.start),
        { state with
          addr := pageAlign (wordAdd state.addr (placedSize initCs sp state.start))
          initDs := (startData initCs sp state.start).1
          limitStk := (startData initCs sp state.start).2 }) := by
  by_cases hfirst : sp.xsType = 2 ∧ initCs = state.start.1
  · rw [placedSize, startData, if_pos hfirst, if_pos hfirst]
    exact if_pos hfirst
  · rw [placedSize, startData, if_neg hfirst, if_neg hfirst]
    exact if_neg hfirst

theorem placedSize_mem (initCs : ℕ) (start : ℕ × ℕ) (hpos : 0 < sp.xsVsize)
    (hle : sp.xsVsize ≤ 0x10000) :
    sp.xsVsize ≤ placedSize initCs sp start ∧ placedSize initCs sp start ≤ 0x10000 ∧
      0 < placedSize initCs sp start := by
  simp only [placedSize]
  split <;> omega

theorem placedSize_text (initCs : ℕ) (start : ℕ × ℕ) (htext : sp.xsType = 1) :
    placedSize initCs sp start = sp.xsVsize :=
  if_neg fun h => absurd (htext.symm.trans h.1) (by decide)

theorem startData_text (initCs : ℕ) (start : ℕ × ℕ) (htext : sp.xsType = 1) :
    startData initCs sp start = start :=
  if_neg fun h => absurd (htext.symm.trans h.1) (by decide)

/-- One round of `xout_amen`. -/
theorem xoutAmen_round (hhost : host.Obliging) (rounds : ℕ) (sp : Xseg) (state : Loading)
    (hentry : sp.xsSeg >>> 3 < maxSegments) (haligned : state.addr % 4096 = 0)
    (hroom : state.addr + 0x10000 ≤ Loaders.taskSize) (hpos : 0 < sp.xsVsize)
    (hle : sp.xsVsize ≤ 0x10000) :
    xoutAmen host program false impure (rounds + 1) sp state =
      let initCs := (xHdr program).xeEseg
      let placed := sp.placed state.addr (placedSize initCs sp state.start)
      if impure ∧ 0x47 ≤ sp.xsSeg then
        xoutAmen host program false impure rounds
          { placed with xsSeg := initCs, xsType := 1 }
          { state.settle initCs sp with addr := state.addr }
      else .ok (placed, state.settle initCs sp) := by
  obtain ⟨-, hsize, hsizePos⟩ := placedSize_mem (xHdr program).xeEseg state.start hpos hle
  have htaken : host.modifyLdt
      (sp.placed state.addr (placedSize (xHdr program).xeEseg sp state.start)).ldtInfo = true :=
    hhost.descriptors _ hentry
  simp only [Xseg.placed] at htaken
  rw [xoutAmen]
  simp only [placeSeg_eq, Bool.false_eq_true, if_false, bind, Except.bind, Xseg.placed, htaken,
    Bool.true_eq_false, Loading.settle, mmap2_of_obliging hhost haligned hroom hsizePos hsize]

/-- What `xout_amen` makes of a segment of memory. -/
theorem xoutAmen_settles (hhost : host.Obliging) (rounds : ℕ) (hsound : sp.Sound program)
    (hmem : sp.InMemory) (heseg : (xHdr program).xeEseg < 0x47)
    (haligned : state.addr % 4096 = 0) (hroom : state.addr + 0x10000 ≤ Loaders.taskSize) :
    ∃ placed after,
      xoutAmen host program false impure (rounds + 2) sp state = .ok (placed, after) ∧
      Settled sp placed state.addr after.addr ∧
      after.space = mapRange state.space state.addr (pageAlign placed.xsVsize) (fun _ => 0) ∧
      after.ldts = state.ldts ++ ldtsOf (xHdr program).xeEseg impure (sp, placed) ∧
      after.start = startData (xHdr program).xeEseg sp state.start ∧
      placed.xsVsize = placedSize (xHdr program).xeEseg sp state.start := by
  have hpos := hsound.vsize_pos hmem
  have hle := hsound.vsize_le hmem
  obtain ⟨hge, hsize, hsizePos⟩ := placedSize_mem (xHdr program).xeEseg state.start hpos hle
  have hsettled := settled_of_size hsound hmem haligned hroom hge hsize
  rw [xoutAmen_round hhost (rounds + 1) sp state (hsound.entry_lt hmem) haligned hroom hpos hle]
  by_cases hmirror : impure ∧ 0x47 ≤ sp.xsSeg
  · -- the second round puts the same pages there again
    have hentry : (xHdr program).xeEseg >>> 3 < maxSegments := by
      rw [Nat.shiftRight_eq_div_pow, maxSegments]
      omega
    simp only [if_pos hmirror]
    rw [xoutAmen_round hhost rounds _ { state.settle (xHdr program).xeEseg sp with
      addr := state.addr } hentry haligned hroom hsizePos hsize]
    simp only [if_neg (show ¬ (impure ∧ 0x47 ≤ (xHdr program).xeEseg) by omega)]
    refine ⟨_, _, rfl, ?_⟩
    simp only [Loading.settle, placedSize_text, startData_text]
    refine ⟨?_, mapRange_again .., ?_, rfl, rfl⟩
    · exact { hsettled with textOrData := .inl rfl }
    · simp only [ldtsOf, if_pos hmem, if_pos hmirror, List.append_assoc]
      rfl
  · simp only [if_neg hmirror]
    refine ⟨_, _, rfl, hsettled, rfl, ?_, rfl, rfl⟩
    simp only [ldtsOf, if_pos hmem, if_neg hmirror]
    rfl

end Amen

/-- The data segment the program starts in, once these are loaded. -/
def startOf (initCs : ℕ) (segs : List Xseg) (start : ℕ × ℕ) : ℕ × ℕ :=
  segs.foldl (fun start sp => if sp.InMemory then startData initCs sp start else start) start

/-- A data segment is still to come, and none has the selector the program starts in. -/
structure Started (initCs : ℕ) (segs : List Xseg) (start : ℕ × ℕ) : Prop where
  same : initCs = start.1
  data : ∃ sp ∈ segs, sp.InMemory ∧ sp.xsType = 2
  other : ∀ sp ∈ segs, sp.InMemory → sp.xsType = 2 → initCs ≠ sp.xsSeg

/-- A segment in front that is not the data segment changes nothing. -/
theorem Started.tail {initCs : ℕ} {sp : Xseg} {segs : List Xseg} {start : ℕ × ℕ}
    (hstarted : Started initCs (sp :: segs) start) (hnot : ¬ (sp.InMemory ∧ sp.xsType = 2)) :
    Started initCs segs start where
  same := hstarted.same
  data := by
    obtain ⟨other, hother, hdata⟩ := hstarted.data
    rcases List.mem_cons.mp hother with rfl | hrest
    · exact absurd hdata hnot
    · exact ⟨other, hrest, hdata⟩
  other := fun other hother => hstarted.other other (List.mem_cons_of_mem sp hother)

theorem startOf_of_ne {initCs : ℕ} {start : ℕ × ℕ} (segs : List Xseg) (hne : initCs ≠ start.1) :
    startOf initCs segs start = start := by
  induction segs with
  | nil => rfl
  | cons sp segs ih =>
      have hkeep : (if sp.InMemory then startData initCs sp start else start) = start := by
        split
        · exact if_neg fun h => hne h.2
        · rfl
      rw [startOf, List.foldl_cons, hkeep]
      exact ih

section Layout

variable {low high : ℕ} {pairs : List (Xseg × Xseg)}

theorem Laid.low_le (hlaid : Laid low pairs high) : low ≤ high := by
  induction hlaid with
  | nil => exact le_rfl
  | skip _ _ ih => exact ih
  | take _ hsettled _ ih => exact (Nat.le_of_add_right_le hsettled.end_le).trans ih

theorem Laid.settled (hlaid : Laid low pairs high) {pair : Xseg × Xseg} (hpair : pair ∈ pairs)
    (hmem : pair.1.InMemory) :
    ∃ start stop, Settled pair.1 pair.2 start stop ∧ low ≤ start ∧ stop ≤ high := by
  induction hlaid with
  | nil => exact absurd hpair List.not_mem_nil
  | skip hout _ ih =>
      rcases List.mem_cons.mp hpair with rfl | hrest
      · exact absurd hmem hout
      · exact ih hrest
  | take _ hsettled hrest ih =>
      rcases List.mem_cons.mp hpair with rfl | hlater
      · exact ⟨_, _, hsettled, le_rfl, hrest.low_le⟩
      · obtain ⟨start, stop, hpairSettled, hstart, hstop⟩ := ih hlater
        have hmiddle := Nat.le_of_add_right_le hsettled.end_le
        exact ⟨start, stop, hpairSettled, hmiddle.trans hstart, hstop⟩

/-- The segments of memory lie one behind the other. -/
theorem Laid.apart (hlaid : Laid low pairs high) :
    pairs.Pairwise fun first second => first.1.InMemory → second.1.InMemory →
      first.2.xsRbase + first.2.xsVsize ≤ second.2.xsRbase := by
  induction hlaid with
  | nil => exact List.Pairwise.nil
  | skip hout _ ih => exact List.pairwise_cons.mpr ⟨fun _ _ hmem => absurd hmem hout, ih⟩
  | take _ hsettled hrest ih =>
      refine List.pairwise_cons.mpr ⟨fun second hsecond _ hmem => ?_, ih⟩
      obtain ⟨start, stop, hother, hstart, -⟩ := hrest.settled hsecond hmem
      rw [hsettled.rbase_eq, hother.rbase_eq]
      exact hsettled.end_le.trans hstart

end Layout

section Scans

variable {host : Host} {program : Program} {impure : Bool}

/-- What the first scan does. -/
theorem mapSegs_laid (hhost : host.Obliging) (rounds : ℕ)
    (heseg : (xHdr program).xeEseg < 0x47) (segs : List Xseg) (state : Loading)
    (hsound : ∀ sp ∈ segs, sp.Sound program) (haligned : state.addr % 4096 = 0)
    (hroom : state.addr + 0x10000 * segs.length ≤ Loaders.taskSize) :
    ∃ pairs after, pairs.map Prod.fst = segs ∧
      mapSegs host program false impure (rounds + 2) segs state =
        .ok (pairs.map Prod.snd, after) ∧
      Laid state.addr pairs after.addr ∧
      (∀ pair ∈ pairs, pair.1.InMemory → ∀ offset < pair.2.xsVsize,
        after.space (pair.2.xsRbase + offset) = some 0) ∧
      (∀ address < state.addr, after.space address = state.space address) ∧
      after.ldts = state.ldts ++ pairs.flatMap (ldtsOf (xHdr program).xeEseg impure) ∧
      after.start = startOf (xHdr program).xeEseg segs state.start ∧
      (Started (xHdr program).xeEseg segs state.start → ∃ first ∈ pairs, first.1.InMemory ∧
        after.start = (first.1.xsSeg, first.1.xsVsize) ∧ first.2.xsVsize = 0x10000) := by
  induction segs generalizing state with
  | nil =>
      refine ⟨[], state, rfl, rfl, .nil, ?_, fun _ _ => rfl, (List.append_nil _).symm, rfl, ?_⟩
      · exact fun _ hpair => absurd hpair List.not_mem_nil
      · exact fun hstarted => absurd hstarted.data.choose_spec.1 List.not_mem_nil
  | cons sp segs ih =>
      rw [List.length_cons, Nat.mul_succ, ← Nat.add_assoc] at hroom
      have hhere : state.addr + 0x10000 ≤ Loaders.taskSize := by omega
      obtain ⟨hhead, htail⟩ := List.forall_mem_cons.mp hsound
      by_cases hmem : sp.InMemory
      · obtain ⟨placed, middle, hamen, hsettled, hspace, hldts, hstart, hsize⟩ :=
          xoutAmen_settles hhost rounds hhead hmem heseg haligned hhere
        have hmiddle := hsettled.high_le
        obtain ⟨pairs, after, hfst, hmap, hlaid, hzero, hbelow, hafterLdts, hafterStart,
          hbegins⟩ :=
          ih middle htail hsettled.aligned (by omega)
        refine ⟨(sp, placed) :: pairs, after, by rw [List.map_cons, hfst], ?_,
          .take hmem hsettled hlaid, ?_, ?_, ?_, ?_, ?_⟩
        · rw [mapSegs, if_pos hmem, hamen]
          simp only [bind, Except.bind, hmap, List.map_cons]
        · refine List.forall_mem_cons.mpr ⟨fun _ offset hlt => ?_, hzero⟩
          have hoffset : offset < placed.xsVsize := hlt
          have hpages := pageAlign_bounds (show placed.xsVsize ≤ 2 ^ 32 - 4096 by
            have := hsettled.vsize_le
            omega)
          have hend := hsettled.end_le
          show after.space (placed.xsRbase + offset) = some 0
          rw [hsettled.rbase_eq]
          rw [hbelow _ (by omega), hspace]
          exact mapRange_inside ⟨Nat.le_add_right .., by omega⟩
        · intro address hlow
          have hbefore : address < middle.addr := by
            have hend := hsettled.end_le
            omega
          have hout : ¬ InRange state.addr (pageAlign placed.xsVsize) address :=
            fun hin => absurd hin.1 (Nat.not_le.mpr hlow)
          exact (hbelow address hbefore).trans ((congrFun hspace address).trans
            (mapRange_outside hout))
        · rw [hafterLdts, hldts, List.flatMap_cons, List.append_assoc]
        · rw [hafterStart, hstart]
          exact congrArg (startOf _ segs) (if_pos hmem).symm
        · intro hstarted
          by_cases hdata : sp.xsType = 2
          · -- the first data segment: nothing after it changes the start
            have hfirst : sp.xsType = 2 ∧ (xHdr program).xeEseg = state.start.1 :=
              ⟨hdata, hstarted.same⟩
            have hother := hstarted.other sp List.mem_cons_self hmem hdata
            rw [startData, if_pos hfirst] at hstart
            refine ⟨(sp, placed), List.mem_cons_self, hmem, ?_, ?_⟩
            · rw [hafterStart, hstart, startOf_of_ne segs hother]
            · rw [hsize, placedSize, if_pos hfirst]
          · rw [startData, if_neg fun h => hdata h.1] at hstart
            obtain ⟨first, hfirst, hspec⟩ :=
              hbegins (hstart ▸ hstarted.tail fun h => hdata h.2)
            exact ⟨first, List.mem_cons_of_mem _ hfirst, hspec⟩
      · obtain ⟨pairs, after, hfst, hmap, hlaid, hzero, hbelow, hafterLdts, hafterStart,
          hbegins⟩ :=
          ih state htail haligned (by omega)
        refine ⟨(sp, sp) :: pairs, after, by rw [List.map_cons, hfst], ?_,
          .skip hmem hlaid, ?_, hbelow, ?_, ?_, ?_⟩
        · rw [mapSegs, if_neg hmem]
          simp only [bind, Except.bind, hmap, List.map_cons]
        · exact List.forall_mem_cons.mpr ⟨fun hin => absurd hin hmem, hzero⟩
        · rw [hafterLdts, List.flatMap_cons, ldtsOf, if_neg hmem, List.nil_append]
        · rw [hafterStart]
          exact congrArg (startOf _ segs) (if_neg hmem).symm
        · intro hstarted
          obtain ⟨first, hfirst, hspec⟩ := hbegins (hstarted.tail fun h => hmem h.1)
          exact ⟨first, List.mem_cons_of_mem _ hfirst, hspec⟩

/-- A read of a segment whose bytes are in the file and whose place is in memory. -/
theorem readFile_whole {space : Space UInt8} {position buf len : ℕ} (hlen : len ≤ 0x10000)
    (hinside : position + len ≤ program.size)
    (hmapped : ∀ address, InRange buf len address → (space address).isSome) :
    readFile program space position buf len =
      (mapRange space buf len fun index => program.image (position + index), len,
        position + len) := by
  have hcount : min (min len 0x7ffff000) (program.size - position) = len := by omega
  have hrun := mappedRun_eq_iff.mpr hmapped
  rw [readFile, if_neg (by omega)]
  simp only [hcount, hrun, copyInto]
  rw [if_neg (by omega)]

/-- What the second scan does to segments that lie one behind the other. -/
theorem readSegs_laid {low high : ℕ} {pairs : List (Xseg × Xseg)} (hlaid : Laid low pairs high)
    (hsound : ∀ pair ∈ pairs, pair.1.Sound program) (position : ℕ) (space : Space UInt8)
    (hzero : ∀ pair ∈ pairs, pair.1.InMemory → ∀ offset < pair.2.xsVsize,
      space (pair.2.xsRbase + offset) = some 0) :
    ∃ after, readSegs program (pairs.map Prod.snd) position space = .ok after ∧
      (∀ pair ∈ pairs, pair.1.InMemory → ∀ offset < pair.2.xsVsize,
        after (pair.2.xsRbase + offset) = some (pair.1.byte program offset)) ∧
      ∀ address < low, after address = space address := by
  induction hlaid generalizing position space with
  | nil => exact ⟨space, rfl, fun _ hpair => absurd hpair List.not_mem_nil, fun _ _ => rfl⟩
  | skip hout _ ih =>
      obtain ⟨hhead, htail⟩ := List.forall_mem_cons.mp hsound
      obtain ⟨-, hzeroTail⟩ := List.forall_mem_cons.mp hzero
      obtain ⟨after, hread, hbytes, hbelow⟩ := ih htail position space hzeroTail
      refine ⟨after, ?_, List.forall_mem_cons.mpr ⟨fun hin => absurd hin hout, hbytes⟩, hbelow⟩
      rw [List.map_cons, readSegs, if_neg fun htext => hout (hhead.memory_iff.mpr htext), hread]
  | @take low middle high sp placed pairs hmem hsettled hrest ih =>
      obtain ⟨hhead, htail⟩ := List.forall_mem_cons.mp hsound
      obtain ⟨hzeroHead, hzeroTail⟩ := List.forall_mem_cons.mp hzero
      have hpsize : placed.xsPsize ≤ placed.xsVsize :=
        hsettled.psize_eq ▸ (hhead.psize_le hmem).trans hsettled.vsize_ge
      have hend := hsettled.end_le
      have hbase := hsettled.rbase_eq
      have hseek : lseek position placed.xsFilpos = sp.xsFilpos := by
        rw [lseek, hsettled.filpos_eq, if_neg (Nat.not_le.mpr (hhead.filpos_lt hmem))]
      have hwhole := @readFile_whole program space sp.xsFilpos placed.xsRbase placed.xsPsize
        (hpsize.trans hsettled.vsize_le) (hsettled.psize_eq ▸ hhead.inside hmem)
        fun address hin => by
          obtain ⟨offset, rfl⟩ := Nat.exists_eq_add_of_le hin.1
          have hoffset : offset < placed.xsVsize := by
            have hlt := hin.2
            omega
          rw [hzeroHead hmem offset hoffset]
          rfl
      obtain ⟨after, hread, hbytes, hbelow⟩ := ih htail (sp.xsFilpos + placed.xsPsize)
        (mapRange space placed.xsRbase placed.xsPsize fun index =>
          program.image (sp.xsFilpos + index)) fun pair hpair hin offset hoffset => by
            obtain ⟨start, stop, hother, hstart, -⟩ := hrest.settled hpair hin
            rw [mapRange_outside, hzeroTail pair hpair hin offset hoffset]
            rw [hother.rbase_eq]
            exact fun hrange => absurd hrange.2 (by omega)
      refine ⟨after, ?_, List.forall_mem_cons.mpr ⟨fun _ offset hlt => ?_, hbytes⟩, ?_⟩
      · rw [List.map_cons, readSegs, if_pos hsettled.textOrData, hseek]
        simp only [hwhole, ne_eq, not_true_eq_false, if_false, hread]
      · have hoffset : offset < placed.xsVsize := hlt
        show after (placed.xsRbase + offset) = some (sp.byte program offset)
        rw [hbelow _ (by omega), Xseg.byte]
        by_cases hfile : offset < sp.xsPsize
        · rw [if_pos hfile, mapRange_inside ⟨Nat.le_add_right .., ?_⟩, Nat.add_sub_cancel_left]
          exact Nat.add_lt_add_left (hsettled.psize_eq ▸ hfile) _
        · rw [if_neg hfile, mapRange_outside, hzeroHead hmem offset hoffset]
          have hpsizeEq := hsettled.psize_eq
          exact fun hrange => absurd hrange.2 (by omega)
      · intro address hlow
        rw [hbelow address (by omega)]
        exact mapRange_outside fun hrange => absurd hrange.1 (by omega)

end Scans

/-! ## The table and the memory the program starts with -/

/-- What `load_xout` has done, with the places of the segments. -/
structure Ran (program : Program) (loading : Loading) (pairs : List (Xseg × Xseg)) : Prop where
  fst_eq : pairs.map Prod.fst = seglist program
  laid : ∃ high, Laid mapStart pairs high
  bytes : ∀ pair ∈ pairs, pair.1.InMemory → ∀ offset < pair.2.xsVsize,
    loading.space (pair.2.xsRbase + offset) = some (pair.1.byte program offset)
  ldts_eq : loading.ldts =
    pairs.flatMap (ldtsOf (xHdr program).xeEseg (impure (seglist program)))
  begins : ∃ first ∈ pairs, first.1.InMemory ∧
    loading.start = (first.1.xsSeg, first.1.xsVsize) ∧ first.2.xsVsize = 0x10000

theorem mem_memorySegs {program : Program} {sp : Xseg} :
    sp ∈ memorySegs program ↔ sp ∈ seglist program ∧ sp.InMemory := by
  rw [memorySegs, List.mem_filter, decide_eq_true_iff]

theorem Sound.started {program : Program} (hsound : Sound program) :
    Started (xHdr program).xeEseg (seglist program) ((xHdr program).xeEseg, 0) where
  same := rfl
  data := by
    have hpos := Nat.pos_of_ne_zero hsound.data
    obtain ⟨sp, hsp, hdata⟩ := List.countP_pos_iff.mp hpos
    have hdata := of_decide_eq_true hdata
    exact ⟨sp, hsp, (hsound.segs sp hsp).memory_iff.mpr (.inr hdata), hdata⟩
  other := fun sp hsp hmem hdata heq =>
    hsound.text_apart sp (mem_memorySegs.mpr ⟨hsp, hmem⟩) hdata (heq ▸ rfl)

/-- A sound program is loaded. -/
theorem exists_ran {host : Host} {program : Program} (hhost : host.Obliging)
    (hsound : Sound program) (rounds : ℕ) :
    ∃ loading pairs, loadXout host program (rounds + 2) = .ok loading ∧
      Ran program loading pairs := by
  have hroom : mapStart + 0x10000 * (seglist program).length ≤ Loaders.taskSize := by
    have hlength := hsound.length_le
    simp only [mapStart, maxSegments, Loaders.taskSize] at *
    omega
  obtain ⟨pairs, state, hfst, hmap, hlaid, hzero, -, hldts, -, hbegins⟩ :=
    @mapSegs_laid host program (impure (seglist program)) hhost rounds hsound.eseg_lt
      (seglist program) ⟨fun _ => none, [], mapStart, (xHdr program).xeEseg, 0⟩ hsound.segs
      (show mapStart % 4096 = 0 by decide) hroom
  have hsegs : ∀ pair ∈ pairs, pair.1.Sound program := fun pair hpair =>
    hsound.segs _ (hfst ▸ List.mem_map_of_mem hpair)
  obtain ⟨space, hread, hbytes, -⟩ :=
    readSegs_laid hlaid hsegs (seglistEnd program) state.space hzero
  refine ⟨{ state with space := space }, pairs, ?_, hfst, ⟨_, hlaid⟩, hbytes, hldts,
    hbegins hsound.started⟩
  simp only [loadXout, hsound.header, hsound.unaligned, bind, Except.bind, if_neg hsound.data,
    hmap, hread, Bool.false_eq_true, if_false]

/-- An entry of the kernel's table that was set holds one of the descriptors set there. -/
theorem kernelTable_spec {ldts : List UserLdt} {entry : ℕ}
    (hset : ∃ ldt ∈ ldts, ldt.entryNumber = entry) :
    ∃ ldt ∈ ldts, ldt.entryNumber = entry ∧ kernelTable ldts entry = kernelDesc ldt := by
  obtain ⟨ldt, hldt, hentry⟩ := hset
  cases hfind : ldts.reverse.find? fun ldt => ldt.entryNumber = entry with
  | none =>
      have hnot := List.find?_eq_none.mp hfind ldt (List.mem_reverse.mpr hldt)
      exact absurd (decide_eq_true hentry) hnot
  | some found =>
      refine ⟨found, List.mem_reverse.mp (List.mem_of_find?_eq_some hfind), ?_, ?_⟩
      · simpa using List.find?_some hfind
      · rw [kernelTable, hfind]

theorem kernelTable_cases (ldts : List UserLdt) (entry : ℕ) :
    (∃ ldt ∈ ldts, kernelTable ldts entry = kernelDesc ldt) ∨
      kernelTable ldts entry = .unused := by
  by_cases hset : ∃ ldt ∈ ldts, ldt.entryNumber = entry
  · obtain ⟨ldt, hldt, -, heq⟩ := kernelTable_spec hset
    exact .inl ⟨ldt, hldt, heq⟩
  · refine .inr ?_
    have hnone : ldts.reverse.find? (fun ldt => ldt.entryNumber = entry) = none :=
      List.find?_eq_none.mpr fun ldt hldt hentry =>
        hset ⟨ldt, List.mem_reverse.mp hldt, of_decide_eq_true hentry⟩
    rw [kernelTable, hnone]

section Ran

variable {program : Program} {loading : Loading} {pairs : List (Xseg × Xseg)}

theorem Ran.exists_pair (hran : Ran program loading pairs) {sp : Xseg}
    (hsp : sp ∈ memorySegs program) : ∃ placed, (sp, placed) ∈ pairs ∧ sp.InMemory := by
  obtain ⟨hlist, hmem⟩ := mem_memorySegs.mp hsp
  rw [← hran.fst_eq] at hlist
  obtain ⟨⟨sp, placed⟩, hpair, rfl⟩ := List.mem_map.mp hlist
  exact ⟨placed, hpair, hmem⟩

theorem Ran.mem_memory (hran : Ran program loading pairs) {pair : Xseg × Xseg}
    (hpair : pair ∈ pairs) (hmem : pair.1.InMemory) : pair.1 ∈ memorySegs program :=
  mem_memorySegs.mpr ⟨hran.fst_eq ▸ List.mem_map_of_mem hpair, hmem⟩

/-- A descriptor that was set is a segment's own or the second one of an impure program. -/
theorem Ran.mem_ldts (hran : Ran program loading pairs) {ldt : UserLdt}
    (hldt : ldt ∈ loading.ldts) :
    ∃ pair ∈ pairs, pair.1.InMemory ∧ (ldt = ownLdt pair.1 pair.2 ∨
      (impure (seglist program) ∧ 0x47 ≤ pair.1.xsSeg) ∧
        ldt = mirrorLdt (xHdr program).xeEseg pair.1 pair.2) := by
  rw [hran.ldts_eq] at hldt
  obtain ⟨pair, hpair, hof⟩ := List.mem_flatMap.mp hldt
  by_cases hmem : pair.1.InMemory
  · rw [ldtsOf, if_pos hmem] at hof
    refine ⟨pair, hpair, hmem, ?_⟩
    rcases List.mem_cons.mp hof with hown | hmirror
    · exact .inl hown
    · by_cases himpure : impure (seglist program) ∧ 0x47 ≤ pair.1.xsSeg
      · rw [if_pos himpure] at hmirror
        exact .inr ⟨himpure, List.mem_singleton.mp hmirror⟩
      · rw [if_neg himpure] at hmirror
        exact absurd hmirror List.not_mem_nil
  · rw [ldtsOf, if_neg hmem] at hof
    exact absurd hof List.not_mem_nil

theorem Ran.settled (hran : Ran program loading pairs) {pair : Xseg × Xseg}
    (hpair : pair ∈ pairs) (hmem : pair.1.InMemory) :
    ∃ high, Settled pair.1 pair.2 pair.2.xsRbase high ∧ mapStart ≤ pair.2.xsRbase := by
  obtain ⟨_, hlaid⟩ := hran.laid
  obtain ⟨start, stop, hsettled, hlow, -⟩ := hlaid.settled hpair hmem
  obtain rfl := hsettled.rbase_eq
  exact ⟨stop, hsettled, hlow⟩

theorem Ran.eq_of_entry (hran : Ran program loading pairs) (hsound : Sound program)
    {first second : Xseg × Xseg} (hfirst : first ∈ pairs) (hfirstMem : first.1.InMemory)
    (hsecond : second ∈ pairs) (hsecondMem : second.1.InMemory)
    (hentry : first.1.xsSeg >>> 3 = second.1.xsSeg >>> 3) : first = second := by
  have hkeys := hsound.entries
  rw [memorySegs, ← hran.fst_eq, List.filter_map, List.map_map] at hkeys
  have hmem : ∀ pair ∈ pairs, pair.1.InMemory →
      pair ∈ pairs.filter ((fun sp => decide sp.InMemory) ∘ Prod.fst) := fun pair hpair hin =>
    List.mem_filter.mpr ⟨hpair, decide_eq_true hin⟩
  exact List.inj_on_of_nodup_map hkeys (hmem _ hfirst hfirstMem) (hmem _ hsecond hsecondMem)
    hentry

/-- All memory of an impure program is data. -/
theorem Sound.data_of_impure (hsound : Sound program) (himpure : impure (seglist program))
    {sp : Xseg} (hsp : sp ∈ memorySegs program) : sp.xsType = 2 := by
  obtain ⟨hlist, hmem⟩ := mem_memorySegs.mp hsp
  have htext : countType 1 (seglist program) = 0 := (of_decide_eq_true himpure).1
  refine ((hsound.segs sp hlist).memory_iff.mp hmem).resolve_left fun hone => ?_
  exact absurd (decide_eq_true hone) (List.countP_eq_zero.mp htext sp hlist)

/-- Base and limit of a descriptor that was set for a segment, by either of its selectors. -/
theorem Ran.desc_eq (hran : Ran program loading pairs) (hsound : Sound program)
    {pair : Xseg × Xseg} (hpair : pair ∈ pairs) (hmem : pair.1.InMemory) {ldt : UserLdt}
    (hldt : ldt = ownLdt pair.1 pair.2 ∨ ldt = mirrorLdt (xHdr program).xeEseg pair.1 pair.2) :
    (kernelDesc ldt).base = pair.2.xsRbase ∧
      (kernelDesc ldt).limit + 1 = pair.2.xsVsize := by
  obtain ⟨_, hsettled, -⟩ := hran.settled hpair hmem
  have hpos := (hsound.segs _ (mem_memorySegs.mp (hran.mem_memory hpair hmem)).1).vsize_pos hmem
  have hge := hsettled.vsize_ge
  have hle := hsettled.vsize_le
  have hlimit : ldt.limit = wordSub pair.2.xsVsize 1 := by
    rcases hldt with rfl | rfl <;> rfl
  have hbase : ldt.baseAddr = pair.2.xsRbase := by
    rcases hldt with rfl | rfl <;> rfl
  refine ⟨hbase, ?_⟩
  simp only [kernelDesc, hlimit, wordSub]
  omega

/-- The descriptor under the selector of a segment of memory. -/
theorem Ran.table_eq (hran : Ran program loading pairs) (hsound : Sound program)
    {pair : Xseg × Xseg} (hpair : pair ∈ pairs) (hmem : pair.1.InMemory) :
    (kernelTable loading.ldts (pair.1.xsSeg >>> 3)).base = pair.2.xsRbase ∧
      (kernelTable loading.ldts (pair.1.xsSeg >>> 3)).limit + 1 = pair.2.xsVsize := by
  have hown : ownLdt pair.1 pair.2 ∈ loading.ldts := by
    rw [hran.ldts_eq]
    refine List.mem_flatMap.mpr ⟨pair, hpair, ?_⟩
    rw [ldtsOf, if_pos hmem]
    exact List.mem_cons_self
  obtain ⟨ldt, hldt, hentry, htable⟩ :
      ∃ ldt ∈ loading.ldts, ldt.entryNumber = pair.1.xsSeg >>> 3 ∧
        kernelTable loading.ldts (pair.1.xsSeg >>> 3) = kernelDesc ldt :=
    kernelTable_spec ⟨_, hown, rfl⟩
  obtain ⟨other, hother, hotherMem, hcases⟩ := hran.mem_ldts hldt
  rw [htable]
  rcases hcases with hotherOwn | ⟨himpure, hmirror⟩
  · -- two segments with one entry are one segment
    have hkeys : other.1.xsSeg >>> 3 = pair.1.xsSeg >>> 3 := by rw [← hentry, hotherOwn]; rfl
    have hsame : other = pair := hran.eq_of_entry hsound hother hotherMem hpair hmem hkeys
    exact hran.desc_eq hsound hpair hmem (.inl (hsame ▸ hotherOwn))
  · -- the second descriptor of an impure program is not the data segment's
    have hdata := hsound.data_of_impure himpure.1 (hran.mem_memory hpair hmem)
    have hkeys : pair.1.xsSeg >>> 3 = (xHdr program).xeEseg >>> 3 := by
      rw [← hentry, hmirror]
      rfl
    exact absurd hkeys (hsound.text_apart _ (hran.mem_memory hpair hmem) hdata)

/-- An impure program has one segment of memory. -/
theorem Ran.eq_of_impure (hran : Ran program loading pairs) (hsound : Sound program)
    (himpure : impure (seglist program)) {first second : Xseg × Xseg} (hfirst : first ∈ pairs)
    (hfirstMem : first.1.InMemory) (hsecond : second ∈ pairs)
    (hsecondMem : second.1.InMemory) : first = second := by
  have hcount : countType 2 (seglist program) = 1 := (of_decide_eq_true himpure).2
  rw [countType, ← hran.fst_eq, List.countP_map, List.countP_eq_length_filter] at hcount
  obtain ⟨only, honly⟩ := List.length_eq_one_iff.mp hcount
  have heq : ∀ pair ∈ pairs, pair.1.InMemory → pair = only := fun pair hpair hmem => by
    refine List.mem_singleton.mp (honly ▸ List.mem_filter.mpr ⟨hpair, ?_⟩)
    exact decide_eq_true (hsound.data_of_impure himpure (hran.mem_memory hpair hmem))
  rw [heq first hfirst hfirstMem, heq second hsecond hsecondMem]

/-- The descriptor under the selector an impure program starts in. -/
theorem Ran.text_eq (hran : Ran program loading pairs) (hsound : Sound program)
    (himpure : impure (seglist program)) {pair : Xseg × Xseg} (hpair : pair ∈ pairs)
    (hmem : pair.1.InMemory) (hseg : 0x47 ≤ pair.1.xsSeg) :
    (kernelTable loading.ldts ((xHdr program).xeEseg >>> 3)).base = pair.2.xsRbase ∧
      (kernelTable loading.ldts ((xHdr program).xeEseg >>> 3)).limit + 1 = pair.2.xsVsize := by
  have hmirror : mirrorLdt (xHdr program).xeEseg pair.1 pair.2 ∈ loading.ldts := by
    rw [hran.ldts_eq]
    refine List.mem_flatMap.mpr ⟨pair, hpair, ?_⟩
    rw [ldtsOf, if_pos hmem, if_pos ⟨himpure, hseg⟩]
    exact List.mem_cons_of_mem _ List.mem_cons_self
  obtain ⟨ldt, hldt, hentry, htable⟩ :
      ∃ ldt ∈ loading.ldts, ldt.entryNumber = (xHdr program).xeEseg >>> 3 ∧
        kernelTable loading.ldts ((xHdr program).xeEseg >>> 3) = kernelDesc ldt :=
    kernelTable_spec ⟨_, hmirror, rfl⟩
  obtain ⟨other, hother, hotherMem, hcases⟩ := hran.mem_ldts hldt
  obtain rfl := hran.eq_of_impure hsound himpure hother hotherMem hpair hmem
  rw [htable]
  exact hran.desc_eq hsound hpair hmem (hcases.imp_right And.right)

/-- What is seen under a selector whose descriptor is known. -/
theorem sees_eq {selector base limit offset : ℕ}
    (hbase : (kernelTable loading.ldts (selector >>> 3)).base = base)
    (hlimit : (kernelTable loading.ldts (selector >>> 3)).limit + 1 = limit) :
    loading.sees selector offset =
      if offset < limit then loading.space (base + offset) else none := by
  rw [Loading.sees, ← hbase, ← hlimit]
  simp only [Nat.lt_succ_iff]

theorem Ran.limit_le (hran : Ran program loading pairs) (hsound : Sound program) (entry : ℕ) :
    (kernelTable loading.ldts entry).limit ≤ 0xffff := by
  rcases kernelTable_cases loading.ldts entry with ⟨ldt, hldt, htable⟩ | hunused
  · obtain ⟨pair, hpair, hmem, hcases⟩ := hran.mem_ldts hldt
    obtain ⟨_, hsettled, -⟩ := hran.settled hpair hmem
    have hlimit := (hran.desc_eq hsound hpair hmem (hcases.imp_right And.right)).2
    have hle := hsettled.vsize_le
    rw [htable]
    omega
  · rw [hunused]
    exact Nat.zero_le _

/-- What `main` and the memory calls rely on. -/
theorem Ran.loaded (hran : Ran program loading pairs) (hsound : Sound program) :
    Loaded (kernelTable loading.ldts) maxSegments loading.initDs loading.limitStk := by
  obtain ⟨first, hfirst, hmem, hstart, -⟩ := hran.begins
  obtain ⟨hds, hstk⟩ := Prod.mk.inj hstart
  have hseg := hsound.segs _ (mem_memorySegs.mp (hran.mem_memory hfirst hmem)).1
  obtain ⟨_, -, hlow⟩ := hran.settled hfirst hmem
  rw [hds, hstk]
  exact {
    count_le := le_rfl
    data_lt := hseg.entry_lt hmem
    data_base := by
      rw [(hran.table_eq hsound hfirst hmem).1]
      exact Nat.lt_of_lt_of_le (by decide) hlow
    limit_le := fun entry _ _ => hran.limit_le hsound entry
    data_le := hseg.vsize_le hmem }

/-- Two segments share no memory. -/
theorem Ran.apart (hran : Ran program loading pairs) {first second : Xseg × Xseg}
    (hfirst : first ∈ pairs) (hfirstMem : first.1.InMemory) (hsecond : second ∈ pairs)
    (hsecondMem : second.1.InMemory) (hne : first ≠ second) :
    first.2.xsRbase + first.2.xsVsize ≤ second.2.xsRbase ∨
      second.2.xsRbase + second.2.xsVsize ≤ first.2.xsRbase := by
  obtain ⟨_, hlaid⟩ := hran.laid
  have happart : pairs.Pairwise fun first second => first.1.InMemory → second.1.InMemory →
      (first.2.xsRbase + first.2.xsVsize ≤ second.2.xsRbase ∨
        second.2.xsRbase + second.2.xsVsize ≤ first.2.xsRbase) :=
    hlaid.apart.imp fun h hmem hotherMem => .inl (h hmem hotherMem)
  have hsymm : Std.Symm fun first second : Xseg × Xseg =>
      first.1.InMemory → second.1.InMemory →
        (first.2.xsRbase + first.2.xsVsize ≤ second.2.xsRbase ∨
          second.2.xsRbase + second.2.xsVsize ≤ first.2.xsRbase) :=
    ⟨fun _ _ h hmem hotherMem => (h hotherMem hmem).symm⟩
  exact happart.forall hfirst hsecond hne hfirstMem hsecondMem

end Ran

/-- A 286 program as the linker makes them is loaded.  Under the selector of each of
its segments it finds the bytes of the file and then zeros; the segment its data is in
has 64K; an impure program finds the same memory under the selector it starts in; no two
segments share a byte; and the table is what `main` and the memory calls rely on. -/
theorem loadXout_sees {host : Host} {program : Program} (hhost : host.Obliging)
    (hsound : Sound program) (rounds : ℕ) :
    ∃ loading, loadXout host program (rounds + 2) = .ok loading ∧
      Loaded (kernelTable loading.ldts) maxSegments loading.initDs loading.limitStk ∧
      (∀ sp ∈ memorySegs program, ∀ offset < sp.xsVsize,
        loading.sees sp.xsSeg offset = some (sp.byte program offset)) ∧
      (∀ offset < 0x10000, (loading.sees loading.initDs offset).isSome) ∧
      (impure (seglist program) → ∀ sp ∈ memorySegs program, 0x47 ≤ sp.xsSeg →
        ∀ offset, loading.sees (xHdr program).xeEseg offset = loading.sees sp.xsSeg offset) ∧
      ∀ sp ∈ memorySegs program, ∀ other ∈ memorySegs program,
        sp.xsSeg >>> 3 ≠ other.xsSeg >>> 3 →
        ∀ offset ≤ (kernelTable loading.ldts (sp.xsSeg >>> 3)).limit,
        ∀ otherOffset ≤ (kernelTable loading.ldts (other.xsSeg >>> 3)).limit,
          (kernelTable loading.ldts (sp.xsSeg >>> 3)).base + offset ≠
            (kernelTable loading.ldts (other.xsSeg >>> 3)).base + otherOffset := by
  obtain ⟨loading, pairs, hload, hran⟩ := exists_ran hhost hsound rounds
  refine ⟨loading, hload, hran.loaded hsound, ?_, ?_, ?_, ?_⟩
  · intro sp hsp offset hoffset
    obtain ⟨placed, hpair, hmem⟩ := hran.exists_pair hsp
    obtain ⟨_, hsettled, -⟩ := hran.settled hpair hmem
    obtain ⟨hbase, hlimit⟩ := hran.table_eq hsound hpair hmem
    have hplaced : offset < placed.xsVsize := hoffset.trans_le hsettled.vsize_ge
    rw [sees_eq hbase hlimit, if_pos hplaced]
    exact hran.bytes _ hpair hmem offset hplaced
  · intro offset hoffset
    obtain ⟨first, hfirst, hmem, hstart, hsize⟩ := hran.begins
    obtain ⟨hbase, hlimit⟩ := hran.table_eq hsound hfirst hmem
    have hds : loading.initDs = first.1.xsSeg := congrArg Prod.fst hstart
    have hplaced : offset < first.2.xsVsize := hsize ▸ hoffset
    rw [hds, sees_eq hbase hlimit, if_pos hplaced, hran.bytes _ hfirst hmem offset hplaced]
    rfl
  · intro himpure sp hsp hseg offset
    obtain ⟨placed, hpair, hmem⟩ := hran.exists_pair hsp
    obtain ⟨hbase, hlimit⟩ := hran.table_eq hsound hpair hmem
    obtain ⟨htextBase, htextLimit⟩ := hran.text_eq hsound himpure hpair hmem hseg
    rw [sees_eq hbase hlimit, sees_eq htextBase htextLimit]
  · intro sp hsp other hother hne offset hoffset otherOffset hotherOffset
    obtain ⟨placed, hpair, hmem⟩ := hran.exists_pair hsp
    obtain ⟨otherPlaced, hotherPair, hotherMem⟩ := hran.exists_pair hother
    obtain ⟨hbase, hlimit⟩ := hran.table_eq hsound hpair hmem
    obtain ⟨hotherBase, hotherLimit⟩ := hran.table_eq hsound hotherPair hotherMem
    have hpairs : (sp, placed) ≠ (other, otherPlaced) := fun h =>
      hne (congrArg (fun pair => pair.1.xsSeg >>> 3) h)
    have happart := hran.apart hpair hmem hotherPair hotherMem hpairs
    simp only at hbase hlimit hotherBase hotherLimit happart
    omega

/-- A program with two segments, of two bytes each of which the file has one. -/
def twoSegments (type eseg : UInt8) : Program where
  image := fun pos =>
    [0x06, 0x02, 44, 0, 0, 0, 0, 0, 0, 0, 0, 0, 0, 0, 0, 0,
      0, 0, 0, 0, 0, 0, 0, 0, 0, 0, 0, 0, 0x49, 0, 0x01, 0x08,
      0, 0, 0, 0, 0, 0, 0, 0, 0, 0, 0, 0, 0, 0, 0, 0, 0, 0, 0, 0, 76, 0, 0, 0,
      64, 0, 0, 0, 0, 0, 0, 0, 0, 0, 0, 0, 0, 0, 0, 0, eseg, 0, 0, 0,
      type, 0, 0x00, 0x80, 0x3f, 0, 0, 0, 140, 0, 0, 0, 1, 0, 0, 0,
      2, 0, 0, 0, 0, 0, 0, 0, 0, 0, 0, 0, 0, 0, 0, 0,
      2, 0, 0x00, 0x80, 0x47, 0, 0, 0, 141, 0, 0, 0, 1, 0, 0, 0,
      2, 0, 0, 0, 0, 0, 0, 0, 0, 0, 0, 0, 0, 0, 0, 0, 0xaa, 0xbb].getD pos 0
  size := 142

theorem sound_twoSegments : Sound (twoSegments 1 0x3f) := by
  have hsegs : seglist (twoSegments 1 0x3f) =
      [⟨⟨1, 0x8000, 140, 1, 2, 0⟩, 0x3f⟩, ⟨⟨2, 0x8000, 141, 1, 2, 0⟩, 0x47⟩] := by
    decide
  have hmemory : memorySegs (twoSegments 1 0x3f) = seglist (twoSegments 1 0x3f) := by decide
  refine {
    header := rfl
    data := by decide
    unaligned := by decide
    length_le := by decide
    segs := ?_
    entries := by decide
    text_apart := by rw [hmemory, hsegs]; decide
    eseg_lt := by decide }
  rw [hsegs]
  refine List.forall_mem_cons.mpr ⟨?_, List.forall_mem_singleton.mpr ?_⟩
  · exact ⟨by decide, by decide, by decide, by decide, by decide, by decide, by decide⟩
  · exact ⟨by decide, by decide, by decide, by decide, by decide, by decide, by decide⟩

/-- A program with a text and a data segment. -/
theorem loadXout_sees_text :
    ∃ loading, loadXout ⟨⟨fun _ _ => none⟩, fun _ => true⟩ (twoSegments 1 0x3f) 2 = .ok loading ∧
      loading.sees 0x3f 0 = some 0xaa ∧ loading.sees 0x47 1 = some 0 := by
  obtain ⟨loading, hload, -, hsees, -⟩ := loadXout_sees
    (⟨fun _ _ => rfl, fun _ _ => rfl⟩ : Host.Obliging ⟨⟨fun _ _ => none⟩, fun _ => true⟩)
    sound_twoSegments 0
  have hsegs : memorySegs (twoSegments 1 0x3f) =
      [⟨⟨1, 0x8000, 140, 1, 2, 0⟩, 0x3f⟩, ⟨⟨2, 0x8000, 141, 1, 2, 0⟩, 0x47⟩] := by
    decide
  rw [hsegs] at hsees
  refine ⟨loading, hload, ?_, ?_⟩
  · exact hsees ⟨⟨1, 0x8000, 140, 1, 2, 0⟩, 0x3f⟩ (by decide) 0 (by decide)
  · exact hsees ⟨⟨2, 0x8000, 141, 1, 2, 0⟩, 0x47⟩ (by decide) 1 (by decide)

/-! ## A loop without an end -/

section Endless

variable {host : Host} {program : Program}

/-- With such a selector to start in, the second descriptor asks for a third. -/
theorem xoutAmen_endless (hhost : ∀ ldt, host.modifyLdt ldt = true)
    (heseg : 0x47 ≤ (xHdr program).xeEseg) (rounds : ℕ) (sp : Xseg) (state : Loading)
    (hseg : 0x47 ≤ sp.xsSeg) :
    xoutAmen host program false true rounds sp state = .error .endless := by
  induction rounds generalizing sp state with
  | zero => rfl
  | succ rounds ih =>
      rw [xoutAmen]
      simp only [placeSeg_eq, hhost, Bool.true_eq_false, if_false, Bool.false_eq_true, bind,
        Except.bind, Xseg.placed, true_and, if_pos hseg]
      exact ih _ _ heseg

/-- As long as the kernel takes the descriptors, nothing else stops the scan. -/
theorem xoutAmen_cases (hhost : ∀ ldt, host.modifyLdt ldt = true) (impure : Bool) (rounds : ℕ)
    (sp : Xseg) (state : Loading) :
    xoutAmen host program false impure rounds sp state = .error .endless ∨
      ∃ result, xoutAmen host program false impure rounds sp state = .ok result := by
  induction rounds generalizing sp state with
  | zero => exact .inl rfl
  | succ rounds ih =>
      rw [xoutAmen]
      simp only [placeSeg_eq, hhost, Bool.true_eq_false, if_false, Bool.false_eq_true, bind,
        Except.bind, Xseg.placed]
      split
      · exact ih _ _
      · exact .inr ⟨_, rfl⟩

theorem mapSegs_endless (hhost : ∀ ldt, host.modifyLdt ldt = true)
    (heseg : 0x47 ≤ (xHdr program).xeEseg) (rounds : ℕ) (segs : List Xseg) (state : Loading)
    (hdata : ∃ sp ∈ segs, sp.InMemory ∧ 0x47 ≤ sp.xsSeg) :
    mapSegs host program false true rounds segs state = .error .endless := by
  induction segs generalizing state with
  | nil => exact absurd hdata.choose_spec.1 List.not_mem_nil
  | cons sp segs ih =>
      by_cases hhere : sp.InMemory ∧ 0x47 ≤ sp.xsSeg
      · rw [mapSegs, if_pos hhere.1, xoutAmen_endless hhost heseg rounds sp state hhere.2]
        rfl
      · have hrest : ∃ sp ∈ segs, sp.InMemory ∧ 0x47 ≤ sp.xsSeg := by
          obtain ⟨other, hother, hspec⟩ := hdata
          rcases List.mem_cons.mp hother with rfl | hlater
          · exact absurd hspec hhere
          · exact ⟨other, hlater, hspec⟩
        rw [mapSegs]
        split
        · rcases xoutAmen_cases hhost true rounds sp state with hendless | ⟨result, hok⟩
          · rw [hendless]
            rfl
          · rw [hok]
            simp only [bind, Except.bind, ih result.2 hrest]
        · simp only [bind, Except.bind, ih state hrest]

end Endless

end IbcsUs.X286.LoadXout
