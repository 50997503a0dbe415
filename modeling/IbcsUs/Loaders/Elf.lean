import IbcsUs.Loaders.Mmap

/-!
# Loading an ELF file

`load_elf_binary` maps every `PT_LOAD` segment of the program from the file and clears
the rest of the last page that it maps of it.  The pages of a `.bss` behind that page are
asked from `do_brk`, which has no heap to make larger yet and reports a success.  The
program interpreter is mapped the same way by `load_elf_interp`.

A page that is mapped neither for writing nor for execution can not be written, which
matters where the rest of a page is cleared.
-/

namespace IbcsUs.Loaders

open IbcsUs.Addresses IbcsUs.Memory

/-- The fields of `struct elf_phdr` that the loader reads. -/
structure ElfPhdr where
  pType : ℕ
  pOffset : ℕ
  pVaddr : ℕ
  pFilesz : ℕ
  pMemsz : ℕ
  pFlags : ℕ
  deriving DecidableEq

/-- The program header at a place in the file. -/
def phdrAt (file : Image) (pos : ℕ) : ElfPhdr where
  pType := le32 file pos
  pOffset := le32 file (pos + 4)
  pVaddr := le32 file (pos + 8)
  pFilesz := le32 file (pos + 16)
  pMemsz := le32 file (pos + 20)
  pFlags := le32 file (pos + 24)

/-- The fields of `struct elfhdr` that the loader reads. -/
structure Elfhdr where
  eIdent : ℕ
  eType : ℕ
  eMachine : ℕ
  eEntry : ℕ
  ePhoff : ℕ
  ePhentsize : ℕ
  ePhnum : ℕ

def elfhdr (file : Image) : Elfhdr where
  eIdent := le32 file 0
  eType := le16 file 16
  eMachine := le16 file 18
  eEntry := le32 file 24
  ePhoff := le32 file 28
  ePhentsize := le16 file 42
  ePhnum := le16 file 44

/-- `elf_phdata`. -/
def elfPhdata (file : Image) : List ElfPhdr :=
  (List.range (elfhdr file).ePhnum).map fun index =>
    phdrAt file ((elfhdr file).ePhoff + 32 * index)

/-- `ELFMAG`. -/
def elfmag : ℕ := 0x464c457f

/-- `elf_check_arch`. -/
def elfCheckArch (header : Elfhdr) : Bool := header.eMachine = 3 || header.eMachine = 6

/-- `ET_EXEC`. -/
def etExec : ℕ := 2

/-- `ET_DYN`. -/
def etDyn : ℕ := 3

/-- `PT_LOAD`. -/
def ptLoad : ℕ := 1

/-- `PT_INTERP`. -/
def ptInterp : ℕ := 3

/-- `ELIBBAD`. -/
def elibbad : Errno := ⟨80, by decide, by decide⟩

/-- The kernel, and where it puts pages that may lie anywhere. -/
structure ElfHost extends Kernel where
  place : ℕ → ℕ → ℕ

/-- What a load has done so far, with the addresses that can be written. -/
structure ElfState extends LoadState where
  writable : ℕ → Bool

/-- `BAD_ADDR`. -/
def badAddr (address : ℕ) : Bool := taskSize ≤ address

/-! ## The steps of the loader -/

/-- `PF_W` or `PF_X`: `binfmt_mmap` makes what can be executed writable. -/
def ElfPhdr.writable (phdr : ElfPhdr) : Bool := phdr.pFlags &&& 3 ≠ 0

/-- The bytes of its last page in front of a segment. -/
def ElfPhdr.pageOffset (phdr : ElfPhdr) : ℕ := phdr.pVaddr % 4096

/-- The size of the pages that `elf_map` asks for. -/
def ElfPhdr.mapSize (phdr : ElfPhdr) : ℕ :=
  pageAlign (wordAdd phdr.pFilesz phdr.pageOffset)

/-- `elf_map`. -/
def elfMap (host : ElfHost) (state : ElfState) (file : Image) (addr : ℕ)
    (phdr : ElfPhdr) (fixed : Bool) : ElfState × ℕ :=
  let size := phdr.mapSize
  let off := wordSub phdr.pOffset phdr.pageOffset
  let addr := pageMask addr
  if size = 0 then (state, addr)
  else
    let addr := if fixed then addr else host.place addr size
    let (after, mapAddr) := binfmtMmap host.toKernel state.toLoadState (some file) addr size off
    if isErr mapAddr then ({ state with toLoadState := after }, mapAddr)
    else
      ({ toLoadState := after
         writable := fun address =>
          if InRange addr size address then phdr.writable else state.writable address },
        mapAddr)

/-- `set_brk`.  Nothing is mapped at the address zero of the record, so the kernel
refuses the `mremap` of `do_brk`. -/
def setBrk (mm : MmStruct) (start stop : ℕ) : Except LoadFailure MmStruct :=
  let start := pageAlign start
  let stop := pageAlign stop
  if start < stop then
    let (state, addr) := doBrk ⟨mm, ⟨0, 0⟩, 0⟩ start (wordSub stop start) (.refused efault)
    if badAddr addr then .error (.status addr)
    else .ok { state.mm with brk := stop }
  else .ok { mm with brk := stop }

/-- `clear_user`. -/
def clearUser (state : ElfState) (addr len : ℕ) : Except LoadFailure ElfState :=
  if (List.range len).all fun index => state.writable (addr + index) then do
    let after ← clearMemory state.toLoadState addr len
    .ok { state with toLoadState := after }
  else .error .segfault

/-- `padzero`. -/
def padzero (state : ElfState) (elfBss : ℕ) : Except LoadFailure ElfState :=
  if elfBss % 4096 = 0 then .ok state
  else clearUser state elfBss (4096 - elfBss % 4096)

/-- A segment of the wrong size, or one that does not fit into the program's memory
from `start` on. -/
def ElfPhdr.badSize (phdr : ElfPhdr) (start : ℕ) : Prop :=
  badAddr start ∨ phdr.pMemsz < phdr.pFilesz ∨ taskSize < phdr.pMemsz ∨
    taskSize - phdr.pMemsz < start

instance (phdr : ElfPhdr) (start : ℕ) : Decidable (phdr.badSize start) :=
  inferInstanceAs (Decidable (_ ∨ _))

/-! ## The interpreter -/

/-- The variables of the loop of `load_elf_interp`. -/
structure InterpLoop where
  state : ElfState
  elfBss : ℕ
  lastBss : ℕ
  loadAddr : ℕ
  loadAddrSet : Bool

/-- One `PT_LOAD` segment of the interpreter. -/
def interpPhdr (host : ElfHost) (interp : Image) (noBase : ℕ) (loop : InterpLoop)
    (phdr : ElfPhdr) : Except LoadFailure InterpLoop :=
  let eType := (elfhdr interp).eType
  let fixed := eType = etExec || loop.loadAddrSet
  let loadAddr :=
    if !fixed ∧ noBase ≠ 0 then wordSub 0 phdr.pVaddr else loop.loadAddr
  let (state, mapAddr) :=
    elfMap host loop.state interp (wordAdd loadAddr phdr.pVaddr) phdr fixed
  if badAddr mapAddr then .error (.status mapAddr)
  else
    let first := !loop.loadAddrSet && eType = etDyn
    let loadAddr := if first then wordSub mapAddr (pageMask phdr.pVaddr) else loadAddr
    let start := wordAdd loadAddr phdr.pVaddr
    if phdr.badSize start then .error (.status enomem.word)
    else
      .ok {
        state := state
        elfBss := max loop.elfBss (wordAdd start phdr.pFilesz)
        lastBss := max loop.lastBss (wordAdd start phdr.pMemsz)
        loadAddr := loadAddr
        loadAddrSet := loop.loadAddrSet || first }

/-- `load_elf_interp`.  Its result may be an error number all the same. -/
def loadElfInterp (host : ElfHost) (state : ElfState) (interp : Image) (noBase : ℕ) :
    Except LoadFailure (ElfState × ℕ) :=
  let header := elfhdr interp
  let loads := (elfPhdata interp).filter fun phdr => phdr.pType = ptLoad
  if (header.eType ≠ etExec ∧ header.eType ≠ etDyn) ∨ elfCheckArch header = false ∨
      header.ePhentsize ≠ 32 ∨ header.ePhnum < 1 ∨ 128 < header.ePhnum then
    .error (.status (2 ^ 32 - 1))
  else if 2 ^ 31 ≤ header.ePhoff then .error (.status einval.word)
  else
    match loads.head?, loads.getLast? with
    | some first, some last =>
        if wordSub (wordAdd last.pVaddr last.pMemsz) (pageMask first.pVaddr) = 0 then
          .error (.status einval.word)
        else do
          let loop ← loads.foldlM (interpPhdr host interp noBase) ⟨state, 0, 0, 0, false⟩
          if loop.elfBss < loop.lastBss then
            let state ← padzero loop.state loop.elfBss
            let elfBss := pageAlign loop.elfBss
            let (brk, addr) := doBrk ⟨state.mm, ⟨0, 0⟩, 0⟩ elfBss
              (wordSub loop.lastBss elfBss) (.refused efault)
            .ok ({ state with mm := brk.mm }, if badAddr addr then addr else loop.loadAddr)
          else .ok (loop.state, loop.loadAddr)
    | _, _ => .error (.status einval.word)

/-- The name of the interpreter in the file, with the zero at its end. -/
def elfInterpreter (file : Image) (phdr : ElfPhdr) : Except LoadFailure (List UInt8) :=
  if 4096 < phdr.pFilesz ∨ phdr.pFilesz < 2 then .error (.status enoexec.word)
  else if 2 ^ 31 ≤ phdr.pOffset then .error (.status einval.word)
  else
    let name := (List.range phdr.pFilesz).map fun index => file (phdr.pOffset + index)
    if name.getLast? = some 0 then .ok (name.takeWhile fun char => char ≠ 0)
    else .error (.status enoexec.word)

/-- The interpreter of the program, if it names one. -/
def openInterpreter (openExec : List UInt8 → Except LoadFailure Image) (file : Image) :
    Except LoadFailure (Option Image) :=
  match (elfPhdata file).find? fun phdr => phdr.pType = ptInterp with
  | none => .ok none
  | some phdr => do
      let name ← elfInterpreter file phdr
      let interp ← openExec name
      if (elfhdr interp).eIdent ≠ elfmag ∨ elfCheckArch (elfhdr interp) = false then
        .error (.status elibbad.word)
      else .ok (some interp)

/-! ## The program -/

/-- The variables of the loop of `load_elf_binary`. -/
structure ElfLoop where
  state : ElfState
  elfBss : ℕ
  elfBrk : ℕ
  loadBias : ℕ
  loadAddrSet : Bool

/-- The `.bss` of the segments so far, in front of the next one. -/
def clearBss (loop : ElfLoop) : Except LoadFailure ElfState :=
  if loop.elfBss < loop.elfBrk then do
    let mm ← setBrk loop.state.mm (wordAdd loop.elfBss loop.loadBias)
      (wordAdd loop.elfBrk loop.loadBias)
    let state := { loop.state with mm := mm }
    if loop.elfBss % 4096 = 0 then .ok state
    else
      let nbyte := min (4096 - loop.elfBss % 4096) (loop.elfBrk - loop.elfBss)
      clearUser state (wordAdd loop.elfBss loop.loadBias) nbyte
  else .ok loop.state

/-- One `PT_LOAD` segment of the program. -/
def elfPhdr (host : ElfHost) (file : Image) (loop : ElfLoop) (phdr : ElfPhdr) :
    Except LoadFailure ElfLoop := do
  let state ← clearBss loop
  let eType := (elfhdr file).eType
  let fixed := eType = etExec || loop.loadAddrSet
  let loadBias := if fixed then loop.loadBias else 0x50000000
  let (state, error) :=
    elfMap host state file (wordAdd loadBias phdr.pVaddr) phdr fixed
  if badAddr error then .error (.status (if isErr error then error else einval.word))
  else if phdr.badSize phdr.pVaddr then .error (.status einval.word)
  else
    .ok {
      state := state
      elfBss := max loop.elfBss (wordAdd phdr.pVaddr phdr.pFilesz)
      elfBrk := max loop.elfBrk (wordAdd phdr.pVaddr phdr.pMemsz)
      loadBias :=
        if loop.loadAddrSet = false ∧ eType = etDyn then
          wordAdd loadBias (wordSub error (pageMask (wordAdd loadBias phdr.pVaddr)))
        else loadBias
      loadAddrSet := true }

/-- The checks of the header, and the read of the program headers. -/
def checkElfhdr (file : Image) : Except LoadFailure Unit :=
  let header := elfhdr file
  if header.eIdent ≠ elfmag then .error (.status enoexec.word)
  else if header.eType ≠ etExec ∧ header.eType ≠ etDyn then .error (.status enoexec.word)
  else if elfCheckArch header = false then .error (.status enoexec.word)
  else if header.ePhentsize ≠ 32 then .error (.status enoexec.word)
  else if header.ePhnum < 1 ∨ 2048 < header.ePhnum then .error (.status enoexec.word)
  else if 2 ^ 31 ≤ header.ePhoff then .error (.status einval.word)
  else .ok ()

/-- The `PT_LOAD` segments. -/
def elfLoads (file : Image) : List ElfPhdr :=
  (elfPhdata file).filter fun phdr => phdr.pType = ptLoad

/-- The rest of the last page of the file's bytes, if there is a `.bss`. -/
def padBss (state : ElfState) (elfBss elfBrk : ℕ) : Except LoadFailure ElfState :=
  if elfBss ≠ elfBrk then padzero state elfBss else .ok state

/-- The end of `load_elf_binary`, with the `.bss` of the last segments and the
interpreter: the state and the entry point. -/
def finishElf (host : ElfHost) (file : Image) (interp : Option Image) (loop : ElfLoop) :
    Except LoadFailure (ElfState × ℕ) := do
  let elfBss := wordAdd loop.elfBss loop.loadBias
  let elfBrk := wordAdd loop.elfBrk loop.loadBias
  let mm ← setBrk loop.state.mm elfBss elfBrk
  let state ← padBss { loop.state with mm := mm } elfBss elfBrk
  match interp with
  | none =>
      let entry := wordAdd (elfhdr file).eEntry loop.loadBias
      if badAddr entry then .error (.status einval.word) else .ok (state, entry)
  | some interp => do
      let (state, loadAddr) ← loadElfInterp host state interp loop.loadBias
      let entry := if isErr loadAddr then loadAddr else wordAdd loadAddr (elfhdr interp).eEntry
      if badAddr entry then
        .error (.status (if isErr entry then entry else einval.word))
      else .ok (state, entry)

/-- The page at address zero, which some systems let a program read. -/
def mapPageZero (host : ElfHost) (state : ElfState) : ElfState :=
  let (after, error) := binfmtMmap host.toKernel state.toLoadState none 0 4096 0
  if isErr error then { state with toLoadState := after }
  else
    { toLoadState := after
      writable := fun address =>
        -- it can be executed, so it can be written
        if InRange 0 4096 address then true else state.writable address }

/-- `elf_set_personality`, with what `abi_personality` makes of the program's name and
the personality so far. -/
def elfPersonality (file : Image) (abi personality : ℕ) : ℕ :=
  let guess :=
    match le32 file 36 with
    | 0x314b4455 => 0x410000e
    | 0x34525653 => 0x4100001
    | 0x36383258 => 0x5000007
    | _ => 0x6000003
  if abi ≠ 0 ∧ abi ≠ personality then abi else guess

/-- `load_elf_binary`. -/
def loadElfBinary (host : ElfHost) (openExec : List UInt8 → Except LoadFailure Image)
    (abi personality : ℕ) (file : Image) : Except LoadFailure (ElfState × ℕ) := do
  checkElfhdr file
  let interp ← openInterpreter openExec file
  let loop ← (elfLoads file).foldlM (elfPhdr host file)
    ⟨⟨LoadState.initial, fun _ => false⟩, 0, 0, 0, false⟩
  let (state, entry) ← finishElf host file interp loop
  if elfPersonality file abi personality &&& 0x0100000 ≠ 0 then
    .ok (mapPageZero host state, entry)
  else .ok (state, entry)

end IbcsUs.Loaders
