import IbcsUs.Core.Runs
import IbcsUs.Memory.Word

/-!
# The allocator

`ibcs_malloc` and `ibcs_free`.  Every block starts with one word that holds the
address of the next block and, in its low bit, whether the block is busy.  The
last word obtained from the kernel is the header of an end marker that links
back to the first block.

Memory is a word at each address.  The scan merges free neighbours while it
runs and may not end; both its loops take fuel.
-/

namespace IbcsUs.Memory

/-- Words of memory by byte address. -/
abbrev Words := ℕ → ℕ

/-- The kernel's record of the break. -/
structure KernelBrk where
  startBrk : ℕ
  brk : ℕ
  deriving DecidableEq

/-- The `brk` system call: a request below the start of the heap changes
nothing, one at or below the break shrinks the heap, one above it is granted or
not.  The break is returned in any case. -/
def sysBrk (kernel : KernelBrk) (request : ℕ) (grants : Bool) : KernelBrk × ℕ :=
  let brk :=
    if request < kernel.startBrk then kernel.brk
    else if request ≤ kernel.brk then request
    else if grants then request
    else kernel.brk
  ({ kernel with brk := brk }, brk)

/-- The statics of the allocator, the memory and the kernel's break. -/
structure MallocState where
  mem : Words
  mallocFirst : ℕ
  mallocLast : ℕ
  mallocP : ℕ
  kernel : KernelBrk

/-- `IBCS_MALLOC_CLR_BUSY(p)`. -/
def mallocClrBusy (link : ℕ) : ℕ := link / 2 * 2

/-- `IBCS_MALLOC_SET_BUSY(p)`. -/
def mallocSetBusy (link : ℕ) : ℕ := link / 2 * 2 + 1

/-- `IBCS_MALLOC_IS_BUSY(p)`. -/
def mallocIsBusy (mem : Words) (p : ℕ) : Bool := mem p % 2 = 1

/-- The difference of two header pointers, a signed number of words, stored in a
`size_t`. -/
def headerDiff (left right : ℕ) : ℕ :=
  let bytes := wordSub left right
  if bytes < 2 ^ 31 then bytes / 4 else bytes / 4 + 3 * 2 ^ 30

/-- The request in words, header included. -/
def mallocWanted (wanted : ℕ) : ℕ := wordAdd wanted (4 - 1) / 4 + 1

/-- The inner loop of the scan: merge the free block `p` with the free blocks
that follow it. -/
def mallocCoalesce (p : ℕ) : ℕ → Words → Option Words
  | 0, _ => none
  | fuel + 1, mem =>
      if mallocIsBusy mem (mem p) then some mem
      else mallocCoalesce p fuel (Function.update mem p (mem (mem p)))

/-- The scan from block `p` on until it is back at `start`: the memory as the
scan leaves it and the block it found, if any. -/
def mallocScan (start wanted : ℕ) : ℕ → Words → ℕ → Option (Words × Option ℕ)
  | 0, _, _ => none
  | fuel + 1, mem, p =>
      let advance := fun mem : Words =>
        if mallocClrBusy (mem p) ≠ start then
          mallocScan start wanted fuel mem (mallocClrBusy (mem p))
        else some (mem, none)
      if mallocIsBusy mem p then advance mem
      else
        (mallocCoalesce p fuel mem).bind fun mem =>
          if wanted ≤ headerDiff (mem p) p then some (mem, some p)
          else advance mem

/-- The ends of a call of `ibcs_malloc`. -/
inductive MallocOutcome where
  /-- The call returns a block. -/
  | returned (state : MallocState) (blk : ℕ)
  /-- `"ibcs_malloc brk()"`. -/
  | fatalQuery (error : ℕ)
  /-- `"ibcs_malloc brk() for %d bytes failed"`. -/
  | fatalBrk (p bytes : ℕ)
  /-- `"ibcs_malloc call of brk() returned %d, expecting %d"`. -/
  | fatalShort (p got expected : ℕ)
  /-- The scan has not ended. -/
  | running

/-- Take the free block `p`, splitting it if it is too big. -/
def mallocTake (state : MallocState) (p wanted : ℕ) : MallocState :=
  let mem := state.mem
  let mem :=
    if wanted < headerDiff (mem p) p then
      let mem := Function.update mem (wordAdd p (4 * wanted)) (mem p)
      Function.update mem p (wordAdd p (4 * wanted))
    else mem
  { state with
    mem := Function.update mem p (mallocSetBusy (mem p))
    mallocP := mem p }

/-- Get a new block from the kernel, whose break is `p`. -/
def mallocGrow (state : MallocState) (p wanted : ℕ) (grants : Bool) :
    MallocOutcome :=
  if isErr p then .fatalQuery p
  else
    let p := if wordAdd state.mallocLast 4 = p then state.mallocLast else p
    let (kernel, n) := sysBrk state.kernel (wordAdd p (4 * (wanted + 1))) grants
    if isErr n then .fatalBrk p (wordAdd 0 (4 * (wanted + 1)))
    else
      let n := wordSub n 4
      if headerDiff n p < wanted then
        .fatalShort p (wordAdd 0 (4 * headerDiff n p)) (wordAdd 0 (4 * wanted))
      else
        let mem := Function.update state.mem state.mallocLast (mallocSetBusy n)
        let mem := Function.update mem p (mallocSetBusy n)
        let mem := Function.update mem n (mallocSetBusy state.mallocFirst)
        .returned { state with mem := mem, mallocLast := n, kernel := kernel }
          (wordAdd p 4)

/-- `ibcs_malloc`. -/
def ibcsMalloc (fuel : ℕ) (state : MallocState) (wanted : ℕ) (grants : Bool) :
    MallocOutcome :=
  let wanted := mallocWanted wanted
  if state.mallocP = 0 then
    let (kernel, p) := sysBrk state.kernel 0 grants
    mallocGrow
      { state with
        mallocFirst := p, mallocLast := p, mallocP := p, kernel := kernel }
      p wanted grants
  else
    match mallocScan state.mallocP wanted fuel state.mem state.mallocP with
    | none => .running
    | some (mem, some p) =>
        .returned (mallocTake { state with mem := mem } p wanted) (wordAdd p 4)
    | some (mem, none) =>
        let (kernel, p) := sysBrk state.kernel 0 grants
        mallocGrow { state with mem := mem, kernel := kernel } p wanted grants

/-- `ibcs_free`. -/
def ibcsFree (state : MallocState) (blk : ℕ) : MallocState :=
  let p := wordSub blk 4
  { state with
    mem := Function.update state.mem p (mallocClrBusy (state.mem p))
    mallocP := p }

/-- A process before its first allocation: the break is word aligned and not at
address zero. -/
structure FreshHeap (state : MallocState) : Prop where
  unused : state.mallocP = 0
  start_pos : 0 < state.kernel.startBrk
  start_le : state.kernel.startBrk ≤ state.kernel.brk
  brk_lt : state.kernel.brk < 2 ^ 32
  aligned : state.kernel.brk % 4 = 0

/-- The allocator together with the blocks its callers hold, each with the size
asked for, and the address ranges it got from the kernel. -/
structure HeapState where
  malloc : MallocState
  live : List (ℕ × ℕ)
  obtained : List (ℕ × ℕ)

/-- What happens to the heap. -/
inductive HeapAction where
  /-- A call of `ibcs_malloc`. -/
  | malloc (wanted : ℕ)
  /-- A call of `ibcs_free` on a block that is held. -/
  | free (blk : ℕ)
  /-- The holder of a block writes a word of it. -/
  | store (blk index value : ℕ)
  /-- Somebody else moves the break up to a word boundary. -/
  | moveBrk (brk : ℕ)

/-- The heap after an action, `none` when the call does not return or the action
is not possible. -/
def heapStep (fuel : ℕ) (state : HeapState) : HeapAction → Option HeapState
  | .malloc wanted =>
      match ibcsMalloc fuel state.malloc wanted true with
      | .returned malloc blk =>
          some
            { malloc := malloc
              live := (blk, wanted) :: state.live
              obtained :=
                (state.malloc.kernel.brk, malloc.kernel.brk) :: state.obtained }
      | _ => none
  | .free blk =>
      if blk ∈ state.live.map Prod.fst then
        some
          { state with
            malloc := ibcsFree state.malloc blk
            live := state.live.eraseP fun entry => entry.1 = blk }
      else none
  | .store blk index value =>
      if ∃ entry ∈ state.live, entry.1 = blk ∧ 4 * index < entry.2 then
        some
          { state with
            malloc :=
              { state.malloc with
                mem :=
                  Function.update state.malloc.mem (blk + 4 * index) value } }
      else none
  | .moveBrk brk =>
      if state.malloc.kernel.brk < brk ∧ brk % 4 = 0 ∧ brk < 2 ^ 32 then
        some
          { state with
            malloc :=
              { state.malloc with kernel := { state.malloc.kernel with brk } } }
      else none

/-- What an action that is possible does, where the kernel grants memory or does not. -/
inductive HeapStepped (fuel : ℕ) (grants : Bool) (state : HeapState) :
    HeapAction → HeapState → Prop
  | malloc {wanted blk : ℕ} {after : MallocState}
      (hreturned : ibcsMalloc fuel state.malloc wanted grants = .returned after blk) :
      HeapStepped fuel grants state (.malloc wanted)
        { malloc := after
          live := (blk, wanted) :: state.live
          obtained := (state.malloc.kernel.brk, after.kernel.brk) :: state.obtained }
  | free {blk : ℕ} (hblk : blk ∈ state.live.map Prod.fst) :
      HeapStepped fuel grants state (.free blk)
        { state with
          malloc := ibcsFree state.malloc blk
          live := state.live.eraseP fun entry => entry.1 = blk }
  | store {blk index value size : ℕ} (hmem : (blk, size) ∈ state.live)
      (hindex : 4 * index < size) :
      HeapStepped fuel grants state (.store blk index value)
        { state with
          malloc :=
            { state.malloc with
              mem := Function.update state.malloc.mem (blk + 4 * index) value } }
  | moveBrk {brk : ℕ} (hup : state.malloc.kernel.brk < brk) (haligned : brk % 4 = 0)
      (hword : brk < 2 ^ 32) :
      HeapStepped fuel grants state (.moveBrk brk)
        { state with
          malloc :=
            { state.malloc with kernel := { state.malloc.kernel with brk } } }

theorem heapStepped {fuel : ℕ} {state next : HeapState} {action : HeapAction}
    (hstep : heapStep fuel state action = some next) :
    HeapStepped fuel true state action next := by
  cases action with
  | malloc wanted =>
      simp only [heapStep] at hstep
      split at hstep
      · next after blk hreturned =>
        obtain rfl := Option.some.inj hstep
        exact .malloc hreturned
      · cases hstep
  | free blk =>
      simp only [heapStep] at hstep
      split at hstep
      · next hblk =>
        obtain rfl := Option.some.inj hstep
        exact .free hblk
      · cases hstep
  | store blk index value =>
      simp only [heapStep] at hstep
      split at hstep
      · next hentry =>
        obtain rfl := Option.some.inj hstep
        obtain ⟨⟨blk', size⟩, hmem, rfl, hindex⟩ := hentry
        exact .store hmem hindex
      · cases hstep
  | moveBrk brk =>
      simp only [heapStep] at hstep
      split at hstep
      · next hmove =>
        obtain rfl := Option.some.inj hstep
        exact .moveBrk hmove.1 hmove.2.1 hmove.2.2
      · cases hstep

/-- The heap of a process before its first allocation. -/
def freshHeap (malloc : MallocState) : HeapState := ⟨malloc, [], []⟩

/-- A process whose break is at 0x8050000. -/
def bareHeap : MallocState := ⟨fun _ => 0, 0, 0, 0, ⟨0x8050000, 0x8050000⟩⟩

theorem bareHeap_fresh : FreshHeap bareHeap := by
  constructor <;> decide

end IbcsUs.Memory
