import IbcsUs.Memory.MallocScan

/-!
# The heap in use

The invariant of the allocator: the headers form the chain, the roving pointer
is in it, and every block held is a busy block of it.  `MallocMeets` says which
requests keep it.  The code keeps the chain only while the break is where it
left it: when somebody else has moved the break, the new block is linked past
and not into the chain, because the old end marker is made to link to the new
one.  Two more conditions come from 32-bit arithmetic: a request must not wrap,
and the size of a free run of 2 GiB or more is taken for a negative number.
-/

namespace IbcsUs.Memory

open IbcsUs.Core IbcsUs.Runs

/-- A block of the chain: following the links from the first one leads to it. -/
def MallocState.Block (state : MallocState) : ℕ → Prop :=
  Relation.ReflTransGen (fun p q => nextOf state.mem p = q) state.mallocFirst

/-- The requests `ibcs_malloc` gets right.  The first one must not wrap.  Later
ones must not meet a free run whose size is taken for a negative number although
it is not larger than the request, and must either find a free run that is large
enough or find the break right behind the end marker without wrapping. -/
def MallocMeets (state : MallocState) (wanted : ℕ) : Prop :=
  if state.mallocP = 0 then
    state.kernel.brk + 4 * (mallocWanted wanted + 1) < 2 ^ 32
  else
    (∀ r e, FreeRun state.mem state.Block r e → 2 ^ 31 ≤ e - r →
      4 * mallocWanted wanted < e - r) ∧
    ((∃ r e, FreeRun state.mem state.Block r e ∧
        4 * mallocWanted wanted ≤ e - r) ∨
      state.kernel.brk = state.mallocLast + 4 ∧
        state.mallocLast + 4 * (mallocWanted wanted + 1) < 2 ^ 32)

/-! ## The invariant -/

/-- Every block held is a busy block of the chain, as large as was asked for
unless the size computation wrapped. -/
def LiveIn (mem : Words) (blocks : List ℕ) (last : ℕ) (live : List (ℕ × ℕ)) :
    Prop :=
  ∀ entry ∈ live, ∃ p ∈ blocks, entry.1 = p + 4 ∧ p ≠ last ∧
    mallocIsBusy mem p ∧ (entry.2 + 3 < 2 ^ 32 → entry.1 + entry.2 ≤ nextOf mem p)

/-- A heap in use. -/
structure HeapInv (state : HeapState) (blocks : List ℕ) : Prop where
  chained : Blocks state.malloc.mem state.malloc.mallocFirst
    state.malloc.mallocLast blocks
  roving : state.malloc.mallocP ∈ blocks
  start_pos : 0 < state.malloc.kernel.startBrk
  start_le : state.malloc.kernel.startBrk ≤ state.malloc.mallocFirst
  below : state.malloc.mallocLast + 4 ≤ state.malloc.kernel.brk
  brk_lt : state.malloc.kernel.brk < 2 ^ 32
  live : LiveIn state.malloc.mem blocks state.malloc.mallocLast state.live
  distinct : (state.live.map Prod.fst).Nodup
  obtained : ∀ byte, state.malloc.mallocFirst ≤ byte →
    byte < state.malloc.mallocLast + 4 →
    ∃ range ∈ state.obtained, range.1 ≤ byte ∧ byte < range.2

/-- A heap before its first allocation, or one in use. -/
def HeapReady (state : HeapState) : Prop :=
  FreshHeap state.malloc ∧ state.live = [] ∨ ∃ blocks, HeapInv state blocks

section Chain

variable {mem mem' : Words} {first last last' p : ℕ} {blocks blocks' : List ℕ}
variable {live : List (ℕ × ℕ)}

/-- The blocks of the chain are those the links lead to. -/
theorem Blocks.reachable_iff (hblocks : Blocks mem first last blocks) :
    Relation.ReflTransGen (fun p q => nextOf mem p = q) first p ↔
      p ∈ blocks := by
  constructor
  · intro hpath
    induction hpath with
    | refl => exact hblocks.first_mem
    | tail _ hstep ih => exact hstep ▸ hblocks.next_mem ih
  · intro hp
    induction p using Nat.strong_induction_on with
    | _ p ih =>
        obtain ⟨q, hq, rfl⟩ := hblocks.exists_prev hp
        by_cases hlast : q = last
        · rw [hlast, hblocks.next_last]
        · exact (ih q (hblocks.next_above hq hlast).2 hq).tail rfl

theorem LiveIn.transfer (hlive : LiveIn mem blocks last live)
    (hkeep : ∀ q ∈ blocks, q ≠ last → mallocIsBusy mem q →
      q ∈ blocks' ∧ q ≠ last' ∧ mem' q = mem q) :
    LiveIn mem' blocks' last' live := by
  intro entry hentry
  obtain ⟨q, hq, hblk, hlast, hbusy, hsize⟩ := hlive entry hentry
  obtain ⟨hq', hlast', hsame⟩ := hkeep q hq hlast hbusy
  refine ⟨q, hq', hblk, hlast', ?_, ?_⟩
  · simpa [mallocIsBusy, hsame] using hbusy
  · simpa [nextOf, hsame] using hsize

/-- Appending a block that ends in a new end marker. -/
theorem Blocks.grow {front : List ℕ} {n : ℕ}
    (hchain : Chain (nextOf mem) (front ++ [last]))
    (hhead : (front ++ [last]).head? = some first)
    (haligned : ∀ p ∈ front ++ [last], p % 4 = 0) (hn : n % 4 = 0)
    (hlt : last < n) :
    Blocks (Function.update (Function.update mem last (mallocSetBusy n)) n
      (mallocSetBusy first)) first n (front ++ [last, n]) := by
  have hclear := mallocClrBusy_setBusy_of_aligned hn
  have hsnoc := hchain.snoc hlt
  have hnot : ∀ q ∈ front ++ [last], q ≠ n := by
    intro q hq
    rcases List.mem_append.mp hq with hmem | hmem
    · exact ((hchain.lt_of_front hmem).trans hlt).ne
    · exact ((List.mem_singleton.mp hmem).trans_lt hlt).ne
  refine
    { chain := ?_
      head := by
        rw [← hhead]
        cases front <;> rfl
      getLast := by simp
      closes := by simp
      aligned := ?_ }
  · rw [nextOf_update, nextOf_update, hclear]
    rw [List.append_cons] at hsnoc ⊢
    refine hsnoc.congr_front fun q hq => ?_
    rw [Function.update_of_ne (hnot q hq)]
  · intro q hq
    rw [List.append_cons] at hq
    rcases List.mem_append.mp hq with hmem | hmem
    · exact haligned q hmem
    · exact (List.mem_singleton.mp hmem) ▸ hn

/-- A free block that links to a busy one stands right before it. -/
theorem Blocks.split_at (hblocks : Blocks mem first last blocks)
    (hp : p ∈ blocks) (hne : p ≠ last) :
    ∃ front back, blocks = front ++ p :: nextOf mem p :: back := by
  obtain ⟨front, back, rfl⟩ := List.append_of_mem hp
  rcases back with _ | ⟨second, back⟩
  · have hlast := hblocks.getLast
    simp only [List.getLast?_append, List.getLast?_singleton, Option.some_or,
      Option.some.injEq] at hlast
    exact absurd hlast hne
  · obtain ⟨-, hback⟩ := Chain.append_cons_iff.mp hblocks.chain
    obtain ⟨⟨hnext, -⟩, -⟩ := Chain.cons_cons_iff.mp hback
    exact ⟨front, back, by rw [hnext]⟩

/-- Splitting a free block in two and making the first part busy. -/
theorem Blocks.splitBusy {s : ℕ} (hblocks : Blocks mem first last blocks)
    (hp : p ∈ blocks) (hfree : ¬ mallocIsBusy mem p) (hs : s % 4 = 0)
    (hlow : p < s) (hhigh : s < mem p) :
    ∃ blocks', Blocks (Function.update (Function.update mem s (mem p)) p
        (mallocSetBusy s)) first last blocks' ∧
      s ∈ blocks' ∧ s ∉ blocks ∧ ∀ q ∈ blocks, q ∈ blocks' := by
  have hnext := nextOf_of_free hfree
  have hlast := hblocks.ne_last_of_free hfree
  have hmem := (hblocks.next_above hp hlast).1
  obtain ⟨front, back, rfl⟩ := hblocks.split_at hp hlast
  rw [hnext] at hblocks hmem hp
  have hinsert := hblocks.chain.insert hlow hhigh
  -- the new header is none of the old ones
  have hnot : s ∉ front ++ p :: mem p :: back := by
    intro hs'
    have hle := hblocks.chain.next_le hp hs' hlow
    rw [hnext] at hle
    exact absurd hhigh (not_lt.mpr hle)
  refine ⟨front ++ p :: s :: mem p :: back, ?_, by simp, by rwa [hnext], ?_⟩
  · refine
      { chain := ?_
        head := ?_
        getLast := ?_
        closes := ?_
        aligned := ?_ }
    · rw [nextOf_update, nextOf_update,
        mallocClrBusy_setBusy_of_aligned hs,
        mallocClrBusy_of_aligned (hblocks.aligned _ hmem)]
      exact hinsert
    · rw [← hblocks.head]
      cases front <;> rfl
    · rw [← hblocks.getLast]
      simp [List.getLast?_append, List.getLast?_cons_cons]
    · have hsl : last ≠ s := by
        rintro rfl
        exact hnot hblocks.last_mem
      rw [Function.update_of_ne (Ne.symm hlast), Function.update_of_ne hsl]
      exact hblocks.closes
    · intro q hq
      by_cases hqs : q = s
      · exact hqs ▸ hs
      · refine hblocks.aligned q ?_
        simp only [List.mem_append, List.mem_cons] at hq ⊢
        tauto
  · intro q hq
    rw [hnext] at hq
    simp only [List.mem_append, List.mem_cons] at hq ⊢
    tauto

/-- Taking a free block whose run ends where it links to. -/
theorem Blocks.take (state : MallocState) {r wanted : ℕ}
    (hblocks : Blocks state.mem first last blocks)
    (hrun : FreeRun state.mem (· ∈ blocks) r (state.mem r))
    (hpos : 0 < wanted) (hlast : last < 2 ^ 32)
    (hfits : wanted ≤ headerDiff (state.mem r) r)
    (hsize : 2 ^ 31 ≤ state.mem r - r → 4 * wanted < state.mem r - r)
    (hword : wanted ≤ 2 ^ 30) :
    ∃ blocks', Blocks (mallocTake state r wanted).mem first last blocks' ∧
      (mallocTake state r wanted).mallocP ∈ blocks' ∧
      (∀ q ∈ blocks, q ∈ blocks') ∧
      mallocIsBusy (mallocTake state r wanted).mem r ∧
      r + 4 * wanted ≤ nextOf (mallocTake state r wanted).mem r ∧
      ∀ q ∈ blocks, q ≠ r → (mallocTake state r wanted).mem q = state.mem q := by
  have hlt := hrun.lt
  have hend : state.mem r < 2 ^ 32 :=
    (hblocks.le_last hrun.end_mem).trans_lt hlast
  have hr := hblocks.aligned r hrun.start_mem
  have he := hblocks.aligned _ hrun.end_mem
  have hroom : 4 * wanted ≤ state.mem r - r := by
    have hiff := (wanted_le_headerDiff_iff hlt hend hword hr he).mp hfits
    omega
  have hsplit := wanted_lt_headerDiff_iff hlt hend hword hr he
  have hadd : 4 * wanted < state.mem r - r →
      wordAdd r (4 * wanted) = r + 4 * wanted := by
    intro hsmall
    simp only [wordAdd]
    omega
  by_cases hexact : 4 * wanted < state.mem r - r
  -- a part of the run is left over
  · obtain ⟨blocks', hblocks', hs, hnot, hsub⟩ :=
      hblocks.splitBusy hrun.start_mem hrun.start_free
        (show (r + 4 * wanted) % 4 = 0 by omega) (by omega) (by omega)
    simp only [mallocTake, if_pos (hsplit.mpr (.inl hexact)), hadd hexact,
      Function.update_self, Function.update_idem]
    refine ⟨blocks', hblocks', hs, hsub, ?_, ?_, ?_⟩
    · rw [mallocIsBusy_iff, Function.update_self]
      exact mallocSetBusy_mod _
    · rw [nextOf_update, Function.update_self,
        mallocClrBusy_setBusy_of_aligned (by omega)]
    · intro q hq hne
      rw [Function.update_of_ne hne, Function.update_of_ne]
      rintro rfl
      exact hnot hq
  -- the run is used up
  · have hsame : ¬ wanted < headerDiff (state.mem r) r := by
      rw [hsplit]
      omega
    have hlink : mallocClrBusy (mallocSetBusy (state.mem r)) =
        nextOf state.mem r := by
      rw [nextOf_of_free hrun.start_free]
      exact mallocClrBusy_setBusy_of_aligned he
    simp only [mallocTake, if_neg hsame]
    refine ⟨blocks, hblocks.update_busy
      (hblocks.ne_last_of_free hrun.start_free) hlink, hrun.end_mem,
      fun q hq => hq, ?_, ?_, ?_⟩
    · rw [mallocIsBusy_iff, Function.update_self]
      exact mallocSetBusy_mod _
    · rw [nextOf_update, Function.update_self, hlink,
        nextOf_of_free hrun.start_free]
      omega
    · intro q _ hne
      exact Function.update_of_ne hne _ _

end Chain

/-! ## Growing the heap -/

theorem sysBrk_query {kernel : KernelBrk} (hpos : 0 < kernel.startBrk)
    (grants : Bool) : sysBrk kernel 0 grants = (kernel, kernel.brk) := by
  simp [sysBrk, hpos]

theorem sysBrk_above {kernel : KernelBrk} {request : ℕ}
    (hstart : kernel.startBrk ≤ kernel.brk) (habove : kernel.brk < request) :
    sysBrk kernel request true = ({ kernel with brk := request }, request) := by
  have hlow : ¬ request < kernel.startBrk := by omega
  have hhigh : ¬ request ≤ kernel.brk := by omega
  simp [sysBrk, hlow, hhigh]

/-- A heap grown at its end marker, or at the break when it is new: the block
starts there and a new end marker follows it. -/
theorem mallocGrow_returned {state after : MallocState} {wanted blk : ℕ}
    (hbrk : state.kernel.brk = state.mallocLast ∨
      state.kernel.brk = state.mallocLast + 4)
    (hstart : state.kernel.startBrk ≤ state.kernel.brk) (hpos : 0 < wanted)
    (hroom : state.mallocLast + 4 * (wanted + 1) < 2 ^ 32)
    (hgrow : mallocGrow state state.kernel.brk wanted true =
      .returned after blk) :
    blk = state.mallocLast + 4 ∧
      after =
        { state with
          mem := Function.update
            (Function.update state.mem state.mallocLast
              (mallocSetBusy (state.mallocLast + 4 * wanted)))
            (state.mallocLast + 4 * wanted) (mallocSetBusy state.mallocFirst)
          mallocLast := state.mallocLast + 4 * wanted
          kernel :=
            { state.kernel with brk := state.mallocLast + 4 * (wanted + 1) } } := by
  have hblk : wordAdd state.mallocLast 4 = state.mallocLast + 4 := by
    simp only [wordAdd]
    omega
  have hp : (if state.mallocLast + 4 = state.kernel.brk then state.mallocLast
      else state.kernel.brk) = state.mallocLast := by
    split <;> omega
  have hrequest : wordAdd state.mallocLast (4 * (wanted + 1)) =
      state.mallocLast + 4 * (wanted + 1) := by
    simp only [wordAdd]
    omega
  have hmarker : wordSub (state.mallocLast + 4 * (wanted + 1)) 4 =
      state.mallocLast + 4 * wanted := by
    simp only [wordSub]
    omega
  have hgranted := sysBrk_above hstart
    (show state.kernel.brk < state.mallocLast + 4 * (wanted + 1) by omega)
  by_cases hquery : isErr state.kernel.brk
  · simp [mallocGrow, hquery] at hgrow
  simp only [mallocGrow, if_neg hquery, hblk, hp, hrequest, hgranted, hmarker]
    at hgrow
  split_ifs at hgrow
  obtain ⟨rfl, rfl⟩ := MallocOutcome.returned.inj hgrow
  exact ⟨rfl, by rw [Function.update_idem]⟩

theorem mallocWanted_pos (wanted : ℕ) : 0 < mallocWanted wanted :=
  Nat.succ_pos _

/-- A block of the wanted number of words has room for the bytes asked for. -/
theorem mallocWanted_room {wanted : ℕ} (hsmall : wanted + 3 < 2 ^ 32) :
    wanted + 4 ≤ 4 * mallocWanted wanted := by
  simp only [mallocWanted, wordAdd]
  omega

/-- What growing the heap leaves in the header of the new block. -/
theorem header_of_grow (mem : Words) (first : ℕ) {last marker : ℕ}
    (haligned : marker % 4 = 0) (hlt : last < marker) :
    mallocIsBusy (Function.update
        (Function.update mem last (mallocSetBusy marker)) marker
        (mallocSetBusy first)) last ∧
      nextOf (Function.update
        (Function.update mem last (mallocSetBusy marker)) marker
        (mallocSetBusy first)) last = marker := by
  constructor
  · rw [mallocIsBusy_iff, Function.update_of_ne hlt.ne, Function.update_self]
    exact mallocSetBusy_mod _
  · rw [nextOf_update, nextOf_update, Function.update_of_ne hlt.ne,
      Function.update_self, mallocClrBusy_setBusy_of_aligned haligned]

/-- The end marker becomes the new block's header, which is live. -/
theorem liveIn_grow {mem : Words} {first last wanted : ℕ} {front : List ℕ}
    {live : List (ℕ × ℕ)} (hlast : last % 4 = 0) (hbelow : ∀ p ∈ front, p < last)
    (hlive : LiveIn mem (front ++ [last]) last live) :
    LiveIn (Function.update
        (Function.update mem last (mallocSetBusy (last + 4 * mallocWanted wanted)))
        (last + 4 * mallocWanted wanted) (mallocSetBusy first))
      (front ++ [last, last + 4 * mallocWanted wanted])
      (last + 4 * mallocWanted wanted) ((last + 4, wanted) :: live) := by
  have hpositive := mallocWanted_pos wanted
  obtain ⟨hbusy, hnext⟩ := header_of_grow mem first
    (show (last + 4 * mallocWanted wanted) % 4 = 0 by omega)
    (show last < last + 4 * mallocWanted wanted by omega)
  intro entry hentry
  rcases List.mem_cons.mp hentry with rfl | hold
  · refine ⟨last, by simp, rfl, by omega, hbusy, fun hsmall => ?_⟩
    have hbytes : wanted + 4 ≤ 4 * mallocWanted wanted := mallocWanted_room hsmall
    rw [hnext]
    dsimp only
    omega
  · refine hlive.transfer ?_ entry hold
    intro q hq hne _
    have hlt : q < last := by
      rcases List.mem_append.mp hq with hmem | hmem
      · exact hbelow q hmem
      · exact absurd (List.mem_singleton.mp hmem) hne
    refine ⟨?_, by omega, ?_⟩
    · rw [List.append_cons]
      exact List.mem_append_left _ hq
    · rw [Function.update_of_ne (by omega), Function.update_of_ne hne]

/-- No live block starts behind the end marker. -/
theorem LiveIn.notMem_last {mem : Words} {blocks : List ℕ} {last : ℕ}
    {live : List (ℕ × ℕ)} (hlive : LiveIn mem blocks last live) :
    last + 4 ∉ live.map Prod.fst := by
  intro hmem
  obtain ⟨entry, hentry, hsame⟩ := List.mem_map.mp hmem
  obtain ⟨q, hq, hblk, hne, -⟩ := hlive entry hentry
  exact hne (by omega)

/-- The new block of a grown heap is held, and the others as before. -/
theorem heapInv_grow (state : HeapState) (front : List ℕ) {after : MallocState}
    {wanted blk : ℕ}
    (hchain : Chain (nextOf state.malloc.mem)
      (front ++ [state.malloc.mallocLast]))
    (hhead : (front ++ [state.malloc.mallocLast]).head? =
      some state.malloc.mallocFirst)
    (haligned : ∀ p ∈ front ++ [state.malloc.mallocLast], p % 4 = 0)
    (hroving : state.malloc.mallocP ∈ front ++ [state.malloc.mallocLast])
    (hpos : 0 < state.malloc.kernel.startBrk)
    (hstart : state.malloc.kernel.startBrk ≤ state.malloc.mallocFirst)
    (hbrk : state.malloc.kernel.brk = state.malloc.mallocLast ∨
      state.malloc.kernel.brk = state.malloc.mallocLast + 4)
    (hroom : state.malloc.mallocLast + 4 * (mallocWanted wanted + 1) < 2 ^ 32)
    (hlive : LiveIn state.malloc.mem (front ++ [state.malloc.mallocLast])
      state.malloc.mallocLast state.live)
    (hdistinct : (state.live.map Prod.fst).Nodup)
    (hobtained : ∀ byte, state.malloc.mallocFirst ≤ byte →
      byte < state.malloc.kernel.brk →
      ∃ range ∈ state.obtained, range.1 ≤ byte ∧ byte < range.2)
    (hgrow : mallocGrow state.malloc state.malloc.kernel.brk
      (mallocWanted wanted) true = .returned after blk) :
    ∃ blocks, HeapInv
      { malloc := after
        live := (blk, wanted) :: state.live
        obtained := (state.malloc.kernel.brk, after.kernel.brk) ::
          state.obtained } blocks := by
  have hbrk_ge : state.malloc.mallocFirst ≤ state.malloc.mallocLast := by
    rcases front with _ | ⟨first, front⟩
    · exact (Option.some.inj hhead).ge
    · obtain rfl : first = state.malloc.mallocFirst := by simpa using hhead
      exact (hchain.lt_of_front (by simp)).le
  obtain ⟨rfl, rfl⟩ := mallocGrow_returned hbrk (by omega)
    (mallocWanted_pos wanted) hroom hgrow
  have hpositive := mallocWanted_pos wanted
  have hlast := haligned state.malloc.mallocLast (by simp)
  have hblocks := Blocks.grow hchain hhead haligned
    (show (state.malloc.mallocLast + 4 * mallocWanted wanted) % 4 = 0 by omega)
    (by omega)
  refine ⟨front ++ [state.malloc.mallocLast,
      state.malloc.mallocLast + 4 * mallocWanted wanted],
    { chained := hblocks
      roving := ?_
      start_pos := hpos
      start_le := hstart
      below := by simp only; omega
      brk_lt := hroom
      live := liveIn_grow hlast (fun p hp => hchain.lt_of_front hp) hlive
      distinct := ?_
      obtained := ?_ }⟩
  · rw [List.append_cons]
    exact List.mem_append_left _ hroving
  · rw [List.map_cons, List.nodup_cons]
    exact ⟨hlive.notMem_last, hdistinct⟩
  · intro byte hlow hhigh
    simp only at hlow hhigh ⊢
    by_cases hold : byte < state.malloc.kernel.brk
    · obtain ⟨range, hrange, hbounds⟩ := hobtained byte hlow hold
      exact ⟨range, List.mem_cons_of_mem _ hrange, hbounds⟩
    · refine ⟨_, List.mem_cons_self, by simp only; omega, by simp only; omega⟩

/-! ## One action -/

section Step

variable {state : HeapState} {blocks : List ℕ}

theorem HeapInv.block_eq (hinv : HeapInv state blocks) :
    state.malloc.Block = (· ∈ blocks) :=
  funext fun _ => propext hinv.chained.reachable_iff

theorem HeapInv.block_pos (hinv : HeapInv state blocks) {p : ℕ}
    (hp : p ∈ blocks) : 0 < p :=
  (hinv.start_pos.trans_le hinv.start_le).trans_le (hinv.chained.first_le hp)

theorem HeapInv.mallocP_ne (hinv : HeapInv state blocks) :
    state.malloc.mallocP ≠ 0 :=
  (hinv.block_pos hinv.roving).ne'

theorem HeapInv.last_lt (hinv : HeapInv state blocks) :
    state.malloc.mallocLast + 4 < 2 ^ 32 :=
  hinv.below.trans_lt hinv.brk_lt

/-- The scan comes back only when no free run has room for the request. -/
theorem HeapInv.no_room (hinv : HeapInv state blocks) {fuel wanted : ℕ}
    {mem : Words} (hwanted : wanted ≤ 2 ^ 30)
    (hscan : mallocScan state.malloc.mallocP wanted fuel state.malloc.mem
      state.malloc.mallocP = some (mem, none)) {r e : ℕ}
    (hrun : FreeRun state.malloc.mem (· ∈ blocks) r e) :
    ¬ wanted ≤ headerDiff e r := by
  intro hfits
  have hlast := hinv.last_lt
  have hword : ∀ q ∈ blocks, q < 2 ^ 32 := by
    intro q hq
    have hle := hinv.chained.le_last hq
    omega
  obtain ⟨s, hle, hrun', hafter⟩ := hrun.exists_afterBusy hinv.chained
  refine hinv.chained.scan_none (by omega) (hword _ hinv.roving) hinv.roving
    hscan hrun' hafter ?_ ?_
  · rw [distance_self (hword _ hinv.roving)]
    exact Nat.zero_le _
  · exact wanted_le_headerDiff_mono hle hrun.lt (hword e hrun.end_mem) hwanted
      (hinv.chained.aligned s hrun'.start_mem)
      (hinv.chained.aligned r hrun.start_mem)
      (hinv.chained.aligned e hrun.end_mem) hfits

/-- A block found by the scan is taken. -/
theorem HeapInv.take (hinv : HeapInv state blocks) {wanted r fuel : ℕ}
    {mem : Words} (hmeets : MallocMeets state.malloc wanted)
    (hscan : mallocScan state.malloc.mallocP (mallocWanted wanted) fuel
      state.malloc.mem state.malloc.mallocP = some (mem, some r)) :
    ∃ blocks', HeapInv
      { malloc :=
          mallocTake { state.malloc with mem := mem } r (mallocWanted wanted)
        live := (wordAdd r 4, wanted) :: state.live
        obtained := (state.malloc.kernel.brk, state.malloc.kernel.brk) ::
          state.obtained } blocks' := by
  rw [MallocMeets, if_neg hinv.mallocP_ne, hinv.block_eq] at hmeets
  have hlast := hinv.last_lt
  obtain ⟨blocks₁, hblocks₁, hmerged, hfound, -⟩ :=
    hinv.chained.scan hinv.roving hscan
  obtain ⟨hr, hfits, hrun⟩ := hfound r rfl
  have hrle := hblocks₁.le_last hr
  have hblk : wordAdd r 4 = r + 4 := by
    simp only [wordAdd]
    omega
  obtain ⟨blocks', hblocks', hroving, hsub, hbusy, hsize, hcells⟩ :=
    Blocks.take { state.malloc with mem := mem } hblocks₁ hrun
      (mallocWanted_pos wanted) (by omega) hfits.2
      (hmeets.1 r (mem r) (hrun.before_merge hmerged)) (mallocWanted_le wanted)
  have hnot : r ≠ state.malloc.mallocLast := by
    intro heq
    exact hrun.start_free (heq ▸ hblocks₁.last_busy)
  -- the blocks held before are busy, so neither the scan nor the split moves them
  have hold : LiveIn (mallocTake { state.malloc with mem := mem } r
      (mallocWanted wanted)).mem blocks' state.malloc.mallocLast state.live := by
    refine hinv.live.transfer fun q hq hne hqbusy => ?_
    obtain ⟨hq₁, hsame⟩ := hmerged.busy q hq hqbusy
    have hqr : q ≠ r := by
      rintro rfl
      exact hrun.start_free (hmerged.busy' hq hqbusy)
    exact ⟨hsub q hq₁, hne, (hcells q hq₁ hqr).trans hsame⟩
  refine ⟨blocks',
    { chained := hblocks'
      roving := hroving
      start_pos := hinv.start_pos
      start_le := hinv.start_le
      below := hinv.below
      brk_lt := hinv.brk_lt
      live := ?_
      distinct := ?_
      obtained := ?_ }⟩
  · intro entry hentry
    rcases List.mem_cons.mp hentry with rfl | hmem
    · refine ⟨r, hsub r hr, hblk, hnot, hbusy, fun hsmall => ?_⟩
      have hbytes : wanted + 4 ≤ 4 * mallocWanted wanted :=
        mallocWanted_room hsmall
      refine le_trans ?_ hsize
      simp only [hblk]
      omega
    · exact hold entry hmem
  · rw [List.map_cons, List.nodup_cons]
    refine ⟨fun hmem => ?_, hinv.distinct⟩
    obtain ⟨entry, hentry, hsame⟩ := List.mem_map.mp hmem
    obtain ⟨q, hq, hqblk, -, hqbusy, -⟩ := hinv.live entry hentry
    obtain rfl : q = r := by
      simp only [hblk] at hsame
      omega
    exact hrun.start_free (hmerged.busy' hq hqbusy)
  · intro byte hlow hhigh
    obtain ⟨range, hrange, hbounds⟩ := hinv.obtained byte hlow hhigh
    exact ⟨range, List.mem_cons_of_mem _ hrange, hbounds⟩

/-- When nothing was large enough, the break is where it was left. -/
theorem HeapInv.grow_room (hinv : HeapInv state blocks) {wanted fuel : ℕ}
    {mem : Words} (hmeets : MallocMeets state.malloc wanted)
    (hscan : mallocScan state.malloc.mallocP (mallocWanted wanted) fuel
      state.malloc.mem state.malloc.mallocP = some (mem, none)) :
    state.malloc.kernel.brk = state.malloc.mallocLast + 4 ∧
      state.malloc.mallocLast + 4 * (mallocWanted wanted + 1) < 2 ^ 32 := by
  rw [MallocMeets, if_neg hinv.mallocP_ne, hinv.block_eq] at hmeets
  refine hmeets.2.resolve_left ?_
  rintro ⟨r, e, hrun, hlarge⟩
  have hend := hinv.chained.le_last hrun.end_mem
  have hlast := hinv.last_lt
  refine hinv.no_room (mallocWanted_le wanted) hscan hrun ?_
  rw [wanted_le_headerDiff_iff hrun.lt (by omega) (mallocWanted_le wanted)
    (hinv.chained.aligned r hrun.start_mem)
    (hinv.chained.aligned e hrun.end_mem)]
  exact .inl hlarge

/-- A request on a heap in use. -/
theorem HeapInv.malloc (hinv : HeapInv state blocks) {wanted fuel blk : ℕ}
    {after : MallocState} (hmeets : MallocMeets state.malloc wanted)
    (hreturned : ibcsMalloc fuel state.malloc wanted true =
      .returned after blk) :
    ∃ blocks', HeapInv
      { malloc := after
        live := (blk, wanted) :: state.live
        obtained := (state.malloc.kernel.brk, after.kernel.brk) ::
          state.obtained } blocks' := by
  simp only [ibcsMalloc, if_neg hinv.mallocP_ne] at hreturned
  split at hreturned
  · simp at hreturned
  · next mem r hscan =>
    obtain ⟨rfl, rfl⟩ := MallocOutcome.returned.inj hreturned
    exact hinv.take hmeets hscan
  · next mem hscan =>
    rw [sysBrk_query hinv.start_pos] at hreturned
    obtain ⟨blocks₁, hblocks₁, hmerged, -, hstart⟩ :=
      hinv.chained.scan hinv.roving hscan
    obtain ⟨hbrk, hroom⟩ := hinv.grow_room hmeets hscan
    obtain ⟨front, rfl⟩ := List.getLast?_eq_some_iff.mp hblocks₁.getLast
    refine heapInv_grow
      { state with malloc := { state.malloc with mem := mem } } front
      hblocks₁.chain hblocks₁.head hblocks₁.aligned (hstart rfl) hinv.start_pos
      hinv.start_le (.inr hbrk) hroom ?_ hinv.distinct ?_ hreturned
    · refine hinv.live.transfer fun q hq hne hqbusy => ?_
      obtain ⟨hq₁, hsame⟩ := hmerged.busy q hq hqbusy
      exact ⟨hq₁, hne, hsame⟩
    · intro byte hlow hhigh
      exact hinv.obtained byte hlow (hbrk ▸ hhigh)

/-- The first request. -/
theorem FreshHeap.malloc (hfresh : FreshHeap state.malloc) (hlive : state.live = [])
    {wanted fuel blk : ℕ} {after : MallocState}
    (hmeets : MallocMeets state.malloc wanted)
    (hreturned : ibcsMalloc fuel state.malloc wanted true =
      .returned after blk) :
    ∃ blocks', HeapInv
      { malloc := after
        live := (blk, wanted) :: state.live
        obtained := (state.malloc.kernel.brk, after.kernel.brk) ::
          state.obtained } blocks' := by
  simp only [ibcsMalloc, if_pos hfresh.unused] at hreturned
  rw [sysBrk_query hfresh.start_pos] at hreturned
  rw [MallocMeets, if_pos hfresh.unused] at hmeets
  refine heapInv_grow
    { state with malloc :=
      { state.malloc with
        mallocFirst := state.malloc.kernel.brk
        mallocLast := state.malloc.kernel.brk
        mallocP := state.malloc.kernel.brk } } []
    (List.isChain_singleton _) rfl ?_ (by simp) hfresh.start_pos hfresh.start_le
    (.inl rfl) hmeets ?_ ?_ ?_ hreturned
  · intro p hp
    obtain rfl : p = state.malloc.kernel.brk := by simpa using hp
    exact hfresh.aligned
  · intro entry hentry
    simp [hlive] at hentry
  · simp [hlive]
  · intro byte hlow hhigh
    exact absurd hhigh (not_lt.mpr hlow)

/-- The holder of a block gives it back. -/
theorem HeapInv.free (hinv : HeapInv state blocks) {blk : ℕ}
    (hblk : blk ∈ state.live.map Prod.fst) :
    HeapInv
      { state with
        malloc := ibcsFree state.malloc blk
        live := state.live.eraseP fun entry => entry.1 = blk } blocks := by
  obtain ⟨entry, hentry, rfl⟩ := List.mem_map.mp hblk
  obtain ⟨p, hp, hp4, hne, -⟩ := hinv.live entry hentry
  have hple := hinv.chained.le_last hp
  have hlast := hinv.last_lt
  have hheader : wordSub entry.1 4 = p := by
    simp only [wordSub]
    omega
  have hsub : (state.live.eraseP fun other => other.1 = entry.1).Sublist
      state.live := List.eraseP_sublist
  -- no other block held starts at the same address
  have hgone : ∀ other ∈ state.live.eraseP fun other => other.1 = entry.1,
      other.1 ≠ entry.1 := by
    obtain ⟨found, before, behind, -, hfound, hsplit, herase⟩ :=
      List.exists_of_eraseP (p := fun other => decide (other.1 = entry.1)) hentry
        (by simp)
    have hnodup := hinv.distinct
    rw [hsplit, List.map_append, List.map_cons, List.nodup_middle,
      List.nodup_cons, ← List.map_append] at hnodup
    intro other hother hsame
    rw [herase] at hother
    refine hnodup.1 ?_
    rw [of_decide_eq_true hfound, ← hsame]
    exact List.mem_map_of_mem hother
  simp only [ibcsFree, hheader]
  exact
    { chained := hinv.chained.update_busy hne (by simp [mallocClrBusy, nextOf])
      roving := hp
      start_pos := hinv.start_pos
      start_le := hinv.start_le
      below := hinv.below
      brk_lt := hinv.brk_lt
      live := by
        intro other hother
        obtain ⟨q, hq, hq4, hqne, hqbusy, hqsize⟩ :=
          hinv.live other (hsub.mem hother)
        have hqp : q ≠ p := by
          rintro rfl
          exact hgone other hother (hq4.trans hp4.symm)
        refine ⟨q, hq, hq4, hqne, ?_, ?_⟩
        · simpa [mallocIsBusy, hqp] using hqbusy
        · simpa [nextOf, hqp] using hqsize
      distinct := hinv.distinct.sublist (hsub.map Prod.fst)
      obtained := hinv.obtained }

/-- The holder of a block writes into it. -/
theorem HeapInv.store (hinv : HeapInv state blocks) {blk index value size : ℕ}
    (hentry : (blk, size) ∈ state.live) (hindex : 4 * index < size)
    (hsmall : size + 3 < 2 ^ 32) :
    HeapInv
      { state with
        malloc :=
          { state.malloc with
            mem := Function.update state.malloc.mem (blk + 4 * index) value } }
      blocks := by
  obtain ⟨p, hp, hp4, hne, -, hsize⟩ := hinv.live _ hentry
  simp only at hp4 hsize
  -- the word written lies between two headers
  have hnot : blk + 4 * index ∉ blocks := by
    intro hmem
    have hle := hinv.chained.chain.next_le hp hmem (by omega)
    have hroom := hsize hsmall
    omega
  exact
    { chained := hinv.chained.update_of_notMem hnot value
      roving := hinv.roving
      start_pos := hinv.start_pos
      start_le := hinv.start_le
      below := hinv.below
      brk_lt := hinv.brk_lt
      live := by
        refine hinv.live.transfer fun q hq hqne _ => ⟨hq, hqne, ?_⟩
        refine Function.update_of_ne ?_ _ _
        rintro rfl
        exact hnot hq
      distinct := hinv.distinct
      obtained := hinv.obtained }

theorem FreshHeap.moveBrk {malloc : MallocState} (hfresh : FreshHeap malloc)
    {brk : ℕ} (hup : malloc.kernel.brk < brk) (haligned : brk % 4 = 0)
    (hword : brk < 2 ^ 32) :
    FreshHeap { malloc with kernel := { malloc.kernel with brk } } :=
  { unused := hfresh.unused
    start_pos := hfresh.start_pos
    start_le := hfresh.start_le.trans hup.le
    brk_lt := hword
    aligned := haligned }

/-- Somebody else moves the break. -/
theorem HeapInv.moveBrk (hinv : HeapInv state blocks) {brk : ℕ}
    (hup : state.malloc.kernel.brk < brk) (hword : brk < 2 ^ 32) :
    HeapInv
      { state with
        malloc :=
          { state.malloc with kernel := { state.malloc.kernel with brk } } }
      blocks :=
  { chained := hinv.chained
    roving := hinv.roving
    start_pos := hinv.start_pos
    start_le := hinv.start_le
    below := hinv.below.trans hup.le
    brk_lt := hword
    live := hinv.live
    distinct := hinv.distinct
    obtained := hinv.obtained }

end Step

/-! ## Whole runs -/

/-- What every action of a run has to meet: the requests are such that
`ibcs_malloc` gets them right, and a block whose size computation wrapped is not
written to. -/
def HeapActionMeets (state : HeapState) : HeapAction → Prop
  | .malloc wanted => MallocMeets state.malloc wanted
  | .free _ => True
  | .store blk _ _ => ∀ size, (blk, size) ∈ state.live → size + 3 < 2 ^ 32
  | .moveBrk _ => True

theorem heapReady_fresh {malloc : MallocState} (hfresh : FreshHeap malloc) :
    HeapReady (freshHeap malloc) := .inl ⟨hfresh, rfl⟩

theorem heapReady_step {fuel : ℕ} {state next : HeapState} {action : HeapAction}
    (hready : HeapReady state) (hmeets : HeapActionMeets state action)
    (hstep : heapStep fuel state action = some next) : HeapReady next := by
  cases heapStepped hstep with
  | malloc hreturned =>
      rcases hready with ⟨hfresh, hlive⟩ | ⟨blocks, hinv⟩
      · exact .inr (hfresh.malloc hlive hmeets hreturned)
      · exact .inr (hinv.malloc hmeets hreturned)
  | free hblk =>
      rcases hready with ⟨-, hlive⟩ | ⟨blocks, hinv⟩
      · simp [hlive] at hblk
      · exact .inr ⟨blocks, hinv.free hblk⟩
  | store hmem hindex =>
      rcases hready with ⟨-, hlive⟩ | ⟨blocks, hinv⟩
      · simp [hlive] at hmem
      · exact .inr ⟨blocks, hinv.store hmem hindex (hmeets _ hmem)⟩
  | moveBrk hup haligned hword =>
      rcases hready with ⟨hfresh, hlive⟩ | ⟨blocks, hinv⟩
      · exact .inl ⟨hfresh.moveBrk hup haligned hword, hlive⟩
      · exact .inr ⟨blocks, hinv.moveBrk hup hword⟩

end IbcsUs.Memory
