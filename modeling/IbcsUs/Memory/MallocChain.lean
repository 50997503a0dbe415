import IbcsUs.Core.Chain
import IbcsUs.Memory.Malloc

/-!
# The chain of blocks

The headers, read without their busy bits, chain the blocks in ascending order
from the first one to the end marker, which links back to the first and is
always busy.  The scan only takes free blocks out of the chain.  One lemma says
what one round of it does, whatever the fuel; everything else about the scan
follows from it by induction on the fuel or on the distance still to go.
-/

namespace IbcsUs.Memory

open IbcsUs.Core

/-- The block a header links to. -/
def nextOf (mem : Words) (p : ℕ) : ℕ := mallocClrBusy (mem p)

theorem nextOf_update (mem : Words) (p link : ℕ) :
    nextOf (Function.update mem p link) =
      Function.update (nextOf mem) p (mallocClrBusy link) := by
  funext q
  by_cases hq : q = p <;> simp [nextOf, hq]

theorem mallocIsBusy_iff {mem : Words} {p : ℕ} :
    mallocIsBusy mem p = true ↔ mem p % 2 = 1 := by
  simp [mallocIsBusy]

theorem nextOf_of_free {mem : Words} {p : ℕ} (hfree : ¬ mallocIsBusy mem p) :
    nextOf mem p = mem p := by
  rw [mallocIsBusy_iff] at hfree
  simp only [nextOf, mallocClrBusy]
  omega

theorem mallocClrBusy_of_aligned {link : ℕ} (haligned : link % 4 = 0) :
    mallocClrBusy link = link := by
  simp only [mallocClrBusy]
  omega

theorem mallocClrBusy_setBusy_of_aligned {link : ℕ} (haligned : link % 4 = 0) :
    mallocClrBusy (mallocSetBusy link) = link := by
  simp only [mallocClrBusy, mallocSetBusy]
  omega

theorem mallocSetBusy_mod (link : ℕ) : mallocSetBusy link % 2 = 1 := by
  simp only [mallocSetBusy]
  omega

/-- The headers at `blocks` are the chain from `first` to the end marker. -/
structure Blocks (mem : Words) (first last : ℕ) (blocks : List ℕ) : Prop where
  chain : Chain (nextOf mem) blocks
  head : blocks.head? = some first
  getLast : blocks.getLast? = some last
  closes : mem last = mallocSetBusy first
  aligned : ∀ p ∈ blocks, p % 4 = 0

namespace Blocks

variable {mem : Words} {first last p q : ℕ} {blocks : List ℕ}

theorem first_mem (hblocks : Blocks mem first last blocks) : first ∈ blocks :=
  List.mem_of_head? hblocks.head

theorem last_mem (hblocks : Blocks mem first last blocks) : last ∈ blocks :=
  List.mem_of_getLast? hblocks.getLast

theorem last_busy (hblocks : Blocks mem first last blocks) :
    mallocIsBusy mem last = true := by
  rw [mallocIsBusy_iff, hblocks.closes]
  exact mallocSetBusy_mod first

theorem next_last (hblocks : Blocks mem first last blocks) :
    nextOf mem last = first := by
  rw [nextOf, hblocks.closes]
  exact mallocClrBusy_setBusy_of_aligned
    (hblocks.aligned first hblocks.first_mem)

theorem le_last (hblocks : Blocks mem first last blocks) (hp : p ∈ blocks) :
    p ≤ last := by
  obtain ⟨front, rfl⟩ := List.getLast?_eq_some_iff.mp hblocks.getLast
  rcases List.mem_append.mp hp with hmem | hmem
  · exact (hblocks.chain.lt_of_front hmem).le
  · exact (List.mem_singleton.mp hmem).le

theorem first_le (hblocks : Blocks mem first last blocks) (hp : p ∈ blocks) :
    first ≤ p := by
  obtain ⟨back, rfl⟩ := List.head?_eq_some_iff.mp hblocks.head
  rcases List.mem_cons.mp hp with rfl | hmem
  · exact le_rfl
  · have hchain : Chain (nextOf mem) ([] ++ first :: back) := hblocks.chain
    exact (hchain.lt_of_back hmem).le

/-- A block other than the end marker links to the next one above it. -/
theorem next_above (hblocks : Blocks mem first last blocks) (hp : p ∈ blocks)
    (hne : p ≠ last) : nextOf mem p ∈ blocks ∧ p < nextOf mem p := by
  refine hblocks.chain.next_mem hp ?_
  rw [hblocks.getLast]
  intro heq
  exact hne (Option.some.inj heq).symm

/-- The links never leave the chain. -/
theorem next_mem (hblocks : Blocks mem first last blocks) (hp : p ∈ blocks) :
    nextOf mem p ∈ blocks := by
  by_cases hlast : p = last
  · rw [hlast, hblocks.next_last]
    exact hblocks.first_mem
  · exact (hblocks.next_above hp hlast).1

theorem ne_last_of_free (hblocks : Blocks mem first last blocks)
    (hfree : ¬ mallocIsBusy mem p) : p ≠ last := by
  rintro rfl
  exact hfree hblocks.last_busy

/-- Every block is linked to. -/
theorem exists_prev (hblocks : Blocks mem first last blocks) (hp : p ∈ blocks) :
    ∃ q ∈ blocks, nextOf mem q = p := by
  obtain ⟨front, back, rfl⟩ := List.append_of_mem hp
  rcases front.eq_nil_or_concat' with rfl | ⟨front, q, rfl⟩
  · obtain rfl : p = first := by simpa using hblocks.head
    exact ⟨last, hblocks.last_mem, hblocks.next_last⟩
  · have hchain := hblocks.chain
    rw [List.append_assoc, List.singleton_append] at hchain
    obtain ⟨-, hback⟩ := Chain.append_cons_iff.mp hchain
    obtain ⟨⟨hnext, -⟩, -⟩ := Chain.cons_cons_iff.mp hback
    exact ⟨q, by simp, hnext⟩

/-- Writing elsewhere does not touch the chain. -/
theorem update_of_notMem (hblocks : Blocks mem first last blocks) {address : ℕ}
    (haddress : address ∉ blocks) (value : ℕ) :
    Blocks (Function.update mem address value) first last blocks := by
  have hother : ∀ q ∈ blocks, q ≠ address := by
    rintro q hq rfl
    exact haddress hq
  exact
    { chain := hblocks.chain.congr fun q hq => by
        rw [nextOf_update, Function.update_of_ne (hother q hq)]
      head := hblocks.head
      getLast := hblocks.getLast
      closes := by
        rw [Function.update_of_ne (hother last hblocks.last_mem)]
        exact hblocks.closes
      aligned := hblocks.aligned }

/-- Changing the busy bit of a block other than the end marker keeps the
chain. -/
theorem update_busy (hblocks : Blocks mem first last blocks) (hp : p ≠ last)
    {link : ℕ} (hlink : mallocClrBusy link = nextOf mem p) :
    Blocks (Function.update mem p link) first last blocks := by
  refine
    { chain := ?_
      head := hblocks.head
      getLast := hblocks.getLast
      closes := by
        rw [Function.update_of_ne (Ne.symm hp)]
        exact hblocks.closes
      aligned := hblocks.aligned }
  rw [nextOf_update, hlink, Function.update_eq_self]
  exact hblocks.chain

end Blocks

/-- The second chain comes from the first by taking out free blocks. -/
structure Merged (mem : Words) (blocks : List ℕ) (mem' : Words)
    (blocks' : List ℕ) : Prop where
  mem_of : ∀ p ∈ blocks', p ∈ blocks
  busy : ∀ p ∈ blocks, mallocIsBusy mem p → p ∈ blocks' ∧ mem' p = mem p
  free : ∀ p ∈ blocks', ¬ mallocIsBusy mem p → ¬ mallocIsBusy mem' p

namespace Merged

variable {mem mem' mem'' : Words} {blocks blocks' blocks'' : List ℕ}

theorem refl (mem : Words) (blocks : List ℕ) : Merged mem blocks mem blocks :=
  ⟨fun _ hp => hp, fun _ hp _ => ⟨hp, rfl⟩, fun _ _ hfree => hfree⟩

theorem busy' (hmerged : Merged mem blocks mem' blocks') {p : ℕ}
    (hp : p ∈ blocks) (hbusy : mallocIsBusy mem p) :
    mallocIsBusy mem' p = true := by
  rw [mallocIsBusy_iff, (hmerged.busy p hp hbusy).2]
  exact mallocIsBusy_iff.mp hbusy

theorem trans (hfirst : Merged mem blocks mem' blocks')
    (hsecond : Merged mem' blocks' mem'' blocks'') :
    Merged mem blocks mem'' blocks'' := by
  refine ⟨fun p hp => hfirst.mem_of p (hsecond.mem_of p hp), fun p hp hbusy => ?_,
    fun p hp hfree => ?_⟩
  · obtain ⟨hp', hsame⟩ := hfirst.busy p hp hbusy
    obtain ⟨hp'', hsame'⟩ := hsecond.busy p hp' (hfirst.busy' hp hbusy)
    exact ⟨hp'', hsame'.trans hsame⟩
  · exact hsecond.free p hp (hfirst.free p (hsecond.mem_of p hp) hfree)

/-- The blocks left are busy when they were. -/
theorem isBusy_iff (hmerged : Merged mem blocks mem' blocks') {p : ℕ}
    (hp : p ∈ blocks') : mallocIsBusy mem' p ↔ mallocIsBusy mem p := by
  constructor
  · intro hbusy
    by_contra hfree
    exact hmerged.free p hp hfree hbusy
  · exact hmerged.busy' (hmerged.mem_of p hp)

end Merged

/-! ## Merging -/

section Merging

variable {mem : Words} {first last p : ℕ} {blocks : List ℕ}

/-- A free block links to the block after it, and when that one is free too
there is another one behind it. -/
theorem Blocks.split_free (hblocks : Blocks mem first last blocks)
    (hp : p ∈ blocks) (hfree : ¬ mallocIsBusy mem p)
    (hnext : ¬ mallocIsBusy mem (mem p)) :
    ∃ front back, blocks = front ++ p :: mem p :: mem (mem p) :: back := by
  obtain ⟨hmem, -⟩ := hblocks.next_above hp (hblocks.ne_last_of_free hfree)
  rw [nextOf_of_free hfree] at hmem
  obtain ⟨hmem', -⟩ := hblocks.next_above hmem (hblocks.ne_last_of_free hnext)
  obtain ⟨front, back, rfl⟩ := List.append_of_mem hp
  have hlast := hblocks.getLast
  rcases back with _ | ⟨second, _ | ⟨third, back⟩⟩
  · simp only [List.getLast?_append, List.getLast?_singleton, Option.some_or,
      Option.some.injEq] at hlast
    exact absurd hlast (hblocks.ne_last_of_free hfree)
  · obtain ⟨-, hback⟩ := Chain.append_cons_iff.mp hblocks.chain
    obtain ⟨⟨hsecond, -⟩, -⟩ := Chain.cons_cons_iff.mp hback
    rw [nextOf_of_free hfree] at hsecond
    rw [hsecond] at hnext
    simp only [List.getLast?_append, List.getLast?_cons_cons,
      List.getLast?_singleton, Option.some_or, Option.some.injEq] at hlast
    exact absurd hlast (hblocks.ne_last_of_free hnext)
  · obtain ⟨-, hback⟩ := Chain.append_cons_iff.mp hblocks.chain
    obtain ⟨⟨hsecond, -⟩, hrest⟩ := Chain.cons_cons_iff.mp hback
    obtain ⟨⟨hthird, -⟩, -⟩ := Chain.cons_cons_iff.mp hrest
    rw [nextOf_of_free hfree] at hsecond
    rw [hsecond] at hnext
    rw [nextOf_of_free hnext] at hthird
    exact ⟨front, back, by rw [hsecond, hthird]⟩

/-- One round of the inner loop takes the block after `p` out of the chain. -/
theorem Blocks.merge (hblocks : Blocks mem first last blocks) (hp : p ∈ blocks)
    (hfree : ¬ mallocIsBusy mem p) (hnext : ¬ mallocIsBusy mem (mem p)) :
    ∃ blocks', Blocks (Function.update mem p (mem (mem p))) first last blocks' ∧
      Merged mem blocks (Function.update mem p (mem (mem p))) blocks' ∧
      p ∈ blocks' ∧ ¬ mallocIsBusy (Function.update mem p (mem (mem p))) p ∧
      blocks'.length < blocks.length := by
  obtain ⟨front, back, hsplit⟩ := hblocks.split_free hp hfree hnext
  have hclear : mallocClrBusy (mem (mem p)) = mem (mem p) := nextOf_of_free hnext
  have hstays : ¬ mallocIsBusy (Function.update mem p (mem (mem p))) p := by
    simpa [mallocIsBusy] using hnext
  refine ⟨front ++ p :: mem (mem p) :: back, ?_, ?_, by simp, hstays,
    by simp [hsplit]⟩
  · have hchain := hblocks.chain
    have haligned := hblocks.aligned
    have hhead := hblocks.head
    have hlast := hblocks.getLast
    rw [hsplit] at hchain haligned hhead hlast
    exact
      { chain := by
          rw [nextOf_update, hclear]
          exact hchain.pass
        head := by
          rw [← hhead]
          cases front <;> rfl
        getLast := by
          rw [← hlast]
          simp [List.getLast?_append, List.getLast?_cons_cons]
        closes := by
          rw [Function.update_of_ne (hblocks.ne_last_of_free hfree).symm]
          exact hblocks.closes
        aligned := fun q hq => haligned q (by
          simp only [List.mem_append, List.mem_cons] at hq ⊢
          tauto) }
  · refine ⟨fun q hq => ?_, fun q hq hbusy => ?_, fun q _ hq => ?_⟩
    · rw [hsplit]
      simp only [List.mem_append, List.mem_cons] at hq ⊢
      tauto
    · have hqp : q ≠ p := by
        rintro rfl
        exact hfree hbusy
      have hqn : q ≠ mem p := by
        rintro rfl
        exact hnext hbusy
      rw [hsplit] at hq
      simp only [List.mem_append, List.mem_cons] at hq
      refine ⟨?_, Function.update_of_ne hqp _ _⟩
      simp only [List.mem_append, List.mem_cons]
      tauto
    · by_cases hqp : q = p
      · exact hqp ▸ hstays
      · simpa [mallocIsBusy, Function.update_of_ne hqp] using hq

/-- The inner loop ends once it has enough fuel: the block then links to a busy
one, and only free blocks behind it have left the chain. -/
theorem Blocks.coalesce (hblocks : Blocks mem first last blocks)
    (hp : p ∈ blocks) (hfree : ¬ mallocIsBusy mem p) :
    ∃ mem' blocks' need, Blocks mem' first last blocks' ∧
      Merged mem blocks mem' blocks' ∧ p ∈ blocks' ∧
      mallocIsBusy mem' (mem' p) ∧
      ∀ fuel, mallocCoalesce p fuel mem =
        if need ≤ fuel then some mem' else none := by
  -- each round makes the chain shorter
  induction hlength : blocks.length using Nat.strong_induction_on
    generalizing mem blocks with
  | _ length ih =>
      by_cases hnext : mallocIsBusy mem (mem p)
      · refine ⟨mem, blocks, 1, hblocks, .refl mem blocks, hp, hnext, ?_⟩
        intro fuel
        cases fuel <;> simp [mallocCoalesce, hnext]
      · obtain ⟨blocks₁, hblocks₁, hmerged₁, hp₁, hfree₁, hshorter⟩ :=
          hblocks.merge hp hfree hnext
        obtain ⟨mem', blocks', need, hblocks', hmerged', hp', hbusy', hfuel⟩ :=
          ih _ (hlength ▸ hshorter) hblocks₁ hp₁ hfree₁ rfl
        refine ⟨mem', blocks', need + 1, hblocks', hmerged₁.trans hmerged', hp',
          hbusy', ?_⟩
        intro fuel
        cases fuel with
        | zero => simp [mallocCoalesce]
        | succ fuel => simp [mallocCoalesce, hnext, hfuel]

end Merging

/-! ## One round of the scan -/

/-- What one round at block `p` makes of the chain. -/
structure Round (mem : Words) (blocks : List ℕ) (first last p : ℕ)
    (mem' : Words) (blocks' : List ℕ) : Prop where
  chained : Blocks mem' first last blocks'
  merged : Merged mem blocks mem' blocks'
  stays : p ∈ blocks'
  next_busy : ¬ mallocIsBusy mem p → mallocIsBusy mem' (mem' p)

/-- The block at `p` is free and large enough, as the code measures it. -/
def Fits (mem : Words) (p wanted : ℕ) : Prop :=
  ¬ mallocIsBusy mem p ∧ wanted ≤ headerDiff (mem p) p

instance (mem : Words) (p wanted : ℕ) : Decidable (Fits mem p wanted) :=
  inferInstanceAs (Decidable (_ ∧ _))

/-- A round ends once it has enough fuel, having found the block at hand, or
having come back to the start, or in the scan from the next block. -/
theorem Blocks.scan_round {mem : Words} {first last p : ℕ} {blocks : List ℕ}
    (hblocks : Blocks mem first last blocks) (hp : p ∈ blocks) :
    ∃ mem' blocks' need, Round mem blocks first last p mem' blocks' ∧
      ∀ start wanted fuel, mallocScan start wanted (fuel + 1) mem p =
        if need ≤ fuel then
          if Fits mem' p wanted then some (mem', some p)
          else if nextOf mem' p = start then some (mem', none)
          else mallocScan start wanted fuel mem' (nextOf mem' p)
        else none := by
  by_cases hbusy : mallocIsBusy mem p
  · refine ⟨mem, blocks, 0,
      ⟨hblocks, .refl mem blocks, hp, fun hfree => absurd hbusy hfree⟩, ?_⟩
    intro start wanted fuel
    by_cases hstart : mallocClrBusy (mem p) = start <;>
      simp [mallocScan, hbusy, Fits, nextOf, hstart]
  · obtain ⟨mem', blocks', need, hblocks', hmerged, hp', hnext, hfuel⟩ :=
      hblocks.coalesce hp hbusy
    refine ⟨mem', blocks', need, ⟨hblocks', hmerged, hp', fun _ => hnext⟩, ?_⟩
    intro start wanted fuel
    have hfree' := hmerged.free p hp' hbusy
    by_cases hneed : need ≤ fuel
    · by_cases hstart : mallocClrBusy (mem' p) = start <;>
        simp [mallocScan, hbusy, hfuel, hneed, Fits, hfree', nextOf, hstart]
    · simp [mallocScan, hbusy, hfuel, hneed]

end IbcsUs.Memory
