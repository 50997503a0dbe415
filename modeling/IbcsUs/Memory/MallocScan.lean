import Mathlib.Tactic.NormNum
import IbcsUs.Memory.MallocChain

/-!
# The scan

The scan starts at the roving block and follows the chain round until it is back
there.  It keeps the chain, and comes back only when no run of free blocks is
large enough.  It does come back unless the roving block can be merged into a
free block before it; then only a run that is large enough ends it.

Progress is measured by how far a block is from the start, going round the
address space.
-/

namespace IbcsUs.Memory

open IbcsUs.Core

variable {mem mem' : Words} {first last p start wanted : ℕ}
variable {blocks blocks' : List ℕ}

/-- The blocks from `r` up to the busy block `e` are free. -/
structure FreeRun (mem : Words) (Block : ℕ → Prop) (r e : ℕ) : Prop where
  start_mem : Block r
  start_free : ¬ mallocIsBusy mem r
  end_mem : Block e
  end_busy : mallocIsBusy mem e
  lt : r < e
  between : ∀ q, Block q → r < q → q < e → ¬ mallocIsBusy mem q

/-- A busy block links to `r`. -/
def AfterBusy (mem : Words) (Block : ℕ → Prop) (r : ℕ) : Prop :=
  ∃ q, Block q ∧ mallocIsBusy mem q ∧ nextOf mem q = r

/-! ## Runs of free blocks -/

section Runs

variable {r e : ℕ}

theorem FreeRun.of_merged (hmerged : Merged mem blocks mem' blocks')
    (hrun : FreeRun mem (· ∈ blocks) r e) (hr : r ∈ blocks') :
    FreeRun mem' (· ∈ blocks') r e := by
  have hend := hmerged.busy e hrun.end_mem hrun.end_busy
  exact
    { start_mem := hr
      start_free := hmerged.free r hr hrun.start_free
      end_mem := hend.1
      end_busy := hmerged.busy' hrun.end_mem hrun.end_busy
      lt := hrun.lt
      between := fun q hq hlow hhigh => hmerged.free q hq
        (hrun.between q (hmerged.mem_of q hq) hlow hhigh) }

theorem FreeRun.before_merge (hmerged : Merged mem blocks mem' blocks')
    (hrun : FreeRun mem' (· ∈ blocks') r e) : FreeRun mem (· ∈ blocks) r e := by
  refine
    { start_mem := hmerged.mem_of r hrun.start_mem
      start_free := ?_
      end_mem := hmerged.mem_of e hrun.end_mem
      end_busy := (hmerged.isBusy_iff hrun.end_mem).mp hrun.end_busy
      lt := hrun.lt
      between := ?_ }
  · rw [← hmerged.isBusy_iff hrun.start_mem]
    exact hrun.start_free
  · intro q hq hlow hhigh hbusy
    exact hrun.between q (hmerged.busy q hq hbusy).1 hlow hhigh
      (hmerged.busy' hq hbusy)

theorem AfterBusy.of_merged (hblocks : Blocks mem' first last blocks')
    (hmerged : Merged mem blocks mem' blocks')
    (hafter : AfterBusy mem (· ∈ blocks) r) :
    r ∈ blocks' ∧ AfterBusy mem' (· ∈ blocks') r := by
  obtain ⟨q, hq, hbusy, hnext⟩ := hafter
  obtain ⟨hq', hsame⟩ := hmerged.busy q hq hbusy
  have hnext' : nextOf mem' q = r := by
    rw [nextOf, hsame]
    exact hnext
  exact ⟨hnext' ▸ hblocks.next_mem hq', q, hq', hmerged.busy' hq hbusy, hnext'⟩

/-- After its round a free block links to the end of its run. -/
theorem Round.freeRun (hround : Round mem blocks first last p mem' blocks')
    (hfree : ¬ mallocIsBusy mem p) : FreeRun mem (· ∈ blocks) p (mem' p) := by
  have hfree' := hround.merged.free p hround.stays hfree
  have habove := hround.chained.next_above hround.stays
    (hround.chained.ne_last_of_free hfree')
  have hnext := nextOf_of_free hfree'
  rw [hnext] at habove
  refine
    { start_mem := hround.merged.mem_of p hround.stays
      start_free := hfree
      end_mem := hround.merged.mem_of _ habove.1
      end_busy := (hround.merged.isBusy_iff habove.1).mp (hround.next_busy hfree)
      lt := habove.2
      between := ?_ }
  intro q hq hlow hhigh hbusy
  have hle := hround.chained.chain.next_le hround.stays
    (hround.merged.busy q hq hbusy).1 hlow
  rw [hnext] at hle
  exact absurd hhigh (not_lt.mpr hle)

/-- A free block has one run. -/
theorem FreeRun.end_unique {e' : ℕ} (hrun : FreeRun mem (· ∈ blocks) r e)
    (hrun' : FreeRun mem (· ∈ blocks) r e') : e = e' := by
  rcases lt_trichotomy e e' with hlt | heq | hgt
  · exact absurd hrun.end_busy (hrun'.between e hrun.end_mem hrun.lt hlt)
  · exact heq
  · exact absurd hrun'.end_busy (hrun.between e' hrun'.end_mem hrun'.lt hgt)

/-- The largest run that ends where the given one does starts behind a busy
block. -/
theorem FreeRun.exists_afterBusy (hblocks : Blocks mem first last blocks)
    (hrun : FreeRun mem (· ∈ blocks) r e) :
    ∃ s ≤ r, FreeRun mem (· ∈ blocks) s e ∧ AfterBusy mem (· ∈ blocks) s := by
  classical
  have hexists : ∃ s, FreeRun mem (· ∈ blocks) s e := ⟨r, hrun⟩
  have hlowest := Nat.find_spec hexists
  refine ⟨Nat.find hexists, Nat.find_min' hexists hrun, hlowest, ?_⟩
  obtain ⟨q, hq, hnext⟩ := hblocks.exists_prev hlowest.start_mem
  refine ⟨q, hq, ?_, hnext⟩
  -- a free block before it would start a larger run
  by_contra hfree
  have habove := hblocks.next_above hq (hblocks.ne_last_of_free hfree)
  rw [hnext] at habove
  refine Nat.find_min hexists habove.2
    { start_mem := hq
      start_free := hfree
      end_mem := hlowest.end_mem
      end_busy := hlowest.end_busy
      lt := habove.2.trans hlowest.lt
      between := ?_ }
  intro other hother hlow hhigh
  have hle := hblocks.chain.next_le hq hother hlow
  rw [hnext] at hle
  rcases hle.eq_or_lt with heq | hlt
  · exact heq ▸ hlowest.start_free
  · exact hlowest.between other hother hlt hhigh

/-- A run of `e - r` bytes is large enough, as the code measures it. -/
theorem wanted_le_headerDiff_iff (hlt : r < e) (hword : e < 2 ^ 32)
    (hsize : wanted ≤ 2 ^ 30) (haligned : r % 4 = 0) (haligned' : e % 4 = 0) :
    wanted ≤ headerDiff e r ↔ 4 * wanted ≤ e - r ∨ 2 ^ 31 ≤ e - r := by
  have hbytes : wordSub e r = e - r := by
    simp only [wordSub]
    omega
  simp only [headerDiff, hbytes]
  split <;> omega

theorem wanted_lt_headerDiff_iff (hlt : r < e) (hword : e < 2 ^ 32)
    (hsize : wanted ≤ 2 ^ 30) (haligned : r % 4 = 0) (haligned' : e % 4 = 0) :
    wanted < headerDiff e r ↔ 4 * wanted < e - r ∨ 2 ^ 31 ≤ e - r := by
  have hbytes : wordSub e r = e - r := by
    simp only [wordSub]
    omega
  simp only [headerDiff, hbytes]
  split <;> omega

/-- A larger run is large enough as well. -/
theorem wanted_le_headerDiff_mono {s : ℕ} (hle : s ≤ r) (hlt : r < e)
    (hword : e < 2 ^ 32) (hsize : wanted ≤ 2 ^ 30) (hs : s % 4 = 0)
    (hr : r % 4 = 0) (he : e % 4 = 0) (hfits : wanted ≤ headerDiff e r) :
    wanted ≤ headerDiff e s := by
  rw [wanted_le_headerDiff_iff hlt hword hsize hr he] at hfits
  rw [wanted_le_headerDiff_iff (hle.trans_lt hlt) hword hsize hs he]
  omega

theorem mallocWanted_le (w : ℕ) : mallocWanted w ≤ 2 ^ 30 := by
  simp only [mallocWanted, wordAdd]
  omega

end Runs

/-! ## Going round -/

section Distance

variable {r : ℕ}

/-- How far a block is from the start, going up and round. -/
def distance (start p : ℕ) : ℕ := wordSub p start

theorem distance_cases (hstart : start < 2 ^ 32) (hp : p < 2 ^ 32) :
    start ≤ p ∧ distance start p = p - start ∨
      p < start ∧ distance start p = p + 2 ^ 32 - start := by
  simp only [distance, wordSub]
  omega

theorem distance_self (hstart : start < 2 ^ 32) : distance start start = 0 := by
  have hcases := distance_cases hstart hstart
  omega

theorem distance_lt (start p : ℕ) : distance start p < 2 ^ 32 :=
  Nat.mod_lt _ (by norm_num)

theorem distance_inj (hstart : start < 2 ^ 32) (hp : p < 2 ^ 32)
    (hr : r < 2 ^ 32) (heq : distance start p = distance start r) : p = r := by
  have hcases := distance_cases hstart hp
  have hcases' := distance_cases hstart hr
  omega

/-- The next block is further away than this one and no further than any other
block that is. -/
theorem Blocks.distance_next (hblocks : Blocks mem first last blocks)
    (hlast : last < 2 ^ 32) (hstart : start < 2 ^ 32) (hp : p ∈ blocks)
    (hr : r ∈ blocks) (hlt : distance start p < distance start r) :
    distance start p < distance start (nextOf mem p) ∧
      distance start (nextOf mem p) ≤ distance start r := by
  have hple := hblocks.le_last hp
  have hrle := hblocks.le_last hr
  have hnle := hblocks.le_last (hblocks.next_mem hp)
  have hpcases := distance_cases hstart (hple.trans_lt hlast)
  have hrcases := distance_cases hstart (hrle.trans_lt hlast)
  have hncases := distance_cases hstart (hnle.trans_lt hlast)
  by_cases hend : p = last
  · have hfirst := hblocks.first_le hr
    rw [hend, hblocks.next_last] at hncases ⊢
    subst hend
    omega
  · have habove := (hblocks.next_above hp hend).2
    have hnext := hblocks.chain.next_le hp hr
    omega

/-- Going on from a block gets further away from the start or back to it. -/
theorem Blocks.distance_lt_next (hblocks : Blocks mem first last blocks)
    (hlast : last < 2 ^ 32) (hstart : start ∈ blocks) (hp : p ∈ blocks)
    (hne : nextOf mem p ≠ start) :
    distance start p < distance start (nextOf mem p) := by
  have hsle := hblocks.le_last hstart
  have hstartWord := hsle.trans_lt hlast
  have hple := hblocks.le_last hp
  have hnle := hblocks.le_last (hblocks.next_mem hp)
  have hpcases := distance_cases hstartWord (hple.trans_lt hlast)
  have hncases := distance_cases hstartWord (hnle.trans_lt hlast)
  by_cases hend : p = last
  · have hfirst := hblocks.first_le hstart
    rw [hend, hblocks.next_last] at hncases hne ⊢
    subst hend
    omega
  · have habove := (hblocks.next_above hp hend).2
    have hnext := hblocks.chain.next_le hp hstart
    omega

end Distance

/-! ## The whole scan -/

section Scan

variable {fuel : ℕ} {found : Option ℕ}

/-- A scan that ends keeps the chain.  The block it found is large enough, and
when it found none the start is still in the chain. -/
theorem Blocks.scan (hblocks : Blocks mem first last blocks) (hp : p ∈ blocks)
    (hscan : mallocScan start wanted fuel mem p = some (mem', found)) :
    ∃ blocks', Blocks mem' first last blocks' ∧
      Merged mem blocks mem' blocks' ∧
      (∀ r, found = some r → r ∈ blocks' ∧ Fits mem' r wanted ∧
        FreeRun mem' (· ∈ blocks') r (mem' r)) ∧
      (found = none → start ∈ blocks') := by
  induction fuel generalizing mem p blocks with
  | zero => simp [mallocScan] at hscan
  | succ fuel ih =>
      obtain ⟨mem₁, blocks₁, need, hround, hfuel⟩ := hblocks.scan_round hp
      rw [hfuel] at hscan
      split_ifs at hscan with hneed hfits hstart
      -- found here
      · obtain ⟨rfl, rfl⟩ := Prod.mk.inj (Option.some.inj hscan)
        have hfree : ¬ mallocIsBusy mem p := by
          rw [← hround.merged.isBusy_iff hround.stays]
          exact hfits.1
        refine ⟨blocks₁, hround.chained, hround.merged, ?_, by simp⟩
        rintro r ⟨⟩
        exact ⟨hround.stays, hfits,
          (hround.freeRun hfree).of_merged hround.merged hround.stays⟩
      -- back at the start
      · obtain ⟨rfl, rfl⟩ := Prod.mk.inj (Option.some.inj hscan)
        refine ⟨blocks₁, hround.chained, hround.merged, by simp, fun _ => ?_⟩
        exact hstart ▸ hround.chained.next_mem hround.stays
      -- on to the next block
      · obtain ⟨blocks', hblocks', hmerged', hfound, hnone⟩ :=
          ih hround.chained (hround.chained.next_mem hround.stays) hscan
        exact ⟨blocks', hblocks', hround.merged.trans hmerged', hfound, hnone⟩

/-- A round with a run ahead is at the run, or leads on towards it. -/
theorem Round.ahead (hblocks : Blocks mem first last blocks)
    (hlast : last < 2 ^ 32) (hstart : start < 2 ^ 32) (hp : p ∈ blocks)
    (hround : Round mem blocks first last p mem' blocks') {r e : ℕ}
    (hrun : FreeRun mem (· ∈ blocks) r e) (hr : r ∈ blocks')
    (hahead : distance start p ≤ distance start r) :
    ¬ mallocIsBusy mem' p ∧ mem' p = e ∧ p = r ∨
      nextOf mem' p ≠ start ∧
        distance start p < distance start (nextOf mem' p) ∧
        distance start (nextOf mem' p) ≤ distance start r := by
  by_cases heq : p = r
  · subst heq
    exact .inl ⟨hround.merged.free p hround.stays hrun.start_free,
      (hround.freeRun hrun.start_free).end_unique hrun, rfl⟩
  have hne : distance start p ≠ distance start r := by
    intro hsame
    exact heq (distance_inj hstart ((hblocks.le_last hp).trans_lt hlast)
      ((hblocks.le_last hrun.start_mem).trans_lt hlast) hsame)
  obtain ⟨hfar, hnear⟩ := hround.chained.distance_next hlast hstart
    hround.stays hr (lt_of_le_of_ne hahead hne)
  refine .inr ⟨fun hback => ?_, hfar, hnear⟩
  rw [hback, distance_self hstart] at hfar
  exact absurd hfar (Nat.not_lt_zero _)

/-- A scan that comes back without a block has tried every run behind a busy
block that lay ahead of it. -/
theorem Blocks.scan_none (hblocks : Blocks mem first last blocks)
    (hlast : last < 2 ^ 32) (hstart : start < 2 ^ 32) (hp : p ∈ blocks)
    (hscan : mallocScan start wanted fuel mem p = some (mem', none)) {r e : ℕ}
    (hrun : FreeRun mem (· ∈ blocks) r e) (hafter : AfterBusy mem (· ∈ blocks) r)
    (hahead : distance start p ≤ distance start r) :
    ¬ wanted ≤ headerDiff e r := by
  induction fuel generalizing mem p blocks with
  | zero => simp [mallocScan] at hscan
  | succ fuel ih =>
      obtain ⟨mem₁, blocks₁, need, hround, hfuel⟩ := hblocks.scan_round hp
      obtain ⟨hr₁, hafter₁⟩ := hafter.of_merged hround.chained hround.merged
      rw [hfuel] at hscan
      rcases hround.ahead hblocks hlast hstart hp hrun hr₁ hahead with
        ⟨hfree, hend, rfl⟩ | ⟨hback, -, hnear⟩
      · intro hlarge
        rw [if_pos (show Fits mem₁ p wanted from ⟨hfree, hend ▸ hlarge⟩)] at hscan
        split_ifs at hscan
        simp at hscan
      · rw [if_neg hback] at hscan
        split_ifs at hscan
        · simp at hscan
        · exact ih hround.chained (hround.chained.next_mem hround.stays) hscan
            (hrun.of_merged hround.merged hr₁) hafter₁ hnear

/-- A run ahead of the scan that is large enough ends it. -/
theorem Blocks.scan_finds (hblocks : Blocks mem first last blocks)
    (hlast : last < 2 ^ 32) (hstart : start < 2 ^ 32) (hp : p ∈ blocks) {r e : ℕ}
    (hrun : FreeRun mem (· ∈ blocks) r e) (hafter : AfterBusy mem (· ∈ blocks) r)
    (hlarge : wanted ≤ headerDiff e r)
    (hahead : distance start p ≤ distance start r) :
    ∃ enough, ∀ fuel, enough ≤ fuel →
      (mallocScan start wanted fuel mem p).isSome := by
  -- the distance to the run decreases
  induction hgap : distance start r - distance start p
    using Nat.strong_induction_on generalizing mem p blocks with
  | _ gap ih =>
      obtain ⟨mem₁, blocks₁, need, hround, hfuel⟩ := hblocks.scan_round hp
      obtain ⟨hr₁, hafter₁⟩ := hafter.of_merged hround.chained hround.merged
      by_cases hfits : Fits mem₁ p wanted
      · refine ⟨need + 1, fun fuel hle => ?_⟩
        obtain ⟨fuel, rfl⟩ := Nat.exists_eq_succ_of_ne_zero (by omega : fuel ≠ 0)
        simp [hfuel, hfits, show need ≤ fuel by omega]
      rcases hround.ahead hblocks hlast hstart hp hrun hr₁ hahead with
        ⟨hfree, hend, rfl⟩ | ⟨hback, hfar, hnear⟩
      · exact absurd ⟨hfree, hend ▸ hlarge⟩ hfits
      obtain ⟨enough, henough⟩ := ih _ (by omega) hround.chained
        (hround.chained.next_mem hround.stays)
        (hrun.of_merged hround.merged hr₁) hafter₁ hnear rfl
      refine ⟨max need enough + 1, fun fuel hle => ?_⟩
      obtain ⟨fuel, rfl⟩ := Nat.exists_eq_succ_of_ne_zero (by omega : fuel ≠ 0)
      rw [hfuel, if_neg hfits, if_neg hback, if_pos (by omega)]
      exact henough fuel (by omega)

/-- A scan whose start cannot be merged away ends. -/
theorem Blocks.scan_returns (hblocks : Blocks mem first last blocks)
    (hlast : last < 2 ^ 32) (hp : p ∈ blocks) (hstart : start ∈ blocks)
    (hsafe : mallocIsBusy mem start ∨ AfterBusy mem (· ∈ blocks) start) :
    ∃ enough, ∀ fuel, enough ≤ fuel →
      (mallocScan start wanted fuel mem p).isSome := by
  -- the way still to go round decreases
  induction hgap : 2 ^ 32 - distance start p using Nat.strong_induction_on
    generalizing mem p blocks with
  | _ gap ih =>
      obtain ⟨mem₁, blocks₁, need, hround, hfuel⟩ := hblocks.scan_round hp
      obtain ⟨hstart₁, hsafe₁⟩ : start ∈ blocks₁ ∧
          (mallocIsBusy mem₁ start ∨ AfterBusy mem₁ (· ∈ blocks₁) start) := by
        rcases hsafe with hbusy | hafter
        · exact ⟨(hround.merged.busy start hstart hbusy).1,
            .inl (hround.merged.busy' hstart hbusy)⟩
        · obtain ⟨hmem, hafter₁⟩ := hafter.of_merged hround.chained hround.merged
          exact ⟨hmem, .inr hafter₁⟩
      by_cases hdone : Fits mem₁ p wanted ∨ nextOf mem₁ p = start
      · refine ⟨need + 1, fun fuel hle => ?_⟩
        obtain ⟨fuel, rfl⟩ := Nat.exists_eq_succ_of_ne_zero (by omega : fuel ≠ 0)
        rw [hfuel, if_pos (by omega)]
        split_ifs <;> simp_all
      push Not at hdone
      obtain ⟨hfits, hback⟩ := hdone
      have hfar := hround.chained.distance_lt_next hlast hstart₁ hround.stays hback
      have hword := distance_lt start (nextOf mem₁ p)
      obtain ⟨enough, henough⟩ := ih _ (by omega) hround.chained
        (hround.chained.next_mem hround.stays) hstart₁ hsafe₁ rfl
      refine ⟨max need enough + 1, fun fuel hle => ?_⟩
      obtain ⟨fuel, rfl⟩ := Nat.exists_eq_succ_of_ne_zero (by omega : fuel ≠ 0)
      rw [hfuel, if_neg hfits, if_neg hback, if_pos (by omega)]
      exact henough fuel (by omega)

/-- A scan whose start is free behind free blocks only, and which meets no run
that is large enough, never ends. -/
theorem Blocks.scan_forever (hblocks : Blocks mem first last blocks)
    (hp : p ∈ blocks)
    (hnone : ∀ r e, FreeRun mem (· ∈ blocks) r e → ¬ wanted ≤ headerDiff e r)
    (hfree : start ∈ blocks → ¬ mallocIsBusy mem start)
    (hafter : ¬ AfterBusy mem (· ∈ blocks) start) (fuel : ℕ) :
    mallocScan start wanted fuel mem p = none := by
  induction fuel generalizing mem p blocks with
  | zero => rfl
  | succ fuel ih =>
      obtain ⟨mem₁, blocks₁, need, hround, hfuel⟩ := hblocks.scan_round hp
      have hmerged := hround.merged
      have hnone₁ : ∀ r e, FreeRun mem₁ (· ∈ blocks₁) r e →
          ¬ wanted ≤ headerDiff e r :=
        fun r e hrun => hnone r e (hrun.before_merge hmerged)
      have hfree₁ : start ∈ blocks₁ → ¬ mallocIsBusy mem₁ start := by
        intro hmem
        exact hmerged.free start hmem (hfree (hmerged.mem_of start hmem))
      have hafter₁ : ¬ AfterBusy mem₁ (· ∈ blocks₁) start := by
        rintro ⟨q, hq, hbusy, hnext⟩
        have hbusy' := (hmerged.isBusy_iff hq).mp hbusy
        refine hafter ⟨q, hmerged.mem_of q hq, hbusy', ?_⟩
        rw [nextOf, (hmerged.busy q (hmerged.mem_of q hq) hbusy').2] at hnext
        exact hnext
      have hfits : ¬ Fits mem₁ p wanted := by
        rintro ⟨hpfree, hlarge⟩
        have hpfree' : ¬ mallocIsBusy mem p := by
          rwa [← hmerged.isBusy_iff hround.stays]
        exact hnone p (mem₁ p) (hround.freeRun hpfree') hlarge
      -- the next block is busy, or this one is: neither links to the start
      have hback : nextOf mem₁ p ≠ start := by
        intro hsame
        by_cases hbusy : mallocIsBusy mem₁ p
        · exact hafter₁ ⟨p, hround.stays, hbusy, hsame⟩
        · have hpfree : ¬ mallocIsBusy mem p := by
            rwa [← hmerged.isBusy_iff hround.stays]
          have hnext := hround.next_busy hpfree
          rw [← nextOf_of_free hbusy, hsame] at hnext
          exact hfree₁ (hsame ▸ hround.chained.next_mem hround.stays) hnext
      rw [hfuel, if_neg hfits, if_neg hback,
        ih hround.chained (hround.chained.next_mem hround.stays) hnone₁ hfree₁
          hafter₁]
      simp

end Scan

end IbcsUs.Memory
