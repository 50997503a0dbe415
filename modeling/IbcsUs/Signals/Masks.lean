import IbcsUs.Core.Bits

/-!
# Masks of signals

A mask of the emulated system is a word whose bit `s - 1` stands for signal `s`;
a `sigset_t` of the kernel has 64 such bits.  `map_sigvec_to_kernel`,
`map_bitvec` and `map_sigvec_from_kernel` translate one into the other by a
table with an entry for each of the signals 1..32, where -1 and 0 stand for no
signal.
-/

namespace IbcsUs.Signals

open IbcsUs.Bits

/-! ## Signal sets -/

/-- A `sigset_t` and the bytes that were written outside it, by their offset. -/
structure SigSet where
  set : BitVec 64
  outside : List ℕ
  deriving DecidableEq

/-- `sigemptyset`. -/
def sigemptyset : SigSet := { set := 0, outside := [] }

/-- `sigaddset`; the number of the signal is not checked. -/
def sigaddset (set : SigSet) (sig : BitVec 32) : SigSet :=
  let g := sig - 1
  let byte := (g >>> 3).toNat
  if byte < 8 then
    { set with set := set.set ||| 1#64 <<< (8 * byte + (g &&& 7).toNat) }
  else { set with outside := byte :: set.outside }

/-- `sigismember`. -/
def sigismember (set : BitVec 64) (sig : ℕ) : Bool :=
  set &&& 1#64 <<< (sig - 1) ≠ 0

/-! ## The loops -/

/-- The loops over the signals from `i` on, with the mask `m` of signal `i`. -/
def eachSignal {σ : Type} (body : ℕ → BitVec 32 → σ → σ) :
    ℕ → ℕ → BitVec 32 → σ → σ
  | 0, _, _, state => state
  | rounds + 1, i, m, state =>
      eachSignal body rounds (i + 1) (m <<< 1) (body i m state)

/-- `map_bitvec`. -/
def mapBitvec (vec : BitVec 32) (map : ℕ → BitVec 32) : BitVec 32 :=
  eachSignal (fun i m newvec =>
    if vec &&& m ≠ 0 ∧ map i ≠ -1 ∧ map i ≠ 0 then
      newvec ||| 1#32 <<< (map i - 1).toNat
    else newvec) 32 1 1 0

/-- `map_sigvec_from_kernel`. -/
def mapSigvecFromKernel (vec : BitVec 64) (map : ℕ → BitVec 32) : BitVec 32 :=
  eachSignal (fun i _ newvec =>
    if sigismember vec i ∧ map i ≠ -1 ∧ map i ≠ 0 then
      newvec ||| 1#32 <<< (map i - 1).toNat
    else newvec) 32 1 1 0

/-- `map_sigvec_to_kernel`. -/
def mapSigvecToKernel (vec : BitVec 32) (map : ℕ → BitVec 32) : SigSet :=
  eachSignal (fun i m newvec =>
    if vec &&& m ≠ 0 ∧ map i ≠ -1 then sigaddset newvec (map i)
    else newvec) 32 1 1 sigemptyset

/-! ## What is meant -/

/-- A signal that the tables know. -/
def IsSignal (word : BitVec 32) : Prop := 1 ≤ word.toNat ∧ word.toNat ≤ 32

instance (word : BitVec 32) : Decidable (IsSignal word) :=
  inferInstanceAs (Decidable (_ ∧ _))

/-- The two tables of a personality. -/
structure TablePair where
  map : ℕ → BitVec 32
  invmap : ℕ → BitVec 32
  map_entry : ∀ s, 1 ≤ s → s ≤ 32 → map s = -1 ∨ map s = 0 ∨ IsSignal (map s)
  invmap_entry : ∀ s, 1 ≤ s → s ≤ 32 →
    invmap s = -1 ∨ invmap s = 0 ∨ IsSignal (invmap s)
  /-- The second table leads back from what the first one maps. -/
  inverse : ∀ s, 1 ≤ s → s ≤ 32 → IsSignal (map s) →
    invmap (map s).toNat = BitVec.ofNat 32 s

/-- Signal `s` is in a mask. -/
def Selected (vec : BitVec 32) (s : ℕ) : Prop :=
  1 ≤ s ∧ s ≤ 32 ∧ vec.getLsbD (s - 1) = true

instance (vec : BitVec 32) (s : ℕ) : Decidable (Selected vec s) :=
  inferInstanceAs (Decidable (_ ∧ _))

/-- The three translations of a mask are right. -/
structure MasksRight (tables : TablePair) (vec : BitVec 32) : Prop where
  contains : ∀ signal, 1 ≤ signal → signal ≤ 64 →
    ((mapSigvecToKernel vec tables.map).set.getLsbD (signal - 1) = true ↔
      signal ≤ 32 ∧ ∃ s, Selected vec s ∧ (tables.map s).toNat = signal)
  inside : (mapSigvecToKernel vec tables.map).outside = []
  low : mapBitvec vec tables.map =
    (mapSigvecToKernel vec tables.map).set.setWidth 32
  back : ∀ s, 1 ≤ s → s ≤ 32 →
    ((mapSigvecFromKernel (mapSigvecToKernel vec tables.map).set
        tables.invmap).getLsbD (s - 1) = true ↔
      Selected vec s ∧ IsSignal (tables.map s))

/-- No signal of the mask has an entry of 0. -/
def MasksMeet (tables : TablePair) (vec : BitVec 32) : Prop :=
  ∀ s, Selected vec s → tables.map s ≠ 0

/-! ## One loop -/

section Loop

variable {σ : Type} {body : ℕ → BitVec 32 → σ → σ} {state : σ}

/-- What every round keeps holds behind the loop. -/
theorem eachSignal_rule (kept : ℕ → σ → Prop) (hstart : kept 1 state)
    (hround : ∀ i state, 1 ≤ i → i ≤ 32 → kept i state →
      kept (i + 1) (body i (1#32 <<< (i - 1)) state)) :
    kept 33 (eachSignal body 32 1 1 state) := by
  have hrun : ∀ rounds i state, 1 ≤ i → i + rounds = 33 → kept i state →
      kept 33 (eachSignal body rounds i (1#32 <<< (i - 1)) state) := by
    intro rounds
    induction rounds with
    | zero =>
        intro i state _ hend hkept
        obtain rfl : i = 33 := hend
        exact hkept
    | succ rounds ih =>
        intro i state hpos hend hkept
        have hnext : 1#32 <<< (i - 1) <<< 1 = 1#32 <<< (i + 1 - 1) := by
          rw [← BitVec.shiftLeft_add]
          congr 1
          omega
        rw [eachSignal, hnext]
        exact ih (i + 1) _ (by omega) (by omega)
          (hround i state hpos (by omega) hkept)
  exact hrun 32 1 state (Nat.le_refl 1) rfl hstart

end Loop

section Bits

variable {vec : BitVec 32} {map : ℕ → BitVec 32} {tables : TablePair}
  {set : SigSet} {sig : BitVec 32} {i s : ℕ}

theorem and_mask_ne_zero (vec : BitVec 32) (hpos : 1 ≤ i) (hle : i ≤ 32) :
    vec &&& 1#32 <<< (i - 1) ≠ 0 ↔ Selected vec i := by
  rw [and_shiftLeft_ne_zero (by omega)]
  exact ⟨fun hbit => ⟨hpos, hle, hbit⟩, fun hselected => hselected.2.2⟩

theorem IsSignal.ne_neg_one (hsig : IsSignal sig) : sig ≠ -1 := by
  rintro rfl
  exact absurd hsig.2 (by decide)

theorem IsSignal.ne_zero (hsig : IsSignal sig) : sig ≠ 0 := by
  rintro rfl
  exact absurd hsig.1 (by decide)

theorem IsSignal.toNat_sub_one (hsig : IsSignal sig) :
    (sig - 1).toNat = sig.toNat - 1 := by
  obtain ⟨hpos, hle⟩ := hsig
  rw [BitVec.toNat_sub_of_le]
  · rfl
  · rwa [BitVec.le_def]

/-- A signal's bit is added to the set. -/
theorem sigaddset_of_isSignal (set : SigSet) (hsig : IsSignal sig) :
    sigaddset set sig =
      { set with set := set.set ||| 1#64 <<< (sig.toNat - 1) } := by
  have hbyte : ((sig - 1) >>> 3).toNat = (sig.toNat - 1) / 8 := by
    rw [BitVec.toNat_ushiftRight, hsig.toNat_sub_one, Nat.shiftRight_eq_div_pow]
  have hbit : ((sig - 1) &&& 7).toNat = (sig.toNat - 1) % 8 := by
    rw [BitVec.toNat_and, hsig.toNat_sub_one]
    exact Nat.and_two_pow_sub_one_eq_mod _ 3
  have hlow : (sig.toNat - 1) / 8 < 8 := by
    have := hsig.2
    omega
  rw [sigaddset]
  simp only [hbyte, hbit, if_pos hlow, Nat.div_add_mod]

/-- An entry of 0 writes far outside the set. -/
theorem sigaddset_zero (set : SigSet) :
    sigaddset set 0 = { set with outside := 0x1fffffff :: set.outside } := rfl

end Bits

/-! ## The bits that the loops add -/

section Images

variable {vec : BitVec 32} {map : ℕ → BitVec 32} {tables : TablePair}
  {chosen : ℕ → Prop} {i s index signal : ℕ}

/-- Bit `index` stands for the entry of a signal chosen before `n`. -/
def Image (chosen : ℕ → Prop) (map : ℕ → BitVec 32) (n index : ℕ) : Prop :=
  ∃ s, 1 ≤ s ∧ s < n ∧ chosen s ∧ IsSignal (map s) ∧
    (map s).toNat = index + 1

theorem not_image_one : ¬ Image chosen map 1 index := by
  rintro ⟨s, hpos, hlt, -⟩
  omega

/-- One more signal. -/
theorem image_succ (hpos : 1 ≤ i) :
    Image chosen map (i + 1) index ↔
      Image chosen map i index ∨
        chosen i ∧ IsSignal (map i) ∧ (map i).toNat = index + 1 := by
  constructor
  · rintro ⟨s, hs, hlt, hrest⟩
    obtain hbefore | rfl := Nat.lt_succ_iff_lt_or_eq.1 hlt
    · exact .inl ⟨s, hs, hbefore, hrest⟩
    · exact .inr hrest
  · rintro (⟨s, hs, hlt, hrest⟩ | hrest)
    · exact ⟨s, hs, Nat.lt_succ_of_lt hlt, hrest⟩
    · exact ⟨i, hpos, Nat.lt_succ_self i, hrest⟩

/-- A signal that has no entry adds nothing. -/
theorem image_succ_of_not (hpos : 1 ≤ i)
    (hnot : ¬ (chosen i ∧ IsSignal (map i))) :
    Image chosen map (i + 1) index ↔ Image chosen map i index := by
  rw [image_succ hpos, or_iff_left]
  exact fun hrest => hnot ⟨hrest.1, hrest.2.1⟩

/-- A signal that has an entry adds its bit. -/
theorem image_succ_of_isSignal (hpos : 1 ≤ i) (hchosen : chosen i)
    (hsig : IsSignal (map i)) :
    Image chosen map (i + 1) index ↔
      Image chosen map i index ∨ index = (map i).toNat - 1 := by
  have hentry := hsig.1
  rw [image_succ hpos]
  apply or_congr Iff.rfl
  constructor
  · rintro ⟨-, -, heq⟩
    omega
  · intro heq
    exact ⟨hchosen, hsig, by omega⟩

/-- The test of the loops that return words. -/
theorem isSignal_iff_of_entry
    (hentry : map i = -1 ∨ map i = 0 ∨ IsSignal (map i)) :
    IsSignal (map i) ↔ map i ≠ -1 ∧ map i ≠ 0 := by
  constructor
  · exact fun hsig => ⟨hsig.ne_neg_one, hsig.ne_zero⟩
  · rintro ⟨hneg, hzero⟩
    exact (hentry.resolve_left hneg).resolve_left hzero

/-- A loop that adds the bits of the chosen entries to a word. -/
theorem eachSignal_image (cond : ℕ → BitVec 32 → Prop)
    [∀ i m, Decidable (cond i m)]
    (hcond : ∀ i, 1 ≤ i → i ≤ 32 →
      (cond i (1#32 <<< (i - 1)) ↔ chosen i ∧ IsSignal (map i)))
    (hindex : index < 32) :
    (eachSignal (fun i m newvec =>
        if cond i m then newvec ||| 1#32 <<< (map i - 1).toNat else newvec)
      32 1 1 0).getLsbD index = true ↔ Image chosen map 33 index := by
  have hall : ∀ index, index < 32 → ((eachSignal (fun i m newvec =>
        if cond i m then newvec ||| 1#32 <<< (map i - 1).toNat else newvec)
      32 1 1 0).getLsbD index = true ↔ Image chosen map 33 index) := by
    apply eachSignal_rule fun n (newvec : BitVec 32) => ∀ index, index < 32 →
      (newvec.getLsbD index = true ↔ Image chosen map n index)
    · intro index _
      exact iff_of_false (by simp) not_image_one
    · intro i newvec hpos hle hkept index hindex
      by_cases hadds : cond i (1#32 <<< (i - 1))
      · obtain ⟨hchosen, hsig⟩ := (hcond i hpos hle).1 hadds
        have hlow : (map i).toNat - 1 < 32 := by
          have := hsig.1
          have := hsig.2
          omega
        rw [if_pos hadds, hsig.toNat_sub_one, getLsbD_or_shiftLeft _ _ _ hlow,
          hkept index hindex, image_succ_of_isSignal hpos hchosen hsig]
      · rw [if_neg hadds, hkept index hindex,
          image_succ_of_not hpos (mt (hcond i hpos hle).2 hadds)]
  exact hall index hindex

/-- `map_bitvec` translates the signals of the mask. -/
theorem getLsbD_mapBitvec (tables : TablePair) (vec : BitVec 32)
    (hindex : index < 32) :
    (mapBitvec vec tables.map).getLsbD index = true ↔
      Image (Selected vec) tables.map 33 index := by
  apply eachSignal_image (fun i m => vec &&& m ≠ 0 ∧ tables.map i ≠ -1 ∧
    tables.map i ≠ 0) _ hindex
  intro i hpos hle
  rw [and_mask_ne_zero vec hpos hle,
    isSignal_iff_of_entry (tables.map_entry i hpos hle)]

/-- `map_sigvec_from_kernel` translates the signals of the set. -/
theorem getLsbD_mapSigvecFromKernel (tables : TablePair) (set : BitVec 64)
    (hindex : index < 32) :
    (mapSigvecFromKernel set tables.invmap).getLsbD index = true ↔
      Image (fun i => set.getLsbD (i - 1) = true) tables.invmap 33 index := by
  apply eachSignal_image (fun i _ => sigismember set i ∧
    tables.invmap i ≠ -1 ∧ tables.invmap i ≠ 0) _ hindex
  intro i hpos hle
  rw [isSignal_iff_of_entry (tables.invmap_entry i hpos hle), sigismember,
    decide_eq_true_eq, and_shiftLeft_ne_zero (by omega)]

/-- The set that the loop of `map_sigvec_to_kernel` has made of the signals
before `n`; an entry of 0 has made it write outside. -/
def KernelSet (tables : TablePair) (vec : BitVec 32) (n : ℕ) (state : SigSet) :
    Prop :=
  (∀ index, index < 64 → (state.set.getLsbD index = true ↔
    Image (Selected vec) tables.map n index)) ∧
  (state.outside = [] ↔ ∀ s, s < n → Selected vec s → tables.map s ≠ 0)

theorem kernelSet_empty (tables : TablePair) (vec : BitVec 32) :
    KernelSet tables vec 1 sigemptyset := by
  constructor
  · intro index _
    exact iff_of_false (by simp [sigemptyset]) not_image_one
  · apply iff_of_true rfl
    intro s hlt hselected
    have hpos := hselected.1
    omega

/-- A signal that is not in the mask, or has no entry. -/
theorem KernelSet.skip {state : SigSet} (hkept : KernelSet tables vec i state)
    (hpos : 1 ≤ i) (hskip : Selected vec i → tables.map i = -1) :
    KernelSet tables vec (i + 1) state := by
  obtain ⟨hset, houtside⟩ := hkept
  constructor
  · intro index hindex
    rw [hset index hindex, image_succ_of_not hpos]
    exact fun hadds => hadds.2.ne_neg_one (hskip hadds.1)
  · rw [houtside, Nat.forall_lt_succ_right, and_iff_left]
    intro hselected
    rw [hskip hselected]
    decide

/-- A signal of the mask with an entry of 0. -/
theorem KernelSet.zero {state : SigSet} (hkept : KernelSet tables vec i state)
    (hpos : 1 ≤ i) (hselected : Selected vec i) (hzero : tables.map i = 0) :
    KernelSet tables vec (i + 1) (sigaddset state (tables.map i)) := by
  rw [hzero, sigaddset_zero]
  constructor
  · intro index hindex
    rw [hkept.1 index hindex, image_succ_of_not hpos]
    exact fun hadds => hadds.2.ne_zero hzero
  · apply iff_of_false
    · exact List.cons_ne_nil _ _
    · exact fun hall => hall i (Nat.lt_succ_self i) hselected hzero

/-- A signal of the mask with a signal as its entry. -/
theorem KernelSet.add {state : SigSet} (hkept : KernelSet tables vec i state)
    (hpos : 1 ≤ i) (hselected : Selected vec i) (hsig : IsSignal (tables.map i)) :
    KernelSet tables vec (i + 1) (sigaddset state (tables.map i)) := by
  have hlow : (tables.map i).toNat - 1 < 64 := by
    have hle := hsig.2
    omega
  rw [sigaddset_of_isSignal _ hsig]
  constructor
  · intro index hindex
    rw [getLsbD_or_shiftLeft _ _ _ hlow, hkept.1 index hindex,
      image_succ_of_isSignal hpos hselected hsig]
  · rw [hkept.2, Nat.forall_lt_succ_right, and_iff_left]
    exact fun _ => hsig.ne_zero

/-- `map_sigvec_to_kernel` translates the signals of the mask; an entry of 0
makes it write outside the set. -/
theorem kernelSet_mapSigvecToKernel (tables : TablePair) (vec : BitVec 32) :
    KernelSet tables vec 33 (mapSigvecToKernel vec tables.map) := by
  apply eachSignal_rule (KernelSet tables vec) (kernelSet_empty tables vec)
  intro i state hpos hle hkept
  have hmask := and_mask_ne_zero vec hpos hle
  by_cases hselected : Selected vec i
  · obtain hneg | hentry := tables.map_entry i hpos hle
    · rw [if_neg fun hadds => hadds.2 hneg]
      exact hkept.skip hpos fun _ => hneg
    · have hadds : tables.map i ≠ -1 := by
        obtain hzero | hsig := hentry
        · rw [hzero]
          decide
        · exact hsig.ne_neg_one
      rw [if_pos ⟨hmask.2 hselected, hadds⟩]
      obtain hzero | hsig := hentry
      · exact hkept.zero hpos hselected hzero
      · exact hkept.add hpos hselected hsig
  · rw [if_neg fun hadds => hselected (hmask.1 hadds.1)]
    exact hkept.skip hpos fun hmember => absurd hmember hselected

end Images

/-! ## The three translations -/

section Translations

variable {tables : TablePair} {vec : BitVec 32} {signal s : ℕ}

/-- The Linux signals of a mask. -/
theorem image_selected_iff (hpos : 1 ≤ signal) :
    Image (Selected vec) tables.map 33 (signal - 1) ↔
      signal ≤ 32 ∧ ∃ s, Selected vec s ∧ (tables.map s).toNat = signal := by
  constructor
  · rintro ⟨s, -, -, hselected, hsig, hentry⟩
    have hsignal : (tables.map s).toNat = signal := by omega
    exact ⟨hsignal ▸ hsig.2, s, hselected, hsignal⟩
  · rintro ⟨hle, s, hselected, hentry⟩
    exact ⟨s, hselected.1, Nat.lt_succ_of_le hselected.2.1, hselected,
      ⟨hentry ▸ hpos, hentry ▸ hle⟩, by omega⟩

/-- `map_bitvec` is the low half of the kernel's set. -/
theorem mapBitvec_eq_low (tables : TablePair) (vec : BitVec 32) :
    mapBitvec vec tables.map =
      (mapSigvecToKernel vec tables.map).set.setWidth 32 := by
  apply eq_of_bits
  intro index hindex
  have hset := (kernelSet_mapSigvecToKernel tables vec).1 index (by omega)
  rw [getLsbD_mapBitvec tables vec hindex, BitVec.getLsbD_setWidth,
    decide_eq_true hindex, Bool.true_and, hset]

/-- The kernel's set leads back to the signals of the mask that are mapped. -/
theorem mapSigvecFromKernel_back (hpos : 1 ≤ s) (hle : s ≤ 32) :
    (mapSigvecFromKernel (mapSigvecToKernel vec tables.map).set
        tables.invmap).getLsbD (s - 1) = true ↔
      Selected vec s ∧ IsSignal (tables.map s) := by
  have hset := (kernelSet_mapSigvecToKernel tables vec).1
  rw [getLsbD_mapSigvecFromKernel tables _ (by omega)]
  constructor
  · rintro ⟨linux, hlinux, hlt, hmember, -, hback⟩
    rw [hset (linux - 1) (by omega)] at hmember
    obtain ⟨source, -, -, hselected, hsig, hentry⟩ := hmember
    have hsource := tables.inverse source hselected.1 hselected.2.1 hsig
    have hnumber : (tables.map source).toNat = linux := by omega
    rw [hnumber] at hsource
    have hvalue : source = s := by
      have hmod : source % 2 ^ 32 = s - 1 + 1 := by
        rw [← hback, hsource, BitVec.toNat_ofNat]
      have := hselected.2.1
      omega
    exact hvalue ▸ ⟨hselected, hsig⟩
  · rintro ⟨hselected, hsig⟩
    have hback := tables.inverse s hpos hle hsig
    have hnumber : (BitVec.ofNat 32 s).toNat = s := by
      rw [BitVec.toNat_ofNat]
      omega
    refine ⟨(tables.map s).toNat, hsig.1, Nat.lt_succ_of_le hsig.2, ?_, ?_, ?_⟩
    · have hlow : (tables.map s).toNat - 1 < 64 := by
        have hentry := hsig.2
        omega
      have hentry := hsig.1
      apply (hset _ hlow).2
      exact ⟨s, hpos, Nat.lt_succ_of_le hle, hselected, hsig, by omega⟩
    · rw [hback, IsSignal, hnumber]
      exact ⟨hpos, hle⟩
    · rw [hback, hnumber]
      omega

/-- The translations of a mask are right exactly when none of its signals has an
entry of 0. -/
theorem masks_right_iff (tables : TablePair) (vec : BitVec 32) :
    MasksRight tables vec ↔ MasksMeet tables vec := by
  obtain ⟨hset, houtside⟩ := kernelSet_mapSigvecToKernel tables vec
  have hmeets : (mapSigvecToKernel vec tables.map).outside = [] ↔
      MasksMeet tables vec := by
    rw [houtside]
    exact ⟨fun hall s hselected =>
        hall s (Nat.lt_succ_of_le hselected.2.1) hselected,
      fun hall s _ => hall s⟩
  constructor
  · exact fun hright => hmeets.1 hright.inside
  · intro hmeet
    refine ⟨?_, hmeets.2 hmeet, mapBitvec_eq_low tables vec, ?_⟩
    · intro signal hpos hle
      rw [hset (signal - 1) (by omega), image_selected_iff hpos]
    · exact fun s hpos hle => mapSigvecFromKernel_back hpos hle

/-- Two tables that know only the first signal, the second signal being left
unmapped by an entry of 0. -/
def sparseTables : TablePair where
  map s := if s = 1 then 1 else if s = 2 then 0 else -1
  invmap s := if s = 1 then 1 else -1
  map_entry := by decide
  invmap_entry := by decide
  inverse := by decide

/-- A mask with the second signal sets a bit half a gigabyte behind the set. -/
theorem masks_unmapped_signal :
    (mapSigvecToKernel 2 sparseTables.map).outside = [0x1fffffff] ∧
      ¬ MasksRight sparseTables 2 := by
  have houtside : (mapSigvecToKernel 2 sparseTables.map).outside =
      [0x1fffffff] := by
    decide
  constructor
  · exact houtside
  · intro hright
    have hinside := hright.inside
    rw [houtside] at hinside
    cases hinside

end Translations

end IbcsUs.Signals
