import Mathlib.Data.BitVec
import Mathlib.Data.Nat.Cast.Order.Ring
import Mathlib.Order.Nat

/-!
# Words in a memory of bytes

A 32-bit memory holds bytes; a word lies in four of them, the low one first, and
may go over the end of the address space to its start.
-/

namespace IbcsUs.WordMemory

/-- The bytes of the address space. -/
abbrev Memory := BitVec 32 → BitVec 8

/-- The word at an address. -/
def readWord (memory : Memory) (address : BitVec 32) : BitVec 32 :=
  memory (address + 3) ++ memory (address + 2) ++ memory (address + 1) ++
    memory address

/-- A word is put at an address. -/
def writeWord (memory : Memory) (address value : BitVec 32) : Memory :=
  fun other =>
    if (other - address).toNat < 4 then
      value.extractLsb' (8 * (other - address).toNat) 8
    else memory other

/-- The words at two addresses have no byte in common. -/
def Apart (left right : BitVec 32) : Prop :=
  4 ≤ (right - left).toNat ∧ 4 ≤ (left - right).toNat

instance (left right : BitVec 32) : Decidable (Apart left right) :=
  inferInstanceAs (Decidable (_ ∧ _))

section Words

variable {memory : Memory} {address other offset left right value : BitVec 32}

/-- The bytes of a word make it up. -/
theorem append_extractLsb' (value : BitVec 32) :
    value.extractLsb' 24 8 ++ value.extractLsb' 16 8 ++
      value.extractLsb' 8 8 ++ value.extractLsb' 0 8 = value := by
  apply BitVec.eq_of_getLsbD_eq
  intro index hindex
  simp only [BitVec.getLsbD_append, BitVec.getLsbD_extractLsb']
  grind

theorem writeWord_inside (hoffset : offset.toNat < 4) :
    writeWord memory address value (address + offset) =
      value.extractLsb' (8 * offset.toNat) 8 := by
  unfold writeWord
  rw [add_sub_cancel_left, if_pos hoffset]

theorem writeWord_outside (hother : 4 ≤ (other - address).toNat) :
    writeWord memory address value other = memory other :=
  if_neg (Nat.not_lt.mpr hother)

/-- A word that has been put at an address is read there. -/
theorem readWord_writeWord :
    readWord (writeWord memory address value) address = value := by
  have hzero : writeWord memory address value (address + 0) =
      value.extractLsb' 0 8 := writeWord_inside (by decide)
  have hone : writeWord memory address value (address + 1) =
      value.extractLsb' 8 8 := writeWord_inside (by decide)
  have htwo : writeWord memory address value (address + 2) =
      value.extractLsb' 16 8 := writeWord_inside (by decide)
  have hthree : writeWord memory address value (address + 3) =
      value.extractLsb' 24 8 := writeWord_inside (by decide)
  rw [add_zero] at hzero
  unfold readWord
  rw [hzero, hone, htwo, hthree]
  exact append_extractLsb' value

/-- A word is put where it stands already. -/
theorem writeWord_self (memory : Memory) (address : BitVec 32) :
    writeWord memory address (readWord memory address) = memory := by
  have hzero : (readWord memory address).extractLsb' 0 8 = memory address := by
    apply BitVec.eq_of_getLsbD_eq
    intro index hindex
    simp only [readWord, BitVec.getLsbD_extractLsb', BitVec.getLsbD_append]
    grind
  have hone : (readWord memory address).extractLsb' 8 8 =
      memory (address + 1) := by
    apply BitVec.eq_of_getLsbD_eq
    intro index hindex
    simp only [readWord, BitVec.getLsbD_extractLsb', BitVec.getLsbD_append]
    grind
  have htwo : (readWord memory address).extractLsb' 16 8 =
      memory (address + 2) := by
    apply BitVec.eq_of_getLsbD_eq
    intro index hindex
    simp only [readWord, BitVec.getLsbD_extractLsb', BitVec.getLsbD_append]
    grind
  have hthree : (readWord memory address).extractLsb' 24 8 =
      memory (address + 3) := by
    apply BitVec.eq_of_getLsbD_eq
    intro index hindex
    simp only [readWord, BitVec.getLsbD_extractLsb', BitVec.getLsbD_append]
    grind
  funext other
  rw [writeWord]
  split_ifs with hinside
  · obtain ⟨offset, rfl⟩ : ∃ offset, other = address + offset :=
      ⟨other - address, (add_sub_cancel address other).symm⟩
    rw [add_sub_cancel_left] at hinside ⊢
    have hcases : offset = 0 ∨ offset = 1 ∨ offset = 2 ∨ offset = 3 := by
      simp only [← BitVec.toNat_inj]
      change _ = 0 ∨ _ = 1 ∨ _ = 2 ∨ _ = 3
      omega
    obtain rfl | rfl | rfl | rfl := hcases
    · rw [add_zero]
      exact hzero
    · exact hone
    · exact htwo
    · exact hthree
  · rfl

theorem Apart.byte (hapart : Apart address other) (hoffset : offset.toNat < 4) :
    4 ≤ (other + offset - address).toNat := by
  obtain ⟨hright, hleft⟩ := hapart
  simp only [BitVec.toNat_sub, BitVec.toNat_add] at hright hleft ⊢
  omega

/-- A word apart from one that is put is read as before. -/
theorem readWord_writeWord_of_apart (hapart : Apart address other) :
    readWord (writeWord memory address value) other = readWord memory other := by
  have hbyte : ∀ offset : BitVec 32, offset.toNat < 4 →
      writeWord memory address value (other + offset) = memory (other + offset) :=
    fun offset hoffset => writeWord_outside (hapart.byte hoffset)
  have hzero := hbyte 0 (by decide)
  rw [add_zero] at hzero
  unfold readWord
  rw [hzero, hbyte 1 (by decide), hbyte 2 (by decide), hbyte 3 (by decide)]

theorem apart_offsets (base left right : BitVec 32) :
    Apart (base + left) (base + right) ↔ Apart left right := by
  unfold Apart
  rw [add_sub_add_left_eq_sub, add_sub_add_left_eq_sub]

/-- Words at offsets from one address. -/
theorem readWord_writeWord_offset (hapart : Apart left right) :
    readWord (writeWord memory (address + left) value) (address + right) =
      readWord memory (address + right) :=
  readWord_writeWord_of_apart ((apart_offsets address left right).mpr hapart)

end Words

/-! ## Words at offsets -/

/-- Words are put at offsets from one address, one after the other. -/
def writeWords (memory : Memory) (base : BitVec 32) :
    List (BitVec 32 × BitVec 32) → Memory
  | [] => memory
  | entry :: entries =>
      writeWords (writeWord memory (base + entry.1) entry.2) base entries

section Offsets

variable {base offset value : BitVec 32} {entries : List (BitVec 32 × BitVec 32)}

theorem readWord_writeWords_of_apart (memory : Memory)
    (hapart : ∀ entry ∈ entries, Apart entry.1 offset) :
    readWord (writeWords memory base entries) (base + offset) =
      readWord memory (base + offset) := by
  induction entries generalizing memory with
  | nil => rfl
  | cons entry entries ih =>
    rw [writeWords, ih _ fun other hother =>
      hapart other (List.mem_cons_of_mem entry hother)]
    exact readWord_writeWord_offset (hapart entry List.mem_cons_self)

/-- Of words that are apart from each other, each is read where it has been put.
-/
theorem readWord_writeWords (memory : Memory)
    (hapart : (entries.map Prod.fst).Pairwise Apart)
    (hentry : (offset, value) ∈ entries) :
    readWord (writeWords memory base entries) (base + offset) = value := by
  induction entries generalizing memory with
  | nil => cases hentry
  | cons entry entries ih =>
    rw [List.map_cons, List.pairwise_cons] at hapart
    rw [writeWords]
    cases hentry with
    | head =>
      rw [readWord_writeWords_of_apart, readWord_writeWord]
      intro other hother
      obtain ⟨hright, hleft⟩ := hapart.1 other.1 (List.mem_map_of_mem hother)
      exact ⟨hleft, hright⟩
    | tail _ hentry => exact ih _ hapart.2 hentry

end Offsets

end IbcsUs.WordMemory
