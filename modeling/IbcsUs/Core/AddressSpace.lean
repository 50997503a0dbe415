import Mathlib.Data.BitVec
import Mathlib.Data.Nat.Cast.Order.Ring
import Mathlib.Order.Nat

/-!
# Address spaces

An address space gives each mapped address its content.  Mapping a range gives
every address of it new content, whether it was mapped before or not; a copy
into memory stops at the first address that is not mapped.
-/

namespace IbcsUs.Addresses

/-- What is mapped, by address. -/
abbrev Space (Content : Type*) := ℕ → Option Content

/-- The address is in the `len` addresses from `start` on. -/
def InRange (start len address : ℕ) : Prop :=
  start ≤ address ∧ address < start + len

instance (start len address : ℕ) : Decidable (InRange start len address) :=
  inferInstanceAs (Decidable (_ ∧ _))

variable {Content : Type*}

/-- The space with a range mapped to the given content. -/
def mapRange (space : Space Content) (start len : ℕ) (content : ℕ → Content) :
    Space Content := fun address =>
  if InRange start len address then some (content (address - start))
  else space address

/-- How many addresses of the range come before the first one that is not
mapped. -/
def mappedRun (space : Space Content) (start : ℕ) : ℕ → ℕ
  | 0 => 0
  | len + 1 =>
      if (space start).isSome then mappedRun space (start + 1) len + 1 else 0

/-- The space after a copy of the content into the range, as far as it is
mapped. -/
def copyInto (space : Space Content) (start len : ℕ) (content : ℕ → Content) :
    Space Content :=
  mapRange space start (mappedRun space start len) content

/-- All that is mapped is mapped to one value. -/
def Constant (space : Space Content) (value : Content) : Prop :=
  ∀ address content, space address = some content → content = value

section MapRange

variable {space : Space Content} {start len address : ℕ}
  {content : ℕ → Content}

theorem mapRange_inside (hin : InRange start len address) :
    mapRange space start len content address =
      some (content (address - start)) := if_pos hin

theorem mapRange_outside (hout : ¬ InRange start len address) :
    mapRange space start len content address = space address := if_neg hout

theorem not_inRange_zero : ¬ InRange start 0 address := by
  simp [InRange]

@[simp]
theorem mapRange_zero : mapRange space start 0 content = space := by
  funext address
  exact mapRange_outside not_inRange_zero

theorem isSome_mapRange :
    (mapRange space start len content address).isSome ↔
      InRange start len address ∨ (space address).isSome := by
  by_cases hin : InRange start len address
  · simp [mapRange_inside hin, hin]
  · simp [mapRange_outside hin, hin]

theorem Constant.remap {value : Content} (hconstant : Constant space value) :
    Constant (mapRange space start len fun _ => value) value := by
  intro address content hcontent
  by_cases hin : InRange start len address
  · rw [mapRange_inside hin] at hcontent
    exact (Option.some.inj hcontent).symm
  · rw [mapRange_outside hin] at hcontent
    exact hconstant address content hcontent

/-- In a constant space what is mapped is known. -/
theorem Constant.eq_some {value : Content} (hconstant : Constant space value)
    (hsome : (space address).isSome) : space address = some value := by
  obtain ⟨content, hcontent⟩ := Option.isSome_iff_exists.1 hsome
  rw [hcontent, hconstant address content hcontent]

/-- What is mapped stays the same when its one value is mapped over it. -/
theorem Constant.remap_eq {value : Content} (hconstant : Constant space value)
    (hsome : ∀ address, InRange start len address → (space address).isSome) :
    mapRange space start len (fun _ => value) = space := by
  funext address
  by_cases hin : InRange start len address
  · rw [mapRange_inside hin, hconstant.eq_some (hsome address hin)]
  · exact mapRange_outside hin

end MapRange

section Copy

variable {space : Space Content} {start len address : ℕ}
  {content : ℕ → Content}

theorem mappedRun_le (space : Space Content) (start len : ℕ) :
    mappedRun space start len ≤ len := by
  induction len generalizing start with
  | zero => exact le_rfl
  | succ len ih =>
      simp only [mappedRun]
      split
      · exact Nat.succ_le_succ (ih (start + 1))
      · exact Nat.zero_le _

/-- The run is the whole range just if the whole range is mapped. -/
theorem mappedRun_eq_iff : mappedRun space start len = len ↔
    ∀ address, InRange start len address → (space address).isSome := by
  induction len generalizing start with
  | zero => simp [mappedRun, InRange]
  | succ len ih =>
      simp only [mappedRun]
      split
      · next hfirst =>
        rw [Nat.succ_inj, ih]
        constructor
        · intro hrest address hin
          obtain rfl | hlater := Nat.eq_or_lt_of_le hin.1
          · exact hfirst
          · refine hrest address ⟨hlater, ?_⟩
            have hend := hin.2
            omega
        · intro hall address hin
          refine hall address ⟨?_, ?_⟩
          · exact (Nat.le_succ start).trans hin.1
          · have hend := hin.2
            omega
      · next hfirst =>
        refine iff_of_false (by omega) fun hall => hfirst ?_
        exact hall start ⟨le_rfl, by omega⟩

theorem mappedRun_of_unmapped (hnone : space start = none) :
    mappedRun space start len = 0 := by
  cases len with
  | zero => rfl
  | succ len => simp [mappedRun, hnone]

theorem copyInto_of_unmapped (hnone : space start = none) :
    copyInto space start len content = space := by
  rw [copyInto, mappedRun_of_unmapped hnone, mapRange_zero]

/-- A copy maps nothing new. -/
theorem isSome_copyInto : (copyInto space start len content address).isSome ↔
    (space address).isSome := by
  rw [copyInto, isSome_mapRange]
  refine or_iff_right_of_imp fun hin => ?_
  suffices hrun : ∀ len start,
      InRange start (mappedRun space start len) address →
        (space address).isSome from hrun len start hin
  intro len
  induction len with
  | zero => exact fun start hin => absurd hin not_inRange_zero
  | succ len ih =>
      intro start hin
      simp only [mappedRun] at hin
      split at hin
      · next hfirst =>
        obtain rfl | hlater := Nat.eq_or_lt_of_le hin.1
        · exact hfirst
        · refine ih (start + 1) ⟨hlater, ?_⟩
          have hend := hin.2
          omega
      · exact absurd hin not_inRange_zero

end Copy

end IbcsUs.Addresses
