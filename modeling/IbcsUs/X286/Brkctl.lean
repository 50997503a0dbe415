import IbcsUs.Core.Runs
import IbcsUs.X286.SegmentTable

/-!
# What the memory calls do to the segment table

`int_brkctl` serves four commands and checks for each of them only some of what it
relies on.  The invariant of the table is kept by a call exactly when the call is in
range, and every other call breaks it: a command that is none of the known three may
name any segment, the command for the last segment may shrink it below nothing, and
the negation of the smallest increment is itself.
-/

namespace IbcsUs.X286

open Runs

/-- What a call has to leave behind: a table in order, the segments below `base_desc`
as they were, and all of the table as it was when it returns -1. -/
structure CallRight (table : Table) (outcome : Outcome) : Prop where
  inv : outcome.table.Inv
  base : outcome.table.baseDesc = table.baseDesc
  below : ∀ seg < table.baseDesc, outcome.table.ldt seg = table.ldt seg
  refused : outcome.ret = -1 → outcome.table.lastDesc = table.lastDesc ∧
    ∀ seg ≤ table.lastDesc, outcome.table.ldt seg = table.ldt seg

/-- The call indexes the table within its bounds and does what it has to. -/
def CallSafe (table : Table) (result : Option Outcome) : Prop :=
  ∃ outcome, result = some outcome ∧ CallRight table outcome

@[simp]
theorem callSafe_some {table : Table} {outcome : Outcome} :
    CallSafe table (some outcome) ↔ CallRight table outcome := by
  simp [CallSafe]

@[simp]
theorem not_callSafe_none {table : Table} : ¬ CallSafe table none := by
  simp [CallSafe]

/-- The limit of a segment, if it is one of the program's, stays in order. -/
def LimitInRange (table : Table) (incr : ℤ) (seg : ℕ) : Prop :=
  -1 ≤ (table.ldt seg).limit + incr ∧
    (table.ldt seg).limit + incr ≤ (table.ldt seg).rlimit

/-- A segment may be resized when it is not below `base_desc`, or stays as it is, and,
if it is one of the program's, its limits stay in order. -/
def Resizable (table : Table) (incr : ℤ) (seg : ℕ) : Prop :=
  (seg < table.baseDesc → incr = 0) ∧
    (table.baseDesc ≤ seg → seg ≤ table.lastDesc → LimitInRange table incr seg)

/-- The arguments `int_brkctl` handles: what its first test refuses; the command
for a given segment unless the increment is the smallest integer; the command for a
new segment; the command for the last segment, unless it shrinks it by more than
there is; and any other command, when the index lies in the table and the segment
may be resized. -/
def BrkctlInRange (table : Table) (cmd : ℕ) (incr : ℤ) (seg : ℕ) : Prop :=
  0x10000 < incr ∨
  (cmd = brArgseg ∧ (incr = -2 ^ 31 → seg < table.baseDesc ∨ table.lastDesc < seg)) ∨
  cmd = brNewseg ∨
  (cmd = brImpseg ∧ (incr < 0 → -1 ≤ (table.ldt table.lastDesc).limit + incr)) ∨
  (cmd ≠ brArgseg ∧ cmd ≠ brNewseg ∧ cmd ≠ brImpseg ∧ seg < maxSegments ∧
    Resizable table incr seg)

/-! ## Changing one entry -/

namespace Table

variable {table : Table} {seg : ℕ} {desc : LdtDesc}

theorem Inv.limit_mem (hinv : table.Inv) (hlow : table.baseDesc ≤ seg)
    (hhigh : seg ≤ table.lastDesc) :
    -1 ≤ (table.ldt seg).limit ∧ (table.ldt seg).limit ≤ 0xffff := by
  obtain ⟨hmin, hmax, hr⟩ := hinv.bounded seg hlow hhigh
  exact ⟨hmin, by omega⟩

/-- An entry may be replaced by one whose limits are in order, or, if it is none of
the program's, by any other. -/
theorem Inv.set (hinv : table.Inv) (hlong : long desc.limit = desc.limit)
    (hdesc : table.baseDesc ≤ seg → seg ≤ table.lastDesc → Bounded desc) :
    (table.set seg desc).Inv where
  base_le := hinv.base_le
  last_lt := hinv.last_lt
  limit_long other := by
    by_cases hother : other = seg
    · rw [hother, set_ldt_self]
      exact hlong
    · rw [set_ldt_of_ne _ _ hother]
      exact hinv.limit_long other
  bounded other hlow hhigh := by
    by_cases hother : other = seg
    · subst hother
      rw [set_ldt_self]
      exact hdesc hlow hhigh
    · rw [set_ldt_of_ne _ _ hother]
      exact hinv.bounded other hlow hhigh

end Table

section Calls

variable {table : Table} {eax malloc cmd seg : ℕ} {incr : ℤ} {large : Bool}

/-- A refusal changes nothing the program has. -/
theorem callRight_refused (hinv : table.Inv) (xerrno : ℕ) :
    CallRight table (refused eax table xerrno) where
  inv := hinv
  base := rfl
  below _ _ := rfl
  refused _ := ⟨rfl, fun _ _ => rfl⟩

/-! ## A segment there is -/

theorem resizeSegment_table (table : Table) (incr : ℤ) (seg : ℕ) :
    (resizeSegment table incr seg).table =
      table.setLimit seg (long ((table.ldt seg).limit + incr)) := by
  simp only [resizeSegment]
  split_ifs <;> rfl

theorem selector_lt (hseg : seg ≤ maxSegments) : selector seg < 2 ^ 12 := by
  simp only [selector, maxSegments] at *
  omega

/-- The value for a segment of the program is an offset and a selector, which are
never -1 together. -/
theorem ret_ne_of_lt {eax ebx : ℕ} (heax : eax < 2 ^ 16) (hebx : ebx < 2 ^ 12) :
    long (eax + ebx * 2 ^ 16) ≠ -1 := by
  rw [long_of_mem (by omega) (by omega)]
  omega

theorem ret_resizeSegment_ne (hinv : table.Inv) (hlow : table.baseDesc ≤ seg)
    (hhigh : seg ≤ table.lastDesc) (hlimit : -1 ≤ (table.ldt seg).limit + incr) :
    (resizeSegment table incr seg).ret ≠ -1 := by
  obtain ⟨hmin, hmax⟩ := hinv.limit_mem hlow hhigh
  have hlast := hinv.last_lt
  simp only [resizeSegment]
  split_ifs with hsign hfull
  · exact ret_ne_of_lt (by decide) (selector_lt (by omega))
  · have heax : (ulong ((table.ldt seg).limit + 1) : ℤ) = (table.ldt seg).limit + 1 :=
      ulong_of_mem (by omega) (by omega)
    exact ret_ne_of_lt (by omega) (selector_lt (by omega))
  · have heax : (ulong ((table.ldt seg).limit + incr + 1) : ℤ) =
        (table.ldt seg).limit + incr + 1 := ulong_of_mem (by omega) (by omega)
    exact ret_ne_of_lt (by omega) (selector_lt (by omega))

theorem resizable_of_callRight (hinv : table.Inv) (hmin : -2 ^ 31 ≤ incr)
    (hmax : incr ≤ 0x10000)
    (hright : CallRight table (resizeSegment table incr seg)) :
    Resizable table incr seg := by
  have htable := resizeSegment_table table incr seg
  refine ⟨fun hbelow => ?_, fun hlow hhigh => ?_⟩
  · have hsame := congrArg LdtDesc.limit (hright.below seg hbelow)
    rw [htable, Table.setLimit, Table.set_ldt_self] at hsame
    simp only [long] at hsame
    omega
  · obtain ⟨hleast, hmost⟩ := hinv.limit_mem hlow hhigh
    obtain ⟨-, -, hrlimit⟩ := hinv.bounded seg hlow hhigh
    have hafter := hright.inv.bounded seg (hright.base ▸ hlow)
      (by rw [htable]; exact hhigh)
    rw [htable, Table.setLimit, Table.set_ldt_self] at hafter
    obtain ⟨hleft, hright', -⟩ := hafter
    simp only [long] at hleft hright'
    constructor <;> omega

theorem callRight_of_resizable (hinv : table.Inv)
    (hresizable : Resizable table incr seg) :
    CallRight table (resizeSegment table incr seg) := by
  have htable := resizeSegment_table table incr seg
  obtain ⟨hbelow, hprogram⟩ := hresizable
  have hzero : seg < table.baseDesc →
      (table.setLimit seg (long ((table.ldt seg).limit + incr))) = table := by
    intro hbase
    rw [hbelow hbase, add_zero, hinv.limit_long]
    exact congrArg (fun ldt => Table.mk ldt _ _) (Function.update_eq_self ..)
  refine ⟨?_, by rw [htable]; rfl, fun other hother => ?_, fun hret => ?_⟩
  · rw [htable]
    refine hinv.set (long_long _) fun hlow hhigh => ?_
    obtain ⟨hleast, hmost⟩ := hprogram hlow hhigh
    obtain ⟨-, -, hrlimit⟩ := hinv.bounded seg hlow hhigh
    have hlong : long ((table.ldt seg).limit + incr) = (table.ldt seg).limit + incr :=
      long_of_mem (by omega) (by omega)
    exact ⟨by rw [hlong]; exact hleast, by rw [hlong]; exact hmost, hrlimit⟩
  · rw [htable]
    by_cases hseg : other = seg
    · rw [hzero (hseg ▸ hother)]
    · exact Table.set_ldt_of_ne _ _ hseg
  · rw [htable]
    refine ⟨rfl, fun other hother => ?_⟩
    by_cases hseg : other = seg
    · have hbase : seg < table.baseDesc := by
        by_contra hnot
        exact ret_resizeSegment_ne hinv (by omega) (by omega)
          (hprogram (by omega) (by omega)).1 hret
      rw [hzero hbase]
    · exact Table.set_ldt_of_ne _ _ hseg

/-! ## A new segment -/

/-- A segment that `malloc` has provided, of `incr` bytes. -/
theorem callRight_added (hinv : table.Inv) (hroom : table.lastDesc + 1 < maxSegments)
    (hlow : 0 ≤ incr) (hhigh : incr ≤ 0x10000) :
    CallRight table
      (finish { table.set (table.lastDesc + 1) ⟨malloc, -1, 0x12, 3, 0xffff⟩ with
          lastDesc := table.lastDesc + 1 }
        0 (selector (table.lastDesc + 1)) incr (table.lastDesc + 1)) := by
  have hbase := hinv.base_le
  have hsame : ∀ other, other ≠ table.lastDesc + 1 →
      (finish { table.set (table.lastDesc + 1) ⟨malloc, -1, 0x12, 3, 0xffff⟩ with
          lastDesc := table.lastDesc + 1 }
        0 (selector (table.lastDesc + 1)) incr (table.lastDesc + 1)).table.ldt other =
        table.ldt other := by
    intro other hother
    simp only [finish, Table.setLimit]
    rw [Table.set_ldt_of_ne _ _ hother]
    exact Table.set_ldt_of_ne _ _ hother
  have hnew : ((finish { table.set (table.lastDesc + 1)
          ⟨malloc, -1, 0x12, 3, 0xffff⟩ with lastDesc := table.lastDesc + 1 }
        0 (selector (table.lastDesc + 1)) incr (table.lastDesc + 1)).table.ldt
          (table.lastDesc + 1)) = ⟨malloc, -1 + incr, 0x12, 3, 0xffff⟩ := by
    simp only [finish, Table.setLimit, Table.set_ldt_self]
    rw [long_of_mem (by omega) (by omega)]
  refine ⟨⟨?_, hroom, fun other => ?_, fun other hleast hmost => ?_⟩, rfl,
    fun other hother => hsame other (by omega), fun hret => ?_⟩
  · show table.baseDesc ≤ table.lastDesc + 1
    omega
  · by_cases hother : other = table.lastDesc + 1
    · rw [hother, hnew]
      exact long_of_mem (by dsimp only; omega) (by dsimp only; omega)
    · rw [hsame other hother]
      exact hinv.limit_long other
  · by_cases hother : other = table.lastDesc + 1
    · rw [hother, hnew]
      exact ⟨by dsimp only; omega, by dsimp only; omega, le_rfl⟩
    · rw [hsame other hother]
      have hle : other ≤ table.lastDesc + 1 := hmost
      exact hinv.bounded other hleast (by omega)
  · exact absurd hret (ret_ne_of_lt (by decide) (selector_lt (by omega)))

theorem callRight_newSegment (hinv : table.Inv) (hlow : 0 ≤ incr)
    (hhigh : incr ≤ 0x10000) :
    CallRight table (newSegment large table eax malloc cmd incr) := by
  simp only [newSegment]
  split_ifs with honly hfull hmalloc
  · exact callRight_refused hinv _
  · exact callRight_refused hinv _
  · refine ⟨hinv.set (hinv.limit_long _) fun _ hlast => by omega, rfl,
      fun other hother => ?_, fun _ => ⟨rfl, fun other hother => ?_⟩⟩
    · have hbase := hinv.base_le
      exact Table.set_ldt_of_ne _ _ (by omega)
    · exact Table.set_ldt_of_ne _ _ (by omega)
  · exact callRight_added hinv (by simp only [maxSegments] at *; omega) hlow hhigh

/-! ## `int_brkctl` -/

theorem callSafe_resize_iff (hinv : table.Inv) (hmin : -2 ^ 31 ≤ incr)
    (hmax : incr ≤ 0x10000) :
    CallSafe table (some (resizeSegment table incr seg)) ↔ Resizable table incr seg :=
  callSafe_some.trans
    ⟨resizable_of_callRight hinv hmin hmax, callRight_of_resizable hinv⟩

theorem brkctlInRange_argseg :
    BrkctlInRange table brArgseg incr seg ↔
      0x10000 < incr ∨
        (incr = -2 ^ 31 → seg < table.baseDesc ∨ table.lastDesc < seg) := by
  simp [BrkctlInRange, brArgseg, brNewseg, brImpseg]

theorem brkctlInRange_impseg :
    BrkctlInRange table brImpseg incr seg ↔
      0x10000 < incr ∨
        (incr < 0 → -1 ≤ (table.ldt table.lastDesc).limit + incr) := by
  simp [BrkctlInRange, brArgseg, brNewseg, brImpseg]

/-- What passes the tests for a given segment can be resized, unless the increment is
the smallest integer, whose negation wraps. -/
theorem resizable_iff_of_tests (hinv : table.Inv) (hlow : table.baseDesc ≤ seg)
    (hhigh : seg ≤ table.lastDesc) (hmin : -2 ^ 31 ≤ incr) (hsmall : incr ≤ 0x10000)
    (henough : incr < 0 → long (-incr) ≤ (table.ldt seg).limit + 1)
    (hroom : 0 ≤ incr → ulong ((table.ldt seg).limit + incr) ≤ (table.ldt seg).rlimit) :
    Resizable table incr seg ↔ incr ≠ -2 ^ 31 := by
  obtain ⟨hleast, hmost⟩ := hinv.limit_mem hlow hhigh
  obtain ⟨-, hlimit, hrlimit⟩ := hinv.bounded seg hlow hhigh
  constructor
  · intro hresizable hsmallest
    obtain ⟨hleft, -⟩ := hresizable.2 hlow hhigh
    omega
  · intro hsmallest
    refine ⟨fun hbelow => absurd hlow (by omega), fun _ _ => ?_⟩
    by_cases hsign : 0 ≤ incr
    · have hle := hroom hsign
      have hsum : 0 ≤ (table.ldt seg).limit + incr ∨
          (table.ldt seg).limit + incr = -1 := by omega
      refine ⟨by omega, ?_⟩
      obtain hpos | hneg := hsum
      · have hulong := ulong_of_mem hpos (by omega)
        omega
      · omega
    · have hmore := henough (by omega)
      rw [long_of_mem (by omega) (by omega)] at hmore
      exact ⟨by omega, by omega⟩

/-- The command for a given segment. -/
theorem callSafe_argseg_iff (hinv : table.Inv) (hmin : -2 ^ 31 ≤ incr)
    (hmax : incr < 2 ^ 31) :
    CallSafe table (intBrkctl large table eax malloc brArgseg incr seg) ↔
      BrkctlInRange table brArgseg incr seg := by
  rw [brkctlInRange_argseg]
  by_cases hrange : seg < table.baseDesc ∨ table.lastDesc < seg
  · rw [intBrkctl, if_pos (.inl ⟨rfl, hrange⟩)]
    exact iff_of_true (callSafe_some.mpr (callRight_refused hinv _))
      (.inr fun _ => hrange)
  have hlow : table.baseDesc ≤ seg := by omega
  have hhigh : seg ≤ table.lastDesc := by omega
  obtain ⟨hleast, hmost⟩ := hinv.limit_mem hlow hhigh
  have hlt := hinv.last_lt
  have hnext : long ((table.ldt seg).limit + 1) = (table.ldt seg).limit + 1 :=
    long_of_mem (by omega) (by omega)
  by_cases hrefuses : brkctlRefuses table brArgseg incr seg
  · rw [intBrkctl, if_pos hrefuses]
    refine iff_of_true (callSafe_some.mpr (callRight_refused hinv _)) ?_
    obtain ⟨-, hout⟩ | hbig | ⟨himp, -⟩ | ⟨-, hneg, hmore⟩ := hrefuses
    · exact absurd hout hrange
    · exact .inl hbig
    · cases himp
    · refine .inr fun hsmallest => ?_
      rw [hnext, hsmallest] at hmore
      simp only [long] at hmore
      omega
  rw [intBrkctl, if_neg hrefuses]
  simp only [brkctlRefuses, hnext, not_or, not_and, not_lt] at hrefuses
  obtain ⟨-, hsmall, -, henough⟩ := hrefuses
  rw [if_neg (by decide : ¬ brArgseg = brImpseg),
    if_neg (fun h => absurd h.2 (by decide)), if_neg (not_le.mpr (hhigh.trans_lt hlt))]
  by_cases hover : 0 ≤ incr ∧ brArgseg = brArgseg ∧
      (table.ldt seg).rlimit < ulong ((table.ldt seg).limit + incr)
  · rw [if_pos hover]
    exact iff_of_true (callSafe_some.mpr (callRight_refused hinv _))
      (.inr fun hsmallest => by omega)
  rw [if_neg hover, if_neg (fun h => absurd h.2.1 (by decide)),
    callSafe_resize_iff hinv hmin hsmall,
    resizable_iff_of_tests hinv hlow hhigh hmin hsmall (henough trivial)
      (fun hsign => not_lt.mp fun hlt => hover ⟨hsign, rfl, hlt⟩),
    or_iff_right (not_lt.mpr hsmall)]
  exact ⟨fun hsmallest heq => absurd heq hsmallest, fun hnot heq => hrange (hnot heq)⟩

/-- The command for a new segment is always safe. -/
theorem callSafe_newseg (hinv : table.Inv) :
    CallSafe table (intBrkctl large table eax malloc brNewseg incr seg) := by
  by_cases hrefuses : brkctlRefuses table brNewseg incr seg
  · rw [intBrkctl, if_pos hrefuses]
    exact callSafe_some.mpr (callRight_refused hinv _)
  rw [intBrkctl, if_neg hrefuses]
  simp only [brkctlRefuses, not_or, not_and] at hrefuses
  obtain ⟨-, hsmall, hsign, -⟩ := hrefuses
  have hsign := hsign trivial
  rw [if_pos ⟨by omega, rfl⟩]
  exact callSafe_some.mpr (callRight_newSegment hinv (by omega) (by omega))

/-- The command for the last segment. -/
theorem callSafe_impseg_iff (hinv : table.Inv) (hmin : -2 ^ 31 ≤ incr) :
    CallSafe table (intBrkctl large table eax malloc brImpseg incr seg) ↔
      BrkctlInRange table brImpseg incr seg := by
  rw [brkctlInRange_impseg]
  obtain ⟨hleast, hmost⟩ := hinv.limit_mem hinv.base_le le_rfl
  obtain ⟨-, hlimit, hrlimit⟩ := hinv.bounded _ hinv.base_le le_rfl
  by_cases hbig : 0x10000 < incr
  · rw [intBrkctl, if_pos (.inr (.inl hbig))]
    exact iff_of_true (callSafe_some.mpr (callRight_refused hinv _)) (.inl hbig)
  have hrefuses : ¬ brkctlRefuses table brImpseg incr seg := by
    rintro (⟨hcmd, -⟩ | hover | ⟨hcmd, -⟩ | ⟨hcmd, -⟩)
    · cases hcmd
    · exact hbig hover
    · cases hcmd
    · cases hcmd
  rw [intBrkctl, if_neg hrefuses, if_pos rfl, if_neg (fun h => absurd h.2 (by decide)),
    if_neg (not_le.mpr hinv.last_lt), if_neg (fun h => absurd h.2.1 (by decide))]
  by_cases hover : 0 ≤ incr ∧ brImpseg = brImpseg ∧
      ((table.ldt table.lastDesc).rlimit : ℤ) <
        long ((table.ldt table.lastDesc).limit + incr)
  · rw [if_pos hover]
    exact iff_of_true
      (callSafe_some.mpr (callRight_newSegment hinv hover.1 (by omega)))
      (.inr fun hneg => by omega)
  rw [if_neg hover, callSafe_resize_iff hinv hmin (by omega)]
  constructor
  · exact fun hresizable => .inr fun _ => (hresizable.2 hinv.base_le le_rfl).1
  · intro hcond
    refine ⟨fun hbelow => absurd hinv.base_le (by omega), fun _ _ => ?_⟩
    by_cases hsign : 0 ≤ incr
    · have hle := not_lt.mp fun hlt => hover ⟨hsign, rfl, hlt⟩
      rw [long_of_mem (by omega) (by omega)] at hle
      exact ⟨by omega, hle⟩
    · obtain hover' | henough := hcond
      · exact absurd hover' hbig
      · have := henough (by omega)
        exact ⟨this, by omega⟩

/-- The commands that `int_brkctl` does not know. -/
theorem callSafe_other_iff (hinv : table.Inv) (hmin : -2 ^ 31 ≤ incr)
    (harg : cmd ≠ brArgseg) (hnew : cmd ≠ brNewseg) (himp : cmd ≠ brImpseg) :
    CallSafe table (intBrkctl large table eax malloc cmd incr seg) ↔
      BrkctlInRange table cmd incr seg := by
  have hcond : BrkctlInRange table cmd incr seg ↔
      0x10000 < incr ∨ (seg < maxSegments ∧ Resizable table incr seg) := by
    simp [BrkctlInRange, harg, hnew, himp]
  rw [hcond]
  by_cases hbig : 0x10000 < incr
  · rw [intBrkctl, if_pos (.inr (.inl hbig))]
    exact iff_of_true (callSafe_some.mpr (callRight_refused hinv _)) (.inl hbig)
  have hrefuses : ¬ brkctlRefuses table cmd incr seg := by
    rintro (⟨hcmd, -⟩ | hover | ⟨hcmd, -⟩ | ⟨hcmd, -⟩)
    · exact harg hcmd
    · exact hbig hover
    · exact hnew hcmd
    · exact harg hcmd
  rw [intBrkctl, if_neg hrefuses, if_neg himp, if_neg (fun h => hnew h.2)]
  by_cases hout : maxSegments ≤ seg
  · rw [if_pos hout]
    refine iff_of_false not_callSafe_none ?_
    rintro (hover | ⟨hin, -⟩)
    · exact hbig hover
    · omega
  rw [if_neg hout, if_neg (fun h => harg h.2.1), if_neg (fun h => himp h.2.1),
    callSafe_resize_iff hinv hmin (by omega)]
  constructor
  · exact fun hresizable => .inr ⟨by omega, hresizable⟩
  · rintro (hover | ⟨-, hresizable⟩)
    · exact absurd hover hbig
    · exact hresizable

/-- `int_brkctl` is safe exactly for the arguments in range. -/
theorem callSafe_intBrkctl_iff (hinv : table.Inv) (hmin : -2 ^ 31 ≤ incr)
    (hmax : incr < 2 ^ 31) :
    CallSafe table (intBrkctl large table eax malloc cmd incr seg) ↔
      BrkctlInRange table cmd incr seg := by
  by_cases harg : cmd = brArgseg
  · rw [harg]
    exact callSafe_argseg_iff hinv hmin hmax
  by_cases hnew : cmd = brNewseg
  · rw [hnew]
    exact iff_of_true (callSafe_newseg hinv) (.inr (.inr (.inl rfl)))
  by_cases himp : cmd = brImpseg
  · rw [himp]
    exact callSafe_impseg_iff hinv hmin
  exact callSafe_other_iff hinv hmin harg hnew himp

end Calls

/-! ## The calls -/

section MemoryCalls

variable {settings : Settings} {table : Table}

theorem brkctlArgs_incr_mem (large : Bool) (sc : Sigcontext) :
    -2 ^ 31 ≤ (brkctlArgs large sc).incr ∧ (brkctlArgs large sc).incr < 2 ^ 31 := by
  cases large <;> exact long_mem _

/-- The increment of `brk` leads to a limit of at least -1. -/
theorem brkctlInRange_brk {ofset seg : ℕ} (hinv : table.Inv) (hlt : ofset < 2 ^ 16) :
    BrkctlInRange table brArgseg (long (ofset - (table.ldt seg).limit - 1)) seg := by
  rw [brkctlInRange_argseg]
  refine .inr fun hsmallest => ?_
  by_contra hprogram
  have hlow : table.baseDesc ≤ seg := by omega
  obtain ⟨hleast, hmost⟩ := hinv.limit_mem hlow (by omega)
  rw [long_of_mem (by omega) (by omega)] at hsmallest
  omega

/-- `brk` takes the command for a given segment. -/
theorem callSafe_emuBrk (hinv : table.Inv) (sc : Sigcontext) (malloc : ℕ) :
    CallSafe table (emuBrk settings table sc malloc) := by
  set ofset := if settings.large then (sc.stkladdr 0).toNat else sc.ebx.toNat % 2 ^ 16
    with hofset
  set seg := if settings.large then (sc.stkladdr 1).toNat >>> 3 else sc.ds.toNat >>> 3
    with hseg
  by_cases hout : maxSegments ≤ seg
  · have hresult : emuBrk settings table sc malloc =
        some ⟨table, sc.eax.toNat, sc.ebx.toNat, einval, -1⟩ := by
      simp only [emuBrk]
      exact if_pos hout
    rw [hresult]
    exact callSafe_some.mpr ⟨hinv, rfl, fun _ _ => rfl, fun _ => ⟨rfl, fun _ _ => rfl⟩⟩
  have hresult : emuBrk settings table sc malloc =
      (intBrkctl settings.large table 0 malloc brArgseg
        (long (ofset - (table.ldt seg).limit - 1)) seg).map fun outcome =>
          { outcome with
            eax := sc.eax.toNat
            ebx := sc.ebx.toNat
            ret := if outcome.ret = -1 then -1 else 0 } := by
    simp only [emuBrk]
    exact if_neg hout
  have hlt : ofset < 2 ^ 16 := by
    rw [hofset]
    split
    · exact (sc.stkladdr 0).isLt
    · exact Nat.mod_lt _ (by decide)
  obtain ⟨hmin, hmax⟩ := long_mem (ofset - (table.ldt seg).limit - 1)
  have hsafe : CallSafe table (intBrkctl settings.large table 0 malloc brArgseg
      (long (ofset - (table.ldt seg).limit - 1)) seg) :=
    (callSafe_intBrkctl_iff hinv hmin hmax).mpr (brkctlInRange_brk hinv hlt)
  obtain ⟨outcome, hcall, hright⟩ := hsafe
  rw [hresult, hcall, Option.map_some]
  refine callSafe_some.mpr ⟨hright.inv, hright.base, hright.below, fun hret => ?_⟩
  refine hright.refused ?_
  by_contra hne
  rw [show (if outcome.ret = -1 then (-1 : ℤ) else 0) = 0 from if_neg hne] at hret
  cases hret

/-- `stkgro` changes `rlimit` of the stack's segment to no less than its limit. -/
theorem callSafe_emuStkgro (hinv : table.Inv) (sc : Sigcontext) :
    CallSafe table (emuStkgro settings table sc) := by
  have hunchanged : ∀ xerrno ret, CallRight table
      ⟨table, sc.eax.toNat, sc.ebx.toNat, xerrno, ret⟩ := fun _ _ =>
    ⟨hinv, rfl, fun _ _ => rfl, fun _ => ⟨rfl, fun _ _ => rfl⟩⟩
  obtain ⟨hleast, hmost⟩ := hinv.limit_mem le_rfl hinv.base_le
  simp only [emuStkgro]
  have hlt : (if settings.large then (sc.stkladdr 0).toNat
      else sc.ebx.toNat % 2 ^ 16) < 2 ^ 16 := by
    split
    · exact (sc.stkladdr 0).isLt
    · exact Nat.mod_lt _ (by decide)
  revert hlt
  generalize (if settings.large then (sc.stkladdr 0).toNat
    else sc.ebx.toNat % 2 ^ 16) = required
  intro hlt
  split_ifs with hrefused hroom
  · exact callSafe_some.mpr (hunchanged _ _)
  · have habove : (table.ldt table.baseDesc).limit < required := by omega
    have hrlimit : (table.ldt table.baseDesc).limit ≤
        ((ulong (required - 1) % 2 ^ 16 : ℕ) : ℤ) := by
      simp only [ulong]
      omega
    refine callSafe_some.mpr ⟨hinv.set (hinv.limit_long _) fun _ _ => ?_, rfl,
      fun seg hseg => Table.set_ldt_of_ne _ _ (by omega), fun hret => by cases hret⟩
    refine ⟨hleast, hrlimit, ?_⟩
    show ulong (required - 1) % 2 ^ 16 ≤ 0xffff
    omega
  · exact callSafe_some.mpr (hunchanged _ _)

/-- The calls that are in range: every `brk` and `stkgro`, and the `brkctl` whose
arguments are. -/
def MemoryCallInRange (settings : Settings) (table : Table) : MemoryCall → Prop
  | .brkctl sc _ =>
      let args := brkctlArgs settings.large sc
      BrkctlInRange table args.cmd args.incr args.seg
  | .brk .. => True
  | .stkgro .. => True

theorem callSafe_memoryCall_iff (hinv : table.Inv) (call : MemoryCall) :
    CallSafe table (memoryCall settings table call) ↔
      MemoryCallInRange settings table call := by
  cases call with
  | brkctl sc malloc =>
      obtain ⟨hmin, hmax⟩ := brkctlArgs_incr_mem settings.large sc
      exact callSafe_intBrkctl_iff hinv hmin hmax
  | brk sc malloc => exact iff_of_true (callSafe_emuBrk hinv sc malloc) trivial
  | stkgro sc => exact iff_of_true (callSafe_emuStkgro hinv sc) trivial

end MemoryCalls

/-! ## Runs -/

/-- The table is in order, and what lies below `base_desc` is as it was at the
start. -/
structure Kept (start table : Table) : Prop where
  inv : table.Inv
  base : table.baseDesc = start.baseDesc
  below : ∀ seg < start.baseDesc, table.ldt seg = start.ldt seg

theorem Kept.step {start table next : Table} {settings : Settings} {call : MemoryCall}
    (hkept : Kept start table) (hcall : MemoryCallInRange settings table call)
    (hstep : memoryStep settings table call = some next) : Kept start next := by
  obtain ⟨outcome, houtcome, hright⟩ := (callSafe_memoryCall_iff hkept.inv call).mpr hcall
  rw [memoryStep, houtcome, Option.map_some, Option.some.injEq] at hstep
  subst hstep
  refine ⟨hright.inv, hright.base.trans hkept.base, fun seg hseg => ?_⟩
  rw [hright.below seg (hkept.base ▸ hseg), hkept.below seg hseg]

/-- From the table `main` builds, the segment table stays in order throughout a
sequence of calls exactly when every call of it is in range. -/
theorem segmentTable_always_iff (settings : Settings) (descs : ℕ → KernelDesc)
    (count limitStk : ℕ) (table : Table)
    (hloaded : Loaded descs count settings.initDs limitStk)
    (hmain : mainTable settings descs count limitStk = some table)
    (calls : List MemoryCall) :
    Always (memoryStep settings) (Kept table)
        (fun now call => CallSafe now (memoryCall settings now call)) table calls ↔
      StepsMeet (memoryStep settings) (MemoryCallInRange settings) table calls := by
  have hinv := mainTable_inv hloaded hmain
  exact always_iff_stepsMeet (fun _ (hkept : Kept table _) => hkept)
    (fun _ _ _ hkept hcall hstep => hkept.step hcall hstep)
    (fun _ call hkept hcall => (callSafe_memoryCall_iff hkept.inv call).mpr hcall)
    (fun _ call hkept hsafe _ => (callSafe_memoryCall_iff hkept.inv call).mp hsafe)
    ⟨hinv, rfl, fun _ _ => rfl⟩ calls

/-! ## A program that frees more than it has -/

/-- A near program with one data segment, at index 8. -/
def smallDescs (i : ℕ) : KernelDesc :=
  if i = 8 then ⟨0x400000, 0xffff, by decide, 0x12, 3⟩ else .unused

def smallSettings : Settings := ⟨false, 0x47, 0xff00, 0x1000⟩

theorem smallDescs_loaded : Loaded smallDescs 9 smallSettings.initDs 0x2000 where
  count_le := by decide
  data_lt := by decide
  data_base := by decide
  limit_le := by decide
  data_le := by decide

theorem smallTable_isSome :
    (mainTable smallSettings smallDescs 9 0x2000).isSome := by
  decide

/-- The table of that program. -/
def smallTable : Table :=
  (mainTable smallSettings smallDescs 9 0x2000).get smallTable_isSome

theorem smallTable_main :
    mainTable smallSettings smallDescs 9 0x2000 = some smallTable :=
  (Option.some_get smallTable_isSome).symm

/-- `brkctl(BR_IMPSEG, -0x10000L)`. -/
def freeTooMuch : MemoryCall :=
  .brkctl ⟨0, 3, 0, 0xffff, 0, 0x47, fun _ => 0⟩ 0

/-- `brk(ds:0x1000)` is one of the calls that are always in range. -/
theorem segmentTable_small :
    Always (memoryStep smallSettings) (Kept smallTable)
      (fun now call => CallSafe now (memoryCall smallSettings now call)) smallTable
      [.brk ⟨0, 0x1000, 0, 0, 0, 0x47, fun _ => 0⟩ 0] :=
  (segmentTable_always_iff smallSettings smallDescs 9 0x2000 smallTable
    smallDescs_loaded smallTable_main _).mpr ⟨trivial, fun _ _ => trivial⟩

theorem segmentTable_breaks :
    ¬ ∀ (settings : Settings) (descs : ℕ → KernelDesc) (count limitStk : ℕ)
        (table : Table), Loaded descs count settings.initDs limitStk →
      mainTable settings descs count limitStk = some table →
      ∀ calls : List MemoryCall,
        Always (memoryStep settings) (Kept table)
          (fun now call => CallSafe now (memoryCall settings now call)) table calls := by
  intro h
  obtain ⟨-, ⟨outcome, hcall, hright⟩, -⟩ :=
    h smallSettings smallDescs 9 0x2000 smallTable smallDescs_loaded smallTable_main
      [freeTooMuch]
  have hlimit : (memoryCall smallSettings smallTable freeTooMuch).map
      (fun outcome => (outcome.table.ldt 8).limit) = some (-0xdfff) := by
    decide
  have hlast : (memoryCall smallSettings smallTable freeTooMuch).map
      (fun outcome => outcome.table.lastDesc) = some 8 := by
    decide
  rw [hcall, Option.map_some, Option.some.injEq] at hlimit hlast
  obtain ⟨hleast, -, -⟩ := hright.inv.bounded 8 (hright.base ▸ by decide)
    (by rw [hlast])
  rw [hlimit] at hleast
  omega

end IbcsUs.X286
