import IbcsUs.X286.Brkctl

/-!
# Checking the addresses of a 286 program

`verify_area` is asked before the emulator touches memory of the program.  It
compares the limit of the segment, a signed number, with an unsigned sum that may
wrap.  A segment that has been shrunk to nothing has the limit -1, the largest
unsigned number there is, and so everything is accepted in it.
-/

namespace IbcsUs.X286

open Runs

/-- `VERIFY_WRITE`, `VERIFY_READ` and `VERIFY_EXEC`. -/
inductive Verify where
  | write
  | read
  | exec
  deriving DecidableEq

/-! ## The limits are 32-bit numbers -/

/-- Every limit is a `long`, whatever the program has asked for. -/
def LimitsLong (table : Table) : Prop :=
  ∀ seg, long (table.ldt seg).limit = (table.ldt seg).limit

section Limits

variable {table next : Table} {settings : Settings}

theorem LimitsLong.set (hlimits : LimitsLong table) (seg : ℕ) (desc : LdtDesc)
    (hdesc : long desc.limit = desc.limit) :
    LimitsLong (table.set seg desc) := by
  intro other
  by_cases hother : other = seg
  · rw [hother, Table.set_ldt_self]
    exact hdesc
  · rw [Table.set_ldt_of_ne _ _ hother]
    exact hlimits other

theorem limitsLong_mainTable {descs : ℕ → KernelDesc} {count limitStk : ℕ}
    (hmain : mainTable settings descs count limitStk = some table) :
    LimitsLong table := by
  simp only [mainTable] at hmain
  split at hmain
  · cases hmain
  simp only [Option.some.injEq] at hmain
  subst hmain
  have hinit : LimitsLong (ldtInit descs count settings.initDs) :=
    fun seg => ldtInit_limit_long
  exact hinit.set _ _ (long_long _)

theorem limitsLong_newSegment (hlimits : LimitsLong table) (large : Bool)
    (eax malloc cmd : ℕ) (incr : ℤ) :
    LimitsLong (newSegment large table eax malloc cmd incr).table := by
  simp only [newSegment]
  split_ifs
  · exact hlimits
  · exact hlimits
  · exact hlimits.set _ _ (hlimits (table.lastDesc + 1))
  · have hadded : LimitsLong { table.set (table.lastDesc + 1)
        ⟨malloc, -1, 0x12, 3, 0xffff⟩ with lastDesc := table.lastDesc + 1 } :=
      hlimits.set _ _ (show long (-1) = -1 by decide)
    exact hadded.set _ _ (long_long _)

theorem limitsLong_intBrkctl (hlimits : LimitsLong table) {large : Bool}
    {eax malloc cmd seg : ℕ} {incr : ℤ} {outcome : Outcome}
    (hcall : intBrkctl large table eax malloc cmd incr seg = some outcome) :
    LimitsLong outcome.table := by
  simp only [intBrkctl] at hcall
  split_ifs at hcall <;> simp only [Option.some.injEq] at hcall <;> subst hcall
  · exact hlimits
  · exact limitsLong_newSegment hlimits _ _ _ _ _
  · exact hlimits
  · exact limitsLong_newSegment hlimits _ _ _ _ _
  · rw [resizeSegment_table]
    exact hlimits.set _ _ (long_long _)
  · exact hlimits
  · exact limitsLong_newSegment hlimits _ _ _ _ _
  · rw [resizeSegment_table]
    exact hlimits.set _ _ (long_long _)

theorem limitsLong_step {call : MemoryCall} (hlimits : LimitsLong table)
    (hstep : memoryStep settings table call = some next) : LimitsLong next := by
  obtain ⟨outcome, hcall, rfl⟩ := Option.map_eq_some_iff.mp hstep
  cases call with
  | brkctl sc malloc => exact limitsLong_intBrkctl hlimits hcall
  | brk sc malloc =>
      simp only [memoryCall, emuBrk] at hcall
      generalize (if settings.large then (sc.stkladdr 1).toNat >>> 3
        else sc.ds.toNat >>> 3) = seg at hcall
      split at hcall
      · simp only [Option.some.injEq] at hcall
        subst hcall
        exact hlimits
      · obtain ⟨inner, hinner, houtcome⟩ := Option.map_eq_some_iff.mp hcall
        have hinnerLong := limitsLong_intBrkctl hlimits hinner
        subst houtcome
        exact hinnerLong
  | stkgro sc =>
      simp only [memoryCall, emuStkgro] at hcall
      generalize (if settings.large then (sc.stkladdr 0).toNat
        else sc.ebx.toNat % 2 ^ 16) = required at hcall
      split at hcall
      · simp only [Option.some.injEq] at hcall
        subst hcall
        exact hlimits
      split at hcall
      · simp only [Option.some.injEq] at hcall
        subst hcall
        exact hlimits.set _ _ (hlimits table.baseDesc)
      · simp only [Option.some.injEq] at hcall
        subst hcall
        exact hlimits

end Limits

/-! ## The check -/

section Area

variable (initDs : ℕ) (table : Table) (kind : Verify) (seg : ℕ)
  (add : BitVec 16) (length : BitVec 32)

/-- `add + length - 1`, an `unsigned long`. -/
def areaEnd : ℕ := ulong (add.toNat + length.toNat - 1)

/-- A segment that may be written to. -/
def Writable (desc : LdtDesc) : Prop :=
  desc.type &&& 0x10 ≠ 0 ∧ desc.type &&& 0x02 ≠ 0 ∧ desc.type &&& 0x08 = 0

instance (desc : LdtDesc) : Decidable (Writable desc) :=
  inferInstanceAs (Decidable (_ ∧ _))

/-- The selector names no valid segment, or not one of the kind asked for. -/
def badSegment : Prop :=
  table.lastDesc < seg >>> 3 ∨ (table.ldt (seg >>> 3)).base = 0 ∨
    (table.ldt (seg >>> 3)).type &&& 0x10 = 0 ∨
    (kind = .write ∧ ((table.ldt (seg >>> 3)).type &&& 0x02 = 0 ∨
      (table.ldt (seg >>> 3)).type &&& 0x08 ≠ 0)) ∨
    (kind = .exec ∧ (table.ldt (seg >>> 3)).type &&& 0x08 = 0)

instance : Decidable (badSegment table kind seg) :=
  inferInstanceAs (Decidable (_ ∨ _))

/-- `verify_area`. -/
def verifyArea : ℕ :=
  let desc := table.ldt (seg >>> 3)
  if badSegment table kind seg then einval
  else
    match kind with
    | .exec => if ulong desc.limit < add.toNat then einval else 0
    | .write | .read =>
        if ulong desc.limit < areaEnd add length then
          if seg ≠ initDs then einval
          else if add.toNat ≤ desc.rlimit ∨ 0xffff < areaEnd add length then einval
          else 0
        else 0

/-- Every byte of the area lies at or below the limit of its segment. -/
def InLimit : Prop :=
  ∀ i < length.toNat, ((add.toNat + i : ℕ) : ℤ) ≤ (table.ldt (seg >>> 3)).limit

/-- Every byte of the area lies in the stack. -/
def InStack : Prop :=
  seg = initDs ∧ ∀ i < length.toNat,
    (table.ldt (seg >>> 3)).rlimit < add.toNat + i ∧ add.toNat + i ≤ 0xffff

/-- What is accepted is the program's, and what may be written is data. -/
def AreaSound : Prop :=
  verifyArea initDs table kind seg add length = 0 →
    (InLimit table seg add length ∨ InStack initDs table seg add length) ∧
      (kind = .write → Writable (table.ldt (seg >>> 3)))

/-- The area begins above the part of the stack's segment that the data may grow
into. -/
def aboveRlimit : Prop :=
  seg = initDs ∧ (table.ldt (seg >>> 3)).rlimit < add.toNat

/-- The areas that are checked soundly: those in no valid segment; in a segment that
is not empty those that do not run over the end of the address space, and of the
others those that still end beyond the limit after wrapping and do not begin in the
stack; in an empty segment those in the stack, and those that end beyond the limit
even as unsigned numbers. -/
def AreaChecked : Prop :=
  let desc := table.ldt (seg >>> 3)
  badSegment table kind seg ∨
  (0 ≤ desc.limit ∧ add.toNat + length.toNat - 1 < 2 ^ 32) ∨
  (aboveRlimit initDs table seg add ∧ add.toNat + length.toNat - 1 ≤ 0xffff) ∨
  (ulong desc.limit < areaEnd add length ∧
    ¬ (aboveRlimit initDs table seg add ∧ areaEnd add length ≤ 0xffff))

variable {initDs table kind seg add length}

theorem badSegment_of_not_writable (hwrite : kind = .write)
    (hnot : ¬ Writable (table.ldt (seg >>> 3))) : badSegment table kind seg := by
  simp only [Writable, not_and_or, not_not] at hnot
  obtain htype | hdata | hcode := hnot
  · exact .inr (.inr (.inl htype))
  · exact .inr (.inr (.inr (.inl ⟨hwrite, .inl hdata⟩)))
  · exact .inr (.inr (.inr (.inl ⟨hwrite, .inr hcode⟩)))

/-- In a valid segment the area is accepted unless it ends beyond the limit and is
not in the stack, both for the wrapped end. -/
theorem verifyArea_eq_zero_iff (hkind : kind ≠ .exec)
    (hgood : ¬ badSegment table kind seg) :
    verifyArea initDs table kind seg add length = 0 ↔
      areaEnd add length ≤ ulong (table.ldt (seg >>> 3)).limit ∨
        (aboveRlimit initDs table seg add ∧ areaEnd add length ≤ 0xffff) := by
  have harea : verifyArea initDs table kind seg add length =
      if ulong (table.ldt (seg >>> 3)).limit < areaEnd add length then
        if seg ≠ initDs then einval
        else if add.toNat ≤ (table.ldt (seg >>> 3)).rlimit ∨
          0xffff < areaEnd add length then einval
        else 0
      else 0 := by
    rw [verifyArea.eq_def, if_neg hgood]
    cases kind with
    | write => rfl
    | read => rfl
    | exec => exact absurd rfl hkind
  rw [harea]
  simp only [aboveRlimit]
  split_ifs with hlimit hseg hstack
  · refine iff_of_false (by decide) ?_
    rintro (hle | ⟨⟨heq, -⟩, -⟩)
    · omega
    · exact hseg heq
  · refine iff_of_false (by decide) ?_
    rintro (hle | ⟨⟨-, hlow⟩, hhigh⟩) <;> omega
  · exact iff_of_true rfl (.inr ⟨⟨not_not.mp hseg, by omega⟩, by omega⟩)
  · exact iff_of_true rfl (.inl (by omega))

theorem toNat_pos (hlength : length ≠ 0) : 0 < length.toNat := by
  rw [Nat.pos_iff_ne_zero]
  exact fun hzero => hlength (BitVec.eq_of_toNat_eq hzero)

/-- All bytes are at or below the limit when the last one is. -/
theorem inLimit_iff (hlength : length ≠ 0) :
    InLimit table seg add length ↔
      (add.toNat + length.toNat - 1 : ℤ) ≤ (table.ldt (seg >>> 3)).limit := by
  have hpos := toNat_pos hlength
  constructor
  · intro hall
    have hlast := hall (length.toNat - 1) (by omega)
    omega
  · intro hlast i hi
    omega

/-- All bytes are in the stack when the first and the last one are. -/
theorem inStack_iff (hlength : length ≠ 0) :
    InStack initDs table seg add length ↔
      aboveRlimit initDs table seg add ∧ add.toNat + length.toNat - 1 ≤ 0xffff := by
  have hpos := toNat_pos hlength
  constructor
  · rintro ⟨hseg, hall⟩
    have hfirst := hall 0 hpos
    have hlast := hall (length.toNat - 1) (by omega)
    exact ⟨⟨hseg, by omega⟩, by omega⟩
  · rintro ⟨⟨hseg, hfirst⟩, hlast⟩
    exact ⟨hseg, fun i hi => ⟨by omega, by omega⟩⟩

end Area

/-- In a table whose limits are 32-bit numbers `verify_area` is sound exactly for the
areas described. -/
theorem areaSound_of_limitsLong {initDs : ℕ} {table : Table} {kind : Verify} {seg : ℕ}
    {add : BitVec 16} {length : BitVec 32} (hkind : kind ≠ .exec)
    (hlength : length ≠ 0) (hlimits : LimitsLong table) :
    AreaSound initDs table kind seg add length ↔
      AreaChecked initDs table kind seg add length := by
  by_cases hbad : badSegment table kind seg
  · have hrefused : verifyArea initDs table kind seg add length = einval := by
      rw [verifyArea.eq_def, if_pos hbad]
    refine iff_of_true (fun haccepted => ?_) (.inl hbad)
    rw [hrefused] at haccepted
    cases haccepted
  have hwritable : kind = .write → Writable (table.ldt (seg >>> 3)) := by
    intro hwrite
    by_contra hnot
    exact hbad (badSegment_of_not_writable hwrite hnot)
  have hpos := toNat_pos hlength
  have hadd := add.isLt
  have hlt := length.isLt
  have hlimit := hlimits (seg >>> 3)
  rw [AreaSound, verifyArea_eq_zero_iff hkind hbad, inLimit_iff hlength,
    inStack_iff hlength]
  simp only [AreaChecked, hbad, false_or, and_iff_left hwritable]
  simp only [areaEnd, ulong, long] at *
  by_cases hstack : aboveRlimit initDs table seg add
  · simp only [hstack, true_and]
    omega
  · simp only [hstack, false_and, or_false, not_false_eq_true, and_true, false_or]
    omega

/-- In every table that the program can reach from `main`'s, `verify_area` is sound
exactly for the areas described. -/
theorem areaSound_iff (settings : Settings) (descs : ℕ → KernelDesc)
    (count limitStk : ℕ) (start table : Table) (calls : List MemoryCall)
    (hmain : mainTable settings descs count limitStk = some start)
    (hrun : run (memoryStep settings) start calls = some table)
    (kind : Verify) (hkind : kind ≠ .exec) (seg add : BitVec 16) (length : BitVec 32)
    (hlength : length ≠ 0) :
    AreaSound settings.initDs table kind seg.toNat add length ↔
      AreaChecked settings.initDs table kind seg.toNat add length :=
  areaSound_of_limitsLong hkind hlength
    (invariant_run (fun _ _ _ hlimits hstep => limitsLong_step hlimits hstep)
      (limitsLong_mainTable hmain) hrun)

/-! ## A segment that has been shrunk to nothing -/

/-- `brk(ds:0)`, which leaves nothing of the data segment. -/
def freeAll : MemoryCall :=
  .brk ⟨0, 0, 0, 0, 0, 0x47, fun _ => 0⟩ 0

theorem shrunk_isSome : (memoryStep smallSettings smallTable freeAll).isSome := by
  decide

def shrunkTable : Table :=
  (memoryStep smallSettings smallTable freeAll).get shrunk_isSome

theorem shrunk_run :
    run (memoryStep smallSettings) smallTable [freeAll] = some shrunkTable := by
  rw [run_cons, ← Option.some_get shrunk_isSome]
  rfl

theorem shrunk_always :
    Always (memoryStep smallSettings) Table.Inv (fun _ _ => True) smallTable
      [freeAll] := by
  have hinv := mainTable_inv smallDescs_loaded smallTable_main
  refine ⟨hinv, trivial, fun next hstep => ?_⟩
  have hkept : Kept smallTable smallTable := ⟨hinv, rfl, fun _ _ => rfl⟩
  have hinRange : MemoryCallInRange smallSettings smallTable freeAll := trivial
  exact (hkept.step hinRange hstep).inv

theorem areaSound_small :
    AreaSound 0x47 smallTable .write 0x47 0x1ffe 4 ↔
      AreaChecked 0x47 smallTable .write 0x47 0x1ffe 4 :=
  areaSound_iff smallSettings smallDescs 9 0x2000 smallTable smallTable []
    smallTable_main rfl .write (by decide) 0x47 0x1ffe 4 (by decide)

theorem verifyArea_accepts_nothing :
    ¬ ∀ (settings : Settings) (descs : ℕ → KernelDesc) (count limitStk : ℕ)
        (start table : Table) (calls : List MemoryCall),
      Loaded descs count settings.initDs limitStk →
      mainTable settings descs count limitStk = some start →
      Always (memoryStep settings) Table.Inv (fun _ _ => True) start calls →
      run (memoryStep settings) start calls = some table →
      ∀ kind : Verify, kind ≠ .exec → ∀ (seg add : BitVec 16) (length : BitVec 32),
        length ≠ 0 → AreaSound settings.initDs table kind seg.toNat add length := by
  intro h
  have hsound := h smallSettings smallDescs 9 0x2000 smallTable shrunkTable [freeAll]
    smallDescs_loaded smallTable_main shrunk_always shrunk_run .read (by decide)
    0x47 0 1 (by decide)
  obtain ⟨hlimit | ⟨-, hstack⟩, -⟩ := hsound (by decide)
  · exact absurd (hlimit 0 (by decide)) (by decide)
  · exact absurd (hstack 0 (by decide)).1 (by decide)

end IbcsUs.X286
