import Mathlib.Data.BitVec
import Mathlib.Data.Nat.Cast.Order.Ring
import Mathlib.Order.Nat

/-!
# The segment table of the 286 emulator

A Xenix 286 program runs in segments of at most 64K.  The emulator keeps a table of
them: `main` fills it from the kernel's descriptors, and three system calls of the
program change it.  This module models the table, how it is built, and the calls
`stkgro`, `brk` and `brkctl`.  A `long` is an integer reduced to 32 bits after every
operation that may leave its range.
-/

namespace IbcsUs.X286

/-- A signed 32-bit value. -/
def long (value : ℤ) : ℤ := (value + 2 ^ 31) % 2 ^ 32 - 2 ^ 31

/-- An unsigned 32-bit value. -/
def ulong (value : ℤ) : ℕ := (value % 2 ^ 32).toNat

theorem long_mem (value : ℤ) : -2 ^ 31 ≤ long value ∧ long value < 2 ^ 31 := by
  simp only [long]
  omega

theorem long_of_mem {value : ℤ} (hlow : -2 ^ 31 ≤ value) (hhigh : value < 2 ^ 31) :
    long value = value := by
  simp only [long]
  omega

@[simp]
theorem long_long (value : ℤ) : long (long value) = long value := by
  simp only [long]
  omega

theorem ulong_of_mem {value : ℤ} (hlow : 0 ≤ value) (hhigh : value < 2 ^ 32) :
    (ulong value : ℤ) = value := by
  simp only [ulong]
  omega

/-- `struct ldt_desc`: `limit` is the last offset of the segment, -1 when it is
empty, and `rlimit` the highest value `limit` may take. -/
structure LdtDesc where
  base : ℕ
  limit : ℤ
  type : BitVec 8
  dpl : ℕ
  rlimit : ℕ
  deriving DecidableEq

def maxSegments : ℕ := 256

/-- `ldt`, `base_desc` and `last_desc`. -/
structure Table where
  ldt : ℕ → LdtDesc
  baseDesc : ℕ
  lastDesc : ℕ

namespace Table

/-- The table with entry `seg` replaced. -/
def set (table : Table) (seg : ℕ) (desc : LdtDesc) : Table :=
  { table with ldt := Function.update table.ldt seg desc }

/-- `ldt[seg].limit = limit`. -/
def setLimit (table : Table) (seg : ℕ) (limit : ℤ) : Table :=
  table.set seg { table.ldt seg with limit := limit }

@[simp] theorem set_baseDesc (table : Table) (seg : ℕ) (desc : LdtDesc) :
    (table.set seg desc).baseDesc = table.baseDesc := rfl

@[simp] theorem set_lastDesc (table : Table) (seg : ℕ) (desc : LdtDesc) :
    (table.set seg desc).lastDesc = table.lastDesc := rfl

theorem set_ldt_self (table : Table) (seg : ℕ) (desc : LdtDesc) :
    (table.set seg desc).ldt seg = desc :=
  Function.update_self ..

theorem set_ldt_of_ne (table : Table) {seg other : ℕ} (desc : LdtDesc)
    (hne : other ≠ seg) : (table.set seg desc).ldt other = table.ldt other :=
  Function.update_of_ne hne ..

@[simp] theorem setLimit_baseDesc (table : Table) (seg : ℕ) (limit : ℤ) :
    (table.setLimit seg limit).baseDesc = table.baseDesc := rfl

@[simp] theorem setLimit_lastDesc (table : Table) (seg : ℕ) (limit : ℤ) :
    (table.setLimit seg limit).lastDesc = table.lastDesc := rfl

/-- A segment the program has: its limits are in order. -/
def Bounded (desc : LdtDesc) : Prop :=
  -1 ≤ desc.limit ∧ desc.limit ≤ desc.rlimit ∧ desc.rlimit ≤ 0xffff

/-- What holds of the table while the program runs. -/
structure Inv (table : Table) : Prop where
  base_le : table.baseDesc ≤ table.lastDesc
  last_lt : table.lastDesc < maxSegments
  limit_long : ∀ seg, long (table.ldt seg).limit = (table.ldt seg).limit
  bounded : ∀ seg, table.baseDesc ≤ seg → seg ≤ table.lastDesc →
    Bounded (table.ldt seg)

end Table

/-! ## The table `main` builds -/

/-- A descriptor of the kernel's table, as `ldt_init` decodes it. -/
structure KernelDesc where
  base : ℕ
  limit : ℕ
  limit_lt : limit < 2 ^ 20
  type : BitVec 8
  dpl : ℕ

/-- A descriptor that has not been set. -/
def KernelDesc.unused : KernelDesc := ⟨0, 0, by decide, 0, 0⟩

/-- The entry `ldt_init` makes of descriptor `i`. -/
def ldtEntry (initDs i : ℕ) (desc : KernelDesc) : LdtDesc where
  base := desc.base
  limit := desc.limit
  type := desc.type
  dpl := desc.dpl
  rlimit :=
    if desc.limit ≠ 0 ∧ initDs >>> 3 ≤ i then desc.limit % 2 ^ 16 ||| 0xfff else 0

/-- `last_desc` after so many entries. -/
def lastUsed (descs : ℕ → KernelDesc) : ℕ → ℕ
  | 0 => 0
  | i + 1 =>
      if 0 < (descs i).base ∨ 0 < (descs i).limit then i else lastUsed descs i

/-- `ldt_init`, for the `count` descriptors the kernel returns, and
`base_desc = init_ds >> 3`. -/
def ldtInit (descs : ℕ → KernelDesc) (count initDs : ℕ) : Table where
  ldt i := if i < count then ldtEntry initDs i (descs i) else ⟨0, 0, 0, 0, 0⟩
  baseDesc := initDs >>> 3
  lastDesc := lastUsed descs count

/-- The variables the memory calls read: `LDATA`, `init_ds`, `init_stk` and
`xext->xe_stksize`. -/
structure Settings where
  large : Bool
  initDs : ℕ
  initStk : ℕ
  stksize : ℕ

/-- What `main` does with the table once the frame is built; it exits when there is
no room for the stack. -/
def mainTable (settings : Settings) (descs : ℕ → KernelDesc)
    (count limitStk : ℕ) : Option Table :=
  let table := ldtInit descs count settings.initDs
  let desc := { table.ldt table.baseDesc with
    limit := long ((limitStk ||| 1 : ℕ) : ℤ)
    rlimit := ulong (settings.initStk - settings.stksize - 1) % 2 ^ 16 }
  if (desc.rlimit : ℤ) < desc.limit then none
  else some (table.set table.baseDesc desc)

/-- What the loader leaves of a 286 program: at most `MAX_SEGMENTS` descriptors,
with the data segment among them, and from it on segments of at most 64K. -/
structure Loaded (descs : ℕ → KernelDesc) (count initDs limitStk : ℕ) : Prop where
  count_le : count ≤ maxSegments
  data_lt : initDs >>> 3 < count
  data_base : 0 < (descs (initDs >>> 3)).base
  limit_le : ∀ i, initDs >>> 3 ≤ i → i < count → (descs i).limit ≤ 0xffff
  data_le : limitStk ≤ 0x10000

/-! ## The calls -/

/-- The registers the calls read, with the words of the program's stack at
`ss:bx`. -/
structure Sigcontext where
  eax : BitVec 32
  ebx : BitVec 32
  ecx : BitVec 32
  esi : BitVec 32
  edi : BitVec 32
  ds : BitVec 16
  stkladdr : ℕ → BitVec 16

/-- What a call leaves behind; `eax` and `ebx` are as `int_brkctl` sets them. -/
structure Outcome where
  table : Table
  eax : ℕ
  ebx : ℕ
  xerrno : ℕ
  ret : ℤ

def einval : ℕ := 22
def enomem : ℕ := 12

def brArgseg : ℕ := 1
def brNewseg : ℕ := 2
def brImpseg : ℕ := 3

/-- The selector of a segment, for the program's privilege level. -/
def selector (seg : ℕ) : ℕ := seg * 8 + 7

section Brkctl

variable (large : Bool) (table : Table) (eax malloc cmd : ℕ) (incr : ℤ) (seg : ℕ)

/-- The exits with -1. -/
def refused (table : Table) (xerrno : ℕ) : Outcome :=
  ⟨table, eax, 0xff, xerrno, -1⟩

/-- The end of `int_brkctl`, with the registers set. -/
def finish (table : Table) (eax ebx : ℕ) (incr : ℤ) (seg : ℕ) : Outcome :=
  ⟨table.setLimit seg (long ((table.ldt seg).limit + incr)), eax, ebx, einval,
    long (eax + ebx * 2 ^ 16)⟩

/-- The two tests at the head of `int_brkctl`. -/
def brkctlRefuses : Prop :=
  (cmd = brArgseg ∧ (seg < table.baseDesc ∨ table.lastDesc < seg)) ∨
  0x10000 < incr ∨ (cmd = brNewseg ∧ incr < 0) ∨
  (cmd = brArgseg ∧ incr < 0 ∧ long ((table.ldt seg).limit + 1) < long (-incr))

instance : Decidable (brkctlRefuses table cmd incr seg) :=
  inferInstanceAs (Decidable (_ ∨ _))

/-- The branch that takes a new segment. -/
def newSegment : Outcome :=
  if !large && table.lastDesc == table.baseDesc && cmd == brImpseg then
    refused eax table einval
  else
    let seg := table.lastDesc + 1
    if maxSegments - 1 < seg then refused eax table enomem
    else if malloc = 0 then
      refused eax (table.set seg { table.ldt seg with base := 0 }) einval
    else
      finish { table.set seg ⟨malloc, -1, 0x12, 3, 0xffff⟩ with lastDesc := seg }
        0 (selector seg) incr seg

/-- The branches that change the limit of a segment there is. -/
def resizeSegment : Outcome :=
  if 0 ≤ incr then
    if (table.ldt seg).limit = 0xffff then
      finish table 0 (selector (seg + 1)) incr seg
    else
      finish table (ulong ((table.ldt seg).limit + 1)) (selector seg) incr seg
  else
    finish table (ulong ((table.ldt seg).limit + incr + 1)) (selector seg) incr seg

/-- `int_brkctl`, with what `malloc` returns if it is called; `none` when an index
lies outside of the table. -/
def intBrkctl : Option Outcome :=
  if brkctlRefuses table cmd incr seg then some (refused eax table einval)
  else
    let seg := if cmd = brImpseg then table.lastDesc else seg
    if 0 ≤ incr ∧ cmd = brNewseg then
      some (newSegment large table eax malloc cmd incr)
    else if maxSegments ≤ seg then none
    else if 0 ≤ incr ∧ cmd = brArgseg ∧
        (table.ldt seg).rlimit < ulong ((table.ldt seg).limit + incr) then
      some (refused eax table einval)
    else if 0 ≤ incr ∧ cmd = brImpseg ∧
        ((table.ldt seg).rlimit : ℤ) < long ((table.ldt seg).limit + incr) then
      some (newSegment large table eax malloc cmd incr)
    else some (resizeSegment table incr seg)

end Brkctl

/-- The variables of `emu_brkctl`. -/
structure BrkctlArgs where
  cmd : ℕ
  incr : ℤ
  seg : ℕ

/-- Where `emu_brkctl` finds its arguments. -/
def brkctlArgs (large : Bool) (sc : Sigcontext) : BrkctlArgs :=
  if large then
    { cmd := (sc.stkladdr 0).toNat
      incr := long ((sc.stkladdr 1).toNat + (sc.stkladdr 2).toNat * 2 ^ 16)
      seg := (sc.stkladdr 4).toNat >>> 3 }
  else
    { cmd := sc.ebx.toNat % 2 ^ 16
      incr := long ((sc.ecx.toNat % 2 ^ 16 : ℕ) + sc.esi.toNat * 2 ^ 16)
      seg := (sc.edi.toNat % 2 ^ 16) >>> 3 }

/-- `emu_brkctl`. -/
def emuBrkctl (settings : Settings) (table : Table) (sc : Sigcontext)
    (malloc : ℕ) : Option Outcome :=
  let args := brkctlArgs settings.large sc
  intBrkctl settings.large table sc.eax.toNat malloc args.cmd args.incr args.seg

/-- `emu_brk`, whose `sigcontext` for `int_brkctl` is its own. -/
def emuBrk (settings : Settings) (table : Table) (sc : Sigcontext)
    (malloc : ℕ) : Option Outcome :=
  let ofset := if settings.large then (sc.stkladdr 0).toNat else sc.ebx.toNat % 2 ^ 16
  let seg := if settings.large then (sc.stkladdr 1).toNat >>> 3 else sc.ds.toNat >>> 3
  if maxSegments ≤ seg then
    some ⟨table, sc.eax.toNat, sc.ebx.toNat, einval, -1⟩
  else
    (intBrkctl settings.large table 0 malloc brArgseg
      (long (ofset - (table.ldt seg).limit - 1)) seg).map fun outcome =>
        { outcome with
          eax := sc.eax.toNat
          ebx := sc.ebx.toNat
          ret := if outcome.ret = -1 then -1 else 0 }

/-- `emu_stkgro`. -/
def emuStkgro (settings : Settings) (table : Table) (sc : Sigcontext) :
    Option Outcome :=
  let required :=
    if settings.large then (sc.stkladdr 0).toNat else sc.ebx.toNat % 2 ^ 16
  let desc := table.ldt table.baseDesc
  if (required : ℤ) ≤ desc.limit ∨ settings.initStk ≤ required then
    some ⟨table, sc.eax.toNat, sc.ebx.toNat, enomem, -1⟩
  else if required ≤ ulong (settings.initStk - settings.stksize) then
    some ⟨table.set table.baseDesc
        { desc with rlimit := ulong (required - 1) % 2 ^ 16 },
      sc.eax.toNat, sc.ebx.toNat, 0, 0⟩
  else some ⟨table, sc.eax.toNat, sc.ebx.toNat, 0, 0⟩

/-- The memory calls of the program; `malloc` is what the library's `malloc`
returns. -/
inductive MemoryCall where
  | brkctl (sc : Sigcontext) (malloc : ℕ)
  | brk (sc : Sigcontext) (malloc : ℕ)
  | stkgro (sc : Sigcontext)

def memoryCall (settings : Settings) (table : Table) : MemoryCall → Option Outcome
  | .brkctl sc malloc => emuBrkctl settings table sc malloc
  | .brk sc malloc => emuBrk settings table sc malloc
  | .stkgro sc => emuStkgro settings table sc

/-- The table after a call. -/
def memoryStep (settings : Settings) (table : Table) (call : MemoryCall) :
    Option Table :=
  (memoryCall settings table call).map Outcome.table

/-! ## What `main` builds is in order -/

theorem lastUsed_le {descs : ℕ → KernelDesc} {count i : ℕ} (hi : i < count)
    (hbase : 0 < (descs i).base) : i ≤ lastUsed descs count := by
  induction count with
  | zero => omega
  | succ count ih =>
      rw [lastUsed]
      split
      · omega
      · rename_i hunused
        have hne : i ≠ count := fun heq => hunused (.inl (heq ▸ hbase))
        exact ih (by omega)

theorem lastUsed_lt {descs : ℕ → KernelDesc} {count : ℕ} (hpos : 0 < count) :
    lastUsed descs count < count := by
  induction count with
  | zero => omega
  | succ count ih =>
      rw [lastUsed]
      split
      · omega
      · by_cases hzero : count = 0
        · subst hzero
          simp [lastUsed]
        · have := ih (by omega)
          omega

theorem le_or_mask (limit : ℕ) (hlimit : limit ≤ 0xffff) :
    limit ≤ limit % 2 ^ 16 ||| 0xfff ∧ limit % 2 ^ 16 ||| 0xfff ≤ 0xffff := by
  have hmod : limit % 2 ^ 16 = limit := Nat.mod_eq_of_lt (by omega)
  rw [hmod]
  refine ⟨Nat.left_le_or, ?_⟩
  have hlt := Nat.or_lt_two_pow (x := limit) (y := 0xfff) (n := 16) (by omega) (by decide)
  omega

/-- The entries made from segments of at most 64K have their limits in order. -/
theorem bounded_ldtEntry {initDs i : ℕ} {desc : KernelDesc} (hi : initDs >>> 3 ≤ i)
    (hlimit : desc.limit ≤ 0xffff) : Table.Bounded (ldtEntry initDs i desc) := by
  obtain ⟨hle, hmask⟩ := le_or_mask desc.limit hlimit
  simp only [Table.Bounded, ldtEntry]
  by_cases hzero : desc.limit = 0
  · simp [hzero]
  · rw [if_pos ⟨hzero, hi⟩]
    exact ⟨by omega, by exact_mod_cast hle, hmask⟩

theorem ldtInit_limit_long {descs : ℕ → KernelDesc} {count initDs seg : ℕ} :
    long ((ldtInit descs count initDs).ldt seg).limit =
      ((ldtInit descs count initDs).ldt seg).limit := by
  have hlt := (descs seg).limit_lt
  by_cases hseg : seg < count
  · have hentry : (ldtInit descs count initDs).ldt seg =
        ldtEntry initDs seg (descs seg) := if_pos hseg
    rw [hentry]
    have hlong : long ((descs seg).limit : ℤ) = (descs seg).limit :=
      long_of_mem (by omega) (by omega)
    exact hlong
  · have hentry : (ldtInit descs count initDs).ldt seg = ⟨0, 0, 0, 0, 0⟩ := if_neg hseg
    rw [hentry]
    have hlong : long 0 = 0 := by decide
    exact hlong

theorem limitStk_mem {limitStk : ℕ} (hle : limitStk ≤ 0x10000) :
    -1 ≤ long ((limitStk ||| 1 : ℕ) : ℤ) := by
  have hlt := Nat.or_lt_two_pow (x := limitStk) (y := 1) (n := 17) (by omega) (by decide)
  rw [long_of_mem (by omega) (by omega)]
  omega

/-- The table `main` starts the program with keeps the invariant. -/
theorem mainTable_inv {settings : Settings} {descs : ℕ → KernelDesc}
    {count limitStk : ℕ} {table : Table}
    (hloaded : Loaded descs count settings.initDs limitStk)
    (hmain : mainTable settings descs count limitStk = some table) : table.Inv := by
  obtain ⟨hcount, hdata, hbase, hlimit, hstk⟩ := hloaded
  simp only [mainTable] at hmain
  split at hmain
  · cases hmain
  rename_i hroom
  simp only [Option.some.injEq] at hmain
  subst hmain
  have hlast : lastUsed descs count < count := lastUsed_lt (by omega)
  refine ⟨lastUsed_le hdata hbase, hlast.trans_le hcount, fun seg => ?_,
    fun seg hlow hhigh => ?_⟩
  · by_cases hseg : seg = (ldtInit descs count settings.initDs).baseDesc
    · rw [hseg, Table.set_ldt_self]
      exact long_long _
    · rw [Table.set_ldt_of_ne _ _ hseg]
      exact ldtInit_limit_long
  by_cases hseg : seg = (ldtInit descs count settings.initDs).baseDesc
  · subst hseg
    rw [Table.set_ldt_self]
    have hmod := Nat.mod_lt (ulong (settings.initStk - settings.stksize - 1))
      (show 0 < 2 ^ 16 by decide)
    refine ⟨limitStk_mem hstk, not_lt.mp hroom, ?_⟩
    show ulong (settings.initStk - settings.stksize - 1) % 2 ^ 16 ≤ 0xffff
    omega
  · rw [Table.set_ldt_of_ne _ _ hseg]
    have hlt : seg < count := by
      have : seg ≤ lastUsed descs count := hhigh
      omega
    show Table.Bounded (if seg < count then _ else _)
    rw [if_pos hlt]
    exact bounded_ldtEntry hlow (hlimit seg hlow hlt)

end IbcsUs.X286
