import IbcsUs.Memory.Word

/-!
# The variants of `mmap`

Each personality has a call of its own to map a file, and its own flags.  All of
them end in `do_mmap` or `do_mmap_pgoff`, which ask the kernel.  Which descriptors
are open, and what the kernel answers, are parameters.
-/

namespace IbcsUs.MmapVariants

abbrev Word := BitVec 32

/-! ## Asking the kernel -/

/-- What `do_mmap_pgoff` asks for; the file is its descriptor. -/
structure Mapping where
  file : Option Word
  addr : Word
  len : Word
  prot : Word
  flags : Word
  pgoff : Word
  deriving DecidableEq

/-- What has been asked for, if it came to that, and the result of the call. -/
structure Outcome where
  mapping : Option Mapping
  result : Word
  deriving DecidableEq

def errorWord (errno : ℤ) : Word := BitVec.ofInt 32 (-errno)

def ebadf : Word := errorWord 9

def einval : Word := errorWord 22

def ebadfd : Word := errorWord 77

def mapFixed : Word := 0x10

def mapAnonymous : Word := 0x20

def map32bit : Word := 0x40

def mapDenywrite : Word := 0x800

def mapExecutable : Word := 0x1000

/-- `~PAGE_MASK`. -/
def pageBits : Word := 0xfff

/-- `PAGE_ALIGN`. -/
def pageAlign (len : Word) : Word := (len + pageBits) &&& ~~~pageBits

section Calls

variable (isOpen : Word → Bool) (answer : Mapping → Word)

def doMmapPgoff (file : Option Word) (addr len prot flags pgoff : Word) :
    Outcome :=
  let mapping : Mapping := ⟨file, addr, len, prot,
    if file = none then flags ||| mapAnonymous else flags, pgoff⟩
  ⟨some mapping, answer mapping⟩

def doMmap (file : Option Word) (addr len prot flags offset : Word) : Outcome :=
  if offset + pageAlign len < offset ∨ offset &&& pageBits ≠ 0 then ⟨none, einval⟩
  else doMmapPgoff answer file addr len prot flags (offset >>> 12)

/-- `fget`. -/
def fget (fd : Word) : Option Word := if isOpen fd then some fd else none

/-! ## The calls of the program -/

/-- The arguments of a call.  `svr4_mmap` and `sco_mmap` have no `offHi`. -/
structure Args where
  addr : Word
  len : Word
  prot : Word
  flags : Word
  fd : Word
  off : Word
  offHi : Word
  deriving DecidableEq

def svr4MapAnonymous : Word := 0x100

/-- `SVR4_MAP_RENAME` and `SVR4__MAP_NEW`. -/
def svr4MapUnimpl : Word := 0x80000020

def svr4Mmap (args : Args) : Outcome :=
  let flags := args.flags &&& ~~~svr4MapUnimpl
  if flags &&& svr4MapAnonymous = 0 then
    match fget isOpen args.fd with
    | none => ⟨none, ebadfd⟩
    | some file =>
        let flags := flags &&& ~~~svr4MapAnonymous ||| mapAnonymous
        doMmap answer (some file) args.addr args.len args.prot
          (flags ||| map32bit) args.off
  else
    doMmap answer none args.addr args.len args.prot (flags ||| map32bit) args.off

/-- `SCO_MAP_PHMEM`, `SCO_MAP_KVMEM`, `SCO_MAP_ANCESTRAL` and `SCO_MAP_NOEOF`. -/
def scoMapUnimpl : Word := 0xf000

def scoMmap (args : Args) : Outcome :=
  let flags := args.flags &&& ~~~scoMapUnimpl
  match fget isOpen args.fd with
  | none => ⟨none, ebadf⟩
  | some file =>
      let flags := flags &&& ~~~(mapExecutable ||| mapDenywrite)
      let outcome := doMmap answer (some file) args.addr args.len args.prot
        (flags ||| map32bit) args.off
      { outcome with
        result := if outcome.result = args.addr then 0 else outcome.result }

def Args.off64 (args : Args) : BitVec 64 := args.offHi ++ args.off

/-- The offset runs over with the length. -/
def Args.overflows (args : Args) : Bool :=
  (args.off64 + (pageAlign args.len).setWidth 64).slt args.off64

/-- The pages in front of the offset, as `u_long`. -/
def Args.pgoff (args : Args) : Word := (args.off64.sshiftRight 12).setWidth 32

def uw7Mmap64 (args : Args) : Outcome :=
  if args.overflows then ⟨none, einval⟩
  else if args.off64 &&& 0xfff = 0 then ⟨none, einval⟩
  else
    let flags := if args.flags &&& svr4MapAnonymous ≠ 0 then
        (args.flags ||| mapAnonymous) &&& ~~~svr4MapAnonymous
      else args.flags
    let flags := flags &&& ~~~(mapExecutable ||| mapDenywrite)
    if flags &&& mapAnonymous = 0 then
      match fget isOpen args.fd with
      | none => ⟨none, ebadf⟩
      | some file =>
          doMmapPgoff answer (some file) args.addr args.len args.prot
            (flags ||| map32bit) args.pgoff
    else
      doMmapPgoff answer none args.addr args.len args.prot (flags ||| map32bit)
        args.pgoff

/-- `_MAP_NEW`. -/
def solMapNew : Word := 0x80000000

def solFlags (args : Args) (flags : Word) : Word :=
  if flags &&& solMapNew = 0 ∧ args.addr ≠ 0 then flags ||| mapFixed
  else flags &&& ~~~solMapNew

def solMmap64 (args : Args) : Outcome :=
  if args.overflows then ⟨none, einval⟩
  else if args.off64 &&& 0xfff = 0 then ⟨none, einval⟩
  else
    let flags := args.flags &&& ~~~(mapExecutable ||| mapDenywrite)
    if flags &&& mapAnonymous = 0 then
      match fget isOpen args.fd with
      | none => ⟨none, ebadf⟩
      | some file =>
          doMmapPgoff answer (some file) args.addr args.len args.prot
            (solFlags args flags ||| map32bit) args.pgoff
    else
      doMmapPgoff answer none args.addr args.len args.prot
        (solFlags args flags ||| map32bit) args.pgoff

inductive Call where
  | svr4Mmap
  | scoMmap
  | uw7Mmap64
  | solMmap64
  deriving DecidableEq

def Call.run (call : Call) (args : Args) : Outcome :=
  match call with
  | .svr4Mmap => MmapVariants.svr4Mmap isOpen answer args
  | .scoMmap => MmapVariants.scoMmap isOpen answer args
  | .uw7Mmap64 => MmapVariants.uw7Mmap64 isOpen answer args
  | .solMmap64 => MmapVariants.solMmap64 isOpen answer args

/-! ## What a call should ask for -/

/-- The offset in the file. -/
def Call.offset (call : Call) (args : Args) : ℕ :=
  match call with
  | .svr4Mmap | .scoMmap => args.off.toNat
  | .uw7Mmap64 | .solMmap64 => args.off64.toNat

/-- The bound of the offsets that the call's `off_t` has. -/
def Call.offLimit : Call → ℕ
  | .svr4Mmap | .scoMmap => 2 ^ 31
  | .uw7Mmap64 | .solMmap64 => 2 ^ 63

/-- The mapping ends at an offset that there is. -/
def Call.InRange (call : Call) (args : Args) : Prop :=
  call.offset args + (pageAlign args.len).toNat < call.offLimit

/-- The call has a flag for mappings without a file, and it is set. -/
def Call.Anonymous (call : Call) (args : Args) : Prop :=
  (call = .svr4Mmap ∨ call = .uw7Mmap64) ∧ args.flags &&& svr4MapAnonymous ≠ 0

def Call.Aligned (call : Call) (args : Args) : Prop :=
  call.offset args % 4096 = 0

instance (call : Call) (args : Args) : Decidable (call.Aligned args) :=
  inferInstanceAs (Decidable (_ = _))

/-- The sharing type. -/
def mapType : Word := 0xf

/-- The mapping has the place, the protection, the sharing type and the fixed address
that were asked for. -/
def SameRequest (args : Args) (mapping : Mapping) : Prop :=
  mapping.addr = args.addr ∧ mapping.len = args.len ∧ mapping.prot = args.prot ∧
    mapping.flags &&& (mapType ||| mapFixed) =
      args.flags &&& (mapType ||| mapFixed)

/-- Nothing is mapped, and the program is told so. -/
def Outcome.Refused (outcome : Outcome) : Prop :=
  outcome.mapping = none ∧ Memory.isErr outcome.result.toNat = true

def Outcome.MapsFile (outcome : Outcome) (call : Call) (args : Args) : Prop :=
  ∃ mapping, outcome.mapping = some mapping ∧ SameRequest args mapping ∧
    mapping.file = some args.fd ∧ mapping.flags &&& mapAnonymous = 0 ∧
    mapping.pgoff.toNat * 4096 = call.offset args

/-- The bit of the program's flag means `MAP_GROWSDOWN` to the kernel. -/
def Outcome.MapsAnonymous (outcome : Outcome) (args : Args) : Prop :=
  ∃ mapping, outcome.mapping = some mapping ∧ SameRequest args mapping ∧
    mapping.file = none ∧ mapping.flags &&& mapAnonymous ≠ 0 ∧
    mapping.flags &&& svr4MapAnonymous = 0

/-- An offset within a page is refused.  At any other a mapping without a file is
asked for as one, and that of an open file as that file's. -/
def MmapRight (call : Call) (args : Args) : Prop :=
  (¬ call.Aligned args → (call.run isOpen answer args).Refused) ∧
    (call.Aligned args → call.Anonymous args → call.InRange args →
      (call.run isOpen answer args).MapsAnonymous args) ∧
    (call.Aligned args → ¬ call.Anonymous args → isOpen args.fd = false →
      (call.run isOpen answer args).Refused) ∧
    (call.Aligned args → ¬ call.Anonymous args → isOpen args.fd = true →
      call.InRange args → (call.run isOpen answer args).MapsFile call args)

/-! ## When it does -/

/-- `svr4_mmap` is right only where nothing is to be mapped.  `sco_mmap` must not be
given the bit that is `MAP_ANONYMOUS` to the kernel, nor the address that is the word
of the error.  The other two, which refuse the wrong offsets, are right where nothing
is to be mapped and they find out by other means. -/
def MmapMeets (call : Call) (args : Args) : Prop :=
  match call with
  | .svr4Mmap =>
      call.Aligned args →
        (call.Anonymous args → ¬ call.InRange args) ∧
          (¬ call.Anonymous args → isOpen args.fd = true → ¬ call.InRange args)
  | .scoMmap =>
      isOpen args.fd = true →
        (call.Aligned args → call.InRange args →
          args.flags &&& mapAnonymous = 0) ∧
          (¬ call.Aligned args → args.addr ≠ einval)
  | .uw7Mmap64 | .solMmap64 =>
      if call.Aligned args then
        (call.Anonymous args → ¬ call.InRange args) ∧
          (¬ call.Anonymous args → isOpen args.fd = true → ¬ call.InRange args)
      else
        args.overflows = true ∨
          (¬ call.Anonymous args ∧ args.flags &&& mapAnonymous = 0 ∧
            isOpen args.fd = false)

/-! ## Words and pages -/

theorem and_pageBits_eq_zero_iff {w : ℕ} (hw : 12 ≤ w) (offset : BitVec w) :
    offset &&& 0xfff = 0 ↔ offset.toNat % 4096 = 0 := by
  have hmask : (0xfff : BitVec w).toNat = 2 ^ 12 - 1 := by
    have hlt : 2 ^ 12 ≤ 2 ^ w := Nat.pow_le_pow_right (by decide) hw
    have hmod : (0xfff : BitVec w).toNat = 4095 % 2 ^ w := BitVec.toNat_ofNat ..
    rw [hmod]
    apply Nat.mod_eq_of_lt
    omega
  rw [← BitVec.toNat_inj, BitVec.toNat_and, hmask, Nat.and_two_pow_sub_one_eq_mod]
  simp

theorem and_not_pageBits (word : Word) :
    word &&& ~~~pageBits = word >>> 12 <<< 12 := by
  have hbits : ∀ index < 32, pageBits.getLsbD index = decide (index < 12) := by decide
  apply BitVec.eq_of_getLsbD_eq
  intro index hindex
  rw [BitVec.getLsbD_and, BitVec.getLsbD_not, hbits index hindex,
    BitVec.getLsbD_shiftLeft, BitVec.getLsbD_ushiftRight]
  by_cases hlow : index < 12
  · simp [hlow]
  · have hback : 12 + (index - 12) = index := by omega
    simp [hlow, hindex, hback]

/-- `PAGE_ALIGN` as on numbers. -/
theorem toNat_pageAlign (len : Word) :
    (pageAlign len).toNat = Memory.pageAlign len.toNat := by
  rw [pageAlign, and_not_pageBits, BitVec.toNat_shiftLeft, BitVec.toNat_ushiftRight,
    BitVec.toNat_add, Nat.shiftRight_eq_div_pow, Nat.shiftLeft_eq]
  have hbits : pageBits.toNat = 4096 - 1 := by decide
  rw [hbits]
  rw [Memory.pageAlign, Memory.pageMask, Memory.wordAdd]
  omega

/-- Flags that keep some bits and gain others, seen through a mask. -/
theorem and_mask_of_gained (flags kept gained mask : Word)
    (hkept : kept &&& mask = mask) (hgained : gained &&& mask = 0) :
    (flags &&& kept ||| gained) &&& mask = flags &&& mask := by
  have hzero : flags &&& mask ||| (0 : Word) = flags &&& mask := BitVec.or_zero
  rw [BitVec.and_or_distrib_right, BitVec.and_assoc, hkept, hgained, hzero]

theorem or_and_self (flags mask : Word) : (flags ||| mask) &&& mask = mask := by
  ext index hindex
  simp only [BitVec.getElem_and, BitVec.getElem_or]
  cases flags[index] <;> cases mask[index] <;> rfl

theorem refused_of_none {result : Word}
    (hresult : result = einval ∨ result = ebadf ∨ result = ebadfd) :
    (⟨none, result⟩ : Outcome).Refused := by
  refine ⟨rfl, ?_⟩
  rcases hresult with rfl | rfl | rfl <;> decide

variable {isOpen answer} {call : Call} {args : Args}

theorem not_refused_of_some {outcome : Outcome} {mapping : Mapping}
    (hsome : outcome.mapping = some mapping) : ¬ outcome.Refused := by
  rintro ⟨hnone, -⟩
  rw [hsome] at hnone
  cases hnone

/-- `do_mmap` refuses an offset within a page. -/
theorem doMmap_of_not_aligned {offset : Word} (hoffset : offset.toNat % 4096 ≠ 0)
    (file : Option Word) (addr len prot flags : Word) :
    doMmap answer file addr len prot flags offset = ⟨none, einval⟩ := by
  have hbits : offset &&& pageBits ≠ 0 :=
    mt (and_pageBits_eq_zero_iff (by decide) offset).mp hoffset
  rw [doMmap, if_pos (.inr hbits)]

theorem doMmap_of_inRange {offset len : Word} (hoffset : offset.toNat % 4096 = 0)
    (hrange : offset.toNat + (pageAlign len).toNat < 2 ^ 31)
    (file : Option Word) (addr prot flags : Word) :
    doMmap answer file addr len prot flags offset =
      doMmapPgoff answer file addr len prot flags (offset >>> 12) := by
  have hbits : offset &&& pageBits = 0 :=
    (and_pageBits_eq_zero_iff (by decide) offset).mpr hoffset
  have hfits : ¬ offset + pageAlign len < offset := by
    rw [BitVec.lt_def, BitVec.toNat_add]
    omega
  rw [doMmap, if_neg (not_or.mpr ⟨hfits, not_not.mpr hbits⟩)]

/-! ## The four kinds of requests -/

theorem mmapRight_of_not_aligned (haligned : ¬ call.Aligned args) :
    MmapRight isOpen answer call args ↔ (call.run isOpen answer args).Refused := by
  simp [MmapRight, haligned]

theorem mmapRight_of_anonymous (haligned : call.Aligned args)
    (hanonymous : call.Anonymous args) :
    MmapRight isOpen answer call args ↔
      (call.InRange args → (call.run isOpen answer args).MapsAnonymous args) := by
  simp [MmapRight, haligned, hanonymous]

theorem mmapRight_of_closed (haligned : call.Aligned args)
    (hanonymous : ¬ call.Anonymous args) (hclosed : isOpen args.fd = false) :
    MmapRight isOpen answer call args ↔ (call.run isOpen answer args).Refused := by
  simp [MmapRight, haligned, hanonymous, hclosed]

theorem mmapRight_of_open (haligned : call.Aligned args)
    (hanonymous : ¬ call.Anonymous args) (hopen : isOpen args.fd = true) :
    MmapRight isOpen answer call args ↔
      (call.InRange args →
        (call.run isOpen answer args).MapsFile call args) := by
  simp [MmapRight, haligned, hanonymous, hopen]

/-! ## `svr4_mmap` -/

/-- The flag of the program, as `svr4_mmap` looks at it. -/
theorem svr4_anonymous_iff :
    args.flags &&& ~~~svr4MapUnimpl &&& svr4MapAnonymous = 0 ↔
      ¬ Call.svr4Mmap.Anonymous args := by
  have hmask : ~~~svr4MapUnimpl &&& svr4MapAnonymous = svr4MapAnonymous := by
    decide
  rw [BitVec.and_assoc, hmask]
  simp [Call.Anonymous]

theorem svr4Mmap_of_closed (hanonymous : ¬ Call.svr4Mmap.Anonymous args)
    (hclosed : isOpen args.fd = false) :
    svr4Mmap isOpen answer args = ⟨none, ebadfd⟩ := by
  simp only [svr4Mmap, if_pos (svr4_anonymous_iff.mpr hanonymous), fget,
    hclosed, Bool.false_eq_true, if_false]

theorem svr4Mmap_of_open (hanonymous : ¬ Call.svr4Mmap.Anonymous args)
    (hopen : isOpen args.fd = true) :
    svr4Mmap isOpen answer args =
      doMmap answer (some args.fd) args.addr args.len args.prot
        (args.flags &&& ~~~svr4MapUnimpl &&& ~~~svr4MapAnonymous |||
          mapAnonymous ||| map32bit) args.off := by
  simp only [svr4Mmap, if_pos (svr4_anonymous_iff.mpr hanonymous), fget,
    hopen, if_true]

theorem svr4Mmap_of_anonymous (hanonymous : Call.svr4Mmap.Anonymous args) :
    svr4Mmap isOpen answer args =
      doMmap answer none args.addr args.len args.prot
        (args.flags &&& ~~~svr4MapUnimpl ||| map32bit) args.off := by
  have hflag : ¬ args.flags &&& ~~~svr4MapUnimpl &&& svr4MapAnonymous = 0 :=
    fun hzero => svr4_anonymous_iff.mp hzero hanonymous
  simp only [svr4Mmap, if_neg hflag]

/-- A file is mapped without the file. -/
theorem not_mapsFile_svr4 (haligned : Call.svr4Mmap.Aligned args)
    (hrange : Call.svr4Mmap.InRange args)
    (hanonymous : ¬ Call.svr4Mmap.Anonymous args)
    (hopen : isOpen args.fd = true) :
    ¬ (svr4Mmap isOpen answer args).MapsFile .svr4Mmap args := by
  rw [svr4Mmap_of_open hanonymous hopen, doMmap_of_inRange haligned hrange]
  rintro ⟨mapping, hmapping, -, -, hflags, -⟩
  obtain rfl := Option.some.inj hmapping
  have hsame (flags : Word) :
      (flags ||| mapAnonymous ||| map32bit) &&& mapAnonymous = mapAnonymous := by
    have hother : map32bit &&& mapAnonymous = 0 := by decide
    have hzero : mapAnonymous ||| (0 : Word) = mapAnonymous := BitVec.or_zero
    rw [BitVec.and_or_distrib_right, or_and_self, hother, hzero]
  rw [if_neg (Option.some_ne_none _), hsame] at hflags
  exact absurd hflags (by decide)

/-- A mapping without a file keeps the bit of the program's flag. -/
theorem not_mapsAnonymous_svr4 (haligned : Call.svr4Mmap.Aligned args)
    (hrange : Call.svr4Mmap.InRange args)
    (hanonymous : Call.svr4Mmap.Anonymous args) :
    ¬ (svr4Mmap isOpen answer args).MapsAnonymous args := by
  rw [svr4Mmap_of_anonymous hanonymous, doMmap_of_inRange haligned hrange]
  rintro ⟨mapping, hmapping, -, -, -, hflags⟩
  obtain rfl := Option.some.inj hmapping
  have hsame : (args.flags &&& ~~~svr4MapUnimpl ||| map32bit ||| mapAnonymous) &&&
      svr4MapAnonymous = args.flags &&& svr4MapAnonymous := by
    rw [BitVec.or_assoc]
    exact and_mask_of_gained _ _ _ _ (by decide) (by decide)
  rw [if_pos rfl, hsame] at hflags
  exact hanonymous.2 hflags

theorem svr4_right_iff :
    MmapRight isOpen answer .svr4Mmap args ↔ MmapMeets isOpen .svr4Mmap args := by
  rw [MmapMeets]
  by_cases haligned : Call.svr4Mmap.Aligned args
  · by_cases hanonymous : Call.svr4Mmap.Anonymous args
    · rw [mmapRight_of_anonymous haligned hanonymous]
      simp only [haligned, hanonymous, not_true_eq_false, false_implies, and_true,
        forall_const]
      exact ⟨fun hright hrange => not_mapsAnonymous_svr4 haligned hrange hanonymous
        (hright hrange), fun hout hrange => absurd hrange hout⟩
    · cases hopen : isOpen args.fd with
      | false =>
          rw [mmapRight_of_closed haligned hanonymous hopen]
          have hrun : (Call.run isOpen answer .svr4Mmap args) = ⟨none, ebadfd⟩ :=
            svr4Mmap_of_closed hanonymous hopen
          rw [hrun]
          exact iff_of_true (refused_of_none (.inr (.inr rfl)))
            fun _ => ⟨fun hflag => absurd hflag hanonymous, nofun⟩
      | true =>
          rw [mmapRight_of_open haligned hanonymous hopen]
          simp only [haligned, hanonymous, not_false_eq_true, false_implies,
            true_and, forall_const]
          exact ⟨fun hright hrange => not_mapsFile_svr4 haligned hrange hanonymous
            hopen (hright hrange), fun hout hrange => absurd hrange hout⟩
  · rw [mmapRight_of_not_aligned haligned]
    refine iff_of_true ?_ fun h => absurd h haligned
    by_cases hanonymous : Call.svr4Mmap.Anonymous args
    · have hrun : Call.run isOpen answer .svr4Mmap args = ⟨none, einval⟩ :=
        (svr4Mmap_of_anonymous hanonymous).trans
          (doMmap_of_not_aligned haligned none args.addr args.len args.prot _)
      rw [hrun]
      exact refused_of_none (.inl rfl)
    · cases hopen : isOpen args.fd with
      | false =>
          have hrun : Call.run isOpen answer .svr4Mmap args = ⟨none, ebadfd⟩ :=
            svr4Mmap_of_closed hanonymous hopen
          rw [hrun]
          exact refused_of_none (.inr (.inr rfl))
      | true =>
          have hrun : Call.run isOpen answer .svr4Mmap args = ⟨none, einval⟩ :=
            (svr4Mmap_of_open hanonymous hopen).trans
              (doMmap_of_not_aligned haligned _ args.addr args.len args.prot _)
          rw [hrun]
          exact refused_of_none (.inl rfl)

/-! ## `sco_mmap` -/

theorem not_anonymous_sco : ¬ Call.scoMmap.Anonymous args := by
  simp [Call.Anonymous]

theorem scoMmap_of_closed (hclosed : isOpen args.fd = false) :
    scoMmap isOpen answer args = ⟨none, ebadf⟩ := by
  simp only [scoMmap, fget, hclosed, Bool.false_eq_true, if_false]

def scoFlags (args : Args) : Word :=
  args.flags &&& ~~~scoMapUnimpl &&& ~~~(mapExecutable ||| mapDenywrite) |||
    map32bit

theorem scoMmap_of_open (hopen : isOpen args.fd = true) :
    scoMmap isOpen answer args =
      let outcome := doMmap answer (some args.fd) args.addr args.len args.prot
        (scoFlags args) args.off
      { outcome with
        result := if outcome.result = args.addr then 0 else outcome.result } := by
  simp only [scoMmap, fget, hopen, if_true]
  rfl

theorem scoFlags_and {mask : Word}
    (hkept : ~~~scoMapUnimpl &&& ~~~(mapExecutable ||| mapDenywrite) &&& mask =
      mask)
    (hgained : map32bit &&& mask = 0) :
    scoFlags args &&& mask = args.flags &&& mask := by
  rw [scoFlags, BitVec.and_assoc args.flags]
  exact and_mask_of_gained _ _ _ _ hkept hgained

/-- A file is asked for as it is, unless the bit of `MAP_ANONYMOUS` is set. -/
theorem mapsFile_sco_iff (haligned : Call.scoMmap.Aligned args)
    (hrange : Call.scoMmap.InRange args) (hopen : isOpen args.fd = true) :
    (scoMmap isOpen answer args).MapsFile .scoMmap args ↔
      args.flags &&& mapAnonymous = 0 := by
  rw [scoMmap_of_open hopen, doMmap_of_inRange haligned hrange]
  have hflags : scoFlags args &&& mapAnonymous = args.flags &&& mapAnonymous :=
    scoFlags_and (by decide) (by decide)
  constructor
  · rintro ⟨mapping, hmapping, -, -, hanonymous, -⟩
    obtain rfl := Option.some.inj hmapping
    rw [← hflags]
    exact hanonymous
  · intro hanonymous
    refine ⟨_, rfl, ⟨rfl, rfl, rfl, ?_⟩, rfl, hflags.trans hanonymous, ?_⟩
    · exact scoFlags_and (by decide) (by decide)
    · have hoffset : args.off.toNat % 4096 = 0 := haligned
      change (args.off >>> 12).toNat * 4096 = args.off.toNat
      rw [BitVec.toNat_ushiftRight, Nat.shiftRight_eq_div_pow]
      omega

theorem sco_right_iff :
    MmapRight isOpen answer .scoMmap args ↔ MmapMeets isOpen .scoMmap args := by
  rw [MmapMeets]
  cases hopen : isOpen args.fd with
  | false =>
      have hrun : Call.run isOpen answer .scoMmap args = ⟨none, ebadf⟩ :=
        scoMmap_of_closed hopen
      have hrefused : (Call.run isOpen answer .scoMmap args).Refused := by
        rw [hrun]
        exact refused_of_none (.inr (.inl rfl))
      refine iff_of_true ?_ nofun
      by_cases haligned : Call.scoMmap.Aligned args
      · exact (mmapRight_of_closed haligned not_anonymous_sco hopen).mpr hrefused
      · exact (mmapRight_of_not_aligned haligned).mpr hrefused
  | true =>
      by_cases haligned : Call.scoMmap.Aligned args
      · rw [mmapRight_of_open haligned not_anonymous_sco hopen]
        simp only [haligned, not_true_eq_false, false_implies, and_true,
          forall_const]
        exact forall_congr' fun hrange => mapsFile_sco_iff haligned hrange hopen
      · rw [mmapRight_of_not_aligned haligned]
        have hrun : Call.run isOpen answer .scoMmap args =
            ⟨none, if einval = args.addr then 0 else einval⟩ := by
          change scoMmap isOpen answer args = _
          rw [scoMmap_of_open hopen, doMmap_of_not_aligned haligned]
        rw [hrun]
        by_cases haddr : args.addr = einval
        · rw [haddr, if_pos rfl]
          refine iff_of_false ?_ fun hmeets => (hmeets rfl).2 haligned rfl
          rintro ⟨-, herr⟩
          exact absurd herr (by decide)
        · rw [if_neg (Ne.symm haddr)]
          exact iff_of_true (refused_of_none (.inl rfl))
            fun _ => ⟨fun h => absurd h haligned, fun _ => haddr⟩

/-! ## `uw7_mmap64` and `sol_mmap64` -/

/-- The two calls refuse every offset at which a page begins. -/
theorem wide_right_iff (hcall : call = .uw7Mmap64 ∨ call = .solMmap64)
    (haligned : call.Aligned args →
      call.run isOpen answer args = ⟨none, einval⟩)
    (hwithin : ¬ call.Aligned args →
      ((call.run isOpen answer args).Refused ↔
        args.overflows = true ∨
          (¬ call.Anonymous args ∧ args.flags &&& mapAnonymous = 0 ∧
            isOpen args.fd = false))) :
    MmapRight isOpen answer call args ↔ MmapMeets isOpen call args := by
  have hmeets : MmapMeets isOpen call args ↔
      if call.Aligned args then
        (call.Anonymous args → ¬ call.InRange args) ∧
          (¬ call.Anonymous args → isOpen args.fd = true → ¬ call.InRange args)
      else
        args.overflows = true ∨
          (¬ call.Anonymous args ∧ args.flags &&& mapAnonymous = 0 ∧
            isOpen args.fd = false) := by
    rcases hcall with rfl | rfl <;> exact Iff.rfl
  rw [hmeets]
  split_ifs with hpage
  · have hrun := haligned hpage
    by_cases hanonymous : call.Anonymous args
    · rw [mmapRight_of_anonymous hpage hanonymous, hrun]
      simp [hanonymous, Outcome.MapsAnonymous]
    · cases hopen : isOpen args.fd with
      | false =>
          rw [mmapRight_of_closed hpage hanonymous hopen, hrun]
          exact iff_of_true (refused_of_none (.inl rfl))
            ⟨fun hflag => absurd hflag hanonymous, nofun⟩
      | true =>
          rw [mmapRight_of_open hpage hanonymous hopen, hrun]
          simp [hanonymous, Outcome.MapsFile]
  · rw [mmapRight_of_not_aligned hpage]
    exact hwithin hpage

theorem off64_aligned_iff {call : Call} (hcall : call = .uw7Mmap64 ∨ call = .solMmap64) :
    args.off64 &&& 0xfff = 0 ↔ call.Aligned args := by
  rw [and_pageBits_eq_zero_iff (by decide)]
  rcases hcall with rfl | rfl <;> exact Iff.rfl

theorem uw7Flags_anonymous_iff :
    (if args.flags &&& svr4MapAnonymous ≠ 0 then
        (args.flags ||| mapAnonymous) &&& ~~~svr4MapAnonymous
      else args.flags) &&& ~~~(mapExecutable ||| mapDenywrite) &&& mapAnonymous =
        0 ↔
      ¬ Call.uw7Mmap64.Anonymous args ∧ args.flags &&& mapAnonymous = 0 := by
  have hmask : ~~~(mapExecutable ||| mapDenywrite) &&& mapAnonymous =
      mapAnonymous := by decide
  rw [BitVec.and_assoc, hmask]
  split_ifs with hflag
  · have hother : ~~~svr4MapAnonymous &&& mapAnonymous = mapAnonymous := by decide
    rw [BitVec.and_assoc, hother, or_and_self]
    refine iff_of_false (by decide) fun hboth => hboth.1 ⟨.inr rfl, hflag⟩
  · simp [Call.Anonymous, not_not.mp hflag]

/-- What is asked for at last is refused for a closed descriptor alone. -/
theorem asked_refused_iff (tested flags : Word) :
    (if tested &&& mapAnonymous = 0 then
        match fget isOpen args.fd with
        | none => ⟨none, ebadf⟩
        | some file =>
            doMmapPgoff answer (some file) args.addr args.len args.prot flags
              args.pgoff
      else
        doMmapPgoff answer none args.addr args.len args.prot flags
          args.pgoff : Outcome).Refused ↔
      tested &&& mapAnonymous = 0 ∧ isOpen args.fd = false := by
  by_cases hfile : tested &&& mapAnonymous = 0
  · rw [if_pos hfile]
    cases hopen : isOpen args.fd with
    | false =>
        simp only [fget, hopen, Bool.false_eq_true, if_false]
        exact iff_of_true (refused_of_none (.inr (.inl rfl))) ⟨hfile, trivial⟩
    | true =>
        simp only [fget, hopen, if_true]
        exact iff_of_false (not_refused_of_some rfl) (by simp)
  · rw [if_neg hfile]
    exact iff_of_false (not_refused_of_some rfl) fun hboth => hfile hboth.1

theorem uw7_right_iff :
    MmapRight isOpen answer .uw7Mmap64 args ↔ MmapMeets isOpen .uw7Mmap64 args := by
  have hpage := @off64_aligned_iff args .uw7Mmap64 (.inl rfl)
  apply wide_right_iff (.inl rfl)
  · intro haligned
    change uw7Mmap64 isOpen answer args = _
    rw [uw7Mmap64, if_pos (hpage.mpr haligned), ite_self]
  · intro hwithin
    change (uw7Mmap64 isOpen answer args).Refused ↔ _
    rw [uw7Mmap64]
    cases hover : args.overflows with
    | true => exact iff_of_true (refused_of_none (.inl rfl)) (.inl rfl)
    | false =>
        rw [if_neg Bool.false_ne_true, if_neg (mt hpage.mp hwithin)]
        refine (asked_refused_iff _ _).trans ?_
        rw [uw7Flags_anonymous_iff, and_assoc]
        exact (or_iff_right Bool.false_ne_true).symm

theorem sol_right_iff :
    MmapRight isOpen answer .solMmap64 args ↔ MmapMeets isOpen .solMmap64 args := by
  have hpage := @off64_aligned_iff args .solMmap64 (.inr rfl)
  have hfile : args.flags &&& ~~~(mapExecutable ||| mapDenywrite) &&&
      mapAnonymous = args.flags &&& mapAnonymous := by
    have hmask : ~~~(mapExecutable ||| mapDenywrite) &&& mapAnonymous =
        mapAnonymous := by decide
    rw [BitVec.and_assoc, hmask]
  have hnever : ¬ Call.solMmap64.Anonymous args := by simp [Call.Anonymous]
  apply wide_right_iff (.inr rfl)
  · intro haligned
    change solMmap64 isOpen answer args = _
    rw [solMmap64, if_pos (hpage.mpr haligned), ite_self]
  · intro hwithin
    change (solMmap64 isOpen answer args).Refused ↔ _
    rw [solMmap64]
    cases hover : args.overflows with
    | true => exact iff_of_true (refused_of_none (.inl rfl)) (.inl rfl)
    | false =>
        rw [if_neg Bool.false_ne_true, if_neg (mt hpage.mp hwithin)]
        refine (asked_refused_iff _ _).trans ?_
        rw [hfile]
        exact ((or_iff_right Bool.false_ne_true).trans (and_iff_right hnever)).symm

end Calls

/-- A page of descriptor 3 is asked for, readable and private. -/
def onePage (off : Word) : Args := ⟨0, 0x1000, 1, 2, 3, off, 0⟩

end IbcsUs.MmapVariants
