import IbcsUs.Core.AddressSpace
import IbcsUs.Memory.Brk

/-!
# Memory for a program that is being loaded

The loaders map memory through `binfmt_mmap`, which notes the highest mapping
and the highest one without a file for `init_brk`.  The kernel is a parameter:
it may refuse any request that it does not have to refuse.  The emulator's own
pages are at the top of memory, above every program, and are not part of the
space.
-/

namespace IbcsUs.Loaders

open IbcsUs.Addresses IbcsUs.Memory

/-- The bytes of an executable file, with nothing but zeros behind its end. -/
abbrev Image := ℕ → UInt8

/-- A 16-bit number of the file, low byte first. -/
def le16 (file : Image) (pos : ℕ) : ℕ :=
  (file pos).toNat + 2 ^ 8 * (file (pos + 1)).toNat

/-- A 32-bit number of the file, low byte first. -/
def le32 (file : Image) (pos : ℕ) : ℕ :=
  le16 file pos + 2 ^ 16 * le16 file (pos + 2)

/-- What a loader has done so far: what is in the program's memory, and the
record of it. -/
structure LoadState where
  space : Space UInt8
  mm : MmStruct

/-- How a load fails: with a word below zero, or with the emulator hit by a
signal when it writes to memory that is not there. -/
inductive LoadFailure where
  | status (word : ℕ)
  | segfault
  deriving DecidableEq

/-- Nothing is mapped, and the static `struct mm_struct` is still zero. -/
def LoadState.initial : LoadState := ⟨fun _ => none, ⟨0, 0, 0, 0, 0, 0, 0, 0⟩⟩

/-- `EINVAL`. -/
def einval : Errno := ⟨22, by decide, by decide⟩

/-- `EFAULT`. -/
def efault : Errno := ⟨14, by decide, by decide⟩

/-- `ENOEXEC`. -/
def enoexec : Errno := ⟨8, by decide, by decide⟩

/-- The end of the addresses that the kernel lets a 32-bit program have. -/
def taskSize : ℕ := 2 ^ 32 - 8192

/-- Why the kernel refuses to map pages that a program may have, if it does. -/
structure Kernel where
  refusal : ℕ → ℕ → Option Errno

/-- The kernel's `mmap2` with `MAP_FIXED`. -/
def mmap2 (kernel : Kernel) (space : Space UInt8) (addr len : ℕ)
    (content : ℕ → UInt8) : Space UInt8 × ℕ :=
  let pages := pageAlign len
  if len = 0 ∨ addr % 4096 ≠ 0 then (space, einval.word)
  else if pages = 0 ∨ taskSize < addr + pages then (space, enomem.word)
  else
    match kernel.refusal addr pages with
    | some errno => (space, errno.word)
    | none => (mapRange space addr pages content, addr)

/-- What a mapping holds: the bytes of the file from an offset on, or zeros
where there is no file. -/
def mapContent (file : Option Image) (offset : ℕ) : ℕ → UInt8 :=
  match file with
  | none => fun _ => 0
  | some file => fun index => file (offset + index)

/-- `do_mmap`. -/
def doMmap (kernel : Kernel) (space : Space UInt8) (file : Option Image)
    (addr len offset : ℕ) : Space UInt8 × ℕ :=
  if wordAdd offset (pageAlign len) < offset ∨ offset % 4096 ≠ 0 then
    (space, einval.word)
  else mmap2 kernel space addr len (mapContent file offset)

/-- What `binfmt_mmap` notes of a mapping. -/
def recordMmap (mm : MmStruct) (file : Option Image) (result len : ℕ) :
    MmStruct :=
  let mm :=
    if file.isNone ∧ mm.ibcsBssMmapAddr < result then
      { mm with ibcsBssMmapAddr := result, ibcsBssMmapLen := len }
    else mm
  if mm.ibcsHighMmapAddr < result then
    { mm with ibcsHighMmapAddr := result, ibcsHighMmapLen := len }
  else mm

/-- `binfmt_mmap`. -/
def binfmtMmap (kernel : Kernel) (state : LoadState) (file : Option Image)
    (addr len offset : ℕ) : LoadState × ℕ :=
  let (space, result) := doMmap kernel state.space file addr len offset
  if isErr result then (⟨space, state.mm⟩, result)
  else (⟨space, recordMmap state.mm file result len⟩, result)

/-- `file_operations_read`, which `kernel_read` calls too: a seek and a read, as
far as the memory of the program is there. -/
def fileRead (file : Image) (space : Space UInt8) (buf len pos : ℕ) :
    Space UInt8 × ℕ :=
  if 2 ^ 31 ≤ pos then (space, einval.word)
  else
    let count := min len 0x7ffff000
    let got := mappedRun space buf count
    if got = 0 ∧ 0 < count then (space, efault.word)
    else (copyInto space buf count fun index => file (pos + index), got)

/-! ## Requests that are granted -/

/-- The kernel maps the range. -/
def Granted (kernel : Kernel) (addr len : ℕ) : Prop :=
  len ≠ 0 ∧ addr % 4096 = 0 ∧ pageAlign len ≠ 0 ∧
    addr + pageAlign len ≤ taskSize ∧
    kernel.refusal addr (pageAlign len) = none

instance (kernel : Kernel) (addr len : ℕ) :
    Decidable (Granted kernel addr len) :=
  inferInstanceAs (Decidable (_ ∧ _))

/-- `do_mmap` has nothing against the place in the file. -/
def OffsetOk (offset len : ℕ) : Prop :=
  offset ≤ wordAdd offset (pageAlign len) ∧ offset % 4096 = 0

/-- The state once a request is granted. -/
def LoadState.mapped (state : LoadState) (file : Option Image)
    (addr len offset : ℕ) : LoadState :=
  ⟨mapRange state.space addr (pageAlign len) (mapContent file offset),
    recordMmap state.mm file addr len⟩

variable {kernel : Kernel} {state : LoadState} {file : Option Image}
  {addr len offset : ℕ}

/-- Below the last page the pages of a range hold it. -/
theorem le_pageAlign (hpages : pageAlign len ≠ 0) (hword : len < 2 ^ 32) :
    len ≤ pageAlign len := by
  by_cases hlow : len ≤ 2 ^ 32 - 4096
  · exact (pageAlign_bounds hlow).1
  · exact absurd (pageAlign_high (Nat.not_le.1 hlow) hword) hpages

theorem Granted.pos (hgranted : Granted kernel addr len) : 0 < len :=
  Nat.pos_of_ne_zero hgranted.1

theorem Granted.end_le (hgranted : Granted kernel addr len)
    (hword : len < 2 ^ 32) : addr + len ≤ taskSize := by
  have hlen := le_pageAlign hgranted.2.2.1 hword
  have hend := hgranted.2.2.2.1
  omega

theorem binfmtMmap_of_granted (hgranted : Granted kernel addr len)
    (hoffset : OffsetOk offset len) :
    binfmtMmap kernel state file addr len offset =
      (state.mapped file addr len offset, addr) := by
  obtain ⟨hlen, haddr, hpages, hend, hkernel⟩ := hgranted
  obtain ⟨hwrap, haligned⟩ := hoffset
  have hmmap : doMmap kernel state.space file addr len offset =
      (mapRange state.space addr (pageAlign len) (mapContent file offset),
        addr) := by
    rw [doMmap, if_neg (by omega), mmap2, if_neg (by omega), if_neg (by omega),
      hkernel]
  have herr : isErr addr = false := by
    rw [isErr_eq_false_iff]
    simp only [taskSize] at hend
    omega
  simp [binfmtMmap, hmmap, herr, LoadState.mapped]

/-- A mapping is made as asked for, or it is refused with an error number and
nothing changes. -/
theorem binfmtMmap_cases (kernel : Kernel) (state : LoadState)
    (file : Option Image) (addr len offset : ℕ) :
    (Granted kernel addr len ∧ OffsetOk offset len ∧
      binfmtMmap kernel state file addr len offset =
        (state.mapped file addr len offset, addr)) ∨
    (¬ (Granted kernel addr len ∧ OffsetOk offset len) ∧
      ∃ errno : Errno, binfmtMmap kernel state file addr len offset =
        (state, errno.word)) := by
  by_cases hboth : Granted kernel addr len ∧ OffsetOk offset len
  · obtain ⟨hgranted, hoffset⟩ := hboth
    exact .inl ⟨hgranted, hoffset, binfmtMmap_of_granted hgranted hoffset⟩
  refine .inr ⟨hboth, ?_⟩
  suffices hmmap : ∃ errno : Errno,
      doMmap kernel state.space file addr len offset =
        (state.space, errno.word) by
    obtain ⟨errno, hmmap⟩ := hmmap
    exact ⟨errno, by simp [binfmtMmap, hmmap, isErr_errno_word]⟩
  simp only [doMmap]
  split
  · exact ⟨einval, rfl⟩
  · next hoffset =>
    simp only [mmap2]
    split
    · exact ⟨einval, rfl⟩
    · next hlen =>
      split
      · exact ⟨enomem, rfl⟩
      · next hpages =>
        split
        · next errno _ => exact ⟨errno, rfl⟩
        · next hkernel =>
          refine absurd ⟨⟨?_, ?_, ?_, ?_, hkernel⟩, ?_, ?_⟩ hboth <;> omega

theorem errno_word_ge (errno : Errno) : 2 ^ 31 ≤ errno.word := by
  have hlt := errno.lt
  simp only [Errno.word]
  omega

theorem offsetOk_zero (len : ℕ) : OffsetOk 0 len := ⟨Nat.zero_le _, rfl⟩

/-- A read that returns what it was asked for has put it into memory. -/
theorem fileRead_whole {image : Image} {space : Space UInt8} {buf pos : ℕ}
    (hlen : len < 2 ^ 31)
    (hread : (fileRead image space buf len pos).2 = len) :
    (fileRead image space buf len pos).1 =
      mapRange space buf len fun index => image (pos + index) := by
  simp only [fileRead] at hread ⊢
  split at hread
  · have hword := errno_word_ge einval
    simp only at hread
    omega
  · next hpos =>
    rw [if_neg hpos]
    split at hread
    · have hword := errno_word_ge efault
      simp only at hread
      omega
    · next hgot =>
      have hrun := mappedRun_le space buf (min len 0x7ffff000)
      simp only at hread
      rw [if_neg hgot, copyInto, hread]

/-- A read maps nothing new. -/
theorem isSome_fileRead {image : Image} {space : Space UInt8}
    {buf pos address : ℕ} :
    ((fileRead image space buf len pos).1 address).isSome ↔
      (space address).isSome := by
  simp only [fileRead]
  split
  · exact Iff.rfl
  · split
    · exact Iff.rfl
    · simp only [isSome_copyInto]

/-! ## Steps that may fail -/

/-- Both steps of a load that has not failed. -/
theorem bind_eq_ok {Failure First Second : Type}
    {first : Except Failure First} {next : First → Except Failure Second}
    {result : Second} :
    first >>= next = .ok result ↔
      ∃ middle, first = .ok middle ∧ next middle = .ok result := by
  cases first with
  | error failure =>
      exact iff_of_false nofun fun ⟨_, hfirst, _⟩ => nomatch hfirst
  | ok middle =>
      exact ⟨fun heq => ⟨middle, rfl, heq⟩,
        fun ⟨_, hfirst, hnext⟩ => Except.ok.inj hfirst ▸ hnext⟩

/-- `clear_memory`: stores of zeros, one after the other. -/
def clearMemory (state : LoadState) (addr size : ℕ) :
    Except LoadFailure LoadState :=
  if mappedRun state.space addr size = size then
    .ok { state with space := mapRange state.space addr size fun _ => 0 }
  else .error .segfault

theorem clearMemory_eq_ok {after : LoadState} {size : ℕ}
    (hclear : clearMemory state addr size = .ok after) :
    (∀ address, InRange addr size address → (state.space address).isSome) ∧
      after =
        { state with space := mapRange state.space addr size fun _ => 0 } := by
  simp only [clearMemory] at hclear
  split at hclear
  · next hrun =>
    exact ⟨mappedRun_eq_iff.1 hrun, (Except.ok.inj hclear).symm⟩
  · nomatch hclear

theorem le16_lt (image : Image) (pos : ℕ) : le16 image pos < 2 ^ 16 := by
  have hlow := (image pos).toNat_lt
  have hhigh := (image (pos + 1)).toNat_lt
  simp only [le16]
  omega

theorem le32_lt (image : Image) (pos : ℕ) : le32 image pos < 2 ^ 32 := by
  have hlow := le16_lt image pos
  have hhigh := le16_lt image (pos + 2)
  simp only [le32]
  omega

end IbcsUs.Loaders
