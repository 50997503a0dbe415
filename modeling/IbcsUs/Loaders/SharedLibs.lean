import Mathlib.Data.List.Pairwise
import IbcsUs.Loaders.Coff

/-!
# The shared libraries of a COFF file

`coff_preload_shlib` goes through a library section entry by entry and hands the path
of each to `uselib`.  The sizes of an entry come from the file and are checked, so that
the loop stays in the section.  Nothing looks for the end of a path.
-/

namespace IbcsUs.Loaders

open IbcsUs.Memory

/-- `COFF_SLIBSZ`. -/
def coffSlibsz : BitVec 32 := 8

/-- What `coff_preload_shlib` gets from the kernel: whether there is memory, the answer
of `kernel_read`, what then lies from `buffer` on, and the answers of the calls of
`uselib`. -/
structure LibraryKernel where
  kmalloc : Bool
  kernelRead : ℤ
  buffer : Image
  uselib : ℕ → ℤ

/-- `COFF_LONG`. -/
def coffLong (buffer : Image) (pos : ℕ) : BitVec 32 := BitVec.ofNat 32 (le32 buffer pos)

def entrySize (buffer : Image) (phdr : ℕ) : BitVec 32 := coffLong buffer phdr * 4

def headerSize (buffer : Image) (phdr : ℕ) : BitVec 32 := coffLong buffer (phdr + 4) * 4

/-- The variables of `coff_preload_shlib`, with `phdr` counted from `buffer`.  `headers`
and `paths` are not in the code: they record the headers that are read and the paths
that are handed to `uselib`. -/
structure Preload where
  nbytes : BitVec 32
  phdr : ℕ
  err : ℤ
  headers : List ℕ
  paths : List ℕ

/-- The variables before the loop. -/
def Preload.start (nbytes : BitVec 32) (err : ℤ) : Preload := ⟨nbytes, 0, err, [], []⟩

/-- The body of the loop, which goes on with `Sum.inr`. -/
def preloadEntry (kernel : LibraryKernel) (state : Preload) : Preload ⊕ Preload :=
  let entry := entrySize kernel.buffer state.phdr
  let header := headerSize kernel.buffer state.phdr
  let state := { state with headers := state.headers ++ [state.phdr] }
  if state.nbytes.ule header then .inl { state with err := -enoexec.number }
  else if entry.ule header then .inl { state with err := -enoexec.number }
  else if entry.sle 0 then .inl { state with err := -enoexec.number }
  else
    let err := kernel.uselib state.paths.length
    let state := { state with err, paths := state.paths ++ [state.phdr + header.toNat] }
    if err < 0 then .inl state
    else .inr { state with nbytes := state.nbytes - entry, phdr := state.phdr + entry.toNat }

/-- The loop, `none` when the fuel does not last. -/
def preloadLoop (kernel : LibraryKernel) : ℕ → Preload → Option Preload
  | 0, _ => none
  | fuel + 1, state =>
      if coffSlibsz.slt state.nbytes then
        match preloadEntry kernel state with
        | .inl state => some state
        | .inr state => preloadLoop kernel fuel state
      else some state

/-- The size of a section. -/
def CoffScnhdr.nbytes (sect : CoffScnhdr) : BitVec 32 := BitVec.ofNat 32 sect.sSize

/-- `coff_preload_shlib`. -/
def coffPreloadShlib (kernel : LibraryKernel) (sect : CoffScnhdr) (fuel : ℕ) :
    Option Preload :=
  let nbytes := sect.nbytes
  if nbytes.slt coffSlibsz then some (.start nbytes (-enoexec.number))
  else if !kernel.kmalloc then some (.start nbytes (-enomem.number))
  else if kernel.kernelRead < 0 then some (.start nbytes kernel.kernelRead)
  else if kernel.kernelRead ≠ nbytes.toInt then some (.start nbytes (-enoexec.number))
  else preloadLoop kernel fuel (.start nbytes kernel.kernelRead)

/-! ## What a section lists -/

/-- There is a zero byte at or behind a place, in the `size` bytes of the section. -/
def Terminated (buffer : Image) (size place : ℕ) : Prop :=
  ∃ stop, place ≤ stop ∧ stop < size ∧ buffer stop = 0

/-- The function ends, with the headers it has read in the section and the paths it has
handed out terminated there. -/
def PreloadsSafely (kernel : LibraryKernel) (sect : CoffScnhdr) : Prop :=
  ∃ outcome, (∀ fuel > sect.nbytes.toNat,
      coffPreloadShlib kernel sect fuel = some outcome) ∧
    (∀ phdr ∈ outcome.headers, phdr + 8 ≤ sect.nbytes.toNat) ∧
    ∀ path ∈ outcome.paths, Terminated kernel.buffer sect.nbytes.toNat path

/-- An entry with its path inside, of less than 2 GiB. -/
structure IsEntry (buffer : Image) (size place : ℕ) : Prop where
  room : place + 8 < size
  path_lt : place + (headerSize buffer place).toNat < size
  header_lt : (headerSize buffer place).toNat < (entrySize buffer place).toNat
  entry_lt : (entrySize buffer place).toNat < 2 ^ 31

/-- The paths of the libraries from a place on, up to the first that cannot be used; the
first of them is tried with the call of that number. -/
inductive Libraries (kernel : LibraryKernel) (size : ℕ) : ℕ → ℕ → List ℕ → Prop
  | done {call place : ℕ} (hend : ¬ IsEntry kernel.buffer size place) :
      Libraries kernel size call place []
  | refused {call place : ℕ} (hentry : IsEntry kernel.buffer size place)
      (huselib : kernel.uselib call < 0) :
      Libraries kernel size call place [place + (headerSize kernel.buffer place).toNat]
  | next {call place : ℕ} {paths : List ℕ} (hentry : IsEntry kernel.buffer size place)
      (huselib : 0 ≤ kernel.uselib call)
      (hrest : Libraries kernel size (call + 1)
        (place + (entrySize kernel.buffer place).toNat) paths) :
      Libraries kernel size call place
        ((place + (headerSize kernel.buffer place).toNat) :: paths)

/-- The section is in the buffer. -/
structure SectionRead (kernel : LibraryKernel) (sect : CoffScnhdr) : Prop where
  size_le : 8 ≤ sect.nbytes.toInt
  kmalloc : kernel.kmalloc = true
  kernelRead : kernel.kernelRead = sect.nbytes.toInt

/-- The last of the libraries of a section has a zero byte behind its path. -/
def LastTerminated (kernel : LibraryKernel) (sect : CoffScnhdr) : Prop :=
  SectionRead kernel sect → ∀ paths, Libraries kernel sect.nbytes.toNat 0 0 paths →
    ∀ path ∈ paths.getLast?, Terminated kernel.buffer sect.nbytes.toNat path

/-! ## The list of the libraries -/

section Lists

variable {kernel : LibraryKernel} {size call place : ℕ} {paths : List ℕ}

theorem Libraries.unique {others : List ℕ} (hpaths : Libraries kernel size call place paths)
    (hothers : Libraries kernel size call place others) : paths = others := by
  induction hpaths generalizing others with
  | done hend =>
      cases hothers with
      | done => rfl
      | refused hentry => exact absurd hentry hend
      | next hentry => exact absurd hentry hend
  | refused hentry huselib =>
      cases hothers with
      | done hend => exact absurd hentry hend
      | refused => rfl
      | next _ hused => omega
  | next hentry huselib hrest ih =>
      cases hothers with
      | done hend => exact absurd hentry hend
      | refused _ hrefused => omega
      | next _ _ hother => rw [ih hother]

theorem Libraries.le_of_mem (hpaths : Libraries kernel size call place paths) :
    ∀ path ∈ paths, place ≤ path := by
  induction hpaths with
  | done => simp
  | refused hentry huselib => simp
  | next hentry huselib hrest ih =>
      intro path hmem
      rw [List.mem_cons] at hmem
      obtain rfl | hmem := hmem
      · omega
      · have hle := ih path hmem
        omega

/-- The paths lie one behind the other, as a path begins in its entry. -/
theorem Libraries.pairwise (hpaths : Libraries kernel size call place paths) :
    paths.Pairwise (· < ·) := by
  induction hpaths with
  | done => exact List.Pairwise.nil
  | refused hentry huselib => exact List.pairwise_singleton _ _
  | next hentry huselib hrest ih =>
      refine List.pairwise_cons.mpr ⟨fun path hmem => ?_, ih⟩
      have hle := hrest.le_of_mem path hmem
      have hlt := hentry.header_lt
      omega

theorem Terminated.of_le {buffer : Image} {path last : ℕ} (hle : path ≤ last)
    (hlast : Terminated buffer size last) : Terminated buffer size path := by
  obtain ⟨stop, hstop, hlt, hzero⟩ := hlast
  exact ⟨stop, hle.trans hstop, hlt, hzero⟩

/-- All the paths are terminated when the last one is. -/
theorem Libraries.terminated_iff (hpaths : Libraries kernel size call place paths) :
    (∀ path ∈ paths, Terminated kernel.buffer size path) ↔
      ∀ path ∈ paths.getLast?, Terminated kernel.buffer size path := by
  constructor
  · intro hall path hlast
    exact hall path (List.mem_of_getLast? hlast)
  · intro hlast path hmem
    have hne : paths ≠ [] := List.ne_nil_of_mem hmem
    have hle : path ≤ paths.getLast hne :=
      (hpaths.pairwise.imp Nat.le_of_lt).rel_getLast hmem
    exact (hlast _ (List.getLast?_eq_some_getLast hne)).of_le hle

end Lists

/-! ## The loop -/

section Loop

variable {kernel : LibraryKernel} {state : Preload} {size : ℕ}

/-- What is left of a section of `size` bytes. -/
structure LeftOf (size : ℕ) (state : Preload) : Prop where
  size_lt : size < 2 ^ 31
  nbytes : state.nbytes.toInt = size - state.phdr

theorem LeftOf.room_iff (hleft : LeftOf size state) :
    coffSlibsz.slt state.nbytes = true ↔ state.phdr + 8 < size := by
  have hnbytes := hleft.nbytes
  have hslibsz : coffSlibsz.toInt = 8 := by decide
  rw [BitVec.slt_iff_toInt_lt, hnbytes, hslibsz]
  omega

theorem LeftOf.toNat (hleft : LeftOf size state) (hroom : state.phdr + 8 < size) :
    state.nbytes.toNat = size - state.phdr := by
  have hnbytes := hleft.nbytes
  have hlt := state.nbytes.isLt
  rw [BitVec.toInt_eq_toNat_cond] at hnbytes
  split at hnbytes <;> omega

/-- The checks let through what is an entry. -/
theorem checks_iff (hleft : LeftOf size state) (hroom : state.phdr + 8 < size)
    (buffer : Image) :
    (state.nbytes.ule (headerSize buffer state.phdr) = false ∧
        (entrySize buffer state.phdr).ule (headerSize buffer state.phdr) = false ∧
        (entrySize buffer state.phdr).sle 0 = false) ↔
      IsEntry buffer size state.phdr := by
  have hnbytes := hleft.toNat hroom
  have hsize := hleft.size_lt
  have hzero : (0 : BitVec 32).toInt = 0 := by decide
  rw [BitVec.ule_eq_decide, BitVec.ule_eq_decide, BitVec.sle_eq_decide, decide_eq_false_iff_not,
    decide_eq_false_iff_not, decide_eq_false_iff_not, hnbytes, hzero,
    BitVec.toInt_eq_toNat_cond]
  constructor
  · rintro ⟨hpath, hheader, hpositive⟩
    refine ⟨hroom, by omega, by omega, ?_⟩
    split at hpositive <;> omega
  · intro hentry
    have hpath := hentry.path_lt
    have hheader := hentry.header_lt
    have hlt := hentry.entry_lt
    refine ⟨by omega, by omega, ?_⟩
    rw [if_pos (by omega)]
    omega

/-- What is no entry ends the loop. -/
theorem preloadEntry_end (hleft : LeftOf size state) (hroom : state.phdr + 8 < size)
    (hend : ¬ IsEntry kernel.buffer size state.phdr) :
    preloadEntry kernel state =
      .inl { state with err := -enoexec.number, headers := state.headers ++ [state.phdr] } := by
  rw [← checks_iff hleft hroom] at hend
  simp only [preloadEntry]
  split
  · rfl
  · rename_i hpath
    split
    · rfl
    · rename_i hheader
      split
      · rfl
      · rename_i hpositive
        simp only [Bool.not_eq_true] at hpath hheader hpositive
        exact absurd ⟨hpath, hheader, hpositive⟩ hend

/-- The variables behind an entry whose library has been handed to `uselib`. -/
def Preload.used (kernel : LibraryKernel) (state : Preload) : Preload :=
  { state with
    err := kernel.uselib state.paths.length
    headers := state.headers ++ [state.phdr]
    paths := state.paths ++ [state.phdr + (headerSize kernel.buffer state.phdr).toNat] }

/-- An entry is handed to `uselib`, which decides whether the loop goes on. -/
theorem preloadEntry_entry (hleft : LeftOf size state)
    (hentry : IsEntry kernel.buffer size state.phdr) :
    preloadEntry kernel state =
      if kernel.uselib state.paths.length < 0 then .inl (state.used kernel)
      else .inr { state.used kernel with
        nbytes := state.nbytes - entrySize kernel.buffer state.phdr
        phdr := state.phdr + (entrySize kernel.buffer state.phdr).toNat } := by
  obtain ⟨hpath, hheader, hpositive⟩ := (checks_iff hleft hentry.room kernel.buffer).mpr hentry
  simp only [preloadEntry, hpath, hheader, hpositive, Bool.false_eq_true, if_false]
  rfl

/-- The next entry begins where this one ends. -/
theorem LeftOf.next (hleft : LeftOf size state)
    (hentry : IsEntry kernel.buffer size state.phdr) :
    LeftOf size { state.used kernel with
      nbytes := state.nbytes - entrySize kernel.buffer state.phdr
      phdr := state.phdr + (entrySize kernel.buffer state.phdr).toNat } := by
  have hlt := hentry.entry_lt
  have hroom := hentry.room
  have hsize := hleft.size_lt
  have hnbytes := hleft.nbytes
  have hsmall : (entrySize kernel.buffer state.phdr).toInt =
      (entrySize kernel.buffer state.phdr).toNat := by
    rw [BitVec.toInt_eq_toNat_cond, if_pos (by omega)]
  refine ⟨hleft.size_lt, ?_⟩
  rw [BitVec.toInt_sub, hnbytes, hsmall, Int.bmod_eq_of_le (by omega) (by omega)]
  push_cast
  omega

/-- The loop ends, reads the headers of the section only and hands out the paths of the
libraries that it lists. -/
theorem preloadLoop_spec (hleft : LeftOf size state) {fuel : ℕ} (hpos : 0 < fuel)
    (hfuel : size < state.phdr + fuel) :
    ∃ outcome headers paths, preloadLoop kernel fuel state = some outcome ∧
      outcome.headers = state.headers ++ headers ∧ outcome.paths = state.paths ++ paths ∧
      (∀ phdr ∈ headers, phdr + 8 ≤ size) ∧
      Libraries kernel size state.paths.length state.phdr paths := by
  induction fuel generalizing state with
  | zero => exact absurd hpos (Nat.lt_irrefl 0)
  | succ fuel ih =>
      rw [preloadLoop]
      by_cases hroom : state.phdr + 8 < size
      · rw [if_pos (hleft.room_iff.mpr hroom)]
        by_cases hentry : IsEntry kernel.buffer size state.phdr
        · have hheader : ∀ phdr ∈ [state.phdr], phdr + 8 ≤ size := by
            rintro phdr hphdr
            rw [List.mem_singleton.mp hphdr]
            exact hroom.le
          rw [preloadEntry_entry hleft hentry]
          split_ifs with huselib
          · exact ⟨_, _, _, rfl, rfl, rfl, hheader, .refused hentry huselib⟩
          · have hforward := hentry.header_lt
            obtain ⟨outcome, headers, paths, houtcome, hheaders, hpaths, hin, hlist⟩ :=
              ih (hleft.next hentry) (by omega) (by dsimp only [Preload.used]; omega)
            refine ⟨outcome, state.phdr :: headers, _ :: paths, houtcome, ?_, ?_, ?_,
              .next hentry (Int.not_lt.mp huselib) ?_⟩
            · rw [hheaders, Preload.used, List.append_assoc, List.singleton_append]
            · rw [hpaths, Preload.used, List.append_assoc, List.singleton_append]
            · exact List.forall_mem_cons.mpr ⟨hroom.le, hin⟩
            · simpa [Preload.used] using hlist
        · rw [preloadEntry_end hleft hroom hentry]
          refine ⟨_, [state.phdr], [], rfl, rfl, (List.append_nil _).symm, ?_, .done hentry⟩
          intro phdr hphdr
          rw [List.mem_singleton.mp hphdr]
          exact hroom.le
      · rw [if_neg fun hturn => hroom (hleft.room_iff.mp hturn)]
        exact ⟨state, [], [], rfl, (List.append_nil _).symm, (List.append_nil _).symm, by simp,
          .done fun hentry => hroom hentry.room⟩

/-- More fuel changes nothing. -/
theorem preloadLoop_add {fuel : ℕ} {outcome : Preload}
    (houtcome : preloadLoop kernel fuel state = some outcome) (more : ℕ) :
    preloadLoop kernel (fuel + more) state = some outcome := by
  induction fuel generalizing state with
  | zero => cases houtcome
  | succ fuel ih =>
      rw [Nat.add_right_comm, preloadLoop]
      rw [preloadLoop] at houtcome
      split at houtcome
      · rename_i hturn
        rw [if_pos hturn]
        split at houtcome
        · exact houtcome
        · exact ih houtcome
      · rename_i hturn
        rw [if_neg hturn]
        exact houtcome

end Loop

section Section

variable {kernel : LibraryKernel} {sect : CoffScnhdr}

theorem SectionRead.leftOf (hread : SectionRead kernel sect) (err : ℤ) :
    LeftOf sect.nbytes.toNat (.start sect.nbytes err) := by
  have hsize := hread.size_le
  have hlt := sect.nbytes.isLt
  rw [BitVec.toInt_eq_toNat_cond] at hsize
  have hsmall : sect.nbytes.toNat < 2 ^ 31 := by
    split at hsize <;> omega
  refine ⟨hsmall, ?_⟩
  have hnbytes : sect.nbytes.toInt = sect.nbytes.toNat := by
    rw [BitVec.toInt_eq_toNat_cond, if_pos (by omega)]
  exact hnbytes.trans (sub_zero _).symm

theorem coffPreloadShlib_read (hread : SectionRead kernel sect) (fuel : ℕ) :
    coffPreloadShlib kernel sect fuel =
      preloadLoop kernel fuel (.start sect.nbytes kernel.kernelRead) := by
  have hsize := hread.size_le
  have hslibsz : coffSlibsz.toInt = 8 := by decide
  have hlarge : sect.nbytes.slt coffSlibsz = false := by
    rw [BitVec.slt_eq_decide, decide_eq_false_iff_not, hslibsz]
    omega
  have hkernel : ¬ kernel.kernelRead < 0 := by
    rw [hread.kernelRead]
    omega
  simp only [coffPreloadShlib, hlarge, hread.kmalloc, Bool.false_eq_true, Bool.not_true,
    if_false, if_neg hkernel, if_neg (not_not_intro hread.kernelRead)]

/-- Without the section nothing is read from it. -/
theorem coffPreloadShlib_unread (hread : ¬ SectionRead kernel sect) :
    ∃ err, ∀ fuel, coffPreloadShlib kernel sect fuel = some (.start sect.nbytes err) := by
  have hslibsz : coffSlibsz.toInt = 8 := by decide
  simp only [coffPreloadShlib]
  split
  · exact ⟨_, fun _ => rfl⟩
  split
  · exact ⟨_, fun _ => rfl⟩
  split
  · exact ⟨_, fun _ => rfl⟩
  split
  · exact ⟨_, fun _ => rfl⟩
  · rename_i hlarge hkmalloc hkernel hwhole
    refine absurd ⟨?_, by simpa using hkmalloc, not_not.mp hwhole⟩ hread
    rw [BitVec.slt_iff_toInt_lt, hslibsz] at hlarge
    exact Int.not_lt.mp hlarge

/-- The outcome for a section in the buffer. -/
theorem coffPreloadShlib_spec (hread : SectionRead kernel sect) :
    ∃ outcome, (∀ fuel > sect.nbytes.toNat,
        coffPreloadShlib kernel sect fuel = some outcome) ∧
      (∀ phdr ∈ outcome.headers, phdr + 8 ≤ sect.nbytes.toNat) ∧
      Libraries kernel sect.nbytes.toNat 0 0 outcome.paths := by
  have hlimit : sect.nbytes.toNat <
      (Preload.start sect.nbytes kernel.kernelRead).phdr + (sect.nbytes.toNat + 1) := by
    dsimp only [Preload.start]
    omega
  obtain ⟨outcome, headers, paths, houtcome, hheaders, hpaths, hin, hlist⟩ :=
    preloadLoop_spec (hread.leftOf kernel.kernelRead) (Nat.succ_pos _) hlimit
  rw [Preload.start, List.nil_append] at hheaders hpaths
  refine ⟨outcome, fun fuel hfuel => ?_, hheaders ▸ hin, hpaths ▸ hlist⟩
  obtain ⟨more, rfl⟩ := Nat.exists_eq_add_of_le (Nat.succ_le_of_lt hfuel)
  rw [coffPreloadShlib_read hread]
  exact preloadLoop_add houtcome more

end Section

/-- `coff_preload_shlib` keeps to the section exactly when the last library that it comes
to has a zero byte behind its path. -/
theorem preloadsSafely_iff (kernel : LibraryKernel) (sect : CoffScnhdr) :
    PreloadsSafely kernel sect ↔ LastTerminated kernel sect := by
  by_cases hread : SectionRead kernel sect
  · obtain ⟨outcome, hends, hheaders, hlist⟩ := coffPreloadShlib_spec hread
    constructor
    · rintro ⟨other, hother, -, hterminated⟩ - paths hpaths
      have hfuel := Nat.lt_succ_self sect.nbytes.toNat
      obtain rfl := Option.some.inj ((hends _ hfuel).symm.trans (hother _ hfuel))
      rw [hpaths.unique hlist]
      exact hlist.terminated_iff.mp hterminated
    · intro hlast
      exact ⟨outcome, hends, hheaders, hlist.terminated_iff.mpr (hlast hread _ hlist)⟩
  · obtain ⟨err, hends⟩ := coffPreloadShlib_unread hread
    refine iff_of_true ⟨_, fun fuel _ => hends fuel, ?_, ?_⟩ fun hdone => absurd hdone hread
    · simp [Preload.start]
    · simp [Preload.start]

/-- A section of one library with the path "/usr", which has no end. -/
def openPath : LibraryKernel where
  kmalloc := true
  kernelRead := 12
  buffer := fun place => ([3, 0, 0, 0, 2, 0, 0, 0, 47, 117, 115, 114] : List UInt8).getD place 0
  uselib := fun _ => 0

theorem openPath_not_safe : ¬ PreloadsSafely openPath ⟨0, 12, 0, 0x800⟩ := by
  rintro ⟨outcome, houtcome, -, hterminated⟩
  have hrun : coffPreloadShlib openPath ⟨0, 12, 0, 0x800⟩ 13 = some ⟨0, 12, 0, [0], [8]⟩ := rfl
  obtain rfl := Option.some.inj ((houtcome 13 (by decide)).symm.trans hrun)
  obtain ⟨stop, hstart, hstop, hzero⟩ := hterminated 8 (List.mem_singleton_self 8)
  have hletters : ∀ stop < 12, 8 ≤ stop → openPath.buffer stop ≠ 0 := by decide
  exact hletters stop hstop hstart hzero

end IbcsUs.Loaders
