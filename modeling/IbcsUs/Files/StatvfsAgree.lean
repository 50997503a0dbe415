import IbcsUs.Files.Statvfs

/-!
# When name and descriptor agree

The search for the mount of a file reads what the stack holds when the stack
holds the very device.  Apart from that it depends on the device alone, so that
the form for a name and the one for a descriptor can be compared by what it
finds.
-/

namespace IbcsUs.Statvfs

open IbcsUs.Files

/-! ## What is meant -/

/-- The search through the mounts for a device does not look at the stack: there
is nothing to search, or the stack does not hold the device. -/
def Settled (kernel : Kernel) (dev : BitVec 32) (garbage : Kstat) : Prop :=
  ∀ content, kernel.mounts = .ok content → content ≠ [] → garbage.dev ≠ dev

/-- What the search finds for a device when it does not look at the stack. -/
def Kernel.found (kernel : Kernel) (dev : BitVec 32) : Option (Path × ℤ) :=
  inodeToPath kernel dev ⟨0, dev + 1, 0, 0⟩

/-- The mount of a device can be determined. -/
def Kernel.Determined (kernel : Kernel) (dev : BitVec 32) : Prop :=
  ∃ path, kernel.found dev = some (path, 0)

/-- The mount of a file can be determined. -/
def Kernel.Known (kernel : Kernel) (file : Except Errno Kstat) : Prop :=
  ∃ kstat, file = .ok kstat ∧ kernel.Determined kstat.dev

/-- A call follows no pointer that was not set, stores a structure exactly when
it returns 0 and returns an error otherwise, as it does where the mount of the
file cannot be determined. -/
def Sound {σ : Type} (known : Prop) (call : Option (ℤ × Option σ)) : Prop :=
  (known ∧ ∃ stored, call = some (0, some stored)) ∨
    ∃ error, error < 0 ∧ call = some (error, none)

/-- The two calls of a pair are right, and agree on the same file. -/
structure Agree {σ : Type} (kernel : Kernel) (filename : List Char)
    (fd : BitVec 32) (byName byDescriptor : Option (ℤ × Option σ)) : Prop where
  name : Sound (kernel.Known (kernel.stat filename)) byName
  descriptor : Sound (kernel.Known (kernel.fstat fd)) byDescriptor
  same : ∀ kstat, kernel.stat filename = .ok kstat →
    kernel.fstat fd = .ok kstat → byName = byDescriptor

/-! ## The search and the stack -/

section Search

variable {world : MountWorld} {iDev : BitVec 32}

theorem length_splitWords {count : ℕ} {p : List Char} {words : List (List Char)}
    (hwords : splitWords count p = some words) : words.length = count := by
  rw [splitWords_eq] at hwords
  split at hwords
  next hlong =>
    rw [← Option.some.inj hwords, List.length_take]
    exact Nat.min_eq_left hlong.le
  next => cases hwords

/-- Four words are enough behind the loop. -/
theorem foundMount_mounted {words : List (List Char)} (kstat : Kstat)
    (hfour : words.length = 4) :
    ∃ mount dir, foundMount world kstat words =
      .mounted mount (world.statfs dir) ∧ mount.root = kstat := by
  match words, hfour with
  | [_, dir, type, options], _ => exact ⟨_, cString dir, rfl, rfl⟩

/-- How a search ends that does not begin with the device on the stack. -/
def Ends (world : MountWorld) (iDev : BitVec 32) (result : Option MountResult) :
    Prop :=
  result = some (.failed noEntry) ∨
    ∃ mount dir, result = some (.mounted mount (world.statfs dir)) ∧
      mount.root.dev = iDev

theorem mountLoop_ends {fuel : ℕ} {scan : MountScan}
    (hdev : scan.sbKstat.dev ≠ iDev)
    (hfuel : 2 * scan.unread.length + scan.pending.length < fuel) :
    Ends world iDev (mountLoop world iDev fuel scan) := by
  induction fuel generalizing scan with
  | zero => omega
  | succ fuel ih =>
    unfold mountLoop
    cases hnl : memchr scan.pending '\n' with
    | none =>
      dsimp only
      rw [if_pos hdev]
      by_cases hfull : scan.pending.length = mountBufSize
      · rw [if_pos hfull]
        exact .inl rfl
      · rw [if_neg hfull]
        by_cases hgot : mountReadSize world scan = 0
        · rw [if_pos hgot]
          exact .inl rfl
        -- a read moves bytes to the buffer
        · rw [if_neg hgot]
          have hle : mountReadSize world scan ≤ scan.unread.length := by
            unfold mountReadSize
            omega
          refine ih (show scan.sbKstat.dev ≠ iDev from hdev) ?_
          simp only [List.length_append, List.length_take, List.length_drop]
          omega
    | some nl =>
      have hlt := memchr_lt hnl
      have hshorter : 2 * scan.unread.length +
          (scan.pending.drop (nl + 1)).length < fuel := by
        rw [List.length_drop]
        omega
      dsimp only
      cases hwords : splitWords 4 (scan.pending.take nl) with
      | none =>
        dsimp only
        rw [if_pos hdev]
        exact ih hdev hshorter
      | some words =>
        dsimp only
        split
        next hother => exact ih hother hshorter
        next hsame =>
          obtain ⟨mount, dir, hmount, hroot⟩ :=
            @foundMount_mounted world words
              ((world.vfsStat (cString (words.getD 1 []))).getD scan.sbKstat)
              (length_splitWords hwords)
          refine .inr ⟨mount, dir, congrArg some hmount, ?_⟩
          rw [hroot]
          exact not_not.mp hsame

/-- What the stack holds does not matter, as long as it is not the device. -/
theorem mountLoop_stack {fuel : ℕ} {scan : MountScan} {garbage : Kstat}
    (hdev : scan.sbKstat.dev ≠ iDev) (hgarbage : garbage.dev ≠ iDev) :
    mountLoop world iDev fuel { scan with sbKstat := garbage } =
      mountLoop world iDev fuel scan := by
  induction fuel generalizing scan with
  | zero => rfl
  | succ fuel ih =>
    unfold mountLoop
    dsimp only
    cases memchr scan.pending '\n' with
    | none =>
      dsimp only
      rw [if_pos hdev, if_pos hgarbage]
      split
      · rfl
      · have hsize : mountReadSize world { scan with sbKstat := garbage } =
            mountReadSize world scan := rfl
        rw [hsize]
        split
        · rfl
        · exact @ih { scan with
            pending := scan.pending ++
              scan.unread.take (mountReadSize world scan)
            unread := scan.unread.drop (mountReadSize world scan)
            reads := scan.reads + 1 } hdev
    | some nl =>
      dsimp only
      cases splitWords 4 (scan.pending.take nl) with
      | none =>
        dsimp only
        rw [if_pos hdev, if_pos hgarbage]
        exact @ih { scan with pending := scan.pending.drop (nl + 1) } hdev
      | some words =>
        dsimp only
        cases world.vfsStat (cString (words.getD 1 [])) with
        | none =>
          rw [Option.getD_none, Option.getD_none, if_pos hdev, if_pos hgarbage]
          exact @ih { scan with pending := scan.pending.drop (nl + 1) } hdev
        | some kstat => rfl

/-- A search begins in an empty buffer. -/
theorem inodeToPath_unset {content : List Char} {garbage : Kstat}
    (hcontent : content ≠ []) (hgarbage : garbage.dev = iDev) :
    Files.inodeToPath world iDev content garbage = some .unset := by
  have hroom : 0 < mountBufSize := by decide
  have hturn := @mountLoop_refill world iDev ⟨[], content, 0, garbage⟩
    (2 * content.length) List.not_mem_nil hroom hcontent
  unfold Files.inodeToPath
  rw [hturn]
  exact if_neg (not_not.mpr hgarbage)

end Search

/-! ## `inode_to_path` -/

section Found

variable {kernel : Kernel} {dev : BitVec 32} {garbage : Kstat}

theorem succ_ne (dev : BitVec 32) : dev + 1 ≠ dev := by
  simp

/-- A settled search finds what there is to find. -/
theorem inodeToPath_settled (hsettled : Settled kernel dev garbage) :
    inodeToPath kernel dev garbage = kernel.found dev := by
  unfold Kernel.found inodeToPath
  cases hmounts : kernel.mounts with
  | error errno => rfl
  | ok content =>
    have hsame : Files.inodeToPath kernel.world dev content garbage =
        Files.inodeToPath kernel.world dev content ⟨0, dev + 1, 0, 0⟩ := by
      by_cases hcontent : content = []
      · rw [hcontent]
        exact (mountLoop_end _ rfl rfl).trans (mountLoop_end _ rfl rfl).symm
      · exact @mountLoop_stack kernel.world dev (2 * content.length + 1)
          ⟨[], content, 0, ⟨0, dev + 1, 0, 0⟩⟩ garbage (succ_ne dev)
          (hsettled content hmounts hcontent)
    dsimp only
    rw [hsame]

/-- Any other search works on words that it has not set. -/
theorem inodeToPath_unsettled (hunsettled : ¬ Settled kernel dev garbage) :
    inodeToPath kernel dev garbage = none := by
  rw [Settled] at hunsettled
  push Not at hunsettled
  obtain ⟨content, hmounts, hcontent, hgarbage⟩ := hunsettled
  rw [inodeToPath]
  rw [hmounts]
  dsimp only
  rw [inodeToPath_unset hcontent hgarbage]

/-- A search ends in an error with an empty path, in an error of `statfs`, or
with the mount. -/
theorem found_cases (kernel : Kernel) (dev : BitVec 32) :
    ∃ path retval, kernel.found dev = some (path, retval) ∧
      (retval < 0 ∧ path = pathConstruct ∨ retval ≤ 0 ∧ path.rootDev = dev) := by
  rw [Kernel.found, inodeToPath]
  cases kernel.mounts with
  | error errno => exact ⟨_, _, rfl, .inl ⟨errno.bounds.2, rfl⟩⟩
  | ok content =>
    have hends : Ends kernel.world dev
        (Files.inodeToPath kernel.world dev content ⟨0, dev + 1, 0, 0⟩) :=
      mountLoop_ends (succ_ne dev) (Nat.lt_succ_self _)
    obtain hfailed | ⟨mount, dir, hmounted, hroot⟩ := hends
    · dsimp only
      rw [hfailed]
      exact ⟨_, _, rfl, .inl ⟨by decide, rfl⟩⟩
    · have hretval : kernel.world.statfs dir ≤ 0 := by
        rw [Kernel.world]
        dsimp only
        split
        · exact le_rfl
        · next errno _ => exact errno.bounds.2.le
      dsimp only
      rw [hmounted]
      exact ⟨_, _, rfl, .inr ⟨hretval, hroot⟩⟩

/-- The path and the error that a search finds. -/
def Kernel.path (kernel : Kernel) (dev : BitVec 32) : Path :=
  ((kernel.found dev).getD (pathConstruct, 0)).1

def Kernel.retval (kernel : Kernel) (dev : BitVec 32) : ℤ :=
  ((kernel.found dev).getD (pathConstruct, 0)).2

theorem found_eq (kernel : Kernel) (dev : BitVec 32) :
    kernel.found dev = some (kernel.path dev, kernel.retval dev) := by
  obtain ⟨path, retval, hfound, -⟩ := found_cases kernel dev
  rw [Kernel.path, Kernel.retval]
  rw [hfound]
  rfl

theorem retval_le (kernel : Kernel) (dev : BitVec 32) : kernel.retval dev ≤ 0 := by
  obtain ⟨path, retval, hfound, hends⟩ := found_cases kernel dev
  have hretval : kernel.retval dev = retval := by
    rw [Kernel.retval]
    rw [hfound]
    rfl
  rw [hretval]
  obtain ⟨hnegative, -⟩ | ⟨hle, -⟩ := hends
  · exact hnegative.le
  · exact hle

theorem retval_neg {kernel : Kernel} {dev : BitVec 32}
    (hretval : kernel.retval dev ≠ 0) : kernel.retval dev < 0 :=
  lt_of_le_of_ne (retval_le kernel dev) hretval

theorem rootDev_path (hretval : kernel.retval dev = 0) :
    (kernel.path dev).rootDev = dev := by
  obtain ⟨path, retval, hfound, hends⟩ := found_cases kernel dev
  rw [found_eq, Option.some.injEq, Prod.mk.injEq] at hfound
  obtain ⟨hnegative, -⟩ | ⟨-, hroot⟩ := hends
  · omega
  · rw [hfound.1]
    exact hroot

theorem determined_iff : kernel.Determined dev ↔ kernel.retval dev = 0 := by
  rw [Kernel.Determined]
  rw [found_eq]
  constructor
  · rintro ⟨path, hpath⟩
    exact congrArg Prod.snd (Option.some.inj hpath)
  · intro hretval
    exact ⟨kernel.path dev, by rw [hretval]⟩

theorem firstMount_failed {world : MountWorld} {lines : List MountLine} {errno : ℤ}
    (hfailed : firstMount world dev lines = .failed errno) : errno = noEntry := by
  induction lines with
  | nil =>
    injection hfailed with herrno
    exact herrno.symm
  | cons line lines ih =>
    rw [firstMount] at hfailed
    split at hfailed
    · exact ih hfailed
    · cases hfailed

/-- The mounts of a table are determined by the first line of their device. -/
theorem determined_mountContent {lines : List MountLine}
    (hmounts : kernel.mounts = .ok (mountContent lines)) :
    kernel.Determined dev ↔
      ∃ mount, firstMount kernel.world dev lines = .mounted mount 0 := by
  have hfirst : Files.inodeToPath kernel.world dev (mountContent lines)
      ⟨0, dev + 1, 0, 0⟩ = some (firstMount kernel.world dev lines) :=
    mountLoop_eq rfl (succ_ne dev) (Nat.lt_succ_self _)
  rw [Kernel.Determined, Kernel.found, inodeToPath]
  rw [hmounts]
  dsimp only
  rw [hfirst]
  cases hmount : firstMount kernel.world dev lines with
  | unset => simp
  | failed errno =>
    have herrno : errno ≠ 0 := by
      rw [firstMount_failed hmount]
      decide
    simp [herrno]
  | mounted mount retval => simp

end Found

/-! ## The common parts -/

section Parts

variable {kernel : Kernel} {dev : BitVec 32} {garbage : Kstat}

theorem vfsStatfs_settled (hsettled : Settled kernel dev garbage) :
    vfsStatfs kernel dev garbage =
      some (if kernel.retval dev < 0 then .error (kernel.retval dev)
        else .ok (kernel.path dev).kstatfs) := by
  rw [vfsStatfs]
  rw [inodeToPath_settled hsettled, found_eq]
  rfl

theorem vfsStatfs_unsettled (hunsettled : ¬ Settled kernel dev garbage) :
    vfsStatfs kernel dev garbage = none := by
  rw [vfsStatfs]
  rw [inodeToPath_unsettled hunsettled]
  rfl

theorem filePath_error (kernel : Kernel) (errno : Errno) (garbage : Kstat) :
    filePath kernel (.error errno) garbage = some (none, errno.value) := rfl

theorem filePath_settled {kstat : Kstat}
    (hsettled : Settled kernel kstat.dev garbage) :
    filePath kernel (.ok kstat) garbage =
      some (some (kernel.path kstat.dev), kernel.retval kstat.dev) := by
  rw [filePath]
  dsimp only
  rw [inodeToPath_settled hsettled, found_eq]
  rfl

theorem filePath_unsettled {kstat : Kstat}
    (hunsettled : ¬ Settled kernel kstat.dev garbage) :
    filePath kernel (.ok kstat) garbage = none := by
  rw [filePath]
  dsimp only
  rw [inodeToPath_unsettled hunsettled]
  rfl

section Reports

variable {σ : Type} (fill : Path → Kstatfs → σ) (known : Prop)

/-- The report of a mount: it is looked for once more, and what is found is put
in the structure of the caller. -/
def report (kernel : Kernel) (mnt : Path) (garbage : Kstat) :
    Option (ℤ × Option σ) := do
  match ← vfsStatfs kernel mnt.rootDev garbage with
  | .error error => return (error, none)
  | .ok s => return (0, some (fill mnt s))

/-- The path of a file, and the report of its mount. -/
def reportFile (kernel : Kernel) (file : Except Errno Kstat)
    (first second : Kstat) : Option (ℤ × Option σ) := do
  let (path, error) ← filePath kernel file first
  if error = 0 then
    let path ← path
    report fill kernel path second
  else return (error, none)

/-- What there is to say of a file. -/
def answer (kernel : Kernel) (file : Except Errno Kstat) : ℤ × Option σ :=
  match file with
  | .error errno => (errno.value, none)
  | .ok kstat =>
      if kernel.retval kstat.dev = 0 then
        (0, some (fill (kernel.path kstat.dev) (kernel.path kstat.dev).kstatfs))
      else (kernel.retval kstat.dev, none)

theorem report_settled {mnt : Path}
    (hsettled : Settled kernel mnt.rootDev garbage) :
    report fill kernel mnt garbage =
      if kernel.retval mnt.rootDev < 0 then
        some (kernel.retval mnt.rootDev, none)
      else some (0, some (fill mnt (kernel.path mnt.rootDev).kstatfs)) := by
  rw [report]
  rw [vfsStatfs_settled hsettled]
  by_cases hretval : kernel.retval mnt.rootDev < 0
  · rw [if_pos hretval, if_pos hretval]
    rfl
  · rw [if_neg hretval, if_neg hretval]
    rfl

theorem report_unsettled {mnt : Path}
    (hunsettled : ¬ Settled kernel mnt.rootDev garbage) :
    report fill kernel mnt garbage = none := by
  rw [report]
  rw [vfsStatfs_unsettled hunsettled]
  rfl

/-- No search for the mount of a file looks at the stack: the second one is made
if the first one has found the mount. -/
def FileSettled (kernel : Kernel) (file : Except Errno Kstat)
    (first second : Kstat) : Prop :=
  ∀ kstat, file = .ok kstat → Settled kernel kstat.dev first ∧
    (kernel.Determined kstat.dev → Settled kernel kstat.dev second)

/-- There is only an error to say of a file whose file system cannot be found. -/
theorem answer_lost {kernel : Kernel} {kstat : Kstat}
    (hretval : kernel.retval kstat.dev ≠ 0) :
    answer fill kernel (.ok kstat) = (kernel.retval kstat.dev, none) :=
  if_neg hretval

/-- An error of the kernel is sound. -/
theorem sound_retval (kernel : Kernel) {dev : BitVec 32}
    (hretval : kernel.retval dev ≠ 0) :
    Sound known (some (kernel.retval dev, (none : Option σ))) :=
  .inr ⟨kernel.retval dev, retval_neg hretval, rfl⟩

theorem answer_sound (kernel : Kernel) (file : Except Errno Kstat) :
    Sound (kernel.Known file) (some (answer fill kernel file)) := by
  cases file with
  | error errno => exact .inr ⟨errno.value, errno.bounds.2, rfl⟩
  | ok kstat =>
    by_cases hretval : kernel.retval kstat.dev = 0
    · refine .inl ⟨⟨kstat, rfl, determined_iff.mpr hretval⟩,
        fill (kernel.path kstat.dev) (kernel.path kstat.dev).kstatfs, ?_⟩
      exact congrArg some (if_pos hretval)
    · rw [answer_lost fill hretval]
      exact sound_retval _ kernel hretval

theorem reportFile_settled {file : Except Errno Kstat} {first second : Kstat}
    (hsettled : FileSettled kernel file first second) :
    reportFile fill kernel file first second =
      some (answer fill kernel file) := by
  cases file with
  | error errno =>
    have herrno : errno.value ≠ 0 := errno.bounds.2.ne
    rw [reportFile]
    rw [filePath_error, Option.bind_eq_bind, Option.bind_some]
    dsimp only
    rw [if_neg herrno]
    rfl
  | ok kstat =>
    obtain ⟨hfirst, hsecond⟩ := hsettled kstat rfl
    rw [reportFile, answer]
    rw [filePath_settled hfirst, Option.bind_eq_bind, Option.bind_some]
    dsimp only
    by_cases hretval : kernel.retval kstat.dev = 0
    · have hroot := rootDev_path hretval
      have hagain : Settled kernel (kernel.path kstat.dev).rootDev second := by
        rw [hroot]
        exact hsecond (determined_iff.mpr hretval)
      have hnonneg : ¬ kernel.retval (kernel.path kstat.dev).rootDev < 0 := by
        rw [hroot, hretval]
        exact lt_irrefl 0
      rw [if_pos hretval, if_pos hretval]
      change report fill kernel (kernel.path kstat.dev) second = _
      rw [report_settled fill hagain, if_neg hnonneg, hroot]
    · rw [if_neg hretval, if_neg hretval]
      rfl

theorem reportFile_unsettled {file : Except Errno Kstat} {first second : Kstat}
    (hunsettled : ¬ FileSettled kernel file first second) :
    reportFile fill kernel file first second = none := by
  rw [FileSettled] at hunsettled
  push Not at hunsettled
  obtain ⟨kstat, rfl, hsecond⟩ := hunsettled
  rw [reportFile]
  by_cases hfirst : Settled kernel kstat.dev first
  · obtain ⟨hdetermined, hagain⟩ := hsecond hfirst
    have hretval := determined_iff.mp hdetermined
    rw [← rootDev_path hretval] at hagain
    rw [filePath_settled hfirst, Option.bind_eq_bind, Option.bind_some]
    dsimp only
    rw [if_pos hretval]
    exact report_unsettled fill hagain
  · rw [filePath_unsettled hfirst]
    rfl

theorem not_sound_none : ¬ Sound known (none : Option (ℤ × Option σ)) := by
  rintro (⟨-, stored, hcall⟩ | ⟨error, -, hcall⟩)
  · cases hcall
  · cases hcall

/-- The form for a name is right exactly when no search looks at the stack. -/
theorem sound_reportFile {file : Except Errno Kstat} {first second : Kstat} :
    Sound (kernel.Known file) (reportFile fill kernel file first second) ↔
      FileSettled kernel file first second := by
  constructor
  · intro hsound
    by_contra hunsettled
    rw [reportFile_unsettled fill hunsettled] at hsound
    exact not_sound_none _ hsound
  · intro hsettled
    rw [reportFile_settled fill hsettled]
    exact answer_sound fill kernel file

end Reports

end Parts

/-! ## The pairs -/

section Pairs

variable {kernel : Kernel} {filename : List Char} {files : FileState}
  {memory : ℕ → ℕ} {fd len : BitVec 32} {fType : BitVec 16}
  {named opened : Stack}

/-- The slot of a descriptor leads to a `struct file`, or to none yet. -/
def SlotKept (files : FileState) (memory : ℕ → ℕ) (fd : BitVec 32) : Prop :=
  let pointer := (ensureSlot files fd.toNat memory).table.slots fd.toNat
  pointer = 0 ∨ files.files pointer ≠ none

theorem files_ensureSlot (files : FileState) (fd : ℕ) (memory : ℕ → ℕ) :
    (ensureSlot files fd memory).files = files.files := by
  rw [ensureSlot]
  split
  · rfl
  · rfl

theorem fget_none_iff : fget kernel files memory fd = none ↔
    ¬ SlotKept files memory fd := by
  have hfiles := files_ensureSlot files fd.toNat memory
  rw [fget, Files.fget, findFile, SlotKept]
  dsimp only [FileState.readSlot]
  by_cases hnull : (ensureSlot files fd.toNat memory).table.slots fd.toNat = 0
  · simp [hnull, FileState.setFile, FileState.writeSlot, FileState.note]
  · simp only [hnull, false_or, FileState.note, hfiles]
    cases hfile : files.files
        ((ensureSlot files fd.toNat memory).table.slots fd.toNat) with
    | none => simp [hfile]
    | some file => simp [hfile]

/-! ### `svr4_statfs` -/

/-- `svr4_fstatfs` goes to a mount by a path that nothing has filled in. -/
theorem svr4Fstatfs_none (hlen : ¬ len.toInt > svr4StatfsSize) :
    svr4Fstatfs kernel files memory fd len 0 fType opened = none := by
  rw [svr4Fstatfs]
  rw [if_neg hlen, if_pos rfl]
  cases fget kernel files memory fd with
  | none => rfl
  | some file => rfl

theorem agree_statfs :
    Agree kernel filename fd (svr4Statfs kernel filename len 0 fType named)
        (svr4Fstatfs kernel files memory fd len 0 fType opened) ↔
      len.toInt > svr4StatfsSize := by
  constructor
  · intro hagree
    by_contra hlen
    have hdescriptor := hagree.descriptor
    rw [svr4Fstatfs_none hlen] at hdescriptor
    exact not_sound_none _ hdescriptor
  · intro hlen
    have hname : svr4Statfs kernel filename len 0 fType named =
        some (-22, none) := if_pos hlen
    have hdescriptor : svr4Fstatfs kernel files memory fd len 0 fType opened =
        some (-22, none) := if_pos hlen
    constructor
    · exact .inr ⟨-22, by decide, hname⟩
    · exact .inr ⟨-22, by decide, hdescriptor⟩
    · intro kstat _ _
      rw [hname, hdescriptor]

/-! ### `uw7_statvfs64` -/

theorem uw7Fstatvfs64_none (hslot : ¬ SlotKept files memory fd) :
    uw7Fstatvfs64 kernel files memory fd opened = none := by
  rw [uw7Fstatvfs64]
  rw [fget_none_iff.mpr hslot]
  rfl

/-- The form for a descriptor makes the report twice. -/
theorem uw7Fstatvfs64_eq (hslot : SlotKept files memory fd)
    (hthird : ∀ kstat, kernel.fstat fd = .ok kstat →
      kernel.Determined kstat.dev → Settled kernel kstat.dev opened.third) :
    uw7Fstatvfs64 kernel files memory fd opened =
      reportFile cpUw7Statvfs64 kernel (kernel.fstat fd) opened.first
        opened.second := by
  obtain ⟨file, hfile⟩ := Option.ne_none_iff_exists'.mp
    (mt fget_none_iff.mp (not_not.mpr hslot) :
      fget kernel files memory fd ≠ none)
  rw [uw7Fstatvfs64, reportFile, linux26UserFpath]
  rw [hfile, Option.bind_eq_bind, Option.bind_some]
  cases hfstat : kernel.fstat fd with
  | error errno => rfl
  | ok kstat =>
    by_cases hfirst : Settled kernel kstat.dev opened.first
    · rw [filePath_settled hfirst, Option.bind_eq_bind, Option.bind_some,
        Option.bind_some]
      dsimp only
      by_cases hretval : kernel.retval kstat.dev = 0
      · have hroot := rootDev_path hretval
        have hagain := hthird kstat hfstat (determined_iff.mpr hretval)
        have hnonneg : ¬ kernel.retval kstat.dev < 0 := hretval.ge.not_gt
        rw [if_pos hretval, if_pos hretval]
        change (do
            match ← vfsStatfs kernel (kernel.path kstat.dev).rootDev
              opened.second with
            | .error error => return (error, none)
            | .ok _ =>
                report cpUw7Statvfs64 kernel (kernel.path kstat.dev)
                  opened.third) =
          report cpUw7Statvfs64 kernel (kernel.path kstat.dev) opened.second
        rw [hroot]
        rw [← hroot] at hagain
        by_cases hsecond : Settled kernel kstat.dev opened.second
        · rw [vfsStatfs_settled hsecond, if_neg hnonneg]
          rw [← hroot] at hsecond
          rw [report_settled _ hsecond]
          exact report_settled _ hagain
        · rw [vfsStatfs_unsettled hsecond]
          rw [← hroot] at hsecond
          rw [report_unsettled _ hsecond]
          rfl
      · rw [if_neg hretval, if_neg hretval]
    · rw [filePath_unsettled hfirst]
      rfl

theorem uw7Fstatvfs64_unsettled {kstat : Kstat} (hfstat : kernel.fstat fd = .ok kstat)
    (hdetermined : kernel.Determined kstat.dev)
    (hthird : ¬ Settled kernel kstat.dev opened.third) :
    uw7Fstatvfs64 kernel files memory fd opened = none := by
  have hretval := determined_iff.mp hdetermined
  have hroot := rootDev_path hretval
  have hnonneg : ¬ kernel.retval kstat.dev < 0 := hretval.ge.not_gt
  rw [uw7Fstatvfs64, linux26UserFpath]
  rw [hfstat]
  cases fget kernel files memory fd with
  | none => rfl
  | some file =>
    by_cases hfirst : Settled kernel kstat.dev opened.first
    · rw [filePath_settled hfirst, Option.bind_eq_bind, Option.bind_some,
        Option.bind_eq_bind, Option.bind_some]
      dsimp only
      rw [if_pos hretval]
      change (do
          match ← vfsStatfs kernel (kernel.path kstat.dev).rootDev
            opened.second with
          | .error error => return (error, none)
          | .ok _ =>
              report cpUw7Statvfs64 kernel (kernel.path kstat.dev)
                opened.third) = none
      rw [hroot]
      by_cases hsecond : Settled kernel kstat.dev opened.second
      · rw [← hroot] at hthird
        rw [vfsStatfs_settled hsecond, if_neg hnonneg]
        exact report_unsettled _ hthird
      · rw [vfsStatfs_unsettled hsecond]
        rfl
    · rw [filePath_unsettled hfirst]
      rfl

theorem agree_uw7Statvfs64 :
    Agree kernel filename fd (uw7Statvfs64 kernel filename named)
        (uw7Fstatvfs64 kernel files memory fd opened) ↔
      FileSettled kernel (kernel.stat filename) named.first named.second ∧
        SlotKept files memory fd ∧
        FileSettled kernel (kernel.fstat fd) opened.first opened.second ∧
        FileSettled kernel (kernel.fstat fd) opened.first opened.third := by
  constructor
  · rintro ⟨hname, hdescriptor, -⟩
    have hslot : SlotKept files memory fd := by
      by_contra hslot
      rw [uw7Fstatvfs64_none hslot] at hdescriptor
      exact not_sound_none _ hdescriptor
    have hthird : ∀ kstat, kernel.fstat fd = .ok kstat →
        kernel.Determined kstat.dev →
          Settled kernel kstat.dev opened.third := by
      intro kstat hfstat hdetermined
      by_contra hunsettled
      rw [uw7Fstatvfs64_unsettled hfstat hdetermined hunsettled] at hdescriptor
      exact not_sound_none _ hdescriptor
    rw [uw7Fstatvfs64_eq hslot hthird, sound_reportFile] at hdescriptor
    refine ⟨(sound_reportFile _).mp hname, hslot, hdescriptor, ?_⟩
    intro kstat hfstat
    exact ⟨(hdescriptor kstat hfstat).1, hthird kstat hfstat⟩
  · rintro ⟨hname, hslot, hopened, hthird⟩
    have hagain : ∀ kstat, kernel.fstat fd = .ok kstat →
        kernel.Determined kstat.dev → Settled kernel kstat.dev opened.third :=
      fun kstat hfstat => (hthird kstat hfstat).2
    have hnameEq : uw7Statvfs64 kernel filename named =
        some (answer cpUw7Statvfs64 kernel (kernel.stat filename)) :=
      reportFile_settled _ hname
    have hdescriptorEq : uw7Fstatvfs64 kernel files memory fd opened =
        some (answer cpUw7Statvfs64 kernel (kernel.fstat fd)) :=
      (uw7Fstatvfs64_eq hslot hagain).trans (reportFile_settled _ hopened)
    constructor
    · rw [hnameEq]
      exact answer_sound _ kernel _
    · rw [hdescriptorEq]
      exact answer_sound _ kernel _
    · intro kstat hstat hfstat
      rw [hnameEq, hdescriptorEq, hstat, hfstat]

/-! ### `svr4_statvfs` -/

theorem svr4Statvfs_eq :
    svr4Statvfs kernel filename named =
      reportFile svr4Report kernel (kernel.stat filename) named.first
        named.second := rfl

/-- The descriptor is open, and neither search looks at the stack.  If there is
no mount, the second one is for device 0, and ends in an error, too: in the same
one, where it is the same file. -/
structure Fallback (kernel : Kernel) (filename : List Char) (kstat : Kstat)
    (first second : Kstat) : Prop where
  first : Settled kernel kstat.dev first
  second : Settled kernel (kernel.path kstat.dev).rootDev second
  fails : kernel.retval kstat.dev ≠ 0 →
    kernel.retval (kernel.path kstat.dev).rootDev ≠ 0
  same : kernel.stat filename = .ok kstat →
    kernel.retval (kernel.path kstat.dev).rootDev = kernel.retval kstat.dev

theorem svr4Fstatvfs_none (hslot : ¬ SlotKept files memory fd) :
    svr4Fstatvfs kernel files memory fd opened = none := by
  rw [svr4Fstatvfs]
  rw [fget_none_iff.mpr hslot]
  rfl

theorem svr4Fstatvfs_error {errno : Errno} (hfstat : kernel.fstat fd = .error errno) :
    svr4Fstatvfs kernel files memory fd opened = none := by
  rw [svr4Fstatvfs, linux26UserFpath]
  rw [hfstat, filePath_error]
  cases fget kernel files memory fd with
  | none => rfl
  | some file => rfl

theorem svr4Fstatvfs_settled {kstat : Kstat} (hslot : SlotKept files memory fd)
    (hfstat : kernel.fstat fd = .ok kstat)
    (hfirst : Settled kernel kstat.dev opened.first) :
    svr4Fstatvfs kernel files memory fd opened =
      report svr4Report kernel (kernel.path kstat.dev) opened.second := by
  obtain ⟨file, hfile⟩ := Option.ne_none_iff_exists'.mp
    (mt fget_none_iff.mp (not_not.mpr hslot) :
      fget kernel files memory fd ≠ none)
  rw [svr4Fstatvfs, linux26UserFpath]
  rw [hfile, hfstat, filePath_settled hfirst]
  rfl

theorem svr4Fstatvfs_unsettled {kstat : Kstat}
    (hfstat : kernel.fstat fd = .ok kstat)
    (hfirst : ¬ Settled kernel kstat.dev opened.first) :
    svr4Fstatvfs kernel files memory fd opened = none := by
  rw [svr4Fstatvfs, linux26UserFpath]
  rw [hfstat, filePath_unsettled hfirst]
  cases fget kernel files memory fd with
  | none => rfl
  | some file => rfl

/-- The report of the mount that the search for a descriptor leaves, if need be
of device 0. -/
theorem report_path {kstat : Kstat} {second : Kstat} {σ : Type}
    (fill : Path → Kstatfs → σ)
    (hsecond : Settled kernel (kernel.path kstat.dev).rootDev second)
    (hfails : kernel.retval kstat.dev ≠ 0 →
      kernel.retval (kernel.path kstat.dev).rootDev ≠ 0) :
    report fill kernel (kernel.path kstat.dev) second =
      some (if kernel.retval kstat.dev = 0 then
          (0, some (fill (kernel.path kstat.dev)
            (kernel.path kstat.dev).kstatfs))
        else (kernel.retval (kernel.path kstat.dev).rootDev, none)) := by
  rw [report_settled fill hsecond]
  by_cases hretval : kernel.retval kstat.dev = 0
  · have hroot := rootDev_path hretval
    have hnonneg : ¬ kernel.retval (kernel.path kstat.dev).rootDev < 0 := by
      rw [hroot, hretval]
      exact lt_irrefl 0
    rw [if_neg hnonneg, if_pos hretval, hroot]
  · rw [if_pos (retval_neg (hfails hretval)), if_neg hretval]

/-- When the call on a descriptor is right. -/
theorem sound_svr4Fstatvfs_iff :
    Sound (kernel.Known (kernel.fstat fd))
        (svr4Fstatvfs kernel files memory fd opened) ↔
      SlotKept files memory fd ∧ ∃ kstat, kernel.fstat fd = .ok kstat ∧
        Settled kernel kstat.dev opened.first ∧
        Settled kernel (kernel.path kstat.dev).rootDev opened.second ∧
        (kernel.retval kstat.dev ≠ 0 →
          kernel.retval (kernel.path kstat.dev).rootDev ≠ 0) := by
  constructor
  · intro hdescriptor
    have hslot : SlotKept files memory fd := by
      by_contra hslot
      rw [svr4Fstatvfs_none hslot] at hdescriptor
      exact not_sound_none _ hdescriptor
    refine ⟨hslot, ?_⟩
    cases hfstat : kernel.fstat fd with
    | error errno =>
      rw [svr4Fstatvfs_error hfstat] at hdescriptor
      exact absurd hdescriptor (not_sound_none _)
    | ok kstat =>
      have hfirst : Settled kernel kstat.dev opened.first := by
        by_contra hunsettled
        rw [svr4Fstatvfs_unsettled hfstat hunsettled] at hdescriptor
        exact not_sound_none _ hdescriptor
      have hreport := svr4Fstatvfs_settled hslot hfstat hfirst
      have hsecond : Settled kernel (kernel.path kstat.dev).rootDev
          opened.second := by
        by_contra hunsettled
        rw [hreport, report_unsettled _ hunsettled] at hdescriptor
        exact not_sound_none _ hdescriptor
      refine ⟨kstat, rfl, hfirst, hsecond, fun hretval hzero => ?_⟩
      rw [hreport, report_settled _ hsecond, if_neg hzero.ge.not_gt] at hdescriptor
      obtain ⟨⟨other, hother, hdetermined⟩, -⟩ | ⟨error, -, hcall⟩ := hdescriptor
      · rw [hfstat] at hother
        cases hother
        exact hretval (determined_iff.mp hdetermined)
      · cases hcall
  · rintro ⟨hslot, kstat, hfstat, hfirst, hsecond, hfails⟩
    rw [svr4Fstatvfs_settled hslot hfstat hfirst, report_path svr4Report hsecond hfails]
    by_cases hretval : kernel.retval kstat.dev = 0
    · rw [if_pos hretval]
      exact .inl ⟨⟨kstat, hfstat, determined_iff.mpr hretval⟩, _, rfl⟩
    · rw [if_neg hretval]
      exact sound_retval _ kernel (hfails hretval)

theorem agree_svr4Statvfs :
    Agree kernel filename fd (svr4Statvfs kernel filename named)
        (svr4Fstatvfs kernel files memory fd opened) ↔
      FileSettled kernel (kernel.stat filename) named.first named.second ∧
        SlotKept files memory fd ∧
        ∃ kstat, kernel.fstat fd = .ok kstat ∧
          Fallback kernel filename kstat opened.first opened.second := by
  constructor
  · rintro ⟨hname, hdescriptor, hsame⟩
    have hsettled := (sound_reportFile svr4Report).mp hname
    obtain ⟨hslot, kstat, hfstat, hfirst, hsecond, hfails⟩ :=
      sound_svr4Fstatvfs_iff.mp hdescriptor
    refine ⟨hsettled, hslot, kstat, hfstat, hfirst, hsecond, hfails, fun hstat => ?_⟩
    have hequal := hsame kstat hstat hfstat
    rw [svr4Statvfs_eq, reportFile_settled _ hsettled, hstat,
      svr4Fstatvfs_settled hslot hfstat hfirst, report_path _ hsecond hfails] at hequal
    by_cases hretval : kernel.retval kstat.dev = 0
    · rw [rootDev_path hretval]
    · rw [answer_lost svr4Report hretval, if_neg hretval] at hequal
      exact (congrArg Prod.fst (Option.some.inj hequal)).symm
  · rintro ⟨hsettled, hslot, kstat, hfstat, hfirst, hsecond, hfails, hsame⟩
    have hreport := (svr4Fstatvfs_settled hslot hfstat hfirst).trans
      (report_path svr4Report hsecond hfails)
    have hnameEq : svr4Statvfs kernel filename named =
        some (answer svr4Report kernel (kernel.stat filename)) :=
      reportFile_settled _ hsettled
    refine ⟨?_, sound_svr4Fstatvfs_iff.mpr ⟨hslot, kstat, hfstat, hfirst, hsecond, hfails⟩,
      fun other hstat hother => ?_⟩
    · rw [hnameEq]
      exact answer_sound _ kernel _
    · rw [hfstat] at hother
      cases hother
      rw [hnameEq, hreport, hsame hstat, hstat]
      rfl

/-! ### `sco_statvfs` -/

/-- `report_statvfs` never gets beyond an error. -/
theorem scoReportStatvfs_none {mnt : Path} {garbage : Kstat}
    (hreached : ¬ (Settled kernel mnt.rootDev garbage ∧
      kernel.retval mnt.rootDev ≠ 0)) :
    scoReportStatvfs kernel mnt garbage = none := by
  rw [scoReportStatvfs]
  by_cases hsettled : Settled kernel mnt.rootDev garbage
  · have hretval : kernel.retval mnt.rootDev = 0 :=
      not_not.mp fun hne => hreached ⟨hsettled, hne⟩
    rw [vfsStatfs_settled hsettled, if_neg hretval.ge.not_gt]
    rfl
  · rw [vfsStatfs_unsettled hsettled]
    rfl

theorem scoReportStatvfs_error {mnt : Path} {garbage : Kstat}
    (hsettled : Settled kernel mnt.rootDev garbage)
    (hretval : kernel.retval mnt.rootDev ≠ 0) :
    scoReportStatvfs kernel mnt garbage =
      some (kernel.retval mnt.rootDev, none) := by
  have hnegative := retval_neg hretval
  rw [scoReportStatvfs]
  rw [vfsStatfs_settled hsettled, if_pos hnegative]
  rfl

/-- The mount of a file that can be stat'ed is not determined. -/
def Lost (kernel : Kernel) (file : Except Errno Kstat) (first : Kstat) : Prop :=
  ∀ kstat, file = .ok kstat →
    Settled kernel kstat.dev first ∧ ¬ kernel.Determined kstat.dev

theorem scoStatvfs_lost
    (hlost : Lost kernel (kernel.stat filename) named.first) :
    scoStatvfs kernel filename named =
      some (answer (fun mnt => scoReport mnt mnt) kernel
        (kernel.stat filename)) := by
  rw [scoStatvfs, userPath]
  cases hstat : kernel.stat filename with
  | error errno =>
    have herrno : errno.value ≠ 0 := errno.bounds.2.ne
    rw [filePath_error, Option.bind_eq_bind, Option.bind_some]
    dsimp only
    rw [if_neg herrno]
    rfl
  | ok kstat =>
    obtain ⟨hfirst, hdetermined⟩ := hlost kstat hstat
    rw [determined_iff] at hdetermined
    rw [answer]
    rw [filePath_settled hfirst, Option.bind_eq_bind, Option.bind_some]
    dsimp only
    rw [if_neg hdetermined, if_neg hdetermined]
    rfl

theorem scoStatvfs_none
    (hfound : ¬ Lost kernel (kernel.stat filename) named.first) :
    scoStatvfs kernel filename named = none := by
  rw [Lost] at hfound
  push Not at hfound
  obtain ⟨kstat, hstat, hdetermined⟩ := hfound
  rw [scoStatvfs, userPath]
  rw [hstat]
  by_cases hfirst : Settled kernel kstat.dev named.first
  · have hretval := determined_iff.mp (hdetermined hfirst)
    rw [filePath_settled hfirst, Option.bind_eq_bind, Option.bind_some]
    dsimp only
    rw [if_pos hretval]
    apply scoReportStatvfs_none
    rw [rootDev_path hretval]
    exact fun hreached => hreached.2 hretval
  · rw [filePath_unsettled hfirst]
    rfl

/-- The test of the error is the wrong way round: without one the structure is
left alone. -/
theorem scoFstatvfs_determined {kstat : Kstat}
    (hfstat : kernel.fstat fd = .ok kstat)
    (hfirst : Settled kernel kstat.dev opened.first)
    (hretval : kernel.retval kstat.dev = 0) :
    scoFstatvfs kernel fd opened = some (0, none) := by
  rw [scoFstatvfs, linux26UserFpath]
  rw [hfstat, filePath_settled hfirst, Option.bind_eq_bind, Option.bind_some]
  dsimp only
  rw [if_neg hretval.ge.not_gt, hretval]
  rfl

theorem scoFstatvfs_error {errno : Errno}
    (hfstat : kernel.fstat fd = .error errno) :
    scoFstatvfs kernel fd opened = none := by
  rw [scoFstatvfs, linux26UserFpath]
  rw [hfstat, filePath_error, Option.bind_eq_bind, Option.bind_some]
  dsimp only
  rw [if_pos errno.bounds.2]
  rfl

theorem scoFstatvfs_unsettled {kstat : Kstat}
    (hfstat : kernel.fstat fd = .ok kstat)
    (hfirst : ¬ Settled kernel kstat.dev opened.first) :
    scoFstatvfs kernel fd opened = none := by
  rw [scoFstatvfs, linux26UserFpath]
  rw [hfstat, filePath_unsettled hfirst]
  rfl

theorem scoFstatvfs_lost {kstat : Kstat}
    (hfstat : kernel.fstat fd = .ok kstat)
    (hfirst : Settled kernel kstat.dev opened.first)
    (hretval : kernel.retval kstat.dev ≠ 0) :
    scoFstatvfs kernel fd opened =
      scoReportStatvfs kernel (kernel.path kstat.dev) opened.second := by
  have hnegative := retval_neg hretval
  rw [scoFstatvfs, linux26UserFpath]
  rw [hfstat, filePath_settled hfirst, Option.bind_eq_bind, Option.bind_some]
  dsimp only
  rw [if_pos hnegative]
  rfl

/-- When the call on a descriptor is right. -/
theorem sound_scoFstatvfs_iff :
    Sound (kernel.Known (kernel.fstat fd)) (scoFstatvfs kernel fd opened) ↔
      ∃ kstat, kernel.fstat fd = .ok kstat ∧ ¬ kernel.Determined kstat.dev ∧
        Settled kernel kstat.dev opened.first ∧
        Settled kernel (kernel.path kstat.dev).rootDev opened.second ∧
        kernel.retval (kernel.path kstat.dev).rootDev ≠ 0 := by
  constructor
  · intro hdescriptor
    cases hfstat : kernel.fstat fd with
    | error errno =>
      rw [scoFstatvfs_error hfstat] at hdescriptor
      exact absurd hdescriptor (not_sound_none _)
    | ok kstat =>
      have hfirst : Settled kernel kstat.dev opened.first := by
        by_contra hunsettled
        rw [scoFstatvfs_unsettled hfstat hunsettled] at hdescriptor
        exact not_sound_none _ hdescriptor
      have hretval : kernel.retval kstat.dev ≠ 0 := by
        intro hzero
        rw [scoFstatvfs_determined hfstat hfirst hzero] at hdescriptor
        obtain ⟨-, stored, hcall⟩ | ⟨error, hnegative, hcall⟩ := hdescriptor
        · cases hcall
        · cases hcall
          exact absurd hnegative (lt_irrefl 0)
      have hreached : Settled kernel (kernel.path kstat.dev).rootDev
          opened.second ∧
            kernel.retval (kernel.path kstat.dev).rootDev ≠ 0 := by
        by_contra hreached
        rw [scoFstatvfs_lost hfstat hfirst hretval, scoReportStatvfs_none hreached]
          at hdescriptor
        exact not_sound_none _ hdescriptor
      exact ⟨kstat, rfl, mt determined_iff.mp hretval, hfirst, hreached⟩
  · rintro ⟨kstat, hfstat, hdetermined, hfirst, hsecond, hfails⟩
    rw [scoFstatvfs_lost hfstat hfirst (mt determined_iff.mpr hdetermined),
      scoReportStatvfs_error hsecond hfails]
    exact sound_retval _ kernel hfails

theorem agree_scoStatvfs :
    Agree kernel filename fd (scoStatvfs kernel filename named)
        (scoFstatvfs kernel fd opened) ↔
      Lost kernel (kernel.stat filename) named.first ∧
        ∃ kstat, kernel.fstat fd = .ok kstat ∧
          ¬ kernel.Determined kstat.dev ∧
          Fallback kernel filename kstat opened.first opened.second := by
  constructor
  · rintro ⟨hname, hdescriptor, hsame⟩
    have hlost : Lost kernel (kernel.stat filename) named.first := by
      by_contra hfound
      rw [scoStatvfs_none hfound] at hname
      exact not_sound_none _ hname
    obtain ⟨kstat, hfstat, hdetermined, hfirst, hsecond, hfails⟩ :=
      sound_scoFstatvfs_iff.mp hdescriptor
    have hretval := mt determined_iff.mpr hdetermined
    refine ⟨hlost, kstat, hfstat, hdetermined, hfirst, hsecond, fun _ => hfails,
      fun hstat => ?_⟩
    have hequal := hsame kstat hstat hfstat
    rw [scoStatvfs_lost hlost, hstat, scoFstatvfs_lost hfstat hfirst hretval,
      scoReportStatvfs_error hsecond hfails, answer_lost _ hretval] at hequal
    exact (congrArg Prod.fst (Option.some.inj hequal)).symm
  · rintro ⟨hlost, kstat, hfstat, hdetermined, hfirst, hsecond, hfails, hsame⟩
    have hretval := mt determined_iff.mpr hdetermined
    have hnameEq := scoStatvfs_lost hlost
    have hreport := (scoFstatvfs_lost hfstat hfirst hretval).trans
      (scoReportStatvfs_error hsecond (hfails hretval))
    refine ⟨?_, sound_scoFstatvfs_iff.mpr
      ⟨kstat, hfstat, hdetermined, hfirst, hsecond, hfails hretval⟩,
      fun other hstat hother => ?_⟩
    · rw [hnameEq]
      exact answer_sound _ kernel _
    · rw [hfstat] at hother
      cases hother
      rw [hnameEq, hreport, hsame hstat, hstat, answer_lost _ hretval]

end Pairs

/-- When the two forms are right and agree: never for `svr4_statfs`, but for a
length that both reject; for `svr4_statvfs`, with an open descriptor and no
search that looks at the stack, where a search for device 0 does not find what
the one for the file has not; for `sco_statvfs`, only where there is no mount to
be found; and for `uw7_statvfs64`, where no search looks at the stack. -/
theorem agree_iff (kernel : Kernel) (filename : List Char) (files : FileState)
    (memory : ℕ → ℕ) (fd len : BitVec 32) (fType : BitVec 16)
    (named opened : Stack) :
    (Agree kernel filename fd (svr4Statfs kernel filename len 0 fType named)
        (svr4Fstatfs kernel files memory fd len 0 fType opened) ↔
      len.toInt > svr4StatfsSize) ∧
    (Agree kernel filename fd (svr4Statvfs kernel filename named)
        (svr4Fstatvfs kernel files memory fd opened) ↔
      FileSettled kernel (kernel.stat filename) named.first named.second ∧
        SlotKept files memory fd ∧
        ∃ kstat, kernel.fstat fd = .ok kstat ∧
          Fallback kernel filename kstat opened.first opened.second) ∧
    (Agree kernel filename fd (scoStatvfs kernel filename named)
        (scoFstatvfs kernel fd opened) ↔
      Lost kernel (kernel.stat filename) named.first ∧
        ∃ kstat, kernel.fstat fd = .ok kstat ∧
          ¬ kernel.Determined kstat.dev ∧
          Fallback kernel filename kstat opened.first opened.second) ∧
    (Agree kernel filename fd (uw7Statvfs64 kernel filename named)
        (uw7Fstatvfs64 kernel files memory fd opened) ↔
      FileSettled kernel (kernel.stat filename) named.first named.second ∧
        SlotKept files memory fd ∧
        FileSettled kernel (kernel.fstat fd) opened.first opened.second ∧
        FileSettled kernel (kernel.fstat fd) opened.first opened.third) :=
  ⟨agree_statfs, agree_svr4Statvfs, agree_scoStatvfs, agree_uw7Statvfs64⟩

/-- One mount, with descriptor 3 open on its root. -/
def rootKernel : Kernel where
  stat _ := .ok ⟨2, 1, 0, 0o40755⟩
  fstat fd := if fd = 3 then .ok ⟨2, 1, 0, 0o40755⟩ else .error ⟨-9, by decide⟩
  mounts := .ok (mountContent [rootMount])
  split _ := 4096
  statfs _ := none
  statfsData _ := ⟨0xef53, 4096, 1000, 500, 400, 100, 50, 255⟩

def clearStack : Stack := ⟨⟨0, 0, 0, 0⟩, ⟨0, 0, 0, 0⟩, ⟨0, 0, 0, 0⟩⟩

/-- `svr4_fstatfs` and `sco_fstatvfs` fail on an open descriptor, and
`svr4_fstatvfs` on one that is not open. -/
theorem not_agree_rootKernel :
    ¬ Agree rootKernel "/".toList 3
        (svr4Statfs rootKernel "/".toList 40 0 0 clearStack)
        (svr4Fstatfs rootKernel noFiles (fun _ => 0) 3 40 0 0 clearStack) ∧
    ¬ Agree rootKernel "/".toList 4
        (svr4Statvfs rootKernel "/".toList clearStack)
        (svr4Fstatvfs rootKernel noFiles (fun _ => 0) 4 clearStack) ∧
    ¬ Agree rootKernel "/".toList 3
        (scoStatvfs rootKernel "/".toList clearStack)
        (scoFstatvfs rootKernel 3 clearStack) := by
  refine ⟨?_, ?_, ?_⟩
  · rw [agree_statfs]
    decide
  · rw [agree_svr4Statvfs]
    rintro ⟨-, -, kstat, hfstat, -⟩
    cases hfstat
  · rw [agree_scoStatvfs]
    rintro ⟨-, kstat, hfstat, hdetermined, -⟩
    cases hfstat
    apply hdetermined
    apply (determined_mountContent rfl).mpr
    exact ⟨⟨⟨2, 1, 0, 0o40755⟩, "ext4".toList, ⟨true, true⟩⟩, by decide⟩

end IbcsUs.Statvfs
