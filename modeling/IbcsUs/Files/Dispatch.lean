import IbcsUs.Files.Descriptors

/-!
# Calls reach the file behind a descriptor

Reads, writes and `fstat` on a descriptor look at its shadow only, so they reach
the file the kernel has behind the descriptor as long as the two agree.  The
calls keep them in agreement unless a shadow is left over on the target of a
duplication or of an open, unless `fcntl` duplicates a device, of which the file
table hears nothing, and unless a descriptor is the first index behind the
array.
-/

namespace IbcsUs.Files

open IbcsUs.Memory IbcsUs.Runs

/-- Calls on the descriptor reach the open file. -/
structure Reaches (files : FileState) (fd : ℕ) (file : OpenFile) : Prop where
  read : (linux26Read files fd).2 = some file.ops.read.dispatch
  write : (linux26Write files fd).2 = some file.ops.write.dispatch
  fstat : (linux26Fstat files fd (some file.stat)).2 = some file.modeRdev

/-- Calls on every descriptor reach the file behind it. -/
def Descriptors.Follow (world : Descriptors) : Prop :=
  ∀ fd file, world.kernel fd = some file → Reaches world.files fd file

/-- Growing the array for the descriptor does not wrap and brings no descriptor
right behind it. -/
def RoomMeets (world : Descriptors) (fd : ℕ) : Prop :=
  (world.files.table.maxFds ≤ fd → fd + 1 < 2 ^ 29) ∧
    ∀ other file, world.kernel other = some file →
      other ≠ grownTo world.files fd

/-- A descriptor the file table hears nothing of has no shadow and is not right
behind the array. -/
def UnheardMeets (world : Descriptors) (fd : ℕ) : Prop :=
  world.files.shadow fd = none ∧ fd ≠ world.files.table.maxFds

/-- A duplication of a descriptor with a shadow finds no shadow of a closed file
on its target if it is to keep a device there; that of a descriptor without one
finds none. -/
def DupMeets (world : Descriptors) (fd answer : ℕ) : Prop :=
  ∀ file, world.kernel fd = some file →
    (world.files.shadow fd = none → UnheardMeets world answer) ∧
    ((world.files.shadow fd).isSome → RoomMeets world answer ∧
      ∀ target, world.files.shadow answer = some target →
        target.fIsopen = true ∨ file.chrdev = none)

/-- The calls after which the shadows agree with the kernel. -/
def DescriptorMeets (chrdevList : List Chrdev) (world : Descriptors) :
    DescriptorCall → Prop
  | .openFile path mode flags answer _ _ =>
      match findChrdev chrdevList path mode flags with
      | none => UnheardMeets world answer
      | some _ => world.files.shadow answer = none ∧ RoomMeets world answer
  | .close _ => True
  | .dup fd answer _ => DupMeets world fd answer
  | .dup2 fd fd2 _ => DupMeets world fd fd2
  | .fcntlDupFd fd answer =>
      ∀ file, world.kernel fd = some file →
        file.chrdev = none ∧ UnheardMeets world answer
  | .fget fd _ => RoomMeets world fd
  | .fput _ => True
  | .fclose _ => True

/-- The inherited descriptors are within the kernel's bound and none is right
behind the first array. -/
def StartMeets (inherited : ℕ → Option FileInode) (fd : ℕ) : Prop :=
  fd < descriptorLimit ∧
    ∀ other stat, inherited other = some stat →
      other < descriptorLimit ∧ other ≠ 2 * (fd + 1)

/-! ## Agreement of the shadows with the kernel -/

/-- The shadow is right for the open file; one that may vanish with its last
holder is not needed. -/
def Shadows (shadow : Option File) (file : OpenFile) : Prop :=
  match shadow with
  | none => file.chrdev = none
  | some shadow =>
      shadow.fOp = file.ops ∧
        (shadow.inode.mode, shadow.inode.rdev) = file.modeRdev ∧
        (shadow.fIsopen = true ∨ file.chrdev = none)

/-- The file table is in order and agrees with the kernel. -/
structure Coherent (world : Descriptors) : Prop where
  table : TableInv world.files
  sized : 0 < world.files.table.maxFds
  limit : ∀ fd file, world.kernel fd = some file → fd < descriptorLimit
  clear : ∀ fd file, world.kernel fd = some file →
    fd ≠ world.files.table.maxFds
  shadowed : ∀ fd file, world.kernel fd = some file →
    Shadows (world.files.shadow fd) file

theorem OpenFile.ops_plain {file : OpenFile} (hplain : file.chrdev = none) :
    file.ops = fileOperations := by
  rw [OpenFile.ops, hplain]

theorem OpenFile.modeRdev_plain {file : OpenFile} (hplain : file.chrdev = none) :
    file.modeRdev = (file.stat.mode, file.stat.rdev) := by
  rw [OpenFile.modeRdev, hplain]

theorem Shadows.dispatch {shadow : Option File} {file : OpenFile}
    (hshadow : Shadows shadow file) {operation : FileOperations → Op}
    (hplain : operation fileOperations = .plain) :
    (shadow.elim .kernel fun shadow => (operation shadow.fOp).dispatch) =
      (operation file.ops).dispatch := by
  cases shadow with
  | none =>
      rw [OpenFile.ops_plain hshadow, hplain]
      rfl
  | some shadow =>
      rw [← hshadow.1]
      rfl

theorem Shadows.modeRdev {shadow : Option File} {file : OpenFile}
    (hshadow : Shadows shadow file) :
    ((shadow.elim file.stat File.inode).mode,
      (shadow.elim file.stat File.inode).rdev) = file.modeRdev := by
  cases shadow with
  | none =>
      rw [OpenFile.modeRdev_plain hshadow]
      rfl
  | some shadow => exact hshadow.2.1

/-- A plain file keeps a right shadow when that vanishes, and so does any file
when its shadow may not. -/
theorem Shadows.remains {shadow : File} {file : OpenFile}
    (hshadow : Shadows (some shadow) file) : Shadows shadow.remains file := by
  simp only [File.remains]
  split
  · next hgone =>
    refine hshadow.2.2.resolve_left ?_
    simp [hgone.2]
  · exact hshadow

theorem not_negative_of_lt {fd : ℕ} (hfd : fd < descriptorLimit) :
    negative fd = false := by
  simp only [negative, descriptorLimit, decide_eq_false_iff_not] at *
  omega

theorem not_isErr_of_lt {fd : ℕ} (hfd : fd < descriptorLimit) :
    isErr fd = false := by
  rw [isErr_eq_false_iff]
  simp only [descriptorLimit] at hfd
  omega

theorem lt_grownTo (state : FileState) (fd : ℕ) : fd < grownTo state fd := by
  simp only [grownTo]
  split <;> omega

section Agreement

variable {world next : Descriptors}

/-- Where shadows and kernel agree the calls reach the files. -/
theorem Coherent.follow (hinv : Coherent world) : world.Follow := by
  intro fd file hfile
  have hlook : LookupMeets world.files fd := fun _ => hinv.clear fd file hfile
  have hnonneg := not_negative_of_lt (hinv.limit fd file hfile)
  have hshadow := hinv.shadowed fd file hfile
  refine ⟨?_, ?_, ?_⟩
  · rw [linux26Read, (hinv.table.transfer hlook FileOperations.read).2 hnonneg,
      hshadow.dispatch rfl]
  · rw [linux26Write, (hinv.table.transfer hlook FileOperations.write).2 hnonneg,
      hshadow.dispatch rfl]
  · rw [(hinv.table.fstat fun _ => hlook).2 hnonneg, Option.map_some,
      hshadow.modeRdev]

/-- Every call changes one descriptor and its shadow; agreement there is
enough. -/
theorem Coherent.change (hinv : Coherent world) {fd : ℕ}
    {installed : Option OpenFile} {shadow : Option File}
    (htable : TableInv next.files) (hsized : 0 < next.files.table.maxFds)
    (hkernel : next.kernel = Function.update world.kernel fd installed)
    (hshadow : next.files.shadow =
      Function.update world.files.shadow fd shadow)
    (hclear : ∀ other file, world.kernel other = some file →
      other ≠ next.files.table.maxFds)
    (hat : ∀ file, installed = some file → fd < descriptorLimit ∧
      fd ≠ next.files.table.maxFds ∧ Shadows shadow file) :
    Coherent next := by
  have hcases : ∀ other file, next.kernel other = some file →
      (other < descriptorLimit ∧ other ≠ next.files.table.maxFds ∧
        Shadows (next.files.shadow other) file) := by
    intro other file hfile
    rw [hkernel, Function.update_apply] at hfile
    rw [hshadow, Function.update_apply]
    split at hfile
    · next hsame =>
      rw [if_pos hsame, hsame]
      exact hat file hfile
    · next hother =>
      rw [if_neg hother]
      exact ⟨hinv.limit other file hfile, hclear other file hfile,
        hinv.shadowed other file hfile⟩
  exact ⟨htable, hsized, fun fd file hfile => (hcases fd file hfile).1,
    fun fd file hfile => (hcases fd file hfile).2.1,
    fun fd file hfile => (hcases fd file hfile).2.2⟩

theorem Coherent.fgetMeets (hinv : Coherent world) {fd : ℕ}
    (hroom : RoomMeets world fd) (memory : ℕ → ℕ) :
    FgetMeets world.files fd memory := by
  intro hgrow
  refine ⟨hroom.1 hgrow, fun hnull => ?_⟩
  have hempty := hinv.table.unused hnull
  have hsized := hinv.sized
  omega

end Agreement

/-! ## One call -/

section Calls

variable {world next : Descriptors}

/-- Opening a plain file leaves the file table alone. -/
theorem Coherent.openPlain (hinv : Coherent world) {answer : ℕ}
    {file : OpenFile} (hplain : file.chrdev = none)
    (hanswer : answer < descriptorLimit) (hmeets : UnheardMeets world answer)
    (hfiles : next.files = world.files)
    (hkernel : next.kernel =
      Function.update world.kernel answer (some file)) :
    Coherent next := by
  have hafter : next.files.shadow =
      Function.update world.files.shadow answer none := by
    rw [hfiles, ← hmeets.1, Function.update_eq_self]
  apply hinv.change (hfiles ▸ hinv.table) (hfiles ▸ hinv.sized) hkernel hafter
  · rw [hfiles]
    exact hinv.clear
  · rw [hfiles]
    intro other hother
    obtain rfl := Option.some.inj hother
    exact ⟨hanswer, hmeets.2, hplain⟩

/-- Opening a device makes its shadow. -/
theorem Coherent.openDevice (hinv : Coherent world) {answer rdev : ℕ}
    {file : OpenFile} {chrdev : Chrdev} (memory : ℕ → ℕ)
    (hdevice : file.chrdev = some (chrdev, rdev))
    (hanswer : answer < descriptorLimit)
    (hshadow : world.files.shadow answer = none)
    (hroom : RoomMeets world answer)
    (hfiles : next.files = (openChrdev world.files chrdev rdev answer memory
      (some file.stat)).1)
    (hkernel : next.kernel =
      Function.update world.kernel answer (some file)) :
    Coherent next := by
  obtain ⟨htable, hmax, hafter⟩ := hinv.table.openChrdev
    (not_isErr_of_lt hanswer) (hinv.fgetMeets hroom memory) chrdev rdev
    (some file.stat)
  rw [← hfiles] at htable hmax hafter
  have hgrown := lt_grownTo world.files answer
  apply hinv.change htable (hmax ▸ Nat.zero_lt_of_lt hgrown) hkernel hafter
  · rw [hmax]
    exact hroom.2
  · intro other hother
    obtain rfl := Option.some.inj hother
    rw [hmax, hshadow]
    refine ⟨hanswer, hgrown.ne, Shadows.remains ⟨?_, ?_, .inl rfl⟩⟩
    · rw [OpenFile.ops, hdevice]
      rfl
    · rw [OpenFile.modeRdev, hdevice]
      rfl

/-- Closing a descriptor. -/
theorem Coherent.close (hinv : Coherent world) {fd : ℕ} {file : OpenFile}
    (hfile : world.kernel fd = some file)
    (hfiles : next.files = linux26Close world.files fd)
    (hkernel : next.kernel = Function.update world.kernel fd none) :
    Coherent next := by
  obtain ⟨htable, hmax, hafter⟩ := hinv.table.close fd
  have hafter' := hafter (not_negative_of_lt (hinv.limit fd file hfile))
  rw [← hfiles] at htable hmax hafter'
  apply hinv.change htable (hmax ▸ hinv.sized) hkernel hafter'
  · rw [hmax]
    exact hinv.clear
  · intro other hother
    cases hother

/-- The shadow of a duplicated descriptor stands for the same file. -/
theorem Shadows.dup {old new : File} {file : OpenFile}
    (hold : Shadows (some old) file)
    (hnew : new.fIsopen = true ∨ file.chrdev = none) :
    Shadows (dupFile old new).remains file :=
  Shadows.remains ⟨hold.1, hold.2.1, hnew⟩

/-- Duplicating a descriptor. -/
theorem Coherent.duplicate (hinv : Coherent world) {fd answer : ℕ}
    {file : OpenFile} {memory : ℕ → ℕ} (hfile : world.kernel fd = some file)
    (hanswer : answer < descriptorLimit) (hmeets : DupMeets world fd answer)
    (hfiles : next.files =
      (linux26Dup world.files fd answer memory (some file.stat)).1)
    (hkernel : next.kernel =
      Function.update world.kernel answer (some file)) :
    Coherent next := by
  obtain ⟨hunheard, hheard⟩ := hmeets file hfile
  have hright := hinv.shadowed fd file hfile
  cases hold : world.files.shadow fd with
  | none =>
      rw [hold] at hright
      have hlook : LookupMeets world.files fd :=
        fun _ => hinv.clear fd file hfile
      obtain ⟨htable, hmax, hshadow⟩ := hinv.table.dup_of_none hlook
        (.inr hold) (some file.stat)
      rw [← hfiles] at htable hmax hshadow
      obtain ⟨hnone, hbehind⟩ := hunheard hold
      have hafter : next.files.shadow =
          Function.update world.files.shadow answer none := by
        rw [hshadow, ← hnone, Function.update_eq_self]
      apply hinv.change htable (hmax ▸ hinv.sized) hkernel hafter
      · rw [hmax]
        exact hinv.clear
      · rw [hmax]
        intro other hother
        obtain rfl := Option.some.inj hother
        exact ⟨hanswer, hbehind, hright⟩
  | some old =>
      rw [hold] at hright
      obtain ⟨hroom, htarget⟩ := hheard (by rw [hold]; rfl)
      have hnonneg := not_negative_of_lt (hinv.limit fd file hfile)
      have hgrown := lt_grownTo world.files answer
      obtain ⟨htable, hmax, hshadow⟩ := hinv.table.dup_of_some
        (not_isErr_of_lt hanswer) hnonneg hold (hinv.fgetMeets hroom memory)
        (some file.stat)
      rw [← hfiles] at htable hmax hshadow
      apply hinv.change htable (hmax ▸ Nat.zero_lt_of_lt hgrown) hkernel hshadow
      · rw [hmax]
        exact hroom.2
      · intro other hother
        obtain rfl := Option.some.inj hother
        rw [hmax]
        refine ⟨hanswer, hgrown.ne, Shadows.dup hright ?_⟩
        cases hnew : world.files.shadow answer with
        | none => exact .inl rfl
        | some target => exact htarget target hnew

/-- Getting a file. -/
theorem Coherent.fget (hinv : Coherent world) {fd : ℕ} {memory : ℕ → ℕ}
    (hroom : RoomMeets world fd)
    (hfiles : next.files = (fget world.files fd memory
      ((world.kernel fd).map OpenFile.stat)).1)
    (hkernel : next.kernel = world.kernel) : Coherent next := by
  obtain ⟨files, pointer, hfget, htable, hmax, -, -, hshadow, -⟩ :=
    hinv.table.fget (hinv.fgetMeets hroom memory)
      ((world.kernel fd).map OpenFile.stat)
  rw [hfget] at hfiles
  subst hfiles
  rw [← Function.update_eq_self fd world.kernel] at hkernel
  have hmax' : next.files.table.maxFds = grownTo world.files fd := hmax
  have hgrown := lt_grownTo world.files fd
  apply hinv.change htable (hmax' ▸ Nat.zero_lt_of_lt hgrown) hkernel hshadow
  · rw [hmax']
    exact hroom.2
  · intro file hfile
    rw [hmax']
    refine ⟨hinv.limit fd file hfile, hgrown.ne, ?_⟩
    have hright := hinv.shadowed fd file hfile
    rw [fgetFile]
    cases hold : world.files.shadow fd with
    | some old =>
        rw [hold] at hright
        exact hright
    | none =>
        -- a file without a shadow is plain, and the kernel's answer is right
        rw [hold] at hright
        rw [hfile]
        exact ⟨(OpenFile.ops_plain hright).symm,
          (OpenFile.modeRdev_plain hright).symm, .inr hright⟩

/-- Putting a file back. -/
theorem Coherent.fput (hinv : Coherent world) {pointer : ℕ} {shadow : File}
    (hshadow : world.files.files pointer = some shadow)
    (hfiles : next.files = fput world.files pointer)
    (hkernel : next.kernel = world.kernel) : Coherent next := by
  obtain ⟨htable, hafter, hmax⟩ := hinv.table.fput hshadow
  rw [← hfiles] at htable hafter hmax
  rw [← Function.update_eq_self shadow.fd world.kernel] at hkernel
  apply hinv.change htable (hmax ▸ hinv.sized) hkernel hafter
  · rw [hmax]
    exact hinv.clear
  · intro file hfile
    rw [hmax]
    refine ⟨hinv.limit _ file hfile, hinv.clear _ file hfile, ?_⟩
    have hright := hinv.shadowed shadow.fd file hfile
    rw [hinv.table.shadow_of_file hshadow] at hright
    exact Shadows.remains hright

/-- Closing a file by its pointer. -/
theorem Coherent.fclose (hinv : Coherent world) {pointer : ℕ} {shadow : File}
    (hshadow : world.files.files pointer = some shadow)
    (hfiles : next.files = (linux26Fclose world.files pointer).1)
    (hkernel : next.kernel = Function.update world.kernel shadow.fd none) :
    Coherent next := by
  obtain ⟨htable, hafter, hmax⟩ := hinv.table.fput_setFile hshadow
    (show { shadow with fIsopen := false }.fd = shadow.fd from rfl)
  simp only [linux26Fclose, hshadow] at hfiles
  rw [← hfiles] at htable hafter hmax
  apply hinv.change htable (hmax ▸ hinv.sized) hkernel hafter
  · rw [hmax]
    exact hinv.clear
  · intro other hother
    cases hother

/-- One call. -/
theorem Coherent.step (hinv : Coherent world) {chrdevList : List Chrdev}
    {call : DescriptorCall} (hmeets : DescriptorMeets chrdevList world call)
    (hstep : descriptorStep chrdevList world call = some next) :
    Coherent next := by
  have hcases := descriptorStep_cases hstep
  cases call with
  | openFile path mode flags answer stat memory =>
      obtain ⟨-, hanswer, rfl⟩ := hcases
      simp only [DescriptorMeets] at hmeets
      split at hmeets
      · next hfind =>
        refine hinv.openPlain hfind hanswer hmeets ?_ rfl
        simp only [linux26Open, hfind]
      · next chrdev hfind =>
        refine hinv.openDevice memory hfind hanswer hmeets.1 hmeets.2 ?_ rfl
        simp only [linux26Open, hfind]
  | close fd =>
      obtain ⟨file, hfile, rfl⟩ := hcases
      exact hinv.close hfile rfl rfl
  | dup fd answer memory =>
      obtain ⟨file, hfile, -, hanswer, rfl⟩ := hcases
      exact hinv.duplicate hfile hanswer hmeets rfl rfl
  | dup2 fd fd2 memory =>
      obtain ⟨file, hfile, hfd2, rfl⟩ := hcases
      exact hinv.duplicate hfile hfd2 hmeets rfl rfl
  | fcntlDupFd fd answer =>
      obtain ⟨file, hfile, -, hanswer, rfl⟩ := hcases
      obtain ⟨hplain, hunheard⟩ := hmeets file hfile
      exact hinv.openPlain hplain hanswer hunheard rfl rfl
  | fget fd memory =>
      rw [hcases]
      exact hinv.fget hmeets rfl rfl
  | fput pointer =>
      obtain ⟨shadow, hshadow, rfl⟩ := hcases
      exact hinv.fput hshadow rfl rfl
  | fclose pointer =>
      obtain ⟨shadow, file, hshadow, -, rfl⟩ := hcases
      refine hinv.fclose hshadow rfl ?_
      exact Descriptors.kernel_release _ _ _

end Calls

/-! ## Whole runs -/

theorem startFiles_spec {fd : ℕ} (hfd : fd < descriptorLimit)
    (stat : FileInode) :
    TableInv (startFiles fd stat) ∧
      (startFiles fd stat).table.maxFds = 2 * (fd + 1) ∧
      (startFiles fd stat).shadow = fun _ => none := by
  have hempty : noFiles.shadow = fun _ => none := by
    funext other
    exact if_neg (Nat.not_lt_zero other)
  have hmeets : FgetMeets noFiles fd (fun _ => 0) := by
    intro _
    refine ⟨?_, fun _ _ _ => rfl⟩
    simp only [descriptorLimit] at hfd
    omega
  obtain ⟨files, pointer, hfget, hinv, hmax, hfile, hfileFd, hshadow, -⟩ :=
    tableInv_noFiles.fget hmeets (some stat)
  obtain ⟨hput, hshadow', hmax'⟩ := hinv.fput_setFile hfile
    (show { fgetFile noFiles fd (some stat) with fIsopen := false }.fd =
      (fgetFile noFiles fd (some stat)).fd from rfl)
  simp only [startFiles, hfget, linux26Fclose, hfile]
  refine ⟨hput, ?_, ?_⟩
  · exact hmax'.trans (hmax.trans (if_pos (Nat.zero_le fd)))
  · rw [hshadow', hshadow, hfileFd, Function.update_idem, hempty]
    have hgone : File.remains
        { fgetFile noFiles fd (some stat) with
          fIsopen := false
          fCount := (fgetFile noFiles fd (some stat)).fCount - 1 } = none := by
      simp [File.remains, fgetFile, hempty, newFile]
    exact (congrArg _ hgone).trans (Function.update_eq_self fd _)

theorem coherent_start {inherited : ℕ → Option FileInode} {fd : ℕ}
    (hstart : StartMeets inherited fd) (stat : FileInode) :
    Coherent (startDescriptors inherited fd stat) := by
  obtain ⟨htable, hmax, hshadow⟩ := startFiles_spec hstart.1 stat
  have hinherited : ∀ other file,
      (startDescriptors inherited fd stat).kernel other = some file →
      (other < descriptorLimit ∧ other ≠ 2 * (fd + 1)) ∧ file.chrdev = none := by
    intro other file hfile
    obtain ⟨status, hstatus, rfl⟩ := Option.map_eq_some_iff.mp hfile
    exact ⟨hstart.2 other status hstatus, rfl⟩
  refine ⟨htable, ?_, ?_, ?_, ?_⟩
  · rw [startDescriptors, hmax]
    omega
  · intro other file hfile
    exact (hinherited other file hfile).1.1
  · intro other file hfile
    rw [startDescriptors, hmax]
    exact (hinherited other file hfile).1.2
  · intro other file hfile
    rw [startDescriptors, hshadow]
    exact (hinherited other file hfile).2

/-- After a run whose calls all meet their condition, reads, writes and `fstat`
reach the file behind the descriptor. -/
theorem descriptors_follow (chrdevList : List Chrdev)
    {inherited : ℕ → Option FileInode} {fd : ℕ}
    (hstart : StartMeets inherited fd) (stat : FileInode)
    {calls : List DescriptorCall} {final : Descriptors}
    (hmeet : StepsMeet (descriptorStep chrdevList)
      (DescriptorMeets chrdevList) (startDescriptors inherited fd stat) calls)
    (hrun : run (descriptorStep chrdevList)
      (startDescriptors inherited fd stat) calls = some final) :
    final.Follow := by
  have hfinal : Coherent final := invariant_run_of_stepsMeet
    (fun _ _ _ hinv hmeets hstep => Coherent.step hinv hmeets hstep)
    (coherent_start hstart stat) hmeet hrun
  exact hfinal.follow

/-- A program with three descriptors on a terminal, run by an emulator that
knows `socksys`. -/
def terminal (fd : ℕ) : Option FileInode :=
  if fd < 3 then some ⟨4, 5, 0x401, 0o20620⟩ else none

theorem terminal_startMeets : StartMeets terminal 3 := by
  refine ⟨by decide, fun other stat hstat => ?_⟩
  simp only [terminal, Option.ite_none_right_eq_some] at hstat
  simp only [descriptorLimit]
  omega

/-- It opens `socksys` as its fourth descriptor. -/
def openSocksys : DescriptorCall :=
  .openFile "/dev/socksys" 2 0 3 ⟨2, 6, 0, 0o40755⟩ fun _ => 0

theorem openSocksys_meets :
    DescriptorMeets [socksysFops (30 * 256 + ·)]
      (startDescriptors terminal 3 ⟨9, 8, 0, 0o100755⟩) openSocksys := by
  have hdevice : (findChrdev [socksysFops (30 * 256 + ·)] "/dev/socksys" 2
      0).isSome := by
    decide +kernel
  obtain ⟨device, hfind⟩ := Option.isSome_iff_exists.mp hdevice
  simp only [DescriptorMeets, openSocksys, hfind]
  obtain ⟨-, hmax, hshadow⟩ := startFiles_spec terminal_startMeets.1
    ⟨9, 8, 0, 0o100755⟩
  refine ⟨congrFun hshadow 3, ?_, ?_⟩
  · rw [startDescriptors, hmax]
    decide
  · intro other file hfile
    obtain ⟨stat, hstat, -⟩ := Option.map_eq_some_iff.mp hfile
    rw [startDescriptors, grownTo, hmax]
    exact (terminal_startMeets.2 other stat hstat).2

theorem descriptors_follow_socksys :
    ∃ final, run (descriptorStep [socksysFops (30 * 256 + ·)])
        (startDescriptors terminal 3 ⟨9, 8, 0, 0o100755⟩) [openSocksys] =
          some final ∧
      (linux26Read final.files 3).2 = some (.device 0) ∧ final.Follow := by
  have hcall : (run (descriptorStep [socksysFops (30 * 256 + ·)])
      (startDescriptors terminal 3 ⟨9, 8, 0, 0o100755⟩) [openSocksys]).map
        (fun final => (linux26Read final.files 3).2) =
      some (some (.device 0)) := by
    decide +kernel
  obtain ⟨final, hrun, hread⟩ := Option.map_eq_some_iff.mp hcall
  refine ⟨final, hrun, hread, descriptors_follow _ terminal_startMeets _ ?_ hrun⟩
  exact ⟨openSocksys_meets, fun _ _ => trivial⟩

/-- A device's descriptor that the terminal is duplicated onto keeps the
operations of the device. -/
theorem linux26Dup_keeps_device :
    ∃ final file, run (descriptorStep [socksysFops (30 * 256 + ·)])
        (startDescriptors terminal 3 ⟨9, 8, 0, 0o100755⟩)
        [openSocksys, .dup2 0 3 fun _ => 0] = some final ∧
      final.kernel 3 = some file ∧ file.chrdev.isNone ∧
      (linux26Read final.files 3).2 = some (.device 0) ∧ ¬ final.Follow := by
  have hcall : (run (descriptorStep [socksysFops (30 * 256 + ·)])
      (startDescriptors terminal 3 ⟨9, 8, 0, 0o100755⟩)
      [openSocksys, .dup2 0 3 fun _ => 0]).map (fun final =>
          ((final.kernel 3).map fun file => file.chrdev.isNone,
            (linux26Read final.files 3).2)) =
      some (some true, some (.device 0)) := by
    decide +kernel
  obtain ⟨final, hrun, hfinal⟩ := Option.map_eq_some_iff.mp hcall
  obtain ⟨hkernel, hread⟩ := Prod.mk.inj hfinal
  obtain ⟨file, hfile, hplain⟩ := Option.map_eq_some_iff.mp hkernel
  refine ⟨final, file, hrun, hfile, hplain, hread, fun hfollow => ?_⟩
  have hreach := (hfollow 3 file hfile).read
  rw [hread, OpenFile.ops_plain (Option.isNone_iff_eq_none.mp hplain)] at hreach
  exact absurd hreach (by decide)

end IbcsUs.Files
