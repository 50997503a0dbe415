import IbcsUs.Files.Dispatch

/-!
# Releasing a device

A device should be told once that it is not needed any more, when its last
descriptor is closed.  Of the two ways to close a descriptor only
`linux26_fclose` tells it, and it does so whether or not other descriptors
remain; `linux26_close` and a `dup2` onto the descriptor do not tell it at all.
-/

namespace IbcsUs.Files

open IbcsUs.Memory IbcsUs.Runs

/-- Some descriptor stands for the file. -/
def Descriptors.Referred (world : Descriptors) (file : OpenFile) : Prop :=
  ∃ fd, world.kernel fd = some file

/-- The release operations that were called for the file. -/
def Descriptors.releases (world : Descriptors) (file : OpenFile) : List Op :=
  (world.released.filter fun call => call.1 = file.id).map Prod.snd

/-- A file opened as a device has been released exactly once if it has no
descriptor any more, by its own release operation, and never before. -/
def Descriptors.ReleasedOnce (world : Descriptors) : Prop :=
  ∀ file ∈ world.opened,
    (world.Referred file → world.releases file = []) ∧
    (¬ world.Referred file → world.releases file = [file.ops.release])

/-- The closing calls that treat devices right. -/
def ReleaseMeets (world : Descriptors) : DescriptorCall → Prop
  | .close fd =>
      ∀ file, world.kernel fd = some file → file.chrdev.isSome →
        ∃ other, other ≠ fd ∧ world.kernel other = some file
  | .dup2 fd fd2 _ =>
      fd ≠ fd2 → ∀ file, world.kernel fd2 = some file → file.chrdev.isSome →
        ∃ other, other ≠ fd2 ∧ world.kernel other = some file
  | .fclose pointer =>
      ∀ shadow file, world.files.files pointer = some shadow →
        world.kernel shadow.fd = some file → file.chrdev.isSome →
        ∀ other, other ≠ shadow.fd → world.kernel other ≠ some file
  | _ => True

/-! ## The invariant -/

/-- Devices are released right so far and open files are told apart by their
identity. -/
structure ReleaseInv (world : Descriptors) : Prop where
  coherent : Coherent world
  once : world.ReleasedOnce
  devices : ∀ file ∈ world.opened, file.chrdev.isSome ∧ file.id < world.nextId
  older : ∀ call ∈ world.released, call.1 < world.nextId
  referred : ∀ fd file, world.kernel fd = some file → file.id < world.nextId
  same : ∀ fd file, world.kernel fd = some file →
    ∀ other ∈ world.opened, file.id = other.id → file = other

section Calls

variable {world next : Descriptors}

/-- Calls that only change what a descriptor stands for. -/
theorem ReleaseInv.rewire (hinv : ReleaseInv world) (hcoherent : Coherent next)
    {fd : ℕ} {installed : Option OpenFile}
    (hkernel : next.kernel = Function.update world.kernel fd installed)
    (hopened : next.opened = world.opened)
    (hreleased : next.released = world.released)
    (hnextId : next.nextId = world.nextId)
    (hknown : ∀ file, installed = some file → world.Referred file)
    (hkept : ∀ file, world.kernel fd = some file → file.chrdev.isSome →
      next.Referred file) : ReleaseInv next := by
  have hback : ∀ other file, next.kernel other = some file →
      world.Referred file := by
    intro other file hfile
    rw [hkernel, Function.update_apply] at hfile
    split at hfile
    · exact hknown file hfile
    · exact ⟨other, hfile⟩
  have hforth : ∀ file ∈ world.opened, world.Referred file →
      next.Referred file := by
    intro file hmem hreferred
    obtain ⟨other, hother⟩ := hreferred
    by_cases hsame : other = fd
    · rw [hsame] at hother
      exact hkept file hother (hinv.devices file hmem).1
    · refine ⟨other, ?_⟩
      rw [hkernel, Function.update_of_ne hsame, hother]
  refine ⟨hcoherent, ?_, ?_, ?_, ?_, ?_⟩
  · intro file hmem
    rw [hopened] at hmem
    obtain ⟨hnever, honce⟩ := hinv.once file hmem
    rw [Descriptors.releases, hreleased]
    refine ⟨?_, fun hgone => honce fun href => hgone (hforth file hmem href)⟩
    intro hreferred
    obtain ⟨other, hother⟩ := hreferred
    exact hnever (hback other file hother)
  · rw [hopened, hnextId]
    exact hinv.devices
  · rw [hreleased, hnextId]
    exact hinv.older
  · intro other file hfile
    obtain ⟨before, hbefore⟩ := hback other file hfile
    rw [hnextId]
    exact hinv.referred before file hbefore
  · intro other file hfile
    obtain ⟨before, hbefore⟩ := hback other file hfile
    rw [hopened]
    exact hinv.same before file hbefore

/-- A free descriptor comes to stand for a file that is already referred to. -/
theorem ReleaseInv.duplicate (hinv : ReleaseInv world) (hcoherent : Coherent next)
    {fd answer : ℕ} {file : OpenFile} (hfile : world.kernel fd = some file)
    (hfree : world.kernel answer = none)
    (hkernel : next.kernel = Function.update world.kernel answer (some file))
    (hopened : next.opened = world.opened)
    (hreleased : next.released = world.released)
    (hnextId : next.nextId = world.nextId) : ReleaseInv next := by
  apply hinv.rewire hcoherent hkernel hopened hreleased hnextId
  · intro other hother
    exact ⟨fd, hfile.trans hother⟩
  · intro other hother
    rw [hfree] at hother
    cases hother

/-- Calls that only change the shadows. -/
theorem ReleaseInv.keep (hinv : ReleaseInv world) (hcoherent : Coherent next)
    (hkernel : next.kernel = world.kernel) (hopened : next.opened = world.opened)
    (hreleased : next.released = world.released)
    (hnextId : next.nextId = world.nextId) : ReleaseInv next := by
  apply hinv.rewire hcoherent
    (hkernel.trans (Function.update_eq_self 0 world.kernel).symm) hopened hreleased hnextId
  · exact fun file hfile => ⟨0, hfile⟩
  · exact fun file hfile _ => ⟨0, hkernel ▸ hfile⟩

/-- The devices after an open are those from before and the new file, if it is one. -/
theorem mem_opened_of_open {file other : OpenFile}
    (hopened : next.opened =
      if file.chrdev.isSome then file :: world.opened else world.opened)
    (hother : other ∈ next.opened) :
    other = file ∧ file.chrdev.isSome ∨ other ∈ world.opened := by
  rw [hopened] at hother
  split at hother
  · next hdevice =>
    rcases List.mem_cons.mp hother with rfl | hold
    · exact .inl ⟨rfl, hdevice⟩
    · exact .inr hold
  · exact .inr hother

/-- A descriptor after an open stands for the new file or for what it stood for. -/
theorem kernel_of_open {answer fd : ℕ} {file other : OpenFile}
    (hkernel : next.kernel = Function.update world.kernel answer (some file))
    (hother : next.kernel fd = some other) :
    other = file ∨ world.kernel fd = some other := by
  rw [hkernel, Function.update_apply] at hother
  split at hother
  · exact .inl (Option.some.inj hother).symm
  · exact .inr hother

/-- An open leaves it as it is whether an older device is referred to. -/
theorem ReleaseInv.referred_open (hinv : ReleaseInv world) {answer : ℕ}
    {file other : OpenFile} (hid : file.id = world.nextId)
    (hfree : world.kernel answer = none)
    (hkernel : next.kernel = Function.update world.kernel answer (some file))
    (hother : other ∈ world.opened) :
    next.Referred other ↔ world.Referred other := by
  have hlt := (hinv.devices other hother).2
  constructor
  · rintro ⟨fd, hfd⟩
    rcases kernel_of_open hkernel hfd with rfl | hold
    · omega
    · exact ⟨fd, hold⟩
  · rintro ⟨fd, hfd⟩
    refine ⟨fd, ?_⟩
    rw [hkernel, Function.update_of_ne ?_, hfd]
    rintro rfl
    simp [hfree] at hfd

/-- No release has been called for a file that is yet to be opened. -/
theorem ReleaseInv.releases_new (hinv : ReleaseInv world) {file : OpenFile}
    (hid : file.id = world.nextId) : world.releases file = [] := by
  have hnone : world.released.filter (fun call => call.1 = file.id) = [] := by
    rw [List.filter_eq_nil_iff]
    intro call hcall
    have hlt := hinv.older call hcall
    simp only [decide_eq_true_eq]
    omega
  rw [Descriptors.releases, hnone, List.map_nil]

/-- A newly opened file. -/
theorem ReleaseInv.openFile (hinv : ReleaseInv world) (hcoherent : Coherent next)
    {answer : ℕ} {file : OpenFile} (hid : file.id = world.nextId)
    (hfree : world.kernel answer = none)
    (hkernel : next.kernel = Function.update world.kernel answer (some file))
    (hopened : next.opened =
      if file.chrdev.isSome then file :: world.opened else world.opened)
    (hreleased : next.released = world.released)
    (hnextId : next.nextId = world.nextId + 1) : ReleaseInv next := by
  have hreleases : ∀ other, next.releases other = world.releases other := fun other => by
    rw [Descriptors.releases, hreleased]
    rfl
  refine ⟨hcoherent, ?_, ?_, ?_, ?_, ?_⟩
  · intro other hother
    rw [hreleases]
    rcases mem_opened_of_open hopened hother with ⟨rfl, -⟩ | hold
    · refine ⟨fun _ => hinv.releases_new hid, fun hgone => absurd ⟨answer, ?_⟩ hgone⟩
      rw [hkernel, Function.update_self]
    · rw [hinv.referred_open hid hfree hkernel hold]
      exact hinv.once other hold
  · intro other hother
    rw [hnextId]
    rcases mem_opened_of_open hopened hother with ⟨rfl, hdevice⟩ | hold
    · exact ⟨hdevice, by omega⟩
    · exact ⟨(hinv.devices other hold).1, (hinv.devices other hold).2.trans
        (Nat.lt_succ_self _)⟩
  · intro call hcall
    rw [hreleased] at hcall
    rw [hnextId]
    exact (hinv.older call hcall).trans (Nat.lt_succ_self _)
  · intro fd other hother
    rw [hnextId]
    rcases kernel_of_open hkernel hother with rfl | hold
    · omega
    · exact (hinv.referred fd other hold).trans (Nat.lt_succ_self _)
  · intro fd other hother device hdevice heq
    rcases kernel_of_open hkernel hother with rfl | hold
    · rcases mem_opened_of_open hopened hdevice with ⟨rfl, -⟩ | hdevice
      · rfl
      · have hlt := (hinv.devices device hdevice).2
        omega
    · rcases mem_opened_of_open hopened hdevice with ⟨rfl, -⟩ | hdevice
      · have hlt := hinv.referred fd other hold
        omega
      · exact hinv.same fd other hold device hdevice heq

theorem OpenFile.release_ne_null (file : OpenFile) : file.ops.release ≠ .null := by
  cases hchrdev : file.chrdev with
  | none =>
      rw [OpenFile.ops_plain hchrdev]
      decide
  | some device =>
      rw [OpenFile.ops, hchrdev]
      cases hrelease : device.1.fops.release <;>
        simp [overrideOps, Op.orElse, hrelease, fileOperations]

theorem Descriptors.release_of_ne_null (file : OpenFile) {op : Op}
    (hop : op ≠ .null) : world.release file (some op) =
      { world with released := (file.id, op) :: world.released } := by
  cases op with
  | null => exact absurd rfl hop
  | plain => rfl
  | device index => rfl

/-- A release is one more of the file it was called for. -/
theorem releases_cons {file : OpenFile} {op : Op}
    (hreleased : next.released = (file.id, op) :: world.released) :
    next.releases file = op :: world.releases file := by
  rw [Descriptors.releases, hreleased, List.filter_cons_of_pos (by simp), List.map_cons]
  rfl

/-- A release leaves those of other files as they are. -/
theorem releases_cons_of_ne {file device : OpenFile} {op : Op}
    (hreleased : next.released = (file.id, op) :: world.released)
    (hid : file.id ≠ device.id) : next.releases device = world.releases device := by
  rw [Descriptors.releases, hreleased, List.filter_cons_of_neg (by simpa using hid)]
  rfl

/-- A descriptor that stands for a file after a close did so before and is not the one
that was closed. -/
theorem kernel_of_close {fd other : ℕ} {file : OpenFile}
    (hkernel : next.kernel = Function.update world.kernel fd none)
    (hother : next.kernel other = some file) :
    other ≠ fd ∧ world.kernel other = some file := by
  rw [hkernel, Function.update_apply] at hother
  split at hother
  · cases hother
  · next hne => exact ⟨hne, hother⟩

/-- Closing a file by its pointer, which is the last descriptor of a device. -/
theorem ReleaseInv.fclose (hinv : ReleaseInv world) (hcoherent : Coherent next)
    {fd : ℕ} {file : OpenFile} (hfile : world.kernel fd = some file)
    (hlast : file.chrdev.isSome → ∀ other, other ≠ fd →
      world.kernel other ≠ some file)
    (hkernel : next.kernel = Function.update world.kernel fd none)
    (hopened : next.opened = world.opened)
    (hreleased : next.released =
      (file.id, file.ops.release) :: world.released)
    (hnextId : next.nextId = world.nextId) : ReleaseInv next := by
  refine ⟨hcoherent, ?_, ?_, ?_, ?_, ?_⟩
  · intro device hdevice
    rw [hopened] at hdevice
    obtain ⟨hnever, honce⟩ := hinv.once device hdevice
    by_cases hid : file.id = device.id
    -- the device that is closed
    · obtain rfl := hinv.same fd file hfile device hdevice hid
      rw [releases_cons hreleased, hnever ⟨fd, hfile⟩]
      refine ⟨?_, fun _ => rfl⟩
      rintro ⟨other, hother⟩
      obtain ⟨hne, hother'⟩ := kernel_of_close hkernel hother
      exact absurd hother' (hlast (hinv.devices file hdevice).1 other hne)
    -- any other one
    · rw [releases_cons_of_ne hreleased hid]
      constructor
      · rintro ⟨other, hother⟩
        exact hnever ⟨other, (kernel_of_close hkernel hother).2⟩
      · intro hgone
        apply honce
        rintro ⟨other, hother⟩
        refine hgone ⟨other, ?_⟩
        rw [hkernel, Function.update_of_ne ?_, hother]
        rintro rfl
        rw [hfile] at hother
        exact hid (congrArg OpenFile.id (Option.some.inj hother))
  · rw [hopened, hnextId]
    exact hinv.devices
  · rw [hreleased, hnextId]
    intro call hcall
    rcases List.mem_cons.mp hcall with rfl | hold
    · exact hinv.referred fd file hfile
    · exact hinv.older call hold
  · intro other otherFile hother
    rw [hnextId]
    exact hinv.referred other otherFile (kernel_of_close hkernel hother).2
  · intro other otherFile hother
    rw [hopened]
    exact hinv.same other otherFile (kernel_of_close hkernel hother).2

/-- One call. -/
theorem ReleaseInv.step (hinv : ReleaseInv world) {chrdevList : List Chrdev}
    {call : DescriptorCall} (hmeets : DescriptorMeets chrdevList world call)
    (hrelease : ReleaseMeets world call)
    (hstep : descriptorStep chrdevList world call = some next) :
    ReleaseInv next := by
  have hcoherent := hinv.coherent.step hmeets hstep
  have hcases := descriptorStep_cases hstep
  cases call with
  | openFile path mode flags answer stat memory =>
      obtain ⟨hfree, -, rfl⟩ := hcases
      exact hinv.openFile hcoherent rfl hfree rfl rfl rfl rfl
  | close fd =>
      obtain ⟨file, hfile, rfl⟩ := hcases
      apply hinv.rewire hcoherent rfl rfl rfl rfl
      · intro other hother
        cases hother
      · intro other hother hdevice
        obtain ⟨kept, hne, hkept⟩ := hrelease other hother hdevice
        exact ⟨kept, (Function.update_of_ne hne _ _).trans hkept⟩
  | dup fd answer memory =>
      obtain ⟨file, hfile, hfree, -, rfl⟩ := hcases
      exact hinv.duplicate hcoherent hfile hfree rfl rfl rfl rfl
  | dup2 fd fd2 memory =>
      obtain ⟨file, hfile, -, rfl⟩ := hcases
      apply hinv.rewire hcoherent rfl rfl rfl rfl
      · intro other hother
        exact ⟨fd, hfile.trans hother⟩
      · intro other hother hdevice
        by_cases hself : fd = fd2
        · subst hself
          exact ⟨fd, (Function.update_self _ _ _).trans (hfile.symm.trans hother)⟩
        · obtain ⟨kept, hne, hkept⟩ := hrelease hself other hother hdevice
          exact ⟨kept, (Function.update_of_ne hne _ _).trans hkept⟩
  | fcntlDupFd fd answer =>
      obtain ⟨file, hfile, hfree, -, rfl⟩ := hcases
      exact hinv.duplicate hcoherent hfile hfree rfl rfl rfl rfl
  | fget fd memory =>
      rw [hcases] at hcoherent ⊢
      exact hinv.keep hcoherent rfl rfl rfl rfl
  | fput pointer =>
      obtain ⟨shadow, -, rfl⟩ := hcases
      exact hinv.keep hcoherent rfl rfl rfl rfl
  | fclose pointer =>
      obtain ⟨shadow, file, hshadow, hfile, rfl⟩ := hcases
      -- the operations of the shadow are those of the file
      have hright := hinv.coherent.shadowed shadow.fd file hfile
      rw [hinv.coherent.table.shadow_of_file hshadow] at hright
      rw [hright.1, Descriptors.release_of_ne_null file file.release_ne_null]
        at hcoherent ⊢
      exact hinv.fclose hcoherent hfile (hrelease shadow file hshadow hfile)
        rfl rfl rfl rfl

end Calls

/-! ## Whole runs -/

theorem releaseInv_start {inherited : ℕ → Option FileInode} {fd : ℕ}
    (hstart : StartMeets inherited fd) (stat : FileInode) :
    ReleaseInv (startDescriptors inherited fd stat) := by
  refine ⟨coherent_start hstart stat, ?_, ?_, ?_, ?_, ?_⟩
  · intro file hfile
    cases hfile
  · intro file hfile
    cases hfile
  · intro call hcall
    cases hcall
  · intro other file hfile
    obtain ⟨status, hstatus, rfl⟩ := Option.map_eq_some_iff.mp hfile
    exact (hstart.2 other status hstatus).1
  · intro other file _ device hdevice
    cases hdevice

/-- After a run whose calls all reach the right files and whose closing calls
treat devices right, every device has been released exactly once if its last
descriptor is closed, and never before. -/
theorem devices_releasedOnce (chrdevList : List Chrdev)
    {inherited : ℕ → Option FileInode} {fd : ℕ}
    (hstart : StartMeets inherited fd) (stat : FileInode)
    {calls : List DescriptorCall} {final : Descriptors}
    (hmeet : StepsMeet (descriptorStep chrdevList)
      (fun world call =>
        DescriptorMeets chrdevList world call ∧ ReleaseMeets world call)
      (startDescriptors inherited fd stat) calls)
    (hrun : run (descriptorStep chrdevList)
      (startDescriptors inherited fd stat) calls = some final) :
    final.ReleasedOnce := by
  have hfinal : ReleaseInv final := invariant_run_of_stepsMeet
    (fun _ _ _ hinv hmeets hstep => ReleaseInv.step hinv hmeets.1 hmeets.2 hstep)
    (releaseInv_start hstart stat) hmeet hrun
  exact hfinal.once

/-- After `socksys` has been opened the only device is behind descriptor 3. -/
theorem openSocksys_kernel {next : Descriptors}
    (hstep : descriptorStep [socksysFops (30 * 256 + ·)]
      (startDescriptors terminal 3 ⟨9, 8, 0, 0o100755⟩) openSocksys = some next)
    {fd : ℕ} {file : OpenFile} (hfile : next.kernel fd = some file) :
    fd ≤ 3 ∧ (file.chrdev.isSome → fd = 3) := by
  obtain ⟨-, -, rfl⟩ := descriptorStep_cases hstep
  by_cases hfd : fd = 3
  · exact ⟨hfd.le, fun _ => hfd⟩
  · obtain ⟨stat, hstat, rfl⟩ := Option.map_eq_some_iff.mp
      ((Function.update_of_ne hfd _ _).symm.trans hfile)
    simp only [terminal, Option.ite_none_right_eq_some] at hstat
    exact ⟨by omega, fun hdevice => by simp at hdevice⟩

theorem devices_releasedOnce_fclose :
    ∃ final, run (descriptorStep [socksysFops (30 * 256 + ·)])
        (startDescriptors terminal 3 ⟨9, 8, 0, 0o100755⟩)
        [openSocksys, .fget 3 fun _ => 0, .fclose 2] = some final ∧
      final.released = [(descriptorLimit, .device 0)] ∧
      final.ReleasedOnce := by
  have hcalls : (run (descriptorStep [socksysFops (30 * 256 + ·)])
      (startDescriptors terminal 3 ⟨9, 8, 0, 0o100755⟩)
      [openSocksys, .fget 3 fun _ => 0, .fclose 2]).map
        Descriptors.released = some [(descriptorLimit, .device 0)] := by
    decide +kernel
  obtain ⟨final, hrun, hreleased⟩ := Option.map_eq_some_iff.mp hcalls
  refine ⟨final, hrun, hreleased,
    devices_releasedOnce _ terminal_startMeets _ ?_ hrun⟩
  refine ⟨⟨?_, trivial⟩, fun next hnext => ⟨⟨?_, trivial⟩,
    fun held hheld => ⟨⟨trivial, ?_⟩, fun _ _ => trivial⟩⟩⟩
  · exact openSocksys_meets
  · refine ⟨fun _ => by decide, fun other file hfile => ?_⟩
    have hle := (openSocksys_kernel hnext hfile).1
    have hlt := lt_grownTo next.files 3
    omega
  · intro shadow file _ hfile hdevice other hne hother
    rw [descriptorStep_cases hheld] at hfile hother
    have hfirst := (openSocksys_kernel hnext hfile).2 hdevice
    have hsecond := (openSocksys_kernel hnext hother).2 hdevice
    exact hne (hsecond.trans hfirst.symm)

/-- `linux26_close` closes the only descriptor of a device, which is never
released. -/
theorem linux26Close_never_releases :
    ∃ final file, run (descriptorStep [socksysFops (30 * 256 + ·)])
        (startDescriptors terminal 3 ⟨9, 8, 0, 0o100755⟩)
        [openSocksys, .close 3] = some final ∧
      file ∈ final.opened ∧ ¬ final.Referred file ∧ final.releases file = [] ∧
      ¬ final.ReleasedOnce := by
  have hcalls : (run (descriptorStep [socksysFops (30 * 256 + ·)])
      (startDescriptors terminal 3 ⟨9, 8, 0, 0o100755⟩)
      [openSocksys, .close 3]).map
        (fun final => (final.opened.map fun file => file.chrdev.isSome,
          final.released.isEmpty)) = some ([true], true) := by
    decide +kernel
  obtain ⟨final, hrun, hfinal⟩ := Option.map_eq_some_iff.mp hcalls
  obtain ⟨hopened, hreleased⟩ := Prod.mk.inj hfinal
  obtain ⟨file, hopened, hdevice⟩ := List.map_eq_singleton_iff.mp hopened
  have hmem : file ∈ final.opened := by simp [hopened]
  have hreleases : final.releases file = [] := by
    rw [Descriptors.releases, List.isEmpty_iff.mp hreleased]
    rfl
  have hgone : ¬ final.Referred file := by
    rintro ⟨fd, hfd⟩
    rw [run_cons] at hrun
    obtain ⟨middle, hmiddle, hrest⟩ := Option.bind_eq_some_iff.mp hrun
    obtain ⟨last, hlast, hnil⟩ := Option.bind_eq_some_iff.mp hrest
    obtain rfl := Option.some.inj hnil
    obtain ⟨-, -, rfl⟩ := descriptorStep_cases hlast
    by_cases hsame : fd = 3
    · rw [hsame] at hfd
      simp [Descriptors.drop] at hfd
    · have hbefore := (Function.update_of_ne hsame _ _).symm.trans hfd
      exact hsame ((openSocksys_kernel hmiddle hbefore).2 hdevice)
  refine ⟨final, file, hrun, hmem, hgone, hreleases, fun honce => ?_⟩
  have hreleased' := (honce file hmem).2 hgone
  rw [hreleases] at hreleased'
  cases hreleased'

end IbcsUs.Files
