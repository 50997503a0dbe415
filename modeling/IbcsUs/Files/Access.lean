import IbcsUs.Core.Bits
import IbcsUs.Syscalls.NameSpace

/-!
# Checks of access

`access` asks for the real ids of a process.  `eaccess` of XENIX and one flag of
UnixWare's `access` ask for its effective ids; both are written with the kernel's
`faccessat`, which has three arguments.  What a file allows, whether it is there,
and whether `inode_to_path` finds its mount are parameters.
-/

namespace IbcsUs.Access

open IbcsUs.Bits IbcsUs.Syscalls

abbrev Word := BitVec 32

/-- An error as a result. -/
structure Errno where
  result : ℤ
  negative : result < 0

/-- What the kernel knows of the files: the answer for given ids, a name and a mode
of three bits; `st_mode`, or an error; how `inode_to_path` ends for the file.
An answer is 0 or an error. -/
structure FileSystem (Ids : Type*) where
  permission : Ids → List Char → Word → ℤ
  stat64 : List Char → Except Errno Word
  inodeToPath : List Char → ℤ

structure Credentials (Ids : Type*) where
  real : Ids
  effective : Ids
  deriving DecidableEq

def einval : ℤ := 22

def eacces : ℤ := 13

def enosys : ℤ := 38

def nrFaccessat : ℕ := 307

/-- `AT_FDCWD` and `AT_EACCESS`. -/
def atFdcwd : Word := -100

def atEaccess : Word := 0x200

/-- The bits of a mode that the kernel takes. -/
def kernelModes : Word := 7

section Calls

variable {Ids : Type*} (fs : FileSystem Ids) (creds : Credentials Ids)
variable (strings : Word → List Char) (filemapMap : List Char → List Char)
variable (isDevice : List Char → Bool) (isDeviceFd : Word → Bool)

/-! ## The kernel -/

/-- The check behind `access` and `faccessat`. -/
def accessCheck (name : List Char) (mode : Word) : ℤ :=
  if mode &&& ~~~kernelModes ≠ 0 then -einval
  else fs.permission creds.real name mode

/-- The kernel's answer to a request for one of the two. -/
def kernelAnswer : Outcome → ℤ
  | .answered => 0
  | .request request =>
      let first := if request.number = nrFaccessat then 1 else 0
      match request.kernelArg strings first,
        request.kernelArg strings (first + 1) with
      | some (.name name), some (.word mode) => accessCheck fs creds name mode
      | _, _ => -enosys

/-- `SYS(name, ...)`. -/
def callKernel (number : ℕ) (words : List Word) : ℤ :=
  kernelAnswer fs creds strings
    (sys strings filemapMap isDevice isDeviceFd number words)

/-! ## The calls of the program -/

def svr4Access (path mode : Word) : ℤ :=
  callKernel fs creds strings filemapMap isDevice isDeviceFd nrAccess
    [path, mode &&& 7]

def xnxEaccess (path mode : Word) : ℤ :=
  callKernel fs creds strings filemapMap isDevice isDeviceFd nrFaccessat
    [atFdcwd, path, mode, atEaccess]

/-- The words of a `struct path`. -/
structure PathWords where
  mnt : Word
  dentry : Word
  rest : List Word

/-- The `struct path` on the stack, as it is found and once it is constructed. -/
structure Frame where
  found : PathWords
  constructed : PathWords

/-- What `user_path` leaves: its result, the structure, and the mode of the
inode. -/
structure UserPath where
  error : ℤ
  path : PathWords
  mode : Word

def userPath (frame : Frame) (filename : Word) : UserPath :=
  match fs.stat64 (filemapMap (strings filename)) with
  | .error errno => ⟨errno.result, frame.found, 0⟩
  | .ok mode =>
      ⟨fs.inodeToPath (filemapMap (strings filename)), frame.constructed, mode⟩

def uw7ModeMsk : Word := 0o37

def uw7XOk : Word := 0o1

def uw7EffOnlyOk : Word := 0o10

def uw7ExOk : Word := 0o20

/-- `S_ISREG`. -/
def isReg (mode : Word) : Bool := mode &&& 0o170000 = 0o100000

/-- The last part of `uw7_access`, with the mode it has made. -/
def uw7Ask (path : PathWords) (filename mode : Word) : ℤ :=
  if mode &&& uw7EffOnlyOk ≠ 0 then
    callKernel fs creds strings filemapMap isDevice isDeviceFd nrFaccessat
      ([atFdcwd, path.mnt, path.dentry] ++ path.rest ++ [mode, atEaccess])
  else
    callKernel fs creds strings filemapMap isDevice isDeviceFd nrAccess
      [filename, mode]

def uw7Access (frame : Frame) (filename mode : Word) : ℤ :=
  if mode &&& ~~~uw7ModeMsk ≠ 0 then -einval
  else if mode &&& uw7ExOk ≠ 0 then
    let found := userPath fs strings filemapMap frame filename
    if found.error = 0 ∧ isReg found.mode = false then -eacces
    else
      uw7Ask fs creds strings filemapMap isDevice isDeviceFd found.path filename
        (mode &&& ~~~uw7ExOk ||| uw7XOk)
  else
    uw7Ask fs creds strings filemapMap isDevice isDeviceFd frame.found filename
      mode

/-! ## What the calls should decide -/

inductive Call where
  | svr4Access (path mode : Word)
  | xnxEaccess (path mode : Word)
  | uw7Access (filename mode : Word)
  deriving DecidableEq

/-- The permissions that UnixWare's mode asks for. -/
def wantedMode (mode : Word) : Word :=
  (mode &&& kernelModes) ||| (if mode &&& uw7ExOk ≠ 0 then uw7XOk else 0)

/-- The ids it asks for. -/
def wantedIds (mode : Word) : Ids :=
  if mode &&& uw7EffOnlyOk ≠ 0 then creds.effective else creds.real

/-- The file is there and regular. -/
def Regular (name : List Char) : Prop :=
  ∃ mode, fs.stat64 name = .ok mode ∧ isReg mode = true

def CallRight (frame : Frame) : Call → Prop
  | .svr4Access path mode =>
      svr4Access fs creds strings filemapMap isDevice isDeviceFd path mode =
          svr4Access fs creds strings filemapMap isDevice isDeviceFd path
            (mode &&& 7) ∧
        (svr4Access fs creds strings filemapMap isDevice isDeviceFd path mode =
          0 ↔ fs.permission creds.real (strings path) (mode &&& 7) = 0)
  | .xnxEaccess path mode =>
      xnxEaccess fs creds strings filemapMap isDevice isDeviceFd path mode = 0 ↔
        mode &&& ~~~kernelModes = 0 ∧
          fs.permission creds.effective (filemapMap (strings path)) mode = 0
  | .uw7Access filename mode =>
      uw7Access fs creds strings filemapMap isDevice isDeviceFd frame filename
          mode = 0 ↔
        mode &&& ~~~uw7ModeMsk = 0 ∧
          (mode &&& uw7ExOk ≠ 0 → Regular fs (filemapMap (strings filename))) ∧
          fs.permission (wantedIds creds mode) (filemapMap (strings filename))
            (wantedMode mode) = 0

/-! ## When they decide it -/

/-- The check for a regular file finds one, or is passed over because the file or
its mount is not found. -/
def PassesRegular (name : List Char) : Prop :=
  ∀ mode, fs.stat64 name = .ok mode → fs.inodeToPath name = 0 → isReg mode = true

/-- The two words that `uw7_access` gives `faccessat` for a name and a mode. -/
def pathWords (frame : Frame) (name : List Char) (mode : Word) : PathWords :=
  if mode &&& uw7ExOk ≠ 0 then
    match fs.stat64 name with
    | .error _ => frame.found
    | .ok _ => frame.constructed
  else frame.found

/-- `eaccess` is right where the files decide alike for the real ids and the name as
it is, and for the effective ids and the mapped name.  `uw7_access` for the real ids
is right where the mapped name is decided on as the name itself, the check for a
regular file included; for the effective ids, where the address of a mount taken as
a name, and that of a directory entry as a mode, are. -/
def CallMeets (frame : Frame) : Call → Prop
  | .svr4Access _ _ => True
  | .xnxEaccess path mode =>
      mode &&& ~~~kernelModes = 0 →
        (fs.permission creds.real (strings path) mode = 0 ↔
          fs.permission creds.effective (filemapMap (strings path)) mode = 0)
  | .uw7Access filename mode =>
      mode &&& ~~~uw7ModeMsk = 0 →
        let mapped := filemapMap (strings filename)
        let words := pathWords fs frame mapped mode
        ((mode &&& uw7ExOk ≠ 0 → PassesRegular fs mapped) ∧
            (if mode &&& uw7EffOnlyOk ≠ 0 then
              words.dentry &&& ~~~kernelModes = 0 ∧
                fs.permission creds.real (strings words.mnt) words.dentry = 0
            else
              fs.permission creds.real (strings filename) (wantedMode mode) = 0) ↔
          (mode &&& uw7ExOk ≠ 0 → Regular fs mapped) ∧
            fs.permission (wantedIds creds mode) mapped (wantedMode mode) = 0)

/-! ## What the kernel is asked -/

/-- `access` has no handler: the name is not mapped. -/
theorem callKernel_access (path mode : Word) :
    callKernel fs creds strings filemapMap isDevice isDeviceFd nrAccess
        [path, mode] =
      accessCheck fs creds (strings path) mode := rfl

/-- Nor has `faccessat`, and its fourth argument is not looked at. -/
theorem callKernel_faccessat (path mode : Word) (rest : List Word) :
    callKernel fs creds strings filemapMap isDevice isDeviceFd nrFaccessat
        (atFdcwd :: path :: mode :: rest) =
      accessCheck fs creds (strings path) mode := rfl

theorem einval_ne_zero : -einval ≠ 0 := by decide

theorem accessCheck_eq_zero_iff (name : List Char) (mode : Word) :
    accessCheck fs creds name mode = 0 ↔
      mode &&& ~~~kernelModes = 0 ∧ fs.permission creds.real name mode = 0 := by
  rw [accessCheck]
  split_ifs with hmode
  · exact iff_of_false einval_ne_zero fun hboth => hmode hboth.1
  · rw [and_iff_right (not_not.mp hmode)]

theorem and_kernelModes (mode : Word) :
    mode &&& 7 &&& ~~~kernelModes = 0 ∧ mode &&& 7 &&& 7 = mode &&& 7 := by
  have hlow : mode &&& 7 = (mode.setWidth 3).setWidth 32 := and_lowMask mode 3
  rw [hlow]
  generalize mode.setWidth 3 = low
  revert low
  decide

/-- A mode of UnixWare without the bit for the effective ids becomes one of the
kernel's. -/
theorem uw7_modes {mode : Word} (hrange : mode &&& ~~~uw7ModeMsk = 0) :
    (mode &&& uw7ExOk ≠ 0 →
      (mode &&& ~~~uw7ExOk ||| uw7XOk) &&& uw7EffOnlyOk = mode &&& uw7EffOnlyOk ∧
      (mode &&& uw7EffOnlyOk = 0 →
        mode &&& ~~~uw7ExOk ||| uw7XOk = wantedMode mode)) ∧
    (mode &&& uw7ExOk = 0 → mode &&& uw7EffOnlyOk = 0 →
      mode = wantedMode mode) ∧
    wantedMode mode &&& ~~~kernelModes = 0 := by
  have hsplit : mode = (mode &&& uw7ModeMsk) ||| (mode &&& ~~~uw7ModeMsk) := by
    rw [← BitVec.and_or_distrib_left, BitVec.or_not_self, BitVec.and_allOnes]
  have hlow : mode &&& uw7ModeMsk = (mode.setWidth 5).setWidth 32 :=
    and_lowMask mode 5
  have hnone : (mode.setWidth 5).setWidth 32 ||| (0 : Word) =
      (mode.setWidth 5).setWidth 32 := BitVec.or_zero
  rw [hrange, hlow, hnone] at hsplit
  rw [hsplit]
  generalize mode.setWidth 5 = low
  revert low
  decide

/-! ## The decisions -/

theorem svr4Access_right (frame : Frame) (path mode : Word) :
    CallRight fs creds strings filemapMap isDevice isDeviceFd frame
      (.svr4Access path mode) := by
  obtain ⟨hlow, htwice⟩ := and_kernelModes mode
  simp only [CallRight, svr4Access]
  rw [htwice, callKernel_access, accessCheck_eq_zero_iff, and_iff_right hlow]
  exact ⟨rfl, Iff.rfl⟩

theorem xnxEaccess_right_iff (frame : Frame) (path mode : Word) :
    CallRight fs creds strings filemapMap isDevice isDeviceFd frame
        (.xnxEaccess path mode) ↔
      CallMeets fs creds strings filemapMap frame (.xnxEaccess path mode) := by
  simp only [CallRight, CallMeets, xnxEaccess]
  rw [callKernel_faccessat, accessCheck_eq_zero_iff]
  exact and_congr_right_iff

/-- The request that `uw7_access` ends with, for a mode in range. -/
theorem uw7Ask_eq_zero_iff (path : PathWords) (filename mode made : Word)
    (heff : made &&& uw7EffOnlyOk = mode &&& uw7EffOnlyOk)
    (hmade : mode &&& uw7EffOnlyOk = 0 → made = wantedMode mode)
    (hlow : wantedMode mode &&& ~~~kernelModes = 0) :
    uw7Ask fs creds strings filemapMap isDevice isDeviceFd path filename made =
        0 ↔
      if mode &&& uw7EffOnlyOk ≠ 0 then
        path.dentry &&& ~~~kernelModes = 0 ∧
          fs.permission creds.real (strings path.mnt) path.dentry = 0
      else
        fs.permission creds.real (strings filename) (wantedMode mode) = 0 := by
  rw [uw7Ask]
  rw [heff]
  split_ifs with hflag
  · simp only [List.cons_append, List.nil_append]
    rw [callKernel_faccessat, accessCheck_eq_zero_iff]
  · rw [hmade (not_not.mp hflag), callKernel_access, accessCheck_eq_zero_iff,
      and_iff_right hlow]

theorem eacces_ne_zero : -eacces ≠ 0 := by decide

/-- The check for a regular file refuses a file that is found and is none. -/
theorem userPath_refused_iff (frame : Frame) (filename : Word) :
    (userPath fs strings filemapMap frame filename).error = 0 ∧
        isReg (userPath fs strings filemapMap frame filename).mode = false ↔
      ¬ PassesRegular fs (filemapMap (strings filename)) := by
  rw [userPath, PassesRegular]
  cases fs.stat64 (filemapMap (strings filename)) with
  | error errno =>
      have hne : errno.result ≠ 0 := errno.negative.ne
      simp [hne]
  | ok mode => simp

/-- What `uw7_access` answers for a mode in range. -/
theorem uw7Access_eq_zero_iff (frame : Frame) (filename : Word) {mode : Word}
    (hrange : mode &&& ~~~uw7ModeMsk = 0) :
    uw7Access fs creds strings filemapMap isDevice isDeviceFd frame filename
        mode = 0 ↔
      (mode &&& uw7ExOk ≠ 0 →
          PassesRegular fs (filemapMap (strings filename))) ∧
        if mode &&& uw7EffOnlyOk ≠ 0 then
          (pathWords fs frame (filemapMap (strings filename)) mode).dentry &&&
                ~~~kernelModes = 0 ∧
            fs.permission creds.real (strings (pathWords fs frame
                (filemapMap (strings filename)) mode).mnt)
              (pathWords fs frame (filemapMap (strings filename)) mode).dentry = 0
        else
          fs.permission creds.real (strings filename) (wantedMode mode) = 0 := by
  obtain ⟨hex, hplain, hlow⟩ := uw7_modes hrange
  rw [uw7Access]
  rw [if_neg (not_not.mpr hrange)]
  by_cases hflag : mode &&& uw7ExOk ≠ 0
  · obtain ⟨heff, hmade⟩ := hex hflag
    have hpath : (userPath fs strings filemapMap frame filename).path =
        pathWords fs frame (filemapMap (strings filename)) mode := by
      rw [userPath, pathWords]
      rw [if_pos hflag]
      cases fs.stat64 (filemapMap (strings filename)) <;> rfl
    rw [if_pos hflag, ← hpath, forall_prop_of_true hflag]
    have hasked := uw7Ask_eq_zero_iff fs creds strings filemapMap isDevice
      isDeviceFd (userPath fs strings filemapMap frame filename).path filename
      mode _ heff hmade hlow
    by_cases hpasses : PassesRegular fs (filemapMap (strings filename))
    · rw [if_neg (mt (userPath_refused_iff fs strings filemapMap frame
        filename).mp (not_not.mpr hpasses)), hasked, and_iff_right hpasses]
    · rw [if_pos ((userPath_refused_iff fs strings filemapMap frame
        filename).mpr hpasses)]
      exact iff_of_false eacces_ne_zero fun hboth => hpasses hboth.1
  · rw [if_neg hflag, uw7Ask_eq_zero_iff fs creds strings filemapMap isDevice
      isDeviceFd frame.found filename mode mode rfl
      (hplain (not_not.mp hflag)) hlow, pathWords, if_neg hflag]
    simp [not_not.mp hflag]

theorem uw7Access_right_iff (frame : Frame) (filename mode : Word) :
    CallRight fs creds strings filemapMap isDevice isDeviceFd frame
        (.uw7Access filename mode) ↔
      CallMeets fs creds strings filemapMap frame (.uw7Access filename mode) := by
  simp only [CallRight, CallMeets]
  by_cases hrange : mode &&& ~~~uw7ModeMsk = 0
  · rw [uw7Access_eq_zero_iff fs creds strings filemapMap isDevice isDeviceFd
      frame filename hrange, and_iff_right hrange, forall_prop_of_true hrange]
  · have hrefused : uw7Access fs creds strings filemapMap isDevice isDeviceFd
        frame filename mode = -einval := by
      rw [uw7Access, if_pos hrange]
    rw [hrefused]
    exact iff_of_true (iff_of_false einval_ne_zero fun hboth => hrange hboth.1)
      fun hzero => absurd hzero hrange

/-- `eaccess` is right whatever the files allow exactly when the effective ids are
the real ones and the name is its own image. -/
theorem xnxEaccess_right_forall_iff {path mode : Word} (frame : Frame)
    (hmode : mode &&& ~~~kernelModes = 0) :
    (∀ fs, CallRight fs creds strings filemapMap isDevice isDeviceFd frame
        (.xnxEaccess path mode)) ↔
      creds.real = creds.effective ∧ filemapMap (strings path) = strings path := by
  classical
  constructor
  · intro hright
    let own : FileSystem Ids :=
      ⟨fun ids name _ => if ids = creds.real ∧ name = strings path then 0 else -1,
        fun _ => .ok 0, fun _ => 0⟩
    have hmeets := (xnxEaccess_right_iff own creds strings filemapMap isDevice
      isDeviceFd frame path mode).mp (hright own) hmode
    have hgranted : own.permission creds.effective (filemapMap (strings path))
        mode = 0 := hmeets.mp (if_pos ⟨rfl, rfl⟩)
    have hsame : creds.effective = creds.real ∧
        filemapMap (strings path) = strings path := by
      by_contra hother
      have hdenied : own.permission creds.effective (filemapMap (strings path))
          mode = -1 := if_neg hother
      rw [hdenied] at hgranted
      exact absurd hgranted (by decide)
    exact ⟨hsame.1.symm, hsame.2⟩
  · rintro ⟨hids, hname⟩ fs
    apply (xnxEaccess_right_iff fs creds strings filemapMap isDevice isDeviceFd
      frame path mode).mpr
    intro _
    rw [hids, hname]

/-- Each check of access is right exactly where the files decide alike on what the
kernel is asked and on what was meant; and `eaccess`, for a mode the kernel takes,
is right whatever they allow only for equal ids and a name that is its own image. -/
theorem access_right_iff (frame : Frame) :
    (∀ fs call,
      CallRight fs creds strings filemapMap isDevice isDeviceFd frame call ↔
        CallMeets fs creds strings filemapMap frame call) ∧
      ∀ path mode : Word, mode &&& ~~~kernelModes = 0 →
        ((∀ fs, CallRight fs creds strings filemapMap isDevice isDeviceFd frame
            (.xnxEaccess path mode)) ↔
          creds.real = creds.effective ∧
            filemapMap (strings path) = strings path) := by
  refine ⟨fun fs call => ?_, fun path mode hmode =>
    xnxEaccess_right_forall_iff creds strings filemapMap isDevice isDeviceFd
      frame hmode⟩
  cases call with
  | svr4Access path mode =>
      exact iff_of_true (svr4Access_right fs creds strings filemapMap isDevice
        isDeviceFd frame path mode) trivial
  | xnxEaccess path mode =>
      exact xnxEaccess_right_iff fs creds strings filemapMap isDevice isDeviceFd
        frame path mode
  | uw7Access filename mode =>
      exact uw7Access_right_iff fs creds strings filemapMap isDevice isDeviceFd
        frame filename mode

end Calls

/-! ## An unprivileged user and a privileged program -/

/-- Only user 0 may do anything; all files are regular. -/
def rootOnly : FileSystem ℕ where
  permission := fun ids _ _ => if ids = 0 then 0 else -13
  stat64 := fun _ => .ok 0o100644
  inodeToPath := fun _ => 0

def setuidRoot : Credentials ℕ := ⟨1000, 0⟩

def someFrame : Frame := ⟨⟨0, 0, []⟩, ⟨0xffffd010, 0xffffd020, []⟩⟩

/-- The effective ids of a set-user-id program may write the file, but `eaccess` and
`uw7_access` deny it; and with real ids of the owner they would allow what the
effective ids may not do. -/
theorem access_wrong :
    ¬ CallRight rootOnly setuidRoot (fun _ => []) id (fun _ => false)
        (fun _ => false) someFrame (.xnxEaccess 0 2) ∧
      ¬ CallRight rootOnly setuidRoot (fun _ => []) id (fun _ => false)
        (fun _ => false) someFrame (.uw7Access 0 0o12) ∧
      xnxEaccess rootOnly ⟨0, 1000⟩ (fun _ => []) id (fun _ => false)
        (fun _ => false) 0 2 = 0 := by
  refine ⟨fun hright => ?_, fun hright => ?_, rfl⟩
  · exact absurd (hright.mpr ⟨rfl, rfl⟩) (by decide)
  · have hregular : (0o12 : Word) &&& uw7ExOk ≠ 0 → Regular rootOnly [] :=
      fun hflag => absurd rfl hflag
    exact absurd (hright.mpr ⟨rfl, hregular, rfl⟩) (by decide)

end IbcsUs.Access
