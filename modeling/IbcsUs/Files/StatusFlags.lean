import Mathlib.Data.BitVec
import Mathlib.Data.Nat.Cast.Order.Ring
import Mathlib.Order.Nat
import IbcsUs.Core.Bits

/-!
# The flags of a file and of its descriptor

`svr4_fcntl` carries the status flags through two tables of sixteen words, one for
each bit and direction.  `FIOCLEX` and `FIONCLEX` are written with the two requests
of `fcntl` about the flag of the descriptor.
-/

namespace IbcsUs.StatusFlags

open IbcsUs.Bits

abbrev Word := BitVec 32

/-! ## The kernel's `fcntl` -/

/-- What a descriptor refers to, and its own flag. -/
structure Descriptor where
  file : ℕ
  cloexec : Bool
  deriving DecidableEq

/-- The open descriptors, and the flags of the open files. -/
structure Files where
  fds : ℕ → Option Descriptor
  flags : ℕ → Word

/-- The word of an error, a negative `int`. -/
structure Errno where
  word : Word
  negative : word.toInt < 0

def ebadf : Errno := ⟨BitVec.ofInt 32 (-9), by decide⟩

def fdCloexec : Word := 1

/-- The flags `F_SETFL` can change: `O_APPEND`, `O_NONBLOCK`, `FASYNC`, `O_DIRECT`
and `O_NOATIME`. -/
def setflMask : Word := 0x46c00

/-- The requests that are about flags. -/
inductive Cmd where
  | getfd
  | setfd
  | getfl
  | setfl
  deriving DecidableEq

/-- The flag of a descriptor as `F_GETFD` reports it. -/
def fdWord (cloexec : Bool) : Word := if cloexec then fdCloexec else 0

def Files.setFd (files : Files) (fd : ℕ) (descriptor : Descriptor) : Files :=
  { files with fds := Function.update files.fds fd (some descriptor) }

def Files.setFlags (files : Files) (file : ℕ) (flags : Word) : Files :=
  { files with flags := Function.update files.flags file flags }

/-- `fcntl`; which flags a file refuses to take is a parameter. -/
def fcntl (refuses : ℕ → Word → Option Errno) (fd : ℕ) (cmd : Cmd) (arg : Word)
    (files : Files) : Word × Files :=
  match files.fds fd with
  | none => (ebadf.word, files)
  | some descriptor =>
      match cmd with
      | .getfd => (fdWord descriptor.cloexec, files)
      | .setfd =>
          (0, files.setFd fd { descriptor with
            cloexec := decide (arg &&& fdCloexec ≠ 0) })
      | .getfl => (files.flags descriptor.file, files)
      | .setfl =>
          match refuses descriptor.file arg with
          | some errno => (errno.word, files)
          | none =>
              (0, files.setFlags descriptor.file ((arg &&& setflMask) |||
                (files.flags descriptor.file &&& ~~~setflMask)))

/-! ## The translation -/

/-- The bits of `f`, each replaced by its word of the table. -/
def mapFlags (f : BitVec 16) (map : List (BitVec 16)) : BitVec 16 :=
  (List.range 16).foldl
    (fun r i => if f &&& 1#16 <<< i ≠ 0 then r ||| map.getD i 0 else r) 0

def flSvr4ToLinux : List (BitVec 16) :=
  [0x0001, 0x0002, 0x0800, 0x0400, 0x1000, 0x0000, 0x0000, 0x0800,
    0x0040, 0x0240, 0x0080, 0x0100, 0x0000, 0x0000, 0x0000, 0x0000]

def flLinuxToSvr4 : List (BitVec 16) :=
  [0x0001, 0x0002, 0x0000, 0x0000, 0x0000, 0x0000, 0x0100, 0x0400,
    0x0800, 0x0200, 0x0008, 0x0004, 0x0010, 0x0000, 0x0000, 0x0000]

/-- `map_flags` between the words of `fcntl`: the argument loses its upper half. -/
def mapWord (word : Word) (map : List (BitVec 16)) : Word :=
  (mapFlags (word.setWidth 16) map).setWidth 32

variable (refuses : ℕ → Word → Option Errno)

def svr4Fcntl (fd : ℕ) (cmd : Cmd) (arg : Word) (files : Files) : Word × Files :=
  match cmd with
  | .getfd | .setfd => fcntl refuses fd cmd arg files
  | .getfl =>
      let (rval, files) := fcntl refuses fd cmd arg files
      (mapWord rval flLinuxToSvr4, files)
  | .setfl => fcntl refuses fd cmd (mapWord arg flSvr4ToLinux) files

inductive FilIoctl where
  | fioclex
  | fionclex
  deriving DecidableEq

/-- The flags a request makes of those it has read. -/
def FilIoctl.change (cmd : FilIoctl) (error : Word) : Word :=
  match cmd with
  | .fioclex => error ||| fdCloexec
  | .fionclex => error &&& ~~~fdCloexec

def svr4FilIoctl (fd : ℕ) (cmd : FilIoctl) (files : Files) : Word × Files :=
  let (error, files) := fcntl refuses fd .getfd 0 files
  let files := if error.toInt < 0 then
    (fcntl refuses fd .setfd (cmd.change error) files).2 else files
  (0, files)

/-! ## What the requests should do -/

/-- A set of the SVR4 flags that `F_SETFL` may change. -/
structure Status where
  ndelay : Bool
  nonblock : Bool
  append : Bool
  deriving DecidableEq

def svr4Ndelay : Word := 0x04

def svr4Append : Word := 0x08

def svr4Nonblock : Word := 0x80

def flagWord (flag : Word) (present : Bool) : Word := if present then flag else 0

def Status.word (f : Status) : Word :=
  flagWord svr4Ndelay f.ndelay ||| flagWord svr4Nonblock f.nonblock |||
    flagWord svr4Append f.append

/-- `O_NDELAY` stands for `O_NONBLOCK` too. -/
def Status.identified (f : Status) : Status :=
  ⟨f.ndelay || f.nonblock, false, f.append⟩

def oAccmode : Word := 3

/-- The flags of a file that `F_SETFL` leaves, its access mode apart: they are
fixed when it is opened. -/
def fixedFlags (flags : Word) : Word :=
  mapWord (flags &&& ~~~(setflMask ||| oAccmode)) flLinuxToSvr4

inductive Request where
  | setfl (f : Status)
  | getfl
  | getfd
  | ioctl (cmd : FilIoctl)
  deriving DecidableEq

/-- The flag of the descriptor that a request asks for. -/
def FilIoctl.wanted : FilIoctl → Bool
  | .fioclex => true
  | .fionclex => false

/-- On an open descriptor `F_GETFL` after an `F_SETFL` that succeeds returns the
access mode with the flags that were set, and the `ioctl` requests give the
descriptor, and nothing else, the flag that `F_GETFD` then reports.  On any other each
call returns the kernel's error. -/
def RequestRight (files : Files) (fd : ℕ) (request : Request) : Prop :=
  match files.fds fd, request with
  | some descriptor, .setfl f =>
      let (result, after) := svr4Fcntl refuses fd .setfl f.word files
      result = 0 →
        (svr4Fcntl refuses fd .getfl 0 after).1 =
          (files.flags descriptor.file &&& oAccmode) ||| f.identified.word |||
            fixedFlags (files.flags descriptor.file)
  | some descriptor, .ioctl cmd =>
      svr4FilIoctl refuses fd cmd files =
          (0, files.setFd fd { descriptor with cloexec := cmd.wanted }) ∧
        (svr4Fcntl refuses fd .getfd 0 (svr4FilIoctl refuses fd cmd files).2).1 =
          fdWord cmd.wanted
  | some descriptor, .getfd =>
      svr4Fcntl refuses fd .getfd 0 files = (fdWord descriptor.cloexec, files)
  | some _, .getfl => (svr4Fcntl refuses fd .getfl 0 files).2 = files
  | none, .getfl => (svr4Fcntl refuses fd .getfl 0 files).1 = ebadf.word
  | none, .setfl f => (svr4Fcntl refuses fd .setfl f.word files).1 = ebadf.word
  | none, .getfd => (svr4Fcntl refuses fd .getfd 0 files).1 = ebadf.word
  | none, .ioctl cmd => (svr4FilIoctl refuses fd cmd files).1 = ebadf.word

/-! ## When they do it -/

/-- On an open descriptor the `ioctl` requests must find the flag as they should
leave it.  On any other only `F_SETFL` and `F_GETFD` return the error. -/
def RequestMeets (files : Files) (fd : ℕ) (request : Request) : Prop :=
  match files.fds fd, request with
  | some descriptor, .ioctl cmd => descriptor.cloexec = cmd.wanted
  | some _, _ => True
  | none, .setfl _ | none, .getfd => True
  | none, _ => False

/-! ## The tables -/

theorem getLsbD_foldl (f : BitVec 16) (map : List (BitVec 16))
    (places : List ℕ) (hplaces : ∀ i ∈ places, i < 16) (r : BitVec 16) (j : ℕ) :
    (places.foldl
        (fun r i => if f &&& 1#16 <<< i ≠ 0 then r ||| map.getD i 0 else r)
        r).getLsbD j = true ↔
      r.getLsbD j = true ∨
        ∃ i ∈ places, f.getLsbD i = true ∧ (map.getD i 0).getLsbD j = true := by
  induction places generalizing r with
  | nil => simp
  | cons i places ih =>
      have hfirst : i < 16 := hplaces i List.mem_cons_self
      rw [List.foldl_cons, ih fun k hk => hplaces k (List.mem_cons_of_mem _ hk)]
      by_cases hbit : f.getLsbD i = true
      · rw [if_pos ((and_shiftLeft_ne_zero hfirst).mpr hbit), BitVec.getLsbD_or,
          Bool.or_eq_true]
        simp [hbit, or_assoc]
      · rw [if_neg (mt (and_shiftLeft_ne_zero hfirst).mp hbit)]
        simp [hbit]

/-- A bit of the result comes from a word of the table that a bit of `f`
selects. -/
theorem getLsbD_mapFlags (f : BitVec 16) (map : List (BitVec 16)) (j : ℕ) :
    (mapFlags f map).getLsbD j = true ↔
      ∃ i < 16, f.getLsbD i = true ∧ (map.getD i 0).getLsbD j = true := by
  rw [mapFlags, getLsbD_foldl f map _ (fun i hi => List.mem_range.mp hi)]
  simp

theorem mapFlags_or (f g : BitVec 16) (map : List (BitVec 16)) :
    mapFlags (f ||| g) map = mapFlags f map ||| mapFlags g map := by
  apply eq_of_bits
  intro j hj
  rw [BitVec.getLsbD_or, Bool.or_eq_true, getLsbD_mapFlags, getLsbD_mapFlags,
    getLsbD_mapFlags]
  constructor
  · rintro ⟨i, hi, hbit, hmap⟩
    rw [BitVec.getLsbD_or, Bool.or_eq_true] at hbit
    exact hbit.imp (fun hf => ⟨i, hi, hf, hmap⟩) fun hg => ⟨i, hi, hg, hmap⟩
  · rintro (⟨i, hi, hbit, hmap⟩ | ⟨i, hi, hbit, hmap⟩)
    · exact ⟨i, hi, by simp [hbit], hmap⟩
    · exact ⟨i, hi, by simp [hbit], hmap⟩

theorem mapWord_or (left right : Word) (map : List (BitVec 16)) :
    mapWord (left ||| right) map = mapWord left map ||| mapWord right map := by
  simp only [mapWord, BitVec.setWidth_or, mapFlags_or]

/-- Both systems number the access modes alike. -/
theorem mapWord_accmode (flags : Word) :
    mapWord (flags &&& oAccmode) flLinuxToSvr4 = flags &&& oAccmode := by
  have hlow : flags &&& oAccmode = (flags.setWidth 2).setWidth 32 :=
    and_lowMask flags 2
  rw [hlow]
  generalize flags.setWidth 2 = mode
  revert mode
  decide

/-- The flags that are set come back, `O_NONBLOCK` as `O_NDELAY`. -/
theorem mapWord_status (f : Status) :
    mapWord (mapWord f.word flSvr4ToLinux &&& setflMask) flLinuxToSvr4 =
      f.identified.word := by
  obtain ⟨ndelay, nonblock, append⟩ := f
  revert ndelay nonblock append
  decide

/-- The flags of a file are those `F_SETFL` changes, the access mode and the
rest. -/
theorem flags_split (flags : Word) :
    flags &&& ~~~setflMask =
      (flags &&& oAccmode) ||| (flags &&& ~~~(setflMask ||| oAccmode)) := by
  have hmask : ~~~setflMask = oAccmode ||| ~~~(setflMask ||| oAccmode) := by decide
  rw [hmask]
  ext i hi
  simp only [BitVec.getElem_and, BitVec.getElem_or, Bool.and_or_distrib_left]

/-- `F_GETFL` of the flags a successful `F_SETFL` has left. -/
theorem mapWord_after_setfl (f : Status) (flags : Word) :
    mapWord ((mapWord f.word flSvr4ToLinux &&& setflMask) |||
        (flags &&& ~~~setflMask)) flLinuxToSvr4 =
      (flags &&& oAccmode) ||| f.identified.word ||| fixedFlags flags := by
  rw [mapWord_or, mapWord_status, flags_split, mapWord_or, mapWord_accmode,
    fixedFlags, ← BitVec.or_assoc, BitVec.or_comm f.identified.word]

/-! ## The requests -/

theorem fdWord_toInt (cloexec : Bool) : ¬ (fdWord cloexec).toInt < 0 := by
  cases cloexec <;> decide

theorem fdWord_inj {left right : Bool} :
    fdWord left = fdWord right ↔ left = right := by
  cases left <;> cases right <;> decide

/-- On an open descriptor the `ioctl` requests do nothing. -/
theorem svr4FilIoctl_open {files : Files} {fd : ℕ} {descriptor : Descriptor}
    (hopen : files.fds fd = some descriptor) (cmd : FilIoctl) :
    svr4FilIoctl refuses fd cmd files = (0, files) := by
  simp [svr4FilIoctl, fcntl, hopen, fdWord_toInt]

theorem setFd_cloexec_eq_iff {files : Files} {fd : ℕ} {descriptor : Descriptor}
    (hopen : files.fds fd = some descriptor) (wanted : Bool) :
    files = files.setFd fd { descriptor with cloexec := wanted } ↔
      descriptor.cloexec = wanted := by
  constructor
  · intro hsame
    have hfd := congrFun (congrArg Files.fds hsame) fd
    simp only [Files.setFd, hopen, Function.update_self,
      Option.some.injEq] at hfd
    exact congrArg Descriptor.cloexec hfd
  · rintro rfl
    obtain ⟨fds, flags⟩ := files
    simp only [Files.setFd, Files.mk.injEq, and_true]
    rw [Function.update_eq_self_iff.mpr hopen.symm]

theorem setfl_open {files : Files} {fd : ℕ} {descriptor : Descriptor}
    (hopen : files.fds fd = some descriptor) (f : Status) :
    RequestRight refuses files fd (.setfl f) := by
  unfold RequestRight
  rw [hopen]
  simp only [svr4Fcntl, fcntl, hopen]
  cases hrefuses : refuses descriptor.file (mapWord f.word flSvr4ToLinux) with
  | some errno =>
      intro hzero
      have hneg := errno.negative
      simp only at hzero
      rw [hzero] at hneg
      exact absurd hneg (by decide)
  | none =>
      intro _
      simp only [Files.setFlags, hopen, Function.update_self]
      exact mapWord_after_setfl f _

/-- On a closed descriptor the error of `F_GETFL` is mapped as if it were
flags. -/
theorem mapWord_ebadf_ne : mapWord ebadf.word flLinuxToSvr4 ≠ ebadf.word := by
  decide

theorem zero_ne_ebadf : (0 : Word) ≠ ebadf.word := by decide

/-- The flags set are the flags read on every open descriptor, and the error of a
closed one is passed on by `F_SETFL` and `F_GETFD`.  `F_GETFL` is right only on open
descriptors, and the `ioctl` requests only where the flag is already as they should
make it. -/
theorem statusFlags_right_iff (files : Files) (fd : ℕ) (request : Request) :
    RequestRight refuses files fd request ↔ RequestMeets files fd request := by
  cases hfd : files.fds fd with
  | none =>
      cases request with
      | setfl f => simp [RequestRight, RequestMeets, hfd, svr4Fcntl, fcntl]
      | getfl =>
          simp [RequestRight, RequestMeets, hfd, svr4Fcntl, fcntl,
            mapWord_ebadf_ne]
      | getfd => simp [RequestRight, RequestMeets, hfd, svr4Fcntl, fcntl]
      | ioctl cmd =>
          simp only [RequestRight, RequestMeets, hfd, svr4FilIoctl, iff_false]
          exact zero_ne_ebadf
  | some descriptor =>
      cases request with
      | setfl f =>
          exact iff_of_true (setfl_open refuses hfd f)
            (by simp [RequestMeets, hfd])
      | getfl => simp [RequestRight, RequestMeets, hfd, svr4Fcntl, fcntl]
      | getfd => simp [RequestRight, RequestMeets, hfd, svr4Fcntl, fcntl]
      | ioctl cmd =>
          simp [RequestRight, RequestMeets, hfd, svr4FilIoctl_open refuses hfd,
            svr4Fcntl, fcntl, setFd_cloexec_eq_iff hfd, fdWord_inj]

/-- Descriptor 0 is open for reading and writing and kept by `exec`. -/
def oneFile : Files where
  fds := fun fd => if fd = 0 then some ⟨0, false⟩ else none
  flags := fun _ => 2

/-- `FIOCLEX` does not set the flag, and on a closed descriptor `F_GETFL` returns
a word of flags and `FIOCLEX` returns 0. -/
theorem statusFlags_wrong :
    (svr4FilIoctl (fun _ _ => none) 0 .fioclex oneFile).1 = 0 ∧
      (svr4Fcntl (fun _ _ => none) 0 .getfd 0
        (svr4FilIoctl (fun _ _ => none) 0 .fioclex oneFile).2).1 = 0 ∧
      (svr4Fcntl (fun _ _ => none) 5 .getfl 0 oneFile).1 = 0xf1f ∧
      (svr4FilIoctl (fun _ _ => none) 5 .fioclex oneFile).1 = 0 ∧
      ¬ RequestRight (fun _ _ => none) oneFile 0 (.ioctl .fioclex) := by
  refine ⟨by decide, by decide, by decide, by decide, fun hright => ?_⟩
  obtain ⟨-, hreports⟩ := hright
  exact absurd hreports (by decide)

end IbcsUs.StatusFlags
