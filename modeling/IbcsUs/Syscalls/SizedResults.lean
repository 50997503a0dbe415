import IbcsUs.Files.Statvfs

/-!
# Results of a size the caller gives

Four calls copy a string or a structure to a buffer whose size the caller states:
`sysinfo`, the feature vector of `sysi86`, and the two `statfs` calls.  `copy_to_user`
copies what it is told to, a number of bytes without a sign.  Each call cuts the size
in a way of its own.
-/

namespace IbcsUs.SizedResults

open IbcsUs.Files IbcsUs.Statvfs

/-- A copy to the caller: how many bytes, and how many there are from the start of
what is copied to its end. -/
structure Copy where
  count : ℕ
  size : ℕ
  deriving DecidableEq

/-- The copy stays within the caller's size and within what is reported. -/
def Copy.Fits (copy : Copy) (size : BitVec 32) : Prop :=
  (copy.count : ℤ) ≤ max size.toInt 0 ∧ copy.count ≤ copy.size

instance (copy : Copy) (size : BitVec 32) : Decidable (copy.Fits size) :=
  inferInstanceAs (Decidable (_ ∧ _))

/-! ## `svr4_sysinfo` -/

/-- The fields of `system_utsname` that are reported, strings of at most 64
characters. -/
structure SystemUtsname where
  nodename : List Char
  release : List Char
  machine : List Char
  domainname : List Char
  nodename_le : nodename.length ≤ 64
  release_le : release.length ≤ 64
  machine_le : machine.length ≤ 64
  domainname_le : domainname.length ≤ 64

/-- `return_string`, where the command is known. -/
def returnString (utsname : SystemUtsname) : ℕ → Option (List Char)
  | 1 | 108 => some "Linux".toList
  | 2 | 102 => some utsname.nodename
  | 4 => some "2".toList
  | 3 => some utsname.release
  | 105 | 5 => some utsname.machine
  | 6 | 100 => some "IA32".toList
  | 101 => some "PCI ISA".toList
  | 8 | 103 => some "Generic AT".toList
  | 104 => some "UTS_VERSION".toList
  | 10 => some "/etc/inittab".toList
  | 7 => some "deadbeef".toList
  | 106 => some "Linux".toList
  | 107 => some "LBT".toList
  | 9 => some utsname.domainname
  | 109 => some "500000".toList
  | _ => none

/-- `slen`: `count` is compared as an unsigned number. -/
def slen (string : List Char) (count : BitVec 32) : ℤ :=
  if count.toNat < string.length + 1 then count.toInt else string.length + 1

/-- `svr4_sysinfo`: the value and the copy. -/
def svr4Sysinfo (utsname : SystemUtsname) (cmd count : BitVec 32) : ℤ × Option Copy :=
  match returnString utsname cmd.toNat with
  | none => (-22, none)
  | some string =>
      (slen string count,
        some ⟨(BitVec.ofInt 32 (slen string count)).toNat, string.length + 1⟩)

theorem length_returnString {utsname : SystemUtsname} {cmd : ℕ} {string : List Char}
    (hstring : returnString utsname cmd = some string) : string.length ≤ 64 := by
  unfold returnString at hstring
  split at hstring
  all_goals first
    | cases hstring; exact utsname.nodename_le
    | cases hstring; exact utsname.release_le
    | cases hstring; exact utsname.machine_le
    | cases hstring; exact utsname.domainname_le
    | cases hstring; decide
    | cases hstring

/-! ## `sco_sysi86` -/

/-- `OSR5_FEATURES`. -/
def osr5Features : List ℕ := [1, 1, 1, 1, 1, 1, 1, 1, 2, 1, 1, 1]

/-- `sco_sysi86(SI86GETFEATURES)`, which takes the larger of two sizes. -/
def scoGetFeatures (arg2 : BitVec 32) : ℤ × Copy :=
  let arg2 := max arg2.toInt 12
  (arg2, ⟨(BitVec.ofInt 32 arg2).toNat, osr5Features.length + 1⟩)

/-! ## `svr4_statfs` and `svr4_fstatfs` -/

/-- `svr4_fstatfs`, where the path that nothing has filled in holds what an earlier
call has left there. -/
def fstatfsLeft (kernel : Kernel) (files : FileState) (memory : ℕ → ℕ)
    (fd len fstype : BitVec 32) (fType : BitVec 16) (stack : Stack)
    (left : Option Path) : Svr4Result :=
  if len.toInt > svr4StatfsSize then some (-22, none)
  else if fstype = 0 then do
    let _file ← fget kernel files memory fd
    let superBlock ← inodeGetISb left
    match ← vfsStatfs kernel superBlock.rootDev stack.first with
    | .error error => return (error, none)
    | .ok tmp => return (0, some (copyKstatfs tmp, svr4StatfsSize))
  else some (0, some (unmounted fType, len.toNat))

theorem fstatfsLeft_none (kernel : Kernel) (files : FileState) (memory : ℕ → ℕ)
    (fd len fstype : BitVec 32) (fType : BitVec 16) (stack : Stack) :
    fstatfsLeft kernel files memory fd len fstype fType stack none =
      svr4Fstatfs kernel files memory fd len fstype fType stack := rfl

/-- The copy of a `statfs` call, if it comes to one. -/
def resultCopy (result : Svr4Result) : Option Copy :=
  match result with
  | some (_, some (_, count)) => some ⟨count, svr4StatfsSize⟩
  | _ => none

/-- The kernel reports on the file system of the name. -/
def NameReported (kernel : Kernel) (path : List Char) (stack : Stack) : Prop :=
  ∃ pathstruct tmp, userPath kernel path stack.first = some (some pathstruct, 0) ∧
    vfsStatfs kernel pathstruct.rootDev stack.second = some (.ok tmp)

/-- The kernel reports on the file system that the path on the stack leads to. -/
def LeftReported (kernel : Kernel) (files : FileState) (memory : ℕ → ℕ)
    (fd : BitVec 32) (stack : Stack) (left : Option Path) : Prop :=
  ∃ file superBlock tmp, fget kernel files memory fd = some file ∧
    left = some superBlock ∧
    vfsStatfs kernel superBlock.rootDev stack.first = some (.ok tmp)

/-! ## The four calls -/

/-- A call with the size its caller gives. -/
inductive SizedCall where
  | sysinfo (utsname : SystemUtsname) (cmd : BitVec 32)
  | getFeatures
  | statfs (kernel : Kernel) (path : List Char) (fstype : BitVec 32)
      (fType : BitVec 16) (stack : Stack)
  | fstatfs (kernel : Kernel) (files : FileState) (memory : ℕ → ℕ)
      (fd fstype : BitVec 32) (fType : BitVec 16) (stack : Stack) (left : Option Path)

/-- What the call copies to its caller. -/
def SizedCall.copy (call : SizedCall) (size : BitVec 32) : Option Copy :=
  match call with
  | .sysinfo utsname cmd => (svr4Sysinfo utsname cmd size).2
  | .getFeatures => some (scoGetFeatures size).2
  | .statfs kernel path fstype fType stack =>
      resultCopy (svr4Statfs kernel path size fstype fType stack)
  | .fstatfs kernel files memory fd fstype fType stack left =>
      resultCopy (fstatfsLeft kernel files memory fd size fstype fType stack left)

/-- Whatever the call copies fits. -/
def SizedCall.StaysWithin (call : SizedCall) (size : BitVec 32) : Prop :=
  ∀ copy, call.copy size = some copy → copy.Fits size

/-- The sizes each call respects. -/
def SizedCall.Respects (call : SizedCall) (size : BitVec 32) : Prop :=
  match call with
  | .sysinfo utsname cmd => returnString utsname cmd.toNat = none ∨ 0 ≤ size.toInt
  | .getFeatures => size.toInt = 12 ∨ size.toInt = 13
  | .statfs kernel path fstype _ stack =>
      40 ≤ size.toInt ∨
        (if fstype = 0 then ¬ NameReported kernel path stack else 0 ≤ size.toInt)
  | .fstatfs kernel files memory fd fstype _ stack left =>
      40 ≤ size.toInt ∨
        (if fstype = 0 then ¬ LeftReported kernel files memory fd stack left
          else 0 ≤ size.toInt)

section Calls

variable {size : BitVec 32}

theorem toInt_cases (size : BitVec 32) :
    (0 ≤ size.toInt ∧ (size.toNat : ℤ) = size.toInt) ∨
      (size.toInt < 0 ∧ 2 ^ 31 ≤ size.toNat) := by
  have hlt := size.isLt
  rw [BitVec.toInt_eq_toNat_cond]
  split_ifs <;> omega

theorem toNat_ofInt_of_mem {value : ℤ} (hlow : 0 ≤ value) (hhigh : value < 2 ^ 31) :
    ((BitVec.ofInt 32 value).toNat : ℤ) = value := by
  rw [BitVec.toNat_ofInt]
  omega

theorem sysinfo_staysWithin_iff (utsname : SystemUtsname) (cmd : BitVec 32) :
    (SizedCall.sysinfo utsname cmd).StaysWithin size ↔
      returnString utsname cmd.toNat = none ∨ 0 ≤ size.toInt := by
  simp only [SizedCall.StaysWithin, SizedCall.copy, svr4Sysinfo]
  cases hstring : returnString utsname cmd.toNat with
  | none => simp
  | some string =>
      have hlength := length_returnString hstring
      simp only [reduceCtorEq, false_or, Option.some.injEq, forall_eq', Copy.Fits]
      obtain ⟨hsign, hnat⟩ | ⟨hsign, hnat⟩ := toInt_cases size
      · have hslen : 0 ≤ slen string size ∧ slen string size ≤ size.toInt ∧
            slen string size ≤ string.length + 1 := by
          simp only [slen]
          split_ifs <;> omega
        have hcount := toNat_ofInt_of_mem hslen.1 (by omega)
        refine iff_of_true ⟨?_, ?_⟩ hsign
        · rw [hcount, max_eq_left hsign]
          exact hslen.2.1
        · omega
      · have hslen : slen string size = string.length + 1 := by
          rw [slen, if_neg (by omega)]
        have hcount : ((BitVec.ofInt 32 (string.length + 1)).toNat : ℤ) =
            string.length + 1 := toNat_ofInt_of_mem (by omega) (by omega)
        refine iff_of_false (fun hfits => ?_) (by omega)
        have hle := hfits.1
        rw [hslen, hcount, max_eq_right (by omega)] at hle
        omega

theorem getFeatures_staysWithin_iff :
    SizedCall.getFeatures.StaysWithin size ↔ size.toInt = 12 ∨ size.toInt = 13 := by
  have hlt := size.isLt
  have hmax : size.toInt < 2 ^ 31 := by
    obtain ⟨-, -⟩ | ⟨hsign, -⟩ := toInt_cases size
    · rw [BitVec.toInt_eq_toNat_cond]
      split_ifs <;> omega
    · omega
  have hcount : ((BitVec.ofInt 32 (max size.toInt 12)).toNat : ℤ) = max size.toInt 12 :=
    toNat_ofInt_of_mem (by omega) (by omega)
  simp only [SizedCall.StaysWithin, SizedCall.copy, scoGetFeatures, Option.some.injEq,
    forall_eq', Copy.Fits, hcount, osr5Features, List.length_cons, List.length_nil]
  constructor
  · rintro ⟨hle, hsize⟩
    omega
  · rintro (h | h) <;> constructor <;> omega

/-- The copy of the whole structure, or of none of it. -/
theorem statfsCopy_fits_iff {count : ℕ} (hsize : size.toInt ≤ 40) :
    ((⟨count, svr4StatfsSize⟩ : Copy).Fits size) ↔
      (count : ℤ) ≤ max size.toInt 0 := by
  simp only [Copy.Fits, svr4StatfsSize]
  omega

/-- The stored structure of a file system that is not mounted. -/
theorem unmounted_staysWithin_iff {ret : ℤ} {st : Svr4Statfs}
    (hsize : size.toInt ≤ 40) :
    (∀ copy, resultCopy (some (ret, some (st, size.toNat))) = some copy →
      copy.Fits size) ↔ 40 ≤ size.toInt ∨ 0 ≤ size.toInt := by
  simp only [resultCopy, Option.some.injEq, forall_eq', statfsCopy_fits_iff hsize]
  obtain ⟨hsign, hnat⟩ | ⟨hsign, hnat⟩ := toInt_cases size <;> omega

/-- The stored structure of a mounted file system. -/
theorem reported_staysWithin_iff {result : Svr4Result} {Reported : Prop}
    (hsize : size.toInt ≤ 40)
    (hresult : Reported → resultCopy result = some ⟨svr4StatfsSize, svr4StatfsSize⟩)
    (hnone : ¬ Reported → resultCopy result = none) :
    (∀ copy, resultCopy result = some copy → copy.Fits size) ↔
      40 ≤ size.toInt ∨ ¬ Reported := by
  by_cases hreported : Reported
  · simp only [hresult hreported, Option.some.injEq, forall_eq',
      statfsCopy_fits_iff hsize, hreported, not_true_eq_false, or_false]
    simp only [svr4StatfsSize]
    omega
  · simp [hnone hreported, hreported]

theorem statfsCopy_of_reported {kernel : Kernel} {path : List Char} {stack : Stack}
    {fType : BitVec 16} (hsize : ¬ size.toInt > svr4StatfsSize)
    (hreported : NameReported kernel path stack) :
    resultCopy (svr4Statfs kernel path size 0 fType stack) =
      some ⟨svr4StatfsSize, svr4StatfsSize⟩ := by
  obtain ⟨pathstruct, tmp, hpath, hstatfs⟩ := hreported
  simp [svr4Statfs, hsize, hpath, hstatfs, resultCopy]

theorem statfsCopy_of_not_reported {kernel : Kernel} {path : List Char} {stack : Stack}
    {fType : BitVec 16} (hsize : ¬ size.toInt > svr4StatfsSize)
    (hreported : ¬ NameReported kernel path stack) :
    resultCopy (svr4Statfs kernel path size 0 fType stack) = none := by
  rw [svr4Statfs, if_neg hsize, if_pos rfl]
  cases hpath : userPath kernel path stack.first with
  | none => rfl
  | some found =>
      obtain ⟨pathstruct, error⟩ := found
      by_cases herror : error = 0
      · subst herror
        cases pathstruct with
        | none => rfl
        | some pathstruct =>
            cases hstatfs : vfsStatfs kernel pathstruct.rootDev stack.second with
            | none => simp [hstatfs, resultCopy]
            | some answer =>
                cases answer with
                | error errno => simp [hstatfs, resultCopy]
                | ok tmp => exact absurd ⟨pathstruct, tmp, hpath, hstatfs⟩ hreported
      · simp [herror, resultCopy]

theorem fstatfsCopy_of_reported {kernel : Kernel} {files : FileState} {memory : ℕ → ℕ}
    {fd : BitVec 32} {fType : BitVec 16} {stack : Stack} {left : Option Path}
    (hsize : ¬ size.toInt > svr4StatfsSize)
    (hreported : LeftReported kernel files memory fd stack left) :
    resultCopy (fstatfsLeft kernel files memory fd size 0 fType stack left) =
      some ⟨svr4StatfsSize, svr4StatfsSize⟩ := by
  obtain ⟨file, superBlock, tmp, hfile, rfl, hstatfs⟩ := hreported
  simp [fstatfsLeft, hsize, hfile, inodeGetISb, hstatfs, resultCopy]

theorem fstatfsCopy_of_not_reported {kernel : Kernel} {files : FileState}
    {memory : ℕ → ℕ} {fd : BitVec 32} {fType : BitVec 16} {stack : Stack}
    {left : Option Path} (hsize : ¬ size.toInt > svr4StatfsSize)
    (hreported : ¬ LeftReported kernel files memory fd stack left) :
    resultCopy (fstatfsLeft kernel files memory fd size 0 fType stack left) = none := by
  rw [fstatfsLeft, if_neg hsize, if_pos rfl]
  cases hfile : fget kernel files memory fd with
  | none => rfl
  | some file =>
      cases left with
      | none => rfl
      | some superBlock =>
          cases hstatfs : vfsStatfs kernel superBlock.rootDev stack.first with
          | none => simp [inodeGetISb, hstatfs, resultCopy]
          | some answer =>
              cases answer with
              | error errno => simp [inodeGetISb, hstatfs, resultCopy]
              | ok tmp =>
                  exact absurd ⟨file, superBlock, tmp, hfile, rfl, hstatfs⟩ hreported

theorem statfs_staysWithin_iff (kernel : Kernel) (path : List Char)
    (fstype : BitVec 32) (fType : BitVec 16) (stack : Stack) :
    (SizedCall.statfs kernel path fstype fType stack).StaysWithin size ↔
      (SizedCall.statfs kernel path fstype fType stack).Respects size := by
  simp only [SizedCall.StaysWithin, SizedCall.copy, SizedCall.Respects]
  by_cases hlarge : size.toInt > svr4StatfsSize
  · rw [svr4Statfs, if_pos hlarge]
    simp only [svr4StatfsSize] at hlarge
    exact iff_of_true (by simp [resultCopy]) (.inl (by omega))
  have hsize : size.toInt ≤ 40 := not_lt.mp hlarge
  by_cases hfstype : fstype = 0
  · subst hfstype
    rw [if_pos rfl]
    exact reported_staysWithin_iff hsize (statfsCopy_of_reported hlarge)
      (statfsCopy_of_not_reported hlarge)
  · rw [svr4Statfs, if_neg hlarge, if_neg hfstype, if_neg hfstype]
    exact unmounted_staysWithin_iff hsize

theorem fstatfs_staysWithin_iff (kernel : Kernel) (files : FileState)
    (memory : ℕ → ℕ) (fd fstype : BitVec 32) (fType : BitVec 16) (stack : Stack)
    (left : Option Path) :
    (SizedCall.fstatfs kernel files memory fd fstype fType stack left).StaysWithin
        size ↔
      (SizedCall.fstatfs kernel files memory fd fstype fType stack left).Respects
        size := by
  simp only [SizedCall.StaysWithin, SizedCall.copy, SizedCall.Respects]
  by_cases hlarge : size.toInt > svr4StatfsSize
  · rw [fstatfsLeft, if_pos hlarge]
    simp only [svr4StatfsSize] at hlarge
    exact iff_of_true (by simp [resultCopy]) (.inl (by omega))
  have hsize : size.toInt ≤ 40 := not_lt.mp hlarge
  by_cases hfstype : fstype = 0
  · subst hfstype
    rw [if_pos rfl]
    exact reported_staysWithin_iff hsize (fstatfsCopy_of_reported hlarge)
      (fstatfsCopy_of_not_reported hlarge)
  · rw [fstatfsLeft, if_neg hlarge, if_neg hfstype, if_neg hfstype]
    exact unmounted_staysWithin_iff hsize

end Calls

/-- A call stays within its caller's size, and within what it reports, exactly for
the sizes it respects. -/
theorem staysWithin_iff (call : SizedCall) (size : BitVec 32) :
    call.StaysWithin size ↔ call.Respects size := by
  cases call with
  | sysinfo utsname cmd => exact sysinfo_staysWithin_iff utsname cmd
  | getFeatures => exact getFeatures_staysWithin_iff
  | statfs kernel path fstype fType stack =>
      exact statfs_staysWithin_iff kernel path fstype fType stack
  | fstatfs kernel files memory fd fstype fType stack left =>
      exact fstatfs_staysWithin_iff kernel files memory fd fstype fType stack left

/-- `sysi86(SI86GETFEATURES, buf, 4)` writes twelve bytes. -/
theorem staysWithin_wrong :
    ¬ ∀ (call : SizedCall) (size : BitVec 32), call.StaysWithin size := by
  intro h
  have hfits := h .getFeatures 4 ⟨12, 13⟩ (by decide)
  exact absurd hfits (by decide)

end IbcsUs.SizedResults
