import Mathlib.Data.List.ModifyLast
import IbcsUs.Syscalls.Seek

/-!
# Reading a directory

`svr4_getdents` asks `vfs_readdir` to hand it the entries of a directory one by one
and asks for the position of the directory at the end.  How the kernel groups the
entries into the results of `getdents64` is a parameter of each call.  Of each group
only the first entry is looked at; an entry that does not fit any more fails the
whole call; and asking for the position rewinds the directory.
-/

namespace IbcsUs.Syscalls

open IbcsUs.Runs

/-- An entry of a directory, as in `struct linux_dirent64`. -/
structure Dirent where
  ino : ℕ
  off : ℕ
  type : ℕ
  name : List Char
  deriving DecidableEq

/-- A directory: no two of its entries have one name. -/
structure Directory where
  entries : List Dirent
  nodup : (entries.map Dirent.name).Nodup

/-- A result of `getdents64`: its first entry and the others. -/
abbrev Batch := Dirent × List Dirent

def Batch.entries (batch : Batch) : List Dirent := batch.1 :: batch.2

/-- The bytes the kernel uses for an entry. -/
def kernelReclen (entry : Dirent) : ℕ :=
    (19 + entry.name.length + 1 + 7) / 8 * 8

/-- What `getdents64` returns for a batch. -/
def batchBytes (batch : Batch) : ℕ := (batch.entries.map kernelReclen).sum

/-- A record in the caller's buffer. -/
structure UserDirent where
  dIno : ℕ
  dOff : ℕ
  dReclen : ℕ
  dName : List Char
  deriving DecidableEq

/-- `struct svr4_getdents_callback`.  The records stand for the buffer up to
`current_dir`; `previous` is the last of them. -/
structure GetdentsCallback where
  records : List UserDirent
  count : ℤ
  error : ℤ
  deriving DecidableEq

/-- `ROUND_UP(NAME_OFFSET(dirent) + namlen + 1)`. -/
def svr4Reclen (entry : Dirent) : ℕ := (19 + entry.name.length + 1 + 3) / 4 * 4

/-- `put_user(offset, &previous->d_off)`, where there is a previous record. -/
def setLastOff (records : List UserDirent) (offset : ℕ) : List UserDirent :=
  records.modifyLast fun record => { record with dOff := offset }

section Readdir

-- the inode number the personality shows for that of an entry
variable (svr4Ino : ℕ → ℕ)

/-- `svr4_filldir`. -/
def svr4Filldir (buf : GetdentsCallback)
    (entry : Dirent) : GetdentsCallback × ℤ :=
  let reclen := svr4Reclen entry
  let buf := { buf with error := -(einval : ℤ) }
  if (reclen : ℤ) > buf.count then (buf, -(einval : ℤ))
  else
    ({ buf with
        records := setLastOff buf.records entry.off ++
          [⟨svr4Ino entry.ino, 0, reclen % 2 ^ 16, entry.name⟩]
        count := buf.count - reclen }, 0)

/-- The size of `struct linux_dirent64`. -/
def sizeofDirent64 : ℕ := 20

/-- `vfs_readdir` over the results that `getdents64` gives until it returns 0: the
value returned and the number of entries the kernel has handed out. -/
def vfsReaddir : List Batch → GetdentsCallback → GetdentsCallback × ℤ × ℕ
  | [], buf => (buf, 0, 0)
  | batch :: batches, buf =>
      if batchBytes batch ≤ sizeofDirent64 then
        (buf, batchBytes batch, batch.entries.length)
      else
        let (buf, retval) := svr4Filldir svr4Ino buf batch.1
        if retval < 0 then (buf, retval, batch.entries.length)
        else
          let (buf, retval, used) := vfsReaddir batches buf
          (buf, retval, batch.entries.length + used)

/-- A call: the size of the buffer and the groups the kernel would hand out up to the
end of the directory. -/
structure GetdentsCall where
  count : ℤ
  batches : List Batch
  deriving DecidableEq

/-- What a call comes to: the value returned, the position of the directory and the
records in the buffer. -/
structure GetdentsResult where
  ret : ℤ
  pos : ℕ
  records : List UserDirent
  deriving DecidableEq

/-- `svr4_getdents` at a position of the directory. -/
def svr4Getdents (above : ℕ → BitVec 32) (fd : BitVec 32) (size pos : ℕ)
    (call : GetdentsCall) : GetdentsResult :=
  let (buf, error, used) := vfsReaddir svr4Ino call.batches ⟨[], call.count, 0⟩
  if error < 0 then ⟨error, pos + used, buf.records⟩
  else if buf.records = [] then ⟨buf.error, pos + used, buf.records⟩
  else
    let (file, here) := fileGetFPos above fd ⟨size, pos + used⟩
    ⟨call.count - buf.count, file.pos, setLastOff buf.records here.toNat⟩

end Readdir

/-! ## Sequences of calls -/

/-- A directory being read: its position, the names returned by the calls that
succeeded, and whether a call has returned 0. -/
structure Reading where
  pos : ℕ
  names : List (List Char)
  ended : Bool
  deriving DecidableEq

section Runs

variable (svr4Ino : ℕ → ℕ) (above : ℕ → BitVec 32) (fd : BitVec 32)
  (dir : Directory)

/-- The result of a call in a reading. -/
def callResult (reading : Reading) (call : GetdentsCall) : GetdentsResult :=
  svr4Getdents svr4Ino above fd dir.entries.length reading.pos call

/-- The reading after a call; the groups are those of the rest of the directory. -/
def getdentsStep (reading : Reading) (call : GetdentsCall) : Option Reading :=
  if call.batches.flatMap Batch.entries = dir.entries.drop reading.pos then
    let result := callResult svr4Ino above fd dir reading call
    some
      { pos := result.pos
        names := if result.ret < 0 then reading.names
          else reading.names ++ result.records.map UserDirent.dName
        ended := reading.ended || result.ret = 0 }
  else none

def newReading : Reading := ⟨0, [], false⟩

/-- Up to the call that returns 0: a call does not fail with an entry in the buffer,
the names returned are the first of the directory, and they are all of them when the
call returns 0. -/
def GetdentsRight (reading : Reading) (call : GetdentsCall) : Prop :=
  call.batches.flatMap Batch.entries = dir.entries.drop reading.pos →
    reading.ended ∨
      let result := callResult svr4Ino above fd dir reading call
      if result.ret < 0 then result.records = []
      else if result.ret = 0 then reading.names = dir.entries.map Dirent.name
      else reading.names ++ result.records.map UserDirent.dName <+:
        dir.entries.map Dirent.name

/-- The condition on a call: at the end of the directory everything has been
returned; elsewhere the next entry does not fit, or the directory stands where the
names returned end, every group but the last is one entry, and all of them fit. -/
def GetdentsMeets (reading : Reading) (call : GetdentsCall) : Prop :=
  call.batches.flatMap Batch.entries = dir.entries.drop reading.pos →
    reading.ended ∨
      match call.batches with
      | [] => reading.names = dir.entries.map Dirent.name
      | batch :: _ =>
          call.count < svr4Reclen batch.1 ∨
            reading.pos = reading.names.length ∧
              (∀ other ∈ call.batches.dropLast, other.2 = []) ∧
              ((call.batches.map fun other => svr4Reclen other.1).sum : ℤ) ≤
                call.count

end Runs

/-! ## What one call does -/

section Call

variable (svr4Ino : ℕ → ℕ) {batch : Batch} {batches : List Batch}
variable {buf : GetdentsCallback}

/-- The names at the head of the groups, those that are looked at. -/
def firstNames (batches : List Batch) : List (List Char) :=
  batches.map fun batch => batch.1.name

/-- The bytes that the records of the groups take. -/
def firstBytes (batches : List Batch) : ℤ :=
  ((batches.map fun batch => svr4Reclen batch.1).sum : ℕ)

@[simp]
theorem setLastOff_names (records : List UserDirent) (offset : ℕ) :
    (setLastOff records offset).map UserDirent.dName =
      records.map UserDirent.dName := by
  rcases records.eq_nil_or_concat' with rfl | ⟨front, last, rfl⟩
  · rfl
  · simp [setLastOff, List.modifyLast_concat]

theorem svr4Filldir_fits {entry : Dirent}
    (hfits : (svr4Reclen entry : ℤ) ≤ buf.count) :
    (svr4Filldir svr4Ino buf entry).2 = 0 ∧
      (svr4Filldir svr4Ino buf entry).1.records.map UserDirent.dName =
        buf.records.map UserDirent.dName ++ [entry.name] ∧
      (svr4Filldir svr4Ino buf entry).1.count =
        buf.count - svr4Reclen entry := by
  simp [svr4Filldir, not_lt.2 hfits]

theorem svr4Filldir_refuses {entry : Dirent}
    (hfull : ¬ (svr4Reclen entry : ℤ) ≤ buf.count) :
    svr4Filldir svr4Ino buf entry = ({ buf with error := -22 }, -22) := by
  simp [svr4Filldir, not_le.1 hfull, einval]

/-- A group is never taken for the end of the directory. -/
theorem sizeofDirent64_lt_batchBytes (batch : Batch) :
    ¬ batchBytes batch ≤ sizeofDirent64 := by
  simp only [batchBytes, Batch.entries, List.map_cons, List.sum_cons,
    kernelReclen, sizeofDirent64]
  omega

theorem firstBytes_cons (batch : Batch) (batches : List Batch) :
    firstBytes (batch :: batches) =
      svr4Reclen batch.1 + firstBytes batches := by
  simp [firstBytes]

theorem firstBytes_nonneg (batches : List Batch) : 0 ≤ firstBytes batches :=
  Int.natCast_nonneg _

/-- One round of the loop whose entry fits. -/
theorem vfsReaddir_cons_fits (hfits : (svr4Reclen batch.1 : ℤ) ≤ buf.count) :
    vfsReaddir svr4Ino (batch :: batches) buf =
      ((vfsReaddir svr4Ino batches (svr4Filldir svr4Ino buf batch.1).1).1,
        (vfsReaddir svr4Ino batches (svr4Filldir svr4Ino buf batch.1).1).2.1,
        batch.entries.length +
          (vfsReaddir svr4Ino batches
            (svr4Filldir svr4Ino buf batch.1).1).2.2) := by
  have hok : ¬ (svr4Filldir svr4Ino buf batch.1).2 < 0 := by
    rw [(svr4Filldir_fits svr4Ino hfits).1]
    exact lt_irrefl 0
  rw [vfsReaddir, if_neg (sizeofDirent64_lt_batchBytes batch)]
  simp only [if_neg hok]

/-- One round of the loop whose entry does not fit. -/
theorem vfsReaddir_cons_refuses
    (hfull : ¬ (svr4Reclen batch.1 : ℤ) ≤ buf.count) :
    vfsReaddir svr4Ino (batch :: batches) buf =
      ({ buf with error := -22 }, -22, batch.entries.length) := by
  rw [vfsReaddir, if_neg (sizeofDirent64_lt_batchBytes batch)]
  simp [svr4Filldir_refuses svr4Ino hfull]

/-- When the first entries of all groups fit, the loop gets to the end. -/
theorem vfsReaddir_fits (hfits : firstBytes batches ≤ buf.count) :
    (vfsReaddir svr4Ino batches buf).2.1 = 0 ∧
      (vfsReaddir svr4Ino batches buf).1.records.map UserDirent.dName =
        buf.records.map UserDirent.dName ++ firstNames batches ∧
      (vfsReaddir svr4Ino batches buf).1.count =
        buf.count - firstBytes batches := by
  induction batches generalizing buf with
  | nil => simp [vfsReaddir, firstNames, firstBytes]
  | cons batch batches ih =>
      rw [firstBytes_cons] at hfits ⊢
      have hrest := firstBytes_nonneg batches
      have hfirst : (svr4Reclen batch.1 : ℤ) ≤ buf.count := by omega
      obtain ⟨-, hnames, hcount⟩ := svr4Filldir_fits svr4Ino hfirst
      obtain ⟨hret, hnames', hcount'⟩ := @ih (svr4Filldir svr4Ino buf batch.1).1
        (by omega)
      rw [vfsReaddir_cons_fits svr4Ino hfirst]
      refine ⟨hret, ?_, ?_⟩
      · simp only [hnames', hnames, firstNames, List.map_cons,
          List.append_assoc, List.singleton_append]
      · simp only [hcount', hcount]
        omega

/-- When they do not all fit, the call fails, and what is in the buffer stays. -/
theorem vfsReaddir_refuses (hcount : 0 ≤ buf.count)
    (hfull : ¬ firstBytes batches ≤ buf.count) :
    (vfsReaddir svr4Ino batches buf).2.1 = -22 ∧
      buf.records.length ≤
        (vfsReaddir svr4Ino batches buf).1.records.length := by
  induction batches generalizing buf with
  | nil => exact absurd hcount hfull
  | cons batch batches ih =>
      rw [firstBytes_cons] at hfull
      by_cases hfirst : (svr4Reclen batch.1 : ℤ) ≤ buf.count
      · obtain ⟨-, hnames, hleft⟩ := svr4Filldir_fits svr4Ino hfirst
        have hlength := congrArg List.length hnames
        simp only [List.length_map, List.length_append, List.length_singleton]
          at hlength
        obtain ⟨hret, hgrows⟩ := @ih (svr4Filldir svr4Ino buf batch.1).1
          (by omega) (by omega)
        rw [vfsReaddir_cons_fits svr4Ino hfirst]
        exact ⟨hret, by simp only; omega⟩
      · rw [vfsReaddir_cons_refuses svr4Ino hfirst]
        exact ⟨rfl, le_rfl⟩

variable (above : ℕ → BitVec 32) (fd : BitVec 32) (dir : Directory)
variable (reading : Reading) {call : GetdentsCall}

/-- At the end of the directory. -/
theorem callResult_end (hbatches : call.batches = []) :
    (callResult svr4Ino above fd dir reading call).ret = 0 ∧
      (callResult svr4Ino above fd dir reading call).records = [] := by
  simp [callResult, svr4Getdents, hbatches, vfsReaddir]

/-- The next entry does not fit. -/
theorem callResult_first_refused (hbatches : call.batches = batch :: batches)
    (hfull : call.count < svr4Reclen batch.1) :
    (callResult svr4Ino above fd dir reading call).ret = -22 ∧
      (callResult svr4Ino above fd dir reading call).records = [] := by
  have hloop := @vfsReaddir_cons_refuses svr4Ino batch batches
    ⟨[], call.count, 0⟩ (not_le.2 hfull)
  simp [callResult, svr4Getdents, hbatches, hloop]

/-- The next entry fits, and a later one does not. -/
theorem callResult_later_refused (hbatches : call.batches = batch :: batches)
    (hfirst : (svr4Reclen batch.1 : ℤ) ≤ call.count)
    (hfull : ¬ firstBytes call.batches ≤ call.count) :
    (callResult svr4Ino above fd dir reading call).ret = -22 ∧
      (callResult svr4Ino above fd dir reading call).records ≠ [] := by
  rw [hbatches, firstBytes_cons] at hfull
  have hloop := @vfsReaddir_cons_fits svr4Ino batch batches
    ⟨[], call.count, 0⟩ hfirst
  obtain ⟨-, hnames, hleft⟩ :=
    @svr4Filldir_fits svr4Ino ⟨[], call.count, 0⟩ batch.1 hfirst
  have hlength := congrArg List.length hnames
  simp only [List.map_nil, List.nil_append, List.length_map,
    List.length_singleton]
    at hlength
  obtain ⟨hret, hgrows⟩ := @vfsReaddir_refuses svr4Ino batches
    (svr4Filldir svr4Ino ⟨[], call.count, 0⟩ batch.1).1
    (by rw [hleft]; simp only; omega) (by rw [hleft]; simp only; omega)
  simp only [callResult, svr4Getdents, hbatches, hloop, hret]
  refine ⟨rfl, fun hnil => ?_⟩
  rw [if_pos (by decide)] at hnil
  dsimp only at hnil
  rw [hnil, hlength] at hgrows
  exact absurd hgrows (by decide)

/-- Everything looked at fits. -/
theorem callResult_fits (hbatches : call.batches = batch :: batches)
    (hfits : firstBytes call.batches ≤ call.count) :
    0 < (callResult svr4Ino above fd dir reading call).ret ∧
      (callResult svr4Ino above fd dir reading call).records.map
        UserDirent.dName =
        firstNames call.batches := by
  obtain ⟨hret, hnames, hcount⟩ :=
    @vfsReaddir_fits svr4Ino call.batches ⟨[], call.count, 0⟩ hfits
  have hnonempty :
      (vfsReaddir svr4Ino call.batches ⟨[], call.count, 0⟩).1.records ≠ [] := by
    intro hnil
    rw [hnil, hbatches] at hnames
    simp [firstNames] at hnames
  have hpos : 0 < firstBytes call.batches := by
    have hrest := firstBytes_nonneg batches
    rw [hbatches, firstBytes_cons, svr4Reclen]
    omega
  simp only [callResult, svr4Getdents, hret, lt_irrefl, if_false, hnonempty,
    setLastOff_names, hcount]
  refine ⟨by omega, ?_⟩
  simpa using hnames

end Call

/-! ## Groups and the directory -/

/-- Looking at the first entries only gives the beginning of the list exactly when
all groups but the last are single entries. -/
theorem firstNames_prefix_iff {batches : List Batch}
    (hnodup : ((batches.flatMap Batch.entries).map Dirent.name).Nodup) :
    firstNames batches <+: (batches.flatMap Batch.entries).map Dirent.name ↔
      ∀ batch ∈ batches.dropLast, batch.2 = [] := by
  induction batches with
  | nil => simp [firstNames]
  | cons batch batches ih =>
      obtain ⟨first, others⟩ := batch
      cases batches with
      | nil => simp [firstNames, Batch.entries]
      | cons next batches =>
          have hsplit : ((((first, others) :: next :: batches).flatMap
              Batch.entries).map Dirent.name) = first.name ::
                (others.map Dirent.name ++ ((next :: batches).flatMap
                  Batch.entries).map Dirent.name) := by
            simp [Batch.entries]
          rw [hsplit] at hnodup ⊢
          have hfirst : firstNames ((first, others) :: next :: batches) =
            first.name :: firstNames (next :: batches) := rfl
          obtain ⟨-, hrest⟩ := List.nodup_cons.1 hnodup
          rw [hfirst, List.cons_prefix_cons, List.dropLast_cons_cons,
            List.forall_mem_cons,
              ← ih (hrest.sublist (List.sublist_append_right _ _))]
          constructor
          · rintro ⟨-, hstarts⟩
            cases others with
            | nil => exact ⟨rfl, hstarts⟩
            | cons other others =>
                -- the first name of the next group would stand in this one too
                have hsame := (List.cons_prefix_cons.1 hstarts).1
                simp only [List.map_cons, List.cons_append,
                  List.nodup_cons] at hrest
                refine absurd ?_ hrest.1
                rw [← hsame]
                simp [Batch.entries]
          · rintro ⟨hnone, hstarts⟩
            simp only at hnone
            subst hnone
            exact ⟨rfl, hstarts⟩

section Exact

variable {dir : Directory} {pos : ℕ} {names : List (List Char)}
variable {batch : Batch} {batches : List Batch}

/-- The names looked at continue those returned exactly when the directory stands
where these end and all groups but the last are single entries. -/
theorem append_firstNames_prefix_iff
    (hnames : names <+: dir.entries.map Dirent.name)
    (hrest : (batch :: batches).flatMap Batch.entries = dir.entries.drop pos) :
    names ++ firstNames (batch :: batches) <+: dir.entries.map Dirent.name ↔
      pos = names.length ∧
        ∀ other ∈ (batch :: batches).dropLast, other.2 = [] := by
  obtain ⟨tail, htail⟩ := hnames
  have hnodup := dir.nodup
  have hdrop := congrArg (List.map Dirent.name) hrest
  rw [List.map_drop] at hdrop
  rw [← firstNames_prefix_iff
    (by rw [hdrop]; exact hnodup.sublist (List.drop_sublist _ _)),
    hdrop, ← htail, List.prefix_append_right_inj]
  rw [← htail] at hnodup hdrop
  constructor
  · intro hstarts
    have hpos : (names ++ tail)[pos]? = some batch.1.name := by
      have hhead := congrArg List.head? hdrop
      rw [List.head?_drop] at hhead
      rw [← hhead]
      simp [Batch.entries]
    have hnext : (names ++ tail)[names.length]? = some batch.1.name := by
      obtain ⟨others, rfl⟩ := hstarts
      simp [firstNames]
    have hlt : pos < (names ++ tail).length := by
      by_contra hge
      rw [List.getElem?_eq_none (not_lt.1 hge)] at hpos
      cases hpos
    have heq := (List.getElem?_inj hlt hnodup).1 (hpos.trans hnext.symm)
    rw [heq, List.drop_left]
    exact ⟨rfl, hstarts⟩
  · rintro ⟨rfl, hstarts⟩
    rwa [List.drop_left] at hstarts

end Exact

/-! ## Whole readings -/

section Readings

variable (svr4Ino : ℕ → ℕ) (above : ℕ → BitVec 32) (fd : BitVec 32)
  (dir : Directory)

/-- Up to the call that returns 0 the names returned are the first of the
directory. -/
def ReadingInv (reading : Reading) : Prop :=
  reading.ended ∨ reading.names <+: dir.entries.map Dirent.name

theorem getdentsRight_iff {reading : Reading} (hinv : ReadingInv dir reading)
    (call : GetdentsCall) :
    GetdentsRight svr4Ino above fd dir reading call ↔
      GetdentsMeets dir reading call := by
  rw [GetdentsRight, GetdentsMeets]
  refine imp_congr_right fun hrest => ?_
  by_cases hended : reading.ended
  · simp [hended]
  have hnames := hinv.resolve_left hended
  refine or_congr_right ?_
  simp only
  cases hbatches : call.batches with
  | nil =>
      obtain ⟨hret, -⟩ := callResult_end svr4Ino above fd dir reading
        hbatches
      simp [hret]
  | cons batch batches =>
      simp only
      by_cases hfull : call.count < svr4Reclen batch.1
      · obtain ⟨hret, hnone⟩ := callResult_first_refused svr4Ino above fd dir
          reading hbatches hfull
        simp [hret, hnone, hfull]
      by_cases hfits : firstBytes call.batches ≤ call.count
      · obtain ⟨hret, hrecords⟩ := callResult_fits svr4Ino above fd dir
          reading hbatches hfits
        rw [hbatches] at hrest hrecords
        rw [if_neg (not_lt.2 hret.le), if_neg hret.ne', hrecords,
          append_firstNames_prefix_iff hnames hrest]
        rw [hbatches] at hfits
        simp only [hfull, false_or]
        exact ⟨fun hmeets => ⟨hmeets.1, hmeets.2, hfits⟩,
          fun hmeets => ⟨hmeets.1, hmeets.2.1⟩⟩
      · obtain ⟨hret, hsome⟩ := callResult_later_refused svr4Ino above fd dir
          reading hbatches (not_lt.1 hfull) hfits
        rw [hbatches] at hfits
        rw [if_pos (by rw [hret]; decide)]
        refine iff_of_false hsome ?_
        rintro (hlt | ⟨-, -, hroom⟩)
        · exact hfull hlt
        · exact hfits hroom

theorem readingInv_step {reading next : Reading} {call : GetdentsCall}
    (hinv : ReadingInv dir reading)
    (hright : GetdentsRight svr4Ino above fd dir reading call)
    (hstep : getdentsStep svr4Ino above fd dir reading call = some next) :
    ReadingInv dir next := by
  rw [getdentsStep] at hstep
  split_ifs at hstep with hrest
  obtain rfl := Option.some.inj hstep
  rw [ReadingInv]
  rcases hright hrest with hended | hright
  · simp [hended]
  simp only at hright ⊢
  split_ifs at hright ⊢ with hneg hzero
  · exact hinv.imp (fun hended => by simp [hended]) id
  · simp [hzero]
  · exact .inr hright

end Readings

/-- Reading a directory loses and repeats nothing exactly when every call up to the
one that returns 0 is made at the end of a directory all returned, or where nothing
fits, or where the names returned end, with single entries all of which fit. -/
theorem getdents_right_iff (svr4Ino : ℕ → ℕ) (above : ℕ → BitVec 32)
    (fd : BitVec 32) (dir : Directory) (calls : List GetdentsCall) :
    Always (getdentsStep svr4Ino above fd dir) (fun _ => True)
        (GetdentsRight svr4Ino above fd dir) newReading calls ↔
      StepsMeet (getdentsStep svr4Ino above fd dir)
        (GetdentsMeets dir) newReading
        calls := by
  apply always_iff_stepsMeet
    fun (reading : Reading) (_ : ReadingInv dir reading) => trivial
  · intro reading call next hinv hmeets hstep
    exact readingInv_step svr4Ino above fd dir hinv
      ((getdentsRight_iff svr4Ino above fd dir hinv call).2 hmeets) hstep
  · exact fun reading call hinv =>
      (getdentsRight_iff svr4Ino above fd dir hinv call).2
  · exact fun reading call hinv hright _ =>
      (getdentsRight_iff svr4Ino above fd dir hinv call).1 hright
  · exact .inr (List.nil_prefix)

/-- The directory of a directory without files. -/
def emptyDirectory : Directory :=
  ⟨[⟨2, 1, 4, ['.']⟩, ⟨2, 2, 4, ['.', '.']⟩], by decide⟩

/-- With a buffer for one record, and single entries from the kernel, the first call
puts `.` into the buffer and fails, and the second says that there is nothing more. -/
theorem getdents_loses_entries :
    ¬ Always (getdentsStep id (fun _ => 0) 3 emptyDirectory) (fun _ => True)
        (GetdentsRight id (fun _ => 0) 3 emptyDirectory) newReading
        [⟨24, emptyDirectory.entries.map fun entry => (entry, [])⟩,
          ⟨24, []⟩] := by
  rintro ⟨-, hfirst, -⟩
  rcases hfirst (by decide) with hended | hright
  · cases hended
  · have hresult : callResult id (fun _ => 0) 3 emptyDirectory newReading
        ⟨24, emptyDirectory.entries.map fun entry => (entry, [])⟩ =
          ⟨-22, 2, [⟨2, 0, 24, ['.']⟩]⟩ := by
      decide
    simp only [hresult] at hright
    exact absurd hright (by decide)

end IbcsUs.Syscalls
