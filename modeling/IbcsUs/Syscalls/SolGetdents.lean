import IbcsUs.Syscalls.Getdents

/-!
# Reading a directory of 64-bit records

`sol_getdents64` asks the kernel for one entry at a time, with a buffer of one byte,
and makes a record of each.  The kernel hands out whole records only.  The position
is asked for before each entry, and asking for it rewinds the directory.
-/

namespace IbcsUs.SolGetdents

open IbcsUs.Runs IbcsUs.Syscalls

/-! ## The kernel's `getdents` -/

/-- The bytes of a `struct linux_dirent`. -/
def linuxReclen (entry : Dirent) : ℕ := (10 + entry.name.length + 2 + 3) / 4 * 4

/-- The entries whose records fit. -/
def fitting : ℕ → List Dirent → List Dirent
  | _, [] => []
  | room, entry :: entries =>
      if linuxReclen entry ≤ room then
        entry :: fitting (room - linuxReclen entry) entries
      else []

def getdentsEinval : ℤ := -22

/-- The bytes used, or an error, and the entries handed out. -/
def kernelGetdents (entries : List Dirent) (pos count : ℕ) : ℤ × List Dirent :=
  match entries.drop pos with
  | [] => (0, [])
  | first :: rest =>
      match fitting count (first :: rest) with
      | [] => (getdentsEinval, [])
      | batch => ((batch.map linuxReclen).sum, batch)

/-! ## The call -/

/-- A `struct sol_dirent64` in the caller's buffer. -/
structure SolDirent where
  dIno : ℕ
  dOff : ℕ
  dReclen : ℕ
  dName : List Char
  deriving DecidableEq

/-- The variables of the loop, the position of the directory and the records. -/
structure LoopState where
  pos : ℕ
  posn : ℕ
  reclen : ℕ
  error : ℤ
  records : List SolDirent
  deriving DecidableEq

section Calls

variable (above : ℕ → BitVec 32) (fd : BitVec 32) (entries : List Dirent)

/-- The bytes of a record: what the kernel calls the length of its own record is
taken for that of the name. -/
def solReclen (entry : Dirent) : ℕ :=
  (8 + 8 + 2 + (linuxReclen entry + 1) + 3) / 4 * 4

/-- The body of the loop once there is an entry; `here` is the position before
it. -/
def solSave (nbytes : ℤ) (state : LoopState) (here pos : ℕ) (error : ℤ)
    (entry : Dirent) : LoopState :=
  if (state.posn + solReclen entry : ℤ) ≤ nbytes then
    let (file, off) := fileGetFPos above fd ⟨entries.length, pos⟩
    ⟨file.pos, state.posn + solReclen entry, solReclen entry, error,
      state.records ++ [⟨entry.ino, off.toNat, solReclen entry, entry.name⟩]⟩
  else if state.posn ≠ 0 then
    { state with pos := here, reclen := solReclen entry, error := error }
  else { state with pos := pos, reclen := solReclen entry, error := error }

/-- The loop, `none` when the fuel runs out. -/
def solLoop (nbytes : ℤ) : ℕ → LoopState → Option LoopState
  | 0, _ => none
  | fuel + 1, state =>
      if (state.posn + state.reclen : ℤ) < nbytes then
        let (file, here) := fileGetFPos above fd ⟨entries.length, state.pos⟩
        match kernelGetdents entries file.pos 1 with
        | (error, []) => some { state with pos := file.pos, error := error }
        | (error, entry :: others) =>
            solLoop nbytes fuel (solSave above fd entries nbytes state
              here.toNat (file.pos + (entry :: others).length) error entry)
      else some state

/-- The value returned, the position of the directory and the records. -/
structure SolResult where
  ret : ℤ
  pos : ℕ
  records : List SolDirent
  deriving DecidableEq

/-- `sol_getdents64`; each turn of the loop but the last two fills a byte. -/
def solGetdents64 (pos : ℕ) (nbytes : ℤ) : Option SolResult :=
  (solLoop above fd entries nbytes (nbytes.toNat + 2) ⟨pos, 0, 0, 0, []⟩).map
    fun state =>
      ⟨if state.posn > 0 then state.posn else state.error, state.pos,
        state.records⟩

end Calls

/-! ## Sequences of calls -/

/-- A directory being read: its position, what the records returned say, and whether
a call has returned 0. -/
structure Reading where
  pos : ℕ
  returned : List (ℕ × List Char)
  ended : Bool
  deriving DecidableEq

def newReading : Reading := ⟨0, [], false⟩

/-- The inode number and the name of an entry. -/
def Dirent.shown (entry : Dirent) : ℕ × List Char := (entry.ino, entry.name)

def SolDirent.shown (record : SolDirent) : ℕ × List Char :=
  (record.dIno, record.dName)

section Readings

variable (above : ℕ → BitVec 32) (fd : BitVec 32) (dir : Directory)

def solStep (reading : Reading) (nbytes : ℤ) : Option Reading :=
  (solGetdents64 above fd dir.entries reading.pos nbytes).map fun result =>
    ⟨result.pos, reading.returned ++ result.records.map SolDirent.shown,
      reading.ended || result.ret = 0⟩

/-- The buffer has room for the record of the next entry. -/
def RoomForNext (reading : Reading) (nbytes : ℤ) : Prop :=
  ∀ entry, dir.entries[reading.returned.length]? = some entry →
    (((8 + 8 + 2 + entry.name.length + 1 + 3) / 4 * 4 : ℕ) : ℤ) ≤ nbytes

/-- A call with room for the next entry terminates without an error, its records are
within the buffer, and, up to the call that returns 0, the records are those of the
next entries; that call returns 0 when no entry is left. -/
def SolRight (reading : Reading) (nbytes : ℤ) : Prop :=
  RoomForNext dir reading nbytes →
    reading.ended = true ∨
      ∃ result, solGetdents64 above fd dir.entries reading.pos nbytes =
          some result ∧
        0 ≤ result.ret ∧
        (((result.records.map SolDirent.dReclen).sum : ℕ) : ℤ) ≤ max 0 nbytes ∧
        reading.returned ++ result.records.map SolDirent.shown <+:
          dir.entries.map Dirent.shown ∧
        (result.ret = 0 ↔ reading.returned = dir.entries.map Dirent.shown)

/-- A call that has room for the next entry is made on an empty directory. -/
def SolMeets (reading : Reading) (nbytes : ℤ) : Prop :=
  RoomForNext dir reading nbytes → reading.ended = true ∨ dir.entries = []

/-! ## What one call does -/

theorem fitting_one (entries : List Dirent) : fitting 1 entries = [] := by
  cases entries with
  | nil => rfl
  | cons entry entries =>
      have hlong : ¬ linuxReclen entry ≤ 1 := by
        rw [linuxReclen]
        omega
      rw [fitting, if_neg hlong]

/-- A buffer of one byte never gets an entry. -/
theorem kernelGetdents_one (entries : List Dirent) (pos : ℕ) :
    kernelGetdents entries pos 1 =
      (if entries.drop pos = [] then 0 else getdentsEinval, []) := by
  rw [kernelGetdents]
  cases entries.drop pos with
  | nil => rfl
  | cons first rest => simp only [fitting_one, if_neg (List.cons_ne_nil _ _)]

/-- The first turn of the loop is the last. -/
theorem solGetdents64_eq (entries : List Dirent) (pos : ℕ) (nbytes : ℤ) :
    solGetdents64 above fd entries pos nbytes =
      some (if 0 < nbytes then
        ⟨if entries = [] then 0 else getdentsEinval, 0, []⟩
      else ⟨0, pos, []⟩) := by
  rw [solGetdents64]
  rw [solLoop]
  by_cases hbytes : 0 < nbytes
  · simp only [Nat.cast_zero, add_zero, if_pos hbytes, fileGetFPos_eq,
      kernelGetdents_one, List.drop_zero, Option.map_some, gt_iff_lt,
      Nat.lt_irrefl, if_false]
  · simp only [Nat.cast_zero, add_zero, if_neg hbytes, Option.map_some,
      gt_iff_lt, Nat.lt_irrefl, if_false]

/-- A reading has got nowhere. -/
def Reading.Stuck (reading : Reading) : Prop :=
  reading.pos = 0 ∧ reading.returned = []

theorem solStep_stuck {reading next : Reading} {nbytes : ℤ}
    (hstuck : reading.Stuck)
    (hstep : solStep above fd dir reading nbytes = some next) : next.Stuck := by
  obtain ⟨hpos, hreturned⟩ := hstuck
  rw [solStep, solGetdents64_eq, Option.map_some, Option.some.injEq] at hstep
  subst hstep
  by_cases hbytes : 0 < nbytes
  · simp [Reading.Stuck, hbytes, hreturned]
  · simp [Reading.Stuck, hbytes, hreturned, hpos]

theorem solRight_iff {reading : Reading} (hstuck : reading.Stuck) (nbytes : ℤ) :
    SolRight above fd dir reading nbytes ↔ SolMeets dir reading nbytes := by
  obtain ⟨-, hreturned⟩ := hstuck
  rw [SolRight, SolMeets]
  apply imp_congr_right
  intro hroom
  apply or_congr_right
  rw [solGetdents64_eq]
  constructor
  · rintro ⟨result, hresult, hret, -⟩
    by_contra hentries
    obtain ⟨entry, rest, hdir⟩ := List.exists_cons_of_ne_nil hentries
    have hbytes : 0 < nbytes := by
      have hfits := hroom entry (by simp [hreturned, hdir])
      omega
    obtain rfl := Option.some.inj hresult
    rw [if_pos hbytes, if_neg hentries] at hret
    exact absurd hret (by decide)
  · intro hentries
    refine ⟨_, rfl, ?_⟩
    rw [if_pos hentries, hreturned, hentries]
    split_ifs <;> simp

end Readings

/-- The reading of a directory with 64-bit records is right exactly when no call with
room for an entry meets one: every such call fails with `EINVAL`. -/
theorem solGetdents64_right_iff (above : ℕ → BitVec 32) (fd : BitVec 32)
    (dir : Directory) (calls : List ℤ) :
    Always (solStep above fd dir) (fun _ => True) (SolRight above fd dir)
        newReading calls ↔
      StepsMeet (solStep above fd dir) (SolMeets dir) newReading calls := by
  have hstart : newReading.Stuck := ⟨rfl, rfl⟩
  exact always_iff_stepsMeet (fun _ _ => trivial)
    (fun reading nbytes next hstuck _ hstep =>
      solStep_stuck above fd dir hstuck hstep)
    (fun reading nbytes hstuck hmeets =>
      (solRight_iff above fd dir hstuck nbytes).mpr hmeets)
    (fun reading nbytes hstuck hright _ =>
      (solRight_iff above fd dir hstuck nbytes).mp hright)
    hstart calls

def dotEntry : Dirent := ⟨2, 1, 4, ['.']⟩

def oneEntry : Directory := ⟨[dotEntry], by simp⟩

/-- The one entry of a directory is not returned, however large the buffer. -/
theorem solGetdents64_wrong :
    solGetdents64 (fun _ => 0) 3 oneEntry.entries 0 8192 =
        some ⟨getdentsEinval, 0, []⟩ ∧
      ¬ SolRight (fun _ => 0) 3 oneEntry newReading 8192 := by
  have hcall : solGetdents64 (fun _ => 0) 3 oneEntry.entries 0 8192 =
      some ⟨getdentsEinval, 0, []⟩ := solGetdents64_eq ..
  refine ⟨hcall, fun hright => ?_⟩
  have hroom : RoomForNext oneEntry newReading 8192 := by
    intro entry hentry
    obtain rfl := Option.some.inj hentry
    decide
  rcases hright hroom with hended | ⟨result, hresult, hret, -⟩
  · cases hended
  · rw [newReading, hcall, Option.some.injEq] at hresult
    subst hresult
    exact absurd hret (by decide)

end IbcsUs.SolGetdents
