import IbcsUs.Syscalls.Seek

/-!
# Reading a directory with `read`

`abi_read` turns a `read` that fails with `EISDIR` into `abi_read_dir`, which
makes the entries of the directory into records of an inode number and 14
characters.  A long name takes several records, all but the last with the inode
number 0xffff. The loop asks for the position of the directory before each
entry, which rewinds it, so that every entry it gets is the first one.
-/

namespace IbcsUs.Syscalls

open IbcsUs.Runs

abbrev Byte := BitVec 8

/-- The name of a directory entry. -/
structure FileName where
  bytes : List Byte
  nonempty : bytes ≠ []
  short : bytes.length ≤ 255
  noNul : 0 ∉ bytes
  deriving DecidableEq

/-- `struct abi_linux_dirent` as the kernel's `readdir` fills it in. -/
structure AbiLinuxDirent where
  dIno : BitVec 32
  dName : FileName
  deriving DecidableEq

/-- A directory that is read: no two of its entries have one name. -/
structure OldDirectory where
  entries : List AbiLinuxDirent
  nodup : (entries.map fun entry => entry.dName.bytes).Nodup

/-- The names of the entries in order. -/
def OldDirectory.names (dir : OldDirectory) : List (List Byte) :=
  dir.entries.map fun entry => entry.dName.bytes

/-- A call: the size of the buffer, what the buffer held before, and the number
`linux_to_svr4_ino_t` gives for an inode. -/
structure ReadCall where
  count : ℤ
  buf : ℕ → Byte
  linuxToSvr4InoT : BitVec 32 → BitVec 32

/-- `16 * ((de->d_namlen + 13) / 14)`. -/
def dirReclen (name : List Byte) : ℕ := 16 * ((name.length + 13) / 14)

/-- The chunks of a name written at `posn`, which is the length of `out`.  The
inode number of the last one is stored through a pointer to `char`, so that its
second byte stays as it was. -/
def putName (ino : BitVec 32) (buf : ℕ → Byte) (out name : List Byte) :
    List Byte :=
  if 14 < name.length then
    putName ino buf (out ++ [0xff, 0xff] ++ name.take 14) (name.drop 14)
  else
    out ++ [ino.setWidth 8, buf (out.length + 1)] ++ name ++
      List.replicate (14 - name.length) 0
  termination_by name.length

/-- The locals of the loop of `abi_read_dir` and the position of the directory,
counted in entries.  The length of `out` is `posn`. -/
structure DirLoop where
  pos : ℕ
  out : List Byte
  reclen : ℕ
  error : ℤ
  deriving DecidableEq

section Loop

variable (above : ℕ → BitVec 32) (fd : BitVec 32) (dir : OldDirectory)
  (call : ReadCall)

/-- `SYS(lseek, fd, here, 0)` on the directory. -/
def seekBack (pos : ℕ) (here : BitVec 32) : ℕ :=
  (kernelLseek ⟨dir.entries.length, pos⟩
    (lseekRequest
      (vsyscallRegisters above [.int fd, .int here, .int 0]))).1.pos

/-- The loop of `abi_read_dir`, `none` when the fuel runs out. -/
def abiReadDirLoop : ℕ → DirLoop → Option DirLoop
  | 0, _ => none
  | fuel + 1, state =>
      if ¬ ((state.out.length + state.reclen : ℕ) : ℤ) < call.count then
        some state
      else
        let (file, here) :=
          fileGetFPos above fd ⟨dir.entries.length, state.pos⟩
        match dir.entries[file.pos]? with
        | none => some { state with pos := file.pos, error := 0 }
        | some de =>
            let reclen := dirReclen de.dName.bytes
            if ((state.out.length + reclen : ℕ) : ℤ) > call.count then
              if state.out.length ≠ 0 then
                abiReadDirLoop fuel
                  { pos := seekBack above fd dir (file.pos + 1) (lowWord here)
                    out := state.out, reclen := reclen, error := 1 }
              else
                abiReadDirLoop fuel
                  { pos := file.pos + 1, out := state.out, reclen := 0
                    error := 1 }
            else
              abiReadDirLoop fuel
                { pos := file.pos + 1
                  out := putName (call.linuxToSvr4InoT de.dIno) call.buf
                    state.out de.dName.bytes
                  reclen := reclen, error := 1 }

/-- What a call comes to: the position of the directory, the value returned and
the bytes in the buffer. -/
structure ReadResult where
  pos : ℕ
  ret : ℤ
  out : List Byte
  deriving DecidableEq

/-- `abi_read_dir` at a position of the directory, `none` when its loop never
ends. -/
def abiReadDir (pos : ℕ) : Option ReadResult :=
  (abiReadDirLoop above fd dir call (call.count.toNat + 2)
    ⟨pos, [], 0, 0⟩).map fun state =>
      ⟨state.pos,
        if state.out.length ≠ 0 then state.out.length else state.error,
        state.out⟩

end Loop

/-! ## What the program reads -/

/-- A record of an old directory. -/
structure DirRecord where
  ino : BitVec 16
  chars : List Byte
  deriving DecidableEq

/-- The bytes cut into records. -/
def dirRecords : List Byte → List DirRecord
  | low :: high :: rest =>
      ⟨high ++ low, rest.take 14⟩ :: dirRecords (rest.drop 14)
  | _ => []
  termination_by bytes => bytes.length

/-- The names the records spell: a record with the inode number 0xffff is glued
to the next, and the other records end a name, filled up with zeros. -/
def spell : List Byte → List DirRecord → Option (List (List Byte))
  | pending, [] => if pending = [] then some [] else none
  | pending, record :: rest =>
      if record.ino = 0xffff then spell (pending ++ record.chars) rest
      else
        (spell [] rest).map fun names =>
          (pending ++ record.chars.takeWhile (· ≠ 0)) :: names

/-- The bytes are whole records that spell the names. -/
def Spells (bytes : List Byte) (names : List (List Byte)) : Prop :=
  bytes.length % 16 = 0 ∧ spell [] (dirRecords bytes) = some names

/-- The records of a name, the last with the given inode number. -/
def nameRecords (ino : BitVec 16) (name : List Byte) : List DirRecord :=
  if 14 < name.length then
    ⟨0xffff, name.take 14⟩ :: nameRecords ino (name.drop 14)
  else [⟨ino, name ++ List.replicate (14 - name.length) 0⟩]
  termination_by name.length

/-- The inode number in the last record of a name written at `posn`: its second
byte is what the buffer held. -/
def lastIno (ino : BitVec 32) (buf : ℕ → Byte) (posn : ℕ) (name : List Byte) :
    BitVec 16 :=
  buf (posn + dirReclen name - 15) ++ ino.setWidth 8

theorem dirReclen_pos {name : List Byte} (hname : name ≠ []) :
    16 ≤ dirReclen name := by
  have hpos := List.length_pos_of_ne_nil hname
  rw [dirReclen]
  omega

theorem dirReclen_drop {name : List Byte} (hlong : 14 < name.length) :
    dirReclen name = 16 + dirReclen (name.drop 14) := by
  rw [dirReclen, dirReclen, List.length_drop]
  omega

theorem dirReclen_short {name : List Byte} (hname : name ≠ [])
    (hshort : ¬ 14 < name.length) : dirReclen name = 16 := by
  have hpos := List.length_pos_of_ne_nil hname
  rw [dirReclen]
  omega

/-- Cutting starts anew behind whole records. -/
theorem dirRecords_append {front : List Byte} (hfront : front.length % 16 = 0)
    (back : List Byte) :
    dirRecords (front ++ back) = dirRecords front ++ dirRecords back := by
  induction front using dirRecords.induct with
  | case1 low high rest ih =>
    have hlength : 14 ≤ rest.length := by
      simp only [List.length_cons] at hfront
      omega
    have hrest : (rest.drop 14).length % 16 = 0 := by
      simp only [List.length_cons] at hfront
      rw [List.length_drop]
      omega
    rw [List.cons_append, List.cons_append, dirRecords, dirRecords,
      List.take_append_of_le_length hlength,
      List.drop_append_of_le_length hlength, ih hrest, List.cons_append]
  | case2 bytes hshort =>
    match bytes with
    | [] => rw [dirRecords.eq_def []]; rfl
    | [byte] => simp at hfront
    | low :: high :: rest => exact absurd rfl (hshort low high rest)

/-- One record. -/
theorem dirRecords_single {low high : Byte} {chars : List Byte}
    (hlength : chars.length = 14) :
    dirRecords (low :: high :: chars) = [⟨high ++ low, chars⟩] := by
  rw [dirRecords, List.take_of_length_le hlength.le,
    List.drop_eq_nil_of_le hlength.le, dirRecords.eq_def []]

/-- Writing a name appends its records. -/
theorem putName_records (ino : BitVec 32) (buf : ℕ → Byte)
    {out name : List Byte}
    (hout : out.length % 16 = 0) (hname : name ≠ []) :
    (putName ino buf out name).length = out.length + dirReclen name ∧
      dirRecords (putName ino buf out name) = dirRecords out ++
        nameRecords (lastIno ino buf out.length name) name := by
  induction out, name using putName.induct with
  | case1 out name hlong ih =>
    have hchunk : (name.take 14).length = 14 := by
      rw [List.length_take]
      omega
    have hlength : (out ++ [0xff, 0xff] ++ name.take 14).length =
        out.length + 16 := by
      simp only [List.length_append, hchunk, List.length_cons, List.length_nil]
    have hrest : name.drop 14 ≠ [] := by
      intro hnil
      have hzero := congrArg List.length hnil
      rw [List.length_drop, List.length_nil] at hzero
      omega
    obtain ⟨hgrown, hrecords⟩ := ih (by omega) hrest
    rw [putName, if_pos hlong, dirReclen_drop hlong]
    refine ⟨by omega, ?_⟩
    rw [hrecords, lastIno, lastIno, hlength, List.append_assoc,
      dirRecords_append hout, List.cons_append, List.cons_append,
      List.nil_append, dirRecords_single hchunk, nameRecords.eq_def _ name,
      if_pos hlong, List.append_assoc, dirReclen_drop hlong, Nat.add_assoc]
    rfl
  | case2 out name hshort =>
    have hfill : (name ++ List.replicate (14 - name.length) (0 : Byte)).length =
        14 := by
      rw [List.length_append, List.length_replicate]
      omega
    have hwhole : putName ino buf out name = out ++
        ino.setWidth 8 :: buf (out.length + 1) ::
          (name ++ List.replicate (14 - name.length) 0) := by
      rw [putName, if_neg hshort]
      simp
    rw [hwhole, lastIno, dirReclen_short hname hshort,
      nameRecords.eq_def _ name, if_neg hshort, dirRecords_append hout,
      dirRecords_single hfill]
    refine ⟨?_, rfl⟩
    rw [List.length_append, List.length_cons, List.length_cons, hfill]

theorem takeWhile_fill {name : List Byte} (hnul : 0 ∉ name) (count : ℕ) :
    (name ++ List.replicate count (0 : Byte)).takeWhile (· ≠ 0) = name := by
  induction name with
  | nil => cases count <;> simp [List.replicate_succ]
  | cons byte name ih =>
    rw [List.mem_cons, not_or] at hnul
    rw [List.cons_append, List.takeWhile_cons,
      if_pos (decide_eq_true (Ne.symm hnul.1)), ih hnul.2]

/-- The records of a name spell it, unless the last is glued to the next. -/
theorem spell_nameRecords {ino : BitVec 16} (hino : ino ≠ 0xffff)
    {name : List Byte} (hnul : 0 ∉ name) (pending : List Byte)
    (rest : List DirRecord) :
    spell pending (nameRecords ino name ++ rest) =
      (spell [] rest).map fun names => (pending ++ name) :: names := by
  induction name using nameRecords.induct generalizing pending with
  | case1 name hlong ih =>
    have hdrop : 0 ∉ name.drop 14 := fun hmem => hnul (List.mem_of_mem_drop hmem)
    rw [nameRecords, if_pos hlong, List.cons_append, spell, if_pos rfl,
      ih hdrop, List.append_assoc, List.take_append_drop]
  | case2 name hshort =>
    rw [nameRecords, if_neg hshort, List.cons_append, List.nil_append, spell,
      if_neg hino, takeWhile_fill hnul]

/-! ## One call -/

/-- The first name put into the buffer. -/
theorem putName_first (ino : BitVec 32) (buf : ℕ → Byte) (name : FileName) :
    (putName ino buf [] name.bytes).length = dirReclen name.bytes ∧
      dirRecords (putName ino buf [] name.bytes) =
        nameRecords (lastIno ino buf 0 name.bytes) name.bytes := by
  obtain ⟨hlength, hrecords⟩ :=
    @putName_records ino buf [] name.bytes rfl name.nonempty
  rw [List.length_nil, Nat.zero_add] at hlength
  rw [dirRecords.eq_def [], List.nil_append] at hrecords
  exact ⟨hlength, hrecords⟩

section Call

variable (above : ℕ → BitVec 32) (fd : BitVec 32) {dir : OldDirectory}
  (call : ReadCall) {first : AbiLinuxDirent} {others : List AbiLinuxDirent}

/-- The turn of the loop that finds no room. -/
theorem abiReadDirLoop_full (fuel : ℕ) {state : DirLoop}
    (hfull : call.count ≤ ((state.out.length + state.reclen : ℕ) : ℤ)) :
    abiReadDirLoop above fd dir call (fuel + 1) state = some state := by
  rw [abiReadDirLoop, if_pos (not_lt.2 hfull)]

/-- Any other turn gets the first entry. -/
theorem abiReadDirLoop_turn (hentries : dir.entries = first :: others)
    (fuel : ℕ) {state : DirLoop}
    (hroom : ((state.out.length + state.reclen : ℕ) : ℤ) < call.count) :
    abiReadDirLoop above fd dir call (fuel + 1) state =
      if ((state.out.length + dirReclen first.dName.bytes : ℕ) : ℤ) >
          call.count then
        if state.out.length ≠ 0 then
          abiReadDirLoop above fd dir call fuel
            ⟨seekBack above fd dir 1 0, state.out, dirReclen first.dName.bytes,
              1⟩
        else abiReadDirLoop above fd dir call fuel ⟨1, state.out, 0, 1⟩
      else
        abiReadDirLoop above fd dir call fuel
          ⟨1, putName (call.linuxToSvr4InoT first.dIno) call.buf state.out
              first.dName.bytes, dirReclen first.dName.bytes, 1⟩ := by
  have hget : dir.entries[0]? = some first := by rw [hentries]; rfl
  rw [abiReadDirLoop, if_neg (not_not.2 hroom), fileGetFPos_eq]
  simp only [hget, Nat.zero_add]
  rfl

/-- A call on an empty directory, or with no buffer. -/
theorem abiReadDir_zero (pos : ℕ) (hnone : dir.entries = [] ∨ call.count ≤ 0) :
    ∃ pos', abiReadDir above fd dir call pos = some ⟨pos', 0, []⟩ := by
  by_cases hcount : call.count ≤ 0
  · refine ⟨pos, ?_⟩
    rw [abiReadDir, abiReadDirLoop_full above fd call _ (by simpa using hcount)]
    rfl
  · refine ⟨0, ?_⟩
    have hget : dir.entries[0]? = none := by
      rw [hnone.resolve_right hcount]
      rfl
    rw [abiReadDir, abiReadDirLoop, if_neg (by simpa using hcount),
      fileGetFPos_eq]
    simp only [hget]
    rfl

/-- A buffer with room for the first entry and not for a second one and more. -/
theorem abiReadDir_once (pos : ℕ) (hentries : dir.entries = first :: others)
    (hfits : (dirReclen first.dName.bytes : ℤ) ≤ call.count)
    (honce : call.count ≤ 2 * dirReclen first.dName.bytes) :
    abiReadDir above fd dir call pos =
      some ⟨1, dirReclen first.dName.bytes,
        putName (call.linuxToSvr4InoT first.dIno) call.buf []
          first.dName.bytes⟩ := by
  have hreclen := dirReclen_pos first.dName.nonempty
  obtain ⟨hlength, -⟩ := putName_first (call.linuxToSvr4InoT first.dIno)
    call.buf first.dName
  rw [abiReadDir, abiReadDirLoop_turn above fd call hentries,
    if_neg (by simpa using hfits), abiReadDirLoop_full, Option.map_some]
  · simp only [hlength]
    rw [if_pos (by omega)]
  · simp only [hlength]
    omega
  · simp only [List.length_nil]
    omega

/-- A smaller buffer is never filled: the entry is passed over, and got again.
-/
theorem abiReadDirLoop_endless (hentries : dir.entries = first :: others)
    (hpos : 0 < call.count)
    (hsmall : call.count < dirReclen first.dName.bytes) (fuel : ℕ) (pos : ℕ)
    (error : ℤ) :
    abiReadDirLoop above fd dir call fuel ⟨pos, [], 0, error⟩ = none := by
  induction fuel generalizing pos error with
  | zero => rfl
  | succ fuel ih =>
    rw [abiReadDirLoop_turn above fd call hentries fuel (by simpa using hpos),
      if_pos (by simpa using hsmall), if_neg (by simp)]
    exact ih 1 1

/-- Nothing but the first entry is ever put into the buffer. -/
theorem abiReadDirLoop_first (hentries : dir.entries = first :: others)
    {fuel : ℕ} {state final : DirLoop} (hwhole : state.out.length % 16 = 0)
    (hout : ∃ inos : List (BitVec 16), dirRecords state.out =
      inos.flatMap (nameRecords · first.dName.bytes))
    (hloop : abiReadDirLoop above fd dir call fuel state = some final) :
    ∃ inos : List (BitVec 16), dirRecords final.out =
      inos.flatMap (nameRecords · first.dName.bytes) := by
  induction fuel generalizing state with
  | zero => cases hloop
  | succ fuel ih =>
    by_cases hroom :
        ((state.out.length + state.reclen : ℕ) : ℤ) < call.count
    · rw [abiReadDirLoop_turn above fd call hentries fuel hroom] at hloop
      split_ifs at hloop with hfull hnonempty
      · refine ih ?_ ?_ hloop
        · exact hwhole
        · exact hout
      · refine ih ?_ ?_ hloop
        · exact hwhole
        · exact hout
      · obtain ⟨hlength, hrecords⟩ :=
          putName_records (call.linuxToSvr4InoT first.dIno) call.buf hwhole
            first.dName.nonempty
        obtain ⟨inos, hinos⟩ := hout
        refine ih ?_ ⟨inos ++ [lastIno (call.linuxToSvr4InoT first.dIno)
          call.buf state.out.length first.dName.bytes], ?_⟩ hloop
        · simp only [hlength, dirReclen]
          omega
        · simp only [hrecords, hinos, List.flatMap_append,
            List.flatMap_singleton]
    · rw [abiReadDirLoop_full above fd call fuel (not_lt.1 hroom)] at hloop
      exact Option.some.inj hloop ▸ hout

/-- What a call returns are copies of the first entry. -/
theorem abiReadDir_copies {pos : ℕ} (hentries : dir.entries = first :: others)
    {result : ReadResult}
    (hresult : abiReadDir above fd dir call pos = some result) :
    ∃ inos : List (BitVec 16), dirRecords result.out =
      inos.flatMap (nameRecords · first.dName.bytes) := by
  obtain ⟨final, hloop, rfl⟩ := Option.map_eq_some_iff.1 hresult
  refine abiReadDirLoop_first above fd call hentries ?_ ⟨[], ?_⟩ hloop
  · rfl
  · rw [dirRecords.eq_def []]
    rfl

end Call

/-! ## Sequences of calls -/

/-- A directory being read: its position, the bytes returned, and whether a call
has returned 0. -/
structure OldReading where
  pos : ℕ
  bytes : List Byte
  ended : Bool
  deriving DecidableEq

def newOldReading : OldReading := ⟨0, [], false⟩

section Readings

variable (above : ℕ → BitVec 32) (fd : BitVec 32) (dir : OldDirectory)

/-- The buffer can hold the records of the next entry. -/
def HoldsNext (reading : OldReading) (call : ReadCall) : Prop :=
  ∀ entry ∈ dir.entries[reading.pos]?,
    (dirReclen entry.dName.bytes : ℤ) ≤ call.count

instance (reading : OldReading) (call : ReadCall) :
    Decidable (HoldsNext dir reading call) :=
  inferInstanceAs (Decidable (∀ entry ∈ dir.entries[reading.pos]?, _))

/-- The reading after a call, undefined when the buffer is too small for the
next entry or the call does not return. -/
def abiReadStep (reading : OldReading) (call : ReadCall) : Option OldReading :=
  if HoldsNext dir reading call then
    (abiReadDir above fd dir call reading.pos).map fun result : ReadResult =>
      { pos := result.pos
        bytes := if reading.ended then reading.bytes
          else reading.bytes ++ result.out
        ended := reading.ended || decide (result.ret = 0) }
  else none

/-- Up to the call that returns 0: a call returns, the bytes spell the first
names of the directory, and they spell all of them when it returns 0. -/
def AbiReadRight (reading : OldReading) (call : ReadCall) : Prop :=
  HoldsNext dir reading call → reading.ended ∨
    ∃ result, abiReadDir above fd dir call reading.pos = some result ∧
      ∃ names, Spells (reading.bytes ++ result.out) names ∧
        names <+: dir.names ∧ (result.ret = 0 → names = dir.names)

/-- The condition on a call: the directory is empty, or there is no buffer and
everything has been returned, or nothing has been returned so far and the buffer
has room for the first entry once, which is not glued to what follows. -/
def AbiReadMeets (reading : OldReading) (call : ReadCall) : Prop :=
  HoldsNext dir reading call → reading.ended ∨
    match dir.entries with
    | [] => True
    | first :: _ =>
        if call.count ≤ 0 then Spells reading.bytes dir.names
        else
          reading.bytes = [] ∧
            (dirReclen first.dName.bytes : ℤ) ≤ call.count ∧
            call.count ≤ 2 * dirReclen first.dName.bytes ∧
            lastIno (call.linuxToSvr4InoT first.dIno) call.buf 0
              first.dName.bytes ≠ 0xffff

/-- Up to the call that returns 0 the bytes spell the first names. -/
def OldReadingInv (reading : OldReading) : Prop :=
  reading.ended ∨ ∃ names, Spells reading.bytes names ∧ names <+: dir.names

theorem spells_nil : Spells [] [] := by
  refine ⟨rfl, ?_⟩
  rw [dirRecords.eq_def []]
  rfl

/-- The bytes of one name. -/
theorem spells_putName {ino : BitVec 32} {buf : ℕ → Byte} {name : FileName}
    (hino : lastIno ino buf 0 name.bytes ≠ 0xffff) :
    Spells (putName ino buf [] name.bytes) [name.bytes] := by
  obtain ⟨hlength, hrecords⟩ := putName_first ino buf name
  constructor
  · rw [hlength, dirReclen]
    omega
  · rw [hrecords, ← List.append_nil (nameRecords _ _),
      spell_nameRecords hino name.noNul]
    rfl

theorem abiReadRight_of_meets {reading : OldReading} {call : ReadCall}
    (hinv : OldReadingInv dir reading)
    (hmeets : AbiReadMeets dir reading call) :
    AbiReadRight above fd dir reading call := by
  intro hholds
  by_cases hended : reading.ended
  · exact .inl hended
  refine .inr ?_
  obtain ⟨names, hspells, hfirst⟩ := hinv.resolve_left hended
  have hcond := (hmeets hholds).resolve_left hended
  cases hentries : dir.entries with
  | nil =>
    obtain ⟨pos, hresult⟩ :=
      abiReadDir_zero above fd call reading.pos (.inl hentries)
    have hall : dir.names = [] := by rw [OldDirectory.names, hentries]; rfl
    rw [hall, List.prefix_nil] at hfirst
    refine ⟨_, hresult, names, ?_, ?_, fun _ => ?_⟩
    · rwa [List.append_nil]
    · rw [hfirst]
      exact List.nil_prefix
    · rw [hfirst, hall]
  | cons first others =>
    simp only [hentries] at hcond
    split_ifs at hcond with hcount
    · obtain ⟨pos, hresult⟩ :=
        abiReadDir_zero above fd call reading.pos (.inr hcount)
      refine ⟨_, hresult, dir.names, ?_, List.prefix_rfl, fun _ => rfl⟩
      rwa [List.append_nil]
    · obtain ⟨hbytes, hfits, honce, hino⟩ := hcond
      refine ⟨_, abiReadDir_once above fd call reading.pos hentries hfits honce,
        [first.dName.bytes], ?_, ?_, fun hzero => ?_⟩
      · rw [hbytes, List.nil_append]
        exact spells_putName hino
      · rw [OldDirectory.names, hentries, List.map_cons]
        exact List.prefix_append [first.dName.bytes] _
      · have hreclen := dirReclen_pos first.dName.nonempty
        simp only at hzero
        omega

theorem oldReadingInv_step {reading next : OldReading} {call : ReadCall}
    (hright : AbiReadRight above fd dir reading call)
    (hstep : abiReadStep above fd dir reading call = some next) :
    OldReadingInv dir next := by
  obtain ⟨hholds, hstep⟩ := Option.ite_none_right_eq_some.1 hstep
  obtain ⟨result, hresult, rfl⟩ := Option.map_eq_some_iff.1 hstep
  by_cases hended : reading.ended
  · exact .inl (by simp [hended])
  · obtain ⟨result', hresult', names, hspells, hnames, -⟩ :=
      (hright hholds).resolve_left hended
    obtain rfl := Option.some.inj (hresult.symm.trans hresult')
    exact .inr ⟨names, by simpa [hended] using hspells, hnames⟩

end Readings

/-- Up to the call that returns 0, reading a directory loses and repeats nothing
and every call returns, in every sequence of calls that are made on an empty
directory, or with no buffer when everything has been returned, or at the start
with room for the first entry and not for more than two of its size. -/
theorem abiRead_right (above : ℕ → BitVec 32) (fd : BitVec 32)
    (dir : OldDirectory) (calls : List ReadCall)
    (hmeet : StepsMeet (abiReadStep above fd dir) (AbiReadMeets dir)
      newOldReading calls) :
    Always (abiReadStep above fd dir) (fun _ => True)
      (AbiReadRight above fd dir) newOldReading calls := by
  apply always_of_stepsMeet
    fun (reading : OldReading) (_ : OldReadingInv dir reading) => trivial
  · intro reading call next hinv hmeets hstep
    exact oldReadingInv_step above fd dir
      (abiReadRight_of_meets above fd dir hinv hmeets) hstep
  · exact fun reading call => abiReadRight_of_meets above fd dir
  · exact .inr ⟨[], spells_nil, List.nil_prefix⟩
  · exact hmeet

/-- A directory with two entries. -/
def twoEntries : OldDirectory where
  entries :=
    [⟨2, ⟨[0x2e], by decide, by decide, by decide⟩⟩,
      ⟨2, ⟨[0x2e, 0x2e], by decide, by decide, by decide⟩⟩]
  nodup := by decide

/-- A zeroed buffer of the given size. -/
def zeroedCall (count : ℤ) : ReadCall := ⟨count, fun _ => 0, id⟩

theorem abiRead_right_one_record :
    Always (abiReadStep (fun _ => 0) 3 twoEntries) (fun _ => True)
      (AbiReadRight (fun _ => 0) 3 twoEntries) newOldReading
      [zeroedCall 16] := by
  refine abiRead_right _ _ _ _ ⟨fun _ => .inr ?_, fun next _ => trivial⟩
  exact ⟨rfl, by decide, by decide, by decide⟩

/-- A buffer for four records is filled with three copies of `.`. -/
theorem abiRead_repeats_first :
    ¬ Always (abiReadStep (fun _ => 0) 3 twoEntries) (fun _ => True)
      (AbiReadRight (fun _ => 0) 3 twoEntries) newOldReading
      [zeroedCall 64] := by
  rintro ⟨-, hright, -⟩
  have hresult : abiReadDir (fun _ => 0) 3 twoEntries (zeroedCall 64) 0 =
      some ⟨1, 48,
        (List.replicate 3 (2 :: 0 :: 0x2e :: List.replicate 13 0)).flatten⟩ := by
    simp [abiReadDir, abiReadDirLoop, fileGetFPos_eq, putName, twoEntries,
      zeroedCall, dirReclen]
  obtain hended | ⟨result, hresult', names, ⟨-, hspells⟩, hnames, -⟩ :=
    hright (by decide)
  · cases hended
  · obtain rfl := Option.some.inj (hresult.symm.trans hresult')
    have hthree : spell [] (dirRecords (newOldReading.bytes ++
        (List.replicate 3 (2 :: 0 :: 0x2e :: List.replicate 13 0)).flatten)) =
        some [[0x2e], [0x2e], [0x2e]] := by
      simp [newOldReading, dirRecords, spell]
    obtain rfl := Option.some.inj (hthree.symm.trans hspells)
    exact absurd hnames (by decide)

end IbcsUs.Syscalls
