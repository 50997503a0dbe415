import IbcsUs.Files.Devices

/-!
# Setting and reading times

For programs with `ABI_Y2K_BUG` the 29th of February 2000 does not exist: times
behind it are moved by a day on their way in and back on their way out.  The calls
that set the clock or the times of a file, and those that read them, each move what
they pass on, or do not.
-/

namespace IbcsUs.Times

abbrev Word := BitVec 32

/-! ## The day that is moved -/

def svr4Y2kShift : Word := 24 * 60 * 60

def svr4Y2kFeb29 : Word := 11015 * 24 * 60 * 60

/-- `svr4_y2k_send`; `bug` is the flag of the personality. -/
def svr4Y2kSend (bug : Bool) (secs : Word) : Word :=
  if bug = true ∧ svr4Y2kFeb29.slt secs = true then secs - svr4Y2kShift else secs

/-- `svr4_y2k_recv`. -/
def svr4Y2kRecv (bug : Bool) (secs : Word) : Word :=
  if bug = true ∧ (svr4Y2kFeb29 - svr4Y2kShift).slt secs = true then
    secs + svr4Y2kShift
  else secs

/-! ## The kernel -/

/-- An error as a result. -/
structure Errno where
  result : ℤ
  negative : result < 0

def enoent : Errno := ⟨-2, by decide⟩

def efault : Errno := ⟨-14, by decide⟩

def einval : Errno := ⟨-22, by decide⟩

def eoverflow : Errno := ⟨-75, by decide⟩

/-- The access and modification times of a file. -/
structure FileTimes where
  actime : Word
  modtime : Word
  deriving DecidableEq

/-- The words of memory that can be read and written, what names stand for, the
times of the files, and the seconds of the clock. -/
structure World where
  memory : Word → Option Word
  files : List Char → Option ℕ
  times : ℕ → FileTimes
  clock : Word

/-- What does not change: the strings in memory, the loaded map, the sizes of the
files, and what the kernel refuses. -/
structure Setting where
  strings : Word → List Char
  filemapMap : List Char → List Char
  size : ℕ → ℤ
  refusesUtime : List Char → Option Errno
  refusesClock : Word → Option Errno

def World.store (world : World) (address value : Word) : World :=
  { world with memory := Function.update world.memory address (some value) }

/-- The `struct utimbuf` at an address. -/
def World.utimbuf (world : World) (address : Word) : Option FileTimes :=
  match world.memory address, world.memory (address + 4) with
  | some actime, some modtime => some ⟨actime, modtime⟩
  | _, _ => none

variable (setting : Setting) (bug : Bool)

/-- `utime`: a null pointer stands for the current time. -/
def utime (name : List Char) (times : Word) (world : World) :
    ℤ × World :=
  match world.files name, setting.refusesUtime name with
  | none, _ => (enoent.result, world)
  | some _, some errno => (errno.result, world)
  | some file, none =>
      if times = 0 then
        (0, { world with times :=
          Function.update world.times file ⟨world.clock, world.clock⟩ })
      else
        match world.utimbuf times with
        | none => (efault.result, world)
        | some given =>
            (0, { world with times := Function.update world.times file given })

/-- `settimeofday` with the seconds `secs`. -/
def settimeofday (secs : Word) (world : World) : ℤ × World :=
  match setting.refusesClock secs with
  | some errno => (errno.result, world)
  | none => (0, { world with clock := secs })

/-- `stime`, which takes the address of a time. -/
def stime (tptr : Word) (world : World) : ℤ × World :=
  match world.memory tptr with
  | none => (efault.result, world)
  | some secs => settimeofday setting secs world

/-! ## The calls that set

`none` is a fault. -/

def abiStime (time : Word) (world : World) : Option (ℤ × World) :=
  some (settimeofday setting (svr4Y2kRecv bug time) world)

/-- `svr4_sysi86(STIME, arg1)`. -/
def sysi86Stime (arg1 : Word) (world : World) : Option (ℤ × World) :=
  some (stime setting arg1 world)

def abiSettime (tv : Word) (world : World) : Option (ℤ × World) := do
  let t ← world.memory tv
  let moved := world.store tv (svr4Y2kRecv bug t)
  let secs ← moved.memory tv
  let (err, world) := settimeofday setting secs moved
  return (err, world.store tv t)

/-- The calls are given the caller's own name: `utime` has no handler that would map
it. -/
def abiUtime (filename times : Word) (world : World) : Option (ℤ × World) := do
  let act ← world.memory times
  let world := world.store times (svr4Y2kRecv bug act)
  let mod ← world.memory (times + 4)
  let world := world.store (times + 4) (svr4Y2kRecv bug mod)
  let (err, world) := utime setting (setting.strings filename) times world
  return (err, (world.store times act).store (times + 4) mod)

/-! ## The calls that read -/

def abiTime (world : World) : Word := svr4Y2kSend bug world.clock

/-- The seconds that `gettimeofday` stores are moved where they stand. -/
def abiGettime (tv : Word) (world : World) : Option World := do
  let _ ← world.memory tv
  let world := world.store tv world.clock
  let t ← world.memory tv
  return world.store tv (svr4Y2kSend bug t)

def xnxFtime (tp : Word) (world : World) : Option World := do
  let _ ← world.memory tp
  return world.store tp (svr4Y2kSend bug world.clock)

/-- `struct kstat`, as far as it is read here. -/
structure Kstat where
  size : ℤ
  times : FileTimes
  deriving DecidableEq

def vfsStat (filename : Word) (world : World) : Except Errno Kstat :=
  match world.files (setting.filemapMap (setting.strings filename)) with
  | none => .error enoent
  | some file => .ok ⟨setting.size file, world.times file⟩

def sendTimes (times : FileTimes) : FileTimes :=
  ⟨svr4Y2kSend bug times.actime, svr4Y2kSend bug times.modtime⟩

/-- `report_svr4_stat`, `report_svr4_xstat` and `report_sco_xstat`. -/
def reportStat (stp : Kstat) : Except Errno FileTimes :=
  if stp.size > Devices.maxNonLfs then .error eoverflow
  else .ok (sendTimes bug stp.times)

/-- `report_uw7_stat64`. -/
def reportUw7Stat64 (stp : Kstat) : Except Errno FileTimes :=
  .ok (sendTimes bug stp.times)

/-- The calls; the last three take the version of the structure. -/
inductive Reader where
  | svr4Stat
  | svr4Xstat (vers : ℤ)
  | scoXstat (vers : ℤ)
  | uw7Xstat (vers : ℤ)
  deriving DecidableEq

/-- What a call reports of a file. -/
def Reader.report (reader : Reader) (stp : Kstat) : Except Errno FileTimes :=
  match reader with
  | .svr4Stat => reportStat bug stp
  | .svr4Xstat vers =>
      if vers = 1 ∨ vers = 2 then reportStat bug stp else .error einval
  | .scoXstat vers =>
      if vers = 1 ∨ vers = 51 then reportStat bug stp else .error einval
  | .uw7Xstat vers =>
      if vers = 1 ∨ vers = 2 then reportStat bug stp
      else if vers = 4 then reportUw7Stat64 bug stp
      else .error einval

def readTimes (reader : Reader) (filename : Word) (world : World) :
    Except Errno FileTimes :=
  (vfsStat setting filename world).bind (reader.report bug)

/-! ## What should be read -/

/-- A version that the call knows. -/
def Reader.known : Reader → Bool
  | .svr4Stat => true
  | .svr4Xstat vers => vers = 1 ∨ vers = 2
  | .scoXstat vers => vers = 1 ∨ vers = 51
  | .uw7Xstat vers => vers = 1 ∨ vers = 2 ∨ vers = 4

/-- The structure has room for sizes of 64 bits. -/
def Reader.large : Reader → Bool
  | .uw7Xstat vers => vers = 4
  | _ => false

/-- Every call reports the times; one that does not know its version, or cannot
report the size of the file, refuses. -/
def ReportsTimes (filename : Word) (given : FileTimes) (world : World) : Prop :=
  ∃ stp, vfsStat setting filename world = .ok stp ∧
    ∀ reader : Reader,
      readTimes setting bug reader filename world =
        if reader.known = false then .error einval
        else if stp.size > Devices.maxNonLfs ∧ reader.large = false then
          .error eoverflow
        else .ok given

/-- When the times of a file have been set they are reported, and memory is as it
was; a null pointer is handed to the kernel. -/
def UtimeRight (filename times : Word) (world : World) : Prop :=
  if times = 0 then
    abiUtime setting bug filename 0 world =
      some (utime setting (setting.strings filename) 0 world)
  else
    ∀ set, abiUtime setting bug filename times world = some (0, set) →
      set.memory = world.memory ∧
        ∀ given, world.utimbuf times = some given →
          ReportsTimes setting bug filename given set

inductive Setter where
  | abiStime (time : Word)
  | sysi86Stime (time : Word)
  | abiSettime (tv : Word)
  deriving DecidableEq

def Setter.run (setter : Setter) (world : World) : Option (ℤ × World) :=
  match setter with
  | .abiStime time => Times.abiStime setting bug time world
  | .sysi86Stime time => Times.sysi86Stime setting time world
  | .abiSettime tv => Times.abiSettime setting bug tv world

/-- The time the program gives. -/
def Setter.time (setter : Setter) (world : World) : Option Word :=
  match setter with
  | .abiStime time | .sysi86Stime time => some time
  | .abiSettime tv => world.memory tv

/-- Each call that reads the clock reports a time. -/
def ReportsClock (t : Word) (world : World) : Prop :=
  abiTime bug world = t ∧
    ∀ pointer, world.memory pointer ≠ none →
      (∃ read, abiGettime bug pointer world = some read ∧
        read.memory pointer = some t) ∧
      ∃ read, xnxFtime bug pointer world = some read ∧
        read.memory pointer = some t

/-- When the clock has been set, and does not advance, the time is reported. -/
def ClockRight (setter : Setter) (world : World) : Prop :=
  ∀ set, setter.run setting bug world = some (0, set) →
    ∀ t, setter.time world = some t → ReportsClock bug t set

/-! ## When it is -/

/-- The time can be moved by a day. -/
def Fits (t : Word) : Prop := bug = true → t.toInt < 2 ^ 31 - 24 * 60 * 60

/-- The mapped name is the file whose times are set, and these can be moved, or it
is one that has the times already; two words at address 0 can be written when the
pointer is null. -/
def UtimeMeets (filename times : Word) (world : World) : Prop :=
  if times = 0 then world.memory 0 ≠ none ∧ world.memory 4 ≠ none
  else
    ∀ given file, world.utimbuf times = some given →
      world.files (setting.strings filename) = some file →
      setting.refusesUtime (setting.strings filename) = none →
      ∃ shown,
        world.files (setting.filemapMap (setting.strings filename)) =
            some shown ∧
          if shown = file then Fits bug given.actime ∧ Fits bug given.modtime
          else sendTimes bug (world.times shown) = given

/-- The time that reaches the kernel can be moved; `STIME` must find at the address
that the time is, a word that stands for that same number. -/
def ClockMeets (setter : Setter) (world : World) : Prop :=
  match setter with
  | .abiStime time =>
      setting.refusesClock (svr4Y2kRecv bug time) = none → Fits bug time
  | .sysi86Stime time =>
      ∀ secs, world.memory time = some secs → setting.refusesClock secs = none →
        svr4Y2kSend bug secs = time
  | .abiSettime tv =>
      ∀ t, world.memory tv = some t →
        setting.refusesClock (svr4Y2kRecv bug t) = none → Fits bug t

/-! ## Moving there and back -/

/-- `svr4_y2k_send` of a word is that of the number it stands for. -/
theorem toInt_svr4Y2kSend (bug : Bool) (secs : Word) :
    (svr4Y2kSend bug secs).toInt = Devices.svr4Y2kSend bug secs.toInt := by
  have hslt : svr4Y2kFeb29.slt secs = true ↔ Devices.svr4Y2kFeb29 < secs.toInt := by
    rw [BitVec.slt_iff_toInt_lt]
    rfl
  have hshift : svr4Y2kShift.toInt = Devices.svr4Y2kShift := rfl
  rw [svr4Y2kSend, Devices.svr4Y2kSend]
  cases bug with
  | false => rfl
  | true =>
      rw [Bool.true_and]
      by_cases hlate : Devices.svr4Y2kFeb29 < secs.toInt
      · have hlt := secs.toInt_lt
        rw [if_pos ⟨rfl, hslt.2 hlate⟩, if_pos (decide_eq_true hlate),
          BitVec.toInt_sub, hshift]
        rw [Devices.svr4Y2kFeb29] at hlate
        rw [Devices.svr4Y2kShift]
        apply Int.bmod_eq_of_le
        · omega
        · omega
      · rw [if_neg fun hboth => hlate (hslt.1 hboth.2)]
        exact (if_neg fun hdecide => hlate (of_decide_eq_true hdecide)).symm

/-- A signed comparison with a small number. -/
theorem slt_iff {left right : Word} (hleft : left.toNat < 2 ^ 31) :
    left.slt right = true ↔ left.toNat < right.toNat ∧ right.toNat < 2 ^ 31 := by
  have hright := right.isLt
  rw [BitVec.slt_iff_toInt_lt, BitVec.toInt_eq_toNat_cond,
    BitVec.toInt_eq_toNat_cond]
  split_ifs <;> omega

theorem toNat_feb29 : svr4Y2kFeb29.toNat = 951696000 := rfl

theorem toNat_feb28 : (svr4Y2kFeb29 - svr4Y2kShift).toNat = 951609600 := rfl

theorem toNat_shift : svr4Y2kShift.toNat = 86400 := rfl

/-- The two shifts are inverse except on the last day that a time can have. -/
theorem send_recv_iff (t : Word) :
    svr4Y2kSend bug (svr4Y2kRecv bug t) = t ↔ Fits bug t := by
  have ht := t.isLt
  cases bug with
  | false => simp [svr4Y2kSend, svr4Y2kRecv, Fits]
  | true =>
      have hint : t.toInt < 2 ^ 31 - 24 * 60 * 60 ↔
          t.toNat < 2 ^ 31 - 24 * 60 * 60 ∨ 2 ^ 31 ≤ t.toNat := by
        rw [BitVec.toInt_eq_toNat_cond]
        split_ifs <;> omega
      have hfeb29 : svr4Y2kFeb29.toNat < 2 ^ 31 := by decide
      have hfeb28 : (svr4Y2kFeb29 - svr4Y2kShift).toNat < 2 ^ 31 := by decide
      simp only [svr4Y2kSend, svr4Y2kRecv, Fits, true_and, forall_const, hint,
        slt_iff hfeb29, slt_iff hfeb28, toNat_feb29, toNat_feb28]
      by_cases hlate : 951609600 < t.toNat ∧ t.toNat < 2 ^ 31
      · rw [if_pos hlate]
        have hsum : (t + svr4Y2kShift).toNat = t.toNat + 86400 := by
          rw [BitVec.toNat_add, toNat_shift]
          omega
        rw [hsum]
        split_ifs with hsent
        · rw [BitVec.add_sub_cancel]
          exact iff_of_true rfl (by omega)
        · refine iff_of_false (fun heq => ?_) (by omega)
          have hnat := congrArg BitVec.toNat heq
          omega
      · rw [if_neg hlate, if_neg (by omega)]
        exact iff_of_true rfl (by omega)

theorem sendTimes_recv_iff (actime modtime : Word) :
    sendTimes bug ⟨svr4Y2kRecv bug actime, svr4Y2kRecv bug modtime⟩ =
        ⟨actime, modtime⟩ ↔
      Fits bug actime ∧ Fits bug modtime := by
  rw [sendTimes, FileTimes.mk.injEq, send_recv_iff, send_recv_iff]

/-! ## The times of files -/

theorem Reader.report_eq (reader : Reader) (stp : Kstat) :
    reader.report bug stp =
      if reader.known = false then .error einval
      else if stp.size > Devices.maxNonLfs ∧ reader.large = false then .error eoverflow
      else .ok (sendTimes bug stp.times) := by
  cases reader with
  | svr4Stat => simp [Reader.report, Reader.known, Reader.large, reportStat]
  | svr4Xstat vers =>
      by_cases hvers : vers = 1 ∨ vers = 2 <;>
        simp [Reader.report, Reader.known, Reader.large, reportStat, hvers]
  | scoXstat vers =>
      by_cases hvers : vers = 1 ∨ vers = 51 <;>
        simp [Reader.report, Reader.known, Reader.large, reportStat, hvers]
  | uw7Xstat vers =>
      by_cases hvers : vers = 1 ∨ vers = 2
      · have hsmall : vers ≠ 4 := by omega
        simp [Reader.report, Reader.known, Reader.large, reportStat, hvers,
          hsmall]
      · by_cases hlarge : vers = 4
        · simp [Reader.report, Reader.known, Reader.large, reportUw7Stat64,
            hlarge]
        · simp [Reader.report, Reader.known, hvers, hlarge]

/-- The times reported are those of the file that the mapped name stands for. -/
theorem reportsTimes_iff (filename : Word) (given : FileTimes) (world : World) :
    ReportsTimes setting bug filename given world ↔
      ∃ shown,
        world.files (setting.filemapMap (setting.strings filename)) =
            some shown ∧
          sendTimes bug (world.times shown) = given := by
  unfold ReportsTimes readTimes vfsStat
  cases world.files (setting.filemapMap (setting.strings filename)) with
  | none => simp
  | some shown =>
      simp only [Except.ok.injEq, exists_eq_left', Option.some.injEq,
        Except.bind, Reader.report_eq]
      constructor
      · intro hreports
        have hlarge := hreports (.uw7Xstat 4)
        simpa [Reader.known, Reader.large] using hlarge
      · rintro rfl reader
        rfl

theorem utimbuf_eq_some {world : World} {times : Word} {given : FileTimes} :
    world.utimbuf times = some given ↔
      world.memory times = some given.actime ∧
        world.memory (times + 4) = some given.modtime := by
  obtain ⟨actime, modtime⟩ := given
  rw [World.utimbuf]
  cases world.memory times <;> cases world.memory (times + 4) <;> simp

theorem add_four_ne (address : Word) : address + 4 ≠ address := by
  intro heq
  bv_omega

/-- The words are put back as they were found. -/
theorem store_store {world : World} {times : Word} {given moved : FileTimes}
    (hgiven : world.utimbuf times = some given) :
    ((((world.store times moved.actime).store (times + 4) moved.modtime).store
        times given.actime).store (times + 4) given.modtime) = world := by
  obtain ⟨hact, hmod⟩ := utimbuf_eq_some.mp hgiven
  obtain ⟨memory, files, fileTimes, clock⟩ := world
  simp only [World.store, World.mk.injEq, and_true]
  funext address
  by_cases hsecond : address = times + 4
  · rw [hsecond, Function.update_self]
    exact hmod.symm
  · by_cases hfirst : address = times
    · rw [Function.update_of_ne hsecond, hfirst, Function.update_self]
      exact hact.symm
    · simp only [Function.update_of_ne hsecond, Function.update_of_ne hfirst]

def movedTimes (given : FileTimes) : FileTimes :=
  ⟨svr4Y2kRecv bug given.actime, svr4Y2kRecv bug given.modtime⟩

/-- The world while `utime` is called: the times stand moved in memory. -/
def movedWorld (times : Word) (given : FileTimes) (world : World) : World :=
  (world.store times (movedTimes bug given).actime).store (times + 4)
    (movedTimes bug given).modtime

theorem restored {world : World} {times : Word} {given : FileTimes}
    (hgiven : world.utimbuf times = some given) :
    ((movedWorld bug times given world).store times given.actime).store
      (times + 4) given.modtime = world :=
  store_store hgiven

theorem utimbuf_movedWorld (times : Word) (given : FileTimes) (world : World) :
    (movedWorld bug times given world).utimbuf times =
      some (movedTimes bug given) := by
  apply utimbuf_eq_some.mpr
  constructor
  · simp [movedWorld, World.store]
  · simp [movedWorld, World.store]

theorem abiUtime_of_utimbuf {filename times : Word} {world : World}
    {given : FileTimes} (hgiven : world.utimbuf times = some given) :
    abiUtime setting bug filename times world =
      some ((utime setting (setting.strings filename) times
          (movedWorld bug times given world)).1,
        ((utime setting (setting.strings filename) times
          (movedWorld bug times given world)).2.store times given.actime).store
            (times + 4) given.modtime) := by
  obtain ⟨hact, hmod⟩ := utimbuf_eq_some.mp hgiven
  have hthen : (world.store times (svr4Y2kRecv bug given.actime)).memory
      (times + 4) = some given.modtime := by
    simp only [World.store, Function.update_of_ne (add_four_ne times), hmod]
  simp only [abiUtime, hact, Option.bind_eq_bind, Option.bind_some, hthen]
  rfl

theorem abiUtime_of_none {filename times : Word} {world : World}
    (hnone : world.memory times = none ∨ world.memory (times + 4) = none) :
    abiUtime setting bug filename times world = none := by
  cases hact : world.memory times with
  | none => simp [abiUtime, hact]
  | some act =>
      have hmod : world.memory (times + 4) = none := by
        simpa [hact] using hnone
      have hthen : (world.store times (svr4Y2kRecv bug act)).memory
          (times + 4) = none := by
        simp only [World.store, Function.update_of_ne (add_four_ne times), hmod]
      simp only [abiUtime, hact, Option.bind_eq_bind, Option.bind_some, hthen,
        Option.bind_none]

def World.setTimes (world : World) (file : ℕ) (times : FileTimes) : World :=
  { world with times := Function.update world.times file times }

/-- What a call that succeeds with a pointer has done. -/
theorem abiUtime_eq_zero_iff {filename times : Word} {world set : World}
    (htimes : times ≠ 0) {given : FileTimes}
    (hgiven : world.utimbuf times = some given) :
    abiUtime setting bug filename times world = some (0, set) ↔
      ∃ file, world.files (setting.strings filename) = some file ∧
        setting.refusesUtime (setting.strings filename) = none ∧
        set = world.setTimes file (movedTimes bug given) := by
  have hfiles : (movedWorld bug times given world).files = world.files := rfl
  rw [abiUtime_of_utimbuf setting bug hgiven, utime, hfiles]
  cases hfile : world.files (setting.strings filename) with
  | none => simp [enoent]
  | some file =>
      cases hrefuses : setting.refusesUtime (setting.strings filename) with
      | some errno =>
          have hne : errno.result ≠ 0 := errno.negative.ne
          simp [hne]
      | none =>
          have hback := congrArg (World.setTimes · file (movedTimes bug given))
            (restored bug hgiven)
          simp only [if_neg htimes, utimbuf_movedWorld, Option.some.injEq,
            Prod.mk.injEq, true_and, exists_eq_left']
          rw [eq_comm]
          exact Eq.congr_right hback

/-- A null pointer reaches the kernel. -/
theorem abiUtime_null {filename : Word} {world : World} {given : FileTimes}
    (hgiven : world.utimbuf 0 = some given) :
    abiUtime setting bug filename 0 world =
      some (utime setting (setting.strings filename) 0 world) := by
  have hfiles : (movedWorld bug 0 given world).files = world.files := rfl
  have hback := restored bug hgiven
  rw [abiUtime_of_utimbuf setting bug hgiven, utime, utime, hfiles]
  cases world.files (setting.strings filename) with
  | none => rw [hback]
  | some file =>
      cases setting.refusesUtime (setting.strings filename) with
      | some errno => rw [hback]
      | none =>
          simp only [if_true]
          exact congrArg (fun world => some ((0 : ℤ), world.setTimes file
            ⟨world.clock, world.clock⟩)) hback

/-- What is reported once the times of a file have been set. -/
theorem reportsTimes_setTimes_iff (filename : Word) (given : FileTimes)
    (world : World) (file : ℕ) :
    ReportsTimes setting bug filename given
        (world.setTimes file (movedTimes bug given)) ↔
      ∃ shown,
        world.files (setting.filemapMap (setting.strings filename)) =
            some shown ∧
          if shown = file then Fits bug given.actime ∧ Fits bug given.modtime
          else sendTimes bug (world.times shown) = given := by
  rw [reportsTimes_iff]
  apply exists_congr
  intro shown
  apply and_congr Iff.rfl
  split_ifs with hshown
  · have hnew : (world.setTimes file (movedTimes bug given)).times shown =
        movedTimes bug given := by
      rw [hshown]
      exact Function.update_self ..
    rw [hnew]
    exact sendTimes_recv_iff bug given.actime given.modtime
  · have hold : (world.setTimes file (movedTimes bug given)).times shown =
        world.times shown := Function.update_of_ne hshown ..
    rw [hold]

theorem utimeRight_iff (filename times : Word) (world : World) :
    UtimeRight setting bug filename times world ↔
      UtimeMeets setting bug filename times world := by
  rw [UtimeRight, UtimeMeets]
  split_ifs with htimes
  · by_cases hmapped : world.memory 0 ≠ none ∧ world.memory 4 ≠ none
    · obtain ⟨act, hact⟩ := Option.ne_none_iff_exists'.mp hmapped.1
      obtain ⟨mod, hmod⟩ := Option.ne_none_iff_exists'.mp hmapped.2
      have hgiven : world.utimbuf 0 = some ⟨act, mod⟩ :=
        utimbuf_eq_some.mpr ⟨hact, hmod⟩
      exact iff_of_true (abiUtime_null setting bug hgiven) hmapped
    · refine iff_of_false ?_ hmapped
      have hnone : world.memory 0 = none ∨ world.memory (0 + 4) = none := by
        by_contra hboth
        exact hmapped (not_or.mp hboth)
      rw [abiUtime_of_none setting bug hnone]
      exact nofun
  · constructor
    · intro hright given file hgiven hfile hrefuses
      obtain ⟨-, hreports⟩ := hright _ ((abiUtime_eq_zero_iff setting bug htimes
        hgiven).mpr ⟨file, hfile, hrefuses, rfl⟩)
      exact (reportsTimes_setTimes_iff setting bug filename given world file).mp
        (hreports given hgiven)
    · intro hmeets set hset
      have hsome : ∃ given, world.utimbuf times = some given := by
        apply Option.ne_none_iff_exists'.mp
        intro hnone
        have hword : world.memory times = none ∨
            world.memory (times + 4) = none := by
          rw [World.utimbuf] at hnone
          split at hnone
          · cases hnone
          · rename_i hwords
            by_contra hboth
            simp only [not_or] at hboth
            obtain ⟨act, hact⟩ := Option.ne_none_iff_exists'.mp hboth.1
            obtain ⟨mod, hmod⟩ := Option.ne_none_iff_exists'.mp hboth.2
            exact hwords act mod hact hmod
        rw [abiUtime_of_none setting bug hword] at hset
        cases hset
      obtain ⟨given, hgiven⟩ := hsome
      obtain ⟨file, hfile, hrefuses, rfl⟩ :=
        (abiUtime_eq_zero_iff setting bug htimes hgiven).mp hset
      refine ⟨rfl, fun other hother => ?_⟩
      rw [hgiven, Option.some.injEq] at hother
      subst hother
      exact (reportsTimes_setTimes_iff setting bug filename given world file).mpr
        (hmeets given file hgiven hfile hrefuses)

/-! ## The clock -/

/-- All calls report the seconds of the clock, moved back. -/
theorem reportsClock_iff (t : Word) (world : World) :
    ReportsClock bug t world ↔ svr4Y2kSend bug world.clock = t := by
  constructor
  · exact fun hreports => hreports.1
  · rintro rfl
    refine ⟨rfl, fun pointer hpointer => ?_⟩
    obtain ⟨word, hword⟩ := Option.ne_none_iff_exists'.mp hpointer
    constructor
    · simp [abiGettime, hword, World.store]
    · simp [xnxFtime, hword, World.store]

theorem settimeofday_eq_zero_iff (secs : Word) (world set : World) :
    settimeofday setting secs world = (0, set) ↔
      setting.refusesClock secs = none ∧ set = { world with clock := secs } := by
  rw [settimeofday]
  cases setting.refusesClock secs with
  | none => simp [eq_comm]
  | some errno =>
      have hne : errno.result ≠ 0 := errno.negative.ne
      simp [hne]

theorem clockRight_iff (setter : Setter) (world : World) :
    ClockRight setting bug setter world ↔ ClockMeets setting bug setter world := by
  cases setter with
  | abiStime time =>
      simp only [ClockRight, ClockMeets, Setter.run, Setter.time, abiStime,
        Option.some.injEq, settimeofday_eq_zero_iff, forall_eq', reportsClock_iff]
      constructor
      · intro hright hrefuses
        exact (send_recv_iff bug time).mp (hright _ ⟨hrefuses, rfl⟩)
      · rintro hmeets set ⟨hrefuses, rfl⟩
        exact (send_recv_iff bug time).mpr (hmeets hrefuses)
  | sysi86Stime time =>
      simp only [ClockRight, ClockMeets, Setter.run, Setter.time, sysi86Stime,
        Option.some.injEq, forall_eq', reportsClock_iff, stime]
      cases hword : world.memory time with
      | none => simp [efault]
      | some secs =>
          simp only [settimeofday_eq_zero_iff, Option.some.injEq, forall_eq']
          constructor
          · exact fun hright hrefuses => hright _ ⟨hrefuses, rfl⟩
          · rintro hmeets set ⟨hrefuses, rfl⟩
            exact hmeets hrefuses
  | abiSettime tv =>
      simp only [ClockRight, ClockMeets, Setter.run, Setter.time, abiSettime,
        reportsClock_iff]
      cases hword : world.memory tv with
      | none => simp
      | some t =>
          have hmoved : (world.store tv (svr4Y2kRecv bug t)).memory tv =
              some (svr4Y2kRecv bug t) := Function.update_self ..
          simp only [Option.bind_eq_bind, Option.bind_some, hmoved,
            Option.pure_def, Option.some.injEq, forall_eq', Prod.mk.injEq]
          constructor
          · intro hright hrefuses
            have hset := (settimeofday_eq_zero_iff setting (svr4Y2kRecv bug t)
              (world.store tv (svr4Y2kRecv bug t)) _).mpr ⟨hrefuses, rfl⟩
            rw [hset] at hright
            exact (send_recv_iff bug t).mp (hright _ ⟨rfl, rfl⟩)
          · rintro hmeets set ⟨hzero, rfl⟩
            have hset := (settimeofday_eq_zero_iff setting (svr4Y2kRecv bug t)
              (world.store tv (svr4Y2kRecv bug t)) _).mp (Prod.ext hzero rfl)
            have hclock := congrArg World.clock hset.2
            exact (congrArg (svr4Y2kSend bug) hclock).trans
              ((send_recv_iff bug t).mpr (hmeets hset.1))

/-- The times of a file are reported as they were set exactly when they can be moved
by a day, unless the mapped name is another file; a null pointer reaches the kernel
exactly where memory at 0 can be written; and the time of the clock is reported
exactly when it can be moved, or, for `STIME`, when it stands at the address that it
is. -/
theorem times_right_iff :
    (∀ filename times world,
      UtimeRight setting bug filename times world ↔
        UtimeMeets setting bug filename times world) ∧
      ∀ setter world,
        ClockRight setting bug setter world ↔ ClockMeets setting bug setter world :=
  ⟨utimeRight_iff setting bug, clockRight_iff setting bug⟩

/-- One file, and nothing is refused. -/
def plain : Setting :=
  ⟨fun _ => [], id, fun _ => 0, fun _ => none, fun _ => none⟩

/-- A last day of time stands at 8, the pointer of `STIME` can be read, and page 0
cannot. -/
def oneFile : World where
  memory := fun address => if address = 0 ∨ address = 4 then none else some 0x7fffffff
  files := fun _ => some 0
  times := fun _ => ⟨0, 0⟩
  clock := 0

/-- The last time there is comes back as one of 1901 with `ABI_Y2K_BUG`, `STIME` sets
another time than it is given, and `utime` with a null pointer faults. -/
theorem times_wrong :
    ¬ UtimeRight plain true 0 8 oneFile ∧
      ¬ ClockRight plain false (.sysi86Stime 1000000000) oneFile ∧
      abiUtime plain false 0 0 oneFile = none := by
  refine ⟨fun hright => ?_, fun hright => ?_, rfl⟩
  · obtain ⟨-, hreports⟩ := hright _ rfl
    obtain ⟨stp, hstp, hread⟩ := hreports ⟨0x7fffffff, 0x7fffffff⟩ rfl
    obtain rfl := Except.ok.inj hstp
    have htimes := congrArg FileTimes.actime (Except.ok.inj (hread .svr4Stat))
    exact absurd htimes (by decide)
  · have hclock := (hright _ rfl 1000000000 rfl).1
    exact absurd hclock (by decide)

end IbcsUs.Times
