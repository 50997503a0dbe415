import IbcsUs.Signals.Tables

/-!
# Wait statuses

Three functions hand the status of Linux's `wait4` on to the emulated program:
`abi_wait`, `svr4_waitid` and `wyse_wait3`.  Two of them look Linux's signal
number up in the table for the emulated system's numbers, and the third looks
for the signal that killed a process where only the one that stopped it is.
-/

namespace IbcsUs.Signals

/-- What can have happened to a process that is waited for. -/
inductive WaitEvent where
  | exited (code : Fin 256)
  | killed (signal : Signal) (core : Bool)
  | stopped (signal : Signal)
  deriving DecidableEq

/-- The status of an event, with the signal number of the system that reports
it. -/
def exitStatus (code : Fin 256) : BitVec 32 := BitVec.ofNat 32 code <<< 8

def killedStatus (number : BitVec 32) (core : Bool) : BitVec 32 :=
  number ||| if core then 0x80 else 0

def stoppedStatus (number : BitVec 32) : BitVec 32 := number <<< 8 ||| 0x7f

/-- The status Linux's `wait4` delivers. -/
def WaitEvent.status : WaitEvent → BitVec 32
  | .exited code => exitStatus code
  | .killed signal core => killedStatus signal.word core
  | .stopped signal => stoppedStatus signal.word

variable (personality : Personality)

/-- An entry of `signal_map`, `none` when the table is read out of range. -/
def mapEntry (index : BitVec 32) : Option (BitVec 32) :=
  personality.signalMap[index.toNat]?

/-- An entry of `signal_invmap`. -/
def invmapEntry (index : BitVec 32) : Option (BitVec 32) :=
  personality.signalInvmap[index.toNat]?

/-- `abi_wait`: the status that the program finds in `edx` and at `loc`.  With
the personality word `PER_XENIX` it is left as it is. -/
def abiWait (perXenix : Bool) (status : BitVec 32) : Option (BitVec 32) :=
  if perXenix then some status
  else if status &&& 0xff = 0x7f then
    let sig := (status >>> 8) &&& 0xff
    (if sig.toNat < nsignals then mapEntry personality sig
      else some sig).map fun sig : BitVec 32 =>
        status &&& ~~~(0xff00 : BitVec 32) ||| sig <<< (8 : ℕ)
  else if status ≠ 0 ∧ status = status &&& 0xff then
    if (status &&& 0x7f).toNat < nsignals then
      mapEntry personality (status &&& 0x7f)
    else some status
  else some status

/-- The fields of `struct svr4_siginfo` that `svr4_waitid` fills in from the
status. -/
structure SigInfo where
  siSigno : BitVec 32
  siCode : BitVec 32
  siStatus : BitVec 32
  deriving DecidableEq

def svr4CldExited : BitVec 32 := 1
def svr4CldKilled : BitVec 32 := 2
def svr4CldDumped : BitVec 32 := 3
def svr4CldStopped : BitVec 32 := 5
def svr4CldContinued : BitVec 32 := 6

def sigchld : BitVec 32 := 17
def sigstop : BitVec 32 := 19
def sigtstp : BitVec 32 := 20

/-- `svr4_waitid`. -/
def svr4Waitid (status : BitVec 32) : Option SigInfo := do
  let signo ← mapEntry personality sigchld
  if status &&& 0xff = 0 then
    some ⟨signo, svr4CldExited, status.sshiftRight 8⟩
  else if status &&& 0xff = 0x7f then
    let st := (status &&& 0xff00) >>> 8
    let op := if st = sigstop ∨ st = sigtstp then svr4CldStopped
      else svr4CldContinued
    let st ← invmapEntry personality st
    some ⟨signo, op, st⟩
  else
    let st := (status &&& 0xff00) >>> 8
    let op := if status &&& 0o200 ≠ 0 then svr4CldDumped else svr4CldKilled
    let st ← invmapEntry personality st
    some ⟨signo, op, st⟩

/-- `wyse_wait3`. -/
def wyseWait3 (res : BitVec 32) : Option (BitVec 32) :=
  if res &&& 0xff = 0x7f then
    let sig := (res >>> 8) &&& 0xff
    (mapEntry personality sig).map fun sig : BitVec 32 =>
      res &&& ~~~(0xff00 : BitVec 32) ||| sig <<< (8 : ℕ)
  else if res ≠ 0 ∧ res = res &&& 0xff then
    mapEntry personality (res &&& 0x7f)
  else some res

/-! ## What the program is told -/

/-- The calls a program can wait with. -/
inductive WaitCall where
  | abiWait (perXenix : Bool)
  | svr4Waitid
  | wyseWait3
  deriving DecidableEq

/-- The status denotes the event in the numbers of the emulated system. -/
def StatusDenotes (received : BitVec 32) : WaitEvent → Prop
  | .exited code => received = exitStatus code
  | .killed signal core => ∃ number, personality.number signal = some number ∧
      received = killedStatus number core
  | .stopped signal => ∃ number, personality.number signal = some number ∧
      received = stoppedStatus number

/-- The `siginfo` denotes the event. -/
def InfoDenotes (received : SigInfo) : WaitEvent → Prop
  | .exited code => received.siCode = svr4CldExited ∧
      received.siStatus = BitVec.ofNat 32 code
  | .killed signal core =>
      received.siCode = (if core then svr4CldDumped else svr4CldKilled) ∧
        personality.number signal = some received.siStatus
  | .stopped signal => received.siCode = svr4CldStopped ∧
      personality.number signal = some received.siStatus

/-- No table is read out of range, and what the program receives denotes what
has happened. -/
def WaitRight (call : WaitCall) (event : WaitEvent) : Prop :=
  match call with
  | .abiWait perXenix => ∃ received,
      abiWait personality perXenix event.status = some received ∧
        StatusDenotes personality received event
  | .svr4Waitid => ∃ received,
      svr4Waitid personality event.status = some received ∧
        InfoDenotes personality received event
  | .wyseWait3 => ∃ received,
      wyseWait3 personality event.status = some received ∧
        StatusDenotes personality received event

/-- The two tables of the personality take the signal to the same number. -/
def TablesAgree (signal : Signal) : Prop :=
  ∃ number, personality.number signal = some number ∧
    mapEntry personality signal.word = some number

/-- The emulated system has the same number for the signal as Linux. -/
def SameNumber (signal : Signal) : Prop :=
  personality.number signal = some signal.word

/-- The events that a call reports as they are. -/
def WaitMeets : WaitCall → WaitEvent → Prop
  | _, .exited _ => True
  | .abiWait true, .killed signal _ => SameNumber personality signal
  | .abiWait true, .stopped signal => SameNumber personality signal
  | .abiWait false, .killed signal core =>
      core = false ∧ TablesAgree personality signal
  | .abiWait false, .stopped signal => TablesAgree personality signal
  | .svr4Waitid, .killed _ _ => False
  | .svr4Waitid, .stopped signal =>
      signal.word = sigstop ∨ signal.word = sigtstp
  | .wyseWait3, .killed signal core =>
      core = false ∧ TablesAgree personality signal
  | .wyseWait3, .stopped signal => TablesAgree personality signal

variable {personality : Personality} {signal : Signal} {number : BitVec 32}
  {core : Bool}

/-! ## Words and tables -/

/-- A number of the emulated system is a signal number. -/
theorem number_bounds (hnumber : personality.number signal = some number) :
    0 < number.toNat ∧ number.toNat < 127 := by
  rw [Personality.number, Option.filter_eq_some_iff, decide_eq_true_eq]
    at hnumber
  obtain ⟨-, hpos, hlt⟩ := hnumber
  exact ⟨hpos, hlt⟩

theorem number_cases (hnumber : personality.number signal = some number) :
    ∃ n : Fin 127, number = BitVec.ofNat 32 n :=
  ⟨⟨number.toNat, (number_bounds hnumber).2⟩, by simp⟩

/-- An entry of `signal_map` is a signal number or -1. -/
theorem mapEntry_cases {index entry : BitVec 32}
    (hentry : mapEntry personality index = some entry) :
    (∃ n : Fin 128, entry = BitVec.ofNat 32 n) ∨ entry = -1 := by
  -- A `∀` over words would be decided by running through all of them.
  have hall : personality.signalMap.all fun entry =>
      entry.toNat < 128 ∨ entry = -1 := by
    cases personality <;> decide
  have hmem := List.mem_of_getElem? hentry
  obtain hlt | hnone := of_decide_eq_true (List.all_eq_true.1 hall entry hmem)
  · exact .inl ⟨⟨entry.toNat, hlt⟩, by simp⟩
  · exact .inr hnone

/-- From 32 on no signal has a number in the emulated system. -/
theorem number_eq_none (hhigh : 32 ≤ signal.number.val) :
    personality.number signal = none := by
  obtain heq | hlt := Nat.eq_or_lt_of_le hhigh
  · have hlast : personality.signalInvmap[32]? = some (-1 : BitVec 32) := by
      cases personality <;> decide
    rw [Personality.number, ← heq, hlast]
    decide
  · have hlen : personality.signalInvmap.length ≤ signal.number.val := by
      rw [signalInvmap_length]
      exact hlt
    rw [Personality.number, List.getElem?_eq_none hlen, Option.filter_none]

theorem word_toNat (signal : Signal) :
    signal.word.toNat = signal.number.val := by
  have hlt := signal.number.isLt
  rw [Signal.word, BitVec.toNat_ofNat, Nat.mod_eq_of_lt (by omega)]

theorem word_lt (signal : Signal) : signal.word.toNat < 127 := by
  rw [word_toNat]
  omega

/-- The status determines the number of the signal. -/
theorem killedStatus_injective {a b : BitVec 32} {core : Bool}
    (heq : killedStatus a core = killedStatus b core) (ha : a.toNat < 127)
    (hb : b.toNat < 127) : a = b := by
  have hlow : ∀ n : Fin 127, ∀ core,
      killedStatus (BitVec.ofNat 32 n) core &&& 0x7f = BitVec.ofNat 32 n := by
    decide
  have ha' := hlow ⟨a.toNat, ha⟩ core
  have hb' := hlow ⟨b.toNat, hb⟩ core
  simp only [BitVec.ofNat_toNat, BitVec.setWidth_eq] at ha' hb'
  rw [← ha', heq, hb']

theorem stoppedStatus_injective {a b : BitVec 32}
    (heq : stoppedStatus a = stoppedStatus b) (ha : a.toNat < 127)
    (hb : b.toNat < 127) : a = b := by
  have hhigh : ∀ n : Fin 127,
      stoppedStatus (BitVec.ofNat 32 n) >>> 8 = BitVec.ofNat 32 n := by
    decide
  have ha' := hhigh ⟨a.toNat, ha⟩
  have hb' := hhigh ⟨b.toNat, hb⟩
  simp only [BitVec.ofNat_toNat, BitVec.setWidth_eq] at ha' hb'
  rw [← ha', heq, hb']

/-- The bits of a status of a killed process. -/
theorem killedStatus_bits (signal : Signal) (core : Bool) :
    killedStatus signal.word core &&& 0xff ≠ 0 ∧
      killedStatus signal.word core &&& 0xff ≠ 0x7f ∧
      killedStatus signal.word core ≠ 0 ∧
      killedStatus signal.word core = killedStatus signal.word core &&& 0xff ∧
      killedStatus signal.word core &&& 0x7f = signal.word ∧
      (killedStatus signal.word core &&& 0xff00) >>> 8 = 0 ∧
      (killedStatus signal.word core &&& 0o200 ≠ 0 ↔ core = true) := by
  have hall : ∀ s : Fin 65, 0 < s → ∀ core : Bool,
      killedStatus (BitVec.ofNat 32 s) core &&& 0xff ≠ 0 ∧
        killedStatus (BitVec.ofNat 32 s) core &&& 0xff ≠ 0x7f ∧
        killedStatus (BitVec.ofNat 32 s) core ≠ 0 ∧
        killedStatus (BitVec.ofNat 32 s) core =
          killedStatus (BitVec.ofNat 32 s) core &&& 0xff ∧
        killedStatus (BitVec.ofNat 32 s) core &&& 0x7f = BitVec.ofNat 32 s ∧
        (killedStatus (BitVec.ofNat 32 s) core &&& 0xff00) >>> 8 = 0 ∧
        (killedStatus (BitVec.ofNat 32 s) core &&& 0o200 ≠ 0 ↔
          core = true) := by
    decide
  exact hall signal.number signal.pos core

/-- The bits of a status of a stopped process. -/
theorem stoppedStatus_bits (signal : Signal) :
    stoppedStatus signal.word &&& 0xff = 0x7f ∧
      (stoppedStatus signal.word >>> 8) &&& 0xff = signal.word ∧
      (stoppedStatus signal.word &&& 0xff00) >>> 8 = signal.word ∧
      stoppedStatus signal.word &&& ~~~(0xff00 : BitVec 32) = 0x7f := by
  have hall : ∀ s : Fin 65,
      stoppedStatus (BitVec.ofNat 32 s) &&& 0xff = 0x7f ∧
        (stoppedStatus (BitVec.ofNat 32 s) >>> 8) &&& 0xff = BitVec.ofNat 32 s ∧
        (stoppedStatus (BitVec.ofNat 32 s) &&& 0xff00) >>> 8 =
          BitVec.ofNat 32 s ∧
        stoppedStatus (BitVec.ofNat 32 s) &&& ~~~(0xff00 : BitVec 32) =
          0x7f := by
    decide
  exact hall signal.number

/-- The bits of a status of a process that has exited. -/
theorem exitStatus_bits (code : Fin 256) :
    exitStatus code &&& 0xff = 0 ∧
      (exitStatus code ≠ 0 → exitStatus code ≠ exitStatus code &&& 0xff) ∧
      (exitStatus code).sshiftRight 8 = BitVec.ofNat 32 code := by
  have hall : ∀ code : Fin 256,
      exitStatus code &&& 0xff = 0 ∧
        (exitStatus code ≠ 0 → exitStatus code ≠ exitStatus code &&& 0xff) ∧
        (exitStatus code).sshiftRight 8 = BitVec.ofNat 32 code := by
    decide +kernel
  exact hall code

/-! ## One call -/

theorem abiWait_exited (code : Fin 256) :
    abiWait personality false (exitStatus code) = some (exitStatus code) := by
  obtain ⟨hlow, hhigh, -⟩ := exitStatus_bits code
  rw [abiWait, if_neg Bool.false_ne_true, hlow, if_neg (by decide)]
  split
  · next hkilled => exact absurd hkilled.2 (hlow ▸ hhigh hkilled.1)
  · rfl

theorem abiWait_killed (signal : Signal) (core : Bool) :
    abiWait personality false (killedStatus signal.word core) =
      if signal.number.val < nsignals then mapEntry personality signal.word
      else some (killedStatus signal.word core) := by
  obtain ⟨-, hstopped, hpos, hlow, hsig, -⟩ := killedStatus_bits signal core
  rw [abiWait, if_neg Bool.false_ne_true, if_neg hstopped,
    if_pos ⟨hpos, hlow⟩, hsig, word_toNat]

theorem or_stopped :
    (fun sig : BitVec 32 => 0x7f ||| sig <<< (8 : ℕ)) = stoppedStatus :=
  funext fun _ => BitVec.or_comm _ _

theorem abiWait_stopped (signal : Signal) :
    abiWait personality false (stoppedStatus signal.word) =
      if signal.number.val < nsignals then
        (mapEntry personality signal.word).map stoppedStatus
      else some (stoppedStatus signal.word) := by
  obtain ⟨hlow, hsig, -, hrest⟩ := stoppedStatus_bits signal
  simp only [abiWait, if_neg Bool.false_ne_true, if_pos hlow, hsig, hrest,
    word_toNat, or_stopped]
  split <;> rfl

theorem wyseWait3_exited (code : Fin 256) :
    wyseWait3 personality (exitStatus code) = some (exitStatus code) := by
  obtain ⟨hlow, hhigh, -⟩ := exitStatus_bits code
  rw [wyseWait3, hlow, if_neg (by decide)]
  split
  · next hkilled => exact absurd hkilled.2 (hlow ▸ hhigh hkilled.1)
  · rfl

theorem wyseWait3_killed (signal : Signal) (core : Bool) :
    wyseWait3 personality (killedStatus signal.word core) =
      mapEntry personality signal.word := by
  obtain ⟨-, hstopped, hpos, hlow, hsig, -⟩ := killedStatus_bits signal core
  rw [wyseWait3, if_neg hstopped, if_pos ⟨hpos, hlow⟩, hsig]

theorem wyseWait3_stopped (signal : Signal) :
    wyseWait3 personality (stoppedStatus signal.word) =
      (mapEntry personality signal.word).map stoppedStatus := by
  obtain ⟨hlow, hsig, -, hrest⟩ := stoppedStatus_bits signal
  simp only [wyseWait3, if_pos hlow, hsig, hrest, or_stopped]

/-! ## What an entry denotes -/

/-- No entry has the flag of a core dump. -/
theorem entry_ne_core {index entry : BitVec 32}
    (hentry : mapEntry personality index = some entry)
    (hnumber : personality.number signal = some number) :
    entry ≠ killedStatus number true := by
  obtain ⟨n, rfl⟩ := number_cases hnumber
  have hall : ∀ n : Fin 127,
      0x80 ≤ (killedStatus (BitVec.ofNat 32 n) true).toNat ∧
        killedStatus (BitVec.ofNat 32 n) true ≠ -1 := by
    decide
  obtain ⟨m, rfl⟩ | rfl := mapEntry_cases hentry
  · intro heq
    have hhigh := (hall n).1
    rw [← heq, BitVec.toNat_ofNat] at hhigh
    omega
  · exact (hall n).2.symm

theorem stoppedStatus_eq_iff {index entry : BitVec 32}
    (hentry : mapEntry personality index = some entry)
    (hnumber : personality.number signal = some number) :
    stoppedStatus entry = stoppedStatus number ↔ entry = number := by
  refine ⟨fun heq => ?_, congrArg _⟩
  obtain ⟨n, rfl⟩ := number_cases hnumber
  have hall : ∀ n : Fin 128,
      (stoppedStatus (BitVec.ofNat 32 n)).toNat = n * 256 + 127 := by
    decide
  have hn := hall n.castSucc
  obtain ⟨m, rfl⟩ | rfl := mapEntry_cases hentry
  · have hm := hall m
    rw [heq] at hm
    have hsame : m.val = n.val := by
      simp only [Fin.val_castSucc] at hn
      omega
    rw [hsame]
  · have hnone : (stoppedStatus (-1)).toNat = 0xffffff7f := by decide
    rw [heq] at hnone
    simp only [Fin.val_castSucc] at hn
    omega

/-- A killed process, looked up in `signal_map`. -/
theorem killed_mapEntry_iff (signal : Signal) (core : Bool) :
    (∃ received, mapEntry personality signal.word = some received ∧
        StatusDenotes personality received (.killed signal core)) ↔
      core = false ∧ TablesAgree personality signal := by
  constructor
  · rintro ⟨received, hentry, number, hnumber, rfl⟩
    cases core with
    | true => exact absurd rfl (entry_ne_core hentry hnumber)
    | false => exact ⟨rfl, number, hnumber, by simpa [killedStatus] using hentry⟩
  · rintro ⟨rfl, number, hnumber, hentry⟩
    exact ⟨number, hentry, number, hnumber, by simp [killedStatus]⟩

/-- A stopped process, looked up in `signal_map`. -/
theorem stopped_mapEntry_iff (signal : Signal) :
    (∃ received,
        (mapEntry personality signal.word).map stoppedStatus = some received ∧
        StatusDenotes personality received (.stopped signal)) ↔
      TablesAgree personality signal := by
  constructor
  · rintro ⟨received, hreceived, number, hnumber, rfl⟩
    obtain ⟨entry, hentry, heq⟩ := Option.map_eq_some_iff.1 hreceived
    refine ⟨number, hnumber, ?_⟩
    rwa [← (stoppedStatus_eq_iff hentry hnumber).1 heq]
  · rintro ⟨number, hnumber, hentry⟩
    exact ⟨stoppedStatus number, by rw [hentry]; rfl, number, hnumber, rfl⟩

/-- From 32 on nothing that is received denotes the event. -/
theorem not_tablesAgree (hhigh : ¬ signal.number.val < nsignals) :
    ¬ TablesAgree personality signal := by
  rintro ⟨number, hnumber, -⟩
  rw [number_eq_none (Nat.not_lt.1 hhigh)] at hnumber
  cases hnumber

/-- The status Linux delivers denotes the event as it is. -/
theorem statusDenotes_self_killed (signal : Signal) (core : Bool) :
    StatusDenotes personality (killedStatus signal.word core)
        (.killed signal core) ↔ SameNumber personality signal := by
  constructor
  · rintro ⟨number, hnumber, heq⟩
    rwa [SameNumber, killedStatus_injective heq (word_lt signal)
      (number_bounds hnumber).2]
  · intro hsame
    exact ⟨signal.word, hsame, rfl⟩

theorem statusDenotes_self_stopped (signal : Signal) :
    StatusDenotes personality (stoppedStatus signal.word) (.stopped signal) ↔
      SameNumber personality signal := by
  constructor
  · rintro ⟨number, hnumber, heq⟩
    rwa [SameNumber, stoppedStatus_injective heq (word_lt signal)
      (number_bounds hnumber).2]
  · intro hsame
    exact ⟨signal.word, hsame, rfl⟩

/-- `abi_wait` of a killed process, with and without `PER_XENIX`. -/
theorem abiWait_killed_iff (perXenix : Bool) (signal : Signal) (core : Bool) :
    WaitRight personality (.abiWait perXenix) (.killed signal core) ↔
      WaitMeets personality (.abiWait perXenix) (.killed signal core) := by
  cases perXenix with
  | true =>
    simp only [WaitRight, WaitEvent.status, WaitMeets, abiWait, if_true,
      Option.some.injEq, exists_eq_left']
    exact statusDenotes_self_killed signal core
  | false =>
    simp only [WaitRight, WaitEvent.status, WaitMeets, abiWait_killed]
    split
    · exact killed_mapEntry_iff signal core
    · next hhigh =>
      refine iff_of_false ?_ fun hmeets => not_tablesAgree hhigh hmeets.2
      rintro ⟨received, -, number, hnumber, -⟩
      rw [number_eq_none (Nat.not_lt.1 hhigh)] at hnumber
      cases hnumber

/-- `abi_wait` of a stopped process. -/
theorem abiWait_stopped_iff (perXenix : Bool) (signal : Signal) :
    WaitRight personality (.abiWait perXenix) (.stopped signal) ↔
      WaitMeets personality (.abiWait perXenix) (.stopped signal) := by
  cases perXenix with
  | true =>
    simp only [WaitRight, WaitEvent.status, WaitMeets, abiWait, if_true,
      Option.some.injEq, exists_eq_left']
    exact statusDenotes_self_stopped signal
  | false =>
    simp only [WaitRight, WaitEvent.status, WaitMeets, abiWait_stopped]
    split
    · exact stopped_mapEntry_iff signal
    · next hhigh =>
      refine iff_of_false ?_ (not_tablesAgree hhigh)
      rintro ⟨received, -, number, hnumber, -⟩
      rw [number_eq_none (Nat.not_lt.1 hhigh)] at hnumber
      cases hnumber

/-! ## `svr4_waitid` -/

/-- No status has signal number 0. -/
theorem number_ne_invmap_zero (entry : BitVec 32)
    (hentry : invmapEntry personality 0 = some entry) :
    personality.number signal ≠ some entry := by
  have hzero : invmapEntry personality 0 = some 0 := by
    cases personality <;> decide
  rw [hzero] at hentry
  obtain rfl := Option.some.inj hentry
  intro hnumber
  exact absurd (number_bounds hnumber).1 (by decide)

/-- Every system has the signals that `svr4_waitid` takes for a stop. -/
theorem number_of_stop
    (hstop : signal.word = sigstop ∨ signal.word = sigtstp) :
    ∃ number, invmapEntry personality signal.word = some number ∧
      personality.number signal = some number := by
  have hindex : signal.number.val = 19 ∨ signal.number.val = 20 := by
    rw [← word_toNat]
    exact hstop.imp (congrArg BitVec.toNat) (congrArg BitVec.toNat)
  have hsome : (personality.number signal).isSome := by
    rw [Personality.number]
    rcases hindex with heq | heq <;> rw [heq] <;> cases personality <;>
      decide
  obtain ⟨number, hnumber⟩ := Option.isSome_iff_exists.1 hsome
  refine ⟨number, ?_, hnumber⟩
  rw [invmapEntry, word_toNat]
  exact (Option.filter_eq_some_iff.1 hnumber).1

theorem svr4Waitid_exited (code : Fin 256) :
    ∃ received, svr4Waitid personality (exitStatus code) = some received ∧
      InfoDenotes personality received (.exited code) := by
  obtain ⟨hlow, -, hcode⟩ := exitStatus_bits code
  obtain ⟨signo, hsigno⟩ : ∃ signo, mapEntry personality sigchld = some signo :=
    ⟨_, List.getElem?_eq_getElem (by rw [signalMap_length]; decide)⟩
  refine ⟨⟨signo, svr4CldExited, BitVec.ofNat 32 code⟩, ?_, rfl, rfl⟩
  rw [svr4Waitid, hsigno, hlow, hcode]
  rfl

theorem svr4Waitid_killed (signal : Signal) (core : Bool) :
    ¬ ∃ received,
      svr4Waitid personality (killedStatus signal.word core) = some received ∧
        InfoDenotes personality received (.killed signal core) := by
  obtain ⟨hexited, hstopped, -, -, -, hsig, -⟩ := killedStatus_bits signal core
  rintro ⟨received, hcall, -, hnumber⟩
  simp only [svr4Waitid, if_neg hexited, if_neg hstopped, hsig,
    Option.bind_eq_bind, Option.bind_eq_some_iff, Option.some.injEq] at hcall
  obtain ⟨signo, -, entry, hentry, rfl⟩ := hcall
  exact number_ne_invmap_zero entry hentry hnumber

theorem svr4Waitid_stopped_iff (signal : Signal) :
    (∃ received,
        svr4Waitid personality (stoppedStatus signal.word) = some received ∧
        InfoDenotes personality received (.stopped signal)) ↔
      signal.word = sigstop ∨ signal.word = sigtstp := by
  obtain ⟨hlow, -, hsig, -⟩ := stoppedStatus_bits signal
  have hexited : stoppedStatus signal.word &&& 0xff ≠ 0 := by
    rw [hlow]
    decide
  simp only [svr4Waitid, if_neg hexited, if_pos hlow, hsig,
    Option.bind_eq_bind, Option.bind_eq_some_iff, Option.some.injEq]
  constructor
  · rintro ⟨-, ⟨signo, -, entry, -, rfl⟩, hcode, -⟩
    by_contra hother
    simp only [if_neg hother] at hcode
    exact absurd hcode (by decide)
  · intro hstop
    obtain ⟨number, hentry, hnumber⟩ := number_of_stop hstop
    obtain ⟨signo, hsigno⟩ :
        ∃ signo, mapEntry personality sigchld = some signo :=
      ⟨_, List.getElem?_eq_getElem (by rw [signalMap_length]; decide)⟩
    exact ⟨_, ⟨signo, hsigno, number, hentry, rfl⟩, if_pos hstop, hnumber⟩

/-! ## Every call -/

theorem ibcsWait_right_iff (personality : Personality) (call : WaitCall)
    (event : WaitEvent) :
    WaitRight personality call event ↔ WaitMeets personality call event := by
  cases event with
  | exited code =>
    refine iff_of_true ?_ (by cases call <;> trivial)
    cases call with
    | abiWait perXenix =>
      refine ⟨exitStatus code, ?_, rfl⟩
      cases perXenix with
      | true => rfl
      | false => exact abiWait_exited code
    | svr4Waitid => exact svr4Waitid_exited code
    | wyseWait3 => exact ⟨exitStatus code, wyseWait3_exited code, rfl⟩
  | killed signal core =>
    cases call with
    | abiWait perXenix => exact abiWait_killed_iff perXenix signal core
    | svr4Waitid => exact iff_of_false (svr4Waitid_killed signal core) id
    | wyseWait3 =>
      simp only [WaitRight, WaitEvent.status, wyseWait3_killed]
      exact killed_mapEntry_iff signal core
  | stopped signal =>
    cases call with
    | abiWait perXenix => exact abiWait_stopped_iff perXenix signal
    | svr4Waitid => exact svr4Waitid_stopped_iff signal
    | wyseWait3 =>
      simp only [WaitRight, WaitEvent.status, wyseWait3_stopped]
      exact stopped_mapEntry_iff signal

/-- A child of an OpenServer program that Linux's `SIGUSR1` has killed. -/
theorem abiWait_wrong_sigusr1 :
    ¬ WaitRight .openServer (.abiWait false)
      (.killed ⟨10, by decide⟩ false) := by
  rintro ⟨received, hcall, number, hnumber, rfl⟩
  have hseven : abiWait .openServer false
      (WaitEvent.status (.killed ⟨10, by decide⟩ false)) = some 7 := by
    decide
  have hsixteen : Personality.number .openServer ⟨10, by decide⟩ = some 16 := by
    decide
  rw [hseven] at hcall
  rw [hsixteen] at hnumber
  obtain rfl := Option.some.inj hnumber
  exact absurd hcall (by decide)

end IbcsUs.Signals
