import Mathlib.Data.BitVec
import Mathlib.Data.Nat.Cast.Order.Ring
import Mathlib.Order.Nat
import IbcsUs.Memory.Word

/-!
# The credentials of the emulated program

Once a program is loaded `set_credentials` gives the process the effective ids its
mode asks for and drops all capabilities.  Which calls the kernel grants is a
parameter.  The two calls that change an id are the i386 ones: they take 16-bit
ids, and `0xffff` leaves an id as it is.
-/

namespace IbcsUs.Startup

open IbcsUs.Memory

/-- The three sets of capabilities of a process. -/
structure Capabilities where
  effective : ℕ
  permitted : ℕ
  inheritable : ℕ
  deriving DecidableEq

def noCapabilities : Capabilities := ⟨0, 0, 0⟩

structure Credentials where
  uid : ℕ
  gid : ℕ
  euid : ℕ
  egid : ℕ
  caps : Capabilities
  deriving DecidableEq

/-- The fields of the executable's `struct stat64` that are read. -/
structure Stat64 where
  mode : ℕ
  uid : ℕ
  gid : ℕ
  deriving DecidableEq

/-- What the kernel refuses. -/
structure Refusals where
  fopen : Option Errno
  fstat64 : Option Errno
  setregid : Option Errno
  setreuid : Option Errno
  capset : Option Errno
  deriving DecidableEq

/-- The process: its credentials, whether `abi_trace_fd` is open, and what it has
written there and to the standard error. -/
structure Process where
  creds : Credentials
  tracing : Bool
  traced : List String
  errors : List String
  deriving DecidableEq

/-! ## Reporting -/

/-- A character of a C string, its terminator included. -/
def charAt (text : String) (index : ℕ) : Char := text.toList.getD index '\x00'

/-- The level `vprintk` reads off a format. -/
def printkLevel (format : String) : Char :=
  if charAt format 0 = '<' ∧ charAt format 1 = '\x00' ∧
    charAt format 2 ≠ '>' then
    charAt format 1
  else 'd'

/-- `printk`; `format` is the format and `text` what it prints.  An `error` is a
process that has exited. -/
def printk (format text : String) (process : Process) :
    Except Process Process :=
  let level := printkLevel format
  let process := if process.tracing then
    { process with traced := process.traced ++ [text] } else process
  let process := if '0' ≤ level ∧ level ≤ '4' then
    { process with errors := process.errors ++ [text] } else process
  if level ≤ '2' then .error process else .ok process

/-- `ibcs_fatal_syscall`, without the description of the error it appends. -/
def fatalSyscall (message : String) (process : Process) :
    Except Process Process :=
  .error { process with errors := process.errors ++ [message] }

/-! ## The calls that change the credentials -/

/-- An id after a 16-bit change: `0xffff` is `-1`, which changes nothing. -/
def changeId (current wanted : ℕ) : ℕ :=
  if wanted % 2 ^ 16 = 2 ^ 16 - 1 then current else wanted % 2 ^ 16

/-- `setregid(-1, egid)`. -/
def setregid (refusal : Option Errno) (egid : ℕ) (creds : Credentials) :
    ℕ × Credentials :=
  match refusal with
  | some errno => (errno.word, creds)
  | none => (0, { creds with egid := changeId creds.egid egid })

/-- `setreuid(-1, euid)`.  What it does to the capabilities is overwritten by the
`capset` that follows. -/
def setreuid (refusal : Option Errno) (euid : ℕ) (creds : Credentials) :
    ℕ × Credentials :=
  match refusal with
  | some errno => (errno.word, creds)
  | none => (0, { creds with euid := changeId creds.euid euid })

/-- `capset` with empty sets. -/
def capset (refusal : Option Errno) (creds : Credentials) : ℕ × Credentials :=
  match refusal with
  | some errno => (errno.word, creds)
  | none => (0, { creds with caps := noCapabilities })

/-- The word a call without a result returns. -/
def returnWord (refusal : Option Errno) : ℕ := (refusal.map Errno.word).getD 0

def sIsuid : ℕ := 0o4000

def sIsgid : ℕ := 0o2000

/-- A word as `%d` prints it. -/
def printWord (word : ℕ) : String :=
  toString (if word < 2 ^ 31 then (word : ℤ) else word - 2 ^ 32)

def setegidFormat : String := "<3>setegid(\"%s\", egid=%d): "

def seteuidFormat : String := "<3>seteuid(\"%s\", euid=%d): "

/-- The part of `set_credentials` that changes the effective group. -/
def giveEgid (refusals : Refusals) (executable : String) (st : Stat64)
    (mine : Credentials) (process : Process) : Except Process Process :=
  let hisEgid := if st.mode &&& sIsuid ≠ 0 then st.gid else mine.gid
  if hisEgid ≠ mine.egid then
    let (retval, creds) := setregid refusals.setregid hisEgid process.creds
    let process := { process with creds := creds }
    if isErr retval then
      printk setegidFormat
        ("<3>setegid(\"" ++ executable ++ "\", egid=" ++ printWord hisEgid ++
          "): ")
        process
    else .ok process
  else .ok process

/-- The part of `set_credentials` that changes the effective user. -/
def giveEuid (refusals : Refusals) (executable : String) (st : Stat64)
    (mine : Credentials) (process : Process) : Except Process Process :=
  let hisEuid := if st.mode &&& sIsuid ≠ 0 then st.uid else mine.uid
  if hisEuid ≠ mine.euid then
    let (retval, creds) := setreuid refusals.setreuid hisEuid process.creds
    let process := { process with creds := creds }
    if isErr retval then
      printk seteuidFormat
        ("<3>seteuid(\"" ++ executable ++ "\", euid=" ++ printWord hisEuid ++
          "): ")
        process
    else .ok process
  else .ok process

/-- The part of `set_credentials` that drops the capabilities. -/
def dropCapabilities (refusals : Refusals) (process : Process) :
    Except Process Process :=
  let (retval, creds) := capset refusals.capset process.creds
  let process := { process with creds := creds }
  if isErr retval then fatalSyscall "set_credentials capset()" process
  else .ok process

/-- `set_credentials`. -/
def setCredentials (refusals : Refusals) (executable : String) (st : Stat64)
    (process : Process) : Except Process Process :=
  let mine := process.creds
  if isErr mine.uid then fatalSyscall "set_credentials getuid32()" process
  else if isErr mine.gid then fatalSyscall "set_credentials getgid32()" process
  else if isErr mine.euid then
    fatalSyscall "set_credentials geteuid32()" process
  else if isErr mine.egid then
    fatalSyscall "set_credentials getegid32()" process
  else if isErr (returnWord refusals.fopen) then
    fatalSyscall ("set_credentials open(\"" ++ executable ++ "\")") process
  else if isErr (returnWord refusals.fstat64) then
    fatalSyscall ("set_credentials fstat64(\"" ++ executable ++ "\")") process
  else do
    let process ← giveEgid refusals executable st mine process
    let process ← giveEuid refusals executable st mine process
    dropCapabilities refusals process

/-! ## What the program may run with -/

/-- The effective user the mode asks for. -/
def wantedEuid (st : Stat64) (creds : Credentials) : ℕ :=
  if st.mode &&& sIsuid ≠ 0 then st.uid else creds.uid

/-- The effective group the mode asks for. -/
def wantedEgid (st : Stat64) (creds : Credentials) : ℕ :=
  if st.mode &&& sIsgid ≠ 0 then st.gid else creds.gid

/-- The process has exited, or it has the ids the mode asks for and no capability. -/
def CredentialsRight (st : Stat64) (start : Credentials) :
    Except Process Process → Prop
  | .error _ => True
  | .ok process =>
      process.creds.euid = wantedEuid st start ∧
        process.creds.egid = wantedEgid st start ∧
        process.creds.caps = noCapabilities

instance decidableCredentialsRight (st : Stat64) (start : Credentials)
    (result : Except Process Process) :
    Decidable (CredentialsRight st start result) :=
  match result with
  | .error _ => isTrue trivial
  | .ok _ => inferInstanceAs (Decidable (_ ∧ _ ∧ _))

/-- An id of the process reads as an error, or the executable cannot be opened or
looked at, or the capabilities cannot be dropped. -/
def Stopped (refusals : Refusals) (creds : Credentials) : Prop :=
  isErr creds.uid ∨ isErr creds.gid ∨ isErr creds.euid ∨ isErr creds.egid ∨
    refusals.fopen ≠ none ∨ refusals.fstat64 ≠ none ∨ refusals.capset ≠ none

instance decidableStopped (refusals : Refusals) (creds : Credentials) :
    Decidable (Stopped refusals creds) :=
  inferInstanceAs (Decidable (_ ∨ _))

/-- The wanted id is there already, or the kernel grants it and it has 16 bits. -/
def IdMeets (refusal : Option Errno) (current wanted : ℕ) : Prop :=
  current = wanted ∨ refusal = none ∧ wanted < 2 ^ 16 - 1

/-- With the other id asked for: it is not the current one, and the wanted id is
there already and stays, or is what 16 bits of the other id are. -/
def OtherIdMeets (refusal : Option Errno) (current other wanted : ℕ) : Prop :=
  current ≠ other ∧
    if refusal = none ∧ other % 2 ^ 16 ≠ 2 ^ 16 - 1 then other % 2 ^ 16 = wanted
    else current = wanted

/-- The condition on the group: the set-user-id and the set-group-id bit choose the
same group, and it can be had; or the wrong group is asked for without harm. -/
def GroupMeets (refusals : Refusals) (st : Stat64)
    (creds : Credentials) : Prop :=
  if (st.mode &&& sIsuid ≠ 0 ↔ st.mode &&& sIsgid ≠ 0) ∨ st.gid = creds.gid then
    IdMeets refusals.setregid creds.egid (wantedEgid st creds)
  else
    OtherIdMeets refusals.setregid creds.egid
      (if st.mode &&& sIsuid ≠ 0 then st.gid else creds.gid)
        (wantedEgid st creds)

/-- The condition under which `set_credentials` is right. -/
def CredentialsMeet (refusals : Refusals) (st : Stat64) (creds : Credentials) :
    Prop :=
  Stopped refusals creds ∨
    IdMeets refusals.setreuid creds.euid (wantedEuid st creds) ∧
      GroupMeets refusals st creds

/-! ## What each part does -/

/-- `vprintk` takes no level from a format that starts with one, so that it neither
exits nor writes to the standard error. -/
theorem printk_ok (format : String) (hlevel : charAt format 1 ≠ '\x00')
    (text : String) (process : Process) :
    ∃ after, printk format text process = .ok after ∧
      after.creds = process.creds ∧ after.errors = process.errors := by
  have hdefault : printkLevel format = 'd' := by
    rw [printkLevel, if_neg (fun hcond => hlevel hcond.2.1)]
  have hnotErr : ¬ ('0' ≤ printkLevel format ∧ printkLevel format ≤ '4') := by
    rw [hdefault]
    decide
  have hnotExit : ¬ printkLevel format ≤ '2' := by
    rw [hdefault]
    decide
  simp only [printk, if_neg hnotErr, if_neg hnotExit]
  by_cases htracing : process.tracing <;> simp [htracing]

/-- The id a change leaves: only one that differs is asked for. -/
def settledId (refusal : Option Errno) (current asked : ℕ) : ℕ :=
  if asked ≠ current ∧ refusal = none then changeId current asked else current

theorem giveEgid_ok (refusals : Refusals) (executable : String) (st : Stat64)
    (process : Process) :
    ∃ after, giveEgid refusals executable st process.creds process = .ok after ∧
      after.creds = { process.creds with
        egid := settledId refusals.setregid process.creds.egid
          (if st.mode &&& sIsuid ≠ 0 then st.gid else process.creds.gid) } := by
  rw [giveEgid, settledId]
  generalize (if st.mode &&& sIsuid ≠ 0 then st.gid else process.creds.gid) =
    his
  by_cases hsame : his = process.creds.egid
  · simp [hsame]
  cases hrefusal : refusals.setregid with
  | none => simp [hsame, setregid, isErr]
  | some errno =>
      obtain ⟨after, hprint, hcreds, -⟩ := printk_ok setegidFormat (by decide)
        ("<3>setegid(\"" ++ executable ++ "\", egid=" ++ printWord his ++ "): ")
        process
      refine ⟨after, ?_, by simp [hcreds]⟩
      simpa [hsame, setregid, isErr_errno_word] using hprint

theorem giveEuid_ok (refusals : Refusals) (executable : String) (st : Stat64)
    (mine : Credentials) (process : Process)
    (hmine : process.creds.euid = mine.euid) :
    ∃ after, giveEuid refusals executable st mine process = .ok after ∧
      after.creds = { process.creds with
        euid := settledId refusals.setreuid mine.euid
          (wantedEuid st mine) } := by
  rw [giveEuid, settledId, wantedEuid]
  generalize (if st.mode &&& sIsuid ≠ 0 then st.uid else mine.uid) = his
  by_cases hsame : his = mine.euid
  · simp [hsame, ← hmine]
  cases hrefusal : refusals.setreuid with
  | none => simp [hsame, setreuid, isErr, hmine]
  | some errno =>
      obtain ⟨after, hprint, hcreds, -⟩ := printk_ok seteuidFormat (by decide)
        ("<3>seteuid(\"" ++ executable ++ "\", euid=" ++ printWord his ++ "): ")
        process
      refine ⟨after, ?_, by simp [hcreds, ← hmine]⟩
      simpa [hsame, setreuid, isErr_errno_word] using hprint

/-- A call that is refused stops the emulator. -/
theorem isErr_returnWord (refusal : Option Errno) :
    isErr (returnWord refusal) = true ↔ refusal ≠ none := by
  cases refusal with
  | none => simp [returnWord, isErr]
  | some errno => simp [returnWord, isErr_errno_word]

theorem isErr_zero : isErr 0 = false := rfl

theorem dropCapabilities_refused (refusals : Refusals) (process : Process)
    (hcapset : refusals.capset ≠ none) :
    ∃ after, dropCapabilities refusals process = .error after := by
  obtain ⟨errno, hrefusal⟩ := Option.ne_none_iff_exists'.1 hcapset
  simp [dropCapabilities, capset, hrefusal, isErr_errno_word, fatalSyscall]

/-- Where nothing stops it, `set_credentials` returns with these credentials. -/
theorem setCredentials_ok (refusals : Refusals) (executable : String)
    (st : Stat64)
    (process : Process) (hstopped : ¬ Stopped refusals process.creds) :
    ∃ after, setCredentials refusals executable st process = .ok after ∧
      after.creds = { process.creds with
        egid := settledId refusals.setregid process.creds.egid
          (if st.mode &&& sIsuid ≠ 0 then st.gid else process.creds.gid)
        euid := settledId refusals.setreuid process.creds.euid
          (wantedEuid st process.creds)
        caps := noCapabilities } := by
  obtain ⟨middle, hegid, hmiddle⟩ := giveEgid_ok refusals executable st process
  obtain ⟨after, heuid, hafter⟩ :=
    giveEuid_ok refusals executable st process.creds
    middle (by rw [hmiddle])
  simp only [Stopped, not_or, not_not] at hstopped
  obtain ⟨huid, hgid, heuid', hegid', hfopen, hfstat, hcapset⟩ := hstopped
  refine ⟨{ after with creds := { after.creds with caps := noCapabilities } },
    ?_, by simp [hafter, hmiddle]⟩
  simp [setCredentials, huid, hgid, heuid', hegid', hfopen, hfstat,
    isErr_returnWord, isErr_zero, hegid, heuid, dropCapabilities, capset,
    hcapset, Bind.bind, Except.bind]

/-- Where something stops it, the emulator exits. -/
theorem setCredentials_stopped (refusals : Refusals) (executable : String)
    (st : Stat64) (process : Process)
    (hstopped : Stopped refusals process.creds) :
    ∃ after, setCredentials refusals executable st process = .error after := by
  rw [setCredentials, fatalSyscall]
  simp only [isErr_returnWord]
  split_ifs with huid hgid heuid hegid hfopen hfstat
  iterate 6 exact ⟨_, rfl⟩
  have hcapset : refusals.capset ≠ none := by
    simpa [Stopped, huid, hgid, heuid, hegid, hfopen, hfstat] using hstopped
  obtain ⟨middle, hegidOk, hmiddle⟩ :=
    giveEgid_ok refusals executable st process
  obtain ⟨last, heuidOk, -⟩ := giveEuid_ok refusals executable st process.creds
    middle (by rw [hmiddle])
  obtain ⟨after, hdrop⟩ := dropCapabilities_refused refusals last hcapset
  exact ⟨after, by simp [hegidOk, heuidOk, hdrop, Bind.bind, Except.bind]⟩

/-! ## When the ids are right -/

theorem settledId_eq_wanted_iff (refusal : Option Errno) (current wanted : ℕ) :
    settledId refusal current wanted = wanted ↔
      IdMeets refusal current wanted := by
  by_cases hsame : wanted = current
  · simp [settledId, IdMeets, hsame]
  cases refusal with
  | some errno => simp [settledId, IdMeets]
  | none =>
      simp only [settledId, IdMeets, changeId, ne_eq, hsame, not_false_eq_true,
        and_self, if_true, true_and]
      split_ifs with hminus <;> omega

theorem settledId_eq_iff_of_ne (refusal : Option Errno)
    {current other wanted : ℕ} (hother : other ≠ wanted) :
    settledId refusal current other = wanted ↔
      OtherIdMeets refusal current other wanted := by
  by_cases hsame : other = current
  · simp [settledId, OtherIdMeets, hsame, hsame ▸ hother]
  cases refusal with
  | some errno => simp [settledId, OtherIdMeets, Ne.symm hsame]
  | none =>
      simp only [settledId, OtherIdMeets, changeId, ne_eq, hsame, Ne.symm hsame,
        not_false_eq_true, and_self, if_true, true_and]
      by_cases hminus : other % 2 ^ 16 = 2 ^ 16 - 1
      · rw [if_pos hminus, if_neg (not_not_intro hminus)]
      · rw [if_neg hminus, if_pos hminus]

theorem chosenGroup_eq_wanted {st : Stat64} {creds : Credentials}
    (hagree :
      (st.mode &&& sIsuid ≠ 0 ↔ st.mode &&& sIsgid ≠ 0) ∨ st.gid = creds.gid) :
    (if st.mode &&& sIsuid ≠ 0 then st.gid else creds.gid) =
      wantedEgid st creds := by
  rw [wantedEgid]
  split_ifs <;> tauto

/-- The group that the set-user-id bit chooses is the wanted one or the other. -/
theorem settledId_group_iff (refusals : Refusals) (st : Stat64)
    (creds : Credentials) :
    settledId refusals.setregid creds.egid
          (if st.mode &&& sIsuid ≠ 0 then st.gid else creds.gid) =
        wantedEgid st creds ↔
      GroupMeets refusals st creds := by
  rw [GroupMeets]
  by_cases hagree :
      (st.mode &&& sIsuid ≠ 0 ↔ st.mode &&& sIsgid ≠ 0) ∨ st.gid = creds.gid
  · rw [if_pos hagree, chosenGroup_eq_wanted hagree, settledId_eq_wanted_iff]
  · rw [if_neg hagree]
    apply settledId_eq_iff_of_ne
    rw [wantedEgid]
    split_ifs <;> tauto

/-- `set_credentials` is right exactly when something stops it, or the user can be
had and the group, which it chooses by the wrong bit, is right all the same. -/
theorem setCredentials_right_iff (refusals : Refusals) (executable : String)
    (st : Stat64) (process : Process) :
    CredentialsRight st process.creds
        (setCredentials refusals executable st process) ↔
      CredentialsMeet refusals st process.creds := by
  by_cases hstopped : Stopped refusals process.creds
  · obtain ⟨after, hresult⟩ :=
      setCredentials_stopped refusals executable st process hstopped
    rw [hresult]
    exact iff_of_true trivial (.inl hstopped)
  obtain ⟨after, hresult, hafter⟩ :=
    setCredentials_ok refusals executable st process hstopped
  simp only [hresult, CredentialsRight, hafter, and_true, CredentialsMeet,
    hstopped, false_or, settledId_eq_wanted_iff, settledId_group_iff]

-- A set-group-id executable of group 50: the group is left as it was.
example : ¬ CredentialsRight ⟨0o2755, 0, 50⟩
    ⟨1000, 1000, 1000, 1000, noCapabilities⟩
    (setCredentials ⟨none, none, none, none, none⟩ "/usr/bin/mail"
      ⟨0o2755, 0, 50⟩
      ⟨⟨1000, 1000, 1000, 1000, noCapabilities⟩, false, [], []⟩) := by
  decide

/-- What becomes of an effective id: it stays as it was when its change is refused,
and is the wanted one when its change is granted and it has 16 bits. -/
def IdSettled (refusal : Option Errno) (start wanted final : ℕ) : Prop :=
  (refusal ≠ none → final = start) ∧
    (refusal = none → wanted < 2 ^ 16 - 1 → final = wanted) ∧
    (start = wanted → final = wanted)

theorem idSettled_settledId (refusal : Option Errno) (start wanted : ℕ) :
    IdSettled refusal start wanted (settledId refusal start wanted) := by
  refine ⟨fun hrefused => ?_, fun hgranted hshort => ?_, fun hsame => ?_⟩
  · rw [settledId, if_neg (fun hcond => hrefused hcond.2)]
  · exact (settledId_eq_wanted_iff _ _ _).2 (.inr ⟨hgranted, hshort⟩)
  · exact (settledId_eq_wanted_iff _ _ _).2 (.inl hsame)

/-- The emulator exits where something stops it.  Elsewhere `set_credentials`
returns with no capability left and with the effective ids the mode asks for, an id
that the kernel refuses apart; the group is that of the mode where the two bits of
the mode choose the same. -/
theorem setCredentials_settles (refusals : Refusals) (executable : String)
    (st : Stat64) (process : Process) :
    if Stopped refusals process.creds then
      ∃ after, setCredentials refusals executable st process = .error after
    else
      ∃ after, setCredentials refusals executable st process = .ok after ∧
        after.creds.caps = noCapabilities ∧
        IdSettled refusals.setreuid process.creds.euid
          (wantedEuid st process.creds) after.creds.euid ∧
        ((st.mode &&& sIsuid ≠ 0 ↔ st.mode &&& sIsgid ≠ 0) →
          IdSettled refusals.setregid process.creds.egid
            (wantedEgid st process.creds) after.creds.egid) := by
  split_ifs with hstopped
  · exact setCredentials_stopped refusals executable st process hstopped
  · obtain ⟨after, hresult, hafter⟩ :=
      setCredentials_ok refusals executable st process hstopped
    refine ⟨after, hresult, by rw [hafter], ?_, fun hagree => ?_⟩
    · rw [hafter]
      exact idSettled_settledId _ _ _
    · rw [hafter, chosenGroup_eq_wanted (.inl hagree)]
      exact idSettled_settledId _ _ _

/-- A set-user-id executable of the superuser, with `setreuid` refused: the program
is started with the effective user it had. -/
theorem setCredentials_goes_on_when_refused :
    ¬ CredentialsRight ⟨0o4755, 0, 0⟩ ⟨1000, 0, 1000, 0, noCapabilities⟩
        (setCredentials
          ⟨none, none, none, some ⟨1, by decide, by decide⟩, none⟩ "/bin/su"
          ⟨0o4755, 0, 0⟩ ⟨⟨1000, 0, 1000, 0, noCapabilities⟩, false, [],
            []⟩) := by
  decide

end IbcsUs.Startup
