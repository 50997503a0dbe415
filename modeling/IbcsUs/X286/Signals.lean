import IbcsUs.X286.VerifyArea

/-!
# Signals of a 286 program

A program registers a handler with the `signal` call.  The emulator keeps its address
in `sig_table` and has the kernel call `sig_sigf`, once.  A signal that arrives while
the program runs is passed on at once; one that arrives inside the emulator is kept in
`signo_pending` until the end of a system call.  This module models the emulator as a
machine of small steps, between any two of which a signal may arrive.
-/

namespace IbcsUs.X286

/-- `NSIG`. -/
def nsig : ℕ := 65

/-- `to_linux_sig`. -/
def toLinuxSig : List ℕ :=
  [0, 1, 2, 3, 4, 5, 6, 25, 8, 9, 7, 24, 26, 13, 14, 15, 10, 12, 17, 30, 29]

/-- `TO_LINUX`. -/
def toLinux (nr : ℕ) : ℕ := toLinuxSig.getD nr 0

/-- `struct sig_ent`. -/
structure SigEnt where
  flag : ℕ
  cs : BitVec 16
  ip : BitVec 16
  deriving DecidableEq

/-- An entry that has been reset. -/
def SigEnt.zero : SigEnt := ⟨0, 0, 0⟩

/-- What the kernel does with a signal. -/
inductive Disposition where
  | dfl
  | ign
  | sigSigf
  deriving DecidableEq

/-- What the program asks for: a function, or `SIG_DFL` or `SIG_IGN` by its code. -/
inductive Handler where
  | function (cs ip : BitVec 16)
  | code (ignore : Bool)
  deriving DecidableEq

namespace Handler

/-- The entry that `emu_i_signal` stores. -/
def entry : Handler → SigEnt
  | function cs ip => ⟨1, cs, ip⟩
  | code ignore => if ignore then ⟨1, 0, 1⟩ else ⟨0, 0, 0⟩

/-- The `handler` of its `sigaction`. -/
def disposition : Handler → Disposition
  | function _ _ => .sigSigf
  | code ignore => if ignore then .ign else .dfl

/-- The address that the program has registered by it. -/
def address : Handler → Option (BitVec 16 × BitVec 16)
  | function cs ip => some (cs, ip)
  | code _ => none

end Handler

/-- The arguments of the `signal` call. -/
structure SignalArgs where
  signr : BitVec 16
  funcCs : BitVec 16
  funcAdd : BitVec 16

/-- Where `emu_i_signal` finds them; `cs` is the segment of the caller. -/
def signalArgs (large ltext : Bool) (sc : Sigcontext) (cs : BitVec 16) : SignalArgs :=
  if large then ⟨sc.stkladdr 0, sc.stkladdr 2, sc.stkladdr 1⟩
  else
    ⟨sc.ebx.setWidth 16, if ltext then sc.esi.setWidth 16 else cs, sc.ecx.setWidth 16⟩

/-- `func_add & 0xfffe` tells a function from a code. -/
def handlerOf (args : SignalArgs) : Handler :=
  if args.funcAdd &&& 0xfffe ≠ 0 then .function args.funcCs args.funcAdd
  else .code (decide (args.funcAdd = 1))

/-- A system call: `signal`, with its registers and the caller's segment, or another,
which leaves these segments. -/
inductive SysCall where
  | signal (sc : Sigcontext) (cs : BitVec 16)
  | other (segments : Table)

/-- Where the emulator is.  The parts of `emu_i_signal` carry the signal, the entry it
has saved, what is asked for, and the disposition that `xigaction` has reported, if it
has not failed. -/
inductive Phase where
  | program
  | entered (call : SysCall)
  | written (nr : ℕ) (saved : SigEnt) (new : Handler)
  | got (nr : ℕ) (saved : SigEnt) (new : Handler) (result : Option Disposition)
  | finish (nr : ℕ) (saved : SigEnt) (new : Handler) (result : Option Disposition)
  | loop (signo : ℕ)
  | transfer (signo : ℕ)
  | leaving

/-- The flags and the address at which the program goes on. -/
structure Context where
  flags : BitVec 16
  cs : BitVec 16
  ip : BitVec 16

/-- The registers that `emu_i_signal` returns. -/
structure SignalReturn where
  eax : ℕ
  ebx : Option ℕ
  carry : Bool

/-- What has happened so far, which the emulator does not keep: the addresses that
`verify_area` has accepted, the one registered last for each signal and not used or
replaced since, the arrivals (those of one signal before a return to the program
counted as one, and which of them there have been since the last), and the
transfers. -/
structure Ledger where
  accepted : ℕ → Set (BitVec 16 × BitVec 16)
  registered : ℕ → Option (BitVec 16 × BitVec 16)
  arrived : ℕ → ℕ
  sinceReturn : ℕ → Bool
  made : ℕ → ℕ

/-- The state of the emulator and of the kernel's dispositions. -/
structure SigState where
  phase : Phase
  sigTable : ℕ → SigEnt
  pending : Finset ℕ
  kernel : ℕ → Disposition
  segments : Table
  context : Context
  stack : List Context
  answer : SignalReturn
  ledger : Ledger

section Steps

variable (settings : Settings) (ltext : Bool)

namespace SigState

variable (state : SigState)

/-- `do_sig_pending`: the place is put on the program's stack, the program goes on in
its handler, and the entry is reset. -/
def doSigPending (nr : ℕ) : SigState :=
  let entry := state.sigTable nr
  { state with
    stack := state.context :: state.stack
    context := { state.context with cs := entry.cs, ip := entry.ip }
    sigTable := Function.update state.sigTable nr SigEnt.zero
    ledger := { state.ledger with
      registered := Function.update state.ledger.registered nr none
      made := Function.update state.ledger.made nr (state.ledger.made nr + 1) } }

/-- An arrival of a signal that is counted once before the next return. -/
def countArrival (nr : ℕ) : Ledger :=
  { state.ledger with
    arrived := Function.update state.ledger.arrived nr
      (state.ledger.arrived nr + if state.ledger.sinceReturn nr then 0 else 1)
    sinceReturn := Function.update state.ledger.sinceReturn nr true }

/-- `sig_sigf` in the emulator. -/
def delay (nr : ℕ) : SigState :=
  { state with
    pending := insert nr state.pending
    kernel := Function.update state.kernel nr .dfl
    ledger := state.countArrival nr }

/-- `sig_sigf` in the program: each arrival counts. -/
def interrupt (nr : ℕ) : SigState :=
  doSigPending
    { state with
      kernel := Function.update state.kernel nr .dfl
      ledger := { state.ledger with
        arrived := Function.update state.ledger.arrived nr
          (state.ledger.arrived nr + 1) } } nr

/-- A signal arrives.  The disposition is reset as `sig_sigf` is called; any other
disposition is not the emulator's. -/
def arrive (nr : ℕ) : SigState :=
  if state.kernel nr = .sigSigf then
    match state.phase with
    | .program => state.interrupt nr
    | _ => state.delay nr
  else state

/-- The return of `emu_i_signal` with an error. -/
def failSignal (errno : ℕ) : SigState :=
  { state with
    phase := .loop 1
    answer := ⟨errno, if ltext then some 0xff else none, true⟩ }

/-- `emu_i_signal` up to the first `xigaction`. -/
def beginSignal (args : SignalArgs) : SigState :=
  if nsig ≤ args.signr.toNat then state.failSignal ltext einval
  else
    let nr := toLinux args.signr.toNat
    let new := handlerOf args
    let save : SigState :=
      { state with
        phase := .written nr (state.sigTable nr) new
        sigTable := Function.update state.sigTable nr new.entry }
    match new with
    | .function cs ip =>
        if verifyArea settings.initDs state.segments .exec cs.toNat ip 1 ≠ 0 then
          state.failSignal ltext einval
        else
          { save with ledger := { state.ledger with
              accepted := Function.update state.ledger.accepted nr
                (insert (cs, ip) (state.ledger.accepted nr)) } }
    | .code _ => save

/-- What a successful call returns: the handler there was, or whether the signal was
ignored. -/
def successAnswer (saved : SigEnt) (result : Disposition) : SignalReturn :=
  if saved.flag ≠ 0 then
    ⟨saved.ip.toNat, if ltext then some saved.cs.toNat else none, false⟩
  else ⟨if result = .ign then 1 else 0, if ltext then some 0 else none, false⟩

/-- The end of `emu_i_signal`. -/
def finishSignal (nr : ℕ) (saved : SigEnt) (new : Handler)
    (result : Option Disposition) (errno : ℕ) : SigState :=
  match result with
  | none =>
      { state.failSignal ltext errno with
        sigTable := Function.update state.sigTable nr saved }
  | some result =>
      { state with
        phase := .loop 1
        answer := successAnswer ltext saved result
        ledger := { state.ledger with
          registered := Function.update state.ledger.registered nr new.address } }

/-- The next step of the emulator, where it runs; `granted` is the answer to the
`xigaction` of the step, and `errno` is `xerrno`. -/
def advance (granted : Bool) (errno : ℕ) : Option SigState :=
  match state.phase with
  | .program => none
  | .entered (.other segments) =>
      some { state with phase := .loop 1, segments := segments }
  | .entered (.signal sc cs) =>
      some (state.beginSignal settings ltext (signalArgs settings.large ltext sc cs))
  | .written nr saved new =>
      some { state with
        phase := .got nr saved new (if granted then some (state.kernel nr) else none) }
  | .got nr saved new result =>
      some (if granted then
          { state with
            phase := .finish nr saved new result
            kernel := Function.update state.kernel nr new.disposition }
        else { state with phase := .finish nr saved new none })
  | .finish nr saved new result => some (state.finishSignal ltext nr saved new result errno)
  | .loop signo =>
      some (if signo < nsig then
          if signo ∈ state.pending then
            { state with phase := .transfer signo, pending := state.pending.erase signo }
          else { state with phase := .loop (signo + 1) }
        else { state with phase := .leaving })
  | .transfer signo => some { state.doSigPending signo with phase := .loop (signo + 1) }
  | .leaving =>
      some { state with
        phase := .program
        ledger := { state.ledger with sinceReturn := fun _ => false } }

end SigState

/-- What may happen next: a signal, a system call of the program from where it is, or
a step of the emulator. -/
inductive SigAction where
  | arrive (nr : ℕ)
  | enter (call : SysCall) (context : Context)
  | advance (granted : Bool) (errno : ℕ)

/-- One action; `none` where it cannot happen. -/
def sigStep (state : SigState) : SigAction → Option SigState
  | .arrive nr => if 0 < nr ∧ nr < nsig then some (state.arrive nr) else none
  | .enter call context =>
      match state.phase with
      | .program => some { state with phase := .entered call, context := context }
      | _ => none
  | .advance granted errno => state.advance settings ltext granted errno

/-- The state in which the program starts: `init_sigs` has run, and the kernel has no
handler of this process. -/
def initSigs (segments : Table) (context : Context) (ignored : ℕ → Bool) : SigState where
  phase := .program
  sigTable _ := SigEnt.zero
  pending := ∅
  kernel nr := if ignored nr then .ign else .dfl
  segments := segments
  context := context
  stack := []
  answer := ⟨0, none, false⟩
  ledger := ⟨fun _ => ∅, fun _ => none, fun _ => 0, fun _ => false, fun _ => 0⟩

end Steps

/-! ## What is promised -/

/-- The entry of a signal is the address registered last, which `verify_area` has
accepted. -/
def TargetRight (state : SigState) (nr : ℕ) : Prop :=
  ∃ cs ip, state.sigTable nr = ⟨1, cs, ip⟩ ∧
    state.ledger.registered nr = some (cs, ip) ∧ (cs, ip) ∈ state.ledger.accepted nr

/-- Every transfer that the action makes goes to the right place. -/
def TransferRight (state : SigState) : SigAction → Prop
  | .arrive nr =>
      state.phase = .program → state.kernel nr = .sigSigf → TargetRight state nr
  | .enter .. => True
  | .advance .. => ∀ nr, state.phase = .transfer nr → TargetRight state nr

/-- A signal has arrived and has still to be passed on. -/
def Owed (state : SigState) (nr : ℕ) : Prop :=
  nr ∈ state.pending ∨ state.phase = .transfer nr

/-- Every arrival has had one transfer, but for those that are still owed one. -/
def CountsRight (state : SigState) : Prop :=
  ∀ nr, (Owed state nr → state.ledger.arrived nr = state.ledger.made nr + 1) ∧
    (¬ Owed state nr → state.ledger.arrived nr = state.ledger.made nr)

/-- The setting of a disposition that keeps table, pending signals and kernel together:
it is refused; or the old disposition could be read and the signal is not pending; or
it could not be read, so that the table will be restored, and either no function is
set or the one of before is still waited for. -/
def SetMeets (state : SigState) : SigAction → Prop
  | .advance true _ =>
      match state.phase with
      | .got nr _ _ (some _) => nr ∉ state.pending
      | .got nr _ (.function _ _) none =>
          nr ∉ state.pending ∧ state.kernel nr = .sigSigf
      | _ => True
  | _ => True

end IbcsUs.X286
