import IbcsUs.X286.OddCalls
import IbcsUs.X286.Signals

/-!
# The way into the emulator and back

A 286 program reaches the emulator by a far call with a prefix, which puts its return
address on the stack in two longs.  The emulator makes two words of them, and where
signals are pending at the end of the call it puts further places below them, each with
the flags.  The machine of `Signals` keeps these places as a list; here they are words of
the program's stack, which the returns take from it.
-/

namespace IbcsUs.X286.EntryCode

/-! ## Words of the stack -/

/-- The address of an offset in the stack segment. -/
def stackAddress (base : BitVec 32) (offset : ℕ) : BitVec 32 := base + BitVec.ofNat 32 offset

/-- The address of the word with a negative index. -/
def before (address : BitVec 32) (words : ℕ) : BitVec 32 := address - BitVec.ofNat 32 (2 * words)

def wordAt (memory : ProgramMemory) (address : BitVec 32) : BitVec 16 :=
  memory (address + 1) ++ memory address

def putWord (memory : ProgramMemory) (address : BitVec 32) (word : BitVec 16) : ProgramMemory :=
  Function.update (Function.update memory address (word.setWidth 8)) (address + 1)
    ((word >>> 8).setWidth 8)

/-- A stack pointer of 16 bits after a push. -/
def below (sp count : ℕ) : ℕ := (sp + (2 ^ 16 - count)) % 2 ^ 16

section Words

variable {base : BitVec 32} {memory : ProgramMemory} {word : BitVec 16} {m n words : ℕ}

theorem before_stackAddress (hwords : 2 * words ≤ n) :
    before (stackAddress base n) words = stackAddress base (n - 2 * words) := by
  have hsplit : BitVec.ofNat 32 n =
      BitVec.ofNat 32 (n - 2 * words) + BitVec.ofNat 32 (2 * words) := by
    rw [← BitVec.ofNat_add, Nat.sub_add_cancel hwords]
  rw [before, stackAddress, hsplit, ← add_assoc, add_sub_cancel_right, stackAddress]

theorem stackAddress_succ (base : BitVec 32) (n : ℕ) :
    stackAddress base n + 1 = stackAddress base (n + 1) := by
  rw [stackAddress, stackAddress, BitVec.ofNat_add, add_assoc]
  rfl

theorem stackAddress_ne (hm : m < 2 ^ 32) (hn : n < 2 ^ 32) (hne : m ≠ n) :
    stackAddress base m ≠ stackAddress base n := by
  intro heq
  have hoffset := congrArg BitVec.toNat (add_left_cancel heq)
  rw [BitVec.toNat_ofNat, BitVec.toNat_ofNat, Nat.mod_eq_of_lt hm, Nat.mod_eq_of_lt hn] at hoffset
  exact hne hoffset

theorem below_eq {sp count : ℕ} (hsp : sp < 2 ^ 16) (hcount : count ≤ sp) :
    below sp count = sp - count := by
  rw [below]
  omega

/-- The two bytes of a word. -/
theorem bytes_append (word : BitVec 16) :
    ((word >>> 8).setWidth 8 : BitVec 8) ++ (word.setWidth 8 : BitVec 8) = word := by
  ext i hi
  simp only [BitVec.getElem_append]
  split_ifs with hlow
  · rw [BitVec.getElem_setWidth, BitVec.getLsbD_eq_getElem hi]
  · simp only [BitVec.getElem_setWidth, BitVec.getLsbD_ushiftRight]
    rw [show 8 + (i - 8) = i by omega, BitVec.getLsbD_eq_getElem hi]

theorem wordAt_putWord (address : BitVec 32) :
    wordAt (putWord memory address word) address = word := by
  have hne : address ≠ address + 1 := by
    rw [Ne, left_eq_add]
    decide
  rw [wordAt, putWord, Function.update_self, Function.update_of_ne hne, Function.update_self,
    bytes_append]

/-- A word leaves the other bytes of the segment alone. -/
theorem putWord_other (hm : m < 2 ^ 16) (hn : n < 2 ^ 16) (hother : m < n ∨ n + 2 ≤ m) :
    putWord memory (stackAddress base n) word (stackAddress base m) =
      memory (stackAddress base m) := by
  rw [putWord, stackAddress_succ,
    Function.update_of_ne (stackAddress_ne (by omega) (by omega) (by omega)),
    Function.update_of_ne (stackAddress_ne (by omega) (by omega) (by omega))]

/-- A word of equal bytes. -/
theorem wordAt_congr {other : ProgramMemory}
    (hfirst : other (stackAddress base n) = memory (stackAddress base n))
    (hsecond : other (stackAddress base (n + 1)) = memory (stackAddress base (n + 1))) :
    wordAt other (stackAddress base n) = wordAt memory (stackAddress base n) := by
  rw [wordAt, wordAt, stackAddress_succ, hfirst, hsecond]

theorem wordAt_putWord_other (hm : m + 1 < 2 ^ 16) (hn : n < 2 ^ 16)
    (hother : m + 2 ≤ n ∨ n + 2 ≤ m) :
    wordAt (putWord memory (stackAddress base n) word) (stackAddress base m) =
      wordAt memory (stackAddress base m) :=
  wordAt_congr (putWord_other (by omega) hn (by omega)) (putWord_other hm hn (by omega))

/-- What is there already is put back. -/
theorem putWord_wordAt (memory : ProgramMemory) (address : BitVec 32) :
    putWord memory address (wordAt memory address) = memory := by
  have hlow : (wordAt memory address).setWidth 8 = memory address :=
    BitVec.setWidth_append_eq_right
  have hhigh : (wordAt memory address >>> 8).setWidth 8 = memory (address + 1) := by
    have happend := bytes_append (wordAt memory address)
    rw [hlow] at happend
    exact (BitVec.append_left_inj _).mp happend
  rw [putWord, hlow, hhigh, Function.update_eq_self, Function.update_eq_self]

end Words

/-! ## The emulator's side -/

/-- The registers of a trap that the entry code and the signals use, with the low half of
the flags. -/
structure Trap where
  memory : ProgramMemory
  sigTable : ℕ → SigEnt
  esp : ℕ
  espAtSignal : ℕ
  cs : BitVec 16
  eip : BitVec 16
  eflags : BitVec 16

/-- What a system call leaves of them. -/
structure Served where
  memory : ProgramMemory
  sigTable : ℕ → SigEnt
  eflags : BitVec 16

/-- Where the program goes on, and its stack. -/
structure Resumed where
  memory : ProgramMemory
  sp : ℕ
  context : Context

section Emulator

variable (base : BitVec 32)

/-- `do_sig_pending`. -/
def doSigPending (trap : Trap) (nr : ℕ) : Trap :=
  let progstkladdr := stackAddress base (trap.esp % 2 ^ 16)
  let memory := putWord trap.memory (before progstkladdr 1) trap.eflags
  let memory := putWord memory (before progstkladdr 2) trap.cs
  { trap with
    memory := putWord memory (before progstkladdr 3) trap.eip
    sigTable := Function.update trap.sigTable nr SigEnt.zero
    esp := below trap.esp 6
    cs := (trap.sigTable nr).cs
    eip := (trap.sigTable nr).ip }

/-- The signals that the loop at the end of a call finds, in its order. -/
def pendingSignals (pending : Finset ℕ) : List ℕ :=
  (List.range' 1 (nsig - 1)).filter (· ∈ pending)

/-- The stack as `_x286syscall` hands it on: the return address is two words. -/
def narrowed (trap : Trap) : Trap :=
  let stkladdr := stackAddress base (trap.espAtSignal % 2 ^ 16)
  let memory := putWord trap.memory (before stkladdr 1) (wordAt trap.memory (before stkladdr 2))
  let memory := putWord memory (before stkladdr 2) (wordAt memory (before stkladdr 4))
  { trap with
    memory
    eip := wordAt memory (before stkladdr 2)
    cs := wordAt memory (before stkladdr 1) }

/-- The end of `_x286syscall`: the flags, "just in case we were interrupted", and the place. -/
def putBack (trap : Trap) : Trap :=
  let memory :=
    putWord trap.memory (before (stackAddress base (trap.espAtSignal % 2 ^ 16)) 1) trap.eflags
  let stkladdr := stackAddress base (trap.esp % 2 ^ 16)
  let memory := putWord memory (before stkladdr 2) trap.eip
  { trap with memory := putWord memory (before stkladdr 1) trap.cs }

/-- The registers after the call. -/
def Trap.after (trap : Trap) (served : Served) : Trap :=
  { trap with memory := served.memory, sigTable := served.sigTable, eflags := served.eflags }

/-- `_x286syscall`; `x286syscall` is what it does to the memory, the signals and the flags. -/
def x286syscallFrame (syscall : Trap → Served) (pending : Finset ℕ) (trap : Trap) : Trap :=
  let trap := narrowed base trap
  putBack base ((pendingSignals pending).foldl (doSigPending base) (trap.after (syscall trap)))

/-- The far call with its prefix. -/
def farCall (memory : ProgramMemory) (sp : ℕ) (context : Context) : ProgramMemory :=
  let memory := putWord memory (stackAddress base (below sp 2)) 0
  let memory := putWord memory (stackAddress base (below sp 4)) context.cs
  let memory := putWord memory (stackAddress base (below sp 6)) 0
  putWord memory (stackAddress base (below sp 8)) context.ip

/-- What `_x286syscall` gets from `__x286syscall` after a far call. -/
def trapped (memory : ProgramMemory) (sigTable : ℕ → SigEnt) (sp : ℕ) (context : Context) :
    Trap where
  memory := farCall base memory sp context
  sigTable := sigTable
  esp := below sp 8 + 8
  espAtSignal := below sp 8 + 8
  cs := 0
  eip := 0
  eflags := context.flags

/-- The end of `__x286syscall`, with its far return of two words. -/
def farReturn (trap : Trap) : Resumed :=
  let sp := (trap.esp + (2 ^ 32 - 4)) % 2 ^ 16
  { memory := trap.memory
    sp := (sp + 4) % 2 ^ 16
    context := ⟨trap.eflags, wordAt trap.memory (stackAddress base ((sp + 2) % 2 ^ 16)),
      wordAt trap.memory (stackAddress base sp)⟩ }

/-- `__x286syscall`, from the far call to the program. -/
def x286syscallBoot (syscall : Trap → Served) (pending : Finset ℕ) (memory : ProgramMemory)
    (sigTable : ℕ → SigEnt) (sp : ℕ) (context : Context) : Resumed :=
  farReturn base
    (x286syscallFrame base syscall pending (trapped base memory sigTable sp context))

/-- The return of a handler, which takes the place and the flags from the stack. -/
def handlerReturn (memory : ProgramMemory) (sp : ℕ) : Resumed where
  memory := memory
  sp := (sp + 6) % 2 ^ 16
  context :=
    ⟨wordAt memory (stackAddress base ((sp + 4) % 2 ^ 16)),
      wordAt memory (stackAddress base ((sp + 2) % 2 ^ 16)), wordAt memory (stackAddress base sp)⟩

/-- The program with handlers that do this to the memory: where it has been, and where it is
after the last. -/
def runHandlers : List (ProgramMemory → ProgramMemory) → Resumed → List Context × Resumed
  | [], resumed => ([], resumed)
  | handler :: handlers, resumed =>
      let (places, last) :=
        runHandlers handlers (handlerReturn base (handler resumed.memory) resumed.sp)
      (resumed.context :: places, last)

/-- No handler changes the stack from where it finds it. -/
def HandlersKeep : List (ProgramMemory → ProgramMemory) → Resumed → Prop
  | [], _ => True
  | handler :: handlers, resumed =>
      (∀ offset, resumed.sp ≤ offset → offset < 2 ^ 16 →
        handler resumed.memory (stackAddress base offset) =
          resumed.memory (stackAddress base offset)) ∧
      HandlersKeep handlers (handlerReturn base (handler resumed.memory) resumed.sp)

end Emulator

/-! ## The places on the stack -/

section Places

variable {base : BitVec 32} {memory other : ProgramMemory} {sp top : ℕ}
  {places : List Context} {trap : Trap} {state : SigState}

/-- The places lie on the stack from an offset to another, each below its flags. -/
def PlacesAt (base : BitVec 32) (memory : ProgramMemory) (top : ℕ) : ℕ → List Context → Prop
  | sp, [] => sp = top
  | sp, place :: places =>
      wordAt memory (stackAddress base sp) = place.ip ∧
      wordAt memory (stackAddress base (sp + 2)) = place.cs ∧
      wordAt memory (stackAddress base (sp + 4)) = place.flags ∧
      PlacesAt base memory top (sp + 6) places

/-- The bytes of the stack from an offset on are the same. -/
def SameFrom (base : BitVec 32) (sp : ℕ) (memory other : ProgramMemory) : Prop :=
  ∀ offset, sp ≤ offset → offset < 2 ^ 16 →
    other (stackAddress base offset) = memory (stackAddress base offset)

theorem SameFrom.trans {last : ProgramMemory} {high : ℕ} (hhigh : sp ≤ high)
    (hfirst : SameFrom base high memory other) (hsecond : SameFrom base sp other last) :
    SameFrom base high memory last := by
  intro offset hlow hend
  rw [hsecond offset (hhigh.trans hlow) hend, hfirst offset hlow hend]

/-- A word below leaves the stack as it is. -/
theorem sameFrom_putWord {word : BitVec 16} {n : ℕ} (hn : n + 2 ≤ sp) :
    SameFrom base sp memory (putWord memory (stackAddress base n) word) :=
  fun _ hoffset hend => putWord_other hend (by omega) (by omega)

theorem SameFrom.wordAt_eq (hsame : SameFrom base sp memory other) {n : ℕ} (hn : sp ≤ n)
    (hend : n + 1 < 2 ^ 16) :
    wordAt other (stackAddress base n) = wordAt memory (stackAddress base n) :=
  wordAt_congr (hsame n hn (by omega)) (hsame (n + 1) (by omega) hend)

theorem PlacesAt.size (hplaces : PlacesAt base memory top sp places) :
    sp + 6 * places.length = top := by
  induction places generalizing sp with
  | nil => exact hplaces
  | cons place places ih =>
      have hrest := ih hplaces.2.2.2
      rw [List.length_cons]
      omega

theorem PlacesAt.congr (hplaces : PlacesAt base memory top sp places)
    (hsame : SameFrom base sp memory other) (htop : top < 2 ^ 16) :
    PlacesAt base other top sp places := by
  induction places generalizing sp with
  | nil => exact hplaces
  | cons place places ih =>
      have hsize := hplaces.2.2.2.size
      obtain ⟨hip, hcs, hflags, hrest⟩ := hplaces
      refine ⟨?_, ?_, ?_, ih hrest fun offset hoffset => hsame offset (by omega)⟩
      · rw [hsame.wordAt_eq le_rfl (by omega), hip]
      · rw [hsame.wordAt_eq (by omega) (by omega), hcs]
      · rw [hsame.wordAt_eq (by omega) (by omega), hflags]

/-- The emulator's registers and the program's stack are those of the machine of signals, and
the word of the flags below the top is as it should be. -/
structure OnStack (base : BitVec 32) (top : ℕ) (trap : Trap) (state : SigState) : Prop where
  context : state.context = ⟨trap.eflags, trap.cs, trap.eip⟩
  table : state.sigTable = trap.sigTable
  places : PlacesAt base trap.memory top trap.esp state.stack
  flags : trap.esp = top ∨
    wordAt trap.memory (stackAddress base (top - 2)) = trap.eflags

/-- What `do_sig_pending` leaves on the stack. -/
theorem doSigPending_memory (hroom : 6 ≤ trap.esp) (hesp : trap.esp < 2 ^ 16) (nr : ℕ) :
    (doSigPending base trap nr).memory =
      putWord (putWord (putWord trap.memory (stackAddress base (trap.esp - 2)) trap.eflags)
        (stackAddress base (trap.esp - 4)) trap.cs) (stackAddress base (trap.esp - 6))
        trap.eip := by
  simp only [doSigPending]
  rw [Nat.mod_eq_of_lt hesp, before_stackAddress (by omega), before_stackAddress (by omega),
    before_stackAddress (by omega)]

theorem doSigPending_esp (hroom : 6 ≤ trap.esp) (hesp : trap.esp < 2 ^ 16) (nr : ℕ) :
    (doSigPending base trap nr).esp = trap.esp - 6 := below_eq hesp hroom

theorem sameFrom_doSigPending (hroom : 6 ≤ trap.esp) (hesp : trap.esp < 2 ^ 16) (nr : ℕ) :
    SameFrom base trap.esp trap.memory (doSigPending base trap nr).memory := by
  rw [doSigPending_memory hroom hesp]
  exact ((sameFrom_putWord (by omega)).trans le_rfl (sameFrom_putWord (by omega))).trans le_rfl
    (sameFrom_putWord (by omega))

/-- `do_sig_pending` does on the stack what the machine of signals does with its list. -/
theorem onStack_doSigPending (honStack : OnStack base top trap state) (hroom : 6 ≤ trap.esp)
    (htop : top < 2 ^ 16) (nr : ℕ) :
    OnStack base top (doSigPending base trap nr) (state.doSigPending nr) := by
  have hsize := honStack.places.size
  have hesp : trap.esp < 2 ^ 16 := by omega
  have hmemory : (doSigPending base trap nr).memory = _ := doSigPending_memory hroom hesp nr
  have hflags : wordAt (doSigPending base trap nr).memory (stackAddress base (trap.esp - 2)) =
      trap.eflags := by
    rw [hmemory, wordAt_putWord_other (by omega) (by omega) (by omega),
      wordAt_putWord_other (by omega) (by omega) (by omega), wordAt_putWord]
  refine ⟨?_, ?_, ?_, ?_⟩
  · simp only [SigState.doSigPending, honStack.context, honStack.table]
    rfl
  · simp only [SigState.doSigPending, honStack.table]
    rfl
  · rw [doSigPending_esp hroom hesp]
    refine ⟨?_, ?_, ?_, ?_⟩
    · rw [hmemory, wordAt_putWord, honStack.context]
    · rw [hmemory, show trap.esp - 6 + 2 = trap.esp - 4 by omega,
        wordAt_putWord_other (by omega) (by omega) (by omega), wordAt_putWord, honStack.context]
    · rw [show trap.esp - 6 + 4 = trap.esp - 2 by omega, hflags, honStack.context]
    · rw [Nat.sub_add_cancel hroom]
      exact honStack.places.congr (sameFrom_doSigPending hroom hesp nr) htop
  · right
    obtain hplace | hplace := honStack.flags
    · rw [← hplace, hflags]
      rfl
    · by_cases hempty : trap.esp = top
      · rw [← hempty, hflags]
        rfl
      · have hlength : 0 < state.stack.length := by omega
        rw [(sameFrom_doSigPending hroom hesp nr).wordAt_eq (by omega) (by omega), hplace]
        rfl

/-- The loop over the pending signals. -/
theorem onStack_pending (signals : List ℕ) (honStack : OnStack base top trap state)
    (hroom : 6 * signals.length ≤ trap.esp) (htop : top < 2 ^ 16) :
    OnStack base top (signals.foldl (doSigPending base) trap)
        (signals.foldl SigState.doSigPending state) ∧
      SameFrom base trap.esp trap.memory (signals.foldl (doSigPending base) trap).memory ∧
      (signals.foldl (doSigPending base) trap).esp = trap.esp - 6 * signals.length ∧
      (signals.foldl (doSigPending base) trap).espAtSignal = trap.espAtSignal := by
  induction signals generalizing trap state with
  | nil => exact ⟨honStack, fun _ _ _ => rfl, rfl, rfl⟩
  | cons nr signals ih =>
      rw [List.length_cons] at hroom
      have hsize := honStack.places.size
      have hsix : 6 ≤ trap.esp := by omega
      have hesp : trap.esp < 2 ^ 16 := by omega
      have hnext : (doSigPending base trap nr).esp = trap.esp - 6 :=
        doSigPending_esp hsix hesp nr
      obtain ⟨hon, hsame, hdown, hsignal⟩ := ih
        (onStack_doSigPending honStack hsix htop nr) (by omega)
      refine ⟨hon, (sameFrom_doSigPending hsix hesp nr).trans (by omega) hsame, ?_, hsignal⟩
      rw [List.foldl_cons, hdown, hnext, List.length_cons]
      omega

end Places

/-! ## Calls and their returns -/

section Calls

variable {base : BitVec 32} {memory : ProgramMemory} {sp top : ℕ} {context : Context}
  {places : List Context} {trap : Trap} {state : SigState} {resumed : Resumed}

/-- What a system call finds: the place it has come from, and the stack as the program has
left it. -/
structure CalledFrom (base : BitVec 32) (memory : ProgramMemory) (sp : ℕ) (context : Context)
    (trap : Trap) : Prop where
  cs : trap.cs = context.cs
  eip : trap.eip = context.ip
  eflags : trap.eflags = context.flags
  esp : trap.esp = sp
  espAtSignal : trap.espAtSignal = sp
  memory : SameFrom base sp memory trap.memory

theorem farCall_eq (hroom : 8 ≤ sp) (hsp : sp < 2 ^ 16) :
    farCall base memory sp context =
      putWord (putWord (putWord (putWord memory (stackAddress base (sp - 2)) 0)
        (stackAddress base (sp - 4)) context.cs) (stackAddress base (sp - 6)) 0)
        (stackAddress base (sp - 8)) context.ip := by
  simp only [farCall]
  rw [below_eq hsp (by omega), below_eq hsp (by omega), below_eq hsp (by omega),
    below_eq hsp hroom]

/-- The longs of the far call become the words of the place. -/
theorem calledFrom_narrowed (hroom : 8 ≤ sp) (hsp : sp < 2 ^ 16) (sigTable : ℕ → SigEnt) :
    CalledFrom base memory sp context
      (narrowed base (trapped base memory sigTable sp context)) := by
  have hesp : below sp 8 + 8 = sp := by
    rw [below_eq hsp hroom, Nat.sub_add_cancel hroom]
  have hcs : wordAt (farCall base memory sp context) (stackAddress base (sp - 4)) =
      context.cs := by
    rw [farCall_eq hroom hsp, wordAt_putWord_other (by omega) (by omega) (by omega),
      wordAt_putWord_other (by omega) (by omega) (by omega), wordAt_putWord]
  have hip : wordAt (farCall base memory sp context) (stackAddress base (sp - 8)) =
      context.ip := by
    rw [farCall_eq hroom hsp, wordAt_putWord]
  have hcall : SameFrom base sp memory (farCall base memory sp context) := by
    rw [farCall_eq hroom hsp]
    exact (((sameFrom_putWord (by omega)).trans le_rfl (sameFrom_putWord (by omega))).trans
      le_rfl (sameFrom_putWord (by omega))).trans le_rfl (sameFrom_putWord (by omega))
  simp only [narrowed, trapped, hesp, Nat.mod_eq_of_lt hsp]
  rw [before_stackAddress (by omega), before_stackAddress (by omega),
    before_stackAddress (by omega), show sp - 2 * 1 = sp - 2 by omega,
    show sp - 2 * 2 = sp - 4 by omega, show sp - 2 * 4 = sp - 8 by omega, hcs]
  refine ⟨?_, ?_, rfl, rfl, rfl, ?_⟩
  · exact (wordAt_putWord_other (by omega) (by omega) (by omega)).trans (wordAt_putWord _)
  · refine (wordAt_putWord _).trans ?_
    rw [wordAt_putWord_other (by omega) (by omega) (by omega), hip]
  · exact (hcall.trans le_rfl (sameFrom_putWord (by omega))).trans le_rfl
      (sameFrom_putWord (by omega))

/-- The program goes on at the place in the registers, and the places on the stack stay. -/
theorem farReturn_putBack (honStack : OnStack base top trap state)
    (hsignal : trap.espAtSignal = top) (hroom : 4 ≤ trap.esp) (htop : top < 2 ^ 16) :
    (farReturn base (putBack base trap)).context = state.context ∧
      (farReturn base (putBack base trap)).sp = trap.esp ∧
      SameFrom base trap.esp trap.memory (farReturn base (putBack base trap)).memory := by
  have hsize := honStack.places.size
  have hesp : trap.esp < 2 ^ 16 := by omega
  have hdown : (trap.esp + (2 ^ 32 - 4)) % 2 ^ 16 = trap.esp - 4 := by omega
  have hmemory : (putBack base trap).memory =
      putWord (putWord (putWord trap.memory (stackAddress base (top - 2)) trap.eflags)
        (stackAddress base (trap.esp - 4)) trap.eip) (stackAddress base (trap.esp - 2))
        trap.cs := by
    simp only [putBack]
    rw [hsignal, Nat.mod_eq_of_lt hesp, Nat.mod_eq_of_lt htop, before_stackAddress (by omega),
      before_stackAddress (by omega), before_stackAddress (by omega)]
  have hflags : SameFrom base trap.esp trap.memory
      (putWord trap.memory (stackAddress base (top - 2)) trap.eflags) := by
    obtain hplace | hplace := honStack.flags
    · exact sameFrom_putWord (by omega)
    · rw [← hplace, putWord_wordAt]
      exact fun _ _ _ => rfl
  refine ⟨?_, ?_, ?_⟩
  · rw [honStack.context]
    simp only [farReturn]
    rw [show (putBack base trap).esp = trap.esp from rfl, hdown, hmemory,
      show (trap.esp - 4 + 2) % 2 ^ 16 = trap.esp - 2 by omega, wordAt_putWord,
      wordAt_putWord_other (by omega) (by omega) (by omega), wordAt_putWord]
    rfl
  · simp only [farReturn]
    rw [show (putBack base trap).esp = trap.esp from rfl, hdown]
    omega
  · simp only [farReturn]
    rw [hmemory]
    exact (hflags.trans le_rfl (sameFrom_putWord (by omega))).trans le_rfl
      (sameFrom_putWord (by omega))

/-- A handler returns to the first place on the stack. -/
theorem handlerReturn_places {place : Context}
    (hplaces : PlacesAt base memory top sp (place :: places)) (htop : top < 2 ^ 16) :
    handlerReturn base memory sp = ⟨memory, sp + 6, place⟩ := by
  have hsize := hplaces.size
  rw [List.length_cons] at hsize
  obtain ⟨hip, hcs, hflags, -⟩ := hplaces
  rw [handlerReturn, Nat.mod_eq_of_lt (by omega), Nat.mod_eq_of_lt (by omega),
    Nat.mod_eq_of_lt (by omega), hip, hcs, hflags]

/-- The handlers run one after the other, in the order of the places on the stack. -/
theorem runHandlers_places (handlers : List (ProgramMemory → ProgramMemory))
    (hplaces : PlacesAt base resumed.memory top resumed.sp places) (htop : top < 2 ^ 16)
    (hlength : handlers.length = places.length)
    (hkeep : HandlersKeep base handlers resumed) :
    (runHandlers base handlers resumed).1 ++ [(runHandlers base handlers resumed).2.context] =
        resumed.context :: places ∧
      (runHandlers base handlers resumed).2.sp = top ∧
      SameFrom base top resumed.memory (runHandlers base handlers resumed).2.memory := by
  induction handlers generalizing resumed places with
  | nil =>
      obtain rfl := List.length_eq_zero_iff.mp hlength.symm
      exact ⟨rfl, hplaces, fun _ _ _ => rfl⟩
  | cons handler handlers ih =>
      obtain _ | ⟨place, places⟩ := places
      · cases hlength
      have hsize := hplaces.size
      obtain ⟨hsame, hrest⟩ := hkeep
      have hafter := hplaces.congr hsame htop
      have hreturn := handlerReturn_places hafter htop
      have hnext : PlacesAt base (handlerReturn base (handler resumed.memory) resumed.sp).memory
          top (handlerReturn base (handler resumed.memory) resumed.sp).sp places := by
        rw [hreturn]
        exact hafter.2.2.2
      obtain ⟨hvisited, hsp, hmemory⟩ := ih hnext (Nat.succ.inj hlength) hrest
      rw [hreturn] at hvisited hsp hmemory
      simp only [runHandlers]
      rw [hreturn]
      refine ⟨?_, hsp, ?_⟩
      · rw [List.cons_append, hvisited]
      · intro offset hlow hend
        rw [hmemory offset hlow hend]
        exact hsame offset (by omega) hend

/-- The place of a handler that a signal is passed on to. -/
def handlerPlace (flags : BitVec 16) (sigTable : ℕ → SigEnt) (nr : ℕ) : Context :=
  ⟨flags, (sigTable nr).cs, (sigTable nr).ip⟩

/-- The places that the machine of signals keeps after passing on these. -/
theorem foldl_doSigPending_places {signals : List ℕ} (hnodup : signals.Nodup) :
    (signals.foldl SigState.doSigPending state).context ::
        (signals.foldl SigState.doSigPending state).stack =
      signals.reverse.map (handlerPlace state.context.flags state.sigTable) ++
        state.context :: state.stack := by
  induction signals generalizing state with
  | nil => rfl
  | cons nr signals ih =>
      obtain ⟨hnot, hnodup⟩ := List.nodup_cons.mp hnodup
      have hothers : signals.reverse.map (handlerPlace (state.doSigPending nr).context.flags
          (state.doSigPending nr).sigTable) =
            signals.reverse.map (handlerPlace state.context.flags state.sigTable) := by
        apply List.map_congr_left
        intro other hother
        have hne : other ≠ nr := by
          rintro rfl
          exact hnot (List.mem_reverse.mp hother)
        simp only [handlerPlace, SigState.doSigPending, Function.update_of_ne hne]
      rw [List.foldl_cons, ih hnodup, hothers, List.reverse_cons, List.map_append,
        List.append_assoc]
      rfl

theorem pendingSignals_nodup (pending : Finset ℕ) : (pendingSignals pending).Nodup :=
  List.Nodup.filter _ List.nodup_range'

/-- A call comes back: each pending signal's handler runs once, the one with the highest
number first, then the program goes on behind its call, with the call's flags, its stack
pointer, and the stack that the call has left. -/
structure ReturnsThrough (base : BitVec 32) (served : Served) (sp : ℕ) (context : Context)
    (signals : List ℕ) (visited : List Context × Resumed) : Prop where
  handlers : visited.1 = signals.reverse.map (handlerPlace served.eflags served.sigTable)
  caller : visited.2.context = ⟨served.eflags, context.cs, context.ip⟩
  stack : visited.2.sp = sp
  memory : SameFrom base sp served.memory visited.2.memory

/-- The machine of signals at the end of a call that has served the program; nothing here
reads its segments. -/
def atReturn (served : Served) (context : Context) : SigState where
  phase := .loop 1
  sigTable := served.sigTable
  pending := ∅
  kernel _ := .dfl
  segments := ⟨fun _ => ⟨0, -1, 0, 0, 0⟩, 0, 0⟩
  context := ⟨served.eflags, context.cs, context.ip⟩
  stack := []
  answer := ⟨0, none, false⟩
  ledger := ⟨fun _ => ∅, fun _ => none, fun _ => 0, fun _ => false, fun _ => 0⟩

theorem onStack_atReturn (hcalled : CalledFrom base memory sp context trap) (served : Served) :
    OnStack base sp (trap.after served) (atReturn served context) where
  context := by
    rw [atReturn, ← hcalled.cs, ← hcalled.eip]
    rfl
  table := rfl
  places := hcalled.esp
  flags := .inl hcalled.esp

/-- The way back from a call, through the handlers of these signals. -/
theorem returnsThrough_signals {signals : List ℕ} {served : Served}
    {handlers : List (ProgramMemory → ProgramMemory)}
    (hcalled : CalledFrom base memory sp context trap)
    (hroom : 6 * signals.length + 8 ≤ sp) (hsp : sp < 2 ^ 16) (hnodup : signals.Nodup)
    (hlength : handlers.length = signals.length)
    (hresumed : farReturn base
      (putBack base (signals.foldl (doSigPending base) (trap.after served))) = resumed)
    (hkeep : HandlersKeep base handlers resumed) :
    ReturnsThrough base served sp context signals (runHandlers base handlers resumed) := by
  obtain ⟨honStack, hfrom, hdown, hsignal⟩ := onStack_pending signals
    (onStack_atReturn hcalled served) (by rw [Trap.after, hcalled.esp]; omega) hsp
  rw [show (trap.after served).esp = sp from hcalled.esp] at hfrom hdown
  rw [show (trap.after served).espAtSignal = sp from hcalled.espAtSignal] at hsignal
  obtain ⟨hcontext, hplace, hback⟩ :=
    farReturn_putBack honStack hsignal (by rw [hdown]; omega) hsp
  rw [hresumed] at hcontext hplace hback
  have hplaces := honStack.places.congr hback hsp
  have hsize := honStack.places.size
  rw [← hplace] at hplaces
  obtain ⟨hvisited, hstack, hmemory⟩ :=
    runHandlers_places handlers hplaces hsp (by omega) hkeep
  rw [hcontext, foldl_doSigPending_places hnodup] at hvisited
  obtain ⟨hhandlers, hcaller⟩ := List.append_inj' hvisited rfl
  refine ⟨hhandlers, List.head_eq_of_cons_eq hcaller, hstack, ?_⟩
  intro offset hlow hend
  rw [hmemory offset hlow hend, hback offset (by omega) hend, hfrom offset hlow hend]
  rfl

/-- A system call with room on its stack finds the program as it was, and comes back through
the handlers of the signals that are pending at its end. -/
theorem x286syscall_returns (syscall : Trap → Served) (pending : Finset ℕ)
    (sigTable : ℕ → SigEnt) (handlers : List (ProgramMemory → ProgramMemory))
    (hroom : 6 * (pendingSignals pending).length + 8 ≤ sp) (hsp : sp < 2 ^ 16)
    (hlength : handlers.length = (pendingSignals pending).length)
    (hkeep : HandlersKeep base handlers
      (x286syscallBoot base syscall pending memory sigTable sp context)) :
    ∃ trap, CalledFrom base memory sp context trap ∧
      ReturnsThrough base (syscall trap) sp context (pendingSignals pending)
        (runHandlers base handlers
          (x286syscallBoot base syscall pending memory sigTable sp context)) := by
  have hcalled : CalledFrom base memory sp context
      (narrowed base (trapped base memory sigTable sp context)) :=
    calledFrom_narrowed (by omega) hsp sigTable
  exact ⟨_, hcalled, returnsThrough_signals hcalled hroom hsp (pendingSignals_nodup pending)
    hlength rfl hkeep⟩

/-- A call after which two signals are pending, with handlers that leave the stack alone. -/
theorem x286syscall_returns_twice :
    ∃ trap, CalledFrom 0x1000 (fun _ => 0) 0x400 ⟨0x202, 7, 0x50⟩ trap ∧
      ReturnsThrough 0x1000 ⟨trap.memory, fun nr => ⟨1, 7, BitVec.ofNat 16 nr⟩, 0x203⟩ 0x400
        ⟨0x202, 7, 0x50⟩ [2, 15]
        (runHandlers 0x1000 [id, id]
          (x286syscallBoot 0x1000
            (fun trap => ⟨trap.memory, fun nr => ⟨1, 7, BitVec.ofNat 16 nr⟩, 0x203⟩) {2, 15}
            (fun _ => 0) (fun _ => SigEnt.zero) 0x400 ⟨0x202, 7, 0x50⟩)) := by
  have hsignals : pendingSignals {2, 15} = [2, 15] := by decide
  rw [← hsignals]
  refine x286syscall_returns _ _ _ _ ?_ (by decide) ?_ ?_
  · rw [hsignals]
    decide
  · rw [hsignals]
    rfl
  · exact ⟨fun _ _ _ => rfl, fun _ _ _ => rfl, trivial⟩

end Calls

end IbcsUs.X286.EntryCode
