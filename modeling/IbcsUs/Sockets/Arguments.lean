import IbcsUs.Core.WordMemory
import IbcsUs.Sockets.Options

/-!
# The argument block of the socket calls

A program issues a socket call by a block of words: the number of the command and
its arguments.  Some commands are translated in the block itself before the kernel
is handed its address, others in locals.
-/

namespace IbcsUs.Sockets.Arguments

open IbcsUs.Sysent IbcsUs.Sockets IbcsUs.WordMemory

/-- An argument, counted from 0; the command stands before them. -/
def argAt (base : BitVec 32) (index : ℕ) : BitVec 32 :=
  base + BitVec.ofNat 32 (4 * (index + 1))

def argWord (memory : Memory) (base : BitVec 32) (index : ℕ) : BitVec 32 :=
  readWord memory (argAt base index)

/-- The bytes of the command and of six arguments. -/
def InBlock (base address : BitVec 32) : Prop := (address - base).toNat < 28

/-- So many bytes from an address on. -/
def bytesFrom (start : BitVec 32) (count : ℕ) : Set (BitVec 32) :=
  {address | (address - start).toNat < count}

/-! ## The kernel's side -/

/-- What is asked of the kernel: `socketcall` with the words it reads from the block,
another system call, or the calls that put a socket pair in the place of two
descriptors. -/
inductive Request where
  | socketcall (call : ℕ) (args : List (BitVec 32))
  | syscall (number : ℕ) (args : List (BitVec 32))
  | pair (left right : BitVec 32)
  deriving DecidableEq

def sysSocket : ℕ := 1
def sysBind : ℕ := 2
def sysConnect : ℕ := 3
def sysListen : ℕ := 4
def sysAccept : ℕ := 5
def sysGetsockname : ℕ := 6
def sysGetpeername : ℕ := 7
def sysSend : ℕ := 9
def sysRecv : ℕ := 10
def sysSendto : ℕ := 11
def sysRecvfrom : ℕ := 12
def sysShutdown : ℕ := 13
def sysSetsockopt : ℕ := 14
def sysGetsockopt : ℕ := 15
def sysSendmsg : ℕ := 16
def sysRecvmsg : ℕ := 17

/-- The number of words that `socketcall` reads. -/
def socketcallArgs (call : ℕ) : ℕ :=
  if call = sysListen ∨ call = sysShutdown then 2
  else if call = sysSend ∨ call = sysRecv then 4
  else if call = sysSetsockopt ∨ call = sysGetsockopt then 5
  else if call = sysSendto ∨ call = sysRecvfrom then 6
  else 3

/-- The kernel: its answer and the memory it leaves, where it stores results only in
the buffers that the request leads to.  Creating a socket and setting an option have
none. -/
structure Kernel where
  answer : Request → Memory → ℤ × Memory
  results : Request → Memory → Set (BitVec 32)
  frame : ∀ request memory address, address ∉ results request memory →
    (answer request memory).2 address = memory address
  silent : ∀ call args memory, call = sysSocket ∨ call = sysSetsockopt →
    results (.socketcall call args) memory = ∅

/-- What a command leads to: its result, the memory of the program, the request made
of the kernel, and the buffers for results. -/
structure Outcome where
  result : ℤ
  memory : Memory
  request : Option Request
  results : Set (BitVec 32)

/-- The kernel is asked. -/
def ask (kernel : Kernel) (memory : Memory) (request : Request) : Outcome :=
  let answered := kernel.answer request memory
  ⟨answered.1, answered.2, some request, kernel.results request memory⟩

/-- `SYS(socketcall, call, sp)`. -/
def socketcall (kernel : Kernel) (memory : Memory) (base : BitVec 32)
    (call : ℕ) : Outcome :=
  ask kernel memory (.socketcall call
    ((List.range (socketcallArgs call)).map (argWord memory base)))

/-- A system call with the first words of the block. -/
def syscall (kernel : Kernel) (memory : Memory) (base : BitVec 32)
    (number count : ℕ) : Outcome :=
  ask kernel memory (.syscall number
    ((List.range count).map (argWord memory base)))

/-- A command that asks nothing of the kernel and stores nothing. -/
def plain (memory : Memory) (result : ℤ) : Outcome := ⟨result, memory, none, ∅⟩

/-! ## The emulator's side -/

/-- `struct new_utsname`, as far as it is used: texts of at most 64 bytes. -/
structure Utsname where
  nodename : List (BitVec 8)
  domainname : List (BitVec 8)

/-- The character `.`. -/
def dot : BitVec 8 := 46

/-- The text `(none)`. -/
def noDomain : List (BitVec 8) := [40, 110, 111, 110, 101, 41]

/-- The domain: what follows the first dot of the node's name, or else the domain's
name. -/
def ipdomain (utsname : Utsname) : List (BitVec 8) :=
  match utsname.nodename.dropWhile (· ≠ dot) with
  | [] => utsname.domainname
  | _ :: domain => domain

/-- Bytes are stored from an address on. -/
def storeText (memory : Memory) (start : BitVec 32) (text : List (BitVec 8)) :
    Memory :=
  fun address => text.getD (address - start).toNat (memory address)

section Code

variable (kernel : Kernel) (maps : SocketMaps) (memory : Memory)
  (base : BitVec 32)

/-- The translation of `socksys_socket`, in the block. -/
def socketEdits : Memory :=
  let family := argWord memory base 0
  let memory := writeWord memory (argAt base 0) (mapInt maps.af family)
  let type := argWord memory base 1
  writeWord memory (argAt base 1) (mapInt maps.socktype type)

/-- `socksys_socket`. -/
def socksysSocket : Outcome :=
  socketcall kernel (socketEdits maps memory base) base sysSocket

/-- The translation of `abi_do_setsockopt` and `abi_do_getsockopt`, in the block. -/
def optionEdits : Memory :=
  let level := argWord memory base 1
  let optname := argWord memory base 2
  if level = 0 then
    match ipOption optname with
    | none => memory
    | some optname => writeWord memory (argAt base 2) optname
  else if level = 0xffff then
    writeWord (writeWord memory (argAt base 1) solSocket) (argAt base 2)
      (mapInt maps.sockopt optname)
  else memory

/-- `abi_do_setsockopt`. -/
def setsockopt : Outcome :=
  let level := argWord memory base 1
  let optname := argWord memory base 2
  let memory := optionEdits maps memory base
  match abiDoSetsockopt maps level optname (argWord memory base 4) with
  | .answered answer => plain memory answer.result
  | .request _ _ => socketcall kernel memory base sysSetsockopt

/-- A faked value is stored. -/
def storeAnswer (memory : Memory) (optval optlen : BitVec 32)
    (answer : OptionAnswer) : Outcome :=
  let valued := answer.value.elim memory fun value =>
    writeWord memory optval value.1
  let lengthed := answer.length.elim valued fun length =>
    writeWord valued optlen length
  ⟨answer.result, lengthed, none, bytesFrom optval 4 ∪ bytesFrom optlen 4⟩

/-- `abi_do_getsockopt`. -/
def getsockopt : Outcome :=
  let level := argWord memory base 1
  let optname := argWord memory base 2
  let optval := argWord memory base 3
  let optlen := argWord memory base 4
  let memory := optionEdits maps memory base
  match abiDoGetsockopt maps level optname (readWord memory optlen) with
  | .answered answer => storeAnswer memory optval optlen answer
  | .request _ _ => socketcall kernel memory base sysGetsockopt

/-- The address that `socksys_getipdomain` stores at: of the argument it reads one
byte, a signed one. -/
def ipdomainName : BitVec 32 := (memory (argAt base 0)).signExtend 32

/-- The bytes that `socksys_getipdomain` stores. -/
def ipdomainText (utsname : Utsname) : List (BitVec 8) :=
  let len := argWord memory base 1 - 1
  let domain := ipdomain utsname
  (if domain = noDomain then [] else domain.take len.toInt.toNat) ++ [0]

/-- The buffer that the arguments of `getipdomain` point to. -/
def ipdomainBuffer : Set (BitVec 32) :=
  bytesFrom (argWord memory base 0) (argWord memory base 1).toInt.toNat

/-- `socksys_getipdomain`. -/
def getipdomain (utsname : Utsname) : Outcome :=
  ⟨0, storeText memory (ipdomainName memory base)
    (ipdomainText memory base utsname), none, ipdomainBuffer memory base⟩

/-- The result of `socksys_setipdomain`, which changes the emulator's copy of the
names only; `answer` is that of `linux26_capability`. -/
def setipdomainResult (utsname : Utsname) (answer : ℤ) : ℤ :=
  if answer ≠ 0 then -1
  else
    let node := utsname.nodename.takeWhile (· ≠ dot)
    let taken := if node = utsname.nodename then node.length else node.length + 1
    if (argWord memory base 1).toInt ≤ 64 - taken then 0 else -einval

/-- `socksys_syscall`, for a block whose first word is the command. -/
def socksysSyscall (utsname : Utsname) (answer : ℤ) : Outcome :=
  match (readWord memory base).toNat with
  | 1 => socketcall kernel memory base sysAccept
  | 2 => socketcall kernel memory base sysBind
  | 3 => socketcall kernel memory base sysConnect
  | 4 => socketcall kernel memory base sysGetpeername
  | 5 => socketcall kernel memory base sysGetsockname
  | 6 => getsockopt kernel maps memory base
  | 7 => socketcall kernel memory base sysListen
  | 8 => socketcall kernel memory base sysRecv
  | 9 => socketcall kernel memory base sysRecvfrom
  | 10 => socketcall kernel memory base sysSend
  | 11 => socketcall kernel memory base sysSendto
  | 12 => setsockopt kernel maps memory base
  | 13 => socketcall kernel memory base sysShutdown
  | 14 => socksysSocket kernel maps memory base
  | 16 => getipdomain memory base utsname
  | 17 => plain memory (setipdomainResult memory base utsname answer)
  | 19 => syscall kernel memory base 70 2
  | 20 => syscall kernel memory base 71 2
  | 21 => syscall kernel memory base 78 2
  | 22 => syscall kernel memory base 79 2
  | 23 => syscall kernel memory base 105 2
  | 24 => syscall kernel memory base 104 3
  | 25 => socketcall kernel memory base sysRecvmsg
  | 26 => socketcall kernel memory base sysSendmsg
  | 27 => ask kernel memory
      (.pair (argWord memory base 0) (argWord memory base 1))
  | _ => plain memory (-einval)

/-! ## What is asked -/

/-- The argument block keeps its bytes, where no buffer for results lies over it. -/
def BlockKept (outcome : Outcome) : Prop :=
  ∀ address, InBlock base address → address ∉ outcome.results →
    outcome.memory address = memory address

/-- The memory for a second call with the block the first has left, and everything
else as it was before. -/
noncomputable def issuedAgain (outcome : Outcome) : Memory := fun address =>
  open Classical in
  if InBlock base address ∧ address ∉ outcome.results then
    outcome.memory address
  else memory address

/-- The block is left as it was, and issued again it makes the same request. -/
structure ArgumentsKept (utsname : Utsname) (answer : ℤ) : Prop where
  kept : BlockKept memory base
    (socksysSyscall kernel maps memory base utsname answer)
  again : (socksysSyscall kernel maps
      (issuedAgain memory base
        (socksysSyscall kernel maps memory base utsname answer))
      base utsname answer).request =
    (socksysSyscall kernel maps memory base utsname answer).request

/-- The level and the option are not translated: the level is one that the switch
leaves alone, or the option is refused. -/
def OptionStays (level optname : BitVec 32) : Prop :=
  level ≠ 0xffff ∧ (level = 0 → ipOption optname = none)

/-- The commands that leave their block as it was: a socket whose family and type
mean the same in the kernel; an option that is not translated, or is translated
inside the buffers of its own result; a domain name that does not end up in the
block. -/
@[mk_iff]
structure ArgumentsMeet (utsname : Utsname) : Prop where
  socket : (readWord memory base).toNat = 14 →
    mapInt maps.af (argWord memory base 0) = argWord memory base 0 ∧
      mapInt maps.socktype (argWord memory base 1) = argWord memory base 1
  setsockopt : (readWord memory base).toNat = 12 →
    OptionStays (argWord memory base 1) (argWord memory base 2)
  getsockopt : (readWord memory base).toNat = 6 →
    OptionStays (argWord memory base 1) (argWord memory base 2) ∨
      ∀ address, InBlock base address →
        address ∉ (getsockopt kernel maps memory base).results →
        optionEdits maps memory base address = memory address
  getipdomain : (readWord memory base).toNat = 16 →
    ∀ address, InBlock base address → address ∉ ipdomainBuffer memory base →
      ∀ byte, (ipdomainText memory base utsname)[(address -
        ipdomainName memory base).toNat]? = some byte → byte = memory address

end Code

/-! ## Words of the block -/

theorem inBlock_argAt {base offset : BitVec 32} {index : ℕ} (hindex : index < 6)
    (hoffset : offset.toNat < 4) : InBlock base (argAt base index + offset) := by
  have hplace : argAt base index + offset - base =
      BitVec.ofNat 32 (4 * (index + 1)) + offset := by
    rw [argAt, add_assoc, add_sub_cancel_left]
  rw [InBlock, hplace, BitVec.toNat_add, BitVec.toNat_ofNat]
  omega

theorem apart_args {left right : ℕ} (hleft : left < 6) (hright : right < 6)
    (hne : left ≠ right) (base : BitVec 32) :
    Apart (argAt base left) (argAt base right) := by
  rw [argAt, argAt, apart_offsets]
  simp only [Apart, BitVec.toNat_sub, BitVec.toNat_ofNat]
  omega

@[simp]
theorem argWord_writeWord (memory : Memory) (base value : BitVec 32)
    (index : ℕ) :
    argWord (writeWord memory (argAt base index) value) base index = value :=
  readWord_writeWord

theorem argWord_writeWord_of_ne {left right : ℕ} (hleft : left < 6)
    (hright : right < 6) (hne : left ≠ right) (memory : Memory)
    (base value : BitVec 32) :
    argWord (writeWord memory (argAt base left) value) base right =
      argWord memory base right :=
  readWord_writeWord_of_apart (apart_args hleft hright hne base)

/-- Bytes that agree on the block make the same words. -/
theorem argWord_congr {memory other : Memory} {base : BitVec 32} {index : ℕ}
    (hindex : index < 6)
    (hsame : ∀ address, InBlock base address → other address = memory address) :
    argWord other base index = argWord memory base index := by
  have hbyte : ∀ offset : BitVec 32, offset.toNat < 4 →
      other (argAt base index + offset) = memory (argAt base index + offset) :=
    fun offset hoffset => hsame _ (inBlock_argAt hindex hoffset)
  have hzero := hbyte 0 (by decide)
  rw [add_zero] at hzero
  simp only [argWord, readWord]
  rw [hzero, hbyte 1 (by decide), hbyte 2 (by decide), hbyte 3 (by decide)]

/-! ## What the translations change -/

section Edits

variable {maps : SocketMaps} {memory : Memory} {base : BitVec 32}

/-- The translation of a socket leaves the block as it is exactly when the family and
the type stand for themselves. -/
theorem socketEdits_kept_iff :
    (∀ address, InBlock base address →
      socketEdits maps memory base address = memory address) ↔
      mapInt maps.af (argWord memory base 0) = argWord memory base 0 ∧
        mapInt maps.socktype (argWord memory base 1) = argWord memory base 1 := by
  have htype (family : BitVec 32) :
      argWord (writeWord memory (argAt base 0) family) base 1 =
        argWord memory base 1 :=
    argWord_writeWord_of_ne (by decide) (by decide) (by decide) memory base family
  simp only [socketEdits, htype]
  constructor
  · intro hkept
    have hfirst := argWord_congr (show 0 < 6 by decide) hkept
    have hsecond := argWord_congr (show 1 < 6 by decide) hkept
    rw [argWord_writeWord_of_ne (by decide) (by decide) (by decide),
      argWord_writeWord] at hfirst
    rw [argWord_writeWord] at hsecond
    exact ⟨hfirst, hsecond⟩
  · rintro ⟨hfamily, hsame⟩ address -
    have hself (index : ℕ) : writeWord memory (argAt base index)
        (argWord memory base index) = memory := writeWord_self memory _
    rw [hfamily, hself, hsame, hself]

/-- No option of `IPPROTO_IP` stands for itself. -/
theorem ipOption_ne {optname option : BitVec 32}
    (hoption : ipOption optname = some option) : option ≠ optname := by
  rw [ipOption] at hoption
  simp only at hoption
  split_ifs at hoption
  all_goals
    cases hoption
    bv_omega

theorem optionEdits_of_stays
    (hstays : OptionStays (argWord memory base 1) (argWord memory base 2)) :
    optionEdits maps memory base = memory := by
  rw [optionEdits]
  split_ifs with hzero hsocket
  · rw [hstays.2 hzero]
  · exact absurd hsocket hstays.1
  · rfl

variable (maps) in
/-- The translation of an option leaves the block as it is exactly when there is
none. -/
theorem optionEdits_kept_iff :
    (∀ address, InBlock base address →
      optionEdits maps memory base address = memory address) ↔
      OptionStays (argWord memory base 1) (argWord memory base 2) := by
  constructor
  · intro hkept
    have hlevel := argWord_congr (show 1 < 6 by decide) hkept
    have hoptname := argWord_congr (show 2 < 6 by decide) hkept
    refine ⟨fun hsocket => ?_, fun hzero => ?_⟩
    · have hnonzero : argWord memory base 1 ≠ 0 := by
        rw [hsocket]
        decide
      rw [optionEdits, if_neg hnonzero, if_pos hsocket,
        argWord_writeWord_of_ne (by decide) (by decide) (by decide),
        argWord_writeWord, hsocket] at hlevel
      exact absurd hlevel (by decide)
    · cases hoption : ipOption (argWord memory base 2) with
      | none => rfl
      | some option =>
        simp only [optionEdits, if_pos hzero, hoption] at hoptname
        rw [argWord_writeWord] at hoptname
        exact absurd hoptname (ipOption_ne hoption)
  · intro hstays address _
    rw [optionEdits_of_stays hstays]

/-- What the kernel reads from the edited block is what is decided about the
option. -/
theorem optionEdits_request {faked : BitVec 32 → Option OptionAnswer}
    {level optname : BitVec 32}
    (hrequest : abiOption maps (argWord memory base 1) (argWord memory base 2)
      faked = .request level optname) :
    argWord (optionEdits maps memory base) base 1 = level ∧
      argWord (optionEdits maps memory base) base 2 = optname := by
  have hword (value : BitVec 32) :
      argWord (writeWord memory (argAt base 2) value) base 1 =
        argWord memory base 1 :=
    argWord_writeWord_of_ne (by decide) (by decide) (by decide) memory base value
  simp only [abiOption] at hrequest
  simp only [optionEdits]
  split_ifs at hrequest ⊢ with hzero hsocket
  · cases hoption : ipOption (argWord memory base 2) with
    | none =>
      rw [hoption] at hrequest
      exact nomatch hrequest
    | some option =>
      rw [hoption] at hrequest
      obtain ⟨hlevel, hoptname⟩ := Decision.request.inj hrequest
      rw [← hlevel, ← hoptname]
      exact ⟨hword option, argWord_writeWord memory base option 2⟩
  · cases hfaked : faked (mapInt maps.sockopt (argWord memory base 2)) with
    | some answer =>
      rw [hfaked] at hrequest
      exact nomatch hrequest
    | none =>
      rw [hfaked] at hrequest
      obtain ⟨hlevel, hoptname⟩ := Decision.request.inj hrequest
      rw [← hlevel, ← hoptname]
      refine ⟨?_, argWord_writeWord _ base _ 2⟩
      rw [argWord_writeWord_of_ne (by decide) (by decide) (by decide),
        argWord_writeWord]
  · exact Decision.request.inj hrequest

end Edits

/-! ## The commands -/

section Commands

variable (kernel : Kernel) (maps : SocketMaps) (memory : Memory)
  (base : BitVec 32) (utsname : Utsname) (answer : ℤ)

/-- After the kernel's call a block is as it was edited before, outside the buffers
for results. -/
theorem blockKept_ask_iff (edited : Memory) (request : Request) :
    BlockKept memory base (ask kernel edited request) ↔
      ∀ address, InBlock base address →
        address ∉ kernel.results request edited →
        edited address = memory address := by
  apply forall_congr'
  intro address
  apply imp_congr_right
  intro _
  apply imp_congr_right
  intro hout
  have hframe : (ask kernel edited request).memory address = edited address :=
    kernel.frame request edited address hout
  rw [hframe]

theorem blockKept_ask (request : Request) :
    BlockKept memory base (ask kernel memory request) :=
  (blockKept_ask_iff kernel memory base memory request).mpr fun _ _ _ => rfl

/-- The calls without results. -/
theorem blockKept_socketcall_iff (edited : Memory) {call : ℕ}
    (hcall : call = sysSocket ∨ call = sysSetsockopt) :
    BlockKept memory base (socketcall kernel edited base call) ↔
      ∀ address, InBlock base address → edited address = memory address := by
  rw [socketcall, blockKept_ask_iff, kernel.silent _ _ _ hcall]
  exact ⟨fun hkept address hin => hkept address hin fun hmem => hmem,
    fun hkept address hin _ => hkept address hin⟩

theorem blockKept_socket_iff :
    BlockKept memory base (socksysSocket kernel maps memory base) ↔
      mapInt maps.af (argWord memory base 0) = argWord memory base 0 ∧
        mapInt maps.socktype (argWord memory base 1) = argWord memory base 1 :=
  (blockKept_socketcall_iff kernel memory base _ (.inl rfl)).trans
    socketEdits_kept_iff

theorem blockKept_setsockopt_iff :
    BlockKept memory base (setsockopt kernel maps memory base) ↔
      OptionStays (argWord memory base 1) (argWord memory base 2) := by
  rw [← optionEdits_kept_iff maps, setsockopt]
  split
  · exact ⟨fun hkept address hin => hkept address hin fun hmem => hmem,
      fun hkept address hin _ => hkept address hin⟩
  · exact blockKept_socketcall_iff kernel memory base _ (.inr rfl)

/-- A faked value is stored in the option's buffers only. -/
theorem storeAnswer_frame (edited : Memory) (optval optlen : BitVec 32)
    (faked : OptionAnswer) {address : BitVec 32}
    (hout : address ∉ (storeAnswer edited optval optlen faked).results) :
    (storeAnswer edited optval optlen faked).memory address =
      edited address := by
  obtain ⟨hoptval, hoptlen⟩ := not_or.mp hout
  have hvalue (stored : BitVec 32) (memory : Memory) :
      writeWord memory optval stored address = memory address :=
    writeWord_outside (not_lt.mp hoptval)
  have hlength (stored : BitVec 32) (memory : Memory) :
      writeWord memory optlen stored address = memory address :=
    writeWord_outside (not_lt.mp hoptlen)
  simp only [storeAnswer]
  cases faked.value <;> cases faked.length <;>
    simp only [Option.elim_none, Option.elim_some, hvalue, hlength]

theorem blockKept_getsockopt_iff :
    BlockKept memory base (getsockopt kernel maps memory base) ↔
      ∀ address, InBlock base address →
        address ∉ (getsockopt kernel maps memory base).results →
        optionEdits maps memory base address = memory address := by
  apply forall_congr'
  intro address
  apply imp_congr_right
  intro _
  apply imp_congr_right
  intro hout
  have hframe : (getsockopt kernel maps memory base).memory address =
      optionEdits maps memory base address := by
    revert hout
    rw [getsockopt]
    split
    · exact fun hout => storeAnswer_frame _ _ _ _ hout
    · exact fun hout => kernel.frame _ _ _ hout
  rw [hframe]

theorem blockKept_getipdomain_iff :
    BlockKept memory base (getipdomain memory base utsname) ↔
      ∀ address, InBlock base address → address ∉ ipdomainBuffer memory base →
        ∀ byte, (ipdomainText memory base utsname)[(address -
          ipdomainName memory base).toNat]? = some byte →
          byte = memory address := by
  apply forall_congr'
  intro address
  apply imp_congr_right
  intro _
  apply imp_congr_right
  intro _
  change (ipdomainText memory base utsname).getD (address -
    ipdomainName memory base).toNat (memory address) = memory address ↔ _
  rw [List.getD_eq_getElem?_getD]
  cases (ipdomainText memory base utsname)[(address -
    ipdomainName memory base).toNat]? with
  | none => simp
  | some byte => simp

/-- The other commands leave the block alone. -/
theorem blockKept_other (hget : (readWord memory base).toNat ≠ 6)
    (hset : (readWord memory base).toNat ≠ 12)
    (hsocket : (readWord memory base).toNat ≠ 14)
    (hdomain : (readWord memory base).toNat ≠ 16) :
    BlockKept memory base
      (socksysSyscall kernel maps memory base utsname answer) := by
  rw [socksysSyscall]
  split
  any_goals exact blockKept_ask kernel memory base _
  any_goals exact fun _ _ _ => rfl
  · exact absurd ‹_› hget
  · exact absurd ‹_› hset
  · exact absurd ‹_› hsocket
  · exact absurd ‹_› hdomain

theorem blockKept_iff :
    BlockKept memory base
      (socksysSyscall kernel maps memory base utsname answer) ↔
      ArgumentsMeet kernel maps memory base utsname := by
  rw [argumentsMeet_iff]
  by_cases hget : (readWord memory base).toNat = 6
  · have hcall : socksysSyscall kernel maps memory base utsname answer =
        getsockopt kernel maps memory base := by
      rw [socksysSyscall, hget]
      rfl
    rw [hcall, blockKept_getsockopt_iff, hget]
    simp only [Nat.reduceEqDiff, false_imp_iff, true_imp_iff, true_and, and_true]
    constructor
    · exact .inr
    · rintro (hstays | hinside)
      · rw [optionEdits_of_stays hstays]
        exact fun _ _ _ => rfl
      · exact hinside
  by_cases hset : (readWord memory base).toNat = 12
  · have hcall : socksysSyscall kernel maps memory base utsname answer =
        setsockopt kernel maps memory base := by
      rw [socksysSyscall, hset]
      rfl
    rw [hcall, blockKept_setsockopt_iff, hset]
    simp only [Nat.reduceEqDiff, false_imp_iff, true_imp_iff, true_and, and_true]
  by_cases hsocket : (readWord memory base).toNat = 14
  · have hcall : socksysSyscall kernel maps memory base utsname answer =
        socksysSocket kernel maps memory base := by
      rw [socksysSyscall, hsocket]
      rfl
    rw [hcall, blockKept_socket_iff, hsocket]
    simp only [Nat.reduceEqDiff, false_imp_iff, true_imp_iff, and_true]
  by_cases hdomain : (readWord memory base).toNat = 16
  · have hcall : socksysSyscall kernel maps memory base utsname answer =
        getipdomain memory base utsname := by
      rw [socksysSyscall, hdomain]
      rfl
    rw [hcall, blockKept_getipdomain_iff, hdomain]
    simp only [Nat.reduceEqDiff, false_imp_iff, true_imp_iff, true_and]
  · refine iff_of_true
      (blockKept_other kernel maps memory base utsname answer hget hset hsocket
        hdomain) ?_
    simp only [hget, hset, hsocket, hdomain, false_imp_iff, and_self]

theorem issuedAgain_eq {outcome : Outcome}
    (hkept : BlockKept memory base outcome) :
    issuedAgain memory base outcome = memory := by
  funext address
  rw [issuedAgain]
  split_ifs with hin
  · exact hkept address hin.1 hin.2
  · rfl

/-- A socket call leaves its argument block as it was, and makes the same request when
it is issued again, exactly when nothing in the block is translated to something
else. -/
theorem socksysSyscall_keeps_iff :
    ArgumentsKept kernel maps memory base utsname answer ↔
      ArgumentsMeet kernel maps memory base utsname := by
  rw [← blockKept_iff kernel maps memory base utsname answer]
  constructor
  · exact fun hkept => hkept.kept
  · intro hkept
    refine ⟨hkept, ?_⟩
    rw [issuedAgain_eq memory base hkept]

end Commands

/-- A kernel that refuses everything. -/
def refusingKernel : Kernel where
  answer _ memory := (-1, memory)
  results _ _ := ∅
  frame _ _ _ _ := rfl
  silent _ _ _ _ := rfl

/-- `setsockopt(fd, 0xffff, 4, ..)` without maps: the level in the block becomes
1. -/
theorem setsockopt_changes_level :
    ¬ ∀ (kernel : Kernel) (maps : SocketMaps) (memory : Memory)
      (base : BitVec 32) (utsname : Utsname) (answer : ℤ),
      ArgumentsKept kernel maps memory base utsname answer := by
  intro hall
  let memory := writeWord (writeWord (fun _ => 0) 0 12) (argAt 0 1) 0xffff
  have hkept := (hall refusingKernel ⟨none, none, none⟩ memory 0 ⟨[], []⟩ 0).kept
  rw [blockKept_iff] at hkept
  exact (hkept.setsockopt (by decide)).1 (by decide)

end IbcsUs.Sockets.Arguments
