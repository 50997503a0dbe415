import IbcsUs.X286.OddCalls

/-!
# Patches of a 286 program's text

A 286 program calls an emulator of its floating point unit by interrupts.  Each of them
faults once, and `fpfixup` puts the instruction that is meant in its place.
-/

namespace IbcsUs.X286

open Runs

/-! ## Floating point instructions -/

/-- What an instruction does: an operation of the floating point unit, by the low bits of
its first byte, on the segment it is for; or a wait. -/
inductive FpCall where
  | esc (op : BitVec 3)
  | es (op : BitVec 3)
  | ss (op : BitVec 3)
  | fwait
  deriving DecidableEq

/-- The bytes of the call that depend on what it does. -/
def FpCall.size : FpCall → ℕ
  | .esc _ => 2
  | .fwait => 2
  | .es _ => 3
  | .ss _ => 3

/-- The call that three bytes are as an interrupt. -/
def emulatedBytes (first code third : BitVec 8) : Option FpCall :=
  if first ≠ 0xcd ∨ code.toNat < 0xf0 ∨ 0xfa < code.toNat then none
  else if code = 0xf8 then some (.es (third.setWidth 3))
  else if code = 0xf9 then some .fwait
  else if code = 0xfa then some (.ss (third.setWidth 3))
  else some (.esc (code.setWidth 3))

/-- The first byte of an operation. -/
def escByte (op : BitVec 8) : BitVec 8 := 0xd8 ||| (op &&& 0x07)

/-- The operation of a first byte. -/
def escOp (byte : BitVec 8) : Option (BitVec 3) :=
  if byte &&& 0xf8 = 0xd8 then some (byte.setWidth 3) else none

/-- The call that three bytes are as a wait, with a prefix or without, and an operation. -/
def realBytes (first code third : BitVec 8) : Option FpCall :=
  if first ≠ 0x9b then none
  else if code = 0x26 then (escOp third).map .es
  else if code = 0x36 then (escOp third).map .ss
  else if code = 0x90 then some .fwait
  else (escOp code).map .esc

def emulatedAt (memory : ProgramMemory) (laddr : BitVec 32) : Option FpCall :=
  emulatedBytes (memory laddr) (memory (laddr + 1)) (memory (laddr + 2))

def realAt (memory : ProgramMemory) (laddr : BitVec 32) : Option FpCall :=
  realBytes (memory laddr) (memory (laddr + 1)) (memory (laddr + 2))

/-- `fpfixup`. -/
def fpfixup (memory : ProgramMemory) (laddr : BitVec 32) : ProgramMemory :=
  let memory := Function.update memory laddr 0x9b
  let code := memory (laddr + 1)
  if code = 0xf8 then
    let memory := Function.update memory (laddr + 1) 0x26
    Function.update memory (laddr + 2) (escByte (memory (laddr + 2)))
  else if code = 0xf9 then Function.update memory (laddr + 1) 0x90
  else if code = 0xfa then
    let memory := Function.update memory (laddr + 1) 0x36
    Function.update memory (laddr + 2) (escByte (memory (laddr + 2)))
  else Function.update memory (laddr + 1) (escByte code)

/-- The text of the program, and how many faults there have been since the last patch. -/
structure Patched where
  memory : ProgramMemory
  sigSegvCount : ℕ

/-- `sig_segv` for a fault of the program, `none` for its `exit`. -/
def sigSegv (state : Patched) (laddr : BitVec 32) : Option Patched :=
  if 4 < state.sigSegvCount then none
  else if state.memory laddr = 0xcd ∧ 0xf0 ≤ (state.memory (laddr + 1)).toNat ∧
      (state.memory (laddr + 1)).toNat ≤ 0xfa then
    some ⟨fpfixup state.memory laddr, 0⟩
  else none

/-- The second and the third byte that `fpfixup` leaves. -/
def fixedBytes (code third : BitVec 8) : BitVec 8 × BitVec 8 :=
  if code = 0xf8 then (0x26, escByte third)
  else if code = 0xf9 then (0x90, third)
  else if code = 0xfa then (0x36, escByte third)
  else (escByte code, third)

section Bytes

variable {memory other : ProgramMemory} {laddr address : BitVec 32} {call : FpCall}
  {first code third : BitVec 8}

theorem escOp_escByte (byte : BitVec 8) : escOp (escByte byte) = some (byte.setWidth 3) := by
  have hbytes : ∀ byte : BitVec 8, escOp (escByte byte) = some (byte.setWidth 3) := by decide
  exact hbytes byte

/-- The first byte of an operation is no prefix, and no `nop`. -/
theorem escByte_ne (byte : BitVec 8) :
    escByte byte ≠ 0x26 ∧ escByte byte ≠ 0x36 ∧ escByte byte ≠ 0x90 := by
  have hbytes : ∀ byte : BitVec 8,
      escByte byte ≠ 0x26 ∧ escByte byte ≠ 0x36 ∧ escByte byte ≠ 0x90 := by
    decide
  exact hbytes byte

/-- The bytes that are put in place do what was meant. -/
theorem realBytes_fixedBytes (hcall : emulatedBytes first code third = some call) :
    realBytes 0x9b (fixedBytes code third).1 (fixedBytes code third).2 = some call := by
  obtain ⟨hes', hss', hnop'⟩ := escByte_ne code
  unfold emulatedBytes at hcall
  unfold fixedBytes realBytes
  split_ifs at hcall with hother hes hwait hss
  · simpa [hes, escOp_escByte] using hcall
  · simpa [hwait] using hcall
  · simpa [hss, escOp_escByte] using hcall
  · simp only [if_neg hes, if_neg hwait, if_neg hss, if_neg hes', if_neg hss', if_neg hnop',
      escOp_escByte, ne_eq, not_true_eq_false, if_false, Option.map_some]
    exact hcall

/-- The bytes behind the first are others. -/
theorem laddr_ne (laddr : BitVec 32) :
    laddr + 1 ≠ laddr ∧ laddr + 2 ≠ laddr ∧ laddr + 2 ≠ laddr + 1 := by
  refine ⟨?_, ?_, ?_⟩
  · rw [Ne, add_eq_left]
    decide
  · rw [Ne, add_eq_left]
    decide
  · rw [Ne, add_right_inj]
    decide

/-- `fpfixup` as three stores. -/
theorem fpfixup_eq (memory : ProgramMemory) (laddr : BitVec 32) :
    fpfixup memory laddr =
      Function.update (Function.update (Function.update memory laddr 0x9b) (laddr + 1)
        (fixedBytes (memory (laddr + 1)) (memory (laddr + 2))).1) (laddr + 2)
        (fixedBytes (memory (laddr + 1)) (memory (laddr + 2))).2 := by
  obtain ⟨hone, htwo, hthree⟩ := laddr_ne laddr
  have hcode : Function.update memory laddr (0x9b : BitVec 8) (laddr + 1) =
      memory (laddr + 1) := Function.update_of_ne hone _ _
  have hthird : ∀ byte, Function.update (Function.update memory laddr (0x9b : BitVec 8))
      (laddr + 1) byte (laddr + 2) = memory (laddr + 2) := by
    intro byte
    rw [Function.update_of_ne hthree, Function.update_of_ne htwo]
  have hkept : ∀ byte, Function.update (Function.update (Function.update memory laddr
      (0x9b : BitVec 8)) (laddr + 1) byte) (laddr + 2) (memory (laddr + 2)) =
        Function.update (Function.update memory laddr (0x9b : BitVec 8)) (laddr + 1) byte := by
    intro byte
    rw [← hthird byte, Function.update_eq_self]
  simp only [fpfixup, fixedBytes, hcode, hthird]
  split_ifs
  · rfl
  · exact (hkept _).symm
  · rfl
  · exact (hkept _).symm

/-- The instruction that is put in place does what was meant. -/
theorem realAt_fpfixup (hcall : emulatedAt memory laddr = some call) :
    realAt (fpfixup memory laddr) laddr = some call := by
  obtain ⟨hone, htwo, hthree⟩ := laddr_ne laddr
  rw [realAt, fpfixup_eq, Function.update_self, Function.update_of_ne hthree.symm,
    Function.update_self, Function.update_of_ne htwo.symm, Function.update_of_ne hone.symm,
    Function.update_self]
  exact realBytes_fixedBytes hcall

/-- A call that has been put in place is no interrupt. -/
theorem ne_of_realAt (hcall : realAt memory laddr = some call) : memory laddr = 0x9b := by
  by_contra hother
  rw [realAt, realBytes, if_pos hother] at hcall
  cases hcall

/-! ### Runs of faults -/

/-- A byte of a call at an address. -/
def InCall (laddr : BitVec 32) (call : FpCall) (address : BitVec 32) : Prop :=
  (address - laddr).toNat < call.size

theorem inCall_first (call : FpCall) : InCall laddr call laddr := by
  cases call <;> simp [InCall, FpCall.size]

theorem inCall_second (call : FpCall) : InCall laddr call (laddr + 1) := by
  cases call <;> simp [InCall, FpCall.size]

theorem inCall_third (hsize : call.size = 3) : InCall laddr call (laddr + 2) := by
  rw [InCall, add_sub_cancel_left, hsize]
  decide

theorem FpCall.size_eq (call : FpCall) : call.size = 2 ∨ call.size = 3 := by
  cases call <;> simp [FpCall.size]

/-- A call of two bytes has nothing of the third. -/
theorem emulatedBytes_third (hcall : emulatedBytes first code third = some call)
    (hsize : call.size = 2) (byte : BitVec 8) :
    emulatedBytes first code byte = some call ∧ (fixedBytes code third).2 = third := by
  unfold emulatedBytes at hcall ⊢
  unfold fixedBytes
  split_ifs at hcall ⊢
  · obtain rfl := Option.some.inj hcall
    cases hsize
  · exact ⟨hcall, rfl⟩
  · obtain rfl := Option.some.inj hcall
    cases hsize
  · exact ⟨hcall, rfl⟩

theorem realBytes_third (hcall : realBytes first code third = some call)
    (hsize : call.size = 2) (byte : BitVec 8) : realBytes first code byte = some call := by
  unfold realBytes at hcall ⊢
  split_ifs at hcall ⊢
  · obtain ⟨op, -, rfl⟩ := Option.map_eq_some_iff.mp hcall
    cases hsize
  · obtain ⟨op, -, rfl⟩ := Option.map_eq_some_iff.mp hcall
    cases hsize
  · exact hcall
  · exact hcall

/-- `fpfixup` writes to no byte outside the call. -/
theorem fpfixup_outside (hcall : emulatedAt memory laddr = some call)
    (haddress : ¬ InCall laddr call address) :
    fpfixup memory laddr address = memory address := by
  have hfirst : address ≠ laddr := by
    rintro rfl
    exact haddress (inCall_first call)
  have hsecond : address ≠ laddr + 1 := by
    rintro rfl
    exact haddress (inCall_second call)
  rw [fpfixup_eq]
  by_cases hthird : address = laddr + 2
  · subst hthird
    obtain hsize | hsize := call.size_eq
    · rw [Function.update_self, (emulatedBytes_third hcall hsize 0).2]
    · exact absurd (inCall_third hsize) haddress
  · rw [Function.update_of_ne hthird, Function.update_of_ne hsecond,
      Function.update_of_ne hfirst]

/-- What a call is depends on its own bytes. -/
theorem emulatedAt_congr (hcall : emulatedAt memory laddr = some call)
    (hsame : ∀ address, InCall laddr call address → other address = memory address) :
    emulatedAt other laddr = some call := by
  rw [emulatedAt, hsame laddr (inCall_first call), hsame (laddr + 1) (inCall_second call)]
  obtain hsize | hsize := call.size_eq
  · exact (emulatedBytes_third hcall hsize _).1
  · rw [hsame (laddr + 2) (inCall_third hsize)]
    exact hcall

theorem realAt_congr (hcall : realAt memory laddr = some call)
    (hsame : ∀ address, InCall laddr call address → other address = memory address) :
    realAt other laddr = some call := by
  rw [realAt, hsame laddr (inCall_first call), hsame (laddr + 1) (inCall_second call)]
  obtain hsize | hsize := call.size_eq
  · exact realBytes_third hcall hsize _
  · rw [hsame (laddr + 2) (inCall_third hsize)]
    exact hcall

/-- A fault is one at an emulated call. -/
theorem sigSegv_of_emulatedAt {state : Patched}
    (hcall : emulatedAt state.memory laddr = some call) (hcount : state.sigSegvCount = 0) :
    sigSegv state laddr = some ⟨fpfixup state.memory laddr, 0⟩ := by
  have hguard : ¬ (state.memory laddr ≠ 0xcd ∨ (state.memory (laddr + 1)).toNat < 0xf0 ∨
      0xfa < (state.memory (laddr + 1)).toNat) := by
    intro hother
    rw [emulatedAt, emulatedBytes, if_pos hother] at hcall
    cases hcall
  rw [not_or, not_not, not_or, not_lt, not_lt] at hguard
  rw [sigSegv, if_neg (by omega), if_pos hguard]

/-- The calls of a text, with their places, do not overlap. -/
def CallsApart (calls : List (BitVec 32 × FpCall)) : Prop :=
  ∀ left ∈ calls, ∀ right ∈ calls, left.1 ≠ right.1 →
    ∀ address, InCall left.1 left.2 address → ¬ InCall right.1 right.2 address

/-- Each call is as it was, or has been put in place; the other bytes are as they were. -/
structure Translated (calls : List (BitVec 32 × FpCall)) (text : ProgramMemory)
    (state : Patched) : Prop where
  each : ∀ call ∈ calls, emulatedAt state.memory call.1 = some call.2 ∨
    realAt state.memory call.1 = some call.2
  others : ∀ address, (∀ call ∈ calls, ¬ InCall call.1 call.2 address) →
    state.memory address = text address
  count : state.sigSegvCount = 0

/-- A fault at a call that is not in place puts it there, and the program goes on; one that is
in place stays there. -/
def Replaces (calls : List (BitVec 32 × FpCall)) (state : Patched) (laddr : BitVec 32) : Prop :=
  (∀ call ∈ calls, call.1 = laddr → realAt state.memory laddr ≠ some call.2 →
      ∃ next, sigSegv state laddr = some next) ∧
    ∀ next, sigSegv state laddr = some next →
      (∀ call ∈ calls, call.1 = laddr → realAt next.memory call.1 = some call.2) ∧
        ∀ call ∈ calls, realAt state.memory call.1 = some call.2 →
          realAt next.memory call.1 = some call.2

end Bytes

section Faults

variable {calls : List (BitVec 32 × FpCall)} {text : ProgramMemory} {state next : Patched}

/-- A fault is at a call that is still an interrupt. -/
theorem emulatedAt_of_fault {call : BitVec 32 × FpCall} (hstate : Translated calls text state)
    (hcall : call ∈ calls) (hstep : sigSegv state call.1 = some next) :
    emulatedAt state.memory call.1 = some call.2 ∧ next = ⟨fpfixup state.memory call.1, 0⟩ := by
  have hinterrupt : state.memory call.1 = 0xcd := by
    unfold sigSegv at hstep
    split_ifs at hstep with hmany hint
    exact hint.1
  obtain hemulated | hreal := hstate.each call hcall
  · rw [sigSegv_of_emulatedAt hemulated hstate.count] at hstep
    exact ⟨hemulated, (Option.some.inj hstep).symm⟩
  · rw [ne_of_realAt hreal] at hinterrupt
    cases hinterrupt

/-- A fault at a call, in a text that is partly translated. -/
theorem translated_sigSegv (hapart : CallsApart calls) (hstate : Translated calls text state)
    {laddr : BitVec 32} (hladdr : ∃ call ∈ calls, call.1 = laddr)
    (hstep : sigSegv state laddr = some next) :
    Translated calls text next ∧
      (∀ call ∈ calls, call.1 = laddr → realAt next.memory call.1 = some call.2) ∧
      ∀ call ∈ calls, realAt state.memory call.1 = some call.2 →
        realAt next.memory call.1 = some call.2 := by
  obtain ⟨call, hcall, rfl⟩ := hladdr
  obtain ⟨hemulated, rfl⟩ := emulatedAt_of_fault hstate hcall hstep
  have hsame : ∀ other ∈ calls, other.1 = call.1 →
      realAt (fpfixup state.memory call.1) other.1 = some other.2 := by
    intro other hother hplace
    rw [hplace]
    obtain hwas | hwas := hstate.each other hother
    · rw [hplace] at hwas
      exact realAt_fpfixup hwas
    · have hfirst := ne_of_realAt hwas
      rw [hplace] at hfirst
      rw [emulatedAt, emulatedBytes, hfirst] at hemulated
      cases hemulated
  have hkept : ∀ other ∈ calls, other.1 ≠ call.1 → ∀ address, InCall other.1 other.2 address →
      fpfixup state.memory call.1 address = state.memory address :=
    fun other hother hplace address haddress =>
      fpfixup_outside hemulated (hapart other hother call hcall hplace address haddress)
  refine ⟨⟨fun other hother => ?_, fun address haddress => ?_, rfl⟩, hsame,
    fun other hother hwas => ?_⟩
  · by_cases hplace : other.1 = call.1
    · exact .inr (hsame other hother hplace)
    · exact (hstate.each other hother).imp
        (fun hwas => emulatedAt_congr hwas (hkept other hother hplace))
        (fun hwas => realAt_congr hwas (hkept other hother hplace))
  · rw [← hstate.others address haddress]
    exact fpfixup_outside hemulated (haddress call hcall)
  · by_cases hplace : other.1 = call.1
    · exact hsame other hother hplace
    · exact realAt_congr hwas (hkept other hother hplace)

/-- A fault at a call that is still an interrupt does not end the program. -/
theorem sigSegv_goes_on {call : BitVec 32 × FpCall} (hstate : Translated calls text state)
    (hcall : call ∈ calls) (hnot : realAt state.memory call.1 ≠ some call.2) :
    ∃ next, sigSegv state call.1 = some next := by
  have hemulated := (hstate.each call hcall).resolve_right hnot
  exact ⟨_, sigSegv_of_emulatedAt hemulated hstate.count⟩

/-- In any run of faults at the floating point calls of a text, each fault puts its call in
place, a call that is in place stays there, and the other bytes stay as they are. -/
theorem faults_translate (hapart : CallsApart calls)
    (hcalls : ∀ call ∈ calls, emulatedAt text call.1 = some call.2) (faults : List (BitVec 32))
    (hfaults : StepsMeet sigSegv (fun _ laddr => ∃ call ∈ calls, call.1 = laddr) ⟨text, 0⟩
      faults) :
    Always sigSegv (Translated calls text) (Replaces calls) ⟨text, 0⟩ faults := by
  have hstart : Translated calls text ⟨text, 0⟩ :=
    ⟨fun call hcall => .inl (hcalls call hcall), fun _ _ => rfl, rfl⟩
  apply always_of_stepsMeet (fun _ hstate => hstate) _ _ hstart hfaults
  · intro state laddr next hstate hladdr hstep
    exact (translated_sigSegv hapart hstate hladdr hstep).1
  · intro state laddr hstate hladdr
    constructor
    · rintro call hcall rfl hnot
      exact sigSegv_goes_on hstate hcall hnot
    · intro next hstep
      exact (translated_sigSegv hapart hstate hladdr hstep).2

/-- A text with a call on the extra segment and another behind it. -/
def twoCalls : ProgramMemory := fun address =>
  if address = 0x1000 then 0xcd
  else if address = 0x1001 then 0xf8
  else if address = 0x1002 then 0xc3
  else if address = 0x1003 then 0xcd
  else if address = 0x1004 then 0xf6
  else 0

theorem twoCalls_apart : CallsApart [(0x1000, .es 3), (0x1003, .esc 6)] := by
  have hapart : ∀ address, InCall 0x1000 (.es 3) address → ¬ InCall 0x1003 (.esc 6) address := by
    intro address hleft hright
    simp only [InCall, FpCall.size] at hleft hright
    bv_omega
  intro left hleft right hright hplace address haddress
  simp only [List.mem_cons, List.not_mem_nil, or_false] at hleft hright
  obtain rfl | rfl := hleft <;> obtain rfl | rfl := hright
  · exact absurd rfl hplace
  · exact hapart address haddress
  · exact fun hother => hapart address hother haddress
  · exact absurd rfl hplace

/-- The second call faults first. -/
theorem faults_translate_two :
    Always sigSegv (Translated [(0x1000, .es 3), (0x1003, .esc 6)] twoCalls)
      (Replaces [(0x1000, .es 3), (0x1003, .esc 6)]) ⟨twoCalls, 0⟩ [0x1003, 0x1000] := by
  apply faults_translate twoCalls_apart
  · intro call hcall
    simp only [List.mem_cons, List.not_mem_nil, or_false] at hcall
    obtain rfl | rfl := hcall <;> decide
  · exact ⟨⟨_, List.mem_cons_of_mem _ List.mem_cons_self, rfl⟩,
      fun _ _ => ⟨⟨_, List.mem_cons_self, rfl⟩, fun _ _ => trivial⟩⟩

end Faults

end IbcsUs.X286
