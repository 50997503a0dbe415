import IbcsUs.Core.Refinement
import IbcsUs.Terminals.Termios

/-!
# The older calls of System V on a terminal

`TCGETA` and the three calls that set have the lower halves of the flag words and eight
characters, `TCGETX` and its three the hardware flow control.  A terminal of System V keeps
`VMIN` at the place of `VEOF` while it is not canonical, the kernel has a place for each.
-/

namespace IbcsUs.Terminals

open Refinement

/-! ## The structures -/

/-- `struct termio`, which is `struct svr_termio`. -/
structure Termio where
  iflag : BitVec 16
  oflag : BitVec 16
  cflag : BitVec 16
  lflag : BitVec 16
  line : BitVec 8
  cc : Fin 8 → BitVec 8
  deriving DecidableEq

/-- `struct termiox`. -/
structure Termiox where
  hflag : BitVec 16
  cflag : BitVec 16
  rflag : Fin 5 → BitVec 16
  sflag : BitVec 16
  deriving DecidableEq

/-- The line is canonical. -/
def Termio.Canonical (it : Termio) : Prop := it.lflag &&& 0o2 ≠ 0

instance (it : Termio) : Decidable it.Canonical :=
  inferInstanceAs (Decidable (_ ≠ _))

/-- The place of `VEOF`, and that of `VMIN` for the kernel. -/
def ioEof : Fin 8 := ⟨4, by decide⟩
def ioMin : Fin 8 := ⟨6, by decide⟩

/-! ## The kernel -/

/-- A word with its lower half replaced. -/
def replaceLow (word : BitVec 32) (low : BitVec 16) : BitVec 32 :=
  (word &&& 0xffff0000) ||| low.setWidth 32

/-- The kernel's `TCGETA`. -/
def tcgeta (t : Termios) : Termio where
  iflag := t.iflag.setWidth 16
  oflag := t.oflag.setWidth 16
  cflag := t.cflag.setWidth 16
  lflag := t.lflag.setWidth 16
  line := t.line
  cc := fun place => t.cc (place.castLE (by decide))

/-- The kernel's `TCSETA`. -/
def tcseta (t : Termios) (io : Termio) : Termios where
  iflag := replaceLow t.iflag io.iflag
  oflag := replaceLow t.oflag io.oflag
  cflag := replaceLow t.cflag io.cflag
  lflag := replaceLow t.lflag io.lflag
  line := io.line
  cc := fun place => if hlow : place.val < 8 then io.cc ⟨place, hlow⟩ else t.cc place

/-! ## The calls -/

/-- `linux_to_svr_termio`. -/
def linuxToSvrTermio (t : Termios) : Termio :=
  let io := tcgeta t
  if io.Canonical then io else { io with cc := Function.update io.cc ioEof (io.cc ioMin) }

/-- `svr_to_linux_termio`.  The flag of `CRTSCTS` is not in a word of 16 bits. -/
def svrToLinuxTermio (t : Termios) (it : Termio) : Termios :=
  let eof := (tcgeta t).cc ioEof
  let io :=
    if it.Canonical then it
    else
      { it with cc := Function.update (Function.update it.cc ioMin (it.cc ioEof)) ioEof eof }
  let cflag :=
    if io.cflag &&& 0o100000 ≠ 0 then io.cflag ||| crtscts.setWidth 16 else io.cflag
  tcseta t { io with cflag := cflag &&& ~~~0o170000 }

/-- `svr4_termiox_ioctl` for `TCGETX`. -/
def tcgetx (t : Termios) : Termiox where
  hflag := if t.cflag &&& crtscts ≠ 0 then 0x0003 else 0
  cflag := 0
  rflag := fun _ => 0
  sflag := 0

/-- The structures that the calls that set accept. -/
def Termiox.Known (tx : Termiox) : Prop :=
  (tx.hflag = 0 ∨ tx.hflag = 0x0003) ∧ tx.cflag = 0 ∧ tx.rflag = (fun _ => 0) ∧ tx.sflag = 0

instance (tx : Termiox) : Decidable tx.Known :=
  inferInstanceAs (Decidable (_ ∧ _))

/-- `svr4_termiox_ioctl` for the calls that set. -/
def tcsetx (t : Termios) (tx : Termiox) : Termios :=
  { t with cflag := if tx.hflag ≠ 0 then t.cflag ||| crtscts else t.cflag &&& ~~~crtscts }

inductive TermioCall where
  | tcgeta
  | tcseta (it : Termio)
  | tcgetx
  | tcsetx (tx : Termiox)

inductive TermioAnswer where
  | done
  | refused
  | io (it : Termio)
  | iox (tx : Termiox)
  deriving DecidableEq

/-- A call to a terminal. -/
def termioStep (t : Termios) : TermioCall → Option (Termios × TermioAnswer)
  | .tcgeta => some (t, .io (linuxToSvrTermio t))
  | .tcseta it => some (svrToLinuxTermio t it, .done)
  | .tcgetx => some (t, .iox (tcgetx t))
  | .tcsetx tx => some (if tx.Known then (tcsetx t tx, .done) else (t, .refused))

/-! ## What is meant -/

/-- A terminal of System V: the words and characters that were set last, the character that
is kept from the program, and the flow control. -/
structure SvTerminal where
  io : Termio
  hidden : BitVec 8
  flow : Bool

/-- A terminal of System V takes a call.  In canonical mode the character at the place of
`VMIN` is one like the others; a terminal that is not canonical has one character for both
places, and keeps that of `VEOF` for later.  The flow control is set by `TCSETX` alone. -/
def termioSpec (terminal : SvTerminal) : TermioCall → SvTerminal × TermioAnswer
  | .tcgeta => (terminal, .io terminal.io)
  | .tcseta it =>
      ({ terminal with
          io :=
            { it with
              cflag := it.cflag &&& 0o7777
              cc := if it.Canonical then it.cc
                else Function.update it.cc ioMin (it.cc ioEof) }
          hidden := if it.Canonical then it.cc ioEof else terminal.hidden }, .done)
  | .tcgetx => (terminal, .iox ⟨if terminal.flow then 0x0003 else 0, 0, fun _ => 0, 0⟩)
  | .tcsetx tx =>
      if tx.Known then ({ terminal with flow := tx.hflag ≠ 0 }, .done)
      else (terminal, .refused)

/-- The terminal of System V that the kernel's settings are. -/
def SvTerminal.of (t : Termios) : SvTerminal where
  io := linuxToSvrTermio t
  hidden := (tcgeta t).cc ioEof
  flow := t.cflag &&& crtscts ≠ 0

/-! ## Words and characters -/

section Words

variable {t : Termios}

theorem getLsbD_upper {index : ℕ} (hindex : index < 32) :
    (0xffff0000 : BitVec 32).getLsbD index = decide (16 ≤ index) := by
  interval_cases index <;> rfl

theorem getLsbD_replaceLow (word : BitVec 32) (low : BitVec 16) {index : ℕ}
    (hindex : index < 32) :
    (replaceLow word low).getLsbD index =
      if index < 16 then low.getLsbD index else word.getLsbD index := by
  rw [replaceLow, BitVec.getLsbD_or, BitVec.getLsbD_and, BitVec.getLsbD_setWidth,
    getLsbD_upper hindex, decide_eq_true hindex, Bool.true_and]
  split_ifs with hhalf
  · rw [decide_eq_false (by omega), Bool.and_false, Bool.false_or]
  · rw [decide_eq_true (by omega), Bool.and_true, BitVec.getLsbD_of_ge low index (by omega),
      Bool.or_false]

theorem setWidth_replaceLow (word : BitVec 32) (low : BitVec 16) :
    (replaceLow word low).setWidth 16 = low := by
  apply BitVec.eq_of_getLsbD_eq
  intro index hindex
  rw [BitVec.getLsbD_setWidth, decide_eq_true hindex, Bool.true_and,
    getLsbD_replaceLow word low (by omega), if_pos hindex]

/-- The upper half stays. -/
theorem replaceLow_and (word mask : BitVec 32) (low : BitVec 16)
    (hmask : ∀ index < 16, mask.getLsbD index = false) :
    replaceLow word low &&& mask = word &&& mask := by
  apply BitVec.eq_of_getLsbD_eq
  intro index hindex
  rw [BitVec.getLsbD_and, BitVec.getLsbD_and, getLsbD_replaceLow word low hindex]
  split_ifs with hhalf
  · rw [hmask index hhalf, Bool.and_false, Bool.and_false]
  · rfl

theorem replaceLow_self (word : BitVec 32) : replaceLow word (word.setWidth 16) = word := by
  apply BitVec.eq_of_getLsbD_eq
  intro index hindex
  rw [getLsbD_replaceLow word _ hindex, BitVec.getLsbD_setWidth]
  split_ifs with hhalf
  · rw [decide_eq_true hhalf, Bool.true_and]
  · rfl

/-- What has been set is got. -/
theorem tcgeta_tcseta (t : Termios) (io : Termio) : tcgeta (tcseta t io) = io := by
  simp only [tcgeta, tcseta, setWidth_replaceLow, Fin.val_castLE, Fin.is_lt, dite_true]

theorem tcseta_flow (t : Termios) (io : Termio) :
    (tcseta t io).cflag &&& crtscts = t.cflag &&& crtscts :=
  replaceLow_and t.cflag crtscts io.cflag (by decide)

theorem tcsetx_flow (t : Termios) (tx : Termiox) :
    (tcsetx t tx).cflag &&& crtscts ≠ 0 ↔ tx.hflag ≠ 0 := by
  rw [tcsetx]
  split_ifs with hflag
  · have hbit : crtscts.getLsbD 31 = true := rfl
    have hset : ((t.cflag ||| crtscts) &&& crtscts).getLsbD 31 = true := by
      rw [BitVec.getLsbD_and, BitVec.getLsbD_or, hbit, Bool.or_true, Bool.and_true]
    refine iff_of_true (fun hzero => ?_) hflag
    rw [hzero] at hset
    cases hset
  · have hclear : ~~~crtscts &&& crtscts = 0 := by decide
    refine iff_of_false (not_not.mpr ?_) hflag
    rw [BitVec.and_assoc, hclear]
    exact BitVec.and_zero

theorem tcgeta_tcsetx (t : Termios) (tx : Termiox) : tcgeta (tcsetx t tx) = tcgeta t := by
  have hhalf : (tcsetx t tx).cflag.setWidth 16 = (t.cflag.setWidth 16 : BitVec 16) := by
    have hset : (crtscts.setWidth 16 : BitVec 16) = 0#16 := by decide
    have hclear : ((~~~crtscts).setWidth 16 : BitVec 16) = BitVec.allOnes 16 := by decide
    rw [tcsetx]
    split_ifs
    · rw [BitVec.setWidth_or, hset, BitVec.or_zero]
    · rw [BitVec.setWidth_and, hclear, BitVec.and_allOnes]
  rw [tcgeta, hhalf]
  rfl

end Words

/-! ## The simulation -/

section Simulation

variable {t : Termios}

/-- The character of `VMIN` goes to both places, that of `VEOF` comes back to its own. -/
theorem update_back (cc : Fin 8 → BitVec 8) (eof : BitVec 8) :
    let kept := Function.update (Function.update cc ioMin (cc ioEof)) ioEof eof
    Function.update kept ioEof (kept ioMin) = Function.update cc ioMin (cc ioEof) := by
  intro kept
  have hplaces : ioEof ≠ ioMin := by decide
  have hmin : kept ioMin = Function.update cc ioMin (cc ioEof) ioEof := by
    simp only [kept, Function.update_of_ne hplaces, Function.update_of_ne hplaces.symm,
      Function.update_self]
  rw [hmin, Function.update_idem, Function.update_eq_self]

/-- The structure that `svr_to_linux_termio` hands to the kernel. -/
theorem tcgeta_svrToLinuxTermio (t : Termios) (it : Termio) :
    tcgeta (svrToLinuxTermio t it) =
      { it with
        cflag := it.cflag &&& 0o7777
        cc := if it.Canonical then it.cc
          else Function.update (Function.update it.cc ioMin (it.cc ioEof)) ioEof
            ((tcgeta t).cc ioEof) } := by
  have hlost : (crtscts.setWidth 16 : BitVec 16) = 0#16 := by decide
  have hmask : (~~~0o170000 : BitVec 16) = 0o7777 := by decide
  rw [svrToLinuxTermio, tcgeta_tcseta]
  simp only [hlost, BitVec.or_zero, ite_self, hmask]
  split_ifs <;> rfl

theorem of_svrToLinuxTermio (t : Termios) (it : Termio) :
    SvTerminal.of (svrToLinuxTermio t it) = (termioSpec (.of t) (.tcseta it)).1 := by
  have hflow : (svrToLinuxTermio t it).cflag &&& crtscts = t.cflag &&& crtscts :=
    tcseta_flow _ _
  have hmode : (tcgeta (svrToLinuxTermio t it)).Canonical ↔ it.Canonical := by
    rw [tcgeta_svrToLinuxTermio]
    rfl
  simp only [SvTerminal.of, termioSpec, linuxToSvrTermio, hflow, hmode]
  by_cases hcanonical : it.Canonical
  · simp only [tcgeta_svrToLinuxTermio, if_pos hcanonical]
  · simp only [tcgeta_svrToLinuxTermio, if_neg hcanonical, update_back, Function.update_self]

theorem simulates_termio :
    Simulates termioStep termioSpec (fun _ _ => True) (fun t terminal => terminal = .of t) := by
  rintro t _ call rfl -
  cases call with
  | tcgeta => exact ⟨_, rfl, rfl⟩
  | tcseta it => exact ⟨_, rfl, (of_svrToLinuxTermio t it).symm⟩
  | tcgetx =>
    refine ⟨_, ?_, rfl⟩
    simp only [termioStep, termioSpec, tcgetx, SvTerminal.of, decide_eq_true_eq]
  | tcsetx tx =>
    simp only [termioStep, termioSpec]
    split_ifs
    · refine ⟨_, rfl, ?_⟩
      simp only [SvTerminal.of, linuxToSvrTermio, tcgeta_tcsetx, tcsetx_flow]
    · exact ⟨_, rfl, rfl⟩

/-- Any run of these calls is answered as a terminal of System V answers it. -/
theorem termio_serves (t : Termios) (calls : List TermioCall) :
    ∃ final, serve termioStep t calls = some (final, (serveSpec termioSpec (.of t) calls).2) ∧
      SvTerminal.of final = (serveSpec termioSpec (.of t) calls).1 := by
  obtain ⟨final, hserve, hend⟩ := simulates_termio.serve_eq (rfl : SvTerminal.of t = .of t)
    (ready_of_forall (fun _ _ => trivial) _ calls)
  exact ⟨final, hserve, hend.symm⟩

/-- The characters that are got and set are those that were there. -/
theorem update_forth (cc : Fin 8 → BitVec 8) :
    let shown := Function.update cc ioEof (cc ioMin)
    Function.update (Function.update shown ioMin (shown ioEof)) ioEof (cc ioEof) = cc := by
  intro shown
  have hplaces : ioEof ≠ ioMin := by decide
  have hmin : Function.update shown ioMin (shown ioEof) = shown := by
    have hsame : shown ioEof = shown ioMin := by
      simp only [shown, Function.update_self, Function.update_of_ne hplaces.symm]
    rw [hsame, Function.update_eq_self]
  rw [hmin, Function.update_idem, Function.update_eq_self]

theorem svrToLinuxTermio_back (t : Termios) :
    svrToLinuxTermio t (linuxToSvrTermio t) =
      { t with cflag := replaceLow t.cflag (t.cflag.setWidth 16 &&& 0o7777) } := by
  have hio : ∀ it : Termio, svrToLinuxTermio t it =
      tcseta t (tcgeta (svrToLinuxTermio t it)) := by
    intro it
    rw [svrToLinuxTermio, tcgeta_tcseta]
  have hback : tcgeta (svrToLinuxTermio t (linuxToSvrTermio t)) =
      { tcgeta t with cflag := t.cflag.setWidth 16 &&& 0o7777 } := by
    rw [tcgeta_svrToLinuxTermio, linuxToSvrTermio]
    by_cases hcanonical : (tcgeta t).Canonical
    · simp only [if_pos hcanonical]
      rfl
    · have hmode : ¬ ({ tcgeta t with
          cc := Function.update (tcgeta t).cc ioEof ((tcgeta t).cc ioMin) } : Termio).Canonical :=
        hcanonical
      simp only [if_neg hcanonical, if_neg hmode, update_forth]
      rfl
  have hchars : (fun place : Fin 19 =>
      if hlow : place.val < 8 then (tcgeta t).cc ⟨place, hlow⟩ else t.cc place) = t.cc := by
    funext place
    split_ifs <;> rfl
  rw [hio, hback, tcseta]
  simp only [hchars]
  rw [tcgeta, replaceLow_self, replaceLow_self, replaceLow_self]

theorem replaceLow_masked_iff (cflag : BitVec 32) :
    replaceLow cflag (cflag.setWidth 16 &&& 0o7777) = cflag ↔ cflag &&& 0o170000 = 0 := by
  have hlow : ∀ index < 16, (0o7777 : BitVec 16).getLsbD index = decide (index < 12) := by
    intro index hindex
    interval_cases index <;> rfl
  have hlost : ∀ index < 32, (0o170000 : BitVec 32).getLsbD index =
      decide (12 ≤ index ∧ index < 16) := by
    intro index hindex
    interval_cases index <;> rfl
  have hbits : ∀ index < 32, (replaceLow cflag (cflag.setWidth 16 &&& 0o7777)).getLsbD index =
      (cflag.getLsbD index && !(0o170000 : BitVec 32).getLsbD index) := by
    intro index hindex
    rw [getLsbD_replaceLow cflag _ hindex, hlost index hindex]
    split_ifs with hhalf
    · rw [BitVec.getLsbD_and, BitVec.getLsbD_setWidth, hlow index hhalf, decide_eq_true hhalf,
        Bool.true_and]
      congr 1
      grind
    · grind
  constructor
  · intro hkept
    apply BitVec.eq_of_getLsbD_eq
    intro index hindex
    have hbit := hbits index hindex
    rw [hkept] at hbit
    grind
  · intro hzero
    apply BitVec.eq_of_getLsbD_eq
    intro index hindex
    have hbit := congrArg (fun word : BitVec 32 => word.getLsbD index) hzero
    rw [hbits index hindex]
    grind

/-- A program that sets what it has got leaves a terminal as it was exactly where the bits of
`c_cflag` from `CBAUDEX` to the end of the lower half are clear: one faster than 38400 baud
is slowed down. -/
theorem termio_restores_iff (t : Termios) :
    svrToLinuxTermio t (linuxToSvrTermio t) = t ↔ t.cflag &&& 0o170000 = 0 := by
  rw [svrToLinuxTermio_back, ← replaceLow_masked_iff]
  constructor
  · intro hback
    exact congrArg Termios.cflag hback
  · intro hkept
    rw [hkept]

end Simulation

end IbcsUs.Terminals
