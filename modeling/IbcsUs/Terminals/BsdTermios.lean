import IbcsUs.Core.Refinement
import IbcsUs.Terminals.Termios

/-!
# The terminal calls of BSD and V7

`bsd_ioctl_termios` keeps the records of V7, `sgttyb`, `tchars` and `ltchars`, and the
`termios` of BSD in the kernel's settings.  A terminal is one whose `TCGETS` and `TCSETS`
succeed and store what they are given.
-/

namespace IbcsUs.Terminals

open Bits Refinement

/-! ## The calls of V7 -/

/-- `struct v7_sgttyb`. -/
structure Sgttyb where
  ispeed : BitVec 8
  ospeed : BitVec 8
  erase : BitVec 8
  kill : BitVec 8
  flags : BitVec 32
  deriving DecidableEq

/-- `struct v7_tchars`. -/
structure Tchars where
  intrc : BitVec 8
  quitc : BitVec 8
  startc : BitVec 8
  stopc : BitVec 8
  eofc : BitVec 8
  brkc : BitVec 8
  deriving DecidableEq

/-- `struct v7_ltchars`. -/
structure Ltchars where
  suspc : BitVec 8
  dsuspc : BitVec 8
  rprntc : BitVec 8
  flushc : BitVec 8
  werasc : BitVec 8
  lnextc : BitVec 8
  deriving DecidableEq

/-! The places of the control characters. -/

def vintr : Fin 19 := ⟨0, by decide⟩
def vquit : Fin 19 := ⟨1, by decide⟩
def verase : Fin 19 := ⟨2, by decide⟩
def vkill : Fin 19 := ⟨3, by decide⟩
def veof : Fin 19 := ⟨4, by decide⟩
def vtime : Fin 19 := ⟨5, by decide⟩
def vmin : Fin 19 := ⟨6, by decide⟩
def vswtc : Fin 19 := ⟨7, by decide⟩
def vstart : Fin 19 := ⟨8, by decide⟩
def vstop : Fin 19 := ⟨9, by decide⟩
def vsusp : Fin 19 := ⟨10, by decide⟩
def veol : Fin 19 := ⟨11, by decide⟩
def vreprint : Fin 19 := ⟨12, by decide⟩
def vdiscard : Fin 19 := ⟨13, by decide⟩
def vwerase : Fin 19 := ⟨14, by decide⟩
def vlnext : Fin 19 := ⟨15, by decide⟩
def veol2 : Fin 19 := ⟨16, by decide⟩

/-- The flags that `TIOCGETP` makes of `c_cflag`.  `LITOUT` goes by `OPOST`, which is a
flag of `c_oflag`. -/
def lineFlags (cflag : BitVec 32) : BitVec 32 :=
  (cflag &&& 0o1000) >>> 3 ||| (cflag &&& 0o400) >>> 1 |||
    (if cflag &&& 0o1 ≠ 0 then 0 else 0x200000)

/-- The flags that `TIOCGETP` makes of `c_oflag` and `c_lflag`. -/
def modeFlags (oflag lflag : BitVec 32) : BitVec 32 :=
  (oflag &&& 0o4) <<< 2 ||| (oflag &&& (0o400 ||| 0o40000)) |||
    (if oflag &&& 0o14000 ≠ 0 then 0o2000 else 0) ||| (oflag &&& 0o3000) <<< 3 |||
    (oflag &&& 0o20000) <<< 2 ||| (lflag &&& (0o4 ||| 0o10)) |||
    (if lflag &&& 0o2 ≠ 0 then 0 else if lflag &&& 0o1 ≠ 0 then 0x02 else 0x20)

/-- `TIOCGETP`. -/
def getp (t : Termios) : Sgttyb where
  ispeed := 0
  ospeed := 0
  erase := t.cc verase
  kill := t.cc vkill
  flags := lineFlags t.cflag ||| modeFlags t.oflag t.lflag

/-- The `c_oflag` of `TIOCSETP`. -/
def sgOflag (flags : BitVec 32) : BitVec 32 :=
  let oflag : BitVec 32 := if flags &&& 0x10 ≠ 0 then 0o1 ||| 0o4 else 0
  if flags &&& 0x200000 ≠ 0 then oflag &&& ~~~0o1 else oflag

/-- The `c_lflag` of `TIOCSETP`. -/
def sgLflag (flags : BitVec 32) : BitVec 32 :=
  let lflag : BitVec 32 := 0o1 ||| 0o2
  let lflag := if flags &&& 0x02 ≠ 0 then lflag &&& ~~~0o2 else lflag
  let lflag :=
    if flags &&& 0x08 ≠ 0 then lflag ||| (0o10 ||| 0o20 ||| 0o40 ||| 0o1000 ||| 0o4000 ||| 0o100000)
    else lflag
  if flags &&& 0x20 ≠ 0 then lflag &&& ~~~(0o1 ||| 0o2) else lflag

/-- `TIOCSETP` and `TIOCSETN`. -/
def setp (t : Termios) (sg : Sgttyb) : Termios :=
  let cc := Function.update (Function.update t.cc verase sg.erase) vkill sg.kill
  let lflag := sgLflag sg.flags
  { t with
    iflag := if sg.flags &&& 0x20 ≠ 0 then 0 else 0o400 ||| 0o2000
    oflag := sgOflag sg.flags
    lflag := lflag
    cc := if lflag &&& 0o2 ≠ 0 then cc
      else Function.update (Function.update cc vmin 1) vtime 0 }

/-- `TIOCGETC`. -/
def getc (t : Termios) : Tchars where
  intrc := t.cc vintr
  quitc := t.cc vquit
  startc := t.cc vstart
  stopc := t.cc vstop
  eofc := t.cc veof
  brkc := t.cc veol2

/-- `TIOCSETC`. -/
def setc (t : Termios) (tc : Tchars) : Termios :=
  { t with
    cc := assign
      [(vintr, 0), (vquit, 1), (vstart, 2), (vstop, 3), (veof, 4), (veol2, 5)]
      ![tc.intrc, tc.quitc, tc.startc, tc.stopc, tc.eofc, tc.brkc] t.cc }

/-- `TIOCGLTC`. -/
def gltc (t : Termios) : Ltchars where
  suspc := t.cc vsusp
  dsuspc := t.cc vsusp
  rprntc := t.cc vreprint
  flushc := t.cc veol2
  werasc := t.cc vwerase
  lnextc := t.cc vlnext

/-- `TIOCSLTC`. -/
def sltc (t : Termios) (ltc : Ltchars) : Termios :=
  { t with
    cc := assign
      [(vsusp, 0), (veol2, 1), (vreprint, 2), (veol2, 3), (vwerase, 4), (vlnext, 5)]
      ![ltc.suspc, ltc.dsuspc, ltc.rprntc, ltc.flushc, ltc.werasc, ltc.lnextc] t.cc }

/-- `TIOCHPCL`: whether the line is hung up at the last close. -/
def hpcl (t : Termios) (data : Bool) : Termios :=
  { t with cflag := if data then t.cflag ||| 0o2000 else t.cflag &&& ~~~0o2000 }

inductive V7Call where
  | getp
  | setp (sg : Sgttyb)
  | getc
  | setc (tc : Tchars)
  | gltc
  | sltc (ltc : Ltchars)
  | hpcl (data : Bool)

inductive V7Answer where
  | done
  | sg (sg : Sgttyb)
  | tc (tc : Tchars)
  | ltc (ltc : Ltchars)
  deriving DecidableEq

/-- A call of V7 to a terminal. -/
def v7Step (t : Termios) : V7Call → Option (Termios × V7Answer)
  | .getp => some (t, .sg (getp t))
  | .setp sg => some (setp t sg, .done)
  | .getc => some (t, .tc (getc t))
  | .setc tc => some (setc t tc, .done)
  | .gltc => some (t, .ltc (gltc t))
  | .sltc ltc => some (sltc t ltc, .done)
  | .hpcl data => some (hpcl t data, .done)

/-! ### What is meant -/

/-- A terminal of V7: flags of its line that no call sets, the flags of its mode, and its
characters. -/
structure V7Terminal where
  line : BitVec 32
  mode : BitVec 32
  erase : BitVec 8
  kill : BitVec 8
  tc : Tchars
  ltc : Ltchars

/-- The flags of a mode that a terminal can have: echo, carriage returns, and raw before
cbreak. -/
def settable (flags : BitVec 32) : BitVec 32 :=
  (if flags &&& 0x08 ≠ 0 then 0x08 else 0) ||| (if flags &&& 0x10 ≠ 0 then 0x10 else 0) |||
    (if flags &&& 0x20 ≠ 0 then 0x20 else if flags &&& 0x02 ≠ 0 then 0x02 else 0)

/-- A terminal of V7 takes a call.  It has one character for `t_brkc` and `t_flushc`, and
`t_dsuspc` is `t_suspc`. -/
def v7Spec (terminal : V7Terminal) : V7Call → V7Terminal × V7Answer
  | .getp => (terminal,
      .sg ⟨0, 0, terminal.erase, terminal.kill, terminal.line ||| terminal.mode⟩)
  | .setp sg =>
      ({ terminal with erase := sg.erase, kill := sg.kill, mode := settable sg.flags }, .done)
  | .getc => (terminal, .tc terminal.tc)
  | .setc tc =>
      ({ terminal with tc := tc, ltc := { terminal.ltc with flushc := tc.brkc } }, .done)
  | .gltc => (terminal, .ltc terminal.ltc)
  | .sltc ltc =>
      ({ terminal with
          ltc := { ltc with dsuspc := ltc.suspc }
          tc := { terminal.tc with brkc := ltc.flushc } }, .done)
  | .hpcl _ => (terminal, .done)

/-- The terminal of V7 that the kernel's settings are. -/
def V7Terminal.of (t : Termios) : V7Terminal where
  line := lineFlags t.cflag
  mode := modeFlags t.oflag t.lflag
  erase := t.cc verase
  kill := t.cc vkill
  tc := getc t
  ltc := gltc t

/-! ### The simulation -/

theorem modeFlags_setp (flags : BitVec 32) :
    modeFlags (sgOflag flags) (sgLflag flags) = settable flags := by
  simp only [sgOflag, sgLflag, settable]
  split_ifs <;> decide

/-- `HUPCL` is not among the flags of the line. -/
theorem lineFlags_hpcl (cflag : BitVec 32) (data : Bool) :
    lineFlags (if data then cflag ||| 0o2000 else cflag &&& ~~~0o2000) = lineFlags cflag := by
  have hkept : ∀ mask : BitVec 32, 0o2000 &&& mask = 0 → ~~~0o2000 &&& mask = mask →
      (if data then cflag ||| 0o2000 else cflag &&& ~~~0o2000) &&& mask = cflag &&& mask := by
    intro mask hclear hset
    cases data
    · rw [if_neg (by decide), BitVec.and_assoc, hset]
    · rw [if_pos rfl, BitVec.and_or_distrib_right, hclear]
      exact BitVec.or_zero
  simp only [lineFlags, hkept 0o1000 (by decide) (by decide),
    hkept 0o400 (by decide) (by decide), hkept 0o1 (by decide) (by decide)]

/-- A call keeps the terminal of V7, and is answered as it answers. -/
theorem simulates_v7 :
    Simulates v7Step v7Spec (fun _ _ => True) (fun t terminal => terminal = .of t) := by
  rintro t _ call rfl -
  cases call with
  | getp => exact ⟨_, rfl, rfl⟩
  | getc => exact ⟨_, rfl, rfl⟩
  | gltc => exact ⟨_, rfl, rfl⟩
  | setc tc => exact ⟨_, rfl, rfl⟩
  | sltc ltc => exact ⟨_, rfl, rfl⟩
  | hpcl data =>
    refine ⟨_, rfl, ?_⟩
    simp only [v7Spec, V7Terminal.of, hpcl, lineFlags_hpcl, getc, gltc]
  | setp sg =>
    refine ⟨_, rfl, ?_⟩
    simp only [v7Spec, V7Terminal.of, setp, modeFlags_setp, getc, gltc]
    split_ifs <;> rfl

/-- Any run of the calls of V7 is answered as a terminal of V7 answers it, and leaves the
parity and `LITOUT` as they are. -/
theorem v7_serves (t : Termios) (calls : List V7Call) :
    ∃ final, serve v7Step t calls = some (final, (serveSpec v7Spec (.of t) calls).2) ∧
      V7Terminal.of final = (serveSpec v7Spec (.of t) calls).1 ∧
      lineFlags final.cflag = lineFlags t.cflag := by
  obtain ⟨final, hserve, hend⟩ := simulates_v7.serve_eq (rfl : V7Terminal.of t = .of t)
    (ready_of_forall (fun _ _ => trivial) _ calls)
  refine ⟨final, hserve, hend.symm, ?_⟩
  have hline : (serveSpec v7Spec (.of t) calls).1.line = (V7Terminal.of t).line := by
    apply serveSpec_keeps
    intro terminal call
    cases call <;> rfl
  rwa [hend] at hline

/-! ## The settings of BSD -/

/-- `struct bsd_termios`. -/
structure BsdTermios where
  iflag : BitVec 32
  oflag : BitVec 32
  cflag : BitVec 32
  lflag : BitVec 32
  cc : Fin 20 → BitVec 8
  ispeed : BitVec 32
  ospeed : BitVec 32

/-- `speed_map`. -/
def speedMap : List (BitVec 32) :=
  [0, 50, 75, 110, 134, 150, 200, 300, 600, 1200, 1800, 2400, 4800, 9600, 19200, 38400]

/-- `bsd_to_linux_speed`. -/
def bsdToLinuxSpeed (s : BitVec 32) : BitVec 32 :=
  if s = 57600 then 0o10001
  else if s = 115200 then 0o10002
  else
    match speedMap.findIdx? (s ≤ ·) with
    | some i => BitVec.ofNat 32 i
    | none => 15

/-- `linux_to_bsd_speed`.  The map has no check of the index: `beyond` is what stands
behind it. -/
def linuxToBsdSpeed (beyond : ℕ → BitVec 32) (s : BitVec 32) : BitVec 32 :=
  if s = 0o10001 then 57600
  else if s = 0o10002 then 115200
  else speedMap.getD s.toNat (beyond s.toNat)

/-- `CIBAUD`. -/
def cibaud : BitVec 32 := 0o2003600000

/-- The speed of the output. -/
def outputSpeed (cflag : BitVec 32) : BitVec 32 := cflag &&& cbaud

/-- The speed of the input, 0 where it is that of the output. -/
def inputSpeed (cflag : BitVec 32) : BitVec 32 := (cflag &&& cibaud) >>> 16

/-- `c_iflag` for the program. -/
def bsdIflag (iflag : BitVec 32) : BitVec 32 :=
  (iflag &&& 0o777) ||| (iflag &&& 0o2000) >>> 1 ||| (iflag &&& 0o10000) >>> 2 |||
    (iflag &&& 0o20000) >>> 4

/-- `c_oflag` for the program. -/
def bsdOflag (oflag : BitVec 32) : BitVec 32 :=
  (oflag &&& 0o1) ||| (oflag &&& 0o4) >>> 1 |||
    (if oflag &&& 0o14000 = 0o14000 then 4 else 0)

/-- `c_cflag` for the program. -/
def bsdCflag (cflag : BitVec 32) : BitVec 32 :=
  (cflag &&& ~~~(0o20000007777 : BitVec 32)) ||| (cflag &&& 0xff0) <<< 4 |||
    (if cflag &&& 0o20000000000 ≠ 0 then 0x30000 else 0)

/-- `c_lflag` for the program. -/
def bsdLflag (lflag : BitVec 32) : BitVec 32 :=
  (lflag &&& 0o7777626010) ||| (lflag &&& 0o3) <<< 7 ||| (lflag &&& 0o1160) >>> 3 |||
    (lflag &&& 0o400) <<< 14 ||| (lflag &&& 0o2000) >>> 4 ||| (lflag &&& 0o4000) >>> 11 |||
    (lflag &&& 0o10000) <<< 11 ||| (lflag &&& 0o40000) <<< 15 |||
    (lflag &&& 0o100000) >>> 5

/-- The control characters for the program. -/
def bsdGetChars : List (Fin 20 × Fin 19) :=
  [(0, veof), (1, veol), (2, veol2), (3, verase), (4, vwerase), (5, vkill), (6, vreprint),
    (7, vswtc), (8, vintr), (9, vquit), (10, vsusp), (11, vsusp), (12, vstart), (13, vstop),
    (14, vlnext), (15, vdiscard), (16, vmin), (17, vtime)]

/-- `linux_to_bsd_termios`. -/
def linuxToBsdTermios (beyond : ℕ → BitVec 32) (t : Termios) : BsdTermios where
  iflag := bsdIflag t.iflag
  oflag := bsdOflag t.oflag
  cflag := bsdCflag t.cflag
  lflag := bsdLflag t.lflag
  cc := assign bsdGetChars t.cc fun _ => 0
  ispeed :=
    if t.cflag &&& cibaud ≠ 0 then linuxToBsdSpeed beyond (inputSpeed t.cflag)
    else linuxToBsdSpeed beyond (outputSpeed t.cflag)
  ospeed := linuxToBsdSpeed beyond (outputSpeed t.cflag)

/-- `c_iflag` from the program. -/
def iflagFromBsd (user : BitVec 32) : BitVec 32 :=
  (user &&& ~~~(0xc00 : BitVec 32)) ||| (user &&& 0x400) <<< 1 ||| (user &&& 0x800) >>> 1

/-- `c_oflag` from the program. -/
def oflagFromBsd (old user : BitVec 32) : BitVec 32 :=
  (old &&& ~~~(0x1805 : BitVec 32)) ||| (user &&& 9) ||| (user &&& 2) <<< 1 |||
    (user &&& 4) <<< 10 ||| (user &&& 4) <<< 9

/-- `c_cflag` from the program.  `CRTSCTS` goes by bits of the terminal's own word. -/
def cflagFromBsd (old user ospeed ispeed : BitVec 32) : BitVec 32 :=
  let cflag := (old &&& ~~~(0xfff : BitVec 32)) ||| (user &&& 0xff00) >>> 4
  let cflag := if cflag &&& 0x30000 ≠ 0 then cflag ||| 0o20000000000 else cflag
  cflag ||| (bsdToLinuxSpeed ospeed ||| bsdToLinuxSpeed ispeed <<< 16)

/-- `c_lflag` from the program. -/
def lflagFromBsd (old user : BitVec 32) : BitVec 32 :=
  (old &&& ~~~(0o157663 : BitVec 32)) ||| (user &&& 1) <<< 12 ||| (user &&& 0x46) <<< 3 |||
    (user &&& 0x420) <<< 5 ||| (user &&& 0x180) >>> 7 ||| (user &&& 0x400000) >>> 14 |||
    (user &&& 0x2800000) >>> 11 ||| (user &&& 0x80000000) >>> 24

/-- The control characters from the program. -/
def bsdSetChars : List (Fin 19 × Fin 20) :=
  [(veof, 0), (veol, 1), (veol2, 2), (verase, 3), (vwerase, 4), (vkill, 5), (vreprint, 6),
    (vswtc, 7), (vintr, 8), (vquit, 9), (vsusp, 10), (vstart, 12), (vstop, 13),
    (vlnext, 14), (vdiscard, 15), (vmin, 16), (vtime, 17)]

/-- `bsd_to_linux_termios`. -/
def bsdToLinuxTermios (t : Termios) (it : BsdTermios) : Termios :=
  { t with
    iflag := iflagFromBsd it.iflag
    oflag := oflagFromBsd t.oflag it.oflag
    cflag := cflagFromBsd t.cflag it.cflag it.ospeed it.ispeed
    lflag := lflagFromBsd t.lflag it.lflag
    cc := assign bsdSetChars it.cc t.cc }

/-! ### Words that come back -/

section Again

variable {index : ℕ}

/-- The bits of `c_iflag` after a get and a set. -/
theorem getLsbD_iflag_back (iflag : BitVec 32) (hindex : index < 32) :
    (iflagFromBsd (bsdIflag iflag)).getLsbD index =
      if index < 9 then iflag.getLsbD index
      else if index = 9 then iflag.getLsbD 10 || iflag.getLsbD 13
      else if index = 11 then iflag.getLsbD 12
      else false := by
  rw [iflagFromBsd, bsdIflag]
  interval_cases index <;> simp

/-- The bits of `c_lflag` after a get and a set. -/
theorem getLsbD_lflag_back (lflag : BitVec 32) (hindex : index < 32) :
    (lflagFromBsd lflag (bsdLflag lflag)).getLsbD index =
      if index = 7 ∨ index = 10 ∨ index = 11 then false
      else if index = 8 then lflag.getLsbD 22 || lflag.getLsbD 8
      else if index = 9 then lflag.getLsbD 9 || lflag.getLsbD 10
      else if index = 12 then lflag.getLsbD 11 || (lflag.getLsbD 23 || lflag.getLsbD 12)
      else if index = 14 then lflag.getLsbD 25
      else if index = 15 then lflag.getLsbD 10 || lflag.getLsbD 15
      else lflag.getLsbD index := by
  rw [lflagFromBsd, bsdLflag]
  interval_cases index <;> simp

/-- The bits of `c_oflag` after a get and a set. -/
theorem getLsbD_oflag_back (oflag : BitVec 32) (hindex : index < 32) :
    (oflagFromBsd oflag (bsdOflag oflag)).getLsbD index =
      if index = 11 ∨ index = 12 then oflag.getLsbD 11 && oflag.getLsbD 12
      else oflag.getLsbD index := by
  have htabs : oflag &&& 0o14000 = 0o14000 ↔
      (oflag.getLsbD 11 && oflag.getLsbD 12) = true := by
    rw [Bool.and_eq_true]
    constructor
    · intro heq
      have hbit (place : ℕ) := congrArg (fun word : BitVec 32 => word.getLsbD place) heq
      exact ⟨by simpa using hbit 11, by simpa using hbit 12⟩
    · rintro ⟨hlow, hhigh⟩
      apply BitVec.eq_of_getLsbD_eq
      intro index hindex
      interval_cases index <;> simp_all
  rw [oflagFromBsd, bsdOflag]
  by_cases hset : (oflag.getLsbD 11 && oflag.getLsbD 12) = true
  · rw [if_pos (htabs.2 hset)]
    rw [hset]
    interval_cases index <;> simp
  · rw [if_neg (mt htabs.1 hset)]
    rw [Bool.not_eq_true] at hset
    rw [hset]
    interval_cases index <;> simp

/-- The bits of `c_cflag` after a get and a set, but for the speeds. -/
theorem getLsbD_cflag_modes (cflag : BitVec 32) (hindex : index < 32) :
    ((cflag &&& ~~~(0xfff : BitVec 32)) ||| (bsdCflag cflag &&& 0xff00) >>> 4).getLsbD index =
      if index < 4 then false
      else if index < 8 then cflag.getLsbD index
      else if index < 12 then cflag.getLsbD (index + 4) || cflag.getLsbD index
      else cflag.getLsbD index := by
  have hflow : ∀ word : BitVec 32,
      (if word ≠ 0 then (0x30000 : BitVec 32) else 0) &&& 0xff00 = 0 := by
    intro word
    split_ifs <;> decide
  rw [bsdCflag, BitVec.and_or_distrib_right, hflow]
  interval_cases index <;> simp

/-- A speed that the kernel and the program both have a number for. -/
def KnownSpeed (s : BitVec 32) : Prop := s.toNat < 16 ∨ s = 0o10001 ∨ s = 0o10002

instance (s : BitVec 32) : Decidable (KnownSpeed s) :=
  inferInstanceAs (Decidable (_ ∨ _ ∨ _))

theorem bsdToLinuxSpeed_linuxToBsdSpeed (beyond : ℕ → BitVec 32) {s : BitVec 32}
    (hknown : KnownSpeed s) : bsdToLinuxSpeed (linuxToBsdSpeed beyond s) = s := by
  obtain hlow | rfl | rfl := hknown
  · have hmap : ∀ place < 16,
        bsdToLinuxSpeed (speedMap.getD place 0) = BitVec.ofNat 32 place := by
      decide
    have hspeed : linuxToBsdSpeed beyond s = speedMap.getD s.toNat 0 := by
      rw [linuxToBsdSpeed, if_neg (by rintro rfl; revert hlow; decide),
        if_neg (by rintro rfl; revert hlow; decide), List.getD_eq_getElem?_getD,
        List.getD_eq_getElem?_getD,
        List.getElem?_eq_getElem (show s.toNat < speedMap.length from hlow)]
      rfl
    rw [hspeed, hmap _ hlow, BitVec.ofNat_toNat, BitVec.setWidth_eq]
  · show bsdToLinuxSpeed 57600 = _
    decide
  · show bsdToLinuxSpeed 115200 = _
    decide

theorem getLsbD_outputSpeed (cflag : BitVec 32) (hindex : index < 32) :
    (outputSpeed cflag).getLsbD index =
      if index < 4 ∨ index = 12 then cflag.getLsbD index else false := by
  rw [outputSpeed, cbaud]
  interval_cases index <;> simp

theorem getLsbD_outputSpeed_shift (cflag : BitVec 32) (hindex : index < 32) :
    (outputSpeed cflag <<< 16).getLsbD index =
      if 16 ≤ index ∧ index < 20 ∨ index = 28 then cflag.getLsbD (index - 16) else false := by
  rw [outputSpeed, cbaud]
  interval_cases index <;> simp

theorem getLsbD_inputSpeed_shift (cflag : BitVec 32) (hindex : index < 32) :
    (inputSpeed cflag <<< 16).getLsbD index =
      if 16 ≤ index ∧ index < 20 ∨ index = 28 then cflag.getLsbD index else false := by
  rw [inputSpeed, cibaud]
  interval_cases index <;> simp

/-- Two bits of the terminal's word decide about `CRTSCTS`. -/
theorem getLsbD_crtscts (word : BitVec 32) (hindex : index < 32) :
    (if word &&& 0x30000 ≠ 0 then word ||| 0o20000000000 else word).getLsbD index =
      if index = 31 then word.getLsbD 31 || (word.getLsbD 16 || word.getLsbD 17)
      else word.getLsbD index := by
  have htest : word &&& 0x30000 ≠ 0 ↔ (word.getLsbD 16 || word.getLsbD 17) = true := by
    rw [← not_iff_not, not_not, Bool.not_eq_true, Bool.or_eq_false_iff]
    constructor
    · intro hzero
      have hbit (place : ℕ) := congrArg (fun word : BitVec 32 => word.getLsbD place) hzero
      exact ⟨by simpa using hbit 16, by simpa using hbit 17⟩
    · rintro ⟨hlow, hhigh⟩
      apply BitVec.eq_of_getLsbD_eq
      intro index hindex
      interval_cases index <;> simp_all
  by_cases hset : (word.getLsbD 16 || word.getLsbD 17) = true
  · rw [if_pos (htest.2 hset), hset]
    interval_cases index <;> simp
  · rw [if_neg (mt htest.1 hset), Bool.eq_false_iff.mpr hset, Bool.or_false]
    split_ifs with hlast
    · rw [hlast]
    · rfl

/-- The bits of `c_cflag` after a get and a set.  An input speed that is that of the output
comes back as a speed of its own. -/
theorem getLsbD_cflag_back (beyond : ℕ → BitVec 32) {t : Termios}
    (houtput : KnownSpeed (outputSpeed t.cflag)) (hinput : KnownSpeed (inputSpeed t.cflag))
    (hindex : index < 32) :
    (bsdToLinuxTermios t (linuxToBsdTermios beyond t)).cflag.getLsbD index =
      if index < 8 then t.cflag.getLsbD index
      else if index < 12 then t.cflag.getLsbD (index + 4) || t.cflag.getLsbD index
      else if index = 31 then
        t.cflag.getLsbD 31 || (t.cflag.getLsbD 16 || t.cflag.getLsbD 17)
      else t.cflag.getLsbD index ||
        (decide (t.cflag &&& cibaud = 0) && (outputSpeed t.cflag <<< 16).getLsbD index) := by
  have hispeed : bsdToLinuxSpeed (linuxToBsdTermios beyond t).ispeed =
      if t.cflag &&& cibaud ≠ 0 then inputSpeed t.cflag else outputSpeed t.cflag := by
    simp only [linuxToBsdTermios]
    split_ifs
    · exact bsdToLinuxSpeed_linuxToBsdSpeed beyond hinput
    · exact bsdToLinuxSpeed_linuxToBsdSpeed beyond houtput
  have hospeed : bsdToLinuxSpeed (linuxToBsdTermios beyond t).ospeed = outputSpeed t.cflag :=
    bsdToLinuxSpeed_linuxToBsdSpeed beyond houtput
  simp only [bsdToLinuxTermios, cflagFromBsd, hispeed, hospeed, BitVec.getLsbD_or]
  rw [getLsbD_crtscts _ hindex, getLsbD_outputSpeed _ hindex]
  simp only [linuxToBsdTermios, getLsbD_cflag_modes _ hindex,
    getLsbD_cflag_modes t.cflag (show 16 < 32 by decide),
    getLsbD_cflag_modes t.cflag (show 17 < 32 by decide),
    getLsbD_cflag_modes t.cflag (show 31 < 32 by decide)]
  by_cases hzero : t.cflag &&& cibaud = 0
  · rw [if_neg (not_not.mpr hzero), decide_eq_true hzero,
      getLsbD_outputSpeed_shift _ hindex]
    interval_cases index <;> simp
  · rw [if_pos hzero, decide_eq_false hzero, getLsbD_inputSpeed_shift _ hindex]
    interval_cases index <;> simp

end Again

/-- No flag from `IUCLC` on is set: none of `IXON`, `IXANY`, `IXOFF` and `IMAXBEL`. -/
def IflagMeets (iflag : BitVec 32) : Prop :=
  ∀ index, 9 ≤ index → index < 32 → iflag.getLsbD index = false

/-- Tabs are as they are, or all spaces. -/
def OflagMeets (oflag : BitVec 32) : Prop := oflag.getLsbD 11 = oflag.getLsbD 12

/-- Where a bit from 12 on is set, so is the flag of the line that it is moved to; an input
speed with one of its lowest bits comes with `CRTSCTS`; and a line without an input speed
is hung up. -/
def CflagMeets (cflag : BitVec 32) : Prop :=
  (∀ index, 8 ≤ index → index < 12 →
    cflag.getLsbD (index + 4) = true → cflag.getLsbD index = true) ∧
  (cflag.getLsbD 16 = true ∨ cflag.getLsbD 17 = true → cflag.getLsbD 31 = true) ∧
  (cflag &&& cibaud = 0 → outputSpeed cflag = 0)

/-- `NOFLSH`, `ECHOPRT` and `ECHOKE` are not set, and the flags that high bits are moved to
are set with these. -/
def LflagMeets (lflag : BitVec 32) : Prop :=
  lflag.getLsbD 7 = false ∧ lflag.getLsbD 10 = false ∧ lflag.getLsbD 11 = false ∧
    (lflag.getLsbD 22 = true → lflag.getLsbD 8 = true) ∧
    (lflag.getLsbD 23 = true → lflag.getLsbD 12 = true) ∧
    lflag.getLsbD 25 = lflag.getLsbD 14

theorem iflag_back_iff (iflag : BitVec 32) :
    iflagFromBsd (bsdIflag iflag) = iflag ↔ IflagMeets iflag := by
  constructor
  · intro hback
    have hbit (index : ℕ) (hindex : index < 32) := getLsbD_iflag_back iflag hindex
    rw [hback] at hbit
    have hten : iflag.getLsbD 10 = false := hbit 10 (by decide)
    have htwelve : iflag.getLsbD 12 = false := hbit 12 (by decide)
    have hthirteen : iflag.getLsbD 13 = false := hbit 13 (by decide)
    intro index hlow hhigh
    rw [hbit index hhigh, if_neg (Nat.not_lt.2 hlow)]
    simp only [hten, htwelve, hthirteen]
    split_ifs <;> rfl
  · intro hmeets
    apply BitVec.eq_of_getLsbD_eq
    intro index hindex
    rw [getLsbD_iflag_back _ hindex, hmeets 10 (by decide) (by decide),
      hmeets 12 (by decide) (by decide), hmeets 13 (by decide) (by decide)]
    split_ifs with hlow
    · rfl
    · exact (hmeets index (Nat.not_lt.1 hlow) hindex).symm
    · exact (hmeets index (Nat.not_lt.1 hlow) hindex).symm
    · exact (hmeets index (Nat.not_lt.1 hlow) hindex).symm

theorem oflag_back_iff (oflag : BitVec 32) :
    oflagFromBsd oflag (bsdOflag oflag) = oflag ↔ OflagMeets oflag := by
  constructor
  · intro hback
    have hlow := @getLsbD_oflag_back 11 oflag (by decide)
    have hhigh := @getLsbD_oflag_back 12 oflag (by decide)
    rw [hback] at hlow hhigh
    exact hlow.trans hhigh.symm
  · intro hmeets
    apply BitVec.eq_of_getLsbD_eq
    intro index hindex
    rw [getLsbD_oflag_back _ hindex, hmeets, Bool.and_self]
    split_ifs with htabs
    · obtain rfl | rfl := htabs
      · exact hmeets.symm
      · rfl
    · rfl

theorem lflag_back_iff (lflag : BitVec 32) :
    lflagFromBsd lflag (bsdLflag lflag) = lflag ↔ LflagMeets lflag := by
  constructor
  · intro hback
    have hbit (index : ℕ) (hindex : index < 32) := getLsbD_lflag_back lflag hindex
    rw [hback] at hbit
    have height := hbit 8 (by decide)
    have heleven : lflag.getLsbD 11 = false := hbit 11 (by decide)
    have htwelve := hbit 12 (by decide)
    refine ⟨hbit 7 (by decide), hbit 10 (by decide), heleven, fun hset => ?_,
      fun hset => ?_, (hbit 14 (by decide)).symm⟩
    · rw [height, hset]
      rfl
    · rw [htwelve, heleven, hset]
      rfl
  · rintro ⟨hseven, hten, heleven, height, htwelve, hfourteen⟩
    apply BitVec.eq_of_getLsbD_eq
    intro index hindex
    rw [getLsbD_lflag_back _ hindex, hten, heleven, hfourteen, Bool.or_false, Bool.false_or,
      Bool.false_or, Bool.or_eq_right_iff_imp.2 height, Bool.or_eq_right_iff_imp.2 htwelve]
    split_ifs with hclear
    · obtain rfl | rfl | rfl := hclear
      · exact hseven.symm
      · exact hten.symm
      · exact heleven.symm
    all_goals simp_all

theorem cflag_back_iff (beyond : ℕ → BitVec 32) {t : Termios}
    (houtput : KnownSpeed (outputSpeed t.cflag)) (hinput : KnownSpeed (inputSpeed t.cflag)) :
    (bsdToLinuxTermios t (linuxToBsdTermios beyond t)).cflag = t.cflag ↔
      CflagMeets t.cflag := by
  have hbits (index : ℕ) (hindex : index < 32) :=
    getLsbD_cflag_back beyond houtput hinput hindex
  constructor
  · intro hback
    rw [hback] at hbits
    refine ⟨fun index hlow hhigh hset => ?_, fun hset => ?_, fun hzero => ?_⟩
    · rw [hbits index (by omega), if_neg (by omega), if_pos hhigh, hset]
      rfl
    · rw [hbits 31 (by decide)]
      obtain hset | hset := hset <;> simp [hset]
    · apply BitVec.eq_of_getLsbD_eq
      intro index hindex
      rw [getLsbD_outputSpeed _ hindex]
      split_ifs with hspeed
      · -- the set call moves the bit to one of the input speed, which was clear
        have hplace : index + 16 < 32 := by omega
        have hmask : cibaud.getLsbD (index + 16) = true := by
          revert hspeed index
          decide
        have hclear : t.cflag.getLsbD (index + 16) = false := by
          have hbit := congrArg (fun word => word.getLsbD (index + 16)) hzero
          simpa [hmask] using hbit
        have hagain := hbits (index + 16) hplace
        rw [hclear, if_neg (by omega), if_neg (by omega), if_neg (by omega),
          decide_eq_true hzero, getLsbD_outputSpeed_shift _ hplace, if_pos (by omega),
          Nat.add_sub_cancel] at hagain
        simpa using hagain.symm
      · exact BitVec.getLsbD_zero.symm
  · rintro ⟨hmodes, hflow, hhangup⟩
    apply BitVec.eq_of_getLsbD_eq
    intro index hindex
    rw [hbits index hindex]
    split_ifs with hlow hmiddle hlast
    · rfl
    · exact Bool.or_eq_right_iff_imp.2 (hmodes index (by omega) hmiddle)
    · rw [hlast, Bool.or_eq_left_iff_imp.2 (by simpa using hflow)]
    · by_cases hzero : t.cflag &&& cibaud = 0
      · simp [hhangup hzero]
      · rw [decide_eq_false hzero, Bool.false_and, Bool.or_false]

/-- The control characters come back. -/
theorem bsd_chars_back (cc : Fin 19 → BitVec 8) :
    assign bsdSetChars (assign bsdGetChars cc fun _ => 0) cc = cc := by
  funext position
  fin_cases position <;> rfl

attribute [ext] Termios

/-- The settings of a line with a known speed, given to the program and taken back from it
as they are, come back exactly where their flag words meet these conditions. -/
theorem bsdTermios_restores_iff (beyond : ℕ → BitVec 32) (t : Termios)
    (houtput : KnownSpeed (outputSpeed t.cflag)) (hinput : KnownSpeed (inputSpeed t.cflag)) :
    bsdToLinuxTermios t (linuxToBsdTermios beyond t) = t ↔
      IflagMeets t.iflag ∧ OflagMeets t.oflag ∧ CflagMeets t.cflag ∧ LflagMeets t.lflag := by
  rw [← iflag_back_iff, ← oflag_back_iff, ← cflag_back_iff beyond houtput hinput,
    ← lflag_back_iff]
  constructor
  · intro hback
    exact ⟨congrArg Termios.iflag hback, congrArg Termios.oflag hback,
      congrArg Termios.cflag hback, congrArg Termios.lflag hback⟩
  · rintro ⟨hiflag, hoflag, hcflag, hlflag⟩
    exact Termios.ext hiflag hoflag hcflag hlflag rfl (bsd_chars_back t.cc)

/-- The console loses `IXON`. -/
theorem bsdTermios_console_changed :
    bsdToLinuxTermios linuxConsole.termios
      (linuxToBsdTermios (fun _ => 0) linuxConsole.termios) ≠ linuxConsole.termios := by
  intro hback
  have hmeets := (bsdTermios_restores_iff (fun _ => 0) linuxConsole.termios
    (by decide) (by decide)).mp hback
  exact absurd (hmeets.1 10 (by decide) (by decide)) (by decide)

end IbcsUs.Terminals
