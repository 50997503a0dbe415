import Mathlib.Data.Fin.VecNotation
import Mathlib.Tactic.FinCases
import Mathlib.Tactic.IntervalCases
import IbcsUs.Core.Bits

/-!
# Terminal settings

`linux_to_svr4_termios` and `linux_to_sco_termios` store the settings of a
terminal as the emulated systems know them; `svr4_to_linux_termios` and
`sco_to_linux_termios` give the kernel settings made of such a structure and of
those in force.  The flag words are translated alike, the control characters are
at other places.
-/

namespace IbcsUs.Terminals

open IbcsUs.Bits

/-! ## The structures -/

/-- `struct termios` of the kernel. -/
structure Termios where
  iflag : BitVec 32
  oflag : BitVec 32
  cflag : BitVec 32
  lflag : BitVec 32
  line : BitVec 8
  cc : Fin 19 → BitVec 8
  deriving DecidableEq

/-- A terminal: its settings, and whether it is closed to others. -/
structure Terminal where
  termios : Termios
  exclusive : Bool
  deriving DecidableEq

/-- `struct svr4_termios`. -/
structure Svr4Termios where
  iflag : BitVec 32
  oflag : BitVec 32
  cflag : BitVec 32
  lflag : BitVec 32
  cc : Fin 19 → BitVec 8
  deriving DecidableEq

/-- `struct sco_termios`, without the speeds, which nothing reads or writes. -/
structure ScoTermios where
  iflag : BitVec 16
  oflag : BitVec 16
  cflag : BitVec 16
  lflag : BitVec 16
  line : BitVec 8
  cc : Fin 13 → BitVec 8
  deriving DecidableEq

/-- `CRTSCTS`. -/
def crtscts : BitVec 32 := 0o20000000000

/-- `CBAUD`, with the bit of the extended rates. -/
def cbaud : BitVec 32 := 0o10017

/-- `ICANON` is set. -/
def icanon (lflag : BitVec 32) : Bool := lflag &&& 0o2 ≠ 0

/-! ## Flag words -/

/-- What the get calls store for `c_cflag`. -/
def cflagToUser (cflag : BitVec 32) : BitVec 32 :=
  let cflag := if cflag &&& crtscts ≠ 0 then cflag ||| 0o100000 else cflag
  cflag &&& 0o177777

/-- What the set calls make of `c_cflag`. -/
def cflagFromUser (cflag : BitVec 32) : BitVec 32 :=
  let cflag := if cflag &&& 0o100000 ≠ 0 then cflag ||| crtscts else cflag
  cflag &&& ~~~0o170000

/-- What the get calls store for `c_lflag`. -/
def lflagToUser (lflag : BitVec 32) : BitVec 32 :=
  let lflag := lflag &&& ~~~0o1000
  let lflag := lflag ||| (lflag &&& 0o400) <<< 1
  let lflag := lflag &&& ~~~0o400
  let lflag := lflag ||| (lflag &&& 0o100000) >>> 7
  let lflag := lflag &&& ~~~0o100000
  lflag &&& 0o1777

/-- The word of the set calls that holds both the flags in force and the user's.
-/
def lflagMerged (lflag : BitVec 32) (r : BitVec 16) : BitVec 32 :=
  (lflag &&& ~~~0o100777) ||| r.setWidth 32

/-- What the set calls make of `c_lflag`. -/
def lflagFromUser (lflag : BitVec 32) (r : BitVec 16) : BitVec 32 :=
  let saved := lflag.setWidth 16
  let lflag := lflagMerged lflag r
  let lflag := lflag &&& ~~~0o100000
  -- IEXTEN
  let lflag := lflag ||| (lflag &&& 0o400) <<< 7
  let lflag := lflag &&& ~~~0o400
  -- TOSTOP
  let lflag := lflag ||| (lflag &&& 0o1000) >>> 1
  let lflag := lflag &&& ~~~0o1000
  -- ECHOCTL
  lflag ||| (saved.setWidth 32 &&& 0o1000)

/-! ## Control characters -/

/-- Assignments `to[i] = from[j]` in turn. -/
def assign {m n : ℕ} (pairs : List (Fin m × Fin n)) (source : Fin n → BitVec 8)
    (target : Fin m → BitVec 8) : Fin m → BitVec 8 :=
  pairs.foldl (fun target pair =>
    Function.update target pair.1 (source pair.2)) target

/-- The assignments of `linux_to_svr4_termios`. -/
def svr4GetChars (canonical : Bool) : List (Fin 19 × Fin 19) :=
  [(0, 0), (1, 1), (2, 2), (3, 3), (6, 16), (7, 7), (8, 8), (9, 9), (10, 10),
    (11, 10), (12, 12), (13, 13), (14, 14), (15, 15)] ++
  if canonical then [(4, 4), (5, 11)] else [(4, 6), (5, 5)]

/-- The assignments of `svr4_to_linux_termios`. -/
def svr4SetChars (canonical : Bool) : List (Fin 19 × Fin 19) :=
  [(0, 0), (1, 1), (2, 2), (3, 3), (7, 7), (8, 8), (9, 9), (10, 10), (12, 12),
    (13, 13), (14, 14), (15, 15), (16, 16)] ++
  if canonical then [(4, 4), (11, 5)] else [(5, 5), (6, 4), (11, 6)]

/-- The assignments of `linux_to_sco_termios`. -/
def scoGetChars (canonical : Bool) : List (Fin 13 × Fin 19) :=
  [(0, 0), (1, 1), (2, 2), (3, 3), (6, 16), (7, 7), (8, 4), (9, 11), (10, 10),
    (11, 8), (12, 9)] ++
  if canonical then [(4, 4), (5, 11)] else [(4, 6), (5, 5)]

/-- The assignments of `sco_to_linux_termios`. -/
def scoSetChars (canonical : Bool) : List (Fin 19 × Fin 13) :=
  [(0, 0), (1, 1), (2, 2), (3, 3), (7, 7), (8, 11), (9, 12), (10, 10),
    (16, 6)] ++
  if canonical then [(4, 4), (11, 5)] else [(4, 8), (5, 5), (6, 4), (11, 9)]

/-- The positions of the kernel's characters that a pair of calls translates. -/
def translated {m : ℕ} (get : List (Fin m × Fin 19))
    (set : List (Fin 19 × Fin m)) : List (Fin 19) :=
  get.map Prod.snd ++ set.map Prod.fst

/-! ## The calls -/

section Calls

-- what the kernel answers to `TCGETS` and to the call that sets
variable (get set : Except ℕ Unit)

/-- `linux_to_svr4_termios`; `stack` is what `svr4_cc` holds before. -/
def linuxToSvr4Termios (stack : Fin 19 → BitVec 8) (t : Termios) :
    Except ℕ Svr4Termios :=
  get.map fun _ => {
    iflag := t.iflag &&& 0o17777
    oflag := t.oflag &&& 0o177777
    cflag := cflagToUser t.cflag
    lflag := lflagToUser t.lflag
    cc := assign (svr4GetChars (icanon t.lflag)) t.cc stack }

/-- `linux_to_sco_termios`; `stack` is what `sco_cc` holds before. -/
def linuxToScoTermios (stack : Fin 13 → BitVec 8) (t : Termios) :
    Except ℕ ScoTermios :=
  get.map fun _ => {
    iflag := (t.iflag &&& 0o17777).setWidth 16
    oflag := (t.oflag &&& 0o177777).setWidth 16
    cflag := (cflagToUser t.cflag).setWidth 16
    lflag := (lflagToUser t.lflag).setWidth 16
    line := t.line
    cc := assign (scoGetChars (icanon t.lflag)) t.cc stack }

/-- The two ioctls that end a set call. -/
def finishSet (terminal : Terminal) (exclusive : Bool) (t : Termios) :
    Terminal × Except ℕ Unit :=
  match set with
  | .error errno => ({ terminal with exclusive := exclusive }, .error errno)
  | .ok _ => ({ termios := t, exclusive := exclusive }, .ok ())

/-- `svr4_to_linux_termios`. -/
def svr4ToLinuxTermios (terminal : Terminal) (it : Svr4Termios) :
    Terminal × Except ℕ Unit :=
  match get with
  | .error errno => (terminal, .error errno)
  | .ok _ =>
      let t := terminal.termios
      let merged := lflagMerged t.lflag (it.lflag.setWidth 16)
      let lflag := lflagFromUser t.lflag (it.lflag.setWidth 16)
      finishSet set terminal (merged &&& 0o100000 ≠ 0) {
        iflag := it.iflag &&& ~~~0o100000
        oflag := it.oflag
        cflag := cflagFromUser it.cflag
        lflag := lflag
        line := t.line
        cc := assign (svr4SetChars (icanon lflag)) it.cc t.cc }

/-- `sco_to_linux_termios`. -/
def scoToLinuxTermios (terminal : Terminal) (it : ScoTermios) :
    Terminal × Except ℕ Unit :=
  match get with
  | .error errno => (terminal, .error errno)
  | .ok _ =>
      let t := terminal.termios
      let merged := lflagMerged t.lflag it.lflag
      let lflag := lflagFromUser t.lflag it.lflag
      finishSet set terminal (merged &&& 0o100000 ≠ 0) {
        iflag := it.iflag.setWidth 32 &&& ~~~0o100000
        oflag := it.oflag.setWidth 32
        cflag := cflagFromUser (it.cflag.setWidth 32)
        lflag := lflag
        line := it.line
        cc := assign (scoSetChars (icanon lflag)) it.cc t.cc }

end Calls

/-! ## What is meant -/

/-- Settings `u` got from a terminal and given back to it: the terminal reports
`u` again, and its translated characters and its speed are what they were. -/
def Restores {User : Type} (report : Termios → Except ℕ User) (user : User)
    (positions : List (Fin 19)) (before : Termios)
    (after : Terminal × Except ℕ Unit) : Prop :=
  after.2 = .ok () ∧ report after.1.termios = .ok user ∧
    (∀ position ∈ positions,
      after.1.termios.cc position = before.cc position) ∧
    after.1.termios.cflag &&& cbaud = before.cflag &&& cbaud

/-- The SVR4 pair saves and restores a terminal.  `first` and `second` are what
the stack holds when the settings are got. -/
def Svr4Restores (first second : Fin 19 → BitVec 8) (terminal : Terminal) :
    Prop :=
  ∀ u, linuxToSvr4Termios (.ok ()) first terminal.termios = .ok u →
    Restores (linuxToSvr4Termios (.ok ()) second) u
      (translated (svr4GetChars (icanon terminal.termios.lflag))
        (svr4SetChars (icanon terminal.termios.lflag)))
      terminal.termios (svr4ToLinuxTermios (.ok ()) (.ok ()) terminal u)

/-- The SCO pair saves and restores a terminal. -/
def ScoRestores (first second : Fin 13 → BitVec 8) (terminal : Terminal) :
    Prop :=
  ∀ u, linuxToScoTermios (.ok ()) first terminal.termios = .ok u →
    Restores (linuxToScoTermios (.ok ()) second) u
      (translated (scoGetChars (icanon terminal.termios.lflag))
        (scoSetChars (icanon terminal.termios.lflag)))
      terminal.termios (scoToLinuxTermios (.ok ()) (.ok ()) terminal u)

/-- `ECHOCTL` is clear or `TOSTOP` set, and neither the bit of the extended
rates nor the two above it are set. -/
def FlagsMeet (t : Termios) : Prop :=
  (t.lflag &&& 0o1000 = 0 ∨ t.lflag &&& 0o400 ≠ 0) ∧ t.cflag &&& 0o70000 = 0

/-- Where the SVR4 structure has no place for a character, what the stack holds
is the same both times and `VEOL2`; without `ICANON`, `VEOL2` is `VEOL`. -/
def Svr4CharsMeet (first second : Fin 19 → BitVec 8) (t : Termios) : Prop :=
  first 16 = t.cc 16 ∧ second 16 = first 16 ∧ second 17 = first 17 ∧
    second 18 = first 18 ∧ (icanon t.lflag = true ∨ t.cc 16 = t.cc 11)

/-! ## Flag words -/

section Flags

variable {lflag cflag : BitVec 32} {r : BitVec 16} {index : ℕ}

/-- The bits that the get calls store for `c_lflag`. -/
theorem getLsbD_lflagToUser (lflag : BitVec 32) (hindex : index < 32) :
    (lflagToUser lflag).getLsbD index =
      if index < 8 then lflag.getLsbD index
      else if index = 8 then lflag.getLsbD 15
      else if index = 9 then lflag.getLsbD 8
      else false := by
  rw [lflagToUser]
  interval_cases index <;> simp

/-- The bits that the set calls make of `c_lflag`. -/
theorem getLsbD_lflagFromUser (lflag : BitVec 32) (r : BitVec 16)
    (hindex : index < 32) :
    (lflagFromUser lflag r).getLsbD index =
      if index < 8 then r.getLsbD index
      else if index = 8 then lflag.getLsbD 9 || r.getLsbD 9
      else if index = 9 then lflag.getLsbD 9
      else if index < 15 then lflag.getLsbD index || r.getLsbD index
      else if index = 15 then r.getLsbD 8
      else lflag.getLsbD index := by
  rw [lflagFromUser, lflagMerged]
  interval_cases index <;> simp

/-- The bits that the get calls store for `c_cflag`. -/
theorem getLsbD_cflagToUser (cflag : BitVec 32) (hindex : index < 32) :
    (cflagToUser cflag).getLsbD index =
      if index < 15 then cflag.getLsbD index
      else if index = 15 then cflag.getLsbD 15 || cflag.getLsbD 31
      else false := by
  have hcrtscts : cflag &&& crtscts ≠ 0 ↔ cflag.getLsbD 31 = true :=
    @and_shiftLeft_ne_zero 32 31 cflag (by decide)
  rw [cflagToUser]
  by_cases hset : cflag.getLsbD 31 = true
  · rw [if_pos (hcrtscts.2 hset)]
    interval_cases index <;> simp [hset]
  · rw [if_neg (mt hcrtscts.1 hset)]
    rw [Bool.not_eq_true, BitVec.getLsbD_eq_getElem (by decide)] at hset
    interval_cases index <;> simp [hset]

/-- The bits that the set calls make of `c_cflag`. -/
theorem getLsbD_cflagFromUser (cflag : BitVec 32) (hindex : index < 32) :
    (cflagFromUser cflag).getLsbD index =
      if index < 12 then cflag.getLsbD index
      else if index < 16 then false
      else if index < 31 then cflag.getLsbD index
      else cflag.getLsbD 31 || cflag.getLsbD 15 := by
  have hflow : cflag &&& 0o100000 ≠ 0 ↔ cflag.getLsbD 15 = true :=
    @and_shiftLeft_ne_zero 32 15 cflag (by decide)
  rw [cflagFromUser, crtscts]
  by_cases hset : cflag.getLsbD 15 = true
  · rw [if_pos (hflow.2 hset)]
    interval_cases index <;> simp [hset]
  · rw [if_neg (mt hflow.1 hset)]
    rw [Bool.not_eq_true, BitVec.getLsbD_eq_getElem (by decide)] at hset
    interval_cases index <;> simp [hset]

theorem icanon_eq (lflag : BitVec 32) : icanon lflag = lflag.getLsbD 1 := by
  have hbit : lflag &&& 0o2 ≠ 0 ↔ lflag.getLsbD 1 = true :=
    @and_shiftLeft_ne_zero 32 1 lflag (by decide)
  rw [Bool.eq_iff_iff, icanon, decide_eq_true_eq, hbit]

/-- `ICANON` comes back. -/
theorem icanon_lflagFromUser (lflag old : BitVec 32) :
    icanon (lflagFromUser old ((lflagToUser lflag).setWidth 16)) =
      icanon lflag := by
  rw [icanon_eq, icanon_eq, getLsbD_lflagFromUser _ _ (by decide),
    if_pos (by decide), BitVec.getLsbD_setWidth,
    getLsbD_lflagToUser _ (by decide)]
  rfl

/-- What the get calls store for the `c_lflag` of a set call. -/
theorem getLsbD_lflag_again (lflag : BitVec 32) (r : BitVec 16)
    (hindex : index < 32) :
    (lflagToUser (lflagFromUser lflag r)).getLsbD index =
      if index < 9 then r.getLsbD index
      else if index = 9 then lflag.getLsbD 9 || r.getLsbD 9
      else false := by
  rw [getLsbD_lflagToUser _ hindex, getLsbD_lflagFromUser _ _ hindex,
    @getLsbD_lflagFromUser 15 _ _ (by decide),
    @getLsbD_lflagFromUser 8 _ _ (by decide)]
  by_cases hlow : index < 8
  · rw [if_pos hlow, if_pos hlow, if_pos (by omega)]
  · rw [if_neg hlow]
    by_cases height : index = 8
    · subst height
      rfl
    · rw [if_neg height, if_neg (show ¬ index < 9 by omega)]
      rfl

/-- The local modes come back unless `ECHOCTL` is taken for `TOSTOP`. -/
theorem lflag_restored_iff (lflag : BitVec 32) :
    lflagToUser (lflagFromUser lflag ((lflagToUser lflag).setWidth 16)) =
        lflagToUser lflag ↔
      lflag.getLsbD 9 = false ∨ lflag.getLsbD 8 = true := by
  have hstop : (lflagToUser lflag).getLsbD 9 = lflag.getLsbD 8 :=
    getLsbD_lflagToUser lflag (by decide)
  have hagain : (lflagToUser (lflagFromUser lflag
      ((lflagToUser lflag).setWidth 16))).getLsbD 9 =
        (lflag.getLsbD 9 || lflag.getLsbD 8) := by
    rw [getLsbD_lflag_again _ _ (by decide), BitVec.getLsbD_setWidth, hstop]
    rfl
  constructor
  · intro hrestored
    rw [hrestored, hstop] at hagain
    cases hechoctl : lflag.getLsbD 9
    · exact .inl rfl
    · rw [hagain, hechoctl]
      exact .inr rfl
  · intro hflags
    apply BitVec.eq_of_getLsbD_eq
    intro index hindex
    by_cases hnine : index = 9
    · rw [hnine, hagain, hstop]
      obtain hclear | hset := hflags
      · rw [hclear, Bool.false_or]
      · rw [hset, Bool.or_true]
    · rw [getLsbD_lflag_again _ _ hindex, if_neg hnine,
        BitVec.getLsbD_setWidth]
      by_cases hlow : index < 9
      · rw [if_pos hlow, decide_eq_true (by omega), Bool.true_and]
      · rw [if_neg hlow, getLsbD_lflagToUser _ hindex, if_neg (by omega),
          if_neg (by omega), if_neg hnine]

/-- What the get calls store for the `c_cflag` of a set call. -/
theorem getLsbD_cflag_again (cflag : BitVec 32) (hindex : index < 32) :
    (cflagToUser (cflagFromUser cflag)).getLsbD index =
      if index < 12 then cflag.getLsbD index
      else if index = 15 then cflag.getLsbD 31 || cflag.getLsbD 15
      else false := by
  rw [getLsbD_cflagToUser _ hindex, getLsbD_cflagFromUser _ hindex,
    @getLsbD_cflagFromUser 15 _ (by decide),
    @getLsbD_cflagFromUser 31 _ (by decide)]
  by_cases hlow : index < 12
  · rw [if_pos (show index < 15 by omega), if_pos hlow, if_pos hlow]
  · rw [if_neg hlow, if_neg hlow]
    by_cases hmiddle : index < 15
    · rw [if_pos hmiddle, if_pos (by omega), if_neg (by omega)]
    · rw [if_neg hmiddle]
      rfl

/-- The control modes come back where three of their bits are clear. -/
theorem cflag_restored_iff (cflag : BitVec 32) :
    cflagToUser (cflagFromUser (cflagToUser cflag)) = cflagToUser cflag ↔
      ∀ index, 12 ≤ index → index < 15 → cflag.getLsbD index = false := by
  constructor
  · intro hrestored index hlow hhigh
    have hagain := @getLsbD_cflag_again index (cflagToUser cflag) (by omega)
    rw [hrestored, if_neg (by omega), if_neg (by omega),
      getLsbD_cflagToUser _ (by omega), if_pos hhigh] at hagain
    exact hagain
  · intro hclear
    apply BitVec.eq_of_getLsbD_eq
    intro index hindex
    rw [getLsbD_cflag_again _ hindex]
    split_ifs with hlow hflow
    · rfl
    · subst hflow
      rw [@getLsbD_cflagToUser 31 _ (by decide)]
      exact Bool.false_or _
    · rw [getLsbD_cflagToUser _ hindex]
      split_ifs with hmiddle
      · exact (hclear index (by omega) hmiddle).symm
      · rfl

/-- The speed comes back unless it is an extended one. -/
theorem cbaud_restored_iff (cflag : BitVec 32) :
    cflagFromUser (cflagToUser cflag) &&& cbaud = cflag &&& cbaud ↔
      cflag.getLsbD 12 = false := by
  have hbaud : ∀ index, index < 32 →
      (cbaud.getLsbD index = true ↔ index < 4 ∨ index = 12) := by
    decide
  constructor
  · intro hrestored
    have hbit := congrArg (fun word => word.getLsbD 12) hrestored
    simp only [BitVec.getLsbD_and,
      @getLsbD_cflagFromUser 12 _ (by decide)] at hbit
    rw [(hbaud 12 (by decide)).2 (.inr rfl), Bool.and_true] at hbit
    have hclear : (cflag.getLsbD 12 && true) = false := hbit.symm
    rwa [Bool.and_true] at hclear
  · intro hclear
    apply eq_of_bits
    intro index hindex
    rw [BitVec.getLsbD_and, BitVec.getLsbD_and, Bool.and_eq_true,
      Bool.and_eq_true, hbaud index hindex]
    apply and_congr_left
    rintro (hlow | rfl)
    · rw [getLsbD_cflagFromUser _ hindex, if_pos (by omega),
        getLsbD_cflagToUser _ hindex, if_pos (by omega)]
    · rw [hclear, @getLsbD_cflagFromUser 12 _ (by decide)]
      rfl

end Flags

/-! ## Control characters -/

section Characters

variable {first second : Fin 19 → BitVec 8} {cc : Fin 19 → BitVec 8}

theorem assign_cons {m n : ℕ} (pair : Fin m × Fin n)
    (pairs : List (Fin m × Fin n)) (source : Fin n → BitVec 8)
    (target : Fin m → BitVec 8) :
    assign (pair :: pairs) source target =
      assign pairs source (Function.update target pair.1 (source pair.2)) := rfl

/-- What is assigned does not depend on what was there before. -/
theorem assign_of_mem {m n : ℕ} {pairs : List (Fin m × Fin n)}
    {source : Fin n → BitVec 8} {left right : Fin m → BitVec 8}
    {position : Fin m}
    (hkeys : position ∈ pairs.map Prod.fst ∨ left position = right position) :
    assign pairs source left position = assign pairs source right position := by
  induction pairs generalizing left right with
  | nil => exact hkeys.resolve_left List.not_mem_nil
  | cons pair pairs ih =>
      rw [assign_cons, assign_cons]
      apply ih
      by_cases hhead : position = pair.1
      · subst hhead
        right
        rw [Function.update_self, Function.update_self]
      · rw [Function.update_of_ne hhead, Function.update_of_ne hhead]
        obtain hmem | hsame := hkeys
        · exact .inl ((List.mem_cons.1 hmem).resolve_left hhead)
        · exact .inr hsame

/-- What is not assigned stays. -/
theorem assign_of_notMem {m n : ℕ} {pairs : List (Fin m × Fin n)}
    {source : Fin n → BitVec 8} {target : Fin m → BitVec 8} {position : Fin m}
    (hkeys : position ∉ pairs.map Prod.fst) :
    assign pairs source target position = target position := by
  induction pairs generalizing target with
  | nil => rfl
  | cons pair pairs ih =>
      rw [List.map_cons, List.mem_cons, not_or] at hkeys
      rw [assign_cons, ih hkeys.2, Function.update_of_ne hkeys.1]

/-- Two structures that the same characters are stored in are the same where
those they are not stored in are. -/
theorem assign_eq_assign_iff {m n : ℕ} (pairs : List (Fin m × Fin n))
    (source : Fin n → BitVec 8) (left right : Fin m → BitVec 8) :
    assign pairs source left = assign pairs source right ↔
      ∀ position, position ∉ pairs.map Prod.fst →
        left position = right position := by
  constructor
  · intro hsame position hkeys
    have hposition := congrFun hsame position
    rwa [assign_of_notMem hkeys, assign_of_notMem hkeys] at hposition
  · intro hrest
    funext position
    apply assign_of_mem
    exact or_iff_not_imp_left.2 (hrest position)

/-- The SVR4 structure has three characters that are not stored. -/
theorem notMem_svr4GetChars (canonical : Bool) (position : Fin 19) :
    position ∉ (svr4GetChars canonical).map Prod.fst ↔
      position = 16 ∨ position = 17 ∨ position = 18 := by
  revert canonical position
  decide

/-- The SCO structure has none. -/
theorem mem_scoGetChars (canonical : Bool) (position : Fin 13) :
    position ∈ (scoGetChars canonical).map Prod.fst := by
  revert canonical position
  decide

/-- The kernel's characters after the SVR4 pair. -/
theorem svr4_chars_after (canonical : Bool) (first cc : Fin 19 → BitVec 8) :
    assign (svr4SetChars canonical) (assign (svr4GetChars canonical) cc first)
        cc =
      fun position =>
        if position = 16 then first 16
        else if canonical = false ∧ position = 11 then cc 16
        else cc position := by
  funext position
  cases canonical <;> fin_cases position <;> rfl

/-- The SCO pair brings back every character. -/
theorem sco_chars_after (canonical : Bool) (first : Fin 13 → BitVec 8)
    (cc : Fin 19 → BitVec 8) :
    assign (scoSetChars canonical) (assign (scoGetChars canonical) cc first)
        cc = cc := by
  funext position
  cases canonical <;> fin_cases position <;> rfl

/-- The characters come back where those that have no place do. -/
theorem svr4_chars_iff (canonical : Bool) (first second : Fin 19 → BitVec 8)
    (cc after : Fin 19 → BitVec 8)
    (hafter : after = assign (svr4SetChars canonical)
      (assign (svr4GetChars canonical) cc first) cc) :
    (assign (svr4GetChars canonical) after second =
        assign (svr4GetChars canonical) cc first ∧
      ∀ position ∈ translated (svr4GetChars canonical)
        (svr4SetChars canonical), after position = cc position) ↔
      first 16 = cc 16 ∧ second 16 = first 16 ∧ second 17 = first 17 ∧
        second 18 = first 18 ∧ (canonical = true ∨ cc 16 = cc 11) := by
  rw [svr4_chars_after] at hafter
  constructor
  · rintro ⟨hsame, hkept⟩
    have hstack : ∀ position : Fin 19,
        position = 16 ∨ position = 17 ∨ position = 18 →
          second position = first position := by
      intro position hhigh
      have hkeys := (notMem_svr4GetChars canonical position).2 hhigh
      have hposition := congrFun hsame position
      rwa [assign_of_notMem hkeys, assign_of_notMem hkeys] at hposition
    have hveol2 : first 16 = cc 16 := by
      have hposition := hkept 16 (by cases canonical <;> decide)
      rwa [hafter] at hposition
    refine ⟨hveol2, hstack 16 (by decide), hstack 17 (by decide),
      hstack 18 (by decide), ?_⟩
    cases canonical with
    | true => exact .inl rfl
    | false =>
        have hposition := hkept 11 (by decide)
        rw [hafter] at hposition
        exact .inr hposition
  · rintro ⟨hveol2, h16, h17, h18, hveol⟩
    have hall : after = cc := by
      rw [hafter]
      funext position
      split_ifs with hsixteen heleven
      · rw [hsixteen, hveol2]
      · rw [heleven.2]
        exact hveol.resolve_left (by rw [heleven.1]; decide)
      · rfl
    constructor
    · rw [hall, assign_eq_assign_iff]
      intro position hkeys
      obtain rfl | rfl | rfl := (notMem_svr4GetChars canonical position).1 hkeys
      · exact h16
      · exact h17
      · exact h18
    · exact fun position _ => congrFun hall position

end Characters

/-! ## Saving and restoring -/

section Pairs

variable {terminal : Terminal}

theorem echoctl_iff (lflag : BitVec 32) :
    (lflag &&& 0o1000 = 0 ∨ lflag &&& 0o400 ≠ 0) ↔
      lflag.getLsbD 9 = false ∨ lflag.getLsbD 8 = true := by
  have hechoctl : lflag &&& 0o1000 ≠ 0 ↔ lflag.getLsbD 9 = true :=
    @and_shiftLeft_ne_zero 32 9 lflag (by decide)
  have htostop : lflag &&& 0o400 ≠ 0 ↔ lflag.getLsbD 8 = true :=
    @and_shiftLeft_ne_zero 32 8 lflag (by decide)
  have hclear : lflag &&& 0o1000 = 0 ↔ lflag.getLsbD 9 = false := by
    rw [← Bool.not_eq_true, ← hechoctl, not_not]
  exact or_congr hclear htostop

theorem extended_iff (cflag : BitVec 32) :
    cflag &&& 0o70000 = 0 ↔
      ∀ index, 12 ≤ index → index < 15 → cflag.getLsbD index = false := by
  have hmask : ∀ index, index < 32 →
      ((0o70000 : BitVec 32).getLsbD index = true ↔
        12 ≤ index ∧ index < 15) := by
    decide
  constructor
  · intro hzero index hlow hhigh
    have hbit := congrArg (fun word => word.getLsbD index) hzero
    simp only [BitVec.getLsbD_and] at hbit
    rw [(hmask index (by omega)).2 ⟨hlow, hhigh⟩, Bool.and_true] at hbit
    simpa using hbit
  · intro hclear
    apply eq_of_bits
    intro index hindex
    rw [BitVec.getLsbD_and, Bool.and_eq_true, hmask index hindex]
    apply iff_of_false
    · rintro ⟨hset, hlow, hhigh⟩
      rw [hclear index hlow hhigh] at hset
      cases hset
    · simp

/-- The SVR4 pair restores a terminal exactly under the two conditions. -/
theorem svr4_restores_iff (first second : Fin 19 → BitVec 8)
    (terminal : Terminal) :
    Svr4Restores first second terminal ↔
      FlagsMeet terminal.termios ∧
        Svr4CharsMeet first second terminal.termios := by
  have hchars := svr4_chars_iff (icanon terminal.termios.lflag) first second
    terminal.termios.cc _ rfl
  have hlow : terminal.termios.iflag &&& 0o17777 &&& ~~~0o100000 &&& 0o17777 =
      terminal.termios.iflag &&& 0o17777 := by
    rw [BitVec.and_assoc, BitVec.and_assoc]
    rfl
  have hwide : terminal.termios.oflag &&& 0o177777 &&& 0o177777 =
      terminal.termios.oflag &&& 0o177777 := by
    rw [BitVec.and_assoc]
    rfl
  have hflags : FlagsMeet terminal.termios ↔ _ :=
    and_congr (echoctl_iff terminal.termios.lflag)
      (extended_iff terminal.termios.cflag)
  simp only [Svr4Restores, linuxToSvr4Termios, Except.map, Except.ok.injEq,
    forall_eq', Restores, svr4ToLinuxTermios, finishSet, Svr4Termios.mk.injEq,
    true_and, icanon_lflagFromUser, hlow, hwide, hflags, cflag_restored_iff,
    lflag_restored_iff, cbaud_restored_iff]
  constructor
  · rintro ⟨⟨hextended, hechoctl, hcc⟩, hpositions, -⟩
    exact ⟨⟨hechoctl, hextended⟩, hchars.1 ⟨hcc, hpositions⟩⟩
  · rintro ⟨⟨hechoctl, hextended⟩, hmeet⟩
    obtain ⟨hcc, hpositions⟩ := hchars.2 hmeet
    exact ⟨⟨hextended, hechoctl, hcc⟩, hpositions,
      hextended 12 (by decide) (by decide)⟩

/-- A masked word goes through a `u_int16_t` unchanged. -/
theorem narrow_and (word : BitVec 32) {mask : BitVec 32}
    (hmask : mask.toNat < 2 ^ 16) :
    ((word &&& mask).setWidth 16).setWidth 32 = word &&& mask := by
  apply setWidth_setWidth_of_low
  intro index hindex
  have hhigh : mask.getLsbD index = false :=
    Nat.testBit_lt_two_pow
      (Nat.lt_of_lt_of_le hmask (Nat.pow_le_pow_right (by decide) hindex))
  rw [BitVec.getLsbD_and, hhigh, Bool.and_false]

theorem narrow_lflagToUser (lflag : BitVec 32) :
    ((lflagToUser lflag).setWidth 16).setWidth 32 = lflagToUser lflag :=
  narrow_and _ (by decide)

theorem narrow_cflagToUser (cflag : BitVec 32) :
    ((cflagToUser cflag).setWidth 16).setWidth 32 = cflagToUser cflag :=
  narrow_and _ (by decide)

/-- The narrowed words are the same where the words are. -/
theorem narrow_inj {left right : BitVec 32}
    (hleft : (left.setWidth 16).setWidth 32 = left)
    (hright : (right.setWidth 16).setWidth 32 = right) :
    left.setWidth 16 = right.setWidth 16 ↔ left = right := by
  constructor
  · intro hsame
    rw [← hleft, hsame, hright]
  · exact congrArg _

/-- The SCO pair restores a terminal exactly where the flags let it. -/
theorem sco_restores_iff (first second : Fin 13 → BitVec 8)
    (terminal : Terminal) :
    ScoRestores first second terminal ↔ FlagsMeet terminal.termios := by
  have hlow : terminal.termios.iflag &&& 0o17777 &&& ~~~0o100000 &&& 0o17777 =
      terminal.termios.iflag &&& 0o17777 := by
    rw [BitVec.and_assoc, BitVec.and_assoc]
    rfl
  have hiflag : ((terminal.termios.iflag &&& 0o17777).setWidth 16).setWidth 32 =
      terminal.termios.iflag &&& 0o17777 :=
    narrow_and _ (by decide)
  have hoflag : ((terminal.termios.oflag &&& 0o177777).setWidth 16).setWidth 32 =
      terminal.termios.oflag &&& 0o177777 :=
    narrow_and _ (by decide)
  have hwide : terminal.termios.oflag &&& 0o177777 &&& 0o177777 =
      terminal.termios.oflag &&& 0o177777 := by
    rw [BitVec.and_assoc]
    rfl
  have hcc : assign (scoGetChars (icanon terminal.termios.lflag))
      terminal.termios.cc second =
        assign (scoGetChars (icanon terminal.termios.lflag))
          terminal.termios.cc first := by
    rw [assign_eq_assign_iff]
    exact fun position hkeys => absurd (mem_scoGetChars _ position) hkeys
  have hflags : FlagsMeet terminal.termios ↔ _ :=
    and_congr (echoctl_iff terminal.termios.lflag)
      (extended_iff terminal.termios.cflag)
  simp only [ScoRestores, linuxToScoTermios, Except.map, Except.ok.injEq,
    forall_eq', Restores, scoToLinuxTermios, finishSet, ScoTermios.mk.injEq,
    true_and, icanon_lflagFromUser, hiflag, hlow, hoflag, hwide,
    narrow_cflagToUser, sco_chars_after, hcc, hflags, and_true,
    narrow_inj (narrow_cflagToUser _) (narrow_cflagToUser _),
    narrow_inj (narrow_lflagToUser _) (narrow_lflagToUser _),
    cflag_restored_iff, lflag_restored_iff, cbaud_restored_iff]
  constructor
  · rintro ⟨⟨hextended, hechoctl⟩, -⟩
    exact ⟨hechoctl, hextended⟩
  · rintro ⟨hechoctl, hextended⟩
    exact ⟨⟨hextended, hechoctl⟩, fun _ _ => trivial,
      hextended 12 (by decide) (by decide)⟩

/-- Terminal settings come back exactly as the two pairs' conditions say. -/
theorem termios_restore_iff (svr4First svr4Second : Fin 19 → BitVec 8)
    (scoFirst scoSecond : Fin 13 → BitVec 8) (terminal : Terminal) :
    (Svr4Restores svr4First svr4Second terminal ↔
        FlagsMeet terminal.termios ∧
          Svr4CharsMeet svr4First svr4Second terminal.termios) ∧
      (ScoRestores scoFirst scoSecond terminal ↔
        FlagsMeet terminal.termios) :=
  ⟨svr4_restores_iff svr4First svr4Second terminal,
    sco_restores_iff scoFirst scoSecond terminal⟩

/-- The settings that a Linux terminal starts with: among others `ECHOCTL`, and
not `TOSTOP`. -/
def linuxConsole : Terminal where
  termios := {
    iflag := 0o2400
    oflag := 0o5
    cflag := 0o277
    lflag := 0o105073
    line := 0
    cc := ![3, 28, 127, 21, 4, 0, 1, 0, 17, 19, 26, 0, 18, 15, 23, 22, 0, 0,
      0] }
  exclusive := false

/-- Saving and restoring them sets `TOSTOP`. -/
theorem linuxConsole_not_restored :
    lflagFromUser linuxConsole.termios.lflag
        ((lflagToUser linuxConsole.termios.lflag).setWidth 16) = 0o105473 ∧
      ¬ Svr4Restores (fun _ => 0) (fun _ => 0) linuxConsole ∧
      ¬ ScoRestores (fun _ => 0) (fun _ => 0) linuxConsole := by
  have hflags : ¬ FlagsMeet linuxConsole.termios := by
    rintro ⟨hechoctl, -⟩
    exact absurd hechoctl (by decide)
  refine ⟨by decide, ?_, ?_⟩
  · rw [svr4_restores_iff]
    exact fun hmeet => hflags hmeet.1
  · rw [sco_restores_iff]
    exact hflags

end Pairs

end IbcsUs.Terminals
