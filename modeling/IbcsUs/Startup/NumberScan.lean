import IbcsUs.Core.Numerals
import IbcsUs.Startup.FlagExpressions

/-!
# What `simple_strtoul` takes for a number

`simple_strtoul` folds the case of a character before it looks at it, and never asks
whether a digit is one of the base.  It takes letters for decimal digits, and ten
control characters for the digits 0 to 9.  The option for the log takes its argument
for a descriptor when the whole of it has been scanned.
-/

namespace IbcsUs.NumberScan

open FlagExpressions Numerals Strings

/-! ## `--log` -/

/-- What the option for the log makes of its argument. -/
inductive LogTarget where
  | descriptor (fd : Word)
  | file (name : List Char)
  deriving DecidableEq

/-- The branch of `parse_cmdline_options` for `--log`. -/
def logTarget (arg : List Char) : LogTarget :=
  let (fd, endp) := simpleStrtoul arg 0
  if arg.headD nul ≠ nul ∧ endp.headD nul = nul then .descriptor fd else .file arg

/-! ## What a number is -/

/-- The base in force, and the text of the digits. -/
def inForce : List Char → ℕ → ℕ × List Char
  | '0' :: 'x' :: text, _ | '0' :: 'X' :: text, _ => (16, text)
  | '0' :: 'o' :: text, _ | '0' :: 'O' :: text, _ => (8, text)
  | text, base => (if base = 0 then 10 else base, text)

/-- The digits of a base. -/
def baseDigit (base : ℕ) (letter : Char) : Option ℕ :=
  (hexDigit letter).filter (· < base)

/-- The digits of the base in force are scanned, and nothing else. -/
def ScanRight (text : List Char) (base : ℕ) : Prop :=
  let (force, rest) := inForce text base
  let isDigit := isDigit (baseDigit force)
  ∃ value, readNumeral (baseDigit force) force (rest.takeWhile isDigit) 0 = some value ∧
    simpleStrtoul text (BitVec.ofNat 32 base) =
      (BitVec.ofNat 32 value, rest.dropWhile isDigit)

/-- The value of a text that is a numeral. -/
def numeral (arg : List Char) : Option ℕ :=
  let (force, rest) := inForce arg 0
  if rest = [] then none else readNumeral (baseDigit force) force rest 0

/-- A numeral is a descriptor, anything else a file. -/
def LogRight (arg : List Char) : Prop :=
  logTarget arg =
    match numeral arg with
    | some value => .descriptor (BitVec.ofNat 32 value)
    | none => .file arg

instance (arg : List Char) : Decidable (LogRight arg) := inferInstanceAs (Decidable (_ = _))

/-! ## When it is found -/

/-- The control characters that differ from a digit by `0x20` alone. -/
def FoldsToDigit (letter : Char) : Prop := 0x10 ≤ letter.toNat ∧ letter.toNat ≤ 0x19

instance (letter : Char) : Decidable (FoldsToDigit letter) :=
  inferInstanceAs (Decidable (_ ∧ _))

/-- What is taken for a digit of a base, and is none. -/
def Misread (base : ℕ) (letter : Char) : Prop :=
  FoldsToDigit letter ∨ ∃ value ∈ hexDigit letter, base ≤ value

instance (base : ℕ) (letter : Char) : Decidable (Misread base letter) :=
  inferInstanceAs (Decidable (_ ∨ ∃ value ∈ hexDigit letter, base ≤ value))

/-- The first character that is no digit of the base in force is not misread. -/
def ScanMeets (text : List Char) (base : ℕ) : Prop :=
  let (force, rest) := inForce text base
  ∀ letter ∈ (rest.dropWhile (isDigit (baseDigit force))).head?, ¬ Misread force letter

instance (text : List Char) (base : ℕ) : Decidable (ScanMeets text base) :=
  Option.decidableForallMem _

/-- There is something behind a prefix, and a text of digits and misread characters
has none of the latter. -/
def LogMeets (arg : List Char) : Prop :=
  let (force, rest) := inForce arg 0
  (rest = [] → arg = []) ∧
    ((∀ letter ∈ rest, (hexDigit letter).isSome ∨ FoldsToDigit letter) →
      ∀ letter ∈ rest, ¬ Misread force letter)

instance (arg : List Char) : Decidable (LogMeets arg) :=
  have scanned : Decidable (∀ letter ∈ (inForce arg 0).2,
      (hexDigit letter).isSome ∨ FoldsToDigit letter) := List.decidableBAll _ _
  have right : Decidable (∀ letter ∈ (inForce arg 0).2,
      ¬ Misread (inForce arg 0).1 letter) := List.decidableBAll _ _
  @instDecidableAnd _ _ inferInstance (@instDecidableForall _ _ scanned right)

/-! ## One character -/

section Letters

variable {letter : Char} {force base : ℕ}

theorem digitOf_of_foldsToDigit (hfolds : FoldsToDigit letter) :
    (digitOf letter).isSome := by
  obtain ⟨hlow, hhigh⟩ := hfolds
  have hlcase := or_lcaseBit letter.toNat (by omega)
  rw [if_neg (by omega)] at hlcase
  rw [digitOf]
  rw [hlcase, if_pos (by omega)]
  rfl

/-- What the scanner takes for a digit. -/
theorem isSome_digitOf_iff :
    (digitOf letter).isSome ↔ (hexDigit letter).isSome ∨ FoldsToDigit letter := by
  constructor
  · intro hdigit
    by_cases hbound : letter.toNat < 128
    · have hlcase := or_lcaseBit letter.toNat hbound
      rw [digitOf] at hdigit
      rw [hlcase] at hdigit
      rw [hexDigit, FoldsToDigit]
      split_ifs at hdigit ⊢ <;> simp at hdigit ⊢ <;> omega
    · have hge : letter.toNat ≤ letter.toNat ||| 0x20 := Nat.left_le_or
      rw [digitOf] at hdigit
      rw [if_neg (by omega), if_neg (by omega)] at hdigit
      cases hdigit
  · rintro (hdigit | hfolds)
    · obtain ⟨value, hvalue⟩ := Option.isSome_iff_exists.mp hdigit
      rw [digitOf_of_hexDigit hvalue]
      rfl
    · exact digitOf_of_foldsToDigit hfolds

/-- A character is a digit of the base, or misread, or not taken. -/
theorem misread_iff : Misread force letter ↔
    (digitOf letter).isSome ∧ isDigit (baseDigit force) letter = false := by
  rw [isSome_digitOf_iff, Misread, isDigit, baseDigit]
  cases hdigit : hexDigit letter with
  | none => simp
  | some value =>
      by_cases hlt : value < force
      · have hnotFolds : ¬ FoldsToDigit letter := by
          rw [FoldsToDigit]
          rw [hexDigit] at hdigit
          split_ifs at hdigit <;> omega
        simp [hlt, hnotFolds]
      · simp [hlt, Nat.le_of_not_lt hlt]

theorem isSome_digitOf_of_isDigit (hdigit : isDigit (baseDigit force) letter) :
    (digitOf letter).isSome := by
  obtain ⟨value, hvalue⟩ := Option.isSome_iff_exists.mp hdigit
  rw [digitOf_of_hexDigit (Option.filter_eq_some_iff.mp hvalue).1]
  rfl

end Letters

/-! ## The prefix -/

theorem lcase_x_iff {letter : Char} :
    letter.toNat ||| 0x20 = 'x'.toNat ↔ letter = 'x' ∨ letter = 'X' := by
  refine ⟨eq_of_lcase_x, ?_⟩
  rintro (rfl | rfl) <;> decide

theorem lcase_o_iff {letter : Char} :
    letter.toNat ||| 0x20 = 'o'.toNat ↔ letter = 'o' ∨ letter = 'O' := by
  constructor
  · intro hlcase
    have hcode : letter.toNat = 'o'.toNat ∨ letter.toNat + 32 = 'o'.toNat :=
      toNat_of_lcase (by decide) hlcase
    refine hcode.imp Char.toNat_inj.mp fun hupper => Char.toNat_inj.mp ?_
    have ho : 'o'.toNat = 111 := rfl
    have hO : 'O'.toNat = 79 := rfl
    omega
  · rintro (rfl | rfl) <;> decide

/-- A text without a prefix. -/
theorem inForce_of_plain {text : List Char} (base : ℕ)
    (hplain : ∀ letter rest, text = '0' :: letter :: rest →
      ¬ (letter = 'x' ∨ letter = 'X') ∧ ¬ (letter = 'o' ∨ letter = 'O')) :
    inForce text base = (if base = 0 then 10 else base, text) := by
  rw [inForce.eq_def]
  split
  · exact absurd (.inl rfl) (hplain _ _ rfl).1
  · exact absurd (.inr rfl) (hplain _ _ rfl).1
  · exact absurd (.inl rfl) (hplain _ _ rfl).2
  · exact absurd (.inr rfl) (hplain _ _ rfl).2
  · rfl

/-- The base as a word, with 10 for 0. -/
theorem ofNat_default {base : ℕ} (hbase : base < 2 ^ 32) :
    (if BitVec.ofNat 32 base = 0 then (10 : Word) else BitVec.ofNat 32 base) =
      BitVec.ofNat 32 (if base = 0 then 10 else base) := by
  have hzero : BitVec.ofNat 32 base = 0 ↔ base = 0 := by
    rw [← BitVec.toNat_inj, BitVec.toNat_ofNat, Nat.mod_eq_of_lt hbase]
    rfl
  by_cases hsame : base = 0
  · rw [if_pos (hzero.mpr hsame), if_pos hsame]
    rfl
  · rw [if_neg (mt hzero.mp hsame), if_neg hsame]

section Prefixes

variable {letter : Char} {text : List Char} {base : Word}

theorem strtoulBase_of_x (hx : letter = 'x' ∨ letter = 'X') :
    strtoulBase ('0' :: letter :: text) base = (16, text) := by
  rw [strtoulBase, if_pos (by rfl)]
  simp only [List.getD_cons_succ, List.getD_cons_zero, lcase_x_iff]
  rw [if_pos hx]
  rfl

theorem strtoulBase_of_o (ho : letter = 'o' ∨ letter = 'O') :
    strtoulBase ('0' :: letter :: text) base = (8, text) := by
  have hx : ¬ (letter = 'x' ∨ letter = 'X') := by
    obtain rfl | rfl := ho <;> decide
  rw [strtoulBase, if_pos (by rfl)]
  simp only [List.getD_cons_succ, List.getD_cons_zero, lcase_x_iff, lcase_o_iff]
  rw [if_neg hx, if_pos ho]
  rfl

end Prefixes

theorem strtoulBase_of_plain {text : List Char} (base : Word)
    (hplain : ∀ letter rest, text = '0' :: letter :: rest →
      ¬ (letter = 'x' ∨ letter = 'X') ∧ ¬ (letter = 'o' ∨ letter = 'O')) :
    strtoulBase text base = (base, text) := by
  cases text with
  | nil => exact if_neg (by decide)
  | cons letter rest =>
      by_cases hzero : letter = '0'
      · subst hzero
        cases rest with
        | nil => exact (if_pos rfl).trans ((if_neg (by decide)).trans (if_neg (by decide)))
        | cons second rest =>
            obtain ⟨hx, ho⟩ := hplain second rest rfl
            rw [strtoulBase, if_pos (by rfl)]
            simp only [List.getD_cons_succ, List.getD_cons_zero, lcase_x_iff, lcase_o_iff]
            rw [if_neg hx, if_neg ho]
      · exact if_neg hzero

/-- The scanner is the loop over the digits, in the base in force. -/
theorem simpleStrtoul_eq (text : List Char) {base : ℕ} (hbase : base < 2 ^ 32) :
    simpleStrtoul text (BitVec.ofNat 32 base) =
      strtoulDigits (BitVec.ofNat 32 (inForce text base).1) (inForce text base).2 0 := by
  by_cases hprefix : ∃ letter rest, text = '0' :: letter :: rest ∧
      ((letter = 'x' ∨ letter = 'X') ∨ (letter = 'o' ∨ letter = 'O'))
  · obtain ⟨letter, rest, rfl, hx | ho⟩ := hprefix
    · rw [simpleStrtoul, strtoulBase_of_x hx]
      obtain rfl | rfl := hx <;> rfl
    · rw [simpleStrtoul, strtoulBase_of_o ho]
      obtain rfl | rfl := ho <;> rfl
  · have hplain : ∀ letter rest, text = '0' :: letter :: rest →
        ¬ (letter = 'x' ∨ letter = 'X') ∧ ¬ (letter = 'o' ∨ letter = 'O') :=
      fun letter rest htext => not_or.mp fun hletter => hprefix ⟨letter, rest, htext, hletter⟩
    rw [inForce_of_plain base hplain, simpleStrtoul, strtoulBase_of_plain _ hplain]
    dsimp only
    rw [ofNat_default hbase]

/-! ## The digits -/

section Digits

variable {base acc value : ℕ} {front more text : List Char}

/-- The scanner takes a row of digits for what it is. -/
theorem strtoulDigits_front
    (hfront : readNumeral (baseDigit base) base front acc = some value) :
    strtoulDigits (BitVec.ofNat 32 base) (front ++ more) (BitVec.ofNat 32 acc) =
      strtoulDigits (BitVec.ofNat 32 base) more (BitVec.ofNat 32 value) := by
  induction front generalizing acc with
  | nil =>
      obtain rfl := Option.some.inj hfront
      rfl
  | cons letter front ih =>
      obtain ⟨digit, hdigit, hrest⟩ := Option.bind_eq_some_iff.mp hfront
      obtain ⟨hhex, -⟩ := Option.filter_eq_some_iff.mp hdigit
      rw [List.cons_append, strtoulDigits, digitOf_of_hexDigit hhex]
      dsimp only
      rw [← ih hrest]
      congr 1
      rw [← BitVec.ofNat_mul, ← BitVec.ofNat_add]

theorem strtoulDigits_suffix (base : Word) (text : List Char) (result : Word) :
    (strtoulDigits base text result).2 <:+ text := by
  induction text generalizing result with
  | nil => exact List.suffix_rfl
  | cons letter text ih =>
      rw [strtoulDigits]
      split
      · exact (ih _).trans (List.suffix_cons _ _)
      · exact List.suffix_rfl

/-- The scanner stops where it finds no digit. -/
theorem strtoulDigits_stops_iff (base result : Word) (text : List Char) :
    (strtoulDigits base text result).2 = text ↔
      ∀ letter ∈ text.head?, digitOf letter = none := by
  cases text with
  | nil => simp [strtoulDigits]
  | cons letter text =>
      rw [strtoulDigits]
      cases hdigit : digitOf letter with
      | none => simp [hdigit]
      | some digit =>
          have hshort := (strtoulDigits_suffix base text (result * base + digit)).length_le
          simp only [List.head?_cons, Option.mem_some_iff, forall_eq', hdigit, reduceCtorEq,
            iff_false]
          intro heq
          rw [heq, List.length_cons] at hshort
          omega

theorem strtoulDigits_of_stops {base result : Word} {text : List Char}
    (hstops : ∀ letter ∈ text.head?, digitOf letter = none) :
    strtoulDigits base text result = (result, text) := by
  cases text with
  | nil => rfl
  | cons letter text => rw [strtoulDigits, hstops letter rfl]

/-- All of a text is scanned exactly when it consists of what is taken for digits. -/
theorem strtoulDigits_all_iff (base result : Word) (text : List Char) :
    (strtoulDigits base text result).2 = [] ↔
      ∀ letter ∈ text, (digitOf letter).isSome := by
  induction text generalizing result with
  | nil => simp [strtoulDigits]
  | cons letter text ih =>
      rw [strtoulDigits, List.forall_mem_cons]
      cases hdigit : digitOf letter with
      | none => simp
      | some digit => simp [ih]

end Digits

/-! ## A whole number -/

theorem scanRight_iff (text : List Char) {base : ℕ} (hbase : base < 2 ^ 32) :
    ScanRight text base ↔ ScanMeets text base := by
  obtain ⟨force, rest, hforce⟩ : ∃ force rest, inForce text base = (force, rest) :=
    ⟨_, _, rfl⟩
  obtain ⟨value, hvalue⟩ := exists_readNumeral_takeWhile (baseDigit force) force rest
  have hscan : simpleStrtoul text (BitVec.ofNat 32 base) =
      strtoulDigits (BitVec.ofNat 32 force)
        (rest.dropWhile (isDigit (baseDigit force))) (BitVec.ofNat 32 value) := by
    rw [simpleStrtoul_eq text hbase, hforce]
    dsimp only
    have hsplit : rest = rest.takeWhile (isDigit (baseDigit force)) ++
        rest.dropWhile (isDigit (baseDigit force)) := List.takeWhile_append_dropWhile.symm
    nth_rewrite 1 [hsplit]
    exact strtoulDigits_front hvalue
  have hmisread : ∀ letter ∈ (rest.dropWhile (isDigit (baseDigit force))).head?,
      Misread force letter ↔ (digitOf letter).isSome := by
    intro letter hletter
    rw [misread_iff]
    exact and_iff_left (head_dropWhile _ hletter)
  rw [ScanRight, ScanMeets, hforce]
  dsimp only
  rw [hvalue, hscan]
  constructor
  · rintro ⟨found, -, hright⟩ letter hletter hbad
    have hend := congrArg Prod.snd hright
    have hstops := (strtoulDigits_stops_iff _ _ _).mp hend
    rw [hmisread letter hletter, hstops letter hletter] at hbad
    cases hbad
  · intro hmeets
    refine ⟨value, rfl, strtoulDigits_of_stops fun letter hletter => ?_⟩
    exact Option.not_isSome_iff_eq_none.mp (mt (hmisread letter hletter).mpr
      (hmeets letter hletter))

theorem headD_eq_nul_iff {text : List Char} (hnul : nul ∉ text) :
    text.headD nul = nul ↔ text = [] := by
  cases text with
  | nil => simp
  | cons letter text =>
      have hletter : letter ≠ nul := fun heq => hnul (heq ▸ List.mem_cons_self)
      simp [hletter]

theorem inForce_suffix (text : List Char) (base : ℕ) : (inForce text base).2 <:+ text := by
  rw [inForce.eq_def]
  split
  · exact (List.suffix_cons _ _).trans (List.suffix_cons _ _)
  · exact (List.suffix_cons _ _).trans (List.suffix_cons _ _)
  · exact (List.suffix_cons _ _).trans (List.suffix_cons _ _)
  · exact (List.suffix_cons _ _).trans (List.suffix_cons _ _)
  · exact List.suffix_rfl

theorem simpleStrtoul_zero (arg : List Char) :
    simpleStrtoul arg 0 =
      strtoulDigits (BitVec.ofNat 32 (inForce arg 0).1) (inForce arg 0).2 0 :=
  simpleStrtoul_eq arg (by decide : 0 < 2 ^ 32)

/-- The argument is taken for a descriptor when all of it is scanned. -/
theorem logTarget_eq {arg : List Char} (hnul : nul ∉ arg) :
    logTarget arg =
      if arg ≠ [] ∧ (inForce arg 0).2.all (fun letter => (digitOf letter).isSome) then
        .descriptor (simpleStrtoul arg 0).1
      else .file arg := by
  have hsuffix : (simpleStrtoul arg 0).2 <:+ arg := by
    rw [simpleStrtoul_zero]
    exact (strtoulDigits_suffix _ _ _).trans (inForce_suffix arg 0)
  have hend : nul ∉ (simpleStrtoul arg 0).2 := fun hmem => hnul (hsuffix.subset hmem)
  have hall : (simpleStrtoul arg 0).2 = [] ↔
      (inForce arg 0).2.all (fun letter => (digitOf letter).isSome) := by
    rw [simpleStrtoul_zero, List.all_eq_true]
    exact strtoulDigits_all_iff _ _ _
  rw [logTarget]
  simp only [ne_eq, headD_eq_nul_iff hnul, headD_eq_nul_iff hend, hall]

theorem numeral_eq_some_iff {arg : List Char} {value : ℕ} :
    numeral arg = some value ↔ (inForce arg 0).2 ≠ [] ∧
      readNumeral (baseDigit (inForce arg 0).1) (inForce arg 0).1 (inForce arg 0).2 0 =
        some value := by
  rw [numeral]
  dsimp only
  split <;> simp [*]

/-- A numeral is scanned as it is read. -/
theorem simpleStrtoul_of_numeral {arg : List Char} {value : ℕ}
    (hnumeral : numeral arg = some value) :
    simpleStrtoul arg 0 = (BitVec.ofNat 32 value, []) := by
  obtain ⟨-, hdigits⟩ := numeral_eq_some_iff.mp hnumeral
  have hall : strtoulDigits (BitVec.ofNat 32 (inForce arg 0).1) ((inForce arg 0).2 ++ [])
      (BitVec.ofNat 32 0) = (BitVec.ofNat 32 value, []) := strtoulDigits_front hdigits
  rw [List.append_nil] at hall
  rw [simpleStrtoul_zero]
  exact hall

/-- A text of digits that is not empty is a numeral. -/
theorem isSome_numeral_iff {arg : List Char} :
    (numeral arg).isSome ↔ (inForce arg 0).2 ≠ [] ∧
      ∀ letter ∈ (inForce arg 0).2, isDigit (baseDigit (inForce arg 0).1) letter := by
  rw [← isSome_readNumeral_iff _ (inForce arg 0).1 _ 0, numeral]
  dsimp only
  split <;> simp [*]

/-- What is not a numeral must not be scanned as a whole. -/
theorem logRight_iff {arg : List Char} (hnul : nul ∉ arg) :
    LogRight arg ↔ LogMeets arg := by
  have htaken : (∀ letter ∈ (inForce arg 0).2, (digitOf letter).isSome) ↔
      ∀ letter ∈ (inForce arg 0).2, (hexDigit letter).isSome ∨ FoldsToDigit letter :=
    forall₂_congr fun _ _ => isSome_digitOf_iff
  have hempty : arg = [] → (inForce arg 0).2 = [] := fun heq => by rw [heq]; rfl
  rw [LogRight, LogMeets, logTarget_eq hnul]
  simp only [List.all_eq_true]
  rw [← htaken]
  cases hnumeral : numeral arg with
  | some value =>
      obtain ⟨hrest, hall⟩ := isSome_numeral_iff.mp (Option.isSome_of_mem hnumeral)
      refine iff_of_true ?_ ⟨fun h => absurd h hrest, fun _ letter hletter hbad => ?_⟩
      · rw [if_pos ⟨mt hempty hrest, fun letter hletter =>
          isSome_digitOf_of_isDigit (hall letter hletter)⟩, simpleStrtoul_of_numeral hnumeral]
      · rw [misread_iff, hall letter hletter] at hbad
        cases hbad.2
  | none =>
      have hnone : ¬ ((inForce arg 0).2 ≠ [] ∧
          ∀ letter ∈ (inForce arg 0).2, isDigit (baseDigit (inForce arg 0).1) letter) := by
        rw [← isSome_numeral_iff, hnumeral]
        exact Bool.false_ne_true
      constructor
      · intro hfile
        have hnot : ¬ (arg ≠ [] ∧
            ∀ letter ∈ (inForce arg 0).2, (digitOf letter).isSome) := fun h => by
          rw [if_pos h] at hfile
          cases hfile
        refine ⟨fun hrest => ?_, fun hall letter hletter => ?_⟩
        · by_contra harg
          refine hnot ⟨harg, fun letter hletter => ?_⟩
          rw [hrest] at hletter
          cases hletter
        · have harg : arg ≠ [] := fun heq => by
            rw [hempty heq] at hletter
            cases hletter
          exact absurd ⟨harg, hall⟩ hnot
      · rintro ⟨hrest, hmisread⟩
        refine if_neg fun ⟨harg, hall⟩ => hnone ⟨mt hrest harg, fun letter hletter => ?_⟩
        have hnot := hmisread hall letter hletter
        rw [misread_iff] at hnot
        exact Bool.of_not_eq_false fun h => hnot ⟨hall letter hletter, h⟩

/-! ## Every text -/

/-- A text is scanned right exactly when the scan ends at a character that is not
misread, and an argument of `--log` is taken for what it is exactly when it is no bare
prefix and no row of digits with a misread one. -/
theorem number_scan_iff (text : List Char) (hnul : nul ∉ text) (base : ℕ)
    (hbase : base ∈ [0, 8, 10, 16]) :
    (ScanRight text base ↔ ScanMeets text base) ∧ (LogRight text ↔ LogMeets text) := by
  have hlt : base < 2 ^ 32 := by
    simp only [List.mem_cons, List.not_mem_nil, or_false] at hbase
    omega
  exact ⟨scanRight_iff text hlt, logRight_iff hnul⟩

/-- `12` is scanned right, and taken for a descriptor. -/
theorem number_scan_twelve :
    ScanRight ['1', '2'] 10 ∧ LogRight ['1', '2'] :=
  ⟨((number_scan_iff ['1', '2'] (by decide) 10 (by decide)).1).mpr (by decide),
    ((number_scan_iff ['1', '2'] (by decide) 10 (by decide)).2).mpr (by decide)⟩

theorem number_scan_wrong :
    ¬ ∀ text : List Char, nul ∉ text → ∀ base ∈ [0, 8, 10, 16],
      ScanRight text base ∧ LogRight text := by
  intro h
  have hlog := (h ['b', 'e', 'd'] (by decide) 10 (by decide)).2
  exact absurd hlog (by decide)

end IbcsUs.NumberScan
