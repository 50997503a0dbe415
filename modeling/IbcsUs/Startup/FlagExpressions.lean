import IbcsUs.Core.Bits
import IbcsUs.Core.Strings

/-!
# Expressions of flags

The options for the personality and for tracing take hexadecimal numbers and names
of a table, joined by `+` and `-`.  `lookup_flag` goes through them from left to
right.  It takes 0 for a failure, and never notes which separator it has passed.
-/

namespace IbcsUs.FlagExpressions

open IbcsUs.Bits Strings

abbrev Word := BitVec 32

/-! ## `simple_strtoul` -/

/-- The value of a digit, as `*cp | 0x20` is compared. -/
def digitOf (letter : Char) : Option Word :=
  let digit := letter.toNat ||| 0x20
  if 0x30 ≤ digit ∧ digit ≤ 0x39 then some (BitVec.ofNat 32 (digit - 0x30))
  else if 0x61 ≤ digit ∧ digit ≤ 0x66 then
    some (BitVec.ofNat 32 (digit - 0x61 + 10))
  else none

/-- The loop over the digits: the number, and the text at which it stops. -/
def strtoulDigits (base : Word) : List Char → Word → Word × List Char
  | [], result => (result, [])
  | letter :: text, result =>
      match digitOf letter with
      | some digit => strtoulDigits base text (result * base + digit)
      | none => (result, letter :: text)

/-- The base, and the text behind a `0x` or `0o`. -/
def strtoulBase (cp : List Char) (base : Word) : Word × List Char :=
  if cp.getD 0 nul = '0' then
    let lcase := (cp.getD 1 nul).toNat ||| 0x20
    if lcase = 'x'.toNat then (16, cp.drop 2)
    else if lcase = 'o'.toNat then (8, cp.drop 2)
    else (base, cp)
  else (base, cp)

def simpleStrtoul (cp : List Char) (base : Word) : Word × List Char :=
  let (base, cp) := strtoulBase cp base
  strtoulDigits (if base = 0 then 10 else base) cp 0

/-- The number parser takes the whole text. -/
def numberLike (text : List Char) : Bool := (simpleStrtoul text 16).2 = []

/-! ## The tables -/

/-- The rows of a `struct flag_lookup` array.  No name is taken for a number. -/
structure FlagTable where
  rows : List (List Char × Word)
  names : ∀ row ∈ rows, numberLike row.1 = false

def personalityFlagTable : FlagTable where
  rows := [("abi_y2k_bug".toList, 0x0020000),
    ("addr_no_randomize".toList, 0x0040000),
    ("fdpic_funcptrs".toList, 0x0080000),
    ("mmap_page_zero".toList, 0x0100000),
    ("addr_compat_layout".toList, 0x0200000),
    ("read_implies_exec".toList, 0x0400000),
    ("addr_limit_32bit".toList, 0x0800000),
    ("short_inode".toList, 0x1000000),
    ("whole_seconds".toList, 0x2000000),
    ("sticky_timeouts".toList, 0x4000000),
    ("addr_limit_3gb".toList, 0x8000000),
    ("per_linux".toList, 0x0000000),
    ("per_linux_32bit".toList, 0x0800000),
    ("per_linux_fdpic".toList, 0x0080000),
    ("per_svr4".toList, 0x4100001),
    ("per_svr3".toList, 0x5000002),
    ("per_scosvr3".toList, 0x7000003),
    ("per_osr5".toList, 0x6000003),
    ("per_wysev386".toList, 0x5000004),
    ("per_iscr4".toList, 0x4000005),
    ("per_bsd".toList, 0x0000006),
    ("per_sunos".toList, 0x4000006),
    ("per_xenix".toList, 0x5000007),
    ("per_linux32".toList, 0x0000008),
    ("per_linux32_3gb".toList, 0x8000008),
    ("per_irix32".toList, 0x4000009),
    ("per_irixn32".toList, 0x400000a),
    ("per_irix64".toList, 0x400000b),
    ("per_riscos".toList, 0x000000c),
    ("per_solaris".toList, 0x400000d),
    ("per_uw7".toList, 0x410000e),
    ("per_osf4".toList, 0x000000f),
    ("per_hpux".toList, 0x0000010)]
  names := by decide

def traceFlagsTable : FlagTable where
  rows := [("abi_trace_api".toList, 0x01),
    ("abi_trace_ioctl".toList, 0x02),
    ("abi_trace_ioctl_f".toList, 0x04),
    ("abi_trace_signal".toList, 0x08),
    ("abi_trace_signal_f".toList, 0x10),
    ("abi_trace_socksys".toList, 0x20),
    ("abi_trace_streams".toList, 0x40),
    ("abi_trace_unimpl".toList, 0x80)]
  names := by decide

/-! ## `lookup_flag` -/

/-- The nearest separator, or the end. -/
def termEnd (arg : List Char) : ℕ := min (arg.idxOf '+') (arg.idxOf '-')

/-- The loop over the table, for the name of `len` characters at `arg`; 0 when none
is found. -/
def lookupName (rows : List (List Char × Word)) (arg : List Char) (len : ℕ) :
    Word :=
  match rows with
  | [] => 0
  | (name, value) :: rows =>
      if name.take len = arg.take len ∧ name.length = len then value
      else lookupName rows arg len

/-- The value of the term at `arg`, `none` when there is none. -/
def flagValue (table : FlagTable) (arg : List Char) : Option Word :=
  let rest := arg.drop (termEnd arg)
  let (not, arg) : Word × List Char :=
    if arg.head? = some '~' then (-1, arg.drop 1) else (0, arg)
  let (val, s) := simpleStrtoul arg 16
  if s.length = rest.length then some (val ^^^ not)
  else
    let val := lookupName table.rows arg (arg.length - rest.length)
    if val = 0 then none else some (val ^^^ not)

/-- The loop over the terms, `none` once a term has no value.  The separator it has
passed last is never changed. -/
def lookupLoop (table : FlagTable) (lastSep : Char) (result : Word)
    (arg : List Char) : Option Word :=
  match arg with
  | [] => some result
  | letter :: more =>
      match flagValue table (letter :: more) with
      | none => none
      | some val =>
          lookupLoop table lastSep
            (if lastSep = '+' then result ||| val else result &&& ~~~val)
            ((letter :: more).drop (termEnd (letter :: more) + 1))
termination_by arg.length
decreasing_by
  simp only [List.length_drop, List.length_cons]
  omega

/-- `usage` ends the program. -/
inductive Result where
  | returns (value : Word)
  | usage
  deriving DecidableEq

def lookupFlag (table : FlagTable) (arg : List Char) : Result :=
  match lookupLoop table '+' 0 arg with
  | none => .usage
  | some result => if result = 0 then .usage else .returns result

/-! ## What an expression stands for -/

/-- A term with the separator before it. -/
structure Term where
  minus : Bool
  negated : Bool
  body : List Char
  noSep : '+' ∉ body ∧ '-' ∉ body
  plain : negated = false → body.head? ≠ some '~'

def Term.text (term : Term) : List Char :=
  if term.negated then '~' :: term.body else term.body

def Term.separator (term : Term) : Char := if term.minus then '-' else '+'

/-- The terms joined by their separators, the first one without. -/
def exprText (first : Term) (rest : List Term) : List Char :=
  first.text ++ rest.flatMap fun term => term.separator :: term.text

def hexDigit (letter : Char) : Option ℕ :=
  if 48 ≤ letter.toNat ∧ letter.toNat ≤ 57 then some (letter.toNat - 48)
  else if 97 ≤ letter.toNat ∧ letter.toNat ≤ 102 then some (letter.toNat - 87)
  else if 65 ≤ letter.toNat ∧ letter.toNat ≤ 70 then some (letter.toNat - 55)
  else none

/-- A row of digits, as a word. -/
def hexDigits : List Char → Word → Option Word
  | [], result => some result
  | letter :: text, result =>
      (hexDigit letter).bind fun digit =>
        hexDigits text (result * 16 + BitVec.ofNat 32 digit)

/-- A hexadecimal number: digits, with or without `0x` before them. -/
def hexValue : List Char → Option Word
  | [] => none
  | ['0', 'x'] | ['0', 'X'] => none
  | '0' :: 'x' :: letter :: text | '0' :: 'X' :: letter :: text =>
      hexDigits (letter :: text) 0
  | letter :: text => hexDigits (letter :: text) 0

/-- The value of a number or a name. -/
def bodyValue (table : FlagTable) (body : List Char) : Option Word :=
  (hexValue body).or (table.rows.lookup body)

def Term.mask (term : Term) : Word := if term.negated then -1 else 0

def Term.value (table : FlagTable) (term : Term) : Word :=
  ((bodyValue table term.body).getD 0) ^^^ term.mask

/-- `+` adds the bits of a term and `-` clears them. -/
def applyTerm (table : FlagTable) (result : Word) (term : Term) : Word :=
  if term.minus then result &&& ~~~term.value table
  else result ||| term.value table

/-- From left to right. -/
def foldFlags (table : FlagTable) (first : Term) (rest : List Term) : Word :=
  rest.foldl (applyTerm table) (first.value table)

/-- An expression of numbers and names has its value, and one with a term that is
neither, a `~` alone included, is refused.  Nothing at all is no term. -/
def LookupRight (table : FlagTable) (first : Term) (rest : List Term) : Prop :=
  ((∃ term ∈ first :: rest, term.text ≠ [] ∧
      bodyValue table term.body = none) →
    lookupFlag table (exprText first rest) = .usage) ∧
  ((∀ term ∈ first :: rest, bodyValue table term.body ≠ none) →
    lookupFlag table (exprText first rest) = .returns (foldFlags table first rest))

/-! ## When it is found -/

/-- What the parser makes of a body: a number, or the value of a name unless that is
0. -/
def acceptedValue (table : FlagTable) (body : List Char) : Option Word :=
  if numberLike body then some (simpleStrtoul body 16).1
  else (table.rows.lookup body).filter (· ≠ 0)

/-- Every bit of a term that is subtracted is one of a later term that is added. -/
def AddedAgain (table : FlagTable) (rest : List Term) : Prop :=
  ∀ front term back, rest = front ++ term :: back → term.minus = true →
    ∀ index, (term.value table).getLsbD index = true →
      ∃ other ∈ back, other.minus = false ∧
        (other.value table).getLsbD index = true

/-- An expression of numbers and names: no name has the value 0, what is subtracted
is added again, and some term is not 0.  With a term that is neither: a term that the
parser does not accept, or nothing but 0. -/
def LookupMeets (table : FlagTable) (first : Term) (rest : List Term) : Prop :=
  ((∃ term ∈ first :: rest, term.text ≠ [] ∧
      bodyValue table term.body = none) →
    (∃ term ∈ first :: rest, acceptedValue table term.body = none) ∨
      ∀ term ∈ first :: rest,
        acceptedValue table term.body = some term.mask) ∧
  ((∀ term ∈ first :: rest, bodyValue table term.body ≠ none) →
    (∀ term ∈ first :: rest, hexValue term.body = none →
        table.rows.lookup term.body ≠ some 0) ∧
      AddedAgain table rest ∧
      ∃ term ∈ first :: rest, term.value table ≠ 0)

/-! ## Numbers -/

section Numbers

variable {text more body : List Char}

/-- A text that is over, or goes on with a separator. -/
def AtSeparator (more : List Char) : Prop :=
  ∀ letter ∈ more.head?, letter = '+' ∨ letter = '-'

theorem AtSeparator.digitOf (hmore : AtSeparator more) :
    ∀ letter ∈ more.head?, digitOf letter = none := by
  intro letter hletter
  rcases hmore letter hletter with rfl | rfl
  · decide
  · decide

/-- The character at which such a text goes on. -/
theorem AtSeparator.getD (hmore : AtSeparator more) :
    more.getD 0 nul = nul ∨ more.getD 0 nul = '+' ∨ more.getD 0 nul = '-' := by
  cases more with
  | nil => exact Or.inl rfl
  | cons letter more => exact Or.inr (hmore letter rfl)

theorem strtoulDigits_append (base : Word)
    (hmore : ∀ letter ∈ more.head?, digitOf letter = none) (result : Word) :
    strtoulDigits base (text ++ more) result =
      ((strtoulDigits base text result).1,
        (strtoulDigits base text result).2 ++ more) := by
  induction text generalizing result with
  | nil =>
      cases more with
      | nil => rfl
      | cons letter more =>
          have hletter : digitOf letter = none := hmore letter rfl
          simp only [List.nil_append, strtoulDigits, hletter]
  | cons letter text ih =>
      simp only [List.cons_append, strtoulDigits]
      cases digitOf letter with
      | none => rfl
      | some digit => exact ih _

theorem strtoulBase_append (base : Word) (hmore : AtSeparator more) :
    strtoulBase (text ++ more) base =
      ((strtoulBase text base).1, (strtoulBase text base).2 ++ more) := by
  match text with
  | [] =>
      have hzero : more.getD 0 nul ≠ '0' := by
        rcases hmore.getD with h | h | h <;> rw [h] <;> decide
      rw [List.nil_append, strtoulBase, if_neg hzero]
      rfl
  | [letter] =>
      have hsecond : (letter :: more).getD 1 nul = more.getD 0 nul := rfl
      by_cases hletter : letter = '0'
      · subst hletter
        rcases hmore.getD with h | h | h <;>
          simp only [strtoulBase, List.singleton_append, hsecond, h] <;> rfl
      · rw [List.singleton_append, strtoulBase, if_neg (by exact hletter),
          strtoulBase, if_neg (by exact hletter)]
        rfl
  | letter :: second :: text =>
      simp only [strtoulBase, List.cons_append, List.getD_cons_zero,
        List.getD_cons_succ]
      split_ifs <;> rfl

/-- What follows the next separator does not change the number. -/
theorem simpleStrtoul_append (base : Word) (hmore : AtSeparator more) :
    simpleStrtoul (text ++ more) base =
      ((simpleStrtoul text base).1, (simpleStrtoul text base).2 ++ more) := by
  simp only [simpleStrtoul, strtoulBase_append base hmore]
  exact strtoulDigits_append _ hmore.digitOf 0

/-- What `| 0x20` does with an ASCII character. -/
theorem or_lcaseBit : ∀ code < 128,
    code ||| 0x20 = if code / 32 % 2 = 1 then code else code + 32 := by
  decide

/-- A digit has the value that the parser gives it. -/
theorem digitOf_of_hexDigit {letter : Char} {digit : ℕ}
    (hdigit : hexDigit letter = some digit) :
    digitOf letter = some (BitVec.ofNat 32 digit) := by
  have hbound : letter.toNat < 128 := by
    rw [hexDigit] at hdigit
    split_ifs at hdigit <;> omega
  have hlcase := or_lcaseBit letter.toNat hbound
  rw [hexDigit] at hdigit
  rw [digitOf]
  split_ifs at hdigit with hnumber hlower hupper
  all_goals obtain rfl := Option.some.inj hdigit
  · rw [if_pos (by omega)] at hlcase
    rw [hlcase, if_pos hnumber]
  · rw [if_pos (by omega)] at hlcase
    rw [hlcase, if_neg hnumber, if_pos hlower]
    congr 2
    omega
  · rw [if_neg (by omega)] at hlcase
    rw [hlcase, if_neg (by omega), if_pos (by omega)]
    congr 2
    omega

theorem strtoulDigits_of_hexDigits {result value : Word}
    (htext : hexDigits text result = some value) :
    strtoulDigits 16 text result = (value, []) := by
  induction text generalizing result with
  | nil =>
      rw [strtoulDigits, Option.some.inj htext]
  | cons letter text ih =>
      obtain ⟨digit, hdigit, hrest⟩ := Option.bind_eq_some_iff.1 htext
      simp only [strtoulDigits, digitOf_of_hexDigit hdigit]
      exact ih hrest

/-- A letter compared without its case. -/
theorem toNat_of_lcase {letter : Char} {code : ℕ} (hcode : code < 128)
    (hlcase : letter.toNat ||| 0x20 = code) :
    letter.toNat = code ∨ letter.toNat + 0x20 = code := by
  have hbound : letter.toNat < 128 :=
    lt_of_le_of_lt Nat.left_le_or (hlcase ▸ hcode)
  rw [or_lcaseBit letter.toNat hbound] at hlcase
  split_ifs at hlcase
  · exact Or.inl hlcase
  · exact Or.inr hlcase

theorem hexDigit_of_lcase_o {letter : Char}
    (hlcase : letter.toNat ||| 0x20 = 'o'.toNat) : hexDigit letter = none := by
  have hcode : letter.toNat = 111 ∨ letter.toNat + 32 = 111 :=
    toNat_of_lcase (by decide) hlcase
  rw [hexDigit]
  rw [if_neg (by omega), if_neg (by omega), if_neg (by omega)]

theorem eq_of_lcase_x {letter : Char} (hlcase : letter.toNat ||| 0x20 = 'x'.toNat) :
    letter = 'x' ∨ letter = 'X' := by
  have hcode : letter.toNat = 'x'.toNat ∨ letter.toNat + 32 = 'x'.toNat :=
    toNat_of_lcase (by decide) hlcase
  apply hcode.imp
  · exact Char.toNat_inj.1
  · intro hupper
    have hletter : letter.toNat = 'X'.toNat := by
      have hx : 'x'.toNat = 120 := rfl
      have hX : 'X'.toNat = 88 := rfl
      omega
    exact Char.toNat_inj.1 hletter

/-- Digits alone are not taken for a base. -/
theorem strtoulBase_of_hexDigits {letter : Char} {value : Word}
    (hdigits : hexDigits (letter :: text) 0 = some value)
    (hlower : ∀ more, letter = '0' → text ≠ 'x' :: more)
    (hupper : ∀ more, letter = '0' → text ≠ 'X' :: more) :
    strtoulBase (letter :: text) 16 = (16, letter :: text) := by
  by_cases hletter : letter = '0'
  · cases text with
    | nil =>
        subst hletter
        rfl
    | cons second text =>
        have hx : ¬ second.toNat ||| 0x20 = 'x'.toNat := by
          intro hlcase
          rcases eq_of_lcase_x hlcase with rfl | rfl
          · exact hlower text hletter rfl
          · exact hupper text hletter rfl
        have ho : ¬ second.toNat ||| 0x20 = 'o'.toNat := by
          intro hlcase
          obtain ⟨_, _, hrest⟩ := Option.bind_eq_some_iff.1 hdigits
          obtain ⟨digit, hdigit, _⟩ := Option.bind_eq_some_iff.1 hrest
          rw [hexDigit_of_lcase_o hlcase] at hdigit
          contradiction
        rw [strtoulBase, if_pos (by exact hletter)]
        exact (if_neg hx).trans (if_neg ho)
  · exact if_neg hletter

/-- A hexadecimal number is taken whole. -/
theorem simpleStrtoul_of_hexValue {value : Word} (hbody : hexValue body = some value) :
    simpleStrtoul body 16 = (value, []) := by
  unfold hexValue at hbody
  split at hbody
  · contradiction
  · contradiction
  · contradiction
  · have hnumber := strtoulDigits_of_hexDigits hbody
    simpa [simpleStrtoul, strtoulBase] using hnumber
  · have hnumber := strtoulDigits_of_hexDigits hbody
    simpa [simpleStrtoul, strtoulBase] using hnumber
  · next _ letter text hbare hbare' hlower hupper =>
    have hbase : strtoulBase (letter :: text) 16 = (16, letter :: text) := by
      apply strtoulBase_of_hexDigits hbody
      · intro more hletter htext
        cases more with
        | nil => exact hbare hletter htext
        | cons third more => exact hlower third more hletter htext
      · intro more hletter htext
        cases more with
        | nil => exact hbare' hletter htext
        | cons third more => exact hupper third more hletter htext
    simp only [simpleStrtoul, hbase]
    exact strtoulDigits_of_hexDigits hbody

end Numbers

/-! ## One term -/

section Terms

variable {table : FlagTable} {text more body : List Char}

theorem termEnd_append (htext : '+' ∉ text ∧ '-' ∉ text) (hmore : AtSeparator more) :
    termEnd (text ++ more) = text.length := by
  rw [termEnd, List.idxOf_append_of_notMem htext.1,
    List.idxOf_append_of_notMem htext.2]
  cases more with
  | nil => simp
  | cons letter more =>
      rcases hmore letter rfl with rfl | rfl <;> simp

/-- The row with the name is found. -/
theorem lookupName_append (rows : List (List Char × Word)) :
    lookupName rows (body ++ more) body.length = (rows.lookup body).getD 0 := by
  induction rows with
  | nil => rfl
  | cons row rows ih =>
      obtain ⟨name, value⟩ := row
      have hname :
          (name.take body.length = (body ++ more).take body.length ∧
            name.length = body.length) ↔ body = name := by
        rw [List.take_left' rfl]
        constructor
        · rintro ⟨htake, hlength⟩
          rw [← htake, ← hlength, List.take_length]
        · rintro rfl
          exact ⟨List.take_length, rfl⟩
      rw [lookupName, List.lookup_cons]
      by_cases hbody : body = name
      · rw [if_pos (hname.2 hbody), beq_iff_eq.2 hbody]
        rfl
      · rw [if_neg (hname.not.2 hbody), ih, beq_eq_false_iff_ne.2 hbody]

/-- What the parser makes of a term. -/
def Term.accepted (table : FlagTable) (term : Term) : Option Word :=
  (acceptedValue table term.body).map (· ^^^ term.mask)

/-- Behind the `~` of a term stands its body. -/
theorem Term.split (term : Term) (hmore : AtSeparator more) :
    (if (term.text ++ more).head? = some '~'
      then ((-1 : Word), (term.text ++ more).drop 1) else (0, term.text ++ more)) =
      (term.mask, term.body ++ more) := by
  rw [Term.text, Term.mask]
  cases hnegated : term.negated with
  | true => rfl
  | false =>
      apply if_neg
      simp only [Bool.false_eq_true, if_false]
      cases hbody : term.body with
      | nil =>
          intro hhead
          rcases hmore '~' hhead with h | h <;> exact absurd h (by decide)
      | cons letter body =>
          have hplain := term.plain hnegated
          rw [hbody] at hplain
          exact hplain

theorem Term.noSep_text (term : Term) : '+' ∉ term.text ∧ '-' ∉ term.text := by
  rw [Term.text]
  split_ifs with hnegated
  · simp [term.noSep]
  · exact term.noSep

/-- The value of a term does not depend on what follows. -/
theorem flagValue_append (table : FlagTable) (term : Term) (hmore : AtSeparator more) :
    flagValue table (term.text ++ more) = term.accepted table := by
  rw [flagValue, termEnd_append term.noSep_text hmore, List.drop_left' rfl]
  simp only [term.split hmore, simpleStrtoul_append 16 hmore]
  have hlength : ((simpleStrtoul term.body 16).2 ++ more).length = more.length ↔
      numberLike term.body = true := by
    rw [List.length_append, Nat.add_eq_right, List.length_eq_zero_iff, numberLike,
      decide_eq_true_eq]
  have hname : (term.body ++ more).length - more.length = term.body.length := by
    rw [List.length_append, Nat.add_sub_cancel]
  rw [Term.accepted, acceptedValue, hname, lookupName_append]
  by_cases hnumber : numberLike term.body = true
  · rw [if_pos (hlength.2 hnumber), if_pos hnumber]
    rfl
  · rw [if_neg (hlength.not.2 hnumber), if_neg hnumber]
    cases table.rows.lookup term.body with
    | none => rfl
    | some value =>
        by_cases hzero : value = 0
        · rw [hzero]
          rfl
        · rw [Option.getD_some, if_neg hzero, Option.filter_some_pos (by simpa using hzero)]
          rfl

end Terms

/-! ## The whole expression -/

section Expression

variable {table : FlagTable} {terms : List Term} {result value : Word}

/-- The values of all terms added up, `none` once a term has none. -/
def orTerms (table : FlagTable) : List Term → Word → Option Word
  | [], result => some result
  | term :: terms, result =>
      (term.accepted table).bind fun val => orTerms table terms (result ||| val)

/-- The loop over an expression with something left adds the first term. -/
theorem lookupLoop_cons {arg more : List Char} (harg : arg ≠ [])
    (htail : arg.drop (termEnd arg + 1) = more) :
    lookupLoop table '+' result arg =
      (flagValue table arg).bind fun val =>
        lookupLoop table '+' (result ||| val) more := by
  cases arg with
  | nil => contradiction
  | cons letter arg =>
      rw [lookupLoop, htail]
      cases flagValue table (letter :: arg) with
      | none => rfl
      | some val => rfl

theorem Term.accepted_of_text_nil {term : Term} (htext : term.text = []) :
    term.accepted table = some 0 := by
  rw [Term.text] at htext
  split_ifs at htext with hnegated
  rw [Term.accepted, Term.mask, htext, if_neg hnegated]
  rfl

/-- The parser adds up the terms, whatever separates them. -/
theorem lookupLoop_exprText (table : FlagTable) (first : Term) (rest : List Term)
    (result : Word) :
    lookupLoop table '+' result (exprText first rest) =
      orTerms table (first :: rest) result := by
  induction rest generalizing first result with
  | nil =>
      have htext : exprText first [] = first.text := List.append_nil _
      rw [htext]
      by_cases hempty : first.text = []
      · rw [hempty, lookupLoop, orTerms, Term.accepted_of_text_nil hempty]
        exact congrArg some (BitVec.or_zero).symm
      · have hend : AtSeparator [] := by
          intro letter hletter
          contradiction
        have hvalue := flagValue_append table first hend
        have hlength := termEnd_append first.noSep_text hend
        rw [List.append_nil] at hvalue hlength
        have htail : first.text.drop (termEnd first.text + 1) = [] := by
          rw [hlength]
          exact List.drop_eq_nil_of_le (Nat.le_succ _)
        rw [lookupLoop_cons hempty htail, hvalue, orTerms]
        apply congrArg
        funext val
        rw [lookupLoop, orTerms]
  | cons second rest ih =>
      have htext : exprText first (second :: rest) =
          first.text ++ second.separator :: exprText second rest := rfl
      have hmore : AtSeparator (second.separator :: exprText second rest) := by
        intro letter hletter
        obtain rfl := Option.mem_some.1 hletter
        rw [Term.separator]
        split_ifs
        · exact Or.inr rfl
        · exact Or.inl rfl
      rw [htext]
      have hnonempty :
          first.text ++ second.separator :: exprText second rest ≠ [] :=
        List.append_ne_nil_of_right_ne_nil _ (List.cons_ne_nil _ _)
      have htail :
          (first.text ++ second.separator :: exprText second rest).drop
            (termEnd (first.text ++ second.separator :: exprText second rest) + 1) =
            exprText second rest := by
        rw [termEnd_append first.noSep_text hmore, List.drop_length_add_append]
        rfl
      rw [lookupLoop_cons hnonempty htail, flagValue_append table first hmore, orTerms]
      apply congrArg
      funext val
      exact ih second (result ||| val)

theorem lookupFlag_returns_iff (first : Term) (rest : List Term) :
    lookupFlag table (exprText first rest) = .returns value ↔
      orTerms table (first :: rest) 0 = some value ∧ value ≠ 0 := by
  rw [lookupFlag, lookupLoop_exprText]
  cases orTerms table (first :: rest) 0 with
  | none => simp
  | some total =>
      simp only [Option.some.injEq]
      split_ifs with hzero
      · simp only [false_iff, not_and, not_not]
        rintro rfl
        exact hzero
      · simp only [Result.returns.injEq]
        constructor
        · rintro rfl
          exact ⟨rfl, hzero⟩
        · exact And.left

theorem orTerms_eq_none :
    orTerms table terms result = none ↔ ∃ term ∈ terms, term.accepted table = none := by
  induction terms generalizing result with
  | nil => simp [orTerms]
  | cons term terms ih =>
      rw [orTerms]
      simp only [List.mem_cons, exists_eq_or_imp]
      cases haccepted : term.accepted table with
      | none => simp
      | some val => simp [ih]

/-- A bit of the sum is one of a term. -/
theorem orTerms_bit (hterms : orTerms table terms result = some value) (index : ℕ) :
    value.getLsbD index = true ↔
      result.getLsbD index = true ∨
        ∃ term ∈ terms, ∃ val, term.accepted table = some val ∧
          val.getLsbD index = true := by
  induction terms generalizing result with
  | nil =>
      obtain rfl := Option.some.inj hterms
      simp
  | cons term terms ih =>
      obtain ⟨val, haccepted, hrest⟩ := Option.bind_eq_some_iff.1 hterms
      simp only [List.mem_cons, exists_eq_or_imp]
      rw [ih hrest, BitVec.getLsbD_or, Bool.or_eq_true, or_assoc]
      simp [haccepted]

theorem eq_zero_of_bits {word : Word}
    (hbits : ∀ index, ¬ word.getLsbD index = true) : word = 0 := by
  apply eq_of_bits
  intro index _
  exact iff_of_false (hbits index) (by simp)

/-- Nothing but terms of no bits gives 0. -/
theorem orTerms_eq_zero :
    orTerms table terms 0 = some 0 ↔
      ∀ term ∈ terms, term.accepted table = some 0 := by
  constructor
  · intro hterms term hterm
    cases haccepted : term.accepted table with
    | none =>
        have hnone : orTerms table terms 0 = none :=
          orTerms_eq_none.2 ⟨term, hterm, haccepted⟩
        rw [hnone] at hterms
        contradiction
    | some val =>
        congr 1
        apply eq_zero_of_bits
        intro index hbit
        have hzero := (orTerms_bit hterms index).2
          (Or.inr ⟨term, hterm, val, haccepted, hbit⟩)
        simp at hzero
  · intro hterms
    cases hsum : orTerms table terms 0 with
    | none =>
        obtain ⟨term, hterm, hnone⟩ := orTerms_eq_none.1 hsum
        rw [hterms term hterm] at hnone
        contradiction
    | some value =>
        congr 1
        apply eq_zero_of_bits
        intro index hbit
        rcases (orTerms_bit hsum index).1 hbit with hzero | hsome
        · simp at hzero
        · obtain ⟨term, hterm, val, haccepted, hval⟩ := hsome
          rw [hterms term hterm] at haccepted
          rw [← Option.some.inj haccepted] at hval
          simp at hval

theorem Term.accepted_eq_none {term : Term} :
    term.accepted table = none ↔ acceptedValue table term.body = none :=
  Option.map_eq_none_iff

theorem Term.accepted_eq_zero {term : Term} :
    term.accepted table = some 0 ↔
      acceptedValue table term.body = some term.mask := by
  rw [Term.accepted, Option.map_eq_some_iff]
  constructor
  · rintro ⟨val, hval, hzero⟩
    rw [hval, BitVec.xor_eq_zero_iff.1 hzero]
  · intro hval
    exact ⟨term.mask, hval, BitVec.xor_self⟩

/-- What ends in `usage`: a term that the parser does not accept, or nothing but 0. -/
theorem lookupFlag_usage_iff (first : Term) (rest : List Term) :
    lookupFlag table (exprText first rest) = .usage ↔
      (∃ term ∈ first :: rest, acceptedValue table term.body = none) ∨
        ∀ term ∈ first :: rest,
          acceptedValue table term.body = some term.mask := by
  have hnone := @orTerms_eq_none table (first :: rest) 0
  have hzero := @orTerms_eq_zero table (first :: rest)
  simp only [Term.accepted_eq_none, Term.accepted_eq_zero] at hnone hzero
  rw [← hnone, ← hzero, lookupFlag, lookupLoop_exprText]
  cases orTerms table (first :: rest) 0 with
  | none => simp
  | some total =>
      simp only [reduceCtorEq, false_or, Option.some.injEq]
      split_ifs with htotal
      · exact iff_of_true rfl htotal
      · exact iff_of_false not_false htotal

end Expression

/-! ## Adding alone, and adding and clearing -/

section Folds

variable {table : FlagTable} {terms : List Term} {result value : Word} {index : ℕ}

theorem applyTerm_bit (table : FlagTable) (result : Word) (term : Term)
    (hindex : index < 32) :
    (applyTerm table result term).getLsbD index = true ↔
      if term.minus then
        result.getLsbD index = true ∧ ¬ (term.value table).getLsbD index = true
      else
        result.getLsbD index = true ∨ (term.value table).getLsbD index = true := by
  rw [applyTerm]
  cases term.minus with
  | true => simp [hindex]
  | false => simp

/-- A bit in the end was there at the start or is one of a term that is added. -/
theorem fold_bit_of (hindex : index < 32)
    (hbit : (terms.foldl (applyTerm table) result).getLsbD index = true) :
    result.getLsbD index = true ∨
      ∃ term ∈ terms, term.minus = false ∧
        (term.value table).getLsbD index = true := by
  induction terms generalizing result with
  | nil => exact Or.inl hbit
  | cons term terms ih =>
      rcases ih hbit with happly | ⟨other, hother, hplus, hvalue⟩
      · rw [applyTerm_bit table result term hindex] at happly
        cases hminus : term.minus with
        | true =>
            rw [hminus, if_pos rfl] at happly
            exact Or.inl happly.1
        | false =>
            rw [hminus, if_neg Bool.false_ne_true] at happly
            apply happly.imp_right
            intro hvalue
            exact ⟨term, List.mem_cons_self, hminus, hvalue⟩
      · exact Or.inr ⟨other, List.mem_cons_of_mem _ hother, hplus, hvalue⟩

/-- Where everything subtracted is added again, the bits of all terms are there in the
end. -/
theorem fold_bit_iff (hadded : AddedAgain table terms) (hindex : index < 32) :
    (terms.foldl (applyTerm table) result).getLsbD index = true ↔
      result.getLsbD index = true ∨
        ∃ term ∈ terms, (term.value table).getLsbD index = true := by
  induction terms generalizing result with
  | nil => simp
  | cons term terms ih =>
      have hrest : AddedAgain table terms := by
        intro front other back hterms
        exact hadded (term :: front) other back (by rw [hterms, List.cons_append])
      simp only [List.mem_cons, exists_eq_or_imp]
      rw [List.foldl_cons, ih hrest, applyTerm_bit table result term hindex]
      cases hminus : term.minus with
      | false =>
          rw [if_neg Bool.false_ne_true]
          exact or_assoc
      | true =>
          rw [if_pos rfl]
          have hagain : (term.value table).getLsbD index = true →
              ∃ other ∈ terms, (other.value table).getLsbD index = true := by
            intro hvalue
            obtain ⟨other, hother, _, hbit⟩ :=
              hadded [] term terms rfl hminus index hvalue
            exact ⟨other, hother, hbit⟩
          constructor
          · rintro (⟨hresult, _⟩ | hlater)
            · exact Or.inl hresult
            · exact Or.inr (Or.inr hlater)
          · rintro (hresult | hvalue | hlater)
            · by_cases hvalue : (term.value table).getLsbD index = true
              · exact Or.inr (hagain hvalue)
              · exact Or.inl ⟨hresult, hvalue⟩
            · exact Or.inr (hagain hvalue)
            · exact Or.inr hlater

theorem value_bit_lt {word : Word} (hbit : word.getLsbD index = true) : index < 32 :=
  BitVec.lt_of_getLsbD hbit

/-- The sum is the fold exactly where everything subtracted is added again. -/
theorem fold_eq_iff (hvalue : ∀ index, index < 32 →
      (value.getLsbD index = true ↔ result.getLsbD index = true ∨
        ∃ term ∈ terms, (term.value table).getLsbD index = true)) :
    value = terms.foldl (applyTerm table) result ↔ AddedAgain table terms := by
  constructor
  · rintro hfold front term back hterms hminus index hbit
    have hindex := value_bit_lt hbit
    have hmem : term ∈ terms := by
      rw [hterms]
      exact List.mem_append_right _ List.mem_cons_self
    have hsum := (hvalue index hindex).2 (Or.inr ⟨term, hmem, hbit⟩)
    rw [hfold, hterms, List.foldl_append, List.foldl_cons] at hsum
    rcases fold_bit_of hindex hsum with hbefore | hlater
    · rw [applyTerm_bit table _ term hindex, hminus, if_pos rfl] at hbefore
      exact absurd hbit hbefore.2
    · exact hlater
  · intro hadded
    apply eq_of_bits
    intro index hindex
    rw [hvalue index hindex, fold_bit_iff hadded hindex]

end Folds

/-! ## When an expression has its value -/

section Values

variable {table : FlagTable} {term : Term}

theorem not_numberLike_of_lookup {name : List Char} {value : Word}
    (hlookup : table.rows.lookup name = some value) : numberLike name = false := by
  obtain ⟨front, back, hrows, _⟩ := List.lookup_eq_some_iff.1 hlookup
  apply table.names (name, value)
  rw [hrows]
  exact List.mem_append_right _ List.mem_cons_self

/-- The bits of the sum, where the parser takes every term for its value. -/
theorem sum_bit {first : Term} {rest : List Term} {value : Word}
    (haccepted : ∀ term ∈ first :: rest,
      term.accepted table = some (term.value table))
    (hsum : orTerms table (first :: rest) 0 = some value) (index : ℕ)
    (_ : index < 32) :
    value.getLsbD index = true ↔ (first.value table).getLsbD index = true ∨
      ∃ term ∈ rest, (term.value table).getLsbD index = true := by
  have hterms : (∃ term ∈ first :: rest, ∃ val, term.accepted table = some val ∧
      val.getLsbD index = true) ↔
      ∃ term ∈ first :: rest, (term.value table).getLsbD index = true := by
    apply exists_congr
    intro term
    apply and_congr_right
    intro hterm
    rw [haccepted term hterm]
    simp
  rw [orTerms_bit hsum, hterms]
  simp

/-- A name with a value that is not 0, or a number, is accepted with it. -/
theorem accepted_of_bodyValue (hbody : bodyValue table term.body ≠ none)
    (hzero : hexValue term.body = none → table.rows.lookup term.body ≠ some 0) :
    term.accepted table = some (term.value table) := by
  rw [Term.accepted, acceptedValue, Term.value, bodyValue]
  rw [bodyValue] at hbody
  cases hhex : hexValue term.body with
  | some value =>
      have hnumber := simpleStrtoul_of_hexValue hhex
      have hlike : numberLike term.body = true := by
        rw [numberLike, hnumber]
        rfl
      rw [if_pos hlike, hnumber]
      rfl
  | none =>
      rw [hhex, Option.none_or] at hbody
      obtain ⟨value, hlookup⟩ := Option.ne_none_iff_exists'.1 hbody
      have hnonzero : value ≠ 0 := by
        rintro rfl
        exact hzero hhex hlookup
      have hname : ¬ numberLike term.body = true := by
        rw [not_numberLike_of_lookup hlookup]
        exact Bool.false_ne_true
      rw [if_neg hname, hlookup, Option.filter_some_pos (by simpa using hnonzero)]
      rfl

/-- A name with the value 0 is not accepted. -/
theorem accepted_of_zero (hlookup : table.rows.lookup term.body = some 0) :
    term.accepted table = none := by
  have hname : ¬ numberLike term.body = true := by
    rw [not_numberLike_of_lookup hlookup]
    exact Bool.false_ne_true
  rw [Term.accepted, acceptedValue, if_neg hname, hlookup]
  rfl

/-- Where the parser takes every term for its value, the result is the fold if what is
subtracted is added again and not everything is 0. -/
theorem returns_fold_iff {first : Term} {rest : List Term}
    (haccepted : ∀ term ∈ first :: rest,
      term.accepted table = some (term.value table)) :
    lookupFlag table (exprText first rest) = .returns (foldFlags table first rest) ↔
      AddedAgain table rest ∧ ∃ term ∈ first :: rest, term.value table ≠ 0 := by
  obtain ⟨value, hsum⟩ : ∃ value, orTerms table (first :: rest) 0 = some value := by
    apply Option.ne_none_iff_exists'.1
    intro hnone
    obtain ⟨other, hother, hrefused⟩ := orTerms_eq_none.1 hnone
    rw [haccepted other hother] at hrefused
    contradiction
  have hzero : value = 0 ↔ ∀ term ∈ first :: rest, term.value table = 0 := by
    rw [← Option.some_inj, ← hsum, orTerms_eq_zero]
    apply forall₂_congr
    intro term hterm
    rw [haccepted term hterm, Option.some_inj]
  have hfold : value = foldFlags table first rest ↔ AddedAgain table rest :=
    fold_eq_iff (sum_bit haccepted hsum)
  rw [lookupFlag_returns_iff, hsum, Option.some_inj, hfold]
  apply and_congr_right
  intro hadded
  rw [← hfold.2 hadded, Ne, hzero]
  push Not
  rfl

/-- An expression has its value, or is refused, exactly where no name has the value 0,
what is subtracted is added again, and not everything is 0. -/
theorem lookupFlag_right_iff (table : FlagTable) (first : Term) (rest : List Term) :
    LookupRight table first rest ↔ LookupMeets table first rest := by
  apply and_congr
  · exact imp_congr_right fun _ => lookupFlag_usage_iff first rest
  · apply imp_congr_right
    intro hterms
    constructor
    · intro hreturns
      have hzero : ∀ term ∈ first :: rest, hexValue term.body = none →
          table.rows.lookup term.body ≠ some 0 := by
        intro term hterm _ hlookup
        have hnone : orTerms table (first :: rest) 0 = none :=
          orTerms_eq_none.2 ⟨term, hterm, accepted_of_zero hlookup⟩
        have hsum := (lookupFlag_returns_iff first rest).1 hreturns
        rw [hnone] at hsum
        exact Option.some_ne_none _ hsum.1.symm
      refine ⟨hzero, (returns_fold_iff ?_).1 hreturns⟩
      intro term hterm
      exact accepted_of_bodyValue (hterms term hterm) (hzero term hterm)
    · rintro ⟨hzero, hmeets⟩
      apply (returns_fold_iff _).2 hmeets
      intro term hterm
      exact accepted_of_bodyValue (hterms term hterm) (hzero term hterm)

end Values

/-- `3-1` gives 3, not 2, and `per_linux` is refused. -/
theorem lookupFlag_wrong :
    ¬ LookupRight traceFlagsTable ⟨false, false, ['3'], by decide, by decide⟩
        [⟨true, false, ['1'], by decide, by decide⟩] ∧
      ¬ LookupRight personalityFlagTable
        ⟨false, false, "per_linux".toList, by decide, by decide⟩ [] := by
  constructor
  · intro hright
    have hresult := hright.2 (by decide)
    rw [lookupFlag_returns_iff] at hresult
    exact absurd hresult.1 (by decide)
  · intro hright
    have hresult := hright.2 (by decide)
    rw [lookupFlag_returns_iff] at hresult
    exact absurd hresult.1 (by decide)

end IbcsUs.FlagExpressions
