import IbcsUs.Core.Numerals
import IbcsUs.Output.Format

/-!
# The digits of a number

`ibcs_vfmt` writes the digits of a number into `buf` from its end downwards.  Twenty
bytes are enough for 32 bits in any of its bases and for 64 bits in base 16.  In base 8
a number of 64 bits can have 22 digits.
-/

namespace IbcsUs.Output

open Numerals

/-- The bytes of `buf` from `bb` on. -/
structure DigitBuffer where
  text : List Char
  room : text.length ≤ 20

namespace DigitBuffer

/-- `bb = &buf[sizeof(buf)]`. -/
def start : DigitBuffer := ⟨[], by decide⟩

/-- `*--bb = letter`, `none` below `buf[0]`. -/
def store (buf : DigitBuffer) (letter : Char) : Option DigitBuffer :=
  if hroom : buf.text.length + 1 ≤ 20 then some ⟨letter :: buf.text, hroom⟩ else none

end DigitBuffer

/-- The bases of the loops. -/
inductive NumberBase where
  | octal
  | decimal
  | hex
  deriving DecidableEq

def NumberBase.value : NumberBase → ℕ
  | octal => 8
  | decimal => 10
  | hex => 16

theorem NumberBase.one_lt (base : NumberBase) : 1 < base.value := by
  cases base <;> decide

/-- The loops over the digits; `n & 7` and `n >>= 3` are the remainder and the
quotient. -/
def digitLoop (base : NumberBase) (letter : ℕ → Char) (n : ℕ) (buf : DigitBuffer) :
    Option DigitBuffer :=
  (buf.store (letter (n % base.value))).bind fun buf =>
    if n / base.value = 0 then some buf
    else digitLoop base letter (n / base.value) buf
termination_by n
decreasing_by
  rename_i hmore
  have hpos : n ≠ 0 := fun hzero => hmore (by rw [hzero, Nat.zero_div])
  exact Nat.div_lt_self (Nat.pos_of_ne_zero hpos) base.one_lt

/-- `'0' + digit`. -/
def decimalLetter (digit : ℕ) : Char := Char.ofNat ('0'.toNat + digit)

/-- `h + (h < 10 ? '0' : a)`. -/
def hexLetter (lower : Bool) (h : ℕ) : Char :=
  let a := (if lower then 'a' else 'A').toNat - 10
  Char.ofNat (h + if h < 10 then '0'.toNat else a)

/-- The cases of `d` and `u`. -/
def printDecimal (signed : Bool) (n : BitVec 32) : Option DigitBuffer :=
  let minus := signed && n.slt 0
  let n := if minus then -n else n
  (digitLoop .decimal decimalLetter n.toNat .start).bind fun buf =>
    if minus then buf.store '-' else some buf

/-- The directives that print a number, with how many `l`s stand before the letter. -/
inductive NumberDirective where
  | d (longs : Fin 2)
  | u (longs : Fin 2)
  | o (longs : Fin 3)
  | x (longs : Fin 3)
  | X (longs : Fin 3)
  | p

namespace NumberDirective

/-- The text of a directive, `none` when it does not fit into `buf`. -/
def print (memory : Arguments) (list : ℕ) : NumberDirective → Option DigitBuffer
  | d _ => printDecimal true (memory.words list)
  | u _ => printDecimal false (memory.words list)
  | o longs => digitLoop .octal decimalLetter (unsignedArg memory list longs).1 .start
  | x longs => digitLoop .hex (hexLetter true) (unsignedArg memory list longs).1 .start
  | X longs => digitLoop .hex (hexLetter false) (unsignedArg memory list longs).1 .start
  | p => digitLoop .hex (hexLetter false) (unsignedArg memory list 0).1 .start

/-! ## Reading it back -/

/-- The number that a directive prints. -/
def argument (memory : Arguments) (list : ℕ) : NumberDirective → ℤ
  | d _ => (memory.words list).toInt
  | u _ => (memory.words list).toNat
  | o longs => (unsignedArg memory list longs).1
  | x longs => (unsignedArg memory list longs).1
  | X longs => (unsignedArg memory list longs).1
  | p => (unsignedArg memory list 0).1

/-- The letter of a directive. -/
def letter : NumberDirective → Char
  | d _ => 'd'
  | u _ => 'u'
  | o _ => 'o'
  | x _ => 'x'
  | X _ => 'X'
  | p => 'p'

/-- How many `l`s stand before it. -/
def longs : NumberDirective → ℕ
  | d longs | u longs => longs
  | o longs | x longs | X longs => longs
  | p => 0

def base : NumberDirective → NumberBase
  | d _ => .decimal
  | u _ => .decimal
  | o _ => .octal
  | x _ => .hex
  | X _ => .hex
  | p => .hex

end NumberDirective

/-- The value of a digit, in either case. -/
def letterValue (base : ℕ) (letter : Char) : Option ℕ :=
  (List.range base).find? fun value => value.digitChar = letter.toLower

/-- The value of a text of digits, which is not empty. -/
def readUnsigned (base : ℕ) (text : List Char) : Option ℕ :=
  if text = [] then none else readNumeral (letterValue base) base text 0

/-- The value of a text, with a sign. -/
def readBack (base : ℕ) : List Char → Option ℤ
  | '-' :: text => (readUnsigned base text).map fun value : ℕ => -(value : ℤ)
  | text => (readUnsigned base text).map fun value : ℕ => (value : ℤ)

/-- The digits fit, and are those of the argument. -/
def PrintsArgument (memory : Arguments) (list : ℕ) (directive : NumberDirective) : Prop :=
  ∃ buf, directive.print memory list = some buf ∧
    readBack directive.base.value buf.text = some (directive.argument memory list)

/-- Anything but a number of more than 60 bits in base 8. -/
def FitsBuffer (memory : Arguments) (list : ℕ) : NumberDirective → Prop
  | .o longs => (unsignedArg memory list longs).1 < 2 ^ 60
  | _ => True

/-! ## The loop -/

section Loop

variable {base : NumberBase} {letter : ℕ → Char} {fold : Char → Char}

/-- What the loop stores are the digits, as many as there is room for. -/
theorem digitLoop_eq
    (hletter : ∀ digit < base.value, letter digit = fold digit.digitChar)
    (n : ℕ) (buf : DigitBuffer) :
    (digitLoop base letter n buf).map DigitBuffer.text =
      if ((Nat.toDigits base.value n).map fold ++ buf.text).length ≤ 20 then
        some ((Nat.toDigits base.value n).map fold ++ buf.text)
      else none := by
  induction n using Nat.strong_induction_on generalizing buf with
  | _ n ih =>
      have hmod : n % base.value < base.value :=
        Nat.mod_lt _ (Nat.zero_lt_of_lt base.one_lt)
      rw [digitLoop, DigitBuffer.store, hletter _ hmod, Nat.toDigits_eq_if base.one_lt]
      by_cases hroom : buf.text.length + 1 ≤ 20
      · rw [dif_pos hroom, Option.bind_some]
        by_cases hlt : n < base.value
        · rw [if_pos (Nat.div_eq_of_lt hlt), if_pos hlt, if_pos (by simpa using hroom),
            Nat.mod_eq_of_lt hlt]
          rfl
        · have hmore : n / base.value ≠ 0 :=
            (Nat.div_pos (Nat.le_of_not_lt hlt) (Nat.zero_lt_of_lt base.one_lt)).ne'
          have hdiv : n / base.value < n := Nat.div_lt_self
            (Nat.pos_of_ne_zero fun hzero => hmore (by rw [hzero, Nat.zero_div])) base.one_lt
          rw [if_neg hmore, if_neg hlt, ih _ hdiv]
          simp
      · rw [dif_neg hroom, if_neg]
        · rfl
        · split <;> simp <;> omega

/-- The loop ends with all the digits exactly when they fit. -/
theorem digitLoop_start
    (hletter : ∀ digit < base.value, letter digit = fold digit.digitChar) (n : ℕ) :
    (digitLoop base letter n .start).map DigitBuffer.text =
      if n < base.value ^ 20 then some ((Nat.toDigits base.value n).map fold) else none := by
  rw [digitLoop_eq hletter]
  have hroom : (Nat.toDigits base.value n).length ≤ 20 ↔ n < base.value ^ 20 :=
    Nat.length_toDigits_le_iff base.one_lt (by decide)
  simp only [DigitBuffer.start, List.append_nil, List.length_map, hroom]

/-- A loop that ends has stored the digits. -/
theorem digitLoop_text
    (hletter : ∀ digit < base.value, letter digit = fold digit.digitChar) {n : ℕ}
    {buf : DigitBuffer} (hloop : digitLoop base letter n .start = some buf) :
    buf.text = (Nat.toDigits base.value n).map fold := by
  have htext := digitLoop_start hletter n
  rw [hloop, Option.map_some] at htext
  split at htext
  · exact Option.some.inj htext
  · cases htext

theorem letterValue_digitChar
    (hfold : ∀ digit < base.value, (fold digit.digitChar).toLower = digit.digitChar.toLower) :
    ∀ digit < base.value, letterValue base.value (fold digit.digitChar) = some digit := by
  intro digit hlt
  rw [letterValue, hfold digit hlt]
  clear hfold
  revert digit
  cases base <;> decide

theorem readUnsigned_toDigits (base : NumberBase)
    (hfold : ∀ digit < base.value, (fold digit.digitChar).toLower = digit.digitChar.toLower)
    (n : ℕ) : readUnsigned base.value ((Nat.toDigits base.value n).map fold) = some n := by
  have hne : (Nat.toDigits base.value n).map fold ≠ [] := by
    simp [Nat.toDigits_ne_nil]
  rw [readUnsigned, if_neg hne]
  exact readNumeral_toDigits base.one_lt (letterValue_digitChar hfold) n

theorem letterValue_minus : letterValue base.value '-' = none := by
  cases base <;> decide

/-- The first digit is no sign. -/
theorem readBack_toDigits (base : NumberBase)
    (hfold : ∀ digit < base.value, (fold digit.digitChar).toLower = digit.digitChar.toLower)
    (n : ℕ) :
    readBack base.value ((Nat.toDigits base.value n).map fold) = some (n : ℤ) := by
  have hread := readUnsigned_toDigits base hfold n
  rw [readBack.eq_def]
  split
  · rename_i text heq
    rw [heq, readUnsigned, if_neg (by simp), readNumeral, letterValue_minus] at hread
    cases hread
  · rw [hread]
    rfl

end Loop

/-! ## The letters -/

theorem decimalLetter_eq {base : NumberBase} (hbase : base ≠ .hex) :
    ∀ digit < base.value, decimalLetter digit = id digit.digitChar := by
  cases base with
  | octal => decide
  | decimal => decide
  | hex => exact absurd rfl hbase

theorem hexLetter_lower :
    ∀ digit < NumberBase.hex.value, hexLetter true digit = id digit.digitChar := by
  decide

theorem hexLetter_upper :
    ∀ digit < NumberBase.hex.value, hexLetter false digit = digit.digitChar.toUpper := by
  decide

theorem digitChar_upper : ∀ digit < NumberBase.hex.value,
    digit.digitChar.toUpper.toLower = digit.digitChar.toLower := by
  decide

/-! ## The directives -/

section Directives

variable {memory : Arguments} {list : ℕ}

/-- Thirty-two bits fit in base 10, with a sign. -/
theorem printDecimal_eq (signed : Bool) (n : BitVec 32) :
    (printDecimal signed n).map DigitBuffer.text = some (decimal signed n) := by
  have hdigits : ∀ n : BitVec 32,
      (digitLoop .decimal decimalLetter n.toNat .start).map DigitBuffer.text =
        some (Nat.toDigits 10 n.toNat) := by
    intro n
    have hlt : n.toNat < NumberBase.decimal.value ^ 20 := n.isLt.trans (by decide)
    rw [digitLoop_start (decimalLetter_eq (by decide)), if_pos hlt, List.map_id]
    rfl
  rw [printDecimal, decimal]
  split
  · rename_i hminus
    obtain ⟨buf, hbuf, htext⟩ := Option.map_eq_some_iff.mp (hdigits (-n))
    have hlength : buf.text.length ≤ 10 := by
      rw [htext, Nat.length_toDigits_le_iff (by decide) (by decide)]
      exact (-n).isLt.trans (by decide)
    rw [hbuf, Option.bind_some, DigitBuffer.store, dif_pos (by omega), Option.map_some]
    exact congrArg (fun text => some ('-' :: text)) htext
  · rw [Option.bind_fun_some]
    exact hdigits n

theorem printDecimal_text {signed : Bool} {n : BitVec 32} {buf : DigitBuffer}
    (hprint : printDecimal signed n = some buf) : buf.text = decimal signed n := by
  have htext := printDecimal_eq signed n
  rw [hprint] at htext
  exact Option.some.inj htext

/-- The loops that print a word or two in base 8 or 16. -/
theorem print_unsigned {base : NumberBase} {letter : ℕ → Char} {fold : Char → Char}
    (hletter : ∀ digit < base.value, letter digit = fold digit.digitChar)
    (hfold : ∀ digit < base.value, (fold digit.digitChar).toLower = digit.digitChar.toLower)
    (n : ℕ) :
    (∃ buf, digitLoop base letter n .start = some buf ∧
        readBack base.value buf.text = some (n : ℤ)) ↔ n < base.value ^ 20 := by
  have hloop := digitLoop_start hletter n
  constructor
  · rintro ⟨buf, hbuf, -⟩
    by_contra hge
    rw [hbuf, if_neg hge] at hloop
    cases hloop
  · intro hlt
    rw [if_pos hlt] at hloop
    obtain ⟨buf, hbuf, htext⟩ := Option.map_eq_some_iff.mp hloop
    exact ⟨buf, hbuf, by rw [htext, readBack_toDigits base hfold]⟩

/-- The negation of a negative word, the least one included. -/
theorem toNat_neg_of_slt {n : BitVec 32} (hminus : n.slt 0) :
    -((-n).toNat : ℤ) = n.toInt := by
  have hlt := n.isLt
  have hsign : n.toInt < 0 := BitVec.slt_iff_toInt_lt.mp hminus
  rw [BitVec.toInt_eq_toNat_cond] at hsign ⊢
  rw [BitVec.toNat_neg]
  split_ifs at hsign ⊢ <;> omega

theorem toNat_of_not_slt {n : BitVec 32} (hplus : ¬ n.slt 0) : (n.toNat : ℤ) = n.toInt := by
  have hlt := n.isLt
  have hsign : ¬ n.toInt < 0 := fun h => hplus (BitVec.slt_iff_toInt_lt.mpr h)
  rw [BitVec.toInt_eq_toNat_cond] at hsign ⊢
  split_ifs at hsign ⊢ <;> omega

theorem readBack_decimal (signed : Bool) (n : BitVec 32) :
    readBack 10 (decimal signed n) =
      some (if signed then n.toInt else (n.toNat : ℤ)) := by
  have hread : ∀ number : ℕ, readBack 10 (Nat.toDigits 10 number) = some (number : ℤ) := by
    intro number
    rw [← List.map_id (Nat.toDigits 10 number)]
    exact readBack_toDigits .decimal (fun _ _ => rfl) number
  have hreadUnsigned : ∀ number : ℕ,
      readUnsigned 10 (Nat.toDigits 10 number) = some number := by
    intro number
    rw [← List.map_id (Nat.toDigits 10 number)]
    exact readUnsigned_toDigits .decimal (fun _ _ => rfl) number
  cases signed with
  | false =>
      rw [decimal, if_neg (by simp), hread]
      rfl
  | true =>
      rw [decimal, Bool.true_and, if_pos rfl]
      split
      · rename_i hminus
        rw [readBack, hreadUnsigned, Option.map_some, toNat_neg_of_slt hminus]
      · rename_i hplus
        rw [hread, toNat_of_not_slt hplus]

theorem unsignedArg_lt (longs : ℕ) : (unsignedArg memory list longs).1 < 2 ^ 64 := by
  have hlow := (memory.words list).isLt
  have hhigh := (memory.words (list + 1)).isLt
  rw [unsignedArg, longWord]
  split <;> dsimp only <;> omega

theorem printsDecimal (signed : Bool) (n : BitVec 32) :
    ∃ buf, printDecimal signed n = some buf ∧
      readBack 10 buf.text = some (if signed then n.toInt else (n.toNat : ℤ)) := by
  obtain ⟨buf, hbuf, htext⟩ := Option.map_eq_some_iff.mp (printDecimal_eq signed n)
  exact ⟨buf, hbuf, by rw [htext, readBack_decimal]⟩

end Directives

/-- A directive prints its argument into `buf` exactly when the digits fit, which all but
those of more than 60 bits in base 8 do. -/
theorem printsArgument_iff (memory : Arguments) (list : ℕ) (directive : NumberDirective) :
    PrintsArgument memory list directive ↔ FitsBuffer memory list directive := by
  cases directive with
  | d longs => exact iff_of_true (printsDecimal true _) trivial
  | u longs => exact iff_of_true (printsDecimal false _) trivial
  | o longs => exact print_unsigned (decimalLetter_eq (by decide)) (fun _ _ => rfl) _
  | x longs =>
      exact iff_of_true ((print_unsigned hexLetter_lower (fun _ _ => rfl) _).mpr
        (unsignedArg_lt _ |>.trans (by decide))) trivial
  | X longs =>
      exact iff_of_true ((print_unsigned hexLetter_upper digitChar_upper _).mpr
        (unsignedArg_lt _ |>.trans (by decide))) trivial
  | p =>
      exact iff_of_true ((print_unsigned hexLetter_upper digitChar_upper _).mpr
        (unsignedArg_lt _ |>.trans (by decide))) trivial

/-- The text of a conversion is what lies in `buf`. -/
theorem convert_text {memory : Arguments} {list : ℕ} {directive : NumberDirective}
    {buf : DigitBuffer} (hprint : directive.print memory list = some buf)
    (fStart f : List Char) :
    (convert memory list directive.longs fStart (directive.letter :: f)).text = buf.text := by
  cases directive with
  | d longs =>
      have hlongs : (longs : ℕ) ≤ 1 := Nat.le_of_lt_succ longs.isLt
      simp [convert, NumberDirective.letter, NumberDirective.longs, hlongs, Converted.whole,
        printDecimal_text hprint]
  | u longs =>
      have hlongs : (longs : ℕ) ≤ 1 := Nat.le_of_lt_succ longs.isLt
      simp [convert, NumberDirective.letter, NumberDirective.longs, hlongs, Converted.whole,
        printDecimal_text hprint]
  | o longs =>
      rw [digitLoop_text (decimalLetter_eq (by decide)) hprint, List.map_id]
      simp [convert, NumberDirective.letter, NumberDirective.longs, Converted.whole,
        NumberBase.value]
  | x longs =>
      rw [digitLoop_text hexLetter_lower hprint, List.map_id]
      simp [convert, NumberDirective.letter, NumberDirective.longs, Converted.whole,
        NumberBase.value]
  | X longs =>
      rw [digitLoop_text hexLetter_upper hprint]
      simp [convert, NumberDirective.letter, NumberDirective.longs, Converted.whole,
        NumberBase.value]
  | p =>
      rw [digitLoop_text hexLetter_upper hprint]
      simp [convert, NumberDirective.letter, NumberDirective.longs, Converted.whole,
        NumberBase.value]

/-- The least number of 61 bits has 21 digits in base 8. -/
theorem octal_below_buffer :
    NumberDirective.print ⟨fun word => if word = 1 then 2 ^ 28 else 0, fun _ => [], fun _ => nul⟩
        0 (.o 2) = none ∧
      ¬ PrintsArgument ⟨fun word => if word = 1 then 2 ^ 28 else 0, fun _ => [], fun _ => nul⟩
        0 (.o 2) := by
  have hbase : NumberBase.octal ≠ .hex := by decide
  have hprint := (digitLoop_start (decimalLetter_eq hbase) (2 ^ 60)).trans (if_neg (by decide))
  rw [Option.map_eq_none_iff] at hprint
  refine ⟨hprint, ?_⟩
  rintro ⟨buf, hbuf, -⟩
  cases hprint.symm.trans hbuf

end IbcsUs.Output
