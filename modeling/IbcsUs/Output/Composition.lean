import Mathlib.Data.List.TakeWhile
import IbcsUs.Output.Truncation

/-!
# Piece by piece

A format is literal text and directives.  A directive that the `switch` recognises
should take its own characters and one argument, and any other should be copied as it
stands.  Where each directive does so the output is the concatenation of the pieces.
-/

namespace IbcsUs.Output

/-! ## Directives as they are written -/

/-- The types that `va_arg` is asked for. -/
inductive ArgType
  | word
  | long
  | string

/-- An argument of a type. -/
def ArgType.Value : ArgType → Type
  | .word => BitVec 32
  | .long => BitVec 64
  | .string => List Char

/-- The words of the argument list that an argument takes. -/
def ArgType.words : ArgType → ℕ
  | .word => 1
  | .long => 2
  | .string => 1

/-- The argument at a place of the list. -/
def ArgType.fetch (memory : Arguments) (list : ℕ) : (type : ArgType) → type.Value
  | .word => memory.words list
  | .long => BitVec.ofNat 64 (longWord memory list)
  | .string => memory.strings (memory.words list)

/-- The conversions that the `switch` knows. -/
inductive Conversion
  | char
  | decimal (signed : Bool)
  | octal (long : Bool)
  | string
  | hex (upper long : Bool)
  deriving DecidableEq

/-- The type of the argument of a conversion. -/
def Conversion.argType : Conversion → ArgType
  | .char => .word
  | .decimal _ => .word
  | .octal false => .word
  | .octal true => .long
  | .string => .string
  | .hex _ false => .word
  | .hex _ true => .long

/-- The digits of a hexadecimal number. -/
def hexDigits (upper : Bool) (n : ℕ) : List Char :=
  if upper then (Nat.toDigits 16 n).map Char.toUpper else Nat.toDigits 16 n

/-- An argument in characters. -/
def Conversion.text : (conversion : Conversion) → conversion.argType.Value → List Char
  | .char, (n : BitVec 32) => [Char.ofNat (n.toNat % 256)]
  | .decimal signed, n => Output.decimal signed n
  | .octal false, (n : BitVec 32) => Nat.toDigits 8 n.toNat
  | .octal true, (n : BitVec 64) => Nat.toDigits 8 n.toNat
  | .string, text => text
  | .hex upper false, (n : BitVec 32) => hexDigits upper n.toNat
  | .hex upper true, (n : BitVec 64) => hexDigits upper n.toNat

/-- A directive as it is written. -/
structure Spec where
  leftJustify : Bool
  padChar : Char
  minWidth : BitVec 32
  maxWidth : BitVec 32
  longs : ℕ
  c : Char
  deriving DecidableEq

/-- What is written behind a `%`, and where the format character is. -/
def parse (f : List Char) : Spec × List Char :=
  let (leftJustify, f) := readJustify f
  let padChar := if f.headD nul = '0' then '0' else ' '
  let (minWidth, f) := readNumber 0 f
  let (maxWidth, f) := readMaxWidth f
  let (longs, f) := readLongs f
  (⟨leftJustify, padChar, minWidth, maxWidth, longs, f.headD nul⟩, f)

/-- The conversion that a directive asks for. -/
def Spec.conversion (spec : Spec) : Option Conversion :=
  if spec.c = 'c' ∧ spec.longs = 0 then some .char
  else if (spec.c = 'd' ∨ spec.c = 'u') ∧ spec.longs ≤ 1 then
    some (.decimal (spec.c = 'd'))
  else if spec.c = 'o' then some (.octal (1 < spec.longs))
  else if spec.c = 's' ∧ spec.longs = 0 then some .string
  else if spec.c = 'x' ∨ spec.c = 'X' ∨ spec.c = 'p' ∧ spec.longs = 0 then
    some (.hex (spec.c ≠ 'x') (1 < spec.longs))
  else none

/-- The size of a text within the precision. -/
def Spec.cut (spec : Spec) (text : List Char) : BitVec 32 :=
  if spec.maxWidth.slt (BitVec.ofNat 32 text.length) then spec.maxWidth
  else BitVec.ofNat 32 text.length

/-- The padding that a text needs. -/
def Spec.padding (spec : Spec) (text : List Char) : BitVec 32 :=
  if spec.minWidth.sle (spec.cut text) then 0 else spec.minWidth - spec.cut text

/-- A text within the width and the precision of a directive. -/
def Spec.render (spec : Spec) (text : List Char) : List Char :=
  let chunk := text.take (spec.cut text).toNat
  let pads := List.replicate (spec.padding text).toNat spec.padChar
  if spec.leftJustify then chunk ++ pads else pads ++ chunk

/-- The characters of a directive behind its `%`, to its format character. -/
def ownLength (f : List Char) : ℕ :=
  f.length - (parse f).2.length + if (parse f).1.c = nul then 0 else 1

/-- The characters of a directive. -/
def own (f : List Char) : List Char :=
  '%' :: f.take (ownLength f)

/-- The format behind a directive. -/
def behind (f : List Char) : List Char :=
  f.drop (ownLength f)

/-- The argument list behind the argument of a directive. -/
def listBehind (list : ℕ) (f : List Char) : ℕ :=
  match (parse f).1.conversion with
  | some conversion => list + conversion.argType.words
  | none => list

/-- What stands for a directive. -/
def rendering (memory : Arguments) (list : ℕ) (f : List Char) : List Char :=
  match (parse f).1.conversion with
  | some conversion =>
      (parse f).1.render (conversion.text (conversion.argType.fetch memory list))
  | none => own f

theorem length_behind_le (f : List Char) : (behind f).length ≤ f.length := by
  rw [behind, List.length_drop]
  exact Nat.sub_le _ _

/-- A piece of a format: literal text, or a directive, from behind its `%`, with its
place in the argument list. -/
inductive Piece
  | literal (text : List Char)
  | directive (list : ℕ) (f : List Char)

/-- What stands for a piece. -/
def Piece.shown (memory : Arguments) : Piece → List Char
  | .literal text => text
  | .directive list f => rendering memory list f

/-- The pieces of a format. -/
def pieces (list : ℕ) (fmt : List Char) : List Piece :=
  let f := fmt.dropWhile isLiteral
  if hdirective : f.head? = some '%' then
    have : (behind (fmt.dropWhile isLiteral).tail).length < fmt.length :=
      (length_behind_le _).trans_lt
        ((length_tail_lt hdirective).trans_le (length_dropWhile_isLiteral fmt))
    .literal (fmt.takeWhile isLiteral) :: .directive list f.tail ::
      pieces (listBehind list f.tail) (behind f.tail)
  else [.literal (fmt.takeWhile isLiteral)]
termination_by fmt.length

/-- The concatenation of the pieces. -/
def composition (memory : Arguments) (fmt : List Char) : List Char :=
  (pieces 0 fmt).flatMap (Piece.shown memory)

/-- A turn of the loop that does what its directive says: it prints what stands for it,
the digits stay inside `buf`, and the format and the argument list go on behind it. -/
structure TurnRight (memory : Arguments) (list : ℕ) (f : List Char) : Prop where
  shown : (directive memory list ('%' :: f)).shown memory = rendering memory list f
  inBuffer : ∀ conversion, (parse f).1.conversion = some conversion →
    conversion ≠ .string →
      (conversion.text (conversion.argType.fetch memory list)).length ≤ 20
  next : (directive memory list ('%' :: f)).f = behind f
  listNext : (directive memory list ('%' :: f)).list = listBehind list f

/-- The output is the concatenation of the pieces, each directive in its own turn. -/
structure Composed (memory : Arguments) (fmt : List Char) : Prop where
  turns : ∀ list f, .directive list f ∈ pieces 0 fmt → TurnRight memory list f
  out : ∀ size, 1 < size → (ibcsVfmt memory true size fmt).out =
    some ((composition memory fmt).take (size - 1) ++ [nul])

/-! ## When a turn does so -/

/-- A recognised directive that is not `%c`, which prints its own letter again: its
precision has not wrapped, or its text is so long that its size has wrapped as well,
and an octal number has 20 digits at most. -/
structure RecognisedMeets (memory : Arguments) (list : ℕ) (spec : Spec)
    (conversion : Conversion) : Prop where
  advances : conversion ≠ .char
  precise : (0#32).sle spec.maxWidth ∨
    2 ^ 31 ≤ (conversion.text (conversion.argType.fetch memory list)).length
  narrow : conversion = .octal true → longWord memory list < 2 ^ 60

/-- A directive whose own text has its width, or is cut off by its precision and padded
again by what has been cut off. -/
def FitsItself (spec : Spec) (text : List Char) : Prop :=
  let length := BitVec.ofNat 32 text.length
  (spec.minWidth.sle length ∧ ¬ spec.maxWidth.slt length) ∨
    (spec.leftJustify ∧ spec.maxWidth.slt length ∧ spec.maxWidth.toNat < text.length ∧
      spec.minWidth = length ∧
      text.drop spec.maxWidth.toNat =
        List.replicate (text.length - spec.maxWidth.toNat) spec.padChar)

/-- The condition on a directive. -/
def Meets (memory : Arguments) (list : ℕ) (f : List Char) : Prop :=
  match (parse f).1.conversion with
  | some conversion => RecognisedMeets memory list (parse f).1 conversion
  | none =>
      ((parse f).1.c = nul → (parse f).1.longs = 0) ∧ FitsItself (parse f).1 (own f)

section Turns

variable {memory : Arguments} {list : ℕ} {f : List Char}

theorem size_convert (memory : Arguments) (list longs : ℕ) (fStart f : List Char) :
    (convert memory list longs fStart f).size =
      BitVec.ofNat 32 (convert memory list longs fStart f).text.length := by
  simp only [convert]
  split_ifs <;> rfl

/-- What the `switch` makes of the directive behind a `%`. -/
def converted (memory : Arguments) (list : ℕ) (f : List Char) : Converted :=
  convert memory list (parse f).1.longs ('%' :: f) (parse f).2

theorem directive_eq (memory : Arguments) (list : ℕ) (f : List Char) :
    directive memory list ('%' :: f) =
      ⟨(parse f).1.leftJustify, (parse f).1.padChar,
        (parse f).1.padding (converted memory list f).text,
        (converted memory list f).text,
        (parse f).1.cut (converted memory list f).text,
        (converted memory list f).f, (converted memory list f).list⟩ := by
  have hsize := size_convert memory list (parse f).1.longs ('%' :: f) (parse f).2
  simp only [Spec.padding, Spec.cut, converted, ← hsize]
  rfl

theorem length_render (spec : Spec) (text : List Char) :
    (spec.render text).length =
      (spec.padding text).toNat + min (spec.cut text).toNat text.length := by
  unfold Spec.render
  dsimp only
  split <;> rw [List.length_append, List.length_replicate, List.length_take]
  exact Nat.add_comm _ _

/-- A turn prints what the directive makes of its text unless it reads on behind it. -/
theorem shown_eq_render_iff :
    (directive memory list ('%' :: f)).shown memory =
        (parse f).1.render (converted memory list f).text ↔
      ((parse f).1.cut (converted memory list f).text).toNat ≤
        (converted memory list f).text.length := by
  rw [directive_eq]
  constructor
  · intro heq
    have hlength := congrArg List.length heq
    rw [length_shown, length_render] at hlength
    dsimp only at hlength
    omega
  · intro hle
    simp only [Directive.shown, Directive.chunk, Directive.pads, Spec.render, if_pos hle]

/-- The size stays within the text unless the precision has wrapped. -/
theorem cut_le_iff (spec : Spec) (text : List Char) :
    (spec.cut text).toNat ≤ text.length ↔
      (0#32).sle spec.maxWidth ∨ 2 ^ 31 ≤ text.length := by
  have hmod : (BitVec.ofNat 32 text.length).toNat = text.length % 2 ^ 32 :=
    BitVec.toNat_ofNat _ _
  have hzero : (0#32).toInt = 0 := rfl
  simp only [Spec.cut, BitVec.slt_iff_toInt_lt, BitVec.sle_iff_toInt_le, hzero]
  split
  · next hcut =>
    simp only [BitVec.toInt_eq_toNat_cond, hmod] at hcut ⊢
    omega
  · next hwhole =>
    simp only [BitVec.toInt_eq_toNat_cond, hmod] at hwhole ⊢
    omega

theorem longWord_lt (memory : Arguments) (list : ℕ) :
    longWord memory list < 2 ^ 64 := by
  have hlow := (memory.words list).isLt
  have hhigh := (memory.words (list + 1)).isLt
  unfold longWord
  omega

theorem toNat_longWord (memory : Arguments) (list : ℕ) :
    (BitVec.ofNat 64 (longWord memory list)).toNat = longWord memory list := by
  rw [BitVec.toNat_ofNat, Nat.mod_eq_of_lt (longWord_lt memory list)]

theorem unsignedArg_long {longs : ℕ} (hlong : 1 < longs) :
    unsignedArg memory list longs =
      ((BitVec.ofNat 64 (longWord memory list)).toNat, list + 2) := by
  rw [unsignedArg, if_neg (Nat.not_le.2 hlong), toNat_longWord]

theorem unsignedArg_word {longs : ℕ} (hword : ¬ 1 < longs) :
    unsignedArg memory list longs = ((memory.words list).toNat, list + 1) :=
  if_pos (Nat.le_of_not_lt hword)

theorem digits_eq (c : Char) (n : ℕ) :
    (if c = 'x' then Nat.toDigits 16 n else (Nat.toDigits 16 n).map Char.toUpper) =
      hexDigits (c ≠ 'x') n := by
  by_cases hx : c = 'x' <;> simp [hexDigits, hx]

/-! ### Recognised directives -/

theorem converted_of_some {conversion : Conversion}
    (hconversion : (parse f).1.conversion = some conversion) :
    converted memory list f =
      .whole (conversion.text (conversion.argType.fetch memory list))
        (if conversion = .char then (parse f).2 else (parse f).2.tail)
        (list + conversion.argType.words) := by
  have hc : (parse f).1.c = (parse f).2.headD nul := rfl
  unfold Spec.conversion at hconversion
  unfold converted convert
  rw [hc] at hconversion
  split_ifs at hconversion with hchar hdecimal hoctal hstring hhex
  · obtain rfl := Option.some.inj hconversion
    simp only [if_pos hchar]
    rfl
  · obtain rfl := Option.some.inj hconversion
    simp only [if_neg hchar, if_pos hdecimal]
    rfl
  · simp only [if_neg hchar, if_neg hdecimal, if_pos hoctal]
    by_cases hlong : 1 < (parse f).1.longs
    · rw [decide_eq_true hlong] at hconversion
      obtain rfl := Option.some.inj hconversion
      rw [unsignedArg_long hlong]
      rfl
    · rw [decide_eq_false hlong] at hconversion
      obtain rfl := Option.some.inj hconversion
      rw [unsignedArg_word hlong]
      rfl
  · obtain rfl := Option.some.inj hconversion
    simp only [if_neg hchar, if_neg hdecimal, if_neg hoctal, if_pos hstring]
    rfl
  · simp only [if_neg hchar, if_neg hdecimal, if_neg hoctal, if_neg hstring, if_pos hhex]
    by_cases hlong : 1 < (parse f).1.longs
    · rw [decide_eq_true hlong] at hconversion
      obtain rfl := Option.some.inj hconversion
      rw [unsignedArg_long hlong]
      simp only [digits_eq]
      rfl
    · rw [decide_eq_false hlong] at hconversion
      obtain rfl := Option.some.inj hconversion
      rw [unsignedArg_word hlong]
      simp only [digits_eq]
      rfl

/-- Only octal numbers of 64 bits can have more than 20 digits. -/
theorem length_text_le_iff (conversion : Conversion) (hstring : conversion ≠ .string) :
    (conversion.text (conversion.argType.fetch memory list)).length ≤ 20 ↔
      (conversion = .octal true → longWord memory list < 2 ^ 60) := by
  have hword := (memory.words list).isLt
  have hlong := longWord_lt memory list
  cases conversion with
  | char =>
      have hone : 1 ≤ 20 := by decide
      exact iff_of_true hone (by simp)
  | decimal signed =>
      have hdigits (n : BitVec 32) : (Nat.toDigits 10 n.toNat).length ≤ 19 :=
        (Nat.length_toDigits_le_iff (by decide) (by decide)).2
          (n.isLt.trans (by decide))
      refine iff_of_true ?_ (by simp)
      change (Output.decimal signed (memory.words list)).length ≤ 20
      rw [Output.decimal]
      split
      · exact Nat.succ_le_succ (hdigits _)
      · exact (hdigits _).trans (by decide)
  | octal long =>
      cases long with
      | false =>
          exact iff_of_true ((Nat.length_toDigits_le_iff (by decide) (by decide)).2
            (hword.trans (by decide))) (by simp)
      | true =>
          change (Nat.toDigits 8 (BitVec.ofNat 64 (longWord memory list)).toNat).length
            ≤ 20 ↔ _
          rw [toNat_longWord, Nat.length_toDigits_le_iff (by decide) (by decide)]
          exact ⟨fun hless _ => hless, fun hless => hless rfl⟩
  | string => exact absurd rfl hstring
  | hex upper long =>
      have hdigits {n : ℕ} (hn : n < 2 ^ 64) : (hexDigits upper n).length ≤ 20 := by
        have hle : (Nat.toDigits 16 n).length ≤ 20 :=
          (Nat.length_toDigits_le_iff (by decide) (by decide)).2
            (hn.trans (by decide))
        cases upper with
        | false => exact hle
        | true => rwa [hexDigits, if_pos rfl, List.length_map]
      cases long with
      | false => exact iff_of_true (hdigits (hword.trans (by decide))) (by simp)
      | true => exact iff_of_true (hdigits (BitVec.isLt _)) (by simp)

theorem parse_suffix (f : List Char) : (parse f).2 <:+ f :=
  (readLongs_suffix _).trans ((readMaxWidth_suffix _).trans
    ((readNumber_suffix _ _).trans (readJustify_suffix f)))

/-- The format goes on at the end of the format, or behind the format character. -/
theorem behind_eq (f : List Char) :
    behind f = if (parse f).1.c = nul then (parse f).2 else (parse f).2.tail := by
  obtain ⟨front, hfront⟩ := parse_suffix f
  have hlength : f.length - (parse f).2.length = front.length := by
    have happend := congrArg List.length hfront
    rw [List.length_append] at happend
    omega
  have hdrop (n : ℕ) : f.drop (front.length + n) = (parse f).2.drop n := by
    have happend := congrArg (List.drop (front.length + n)) hfront
    rwa [List.drop_append, List.drop_eq_nil_of_le (Nat.le_add_right _ _),
      List.nil_append, Nat.add_sub_cancel_left, eq_comm] at happend
  rw [behind, ownLength, hlength, hdrop]
  by_cases hc : (parse f).1.c = nul
  · rw [if_pos hc, if_pos hc, List.drop_zero]
  · rw [if_neg hc, if_neg hc, List.drop_one]

theorem conversion_of_nul {spec : Spec} (hc : spec.c = nul) : spec.conversion = none := by
  simp only [Spec.conversion, hc]
  split_ifs with hchar hdecimal hoctal hstring hhex
  · exact absurd hchar.1 (by decide)
  · exact absurd hdecimal.1 (by decide)
  · exact absurd hoctal (by decide)
  · exact absurd hstring.1 (by decide)
  · obtain hx | hx | hx := hhex
    · exact absurd hx (by decide)
    · exact absurd hx (by decide)
    · exact absurd hx.1 (by decide)
  · rfl

/-- The format character is where the parser stops. -/
theorem parse_of_ne_nul {f : List Char} (hc : (parse f).1.c ≠ nul) :
    (parse f).2 = (parse f).1.c :: (parse f).2.tail := by
  have hhead : (parse f).1.c = (parse f).2.headD nul := rfl
  cases hrest : (parse f).2 with
  | nil =>
      rw [hhead, hrest] at hc
      exact absurd rfl hc
  | cons c rest => rw [hhead, hrest, List.headD_cons, List.tail_cons]

theorem tail_ne_self {c : Char} (f : List Char) : f ≠ c :: f := by
  intro heq
  have hlength := congrArg List.length heq
  simp at hlength

theorem rendering_of_some {conversion : Conversion}
    (hconversion : (parse f).1.conversion = some conversion) :
    rendering memory list f = (parse f).1.render
      (conversion.text (conversion.argType.fetch memory list)) := by
  unfold rendering
  rw [hconversion]

theorem listBehind_of_some {conversion : Conversion}
    (hconversion : (parse f).1.conversion = some conversion) :
    listBehind list f = list + conversion.argType.words := by
  unfold listBehind
  rw [hconversion]

/-- A recognised directive does what it says exactly if it meets the condition. -/
theorem turnRight_of_some {f : List Char} {conversion : Conversion}
    (hconversion : (parse f).1.conversion = some conversion) :
    TurnRight memory list f ↔
      RecognisedMeets memory list (parse f).1 conversion := by
  have hc : (parse f).1.c ≠ nul := by
    intro hnul
    rw [conversion_of_nul hnul] at hconversion
    cases hconversion
  have hconverted := @converted_of_some memory list f conversion hconversion
  have htext : (converted memory list f).text =
      conversion.text (conversion.argType.fetch memory list) := by
    rw [hconverted]
    rfl
  have hrendering : rendering memory list f =
      (parse f).1.render (converted memory list f).text := by
    rw [htext, rendering_of_some hconversion]
  have hshown : (directive memory list ('%' :: f)).shown memory =
        rendering memory list f ↔
      (0#32).sle (parse f).1.maxWidth ∨
        2 ^ 31 ≤ (conversion.text (conversion.argType.fetch memory list)).length := by
    rw [hrendering, ← htext]
    exact shown_eq_render_iff.trans (cut_le_iff _ _)
  have hf : (directive memory list ('%' :: f)).f = behind f ↔
      conversion ≠ .char := by
    have hstep : (directive memory list ('%' :: f)).f =
        (converted memory list f).f := by
      rw [directive_eq]
    rw [hstep, hconverted, behind_eq, if_neg hc]
    dsimp only [Converted.whole]
    split
    · next hchar =>
      rw [parse_of_ne_nul hc, List.tail_cons]
      exact iff_of_false (Ne.symm (tail_ne_self _)) (not_not.2 hchar)
    · next hchar => exact iff_of_true rfl hchar
  constructor
  · intro hright
    refine ⟨hf.1 hright.next, hshown.1 hright.shown, fun hoctal => ?_⟩
    have hstring : conversion ≠ .string := by simp [hoctal]
    exact (length_text_le_iff conversion hstring).1
      (hright.inBuffer conversion hconversion hstring) hoctal
  · intro hmeets
    refine ⟨hshown.2 hmeets.precise, ?_, hf.2 hmeets.advances, ?_⟩
    · intro other hother hstring
      obtain rfl := Option.some.inj (hconversion.symm.trans hother)
      exact (length_text_le_iff conversion hstring).2 hmeets.narrow
    · rw [directive_eq, hconverted, listBehind_of_some hconversion]
      rfl

/-! ### Directives that are not recognised -/

theorem toNat_ofNat_length {text : List Char} (hless : text.length < 2 ^ 32) :
    (BitVec.ofNat 32 text.length).toNat = text.length := by
  rw [BitVec.toNat_ofNat, Nat.mod_eq_of_lt hless]

/-- The text stays whole if nothing is cut off and nothing is added. -/
theorem whole_iff (spec : Spec) {text : List Char} (hless : text.length < 2 ^ 32) :
    ((spec.cut text).toNat = text.length ∧ spec.padding text = 0) ↔
      (spec.minWidth.sle (BitVec.ofNat 32 text.length) ∧
        ¬ spec.maxWidth.slt (BitVec.ofNat 32 text.length)) := by
  have hlength := toNat_ofNat_length hless
  constructor
  · rintro ⟨hcut, hpadding⟩
    have hwhole : spec.cut text = BitVec.ofNat 32 text.length :=
      BitVec.eq_of_toNat_eq (hcut.trans hlength.symm)
    rw [Spec.padding, hwhole] at hpadding
    have hwidth : spec.minWidth.sle (BitVec.ofNat 32 text.length) := by
      by_contra hwide
      rw [if_neg hwide, sub_eq_zero] at hpadding
      rw [hpadding, BitVec.sle_iff_toInt_le] at hwide
      exact hwide le_rfl
    refine ⟨hwidth, fun hshort => ?_⟩
    rw [Spec.cut, if_pos hshort] at hwhole
    rw [hwhole, BitVec.slt_iff_toInt_lt] at hshort
    exact lt_irrefl _ hshort
  · rintro ⟨hwidth, hlong⟩
    have hwhole : spec.cut text = BitVec.ofNat 32 text.length := by
      rw [Spec.cut, if_neg hlong]
    rw [Spec.padding, hwhole, if_pos hwidth]
    exact ⟨hlength, rfl⟩

/-- What is cut off and what is added have the same length if the width is that of the
text. -/
theorem refilled_iff (spec : Spec) {text : List Char} (hless : text.length < 2 ^ 32) :
    ((spec.cut text).toNat + (spec.padding text).toNat = text.length ∧
        spec.padding text ≠ 0) ↔
      (spec.maxWidth.slt (BitVec.ofNat 32 text.length) ∧
        spec.maxWidth.toNat < text.length ∧
        spec.minWidth = BitVec.ofNat 32 text.length) := by
  have hlength := toNat_ofNat_length hless
  constructor
  · rintro ⟨hsum, hpadding⟩
    have hpositive : (spec.padding text).toNat ≠ 0 := by
      intro hzero
      exact hpadding (BitVec.eq_of_toNat_eq hzero)
    have hshort : spec.maxWidth.slt (BitVec.ofNat 32 text.length) := by
      by_contra hlong
      rw [Spec.cut, if_neg hlong] at hsum
      omega
    have hcut : spec.cut text = spec.maxWidth := by
      rw [Spec.cut, if_pos hshort]
    have hwide : ¬ spec.minWidth.sle spec.maxWidth := by
      intro hnarrow
      rw [Spec.padding, hcut, if_pos hnarrow] at hpadding
      exact hpadding rfl
    rw [Spec.padding, hcut, if_neg hwide] at hsum hpositive
    refine ⟨hshort, by omega, ?_⟩
    have hwidth : spec.maxWidth + (spec.minWidth - spec.maxWidth) = spec.minWidth := by
      rw [BitVec.add_comm, BitVec.sub_add_cancel]
    have hnat := congrArg BitVec.toNat hwidth
    rw [BitVec.toNat_add, hsum, Nat.mod_eq_of_lt hless] at hnat
    exact BitVec.eq_of_toNat_eq (hnat.symm.trans hlength.symm)
  · rintro ⟨hshort, hcutoff, hwidth⟩
    have hcut : spec.cut text = spec.maxWidth := by
      rw [Spec.cut, if_pos hshort]
    have hwide : ¬ spec.minWidth.sle spec.maxWidth := by
      rw [hwidth, BitVec.sle_iff_toInt_le, not_le]
      exact BitVec.slt_iff_toInt_lt.1 hshort
    have hminus : (spec.minWidth - spec.maxWidth).toNat =
        text.length - spec.maxWidth.toNat := by
      rw [hwidth, BitVec.toNat_sub_of_le, hlength]
      rw [BitVec.le_def, hlength]
      exact hcutoff.le
    rw [Spec.padding, hcut, if_neg hwide]
    refine ⟨by omega, fun hzero => ?_⟩
    rw [hzero] at hminus
    have hnone : (0 : BitVec 32).toNat = 0 := rfl
    omega

/-- The text of a directive stays as it is if it fits. -/
theorem render_eq_self_iff (spec : Spec) {text : List Char}
    (hless : text.length < 2 ^ 32) (hhead : text.head? ≠ some spec.padChar)
    (hcut : (spec.cut text).toNat ≤ text.length) :
    spec.render text = text ↔ FitsItself spec text := by
  rw [FitsItself, ← whole_iff spec hless]
  constructor
  · intro heq
    have hsum := congrArg List.length heq
    rw [length_render, Nat.min_eq_left hcut, Nat.add_comm] at hsum
    by_cases hpadding : spec.padding text = 0
    · rw [hpadding] at hsum
      exact .inl ⟨hsum, hpadding⟩
    · obtain ⟨hshort, hcutoff, hwidth⟩ := (refilled_iff spec hless).1 ⟨hsum, hpadding⟩
      have hmax : spec.cut text = spec.maxWidth := by
        rw [Spec.cut, if_pos hshort]
      have hpositive : (spec.padding text).toNat ≠ 0 := fun hzero =>
        hpadding (BitVec.eq_of_toNat_eq hzero)
      unfold Spec.render at heq
      dsimp only at heq
      split at heq
      · next hleft =>
        refine .inr ⟨hleft, hshort, hcutoff, hwidth, ?_⟩
        have hdrop := congrArg (List.drop (spec.cut text).toNat) heq
        rw [List.drop_append_of_le_length (by rw [List.length_take]; omega),
          List.drop_take_self, List.nil_append] at hdrop
        rw [← hmax, ← hdrop]
        congr 1
        omega
      · obtain ⟨pads, hpads⟩ := Nat.exists_eq_succ_of_ne_zero hpositive
        rw [hpads, List.replicate_succ] at heq
        exact absurd (congrArg List.head? heq.symm) hhead
  · rintro (⟨hwhole, hpadding⟩ | ⟨hleft, hshort, hcutoff, hwidth, hdrop⟩)
    · have hzero : (spec.padding text).toNat = 0 := by rw [hpadding]; rfl
      simp only [Spec.render, hwhole, hzero, List.take_length, List.replicate_zero,
        List.append_nil, List.nil_append, ite_self]
    · obtain ⟨hsum, -⟩ := (refilled_iff spec hless).2 ⟨hshort, hcutoff, hwidth⟩
      have hmax : spec.cut text = spec.maxWidth := by
        rw [Spec.cut, if_pos hshort]
      have hpads : (spec.padding text).toNat = text.length - spec.maxWidth.toNat := by
        rw [← hmax]
        omega
      unfold Spec.render
      dsimp only
      rw [if_pos hleft, hpads, ← hdrop, hmax, List.take_append_drop]

theorem converted_of_none (hnone : (parse f).1.conversion = none)
    (hend : (parse f).1.c = nul → (parse f).1.longs = 0) :
    converted memory list f = .whole (own f) (behind f) list := by
  have hc : (parse f).1.c = (parse f).2.headD nul := rfl
  obtain ⟨front, hfront⟩ := parse_suffix f
  have hlength : ('%' :: f).length - (parse f).2.length = front.length + 1 := by
    have happend := congrArg List.length hfront
    rw [List.length_append] at happend
    rw [List.length_cons]
    omega
  have hown : f.length - (parse f).2.length = front.length := by
    rw [List.length_cons] at hlength
    have hle := (parse_suffix f).length_le
    omega
  unfold Spec.conversion at hnone
  unfold converted convert
  rw [hc] at hnone hend
  split_ifs at hnone with hchar hdecimal hoctal hstring hhex
  simp only [if_neg hchar, if_neg hdecimal, if_neg hoctal, if_neg hstring, if_neg hhex]
  by_cases hnul : (parse f).2.headD nul = nul
  · rw [if_pos ⟨hnul, hend hnul⟩, behind_eq, if_pos (hc.trans hnul), own, ownLength,
      if_pos (hc.trans hnul), hlength, hown, List.take_succ_cons, Nat.add_zero]
  · have hnext := parse_of_ne_nul (hc.trans_ne hnul)
    have hroom : front.length + 1 ≤ f.length := by
      have happend := congrArg List.length hfront
      rw [List.length_append, hnext, List.length_cons] at happend
      omega
    rw [if_neg (fun hboth => hnul hboth.1), behind_eq, if_neg (hc.trans_ne hnul), own,
      ownLength, if_neg (hc.trans_ne hnul), hlength, hown, List.cons_append,
      List.take_succ_cons, List.take_append_of_le_length hroom]

theorem length_own (f : List Char) : (own f).length ≤ f.length + 1 := by
  rw [own, List.length_cons, List.length_take]
  omega

theorem head_own_ne (f : List Char) : (own f).head? ≠ some (parse f).1.padChar := by
  have hpad : (parse f).1.padChar = '0' ∨ (parse f).1.padChar = ' ' := by
    dsimp only [parse]
    split
    · exact .inl rfl
    · exact .inr rfl
  rw [own, List.head?_cons, ne_eq, Option.some.injEq]
  obtain hzero | hblank := hpad
  · rw [hzero]
    decide
  · rw [hblank]
    decide

/-- A directive that fits itself does not read on behind its text. -/
theorem FitsItself.cut_le {spec : Spec} {text : List Char}
    (hless : text.length < 2 ^ 32) (hfits : FitsItself spec text) :
    (spec.cut text).toNat ≤ text.length := by
  rcases hfits with hwhole | ⟨-, hshort, hcutoff, -⟩
  · exact ((whole_iff spec hless).2 hwhole).1.le
  · rw [Spec.cut, if_pos hshort]
    exact hcutoff.le

/-! ### The end of the format -/

theorem nul_mem_readNumber (value : BitVec 32) {f : List Char} (hnul : nul ∈ f) :
    nul ∈ (readNumber value f).2 := by
  induction f generalizing value with
  | nil => exact hnul
  | cons c f ih =>
      rw [readNumber]
      split
      · next hdigit =>
        have hne : nul ≠ c := by
          rintro rfl
          exact absurd hdigit (by decide)
        exact ih _ (List.mem_of_ne_of_mem hne hnul)
      · exact hnul

theorem nul_mem_tail {f : List Char} (hhead : f.headD nul ≠ nul) (hnul : nul ∈ f) :
    nul ∈ f.tail := by
  cases f with
  | nil => exact absurd rfl hhead
  | cons c f => exact List.mem_of_ne_of_mem (Ne.symm hhead) hnul

theorem nul_mem_readJustify {f : List Char} (hnul : nul ∈ f) :
    nul ∈ (readJustify f).2 := by
  rw [readJustify]
  split
  · next hhead => exact nul_mem_tail (by rw [hhead]; decide) hnul
  · exact hnul

theorem nul_mem_readMaxWidth {f : List Char} (hnul : nul ∈ f) :
    nul ∈ (readMaxWidth f).2 := by
  rw [readMaxWidth]
  split
  · next hhead =>
    exact nul_mem_readNumber 0 (nul_mem_tail (by rw [hhead]; decide) hnul)
  · exact hnul

theorem nul_mem_readLongs {f : List Char} (hnul : nul ∈ f) : nul ∈ (readLongs f).2 := by
  have hl : nul ≠ 'l' := by decide
  unfold readLongs
  split
  · exact List.mem_of_ne_of_mem hl (List.mem_of_ne_of_mem hl hnul)
  · exact List.mem_of_ne_of_mem hl hnul
  · exact hnul

theorem nul_mem_parse (hnul : nul ∈ f) : nul ∈ (parse f).2 :=
  nul_mem_readLongs (nul_mem_readMaxWidth (nul_mem_readNumber 0
    (nul_mem_readJustify hnul)))

/-- A directive does not run past the end of the format. -/
theorem nul_mem_behind (hnul : nul ∈ f) : nul ∈ behind f := by
  rw [behind_eq]
  split
  · exact nul_mem_parse hnul
  · next hc => exact nul_mem_tail hc (nul_mem_parse hnul)

/-- An unrecognised directive is copied exactly if it fits itself, and no `l` stands
before the end of the format. -/
theorem turnRight_of_none (hnone : (parse f).1.conversion = none) (hnul : nul ∈ f)
    (hless : f.length < 2 ^ 32 - 1) :
    TurnRight memory list f ↔
      ((parse f).1.c = nul → (parse f).1.longs = 0) ∧ FitsItself (parse f).1 (own f) := by
  have hshort : (own f).length < 2 ^ 32 := (length_own f).trans_lt (by omega)
  have hrendering : rendering memory list f = own f := by
    unfold rendering
    rw [hnone]
  have hlist : listBehind list f = list := by
    unfold listBehind
    rw [hnone]
  by_cases hend : (parse f).1.c = nul → (parse f).1.longs = 0
  · have hconverted := @converted_of_none memory list f hnone hend
    have htext : (converted memory list f).text = own f := by rw [hconverted]; rfl
    have hshown := @shown_eq_render_iff memory list f
    have hsame := render_eq_self_iff (parse f).1 hshort (head_own_ne f)
    rw [htext] at hshown
    constructor
    · intro hright
      refine ⟨hend, ?_⟩
      have hprinted := hright.shown
      rw [hrendering] at hprinted
      have hcut : ((parse f).1.cut (own f)).toNat ≤ (own f).length := by
        have hlength := congrArg List.length hprinted
        rw [directive_eq, htext, length_shown] at hlength
        dsimp only at hlength
        omega
      exact (hsame hcut).1 ((hshown.2 hcut).symm.trans hprinted)
    · rintro ⟨-, hfits⟩
      have hcut := hfits.cut_le hshort
      refine ⟨?_, ?_, ?_, ?_⟩
      · rw [hrendering, hshown.2 hcut, (hsame hcut).2 hfits]
      · intro conversion hsome
        rw [hnone] at hsome
        cases hsome
      · rw [directive_eq, hconverted]
        rfl
      · rw [directive_eq, hconverted, hlist]
        rfl
  · refine iff_of_false (fun hright => ?_) (fun hboth => hend hboth.1)
    obtain ⟨hc, hlongs⟩ := Classical.not_imp.1 hend
    have hhead : (parse f).2.headD nul = nul := hc
    have hnext := hright.next
    have hstep : (directive memory list ('%' :: f)).f = (parse f).2.tail := by
      rw [directive_eq]
      dsimp only [converted, convert]
      rw [hhead]
      simp [hlongs, nul, Converted.whole]
    rw [hstep, behind_eq, if_pos hc] at hnext
    have hlength := congrArg List.length hnext
    have hpos := List.length_pos_of_mem (nul_mem_parse hnul)
    rw [List.length_tail] at hlength
    omega

/-- One turn of the loop. -/
theorem turnRight_iff (hnul : nul ∈ f) (hless : f.length < 2 ^ 32 - 1) :
    TurnRight memory list f ↔ Meets memory list f := by
  unfold Meets
  split
  · next conversion hconversion => exact turnRight_of_some hconversion
  · next hnone => exact turnRight_of_none hnone hnul hless

end Turns

/-! ## The whole format -/

/-- A format in the memory of a program, which may go on behind its end. -/
structure Format where
  memory : List Char
  terminated : nul ∈ memory
  fits : memory.length < 2 ^ 32

theorem nul_mem_dropWhile {fmt : List Char} (hnul : nul ∈ fmt) :
    nul ∈ fmt.dropWhile isLiteral := by
  rw [← List.takeWhile_append_dropWhile (p := isLiteral) (l := fmt),
    List.mem_append] at hnul
  obtain hfront | hrest := hnul
  · exact absurd (List.mem_takeWhile_imp hfront) (by decide)
  · exact hrest

/-- The directives of a format lie before its end. -/
theorem mem_pieces {list : ℕ} {fmt : List Char} (hnul : nul ∈ fmt)
    (hless : fmt.length < 2 ^ 32) {place : ℕ} {f : List Char}
    (hpiece : .directive place f ∈ pieces list fmt) :
    nul ∈ f ∧ f.length < 2 ^ 32 - 1 := by
  induction list, fmt using pieces.induct with
  | case1 list fmt rest hdirective hshorter ih =>
      have hrest : rest.length ≤ fmt.length := length_dropWhile_isLiteral fmt
      have htail : rest.tail.length < rest.length := length_tail_lt hdirective
      have hmem : nul ∈ rest.tail := by
        have hhead : rest.headD nul ≠ nul := by
          rw [List.headD_eq_head?_getD, hdirective]
          decide
        exact nul_mem_tail hhead (nul_mem_dropWhile hnul)
      have hroom : rest.tail.length < 2 ^ 32 - 1 := by omega
      rw [pieces, dif_pos hdirective] at hpiece
      simp only [List.mem_cons, Piece.directive.injEq, reduceCtorEq, false_or] at hpiece
      obtain ⟨-, rfl⟩ | hlater := hpiece
      · exact ⟨hmem, hroom⟩
      · have hbehind := length_behind_le rest.tail
        exact ih (nul_mem_behind hmem) (by omega) hlater
  | case2 list fmt rest hdirective =>
      rw [pieces, dif_neg hdirective] at hpiece
      simp at hpiece

/-- The text is the concatenation of the pieces where each turn does what its directive
says. -/
theorem formatted_of_turns {memory : Arguments} {list : ℕ} {fmt : List Char}
    (hturns : ∀ place f, .directive place f ∈ pieces list fmt →
      TurnRight memory place f) :
    formatted memory list fmt = (pieces list fmt).flatMap (Piece.shown memory) := by
  induction list, fmt using pieces.induct with
  | case1 list fmt rest hdirective hshorter ih =>
      rw [pieces, dif_pos hdirective] at hturns ⊢
      have hrest : rest = '%' :: rest.tail := by
        cases hcons : rest with
        | nil => simp [hcons] at hdirective
        | cons c f =>
            rw [hcons, List.head?_cons, Option.some.injEq] at hdirective
            rw [hdirective, List.tail_cons]
      have hright := hturns list rest.tail
        (List.mem_cons_of_mem _ List.mem_cons_self)
      have hlater := ih fun place f hmem => hturns place f
        (List.mem_cons_of_mem _ (List.mem_cons_of_mem _ hmem))
      obtain ⟨hshown, -, hnext, hlist⟩ := hright
      rw [← hrest] at hshown hnext hlist
      rw [formatted, dif_pos hdirective]
      change fmt.takeWhile isLiteral ++ ((directive memory list rest).shown memory ++
        formatted memory (directive memory list rest).list
          (directive memory list rest).f) = _
      rw [hshown, hnext, hlist, hlater, List.flatMap_cons, List.flatMap_cons]
      rfl
  | case2 list fmt rest hdirective =>
      rw [pieces, dif_neg hdirective, formatted, dif_neg hdirective]
      simp [Piece.shown]

/-- The output of a format is the concatenation of its pieces, directive by directive,
exactly if every directive of it meets the condition. -/
theorem ibcsVfmt_composed_iff (memory : Arguments) (fmt : Format) :
    Composed memory fmt.memory ↔
      ∀ list f, .directive list f ∈ pieces 0 fmt.memory → Meets memory list f := by
  have hturn (list : ℕ) (f : List Char) (hpiece : .directive list f ∈ pieces 0 fmt.memory) :
      TurnRight memory list f ↔ Meets memory list f := by
    obtain ⟨hnul, hless⟩ := mem_pieces fmt.terminated fmt.fits hpiece
    exact turnRight_iff hnul hless
  constructor
  · intro hcomposed list f hpiece
    exact (hturn list f hpiece).1 (hcomposed.turns list f hpiece)
  · intro hmeets
    have hturns : ∀ list f, .directive list f ∈ pieces 0 fmt.memory →
        TurnRight memory list f := fun list f hpiece =>
      (hturn list f hpiece).2 (hmeets list f hpiece)
    refine ⟨hturns, fun size hsize => ?_⟩
    rw [ibcsVfmt_buffer hsize, formatted_of_turns hturns, composition]

/-- `%c` prints its character, and then its own letter. -/
theorem char_is_not_composed :
    ¬ Composed ⟨fun _ => 65, fun _ => [], fun _ => nul⟩ ['%', 'c', nul] := by
  intro hcomposed
  have hpiece : .directive 0 ['c', nul] ∈ pieces 0 ['%', 'c', nul] := by
    rw [pieces]
    simp [isLiteral]
  have hnext := (hcomposed.turns 0 ['c', nul] hpiece).next
  exact absurd hnext (by decide)

end IbcsUs.Output
