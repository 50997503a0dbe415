import Mathlib.Data.BitVec
import Mathlib.Data.Nat.Cast.Order.Ring
import Mathlib.Order.Nat

/-!
# Formatted output

`ibcs_vwritef` formats twice: a first pass with no buffer measures the text, a
second one fills a buffer of that size, and one `write` sends it.  `ibcs_vfmt`
takes a size of 0 or 1 to mean that there is no room, so that the second pass
disagrees with the first about a text that is empty.
-/

namespace IbcsUs.Output

/-- What the formatter reads besides the format: the words of the argument list,
the strings their pointers lead to, and what memory holds behind a text that is
read too far. -/
structure Arguments where
  words : ℕ → BitVec 32
  strings : BitVec 32 → List Char
  beyond : ℕ → Char

/-- The end of a string. -/
def nul : Char := '\x00'

/-- The output of `ibcs_vfmt`: what has been written so far (nothing is for a
null pointer) and the room that is left. -/
structure Out where
  out : Option (List Char)
  size : ℕ
  deriving DecidableEq

/-- `mempcpy` of a text, or `memset`, cut off at the room that is left. -/
def Out.put (state : Out) (text : List Char) : Out where
  out := state.out.map (· ++ text.take (min text.length state.size))
  size := state.size - min text.length state.size

/-- The value of a format character. -/
def digitValue (digit : Char) : BitVec 32 := BitVec.ofNat 32 digit.toNat - 48

def isDigit (c : Char) : Bool := '0' ≤ c && c ≤ '9'

/-- The loops that read a width, in the wrapping arithmetic of an `int`. -/
def readNumber (value : BitVec 32) : List Char → BitVec 32 × List Char
  | [] => (value, [])
  | c :: f =>
      if isDigit c then readNumber (value * 10 + digitValue c) f
      else (value, c :: f)

/-- The left justify flag. -/
def readJustify (f : List Char) : Bool × List Char :=
  if f.headD nul = '-' then (true, f.tail) else (false, f)

/-- The maximal width. -/
def readMaxWidth (f : List Char) : BitVec 32 × List Char :=
  if f.headD nul = '.' then readNumber 0 f.tail else (999999999, f)

/-- The loop over the `l`s: how many there are, two at most. -/
def readLongs : List Char → ℕ × List Char
  | 'l' :: 'l' :: f => (2, f)
  | 'l' :: f => (1, f)
  | f => (0, f)

/-- `va_arg(list, unsigned long long)` takes two words, the low one first. -/
def longWord (memory : Arguments) (list : ℕ) : ℕ :=
  (memory.words list).toNat + 2 ^ 32 * (memory.words (list + 1)).toNat

/-- The argument of `%o` and `%x`, and where the list goes on. -/
def unsignedArg (memory : Arguments) (list longs : ℕ) : ℕ × ℕ :=
  if longs ≤ 1 then ((memory.words list).toNat, list + 1)
  else (longWord memory list, list + 2)

/-- The digits `%d` and `%u` print. -/
def decimal (signed : Bool) (n : BitVec 32) : List Char :=
  if signed && n.slt 0 then '-' :: Nat.toDigits 10 (-n).toNat
  else Nat.toDigits 10 n.toNat

/-- What a conversion prints (`b` and `formatted_size`), and where the format
and the argument list go on. -/
structure Converted where
  text : List Char
  size : BitVec 32
  f : List Char
  list : ℕ

/-- A conversion that prints exactly its text. -/
def Converted.whole (text f : List Char) (list : ℕ) : Converted :=
  ⟨text, BitVec.ofNat 32 text.length, f, list⟩

/-- The `switch` over the format character. -/
def convert (memory : Arguments) (list longs : ℕ) (fStart f : List Char) :
    Converted :=
  let c := f.headD nul
  if c = 'c' ∧ longs = 0 then
    -- `f` stays at the `c`, which the next turn prints
    .whole [Char.ofNat ((memory.words list).toNat % 256)] f (list + 1)
  else if (c = 'd' ∨ c = 'u') ∧ longs ≤ 1 then
    .whole (decimal (c = 'd') (memory.words list)) f.tail (list + 1)
  else if c = 'o' then
    let (n, list) := unsignedArg memory list longs
    .whole (Nat.toDigits 8 n) f.tail list
  else if c = 's' ∧ longs = 0 then
    .whole (memory.strings (memory.words list)) f.tail (list + 1)
  else if c = 'x' ∨ c = 'X' ∨ c = 'p' ∧ longs = 0 then
    let (n, list) := unsignedArg memory list longs
    let digits := Nat.toDigits 16 n
    .whole (if c = 'x' then digits else digits.map Char.toUpper) f.tail list
  else if c = nul ∧ longs = 0 then
    .whole (fStart.take (fStart.length - f.length)) f list
  else
    .whole ((fStart ++ [nul]).take (fStart.length - f.length + 1)) f.tail list

/-- What a directive prints: the text at `b` with its padding, and where the
loop goes on. -/
structure Directive where
  leftJustify : Bool
  padChar : Char
  padding : BitVec 32
  text : List Char
  size : BitVec 32
  f : List Char
  list : ℕ

/-- A turn of the loop from the `%` at `fStart` to the formatted text. -/
def directive (memory : Arguments) (list : ℕ) (fStart : List Char) : Directive :=
  let (leftJustify, f) := readJustify fStart.tail
  let padChar := if f.headD nul = '0' then '0' else ' '
  let (minWidth, f) := readNumber 0 f
  let (maxWidth, f) := readMaxWidth f
  let (longs, f) := readLongs f
  let converted := convert memory list longs fStart f
  let size :=
    if maxWidth.slt converted.size then maxWidth else converted.size
  let padding := if minWidth.sle size then 0 else minWidth - size
  ⟨leftJustify, padChar, padding, converted.text, size, converted.f,
    converted.list⟩

/-- The bytes at `b`, as many as `formatted_size` says: a size that wrapped
reads on behind the text. -/
def Directive.chunk (memory : Arguments) (step : Directive) : List Char :=
  if step.size.toNat ≤ step.text.length then step.text.take step.size.toNat
  else step.text ++
    (List.range (step.size.toNat - step.text.length)).map memory.beyond

/-- The padding, as many times as the unsigned comparisons of the code read it.
-/
def Directive.pads (step : Directive) : List Char :=
  List.replicate step.padding.toNat step.padChar

/-- Copy the formatted result to the output, padding as appropriate. -/
def Directive.print (memory : Arguments) (step : Directive) (state : Out) : Out :=
  if step.leftJustify then (state.put (step.chunk memory)).put step.pads
  else (state.put step.pads).put (step.chunk memory)

/-- Neither a `%` nor the end of the format. -/
def isLiteral (c : Char) : Bool := c ≠ '%' && c ≠ nul

theorem readNumber_suffix (value : BitVec 32) (f : List Char) :
    (readNumber value f).2 <:+ f := by
  induction f generalizing value with
  | nil => exact List.suffix_rfl
  | cons c f ih =>
      rw [readNumber]
      split
      · exact (ih _).trans (List.suffix_cons _ _)
      · exact List.suffix_rfl

theorem readJustify_suffix (f : List Char) : (readJustify f).2 <:+ f := by
  rw [readJustify]
  split
  · exact List.tail_suffix f
  · exact List.suffix_rfl

theorem readMaxWidth_suffix (f : List Char) : (readMaxWidth f).2 <:+ f := by
  rw [readMaxWidth]
  split
  · exact (readNumber_suffix _ _).trans (List.tail_suffix f)
  · exact List.suffix_rfl

theorem readLongs_suffix (f : List Char) : (readLongs f).2 <:+ f := by
  unfold readLongs
  split
  · exact (List.suffix_cons _ _).trans (List.suffix_cons _ _)
  · exact List.suffix_cons _ _
  · exact List.suffix_rfl

theorem length_convert (memory : Arguments) (list longs : ℕ)
    (fStart f : List Char) :
    (convert memory list longs fStart f).f.length ≤ f.length := by
  simp only [convert]
  split_ifs <;> simp [Converted.whole]

theorem length_directive (memory : Arguments) (list : ℕ) (fStart : List Char) :
    (directive memory list fStart).f.length ≤ fStart.tail.length := by
  simp only [directive]
  refine (length_convert _ _ _ _ _).trans ?_
  exact ((readLongs_suffix _).trans ((readMaxWidth_suffix _).trans
    ((readNumber_suffix _ _).trans (readJustify_suffix _)))).length_le

theorem length_dropWhile_isLiteral (fmt : List Char) :
    (fmt.dropWhile isLiteral).length ≤ fmt.length :=
  (List.dropWhile_sublist _).length_le

theorem length_tail_lt {f : List Char} (hdirective : f.head? = some '%') :
    f.tail.length < f.length := by
  cases f with
  | nil => simp at hdirective
  | cons c f => simp

/-- The loop of `ibcs_vfmt`.  The format is the memory it lies in, so that a
`nul` can be stepped over; where the memory ends the format ends. -/
def vfmtLoop (memory : Arguments) (list : ℕ) (fmt : List Char) (state : Out) :
    Out :=
  if state.size = 0 ∨ fmt.headD nul = nul then state
  else
    let f := fmt.dropWhile isLiteral
    let state := state.put (fmt.takeWhile isLiteral)
    -- `continue` only comes here with no room or at the end, so it ends the loop
    if hdirective : state.size ≠ 0 ∧ f.head? = some '%' then
      let step := directive memory list f
      have : (directive memory list (fmt.dropWhile isLiteral)).f.length <
          fmt.length :=
        (length_directive _ _ _).trans_lt
          ((length_tail_lt hdirective.2).trans_le
            (length_dropWhile_isLiteral fmt))
      vfmtLoop memory step.list step.f (step.print memory state)
    else state
termination_by fmt.length

/-- The outcome of `ibcs_vfmt`: the buffer, with its end, and the answer. -/
structure Formatted where
  out : Option (List Char)
  result : ℕ
  deriving DecidableEq

/-- `ibcs_vfmt`, into a buffer or for a null pointer. -/
def ibcsVfmt (memory : Arguments) (buffer : Bool) (size : ℕ)
    (fmt : List Char) : Formatted :=
  let size := if !buffer && size = 0 then (2 ^ 32 - 1) / 2 else size
  if size ≤ 1 then ⟨if buffer then some [] else none, 0⟩
  else
    let state := vfmtLoop memory 0 fmt
      ⟨if buffer then some [] else none, size - 1⟩
    ⟨state.out.map (· ++ [nul]), size - state.size⟩

/-- A `write` the kernel is asked for. -/
structure WriteCall where
  fd : ℤ
  buffer : List Char
  count : ℤ
  deriving DecidableEq

/-- What `ibcs_vwritef` does: the answers of its two passes and its writes. -/
structure Writef where
  measured : ℕ
  filled : ℕ
  writes : List WriteCall
  deriving DecidableEq

/-- `ibcs_vwritef`.  The argument list is a pointer passed by value, so that
both passes read it from the start. -/
def ibcsVwritef (memory : Arguments) (fd : ℤ) (fmt : List Char) : Writef :=
  let n := (ibcsVfmt memory false 0 fmt).result
  let filled := ibcsVfmt memory true n fmt
  ⟨n, filled.result, [⟨fd, filled.out.getD [], filled.result - 1⟩]⟩

/-! ## The text a format stands for -/

/-- The text that a format and its arguments stand for, with no limit on its
size. -/
def formatted (memory : Arguments) (list : ℕ) (fmt : List Char) : List Char :=
  let f := fmt.dropWhile isLiteral
  if hdirective : f.head? = some '%' then
    let step := directive memory list f
    have : (directive memory list (fmt.dropWhile isLiteral)).f.length <
        fmt.length :=
      (length_directive _ _ _).trans_lt
        ((length_tail_lt hdirective).trans_le (length_dropWhile_isLiteral fmt))
    fmt.takeWhile isLiteral ++
      ((if step.leftJustify then step.chunk memory ++ step.pads
        else step.pads ++ step.chunk memory) ++
      formatted memory step.list step.f)
  else fmt.takeWhile isLiteral
termination_by fmt.length

/-- The output is the whole text: both passes agree, and the only write sends
the text from the start of the buffer. -/
def WritesFormatted (memory : Arguments) (fd : ℤ) (fmt : List Char)
    (outcome : Writef) : Prop :=
  outcome.measured = outcome.filled ∧
    ∃ call, outcome.writes = [call] ∧ call.fd = fd ∧
      call.count = (formatted memory 0 fmt).length ∧
      (formatted memory 0 fmt) <+: call.buffer

/-! ## One pass -/

variable {memory : Arguments} {list : ℕ} {fmt : List Char} {state : Out}

theorem put_eq (state : Out) (text : List Char) :
    state.put text =
      ⟨state.out.map (· ++ text.take state.size), state.size - text.length⟩ := by
  have htake : text.take (min text.length state.size) =
      text.take state.size := by
    rw [List.take_eq_take_iff]
    omega
  simp only [Out.put, htake, Out.mk.injEq, true_and]
  omega

theorem put_put (state : Out) (first second : List Char) :
    (state.put first).put second = state.put (first ++ second) := by
  simp only [put_eq, Option.map_map, Function.comp_def, List.take_append,
    List.append_assoc, List.length_append, Nat.sub_sub]

theorem put_nil (state : Out) : state.put [] = state := by
  simp [put_eq]

theorem put_of_full (hfull : state.size = 0) (text : List Char) :
    state.put text = state := by
  cases state with
  | mk out size =>
      subst hfull
      simp [put_eq]

theorem print_eq (step : Directive) (state : Out) :
    step.print memory state =
      state.put (if step.leftJustify then step.chunk memory ++ step.pads
        else step.pads ++ step.chunk memory) := by
  rw [Directive.print]
  split <;> rw [put_put]

theorem formatted_of_end (hend : fmt.headD nul = nul) :
    formatted memory list fmt = [] := by
  cases fmt with
  | nil => simp [formatted]
  | cons c fmt =>
      obtain rfl : c = nul := hend
      rw [formatted]
      simp [isLiteral, nul]

/-- Whatever the room, the loop writes the text the format stands for, cut off
at the room. -/
theorem vfmtLoop_eq (memory : Arguments) (list : ℕ) (fmt : List Char)
    (state : Out) :
    vfmtLoop memory list fmt state =
      state.put (formatted memory list fmt) := by
  induction list, fmt, state using vfmtLoop.induct memory with
  | case1 list fmt state hstop =>
      rw [vfmtLoop, if_pos hstop]
      obtain hfull | hend := hstop
      · rw [put_of_full hfull]
      · rw [formatted_of_end hend, put_nil]
  | case2 list fmt state hstop f next hdirective step hless ih =>
      rw [vfmtLoop, if_neg hstop, dif_pos hdirective, formatted,
        dif_pos hdirective.2, ← put_put, ← put_put, ← print_eq]
      exact ih
  | case3 list fmt state hstop f next hdirective =>
      rw [vfmtLoop, if_neg hstop, dif_neg hdirective, formatted]
      split
      · next hhead =>
        have hfull : next.size = 0 := by
          by_contra hroom
          exact hdirective ⟨hroom, hhead⟩
        rw [← put_put, put_of_full hfull]
      · rfl

/-- The room of the measuring pass. -/
def measureLimit : ℕ := (2 ^ 32 - 1) / 2

theorem ibcsVfmt_null (memory : Arguments) (fmt : List Char) :
    (ibcsVfmt memory false 0 fmt).result =
      min (formatted memory 0 fmt).length (measureLimit - 1) + 1 := by
  simp only [ibcsVfmt, vfmtLoop_eq, put_eq]
  simp [measureLimit]
  omega

theorem ibcsVfmt_no_room (memory : Arguments) (fmt : List Char) :
    ibcsVfmt memory true 1 fmt = ⟨some [], 0⟩ := rfl

theorem ibcsVfmt_buffer {size : ℕ} (hsize : 1 < size) (memory : Arguments)
    (fmt : List Char) :
    ibcsVfmt memory true size fmt =
      ⟨some ((formatted memory 0 fmt).take (size - 1) ++ [nul]),
        min (formatted memory 0 fmt).length (size - 1) + 1⟩ := by
  simp only [ibcsVfmt, Bool.not_true, Bool.false_and, Bool.false_eq_true,
    if_false, if_true, if_neg (Nat.not_le.2 hsize), vfmtLoop_eq, put_eq,
    Option.map_some, List.nil_append, Formatted.mk.injEq, true_and]
  omega

/-- An empty text is measured as one byte, which is no room for the second pass:
the length of the write is -1. -/
theorem ibcsVwritef_empty (hempty : formatted memory 0 fmt = []) (fd : ℤ) :
    ibcsVwritef memory fd fmt = ⟨1, 0, [⟨fd, [], -1⟩]⟩ := by
  have hmeasured := ibcsVfmt_null memory fmt
  rw [hempty, List.length_nil, Nat.zero_min, Nat.zero_add] at hmeasured
  simp only [ibcsVwritef, hmeasured, ibcsVfmt_no_room]
  rfl

/-- Otherwise both passes stop at the same place. -/
theorem ibcsVwritef_nonempty (hnonempty : formatted memory 0 fmt ≠ [])
    (fd : ℤ) {sent : ℕ}
    (hsent : min (formatted memory 0 fmt).length (measureLimit - 1) = sent) :
    ibcsVwritef memory fd fmt =
      ⟨sent + 1, sent + 1,
        [⟨fd, (formatted memory 0 fmt).take sent ++ [nul], sent⟩]⟩ := by
  have hlength := List.length_pos_iff.2 hnonempty
  have hroom : 1 < sent + 1 := by
    simp only [measureLimit] at hsent
    omega
  have hagain : min (formatted memory 0 fmt).length sent = sent := by omega
  simp only [ibcsVwritef, ibcsVfmt_null, hsent, ibcsVfmt_buffer hroom,
    Nat.add_sub_cancel, Option.getD_some, hagain, Nat.cast_add, Nat.cast_one,
    add_sub_cancel_right]

/-- `ibcs_vwritef` writes the whole formatted text exactly when that text is not
empty and fits into the largest buffer there is. -/
theorem ibcsVwritef_right_iff (memory : Arguments) (fd : ℤ) (fmt : List Char) :
    WritesFormatted memory fd fmt (ibcsVwritef memory fd fmt) ↔
      formatted memory 0 fmt ≠ [] ∧
        (formatted memory 0 fmt).length < 2 ^ 31 - 1 := by
  by_cases hempty : formatted memory 0 fmt = []
  · rw [ibcsVwritef_empty hempty]
    exact iff_of_false (fun hwrites => Nat.one_ne_zero hwrites.1)
      (fun hmeets => hmeets.1 hempty)
  constructor
  · rw [ibcsVwritef_nonempty hempty fd rfl]
    rintro ⟨-, call, hcall, -, hcount, -⟩
    obtain rfl := List.singleton_inj.1 hcall
    simp only [measureLimit] at hcount
    exact ⟨hempty, by omega⟩
  · rintro ⟨-, hlength⟩
    have hall : min (formatted memory 0 fmt).length (measureLimit - 1) =
        (formatted memory 0 fmt).length := by
      simp only [measureLimit]
      omega
    rw [ibcsVwritef_nonempty hempty fd hall, List.take_length]
    exact ⟨rfl, _, rfl, rfl, rfl, List.prefix_append _ _⟩

/-- The empty format: the second pass has no room for the text that the first
one measured, and the length of the write is -1. -/
theorem empty_format_writes_nothing :
    (ibcsVwritef ⟨fun _ => 0, fun _ => [], fun _ => nul⟩ 2 []).writes =
        [⟨2, [], -1⟩] ∧
      ¬ WritesFormatted ⟨fun _ => 0, fun _ => [], fun _ => nul⟩ 2 []
        (ibcsVwritef ⟨fun _ => 0, fun _ => [], fun _ => nul⟩ 2 []) := by
  have hempty : formatted ⟨fun _ => 0, fun _ => [], fun _ => nul⟩ 0 [] = [] :=
    formatted_of_end rfl
  rw [ibcsVwritef_empty hempty]
  refine ⟨rfl, fun hwrites => ?_⟩
  exact Nat.one_ne_zero hwrites.1

end IbcsUs.Output
