import IbcsUs.Output.Format

/-!
# What fits into the buffer

`ibcs_vfmt` with a buffer writes as much of the text as there is room for, with the
terminator behind it.  With no buffer it measures the text, up to what an `int` can
hold; a buffer that is larger than that may get more than has been measured.
-/

namespace IbcsUs.Output

/-- The length that the pass without a buffer measures, without the terminator. -/
def measuredLength (memory : Arguments) (fmt : List Char) : ℕ :=
  (ibcsVfmt memory false 0 fmt).result - 1

/-- The buffer gets what has been measured of the text, cut off at its size, and a
terminator; nothing is written behind the buffer. -/
structure Truncates (memory : Arguments) (fmt : List Char) (size : ℕ) : Prop where
  out : (ibcsVfmt memory true size fmt).out =
    some ((formatted memory 0 fmt).take (min (measuredLength memory fmt) (size - 1))
      ++ [nul])
  written : ∀ out, (ibcsVfmt memory true size fmt).out = some out →
    out.length = min (measuredLength memory fmt) (size - 1) + 1 ∧
      out.length ≤ size
  result : (ibcsVfmt memory true size fmt).result =
    min (measuredLength memory fmt) (size - 1) + 1

section Truncation

variable {memory : Arguments} {fmt : List Char} {size : ℕ}

theorem measuredLength_eq (memory : Arguments) (fmt : List Char) :
    measuredLength memory fmt =
      min (formatted memory 0 fmt).length (measureLimit - 1) := by
  rw [measuredLength, ibcsVfmt_null, Nat.add_sub_cancel]

/-- What is measured is the whole text where the text or the buffer is no longer than
an `int` can hold. -/
theorem min_measuredLength
    (hint : size < 2 ^ 31 ∨ (formatted memory 0 fmt).length < 2 ^ 31 - 1) :
    min (measuredLength memory fmt) (size - 1) =
      min (formatted memory 0 fmt).length (size - 1) := by
  rw [measuredLength_eq]
  rw [measureLimit]
  omega

end Truncation

/-- The law of truncation, where the text or the buffer is no longer than an `int` can
hold. -/
theorem ibcsVfmt_truncates (memory : Arguments) (fmt : List Char) {size : ℕ}
    (hsize : 2 ≤ size)
    (hint : size < 2 ^ 31 ∨ (formatted memory 0 fmt).length < 2 ^ 31 - 1) :
    Truncates memory fmt size := by
  have hmeasured := min_measuredLength hint
  have hbuffer := ibcsVfmt_buffer hsize memory fmt
  have hout : (ibcsVfmt memory true size fmt).out =
      some ((formatted memory 0 fmt).take
        (min (measuredLength memory fmt) (size - 1)) ++ [nul]) := by
    have htake : (formatted memory 0 fmt).take (size - 1) =
        (formatted memory 0 fmt).take
          (min (formatted memory 0 fmt).length (size - 1)) := by
      rw [List.take_eq_take_iff]
      omega
    rw [hbuffer, hmeasured, ← htake]
  constructor
  · exact hout
  · intro out hsome
    rw [hout, Option.some.injEq] at hsome
    rw [← hsome, List.length_append, List.length_take, List.length_singleton,
      hmeasured]
    omega
  · rw [hbuffer, hmeasured]

/-- A number with its width cut off in a small buffer. -/
theorem ibcsVfmt_truncates_width :
    Truncates ⟨fun _ => 7, fun _ => [], fun _ => nul⟩ "%5d".toList 4 :=
  ibcsVfmt_truncates _ _ (by decide) (.inl (by decide))

/-- The text of a turn of the loop. -/
def Directive.shown (memory : Arguments) (step : Directive) : List Char :=
  if step.leftJustify then step.chunk memory ++ step.pads
  else step.pads ++ step.chunk memory

theorem length_chunk (memory : Arguments) (step : Directive) :
    (step.chunk memory).length = step.size.toNat := by
  rw [Directive.chunk]
  split
  · next hle => rw [List.length_take, Nat.min_eq_left hle]
  · next hgt =>
    rw [List.length_append, List.length_map, List.length_range]
    omega

theorem length_shown (memory : Arguments) (step : Directive) :
    (step.shown memory).length = step.padding.toNat + step.size.toNat := by
  have hpads : step.pads.length = step.padding.toNat := List.length_replicate
  rw [Directive.shown]
  split <;> rw [List.length_append, length_chunk, hpads]
  exact Nat.add_comm _ _

/-- A format that begins with a directive. -/
theorem formatted_percent (memory : Arguments) (list : ℕ) (fmt : List Char) :
    formatted memory list ('%' :: fmt) =
      (directive memory list ('%' :: fmt)).shown memory ++
        formatted memory (directive memory list ('%' :: fmt)).list
          (directive memory list ('%' :: fmt)).f := by
  rw [formatted]
  simp [isLiteral, Directive.shown]

/-- Memory full of zeros. -/
def zeros : Arguments := ⟨fun _ => 0, fun _ => [], fun _ => nul⟩

/-- The widest number there is. -/
def widest : List Char := "%2147483647d".toList

theorem length_widest : (formatted zeros 0 widest).length = 2 ^ 31 - 1 := by
  have hstep : directive zeros 0 widest =
      ⟨false, ' ', 2147483646#32, ['0'], 1#32, [], 1⟩ := rfl
  have hrest : formatted zeros 1 [] = [] := formatted_of_end rfl
  have hshown : formatted zeros 0 widest =
      (directive zeros 0 widest).shown zeros ++
        formatted zeros (directive zeros 0 widest).list
          (directive zeros 0 widest).f :=
    formatted_percent zeros 0 _
  rw [hshown, hstep, hrest, List.append_nil, length_shown]
  rfl

/-- With room for more than an `int` can hold, more is written than has been
measured. -/
theorem widest_is_not_measured : ¬ Truncates zeros widest (2 ^ 31 + 1) := by
  intro htruncates
  have hresult := htruncates.result
  rw [ibcsVfmt_buffer (by decide), measuredLength_eq, length_widest] at hresult
  simp [measureLimit] at hresult

end IbcsUs.Output
