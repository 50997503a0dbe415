import IbcsUs.Core.Paths
import IbcsUs.Core.Strings

/-!
# The lines of a map file

A line of a map file is blank, a comment, or a mapping

    prefixmap: FROM --> TO

with blanks in front of it, on both sides of the arrow and behind it.  The arrow is
the first one with a blank on both sides, so that a name may hold others.  A line
is taken apart by `splitLine`, and only as the format has it.
-/

namespace IbcsUs.Names

open IbcsUs.Paths IbcsUs.Strings

/-- `IS_BLANK`. -/
def isBlank (c : Char) : Bool := c = ' ' || c = '\t'

/-- What may stand behind the second name. -/
def isTrailing (c : Char) : Bool := c = '\r' || isBlank c

/-- The token a mapping begins with. -/
def token : Text := ['p', 'r', 'e', 'f', 'i', 'x', 'm', 'a', 'p', ':']

/-- The separator of the names. -/
def arrow : Text := ['-', '-', '>']

/-- An arrow with a blank on both sides. -/
def IsSeparator (body : Text) (index : ℕ) : Prop :=
  0 < index ∧ arrow <+: body.drop index ∧
    (∃ c ∈ body[index - 1]?, isBlank c = true) ∧
      ∃ c ∈ body[index + 3]?, isBlank c = true

instance decidableIsSeparator (body : Text) (index : ℕ) :
    Decidable (IsSeparator body index) :=
  decidable_of_iff (0 < index ∧ arrow <+: body.drop index ∧
    body[index - 1]?.any isBlank = true ∧ body[index + 3]?.any isBlank = true)
    (by simp [IsSeparator, Option.any_eq_true])

/-- The pieces of a mapping, in their order. -/
structure LineParts where
  lead : Text
  gap : Text
  source : Text
  left : Text
  right : Text
  target : Text
  tail : Text
  deriving DecidableEq

namespace LineParts

variable (parts : LineParts)

/-- What follows the token and the blanks behind it. -/
def body : Text :=
  parts.source ++ parts.left ++ arrow ++ parts.right ++ parts.target ++
    parts.tail

/-- The line. -/
def text : Text := parts.lead ++ token ++ parts.gap ++ parts.body

/-- The pieces are as the format has them. -/
structure WellFormed : Prop where
  lead_blank : ∀ c ∈ parts.lead, isBlank c = true
  gap_blank : ∀ c ∈ parts.gap, isBlank c = true
  left_blank : ∀ c ∈ parts.left, isBlank c = true
  right_blank : ∀ c ∈ parts.right, isBlank c = true
  tail_trailing : ∀ c ∈ parts.tail, isTrailing c = true
  left_ne_nil : parts.left ≠ []
  right_ne_nil : parts.right ≠ []
  source_absolute : parts.source.head? = some '/'
  target_absolute : parts.target.head? = some '/'
  /-- The names are stripped. -/
  source_end : ∀ c ∈ parts.source.getLast?, isBlank c = false
  target_end : ∀ c ∈ parts.target.getLast?, isTrailing c = false
  /-- Both name a directory's contents, or neither does. -/
  same_end : parts.source.getLast? = some '/' ↔ parts.target.getLast? = some '/'
  /-- The arrow between them is the first with a blank on both sides. -/
  first : ∀ index < (parts.source ++ parts.left).length,
    ¬ IsSeparator parts.body index

end LineParts

/-- A line that says nothing. -/
def IsComment (line : Text) : Prop :=
  (∀ c ∈ line, isBlank c = true) ∨
    ∃ lead rest, (∀ c ∈ lead, isBlank c = true) ∧ line = lead ++ '#' :: rest

/-- A line as the format has it. -/
def LineOk (line : Text) : Prop :=
  IsComment line ∨ ∃ parts : LineParts, parts.WellFormed ∧ parts.text = line

/-! ## Taking a line apart -/

/-- The first separator. -/
def firstSeparator (body : Text) : Option ℕ :=
  (List.range body.length).find? fun index => IsSeparator body index

/-- What follows the blanks behind the arrow. -/
def behindArrow (body : Text) (index : ℕ) : Text :=
  (body.drop (index + 3)).dropWhile isBlank

/-- The pieces around an arrow. -/
def partsAt (lead gap body : Text) (index : ℕ) : LineParts where
  lead := lead
  gap := gap
  source := (body.take index).rdropWhile isBlank
  left := (body.take index).rtakeWhile isBlank
  right := (body.drop (index + 3)).takeWhile isBlank
  target := (behindArrow body index).rdropWhile isTrailing
  tail := (behindArrow body index).rtakeWhile isTrailing

/-- The pieces, if the second name is absolute and ends as the first does. -/
def splitBody (lead gap body : Text) (index : ℕ) : Option LineParts :=
  let parts := partsAt lead gap body index
  if (behindArrow body index).head? = some '/' ∧
    (parts.source.getLast? = some '/' ↔
      parts.target.getLast? = some '/') then some parts
  else none

/-- The pieces of a mapping. -/
def splitLine (line : Text) : Option LineParts :=
  let rest := line.dropWhile isBlank
  if token <+: rest then
    let rest := rest.drop token.length
    let body := rest.dropWhile isBlank
    if body.head? = some '/' then
      (firstSeparator body).bind
        (splitBody (line.takeWhile isBlank) (rest.takeWhile isBlank) body)
    else none
  else none

/-! ## What is found is as the format has it -/

section Sound

variable {body lead gap line : Text} {index : ℕ} {parts : LineParts}

theorem firstSeparator_eq_some_iff :
    firstSeparator body = some index ↔
      IsSeparator body index ∧
        ∀ earlier < index, ¬ IsSeparator body earlier := by
  rw [firstSeparator, List.find?_range_eq_some]
  simp only [decide_eq_true_eq, List.mem_range, Bool.not_eq_true',
    decide_eq_false_iff_not]
  constructor
  · exact fun hfound => ⟨hfound.1, hfound.2.2⟩
  · rintro ⟨hseparator, hfirst⟩
    refine ⟨hseparator, ?_, hfirst⟩
    obtain ⟨_, _, _, c, hc, _⟩ := hseparator
    have hlt := (List.getElem?_eq_some_iff.1 hc).1
    omega

theorem firstSeparator_eq_none_iff :
    firstSeparator body = none ↔ ∀ index, ¬ IsSeparator body index := by
  constructor
  · intro hnone index hseparator
    obtain ⟨first, hfirst, hleast⟩ : ∃ first, IsSeparator body first ∧
        ∀ earlier < first, ¬ IsSeparator body earlier :=
      ⟨_, Nat.find_spec ⟨index, hseparator⟩, fun _ hlt => Nat.find_min _ hlt⟩
    rw [firstSeparator_eq_some_iff.2 ⟨hfirst, hleast⟩] at hnone
    cases hnone
  · intro hnone
    cases hfound : firstSeparator body with
    | none => rfl
    | some index =>
        exact absurd (firstSeparator_eq_some_iff.1 hfound).1 (hnone index)

/-- The text around a separator. -/
theorem IsSeparator.split (hseparator : IsSeparator body index) :
    body = body.take index ++ arrow ++ body.drop (index + 3) := by
  obtain ⟨tail, htail⟩ := hseparator.2.1
  have hdrop : body.drop (index + 3) = tail := by
    rw [← List.drop_drop, ← htail]
    rfl
  rw [hdrop, List.append_assoc, htail, List.take_append_drop]

theorem IsSeparator.index_lt (hseparator : IsSeparator body index) :
    index + 3 < body.length := by
  obtain ⟨_, _, _, c, hc, _⟩ := hseparator
  exact (List.getElem?_eq_some_iff.1 hc).1

/-- A blank stands before the arrow. -/
theorem IsSeparator.left_ne_nil (hseparator : IsSeparator body index) :
    (body.take index).rtakeWhile isBlank ≠ [] := by
  obtain ⟨hpos, _, ⟨c, hc, hblank⟩, _⟩ := hseparator
  have hlast : (body.take index).getLast? = some c := by
    rw [List.getLast?_take, if_neg (by omega), Option.mem_def.1 hc]
    rfl
  obtain ⟨front, hfront⟩ := List.getLast?_eq_some_iff.1 hlast
  rw [hfront, List.rtakeWhile_concat_pos _ _ _ hblank]
  exact List.append_ne_nil_of_right_ne_nil _ (List.cons_ne_nil c [])

/-- A blank stands behind the arrow. -/
theorem IsSeparator.right_ne_nil (hseparator : IsSeparator body index) :
    (body.drop (index + 3)).takeWhile isBlank ≠ [] := by
  obtain ⟨_, _, _, c, hc, hblank⟩ := hseparator
  rw [Option.mem_def, ← List.head?_drop] at hc
  obtain ⟨rest, hrest⟩ := List.head?_eq_some_iff.1 hc
  rw [hrest, List.takeWhile_cons_of_pos hblank]
  exact List.cons_ne_nil _ _

theorem partsAt_body (hseparator : IsSeparator body index) :
    (partsAt lead gap body index).body = body := by
  rw [LineParts.body, partsAt, behindArrow]
  simp only [List.append_assoc, List.rdropWhile_append_rtakeWhile,
    List.takeWhile_append_dropWhile]
  rw [← List.append_assoc]
  exact hseparator.split.symm

theorem partsAt_left_length :
    ((partsAt lead gap body index).source ++
      (partsAt lead gap body index).left).length =
      (body.take index).length := by
  rw [partsAt, List.rdropWhile_append_rtakeWhile]

/-- What stands before the arrow begins with the first name. -/
theorem take_head (hhead : body.head? = some '/')
    (hseparator : IsSeparator body index) :
    (body.take index).head? = some '/' := by
  rw [List.head?_take, if_neg (Nat.pos_iff_ne_zero.1 hseparator.1), hhead]

theorem eq_partsAt_of_splitBody
    (hsplit : splitBody lead gap body index = some parts) :
    parts = partsAt lead gap body index := by
  rw [splitBody] at hsplit
  simp only [Option.ite_none_right_eq_some, Option.some.injEq] at hsplit
  exact hsplit.2.symm

theorem splitBody_sound (hlead : ∀ c ∈ lead, isBlank c = true)
    (hgap : ∀ c ∈ gap, isBlank c = true) (hbody : body.head? = some '/')
    (hfirst : firstSeparator body = some index)
    (hsplit : splitBody lead gap body index = some parts) :
    parts.WellFormed ∧ parts.text = lead ++ token ++ gap ++ body := by
  obtain ⟨hseparator, hearlier⟩ := firstSeparator_eq_some_iff.1 hfirst
  rw [splitBody] at hsplit
  simp only [Option.ite_none_right_eq_some, Option.some.injEq] at hsplit
  obtain ⟨⟨htarget, hsame⟩, rfl⟩ := hsplit
  constructor
  · exact
      { lead_blank := hlead
        gap_blank := hgap
        left_blank := fun c hc => List.mem_rtakeWhile_imp hc
        right_blank := fun c hc => List.mem_takeWhile_imp hc
        tail_trailing := fun c hc => List.mem_rtakeWhile_imp hc
        left_ne_nil := hseparator.left_ne_nil
        right_ne_nil := hseparator.right_ne_nil
        source_absolute := head_rdropWhile (take_head hbody hseparator) rfl
        target_absolute := head_rdropWhile htarget rfl
        source_end := getLast_rdropWhile
        target_end := getLast_rdropWhile
        same_end := hsame
        first := by
          intro earlier hlt
          rw [partsAt_body hseparator]
          rw [partsAt_left_length, List.length_take] at hlt
          exact hearlier earlier (by omega) }
  · rw [LineParts.text, partsAt_body hseparator]
    rfl

/-- What a line is taken apart into is as the format has it. -/
theorem splitLine_sound (hsplit : splitLine line = some parts) :
    parts.WellFormed ∧ parts.text = line := by
  rw [splitLine] at hsplit
  simp only [Option.ite_none_right_eq_some, Option.bind_eq_some_iff] at hsplit
  obtain ⟨⟨rest, hrest⟩, hbody, index, hfirst, hparts⟩ := hsplit
  have hwell := splitBody_sound (fun c hc => List.mem_takeWhile_imp hc)
    (fun c hc => List.mem_takeWhile_imp hc) hbody hfirst hparts
  refine ⟨hwell.1, hwell.2.trans ?_⟩
  rw [← hrest, List.drop_left, List.append_assoc,
    List.takeWhile_append_dropWhile, List.append_assoc, hrest,
    List.takeWhile_append_dropWhile]

end Sound

/-! ## What the format has is found -/

section Complete

variable {parts : LineParts}

namespace LineParts.WellFormed

variable (hwell : parts.WellFormed)

include hwell

omit hwell in
theorem body_eq : parts.body =
    (parts.source ++ parts.left) ++
      (arrow ++ (parts.right ++ (parts.target ++ parts.tail))) := by
  simp [LineParts.body]

theorem isSeparator :
    IsSeparator parts.body (parts.source ++ parts.left).length := by
  obtain ⟨front, last, hleft⟩ :=
    (List.eq_nil_or_concat' parts.left).resolve_left hwell.left_ne_nil
  obtain ⟨first, rest, hright⟩ := List.exists_cons_of_ne_nil hwell.right_ne_nil
  have hlast : isBlank last = true := hwell.left_blank last (by simp [hleft])
  have hfirst : isBlank first = true :=
    hwell.right_blank first (by simp [hright])
  have hpos : 0 < (parts.source ++ parts.left).length := by simp [hleft]
  rw [body_eq]
  refine ⟨hpos, ?_, ⟨last, ?_, hlast⟩, first, ?_, hfirst⟩
  · rw [List.drop_left]
    exact List.prefix_append _ _
  · rw [List.getElem?_append_left (by omega), ← List.getLast?_eq_getElem?,
      hleft]
    simp
  · rw [List.getElem?_append_right (by omega), Nat.add_sub_cancel_left, hright]
    rfl

theorem firstSeparator_eq :
    firstSeparator parts.body = some (parts.source ++ parts.left).length :=
  firstSeparator_eq_some_iff.2 ⟨hwell.isSeparator, hwell.first⟩

theorem head_body : parts.body.head? = some '/' := by
  obtain ⟨rest, hsource⟩ := List.head?_eq_some_iff.1 hwell.source_absolute
  simp [LineParts.body, hsource]

omit hwell in
theorem drop_body : parts.body.drop ((parts.source ++ parts.left).length + 3) =
    parts.right ++ (parts.target ++ parts.tail) := by
  rw [body_eq, ← List.drop_drop, List.drop_left]
  rfl

theorem head_target : (parts.target ++ parts.tail).head? = some '/' := by
  obtain ⟨rest, htarget⟩ := List.head?_eq_some_iff.1 hwell.target_absolute
  simp [htarget]

theorem target_not_blank :
    ∀ c ∈ (parts.target ++ parts.tail).head?, isBlank c = false := by
  rw [hwell.head_target]
  rintro c ⟨⟩
  rfl

theorem behindArrow_eq :
    behindArrow parts.body (parts.source ++ parts.left).length =
      parts.target ++ parts.tail := by
  rw [behindArrow, drop_body,
    dropWhile_eq_right hwell.right_blank hwell.target_not_blank]

theorem partsAt_eq :
    partsAt parts.lead parts.gap parts.body
      (parts.source ++ parts.left).length =
      parts := by
  have htake : parts.body.take (parts.source ++ parts.left).length =
      parts.source ++ parts.left := by
    rw [body_eq, List.take_left]
  rw [partsAt, hwell.behindArrow_eq, htake, drop_body,
    rdropWhile_eq_left hwell.left_blank hwell.source_end,
    rtakeWhile_eq_right hwell.left_blank hwell.source_end,
    rdropWhile_eq_left hwell.tail_trailing hwell.target_end,
    rtakeWhile_eq_right hwell.tail_trailing hwell.target_end,
    takeWhile_eq_left hwell.right_blank hwell.target_not_blank]

end LineParts.WellFormed

/-- A line as the format has it is taken apart into its pieces. -/
theorem splitLine_complete (hwell : parts.WellFormed) :
    splitLine parts.text = some parts := by
  have htext : parts.text =
    parts.lead ++ (token ++ (parts.gap ++ parts.body)) := by
    simp [LineParts.text]
  have htoken : ∀ c ∈ (token ++ (parts.gap ++ parts.body)).head?,
    isBlank c = false := by
    rintro c ⟨⟩
    rfl
  have hbody : ∀ c ∈ parts.body.head?, isBlank c = false := by
    rw [hwell.head_body]
    rintro c ⟨⟩
    rfl
  simp only [splitLine, htext, dropWhile_eq_right hwell.lead_blank htoken,
    takeWhile_eq_left hwell.lead_blank htoken, List.prefix_append, if_true,
    List.drop_left, dropWhile_eq_right hwell.gap_blank hbody,
    takeWhile_eq_left hwell.gap_blank hbody, hwell.head_body,
    hwell.firstSeparator_eq, Option.bind_some, splitBody, hwell.partsAt_eq,
    hwell.behindArrow_eq, hwell.head_target, true_and]
  exact if_pos hwell.same_end

end Complete

/-- The lines that are taken apart are the mappings. -/
theorem splitLine_eq_some_iff {line : Text} {parts : LineParts} :
    splitLine line = some parts ↔ parts.WellFormed ∧ parts.text = line := by
  constructor
  · exact splitLine_sound
  · rintro ⟨hwell, rfl⟩
    exact splitLine_complete hwell

/-- A line that says nothing ends behind its blanks or goes on with a `#`. -/
theorem isComment_iff {line : Text} :
    IsComment line ↔ line.dropWhile isBlank = [] ∨
      (line.dropWhile isBlank).head? = some '#' := by
  constructor
  · rintro (hblank | ⟨lead, rest, hlead, rfl⟩)
    · exact .inl (List.dropWhile_eq_nil_iff.2 hblank)
    · rw [dropWhile_eq_right hlead]
      · exact .inr rfl
      · rintro c ⟨⟩
        rfl
  · rintro (hnil | hhead)
    · exact .inl (List.dropWhile_eq_nil_iff.1 hnil)
    · obtain ⟨rest, hrest⟩ := List.head?_eq_some_iff.1 hhead
      refine .inr ⟨line.takeWhile isBlank, rest,
        fun c hc => List.mem_takeWhile_imp hc, ?_⟩
      rw [← hrest, List.takeWhile_append_dropWhile]

instance decidableIsComment (line : Text) : Decidable (IsComment line) :=
  decidable_of_iff _ isComment_iff.symm

/-- A comment is no mapping. -/
theorem splitLine_of_isComment {line : Text} (hcomment : IsComment line) :
    splitLine line = none := by
  have htoken : ¬ token <+: line.dropWhile isBlank := by
    rintro ⟨rest, hrest⟩
    rw [isComment_iff, ← hrest] at hcomment
    rcases hcomment with hnil | hhead
    · exact List.cons_ne_nil _ _ hnil
    · exact absurd (Option.some.inj hhead) (by decide)
  rw [splitLine, if_neg htoken]

/-- A line is as the format has it when it is a comment or can be taken apart. -/
theorem lineOk_iff {line : Text} :
    LineOk line ↔ IsComment line ∨ (splitLine line).isSome := by
  simp only [LineOk, Option.isSome_iff_exists, splitLine_eq_some_iff]

instance decidableLineOk (line : Text) : Decidable (LineOk line) :=
  decidable_of_iff _ lineOk_iff.symm

end IbcsUs.Names
