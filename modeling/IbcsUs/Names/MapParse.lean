import IbcsUs.Names.MapLine

/-!
# Reading the map file

`filemap_parse` reads the whole file into a buffer and turns it into a chain of
records in place: the token of a mapping makes room for the record, the names stay
where they are and get terminators.  Each line is taken apart in the memory that the
lines before it have been overwritten in, but nothing from its own start on has been
touched, so that it is accepted exactly when it is as the format has it.
-/

namespace IbcsUs.Names

open IbcsUs.Paths IbcsUs.Strings

/-! ## The code -/

/-- What the loop of `filemap_parse` changes; addresses count from the buffer. -/
structure ParseState where
  memory : Memory
  filemap : Option ℕ
  prev : Option ℕ
  deriving DecidableEq

/-- `TYPE_ALIGN` for a record: up to an even address.  The buffer is at `buffer`. -/
def typeAlign (buffer address : ℕ) : ℕ := address + (buffer + address) % 2

/-- The search for an arrow between blanks, within the line. -/
def findSeparator (memory : Memory) (endLine : ℕ) : ℕ → ℕ → Option ℕ
  | 0, _ => none
  | fuel + 1, c =>
      match strstr memory c arrow with
      | none => none
      | some c =>
          if c ≥ endLine then none
          else if isBlank (cell memory (c - 1)) &&
            isBlank (cell memory (c + 3)) then some c
          else findSeparator memory endLine fuel (c + 3)

/-- Adding a record to the chain. -/
def linkRecord (state : ParseState) (memory : Memory) (map : ℕ) : ParseState :=
  match state.prev with
  | none => ⟨memory, some map, some map⟩
  | some prev =>
      ⟨writeShort memory (prev + 4) (map - prev), state.filemap, some map⟩

/-- The part of the loop behind the search, with the arrow at `c`; `none` is a bad
line. -/
def parseTarget (state : ParseState) (map c endLine : ℕ) : Option ParseState :=
  let b := back isBlank state.memory (c - 1)
  let fromEndChar := cell state.memory b
  let memory := state.memory.set (b + 1) nul
  let b := skip isBlank memory (c + 4)
  if cell memory b ≠ '/' then none
  else
    let memory := writeShort memory (map + 2) (b - map)
    let b := back isTrailing memory (endLine - 1)
    if (fromEndChar = '/' ∨ cell memory b = '/') ∧
      cell memory b ≠ fromEndChar then none
    else
      let memory := memory.set (b + 1) nul
      some (linkRecord state (writeShort memory (map + 4) 0) map)

/-- The part of the loop for a line that is no comment, from its first character
that is not blank on. -/
def parseMapping (buffer : ℕ) (state : ParseState) (b endLine : ℕ) :
    Option ParseState :=
  if startsWith state.memory b token then
    let map := typeAlign buffer b
    let b := skip isBlank state.memory (b + token.length)
    if cell state.memory b ≠ '/' then none
    else
      let memory := writeShort state.memory map (b - map)
      match findSeparator memory endLine endLine b with
      | none => none
      | some c => parseTarget { state with memory := memory } map c endLine
  else none

/-- One round of the loop: the state and where the next line begins, or `none` for a
bad line. -/
def parseLine (buffer : ℕ) (state : ParseState) (b : ℕ) :
    Option (ParseState × Option ℕ) :=
  let (endLine, nextLine) :=
    match strchr state.memory b '\n' with
    | some endLine => (endLine, some (endLine + 1))
    | none => (strend state.memory b, none)
  let b := skip isBlank state.memory b
  if cell state.memory b = '#' ∨ b = endLine then some (state, nextLine)
  else (parseMapping buffer state b endLine).map (·, nextLine)

/-- How the loop ends. -/
inductive LoopEnd where
  | done (state : ParseState)
  | badLine (number : ℕ)
  | outOfFuel
  deriving DecidableEq

/-- The loop of `filemap_parse`; `lineNo` lines are behind it. -/
def parseLines (buffer : ℕ) : ℕ → ℕ → ParseState → ℕ → LoopEnd
  | 0, _, _, _ => .outOfFuel
  | fuel + 1, lineNo, state, b =>
      match parseLine buffer state b with
      | none => .badLine (lineNo + 1)
      | some (state, none) => .done state
      | some (state, some nextLine) =>
          parseLines buffer fuel (lineNo + 1) state nextLine

/-- How a call ends. -/
inductive Finish where
  | returned (ret : ℤ)
  | exited (status : ℤ)
  deriving DecidableEq

/-- What a call of `filemap_parse` comes to: how it ends, what it has written to the
standard error, the head of the chain and the memory it is in. -/
structure ParseOutcome where
  finish : Finish
  stderr : String
  filemap : Option ℕ
  memory : Memory
  deriving DecidableEq

/-- `ibcs_fatal`, which does not return; the buffer has been freed before. -/
def ibcsFatal (message : String) : ParseOutcome :=
  ⟨.exited 1, message ++ "\n", none, []⟩

/-- What is said about a bad line. -/
def badLineMessage (mapFilename : String) (number : ℕ) : String :=
  mapFilename ++ " line " ++ toString number ++ ": can't parse line"

/-- `filemap_parse` on a file that can be read whole. -/
def filemapParse (mapFilename : String) (buffer : ℕ) (text : Text) :
    Option ParseOutcome :=
  if text.length = 0 then some ⟨.returned 0, "", none, []⟩
  else
    match parseLines buffer (text.length + 1) 0
      ⟨text ++ [nul], none, none⟩ 0 with
    | .outOfFuel => none
    | .badLine number => some (ibcsFatal (badLineMessage mapFilename number))
    | .done state => some ⟨.returned 0, "", state.filemap, state.memory⟩

/-! ## A line in memory -/

/-- A line stands at an address, and something that ends it behind. -/
structure InMemory (memory : Memory) (address : ℕ) (line rest : Text) :
    Prop where
  drop_eq : memory.drop address = line ++ rest
  no_newline : '\n' ∉ line
  no_nul : nul ∉ line
  stop : rest.head? = some '\n' ∨ rest.head? = some nul

namespace InMemory

variable {memory : Memory} {address other value : ℕ} {line front rest : Text}
variable {letter : Char}

theorem advance (hline : InMemory memory address (front ++ line) rest) :
    InMemory memory (address + front.length) line rest where
  drop_eq := by
    apply drop_add
    rw [hline.drop_eq, List.append_assoc]
  no_newline := fun hmem => hline.no_newline (List.mem_append_right _ hmem)
  no_nul := fun hmem => hline.no_nul (List.mem_append_right _ hmem)
  stop := hline.stop

/-- A write before the line leaves it. -/
theorem set (hline : InMemory memory address line rest)
    (hbefore : other < address) :
    InMemory (memory.set other letter) address line rest :=
  { hline with drop_eq := by rw [List.drop_set_of_lt hbefore, hline.drop_eq] }

theorem writeShort (hline : InMemory memory address line rest)
    (hbefore : other + 1 < address) :
    InMemory (writeShort memory other value) address line rest :=
  { hline with drop_eq := by rw [drop_writeShort hbefore, hline.drop_eq] }

theorem stop_ne (hline : InMemory memory address line rest)
    (hnewline : letter ≠ '\n')
    (hnul : letter ≠ nul) : rest.head? ≠ some letter := by
  rcases hline.stop with hstop | hstop
  · rw [hstop]
    exact fun heq => hnewline (Option.some.inj heq).symm
  · rw [hstop]
    exact fun heq => hnul (Option.some.inj heq).symm

/-- What ends the line is of no kind that the loops pass over. -/
theorem stop_kind (hline : InMemory memory address line rest)
    (kind : Char → Bool)
    (hnewline : kind '\n' = false) (hnul : kind nul = false) :
    ∀ c ∈ rest.head?, kind c = false := by
  intro c hc
  rcases hline.stop with hstop | hstop
  · rw [hstop] at hc
    obtain rfl := Option.some.inj hc
    exact hnewline
  · rw [hstop] at hc
    obtain rfl := Option.some.inj hc
    exact hnul

theorem rest_eq_cons (hline : InMemory memory address line rest) :
    ∃ c tail, rest = c :: tail := by
  rcases hline.stop with hstop | hstop
  · exact ⟨_, List.head?_eq_some_iff.1 hstop⟩
  · exact ⟨_, List.head?_eq_some_iff.1 hstop⟩

theorem cell_eq_iff (hline : InMemory memory address line rest)
    (hnewline : letter ≠ '\n') (hnul : letter ≠ nul) :
    cell memory address = letter ↔ line.head? = some letter := by
  cases line with
  | nil =>
      obtain ⟨c, tail, rfl⟩ := hline.rest_eq_cons
      rw [cell_of_drop hline.drop_eq]
      simpa using hline.stop_ne hnewline hnul
  | cons c line =>
      rw [cell_of_drop hline.drop_eq]
      simp

theorem skip_eq (hline : InMemory memory address line rest) :
    skip isBlank memory address =
      address + (line.takeWhile isBlank).length := by
  have hdrop : memory.drop address =
      line.takeWhile isBlank ++ (line.dropWhile isBlank ++ rest) := by
    rw [hline.drop_eq, ← List.append_assoc, List.takeWhile_append_dropWhile]
  apply Strings.skip_eq hdrop
  · exact fun c hc => List.mem_takeWhile_imp hc
  · cases hnext : line.dropWhile isBlank with
    | nil => exact hline.stop_kind isBlank rfl rfl
    | cons c tail =>
        have hhead := @head_dropWhile isBlank line
        rwa [hnext] at hhead

theorem not_mem_of_stop (hline : InMemory memory address line rest)
    {needle : Text}
    (hnewline : '\n' ∉ needle) (hnul : nul ∉ needle) :
    ∀ c ∈ rest.head?, c ∉ needle := by
  intro c hc
  have hkind := hline.stop_kind (fun c => decide (c ∈ needle))
    (decide_eq_false hnewline)
    (decide_eq_false hnul) c hc
  exact of_decide_eq_false hkind

theorem startsWith_iff (hline : InMemory memory address line rest) :
    startsWith memory address token = true ↔ token <+: line := by
  rw [startsWith, List.isPrefixOf_iff_prefix, hline.drop_eq]
  exact prefix_append_iff (hline.not_mem_of_stop (by decide) (by decide))

end InMemory

/-! ## The search for the arrow -/

section Search

variable {memory : Memory} {address : ℕ} {body rest : Text}

theorem arrow_end {index : ℕ} (harrow : arrow <+: body.drop index) :
    index + 3 ≤ body.length := by
  have hle := harrow.length_le
  have hlength : arrow.length = 3 := rfl
  rw [List.length_drop, hlength] at hle
  omega

/-- Arrows do not overlap. -/
theorem not_arrow_of_lt {index offset : ℕ} (harrow : arrow <+: body.drop index)
    (hoffset : offset = 1 ∨ offset = 2) :
    ¬ arrow <+: body.drop (index + offset) := by
  obtain ⟨tail, htail⟩ := harrow
  rw [← List.drop_drop, ← htail]
  rcases hoffset with rfl | rfl
  · rintro ⟨other, hother⟩
    simp [arrow] at hother
  · rintro ⟨other, hother⟩
    simp [arrow] at hother

/-- The string from within the line on begins with an arrow where the line does. -/
theorem arrow_in_string (hbody : InMemory memory address body rest)
    {start index : ℕ}
    (hstart : start ≤ index) (hindex : index ≤ body.length) :
    arrow <+: (stringAt memory (address + start)).drop (index - start) ↔
      arrow <+: body.drop index := by
  have hdrop : memory.drop (address + start) = body.drop start ++ rest := by
    rw [← List.drop_drop, hbody.drop_eq,
      List.drop_append_of_le_length (by omega)]
  have hstring : stringAt memory (address + start) =
      body.drop start ++ rest.takeWhile (· ≠ nul) :=
    stringAt_append hdrop fun hmem => hbody.no_nul (List.mem_of_mem_drop hmem)
  have hlength : index - start ≤ (body.drop start).length := by
    rw [List.length_drop]
    omega
  rw [hstring, List.drop_append_of_le_length hlength, List.drop_drop,
    Nat.add_sub_cancel' hstart]
  apply prefix_append_iff
  intro c hc
  rw [List.head?_takeWhile, Option.mem_filter_iff] at hc
  exact hbody.not_mem_of_stop (by decide) (by decide) c hc.1

/-- What `strstr` finds is the first arrow of the line from there on, or behind the
line. -/
theorem strstr_arrow (hbody : InMemory memory address body rest) (start : ℕ) :
    (∃ index, strstr memory (address + start) arrow = some (address + index) ∧
      start ≤ index ∧ index < body.length ∧ arrow <+: body.drop index ∧
      ∀ earlier, start ≤ earlier → earlier < index →
        ¬ arrow <+: body.drop earlier) ∨
    ((∀ found, strstr memory (address + start) arrow = some found →
        address + body.length ≤ found) ∧
      ∀ index, start ≤ index → ¬ arrow <+: body.drop index) := by
  have hne : arrow ≠ [] := by decide
  cases hfind : strstr memory (address + start) arrow with
  | none =>
      right
      rw [strstr_eq_none_iff hne] at hfind
      constructor
      · exact fun found hfound => absurd hfound (by simp)
      · intro index hle harrow
        have hlt := prefix_drop_lt hne harrow
        exact hfind _ ((arrow_in_string hbody hle hlt.le).2 harrow)
  | some found =>
      obtain ⟨offset, rfl, harrow, hearlier⟩ := (strstr_eq_some_iff hne).1 hfind
      have hnone : ∀ index, start ≤ index → index < start + offset →
          ¬ arrow <+: body.drop index := by
        intro index hle hlt hindex
        have hin := prefix_drop_lt hne hindex
        exact hearlier (index - start) (by omega)
          ((arrow_in_string hbody hle hin.le).2 hindex)
      by_cases hlt : start + offset < body.length
      · left
        refine ⟨start + offset, by rw [Nat.add_assoc], Nat.le_add_right _ _,
          hlt, ?_, hnone⟩
        rw [← arrow_in_string hbody (Nat.le_add_right start offset) hlt.le,
          Nat.add_sub_cancel_left]
        exact harrow
      · right
        constructor
        · rintro found ⟨⟩
          omega
        · intro index hle hindex
          have hin := prefix_drop_lt hne hindex
          exact hnone index hle (by omega) hindex

theorem blank_cell_iff (hbody : InMemory memory address body rest) {index : ℕ}
    (hindex : index ≤ body.length) :
    isBlank (cell memory (address + index)) = true ↔
      ∃ c ∈ body[index]?, isBlank c = true := by
  cases hget : body[index]? with
  | none =>
      have hend : body.length ≤ index := List.getElem?_eq_none_iff.1 hget
      obtain rfl : index = body.length := Nat.le_antisymm hindex hend
      obtain ⟨stop, tail, rfl⟩ := hbody.rest_eq_cons
      rw [cell_of_drop (drop_add hbody.drop_eq),
        hbody.stop_kind isBlank rfl rfl stop rfl]
      simp
  | some c =>
      rw [cell_of_drop_append hbody.drop_eq hget]
      simp

theorem separator_iff (hbody : InMemory memory address body rest)
    (hhead : body.head? = some '/') {index : ℕ}
    (harrow : arrow <+: body.drop index) :
    (isBlank (cell memory (address + index - 1)) &&
      isBlank (cell memory (address + index + 3))) = true ↔
        IsSeparator body index := by
  have hpos : 0 < index := by
    apply Nat.pos_of_ne_zero
    rintro rfl
    obtain ⟨tail, htail⟩ := harrow
    rw [List.drop_zero] at htail
    rw [← htail] at hhead
    exact absurd (Option.some.inj hhead) (by decide)
  have hle := arrow_end harrow
  rw [Bool.and_eq_true, Nat.add_sub_assoc hpos, Nat.add_assoc,
    blank_cell_iff hbody (by omega), blank_cell_iff hbody (by omega)]
  constructor
  · exact fun hblank => ⟨hpos, harrow, hblank⟩
  · exact fun hseparator => hseparator.2.2

/-- The search stops at the first separator. -/
theorem findSeparator_eq (hbody : InMemory memory address body rest)
    (hhead : body.head? = some '/') {start fuel : ℕ}
    (hstart : start ≤ body.length)
    (hearlier : ∀ index < start, ¬ IsSeparator body index)
    (hfuel : body.length < fuel + start) :
    findSeparator memory (address + body.length) fuel (address + start) =
      (firstSeparator body).map (address + ·) := by
  induction fuel generalizing start with
  | zero => omega
  | succ fuel ih =>
      rw [findSeparator]
      rcases strstr_arrow hbody start with
        ⟨index, hfound, hle, hlt, harrow, hbetween⟩ | ⟨hbehind, hnone⟩
      · have hbefore : ∀ other < index, ¬ IsSeparator body other := by
          intro other hother hseparator
          by_cases hold : other < start
          · exact hearlier other hold hseparator
          · exact hbetween other (Nat.not_lt.1 hold) hother hseparator.2.1
        simp only [hfound]
        rw [if_neg (by omega)]
        by_cases hseparator : IsSeparator body index
        · rw [if_pos ((separator_iff hbody hhead harrow).2 hseparator),
            firstSeparator_eq_some_iff.2 ⟨hseparator, hbefore⟩, Option.map_some]
        · rw [if_neg (mt (separator_iff hbody hhead harrow).1 hseparator),
            Nat.add_assoc]
          have hend := arrow_end harrow
          apply ih (by omega) _ (by omega)
          intro other hother hlater
          by_cases hold : other < index
          · exact hbefore other hold hlater
          · obtain rfl | hoffset :
                other = index ∨ (other - index = 1 ∨ other - index = 2) := by
              omega
            · exact hseparator hlater
            · have hnot := not_arrow_of_lt harrow hoffset
              rw [Nat.add_sub_cancel' (Nat.not_lt.1 hold)] at hnot
              exact hnot hlater.2.1
      · have hfirst : firstSeparator body = none := by
          rw [firstSeparator_eq_none_iff]
          intro index hseparator
          by_cases hold : index < start
          · exact hearlier index hold hseparator
          · exact hnone index (Nat.not_lt.1 hold) hseparator.2.1
        rw [hfirst, Option.map_none]
        cases hfind : strstr memory (address + start) arrow with
        | none => rfl
        | some found => simp only [hbehind found hfind, if_true]

end Search

/-! ## What is stored for a line -/

namespace LineParts

variable (parts : LineParts) (buffer b : ℕ)

/-- Where the record of a line at `b` comes to lie. -/
def mapAt : ℕ := typeAlign buffer (b + parts.lead.length)

/-- Where the first name stands. -/
def sourceAt : ℕ := b + parts.lead.length + token.length + parts.gap.length

/-- Where the second name stands. -/
def targetAt : ℕ :=
  parts.sourceAt b + (parts.source ++ parts.left).length + 3 +
    parts.right.length

end LineParts

/-- The memory with the record of a line at `b`, not yet linked. -/
def recordMemory (buffer : ℕ) (memory : Memory) (b : ℕ) (parts : LineParts) :
    Memory :=
  let map := parts.mapAt buffer b
  let memory := writeShort memory map (parts.sourceAt b - map)
  let memory := memory.set (parts.sourceAt b + parts.source.length) nul
  let memory := writeShort memory (map + 2) (parts.targetAt b - map)
  let memory := memory.set (parts.targetAt b + parts.target.length) nul
  writeShort memory (map + 4) 0

/-- What a line at `b` with these pieces does to the state. -/
def storeRecord (buffer : ℕ) (state : ParseState) (b : ℕ) (parts : LineParts) :
    ParseState :=
  linkRecord state (recordMemory buffer state.memory b parts)
    (parts.mapAt buffer b)

section Line

variable {buffer b map sourceAt : ℕ} {state : ParseState}
variable {line rest lead gap body : Text}

theorem typeAlign_bounds (buffer address : ℕ) :
    address ≤ typeAlign buffer address ∧
      typeAlign buffer address ≤ address + 1 := by
  rw [typeAlign]
  omega

theorem sameEnd_iff (first last : Char) :
    ¬ ((first = '/' ∨ last = '/') ∧ last ≠ first) ↔
      (first = '/' ↔ last = '/') := by
  grind

theorem ne_nil_of_head {text : Text} {letter : Char}
    (hhead : text.head? = some letter) :
    text ≠ [] := by
  rintro rfl
  cases hhead

/-- The text behind the arrow, and where the loop finds it. -/
theorem InMemory.behindArrow {memory : Memory} {address index : ℕ}
    (hbody : InMemory memory address body rest)
    (hseparator : IsSeparator body index) :
    skip isBlank memory (address + index + 4) =
        address + index + 3 +
          ((body.drop (index + 3)).takeWhile isBlank).length ∧
      InMemory memory
        (address + index + 3 +
          ((body.drop (index + 3)).takeWhile isBlank).length)
        (behindArrow body index) rest := by
  have hafter : InMemory memory (address + index + 3)
    (body.drop (index + 3)) rest := by
    have hsplit : body = body.take (index + 3) ++ body.drop (index + 3) :=
      (List.take_append_drop _ _).symm
    rw [hsplit] at hbody
    have hlength : (body.take (index + 3)).length = index + 3 :=
      List.length_take_of_le hseparator.index_lt.le
    have hadvance := hbody.advance
    rwa [hlength, ← Nat.add_assoc] at hadvance
  constructor
  · obtain ⟨_, _, _, c, hc, hblank⟩ := hseparator
    rw [Option.mem_def, ← List.head?_drop] at hc
    obtain ⟨after, hdrop⟩ := List.head?_eq_some_iff.1 hc
    rw [hdrop] at hafter ⊢
    have hnext : InMemory memory (address + index + 3 + 1) after rest :=
      @InMemory.advance _ _ after [c] rest hafter
    rw [hnext.skip_eq, List.takeWhile_cons_of_pos hblank, List.length_cons]
    omega
  · apply InMemory.advance
    rw [Names.behindArrow, List.takeWhile_append_dropWhile]
    exact hafter

/-- The part of the loop behind the search. -/
theorem parseTarget_eq {address index : ℕ} (lead gap : Text)
    (state : ParseState)
    (hbody : InMemory state.memory address body rest)
    (hhead : body.head? = some '/')
    (hseparator : IsSeparator body index) (hmap : map + 5 < address) :
    parseTarget state map (address + index) (address + body.length) =
      (splitBody lead gap body index).map fun parts =>
        let memory := state.memory.set (address + parts.source.length) nul
        let toAt := address + index + 3 + parts.right.length
        let memory := writeShort memory (map + 2) (toAt - map)
        let memory := memory.set (toAt + parts.target.length) nul
        linkRecord state (writeShort memory (map + 4) 0) map := by
  have hindex := hseparator.index_lt
  have hbefore : state.memory.drop address =
      body.take index ++ (body.drop index ++ rest) := by
    rw [hbody.drop_eq, ← List.append_assoc, List.take_append_drop]
  have htake : (body.take index).length = index :=
    List.length_take_of_le (by omega)
  have hsource : (body.take index).rdropWhile isBlank ≠ [] :=
    ne_nil_of_head (head_rdropWhile (take_head hhead hseparator) rfl)
  obtain ⟨hsourceEnd, hsourceLast⟩ := back_spec hbefore hsource
  rw [htake] at hsourceEnd hsourceLast
  have hlength : ((body.take index).rdropWhile isBlank).length ≤ index := by
    have hstarts :=
      (List.rdropWhile_prefix isBlank (l := body.take index)).length_le
    rwa [htake] at hstarts
  obtain ⟨hskip, hbehind⟩ := hbody.behindArrow hseparator
  have hend : address + body.length = address + index + 3 +
      ((body.drop (index + 3)).takeWhile isBlank).length +
        (behindArrow body index).length := by
    have hsplit := congrArg List.length
      (List.takeWhile_append_dropWhile (p := isBlank)
        (l := body.drop (index + 3)))
    rw [List.length_append, List.length_drop] at hsplit
    rw [behindArrow]
    omega
  simp only [parseTarget, hsourceEnd, splitBody, partsAt, hsourceLast]
  rw [skip_set (by omega), hskip, hend]
  generalize htoAt : address + index + 3 +
    ((body.drop (index + 3)).takeWhile isBlank).length = toAt at hbehind ⊢
  have hbehind : InMemory (state.memory.set
      (address + ((body.take index).rdropWhile isBlank).length) nul) toAt
      (behindArrow body index) rest := hbehind.set (by omega)
  by_cases hslash : (behindArrow body index).head? = some '/'
  · have hcell := (hbehind.cell_eq_iff (by decide) (by decide)).2 hslash
    rw [if_neg (not_not.2 hcell)]
    have htarget : (behindArrow body index).rdropWhile isTrailing ≠ [] :=
      ne_nil_of_head (head_rdropWhile hslash rfl)
    have hbehind : InMemory (writeShort (state.memory.set
        (address + ((body.take index).rdropWhile isBlank).length) nul) (map + 2)
          (toAt - map)) toAt (behindArrow body index) rest :=
      hbehind.writeShort (by omega)
    obtain ⟨htargetEnd, htargetLast⟩ := back_spec hbehind.drop_eq htarget
    simp only [htargetEnd, htargetLast, hslash, Option.some.injEq, true_and]
    split_ifs with hbad hsame hsame
    · exact absurd hbad ((sameEnd_iff _ _).2 hsame)
    · rfl
    · rw [Option.map_some, htoAt]
    · exact absurd ((sameEnd_iff _ _).1 hbad) hsame
  · have hcell := mt (hbehind.cell_eq_iff (by decide) (by decide)).1 hslash
    rw [if_pos hcell, if_neg (fun hboth => hslash hboth.1), Option.map_none]

/-- The addresses that are stored are those of the pieces. -/
theorem storeRecord_partsAt {index : ℕ} (hindex : index ≤ body.length)
    (hsource : sourceAt = b + lead.length + token.length + gap.length)
    {parts : LineParts} (hparts : splitBody lead gap body index = some parts) :
    storeRecord buffer state b parts =
      let map := typeAlign buffer (b + lead.length)
      let memory := writeShort state.memory map (sourceAt - map)
      let memory := memory.set (sourceAt + parts.source.length) nul
      let toAt := sourceAt + index + 3 + parts.right.length
      let memory := writeShort memory (map + 2) (toAt - map)
      let memory := memory.set (toAt + parts.target.length) nul
      linkRecord state (writeShort memory (map + 4) 0) map := by
  obtain rfl := eq_partsAt_of_splitBody hparts
  have hat : (partsAt lead gap body index).sourceAt b = sourceAt := hsource.symm
  simp only [storeRecord, recordMemory, LineParts.mapAt, LineParts.targetAt,
    hat, partsAt_left_length,
    List.length_take_of_le hindex]
  rfl

/-- The part of the loop behind the token and the blanks. -/
theorem parseBody_eq (hbody : InMemory state.memory sourceAt body rest)
    (hhead : body.head? = some '/')
    (hmap : map = typeAlign buffer (b + lead.length))
    (hsource : sourceAt = b + lead.length + token.length + gap.length) :
    (match findSeparator (writeShort state.memory map (sourceAt - map))
        (sourceAt + body.length) (sourceAt + body.length) sourceAt with
      | none => none
      | some c => parseTarget
          { state with memory := writeShort state.memory map (sourceAt - map) }
          map c (sourceAt + body.length)) =
      ((firstSeparator body).bind (splitBody lead gap body)).map
        (storeRecord buffer state b) := by
  have hbounds := typeAlign_bounds buffer (b + lead.length)
  have htoken : token.length = 10 := rfl
  have hwritten :
      InMemory (writeShort state.memory map (sourceAt - map)) sourceAt body
      rest := hbody.writeShort (by omega)
  have hfind := @findSeparator_eq _ _ _ _ hwritten hhead 0
    (sourceAt + body.length)
    (Nat.zero_le _) (fun _ hlt => absurd hlt (Nat.not_lt_zero _)) (by omega)
  rw [Nat.add_zero] at hfind
  rw [hfind]
  cases hfirst : firstSeparator body with
  | none => rfl
  | some index =>
      have hseparator := (firstSeparator_eq_some_iff.1 hfirst).1
      have hindex := hseparator.index_lt
      have htarget := parseTarget_eq lead gap
        { state with memory := writeShort state.memory map (sourceAt - map) }
          hwritten
        hhead hseparator (show map + 5 < sourceAt by omega)
      rw [Option.bind_some, Option.map_some]
      refine htarget.trans (Option.map_congr fun parts hparts => ?_)
      rw [storeRecord_partsAt (by omega) hsource hparts, hmap]
      rfl

/-- A line that is no comment does what its pieces say, or is bad. -/
theorem parseMapping_eq (hline : InMemory state.memory b line rest) :
    parseMapping buffer state (b + (line.takeWhile isBlank).length)
      (b + line.length) =
      (splitLine line).map (storeRecord buffer state b) := by
  have hsplit : line = line.takeWhile isBlank ++ line.dropWhile isBlank :=
    List.takeWhile_append_dropWhile.symm
  have hstart : InMemory state.memory (b + (line.takeWhile isBlank).length)
      (line.dropWhile isBlank) rest := by
    apply InMemory.advance
    rwa [← hsplit]
  rw [parseMapping, splitLine]
  by_cases htoken : token <+: line.dropWhile isBlank
  · simp only [hstart.startsWith_iff.2 htoken, htoken, if_true]
    obtain ⟨after, hafter⟩ := htoken
    rw [← hafter] at hstart
    have hgap := hstart.advance
    rw [hgap.skip_eq, ← hafter, List.drop_left]
    have hbody : InMemory state.memory (b + (line.takeWhile isBlank).length +
        token.length + (after.takeWhile isBlank).length)
          (after.dropWhile isBlank) rest := by
      apply InMemory.advance
      rwa [List.takeWhile_append_dropWhile]
    have hend : b + line.length =
      b + (line.takeWhile isBlank).length + token.length +
        (after.takeWhile isBlank).length +
          (after.dropWhile isBlank).length := by
      have hline := congrArg List.length hsplit
      have hrest := congrArg List.length
        (List.takeWhile_append_dropWhile (p := isBlank) (l := after))
      rw [← hafter, List.length_append, List.length_append] at hline
      rw [List.length_append] at hrest
      omega
    rw [hend]
    by_cases hslash : (after.dropWhile isBlank).head? = some '/'
    · have hcell := (hbody.cell_eq_iff (by decide) (by decide)).2 hslash
      rw [if_neg (not_not.2 hcell), if_pos hslash]
      exact parseBody_eq hbody hslash rfl rfl
    · have hcell := mt (hbody.cell_eq_iff (by decide) (by decide)).1 hslash
      rw [if_pos hcell, if_neg hslash, Option.map_none]
  · rw [if_neg (mt hstart.startsWith_iff.1 htoken), if_neg htoken,
      Option.map_none]

end Line

/-! ## One line -/

/-- What a good line at `b` does to the state. -/
def lineEffect (buffer : ℕ) (state : ParseState) (b : ℕ)
    (line : Text) : ParseState :=
  match splitLine line with
  | none => state
  | some parts => storeRecord buffer state b parts

/-- The loop is at a line: the text from there on is as it was, and the last record
lies before it. -/
structure AtLine (state : ParseState) (b : ℕ) (text : Text) : Prop where
  drop_eq : state.memory.drop b = text ++ [nul]
  no_nul : nul ∉ text
  prev_before : ∀ prev ∈ state.prev, prev + 5 < b

section Step

variable {buffer b : ℕ} {state : ParseState} {line later rest : Text}

/-- Where the loop finds the end of the line. -/
theorem lineEnd_eq (hline : InMemory state.memory b line rest) :
    (match strchr state.memory b '\n' with
      | some endLine => (endLine, some (endLine + 1))
      | none => (strend state.memory b, none)) =
      (b + line.length,
        if rest.head? = some '\n' then some (b + line.length + 1)
        else none) := by
  have hdrop := hline.drop_eq
  rcases hline.stop with hstop | hstop
  · obtain ⟨tail, rfl⟩ := List.head?_eq_some_iff.1 hstop
    rw [strchr_eq_some hdrop hline.no_nul hline.no_newline (by decide),
      if_pos hstop]
  · obtain ⟨tail, rfl⟩ := List.head?_eq_some_iff.1 hstop
    rw [strchr_eq_none hdrop hline.no_nul hline.no_newline,
      strend_eq hdrop hline.no_nul, if_neg (by rw [hstop]; decide)]

/-- The loop passes over comments. -/
theorem comment_iff (hline : InMemory state.memory b line rest) :
    (cell state.memory (b + (line.takeWhile isBlank).length) = '#' ∨
      b + (line.takeWhile isBlank).length = b + line.length) ↔
        IsComment line := by
  have hsplit : line.takeWhile isBlank ++ line.dropWhile isBlank = line :=
    List.takeWhile_append_dropWhile
  have hstart : InMemory state.memory (b + (line.takeWhile isBlank).length)
      (line.dropWhile isBlank) rest := by
    apply InMemory.advance
    rwa [hsplit]
  have hlength := congrArg List.length hsplit
  rw [List.length_append] at hlength
  have hend : b + (line.takeWhile isBlank).length = b + line.length ↔
      line.dropWhile isBlank = [] := by
    rw [← List.length_eq_zero_iff]
    omega
  rw [hstart.cell_eq_iff (by decide) (by decide), hend, isComment_iff, or_comm]

/-- What the loop does with a line. -/
theorem parseLine_eq (buffer : ℕ) (hline : InMemory state.memory b line rest) :
    parseLine buffer state b =
      if LineOk line then
        some (lineEffect buffer state b line,
          if rest.head? = some '\n' then some (b + line.length + 1) else none)
      else none := by
  rw [parseLine]
  rw [lineEnd_eq hline]
  simp only [hline.skip_eq, comment_iff hline, parseMapping_eq hline]
  by_cases hcomment : IsComment line
  · have hgood : LineOk line := .inl hcomment
    rw [if_pos hcomment, if_pos hgood, lineEffect,
      splitLine_of_isComment hcomment]
  · rw [if_neg hcomment]
    cases hsplit : splitLine line with
    | none =>
        have hbad : ¬ LineOk line := by
          rw [lineOk_iff, hsplit]
          simpa using hcomment
        rw [if_neg hbad]
        rfl
    | some parts =>
        have hgood : LineOk line := lineOk_iff.2 (.inr (by rw [hsplit]; rfl))
        rw [if_pos hgood, lineEffect, hsplit]
        rfl

/-- The pieces of a line lie within it. -/
theorem LineParts.bounds (parts : LineParts) (buffer b : ℕ) :
    b ≤ parts.mapAt buffer b ∧
      parts.mapAt buffer b + 5 < parts.sourceAt b ∧
      parts.sourceAt b + parts.source.length + parts.left.length <
        parts.targetAt b ∧
      parts.targetAt b + parts.target.length + parts.tail.length =
        b + parts.text.length := by
  have hbounds := typeAlign_bounds buffer (b + parts.lead.length)
  have htoken : token.length = 10 := rfl
  have harrow : arrow.length = 3 := rfl
  rw [LineParts.mapAt, LineParts.targetAt, LineParts.sourceAt]
  simp only [LineParts.text, LineParts.body, List.length_append]
  omega

/-- A mapping changes nothing behind its line. -/
theorem drop_recordMemory {memory : Memory} {parts : LineParts} {other : ℕ}
    (hother : b + parts.text.length < other) :
    (recordMemory buffer memory b parts).drop other = memory.drop other := by
  have hbounds := parts.bounds buffer b
  simp only [recordMemory]
  rw [drop_writeShort (by omega), List.drop_set_of_lt (by omega),
    drop_writeShort (by omega), List.drop_set_of_lt (by omega),
    drop_writeShort (by omega)]

theorem drop_storeRecord {parts : LineParts} {other : ℕ}
    (hprev : ∀ prev ∈ state.prev, prev + 5 < b)
    (hother : b + parts.text.length < other) :
    (storeRecord buffer state b parts).memory.drop other =
      state.memory.drop other := by
  rw [storeRecord, linkRecord]
  cases hlast : state.prev with
  | none => exact drop_recordMemory hother
  | some prev =>
      have hbefore := hprev prev hlast
      exact (drop_writeShort (by omega)).trans (drop_recordMemory hother)

theorem storeRecord_prev (parts : LineParts) :
    (storeRecord buffer state b parts).prev = some (parts.mapAt buffer b) := by
  rw [storeRecord, linkRecord]
  cases state.prev <;> rfl

/-- A line leaves the lines behind it as they were. -/
theorem AtLine.next (buffer : ℕ)
    (hat : AtLine state b (line ++ '\n' :: later)) :
    AtLine (lineEffect buffer state b line) (b + line.length + 1) later where
  drop_eq := by
    have hdrop : state.memory.drop (b + line.length + 1) = later ++ [nul] := by
      have hlater := @drop_add _ _ (line ++ ['\n']) (later ++ [nul])
        (hat.drop_eq.trans (by simp))
      simpa [Nat.add_assoc] using hlater
    rw [lineEffect]
    cases hsplit : splitLine line with
    | none => exact hdrop
    | some parts =>
        have htext := (splitLine_sound hsplit).2
        rw [drop_storeRecord hat.prev_before (by rw [htext]; omega), hdrop]
  no_nul := fun hmem => hat.no_nul (by simp [hmem])
  prev_before := by
    intro prev hprev
    rw [lineEffect] at hprev
    cases hsplit : splitLine line with
    | none =>
        rw [hsplit] at hprev
        have hbefore := hat.prev_before prev hprev
        omega
    | some parts =>
        have htext := (splitLine_sound hsplit).2
        have hbounds := parts.bounds buffer b
        rw [hsplit, storeRecord_prev, Option.mem_some_iff] at hprev
        rw [htext] at hbounds
        omega

end Step

end IbcsUs.Names
