import IbcsUs.Names.MapParse

/-!
# The whole map file

The loop of `filemap_parse` over all lines of a file.  It ends behind the last line
or at the first bad one, and what each line does depends only on the file, not on
what has become of the lines before it.
-/

namespace IbcsUs.Names

open IbcsUs.Paths IbcsUs.Strings

/-! ## All lines -/

/-- The lines of a file. -/
def mapLines (text : Text) : List Text := text.splitOn '\n'

/-- What good lines from `b` on do to the state. -/
def linesEffect (buffer : ℕ) (state : ParseState) (b : ℕ) :
    List Text → ParseState
  | [] => state
  | line :: lines =>
      linesEffect buffer (lineEffect buffer state b line)
        (b + line.length + 1) lines

/-- How the loop should end: at the first bad line, or behind the last. -/
def loopEnd (buffer lineNo : ℕ) (state : ParseState) (b : ℕ)
    (lines : List Text) :
    LoopEnd :=
  match lines.findIdx? fun line => ¬ LineOk line with
  | none => .done (linesEffect buffer state b lines)
  | some index => .badLine (lineNo + index + 1)

section Run

variable {buffer b lineNo fuel : ℕ} {state : ParseState}
variable {line later text : Text} {lines : List Text}

theorem mapLines_last (hline : '\n' ∉ line) : mapLines line = [line] :=
  List.splitOn_eq_singleton hline

theorem mapLines_append (hline : '\n' ∉ line) (later : Text) :
    mapLines (line ++ '\n' :: later) = line :: mapLines later :=
  List.splitOn_append_cons_self_of_not_mem hline later

theorem AtLine.last (hat : AtLine state b line) (hline : '\n' ∉ line) :
    InMemory state.memory b line [nul] :=
  ⟨hat.drop_eq, hline, hat.no_nul, .inr rfl⟩

theorem AtLine.first (hat : AtLine state b (line ++ '\n' :: later))
    (hline : '\n' ∉ line) :
    InMemory state.memory b line ('\n' :: (later ++ [nul])) where
  drop_eq := by rw [hat.drop_eq, List.append_assoc, List.cons_append]
  no_newline := hline
  no_nul := fun hmem => hat.no_nul (List.mem_append_left _ hmem)
  stop := .inl rfl

/-- A good line that is not the last. -/
theorem parseLine_good (buffer : ℕ)
    (hat : AtLine state b (line ++ '\n' :: later))
    (hline : '\n' ∉ line) (hgood : LineOk line) :
    parseLine buffer state b =
      some (lineEffect buffer state b line, some (b + line.length + 1)) := by
  rw [parseLine_eq buffer (hat.first hline), if_pos hgood]
  rfl

theorem loopEnd_bad (hbad : ¬ LineOk line) :
    loopEnd buffer lineNo state b (line :: lines) = .badLine (lineNo + 1) := by
  simp [loopEnd, List.findIdx?_cons, hbad]

theorem loopEnd_good (hgood : LineOk line) :
    loopEnd buffer lineNo state b (line :: lines) =
      loopEnd buffer (lineNo + 1) (lineEffect buffer state b line)
        (b + line.length + 1) lines := by
  simp only [loopEnd, List.findIdx?_cons, hgood, not_true_eq_false,
    decide_false, Bool.false_eq_true, if_false, linesEffect]
  cases lines.findIdx? fun line => ¬ LineOk line with
  | none => rfl
  | some index =>
      simp only [Option.map_some]
      congr 1
      omega

theorem loopEnd_first_bad {earlier rest : List Text}
    (hearlier : ∀ other ∈ earlier, LineOk other) (hbad : ¬ LineOk line) :
    loopEnd buffer lineNo state b (earlier ++ line :: rest) =
      .badLine (lineNo + earlier.length + 1) := by
  induction earlier generalizing lineNo state b with
  | nil => exact loopEnd_bad hbad
  | cons first earlier ih =>
      rw [List.cons_append, loopEnd_good (hearlier first List.mem_cons_self),
        ih fun other hother => hearlier other (List.mem_cons_of_mem _ hother),
        List.length_cons]
      congr 1
      omega

theorem loopEnd_all_good (hgood : ∀ line ∈ lines, LineOk line) :
    loopEnd buffer lineNo state b lines =
      .done (linesEffect buffer state b lines) := by
  induction lines generalizing lineNo state b with
  | nil => rfl
  | cons line lines ih =>
      rw [loopEnd_good (hgood line List.mem_cons_self),
        ih fun other hother =>
          hgood other (List.mem_cons_of_mem _ hother), linesEffect]

/-- The loop ends as it should, when it has a round for every line. -/
theorem parseLines_eq (hat : AtLine state b text)
    (hfuel : (mapLines text).length ≤ fuel) :
    parseLines buffer fuel lineNo state b =
      loopEnd buffer lineNo state b (mapLines text) := by
  induction fuel generalizing lineNo state b text with
  | zero =>
      have hne : mapLines text ≠ [] := List.splitOn_ne_nil _ _
      exact absurd (List.length_eq_zero_iff.1 (Nat.le_zero.1 hfuel)) hne
  | succ fuel ih =>
      rw [parseLines]
      rcases split_cases '\n' text with hlast | ⟨line, later, hline, rfl⟩
      · rw [mapLines_last hlast, parseLine_eq buffer (hat.last hlast)]
        by_cases hgood : LineOk text
        · rw [if_pos hgood, loopEnd_good hgood]
          rfl
        · rw [if_neg hgood, loopEnd_bad hgood]
      · rw [mapLines_append hline, parseLine_eq buffer (hat.first hline)]
        by_cases hgood : LineOk line
        · rw [if_pos hgood, loopEnd_good hgood]
          apply ih (hat.next buffer)
          simpa [mapLines_append hline] using hfuel
        · rw [if_neg hgood, loopEnd_bad hgood]

/-- The lines that have been read do not change how the later ones are: they stand
in memory as in the file, and the loop goes on with them. -/
theorem parseLines_append (buffer : ℕ) {earlier : Text}
    (hat : AtLine state b (earlier ++ '\n' :: later))
    (hgood : ∀ line ∈ mapLines earlier, LineOk line) :
    ∃ next, AtLine next (b + earlier.length + 1) later ∧ ∀ fuel lineNo,
      parseLines buffer (fuel + (mapLines earlier).length) lineNo state b =
        parseLines buffer fuel (lineNo + (mapLines earlier).length) next
          (b + earlier.length + 1) := by
  generalize hlines : mapLines earlier = lines at hgood ⊢
  induction lines generalizing state b earlier with
  | nil => exact absurd hlines (List.splitOn_ne_nil _ _)
  | cons first lines ih =>
      rcases split_cases '\n' earlier with hlast | ⟨line, rest, hline, rfl⟩
      · rw [mapLines_last hlast] at hlines
        obtain ⟨rfl, rfl⟩ := List.cons.inj hlines
        have hstep := parseLine_good buffer hat hlast
          (hgood earlier List.mem_cons_self)
        refine ⟨_, hat.next buffer, fun fuel lineNo => ?_⟩
        rw [List.length_singleton, parseLines, hstep]
      · rw [mapLines_append hline] at hlines
        obtain ⟨rfl, rfl⟩ := List.cons.inj hlines
        rw [List.append_assoc, List.cons_append] at hat
        have hstep := parseLine_good buffer hat hline
          (hgood line List.mem_cons_self)
        obtain ⟨next, hnext, hrun⟩ := ih (hat.next buffer) rfl
          fun other hother => hgood other (List.mem_cons_of_mem _ hother)
        have haddress : b + line.length + 1 + rest.length + 1 =
            b + (line ++ '\n' :: rest).length + 1 := by
          rw [List.length_append, List.length_cons]
          omega
        rw [haddress] at hnext hrun
        refine ⟨next, hnext, fun fuel lineNo => ?_⟩
        rw [List.length_cons, ← Nat.add_assoc, parseLines, hstep]
        exact (hrun fuel (lineNo + 1)).trans
          (by rw [Nat.add_right_comm, Nat.add_assoc])

theorem mapLines_length_le (text : Text) :
    (mapLines text).length ≤ text.length + 1 := by
  induction text with
  | nil => simp [mapLines]
  | cons c text ih =>
      rw [mapLines] at ih ⊢
      rw [List.splitOn_cons_eq_if_modifyHead]
      split
      · simpa using ih
      · simp only [List.length_modifyHead, List.length_cons]
        omega

theorem atLine_start (hnul : nul ∉ text) :
    AtLine ⟨text ++ [nul], none, none⟩ 0 text :=
  ⟨rfl, hnul, fun _ hprev => absurd hprev (Option.not_mem_none _)⟩

end Run

/-! ## The file -/

section File

variable {buffer : ℕ} {mapFilename : String} {text : Text}

theorem parseLines_start (hnul : nul ∉ text) :
    parseLines buffer (text.length + 1) 0 ⟨text ++ [nul], none, none⟩ 0 =
      loopEnd buffer 0 ⟨text ++ [nul], none, none⟩ 0 (mapLines text) :=
  parseLines_eq (atLine_start hnul) (mapLines_length_le text)

/-- A file with a bad line. -/
theorem filemapParse_bad (hnul : nul ∉ text) {earlier rest : List Text}
    {line : Text}
    (hlines : mapLines text = earlier ++ line :: rest)
    (hearlier : ∀ other ∈ earlier, LineOk other) (hbad : ¬ LineOk line) :
    filemapParse mapFilename buffer text =
      some (ibcsFatal (badLineMessage mapFilename (earlier.length + 1))) := by
  have hne : text.length ≠ 0 := by
    intro hzero
    obtain rfl := List.length_eq_zero_iff.1 hzero
    have hline : line ∈ mapLines [] := by simp [hlines]
    obtain rfl : line = [] := by simpa [mapLines] using hline
    exact hbad (by decide)
  rw [filemapParse, if_neg hne, parseLines_start hnul, hlines,
    loopEnd_first_bad hearlier hbad, Nat.zero_add]

/-- A file without bad lines. -/
theorem filemapParse_good (hnul : nul ∉ text) (hne : text ≠ [])
    (hgood : ∀ line ∈ mapLines text, LineOk line) :
    filemapParse mapFilename buffer text =
      some ⟨.returned 0, "",
        (linesEffect buffer ⟨text ++ [nul], none, none⟩ 0
          (mapLines text)).filemap,
        (linesEffect buffer ⟨text ++ [nul], none, none⟩ 0
          (mapLines text)).memory⟩ := by
  rw [filemapParse, if_neg (mt List.length_eq_zero_iff.1 hne),
    parseLines_start hnul, loopEnd_all_good hgood]

theorem exists_first_bad {lines : List Text}
    (hbad : ¬ ∀ line ∈ lines, LineOk line) :
    ∃ earlier line rest, lines = earlier ++ line :: rest ∧
      (∀ other ∈ earlier, LineOk other) ∧ ¬ LineOk line := by
  induction lines with
  | nil => exact absurd (fun _ hmem => absurd hmem List.not_mem_nil) hbad
  | cons first lines ih =>
      by_cases hfirst : LineOk first
      · rw [List.forall_mem_cons, not_and] at hbad
        obtain ⟨earlier, line, rest, rfl, hearlier, hline⟩ := ih (hbad hfirst)
        exact ⟨first :: earlier, line, rest, rfl,
          List.forall_mem_cons.2 ⟨hfirst, hearlier⟩, hline⟩
      · exact ⟨[], first, lines, rfl,
          fun _ hmem => absurd hmem List.not_mem_nil, hfirst⟩

/-- A call ends, and returns when every line is as the format has it. -/
theorem filemapParse_returns_iff (hnul : nul ∉ text) :
    ∃ outcome, filemapParse mapFilename buffer text = some outcome ∧
      (outcome.finish = .returned 0 ↔ ∀ line ∈ mapLines text, LineOk line) := by
  by_cases hgood : ∀ line ∈ mapLines text, LineOk line
  · by_cases hne : text = []
    · subst hne
      exact ⟨_, rfl, iff_of_true rfl hgood⟩
    · exact ⟨_, filemapParse_good hnul hne hgood, iff_of_true rfl hgood⟩
  · obtain ⟨earlier, line, rest, hlines, hearlier, hbad⟩ :=
      exists_first_bad hgood
    refine ⟨_, filemapParse_bad hnul hlines hearlier hbad,
      iff_of_false ?_ hgood⟩
    exact fun hfinish => Finish.noConfusion hfinish

end File

/-- A map file is accepted when every line is as the format has it.  Otherwise the
first line that is not is reported and the program ends, without a map.  The lines
read so far do not change how the later ones are read, although they are overwritten
in the same memory. -/
theorem filemapParse_settles (mapFilename : String) (buffer : ℕ) (text : Text)
    (hnul : nul ∉ text) :
    ∃ outcome, filemapParse mapFilename buffer text = some outcome ∧
      (outcome.finish = .returned 0 ↔ ∀ line ∈ mapLines text, LineOk line) ∧
      (∀ earlier line rest, mapLines text = earlier ++ line :: rest →
        (∀ other ∈ earlier, LineOk other) → ¬ LineOk line →
          outcome.finish = .exited 1 ∧
          outcome.stderr =
            badLineMessage mapFilename (earlier.length + 1) ++ "\n" ∧
          outcome.filemap = none) ∧
      ∀ earlier later, text = earlier ++ '\n' :: later →
        (∀ line ∈ mapLines earlier, LineOk line) →
          ∃ state, state.memory.drop (earlier.length + 1) = later ++ [nul] ∧
            ∀ fuel, parseLines buffer (fuel + (mapLines earlier).length) 0
                ⟨text ++ [nul], none, none⟩ 0 =
              parseLines buffer fuel (mapLines earlier).length state
                (earlier.length + 1) := by
  obtain ⟨outcome, houtcome, hreturns⟩ :=
    @filemapParse_returns_iff buffer mapFilename text hnul
  refine ⟨outcome, houtcome, hreturns, ?_, ?_⟩
  · intro earlier line rest hlines hearlier hbad
    rw [filemapParse_bad hnul hlines hearlier hbad] at houtcome
    obtain rfl := Option.some.inj houtcome
    exact ⟨rfl, rfl, rfl⟩
  · rintro earlier later rfl hgood
    obtain ⟨state, hat, hrun⟩ :=
      parseLines_append buffer (atLine_start hnul) hgood
    rw [Nat.zero_add] at hat hrun
    refine ⟨state, hat.drop_eq, fun fuel => ?_⟩
    rw [hrun fuel 0, Nat.zero_add]

/-- A file whose second line is no mapping. -/
theorem filemapParse_settles_second_line :
    ∃ outcome, filemapParse "map" 0 ['#', '\n', 'x'] = some outcome ∧
      outcome.finish = .exited 1 ∧
      outcome.stderr = badLineMessage "map" 2 ++ "\n" := by
  obtain ⟨outcome, houtcome, _, hbad, _⟩ :=
    filemapParse_settles "map" 0 ['#', '\n', 'x'] (by decide)
  obtain ⟨hfinish, hstderr, _⟩ :=
    hbad [['#']] ['x'] [] (by decide) (by decide) (by decide)
  exact ⟨outcome, houtcome, hfinish, hstderr⟩

/-- A bad line does not make the call return `-EILSEQ`: the program ends. -/
theorem bad_line_does_not_return :
    ¬ (∀ line ∈ mapLines ['x'], LineOk line) ∧
      (filemapParse "map" 0 ['x']).map ParseOutcome.finish = some (.exited 1) ∧
      (filemapParse "map" 0 ['x']).map ParseOutcome.finish ≠
        some (.returned (-84)) := by
  decide

end IbcsUs.Names
