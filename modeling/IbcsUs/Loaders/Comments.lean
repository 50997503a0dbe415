import IbcsUs.Core.Strings

/-!
# The comments of a COFF file

`coff_parse_comments` looks for clues to the system a program was compiled on.  It
reads the section page by page and goes through a page string by string, with a pointer
and with a count of the bytes.  The count is raised twice behind every string, once in
the body of the loop and once by the loop itself, so that it runs ahead of the pointer
by the number of strings that have ended; it decides which strings the page still holds
and where the next page begins.
-/

namespace IbcsUs.Loaders

open IbcsUs.Strings

/-- `struct coff_clue`. -/
structure CoffClue where
  terminal : Bool
  len : ℤ
  text : List Char
  maskAnd : BitVec 32
  maskOr : BitVec 32

/-- `SHORT_INODE`. -/
def shortInode : BitVec 32 := 0x1000000#32

/-- `PER_SCOSVR3`. -/
def perScosvr3 : BitVec 32 := 0x7000003#32

/-- `PER_WYSEV386`. -/
def perWysev386 : BitVec 32 := 0x5000004#32

/-- `PER_ISCR4`. -/
def perIscr4 : BitVec 32 := 0x4000005#32

/-- `coff_clues`. -/
def coffClues : List CoffClue := [
  ⟨true, 36, "@(#) UNIX System V/386 Release 3.2.1".toList, 0, perWysev386⟩,
  ⟨true, 23, "@(#) crt1.s 1.8 89/05/30".toList, 0, perScosvr3⟩,
  ⟨true, 16, "@(#)SCO UNIX 3.2".toList, 0, perScosvr3⟩,
  ⟨true, 18, "\"@(#) SCO UNIX 3.2".toList, 0, perScosvr3⟩,
  ⟨true, 17, "@(#) SCO UNIX 3.2".toList, 0, perScosvr3⟩,
  ⟨true, 11, "@(#)SCO 3.2".toList, 0, perScosvr3⟩,
  ⟨false, 32, "@(#) crt1.s.source 20.1 94/12/04".toList, 0, perScosvr3⟩,
  ⟨true, 13, "ods_30_compat".toList, ~~~0, shortInode⟩,
  ⟨true, -1, "INTERACTIVE".toList, 0, perIscr4⟩,
  ⟨false, 0, [], 0, 0⟩]

/-- `strncmp` of the string at an address with a text, for equality. -/
def strncmpEq (memory : Memory) (address : ℕ) (text : List Char) (len : ℕ) : Bool :=
  (stringAt memory address).take len = text.take len

/-- Whether a clue is found in the string at an address: a negative length asks for
`strstr`. -/
def CoffClue.found (clue : CoffClue) (memory : Memory) (address : ℕ) : Bool :=
  clue.len < 0 && (strstr memory address clue.text).isSome ||
    0 < clue.len && strncmpEq memory address clue.text clue.len.toNat

/-- What the search has come to.  `compared` is not in the code: it records the strings
that have been compared, by their place in the file, as far as they have been read. -/
structure Search where
  personality : BitVec 32
  hits : ℕ
  stopped : Bool
  failed : Bool
  compared : List (ℕ × List Char)
  deriving DecidableEq

/-- The loop over the clues, up to the end of the table. -/
def compareClues (memory : Memory) (address : ℕ) : List CoffClue → Search → Search
  | [], search => search
  | clue :: clues, search =>
      if clue.len = 0 then search
      else if clue.found memory address then
        let search :=
          { search with
            personality := search.personality &&& clue.maskAnd ||| clue.maskOr }
        if clue.terminal then { search with stopped := true }
        else compareClues memory address clues { search with hits := search.hits + 1 }
      else compareClues memory address clues search

/-- `PAGE_SIZE`. -/
def pageSize : ℕ := 4096

/-- `while (*p && count < err)`: how far the pointer and the count move. -/
def skipString (err : ℕ) : List Char → ℕ → ℕ
  | [], _ => 0
  | c :: rest, count =>
      if c ≠ nul ∧ count < err then skipString err rest (count + 1) + 1 else 0

/-- What of the string at a pointer has been read, with its end if that has been. -/
def readText (page : Memory) (err p : ℕ) : List Char :=
  let text := (page.take err).drop p
  text.take (text.idxOf nul + 1)

/-- The search in a page, and where the last string that has ended in it ends. -/
structure PageSearch where
  start : ℕ
  search : Search

/-- The loop over a page of `err` bytes that was read at `offset`.  While a string is
compared the last byte of the page is the terminator. -/
def searchPage (clues : List CoffClue) (page : Memory) (offset err p count start : ℕ)
    (search : Search) : PageSearch :=
  if count < err then
    let search :=
      compareClues (page.set (pageSize - 1) nul) p clues
        { search with compared := search.compared ++ [(offset + p, readText page err p)] }
    if search.stopped then ⟨start, search⟩
    else
      let skipped := skipString err (page.drop p) count
      if count + skipped < err then
        -- `count++` here, and `count++` of the loop
        searchPage clues page offset err (p + skipped + 1) (count + skipped + 1 + 1)
          (count + skipped + 1) search
      else
        searchPage clues page offset err (p + skipped) (count + skipped + 1) start search
  else ⟨start, search⟩
termination_by err - count

/-- The loop over the pages of a section.  `kernelRead` answers a place in the file, a
number of bytes and the page as it was. -/
def searchPages (kernelRead : ℕ → ℕ → Memory → ℤ × Memory) (clues : List CoffClue)
    (offset nbytes : ℕ) (page : Memory) (search : Search) : Search :=
  if nbytes = 0 then search
  else
    let (err, page) := kernelRead offset (min nbytes pageSize) page
    if err ≤ 0 then { search with failed := true }
    else
      let found := searchPage clues page offset err.toNat 0 0 0 search
      if found.search.stopped then found.search
      else
        let start := if found.start = 0 then err.toNat else found.start
        searchPages kernelRead clues (offset + start) (nbytes - start) page found.search
termination_by nbytes
decreasing_by split <;> omega

/-- The most that is read of a section. -/
def commentLimit : ℕ := 8192

/-- `coff_parse_comments`: the search, whose `personality` is left in the argument. -/
def coffParseComments (kernelRead : ℕ → ℕ → Memory → ℤ × Memory)
    (clues : List CoffClue) (scnptr size : ℕ) (page : Memory) (personality : BitVec 32) :
    Search :=
  searchPages kernelRead clues scnptr (min size commentLimit) page
    ⟨personality, 0, false, false, []⟩

/-- The answer of `coff_parse_comments`. -/
def Search.result (search : Search) : ℕ :=
  if search.failed then 0 else if search.stopped then 1 else search.hits

/-! ## What is asked for -/

/-- The bytes of a list of strings. -/
def layout (strings : List (List Char)) : List Char :=
  strings.flatMap (· ++ [nul])

/-- A section of strings shorter than a page, in a file that can be read. -/
structure CommentSection where
  kernelRead : ℕ → ℕ → Memory → ℤ × Memory
  scnptr : ℕ
  strings : List (List Char)
  no_nul : ∀ text ∈ strings, nul ∉ text
  short : ∀ text ∈ strings, text.length < pageSize
  delivers : ∀ place count page, 0 < count → place + count ≤ (layout strings).length →
    page.length = pageSize →
    kernelRead (scnptr + place) count page =
      ((count : ℤ), ((layout strings).drop place).take count ++ page.drop count)

/-- The page that the kernel hands out, with whatever is in it. -/
abbrev FreePage := { page : Memory // page.length = pageSize }

/-- The clues that are found in a string, up to the first terminal one. -/
def cluesFound (text : List Char) : List CoffClue → List CoffClue
  | [] => []
  | clue :: clues =>
      if clue.len = 0 then []
      else if clue.found (text ++ [nul]) 0 then
        clue :: if clue.terminal then [] else cluesFound text clues
      else cluesFound text clues

/-- Whether a string ends the search. -/
def endsSearch (clues : List CoffClue) (text : List Char) : Bool :=
  (cluesFound text clues).any CoffClue.terminal

/-- The strings that start before a limit, with their places, up to the first one that
ends the search. -/
def wantedStrings (clues : List CoffClue) (limit : ℕ) :
    ℕ → List (List Char) → List (ℕ × List Char)
  | _, [] => []
  | place, text :: strings =>
      if place < limit then
        (place, text) ::
          if endsSearch clues text then []
          else wantedStrings clues limit (place + text.length + 1) strings
      else []

/-- The fold over the clues that are found in some strings. -/
def foldClues (clues : List CoffClue) (texts : List (ℕ × List Char))
    (personality : BitVec 32) : BitVec 32 :=
  (texts.flatMap fun entry => cluesFound entry.2 clues).foldl
    (fun personality clue => personality &&& clue.maskAnd ||| clue.maskOr) personality

/-- Each string that starts in the first 8192 bytes has been compared as a whole, in
order and once, up to the first terminal clue, and the personality is what the clues
make of it. -/
structure Complete (clues : List CoffClue) (sect : CommentSection)
    (personality : BitVec 32) (search : Search) : Prop where
  compared : search.compared =
    (wantedStrings clues (sect.scnptr + commentLimit) sect.scnptr sect.strings).map
      fun entry => (entry.1, entry.2 ++ [nul])
  personality : search.personality =
    foldClues clues
      (wantedStrings clues (sect.scnptr + commentLimit) sect.scnptr sect.strings)
      personality

/-! ## When the count is in step -/

/-- The count is in step with the strings from the one at `p` on, in a page that has
`left` bytes of the section from its start on and in which `ended` strings have ended.
A string that is compared has been read as a whole, and then it ends the search; or it
ends before the count is through with the page; or it does not, and its length is such
that the next page begins behind it all the same.  A string that is not compared is the
second one of its page. -/
inductive InStep (clues : List CoffClue) : ℕ → ℕ → ℕ → List (List Char) → Prop
  | done (strings : List (List Char)) : InStep clues 0 0 0 strings
  | stops {left p ended : ℕ} {text : List Char} (strings : List (List Char))
      (hcompared : p + ended < min left pageSize)
      (hwhole : p + text.length < min left pageSize)
      (hends : endsSearch clues text = true) :
      InStep clues left p ended (text :: strings)
  | closes {left p ended : ℕ} {text : List Char} {strings : List (List Char)}
      (hcloses : p + ended + text.length < min left pageSize)
      (hrest : InStep clues left (p + text.length + 1) (ended + 1) strings) :
      InStep clues left p ended (text :: strings)
  | refills {left p ended : ℕ} {text : List Char} {strings : List (List Char)}
      (hcompared : p + ended < min left pageSize)
      (hwhole : p + text.length < min left pageSize)
      (hopen : min left pageSize ≤ p + ended + text.length)
      (hlength : ended = text.length + 2)
      (hrest : InStep clues (left - (p + text.length + 1)) 0 0 strings) :
      InStep clues left p ended (text :: strings)
  | turns {left p : ℕ} {strings : List (List Char)} (hfull : min left pageSize ≤ p + 1)
      (hrest : InStep clues (left - p) 0 0 strings) : InStep clues left p 1 strings

section InStep

variable {clues : List CoffClue} {left p ended : ℕ} {text : List Char}
variable {strings : List (List Char)}

/-- Behind a string that the count closes, the next one is in step. -/
theorem inStep_closes_iff (hlast : ¬ endsSearch clues text = true)
    (hcloses : p + ended + text.length < min left pageSize) :
    InStep clues left p ended (text :: strings) ↔
      InStep clues left (p + text.length + 1) (ended + 1) strings := by
  refine ⟨fun hstep => ?_, .closes hcloses⟩
  cases hstep with
  | done => omega
  | stops _ _ _ hstops => exact absurd hstops hlast
  | closes _ hrest => exact hrest
  | refills _ _ hopen => omega
  | turns => omega

/-- A string that the count does not close must be as long as to make the next page begin
behind it. -/
theorem inStep_open_iff (hlast : ¬ endsSearch clues text = true)
    (hcompared : p + ended < min left pageSize)
    (hwhole : p + text.length < min left pageSize)
    (hopen : min left pageSize ≤ p + ended + text.length) :
    InStep clues left p ended (text :: strings) ↔ ended = text.length + 2 ∧
      InStep clues (left - (p + text.length + 1)) 0 0 strings := by
  refine ⟨fun hstep => ?_, fun ⟨hlength, hrest⟩ =>
    .refills hcompared hwhole hopen hlength hrest⟩
  cases hstep with
  | done => omega
  | stops _ _ _ hstops => exact absurd hstops hlast
  | closes hcloses => omega
  | refills _ _ _ hlength hrest => exact ⟨hlength, hrest⟩
  | turns => omega

/-- A string that is not compared must be the second one of its page. -/
theorem inStep_passed_iff (hended : 0 < ended) (hthrough : min left pageSize ≤ p + ended) :
    InStep clues left p ended strings ↔
      ended = 1 ∧ InStep clues (left - p) 0 0 strings := by
  constructor
  · intro hstep
    cases hstep with
    | done => omega
    | stops _ hcompared => omega
    | closes hcloses => omega
    | refills hcompared => omega
    | turns _ hrest => exact ⟨rfl, hrest⟩
  · rintro ⟨rfl, hrest⟩
    exact .turns hthrough hrest

end InStep

/-! ## One string -/

section Text

variable {memory : Memory} {address : ℕ} {text : List Char} {clues : List CoffClue}

theorem isSome_strstr (memory : Memory) (address : ℕ) (needle : List Char) :
    (strstr memory address needle).isSome =
      ((List.range ((stringAt memory address).length + 1)).find? fun index =>
        needle.isPrefixOf ((stringAt memory address).drop index)).isSome := by
  rw [strstr, Option.isSome_map]

/-- A clue is found in a string wherever the string lies. -/
theorem found_congr (clue : CoffClue) {other : Memory} {place : ℕ}
    (hsame : stringAt memory address = stringAt other place) :
    clue.found memory address = clue.found other place := by
  rw [CoffClue.found, CoffClue.found, isSome_strstr, isSome_strstr, strncmpEq, strncmpEq,
    hsame]

theorem stringAt_terminated (hnul : nul ∉ text) : stringAt (text ++ [nul]) 0 = text := by
  have hdrop : (text ++ [nul]).drop 0 = text ++ [nul] := List.drop_zero
  rw [stringAt_append hdrop hnul]
  simp

theorem compareClues_compared (memory : Memory) (address : ℕ) (clues : List CoffClue)
    (search : Search) :
    (compareClues memory address clues search).compared = search.compared := by
  induction clues generalizing search with
  | nil => rfl
  | cons clue clues ih =>
      rw [compareClues]
      split_ifs
      · rfl
      · rfl
      · exact ih _
      · exact ih _

/-- What the loop over the clues makes of a string. -/
theorem compareClues_eq (hnul : nul ∉ text) (hstring : stringAt memory address = text)
    (search : Search) (hstopped : search.stopped = false) :
    (compareClues memory address clues search).stopped = endsSearch clues text ∧
      (compareClues memory address clues search).personality =
        (cluesFound text clues).foldl
          (fun personality clue => personality &&& clue.maskAnd ||| clue.maskOr)
          search.personality := by
  have hfound (clue : CoffClue) :
      clue.found memory address = clue.found (text ++ [nul]) 0 :=
    found_congr clue (hstring.trans (stringAt_terminated hnul).symm)
  induction clues generalizing search with
  | nil => exact ⟨hstopped, rfl⟩
  | cons clue clues ih =>
      rw [compareClues, endsSearch, cluesFound, hfound]
      by_cases hlen : clue.len = 0
      · simp only [if_pos hlen]
        exact ⟨hstopped, rfl⟩
      simp only [if_neg hlen]
      by_cases hclue : clue.found (text ++ [nul]) 0 = true
      · simp only [if_pos hclue]
        by_cases hterminal : clue.terminal = true
        · simp [hterminal]
        · obtain ⟨hends, hfold⟩ := ih
            ⟨search.personality &&& clue.maskAnd ||| clue.maskOr, search.hits + 1,
              search.stopped, search.failed, search.compared⟩ hstopped
          rw [if_neg hterminal, if_neg hterminal, List.any_cons, List.foldl_cons,
            Bool.eq_false_of_not_eq_true hterminal, Bool.false_or]
          exact ⟨hends, hfold⟩
      · simp only [if_neg hclue]
        exact ih search hstopped

end Text

/-! ## One page -/

section Page

variable {page : Memory} {err p : ℕ} {text rest : List Char}

/-- What has been read of a string is cut off where the page ends. -/
theorem readText_eq (hread : (page.take err).drop p = (text ++ nul :: rest).take (err - p))
    (hnul : nul ∉ text) : readText page err p = (text ++ [nul]).take (err - p) := by
  unfold readText
  dsimp only
  rw [hread]
  by_cases hwhole : text.length < err - p
  · obtain ⟨more, hmore⟩ := Nat.exists_eq_add_of_lt hwhole
    have hcut : (text ++ nul :: rest).take (err - p) = text ++ nul :: rest.take more := by
      rw [List.take_append, List.take_of_length_le hwhole.le]
      have hleft : err - p - text.length = more + 1 := by omega
      rw [hleft, List.take_succ_cons]
    have hplace : (text ++ nul :: rest.take more).idxOf nul = text.length := by
      rw [List.idxOf_append_of_notMem hnul, List.idxOf_cons_self, Nat.add_zero]
    rw [hcut, hplace, List.take_of_length_le (i := err - p)
      (by rw [List.length_append, List.length_singleton]; omega)]
    rw [List.append_cons text nul (rest.take more), List.take_left'
      (by rw [List.length_append, List.length_singleton])]
  · have hle : err - p ≤ text.length := Nat.le_of_not_lt hwhole
    rw [List.take_append_of_le_length hle, List.take_append_of_le_length hle]
    have hnot : nul ∉ text.take (err - p) := fun hmem => hnul (List.mem_of_mem_take hmem)
    rw [List.idxOf_eq_length hnot, List.take_of_length_le (Nat.le_succ _)]

/-- A string that has been read as a whole is what the page holds. -/
theorem holds_of_read (hread : (page.take err).drop p = (text ++ nul :: rest).take (err - p))
    (hwhole : p + text.length < err) :
    ∃ more, page.drop p = text ++ nul :: more := by
  obtain ⟨count, hcount⟩ := Nat.exists_eq_add_of_lt hwhole
  have hcut : (text ++ nul :: rest).take (err - p) = text ++ nul :: rest.take count := by
    have hle : text.length ≤ err - p := by omega
    have hleft : err - p - text.length = count + 1 := by omega
    rw [List.take_append, List.take_of_length_le hle, hleft, List.take_succ_cons]
  rw [hcut, List.drop_take] at hread
  refine ⟨rest.take count ++ (page.drop p).drop (err - p), ?_⟩
  rw [← List.cons_append, ← List.append_assoc, ← hread, List.take_append_drop]

/-- While it is compared, a string that has been read as a whole is what it is. -/
theorem stringAt_compared {more : List Char} (hpage : page.drop p = text ++ nul :: more)
    (hnul : nul ∉ text) (hlast : p + text.length ≤ pageSize - 1) :
    stringAt (page.set (pageSize - 1) nul) p = text := by
  have hholds : Holds page p text := by
    refine ⟨hnul, ?_⟩
    rw [hpage, List.append_cons text nul more]
    exact List.prefix_append _ _
  obtain hinside | hlast := hlast.lt_or_eq
  · exact (hholds.set (.inr hinside)).stringAt_eq
  · have hset : page.set (pageSize - 1) nul = page := by
      rw [← hlast]
      have hcell : page[p + text.length]? = some nul := by
        rw [← List.getElem?_drop, hpage]
        simp
      obtain ⟨hlt, hget⟩ := List.getElem?_eq_some_iff.1 hcell
      rw [← hget, List.set_getElem_self]
    rw [hset]
    exact hholds.stringAt_eq

/-- The inner loop stops at the end of the string or when the count is through. -/
theorem skipString_eq {bytes : List Char} {room count : ℕ}
    (hbytes : bytes.take room = (text ++ nul :: rest).take room) (hnul : nul ∉ text)
    (hroom : err - count ≤ room) :
    skipString err bytes count = min text.length (err - count) := by
  induction text generalizing bytes room count with
  | nil =>
      rw [List.length_nil, Nat.zero_min]
      cases bytes with
      | nil => rfl
      | cons c bytes =>
          rw [skipString]
          cases room with
          | zero => rw [if_neg (by omega)]
          | succ room =>
              rw [List.nil_append, List.take_succ_cons, List.take_succ_cons] at hbytes
              rw [(List.cons.inj hbytes).1, if_neg (fun hboth => hboth.1 rfl)]
  | cons c text ih =>
      obtain ⟨hne, hrest⟩ := not_or.1 (mt List.mem_cons.2 hnul)
      by_cases hthrough : count < err
      · have hpos : room ≠ 0 := by omega
        obtain ⟨more, rfl⟩ := Nat.exists_eq_succ_of_ne_zero hpos
        cases bytes with
        | nil => simp at hbytes
        | cons d bytes =>
            rw [List.cons_append, List.take_succ_cons, List.take_succ_cons,
              List.cons.injEq] at hbytes
            obtain ⟨rfl, hbytes⟩ := hbytes
            have hless : err - (count + 1) ≤ more := by omega
            rw [skipString, if_pos ⟨Ne.symm hne, hthrough⟩,
              ih hbytes hrest hless, List.length_cons]
            omega
      · have hnone : err - count = 0 := by omega
        rw [hnone, Nat.min_zero]
        cases bytes with
        | nil => rfl
        | cons d bytes => rw [skipString, if_neg (fun hboth => hthrough hboth.2)]

end Page

/-! ## What has been compared stays compared -/

section Record

variable {clues : List CoffClue} {page : Memory} {offset err p count start nbytes : ℕ}
variable {kernelRead : ℕ → ℕ → Memory → ℤ × Memory}

/-- A page begins with the comparison at its pointer. -/
theorem searchPage_records (clues : List CoffClue) (page : Memory)
    (offset err p count start : ℕ) (search : Search) :
    search.compared ++
        (if count < err then [(offset + p, readText page err p)] else []) <+:
      (searchPage clues page offset err p count start search).search.compared := by
  induction hgap : err - count using Nat.strong_induction_on
    generalizing p count start search with
  | _ gap ih =>
      rw [searchPage]
      by_cases hcount : count < err
      · rw [if_pos hcount, if_pos hcount]
        have hkeep := compareClues_compared (page.set (pageSize - 1) nul) p clues
          { search with
            compared := search.compared ++ [(offset + p, readText page err p)] }
        dsimp only
        split_ifs
        · rw [hkeep]
        · have hlater := ih _ (by omega) (p + skipString err (page.drop p) count + 1)
            (count + skipString err (page.drop p) count + 1 + 1)
            (count + skipString err (page.drop p) count + 1)
            (compareClues (page.set (pageSize - 1) nul) p clues
              { search with
                compared := search.compared ++ [(offset + p, readText page err p)] }) rfl
          rw [hkeep] at hlater
          exact (List.prefix_append _ _).trans hlater
        · have hlater := ih _ (by omega) (p + skipString err (page.drop p) count)
            (count + skipString err (page.drop p) count + 1) start
            (compareClues (page.set (pageSize - 1) nul) p clues
              { search with
                compared := search.compared ++ [(offset + p, readText page err p)] }) rfl
          rw [hkeep] at hlater
          exact (List.prefix_append _ _).trans hlater
      · rw [if_neg hcount, if_neg hcount, List.append_nil]

theorem searchPage_prefix (clues : List CoffClue) (page : Memory)
    (offset err p count start : ℕ) (search : Search) :
    search.compared <+:
      (searchPage clues page offset err p count start search).search.compared :=
  (List.prefix_append _ _).trans (searchPage_records _ _ _ _ _ _ _ _)

theorem searchPages_prefix (kernelRead : ℕ → ℕ → Memory → ℤ × Memory)
    (clues : List CoffClue) (offset nbytes : ℕ) (page : Memory) (search : Search) :
    search.compared <+:
      (searchPages kernelRead clues offset nbytes page search).compared := by
  induction nbytes using Nat.strong_induction_on generalizing offset page search with
  | _ nbytes ih =>
      rw [searchPages]
      split
      · exact List.prefix_rfl
      · next hnonzero =>
        dsimp only
        split
        · exact List.prefix_rfl
        · next herr =>
          have hpage := searchPage_prefix clues
            (kernelRead offset (min nbytes pageSize) page).2 offset
            (kernelRead offset (min nbytes pageSize) page).1.toNat 0 0 0 search
          split
          · exact hpage
          · refine hpage.trans (ih _ ?_ _ _ _)
            split <;> omega

end Record

/-! ## A page of strings -/

/-- A page that was read from `place` on, with `left` bytes of the section left, and
holds the first of some strings at `p`. -/
structure AtString (sect : CommentSection) (page : Memory) (place left p : ℕ)
    (strings : List (List Char)) : Prop where
  inside : place + left ≤ (layout sect.strings).length
  pageLength : page.length = pageSize
  read : page.take (min left pageSize) =
    ((layout sect.strings).drop place).take (min left pageSize)
  here : (layout sect.strings).drop (place + p) = layout strings
  no_nul : ∀ text ∈ strings, nul ∉ text

section Strings

variable {sect : CommentSection} {clues : List CoffClue} {page : Memory}
variable {place left p ended start offset : ℕ} {text : List Char}
variable {strings : List (List Char)} {search : Search}

theorem layout_cons (text : List Char) (strings : List (List Char)) :
    layout (text :: strings) = text ++ nul :: layout strings := by
  rw [layout, List.flatMap_cons, List.append_assoc, List.singleton_append]
  rfl

theorem AtString.text_nul (hat : AtString sect page place left p (text :: strings)) :
    nul ∉ text := hat.no_nul text List.mem_cons_self

theorem AtString.text_read (hat : AtString sect page place left p (text :: strings)) :
    (page.take (min left pageSize)).drop p =
      (text ++ nul :: layout strings).take (min left pageSize - p) := by
  rw [hat.read, List.drop_take, List.drop_drop, hat.here, layout_cons]

theorem AtString.next (hat : AtString sect page place left p (text :: strings)) :
    AtString sect page place left (p + text.length + 1) strings where
  inside := hat.inside
  pageLength := hat.pageLength
  read := hat.read
  here := by
    have hhere := hat.here
    rw [layout_cons, List.append_cons text nul (layout strings)] at hhere
    have hnext := drop_add hhere
    rw [List.length_append, List.length_singleton] at hnext
    rw [← hnext]
    congr 1
    omega
  no_nul := fun other hother => hat.no_nul other (List.mem_cons_of_mem _ hother)

/-- There is a string wherever bytes of the section are left. -/
theorem AtString.nonempty (hat : AtString sect page place left p strings) (hp : p < left) :
    strings ≠ [] := by
  rintro rfl
  have hlength := congrArg List.length hat.here
  have hinside := hat.inside
  have hnone : (layout []).length = 0 := rfl
  rw [List.length_drop, hnone] at hlength
  omega

/-- The search with a string recorded, as far as it has been read. -/
def Search.record (search : Search) (place : ℕ) (text : List Char) : Search :=
  { search with compared := search.compared ++ [(place, text)] }

/-- One string of a page. -/
theorem searchPage_step (hat : AtString sect page place left p (text :: strings))
    (hcompared : p + ended < min left pageSize) :
    searchPage clues page offset (min left pageSize) p (p + ended) start search =
      (let after := compareClues (page.set (pageSize - 1) nul) p clues
        (search.record (offset + p) ((text ++ [nul]).take (min left pageSize - p)))
      if after.stopped then ⟨start, after⟩
      else if p + ended + text.length < min left pageSize then
        searchPage clues page offset (min left pageSize) (p + text.length + 1)
          (p + text.length + 1 + (ended + 1)) (p + ended + text.length + 1) after
      else ⟨start, after⟩) := by
  have hroom : min left pageSize - (p + ended) ≤ min left pageSize - p := by omega
  have hread := hat.text_read
  have hskip := skipString_eq (List.drop_take ▸ hread) hat.text_nul hroom
  rw [searchPage, if_pos hcompared, readText_eq hread hat.text_nul]
  dsimp only [Search.record]
  split
  · rfl
  rw [hskip]
  by_cases hcloses : p + ended + text.length < min left pageSize
  · have hmin : min text.length (min left pageSize - (p + ended)) = text.length := by
      omega
    rw [hmin, if_pos hcloses, if_pos hcloses]
    congr 1
    omega
  · have hmin : min text.length (min left pageSize - (p + ended)) =
        min left pageSize - (p + ended) := by
      omega
    rw [hmin, if_neg hcloses, if_neg (by omega), searchPage, if_neg (by omega)]

/-! ## What is compared and what is asked for -/

/-- The strings as they are recorded. -/
def recorded (texts : List (ℕ × List Char)) : List (ℕ × List Char) :=
  texts.map fun entry => (entry.1, entry.2 ++ [nul])

/-- From a string on, a search goes on as it should. -/
structure Agrees (clues : List CoffClue) (limit first : ℕ) (strings : List (List Char))
    (search out : Search) : Prop where
  compared : out.compared =
    search.compared ++ recorded (wantedStrings clues limit first strings)
  personality : out.personality =
    foldClues clues (wantedStrings clues limit first strings) search.personality

section Agreement

variable {limit first : ℕ} {out : Search}

theorem wantedStrings_of_le (hle : limit ≤ first) :
    wantedStrings clues limit first strings = [] := by
  cases strings with
  | nil => rfl
  | cons text strings => rw [wantedStrings, if_neg (Nat.not_lt.2 hle)]

theorem agrees_self (hle : limit ≤ first) :
    Agrees clues limit first strings search search := by
  constructor
  · rw [wantedStrings_of_le hle, recorded, List.map_nil, List.append_nil]
  · rw [wantedStrings_of_le hle]
    rfl

theorem agrees_iff :
    Agrees clues limit first strings search out ↔
      out.compared =
          search.compared ++ recorded (wantedStrings clues limit first strings) ∧
        out.personality =
          foldClues clues (wantedStrings clues limit first strings) search.personality :=
  ⟨fun ⟨hout, hfinal⟩ => ⟨hout, hfinal⟩, fun ⟨hout, hfinal⟩ => ⟨hout, hfinal⟩⟩

/-- What a search goes on to compare behind its next string. -/
theorem agrees_cons_iff {memory : Memory} {address : ℕ} {later : List (ℕ × List Char)}
    (hnul : nul ∉ text) (hstring : stringAt memory address = text)
    (hstopped : search.stopped = false)
    (hwanted : wantedStrings clues limit first (text :: strings) = (first, text) :: later) :
    Agrees clues limit first (text :: strings) search out ↔
      out.compared = (compareClues memory address clues
          (search.record first (text ++ [nul]))).compared ++ recorded later ∧
        out.personality = foldClues clues later (compareClues memory address clues
          (search.record first (text ++ [nul]))).personality := by
  have hlist : search.compared ++ recorded ((first, text) :: later) =
      (compareClues memory address clues
        (search.record first (text ++ [nul]))).compared ++ recorded later := by
    rw [compareClues_compared, recorded, List.map_cons, Search.record, List.append_assoc]
    rfl
  have hfold : foldClues clues ((first, text) :: later) search.personality =
      foldClues clues later (compareClues memory address clues
        (search.record first (text ++ [nul]))).personality := by
    obtain ⟨-, hpersonality⟩ := @compareClues_eq memory address text clues hnul hstring
      (search.record first (text ++ [nul])) hstopped
    rw [hpersonality, foldClues, foldClues, List.flatMap_cons, List.foldl_append]
    rfl
  rw [agrees_iff, hwanted, hlist, hfold]

/-- A string that ends the search, or that the search goes on behind. -/
theorem agrees_compared {memory : Memory} {address : ℕ} (hfirst : first < limit)
    (hnul : nul ∉ text) (hstring : stringAt memory address = text)
    (hstopped : search.stopped = false) :
    Agrees clues limit first (text :: strings) search out ↔
      if endsSearch clues text then
        out.compared = (compareClues memory address clues
          (search.record first (text ++ [nul]))).compared ∧
        out.personality = (compareClues memory address clues
          (search.record first (text ++ [nul]))).personality
      else
        Agrees clues limit (first + text.length + 1) strings
          (compareClues memory address clues (search.record first (text ++ [nul]))) out := by
  split
  · next hends =>
    have hwanted : wantedStrings clues limit first (text :: strings) = [(first, text)] := by
      rw [wantedStrings, if_pos hfirst, if_pos hends]
    rw [agrees_cons_iff hnul hstring hstopped hwanted, recorded, List.map_nil,
      List.append_nil]
    rfl
  · next hends =>
    have hwanted : wantedStrings clues limit first (text :: strings) = (first, text) ::
        wantedStrings clues limit (first + text.length + 1) strings := by
      rw [wantedStrings, if_pos hfirst, if_neg hends]
    rw [agrees_cons_iff hnul hstring hstopped hwanted, agrees_iff]

/-- A search that compares something else than the next string. -/
theorem not_agrees_of_prefix {event : ℕ × List Char}
    (hbegins : search.compared ++ [event] <+: out.compared)
    (hother : ∀ later, recorded (wantedStrings clues limit first strings) ≠
      event :: later) : ¬ Agrees clues limit first strings search out := by
  intro hagrees
  rw [hagrees.compared, List.prefix_append_right_inj] at hbegins
  obtain ⟨later, hlater⟩ := hbegins
  exact hother later hlater.symm

/-- What is asked for begins with the next string. -/
theorem recorded_wanted_ne {event : ℕ × List Char}
    (hevent : event.1 ≠ first ∨
      ∀ text others, strings = text :: others → event.2 ≠ text ++ [nul])
    (later : List (ℕ × List Char)) :
    recorded (wantedStrings clues limit first strings) ≠ event :: later := by
  intro heq
  cases strings with
  | nil => cases heq
  | cons text strings =>
      rw [wantedStrings] at heq
      by_cases hfirst : first < limit
      · rw [if_pos hfirst, recorded, List.map_cons] at heq
        obtain ⟨rfl, -⟩ := List.cons.inj heq
        obtain hplace | htext := hevent
        · exact hplace rfl
        · exact htext text strings rfl rfl
      · rw [if_neg hfirst] at heq
        cases heq

end Agreement

/-! ## The pages -/

/-- What comes behind a page: the search is over, or goes on where the page says. -/
def afterPage (sect : CommentSection) (clues : List CoffClue) (place left : ℕ)
    (page : Memory) (found : PageSearch) : Search :=
  if found.search.stopped then found.search
  else
    let start := if found.start = 0 then min left pageSize else found.start
    searchPages sect.kernelRead clues (sect.scnptr + place + start) (left - start) page
      found.search

/-- Reading a page and searching it. -/
theorem searchPages_read (hleft : 0 < left)
    (hinside : place + left ≤ (layout sect.strings).length)
    (hpage : page.length = pageSize) :
    searchPages sect.kernelRead clues (sect.scnptr + place) left page search =
      (let page := ((layout sect.strings).drop place).take (min left pageSize) ++
          page.drop (min left pageSize)
      afterPage sect clues place left page
        (searchPage clues page (sect.scnptr + place) (min left pageSize) 0 0 0 search)) := by
  have hpos : 0 < min left pageSize := lt_min hleft (by decide)
  have hdelivers := sect.delivers place (min left pageSize) page hpos
    ((Nat.add_le_add_left (Nat.min_le_left _ _) _).trans hinside) hpage
  have herr : ¬ ((min left pageSize : ℕ) : ℤ) ≤ 0 := by omega
  rw [searchPages, if_neg hleft.ne', hdelivers]
  dsimp only
  rw [if_neg herr, Int.toNat_natCast]
  rfl

/-- The search of what is left begins with a comparison where it is read. -/
theorem searchPages_first (hleft : 0 < left)
    (hinside : place + left ≤ (layout sect.strings).length)
    (hpage : page.length = pageSize) :
    ∃ text, search.compared ++ [(sect.scnptr + place, text)] <+:
      (searchPages sect.kernelRead clues (sect.scnptr + place) left page search).compared := by
  have hpos : 0 < min left pageSize := lt_min hleft (by decide)
  rw [searchPages_read hleft hinside hpage]
  dsimp only
  have hrecords := searchPage_records clues
    (((layout sect.strings).drop place).take (min left pageSize) ++
      page.drop (min left pageSize)) (sect.scnptr + place) (min left pageSize) 0 0 0 search
  rw [if_pos hpos, Nat.add_zero] at hrecords
  refine ⟨_, hrecords.trans ?_⟩
  rw [afterPage]
  split
  · exact List.prefix_rfl
  · exact searchPages_prefix _ _ _ _ _ _

/-- What a page that has been read holds. -/
theorem atString_read (hinside : place + left ≤ (layout sect.strings).length)
    (hpage : page.length = pageSize)
    (hhere : (layout sect.strings).drop place = layout strings)
    (hnul : ∀ text ∈ strings, nul ∉ text) :
    AtString sect (((layout sect.strings).drop place).take (min left pageSize) ++
      page.drop (min left pageSize)) place left 0 strings := by
  have hread : (((layout sect.strings).drop place).take (min left pageSize)).length =
      min left pageSize := by
    rw [List.length_take, List.length_drop]
    omega
  refine ⟨hinside, ?_, ?_, hhere, hnul⟩
  · rw [List.length_append, hread, List.length_drop, hpage]
    omega
  · exact List.take_left' hread

/-- The bytes of a section are searched right from a place on. -/
def SearchedFrom (sect : CommentSection) (clues : List CoffClue) (left : ℕ) : Prop :=
  ∀ place page strings search, search.stopped = false → page.length = pageSize →
    place + left ≤ (layout sect.strings).length →
    (layout sect.strings).drop place = layout strings → (∀ text ∈ strings, nul ∉ text) →
    (Agrees clues (sect.scnptr + (place + left)) (sect.scnptr + place) strings search
        (searchPages sect.kernelRead clues (sect.scnptr + place) left page search) ↔
      InStep clues left 0 0 strings)

/-- Where the pointer and the count are when a string of a page is reached. -/
structure Reached (left p ended start : ℕ) : Prop where
  first : ended = 0 → p = 0
  pos : 0 < ended → 0 < p
  start_eq : 0 < ended → start = p + ended - 1
  start_le : start ≤ min left pageSize

/-- Behind a page whose pointer has passed a string the search goes on at `start`. -/
theorem afterPage_eq (hstopped : search.stopped = false) (hpos : 0 < start) :
    afterPage sect clues place left page ⟨start, search⟩ =
      searchPages sect.kernelRead clues (sect.scnptr + (place + start)) (left - start) page
        search := by
  rw [afterPage]
  dsimp only
  rw [hstopped, if_neg Bool.false_ne_true, if_neg hpos.ne', Nat.add_assoc]

/-- The next page begins where the next string does. -/
theorem agrees_nextPage (hsearched : SearchedFrom sect clues (left - start))
    (hstopped : search.stopped = false) (hpos : 0 < start) (hle : start ≤ left)
    (hat : AtString sect page place left start strings) :
    Agrees clues (sect.scnptr + (place + left)) (sect.scnptr + place + start) strings
        search (afterPage sect clues place left page ⟨start, search⟩) ↔
      InStep clues (left - start) 0 0 strings := by
  have hend : place + start + (left - start) = place + left := by omega
  have hnext := hsearched (place + start) page strings search hstopped hat.pageLength
    (hend ▸ hat.inside) hat.here hat.no_nul
  rw [afterPage_eq hstopped hpos, Nat.add_assoc sect.scnptr, ← hend]
  exact hnext

/-- The next page begins elsewhere. -/
theorem not_agrees_nextPage (hstopped : search.stopped = false) (hpos : 0 < start)
    (hle : start ≤ left) (hat : AtString sect page place left p strings) (hp : p ≤ left)
    (hne : start ≠ p) (hmore : start < left ∨ p < left) :
    ¬ Agrees clues (sect.scnptr + (place + left)) (sect.scnptr + place + p) strings
        search (afterPage sect clues place left page ⟨start, search⟩) := by
  have hinside := hat.inside
  rw [afterPage_eq hstopped hpos]
  by_cases hstart : start < left
  · obtain ⟨text, hbegins⟩ := @searchPages_first sect clues page (place + start)
      (left - start) search (by omega) (by omega) hat.pageLength
    refine not_agrees_of_prefix hbegins (recorded_wanted_ne (.inl ?_))
    intro hsame
    dsimp only at hsame
    omega
  · obtain rfl : start = left := by omega
    intro hagrees
    have hplace := hmore.resolve_left (lt_irrefl _)
    obtain ⟨text, others, rfl⟩ := List.exists_cons_of_ne_nil (hat.nonempty hplace)
    have hlength := congrArg List.length hagrees.compared
    rw [Nat.sub_self, searchPages, if_pos rfl, wantedStrings, if_pos (by omega), recorded,
      List.map_cons, List.length_append, List.length_cons] at hlength
    omega

/-- A string that is not compared, because the count is through with the page. -/
theorem agrees_passed (hsearched : ∀ less < left, SearchedFrom sect clues less)
    (hat : AtString sect page place left p strings)
    (hreached : Reached left p ended start) (hleft : 0 < left)
    (hstopped : search.stopped = false) (hthrough : min left pageSize ≤ p + ended) :
    Agrees clues (sect.scnptr + (place + left)) (sect.scnptr + place + p) strings
        search (afterPage sect clues place left page ⟨start, search⟩) ↔
      InStep clues left p ended strings := by
  have herr : 0 < min left pageSize := lt_min hleft (by decide)
  have hended : 0 < ended := by
    by_contra hzero
    have hfirst := hreached.first (by omega)
    omega
  have hp := hreached.pos hended
  have hstart := hreached.start_eq hended
  have hle := hreached.start_le
  rw [inStep_passed_iff hended hthrough]
  by_cases hone : ended = 1
  · obtain rfl : start = p := by omega
    rw [agrees_nextPage (hsearched _ (by omega)) hstopped hp (by omega) hat,
      and_iff_right hone]
  · refine iff_of_false ?_ fun hstep => hone hstep.1
    exact not_agrees_nextPage hstopped (by omega) (by omega) hat (by omega) (by omega)
      (.inr (by omega))

/-- A string that has not been read as a whole. -/
theorem not_agrees_cut (hat : AtString sect page place left p (text :: strings))
    (hcompared : p + ended < min left pageSize)
    (hcut : min left pageSize ≤ p + text.length) :
    ¬ Agrees clues (sect.scnptr + (place + left)) (sect.scnptr + place + p)
      (text :: strings) search (afterPage sect clues place left page
        (searchPage clues page (sect.scnptr + place) (min left pageSize) p (p + ended)
          start search)) := by
  have hrecords := searchPage_records clues page (sect.scnptr + place)
    (min left pageSize) p (p + ended) start search
  rw [if_pos hcompared, readText_eq hat.text_read hat.text_nul] at hrecords
  have hbegins := hrecords.trans (show _ <+: (afterPage sect clues place left page
      (searchPage clues page (sect.scnptr + place) (min left pageSize) p (p + ended)
        start search)).compared from by
    rw [afterPage]
    split
    · exact List.prefix_rfl
    · exact searchPages_prefix _ _ _ _ _ _)
  refine not_agrees_of_prefix hbegins (recorded_wanted_ne (.inr ?_))
  intro other others heq hsame
  obtain ⟨rfl, -⟩ := List.cons.inj heq
  have hlength := congrArg List.length hsame
  rw [List.length_take, List.length_append, List.length_singleton] at hlength
  omega

/-- A string that has been read as a whole, where the rest of the page is searched as it
should be. -/
theorem agrees_whole (hsearched : ∀ less < left, SearchedFrom sect clues less)
    (hat : AtString sect page place left p (text :: strings))
    (hreached : Reached left p ended start) (hleft : 0 < left)
    (hstopped : search.stopped = false) (hcompared : p + ended < min left pageSize)
    (hwhole : p + text.length < min left pageSize)
    (hrest : ∀ {start : ℕ} {search : Search},
      Reached left (p + text.length + 1) (ended + 1) start → search.stopped = false →
      (Agrees clues (sect.scnptr + (place + left))
          (sect.scnptr + place + (p + text.length + 1)) strings search
          (afterPage sect clues place left page
            (searchPage clues page (sect.scnptr + place) (min left pageSize)
              (p + text.length + 1) (p + text.length + 1 + (ended + 1)) start search)) ↔
        InStep clues left (p + text.length + 1) (ended + 1) strings)) :
    Agrees clues (sect.scnptr + (place + left)) (sect.scnptr + place + p)
        (text :: strings) search (afterPage sect clues place left page
          (searchPage clues page (sect.scnptr + place) (min left pageSize) p (p + ended)
            start search)) ↔
      InStep clues left p ended (text :: strings) := by
  have hpage : min left pageSize ≤ pageSize := Nat.min_le_right _ _
  have hbytes : min left pageSize ≤ left := Nat.min_le_left _ _
  obtain ⟨more, hmore⟩ := holds_of_read hat.text_read hwhole
  have hstring := stringAt_compared hmore hat.text_nul (by omega)
  have htake : (text ++ [nul]).take (min left pageSize - p) = text ++ [nul] :=
    List.take_of_length_le (by rw [List.length_append, List.length_singleton]; omega)
  have hends := (@compareClues_eq (page.set (pageSize - 1) nul) p text clues hat.text_nul
    hstring (search.record (sect.scnptr + place + p) (text ++ [nul])) hstopped).1
  have hplace : sect.scnptr + place + p + text.length + 1 =
      sect.scnptr + place + (p + text.length + 1) := by omega
  rw [agrees_compared (by omega) hat.text_nul hstring hstopped, searchPage_step hat hcompared,
    htake]
  dsimp only
  generalize compareClues (page.set (pageSize - 1) nul) p clues
    (search.record (sect.scnptr + place + p) (text ++ [nul])) = after at *
  rw [hends]
  by_cases hlast : endsSearch clues text = true
  · rw [if_pos hlast, if_pos hlast]
    refine iff_of_true ?_ (.stops strings hcompared hwhole hlast)
    rw [afterPage]
    rw [hends, hlast, if_pos rfl]
    exact ⟨rfl, rfl⟩
  · rw [if_neg hlast, if_neg hlast, hplace]
    rw [Bool.eq_false_of_not_eq_true hlast] at hends
    by_cases hcloses : p + ended + text.length < min left pageSize
    · rw [if_pos hcloses, inStep_closes_iff hlast hcloses]
      exact hrest ⟨by omega, by omega, by omega, by omega⟩ hends
    · rw [if_neg hcloses, inStep_open_iff hlast hcompared hwhole (Nat.le_of_not_lt hcloses)]
      have hended : 0 < ended := by
        by_contra hzero
        have hfirst := hreached.first (by omega)
        omega
      have hp := hreached.pos hended
      have hstart := hreached.start_eq hended
      by_cases hlength : ended = text.length + 2
      · obtain rfl : start = p + text.length + 1 := by omega
        rw [agrees_nextPage (hsearched _ (by omega)) hends (by omega) (by omega) hat.next,
          and_iff_right hlength]
      · refine iff_of_false ?_ fun hstep => hlength hstep.1
        exact not_agrees_nextPage hends (by omega) (by omega) hat.next (by omega)
          (by omega) (.inl (by omega))

/-- From a string of a page on, the search goes on as it should exactly if the count is
in step. -/
theorem agrees_page (hsearched : ∀ less < left, SearchedFrom sect clues less)
    (hat : AtString sect page place left p strings)
    (hreached : Reached left p ended start) (hleft : 0 < left)
    (hstopped : search.stopped = false) :
    Agrees clues (sect.scnptr + (place + left)) (sect.scnptr + place + p) strings
        search (afterPage sect clues place left page
          (searchPage clues page (sect.scnptr + place) (min left pageSize) p (p + ended)
            start search)) ↔
      InStep clues left p ended strings := by
  induction strings generalizing p ended start search with
  | nil =>
      have hp : left ≤ p := Nat.le_of_not_lt fun hp => hat.nonempty hp rfl
      rw [searchPage, if_neg (by omega)]
      exact agrees_passed hsearched hat hreached hleft hstopped (by omega)
  | cons text strings ih =>
      by_cases hcompared : p + ended < min left pageSize
      · by_cases hwhole : p + text.length < min left pageSize
        · exact agrees_whole hsearched hat hreached hleft hstopped hcompared hwhole
            fun hreached hstopped => ih hat.next hreached hstopped
        · refine iff_of_false (not_agrees_cut hat hcompared (Nat.le_of_not_lt hwhole)) ?_
          intro hstep
          cases hstep with
          | done => exact lt_irrefl _ hleft
          | stops _ _ hread => exact hwhole hread
          | closes hcloses => omega
          | refills _ hread => exact hwhole hread
          | turns => omega
      · rw [searchPage, if_neg hcompared]
        exact agrees_passed hsearched hat hreached hleft hstopped
          (Nat.le_of_not_lt hcompared)

/-- From wherever a page begins at a string. -/
theorem searchedFrom (sect : CommentSection) (clues : List CoffClue) (left : ℕ) :
    SearchedFrom sect clues left := by
  induction left using Nat.strong_induction_on with
  | _ left ih =>
      intro place page strings search hstopped hpage hinside hhere hnul
      obtain rfl | hleft := Nat.eq_zero_or_pos left
      · rw [searchPages, if_pos rfl]
        exact iff_of_true (agrees_self (by omega)) (.done strings)
      · rw [searchPages_read hleft hinside hpage]
        have hreached : Reached left 0 0 0 :=
          ⟨fun _ => rfl, fun hended => absurd hended (lt_irrefl _),
            fun hended => absurd hended (lt_irrefl _), Nat.zero_le _⟩
        exact agrees_page ih (atString_read hinside hpage hhere hnul) hreached hleft
          hstopped

/-- A limit behind the last string makes no difference. -/
theorem wantedStrings_limit {first limit other : ℕ}
    (hlimit : first + (layout strings).length ≤ limit)
    (hother : first + (layout strings).length ≤ other) :
    wantedStrings clues limit first strings = wantedStrings clues other first strings := by
  induction strings generalizing first with
  | nil => rfl
  | cons text strings ih =>
      have hlength : (layout (text :: strings)).length =
          text.length + 1 + (layout strings).length := by
        rw [layout_cons, List.length_append, List.length_cons]
        omega
      rw [hlength] at hlimit hother
      have hrest := @ih (first + text.length + 1) (by omega) (by omega)
      have hless : first < limit := by omega
      have hless' : first < other := by omega
      rw [wantedStrings, wantedStrings, if_pos hless, if_pos hless', hrest]

end Strings

/-- The strings that are asked for in the first 8192 bytes are those in the bytes that
are read. -/
theorem wantedStrings_size (clues : List CoffClue) (sect : CommentSection) :
    wantedStrings clues (sect.scnptr + commentLimit) sect.scnptr sect.strings =
      wantedStrings clues
        (sect.scnptr + (0 + min (layout sect.strings).length commentLimit))
        sect.scnptr sect.strings := by
  by_cases hsize : (layout sect.strings).length ≤ commentLimit
  · rw [Nat.min_eq_left hsize]
    exact wantedStrings_limit (by omega) (by omega)
  · rw [Nat.min_eq_right (Nat.le_of_not_le hsize), Nat.zero_add]

/-- The comments are searched completely exactly if the count stays in step with the
strings. -/
theorem coffParseComments_complete_iff (clues : List CoffClue) (sect : CommentSection)
    (page : FreePage) (personality : BitVec 32) :
    Complete clues sect personality
        (coffParseComments sect.kernelRead clues sect.scnptr (layout sect.strings).length
          page.1 personality) ↔
      InStep clues (min (layout sect.strings).length commentLimit) 0 0 sect.strings := by
  have hsearched := searchedFrom sect clues
    (min (layout sect.strings).length commentLimit) 0 page.1 sect.strings
    ⟨personality, 0, false, false, []⟩ rfl page.2
    (by rw [Nat.zero_add]; exact Nat.min_le_left _ _) List.drop_zero sect.no_nul
  rw [Nat.add_zero] at hsearched
  refine Iff.trans ?_ hsearched
  constructor
  · rintro ⟨hcompared, hpersonality⟩
    rw [wantedStrings_size] at hcompared hpersonality
    exact ⟨hcompared, hpersonality⟩
  · rintro ⟨hcompared, hpersonality⟩
    rw [← wantedStrings_size] at hcompared hpersonality
    exact ⟨hcompared, hpersonality⟩

/-- A file of some bytes that is read as asked. -/
def readBytes (bytes : List Char) (place count : ℕ) (page : Memory) : ℤ × Memory :=
  (count, (bytes.drop place).take count ++ page.drop count)

/-- Two strings of one character. -/
def twoStrings : CommentSection where
  kernelRead := readBytes (layout [['a'], ['b']])
  scnptr := 0
  strings := [['a'], ['b']]
  no_nul := by decide
  short := by decide
  delivers := by
    intro place count page _ _ _
    rw [Nat.zero_add]
    rfl

/-- A page of zeros. -/
def zeroPage : FreePage := ⟨List.replicate pageSize nul, List.length_replicate⟩

/-- The second of two strings is compared twice. -/
theorem second_string_twice :
    ¬ Complete coffClues twoStrings 0
      (coffParseComments twoStrings.kernelRead coffClues twoStrings.scnptr
        (layout twoStrings.strings).length zeroPage.1 0) := by
  rw [coffParseComments_complete_iff]
  change ¬ InStep coffClues 4 0 0 [['a'], ['b']]
  have hfirst : endsSearch coffClues ['a'] = false := by decide
  have hsecond : endsSearch coffClues ['b'] = false := by decide
  have herr : min 4 pageSize = 4 := rfl
  intro hstep
  cases hstep with
  | stops _ _ _ hends => exact Bool.false_ne_true (hfirst.symm.trans hends)
  | refills _ _ hopen =>
      rw [herr] at hopen
      exact absurd hopen (by decide)
  | closes _ hrest =>
      cases hrest with
      | stops _ _ _ hends => exact Bool.false_ne_true (hsecond.symm.trans hends)
      | refills _ _ _ hlength => exact absurd hlength (by decide)
      | closes hcloses =>
          rw [herr] at hcloses
          exact absurd hcloses (by decide)
      | turns hfull =>
          rw [herr] at hfull
          exact absurd hfull (by decide)

end IbcsUs.Loaders
