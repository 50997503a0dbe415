import IbcsUs.Core.Strings

/-!
# Options of the command line

`getoption` is called until it returns a null pointer.  Between the calls it keeps a
pointer into the argument vector and an index into the word there, which is not zero
while the letters of a cluster are gone through.
-/

namespace IbcsUs.Getoption

open Strings

/-! ## Arguments and options -/

/-- A string of the argument vector, with the bytes in memory behind its terminator. -/
structure Argument where
  text : List Char
  behind : List Char
  noNul : nul ∉ text

/-- `av[index]` -/
def Argument.char (av : Argument) (index : ℕ) : Char :=
  cell (av.text ++ nul :: av.behind) index

/-- What a call comes to: an option, the null pointer, or `usage`, which ends the
program. -/
inductive Call where
  | found (option : List Char) (arg : Option (List Char)) (argv : List Argument)
      (optindex : ℕ)
  | finished (argv : List Argument)
  | usage (message : List Char)

/-! ## `getoption` -/

/-- The loop over the letters of a word goes on, or to the next word. -/
def nextLetter : List Argument → ℕ → List Argument × ℕ
  | argv, 0 => (argv, 0)
  | [], index + 1 => ([], index + 1)
  | av :: argv, index + 1 =>
      if av.char (index + 2) = nul then (argv, 0) else (av :: argv, index + 2)

/-- The value is the next word. -/
def valueInNext (option message : List Char) : List Argument → Call
  | [] => .usage message
  | value :: argv => .found option (some value.text) argv 0

/-- A letter of the word is a short option. -/
def shortFound (o : List Char) (av : Argument) (argv : List Argument)
    (optindex : ℕ) : Call :=
  if o.getD 2 nul ≠ '=' then .found o none (av :: argv) optindex
  else if av.char (optindex + 1) ≠ nul then
    .found o (some (av.text.drop (optindex + 1))) argv 0
  else
    valueInNext o
      ("Option -".toList ++ o.getD 1 nul :: " requires an argument.".toList) argv

/-- The length of a long option without its `=`. -/
def longLength (o : List Char) : ℕ :=
  if o.getD (o.length - 1) nul = '=' then o.length - 1 else o.length

/-- The word is a long option. -/
def longFound (o : List Char) (av : Argument) (argv : List Argument) : Call :=
  let l := longLength o
  if av.char l = '=' then
    if o.getD l nul = nul then
      .usage ("Option ".toList ++ o.take l ++
        " doesn't require an argument.".toList)
    else .found o (some (av.text.drop (l + 1))) argv 0
  else if o.getD l nul = nul then .found o none argv 0
  else
    valueInNext o ("Option ".toList ++ o.take l ++ " requires an argument.".toList)
      argv

/-- The loop over the options that are recognised. -/
def searchOptions : List (List Char) → Argument → List Argument → ℕ → Call
  | [], av, _, optindex =>
      if optindex ≠ 0 then
        .usage ("unrecognised option -".toList ++ [av.char optindex, '.'])
      else .usage ("unrecognised option ".toList ++ av.text ++ ['.'])
  | o :: options, av, argv, optindex =>
      if o.getD 1 nul ≠ '-' then
        if optindex ≠ 0 ∧ av.char optindex = o.getD 1 nul then
          shortFound o av argv optindex
        else searchOptions options av argv optindex
      else if optindex = 0 ∧
          (av.char (longLength o) = nul ∨ av.char (longLength o) = '=') ∧
          av.text.take (longLength o) = o.take (longLength o) then
        longFound o av argv
      else searchOptions options av argv optindex

def getoption (options : List (List Char)) (argv : List Argument) (optindex : ℕ) :
    Call :=
  match nextLetter argv optindex with
  | ([], _) => .finished []
  | (av :: argv, optindex) =>
      if optindex = 0 then
        if av.char 0 ≠ '-' ∨ av.char 1 = nul ∨
            av.char 1 = '-' ∧ av.char 2 = nul then
          .finished (if av.char 1 = '-' then argv else av :: argv)
        else searchOptions options av argv (if av.char 1 ≠ '-' then 1 else 0)
      else searchOptions options av argv optindex

/-- How the calls end: the vector at the null pointer, or `usage`. -/
inductive Outcome where
  | finished (argv : List Argument)
  | usage

/-- The loop that calls `getoption` until it returns the null pointer: the options with
their values, and the end. -/
inductive Calls (options : List (List Char)) :
    List Argument → ℕ → List (List Char × Option (List Char)) → Outcome → Prop where
  | finished {argv : List Argument} {optindex : ℕ} {rest : List Argument}
      (hcall : getoption options argv optindex = .finished rest) :
      Calls options argv optindex [] (.finished rest)
  | usage {argv : List Argument} {optindex : ℕ} {message : List Char}
      (hcall : getoption options argv optindex = .usage message) :
      Calls options argv optindex [] .usage
  | found {argv : List Argument} {optindex : ℕ} {option : List Char}
      {arg : Option (List Char)} {argv' : List Argument} {optindex' : ℕ}
      {more : List (List Char × Option (List Char))} {outcome : Outcome}
      (hcall : getoption options argv optindex =
        .found option arg argv' optindex')
      (hmore : Calls options argv' optindex' more outcome) :
      Calls options argv optindex ((option, arg) :: more) outcome

/-! ## The options of a program -/

/-- An option in the documented form.  One that is `valued` needs a value. -/
inductive Row where
  | short (letter : Char) (valued : Bool)
      (hletter : letter ≠ nul ∧ letter ≠ '-' ∧ letter ≠ '=')
  | long (name : List Char) (valued : Bool)
      (hname : name ≠ [] ∧ nul ∉ name ∧ '=' ∉ name)

def Row.valued : Row → Bool
  | .short _ valued _ => valued
  | .long _ valued _ => valued

/-- The string in the table. -/
def Row.text : Row → List Char
  | .short letter valued _ => '-' :: letter :: (if valued then ['='] else [])
  | .long name valued _ => '-' :: '-' :: name ++ (if valued then ['='] else [])

def Row.isShort (letter : Char) : Row → Bool
  | .short other _ _ => other = letter
  | .long _ _ _ => false

def Row.isLong (name : List Char) : Row → Bool
  | .short _ _ _ => false
  | .long other _ _ => other = name

/-- The options of `ibcs-us`. -/
def options : List Row :=
  [.short 'l' true (by decide), .long "log".toList true (by decide),
    .short 'h' false (by decide), .long "help".toList false (by decide),
    .short 'm' true (by decide), .long "map".toList true (by decide),
    .short 'p' true (by decide), .long "personality".toList true (by decide),
    .short 't' true (by decide), .long "trace".toList true (by decide)]

example : options.map Row.text =
    ["-l=".toList, "--log=".toList, "-h".toList, "--help".toList, "-m=".toList,
      "--map=".toList, "-p=".toList, "--personality=".toList, "-t=".toList,
      "--trace=".toList] := by
  decide

/-! ## The usual conventions -/

/-- An option that is found, and its value. -/
abbrev Found := Row × Option (List Char)

/-- What a word leaves open: nothing, the value of its last option, or an option that is
not in the table or must not have a value. -/
inductive WordEnd where
  | closed
  | wants (row : Row)
  | unknown

/-- The letters of a cluster.  What follows the letter of an option with a value is the
value. -/
def clusterOptions (rows : List Row) : List Char → List Found × WordEnd
  | [] => ([], .closed)
  | letter :: letters =>
      match rows.find? (Row.isShort letter) with
      | none => ([], .unknown)
      | some row =>
          if row.valued then
            if letters = [] then ([], .wants row) else ([(row, some letters)], .closed)
          else
            let later := clusterOptions rows letters
            ((row, none) :: later.1, later.2)

/-- A name, and a value behind `=`. -/
def longOption (rows : List Row) (word : List Char) : List Found × WordEnd :=
  match rows.find? (Row.isLong (word.takeWhile (· ≠ '='))) with
  | none => ([], .unknown)
  | some row =>
      match word.dropWhile (· ≠ '=') with
      | [] => if row.valued then ([], .wants row) else ([(row, none)], .closed)
      | _ :: value =>
          if row.valued then ([(row, some value)], .closed) else ([], .unknown)

/-- What a word is. -/
inductive Reading where
  | operand
  | dashes
  | options (found : List Found) (wordEnd : WordEnd)

def readWord (rows : List Row) : List Char → Reading
  | ['-', '-'] => .dashes
  | '-' :: '-' :: name => .options (longOption rows name).1 (longOption rows name).2
  | '-' :: letters@(_ :: _) =>
      .options (clusterOptions rows letters).1 (clusterOptions rows letters).2
  | _ => .operand

/-- Where the options end: at the first argument that is none, behind `--` or not, or at
one that is not allowed. -/
inductive Ending where
  | operands (dashes : Bool) (rest : List Argument)
  | usage

def Ending.outcome : Ending → Outcome
  | .operands _ rest => .finished rest
  | .usage => .usage

/-- The options at the front of an argument vector. -/
def conventions (rows : List Row) : List Argument → List Found × Ending
  | [] => ([], .operands false [])
  | word :: rest =>
      match readWord rows word.text with
      | .operand => ([], .operands false (word :: rest))
      | .dashes => ([], .operands true rest)
      | .options found .closed =>
          (found ++ (conventions rows rest).1, (conventions rows rest).2)
      | .options found .unknown => (found, .usage)
      | .options found (.wants row) =>
          match rest with
          | [] => (found, .usage)
          | value :: rest =>
              (found ++ (row, some value.text) :: (conventions rows rest).1,
                (conventions rows rest).2)

/-- What a call gives for an option that is found. -/
def returned (found : Found) : List Char × Option (List Char) :=
  (found.1.text, found.2)

/-- The calls return the options of the conventions with their values, and end where
these do. -/
def GetoptionRight (rows : List Row) (args : List Argument) : Prop :=
  Calls (rows.map Row.text) args 0 ((conventions rows args).1.map returned)
    (conventions rows args).2.outcome

/-! ## When they do -/

/-- The first argument that is no option, unless it follows `--`, has no dash as its
second character.  For an empty one this is the byte behind it in memory. -/
def GetoptionMeets (rows : List Row) (args : List Argument) : Prop :=
  ∀ word rest, (conventions rows args).2 = .operands false (word :: rest) →
    word.char 1 ≠ '-'

/-! ## Characters of a word -/

section Characters

variable {av : Argument} {letters : List Char} {index : ℕ}

theorem char_of_drop (hindex : index ≤ av.text.length)
    (hdrop : av.text.drop index = letters) :
    av.char index = letters.getD 0 nul := by
  have hmemory : (av.text ++ nul :: av.behind).drop index =
      letters ++ nul :: av.behind := by
    rw [List.drop_append_of_le_length hindex, hdrop]
  have hchar : av.char index =
      ((av.text ++ nul :: av.behind).drop index).getD 0 nul := by
    rw [List.getD_eq_getElem?_getD, List.getElem?_drop, Nat.add_zero,
      ← List.getD_eq_getElem?_getD]
    rfl
  rw [hchar, hmemory]
  cases letters with
  | nil => rfl
  | cons letter letters => rfl

theorem drop_zero_of_text (htext : av.text = letters) : av.text.drop 0 = letters :=
  htext

theorem char_of_drop_cons {letter : Char}
    (hdrop : av.text.drop index = letter :: letters) :
    av.char index = letter := by
  apply char_of_drop _ hdrop
  by_contra hlength
  rw [List.drop_eq_nil_of_le (by omega)] at hdrop
  contradiction

theorem drop_succ_of_drop {letter : Char}
    (hdrop : av.text.drop index = letter :: letters) :
    av.text.drop (index + 1) = letters := by
  rw [← List.drop_drop, hdrop]
  rfl

/-- The character behind one of the word. -/
theorem char_succ_of_drop {letter : Char}
    (hdrop : av.text.drop index = letter :: letters) :
    av.char (index + 1) = letters.getD 0 nul := by
  apply char_of_drop _ (drop_succ_of_drop hdrop)
  have hlength := congrArg List.length hdrop
  rw [List.length_drop, List.length_cons] at hlength
  omega

theorem ne_nul_of_drop {letter : Char}
    (hdrop : av.text.drop index = letter :: letters) : letter ≠ nul := by
  rintro rfl
  apply av.noNul
  apply List.mem_of_mem_drop
  rw [hdrop]
  exact List.mem_cons_self

end Characters

/-! ## The loop over the table -/

section Search

variable {rows : List Row} {av : Argument} {argv : List Argument}

theorem getD_two_short (letter : Char) (valued : Bool)
    (hletter : letter ≠ nul ∧ letter ≠ '-' ∧ letter ≠ '=') :
    (Row.short letter valued hletter).text.getD 2 nul = '=' ↔ valued = true := by
  cases valued with
  | true => exact iff_of_true rfl rfl
  | false =>
      have hnul : nul ≠ '=' := by decide
      exact iff_of_false hnul Bool.false_ne_true

/-- Within a cluster only the short options are looked at. -/
theorem searchOptions_short (rows : List Row) (av : Argument) (argv : List Argument)
    {optindex : ℕ} (hindex : optindex ≠ 0) :
    searchOptions (rows.map Row.text) av argv optindex =
      match rows.find? (Row.isShort (av.char optindex)) with
      | none =>
          .usage ("unrecognised option -".toList ++ [av.char optindex, '.'])
      | some row => shortFound row.text av argv optindex := by
  induction rows with
  | nil => exact if_pos hindex
  | cons row rows ih =>
      rw [List.map_cons, searchOptions, List.find?_cons]
      cases row with
      | short letter valued hletter =>
          have hsecond : (Row.short letter valued hletter).text.getD 1 nul ≠ '-' :=
            hletter.2.1
          rw [if_pos hsecond]
          by_cases hfound : av.char optindex = letter
          · rw [if_pos ⟨hindex, hfound⟩]
            have hshort : (Row.short letter valued hletter).isShort
                (av.char optindex) = true := decide_eq_true hfound.symm
            rw [hshort]
          · rw [if_neg fun hboth => hfound hboth.2, ih]
            have hshort : (Row.short letter valued hletter).isShort
                (av.char optindex) = false := decide_eq_false fun h => hfound h.symm
            rw [hshort]
      | long name valued hname =>
          have hsecond : ¬ (Row.long name valued hname).text.getD 1 nul ≠ '-' :=
            not_not_intro rfl
          rw [if_neg hsecond, if_neg fun hboth => hindex hboth.1, ih]
          rfl

section Long

variable {name word : List Char} {valued : Bool}
  {hname : name ≠ [] ∧ nul ∉ name ∧ '=' ∉ name}

theorem getD_longLength :
    (Row.long name valued hname).text.getD (name.length + 2) nul =
      if valued then '=' else nul := by
  have hlength : ('-' :: '-' :: name).length = name.length + 2 := rfl
  rw [Row.text, List.getD_append_right _ _ _ _ (le_of_eq hlength), hlength,
    Nat.sub_self]
  cases valued with
  | true => rfl
  | false => rfl

/-- The length of a name in the table, with its dashes. -/
theorem longLength_text :
    longLength (Row.long name valued hname).text = name.length + 2 := by
  cases valued with
  | true =>
      have hlength : (Row.long name true hname).text.length - 1 =
          name.length + 2 := by
        simp [Row.text]
      rw [longLength, hlength, getD_longLength]
      rfl
  | false =>
      have htext : (Row.long name false hname).text = '-' :: '-' :: name :=
        List.append_nil _
      have hlast : ('-' :: '-' :: name).getD (name.length + 1) nul ≠ '=' := by
        rcases List.eq_nil_or_concat name with hnil | ⟨front, last, hconcat⟩
        · exact absurd hnil hname.1
        · have hget : ('-' :: '-' :: name).getD (name.length + 1) nul = last := by
            rw [hconcat]
            simp
          rw [hget]
          rintro rfl
          apply hname.2.2
          rw [hconcat, List.concat_eq_append]
          exact List.mem_append_right _ List.mem_cons_self
      rw [longLength, htext]
      exact if_neg hlast

theorem take_longLength :
    (Row.long name valued hname).text.take (name.length + 2) =
      '-' :: '-' :: name :=
  List.take_left' rfl

/-- Behind the name of a word stands nothing, or `=` and a value. -/
theorem dropWhile_name (word : List Char) :
    word.dropWhile (· ≠ '=') = [] ∨
      ∃ value, word.dropWhile (· ≠ '=') = '=' :: value := by
  have hhead := List.head?_dropWhile_not (fun letter => decide (letter ≠ '=')) word
  cases hrest : word.dropWhile (· ≠ '=') with
  | nil => exact Or.inl rfl
  | cons first value =>
      rw [hrest] at hhead
      have hfirst : first = '=' := by
        simpa using hhead
      exact Or.inr ⟨value, by rw [hfirst]⟩

theorem drop_name {av : Argument} (hword : av.text = '-' :: '-' :: word) :
    av.text.drop ((word.takeWhile (· ≠ '=')).length + 2) =
      word.dropWhile (· ≠ '=') := by
  have hsplit : word.takeWhile (· ≠ '=') ++ word.dropWhile (· ≠ '=') = word :=
    List.takeWhile_append_dropWhile
  rw [hword]
  calc
    word.drop (word.takeWhile (· ≠ '=')).length =
        (word.takeWhile (· ≠ '=') ++ word.dropWhile (· ≠ '=')).drop
          (word.takeWhile (· ≠ '=')).length := by rw [hsplit]
    _ = word.dropWhile (· ≠ '=') := List.drop_left' rfl

theorem char_name {av : Argument} (hword : av.text = '-' :: '-' :: word) :
    av.char ((word.takeWhile (· ≠ '=')).length + 2) =
      (word.dropWhile (· ≠ '=')).getD 0 nul := by
  apply char_of_drop _ (drop_name hword)
  have hlength :=
    (List.takeWhile_prefix (p := fun c => decide (c ≠ '=')) (l := word)).length_le
  rw [hword]
  simpa using hlength

/-- A name that the word begins with, and behind which it ends or has `=`, is its
name. -/
theorem takeWhile_name {av : Argument} (hequal : '=' ∉ name)
    (hword : av.text = '-' :: '-' :: word) (hfront : word.take name.length = name)
    (hchar : av.char (name.length + 2) = nul ∨ av.char (name.length + 2) = '=') :
    word.takeWhile (· ≠ '=') = name := by
  have hsplit : word = name ++ word.drop name.length := by
    rw [← List.take_append_drop name.length word, hfront]
    simp
  have hdrop : av.text.drop (name.length + 2) = word.drop name.length := by
    rw [hword]
    rfl
  rw [hsplit]
  apply takeWhile_eq_left
  · intro letter hletter
    apply decide_eq_true
    rintro rfl
    exact hequal hletter
  · intro letter hletter
    cases hrest : word.drop name.length with
    | nil =>
        rw [hrest] at hletter
        contradiction
    | cons first rest =>
        rw [hrest] at hletter hdrop
        obtain rfl := Option.some.inj hletter
        rw [char_of_drop_cons hdrop] at hchar
        have hfirst := hchar.resolve_left (ne_nul_of_drop hdrop)
        simp [hfirst]

/-- The test of the loop holds for the name of the word. -/
theorem long_matches {av : Argument} (hequal : '=' ∉ name)
    (hword : av.text = '-' :: '-' :: word) :
    ((av.char (name.length + 2) = nul ∨ av.char (name.length + 2) = '=') ∧
      av.text.take (name.length + 2) = '-' :: '-' :: name) ↔
      name = word.takeWhile (· ≠ '=') := by
  constructor
  · rintro ⟨hchar, htake⟩
    rw [hword] at htake
    have hfront : word.take name.length = name := by
      simpa using htake
    exact (takeWhile_name hequal hword hfront hchar).symm
  · rintro rfl
    rw [char_name hword]
    constructor
    · rcases dropWhile_name word with hnil | ⟨value, hvalue⟩
      · rw [hnil]
        exact Or.inl rfl
      · rw [hvalue]
        exact Or.inr rfl
    · have htake : word.take (word.takeWhile (· ≠ '=')).length =
          word.takeWhile (· ≠ '=') :=
        (List.prefix_iff_eq_take.1 (List.takeWhile_prefix _)).symm
      rw [hword, List.take_succ_cons, List.take_succ_cons, htake]

end Long

/-- At the beginning of a word with two dashes only the long options are looked at. -/
theorem searchOptions_long (rows : List Row) {word : List Char}
    (hword : av.text = '-' :: '-' :: word) :
    searchOptions (rows.map Row.text) av argv 0 =
      match rows.find? (Row.isLong (word.takeWhile (· ≠ '='))) with
      | none => .usage ("unrecognised option ".toList ++ av.text ++ ['.'])
      | some row => longFound row.text av argv := by
  induction rows with
  | nil => rfl
  | cons row rows ih =>
      rw [List.map_cons, searchOptions, List.find?_cons]
      cases row with
      | short letter valued hletter =>
          have hsecond : (Row.short letter valued hletter).text.getD 1 nul ≠ '-' :=
            hletter.2.1
          rw [if_pos hsecond, if_neg fun hboth => hboth.1 rfl, ih]
          rfl
      | long name valued hname =>
          have hsecond : ¬ (Row.long name valued hname).text.getD 1 nul ≠ '-' :=
            not_not_intro rfl
          rw [if_neg hsecond, longLength_text, take_longLength]
          by_cases hfound : name = word.takeWhile (· ≠ '=')
          · rw [if_pos ⟨rfl, (long_matches hname.2.2 hword).2 hfound⟩]
            have hlong : (Row.long name valued hname).isLong
                (word.takeWhile (· ≠ '=')) = true := decide_eq_true hfound
            rw [hlong]
          · rw [if_neg fun hboth => hfound ((long_matches hname.2.2 hword).1 hboth.2),
              ih]
            have hlong : (Row.long name valued hname).isLong
                (word.takeWhile (· ≠ '=')) = false := decide_eq_false hfound
            rw [hlong]

end Search

/-! ## The calls for one word -/

section Words

variable {options : List (List Char)} {rows : List Row} {argv rest : List Argument}
  {optindex : ℕ} {more : List (List Char × Option (List Char))} {outcome : Outcome}

/-- The calls that follow the options of a word. -/
def WordRuns (options : List (List Char)) (rest : List Argument)
    (more : List (List Char × Option (List Char))) (outcome : Outcome) :
    WordEnd → Prop
  | .closed => Calls options rest 0 more outcome
  | .unknown => more = [] ∧ outcome = .usage
  | .wants row =>
      match rest with
      | [] => more = [] ∧ outcome = .usage
      | value :: rest =>
          ∃ later, more = (row.text, some value.text) :: later ∧
            Calls options rest 0 later outcome

theorem calls_valueInNext {row : Row} {message : List Char}
    (hcall : getoption options argv optindex = valueInNext row.text message rest)
    (hruns : WordRuns options rest more outcome (.wants row)) :
    Calls options argv optindex more outcome := by
  cases rest with
  | nil =>
      obtain ⟨rfl, rfl⟩ := hruns
      exact .usage hcall
  | cons value rest =>
      obtain ⟨later, rfl, hlater⟩ := hruns
      exact .found hcall hlater

/-- What a call does with a long option, from what stands behind its name. -/
theorem longFound_text {row : Row} {av : Argument} {word : List Char}
    (hrow : row.isLong (word.takeWhile (· ≠ '=')) = true)
    (hword : av.text = '-' :: '-' :: word) (argv : List Argument) :
    ∃ message, longFound row.text av argv =
      match word.dropWhile (· ≠ '=') with
      | [] =>
          if row.valued then valueInNext row.text message argv
          else .found row.text none argv 0
      | _ :: value =>
          if row.valued then .found row.text (some value) argv 0
          else .usage message := by
  cases row with
  | short letter valued hletter => contradiction
  | long name valued hname =>
      obtain rfl : name = word.takeWhile (· ≠ '=') := of_decide_eq_true hrow
      have hdrop := drop_name hword
      simp only [longFound, longLength_text, getD_longLength, char_name hword]
      rcases dropWhile_name word with hnil | ⟨value, hvalue⟩
      · rw [hnil]
        simp only [List.getD_nil]
        cases valued with
        | true => exact ⟨_, rfl⟩
        | false => exact ⟨[], rfl⟩
      · rw [hvalue] at hdrop ⊢
        have hrest := drop_succ_of_drop hdrop
        simp only [List.getD_cons_zero, if_true, hrest]
        cases valued with
        | true => exact ⟨[], rfl⟩
        | false => exact ⟨_, rfl⟩

/-- A word with two dashes gives its option. -/
theorem calls_longOption {av : Argument} {word : List Char}
    (hword : av.text = '-' :: '-' :: word)
    (hcall : getoption options argv optindex =
      searchOptions (rows.map Row.text) av rest 0)
    (hruns : WordRuns options rest more outcome (longOption rows word).2) :
    Calls options argv optindex
      ((longOption rows word).1.map returned ++ more) outcome := by
  rw [searchOptions_long rows hword] at hcall
  rw [longOption] at hruns ⊢
  cases hfind : rows.find? (Row.isLong (word.takeWhile (· ≠ '='))) with
  | none =>
      rw [hfind] at hcall hruns
      obtain ⟨rfl, rfl⟩ := hruns
      exact .usage hcall
  | some row =>
      rw [hfind] at hcall hruns
      obtain ⟨message, hlong⟩ := longFound_text (List.find?_some hfind) hword rest
      replace hcall := hcall.trans hlong
      cases hrest : word.dropWhile (· ≠ '=') with
      | nil =>
          rw [hrest] at hcall hruns
          cases hvalued : row.valued with
          | true =>
              simp only [hvalued, if_true] at hcall hruns ⊢
              exact calls_valueInNext hcall hruns
          | false =>
              simp only [hvalued, Bool.false_eq_true, if_false] at hcall hruns ⊢
              exact .found hcall hruns
      | cons equal value =>
          rw [hrest] at hcall hruns
          cases hvalued : row.valued with
          | true =>
              simp only [hvalued, if_true] at hcall hruns ⊢
              exact .found hcall hruns
          | false =>
              simp only [hvalued, Bool.false_eq_true, if_false] at hcall hruns ⊢
              obtain ⟨rfl, rfl⟩ := hruns
              exact .usage hcall

/-- Behind the last letter the next word is looked at. -/
theorem getoption_wordEnd {av : Argument} (hindex : optindex ≠ 0)
    (hchar : av.char (optindex + 1) = nul) :
    getoption options (av :: rest) optindex = getoption options rest 0 := by
  obtain ⟨index, rfl⟩ := Nat.exists_eq_succ_of_ne_zero hindex
  rw [getoption, nextLetter, if_pos hchar]
  rfl

theorem getoption_letter {av : Argument} (hindex : optindex ≠ 0)
    (hchar : av.char (optindex + 1) ≠ nul) :
    getoption options (av :: rest) optindex =
      searchOptions options av rest (optindex + 1) := by
  obtain ⟨index, rfl⟩ := Nat.exists_eq_succ_of_ne_zero hindex
  rw [getoption, nextLetter, if_neg hchar]
  rfl

/-- The calls depend on the first one alone. -/
theorem calls_congr {argv' : List Argument} {optindex' : ℕ}
    (hcall : getoption options argv optindex = getoption options argv' optindex')
    (hcalls : Calls options argv' optindex' more outcome) :
    Calls options argv optindex more outcome := by
  cases hcalls with
  | finished hfirst => exact .finished (hcall.trans hfirst)
  | usage hfirst => exact .usage (hcall.trans hfirst)
  | found hfirst hmore => exact .found (hcall.trans hfirst) hmore

/-- What a call does with a short option, from the letters behind it. -/
theorem shortFound_text {row : Row} {av : Argument} {letter : Char}
    {letters : List Char} (hrow : row.isShort letter = true)
    (hdrop : av.text.drop optindex = letter :: letters) (argv : List Argument) :
    ∃ message, shortFound row.text av argv optindex =
      if row.valued then
        if letters = [] then valueInNext row.text message argv
        else .found row.text (some letters) argv 0
      else .found row.text none (av :: argv) optindex := by
  cases row with
  | long name valued hname => contradiction
  | short other valued hletter =>
      refine ⟨"Option -".toList ++ other :: " requires an argument.".toList, ?_⟩
      rw [shortFound, char_succ_of_drop hdrop, drop_succ_of_drop hdrop]
      cases valued with
      | false =>
          have hthird := (getD_two_short other false hletter).not.2 Bool.false_ne_true
          exact if_pos hthird
      | true =>
          have hthird := (getD_two_short other true hletter).2 rfl
          rw [if_neg (not_not_intro hthird)]
          cases letters with
          | nil => rfl
          | cons second letters =>
              have hsecond := ne_nul_of_drop (drop_succ_of_drop hdrop)
              exact if_pos hsecond

/-- The call for one letter, and the calls for those behind it. -/
theorem calls_letter {av : Argument} {letter : Char} {letters : List Char}
    (hindex : optindex ≠ 0) (hdrop : av.text.drop optindex = letter :: letters)
    {index : ℕ}
    (hcall : getoption (rows.map Row.text) argv index =
      searchOptions (rows.map Row.text) av rest optindex)
    (hruns : WordRuns (rows.map Row.text) rest more outcome
      (clusterOptions rows (letter :: letters)).2)
    (hnext : WordRuns (rows.map Row.text) rest more outcome
        (clusterOptions rows letters).2 →
      Calls (rows.map Row.text) (av :: rest) optindex
        ((clusterOptions rows letters).1.map returned ++ more) outcome) :
    Calls (rows.map Row.text) argv index
      ((clusterOptions rows (letter :: letters)).1.map returned ++ more) outcome := by
  rw [searchOptions_short rows av rest hindex, char_of_drop_cons hdrop] at hcall
  rw [clusterOptions] at hruns ⊢
  cases hfind : rows.find? (Row.isShort letter) with
  | none =>
      rw [hfind] at hcall hruns
      obtain ⟨rfl, rfl⟩ := hruns
      exact .usage hcall
  | some row =>
      rw [hfind] at hcall hruns
      obtain ⟨message, hshort⟩ := shortFound_text (List.find?_some hfind) hdrop rest
      replace hcall := hcall.trans hshort
      cases hvalued : row.valued with
      | true =>
          simp only [hvalued, if_true] at hcall hruns ⊢
          split_ifs at hcall hruns ⊢ with hletters
          · exact calls_valueInNext hcall hruns
          · exact .found hcall hruns
      | false =>
          simp only [hvalued, Bool.false_eq_true, if_false] at hcall hruns ⊢
          exact .found hcall (hnext hruns)

/-- The letters of a cluster give their options, one call each. -/
theorem calls_clusterOptions {av : Argument} {letters : List Char} {letter : Char}
    (hindex : optindex ≠ 0) (hdrop : av.text.drop optindex = letter :: letters)
    {index : ℕ}
    (hcall : getoption (rows.map Row.text) argv index =
      searchOptions (rows.map Row.text) av rest optindex)
    (hruns : WordRuns (rows.map Row.text) rest more outcome
      (clusterOptions rows (letter :: letters)).2) :
    Calls (rows.map Row.text) argv index
      ((clusterOptions rows (letter :: letters)).1.map returned ++ more) outcome := by
  induction letters generalizing argv index optindex letter with
  | nil =>
      apply calls_letter hindex hdrop hcall hruns
      intro hclosed
      exact calls_congr (getoption_wordEnd hindex (char_succ_of_drop hdrop)) hclosed
  | cons second letters ih =>
      apply calls_letter hindex hdrop hcall hruns
      intro hlater
      have hsecond := drop_succ_of_drop hdrop
      have hchar : av.char (optindex + 1) ≠ nul := by
        rw [char_of_drop_cons hsecond]
        exact ne_nul_of_drop hsecond
      exact ih (Nat.succ_ne_zero _) hsecond (getoption_letter hindex hchar) hlater

end Words

/-! ## The calls for all words -/

section Runs

variable {options : List (List Char)} {rows : List Row} {word : Argument}
  {rest : List Argument} {more : List (List Char × Option (List Char))}
  {outcome : Outcome}

theorem char_zero (av : Argument) : av.char 0 = av.text.getD 0 nul :=
  char_of_drop (Nat.zero_le _) rfl

theorem readWord_ne_operand (letter : Char) (letters : List Char) :
    readWord rows ('-' :: letter :: letters) ≠ .operand := by
  unfold readWord
  split
  · exact Reading.noConfusion
  · exact Reading.noConfusion
  · exact Reading.noConfusion
  · next hcluster =>
    exact absurd rfl (hcluster letter letters)

/-- An argument that is no option. -/
theorem getoption_operand (hread : readWord rows word.text = .operand) :
    getoption options (word :: rest) 0 =
      .finished (if word.char 1 = '-' then rest else word :: rest) := by
  have hstop : word.char 0 ≠ '-' ∨ word.char 1 = nul ∨
      word.char 1 = '-' ∧ word.char 2 = nul := by
    rw [char_zero]
    cases htext : word.text with
    | nil =>
        left
        exact of_decide_eq_true rfl
    | cons first letters =>
        by_cases hfirst : first = '-'
        · cases letters with
          | nil =>
              right
              left
              exact char_succ_of_drop (drop_zero_of_text htext)
          | cons letter letters =>
              rw [htext, hfirst] at hread
              exact absurd hread (readWord_ne_operand letter letters)
        · exact Or.inl hfirst
  rw [getoption, nextLetter]
  exact (if_pos rfl).trans (if_pos hstop)

/-- The argument `--`. -/
theorem getoption_dashes (hread : readWord rows word.text = .dashes) :
    getoption options (word :: rest) 0 = .finished rest := by
  have htext : word.text = ['-', '-'] := by
    unfold readWord at hread
    split at hread
    · assumption
    · contradiction
    · contradiction
    · contradiction
  have hfirst : word.char 1 = '-' := char_succ_of_drop (drop_zero_of_text htext)
  have hsecond : word.char 2 = nul :=
    char_succ_of_drop (drop_succ_of_drop (drop_zero_of_text htext))
  rw [getoption, nextLetter]
  exact (if_pos rfl).trans ((if_pos (Or.inr (Or.inr ⟨hfirst, hsecond⟩))).trans
    (congrArg Call.finished (if_pos hfirst)))

/-- An argument that begins with a dash and is not over. -/
theorem getoption_search {letter : Char} {letters : List Char}
    (htext : word.text = '-' :: letter :: letters)
    (hmore : letter = '-' → letters ≠ []) :
    getoption options (word :: rest) 0 =
      searchOptions options word rest (if letter ≠ '-' then 1 else 0) := by
  have hdrop : word.text.drop 1 = letter :: letters :=
    drop_succ_of_drop (drop_zero_of_text htext)
  have hfirst : word.char 1 = letter := char_of_drop_cons hdrop
  have hgoes : ¬ (word.char 0 ≠ '-' ∨ word.char 1 = nul ∨
      word.char 1 = '-' ∧ word.char 2 = nul) := by
    rw [char_zero, htext, hfirst, char_succ_of_drop hdrop]
    rintro (hzero | hnul | ⟨hletter, hnul⟩)
    · exact hzero rfl
    · exact ne_nul_of_drop hdrop hnul
    · cases letters with
      | nil => exact hmore hletter rfl
      | cons second letters =>
          exact ne_nul_of_drop (drop_succ_of_drop hdrop) hnul
  rw [getoption, nextLetter]
  refine (if_pos rfl).trans ((if_neg hgoes).trans ?_)
  rw [hfirst]

/-- A word of options. -/
theorem calls_word {found : List Found} {wordEnd : WordEnd}
    (hread : readWord rows word.text = .options found wordEnd)
    (hruns : WordRuns (rows.map Row.text) rest more outcome wordEnd) :
    Calls (rows.map Row.text) (word :: rest) 0 (found.map returned ++ more) outcome := by
  unfold readWord at hread
  split at hread
  · contradiction
  · next name hname htext =>
    obtain ⟨rfl, rfl⟩ := Reading.options.inj hread
    apply calls_longOption htext _ hruns
    apply getoption_search htext
    rintro - rfl
    exact hname rfl
  · next letter letters _ hletter htext =>
    obtain ⟨rfl, rfl⟩ := Reading.options.inj hread
    have hcall := @getoption_search (rows.map Row.text) word rest letter letters htext
      fun h => absurd h hletter
    rw [if_pos hletter] at hcall
    exact calls_clusterOptions one_ne_zero (drop_succ_of_drop (drop_zero_of_text htext)) hcall
      hruns
  · contradiction

/-- How the calls do end: the test for `--` looks at the second character of any
argument that is no option. -/
def Ending.reached : Ending → Outcome
  | .operands false (word :: rest) =>
      .finished (if word.char 1 = '-' then rest else word :: rest)
  | .operands _ rest => .finished rest
  | .usage => .usage

/-- The calls return the options of the conventions. -/
theorem calls_conventions (rows : List Row) (args : List Argument) :
    Calls (rows.map Row.text) args 0 ((conventions rows args).1.map returned)
      (conventions rows args).2.reached := by
  fun_induction conventions rows args with
  | case1 => exact .finished rfl
  | case2 word rest hread => exact .finished (getoption_operand hread)
  | case3 word rest hread => exact .finished (getoption_dashes hread)
  | case4 word rest found hread ih =>
      rw [List.map_append]
      exact calls_word hread ih
  | case5 word rest found hread =>
      have hcalls := @calls_word rows word rest [] _ _ _ hread ⟨rfl, rfl⟩
      rwa [List.append_nil] at hcalls
  | case6 word found row hread =>
      have hcalls := @calls_word rows word [] [] _ _ _ hread ⟨rfl, rfl⟩
      rwa [List.append_nil] at hcalls
  | case7 word found row hread value rest ih =>
      rw [List.map_append]
      exact calls_word hread ⟨_, rfl, ih⟩

/-- The calls have one outcome. -/
theorem calls_unique {argv : List Argument} {optindex : ℕ}
    {found found' : List (List Char × Option (List Char))} {outcome' : Outcome}
    (hcalls : Calls options argv optindex found outcome)
    (hcalls' : Calls options argv optindex found' outcome') :
    found = found' ∧ outcome = outcome' := by
  induction hcalls generalizing found' outcome' with
  | finished hcall =>
      cases hcalls' with
      | finished hcall' =>
          have hrest := Call.finished.inj (hcall.symm.trans hcall')
          exact ⟨rfl, congrArg Outcome.finished hrest⟩
      | usage hcall' => cases hcall.symm.trans hcall'
      | found hcall' hmore' => cases hcall.symm.trans hcall'
  | usage hcall =>
      cases hcalls' with
      | finished hcall' => cases hcall.symm.trans hcall'
      | usage hcall' => exact ⟨rfl, rfl⟩
      | found hcall' hmore' => cases hcall.symm.trans hcall'
  | found hcall hmore ih =>
      cases hcalls' with
      | finished hcall' => cases hcall.symm.trans hcall'
      | usage hcall' => cases hcall.symm.trans hcall'
      | found hcall' hmore' =>
          obtain ⟨rfl, rfl, rfl, rfl⟩ := Call.found.inj (hcall.symm.trans hcall')
          obtain ⟨rfl, rfl⟩ := ih hmore'
          exact ⟨rfl, rfl⟩

/-- The calls end as the conventions do where no argument is passed over. -/
theorem Ending.reached_eq {ending : Ending}
    (hdash : ∀ word rest, ending = .operands false (word :: rest) →
      word.char 1 ≠ '-') :
    ending.reached = ending.outcome := by
  match ending with
  | .operands true rest => rfl
  | .operands false [] => rfl
  | .operands false (word :: rest) =>
      exact congrArg Outcome.finished (if_neg (hdash word rest rfl))
  | .usage => rfl

/-- The calls follow the conventions exactly where the first argument that is no option
has no dash as its second character. -/
theorem getoption_right_iff (rows : List Row) (args : List Argument) :
    GetoptionRight rows args ↔ GetoptionMeets rows args := by
  constructor
  · intro hright word rest hend hdash
    have hreached := (calls_unique hright (calls_conventions rows args)).2
    rw [hend, Ending.outcome, Ending.reached, if_pos hdash] at hreached
    exact List.cons_ne_self word rest (Outcome.finished.inj hreached)
  · intro hmeets
    rw [GetoptionRight, ← Ending.reached_eq hmeets]
    exact calls_conventions rows args

/-- `x-prog` is passed over. -/
theorem getoption_wrong :
    ¬ GetoptionRight Getoption.options
      [⟨"x-prog".toList, [], by decide⟩, ⟨"arg".toList, [], by decide⟩] := by
  intro hright
  have hfirst : Calls (Getoption.options.map Row.text)
      [⟨"x-prog".toList, [], by decide⟩, ⟨"arg".toList, [], by decide⟩] 0 []
      (.finished [⟨"arg".toList, [], by decide⟩]) := .finished rfl
  have hend := (calls_unique hright hfirst).2
  exact List.cons_ne_self _ _ (Outcome.finished.inj hend)

end Runs

end IbcsUs.Getoption
