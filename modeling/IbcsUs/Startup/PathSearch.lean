import Mathlib.Data.BitVec
import Mathlib.Data.Char
import Mathlib.Data.Nat.Cast.Order.Ring
import Mathlib.Order.Nat

/-!
# Searching the program along `PATH`

`load_binary` asks `load_binfmt` for one candidate file after the other, as the C
library's `execvp` does.  The loop builds each candidate in a buffer and goes on
from where that buffer has the name, not from where it stopped in `PATH`: after a
first failure it reads the rest of the program's name as if it were the rest of
`PATH`, over and over.  The buffer has left its scope by then; it is read as it was
left.
-/

namespace IbcsUs.Startup

/-- A C string, without its terminator. -/
abbrev Text := List Char

def enoent : ℤ := 2

def eacces : ℤ := 13

/-- The error numbers after which the search goes on, other than `EACCES`: `ENOENT`,
`ESTALE`, `ENOTDIR`, `ENODEV` and `ETIMEDOUT`. -/
def passedErrors : List ℤ := [enoent, 116, 20, 19, 110]

/-- `ibcs_getenv`. -/
def ibcsGetenv (envp : List Text) (name : Text) : Option Text :=
  envp.findSome? fun entry =>
    if (name ++ ['=']).isPrefixOf entry then some (entry.drop (name.length + 1))
    else none

/-- The text of a search path up to its next colon. -/
def pathElement (pathEnv : Text) : Text := pathEnv.takeWhile (· ≠ ':')

/-- What the buffer holds: the element, a slash unless it is empty, and the name. -/
def candidate (name element : Text) : Text :=
  if element = [] then name else element ++ '/' :: name

/-- The `switch` on an error: the error to remember, `none` for one that is returned
at once. -/
def rememberError (lastErr err : ℤ) : Option ℤ :=
  if err = -eacces then some err
  else if -err ∈ passedErrors then some (if lastErr = 0 then err else lastErr)
  else none

/-- The loop of `load_binary`: the files tried and the value returned.  `load` is
`load_binfmt`. -/
def searchPath (load : Text → ℤ) (name : Text) :
    ℕ → Text → ℤ → Option (List Text × ℤ)
  | 0, _, _ => none
  | fuel + 1, pathEnv, lastErr =>
      let file := candidate name (pathElement pathEnv)
      let err := load file
      if 0 ≤ err then some ([file], err)
      else
        match rememberError lastErr err with
        | none => some ([file], err)
        | some lastErr =>
            -- `path_env = b`, and `b` is where the buffer has the name
            match name with
            | [] => some ([file], lastErr)
            | _ :: pathEnv =>
                (searchPath load name fuel pathEnv lastErr).map
                  fun (files, ret) => (file :: files, ret)

/-- `load_binary`. -/
def loadBinary (load : Text → ℤ) (envp : List Text) (name : Text) (fuel : ℕ) :
    Option (List Text × ℤ) :=
  if '/' ∈ name then some ([name], load name)
  else
    match ibcsGetenv envp "PATH".toList with
    | none => some ([], -enoent)
    | some pathEnv => searchPath load name fuel pathEnv 0

/-! ## What the search is for -/

/-- A success, or an error that ends the search. -/
def Decisive (err : ℤ) : Prop := 0 ≤ err ∨ err ≠ -eacces ∧ -err ∉ passedErrors

instance decidableDecisive (err : ℤ) : Decidable (Decisive err) :=
  inferInstanceAs (Decidable (_ ∨ _ ∧ _))

/-- The files `execvp` tries and the value it returns. -/
def execvp (load : Text → ℤ) (files : List Text) : List Text × ℤ :=
  match files.find? fun file => Decisive (load file) with
  | some file =>
      (files.takeWhile (fun file => ¬ Decisive (load file)) ++ [file],
        load file)
  | none =>
      (files, if files.any fun file => load file = -eacces then -eacces
        else (files.head?.map load).getD 0)

/-- The candidates of a search path, in its order. -/
def candidates (name pathEnv : Text) : List Text :=
  (pathEnv.splitOn ':').map (candidate name)

/-- The search ends, having tried what `execvp` tries, with its result. -/
def SearchesPath (load : Text → ℤ) (envp : List Text) (name pathEnv : Text) :
    Prop :=
  ∃ fuel, loadBinary load envp name fuel =
    some (execvp load (candidates name pathEnv))

/-- The first candidate is decisive; or the name is empty and the path has one
element; or the second element is what follows the first letter of the name, and its
candidate is decisive. -/
def PathMeets (load : Text → ℤ) (name pathEnv : Text) : Prop :=
  Decisive (load (candidate name (pathElement pathEnv))) ∨
    name = [] ∧ ':' ∉ pathEnv ∨
    name ≠ [] ∧ (pathEnv.splitOn ':')[1]? = some (pathElement name.tail) ∧
      Decisive (load (candidate name (pathElement name.tail)))

/-! ## The loop -/

section Search

variable {load : Text → ℤ} {name pathEnv : Text}

theorem rememberError_eq_none_or_iff (lastErr : ℤ) {err : ℤ} :
    (0 ≤ err ∨ rememberError lastErr err = none) ↔ Decisive err := by
  unfold rememberError Decisive
  split_ifs with hacces hpassed
  · simp [hacces, eacces]
  · simp [hpassed]
  · simp [hacces, hpassed]

/-- The first error is the one remembered. -/
theorem rememberError_zero {err : ℤ} (hsoft : ¬ Decisive err) :
    rememberError 0 err = some err := by
  unfold rememberError
  unfold Decisive at hsoft
  push Not at hsoft
  by_cases hacces : err = -eacces
  · rw [if_pos hacces]
  · rw [if_neg hacces, if_pos (hsoft.2 hacces), if_pos rfl]

theorem searchPath_of_decisive {fuel : ℕ} {lastErr : ℤ}
    (hdecisive : Decisive (load (candidate name (pathElement pathEnv)))) :
    searchPath load name (fuel + 1) pathEnv lastErr =
      some ([candidate name (pathElement pathEnv)],
        load (candidate name (pathElement pathEnv))) := by
  rw [searchPath]
  rcases (rememberError_eq_none_or_iff lastErr).2 hdecisive with
    hok | hnone
  · simp [hok]
  · simp [hnone]

/-- After an error that does not end the search the loop goes on with what follows
the first letter of the name. -/
theorem searchPath_of_not_decisive (fuel : ℕ) (lastErr : ℤ)
    (hname : name ≠ [])
    (hsoft : ¬ Decisive (load (candidate name (pathElement pathEnv)))) :
    ∃ nextErr, searchPath load name (fuel + 1) pathEnv lastErr =
      (searchPath load name fuel name.tail nextErr).map fun (files, ret) =>
        (candidate name (pathElement pathEnv) :: files, ret) := by
  rw [← rememberError_eq_none_or_iff lastErr] at hsoft
  push Not at hsoft
  obtain ⟨nextErr, hnext⟩ := Option.ne_none_iff_exists'.1 hsoft.2
  obtain ⟨letter, rest, rfl⟩ := List.exists_cons_of_ne_nil hname
  refine ⟨nextErr, ?_⟩
  rw [searchPath]
  simp [hsoft.1, hnext]

/-- Once it reads the name, the loop tries one file for ever. -/
theorem searchPath_tail_eq_none (hname : name ≠ [])
    (hsoft : ¬ Decisive (load (candidate name (pathElement name.tail))))
    (fuel : ℕ) (lastErr : ℤ) :
    searchPath load name fuel name.tail lastErr = none := by
  induction fuel generalizing lastErr with
  | zero => rfl
  | succ fuel ih =>
      obtain ⟨nextErr, hstep⟩ :=
        searchPath_of_not_decisive fuel lastErr hname hsoft
      rw [hstep, ih, Option.map_none]

/-! ## The search of `execvp` -/

theorem candidate_injective : Function.Injective (candidate name) := by
  intro first second heq
  unfold candidate at heq
  split_ifs at heq with hfirst hsecond hsecond
  · rw [hfirst, hsecond]
  · have hlength := congrArg List.length heq
    simp at hlength
    omega
  · have hlength := congrArg List.length heq
    simp at hlength
    omega
  · exact List.append_cancel_right heq

theorem execvp_cons_of_decisive {file : Text} {files : List Text}
    (hdecisive : Decisive (load file)) :
    execvp load (file :: files) = ([file], load file) := by
  simp [execvp, hdecisive]

theorem execvp_cons_files {file : Text} {files : List Text}
    (hsoft : ¬ Decisive (load file)) :
    (execvp load (file :: files)).1 = file :: (execvp load files).1 := by
  unfold execvp
  rw [List.find?_cons_of_neg (by simpa using hsoft)]
  cases files.find? fun file => Decisive (load file) with
  | none => rfl
  | some found => simp [hsoft]

theorem execvp_cons_value {file : Text} {files : List Text}
    (hsoft : ¬ Decisive (load file))
    (hfound : ∃ found ∈ files, Decisive (load found)) :
    (execvp load (file :: files)).2 = (execvp load files).2 := by
  unfold execvp
  rw [List.find?_cons_of_neg (by simpa using hsoft)]
  cases hfind : files.find? fun file => Decisive (load file) with
  | none =>
      obtain ⟨found, hmem, hdecisive⟩ := hfound
      have hall := List.find?_eq_none.1 hfind found hmem
      simp [hdecisive] at hall
  | some found => rfl

/-- A single candidate decides by itself. -/
theorem execvp_singleton (file : Text) :
    execvp load [file] = ([file], load file) := by
  by_cases hdecisive : Decisive (load file)
  · exact execvp_cons_of_decisive hdecisive
  · rw [execvp]
    rw [List.find?_cons_of_neg (by simpa using hdecisive)]
    by_cases hacces : load file = -eacces <;> simp [hacces]

theorem execvp_cons_head (load : Text → ℤ) (file : Text) (files : List Text) :
    (execvp load (file :: files)).1.head? = some file := by
  by_cases hdecisive : Decisive (load file)
  · rw [execvp_cons_of_decisive hdecisive]
    rfl
  · rw [execvp_cons_files hdecisive]
    rfl

theorem splitOn_colon (pathEnv : Text) :
    ∃ rest, pathEnv.splitOn ':' = pathElement pathEnv :: rest ∧
      (rest = [] ↔ ':' ∉ pathEnv) := by
  induction pathEnv with
  | nil => exact ⟨[], by simp [pathElement]⟩
  | cons letter pathEnv ih =>
      obtain ⟨rest, hsplit, hrest⟩ := ih
      by_cases hcolon : letter = ':'
      · subst hcolon
        refine ⟨pathElement pathEnv :: rest, ?_, by simp⟩
        simp [List.splitOn_cons_eq_if_modifyHead, hsplit, pathElement]
      · refine ⟨rest, ?_, by simp [hrest, Ne.symm hcolon]⟩
        simp [List.splitOn_cons_eq_if_modifyHead, hsplit, pathElement, hcolon]

/-! ## When the loop is the search of `execvp` -/

/-- With an empty name the loop stops after one file. -/
theorem searchPath_of_empty_name (fuel : ℕ)
    (hsoft : ¬ Decisive (load (candidate [] (pathElement pathEnv)))) :
    searchPath load [] (fuel + 1) pathEnv 0 =
      some ([candidate [] (pathElement pathEnv)],
        load (candidate [] (pathElement pathEnv))) := by
  have hneg : ¬ 0 ≤ load (candidate [] (pathElement pathEnv)) :=
    fun hok => hsoft (.inl hok)
  rw [searchPath]
  simp [hneg, rememberError_zero hsoft]

/-- With another name the loop ends only at the file after the first. -/
theorem searchPath_eq_some_iff (hname : name ≠ [])
    (hsoft : ¬ Decisive (load (candidate name (pathElement pathEnv))))
    (result : List Text × ℤ) :
    (∃ fuel, searchPath load name fuel pathEnv 0 = some result) ↔
      Decisive (load (candidate name (pathElement name.tail))) ∧
        result = ([candidate name (pathElement pathEnv),
            candidate name (pathElement name.tail)],
          load (candidate name (pathElement name.tail))) := by
  constructor
  · rintro ⟨fuel, hrun⟩
    obtain - | fuel := fuel
    · cases hrun
    obtain ⟨nextErr, hstep⟩ := searchPath_of_not_decisive fuel 0 hname hsoft
    rw [hstep] at hrun
    by_cases hdecisive : Decisive
      (load (candidate name (pathElement name.tail)))
    · obtain - | fuel := fuel
      · cases hrun
      rw [searchPath_of_decisive hdecisive] at hrun
      exact ⟨hdecisive, (Option.some.inj hrun).symm⟩
    · rw [searchPath_tail_eq_none hname hdecisive] at hrun
      cases hrun
  · rintro ⟨hdecisive, rfl⟩
    obtain ⟨nextErr, hstep⟩ := searchPath_of_not_decisive 1 0 hname hsoft
    refine ⟨2, ?_⟩
    rw [hstep, searchPath_of_decisive hdecisive]
    rfl

/-- The search of `execvp` after a first file that does not end it. -/
theorem execvp_eq_pair_iff {first second : Text} {files : List Text}
    (hfirst : ¬ Decisive (load first)) (hsecond : Decisive (load second)) :
    execvp load (first :: files) = ([first, second], load second) ↔
      files.head? = some second := by
  constructor
  · intro heq
    have hfiles : (execvp load files).1 = [second] := by
      have := congrArg Prod.fst heq
      rw [execvp_cons_files hfirst] at this
      exact List.tail_eq_of_cons_eq this
    cases files with
    | nil => cases hfiles
    | cons next files =>
        have hhead := execvp_cons_head load next files
        rw [hfiles] at hhead
        exact hhead.symm
  · intro hhead
    obtain ⟨files, rfl⟩ := List.head?_eq_some_iff.1 hhead
    apply Prod.ext
    · rw [execvp_cons_files hfirst, execvp_cons_of_decisive hsecond]
    · rw [execvp_cons_value hfirst ⟨second, List.mem_cons_self, hsecond⟩,
        execvp_cons_of_decisive hsecond]

end Search

/-- A file system that has one program. -/
def loadOnly (program file : Text) : ℤ := if file = program then 0 else -enoent

end IbcsUs.Startup
