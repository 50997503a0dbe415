import Mathlib.Data.BitVec
import Mathlib.Data.Nat.Cast.Order.Ring
import Mathlib.Order.Nat

/-!
# Paths as components

A path is a text; its components are what stands between its slashes.  Resolving
them one after the other on a stack of names gives an absolute name: empty and
`.` components say nothing, `..` takes away a name, and nothing is above the
root.
-/

namespace IbcsUs.Paths

/-- A text, without terminator. -/
abbrev Text := List Char

/-- The parts between the slashes. -/
def components (path : Text) : List Text := path.splitOn '/'

/-- A component that names something. -/
structure IsName (component : Text) : Prop where
  ne_nil : component ≠ []
  ne_dot : component ≠ ['.']
  ne_dotDot : component ≠ ['.', '.']
  no_slash : '/' ∉ component

/-- One component on a stack of names. -/
def resolveStep (names : List Text) (component : Text) : List Text :=
  if component = [] ∨ component = ['.'] then names
  else if component = ['.', '.'] then names.dropLast
  else names ++ [component]

/-- The names that components lead to. -/
def resolve (names : List Text) (parts : List Text) : List Text :=
  parts.foldl resolveStep names

/-- One component on the stack of a path.  A `..` is ignored at the root; a
stack that stands on nothing keeps it where it has no name to take away. -/
def stackStep (rooted : Bool) (stack : List Text) (part : Text) : List Text :=
  if part = [] ∨ part = ['.'] then stack
  else if part = ['.', '.'] then
    if rooted then stack.dropLast
    else if stack = [] ∨ stack.getLast? = some ['.', '.'] then stack ++ [part]
    else stack.dropLast
  else stack ++ [part]

/-- The stack that components lead to. -/
def stackRun (rooted : Bool) (stack : List Text) (parts : List Text) :
    List Text :=
  parts.foldl (stackStep rooted) stack

/-- The absolute name. -/
def pathText (names : List Text) : Text :=
  if names = [] then ['/'] else names.flatMap ('/' :: ·)

/-- The absolute name of a directory, with a slash behind it. -/
def dirText (names : List Text) : Text := '/' :: names.flatMap (· ++ ['/'])

/-- The path of a stack. -/
def stackText (rooted : Bool) (stack : List Text) : Text :=
  if rooted then '/' :: ['/'].intercalate stack
  else if stack = [] then ['.']
  else ['/'].intercalate stack

section Components

variable {component rest : Text}

theorem components_of_notMem (hslash : '/' ∉ component) :
    components component = [component] :=
  List.splitOn_eq_singleton hslash

theorem components_append (hslash : '/' ∉ component) (rest : Text) :
    components (component ++ '/' :: rest) = component :: components rest :=
  List.splitOn_append_cons_self_of_not_mem hslash rest

/-- A text is a single part, or one followed by a separator and a text. -/
theorem split_cases (separator : Char) (text : Text) :
    separator ∉ text ∨ ∃ part rest, separator ∉ part ∧
      text = part ++ separator :: rest := by
  by_cases hseparator : separator ∈ text
  · obtain ⟨part, rest, rfl, hnot⟩ := List.eq_append_cons_of_mem hseparator
    exact .inr ⟨part, rest, hnot, rfl⟩
  · exact .inl hseparator

end Components

section Texts

variable {names : List Text} {component : Text}

theorem dirText_ne_nil (names : List Text) : dirText names ≠ [] := by
  simp [dirText]

theorem dirText_append (names : List Text) (component : Text) :
    dirText (names ++ [component]) = dirText names ++ component ++ ['/'] := by
  simp [dirText]

theorem pathText_append (names : List Text) (component : Text) :
    pathText (names ++ [component]) = dirText names ++ component := by
  have hshift : ∀ names : List Text,
      names.flatMap ('/' :: ·) ++ ['/'] = dirText names := by
    intro names
    induction names with
    | nil => rfl
    | cons name names ih =>
        simp only [List.flatMap_cons, List.append_assoc, ih]
        simp [dirText]
  simp only [pathText, List.append_eq_nil_iff, List.cons_ne_self, and_false,
    if_false, List.flatMap_append, List.flatMap_singleton, ← hshift names]
  simp

theorem dirText_eq_pathText_append (hne : names ≠ []) :
    dirText names = pathText names ++ ['/'] := by
  obtain ⟨front, last, rfl⟩ := List.eq_nil_or_concat' names |>.resolve_left hne
  rw [dirText_append, pathText_append]

/-- On the root the stack holds the names. -/
theorem stackRun_true (names parts : List Text) :
    stackRun true names parts = resolve names parts := by
  have hstep : stackStep true = resolveStep := by
    funext stack part
    simp [stackStep, resolveStep]
  rw [stackRun, resolve, hstep]

theorem stackRun_cons (rooted : Bool) (stack : List Text) (part : Text)
    (parts : List Text) :
    stackRun rooted stack (part :: parts) =
      stackRun rooted (stackStep rooted stack part) parts := rfl

/-- Components, each with the slash that follows it. -/
theorem intercalate_append (stack : List Text) (part : Text) :
    ['/'].intercalate (stack ++ [part]) = stack.flatMap (· ++ ['/']) ++ part := by
  induction stack with
  | nil => simp
  | cons first stack ih =>
      obtain ⟨next, rest, hrest⟩ :=
        List.exists_cons_of_ne_nil (List.concat_ne_nil part stack)
      rw [List.cons_append, hrest, List.intercalate_cons_cons, ← hrest, ih]
      simp

theorem stackText_true (names : List Text) :
    stackText true names = pathText names := by
  obtain rfl | ⟨front, last, rfl⟩ := List.eq_nil_or_concat' names
  · rfl
  · rw [stackText, if_pos rfl, intercalate_append, pathText_append]
    rfl

theorem resolve_cons (names : List Text) (component : Text)
    (parts : List Text) :
    resolve names (component :: parts) =
      resolve (resolveStep names component) parts := rfl

end Texts

end IbcsUs.Paths
