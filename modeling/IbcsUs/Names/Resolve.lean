import Mathlib.Algebra.BigOperators.Group.List.Basic
import IbcsUs.Names.Normalise

/-!
# What a name comes to

A path that `normalise_path` can make room for should come to what its
components resolve to on a stack.  It does, except for a relative name made
absolute in the root: the slash put behind the current directory is then one too
many, and it stays unless the name comes to the root or climbs above it.
-/

namespace IbcsUs.Names

open IbcsUs.Paths

/-! ## The path that is meant -/

/-- Whether the result is an absolute name. -/
def isRooted (src : Text) (isAbs : Bool) : Bool :=
  decide (src.head? = some '/') || isAbs

/-- The components that a path starts from. -/
def startStack (getcwd : Except ℕ (List Text)) (src : Text) (isAbs : Bool) :
    List Text :=
  if src.head? = some '/' then []
  else if isAbs then getcwd.toOption.getD []
  else []

/-- The path that a path resolves to. -/
def resolvedPath (getcwd : Except ℕ (List Text)) (src : Text) (isAbs : Bool) :
    Text :=
  stackText (isRooted src isAbs)
    (stackRun (isRooted src isAbs) (startStack getcwd src isAbs)
      (components src))

/-- Some `..` is met at the root. -/
def ClimbsAboveRoot (parts : List Text) : Prop :=
  ∃ before after, parts = before ++ ['.', '.'] :: after ∧
    resolve [] before = []

/-- The path is not a relative one that is made absolute in the root, or it
comes to the root or climbs above it. -/
def ResolveMeets (getcwd : Except ℕ (List Text)) (src : Text) (isAbs : Bool) :
    Prop :=
  src.head? = some '/' ∨ isAbs = false ∨ getcwd ≠ .ok [] ∨
    resolve [] (components src) = [] ∨ ClimbsAboveRoot (components src)

/-! ## Absolute results -/

section Rooted

variable {size : ℕ} {names parts : List Text} {part src text : Text}
  {result : Except NormaliseError Text}

/-- The slash too many goes where a `..` is met at the root. -/
theorem keepsSlashes_true (names parts : List Text) :
    keepsSlashes true names parts = false ↔
      ∃ before after, parts = before ++ ['.', '.'] :: after ∧
        resolve names before = [] := by
  induction parts generalizing names with
  | nil => simp [keepsSlashes]
  | cons part parts ih =>
      by_cases htop : part = ['.', '.'] ∧ names = []
      · obtain ⟨rfl, rfl⟩ := htop
        have hgone : keepsSlash true [] ['.', '.'] = false := by decide
        rw [keepsSlashes, hgone, keepsSlashes_false]
        exact iff_of_true rfl ⟨[], parts, rfl, rfl⟩
      · have hkept : keepsSlash true names part = true := by
          simpa [keepsSlash, or_iff_not_imp_left] using htop
        rw [keepsSlashes, hkept, ih]
        constructor
        · rintro ⟨before, after, rfl, hroot⟩
          exact ⟨part :: before, after, rfl, hroot⟩
        · rintro ⟨before, after, hparts, hroot⟩
          cases before with
          | nil =>
              obtain ⟨rfl, -⟩ := List.cons.inj hparts
              exact absurd ⟨rfl, hroot⟩ htop
          | cons first before =>
              obtain ⟨rfl, rfl⟩ := List.cons.inj hparts
              exact ⟨before, after, rfl, hroot⟩

/-- The slash in front makes a difference wherever there is a name behind it. -/
theorem doubledText_eq_pathText_iff (doubled : Bool) (names : List Text) :
    doubledText doubled names = pathText names ↔
      doubled = false ∨ names = [] := by
  unfold doubledText
  split_ifs with hdoubled
  · simp [hdoubled.1, hdoubled.2]
  · rw [not_and_or, not_not, Bool.not_eq_true] at hdoubled
    exact iff_of_true rfl hdoubled

/-- A run that ends well ends with the resolved components. -/
theorem eq_of_endsAt {doubled : Bool}
    (hends : EndsAt size doubled names parts result)
    (hok : result = .ok text) :
    text = doubledText (keepsSlashes doubled names parts)
      (resolve names parts) := by
  unfold EndsAt at hends
  split_ifs at hends
  · exact Except.ok.inj (hok.symm.trans hends)
  · obtain ⟨written, herror, -⟩ := hends
    rw [hok] at herror
    cases herror

theorem normalisePath_rooted (getcwd : Except ℕ Text) (isAbs : Bool)
    (hok : normalisePath size getcwd ('/' :: src) isAbs = .ok text) :
    text = pathText (resolve [] (components ('/' :: src))) := by
  have htext := eq_of_endsAt (normalisePath_absolute size getcwd src isAbs) hok
  rw [keepsSlashes_false] at htext
  rw [htext, doubledText_eq_pathText_iff]
  exact .inl rfl

/-- The current directory must leave room. -/
theorem cwd_fits (hsrc : src.head? ≠ some '/') {cwd : Text}
    (hok : normalisePath size (.ok cwd) src true = .ok text) :
    cwd.length + 2 < size := by
  by_contra hlong
  unfold normalisePath at hok
  split at hok
  · simp at hsrc
  · simp [Nat.not_lt.1 hlong] at hok

end Rooted

/-! ## Relative results -/

section Relative

variable {size : ℕ} {stack parts : List Text} {name part src text done : Text}

/-- A component of a relative result: a name, or a `..` that nothing takes away.
-/
def Keepable (stack : List Text) : Prop :=
  ∃ climbs names, stack = List.replicate climbs ['.', '.'] ++ names ∧
    ∀ name ∈ names, IsName name

/-- The components, each with a slash behind it: the buffer at the start of a
component. -/
def listText (stack : List Text) : Text := stack.flatMap (· ++ ['/'])

theorem listText_append (stack : List Text) (part : Text) :
    listText (stack ++ [part]) = listText stack ++ part ++ ['/'] := by
  simp [listText]

/-- What stands before a component ends in a slash. -/
theorem head?_listText_reverse (stack : List Text) :
    (listText stack).reverse.head?.getD '/' = '/' := by
  obtain rfl | ⟨front, last, rfl⟩ := List.eq_nil_or_concat' stack
  · rfl
  · simp [listText_append]

theorem listText_reverse_append (stack : List Text) (part : Text) :
    (listText (stack ++ [part])).reverse =
      '/' :: (part.reverse ++ (listText stack).reverse) := by
  simp [listText_append]

/-- No name is taken for a `..`. -/
theorem keepsDotDot_name (hname : IsName name) (stack : List Text) :
    keepsDotDot (listText (stack ++ [name])).reverse = false := by
  rw [listText_reverse_append]
  exact keepsDotDot_of_isName hname (head?_listText_reverse stack)

/-- A `..` before is taken for one. -/
theorem keepsDotDot_dotDot (stack : List Text) :
    keepsDotDot (listText (stack ++ [['.', '.']])).reverse = true := by
  rw [listText_reverse_append]
  have hhead := head?_listText_reverse stack
  generalize (listText stack).reverse = before at hhead
  cases before with
  | nil => rfl
  | cons letter before =>
      obtain rfl : letter = '/' := hhead
      simp [keepsDotDot]

/-- A `..` is kept where the stack has no name to take away. -/
theorem keepsDotDot_listText (hkeep : Keepable stack) :
    keepsDotDot (listText stack).reverse = true ↔
      stack = [] ∨ stack.getLast? = some ['.', '.'] := by
  obtain ⟨climbs, names, rfl, hnames⟩ := hkeep
  obtain rfl | ⟨front, last, rfl⟩ := List.eq_nil_or_concat' names
  · cases climbs with
    | zero => exact iff_of_true rfl (.inl rfl)
    | succ climbs =>
        rw [List.append_nil, List.replicate_succ', keepsDotDot_dotDot]
        simp
  · have hlast : IsName last := hnames last (by simp)
    rw [← List.append_assoc, keepsDotDot_name hlast]
    simp [hlast.ne_dotDot]

theorem keepable_nil : Keepable [] :=
  ⟨0, [], rfl, fun _ hname => absurd hname List.not_mem_nil⟩

/-- Resolving keeps a `..` only where nothing but others are before it. -/
theorem keepable_stackStep (hkeep : Keepable stack) (hslash : '/' ∉ part) :
    Keepable (stackStep false stack part) := by
  obtain ⟨climbs, names, rfl, hnames⟩ := hkeep
  rcases part_cases part with rfl | rfl | rfl | hpush
  · exact ⟨climbs, names, rfl, hnames⟩
  · exact ⟨climbs, names, rfl, hnames⟩
  · obtain rfl | ⟨front, last, rfl⟩ := List.eq_nil_or_concat' names
    · refine ⟨climbs + 1, [], ?_, hnames⟩
      cases climbs <;> simp [stackStep, List.replicate_succ']
    · have hlast : IsName last := hnames last (by simp)
      refine ⟨climbs, front, ?_, fun name hname => hnames name (by simp [hname])⟩
      simp [stackStep, ← List.append_assoc, hlast.ne_dotDot]
  · refine ⟨climbs, names ++ [part], ?_, ?_⟩
    · rw [stackStep, if_neg hpush.1, if_neg hpush.2, List.append_assoc]
    · intro name hname
      obtain hname | rfl := by simpa using hname
      · exact hnames name hname
      · exact (pushes_iff_isName hslash).1 hpush

theorem stackStep_of_pushes (hpush : Pushes part) :
    stackStep false stack part = stack ++ [part] := by
  rw [stackStep, if_neg hpush.1, if_neg hpush.2]

/-- What is left when no component follows. -/
theorem normaliseFinish_listText (hkeep : Keepable stack) :
    normaliseFinish (listText stack).reverse = stackText false stack := by
  obtain rfl | ⟨front, last, rfl⟩ := List.eq_nil_or_concat' stack
  · rfl
  · have hne : last ≠ [] := by
      obtain ⟨climbs, names, hstack, hnames⟩ := hkeep
      have hmem : last ∈ List.replicate climbs ['.', '.'] ++ names := by
        rw [← hstack]
        simp
      obtain hclimb | hname := List.mem_append.1 hmem
      · rw [List.eq_of_mem_replicate hclimb]
        decide
      · exact (hnames last hname).ne_nil
    rw [listText_reverse_append, stackText, if_neg Bool.false_ne_true,
      if_neg (by simp), intercalate_append]
    simp [normaliseFinish, hne, listText]

/-- What is left when a component ends the path. -/
theorem normaliseFinish_component (hne : part ≠ []) (hslash : '/' ∉ part)
    (stack : List Text) :
    normaliseFinish (part.reverse ++ (listText stack).reverse) =
      stackText false (stack ++ [part]) := by
  obtain ⟨front, last, rfl⟩ := (List.eq_nil_or_concat' part).resolve_left hne
  have hlast : last ≠ '/' := by
    rintro rfl
    exact hslash (by simp)
  rw [stackText, if_neg Bool.false_ne_true, if_neg (by simp),
    intercalate_append]
  simp [normaliseFinish, hlast, listText]

/-- A stack ends in a name, or has none to take away. -/
theorem Keepable.cases (hkeep : Keepable stack) :
    (stack = [] ∨ stack.getLast? = some ['.', '.']) ∨
      ∃ front name, stack = front ++ [name] ∧ IsName name := by
  obtain ⟨climbs, names, rfl, hnames⟩ := hkeep
  obtain rfl | ⟨front, last, rfl⟩ := List.eq_nil_or_concat' names
  · left
    cases climbs <;> simp [List.replicate_succ']
  · right
    exact ⟨List.replicate climbs ['.', '.'] ++ front, last,
      (List.append_assoc _ _ _).symm, hnames last (by simp)⟩

/-- A `..` that is kept. -/
theorem dotDot_kept {more : Bool} (hkeep : Keepable stack)
    (hkept : stack = [] ∨ stack.getLast? = some ['.', '.'])
    (hok : dotDot size (listText stack).reverse more = .ok done) :
    done = (if more then ['/'] else []) ++
      ['.', '.'] ++ (listText stack).reverse := by
  rw [dotDot, if_pos ((keepsDotDot_listText hkeep).2 hkept)] at hok
  split at hok
  · cases hok
  · rw [← Except.ok.inj hok]
    cases more <;> rfl

/-- A `..` that takes away a name. -/
theorem dotDot_taken (hname : IsName name) (front : List Text) (more : Bool) :
    dotDot size (listText (front ++ [name])).reverse more =
      .ok (listText front).reverse := by
  have hlength : (listText (front ++ [name])).reverse.length ≠ 1 := by
    simp [listText_append, hname.ne_nil]
  have hdrop : (name.reverse ++ (listText front).reverse).dropWhile
      (· ≠ '/') = (listText front).reverse := by
    rw [List.dropWhile_append_of_pos]
    · have hhead := head?_listText_reverse front
      generalize (listText front).reverse = before at hhead
      cases before with
      | nil => rfl
      | cons letter before =>
          obtain rfl : letter = '/' := hhead
          rfl
    · intro letter hletter
      rw [List.mem_reverse] at hletter
      exact decide_eq_true (ne_of_mem_of_not_mem hletter hname.no_slash)
  rw [dotDot, keepsDotDot_name hname, if_neg Bool.false_ne_true, if_pos hlength,
    listText_reverse_append, List.tail_cons, hdrop]

theorem stackStep_kept
    (hkept : stack = [] ∨ stack.getLast? = some ['.', '.']) :
    stackStep false stack ['.', '.'] = stack ++ [['.', '.']] := by
  simp [stackStep, hkept]

theorem stackStep_taken (hname : IsName name) (front : List Text) :
    stackStep false (front ++ [name]) ['.', '.'] = front := by
  simp [stackStep, hname.ne_dotDot]

/-- A `..` with a slash behind it. -/
theorem dotDot_more (hkeep : Keepable stack)
    (hok : dotDot size (listText stack).reverse true = .ok done) :
    done = (listText (stackStep false stack ['.', '.'])).reverse := by
  obtain hkept | ⟨front, name, rfl, hname⟩ := hkeep.cases
  · rw [dotDot_kept hkeep hkept hok, stackStep_kept hkept,
      listText_reverse_append]
    rfl
  · rw [dotDot_taken hname] at hok
    rw [stackStep_taken hname, Except.ok.inj hok]

/-- A `..` at the end of the path. -/
theorem dotDot_last (hkeep : Keepable stack)
    (hok : dotDot size (listText stack).reverse false = .ok done) :
    normaliseFinish done =
      stackText false (stackStep false stack ['.', '.']) := by
  obtain hkept | ⟨front, name, rfl, hname⟩ := hkeep.cases
  · rw [dotDot_kept hkeep hkept hok, stackStep_kept hkept]
    exact @normaliseFinish_component ['.', '.'] (by decide) (by decide) stack
  · have hfront : Keepable front := by
      rw [← stackStep_taken hname front]
      exact keepable_stackStep hkeep (by decide)
    rw [dotDot_taken hname] at hok
    rw [stackStep_taken hname, ← Except.ok.inj hok,
      normaliseFinish_listText hfront]

/-- A name at the end of the path that has been copied has found room. -/
theorem normaliseLoop_name_ok (hpush : Pushes part) (hslash : '/' ∉ part)
    (hok : normaliseLoop size false part (listText stack).reverse = .ok done) :
    done = part.reverse ++ (listText stack).reverse := by
  have hname : IsName part := (pushes_iff_isName hslash).1 hpush
  have hstart := normaliseLoop_start size [] (listText stack).reverse hpush
    hslash
  rw [List.append_nil] at hstart
  rw [hstart] at hok
  by_cases hfits : (listText stack).reverse.length + part.length < size
  · rw [normaliseLoop_copy_last hslash hfits] at hok
    exact (Except.ok.inj hok).symm
  · obtain ⟨written, hlong, -⟩ := normaliseLoop_long size part []
      (listText stack).reverse
      (fun hmem => hslash (List.mem_of_mem_dropLast hmem)) hname.ne_nil
      (Nat.not_lt.1 hfits)
    rw [List.append_nil, hok] at hlong
    cases hlong

/-- A name with a slash behind it that has been copied has found room. -/
theorem normaliseLoop_names_ok (hpush : Pushes part) (hslash : '/' ∉ part)
    (hok : normaliseLoop size false (part ++ '/' :: src)
      (listText stack).reverse = .ok done) :
    normaliseLoop size false src (listText (stack ++ [part])).reverse =
      .ok done := by
  rw [normaliseLoop_start size _ _ hpush hslash] at hok
  by_cases hfits : (listText stack).reverse.length + part.length + 1 < size
  · rw [normaliseLoop_copy hslash hfits] at hok
    rw [listText_reverse_append, hok]
  · obtain ⟨written, hlong, -⟩ := normaliseLoop_long size (part ++ ['/']) src
      (listText stack).reverse (by simpa using hslash) (by simp)
      (by simpa [Nat.add_assoc] using hfits)
    rw [List.append_assoc, List.singleton_append, hok] at hlong
    cases hlong

/-- The last component of a relative path. -/
theorem normaliseLoop_relative_last (hkeep : Keepable stack)
    (hslash : '/' ∉ part)
    (hok : normaliseLoop size false part (listText stack).reverse = .ok done) :
    normaliseFinish done = stackText false (stackStep false stack part) := by
  rcases part_cases part with rfl | rfl | rfl | hpush
  · obtain rfl : (listText stack).reverse = done := by
      simpa [normaliseLoop] using hok
    exact normaliseFinish_listText hkeep
  · obtain rfl : (listText stack).reverse = done := by
      simpa [normaliseLoop] using hok
    exact normaliseFinish_listText hkeep
  · rw [normaliseLoop] at hok
    exact dotDot_last hkeep hok
  · have hname : IsName part := (pushes_iff_isName hslash).1 hpush
    rw [normaliseLoop_name_ok hpush hslash hok, stackStep_of_pushes hpush]
    exact normaliseFinish_component hname.ne_nil hslash stack

/-- The loop resolves every component of a relative path in turn. -/
theorem normaliseLoop_relative (src : Text) (hkeep : Keepable stack)
    (hok : normaliseLoop size false src (listText stack).reverse = .ok done) :
    normaliseFinish done =
      stackText false (stackRun false stack (components src)) := by
  induction hlength : src.length using Nat.strong_induction_on generalizing src
    stack with
  | _ length ih =>
    rcases split_cases '/' src with hslash | ⟨part, rest, hslash, rfl⟩
    · rw [components_of_notMem hslash]
      exact normaliseLoop_relative_last hkeep hslash hok
    · have hshort : rest.length < length := by
        rw [← hlength, List.length_append, List.length_cons]
        omega
      have hrest : normaliseLoop size false rest
          (listText (stackStep false stack part)).reverse = .ok done := by
        rcases part_cases part with rfl | rfl | rfl | hpush
        · simpa [normaliseLoop, stackStep] using hok
        · simpa [normaliseLoop, stackStep] using hok
        · rw [List.cons_append, List.cons_append, List.nil_append,
            normaliseLoop] at hok
          split at hok
          · cases hok
          · next after hafter =>
            rw [dotDot_more hkeep hafter] at hok
            exact hok
        · rw [stackStep_of_pushes hpush]
          exact normaliseLoop_names_ok hpush hslash hok
      rw [components_append hslash, stackRun_cons]
      exact ih rest.length hshort rest (keepable_stackStep hkeep hslash) hrest
        rfl

end Relative

/-! ## Every path -/

section Every

variable {size : ℕ} {getcwd : Except ℕ (List Text)} {src text : Text}
  {isAbs : Bool}

theorem normalisePath_notAbs (hsrc : src.head? ≠ some '/')
    (answer : Except ℕ Text)
    (hok : normalisePath size answer src false = .ok text) :
    text = stackText false (stackRun false [] (components src)) := by
  have hloop : normalisePath size answer src false =
      (normaliseLoop size false src (listText []).reverse).map
        normaliseFinish := by
    unfold normalisePath
    split
    · simp at hsrc
    · rfl
  rw [hloop] at hok
  cases hdone : normaliseLoop size false src (listText []).reverse with
  | error error =>
      rw [hdone] at hok
      cases hok
  | ok done =>
      rw [hdone] at hok
      rw [← normaliseLoop_relative src keepable_nil hdone]
      exact (Except.ok.inj hok).symm

/-- A relative name made absolute comes to what its components resolve to unless
a slash too many stays in front. -/
theorem normalisePath_cwd_iff {names : List Text} (hsrc : src.head? ≠ some '/')
    (hnames : ∀ name ∈ names, IsName name)
    (hok : normalisePath size (.ok (pathText names)) src true = .ok text) :
    text = pathText (resolve names (components src)) ↔
      names ≠ [] ∨ resolve [] (components src) = [] ∨
        ClimbsAboveRoot (components src) := by
  have htext := eq_of_endsAt
    (normalisePath_relative hsrc hnames (cwd_fits hsrc hok)) hok
  rw [htext, doubledText_eq_pathText_iff]
  by_cases hroot : names = []
  · subst hroot
    rw [decide_eq_true rfl, keepsSlashes_true]
    exact ⟨fun hright => .inr hright.symm,
      fun hright => (hright.resolve_left (not_not_intro rfl)).symm⟩
  · rw [decide_eq_false hroot, keepsSlashes_false]
    exact iff_of_true (.inl rfl) (.inl hroot)

/-- Where `normalise_path` does not fail, its result is the path that the
components resolve to exactly unless a relative name is made absolute in the
root and neither comes to the root nor climbs above it. -/
theorem normalisePath_resolved_iff
    (hcwd : ∀ names, getcwd = .ok names → ∀ name ∈ names, IsName name)
    (hok : normalisePath size (getcwd.map pathText) src isAbs = .ok text) :
    text = resolvedPath getcwd src isAbs ↔ ResolveMeets getcwd src isAbs := by
  rw [resolvedPath, isRooted, startStack, ResolveMeets]
  by_cases hsrc : src.head? = some '/'
  · obtain ⟨src, rfl⟩ := List.head?_eq_some_iff.1 hsrc
    rw [if_pos hsrc, decide_eq_true hsrc, Bool.true_or, stackText_true,
      stackRun_true]
    exact iff_of_true (normalisePath_rooted _ _ hok) (.inl hsrc)
  · rw [if_neg hsrc, decide_eq_false hsrc, Bool.false_or]
    cases isAbs with
    | false =>
        rw [if_neg Bool.false_ne_true]
        exact iff_of_true (normalisePath_notAbs hsrc _ hok) (.inr (.inl rfl))
    | true =>
        cases getcwd with
        | error errno =>
            exfalso
            unfold normalisePath at hok
            split at hok
            · simp at hsrc
            · cases hok
        | ok names =>
            rw [if_pos rfl, stackText_true, stackRun_true]
            have hiff := normalisePath_cwd_iff hsrc (hcwd names rfl) hok
            simpa [hsrc, Except.toOption] using hiff

/-- A name in a subdirectory comes to what its components resolve to. -/
theorem normalisePath_resolved_subdirectory :
    normalisePath 64 (.ok "/usr/lib".toList) "../bin//x/.".toList true =
        .ok "/usr/bin/x".toList ∧
      "/usr/bin/x".toList = resolvedPath (.ok ["usr".toList, "lib".toList])
        "../bin//x/.".toList true := by
  have hok : normalisePath 64
      ((Except.ok ["usr".toList, "lib".toList] : Except ℕ (List Text)).map
        pathText) "../bin//x/.".toList true = .ok "/usr/bin/x".toList := rfl
  refine ⟨hok, (normalisePath_resolved_iff ?_ hok).2 (.inr (.inr (.inl ?_)))⟩
  · intro names hnames name hname
    obtain rfl := Except.ok.inj hnames
    obtain rfl | rfl := by simpa using hname
    · exact ⟨by decide, by decide, by decide, by decide⟩
    · exact ⟨by decide, by decide, by decide, by decide⟩
  · simp

/-- In the root the name `x` comes to `//x`. -/
theorem normalisePath_root_doubled :
    normalisePath 64 (.ok "/".toList) "x".toList true = .ok "//x".toList ∧
      "//x".toList ≠ resolvedPath (.ok []) "x".toList true := by
  constructor
  · rfl
  · decide

end Every

end IbcsUs.Names
