import IbcsUs.Core.Paths

/-!
# Making a name absolute

`normalise_path` copies a name into a buffer, one component after the other, and
takes out what `.`, `..` and doubled slashes make superfluous; a relative name can be
made absolute with the current directory in front of it.  Its result is that of
resolving the components on a stack, in a buffer that must hold every intermediate
result; with the root as current directory a slash too many may stay in front.
-/

namespace IbcsUs.Names

open IbcsUs.Paths

/-! ## The code -/

/-- Why `normalise_path` fails, and what it has written into the buffer. -/
inductive NormaliseError where
  /-- `getcwd` has failed. -/
  | getcwd (errno : ℕ)
  /-- The current directory leaves no room. -/
  | longCwd (cwd : Text)
  /-- The buffer is full; what is in it is not terminated. -/
  | long (written : Text)
  deriving DecidableEq

/-- Whether a `..` is kept, because there is nothing before it or another one.  The
characters before `d` are listed last first. -/
def keepsDotDot (done : Text) : Bool :=
  done.length = 0 ||
    (done.length = 3 && done[1]? = some '.' && done[2]? = some '.') ||
    (4 ≤ done.length && done[1]? = some '.' && done[2]? = some '.' &&
      done[3]? = some '/')

/-- The handling of `..`; `more` says whether a slash follows it. -/
def dotDot (size : ℕ) (done : Text) (more : Bool) :
    Except NormaliseError Text :=
  if keepsDotDot done then
    if done.length + 3 ≥ size then .error (.long done.reverse)
    else .ok (if more then '/' :: '.' :: '.' :: done else '.' :: '.' :: done)
  else if done.length ≠ 1 then .ok (done.tail.dropWhile (· ≠ '/'))
  else .ok done

/-- The loop of `normalise_path`.  The flag says whether it is in the middle of
copying a component. -/
def normaliseLoop (size : ℕ) : Bool → Text → Text → Except NormaliseError Text
  | true, [], done => .ok done
  | true, letter :: src, done =>
      if done.length + 1 ≥ size then .error (.long (letter :: done).reverse)
      else normaliseLoop size (letter ≠ '/') src (letter :: done)
  | false, [], done => .ok done
  | false, '/' :: src, done => normaliseLoop size false src done
  | false, '.' :: '/' :: src, done => normaliseLoop size false src done
  | false, ['.'], done => .ok done
  | false, ['.', '.'], done => dotDot size done false
  | false, '.' :: '.' :: '/' :: src, done =>
      match dotDot size done true with
      | .error error => .error error
      | .ok done => normaliseLoop size false src done
  | false, letter :: src, done =>
      if done.length + 1 ≥ size then .error (.long (letter :: done).reverse)
      else normaliseLoop size true src (letter :: done)

/-- The end of `normalise_path`. -/
def normaliseFinish (done : Text) : Text :=
  if done = [] then ['.']
  else if done.length ≠ 1 ∧ done.head? = some '/' then done.tail.reverse
  else done.reverse

/-- `normalise_path`; `getcwd` is the answer of that system call. -/
def normalisePath (size : ℕ) (getcwd : Except ℕ Text) (src : Text)
    (isAbs : Bool) :
    Except NormaliseError Text :=
  match src with
  | '/' :: src => (normaliseLoop size false src ['/']).map normaliseFinish
  | src =>
      if isAbs then
        match getcwd with
        | .error errno => .error (.getcwd errno)
        | .ok cwd =>
            if cwd.length + 2 ≥ size then .error (.longCwd cwd)
            else (normaliseLoop size false src ('/' :: cwd.reverse)).map
              normaliseFinish
      else (normaliseLoop size false src []).map normaliseFinish

/-! ## What it comes to -/

/-- A component that is pushed. -/
def Pushes (part : Text) : Prop :=
  ¬ (part = [] ∨ part = ['.']) ∧ part ≠ ['.', '.']

instance decidablePushes (part : Text) : Decidable (Pushes part) :=
  inferInstanceAs (Decidable (_ ∧ _))

/-- Whether the slash too many is still there after a component: a `..` at the root
takes it away. -/
def keepsSlash (doubled : Bool) (names : List Text) (part : Text) : Bool :=
  doubled && !(part = ['.', '.'] && names = [])

/-- Whether the slash too many is still there after all components. -/
def keepsSlashes (doubled : Bool) : List Text → List Text → Bool
  | _, [] => doubled
  | names, part :: parts =>
      keepsSlashes (keepsSlash doubled names part)
        (resolveStep names part) parts

/-- What is in the buffer at the start of a component. -/
def bufferText (doubled : Bool) (names : List Text) : Text :=
  (if doubled then ['/'] else []) ++ dirText names

/-- Every name, with the slash that follows it, fits when it is copied. -/
def Fits (size : ℕ) : Bool → List Text → List Text → Prop
  | _, _, [] => True
  | doubled, names, [part] =>
      Pushes part → (bufferText doubled names).length + part.length < size
  | doubled, names, part :: parts =>
      (Pushes part →
        (bufferText doubled names).length + part.length + 1 < size) ∧
        Fits size (keepsSlash doubled names part) (resolveStep names part) parts

instance decidableFits (size : ℕ) :
    ∀ doubled names parts, Decidable (Fits size doubled names parts)
  | _, _, [] => isTrue trivial
  | doubled, names, [part] =>
      inferInstanceAs (Decidable
        (Pushes part → (bufferText doubled names).length + part.length < size))
  | doubled, names, part :: next :: parts =>
      letI := decidableFits size (keepsSlash doubled names part)
        (resolveStep names part) (next :: parts)
      inferInstanceAs (Decidable ((Pushes part →
        (bufferText doubled names).length + part.length + 1 < size) ∧ _))

/-- The absolute name, with a slash too many in front. -/
def doubledText (doubled : Bool) (names : List Text) : Text :=
  if doubled ∧ names ≠ [] then '/' :: pathText names else pathText names

/-! ## One component -/

section Loop

variable {size : ℕ} {name src done : Text}

/-- A name is copied from its first character on. -/
theorem normaliseLoop_start (size : ℕ) (src done : Text) (hpush : Pushes name)
    (hslash : '/' ∉ name) :
    normaliseLoop size false (name ++ src) done =
      normaliseLoop size true (name ++ src) done := by
  obtain ⟨⟨hnil, hdot⟩, hdotDot⟩ :
      (name ≠ [] ∧ name ≠ ['.']) ∧ name ≠ ['.', '.'] := by
    simpa [Pushes, not_or] using hpush
  obtain ⟨letter, name, rfl⟩ := List.exists_cons_of_ne_nil hnil
  rw [List.mem_cons, not_or] at hslash
  have hcopy : decide (letter ≠ '/') = true := decide_eq_true (Ne.symm hslash.1)
  rw [List.cons_append]
  conv_rhs => rw [normaliseLoop, hcopy]
  apply normaliseLoop.eq_9
  all_goals
    rcases name with _ | ⟨second, _ | ⟨third, name⟩⟩ <;> grind

/-- A name at the end of the path. -/
theorem normaliseLoop_copy_last (hslash : '/' ∉ name)
    (hfits : done.length + name.length < size) :
    normaliseLoop size true name done = .ok (name.reverse ++ done) := by
  induction name generalizing done with
  | nil => rfl
  | cons letter name ih =>
      rw [List.mem_cons, not_or] at hslash
      rw [List.length_cons] at hfits
      have hroom : ¬ done.length + 1 ≥ size := by omega
      have hcopy : decide (letter ≠ '/') = true :=
        decide_eq_true (Ne.symm hslash.1)
      rw [normaliseLoop, if_neg hroom, hcopy,
        ih hslash.2 (by rw [List.length_cons]; omega)]
      simp

/-- A name with a slash behind it. -/
theorem normaliseLoop_copy (hslash : '/' ∉ name)
    (hfits : done.length + name.length + 1 < size) :
    normaliseLoop size true (name ++ '/' :: src) done =
      normaliseLoop size false src ('/' :: (name.reverse ++ done)) := by
  induction name generalizing done with
  | nil =>
      have hroom : ¬ done.length + 1 ≥ size := by
        simp only [List.length_nil] at hfits
        omega
      rw [List.nil_append, normaliseLoop, if_neg hroom]
      rfl
  | cons letter name ih =>
      rw [List.mem_cons, not_or] at hslash
      rw [List.length_cons] at hfits
      have hroom : ¬ done.length + 1 ≥ size := by omega
      have hcopy : decide (letter ≠ '/') = true :=
        decide_eq_true (Ne.symm hslash.1)
      rw [List.cons_append, normaliseLoop, if_neg hroom, hcopy,
        ih hslash.2 (by rw [List.length_cons]; omega)]
      simp

/-- A text that does not fit leaves the buffer full; a slash may end it. -/
theorem normaliseLoop_long (size : ℕ) (text src done : Text)
    (hslash : '/' ∉ text.dropLast) (hne : text ≠ [])
    (hfull : size ≤ done.length + text.length) :
    ∃ written, normaliseLoop size true (text ++ src) done =
      .error (.long written) ∧
      size ≤ written.length := by
  induction text generalizing done with
  | nil => exact absurd rfl hne
  | cons letter text ih =>
      rw [List.length_cons] at hfull
      rw [List.cons_append, normaliseLoop]
      by_cases hroom : done.length + 1 ≥ size
      · rw [if_pos hroom]
        exact ⟨_, rfl, by simpa using hroom⟩
      · have htext : text ≠ [] := by
          rintro rfl
          simp only [List.length_nil] at hfull
          omega
        rw [List.dropLast_cons_of_ne_nil htext, List.mem_cons, not_or] at hslash
        have hcopy : decide (letter ≠ '/') = true :=
          decide_eq_true (Ne.symm hslash.1)
        rw [if_neg hroom, hcopy]
        exact ih _ hslash.2 htext (by rw [List.length_cons]; omega)

end Loop

/-! ## The buffer at the start of a component -/

section Buffer

variable {size : ℕ} {doubled : Bool} {names : List Text} {name : Text}

theorem bufferText_append (doubled : Bool) (names : List Text) (name : Text) :
    bufferText doubled (names ++ [name]) =
      bufferText doubled names ++ name ++ ['/'] := by
  simp [bufferText, dirText_append]

/-- The buffer ends in a slash. -/
theorem bufferText_reverse_cons (doubled : Bool) (names : List Text) :
    ∃ before, (bufferText doubled names).reverse = '/' :: before := by
  obtain rfl | ⟨front, last, rfl⟩ := List.eq_nil_or_concat' names
  · exact ⟨if doubled then ['/'] else [], by cases doubled <;> rfl⟩
  · exact ⟨(bufferText doubled front ++ last).reverse,
      by simp [bufferText_append]⟩

/-- No name before a slash is taken for a `..`. -/
theorem keepsDotDot_of_isName (hname : IsName name) {before : Text}
    (hbefore : before.head?.getD '/' = '/') :
    keepsDotDot ('/' :: (name.reverse ++ before)) = false := by
  have hslash : '/' ∉ name.reverse := by simpa using hname.no_slash
  have hnil : name.reverse ≠ [] := by simpa using hname.ne_nil
  have htwo : name.reverse ≠ ['.', '.'] := by
    intro heq
    apply hname.ne_dotDot
    rw [← List.reverse_reverse name, heq]
    rfl
  generalize name.reverse = letters at hslash hnil htwo ⊢
  rw [keepsDotDot]
  rcases letters with _ | ⟨first, _ | ⟨second, _ | ⟨third, rest⟩⟩⟩
  · exact absurd rfl hnil
  · cases before with
    | nil => simp
    | cons letter before =>
        obtain rfl : letter = '/' := hbefore
        simp
  · cases before with
    | nil => simpa using htwo
    | cons letter before =>
        obtain rfl : letter = '/' := hbefore
        simpa using htwo
  · simp only [List.mem_cons, not_or] at hslash
    simp [Ne.symm hslash.2.2.1]

/-- A `..` takes away a name, or the slash too many. -/
theorem dotDot_bufferText (hnames : ∀ name ∈ names, IsName name) (more : Bool) :
    dotDot size (bufferText doubled names).reverse more =
      .ok (bufferText
        (keepsSlash doubled names ['.', '.']) names.dropLast).reverse := by
  obtain rfl | ⟨front, last, rfl⟩ := List.eq_nil_or_concat' names
  · cases doubled <;> rfl
  · have hlast : IsName last := hnames last (by simp)
    obtain ⟨before, hbefore⟩ := bufferText_reverse_cons doubled front
    have hdone : (bufferText doubled (front ++ [last])).reverse =
        '/' :: (last.reverse ++ '/' :: before) := by
      simp [bufferText_append, ← hbefore]
    have hkeep : keepsSlash doubled (front ++ [last]) ['.', '.'] = doubled := by
      simp [keepsSlash]
    have hdrop : (last.reverse ++ '/' :: before).dropWhile (· ≠ '/') =
      '/' :: before := by
      rw [List.dropWhile_append_of_pos]
      · rfl
      · intro letter hletter
        rw [List.mem_reverse] at hletter
        exact decide_eq_true (ne_of_mem_of_not_mem hletter hlast.no_slash)
    rw [hkeep, List.dropLast_concat, hbefore, hdone]
    rw [dotDot]
    rw [keepsDotDot_of_isName hlast rfl, if_neg Bool.false_ne_true,
      if_pos (by simp), List.tail_cons, hdrop]

/-- What is left when no component follows. -/
theorem normaliseFinish_bufferText (doubled : Bool) (names : List Text) :
    normaliseFinish (bufferText doubled names).reverse =
      doubledText doubled names := by
  obtain rfl | ⟨front, last, rfl⟩ := List.eq_nil_or_concat' names
  · cases doubled <;> rfl
  · cases doubled <;>
      simp [normaliseFinish, bufferText, doubledText, dirText_append,
        pathText_append, dirText_ne_nil]

/-- What is left when a name ends the path. -/
theorem normaliseFinish_name (hname : IsName name) (doubled : Bool)
    (names : List Text) :
    normaliseFinish (name.reverse ++ (bufferText doubled names).reverse) =
      doubledText doubled (names ++ [name]) := by
  obtain ⟨front, last, rfl⟩ :=
    (List.eq_nil_or_concat' name).resolve_left hname.ne_nil
  have hlast : last ≠ '/' := by
    rintro rfl
    exact hname.no_slash (by simp)
  cases doubled <;>
    simp [normaliseFinish, bufferText, doubledText, pathText_append, hlast]

end Buffer

/-! ## All components -/

/-- How a run of the loop ends: with the absolute name where every intermediate
result fits, with a full buffer otherwise. -/
def EndsAt (size : ℕ) (doubled : Bool) (names parts : List Text)
    (result : Except NormaliseError Text) : Prop :=
  if Fits size doubled names parts then
    result = .ok (doubledText (keepsSlashes doubled names parts)
      (resolve names parts))
  else ∃ written, result = .error (.long written) ∧ size ≤ written.length

section Run

variable {size : ℕ} {doubled : Bool} {names parts : List Text} {part src : Text}
  {result : Except NormaliseError Text}

theorem fits_cons (hparts : parts ≠ []) :
    Fits size doubled names (part :: parts) ↔
      (Pushes part →
        (bufferText doubled names).length + part.length + 1 < size) ∧
        Fits size (keepsSlash doubled names part)
          (resolveStep names part) parts := by
  obtain ⟨next, parts, rfl⟩ := List.exists_cons_of_ne_nil hparts
  rfl

/-- A component that fits leaves the rest of the run. -/
theorem endsAt_cons (hparts : parts ≠ [])
    (hfits : Pushes part →
      (bufferText doubled names).length + part.length + 1 < size) :
    EndsAt size doubled names (part :: parts) result ↔
      EndsAt size (keepsSlash doubled names part) (resolveStep names part) parts
        result := by
  have hiff : Fits size doubled names (part :: parts) ↔
      Fits size (keepsSlash doubled names part)
        (resolveStep names part) parts := by
    rw [fits_cons hparts, and_iff_right hfits]
  simp only [EndsAt, hiff, keepsSlashes, resolve_cons]

theorem components_ne_nil (path : Text) : components path ≠ [] :=
  List.splitOn_ne_nil _ _

theorem pushes_iff_isName (hslash : '/' ∉ part) :
    Pushes part ↔ IsName part := by
  rw [Pushes]
  constructor
  · rintro ⟨hpart, hdotDot⟩
    rw [not_or] at hpart
    exact ⟨hpart.1, hpart.2, hdotDot, hslash⟩
  · intro hname
    exact ⟨not_or.2 ⟨hname.ne_nil, hname.ne_dot⟩, hname.ne_dotDot⟩

theorem resolveStep_of_pushes (hpush : Pushes part) :
    resolveStep names part = names ++ [part] := by
  rw [resolveStep, if_neg hpush.1, if_neg hpush.2]

theorem keepsSlash_of_pushes (hpush : Pushes part) :
    keepsSlash doubled names part = doubled := by
  simp [keepsSlash, hpush.2]

/-- Resolving keeps names names. -/
theorem isName_resolveStep (hnames : ∀ name ∈ names, IsName name)
    (hslash : '/' ∉ part) : ∀ name ∈ resolveStep names part, IsName name := by
  unfold resolveStep
  split_ifs with hskip hdotDot
  · exact hnames
  · exact fun name hname => hnames name (List.mem_of_mem_dropLast hname)
  · intro name hname
    obtain hname | rfl := by simpa using hname
    · exact hnames name hname
    · exact (pushes_iff_isName hslash).1 ⟨hskip, hdotDot⟩

theorem part_cases (part : Text) :
    part = [] ∨ part = ['.'] ∨ part = ['.', '.'] ∨ Pushes part := by
  unfold Pushes
  tauto

theorem not_pushes_nil : ¬ Pushes [] := by decide

theorem not_pushes_dot : ¬ Pushes ['.'] := by decide

theorem not_pushes_dotDot : ¬ Pushes ['.', '.'] := by decide

theorem fits_singleton :
    Fits size doubled names [part] ↔
      (Pushes part → (bufferText doubled names).length + part.length < size) :=
        Iff.rfl

theorem endsAt_of_fits (hfits : Fits size doubled names parts)
    (hresult : result =
      .ok (doubledText (keepsSlashes doubled names parts)
        (resolve names parts))) :
    EndsAt size doubled names parts result := by
  rw [EndsAt, if_pos hfits]
  exact hresult

theorem endsAt_of_full {written : Text}
    (hfull : ¬ Fits size doubled names parts)
    (hresult : result = .error (.long written))
    (hlength : size ≤ written.length) :
    EndsAt size doubled names parts result := by
  rw [EndsAt, if_neg hfull]
  exact ⟨written, hresult, hlength⟩

/-- A last component that is not copied. -/
theorem endsAt_last (size : ℕ) (doubled : Bool) (names : List Text)
    (hpush : ¬ Pushes part) :
    EndsAt size doubled names [part]
      (.ok (normaliseFinish (bufferText (keepsSlash doubled names part)
        (resolveStep names part)).reverse)) := by
  apply endsAt_of_fits
  · exact fun hpart => absurd hpart hpush
  · rw [normaliseFinish_bufferText]
    rfl

/-- A last component that is copied. -/
theorem endsAt_name (hslash : '/' ∉ part) (hpush : Pushes part) :
    EndsAt size doubled names [part]
      ((normaliseLoop size true part (bufferText doubled names).reverse).map
        normaliseFinish) := by
  have hname : IsName part := (pushes_iff_isName hslash).1 hpush
  by_cases hfits : (bufferText doubled names).length + part.length < size
  · apply endsAt_of_fits (fits_singleton.2 fun _ => hfits)
    rw [normaliseLoop_copy_last hslash (by simpa using hfits), Except.map,
      normaliseFinish_name hname]
    simp [keepsSlashes, keepsSlash_of_pushes hpush, resolve,
      resolveStep_of_pushes hpush]
  · obtain ⟨written, hlong, hfull⟩ := normaliseLoop_long size part []
      (bufferText doubled names).reverse
      (fun hmem => hslash (List.mem_of_mem_dropLast hmem)) hname.ne_nil
      (by simpa using hfits)
    rw [List.append_nil] at hlong
    apply endsAt_of_full
      (fun hall => hfits (fits_singleton.1 hall hpush)) _ hfull
    rw [hlong, Except.map]

/-- The last component of a path. -/
theorem normaliseLoop_last (hnames : ∀ name ∈ names, IsName name)
    (hslash : '/' ∉ part) :
    EndsAt size doubled names [part]
      ((normaliseLoop size false part (bufferText doubled names).reverse).map
        normaliseFinish) := by
  rcases part_cases part with rfl | rfl | rfl | hpush
  · simpa [keepsSlash, resolveStep, normaliseLoop, Except.map] using
      endsAt_last size doubled names not_pushes_nil
  · simpa [keepsSlash, resolveStep, normaliseLoop, Except.map] using
      endsAt_last size doubled names not_pushes_dot
  · rw [normaliseLoop, dotDot_bufferText hnames]
    exact endsAt_last size doubled names not_pushes_dotDot
  · have hstart :=
      normaliseLoop_start size [] (bufferText doubled names).reverse
      hpush hslash
    rw [List.append_nil] at hstart
    rw [hstart]
    exact endsAt_name hslash hpush

/-- The loop resolves every component in turn. -/
theorem normaliseLoop_endsAt (src : Text)
    (hnames : ∀ name ∈ names, IsName name) :
    EndsAt size doubled names (components src)
      ((normaliseLoop size false src (bufferText doubled names).reverse).map
        normaliseFinish) := by
  induction hlength : src.length using Nat.strong_induction_on generalizing src
    doubled
    names with
  | _ length ih =>
    rcases split_cases '/' src with hslash | ⟨part, rest, hslash, rfl⟩
    · rw [components_of_notMem hslash]
      exact normaliseLoop_last hnames hslash
    · have hshort : rest.length < length := by
        rw [← hlength, List.length_append, List.length_cons]
        omega
      have hrest : EndsAt size (keepsSlash doubled names part)
        (resolveStep names part)
          (components rest) ((normaliseLoop size false rest (bufferText
            (keepsSlash doubled names part)
            (resolveStep names part)).reverse).map
              normaliseFinish) :=
        ih rest.length hshort rest (isName_resolveStep hnames hslash) rfl
      rw [components_append hslash]
      rcases part_cases part with rfl | rfl | rfl | hpush
      · rw [endsAt_cons (components_ne_nil rest) (absurd · not_pushes_nil)]
        simpa [keepsSlash, resolveStep, normaliseLoop] using hrest
      · rw [endsAt_cons (components_ne_nil rest) (absurd · not_pushes_dot)]
        simpa [keepsSlash, resolveStep, normaliseLoop] using hrest
      · rw [endsAt_cons (components_ne_nil rest) (absurd · not_pushes_dotDot)]
        simpa [resolveStep, normaliseLoop, dotDot_bufferText hnames] using hrest
      · rw [normaliseLoop_start size _ _ hpush hslash]
        by_cases hfits :
            (bufferText doubled names).length + part.length + 1 < size
        · rw [endsAt_cons (components_ne_nil rest) fun _ => hfits,
            normaliseLoop_copy hslash (by simpa using hfits)]
          simpa [keepsSlash_of_pushes hpush, resolveStep_of_pushes hpush,
            bufferText_append] using hrest
        · obtain ⟨written, hlong, hfull⟩ :=
            normaliseLoop_long size (part ++ ['/']) rest
            (bufferText doubled names).reverse (by simpa using hslash) (by simp)
            (by simpa [Nat.add_assoc] using hfits)
          rw [List.append_assoc, List.singleton_append] at hlong
          apply endsAt_of_full _ _ hfull
          · rw [fits_cons (components_ne_nil rest)]
            exact fun hall => hfits (hall.1 hpush)
          · rw [hlong, Except.map]

end Run

/-! ## The whole name -/

section Whole

variable {size : ℕ} {doubled : Bool} {names parts : List Text} {part src : Text}

/-- An absolute name. -/
theorem normalisePath_absolute (size : ℕ) (getcwd : Except ℕ Text) (src : Text)
    (isAbs : Bool) :
    EndsAt size false [] (components ('/' :: src))
      (normalisePath size getcwd ('/' :: src) isAbs) := by
  have hcomponents : components ('/' :: src) = [] :: components src :=
    @components_append [] List.not_mem_nil src
  rw [hcomponents,
    endsAt_cons (components_ne_nil src) (absurd · not_pushes_nil)]
  exact normaliseLoop_endsAt src fun _ hname => absurd hname List.not_mem_nil

/-- The current directory with a slash behind it.  The root has one already. -/
theorem bufferText_cwd (names : List Text) :
    bufferText (decide (names = [])) names = pathText names ++ ['/'] := by
  by_cases hnil : names = []
  · subst hnil
    rfl
  · simp [bufferText, hnil, dirText_eq_pathText_append]

/-- The loop never adds a slash too many. -/
theorem keepsSlashes_false (names parts : List Text) :
    keepsSlashes false names parts = false := by
  induction parts generalizing names with
  | nil => rfl
  | cons part parts ih => exact ih (resolveStep names part)

/-- A relative name, where the current directory leaves room. -/
theorem normalisePath_relative (hsrc : src.head? ≠ some '/')
    (hnames : ∀ name ∈ names, IsName name)
    (hroom : (pathText names).length + 2 < size) :
    EndsAt size (decide (names = [])) names (components src)
      (normalisePath size (.ok (pathText names)) src true) := by
  have hloop : normalisePath size (.ok (pathText names)) src true =
      (normaliseLoop size false src
        (bufferText (decide (names = [])) names).reverse).map
        normaliseFinish := by
    unfold normalisePath
    split
    · simp at hsrc
    · simp [Nat.not_le.2 hroom, bufferText_cwd]
  rw [hloop]
  exact normaliseLoop_endsAt src hnames

theorem dirText_dropLast_length (names : List Text) :
    (dirText names.dropLast).length ≤ (dirText names).length := by
  obtain rfl | ⟨front, last, rfl⟩ := List.eq_nil_or_concat' names
  · exact Nat.le_refl _
  · rw [List.dropLast_concat, dirText_append, List.append_assoc,
      List.length_append]
    exact Nat.le_add_right _ _

/-- A component that is not copied does not lengthen the buffer. -/
theorem bufferText_resolveStep_length (hpush : ¬ Pushes part) :
    (bufferText (keepsSlash doubled names part)
      (resolveStep names part)).length ≤
      (bufferText doubled names).length := by
  have hstarts : (if keepsSlash doubled names part then ['/'] else []).length ≤
      (if doubled then ['/'] else []).length := by
    cases doubled <;> simp [keepsSlash]
    split <;> simp
  have hnames : (dirText (resolveStep names part)).length ≤
    (dirText names).length := by
    rw [resolveStep]
    split_ifs with hskip hdotDot
    · exact Nat.le_refl _
    · exact dirText_dropLast_length names
    · exact absurd ⟨hskip, hdotDot⟩ hpush
  rw [bufferText, bufferText, List.length_append, List.length_append]
  exact Nat.add_le_add hstarts hnames

theorem doubledText_length_le (doubled : Bool) (names : List Text) :
    (doubledText doubled names).length ≤ (bufferText doubled names).length := by
  obtain rfl | ⟨front, last, rfl⟩ := List.eq_nil_or_concat' names
  · cases doubled <;> decide
  · cases doubled <;>
      simp [doubledText, bufferText, dirText_append, pathText_append]

theorem doubledText_append_length (doubled : Bool) (names : List Text)
    (name : Text) :
    (doubledText doubled (names ++ [name])).length =
      (bufferText doubled names).length + name.length := by
  cases doubled with
  | false => simp [doubledText, bufferText, pathText_append]
  | true =>
      simp [doubledText, bufferText, pathText_append]
      omega

/-- What fits at every step fits at the end. -/
theorem doubledText_length_lt
    (hbuffer : (bufferText doubled names).length < size)
    (hfits : Fits size doubled names parts) :
    (doubledText (keepsSlashes doubled names parts)
      (resolve names parts)).length <
      size := by
  induction parts generalizing doubled names with
  | nil =>
      exact Nat.lt_of_le_of_lt (doubledText_length_le doubled names) hbuffer
  | cons part parts ih =>
      rw [keepsSlashes, resolve_cons]
      by_cases hpush : Pushes part
      · rw [keepsSlash_of_pushes hpush, resolveStep_of_pushes hpush]
        by_cases hparts : parts = []
        · subst hparts
          rw [keepsSlashes, resolve, List.foldl_nil, doubledText_append_length]
          exact fits_singleton.1 hfits hpush
        · obtain ⟨hroom, hrest⟩ := (fits_cons hparts).1 hfits
          rw [keepsSlash_of_pushes hpush, resolveStep_of_pushes hpush] at hrest
          apply ih _ hrest
          simpa [bufferText_append, Nat.add_assoc] using hroom hpush
      · have hshort :=
          Nat.lt_of_le_of_lt (bufferText_resolveStep_length hpush) hbuffer
        by_cases hparts : parts = []
        · subst hparts
          exact Nat.lt_of_le_of_lt (doubledText_length_le _ _) hshort
        · exact ih hshort ((fits_cons hparts).1 hfits).2

end Whole

end IbcsUs.Names
