import IbcsUs.Names.Normalise

/-!
# Mapping a name

`filemap_map` makes a name absolute and puts the mapped name into the caller's
buffer.  The functions that hand a name to the kernel call it first and pass on the
buffer, whatever it has answered.  They should give the kernel the mapped absolute
name or fail.
-/

namespace IbcsUs.Names

open IbcsUs.Paths

/-- The size of a buffer for names. -/
def pathMax : ℕ := 4096

/-- An entry of the loaded map. -/
structure Mapping where
  source : Text
  target : Text
  source_absolute : source.head? = some '/'
  target_absolute : target.head? = some '/'
  /-- Both name a directory's contents, or neither does. -/
  same_end : source.getLast? = some '/' ↔ target.getLast? = some '/'

/-- A directory as the kernel names it, with its terminator in a buffer. -/
structure Cwd where
  names : List Text
  isName : ∀ name ∈ names, IsName name
  fits : (pathText names).length < pathMax

/-- The text `getcwd` puts into the buffer. -/
def Cwd.text (cwd : Cwd) : Text := pathText cwd.names

/-! ## The code -/

/-- The comparing loop of `filemap_map`: what is left of both texts where they first
differ or the first one ends. -/
def skipCommon : Text → Text → Text × Text
  | c :: source, d :: text =>
      if c = d then skipCommon source text else (c :: source, d :: text)
  | source, text => (source, text)

/-- Whether the loop of `filemap_map` stops at an entry. -/
def stopsAt (text : Text) (mapping : Mapping) : Bool :=
  let (c, d) := skipCommon mapping.source text
  c.head? = d.head? || (c = [] && mapping.source.getLast? = some '/')

/-- `strcpy` into a buffer.  A text that is too long leaves no terminator in it. -/
def strcpy (size : ℕ) (text : Text) : Option Text :=
  if text.length < size then some text else none

/-- What `filemap_map` does with the entry found: the buffer and the answer. -/
def applyMapping (size : ℕ) (mapping : Mapping) (text : Text) :
    Option Text × ℤ :=
  if mapping.source.getLast? ≠ some '/' then
    (strcpy size mapping.target, mapping.target.length + 1)
  else if mapping.target.length > mapping.source.length ∧
      text.length + (mapping.target.length - mapping.source.length) + 1 >
        size then
    (some text, -36)
  else
    let mapped := mapping.target ++ text.drop mapping.source.length
    (some mapped, mapped.length + 1)

/-- `filemap_map`: what is in the buffer, if it is terminated, and the answer.  The
buffer's first contents are `left`. -/
def filemapMap (size : ℕ) (cwd : Except ℕ Cwd) (filemap : List Mapping)
    (left : Option Text) (path : Text) : Option Text × ℤ :=
  match normalisePath size (cwd.map Cwd.text) path true with
  | .error (.getcwd _) => (left, 0)
  | .error (.longCwd cwd) => (some cwd, 0)
  | .error (.long _) => (none, 0)
  | .ok text =>
      match filemap.find? (stopsAt text) with
      | none => (some text, 0)
      | some mapping => applyMapping size mapping text

/-- The functions that hand a name to the kernel, with the names they are given. -/
inductive NameCall where
  | vfsLstat (name : Text)
  | vfsStat (name : Text)
  | linux26Link (a1 a2 : Text)
  | linux26MapA1Fname (name : Text)
  | linux26Open (fname : Text)
  | linux26Creat (fname : Text)
  | linux26Access (fname : Text)
  | linux26Stat (fname : Text)
  deriving DecidableEq

/-- What such a function does. -/
inductive NameOutcome where
  /-- The kernel is given the names; one without terminator is `none`. -/
  | kernel (names : List (Option Text))
  /-- A registered device answers, with `/dev` standing in for the file. -/
  | device
  /-- The call fails before the kernel is asked. -/
  | failed (errno : ℕ)
  deriving DecidableEq

section Calls

variable (cwd : Except ℕ Cwd) (filemap : List Mapping)
-- what the stack holds where the buffers come to lie
variable (stack : ℕ → Option Text)
-- whether `find_chrdev` finds a device for the name in a buffer
variable (findChrdev : Option Text → Bool)

/-- The buffer `mapped_name` after the call of `filemap_map`. -/
def mappedName (index : ℕ) (name : Text) : Option Text :=
  (filemapMap pathMax cwd filemap (stack index) name).1

/-- The functions that pass on the buffer. -/
def passOn (name : Text) : NameOutcome :=
  .kernel [mappedName cwd filemap stack 0 name]

/-- The functions that look for a device first. -/
def deviceOrPassOn (name : Text) : NameOutcome :=
  let mapped := mappedName cwd filemap stack 0 name
  if findChrdev mapped then .device else .kernel [mapped]

/-- What a call does. -/
def runNameCall : NameCall → NameOutcome
  | .vfsLstat name => passOn cwd filemap stack name
  | .vfsStat name => passOn cwd filemap stack name
  | .linux26Link a1 a2 =>
      .kernel [mappedName cwd filemap stack 0 a1,
        mappedName cwd filemap stack 1 a2]
  | .linux26MapA1Fname name => passOn cwd filemap stack name
  | .linux26Open fname => deviceOrPassOn cwd filemap stack findChrdev fname
  | .linux26Creat fname => deviceOrPassOn cwd filemap stack findChrdev fname
  | .linux26Access fname => deviceOrPassOn cwd filemap stack findChrdev fname
  | .linux26Stat fname => deviceOrPassOn cwd filemap stack findChrdev fname

end Calls

/-! ## What the kernel should be given -/

/-- Whether an entry maps a name: it is that name, or the directory above it. -/
def Mapping.Matches (mapping : Mapping) (text : Text) : Prop :=
  text = mapping.source ∨ mapping.source.getLast? = some '/' ∧
    mapping.source <+: text

instance decidableMatches (mapping : Mapping) (text : Text) :
    Decidable (mapping.Matches text) :=
  inferInstanceAs (Decidable (_ ∨ _ ∧ _))

/-- What an entry maps a name to. -/
def Mapping.apply (mapping : Mapping) (text : Text) : Text :=
  if mapping.source.getLast? = some '/' then
    mapping.target ++ text.drop mapping.source.length
  else mapping.target

/-- The mapped name: that of the first entry that maps it, or the name itself. -/
def mapName (filemap : List Mapping) (text : Text) : Text :=
  ((filemap.find? (·.Matches text)).map (·.apply text)).getD text

/-- The absolute name, if the current directory has one where it is needed. -/
def absoluteName (cwd : Except ℕ Cwd) (path : Text) : Option Text :=
  if path.head? = some '/' then some (pathText (resolve [] (components path)))
  else cwd.toOption.map fun cwd =>
    pathText (resolve cwd.names (components path))

/-- A buffer holds the mapped absolute name of a path. -/
def HoldsMapped (cwd : Except ℕ Cwd) (filemap : List Mapping)
    (buffer : Option Text)
    (path : Text) : Prop :=
  ∃ name, absoluteName cwd path = some name ∧
    buffer = some (mapName filemap name)

/-- The names a call is given. -/
def NameCall.names : NameCall → List Text
  | .linux26Link a1 a2 => [a1, a2]
  | .vfsLstat name | .vfsStat name | .linux26MapA1Fname name | .linux26Open name
  | .linux26Creat name | .linux26Access name | .linux26Stat name => [name]

/-- Whether a call looks for a device first. -/
def NameCall.asksDevice : NameCall → Bool
  | .linux26Open _ | .linux26Creat _ | .linux26Access _ | .linux26Stat _ => true
  | _ => false

/-- A call passes the kernel the mapped absolute names, or fails before. -/
def CallRight (cwd : Except ℕ Cwd) (filemap : List Mapping) (call : NameCall) :
    NameOutcome → Prop
  | .kernel buffers => List.Forall₂ (HoldsMapped cwd filemap) buffers call.names
  | .device => False
  | .failed _ => True

/-! ## The condition -/

/-- The entry for a name maps a directory, and the mapped name does not fit. -/
def Overflows (filemap : List Mapping) (text : Text) : Prop :=
  ∃ mapping, filemap.find? (·.Matches text) = some mapping ∧
    mapping.source.getLast? = some '/' ∧ pathMax ≤ (mapping.apply text).length

/-- A name stands for another: it has the same mapped name, which fits.  Where its
own does not fit it may be that name already. -/
def StandsFor (filemap : List Mapping) (text wanted : Text) : Prop :=
  wanted.length < pathMax ∧
    (mapName filemap text = wanted ∨ text = wanted ∧ Overflows filemap text)

/-- The condition on a name.  It can be made absolute within the buffer, its mapped
name fits, and for a relative name there is a current directory, which leaves room or
is the mapped name itself; in the root directory the slash too many does no harm. -/
def NameMeets (cwd : Except ℕ Cwd) (filemap : List Mapping)
    (path : Text) : Prop :=
  let parts := components path
  if path.head? = some '/' then
    Fits pathMax false [] parts ∧
      (mapName filemap (pathText (resolve [] parts))).length < pathMax
  else
    match cwd with
    | .error _ => False
    | .ok cwd =>
        let wanted := mapName filemap (pathText (resolve cwd.names parts))
        let doubled := decide (cwd.names = [])
        if cwd.text.length + 2 ≥ pathMax then cwd.text = wanted
        else Fits pathMax doubled cwd.names parts ∧
          StandsFor filemap
            (doubledText (keepsSlashes doubled cwd.names parts)
              (resolve cwd.names parts)) wanted

/-! ## The entry found -/

section Entry

variable {size : ℕ} {mapping : Mapping} {text : Text} {filemap : List Mapping}

/-- The comparing loop takes off what both texts begin with. -/
theorem skipCommon_spec (source text : Text) :
    ∃ common, source = common ++ (skipCommon source text).1 ∧
      text = common ++ (skipCommon source text).2 ∧
      ((skipCommon source text).1 = [] ∨
        (skipCommon source text).1.head? ≠
          (skipCommon source text).2.head?) := by
  fun_induction skipCommon source text with
  | case1 source letter text ih =>
      obtain ⟨common, hsource, htext, hdiffer⟩ := ih
      exact ⟨letter :: common, congrArg (letter :: ·) hsource,
        congrArg (letter :: ·) htext, hdiffer⟩
  | case2 c source d text hne => exact ⟨[], rfl, rfl, .inr (by simpa using hne)⟩
  | case3 source text hshort =>
      refine ⟨[], rfl, rfl, ?_⟩
      cases source with
      | nil => exact .inl rfl
      | cons c source =>
          cases text with
          | nil => exact .inr (by simp)
          | cons d text => exact (hshort c source d text rfl rfl).elim

theorem stopsAt_iff (mapping : Mapping) (text : Text) :
    stopsAt text mapping = true ↔ mapping.Matches text := by
  obtain ⟨common, hsource, htext, hdiffer⟩ :=
    skipCommon_spec mapping.source text
  rw [stopsAt, Mapping.Matches]
  generalize mapping.source.getLast? = last
  generalize skipCommon mapping.source text = rest at hsource htext hdiffer ⊢
  obtain ⟨c, d⟩ := rest
  simp only at hsource htext hdiffer
  rw [hsource, htext, List.append_right_inj, List.prefix_append_right_inj]
  cases c with
  | nil => cases d <;> simp
  | cons letter c =>
      have hheads : some letter ≠ d.head? :=
        hdiffer.resolve_left (List.cons_ne_nil letter c)
      have hne : d ≠ letter :: c := by
        rintro rfl
        exact hheads rfl
      have hstarts : ¬ letter :: c <+: d := by
        rintro ⟨tail, rfl⟩
        exact hheads rfl
      simp [hheads, hne, hstarts]

theorem find_stopsAt (filemap : List Mapping) (text : Text) :
    filemap.find? (stopsAt text) = filemap.find? (·.Matches text) := by
  congr 1
  funext mapping
  rw [Bool.eq_iff_iff, stopsAt_iff, decide_eq_true_iff]

theorem Mapping.apply_file (hfile : mapping.source.getLast? ≠ some '/') :
    mapping.apply text = mapping.target := if_neg hfile

theorem Mapping.apply_directory (hdir : mapping.source.getLast? = some '/') :
    mapping.apply text = mapping.target ++ text.drop mapping.source.length :=
  if_pos hdir

/-- The source of an entry for a directory is no longer than what it maps. -/
theorem Mapping.Matches.length_le (hmatch : mapping.Matches text) :
    mapping.source.length ≤ text.length := by
  rcases hmatch with rfl | ⟨_, hstarts⟩
  · exact Nat.le_refl _
  · exact hstarts.length_le

/-- The mapped name is put into the buffer where it fits; where it does not, the
name of a directory's file stays as it is. -/
theorem applyMapping_buffer (hmatch : mapping.Matches text)
    (htext : text.length < size) :
    (applyMapping size mapping text).1 =
      if (mapping.apply text).length < size then some (mapping.apply text)
      else if mapping.source.getLast? = some '/' then some text
      else none := by
  have hle := hmatch.length_le
  rw [applyMapping]
  by_cases hdir : mapping.source.getLast? = some '/'
  · rw [if_neg (not_not.2 hdir), mapping.apply_directory hdir, if_pos hdir,
      List.length_append, List.length_drop]
    by_cases hlong : mapping.target.length > mapping.source.length ∧
        text.length + (mapping.target.length - mapping.source.length) + 1 > size
    · rw [if_pos hlong, if_neg (by omega)]
    · rw [if_neg hlong, if_pos (by omega)]
  · rw [if_pos hdir, mapping.apply_file hdir, if_neg hdir]
    rfl

end Entry

/-! ## The buffer -/

section Buffer

variable {cwd : Except ℕ Cwd} {filemap : List Mapping} {left : Option Text}
variable {path text wanted : Text}

/-- The buffer after the search for an entry. -/
theorem filemapMap_of_ok
    (hok : normalisePath pathMax (cwd.map Cwd.text) path true = .ok text)
    (htext : text.length < pathMax) :
    (filemapMap pathMax cwd filemap left path).1 = some wanted ↔
      StandsFor filemap text wanted := by
  unfold filemapMap StandsFor Overflows mapName
  rw [hok]
  simp only [find_stopsAt]
  cases hfind : filemap.find? (·.Matches text) with
  | none =>
      simp only [Option.some.injEq, Option.map_none, Option.getD_none,
        reduceCtorEq, false_and, exists_false, and_false, or_false]
      constructor
      · rintro rfl
        exact ⟨htext, rfl⟩
      · exact And.right
  | some mapping =>
      have hmatch : mapping.Matches text := by
        simpa using List.find?_some hfind
      simp only [applyMapping_buffer hmatch htext, Option.map_some,
        Option.getD_some, Option.some.injEq, exists_eq_left']
      by_cases hfits : (mapping.apply text).length < pathMax
      · rw [if_pos hfits, Option.some.injEq]
        constructor
        · rintro rfl
          exact ⟨hfits, .inl rfl⟩
        · rintro ⟨_, heq | ⟨_, _, hlong⟩⟩
          · exact heq
          · exact absurd hfits (Nat.not_lt.2 hlong)
      · rw [if_neg hfits]
        by_cases hdir : mapping.source.getLast? = some '/'
        · rw [if_pos hdir, Option.some.injEq]
          constructor
          · rintro rfl
            exact ⟨htext, .inr ⟨rfl, hdir, Nat.not_lt.1 hfits⟩⟩
          · rintro ⟨hwanted, rfl | ⟨heq, _⟩⟩
            · exact absurd hwanted hfits
            · exact heq
        · rw [if_neg hdir]
          constructor
          · nofun
          · rintro ⟨hwanted, rfl | ⟨_, hdir', _⟩⟩
            · exact absurd hwanted hfits
            · exact absurd hdir' hdir

/-- A name stands for itself where its mapped name fits. -/
theorem standsFor_self (filemap : List Mapping) (text : Text) :
    StandsFor filemap text (mapName filemap text) ↔
      (mapName filemap text).length < pathMax := by
  constructor
  · exact And.left
  · exact fun hfits => ⟨hfits, .inl rfl⟩

/-- The buffer holds the mapped name exactly where the path can be made absolute in
it and what it is made into stands for that name. -/
theorem filemapMap_of_endsAt {doubled : Bool} {names parts : List Text}
    (hends : EndsAt pathMax doubled names parts
      (normalisePath pathMax (cwd.map Cwd.text) path true))
    (hbuffer : (bufferText doubled names).length < pathMax) :
    (filemapMap pathMax cwd filemap left path).1 = some wanted ↔
      Fits pathMax doubled names parts ∧ StandsFor filemap
        (doubledText (keepsSlashes doubled names parts) (resolve names parts))
        wanted := by
  unfold EndsAt at hends
  by_cases hfits : Fits pathMax doubled names parts
  · rw [if_pos hfits] at hends
    rw [filemapMap_of_ok hends (doubledText_length_lt hbuffer hfits),
      and_iff_right hfits]
  · rw [if_neg hfits] at hends
    obtain ⟨written, herror, _⟩ := hends
    simp [filemapMap, herror, hfits]

/-- A current directory that leaves no room is what is left in the buffer. -/
theorem filemapMap_longCwd (cwd : Cwd) (hrelative : path.head? ≠ some '/')
    (hlong : cwd.text.length + 2 ≥ pathMax) :
    (filemapMap pathMax (.ok cwd) filemap left path).1 = some cwd.text := by
  have herror : normalisePath pathMax (.ok cwd.text) path true =
      .error (.longCwd cwd.text) := by
    unfold normalisePath
    split
    · simp at hrelative
    · simp [hlong]
  simp [filemapMap, Except.map, herror]

/-- The buffer holds the mapped absolute name exactly under the condition. -/
theorem holdsMapped_filemapMap_iff (cwd : Except ℕ Cwd) (filemap : List Mapping)
    (left : Option Text) (path : Text) :
    HoldsMapped cwd filemap (filemapMap pathMax cwd filemap left path).1 path ↔
      NameMeets cwd filemap path := by
  unfold HoldsMapped NameMeets absoluteName
  by_cases habsolute : path.head? = some '/'
  · simp only [if_pos habsolute, Option.some.injEq, exists_eq_left']
    obtain ⟨src, rfl⟩ := List.head?_eq_some_iff.1 habsolute
    rw [filemapMap_of_endsAt (normalisePath_absolute _ _ src true) (by decide),
      keepsSlashes_false, doubledText, if_neg (by simp), standsFor_self]
  · simp only [if_neg habsolute]
    cases cwd with
    | error errno => simp [Except.toOption]
    | ok cwd =>
        simp only [Except.toOption, Option.map_some, Option.some.injEq,
          exists_eq_left']
        by_cases hlong : cwd.text.length + 2 ≥ pathMax
        · rw [if_pos hlong, filemapMap_longCwd cwd habsolute hlong,
            Option.some.injEq]
        · have hroom : (pathText cwd.names).length + 2 < pathMax :=
            Nat.not_le.1 hlong
          rw [if_neg hlong, filemapMap_of_endsAt
            (normalisePath_relative habsolute cwd.isName hroom)]
          rw [bufferText_cwd, List.length_append, List.length_singleton]
          omega

end Buffer

/-! ## The calls -/

section Outcomes

variable {cwd : Except ℕ Cwd} {filemap : List Mapping} {stack : ℕ → Option Text}
variable {findChrdev : Option Text → Bool} {call : NameCall} {name : Text}

theorem holdsMapped_mappedName_iff (index : ℕ) (name : Text) :
    HoldsMapped cwd filemap (mappedName cwd filemap stack index name) name ↔
      NameMeets cwd filemap name :=
  holdsMapped_filemapMap_iff cwd filemap (stack index) name

/-- Under the condition the buffer is the name a device is looked for by. -/
theorem mappedName_of_meets (hmeets : NameMeets cwd filemap name) (index : ℕ) :
    mappedName cwd filemap stack index name =
      (absoluteName cwd name).map (mapName filemap) := by
  rw [← holdsMapped_mappedName_iff index] at hmeets
  obtain ⟨absolute, habsolute, hbuffer⟩ := hmeets
  rw [hbuffer, habsolute, Option.map_some]

theorem passOn_right_iff (hnames : call.names = [name]) :
    CallRight cwd filemap call (passOn cwd filemap stack name) ↔
      NameMeets cwd filemap name := by
  simp [CallRight, passOn, hnames, holdsMapped_mappedName_iff]

theorem deviceOrPassOn_right_iff (hnames : call.names = [name]) :
    CallRight cwd filemap call
      (deviceOrPassOn cwd filemap stack findChrdev name) ↔
      NameMeets cwd filemap name ∧
        findChrdev ((absoluteName cwd name).map (mapName filemap)) = false := by
  have hbuffer : NameMeets cwd filemap name →
      findChrdev (mappedName cwd filemap stack 0 name) =
        findChrdev ((absoluteName cwd name).map (mapName filemap)) :=
    fun hmeets => congrArg findChrdev (mappedName_of_meets hmeets 0)
  by_cases hfound : findChrdev (mappedName cwd filemap stack 0 name) = true
  · have hrun : deviceOrPassOn cwd filemap stack findChrdev name = .device :=
      if_pos hfound
    rw [hrun, CallRight, false_iff, not_and, Bool.not_eq_false]
    intro hmeets
    rw [← hbuffer hmeets, hfound]
  · have hrun : deviceOrPassOn cwd filemap stack findChrdev name =
        passOn cwd filemap stack name := if_neg hfound
    rw [hrun, passOn_right_iff hnames, iff_self_and]
    intro hmeets
    rw [← hbuffer hmeets, Bool.eq_false_of_not_eq_true hfound]

end Outcomes

/-- A call gives the kernel the mapped absolute names exactly when each of its names
meets the condition and no registered device answers for it. -/
theorem nameCall_right_iff (cwd : Except ℕ Cwd) (filemap : List Mapping)
    (stack : ℕ → Option Text) (findChrdev : Option Text → Bool)
    (call : NameCall) :
    CallRight cwd filemap call (runNameCall cwd filemap stack findChrdev call) ↔
      (∀ name ∈ call.names, NameMeets cwd filemap name) ∧
        (call.asksDevice → ∀ name ∈ call.names,
          findChrdev
            ((absoluteName cwd name).map (mapName filemap)) = false) := by
  cases call with
  | vfsLstat name | vfsStat name | linux26MapA1Fname name =>
      rw [runNameCall, passOn_right_iff rfl]
      simp [NameCall.names, NameCall.asksDevice]
  | linux26Link a1 a2 =>
      simp [runNameCall, CallRight, NameCall.names, NameCall.asksDevice,
        holdsMapped_mappedName_iff]
  | linux26Open name | linux26Creat name
  | linux26Access name | linux26Stat name =>
      rw [runNameCall, deviceOrPassOn_right_iff rfl]
      simp [NameCall.names, NameCall.asksDevice]

/-- With the current directory removed, a relative name is not mapped: the kernel is
asked for what the stack happens to hold. -/
theorem removed_directory_passes_stack :
    runNameCall (.error 2) [] (fun _ => some "/etc/motd".toList)
        (fun _ => false) (.vfsStat "x".toList) =
        .kernel [some "/etc/motd".toList] ∧
      ¬ CallRight (.error 2) [] (.vfsStat "x".toList)
        (runNameCall (.error 2) [] (fun _ => some "/etc/motd".toList)
          (fun _ => false)
          (.vfsStat "x".toList)) := by
  have hrun : runNameCall (.error 2) [] (fun _ => some "/etc/motd".toList)
      (fun _ => false) (.vfsStat "x".toList) =
        .kernel [some "/etc/motd".toList] := rfl
  constructor
  · exact hrun
  · rw [hrun]
    simp [CallRight, NameCall.names, HoldsMapped, absoluteName, Except.toOption]

end IbcsUs.Names
