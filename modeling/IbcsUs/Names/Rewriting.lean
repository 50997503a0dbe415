import IbcsUs.Names.Filemap
import IbcsUs.Names.InPlace

/-!
# Mapping a name, in the buffer

`filemap_map` as it works on the bytes of its buffer: it compares the absolute name
with one entry after the other, and for a directory moves the rest of the name in
place before the new directory is copied over the old one.  Where the mapped name
fits the result is that of the first entry that matches.  An absolute name that
cannot be built is reported as one without mapping, and the name of a file is copied
without regard to the size.
-/

namespace IbcsUs.Names.InPlace

open IbcsUs.Paths IbcsUs.Strings

/-- An entry of the map as it stands in memory. -/
structure MapEntry extends Mapping where
  source_no_nul : nul ∉ source
  target_no_nul : nul ∉ target

/-! ## The code -/

/-- The comparing loop: what is left of the entry's text, and where `d` stands. -/
def compare (memory : Memory) : Text → ℕ → Text × ℕ
  | [], d => ([], d)
  | c :: source, d =>
      if c = cell memory d then compare memory source (d + 1)
      else (c :: source, d)

/-- Whether the loop over the map stops at an entry. -/
def stops (memory : Memory) (dst : ℕ) (entry : MapEntry) : Bool :=
  let (c, d) := compare memory entry.source dst
  c.headD nul = cell memory d || (c = [] && entry.source.getLast? = some '/')

/-- `memcpy(dst, to, to_len)` and the length of the result. -/
def copyTarget (dst : ℕ) (entry : MapEntry) (stores : Stores) : Outcome :=
  let stores := stores.putAll dst entry.target
  ⟨stores, (stringAt stores.memory dst).length + 1⟩

/-- What `filemap_map` does with the entry found. -/
def applyEntry (dst size : ℕ) (entry : MapEntry) (stores : Stores) : Outcome :=
  let fromLen := entry.source.length
  let toLen := entry.target.length
  if entry.source.getLast? ≠ some '/' then
    let stores := stores.putAll dst (entry.target ++ [nul])
    ⟨stores, (stringAt stores.memory dst).length + 1⟩
  else if toLen > fromLen then
    let d := strend stores.memory dst
    if d - dst + (toLen - fromLen) + 1 > size then fail stores enametoolong
    else copyTarget dst entry (stores.moveUp (toLen - fromLen) (dst + fromLen)
      (d + 1 - (dst + fromLen)))
  else if toLen < fromLen then
    copyTarget dst entry (stores.moveDown (fromLen - toLen) (dst + toLen))
  else copyTarget dst entry stores

/-- `filemap_map`; an empty map is `filemap == NULL`. -/
def filemapMap (buffer : Destination)
    (getcwd : Except Errno (CwdText buffer.size)) (filemap : List MapEntry)
    (path : Text) : Outcome :=
  let normalised := normalisePath buffer getcwd path true
  if isErr normalised.answer || filemap.isEmpty then ⟨normalised.stores, 0⟩
  else
    match filemap.find? (stops normalised.stores.memory buffer.dst) with
    | none => ⟨normalised.stores, 0⟩
    | some entry => applyEntry buffer.dst buffer.size entry normalised.stores

/-! ## The entry found -/

section Entry

variable {memory : Memory} {dst d : ℕ} {source text : Text} {entry : MapEntry}

/-- The comparing loop takes off what the two texts have in common. -/
theorem compare_skipCommon (hholds : Holds memory d text) (hsource : nul ∉ source) :
    (compare memory source d).1 = (skipCommon source text).1 ∧
      Holds memory (compare memory source d).2 (skipCommon source text).2 := by
  induction source generalizing d text with
  | nil => exact ⟨by cases text <;> rfl, by cases text <;> exact hholds⟩
  | cons c source ih =>
      rw [List.mem_cons, not_or] at hsource
      cases text with
      | nil =>
          have hcell : cell memory d = nul := Shows.head hholds.starts
          rw [compare, hcell, if_neg (Ne.symm hsource.1)]
          exact ⟨rfl, hholds⟩
      | cons letter text =>
          have hcell : cell memory d = letter := Shows.head hholds.starts
          rw [compare, hcell, skipCommon]
          by_cases heq : c = letter
          · rw [if_pos heq, if_pos heq]
            apply ih _ hsource.2
            exact ⟨fun hmem => hholds.no_nul (List.mem_cons_of_mem _ hmem),
              Shows.tail hholds.starts⟩
          · rw [if_neg heq, if_neg heq]
            exact ⟨rfl, hholds⟩

/-- The byte a string begins with, its terminator included. -/
theorem Holds.cell_eq (hholds : Holds memory d text) :
    cell memory d = text.headD nul := by
  cases text with
  | nil => exact Shows.head hholds.starts
  | cons letter text => exact Shows.head hholds.starts

/-- Two strings begin with the same byte, which may be the terminator. -/
theorem headD_eq_iff (hsource : nul ∉ source) (htext : nul ∉ text) :
    source.headD nul = text.headD nul ↔ source.head? = text.head? := by
  cases source with
  | nil =>
      cases text with
      | nil => simp
      | cons letter text =>
          rw [List.mem_cons, not_or] at htext
          simpa using htext.1
  | cons c source =>
      rw [List.mem_cons, not_or] at hsource
      cases text with
      | nil => simpa [eq_comm] using hsource.1
      | cons letter text => simp

/-- The loop stops at an entry as the loop on texts does. -/
theorem stops_eq (hholds : Holds memory dst text) (entry : MapEntry) :
    stops memory dst entry = stopsAt text entry.toMapping := by
  obtain ⟨hrest, hhere⟩ := compare_skipCommon hholds entry.source_no_nul
  have hnul := hhere.no_nul
  have hsource : nul ∉ (skipCommon entry.source text).1 := by
    obtain ⟨common, hsplit, _⟩ := skipCommon_spec entry.source text
    intro hmem
    apply entry.source_no_nul
    rw [hsplit]
    exact List.mem_append_right common hmem
  rw [stops, stopsAt]
  dsimp only
  rw [hrest, Holds.cell_eq hhere]
  rw [decide_eq_decide.2 (headD_eq_iff hsource hnul)]

/-- The entry found is the first one that matches. -/
theorem find_stops (hholds : Holds memory dst text) (filemap : List MapEntry) :
    filemap.find? (stops memory dst) = filemap.find? (·.Matches text) := by
  congr 1
  funext entry
  rw [stops_eq hholds, Bool.eq_iff_iff, stopsAt_iff, decide_eq_true_iff]

end Entry

/-- What a matching entry maps a name to is its target with the rest behind it. -/
theorem matches_apply {mapping : Mapping} {text : Text}
    (hmatch : mapping.Matches text) :
    mapping.apply text = mapping.target ++ text.drop mapping.source.length := by
  by_cases hdir : mapping.source.getLast? = some '/'
  · exact mapping.apply_directory hdir
  · have hsame : text = mapping.source :=
      hmatch.resolve_right fun hstarts => hdir hstarts.1
    rw [mapping.apply_file hdir, hsame, List.drop_length, List.append_nil]

/-- A matching entry's source is what the name begins with. -/
theorem matches_start {mapping : Mapping} {text : Text}
    (hmatch : mapping.Matches text) : mapping.source <+: text := by
  rcases hmatch with rfl | ⟨_, hstarts⟩
  · exact List.prefix_refl _
  · exact hstarts

/-! ## The name put into the buffer -/

/-- The buffer holds a text, whose length with the terminator is answered. -/
structure Mapped (dst size : ℕ) (outcome : Outcome) (text : Text) : Prop where
  within : outcome.stores.Within dst size
  holds : Holds outcome.stores.memory dst text
  answer : outcome.answer = text.length + 1

section Apply

variable {dst size : ℕ} {stores : Stores} {entry : MapEntry} {text tail : Text}

/-- The new directory is copied before the rest of the name. -/
theorem copyTarget_mapped (hroom : dst + size ≤ stores.memory.length)
    (hwithin : stores.Within dst size) (hnul : nul ∉ tail)
    (hfits : (entry.target ++ tail).length < size)
    (htail : Shows stores.memory (dst + entry.target.length) (tail ++ [nul])) :
    Mapped dst size (copyTarget dst entry stores) (entry.target ++ tail) := by
  rw [List.length_append] at hfits
  have hshows : Shows (stores.putAll dst entry.target).memory dst
      (entry.target ++ (tail ++ [nul])) := by
    apply (Stores.shows_putAll (by omega)).append
    exact Stores.shows_putAll_of_outside htail (.inl (Nat.le_refl _))
  have hholds : Holds (stores.putAll dst entry.target).memory dst
      (entry.target ++ tail) := by
    rw [← List.append_assoc] at hshows
    apply hshows.holds
    rw [List.mem_append, not_or]
    exact ⟨entry.target_no_nul, hnul⟩
  constructor
  · exact hwithin.putAll (Nat.le_refl _) (by omega)
  · exact hholds
  · dsimp only [copyTarget]
    rw [hholds.stringAt_eq]

/-- The name of a file is replaced, where it fits. -/
theorem applyEntry_file (hroom : dst + size ≤ stores.memory.length)
    (hwithin : stores.Within dst size) (hfile : entry.source.getLast? ≠ some '/')
    (hfits : entry.target.length < size) :
    Mapped dst size (applyEntry dst size entry stores) entry.target := by
  have hlength : (entry.target ++ [nul]).length ≤ size := by
    rw [List.length_append, List.length_singleton]
    exact hfits
  have hholds : Holds (stores.putAll dst (entry.target ++ [nul])).memory dst
      entry.target :=
    (Stores.shows_putAll (by omega)).holds entry.target_no_nul
  rw [applyEntry]
  rw [if_pos hfile]
  constructor
  · exact hwithin.putAll (Nat.le_refl _) (by omega)
  · exact hholds
  · dsimp only
    rw [hholds.stringAt_eq]

/-- Where it does not fit, a byte behind the buffer is written. -/
theorem applyEntry_file_long (hfile : entry.source.getLast? ≠ some '/')
    (hlong : size ≤ entry.target.length) :
    ¬ (applyEntry dst size entry stores).stores.Within dst size := by
  intro hwithin
  have hwritten : dst + size ∈
      (stores.putAll dst (entry.target ++ [nul])).written := by
    rw [Stores.written_putAll, List.mem_append, List.mem_reverse,
      List.mem_range'_1, List.length_append, List.length_singleton]
    exact .inl ⟨by omega, by omega⟩
  have hbound := hwithin (dst + size) (by
    rw [applyEntry]
    rw [if_pos hfile]
    exact hwritten)
  omega

/-- The rest of the name is moved up for a longer directory, which fits. -/
theorem copyTarget_moveUp (hroom : dst + size ≤ stores.memory.length)
    (hwithin : stores.Within dst size) (hnul : nul ∉ tail)
    (hfits : (entry.target ++ tail).length < size)
    (htail : Shows stores.memory (dst + entry.source.length) (tail ++ [nul]))
    (hlonger : entry.source.length < entry.target.length) :
    Mapped dst size (copyTarget dst entry
      (stores.moveUp (entry.target.length - entry.source.length)
        (dst + entry.source.length) (tail ++ [nul]).length))
      (entry.target ++ tail) := by
  have hcount : (tail ++ [nul]).length = tail.length + 1 := List.length_append
  have hlength : (entry.target ++ tail).length =
    entry.target.length + tail.length := List.length_append
  have hat : dst + entry.source.length +
      (entry.target.length - entry.source.length) =
        dst + entry.target.length := by omega
  apply copyTarget_mapped _ _ hnul hfits
  · have hmoved := @Stores.shows_moveUp stores
      (entry.target.length - entry.source.length) _ _ [] htail (shows_nil _ _)
      (by omega)
    rwa [hat, List.append_nil] at hmoved
  · rw [Stores.length_moveUp]
    exact hroom
  · exact hwithin.moveUp (by omega) (by omega)

/-- The rest of the name is moved down for a shorter directory. -/
theorem copyTarget_moveDown (hroom : dst + size ≤ stores.memory.length)
    (hwithin : stores.Within dst size) (hnul : nul ∉ tail)
    (hfits : (entry.target ++ tail).length < size)
    (htail : Shows stores.memory (dst + entry.source.length) (tail ++ [nul]))
    (hshorter : entry.target.length < entry.source.length) :
    Mapped dst size (copyTarget dst entry
      (stores.moveDown (entry.source.length - entry.target.length)
        (dst + entry.target.length))) (entry.target ++ tail) := by
  have hlength : (entry.target ++ tail).length =
    entry.target.length + tail.length := List.length_append
  have hat : dst + entry.source.length = dst + entry.target.length +
      (entry.source.length - entry.target.length) := by omega
  rw [hat] at htail
  apply copyTarget_mapped _ _ hnul hfits
  · have hmoved := Stores.shows_moveDown htail hnul (shows_nil _ _)
      (List.length_nil ▸ (Nat.add_zero _).symm) (by omega)
    rwa [List.nil_append] at hmoved
  · rw [Stores.length_moveDown]
    exact hroom
  · exact Stores.within_moveDown hwithin htail hnul (by omega) (by omega)

/-- The rest of the name is moved and the new directory put before it, where the
whole fits; where it does not, the function fails. -/
theorem applyEntry_directory (hholds : Holds stores.memory dst text)
    (hroom : dst + size ≤ stores.memory.length)
    (hwithin : stores.Within dst size) (htext : text.length < size)
    (hdir : entry.source.getLast? = some '/')
    (hstarts : entry.source <+: text) :
    if (entry.apply text).length < size then
      Mapped dst size (applyEntry dst size entry stores) (entry.apply text)
    else applyEntry dst size entry stores = fail stores enametoolong := by
  obtain ⟨tail, rfl⟩ := hstarts
  have happly : entry.apply (entry.source ++ tail) = entry.target ++ tail := by
    rw [Mapping.apply_directory hdir, List.drop_left]
  have hlength : (entry.target ++ tail).length =
    entry.target.length + tail.length := List.length_append
  have hnul : nul ∉ tail :=
    fun hmem => hholds.no_nul (List.mem_append_right _ hmem)
  have htail : Shows stores.memory (dst + entry.source.length) (tail ++ [nul]) := by
    have hstarts := hholds.starts
    rw [List.append_assoc] at hstarts
    exact Shows.drop hstarts
  have hend : strend stores.memory dst =
      dst + entry.source.length + tail.length := by
    rw [strend, hholds.stringAt_eq, List.length_append, Nat.add_assoc]
  rw [List.length_append] at htext
  rw [happly]
  rw [applyEntry]
  dsimp only
  rw [if_neg (not_not.2 hdir), hend]
  by_cases hlonger : entry.target.length > entry.source.length
  · have hcount : dst + entry.source.length + tail.length + 1 -
        (dst + entry.source.length) = (tail ++ [nul]).length := by
      rw [List.length_append, List.length_singleton]
      omega
    have hgrown : dst + entry.source.length + tail.length - dst +
        (entry.target.length - entry.source.length) + 1 =
          (entry.target ++ tail).length + 1 := by omega
    rw [if_pos hlonger, hcount, hgrown]
    by_cases hfits : (entry.target ++ tail).length < size
    · rw [if_pos hfits, if_neg (Nat.not_lt.2 hfits)]
      exact copyTarget_moveUp hroom hwithin hnul hfits htail hlonger
    · rw [if_neg hfits, if_pos (Nat.lt_succ_of_le (Nat.not_lt.1 hfits))]
  · have hfits : (entry.target ++ tail).length < size := by omega
    rw [if_neg hlonger, if_pos hfits]
    by_cases hshorter : entry.target.length < entry.source.length
    · rw [if_pos hshorter]
      exact copyTarget_moveDown hroom hwithin hnul hfits htail hshorter
    · have hsame : entry.target.length = entry.source.length := by omega
      rw [if_neg hshorter]
      rw [← hsame] at htail
      exact copyTarget_mapped hroom hwithin hnul hfits htail

end Apply

/-! ## The whole function -/

section Whole

variable {buffer : Destination} {getcwd : Except Errno (CwdText buffer.size)}
variable {filemap : List MapEntry} {path : CText} {text : Text} {entry : MapEntry}

/-- The name of a path in the buffer, without the map. -/
abbrev built (buffer : Destination) (getcwd : Except Errno (CwdText buffer.size))
    (path : CText) : Except NormaliseError Text :=
  Names.normalisePath buffer.size ((getcwd.mapError Errno.value).map (·.text))
    path.text true

/-- Without a matching entry the buffer holds the absolute name. -/
theorem filemapMap_of_find_none (hok : built buffer getcwd path = .ok text)
    (hfind : filemap.find? (·.Matches text) = none) :
    let outcome := filemapMap buffer getcwd filemap path.text
    outcome.stores.Within buffer.dst buffer.size ∧
      Holds outcome.stores.memory buffer.dst text ∧ outcome.answer = 0 := by
  have hnormalised := normalised_of_ok getcwd path true hok
  have hwithin := (normalisePath_agrees buffer getcwd path true).2
  have houtcome : filemapMap buffer getcwd filemap path.text =
      ⟨(normalisePath buffer getcwd path.text true).stores, 0⟩ := by
    unfold filemapMap
    dsimp only
    rw [find_stops hnormalised.holds, hfind, ite_self]
  dsimp only
  rw [houtcome]
  exact ⟨hwithin, hnormalised.holds, rfl⟩

/-- With one, what `filemap_map` does with the entry is all that is left. -/
theorem filemapMap_of_find_some (hok : built buffer getcwd path = .ok text)
    (hfind : filemap.find? (·.Matches text) = some entry) :
    filemapMap buffer getcwd filemap path.text =
      applyEntry buffer.dst buffer.size entry
        (normalisePath buffer getcwd path.text true).stores := by
  have hnormalised := normalised_of_ok getcwd path true hok
  have hanswer : isErr (normalisePath buffer getcwd path.text true).answer =
      false := by
    rw [hnormalised.answer, isErr_length]
  have hne : filemap.isEmpty = false := by
    cases filemap with
    | nil => simp at hfind
    | cons first filemap => rfl
  unfold filemapMap
  dsimp only
  rw [hanswer, hne, find_stops hnormalised.holds, hfind]
  rfl

/-- A path that cannot be made absolute is answered with zero. -/
theorem filemapMap_of_error {error : NormaliseError}
    (herror : built buffer getcwd path = .error error) :
    filemapMap buffer getcwd filemap path.text =
      ⟨(normalisePath buffer getcwd path.text true).stores, 0⟩ := by
  have hisErr := isErr_of_error getcwd path true herror
  unfold filemapMap
  dsimp only
  rw [hisErr, Bool.true_or, if_pos rfl]

/-- The mapped name is put into the buffer where it fits. -/
theorem filemapMap_mapped (hok : built buffer getcwd path = .ok text)
    (hfind : filemap.find? (·.Matches text) = some entry)
    (hfits : (entry.apply text).length < buffer.size) :
    Mapped buffer.dst buffer.size (filemapMap buffer getcwd filemap path.text)
      (entry.apply text) := by
  have hnormalised := normalised_of_ok getcwd path true hok
  have hwithin := (normalisePath_agrees buffer getcwd path true).2
  have hmatch : entry.Matches text := by simpa using List.find?_some hfind
  rw [filemapMap_of_find_some hok hfind]
  by_cases hdir : entry.source.getLast? = some '/'
  · have hmapped := applyEntry_directory hnormalised.holds hnormalised.room hwithin
      hnormalised.fits hdir (matches_start hmatch)
    rwa [if_pos hfits] at hmapped
  · rw [Mapping.apply_file hdir] at hfits ⊢
    exact applyEntry_file hnormalised.room hwithin hdir hfits

end Whole

/-! ## The first entry that matches -/

/-- Where a path can be made absolute the first entry that matches decides: its
target with the rest of the name is put into the buffer if it fits, and its length
answered.  Where none matches the absolute name is left, and zero answered. -/
theorem filemapMap_first_match (buffer : Destination)
    (getcwd : Except Errno (CwdText buffer.size)) (filemap : List MapEntry)
    (path : CText)
    (hbuilt : isErr (normalisePath buffer getcwd path.text true).answer = false) :
    let name := stringAt
      (normalisePath buffer getcwd path.text true).stores.memory buffer.dst
    let outcome := filemapMap buffer getcwd filemap path.text
    (∀ before entry behind, filemap = before ++ entry :: behind →
      (∀ earlier ∈ before, ¬ earlier.Matches name) → entry.Matches name →
      (entry.target ++ name.drop entry.source.length).length < buffer.size →
        Holds outcome.stores.memory buffer.dst
            (entry.target ++ name.drop entry.source.length) ∧
          outcome.answer =
            (entry.target ++ name.drop entry.source.length).length + 1) ∧
      ((∀ entry ∈ filemap, ¬ entry.Matches name) →
        Holds outcome.stores.memory buffer.dst name ∧ outcome.answer = 0) := by
  obtain ⟨text, hok⟩ : ∃ text, built buffer getcwd path = .ok text := by
    rcases hcase : built buffer getcwd path with error | text
    · have hisErr := isErr_of_error getcwd path true hcase
      rw [hbuilt] at hisErr
      exact Bool.noConfusion hisErr
    · exact ⟨text, rfl⟩
  have hnormalised := normalised_of_ok getcwd path true hok
  dsimp only
  rw [hnormalised.holds.stringAt_eq]
  constructor
  · rintro before entry behind rfl hbefore hmatch hfits
    have hfind : (before ++ entry :: behind).find? (·.Matches text) =
        some entry := by
      rw [List.find?_append, List.find?_eq_none.2 (by simpa using hbefore),
        Option.none_or, List.find?_cons_of_pos (by simpa using hmatch)]
    have happly := matches_apply hmatch
    rw [← happly] at hfits ⊢
    have hmapped := filemapMap_mapped hok hfind hfits
    exact ⟨hmapped.holds, hmapped.answer⟩
  · intro hnone
    have hfind : filemap.find? (·.Matches text) = none :=
      List.find?_eq_none.2 (by simpa using hnone)
    exact (filemapMap_of_find_none hok hfind).2

/-- A buffer of twelve bytes. -/
def smallBuffer : Destination where
  memory := List.replicate 16 '.'
  dst := 2
  size := 12
  two_le := by decide
  room := by decide

/-- A directory with a longer target. -/
def longerEntry : MapEntry where
  source := ['/', 'c', '/']
  target := ['/', 'z', '/', 'z', '/']
  source_absolute := rfl
  target_absolute := rfl
  same_end := by decide
  source_no_nul := by decide
  target_no_nul := by decide

/-- The rest of a name is moved up. -/
theorem filemapMap_first_match_moved :
    Holds (filemapMap smallBuffer (.error enametoolong) [longerEntry]
        "/c/./x".toList).stores.memory 2 "/z/z/x".toList ∧
      (filemapMap smallBuffer (.error enametoolong) [longerEntry]
        "/c/./x".toList).answer = 7 := by
  have hall := filemapMap_first_match smallBuffer (.error enametoolong)
    [longerEntry] ⟨"/c/./x".toList, by decide⟩ (by decide)
  exact hall.1 [] longerEntry [] rfl (by simp) (by decide) (by decide)

/-! ## Failing cleanly -/

/-- Nothing outside the buffer is written, and a name that cannot be built or does not
fit is an error. -/
def FailsCleanly (buffer : Destination)
    (getcwd : Except Errno (CwdText buffer.size)) (filemap : List MapEntry)
    (path : CText) : Prop :=
  let outcome := filemapMap buffer getcwd filemap path.text
  outcome.stores.Within buffer.dst buffer.size ∧
    (isErr (normalisePath buffer getcwd path.text true).answer = true →
      isErr outcome.answer = true) ∧
    ∀ text, built buffer getcwd path = .ok text →
      buffer.size ≤ (mapName (filemap.map MapEntry.toMapping) text).length →
        isErr outcome.answer = true

/-- The condition: the absolute name can be built, and the entry for it, if it is one
for a file, has a target that fits. -/
def Builds (buffer : Destination) (getcwd : Except Errno (CwdText buffer.size))
    (filemap : List MapEntry) (path : CText) : Prop :=
  ∃ text, built buffer getcwd path = .ok text ∧
    ∀ entry, filemap.find? (·.Matches text) = some entry →
      entry.source.getLast? ≠ some '/' → entry.target.length < buffer.size

section Fails

variable {buffer : Destination} {getcwd : Except Errno (CwdText buffer.size)}
variable {filemap : List MapEntry} {path : CText} {text : Text} {entry : MapEntry}

/-- The mapped name, by the entry found. -/
theorem mapName_entries (filemap : List MapEntry) (text : Text) :
    mapName (filemap.map MapEntry.toMapping) text =
      ((filemap.find? (·.Matches text)).map (·.apply text)).getD text := by
  rw [mapName]
  rw [List.find?_map, Option.map_map]
  rfl

/-- A directory's name that does not fit is an error. -/
theorem filemapMap_long_directory (hok : built buffer getcwd path = .ok text)
    (hfind : filemap.find? (·.Matches text) = some entry)
    (hdir : entry.source.getLast? = some '/')
    (hlong : ¬ (entry.apply text).length < buffer.size) :
    filemapMap buffer getcwd filemap path.text =
      fail (normalisePath buffer getcwd path.text true).stores enametoolong := by
  have hnormalised := normalised_of_ok getcwd path true hok
  have hwithin := (normalisePath_agrees buffer getcwd path true).2
  have hmatch : entry.Matches text := by simpa using List.find?_some hfind
  have hmapped := applyEntry_directory hnormalised.holds hnormalised.room hwithin
    hnormalised.fits hdir (matches_start hmatch)
  rw [if_neg hlong] at hmapped
  rw [filemapMap_of_find_some hok hfind, hmapped]

/-- A path that is built is not answered with an error by `normalise_path`. -/
theorem isErr_of_built (hok : built buffer getcwd path = .ok text) :
    isErr (normalisePath buffer getcwd path.text true).answer = false := by
  rw [(normalised_of_ok getcwd path true hok).answer, isErr_length]

theorem failsCleanly_of_builds (hbuilds : Builds buffer getcwd filemap path) :
    FailsCleanly buffer getcwd filemap path := by
  obtain ⟨text, hok, hfile⟩ := hbuilds
  have hnormalised := normalised_of_ok getcwd path true hok
  have hwithin := (normalisePath_agrees buffer getcwd path true).2
  have hall : ∀ text', built buffer getcwd path = .ok text' → text' = text := by
    intro text' hok'
    rw [hok] at hok'
    exact (Except.ok.inj hok').symm
  unfold FailsCleanly
  dsimp only
  rw [isErr_of_built hok]
  rcases hfind : filemap.find? (·.Matches text) with _ | entry
  · refine ⟨(filemapMap_of_find_none hok hfind).1, Bool.false_ne_true.elim, ?_⟩
    intro text' hok' hlong
    rw [hall text' hok', mapName_entries, hfind] at hlong
    exact absurd hnormalised.fits (Nat.not_lt.2 hlong)
  · by_cases hfits : (entry.apply text).length < buffer.size
    · refine ⟨(filemapMap_mapped hok hfind hfits).within,
        Bool.false_ne_true.elim, ?_⟩
      intro text' hok' hlong
      rw [hall text' hok', mapName_entries, hfind] at hlong
      exact absurd hfits (Nat.not_lt.2 hlong)
    · have hdir : entry.source.getLast? = some '/' := by
        by_contra hnot
        rw [Mapping.apply_file hnot] at hfits
        exact hfits (hfile entry hfind hnot)
      rw [filemapMap_long_directory hok hfind hdir hfits]
      exact ⟨hwithin, Bool.false_ne_true.elim, fun _ _ _ => isErr_errno enametoolong⟩

end Fails

/-- The function fails cleanly exactly under the condition. -/
theorem filemapMap_failsCleanly_iff (buffer : Destination)
    (getcwd : Except Errno (CwdText buffer.size)) (filemap : List MapEntry)
    (path : CText) :
    FailsCleanly buffer getcwd filemap path ↔
      Builds buffer getcwd filemap path := by
  constructor
  · rintro ⟨hwithin, hbuilt, _⟩
    rcases hcase : built buffer getcwd path with error | text
    · have herror := hbuilt (isErr_of_error getcwd path true hcase)
      rw [filemapMap_of_error hcase] at herror
      change isErr 0 = true at herror
      exact absurd herror (by decide)
    · refine ⟨text, hcase, fun entry hfind hfile => ?_⟩
      by_contra hlong
      rw [filemapMap_of_find_some hcase hfind] at hwithin
      exact applyEntry_file_long hfile (Nat.not_lt.1 hlong) hwithin
  · exact failsCleanly_of_builds

/-- With the current directory removed a relative name is answered as one without
mapping. -/
theorem removed_directory_answers_zero :
    ¬ FailsCleanly smallBuffer (.error ⟨2, by decide, by decide⟩) []
      ⟨['x'], by decide⟩ := by
  intro hclean
  exact absurd (hclean.2.1 rfl) (by decide)

end IbcsUs.Names.InPlace
