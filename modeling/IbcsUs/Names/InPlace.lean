import Mathlib.Tactic.Ring
import IbcsUs.Core.Stores
import IbcsUs.Names.Normalise

/-!
# Making a name absolute, in the buffer

`normalise_path` as it works on the bytes of its buffer, with a cursor that goes
forwards and backwards.  What stands before the cursor is what the loop on texts has
listed, so the result is that of the texts; no byte outside the buffer is written.
-/

namespace IbcsUs.Names.InPlace

open IbcsUs.Paths IbcsUs.Strings

/-- A text as the program is given it. -/
structure CText where
  text : Text
  no_nul : nul ∉ text

/-- A buffer of `size` bytes at `dst`. -/
structure Destination where
  memory : Memory
  dst : ℕ
  size : ℕ
  two_le : 2 ≤ size
  room : dst + size ≤ memory.length

/-- An error number. -/
structure Errno where
  value : ℕ
  pos : 0 < value
  lt : value < 4096

/-- `ENAMETOOLONG`. -/
def enametoolong : Errno := ⟨36, by decide, by decide⟩

/-- `IBCS_IS_ERR`. -/
def isErr (answer : ℤ) : Bool := -4096 < answer && answer < 0

/-- What `getcwd` puts into a buffer of `size` bytes. -/
structure CwdText (size : ℕ) extends CText where
  fits : text.length < size

/-! ## The code -/

/-- What a function leaves behind. -/
structure Outcome where
  stores : Stores
  answer : ℤ

/-- A function gives up. -/
def fail (stores : Stores) (errno : Errno) : Outcome := ⟨stores, -errno.value⟩

/-- Whether a `..` is kept, because there is nothing before it or another one. -/
def keepsDotDot (memory : Memory) (dst d : ℕ) : Bool :=
  d = dst ||
    (d = dst + 3 && cell memory (d - 2) = '.' && cell memory (d - 3) = '.') ||
    (dst + 4 ≤ d && cell memory (d - 2) = '.' && cell memory (d - 3) = '.' &&
      cell memory (d - 4) = '/')

/-- The loop that erases a name, once `d` is on the slash behind it. -/
def eraseName (memory : Memory) (dst : ℕ) : ℕ → ℕ
  | 0 => 0
  | d + 1 =>
      if d + 1 > dst && cell memory d ≠ '/' then eraseName memory dst d else d + 1

/-- The handling of `..`; `more` says whether a slash follows it.  Where it fails the
name is too long. -/
def dotDot (dst size : ℕ) (stores : Stores) (d : ℕ) (more : Bool) :
    Except Stores (Stores × ℕ) :=
  if keepsDotDot stores.memory dst d then
    if d - dst + 3 ≥ size then .error stores
    else
      let kept := (stores.put d '.').put (d + 1) '.'
      .ok (if more then (kept.put (d + 2) '/', d + 3) else (kept, d + 2))
  else if d ≠ dst + 1 then .ok (stores, eraseName stores.memory dst (d - 1))
  else .ok (stores, d)

/-- The loop of `normalise_path`.  The flag says whether it is in the middle of
copying a component, where the character is written before the room is tested. -/
def normaliseLoop (dst size : ℕ) :
    Bool → Text → Stores → ℕ → Except Stores (Stores × ℕ)
  | true, [], stores, d => .ok (stores.put d nul, d)
  | true, letter :: src, stores, d =>
      if d - dst + 1 ≥ size then .error (stores.put d letter)
      else normaliseLoop dst size (letter ≠ '/') src (stores.put d letter) (d + 1)
  | false, [], stores, d => .ok (stores, d)
  | false, '/' :: src, stores, d => normaliseLoop dst size false src stores d
  | false, '.' :: '/' :: src, stores, d =>
      normaliseLoop dst size false src stores d
  | false, ['.'], stores, d => .ok (stores, d)
  | false, ['.', '.'], stores, d => dotDot dst size stores d false
  | false, '.' :: '.' :: '/' :: src, stores, d =>
      match dotDot dst size stores d true with
      | .error stores => .error stores
      | .ok (stores, d) => normaliseLoop dst size false src stores d
  | false, letter :: src, stores, d =>
      if d - dst + 1 ≥ size then .error (stores.put d letter)
      else normaliseLoop dst size true src (stores.put d letter) (d + 1)

/-- The end of `normalise_path`. -/
def normaliseFinish (dst : ℕ) :
    Except Stores (Stores × ℕ) → Outcome
  | .error stores => fail stores enametoolong
  | .ok (stores, d) =>
      if d = dst then ⟨(stores.put d '.').put (d + 1) nul, d + 2 - dst⟩
      else if d ≠ dst + 1 && cell stores.memory (d - 1) = '/' then
        ⟨stores.put (d - 1) nul, d - dst⟩
      else ⟨stores.put d nul, d + 1 - dst⟩

/-- From the first component on. -/
def normaliseFrom (buffer : Destination) (src : Text) (stores : Stores) (d : ℕ) :
    Outcome :=
  normaliseFinish buffer.dst
    (normaliseLoop buffer.dst buffer.size false src stores d)

/-- The current directory with a slash behind it; `getcwd` is the answer of that
system call. -/
def putCwd (buffer : Destination) (getcwd : Except Errno (CwdText buffer.size)) :
    Except Outcome (Stores × ℕ) :=
  match getcwd with
  | .error errno => .error (fail ⟨buffer.memory, []⟩ errno)
  | .ok cwd =>
      let stores := Stores.putAll ⟨buffer.memory, []⟩ buffer.dst (cwd.text ++ [nul])
      let d := strend stores.memory buffer.dst
      if d - buffer.dst + 2 ≥ buffer.size then .error (fail stores enametoolong)
      else .ok (stores.put d '/', d + 1)

/-- `normalise_path`. -/
def normalisePath (buffer : Destination)
    (getcwd : Except Errno (CwdText buffer.size)) (src : Text) (isAbs : Bool) :
    Outcome :=
  match src with
  | '/' :: src =>
      normaliseFrom buffer src
        (Stores.put ⟨buffer.memory, []⟩ buffer.dst '/') (buffer.dst + 1)
  | src =>
      if isAbs then
        match putCwd buffer getcwd with
        | .error outcome => outcome
        | .ok (stores, d) => normaliseFrom buffer src stores d
      else normaliseFrom buffer src ⟨buffer.memory, []⟩ buffer.dst

/-! ## What stands before the cursor -/

/-- The cursor stands behind the characters listed, the last one first. -/
structure Copied (dst size : ℕ) (stores : Stores) (d : ℕ) (done : Text) :
    Prop where
  at_end : d = dst + done.length
  shows : Shows stores.memory dst done.reverse
  short : done.length < size
  no_nul : nul ∉ done
  room : dst + size ≤ stores.memory.length
  within : stores.Within dst size

section Cursor

variable {dst size d : ℕ} {stores : Stores} {done : Text} {letter : Char}

/-- `*d = letter`, with the cursor left where it is. -/
theorem Copied.write (hcopied : Copied dst size stores d done) (letter : Char) :
    Copied dst size (stores.put d letter) d done where
  at_end := hcopied.at_end
  shows := by
    apply hcopied.shows.set_of_outside
    rw [hcopied.at_end, List.length_reverse]
    exact .inr (Nat.le_refl _)
  short := hcopied.short
  no_nul := hcopied.no_nul
  room := by
    rw [Stores.length_put]
    exact hcopied.room
  within := by
    have hend := hcopied.at_end
    have hshort := hcopied.short
    exact hcopied.within.put (by omega) (by omega)

/-- `*d++ = letter`. -/
theorem Copied.push (letter : Char) (hcopied : Copied dst size stores d done)
    (hletter : letter ≠ nul) (hroom : done.length + 1 < size) :
    Copied dst size (stores.put d letter) (d + 1) (letter :: done) where
  at_end := by rw [hcopied.at_end, List.length_cons, Nat.add_assoc]
  shows := by
    have hend : d = dst + done.reverse.length := by
      rw [List.length_reverse, hcopied.at_end]
    have hmemory := hcopied.room
    rw [List.reverse_cons, Stores.memory_put, hend]
    apply hcopied.shows.put
    rw [List.length_reverse]
    omega
  short := hroom
  no_nul := by
    rw [List.mem_cons, not_or]
    exact ⟨hletter.symm, hcopied.no_nul⟩
  room := (hcopied.write letter).room
  within := (hcopied.write letter).within

/-- The cursor goes back. -/
theorem Copied.back (gone : Text)
    (hcopied : Copied dst size stores d (gone ++ done)) :
    Copied dst size stores (d - gone.length) done where
  at_end := by
    rw [hcopied.at_end, List.length_append]
    omega
  shows := by
    have hshows := hcopied.shows
    rw [List.reverse_append] at hshows
    exact hshows.of_append
  short := by
    have hshort := hcopied.short
    rw [List.length_append] at hshort
    omega
  no_nul := fun hmem => hcopied.no_nul (List.mem_append_right gone hmem)
  room := hcopied.room
  within := hcopied.within

/-- `d[-1]`, `d[-2]` and so on. -/
theorem Copied.cell (gone : Text)
    (hcopied : Copied dst size stores d (gone ++ letter :: done)) :
    Strings.cell stores.memory (d - (gone.length + 1)) = letter := by
  have hshows := hcopied.shows
  have hend := hcopied.at_end
  rw [List.reverse_append, List.reverse_cons, List.append_assoc,
    List.singleton_append] at hshows
  rw [List.length_append, List.length_cons] at hend
  have hat : d - (gone.length + 1) = dst + done.reverse.length := by
    rw [List.length_reverse]
    omega
  rw [hat]
  exact hshows.cell

/-- The bytes before the cursor decide as the characters listed do. -/
theorem Copied.keepsDotDot_eq (hcopied : Copied dst size stores d done) :
    keepsDotDot stores.memory dst d = Names.keepsDotDot done := by
  have hend := hcopied.at_end
  rw [keepsDotDot, Names.keepsDotDot]
  rcases done with _ | ⟨first, _ | ⟨second, _ | ⟨third, _ | ⟨fourth, done⟩⟩⟩⟩
  · simp at hend
    simp [hend]
  · simp at hend
    simp [hend]
  · simp at hend
    simp [hend]
  · have hsecond : Strings.cell stores.memory (d - 2) = second :=
      Copied.cell [first] hcopied
    have hthird : Strings.cell stores.memory (d - 3) = third :=
      Copied.cell [first, second] hcopied
    simp at hend
    rw [hsecond, hthird]
    simp [hend]
  · have hsecond : Strings.cell stores.memory (d - 2) = second :=
      Copied.cell [first] hcopied
    have hthird : Strings.cell stores.memory (d - 3) = third :=
      Copied.cell [first, second] hcopied
    have hfourth : Strings.cell stores.memory (d - 4) = fourth :=
      Copied.cell [first, second, third] hcopied
    simp at hend
    rw [hsecond, hthird, hfourth]
    simp [hend]

/-- A name is erased up to the slash before it. -/
theorem Copied.eraseName (hcopied : Copied dst size stores d done) :
    Copied dst size stores (InPlace.eraseName stores.memory dst d)
      (done.dropWhile (· ≠ '/')) := by
  induction done generalizing d with
  | nil =>
      have hend : d = dst := hcopied.at_end
      have hstop : InPlace.eraseName stores.memory dst d = d := by
        cases d with
        | zero => rfl
        | succ d => simp [InPlace.eraseName, hend]
      rw [hstop]
      exact hcopied
  | cons letter done ih =>
      have hend := hcopied.at_end
      rw [List.length_cons] at hend
      obtain ⟨before, rfl⟩ : ∃ before, d = before + 1 := ⟨d - 1, by omega⟩
      have hletter : Strings.cell stores.memory before = letter :=
        Copied.cell [] hcopied
      have hbehind : before + 1 > dst := by omega
      rw [InPlace.eraseName, hletter]
      by_cases hslash : letter = '/'
      · rw [if_neg (by simp [hslash]), List.dropWhile_cons_of_neg (by simp [hslash])]
        exact hcopied
      · rw [if_pos (by simp [hslash, hbehind]),
          List.dropWhile_cons_of_pos (by simp [hslash])]
        exact ih (Copied.back [letter] hcopied)

end Cursor

/-! ## The loop -/

section Loop

variable {dst size d : ℕ} {stores : Stores} {done src : Text} {copying : Bool}

/-- The loop on the bytes agrees with the loop on texts. -/
def LoopAgrees (dst size : ℕ) :
    Except NormaliseError Text → Except Stores (Stores × ℕ) → Prop
  | .ok done, .ok (stores, d) => Copied dst size stores d done
  | .error (.long _), .error stores => stores.Within dst size
  | _, _ => False

theorem dotDot_agrees (hcopied : Copied dst size stores d done) (more : Bool) :
    LoopAgrees dst size (Names.dotDot size done more)
      (dotDot dst size stores d more) := by
  have hend := hcopied.at_end
  have hused : d - dst = done.length := by omega
  rw [dotDot, Names.dotDot]
  rw [hcopied.keepsDotDot_eq, hused]
  by_cases hkeep : Names.keepsDotDot done = true
  · rw [if_pos hkeep, if_pos hkeep]
    by_cases hlong : done.length + 3 ≥ size
    · rw [if_pos hlong, if_pos hlong]
      exact hcopied.within
    · rw [if_neg hlong, if_neg hlong]
      have hone := hcopied.push '.' (by decide) (by omega)
      have htwo := hone.push '.' (by decide)
        (by rw [List.length_cons]; omega)
      cases more with
      | false => exact htwo
      | true =>
          exact htwo.push '/' (by decide)
            (by rw [List.length_cons, List.length_cons]; omega)
  · rw [if_neg hkeep, if_neg hkeep]
    by_cases hname : done.length ≠ 1
    · have hne : d ≠ dst + 1 := by omega
      rw [if_pos hname, if_pos hne]
      have hdone : done ≠ [] := by
        rintro rfl
        exact hkeep rfl
      obtain ⟨letter, done, rfl⟩ := List.exists_cons_of_ne_nil hdone
      exact (hcopied.back [letter]).eraseName
    · have heq : ¬ d ≠ dst + 1 := by omega
      rw [if_neg hname, if_neg heq]
      exact hcopied

theorem normaliseLoop_agrees (hcopied : Copied dst size stores d done)
    (hsrc : nul ∉ src) :
    LoopAgrees dst size (Names.normaliseLoop size copying src done)
      (normaliseLoop dst size copying src stores d) := by
  have hcons : ∀ {letter : Char} {src : Text}, nul ∉ letter :: src →
      letter ≠ nul ∧ nul ∉ src := by
    intro letter src hmem
    rw [List.mem_cons, not_or] at hmem
    exact ⟨Ne.symm hmem.1, hmem.2⟩
  fun_induction Names.normaliseLoop size copying src done generalizing stores d with
  | case1 done => exact hcopied.write nul
  | case2 letter src done hfull =>
      have hused : d - dst = done.length := by
        rw [hcopied.at_end, Nat.add_sub_cancel_left]
      rw [normaliseLoop, hused, if_pos hfull]
      exact (hcopied.write letter).within
  | case3 letter src done hfull ih =>
      have hused : d - dst = done.length := by
        rw [hcopied.at_end, Nat.add_sub_cancel_left]
      rw [normaliseLoop, hused, if_neg hfull]
      exact ih (hcopied.push letter (hcons hsrc).1 (Nat.not_le.1 hfull)) (hcons hsrc).2
  | case4 done => exact hcopied
  | case5 src done ih => exact ih hcopied (hcons hsrc).2
  | case6 src done ih => exact ih hcopied (hcons (hcons hsrc).2).2
  | case7 done => exact hcopied
  | case8 done => exact dotDot_agrees hcopied false
  | case9 src done error herror =>
      have hkept := dotDot_agrees hcopied true
      rw [herror] at hkept
      rw [normaliseLoop]
      generalize dotDot dst size stores d true = kept at hkept
      cases kept with
      | error stores => exact hkept
      | ok cursor => cases error <;> exact hkept.elim
  | case10 src done kept hok ih =>
      have hkept := dotDot_agrees hcopied true
      rw [hok] at hkept
      rw [normaliseLoop]
      generalize dotDot dst size stores d true = cursor at hkept
      cases cursor with
      | error stores => exact hkept.elim
      | ok cursor => exact ih hkept (hcons (hcons (hcons hsrc).2).2).2
  | case11 letter src done hslash hdot hend hdotDot hdots hfull =>
      have hused : d - dst = done.length := by
        rw [hcopied.at_end, Nat.add_sub_cancel_left]
      rw [normaliseLoop.eq_9 _ _ _ _ _ _ hslash hdot hend hdotDot hdots, hused,
        if_pos hfull]
      exact (hcopied.write letter).within
  | case12 letter src done hslash hdot hend hdotDot hdots hfull ih =>
      have hused : d - dst = done.length := by
        rw [hcopied.at_end, Nat.add_sub_cancel_left]
      rw [normaliseLoop.eq_9 _ _ _ _ _ _ hslash hdot hend hdotDot hdots, hused,
        if_neg hfull]
      exact ih (hcopied.push letter (hcons hsrc).1 (Nat.not_le.1 hfull)) (hcons hsrc).2

end Loop

/-! ## The whole function -/

/-- The function has put a text into the buffer. -/
structure Normalised (dst size : ℕ) (outcome : Outcome) (text : Text) : Prop where
  answer : outcome.answer = text.length + 1
  holds : Holds outcome.stores.memory dst text
  ne_nil : text ≠ []
  fits : text.length < size
  room : dst + size ≤ outcome.stores.memory.length

/-- The answer for a failure. -/
def errorAnswer : NormaliseError → ℤ
  | .getcwd errno => -errno
  | .longCwd _ => -enametoolong.value
  | .long _ => -enametoolong.value

/-- `normalise_path` agrees with what it does to texts. -/
def Agrees (dst size : ℕ) (outcome : Outcome) :
    Except NormaliseError Text → Prop
  | .ok text => Normalised dst size outcome text
  | .error error =>
      outcome.answer = errorAnswer error ∧ isErr outcome.answer = true

theorem isErr_errno (errno : Errno) : isErr (-errno.value) = true := by
  have hpos := errno.pos
  have hlt := errno.lt
  simp only [isErr, Bool.and_eq_true, decide_eq_true_eq]
  omega

/-- A length is no error number. -/
theorem isErr_length (length : ℕ) : isErr (length + 1) = false := by
  simp only [isErr, Bool.and_eq_false_iff, decide_eq_false_iff_not]
  omega

section Whole

variable {dst size d : ℕ} {stores : Stores} {done src : Text}
variable {texts : Except NormaliseError Text}
variable {bytes : Except Stores (Stores × ℕ)}

/-- The terminator is put behind what has been copied. -/
theorem Copied.close (hcopied : Copied dst size stores d done) (hne : done ≠ []) :
    Normalised dst size ⟨stores.put d nul, d + 1 - dst⟩ done.reverse where
  answer := by
    rw [List.length_reverse]
    have hend := hcopied.at_end
    push_cast [hend]
    ring
  holds := by
    have hend := hcopied.at_end
    have hroom := hcopied.room
    have hshort := hcopied.short
    have hnul : nul ∉ done.reverse := by simpa using hcopied.no_nul
    have hat : d = dst + done.reverse.length := by
      rw [List.length_reverse, hend]
    refine Shows.holds ?_ hnul
    rw [Stores.memory_put, hat]
    apply hcopied.shows.put
    rw [List.length_reverse]
    omega
  ne_nil := List.reverse_ne_nil_iff.2 hne
  fits := by
    rw [List.length_reverse]
    exact hcopied.short
  room := (hcopied.write nul).room

/-- The end of the function, on the bytes and on texts. -/
theorem Copied.finish (hcopied : Copied dst size stores d done)
    (hsize : 2 ≤ size) :
    Normalised dst size (normaliseFinish dst (.ok (stores, d)))
        (Names.normaliseFinish done) ∧
      (normaliseFinish dst (.ok (stores, d))).stores.Within dst size := by
  have hend := hcopied.at_end
  unfold normaliseFinish Names.normaliseFinish
  dsimp only
  rcases done with _ | ⟨letter, done⟩
  · have hpush := hcopied.push '.' (by decide) hsize
    have hclose := hpush.close (List.cons_ne_nil _ _)
    have hanswer : ((d + 1 : ℕ) : ℤ) + 1 - dst = d + 2 - dst := by
      push_cast
      ring
    rw [if_pos (by simpa using hend), if_pos rfl]
    rw [hanswer] at hclose
    exact ⟨hclose, (hpush.write nul).within⟩
  · have hletter : Strings.cell stores.memory (d - 1) = letter :=
      hcopied.cell []
    rw [List.length_cons] at hend
    have hne : d ≠ dst := by omega
    have hlength : d ≠ dst + 1 ↔ done ≠ [] := by
      rw [← List.length_pos_iff]
      omega
    rw [if_neg hne, if_neg (List.cons_ne_nil _ _), hletter]
    by_cases hslash : done ≠ [] ∧ letter = '/'
    · have hback := hcopied.back [letter]
      have hanswer : ((d - [letter].length : ℕ) : ℤ) + 1 - dst = d - dst := by
        rw [List.length_singleton]
        omega
      have hclose := hback.close hslash.1
      rw [hanswer] at hclose
      rw [if_pos (by simpa [hlength] using hslash), if_pos (by simpa using hslash)]
      exact ⟨hclose, (hback.write nul).within⟩
    · rw [if_neg (by simpa [hlength] using hslash), if_neg (by simpa using hslash)]
      exact ⟨hcopied.close (List.cons_ne_nil _ _), (hcopied.write nul).within⟩

/-- What the loop has agreed on is closed in the same way. -/
theorem finish_agrees (hagrees : LoopAgrees dst size texts bytes)
    (hsize : 2 ≤ size) :
    Agrees dst size (normaliseFinish dst bytes)
        (texts.map Names.normaliseFinish) ∧
      (normaliseFinish dst bytes).stores.Within dst size := by
  rcases texts with error | done <;> rcases bytes with stores | ⟨stores, d⟩
  · cases error with
    | long written => exact ⟨⟨rfl, isErr_errno enametoolong⟩, hagrees⟩
    | getcwd errno => exact hagrees.elim
    | longCwd cwd => exact hagrees.elim
  · cases error <;> exact hagrees.elim
  · exact hagrees.elim
  · exact Copied.finish hagrees hsize

end Whole

section Buffer

variable {buffer : Destination} {getcwd : Except Errno (CwdText buffer.size)}
variable {src done : Text} {stores : Stores} {d : ℕ}

/-- From the first component on the bytes do what the texts do. -/
theorem normaliseFrom_agrees
    (hcopied : Copied buffer.dst buffer.size stores d done) (hsrc : nul ∉ src) :
    Agrees buffer.dst buffer.size (normaliseFrom buffer src stores d)
        ((Names.normaliseLoop buffer.size false src done).map
          Names.normaliseFinish) ∧
      (normaliseFrom buffer src stores d).stores.Within buffer.dst buffer.size :=
  finish_agrees (normaliseLoop_agrees hcopied hsrc) buffer.two_le

/-- The buffer before anything has been written. -/
theorem copied_start (buffer : Destination) :
    Copied buffer.dst buffer.size ⟨buffer.memory, []⟩ buffer.dst [] where
  at_end := rfl
  shows := shows_nil _ _
  short := Nat.lt_of_lt_of_le Nat.zero_lt_two buffer.two_le
  no_nul := List.not_mem_nil
  room := buffer.room
  within := Stores.within_nil _ _ _

/-- The current directory stands in the buffer. -/
theorem copied_cwd (cwd : CwdText buffer.size) {stores : Stores}
    (hstores : stores =
      Stores.putAll ⟨buffer.memory, []⟩ buffer.dst (cwd.text ++ [nul])) :
    Copied buffer.dst buffer.size stores (strend stores.memory buffer.dst)
      cwd.text.reverse := by
  have hfits := cwd.fits
  have hroom := buffer.room
  have hlength : (cwd.text ++ [nul]).length ≤ buffer.size := by
    rw [List.length_append, List.length_singleton]
    omega
  have hshows : Shows stores.memory buffer.dst (cwd.text ++ [nul]) := by
    rw [hstores]
    exact Stores.shows_putAll ((Nat.add_le_add_left hlength _).trans hroom)
  have hholds := hshows.holds cwd.no_nul
  constructor
  · rw [strend, hholds.stringAt_eq, List.length_reverse]
  · rw [List.reverse_reverse]
    exact hshows.of_append
  · rw [List.length_reverse]
    exact hfits
  · simpa using cwd.no_nul
  · rw [hstores, Stores.length_putAll]
    exact hroom
  · rw [hstores]
    exact (Stores.within_nil _ _ _).putAll (Nat.le_refl _)
      (Nat.add_le_add_left hlength _)

theorem normalisePath_of_relative (hrelative : src.head? ≠ some '/')
    (isAbs : Bool) :
    normalisePath buffer getcwd src isAbs =
      if isAbs then
        match putCwd buffer getcwd with
        | .error outcome => outcome
        | .ok (stores, d) => normaliseFrom buffer src stores d
      else normaliseFrom buffer src ⟨buffer.memory, []⟩ buffer.dst := by
  unfold normalisePath
  split
  · exact absurd rfl hrelative
  · rfl

theorem normaliseTexts_of_relative (hrelative : src.head? ≠ some '/') (size : ℕ)
    (getcwd : Except ℕ Text) (isAbs : Bool) :
    Names.normalisePath size getcwd src isAbs =
      if isAbs then
        match getcwd with
        | .error errno => .error (.getcwd errno)
        | .ok cwd =>
            if cwd.length + 2 ≥ size then .error (.longCwd cwd)
            else (Names.normaliseLoop size false src ('/' :: cwd.reverse)).map
              Names.normaliseFinish
      else (Names.normaliseLoop size false src []).map Names.normaliseFinish := by
  unfold Names.normalisePath
  split
  · exact absurd rfl hrelative
  · rfl

/-- A relative name that is to be absolute. -/
theorem normaliseCwd_agrees (getcwd : Except Errno (CwdText buffer.size))
    (hsrc : nul ∉ src) (hrelative : src.head? ≠ some '/') :
    Agrees buffer.dst buffer.size (normalisePath buffer getcwd src true)
        (Names.normalisePath buffer.size
          ((getcwd.mapError Errno.value).map (·.text)) src true) ∧
      (normalisePath buffer getcwd src true).stores.Within buffer.dst
        buffer.size := by
  rw [normalisePath_of_relative hrelative, normaliseTexts_of_relative hrelative,
    if_pos rfl, if_pos rfl]
  cases getcwd with
  | error errno => exact ⟨⟨rfl, isErr_errno errno⟩, Stores.within_nil _ _ _⟩
  | ok cwd =>
      have hcwd := copied_cwd cwd rfl
      have hused := hcwd.at_end
      rw [List.length_reverse] at hused
      dsimp only [putCwd, Except.mapError, Except.map]
      rw [hused, Nat.add_sub_cancel_left]
      by_cases hlong : cwd.text.length + 2 ≥ buffer.size
      · rw [if_pos hlong, if_pos hlong]
        exact ⟨⟨rfl, isErr_errno enametoolong⟩, hcwd.within⟩
      · rw [if_neg hlong, if_neg hlong]
        apply normaliseFrom_agrees _ hsrc
        have hpush := hcwd.push '/' (by decide)
          (by rw [List.length_reverse]; omega)
        rwa [hused] at hpush

/-- `normalise_path` on the bytes does what it does to texts, within the buffer. -/
theorem normalisePath_agrees (buffer : Destination)
    (getcwd : Except Errno (CwdText buffer.size)) (src : CText) (isAbs : Bool) :
    Agrees buffer.dst buffer.size
        (normalisePath buffer getcwd src.text isAbs)
        (Names.normalisePath buffer.size
          ((getcwd.mapError Errno.value).map (·.text)) src.text isAbs) ∧
      (normalisePath buffer getcwd src.text isAbs).stores.Within buffer.dst
        buffer.size := by
  obtain ⟨src, hsrc⟩ := src
  by_cases habsolute : src.head? = some '/'
  · obtain ⟨src, rfl⟩ := List.head?_eq_some_iff.1 habsolute
    rw [List.mem_cons, not_or] at hsrc
    apply normaliseFrom_agrees _ hsrc.2
    exact (copied_start buffer).push '/' (by decide) buffer.two_le
  · cases isAbs with
    | true => exact normaliseCwd_agrees getcwd hsrc habsolute
    | false =>
        dsimp only
        rw [normalisePath_of_relative habsolute,
          normaliseTexts_of_relative habsolute, if_neg Bool.false_ne_true,
          if_neg Bool.false_ne_true]
        exact normaliseFrom_agrees (copied_start buffer) hsrc

/-- What can be made absolute has been put into the buffer. -/
theorem normalised_of_ok (getcwd : Except Errno (CwdText buffer.size))
    (src : CText) (isAbs : Bool) {text : Text}
    (hok : Names.normalisePath buffer.size
      ((getcwd.mapError Errno.value).map (·.text)) src.text isAbs = .ok text) :
    Normalised buffer.dst buffer.size
      (normalisePath buffer getcwd src.text isAbs) text := by
  have hagrees := (normalisePath_agrees buffer getcwd src isAbs).1
  rwa [hok] at hagrees

/-- What cannot be made absolute is an error. -/
theorem isErr_of_error (getcwd : Except Errno (CwdText buffer.size))
    (src : CText) (isAbs : Bool) {error : NormaliseError}
    (herror : Names.normalisePath buffer.size
      ((getcwd.mapError Errno.value).map (·.text)) src.text isAbs =
        .error error) :
    isErr (normalisePath buffer getcwd src.text isAbs).answer = true := by
  have hagrees := (normalisePath_agrees buffer getcwd src isAbs).1
  rw [herror] at hagrees
  exact hagrees.2

end Buffer

/-- No byte outside the buffer is written, and what does not fail answers the length
of a terminated text in it. -/
theorem normalisePath_bounds (buffer : Destination)
    (getcwd : Except Errno (CwdText buffer.size)) (src : CText) (isAbs : Bool) :
    let outcome := normalisePath buffer getcwd src.text isAbs
    outcome.stores.Within buffer.dst buffer.size ∧
      (isErr outcome.answer = false →
        ∃ r : ℕ, outcome.answer = r ∧ 1 < r ∧ r ≤ buffer.size ∧
          cell outcome.stores.memory (buffer.dst + (r - 1)) = nul ∧
          ∀ earlier < r - 1,
            cell outcome.stores.memory (buffer.dst + earlier) ≠ nul) := by
  have hagrees := normalisePath_agrees buffer getcwd src isAbs
  refine ⟨hagrees.2, fun hanswer => ?_⟩
  rcases htexts : Names.normalisePath buffer.size
    ((getcwd.mapError Errno.value).map (·.text)) src.text isAbs with error | text
  · have herror := isErr_of_error getcwd src isAbs htexts
    rw [hanswer] at herror
    exact Bool.noConfusion herror
  · have hnormalised := normalised_of_ok getcwd src isAbs htexts
    have hne := List.length_pos_iff.2 hnormalised.ne_nil
    have hfits := hnormalised.fits
    refine ⟨text.length + 1, ?_, by omega, by omega, ?_, ?_⟩
    · rw [hnormalised.answer]
      push_cast
      rfl
    · exact Shows.cell hnormalised.holds.starts
    · intro earlier hearlier
      exact hnormalised.holds.cell_ne_nul hearlier

end IbcsUs.Names.InPlace
