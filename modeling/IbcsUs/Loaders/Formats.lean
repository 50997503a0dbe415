import IbcsUs.Core.Links
import IbcsUs.Core.Refinement
import IbcsUs.Core.Walks

/-!
# The list of executable formats

The formats are registered at the front of a circular list, and tried in turn by
`load_binfmt` until one of them knows the file.  `unregister_binfmt` hands `list_del` the
format and the head of the list, where the function wants the two neighbours of what is to
go.  So the format stays, and those behind it are lost.
-/

namespace IbcsUs.Formats

open IbcsUs.Core IbcsUs.Refinement

/-- `linux_binfmts` with the `lh` fields, each by its address. -/
structure FormatList where
  links : Links ℕ
  linuxBinfmts : ℕ

/-- `LIST_HEAD`. -/
def FormatList.start (head : ℕ) : FormatList := ⟨⟨fun _ => head, fun _ => head⟩, head⟩

/-- `list_add` by `__list_add`. -/
def listAdd (links : Links ℕ) (new head : ℕ) : Links ℕ :=
  (links.join new (links.next head)).join head new

/-- `list_del`. -/
def listDel (links : Links ℕ) (prev next : ℕ) : Links ℕ := links.join prev next

def registerBinfmt (formats : FormatList) (binfmt : ℕ) : FormatList :=
  { formats with links := listAdd formats.links binfmt formats.linuxBinfmts }

def unregisterBinfmt (formats : FormatList) (binfmt : ℕ) : FormatList :=
  { formats with links := listDel formats.links binfmt formats.linuxBinfmts }

/-- `-ENOEXEC`. -/
def enoexec : ℤ := -8

/-- `BINPRM_BUF_SIZE`. -/
def binprmBufSize : ℤ := 128

/-- The loop of `load_binfmt`, with the formats that are tried and the result, which is that of
the read before the first one; `none` when it does not end. -/
def tryFormats (loadBinary : ℕ → ℤ) (links : Links ℕ) (head : ℕ) :
    ℕ → ℤ → ℕ → Option (List ℕ × ℤ)
  | 0, _, _ => none
  | fuel + 1, retval, binfmt =>
      if binfmt = head then some ([], retval)
      else if loadBinary binfmt ≠ enoexec then some ([binfmt], loadBinary binfmt)
      else (tryFormats loadBinary links head fuel enoexec (links.next binfmt)).map fun rest =>
        (binfmt :: rest.1, rest.2)

/-- What happens to the list; a load comes with what the formats make of its file. -/
inductive FormatCall where
  | register (binfmt : ℕ)
  | unregister (binfmt : ℕ)
  | load (loadBinary : ℕ → ℤ)

/-- A call, with the formats that a load tries and its result. -/
def formatStep (fuel : ℕ) (formats : FormatList) : FormatCall → Option (FormatList × List ℕ × ℤ)
  | .register binfmt => some (registerBinfmt formats binfmt, [], 0)
  | .unregister binfmt => some (unregisterBinfmt formats binfmt, [], 0)
  | .load loadBinary =>
      (tryFormats loadBinary formats.links formats.linuxBinfmts fuel binprmBufSize
        (formats.links.next formats.linuxBinfmts)).map fun result => (formats, result)

/-! ## The list as it is walked -/

/-- The formats up to one of them, and that one. -/
def through (binfmt : ℕ) : List ℕ → List ℕ
  | [] => []
  | head :: formats => if head = binfmt then [head] else head :: through binfmt formats

/-- The formats that are tried, until one does not say `ENOEXEC`. -/
def tried (loadBinary : ℕ → ℤ) (retval : ℤ) : List ℕ → List ℕ × ℤ
  | [] => ([], retval)
  | binfmt :: formats =>
      if loadBinary binfmt ≠ enoexec then ([binfmt], loadBinary binfmt)
      else
        let rest := tried loadBinary enoexec formats
        (binfmt :: rest.1, rest.2)

/-- The calls on the list of the formats that are walked. -/
def specStep (formats : List ℕ) : FormatCall → List ℕ × List ℕ × ℤ
  | .register binfmt => (binfmt :: formats, [], 0)
  | .unregister binfmt => (through binfmt formats, [], 0)
  | .load loadBinary => (formats, tried loadBinary binprmBufSize formats)

/-- No format is registered while it is walked, or is the head of the list. -/
def FormatMeets (head fuel : ℕ) (formats : List ℕ) (call : FormatCall) : Prop :=
  formats.length < fuel ∧
    match call with
    | .register binfmt => binfmt ≠ head ∧ binfmt ∉ formats
    | .unregister binfmt => binfmt ≠ head
    | .load _ => True

/-- The walk from the head meets these formats. -/
structure Holds (head : ℕ) (state : FormatList) (formats : List ℕ) : Prop where
  head_eq : state.linuxBinfmts = head
  walks : Walks state.links.next head (state.links.next head) formats

section Calls

variable {head fuel binfmt : ℕ} {state : FormatList} {formats : List ℕ}

theorem tryFormats_eq {loadBinary : ℕ → ℤ} {links : Links ℕ} {first : ℕ} {retval : ℤ}
    (hwalk : Walks links.next head first formats) (hfuel : formats.length < fuel) :
    tryFormats loadBinary links head fuel retval first =
      some (tried loadBinary retval formats) := by
  induction formats generalizing first fuel retval with
  | nil =>
      obtain ⟨fuel, rfl⟩ := Nat.exists_eq_succ_of_ne_zero (Nat.ne_of_gt hfuel)
      rw [tryFormats, if_pos (Walks.nil_iff.mp hwalk)]
      rfl
  | cons entry formats ih =>
      obtain ⟨rfl, hne, hrest⟩ := hwalk
      obtain ⟨fuel, rfl⟩ := Nat.exists_eq_succ_of_ne_zero (Nat.ne_of_gt (Nat.zero_lt_of_lt hfuel))
      rw [List.length_cons, Nat.succ_lt_succ_iff] at hfuel
      rw [tryFormats, if_neg hne, tried]
      split_ifs
      · rfl
      · rw [ih hrest hfuel]
        rfl

/-- The next links after a format has been put behind the head. -/
theorem next_listAdd (links : Links ℕ) (new : ℕ) :
    (listAdd links new head).next =
      Function.update (Function.update links.next new (links.next head)) head new := rfl

theorem next_listDel (links : Links ℕ) (prev next : ℕ) :
    (listDel links prev next).next = Function.update links.next prev next := rfl

theorem Holds.register (hholds : Holds head state formats) (hne : binfmt ≠ head)
    (hout : binfmt ∉ formats) : Holds head (registerBinfmt state binfmt) (binfmt :: formats) := by
  obtain ⟨hhead, hwalk⟩ := hholds
  refine ⟨hhead, ?_⟩
  have hpush := hwalk.push hne hout
  rw [registerBinfmt, next_listAdd, hhead, Function.update_self]
  exact hpush.update hpush.ne_stop

theorem through_of_notMem (hout : binfmt ∉ formats) : through binfmt formats = formats := by
  induction formats with
  | nil => rfl
  | cons entry formats ih =>
      rw [List.mem_cons, not_or] at hout
      rw [through, if_neg (Ne.symm hout.1), ih hout.2]

theorem through_append {front back : List ℕ} (hout : binfmt ∉ front) :
    through binfmt (front ++ binfmt :: back) = front ++ [binfmt] := by
  induction front with
  | nil => rw [List.nil_append, through, if_pos rfl, List.nil_append]
  | cons entry front ih =>
      rw [List.mem_cons, not_or] at hout
      rw [List.cons_append, through, if_neg (Ne.symm hout.1), ih hout.2, List.cons_append]

theorem Holds.unregister (hholds : Holds head state formats) (hne : binfmt ≠ head) :
    Holds head (unregisterBinfmt state binfmt) (through binfmt formats) := by
  obtain ⟨hhead, hwalk⟩ := hholds
  refine ⟨hhead, ?_⟩
  rw [unregisterBinfmt, next_listDel, hhead, Function.update_of_ne hne.symm]
  by_cases hmem : binfmt ∈ formats
  · obtain ⟨front, back, rfl⟩ := List.append_of_mem hmem
    have hfront : binfmt ∉ front := fun h =>
      (List.nodup_cons.mp (List.nodup_middle.mp hwalk.nodup)).1 (List.mem_append_left _ h)
    rw [through_append hfront]
    exact hwalk.cut
  · rw [through_of_notMem hmem]
    exact hwalk.update hmem

/-- Every call does to the walk what it does to the list. -/
theorem simulates_formats (head fuel : ℕ) :
    Simulates (formatStep fuel) specStep (FormatMeets head fuel) (Holds head) := by
  intro state formats call hholds hmeets
  obtain ⟨hfuel, hcall⟩ := hmeets
  cases call with
  | register binfmt => exact ⟨_, rfl, hholds.register hcall.1 hcall.2⟩
  | unregister binfmt => exact ⟨_, rfl, hholds.unregister hcall⟩
  | load loadBinary =>
      refine ⟨state, ?_, hholds⟩
      rw [formatStep, hholds.head_eq, tryFormats_eq hholds.walks hfuel]
      rfl

end Calls

/-! ## Any run -/

/-- The files that no format knows. -/
def unknownFile : ℕ → ℤ := fun _ => enoexec

theorem tried_unknown (formats : List ℕ) (retval : ℤ) :
    tried unknownFile retval formats = (formats, if formats = [] then retval else enoexec) := by
  induction formats generalizing retval with
  | nil => rfl
  | cons binfmt formats ih =>
      have hunknown : ¬ unknownFile binfmt ≠ enoexec := not_not.mpr rfl
      rw [tried, if_neg hunknown, ih, if_neg (List.cons_ne_nil _ _), ite_self]

theorem mem_through {binfmt : ℕ} {formats : List ℕ} (hmem : binfmt ∈ formats) :
    binfmt ∈ through binfmt formats := by
  obtain ⟨front, back, rfl, hfront⟩ := List.eq_append_cons_of_mem hmem
  rw [through_append hfront]
  exact List.mem_append_right _ (List.mem_singleton_self _)

theorem holds_start (head : ℕ) : Holds head (FormatList.start head) [] := ⟨rfl, rfl⟩

/-- Any run in which no format is registered while it is in the list: a load tries the formats
in the order in which they were registered, the last one first, and stops at the first that
knows the file. -/
theorem formats_serve (head fuel : ℕ) (calls : List FormatCall)
    (hready : Ready specStep (FormatMeets head fuel) [] calls) :
    ∃ final, serve (formatStep fuel) (FormatList.start head) calls =
        some (final, (serveSpec specStep [] calls).2) ∧
      Holds head final (serveSpec specStep [] calls).1 :=
  (simulates_formats head fuel).serve_eq (holds_start head) hready

/-- A load among three formats. -/
theorem formats_serve_three :
    ∃ final, serve (formatStep 4) (FormatList.start 1)
        [.register 8, .register 16, .register 24, .load fun binfmt => if binfmt = 16 then 0 else -8]
        = some (final, [([], 0), ([], 0), ([], 0), ([24, 16], 0)]) ∧ Holds 1 final [24, 16, 8] :=
  formats_serve 1 4 [.register 8, .register 16, .register 24,
    .load fun binfmt => if binfmt = 16 then 0 else -8]
    ⟨⟨by decide, by decide⟩, ⟨by decide, by decide⟩, ⟨by decide, by decide⟩,
      ⟨by decide, trivial⟩, trivial⟩

end IbcsUs.Formats
