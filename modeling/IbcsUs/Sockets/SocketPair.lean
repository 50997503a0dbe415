import Mathlib.Data.PNat.Defs
import IbcsUs.Sockets.Tidy

/-!
# Socket pairs

`socksys_socketpair` is to put the two ends of a new pair of connected sockets behind
two descriptors that the program has from `socksys_socket`.  It looks for the mode of
a socket in the first one's shadow, where `inherit_socksys_funcs` has written that of a
character device, and so refuses all of them.
-/

namespace IbcsUs.Socksys

/-- Two descriptors are the two ends of a pair. -/
def Ends (world : World) (pair left right : ℕ) : Prop :=
  world.kernel left = some (.pairEnd pair false) ∧
      world.kernel right = some (.pairEnd pair true) ∨
    world.kernel left = some (.pairEnd pair true) ∧
      world.kernel right = some (.pairEnd pair false)

/-- Two descriptors become the ends of a pair, and no other is opened or closed. -/
def Paired (world next : World) (pair left right : ℕ) : Prop :=
  Ends next pair left right ∧
    ∀ fd, fd ≠ left → fd ≠ right → next.kernel fd = world.kernel fd

/-- A descriptor is the file that it was. -/
def Kept (world next : World) (fd : ℕ) : Prop :=
  next.kernel fd = world.kernel fd ∧ next.shadow fd = world.shadow fd

/-- `socksys_socketpair` makes the pair that the kernel grants, and leaves the two
descriptors alone when it fails. -/
def PairMade (world : World) (left right : ℕ) (answer : PairAnswer) : Prop :=
  let outcome := socksysSocketpair world left right answer
  (∀ pair first second, answer = .granted pair first second →
      outcome.1 = 0 ∧ Paired world outcome.2 pair left right) ∧
    (outcome.1 ≠ 0 → Kept world outcome.2 left ∧ Kept world outcome.2 right)

/-! ## The test -/

/-- The mode of a character device is not that of a socket. -/
theorem not_sIssock_sIfchr : ¬ sIssock sIfchr := by decide

/-- Looking at a file that has a shadow changes nothing. -/
theorem Tidy.look_shadow {world : World} (htidy : Tidy world) {fd : ℕ} {file : Shadow}
    (hfile : world.shadow fd = some file) :
    (Socksys.withFile world fd id).shadow = world.shadow := by
  obtain ⟨hcount, hisopen⟩ := htidy.settled fd file hfile
  have hheld : Socksys.held world fd = { file with fCount := 1 } := by
    rw [Socksys.held, hfile]
    simp only [hcount, zero_add]
  have hput : released { file with fCount := 1 } = some file := by
    refine (released_open rfl ?_).trans ?_
    · exact hisopen
    · rw [← hcount]
  rw [withFile_shadow, hheld, id, hput, ← hfile]
  exact Function.update_eq_self ..

/-- `socksys_socketpair` refuses every socket of the emulation, and asks the kernel for
nothing. -/
theorem Tidy.socksysSocketpair_obtained {world : World} (htidy : Tidy world)
    {left : ℕ} (hleft : left ∈ world.obtained) (right : ℕ) (answer : PairAnswer) :
    Socksys.socksysSocketpair world left right answer =
      (-ebadf, Socksys.withFile world left id) := by
  rw [Socksys.socksysSocketpair, htidy.held_marked hleft, if_neg not_sIssock_sIfchr]

/-- On the sockets that a program has, whatever it did before, `socksys_socketpair` does
what it should exactly when the kernel would refuse the pair. -/
theorem pairMade_iff_refused (kernel : ℕ → Option Description) (calls : List Call)
    {left right : ℕ} (hleft : left ∈ (after kernel calls).obtained)
    (answer : PairAnswer) :
    PairMade (after kernel calls) left right answer ↔
      ∃ errno, answer = .refused errno := by
  have htidy := tidy_after kernel calls
  have houtcome := htidy.socksysSocketpair_obtained hleft right answer
  obtain ⟨file, hfile, -⟩ := htidy.marked left hleft
  have hkept : ∀ fd, Kept (after kernel calls)
      (withFile (after kernel calls) left id) fd :=
    fun fd => ⟨rfl, congrFun (htidy.look_shadow hfile) fd⟩
  rw [PairMade, houtcome]
  constructor
  · rintro ⟨hgranted, -⟩
    cases answer with
    | refused errno => exact ⟨errno, rfl⟩
    | granted pair first second =>
      obtain ⟨hzero, -⟩ := hgranted pair first second rfl
      cases hzero
  · rintro ⟨errno, rfl⟩
    exact ⟨fun _ _ _ => (nomatch ·), fun _ => ⟨hkept left, hkept right⟩⟩

/-- Two sockets that a program has just got. -/
def twoSockets : List Call := [.socket 3 0, .socket 4 1]

theorem twoSockets_obtained :
    3 ∈ (after (fun _ => none) twoSockets).obtained ∧
      4 ∈ (after (fun _ => none) twoSockets).obtained := by
  decide

theorem refused_pair_is_made :
    3 ∈ (after (fun _ => none) twoSockets).obtained ∧
      PairMade (after (fun _ => none) twoSockets) 3 4 (.refused 97) :=
  ⟨twoSockets_obtained.1,
    (pairMade_iff_refused (fun _ => none) twoSockets twoSockets_obtained.1
      (.refused 97)).mpr ⟨97, rfl⟩⟩

/-- The kernel would reuse the two numbers. -/
theorem granted_pair_is_not_made :
    3 ∈ (after (fun _ => none) twoSockets).obtained ∧
      4 ∈ (after (fun _ => none) twoSockets).obtained ∧
      (PairAnswer.granted 0 3 4).Fits (after (fun _ => none) twoSockets) 3 4 ∧
      ¬ PairMade (after (fun _ => none) twoSockets) 3 4 (.granted 0 3 4) := by
  refine ⟨by decide, by decide, by decide, ?_⟩
  rintro ⟨hgranted, -⟩
  obtain ⟨hzero, -⟩ := hgranted 0 3 4 rfl
  revert hzero
  decide

/-! ## Past the test

The rest of `socksys_socketpair` moves the two ends one after the other, and the first
move overwrites the second end when that lies at the first descriptor.
-/

theorem linux26Dup_kernel {world : World} {fd fd2 : ℕ}
    (hopen : world.kernel fd ≠ none) :
    (linux26Dup world fd fd2).kernel =
      Function.update world.kernel fd2 (world.kernel fd) := by
  rw [linux26Dup, if_neg hopen]
  cases hold : world.shadow fd with
  | none => simp only [hold]
  | some old =>
    simp only [hold]
    rfl

theorem inheritSocksysFuncs_kernel {world : World} {fd : ℕ} :
    (inheritSocksysFuncs world fd).kernel = world.kernel := by
  rw [inheritSocksysFuncs]
  split <;> rfl

/-- What is behind the descriptors when a file has moved from one number to another. -/
def movedKernel (kernel : ℕ → Option Description) (fd fd2 : ℕ) :
    ℕ → Option Description :=
  Function.update (Function.update kernel fd none) fd2 (kernel fd)

theorem moved_kernel (world : World) (fd fd2 : ℕ) (hopen : world.kernel fd ≠ none) :
    (if fd ≠ fd2 then linux26Close (linux26Dup world fd fd2) fd else world).kernel =
      movedKernel world.kernel fd fd2 := by
  rw [movedKernel]
  split
  next hne =>
    refine (congrArg (Function.update · fd none) (linux26Dup_kernel hopen)).trans ?_
    rw [Function.update_comm hne]
  next heq =>
    obtain rfl := not_not.mp heq
    rw [Function.update_idem, Function.update_eq_self]

section Moves

variable {world : World} {left right pair first second : ℕ}

/-- What is behind the descriptors when the kernel has made the pair. -/
def grantedKernel (kernel : ℕ → Option Description)
    (left right pair first second : ℕ) : ℕ → Option Description :=
  Function.update
    (Function.update (Function.update (Function.update kernel left none) right none)
      first (some (.pairEnd pair false)))
    second (some (.pairEnd pair true))

/-- What is behind the descriptors past the test. -/
theorem replaceByPair_kernel (hne : first ≠ second) :
    (replaceByPair world left right (.granted pair first second)).2.kernel =
      movedKernel
        (movedKernel (grantedKernel world.kernel left right pair first second) first left)
        second right := by
  have hfirst : grantedKernel world.kernel left right pair first second first ≠ none := by
    rw [grantedKernel, Function.update_of_ne hne, Function.update_self]
    exact Option.some_ne_none _
  have hsecond : movedKernel
      (grantedKernel world.kernel left right pair first second) first left second ≠
        none := by
    by_cases hleft : second = left
    · obtain rfl := hleft
      rwa [movedKernel, Function.update_self]
    · rw [movedKernel, Function.update_of_ne hleft, Function.update_of_ne hne.symm,
        grantedKernel, Function.update_self]
      exact Option.some_ne_none _
  have hone := moved_kernel (install (install (linux26Close (linux26Close world left)
    right) first (.pairEnd pair false)) second (.pairEnd pair true)) first left hfirst
  rw [replaceByPair, inheritSocksysFuncs_kernel, inheritSocksysFuncs_kernel]
  refine (moved_kernel _ _ _ ?_).trans ?_
  · rw [hone]
    exact hsecond
  · rw [hone]
    rfl

/-- Past its test `socksys_socketpair` makes the pair exactly when the second end does
not lie where the first one is to go. -/
theorem replaceByPair_paired_iff (hne : left ≠ right)
    (hfits : (PairAnswer.granted pair first second).Fits world left right) :
    Paired world (replaceByPair world left right (.granted pair first second)).2 pair
        left right ↔
      second ≠ left := by
  obtain ⟨hends, hfirst, hsecond⟩ := hfits
  rw [Paired, Ends, replaceByPair_kernel hends]
  constructor
  · rintro ⟨hpair, -⟩ rfl
    rw [movedKernel, Function.update_of_ne hne, Function.update_self] at hpair
    obtain ⟨hnone, -⟩ | ⟨hnone, -⟩ := hpair <;> cases hnone
  · intro hleft
    have hsecondEnd : movedKernel (grantedKernel world.kernel left right pair first second)
        first left second = some (.pairEnd pair true) := by
      rw [movedKernel, Function.update_of_ne hleft, Function.update_of_ne hends.symm,
        grantedKernel, Function.update_self]
    rw [movedKernel, hsecondEnd]
    refine ⟨.inl ⟨?_, Function.update_self ..⟩, fun fd hl hr => ?_⟩
    · rw [Function.update_of_ne hne, Function.update_of_ne hleft.symm, movedKernel,
        Function.update_self, grantedKernel, Function.update_of_ne hends,
        Function.update_self]
    · have hclosed : (linux26Close (linux26Close world left) right).kernel fd =
          world.kernel fd :=
        (Function.update_of_ne hr ..).trans (Function.update_of_ne hl ..)
      rw [Function.update_of_ne hr]
      by_cases hfd : fd = second
      · rw [hfd, Function.update_self, ← hfd, ← hclosed, hfd, hsecond]
      rw [Function.update_of_ne hfd, movedKernel, Function.update_of_ne hl]
      by_cases hfd' : fd = first
      · rw [hfd', Function.update_self, ← hfd', ← hclosed, hfd', hfirst]
      rw [Function.update_of_ne hfd', grantedKernel, Function.update_of_ne hfd,
        Function.update_of_ne hfd', Function.update_of_ne hr, Function.update_of_ne hl]

end Moves

end IbcsUs.Socksys
