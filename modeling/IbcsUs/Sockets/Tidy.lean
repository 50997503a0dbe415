import Mathlib.Data.PNat.Defs
import IbcsUs.Sockets.Socksys

/-!
# Worlds between two calls

What holds of the descriptors and their shadows whenever the program is running, and
that each call of the program keeps it.
-/

namespace IbcsUs.Socksys

open IbcsUs.Files IbcsUs.Paths

/-- What `inherit_socksys_funcs` leaves in `socksys_socket_fops`. -/
def socketOps : FileOperations := { fileOperations with release := .device 0 }

/-- Between two calls a closed descriptor has no shadow, nobody holds one, the table
of the sockets is empty or that of plain files, and the sockets of the emulation look
like character devices. -/
structure Tidy (world : World) : Prop where
  closed : ∀ fd, world.kernel fd = none → world.shadow fd = none
  settled : ∀ fd file, world.shadow fd = some file →
    file.fCount = 0 ∧ file.fIsopen = true
  table : world.socketFops = noFops ∨ world.socketFops = socketOps
  pointed : ∀ fd file, world.shadow fd = some file → file.fOp = .sockets →
    world.socketFops = socketOps
  marked : ∀ fd ∈ world.obtained, ∃ file, world.shadow fd = some file ∧
    file.iMode = sIfchr

/-- A descriptor is a socket of the emulation that is connected to the server at a
path. -/
def Connected (world : World) (fd : ℕ) (path : Text) : Prop :=
  world.kernel fd = some (.stream path) ∧
    ∃ file, world.shadow fd = some file ∧ file.fOp = .sockets

section Invariant

variable {world : World} {fd : ℕ}

theorem tidy_start (kernel : ℕ → Option Description) : Tidy (start kernel) where
  closed _ _ := rfl
  settled _ _ hfile := nomatch hfile
  table := .inl rfl
  pointed _ _ hfile := nomatch hfile
  marked _ hmem := nomatch hmem

/-- A file that is got is open and held once. -/
theorem Tidy.held (htidy : Tidy world) (hopen : world.kernel fd ≠ none) :
    (held world fd).fCount = 1 ∧ (held world fd).fIsopen = true := by
  rw [Socksys.held]
  cases hshadow : world.shadow fd with
  | none => exact ⟨rfl, Option.isSome_iff_ne_none.mpr hopen⟩
  | some file =>
    obtain ⟨hcount, hisopen⟩ := htidy.settled fd file hshadow
    exact ⟨by simp only [hcount, zero_add], hisopen⟩

theorem held_fOp :
    (Socksys.held world fd).fOp = (world.shadow fd).elim .plain Shadow.fOp := by
  rw [Socksys.held]
  cases world.shadow fd <;> rfl

/-- A descriptor with a shadow is open. -/
theorem Tidy.open_of_shadow (htidy : Tidy world) {file : Shadow}
    (hfile : world.shadow fd = some file) : world.kernel fd ≠ none := by
  intro hnone
  rw [htidy.closed fd hnone] at hfile
  cases hfile

/-- The file of a descriptor without a shadow is a plain one. -/
theorem held_plain (hnone : world.shadow fd = none) :
    (Socksys.held world fd).fOp = .plain := by
  rw [held_fOp, hnone]
  rfl

/-- A file with the operations of the sockets has them from its shadow. -/
theorem Tidy.held_pointed (htidy : Tidy world)
    (hsockets : (Socksys.held world fd).fOp = .sockets) :
    world.socketFops = socketOps := by
  cases hshadow : world.shadow fd with
  | none =>
    rw [held_plain hshadow] at hsockets
    cases hsockets
  | some file =>
    refine htidy.pointed fd file hshadow ?_
    rwa [Socksys.held, hshadow] at hsockets

/-- The file of a socket of the emulation looks like a character device. -/
theorem Tidy.held_marked (htidy : Tidy world) (hmem : fd ∈ world.obtained) :
    (Socksys.held world fd).iMode = sIfchr := by
  obtain ⟨file, hshadow, hmode⟩ := htidy.marked fd hmem
  rw [Socksys.held, hshadow]
  exact hmode

theorem withFile_shadow (change : Shadow → Shadow) :
    (withFile world fd change).shadow =
      Function.update world.shadow fd (released (change (held world fd))) := by
  simp only [withFile, fput, fget, Function.update_self, Option.map_some,
    Option.bind_some, Function.update_idem]

/-- An open file that is put by its last holder stays. -/
theorem released_open {file : Shadow} (hcount : file.fCount = 1)
    (hisopen : file.fIsopen = true) :
    released file = some { file with fCount := 0 } := by
  rw [released, fdestroy, hcount, hisopen]
  rfl

/-- A closed file that is put by its last holder goes. -/
theorem released_closed {file : Shadow} (hcount : file.fCount = 1)
    (hisopen : file.fIsopen = false) : released file = none := by
  rw [released, fdestroy, hcount, hisopen]
  rfl

section Change

variable {change : Shadow → Shadow}
  (hcount : ∀ file, (change file).fCount = file.fCount)
  (hisopen : ∀ file, (change file).fIsopen = file.fIsopen)

include hcount hisopen

/-- A file that is got, changed and put stays. -/
theorem Tidy.withFile_open (htidy : Tidy world) (hopen : world.kernel fd ≠ none) :
    (withFile world fd change).shadow =
      Function.update world.shadow fd
        (some { change (Socksys.held world fd) with fCount := 0 }) := by
  obtain ⟨hone, htrue⟩ := htidy.held hopen
  rw [withFile_shadow, released_open (by rw [hcount, hone]) (by rw [hisopen, htrue])]

theorem Tidy.withFile_self (htidy : Tidy world) (hopen : world.kernel fd ≠ none) :
    (withFile world fd change).shadow fd =
      some { change (Socksys.held world fd) with fCount := 0 } :=
  (congrFun (htidy.withFile_open hcount hisopen hopen) fd).trans
    (Function.update_self ..)

/-- A file of a closed descriptor goes when it is put. -/
theorem Tidy.withFile_closed (htidy : Tidy world)
    (hclosed : world.kernel fd = none) :
    (withFile world fd change).shadow = world.shadow := by
  have hnone := htidy.closed fd hclosed
  rw [withFile_shadow, released_closed]
  · exact Function.update_eq_self_iff.mpr hnone.symm
  · rw [hcount, Socksys.held, hnone]
  · rw [hisopen, Socksys.held, hnone, hclosed]
    rfl

/-- A change of a file that leaves it a socket only when the table of the sockets is
filled, and a character device when it is a socket of the emulation. -/
theorem Tidy.withFile (htidy : Tidy world)
    (hpointed : (change (Socksys.held world fd)).fOp = .sockets →
      world.socketFops = socketOps)
    (hmarked : fd ∈ world.obtained →
      (change (Socksys.held world fd)).iMode = sIfchr) :
    Tidy (Socksys.withFile world fd change) := by
  by_cases hopen : world.kernel fd = none
  · have hshadow := htidy.withFile_closed hcount hisopen hopen
    refine ⟨?_, ?_, htidy.table, ?_, ?_⟩ <;> rw [hshadow]
    · exact htidy.closed
    · exact htidy.settled
    · exact htidy.pointed
    · exact htidy.marked
  · have hshadow := htidy.withFile_open hcount hisopen hopen
    obtain ⟨-, htrue⟩ := htidy.held hopen
    rw [← hisopen] at htrue
    have hself := congrFun hshadow fd
    rw [Function.update_self] at hself
    have hother : ∀ other, other ≠ fd →
        (Socksys.withFile world fd change).shadow other = world.shadow other := by
      intro other hne
      rw [hshadow, Function.update_of_ne hne]
    refine ⟨fun other hnone => ?_, fun other found hfound => ?_, htidy.table,
      fun other found hfound hsockets => ?_, fun other hmem => ?_⟩ <;>
      obtain rfl | hne := eq_or_ne other fd
    · exact absurd hnone hopen
    · rw [hother other hne]
      exact htidy.closed other hnone
    · obtain rfl := Option.some.inj (hself.symm.trans hfound)
      exact ⟨rfl, htrue⟩
    · rw [hother other hne] at hfound
      exact htidy.settled other found hfound
    · obtain rfl := Option.some.inj (hself.symm.trans hfound)
      exact hpointed hsockets
    · rw [hother other hne] at hfound
      exact htidy.pointed other found hfound hsockets
    · exact ⟨_, hself, hmarked hmem⟩
    · rw [hother other hne]
      exact htidy.marked other hmem

end Change

/-- Looking at a file. -/
theorem Tidy.look (htidy : Tidy world) (fd : ℕ) :
    Tidy (Socksys.withFile world fd id) :=
  htidy.withFile (fun _ => rfl) (fun _ => rfl) htidy.held_pointed htidy.held_marked

/-- The kernel opens a descriptor, or puts another file behind an open one. -/
theorem Tidy.opened (htidy : Tidy world) {next : World}
    (hkernel : ∀ other, next.kernel other = none → world.kernel other = none)
    (hshadow : next.shadow = world.shadow) (htable : next.socketFops = world.socketFops)
    (hobtained : next.obtained ⊆ world.obtained) : Tidy next where
  closed other hnone := by
    rw [hshadow]
    exact htidy.closed other (hkernel other hnone)
  settled := by
    rw [hshadow]
    exact htidy.settled
  table := by
    rw [htable]
    exact htidy.table
  pointed := by
    rw [hshadow, htable]
    exact htidy.pointed
  marked other hmem := by
    rw [hshadow]
    exact htidy.marked other (hobtained hmem)

/-- Putting something behind a descriptor closes none. -/
theorem update_some_eq_none {kernel : ℕ → Option Description}
    {description : Description} {other : ℕ}
    (hnone : Function.update kernel fd (some description) other = none) :
    kernel other = none := by
  obtain rfl | hne := eq_or_ne other fd
  · rw [Function.update_self] at hnone
    cases hnone
  · rwa [Function.update_of_ne hne] at hnone

theorem Tidy.install (htidy : Tidy world) (fd : ℕ) (description : Description) :
    Tidy (install world fd description) :=
  htidy.opened (fun _ => update_some_eq_none) rfl rfl subset_rfl

/-- A closed descriptor is no socket of the emulation. -/
theorem Tidy.not_mem (htidy : Tidy world) (hclosed : world.kernel fd = none) :
    fd ∉ world.obtained := by
  intro hmem
  obtain ⟨file, hshadow, -⟩ := htidy.marked fd hmem
  exact htidy.open_of_shadow hshadow hclosed

theorem Tidy.openChrdev (htidy : Tidy world) (hclosed : world.kernel fd = none)
    (minor : ℕ) : Tidy (openChrdev world fd minor) := by
  have hnext := htidy.install fd (.file 0o040755 0)
  exact hnext.withFile (fun _ => rfl) (fun _ => rfl) (nomatch ·)
    fun hmem => absurd hmem (htidy.not_mem hclosed)

/-- The shadow of a descriptor that is closed goes. -/
theorem Tidy.linux26Close_shadow (htidy : Tidy world) (fd : ℕ) :
    (linux26Close world fd).shadow = Function.update world.shadow fd none := by
  refine congrArg (Function.update world.shadow fd) ?_
  cases hshadow : world.shadow fd with
  | none => rfl
  | some file =>
    obtain ⟨hcount, -⟩ := htidy.settled fd file hshadow
    exact if_pos ⟨hcount, rfl⟩

theorem Tidy.linux26Close (htidy : Tidy world) (fd : ℕ) :
    Tidy (linux26Close world fd) := by
  have hshadow := htidy.linux26Close_shadow fd
  have hfound : ∀ other file, (Socksys.linux26Close world fd).shadow other = some file →
      world.shadow other = some file := by
    intro other file hother
    rw [hshadow] at hother
    obtain rfl | hne := eq_or_ne other fd
    · rw [Function.update_self] at hother
      cases hother
    · rwa [Function.update_of_ne hne] at hother
  refine ⟨fun other hnone => ?_, fun other file hother => ?_, htidy.table,
    fun other file hother => ?_, fun other hmem => ?_⟩
  · rw [hshadow]
    obtain rfl | hne := eq_or_ne other fd
    · exact Function.update_self ..
    · rw [Function.update_of_ne hne]
      refine htidy.closed other ?_
      exact (Function.update_of_ne hne ..).symm.trans hnone
  · exact htidy.settled other file (hfound other file hother)
  · exact htidy.pointed other file (hfound other file hother)
  · obtain ⟨hne, hmem⟩ := Finset.mem_erase.mp hmem
    rw [hshadow, Function.update_of_ne hne]
    exact htidy.marked other hmem

/-- `linux26_dup` of a descriptor without a shadow leaves all of them. -/
theorem linux26Dup_shadow (fd2 : ℕ) (hnone : world.shadow fd = none) :
    (linux26Dup world fd fd2).shadow = world.shadow := by
  rw [linux26Dup]
  split
  · rfl
  · simp only [hnone]

/-- The kernel's part of `linux26_dup`. -/
theorem Tidy.dupped (htidy : Tidy world) (fd2 : ℕ) (hopen : world.kernel fd ≠ none) :
    Tidy
      { world with
        kernel := Function.update world.kernel fd2 (world.kernel fd)
        obtained :=
          if fd = fd2 then world.obtained else world.obtained.erase fd2 } := by
  obtain ⟨description, hdescription⟩ := Option.ne_none_iff_exists'.mp hopen
  refine htidy.opened (fun other => ?_) rfl rfl ?_
  · rw [hdescription]
    exact update_some_eq_none
  · split
    · exact subset_rfl
    · exact Finset.erase_subset ..

theorem Tidy.linux26Dup (htidy : Tidy world) (fd2 : ℕ) :
    Tidy (linux26Dup world fd fd2) := by
  rw [Socksys.linux26Dup]
  split
  · exact htidy
  next hopen =>
    have hnext := htidy.dupped fd2 hopen
    cases hold : world.shadow fd with
    | none =>
      simp only [hold]
      exact hnext
    | some old =>
      simp only [hold]
      refine hnext.withFile (fun _ => rfl) (fun _ => rfl) (htidy.pointed fd old hold)
        fun hmem => ?_
      split at hmem
      next heq =>
        obtain ⟨file, hfile, hmode⟩ := htidy.marked fd2 hmem
        rw [← heq, hold] at hfile
        obtain rfl := Option.some.inj hfile
        exact hmode
      next => exact absurd rfl (Finset.mem_erase.mp hmem).1

/-- `linux26_dup` hands the operations of the file on. -/
theorem Tidy.linux26Dup_copies (htidy : Tidy world) (fd2 : ℕ)
    (hopen : world.kernel fd ≠ none) {old : Shadow} (hold : world.shadow fd = some old) :
    (Socksys.linux26Dup world fd fd2).kernel fd2 = world.kernel fd ∧
      ∃ file, (Socksys.linux26Dup world fd fd2).shadow fd2 = some file ∧
        file.fOp = old.fOp := by
  have hnext := htidy.dupped fd2 hopen
  rw [Socksys.linux26Dup, if_neg hopen]
  simp only [hold]
  refine ⟨Function.update_self .., ?_⟩
  have hopen' : Function.update world.kernel fd2 (world.kernel fd) fd2 ≠ none := by
    rwa [Function.update_self]
  refine ⟨_, hnext.withFile_self ?_ ?_ hopen', rfl⟩ <;> exact fun _ => rfl

/-- `inherit_socksys_funcs` on a file that is none of the emulation's devices fills
the table of the sockets. -/
theorem Tidy.inheritSocksysFuncs_eq (htidy : Tidy world)
    (hown : (Socksys.held world fd).fOp ≠ .own) :
    inheritSocksysFuncs world fd =
      Socksys.withFile { world with socketFops := socketOps } fd fun file =>
        { file with fOp := .sockets, iMode := sIfchr, iRdev := mkdev 0 } := by
  rw [inheritSocksysFuncs, World.ops]
  cases hpointer : (Socksys.held world fd).fOp with
  | plain =>
    obtain hempty | hfilled := htidy.table
    · have hread : noFops.read ≠ fileOperations.read := by decide
      rw [← hempty] at hread
      exact if_pos hread
    · rw [if_neg (by rw [hfilled]; exact (· rfl)), ← hfilled]
  | own => exact absurd hpointer hown
  | sockets =>
    rw [if_neg (· rfl), ← htidy.held_pointed hpointer]

/-- A world whose table of the sockets has been filled. -/
theorem Tidy.filled (htidy : Tidy world) :
    Tidy { world with socketFops := socketOps } :=
  ⟨htidy.closed, htidy.settled, .inr rfl, fun _ _ _ _ => rfl, htidy.marked⟩

theorem Tidy.inheritSocksysFuncs (htidy : Tidy world)
    (hown : (Socksys.held world fd).fOp ≠ .own) :
    Tidy (inheritSocksysFuncs world fd) := by
  rw [htidy.inheritSocksysFuncs_eq hown]
  exact htidy.filled.withFile (fun _ => rfl) (fun _ => rfl) (fun _ => rfl) fun _ => rfl

/-- What `inherit_socksys_funcs` leaves in the shadow of an open descriptor. -/
theorem Tidy.inheritSocksysFuncs_shadow (htidy : Tidy world)
    (hown : (Socksys.held world fd).fOp ≠ .own) (hopen : world.kernel fd ≠ none) :
    (Socksys.inheritSocksysFuncs world fd).shadow =
      Function.update world.shadow fd
        (some
          { Socksys.held world fd with
            fCount := 0
            fOp := .sockets
            iMode := sIfchr
            iRdev := mkdev 0 }) := by
  rw [htidy.inheritSocksysFuncs_eq hown]
  exact htidy.filled.withFile_open (fun _ => rfl) (fun _ => rfl) hopen

theorem not_own_of_shadow_eq_none (hnone : world.shadow fd = none) :
    (Socksys.held world fd).fOp ≠ .own := by
  rw [held_plain hnone]
  exact (nomatch ·)

/-- A closed descriptor inherits nothing. -/
theorem Tidy.inheritSocksysFuncs_closed (htidy : Tidy world)
    (hown : (Socksys.held world fd).fOp ≠ .own) (hclosed : world.kernel fd = none) :
    (Socksys.inheritSocksysFuncs world fd).shadow = world.shadow := by
  rw [htidy.inheritSocksysFuncs_eq hown]
  exact htidy.filled.withFile_closed (fun _ => rfl) (fun _ => rfl) hclosed

/-- No file becomes one of the devices when another inherits the operations of the
sockets. -/
theorem Tidy.inheritSocksysFuncs_not_own (htidy : Tidy world)
    (hown : (Socksys.held world fd).fOp ≠ .own) {other : ℕ}
    (hother : (Socksys.held world other).fOp ≠ .own) :
    (Socksys.held (Socksys.inheritSocksysFuncs world fd) other).fOp ≠ .own := by
  rw [held_fOp] at hother ⊢
  by_cases hopen : world.kernel fd = none
  · rw [htidy.inheritSocksysFuncs_closed hown hopen]
    exact hother
  · rw [htidy.inheritSocksysFuncs_shadow hown hopen]
    obtain rfl | hne := eq_or_ne other fd
    · rw [Function.update_self]
      exact (nomatch ·)
    · rwa [Function.update_of_ne hne]

theorem install_open (description : Description) :
    (Socksys.install world fd description).kernel fd ≠ none := by
  intro hnone
  cases (Function.update_self ..).symm.trans hnone

theorem Tidy.socksysSocket (htidy : Tidy world) (hclosed : world.kernel fd = none)
    (id : ℕ) : Tidy (socksysSocket world fd id) := by
  have hnext : Tidy (Socksys.install world fd (.socket id)) := htidy.install fd _
  have hown : (Socksys.held (Socksys.install world fd (.socket id)) fd).fOp ≠ .own :=
    not_own_of_shadow_eq_none (htidy.closed fd hclosed)
  have hinherit := hnext.inheritSocksysFuncs hown
  have hshadow := congrFun (hnext.inheritSocksysFuncs_shadow hown (install_open _)) fd
  rw [Function.update_self] at hshadow
  refine ⟨hinherit.closed, hinherit.settled, hinherit.table, hinherit.pointed,
    fun other hmem => ?_⟩
  obtain rfl | hmem := Finset.mem_insert.mp hmem
  · exact ⟨_, hshadow, rfl⟩
  · exact hinherit.marked other hmem

/-! ### The pair -/

/-- A descriptor without a shadow moves to another number, if that is another. -/
theorem Tidy.moved (htidy : Tidy world) (fd fd2 : ℕ) (hnone : world.shadow fd = none) :
    Tidy (if fd ≠ fd2 then
        Socksys.linux26Close (Socksys.linux26Dup world fd fd2) fd else world) ∧
      (if fd ≠ fd2 then
        Socksys.linux26Close (Socksys.linux26Dup world fd fd2) fd
        else world).shadow = world.shadow := by
  split
  · refine ⟨(htidy.linux26Dup fd2).linux26Close fd, ?_⟩
    rw [(htidy.linux26Dup fd2).linux26Close_shadow, linux26Dup_shadow fd2 hnone]
    exact Function.update_eq_self_iff.mpr hnone.symm
  · exact ⟨htidy, rfl⟩

/-- `socksys_socketpair` past its test. -/
theorem Tidy.replaceByPair (htidy : Tidy world) {left right : ℕ} {answer : PairAnswer}
    (hfits : answer.Fits world left right) :
    Tidy (replaceByPair world left right answer).2 := by
  have hleft := htidy.linux26Close left
  have hclosed := hleft.linux26Close right
  cases answer with
  | refused errno => exact hclosed
  | granted pair first second =>
    obtain ⟨-, hfirst, hsecond⟩ := hfits
    have hopened := (hclosed.install first (.pairEnd pair false)).install second
      (.pairEnd pair true)
    have hone := hopened.moved first left (hclosed.closed first hfirst)
    have htwo := hone.1.moved second right
      ((congrFun hone.2 second).trans (hclosed.closed second hsecond))
    have hshadow := (htwo.2.trans hone.2).trans (hleft.linux26Close_shadow right)
    have hnone : ∀ fd, fd = left ∨ fd = right →
        Function.update (Socksys.linux26Close world left).shadow right none fd =
          none := by
      intro fd hfd
      obtain rfl | hne := eq_or_ne fd right
      · exact Function.update_self ..
      · obtain rfl : fd = left := hfd.resolve_right hne
        rw [Function.update_of_ne hne, htidy.linux26Close_shadow]
        exact Function.update_self ..
    have hownLeft := not_own_of_shadow_eq_none
      ((congrFun hshadow left).trans (hnone left (.inl rfl)))
    have hownRight := not_own_of_shadow_eq_none
      ((congrFun hshadow right).trans (hnone right (.inr rfl)))
    exact (htwo.1.inheritSocksysFuncs hownLeft).inheritSocksysFuncs
      (htwo.1.inheritSocksysFuncs_not_own hownLeft hownRight)

theorem Tidy.socksysSocketpair (htidy : Tidy world) {left right : ℕ}
    {answer : PairAnswer} (hfits : answer.Fits world left right) :
    Tidy (socksysSocketpair world left right answer).2 := by
  rw [Socksys.socksysSocketpair]
  split
  · refine (htidy.look left).replaceByPair ?_
    cases answer with
    | refused errno => trivial
    | granted pair first second => exact hfits
  · exact htidy.look left

/-! ### The device -/

theorem Tidy.spxConnect (htidy : Tidy world) (around : Surroundings) :
    Tidy (spxConnect around world).2 := by
  rw [Socksys.spxConnect]
  split
  · exact htidy
  split
  · exact htidy
  split
  · exact htidy.install _ _
  · exact (htidy.install _ _).linux26Close _

/-- The socket that `spx_connect` returns has no shadow yet. -/
theorem spxConnect_ok {around : Surroundings} {sockfd : ℕ}
    (hok : (spxConnect around world).1 = .ok sockfd) :
    world.kernel sockfd = none ∧ ∃ path, sunPath around = .ok path ∧
      (spxConnect around world).2 = install world sockfd (.stream path) := by
  rw [spxConnect] at hok ⊢
  split at hok
  · cases hok
  next path hpath =>
    split at hok
    · cases hok
    next newfd hpick =>
      split at hok
      next hserved =>
        obtain rfl := Except.ok.inj hok
        refine ⟨around.pick_free world _ hpick, path, hpath, ?_⟩
        simp only [hserved, if_true]
      next => cases hok

theorem spxConnect_error {around : Surroundings} {error : ℤ}
    (herror : (spxConnect around world).1 = .error error) : error < 0 := by
  rw [spxConnect] at herror
  split at herror
  next refusal hpath =>
    obtain rfl := Except.error.inj herror
    rw [sunPath] at hpath
    split at hpath
    · cases hpath
    split at hpath
    · cases hpath
    next errno _ _ =>
      obtain rfl := Except.error.inj hpath
      exact neg_neg_of_pos (Int.natCast_pos.mpr errno.pos)
  split at herror
  · obtain rfl := Except.error.inj herror
    decide
  split at herror
  · cases herror
  · obtain rfl := Except.error.inj herror
    decide

/-- A socket without a shadow takes the place of an open descriptor. -/
theorem Tidy.swapped (htidy : Tidy world) {sockfd : ℕ} {path : Text}
    (hsocket : world.kernel sockfd = some (.stream path))
    (hnone : world.shadow sockfd = none) (hne : fd ≠ sockfd) :
    let next := Socksys.inheritSocksysFuncs world sockfd
    let last := Socksys.linux26Close (Socksys.linux26Dup next sockfd fd) sockfd
    Tidy last ∧ Connected last fd path := by
  intro next last
  have hown := not_own_of_shadow_eq_none hnone
  have hopen : world.kernel sockfd ≠ none := by
    rw [hsocket]
    exact Option.some_ne_none _
  have hnext : Tidy next := htidy.inheritSocksysFuncs hown
  have hkernel : next.kernel = world.kernel := by
    simp only [next, htidy.inheritSocksysFuncs_eq hown]
    rfl
  have hshadow := congrFun (htidy.inheritSocksysFuncs_shadow hown hopen) sockfd
  rw [Function.update_self] at hshadow
  obtain ⟨hput, file, hfile, hsockets⟩ := hnext.linux26Dup_copies fd
    (by rwa [hkernel]) hshadow
  have hdupped : Tidy (Socksys.linux26Dup next sockfd fd) := hnext.linux26Dup fd
  refine ⟨hdupped.linux26Close sockfd, ?_, file, ?_, hsockets⟩
  · rw [hkernel, hsocket] at hput
    exact (Function.update_of_ne hne ..).trans hput
  · rw [hdupped.linux26Close_shadow, Function.update_of_ne hne]
    exact hfile

/-- `socksys_fdinit` on an open descriptor fails, or leaves a socket of the emulation
there. -/
theorem Tidy.socksysFdinit (htidy : Tidy world) (hopen : world.kernel fd ≠ none)
    (around : Surroundings) :
    Tidy (socksysFdinit around world fd).2 ∧
      ((socksysFdinit around world fd).1 < 0 ∨
        (socksysFdinit around world fd).1 = 1 ∧
          ∃ path, sunPath around = .ok path ∧
            Connected (socksysFdinit around world fd).2 fd path) := by
  rw [Socksys.socksysFdinit]
  split
  · exact ⟨htidy.look fd, .inl (neg_neg_of_pos (by decide))⟩
  have hconnect := (htidy.look fd).spxConnect around
  simp only
  split
  next error next heq =>
    rw [heq] at hconnect
    exact ⟨hconnect, .inl (spxConnect_error (congrArg Prod.fst heq))⟩
  next sockfd next heq =>
    rw [heq] at hconnect
    obtain ⟨hfree, path, hpath, hnext⟩ := spxConnect_ok (congrArg Prod.fst heq)
    replace hnext : next =
        Socksys.install (Socksys.withFile world fd id) sockfd (.stream path) :=
      (congrArg Prod.snd heq).symm.trans hnext
    have hne : fd ≠ sockfd := fun hfd => hopen (hfd ▸ hfree)
    have hsocket : next.kernel sockfd = some (.stream path) := by
      rw [hnext]
      exact Function.update_self ..
    have hnone : next.shadow sockfd = none := by
      rw [hnext]
      exact (htidy.look fd).closed sockfd hfree
    obtain ⟨htidy', hconnected⟩ := hconnect.swapped hsocket hnone hne
    exact ⟨htidy', .inr ⟨rfl, path, hpath, hconnected⟩⟩

/-! ### Writing -/

theorem Tidy.kernelWrite (htidy : Tidy world) (bytes : List Byte) :
    Tidy (kernelWrite world fd bytes).2 := by
  rw [Socksys.kernelWrite]
  split
  · exact htidy
  · exact htidy
  · exact htidy.opened (fun _ => id) rfl rfl subset_rfl
  · exact htidy

/-- A file that nobody holds can be put and got again. -/
theorem Tidy.held_fput (htidy : Tidy world) {file : Shadow}
    (hfile : world.shadow fd = some file) :
    Socksys.held (fput world fd) fd = file := by
  obtain ⟨hcount, hisopen⟩ := htidy.settled fd file hfile
  have hput : (fput world fd).shadow fd =
      some { file with fCount := file.fCount - 1 } := by
    refine (Function.update_self ..).trans ?_
    rw [hfile, Option.bind_some, released, fdestroy,
      if_neg (by rw [hisopen]; exact fun h => nomatch h.2)]
  rw [Socksys.held, hput]
  simp only [sub_add_cancel]

theorem Tidy.fget_fput (htidy : Tidy world) {file : Shadow}
    (hfile : world.shadow fd = some file) : fget (fput world fd) fd = world := by
  rw [fget, htidy.held_fput hfile, fput]
  simp only [Function.update_idem, ← hfile, Function.update_eq_self]

/-- `socksys_write` on an open descriptor never gets to the socket, though it may leave
one there. -/
theorem Tidy.socksysWrite (htidy : Tidy world) (hopen : world.kernel fd ≠ none)
    (around : Surroundings) (bytes : List Byte) :
    Tidy (socksysWrite around world fd bytes).2 ∧
      (bytes.length ≠ 1 →
        ∃ error < 0, (Socksys.socksysWrite around world fd bytes).1 = some error ∧
          (0 < (Socksys.socksysFdinit around world fd).1 →
            error = -espipe ∧ ∃ path, sunPath around = .ok path ∧
              Connected (Socksys.socksysWrite around world fd bytes).2 fd path)) := by
  obtain ⟨hinit, hresult⟩ := htidy.socksysFdinit hopen around
  rw [Socksys.socksysWrite]
  generalize Socksys.socksysFdinit around world fd = outcome at hinit hresult ⊢
  obtain ⟨error, next⟩ := outcome
  simp only at hinit hresult ⊢
  split
  next hnegative =>
    exact ⟨hinit, fun _ => ⟨error, hnegative, rfl, fun hpos => by omega⟩⟩
  next hnonneg =>
    obtain ⟨-, path, hpath, hconnected⟩ := hresult.resolve_left hnonneg
    obtain ⟨hkernel, file, hfile, hsockets⟩ := hconnected
    have htable := hinit.pointed fd file hfile hsockets
    have hwrite : (next.ops (Socksys.held (fput next fd) fd)).write = .plain := by
      rw [hinit.held_fput hfile, World.ops, hsockets, htable]
      rfl
    have hops : (fput next fd).ops (Socksys.held (fput next fd) fd) =
        next.ops (Socksys.held (fput next fd) fd) := rfl
    rw [hinit.fget_fput hfile, hops, hwrite]
    split
    next hone => exact ⟨hinit, fun hlength => absurd hone hlength⟩
    next =>
      have hrefused : Socksys.fileOperationsWrite next fd bytes = (-espipe, next) := by
        simp only [Socksys.fileOperationsWrite, hkernel]
        rfl
      rw [if_pos rfl, hrefused]
      exact ⟨hinit, fun _ => ⟨-espipe, by decide, rfl, fun _ =>
        ⟨rfl, path, hpath, hkernel, file, hfile, hsockets⟩⟩⟩

theorem Tidy.linux26Write (htidy : Tidy world) (around : Surroundings) (fd : ℕ)
    (bytes : List Byte) : Tidy (linux26Write around world fd bytes).2 := by
  rw [Socksys.linux26Write]
  split
  next hdevice =>
    obtain ⟨file, hfile, -⟩ := Option.map_eq_some_iff.mp hdevice
    exact (htidy.socksysWrite (htidy.open_of_shadow hfile) around bytes).1
  next => exact htidy.kernelWrite bytes

/-! ### Runs -/

/-- Each call leaves a tidy world. -/
theorem Tidy.step (htidy : Tidy world) (call : Call) : Tidy (step world call) := by
  cases call with
  | socket fd id =>
    rw [Socksys.step]
    split
    next hclosed => exact htidy.socksysSocket hclosed id
    next => exact htidy
  | openFile fd mode rdev =>
    rw [Socksys.step]
    split
    · exact htidy.install _ _
    · exact htidy
  | openDevice fd minor =>
    rw [Socksys.step]
    split
    next hclosed => exact htidy.openChrdev hclosed minor
    next => exact htidy
  | close fd => exact htidy.linux26Close fd
  | dup fd fd2 => exact htidy.linux26Dup fd2
  | look fd => exact htidy.look fd
  | socketpair left right answer =>
    rw [Socksys.step]
    split
    next hfits => exact htidy.socksysSocketpair hfits
    next => exact htidy
  | write around fd bytes => exact htidy.linux26Write around fd bytes

/-- The world after calls is tidy. -/
theorem tidy_after (kernel : ℕ → Option Description) (calls : List Call) :
    Tidy (after kernel calls) := by
  rw [after]
  generalize hworld : start kernel = world
  have htidy : Tidy world := hworld ▸ tidy_start kernel
  clear hworld
  induction calls generalizing world with
  | nil => exact htidy
  | cons call calls ih => exact ih _ (htidy.step call)

end Invariant

end IbcsUs.Socksys
