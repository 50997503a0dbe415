import IbcsUs.Core.Runs
import IbcsUs.Files.TableInvariant

/-!
# Safety of the file table over whole runs

A run of requests keeps the file table safe exactly when each of them meets the
condition under which it keeps the table in order: a slip always leaves its mark
on the record of the accesses.
-/

namespace IbcsUs.Files

open IbcsUs.Memory IbcsUs.Runs

/-- The requests, with the kernel's answers and the contents of new memory. -/
inductive FileRequest where
  | openFile (path : String) (mode flags devAnswer answer : ℕ)
      (memory : ℕ → ℕ) (fstat : Option FileInode)
  | close (fd : ℕ)
  | dup (fd answer : ℕ) (memory : ℕ → ℕ) (fstat : Option FileInode)
  | read (fd : ℕ)
  | write (fd : ℕ)
  | fstat (fd : ℕ) (answer : Option FileInode)
  | fget (fd : ℕ) (memory : ℕ → ℕ) (fstat : Option FileInode)
  | fput (pointer : ℕ)

/-- The state after a request; `none` for a process that has crashed and for an
`fput` of a file that nobody holds. -/
def fileStep (chrdevList : List Chrdev) (state : FileState)
    (request : FileRequest) : Option FileState :=
  if state.crashed then none
  else
    match request with
    | .openFile path mode flags devAnswer answer memory fstat =>
        some (linux26Open chrdevList state path mode flags devAnswer answer memory
          fstat).1
    | .close fd => some (linux26Close state fd)
    | .dup fd answer memory fstat => some (linux26Dup state fd answer memory fstat).1
    | .read fd => some (linux26Read state fd).1
    | .write fd => some (linux26Write state fd).1
    | .fstat fd answer => some (linux26Fstat state fd answer).1
    | .fget fd memory fstat => some (fget state fd memory fstat).1
    | .fput pointer =>
        match state.files pointer with
        | none => none
        | some file => if file.fCount = 0 then none else some (fput state pointer)

/-- The requests the file table gets right, in a process that has not
crashed. -/
def RequestMeets (chrdevList : List Chrdev) (state : FileState)
    (request : FileRequest) : Prop :=
  state.crashed = false →
    match request with
    | .openFile path mode flags devAnswer _ memory _ =>
        (findChrdev chrdevList path mode flags).isSome → isErr devAnswer = false →
          FgetMeets state devAnswer memory
    | .close _ => True
    | .dup fd answer memory _ =>
        isErr answer = false → LookupMeets state fd ∧
          (fd < state.table.maxFds → negative fd = false →
            state.table.slots fd ≠ 0 → FgetMeets state answer memory)
    | .read fd => LookupMeets state fd
    | .write fd => LookupMeets state fd
    | .fstat fd answer => answer.isSome → LookupMeets state fd
    | .fget fd memory _ => FgetMeets state fd memory
    | .fput _ => True

/-! ## Breaking the table -/

section Break

variable {state : FileState} {fd : ℕ} {memory : ℕ → ℕ}

theorem record_fdestroy (state : FileState) (pointer : ℕ) (file : File) :
    state.record ⊆ (fdestroy state pointer file).record := by
  simp only [Files.fdestroy]
  split
  · exact List.subset_cons_self _ _
  · exact List.Subset.refl _

theorem record_fput (state : FileState) (pointer : ℕ) :
    state.record ⊆ (fput state pointer).record := by
  simp only [Files.fput]
  split
  · exact List.Subset.refl _
  · next file _ =>
    exact record_fdestroy (state.setFile pointer
      { file with fCount := file.fCount - 1 }) pointer _

theorem record_findFile (state : FileState) (fd : ℕ)
    (fstat : Option FileInode) :
    .access fd state.table.maxFds ∈ (findFile state fd fstat).1.record ∧
      state.record ⊆ (findFile state fd fstat).1.record := by
  by_cases hnull : state.table.slots fd = 0
  · rw [findFile_of_null hnull]
    refine ⟨List.mem_cons_self, fun event hevent => ?_⟩
    exact List.mem_cons_of_mem _ (List.mem_cons_of_mem _ hevent)
  · rw [findFile_of_ne hnull]
    exact ⟨List.mem_cons_self, List.subset_cons_self _ _⟩

theorem record_fget (state : FileState) (fd : ℕ) (memory : ℕ → ℕ)
    (fstat : Option FileInode) :
    (findFile (ensureSlot state fd memory) fd fstat).1.record ⊆
      (fget state fd memory fstat).1.record := by
  simp only [Files.fget]
  split <;> exact List.Subset.refl _

/-- A size that wraps is too small for the descriptor it was computed for. -/
theorem fdSize_le (hlarge : 2 ^ 29 ≤ fd + 1) : fdSize fd / 4 ≤ fd := by
  simp only [fdSize]
  omega

/-- `fget` on a descriptor it does not get right leaves its mark. -/
theorem fget_breaks (hmeets : ¬ FgetMeets state fd memory)
    (hunused : state.table.fdNull → state.table.maxFds = 0)
    (fstat : Option FileInode) :
    ∃ event ∈ (fget state fd memory fstat).1.record, ¬ event.Ok := by
  simp only [FgetMeets, Classical.not_imp, not_and_or, not_lt] at hmeets
  obtain ⟨hgrow, hslip⟩ := hmeets
  by_cases hlarge : 2 ^ 29 ≤ fd + 1
  -- the slot of the descriptor is outside the new array
  · have hmax : (ensureSlot state fd memory).table.maxFds = fdSize fd / 4 := by
      simp [Files.ensureSlot, hgrow, growTable]
    refine ⟨_, record_fget _ _ _ _ (record_findFile _ _ _).1, ?_⟩
    simp only [TableEvent.Ok, hmax, not_lt]
    exact fdSize_le hlarge
  -- the first array holds something
  · obtain ⟨hnull, hdirty⟩ := hslip.resolve_left hlarge
    obtain ⟨index, hindex, hword⟩ := by simpa using hdirty
    have hempty := hunused hnull
    have hevent : .grow state.table (growTable state.table fd memory) ∈
        (ensureSlot state fd memory).record := by
      simp [Files.ensureSlot, hgrow, FileState.note]
    refine ⟨_, record_fget _ _ _ _ ((record_findFile _ _ _).2 hevent), ?_⟩
    intro hok
    have hinside : index < (growTable state.table fd memory).maxFds := by
      simp only [growTable, fdSize]
      omega
    have hzero := (hok index).2 (by rw [hempty]; exact Nat.zero_le _) hinside
    simp [growTable, hempty, hnull] at hzero
    exact hword hzero

/-- So does a look up of the slot behind the array. -/
theorem lookup_breaks (hmeets : ¬ LookupMeets state fd) :
    ∃ event ∈ (lookup state fd).1.record, ¬ event.Ok := by
  simp only [LookupMeets, Classical.not_imp, not_not] at hmeets
  obtain ⟨hnonneg, hbehind⟩ := hmeets
  refine ⟨.access fd state.table.maxFds, ?_, ?_⟩
  · rw [Files.lookup, if_neg (by simp [hnonneg, hbehind.le])]
    exact List.mem_cons_self
  · simp [TableEvent.Ok, hbehind]

theorem record_transfer (operation : FileOperations → Op) (state : FileState)
    (fd : ℕ) : (lookup state fd).1.record ⊆
      (linux26Transfer operation state fd).1.record := by
  simp only [linux26Transfer]
  split
  · exact List.Subset.refl _
  · split <;> exact List.Subset.refl _

theorem record_fstat (state : FileState) (fd : ℕ) (stat : FileInode) :
    (lookup state fd).1.record ⊆
      (linux26Fstat state fd (some stat)).1.record := by
  simp only [linux26Fstat]
  split
  · exact List.Subset.refl _
  · split <;> exact List.Subset.refl _

theorem record_openChrdev (state : FileState) (chrdev : Chrdev)
    {rdev answer : ℕ} (memory : ℕ → ℕ) (fstat : Option FileInode)
    (hanswer : isErr answer = false) :
    (fget state answer memory fstat).1.record ⊆
      (openChrdev state chrdev rdev answer memory fstat).1.record := by
  simp only [Files.openChrdev, hanswer, Bool.false_eq_true, if_false]
  split
  · next hfget =>
    rw [hfget]
    exact List.Subset.refl _
  · next after pointer hfget =>
    rw [hfget]
    split
    · exact List.Subset.refl _
    · next file _ =>
      exact record_fput (after.setFile pointer (chrdevFile file chrdev rdev)) _

/-- A duplication looks the old descriptor up and, if it has a file, gets that
of the new one. -/
theorem record_dup (state : FileState) (fd : ℕ) {answer : ℕ} (memory : ℕ → ℕ)
    (fstat : Option FileInode) (hanswer : isErr answer = false) :
    (if (lookup state fd).2 = 0 then (lookup state fd).1
      else (fget (lookup state fd).1 answer memory fstat).1).record ⊆
      (linux26Dup state fd answer memory fstat).1.record := by
  simp only [linux26Dup, hanswer, Bool.false_eq_true, if_false]
  split
  · exact List.Subset.refl _
  split
  · next hfget =>
    rw [hfget]
    exact List.Subset.refl _
  · next after pointer hfget =>
    rw [hfget]
    split
    · exact record_fput (after.setFile pointer _) _
    · exact List.Subset.refl _

/-- Whatever a request adds to the record stays there. -/
theorem record_fget_subset (state : FileState) (fd : ℕ) (memory : ℕ → ℕ)
    (fstat : Option FileInode) :
    state.record ⊆ (fget state fd memory fstat).1.record := by
  refine List.Subset.trans ?_ (record_fget state fd memory fstat)
  refine List.Subset.trans ?_ (record_findFile _ _ _).2
  simp only [Files.ensureSlot]
  split
  · exact List.subset_cons_self _ _
  · exact List.Subset.refl _

/-- A request outside its condition leaves its mark. -/
theorem fileStep_breaks (chrdevList : List Chrdev) (request : FileRequest)
    (hinv : TableInv state)
    (hmeets : ¬ RequestMeets chrdevList state request) :
    ∃ next, fileStep chrdevList state request = some next ∧ ¬ TableSafe next := by
  have hunsafe : ∀ {next : FileState} {record : List TableEvent},
      (∃ event ∈ record, ¬ event.Ok) → record ⊆ next.record →
      ¬ TableSafe next := by
    intro next record hevent hrecord hsafe
    obtain ⟨event, hmem, hbad⟩ := hevent
    exact hbad (hsafe.events event (hrecord hmem))
  simp only [RequestMeets, hinv.alive, forall_const] at hmeets
  simp only [fileStep, hinv.alive, Bool.false_eq_true, if_false]
  cases request with
  | openFile path mode flags devAnswer answer memory fstat =>
      simp only [Classical.not_imp] at hmeets
      obtain ⟨hsome, hanswer, hget⟩ := hmeets
      obtain ⟨⟨chrdev, rdev⟩, hfind⟩ := Option.isSome_iff_exists.mp hsome
      refine ⟨_, rfl, hunsafe (fget_breaks hget hinv.unused fstat) ?_⟩
      simp only [linux26Open, hfind]
      exact record_openChrdev state chrdev memory fstat hanswer
  | close fd => exact absurd trivial hmeets
  | dup fd answer memory fstat =>
      simp only [Classical.not_imp, not_and_or] at hmeets
      obtain ⟨hanswer, hlook | ⟨hfd, hnonneg, hslot, hget⟩⟩ := hmeets
      · refine ⟨_, rfl, hunsafe (lookup_breaks hlook) ?_⟩
        refine List.Subset.trans ?_ (record_dup state fd memory fstat hanswer)
        split
        · exact List.Subset.refl _
        · exact record_fget_subset _ _ _ _
      · have hlookup : lookup state fd =
            (state.note (.access fd state.table.maxFds), state.table.slots fd) :=
          if_neg (by simp [hnonneg, hfd.le])
        have hrecord := record_dup state fd memory fstat hanswer
        rw [hlookup, if_neg hslot] at hrecord
        have hget' : ¬ FgetMeets (state.note
            (.access fd state.table.maxFds)) answer memory := hget
        exact ⟨_, rfl, hunsafe (fget_breaks hget' hinv.unused fstat) hrecord⟩
  | read fd =>
      exact ⟨_, rfl, hunsafe (lookup_breaks hmeets) (record_transfer _ _ _)⟩
  | write fd =>
      exact ⟨_, rfl, hunsafe (lookup_breaks hmeets) (record_transfer _ _ _)⟩
  | fstat fd answer =>
      simp only [Classical.not_imp] at hmeets
      obtain ⟨stat, rfl⟩ := Option.isSome_iff_exists.mp hmeets.1
      exact ⟨_, rfl, hunsafe (lookup_breaks hmeets.2) (record_fstat _ _ _)⟩
  | fget fd memory fstat =>
      exact ⟨_, rfl, hunsafe (fget_breaks hmeets hinv.unused fstat)
        (List.Subset.refl _)⟩
  | fput pointer => exact absurd trivial hmeets

end Break

/-! ## Whole runs -/

/-- The table is in order, or was when the process crashed. -/
def TableReady (state : FileState) : Prop :=
  TableInv state ∨ state.crashed = true ∧ TableSafe state

theorem TableReady.safe {state : FileState} (hready : TableReady state) :
    TableSafe state := by
  rcases hready with hinv | ⟨-, hsafe⟩
  · exact hinv.toTableSafe
  · exact hsafe

/-- A duplication that meets its condition keeps the table in order. -/
theorem TableInv.dup {state : FileState} (hinv : TableInv state)
    {fd answer : ℕ} {memory : ℕ → ℕ}
    (hmeets : isErr answer = false → LookupMeets state fd ∧
      (fd < state.table.maxFds → negative fd = false →
        state.table.slots fd ≠ 0 → FgetMeets state answer memory))
    (fstat : Option FileInode) :
    TableInv (linux26Dup state fd answer memory fstat).1 := by
  cases herr : isErr answer with
  | true =>
      rw [linux26Dup, if_pos herr]
      exact hinv
  | false =>
      obtain ⟨hlook, hget⟩ := hmeets herr
      by_cases hnone : negative fd = true ∨ state.shadow fd = none
      · exact (hinv.dup_of_none hlook hnone fstat).1
      · simp only [not_or, Bool.not_eq_true] at hnone
        obtain ⟨old, hold⟩ := Option.ne_none_iff_exists'.mp hnone.2
        obtain ⟨hfd, hslot⟩ := hinv.slot_of_shadow hold
        exact (hinv.dup_of_some herr hnone.1 hold
          (hget hfd hnone.1 hslot) fstat).1

/-- One request. -/
theorem tableReady_step {chrdevList : List Chrdev} {state next : FileState}
    {request : FileRequest} (hready : TableReady state)
    (hmeets : RequestMeets chrdevList state request)
    (hstep : fileStep chrdevList state request = some next) :
    TableReady next := by
  rcases hready with hinv | ⟨hcrashed, -⟩
  · have hmeets := hmeets hinv.alive
    simp only [fileStep, hinv.alive, Bool.false_eq_true, if_false] at hstep
    cases request with
    | openFile path mode flags devAnswer answer memory fstat =>
        obtain rfl := Option.some.inj hstep
        simp only [linux26Open]
        split
        · exact .inl hinv
        · next chrdev rdev hfind =>
          cases herr : isErr devAnswer with
          | true =>
              rw [openChrdev, if_pos herr]
              exact .inr ⟨rfl, hinv.events, hinv.within, hinv.slots⟩
          | false =>
              have hget := hmeets (by rw [hfind]; rfl) herr
              exact .inl (hinv.openChrdev herr hget chrdev rdev fstat).1
    | close fd =>
        obtain rfl := Option.some.inj hstep
        exact .inl (hinv.close fd).1
    | dup fd answer memory fstat =>
        obtain rfl := Option.some.inj hstep
        exact .inl (hinv.dup hmeets fstat)
    | read fd =>
        obtain rfl := Option.some.inj hstep
        exact .inl (hinv.transfer hmeets _).1
    | write fd =>
        obtain rfl := Option.some.inj hstep
        exact .inl (hinv.transfer hmeets _).1
    | fstat fd answer =>
        obtain rfl := Option.some.inj hstep
        exact .inl (hinv.fstat hmeets).1
    | fget fd memory fstat =>
        obtain rfl := Option.some.inj hstep
        obtain ⟨state', pointer, hfget, hinv', -⟩ := hinv.fget hmeets fstat
        rw [hfget]
        exact .inl hinv'
    | fput pointer =>
        simp only at hstep
        split at hstep
        · simp at hstep
        · next file hfile =>
          split at hstep
          · simp at hstep
          · obtain rfl := Option.some.inj hstep
            exact .inl (hinv.fput hfile).1
  · simp [fileStep, hcrashed] at hstep

/-- The file table stays safe in a run exactly when every request of the run
meets its condition. -/
theorem fileTable_safe_iff (chrdevList : List Chrdev)
    (requests : List FileRequest) :
    Always (fileStep chrdevList) TableSafe (fun _ _ => True) noFiles requests ↔
      StepsMeet (fileStep chrdevList) (RequestMeets chrdevList) noFiles
        requests := by
  refine always_iff_stepsMeet
    (fun (state : FileState) (hready : TableReady state) => hready.safe) ?_
    (fun _ _ _ _ => trivial) ?_ (.inl tableInv_noFiles) requests
  · intro state request next hready hmeets hstep
    exact tableReady_step hready hmeets hstep
  · intro state request hready _ hnext halive
    have hinv := hready.resolve_right (by simp [halive])
    by_contra hmeets
    obtain ⟨next, hstep, hunsafe⟩ := fileStep_breaks chrdevList request hinv
      (fun hall => hmeets (hall halive))
    exact hunsafe (hnext next hstep)

/-- Once `fget(0)` has made an array of two slots, reading from descriptor two
looks behind it. -/
theorem linux26Read_leaves_table :
    ¬ Always (fileStep []) TableSafe (fun _ _ => True) noFiles
      [.fget 0 (fun _ => 0) none, .read 2] := by
  rintro ⟨-, -, hread⟩
  have hsafe := ((hread _ rfl).2.2 _ rfl).events (.access 2 2) (by
    simp [fget, findFile, ensureSlot, growTable, fdSize, noFiles, wordSub,
      FileState.readSlot, FileState.note, FileState.setFile,
      FileState.writeSlot, linux26Read, linux26Transfer, lookup, negative])
  exact absurd hsafe (lt_irrefl 2)

end IbcsUs.Files
