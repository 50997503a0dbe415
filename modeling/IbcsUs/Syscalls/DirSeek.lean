import IbcsUs.Syscalls.SolGetdents

/-!
# Positions in a directory

A program that remembers the `d_off` of an entry goes back to it with `lseek`.  The
kernel's `d_off` is a number from which reading resumes behind the entry; which
entries it resumes with at other numbers is not known.  `sco_getdents` replaces the
number by the bytes of the buffer up to the end of the record, and `svr4_getdents` by
that of the entry behind, or, in the last record, by the position of the directory.
-/

namespace IbcsUs.DirSeek

open IbcsUs.Runs IbcsUs.Syscalls IbcsUs.SolGetdents

/-- A directory with the entries that are read from each position on. -/
structure SeekDirectory extends Directory where
  resume : ℕ → List Dirent
  resume_zero : resume 0 = entries
  resume_cons : ∀ pos entry rest, resume pos = entry :: rest →
    resume entry.off = rest
  small : ∀ entry ∈ entries, entry.off < 2 ^ 31

/-- What a call returns, whether it is the 0 of the end, and the position it
leaves. -/
structure Answer where
  records : List UserDirent
  ended : Bool
  pos : ℕ
  deriving DecidableEq

/-- The position behind the entries that the kernel has handed out. -/
def positionAfter (pos : ℕ) (batch : List Dirent) : ℕ :=
  batch.foldl (fun _ entry => entry.off) pos

def names (entries : List Dirent) : List (List Char) := entries.map Dirent.name

section Calls

variable (abiMap : ℕ → ℕ) (above : ℕ → BitVec 32) (fd : BitVec 32)
variable (dir : SeekDirectory)

/-! ## The calls -/

/-- The loop of `sco_getdents` over the records of the kernel. -/
def scoWalk : ℕ → List Dirent → List UserDirent
  | _, [] => []
  | pos, entry :: entries =>
      ⟨abiMap entry.ino, pos + linuxReclen entry, linuxReclen entry,
          entry.name⟩ ::
        scoWalk (pos + linuxReclen entry) entries

/-- `sco_getdents`, where the buffer makes the kernel hand out so many entries. -/
def scoGetdents (pos handed : ℕ) : Option Answer :=
  let batch := (dir.resume pos).take handed
  some ⟨scoWalk abiMap 0 batch, decide (dir.resume pos = []),
    positionAfter pos batch⟩

/-- `svr4_getdents`; the groups are those of the rest of the directory. -/
def svr4Call (pos : ℕ) (call : GetdentsCall) : Option Answer :=
  if call.batches.flatMap Batch.entries = dir.resume pos then
    let result := svr4Getdents abiMap above fd dir.entries.length pos call
    let used := (vfsReaddir abiMap call.batches ⟨[], call.count, 0⟩).2.2
    some
      (if result.ret > 0 then ⟨result.records, false, result.pos⟩
      else
        ⟨[], result.ret = 0, positionAfter pos ((dir.resume pos).take used)⟩)
  else none

/-- `sco_lseek(fd, offset, 0)` on a directory. -/
def scoLseek (offset : ℕ) : ℕ := if offset = 0x40000000 then 0 else offset

/-! ## Going back -/

section Machine

variable {Call : Type*} (step : ℕ → Call → Option Answer)

/-- The names that calls return, and whether one has returned 0. -/
def collect : ℕ → List Call → Option (List (List Char) × Bool)
  | _, [] => some ([], false)
  | pos, call :: calls => do
      let answer ← step pos call
      let (more, ended) ← collect answer.pos calls
      return (answer.records.map UserDirent.dName ++ more, answer.ended || ended)

/-- Calls behind a position return the given names in order, and all of them up to
the call that returns 0. -/
def Reads (pos : ℕ) (expected : List (List Char)) : Prop :=
  ∀ further found ended, collect step pos further = some (found, ended) →
    found <+: expected ∧ (ended = true → found = expected)

/-- From the `d_off` of a record the entries are read that follow its own. -/
def RecordRight (record : UserDirent) : Prop :=
  ∀ front entry back, dir.entries = front ++ entry :: back →
    entry.name = record.dName → Reads step (scoLseek record.dOff) (names back)

/-- This is so for all records that a call returns. -/
def SeekRight (pos : ℕ) (call : Call) : Prop :=
  ∀ answer, step pos call = some answer →
    ∀ record ∈ answer.records, RecordRight dir step record

def posStep (pos : ℕ) (call : Call) : Option ℕ := (step pos call).map Answer.pos

end Machine

/-- The bytes up to the end of each record are, as a position, as good as that behind
the entry. -/
def ScoMeets (pos handed : ℕ) : Prop :=
  ∀ front entry back, (dir.resume pos).take handed = front ++ entry :: back →
    names (dir.resume (scoLseek
        ((front ++ [entry]).map linuxReclen).sum)) =
      names (dir.resume entry.off)

/-- The call returns no record: it is made at the end of the directory, or the entries
that are looked at do not all fit. -/
def Svr4Meets (pos : ℕ) (call : GetdentsCall) : Prop :=
  call.batches.flatMap Batch.entries = dir.resume pos →
    call.batches = [] ∨ call.count < firstBytes call.batches

/-! ## Positions -/

variable {dir}

theorem resume_positionAfter {pos : ℕ} {batch rest : List Dirent}
    (hresume : dir.resume pos = batch ++ rest) :
    dir.resume (positionAfter pos batch) = rest := by
  induction batch generalizing pos with
  | nil => exact hresume
  | cons entry batch ih => exact ih (dir.resume_cons pos entry _ hresume)

theorem resume_take (pos count : ℕ) :
    dir.resume (positionAfter pos ((dir.resume pos).take count)) =
      (dir.resume pos).drop count :=
  resume_positionAfter (List.take_append_drop _ _).symm

/-- The position is one that reading has come to. -/
def Reached (dir : SeekDirectory) (pos : ℕ) : Prop :=
  dir.resume pos <:+ dir.entries

theorem reached_zero : Reached dir 0 := by
  rw [Reached, dir.resume_zero]

theorem Reached.after {pos : ℕ} (hreached : Reached dir pos) (count : ℕ) :
    Reached dir (positionAfter pos ((dir.resume pos).take count)) := by
  rw [Reached, resume_take]
  exact (List.drop_suffix _ _).trans hreached

/-- The kernel resumes behind an entry with those that follow it. -/
theorem resume_off {front back : List Dirent} {entry : Dirent}
    (hentries : dir.entries = front ++ entry :: back) :
    dir.resume entry.off = back := by
  have hresume : dir.resume 0 = (front ++ [entry]) ++ back := by
    rw [dir.resume_zero, hentries, List.append_assoc]
    rfl
  have hposition : positionAfter 0 (front ++ [entry]) = entry.off := by
    rw [positionAfter, List.foldl_append]
    rfl
  rw [← hposition]
  exact resume_positionAfter hresume

/-- An entry is known by its name. -/
theorem entry_unique {front back front' back' : List Dirent}
    {entry entry' : Dirent} (hentries : dir.entries = front ++ entry :: back)
    (hentries' : dir.entries = front' ++ entry' :: back')
    (hname : entry.name = entry'.name) : entry = entry' := by
  have hmem : entry ∈ dir.entries := by simp [hentries]
  have hmem' : entry' ∈ dir.entries := by simp [hentries']
  exact List.inj_on_of_nodup_map dir.nodup hmem hmem' hname

/-! ## `sco_getdents` -/

theorem scoWalk_names (pos : ℕ) (entries : List Dirent) :
    (scoWalk abiMap pos entries).map UserDirent.dName = names entries := by
  induction entries generalizing pos with
  | nil => rfl
  | cons entry entries ih => simp [scoWalk, ih, names]

/-- A record carries the bytes up to its end. -/
theorem mem_scoWalk_iff {pos : ℕ} {entries : List Dirent} {record : UserDirent} :
    record ∈ scoWalk abiMap pos entries ↔
      ∃ front entry back, entries = front ++ entry :: back ∧
        record = ⟨abiMap entry.ino,
          pos + ((front ++ [entry]).map linuxReclen).sum, linuxReclen entry,
          entry.name⟩ := by
  induction entries generalizing pos with
  | nil => simp [scoWalk]
  | cons first entries ih =>
      rw [scoWalk, List.mem_cons, ih]
      constructor
      · rintro (rfl | ⟨front, entry, back, rfl, rfl⟩)
        · exact ⟨[], first, entries, rfl, by simp⟩
        · exact ⟨first :: front, entry, back, rfl, by simp [Nat.add_assoc]⟩
      · rintro ⟨front, entry, back, hentries, rfl⟩
        cases front with
        | nil =>
            obtain ⟨rfl, rfl⟩ := List.cons_eq_cons.mp hentries
            exact .inl (by simp)
        | cons other front =>
            obtain ⟨rfl, rfl⟩ := List.cons_eq_cons.mp hentries
            exact .inr ⟨front, entry, back, rfl, by simp [Nat.add_assoc]⟩

theorem scoGetdents_eq (pos handed : ℕ) :
    scoGetdents abiMap dir pos handed =
      some ⟨scoWalk abiMap 0 ((dir.resume pos).take handed),
        decide (dir.resume pos = []),
        positionAfter pos ((dir.resume pos).take handed)⟩ := rfl

/-- Calls of `sco_getdents` return what the kernel resumes with. -/
theorem reads_sco_resume (pos : ℕ) :
    Reads (scoGetdents abiMap dir) pos (names (dir.resume pos)) := by
  intro further
  induction further generalizing pos with
  | nil =>
      intro found ended hfound
      obtain ⟨rfl, rfl⟩ := Prod.mk.inj (Option.some.inj hfound)
      exact ⟨List.nil_prefix, nofun⟩
  | cons handed further ih =>
      intro found ended hfound
      rw [collect, scoGetdents_eq, Option.bind_eq_bind, Option.bind_some] at hfound
      obtain ⟨⟨more, rest⟩, hmore, hfound⟩ := Option.bind_eq_some_iff.mp hfound
      obtain ⟨rfl, rfl⟩ := Prod.mk.inj (Option.some.inj hfound)
      obtain ⟨hbegins, hall⟩ := ih _ more rest hmore
      rw [resume_take] at hbegins hall
      have hsplit : names (dir.resume pos) =
          names ((dir.resume pos).take handed) ++
            names ((dir.resume pos).drop handed) := by
        rw [names, names, names, ← List.map_append, List.take_append_drop]
      rw [scoWalk_names, hsplit]
      refine ⟨List.prefix_append_right_inj _ |>.mpr hbegins, fun hended => ?_⟩
      rw [Bool.or_eq_true, decide_eq_true_eq] at hended
      rcases hended with hempty | hrest
      · rw [hempty] at hbegins ⊢
        simpa [names] using hbegins
      · rw [hall hrest]

/-- Reading on from a position tells what the kernel resumes with. -/
theorem reads_sco_iff (pos : ℕ) (expected : List (List Char)) :
    Reads (scoGetdents abiMap dir) pos expected ↔
      names (dir.resume pos) = expected := by
  constructor
  · intro hreads
    have hcollect : collect (scoGetdents abiMap dir) pos
        [(dir.resume pos).length, 1] =
          some (names (dir.resume pos), true) := by
      have hend : dir.resume (positionAfter pos (dir.resume pos)) = [] :=
        resume_positionAfter (List.append_nil _).symm
      simp [collect, scoGetdents_eq, scoWalk_names, List.take_length, hend, names]
    exact (hreads _ _ _ hcollect).2 rfl
  · rintro rfl
    exact reads_sco_resume abiMap pos

theorem scoRight_iff {pos : ℕ} (hreached : Reached dir pos) (handed : ℕ) :
    SeekRight dir (scoGetdents abiMap dir) pos handed ↔
      ScoMeets dir pos handed := by
  obtain ⟨before, hbefore⟩ := hreached
  constructor
  · intro hright front entry back hbatch
    have hrest : dir.resume pos =
        front ++ entry :: (back ++ (dir.resume pos).drop handed) := by
      conv_lhs => rw [← List.take_append_drop handed (dir.resume pos), hbatch]
      simp
    have hentries : dir.entries =
        (before ++ front) ++ entry :: (back ++ (dir.resume pos).drop handed) := by
      rw [← hbefore, List.append_assoc, ← hrest]
    have hrecord := hright _ rfl _ ((mem_scoWalk_iff abiMap).mpr
      ⟨front, entry, back, hbatch, rfl⟩) _ entry _ hentries rfl
    rw [reads_sco_iff, Nat.zero_add] at hrecord
    rw [hrecord, resume_off hentries]
  · intro hmeets answer hanswer record hrecord front entry back hentries hname
    rw [scoGetdents_eq, Option.some.injEq] at hanswer
    subst hanswer
    obtain ⟨front', entry', back', hbatch, rfl⟩ :=
      (mem_scoWalk_iff abiMap).mp hrecord
    have hrest : dir.resume pos =
        front' ++ entry' :: (back' ++ (dir.resume pos).drop handed) := by
      conv_lhs => rw [← List.take_append_drop handed (dir.resume pos), hbatch]
      simp
    have hentries' : dir.entries =
        (before ++ front') ++ entry' ::
          (back' ++ (dir.resume pos).drop handed) := by
      rw [← hbefore, List.append_assoc, ← hrest]
    obtain rfl := entry_unique hentries hentries' hname
    rw [reads_sco_iff, Nat.zero_add, hmeets front' entry back' hbatch,
      resume_off hentries]

/-! ## `svr4_getdents` -/

variable (dir) in
/-- The result of a call, at a position. -/
def svr4Result (pos : ℕ) (call : GetdentsCall) : GetdentsResult :=
  svr4Getdents abiMap above fd dir.entries.length pos call

variable (dir) in
/-- A call that returns records rewinds the directory, and its last record has that
position. -/
theorem svr4Result_fits (pos : ℕ) {call : GetdentsCall} {batch : Batch}
    {batches : List Batch} (hbatches : call.batches = batch :: batches)
    (hfits : firstBytes call.batches ≤ call.count) :
    0 < (svr4Result abiMap above fd dir pos call).ret ∧
      (svr4Result abiMap above fd dir pos call).pos = 0 ∧
      (svr4Result abiMap above fd dir pos call).records.map UserDirent.dName =
        firstNames call.batches ∧
      ∃ front last, (svr4Result abiMap above fd dir pos call).records =
        front ++ [last] ∧ last.dOff = 0 := by
  obtain ⟨hret, hrecords⟩ := callResult_fits abiMap above fd dir.toDirectory
    ⟨pos, [], false⟩ hbatches hfits
  obtain ⟨hloop, hnames, -⟩ :=
    @vfsReaddir_fits abiMap call.batches ⟨[], call.count, 0⟩ hfits
  refine ⟨hret, ?_, hrecords, ?_⟩
  all_goals
    have hsome : (vfsReaddir abiMap call.batches
        ⟨[], call.count, 0⟩).1.records ≠ [] := by
      intro hnil
      rw [hnil, hbatches] at hnames
      simp [firstNames] at hnames
    simp only [svr4Result, svr4Getdents, fileGetFPos_eq, hloop, lt_irrefl,
      if_false, hsome]
  obtain ⟨front, last, hsplit⟩ := (List.eq_nil_or_concat' _).resolve_left hsome
  rw [hsplit, setLastOff, List.modifyLast_concat]
  exact ⟨front, _, rfl, rfl⟩

variable (dir) in
/-- What does not fit makes the call fail. -/
theorem svr4Result_refuses (pos : ℕ) {call : GetdentsCall} {batch : Batch}
    {batches : List Batch} (hbatches : call.batches = batch :: batches)
    (hfull : ¬ firstBytes call.batches ≤ call.count) :
    (svr4Result abiMap above fd dir pos call).ret = -22 := by
  by_cases hfirst : call.count < svr4Reclen batch.1
  · exact (callResult_first_refused abiMap above fd dir.toDirectory
      ⟨pos, [], false⟩ hbatches hfirst).1
  · exact (callResult_later_refused abiMap above fd dir.toDirectory
      ⟨pos, [], false⟩ hbatches (not_lt.mp hfirst) hfull).1

variable (dir) in
/-- What a call answers that is not granted any record. -/
def svr4Nothing (pos : ℕ) (call : GetdentsCall) : Answer :=
  ⟨[], (svr4Result abiMap above fd dir pos call).ret = 0,
    positionAfter pos ((dir.resume pos).take
      (vfsReaddir abiMap call.batches ⟨[], call.count, 0⟩).2.2)⟩

theorem svr4Call_eq {pos : ℕ} {call : GetdentsCall}
    (hrest : call.batches.flatMap Batch.entries = dir.resume pos) :
    svr4Call abiMap above fd dir pos call =
      some
        (if (svr4Result abiMap above fd dir pos call).ret > 0 then
          ⟨(svr4Result abiMap above fd dir pos call).records, false,
            (svr4Result abiMap above fd dir pos call).pos⟩
        else svr4Nothing abiMap above fd dir pos call) := by
  rw [svr4Call, if_pos hrest]
  rfl

/-- All entries one by one, in a buffer that has room for them. -/
def wholeCall (entries : List Dirent) : GetdentsCall :=
  ⟨firstBytes (entries.map fun entry => (entry, [])),
    entries.map fun entry => (entry, [])⟩

theorem wholeCall_entries (entries : List Dirent) :
    (wholeCall entries).batches.flatMap Batch.entries = entries := by
  induction entries with
  | nil => rfl
  | cons entry entries ih =>
      have hrest : (entries.map fun entry => ((entry, []) : Batch)).flatMap
          Batch.entries = entries := ih
      simp [wholeCall, Batch.entries, hrest]

theorem firstNames_wholeCall (entries : List Dirent) :
    firstNames (wholeCall entries).batches = names entries := by
  simp [wholeCall, firstNames, names]

/-- From the position 0 a call can return all entries. -/
theorem collect_whole (hentries : dir.entries ≠ []) :
    collect (svr4Call abiMap above fd dir) 0 [wholeCall dir.entries] =
      some (names dir.entries, false) := by
  obtain ⟨first, rest, hfirst⟩ := List.exists_cons_of_ne_nil hentries
  have hbatches : (wholeCall dir.entries).batches =
      (first, []) :: rest.map fun entry => (entry, []) := by
    rw [wholeCall, hfirst, List.map_cons]
  obtain ⟨hret, -, hnames, -⟩ := svr4Result_fits abiMap above fd dir 0
    hbatches (le_refl _)
  have hrest : (wholeCall dir.entries).batches.flatMap Batch.entries =
      dir.resume 0 := by
    rw [wholeCall_entries, dir.resume_zero]
  rw [collect, svr4Call_eq abiMap above fd hrest, if_pos hret]
  simp [collect, hnames, firstNames_wholeCall]

/-- Nothing follows the last entry that would be read from the start of the
directory. -/
theorem not_recordRight_last {pos : ℕ} {call : GetdentsCall}
    (hreached : Reached dir pos)
    (hrest : call.batches.flatMap Batch.entries = dir.resume pos)
    {records front : List UserDirent} {last : UserDirent}
    (hnames : records.map UserDirent.dName = firstNames call.batches)
    (hrecords : records = front ++ [last]) (hoff : last.dOff = 0) :
    ¬ RecordRight dir (svr4Call abiMap above fd dir) last := by
  intro hright
  have hlast : last.dName ∈ firstNames call.batches := by
    rw [← hnames, hrecords]
    simp
  obtain ⟨batch, hbatch, hname⟩ := List.mem_map.mp hlast
  have hentry : batch.1 ∈ dir.entries := by
    apply hreached.subset
    rw [← hrest]
    exact List.mem_flatMap.mpr ⟨batch, hbatch, List.mem_cons_self⟩
  obtain ⟨before, back, hentries⟩ := List.append_of_mem hentry
  have hreads := hright before batch.1 back hentries hname
  rw [hoff] at hreads
  have hne : dir.entries ≠ [] := List.ne_nil_of_mem hentry
  have hbegins := (hreads _ _ _ (collect_whole abiMap above fd hne)).1
  have hlength := hbegins.length_le
  rw [names, names, List.length_map, List.length_map, hentries,
    List.length_append, List.length_cons] at hlength
  omega

theorem svr4Right_iff {pos : ℕ} (hreached : Reached dir pos)
    (call : GetdentsCall) :
    SeekRight dir (svr4Call abiMap above fd dir) pos call ↔
      Svr4Meets dir pos call := by
  rw [Svr4Meets]
  by_cases hrest : call.batches.flatMap Batch.entries = dir.resume pos
  · rw [forall_prop_of_true hrest]
    rw [SeekRight]
    rw [svr4Call_eq abiMap above fd hrest]
    cases hbatches : call.batches with
    | nil =>
        have hret : (svr4Result abiMap above fd dir pos call).ret = 0 :=
          (callResult_end abiMap above fd dir.toDirectory ⟨pos, [], false⟩
            hbatches).1
        rw [if_neg (by rw [hret]; decide)]
        refine iff_of_true ?_ (.inl rfl)
        intro answer hanswer record hrecord
        rw [← Option.some.inj hanswer] at hrecord
        exact absurd hrecord List.not_mem_nil
    | cons batch batches =>
        rw [← hbatches]
        by_cases hfits : firstBytes call.batches ≤ call.count
        · obtain ⟨hret, -, hnames, front, last, hrecords, hoff⟩ :=
            svr4Result_fits abiMap above fd dir pos hbatches hfits
          rw [if_pos hret]
          refine iff_of_false (fun hright => ?_) ?_
          · exact not_recordRight_last abiMap above fd hreached hrest hnames
              hrecords hoff (hright _ rfl last (by simp [hrecords]))
          · rintro (hnil | hfull)
            · rw [hbatches] at hnil
              cases hnil
            · omega
        · have hret := svr4Result_refuses abiMap above fd dir pos
            hbatches hfits
          rw [if_neg (by rw [hret]; decide)]
          refine iff_of_true ?_ (.inr (not_le.mp hfits))
          intro answer hanswer record hrecord
          rw [← Option.some.inj hanswer] at hrecord
          exact absurd hrecord List.not_mem_nil
  · refine iff_of_true ?_ fun h => absurd h hrest
    intro answer hanswer
    rw [svr4Call, if_neg hrest] at hanswer
    cases hanswer

/-! ## Sequences of calls -/

/-- Every call leaves a position that reading has come to. -/
theorem reached_sco {pos handed next : ℕ} (hreached : Reached dir pos)
    (hstep : posStep (scoGetdents abiMap dir) pos handed = some next) :
    Reached dir next := by
  obtain rfl := Option.some.inj hstep
  exact hreached.after handed

theorem reached_svr4 {pos next : ℕ} {call : GetdentsCall}
    (hreached : Reached dir pos)
    (hstep : posStep (svr4Call abiMap above fd dir) pos call = some next) :
    Reached dir next := by
  by_cases hrest : call.batches.flatMap Batch.entries = dir.resume pos
  · rw [posStep, svr4Call_eq abiMap above fd hrest, Option.map_some,
      Option.some.injEq] at hstep
    subst hstep
    cases hbatches : call.batches with
    | nil =>
        have hret : (svr4Result abiMap above fd dir pos call).ret = 0 :=
          (callResult_end abiMap above fd dir.toDirectory ⟨pos, [], false⟩
            hbatches).1
        rw [if_neg (by rw [hret]; decide)]
        exact hreached.after _
    | cons batch batches =>
        by_cases hfits : firstBytes call.batches ≤ call.count
        · obtain ⟨hret, hpos, -⟩ :=
            svr4Result_fits abiMap above fd dir pos hbatches hfits
          rw [if_pos hret]
          dsimp only
          rw [hpos]
          exact reached_zero
        · have hret := svr4Result_refuses abiMap above fd dir pos hbatches hfits
          rw [if_neg (by rw [hret]; decide)]
          exact hreached.after _
  · rw [posStep, svr4Call, if_neg hrest] at hstep
    cases hstep

end Calls

/-- In every sequence of calls the positions returned can be sought to exactly when,
for `sco_getdents`, the kernel resumes at the bytes up to the end of each record as
it does behind its entry, and, for `svr4_getdents`, when no record is ever returned. -/
theorem dirSeek_right_iff (abiMap : ℕ → ℕ) (above : ℕ → BitVec 32)
    (fd : BitVec 32) (dir : SeekDirectory) :
    (∀ calls : List ℕ,
      Always (posStep (scoGetdents abiMap dir)) (fun _ => True)
          (SeekRight dir (scoGetdents abiMap dir)) 0 calls ↔
        StepsMeet (posStep (scoGetdents abiMap dir)) (ScoMeets dir) 0 calls) ∧
      ∀ calls : List GetdentsCall,
        Always (posStep (svr4Call abiMap above fd dir)) (fun _ => True)
            (SeekRight dir (svr4Call abiMap above fd dir)) 0 calls ↔
          StepsMeet (posStep (svr4Call abiMap above fd dir)) (Svr4Meets dir) 0
            calls := by
  refine ⟨fun calls => ?_, fun calls => ?_⟩
  · exact always_iff_stepsMeet (fun _ _ => trivial)
      (fun _ _ _ hreached _ hstep => reached_sco abiMap hreached hstep)
      (fun _ handed hreached => (scoRight_iff abiMap hreached handed).mpr)
      (fun _ handed hreached hright _ =>
        (scoRight_iff abiMap hreached handed).mp hright)
      reached_zero calls
  · exact always_iff_stepsMeet (fun _ _ => trivial)
      (fun _ _ _ hreached _ hstep => reached_svr4 abiMap above fd hreached hstep)
      (fun _ call hreached => (svr4Right_iff abiMap above fd hreached call).mpr)
      (fun _ call hreached hright _ =>
        (svr4Right_iff abiMap above fd hreached call).mp hright)
      reached_zero calls

/-- Two entries, `.` and `..`. -/
def dotEntries : List Dirent := [⟨2, 1, 4, ['.']⟩, ⟨2, 2, 4, ['.', '.']⟩]

/-- What is read of them: nothing from a position that is none of theirs. -/
def dotResume (pos : ℕ) : List Dirent :=
  if pos = 0 then dotEntries else if pos = 1 then dotEntries.drop 1 else []

theorem nodup_dotEntries : (dotEntries.map Dirent.name).Nodup := by decide

theorem dotResume_cons (pos : ℕ) (entry : Dirent) (rest : List Dirent)
    (hresume : dotResume pos = entry :: rest) : dotResume entry.off = rest := by
  rw [dotResume] at hresume
  split_ifs at hresume
  · obtain ⟨rfl, rfl⟩ := List.cons_eq_cons.mp hresume
    rfl
  · obtain ⟨rfl, rfl⟩ := List.cons_eq_cons.mp hresume
    rfl

theorem small_dotEntries : ∀ entry ∈ dotEntries, entry.off < 2 ^ 31 := by decide

def twoEntries : SeekDirectory where
  entries := dotEntries
  nodup := nodup_dotEntries
  resume := dotResume
  resume_zero := rfl
  resume_cons := dotResume_cons
  small := small_dotEntries

/-- The first record has the position 16, from which the second entry is not read. -/
theorem dirSeek_wrong :
    scoGetdents id twoEntries 0 2 =
        some ⟨[⟨2, 16, 16, ['.']⟩, ⟨2, 32, 16, ['.', '.']⟩], false, 2⟩ ∧
      ¬ SeekRight twoEntries (scoGetdents id twoEntries) 0 2 := by
  have hcall : scoGetdents id twoEntries 0 2 =
      some ⟨[⟨2, 16, 16, ['.']⟩, ⟨2, 32, 16, ['.', '.']⟩], false, 2⟩ := by decide
  refine ⟨hcall, fun hright => ?_⟩
  have hreads := hright _ hcall ⟨2, 16, 16, ['.']⟩ List.mem_cons_self []
    ⟨2, 1, 4, ['.']⟩ [⟨2, 2, 4, ['.', '.']⟩] rfl rfl
  have hnothing := (hreads [1] [] true (by decide)).2 rfl
  exact absurd hnothing (by decide)

end IbcsUs.DirSeek
