import IbcsUs.Inodes.HashCircles
import IbcsUs.Inodes.LruQueue

/-!
# Stability of short inodes

An inode is found through its hash slot only, so a stored inode has to be on the
circle of its hash slot.  As long as that holds no inode is stored twice, and a
number once returned is returned again until its slot has become the oldest of
the queue.  Recycling a slot breaks it when the slot is the hash slot of an
inode stored elsewhere and moves to another circle.
-/

namespace IbcsUs.Inodes

open IbcsUs.Core IbcsUs.Runs

variable {n : ℕ} [NeZero n]

/-- Every stored inode is on the circle of its hash slot, and is stored once. -/
structure Filed (state : ShortInode n) : Prop where
  circles : HashInv state
  home : ∀ slot ino, state.occ slot = some ino →
    state.Used (shortInodeHashval n ino) ∧
      state.hash.Reaches (shortInodeHashval n ino) slot
  unique : ∀ first second ino, state.occ first = some ino →
    state.occ second = some ino → first = second

/-- When the call recycles a slot in use, that slot is the hash slot of the call
alone on its circle, or it stays on the circle it is on, or it is the hash slot
of no inode stored in another slot. -/
def RecycleSafe (state : ShortInode n) (ino : ℕ) : Prop :=
  shortInodeUnmapped < ino → Misses state ino → state.Used state.oldest →
    (state.oldest = shortInodeHashval n ino ∧
      state.hash.next state.oldest = state.oldest) ∨
    (state.oldest ≠ shortInodeHashval n ino ∧
      (state.hash.Reaches (shortInodeHashval n ino) state.oldest ∨
        ∀ slot other, slot ≠ state.oldest → state.occ slot = some other →
          shortInodeHashval n other ≠ state.oldest))

theorem filed_construct : Filed (shortInodeConstruct n) := by
  have hfree : ∀ slot, (shortInodeConstruct n).occ slot = none := by
    simp [ShortInode.occ, shortInodeConstruct, shortInodeIsUnused]
  exact
    { circles := hashInv_construct
      home := by simp [hfree]
      unique := by simp [hfree] }

/-! ## One call -/

section Call

variable {state after : ShortInode n} {ino : ℕ}

/-- A search that misses an inode proves that it is not stored. -/
theorem Filed.not_stored (hfiled : Filed state) (hino : Storable ino)
    (hmiss : Misses state ino) (slot : Fin n) : state.occ slot ≠ some ino := by
  intro hocc
  exact hmiss.not_reaches hino (hfiled.home slot ino hocc).2 hocc

/-- Nor is an inode whose hash slot is free. -/
theorem Filed.not_stored_of_free (hfiled : Filed state)
    (hfree : state.occ (shortInodeHashval n ino) = none) (slot : Fin n) :
    state.occ slot ≠ some ino :=
  fun hocc => (hfiled.home slot ino hocc).1 hfree

/-- A call on an inode that is stored finds its slot. -/
theorem Filed.map_stored (hfiled : Filed state) (hino : Storable ino)
    {slot : Fin n} (hocc : state.occ slot = some ino) :
    ∃ after, shortInodeMap state ino = some (after, slot.val + 3) := by
  obtain ⟨after, short, hmap⟩ := hfiled.circles.map_isSome ino
  obtain ⟨found, rfl, hplaced, -⟩ := shortInodeMap_cases hino hmap
  generalize after.occ = occ at hplaced
  generalize after.hash = hash at hplaced
  cases hplaced with
  | hit _ hfound =>
      obtain rfl := hfiled.unique found slot ino hfound hocc
      exact ⟨after, hmap⟩
  | fresh hfree => exact absurd hocc (hfiled.not_stored_of_free hfree slot)
  | recycle hmiss => exact absurd hocc (hfiled.not_stored hino hmiss slot)

/-- Storing an inode in a new place keeps inodes apart. -/
theorem unique_update {slot : Fin n} (hfiled : Filed state)
    (hnew : ∀ other, state.occ other ≠ some ino) (first second : Fin n)
    (stored : ℕ)
    (hfirst : Function.update state.occ slot (some ino) first = some stored)
    (hsecond : Function.update state.occ slot (some ino) second = some stored) :
    first = second := by
  have hunique := hfiled.unique first second stored
  grind [Function.update_apply]

/-- The recycled slot, in use and other than the hash slot of the call, takes
every stored inode along that is found through it. -/
theorem Filed.reaches_recycle (hfiled : Filed state)
    (hhome : state.Used (shortInodeHashval n ino))
    (hused : state.Used state.oldest)
    (hne : state.oldest ≠ shortInodeHashval n ino)
    (hsafe : state.hash.Reaches (shortInodeHashval n ino) state.oldest ∨
      ∀ slot other, slot ≠ state.oldest → state.occ slot = some other →
        shortInodeHashval n other ≠ state.oldest)
    {slot : Fin n} {other : ℕ} (hslot : slot ≠ state.oldest)
    (hocc : state.occ slot = some other) :
    ((state.hash.unlink state.oldest).linkAfter (shortInodeHashval n ino)
      state.oldest).Reaches (shortInodeHashval n other) slot := by
  obtain ⟨hotherUsed, hreaches⟩ := hfiled.home slot other hocc
  have hout := hfiled.circles.unlink hused
  have hstays : state.Used (shortInodeHashval n ino) ∧
      shortInodeHashval n ino ≠ state.oldest := ⟨hhome, Ne.symm hne⟩
  have hentry : ¬ (state.Used state.oldest ∧ state.oldest ≠ state.oldest) :=
    fun h => h.2 rfl
  -- paths between slots that stay where they are
  have hkeep : ∀ start, state.Used start → start ≠ state.oldest →
      state.hash.Reaches start slot →
      ((state.hash.unlink state.oldest).linkAfter (shortInodeHashval n ino)
        state.oldest).Reaches start slot := by
    intro start hstart hstartNe hpath
    exact hout.reaches_linkAfter hentry ⟨hstart, hstartNe⟩
      (hfiled.circles.reaches_unlink hused hstart hstartNe hslot hpath)
  by_cases hthrough : shortInodeHashval n other = state.oldest
  · rcases hsafe with hcircle | hnone
    · rw [hthrough] at hreaches ⊢
      have hfront := hkeep _ hhome (Ne.symm hne) (hcircle.trans hreaches)
      have hback := (hout.linkAfter hstays hentry).reaches_symm (.inl hstays)
        (Links.reaches_linkAfter_self _ _)
      exact hback.trans hfront
    · exact absurd hthrough (hnone slot other hslot hocc)
  · exact hkeep _ hotherUsed hthrough hreaches

/-- A call that recycles safely keeps every stored inode where it is found. -/
theorem filed_map {short : ℕ} (hino : Storable ino) (hfiled : Filed state)
    (hsafe : RecycleSafe state ino)
    (hmap : shortInodeMap state ino = some (after, short)) : Filed after := by
  obtain ⟨slot, -, hplaced, -⟩ := shortInodeMap_cases hino hmap
  have hcircles : HashInv after := by
    refine hplaced.circles hfiled.circles fun hmiss hsame => ?_
    have hsafe' := hsafe hino.1 hmiss (hsame ▸ hmiss.1)
    grind
  suffices hrest : (∀ slot ino, after.occ slot = some ino →
        after.occ (shortInodeHashval n ino) ≠ none ∧
          after.hash.Reaches (shortInodeHashval n ino) slot) ∧
      ∀ first second ino, after.occ first = some ino →
        after.occ second = some ino → first = second from
    ⟨hcircles, hrest.1, hrest.2⟩
  have hused := hplaced.used_iff
  generalize after.occ = occ at hplaced hused
  generalize after.hash = hash at hplaced
  cases hplaced with
  | hit => exact ⟨hfiled.home, hfiled.unique⟩
  | fresh hfree =>
      refine ⟨fun slot other hocc => ?_,
        unique_update hfiled (hfiled.not_stored_of_free hfree)⟩
      rw [hused]
      by_cases hslot : slot = shortInodeHashval n ino
      · obtain rfl : ino = other := by simpa [hslot] using hocc
        exact ⟨.inr rfl, hslot ▸ .refl⟩
      · rw [Function.update_of_ne hslot] at hocc
        obtain ⟨hother, hreaches⟩ := hfiled.home slot other hocc
        exact ⟨.inl hother, hfiled.circles.reaches_joinSelf
          (not_not.mpr hfree) hother hreaches⟩
  | recycle hmiss =>
      have hhome : state.Used (shortInodeHashval n ino) := hmiss.1
      refine ⟨fun slot other hocc => ?_,
        unique_update hfiled (hfiled.not_stored hino hmiss)⟩
      rw [hused]
      by_cases hslot : slot = state.oldest
      · obtain rfl : ino = other := by simpa [hslot] using hocc
        exact ⟨.inl hhome, hslot ▸ Links.reaches_linkAfter_self _ _⟩
      rw [Function.update_of_ne hslot] at hocc
      obtain ⟨hother, hreaches⟩ := hfiled.home slot other hocc
      refine ⟨.inl hother, ?_⟩
      by_cases hfree : state.occ state.oldest = none
      · rw [ShortInode.freed, if_pos hfree]
        exact hfiled.circles.reaches_linkAfter (not_not.mpr hfree) hother hreaches
      rw [ShortInode.freed, if_neg hfree]
      rcases hsafe hino.1 hmiss hfree with ⟨hsame, hnext⟩ | ⟨hne, hcircle⟩
      · have hprev : state.hash.prev state.oldest = state.oldest := by
          have hback := hfiled.circles.prev_next _ hfree
          rwa [hnext] at hback
        rw [← hsame, Links.unlink_linkAfter_self hnext hprev]
        exact hreaches
      · exact hfiled.reaches_recycle hhome hfree hne hcircle hslot hocc

/-- Different slots hold different inodes. -/
theorem Filed.card_le (hfiled : Filed state) {slots : Finset (Fin n)}
    {inos : Finset ℕ}
    (hheld : ∀ slot ∈ slots, ∃ ino ∈ inos, state.occ slot = some ino) :
    slots.card ≤ inos.card := by
  refine Finset.card_le_card_of_injOn (fun slot => (state.occ slot).getD 0) ?_ ?_
  · intro slot hslot
    obtain ⟨ino, hino, hocc⟩ := hheld slot hslot
    simpa [hocc] using hino
  · intro first hfirst second hsecond heq
    obtain ⟨ino, -, hocc⟩ := hheld first hfirst
    obtain ⟨ino', -, hocc'⟩ := hheld second hsecond
    simp only [hocc, hocc', Option.getD_some] at heq
    exact hfiled.unique first second ino hocc (heq ▸ hocc')

end Call

/-! ## Whole runs -/

/-- The states of `shortInodeRun` are those of the run of its calls. -/
theorem run_of_shortInodeRun {state final : ShortInode n} {inos : List Inode}
    {shorts : List ℕ} (hrun : shortInodeRun state inos = some (final, shorts)) :
    run shortInodeStep state inos = some final ∧
      shorts.length = inos.length := by
  induction inos generalizing state shorts with
  | nil =>
      obtain ⟨rfl, rfl⟩ := Prod.mk.inj (Option.some.inj hrun)
      exact ⟨rfl, rfl⟩
  | cons ino inos ih =>
      obtain ⟨after, short, rest, hmap, hrest, rfl⟩ :=
        shortInodeRun_cons_eq_some hrun
      obtain ⟨hfinal, hlength⟩ := ih hrest
      refine ⟨?_, by simp [hlength]⟩
      rw [run_cons, shortInodeStep, hmap]
      exact hfinal

theorem shortInodeRun_cons {state after final : ShortInode n} {ino : Inode}
    {inos : List Inode} {short : ℕ} {shorts : List ℕ}
    (hmap : shortInodeMap state ino = some (after, short))
    (hrun : shortInodeRun after inos = some (final, shorts)) :
    shortInodeRun state (ino :: inos) = some (final, short :: shorts) := by
  simp only [shortInodeRun, hmap, Option.bind_some, hrun, Option.map_some]

theorem shortInodeRun_append {state middle final : ShortInode n}
    {first second : List Inode} {shorts rest : List ℕ}
    (hfirst : shortInodeRun state first = some (middle, shorts))
    (hsecond : shortInodeRun middle second = some (final, rest)) :
    shortInodeRun state (first ++ second) = some (final, shorts ++ rest) := by
  induction first generalizing state shorts with
  | nil =>
      obtain ⟨rfl, rfl⟩ := Prod.mk.inj (Option.some.inj hfirst)
      exact hsecond
  | cons ino inos ih =>
      obtain ⟨after, short, rest', hmap, hrest, rfl⟩ :=
        shortInodeRun_cons_eq_some hfirst
      exact shortInodeRun_cons hmap (ih hrest)

/-- What a call does to a table whose stored inodes are all found: it stores its
inode in one slot, which held it, was free, or is the oldest one. -/
theorem filed_step (hn : 2 ≤ n) {state after : ShortInode n}
    {uses : List (Fin n)} {ino short : ℕ} (hino : Storable ino)
    (hfiled : Filed state) (hqueue : QueueInv state uses)
    (hsafe : RecycleSafe state ino)
    (hmap : shortInodeMap state ino = some (after, short)) :
    ∃ slot : Fin n, short = slot + 3 ∧ Filed after ∧
      QueueInv after (uses ++ [slot]) ∧
      after.occ = Function.update state.occ slot (some ino) ∧
      (state.occ slot = some ino ∨ state.occ slot = none ∨
        Misses state ino ∧ slot = state.oldest) := by
  obtain ⟨slot, hshort, hafter⟩ := queueInv_map hn hino hqueue hmap
  obtain ⟨slot', hshort', hplaced, -⟩ := shortInodeMap_cases hino hmap
  obtain rfl : slot = slot' := Fin.ext (by omega)
  refine ⟨slot, hshort, filed_map hino hfiled hsafe hmap, hafter,
    hplaced.occ_eq, ?_⟩
  generalize after.occ = occ at hplaced
  generalize after.hash = hash at hplaced
  cases hplaced with
  | hit _ hocc => exact .inl hocc
  | fresh hfree => exact .inr (.inl hfree)
  | recycle hmiss => exact .inr (.inr ⟨hmiss, rfl⟩)

/-- The slot holds the inode, and every slot behind it in the queue holds one of
`others`. -/
structure Held (state : ShortInode n) (slot : Fin n) (ino : ℕ)
    (others : Finset ℕ) : Prop where
  filed : Filed state
  occ : state.occ slot = some ino
  behind : ∃ uses front back, QueueInv state uses ∧
    lruQueue n uses = front ++ slot :: back ∧
    ∀ later ∈ back, ∃ other ∈ others, state.occ later = some other

/-- While fewer than `n` other inodes are mapped, the slot does not become the
oldest of a full table. -/
theorem Held.not_recycled {state : ShortInode n} {slot : Fin n} {ino other : ℕ}
    {others : Finset ℕ} (hheld : Held state slot ino others)
    (hother : other ∈ others) (hcard : others.card < n)
    (hstorable : Storable other) (hmiss : Misses state other) :
    slot ≠ state.oldest := by
  rintro rfl
  obtain ⟨uses, front, back, hqueue, hsplit, hback⟩ := hheld.behind
  have hnodup := nodup_lruQueue uses
  have hlength := length_lruQueue uses
  have hhead := hqueue.head
  rw [hsplit] at hnodup hlength hhead
  -- the oldest comes first, so all other slots are behind it
  have hfront : front = [] := by
    cases front with
    | nil => rfl
    | cons first front =>
        obtain rfl : first = state.oldest := by simpa using hhead
        simp at hnodup
  subst hfront
  have hnodupBack : back.Nodup := (List.nodup_cons.mp hnodup).2
  have hle : back.toFinset.card ≤ (others.erase other).card := by
    refine hheld.filed.card_le fun later hlater => ?_
    obtain ⟨stored, hstored, hocc⟩ := hback later (List.mem_toFinset.mp hlater)
    refine ⟨stored, Finset.mem_erase.mpr ⟨?_, hstored⟩, hocc⟩
    rintro rfl
    exact hheld.filed.not_stored hstorable hmiss later hocc
  rw [List.toFinset_card_of_nodup hnodupBack,
    Finset.card_erase_of_mem hother] at hle
  have hpos := Finset.card_pos.mpr ⟨other, hother⟩
  simp only [List.nil_append, List.length_cons] at hlength
  omega

theorem held_map (hn : 2 ≤ n) {state after : ShortInode n} {slot : Fin n}
    {ino other short : ℕ} {others : Finset ℕ}
    (hheld : Held state slot ino others) (hother : other ∈ others)
    (hcard : others.card < n) (hstorable : Storable other) (hne : other ≠ ino)
    (hsafe : RecycleSafe state other)
    (hmap : shortInodeMap state other = some (after, short)) :
    Held after slot ino others := by
  obtain ⟨uses, front, back, hqueue, hsplit, hback⟩ := hheld.behind
  obtain ⟨used, -, hfiled, hqueue', hocc, htaken⟩ :=
    filed_step hn hstorable hheld.filed hqueue hsafe hmap
  have hslot := hheld.occ
  have hused : slot ≠ used := by
    rintro rfl
    rcases htaken with hsame | hfree | ⟨hmiss, holdest⟩
    · exact hne (Option.some.inj (hsame.symm.trans hslot))
    · rw [hfree] at hslot
      simp at hslot
    · exact hheld.not_recycled hother hcard hstorable hmiss holdest
  refine ⟨hfiled, by rw [hocc, Function.update_of_ne hused, hslot], ?_⟩
  have hmove : lruQueue n (uses ++ [used]) =
      (lruQueue n uses).erase used ++ [used] :=
    lastUse_snoc (List.nodup_finRange n)
  have hnodup := nodup_lruQueue uses
  rw [hsplit] at hnodup hmove
  refine ⟨uses ++ [used], front.erase used, back.erase used ++ [used], hqueue',
    ?_, ?_⟩
  · rw [hmove, hnodup.erase_eq_filter, List.filter_append, List.filter_cons_of_pos
      (by simpa using hused), (hnodup.of_append_left).erase_eq_filter,
      (hnodup.of_append_right.of_cons).erase_eq_filter]
    simp
  · intro later hlater
    rw [hocc]
    by_cases hlast : later = used
    · exact ⟨other, hother, by simp [hlast]⟩
    · rw [Function.update_of_ne hlast]
      refine hback later ?_
      simpa [hlast, List.mem_erase_of_ne hlast] using hlater

/-- A run returns, and keeps what each of its calls keeps, when all its calls
recycle safely. -/
theorem shortInodeRun_of_safe (Called : Inode → Prop) {Inv : ShortInode n → Prop}
    (hfiled : ∀ state, Inv state → Filed state)
    (hkeep : ∀ state after (ino : Inode) short, Inv state →
      shortInodeUnmapped < ino.val → Called ino → RecycleSafe state ino →
      shortInodeMap state ino = some (after, short) → Inv after)
    {state : ShortInode n} {inos : List Inode} (hinit : Inv state)
    (hcalled : ∀ ino ∈ inos, Called ino)
    (hmeet : StepsMeet shortInodeStep
      (fun state (ino : Inode) => RecycleSafe state ino) state inos) :
    ∃ final shorts, shortInodeRun state inos = some (final, shorts) ∧
      Inv final := by
  induction inos generalizing state with
  | nil => exact ⟨state, [], rfl, hinit⟩
  | cons ino inos ih =>
      obtain ⟨after, short, hmap⟩ := (hfiled state hinit).circles.map_isSome ino
      have hstep : shortInodeStep state ino = some after := by
        rw [shortInodeStep, hmap]
        rfl
      have hafter : Inv after := by
        by_cases hino : ino.val ≤ shortInodeUnmapped
        · rw [shortInodeMap_of_le hino] at hmap
          obtain ⟨rfl, -⟩ := Prod.mk.inj (Option.some.inj hmap)
          exact hinit
        · exact hkeep state after ino short hinit (Nat.not_le.mp hino)
            (hcalled ino List.mem_cons_self) hmeet.1 hmap
      obtain ⟨final, shorts, hrun, hfinal⟩ := ih hafter
        (fun other hother => hcalled other (List.mem_cons_of_mem _ hother))
        (hmeet.2 after hstep)
      exact ⟨final, short :: shorts, shortInodeRun_cons hmap hrun, hfinal⟩

/-- The inodes above 2 among the calls. -/
def mappedInos (inos : List Inode) : Finset Inode :=
  (inos.filter fun ino => shortInodeUnmapped < ino.val).toFinset

/-- The calls return, no inode is stored in two slots, and an inode since whose
last call fewer than `n` others have been mapped gets its number again. -/
def LruStable (n : ℕ) [NeZero n] (calls : List Inode) : Prop :=
  ∃ state shorts,
    shortInodeRun (shortInodeConstruct n) calls = some (state, shorts) ∧
    (∀ first second ino, state.occ first = some ino →
      state.occ second = some ino → first = second) ∧
    ∀ before ino between, calls = before ++ ino :: between →
      shortInodeUnmapped < ino.val → ino ∉ between →
      (mappedInos between).card < n →
      ∃ short after, shorts[before.length]? = some short ∧
        shortInodeMap state ino = some (after, short)

/-- What every call keeps that recycles safely. -/
theorem sorted_run (hn : 2 ≤ n) {calls : List Inode}
    (hmeet : StepsMeet shortInodeStep
      (fun state (ino : Inode) => RecycleSafe state ino)
      (shortInodeConstruct n) calls) :
    ∃ state shorts,
      shortInodeRun (shortInodeConstruct n) calls = some (state, shorts) ∧
      Filed state ∧ ∃ uses, QueueInv state uses := by
  refine shortInodeRun_of_safe (fun _ => True) (fun _ hinv => hinv.1) ?_
    ⟨filed_construct, [], queueInv_construct hn⟩ (fun _ _ => trivial) hmeet
  rintro state after ino short ⟨hfiled, uses, hqueue⟩ hino - hsafe hmap
  obtain ⟨slot, -, hfiled', hqueue', -⟩ :=
    filed_step hn ⟨hino, ino.isLt⟩ hfiled hqueue hsafe hmap
  exact ⟨hfiled', _, hqueue'⟩

/-- The slot a call has just used is the last of the queue. -/
theorem held_of_map (hn : 2 ≤ n) {state after : ShortInode n}
    {uses : List (Fin n)} {ino short : ℕ} (hino : Storable ino)
    (hfiled : Filed state) (hqueue : QueueInv state uses)
    (hsafe : RecycleSafe state ino)
    (hmap : shortInodeMap state ino = some (after, short))
    (others : Finset ℕ) :
    ∃ slot : Fin n, short = slot + 3 ∧ Held after slot ino others := by
  obtain ⟨slot, hshort, hfiled', hqueue', hocc, -⟩ :=
    filed_step hn hino hfiled hqueue hsafe hmap
  refine ⟨slot, hshort, hfiled', by simp [hocc], uses ++ [slot], _, [], hqueue',
    lastUse_snoc (List.nodup_finRange n), by simp⟩

/-- The slot keeps its inode while fewer than `n` others are mapped. -/
theorem held_run (hn : 2 ≤ n) {state : ShortInode n} {slot : Fin n} {ino : Inode}
    {between : List Inode}
    (hheld : Held state slot ino ((mappedInos between).image Fin.val))
    (hnot : ino ∉ between) (hcard : (mappedInos between).card < n)
    (hmeet : StepsMeet shortInodeStep
      (fun state (ino : Inode) => RecycleSafe state ino) state between) :
    ∃ final shorts, shortInodeRun state between = some (final, shorts) ∧
      Held final slot ino ((mappedInos between).image Fin.val) := by
  refine shortInodeRun_of_safe (· ∈ between) (fun _ hinv => hinv.filed) ?_
    hheld (fun _ h => h) hmeet
  intro state after other short hinv hother hcalled hsafe hmap
  have hmem : other.val ∈ (mappedInos between).image Fin.val := by
    refine Finset.mem_image_of_mem _ (List.mem_toFinset.mpr ?_)
    exact List.mem_filter.mpr ⟨hcalled, by simpa using hother⟩
  have hne : other.val ≠ ino.val := by
    intro heq
    exact hnot (Fin.ext heq ▸ hcalled)
  exact held_map hn hinv hmem (Finset.card_image_le.trans_lt hcard)
    ⟨hother, other.isLt⟩ hne hsafe hmap

/-- The answer to a call, as the table still gives it. -/
def Answers (state : ShortInode n) (ino : Inode) (short : ℕ) : Prop :=
  if shortInodeUnmapped < ino.val then
    ∃ slot : Fin n, short = slot + 3 ∧ state.occ slot = some ino.val
  else short = ino

/-- When all inodes of the run fit the table, a slot in use is never
recycled. -/
theorem Filed.oldest_free {state : ShortInode n} {uses : List (Fin n)}
    {ino : ℕ} {inos : Finset ℕ} (hfiled : Filed state)
    (hqueue : QueueInv state uses)
    (hstored : ∀ slot other, state.occ slot = some other → other ∈ inos)
    (hfit : inos.card ≤ n) (hmem : ino ∈ inos) (hino : Storable ino)
    (hmiss : Misses state ino) : state.occ state.oldest = none := by
  refine hqueue.oldest.1 ?_
  by_contra hfull
  push Not at hfull
  have hle : (Finset.univ : Finset (Fin n)).card ≤ (inos.erase ino).card := by
    refine hfiled.card_le fun slot _ => ?_
    obtain ⟨other, hocc⟩ := Option.ne_none_iff_exists'.mp (hfull slot)
    refine ⟨other, Finset.mem_erase.mpr ⟨?_, hstored slot other hocc⟩, hocc⟩
    rintro rfl
    exact hfiled.not_stored hino hmiss slot hocc
  rw [Finset.card_fin, Finset.card_erase_of_mem hmem] at hle
  have hpos := Finset.card_pos.mpr ⟨ino, hmem⟩
  omega

/-- One call of a run whose inodes fit the table: its inode gets a slot that held it
already or was free, so that no other one loses its slot. -/
theorem answers_step (hn : 2 ≤ n) {state : ShortInode n} {uses : List (Fin n)}
    {ino : Inode} {inos : Finset ℕ} (hfiled : Filed state) (hqueue : QueueInv state uses)
    (hstored : ∀ slot other, state.occ slot = some other → other ∈ inos)
    (hfit : inos.card ≤ n) (hino : shortInodeUnmapped < ino.val)
    (hmem : ino.val ∈ inos) :
    ∃ (after : ShortInode n) (slot : Fin n),
      shortInodeMap state ino = some (after, (slot : ℕ) + 3) ∧ Filed after ∧
      QueueInv after (uses ++ [slot]) ∧
      after.occ = Function.update state.occ slot (some ino.val) ∧
      ∀ other stored, state.occ other = some stored → after.occ other = some stored := by
  have hstorable : Storable ino := ⟨hino, ino.isLt⟩
  obtain ⟨after, short, hmap⟩ := hfiled.circles.map_isSome ino
  have hfree : Misses state ino → state.occ state.oldest = none :=
    hfiled.oldest_free hqueue hstored hfit hmem hstorable
  obtain ⟨slot, rfl, hfiled', hqueue', hocc, htaken⟩ :=
    filed_step hn hstorable hfiled hqueue
      (fun _ hmiss hused => absurd (hfree hmiss) hused) hmap
  refine ⟨after, slot, hmap, hfiled', hqueue', hocc, ?_⟩
  intro other stored hother
  rw [hocc]
  by_cases hsame : other = slot
  · subst hsame
    rcases htaken with hheld | hnone | ⟨hmiss, rfl⟩
    · simp [← hheld, hother]
    · simp [hnone] at hother
    · simp [hfree hmiss] at hother
  · rw [Function.update_of_ne hsame, hother]

/-- In a run whose inodes fit the table every answer stays valid to the end. -/
theorem answers_run (hn : 2 ≤ n) {state : ShortInode n} {uses : List (Fin n)}
    {calls : List Inode} {inos : Finset ℕ} (hfiled : Filed state)
    (hqueue : QueueInv state uses)
    (hstored : ∀ slot other, state.occ slot = some other → other ∈ inos)
    (hfit : inos.card ≤ n)
    (hcalls : ∀ ino ∈ calls, shortInodeUnmapped < ino.val → ino.val ∈ inos) :
    ∃ final shorts, shortInodeRun state calls = some (final, shorts) ∧
      Filed final ∧ List.Forall₂ (Answers final) calls shorts ∧
      ∀ slot other, state.occ slot = some other →
        final.occ slot = some other := by
  induction calls generalizing state uses with
  | nil => exact ⟨state, [], rfl, hfiled, .nil, fun _ _ h => h⟩
  | cons ino calls ih =>
      have hrest := fun other (hother : other ∈ calls) =>
        hcalls other (List.mem_cons_of_mem _ hother)
      by_cases hino : shortInodeUnmapped < ino.val
      · have hmem := hcalls ino List.mem_cons_self hino
        obtain ⟨after, slot, hmap, hfiled', hqueue', hocc, hgrows⟩ :=
          answers_step hn hfiled hqueue hstored hfit hino hmem
        have hstored' : ∀ other stored, after.occ other = some stored →
            stored ∈ inos := by
          intro other stored hother
          rw [hocc] at hother
          by_cases hsame : other = slot
          · obtain rfl : ino.val = stored := by simpa [hsame] using hother
            exact hmem
          · rw [Function.update_of_ne hsame] at hother
            exact hstored other stored hother
        obtain ⟨final, shorts, hrun, hfinal, hanswers, hkeeps⟩ :=
          ih hfiled' hqueue' hstored' hrest
        refine ⟨final, _, shortInodeRun_cons hmap hrun, hfinal,
          .cons ?_ hanswers,
          fun other stored hother => hkeeps _ _ (hgrows _ _ hother)⟩
        rw [Answers, if_pos hino]
        exact ⟨slot, rfl, hkeeps slot ino.val (by simp [hocc])⟩
      · obtain ⟨final, shorts, hrun, hfinal, hanswers, hkeeps⟩ :=
          ih hfiled hqueue hstored hrest
        refine ⟨final, _,
          shortInodeRun_cons (shortInodeMap_of_le (Nat.not_lt.mp hino)) hrun,
          hfinal, .cons ?_ hanswers, hkeeps⟩
        rw [Answers, if_neg hino]

/-- Answers to two calls agree exactly when their inodes do. -/
theorem Answers.eq_iff {state : ShortInode n} (hfiled : Filed state)
    {first second : Inode} {short short' : ℕ}
    (hfirst : Answers state first short)
    (hsecond : Answers state second short') :
    first = second ↔ short = short' := by
  rw [Answers] at hfirst hsecond
  have hval : first = second ↔ first.val = second.val := Fin.ext_iff
  have hunmapped : shortInodeUnmapped = 2 := rfl
  rw [hval]
  split at hfirst <;> split at hsecond
  · obtain ⟨slot, rfl, hocc⟩ := hfirst
    obtain ⟨slot', rfl, hocc'⟩ := hsecond
    constructor
    · intro heq
      rw [hfiled.unique slot slot' _ hocc (heq ▸ hocc')]
    · intro heq
      obtain rfl : slot = slot' := Fin.ext (by omega)
      exact Option.some.inj (hocc.symm.trans hocc')
  · obtain ⟨slot, rfl, -⟩ := hfirst
    omega
  · obtain ⟨slot, rfl, -⟩ := hsecond
    omega
  · omega

/-- The table of the program, given calls on at most as many inodes above 2 as
it has slots: two calls return the same number exactly when they are on the same
inode, an inode above 2 gets a number above 2 that fits 16 bits, and inodes up
to 2 are returned as they are. -/
theorem shortInode_injective_of_fit (calls : List Inode)
    (hfit : (mappedInos calls).card ≤ shortInodeMax) :
    ∃ (state : ShortInode shortInodeMax) (shorts : List ℕ),
      shortInodeRun (shortInodeConstruct shortInodeMax) calls =
        some (state, shorts) ∧
      List.Forall₂ (fun ino short =>
        (shortInodeUnmapped < ino.val → 3 ≤ short ∧ short ≤ 65535) ∧
          (ino.val ≤ shortInodeUnmapped → short = ino.val)) calls shorts ∧
      ∀ (i j : ℕ) ino ino' short short', calls[i]? = some ino →
        calls[j]? = some ino' → shorts[i]? = some short →
        shorts[j]? = some short' → (ino = ino' ↔ short = short') := by
  have hcalls : ∀ ino ∈ calls, shortInodeUnmapped < ino.val →
      ino.val ∈ (mappedInos calls).image Fin.val := by
    intro ino hmem hino
    refine Finset.mem_image_of_mem _ (List.mem_toFinset.mpr ?_)
    exact List.mem_filter.mpr ⟨hmem, by simpa using hino⟩
  have hempty : ∀ slot ino,
      (shortInodeConstruct shortInodeMax).occ slot = some ino →
      ino ∈ (mappedInos calls).image Fin.val := by
    simp [ShortInode.occ, shortInodeConstruct, shortInodeIsUnused]
  obtain ⟨state, shorts, hrun, hfiled, hanswers, -⟩ :=
    answers_run (by decide) filed_construct (queueInv_construct (by decide))
      hempty (Finset.card_image_le.trans hfit) hcalls
  refine ⟨state, shorts, hrun, hanswers.imp fun ino short hanswer => ?_, ?_⟩
  · rw [Answers] at hanswer
    split at hanswer
    · next hino =>
      obtain ⟨slot, rfl, -⟩ := hanswer
      have hslot := slot.isLt
      have hmax : shortInodeMax = 65533 := rfl
      exact ⟨fun _ => by omega, fun hle => absurd hino (Nat.not_lt.mpr hle)⟩
    · next hino => exact ⟨fun hlt => absurd hlt hino, fun _ => hanswer⟩
  · intro i j ino ino' short short' hino hino' hshort hshort'
    rw [List.forall₂_iff_get] at hanswers
    obtain ⟨hlength, hget⟩ := hanswers
    obtain ⟨hi, rfl⟩ := List.getElem?_eq_some_iff.mp hino
    obtain ⟨hj, rfl⟩ := List.getElem?_eq_some_iff.mp hino'
    obtain ⟨hi', rfl⟩ := List.getElem?_eq_some_iff.mp hshort
    obtain ⟨hj', rfl⟩ := List.getElem?_eq_some_iff.mp hshort'
    exact (hget i hi hi').eq_iff hfiled (hget j hj hj')

theorem shortInode_injective_two_calls :
    ∃ (state : ShortInode shortInodeMax) (shorts : List ℕ),
      shortInodeRun (shortInodeConstruct shortInodeMax) [7, 70000] =
        some (state, shorts) ∧ shorts[0]? ≠ shorts[1]? := by
  obtain ⟨state, shorts, hrun, hrange, hinjective⟩ :=
    shortInode_injective_of_fit [7, 70000]
      ((List.toFinset_card_le _).trans (by decide))
  refine ⟨state, shorts, hrun, fun heq => ?_⟩
  obtain ⟨short, rest, -, hone, rfl⟩ := List.forall₂_cons_left_iff.mp hrange
  obtain ⟨short', rest', -, -, rfl⟩ := List.forall₂_cons_left_iff.mp hone
  have hsame : (7 : Inode) = 70000 :=
    (hinjective 0 1 7 70000 short short' rfl rfl rfl rfl).mpr (by simpa using heq)
  exact absurd hsame (by decide)

/-- Inode 2 is not mapped at all. -/
theorem shortInode_returns_unmapped :
    ¬ ∀ calls : List Inode, (mappedInos calls).card ≤ shortInodeMax →
      ∀ (state : ShortInode shortInodeMax) shorts,
        shortInodeRun (shortInodeConstruct shortInodeMax) calls =
          some (state, shorts) →
        ∀ short ∈ shorts, 3 ≤ short ∧ short ≤ 65535 := by
  intro hall
  have hmap : shortInodeMap (shortInodeConstruct shortInodeMax) (2 : Inode) =
      some (shortInodeConstruct shortInodeMax, (2 : Inode).val) :=
    shortInodeMap_of_le (by decide)
  have hrange := hall [2] ((List.toFinset_card_le _).trans (by decide)) _ _
    (shortInodeRun_cons hmap rfl) 2 (by decide)
  exact absurd hrange (by decide)

end IbcsUs.Inodes
