import Mathlib.Data.BitVec
import Mathlib.Data.Fintype.Pigeonhole
import Mathlib.Data.List.Chain
import Mathlib.Data.Nat.Cast.Order.Ring
import Mathlib.Logic.Relation
import Mathlib.Order.Nat

/-!
# Doubly linked circles in an array of links

A table whose entries carry a forward and a backward link is a pair of functions
on its index type, changed by one primitive operation: join two entries.  Two
views of such links are developed.  `Links.IsRing` lists one whole circle and
supports moving an entry to the end of the list.  `Links.Circles` speaks of any
number of circles through the entries in use, whose links undo each other, and
supports taking an entry out and putting one in.  `lastUse` is the order in
which a list of uses leaves the entries of a table when each use moves its entry
to the end.
-/

namespace IbcsUs.Core

variable {α : Type*}

/-- The forward and backward links of a table indexed by `α`. -/
structure Links (α : Type*) where
  next : α → α
  prev : α → α

namespace Links

variable (links : Links α)

/-- The two entries are linked both ways. -/
def Linked (first second : α) : Prop :=
  links.next first = second ∧ links.prev second = first

/-- Following the forward links from one entry reaches the other. -/
def Reaches : α → α → Prop :=
  Relation.ReflTransGen fun first second => links.next first = second

variable [DecidableEq α]

/-- Make `second` the entry after `first`. -/
def join (first second : α) : Links α :=
  ⟨Function.update links.next first second,
    Function.update links.prev second first⟩

/-- Join the neighbours of an entry. -/
def unlink (entry : α) : Links α :=
  links.join (links.prev entry) (links.next entry)

/-- Put an entry between `head` and the entry before it. -/
def linkBefore (head entry : α) : Links α :=
  (links.join (links.prev head) entry).join entry head

/-- Put an entry between `head` and the entry after it. -/
def linkAfter (head entry : α) : Links α :=
  (links.join entry (links.next head)).join head entry

/-! ## One circle, as a list -/

omit [DecidableEq α] in
/-- The list is one circle: its neighbours are linked, and its last entry is
linked to its first. -/
def IsRing (entries : List α) : Prop :=
  entries.IsChain links.Linked ∧
    ∀ last ∈ entries.getLast?, ∀ head ∈ entries.head?, links.Linked last head

variable {links}

omit [DecidableEq α] in
/-- A circle may be read starting at any of its entries. -/
theorem IsRing.rotate {front back : List α}
    (hring : links.IsRing (front ++ back)) : links.IsRing (back ++ front) := by
  by_cases hfront : front = []
  · simpa [hfront] using hring
  by_cases hback : back = []
  · simpa [hback] using hring
  obtain ⟨hchain, hclose⟩ := hring
  obtain ⟨hfrontChain, hbackChain, hseam⟩ := List.isChain_append.mp hchain
  rw [List.getLast?_append_of_ne_nil _ hback,
    List.head?_append_of_ne_nil _ hfront] at hclose
  refine ⟨List.isChain_append.mpr ⟨hbackChain, hfrontChain, hclose⟩, ?_⟩
  rw [List.getLast?_append_of_ne_nil _ hfront,
    List.head?_append_of_ne_nil _ hback]
  exact hseam

/-- Taking out the first entry of a circle leaves the circle of the others. -/
theorem IsRing.unlink_head {entry : α} {rest : List α}
    (hring : links.IsRing (entry :: rest)) (hnodup : (entry :: rest).Nodup) :
    (links.unlink entry).IsRing rest := by
  obtain ⟨hchain, hclose⟩ := hring
  have hout : entry ∉ rest := (List.nodup_cons.mp hnodup).1
  rcases rest with _ | ⟨head, rest⟩
  · simp [IsRing]
  obtain ⟨⟨hnext, hprevHead⟩, hrest⟩ := List.isChain_cons_cons.mp hchain
  refine ⟨hrest.imp_of_mem_imp ?_, ?_⟩
  -- an inner link starts at neither neighbour of the entry taken out
  · rintro first second hfirst hsecond ⟨hforward, hbackward⟩
    have hne : first ≠ links.prev entry := by
      rintro rfl
      have hlast := hclose _ (List.getLast?_eq_some_getLast (List.cons_ne_nil _ _))
        entry rfl
      have hback : links.next (links.prev entry) = entry := by
        rw [hlast.2]
        exact hlast.1
      rw [hback] at hforward
      exact hout (hforward ▸ hsecond)
    have hne' : second ≠ links.next entry := by
      rw [hnext]
      rintro rfl
      rw [hprevHead] at hbackward
      exact hout (hbackward ▸ hfirst)
    simp [Linked, unlink, join, Function.update_of_ne hne,
      Function.update_of_ne hne', hforward, hbackward]
  · intro last hlast start hstart
    have hclosing := hclose last (by simpa using hlast) entry rfl
    obtain rfl : head = start := by simpa using hstart
    simp [Linked, unlink, join, hnext, hclosing.2]

/-- Putting an entry between the last and the first of a circle appends it. -/
theorem IsRing.linkBefore_head {head entry : α} {rest : List α}
    (hring : links.IsRing (head :: rest)) (hnodup : (head :: rest).Nodup)
    (hfresh : entry ∉ head :: rest) :
    (links.linkBefore head entry).IsRing (head :: rest ++ [entry]) := by
  obtain ⟨hchain, hclose⟩ := hring
  obtain ⟨last, hlast⟩ : ∃ last, last ∈ (head :: rest).getLast? :=
    ⟨_, List.getLast?_eq_some_getLast (List.cons_ne_nil _ _)⟩
  obtain ⟨hforward, hbackward⟩ := hclose last hlast head rfl
  have hlastMem : last ∈ head :: rest := List.mem_of_getLast? hlast
  have hheadNe : head ≠ entry := fun h => hfresh (h ▸ List.mem_cons_self)
  have hlastNe : last ≠ entry := fun h => hfresh (h ▸ hlastMem)
  refine ⟨List.isChain_append.mpr ⟨hchain.imp_of_mem_tail_imp ?_, by simp, ?_⟩, ?_⟩
  · rintro first second hfirst hsecond ⟨hnext, hprev⟩
    have hsecondMem : second ∈ rest := by simpa using hsecond
    have hsecondHead : second ≠ head := by
      rintro rfl
      exact (List.nodup_cons.mp hnodup).1 hsecondMem
    have hsecondEntry : second ≠ entry :=
      fun h => hfresh (h ▸ List.mem_cons_of_mem _ hsecondMem)
    have hfirstEntry : first ≠ entry := fun h => hfresh (h ▸ hfirst)
    have hfirstLast : first ≠ last := by
      rintro rfl
      exact hsecondHead (hnext.symm.trans hforward)
    simp [Linked, linkBefore, join, hbackward, Function.update_of_ne hfirstEntry,
      Function.update_of_ne hfirstLast, Function.update_of_ne hsecondHead,
      Function.update_of_ne hsecondEntry, hnext, hprev]
  · intro final hfinal start hstart
    obtain rfl : last = final := Option.mem_unique hlast hfinal
    obtain rfl : entry = start := by simpa using hstart
    simp [Linked, linkBefore, join, hbackward, Function.update_of_ne hlastNe,
      Function.update_of_ne hheadNe.symm]
  · intro final hfinal start hstart
    rw [List.getLast?_append_of_ne_nil _ (by simp)] at hfinal
    obtain rfl : entry = final := by simpa using hfinal
    obtain rfl : head = start := by simpa using hstart
    simp [Linked, linkBefore, join]

/-- Unlink an entry of a circle and put it back before the first of the others:
the entry moves to the end of the list. -/
theorem IsRing.moveToEnd {head entry : α} {entries : List α}
    (hring : links.IsRing entries) (hnodup : entries.Nodup)
    (hhead : entries.head? = some head) (hmem : entry ∈ entries)
    (htwo : 2 ≤ entries.length) :
    let start := if entry = head then links.next entry else head
    (entries.erase entry ++ [entry]).head? = some start ∧
      ((links.unlink entry).linkBefore start entry).IsRing
        (entries.erase entry ++ [entry]) := by
  obtain ⟨front, back, rfl⟩ := List.append_of_mem hmem
  have hnotFront : entry ∉ front := by
    intro hfront
    exact (List.disjoint_of_nodup_append hnodup) hfront List.mem_cons_self
  have herase : (front ++ entry :: back).erase entry = front ++ back := by
    rw [List.erase_append_right _ hnotFront, List.erase_cons_head]
  -- rotate the entry to the front, take it out, and rotate back
  have hperm : (entry :: back ++ front).Nodup :=
    (List.perm_append_comm.nodup_iff).mp hnodup
  have hout := IsRing.rotate (hring.rotate.unlink_head hperm)
  have hrest : (front ++ back).Nodup :=
    (List.perm_append_comm.nodup_iff).mp (List.nodup_cons.mp hperm).2
  have hfresh : entry ∉ front ++ back := by
    have hnotMem := (List.nodup_cons.mp hperm).1
    simpa [or_comm] using hnotMem
  rw [herase]
  obtain ⟨start, rest, hsplit⟩ : ∃ start rest, front ++ back = start :: rest := by
    cases hlist : front ++ back with
    | nil => simp_all
    | cons start rest => exact ⟨start, rest, rfl⟩
  have hstart : (if entry = head then links.next entry else head) = start := by
    cases front with
    | nil =>
        obtain rfl : entry = head := by simpa using hhead
        obtain rfl : back = start :: rest := by simpa using hsplit
        rw [if_pos rfl]
        exact (List.isChain_cons_cons.mp hring.1).1.1
    | cons first front =>
        obtain rfl : first = head := by simpa using hhead
        obtain ⟨rfl, -⟩ : first = start ∧ front ++ back = rest := by
          simpa using hsplit
        rw [if_neg]
        rintro rfl
        exact hnotFront List.mem_cons_self
  simp only [hstart]
  rw [hsplit] at hout hrest hfresh ⊢
  exact ⟨rfl, hout.linkBefore_head hrest hfresh⟩

omit [DecidableEq α] in
/-- Walking a circle from its first entry lists it. -/
theorem IsRing.iterate_next {head : α} {entries : List α}
    (hring : links.IsRing entries) (hhead : entries.head? = some head) :
    List.iterate links.next head entries.length = entries := by
  have hwalk : ∀ {head : α} {rest : List α},
      (head :: rest).IsChain links.Linked →
      List.iterate links.next head (rest.length + 1) = head :: rest := by
    intro head rest hchain
    induction rest generalizing head with
    | nil => rfl
    | cons second rest ih =>
        obtain ⟨⟨hnext, -⟩, htail⟩ := List.isChain_cons_cons.mp hchain
        rw [List.iterate, hnext, List.length_cons, ih htail]
  obtain ⟨rest, rfl⟩ := List.head?_eq_some_iff.mp hhead
  exact hwalk hring.1

/-! ## Any number of circles -/

omit [DecidableEq α] in
/-- The links of the entries in use stay among them and undo each other. -/
structure Circles (links : Links α) (used : α → Prop) : Prop where
  next_used : ∀ entry, used entry → used (links.next entry)
  prev_used : ∀ entry, used entry → used (links.prev entry)
  prev_next : ∀ entry, used entry → links.prev (links.next entry) = entry
  next_prev : ∀ entry, used entry → links.next (links.prev entry) = entry

variable {used : α → Prop}

omit [DecidableEq α] in
theorem Circles.congr_used {used' : α → Prop} (hcircles : links.Circles used)
    (hsame : ∀ entry, used entry ↔ used' entry) : links.Circles used' := by
  obtain rfl : used = used' := funext fun entry => propext (hsame entry)
  exact hcircles

omit [DecidableEq α] in
/-- Every entry reached from another is some number of steps away. -/
theorem Reaches.exists_iterate {first second : α}
    (hreaches : links.Reaches first second) :
    ∃ count, links.next^[count] first = second := by
  induction hreaches with
  | refl => exact ⟨0, rfl⟩
  | tail _ hstep ih =>
      obtain ⟨count, hcount⟩ := ih
      exact ⟨count + 1, by rw [Function.iterate_succ_apply', hcount, hstep]⟩

omit [DecidableEq α] in
theorem reaches_iterate (first : α) (count : ℕ) :
    links.Reaches first (links.next^[count] first) := by
  induction count with
  | zero => exact .refl
  | succ count ih => exact ih.tail (Function.iterate_succ_apply' _ _ _).symm

omit [DecidableEq α] in
theorem Circles.iterate_used (hcircles : links.Circles used) {entry : α}
    (hused : used entry) (count : ℕ) : used (links.next^[count] entry) := by
  induction count with
  | zero => exact hused
  | succ count ih =>
      rw [Function.iterate_succ_apply']
      exact hcircles.next_used _ ih

omit [DecidableEq α] in
theorem Circles.iterate_prev_next (hcircles : links.Circles used) {entry : α}
    (hused : used entry) (count extra : ℕ) :
    links.prev^[count] (links.next^[count + extra] entry) =
      links.next^[extra] entry := by
  induction count with
  | zero => simp
  | succ count ih =>
      rw [Nat.succ_add, Function.iterate_succ_apply' links.next,
        Function.iterate_succ_apply links.prev,
        hcircles.prev_next _ (hcircles.iterate_used hused _), ih]

omit [DecidableEq α] in
/-- In a finite table following the forward links from an entry in use comes
back to it, within as many steps as the table has entries. -/
theorem Circles.returns [Fintype α] (hcircles : links.Circles used) {entry : α}
    (hused : used entry) :
    ∃ count, 0 < count ∧ count ≤ Fintype.card α ∧
      links.next^[count] entry = entry := by
  obtain ⟨first, second, hne, heq⟩ := Fintype.exists_ne_map_eq_of_card_lt
    (fun index : Fin (Fintype.card α + 1) => links.next^[index.val] entry)
    (by simp)
  wlog hlt : first < second generalizing first second
  · exact this second first hne.symm heq.symm
      (lt_of_le_of_ne (not_lt.mp hlt) hne.symm)
  have hval : first.val < second.val := hlt
  refine ⟨second.val - first.val, by omega, by omega, ?_⟩
  have hback := congrArg (links.prev^[first.val]) heq
  have hsplit : second.val = first.val + (second.val - first.val) := by omega
  rw [hsplit] at hback
  have hzero := hcircles.iterate_prev_next hused first.val 0
  simp only [Nat.add_zero] at hzero
  rw [hcircles.iterate_prev_next hused, hzero] at hback
  exact hback.symm

omit [DecidableEq α] in
theorem Circles.reaches_used (hcircles : links.Circles used) {first second : α}
    (hused : used first) (hreaches : links.Reaches first second) :
    used second := by
  induction hreaches with
  | refl => exact hused
  | tail _ hstep ih => exact hstep ▸ hcircles.next_used _ ih

omit [DecidableEq α] in
/-- On a circle every entry reached reaches back. -/
theorem Circles.reaches_symm [Fintype α] (hcircles : links.Circles used)
    {first second : α} (hused : used first)
    (hreaches : links.Reaches first second) : links.Reaches second first := by
  induction hreaches with
  | refl => exact .refl
  | @tail middle stop hmiddle hstep ih =>
      obtain ⟨count, hpos, -, hreturn⟩ :=
        hcircles.returns (hcircles.reaches_used hused hmiddle)
      obtain ⟨rest, rfl⟩ := Nat.exists_eq_succ_of_ne_zero hpos.ne'
      rw [Function.iterate_succ_apply, hstep] at hreturn
      have hback : links.Reaches stop _ := reaches_iterate stop rest
      rw [hreturn] at hback
      exact hback.trans ih

/-- An entry alone on its circle may be taken out and put back. -/
theorem unlink_linkAfter_self {entry : α} (hnext : links.next entry = entry)
    (hprev : links.prev entry = entry) :
    (links.unlink entry).linkAfter entry entry = links := by
  have hforward := Function.update_eq_self entry links.next
  have hbackward := Function.update_eq_self entry links.prev
  rw [hnext] at hforward
  rw [hprev] at hbackward
  simp [Links.unlink, Links.linkAfter, join, hnext, hprev, hforward, hbackward]

/-- Taking out an entry leaves the circles of the others. -/
theorem Circles.unlink (hcircles : links.Circles used) {entry : α}
    (hentry : used entry) :
    (links.unlink entry).Circles fun other => used other ∧ other ≠ entry := by
  have hpn := hcircles.prev_next
  have hnp := hcircles.next_prev
  have hnu := hcircles.next_used
  have hpu := hcircles.prev_used
  constructor <;> rintro other ⟨hused, hne⟩ <;>
    simp only [Links.unlink, join, Function.update_apply] <;> grind

/-- An entry not in use joins the circle of the entry it is put after. -/
theorem Circles.linkAfter (hcircles : links.Circles used) {head entry : α}
    (hhead : used head) (hentry : ¬ used entry) :
    (links.linkAfter head entry).Circles
      fun other => used other ∨ other = entry := by
  have hpn := hcircles.prev_next
  have hnp := hcircles.next_prev
  have hnu := hcircles.next_used
  have hpu := hcircles.prev_used
  constructor <;> intro other hother <;>
    simp only [Links.linkAfter, join, Function.update_apply] <;> grind

/-- An entry not in use that is joined to itself is a circle of its own. -/
theorem Circles.joinSelf (hcircles : links.Circles used) {entry : α}
    (hentry : ¬ used entry) :
    (links.join entry entry).Circles fun other => used other ∨ other = entry := by
  have hpn := hcircles.prev_next
  have hnp := hcircles.next_prev
  have hnu := hcircles.next_used
  have hpu := hcircles.prev_used
  constructor <;> intro other hother <;>
    simp only [join, Function.update_apply] <;> grind

/-- Entries other than the one taken out still reach each other. -/
theorem Circles.reaches_unlink (hcircles : links.Circles used)
    {entry first second : α} (hentry : used entry) (hfirst : used first)
    (hne : first ≠ entry) (hsecond : second ≠ entry)
    (hreaches : links.Reaches first second) :
    (links.unlink entry).Reaches first second := by
  -- a path that stops at the entry taken out is followed up to the one before
  suffices hpath : ∀ stop, links.Reaches first stop →
      (links.unlink entry).Reaches first
        (if stop = entry then links.prev entry else stop) by
    simpa [hsecond] using hpath second hreaches
  intro stop hstop
  induction hstop with
  | refl => rw [if_neg hne]; exact .refl
  | @tail middle stop hmiddle hstep ih =>
      have hmiddleUsed := hcircles.reaches_used hfirst hmiddle
      have hback := hcircles.prev_next _ hmiddleUsed
      by_cases hmid : middle = entry
      · subst hmid
        rw [if_pos rfl] at ih
        by_cases hstopEq : stop = middle
        · rw [if_pos hstopEq]
          exact ih
        · rw [if_neg hstopEq]
          refine ih.tail ?_
          simp [Links.unlink, join, hstep]
      · rw [if_neg hmid] at ih
        by_cases hstopEq : stop = entry
        · rw [if_pos hstopEq]
          rw [hstep, hstopEq] at hback
          rw [hback]
          exact ih
        · rw [if_neg hstopEq]
          refine ih.tail ?_
          have hneq : middle ≠ links.prev entry := by
            rintro rfl
            exact hstopEq (hstep ▸ hcircles.next_prev _ hentry)
          simp [Links.unlink, join, Function.update_of_ne hneq, hstep]

/-- Entries in use still reach each other once another has been put in. -/
theorem Circles.reaches_linkAfter (hcircles : links.Circles used)
    {head entry first second : α} (hentry : ¬ used entry) (hfirst : used first)
    (hreaches : links.Reaches first second) :
    (links.linkAfter head entry).Reaches first second := by
  induction hreaches with
  | refl => exact .refl
  | @tail middle stop hmiddle hstep ih =>
      have hmiddleUsed := hcircles.reaches_used hfirst hmiddle
      have hne : middle ≠ entry := by
        rintro rfl
        exact hentry hmiddleUsed
      by_cases hhead : middle = head
      · subst hhead
        refine (ih.tail (c := entry) ?_).tail ?_
        · simp [Links.linkAfter, join]
        · simp [Links.linkAfter, join, Function.update_of_ne hne.symm, hstep]
      · refine ih.tail ?_
        simp [Links.linkAfter, join, Function.update_of_ne hhead,
          Function.update_of_ne hne, hstep]

theorem reaches_linkAfter_self (head entry : α) :
    (links.linkAfter head entry).Reaches head entry :=
  .single (by simp [Links.linkAfter, join])

/-- Joining an entry not in use to itself changes no path between the others. -/
theorem Circles.reaches_joinSelf (hcircles : links.Circles used)
    {entry first second : α} (hentry : ¬ used entry) (hfirst : used first)
    (hreaches : links.Reaches first second) :
    (links.join entry entry).Reaches first second := by
  induction hreaches with
  | refl => exact .refl
  | @tail middle stop hmiddle hstep ih =>
      have hne : middle ≠ entry := by
        rintro rfl
        exact hentry (hcircles.reaches_used hfirst hmiddle)
      refine ih.tail ?_
      simp [join, Function.update_of_ne hne, hstep]

end Links

/-! ## The order of last use -/

section LastUse

variable [DecidableEq α]

/-- The entries never used, in their own order, then the used ones in the order
of their last use. -/
def lastUse (entries uses : List α) : List α :=
  entries.filter (· ∉ uses) ++ uses.dedup

theorem dedup_snoc (uses : List α) (entry : α) :
    (uses ++ [entry]).dedup = uses.dedup.erase entry ++ [entry] := by
  induction uses with
  | nil => simp
  | cons first uses ih =>
      by_cases hfirst : first ∈ uses
      · rw [List.cons_append, List.dedup_cons_of_mem (by simp [hfirst]), ih,
          List.dedup_cons_of_mem hfirst]
      by_cases heq : first = entry
      · subst heq
        have hnot : first ∉ uses.dedup := by simpa using hfirst
        rw [List.cons_append, List.dedup_cons_of_mem (by simp), ih,
          List.dedup_cons_of_notMem hfirst, List.erase_cons_head,
          List.erase_of_not_mem hnot]
      · rw [List.cons_append, List.dedup_cons_of_notMem (by simp [hfirst, heq]),
          ih, List.dedup_cons_of_notMem hfirst,
          List.erase_cons_tail (by simpa using heq), List.cons_append]

/-- One more use moves its entry to the end. -/
theorem lastUse_snoc {entries uses : List α} {entry : α}
    (hnodup : entries.Nodup) :
    lastUse entries (uses ++ [entry]) =
      (lastUse entries uses).erase entry ++ [entry] := by
  have hfilter : entries.filter (· ∉ uses ++ [entry]) =
      (entries.filter (· ∉ uses)).erase entry := by
    rw [(hnodup.filter _).erase_eq_filter, List.filter_filter]
    apply List.filter_congr
    intro other _
    by_cases hother : other = entry <;> simp [hother]
  simp only [lastUse]
  rw [hfilter, dedup_snoc]
  by_cases hused : entry ∈ uses
  · have hnot : entry ∉ entries.filter (· ∉ uses) := by simp [hused]
    rw [List.erase_append_right _ hnot, List.erase_of_not_mem hnot,
      List.append_assoc]
  · have hnot : entry ∉ uses.dedup := by simpa using hused
    rw [List.erase_of_not_mem hnot]
    by_cases hmem : entry ∈ entries.filter (· ∉ uses)
    · rw [List.erase_append_left _ hmem, List.append_assoc]
    · rw [List.erase_append_right _ hmem, List.erase_of_not_mem hnot,
        List.erase_of_not_mem hmem, List.append_assoc]

theorem mem_lastUse {entries uses : List α} {entry : α}
    (hmem : entry ∈ entries) : entry ∈ lastUse entries uses := by
  by_cases hused : entry ∈ uses <;> simp [lastUse, hused, hmem]

theorem nodup_lastUse {entries uses : List α} (hnodup : entries.Nodup) :
    (lastUse entries uses).Nodup := by
  refine List.Nodup.append (hnodup.filter _) (List.nodup_dedup _) ?_
  intro entry hunused hused
  simp_all

end LastUse

end IbcsUs.Core
