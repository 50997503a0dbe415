import Mathlib.Data.BitVec
import Mathlib.Data.List.Chain
import Mathlib.Data.Nat.Cast.Order.Ring
import Mathlib.Order.Nat

/-!
# Chains in ascending order

A singly linked list whose links only go up is described by the list of its
entries.  The operations on such a list are writes of one link: passing over an
entry, putting an entry in, and appending one at the end.  `Chain next entries`
says that `entries` are linked in this order, and each operation has a lemma
that says which entries the written links chain.
-/

namespace IbcsUs.Core

variable {α : Type*} [LinearOrder α]

/-- Each entry links to the following one, which is above it. -/
def Chain (next : α → α) (entries : List α) : Prop :=
  entries.IsChain fun first second => next first = second ∧ first < second

namespace Chain

variable {next next' : α → α} {entries front back : List α} {entry other : α}

theorem pairwise (hchain : Chain next entries) : entries.Pairwise (· < ·) :=
  (List.IsChain.imp (fun _ _ hlink => hlink.2) hchain).pairwise

theorem nodup (hchain : Chain next entries) : entries.Nodup :=
  hchain.pairwise.imp fun hlt => hlt.ne

/-- A chain cut at one of its entries. -/
theorem append_cons_iff :
    Chain next (front ++ entry :: back) ↔
      Chain next (front ++ [entry]) ∧ Chain next (entry :: back) :=
  List.isChain_split

theorem cons_cons_iff :
    Chain next (entry :: other :: back) ↔
      (next entry = other ∧ entry < other) ∧ Chain next (other :: back) :=
  List.isChain_cons_cons

/-- Only the links of the entries matter. -/
theorem congr (hchain : Chain next entries)
    (hsame : ∀ entry ∈ entries, next' entry = next entry) :
    Chain next' entries := by
  refine hchain.imp_of_mem_imp ?_
  rintro first second hfirst - ⟨hnext, hlt⟩
  exact ⟨(hsame first hfirst).trans hnext, hlt⟩

/-- The link of the last entry does not matter. -/
theorem congr_front (hchain : Chain next (front ++ [entry]))
    (hsame : ∀ other ∈ front, next' other = next other) :
    Chain next' (front ++ [entry]) := by
  have hlast : entry ∉ front := by
    have hnodup := hchain.nodup
    rw [List.nodup_append] at hnodup
    intro hmem
    exact hnodup.2.2 entry hmem entry (by simp) rfl
  refine hchain.imp_of_mem_imp ?_
  rintro first second hfirst hsecond ⟨hnext, hlt⟩
  refine ⟨?_, hlt⟩
  rcases List.mem_append.mp hfirst with hmem | hmem
  · exact (hsame first hmem).trans hnext
  -- nothing in the chain is above its last entry
  · obtain rfl : first = entry := by simpa using hmem
    rcases List.mem_append.mp hsecond with hmem' | hmem'
    · have hpairwise := hchain.pairwise
      rw [List.pairwise_append] at hpairwise
      exact absurd (hpairwise.2.2 second hmem' first (by simp)) hlt.not_gt
    · obtain rfl : second = first := by simpa using hmem'
      exact absurd hlt (lt_irrefl _)

theorem lt_of_front (hchain : Chain next (front ++ entry :: back))
    (hmem : other ∈ front) : other < entry := by
  have hpairwise := hchain.pairwise
  rw [List.pairwise_append] at hpairwise
  exact hpairwise.2.2 other hmem entry List.mem_cons_self

theorem lt_of_back (hchain : Chain next (front ++ entry :: back))
    (hmem : other ∈ back) : entry < other := by
  have hpairwise := hchain.pairwise
  rw [List.pairwise_append] at hpairwise
  exact (List.pairwise_cons.mp hpairwise.2.1).1 other hmem

/-- The entry an entry links to is the next one above it. -/
theorem next_le (hchain : Chain next entries) (hentry : entry ∈ entries)
    (hother : other ∈ entries) (hlt : entry < other) : next entry ≤ other := by
  obtain ⟨front, back, rfl⟩ := List.append_of_mem hentry
  rcases List.mem_append.mp hother with hmem | hmem
  · exact absurd (hchain.lt_of_front hmem) hlt.not_gt
  rcases List.mem_cons.mp hmem with rfl | hmem
  · exact absurd hlt (lt_irrefl _)
  rcases back with _ | ⟨second, back⟩
  · simp at hmem
  obtain ⟨⟨hnext, -⟩, -⟩ := cons_cons_iff.mp (append_cons_iff.mp hchain).2
  rw [hnext]
  rcases List.mem_cons.mp hmem with rfl | hmem
  · exact le_rfl
  · rw [List.append_cons] at hchain
    exact (hchain.lt_of_back hmem).le

/-- An entry that is not the last links to an entry above it. -/
theorem next_mem (hchain : Chain next entries) (hentry : entry ∈ entries)
    (hlast : entries.getLast? ≠ some entry) :
    next entry ∈ entries ∧ entry < next entry := by
  obtain ⟨front, back, rfl⟩ := List.append_of_mem hentry
  rcases back with _ | ⟨second, back⟩
  · simp at hlast
  obtain ⟨⟨hnext, hlt⟩, -⟩ := cons_cons_iff.mp (append_cons_iff.mp hchain).2
  rw [hnext]
  exact ⟨by simp, hlt⟩

variable [DecidableEq α]

/-- Linking an entry to the one after its successor passes over the
successor. -/
theorem pass {second third : α}
    (hchain : Chain next (front ++ entry :: second :: third :: back)) :
    Chain (Function.update next entry third) (front ++ entry :: third :: back) := by
  have hlt : ∀ other ∈ front, other < entry := fun _ => hchain.lt_of_front
  obtain ⟨hfront, hback⟩ := append_cons_iff.mp hchain
  obtain ⟨⟨-, hfirst⟩, hrest⟩ := cons_cons_iff.mp hback
  obtain ⟨⟨-, hsecond⟩, htail⟩ := cons_cons_iff.mp hrest
  refine append_cons_iff.mpr ⟨hfront.congr_front fun other hmem => ?_,
    cons_cons_iff.mpr ⟨⟨by simp, hfirst.trans hsecond⟩, htail.congr ?_⟩⟩
  · rw [Function.update_of_ne (hlt other hmem).ne]
  · intro other hmem
    refine Function.update_of_ne (ne_of_gt ?_) _ _
    rcases List.mem_cons.mp hmem with rfl | hmem
    · exact hfirst.trans hsecond
    · exact hchain.lt_of_back (by simp [hmem])

/-- Two links put a new entry between an entry and its successor. -/
theorem insert {middle second : α}
    (hchain : Chain next (front ++ entry :: second :: back))
    (habove : entry < middle) (hbelow : middle < second) :
    Chain (Function.update (Function.update next middle second) entry middle)
      (front ++ entry :: middle :: second :: back) := by
  have hlt : ∀ other ∈ front, other < entry := fun _ => hchain.lt_of_front
  obtain ⟨hfront, hback⟩ := append_cons_iff.mp hchain
  obtain ⟨-, htail⟩ := cons_cons_iff.mp hback
  refine append_cons_iff.mpr ⟨hfront.congr_front fun other hmem => ?_,
    cons_cons_iff.mpr ⟨⟨by simp, habove⟩,
      cons_cons_iff.mpr ⟨⟨?_, hbelow⟩, htail.congr fun other hmem => ?_⟩⟩⟩
  · rw [Function.update_of_ne (hlt other hmem).ne,
      Function.update_of_ne ((hlt other hmem).trans habove).ne]
  · rw [Function.update_of_ne habove.ne', Function.update_self]
  · have hge : second ≤ other := by
      rcases List.mem_cons.mp hmem with rfl | hmem
      · exact le_rfl
      · rw [List.append_cons] at hchain
        exact (hchain.lt_of_back hmem).le
    rw [Function.update_of_ne (habove.trans (hbelow.trans_le hge)).ne',
      Function.update_of_ne (hbelow.trans_le hge).ne']

/-- One link appends an entry above the last. -/
theorem snoc (hchain : Chain next (front ++ [entry])) (hlt : entry < other) :
    Chain (Function.update next entry other) (front ++ [entry, other]) := by
  have hbelow : ∀ first ∈ front, first < entry := fun _ => hchain.lt_of_front
  refine append_cons_iff.mpr ⟨hchain.congr_front fun first hmem => ?_,
    cons_cons_iff.mpr ⟨⟨by simp, hlt⟩, List.isChain_singleton _⟩⟩
  rw [Function.update_of_ne (hbelow first hmem).ne]

end Chain

end IbcsUs.Core
