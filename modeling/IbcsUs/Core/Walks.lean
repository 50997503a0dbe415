import Mathlib.Data.BitVec
import Mathlib.Data.Nat.Cast.Order.Ring
import Mathlib.Order.Nat

/-!
# Lists that are walked

A list in memory is where a walk from its first entry leads that follows the links until it
comes to the stop: a null pointer, or the head of a circular list.  What a write of one
link does to a list is a lemma for each place the link can be in.
-/

namespace IbcsUs.Core

variable {Node : Type*}

/-- The walk from `first` meets the entries in order and comes to the stop. -/
def Walks (next : Node → Node) (stop : Node) : Node → List Node → Prop
  | first, [] => first = stop
  | first, entry :: entries => first = entry ∧ entry ≠ stop ∧ Walks next stop (next entry) entries

namespace Walks

variable {next : Node → Node} {stop first entry : Node} {entries others front back : List Node}

theorem nil_iff : Walks next stop first [] ↔ first = stop := Iff.rfl

theorem ne_stop (hwalk : Walks next stop first entries) : stop ∉ entries := by
  induction entries generalizing first with
  | nil => exact List.not_mem_nil
  | cons head entries ih =>
      obtain ⟨-, hne, hrest⟩ := hwalk
      rw [List.mem_cons, not_or]
      exact ⟨hne.symm, ih hrest⟩

/-- A walk has one list of entries only. -/
theorem unique (hwalk : Walks next stop first entries)
    (hother : Walks next stop first others) : entries = others := by
  induction entries generalizing first others with
  | nil =>
      cases others with
      | nil => rfl
      | cons head others => exact absurd (hother.1.symm.trans hwalk) hother.2.1
  | cons head entries ih =>
      obtain ⟨rfl, hne, hrest⟩ := hwalk
      cases others with
      | nil => exact absurd hother hne
      | cons other others =>
          obtain ⟨rfl, -, hrest'⟩ := hother
          rw [ih hrest hrest']

/-- Behind an entry the walk goes on with what stands behind it in the list. -/
theorem of_append (hwalk : Walks next stop first (front ++ entry :: back)) :
    Walks next stop entry (entry :: back) := by
  induction front generalizing first with
  | nil =>
      obtain ⟨rfl, hne, hrest⟩ := hwalk
      exact ⟨rfl, hne, hrest⟩
  | cons head front ih => exact ih hwalk.2.2

/-- A walk that comes to the stop meets no entry twice. -/
theorem nodup (hwalk : Walks next stop first entries) : entries.Nodup := by
  induction entries generalizing first with
  | nil => exact List.nodup_nil
  | cons head entries ih =>
      refine List.nodup_cons.mpr ⟨fun hmem => ?_, ih hwalk.2.2⟩
      obtain ⟨front, back, rfl⟩ := List.append_of_mem hmem
      -- the walk from the second meeting on is the walk from the first one
      have hself : Walks next stop head (head :: (front ++ head :: back)) :=
        ⟨rfl, hwalk.2.1, hwalk.2.2⟩
      have hsame := hself.unique (of_append hwalk.2.2)
      have hlength := congrArg List.length hsame
      rw [List.length_cons, List.length_append, List.length_cons] at hlength
      omega

variable [DecidableEq Node]

/-- A link of no entry does not matter. -/
theorem update (hwalk : Walks next stop first entries) {other target : Node}
    (hother : other ∉ entries) :
    Walks (Function.update next other target) stop first entries := by
  induction entries generalizing first with
  | nil => exact hwalk
  | cons head entries ih =>
      obtain ⟨hfirst, hne, hrest⟩ := hwalk
      rw [List.mem_cons, not_or] at hother
      refine ⟨hfirst, hne, ?_⟩
      rw [Function.update_of_ne (Ne.symm hother.1)]
      exact ih hrest hother.2

/-- A new entry that links to the first one comes before it. -/
theorem push (hwalk : Walks next stop first entries) (hne : entry ≠ stop)
    (hnew : entry ∉ entries) :
    Walks (Function.update next entry first) stop entry (entry :: entries) := by
  refine ⟨rfl, hne, ?_⟩
  rw [Function.update_self]
  exact hwalk.update hnew

/-- An entry is passed over by the link before it. -/
theorem bypass {before : Node} (hwalk : Walks next stop first (front ++ before :: entry :: back)) :
    Walks (Function.update next before (next entry)) stop first (front ++ before :: back) := by
  have hnodup := hwalk.nodup
  induction front generalizing first with
  | nil =>
      obtain ⟨hfirst, hne, -, -, hrest⟩ := hwalk
      refine ⟨hfirst, hne, ?_⟩
      rw [Function.update_self]
      refine hrest.update fun hmem => ?_
      exact (List.nodup_cons.mp hnodup).1 (List.mem_cons_of_mem _ hmem)
  | cons head front ih =>
      obtain ⟨hfirst, hne, hrest⟩ := hwalk
      obtain ⟨hout, hnodup⟩ := List.nodup_cons.mp hnodup
      refine ⟨hfirst, hne, ?_⟩
      rw [Function.update_of_ne]
      · exact ih hrest hnodup
      · rintro rfl
        exact hout (List.mem_append_right _ List.mem_cons_self)

/-- An entry that links to the stop ends the list. -/
theorem cut (hwalk : Walks next stop first (front ++ entry :: back)) :
    Walks (Function.update next entry stop) stop first (front ++ [entry]) := by
  have hnodup := hwalk.nodup
  induction front generalizing first with
  | nil =>
      obtain ⟨hfirst, hne, -⟩ := hwalk
      refine ⟨hfirst, hne, ?_⟩
      rw [Function.update_self]
      rfl
  | cons head front ih =>
      obtain ⟨hfirst, hne, hrest⟩ := hwalk
      obtain ⟨hout, hnodup⟩ := List.nodup_cons.mp hnodup
      refine ⟨hfirst, hne, ?_⟩
      rw [Function.update_of_ne]
      · exact ih hrest hnodup
      · rintro rfl
        exact hout (List.mem_append_right _ List.mem_cons_self)

end Walks

end IbcsUs.Core
