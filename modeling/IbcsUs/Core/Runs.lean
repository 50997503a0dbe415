import Mathlib.Data.BitVec
import Mathlib.Data.Nat.Cast.Order.Ring
import Mathlib.Order.Nat

/-!
# Runs of a partial step function

A program that answers one request at a time is a function from a state and an
action to the next state, undefined when the request does not return.  This
module fixes what a run of such a function is, what it means for a property to
hold at every point of a run, and the two rules the component proofs use: a
property kept by every step that meets a condition holds throughout a run of such
steps, and a property that one step keeps exactly when it meets the condition is
kept by a run exactly when all its steps meet it.
-/

namespace IbcsUs.Runs

variable {State Action : Type*} (step : State → Action → Option State)

/-- The state after a list of actions, `none` once an action does not return. -/
def run : State → List Action → Option State
  | state, [] => some state
  | state, action :: actions =>
      (step state action).bind fun next => run next actions

/-- Every state of the run satisfies `Good` and every action is taken in a state
where `Event` holds of it. -/
def Always (Good : State → Prop) (Event : State → Action → Prop) :
    State → List Action → Prop
  | state, [] => Good state
  | state, action :: actions =>
      Good state ∧ Event state action ∧
        ∀ next, step state action = some next →
          Always Good Event next actions

/-- Every action of the run is taken in a state where `Cond` holds of it. -/
def StepsMeet (Cond : State → Action → Prop) : State → List Action → Prop
  | _, [] => True
  | state, action :: actions =>
      Cond state action ∧
        ∀ next, step state action = some next → StepsMeet Cond next actions

variable {step}

@[simp]
theorem run_nil (state : State) : run step state [] = some state := rfl

theorem run_cons (state : State) (action : Action) (actions : List Action) :
    run step state (action :: actions) =
      (step state action).bind fun next => run step next actions := rfl

/-- The last step of a run. -/
theorem run_concat {state final : State} {actions : List Action} {action : Action}
    (hrun : run step state (actions ++ [action]) = some final) :
    ∃ middle, run step state actions = some middle ∧
      step middle action = some final := by
  induction actions generalizing state with
  | nil =>
      refine ⟨state, rfl, ?_⟩
      simpa [run_cons] using hrun
  | cons first actions ih =>
      rw [List.cons_append, run_cons] at hrun
      obtain ⟨next, hnext, hrest⟩ := Option.bind_eq_some_iff.mp hrun
      obtain ⟨middle, hmiddle, hlast⟩ := ih hrest
      refine ⟨middle, ?_, hlast⟩
      rw [run_cons, hnext, Option.bind_some, hmiddle]

/-- A property that every step meeting `Cond` keeps holds after every run whose
steps all meet `Cond`. -/
theorem invariant_run_of_stepsMeet {Inv : State → Prop}
    {Cond : State → Action → Prop}
    (hstep : ∀ state action next, Inv state → Cond state action →
      step state action = some next → Inv next)
    {state final : State} {actions : List Action} (hinit : Inv state)
    (hmeet : StepsMeet step Cond state actions)
    (hrun : run step state actions = some final) : Inv final := by
  induction actions generalizing state with
  | nil =>
      simp only [run_nil, Option.some.injEq] at hrun
      exact hrun ▸ hinit
  | cons action actions ih =>
      rw [run_cons] at hrun
      obtain ⟨next, hnext, hrest⟩ := Option.bind_eq_some_iff.mp hrun
      exact ih (hstep state action next hinit hmeet.1 hnext)
        (hmeet.2 next hnext) hrest

/-- What every step keeps holds after every run. -/
theorem invariant_run {Inv : State → Prop}
    (hstep : ∀ state action next, Inv state → step state action = some next → Inv next)
    {state final : State} {actions : List Action} (hinit : Inv state)
    (hrun : run step state actions = some final) : Inv final := by
  induction actions generalizing state with
  | nil =>
      simp only [run_nil, Option.some.injEq] at hrun
      exact hrun ▸ hinit
  | cons action actions ih =>
      rw [run_cons] at hrun
      obtain ⟨next, hnext, hrest⟩ := Option.bind_eq_some_iff.mp hrun
      exact ih (hstep state action next hinit hnext) hrest

/-- A weaker condition on the actions that occur. -/
theorem StepsMeet.imp {Cond Cond' : State → Action → Prop} {state : State}
    {actions : List Action}
    (himp : ∀ state, ∀ action ∈ actions, Cond state action → Cond' state action)
    (hmeet : StepsMeet step Cond state actions) :
    StepsMeet step Cond' state actions := by
  induction actions generalizing state with
  | nil => trivial
  | cons action actions ih =>
      refine ⟨himp state action List.mem_cons_self hmeet.1, fun next hnext => ?_⟩
      exact ih (fun state other hother => himp state other
        (List.mem_cons_of_mem _ hother)) (hmeet.2 next hnext)

theorem StepsMeet.left_of_append {Cond : State → Action → Prop} {state : State}
    {first second : List Action}
    (hmeet : StepsMeet step Cond state (first ++ second)) :
    StepsMeet step Cond state first := by
  induction first generalizing state with
  | nil => trivial
  | cons action actions ih =>
      exact ⟨hmeet.1, fun next hnext => ih (hmeet.2 next hnext)⟩

/-- The rest of a run whose actions all meet `Cond` meets it too. -/
theorem StepsMeet.right_of_append {Cond : State → Action → Prop}
    {state middle : State} {first second : List Action}
    (hmeet : StepsMeet step Cond state (first ++ second))
    (hrun : run step state first = some middle) :
    StepsMeet step Cond middle second := by
  induction first generalizing state with
  | nil =>
      simp only [run_nil, Option.some.injEq] at hrun
      exact hrun ▸ hmeet
  | cons action actions ih =>
      rw [run_cons] at hrun
      obtain ⟨next, hnext, hrest⟩ := Option.bind_eq_some_iff.mp hrun
      exact ih (hmeet.2 next hnext) hrest

/-- What always holds in a run holds in its last state. -/
theorem Always.good_of_run {Good : State → Prop} {Event : State → Action → Prop}
    {state final : State} {actions : List Action}
    (halways : Always step Good Event state actions)
    (hrun : run step state actions = some final) : Good final := by
  induction actions generalizing state with
  | nil =>
      simp only [run_nil, Option.some.injEq] at hrun
      exact hrun ▸ halways
  | cons action actions ih =>
      rw [run_cons] at hrun
      obtain ⟨next, hnext, hrest⟩ := Option.bind_eq_some_iff.mp hrun
      exact ih (halways.2.2 next hnext) hrest

/-- The action that follows a part of such a run behaves. -/
theorem Always.event_of_run {Good : State → Prop} {Event : State → Action → Prop}
    {state final : State} {actions rest : List Action} {action : Action}
    (halways : Always step Good Event state (actions ++ action :: rest))
    (hrun : run step state actions = some final) : Event final action := by
  induction actions generalizing state with
  | nil =>
      simp only [run_nil, Option.some.injEq] at hrun
      exact hrun ▸ halways.2.1
  | cons first actions ih =>
      rw [run_cons] at hrun
      obtain ⟨next, hnext, hrest⟩ := Option.bind_eq_some_iff.mp hrun
      exact ih (halways.2.2 next hnext) hrest

/-- Sufficiency rule.  When, from a state of the invariant, an action that meets
`Cond` behaves and keeps the invariant, a run whose actions all meet `Cond`
behaves throughout. -/
theorem always_of_stepsMeet {Inv Good : State → Prop}
    {Event Cond : State → Action → Prop}
    (hgood : ∀ state, Inv state → Good state)
    (hkeep : ∀ state action next, Inv state → Cond state action →
      step state action = some next → Inv next)
    (hevent : ∀ state action, Inv state → Cond state action →
      Event state action)
    {state : State} (hinit : Inv state) {actions : List Action}
    (hmeet : StepsMeet step Cond state actions) :
    Always step Good Event state actions := by
  induction actions generalizing state with
  | nil => exact hgood state hinit
  | cons action actions ih =>
      refine ⟨hgood state hinit, hevent state action hinit hmeet.1,
        fun next hnext => ?_⟩
      exact ih (hkeep state action next hinit hmeet.1 hnext)
        (hmeet.2 next hnext)

/-- Exactness rule.  When, from a state of the invariant, one action behaves and
leads to a good state exactly when it meets `Cond`, a whole run behaves exactly
when all its actions meet `Cond`. -/
theorem always_iff_stepsMeet {Inv Good : State → Prop}
    {Event Cond : State → Action → Prop}
    (hgood : ∀ state, Inv state → Good state)
    (hkeep : ∀ state action next, Inv state → Cond state action →
      step state action = some next → Inv next)
    (hevent : ∀ state action, Inv state → Cond state action →
      Event state action)
    (hnecessary : ∀ state action, Inv state → Event state action →
      (∀ next, step state action = some next → Good next) →
      Cond state action)
    {state : State} (hinit : Inv state) (actions : List Action) :
    Always step Good Event state actions ↔
      StepsMeet step Cond state actions := by
  refine ⟨fun halways => ?_, always_of_stepsMeet hgood hkeep hevent hinit⟩
  induction actions generalizing state with
  | nil => trivial
  | cons action actions ih =>
      obtain ⟨-, haction, hrest⟩ := halways
      have hfirst : ∀ next, step state action = some next → Good next := by
        intro next hnext
        have hnextAlways := hrest next hnext
        cases actions with
        | nil => exact hnextAlways
        | cons _ _ => exact hnextAlways.1
      have hcond := hnecessary state action hinit haction hfirst
      refine ⟨hcond, fun next hnext => ?_⟩
      exact ih (hkeep state action next hinit hcond hnext) (hrest next hnext)

end IbcsUs.Runs
