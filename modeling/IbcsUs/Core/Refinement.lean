import IbcsUs.Core.Runs

/-!
# Machines that answer

A component that answers calls is a function from a state and a call to the next state and
an answer, undefined where the call does not come back.  A machine that always answers says
what the component is for; the component refines it when a relation between their states is
kept by every call and the answers are the same.  Then the two answer alike over whole
runs.
-/

namespace IbcsUs.Refinement

variable {State Spec Call Answer : Type*}

/-- The answers to some calls, one after the other. -/
def serve (step : State → Call → Option (State × Answer)) :
    State → List Call → Option (State × List Answer)
  | state, [] => some (state, [])
  | state, call :: calls =>
      (step state call).bind fun first =>
        (serve step first.1 calls).map fun rest => (rest.1, first.2 :: rest.2)

/-- The answers of a machine that always answers. -/
def serveSpec (step : Spec → Call → Spec × Answer) : Spec → List Call → Spec × List Answer
  | spec, [] => (spec, [])
  | spec, call :: calls =>
      let first := step spec call
      let rest := serveSpec step first.1 calls
      (rest.1, first.2 :: rest.2)

/-- Every call is made where the machine is ready for it. -/
def Ready (step : Spec → Call → Spec × Answer) (Meets : Spec → Call → Prop) :
    Spec → List Call → Prop
  | _, [] => True
  | spec, call :: calls => Meets spec call ∧ Ready step Meets (step spec call).1 calls

/-- Every call to a related state is answered as the machine answers it, and the states stay
related. -/
def Simulates (step : State → Call → Option (State × Answer))
    (specStep : Spec → Call → Spec × Answer) (Meets : Spec → Call → Prop)
    (Related : State → Spec → Prop) : Prop :=
  ∀ state spec call, Related state spec → Meets spec call →
    ∃ next, step state call = some (next, (specStep spec call).2) ∧
      Related next (specStep spec call).1

variable {step : State → Call → Option (State × Answer)}
variable {specStep : Spec → Call → Spec × Answer} {Meets : Spec → Call → Prop}
variable {Related : State → Spec → Prop}

/-- A simulation answers whole runs alike. -/
theorem Simulates.serve_eq (hsim : Simulates step specStep Meets Related) {state : State}
    {spec : Spec} {calls : List Call} (hrelated : Related state spec)
    (hready : Ready specStep Meets spec calls) :
    ∃ final, serve step state calls = some (final, (serveSpec specStep spec calls).2) ∧
      Related final (serveSpec specStep spec calls).1 := by
  induction calls generalizing state spec with
  | nil => exact ⟨state, rfl, hrelated⟩
  | cons call calls ih =>
      obtain ⟨next, hnext, hkept⟩ := hsim state spec call hrelated hready.1
      obtain ⟨final, hfinal, hend⟩ := ih hkept hready.2
      refine ⟨final, ?_, hend⟩
      rw [serve, hnext, Option.bind_some, hfinal]
      rfl

/-- A machine that is always ready is ready for any run. -/
theorem ready_of_forall (hmeets : ∀ spec call, Meets spec call) (spec : Spec)
    (calls : List Call) : Ready specStep Meets spec calls := by
  induction calls generalizing spec with
  | nil => trivial
  | cons call calls ih => exact ⟨hmeets spec call, ih _⟩

/-- What no call changes, no run changes. -/
theorem serveSpec_keeps {Field : Type*} {field : Spec → Field}
    (hkeeps : ∀ spec call, field (specStep spec call).1 = field spec) (spec : Spec)
    (calls : List Call) : field (serveSpec specStep spec calls).1 = field spec := by
  induction calls generalizing spec with
  | nil => rfl
  | cons call calls ih => exact (ih _).trans (hkeeps spec call)

theorem serveSpec_append (spec : Spec) (first second : List Call) :
    serveSpec specStep spec (first ++ second) =
      ((serveSpec specStep (serveSpec specStep spec first).1 second).1,
        (serveSpec specStep spec first).2 ++
          (serveSpec specStep (serveSpec specStep spec first).1 second).2) := by
  induction first generalizing spec with
  | nil => rfl
  | cons call calls ih => simp only [List.cons_append, serveSpec, ih]

end IbcsUs.Refinement
