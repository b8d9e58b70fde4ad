import Mathlib.Data.Option.Basic

/-!
# Runs of a labelled step function

A system is a partial step function.  The label says which party moves and
fixes every choice that its environment makes; `none` means that the label is
not enabled.  Safety results over whole runs are reduced here to one-step
obligations, with or without a condition that every step of the run meets.
-/

namespace UserPaging.Foundation

variable {State Label : Type*}

section

variable (step : State → Label → Option State)

def run : State → List Label → Option State
  | state, [] => some state
  | state, label :: labels =>
      match step state label with
      | some next => run next labels
      | none => none

/-- Every step of a run meets `cond`, read in the state before that step. -/
def StepsMeet (cond : State → Label → Prop) : State → List Label → Prop
  | _, [] => True
  | state, label :: labels =>
      cond state label ∧
        match step state label with
        | some next => StepsMeet cond next labels
        | none => True

instance StepsMeet.decidable (cond : State → Label → Prop)
    [∀ state label, Decidable (cond state label)] :
    ∀ (labels : List Label) (state : State),
      Decidable (StepsMeet step cond state labels)
  | [], _ => isTrue trivial
  | label :: labels, state =>
      have : Decidable
          (match step state label with
          | some next => StepsMeet step cond next labels
          | none => True) :=
        match step state label with
        | some next => StepsMeet.decidable cond labels next
        | none => isTrue trivial
      inferInstanceAs (Decidable (_ ∧ _))

end

variable {step : State → Label → Option State}

theorem run_cons_eq_some {state final : State} {label : Label}
    {labels : List Label} :
    run step state (label :: labels) = some final ↔
      ∃ next, step state label = some next ∧ run step next labels = some final := by
  simp only [run]
  cases step state label <;> simp

theorem stepsMeet_cons {cond : State → Label → Prop} {state next : State}
    {label : Label} {labels : List Label} (hstep : step state label = some next) :
    StepsMeet step cond state (label :: labels) ↔
      cond state label ∧ StepsMeet step cond next labels := by
  simp only [StepsMeet, hstep]

/-- An invariant that every step meeting `cond` keeps holds at the end of every
run whose steps all meet `cond`. -/
theorem run_invariant_of_meets {cond : State → Label → Prop} {inv : State → Prop}
    (hkeep : ∀ state label next, inv state → cond state label →
      step state label = some next → inv next)
    {labels : List Label} {state final : State} (hinv : inv state)
    (hmeets : StepsMeet step cond state labels)
    (hrun : run step state labels = some final) : inv final := by
  induction labels generalizing state with
  | nil =>
      cases hrun
      exact hinv
  | cons label labels ih =>
      obtain ⟨next, hstep, hrest⟩ := run_cons_eq_some.1 hrun
      rw [stepsMeet_cons hstep] at hmeets
      exact ih (hkeep state label next hinv hmeets.1 hstep) hmeets.2 hrest

theorem run_invariant {inv : State → Prop}
    (hkeep : ∀ state label next, inv state → step state label = some next → inv next)
    {labels : List Label} {state final : State} (hinv : inv state)
    (hrun : run step state labels = some final) : inv final := by
  induction labels generalizing state with
  | nil =>
      cases hrun
      exact hinv
  | cons label labels ih =>
      obtain ⟨next, hstep, hrest⟩ := run_cons_eq_some.1 hrun
      exact ih (hkeep state label next hinv hstep) hrest

end UserPaging.Foundation
