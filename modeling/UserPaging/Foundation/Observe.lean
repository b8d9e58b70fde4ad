import UserPaging.Foundation.Run

/-!
# What an observer sees along a run

`observe` folds a note over the steps of a run, each seen with the states before
and after it; `stepCount` counts the steps of one kind.  A count over a whole run
is bounded by a rank that no step raises and that every counted step lowers.
-/

namespace UserPaging.Foundation

variable {State Label Note : Type*}

section

variable (step : State → Label → Option State)

def observe (note : State → Label → State → Note → Note) : Note → State → List Label → Note
  | noted, _, [] => noted
  | noted, state, label :: labels =>
      match step state label with
      | some next => observe note (note state label next noted) next labels
      | none => noted

def stepCount (counts : State → Label → Bool) : State → List Label → Nat
  | _, [] => 0
  | state, label :: labels =>
      (counts state label).toNat +
        match step state label with
        | some next => stepCount counts next labels
        | none => 0

end

variable {step : State → Label → Option State}

theorem observe_invariant {note : State → Label → State → Note → Note}
    {inv : State → Note → Prop}
    (hkeep : ∀ state label next noted, inv state noted → step state label = some next →
      inv next (note state label next noted))
    {labels : List Label} {state final : State} {noted : Note} (hinv : inv state noted)
    (hrun : run step state labels = some final) :
    inv final (observe step note noted state labels) := by
  induction labels generalizing state noted with
  | nil =>
      cases hrun
      exact hinv
  | cons label labels ih =>
      obtain ⟨next, hstep, hrest⟩ := run_cons_eq_some.1 hrun
      simp only [observe, hstep]
      exact ih (hkeep state label next noted hinv hstep) hrest

theorem stepCount_le_rank {counts : State → Label → Bool} {cond : State → Label → Prop}
    {inv : State → Prop} {rank : State → Nat}
    (hkeep : ∀ state label next, inv state → cond state label →
      step state label = some next → inv next)
    (hrank : ∀ state label next, inv state → cond state label →
      step state label = some next → (counts state label).toNat + rank next ≤ rank state)
    {labels : List Label} {state final : State} (hinv : inv state)
    (hmeets : StepsMeet step cond state labels)
    (hrun : run step state labels = some final) :
    stepCount step counts state labels ≤ rank state := by
  induction labels generalizing state with
  | nil => exact Nat.zero_le _
  | cons label labels ih =>
      obtain ⟨next, hstep, hrest⟩ := run_cons_eq_some.1 hrun
      rw [stepsMeet_cons hstep] at hmeets
      have htail := ih (hkeep state label next hinv hmeets.1 hstep) hmeets.2 hrest
      have hpay := hrank state label next hinv hmeets.1 hstep
      simp only [stepCount, hstep]
      omega

end UserPaging.Foundation
