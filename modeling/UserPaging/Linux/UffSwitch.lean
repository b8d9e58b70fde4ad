import UserPaging.Linux.Scheduling

/-!
# UFF across context switches

UFF belongs to a task but lives in a CPU.  `UffInvariant` says where the value
of an enabled task is kept: in its CPU while it runs, in `thread.uff` while it
does not.  Two steps can break it, because a task without `TIF_UFAULT` is
switched in and out without touching UFF: a switch from such a task, which
compares two saved fields instead of looking at the flag, and the `ENABLE` of
such a task, which adopts whatever flag the CPU has.
-/

namespace UserPaging.Linux

open UserPaging.Foundation

variable {Task Cpu : Type*}

/-! ## What `switch_ufault` does to UFF -/

private theorem switchUfault_saves {prev : Thread} (hprev : prev.tifUfault = true)
    (cpu : CpuState) (next : Thread) :
    (switchUfault true cpu prev next).2.uff = cpu.uff := by
  rcases next with ⟨nextTif, nextHandler, nextUff⟩
  cases nextTif <;> cases nextUff <;> cases huff : cpu.uff <;>
    simp [switchUfault, hprev, huff, CpuState.testuf]

/-- The comparison of saved fields is enough when `prev` was just saved, and
otherwise when equal fields come with the flag already in place. -/
private theorem switchUfault_restores {prev next : Thread} (hnext : next.tifUfault = true)
    (cpu : CpuState)
    (hseen : prev.tifUfault = false → prev.uff = next.uff → cpu.uff = next.uff) :
    (switchUfault true cpu prev next).1.uff = next.uff := by
  cases hprev : prev.tifUfault with
  | true =>
      cases huff : cpu.uff <;> cases hsaved : next.uff <;>
        simp [switchUfault, hprev, hnext, huff, hsaved, CpuState.testuf]
  | false =>
      by_cases heq : prev.uff = next.uff
      · have hcpu := hseen hprev heq
        simp [switchUfault, hprev, hnext, heq, hcpu]
      · have hne : ¬ next.uff = prev.uff := fun h => heq h.symm
        cases hsaved : next.uff <;> simp_all [switchUfault]

/-! ## The invariant -/

def UffVirtual (state : State Task Cpu) : Prop :=
  ∀ cpu, (state.running cpu).tifUfault = true →
    state.point (state.current cpu) = .user →
    (state.cpu cpu).uff = state.lastUff (state.current cpu)

structure UffInvariant (feature : Bool) (state : State Task Cpu) : Prop
    extends Scheduled feature state where
  running : ∀ cpu, (state.running cpu).tifUfault = true →
    (state.cpu cpu).uff = state.lastUff (state.current cpu)
  waiting : ∀ task, (state.thread task).tifUfault = true → state.onCpu task = none →
    (state.thread task).uff = state.lastUff task

def KeepsUff (state : State Task Cpu) : Label Task Cpu → Prop
  | .contextSwitch cpu next =>
      (state.thread next).tifUfault = true → (state.running cpu).tifUfault = false →
        (state.running cpu).uff = (state.thread next).uff →
          (state.cpu cpu).uff = (state.thread next).uff
  | .statement cpu =>
      state.point (state.current cpu) = .enable →
        (state.running cpu).tifUfault = false →
          (state.cpu cpu).uff = state.lastUff (state.current cpu)
  | _ => True

instance (state : State Task Cpu) : ∀ label, Decidable (KeepsUff state label)
  | .contextSwitch cpu next =>
      inferInstanceAs (Decidable
        ((state.thread next).tifUfault = true → (state.running cpu).tifUfault = false →
          (state.running cpu).uff = (state.thread next).uff →
            (state.cpu cpu).uff = (state.thread next).uff))
  | .statement cpu =>
      inferInstanceAs (Decidable
        (state.point (state.current cpu) = .enable →
          (state.running cpu).tifUfault = false →
            (state.cpu cpu).uff = state.lastUff (state.current cpu)))
  | .fork .. | .prctl .. | .stuf _ | .cluf _ | .ufret _ | .deliver _ =>
      inferInstanceAs (Decidable True)

namespace UffInvariant

variable {feature : Bool} {state : State Task Cpu}

private theorem of_booted (hboot : Booted state) : UffInvariant feature state where
  toScheduled := .of_booted hboot
  running := fun cpu henabled => by
    simp [State.running, hboot.disabled] at henabled
  waiting := fun task henabled => by simp [hboot.disabled] at henabled

private theorem uffVirtual (hinv : UffInvariant feature state) : UffVirtual state :=
  fun cpu henabled _ => hinv.running cpu henabled

variable [DecidableEq Task]

private theorem fork (hinv : UffInvariant feature state) (cpu : Cpu) {child : Task}
    (hnew : state.created child = false) :
    UffInvariant feature (state.fork cpu child) where
  toScheduled := hinv.toScheduled.fork cpu hnew
  running := fun other henabled => by
    have hne := hinv.current_ne_of_not_created hnew other
    simp only [State.fork, State.running, Function.update_of_ne hne] at henabled ⊢
    exact hinv.running other henabled
  waiting := fun task henabled hwaiting => by
    by_cases htask : task = child
    · subst htask
      simp [State.fork, clearUfault] at henabled
    · simp only [State.fork, Function.update_of_ne htask] at henabled ⊢
      exact hinv.waiting task henabled hwaiting

private theorem enterPrctl (hinv : UffInvariant feature state) (cpu : Cpu)
    (arg2 arg3 arg4 arg5 : BitVec 64) :
    UffInvariant feature
      (state.enterPrctl cpu (prctl feature (state.running cpu) arg2 arg3 arg4 arg5)) where
  toScheduled := hinv.toScheduled.enterPrctl cpu arg2 arg3 arg4 arg5
  running := hinv.running
  waiting := hinv.waiting

variable [DecidableEq Cpu]

private theorem setUff (hinv : UffInvariant feature state) (cpu : Cpu) (value : Bool) :
    UffInvariant feature (state.setUff cpu value) where
  toScheduled := hinv.toScheduled.setUff cpu value
  running := fun other henabled => by
    by_cases hother : other = cpu
    · subst hother
      simp [State.setUff]
    · have hne := hinv.current_ne hother
      simpa [State.setUff, hother, hne] using hinv.running other henabled
  waiting := fun task henabled hwaiting => by
    have hne := (hinv.current_ne_of_waiting hwaiting cpu).symm
    simpa [State.setUff, hne] using hinv.waiting task henabled hwaiting

private theorem contextSwitch (hinv : UffInvariant feature state) (cpu : Cpu) {next : Task}
    (hcreated : state.created next = true) (hwaiting : state.onCpu next = none)
    (hseen : KeepsUff state (.contextSwitch cpu next)) :
    UffInvariant feature (state.contextSwitch feature cpu next) where
  toScheduled := hinv.toScheduled.contextSwitch cpu hcreated hwaiting
  running := fun other henabled => by
    have hnext := (hinv.current_ne_of_waiting hwaiting cpu).symm
    by_cases hother : other = cpu
    · subst hother
      simp only [State.contextSwitch, State.running, Function.update_self,
        Function.update_of_ne hnext] at henabled ⊢
      rw [hinv.feature_of_enabled henabled]
      exact (switchUfault_restores henabled _ (hseen henabled)).trans
        (hinv.waiting next henabled hwaiting)
    · have hne := hinv.current_ne hother
      simp only [State.contextSwitch, State.running, Function.update_of_ne hother,
        Function.update_of_ne hne] at henabled ⊢
      exact hinv.running other henabled
  waiting := fun task henabled hidle => by
    have htask : task ≠ next := by
      rintro rfl
      simp [State.contextSwitch] at hidle
    by_cases hprev : task = state.current cpu
    · subst hprev
      simp only [State.contextSwitch, Function.update_self,
        switchUfault_tifUfault] at henabled ⊢
      rw [hinv.feature_of_enabled henabled, switchUfault_saves henabled]
      exact hinv.running cpu henabled
    · simp only [State.contextSwitch, Function.update_of_ne hprev,
        Function.update_of_ne htask] at henabled hidle ⊢
      exact hinv.waiting task henabled hidle

private theorem runStatement (hinv : UffInvariant feature state) (cpu : Cpu)
    {outcome : CpuState × Thread × ControlPoint}
    (hstatement : prctlStatement (state.cpu cpu) (state.running cpu)
      (state.point (state.current cpu)) = some outcome)
    (hadopts : KeepsUff state (.statement cpu)) :
    UffInvariant feature (state.runStatement cpu outcome) where
  toScheduled := hinv.toScheduled.runStatement cpu hstatement
  running := fun other henabled => by
    by_cases hother : other = cpu
    · subst hother
      simp only [State.runStatement, State.running, Function.update_self] at henabled ⊢
      rw [prctlStatement_uff hstatement]
      cases hbefore : (state.running other).tifUfault with
      | true => exact hinv.running other hbefore
      | false =>
          rcases prctlStatement_tifUfault hstatement henabled with h | h
          · simp [hbefore] at h
          · exact hadopts h hbefore
    · have hne := hinv.current_ne hother
      simp only [State.runStatement, State.running, Function.update_of_ne hother,
        Function.update_of_ne hne] at henabled ⊢
      exact hinv.running other henabled
  waiting := fun task henabled hwaiting => by
    have hne := (hinv.current_ne_of_waiting hwaiting cpu).symm
    simp only [State.runStatement, Function.update_of_ne hne] at henabled ⊢
    exact hinv.waiting task henabled hwaiting

private theorem step (hinv : UffInvariant feature state) {label : Label Task Cpu}
    {next : State Task Cpu} (hkeeps : KeepsUff state label)
    (hstep : Linux.step feature state label = some next) :
    UffInvariant feature next := by
  cases moves_of_step hstep with
  | fork huser hnew => exact hinv.fork _ hnew
  | contextSwitch hcreated hwaiting => exact hinv.contextSwitch _ hcreated hwaiting hkeeps
  | prctl huser => exact hinv.enterPrctl _ _ _ _ _
  | statement hstatement => exact hinv.runStatement _ hstatement hkeeps
  | stuf huser | cluf huser | ufret huser | deliver huser => exact hinv.setUff _ _

end UffInvariant

/-! ## Whole runs -/

section

variable [DecidableEq Task] [DecidableEq Cpu]

/-- In every run from boot whose steps all keep UFF with its task, a task that
has `TIF_UFAULT` finds in its CPU the value that it left itself. -/
theorem uff_virtual_of_keepsUff (feature : Bool) {boot : State Task Cpu}
    (hboot : Booted boot) {labels : List (Label Task Cpu)}
    (hkeeps : StepsMeet (step feature) KeepsUff boot labels) :
    ∀ state ∈ run (step feature) boot labels, UffVirtual state := by
  intro state hrun
  have hinv : UffInvariant feature state :=
    run_invariant_of_meets (fun _ _ _ hinv hkeeps hstep => hinv.step hkeeps hstep)
      (UffInvariant.of_booted hboot) hkeeps hrun
  exact hinv.uffVirtual

end

def idleBoot : State (Fin 3) Unit where
  thread := fun _ => ⟨false, 0, false⟩
  point := fun _ => .user
  created := fun task => task = 0
  onCpu := fun task => if task = 0 then some () else none
  current := fun _ => 0
  cpu := fun _ => ⟨0, 0, 0, false⟩
  lastUff := fun _ => false

private theorem idleBoot_booted : Booted idleBoot where
  created := fun _ => rfl
  onCpu := fun task ⟨⟩ => by revert task; decide
  disabled := by decide
  user := by decide
  lastUff := by decide

def forkAndEnable : List (Label (Fin 3) Unit) :=
  [.fork () 1, .fork () 2, .contextSwitch () 2, .prctl () 1 4096 0 0,
    .statement (), .statement (), .statement (), .statement (),
    .contextSwitch () 1, .prctl () 1 4096 0 0,
    .statement (), .statement (), .statement (), .statement ()]

theorem uff_virtual_of_keepsUff_forkAndEnable :
    (run (step true) idleBoot (forkAndEnable ++ [.stuf (), .contextSwitch () 2])).isSome ∧
      ∀ state ∈ run (step true) idleBoot (forkAndEnable ++ [.stuf (), .contextSwitch () 2]),
        UffVirtual state :=
  ⟨by decide, uff_virtual_of_keepsUff true idleBoot_booted (by decide)⟩

/-- Task `1` sets UFF and is switched out for idle; idle has the same saved
field as task `2`, which never set UFF, so task `2` is resumed with UFF set. -/
theorem uff_leaks_through_idle :
    ∃ state ∈ run (step true) idleBoot
        (forkAndEnable ++ [.stuf (), .contextSwitch () 0, .contextSwitch () 2]),
      ¬ UffVirtual state := by
  refine ⟨_, rfl, fun hvirtual => ?_⟩
  exact absurd (hvirtual () (by decide) (by decide)) (by decide)

end UserPaging.Linux
