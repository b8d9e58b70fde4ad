import UserPaging.Linux.Cr4Switch

/-!
# What a new task reads

`fork` clears the flag, the handler and the saved UFF of the child, but UFF itself
belongs to the CPU, and `switch_ufault` leaves it alone when it switches to a task
without `TIF_UFAULT`.  A child reads zero as long as every CPU that it is switched
to has UFF clear.
-/

namespace UserPaging.Linux

open UserPaging.Foundation

variable {Task Cpu : Type*}

def OwnStep.starts : OwnStep → Bool
  | .stuf => true
  | .prctl _ _ _ _ (.setHandlerMsr _) => true
  | _ => false

def Fresh (own : List OwnStep) : Prop := ∀ step ∈ own, step.starts = false

instance (own : List OwnStep) : Decidable (Fresh own) :=
  inferInstanceAs (Decidable (∀ step ∈ own, step.starts = false))

private theorem Fresh.tail {step : OwnStep} {own : List OwnStep} (hfresh : Fresh (step :: own)) :
    Fresh own :=
  fun other hother => hfresh other (.tail _ hother)

def OwnStep.Alone : OwnStep → Prop
  | .prctl arg2 arg3 arg4 arg5 entered =>
      entered = Linux.prctl true ⟨false, 0, false⟩ arg2 arg3 arg4 arg5
  | .testuf value => value = false
  | .stuf | .cluf => True
  | .ufret | .userFault _ => False

def OwnStep.issued : OwnStep → OwnStep
  | .prctl arg2 arg3 arg4 arg5 _ => .prctl arg2 arg3 arg4 arg5 (.exit 0)
  | .testuf _ => .testuf false
  | .userFault _ => .userFault 0
  | .stuf => .stuf
  | .cluf => .cluf
  | .ufret => .ufret

private theorem OwnStep.Alone.eq_of_issued {step step' : OwnStep} (halone : step.Alone)
    (halone' : step'.Alone) (hissued : step.issued = step'.issued) : step = step' := by
  cases step <;> cases step' <;> simp_all [OwnStep.issued, OwnStep.Alone]

private theorem eq_of_map_issued {own own' : List OwnStep} (halone : ∀ step ∈ own, step.Alone)
    (halone' : ∀ step ∈ own', step.Alone)
    (hissued : own.map OwnStep.issued = own'.map OwnStep.issued) : own = own' := by
  induction own generalizing own' with
  | nil => simpa [eq_comm] using hissued
  | cons step own ih =>
      cases own' with
      | nil => simp at hissued
      | cons step' own' =>
          simp only [List.map_cons, List.cons.injEq] at hissued
          rw [List.forall_mem_cons] at halone halone'
          rw [halone.1.eq_of_issued halone'.1 hissued.1, ih halone.2 halone'.2 hissued.2]

private theorem prctl_congr (feature : Bool) {thread thread' : Thread}
    (hflag : thread.tifUfault = thread'.tifUfault) (arg2 arg3 arg4 arg5 : BitVec 64) :
    prctl feature thread arg2 arg3 arg4 arg5 = prctl feature thread' arg2 arg3 arg4 arg5 := by
  simp only [prctl, prctlUfault, hflag]

private theorem lastEnable_of_fresh {own : List OwnStep} (hfresh : Fresh own) :
    lastEnable own = none := by
  rw [lastEnable, List.findSome?_eq_none_iff]
  intro step hstep
  have hstarts := hfresh step hstep
  cases step with
  | prctl arg2 arg3 arg4 arg5 entered =>
      cases entered <;> simp_all [OwnStep.starts, OwnStep.enableArg]
  | stuf | cluf | ufret | testuf | userFault => rfl

private theorem Recorded.disabled_of_fresh {thread : Thread} {point : ControlPoint}
    {own : List OwnStep} (hrec : Recorded thread point own) (hfresh : Fresh own) :
    thread.tifUfault = false := by
  have hnone := lastEnable_of_fresh hfresh
  have hhandler := hrec.handler
  cases point <;> simp_all [HandlerRecorded]

/-! ## The invariant -/

/-- A forked task that is still fresh is switched to a CPU only with UFF clear, and
does not execute UFRET, which sets UFF like STUF. -/
def KeepsFresh (boot : State Task Cpu) (traced : Traced Task Cpu) : Action Task Cpu → Prop
  | .kernel (.contextSwitch cpu next) =>
      boot.created next = false → Fresh (traced.own next) → (traced.state.cpu cpu).uff = false
  | .kernel (.ufret cpu) =>
      boot.created (traced.state.current cpu) = false →
        ¬ Fresh (traced.own (traced.state.current cpu))
  | _ => True

instance (boot : State Task Cpu) (traced : Traced Task Cpu) :
    ∀ action, Decidable (KeepsFresh boot traced action)
  | .kernel (.contextSwitch cpu next) =>
      inferInstanceAs (Decidable (boot.created next = false → Fresh (traced.own next) →
        (traced.state.cpu cpu).uff = false))
  | .kernel (.ufret cpu) =>
      inferInstanceAs (Decidable (boot.created (traced.state.current cpu) = false →
        ¬ Fresh (traced.own (traced.state.current cpu))))
  | .kernel (.fork ..) | .kernel (.prctl ..) | .kernel (.statement _) | .kernel (.stuf _)
  | .kernel (.cluf _) | .kernel (.deliver _) | .testuf _ => inferInstanceAs (Decidable True)

structure FreshInvariant (boot : State Task Cpu) (traced : Traced Task Cpu) : Prop
    extends Cr4Invariant true traced.state where
  recorded : traced.Recorded
  uff : ∀ cpu, boot.created (traced.state.current cpu) = false →
    Fresh (traced.own (traced.state.current cpu)) → (traced.state.cpu cpu).uff = false
  alone : ∀ task, boot.created task = false → Fresh (traced.own task) →
    ∀ step ∈ traced.own task, step.Alone

namespace FreshInvariant

variable {boot : State Task Cpu} {traced next : Traced Task Cpu}

private theorem start (hboot : Cr4Booted boot) : FreshInvariant boot (.start boot) where
  toCr4Invariant := .of_booted hboot
  recorded := fun task => .of_disabled (hboot.disabled task) (hboot.user task) []
  uff := fun cpu hforked => by simp [Traced.start, hboot.created cpu] at hforked
  alone := fun _ _ _ step hstep => by simp [Traced.start] at hstep

private theorem disabled (hinv : FreshInvariant boot traced) {task : Task}
    (hfresh : Fresh (traced.own task)) : (traced.state.thread task).tifUfault = false :=
  (hinv.recorded task).disabled_of_fresh hfresh

variable [DecidableEq Task]

private theorem alone_log (hinv : FreshInvariant boot traced) (cpu : Cpu) (step : OwnStep)
    (halone : boot.created (traced.state.current cpu) = false →
      Fresh (traced.own (traced.state.current cpu)) → step.starts = false → step.Alone)
    (task : Task) (hforked : boot.created task = false)
    (hfresh : Fresh (traced.log (some (cpu, step)) task)) :
    ∀ other ∈ traced.log (some (cpu, step)) task, other.Alone := by
  by_cases htask : task = traced.state.current cpu
  · subst htask
    rw [traced.log_current] at hfresh ⊢
    rw [List.forall_mem_cons]
    exact ⟨halone hforked hfresh.tail (hfresh step (.head _)),
      hinv.alone _ hforked hfresh.tail⟩
  · rw [traced.log_of_ne htask] at hfresh ⊢
    exact hinv.alone task hforked hfresh

private theorem uff_log (hinv : FreshInvariant boot traced) {cpu : Cpu} {step : OwnStep}
    {other : Cpu}
    (hforked : boot.created (traced.state.current other) = false)
    (hfresh : Fresh (traced.log (some (cpu, step)) (traced.state.current other))) :
    Fresh (traced.own (traced.state.current other)) ∧
      (traced.state.cpu other).uff = false ∧ (other = cpu → step.starts = false) := by
  by_cases hother : other = cpu
  · subst hother
    rw [traced.log_current] at hfresh
    exact ⟨hfresh.tail, hinv.uff other hforked hfresh.tail, fun _ => hfresh step (.head _)⟩
  · rw [traced.log_of_ne (hinv.current_ne hother)] at hfresh
    exact ⟨hfresh, hinv.uff other hforked hfresh, fun h => absurd h hother⟩

variable [DecidableEq Cpu]

private theorem kernel_uff (hinv : FreshInvariant boot traced) {label : Label Task Cpu}
    {state : State Task Cpu} (hkeeps : KeepsFresh boot traced (.kernel label))
    (hstep : step true traced.state label = some state) (cpu : Cpu)
    (hforked : boot.created (state.current cpu) = false)
    (hfresh : Fresh (traced.log (ownStep true traced.state label) (state.current cpu))) :
    (state.cpu cpu).uff = false := by
  cases moves_of_step hstep with
  | fork huser hnew => exact hinv.uff cpu hforked hfresh
  | @contextSwitch target task hcreated hwaiting =>
      by_cases hcpu : cpu = target
      · subst hcpu
        simp only [State.contextSwitch, Function.update_self] at hforked hfresh ⊢
        rw [switchUfault_uff_of_disabled true _ _ (hinv.disabled hfresh)]
        exact hkeeps hforked hfresh
      · simp only [State.contextSwitch, Function.update_of_ne hcpu] at hforked hfresh ⊢
        exact hinv.uff cpu hforked hfresh
  | prctl huser => exact (hinv.uff_log hforked hfresh).2.1
  | @statement target outcome hstatement =>
      have huff := hinv.uff cpu hforked hfresh
      by_cases hcpu : cpu = target
      · subst hcpu
        simpa [State.runStatement, prctlStatement_uff hstatement] using huff
      · simpa [State.runStatement, hcpu] using huff
  | @stuf target huser =>
      obtain ⟨-, huff, hstarts⟩ := hinv.uff_log hforked hfresh
      have hcpu : cpu ≠ target := fun h => by simpa [OwnStep.starts] using hstarts h
      simpa [State.setUff, hcpu] using huff
  | @ufret target huser =>
      obtain ⟨hbefore, huff, -⟩ := hinv.uff_log hforked hfresh
      have hcpu : cpu ≠ target := by
        rintro rfl
        exact hkeeps hforked hbefore
      simpa [State.setUff, hcpu] using huff
  | @cluf target huser | @deliver target huser hdeliver =>
      have huff := (hinv.uff_log hforked hfresh).2.1
      by_cases hcpu : cpu = target
      · simp [State.setUff, hcpu]
      · simpa [State.setUff, hcpu] using huff

private theorem kernel_alone (hinv : FreshInvariant boot traced) {label : Label Task Cpu}
    {state : State Task Cpu} (hkeeps : KeepsFresh boot traced (.kernel label))
    (hstep : step true traced.state label = some state) (task : Task)
    (hforked : boot.created task = false)
    (hfresh : Fresh (traced.log (ownStep true traced.state label) task)) :
    ∀ step ∈ traced.log (ownStep true traced.state label) task, step.Alone := by
  cases moves_of_step hstep with
  | fork huser hnew | contextSwitch hcreated hwaiting | statement hstatement =>
      exact hinv.alone task hforked hfresh
  | @prctl target arg2 arg3 arg4 arg5 huser =>
      refine hinv.alone_log target _ (fun _ hbefore _ => ?_) task hforked hfresh
      exact prctl_congr true (hinv.disabled hbefore) arg2 arg3 arg4 arg5
  | @stuf target huser =>
      exact hinv.alone_log target .stuf (fun _ _ _ => trivial) task hforked hfresh
  | @cluf target huser =>
      exact hinv.alone_log target .cluf (fun _ _ _ => trivial) task hforked hfresh
  | @ufret target huser =>
      refine hinv.alone_log target _ (fun hforked hbefore _ => ?_) task hforked hfresh
      exact absurd hbefore (hkeeps hforked)
  | @deliver target huser hdeliver =>
      refine hinv.alone_log target _ (fun _ hbefore _ => ?_) task hforked hfresh
      have henabled := (hinv.bit target).symm.trans (bit_of_canDeliver hdeliver)
      simp [State.running, hinv.disabled hbefore] at henabled

private theorem tracedStep (hinv : FreshInvariant boot traced) {action : Action Task Cpu}
    (hkeeps : KeepsFresh boot traced action)
    (hstep : Linux.tracedStep true traced action = some next) : FreshInvariant boot next := by
  have hrecorded : next.Recorded :=
    fun task => (hinv.recorded task).taskStep (taskStep_of_tracedStep hstep task)
  cases action with
  | kernel label =>
      obtain ⟨state, own⟩ := next
      obtain ⟨hkernel, hown⟩ := tracedStep_kernel.1 hstep
      dsimp only at hkernel hown
      subst hown
      exact ⟨hinv.toCr4Invariant.step hkernel, hrecorded, hinv.kernel_uff hkeeps hkernel,
        hinv.kernel_alone hkeeps hkernel⟩
  | testuf cpu =>
      obtain ⟨huser, rfl⟩ := tracedStep_testuf.1 hstep
      refine ⟨hinv.toCr4Invariant, hrecorded, fun other hforked hfresh => ?_, ?_⟩
      · exact (hinv.uff_log hforked hfresh).2.1
      · exact hinv.alone_log cpu _ fun hforked hbefore _ => hinv.uff cpu hforked hbefore

private theorem of_run (hboot : Cr4Booted boot) {actions : List (Action Task Cpu)}
    (hkeeps : StepsMeet (Linux.tracedStep true) (KeepsFresh boot) (.start boot) actions)
    (hrun : run (Linux.tracedStep true) (.start boot) actions = some traced) :
    FreshInvariant boot traced :=
  run_invariant_of_meets (fun _ _ _ hinv hkeeps hstep => hinv.tracedStep hkeeps hstep)
    (start hboot) hkeeps hrun

end FreshInvariant

/-! ## Whole runs -/

section

variable [DecidableEq Task] [DecidableEq Cpu]

/-- In runs from boot whose steps all keep fresh tasks fresh, a forked task that has not
started yet reads zero, and two such tasks, in whatever runs, that issued the same steps
got the same answers. -/
theorem fresh_task_isolated {boot boot' : State Task Cpu} (hboot : Cr4Booted boot)
    (hboot' : Cr4Booted boot') {actions actions' : List (Action Task Cpu)}
    (hkeeps : StepsMeet (tracedStep true) (KeepsFresh boot) (.start boot) actions)
    (hkeeps' : StepsMeet (tracedStep true) (KeepsFresh boot') (.start boot') actions') :
    ∀ traced ∈ run (tracedStep true) (.start boot) actions,
    ∀ traced' ∈ run (tracedStep true) (.start boot') actions',
    ∀ task task', boot.created task = false → boot'.created task' = false →
      Fresh (traced.own task) → Fresh (traced'.own task') →
        (∀ value, .testuf value ∈ traced.own task → value = false) ∧
        (∀ result, .prctl 2 0 0 0 (.exit result) ∈ traced.own task → result = 0) ∧
        ((traced.own task).map OwnStep.issued = (traced'.own task').map OwnStep.issued →
          traced.own task = traced'.own task') := by
  intro traced hrun traced' hrun' task task' hforked hforked' hfresh hfresh'
  have halone := (FreshInvariant.of_run hboot hkeeps hrun).alone task hforked hfresh
  have halone' := (FreshInvariant.of_run hboot' hkeeps' hrun').alone task' hforked' hfresh'
  refine ⟨fun value hread => halone _ hread, fun result hstatus => ?_,
    eq_of_map_issued halone halone'⟩
  exact ControlPoint.exit.inj (halone _ hstatus)

end

/-- Task `2` runs, reads UFF and asks for its status before task `1` sets UFF. -/
def cleanChild : List (Action Nat Unit) :=
  [.kernel (.fork () 1), .kernel (.fork () 2), .kernel (.contextSwitch () 2), .testuf (),
    .kernel (.prctl () 2 0 0 0), .kernel (.statement ()), .kernel (.contextSwitch () 1),
    .kernel (.prctl () 1 4096 0 0), .kernel (.statement ()), .kernel (.statement ()),
    .kernel (.statement ()), .kernel (.statement ()), .kernel (.stuf ())]

theorem fresh_task_isolated_cleanChild :
    (∃ traced ∈ run (tracedStep true) (.start coldBoot) cleanChild,
      traced.own 2 = [.prctl 2 0 0 0 (.exit 0), .testuf false]) ∧
    ∀ traced ∈ run (tracedStep true) (.start coldBoot) cleanChild,
      Fresh (traced.own 2) → ∀ value, .testuf value ∈ traced.own 2 → value = false :=
  ⟨⟨_, rfl, by decide⟩, fun traced hrun hfresh =>
    (fresh_task_isolated coldBoot_cr4Booted coldBoot_cr4Booted (by decide) (by decide)
      traced hrun traced hrun 2 2 rfl rfl hfresh hfresh).1⟩

/-- Task `2` is forked and switched in while the CPU has the UFF of task `1`. -/
theorem child_reads_uff_of_parent :
    ∃ traced ∈ run (tracedStep true) (.start coldBoot) (enableAndFork ++ [.testuf ()]),
      coldBoot.created 2 = false ∧ Fresh (traced.own 2) ∧ traced.own 2 = [.testuf true] :=
  ⟨_, rfl, by decide⟩

end UserPaging.Linux
