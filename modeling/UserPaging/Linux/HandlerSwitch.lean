import UserPaging.Linux.Cr4Switch

/-!
# The handler register across context switches

`ENABLE` loads the register, sets `thread.ufault_handler` and raises `TIF_UFAULT`
in three steps with preemption on.  A task that is switched out between them comes
back to a register that was loaded for its old flag and its old field, or not at
all: only the switch to a task that is flagged already loads it.
-/

namespace UserPaging.Linux

open UserPaging.Foundation

variable {Task Cpu : Type*}

def Loaded (msr : BitVec 64) (thread : Thread) : ControlPoint → Prop
  | .setHandlerField handler => msr = handler
  | .enable => msr = thread.ufaultHandler
  | .user | .setHandlerMsr _ | .disable | .exit _ =>
      thread.tifUfault = true → msr = thread.ufaultHandler

/-- A task that was switched out inside `ENABLE` must find the handler that it is
about to enable: in its saved field if it is flagged already, in the register of the
CPU if it is not. -/
def Resumable (msr : BitVec 64) (next : Thread) : ControlPoint → Prop
  | .setHandlerField handler =>
      (if next.tifUfault then next.ufaultHandler else msr) = handler
  | .enable => next.tifUfault = false → msr = next.ufaultHandler
  | .user | .setHandlerMsr _ | .disable | .exit _ => True

instance (msr : BitVec 64) (next : Thread) : ∀ point, Decidable (Resumable msr next point)
  | .setHandlerField handler =>
      inferInstanceAs (Decidable
        ((if next.tifUfault then next.ufaultHandler else msr) = handler))
  | .enable =>
      inferInstanceAs (Decidable (next.tifUfault = false → msr = next.ufaultHandler))
  | .user | .setHandlerMsr _ | .disable | .exit _ => inferInstanceAs (Decidable True)

def KeepsHandler (traced : Traced Task Cpu) : Action Task Cpu → Prop
  | .kernel (.contextSwitch cpu next) =>
      Resumable (traced.state.cpu cpu).msrUfaultHandler (traced.state.thread next)
        (traced.state.point next)
  | _ => True

instance (traced : Traced Task Cpu) : ∀ action, Decidable (KeepsHandler traced action)
  | .kernel (.contextSwitch cpu next) =>
      inferInstanceAs (Decidable (Resumable (traced.state.cpu cpu).msrUfaultHandler
        (traced.state.thread next) (traced.state.point next)))
  | .kernel (.fork ..) | .kernel (.prctl ..) | .kernel (.statement _) | .kernel (.stuf _)
  | .kernel (.cluf _) | .kernel (.ufret _) | .kernel (.deliver _) | .testuf _ =>
      inferInstanceAs (Decidable True)

namespace Loaded

variable {msr : BitVec 64} {thread : Thread} {point : ControlPoint}

private theorem of_disabled (hdisabled : thread.tifUfault = false) (hpoint : point.enabling = false)
    (msr : BitVec 64) : Loaded msr thread point := by
  cases point <;> simp_all [Loaded, ControlPoint.enabling]

private theorem prctl (feature : Bool) (hloaded : Loaded msr thread .user)
    (arg2 arg3 arg4 arg5 : BitVec 64) :
    Loaded msr thread (Linux.prctl feature thread arg2 arg3 arg4 arg5) := by
  rcases prctl_cases feature thread arg2 arg3 arg4 arg5 with h | h | ⟨result, h⟩ <;> rw [h] <;>
    exact hloaded

private theorem statement {cpu : CpuState} {outcome : CpuState × Thread × ControlPoint}
    (hloaded : Loaded cpu.msrUfaultHandler thread point)
    (hstatement : prctlStatement cpu thread point = some outcome) :
    Loaded outcome.1.msrUfaultHandler outcome.2.1 outcome.2.2 := by
  cases point <;> simp only [prctlStatement, Option.some.injEq, reduceCtorEq] at hstatement <;>
    subst hstatement
  case setHandlerMsr handler => exact rfl
  case setHandlerField handler => exact hloaded
  case enable =>
      intro _
      have hmsr : (enableUfault cpu thread).1.msrUfaultHandler = cpu.msrUfaultHandler := by
        cases htif : thread.tifUfault <;> simp [enableUfault, htif]
      exact hmsr.trans hloaded
  case disable => exact of_disabled rfl rfl _
  case exit result => exact hloaded

end Loaded

/-! ## The invariant -/

structure HandlerInvariant (feature : Bool) (state : State Task Cpu) : Prop
    extends Cr4Invariant feature state where
  loaded : ∀ cpu, Loaded (state.cpu cpu).msrUfaultHandler (state.running cpu)
    (state.point (state.current cpu))

namespace HandlerInvariant

variable {feature : Bool} {state next : State Task Cpu}

private theorem of_booted (hboot : Cr4Booted state) : HandlerInvariant feature state where
  toCr4Invariant := .of_booted hboot
  loaded := fun _ => .of_disabled (hboot.disabled _) (hboot.user _) _

private theorem loaded_switchUfault (hinv : HandlerInvariant feature state) (cpu : Cpu)
    (task : Task)
    (hresumable : Resumable (state.cpu cpu).msrUfaultHandler (state.thread task)
      (state.point task)) :
    Loaded
      (switchUfault feature (state.cpu cpu) (state.running cpu)
        (state.thread task)).1.msrUfaultHandler
      (state.thread task) (state.point task) := by
  cases feature with
  | false =>
      obtain ⟨hdisabled, hpoint⟩ := hinv.supported rfl task
      exact .of_disabled hdisabled hpoint _
  | true =>
      obtain ⟨uff, hcpu⟩ :=
        switchUfault_cpu (state.cpu cpu) (state.running cpu) (state.thread task)
      rw [hcpu]
      cases hpoint : state.point task <;> rw [hpoint] at hresumable
      case setHandlerField handler => exact hresumable
      case enable =>
          cases htif : (state.thread task).tifUfault with
          | true => simp [Loaded]
          | false => simpa [Loaded] using hresumable htif
      all_goals
        intro henabled
        simp [henabled]

variable [DecidableEq Task] [DecidableEq Cpu]

private theorem loaded_step (hinv : HandlerInvariant feature state) {label : Label Task Cpu}
    {own : Task → List OwnStep} (hkeeps : KeepsHandler ⟨state, own⟩ (.kernel label))
    (hstep : Linux.step feature state label = some next)
    (cpu : Cpu) :
    Loaded (next.cpu cpu).msrUfaultHandler (next.running cpu)
      (next.point (next.current cpu)) := by
  cases moves_of_step hstep with
  | @fork _ child huser hnew =>
      have hne := hinv.current_ne_of_not_created hnew cpu
      simpa [State.fork, State.running, hne] using hinv.loaded cpu
  | @contextSwitch target task hcreated hwaiting =>
      have hnext := (hinv.current_ne_of_waiting hwaiting target).symm
      by_cases hcpu : cpu = target
      · subst hcpu
        simpa [State.contextSwitch, State.running, hnext] using
          hinv.loaded_switchUfault cpu task hkeeps
      · have hne := hinv.current_ne hcpu
        simpa [State.contextSwitch, State.running, hcpu, hne] using hinv.loaded cpu
  | @prctl target arg2 arg3 arg4 arg5 huser =>
      by_cases hcpu : cpu = target
      · subst hcpu
        have hloaded := hinv.loaded cpu
        rw [huser] at hloaded
        simpa [State.enterPrctl, State.running] using
          Loaded.prctl feature hloaded arg2 arg3 arg4 arg5
      · have hne := hinv.current_ne hcpu
        simpa [State.enterPrctl, State.running, hne] using hinv.loaded cpu
  | @statement target outcome hstatement =>
      by_cases hcpu : cpu = target
      · subst hcpu
        simpa [State.runStatement, State.running] using (hinv.loaded cpu).statement hstatement
      · have hne := hinv.current_ne hcpu
        simpa [State.runStatement, State.running, hcpu, hne] using hinv.loaded cpu
  | @stuf target huser | @cluf target huser | @ufret target huser
  | @deliver target huser hdeliver =>
      by_cases hcpu : cpu = target
      · subst hcpu
        simpa [State.setUff, State.running] using hinv.loaded cpu
      · simpa [State.setUff, State.running, hcpu] using hinv.loaded cpu

private theorem tracedStep {traced next : Traced Task Cpu}
    (hinv : HandlerInvariant feature traced.state)
    {action : Action Task Cpu} (hkeeps : KeepsHandler traced action)
    (hstep : Linux.tracedStep feature traced action = some next) :
    HandlerInvariant feature next.state := by
  cases action with
  | kernel label =>
      have hkernel := (tracedStep_kernel.1 hstep).1
      exact ⟨hinv.toCr4Invariant.step hkernel, hinv.loaded_step hkeeps hkernel⟩
  | testuf cpu =>
      obtain ⟨-, rfl⟩ := tracedStep_testuf.1 hstep
      exact hinv

private theorem of_run {boot : State Task Cpu} (hboot : Cr4Booted boot)
    {actions : List (Action Task Cpu)} {traced : Traced Task Cpu}
    (hkeeps : StepsMeet (Linux.tracedStep feature) KeepsHandler (.start boot) actions)
    (hrun : run (Linux.tracedStep feature) (.start boot) actions = some traced) :
    HandlerInvariant feature traced.state :=
  @run_invariant_of_meets _ _ _ _ (fun traced => HandlerInvariant feature traced.state)
    (fun _ _ _ hinv hkeeps hstep => hinv.tracedStep hkeeps hstep) _ _ _
    (of_booted hboot) hkeeps hrun

end HandlerInvariant

/-! ## Whole runs -/

section

variable [DecidableEq Task] [DecidableEq Cpu]

/-- In every run from boot whose switches all keep the handler, a flagged task in user
code has the handler of its last `ENABLE` in its CPU, and every user fault that can be
delivered to a task goes there. -/
theorem handler_of_keepsHandler (feature : Bool) {boot : State Task Cpu}
    (hboot : Cr4Booted boot) {actions : List (Action Task Cpu)}
    (hkeeps : StepsMeet (tracedStep feature) KeepsHandler (.start boot) actions) :
    ∀ traced ∈ run (tracedStep feature) (.start boot) actions, ∀ cpu,
      traced.state.point (traced.state.current cpu) = .user →
        ((traced.state.running cpu).tifUfault = true →
          (traced.state.cpu cpu).msrUfaultHandler = (traced.state.running cpu).ufaultHandler ∧
          lastEnable (traced.own (traced.state.current cpu)) =
            some (traced.state.running cpu).ufaultHandler) ∧
        ((traced.state.cpu cpu).canDeliver = true →
          lastEnable (traced.own (traced.state.current cpu)) =
            some (traced.state.cpu cpu).msrUfaultHandler) := by
  intro traced hrun cpu huser
  have hinv := HandlerInvariant.of_run hboot hkeeps hrun
  have hloaded := hinv.loaded cpu
  have hrecorded := (recorded_of_run hboot.toBooted hrun (traced.state.current cpu)).handler
  rw [huser] at hloaded hrecorded
  refine ⟨fun henabled => ⟨hloaded henabled, hrecorded henabled⟩, fun hdeliver => ?_⟩
  have henabled : (traced.state.running cpu).tifUfault = true :=
    (hinv.bit cpu).symm.trans (bit_of_canDeliver hdeliver)
  rw [hloaded henabled]
  exact hrecorded henabled

end

/-- Tasks `1` and `2` have handlers of their own and are switched in turn. -/
def twoHandlers : List (Action Nat Unit) :=
  enableAndFork ++
    [.kernel (.prctl () 1 8192 0 0), .kernel (.statement ()), .kernel (.statement ()),
      .kernel (.statement ()), .kernel (.statement ()), .kernel (.contextSwitch () 1)]

theorem handler_of_keepsHandler_twoHandlers :
    (run (tracedStep true) (.start coldBoot) twoHandlers).isSome ∧
      ∀ traced ∈ run (tracedStep true) (.start coldBoot) twoHandlers,
        traced.state.point (traced.state.current ()) = .user →
        (traced.state.running ()).tifUfault = true →
          (traced.state.cpu ()).msrUfaultHandler = (traced.state.running ()).ufaultHandler :=
  ⟨by decide, fun traced hrun huser henabled =>
    ((handler_of_keepsHandler true coldBoot_cr4Booted
      (by decide) traced hrun () huser).1
      henabled).1⟩

/-- Task `2` has loaded the register for its `ENABLE` when task `1` is switched in; it
is not flagged, so its own switch back leaves the register of task `1`. -/
def preemptedEnable : List (Action Nat Unit) :=
  enableAndFork ++
    [.kernel (.prctl () 1 8192 0 0), .kernel (.statement ()), .kernel (.contextSwitch () 1),
      .kernel (.contextSwitch () 2), .kernel (.statement ()), .kernel (.statement ()),
      .kernel (.statement ()), .kernel (.stuf ()), .kernel (.deliver ())]

theorem fault_delivered_to_other_handler :
    ∃ traced ∈ run (tracedStep true) (.start coldBoot) preemptedEnable,
      (traced.state.running ()).tifUfault = true ∧
        (traced.state.running ()).ufaultHandler = 8192 ∧
        (traced.state.cpu ()).msrUfaultHandler = 4096 ∧
        traced.own 2 = [.userFault 4096, .stuf, .prctl 1 8192 0 0 (.setHandlerMsr 8192)] := by
  refine ⟨_, rfl, ?_⟩
  decide

end UserPaging.Linux
