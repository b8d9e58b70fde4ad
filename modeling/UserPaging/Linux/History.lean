import Mathlib.Tactic.SplitIfs
import UserPaging.Linux.Scheduling

/-!
# What a task did itself

A run together with the history of every task: the system calls and instructions
that the task issued, each with what it read.  `TaskStep` says what one step of the
system can do to one task; the flag, the handler and the history of a task are
related by induction over it.
-/

namespace UserPaging.Linux

open UserPaging.Foundation

variable {Task Cpu : Type*}

/-- A step of the task's own.  A call of `prctl` is logged with the point at which
it leaves the task, `exit` for a call that is answered without an effect. -/
inductive OwnStep where
  | prctl (arg2 arg3 arg4 arg5 : BitVec 64) (entered : ControlPoint)
  | stuf
  | cluf
  | ufret
  | testuf (value : Bool)
  | userFault (handler : BitVec 64)
  deriving DecidableEq, Repr

namespace OwnStep

def enableArg : OwnStep → Option (BitVec 64)
  | .prctl _ arg3 _ _ (.setHandlerMsr _) => some arg3
  | _ => none

def turns : OwnStep → Option Bool
  | .prctl _ _ _ _ (.setHandlerMsr _) => some true
  | .prctl _ _ _ _ .disable => some false
  | _ => none

end OwnStep

/-- The argument of the last `ENABLE` in a history, which has the newest step first. -/
def lastEnable (own : List OwnStep) : Option (BitVec 64) :=
  own.findSome? OwnStep.enableArg

def turnedOn (own : List OwnStep) : Bool :=
  (own.findSome? OwnStep.turns).getD false

structure Traced (Task Cpu : Type*) where
  state : State Task Cpu
  own : Task → List OwnStep

inductive Action (Task Cpu : Type*) where
  | kernel (label : Label Task Cpu)
  | testuf (cpu : Cpu)
  deriving DecidableEq, Repr

def ownStep (feature : Bool) (state : State Task Cpu) :
    Label Task Cpu → Option (Cpu × OwnStep)
  | .prctl cpu arg2 arg3 arg4 arg5 =>
      some (cpu, .prctl arg2 arg3 arg4 arg5
        (prctl feature (state.running cpu) arg2 arg3 arg4 arg5))
  | .stuf cpu => some (cpu, .stuf)
  | .cluf cpu => some (cpu, .cluf)
  | .ufret cpu => some (cpu, .ufret)
  | .deliver cpu => some (cpu, .userFault (state.cpu cpu).msrUfaultHandler)
  | .fork .. | .contextSwitch .. | .statement _ => none

namespace Traced

def start (boot : State Task Cpu) : Traced Task Cpu := ⟨boot, fun _ => []⟩

variable [DecidableEq Task]

def log (traced : Traced Task Cpu) : Option (Cpu × OwnStep) → Task → List OwnStep
  | none => traced.own
  | some (cpu, step) =>
      let task := traced.state.current cpu
      Function.update traced.own task (step :: traced.own task)

@[simp] theorem log_none (traced : Traced Task Cpu) : traced.log none = traced.own := rfl

theorem log_current (traced : Traced Task Cpu) (cpu : Cpu) (step : OwnStep) :
    traced.log (some (cpu, step)) (traced.state.current cpu) =
      step :: traced.own (traced.state.current cpu) := by
  simp [log]

theorem log_of_ne (traced : Traced Task Cpu) {cpu : Cpu} {task : Task}
    (htask : task ≠ traced.state.current cpu) (step : OwnStep) :
    traced.log (some (cpu, step)) task = traced.own task := by
  simp [log, htask]

end Traced

section

variable [DecidableEq Task] [DecidableEq Cpu]

def tracedStep (feature : Bool) (traced : Traced Task Cpu) :
    Action Task Cpu → Option (Traced Task Cpu)
  | .kernel label =>
      (step feature traced.state label).map fun next =>
        ⟨next, traced.log (ownStep feature traced.state label)⟩
  | .testuf cpu =>
      if traced.state.point (traced.state.current cpu) = .user then
        some ⟨traced.state, traced.log (some (cpu, .testuf (traced.state.cpu cpu).testuf))⟩
      else none

variable {feature : Bool} {traced next : Traced Task Cpu}

theorem tracedStep_kernel {label : Label Task Cpu} :
    tracedStep feature traced (.kernel label) = some next ↔
      step feature traced.state label = some next.state ∧
        next.own = traced.log (ownStep feature traced.state label) := by
  obtain ⟨nextState, nextOwn⟩ := next
  simp only [tracedStep, Option.map_eq_some_iff, Traced.mk.injEq]
  constructor
  · rintro ⟨state, hstep, rfl, rfl⟩
    exact ⟨hstep, rfl⟩
  · rintro ⟨hstep, hown⟩
    exact ⟨nextState, hstep, rfl, hown.symm⟩

theorem tracedStep_testuf {cpu : Cpu} :
    tracedStep feature traced (.testuf cpu) = some next ↔
      traced.state.point (traced.state.current cpu) = .user ∧
        next = ⟨traced.state,
          traced.log (some (cpu, .testuf (traced.state.cpu cpu).testuf))⟩ := by
  rw [eq_comm (a := next)]
  simp only [tracedStep, Option.ite_none_right_eq_some, Option.some.injEq]

theorem traced_invariant {inv : State Task Cpu → Prop}
    (hkeep : ∀ state label next, inv state → step feature state label = some next → inv next)
    {boot : State Task Cpu} (hboot : inv boot) {actions : List (Action Task Cpu)}
    (hrun : run (tracedStep feature) (.start boot) actions = some traced) :
    inv traced.state := by
  refine @run_invariant _ _ _ (fun traced => inv traced.state) ?_ _ _ _ hboot hrun
  intro before action after hinv hstep
  cases action with
  | kernel label => exact hkeep _ _ _ hinv (tracedStep_kernel.1 hstep).1
  | testuf cpu =>
      obtain ⟨-, rfl⟩ := tracedStep_testuf.1 hstep
      exact hinv

end

/-! ## One task -/

/-- What a step of the system can do to the thread, the point and the history of a
single task. -/
inductive TaskStep (feature : Bool) (thread : Thread) (point : ControlPoint)
    (own : List OwnStep) : Thread → ControlPoint → List OwnStep → Prop where
  | idle : TaskStep feature thread point own thread point own
  | forked (parent : Thread) :
      TaskStep feature thread point own (clearUfault parent) .user own
  | switchedOut (uff : Bool) :
      TaskStep feature thread point own { thread with uff := uff } point own
  | prctl (huser : point = .user) (arg2 arg3 arg4 arg5 : BitVec 64) :
      TaskStep feature thread point own thread (prctl feature thread arg2 arg3 arg4 arg5)
        (.prctl arg2 arg3 arg4 arg5 (prctl feature thread arg2 arg3 arg4 arg5) :: own)
  | statement {cpu : CpuState} {outcome : CpuState × Thread × ControlPoint}
      (hstatement : prctlStatement cpu thread point = some outcome) :
      TaskStep feature thread point own outcome.2.1 outcome.2.2 own
  | observed (huser : point = .user) {step : OwnStep} (harg : step.enableArg = none)
      (hturns : step.turns = none) :
      TaskStep feature thread point own thread point (step :: own)

section

variable [DecidableEq Task] {feature : Bool} {traced next : Traced Task Cpu}

private theorem taskStep_observed {cpu : Cpu}
    (huser : traced.state.point (traced.state.current cpu) = .user)
    {step : OwnStep} (harg : step.enableArg = none) (hturns : step.turns = none) (task : Task) :
    TaskStep feature (traced.state.thread task) (traced.state.point task) (traced.own task)
      (traced.state.thread task) (traced.state.point task)
      (traced.log (some (cpu, step)) task) := by
  by_cases htask : task = traced.state.current cpu
  · subst htask
    rw [traced.log_current]
    exact .observed huser harg hturns
  · rw [traced.log_of_ne htask]
    exact .idle

variable [DecidableEq Cpu]

theorem taskStep_of_tracedStep {action : Action Task Cpu}
    (hstep : tracedStep feature traced action = some next) (task : Task) :
    TaskStep feature (traced.state.thread task) (traced.state.point task) (traced.own task)
      (next.state.thread task) (next.state.point task) (next.own task) := by
  cases action with
  | testuf cpu =>
      obtain ⟨huser, rfl⟩ := tracedStep_testuf.1 hstep
      exact taskStep_observed huser rfl rfl task
  | kernel label =>
      obtain ⟨nextState, nextOwn⟩ := next
      obtain ⟨hkernel, hown⟩ := tracedStep_kernel.1 hstep
      dsimp only at hkernel hown ⊢
      subst hown
      cases moves_of_step hkernel with
      | @fork cpu child huser hnew =>
          by_cases htask : task = child
          · subst htask
            simpa [State.fork, ownStep] using .forked (traced.state.running cpu)
          · simpa [State.fork, ownStep, htask] using .idle
      | @contextSwitch cpu target hcreated hwaiting =>
          by_cases htask : task = traced.state.current cpu
          · subst htask
            obtain ⟨uff, huff⟩ := switchUfault_thread feature (traced.state.cpu cpu)
              (traced.state.thread (traced.state.current cpu)) (traced.state.thread target)
            simpa [State.contextSwitch, ownStep, huff] using .switchedOut uff
          · simpa [State.contextSwitch, ownStep, htask] using .idle
      | @prctl cpu arg2 arg3 arg4 arg5 huser =>
          by_cases htask : task = traced.state.current cpu
          · subst htask
            simpa [State.enterPrctl, State.running, ownStep, traced.log_current] using
              .prctl huser arg2 arg3 arg4 arg5
          · simpa [State.enterPrctl, ownStep, htask, traced.log_of_ne htask] using .idle
      | @statement cpu outcome hstatement =>
          by_cases htask : task = traced.state.current cpu
          · subst htask
            simpa [State.runStatement, ownStep] using .statement hstatement
          · simpa [State.runStatement, ownStep, htask] using .idle
      | stuf huser | cluf huser | ufret huser | deliver huser =>
          exact taskStep_observed huser rfl rfl task

end

/-! ## The flag, the handler and the history of a task -/

theorem prctl_cases (feature : Bool) (thread : Thread) (arg2 arg3 arg4 arg5 : BitVec 64) :
    prctl feature thread arg2 arg3 arg4 arg5 = .setHandlerMsr arg3 ∨
      prctl feature thread arg2 arg3 arg4 arg5 = .disable ∨
      ∃ result, prctl feature thread arg2 arg3 arg4 arg5 = .exit result := by
  simp only [prctl, prctlUfault]
  split_ifs <;> simp

/-- From its last `ENABLE` on, the handler of a task is the one given there. -/
def HandlerRecorded (thread : Thread) (own : List OwnStep) : ControlPoint → Prop
  | .setHandlerMsr handler | .setHandlerField handler => lastEnable own = some handler
  | .enable => lastEnable own = some thread.ufaultHandler
  | .user | .disable | .exit _ =>
      thread.tifUfault = true → lastEnable own = some thread.ufaultHandler

structure Recorded (thread : Thread) (point : ControlPoint) (own : List OwnStep) : Prop where
  flag : thread.tifUfault = true → turnedOn own = true ∨ point = .disable
  enabling : point.enabling = true → turnedOn own = true
  handler : HandlerRecorded thread own point

namespace Recorded

variable {feature : Bool} {thread thread' : Thread} {point point' : ControlPoint}
  {own own' : List OwnStep}

theorem of_disabled (hdisabled : thread.tifUfault = false) (hpoint : point.enabling = false)
    (own : List OwnStep) : Recorded thread point own where
  flag := fun henabled => by simp [hdisabled] at henabled
  enabling := fun henabling => by simp [hpoint] at henabling
  handler := by cases point <;> simp_all [ControlPoint.enabling, HandlerRecorded]

theorem prctl (hrec : Recorded thread .user own) (arg2 arg3 arg4 arg5 : BitVec 64) :
    Recorded thread (Linux.prctl feature thread arg2 arg3 arg4 arg5)
      (.prctl arg2 arg3 arg4 arg5 (Linux.prctl feature thread arg2 arg3 arg4 arg5) :: own) := by
  obtain ⟨hflag, -, hhandler⟩ := hrec
  rcases prctl_cases feature thread arg2 arg3 arg4 arg5 with h | h | ⟨result, h⟩ <;> rw [h]
  · exact ⟨fun _ => .inl rfl, fun _ => rfl, rfl⟩
  · exact ⟨fun _ => .inr rfl, by simp [ControlPoint.enabling], hhandler⟩
  · have hon : thread.tifUfault = true → turnedOn own = true := by simpa using hflag
    exact ⟨fun henabled => .inl (hon henabled), by simp [ControlPoint.enabling], hhandler⟩

theorem statement (hrec : Recorded thread point own) {cpu : CpuState}
    {outcome : CpuState × Thread × ControlPoint}
    (hstatement : prctlStatement cpu thread point = some outcome) :
    Recorded outcome.2.1 outcome.2.2 own := by
  obtain ⟨hflag, henabling, hhandler⟩ := hrec
  cases point <;> simp only [prctlStatement, Option.some.injEq, reduceCtorEq] at hstatement <;>
    subst hstatement
  case setHandlerMsr handler => exact ⟨fun _ => .inl (henabling rfl), henabling, hhandler⟩
  case setHandlerField handler => exact ⟨fun _ => .inl (henabling rfl), henabling, hhandler⟩
  case enable =>
      exact ⟨fun _ => .inl (henabling rfl), by simp [ControlPoint.enabling], fun _ => hhandler⟩
  case disable => exact .of_disabled rfl rfl own
  case exit result =>
      refine ⟨fun henabled => .inl ?_, by simp [ControlPoint.enabling], hhandler⟩
      simpa using hflag henabled

private theorem observed (hrec : Recorded thread .user own) {step : OwnStep}
    (harg : step.enableArg = none) (hturns : step.turns = none) :
    Recorded thread .user (step :: own) := by
  obtain ⟨hflag, henabling, hhandler⟩ := hrec
  refine ⟨fun henabled => ?_, by simp [ControlPoint.enabling], fun henabled => ?_⟩
  · simpa [turnedOn, List.findSome?_cons, hturns] using hflag henabled
  · simpa [lastEnable, List.findSome?_cons, harg] using hhandler henabled

theorem taskStep (hrec : Recorded thread point own)
    (hstep : TaskStep feature thread point own thread' point' own') :
    Recorded thread' point' own' := by
  cases hstep with
  | idle => exact hrec
  | forked parent => exact .of_disabled rfl rfl own
  | switchedOut uff =>
      refine ⟨hrec.flag, hrec.enabling, ?_⟩
      have hhandler := hrec.handler
      cases point <;> exact hhandler
  | prctl huser arg2 arg3 arg4 arg5 =>
      subst huser
      exact hrec.prctl arg2 arg3 arg4 arg5
  | statement hstatement => exact hrec.statement hstatement
  | observed huser harg hturns =>
      subst huser
      exact hrec.observed harg hturns

end Recorded

section

variable [DecidableEq Task] [DecidableEq Cpu]

def Traced.Recorded (traced : Traced Task Cpu) : Prop :=
  ∀ task, Linux.Recorded (traced.state.thread task) (traced.state.point task) (traced.own task)

theorem recorded_of_run {feature : Bool} {boot : State Task Cpu} (hboot : Booted boot)
    {actions : List (Action Task Cpu)} {traced : Traced Task Cpu}
    (hrun : run (tracedStep feature) (.start boot) actions = some traced) : traced.Recorded := by
  refine run_invariant ?_ ?_ hrun
  · exact fun _ _ _ hrec hstep task => (hrec task).taskStep (taskStep_of_tracedStep hstep task)
  · exact fun task => .of_disabled (hboot.disabled task) (hboot.user task) []

end

end UserPaging.Linux
