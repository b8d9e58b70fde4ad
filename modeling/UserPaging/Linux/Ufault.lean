import Mathlib.Logic.Function.Basic
import UserPaging.Foundation.Run

/-!
# User faults in Linux: `switch_ufault`, `clear_ufault` and `prctl(PR_UFAULT)`

The kernel side of user faults keeps three things per task (`TIF_UFAULT`,
`thread.ufault_handler`, `thread.uff`) for three things that each CPU has only
once (`CR4.UFAULT`, the handler MSR and the user fault flag UFF).  Tasks and
CPUs are arbitrary types here; a task takes part in a run once it is created.

A call of `prctl_ufault` is preemptible between any two statements outside the
`preempt_disable` regions, so a task inside it stands at a `ControlPoint`.
-/

namespace UserPaging.Linux

open UserPaging.Foundation

def x86Cr4Ufault : BitVec 64 := 1#64 <<< 26

def eInval : Int := 22

structure Thread where
  tifUfault : Bool
  ufaultHandler : BitVec 64
  uff : Bool
  deriving DecidableEq, Repr

structure CpuState where
  cr4 : BitVec 64
  /-- `cpu_tlbstate.cr4`, the kernel's copy of the register. -/
  cr4Shadow : BitVec 64
  msrUfaultHandler : BitVec 64
  uff : Bool
  deriving DecidableEq, Repr

namespace CpuState

def writeCr4 (cpu : CpuState) (newval : BitVec 64) : CpuState :=
  if newval ≠ cpu.cr4Shadow then { cpu with cr4 := newval, cr4Shadow := newval } else cpu

def cr4ToggleBits (cpu : CpuState) (mask : BitVec 64) : CpuState :=
  cpu.writeCr4 (cpu.cr4Shadow ^^^ mask)

def cr4SetBits (cpu : CpuState) (mask : BitVec 64) : CpuState :=
  cpu.writeCr4 (cpu.cr4Shadow ||| mask)

def cr4ClearBits (cpu : CpuState) (mask : BitVec 64) : CpuState :=
  cpu.writeCr4 (cpu.cr4Shadow &&& ~~~mask)

def wrmsrUfaultHandler (cpu : CpuState) (handler : BitVec 64) : CpuState :=
  { cpu with msrUfaultHandler := handler }

def stuf (cpu : CpuState) : CpuState := { cpu with uff := true }

def cluf (cpu : CpuState) : CpuState := { cpu with uff := false }

def testuf (cpu : CpuState) : Bool := cpu.uff

/-- Hardware delivers user faults only with `CR4.UFAULT` and UFF both set. -/
def canDeliver (cpu : CpuState) : Bool :=
  decide (cpu.cr4 &&& x86Cr4Ufault ≠ 0) && cpu.uff

@[simp] theorem writeCr4_uff (cpu : CpuState) (newval : BitVec 64) :
    (cpu.writeCr4 newval).uff = cpu.uff := by
  unfold writeCr4
  split <;> rfl

@[simp] theorem writeCr4_msrUfaultHandler (cpu : CpuState) (newval : BitVec 64) :
    (cpu.writeCr4 newval).msrUfaultHandler = cpu.msrUfaultHandler := by
  unfold writeCr4
  split <;> rfl

@[simp] theorem cr4ToggleBits_uff (cpu : CpuState) (mask : BitVec 64) :
    (cpu.cr4ToggleBits mask).uff = cpu.uff := cpu.writeCr4_uff _

@[simp] theorem cr4ToggleBits_msrUfaultHandler (cpu : CpuState) (mask : BitVec 64) :
    (cpu.cr4ToggleBits mask).msrUfaultHandler = cpu.msrUfaultHandler :=
  cpu.writeCr4_msrUfaultHandler _

@[simp] theorem cr4SetBits_uff (cpu : CpuState) (mask : BitVec 64) :
    (cpu.cr4SetBits mask).uff = cpu.uff := cpu.writeCr4_uff _

@[simp] theorem cr4SetBits_msrUfaultHandler (cpu : CpuState) (mask : BitVec 64) :
    (cpu.cr4SetBits mask).msrUfaultHandler = cpu.msrUfaultHandler :=
  cpu.writeCr4_msrUfaultHandler _

@[simp] theorem cr4ClearBits_uff (cpu : CpuState) (mask : BitVec 64) :
    (cpu.cr4ClearBits mask).uff = cpu.uff := cpu.writeCr4_uff _

@[simp] theorem cr4ClearBits_msrUfaultHandler (cpu : CpuState) (mask : BitVec 64) :
    (cpu.cr4ClearBits mask).msrUfaultHandler = cpu.msrUfaultHandler :=
  cpu.writeCr4_msrUfaultHandler _

@[simp] theorem wrmsrUfaultHandler_uff (cpu : CpuState) (handler : BitVec 64) :
    (cpu.wrmsrUfaultHandler handler).uff = cpu.uff := rfl

@[simp] theorem stuf_uff (cpu : CpuState) : cpu.stuf.uff = true := rfl

@[simp] theorem cluf_uff (cpu : CpuState) : cpu.cluf.uff = false := rfl

end CpuState

/--
`switch_ufault(prev, next)`: the CPU and the outgoing task afterwards.  UFF is
saved only for an enabled `prev`, and it is written for an enabled `next` only
when the two saved fields differ.
-/
def switchUfault (feature : Bool) (cpu : CpuState) (prev next : Thread) :
    CpuState × Thread :=
  if !feature then (cpu, prev)
  else
    let cpu :=
      if next.tifUfault != prev.tifUfault then cpu.cr4ToggleBits x86Cr4Ufault else cpu
    let prev := if prev.tifUfault then { prev with uff := cpu.testuf } else prev
    if next.tifUfault then
      let cpu := cpu.wrmsrUfaultHandler next.ufaultHandler
      if next.uff != prev.uff then
        if next.uff then (cpu.stuf, prev) else (cpu.cluf, prev)
      else (cpu, prev)
    else (cpu, prev)

def clearUfault (task : Thread) : Thread :=
  { task with tifUfault := false, ufaultHandler := 0, uff := false }

/-- `disable_ufault`, whose body runs with preemption off. -/
def disableUfault (cpu : CpuState) (current : Thread) : CpuState × Thread :=
  (if current.tifUfault then cpu.cr4ClearBits x86Cr4Ufault else cpu,
    { current with tifUfault := false })

def enableUfault (cpu : CpuState) (current : Thread) : CpuState × Thread :=
  (if !current.tifUfault then cpu.cr4SetBits x86Cr4Ufault else cpu,
    { current with tifUfault := true })

/-- Where a task stands: in user code, before one of the statements of
`prctl_ufault`, or about to return from it. -/
inductive ControlPoint where
  | user
  | setHandlerMsr (handler : BitVec 64)
  | setHandlerField (handler : BitVec 64)
  | enable
  | disable
  | exit (result : Int)
  deriving DecidableEq, Repr

/-- `prctl_ufault(opt, arg)` up to its first statement with an effect. -/
def prctlUfault (feature : Bool) (current : Thread) (opt arg : BitVec 64) :
    ControlPoint :=
  if !feature then .exit (-eInval)
  else if opt = 0 then
    if arg ≠ 0 then .exit (-eInval) else .disable
  else if opt = 1 then .setHandlerMsr arg
  else if opt = 2 then
    if arg ≠ 0 then .exit (-eInval)
    else .exit (if current.tifUfault then 1 else 0)
  else .exit (-eInval)

def prctl (feature : Bool) (current : Thread) (arg2 arg3 arg4 arg5 : BitVec 64) :
    ControlPoint :=
  if arg4 ≠ 0 ∨ arg5 ≠ 0 then .exit (-eInval)
  else prctlUfault feature current arg2 arg3

def prctlStatement (cpu : CpuState) (current : Thread) :
    ControlPoint → Option (CpuState × Thread × ControlPoint)
  | .user => none
  | .setHandlerMsr handler =>
      some (cpu.wrmsrUfaultHandler handler, current, .setHandlerField handler)
  | .setHandlerField handler =>
      some (cpu, { current with ufaultHandler := handler }, .enable)
  | .enable =>
      some ((enableUfault cpu current).1, (enableUfault cpu current).2, .exit 0)
  | .disable =>
      some ((disableUfault cpu current).1, (disableUfault cpu current).2, .exit 0)
  | .exit _ => some (cpu, current, .user)

variable {Task Cpu : Type*}

structure State (Task Cpu : Type*) where
  thread : Task → Thread
  point : Task → ControlPoint
  created : Task → Bool
  /-- The CPU a task runs on, `none` while it waits for one. -/
  onCpu : Task → Option Cpu
  current : Cpu → Task
  cpu : Cpu → CpuState
  /-- The value left by the task's own last step that changed UFF. -/
  lastUff : Task → Bool

inductive Label (Task Cpu : Type*) where
  | fork (cpu : Cpu) (child : Task)
  | contextSwitch (cpu : Cpu) (next : Task)
  | prctl (cpu : Cpu) (arg2 arg3 arg4 arg5 : BitVec 64)
  | statement (cpu : Cpu)
  | stuf (cpu : Cpu)
  | cluf (cpu : Cpu)
  | ufret (cpu : Cpu)
  | deliver (cpu : Cpu)
  deriving DecidableEq, Repr

namespace State

def running (state : State Task Cpu) (cpu : Cpu) : Thread :=
  state.thread (state.current cpu)

variable [DecidableEq Task] [DecidableEq Cpu]

/-- `arch_dup_task_struct` copies the parent and clears the copy. -/
def fork (state : State Task Cpu) (cpu : Cpu) (child : Task) : State Task Cpu :=
  { state with
    thread := Function.update state.thread child (clearUfault (state.running cpu))
    point := Function.update state.point child .user
    created := Function.update state.created child true
    lastUff := Function.update state.lastUff child false }

def contextSwitch (feature : Bool) (state : State Task Cpu) (cpu : Cpu) (next : Task) :
    State Task Cpu :=
  let prev := state.current cpu
  let switched :=
    switchUfault feature (state.cpu cpu) (state.thread prev) (state.thread next)
  { state with
    thread := Function.update state.thread prev switched.2
    onCpu := Function.update (Function.update state.onCpu prev none) next (some cpu)
    current := Function.update state.current cpu next
    cpu := Function.update state.cpu cpu switched.1 }

def setUff (state : State Task Cpu) (cpu : Cpu) (value : Bool) : State Task Cpu :=
  { state with
    cpu := Function.update state.cpu cpu { state.cpu cpu with uff := value }
    lastUff := Function.update state.lastUff (state.current cpu) value }

def enterPrctl (state : State Task Cpu) (cpu : Cpu) (point : ControlPoint) :
    State Task Cpu :=
  { state with point := Function.update state.point (state.current cpu) point }

def runStatement (state : State Task Cpu) (cpu : Cpu)
    (outcome : CpuState × Thread × ControlPoint) : State Task Cpu :=
  let current := state.current cpu
  { state with
    cpu := Function.update state.cpu cpu outcome.1
    thread := Function.update state.thread current outcome.2.1
    point := Function.update state.point current outcome.2.2 }

end State

def step [DecidableEq Task] [DecidableEq Cpu] (feature : Bool)
    (state : State Task Cpu) : Label Task Cpu → Option (State Task Cpu)
  | .fork cpu child =>
      if state.point (state.current cpu) = .user ∧ state.created child = false then
        some (state.fork cpu child)
      else none
  | .contextSwitch cpu next =>
      if state.created next = true ∧ state.onCpu next = none then
        some (state.contextSwitch feature cpu next)
      else none
  | .prctl cpu arg2 arg3 arg4 arg5 =>
      if state.point (state.current cpu) = .user then
        some (state.enterPrctl cpu (prctl feature (state.running cpu) arg2 arg3 arg4 arg5))
      else none
  | .statement cpu =>
      (prctlStatement (state.cpu cpu) (state.running cpu)
        (state.point (state.current cpu))).map (state.runStatement cpu)
  | .stuf cpu =>
      if state.point (state.current cpu) = .user then some (state.setUff cpu true)
      else none
  | .cluf cpu =>
      if state.point (state.current cpu) = .user then some (state.setUff cpu false)
      else none
  | .ufret cpu =>
      if state.point (state.current cpu) = .user then some (state.setUff cpu true)
      else none
  | .deliver cpu =>
      if state.point (state.current cpu) = .user ∧ (state.cpu cpu).canDeliver then
        some (state.setUff cpu false)
      else none

end UserPaging.Linux
