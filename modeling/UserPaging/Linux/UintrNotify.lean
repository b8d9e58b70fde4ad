import UserPaging.Linux.Uintr

/-!
# How a user interrupt reaches its receiver

The calls of `Linux.Uintr` are whole steps there.  Posting an interrupt is not: a
sender writes to the UPID while the receiver is switched out, returns to user mode,
goes to sleep or takes an earlier interrupt on another CPU.  Here every access to a
UPID is a step, and the steps of any number of CPUs and senders come in any order.

What the hardware does is part of the state.  A CPU has the registers `UINV` and
`UIRR`, which `XSAVES` and `XRSTORS` move, and a bit of its local APIC for each of
the two vectors.  `SENDUIPI` changes a UPID in one access.  Recognition takes two:
`ON` is cleared, and then `PUIR` is moved into `UIRR`.
-/

namespace UserPaging.Linux.Notify

open UserPaging.Foundation UserPaging.Linux.Uintr

abbrev Cpu := Nat
abbrev Sender := Nat

/-- Where a CPU is.  In `user` and `kernel` it takes interrupts; the other modes are the stages
of `__switch_to` and of the return to user mode, in which they are off. -/
inductive Mode where
  | user
  | kernel
  | saved (interruptible : Bool)
  | blocking
  | prepared
  | restored
  | armed
  | routed
  | unsuppressed
  deriving DecidableEq

/-- The state that `XSAVES` saves: whether `UINV` holds the notification vector, and `UIRR`. -/
structure Regs where
  uinv : Bool := false
  uirr : BitVec 64 := 0

/-- The `owner` is the task whose state the registers hold, as far as the kernel knows. -/
structure Core where
  current : Option Task := none
  mode : Mode := .kernel
  regs : Regs := {}
  owner : Option Task := none
  recognizing : Bool := false

structure Apic where
  notification : Bool := false
  kernelVector : Bool := false

/-- The CPU whose registers are those of the task (`none` under `TIF_NEED_FPU_LOAD`) and the
state in memory. -/
structure Fpu where
  loaded : Option Cpu := none
  saved : Regs := {}

/-- The flags of a task: `upid_ctx->waiting`, whether it sleeps, and `on_cpu`. -/
structure Flags where
  waiting : Bool := false
  asleep : Bool := false
  onCpu : Bool := false

/-- Where a kernel thread is in `uintr_notify_receiver` or in `fixup_uintr_gp_exception`. -/
inductive Posting where
  | idle
  | posted (t : Task)
  | unsuppressed (t : Task)
  | outstanding (t : Task)
  | unblocked (t : Task) (uvec : Nat)
  | fixed (t : Task)
  | woken (t : Task)

structure State where
  cost : Task → Option WaitingCost
  core : Cpu → Core
  apic : Cpu → Apic
  fpu : Task → Fpu
  upid : Task → Upid
  flags : Task → Flags
  waitList : List Task
  senders : Sender → Posting

namespace State

@[simps]
def setCore (s : State) (c : Cpu) (x : Core) : State :=
  { s with core := Function.update s.core c x }

@[simps]
def setApic (s : State) (c : Cpu) (x : Apic) : State :=
  { s with apic := Function.update s.apic c x }

@[simps]
def setFpu (s : State) (t : Task) (x : Fpu) : State :=
  { s with fpu := Function.update s.fpu t x }

@[simps]
def setUpid (s : State) (t : Task) (x : Upid) : State :=
  { s with upid := Function.update s.upid t x }

@[simps]
def setFlags (s : State) (t : Task) (x : Flags) : State :=
  { s with flags := Function.update s.flags t x }

@[simps]
def setWaitList (s : State) (x : List Task) : State := { s with waitList := x }

@[simps]
def setSender (s : State) (k : Sender) (x : Posting) : State :=
  { s with senders := Function.update s.senders k x }

def setMode (s : State) (c : Cpu) (mode : Mode) : State :=
  s.setCore c { s.core c with mode := mode }

/-! ### Posting -/

def ipi (s : State) (c : Cpu) (vector : Nat) : State :=
  if vector = uintrNotificationVector then s.setApic c { s.apic c with notification := true }
  else if vector = uintrKernelVector then s.setApic c { s.apic c with kernelVector := true }
  else s

def senduipi (s : State) (t : Task) (uvec : Nat) : State :=
  let upid := s.upid t
  if upid.blkd then s
  else if !upid.on && !upid.sn then (s.setUpid t (upid.post uvec)).ipi upid.ndst upid.nv
  else s.setUpid t (upid.post uvec)

/-- `uintr_notify_receiver`: `set_bit` on `puir`, `test_bit` on `SN`, `test_and_set_bit` on
`ON`, and the interrupt, each for itself. -/
def notifyPost (s : State) (k : Sender) (t : Task) (uvec : Nat) : State :=
  match s.senders k with
  | .idle =>
      (s.setUpid t { s.upid t with puir := setBit (s.upid t).puir uvec }).setSender k (.posted t)
  | _ => s

def notifyTestSn (s : State) (k : Sender) : State :=
  match s.senders k with
  | .posted t => s.setSender k (if (s.upid t).sn then .idle else .unsuppressed t)
  | _ => s

def notifyTestAndSetOn (s : State) (k : Sender) : State :=
  match s.senders k with
  | .unsuppressed t =>
      (s.setUpid t { s.upid t with on := true }).setSender k
        (if (s.upid t).on then .idle else .outstanding t)
  | _ => s

def notifySend (s : State) (k : Sender) : State :=
  match s.senders k with
  | .outstanding t => (s.ipi (s.upid t).ndst (s.upid t).nv).setSender k .idle
  | _ => s

/-- `fixup_uintr_gp_exception`: `test_and_clear_bit` on `BLKD`, `set_bit` on `puir` and on
`ON`, and the end of the wait. -/
def fixupUnblock (s : State) (k : Sender) (t : Task) (uvec : Nat) : State :=
  match s.senders k with
  | .idle =>
      if (s.upid t).blkd then
        (s.setUpid t { s.upid t with blkd := false }).setSender k (.unblocked t uvec)
      else s
  | _ => s

def fixupPost (s : State) (k : Sender) : State :=
  match s.senders k with
  | .unblocked t uvec =>
      (s.setUpid t { s.upid t with puir := setBit (s.upid t).puir uvec }).setSender k (.fixed t)
  | _ => s

def fixupSetOn (s : State) (k : Sender) : State :=
  match s.senders k with
  | .fixed t => (s.setUpid t { s.upid t with on := true }).setSender k (.woken t)
  | _ => s

def fixupWake (s : State) (k : Sender) : State :=
  match s.senders k with
  | .woken t =>
      (s.setFlags t { s.flags t with waiting := false, asleep := false }).setSender k .idle
  | _ => s

/-! ### The wait list -/

/-- The body of the loop of `uintr_wake_up_process`. -/
def wakeUpEntry (s : State) (t : Task) : State :=
  if (s.upid t).on then
    ((s.setUpid t { s.upid t with sn := true, nv := uintrNotificationVector }).setFlags t
      { s.flags t with waiting := false, asleep := false }).setWaitList (s.waitList.erase t)
  else s

def uintrWakeUpProcess (s : State) : State := s.waitList.foldl wakeUpEntry s

/-- The body of the loop of `uintr_remove_task_wait`. -/
def removeEntry (task : Task) (s : State) (t : Task) : State :=
  if t = task then
    ((s.setUpid t { s.upid t with nv := uintrNotificationVector }).setFlags t
      { s.flags t with waiting := false }).setWaitList (s.waitList.erase t)
  else s

def uintrRemoveTaskWait (s : State) (task : Task) : State :=
  s.waitList.foldl (removeEntry task) s

/-! ### Context switches -/

def xsaves (s : State) (c : Cpu) (t : Task) : State :=
  (s.setFpu t ⟨none, (s.core c).regs⟩).setCore c
    { s.core c with regs := { (s.core c).regs with uinv := false } }

def enter (s : State) (c : Cpu) : State :=
  if (s.core c).mode = .user ∧ (s.core c).recognizing = false then s.setMode c .kernel else s

def kernelFpuBegin (s : State) (c : Cpu) : State :=
  match (s.core c).current with
  | some t =>
      if (s.core c).mode = .kernel ∧ (s.core c).recognizing = false ∧
          (s.fpu t).loaded = some c then
        let s := s.xsaves c t
        s.setCore c { s.core c with owner := none }
      else s
  | none => s

/-- The first part of `__switch_to`: `switch_fpu` saves the registers. -/
def switchFpu (s : State) (c : Cpu) (interruptible sleeps : Bool) : State :=
  if (s.core c).mode = .kernel ∧ (s.core c).recognizing = false then
    match (s.core c).current with
    | some t =>
        let s := s.setFlags t { s.flags t with asleep := sleeps }
        let s := if (s.fpu t).loaded = some c then s.xsaves c t else s
        s.setMode c (.saved interruptible)
    | none => s.setMode c (.saved interruptible)
  else s

/-- `switch_uintr_prepare`, up to the second write of a receiver that waits. -/
def switchUintrPrepare (s : State) (c : Cpu) : State :=
  match (s.core c).mode with
  | .saved interruptible =>
      match (s.core c).current with
      | none => s.setMode c .prepared
      | some t =>
          match s.cost t with
          | none => s.setMode c .prepared
          | some cost =>
              if cost ≠ .none ∧ interruptible = true then
                let upid := if cost ≠ .sender then { s.upid t with nv := uintrKernelVector }
                  else { s.upid t with blkd := true }
                ((s.setUpid t upid).setFlags t { s.flags t with waiting := true }).setMode c
                  .blocking
              else (s.setUpid t { s.upid t with sn := true }).setMode c .prepared
  | _ => s

def switchUintrBlock (s : State) (c : Cpu) : State :=
  if (s.core c).mode = .blocking then
    match (s.core c).current with
    | none => s
    | some t =>
        if s.cost t ≠ some .sender then (s.setWaitList (t :: s.waitList)).setMode c .prepared
        else (s.setUpid t { s.upid t with sn := true }).setMode c .prepared
  else s

def switchUintrFinish (s : State) (t : Task) : State :=
  if (s.cost t).isSome ∧ (s.flags t).waiting = true then
    if s.cost t = some .sender then
      (s.setFlags t { s.flags t with waiting := false }).setUpid t { s.upid t with blkd := false }
    else s.uintrRemoveTaskWait t
  else s

def leaveCpu (s : State) (c : Cpu) : State :=
  match (s.core c).current with
  | some t => s.setFlags t { s.flags t with onCpu := false }
  | none => s

def takeCpu (s : State) (c : Cpu) (t : Task) : State :=
  let s := (s.setFlags t { s.flags t with onCpu := true }).switchUintrFinish t
  s.setCore c { s.core c with current := some t, mode := .kernel }

/-- The rest of `__switch_to`: the current task leaves the CPU, and a task that is ready and
has none, or the idle task, takes it. -/
def switchTo (s : State) (c : Cpu) (next : Option Task) : State :=
  if (s.core c).mode = .prepared ∧
      ∀ t ∈ next, (s.flags t).asleep = false ∧ (s.flags t).onCpu = false then
    match next with
    | none => (s.leaveCpu c).setCore c { s.core c with current := none, mode := .kernel }
    | some t => (s.leaveCpu c).takeCpu c t
  else s

/-! ### The return to user mode -/

def disown (s : State) (t : Task) : State :=
  { s with core := fun d =>
      if (s.core d).owner = some t then { s.core d with owner := none } else s.core d }

def switchFpuReturn (s : State) (c : Cpu) : State :=
  match (s.core c).current with
  | some t =>
      if (s.core c).mode = .kernel ∧ (s.core c).recognizing = false then
        if (s.fpu t).loaded = some c then s.setMode c .restored
        else
          let regs := if (s.core c).owner = some t then (s.core c).regs else (s.fpu t).saved
          let s := (s.disown t).setFpu t { s.fpu t with loaded := some c }
          s.setCore c { s.core c with regs := regs, owner := some t, mode := .restored }
      else s
  | none => s

/-- `switch_uintr_return`: `UINV` is set if it is clear, then `ndst` is written, `SN` cleared
and `puir` read, each for itself. -/
def returnUinv (s : State) (c : Cpu) : State :=
  match (s.core c).current with
  | some t =>
      if (s.core c).mode = .restored then
        if (s.cost t).isSome then
          s.setCore c { s.core c with
            regs := { (s.core c).regs with uinv := true }, mode := .armed }
        else s.setMode c .user
      else s
  | none => s

def returnNdst (s : State) (c : Cpu) : State :=
  match (s.core c).current with
  | some t =>
      if (s.core c).mode = .armed then
        (s.setUpid t { s.upid t with ndst := c }).setMode c .routed
      else s
  | none => s

def returnSn (s : State) (c : Cpu) : State :=
  match (s.core c).current with
  | some t =>
      if (s.core c).mode = .routed then
        (s.setUpid t { s.upid t with sn := false }).setMode c .unsuppressed
      else s
  | none => s

def returnPuir (s : State) (c : Cpu) : State :=
  match (s.core c).current with
  | some t =>
      if (s.core c).mode = .unsuppressed then
        let s := if (s.upid t).puir ≠ 0 then s.ipi c uintrNotificationVector else s
        s.setMode c .user
      else s
  | none => s

/-! ### Interrupts -/

def takesInterrupts (s : State) (c : Cpu) : Bool :=
  ((s.core c).mode = .user || (s.core c).mode = .kernel) && !(s.core c).recognizing

/-- The notification vector is recognised by the CPU while `UINV` holds it, and is an interrupt
for `sysvec_uintr_spurious_interrupt` otherwise. -/
def acceptNotification (s : State) (c : Cpu) : State :=
  if s.takesInterrupts c ∧ (s.apic c).notification = true then
    let s := s.setApic c { s.apic c with notification := false }
    if (s.core c).regs.uinv then
      match (s.core c).owner with
      | some t =>
          (s.setUpid t { s.upid t with on := false }).setCore c
            { s.core c with recognizing := true }
      | none => s
    else (s.setMode c .kernel).uintrWakeUpProcess
  else s

def recognize (s : State) (c : Cpu) : State :=
  if (s.core c).recognizing then
    match (s.core c).owner with
    | some t =>
        (s.setUpid t { s.upid t with puir := 0 }).setCore c { s.core c with
          regs := { (s.core c).regs with uirr := (s.core c).regs.uirr ||| (s.upid t).puir }
          recognizing := false }
    | none => s
  else s

/-- `sysvec_uintr_kernel_notification` -/
def acceptKernel (s : State) (c : Cpu) : State :=
  if s.takesInterrupts c ∧ (s.apic c).kernelVector = true then
    ((s.setApic c { s.apic c with kernelVector := false }).setMode c .kernel).uintrWakeUpProcess
  else s

def deliver (s : State) (c : Cpu) (uvec : Nat) : State :=
  if (s.core c).mode = .user ∧ (s.core c).recognizing = false ∧
      (s.core c).regs.uirr.getLsbD uvec = true then
    s.setCore c { s.core c with
      regs := { (s.core c).regs with uirr := clearBit (s.core c).regs.uirr uvec } }
  else s

def wake (s : State) (t : Task) : State := s.setFlags t { s.flags t with asleep := false }

end State

/-! ### Runs -/

inductive Event where
  | senduipi (t : Task) (uvec : Nat)
  | notifyPost (k : Sender) (t : Task) (uvec : Nat)
  | notifyTestSn (k : Sender)
  | notifyTestAndSetOn (k : Sender)
  | notifySend (k : Sender)
  | fixupUnblock (k : Sender) (t : Task) (uvec : Nat)
  | fixupPost (k : Sender)
  | fixupSetOn (k : Sender)
  | fixupWake (k : Sender)
  | wake (t : Task)
  | enter (c : Cpu)
  | kernelFpuBegin (c : Cpu)
  | switchFpu (c : Cpu) (interruptible sleeps : Bool)
  | switchUintrPrepare (c : Cpu)
  | switchUintrBlock (c : Cpu)
  | switchTo (c : Cpu) (next : Option Task)
  | switchFpuReturn (c : Cpu)
  | returnUinv (c : Cpu)
  | returnNdst (c : Cpu)
  | returnSn (c : Cpu)
  | returnPuir (c : Cpu)
  | acceptNotification (c : Cpu)
  | recognize (c : Cpu)
  | acceptKernel (c : Cpu)
  | deliver (c : Cpu) (uvec : Nat)

namespace State

def accepts (s : State) (t : Task) (uvec : Nat) : Bool :=
  (s.cost t).isSome && uvec < uintrMaxUvecNr

def step (s : State) : Event → State
  | .senduipi t uvec => if s.accepts t uvec then s.senduipi t uvec else s
  | .notifyPost k t uvec => if s.accepts t uvec then s.notifyPost k t uvec else s
  | .notifyTestSn k => s.notifyTestSn k
  | .notifyTestAndSetOn k => s.notifyTestAndSetOn k
  | .notifySend k => s.notifySend k
  | .fixupUnblock k t uvec => if s.accepts t uvec then s.fixupUnblock k t uvec else s
  | .fixupPost k => s.fixupPost k
  | .fixupSetOn k => s.fixupSetOn k
  | .fixupWake k => s.fixupWake k
  | .wake t => s.wake t
  | .enter c => s.enter c
  | .kernelFpuBegin c => s.kernelFpuBegin c
  | .switchFpu c interruptible sleeps => s.switchFpu c interruptible sleeps
  | .switchUintrPrepare c => s.switchUintrPrepare c
  | .switchUintrBlock c => s.switchUintrBlock c
  | .switchTo c next => s.switchTo c next
  | .switchFpuReturn c => s.switchFpuReturn c
  | .returnUinv c => s.returnUinv c
  | .returnNdst c => s.returnNdst c
  | .returnSn c => s.returnSn c
  | .returnPuir c => s.returnPuir c
  | .acceptNotification c => s.acceptNotification c
  | .recognize c => s.recognize c
  | .acceptKernel c => s.acceptKernel c
  | .deliver c uvec => s.deliver c uvec

def run (s : State) (events : List Event) : State := events.foldl step s

def boot (cost : Task → Option WaitingCost) : State where
  cost := cost
  core := fun _ => {}
  apic := fun _ => {}
  fpu := fun _ => {}
  upid := fun _ => { sn := true, nv := uintrNotificationVector }
  flags := fun _ => {}
  waitList := []
  senders := fun _ => .idle

end State

end UserPaging.Linux.Notify
