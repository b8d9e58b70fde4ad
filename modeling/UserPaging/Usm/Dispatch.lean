import Mathlib.Logic.Function.Basic
import UserPaging.Foundation.BitSet
import UserPaging.Usm.Protocol

/-!
# The dispatch loops of a worker

A worker serves up to 32 application threads with one uthread each.  A kernel
thread announces a request by setting its bit in the worker's event word `com`
(`queue_usm_fault`) and takes the bit back once it has applied the reply
(`dequeue_usm_fault`).  The worker's main context copies the event word into
`tempEvents`, takes at most two passes over that set, lowest bit first, and then
refreshes it.  A uthread gives the processor back when its fault is finished, or
inside `usm_mem_subm_ev` while it waits for the kernel, unless it is the only one
with work to do.

`setSched` and `soldiers` are the same loop but for the refresh: the former adds
the event word to `tempEvents`, the latter overwrites `tempEvents` with it.
-/

namespace UserPaging.Usm.Dispatch

open UserPaging.Foundation

def maxUthreads : Nat := 32

inductive Loop where
  | setSched
  | soldiers
  deriving DecidableEq, Repr

/-- Where the main context stands.  `received` is `receiveOtherFaults` and `events`
is the local copy of `tempEvents` that the inner loop empties. -/
inductive MainPoint where
  /-- The label `rcv`. -/
  | receive
  /-- The head of `while (cur_vcpu->tempEvents)`. -/
  | passes (received : Nat)
  /-- The head of `while (tempEvents)`. -/
  | pass (received : Nat) (events : BitVec 32)
  /-- Switched to uthread `id`. -/
  | away (received : Nat) (events : BitVec 32) (id : Nat)
  /-- Switched back from uthread `id`. -/
  | back (received : Nat) (events : BitVec 32) (id : Nat)
  deriving DecidableEq, Repr

inductive UthreadPoint where
  /-- Finished with its last fault, or never started. -/
  | idle
  /-- About to look at the status word in `usm_mem_check`. -/
  | check
  /-- The policy works on the event. -/
  | handling
  /-- Waiting in `usm_mem_subm_ev`. -/
  | submitted
  /-- Saw the reply, about to give the status word back. -/
  | settling
  deriving DecidableEq, Repr

inductive KernelPoint where
  | user
  | awaitIdle
  | posting
  | queueing
  | awaitAnswer
  | applying
  | dequeueing
  deriving DecidableEq, Repr

structure Worker where
  com : BitVec 32
  tempEvents : BitVec 32
  main : MainPoint
  state : Nat → Bool
  uthread : Nat → UthreadPoint
  status : Nat → BitVec 32
  kernel : Nat → KernelPoint

inductive Label where
  | main
  /-- The uthread on the processor moves; where its policy has the choice, `submits`
  says whether it submits an answer or returns. -/
  | uthread (submits : Bool)
  | fault (id : Nat)
  | kernel (id : Nat) (outcome : FaultOutcome)
  deriving DecidableEq, Repr

def MainPoint.onCpu : MainPoint → Option Nat
  | .away _ _ id => some id
  | .receive | .passes _ | .pass _ _ | .back _ _ _ => none

namespace Worker

def initial : Worker where
  com := 0
  tempEvents := 0
  main := .receive
  state := fun _ => false
  uthread := fun _ => .idle
  status := fun _ => 0
  kernel := fun _ => .user

def setMain (s : Worker) (main : MainPoint) : Worker := { s with main := main }

def setUthread (s : Worker) (id : Nat) (point : UthreadPoint) : Worker :=
  { s with uthread := Function.update s.uthread id point }

def setKernel (s : Worker) (id : Nat) (point : KernelPoint) : Worker :=
  { s with kernel := Function.update s.kernel id point }

def setStatus (s : Worker) (id : Nat) (status : BitVec 32) : Worker :=
  { s with status := Function.update s.status id status }

def setCom (s : Worker) (com : BitVec 32) : Worker := { s with com := com }

def refreshed (loop : Loop) (s : Worker) : BitVec 32 :=
  match loop with
  | .setSched => s.tempEvents ||| s.com
  | .soldiers => s.com

def refresh (loop : Loop) (s : Worker) : Worker :=
  { s with
    tempEvents := s.refreshed loop
    main := if s.refreshed loop = 0 then .receive else .passes 0 }

def resumePoint : UthreadPoint → UthreadPoint
  | .idle => .check
  | .check => .check
  | .handling => .handling
  | .submitted => .submitted
  | .settling => .settling

/-- `current_uthread->state = 1`, then `swapcontext` to uthread `id`. -/
def dispatch (s : Worker) (received : Nat) (events : BitVec 32) (id : Nat) : Worker :=
  { s with
    main := .away received events id
    state := Function.update s.state id true
    uthread := Function.update s.uthread id (resumePoint (s.uthread id)) }

/-- What the main context does when it has the processor back: only a uthread that
reset its `state` loses its bit in `tempEvents`. -/
def account (s : Worker) (received : Nat) (events : BitVec 32) (id : Nat) : Worker :=
  { s with
    tempEvents := if s.state id then s.tempEvents else clearBit s.tempEvents id
    main := .pass received (clearBit events id) }

def mainStep (loop : Loop) (s : Worker) : Option Worker :=
  match s.main with
  | .receive => some (s.refresh loop)
  | .passes received =>
      some (s.setMain (if s.tempEvents = 0 then .receive else .pass received s.tempEvents))
  | .pass received events =>
      if events = 0 then
        -- `if (receiveOtherFaults++) goto rcv`
        some (s.setMain (if received ≠ 0 then .receive else .passes (received + 1)))
      else some (s.dispatch received events (ffs events - 1))
  | .away _ _ _ => none
  | .back received events id => some (s.account received events id)

/-- The end of a uthread's round: `state = 0` and `swapcontext` to the main context. -/
def finish (s : Worker) (received : Nat) (events : BitVec 32) (id : Nat) : Worker :=
  { s with
    main := .back received events id
    state := Function.update s.state id false
    uthread := Function.update s.uthread id .idle }

/-- `usm_yield`: the switch is skipped when no other bit of `tempEvents` is set. -/
def yield (s : Worker) (received : Nat) (events : BitVec 32) (id : Nat) : Worker :=
  if clearBit s.tempEvents id = 0 then s else s.setMain (.back received events id)

def uthreadStep (s : Worker) (received : Nat) (events : BitVec 32) (id : Nat) (submits : Bool) :
    Option Worker :=
  match s.uthread id with
  | .idle => none
  | .check =>
      if s.status id = 1 then some (s.setUthread id .handling)
      else some (s.finish received events id)
  | .handling =>
      if submits then some ((s.setStatus id 2).setUthread id .submitted)
      else some (s.finish received events id)
  | .submitted =>
      if s.status id = 2 then some (s.yield received events id)
      else some (s.setUthread id .settling)
  | .settling => some ((s.setStatus id 0).setUthread id .handling)

def kernelStep (s : Worker) (id : Nat) (outcome : FaultOutcome) : Option Worker :=
  match s.kernel id with
  | .user => none
  | .awaitIdle => some (if s.status id = 0 then s.setKernel id .posting else s)
  | .posting => some ((s.setStatus id 1).setKernel id .queueing)
  | .queueing => some ((s.setCom (setBit s.com id)).setKernel id .awaitAnswer)
  | .awaitAnswer => some (if s.status id = 1 then s else s.setKernel id .applying)
  | .applying =>
      match outcome with
      | .applied => some ((s.setStatus id 3).setKernel id .dequeueing)
      -- the error exits leave the bit in the event word
      | .alreadyMapped => some ((s.setStatus id 7).setKernel id .user)
      | .taskKilled => some ((s.setStatus id 5).setKernel id .user)
  | .dequeueing => some ((s.setCom (clearBit s.com id)).setKernel id .user)

def step (loop : Loop) (s : Worker) : Label → Option Worker
  | .main => s.mainStep loop
  | .uthread submits =>
      match s.main with
      | .away received events id => s.uthreadStep received events id submits
      | .receive | .passes _ | .pass _ _ | .back _ _ _ => none
  | .fault id =>
      if id < maxUthreads ∧ s.kernel id = .user then some (s.setKernel id .awaitIdle) else none
  | .kernel id outcome => s.kernelStep id outcome

def dispatched (s : Worker) : Label → Option Nat
  | .main =>
      match s.main with
      | .pass _ events => if events = 0 then none else some (ffs events - 1)
      | .receive | .passes _ | .away _ _ _ | .back _ _ _ => none
  | .uthread _ | .fault _ | .kernel _ _ => none

def Suspended (s : Worker) (id : Nat) : Prop :=
  s.uthread id ≠ .idle ∧ s.main.onCpu ≠ some id

instance (s : Worker) (id : Nat) : Decidable (s.Suspended id) :=
  inferInstanceAs (Decidable (_ ∧ _))

def Unanswered (s : Worker) (id : Nat) : Prop :=
  s.kernel id = .awaitAnswer ∧ s.status id = 1

instance (s : Worker) (id : Nat) : Decidable (s.Unanswered id) :=
  inferInstanceAs (Decidable (_ ∧ _))

end Worker

end UserPaging.Usm.Dispatch
