import UserPaging.Foundation.Run
import UserPaging.Usm.SharedPage

/-!
# The first-touch fault protocol

One kernel thread takes faults through `handle_usm_fault` while the daemon's
uthread serves its shared page through `usm_handle_mem`, `usm_handle_events`,
`basic_alloc_uniq` and `usm_mem_subm_ev`.  Every label is one access to one
shared word (or one local decision), and the two parties interleave freely.  The
uthread may be dispatched at any time it is idle, whether or not a request was
announced to it, so the event bit plays no part.

`Phase` ties the status word to the control points of both sides.
-/

namespace UserPaging.Usm

open UserPaging.Foundation

/-- The next access of `handle_usm_fault`, or user code between two faults. -/
inductive KernelPoint where
  | user
  | readState (fault : Fault)
  | awaitIdle (fault : Fault)
  | writeVaddr (fault : Fault)
  | writeRemSize (fault : Fault)
  | readFlags (fault : Fault)
  | writeFlags (fault : Fault) (flags : BitVec 64)
  | postRequest (fault : Fault)
  | awaitAnswer (fault : Fault)
  | readPaddr (fault : Fault)
  | lockPte (fault : Fault)
  | readFurtherAlloc (fault : Fault)
  | writeStatus (fault : Fault) (status : BitVec 32)
  | extraPages (fault : Fault)
  deriving DecidableEq, Repr

inductive DaemonPoint where
  | idle
  | readState (status : BitVec 32)
  | resetState
  | closed
  | readVaddr
  | readFlags
  | readEntry
  | readRemSize
  | swapIn
  | alloc (retried : Bool)
  | writePaddr (retried : Bool)
  | writeFurtherAlloc (retried : Bool)
  | writeStatus (retried : Bool)
  | awaitKernel (retried : Bool)
  | readBack (retried : Bool) (result : BitVec 32)
  | writeIdle (retried : Bool) (result : BitVec 32)
  deriving DecidableEq, Repr

/-- Where `usm_handle_events` goes on once the allocation has returned `ret`: only
`1` makes it evict and try again, and only once. -/
def DaemonPoint.afterAlloc (ret : BitVec 32) (retried : Bool) : DaemonPoint :=
  if ret ≠ 1 then .idle
  else if retried then .idle
  else .alloc true

structure Transfer where
  request : Nat
  vaddr : BitVec 64
  frame : BitVec 64
  deriving DecidableEq, Repr

structure Protocol where
  page : SharedPage
  kernel : KernelPoint
  daemon : DaemonPoint
  event : Event
  requests : Nat
  submitted : List Transfer
  received : List Transfer
  deriving DecidableEq, Repr

/-- What `handle_usm_fault` finds once it has locked the page-table entry. -/
inductive FaultOutcome where
  | applied
  | alreadyMapped
  | taskKilled
  deriving DecidableEq, Repr

inductive Move where
  | fault (fault : Fault)
  | kernel (outcome : FaultOutcome)
  | dispatch
  | daemon (freePage : Option (BitVec 64))
  deriving DecidableEq, Repr

def Move.byKernel : Move → Bool
  | .fault _ | .kernel _ => true
  | .dispatch | .daemon _ => false

namespace Protocol

def kernelStep (s : Protocol) (outcome : FaultOutcome) : Option Protocol :=
  match s.kernel with
  | .user => none
  | .readState fault =>
      some { s with kernel := if s.page.state = 10 then .user else .awaitIdle fault }
  | .awaitIdle fault =>
      some { s with kernel := if s.page.status ≠ 0 then .awaitIdle fault else .writeVaddr fault }
  | .writeVaddr fault =>
      some { s with
        page := { s.page with vaddr := fault.address }
        kernel := .writeRemSize fault }
  | .writeRemSize fault =>
      some { s with
        page := { s.page with remSize := (fault.vmEnd - fault.address) / 4096#64 - 1 }
        kernel := if fault.write then .readFlags fault else .postRequest fault }
  | .readFlags fault => some { s with kernel := .writeFlags fault s.page.flags }
  | .writeFlags fault flags =>
      some { s with
        page := { s.page with flags := flags ||| flagWrite }
        kernel := .postRequest fault }
  | .postRequest fault =>
      some { s with
        page := { s.page with status := 1 }
        kernel := .awaitAnswer fault
        requests := s.requests + 1 }
  | .awaitAnswer fault =>
      some { s with kernel := if s.page.status = 1 then .awaitAnswer fault else .readPaddr fault }
  | .readPaddr fault =>
      some { s with
        kernel := .lockPte fault
        received := ⟨s.requests, fault.address, s.page.paddr⟩ :: s.received }
  | .lockPte fault =>
      match outcome with
      | .alreadyMapped => some { s with kernel := .writeStatus fault 7 }
      | .taskKilled => some { s with kernel := .writeStatus fault 5 }
      | .applied => some { s with kernel := .readFurtherAlloc fault }
  | .readFurtherAlloc fault =>
      some { s with
        kernel := if s.page.furtherAlloc ≠ 0 then .extraPages fault else .writeStatus fault 3 }
  | .writeStatus _ status =>
      some { s with page := { s.page with status := status }, kernel := .user }
  | .extraPages _ => none

def daemonStep (s : Protocol) (freePage : Option (BitVec 64)) : Option Protocol :=
  match s.daemon with
  | .idle | .closed | .swapIn => none
  | .readState status =>
      some { s with
        daemon :=
          if s.page.state = 10 then .resetState
          else if status = 1 then .readVaddr
          else .idle }
  | .resetState => some { s with page := { s.page with state := 0 }, daemon := .closed }
  | .readVaddr =>
      some { s with event := { s.event with vaddr := s.page.vaddr }, daemon := .readFlags }
  | .readFlags =>
      some { s with
        event := { s.event with flags := s.page.flags }
        daemon := if hasFlag s.page.flags flagSwap then .readEntry else .readRemSize }
  | .readEntry =>
      some { s with
        event := { s.event with offst := swapOffst s.page.paddr }
        daemon := .readRemSize }
  | .readRemSize =>
      some { s with
        event := { s.event with length := s.page.remSize }
        daemon := if s.event.isSwap then .swapIn else .alloc false }
  | .alloc retried =>
      match freePage with
      | some frame =>
          some { s with
            event := { s.event with paddr := frame, length := 0 }
            daemon := .writePaddr retried }
      | none => some { s with daemon := .afterAlloc 1 retried }
  | .writePaddr retried =>
      some { s with
        page := { s.page with paddr := s.event.paddr }
        daemon := .writeFurtherAlloc retried }
  | .writeFurtherAlloc retried =>
      some { s with
        page := { s.page with furtherAlloc := s.event.length.setWidth 32 }
        daemon := .writeStatus retried }
  | .writeStatus retried =>
      some { s with
        page := { s.page with status := 2 }
        daemon := .awaitKernel retried
        submitted := ⟨s.requests, s.event.vaddr, s.event.paddr⟩ :: s.submitted }
  | .awaitKernel retried =>
      some { s with
        daemon :=
          if s.page.status = 2 then .awaitKernel retried else .readBack retried s.page.status }
  | .readBack retried result =>
      some { s with
        event := { s.event with flags := s.page.remSize }
        daemon := .writeIdle retried result }
  | .writeIdle retried result =>
      some { s with
        page := { s.page with status := 0 }
        daemon := .afterAlloc (if result = 3 then 0 else result) retried }

def step (s : Protocol) : Move → Option Protocol
  | .fault fault => if s.kernel = .user then some { s with kernel := .readState fault } else none
  | .kernel outcome => s.kernelStep outcome
  | .dispatch =>
      if s.daemon = .idle then some { s with daemon := .readState s.page.status } else none
  | .daemon freePage => s.daemonStep freePage

structure Initial (s : Protocol) : Prop where
  status : s.page.status = 0
  flags : hasFlag s.page.flags flagSwap = false
  kernel : s.kernel = .user
  daemon : s.daemon = .idle
  requests : s.requests = 0
  submitted : s.submitted = []
  received : s.received = []

end Protocol

end UserPaging.Usm
