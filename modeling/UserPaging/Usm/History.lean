import UserPaging.Foundation.Run
import UserPaging.Usm.Pool

/-!
# Histories of the daemon

The operations that the daemon and the processes carry out one after another,
and, where the order inside an eviction matters, the same with every eviction
cut in two: other operations may come between the page-table update of
`swap_out` and its write.
-/

namespace UserPaging.Usm

open UserPaging.Foundation

namespace Daemon

/-- The pool after `usm_init` and `policiesSet1_setup`, with a swap device of
`slots` slots as `init_swap_device_nodes` lays it out. -/
def setup (pagesNumber slots : Nat) (prio : Nat → Int) : Daemon where
  pages := fun _ => ⟨0, 0, 0⟩
  freeList := List.range pagesNumber
  usedList := []
  usedMemory := 0
  toSwap := fun _ => ⟨0, 0, 0, 0, false⟩
  nextToSwap := 0
  swapCache := fun _ => []
  procSwapList := fun _ => []
  swapList := []
  swappedMemory := 0
  slotFree := (List.range slots).reverse
  toSwapHolder := fun _ => none
  backend := fun _ => 0
  prio := prio
  pageTable := fun _ _ => .empty
  evicted := fun _ _ => none
  readFrom := fun _ => none
  released := fun _ => false
  submissions := []

/-- The events that the kernel posts: an entry that is none is a first touch, whatever
the flags word says, and a swapped entry is handed back as it is. -/
def posted (s : Daemon) (event : Event) : Bool :=
  match s.pageTable event.origin event.vaddr with
  | .empty => true
  | .mapped _ => false
  | .raw entry => pteNone entry || event.isSwap && event.offst == swapOffst entry

end Daemon

inductive Op where
  | fault (event : Event) (faults : EventFaults)
  | write (proc : Nat) (vaddr : BitVec 64) (data : PageData)
  | evict (faults : EvictFaults)
  | free (proc : Nat) (vaddr : BitVec 64)
  | dropSwapped (proc : Nat) (vaddr : BitVec 64)
  | setPrio (proc : Nat) (prio : Int)
  | exit (proc : Nat)

namespace Daemon

/-- `free` is an unmapping of a page together with its free notification; an
unmapping of a swapped entry goes unnoticed.  When a process exits its priority
becomes `-1`; pages that it still has then linger in the used list. -/
def step (s : Daemon) : Op → Option Daemon
  | .fault event faults =>
      if s.posted event then (s.usmHandleEvents event faults).state? else none
  | .write proc vaddr data =>
      match s.pageTable proc vaddr with
      | .mapped frame => some (s.setData frame data)
      | .empty | .raw _ => none
  | .evict faults => (s.handleEvictRequest faults).state?
  | .free proc vaddr =>
      match s.pageTable proc vaddr with
      | .mapped frame => some ((s.setPte proc vaddr .empty).pindexFree frame)
      | .empty | .raw _ => none
  | .dropSwapped proc vaddr =>
      match s.pageTable proc vaddr with
      | .raw _ => some (s.setPte proc vaddr .empty)
      | .empty | .mapped _ => none
  | .setPrio proc prio => some { s with prio := Function.update s.prio proc prio }
  | .exit proc =>
      some { s with
        prio := Function.update s.prio proc (-1)
        pageTable := Function.update s.pageTable proc fun _ => .empty }

end Daemon

structure Workers where
  daemon : Daemon
  writing : List Nat

inductive HalfOp where
  | whole (op : Op)
  | evictBegin (faults : EvictFaults)
  | evictEnd (entry : Nat) (faults : EvictFaults)

def Workers.step (s : Workers) : HalfOp → Option Workers
  | .whole op => (s.daemon.step op).map fun daemon => { s with daemon }
  | .evictBegin faults =>
      match s.daemon.evictBegin faults with
      | none => none
      | some (none, daemon) => some { s with daemon }
      | some (some entry, daemon) => some ⟨daemon, entry :: s.writing⟩
  | .evictEnd entry faults =>
      if entry ∈ s.writing then
        some ⟨s.daemon.swapOutEnd entry faults, s.writing.erase entry⟩
      else none

end UserPaging.Usm
