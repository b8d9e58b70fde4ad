import Mathlib.Logic.Function.Basic
import UserPaging.Usm.SharedPage

/-!
# The daemon's page pool and swap device

Pages of the pool are known by their index in `pagesList`, which fixes both the
list node that `policiesSet1_setup` made for them and their frame number.  Page
tables are part of the state, since submissions install frames there and
evictions put swap entries in their place.

Every failure that the code checks for is an input of the function that meets
it.  A submission can also stay unanswered, because the kernel answers a request
only once; the uthread is then suspended for good.  `undefined` stands for C
behaviour without a defined result.
-/

namespace UserPaging.Usm

abbrev PageData := Fin 4096 → BitVec 8

structure Page where
  data : PageData
  virtualAddress : BitVec 64
  process : Nat

/-- `struct to_swap`; the device is always `swap_device_one`. -/
structure ToSwap where
  page : Nat
  swappedAddress : BitVec 64
  snode : Nat
  proc : Nat
  retaken : Bool
  deriving DecidableEq, Repr

def swapDeviceNumber : BitVec 64 := 1

inductive Pte where
  | empty
  | mapped (frame : Nat)
  | raw (entry : BitVec 64)
  deriving DecidableEq, Repr

def Pte.present : Pte → Bool
  | .empty => false
  | .mapped _ => true
  | .raw entry => ptePresent entry

/-- A frame given to `usmSubmitAllocEvent`, with what is known of it by then. -/
structure Submission where
  event : Event
  frame : Nat
  data : PageData
  /-- The frame is that of a swap cache entry for the event, never released since. -/
  held : Bool
  /-- The slot last read into the frame since it left the free list. -/
  readFrom : Option Nat
  /-- The page-table entry of the event was empty. -/
  firstTouch : Bool

structure Daemon where
  pages : Nat → Page
  freeList : List Nat
  usedList : List Nat
  usedMemory : BitVec 64
  toSwap : Nat → ToSwap
  nextToSwap : Nat
  swapCache : Nat → List Nat
  procSwapList : Nat → List Nat
  swapList : List Nat
  swappedMemory : BitVec 64
  slotFree : List Nat
  toSwapHolder : Nat → Option Nat
  backend : BitVec 64 → PageData
  prio : Nat → Int
  pageTable : Nat → BitVec 64 → Pte
  /-- Slot and bytes of a page when it was last swapped out. -/
  evicted : Nat → BitVec 64 → Option (Nat × PageData)
  readFrom : Nat → Option Nat
  /-- The page of an entry was given back to the free list. -/
  released : Nat → Bool
  submissions : List Submission

inductive Outcome where
  | returned (ret : Nat) (s : Daemon)
  | suspended (s : Daemon)
  | undefined

def Outcome.andThen (outcome : Outcome) (rest : Nat → Daemon → Outcome) : Outcome :=
  match outcome with
  | .returned ret s => rest ret s
  | .suspended s => .suspended s
  | .undefined => .undefined

def Outcome.state? : Outcome → Option Daemon
  | .returned _ s | .suspended s => some s
  | .undefined => none

/-- `post` holds of a result and `waiting` of a state left waiting. -/
def Outcome.Ensures (waiting : Daemon → Prop) (post : Nat → Daemon → Prop) :
    Outcome → Prop
  | .returned ret s => post ret s
  | .suspended s => waiting s
  | .undefined => True

theorem Outcome.Ensures.andThen {waiting : Daemon → Prop}
    {post post' : Nat → Daemon → Prop} {outcome : Outcome}
    {rest : Nat → Daemon → Outcome} (houtcome : outcome.Ensures waiting post)
    (hrest : ∀ ret s, post ret s → (rest ret s).Ensures waiting post') :
    (outcome.andThen rest).Ensures waiting post' := by
  cases outcome with
  | returned ret s => exact hrest ret s houtcome
  | suspended s => exact houtcome
  | undefined => trivial

theorem Outcome.Ensures.mono {waiting waiting' : Daemon → Prop}
    {post post' : Nat → Daemon → Prop} {outcome : Outcome}
    (houtcome : outcome.Ensures waiting post) (hwaiting : ∀ s, waiting s → waiting' s)
    (hpost : ∀ ret s, post ret s → post' ret s) : outcome.Ensures waiting' post' := by
  cases outcome with
  | returned ret s => exact hpost ret s houtcome
  | suspended s => exact hwaiting s houtcome
  | undefined => trivial

theorem Outcome.Ensures.and {waiting waiting' : Daemon → Prop}
    {post post' : Nat → Daemon → Prop} {outcome : Outcome}
    (hfirst : outcome.Ensures waiting post) (hsecond : outcome.Ensures waiting' post') :
    outcome.Ensures (fun s => waiting s ∧ waiting' s) fun ret s => post ret s ∧ post' ret s := by
  cases outcome with
  | returned ret s => exact ⟨hfirst, hsecond⟩
  | suspended s => exact ⟨hfirst, hsecond⟩
  | undefined => trivial

theorem Outcome.Ensures.of_state? {inv : Daemon → Prop} {outcome : Outcome} {s : Daemon}
    (houtcome : outcome.Ensures inv fun _ => inv) (hstate : outcome.state? = some s) :
    inv s := by
  cases outcome with
  | returned ret s' =>
      cases hstate
      exact houtcome
  | suspended s' =>
      cases hstate
      exact houtcome
  | undefined => cases hstate

inductive Reply where
  | applied
  | oomVictim
  | shmemError
  | alreadyMapped
  | unanswered
  deriving DecidableEq, Repr

structure EvictFaults where
  /-- What `malloc` left in the new entry's `retaken`. -/
  retaken : Bool
  clearFails : Bool
  seekFails : Bool
  /-- What a failed `fwrite` leaves in the file. -/
  writeFails : Option PageData

structure SwapInFaults where
  seekFails : Bool
  /-- What a failed `fread` leaves in the page. -/
  readFails : Option PageData

structure EventFaults where
  cacheReply : Reply
  swapIn : SwapInFaults
  swapReply : Reply
  allocReply : Reply
  evict : EvictFaults
  retryReply : Reply

namespace Daemon

/-! ## Single updates -/

def setPte (s : Daemon) (proc : Nat) (vaddr : BitVec 64) (pte : Pte) : Daemon :=
  { s with
    pageTable := Function.update s.pageTable proc
      (Function.update (s.pageTable proc) vaddr pte) }

def setData (s : Daemon) (frame : Nat) (data : PageData) : Daemon :=
  { s with pages := Function.update s.pages frame { s.pages frame with data := data } }

def linkPage (s : Daemon) (frame : Nat) (vaddr : BitVec 64) (proc : Nat) : Daemon :=
  { s with
    pages := Function.update s.pages frame
      { s.pages frame with virtualAddress := vaddr, process := proc } }

def takeFree (s : Daemon) (rest : List Nat) : Daemon :=
  { s with freeList := rest, usedMemory := s.usedMemory + sysPageSize }

def giveBack (s : Daemon) (frame : Nat) (freeList : List Nat) : Daemon :=
  { s with
    freeList := freeList
    usedMemory := s.usedMemory - sysPageSize
    readFrom := Function.update s.readFrom frame none
    released := fun entry => s.released entry || (s.toSwap entry).page == frame }

def setUsed (s : Daemon) (usedList : List Nat) : Daemon := { s with usedList := usedList }

def putSwapNode (s : Daemon) (slot : Nat) : Daemon :=
  { s with slotFree := s.slotFree ++ [slot] }

def setToSwap (s : Daemon) (entry : Nat) (record : ToSwap) : Daemon :=
  { s with toSwap := Function.update s.toSwap entry record }

def setSwapCache (s : Daemon) (proc : Nat) (entries : List Nat) : Daemon :=
  { s with swapCache := Function.update s.swapCache proc entries }

def writeSlot (s : Daemon) (slot : Nat) (data : PageData) : Daemon :=
  { s with backend := Function.update s.backend (snodeOffset slot) data }

def heldFor (s : Daemon) (event : Event) (frame : Nat) : Bool :=
  (s.swapCache event.origin).any fun entry =>
    (s.toSwap entry).swappedAddress == event.vaddr &&
      (s.toSwap entry).page == frame && !s.released entry

/-! ## Submitting a frame -/

def logSubmission (s : Daemon) (event : Event) (frame : Nat) : Daemon :=
  { s with
    submissions :=
      ⟨event, frame, (s.pages frame).data, s.heldFor event frame, s.readFrom frame,
        s.pageTable event.origin event.vaddr == .empty⟩ :: s.submissions }

def usmSubmitAllocEvent (s : Daemon) (event : Event) (frame : Nat) (reply : Reply) :
    Outcome :=
  let s := s.logSubmission event frame
  match reply with
  | .applied => .returned 0 (s.setPte event.origin event.vaddr (.mapped frame))
  | .oomVictim => .returned 5 s
  | .shmemError => .returned 6 s
  | .alreadyMapped => .returned 7 s
  | .unanswered => .suspended s

/-! ## Allocation and free -/

def basicAllocUniq (s : Daemon) (event : Event) (reply : Reply) : Outcome :=
  match s.freeList with
  | [] => .returned 1 s
  | frame :: rest =>
      ((s.takeFree rest).usmSubmitAllocEvent event frame reply).andThen fun ret s =>
        if ret ≠ 0 then .returned ret (s.giveBack frame (frame :: s.freeList))
        else
          .returned 0 ((s.linkPage frame event.vaddr event.origin).setUsed
            (s.usedList ++ [frame]))

/-- `pindex_free` of the page that a free notification names. -/
def pindexFree (s : Daemon) (frame : Nat) : Daemon :=
  (((s.setData frame 0).linkPage frame 0 0).setUsed (s.usedList.erase frame)).giveBack
    frame (s.freeList.erase frame ++ [frame])

/-! ## Eviction -/

def contents (s : Daemon) (proc : Nat) (vaddr : BitVec 64) : Option PageData :=
  match s.pageTable proc vaddr with
  | .mapped frame => some (s.pages frame).data
  | .empty | .raw _ => none

def clearAndSet (s : Daemon) (record : ToSwap) : Daemon :=
  { s.setPte record.proc record.swappedAddress
      (.raw (swapValue (snodeOffset record.snode) swapDeviceNumber)) with
    evicted := Function.update s.evicted record.proc
      (Function.update (s.evicted record.proc) record.swappedAddress
        ((s.contents record.proc record.swappedAddress).map (record.snode, ·))) }

/-- The first half of `swap_out`, up to the page-table update: the entry of the
page whose write is due, if there is one. -/
def swapOutBegin (s : Daemon) (entry : Nat) (faults : EvictFaults) : Option Nat × Daemon :=
  let record := s.toSwap entry
  let s := s.setSwapCache record.proc (entry :: s.swapCache record.proc)
  if faults.clearFails || !(s.pageTable record.proc record.swappedAddress).present then
    (none, s.putSwapNode record.snode)
  else (some entry, s.clearAndSet record)

/-- The failure exits of the second half: `usm_set_pfn`, which does nothing to an
entry that is present, `restore_used_page` and `putSwapNode`. -/
def swapOutUndo (s : Daemon) (entry : Nat) : Daemon :=
  let record := s.toSwap entry
  let s :=
    if (s.pageTable record.proc record.swappedAddress).present then s
    else s.setPte record.proc record.swappedAddress (.mapped record.page)
  (s.setUsed (record.page :: s.usedList)).putSwapNode record.snode

def addSwapped (s : Daemon) (entry : Nat) (proc : Nat) : Daemon :=
  { s with
    procSwapList := Function.update s.procSwapList proc (entry :: s.procSwapList proc)
    swapList := entry :: s.swapList
    swappedMemory := s.swappedMemory + sysPageSize }

def swapOutEnd (s : Daemon) (entry : Nat) (faults : EvictFaults) : Daemon :=
  let record := s.toSwap entry
  if faults.seekFails then s.swapOutUndo entry
  else
    match faults.writeFails with
    | some torn => (s.writeSlot record.snode torn).swapOutUndo entry
    | none =>
        let s := (s.writeSlot record.snode (s.pages record.page).data).setSwapCache
          record.proc ((s.swapCache record.proc).erase entry)
        if record.retaken then s.putSwapNode record.snode
        else (s.addSwapped entry record.proc).giveBack record.page (record.page :: s.freeList)

def newToSwap (s : Daemon) (victim slot : Nat) (slots : List Nat) (retaken : Bool) : Daemon :=
  { s.setToSwap s.nextToSwap
      ⟨victim, (s.pages victim).virtualAddress, slot, (s.pages victim).process, retaken⟩ with
    nextToSwap := s.nextToSwap + 1
    slotFree := slots
    toSwapHolder := Function.update s.toSwapHolder slot (some s.nextToSwap)
    released := Function.update s.released s.nextToSwap false }

/-- `handle_evict_request` up to the second half of `swap_out`; `none` when no
swap slot is left, where the code goes on with a null pointer. -/
def evictBegin (s : Daemon) (faults : EvictFaults) : Option (Option Nat × Daemon) :=
  match s.usedList with
  | [] => some (none, s)
  | victim :: rest =>
      if s.prio (s.pages victim).process = -1 then
        some (none, (s.setUsed rest).giveBack victim (victim :: s.freeList))
      else
        match s.slotFree with
        | [] => none
        | slot :: slots =>
            some (((s.setUsed rest).newToSwap victim slot slots faults.retaken).swapOutBegin
              s.nextToSwap faults)

def handleEvictRequest (s : Daemon) (faults : EvictFaults) : Outcome :=
  match s.evictBegin faults with
  | none => .undefined
  | some (none, s) => .returned 0 s
  | some (some entry, s) => .returned 0 (s.swapOutEnd entry faults)

/-! ## Swap-in -/

def fillPage (s : Daemon) (entry frame : Nat) : Daemon :=
  let record := s.toSwap entry
  { (s.setData frame (s.backend (snodeOffset record.snode))).setToSwap entry
      { record with page := frame } with
    readFrom := Function.update s.readFrom frame (some record.snode) }

def swapIn (s : Daemon) (entry : Nat) (faults : SwapInFaults) : Nat × Daemon :=
  if faults.seekFails then (1, s)
  else
    match s.freeList with
    | [] => (1, s)
    | frame :: rest =>
        match faults.readFails with
        | some left =>
            let s := ((s.takeFree rest).setData frame left).giveBack frame (rest ++ [frame])
            (1, { s with swapList := entry :: s.swapList })
        | none => (0, (s.takeFree rest).fillPage entry frame)

/-- `basic_swap`.  A refused submission makes `put_pages` walk a list whose head
was a local variable of `swap_in`, and a slot without holder is a null pointer. -/
def basicSwap (s : Daemon) (event : Event) (faults : SwapInFaults) (reply : Reply) :
    Outcome :=
  match s.toSwapHolder (eventSlot event.offst) with
  | none => .undefined
  | some entry =>
      match s.swapIn entry faults with
      | (0, s) =>
          let record := s.toSwap entry
          (s.usmSubmitAllocEvent event record.page reply).andThen fun ret s =>
            if ret ≠ 0 then .undefined
            else
              .returned 0 (((s.linkPage record.page record.swappedAddress record.proc).setUsed
                (record.page :: s.usedList)).putSwapNode record.snode)
      | (_, s) => .returned 1 s

def swapCacheEntry (s : Daemon) (event : Event) : Option Nat :=
  (s.swapCache event.origin).find? fun entry =>
    (s.toSwap entry).swappedAddress == event.vaddr

/-- `trySwapCache`, which does not look at the answer to its submission. -/
def trySwapCache (s : Daemon) (event : Event) (reply : Reply) : Outcome :=
  match s.swapCacheEntry event with
  | none => .returned 0 s
  | some entry =>
      let record := s.toSwap entry
      ((s.setToSwap entry { record with retaken := true }).usmSubmitAllocEvent event
        record.page reply).andThen fun _ s => .returned 1 s

/-! ## `usm_handle_events` for an `ALLOC` event -/

/-- The first attempt.  `ret` keeps the value `1` on a swap cache hit. -/
def firstAttempt (s : Daemon) (event : Event) (faults : EventFaults) : Outcome :=
  if event.isSwap then
    (s.trySwapCache event faults.cacheReply).andThen fun hit s =>
      if hit = 0 then s.basicSwap event faults.swapIn faults.swapReply
      else .returned 1 s
  else s.basicAllocUniq event faults.allocReply

/-- The label `retry` is in the branch of events without the swap flag, so the
second attempt is an allocation for every event. -/
def usmHandleEvents (s : Daemon) (event : Event) (faults : EventFaults) : Outcome :=
  (s.firstAttempt event faults).andThen fun ret s =>
    if ret ≠ 1 then .returned ret s
    else
      (s.handleEvictRequest faults.evict).andThen fun _ s =>
        s.basicAllocUniq event faults.retryReply

end Daemon

end UserPaging.Usm
