import Mathlib.Data.BitVec
import Mathlib.Logic.Function.Basic
import UserPaging.Foundation.BitSet

/-!
# The user interrupt system calls

A task that registers a handler gets a UPID, to which senders post.  A process
that sends gets a UITT, a table of 256 entries that name UPIDs; its index is the
operand of SENDUIPI.  UPIDs are handed around as file descriptors (`uvecfd`), and
so are tables (`uipifd`).  Both carry a reference count and are freed with the
last reference.

A call runs to its end before the next one starts.  What the allocator and the
file table answer is part of the event.  Touching freed memory is a `Fault`.
-/

namespace UserPaging.Linux.Uintr

open UserPaging.Foundation

/-- The address of a `struct uintr_upid_ctx`, which stands for its UPID as well. -/
abbrev Addr := BitVec 64

abbrev Task := Nat
abbrev Mm := Nat
abbrev Table := Nat
abbrev File := Nat

def uintrNotificationVector : Nat := 0xec
def uintrKernelVector : Nat := 0xeb
def uintrMaxUvecNr : Nat := 64
def uintrMaxUittNr : Nat := 256

structure Upid where
  on : Bool := false
  sn : Bool := false
  blkd : Bool := false
  nv : Nat := 0
  ndst : Nat := 0
  puir : BitVec 64 := 0

/-- Post a vector; the notification is due unless one is outstanding or suppressed. -/
def Upid.post (upid : Upid) (uvec : Nat) : Upid :=
  { upid with puir := setBit upid.puir uvec, on := upid.on || !upid.sn }

inductive WaitingCost where
  | none
  | receiver
  | sender
  deriving DecidableEq

/-- `struct uintr_upid_ctx`; its `node` is its place in the wait list. -/
structure UpidCtx where
  task : Task
  uvecMask : BitVec 64 := 0
  upid : Upid := {}
  refs : Nat
  receiverActive : Bool
  waiting : Bool
  waitingCost : WaitingCost := .none

/-- `alloc_upid` -/
def UpidCtx.alloc (current : Task) : UpidCtx where
  task := current
  refs := 1
  receiverActive := true
  waiting := false

def UpidCtx.setSn (c : UpidCtx) (sn : Bool) : UpidCtx := { c with upid := { c.upid with sn := sn } }

def UpidCtx.setInactive (c : UpidCtx) : UpidCtx := { c with receiverActive := false }

def UpidCtx.program (c : UpidCtx) (flags : BitVec 32) (ndst : Nat) : UpidCtx :=
  { c with
    upid := { c.upid with nv := uintrNotificationVector, ndst := ndst }
    waitingCost :=
      if flags &&& 0x3000 = 0 then c.waitingCost
      else if flags &&& 0x1000 = 0 then .sender else .receiver }

@[simps]
def UpidCtx.setRefs (c : UpidCtx) (refs : Nat) : UpidCtx := { c with refs := refs }

def UpidCtx.put (c : UpidCtx) : Option UpidCtx :=
  if c.refs = 1 then none else some (c.setRefs (c.refs - 1))

/-- What `uintr_remove_task_wait` does to an entry of the wait list. -/
def UpidCtx.unlisted (c : UpidCtx) : UpidCtx :=
  { c with upid := { c.upid with nv := uintrNotificationVector }, waiting := false }

/-- What `uintr_wake_up_process` does to an entry of the wait list. -/
def UpidCtx.woken (c : UpidCtx) : UpidCtx :=
  { c with
    upid := { c.upid with sn := true, nv := uintrNotificationVector }
    waiting := false }

structure UittEntry where
  valid : Bool := false
  userVec : Nat := 0
  targetUpidAddr : Addr := 0

structure UittCtx where
  uitt : Nat → UittEntry := fun _ => {}
  refs : Nat
  uittMask : BitVec 256 := 0
  rUpidCtx : Nat → Addr := fun _ => 0

@[simps]
def UittCtx.setRefs (c : UittCtx) (refs : Nat) : UittCtx := { c with refs := refs }

def UittCtx.program (c : UittCtx) (entry uvec : Nat) (u : Addr) : UittCtx :=
  { c with
    uittMask := setBit c.uittMask entry
    uitt := Function.update c.uitt entry ⟨true, uvec, u⟩
    rUpidCtx := Function.update c.rUpidCtx entry u }

/-- `mark_uitte_invalid` -/
def UittCtx.markInvalid (c : UittCtx) (entry : Nat) : UittCtx :=
  { c with uitt := Function.update c.uitt entry { c.uitt entry with valid := false } }

/-- An entry is zeroed and its bit cleared; `r_upid_ctx` keeps its pointer. -/
def UittCtx.erase (c : UittCtx) (entry : Nat) : UittCtx :=
  { c with
    uitt := Function.update c.uitt entry {}
    uittMask := clearBit c.uittMask entry }

structure UvecfdCtx where
  upidCtx : Addr
  uvec : Nat

/-- What a task's `thread_struct` and its MSRs say about user interrupts. -/
structure Thread where
  mm : Mm
  upidCtx : Option Addr := none
  upidActivated : Bool := false
  uittActivated : Bool := false
  uintrPd : Option Addr := none
  uintrTt : Option Table := none
  running : Bool := false

structure MmStruct where
  users : Nat
  uittCtx : Option Table := none

structure State where
  upids : Addr → Option UpidCtx
  uitts : Table → Option UittCtx
  tasks : Task → Option Thread
  mms : Mm → Option MmStruct
  uvecfds : File → Option UvecfdCtx
  uipifds : File → Option Table
  waitList : List Addr

inductive Fault where
  | freed
  | null
  | outOfBounds
  | corruptList
  | uninitialised
  | endless
  deriving DecidableEq

inductive Errno where
  | EINVAL | EBUSY | ENOMEM | EFAULT | ENOSPC | EMFILE | ESHUTDOWN | EBADF | EOPNOTSUPP
  deriving DecidableEq

abbrev Reply := Except Errno Nat

namespace State

@[simps]
def setUpid (s : State) (u : Addr) (c : Option UpidCtx) : State :=
  { s with upids := Function.update s.upids u c }

@[simps]
def setTable (s : State) (w : Table) (c : Option UittCtx) : State :=
  { s with uitts := Function.update s.uitts w c }

@[simps]
def setTask (s : State) (t : Task) (th : Option Thread) : State :=
  { s with tasks := Function.update s.tasks t th }

@[simps]
def setMm (s : State) (m : Mm) (mm : Option MmStruct) : State :=
  { s with mms := Function.update s.mms m mm }

@[simps]
def setUvecfd (s : State) (f : File) (ctx : Option UvecfdCtx) : State :=
  { s with uvecfds := Function.update s.uvecfds f ctx }

@[simps]
def setUipifd (s : State) (f : File) (w : Option Table) : State :=
  { s with uipifds := Function.update s.uipifds f w }

@[simps]
def setWaitList (s : State) (waitList : List Addr) : State := { s with waitList := waitList }

def upid (s : State) (u : Addr) : Except Fault UpidCtx :=
  match s.upids u with
  | some c => .ok c
  | none => .error .freed

def table (s : State) (w : Table) : Except Fault UittCtx :=
  match s.uitts w with
  | some c => .ok c
  | none => .error .freed

def thread (s : State) (t : Task) : Except Fault Thread :=
  match s.tasks t with
  | some th => .ok th
  | none => .error .null

def mm (s : State) (m : Mm) : Except Fault MmStruct :=
  match s.mms m with
  | some mm => .ok mm
  | none => .error .null

def deref {α : Type} : Option α → Except Fault α
  | some value => .ok value
  | none => .error .null

/-! ### Answers of the allocator

An address or a number that is in use counts as a failed allocation, and so does
an address of a `uintr_upid_ctx` that is not in the kernel's half. -/

def kzallocUpid (s : State) (mem : Option Addr) : Option Addr :=
  mem.filter fun u => (s.upids u).isNone && u.getLsbD 63

def kzallocUitt (s : State) (mem : Option Table) : Option Table :=
  mem.filter fun w => (s.uitts w).isNone

def anonInodeGetfd (s : State) (file : Option File) : Option File :=
  file.filter fun f => (s.uvecfds f).isNone && (s.uipifds f).isNone

/-! ### References -/

def putUpidRef (s : State) (u : Addr) : Except Fault State := do
  let c ← s.upid u
  return s.setUpid u c.put

def getUpidRef (s : State) (u : Addr) : Except Fault State := do
  let c ← s.upid u
  return s.setUpid u (some (c.setRefs (c.refs + 1)))

def freeUittEntry (s : State) (w : Table) (entry : Nat) : Except Fault State :=
  if uintrMaxUittNr ≤ entry then return s
  else do
    let c ← s.table w
    let s ← s.putUpidRef (c.rUpidCtx entry)
    return s.setTable w (some (c.erase entry))

def freeAllUittEntries (w : Table) : Nat → State → Except Fault State
  | 0, _ => .error .endless
  | fuel + 1, s => do
      let c ← s.table w
      let entry := findFirst c.uittMask true
      if entry = uintrMaxUittNr then return s
      let s ← s.freeUittEntry w entry
      freeAllUittEntries w fuel s

def freeUitt (s : State) (w : Table) : Except Fault State := do
  let c ← s.table w
  let s ← if c.uittMask = 0 then pure s else freeAllUittEntries w (uintrMaxUittNr + 1) s
  return s.setTable w none

def putUittRef (s : State) (w : Table) : Except Fault State := do
  let c ← s.table w
  if c.refs = 1 then s.freeUitt w
  else return s.setTable w (some (c.setRefs (c.refs - 1)))

def getUittRef (s : State) (w : Table) : Except Fault State := do
  let c ← s.table w
  return s.setTable w (some (c.setRefs (c.refs + 1)))

def uintrDestroyUittCtx (s : State) (m : Mm) : Except Fault State := do
  let mm ← s.mm m
  match mm.uittCtx with
  | none => return s
  | some w =>
      let s ← s.putUittRef w
      return s.setMm m (some { mm with uittCtx := none })

/-! ### The wait list -/

/-- Both loops over the wait list: the entries that are due are changed and leave the list. -/
def scanWaitList (due : UpidCtx → Bool) (leave : UpidCtx → UpidCtx) :
    List Addr → State → Except Fault State
  | [], s => .ok s
  | u :: rest, s => do
      let c ← s.upid u
      if due c then
        scanWaitList due leave rest
          ((s.setUpid u (some (leave c))).setWaitList (s.waitList.erase u))
      else scanWaitList due leave rest s

def uintrRemoveTaskWait (s : State) (t : Task) : Except Fault State :=
  scanWaitList (fun c => c.task = t) UpidCtx.unlisted s.waitList s

def uintrWakeUpProcess (s : State) : Except Fault State :=
  scanWaitList (fun c => c.upid.on) UpidCtx.woken s.waitList s

/-- `list_add`; adding a node that is in the list already breaks its links. -/
def listAdd (s : State) (u : Addr) : Except Fault State :=
  if u ∈ s.waitList then .error .corruptList
  else .ok (s.setWaitList (u :: s.waitList))

def switchUintrPrepare (s : State) (prev : Task) (interruptible : Bool) : Except Fault State := do
  let th ← s.thread prev
  if th.upidActivated then
    let u ← deref th.upidCtx
    let c ← s.upid u
    if c.waitingCost ≠ .none && interruptible then
      if c.waitingCost ≠ .sender then
        (s.setUpid u (some { c with
          upid := { c.upid with nv := uintrKernelVector }
          waiting := true })).listAdd u
      else
        return s.setUpid u (some { c with
          upid := { c.upid with blkd := true, sn := true }
          waiting := true })
    else return s.setUpid u (some (c.setSn true))
  else return s

def switchUintrFinish (s : State) (next : Task) : Except Fault State := do
  let th ← s.thread next
  if th.upidActivated then
    let u ← deref th.upidCtx
    let c ← s.upid u
    if c.waiting then
      if c.waitingCost = .sender then
        return s.setUpid u (some { c with
          upid := { c.upid with blkd := false }
          waiting := false })
      else s.uintrRemoveTaskWait next
    else return s
  else return s

def switchUintrReturn (s : State) (t : Task) (ndst : Nat) : Except Fault State := do
  let th ← s.thread t
  if th.upidActivated then
    let u ← deref th.upidCtx
    let c ← s.upid u
    return s.setUpid u (some { c with upid := { c.upid with ndst := ndst, sn := false } })
  else return s

/-! ### Receivers -/

/-- The part of `do_uintr_register_handler` that programs the MSRs and the UPID. -/
def programHandler (s : State) (t : Task) (th : Thread) (u : Addr) (flags : BitVec 32)
    (ndst : Nat) : Except Fault (State × Reply) := do
  let s ← s.getUpidRef u
  let c ← s.upid u
  let th := { th with upidCtx := some u, uintrPd := some u, upidActivated := true }
  return ((s.setUpid u (some (c.program flags ndst))).setTask t (some th), .ok 0)

def doUintrRegisterHandler (s : State) (t : Task) (flags : BitVec 32) (ndst : Nat)
    (mem : Option Addr) : Except Fault (State × Reply) := do
  let th ← s.thread t
  if th.upidActivated then return (s, .error .EBUSY)
  else
    match th.upidCtx with
    | some u => s.programHandler t th u flags ndst
    | none =>
        match s.kzallocUpid mem with
        | none => return (s, .error .ENOMEM)
        | some u => (s.setUpid u (some (.alloc t))).programHandler t th u flags ndst

def uintrRegisterHandler (s : State) (t : Task) (handler : Addr) (flags : BitVec 32) (ndst : Nat)
    (mem : Option Addr) : Except Fault (State × Reply) :=
  if flags &&& ~~~0x3000 ≠ 0 then .ok (s, .error .EINVAL)
  else if handler = 0 then .ok (s, .error .EFAULT)
  else s.doUintrRegisterHandler t flags ndst mem

def doUintrUnregisterHandler (s : State) (t : Task) : Except Fault (State × Reply) := do
  let th ← s.thread t
  if th.upidActivated then
    let u ← deref th.upidCtx
    let s := s.setTask t (some { th with uintrPd := none, upidActivated := false })
    let c ← s.upid u
    let s := s.setUpid u (some (c.setSn true))
    let s ← s.putUpidRef u
    let s ← s.uintrRemoveTaskWait t
    return (s, .ok 0)
  else return (s, .error .EINVAL)

def uintrUnregisterHandler (s : State) (t : Task) (flags : BitVec 32) :
    Except Fault (State × Reply) :=
  if flags ≠ 0 then .ok (s, .error .EINVAL) else s.doUintrUnregisterHandler t

/-- `do_uintr_register_vector`; a caller that makes a descriptor gets a reference. -/
def doUintrRegisterVector (s : State) (t : Task) (uvec : Nat) (fd : Bool) :
    Except Fault (State × Except Errno Addr) := do
  let th ← s.thread t
  if !th.upidActivated then return (s, .error .EINVAL)
  else if uintrMaxUvecNr ≤ uvec then return (s, .error .ENOSPC)
  else
    let u ← deref th.upidCtx
    let c ← s.upid u
    let s := s.setUpid u (some { c with uvecMask := setBit c.uvecMask uvec })
    let s ← if fd then s.getUpidRef u else pure s
    return (s, .ok u)

def doUintrUnregisterVector (s : State) (u : Addr) : Except Fault State := s.putUpidRef u

def uintrVectorFd (s : State) (t : Task) (vector : Nat) (flags : BitVec 32) (mem : Bool)
    (file : Option File) : Except Fault (State × Reply) :=
  if flags ≠ 0 then .ok (s, .error .EINVAL)
  else if !mem then .ok (s, .error .ENOMEM)
  else do
    let (s, ret) ← s.doUintrRegisterVector t vector true
    match ret with
    | .error errno => return (s, .error errno)
    | .ok u =>
        match s.anonInodeGetfd file with
        | some f => return (s.setUvecfd f (some ⟨u, vector⟩), .ok f)
        | none =>
            let s ← s.doUintrUnregisterVector u
            return (s, .error .EMFILE)

def uvecfdRelease (s : State) (f : File) : Except Fault State :=
  match s.uvecfds f with
  | none => .ok s
  | some ctx => do
      let s ← s.doUintrUnregisterVector ctx.upidCtx
      return s.setUvecfd f none

/-! ### Senders -/

def uintrInitSender (s : State) (t : Task) (mem : Option Table) :
    Except Fault (State × Except Errno Table) := do
  let th ← s.thread t
  let mm ← s.mm th.mm
  match mm.uittCtx with
  | some w => return (s, .ok w)
  | none =>
      match s.kzallocUitt mem with
      | none => return (s, .error .ENOMEM)
      | some w =>
          return ((s.setTable w (some { refs := 1 })).setMm th.mm
            (some { mm with uittCtx := some w }), .ok w)

def uintrSetSenderMsrs (s : State) (t : Task) : Except Fault State := do
  let th ← s.thread t
  let mm ← s.mm th.mm
  let w ← deref mm.uittCtx
  return s.setTask t (some { th with uintrTt := some w, uittActivated := true })

def doUintrRegisterSender (s : State) (t : Task) (uvec : Nat) (u : Addr) (mem : Option Table) :
    Except Fault (State × Reply) := do
  let c ← s.upid u
  if !c.receiverActive then return (s, .error .ESHUTDOWN)
  else
    let (s, ret) ← s.uintrInitSender t mem
    match ret with
    | .error errno => return (s, .error errno)
    | .ok w =>
        let c ← s.table w
        let entry := findFirst c.uittMask false
        if uintrMaxUittNr ≤ entry then return (s, .error .ENOSPC)
        else
          let s := s.setTable w (some (c.program entry uvec u))
          let s ← s.getUpidRef u
          let th ← s.thread t
          let s ← if th.uittActivated then pure s else s.uintrSetSenderMsrs t
          return (s, .ok entry)

def uintrRegisterSender (s : State) (t : Task) (f : File) (flags : BitVec 32)
    (mem : Option Table) : Except Fault (State × Reply) :=
  if flags ≠ 0 then .ok (s, .error .EINVAL)
  else
    match s.uvecfds f with
    | some ctx => s.doUintrRegisterSender t ctx.uvec ctx.upidCtx mem
    | none =>
        if (s.uipifds f).isSome then .ok (s, .error .EOPNOTSUPP) else .ok (s, .error .EBADF)

/-- `test_bit` on the mask.  Past its 256 bits lie the pointers of `r_upid_ctx`. -/
def uintrCheckUitteValid (c : UittCtx) (entry : Nat) : Except Fault Bool :=
  if entry < uintrMaxUittNr then .ok (c.uittMask.getLsbD entry)
  else if entry < uintrMaxUittNr + 64 * uintrMaxUittNr then
    .ok ((c.rUpidCtx ((entry - uintrMaxUittNr) / 64)).getLsbD (entry % 64))
  else .error .outOfBounds

def doUintrUnregisterSender (s : State) (w : Table) (entry : Nat) :
    Except Fault (State × Reply) := do
  let c ← s.table w
  if !(← uintrCheckUitteValid c entry) then return (s, .error .EINVAL)
  -- `mark_uitte_invalid` writes to the entry without looking at its number
  else if uintrMaxUittNr ≤ entry then .error .outOfBounds
  else
    let s := s.setTable w (some (c.markInvalid entry))
    let s ← s.freeUittEntry w entry
    return (s, .ok 0)

/-- The system call.  It ends with `fdput(f)` on a variable that it never sets; `fput` is the
bit of that variable that asks for a reference to be dropped. -/
def uintrUnregisterSender (s : State) (t : Task) (index : Nat) (flags : BitVec 32)
    (fput : Bool) : Except Fault (State × Reply) :=
  if flags ≠ 0 then .ok (s, .error .EINVAL)
  else do
    let th ← s.thread t
    let mm ← s.mm th.mm
    let (s, ret) ← match mm.uittCtx with
      | none => pure (s, .error .EINVAL)
      | some w => s.doUintrUnregisterSender w index
    if fput then .error .uninitialised else return (s, ret)

def uintrRegisterSelf (s : State) (t : Task) (vector : Nat) (flags : BitVec 32)
    (mem : Option Table) : Except Fault (State × Reply) :=
  if flags ≠ 0 then .ok (s, .error .EINVAL)
  else do
    let (s, ret) ← s.doUintrRegisterVector t vector false
    match ret with
    | .error errno => return (s, .error errno)
    | .ok u =>
        let (s, ret) ← s.doUintrRegisterSender t vector u mem
        match ret with
        | .ok entry => return (s, .ok entry)
        | .error errno =>
            let s ← s.doUintrUnregisterVector u
            return (s, .error errno)

def uintrIpiFd (s : State) (t : Task) (flags : BitVec 32) (mem : Option Table)
    (file : Option File) : Except Fault (State × Reply) :=
  if flags ≠ 0 then .ok (s, .error .EINVAL)
  else do
    let (s, ret) ← s.uintrInitSender t mem
    match ret with
    | .error errno => return (s, .error errno)
    | .ok w =>
        let s ← s.getUittRef w
        match s.anonInodeGetfd file with
        | some f => return (s.setUipifd f (some w), .ok f)
        | none =>
            let s ← s.putUittRef w
            return (s, .error .EMFILE)

/-- `uipifd_ioctl`; the only command is `UIPI_SET_TARGET_TABLE`. -/
def uipifdIoctl (s : State) (t : Task) (f : File) (setTargetTable : Bool) :
    Except Fault (State × Reply) :=
  match s.uipifds f with
  | none => .ok (s, .error .EBADF)
  | some w =>
      if !setTargetTable then .ok (s, .error .EINVAL)
      else do
        let th ← s.thread t
        let mm ← s.mm th.mm
        if mm.uittCtx.isSome then return (s, .error .EBUSY)
        else
          let s ← s.getUittRef w
          let s := s.setMm th.mm (some { mm with uittCtx := some w })
          let s ← s.uintrSetSenderMsrs t
          return (s, .ok 0)

def uipifdRelease (s : State) (f : File) : Except Fault State :=
  match s.uipifds f with
  | none => .ok s
  | some w => do
      let s ← s.putUittRef w
      return s.setUipifd f none

/-! ### Posting -/

def uintrNotifyReceiver (s : State) (uvec : Nat) (u : Addr) : Except Fault State := do
  let c ← s.upid u
  return s.setUpid u (some { c with upid := c.upid.post uvec })

def uintrNotify (s : State) (f : File) : Except Fault State :=
  match s.uvecfds f with
  | none => .ok s
  | some ctx => s.uintrNotifyReceiver ctx.uvec ctx.upidCtx

def fixupSenduipiUdException (s : State) (t : Task) : Except Fault State := do
  let th ← s.thread t
  let mm ← s.mm th.mm
  if th.uittActivated || mm.uittCtx.isNone then return s
  else s.uintrSetSenderMsrs t

def fixupUintrGpException (s : State) (t : Task) (index : Nat) : Except Fault State := do
  let th ← s.thread t
  if !th.uittActivated || 2 ^ 63 ≤ index then return s
  else
    let mm ← s.mm th.mm
    let w ← deref mm.uittCtx
    let tab ← s.table w
    if !(← uintrCheckUitteValid tab (index % 2 ^ 32)) then return s
    else if uintrMaxUittNr ≤ index then .error .outOfBounds
    else if tab.rUpidCtx index = 0 then return s
    else
      let c ← s.upid (tab.rUpidCtx index)
      if !c.upid.blkd then return s
      else
        return s.setUpid (tab.rUpidCtx index) (some { c with
          upid := { c.upid with
            blkd := false
            on := true
            puir := setBit c.upid.puir (tab.uitt index).userVec }
          waiting := false })

/-- The instruction, which reads the table and the UPID through the MSRs of the task. -/
def senduipi (s : State) (t : Task) (index : Nat) : Except Fault State := do
  let th ← s.thread t
  match th.uintrTt with
  | none => s.fixupSenduipiUdException t
  | some w =>
      if uintrMaxUittNr ≤ index then s.fixupUintrGpException t index
      else
        let tab ← s.table w
        let e := tab.uitt index
        if !e.valid then s.fixupUintrGpException t index
        else
          let c ← s.upid e.targetUpidAddr
          -- `BLKD` is a reserved bit of the UPID
          if c.upid.blkd then s.fixupUintrGpException t index
          else return s.setUpid e.targetUpidAddr (some { c with upid := c.upid.post e.userVec })

/-! ### Tasks and address spaces -/

/-- The part of `uintr_free` for a sender or a receiver. -/
def uintrClearMsrs (s : State) (t : Task) (th : Thread) : Except Fault State :=
  if th.upidActivated || th.uittActivated then do
    let s := s.setTask t (some { th with uintrPd := none, uintrTt := none })
    let s ← if th.upidActivated then do
        let u ← deref th.upidCtx
        let c ← s.upid u
        let s := s.setUpid u (some (c.setSn true))
        let s ← s.uintrRemoveTaskWait t
        let c ← s.upid u
        let s := s.setUpid u (some c.setInactive)
        s.putUpidRef u
      else pure s
    return s.setTask t (some { th with
      uintrPd := none, uintrTt := none, upidActivated := false, uittActivated := false })
  else return s

def uintrFree (s : State) (t : Task) : Except Fault State := do
  let th ← s.thread t
  let s ← s.uintrClearMsrs t th
  match th.upidCtx with
  | none => return s
  | some u => s.putUpidRef u

def exit (s : State) (t : Task) : Except Fault State := do
  let th ← s.thread t
  let s ← s.uintrFree t
  let mm ← s.mm th.mm
  return (s.setMm th.mm (some { mm with users := mm.users - 1 })).setTask t none

def destroyContext (s : State) (m : Mm) : Except Fault State :=
  match s.mms m with
  | some mm =>
      if mm.users = 0 then do
        let s ← s.uintrDestroyUittCtx m
        return s.setMm m none
      else .ok s
  | none => .ok s

/-- A new task, in the address space of its parent (`none`) or in a copy of it. -/
def fork (s : State) (t child : Task) (copy : Option Mm) : Except Fault State := do
  let th ← s.thread t
  let mm ← s.mm th.mm
  if (s.tasks child).isSome then return s
  else
    match copy with
    | none =>
        return (s.setMm th.mm (some { mm with users := mm.users + 1 })).setTask child
          (some { mm := th.mm })
    | some m =>
        if (s.mms m).isSome then return s
        else
          let s ← match mm.uittCtx with
            | some w => s.getUittRef w
            | none => pure s
          return (s.setMm m (some { users := 1, uittCtx := mm.uittCtx })).setTask child
            (some { mm := m })

end State

/-! ### Runs -/

inductive Event where
  | fork (t child : Task) (copy : Option Mm)
  | exit (t : Task)
  | destroyContext (m : Mm)
  | switchOut (t : Task) (interruptible : Bool)
  | switchIn (t : Task)
  | returnToUser (t : Task) (ndst : Nat)
  | wakeUp
  | registerHandler (t : Task) (handler : Addr) (flags : BitVec 32) (ndst : Nat)
      (mem : Option Addr)
  | unregisterHandler (t : Task) (flags : BitVec 32)
  | vectorFd (t : Task) (vector : Nat) (flags : BitVec 32) (mem : Bool) (file : Option File)
  | closeUvecfd (f : File)
  | notify (f : File)
  | registerSender (t : Task) (f : File) (flags : BitVec 32) (mem : Option Table)
  | unregisterSender (t : Task) (index : Nat) (flags : BitVec 32) (fput : Bool)
  | registerSelf (t : Task) (vector : Nat) (flags : BitVec 32) (mem : Option Table)
  | ipiFd (t : Task) (flags : BitVec 32) (mem : Option Table) (file : Option File)
  | ioctl (t : Task) (f : File) (setTargetTable : Bool)
  | closeUipifd (f : File)
  | senduipi (t : Task) (index : Nat)

namespace State

def isRunning (s : State) (t : Task) : Bool :=
  match s.tasks t with
  | some th => th.running
  | none => false

def onCpu (s : State) (t : Task) (call : Except Fault State) : Except Fault State :=
  if s.isRunning t then call else .ok s

def setRunning (s : State) (t : Task) (running : Bool) : Except Fault State := do
  let th ← s.thread t
  return s.setTask t (some { th with running := running })

def step (s : State) : Event → Except Fault State
  | .fork t child copy => s.onCpu t (s.fork t child copy)
  | .exit t => s.onCpu t (s.exit t)
  | .destroyContext m => s.destroyContext m
  | .switchOut t interruptible => s.onCpu t do
      let s ← s.switchUintrPrepare t interruptible
      s.setRunning t false
  | .switchIn t =>
      if s.isRunning t || (s.tasks t).isNone then .ok s
      else do
        let s ← s.switchUintrFinish t
        s.setRunning t true
  | .returnToUser t ndst => s.onCpu t (s.switchUintrReturn t ndst)
  | .wakeUp => s.uintrWakeUpProcess
  | .registerHandler t handler flags ndst mem =>
      s.onCpu t ((s.uintrRegisterHandler t handler flags ndst mem).map Prod.fst)
  | .unregisterHandler t flags => s.onCpu t ((s.uintrUnregisterHandler t flags).map Prod.fst)
  | .vectorFd t vector flags mem file =>
      s.onCpu t ((s.uintrVectorFd t vector flags mem file).map Prod.fst)
  | .closeUvecfd f => s.uvecfdRelease f
  | .notify f => s.uintrNotify f
  | .registerSender t f flags mem =>
      s.onCpu t ((s.uintrRegisterSender t f flags mem).map Prod.fst)
  | .unregisterSender t index flags fput =>
      s.onCpu t ((s.uintrUnregisterSender t index flags fput).map Prod.fst)
  | .registerSelf t vector flags mem =>
      s.onCpu t ((s.uintrRegisterSelf t vector flags mem).map Prod.fst)
  | .ipiFd t flags mem file => s.onCpu t ((s.uintrIpiFd t flags mem file).map Prod.fst)
  | .ioctl t f setTargetTable => s.onCpu t ((s.uipifdIoctl t f setTargetTable).map Prod.fst)
  | .closeUipifd f => s.uipifdRelease f
  | .senduipi t index => s.onCpu t (s.senduipi t index)

def run (s : State) : List Event → Except Fault State
  | [] => .ok s
  | event :: events => do
      let s ← s.step event
      s.run events

def boot : State where
  upids := fun _ => none
  uitts := fun _ => none
  tasks := Function.update (fun _ => none) 0 (some { mm := 0, running := true })
  mms := Function.update (fun _ => none) 0 (some { users := 1 })
  uvecfds := fun _ => none
  uipifds := fun _ => none
  waitList := []

end State

end UserPaging.Linux.Uintr
