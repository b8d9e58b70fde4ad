import UserPaging.Gem5.MicroOp

/-!
# Page faults and user faults

The checks of the page-table walker and of the TLB that raise page faults, before
and after user faults were added.  A walk is known by the entries it reads, in
order, and by the TLB entry it fills in when none of them faults.
-/

namespace UserPaging.Gem5

inductive WalkState where
  | longPML4 | longPDP | longPD | longPTE
  | paePDP | paePD | paePTE
  | psePD | pd | pte
  deriving DecidableEq, Repr

structure WalkEntry where
  p : Bool
  nx : Bool
  deriving DecidableEq, Repr

structure TlbEntry where
  user : Bool
  writable : Bool
  deriving DecidableEq, Repr

structure ControlState where
  cpl : BitVec 2
  wp : Bool
  ufault : Bool
  uff : BitVec 64
  enableNX : Bool
  deriving DecidableEq, Repr

structure Access where
  vaddr : BitVec 64
  mode : Mode
  storeCheck : Bool
  /-- `CPL0FlagBit` of the request. -/
  cpl0 : Bool
  deriving DecidableEq, Repr

structure PageFaultCode where
  present : Bool
  write : Bool
  user : Bool
  reserved : Bool
  fetch : Bool
  deriving DecidableEq, Repr

inductive Fault where
  | pageFault (addr : BitVec 64) (code : PageFaultCode)
  | userFault (addr : BitVec 64) (code : BitVec 8)
  deriving DecidableEq, Repr

structure PageFaults where
  code : Bool → Mode → Bool → Bool → PageFaultCode
  code_present : ∀ present mode user reserved,
    (code present mode user reserved).present = present
  code_write : ∀ present mode user reserved,
    (code present mode user reserved).write = (mode == .write)
  code_fetch : ∀ present mode user reserved,
    (code present mode user reserved).fetch = (mode == .execute)
  /-- The mode that `WalkerState::pageFault` reports. -/
  walkMode : Mode → Bool → Mode
  walkMode_eq : ∀ mode enableNX,
    walkMode mode enableNX = if mode = .execute ∧ enableNX = false then .read else mode

def documentedPageFaults : PageFaults where
  code := fun present mode user reserved =>
    ⟨present, mode == .write, user, reserved, mode == .execute⟩
  code_present := fun _ _ _ _ => rfl
  code_write := fun _ _ _ _ => rfl
  code_fetch := fun _ _ _ _ => rfl
  walkMode := fun mode enableNX => if mode = .execute ∧ enableNX = false then .read else mode
  walkMode_eq := fun _ _ => rfl

def userFaultCode (present : Bool) (mode : Mode) : BitVec 8 :=
  (if present then 1 else 0) ||| (if mode = .write then 2 else 0) |||
    (if mode = .execute then 4 else 0)

section

variable (base : PageFaults) (regs : ControlState) (access : Access)

/-! ## The walker -/

def badNX (entry : WalkEntry) : Bool :=
  entry.nx && access.mode == .execute && regs.enableNX

def walkFaults (state : WalkState) (entry : WalkEntry) : Bool :=
  match state with
  | .longPML4 | .longPDP | .longPD | .longPTE | .paePD | .paePTE =>
      badNX regs access entry || !entry.p
  | .paePDP | .psePD | .pd | .pte => !entry.p

def walkerPageFault (present : Bool) : Fault :=
  .pageFault access.vaddr
    (base.code present (base.walkMode access.mode regs.enableNX) (regs.cpl == 3) false)

def walkerUserFault (present : Bool) : Fault :=
  let mode := if access.mode = .execute ∧ regs.enableNX = false then .read else access.mode
  .userFault access.vaddr (userFaultCode present mode)

def stepWalkBefore (state : WalkState) (entry : WalkEntry) : Option Fault :=
  if walkFaults regs access state entry then some (walkerPageFault base regs access entry.p)
  else none

def stepWalk (state : WalkState) (entry : WalkEntry) : Option Fault :=
  let inUser := regs.cpl == 3
  let doUserFault := inUser && regs.ufault && regs.uff != 0
  if walkFaults regs access state entry then
    some (if doUserFault then walkerUserFault regs access entry.p
      else walkerPageFault base regs access entry.p)
  else none

/-! ## The TLB -/

def tlbCheckBefore (entry : TlbEntry) : Option Fault :=
  let inUser := regs.cpl == 3 && !access.cpl0
  let badWrite := !entry.writable && (inUser || regs.wp)
  if inUser && !entry.user || access.mode == .write && badWrite then
    some (.pageFault access.vaddr (base.code true access.mode inUser false))
  else if access.storeCheck && badWrite then
    some (.pageFault access.vaddr (base.code true .write inUser false))
  else none

def tlbCheck (entry : TlbEntry) : Option Fault :=
  let inUser := regs.cpl == 3 && !access.cpl0
  let badWrite := !entry.writable && (inUser || regs.wp)
  let doUserFault := inUser && regs.ufault && regs.uff != 0
  if inUser && !entry.user || access.mode == .write && badWrite then
    if doUserFault then some (.userFault access.vaddr (userFaultCode true access.mode))
    else some (.pageFault access.vaddr (base.code true access.mode inUser false))
  else if access.storeCheck && badWrite then
    if doUserFault then some (.userFault access.vaddr (userFaultCode true access.mode))
    else some (.pageFault access.vaddr (base.code true .write inUser false))
  else none

end

inductive Lookup where
  | hit (entry : TlbEntry)
  | miss (walk : List (WalkState × WalkEntry)) (filled : TlbEntry)

def translateBefore (base : PageFaults) (regs : ControlState) (access : Access) :
    Lookup → Option Fault
  | .hit entry => tlbCheckBefore base regs access entry
  | .miss walk filled =>
      (walk.findSome? fun (state, entry) => stepWalkBefore base regs access state entry).or
        (tlbCheckBefore base regs access filled)

def translate (base : PageFaults) (regs : ControlState) (access : Access) :
    Lookup → Option Fault
  | .hit entry => tlbCheck base regs access entry
  | .miss walk filled =>
      (walk.findSome? fun (state, entry) => stepWalk base regs access state entry).or
        (tlbCheck base regs access filled)

variable {base : PageFaults} {regs : ControlState} {access : Access} {addr : BitVec 64}
  {code : BitVec 8}

private theorem uff_ne_zero_of_stepWalk {state : WalkState} {entry : WalkEntry}
    (hfault : stepWalk base regs access state entry = some (.userFault addr code)) :
    regs.uff ≠ 0 := by
  intro huff
  simp [stepWalk, walkerPageFault, huff] at hfault

private theorem uff_ne_zero_of_tlbCheck {entry : TlbEntry}
    (hfault : tlbCheck base regs access entry = some (.userFault addr code)) : regs.uff ≠ 0 := by
  intro huff
  simp only [tlbCheck, huff, bne_self_eq_false, Bool.and_false, Bool.false_eq_true, if_false]
    at hfault
  split at hfault
  · cases hfault
  · split at hfault <;> cases hfault

theorem uff_ne_zero_of_translate {lookup : Lookup}
    (hfault : translate base regs access lookup = some (.userFault addr code)) :
    regs.uff ≠ 0 := by
  cases lookup with
  | hit entry => exact uff_ne_zero_of_tlbCheck hfault
  | miss walk filled =>
      rcases Option.or_eq_some_iff.1 hfault with hwalk | ⟨-, hfilled⟩
      · obtain ⟨step, -, hstep⟩ := List.exists_of_findSome?_eq_some hwalk
        exact uff_ne_zero_of_stepWalk hstep
      · exact uff_ne_zero_of_tlbCheck hfilled

end UserPaging.Gem5
