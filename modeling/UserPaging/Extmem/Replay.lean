import UserPaging.Extmem.RangeCheck
import UserPaging.Gem5.Translate

/-!
# Replaying a user fault for the kernel

A user fault outside the managed ranges is none of extmem's business:
`uswap_ufault_handler` repeats the access with user faults off, so that the kernel
gets the page fault it would have had.  The handler knows the access by the fault
code only; it repeats a write when the code says so and a read otherwise.

One page is enough to follow an access, because a request never crosses a page.
What the kernel does with a page fault is a parameter.
-/

namespace UserPaging.Extmem

open UserPaging.Foundation UserPaging.Gem5

/-! ## The page of an access -/

structure PageView where
  walk : List (WalkState × WalkEntry)
  filled : TlbEntry
  dtb : Option TlbEntry
  itb : Option TlbEntry
  memory : Memory 64

namespace PageView

def cached (page : PageView) : Mode → Option TlbEntry
  | .execute => page.itb
  | .read | .write => page.dtb

def lookup (page : PageView) (mode : Mode) : Lookup :=
  match page.cached mode with
  | some entry => .hit entry
  | none => .miss page.walk page.filled

def fill (page : PageView) (mode : Mode) : PageView :=
  let entry := (page.cached mode).getD page.filled
  match mode with
  | .execute => { page with itb := some entry }
  | .read | .write => { page with dtb := some entry }

end PageView

inductive UserAccess where
  | load
  | store (first : BitVec 8) (rest : List (BitVec 8))
  | readModifyWrite (modify : Memory 64 → Memory 64)
  | fetch

namespace UserAccess

def requests (vaddr : BitVec 64) : UserAccess → List Access
  | .load => [⟨vaddr, .read, false, false⟩]
  | .store _ _ => [⟨vaddr, .write, false, false⟩]
  | .readModifyWrite _ => [⟨vaddr, .read, true, false⟩, ⟨vaddr, .write, false, false⟩]
  | .fetch => [⟨vaddr, .execute, false, false⟩]

def effect (vaddr : BitVec 64) (memory : Memory 64) : UserAccess → Memory 64
  | .store first rest => fun addr => (first :: rest).getD (addr - vaddr).toNat (memory addr)
  | .readModifyWrite modify => modify memory
  | .load | .fetch => memory

end UserAccess

section

variable (base : PageFaults) (regs : ControlState)

def issue (page : PageView) (access : Access) : Except Fault PageView :=
  match translate base regs access (page.lookup access.mode) with
  | some fault => .error fault
  | none => .ok (page.fill access.mode)

def perform (vaddr : BitVec 64) (access : UserAccess) (page : PageView) :
    Except Fault PageView := do
  let page ← (access.requests vaddr).foldlM (issue base regs) page
  return { page with memory := access.effect vaddr page.memory }

end

/-! ## The kernel -/

inductive Signal where
  | sigsegv
  | sigbus
  deriving DecidableEq, Repr

def faultMode (code : PageFaultCode) : Mode :=
  if code.write then .write else if code.fetch then .execute else .read

structure PageView.Present (page : PageView) : Prop where
  present : ∀ step ∈ page.walk, step.2.p = true
  user : page.filled.user = true
  -- A page fault drops the address from the TLBs before the kernel is entered.
  dtb : page.dtb = none
  itb : page.itb = none

/--
The kernel's handling of a page fault: a signal, or a page that allows at least
the access reported and has the same contents.
-/
structure Kernel where
  fault : Mode → PageView → Except Signal PageView
  present : ∀ mode page page', fault mode page = .ok page' → page'.Present
  writable : ∀ page page', fault .write page = .ok page' → page'.filled.writable = true
  executable : ∀ page page', fault .execute page = .ok page' →
    ∀ step ∈ page'.walk, step.2.nx = false
  memory : ∀ mode page page', fault mode page = .ok page' → page'.memory = page.memory

inductive Outcome where
  | completed (page : PageView)
  | signalled (signal : Signal)
  | unfinished

def userFaultsOff (regs : ControlState) : ControlState := { regs with uff := 0 }

section

variable (base : PageFaults) (regs : ControlState) (kernel : Kernel)

def underKernel (vaddr : BitVec 64) (access : UserAccess) : Nat → PageView → Outcome
  | 0, _ => .unfinished
  | attempts + 1, page =>
      match perform base (userFaultsOff regs) vaddr access page with
      | .ok page => .completed page
      | .error (.pageFault _ code) =>
          match kernel.fault (faultMode code) page with
          | .ok page => underKernel vaddr access attempts page
          | .error signal => .signalled signal
      | .error (.userFault _ _) => .unfinished

/-! ## The handler -/

def ufaultCodeWrite : BitVec 8 := 1 <<< 1

def replayedAccess (code : BitVec 8) : UserAccess :=
  if code &&& ufaultCodeWrite ≠ 0 then .store 0 [] else .load

/-- `managed` stands for the handling of faults in the managed ranges. -/
def uswapUfaultHandler (ranges : Ranges) (managed : BitVec 64 → PageView → Outcome)
    (attempts : Nat) (page : PageView) (addr : BitVec 64) (code : BitVec 8) : Outcome :=
  if !userfaultRangeCheck ranges addr then
    underKernel base regs kernel addr (replayedAccess code) attempts page
  else managed addr page

end

/--
After the handler the access is repeated with user faults on.  It must then
complete with the memory that the kernel alone would have led to, unless the
handler has brought the signal that the kernel alone would have sent.
-/
def Transparent (direct handled : Outcome) (retry : PageView → Except Fault PageView) : Prop :=
  match handled with
  | .completed page => ∃ final final', retry page = .ok final ∧
      direct = .completed final' ∧ final.memory = final'.memory
  | .signalled signal => direct = .signalled signal
  | .unfinished => False

end UserPaging.Extmem
