import UserPaging.Gem5.Translate

/-!
# Which accesses raise user faults

A user access is one at CPL 3 that is not marked to run at CPL 0.  With user
faults on, such an access should raise a user fault where it raised a page fault
before, with the same present, write and fetch bits, and no other access should
notice the change.  Two places miss this: the walker does not look at the mark,
and the store check of the TLB reports the mode of the access where the page
fault reports a write.
-/

namespace UserPaging.Gem5

def userAccess (regs : ControlState) (access : Access) : Bool :=
  regs.cpl == 3 && !access.cpl0 && regs.ufault && regs.uff != 0

def SameBits (code : BitVec 8) (pageFault : PageFaultCode) : Prop :=
  code.getLsbD 0 = pageFault.present ∧ code.getLsbD 1 = pageFault.write ∧
    code.getLsbD 2 = pageFault.fetch

def Routed (regs : ControlState) (access : Access) (before after : Option Fault) : Prop :=
  match before with
  | some (.pageFault addr code) =>
      if userAccess regs access then
        ∃ userCode, after = some (.userFault addr userCode) ∧ SameBits userCode code
      else after = before
  | _ => after = before

variable {base : PageFaults} {regs : ControlState} {access : Access}

private theorem sameBits_userFaultCode (base : PageFaults) (present : Bool) (mode : Mode)
    (user reserved : Bool) :
    SameBits (userFaultCode present mode) (base.code present mode user reserved) := by
  rw [SameBits, base.code_present, base.code_write, base.code_fetch]
  cases present <;> cases mode <;> decide

private theorem routed_pageFault {addr : BitVec 64} {code : PageFaultCode} {userFault : Bool}
    {userCode : BitVec 8} :
    Routed regs access (some (.pageFault addr code))
        (some (if userFault then .userFault addr userCode else .pageFault addr code)) ↔
      userFault = userAccess regs access ∧ (userFault = true → SameBits userCode code) := by
  cases userFault <;> cases huser : userAccess regs access <;> simp [Routed, huser]

/-! ## The TLB -/

def storeCheckOnly (access : Access) (entry : TlbEntry) : Bool :=
  access.storeCheck && access.mode != .write && entry.user && !entry.writable

private theorem not_sameBits_storeCheck (base : PageFaults) {mode : Mode} (hmode : mode ≠ .write)
    (user reserved : Bool) :
    ¬ SameBits (userFaultCode true mode) (base.code true .write user reserved) := by
  rintro ⟨-, hwrite, -⟩
  rw [base.code_write] at hwrite
  revert hwrite
  cases mode with
  | write => exact absurd rfl hmode
  | read => decide
  | execute => decide

private theorem routed_tlbCheck (entry : TlbEntry) :
    Routed regs access (tlbCheckBefore base regs access entry) (tlbCheck base regs access entry) ↔
      (userAccess regs access && storeCheckOnly access entry) = false := by
  have huser : userAccess regs access =
      ((regs.cpl == 3 && !access.cpl0) && regs.ufault && regs.uff != 0) := rfl
  simp only [tlbCheckBefore, tlbCheck, ← huser, storeCheckOnly]
  generalize hin : (regs.cpl == 3 && !access.cpl0) = inUser at huser ⊢
  split
  · rename_i hrefused
    rw [← apply_ite some, routed_pageFault]
    refine iff_of_true ⟨rfl, fun _ => sameBits_userFaultCode base true access.mode inUser false⟩ ?_
    cases hmode : access.mode == .write <;> cases hentry : entry.user <;>
      simp_all
  · rename_i hpasses
    split
    · rename_i hstore
      rw [← apply_ite some, routed_pageFault]
      have hmode : access.mode ≠ .write := by
        intro hwrite
        simp_all
      cases hua : userAccess regs access with
      | false => simp
      | true =>
          have hsame := not_sameBits_storeCheck base hmode inUser false
          have hinUser : inUser = true := by simp_all
          simp_all
    · rename_i hstore
      refine iff_of_true rfl ?_
      cases hua : userAccess regs access with
      | false => simp
      | true =>
          have hinUser : inUser = true := by simp_all
          cases hwritable : entry.writable <;> simp_all

/-! ## The walker -/

theorem findSome?_ite {α β : Type*} (faults : α → Bool) (report : α → β) (walk : List α) :
    (walk.findSome? fun entry => if faults entry then some (report entry) else none) =
      (walk.find? faults).map report := by
  induction walk with
  | nil => rfl
  | cons entry walk ih =>
      cases hfault : faults entry with
      | true => simp [hfault]
      | false => simp [hfault, ih]

def entryFaults (regs : ControlState) (access : Access) (step : WalkState × WalkEntry) : Bool :=
  walkFaults regs access step.1 step.2

private theorem translateBefore_miss (walk : List (WalkState × WalkEntry)) (filled : TlbEntry) :
    translateBefore base regs access (.miss walk filled) =
      ((walk.find? (entryFaults regs access)).map fun step =>
        walkerPageFault base regs access step.2.p).or (tlbCheckBefore base regs access filled) :=
  congrArg (Option.or · _) (findSome?_ite (entryFaults regs access) _ walk)

theorem translate_miss (walk : List (WalkState × WalkEntry)) (filled : TlbEntry) :
    translate base regs access (.miss walk filled) =
      ((walk.find? (entryFaults regs access)).map fun step =>
        if regs.cpl == 3 && regs.ufault && regs.uff != 0 then walkerUserFault regs access step.2.p
        else walkerPageFault base regs access step.2.p).or (tlbCheck base regs access filled) :=
  congrArg (Option.or · _) (findSome?_ite (entryFaults regs access) _ walk)

private theorem routed_stepWalk (present : Bool) :
    Routed regs access (some (walkerPageFault base regs access present))
        (some (if regs.cpl == 3 && regs.ufault && regs.uff != 0 then
          walkerUserFault regs access present else walkerPageFault base regs access present)) ↔
      (regs.cpl == 3 && access.cpl0 && regs.ufault && regs.uff != 0) = false := by
  simp only [walkerPageFault, walkerUserFault, base.walkMode_eq]
  rw [routed_pageFault, and_iff_left fun _ => sameBits_userFaultCode base present _ _ false]
  cases hcpl0 : access.cpl0 <;> simp [userAccess, hcpl0]

def misrouted (regs : ControlState) (access : Access) : Lookup → Bool
  | .hit entry => userAccess regs access && storeCheckOnly access entry
  | .miss walk filled =>
      if walk.any (entryFaults regs access) then
        regs.cpl == 3 && access.cpl0 && regs.ufault && regs.uff != 0
      else userAccess regs access && storeCheckOnly access filled

theorem translate_routed_iff (base : PageFaults) (regs : ControlState) (access : Access)
    (lookup : Lookup) :
    Routed regs access (translateBefore base regs access lookup)
        (translate base regs access lookup) ↔
      misrouted regs access lookup = false := by
  cases lookup with
  | hit entry => exact routed_tlbCheck entry
  | miss walk filled =>
      rw [translateBefore_miss, translate_miss, misrouted]
      cases hfirst : walk.find? (entryFaults regs access) with
      | none =>
          have hany : walk.any (entryFaults regs access) = false := by
            simpa using hfirst
          rw [hany]
          exact routed_tlbCheck filled
      | some step =>
          have hany : walk.any (entryFaults regs access) = true :=
            List.any_eq_true.2 ⟨step, List.mem_of_find?_eq_some hfirst, List.find?_some hfirst⟩
          rw [hany]
          exact routed_stepWalk step.2.p

def userFaultsOn : ControlState := ⟨3, true, true, 1, true⟩

/-- An access marked to run at CPL 0 raises a user fault when the walk finds nothing,
and the store check of a load from a read-only page reports a read. -/
theorem supervisor_miss_and_storeCheck_misrouted :
    ¬ Routed userFaultsOn ⟨0x1000, .read, false, true⟩
        (translateBefore documentedPageFaults userFaultsOn ⟨0x1000, .read, false, true⟩
          (.miss [(.longPML4, ⟨false, false⟩)] ⟨true, true⟩))
        (translate documentedPageFaults userFaultsOn ⟨0x1000, .read, false, true⟩
          (.miss [(.longPML4, ⟨false, false⟩)] ⟨true, true⟩)) ∧
      ¬ Routed userFaultsOn ⟨0x1000, .read, true, false⟩
        (translateBefore documentedPageFaults userFaultsOn ⟨0x1000, .read, true, false⟩
          (.hit ⟨true, false⟩))
        (translate documentedPageFaults userFaultsOn ⟨0x1000, .read, true, false⟩
          (.hit ⟨true, false⟩)) := by
  constructor
  · intro hrouted
    have hsame : some (Fault.userFault 0x1000 0) =
        some (Fault.pageFault 0x1000 ⟨false, false, true, false, false⟩) := hrouted
    exact absurd hsame (by decide)
  · rintro ⟨userCode, hcode, -, hwrite, -⟩
    obtain rfl : (1 : BitVec 8) = userCode := by
      injection hcode with hfault
      injection hfault
    exact absurd hwrite (by decide)

end UserPaging.Gem5
