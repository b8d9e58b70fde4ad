import UserPaging.Gem5.FaultRouting

/-!
# User accesses and their faults

Whether an access at CPL 3 goes through does not depend on user faults; they only
decide which fault a refused access raises.  A user fault tells its handler the
address and whether the access was a store.
-/

namespace UserPaging.Gem5

variable {base : PageFaults} {regs : ControlState} {access : Access} {lookup : Lookup}

def Lookup.entry : Lookup → TlbEntry
  | .hit entry | .miss _ entry => entry

def Lookup.walk : Lookup → List (WalkState × WalkEntry)
  | .hit _ => []
  | .miss walk _ => walk

private theorem translate_eq (lookup : Lookup) :
    translate base regs access lookup =
      ((lookup.walk.find? (entryFaults regs access)).map fun step =>
        if regs.cpl == 3 && regs.ufault && regs.uff != 0 then walkerUserFault regs access step.2.p
        else walkerPageFault base regs access step.2.p).or
          (tlbCheck base regs access lookup.entry) := by
  cases lookup with
  | hit entry => rfl
  | miss walk filled => exact translate_miss walk filled

structure Admitted (regs : ControlState) (access : Access) (lookup : Lookup) : Prop where
  walk : ∀ step ∈ lookup.walk, entryFaults regs access step = false
  user : lookup.entry.user = true
  writable : access.mode = .write ∨ access.storeCheck = true → lookup.entry.writable = true

/-- The fault of the TLB, which reports `mode` if it is a page fault. -/
def tlbFault (base : PageFaults) (regs : ControlState) (access : Access) (mode : Mode) : Fault :=
  let inUser := regs.cpl == 3 && !access.cpl0
  if inUser && regs.ufault && regs.uff != 0 then
    .userFault access.vaddr (userFaultCode true access.mode)
  else .pageFault access.vaddr (base.code true mode inUser false)

private theorem tlbCheck_eq (entry : TlbEntry) :
    tlbCheck base regs access entry =
      let inUser := regs.cpl == 3 && !access.cpl0
      let badWrite := !entry.writable && (inUser || regs.wp)
      if inUser && !entry.user || access.mode == .write && badWrite then
        some (tlbFault base regs access access.mode)
      else if access.storeCheck && badWrite then some (tlbFault base regs access .write)
      else none := by
  simp only [tlbCheck, tlbFault, apply_ite some]

private theorem tlbCheck_eq_none_iff (hcpl : regs.cpl = 3) (hcpl0 : access.cpl0 = false)
    (entry : TlbEntry) :
    tlbCheck base regs access entry = none ↔
      entry.user = true ∧
        (access.mode = .write ∨ access.storeCheck = true → entry.writable = true) := by
  rw [tlbCheck_eq]
  cases huser : entry.user <;> cases hwritable : entry.writable <;>
    cases hmode : access.mode <;> cases hstore : access.storeCheck <;> simp [hcpl, hcpl0]

theorem translate_eq_none_iff (hcpl : regs.cpl = 3) (hcpl0 : access.cpl0 = false) :
    translate base regs access lookup = none ↔ Admitted regs access lookup := by
  rw [translate_eq, Option.or_eq_none_iff, Option.map_eq_none_iff, List.find?_eq_none,
    tlbCheck_eq_none_iff hcpl hcpl0]
  constructor
  · rintro ⟨hwalk, huser, hwritable⟩
    exact ⟨fun step hstep => by simpa using hwalk step hstep, huser, hwritable⟩
  · rintro ⟨hwalk, huser, hwritable⟩
    exact ⟨fun step hstep => by simp [hwalk step hstep], huser, hwritable⟩

private theorem userFaultCode_write (present : Bool) (mode : Mode) :
    userFaultCode present mode &&& 2 ≠ 0 ↔ mode = .write := by
  cases present <;> cases mode <;> decide

theorem ufault_of_translate {addr : BitVec 64} {code : BitVec 8}
    (hfault : translate base regs access lookup = some (.userFault addr code)) :
    regs.ufault = true := by
  by_contra hoff
  have htlb : ∀ mode, tlbFault base regs access mode ≠ .userFault addr code := by
    simp [tlbFault, hoff]
  rw [translate_eq, Option.or_eq_some_iff, Option.map_eq_some_iff, tlbCheck_eq] at hfault
  rcases hfault with ⟨step, -, hstep⟩ | ⟨-, hcheck⟩
  · simp [hoff, walkerPageFault] at hstep
  · dsimp only at hcheck
    split_ifs at hcheck
    · exact htlb _ (Option.some.inj hcheck)
    · exact htlb _ (Option.some.inj hcheck)

theorem translate_userFault {addr : BitVec 64} {code : BitVec 8}
    (hfault : translate base regs access lookup = some (.userFault addr code)) :
    addr = access.vaddr ∧ regs.cpl = 3 ∧ (code &&& 2 ≠ 0 ↔ access.mode = .write) := by
  have htlb : ∀ mode, tlbFault base regs access mode = .userFault addr code →
      addr = access.vaddr ∧ regs.cpl = 3 ∧ (code &&& 2 ≠ 0 ↔ access.mode = .write) := by
    intro mode htlb
    simp only [tlbFault] at htlb
    split at htlb
    · rename_i hon
      cases htlb
      exact ⟨rfl, by simp_all, userFaultCode_write true _⟩
    · cases htlb
  rw [translate_eq, Option.or_eq_some_iff, Option.map_eq_some_iff, tlbCheck_eq] at hfault
  rcases hfault with ⟨step, -, hstep⟩ | ⟨-, hcheck⟩
  · split at hstep
    · rename_i hon
      simp only [walkerUserFault, Fault.userFault.injEq] at hstep
      obtain ⟨rfl, rfl⟩ := hstep
      refine ⟨rfl, by simp_all, (userFaultCode_write _ _).trans ?_⟩
      cases access.mode with
      | read | write => simp
      | execute => cases regs.enableNX <;> simp
    · cases hstep
  · dsimp only at hcheck
    split at hcheck
    · exact htlb _ (Option.some.inj hcheck)
    · split at hcheck
      · exact htlb _ (Option.some.inj hcheck)
      · cases hcheck

/-- With user faults off a refused access raises a page fault.  It reports a store
as one, a read that is refused as a read, and a fetch as one unless NX is off. -/
theorem translate_pageFault (huff : regs.uff = 0) {fault : Fault}
    (hfault : translate base regs access lookup = some fault) :
    ∃ present mode user,
      fault = .pageFault access.vaddr (base.code present mode user false) ∧
        (access.mode = .write → mode = .write) ∧
        (access.mode = .read → regs.cpl = 3 → access.cpl0 = false →
          ¬ Admitted regs { access with storeCheck := false } lookup → mode = .read) ∧
        (access.mode = .execute → access.storeCheck = false →
          mode = .execute ∨ mode = .read ∧ regs.enableNX = false) := by
  have htlb (mode : Mode) : tlbFault base regs access mode =
      .pageFault access.vaddr (base.code true mode (regs.cpl == 3 && !access.cpl0) false) := by
    simp [tlbFault, huff]
  rw [translate_eq, Option.or_eq_some_iff, Option.map_eq_some_iff, tlbCheck_eq] at hfault
  rcases hfault with ⟨step, -, hstep⟩ | ⟨hwalk, hcheck⟩
  · simp only [huff, bne_self_eq_false, Bool.and_false, Bool.false_eq_true, if_false,
      walkerPageFault] at hstep
    subst hstep
    refine ⟨_, _, _, rfl, fun hmode => ?_, fun hmode _ _ _ => ?_, fun hmode _ => ?_⟩
    · simp [base.walkMode_eq, hmode]
    · simp [base.walkMode_eq, hmode]
    · cases hnx : regs.enableNX <;> simp [base.walkMode_eq, hmode]
  · dsimp only at hcheck
    split at hcheck
    · obtain rfl := Option.some.inj hcheck
      exact ⟨_, _, _, htlb _, id, fun hmode _ _ _ => hmode, fun hmode _ => .inl hmode⟩
    · split at hcheck
      · rename_i hpasses hstore
        obtain rfl := Option.some.inj hcheck
        refine ⟨_, _, _, htlb _, fun _ => rfl, fun hmode hcpl hcpl0 hrefused => ?_,
          fun _ hplain => by simp [hplain] at hstore⟩
        -- Only the store check refuses the access, so that a plain read goes through.
        refine absurd ⟨fun step hstep => ?_, ?_, ?_⟩ hrefused
        · have hstep := List.find?_eq_none.1 (Option.map_eq_none_iff.1 hwalk) step hstep
          exact Bool.eq_false_iff.2 hstep
        · simpa [hcpl, hcpl0, hmode] using hpasses
        · simp [hmode]
      · cases hcheck

end UserPaging.Gem5
