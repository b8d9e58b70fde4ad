import UserPaging.Gem5.Delivery
import UserPaging.Gem5.Translate

/-!
# Faults of the delivery itself

The kernel resolves a fault of one of the five stores and lets the program repeat
its access.  By then the ROM has rounded the stack pointer and cleared UFF, and
nothing puts them back: the access is repeated as one of a handler, and the kernel
gets its fault.
-/

namespace UserPaging.Gem5

/-- The registers of the interrupted program are in place when the kernel takes over. -/
structure Undone (s nested : Cpu) : Prop where
  rsp : nested.gpr .rsp = s.gpr .rsp
  uff : nested.uff = s.uff
  rflags : nested.rflags = s.rflags
  rip : nested.rip = s.rip

variable {Fault : Type*}

structure FaultsAt (stack : Cpu → Mode → BitVec 64 → Option Fault) (s : Cpu) (addr : BitVec 64)
    (code : BitVec 8) (k : Nat) (fault : Fault) : Prop where
  before : ∀ i < k, stack (beforePush s addr code i) .write
    (alignedRsp s - BitVec.ofNat 64 (8 * (i + 1))) = none
  fault : stack (beforePush s addr code k) .write
    (alignedRsp s - BitVec.ofNat 64 (8 * (k + 1))) = some fault

variable {stack : Cpu → Mode → BitVec 64 → Option Fault} {s : Cpu} {addr : BitVec 64}
  {code : BitVec 8} {k : Nat} {fault : Fault}

private theorem microStep_faultsAt (hk : k < 5) (hfault : FaultsAt stack s addr code k fault) :
    microStep stack userFaultRom (5 + k) (beforePush s addr code k) =
      .faulted fault (beforePush s addr code k) := by
  simp only [microStep, userFaultRom_push hk, request_push s addr code hk, Option.bind_some,
    hfault.fault]

private theorem userFault_faultsAt (hk : k < 5) (hfault : FaultsAt stack s addr code k fault) :
    execMicro stack userFaultRom (userFaultInvoke s addr code) =
      .faulted fault (beforePush s addr code k) := by
  have hlength : (userFaultRom.take (5 + k)).length = 5 + k := by
    rw [List.length_take]
    exact Nat.min_eq_left (by change 5 + k ≤ 17; omega)
  have hprogram : userFaultRom =
      [] ++ userFaultRom.take (5 + k) ++ userFaultRom.drop (5 + k) := by simp
  have hrun := runMicro_passes hprogram (passes_beforePush hk.le hfault.before) (12 - k + 1)
  have hfuel : userFaultRom.length + 1 = 12 - k + 1 + (5 + k) := by
    change 18 = 12 - k + 1 + (5 + k)
    omega
  rw [hlength] at hrun
  rw [execMicro, hfuel]
  refine hrun.trans ?_
  change runMicro stack userFaultRom (12 - k + 1) (0 + (5 + k)) (beforePush s addr code k) = _
  rw [Nat.zero_add, runMicro, microStep_faultsAt hk hfault]

/-- Whichever store faults, the kernel finds UFF cleared and the stack pointer rounded
down, and the repeated access raises no user fault. -/
theorem push_fault_not_undone (base : PageFaults) (regs : ControlState) (access : Access)
    (lookup : Lookup)
    (hraised : translate base { regs with uff := s.uff } access lookup =
      some (.userFault addr code))
    (hk : k < 5) (hfault : FaultsAt stack s addr code k fault) :
    ∃ nested,
      execMicro stack userFaultRom (userFaultInvoke s addr code) = .faulted fault nested ∧
      ¬ Undone s nested ∧
      nested.gpr .rsp = alignedRsp s ∧ nested.uff = 0 ∧ nested.rflags = s.rflags ∧
      nested.rip = s.rip ∧
      ∀ mapped addr' code',
        translate base { regs with uff := nested.uff } access mapped ≠
          some (.userFault addr' code') := by
  obtain ⟨hrsp, huff, hrflags, hrip⟩ := beforePush_state s addr code hk.le
  have hset : s.uff ≠ 0 := uff_ne_zero_of_translate hraised
  refine ⟨beforePush s addr code k, userFault_faultsAt hk hfault, ?_, hrsp, huff, hrflags, hrip, ?_⟩
  · intro hundone
    exact hset (hundone.uff.symm.trans huff)
  · intro mapped addr' code' hrepeated
    exact uff_ne_zero_of_translate hrepeated huff

def unmappedStack (s : Cpu) (mode : Mode) (addr : BitVec 64) : Option Gem5.Fault :=
  translate documentedPageFaults ⟨3, true, true, s.uff, true⟩ ⟨addr, mode, false, false⟩
    (.miss [(.longPML4, ⟨false, false⟩)] ⟨true, true⟩)

private theorem faultsAt_unmappedStack :
    FaultsAt unmappedStack interruptedCpu 0x5000 0 0
      (.pageFault 0x7FFEFFF8 ⟨false, true, true, false, false⟩) where
  before := fun i hi => absurd hi (Nat.not_lt_zero i)
  fault := by decide

theorem push_fault_not_undone_unmappedStack :
    unmappedStack interruptedCpu .read 0x5000 = some (.userFault 0x5000 0) ∧
      ∃ nested,
        execMicro unmappedStack userFaultRom (userFaultInvoke interruptedCpu 0x5000 0) =
          .faulted (.pageFault 0x7FFEFFF8 ⟨false, true, true, false, false⟩) nested ∧
        ¬ Undone interruptedCpu nested := by
  have hraised : unmappedStack interruptedCpu .read 0x5000 = some (.userFault 0x5000 0) := by
    decide
  obtain ⟨nested, hrun, hundone, -⟩ :=
    push_fault_not_undone documentedPageFaults ⟨3, true, true, 0, true⟩
      ⟨0x5000, .read, false, false⟩ (.miss [(.longPML4, ⟨false, false⟩)] ⟨true, true⟩) hraised
      (by decide) faultsAt_unmappedStack
  exact ⟨hraised, nested, hrun, hundone⟩

theorem unmapped_stack_clears_uff :
    ∃ nested,
      execMicro unmappedStack userFaultRom (userFaultInvoke interruptedCpu 0x5000 0) =
        .faulted (.pageFault 0x7FFEFFF8 ⟨false, true, true, false, false⟩) nested ∧
      interruptedCpu.gpr .rsp = 0x7FFF0008 ∧ nested.gpr .rsp = 0x7FFF0000 ∧
      interruptedCpu.uff = 1 ∧ nested.uff = 0 ∧
      unmappedStack interruptedCpu .read 0x5000 = some (.userFault 0x5000 0) ∧
      unmappedStack nested .read 0x5000 =
        some (.pageFault 0x5000 ⟨false, false, true, false, false⟩) :=
  ⟨beforePush interruptedCpu 0x5000 0 0, rfl, rfl, by decide, rfl, rfl, by decide, by decide⟩

end UserPaging.Gem5
