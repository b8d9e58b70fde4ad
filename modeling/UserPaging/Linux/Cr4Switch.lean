import Mathlib.Data.BitVec
import UserPaging.Gem5.UserAccess
import UserPaging.Linux.History

/-!
# `CR4.UFAULT` across context switches

`switch_ufault` flips the bit when the two flags differ, which is right because the
bit equals the flag of the outgoing task; `prctl` sets and clears it together with
the flag.  Both go through the kernel's copy of the register, so the copy belongs to
the invariant.
-/

namespace UserPaging.Linux

open UserPaging.Foundation

variable {Task Cpu : Type*}

private theorem getLsbD_x86Cr4Ufault (i : Nat) : x86Cr4Ufault.getLsbD i = decide (i = 26) := by
  rw [show x86Cr4Ufault = BitVec.twoPow 64 26 from rfl, BitVec.getLsbD_twoPow]
  simp [eq_comm]

theorem bit_of_canDeliver {cpu : CpuState} (hdeliver : cpu.canDeliver = true) :
    cpu.cr4.getLsbD 26 = true := by
  by_contra hbit
  have hzero : cpu.cr4 &&& x86Cr4Ufault = 0 := by
    apply BitVec.eq_of_getLsbD_eq
    intro i hi
    rw [BitVec.getLsbD_and, getLsbD_x86Cr4Ufault]
    by_cases h : i = 26
    · simpa [h] using hbit
    · simp [h]
  simp [CpuState.canDeliver, hzero] at hdeliver

/-! ## Writes of the register -/

/-- A write that leaves `CR4.UFAULT` at `flag`, every other bit as it was, and the
kernel's copy in step with the register. -/
structure Cr4Set (before : CpuState) (flag : Bool) (after : CpuState) : Prop where
  sync : after.cr4Shadow = after.cr4
  bit : after.cr4.getLsbD 26 = flag
  frame : ∀ i, i ≠ 26 → after.cr4.getLsbD i = before.cr4.getLsbD i

namespace Cr4Set

variable {cpu : CpuState}

private theorem refl (hsync : cpu.cr4Shadow = cpu.cr4) : Cr4Set cpu (cpu.cr4.getLsbD 26) cpu :=
  ⟨hsync, rfl, fun _ _ => rfl⟩

private theorem congr {flag : Bool} {after after' : CpuState} (hset : Cr4Set cpu flag after)
    (hcr4 : after'.cr4 = after.cr4) (hshadow : after'.cr4Shadow = after.cr4Shadow) :
    Cr4Set cpu flag after' := by
  obtain ⟨hsync, hbit, hframe⟩ := hset
  exact ⟨by rw [hshadow, hcr4, hsync], by rw [hcr4, hbit], fun i hi => by rw [hcr4, hframe i hi]⟩

private theorem writeCr4 (hsync : cpu.cr4Shadow = cpu.cr4) {newval : BitVec 64} {flag : Bool}
    (hbit : newval.getLsbD 26 = flag)
    (hframe : ∀ i, i ≠ 26 → newval.getLsbD i = cpu.cr4.getLsbD i) :
    Cr4Set cpu flag (cpu.writeCr4 newval) := by
  unfold CpuState.writeCr4
  split
  · exact ⟨rfl, hbit, hframe⟩
  · rename_i hsame
    have hnewval : newval = cpu.cr4 := by simpa [hsync] using hsame
    exact ⟨hsync, hnewval ▸ hbit, fun _ _ => rfl⟩

private theorem toggle (hsync : cpu.cr4Shadow = cpu.cr4) :
    Cr4Set cpu (!cpu.cr4.getLsbD 26) (cpu.cr4ToggleBits x86Cr4Ufault) := by
  refine writeCr4 hsync ?_ fun i hi => ?_
  · rw [BitVec.getLsbD_xor, hsync, getLsbD_x86Cr4Ufault]
    simp
  · simp [hsync, getLsbD_x86Cr4Ufault, hi]

private theorem set (hsync : cpu.cr4Shadow = cpu.cr4) :
    Cr4Set cpu true (cpu.cr4SetBits x86Cr4Ufault) := by
  refine writeCr4 hsync ?_ fun i hi => ?_
  · simp [getLsbD_x86Cr4Ufault]
  · simp [hsync, getLsbD_x86Cr4Ufault, hi]

private theorem clear (hsync : cpu.cr4Shadow = cpu.cr4) :
    Cr4Set cpu false (cpu.cr4ClearBits x86Cr4Ufault) := by
  refine writeCr4 hsync ?_ fun i hi => ?_
  · simp [getLsbD_x86Cr4Ufault]
  · rw [BitVec.getLsbD_and, BitVec.getLsbD_not, getLsbD_x86Cr4Ufault, hsync]
    by_cases hwidth : i < 64
    · simp [hi, hwidth]
    · simp [hwidth, BitVec.getLsbD_of_ge cpu.cr4 i (by omega)]

private theorem switchUfault {feature : Bool} {prev : Thread} (next : Thread)
    (hsync : cpu.cr4Shadow = cpu.cr4)
    (hbit : cpu.cr4.getLsbD 26 = prev.tifUfault)
    (hsupported : feature = false → next.tifUfault = prev.tifUfault) :
    Cr4Set cpu next.tifUfault (Linux.switchUfault feature cpu prev next).1 := by
  cases feature with
  | false =>
      rw [hsupported rfl, ← hbit]
      exact refl hsync
  | true =>
      have hset : Cr4Set cpu next.tifUfault
          (if next.tifUfault != prev.tifUfault then cpu.cr4ToggleBits x86Cr4Ufault
            else cpu) := by
        split
        · rename_i hdiffer
          have hflag : next.tifUfault = !cpu.cr4.getLsbD 26 := by
            rw [hbit]
            exact Bool.eq_not_of_ne (by simpa using hdiffer)
          exact hflag ▸ toggle hsync
        · rename_i hsame
          have hflag : next.tifUfault = cpu.cr4.getLsbD 26 := by
            rw [hbit]
            simpa using hsame
          exact hflag ▸ refl hsync
      obtain ⟨uff, hcpu⟩ := switchUfault_cpu cpu prev next
      rw [hcpu]
      exact hset.congr rfl rfl

private theorem prctlStatement {thread : Thread} {point : ControlPoint}
    {outcome : CpuState × Thread × ControlPoint} (hsync : cpu.cr4Shadow = cpu.cr4)
    (hbit : cpu.cr4.getLsbD 26 = thread.tifUfault)
    (hstatement : Linux.prctlStatement cpu thread point = some outcome) :
    Cr4Set cpu outcome.2.1.tifUfault outcome.1 := by
  have hsame : Cr4Set cpu thread.tifUfault cpu := hbit ▸ refl hsync
  cases point <;>
    simp only [Linux.prctlStatement, Option.some.injEq, reduceCtorEq] at hstatement <;>
    subst hstatement
  case enable =>
      simp only [enableUfault]
      split
      · exact set hsync
      · rename_i henabled
        exact (by simpa using henabled : thread.tifUfault = true) ▸ hsame
  case disable =>
      simp only [disableUfault]
      split
      · exact clear hsync
      · rename_i hdisabled
        exact (by simpa using hdisabled : thread.tifUfault = false) ▸ hsame
  all_goals exact hsame.congr rfl rfl

end Cr4Set

/-! ## The invariant -/

structure Cr4Invariant (feature : Bool) (state : State Task Cpu) : Prop
    extends Scheduled feature state where
  sync : ∀ cpu, (state.cpu cpu).cr4Shadow = (state.cpu cpu).cr4
  bit : ∀ cpu, (state.cpu cpu).cr4.getLsbD 26 = (state.running cpu).tifUfault

structure Cr4Booted (state : State Task Cpu) : Prop extends Booted state where
  sync : ∀ cpu, (state.cpu cpu).cr4Shadow = (state.cpu cpu).cr4
  clear : ∀ cpu, (state.cpu cpu).cr4.getLsbD 26 = false

namespace Cr4Invariant

variable {feature : Bool} {state next : State Task Cpu}

theorem of_booted (hboot : Cr4Booted state) : Cr4Invariant feature state where
  toScheduled := .of_booted hboot.toBooted
  sync := hboot.sync
  bit := fun cpu => (hboot.clear cpu).trans (hboot.disabled _).symm

theorem refl (hinv : Cr4Invariant feature state) (cpu : Cpu) :
    Cr4Set (state.cpu cpu) (state.running cpu).tifUfault (state.cpu cpu) :=
  hinv.bit cpu ▸ .refl (hinv.sync cpu)

variable [DecidableEq Task] [DecidableEq Cpu]

private theorem cr4Set (hinv : Cr4Invariant feature state) {label : Label Task Cpu}
    (hstep : Linux.step feature state label = some next) (cpu : Cpu) :
    Cr4Set (state.cpu cpu) (next.running cpu).tifUfault (next.cpu cpu) := by
  cases moves_of_step hstep with
  | @fork _ child huser hnew =>
      have hne := hinv.current_ne_of_not_created hnew cpu
      simpa [State.fork, State.running, hne] using hinv.refl cpu
  | @contextSwitch target task hcreated hwaiting =>
      have hnext := (hinv.current_ne_of_waiting hwaiting target).symm
      by_cases hcpu : cpu = target
      · subst hcpu
        have hset := Cr4Set.switchUfault (state.thread task) (hinv.sync cpu)
          (hinv.bit cpu) fun hfeature => by
            rw [(hinv.supported hfeature task).1, State.running, (hinv.supported hfeature _).1]
        simpa [State.contextSwitch, State.running, hnext] using hset
      · have hne := hinv.current_ne hcpu
        simpa [State.contextSwitch, State.running, hcpu, hne] using hinv.refl cpu
  | prctl huser => exact hinv.refl cpu
  | @statement target outcome hstatement =>
      by_cases hcpu : cpu = target
      · subst hcpu
        have hset := Cr4Set.prctlStatement (hinv.sync cpu) (hinv.bit cpu) hstatement
        simpa [State.runStatement, State.running] using hset
      · have hne := hinv.current_ne hcpu
        simpa [State.runStatement, State.running, hcpu, hne] using hinv.refl cpu
  | @stuf target huser | @cluf target huser | @ufret target huser
  | @deliver target huser hdeliver =>
      by_cases hcpu : cpu = target
      · subst hcpu
        refine (hinv.refl cpu).congr ?_ ?_ <;> simp [State.setUff]
      · simpa [State.setUff, State.running, hcpu] using hinv.refl cpu

theorem step (hinv : Cr4Invariant feature state) {label : Label Task Cpu}
    (hstep : Linux.step feature state label = some next) : Cr4Invariant feature next where
  toScheduled := hinv.toScheduled.step hstep
  sync := fun cpu => (hinv.cr4Set hstep cpu).sync
  bit := fun cpu => (hinv.cr4Set hstep cpu).bit

theorem of_run {boot : State Task Cpu} (hboot : Cr4Booted boot)
    {actions : List (Action Task Cpu)} {traced : Traced Task Cpu}
    (hrun : run (tracedStep feature) (.start boot) actions = some traced) :
    Cr4Invariant feature traced.state :=
  traced_invariant (fun _ _ _ hinv hstep => hinv.step hstep) (of_booted hboot) hrun

end Cr4Invariant

/-! ## Whole runs -/

section

variable [DecidableEq Task] [DecidableEq Cpu]

/-- In every run from boot the bit of each CPU is the flag of the task that runs
there, no step touches another bit of `CR4`, and a task that has not turned user
faults on gets none. -/
theorem cr4_ufault_eq_tifUfault (feature : Bool) {boot : State Task Cpu}
    (hboot : Cr4Booted boot) {actions : List (Action Task Cpu)} :
    ∀ traced ∈ run (tracedStep feature) (.start boot) actions,
      (∀ cpu, (traced.state.cpu cpu).cr4.getLsbD 26 = (traced.state.running cpu).tifUfault) ∧
      (∀ action next, tracedStep feature traced action = some next →
        ∀ cpu i, i ≠ 26 →
          (next.state.cpu cpu).cr4.getLsbD i = (traced.state.cpu cpu).cr4.getLsbD i) ∧
      ∀ cpu, traced.state.point (traced.state.current cpu) = .user →
        turnedOn (traced.own (traced.state.current cpu)) = false →
        ∀ (base : Gem5.PageFaults) (regs : Gem5.ControlState) access lookup addr code,
          regs.ufault = (traced.state.cpu cpu).cr4.getLsbD 26 →
          Gem5.translate base regs access lookup ≠ some (.userFault addr code) := by
  intro traced hrun
  have hinv := Cr4Invariant.of_run hboot hrun
  refine ⟨hinv.bit, fun action next hstep cpu i hi => ?_, ?_⟩
  · cases action with
    | kernel label => exact (hinv.cr4Set (tracedStep_kernel.1 hstep).1 cpu).frame i hi
    | testuf _ =>
        obtain ⟨-, rfl⟩ := tracedStep_testuf.1 hstep
        rfl
  · intro cpu huser hoff base regs access lookup addr code hufault hfault
    have hrec := recorded_of_run hboot.toBooted hrun (traced.state.current cpu)
    have henabled : (traced.state.running cpu).tifUfault = true := by
      rw [← hinv.bit, ← hufault]
      exact Gem5.ufault_of_translate hfault
    rcases hrec.flag henabled with hon | hdisable
    · simp [hoff] at hon
    · simp [huser] at hdisable

end

theorem coldBoot_cr4Booted : Cr4Booted coldBoot where
  toBooted := coldBoot_booted
  sync := fun _ => rfl
  clear := fun _ => by simp [coldBoot]

/-- Task `1` turns user faults on, forks task `2` and is switched out for it. -/
def enableAndFork : List (Action Nat Unit) :=
  [.kernel (.fork () 1), .kernel (.contextSwitch () 1), .kernel (.prctl () 1 4096 0 0),
    .kernel (.statement ()), .kernel (.statement ()), .kernel (.statement ()),
    .kernel (.statement ()), .kernel (.stuf ()), .kernel (.fork () 2),
    .kernel (.contextSwitch () 2)]

theorem cr4_ufault_eq_tifUfault_enableAndFork :
    (run (tracedStep true) (.start coldBoot) enableAndFork).isSome ∧
      ∀ traced ∈ run (tracedStep true) (.start coldBoot) enableAndFork, ∀ cpu,
        (traced.state.cpu cpu).cr4.getLsbD 26 = (traced.state.running cpu).tifUfault :=
  ⟨by decide, fun traced hrun =>
    (cr4_ufault_eq_tifUfault true coldBoot_cr4Booted traced hrun).1⟩

end UserPaging.Linux
