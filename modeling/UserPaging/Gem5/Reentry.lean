import Mathlib.Tactic.IntervalCases
import UserPaging.Foundation.Run
import UserPaging.Gem5.Delivery
import UserPaging.Gem5.Task

/-!
# Handlers are not entered again

UFF is clear from the fourth micro-op of a delivery to the last one of its `UFRET`,
provided that the handler does not set it.  All accesses in between that fault, the
stores of the ROM among them, are therefore left to the kernel.
-/

namespace UserPaging.Gem5

open UserPaging.Foundation

/-! ## Where UFF changes -/

private theorem uff_userFaultRom {upc : Nat} {op : MicroOp} (hop : userFaultRom[upc]? = some op)
    (s : Cpu) : (op.exec s).uff = if upc = 3 then 0 else s.uff := by
  obtain ⟨hlt, rfl⟩ := List.getElem?_eq_some_iff.1 hop
  change upc < 17 at hlt
  interval_cases upc <;> rfl

private theorem uff_macroopUfret {upc : Nat} {op : MicroOp} (hop : macroopUfret[upc]? = some op)
    (hlast : upc ≠ 18) (s : Cpu) : (op.exec s).uff = s.uff := by
  obtain ⟨hlt, rfl⟩ := List.getElem?_eq_some_iff.1 hop
  change upc < 19 at hlt
  interval_cases upc <;> first | rfl | exact absurd rfl hlast

private theorem uff_macroopCluf {upc : Nat} {op : MicroOp} (hop : macroopCluf[upc]? = some op)
    (s : Cpu) : (op.exec s).uff = 0 := by
  obtain ⟨hlt, rfl⟩ := List.getElem?_eq_some_iff.1 hop
  change upc < 1 at hlt
  interval_cases upc
  rfl

private theorem userFaultRom_request {upc : Nat} {op : MicroOp} (hop : userFaultRom[upc]? = some op)
    {s : Cpu} {request : Mode × BitVec 64} (hrequest : op.request s = some request) :
    3 < upc := by
  by_contra hle
  obtain ⟨hlt, rfl⟩ := List.getElem?_eq_some_iff.1 hop
  interval_cases upc <;> cases hrequest

private theorem userFaultRom_ne_br {upc target : Nat} : userFaultRom[upc]? ≠ some (.br target) := by
  intro hop
  obtain ⟨hlt, hbr⟩ := List.getElem?_eq_some_iff.1 hop
  change upc < 17 at hlt
  interval_cases upc <;> cases hbr

private theorem userFaultRom_end {upc : Nat}
    (hend : userFaultRom[upc]? = none ∨ userFaultRom[upc]? = some .eret) : 3 < upc := by
  by_contra hle
  interval_cases upc <;> simp [userFaultRom] at hend

namespace Task

variable {base : PageFaults} {task next : Task} {label : Label}

/-- `UFRET` is executed in a handler only, and `STUF` outside of one. -/
def Disciplined (task : Task) : Label → Prop
  | .start .ufret => task.handling
  | .start .stuf => ¬ task.handling
  | _ => True

instance (task : Task) (label : Label) : Decidable (task.Disciplined label) :=
  match label with
  | .start .ufret => inferInstanceAs (Decidable (task.ufrets < task.deliveries))
  | .start .stuf => inferInstanceAs (Decidable (¬ task.ufrets < task.deliveries))
  | .start .userFault | .start .cluf => isTrue trivial
  | .access _ _ | .instruction _ | .microOp _ | .interrupt | .resume _ => isTrue trivial

def InPhase (task : Task) : Phase → Prop
  | .micro .userFault upc => ¬ task.handling ∧ (3 < upc → task.cpu.uff = 0)
  | .micro .ufret _ => task.handling
  | .micro .stuf _ => ¬ task.handling
  | _ => True

structure Sound (task : Task) : Prop where
  count : task.deliveries = task.ufrets ∨ task.deliveries = task.ufrets + 1
  handling : task.handling → task.cpu.uff = 0
  phase : task.InPhase task.phase

theorem Sound.start (cpu : Cpu) : (start cpu).Sound where
  count := .inl rfl
  handling := fun hhandling => absurd hhandling (lt_irrefl 0)
  phase := trivial

private theorem exists_pageFault {env : Environment} {s : Cpu} {access : Access} {fault : Fault}
    (huff : s.uff = 0) (hfault : env.translate base s access = some fault) :
    ∃ addr code, fault = .pageFault addr code := by
  cases fault with
  | pageFault addr code => exact ⟨addr, code, rfl⟩
  | userFault addr code => exact absurd huff (uff_ne_zero_of_translate hfault)

theorem Sound.raise (hsound : task.Sound) {env : Environment} {access : Access} {fault : Fault}
    (hfault : env.translate base task.cpu access = some fault) :
    (task.raise task.cpu fault).Sound := by
  by_cases hhandling : task.handling
  · obtain ⟨addr, code, rfl⟩ := exists_pageFault (hsound.handling hhandling) hfault
    exact { hsound with phase := trivial }
  · cases fault with
    | pageFault addr code => exact { hsound with phase := trivial }
    | userFault addr code =>
        exact {
          count := hsound.count
          handling := fun hhandling' => absurd hhandling' hhandling
          phase := ⟨hhandling, fun hupc => absurd hupc (by decide)⟩ }

/-! ## The micro-programs keep count -/

theorem Sound.kernel (hsound : task.Sound) : { task with phase := .kernel }.Sound :=
  { hsound with phase := trivial }

theorem Sound.idle (hsound : task.Sound) (hidle : ¬ task.handling) :
    task.deliveries = task.ufrets := by
  have hle : task.deliveries ≤ task.ufrets := not_lt.1 hidle
  rcases hsound.count with heq | hsucc <;> omega

theorem Sound.busy (hsound : task.Sound) (hbusy : task.handling) :
    task.deliveries = task.ufrets + 1 := by
  have hlt : task.ufrets < task.deliveries := hbusy
  rcases hsound.count with heq | hsucc <;> omega

theorem Sound.delivered (hsound : task.Sound) (hidle : ¬ task.handling) {s : Cpu}
    (huff : s.uff = 0) : (task.complete .userFault s).Sound where
  count := .inr (congrArg (· + 1) (hsound.idle hidle))
  handling := fun _ => huff
  phase := trivial

theorem Sound.returned (hsound : task.Sound) (hbusy : task.handling) (s : Cpu) :
    (task.complete .ufret s).Sound where
  count := .inl (hsound.busy hbusy)
  handling := fun hhandling => absurd (hsound.busy hbusy) (ne_of_gt hhandling)
  phase := trivial

section

variable {env : Environment} {upc : Nat} {result : MicroStep Fault}

private theorem Sound.advance_userFault (hsound : task.Sound) (hidle : ¬ task.handling)
    (huff : 3 < upc → task.cpu.uff = 0)
    (hsteps : StepsTo (env.request base) userFaultRom upc task.cpu result) :
    (task.advance .userFault result).Sound := by
  cases hsteps with
  | behind hop => exact hsound.delivered hidle (huff (userFaultRom_end (.inl hop)))
  | leaves hop => exact hsound.delivered hidle (huff (userFaultRom_end (.inr hop)))
  | faults hop hrequest hfault => exact hsound.raise hfault
  | jumps hop => exact absurd hop userFaultRom_ne_br
  | refuses => exact hsound.kernel
  | @next op hop =>
      have hcleared : 3 < upc + 1 → (op.exec task.cpu).uff = 0 := by
        intro hupc
        rw [uff_userFaultRom hop]
        split
        · rfl
        · exact huff (by omega)
      rw [advance]
      split
      · exact ⟨hsound.count, fun hbusy => absurd hbusy hidle, hidle, hcleared⟩
      · rename_i hend
        exact hsound.delivered hidle (hcleared (by change ¬ upc + 1 < 17 at hend; omega))

private theorem Sound.advance_ufret (hsound : task.Sound) (hbusy : task.handling)
    (hsteps : StepsTo (env.request base) macroopUfret upc task.cpu result) :
    (task.advance .ufret result).Sound := by
  cases hsteps with
  | behind hop => exact hsound.returned hbusy _
  | leaves hop => exact hsound.returned hbusy _
  | faults hop hrequest hfault => exact hsound.raise hfault
  | refuses => exact hsound.kernel
  | jumps hop =>
      rw [advance]
      split
      · exact ⟨hsound.count, hsound.handling, hbusy⟩
      · exact hsound.returned hbusy _
  | next hop =>
      rw [advance]
      split
      · rename_i hmore
        change upc + 1 < 19 at hmore
        refine ⟨hsound.count, fun hbusy => ?_, hbusy⟩
        exact (uff_macroopUfret hop (by omega) _).trans (hsound.handling hbusy)
      · exact hsound.returned hbusy _

private theorem Sound.advance_cluf (hsound : task.Sound)
    (hsteps : StepsTo (env.request base) macroopCluf upc task.cpu result) :
    (task.advance .cluf result).Sound := by
  cases hsteps with
  | behind hop => exact { hsound with phase := trivial }
  | leaves hop => exact { hsound with phase := trivial }
  | faults hop hrequest hfault => exact hsound.raise hfault
  | refuses => exact hsound.kernel
  | jumps hop =>
      rw [advance]
      split <;> exact { hsound with phase := trivial }
  | next hop =>
      have huff := uff_macroopCluf hop task.cpu
      rw [advance]
      split <;> exact ⟨hsound.count, fun _ => huff, trivial⟩

private theorem Sound.advance_stuf (hsound : task.Sound) (hidle : ¬ task.handling)
    (hsteps : StepsTo (env.request base) macroopStuf upc task.cpu result) :
    (task.advance .stuf result).Sound := by
  cases hsteps with
  | behind hop => exact { hsound with phase := trivial }
  | leaves hop => exact { hsound with phase := trivial }
  | faults hop hrequest hfault => exact hsound.raise hfault
  | refuses => exact hsound.kernel
  | jumps hop =>
      rw [advance]
      split
      · exact ⟨hsound.count, fun hbusy => absurd hbusy hidle, hidle⟩
      · exact { hsound with phase := trivial }
  | next hop =>
      rw [advance]
      split
      · exact ⟨hsound.count, fun hbusy => absurd hbusy hidle, hidle⟩
      · exact ⟨hsound.count, fun hbusy => absurd hbusy hidle, trivial⟩

end

theorem Sound.microOp (hsound : task.Sound) {env : Environment} {program : MicroProgram}
    {upc : Nat} {result : MicroStep Fault} (hphase : task.phase = .micro program upc)
    (hsteps : StepsTo (env.request base) program.code upc task.cpu result) :
    (task.advance program result).Sound := by
  have hin := hsound.phase
  rw [hphase] at hin
  cases program with
  | userFault => exact hsound.advance_userFault hin.1 hin.2 hsteps
  | ufret => exact hsound.advance_ufret hin hsteps
  | cluf => exact hsound.advance_cluf hsteps
  | stuf => exact hsound.advance_stuf hin hsteps

/-! ## Steps of the task -/

theorem Sound.step (hsound : task.Sound) (hdisciplined : task.Disciplined label)
    (hstep : task.step base label = some next) : next.Sound := by
  cases moves_of_step hstep with
  | faults hphase hfault => exact hsound.raise hfault
  | passes hphase hpasses => exact hsound
  | instruction hphase =>
      refine ⟨hsound.count, hsound.handling, ?_⟩
      rw [hphase]
      trivial
  | @start program hphase hprogram =>
      refine ⟨hsound.count, hsound.handling, ?_⟩
      cases program with
      | userFault => exact absurd rfl hprogram
      | ufret => exact hdisciplined
      | cluf => trivial
      | stuf => exact hdisciplined
  | microOp hphase hresult hsteps => exact hsound.microOp hphase hsteps
  | interrupt hphase => exact hsound.kernel
  | resume hphase => exact ⟨hsound.count, hsound.handling, trivial⟩

theorem Sound.run {cpu : Cpu} {labels : List Label}
    (hdisciplined : StepsMeet (Task.step base) Disciplined (Task.start cpu) labels)
    (hrun : run (Task.step base) (Task.start cpu) labels = some task) : task.Sound :=
  run_invariant_of_meets (fun _ _ _ => Sound.step) (Sound.start cpu) hdisciplined hrun

def entered (task : Task) : Prop :=
  task.handling ∨ ∃ upc, task.phase = .micro .userFault upc

private theorem Sound.uff_of_request (hsound : task.Sound) (hentered : task.entered)
    {program : MicroProgram} {upc : Nat} {op : MicroOp} {request : Mode × BitVec 64}
    (hphase : task.phase = .micro program upc) (hop : program.code[upc]? = some op)
    (hrequest : op.request task.cpu = some request) : task.cpu.uff = 0 := by
  rcases hentered with hhandling | ⟨upc', hdelivering⟩
  · exact hsound.handling hhandling
  · have hin := hsound.phase
    rw [hphase] at hdelivering hin
    cases hdelivering
    exact hin.2 (userFaultRom_request hop hrequest)

theorem Sound.pageFault (hsound : task.Sound) (hentered : task.entered) {fault : Fault}
    (hfault : task.fault base label = some fault) (hstep : task.step base label = some next) :
    (∃ addr code, fault = .pageFault addr code) ∧ next.phase = .kernel := by
  cases moves_of_step hstep with
  | faults hphase htranslate =>
      have hhandling : task.handling := by
        rcases hentered with hhandling | ⟨upc, hdelivering⟩
        · exact hhandling
        · rw [hphase] at hdelivering
          cases hdelivering
      cases htranslate.symm.trans hfault
      obtain ⟨addr, code, rfl⟩ := exists_pageFault (hsound.handling hhandling) htranslate
      exact ⟨⟨addr, code, rfl⟩, rfl⟩
  | passes hphase hpasses => cases hpasses.symm.trans hfault
  | microOp hphase hresult hsteps =>
      simp only [Task.fault, hphase, hresult] at hfault
      cases hsteps with
      | faults hop hrequest htranslate =>
          cases hfault
          obtain ⟨addr, code, rfl⟩ :=
            exists_pageFault (hsound.uff_of_request hentered hphase hop hrequest) htranslate
          exact ⟨⟨addr, code, rfl⟩, rfl⟩
      | _ => cases hfault
  | _ => cases hfault

private theorem phase_complete (program : MicroProgram) (s : Cpu) :
    (task.complete program s).phase = .user := by
  cases program <;> rfl

private theorem deliveries_complete {program : MicroProgram} (hprogram : program ≠ .userFault)
    (s : Cpu) :
    (task.complete program s).deliveries = task.deliveries := by
  cases program with
  | userFault => exact absurd rfl hprogram
  | _ => rfl

def Outside (task next : Task) : Prop :=
  next.deliveries = task.deliveries ∧ ∀ upc, next.phase ≠ .micro .userFault upc

private theorem outside_advance {program : MicroProgram} (hprogram : program ≠ .userFault)
    {result : MicroStep Fault}
    (hresult : ∀ fault s, result = .faulted fault s → ∃ addr code, fault = .pageFault addr code) :
    task.Outside (task.advance program result) := by
  have hcomplete : ∀ s, task.Outside (task.complete program s) := fun s =>
    ⟨deliveries_complete hprogram s, fun upc => by simp [phase_complete]⟩
  cases result with
  | running upc s =>
      rw [advance]
      split
      · exact ⟨rfl, fun upc' => by simp [hprogram]⟩
      · exact hcomplete s
  | completed s => exact hcomplete s
  | faulted fault s =>
      obtain ⟨addr, code, rfl⟩ := hresult fault s rfl
      exact ⟨rfl, fun upc => by simp [advance, raise]⟩
  | generalProtection s => exact ⟨rfl, fun upc => by simp [advance]⟩

theorem Sound.outside (hsound : task.Sound) (hhandling : task.handling)
    (hstep : task.step base label = some next) : task.Outside next := by
  cases moves_of_step hstep with
  | faults hphase htranslate =>
      obtain ⟨addr, code, rfl⟩ := exists_pageFault (hsound.handling hhandling) htranslate
      exact ⟨rfl, fun upc => by simp [Task.raise]⟩
  | passes hphase hpasses => exact ⟨rfl, fun upc => by simp [hphase]⟩
  | instruction hphase => exact ⟨rfl, fun upc => by simp [hphase]⟩
  | start hphase hprogram => exact ⟨rfl, fun upc => by simp [hprogram]⟩
  | @microOp env program upc result hphase hresult hsteps =>
      have hprogram : program ≠ .userFault := by
        rintro rfl
        have hin := hsound.phase
        rw [hphase] at hin
        exact hin.1 hhandling
      refine outside_advance hprogram fun fault s hfault => ?_
      subst hfault
      cases hsteps with
      | faults hop hrequest htranslate =>
          exact exists_pageFault (hsound.handling hhandling) htranslate
  | interrupt hphase => exact ⟨rfl, fun upc => by simp⟩
  | resume hphase => exact ⟨rfl, fun upc => by simp⟩

/-- Every fault of an entered handler goes to the kernel, no delivery starts while it
runs, and at most one handler runs at a time. -/
theorem handler_not_reentered (base : PageFaults) (cpu : Cpu) (labels : List Label) (task : Task)
    (hdisciplined : StepsMeet (Task.step base) Disciplined (Task.start cpu) labels)
    (hrun : Foundation.run (Task.step base) (Task.start cpu) labels = some task) :
    (task.deliveries = task.ufrets ∨ task.deliveries = task.ufrets + 1) ∧
      (task.handling → ∀ label next, task.step base label = some next → task.Outside next) ∧
      (task.entered → ∀ label next fault, task.step base label = some next →
        task.fault base label = some fault →
          (∃ addr code, fault = .pageFault addr code) ∧ next.phase = .kernel) := by
  have hsound : task.Sound := Sound.run hdisciplined hrun
  refine ⟨hsound.count, fun hhandling label next hstep => hsound.outside hhandling hstep, ?_⟩
  intro hentered label next fault hstep hfault
  exact hsound.pageFault hentered hfault hstep

def stackMapped : List Label :=
  .access ⟨true, true, true, .miss [(.longPML4, ⟨false, false⟩)] ⟨true, true⟩⟩
      ⟨0x5000, .read, false, false⟩ ::
    List.replicate 17 (.microOp ⟨true, true, true, .hit ⟨true, true⟩⟩)

theorem handler_not_reentered_stackMapped :
    ∃ task, Foundation.run (Task.step documentedPageFaults) (Task.start interruptedCpu)
        stackMapped = some task ∧
      task.handling ∧ task.deliveries = task.ufrets + 1 ∧
      ∀ label next, task.step documentedPageFaults label = some next → task.Outside next := by
  have hdisciplined : StepsMeet (Task.step documentedPageFaults) Disciplined
      (Task.start interruptedCpu) stackMapped := by decide
  obtain ⟨task, hrun, hhandling⟩ : ∃ task, Foundation.run (Task.step documentedPageFaults)
      (Task.start interruptedCpu) stackMapped = some task ∧ task.ufrets < task.deliveries :=
    ⟨_, rfl, by decide⟩
  obtain ⟨hcount, houtside, -⟩ :=
    handler_not_reentered documentedPageFaults interruptedCpu stackMapped task hdisciplined hrun
  exact ⟨task, hrun, hhandling, hcount.resolve_left (ne_of_gt hhandling), houtside hhandling⟩

end Task

end UserPaging.Gem5
