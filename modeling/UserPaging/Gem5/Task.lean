import UserPaging.Gem5.Translate

/-!
# One task on one processor

The task runs instructions, micro-op by micro-op where UFF is concerned, and is
interrupted by the kernel at any time.  Page tables, the TLB and the control
registers may be different at each access.  The kernel may change every register
but UFF, which it writes when it switches to another task only.
-/

namespace UserPaging.Gem5

inductive MicroProgram where
  | userFault
  | ufret
  | cluf
  | stuf
  deriving DecidableEq, Repr

def MicroProgram.code : MicroProgram → List MicroOp
  | .userFault => userFaultRom
  | .ufret => macroopUfret
  | .cluf => macroopCluf
  | .stuf => macroopStuf

inductive Phase where
  | user
  | micro (program : MicroProgram) (upc : Nat)
  | kernel
  deriving DecidableEq, Repr

structure Environment where
  wp : Bool
  ufault : Bool
  enableNX : Bool
  lookup : Lookup

def Environment.translate (env : Environment) (base : PageFaults) (s : Cpu) (access : Access) :
    Option Fault :=
  Gem5.translate base ⟨3, env.wp, env.ufault, s.uff, env.enableNX⟩ access env.lookup

def Environment.request (env : Environment) (base : PageFaults) (s : Cpu) (mode : Mode)
    (addr : BitVec 64) : Option Fault :=
  env.translate base s ⟨addr, mode, false, false⟩

/-- A task, with the numbers of deliveries and of `UFRET`s that it completed. -/
structure Task where
  cpu : Cpu
  phase : Phase
  deliveries : Nat
  ufrets : Nat

inductive Label where
  | access (env : Environment) (access : Access)
  | instruction (after : Cpu)
  | start (program : MicroProgram)
  | microOp (env : Environment)
  | interrupt
  | resume (after : Cpu)

namespace Task

def start (cpu : Cpu) : Task := ⟨cpu, .user, 0, 0⟩

def handling (task : Task) : Prop := task.ufrets < task.deliveries

def raise (task : Task) (s : Cpu) : Fault → Task
  | .pageFault _ _ => { task with cpu := s, phase := .kernel }
  | .userFault addr code =>
      { task with cpu := userFaultInvoke s addr code, phase := .micro .userFault 0 }

def complete (task : Task) (program : MicroProgram) (s : Cpu) : Task :=
  match program with
  | .userFault => { task with cpu := s, phase := .user, deliveries := task.deliveries + 1 }
  | .ufret => { task with cpu := s, phase := .user, ufrets := task.ufrets + 1 }
  | .cluf | .stuf => { task with cpu := s, phase := .user }

def advance (task : Task) (program : MicroProgram) : MicroStep Fault → Task
  | .running upc s =>
      if upc < program.code.length then { task with cpu := s, phase := .micro program upc }
      else task.complete program s
  | .completed s => task.complete program s
  | .faulted fault s => task.raise s fault
  | .generalProtection s => { task with cpu := s, phase := .kernel }

variable (base : PageFaults)

def microStep (task : Task) (env : Environment) (program : MicroProgram) (upc : Nat) :
    MicroStep Fault :=
  Gem5.microStep (env.request base) program.code upc task.cpu

def step (task : Task) : Label → Option Task
  | .access env access =>
      if task.phase = .user then
        match env.translate base task.cpu access with
        | some fault => some (task.raise task.cpu fault)
        | none => some task
      else none
  | .instruction after =>
      if task.phase = .user then some { task with cpu := { after with uff := task.cpu.uff } }
      else none
  | .start program =>
      if task.phase = .user ∧ program ≠ .userFault then
        some { task with phase := .micro program 0 }
      else none
  | .microOp env =>
      match task.phase with
      | .micro program upc =>
          some (task.advance program (task.microStep base env program upc))
      | _ => none
  | .interrupt => if task.phase = .kernel then none else some { task with phase := .kernel }
  | .resume after =>
      if task.phase = .kernel then
        some { task with cpu := { after with uff := task.cpu.uff }, phase := .user }
      else none

def fault (task : Task) : Label → Option Fault
  | .access env access => env.translate base task.cpu access
  | .microOp env =>
      match task.phase with
      | .micro program upc =>
          match task.microStep base env program upc with
          | .faulted fault _ => some fault
          | _ => none
      | _ => none
  | _ => none

/-! ## What a step can do -/

inductive Moves (task : Task) : Label → Task → Prop where
  | faults {env : Environment} {access : Access} {fault : Fault} (hphase : task.phase = .user)
      (hfault : env.translate base task.cpu access = some fault) :
      Moves task (.access env access) (task.raise task.cpu fault)
  | passes {env : Environment} {access : Access} (hphase : task.phase = .user)
      (hpasses : env.translate base task.cpu access = none) : Moves task (.access env access) task
  | instruction {after : Cpu} (hphase : task.phase = .user) :
      Moves task (.instruction after) { task with cpu := { after with uff := task.cpu.uff } }
  | start {program : MicroProgram} (hphase : task.phase = .user)
      (hprogram : program ≠ .userFault) :
      Moves task (.start program) { task with phase := .micro program 0 }
  | microOp {env : Environment} {program : MicroProgram} {upc : Nat} {result : MicroStep Fault}
      (hphase : task.phase = .micro program upc)
      (hresult : task.microStep base env program upc = result)
      (hsteps : StepsTo (env.request base) program.code upc task.cpu result) :
      Moves task (.microOp env) (task.advance program result)
  | interrupt (hphase : task.phase ≠ .kernel) :
      Moves task .interrupt { task with phase := .kernel }
  | resume {after : Cpu} (hphase : task.phase = .kernel) :
      Moves task (.resume after)
        { task with cpu := { after with uff := task.cpu.uff }, phase := .user }

variable {base}

theorem moves_of_step {task next : Task} {label : Label}
    (hstep : task.step base label = some next) : task.Moves base label next := by
  cases label with
  | access env access =>
      simp only [step] at hstep
      split at hstep
      · rename_i hphase
        split at hstep
        · rename_i fault hfault
          cases hstep
          exact .faults hphase hfault
        · rename_i hpasses
          cases hstep
          exact .passes hphase hpasses
      · cases hstep
  | instruction after =>
      simp only [step, Option.ite_none_right_eq_some] at hstep
      obtain ⟨hphase, hnext⟩ := hstep
      cases hnext
      exact .instruction hphase
  | start program =>
      simp only [step, Option.ite_none_right_eq_some] at hstep
      obtain ⟨⟨hphase, hprogram⟩, hnext⟩ := hstep
      cases hnext
      exact .start hphase hprogram
  | microOp env =>
      simp only [step] at hstep
      split at hstep
      · rename_i program upc hphase
        cases hstep
        exact .microOp hphase rfl (microStep_stepsTo program.code upc task.cpu)
      · cases hstep
  | interrupt =>
      simp only [step, Option.ite_none_left_eq_some] at hstep
      obtain ⟨hphase, hnext⟩ := hstep
      cases hnext
      exact .interrupt hphase
  | resume after =>
      simp only [step, Option.ite_none_right_eq_some] at hstep
      obtain ⟨hphase, hnext⟩ := hstep
      cases hnext
      exact .resume hphase

end Task

end UserPaging.Gem5
