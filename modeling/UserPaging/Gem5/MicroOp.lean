import Mathlib.Logic.Function.Basic
import UserPaging.Foundation.Memory

/-!
# Micro-ops

The micro-ops used by the delivery of user faults and by the instructions that
change UFF, with the effects that gem5 documents for them.  They commit in program
order; a memory access is translated first, and a micro-op whose access faults has
no effect.
-/

namespace UserPaging.Gem5

open UserPaging.Foundation

inductive Gpr where
  | rax | rcx | rdx | rbx | rsp | rbp | rsi | rdi
  | r8 | r9 | r10 | r11 | r12 | r13 | r14 | r15
  deriving DecidableEq, Repr

/-- Operands of micro-ops; the micro register `t0` reads as zero. -/
inductive Reg where
  | gpr (reg : Gpr)
  | t (index : Fin 16)
  deriving DecidableEq, Repr

/-! The micro-registers by their names. -/

abbrev Reg.t0 : Reg := .t 0

abbrev Reg.t1 : Reg := .t 1

abbrev Reg.t2 : Reg := .t 2

abbrev Reg.t3 : Reg := .t 3

abbrev Reg.t4 : Reg := .t 4

abbrev Reg.t5 : Reg := .t 5

abbrev Reg.t6 : Reg := .t 6

abbrev Reg.t7 : Reg := .t 7

abbrev Reg.t8 : Reg := .t 8

abbrev Reg.t9 : Reg := .t 9

abbrev Reg.t10 : Reg := .t 10

abbrev Reg.t11 : Reg := .t 11

inductive CtrlReg where
  | uff
  | ufhandler
  deriving DecidableEq, Repr

inductive Mode where
  | read
  | write
  | execute
  deriving DecidableEq, Repr

structure Cpu where
  gpr : Gpr → BitVec 64
  temp : Fin 16 → BitVec 64
  ezf : Bool
  rip : BitVec 64
  rflags : BitVec 64
  uff : BitVec 64
  ufhandler : BitVec 64
  mem : Memory 64

namespace Cpu

def read (s : Cpu) : Reg → BitVec 64
  | .gpr reg => s.gpr reg
  | .t index => if index = 0 then 0 else s.temp index

def write (s : Cpu) (dest : Reg) (value : BitVec 64) : Cpu :=
  match dest with
  | .gpr reg => { s with gpr := Function.update s.gpr reg value }
  | .t index => { s with temp := Function.update s.temp index value }

def readCtrl (s : Cpu) : CtrlReg → BitVec 64
  | .uff => s.uff
  | .ufhandler => s.ufhandler

def writeCtrl (s : Cpu) (ctrl : CtrlReg) (value : BitVec 64) : Cpu :=
  match ctrl with
  | .uff => { s with uff := value }
  | .ufhandler => { s with ufhandler := value }

end Cpu

/-- `br` carries `CEZF` and `fault` carries `nCEZF`; `addi` and `srai` set the
emulation zero flag when they carry `EZF`. -/
inductive MicroOp where
  | mov (dest src : Reg)
  | limm (dest : Reg) (imm : BitVec 64)
  | and (dest src src' : Reg)
  | or (dest src src' : Reg)
  | addi (dest src : Reg) (imm : BitVec 64) (ezf : Bool)
  | subi (dest src : Reg) (imm : BitVec 64)
  | srai (dest src : Reg) (amount : Nat) (ezf : Bool)
  | ld (dest base : Reg) (disp : BitVec 64)
  | st (src base : Reg) (disp : BitVec 64)
  | rflags (dest : Reg)
  | wrflags (src : Reg)
  | rdval (dest : Reg) (ctrl : CtrlReg)
  | wrval (ctrl : CtrlReg) (src : Reg)
  | wrip (src : Reg)
  | br (target : Nat)
  | faultGp
  | eret
  deriving DecidableEq, Repr

namespace MicroOp

def request (s : Cpu) : MicroOp → Option (Mode × BitVec 64)
  | .ld _ base disp => some (.read, s.read base + disp)
  | .st _ base disp => some (.write, s.read base + disp)
  | _ => none

def setEzf (s : Cpu) (ezf : Bool) (value : BitVec 64) : Cpu :=
  if ezf then { s with ezf := value == 0 } else s

def exec (s : Cpu) : MicroOp → Cpu
  | .mov dest src => s.write dest (s.read src)
  | .limm dest imm => s.write dest imm
  | .and dest src src' => s.write dest (s.read src &&& s.read src')
  | .or dest src src' => s.write dest (s.read src ||| s.read src')
  | .addi dest src imm ezf => setEzf (s.write dest (s.read src + imm)) ezf (s.read src + imm)
  | .subi dest src imm => s.write dest (s.read src - imm)
  | .srai dest src amount ezf =>
      setEzf (s.write dest ((s.read src).sshiftRight amount)) ezf
        ((s.read src).sshiftRight amount)
  | .ld dest base disp => s.write dest (s.mem.load64 (s.read base + disp))
  | .st src base disp => { s with mem := s.mem.store64 (s.read base + disp) (s.read src) }
  | .rflags dest => s.write dest s.rflags
  | .wrflags src => { s with rflags := s.read src }
  | .rdval dest ctrl => s.write dest (s.readCtrl ctrl)
  | .wrval ctrl src => s.writeCtrl ctrl (s.read src)
  | .wrip src => { s with rip := s.read src }
  | .br _ | .faultGp | .eret => s

inductive Control where
  | next
  | jump (target : Nat)
  | leave
  | generalProtection
  deriving DecidableEq, Repr

def control (s : Cpu) : MicroOp → Control
  | .br target => if s.ezf then .jump target else .next
  | .faultGp => if s.ezf then .next else .generalProtection
  | .eret => .leave
  | _ => .next

end MicroOp

/-- How far a micro-program got: one step of it either goes on, ends it, or stops
at a micro-op without effect. -/
inductive MicroStep (Fault : Type*) where
  | running (upc : Nat) (s : Cpu)
  | completed (s : Cpu)
  | faulted (fault : Fault) (s : Cpu)
  | generalProtection (s : Cpu)

variable {Fault : Type*}

def microStep (translate : Cpu → Mode → BitVec 64 → Option Fault) (program : List MicroOp)
    (upc : Nat) (s : Cpu) : MicroStep Fault :=
  match program[upc]? with
  | none => .completed s
  | some op =>
      match (op.request s).bind fun (mode, addr) => translate s mode addr with
      | some fault => .faulted fault s
      | none =>
          match op.control s with
          | .next => .running (upc + 1) (op.exec s)
          | .jump target => .running target (op.exec s)
          | .leave => .completed (op.exec s)
          | .generalProtection => .generalProtection s

def runMicro (translate : Cpu → Mode → BitVec 64 → Option Fault) (program : List MicroOp) :
    Nat → Nat → Cpu → MicroStep Fault
  | 0, upc, s => .running upc s
  | fuel + 1, upc, s =>
      match microStep translate program upc s with
      | .running upc s => runMicro translate program fuel upc s
      | result => result

def execMicro (translate : Cpu → Mode → BitVec 64 → Option Fault) (program : List MicroOp)
    (s : Cpu) : MicroStep Fault :=
  runMicro translate program (program.length + 1) 0 s

def Passes (translate : Cpu → Mode → BitVec 64 → Option Fault) : List MicroOp → Cpu → Prop
  | [], _ => True
  | op :: ops, s =>
      (op.request s).bind (fun (mode, addr) => translate s mode addr) = none ∧
        op.control s = .next ∧ Passes translate ops (op.exec s)

def execAll (ops : List MicroOp) (s : Cpu) : Cpu := ops.foldl MicroOp.exec s

variable {translate : Cpu → Mode → BitVec 64 → Option Fault}

theorem passes_append {ops ops' : List MicroOp} {s : Cpu} :
    Passes translate (ops ++ ops') s ↔
      Passes translate ops s ∧ Passes translate ops' (execAll ops s) := by
  induction ops generalizing s with
  | nil => simp [Passes, execAll]
  | cons op ops ih =>
      simp only [List.cons_append, Passes, ih, execAll, List.foldl_cons, and_assoc]

theorem runMicro_passes {program before ops after : List MicroOp} {s : Cpu}
    (hprogram : program = before ++ ops ++ after) (hpasses : Passes translate ops s)
    (fuel : Nat) :
    runMicro translate program (fuel + ops.length) before.length s =
      runMicro translate program fuel (before.length + ops.length) (execAll ops s) := by
  induction ops generalizing before s with
  | nil => rfl
  | cons op ops ih =>
      obtain ⟨hrequest, hcontrol, hrest⟩ := hpasses
      have hop : program[before.length]? = some op := by simp [hprogram]
      have hstep : microStep translate program before.length s =
          .running (before.length + 1) (op.exec s) := by
        simp only [microStep, hop, hrequest, hcontrol]
      have hnext : program = (before ++ [op]) ++ ops ++ after := by simp [hprogram]
      have hrun := ih hnext hrest
      rw [List.length_append, List.length_singleton] at hrun
      rw [List.length_cons, ← Nat.add_assoc, runMicro, hstep]
      simp only [hrun]
      rw [Nat.add_assoc, Nat.add_comm 1]
      rfl

/-! ## What a step can do -/

section

variable {op : MicroOp} {s : Cpu}

private theorem MicroOp.eq_br_of_control {target : Nat} (hcontrol : op.control s = .jump target) :
    op = .br target := by
  cases op with
  | br target' =>
      simp only [control] at hcontrol
      split at hcontrol
      · cases hcontrol
        rfl
      · cases hcontrol
  | faultGp =>
      simp only [control] at hcontrol
      split at hcontrol <;> cases hcontrol
  | _ => cases hcontrol

private theorem MicroOp.eq_eret_of_control (hcontrol : op.control s = .leave) : op = .eret := by
  cases op with
  | eret => rfl
  | br target =>
      simp only [control] at hcontrol
      split at hcontrol <;> cases hcontrol
  | faultGp =>
      simp only [control] at hcontrol
      split at hcontrol <;> cases hcontrol
  | _ => cases hcontrol

inductive StepsTo (translate : Cpu → Mode → BitVec 64 → Option Fault) (program : List MicroOp)
    (upc : Nat) (s : Cpu) : MicroStep Fault → Prop where
  | behind (hop : program[upc]? = none) : StepsTo translate program upc s (.completed s)
  | faults {op : MicroOp} {mode : Mode} {addr : BitVec 64} {fault : Fault}
      (hop : program[upc]? = some op) (hrequest : op.request s = some (mode, addr))
      (hfault : translate s mode addr = some fault) :
      StepsTo translate program upc s (.faulted fault s)
  | next {op : MicroOp} (hop : program[upc]? = some op) :
      StepsTo translate program upc s (.running (upc + 1) (op.exec s))
  | jumps {target : Nat} (hop : program[upc]? = some (.br target)) :
      StepsTo translate program upc s (.running target s)
  | leaves (hop : program[upc]? = some .eret) : StepsTo translate program upc s (.completed s)
  | refuses : StepsTo translate program upc s (.generalProtection s)

theorem microStep_stepsTo (program : List MicroOp) (upc : Nat) (s : Cpu) :
    StepsTo translate program upc s (microStep translate program upc s) := by
  cases hop : program[upc]? with
  | none =>
      simp only [microStep, hop]
      exact .behind hop
  | some op =>
      cases haccess : (op.request s).bind fun (mode, addr) => translate s mode addr with
      | some fault =>
          obtain ⟨⟨mode, addr⟩, hrequest, hfault⟩ := Option.bind_eq_some_iff.1 haccess
          simp only [microStep, hop, haccess]
          exact .faults hop hrequest hfault
      | none =>
          simp only [microStep, hop, haccess]
          cases hcontrol : op.control s with
          | next => exact .next hop
          | jump target =>
              obtain rfl := MicroOp.eq_br_of_control hcontrol
              exact .jumps hop
          | leave =>
              obtain rfl := MicroOp.eq_eret_of_control hcontrol
              exact .leaves hop
          | generalProtection => exact .refuses

end

/-! ## The micro-programs -/

def tfBit : BitVec 64 := 1 <<< 8

def rfBit : BitVec 64 := 1 <<< 16

def userFaultRom : List MicroOp :=
  [.mov (.t 4) (.gpr .rsp),
    .limm (.t 5) (~~~0xF),
    .and (.gpr .rsp) (.gpr .rsp) (.t 5),
    .wrval .uff (.t 0),
    .rflags (.t 6),
    .st (.t 4) (.gpr .rsp) (-8),
    .st (.t 6) (.gpr .rsp) (-16),
    .st (.t 1) (.gpr .rsp) (-24),
    .st (.t 2) (.gpr .rsp) (-32),
    .st (.t 3) (.gpr .rsp) (-40),
    .subi (.gpr .rsp) (.gpr .rsp) 40,
    .limm (.t 7) (~~~(tfBit ||| rfBit)),
    .and (.t 8) (.t 6) (.t 7),
    .wrflags (.t 8),
    .rdval (.t 9) .ufhandler,
    .wrip (.t 9),
    .eret]

def pushSource : Nat → Reg
  | 0 => .t 4
  | 1 => .t 6
  | 2 => .t 1
  | 3 => .t 2
  | _ => .t 3

def userFaultInvoke (s : Cpu) (addr : BitVec 64) (code : BitVec 8) : Cpu :=
  ((s.write (.t 1) s.rip).write (.t 2) addr).write (.t 3) (code.setWidth 64)

def macroopUfret : List MicroOp :=
  [.ld (.t 1) (.gpr .rsp) 0,
    .ld (.t 2) (.gpr .rsp) 8,
    .ld (.t 3) (.gpr .rsp) 16,
    .addi (.gpr .rsp) (.gpr .rsp) 24 false,
    .srai (.t 4) (.t 1) 47 true,
    .br 8,
    .addi (.t 0) (.t 4) 1 true,
    .faultGp,
    .wrip (.t 1),
    .rflags (.t 5),
    .limm (.t 6) (~~~0x254DD5),
    .limm (.t 7) 0x254DD5,
    .and (.t 8) (.t 5) (.t 6),
    .and (.t 9) (.t 2) (.t 7),
    .or (.t 10) (.t 8) (.t 9),
    .wrflags (.t 10),
    .mov (.gpr .rsp) (.t 3),
    .limm (.t 11) 1,
    .wrval .uff (.t 11)]

def macroopCluf : List MicroOp := [.wrval .uff (.t 0)]

def macroopStuf : List MicroOp := [.limm (.t 1) 1, .wrval .uff (.t 1)]

end UserPaging.Gem5
