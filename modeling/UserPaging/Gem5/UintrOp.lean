import UserPaging.Gem5.MicroOp

/-!
# Micro-ops of the user-interrupt instructions

The instructions for user interrupts use operands of several sizes, the
architectural flags as conditions, further control registers and, for the APIC,
physical addresses.  Their micro-ops extend those of the user-fault instructions,
and a program of the latter runs as it did.

The accesses of `SENDUIPI` have supervisor rights and their pages are mapped; a
processor keeps a list of the addresses that they read.
-/

namespace UserPaging.Gem5

open UserPaging.Foundation

inductive UintrReg where
  | uif
  | uintrMisc
  | uintrTT
  | apicBase
  deriving DecidableEq, Repr

structure Ipi where
  vector : BitVec 8
  apicId : BitVec 8
  deriving DecidableEq, Repr

structure UintrCpu extends Cpu where
  uif : BitVec 64
  uintrMisc : BitVec 64
  uintrTT : BitVec 64
  apicBase : BitVec 64
  icrLow : BitVec 32
  icrHigh : BitVec 32
  reads : List (BitVec 64)
  sent : List Ipi

inductive Size where
  | byte
  | word
  | dword
  | qword
  deriving DecidableEq, Repr

namespace Size

def bits : Size → Nat
  | byte => 8
  | word => 16
  | dword => 32
  | qword => 64

def pick (size : Size) (value : BitVec 64) : BitVec 64 := (value.setWidth size.bits).setWidth 64

/-- A short result replaces the low part of the register, one of four bytes all of it. -/
def merge (size : Size) (into value : BitVec 64) : BitVec 64 :=
  match size with
  | byte => into &&& ~~~0xFF ||| value &&& 0xFF
  | word => into &&& ~~~0xFFFF ||| value &&& 0xFFFF
  | dword => size.pick value
  | qword => value

end Size

/-! ## Flags -/

def zfBit : Nat := 6

def sfBit : Nat := 7

def ofBit : Nat := 11

def setFlag (rflags : BitVec 64) (bit : Nat) (value : Bool) : BitVec 64 :=
  rflags &&& ~~~(1#64 <<< bit) ||| (if value then 1#64 else 0#64) <<< bit

inductive Cond where
  | zf
  | nzf
  | nSxOvZF
  deriving DecidableEq, Repr

def Cond.holds (rflags : BitVec 64) : Cond → Bool
  | .zf => rflags.getLsbD zfBit
  | .nzf => !rflags.getLsbD zfBit
  | .nSxOvZF => !((rflags.getLsbD sfBit ^^ rflags.getLsbD ofBit) || rflags.getLsbD zfBit)

def subFlags (rflags x y : BitVec 64) : BitVec 64 :=
  let overflow := (x.msb != y.msb) && (x - y).msb != x.msb
  setFlag (setFlag (setFlag rflags ofBit overflow) sfBit (x - y).msb) zfBit (x - y == 0)

theorem getLsbD_setFlag (rflags : BitVec 64) {bit : Nat} (hbit : bit < 64) (value : Bool)
    (other : Nat) :
    (setFlag rflags bit value).getLsbD other =
      if other = bit then value else rflags.getLsbD other := by
  by_cases heq : other = bit
  · subst heq
    cases value <;> simp [setFlag, hbit]
  · by_cases hother : other < 64
    · rcases Nat.lt_or_gt_of_ne heq with hlt | hgt
      · cases value <;> simp [setFlag, heq, hlt, hother]
      · have hsub : other - bit ≠ 0 := by omega
        cases value <;> simp [setFlag, heq, hother, hsub, Nat.not_lt.2 hgt.le]
    · rw [if_neg heq, BitVec.getLsbD_of_ge _ _ (Nat.le_of_not_lt hother),
        BitVec.getLsbD_of_ge _ _ (Nat.le_of_not_lt hother)]

/-! ## Micro-ops -/

inductive UintrOp where
  | micro (op : MicroOp)
  | rdval (dest : Reg) (reg : UintrReg) (size : Size)
  | wrval (reg : UintrReg) (src : Reg)
  /-- `sub` with `flags=(OF, SF, ZF,)` -/
  | sub (dest src src' : Reg)
  | add (dest src src' : Reg)
  /-- `andi`, with `flags=(ZF,)` or without -/
  | andi (dest src : Reg) (imm : BitVec 64) (size : Size) (zf : Bool)
  | ori (dest src : Reg) (imm : BitVec 64) (size : Size)
  | or (dest src src' : Reg) (size : Size)
  | slli (dest src : Reg) (amount : Nat) (size : Size)
  | srli (dest src : Reg) (amount : Nat) (size : Size)
  | sll (dest src src' : Reg)
  | ld (dest base : Reg) (disp : BitVec 64)
  | st (src base : Reg) (disp : BitVec 64)
  | ldPhysical (dest base : Reg) (disp : BitVec 64)
  | stPhysical (src base : Reg) (disp : BitVec 64)
  | br (target : Nat) (cond : Cond)
  | faultGp (cond : Cond)
  | eret (cond : Cond)
  | panic (cond : Cond)
  deriving DecidableEq, Repr

namespace UintrCpu

def withCpu (s : UintrCpu) (cpu : Cpu) : UintrCpu := { s with toCpu := cpu }

def write (s : UintrCpu) (dest : Reg) (value : BitVec 64) : UintrCpu :=
  s.withCpu (s.toCpu.write dest value)

def put (s : UintrCpu) (size : Size) (dest : Reg) (value : BitVec 64) : UintrCpu :=
  s.write dest (size.merge (s.read dest) value)

def setRflags (s : UintrCpu) (rflags : BitVec 64) : UintrCpu :=
  s.withCpu { s.toCpu with rflags := rflags }

def readUintr (s : UintrCpu) : UintrReg → BitVec 64
  | .uif => s.uif
  | .uintrMisc => s.uintrMisc
  | .uintrTT => s.uintrTT
  | .apicBase => s.apicBase

def writeUintr (s : UintrCpu) (reg : UintrReg) (value : BitVec 64) : UintrCpu :=
  match reg with
  | .uif => { s with uif := value }
  | .uintrMisc => { s with uintrMisc := value }
  | .uintrTT => { s with uintrTT := value }
  | .apicBase => { s with apicBase := value }

def apicPage (s : UintrCpu) : BitVec 64 := s.apicBase &&& 0xFFFFFF000

def storePhysical (s : UintrCpu) (addr value : BitVec 64) : UintrCpu :=
  if addr = s.apicPage + 0x310 then { s with icrHigh := value.setWidth 32 }
  else if addr = s.apicPage + 0x300 then
    { s with
      icrLow := value.setWidth 32
      sent := s.sent ++ [⟨value.setWidth 8, s.icrHigh.extractLsb' 24 8⟩] }
  else s

def loadPhysical (s : UintrCpu) (addr : BitVec 64) : BitVec 64 :=
  if addr = s.apicPage + 0x310 then s.icrHigh.setWidth 64
  else if addr = s.apicPage + 0x300 then s.icrLow.setWidth 64
  else 0

end UintrCpu

namespace UintrOp

variable {Fault : Type*}

def access (translate : Cpu → Mode → BitVec 64 → Option Fault) (s : UintrCpu) :
    UintrOp → Option Fault
  | .micro op => (op.request s.toCpu).bind fun (mode, addr) => translate s.toCpu mode addr
  | _ => none

def exec (s : UintrCpu) : UintrOp → UintrCpu
  | .micro op => s.withCpu (op.exec s.toCpu)
  | .rdval dest reg size => s.put size dest (s.readUintr reg)
  | .wrval reg src => s.writeUintr reg (s.read src)
  | .sub dest src src' =>
      (s.write dest (s.read src - s.read src')).setRflags
        (subFlags s.rflags (s.read src) (s.read src'))
  | .add dest src src' => s.write dest (s.read src + s.read src')
  | .andi dest src imm size zf =>
      let value := size.pick (s.read src) &&& size.pick imm
      if zf then (s.put size dest value).setRflags (setFlag s.rflags zfBit (value == 0))
      else s.put size dest value
  | .ori dest src imm size => s.put size dest (size.pick (s.read src) ||| size.pick imm)
  | .or dest src src' size =>
      s.put size dest (size.pick (s.read src) ||| size.pick (s.read src'))
  | .slli dest src amount size => s.put size dest (size.pick (s.read src) <<< amount)
  | .srli dest src amount size => s.put size dest (size.pick (s.read src) >>> amount)
  | .sll dest src src' => s.write dest (s.read src <<< ((s.read src').toNat % 64))
  | .ld dest base disp =>
      { s.write dest (s.mem.load64 (s.read base + disp)) with
        reads := s.reads ++ [s.read base + disp] }
  | .st src base disp =>
      s.withCpu { s.toCpu with mem := s.mem.store64 (s.read base + disp) (s.read src) }
  | .ldPhysical dest base disp => s.write dest (s.loadPhysical (s.read base + disp))
  | .stPhysical src base disp => s.storePhysical (s.read base + disp) (s.read src)
  | .br .. | .faultGp _ | .eret _ | .panic _ => s

/-- `none` is a panic. -/
def control (s : UintrCpu) : UintrOp → Option MicroOp.Control
  | .micro op => some (op.control s.toCpu)
  | .br target cond => some (if cond.holds s.rflags then .jump target else .next)
  | .faultGp cond => some (if cond.holds s.rflags then .generalProtection else .next)
  | .eret cond => some (if cond.holds s.rflags then .leave else .next)
  | .panic cond => if cond.holds s.rflags then none else some .next
  | _ => some .next

theorem exec_andi_rflags (s : UintrCpu) (dest src : Reg) (imm : BitVec 64) (size : Size) :
    ((andi dest src imm size true).exec s).rflags =
      setFlag s.rflags zfBit (size.pick (s.read src) &&& size.pick imm == 0) := rfl

theorem exec_andi_reads (s : UintrCpu) (dest src : Reg) (imm : BitVec 64) (size : Size) :
    ((andi dest src imm size true).exec s).reads = s.reads := rfl

theorem exec_andi_temp (s : UintrCpu) (src : Reg) (imm : BitVec 64) (size : Size) :
    ((andi .t0 src imm size true).exec s).temp 2 = s.temp 2 := rfl

theorem exec_faultGp (s : UintrCpu) (cond : Cond) : (faultGp cond).exec s = s := rfl

end UintrOp

/-! ## Programs -/

inductive UintrStep (Fault : Type*) where
  | running (upc : Nat) (s : UintrCpu)
  | completed (s : UintrCpu)
  | faulted (fault : Fault) (s : UintrCpu)
  | generalProtection (s : UintrCpu)
  | panicked (s : UintrCpu)

variable {Fault : Type*} (translate : Cpu → Mode → BitVec 64 → Option Fault)

def uintrStep (program : List UintrOp) (upc : Nat) (s : UintrCpu) : UintrStep Fault :=
  match program[upc]? with
  | none => .completed s
  | some op =>
      match op.access translate s with
      | some fault => .faulted fault s
      | none =>
          match op.control s with
          | some .next => .running (upc + 1) (op.exec s)
          | some (.jump target) => .running target (op.exec s)
          | some .leave => .completed (op.exec s)
          | some .generalProtection => .generalProtection s
          | none => .panicked s

def runUintr (program : List UintrOp) : Nat → Nat → UintrCpu → UintrStep Fault
  | 0, upc, s => .running upc s
  | fuel + 1, upc, s =>
      match uintrStep translate program upc s with
      | .running upc s => runUintr program fuel upc s
      | result => result

def execUintr (program : List UintrOp) (s : UintrCpu) : UintrStep Fault :=
  runUintr translate program (program.length + 1) 0 s

def mapped (_ : Cpu) (_ : Mode) (_ : BitVec 64) : Option Empty := none

def MicroStep.lift (s : UintrCpu) : MicroStep Fault → UintrStep Fault
  | .running upc c => .running upc (s.withCpu c)
  | .completed c => .completed (s.withCpu c)
  | .faulted fault c => .faulted fault (s.withCpu c)
  | .generalProtection c => .generalProtection (s.withCpu c)

variable {translate}

private theorem uintrStep_micro (program : List MicroOp) (upc : Nat) (s : UintrCpu) :
    uintrStep translate (program.map .micro) upc s =
      (microStep translate program upc s.toCpu).lift s := by
  unfold uintrStep microStep
  rw [List.getElem?_map]
  cases program[upc]? with
  | none => rfl
  | some op =>
      simp only [Option.map_some, UintrOp.access, UintrOp.control]
      cases (op.request s.toCpu).bind fun (mode, addr) => translate s.toCpu mode addr with
      | some fault => rfl
      | none => cases op.control s.toCpu <;> rfl

private theorem runUintr_micro (program : List MicroOp) (fuel upc : Nat) (s : UintrCpu) :
    runUintr translate (program.map .micro) fuel upc s =
      (runMicro translate program fuel upc s.toCpu).lift s := by
  induction fuel generalizing upc s with
  | zero => rfl
  | succ fuel ih =>
      rw [runUintr, runMicro, uintrStep_micro]
      cases microStep translate program upc s.toCpu with
      | running upc' c => exact ih upc' (s.withCpu c)
      | completed | faulted | generalProtection => rfl

theorem execUintr_micro (program : List MicroOp) (s : UintrCpu) :
    execUintr translate (program.map .micro) s = (execMicro translate program s.toCpu).lift s := by
  rw [execUintr, execMicro, List.length_map]
  exact runUintr_micro program _ 0 s

/-! ## Single steps -/

theorem runUintr_next {program : List UintrOp} {op : UintrOp} {upc : Nat} {s : UintrCpu}
    (hop : program[upc]? = some op) (haccess : op.access translate s = none)
    (hcontrol : op.control s = some .next) (fuel : Nat) :
    runUintr translate program (fuel + 1) upc s =
      runUintr translate program fuel (upc + 1) (op.exec s) := by
  rw [runUintr, uintrStep, hop]
  simp only [haccess, hcontrol]

theorem runUintr_jump {program : List UintrOp} {op : UintrOp} {upc target : Nat} {s : UintrCpu}
    (hop : program[upc]? = some op) (haccess : op.access translate s = none)
    (hcontrol : op.control s = some (.jump target)) (fuel : Nat) :
    runUintr translate program (fuel + 1) upc s =
      runUintr translate program fuel target (op.exec s) := by
  rw [runUintr, uintrStep, hop]
  simp only [haccess, hcontrol]

theorem runUintr_refuses {program : List UintrOp} {op : UintrOp} {upc : Nat} {s : UintrCpu}
    (hop : program[upc]? = some op) (haccess : op.access translate s = none)
    (hcontrol : op.control s = some .generalProtection) (fuel : Nat) :
    runUintr translate program (fuel + 1) upc s = .generalProtection s := by
  rw [runUintr, uintrStep, hop]
  simp only [haccess, hcontrol]

theorem runUintr_behind {program : List UintrOp} {upc : Nat} {s : UintrCpu}
    (hop : program[upc]? = none) (fuel : Nat) :
    runUintr translate program (fuel + 1) upc s = .completed s := by
  rw [runUintr, uintrStep, hop]

/-! ## Straight-line parts -/

variable (translate) in
def UintrPasses : List UintrOp → UintrCpu → Prop
  | [], _ => True
  | op :: ops, s =>
      op.access translate s = none ∧ op.control s = some .next ∧ UintrPasses ops (op.exec s)

def execUintrAll (ops : List UintrOp) (s : UintrCpu) : UintrCpu := ops.foldl UintrOp.exec s

theorem runUintr_passes {program before ops after : List UintrOp} {s : UintrCpu}
    (hprogram : program = before ++ ops ++ after) (hpasses : UintrPasses translate ops s)
    (fuel : Nat) :
    runUintr translate program (fuel + ops.length) before.length s =
      runUintr translate program fuel (before.length + ops.length) (execUintrAll ops s) := by
  induction ops generalizing before s with
  | nil => rfl
  | cons op ops ih =>
      obtain ⟨haccess, hcontrol, hrest⟩ := hpasses
      have hop : program[before.length]? = some op := by simp [hprogram]
      have hprogram' : program = (before ++ [op]) ++ ops ++ after := by simp [hprogram]
      have hrun := ih hprogram' hrest
      rw [List.length_append, List.length_singleton] at hrun
      rw [List.length_cons, ← Nat.add_assoc, runUintr_next hop haccess hcontrol, hrun,
        Nat.add_assoc, Nat.add_comm 1]
      rfl

theorem uintrPasses_micro {ops : List MicroOp} {s : UintrCpu}
    (hpasses : Passes translate ops s.toCpu) : UintrPasses translate (ops.map .micro) s := by
  induction ops generalizing s with
  | nil => trivial
  | cons op ops ih =>
      obtain ⟨hrequest, hcontrol, hrest⟩ := hpasses
      exact ⟨hrequest, congrArg some hcontrol, ih (s := s.withCpu (op.exec s.toCpu)) hrest⟩

theorem execUintrAll_micro (ops : List MicroOp) (s : UintrCpu) :
    execUintrAll (ops.map .micro) s = s.withCpu (execAll ops s.toCpu) := by
  induction ops generalizing s with
  | nil => rfl
  | cons op ops ih => exact ih (s.withCpu (op.exec s.toCpu))

end UserPaging.Gem5
