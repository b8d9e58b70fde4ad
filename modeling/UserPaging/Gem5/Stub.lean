import UserPaging.Gem5.MicroOp

/-!
# The entry stubs of user-fault handlers

The instructions of `asm_uswap_ufault_handler` and of `asm_ufault_handler`, which
differ in the function they call only.  That function is compiled C code: it is
known by what the calling convention promises.
-/

namespace UserPaging.Gem5

open UserPaging.Foundation

def ufretMask : BitVec 64 := 0x254DD5

def statusFlags : BitVec 64 := 0x8D5

def directionFlag : BitVec 64 := 0x400

def calleeSaved : List Gpr := [.rbx, .rbp, .r12, .r13, .r14, .r15]

def callerSaved : List Gpr := [.rax, .rcx, .rdx, .rsi, .rdi, .r8, .r9, .r10, .r11]

theorem not_mem_callerSaved_of_mem_calleeSaved :
    ∀ reg ∈ calleeSaved, reg ∉ callerSaved.reverse ∧ reg ≠ .rsp := by decide

theorem ne_rsp_of_mem_callerSaved : ∀ reg ∈ callerSaved, reg ≠ .rsp := by decide

theorem rsp_or_saved (reg : Gpr) : reg = .rsp ∨ reg ∈ callerSaved ∨ reg ∈ calleeSaved := by
  cases reg <;> decide

structure CFunction where
  run : Cpu → Cpu
  returns : ∀ s, (run s).rip = s.mem.load64 (s.gpr .rsp)
  pops : ∀ s, (run s).gpr .rsp = s.gpr .rsp + 8
  keeps : ∀ s, ∀ reg ∈ calleeSaved, (run s).gpr reg = s.gpr reg
  writesBelow : ∀ s addr, s.gpr .rsp ≤ addr → (run s).mem addr = s.mem addr
  systemFlags : ∀ s, (run s).rflags &&& ~~~ufretMask = s.rflags &&& ~~~ufretMask

inductive Instr (Callee : Type*) where
  | pushq (src : Gpr)
  | popq (dest : Gpr)
  | cld
  | leaq (disp : BitVec 64) (base dest : Gpr)
  | movq (disp : BitVec 64) (base dest : Gpr)
  | call (callee : Callee)
  | addq (imm : BitVec 64) (dest : Gpr)
  | ufret

inductive Trap (Fault : Type*) where
  | fault (fault : Fault)
  | generalProtection
  | stuck

/-- What the program and the processor add to the instructions: translation, the
lengths of encodings, the status flags of a sum, and the functions called. -/
structure Platform (Callee Fault : Type*) where
  translate : Cpu → Mode → BitVec 64 → Option Fault
  size : Instr Callee → BitVec 64
  sumFlags : BitVec 64 → BitVec 64 → BitVec 64
  address : Callee → BitVec 64
  function : Callee → CFunction

variable {Callee Fault : Type*}

def Cpu.pushed (s : Cpu) (value : BitVec 64) : Cpu :=
  { s with
    mem := s.mem.store64 (s.gpr .rsp - 8) value
    gpr := Function.update s.gpr .rsp (s.gpr .rsp - 8) }

@[simp] theorem Cpu.pushed_rsp (s : Cpu) (value : BitVec 64) :
    (s.pushed value).gpr .rsp = s.gpr .rsp - 8 := by
  simp [Cpu.pushed]

abbrev Exec (Fault : Type*) := Except (Trap Fault × Cpu)

namespace Platform

variable (p : Platform Callee Fault)

def push (s : Cpu) (value : BitVec 64) : Exec Fault Cpu :=
  match p.translate s .write (s.gpr .rsp - 8) with
  | some fault => .error (.fault fault, s)
  | none => .ok (s.pushed value)

def load (s : Cpu) (addr : BitVec 64) : Exec Fault (BitVec 64) :=
  match p.translate s .read addr with
  | some fault => .error (.fault fault, s)
  | none => .ok (s.mem.load64 addr)

def enter (s : Cpu) (callee : Callee) : Exec Fault Cpu := do
  let s' ← p.push s (s.rip + p.size (.call callee))
  return { s' with rip := p.address callee }

def next (s : Cpu) (instr : Instr Callee) : Cpu := { s with rip := s.rip + p.size instr }

def exec (s : Cpu) (instr : Instr Callee) : Exec Fault Cpu :=
  match instr with
  | .pushq src => do
      let s ← p.push s (s.gpr src)
      return p.next s instr
  | .popq dest => do
      let value ← p.load s (s.gpr .rsp)
      let s := s.write (.gpr .rsp) (s.gpr .rsp + 8)
      return p.next (s.write (.gpr dest) value) instr
  | .cld => return p.next { s with rflags := s.rflags &&& ~~~directionFlag } instr
  | .leaq disp base dest => return p.next (s.write (.gpr dest) (s.gpr base + disp)) instr
  | .movq disp base dest => do
      let value ← p.load s (s.gpr base + disp)
      return p.next (s.write (.gpr dest) value) instr
  | .call callee => do
      let s ← p.enter s callee
      return (p.function callee).run s
  | .addq imm dest =>
      let flags := p.sumFlags (s.gpr dest) imm &&& statusFlags
      let s := s.write (.gpr dest) (s.gpr dest + imm)
      return p.next { s with rflags := s.rflags &&& ~~~statusFlags ||| flags } instr
  | .ufret =>
      match execMicro p.translate macroopUfret s with
      | .completed s => .ok s
      | .faulted fault s => .error (.fault fault, s)
      | .generalProtection s => .error (.generalProtection, s)
      | .running _ s => .error (.stuck, s)

def run (s : Cpu) (instrs : List (Instr Callee)) : Exec Fault Cpu := instrs.foldlM p.exec s

end Platform

def stubEntry : List (Instr Callee) :=
  callerSaved.map .pushq ++
    [.cld, .leaq 88 .rsp .rdi, .movq 80 .rsp .rsi, .movq 72 .rsp .rdx]

def stubExit : List (Instr Callee) :=
  callerSaved.reverse.map .popq ++ [.addq 16 .rsp, .ufret]

def ufaultStub (callee : Callee) : List (Instr Callee) :=
  stubEntry ++ .call callee :: stubExit

inductive Handler where
  | uswapUfaultHandler
  | ufaultHandler
  deriving DecidableEq, Repr

/-- `asm_uswap_ufault_handler` of extmem. -/
def asmUswapUfaultHandler : List (Instr Handler) := ufaultStub .uswapUfaultHandler

/-- `asm_ufault_handler` of the user fault tests. -/
def asmUfaultHandler : List (Instr Handler) := ufaultStub .ufaultHandler

def Handler.stub : Handler → List (Instr Handler)
  | .uswapUfaultHandler => asmUswapUfaultHandler
  | .ufaultHandler => asmUfaultHandler

theorem Handler.stub_eq (handler : Handler) : handler.stub = ufaultStub handler := by
  cases handler <;> rfl

end UserPaging.Gem5
