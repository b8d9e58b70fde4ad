import Mathlib.Tactic.IntervalCases
import UserPaging.Foundation.Bits
import UserPaging.Gem5.MicroOp

/-!
# Delivery of a user fault

The ROM rounds the stack pointer down to 16 bytes, clears UFF and only then stores
the five words of the frame, so these are the states in which one of its own stores
can fault.
-/

namespace UserPaging.Gem5

open UserPaging.Foundation

def alignedRsp (s : Cpu) : BitVec 64 := s.gpr .rsp &&& ~~~0xF

theorem alignedRsp_toNat_mod (s : Cpu) : (alignedRsp s).toNat % 16 = 0 := by
  refine toNat_mod_of_and_eq_zero 4 ?_ (by decide)
  rw [alignedRsp, BitVec.and_assoc]
  exact BitVec.and_zero

variable {Fault : Type*}

/-- No access to the words of the first `bytes` bytes below `base` faults. -/
structure UserStack (translate : Cpu → Mode → BitVec 64 → Option Fault) (base : BitVec 64)
    (bytes : Nat) : Prop where
  store : ∀ s words, 0 < words → 8 * words ≤ bytes →
    translate s .write (base - BitVec.ofNat 64 (8 * words)) = none
  load : ∀ s words, 0 < words → 8 * words ≤ bytes →
    translate s .read (base - BitVec.ofNat 64 (8 * words)) = none

def UserHalf (translate : Cpu → Mode → BitVec 64 → Option Fault) : Prop :=
  ∀ s mode addr, translate s mode addr = none → addr.toNat < 2 ^ 47

variable {translate : Cpu → Mode → BitVec 64 → Option Fault}

theorem UserStack.le_toNat {base : BitVec 64} {words : Nat}
    (hstack : UserStack translate base (8 * words)) (huser : UserHalf translate) (s : Cpu)
    (hwords : 0 < words) (hbound : 8 * words < 2 ^ 63) : 8 * words ≤ base.toNat := by
  have hlast := huser s _ _ (hstack.store s words hwords (le_refl _))
  have hlt := base.isLt
  have hmod : 8 * words % 2 ^ 64 = 8 * words := Nat.mod_eq_of_lt (by omega)
  rw [BitVec.toNat_sub, BitVec.toNat_ofNat, hmod] at hlast
  omega

def beforePush (s : Cpu) (addr : BitVec 64) (code : BitVec 8) (k : Nat) : Cpu :=
  execAll (userFaultRom.take (5 + k)) (userFaultInvoke s addr code)

theorem beforePush_state (s : Cpu) (addr : BitVec 64) (code : BitVec 8) {k : Nat} (hk : k ≤ 5) :
    (beforePush s addr code k).gpr .rsp = alignedRsp s ∧ (beforePush s addr code k).uff = 0 ∧
      (beforePush s addr code k).rflags = s.rflags ∧ (beforePush s addr code k).rip = s.rip := by
  interval_cases k <;> exact ⟨rfl, rfl, rfl, rfl⟩

theorem userFaultRom_push {k : Nat} (hk : k < 5) :
    userFaultRom[5 + k]? =
      some (.st (pushSource k) (.gpr .rsp) (-BitVec.ofNat 64 (8 * (k + 1)))) := by
  interval_cases k <;> rfl

theorem request_push (s : Cpu) (addr : BitVec 64) (code : BitVec 8) {k : Nat} (hk : k < 5) :
    MicroOp.request (beforePush s addr code k)
        (.st (pushSource k) (.gpr .rsp) (-BitVec.ofNat 64 (8 * (k + 1)))) =
      some (.write, alignedRsp s - BitVec.ofNat 64 (8 * (k + 1))) := by
  have hrsp := (beforePush_state s addr code hk.le).1
  simp only [MicroOp.request, Cpu.read, hrsp, ← sub_eq_add_neg]

theorem passes_beforePush {s : Cpu} {addr : BitVec 64} {code : BitVec 8} {k : Nat} (hk : k ≤ 5)
    (hstores : ∀ i < k, translate (beforePush s addr code i) .write
      (alignedRsp s - BitVec.ofNat 64 (8 * (i + 1))) = none) :
    Passes translate (userFaultRom.take (5 + k)) (userFaultInvoke s addr code) := by
  induction k with
  | zero => exact ⟨rfl, rfl, rfl, rfl, rfl, rfl, rfl, rfl, rfl, rfl, trivial⟩
  | succ k ih =>
      rw [← Nat.add_assoc, List.take_add_one, userFaultRom_push hk, Option.toList_some,
        passes_append]
      refine ⟨ih (Nat.le_of_lt hk) fun i hi => hstores i (Nat.lt_succ_of_lt hi), ?_, rfl, trivial⟩
      change (MicroOp.request (beforePush s addr code k) _).bind _ = none
      rw [request_push s addr code hk]
      exact hstores k (Nat.lt_succ_self k)

/-! ## A delivery that completes -/

def frameWords (s : Cpu) (addr : BitVec 64) (code : BitVec 8) : List (BitVec 64) :=
  [code.setWidth 64, addr, s.rip, s.rflags, s.gpr .rsp]

structure Delivered (s : Cpu) (addr : BitVec 64) (code : BitVec 8) (delivered : Cpu) :
    Prop where
  rsp : delivered.gpr .rsp = alignedRsp s - 40
  gpr : ∀ reg, reg ≠ .rsp → delivered.gpr reg = s.gpr reg
  rip : delivered.rip = s.ufhandler
  rflags : delivered.rflags = s.rflags &&& ~~~(tfBit ||| rfBit)
  uff : delivered.uff = 0
  words : Memory.Words (alignedRsp s) delivered.mem (frameWords s addr code)
  above : ∀ other, alignedRsp s ≤ other → delivered.mem other = s.mem other

private theorem execAll_userFaultRom_mem (s : Cpu) (addr : BitVec 64) (code : BitVec 8) :
    (execAll userFaultRom (userFaultInvoke s addr code)).mem =
      ((((s.mem.store64 (alignedRsp s - BitVec.ofNat 64 8) (s.gpr .rsp)).store64
        (alignedRsp s - BitVec.ofNat 64 16) s.rflags).store64
          (alignedRsp s - BitVec.ofNat 64 24) s.rip).store64
            (alignedRsp s - BitVec.ofNat 64 32) addr).store64
              (alignedRsp s - BitVec.ofNat 64 40) (code.setWidth 64) := by
  simp only [sub_eq_add_neg]
  rfl

theorem delivered_execAll (s : Cpu) (addr : BitVec 64) (code : BitVec 8)
    (hbase : 40 ≤ (alignedRsp s).toNat) :
    Delivered s addr code (execAll userFaultRom (userFaultInvoke s addr code)) where
  rsp := rfl
  gpr := fun reg hreg => by cases reg <;> first | rfl | exact absurd rfl hreg
  rip := rfl
  rflags := rfl
  uff := rfl
  words := by
    rw [execAll_userFaultRom_mem]
    have hempty : Memory.Words (alignedRsp s) s.mem [] := trivial
    exact ((((hempty.push (by simp) _).push (by simp) _).push (by simp) _).push
      (by simp) _).push (by simp) _
  above := fun other hother => by
    rw [execAll_userFaultRom_mem]
    iterate 5 rw [Memory.store64_of_base_le (by decide) (by omega) hother]

theorem userFault_completes {s : Cpu} {addr : BitVec 64} {code : BitVec 8}
    (hstores : ∀ i < 5, translate (beforePush s addr code i) .write
      (alignedRsp s - BitVec.ofNat 64 (8 * (i + 1))) = none) :
    execMicro translate userFaultRom (userFaultInvoke s addr code) =
      .completed (execAll userFaultRom (userFaultInvoke s addr code)) := by
  have hpasses : Passes translate
      (userFaultRom.take (5 + 5) ++ (userFaultRom.drop 10).take 6)
      (userFaultInvoke s addr code) := by
    rw [passes_append]
    exact ⟨passes_beforePush (le_refl 5) hstores, rfl, rfl, rfl, rfl, rfl, rfl, rfl, rfl, rfl,
      rfl, rfl, rfl, trivial⟩
  have hprogram : userFaultRom =
      [] ++ (userFaultRom.take (5 + 5) ++ (userFaultRom.drop 10).take 6) ++ [.eret] := rfl
  exact (runMicro_passes hprogram hpasses 2).trans rfl

def interruptedCpu : Cpu where
  gpr := fun _ => 0x7FFF0008
  temp := fun _ => 0
  ezf := false
  rip := 0x400100
  rflags := 0x10346
  uff := 1
  ufhandler := 0x402000
  mem := fun _ => 0

end UserPaging.Gem5
