import UserPaging.Gem5.UintrOp

/-!
# `SENDUIPI`

The instruction posts a user interrupt through the target table and the
descriptor that an entry of the table points to, and notifies the receiver.  The
micro-program compares the operand as a signed number, and its mask for the
reserved bits of an entry has the valid bit in it: every entry is refused.
-/

namespace UserPaging.Gem5

open UserPaging.Foundation

/-- `SENDUIPI_R` -/
def macroopSenduipi (reg : Gpr) : List UintrOp :=
  [.rdval .t1 .uintrMisc .dword,
    .sub .t0 (.gpr reg) .t1,
    .faultGp .nSxOvZF,
    .rdval .t1 .uintrTT .qword,
    .micro (.limm .t2 (~~~15)),
    .micro (.and .t1 .t1 .t2),
    .slli .t2 (.gpr reg) 4 .qword,
    .add .t1 .t1 .t2,
    .ld .t2 .t1 0,
    .ld .t3 .t1 8,
    .andi .t0 .t2 1 .byte true,
    .faultGp .zf,
    .andi .t0 .t2 0x7FFFFFFFFFFFE07F .qword true,
    .faultGp .nzf,
    .ld .t4 .t3 0,
    .ld .t5 .t3 8,
    .andi .t0 .t4 0xFF00FFFC .dword true,
    .faultGp .nzf,
    .srli .t6 .t2 8 .word,
    .micro (.limm .t7 1),
    .sll .t7 .t7 .t6,
    .micro (.or .t5 .t5 .t7),
    .andi .t0 .t4 3 .byte true,
    .br 25 .nzf,
    .ori .t4 .t4 1 .qword,
    -- skipOn
    .st .t4 .t3 0,
    .st .t5 .t3 8,
    .eret .nzf,
    .rdval .t6 .apicBase .qword,
    .andi .t0 .t6 (1 <<< 10) .qword true,
    .panic .nzf,
    .andi .t6 .t6 0xFFFFFF000 .qword false,
    .srli .t8 .t4 40 .qword,
    .andi .t8 .t8 0xFF .byte false,
    .slli .t8 .t8 24 .dword,
    .stPhysical .t8 .t6 0x310,
    .srli .t8 .t4 16 .qword,
    .andi .t8 .t8 0xFF .byte false,
    .ldPhysical .t9 .t6 0x300,
    .andi .t9 .t9 (1 <<< 12) .dword false,
    .ori .t9 .t9 (1 <<< 14) .dword,
    .or .t9 .t9 .t8 .dword,
    .stPhysical .t9 .t6 0x300]

/-! ## What the instruction is for -/

namespace UintrCpu

variable (s : UintrCpu) (operand : BitVec 64)

def uittsz : Nat := s.uintrMisc.toNat % 2 ^ 32

def uitteAddr : BitVec 64 := (s.uintrTT &&& ~~~15#64) + operand <<< 4

def uitte : BitVec 64 := s.mem.load64 (s.uitteAddr operand)

def upidAddr : BitVec 64 := s.mem.load64 (s.uitteAddr operand + 8)

def upid : BitVec 64 := s.mem.load64 (s.upidAddr operand)

def pir : BitVec 64 := s.mem.load64 (s.upidAddr operand + 8)

def userVector : BitVec 8 := (s.uitte operand).extractLsb' 8 8

/-- The entry is not valid, or a reserved bit of the entry (7 to 1, 63 to 16) or of the
descriptor (15 to 2, 31 to 24) is set. -/
def Refused : Prop :=
  (s.uitte operand).getLsbD 0 = false ∨ s.uitte operand &&& 0xFFFFFFFFFFFF00FE ≠ 0 ∨
    s.upid operand &&& 0xFF00FFFC ≠ 0

def Notifies : Prop := (s.upid operand).getLsbD 0 = false ∧ (s.upid operand).getLsbD 1 = false

instance : Decidable (s.Refused operand) := inferInstanceAs (Decidable (_ ∨ _))

instance : Decidable (s.Notifies operand) := inferInstanceAs (Decidable (_ ∧ _))

def posted : Memory 64 :=
  (s.mem.store64 (s.upidAddr operand)
    (if s.Notifies operand then s.upid operand ||| 1 else s.upid operand)).store64
      (s.upidAddr operand + 8) (s.pir operand ||| 1 <<< (s.userVector operand).toNat)

def notification : Ipi :=
  ⟨(s.upid operand).extractLsb' 16 8, (s.upid operand).extractLsb' 40 8⟩

end UintrCpu

variable {Fault : Type*}

def UintrStep.cpu : UintrStep Fault → UintrCpu
  | .running _ s | .completed s | .faulted _ s | .generalProtection s | .panicked s => s

structure SendsAsSpecified (s : UintrCpu) (operand : BitVec 64) (result : UintrStep Fault) :
    Prop where
  tooLarge : s.uittsz < operand.toNat →
    ∃ s', result = .generalProtection s' ∧ s'.reads = s.reads
  reads : operand.toNat ≤ s.uittsz →
    ∃ later, result.cpu.reads =
        s.reads ++ [s.uitteAddr operand, s.uitteAddr operand + 8] ++ later ∧
      ∀ addr ∈ later, addr = s.upidAddr operand ∨ addr = s.upidAddr operand + 8
  refuses : operand.toNat ≤ s.uittsz → s.Refused operand →
    ∃ s', result = .generalProtection s'
  sends : operand.toNat ≤ s.uittsz → ¬ s.Refused operand → (s.userVector operand).toNat < 64 →
    ∃ s', result = .completed s' ∧ s'.mem = s.posted operand ∧ s'.rflags = s.rflags ∧
      s'.sent = s.sent ++ if s.Notifies operand then [s.notification operand] else []

/-! ## The flags -/

private theorem nSxOvZF_subFlags (rflags x : BitVec 64) {y : BitVec 64} (hy : y.toNat < 2 ^ 32) :
    Cond.nSxOvZF.holds (subFlags rflags x y) = true ↔ y.toNat < x.toNat ∧ x.toNat < 2 ^ 63 := by
  have hlt := x.isLt
  have hsub : (x - y).toNat = (2 ^ 64 - y.toNat + x.toNat) % 2 ^ 64 := BitVec.toNat_sub x y
  have hzero : (x - y == 0) = decide (x.toNat = y.toNat) := by
    rw [Bool.eq_iff_iff, beq_iff_eq, decide_eq_true_iff, sub_eq_zero, BitVec.toNat_inj]
  have hymsb : y.msb = false := by
    rw [BitVec.msb_eq_false_iff_two_mul_lt]
    omega
  simp only [Cond.holds, subFlags, getLsbD_setFlag _ (show zfBit < 64 by decide),
    getLsbD_setFlag _ (show sfBit < 64 by decide), getLsbD_setFlag _ (show ofBit < 64 by decide),
    show sfBit ≠ zfBit by decide, show ofBit ≠ zfBit by decide, show ofBit ≠ sfBit by decide,
    if_true, if_false, hzero, hymsb]
  cases hxmsb : x.msb with
  | false =>
      rw [BitVec.msb_eq_false_iff_two_mul_lt] at hxmsb
      cases hmsb : (x - y).msb with
      | false =>
          rw [BitVec.msb_eq_false_iff_two_mul_lt] at hmsb
          simp only [bne_self_eq_false, Bool.and_self, Bool.false_or, Bool.not_eq_eq_eq_not,
            Bool.not_true, decide_eq_false_iff_not]
          omega
      | true =>
          rw [BitVec.msb_eq_true_iff_two_mul_ge] at hmsb
          simp only [bne_self_eq_false, Bool.bne_false, Bool.and_true, Bool.true_or,
            Bool.not_true, Bool.false_eq_true, false_iff, not_and]
          omega
  | true =>
      rw [BitVec.msb_eq_true_iff_two_mul_ge] at hxmsb
      have hnot : ¬(y.toNat < x.toNat ∧ x.toNat < 2 ^ 63) := by omega
      cases (x - y).msb with
      | false =>
          simp only [Bool.bne_false, Bool.bne_true, Bool.not_false, Bool.and_self, Bool.true_or,
            Bool.not_true, Bool.false_eq_true, hnot]
      | true =>
          simp only [Bool.bne_false, bne_self_eq_false, Bool.and_false, Bool.true_or,
            Bool.not_true, Bool.false_eq_true, hnot]

/-! ## The run -/

variable {translate : Cpu → Mode → BitVec 64 → Option Fault} {s : UintrCpu} {reg : Gpr}

private theorem pick_qword (x : BitVec 64) : Size.qword.pick x = x := BitVec.setWidth_eq _

private theorem toNat_pick_dword (x : BitVec 64) :
    (Size.dword.pick x).toNat = x.toNat % 2 ^ 32 := by
  simp only [Size.pick, Size.bits, BitVec.toNat_setWidth]
  omega

def compared (reg : Gpr) (s : UintrCpu) : UintrCpu :=
  execUintrAll ((macroopSenduipi reg).take 2) s

def entryRead (reg : Gpr) (s : UintrCpu) : UintrCpu :=
  execUintrAll (((macroopSenduipi reg).drop 3).take 8) (compared reg s)

private theorem compared_rflags :
    (compared reg s).rflags = subFlags s.rflags (s.gpr reg) (Size.dword.pick s.uintrMisc) := rfl

private theorem read_t2 (s : UintrCpu) : s.read .t2 = s.temp 2 := rfl

def entryLoaded (reg : Gpr) (s : UintrCpu) : UintrCpu :=
  execUintrAll (((macroopSenduipi reg).drop 3).take 7) (compared reg s)

private theorem entryRead_eq :
    entryRead reg s = (UintrOp.andi .t0 .t2 1 .byte true).exec (entryLoaded reg s) := rfl

private theorem entryRead_reads :
    (entryRead reg s).reads =
      s.reads ++ [s.uitteAddr (s.gpr reg), s.uitteAddr (s.gpr reg) + 8] := by
  have haddr : s.uitteAddr (s.gpr reg) + 0 = s.uitteAddr (s.gpr reg) := add_zero _
  have hreads : (entryRead reg s).reads =
      s.reads ++ [s.uitteAddr (s.gpr reg) + 0] ++ [s.uitteAddr (s.gpr reg) + 8] := rfl
  rw [hreads, haddr, List.append_assoc, List.singleton_append]

private theorem valid_of_test {x : BitVec 64} (htest : Size.byte.pick x &&& Size.byte.pick 1 ≠ 0) :
    x.getLsbD 0 = true := by
  by_contra hbit
  rw [Bool.not_eq_true] at hbit
  have hone : Size.byte.pick 1 = 1#64 := by decide
  apply htest
  rw [hone]
  apply BitVec.eq_of_getLsbD_eq
  intro i hi
  by_cases hzero : i = 0
  · subst hzero
    simpa [Size.pick, Size.bits] using hbit
  · simp [hzero]

private theorem mask_of_valid {x : BitVec 64} (hvalid : x.getLsbD 0 = true) :
    Size.qword.pick x &&& Size.qword.pick 0x7FFFFFFFFFFFE07F ≠ 0 := by
  intro hzero
  rw [pick_qword, pick_qword] at hzero
  have hbit : (x &&& 0x7FFFFFFFFFFFE07F).getLsbD 0 = false := by
    rw [hzero]
    rfl
  rw [BitVec.getLsbD_and, hvalid] at hbit
  exact absurd hbit (by decide)

private theorem uintrPasses_compared (translate : Cpu → Mode → BitVec 64 → Option Fault) (reg : Gpr)
    (s : UintrCpu) : UintrPasses translate ((macroopSenduipi reg).take 2) s :=
  ⟨rfl, rfl, rfl, rfl, trivial⟩

private theorem uintrPasses_entryRead (translate : Cpu → Mode → BitVec 64 → Option Fault)
    (reg : Gpr)
    (s : UintrCpu) : UintrPasses translate (((macroopSenduipi reg).drop 3).take 8) s :=
  ⟨rfl, rfl, rfl, rfl, rfl, rfl, rfl, rfl, rfl, rfl, rfl, rfl, rfl, rfl, rfl, rfl, trivial⟩

private theorem runUintr_compared (translate : Cpu → Mode → BitVec 64 → Option Fault) (reg : Gpr)
    (s : UintrCpu) :
    execUintr translate (macroopSenduipi reg) s =
      runUintr translate (macroopSenduipi reg) 42 2 (compared reg s) := by
  have hprogram : macroopSenduipi reg =
      [] ++ (macroopSenduipi reg).take 2 ++ (macroopSenduipi reg).drop 2 := rfl
  exact runUintr_passes hprogram (uintrPasses_compared translate reg s) 42

private theorem entryRead_refused (translate : Cpu → Mode → BitVec 64 → Option Fault) (reg : Gpr)
    (s : UintrCpu) (fuel : Nat) :
    ∃ s', runUintr translate (macroopSenduipi reg) (fuel + 3) 11 (entryRead reg s) =
        .generalProtection s' ∧ s'.reads = (entryRead reg s).reads := by
  have hop11 : (macroopSenduipi reg)[11]? = some (.faultGp .zf) := rfl
  have hop12 : (macroopSenduipi reg)[12]? =
      some (.andi .t0 .t2 0x7FFFFFFFFFFFE07F .qword true) := rfl
  have hop13 : (macroopSenduipi reg)[13]? = some (.faultGp .nzf) := rfl
  have hzf : (entryRead reg s).rflags.getLsbD zfBit =
      (Size.byte.pick ((entryRead reg s).temp 2) &&& Size.byte.pick 1 == 0) := by
    rw [entryRead_eq, UintrOp.exec_andi_rflags, UintrOp.exec_andi_temp,
      getLsbD_setFlag _ (by decide), if_pos rfl, read_t2]
  cases htest : (entryRead reg s).rflags.getLsbD zfBit with
  | true =>
      have hgp : (UintrOp.faultGp .zf).control (entryRead reg s) = some .generalProtection := by
        simp only [UintrOp.control, Cond.holds, htest, if_true]
      exact ⟨_, runUintr_refuses hop11 rfl hgp (fuel + 2), rfl⟩
  | false =>
      have hpass : (UintrOp.faultGp .zf).control (entryRead reg s) = some .next := by
        simp only [UintrOp.control, Cond.holds, htest, Bool.false_eq_true, if_false]
      rw [htest, eq_comm, beq_eq_false_iff_ne] at hzf
      -- the valid bit is set, and it is in the mask
      have hmask := mask_of_valid (valid_of_test hzf)
      have hgp : (UintrOp.faultGp .nzf).control ((UintrOp.andi .t0 .t2 0x7FFFFFFFFFFFE07F .qword
          true).exec (entryRead reg s)) = some .generalProtection := by
        simp only [UintrOp.control, Cond.holds, UintrOp.exec_andi_rflags,
          getLsbD_setFlag _ (by decide : zfBit < 64), if_true]
        rw [read_t2, beq_eq_false_iff_ne.2 hmask]
        rfl
      refine ⟨_, ?_, UintrOp.exec_andi_reads _ .t0 .t2 0x7FFFFFFFFFFFE07F .qword⟩
      rw [runUintr_next hop11 rfl hpass, UintrOp.exec_faultGp, runUintr_next hop12 rfl rfl]
      exact runUintr_refuses hop13 rfl hgp fuel

/-- The instruction always raises #GP; it reads the entry first unless the operand exceeds
the size of the table as a signed number. -/
private theorem senduipi_result (translate : Cpu → Mode → BitVec 64 → Option Fault) (reg : Gpr)
    (s : UintrCpu) :
    ∃ s', execUintr translate (macroopSenduipi reg) s = .generalProtection s' ∧
      s'.reads =
        if s.uittsz < (s.gpr reg).toNat ∧ (s.gpr reg).toNat < 2 ^ 63 then s.reads
        else s.reads ++ [s.uitteAddr (s.gpr reg), s.uitteAddr (s.gpr reg) + 8] := by
  have hop2 : (macroopSenduipi reg)[2]? = some (.faultGp .nSxOvZF) := rfl
  have hlimit := toNat_pick_dword s.uintrMisc
  have hcond := nSxOvZF_subFlags s.rflags (s.gpr reg) (y := Size.dword.pick s.uintrMisc)
    (by rw [hlimit]; exact Nat.mod_lt _ (by decide))
  rw [← compared_rflags, hlimit] at hcond
  rw [runUintr_compared]
  by_cases hlarge : s.uittsz < (s.gpr reg).toNat ∧ (s.gpr reg).toNat < 2 ^ 63
  · have hgp : (UintrOp.faultGp .nSxOvZF).control (compared reg s) =
        some .generalProtection := by
      simp only [UintrOp.control, hcond.2 hlarge, if_true]
    refine ⟨compared reg s, runUintr_refuses hop2 rfl hgp 41, ?_⟩
    rw [if_pos hlarge]
    rfl
  · have hpass : (UintrOp.faultGp .nSxOvZF).control (compared reg s) = some .next := by
      have hfalse : Cond.nSxOvZF.holds (compared reg s).rflags = false := by
        rw [← Bool.not_eq_true, hcond]
        exact hlarge
      simp only [UintrOp.control, hfalse, Bool.false_eq_true, if_false]
    have hprogram : macroopSenduipi reg = (macroopSenduipi reg).take 3 ++
        ((macroopSenduipi reg).drop 3).take 8 ++ (macroopSenduipi reg).drop 11 := rfl
    have hrun := runUintr_passes hprogram
      (uintrPasses_entryRead translate reg (compared reg s)) 33
    obtain ⟨s', hgp, hreads⟩ := entryRead_refused translate reg s 30
    refine ⟨s', ?_, ?_⟩
    · rw [runUintr_next hop2 rfl hpass]
      exact hrun.trans hgp
    · rw [hreads, entryRead_reads, if_neg hlarge]

/-- The specification is met by an operand above the size of the table that is positive as
a signed number, and by one that the specification refuses or leaves open. -/
theorem sendsAsSpecified_iff (translate : Cpu → Mode → BitVec 64 → Option Fault) (reg : Gpr)
    (s : UintrCpu) :
    SendsAsSpecified s (s.gpr reg) (execUintr translate (macroopSenduipi reg) s) ↔
      (s.uittsz < (s.gpr reg).toNat → (s.gpr reg).toNat < 2 ^ 63) ∧
        ((s.gpr reg).toNat ≤ s.uittsz →
          s.Refused (s.gpr reg) ∨ 64 ≤ (s.userVector (s.gpr reg)).toNat) := by
  obtain ⟨s', hresult, hreads⟩ := senduipi_result translate reg s
  rw [hresult]
  constructor
  · rintro ⟨htooLarge, -, -, hsends⟩
    constructor
    · intro hlarge
      by_contra hbig
      obtain ⟨s'', hgp, hnone⟩ := htooLarge hlarge
      cases hgp
      rw [if_neg fun h => hbig h.2] at hreads
      rw [hnone] at hreads
      simp at hreads
    · intro hle
      by_contra hnot
      rw [not_or, Nat.not_le] at hnot
      obtain ⟨s'', hcompleted, -⟩ := hsends hle hnot.1 hnot.2
      cases hcompleted
  · rintro ⟨hpositive, hopen⟩
    refine ⟨fun hlarge => ⟨s', rfl, ?_⟩, fun hle => ⟨[], ?_, by simp⟩, fun _ _ => ⟨s', rfl⟩, ?_⟩
    · rw [hreads, if_pos ⟨hlarge, hpositive hlarge⟩]
    · rw [List.append_nil]
      exact hreads.trans (if_neg (by omega))
    · intro hle hnot hvector
      rcases hopen hle with hrefused | hvector'
      · exact absurd hrefused hnot
      · omega

/-- A table at `0x10000` whose entry 0 is valid, for vector 5 and the descriptor at
`0x20000`; the descriptor asks for vector `0x60` at APIC 3. -/
def sender : UintrCpu where
  gpr := fun reg => if reg = .rbx then 0x8000000000000000 else 0
  temp := fun _ => 0
  ezf := false
  rip := 0x1000
  rflags := 2
  uff := 0
  ufhandler := 0
  mem := fun addr =>
    if addr = 0x10000 then 0x01
    else if addr = 0x10001 then 0x05
    else if addr = 0x1000A then 0x02
    else if addr = 0x20002 then 0x60
    else if addr = 0x20005 then 0x03
    else 0
  uif := 0
  uintrMisc := 0
  uintrTT := 0x10000
  apicBase := 0xFEE00800
  icrLow := 0
  icrHigh := 0
  reads := []
  sent := []

/-- A valid entry is refused, and an operand of `2 ^ 63` reads the entry 0 of a table with
one entry. -/
theorem sender_refused :
    ¬ sender.Refused 0 ∧ sender.userVector 0 = 5 ∧ sender.Notifies 0 ∧
      (∃ s', execUintr mapped (macroopSenduipi .rax) sender = .generalProtection s') ∧
      ¬ SendsAsSpecified sender 0 (execUintr mapped (macroopSenduipi .rax) sender) ∧
      ∃ s', execUintr mapped (macroopSenduipi .rbx) sender = .generalProtection s' ∧
        s'.reads = [0x10000, 0x10008] := by
  obtain ⟨s', hgp, -⟩ := senduipi_result mapped .rax sender
  obtain ⟨s'', hgp', hreads⟩ := senduipi_result mapped .rbx sender
  have hentry : s''.reads = [0x10000, 0x10008] := hreads.trans (by decide)
  refine ⟨by decide, by decide, by decide, ⟨s', hgp⟩, fun hspecified => ?_, s'', hgp', hentry⟩
  obtain ⟨sent, hcompleted, -⟩ := hspecified.sends (by decide) (by decide) (by decide)
  rw [hgp] at hcompleted
  cases hcompleted

end UserPaging.Gem5
