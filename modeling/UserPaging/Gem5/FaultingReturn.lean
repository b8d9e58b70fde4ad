import UserPaging.Gem5.RoundTrip
import UserPaging.Gem5.UintrOp

/-!
# A return that faults

`UFRET` and `UIRET` pop three words, check the popped RIP and then return.  The
stack pointer is moved before the check, so a return that raises #GP has already
left the words behind it.
-/

namespace UserPaging.Gem5

open UserPaging.Foundation

variable {Fault : Type*} {translate : Cpu → Mode → BitVec 64 → Option Fault}

def popAndReturn (setFlag : UintrOp) : List UintrOp :=
  [.micro (.ld .t1 (.gpr .rsp) 0),
    .micro (.ld .t2 (.gpr .rsp) 8),
    .micro (.ld .t3 (.gpr .rsp) 16),
    .micro (.addi (.gpr .rsp) (.gpr .rsp) 24 false),
    .micro (.srai .t4 .t1 47 true),
    .micro (.br 8),
    .micro (.addi .t0 .t4 1 true),
    .micro .faultGp,
    .micro (.wrip .t1),
    .micro (.rflags .t5),
    .micro (.limm .t6 (~~~0x254DD5)),
    .micro (.limm .t7 0x254DD5),
    .micro (.and .t8 .t5 .t6),
    .micro (.and .t9 .t2 .t7),
    .micro (.or .t10 .t8 .t9),
    .micro (.wrflags .t10),
    .micro (.mov (.gpr .rsp) .t3),
    .micro (.limm .t11 1),
    setFlag]

def macroopUiret : List UintrOp := popAndReturn (.wrval .uif .t11)

private theorem macroopUfret_eq :
    macroopUfret.map .micro = popAndReturn (.micro (.wrval .uff .t11)) := rfl

/-! ## The check of the popped RIP -/

def popped (s : UintrCpu) : UintrCpu := s.withCpu (execAll ufretLoads s.toCpu)

def refused (s : UintrCpu) : UintrCpu :=
  (UintrOp.micro (.addi .t0 .t4 1 true)).exec (popped s)

structure SetsFlag (translate : Cpu → Mode → BitVec 64 → Option Fault) (op : UintrOp) :
    Prop where
  access : ∀ s, op.access translate s = none
  control : ∀ s, op.control s = some .next

private theorem setsFlag_uff : SetsFlag translate (.micro (.wrval .uff .t11)) :=
  ⟨fun _ => rfl, fun _ => rfl⟩

private theorem setsFlag_uif : SetsFlag translate (.wrval .uif .t11) := ⟨fun _ => rfl, fun _ => rfl⟩

section

variable {setFlag : UintrOp}

def checkedReturn : List MicroOp := (macroopUfret.drop 8).take 10

private theorem passes_checkedReturn (translate : Cpu → Mode → BitVec 64 → Option Fault) (s : Cpu) :
    Passes translate checkedReturn s :=
  ⟨rfl, rfl, rfl, rfl, rfl, rfl, rfl, rfl, rfl, rfl, rfl, rfl, rfl, rfl, rfl, rfl, rfl, rfl, rfl,
    rfl, trivial⟩

private theorem runUintr_checkedReturn (hflag : SetsFlag translate setFlag) (fuel : Nat)
    (s : UintrCpu) :
    ∃ s', runUintr translate (popAndReturn setFlag) (fuel + 12) 8 s = .completed s' := by
  have hprogram : popAndReturn setFlag =
      (popAndReturn setFlag).take 8 ++ checkedReturn.map .micro ++ [setFlag] := rfl
  have hrun := runUintr_passes hprogram
    (uintrPasses_micro (passes_checkedReturn translate s.toCpu)) (fuel + 2)
  rw [execUintrAll_micro] at hrun
  have hlast : (popAndReturn setFlag)[18]? = some setFlag := rfl
  have hbehind : (popAndReturn setFlag)[19]? = none := rfl
  refine ⟨setFlag.exec (s.withCpu (execAll checkedReturn s.toCpu)), hrun.trans ?_⟩
  change runUintr translate (popAndReturn setFlag) (fuel + 1 + 1) 18 _ = _
  rw [runUintr_next hlast (hflag.access _) (hflag.control _), runUintr_behind hbehind]

variable {s : UintrCpu}

private theorem runUintr_popped (setFlag : UintrOp)
    (hloads : ∀ i < 3, ∀ c, translate c .read (s.gpr .rsp + BitVec.ofNat 64 (8 * i)) = none) :
    execUintr translate (popAndReturn setFlag) s =
      runUintr translate (popAndReturn setFlag) 15 5 (popped s) := by
  have hprogram : popAndReturn setFlag =
      [] ++ ufretLoads.map .micro ++ (popAndReturn setFlag).drop 5 := rfl
  have hrun := runUintr_passes hprogram (uintrPasses_micro (passes_ufretLoads hloads)) 15
  rwa [execUintrAll_micro] at hrun

private theorem popAndReturn_completes (hflag : SetsFlag translate setFlag)
    (hloads : ∀ i < 3, ∀ c, translate c .read (s.gpr .rsp + BitVec.ofNat 64 (8 * i)) = none)
    (hrip : Canonical ((popped s).temp 1)) :
    ∃ s', execUintr translate (popAndReturn setFlag) s = .completed s' := by
  have hbr : (popAndReturn setFlag)[5]? = some (.micro (.br 8)) := rfl
  have hadd : (popAndReturn setFlag)[6]? = some (.micro (.addi .t0 .t4 1 true)) := rfl
  have hgp : (popAndReturn setFlag)[7]? = some (.micro .faultGp) := rfl
  rw [runUintr_popped setFlag hloads]
  rcases hrip with hlow | hhigh
  · have hzero : (popped s).ezf = true := by
      change (((popped s).temp 1).sshiftRight 47 == 0) = true
      rw [sshiftRight_eq_zero (by decide) hlow]
      rfl
    have hjump : (UintrOp.micro (.br 8)).control (popped s) = some (.jump 8) := by
      simp only [UintrOp.control, MicroOp.control, hzero, if_true]
    rw [runUintr_jump hbr rfl hjump]
    exact runUintr_checkedReturn hflag 2 _
  · have hones : ((popped s).temp 1).sshiftRight 47 = BitVec.allOnes 64 :=
      sshiftRight_eq_neg_one (by decide) hhigh
    have hnonzero : (popped s).ezf = false := by
      change (((popped s).temp 1).sshiftRight 47 == 0) = false
      rw [hones]
      rfl
    have hstay : (UintrOp.micro (.br 8)).control (popped s) = some .next := by
      simp only [UintrOp.control, MicroOp.control, hnonzero, Bool.false_eq_true, if_false]
    have hchecked : (refused s).ezf = true := by
      change (((popped s).temp 1).sshiftRight 47 + 1 == 0) = true
      rw [hones]
      rfl
    have hpass : (UintrOp.micro .faultGp).control (refused s) = some .next := by
      simp only [UintrOp.control, MicroOp.control, hchecked, if_true]
    rw [runUintr_next hbr rfl hstay, runUintr_next hadd rfl rfl]
    change ∃ s', runUintr translate (popAndReturn setFlag) 13 7 (refused s) = .completed s'
    rw [runUintr_next hgp rfl hpass]
    exact runUintr_checkedReturn hflag 0 _

private theorem popAndReturn_refuses (setFlag : UintrOp)
    (hloads : ∀ i < 3, ∀ c, translate c .read (s.gpr .rsp + BitVec.ofNat 64 (8 * i)) = none)
    (hrip : ¬ Canonical ((popped s).temp 1)) :
    execUintr translate (popAndReturn setFlag) s = .generalProtection (refused s) := by
  have hbr : (popAndReturn setFlag)[5]? = some (.micro (.br 8)) := rfl
  have hadd : (popAndReturn setFlag)[6]? = some (.micro (.addi .t0 .t4 1 true)) := rfl
  have hgp : (popAndReturn setFlag)[7]? = some (.micro .faultGp) := rfl
  have hnonzero : (popped s).ezf = false := by
    change (((popped s).temp 1).sshiftRight 47 == 0) = false
    rw [beq_eq_false_iff_ne]
    exact fun hzero => hrip (.inl (lt_of_sshiftRight_eq_zero hzero))
  have hstay : (UintrOp.micro (.br 8)).control (popped s) = some .next := by
    simp only [UintrOp.control, MicroOp.control, hnonzero, Bool.false_eq_true, if_false]
  have hchecked : (refused s).ezf = false := by
    change (((popped s).temp 1).sshiftRight 47 + 1 == 0) = false
    rw [beq_eq_false_iff_ne]
    intro hones
    have hall : ((popped s).temp 1).sshiftRight 47 = BitVec.allOnes 64 :=
      eq_neg_of_add_eq_zero_left hones
    exact hrip (.inr (le_of_sshiftRight_eq_allOnes (by decide) hall))
  have hfault : (UintrOp.micro .faultGp).control (refused s) = some .generalProtection := by
    simp only [UintrOp.control, MicroOp.control, hchecked, Bool.false_eq_true, if_false]
  rw [runUintr_popped setFlag hloads, runUintr_next hbr rfl hstay, runUintr_next hadd rfl rfl]
  exact runUintr_refuses hgp rfl hfault 12

private theorem refused_rsp (s : UintrCpu) : (refused s).gpr .rsp ≠ s.gpr .rsp := by
  have hrsp : (refused s).gpr .rsp = s.gpr .rsp + 24 := rfl
  rw [hrsp]
  intro heq
  exact absurd (add_eq_left.1 heq) (by decide)

end

/-! ## The instructions -/

def UpperBitsEqual (addr : BitVec 64) : Prop :=
  ∀ i, 47 ≤ i → i < 64 → addr.getLsbD i = addr.getLsbD 63

private theorem getLsbD_sshiftRight_47 (addr : BitVec 64) {i : Nat} (hi : i < 64) :
    (addr.sshiftRight 47).getLsbD i =
      if 47 + i < 64 then addr.getLsbD (47 + i) else addr.getLsbD 63 := by
  have hmsb : addr.msb = addr.getLsbD 63 := BitVec.msb_eq_getLsbD_last addr
  rw [BitVec.getLsbD_sshiftRight, hmsb]
  simp [Nat.not_le.2 hi]

private theorem canonical_iff (addr : BitVec 64) : Canonical addr ↔ UpperBitsEqual addr := by
  constructor
  · intro hcanonical i hlow hhigh
    have hbit := getLsbD_sshiftRight_47 addr (show i - 47 < 64 by omega)
    have hlast := getLsbD_sshiftRight_47 addr (show 16 < 64 by decide)
    rw [show 47 + (i - 47) = i by omega, if_pos hhigh] at hbit
    rw [if_pos (by decide)] at hlast
    rw [← hbit, ← hlast]
    rcases hcanonical with hsmall | hlarge
    · rw [sshiftRight_eq_zero (by decide) hsmall]
      simp
    · rw [sshiftRight_eq_neg_one (by decide) hlarge, BitVec.getLsbD_allOnes,
        BitVec.getLsbD_allOnes]
      simp only [show i - 47 < 64 by omega, decide_true]
      decide
  · intro hequal
    have hbits : ∀ i, i < 64 → (addr.sshiftRight 47).getLsbD i = addr.getLsbD 63 := by
      intro i hi
      rw [getLsbD_sshiftRight_47 addr hi]
      split
      · exact hequal _ (by omega) (by omega)
      · rfl
    cases htop : addr.getLsbD 63 with
    | false =>
        refine .inl (lt_of_sshiftRight_eq_zero (BitVec.eq_of_getLsbD_eq fun i hi => ?_))
        rw [hbits i hi, htop, BitVec.getLsbD_zero]
    | true =>
        refine .inr (le_of_sshiftRight_eq_allOnes (by decide)
          (BitVec.eq_of_getLsbD_eq fun i hi => ?_))
        rw [hbits i hi, htop, BitVec.getLsbD_allOnes, decide_eq_true hi]

/-- #GP is raised for just the popped addresses that are not canonical, and then nothing
that the program can see has changed. -/
structure FaultsWithoutEffect (s : UintrCpu) (flag : UintrCpu → BitVec 64)
    (result : UintrStep Fault) : Prop where
  raises : (∃ s', result = .generalProtection s') ↔
    ¬ UpperBitsEqual (s.mem.load64 (s.gpr .rsp))
  unchanged : ∀ s', result = .generalProtection s' →
    s'.gpr = s.gpr ∧ s'.rflags = s.rflags ∧ s'.rip = s.rip ∧ flag s' = flag s

private theorem faultsWithoutEffect_iff {s : UintrCpu} {setFlag : UintrOp}
    (flag : UintrCpu → BitVec 64) (hflag : SetsFlag translate setFlag)
    (hloads : ∀ i < 3, ∀ c, translate c .read (s.gpr .rsp + BitVec.ofNat 64 (8 * i)) = none) :
    FaultsWithoutEffect s flag (execUintr translate (popAndReturn setFlag) s) ↔
      UpperBitsEqual (s.mem.load64 (s.gpr .rsp)) := by
  have hrip : (popped s).temp 1 = s.mem.load64 (s.gpr .rsp) := by
    change s.mem.load64 (s.gpr .rsp + 0) = _
    rw [add_zero]
  constructor
  · intro hresult
    by_contra hbits
    have hrefused := popAndReturn_refuses setFlag hloads
      (by rwa [hrip, canonical_iff])
    exact refused_rsp s (congrFun (hresult.unchanged _ hrefused).1 .rsp)
  · intro hbits
    obtain ⟨s', hcompletes⟩ := popAndReturn_completes hflag hloads
      (by rwa [hrip, canonical_iff])
    rw [hcompletes]
    refine ⟨⟨?_, fun hnot => absurd hbits hnot⟩, ?_⟩
    · rintro ⟨s'', hgp⟩
      cases hgp
    · intro s'' hgp
      cases hgp

theorem faulting_return_iff (translate : Cpu → Mode → BitVec 64 → Option Fault) (s : UintrCpu)
    (hloads : ∀ i < 3, ∀ c, translate c .read (s.gpr .rsp + BitVec.ofNat 64 (8 * i)) = none) :
    (FaultsWithoutEffect s (·.uff) ((execMicro translate macroopUfret s.toCpu).lift s) ↔
        UpperBitsEqual (s.mem.load64 (s.gpr .rsp))) ∧
      (FaultsWithoutEffect s (·.uif) (execUintr translate macroopUiret s) ↔
        UpperBitsEqual (s.mem.load64 (s.gpr .rsp))) := by
  constructor
  · rw [← execUintr_micro, macroopUfret_eq]
    exact faultsWithoutEffect_iff (·.uff) setsFlag_uff hloads
  · exact faultsWithoutEffect_iff (·.uif) setsFlag_uif hloads

def badReturn : UintrCpu where
  gpr := fun _ => 0x7000
  temp := fun _ => 0
  ezf := false
  rip := 0x1000
  rflags := 2
  uff := 0
  ufhandler := 0
  mem := fun addr => if addr = 0x7005 then 0x80 else 0
  uif := 0
  uintrMisc := 0
  uintrTT := 0
  apicBase := 0
  icrLow := 0
  icrHigh := 0
  reads := []
  sent := []

theorem faulting_return_iff_badReturn :
    (∀ i < 3, ∀ c, mapped c .read (badReturn.gpr .rsp + BitVec.ofNat 64 (8 * i)) = none) ∧
      (FaultsWithoutEffect badReturn (·.uif) (execUintr mapped macroopUiret badReturn) ↔
        UpperBitsEqual (badReturn.mem.load64 (badReturn.gpr .rsp))) :=
  ⟨fun _ _ _ => rfl, (faulting_return_iff mapped badReturn fun _ _ _ => rfl).2⟩

theorem badReturn_moves_rsp :
    badReturn.mem.load64 (badReturn.gpr .rsp) = 0x800000000000 ∧
      (∃ s', execMicro mapped macroopUfret badReturn.toCpu = .generalProtection s' ∧
        s'.gpr .rsp = 0x7018) ∧
      (∃ s', execUintr mapped macroopUiret badReturn = .generalProtection s' ∧
        s'.gpr .rsp = 0x7018) :=
  ⟨by decide, ⟨_, rfl, rfl⟩, ⟨_, rfl, rfl⟩⟩

end UserPaging.Gem5
