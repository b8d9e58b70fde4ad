import UserPaging.Gem5.Delivery
import UserPaging.Gem5.Stub

/-!
# A user fault from delivery to return

The ROM, the two halves of the entry stub and `UFRET` work on one stack of words
below the interrupted stack pointer, rounded down.  Between the halves runs a C
function that leaves the stack above its own frame alone.
-/

namespace UserPaging.Gem5

open UserPaging.Foundation

def Canonical (addr : BitVec 64) : Prop :=
  addr.toNat < 2 ^ 47 ∨ 2 ^ 64 - 2 ^ 47 ≤ addr.toNat

structure OnStack (base : BitVec 64) (words : List (BitVec 64)) (s : Cpu) : Prop where
  rsp : s.gpr .rsp = base - BitVec.ofNat 64 (8 * words.length)
  words : Memory.Words base s.mem words

variable {Callee Fault : Type*} {base : BitVec 64} {words : List (BitVec 64)} {s : Cpu}

private theorem OnStack.load (hs : OnStack base words s) {i : Nat} (hi : i < words.length) :
    s.mem.load64 (s.gpr .rsp + BitVec.ofNat 64 (8 * i)) = words[i] := by
  rw [hs.rsp]
  exact hs.words.load hi

/-! ## `UFRET` -/

section

variable {translate : Cpu → Mode → BitVec 64 → Option Fault}

def ufretLoads : List MicroOp := macroopUfret.take 5

def ufretReturn : List MicroOp := macroopUfret.drop 8

theorem passes_ufretLoads (hloads : ∀ i < 3,
      ∀ s', translate s' .read (s.gpr .rsp + BitVec.ofNat 64 (8 * i)) = none) :
    Passes translate ufretLoads s :=
  ⟨hloads 0 (by decide) _, rfl, hloads 1 (by decide) _, rfl, hloads 2 (by decide) _, rfl,
    rfl, rfl, rfl, rfl, trivial⟩

private theorem passes_ufretReturn : Passes translate ufretReturn s :=
  ⟨rfl, rfl, rfl, rfl, rfl, rfl, rfl, rfl, rfl, rfl, rfl, rfl, rfl, rfl, rfl, rfl, rfl, rfl,
    rfl, rfl, rfl, rfl, trivial⟩

private theorem runMicro_ufretReturn (fuel : Nat) (s : Cpu) :
    runMicro translate macroopUfret (fuel + 1 + 11) 8 s =
      .completed (execAll ufretReturn s) := by
  have hprogram : macroopUfret = macroopUfret.take 8 ++ ufretReturn ++ [] := rfl
  exact (runMicro_passes hprogram passes_ufretReturn (fuel + 1)).trans rfl

private theorem ufret_check (translate : Cpu → Mode → BitVec 64 → Option Fault)
    (hrip : Canonical (s.temp 1))
    (hshift : s.temp 4 = (s.temp 1).sshiftRight 47)
    (hezf : s.ezf = ((s.temp 1).sshiftRight 47 == 0)) :
    ∃ s', runMicro translate macroopUfret 15 5 s = .completed (execAll ufretReturn s') ∧
      (∀ index, index ≠ 0 → s'.temp index = s.temp index) ∧ s'.rflags = s.rflags ∧
      s'.gpr = s.gpr ∧ s'.mem = s.mem := by
  rcases hrip with hlow | hhigh
  · have hzero : s.ezf = true := by
      rw [hezf, sshiftRight_eq_zero (by decide) hlow]
      rfl
    have hjump : microStep translate macroopUfret 5 s = .running 8 s := by
      simp [microStep, macroopUfret, MicroOp.request, MicroOp.control, MicroOp.exec, hzero]
    refine ⟨s, ?_, fun _ _ => rfl, rfl, rfl, rfl⟩
    rw [runMicro, hjump]
    exact runMicro_ufretReturn 2 s
  · have hones : (s.temp 1).sshiftRight 47 = BitVec.allOnes 64 :=
      sshiftRight_eq_neg_one (by decide) hhigh
    have hnonzero : s.ezf = false := by
      rw [hezf, hones]
      rfl
    have hstay : microStep translate macroopUfret 5 s = .running 6 s := by
      simp [microStep, macroopUfret, MicroOp.request, MicroOp.control, MicroOp.exec, hnonzero]
    let checked := MicroOp.exec s (.addi (.t 0) (.t 4) 1 true)
    have hchecked : checked.ezf = true := by
      change (s.temp 4 + 1 == 0) = true
      rw [hshift, hones]
      rfl
    have hpass : microStep translate macroopUfret 7 checked = .running 8 checked := by
      simp [microStep, macroopUfret, MicroOp.request, MicroOp.control, MicroOp.exec, hchecked]
    have hadd : microStep translate macroopUfret 6 s = .running 7 checked := rfl
    refine ⟨checked, ?_, fun index hindex => Function.update_of_ne hindex _ _, rfl, rfl, rfl⟩
    rw [runMicro, hstay]
    dsimp only
    rw [runMicro, hadd]
    dsimp only
    rw [runMicro, hpass]
    exact runMicro_ufretReturn 0 checked

private theorem ufret_returns {rip rflags rsp : BitVec 64} (hs : OnStack base [rip, rflags, rsp] s)
    (hloads : ∀ i < 3, ∀ s', translate s' .read (s.gpr .rsp + BitVec.ofNat 64 (8 * i)) = none)
    (hrip : Canonical rip) :
    ∃ s', execMicro translate macroopUfret s = .completed s' ∧ s'.rip = rip ∧
      s'.rflags = s.rflags &&& ~~~ufretMask ||| rflags &&& ufretMask ∧ s'.gpr .rsp = rsp ∧
      (∀ reg, reg ≠ .rsp → s'.gpr reg = s.gpr reg) ∧ s'.uff = 1 ∧ s'.mem = s.mem := by
  have hprogram : macroopUfret = [] ++ ufretLoads ++ macroopUfret.drop 5 := rfl
  have hrun := runMicro_passes hprogram (passes_ufretLoads hloads) 15
  have hfirst : (execAll ufretLoads s).temp 1 = rip := hs.load (i := 0) (by simp)
  have hsecond : (execAll ufretLoads s).temp 2 = rflags := hs.load (i := 1) (by simp)
  have hthird : (execAll ufretLoads s).temp 3 = rsp := hs.load (i := 2) (by simp)
  obtain ⟨s', hcheck, htemp, hflags, hgpr, hmem⟩ :=
    ufret_check translate (s := execAll ufretLoads s) (hfirst ▸ hrip) rfl rfl
  refine ⟨execAll ufretReturn s', hrun.trans hcheck, ?_, ?_, ?_, ?_, rfl, hmem⟩
  · change s'.temp 1 = rip
    rw [htemp 1 (by decide), hfirst]
  · change s'.rflags &&& ~~~ufretMask ||| s'.temp 2 &&& ufretMask = _
    rw [htemp 2 (by decide), hsecond, hflags]
    rfl
  · change s'.temp 3 = rsp
    rw [htemp 3 (by decide), hthird]
  · intro reg hreg
    have hreg' : (execAll ufretReturn s').gpr reg = s'.gpr reg := Function.update_of_ne hreg _ _
    rw [hreg', hgpr]
    exact Function.update_of_ne hreg _ _

end

/-! ## The stub -/

structure SameBut (base : BitVec 64) (s s' : Cpu) : Prop where
  gpr : ∀ reg, reg ≠ .rsp → s'.gpr reg = s.gpr reg
  rflags : s'.rflags = s.rflags
  above : ∀ addr, base ≤ addr → s'.mem addr = s.mem addr

private theorem SameBut.trans {s' s'' : Cpu} (hfirst : SameBut base s s')
    (hsecond : SameBut base s' s'') : SameBut base s s'' where
  gpr := fun reg hreg => (hsecond.gpr reg hreg).trans (hfirst.gpr reg hreg)
  rflags := hsecond.rflags.trans hfirst.rflags
  above := fun addr haddr => (hsecond.above addr haddr).trans (hfirst.above addr haddr)

private theorem OnStack.rsp_sub (hs : OnStack base words s) :
    s.gpr .rsp - 8 = base - BitVec.ofNat 64 (8 * (words.length + 1)) := by
  rw [hs.rsp, Nat.mul_succ, BitVec.ofNat_add, sub_sub]
  rfl

private theorem OnStack.rsp_add {word : BitVec 64} (hs : OnStack base (word :: words) s) :
    s.gpr .rsp + 8 = base - BitVec.ofNat 64 (8 * words.length) := by
  rw [hs.rsp, List.length_cons, Nat.mul_succ, BitVec.ofNat_add, ← sub_sub]
  exact sub_add_cancel _ _

private theorem OnStack.pushed (hs : OnStack base words s)
    (hbound : 8 * (words.length + 1) < 2 ^ 63) (value : BitVec 64) :
    OnStack base (value :: words) (s.pushed value) := by
  have hsub := hs.rsp_sub
  constructor
  · exact (s.pushed_rsp value).trans hsub
  · simp only [Cpu.pushed, hsub]
    exact hs.words.push (by omega) value

private theorem OnStack.sameBut_pushed (hs : OnStack base words s)
    (hbase : 8 * (words.length + 1) ≤ base.toNat) (value : BitVec 64) :
    SameBut base s (s.pushed value) := by
  refine ⟨fun reg hreg => Function.update_of_ne hreg _ _, rfl, fun addr haddr => ?_⟩
  simp only [Cpu.pushed, hs.rsp_sub]
  exact Memory.store64_of_base_le (by omega) hbase haddr

private theorem OnStack.readable {translate : Cpu → Mode → BitVec 64 → Option Fault} {bytes : Nat}
    (hs : OnStack base words s) (hstack : UserStack translate base bytes)
    (hroom : 8 * words.length ≤ bytes) {i : Nat} (hi : i < words.length) (s' : Cpu) :
    translate s' .read (s.gpr .rsp + BitVec.ofNat 64 (8 * i)) = none := by
  have hsplit : 8 * words.length = 8 * (words.length - i) + 8 * i := by omega
  have haddr : s.gpr .rsp + BitVec.ofNat 64 (8 * i) =
      base - BitVec.ofNat 64 (8 * (words.length - i)) := by
    rw [hs.rsp, hsplit, BitVec.ofNat_add, ← sub_sub, sub_add_cancel]
  rw [haddr]
  exact hstack.load s' _ (by omega) (by omega)

namespace Platform

variable {p : Platform Callee Fault} {bytes : Nat}

private theorem run_append_of_eq {s' : Cpu} {instrs : List (Instr Callee)}
    (hrun : p.run s instrs = .ok s') (instrs' : List (Instr Callee)) :
    p.run s (instrs ++ instrs') = p.run s' instrs' := by
  simp only [run, List.foldlM_append] at hrun ⊢
  rw [hrun]
  rfl

private theorem run_cons_of_eq {s' : Cpu} {instr : Instr Callee} (hexec : p.exec s instr = .ok s')
    (instrs : List (Instr Callee)) : p.run s (instr :: instrs) = p.run s' instrs := by
  simp only [run, List.foldlM_cons, hexec]
  rfl

private theorem push_eq (hstack : UserStack p.translate base bytes) (hs : OnStack base words s)
    (hroom : 8 * (words.length + 1) ≤ bytes) (value : BitVec 64) :
    p.push s value = .ok (s.pushed value) := by
  simp only [push, hs.rsp_sub, hstack.store s (words.length + 1) (Nat.succ_pos _) hroom]

private theorem run_pushes (hstack : UserStack p.translate base bytes) (hbound : bytes < 2 ^ 63)
    (hbase : bytes ≤ base.toNat) {regs : List Gpr} (hregs : .rsp ∉ regs)
    (hs : OnStack base words s) (hroom : 8 * (words.length + regs.length) ≤ bytes) :
    ∃ s', p.run s (regs.map .pushq) = .ok s' ∧
      OnStack base (regs.reverse.map s.gpr ++ words) s' ∧ SameBut base s s' := by
  induction regs generalizing s words with
  | nil => exact ⟨s, rfl, hs, fun _ _ => rfl, rfl, fun _ _ => rfl⟩
  | cons reg regs ih =>
      rw [List.length_cons] at hroom
      rw [List.mem_cons, not_or] at hregs
      have hexec : p.exec s (.pushq reg) = .ok (p.next (s.pushed (s.gpr reg)) (.pushq reg)) := by
        simp only [exec, push_eq hstack hs (by omega)]
        rfl
      have hnext : OnStack base (s.gpr reg :: words)
          (p.next (s.pushed (s.gpr reg)) (.pushq reg)) :=
        let hpushed := hs.pushed (by omega) (s.gpr reg)
        ⟨hpushed.rsp, hpushed.words⟩
      have hsame : SameBut base s (p.next (s.pushed (s.gpr reg)) (.pushq reg)) :=
        let hpushed := hs.sameBut_pushed (by omega) (s.gpr reg)
        ⟨hpushed.gpr, hpushed.rflags, hpushed.above⟩
      obtain ⟨s', hrun, hs', hsame'⟩ := ih hregs.2 hnext (by rw [List.length_cons]; omega)
      have hvalues : regs.reverse.map (p.next (s.pushed (s.gpr reg)) (.pushq reg)).gpr =
          regs.reverse.map s.gpr := by
        apply List.map_congr_left
        intro other hother
        refine hsame.gpr other ?_
        rintro rfl
        exact hregs.2 (List.mem_reverse.1 hother)
      refine ⟨s', ?_, ?_, hsame.trans hsame'⟩
      · rw [List.map_cons, run_cons_of_eq hexec]
        exact hrun
      · rw [hvalues] at hs'
        simpa using hs'

private theorem run_pops (hstack : UserStack p.translate base bytes) {regs : List Gpr}
    (hregs : .rsp ∉ regs) (saved : Gpr → BitVec 64)
    (hs : OnStack base (regs.map saved ++ words) s)
    (hroom : 8 * (regs.length + words.length) ≤ bytes) :
    ∃ s', p.run s (regs.map .popq) = .ok s' ∧ OnStack base words s' ∧ s'.mem = s.mem ∧
      s'.rflags = s.rflags ∧ (∀ reg ∈ regs, s'.gpr reg = saved reg) ∧
      ∀ reg, reg ∉ regs → reg ≠ .rsp → s'.gpr reg = s.gpr reg := by
  induction regs generalizing s with
  | nil => exact ⟨s, rfl, hs, rfl, rfl, by simp, fun _ _ _ => rfl⟩
  | cons reg regs ih =>
      rw [List.length_cons] at hroom
      rw [List.mem_cons, not_or] at hregs
      have hread : p.translate s .read (s.gpr .rsp) = none := by
        rw [hs.rsp]
        exact hstack.load s _ (by simp) (by simp; omega)
      have hvalue : s.mem.load64 (s.gpr .rsp) = saved reg := by
        rw [hs.rsp]
        exact hs.words.1
      let popped := p.next ((s.write (.gpr .rsp) (s.gpr .rsp + 8)).write (.gpr reg) (saved reg))
        (.popq reg)
      have hexec : p.exec s (.popq reg) = .ok popped := by
        simp only [exec, load, hread, hvalue]
        rfl
      have hother : ∀ other, other ≠ reg → other ≠ .rsp → popped.gpr other = s.gpr other := by
        intro other hne hrsp
        simp [popped, next, Cpu.write, Function.update_of_ne hne, Function.update_of_ne hrsp]
      have hpopped : OnStack base (regs.map saved ++ words) popped := by
        refine ⟨?_, hs.words.2⟩
        have hrsp : popped.gpr .rsp = s.gpr .rsp + 8 := by
          simp [popped, next, Cpu.write, Function.update_of_ne hregs.1]
        exact hrsp.trans (OnStack.rsp_add hs)
      obtain ⟨s', hrun, hs', hmem, hflags, hsaved, hkept⟩ := ih hregs.2 hpopped (by omega)
      refine ⟨s', ?_, hs', hmem, hflags, ?_, ?_⟩
      · rw [List.map_cons, run_cons_of_eq hexec]
        exact hrun
      · intro other hmem'
        by_cases hin : other ∈ regs
        · exact hsaved other hin
        · rcases List.mem_cons.1 hmem' with rfl | hin'
          · have hrsp : other ≠ .rsp := fun heq => hregs.1 heq.symm
            rw [hkept other hin hrsp]
            simp [popped, next, Cpu.write]
          · exact absurd hin' hin
      · intro other hout hrsp
        rw [List.mem_cons, not_or] at hout
        rw [hkept other hout.2 hrsp]
        exact hother other hout.1 hrsp

def savedWords (s : Cpu) : List (BitVec 64) := callerSaved.reverse.map s.gpr

structure AtCall (base : BitVec 64) (s : Cpu) (frame : List (BitVec 64)) (called : Cpu) :
    Prop where
  stack : OnStack base (savedWords s ++ frame) called
  rdi : called.gpr .rdi = called.gpr .rsp + 88
  rsi : called.gpr .rsi = called.mem.load64 (called.gpr .rsp + 80)
  rdx : called.gpr .rdx = called.mem.load64 (called.gpr .rsp + 72)
  kept : ∀ reg ∈ calleeSaved, called.gpr reg = s.gpr reg
  rflags : called.rflags = s.rflags &&& ~~~directionFlag
  above : ∀ addr, base ≤ addr → called.mem addr = s.mem addr

private theorem run_stubEntry (hstack : UserStack p.translate base bytes) (hbound : bytes < 2 ^ 63)
    (hbase : bytes ≤ base.toNat) {frame : List (BitVec 64)} (hs : OnStack base frame s)
    (hframe : frame.length = 5) (hroom : 8 * 14 ≤ bytes) :
    ∃ called, p.run s stubEntry = .ok called ∧ AtCall base s frame called := by
  have hcaller : .rsp ∉ callerSaved := by decide
  obtain ⟨pushed, hrun, hpushed, hsame⟩ :=
    run_pushes hstack hbound hbase hcaller hs
      (by rw [hframe]; exact hroom)
  have hlength : (callerSaved.reverse.map s.gpr ++ frame).length = 14 := by
    rw [List.length_append, hframe]
    rfl
  have hread : ∀ i < 14, ∀ s', p.translate s' .read (pushed.gpr .rsp + BitVec.ofNat 64 (8 * i)) =
      none := fun i hi s' =>
    hpushed.readable hstack (by rw [hlength]; exact hroom) (by rw [hlength]; exact hi) s'
  let cleared := p.next { pushed with rflags := pushed.rflags &&& ~~~directionFlag } .cld
  let pointed := p.next (cleared.write (.gpr .rdi) (cleared.gpr .rsp + 88)) (.leaq 88 .rsp .rdi)
  let addressed := p.next (pointed.write (.gpr .rsi) (pointed.mem.load64 (pointed.gpr .rsp + 80)))
    (.movq 80 .rsp .rsi)
  let called := p.next (addressed.write (.gpr .rdx)
    (addressed.mem.load64 (addressed.gpr .rsp + 72))) (.movq 72 .rsp .rdx)
  have haddress : p.exec pointed (.movq 80 .rsp .rsi) = .ok addressed := by
    have hload : p.translate pointed .read (pointed.gpr .rsp + 80) = none :=
      hread 10 (by decide) pointed
    simp only [exec, load, hload]
    rfl
  have hcode : p.exec addressed (.movq 72 .rsp .rdx) = .ok called := by
    have hload : p.translate addressed .read (addressed.gpr .rsp + 72) = none :=
      hread 9 (by decide) addressed
    simp only [exec, load, hload]
    rfl
  refine ⟨called, ?_, ⟨hpushed.rsp, hpushed.words⟩, rfl, rfl, rfl, ?_, ?_, hsame.above⟩
  · have hcleared : p.exec pushed .cld = .ok cleared := rfl
    have hpointed : p.exec cleared (.leaq 88 .rsp .rdi) = .ok pointed := rfl
    rw [stubEntry, run_append_of_eq hrun, run_cons_of_eq hcleared, run_cons_of_eq hpointed,
      run_cons_of_eq haddress, run_cons_of_eq hcode]
    rfl
  · intro reg hreg
    simp only [calleeSaved, List.mem_cons, List.not_mem_nil, or_false] at hreg
    rcases hreg with rfl | rfl | rfl | rfl | rfl | rfl <;> exact hsame.gpr _ (by decide)
  · change pushed.rflags &&& _ = _
    rw [hsame.rflags]

private theorem enter_eq (hstack : UserStack p.translate base bytes) (hs : OnStack base words s)
    (hroom : 8 * (words.length + 1) ≤ bytes) (callee : Callee) :
    p.enter s callee = .ok { s.pushed (s.rip + p.size (.call callee)) with
      rip := p.address callee } := by
  simp only [enter, push_eq hstack hs hroom]
  rfl

structure AfterCall (base : BitVec 64) (words : List (BitVec 64)) (called returned : Cpu) :
    Prop where
  stack : OnStack base words returned
  kept : ∀ reg ∈ calleeSaved, returned.gpr reg = called.gpr reg
  rflags : returned.rflags &&& ~~~ufretMask = called.rflags &&& ~~~ufretMask
  above : ∀ addr, base ≤ addr → returned.mem addr = called.mem addr

private theorem exec_call (hstack : UserStack p.translate base bytes) (hbound : bytes < 2 ^ 63)
    (hbase : bytes ≤ base.toNat) (hs : OnStack base words s)
    (hroom : 8 * (words.length + 1) ≤ bytes) (callee : Callee) :
    ∃ returned, p.exec s (.call callee) = .ok returned ∧ AfterCall base words s returned := by
  let entry : Cpu := { s.pushed (s.rip + p.size (.call callee)) with rip := p.address callee }
  have hexec : p.exec s (.call callee) = .ok ((p.function callee).run entry) := by
    simp only [exec, enter_eq hstack hs hroom]
    rfl
  have hentry : OnStack base ((s.rip + p.size (.call callee)) :: words) entry :=
    let hpushed := hs.pushed (by omega) (s.rip + p.size (.call callee))
    ⟨hpushed.rsp, hpushed.words⟩
  have hsame := hs.sameBut_pushed (by omega) (s.rip + p.size (.call callee))
  have hbelow : ∀ addr, base - BitVec.ofNat 64 (8 * (words.length + 1)) ≤ addr →
      ((p.function callee).run entry).mem addr = entry.mem addr := by
    intro addr haddr
    refine (p.function callee).writesBelow entry addr ?_
    rw [hentry.rsp]
    exact haddr
  refine ⟨_, hexec, ⟨?_, ?_⟩, ?_, (p.function callee).systemFlags entry, ?_⟩
  · rw [(p.function callee).pops, hentry.rsp_add]
  · exact hentry.words.2.congr hbelow (by omega) (by omega)
  · intro reg hreg
    rw [(p.function callee).keeps entry reg hreg]
    exact hsame.gpr reg (not_mem_callerSaved_of_mem_calleeSaved reg hreg).2
  · intro addr haddr
    have hle : base - BitVec.ofNat 64 (8 * (words.length + 1)) ≤ addr := by
      rw [BitVec.le_def, Memory.toNat_sub_depth (by omega)]
      have hbase' : base.toNat ≤ addr.toNat := haddr
      omega
    rw [hbelow addr hle]
    exact hsame.above addr haddr

private theorem statusFlags_and_not_ufretMask (rflags flags : BitVec 64) :
    (rflags &&& ~~~statusFlags ||| flags &&& statusFlags) &&& ~~~ufretMask =
      rflags &&& ~~~ufretMask := by
  have hcleared : ~~~statusFlags &&& ~~~ufretMask = ~~~ufretMask := by decide
  have hset : statusFlags &&& ~~~ufretMask = 0#64 := by decide
  rw [BitVec.and_or_distrib_right, BitVec.and_assoc, hcleared, BitVec.and_assoc, hset,
    BitVec.and_zero, BitVec.or_zero]

private theorem run_stubExit (hstack : UserStack p.translate base bytes) (hroom : 8 * 14 ≤ bytes)
    {saved : Gpr → BitVec 64} {code addr rip rflags rsp : BitVec 64}
    (hs : OnStack base (callerSaved.reverse.map saved ++ [code, addr, rip, rflags, rsp]) s)
    (hrip : Canonical rip) :
    ∃ final, p.run s stubExit = .ok final ∧ final.rip = rip ∧
      final.rflags = s.rflags &&& ~~~ufretMask ||| rflags &&& ufretMask ∧
      final.gpr .rsp = rsp ∧ (∀ reg ∈ callerSaved, final.gpr reg = saved reg) ∧
      (∀ reg ∈ calleeSaved, final.gpr reg = s.gpr reg) ∧ final.uff = 1 ∧ final.mem = s.mem := by
  obtain ⟨popped, hpops, hpopped, hmem, hflags, hsaved, hkept⟩ :=
    run_pops hstack (by decide) saved hs hroom
  let dropped : Cpu :=
    p.next { popped.write (.gpr .rsp) (popped.gpr .rsp + 16) with
      rflags := popped.rflags &&& ~~~statusFlags |||
        p.sumFlags (popped.gpr .rsp) 16 &&& statusFlags } (.addq 16 .rsp)
  have hdrop : p.exec popped (.addq 16 .rsp) = .ok dropped := rfl
  have hdropped : OnStack base [rip, rflags, rsp] dropped := by
    refine ⟨?_, hpopped.words.2.2⟩
    have hsplit : BitVec.ofNat 64 40 = BitVec.ofNat 64 24 + BitVec.ofNat 64 16 := rfl
    have hrsp : popped.gpr .rsp = base - BitVec.ofNat 64 40 := hpopped.rsp
    change popped.gpr .rsp + BitVec.ofNat 64 16 = base - BitVec.ofNat 64 24
    rw [hrsp, hsplit, ← sub_sub, sub_add_cancel]
  have hloads : ∀ i < 3, ∀ s',
      p.translate s' .read (dropped.gpr .rsp + BitVec.ofNat 64 (8 * i)) = none :=
    fun i hi s' => hdropped.readable hstack (by simp; omega) hi s'
  obtain ⟨final, hufret, hfrip, hfflags, hfrsp, hfgpr, huff, hfmem⟩ :=
    ufret_returns hdropped hloads hrip
  have hexec : p.exec dropped .ufret = .ok final := by
    simp only [exec, hufret]
  have hother : ∀ reg, reg ≠ .rsp → final.gpr reg = popped.gpr reg := fun reg hreg =>
    (hfgpr reg hreg).trans (Function.update_of_ne hreg _ _)
  refine ⟨final, ?_, hfrip, ?_, hfrsp, ?_, ?_, huff, hfmem.trans hmem⟩
  · rw [stubExit, run_append_of_eq hpops, run_cons_of_eq hdrop, run_cons_of_eq hexec]
    rfl
  · rw [hfflags, ← hflags]
    exact congrArg (· ||| rflags &&& ufretMask)
      (statusFlags_and_not_ufretMask popped.rflags _)
  · intro reg hreg
    rw [hother reg (ne_rsp_of_mem_callerSaved reg hreg)]
    exact hsaved reg (List.mem_reverse.2 hreg)
  · intro reg hreg
    obtain ⟨hout, hrsp⟩ := not_mem_callerSaved_of_mem_calleeSaved reg hreg
    rw [hother reg hrsp]
    exact hkept reg hout hrsp

end Platform

/-- The flags that delivery, the stub and the handler may change are among those that
`UFRET` takes from the frame. -/
private theorem rflags_restored {rflags called returned : BitVec 64}
    (hcalled : called = rflags &&& ~~~(tfBit ||| rfBit) &&& ~~~directionFlag)
    (hreturned : returned &&& ~~~ufretMask = called &&& ~~~ufretMask) :
    returned &&& ~~~ufretMask ||| rflags &&& ufretMask = rflags := by
  have hmask : ~~~(tfBit ||| rfBit) &&& (~~~directionFlag &&& ~~~ufretMask) = ~~~ufretMask := by
    decide
  rw [hreturned, hcalled, BitVec.and_assoc, BitVec.and_assoc, hmask, and_not_or_and]

structure HandlerEntry (s : Cpu) (addr : BitVec 64) (code : BitVec 8) (entry : Cpu) : Prop where
  frameRip : entry.mem.load64 (entry.gpr .rdi) = s.rip
  frameRflags : entry.mem.load64 (entry.gpr .rdi + 8) = s.rflags
  frameRsp : entry.mem.load64 (entry.gpr .rdi + 16) = s.gpr .rsp
  rsi : entry.gpr .rsi = addr
  rdx : entry.gpr .rdx = code.setWidth 64
  aligned : (entry.gpr .rsp + 8).toNat % 16 = 0

private theorem handlerEntry_pushed {s delivered called : Cpu} {addr : BitVec 64} {code : BitVec 8}
    (hbase : 8 * 15 ≤ (alignedRsp s).toNat)
    (hcalled : Platform.AtCall (alignedRsp s) delivered (frameWords s addr code) called)
    (rip rip' : BitVec 64) :
    HandlerEntry s addr code { called.pushed rip with rip := rip' } := by
  have hlength : (Platform.savedWords delivered ++ frameWords s addr code).length = 14 := rfl
  have hentry := hcalled.stack.pushed (by rw [hlength]; decide) rip
  have hword : ∀ i (hi : i < 14),
      (called.pushed rip).mem.load64 (called.gpr .rsp + BitVec.ofNat 64 (8 * i)) =
        (Platform.savedWords delivered ++ frameWords s addr code)[i] := by
    intro i hi
    rw [hcalled.stack.rsp]
    exact hentry.words.2.load hi
  constructor
  · exact (congrArg _ hcalled.rdi).trans (hword 11 (by decide))
  · change (called.pushed rip).mem.load64 (called.gpr .rdi + 8) = _
    rw [hcalled.rdi, add_assoc]
    exact hword 12 (by decide)
  · change (called.pushed rip).mem.load64 (called.gpr .rdi + 16) = _
    rw [hcalled.rdi, add_assoc]
    exact hword 13 (by decide)
  · exact hcalled.rsi.trans (hcalled.stack.load (i := 10) (by rw [hlength]; decide))
  · exact hcalled.rdx.trans (hcalled.stack.load (i := 9) (by rw [hlength]; decide))
  · have hmod := alignedRsp_toNat_mod s
    change ((called.pushed rip).gpr .rsp + 8).toNat % 16 = 0
    have hrsp : called.gpr .rsp = alignedRsp s - BitVec.ofNat 64 112 := hcalled.stack.rsp
    rw [Cpu.pushed_rsp, sub_add_cancel, hrsp, Memory.toNat_sub_depth (by omega)]
    omega

/-- A user fault is delivered, handled and returned from without a trace in the
interrupted program. -/
theorem user_fault_transparent (p : Platform Handler Fault) (handler : Handler) (s : Cpu)
    (addr : BitVec 64) (code : BitVec 8) (huser : UserHalf p.translate)
    (hstack : UserStack p.translate (alignedRsp s) (8 * 15)) (hrip : Canonical s.rip)
    (huff : s.uff = 1) :
    ∃ delivered called entry final,
      execMicro p.translate userFaultRom (userFaultInvoke s addr code) = .completed delivered ∧
      delivered.rip = s.ufhandler ∧
      p.run delivered stubEntry = .ok called ∧ p.enter called handler = .ok entry ∧
      HandlerEntry s addr code entry ∧
      p.run delivered handler.stub = .ok final ∧
      final.rip = s.rip ∧ final.rflags = s.rflags ∧ (∀ reg, final.gpr reg = s.gpr reg) ∧
      final.uff = s.uff ∧
      ∀ other, alignedRsp s ≤ other →
        delivered.mem other = s.mem other ∧ entry.mem other = s.mem other ∧
          final.mem other = s.mem other := by
  have hbase := hstack.le_toNat huser s (by decide) (by decide)
  have hdelivered := delivered_execAll s addr code (by omega)
  have hcompletes : execMicro p.translate userFaultRom (userFaultInvoke s addr code) = _ :=
    userFault_completes fun i hi => hstack.store _ (i + 1) (Nat.succ_pos i) (by omega)
  generalize execAll userFaultRom (userFaultInvoke s addr code) = delivered at *
  have hframe : OnStack (alignedRsp s) (frameWords s addr code) delivered :=
    ⟨hdelivered.rsp, hdelivered.words⟩
  obtain ⟨called, hentry, hcalled⟩ :=
    Platform.run_stubEntry hstack (by decide) hbase hframe rfl (by decide)
  have hroom : 8 * ((Platform.savedWords delivered ++ frameWords s addr code).length + 1) ≤
      8 * 15 := le_refl (8 * 15)
  obtain ⟨returned, hcall, hreturned⟩ :=
    Platform.exec_call hstack (by decide) hbase hcalled.stack hroom handler
  obtain ⟨final, hexit, hfrip, hfflags, hfrsp, hfsaved, hfkept, hfuff, hfmem⟩ :=
    Platform.run_stubExit hstack (by decide) hreturned.stack hrip
  have hpushed := hcalled.stack.sameBut_pushed (hroom.trans hbase)
    (called.rip + p.size (.call handler))
  refine ⟨delivered, called, _, final, hcompletes, hdelivered.rip, hentry,
    Platform.enter_eq hstack hcalled.stack hroom handler,
    handlerEntry_pushed hbase hcalled _ _, ?_, hfrip, ?_, ?_, hfuff.trans huff.symm, ?_⟩
  · rw [handler.stub_eq, ufaultStub, Platform.run_append_of_eq hentry,
      Platform.run_cons_of_eq hcall]
    exact hexit
  · rw [hfflags]
    refine rflags_restored ?_ hreturned.rflags
    rw [hcalled.rflags, hdelivered.rflags]
  · intro reg
    rcases rsp_or_saved reg with rfl | hcaller | hcallee
    · exact hfrsp
    · rw [hfsaved reg hcaller, hdelivered.gpr reg (ne_rsp_of_mem_callerSaved reg hcaller)]
    · have hrsp := (not_mem_callerSaved_of_mem_calleeSaved reg hcallee).2
      rw [hfkept reg hcallee, hreturned.kept reg hcallee, hcalled.kept reg hcallee,
        hdelivered.gpr reg hrsp]
  · intro other hother
    have habove : called.mem other = s.mem other :=
      (hcalled.above other hother).trans (hdelivered.above other hother)
    refine ⟨hdelivered.above other hother, (hpushed.above other hother).trans habove, ?_⟩
    rw [hfmem, hreturned.above other hother, habove]

def returningFunction : CFunction where
  run := fun s =>
    { s with
      rip := s.mem.load64 (s.gpr .rsp)
      gpr := Function.update s.gpr .rsp (s.gpr .rsp + 8) }
  returns := fun _ => rfl
  pops := fun s => by simp
  keeps := fun _ reg hreg =>
    Function.update_of_ne (not_mem_callerSaved_of_mem_calleeSaved reg hreg).2 _ _
  writesBelow := fun _ _ _ => rfl
  systemFlags := fun _ => rfl

def lowerHalfPlatform : Platform Handler Unit where
  translate := fun _ _ addr => if addr.toNat < 2 ^ 47 then none else some ()
  size := fun _ => 4
  sumFlags := fun _ _ => 0
  address := fun _ => 0x401000
  function := fun _ => returningFunction

private theorem userHalf_lowerHalfPlatform : UserHalf lowerHalfPlatform.translate := by
  intro _ _ addr hnone
  by_contra hhigh
  simp only [lowerHalfPlatform, if_neg hhigh] at hnone
  cases hnone

private theorem userStack_lowerHalfPlatform :
    UserStack lowerHalfPlatform.translate (alignedRsp interruptedCpu) (8 * 15) := by
  have hbase : (alignedRsp interruptedCpu).toNat = 0x7FFF0000 := rfl
  have hword : ∀ words, 8 * words ≤ 8 * 15 →
      (alignedRsp interruptedCpu - BitVec.ofNat 64 (8 * words)).toNat < 2 ^ 47 := by
    intro words hwords
    rw [Memory.toNat_sub_depth (by omega), hbase]
    omega
  constructor
  · intro _ words _ hwords
    simp only [lowerHalfPlatform, hword words hwords, if_true]
  · intro _ words _ hwords
    simp only [lowerHalfPlatform, hword words hwords, if_true]

theorem user_fault_transparent_returning :
    ∃ delivered final,
      execMicro lowerHalfPlatform.translate userFaultRom
        (userFaultInvoke interruptedCpu 0x5000 2) = .completed delivered ∧
      lowerHalfPlatform.run delivered Handler.ufaultHandler.stub = .ok final ∧
      final.rip = 0x400100 ∧ final.rflags = 0x10346 ∧ final.uff = 1 := by
  obtain ⟨delivered, -, -, final, hdelivered, -, -, -, -, hrun, hrip, hflags, -, huff, -⟩ :=
    user_fault_transparent lowerHalfPlatform .ufaultHandler interruptedCpu 0x5000 2
      userHalf_lowerHalfPlatform userStack_lowerHalfPlatform (.inl (by decide)) rfl
  exact ⟨delivered, final, hdelivered, hrun, hrip, hflags, huff⟩

end UserPaging.Gem5
