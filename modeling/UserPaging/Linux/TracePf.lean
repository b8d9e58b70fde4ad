import UserPaging.Foundation.Run
import UserPaging.Gem5.MicroOp

/-!
# Tracing page faults at the entry and at the return

`CONFIG_TRACE_PF` reads the time-stamp counter at the entry of a page fault and
before `iret`, when `ebx` holds a magic number.  The entry hook is part of the
page-fault entry; the return hook is at `native_irq_return_iret`, which interrupts
and exceptions of every vector return by, whichever mode they return to.  (A
non-maskable interrupt of the kernel has an `iretq` of its own; it is not among the
events here.)  Both hooks look at `ebx` alone.

Events nest: a handler is interrupted like any other code.  What a handler does
with the registers is arbitrary, but it restores the ones that were saved at its
entry.
-/

namespace UserPaging.Linux.TracePf

open UserPaging.Foundation
open UserPaging.Gem5 (Gpr)

abbrev Regs := Gpr → BitVec 64

def pfTracingMagic : BitVec 32 := 0xb141a52a

def x86TrapPf : BitVec 8 := 14

def ebx (regs : Regs) : BitVec 32 := (regs .rbx).setWidth 32

/-! ## The hooks -/

def rdtsc (tsc : BitVec 64) (regs : Regs) : Regs :=
  Function.update (Function.update regs .rax ((tsc.setWidth 32).setWidth 64)) .rdx (tsc >>> 32)

def rdtscp (tsc : BitVec 64) (aux : BitVec 32) (regs : Regs) : Regs :=
  Function.update (rdtsc tsc regs) .rcx (aux.setWidth 64)

def joinHalves (regs : Regs) : Regs :=
  Function.update (Function.update regs .rdx (regs .rdx <<< 32)) .rax
    (regs .rax ||| regs .rdx <<< 32)

/-- The hook at the entry of the handler for `vector`.  Of the alternatives only the one with
`rdtscp` differs in what it does to the registers; the other two differ in fences. -/
def entryHook (hasRdtscp : Bool) (vector : BitVec 8) (tsc : BitVec 64) (aux : BitVec 32)
    (regs : Regs) : Regs :=
  if vector = x86TrapPf then
    if ebx regs ≠ pfTracingMagic then regs
    else if hasRdtscp then joinHalves (rdtscp tsc aux regs)
    else joinHalves (rdtsc tsc regs)
  else regs

/-- The hook at `native_irq_return_iret`; `rdx` and `rax` are pushed around it. -/
def returnHook (tsc : BitVec 64) (regs : Regs) : Regs :=
  if ebx regs ≠ pfTracingMagic then regs
  else
    let joined := joinHalves (rdtsc tsc regs)
    let moved := Function.update joined .rcx (joined .rax)
    Function.update (Function.update moved .rax (regs .rax)) .rdx (regs .rdx)

private theorem joinHalves_rax (tsc : BitVec 64) :
    (tsc.setWidth 32).setWidth 64 ||| (tsc >>> 32) <<< 32 = tsc := by
  ext bit hbit
  simp only [BitVec.getElem_or, BitVec.getElem_shiftLeft, BitVec.getElem_setWidth,
    BitVec.getLsbD_setWidth, BitVec.getElem_ushiftRight]
  by_cases hlow : bit < 32
  · simp [hlow, hbit]
  · have hsum : 32 + (bit - 32) = bit := by omega
    simp [hlow, hsum, hbit]

private theorem returnHook_of_ne {regs : Regs} (hmagic : ebx regs ≠ pfTracingMagic)
    (tsc : BitVec 64) :
    returnHook tsc regs = regs := if_pos hmagic

private theorem returnHook_of_magic {regs : Regs} (hmagic : ebx regs = pfTracingMagic)
    (tsc : BitVec 64) : returnHook tsc regs = Function.update regs .rcx tsc := by
  have hjoined : (joinHalves (rdtsc tsc regs)) .rax = tsc := joinHalves_rax tsc
  rw [returnHook, if_neg (not_not_intro hmagic)]
  simp only [hjoined]
  funext reg
  cases reg <;> rfl

private theorem entryHook_of_ne {regs : Regs} (hmagic : ebx regs ≠ pfTracingMagic)
    (hasRdtscp : Bool)
    (vector : BitVec 8) (tsc : BitVec 64) (aux : BitVec 32) :
    entryHook hasRdtscp vector tsc aux regs = regs := by
  rw [entryHook, if_pos hmagic, ite_self]

private theorem joinHalves_of_ne {reg : Gpr} (hrax : reg ≠ .rax) (hrdx : reg ≠ .rdx) (regs : Regs) :
    joinHalves regs reg = regs reg := by
  rw [joinHalves, Function.update_of_ne hrax, Function.update_of_ne hrdx]

private theorem rdtsc_of_ne {reg : Gpr} (hrax : reg ≠ .rax) (hrdx : reg ≠ .rdx) (tsc : BitVec 64)
    (regs : Regs) : rdtsc tsc regs reg = regs reg := by
  rw [rdtsc, Function.update_of_ne hrdx, Function.update_of_ne hrax]

structure EntryTraced (tsc : BitVec 64) (regs saved : Regs) : Prop where
  rax : saved .rax = tsc
  others : ∀ reg, reg ≠ .rax → reg ≠ .rcx → reg ≠ .rdx → saved reg = regs reg

private theorem entryTraced_entryHook {regs : Regs} (hmagic : ebx regs = pfTracingMagic)
    (hasRdtscp : Bool) (tsc : BitVec 64) (aux : BitVec 32) :
    EntryTraced tsc regs (entryHook hasRdtscp x86TrapPf tsc aux regs) := by
  rw [entryHook, if_pos rfl, if_neg (not_not_intro hmagic)]
  split
  · refine ⟨joinHalves_rax tsc, fun reg hrax hrcx hrdx => ?_⟩
    rw [joinHalves_of_ne hrax hrdx, rdtscp, Function.update_of_ne hrcx, rdtsc_of_ne hrax hrdx]
  · refine ⟨joinHalves_rax tsc, fun reg hrax _ hrdx => ?_⟩
    rw [joinHalves_of_ne hrax hrdx, rdtsc_of_ne hrax hrdx]

private theorem ebx_entryHook (hasRdtscp : Bool) (vector : BitVec 8) (tsc : BitVec 64)
    (aux : BitVec 32) (regs : Regs) :
    ebx (entryHook hasRdtscp vector tsc aux regs) = ebx regs := by
  by_cases hmagic : ebx regs = pfTracingMagic
  · by_cases hvector : vector = x86TrapPf
    · subst hvector
      have hrbx := (entryTraced_entryHook hmagic hasRdtscp tsc aux).others .rbx (by decide)
        (by decide) (by decide)
      rw [ebx, hrbx, ebx]
    · rw [entryHook, if_neg hvector]
  · rw [entryHook_of_ne hmagic]

/-! ## Nested events -/

structure Frame where
  vector : BitVec 8
  user : Bool
  interrupted : Regs
  entryTsc : BitVec 64
  saved : Regs

structure Return where
  frame : Frame
  returnTsc : BitVec 64
  regs : Regs

structure Machine where
  regs : Regs
  user : Bool
  frames : List Frame
  returned : List Return

inductive Action where
  /-- The program or the handler that runs changes the registers. -/
  | code (regs : Regs)
  /-- The program enters or leaves the kernel by itself. -/
  | mode (user : Bool)
  | enter (vector : BitVec 8) (tsc : BitVec 64) (aux : BitVec 32)
  | leave (tsc : BitVec 64)

namespace Machine

def start (regs : Regs) (user : Bool) : Machine := ⟨regs, user, [], []⟩

def step (hasRdtscp : Bool) (s : Machine) : Action → Option Machine
  | .code regs => some { s with regs := regs }
  | .mode user =>
      match s.frames with
      | [] => some { s with user := user }
      | _ :: _ => none
  | .enter vector tsc aux =>
      let saved := entryHook hasRdtscp vector tsc aux s.regs
      some
        { s with
          regs := saved
          user := false
          frames := ⟨vector, s.user, s.regs, tsc, saved⟩ :: s.frames }
  | .leave tsc =>
      match s.frames with
      | [] => none
      | frame :: frames =>
          let regs := returnHook tsc frame.saved
          some
            { regs := regs
              user := frame.user
              frames := frames
              returned := ⟨frame, tsc, regs⟩ :: s.returned }

/-- The event may be taken here: a program that holds the magic number has a page fault in
user mode. -/
def Fits (s : Machine) : Action → Prop
  | .enter vector _ _ => ebx s.regs = pfTracingMagic → vector = x86TrapPf ∧ s.user = true
  | .code _ | .mode _ | .leave _ => True

end Machine

def Frame.Asked (frame : Frame) : Prop :=
  frame.vector = x86TrapPf ∧ frame.user = true ∧ ebx frame.interrupted = pfTracingMagic

structure Return.Invisible (r : Return) : Prop where
  asked : r.frame.Asked → r.regs .rax = r.frame.entryTsc ∧ r.regs .rcx = r.returnTsc ∧
    ∀ reg, reg ≠ .rax → reg ≠ .rcx → reg ≠ .rdx → r.regs reg = r.frame.interrupted reg
  notAsked : ¬ r.frame.Asked → r.regs = r.frame.interrupted

structure Frame.Taken (hasRdtscp : Bool) (frame : Frame) : Prop where
  fits : ebx frame.interrupted = pfTracingMagic →
    frame.vector = x86TrapPf ∧ frame.user = true
  saved : ∃ aux, frame.saved =
    entryHook hasRdtscp frame.vector frame.entryTsc aux frame.interrupted

private theorem Frame.Taken.invisible {hasRdtscp : Bool} {frame : Frame}
    (htaken : frame.Taken hasRdtscp) (tsc : BitVec 64) :
    Return.Invisible ⟨frame, tsc, returnHook tsc frame.saved⟩ := by
  obtain ⟨aux, hsaved⟩ := htaken.saved
  have hebx : ebx frame.saved = ebx frame.interrupted := by rw [hsaved, ebx_entryHook]
  constructor
  · rintro ⟨hvector, -, hmagic⟩
    have htraced : EntryTraced frame.entryTsc frame.interrupted frame.saved := by
      rw [hsaved, hvector]
      exact entryTraced_entryHook hmagic hasRdtscp frame.entryTsc aux
    simp only [returnHook_of_magic (hebx.trans hmagic)]
    refine ⟨htraced.rax, Function.update_self .., fun reg hrax hrcx hrdx => ?_⟩
    rw [Function.update_of_ne hrcx, htraced.others reg hrax hrcx hrdx]
  · intro hasked
    have hne : ebx frame.interrupted ≠ pfTracingMagic := by
      intro hmagic
      obtain ⟨hvector, huser⟩ := htaken.fits hmagic
      exact hasked ⟨hvector, huser, hmagic⟩
    have hreturn : returnHook tsc frame.saved = frame.saved :=
      returnHook_of_ne (hebx.trans_ne hne) tsc
    simp only [hreturn]
    rw [hsaved, entryHook_of_ne hne]

namespace Machine

variable {hasRdtscp : Bool}

structure Traced (hasRdtscp : Bool) (s : Machine) : Prop where
  frames : ∀ frame ∈ s.frames, frame.Taken hasRdtscp
  returned : ∀ r ∈ s.returned, r.Invisible

theorem Traced.step {s next : Machine} {action : Action} (hs : Traced hasRdtscp s)
    (hfits : s.Fits action) (hstep : s.step hasRdtscp action = some next) :
    Traced hasRdtscp next := by
  cases action with
  | code regs =>
      cases hstep
      exact ⟨hs.frames, hs.returned⟩
  | mode user =>
      simp only [Machine.step] at hstep
      split at hstep
      · cases hstep
        exact ⟨hs.frames, hs.returned⟩
      · cases hstep
  | enter vector tsc aux =>
      cases hstep
      refine ⟨fun frame hframe => ?_, hs.returned⟩
      rcases List.mem_cons.1 hframe with rfl | hframe
      · exact ⟨hfits, aux, rfl⟩
      · exact hs.frames frame hframe
  | leave tsc =>
      simp only [Machine.step] at hstep
      split at hstep
      · cases hstep
      · rename_i frame frames hframes
        cases hstep
        have htaken : frame.Taken hasRdtscp :=
          hs.frames frame (by rw [hframes]; exact List.mem_cons_self)
        refine ⟨fun other hother => hs.frames other ?_, fun r hr => ?_⟩
        · rw [hframes]
          exact List.mem_cons_of_mem _ hother
        · rcases List.mem_cons.1 hr with rfl | hr
          · exact htaken.invisible tsc
          · exact hs.returned r hr

private theorem exists_visible (hasRdtscp : Bool) (s : Machine) {vector : BitVec 8}
    (hmagic : ebx s.regs = pfTracingMagic) (hnot : ¬(vector = x86TrapPf ∧ s.user = true)) :
    ∃ tsc aux tsc' s',
      run (step hasRdtscp) s [.enter vector tsc aux, .leave tsc'] = some s' ∧
        ∃ r ∈ s'.returned, ¬ r.Invisible := by
  let saved := entryHook hasRdtscp vector 0 0 s.regs
  let frame : Frame := ⟨vector, s.user, s.regs, 0, saved⟩
  let tsc' := s.regs .rcx + 1
  have hsaved : ebx saved = pfTracingMagic := (ebx_entryHook ..).trans hmagic
  refine ⟨0, 0, tsc', _, rfl, ⟨frame, tsc', returnHook tsc' saved⟩, List.mem_cons_self, ?_⟩
  intro hinvisible
  have hsame := congrFun (hinvisible.notAsked fun hasked => hnot ⟨hasked.1, hasked.2.1⟩) .rcx
  simp only [returnHook_of_magic hsaved, Function.update_self] at hsame
  exact absurd (add_eq_left.1 hsame) (by decide)

/-- In every run whose events are all taken where they may be, every return is as promised;
and in every state of such a run an event taken elsewhere can break the promise. -/
theorem tracing_invisible (hasRdtscp : Bool) (regs : Regs) (user : Bool)
    {actions : List Action} {s : Machine}
    (hfits : StepsMeet (step hasRdtscp) Fits (start regs user) actions)
    (hrun : run (step hasRdtscp) (start regs user) actions = some s) :
    (∀ r ∈ s.returned, r.Invisible) ∧
      ∀ vector, ¬ s.Fits (.enter vector 0 0) →
        ∃ tsc aux tsc' s',
          run (step hasRdtscp) s [.enter vector tsc aux, .leave tsc'] = some s' ∧
            ∃ r ∈ s'.returned, ¬ r.Invisible := by
  have hstart : Traced hasRdtscp (start regs user) := ⟨by simp [start], by simp [start]⟩
  have htraced : Traced hasRdtscp s :=
    run_invariant_of_meets (fun _ _ _ hs hmeets hstep => hs.step hmeets hstep) hstart hfits hrun
  refine ⟨htraced.returned, fun vector hnot => ?_⟩
  rw [Fits, Classical.not_imp] at hnot
  exact exists_visible hasRdtscp s hnot.1 hnot.2

def magicRegs : Regs := fun _ => 0xb141a52a

def nestedFault : List Action :=
  [.enter x86TrapPf 100 0, .code (fun _ => 0), .enter x86TrapPf 110 0, .leave 120, .leave 130]

theorem tracing_invisible_nestedFault :
    ∃ s, run (step true) (start magicRegs true) nestedFault = some s ∧
      s.returned.length = 2 ∧ ∀ r ∈ s.returned, r.Invisible := by
  have hfits : StepsMeet (step true) Fits (start magicRegs true) nestedFault := by
    refine ⟨fun _ => ⟨rfl, rfl⟩, trivial, fun hmagic => ?_, trivial, trivial, trivial⟩
    exact absurd hmagic (by decide)
  exact ⟨_, rfl, rfl, (tracing_invisible true magicRegs true hfits rfl).1⟩

/-- A timer interrupt of a program that has the magic number in `ebx` changes its `rcx`. -/
theorem timer_changes_rcx :
    ∃ s, run (step true) (start magicRegs true) [.enter 236 100 0, .leave 200] = some s ∧
      s.regs .rcx = 200 ∧ magicRegs .rcx ≠ 200 ∧ ∃ r ∈ s.returned, ¬ r.Invisible := by
  refine ⟨_, rfl, by decide, by decide, _, List.mem_cons_self, fun hinvisible => ?_⟩
  have hsame := congrFun (hinvisible.notAsked fun hasked => absurd hasked.1 (by decide)) .rcx
  exact absurd hsame (by decide)

end Machine

end UserPaging.Linux.TracePf
