import UserPaging.Linux.Ufault

/-!
# Tasks and CPUs

What a step can do, and the part of every invariant that is about scheduling: a
running task has one CPU, only created tasks run, and without the CPU feature no
task ever has `TIF_UFAULT`.
-/

namespace UserPaging.Linux

open UserPaging.Foundation

variable {Task Cpu : Type*}

/-! ## Enabling -/

def ControlPoint.enabling : ControlPoint → Bool
  | .setHandlerMsr _ | .setHandlerField _ | .enable => true
  | .user | .disable | .exit _ => false

private theorem prctlStatement_enabling {cpu cpu' : CpuState} {thread thread' : Thread}
    {point point' : ControlPoint}
    (hstatement : prctlStatement cpu thread point = some (cpu', thread', point'))
    (henabling : point'.enabling = true) : point.enabling = true := by
  cases point <;> simp_all [prctlStatement, ControlPoint.enabling]
  case disable | exit =>
      obtain ⟨-, -, rfl⟩ := hstatement
      simp at henabling

theorem prctlStatement_tifUfault {cpu cpu' : CpuState} {thread thread' : Thread}
    {point point' : ControlPoint}
    (hstatement : prctlStatement cpu thread point = some (cpu', thread', point'))
    (henabled : thread'.tifUfault = true) : thread.tifUfault = true ∨ point = .enable := by
  cases point <;> simp only [prctlStatement, Option.some.injEq, Prod.mk.injEq,
    reduceCtorEq] at hstatement
  case enable => exact .inr rfl
  case disable =>
      obtain ⟨-, rfl, -⟩ := hstatement
      simp [disableUfault] at henabled
  all_goals
    obtain ⟨-, rfl, -⟩ := hstatement
    exact .inl henabled

theorem prctlStatement_uff {cpu cpu' : CpuState} {thread thread' : Thread}
    {point point' : ControlPoint}
    (hstatement : prctlStatement cpu thread point = some (cpu', thread', point')) :
    cpu'.uff = cpu.uff := by
  cases point <;> simp only [prctlStatement, Option.some.injEq, Prod.mk.injEq,
    reduceCtorEq] at hstatement
  case enable =>
      obtain ⟨rfl, -, -⟩ := hstatement
      cases htif : thread.tifUfault <;> simp [enableUfault, htif]
  case disable =>
      obtain ⟨rfl, -, -⟩ := hstatement
      cases htif : thread.tifUfault <;> simp [disableUfault, htif]
  all_goals
    obtain ⟨rfl, -, -⟩ := hstatement
    rfl

/-! ## What `switch_ufault` can do -/

theorem switchUfault_thread (feature : Bool) (cpu : CpuState) (prev next : Thread) :
    ∃ uff, (switchUfault feature cpu prev next).2 = { prev with uff := uff } := by
  refine ⟨(switchUfault feature cpu prev next).2.uff, ?_⟩
  rcases prev with ⟨prevTif, prevHandler, prevUff⟩
  rcases next with ⟨nextTif, nextHandler, nextUff⟩
  cases feature <;> cases prevTif <;> cases nextTif <;> cases nextUff <;>
    simp [switchUfault] <;> split <;> rfl

@[simp] theorem switchUfault_tifUfault (feature : Bool) (cpu : CpuState)
    (prev next : Thread) :
    (switchUfault feature cpu prev next).2.tifUfault = prev.tifUfault := by
  obtain ⟨uff, huff⟩ := switchUfault_thread feature cpu prev next
  rw [huff]

/-- Apart from UFF, an enabled `next` has its handler loaded and the switch between
two different flags toggles `CR4.UFAULT`. -/
theorem switchUfault_cpu (cpu : CpuState) (prev next : Thread) :
    ∃ uff, (switchUfault true cpu prev next).1 =
      { (if next.tifUfault != prev.tifUfault then cpu.cr4ToggleBits x86Cr4Ufault else cpu) with
        msrUfaultHandler :=
          if next.tifUfault then next.ufaultHandler else cpu.msrUfaultHandler
        uff := uff } := by
  have hmsr : (if next.tifUfault != prev.tifUfault then cpu.cr4ToggleBits x86Cr4Ufault
      else cpu).msrUfaultHandler = cpu.msrUfaultHandler := by
    split <;> simp
  simp only [switchUfault, Bool.not_true, Bool.false_eq_true, if_false]
  generalize (if next.tifUfault != prev.tifUfault then cpu.cr4ToggleBits x86Cr4Ufault
    else cpu) = toggled at hmsr ⊢
  generalize (if prev.tifUfault then { prev with uff := toggled.testuf } else prev) = saved
  by_cases hnext : next.tifUfault = true
  · simp only [hnext, if_true]
    split
    · split <;> exact ⟨_, rfl⟩
    · exact ⟨_, rfl⟩
  · simp only [hnext, Bool.false_eq_true, if_false, ← hmsr]
    exact ⟨toggled.uff, rfl⟩

theorem switchUfault_uff_of_disabled (feature : Bool) (cpu : CpuState) (prev : Thread)
    {next : Thread} (hnext : next.tifUfault = false) :
    (switchUfault feature cpu prev next).1.uff = cpu.uff := by
  cases feature <;> cases hprev : prev.tifUfault <;> simp [switchUfault, hnext, hprev]

/-! ## What a step can do -/

section

variable [DecidableEq Task] [DecidableEq Cpu]

inductive Moves (feature : Bool) (state : State Task Cpu) :
    Label Task Cpu → State Task Cpu → Prop where
  | fork {cpu : Cpu} {child : Task} (huser : state.point (state.current cpu) = .user)
      (hnew : state.created child = false) :
      Moves feature state (.fork cpu child) (state.fork cpu child)
  | contextSwitch {cpu : Cpu} {next : Task} (hcreated : state.created next = true)
      (hwaiting : state.onCpu next = none) :
      Moves feature state (.contextSwitch cpu next) (state.contextSwitch feature cpu next)
  | prctl {cpu : Cpu} {arg2 arg3 arg4 arg5 : BitVec 64}
      (huser : state.point (state.current cpu) = .user) :
      Moves feature state (.prctl cpu arg2 arg3 arg4 arg5)
        (state.enterPrctl cpu (prctl feature (state.running cpu) arg2 arg3 arg4 arg5))
  | statement {cpu : Cpu} {outcome : CpuState × Thread × ControlPoint}
      (hstatement : prctlStatement (state.cpu cpu) (state.running cpu)
        (state.point (state.current cpu)) = some outcome) :
      Moves feature state (.statement cpu) (state.runStatement cpu outcome)
  | stuf {cpu : Cpu} (huser : state.point (state.current cpu) = .user) :
      Moves feature state (.stuf cpu) (state.setUff cpu true)
  | cluf {cpu : Cpu} (huser : state.point (state.current cpu) = .user) :
      Moves feature state (.cluf cpu) (state.setUff cpu false)
  | ufret {cpu : Cpu} (huser : state.point (state.current cpu) = .user) :
      Moves feature state (.ufret cpu) (state.setUff cpu true)
  | deliver {cpu : Cpu} (huser : state.point (state.current cpu) = .user)
      (hdeliver : (state.cpu cpu).canDeliver = true) :
      Moves feature state (.deliver cpu) (state.setUff cpu false)

theorem moves_of_step {feature : Bool} {state next : State Task Cpu}
    {label : Label Task Cpu} (hstep : step feature state label = some next) :
    Moves feature state label next := by
  cases label with
  | statement cpu =>
      simp only [step, Option.map_eq_some_iff] at hstep
      obtain ⟨outcome, hstatement, rfl⟩ := hstep
      exact .statement hstatement
  | fork cpu child | contextSwitch cpu task | deliver cpu =>
      simp only [step, Option.ite_none_right_eq_some, Option.some.injEq] at hstep
      obtain ⟨⟨hleft, hright⟩, rfl⟩ := hstep
      constructor <;> assumption
  | prctl cpu arg2 arg3 arg4 arg5 | stuf cpu | cluf cpu | ufret cpu =>
      simp only [step, Option.ite_none_right_eq_some, Option.some.injEq] at hstep
      obtain ⟨huser, rfl⟩ := hstep
      constructor
      assumption

end

/-! ## The invariant of scheduling -/

structure Booted (state : State Task Cpu) : Prop where
  created : ∀ cpu, state.created (state.current cpu) = true
  onCpu : ∀ task cpu, state.onCpu task = some cpu ↔ state.current cpu = task
  disabled : ∀ task, (state.thread task).tifUfault = false
  user : ∀ task, (state.point task).enabling = false
  lastUff : ∀ task, state.lastUff task = false

def coldBoot : State Nat Unit where
  thread := fun _ => ⟨false, 0, false⟩
  point := fun _ => .user
  created := fun task => task = 0
  onCpu := fun task => if task = 0 then some () else none
  current := fun _ => 0
  cpu := fun _ => ⟨0, 0, 0, false⟩
  lastUff := fun _ => false

theorem coldBoot_booted : Booted coldBoot where
  created := fun _ => rfl
  onCpu := fun task ⟨⟩ => by simp [coldBoot, eq_comm]
  disabled := fun _ => rfl
  user := fun _ => rfl
  lastUff := fun _ => rfl

structure Scheduled (feature : Bool) (state : State Task Cpu) : Prop where
  onCpu : ∀ task cpu, state.onCpu task = some cpu ↔ state.current cpu = task
  created : ∀ cpu, state.created (state.current cpu) = true
  supported : feature = false → ∀ task,
    (state.thread task).tifUfault = false ∧ (state.point task).enabling = false

namespace Scheduled

variable {feature : Bool} {state : State Task Cpu}

theorem of_booted (hboot : Booted state) : Scheduled feature state where
  onCpu := hboot.onCpu
  created := hboot.created
  supported := fun _ task => ⟨hboot.disabled task, hboot.user task⟩

theorem feature_of_enabled (hsched : Scheduled feature state) {task : Task}
    (henabled : (state.thread task).tifUfault = true) : feature = true := by
  by_contra hfeature
  simp [(hsched.supported (by simpa using hfeature) task).1] at henabled

private theorem onCpu_current (hsched : Scheduled feature state) (cpu : Cpu) :
    state.onCpu (state.current cpu) = some cpu :=
  (hsched.onCpu _ _).2 rfl

private theorem current_injective (hsched : Scheduled feature state) {cpu other : Cpu}
    (hsame : state.current cpu = state.current other) : cpu = other := by
  have hcpu := hsched.onCpu_current cpu
  rw [hsame, hsched.onCpu_current other] at hcpu
  exact (Option.some.inj hcpu).symm

theorem current_ne (hsched : Scheduled feature state) {cpu other : Cpu} (hother : other ≠ cpu) :
    state.current other ≠ state.current cpu :=
  fun hsame => hother (hsched.current_injective hsame)

theorem current_ne_of_not_created (hsched : Scheduled feature state) {task : Task}
    (hnew : state.created task = false) (cpu : Cpu) : state.current cpu ≠ task := by
  rintro rfl
  simp [hsched.created cpu] at hnew

theorem current_ne_of_waiting (hsched : Scheduled feature state) {task : Task}
    (hwaiting : state.onCpu task = none) (cpu : Cpu) : state.current cpu ≠ task := by
  rintro rfl
  simp [hsched.onCpu_current cpu] at hwaiting

variable [DecidableEq Task]

theorem fork (hsched : Scheduled feature state) (cpu : Cpu) {child : Task}
    (hnew : state.created child = false) :
    Scheduled feature (state.fork cpu child) where
  onCpu := hsched.onCpu
  created := fun other => by
    have hne := hsched.current_ne_of_not_created hnew other
    simpa [State.fork, Function.update_of_ne hne] using hsched.created other
  supported := fun hfeature task => by
    by_cases htask : task = child
    · subst htask
      simp [State.fork, clearUfault, ControlPoint.enabling]
    · simpa [State.fork, htask] using hsched.supported hfeature task

theorem enterPrctl (hsched : Scheduled feature state) (cpu : Cpu)
    (arg2 arg3 arg4 arg5 : BitVec 64) :
    Scheduled feature
      (state.enterPrctl cpu (prctl feature (state.running cpu) arg2 arg3 arg4 arg5)) where
  onCpu := hsched.onCpu
  created := hsched.created
  supported := fun hfeature task => by
    refine ⟨(hsched.supported hfeature task).1, ?_⟩
    by_cases htask : task = state.current cpu
    · subst htask hfeature
      simp only [State.enterPrctl, Function.update_self, Linux.prctl, prctlUfault]
      split <;> rfl
    · simpa [State.enterPrctl, htask] using (hsched.supported hfeature task).2

variable [DecidableEq Cpu]

theorem setUff (hsched : Scheduled feature state) (cpu : Cpu) (value : Bool) :
    Scheduled feature (state.setUff cpu value) :=
  ⟨hsched.onCpu, hsched.created, hsched.supported⟩

private theorem contextSwitch_onCpu (hsched : Scheduled feature state) (cpu : Cpu) {next : Task}
    (hwaiting : state.onCpu next = none) (task : Task) (other : Cpu) :
    (state.contextSwitch feature cpu next).onCpu task = some other ↔
      (state.contextSwitch feature cpu next).current other = task := by
  have hnext := hsched.current_ne_of_waiting hwaiting
  simp only [State.contextSwitch, Function.update_apply]
  by_cases htask : task = next
  · subst htask
    by_cases hother : other = cpu
    · simp [hother]
    · simp [hother, hnext other, Ne.symm hother]
  · by_cases hprev : task = state.current cpu
    · subst hprev
      by_cases hother : other = cpu
      · simp [hother, htask, (hnext cpu).symm]
      · simp [hother, htask, hsched.current_ne hother]
    · by_cases hother : other = cpu
      · subst hother
        simp [htask, hprev, Ne.symm htask, hsched.onCpu task other, Ne.symm hprev]
      · simp [htask, hprev, hother, hsched.onCpu task other]

theorem contextSwitch (hsched : Scheduled feature state) (cpu : Cpu) {next : Task}
    (hcreated : state.created next = true) (hwaiting : state.onCpu next = none) :
    Scheduled feature (state.contextSwitch feature cpu next) where
  onCpu := hsched.contextSwitch_onCpu cpu hwaiting
  created := fun other => by
    by_cases hother : other = cpu
    · simpa [State.contextSwitch, hother] using hcreated
    · simpa [State.contextSwitch, hother] using hsched.created other
  supported := fun hfeature task => by
    refine ⟨?_, (hsched.supported hfeature task).2⟩
    by_cases htask : task = state.current cpu
    · subst htask
      simpa [State.contextSwitch] using (hsched.supported hfeature _).1
    · simpa [State.contextSwitch, htask] using (hsched.supported hfeature task).1

theorem runStatement (hsched : Scheduled feature state) (cpu : Cpu)
    {outcome : CpuState × Thread × ControlPoint}
    (hstatement : prctlStatement (state.cpu cpu) (state.running cpu)
      (state.point (state.current cpu)) = some outcome) :
    Scheduled feature (state.runStatement cpu outcome) where
  onCpu := hsched.onCpu
  created := hsched.created
  supported := fun hfeature task => by
    by_cases htask : task = state.current cpu
    · subst htask
      obtain ⟨hdisabled, henabling⟩ := hsched.supported hfeature (state.current cpu)
      simp only [State.runStatement, Function.update_self]
      constructor
      · by_contra hset
        rcases prctlStatement_tifUfault hstatement (by simpa using hset) with h | h
        · simp [State.running, hdisabled] at h
        · simp [h, ControlPoint.enabling] at henabling
      · by_contra hset
        have h := prctlStatement_enabling hstatement (by simpa using hset)
        simp [h] at henabling
    · simpa [State.runStatement, htask] using hsched.supported hfeature task

theorem step (hsched : Scheduled feature state) {label : Label Task Cpu}
    {next : State Task Cpu} (hstep : Linux.step feature state label = some next) :
    Scheduled feature next := by
  cases moves_of_step hstep with
  | fork huser hnew => exact hsched.fork _ hnew
  | contextSwitch hcreated hwaiting => exact hsched.contextSwitch _ hcreated hwaiting
  | prctl huser => exact hsched.enterPrctl _ _ _ _ _
  | statement hstatement => exact hsched.runStatement _ hstatement
  | stuf huser | cluf huser | ufret huser | deliver huser => exact hsched.setUff _ _

end Scheduled

end UserPaging.Linux
