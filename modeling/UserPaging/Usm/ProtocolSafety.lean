import UserPaging.Usm.Protocol

/-!
# Safety of the first-touch fault protocol

A request goes through four phases, told apart by the status word: nothing is
requested (`0`), a request waits for a frame (`1`), a frame waits for the kernel
(`2`), and the kernel's verdict waits for the daemon (`3`, `5` or `7`).  In each
phase only one party can write the status.
-/

namespace UserPaging.Usm.Protocol

open UserPaging.Foundation

/-! ## Phases -/

/-- The kernel thread has no request outstanding; what it has already written of
the next one is in the page. -/
def KernelAhead (s : Protocol) : Prop :=
  match s.kernel with
  | .user | .readState _ | .awaitIdle _ | .writeVaddr _ => True
  | .writeRemSize fault | .readFlags fault | .postRequest fault =>
      s.page.vaddr = fault.address
  | .writeFlags fault flags => s.page.vaddr = fault.address ∧ hasFlag flags flagSwap = false
  | _ => False

def KernelQuiet (s : Protocol) : Prop :=
  match s.kernel with
  | .user | .readState _ | .awaitIdle _ => True
  | _ => False

def KernelApplies (fault : Fault) (s : Protocol) : Prop :=
  match s.kernel with
  | .awaitAnswer current | .readPaddr current | .lockPte current
  | .readFurtherAlloc current => current = fault
  | .writeStatus current status => current = fault ∧ (status = 3 ∨ status = 5 ∨ status = 7)
  | _ => False

def DaemonIdle (s : Protocol) : Prop :=
  match s.daemon with
  | .idle | .resetState | .closed => True
  | .readState status => status ≠ 1
  | _ => False

/-- The uthread has not seen the request for `address`, or works on it. -/
def DaemonServes (address : BitVec 64) (s : Protocol) : Prop :=
  match s.daemon with
  | .idle | .readState _ | .resetState | .closed | .readVaddr => True
  | .readFlags => s.event.vaddr = address
  | .readRemSize | .alloc _ => s.event.vaddr = address ∧ s.event.isSwap = false
  | .writePaddr _ => s.event.vaddr = address ∧ s.event.length = 0
  | .writeFurtherAlloc _ =>
      s.event.vaddr = address ∧ s.event.length = 0 ∧ s.page.paddr = s.event.paddr
  | .writeStatus _ =>
      s.event.vaddr = address ∧ s.page.furtherAlloc = 0 ∧ s.page.paddr = s.event.paddr
  | _ => False

def DaemonSettles (s : Protocol) : Prop :=
  match s.daemon with
  | .awaitKernel _ => True
  | .readBack _ result | .writeIdle _ result => result = s.page.status
  | _ => False

inductive Phase (s : Protocol) : Prop where
  | vacant (status : s.page.status = 0) (kernel : KernelAhead s) (daemon : DaemonIdle s)
  | requested (fault : Fault) (status : s.page.status = 1)
      (kernel : s.kernel = .awaitAnswer fault) (vaddr : s.page.vaddr = fault.address)
      (daemon : DaemonServes fault.address s)
      (fresh : ∀ transfer ∈ s.submitted, transfer.request < s.requests)
  | submitted (fault : Fault) (status : s.page.status = 2)
      (kernel : KernelApplies fault s) (daemon : ∃ retried, s.daemon = .awaitKernel retried)
      (furtherAlloc : s.page.furtherAlloc = 0)
      (newest : ⟨s.requests, fault.address, s.page.paddr⟩ ∈ s.submitted)
  | settled (status : s.page.status = 3 ∨ s.page.status = 5 ∨ s.page.status = 7)
      (kernel : KernelQuiet s) (daemon : DaemonSettles s)

structure Inv (s : Protocol) : Prop where
  flags : hasFlag s.page.flags flagSwap = false
  phase : Phase s
  nodup : (s.submitted.map Transfer.request).Nodup
  bound : ∀ transfer ∈ s.submitted, transfer.request ≤ s.requests
  matched : ∀ transfer ∈ s.received, transfer ∈ s.submitted

private theorem Inv.of_initial {s : Protocol} (hinitial : s.Initial) : Inv s where
  flags := hinitial.flags
  phase := .vacant hinitial.status (by simp [KernelAhead, hinitial.kernel])
    (by simp [DaemonIdle, hinitial.daemon])
  nodup := by simp [hinitial.submitted]
  bound := by simp [hinitial.submitted]
  matched := by simp [hinitial.received]

/-! ## Steps of the kernel thread -/

variable {s next : Protocol}

private theorem flags_or_write {flags : BitVec 64} (hflags : hasFlag flags flagSwap = false) :
    hasFlag (flags ||| flagWrite) flagSwap = false := by
  rw [hasFlag_or, hflags]
  decide

private theorem Inv.kernel_vacant (hinv : Inv s) (hstatus : s.page.status = 0)
    (hkernel : KernelAhead s) (hdaemon : DaemonIdle s) {outcome : FaultOutcome}
    (hstep : s.kernelStep outcome = some next) : Inv next := by
  cases hpoint : s.kernel <;>
    simp only [kernelStep, hpoint, Option.some.injEq, reduceCtorEq] at hstep
  case readState fault =>
      subst hstep
      split
      · exact { hinv with phase := .vacant hstatus trivial hdaemon }
      · exact { hinv with phase := .vacant hstatus trivial hdaemon }
  case awaitIdle fault =>
      subst hstep
      have hahead : KernelAhead { s with kernel := .writeVaddr fault } := trivial
      rw [if_neg (by simp [hstatus])]
      exact { hinv with phase := .vacant hstatus hahead hdaemon }
  case writeVaddr fault =>
      subst hstep
      exact { hinv with phase := .vacant hstatus rfl hdaemon }
  case writeRemSize fault =>
      have hvaddr : s.page.vaddr = fault.address := by simpa [KernelAhead, hpoint] using hkernel
      subst hstep
      cases hwrite : fault.write
      · exact { hinv with phase := .vacant hstatus hvaddr hdaemon }
      · exact { hinv with phase := .vacant hstatus hvaddr hdaemon }
  case readFlags fault =>
      have hvaddr : s.page.vaddr = fault.address := by simpa [KernelAhead, hpoint] using hkernel
      subst hstep
      exact { hinv with phase := .vacant hstatus ⟨hvaddr, hinv.flags⟩ hdaemon }
  case writeFlags fault flags =>
      obtain ⟨hvaddr, hflags⟩ : s.page.vaddr = fault.address ∧ hasFlag flags flagSwap = false := by
        simpa [KernelAhead, hpoint] using hkernel
      subst hstep
      exact { hinv with
        flags := flags_or_write hflags
        phase := .vacant hstatus hvaddr hdaemon }
  case postRequest fault =>
      have hvaddr : s.page.vaddr = fault.address := by simpa [KernelAhead, hpoint] using hkernel
      subst hstep
      refine { hinv with phase := .requested fault rfl rfl hvaddr ?_ ?_, bound := ?_ }
      · unfold DaemonIdle at hdaemon
        unfold DaemonServes
        split at hdaemon <;> simp_all
      · exact fun transfer hmem => Nat.lt_succ_of_le (hinv.bound transfer hmem)
      · exact fun transfer hmem => Nat.le_succ_of_le (hinv.bound transfer hmem)
  all_goals simp [KernelAhead, hpoint] at hkernel

private theorem Inv.kernel_submitted (hinv : Inv s) {fault : Fault} (hstatus : s.page.status = 2)
    (hkernel : KernelApplies fault s) (hdaemon : ∃ retried, s.daemon = .awaitKernel retried)
    (hfurther : s.page.furtherAlloc = 0)
    (hnewest : ⟨s.requests, fault.address, s.page.paddr⟩ ∈ s.submitted)
    {outcome : FaultOutcome} (hstep : s.kernelStep outcome = some next) : Inv next := by
  cases hpoint : s.kernel <;>
    simp only [kernelStep, hpoint, Option.some.injEq, reduceCtorEq] at hstep
  case awaitAnswer current =>
      have hcurrent : current = fault := by simpa [KernelApplies, hpoint] using hkernel
      subst hstep
      rw [if_neg (by simp [hstatus])]
      exact { hinv with phase := .submitted fault hstatus hcurrent hdaemon hfurther hnewest }
  case readPaddr current =>
      have hcurrent : current = fault := by simpa [KernelApplies, hpoint] using hkernel
      subst hstep hcurrent
      refine { hinv with
        phase := .submitted current hstatus rfl hdaemon hfurther hnewest
        matched := ?_ }
      rintro transfer (_ | ⟨_, hmem⟩)
      · exact hnewest
      · exact hinv.matched transfer hmem
  case lockPte current =>
      have hcurrent : current = fault := by simpa [KernelApplies, hpoint] using hkernel
      cases outcome with
      | applied =>
          cases hstep
          exact { hinv with
            phase := .submitted fault hstatus hcurrent hdaemon hfurther hnewest }
      | alreadyMapped =>
          cases hstep
          have happlies : KernelApplies fault { s with kernel := .writeStatus current 7 } :=
            ⟨hcurrent, by simp⟩
          exact { hinv with
            phase := .submitted fault hstatus happlies hdaemon hfurther hnewest }
      | taskKilled =>
          cases hstep
          have happlies : KernelApplies fault { s with kernel := .writeStatus current 5 } :=
            ⟨hcurrent, by simp⟩
          exact { hinv with
            phase := .submitted fault hstatus happlies hdaemon hfurther hnewest }
  case readFurtherAlloc current =>
      have hcurrent : current = fault := by simpa [KernelApplies, hpoint] using hkernel
      subst hstep
      rw [if_neg (by simp [hfurther])]
      have happlies : KernelApplies fault { s with kernel := .writeStatus current 3 } :=
        ⟨hcurrent, by simp⟩
      exact { hinv with phase := .submitted fault hstatus happlies hdaemon hfurther hnewest }
  case writeStatus current status =>
      obtain ⟨-, hverdict⟩ : current = fault ∧ (status = 3 ∨ status = 5 ∨ status = 7) := by
        simpa [KernelApplies, hpoint] using hkernel
      subst hstep
      obtain ⟨retried, hawait⟩ := hdaemon
      refine { hinv with phase := .settled hverdict trivial ?_ }
      simp [DaemonSettles, hawait]
  all_goals simp [KernelApplies, hpoint] at hkernel

private theorem Inv.kernel_settled (hinv : Inv s)
    (hstatus : s.page.status = 3 ∨ s.page.status = 5 ∨ s.page.status = 7)
    (hkernel : KernelQuiet s) (hdaemon : DaemonSettles s) {outcome : FaultOutcome}
    (hstep : s.kernelStep outcome = some next) : Inv next := by
  cases hpoint : s.kernel <;>
    simp only [kernelStep, hpoint, Option.some.injEq, reduceCtorEq] at hstep
  case readState fault =>
      subst hstep
      split
      · exact { hinv with phase := .settled hstatus trivial hdaemon }
      · exact { hinv with phase := .settled hstatus trivial hdaemon }
  case awaitIdle fault =>
      subst hstep
      have hquiet : KernelQuiet { s with kernel := .awaitIdle fault } := trivial
      have hbusy : s.page.status ≠ 0 := by
        rcases hstatus with h | h | h <;> simp [h]
      rw [if_pos hbusy]
      exact { hinv with phase := .settled hstatus hquiet hdaemon }
  all_goals simp [KernelQuiet, hpoint] at hkernel

theorem Inv.kernelStep (hinv : Inv s) {outcome : FaultOutcome}
    (hstep : s.kernelStep outcome = some next) : Inv next := by
  cases hinv.phase with
  | vacant hstatus hkernel hdaemon =>
      exact hinv.kernel_vacant hstatus hkernel hdaemon hstep
  | requested fault hstatus hkernel hvaddr hdaemon hfresh =>
      simp only [Protocol.kernelStep, hkernel, hstatus, if_pos, Option.some.injEq] at hstep
      subst hstep
      exact { hinv with phase := .requested fault hstatus rfl hvaddr hdaemon hfresh }
  | submitted fault hstatus hkernel hdaemon hfurther hnewest =>
      exact hinv.kernel_submitted hstatus hkernel hdaemon hfurther hnewest hstep
  | settled hstatus hkernel hdaemon =>
      exact hinv.kernel_settled hstatus hkernel hdaemon hstep

/-! ## Steps of the uthread -/

private theorem Inv.daemon_vacant (hinv : Inv s) (hstatus : s.page.status = 0)
    (hkernel : KernelAhead s) (hdaemon : DaemonIdle s) {freePage : Option (BitVec 64)}
    (hstep : s.daemonStep freePage = some next) : Inv next := by
  cases hpoint : s.daemon <;>
    simp only [daemonStep, hpoint, Option.some.injEq, reduceCtorEq] at hstep
  case readState status =>
      have hstale : status ≠ 1 := by simpa [DaemonIdle, hpoint] using hdaemon
      subst hstep
      rw [if_neg hstale]
      split
      · exact { hinv with phase := .vacant hstatus hkernel trivial }
      · exact { hinv with phase := .vacant hstatus hkernel trivial }
  case resetState =>
      subst hstep
      exact { hinv with phase := .vacant hstatus hkernel trivial }
  all_goals simp [DaemonIdle, hpoint] at hdaemon

theorem Inv.submit (hinv : Inv s) {fault : Fault} (hkernel : s.kernel = .awaitAnswer fault)
    (hevent : s.event.vaddr = fault.address) (hfurther : s.page.furtherAlloc = 0)
    (hpaddr : s.page.paddr = s.event.paddr)
    (hfresh : ∀ transfer ∈ s.submitted, transfer.request < s.requests) (retried : Bool) :
    Inv { s with
      page := { s.page with status := 2 }
      daemon := .awaitKernel retried
      submitted := ⟨s.requests, s.event.vaddr, s.event.paddr⟩ :: s.submitted } where
  flags := hinv.flags
  phase := by
    refine .submitted fault rfl ?_ ⟨retried, rfl⟩ hfurther ?_
    · simp [KernelApplies, hkernel]
    · simp [hevent, hpaddr]
  nodup := by
    refine List.nodup_cons.2 ⟨fun hmem => ?_, hinv.nodup⟩
    obtain ⟨transfer, hsubmitted, hrequest⟩ := List.mem_map.1 hmem
    exact absurd hrequest (hfresh transfer hsubmitted).ne
  bound := by
    rintro transfer (_ | ⟨_, hmem⟩)
    · exact Nat.le_refl _
    · exact hinv.bound transfer hmem
  matched := fun transfer hmem => List.mem_cons_of_mem _ (hinv.matched transfer hmem)

private theorem Inv.daemon_requested (hinv : Inv s) {fault : Fault} (hstatus : s.page.status = 1)
    (hkernel : s.kernel = .awaitAnswer fault) (hvaddr : s.page.vaddr = fault.address)
    (hdaemon : DaemonServes fault.address s)
    (hfresh : ∀ transfer ∈ s.submitted, transfer.request < s.requests)
    {freePage : Option (BitVec 64)} (hstep : s.daemonStep freePage = some next) :
    Inv next := by
  cases hpoint : s.daemon <;>
    simp only [daemonStep, hpoint, Option.some.injEq, reduceCtorEq] at hstep
  case readState status =>
      subst hstep
      have hserves (daemon : DaemonPoint) (h : DaemonServes fault.address { s with daemon }) :
          Inv { s with daemon } :=
        { hinv with phase := .requested fault hstatus hkernel hvaddr h hfresh }
      split
      · exact hserves _ trivial
      · split
        · exact hserves _ trivial
        · exact hserves _ trivial
  case resetState =>
      subst hstep
      exact { hinv with phase := .requested fault hstatus hkernel hvaddr trivial hfresh }
  case readVaddr =>
      subst hstep
      exact { hinv with phase := .requested fault hstatus hkernel hvaddr hvaddr hfresh }
  case readFlags =>
      have hevent : s.event.vaddr = fault.address := by
        simpa [DaemonServes, hpoint] using hdaemon
      subst hstep
      rw [if_neg (by simp [hinv.flags])]
      exact { hinv with
        phase := .requested fault hstatus hkernel hvaddr ⟨hevent, hinv.flags⟩ hfresh }
  case readRemSize =>
      obtain ⟨hevent, hswap⟩ : s.event.vaddr = fault.address ∧ s.event.isSwap = false := by
        simpa [DaemonServes, hpoint] using hdaemon
      subst hstep
      rw [if_neg (by simp [hswap])]
      exact { hinv with
        phase := .requested fault hstatus hkernel hvaddr ⟨hevent, hswap⟩ hfresh }
  case alloc retried =>
      have hserves : s.event.vaddr = fault.address ∧ s.event.isSwap = false := by
        simpa [DaemonServes, hpoint] using hdaemon
      cases freePage with
      | some frame =>
          cases hstep
          exact { hinv with
            phase := .requested fault hstatus hkernel hvaddr ⟨hserves.1, rfl⟩ hfresh }
      | none =>
          cases hstep
          cases retried
          · exact { hinv with
              phase := .requested fault hstatus hkernel hvaddr hserves hfresh }
          · exact { hinv with
              phase := .requested fault hstatus hkernel hvaddr trivial hfresh }
  case writePaddr retried =>
      obtain ⟨hevent, hlength⟩ : s.event.vaddr = fault.address ∧ s.event.length = 0 := by
        simpa [DaemonServes, hpoint] using hdaemon
      subst hstep
      exact { hinv with
        phase := .requested fault hstatus hkernel hvaddr ⟨hevent, hlength, rfl⟩ hfresh }
  case writeFurtherAlloc retried =>
      obtain ⟨hevent, hlength, hpaddr⟩ : s.event.vaddr = fault.address ∧
          s.event.length = 0 ∧ s.page.paddr = s.event.paddr := by
        simpa [DaemonServes, hpoint] using hdaemon
      subst hstep
      have hnone : s.event.length.setWidth 32 = 0 := by rw [hlength]; rfl
      exact { hinv with
        phase := .requested fault hstatus hkernel hvaddr ⟨hevent, hnone, hpaddr⟩ hfresh }
  case writeStatus retried =>
      obtain ⟨hevent, hfurther, hpaddr⟩ : s.event.vaddr = fault.address ∧
          s.page.furtherAlloc = 0 ∧ s.page.paddr = s.event.paddr := by
        simpa [DaemonServes, hpoint] using hdaemon
      subst hstep
      exact hinv.submit hkernel hevent hfurther hpaddr hfresh retried
  all_goals simp [DaemonServes, hpoint] at hdaemon

private theorem Inv.daemon_settled (hinv : Inv s)
    (hstatus : s.page.status = 3 ∨ s.page.status = 5 ∨ s.page.status = 7)
    (hkernel : KernelQuiet s) (hdaemon : DaemonSettles s) {freePage : Option (BitVec 64)}
    (hstep : s.daemonStep freePage = some next) : Inv next := by
  cases hpoint : s.daemon <;>
    simp only [daemonStep, hpoint, Option.some.injEq, reduceCtorEq] at hstep
  case awaitKernel retried =>
      subst hstep
      have hverdict : s.page.status ≠ 2 := by
        rcases hstatus with h | h | h <;> simp [h]
      rw [if_neg hverdict]
      exact { hinv with phase := .settled hstatus hkernel rfl }
  case readBack retried result =>
      have hresult : result = s.page.status := by simpa [DaemonSettles, hpoint] using hdaemon
      subst hstep
      exact { hinv with phase := .settled hstatus hkernel hresult }
  case writeIdle retried result =>
      -- No verdict of the kernel reads as the `1` that makes the uthread allocate again.
      have hresult : result = s.page.status := by simpa [DaemonSettles, hpoint] using hdaemon
      have hdone : DaemonPoint.afterAlloc (if result = 3 then 0 else result) retried = .idle := by
        rcases hstatus with h | h | h <;> simp [DaemonPoint.afterAlloc, hresult, h]
      subst hstep
      rw [hdone]
      refine { hinv with phase := .vacant rfl ?_ trivial }
      unfold KernelQuiet at hkernel
      unfold KernelAhead
      split at hkernel <;> simp_all
  all_goals simp [DaemonSettles, hpoint] at hdaemon

theorem Inv.daemonStep (hinv : Inv s) {freePage : Option (BitVec 64)}
    (hstep : s.daemonStep freePage = some next) : Inv next := by
  cases hinv.phase with
  | vacant hstatus hkernel hdaemon =>
      exact hinv.daemon_vacant hstatus hkernel hdaemon hstep
  | requested fault hstatus hkernel hvaddr hdaemon hfresh =>
      exact hinv.daemon_requested hstatus hkernel hvaddr hdaemon hfresh hstep
  | submitted fault hstatus hkernel hdaemon hfurther hnewest =>
      obtain ⟨retried, hawait⟩ := hdaemon
      simp only [Protocol.daemonStep, hawait, hstatus, if_pos, Option.some.injEq] at hstep
      subst hstep
      exact { hinv with
        phase := .submitted fault hstatus hkernel ⟨retried, rfl⟩ hfurther hnewest }
  | settled hstatus hkernel hdaemon =>
      exact hinv.daemon_settled hstatus hkernel hdaemon hstep

/-! ## Runs -/

theorem Inv.fault (hinv : Inv s) {fault : Fault} (huser : s.kernel = .user) :
    Inv { s with kernel := .readState fault } := by
  cases hinv.phase with
  | vacant hstatus _ hdaemon => exact { hinv with phase := .vacant hstatus trivial hdaemon }
  | requested _ _ hkernel => simp [hkernel] at huser
  | submitted _ _ hkernel => simp [KernelApplies, huser] at hkernel
  | settled hstatus _ hdaemon => exact { hinv with phase := .settled hstatus trivial hdaemon }

theorem Inv.dispatch (hinv : Inv s) (hidle : s.daemon = .idle) :
    Inv { s with daemon := .readState s.page.status } := by
  cases hinv.phase with
  | vacant hstatus hkernel _ =>
      have hseen : DaemonIdle { s with daemon := .readState s.page.status } := by
        simp [DaemonIdle, hstatus]
      exact { hinv with phase := .vacant hstatus hkernel hseen }
  | requested fault hstatus hkernel hvaddr _ hfresh =>
      exact { hinv with phase := .requested fault hstatus hkernel hvaddr trivial hfresh }
  | submitted _ _ _ hdaemon => simp [hidle] at hdaemon
  | settled _ _ hdaemon => simp [DaemonSettles, hidle] at hdaemon

theorem Inv.step (hinv : Inv s) {move : Move} (hstep : s.step move = some next) :
    Inv next := by
  cases move with
  | fault fault =>
      simp only [Protocol.step, Option.ite_none_right_eq_some, Option.some.injEq] at hstep
      obtain ⟨huser, rfl⟩ := hstep
      exact hinv.fault huser
  | kernel outcome => exact hinv.kernelStep hstep
  | dispatch =>
      simp only [Protocol.step, Option.ite_none_right_eq_some, Option.some.injEq] at hstep
      obtain ⟨hidle, rfl⟩ := hstep
      exact hinv.dispatch hidle
  | daemon freePage => exact hinv.daemonStep hstep

/-- The moves of the status word, with the party (the kernel or not) that makes each. -/
inductive StatusMove : Bool → BitVec 32 → BitVec 32 → Prop where
  | request : StatusMove true 0 1
  | submit : StatusMove false 1 2
  | verdict {status : BitVec 32} (hverdict : status = 3 ∨ status = 5 ∨ status = 7) :
      StatusMove true 2 status
  | settle {status : BitVec 32} (hverdict : status = 3 ∨ status = 5 ∨ status = 7) :
      StatusMove false status 0

private theorem Inv.kernel_status (hinv : Inv s) {outcome : FaultOutcome}
    (hstep : s.kernelStep outcome = some next) :
    next.page.status = s.page.status ∨
      StatusMove true s.page.status next.page.status := by
  cases hpoint : s.kernel <;>
    simp only [Protocol.kernelStep, hpoint, Option.some.injEq, reduceCtorEq] at hstep
  case postRequest fault =>
      cases hinv.phase with
      | vacant hstatus _ _ =>
          subst hstep
          rw [hstatus]
          exact .inr .request
      | requested _ _ hkernel => simp [hpoint] at hkernel
      | submitted _ _ hkernel => simp [KernelApplies, hpoint] at hkernel
      | settled _ hkernel => simp [KernelQuiet, hpoint] at hkernel
  case writeStatus fault status =>
      cases hinv.phase with
      | vacant _ hkernel _ => simp [KernelAhead, hpoint] at hkernel
      | requested _ _ hkernel => simp [hpoint] at hkernel
      | submitted _ hstatus hkernel =>
          simp only [KernelApplies, hpoint] at hkernel
          subst hstep
          rw [hstatus]
          exact .inr (.verdict hkernel.2)
      | settled _ hkernel => simp [KernelQuiet, hpoint] at hkernel
  case lockPte fault =>
      cases outcome <;> cases hstep <;> exact .inl rfl
  all_goals
    subst hstep
    exact .inl rfl

private theorem Inv.daemon_status (hinv : Inv s) {freePage : Option (BitVec 64)}
    (hstep : s.daemonStep freePage = some next) :
    next.page.status = s.page.status ∨
      StatusMove false s.page.status next.page.status := by
  cases hpoint : s.daemon <;>
    simp only [Protocol.daemonStep, hpoint, Option.some.injEq, reduceCtorEq] at hstep
  case writeStatus retried =>
      cases hinv.phase with
      | vacant _ _ hdaemon => simp [DaemonIdle, hpoint] at hdaemon
      | requested _ hstatus =>
          subst hstep
          rw [hstatus]
          exact .inr .submit
      | submitted _ _ _ hdaemon => simp [hpoint] at hdaemon
      | settled _ _ hdaemon => simp [DaemonSettles, hpoint] at hdaemon
  case writeIdle retried result =>
      cases hinv.phase with
      | vacant _ _ hdaemon => simp [DaemonIdle, hpoint] at hdaemon
      | requested _ _ _ _ hdaemon => simp [DaemonServes, hpoint] at hdaemon
      | submitted _ _ _ hdaemon => simp [hpoint] at hdaemon
      | settled hstatus _ _ =>
          subst hstep
          exact .inr (.settle hstatus)
  case alloc retried =>
      cases freePage <;> cases hstep <;> exact .inl rfl
  all_goals
    subst hstep
    exact .inl rfl

theorem Inv.status (hinv : Inv s) {move : Move} (hstep : s.step move = some next) :
    next.page.status = s.page.status ∨
      StatusMove move.byKernel s.page.status next.page.status := by
  cases move with
  | fault fault =>
      simp only [Protocol.step, Option.ite_none_right_eq_some, Option.some.injEq] at hstep
      obtain ⟨-, rfl⟩ := hstep
      exact .inl rfl
  | kernel outcome => exact hinv.kernel_status hstep
  | dispatch =>
      simp only [Protocol.step, Option.ite_none_right_eq_some, Option.some.injEq] at hstep
      obtain ⟨-, rfl⟩ := hstep
      exact .inl rfl
  | daemon freePage => exact hinv.daemon_status hstep

/-- The kernel thread waits for the page to become free while the uthread waits
for the kernel to take what it has submitted. -/
def Deadlocked (s : Protocol) : Prop :=
  (∃ fault, s.kernel = .awaitIdle fault) ∧ (∃ retried, s.daemon = .awaitKernel retried) ∧
    s.page.status = 2

private theorem Inv.not_deadlocked (hinv : Inv s) : ¬ s.Deadlocked := by
  rintro ⟨⟨fault, hkernel⟩, -, hstatus⟩
  cases hinv.phase with
  | vacant h _ _ => simp [h] at hstatus
  | requested _ h => simp [h] at hstatus
  | submitted _ _ h => simp [KernelApplies, hkernel] at h
  | settled h _ _ => rcases h with h | h | h <;> simp [h] at hstatus

/-- Neither party is about to do what a first touch never asks for: mapping further
pages, or reading from swap. -/
def OnFirstTouchPath (s : Protocol) : Prop :=
  (∀ fault, s.kernel ≠ .extraPages fault) ∧ s.daemon ≠ .swapIn

private theorem Inv.onFirstTouchPath (hinv : Inv s) : s.OnFirstTouchPath := by
  constructor
  · intro fault hkernel
    cases hinv.phase with
    | vacant _ h _ => simp [KernelAhead, hkernel] at h
    | requested _ _ h => simp [hkernel] at h
    | submitted _ _ h => simp [KernelApplies, hkernel] at h
    | settled _ h _ => simp [KernelQuiet, hkernel] at h
  · intro hdaemon
    cases hinv.phase with
    | vacant _ _ h => simp [DaemonIdle, hdaemon] at h
    | requested _ _ _ _ h => simp [DaemonServes, hdaemon] at h
    | submitted _ _ _ h => simp [hdaemon] at h
    | settled _ _ h => simp [DaemonSettles, hdaemon] at h

/--
Soundness of the protocol along every run: the status word moves only as
`StatusMove` allows, a request gets at most one submission, every frame that the
kernel reads was submitted for that request and its address, the two parties never
wait for each other, and neither leaves the path of a first touch.
-/
theorem first_touch_protocol_sound {initial : Protocol} (hinitial : initial.Initial)
    (moves : List Move) :
    ∀ s ∈ run step initial moves,
      (∀ move next, s.step move = some next →
        next.page.status = s.page.status ∨
          StatusMove move.byKernel s.page.status next.page.status) ∧
      (s.submitted.map Transfer.request).Nodup ∧
      (∀ transfer ∈ s.received, transfer ∈ s.submitted) ∧
      ¬ s.Deadlocked ∧ s.OnFirstTouchPath := by
  intro s hrun
  have hinv : Inv s :=
    run_invariant (fun _ _ _ hinv hstep => hinv.step hstep) (Inv.of_initial hinitial) hrun
  exact ⟨fun _ _ hstep => hinv.status hstep, hinv.nodup, hinv.matched, hinv.not_deadlocked,
    hinv.onFirstTouchPath⟩

def atRest : Protocol where
  page := zeroPage
  kernel := .user
  daemon := .idle
  event := ⟨0, 0, 0, 0, 0, 0⟩
  requests := 0
  submitted := []
  received := []

private theorem atRest_initial : atRest.Initial := by
  constructor <;> rfl

def oneFault : List Move :=
  .dispatch :: .fault ⟨.firstTouch, 0x2000, 0x5000, true⟩ :: .daemon none ::
    (List.replicate 7 (.kernel .applied) ++ .dispatch :: List.replicate 5 (.daemon none) ++
      List.replicate 4 (.daemon (some 42)) ++ List.replicate 5 (.kernel .applied) ++
      List.replicate 3 (.daemon none))

theorem first_touch_protocol_sound_oneFault :
    ((run step atRest oneFault).map fun s => (s.page.status, s.received)) =
        some (0, [⟨1, 0x2000, 42⟩]) ∧
      ∀ s ∈ run step atRest oneFault,
        (∀ move next, s.step move = some next →
          next.page.status = s.page.status ∨
            StatusMove move.byKernel s.page.status next.page.status) ∧
        (s.submitted.map Transfer.request).Nodup ∧
        (∀ transfer ∈ s.received, transfer ∈ s.submitted) ∧
        ¬ s.Deadlocked ∧ s.OnFirstTouchPath :=
  ⟨by decide, first_touch_protocol_sound atRest_initial oneFault⟩

end UserPaging.Usm.Protocol
