import UserPaging.Foundation.Observe
import UserPaging.Usm.Dispatch

/-!
# What one step of a worker can do

Each party's step is inverted once: `MainMove` lists the moves of the main context,
`UthreadMove` those of the uthread on the processor, and a kernel thread leaves the
daemon's side alone.  From these comes `Ordered`, the invariant that both loops
keep: the local copy of a pass is part of `tempEvents`, the uthread on the processor
is its lowest member, a uthread off the processor is idle or waits in
`usm_mem_subm_ev`, and a thread that waits for an answer has its bit in the event
word.
-/

namespace UserPaging.Usm.Dispatch

open UserPaging.Foundation

inductive MainMove (loop : Loop) (s : Worker) : Worker → Prop where
  | refresh (hmain : s.main = .receive) : MainMove loop s (s.refresh loop)
  | drained {received : Nat} (hmain : s.main = .passes received) (hempty : s.tempEvents = 0) :
      MainMove loop s (s.setMain .receive)
  | beginPass {received : Nat} (hmain : s.main = .passes received) :
      MainMove loop s (s.setMain (.pass received s.tempEvents))
  | again (hmain : s.main = .pass 0 0) : MainMove loop s (s.setMain (.passes 1))
  | leave {received : Nat} (hmain : s.main = .pass received 0) (hreceived : received ≠ 0) :
      MainMove loop s (s.setMain .receive)
  | dispatch {received : Nat} {events : BitVec 32} {id : Nat}
      (hmain : s.main = .pass received events) (hid : events.getLsbD id = true)
      (hlowest : ∀ j, events.getLsbD j = true → id ≤ j)
      (hdispatched : s.dispatched .main = some id) :
      MainMove loop s (s.dispatch received events id)
  | account {received : Nat} {events : BitVec 32} {id : Nat}
      (hmain : s.main = .back received events id) :
      MainMove loop s (s.account received events id)

inductive UthreadMove (s : Worker) (received : Nat) (events : BitVec 32) (id : Nat) :
    Worker → Prop where
  | stays (status : BitVec 32) (point : UthreadPoint) (hpoint : point ≠ .idle) :
      UthreadMove s received events id ((s.setStatus id status).setUthread id point)
  | spins : UthreadMove s received events id s
  | yields (hpoint : s.uthread id = .submitted) :
      UthreadMove s received events id (s.setMain (.back received events id))
  | finishes : UthreadMove s received events id (s.finish received events id)

structure SameDaemon (s next : Worker) : Prop where
  tempEvents : next.tempEvents = s.tempEvents
  main : next.main = s.main
  state : next.state = s.state
  uthread : next.uthread = s.uthread

/-- The local copy of `tempEvents` that the inner loop still has to empty. -/
def MainPoint.left : MainPoint → BitVec 32
  | .receive | .passes _ => 0
  | .pass _ events | .away _ events _ | .back _ events _ => events

/-- The thread stands between `queue_usm_fault` and `dequeue_usm_fault`. -/
def KernelPoint.queued : KernelPoint → Bool
  | .user | .awaitIdle | .posting | .queueing => false
  | .awaitAnswer | .applying | .dequeueing => true

structure Ordered (s : Worker) : Prop where
  flag : ∀ id, s.state id = true ↔ s.uthread id ≠ .idle
  copy : ∀ id, s.main.left.getLsbD id = true → s.tempEvents.getLsbD id = true
  waiting : ∀ id, s.Suspended id → s.uthread id = .submitted
  posted : ∀ id, (s.kernel id).queued = true → s.com.getLsbD id = true
  known : ∀ id, s.kernel id ≠ .user → id < maxUthreads

namespace Worker

variable {loop : Loop} {s next : Worker}

theorem resumePoint_ne_idle (point : UthreadPoint) : resumePoint point ≠ .idle := by
  cases point <;> decide

theorem mainMove_of_step (hstep : s.mainStep loop = some next) : MainMove loop s next := by
  unfold mainStep at hstep
  cases hmain : s.main with
  | receive =>
      rw [hmain] at hstep
      cases hstep
      exact .refresh hmain
  | passes received =>
      rw [hmain] at hstep
      cases hstep
      by_cases hempty : s.tempEvents = 0
      · rw [if_pos hempty]
        exact .drained hmain hempty
      · rw [if_neg hempty]
        exact .beginPass hmain
  | pass received events =>
      simp only [hmain] at hstep
      by_cases hempty : events = 0
      · subst hempty
        rw [if_pos rfl] at hstep
        cases hstep
        by_cases hreceived : received = 0
        · subst hreceived
          exact .again hmain
        · rw [if_pos hreceived]
          exact .leave hmain hreceived
      · rw [if_neg hempty] at hstep
        cases hstep
        obtain ⟨id, hffs, hid, hlowest⟩ := ffs_of_ne_zero hempty
        have hindex : ffs events - 1 = id := by omega
        rw [hindex]
        refine .dispatch hmain hid hlowest ?_
        simp only [dispatched, hmain, if_neg hempty, hindex]
  | away received events id =>
      rw [hmain] at hstep
      cases hstep
  | back received events id =>
      rw [hmain] at hstep
      cases hstep
      exact .account hmain

private theorem setStatus_self (s : Worker) (id : Nat) : s.setStatus id (s.status id) = s := by
  simp only [setStatus, Function.update_eq_self]

private theorem ne_idle_of_uthreadStep {received : Nat} {events : BitVec 32} {id : Nat}
    {submits : Bool}
    (hstep : s.uthreadStep received events id submits = some next) : s.uthread id ≠ .idle := by
  intro hidle
  simp [uthreadStep, hidle] at hstep

private theorem uthreadMove_of_step {received : Nat} {events : BitVec 32} {id : Nat}
    {submits : Bool}
    (hstep : s.uthreadStep received events id submits = some next) :
    UthreadMove s received events id next := by
  have stays (point : UthreadPoint) (hpoint : point ≠ .idle) :
      UthreadMove s received events id (s.setUthread id point) := by
    have hmove : UthreadMove s received events id
        ((s.setStatus id (s.status id)).setUthread id point) := .stays _ point hpoint
    rwa [setStatus_self] at hmove
  unfold uthreadStep at hstep
  cases hpoint : s.uthread id with
  | idle =>
      rw [hpoint] at hstep
      cases hstep
  | check =>
      simp only [hpoint] at hstep
      split at hstep <;> cases hstep
      · exact stays .handling (by decide)
      · exact .finishes
  | handling =>
      simp only [hpoint] at hstep
      split at hstep <;> cases hstep
      · exact .stays 2 .submitted (by decide)
      · exact .finishes
  | submitted =>
      simp only [hpoint] at hstep
      split at hstep <;> cases hstep
      · unfold yield
        split
        · exact .spins
        · exact .yields hpoint
      · exact stays .settling (by decide)
  | settling =>
      simp only [hpoint] at hstep
      cases hstep
      exact .stays 0 .handling (by decide)

theorem kernelStep_sameDaemon {id : Nat} {outcome : FaultOutcome}
    (hstep : s.kernelStep id outcome = some next) : SameDaemon s next := by
  unfold kernelStep at hstep
  cases hpoint : s.kernel id <;> simp only [hpoint] at hstep
  case applying => cases outcome <;> cases hstep <;> exact ⟨rfl, rfl, rfl, rfl⟩
  case awaitIdle | awaitAnswer =>
    cases hstep
    split <;> exact ⟨rfl, rfl, rfl, rfl⟩
  all_goals cases hstep
  all_goals exact ⟨rfl, rfl, rfl, rfl⟩

theorem kernelStep_other {id j : Nat} {outcome : FaultOutcome}
    (hstep : s.kernelStep id outcome = some next) (hne : id ≠ j) :
    next.kernel j = s.kernel j ∧ next.status j = s.status j ∧
      next.com.getLsbD j = s.com.getLsbD j := by
  have hne' : j ≠ id := hne.symm
  unfold kernelStep at hstep
  cases hpoint : s.kernel id <;> simp only [hpoint] at hstep
  case applying =>
    cases outcome <;> cases hstep <;>
      simp [setKernel, setStatus, Function.update_of_ne hne']
  case awaitIdle | awaitAnswer =>
    cases hstep
    split <;> simp [setKernel, Function.update_of_ne hne']
  all_goals cases hstep
  all_goals
    simp [setKernel, setStatus, setCom, Function.update_of_ne hne', getLsbD_setBit_of_ne hne,
      getLsbD_clearBit_of_ne hne]

private theorem kernelStep_posted {id : Nat} {outcome : FaultOutcome}
    (hstep : s.kernelStep id outcome = some next) (hid : id < maxUthreads)
    (hposted : (s.kernel id).queued = true → s.com.getLsbD id = true) :
    (next.kernel id).queued = true → next.com.getLsbD id = true := by
  unfold kernelStep at hstep
  cases hpoint : s.kernel id <;> simp only [hpoint, KernelPoint.queued] at hstep hposted
  case queueing =>
    cases hstep
    intro _
    exact getLsbD_setBit_self hid
  case applying =>
    cases outcome with
    | applied =>
        cases hstep
        intro _
        exact hposted trivial
    | alreadyMapped | taskKilled =>
        cases hstep
        simp [setKernel, KernelPoint.queued]
  case awaitIdle =>
    cases hstep
    split <;> simp [setKernel, KernelPoint.queued, hpoint]
  case awaitAnswer =>
    cases hstep
    split <;> simpa [setKernel, KernelPoint.queued, hpoint] using hposted
  all_goals cases hstep
  all_goals simp [setKernel, KernelPoint.queued]

private theorem fault_sameDaemon (s : Worker) (id : Nat) (point : KernelPoint) :
    SameDaemon s (s.setKernel id point) :=
  ⟨rfl, rfl, rfl, rfl⟩

theorem uthread_cases {submits : Bool} (hstep : s.step loop (.uthread submits) = some next) :
    ∃ received events id, s.main = .away received events id ∧ s.uthread id ≠ .idle ∧
      UthreadMove s received events id next := by
  simp only [step] at hstep
  split at hstep
  · next received events id hmain =>
      exact ⟨received, events, id, hmain, ne_idle_of_uthreadStep hstep, uthreadMove_of_step hstep⟩
  all_goals cases hstep

/-- Every step is a move of the main context, a move of the uthread on the processor,
or one that leaves the daemon alone. -/
theorem step_cases {label : Label} (hstep : s.step loop label = some next) :
    (label = .main ∧ MainMove loop s next) ∨
      s.dispatched label = none ∧
        ((∃ received events id, s.main = .away received events id ∧ s.uthread id ≠ .idle ∧
          UthreadMove s received events id next) ∨ SameDaemon s next) := by
  cases label with
  | main => exact .inl ⟨rfl, mainMove_of_step hstep⟩
  | uthread submits => exact .inr ⟨rfl, .inl (uthread_cases hstep)⟩
  | fault id =>
      refine .inr ⟨rfl, .inr ?_⟩
      simp only [step] at hstep
      split at hstep
      · cases hstep
        exact fault_sameDaemon s id .awaitIdle
      · cases hstep
  | kernel id outcome => exact .inr ⟨rfl, .inr (kernelStep_sameDaemon hstep)⟩

end Worker

namespace Ordered

variable {loop : Loop} {s next : Worker}

theorem initial : Ordered Worker.initial where
  flag := by simp [Worker.initial]
  copy := by simp [Worker.initial, MainPoint.left]
  waiting := by simp [Worker.initial, Worker.Suspended]
  posted := by simp [Worker.initial, KernelPoint.queued]
  known := by simp [Worker.initial]

private theorem onCpu_of_mainMove (hmove : MainMove loop s next) : s.main.onCpu = none := by
  cases hmove <;> simp only [*, MainPoint.onCpu]

theorem setMain (hs : Ordered s) {main : MainPoint}
    (hcopy : ∀ id, main.left.getLsbD id = true → s.tempEvents.getLsbD id = true)
    (hwaiting : ∀ id, s.uthread id ≠ .idle → main.onCpu ≠ some id → s.uthread id = .submitted) :
    Ordered (s.setMain main) where
  flag := hs.flag
  copy := hcopy
  waiting := fun id hsuspended => hwaiting id hsuspended.1 hsuspended.2
  posted := hs.posted
  known := hs.known

theorem mainStep (hs : Ordered s) (hstep : s.mainStep loop = some next) : Ordered next := by
  have hmove := Worker.mainMove_of_step hstep
  have hoff := onCpu_of_mainMove hmove
  have hwaiting (id : Nat) (hbusy : s.uthread id ≠ .idle) : s.uthread id = .submitted :=
    hs.waiting id ⟨hbusy, by simp [hoff]⟩
  cases hmove with
  | refresh hmain =>
      refine ⟨hs.flag, ?_, fun id hsuspended => hwaiting id hsuspended.1, hs.posted, hs.known⟩
      intro id hid
      simp only [Worker.refresh] at hid
      split at hid <;> simp [MainPoint.left] at hid
  | drained hmain hempty =>
      exact hs.setMain (by simp [MainPoint.left]) fun id hbusy _ => hwaiting id hbusy
  | beginPass hmain => exact hs.setMain (fun id hid => hid) fun id hbusy _ => hwaiting id hbusy
  | again hmain =>
      exact hs.setMain (by simp [MainPoint.left]) fun id hbusy _ => hwaiting id hbusy
  | leave hmain hreceived =>
      exact hs.setMain (by simp [MainPoint.left]) fun id hbusy _ => hwaiting id hbusy
  | @dispatch received events id hmain hid hlowest hdispatched =>
      have hcopy := hs.copy
      rw [hmain] at hcopy
      refine ⟨?_, hcopy, ?_, hs.posted, hs.known⟩
      · intro j
        by_cases hj : j = id
        · subst hj
          simp [Worker.dispatch, Worker.resumePoint_ne_idle]
        · simpa [Worker.dispatch, Function.update_of_ne hj] using hs.flag j
      · rintro j ⟨hbusy, hcpu⟩
        have hj : j ≠ id := by
          rintro rfl
          exact hcpu rfl
        simp only [Worker.dispatch, Function.update_of_ne hj] at hbusy ⊢
        exact hwaiting j hbusy
  | @account received events id hmain =>
      refine ⟨hs.flag, ?_, fun j hsuspended => hwaiting j hsuspended.1, hs.posted, hs.known⟩
      intro j hj
      obtain ⟨hj, hne⟩ := getLsbD_of_clearBit hj
      have hcopy := hs.copy j
      rw [hmain] at hcopy
      simp only [Worker.account]
      split
      · exact hcopy hj
      · rw [getLsbD_clearBit_of_ne hne]
        exact hcopy hj

theorem uthreadStep (hs : Ordered s) {received : Nat} {events : BitVec 32} {id : Nat}
    {submits : Bool} (hmain : s.main = .away received events id)
    (hstep : s.uthreadStep received events id submits = some next) : Ordered next := by
  have hbusy := Worker.ne_idle_of_uthreadStep hstep
  have hcopy := hs.copy
  rw [hmain] at hcopy
  have hothers (j : Nat) (hj : j ≠ id) (hbusy : s.uthread j ≠ .idle) :
      s.uthread j = .submitted := by
    refine hs.waiting j ⟨hbusy, ?_⟩
    rw [hmain]
    simpa [MainPoint.onCpu] using hj.symm
  cases Worker.uthreadMove_of_step hstep with
  | stays status point hpoint =>
      refine ⟨?_, hs.copy, ?_, hs.posted, hs.known⟩
      · intro j
        by_cases hj : j = id
        · subst hj
          simpa [Worker.setUthread, Worker.setStatus, hpoint] using (hs.flag j).2 hbusy
        · simpa [Worker.setUthread, Worker.setStatus, Function.update_of_ne hj] using hs.flag j
      · rintro j ⟨hbusy, hcpu⟩
        have hj : j ≠ id := by
          rintro rfl
          exact hcpu (by simp [Worker.setUthread, Worker.setStatus, hmain, MainPoint.onCpu])
        simp only [Worker.setUthread, Worker.setStatus, Function.update_of_ne hj] at hbusy ⊢
        exact hothers j hj hbusy
  | spins => exact hs
  | yields hpoint =>
      refine hs.setMain (fun j hj => hcopy j hj) ?_
      intro j hbusy _
      by_cases hj : j = id
      · rw [hj, hpoint]
      · exact hothers j hj hbusy
  | finishes =>
      refine ⟨?_, hcopy, ?_, hs.posted, hs.known⟩
      · intro j
        by_cases hj : j = id
        · simp [Worker.finish, hj]
        · simpa [Worker.finish, Function.update_of_ne hj] using hs.flag j
      · rintro j ⟨hbusy, -⟩
        by_cases hj : j = id
        · simp [Worker.finish, hj] at hbusy
        · simp only [Worker.finish, Function.update_of_ne hj] at hbusy ⊢
          exact hothers j hj hbusy

theorem kernelStep (hs : Ordered s) {id : Nat} {outcome : FaultOutcome}
    (hstep : s.kernelStep id outcome = some next) : Ordered next := by
  have hsame := Worker.kernelStep_sameDaemon hstep
  have huser : s.kernel id ≠ .user := by
    intro huser
    simp [Worker.kernelStep, huser] at hstep
  have hid := hs.known id huser
  refine ⟨?_, ?_, ?_, ?_, ?_⟩
  · rw [hsame.state, hsame.uthread]
    exact hs.flag
  · rw [hsame.main, hsame.tempEvents]
    exact hs.copy
  · rintro j ⟨hbusy, hcpu⟩
    rw [hsame.uthread] at hbusy ⊢
    rw [hsame.main] at hcpu
    exact hs.waiting j ⟨hbusy, hcpu⟩
  · intro j hqueued
    by_cases hj : id = j
    · subst hj
      exact Worker.kernelStep_posted hstep hid (hs.posted id) hqueued
    · obtain ⟨hkernel, -, hcom⟩ := Worker.kernelStep_other hstep hj
      rw [hkernel] at hqueued
      rw [hcom]
      exact hs.posted j hqueued
  · intro j hj
    by_cases hne : id = j
    · rwa [← hne]
    · rw [(Worker.kernelStep_other hstep hne).1] at hj
      exact hs.known j hj

theorem fault (hs : Ordered s) {id : Nat} (hid : id < maxUthreads) :
    Ordered (s.setKernel id .awaitIdle) := by
  refine ⟨hs.flag, hs.copy, hs.waiting, ?_, ?_⟩
  · intro j hqueued
    by_cases hj : j = id
    · simp [Worker.setKernel, hj, KernelPoint.queued] at hqueued
    · simp only [Worker.setKernel, Function.update_of_ne hj] at hqueued
      exact hs.posted j hqueued
  · intro j hj
    by_cases hne : j = id
    · rwa [hne]
    · simp only [Worker.setKernel, Function.update_of_ne hne] at hj
      exact hs.known j hj

theorem step (hs : Ordered s) {label : Label} (hstep : s.step loop label = some next) :
    Ordered next := by
  cases label with
  | main => exact hs.mainStep hstep
  | uthread submits =>
      simp only [Worker.step] at hstep
      split at hstep
      · next hmain => exact hs.uthreadStep hmain hstep
      all_goals cases hstep
  | fault id =>
      simp only [Worker.step] at hstep
      split at hstep
      · next hfault =>
          cases hstep
          exact hs.fault hfault.1
      · cases hstep
  | kernel id outcome => exact hs.kernelStep hstep

theorem of_run {labels : List Label}
    (hrun : run (Worker.step loop) Worker.initial labels = some s) : Ordered s :=
  run_invariant (fun _ _ _ hs hstep => hs.step hstep) initial hrun

end Ordered

end UserPaging.Usm.Dispatch
