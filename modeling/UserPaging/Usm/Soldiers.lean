import UserPaging.Usm.SetSched

/-!
# Additional workers can lose a reply

The refresh of `soldiers` overwrites `tempEvents` with the event word.  A uthread
that waits in `usm_mem_subm_ev` while its kernel thread applies the reply and takes
its bit back is then in neither word.  It is never dispatched again, so it never
gives the status word back, and the next fault of its thread waits for that.

A run in which every refresh still finds the bits of the waiting uthreads in the
event word has no such state.
-/

namespace UserPaging.Usm.Dispatch

open UserPaging.Foundation

def ReplyUnseen (s : Worker) (id : Nat) : Prop :=
  s.uthread id = .submitted ∧ s.status id = 3 ∧
    (s.kernel id = .user ∨ s.kernel id = .awaitIdle) ∧ s.com.getLsbD id = false

/-- A reply that its uthread will not see: the uthread is off the processor and its
bit is in neither word. -/
def Stuck (s : Worker) (id : Nat) : Prop :=
  s.Suspended id ∧ ReplyUnseen s id ∧ s.tempEvents.getLsbD id = false

instance (s : Worker) (id : Nat) : Decidable (ReplyUnseen s id) :=
  inferInstanceAs (Decidable (_ ∧ _))

instance (s : Worker) (id : Nat) : Decidable (Stuck s id) :=
  inferInstanceAs (Decidable (_ ∧ _))

/-- A refresh finds the bit of every uthread that waits in `usm_mem_subm_ev` still in
the event word. -/
def RefreshFindsWaiting (s : Worker) (label : Label) : Prop :=
  s.main = .receive → label = .main →
    ∀ id, id < maxUthreads → s.uthread id = .submitted → s.com.getLsbD id = true

instance (s : Worker) (label : Label) : Decidable (RefreshFindsWaiting s label) :=
  inferInstanceAs (Decidable (_ → _ → ∀ id, id < maxUthreads → _ → _))

namespace Stuck

variable {loop : Loop} {s next : Worker} {id : Nat}

theorem mainMove (hs : Ordered s) (hstuck : Stuck s id) (hmove : MainMove loop s next) :
    Stuck next id := by
  obtain ⟨⟨hbusy, hcpu⟩, hunseen, htemp⟩ := hstuck
  have hcom := hunseen.2.2.2
  cases hmove with
  | refresh hmain =>
      refine ⟨⟨hbusy, ?_⟩, hunseen, ?_⟩
      · simp only [Worker.refresh]
        split <;> simp [MainPoint.onCpu]
      · cases loop <;> simp [Worker.refresh, Worker.refreshed, hcom, htemp]
  | drained | beginPass | again | leave =>
      exact ⟨⟨hbusy, by simp [Worker.setMain, MainPoint.onCpu]⟩, hunseen, htemp⟩
  | @dispatch received events i hmain hi hlowest hdispatched =>
      have hcopy := hs.copy i
      rw [hmain] at hcopy
      have hne : id ≠ i := by
        rintro rfl
        rw [hcopy hi] at htemp
        cases htemp
      refine ⟨⟨?_, ?_⟩, ⟨?_, hunseen.2⟩, htemp⟩
      · simpa [Worker.dispatch, Function.update_of_ne hne] using hbusy
      · simpa [Worker.dispatch, MainPoint.onCpu] using hne.symm
      · simpa [Worker.dispatch, Function.update_of_ne hne] using hunseen.1
  | @account received events i hmain =>
      refine ⟨⟨hbusy, by simp [Worker.account, MainPoint.onCpu]⟩, hunseen, ?_⟩
      simp only [Worker.account]
      split
      · exact htemp
      · rw [getLsbD_clearBit, htemp, Bool.false_and]

theorem uthreadMove {received : Nat} {events : BitVec 32} {i : Nat}
    (hmain : s.main = .away received events i) (hstuck : Stuck s id)
    (hmove : UthreadMove s received events i next) : Stuck next id := by
  obtain ⟨⟨hbusy, hcpu⟩, hunseen, htemp⟩ := hstuck
  have hne : id ≠ i := by
    rintro rfl
    exact hcpu (by rw [hmain]; rfl)
  cases hmove with
  | stays status point hpoint =>
      refine ⟨⟨?_, hcpu⟩, ⟨?_, ?_, hunseen.2.2⟩, htemp⟩
      · simpa [Worker.setUthread, Worker.setStatus, Function.update_of_ne hne] using hbusy
      · simpa [Worker.setUthread, Worker.setStatus, Function.update_of_ne hne] using hunseen.1
      · simpa [Worker.setUthread, Worker.setStatus, Function.update_of_ne hne] using hunseen.2.1
  | spins => exact ⟨⟨hbusy, hcpu⟩, hunseen, htemp⟩
  | yields => exact ⟨⟨hbusy, by simp [Worker.setMain, MainPoint.onCpu]⟩, hunseen, htemp⟩
  | finishes =>
      refine ⟨⟨?_, by simp [Worker.finish, MainPoint.onCpu]⟩, ⟨?_, hunseen.2⟩, htemp⟩
      · simpa [Worker.finish, Function.update_of_ne hne] using hbusy
      · simpa [Worker.finish, Function.update_of_ne hne] using hunseen.1

theorem kernelStep {i : Nat} {outcome : FaultOutcome} (hstuck : Stuck s id)
    (hstep : s.kernelStep i outcome = some next) : Stuck next id := by
  obtain ⟨hsuspended, ⟨hpoint, hstatus, hkernel, hcom⟩, htemp⟩ := hstuck
  by_cases hi : i = id
  · subst hi
    obtain huser | hawait := hkernel
    · simp [Worker.kernelStep, huser] at hstep
    · have hsame : next = s := by
        simpa [Worker.kernelStep, hawait, hstatus] using hstep.symm
      rw [hsame]
      exact ⟨hsuspended, ⟨hpoint, hstatus, .inr hawait, hcom⟩, htemp⟩
  · have hsame := Worker.kernelStep_sameDaemon hstep
    obtain ⟨hkernel', hstatus', hcom'⟩ := Worker.kernelStep_other hstep hi
    refine ⟨?_, ⟨?_, hstatus'.trans hstatus, ?_, hcom'.trans hcom⟩, ?_⟩
    · rw [Worker.Suspended, hsame.uthread, hsame.main]
      exact hsuspended
    · rw [hsame.uthread]
      exact hpoint
    · rw [hkernel']
      exact hkernel
    · rw [hsame.tempEvents]
      exact htemp

theorem fault {i : Nat} (hstuck : Stuck s id) : Stuck (s.setKernel i .awaitIdle) id := by
  obtain ⟨hsuspended, ⟨hpoint, hstatus, hkernel, hcom⟩, htemp⟩ := hstuck
  refine ⟨hsuspended, ⟨hpoint, hstatus, ?_, hcom⟩, htemp⟩
  by_cases hi : id = i
  · right
    simp [Worker.setKernel, hi]
  · simpa [Worker.setKernel, Function.update_of_ne hi] using hkernel

theorem step {label : Label} (hs : Ordered s) (hstuck : Stuck s id)
    (hstep : s.step loop label = some next) : Stuck next id := by
  cases label with
  | main => exact hstuck.mainMove hs (Worker.mainMove_of_step hstep)
  | uthread submits =>
      obtain ⟨received, events, i, hmain, -, hmove⟩ := Worker.uthread_cases hstep
      exact hstuck.uthreadMove hmain hmove
  | fault i =>
      simp only [Worker.step] at hstep
      split at hstep
      · cases hstep
        exact hstuck.fault
      · cases hstep
  | kernel i outcome => exact hstuck.kernelStep hstep

theorem run {labels : List Label} {final : Worker} (hs : Ordered s) (hstuck : Stuck s id)
    (hrun : run (Worker.step loop) s labels = some final) : Stuck final id := by
  have hkeep : ∀ t label next, Ordered t ∧ Stuck t id →
      Worker.step loop t label = some next → Ordered next ∧ Stuck next id :=
    fun _ _ _ ht hstep => ⟨ht.1.step hstep, ht.2.step ht.1 hstep⟩
  exact (run_invariant hkeep ⟨hs, hstuck⟩ hrun).2

end Stuck

/-- A refresh of `soldiers` that comes between the kernel's taking back the bit and the
uthread's next turn makes the uthread stuck. -/
private theorem stuck_of_refresh {s : Worker} {id : Nat} (hunseen : ReplyUnseen s id) :
    Stuck (s.refresh .soldiers) id := by
  have hbusy : s.uthread id ≠ .idle := by
    rw [hunseen.1]
    decide
  refine ⟨⟨hbusy, ?_⟩, hunseen, hunseen.2.2.2⟩
  simp only [Worker.refresh]
  split <;> simp [MainPoint.onCpu]

private theorem refreshKeeps_soldiers {s : Worker} {label : Label} (hs : Ordered s) (hkept : Kept s)
    (hfinds : RefreshFindsWaiting s label) (hlabel : label = .main) :
    RefreshKeeps .soldiers s := by
  intro hmain id hbusy
  have hoff : s.main.onCpu ≠ some id := by simp [hmain, MainPoint.onCpu]
  have hid : id < maxUthreads := BitVec.lt_of_getLsbD (hkept id hbusy)
  exact hfinds hmain hlabel id hid (hs.waiting id ⟨hbusy, hoff⟩)

/-- Thread 0 applies its reply and takes its bit back while its uthread waits; the next
refresh loses the uthread. -/
theorem soldiers_stuck :
    ∃ s, run (Worker.step .soldiers) Worker.initial lateDequeue = some s ∧ Stuck s 0 := by
  have hany : (run (Worker.step .soldiers) Worker.initial lateDequeue).any
      (fun s => decide (Stuck s 0)) = true := by decide
  obtain ⟨s, hrun, hstuck⟩ := (Option.any_eq_true _ _).1 hany
  exact ⟨s, hrun, of_decide_eq_true hstuck⟩

/-- In every run of `soldiers` whose refreshes find the waiting uthreads' bits no uthread
is stuck, and every suspended uthread is in `tempEvents`.  A refresh that finds a
reply unseen and its bit taken back makes that uthread stuck for good. -/
theorem soldiers_lose_replies {labels : List Label} {s : Worker}
    (hrun : run (Worker.step .soldiers) Worker.initial labels = some s) :
    (StepsMeet (Worker.step .soldiers) RefreshFindsWaiting Worker.initial labels →
      ∀ id, ¬Stuck s id ∧ (s.Suspended id → s.tempEvents.getLsbD id = true)) ∧
      ∀ (more : List Label) (final : Worker) (id : Nat), s.main = .receive → ReplyUnseen s id →
        run (Worker.step .soldiers) s (.main :: more) = some final → Stuck final id := by
  constructor
  · intro hmeets id
    have hkeep : ∀ t label next, Ordered t ∧ Kept t → RefreshFindsWaiting t label →
        Worker.step .soldiers t label = some next → Ordered next ∧ Kept next :=
      fun _ _ _ ht hfinds hstep =>
        ⟨ht.1.step hstep, ht.2.step ht.1 (refreshKeeps_soldiers ht.1 ht.2 hfinds) hstep⟩
    have hkept := (run_invariant_of_meets hkeep ⟨Ordered.initial, Kept.initial⟩ hmeets hrun).2
    refine ⟨?_, fun hsuspended => hkept id hsuspended.1⟩
    rintro ⟨hsuspended, -, htemp⟩
    rw [hkept id hsuspended.1] at htemp
    cases htemp
  · intro more final id hmain hunseen hmore
    obtain ⟨next, hstep, hrest⟩ := run_cons_eq_some.1 hmore
    have hs := Ordered.of_run hrun
    have hnext : next = s.refresh .soldiers := by
      simpa [Worker.step, Worker.mainStep, hmain] using hstep.symm
    have hstuck : Stuck next id := by
      rw [hnext]
      exact stuck_of_refresh hunseen
    exact hstuck.run (hs.step hstep) hrest

/-- Without the late dequeue both uthreads stay in `tempEvents` over the refresh. -/
theorem soldiers_keep_waiting :
    ∃ s, run (Worker.step .soldiers) Worker.initial (lateDequeue.take 28 ++ [.main, .main]) =
        some s ∧ s.Suspended 0 ∧ ¬Stuck s 0 := by
  have hmeets : StepsMeet (Worker.step .soldiers) RefreshFindsWaiting Worker.initial
      (lateDequeue.take 28 ++ [.main, .main]) := by decide
  have hany : (run (Worker.step .soldiers) Worker.initial
      (lateDequeue.take 28 ++ [.main, .main])).any (fun s => decide (s.Suspended 0)) = true := by
    decide
  obtain ⟨s, hrun, hsuspended⟩ := (Option.any_eq_true _ _).1 hany
  exact ⟨s, hrun, of_decide_eq_true hsuspended,
    ((soldiers_lose_replies hrun).1 hmeets 0).1⟩

end UserPaging.Usm.Dispatch
