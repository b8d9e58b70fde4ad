import UserPaging.Usm.DispatchOrder

/-!
# The main worker never forgets a fault in progress

`Kept` says that the bit of every uthread in the middle of a fault is in
`tempEvents`.  Only the refresh can lose one, so each loop keeps it as long as its
refresh does; `setSched` adds the event word to what it had and keeps it always,
also when the kernel has taken the bit out of the event word before the uthread
has seen its reply.
-/

namespace UserPaging.Usm.Dispatch

open UserPaging.Foundation

def Kept (s : Worker) : Prop := ∀ id, s.uthread id ≠ .idle → s.tempEvents.getLsbD id = true

/-- The refresh, if this step is one, keeps the bits of the uthreads that are busy. -/
def RefreshKeeps (loop : Loop) (s : Worker) : Prop :=
  s.main = .receive → ∀ id, s.uthread id ≠ .idle → (s.refreshed loop).getLsbD id = true

namespace Kept

variable {loop : Loop} {s next : Worker}

theorem initial : Kept Worker.initial := by
  intro id hbusy
  exact absurd rfl hbusy

theorem mainMove (hkept : Kept s) (hs : Ordered s) (hrefresh : RefreshKeeps loop s)
    (hmove : MainMove loop s next) : Kept next := by
  cases hmove with
  | refresh hmain => exact hrefresh hmain
  | drained | beginPass | again | leave => exact hkept
  | @dispatch received events id hmain hid hlowest hdispatched =>
      intro j hbusy
      by_cases hj : j = id
      · have hcopy := hs.copy id
        rw [hmain] at hcopy
        rw [hj]
        exact hcopy hid
      · simp only [Worker.dispatch, Function.update_of_ne hj] at hbusy
        exact hkept j hbusy
  | @account received events id hmain =>
      intro j hbusy
      simp only [Worker.account] at hbusy ⊢
      split
      · exact hkept j hbusy
      · next hstate =>
          have hne : id ≠ j := by
            rintro rfl
            exact hstate ((hs.flag id).2 hbusy)
          rw [getLsbD_clearBit_of_ne hne]
          exact hkept j hbusy

theorem uthreadMove (hkept : Kept s) {received : Nat} {events : BitVec 32} {id : Nat}
    (hbusy : s.uthread id ≠ .idle) (hmove : UthreadMove s received events id next) :
    Kept next := by
  cases hmove with
  | stays status point hpoint =>
      intro j hj
      by_cases hne : j = id
      · rw [hne]
        exact hkept id hbusy
      · simp only [Worker.setUthread, Worker.setStatus, Function.update_of_ne hne] at hj
        exact hkept j hj
  | spins | yields => exact hkept
  | finishes =>
      intro j hj
      by_cases hne : j = id
      · simp [Worker.finish, hne] at hj
      · simp only [Worker.finish, Function.update_of_ne hne] at hj
        exact hkept j hj

private theorem sameDaemon (hkept : Kept s) (hsame : SameDaemon s next) : Kept next := by
  intro id hbusy
  rw [hsame.uthread] at hbusy
  rw [hsame.tempEvents]
  exact hkept id hbusy

theorem step (hkept : Kept s) (hs : Ordered s) {label : Label}
    (hrefresh : label = .main → RefreshKeeps loop s) (hstep : s.step loop label = some next) :
    Kept next := by
  obtain ⟨hlabel, hmove⟩ | ⟨-, ⟨received, events, id, -, hbusy, hmove⟩ | hsame⟩ :=
    Worker.step_cases hstep
  · exact hkept.mainMove hs (hrefresh hlabel) hmove
  · exact hkept.uthreadMove hbusy hmove
  · exact hkept.sameDaemon hsame

end Kept

private theorem refreshKeeps_setSched {s : Worker} (hkept : Kept s) : RefreshKeeps .setSched s := by
  intro _ id hbusy
  rw [Worker.refreshed, BitVec.getLsbD_or, hkept id hbusy, Bool.true_or]

theorem ordered_kept_step {s next : Worker} {label : Label} (hs : Ordered s ∧ Kept s)
    (hstep : s.step .setSched label = some next) : Ordered next ∧ Kept next :=
  ⟨hs.1.step hstep, hs.2.step hs.1 (fun _ => refreshKeeps_setSched hs.2) hstep⟩

theorem ordered_kept_of_setSched {labels : List Label} {s : Worker}
    (hrun : run (Worker.step .setSched) Worker.initial labels = some s) : Ordered s ∧ Kept s :=
  run_invariant (fun _ _ _ hs hstep => ordered_kept_step hs hstep)
    ⟨Ordered.initial, Kept.initial⟩ hrun

/-! ### Bits that the worker has seen -/

/-- Whether uthread `id` has had its bit read from the event word since it last
finished. -/
def sawBit (id : Nat) (before : Worker) (label : Label) (after : Worker) (seen : Bool) : Bool :=
  if before.uthread id ≠ .idle ∧ after.uthread id = .idle then false
  else seen || (before.main = .receive && label = .main && before.com.getLsbD id)

/-- A bit of `tempEvents` has been seen, but for the moment between the end of a
uthread's round and the main context's taking note of it. -/
def Seen (id : Nat) (s : Worker) (seen : Bool) : Prop :=
  s.tempEvents.getLsbD id = true →
    seen = true ∨ ∃ received events, s.main = .back received events id ∧ s.uthread id = .idle

namespace Seen

variable {s next : Worker} {id : Nat} {seen : Bool} {label : Label}

private theorem sawBit_of_seen (hseen : seen = true)
    (hbusy : s.uthread id ≠ .idle → next.uthread id ≠ .idle) :
    sawBit id s label next seen = true := by
  unfold sawBit
  rw [if_neg (fun hfinish => hbusy hfinish.1 hfinish.2), hseen, Bool.true_or]

private theorem mainMove (hs : Ordered s) (hseen : Seen id s seen)
    (hmove : MainMove .setSched s next) : Seen id next (sawBit id s .main next seen) := by
  intro hbit
  left
  cases hmove with
  | refresh hmain =>
      simp only [Worker.refresh, Worker.refreshed, BitVec.getLsbD_or, Bool.or_eq_true] at hbit
      rcases hbit with hbit | hbit
      · obtain hsaw | ⟨received, events, hback, -⟩ := hseen hbit
        · exact sawBit_of_seen hsaw fun hbusy => hbusy
        · rw [hmain] at hback
          cases hback
      · simp [sawBit, Worker.refresh, hmain, hbit]
  | drained hmain | beginPass hmain | again hmain | leave hmain =>
      obtain hsaw | ⟨received, events, hback, -⟩ := hseen hbit
      · exact sawBit_of_seen hsaw fun hbusy => hbusy
      · rw [hmain] at hback
        cases hback
  | @dispatch received events i hmain hid hlowest hdispatched =>
      obtain hsaw | ⟨received, events, hback, -⟩ := hseen hbit
      · apply sawBit_of_seen hsaw
        intro hbusy
        by_cases hi : id = i
        · simp [Worker.dispatch, hi, Worker.resumePoint_ne_idle]
        · simpa [Worker.dispatch, Function.update_of_ne hi] using hbusy
      · rw [hmain] at hback
        cases hback
  | @account received events i hmain =>
      have hold : s.tempEvents.getLsbD id = true ∧ (i = id → s.state id = true) := by
        simp only [Worker.account] at hbit
        split at hbit
        · next hstate => exact ⟨hbit, fun hi => hi ▸ hstate⟩
        · obtain ⟨hbit, hne⟩ := getLsbD_of_clearBit hbit
          exact ⟨hbit, fun hi => absurd hi hne⟩
      obtain hsaw | ⟨received', events', hback, hidle⟩ := hseen hold.1
      · exact sawBit_of_seen hsaw fun hbusy => hbusy
      · rw [hmain] at hback
        cases hback
        exact absurd hidle ((hs.flag id).1 (hold.2 rfl))

private theorem uthreadMove {received : Nat} {events : BitVec 32} {i : Nat}
    (hmain : s.main = .away received events i) (hseen : Seen id s seen)
    (hmove : UthreadMove s received events i next) :
    Seen id next (sawBit id s label next seen) := by
  intro hbit
  have hsaw : s.tempEvents.getLsbD id = true → seen = true := by
    intro hold
    obtain hsaw | ⟨received, events, hback, -⟩ := hseen hold
    · exact hsaw
    · rw [hmain] at hback
      cases hback
  cases hmove with
  | stays status point hpoint =>
      left
      apply sawBit_of_seen (hsaw hbit)
      intro hbusy
      by_cases hi : id = i
      · simpa [Worker.setUthread, Worker.setStatus, hi] using hpoint
      · simpa [Worker.setUthread, Worker.setStatus, Function.update_of_ne hi] using hbusy
  | spins | yields =>
      left
      exact sawBit_of_seen (hsaw hbit) fun hbusy => hbusy
  | finishes =>
      by_cases hi : id = i
      · subst hi
        right
        exact ⟨received, events, rfl, Function.update_self ..⟩
      · left
        apply sawBit_of_seen (hsaw hbit)
        simp [Worker.finish, Function.update_of_ne hi]

private theorem step (hs : Ordered s) (hseen : Seen id s seen)
    (hstep : s.step .setSched label = some next) :
    Seen id next (sawBit id s label next seen) := by
  obtain ⟨hlabel, hmove⟩ | ⟨-, ⟨received, events, i, hmain, -, hmove⟩ | hsame⟩ :=
    Worker.step_cases hstep
  · rw [hlabel]
    exact mainMove hs hseen hmove
  · exact uthreadMove hmain hseen hmove
  · intro hbit
    rw [hsame.tempEvents] at hbit
    obtain hsaw | hback := hseen hbit
    · left
      apply sawBit_of_seen hsaw
      rw [hsame.uthread]
      exact fun hbusy => hbusy
    · right
      rw [hsame.main, hsame.uthread]
      exact hback

private theorem of_dispatched (hs : Ordered s) (hseen : Seen id s seen)
    (hdispatched : s.dispatched .main = some id) : seen = true := by
  simp only [Worker.dispatched] at hdispatched
  split at hdispatched
  · next received events hmain =>
      split at hdispatched
      · cases hdispatched
      · next hne =>
          obtain ⟨i, hffs, hi, -⟩ := ffs_of_ne_zero hne
          have hid : i = id := by
            rw [hffs, Nat.add_sub_cancel] at hdispatched
            exact Option.some.inj hdispatched
          subst hid
          have hcopy := hs.copy i
          rw [hmain] at hcopy
          obtain hsaw | ⟨received', events', hback, -⟩ := hseen (hcopy hi)
          · exact hsaw
          · rw [hmain] at hback
            cases hback
  all_goals cases hdispatched

end Seen

private theorem seen_of_setSched (id : Nat) {labels : List Label} {s : Worker}
    (hrun : run (Worker.step .setSched) Worker.initial labels = some s) :
    Seen id s (observe (Worker.step .setSched) (sawBit id) false Worker.initial labels) := by
  have hkeep : ∀ s label next seen, Ordered s ∧ Seen id s seen →
      Worker.step .setSched s label = some next →
      Ordered next ∧ Seen id next (sawBit id s label next seen) := by
    rintro s label next seen ⟨hs, hseen⟩ hstep
    exact ⟨hs.step hstep, hseen.step hs hstep⟩
  have hinitial : Ordered Worker.initial ∧ Seen id Worker.initial false :=
    ⟨Ordered.initial, by simp [Seen, Worker.initial]⟩
  exact (observe_invariant hkeep hinitial hrun).2

private theorem idle_of_cleared {s next : Worker} {label : Label} {id : Nat} (hs : Ordered s)
    (hstep : s.step .setSched label = some next) (hset : s.tempEvents.getLsbD id = true)
    (hcleared : next.tempEvents.getLsbD id = false) : s.uthread id = .idle := by
  obtain ⟨-, hmove⟩ | ⟨-, ⟨received, events, i, -, -, hmove⟩ | hsame⟩ :=
    Worker.step_cases hstep
  · cases hmove with
    | refresh hmain =>
        simp [Worker.refresh, Worker.refreshed, hset] at hcleared
    | drained | beginPass | again | leave | dispatch =>
        exact absurd hcleared (ne_of_eq_of_ne hset (by decide))
    | @account received events i hmain =>
        by_contra hbusy
        have hstate := (hs.flag id).2 hbusy
        have hne : i ≠ id := by
          rintro rfl
          simp [Worker.account, hstate, hset] at hcleared
        simp only [Worker.account] at hcleared
        split at hcleared
        · rw [hset] at hcleared
          cases hcleared
        · rw [getLsbD_clearBit_of_ne hne, hset] at hcleared
          cases hcleared
  · have hsame : next.tempEvents = s.tempEvents := by cases hmove <;> rfl
    rw [hsame, hset] at hcleared
    cases hcleared
  · rw [hsame.tempEvents, hset] at hcleared
    cases hcleared

/-- Threads 0 and 1 fault, both uthreads submit an answer and wait for the kernel over
two passes; then thread 0 applies its reply and takes its bit back just before the
worker refreshes. -/
def lateDequeue : List Label :=
  [.fault 0, .kernel 0 .applied, .kernel 0 .applied, .kernel 0 .applied,
    .fault 1, .kernel 1 .applied, .kernel 1 .applied, .kernel 1 .applied,
    .main, .main, .main, .uthread true, .uthread true, .uthread true, .main,
    .main, .uthread true, .uthread true, .uthread true, .main, .main,
    .main, .main, .uthread true, .main, .main, .uthread true, .main,
    .kernel 0 .applied, .kernel 0 .applied, .kernel 0 .applied, .main, .main]

/-- In every run of `setSched` the bit of a suspended uthread is in `tempEvents`, at
the loop heads and everywhere else; the next step takes a bit out only of a uthread
that has finished; and it resumes only a uthread whose bit has been read from the
event word since it last finished. -/
theorem setSched_never_forgets {labels : List Label} {s : Worker}
    (hrun : run (Worker.step .setSched) Worker.initial labels = some s) :
    (∀ id, s.Suspended id → s.tempEvents.getLsbD id = true) ∧
      (∀ label next id, s.step .setSched label = some next →
        s.tempEvents.getLsbD id = true → next.tempEvents.getLsbD id = false →
          s.uthread id = .idle) ∧
      ∀ id, s.dispatched .main = some id →
        observe (Worker.step .setSched) (sawBit id) false Worker.initial labels = true := by
  obtain ⟨hs, hkept⟩ := ordered_kept_of_setSched hrun
  refine ⟨fun id hsuspended => hkept id hsuspended.1, ?_, ?_⟩
  · intro label next id hstep hset hcleared
    exact idle_of_cleared hs hstep hset hcleared
  · intro id hdispatched
    exact (seen_of_setSched id hrun).of_dispatched hs hdispatched

theorem setSched_keeps_late_dequeue :
    ∃ s, run (Worker.step .setSched) Worker.initial lateDequeue = some s ∧
      s.com.getLsbD 0 = false ∧ s.tempEvents.getLsbD 0 = true := by
  have hany : (run (Worker.step .setSched) Worker.initial lateDequeue).any
      (fun s => !s.com.getLsbD 0 && decide (s.Suspended 0)) = true := by decide
  obtain ⟨s, hrun, hfacts⟩ := (Option.any_eq_true _ _).1 hany
  simp only [Bool.and_eq_true, Bool.not_eq_true', decide_eq_true_eq] at hfacts
  exact ⟨s, hrun, hfacts.1, (setSched_never_forgets hrun).1 0 hfacts.2⟩

end UserPaging.Usm.Dispatch
