import UserPaging.Usm.Soldiers

/-!
# How often the others go first

Fix a uthread `k` that waits for the processor and another one `j`.  `rank` bounds
how often `j` can still be dispatched before `k`: what is left of the current pass,
the second pass if `k` has not been picked up by a refresh yet, and one more turn
in the pass that serves `k` if `j` has the lower bit.  No step raises the rank and
every dispatch of `j` lowers it, as long as every refresh picks `k` up.

The refresh of `setSched` does so while `k` waits for anything.  That of `soldiers`
forgets a uthread whose kernel thread has taken its bit back, and this can be one
that answered a second request in the turn in which it was posted.
-/

namespace UserPaging.Usm.Dispatch

open UserPaging.Foundation

section

variable (k j : Nat)

/-- In a pass that serves both, `j` goes first if it has the lower bit. -/
def ahead : Nat := if j < k then 1 else 0

/-- What is left for `j` inside a pass; `picked` says that `k` is in `tempEvents`
and so in the next pass. -/
def passRank (received : Nat) (events : BitVec 32) (picked : Bool) : Nat :=
  if events.getLsbD k then (if j < k ∧ events.getLsbD j = true then 1 else 0)
  else (events.getLsbD j).toNat + ahead k j +
    (if picked then 0 else if received = 0 then 1 else 0)

/-- `stays` says that `k` is in the middle of a fault, so that the end of its own
turn does not take its bit out of `tempEvents`. -/
def rank (stays : Bool) (s : Worker) : Nat :=
  match s.main with
  | .receive => ahead k j
  | .passes received =>
      ahead k j + (if s.tempEvents.getLsbD k then 0 else if received = 0 then 2 else 1)
  | .pass received events => passRank k j received events (s.tempEvents.getLsbD k)
  | .away received events id | .back received events id =>
      passRank k j received (clearBit events id)
        (s.tempEvents.getLsbD k && (stays || decide (id ≠ k)))

end

variable {loop : Loop} {s next : Worker} {k j : Nat} {stays : Bool}

private theorem passRank_le (received : Nat) (events : BitVec 32) (picked : Bool) :
    passRank k j received events picked ≤ 3 := by
  have hj := Bool.toNat_le (events.getLsbD j)
  unfold passRank ahead
  split
  · split <;> omega
  · split <;> split <;> first | omega | (split <;> omega)

private theorem rank_le_three (s : Worker) : rank k j stays s ≤ 3 := by
  unfold rank
  split
  · unfold ahead
    split <;> omega
  · unfold ahead
    split <;> split <;> first | omega | (split <;> omega)
  all_goals exact passRank_le ..

private theorem passRank_of_getLsbD {received : Nat} {events : BitVec 32} {picked : Bool}
    (hk : events.getLsbD k = true) : passRank k j received events picked ≤ ahead k j := by
  unfold passRank ahead
  rw [if_pos hk]
  split
  · next hj => rw [if_pos hj.1]
  · exact Nat.zero_le _

private theorem passRank_clearBit {received : Nat} {events : BitVec 32} {picked : Bool} {id : Nat}
    (hid : events.getLsbD id = true) (hlowest : ∀ i, events.getLsbD i = true → id ≤ i)
    (hne : id ≠ k) :
    (decide (id = j)).toNat + passRank k j received (clearBit events id) picked ≤
      passRank k j received events picked := by
  unfold passRank
  rw [getLsbD_clearBit_of_ne hne]
  by_cases hj : id = j
  · subst hj
    rw [getLsbD_clearBit_self, hid]
    by_cases hk : events.getLsbD k = true
    · have hlt : id < k := by
        have hle := hlowest k hk
        omega
      simp [hk, hlt]
    · simp only [hk, decide_true, Bool.toNat_true, Bool.toNat_false, Bool.false_eq_true, if_false]
      omega
  · rw [getLsbD_clearBit_of_ne hj]
    simp [hj]

private theorem passRank_of_picked {received : Nat} {events : BitVec 32} {picked picked' : Bool}
    (himp : picked = true → picked' = true) :
    passRank k j received events picked' ≤ passRank k j received events picked := by
  unfold passRank
  split
  · exact Nat.le_refl _
  · cases picked
    · cases picked' <;> simp
    · rw [himp rfl]

private theorem rank_mainMove (hs : Ordered s)
    (hnext : s.main = .receive → (s.refreshed loop).getLsbD k = true)
    (hstays : stays = true → s.uthread k ≠ .idle) (hne : s.dispatched .main ≠ some k)
    (hmove : MainMove loop s next) :
    (decide (s.dispatched .main = some j)).toNat + rank k j stays next ≤ rank k j stays s := by
  cases hmove with
  | refresh hmain =>
      have hpasses : (s.refresh loop).main = .passes 0 :=
        if_neg (ne_zero_of_getLsbD (hnext hmain))
      have hpicked : (s.refresh loop).tempEvents.getLsbD k = true := hnext hmain
      simp [rank, Worker.dispatched, hmain, hpasses, hpicked]
  | drained hmain hempty => simp [rank, Worker.setMain, Worker.dispatched, hmain]
  | @beginPass received hmain =>
      have hcount : (decide (s.dispatched .main = some j)).toNat = 0 := by
        simp [Worker.dispatched, hmain]
      rw [hcount, Nat.zero_add]
      simp only [rank, Worker.setMain, hmain]
      by_cases hk : s.tempEvents.getLsbD k = true
      · rw [if_pos hk, Nat.add_zero]
        exact passRank_of_getLsbD hk
      · have hj := Bool.toNat_le (s.tempEvents.getLsbD j)
        simp only [passRank, hk, Bool.false_eq_true, if_false]
        split <;> omega
  | again hmain =>
      simp [rank, Worker.setMain, Worker.dispatched, hmain, passRank]
  | leave hmain hreceived =>
      simp [rank, Worker.setMain, Worker.dispatched, hmain, passRank, hreceived]
  | @dispatch received events id hmain hid hlowest hdispatched =>
      rw [hdispatched] at hne
      have hidk : id ≠ k := fun h => hne (congrArg some h)
      have hpay : (decide (id = j)).toNat +
            passRank k j received (clearBit events id) (s.tempEvents.getLsbD k) ≤
          passRank k j received events (s.tempEvents.getLsbD k) :=
        passRank_clearBit hid hlowest hidk
      simp only [rank, hmain, Worker.dispatch, hdispatched, Option.some.injEq]
      simpa [hidk] using hpay
  | @account received events id hmain =>
      have hcount : (decide (s.dispatched .main = some j)).toNat = 0 := by
        simp [Worker.dispatched, hmain]
      rw [hcount, Nat.zero_add]
      simp only [rank, Worker.account, hmain]
      apply passRank_of_picked
      intro hpicked
      simp only [Bool.and_eq_true, Bool.or_eq_true, decide_eq_true_eq] at hpicked
      obtain ⟨hk, hcase⟩ := hpicked
      by_cases hidk : id = k
      · have hbusy := hstays (hcase.resolve_right fun hne => hne hidk)
        rw [hidk, if_pos ((hs.flag k).2 hbusy)]
        exact hk
      · split
        · exact hk
        · rw [getLsbD_clearBit_of_ne hidk]
          exact hk

private theorem rank_uthreadMove {received : Nat} {events : BitVec 32} {id : Nat}
    (hmain : s.main = .away received events id) (hmove : UthreadMove s received events id next) :
    rank k j stays next = rank k j stays s := by
  cases hmove <;>
    simp [rank, Worker.setUthread, Worker.setStatus, Worker.setMain, Worker.finish, hmain]

private theorem rank_sameDaemon (hsame : SameDaemon s next) :
    rank k j stays next = rank k j stays s := by
  simp only [rank, hsame.main, hsame.tempEvents]

private theorem rank_step {label : Label} (hs : Ordered s)
    (hnext : label = .main → s.main = .receive → (s.refreshed loop).getLsbD k = true)
    (hstays : stays = true → s.uthread k ≠ .idle) (hne : s.dispatched label ≠ some k)
    (hstep : s.step loop label = some next) :
    (decide (s.dispatched label = some j)).toNat + rank k j stays next ≤ rank k j stays s := by
  obtain ⟨rfl, hmove⟩ | ⟨hnone, hother⟩ := Worker.step_cases hstep
  · exact rank_mainMove hs (hnext rfl) hstays hne hmove
  · rw [hnone]
    obtain ⟨received, events, id, hmain, -, hmove⟩ | hsame := hother
    · rw [rank_uthreadMove hmain hmove]
      simp
    · rw [rank_sameDaemon hsame]
      simp

private theorem refreshed_of_unanswered (hs : Ordered s) (hwaits : s.Unanswered k) :
    (s.refreshed loop).getLsbD k = true := by
  have hcom : s.com.getLsbD k = true := by
    apply hs.posted k
    rw [hwaits.1]
    rfl
  cases loop with
  | setSched => rw [Worker.refreshed, BitVec.getLsbD_or, hcom, Bool.or_true]
  | soldiers => exact hcom

private theorem unanswered_step {label : Label} (hwaits : s.Unanswered k)
    (hstep : s.step loop label = some next) :
    next.Unanswered k ∨ next.main.onCpu = some k := by
  obtain ⟨hkernel, hstatus⟩ := hwaits
  cases label with
  | main =>
      left
      cases Worker.mainMove_of_step hstep <;> exact ⟨hkernel, hstatus⟩
  | uthread submits =>
      obtain ⟨received, events, id, hmain, -, hmove⟩ := Worker.uthread_cases hstep
      cases hmove with
      | stays status point hpoint =>
          by_cases hid : k = id
          · right
            simp [Worker.setUthread, Worker.setStatus, hmain, MainPoint.onCpu, hid]
          · left
            refine ⟨hkernel, ?_⟩
            simpa [Worker.setUthread, Worker.setStatus, Function.update_of_ne hid] using hstatus
      | spins | yields | finishes => exact .inl ⟨hkernel, hstatus⟩
  | fault id =>
      left
      simp only [Worker.step] at hstep
      split at hstep
      · next hfault =>
          cases hstep
          have hid : k ≠ id := by
            rintro rfl
            rw [hkernel] at hfault
            cases hfault.2
          refine ⟨?_, hstatus⟩
          simpa [Worker.setKernel, Function.update_of_ne hid] using hkernel
      · cases hstep
  | kernel id outcome =>
      left
      by_cases hid : id = k
      · subst hid
        have hsame : next = s := by
          simpa [Worker.step, Worker.kernelStep, hkernel, hstatus] using hstep.symm
        rw [hsame]
        exact ⟨hkernel, hstatus⟩
      · obtain ⟨hkernel', hstatus', -⟩ := Worker.kernelStep_other hstep hid
        exact ⟨hkernel'.trans hkernel, hstatus'.trans hstatus⟩

private theorem rank_dispatch (hs : Ordered s) {received : Nat} {events : BitVec 32}
    (hmain : s.main = .pass received events) (hk : events.getLsbD k = true)
    (hlowest : ∀ i, events.getLsbD i = true → k ≤ i) :
    rank k j true (s.dispatch received events k) ≤ 1 := by
  have hcopy := hs.copy k
  rw [hmain] at hcopy
  have hpicked := hcopy hk
  have hj : j < k → events.getLsbD j = false := by
    intro hlt
    by_contra hset
    have hle := hlowest j (by simpa using hset)
    omega
  simp only [rank, passRank, Worker.dispatch, hpicked, getLsbD_clearBit_self, Bool.true_or,
    Bool.and_true, Bool.false_eq_true, if_false, if_true, getLsbD_clearBit]
  unfold ahead
  split
  · next hlt => simp [hj hlt]
  · exact Bool.toNat_le _

private theorem rank_dispatched (hs : Ordered s) (hdispatched : s.dispatched .main = some k)
    (hstep : s.step loop .main = some next) : rank k j true next ≤ 1 := by
  cases Worker.mainMove_of_step hstep with
  | dispatch hmain hid hlowest hchosen =>
      rw [hdispatched] at hchosen
      cases hchosen
      exact rank_dispatch hs hmain hid hlowest
  | refresh hmain | drained hmain | beginPass hmain | account hmain =>
      simp [Worker.dispatched, hmain] at hdispatched
  | again hmain | leave hmain => simp [Worker.dispatched, hmain] at hdispatched

def turnOf (j : Nat) (s : Worker) (label : Label) : Bool := decide (s.dispatched label = some j)

/-- There is something to dispatch `k` for: a request without an answer, or a fault in the
middle of which its uthread is. -/
def Waits (s : Worker) (k : Nat) : Prop := s.Unanswered k ∨ s.uthread k ≠ .idle

instance (s : Worker) (k : Nat) : Decidable (Waits s k) := inferInstanceAs (Decidable (_ ∨ _))

/-- A refresh of `soldiers` finds the bit of `k` in the event word while `k` waits in
`usm_mem_subm_ev`. -/
def RefreshFinds (loop : Loop) (k : Nat) (s : Worker) (label : Label) : Prop :=
  loop = .soldiers → s.main = .receive → label = .main → s.uthread k = .submitted →
    s.com.getLsbD k = true

instance (loop : Loop) (k : Nat) (s : Worker) (label : Label) :
    Decidable (RefreshFinds loop k s label) :=
  inferInstanceAs (Decidable (_ → _ → _ → _ → _))

private theorem refreshed_of_waits {label : Label} (hs : Ordered s)
    (hkept : loop = .setSched → Kept s)
    (hwaits : Waits s k) (hfinds : RefreshFinds loop k s label) (hlabel : label = .main)
    (hmain : s.main = .receive) : (s.refreshed loop).getLsbD k = true := by
  rcases hwaits with hwaits | hbusy
  · exact refreshed_of_unanswered hs hwaits
  · cases loop with
    | setSched => rw [Worker.refreshed, BitVec.getLsbD_or, hkept rfl k hbusy, Bool.true_or]
    | soldiers =>
        have hoff : s.main.onCpu ≠ some k := by simp [hmain, MainPoint.onCpu]
        exact hfinds rfl hmain hlabel (hs.waiting k ⟨hbusy, hoff⟩)

private theorem turns_le_of_waits {more : List Label} {final : Worker} (hs : Ordered s)
    (hkept : loop = .setSched → Kept s) (hmore : run (Worker.step loop) s more = some final)
    (hmeets : StepsMeet (Worker.step loop)
      (fun t label => t.dispatched label ≠ some k ∧ Waits t k ∧ RefreshFinds loop k t label)
      s more) :
    stepCount (Worker.step loop) (turnOf j) s more ≤ 3 := by
  have hkeep (t : Worker) (label : Label) (next : Worker)
      (ht : Ordered t ∧ (loop = .setSched → Kept t))
      (hstep : Worker.step loop t label = some next) :
      Ordered next ∧ (loop = .setSched → Kept next) := by
    refine ⟨ht.1.step hstep, fun hloop => ?_⟩
    subst hloop
    exact (ordered_kept_step ⟨ht.1, ht.2 rfl⟩ hstep).2
  have hpay (t : Worker) (label : Label) (next : Worker)
      (ht : Ordered t ∧ (loop = .setSched → Kept t))
      (hcond : t.dispatched label ≠ some k ∧ Waits t k ∧ RefreshFinds loop k t label)
      (hstep : Worker.step loop t label = some next) :
      (turnOf j t label).toNat + rank k j false next ≤ rank k j false t :=
    rank_step ht.1 (refreshed_of_waits ht.1 ht.2 hcond.2.1 hcond.2.2) (by simp) hcond.1 hstep
  calc
    stepCount (Worker.step loop) (turnOf j) s more ≤ rank k j false s :=
      stepCount_le_rank (fun t label next ht _ hstep => hkeep t label next ht hstep) hpay
        ⟨hs, hkept⟩ hmeets hmore
    _ ≤ 3 := rank_le_three s

private theorem onCpu_step {label : Label} (hoff : s.main.onCpu ≠ some k)
    (hne : s.dispatched label ≠ some k) (hstep : s.step loop label = some next) :
    next.main.onCpu ≠ some k := by
  obtain ⟨rfl, hmove⟩ | ⟨-, ⟨received, events, id, hmain, -, hmove⟩ | hsame⟩ :=
    Worker.step_cases hstep
  · cases hmove with
    | dispatch hmain hid hlowest hdispatched =>
        rw [hdispatched] at hne
        simpa [Worker.dispatch, MainPoint.onCpu] using hne
    | refresh hmain =>
        simp only [Worker.refresh]
        split <;> simp [MainPoint.onCpu]
    | drained hmain hempty | again hmain | leave hmain hreceived =>
        simp [Worker.setMain, MainPoint.onCpu]
    | beginPass hmain => simp [Worker.setMain, MainPoint.onCpu]
    | account hmain => simp [Worker.account, MainPoint.onCpu]
  · cases hmove with
    | stays status point hpoint => exact hoff
    | spins => exact hoff
    | yields hpoint => simp [Worker.setMain, MainPoint.onCpu]
    | finishes => simp [Worker.finish, MainPoint.onCpu]
  · rw [hsame.main]
    exact hoff

private theorem turns_le_of_off {more : List Label} {final : Worker} (hs : Ordered s)
    (hwaits : s.Unanswered k) (hoff : s.main.onCpu ≠ some k)
    (hmore : run (Worker.step loop) s more = some final)
    (hmeets : StepsMeet (Worker.step loop) (fun t label => t.dispatched label ≠ some k) s more) :
    stepCount (Worker.step loop) (turnOf j) s more ≤ 3 := by
  have hkeep (t : Worker) (label : Label) (next : Worker)
      (ht : Ordered t ∧ t.Unanswered k ∧ t.main.onCpu ≠ some k)
      (hcond : t.dispatched label ≠ some k) (hstep : Worker.step loop t label = some next) :
      Ordered next ∧ next.Unanswered k ∧ next.main.onCpu ≠ some k := by
    have hoff' := onCpu_step ht.2.2 hcond hstep
    exact ⟨ht.1.step hstep, (unanswered_step ht.2.1 hstep).resolve_right hoff', hoff'⟩
  have hpay (t : Worker) (label : Label) (next : Worker)
      (ht : Ordered t ∧ t.Unanswered k ∧ t.main.onCpu ≠ some k)
      (hcond : t.dispatched label ≠ some k) (hstep : Worker.step loop t label = some next) :
      (turnOf j t label).toNat + rank k j false next ≤ rank k j false t :=
    rank_step ht.1 (fun _ _ => refreshed_of_unanswered ht.1 ht.2.1) (by simp) hcond hstep
  calc
    stepCount (Worker.step loop) (turnOf j) s more ≤ rank k j false s :=
      stepCount_le_rank hkeep hpay ⟨hs, hwaits, hoff⟩ hmeets hmore
    _ ≤ 3 := rank_le_three s

private theorem turns_le_of_busy {more : List Label} {final : Worker} (hs : Ordered s ∧ Kept s)
    (hmore : run (Worker.step .setSched) s more = some final)
    (hmeets : StepsMeet (Worker.step .setSched)
      (fun t label => t.uthread k ≠ .idle ∧ t.dispatched label ≠ some k) s more) :
    stepCount (Worker.step .setSched) (turnOf j) s more ≤ rank k j true s := by
  have hpay (t : Worker) (label : Label) (next : Worker) (ht : Ordered t ∧ Kept t)
      (hcond : t.uthread k ≠ .idle ∧ t.dispatched label ≠ some k)
      (hstep : Worker.step .setSched t label = some next) :
      (turnOf j t label).toNat + rank k j true next ≤ rank k j true t := by
    refine rank_step ht.1 (fun _ _ => ?_) (fun _ => hcond.1) hcond.2 hstep
    rw [Worker.refreshed, BitVec.getLsbD_or, ht.2 k hcond.1, Bool.true_or]
  exact stepCount_le_rank (fun _ _ _ ht _ hstep => ordered_kept_step ht hstep) hpay hs hmeets
    hmore

/-- Thread `k` has a request without an answer, and uthread `j` goes at most three times until
`k` is dispatched: in either loop if `k` does not have the processor, and otherwise while there
is something to dispatch it for, in `soldiers` as long as the refreshes find its bit.  In
`setSched` `j` goes at most once between two turns of `k` inside one fault. -/
theorem bounded_bypass (k j : Nat) :
    (∀ (loop : Loop) (labels more : List Label) (s final : Worker),
      run (Worker.step loop) Worker.initial labels = some s → s.Unanswered k →
      run (Worker.step loop) s more = some final →
      (s.main.onCpu ≠ some k →
        StepsMeet (Worker.step loop) (fun t label => t.dispatched label ≠ some k) s more →
        stepCount (Worker.step loop) (turnOf j) s more ≤ 3) ∧
      (StepsMeet (Worker.step loop) (fun t label => t.dispatched label ≠ some k ∧ Waits t k ∧
          RefreshFinds loop k t label) s more →
        stepCount (Worker.step loop) (turnOf j) s more ≤ 3)) ∧
      ∀ (labels more : List Label) (s next final : Worker),
        run (Worker.step .setSched) Worker.initial labels = some s →
        s.dispatched .main = some k → s.step .setSched .main = some next →
        run (Worker.step .setSched) next more = some final →
        StepsMeet (Worker.step .setSched)
          (fun t label => t.uthread k ≠ .idle ∧ t.dispatched label ≠ some k) next more →
        stepCount (Worker.step .setSched) (turnOf j) next more ≤ 1 := by
  constructor
  · intro loop labels more s final hrun hwaits hmore
    have hs := Ordered.of_run hrun
    have hkept : loop = .setSched → Kept s := by
      rintro rfl
      exact (ordered_kept_of_setSched hrun).2
    exact ⟨fun hoff hmeets => turns_le_of_off hs hwaits hoff hmore hmeets,
      fun hmeets => turns_le_of_waits hs hkept hmore hmeets⟩
  · intro labels more s next final hrun hdispatched hstep hmore hmeets
    have hs := ordered_kept_of_setSched hrun
    calc
      stepCount (Worker.step .setSched) (turnOf j) next more ≤ rank k j true next :=
        turns_le_of_busy (ordered_kept_step hs hstep) hmore hmeets
      _ ≤ 1 := rank_dispatched hs.1 hdispatched hstep

def postedLate : List Label :=
  [.fault 0, .kernel 0 .applied, .kernel 0 .applied, .kernel 0 .applied,
    .fault 2, .kernel 2 .applied, .kernel 2 .applied, .kernel 2 .applied, .main,
    .fault 1, .kernel 1 .applied, .kernel 1 .applied, .kernel 1 .applied]

/-- Two passes over 0 and 2, a refresh, and the turn of 0 in the pass that serves 1. -/
def threeTurns : List Label :=
  [.main, .main, .uthread true, .uthread true, .uthread true, .main,
    .main, .uthread true, .uthread true, .uthread true, .main, .main,
    .main, .main, .uthread true, .main, .main, .uthread true, .main, .main,
    .main, .main, .main]

theorem bounded_bypass_three_turns :
    ∃ s final, run (Worker.step .soldiers) Worker.initial postedLate = some s ∧
      run (Worker.step .soldiers) s threeTurns = some final ∧
      stepCount (Worker.step .soldiers) (turnOf 0) s threeTurns = 3 ∧
      stepCount (Worker.step .soldiers) (turnOf 0) s threeTurns ≤ 3 := by
  have hany : (run (Worker.step .soldiers) Worker.initial postedLate).any (fun s =>
      (run (Worker.step .soldiers) s threeTurns).isSome && decide (s.Unanswered 1) &&
        decide (s.main.onCpu ≠ some 1) &&
        decide (StepsMeet (Worker.step .soldiers) (fun t label => t.dispatched label ≠ some 1) s
          threeTurns) &&
        stepCount (Worker.step .soldiers) (turnOf 0) s threeTurns == 3) = true := by
    decide
  obtain ⟨s, hrun, hfacts⟩ := (Option.any_eq_true _ _).1 hany
  simp only [Bool.and_eq_true, decide_eq_true_eq, beq_iff_eq] at hfacts
  obtain ⟨⟨⟨⟨hsome, hwaits⟩, hoff⟩, hmeets⟩, hthree⟩ := hfacts
  obtain ⟨final, hmore⟩ := Option.isSome_iff_exists.1 hsome
  exact ⟨s, final, hrun, hmore, hthree,
    ((bounded_bypass 1 0).1 .soldiers postedLate threeTurns s final hrun hwaits hmore).1 hoff
      hmeets⟩

/-- Uthread 0 is in its second turn when its thread finds the page mapped already and faults
again: the new request is posted while the uthread goes on with the old fault. -/
def postedInTurn : List Label :=
  [.fault 0, .kernel 0 .applied, .kernel 0 .applied, .kernel 0 .applied,
    .fault 1, .kernel 1 .applied, .kernel 1 .applied, .kernel 1 .applied, .main, .main,
    .main, .uthread true, .uthread true, .uthread true, .main,
    .main, .uthread true, .uthread true, .uthread true, .main, .main, .main, .main,
    .kernel 0 .applied, .kernel 0 .alreadyMapped, .uthread true, .uthread true,
    .fault 0, .kernel 0 .applied, .kernel 0 .applied, .kernel 0 .applied]

/-- Thread 1 is found mapped already too, and its bit stays in the event word: a pass serves
nobody else. -/
def threePasses : List Label :=
  (List.replicate 3 [.main, .main, .main, .uthread true, .main, .main, .main]).flatten

/-- Uthread 0 submits again, the answer is applied and the bit taken back, and uthread 1 goes
on to the end of the pass.  The refresh forgets uthread 0. -/
def forgotten : List Label :=
  [.uthread true, .uthread true, .main, .kernel 0 .applied, .kernel 0 .applied,
    .kernel 0 .applied, .main, .uthread true, .main, .main,
    .main, .main, .main, .kernel 1 .applied, .kernel 1 .alreadyMapped, .uthread true,
    .uthread true, .uthread false, .main, .main, .main] ++ threePasses

def answeredInTurn : List Label :=
  [.uthread true, .kernel 0 .applied, .kernel 0 .applied, .kernel 0 .applied, .uthread true,
    .uthread true, .uthread false, .main, .main, .kernel 1 .applied, .kernel 1 .alreadyMapped,
    .uthread true, .uthread true, .uthread false, .main, .main] ++ threePasses

/-- Uthread 1 has four turns and more after the request of thread 0, none of them after a turn
of uthread 0: `soldiers` has lost it, `setSched` has nothing left to dispatch it for. -/
theorem four_turns_before_dispatch :
    (∃ s final, run (Worker.step .soldiers) Worker.initial postedInTurn = some s ∧
      s.Unanswered 0 ∧ run (Worker.step .soldiers) s forgotten = some final ∧
      StepsMeet (Worker.step .soldiers)
        (fun t label => t.dispatched label ≠ some 0 ∧ Waits t 0) s forgotten ∧
      stepCount (Worker.step .soldiers) (turnOf 1) s forgotten = 5 ∧ Stuck final 0) ∧
    ∃ s final, run (Worker.step .setSched) Worker.initial postedInTurn = some s ∧
      s.Unanswered 0 ∧ run (Worker.step .setSched) s answeredInTurn = some final ∧
      StepsMeet (Worker.step .setSched)
        (fun t label => t.dispatched label ≠ some 0) s answeredInTurn ∧
      stepCount (Worker.step .setSched) (turnOf 1) s answeredInTurn = 4 ∧
      final.uthread 0 = .idle := by
  have hlost : (run (Worker.step .soldiers) Worker.initial postedInTurn).any (fun s =>
      decide (s.Unanswered 0) &&
        (run (Worker.step .soldiers) s forgotten).any (fun final => decide (Stuck final 0)) &&
        decide (StepsMeet (Worker.step .soldiers)
          (fun t label => t.dispatched label ≠ some 0 ∧ Waits t 0) s forgotten) &&
        stepCount (Worker.step .soldiers) (turnOf 1) s forgotten == 5) = true := by
    decide
  have hdone : (run (Worker.step .setSched) Worker.initial postedInTurn).any (fun s =>
      decide (s.Unanswered 0) &&
        (run (Worker.step .setSched) s answeredInTurn).any
          (fun final => decide (final.uthread 0 = .idle)) &&
        decide (StepsMeet (Worker.step .setSched)
          (fun t label => t.dispatched label ≠ some 0) s answeredInTurn) &&
        stepCount (Worker.step .setSched) (turnOf 1) s answeredInTurn == 4) = true := by
    decide
  simp only [Option.any_eq_true, Bool.and_eq_true, decide_eq_true_eq, beq_iff_eq] at hlost hdone
  obtain ⟨s, hrun, ⟨⟨hwaits, final, hmore, hstuck⟩, hmeets⟩, hfive⟩ := hlost
  obtain ⟨t, htrun, ⟨⟨htwaits, last, htmore, hidle⟩, htmeets⟩, hfour⟩ := hdone
  exact ⟨⟨s, final, hrun, hwaits, hmore, hmeets, hfive, hstuck⟩,
    t, last, htrun, htwaits, htmore, htmeets, hfour, hidle⟩

end UserPaging.Usm.Dispatch
