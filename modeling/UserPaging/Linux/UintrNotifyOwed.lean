import UserPaging.Linux.UintrNotifySteps
import Mathlib.Data.List.Count

/-!
# No user interrupt is lost or made up

To the tasks, the protocol is two sets of vectors for each receiver.  A post adds a
vector to the first, the vectors of the first move to the second, and a vector is
delivered from there.  The protocol keeps the first set in `puir` and the second in
`UIRR`, which is a register of a CPU or in the memory of the task, and other CPUs
post while it is moved about.  In every order of the steps it does what the sets do.
So a vector is not delivered more often than it has been posted, and one that has
been posted stays in `puir` or `UIRR` until it is delivered.
-/

namespace UserPaging.Linux.Notify

open UserPaging.Foundation UserPaging.Linux.Uintr

/-! ### The two sets -/

structure Pending where
  posted : BitVec 64 := 0
  recognized : BitVec 64 := 0

inductive Action where
  | post (t : Task) (uvec : Nat)
  | recognize (t : Task)
  | deliver (t : Task) (uvec : Nat)
  | internal
  deriving DecidableEq

namespace Pending

def post (x : Pending) (uvec : Nat) : Pending := { x with posted := setBit x.posted uvec }

def recognize (x : Pending) : Pending := ⟨0, x.recognized ||| x.posted⟩

def deliver (x : Pending) (uvec : Nat) : Pending :=
  { x with recognized := clearBit x.recognized uvec }

def owed (x : Pending) (uvec : Nat) : Nat :=
  (x.posted.getLsbD uvec).toNat + (x.recognized.getLsbD uvec).toNat

end Pending

namespace Action

def apply (sets : Task → Pending) : Action → Task → Pending
  | .post t uvec => Function.update sets t ((sets t).post uvec)
  | .recognize t => Function.update sets t (sets t).recognize
  | .deliver t uvec => Function.update sets t ((sets t).deliver uvec)
  | .internal => sets

def Due (sets : Task → Pending) : Action → Prop
  | .deliver t uvec => (sets t).recognized.getLsbD uvec = true
  | _ => True

end Action

def AllDue (sets : Task → Pending) : List Action → Prop
  | [] => True
  | action :: actions => action.Due sets ∧ AllDue (action.apply sets) actions

def postedSince (t : Task) (uvec : Nat) (posted : Bool) : List Action → Bool
  | [] => posted
  | action :: actions =>
      postedSince t uvec
        (if action = .post t uvec then true else if action = .deliver t uvec then false else posted)
        actions

section Sets

variable {sets : Task → Pending} {t : Task} {uvec : Nat}

namespace Pending

private theorem owed_post_self (x : Pending) (huvec : uvec < 64) :
    0 < (x.post uvec).owed uvec ∧ (x.post uvec).owed uvec ≤ x.owed uvec + 1 := by
  simp only [post, owed, getLsbD_setBit_self huvec, Bool.toNat_true]
  omega

private theorem owed_post_of_ne (x : Pending) {uvec' : Nat} (hne : uvec' ≠ uvec) :
    (x.post uvec').owed uvec = x.owed uvec := by
  simp only [post, owed, getLsbD_setBit_of_ne hne]

private theorem owed_recognize (x : Pending) (uvec : Nat) :
    (0 < x.owed uvec → 0 < x.recognize.owed uvec) ∧ x.recognize.owed uvec ≤ x.owed uvec := by
  simp only [recognize, owed, BitVec.getLsbD_or]
  cases x.posted.getLsbD uvec <;> cases x.recognized.getLsbD uvec <;> simp

private theorem owed_deliver_self (x : Pending) (hdue : x.recognized.getLsbD uvec = true) :
    (x.deliver uvec).owed uvec + 1 = x.owed uvec := by
  simp only [deliver, owed, getLsbD_clearBit_self, hdue]
  simp

private theorem owed_deliver_of_ne (x : Pending) {uvec' : Nat} (hne : uvec' ≠ uvec) :
    (x.deliver uvec').owed uvec = x.owed uvec := by
  simp only [deliver, owed, getLsbD_clearBit_of_ne hne]

end Pending

namespace Action

/-- An action that neither posts nor delivers the vector does not lose it and does not make it
up. -/
private theorem owed_of_ne {action : Action} (hpost : action ≠ .post t uvec)
    (hdeliver : action ≠ .deliver t uvec) :
    (0 < (sets t).owed uvec → 0 < (action.apply sets t).owed uvec) ∧
      (action.apply sets t).owed uvec ≤ (sets t).owed uvec := by
  cases action with
  | internal => exact ⟨id, le_rfl⟩
  | post t' uvec' =>
      by_cases ht : t' = t
      · subst ht
        have hne : uvec' ≠ uvec := fun heq => hpost (by rw [heq])
        simp only [apply, Function.update_self, (sets t').owed_post_of_ne hne]
        exact ⟨id, le_rfl⟩
      · simp only [apply, Function.update_of_ne (Ne.symm ht)]
        exact ⟨id, le_rfl⟩
  | recognize t' =>
      by_cases ht : t' = t
      · subst ht
        simp only [apply, Function.update_self]
        exact (sets t').owed_recognize uvec
      · simp only [apply, Function.update_of_ne (Ne.symm ht)]
        exact ⟨id, le_rfl⟩
  | deliver t' uvec' =>
      by_cases ht : t' = t
      · subst ht
        have hne : uvec' ≠ uvec := fun heq => hdeliver (by rw [heq])
        simp only [apply, Function.update_self, (sets t').owed_deliver_of_ne hne]
        exact ⟨id, le_rfl⟩
      · simp only [apply, Function.update_of_ne (Ne.symm ht)]
        exact ⟨id, le_rfl⟩

end Action

private theorem owed_add_count_le (huvec : uvec < 64) {actions : List Action}
    (hdue : AllDue sets actions) :
    (actions.foldl Action.apply sets t).owed uvec + actions.count (.deliver t uvec) ≤
      (sets t).owed uvec + actions.count (.post t uvec) := by
  induction actions generalizing sets with
  | nil => simp
  | cons action actions ih =>
      have hrest := ih hdue.2
      rw [List.foldl_cons, List.count_cons, List.count_cons]
      by_cases hpost : action = .post t uvec
      · subst hpost
        have hstep : ((Action.post t uvec).apply sets t).owed uvec ≤ (sets t).owed uvec + 1 := by
          simpa [Action.apply] using ((sets t).owed_post_self huvec).2
        simp only [beq_self_eq_true, if_true, reduceCtorEq, beq_iff_eq, if_false]
        omega
      · by_cases hdeliver : action = .deliver t uvec
        · subst hdeliver
          have hstep : ((Action.deliver t uvec).apply sets t).owed uvec + 1 =
              (sets t).owed uvec := by
            simpa [Action.apply] using (sets t).owed_deliver_self hdue.1
          simp only [beq_self_eq_true, if_true, reduceCtorEq, beq_iff_eq, if_false]
          omega
        · have hstep : (action.apply sets t).owed uvec ≤ (sets t).owed uvec :=
            (Action.owed_of_ne hpost hdeliver).2
          simp only [beq_iff_eq, hpost, hdeliver, if_false]
          omega

private theorem owed_of_postedSince (huvec : uvec < 64) {posted : Bool} {actions : List Action}
    (hposted : posted = true → 0 < (sets t).owed uvec)
    (hsince : postedSince t uvec posted actions = true) :
    0 < (actions.foldl Action.apply sets t).owed uvec := by
  induction actions generalizing sets posted with
  | nil => exact hposted hsince
  | cons action actions ih =>
      refine ih ?_ hsince
      by_cases hpost : action = .post t uvec
      · subst hpost
        intro _
        simpa [Action.apply] using ((sets t).owed_post_self huvec).1
      · by_cases hdeliver : action = .deliver t uvec
        · simp [hdeliver]
        · rw [if_neg hpost, if_neg hdeliver]
          exact fun hb => (Action.owed_of_ne hpost hdeliver).1 (hposted hb)

end Sets

/-! ### What the protocol keeps -/

namespace State

def uirr (s : State) (t : Task) : BitVec 64 :=
  match (s.fpu t).loaded with
  | some c => (s.core c).regs.uirr
  | none => (s.fpu t).saved.uirr

def pending (s : State) (t : Task) : Pending := ⟨(s.upid t).puir, s.uirr t⟩

def action (s : State) : Event → Action
  | .senduipi t uvec =>
      if s.accepts t uvec ∧ (s.upid t).blkd = false then .post t uvec else .internal
  | .notifyPost k t uvec =>
      match s.senders k with
      | .idle => if s.accepts t uvec then .post t uvec else .internal
      | _ => .internal
  | .fixupPost k =>
      match s.senders k with
      | .unblocked t uvec => .post t uvec
      | _ => .internal
  | .recognize c =>
      if (s.core c).recognizing then
        match (s.core c).owner with
        | some t => .recognize t
        | none => .internal
      else .internal
  | .deliver c uvec =>
      match (s.core c).current with
      | some t =>
          if (s.core c).mode = .user ∧ (s.core c).recognizing = false ∧
              (s.core c).regs.uirr.getLsbD uvec = true then .deliver t uvec
          else .internal
      | none => .internal
  | _ => .internal

def actions (s : State) : List Event → List Action
  | [] => []
  | event :: events => s.action event :: (s.step event).actions events

end State

variable {s s' : State} {c : Cpu} {t : Task} {k : Sender} {uvec : Nat}

private theorem pending_congr (hpuir : ∀ t, (s'.upid t).puir = (s.upid t).puir)
    (hfpu : s'.fpu = s.fpu)
    (hregs : ∀ c, (s'.core c).regs.uirr = (s.core c).regs.uirr) : s'.pending = s.pending := by
  funext t
  simp only [State.pending, State.uirr, hpuir, hfpu, hregs]

private theorem pending_setUpid {x : Upid} (hx : x.puir = (s.upid t).puir) :
    (s.setUpid t x).pending = s.pending := by
  refine pending_congr (fun t' => ?_) rfl fun _ => rfl
  by_cases heq : t' = t <;> simp [heq, hx]

private theorem pending_post {x : Upid} (hx : x.puir = setBit (s.upid t).puir uvec) :
    (s.setUpid t x).pending = (Action.post t uvec).apply s.pending := by
  funext t'
  by_cases heq : t' = t
  · subst heq
    simp [State.pending, State.uirr, Action.apply, Pending.post, hx]
  · simp [State.pending, State.uirr, Action.apply, heq]

private theorem pending_ipi (vector : Nat) : (s.ipi c vector).pending = s.pending := by
  unfold State.ipi
  split_ifs <;> rfl

private theorem pending_setCore {x : Core} (hx : x.regs.uirr = (s.core c).regs.uirr) :
    (s.setCore c x).pending = s.pending := by
  refine pending_congr (fun _ => rfl) rfl fun d => ?_
  by_cases heq : d = c <;> simp [heq, hx]

private theorem pending_setMode (mode : Mode) : (s.setMode c mode).pending = s.pending :=
  pending_setCore rfl

private theorem Quiet.pending (h : Quiet s s') : s'.pending = s.pending :=
  pending_congr h.puir h.fpu fun c => by rw [h.core]

/-! ### Steps that post -/

private theorem pending_senduipi (hblkd : (s.upid t).blkd = false) :
    (s.senduipi t uvec).pending = (Action.post t uvec).apply s.pending := by
  have hpost : (s.setUpid t ((s.upid t).post uvec)).pending =
      (Action.post t uvec).apply s.pending := pending_post rfl
  unfold State.senduipi
  dsimp only
  rw [if_neg (by simp [hblkd])]
  split
  · rw [pending_ipi, hpost]
  · exact hpost

private theorem pending_notifyPost (hk : s.senders k = .idle) :
    (s.notifyPost k t uvec).pending = (Action.post t uvec).apply s.pending := by
  simp only [State.notifyPost, hk]
  exact pending_post (s := s) (by rfl)

private theorem pending_fixupPost (hk : s.senders k = .unblocked t uvec) :
    (s.fixupPost k).pending = (Action.post t uvec).apply s.pending := by
  simp only [State.fixupPost, hk]
  exact pending_post (s := s) (by rfl)

private theorem pending_step_senduipi (s : State) (t : Task) (uvec : Nat) :
    (s.step (.senduipi t uvec)).pending = (s.action (.senduipi t uvec)).apply s.pending := by
  simp only [State.step, State.action]
  by_cases hcost : s.accepts t uvec
  · cases hblkd : (s.upid t).blkd with
    | false =>
        rw [if_pos hcost, if_pos ⟨hcost, rfl⟩]
        exact pending_senduipi hblkd
    | true =>
        rw [if_pos hcost, if_neg (by simp)]
        simp [State.senduipi, hblkd, Action.apply]
  · rw [if_neg hcost, if_neg fun hand => hcost hand.1]
    rfl

private theorem pending_step_notifyPost (s : State) (k : Sender) (t : Task) (uvec : Nat) :
    (s.step (.notifyPost k t uvec)).pending =
      (s.action (.notifyPost k t uvec)).apply s.pending := by
  simp only [State.step, State.action]
  by_cases hcost : s.accepts t uvec
  · rw [if_pos hcost]
    cases hk : s.senders k with
    | idle => simpa [hcost] using pending_notifyPost hk
    | _ => simp [State.notifyPost, hk, Action.apply]
  · rw [if_neg hcost]
    cases s.senders k <;> simp [hcost, Action.apply]

private theorem pending_step_fixupPost (s : State) (k : Sender) :
    (s.step (.fixupPost k)).pending = (s.action (.fixupPost k)).apply s.pending := by
  simp only [State.step, State.action]
  cases hk : s.senders k with
  | unblocked t uvec => exact pending_fixupPost hk
  | _ => simp [State.fixupPost, hk, Action.apply]

/-! ### Steps that leave the vectors where they are -/

private theorem pending_notifyTestSn : (s.notifyTestSn k).pending = s.pending := by
  simp only [State.notifyTestSn]
  split <;> rfl

private theorem pending_notifyTestAndSetOn : (s.notifyTestAndSetOn k).pending = s.pending := by
  simp only [State.notifyTestAndSetOn]
  split
  · exact pending_setUpid (s := s) (by rfl)
  · rfl

private theorem pending_notifySend : (s.notifySend k).pending = s.pending := by
  simp only [State.notifySend]
  split
  · exact pending_ipi (s := s) _
  · rfl

private theorem pending_step_fixupUnblock (s : State) (k : Sender) (t : Task) (uvec : Nat) :
    (s.step (.fixupUnblock k t uvec)).pending = s.pending := by
  simp only [State.step, State.fixupUnblock]
  split
  · split
    · split
      · exact pending_setUpid (s := s) (by rfl)
      · rfl
    · rfl
  · rfl

private theorem pending_fixupSetOn : (s.fixupSetOn k).pending = s.pending := by
  simp only [State.fixupSetOn]
  split
  · exact pending_setUpid (s := s) (by rfl)
  · rfl

private theorem pending_fixupWake : (s.fixupWake k).pending = s.pending := by
  simp only [State.fixupWake]
  split <;> rfl

private theorem pending_enter : (s.enter c).pending = s.pending := by
  simp only [State.enter]
  split
  · exact pending_setMode _
  · rfl

private theorem pending_switchUintrPrepare : (s.switchUintrPrepare c).pending = s.pending := by
  unfold State.switchUintrPrepare
  split
  · split
    · exact pending_setMode _
    · split
      · exact pending_setMode _
      · split
        · rw [pending_setMode]
          refine pending_setUpid (s := s) ?_
          split <;> rfl
        · rw [pending_setMode]
          exact pending_setUpid (by rfl)
  · rfl

private theorem pending_switchUintrBlock : (s.switchUintrBlock c).pending = s.pending := by
  unfold State.switchUintrBlock
  split
  · split
    · rfl
    · split
      · rw [pending_setMode]
        rfl
      · rw [pending_setMode]
        exact pending_setUpid (by rfl)
  · rfl

private theorem pending_leaveCpu : (s.leaveCpu c).pending = s.pending := by
  unfold State.leaveCpu
  split <;> rfl

private theorem pending_switchTo (next : Option Task) :
    (s.switchTo c next).pending = s.pending := by
  unfold State.switchTo
  split
  · cases next with
    | none =>
        have hcore : (s.leaveCpu c).core = s.core := by
          unfold State.leaveCpu
          split <;> rfl
        dsimp only
        rw [pending_setCore (by rw [hcore]), pending_leaveCpu]
    | some t =>
        simp only [State.takeCpu]
        rw [pending_setCore (by rfl), (Quiet.switchUintrFinish _ t).pending]
        exact pending_leaveCpu
  · rfl

private theorem pending_returnUinv : (s.returnUinv c).pending = s.pending := by
  simp only [State.returnUinv]
  split
  · split_ifs
    · exact pending_setCore (by rfl)
    · exact pending_setMode _
    · rfl
  · rfl

private theorem pending_returnNdst : (s.returnNdst c).pending = s.pending := by
  simp only [State.returnNdst]
  split
  · split
    · rw [pending_setMode]
      exact pending_setUpid (by rfl)
    · rfl
  · rfl

private theorem pending_returnSn : (s.returnSn c).pending = s.pending := by
  simp only [State.returnSn]
  split
  · split
    · rw [pending_setMode]
      exact pending_setUpid (by rfl)
    · rfl
  · rfl

private theorem pending_returnPuir : (s.returnPuir c).pending = s.pending := by
  simp only [State.returnPuir]
  split
  · split
    · rw [pending_setMode]
      split
      · exact pending_ipi _
      · rfl
    · rfl
  · rfl

private theorem pending_acceptKernel : (s.acceptKernel c).pending = s.pending := by
  simp only [State.acceptKernel]
  split
  · rw [(Quiet.uintrWakeUpProcess _).pending, pending_setMode]
    rfl
  · rfl

private theorem pending_acceptNotification : (s.acceptNotification c).pending = s.pending := by
  unfold State.acceptNotification
  split
  · dsimp only
    split
    · split
      · rw [pending_setCore (by rfl)]
        exact pending_setUpid (s := s) (by rfl)
      · rfl
    · rw [(Quiet.uintrWakeUpProcess _).pending, pending_setMode]
      rfl
  · rfl

/-! ### Steps that move the registers -/

namespace Inv

private theorem uirr_setCore_of_ne (h : Inv s) (ht : (s.fpu t).loaded = some c) {t' : Task}
    (hne : t' ≠ t)
    (x : Core) : (s.setCore c x).uirr t' = s.uirr t' := by
  simp only [State.uirr, State.setCore]
  cases hloaded : (s.fpu t').loaded with
  | none => rfl
  | some d =>
      have hd : d ≠ c := by
        rintro rfl
        exact hne (Option.some.inj ((h.loaded t' d hloaded).symm.trans (h.loaded t d ht)))
      simp [hd]

private theorem pending_xsaves (h : Inv s) (ht : (s.fpu t).loaded = some c) :
    (s.xsaves c t).pending = s.pending := by
  funext t'
  by_cases heq : t' = t
  · subst heq
    simp [State.pending, State.uirr, State.xsaves, ht]
  · have hother := h.uirr_setCore_of_ne ht heq
      { s.core c with regs := { (s.core c).regs with uinv := false } }
    simp only [State.pending, Pending.mk.injEq]
    refine ⟨rfl, ?_⟩
    rw [← hother]
    simp only [State.uirr, State.xsaves, State.setCore, State.setFpu, Function.update_of_ne heq]

private theorem pending_kernelFpuBegin (h : Inv s) : (s.kernelFpuBegin c).pending = s.pending := by
  unfold State.kernelFpuBegin
  split
  · split
    · next hcan =>
        dsimp only
        rw [pending_setCore (by rfl), h.pending_xsaves hcan.2.2]
    · rfl
  · rfl

private theorem pending_switchFpu (h : Inv s) (interruptible sleeps : Bool) :
    (s.switchFpu c interruptible sleeps).pending = s.pending := by
  unfold State.switchFpu
  split
  · split
    · dsimp only
      split
      · next hloaded =>
          rw [pending_setMode]
          exact h.pending_xsaves hloaded
      · rw [pending_setMode]
        rfl
    · exact pending_setMode _
  · rfl

/-- The state that is loaded is the state of the task, whether it comes from memory or has been
in the registers all the time. -/
private theorem pending_load (h : Inv s) (hcur : (s.core c).current = some t)
    (hnone : (s.fpu t).loaded = none) {x : Core} (hx : x.regs.uirr = (s.fpu t).saved.uirr) :
    (((s.disown t).setFpu t { s.fpu t with loaded := some c }).setCore c x).pending =
      s.pending := by
  funext t'
  simp only [State.pending, Pending.mk.injEq]
  refine ⟨rfl, ?_⟩
  by_cases heq : t' = t
  · subst heq
    simp [State.uirr, hnone, hx]
  · simp only [State.uirr, State.setCore, State.setFpu, Function.update_of_ne heq]
    cases hloaded : (s.fpu t').loaded with
    | none => simp [State.disown, hloaded]
    | some d =>
        have hne : d ≠ c := by
          rintro rfl
          exact heq (Option.some.inj ((h.loaded t' d hloaded).symm.trans hcur))
        simp [State.disown, hloaded, hne, apply_ite Core.regs]

private theorem pending_switchFpuReturn (h : Inv s) :
    (s.switchFpuReturn c).pending = s.pending := by
  unfold State.switchFpuReturn
  split
  · next t hcur =>
      split
      · split
        · exact pending_setMode _
        · next hloaded =>
            have hbusy := h.busy c t hcur
            have hnone := hbusy.loaded.resolve_right fun hsome => hloaded hsome.1
            refine h.pending_load hcur hnone ?_
            dsimp only
            split
            · next howner => exact ((h.owner c t howner).resolve_left (by simp [hnone])).2
            · rfl
      · rfl
  · rfl

private theorem pending_recognize (h : Inv s) :
    (s.recognize c).pending = (s.action (.recognize c)).apply s.pending := by
  cases hrec : (s.core c).recognizing with
  | false => simp [State.recognize, State.action, Action.apply, hrec]
  | true =>
      obtain ⟨t, -, howner, hloaded, -⟩ := h.of_recognizing hrec
      have haction : s.action (.recognize c) = .recognize t := by
        simp [State.action, hrec, howner]
      simp only [haction, State.recognize, hrec, howner, if_true]
      funext t'
      by_cases heq : t' = t
      · subst heq
        simp [State.pending, State.uirr, hloaded, Action.apply, Pending.recognize]
      · simp only [Action.apply, Function.update_of_ne heq, State.pending, Pending.mk.injEq]
        refine ⟨by simp [heq], ?_⟩
        exact h.uirr_setCore_of_ne hloaded heq _

private theorem pending_deliver (h : Inv s) :
    (s.deliver c uvec).pending = (s.action (.deliver c uvec)).apply s.pending ∧
      (s.action (.deliver c uvec)).Due s.pending := by
  by_cases hcan : (s.core c).mode = .user ∧ (s.core c).recognizing = false ∧
      (s.core c).regs.uirr.getLsbD uvec = true
  · obtain ⟨t, hcur, hloaded⟩ := h.of_user hcan.1
    have haction : s.action (.deliver c uvec) = .deliver t uvec := by
      simp only [State.action, hcur, if_pos hcan]
    rw [haction, State.deliver, if_pos hcan]
    refine ⟨?_, by simpa [Action.Due, State.pending, State.uirr, hloaded] using hcan.2.2⟩
    funext t'
    by_cases heq : t' = t
    · subst heq
      simp [State.pending, State.uirr, hloaded, Action.apply, Pending.deliver]
    · simp only [Action.apply, Function.update_of_ne heq, State.pending, Pending.mk.injEq]
      exact ⟨rfl, h.uirr_setCore_of_ne hloaded heq _⟩
  · have haction : s.action (.deliver c uvec) = .internal := by
      simp only [State.action, if_neg hcan]
      split <;> rfl
    rw [haction, State.deliver, if_neg hcan]
    exact ⟨rfl, trivial⟩

private theorem due_recognize (s : State) (c : Cpu) : (s.action (.recognize c)).Due s.pending := by
  simp only [State.action]
  split
  · split <;> trivial
  · trivial

/-! ### Runs -/

private theorem pending_step (h : Inv s) (event : Event) :
    (s.step event).pending = (s.action event).apply s.pending ∧
      (s.action event).Due s.pending := by
  cases event with
  | senduipi t uvec =>
      refine ⟨pending_step_senduipi s t uvec, ?_⟩
      simp only [State.action]
      split <;> trivial
  | notifyPost k t uvec =>
      refine ⟨pending_step_notifyPost s k t uvec, ?_⟩
      simp only [State.action]
      split
      · split <;> trivial
      · trivial
  | fixupPost k =>
      refine ⟨pending_step_fixupPost s k, ?_⟩
      simp only [State.action]
      split <;> trivial
  | notifyTestSn k => exact ⟨pending_notifyTestSn, trivial⟩
  | notifyTestAndSetOn k => exact ⟨pending_notifyTestAndSetOn, trivial⟩
  | notifySend k => exact ⟨pending_notifySend, trivial⟩
  | fixupUnblock k t uvec => exact ⟨pending_step_fixupUnblock s k t uvec, trivial⟩
  | fixupSetOn k => exact ⟨pending_fixupSetOn, trivial⟩
  | fixupWake k => exact ⟨pending_fixupWake, trivial⟩
  | wake t => exact ⟨rfl, trivial⟩
  | enter c => exact ⟨pending_enter, trivial⟩
  | kernelFpuBegin c => exact ⟨h.pending_kernelFpuBegin, trivial⟩
  | switchFpu c interruptible sleeps => exact ⟨h.pending_switchFpu interruptible sleeps, trivial⟩
  | switchUintrPrepare c => exact ⟨pending_switchUintrPrepare, trivial⟩
  | switchUintrBlock c => exact ⟨pending_switchUintrBlock, trivial⟩
  | switchTo c next => exact ⟨pending_switchTo next, trivial⟩
  | switchFpuReturn c => exact ⟨h.pending_switchFpuReturn, trivial⟩
  | returnUinv c => exact ⟨pending_returnUinv, trivial⟩
  | returnNdst c => exact ⟨pending_returnNdst, trivial⟩
  | returnSn c => exact ⟨pending_returnSn, trivial⟩
  | returnPuir c => exact ⟨pending_returnPuir, trivial⟩
  | acceptNotification c => exact ⟨pending_acceptNotification, trivial⟩
  | recognize c => exact ⟨h.pending_recognize, due_recognize s c⟩
  | acceptKernel c => exact ⟨pending_acceptKernel, trivial⟩
  | deliver c uvec => exact h.pending_deliver

private theorem pending_run (h : Inv s) (events : List Event) :
    (s.run events).pending = (s.actions events).foldl Action.apply s.pending ∧
      AllDue s.pending (s.actions events) := by
  induction events generalizing s with
  | nil => exact ⟨rfl, trivial⟩
  | cons event events ih =>
      obtain ⟨hstep, hdue⟩ := h.pending_step event
      obtain ⟨hrun, hrest⟩ := ih (h.step event)
      rw [hstep] at hrun hrest
      exact ⟨hrun, hdue, hrest⟩

end Inv

/-- Every run does to `puir` and `UIRR` what its posts, recognitions and deliveries do to the
two sets.  So a vector is delivered at most as often as it has been posted, and one that has been
posted after its last delivery is in `puir` or in `UIRR`. -/
theorem boot_run_owed (cost : Task → Option WaitingCost) (events : List Event) (t : Task)
    {uvec : Nat} (huvec : uvec < 64) :
    let actions := (State.boot cost).actions events
    let s := (State.boot cost).run events
    s.pending = actions.foldl Action.apply (fun _ => {}) ∧ AllDue (fun _ => {}) actions ∧
      (s.pending t).owed uvec + actions.count (.deliver t uvec) ≤ actions.count (.post t uvec) ∧
      (postedSince t uvec false actions = true → 0 < (s.pending t).owed uvec) := by
  intro actions s
  have hrun : s.pending = actions.foldl Action.apply (fun _ => {}) :=
    ((Inv.boot cost).pending_run events).1
  have hdue : AllDue (fun _ => {}) actions := ((Inv.boot cost).pending_run events).2
  have hcount := owed_add_count_le (t := t) huvec hdue
  have hposted : postedSince t uvec false actions = true →
      0 < (actions.foldl Action.apply (fun _ => {}) t).owed uvec :=
    owed_of_postedSince huvec (by simp)
  rw [← hrun] at hcount hposted
  have hzero : ({} : Pending).owed uvec = 0 := by simp [Pending.owed]
  rw [hzero, Nat.zero_add] at hcount
  exact ⟨hrun, hdue, hcount, hposted⟩

def toUser : List Event :=
  [.switchFpu 0 false false, .switchUintrPrepare 0, .switchTo 0 (some 1), .switchFpuReturn 0,
    .returnUinv 0, .returnNdst 0, .returnSn 0, .returnPuir 0]

theorem boot_run_owed_toUser :
    let events := toUser ++ [.senduipi 1 5, .acceptNotification 0, .senduipi 1 5, .recognize 0,
      .deliver 0 5, .senduipi 1 5]
    let actions := (State.boot fun _ => some .none).actions events
    actions.count (.post 1 5) = 3 ∧ actions.count (.deliver 1 5) = 1 ∧
      0 < (((State.boot fun _ => some .none).run events).pending 1).owed 5 := by
  intro events actions
  have howed := boot_run_owed (fun _ => some .none) events 1 (show 5 < 64 by decide)
  exact ⟨by decide, by decide, howed.2.2.2 (by decide)⟩

end UserPaging.Linux.Notify
