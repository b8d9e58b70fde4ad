import UserPaging.Linux.UintrNotifyOwed

/-!
# Notifications that do come

If no post falls into the middle of another one or of a recognition, a receiver in
user mode is told of every vector: as long as `puir` is not empty the notification
vector waits at the CPU of the receiver.  Then `ON` is only set for vectors that are
still in `puir`, and both return to user mode and `SENDUIPI` can rely on it.
-/

namespace UserPaging.Linux.Notify

open UserPaging.Foundation UserPaging.Linux.Uintr

/-! ### Runs without a divided post -/

def Event.whole : Event → Bool
  | .notifyPost .. | .notifyTestSn _ | .notifyTestAndSetOn _ | .notifySend _ => false
  | .fixupUnblock .. | .fixupPost _ | .fixupSetOn _ | .fixupWake _ => false
  | .acceptNotification _ | .recognize _ => false
  | _ => true

/-- `uintr_notify_receiver` -/
def notify (k : Sender) (t : Task) (uvec : Nat) : List Event :=
  [.notifyPost k t uvec, .notifyTestSn k, .notifyTestAndSetOn k, .notifySend k]

/-- `fixup_uintr_gp_exception` -/
def fixup (k : Sender) (t : Task) (uvec : Nat) : List Event :=
  [.fixupUnblock k t uvec, .fixupPost k, .fixupSetOn k, .fixupWake k]

def recognition (c : Cpu) : List Event := [.acceptNotification c, .recognize c]

inductive Undivided : List Event → Prop
  | nil : Undivided []
  | whole {event : Event} {events : List Event} : event.whole = true → Undivided events →
      Undivided (event :: events)
  | notify (k : Sender) (t : Task) (uvec : Nat) {events : List Event} : Undivided events →
      Undivided (Notify.notify k t uvec ++ events)
  | fixup (k : Sender) (t : Task) (uvec : Nat) {events : List Event} : Undivided events →
      Undivided (Notify.fixup k t uvec ++ events)
  | recognition (c : Cpu) {events : List Event} : Undivided events →
      Undivided (Notify.recognition c ++ events)

variable {s s' : State} {c : Cpu} {t : Task} {k : Sender} {uvec : Nat}

structure Settled (s : State) : Prop where
  senders : ∀ k, s.senders k = .idle
  recognizing : ∀ c, (s.core c).recognizing = false
  on : ∀ t, (s.upid t).on = true → (s.upid t).puir ≠ 0
  blkd : ∀ t, (s.upid t).blkd = true → (s.flags t).waiting = true
  waiting : ∀ c t, (s.core c).current = some t → s.cost t = some .sender →
    (s.flags t).waiting = true → (s.core c).mode = .blocking ∨ (s.core c).mode = .prepared
  due : ∀ c t, (s.core c).current = some t → (s.cost t).isSome = true →
    (s.core c).mode = .user → (s.upid t).puir ≠ 0 → (s.apic c).notification = true

/-! ### The effect of the divided steps -/

/-- `SENDUIPI` on a UPID that is not blocked, and `uintr_notify_receiver`. -/
def State.post (s : State) (t : Task) (uvec : Nat) : State :=
  if !(s.upid t).on && !(s.upid t).sn then
    (s.setUpid t ((s.upid t).post uvec)).ipi (s.upid t).ndst (s.upid t).nv
  else s.setUpid t ((s.upid t).post uvec)

private theorem senduipi_eq (hblkd : (s.upid t).blkd = false) :
    s.senduipi t uvec = s.post t uvec := by
  simp [State.senduipi, State.post, hblkd]

private theorem setSender_setSender (x y : Posting) :
    (s.setSender k x).setSender k y = s.setSender k y := by
  simp [State.setSender]

private theorem setSender_idle (hk : s.senders k = .idle) : s.setSender k .idle = s := by
  simp [State.setSender, ← hk]

theorem setUpid_setUpid (x y : Upid) : (s.setUpid t x).setUpid t y = s.setUpid t y := by
  simp [State.setUpid]

private theorem setSender_setUpid (x : Posting) (y : Upid) :
    (s.setSender k x).setUpid t y = (s.setUpid t y).setSender k x := rfl

private theorem setSender_setFlags (x : Posting) (y : Flags) :
    (s.setSender k x).setFlags t y = (s.setFlags t y).setSender k x := rfl

private theorem setSender_ipi (x : Posting) (vector : Nat) :
    (s.setSender k x).ipi c vector = (s.ipi c vector).setSender k x := by
  unfold State.ipi
  split_ifs <;> rfl

private theorem ipi_senders (vector : Nat) : (s.ipi c vector).senders = s.senders := by
  unfold State.ipi
  split_ifs <;> rfl

private theorem run_notify (hk : s.senders k = .idle) (haccepts : s.accepts t uvec = true) :
    s.run (notify k t uvec) = s.post t uvec := by
  have hpost : s.step (.notifyPost k t uvec) =
      (s.setUpid t { s.upid t with puir := setBit (s.upid t).puir uvec }).setSender k
        (.posted t) := by
    simp only [State.step, haccepts, if_true, State.notifyPost, hk]
  simp only [State.run, notify, List.foldl_cons, List.foldl_nil, hpost]
  cases hsn : (s.upid t).sn with
  | true =>
      have hsame : (s.upid t).post uvec =
          { s.upid t with puir := setBit (s.upid t).puir uvec } := by simp [Upid.post, hsn]
      simp only [State.step, State.notifyTestSn, State.setSender_senders, Function.update_self,
        State.setSender_upid, State.setUpid_upid, hsn, if_true, setSender_setSender,
        State.notifyTestAndSetOn, State.notifySend, State.post, Bool.not_true, Bool.and_false,
        Bool.false_eq_true, if_false, hsame]
      exact setSender_idle (s := s.setUpid t _) hk
  | false =>
      have hsame : (s.upid t).post uvec =
          { s.upid t with puir := setBit (s.upid t).puir uvec, on := true } := by
        simp [Upid.post, hsn]
      cases hon : (s.upid t).on with
      | true =>
          simp only [State.step, State.notifyTestSn, State.setSender_senders, Function.update_self,
            State.setSender_upid, State.setUpid_upid, hsn, hon, if_true, setSender_setSender,
            State.notifyTestAndSetOn, State.notifySend, State.post, Bool.not_true, Bool.false_and,
            Bool.false_eq_true, if_false, hsame, setSender_setUpid, setUpid_setUpid]
          exact setSender_idle (s := s.setUpid t _) hk
      | false =>
          simp only [State.step, State.notifyTestSn, State.setSender_senders, Function.update_self,
            State.setSender_upid, State.setUpid_upid, hsn, hon, if_true, setSender_setSender,
            State.notifyTestAndSetOn, State.notifySend, State.post, Bool.not_false, Bool.and_self,
            Bool.false_eq_true, if_false, hsame, setSender_setUpid, setUpid_setUpid,
            setSender_ipi]
          refine setSender_idle ?_
          rw [ipi_senders]
          exact hk

private theorem run_fixup (hk : s.senders k = .idle) (haccepts : s.accepts t uvec = true)
    (hblkd : (s.upid t).blkd = true) :
    s.run (fixup k t uvec) =
      (s.setUpid t { s.upid t with
        blkd := false, puir := setBit (s.upid t).puir uvec, on := true }).setFlags t
        { s.flags t with waiting := false, asleep := false } := by
  have hunblock : s.step (.fixupUnblock k t uvec) =
      (s.setUpid t { s.upid t with blkd := false }).setSender k (.unblocked t uvec) := by
    simp only [State.step, haccepts, if_true, State.fixupUnblock, hk, hblkd]
  simp only [State.run, fixup, List.foldl_cons, List.foldl_nil, hunblock]
  simp only [State.step, State.fixupPost, State.fixupSetOn, State.fixupWake,
    State.setSender_senders, Function.update_self, State.setSender_upid, State.setUpid_upid,
    setSender_setSender, setSender_setUpid, setUpid_setUpid, setSender_setFlags,
    State.setSender_flags, State.setUpid_flags]
  exact setSender_idle (s := (s.setUpid t _).setFlags t _) hk

private theorem run_fixup_idle (hk : s.senders k = .idle)
    (hblkd : ¬(s.accepts t uvec = true ∧ (s.upid t).blkd = true)) :
    s.run (fixup k t uvec) = s := by
  have hunblock : s.step (.fixupUnblock k t uvec) = s := by
    simp only [State.step, State.fixupUnblock, hk]
    split_ifs with haccepts hset
    · exact absurd ⟨haccepts, hset⟩ hblkd
    · rfl
    · rfl
  simp only [State.run, fixup, List.foldl_cons, List.foldl_nil, hunblock]
  simp only [State.step, State.fixupPost, State.fixupSetOn, State.fixupWake, hk]

private theorem run_recognition_eq (hinv : Inv s) (hopen : s.takesInterrupts c = true)
    (hdue : (s.apic c).notification = true) (hcur : (s.core c).current = some t)
    (huinv : (s.core c).regs.uinv = true) :
    s.run (recognition c) = ((s.setApic c { s.apic c with notification := false }).setUpid t
      { s.upid t with on := false, puir := 0 }).setCore c { s.core c with
        regs := { (s.core c).regs with uirr := (s.core c).regs.uirr ||| (s.upid t).puir }
        recognizing := false } := by
  obtain ⟨t', hcur', howner, -, -⟩ := hinv.of_uinv huinv
  obtain rfl : t = t' := Option.some.inj (hcur.symm.trans hcur')
  have haccept : s.acceptNotification c =
      ((s.setApic c { s.apic c with notification := false }).setUpid t
        { s.upid t with on := false }).setCore c { s.core c with recognizing := true } := by
    simp [State.acceptNotification, hopen, hdue, huinv, howner]
  have hrun : s.run (recognition c) = (s.acceptNotification c).recognize c := rfl
  rw [hrun, haccept]
  simp [State.recognize, howner, State.setCore, State.setUpid]

private theorem ipi_notification (d : Cpu) (vector : Nat) :
    ((s.ipi d vector).apic c).notification =
      ((s.apic c).notification || decide (c = d ∧ vector = uintrNotificationVector)) := by
  unfold State.ipi
  split_ifs with hnotification hkernel
  · by_cases heq : c = d <;> simp [heq, hnotification]
  · by_cases heq : c = d <;> simp [heq, hnotification]
  · simp [hnotification]

private theorem lt_of_accepts (haccepts : s.accepts t uvec = true) : uvec < 64 := by
  simp only [State.accepts, Bool.and_eq_true, decide_eq_true_eq] at haccepts
  exact haccepts.2

private theorem setBit_ne_zero {word : BitVec 64} (huvec : uvec < 64) : setBit word uvec ≠ 0 :=
  ne_zero_of_getLsbD (getLsbD_setBit_self huvec)

namespace Settled

private theorem routed (hinv : Inv s) (hcur : (s.core c).current = some t)
    (hcost : (s.cost t).isSome = true) (hmode : (s.core c).mode = .user) :
    (s.upid t).sn = false ∧ (s.upid t).ndst = c ∧ (s.upid t).nv = uintrNotificationVector := by
  have hbusy := hinv.busy c t hcur
  have hstage : (s.core c).mode.stage = 5 := by rw [hmode]; rfl
  refine ⟨hbusy.sn hcost (by omega), hbusy.ndst hcost (by omega), ?_⟩
  rw [(hinv.task t).nv hcost, if_neg]
  rintro ⟨hreceiver, hwaiting⟩
  simpa [hmode] using hbusy.awake hreceiver hwaiting

private theorem post_due (h : Settled s) (hinv : Inv s) (hcur : (s.core c).current = some t)
    (hcost : (s.cost t).isSome = true) (hmode : (s.core c).mode = .user) :
    ((s.post t uvec).apic c).notification = true := by
  obtain ⟨hsn, hndst, hnv⟩ := routed hinv hcur hcost hmode
  unfold State.post
  cases hon : (s.upid t).on with
  | false =>
      rw [if_pos (by simp [hsn]), ipi_notification, hndst, hnv]
      simp
  | true =>
      rw [if_neg (by simp)]
      exact h.due c t hcur hcost hmode (h.on t hon)

private theorem post_frame (s : State) (t : Task) (uvec : Nat) :
    (s.post t uvec).senders = s.senders ∧ (s.post t uvec).core = s.core ∧
      (s.post t uvec).cost = s.cost ∧ (s.post t uvec).flags = s.flags ∧
      (s.post t uvec).upid = Function.update s.upid t ((s.upid t).post uvec) ∧
      ∀ c, (s.apic c).notification = true → ((s.post t uvec).apic c).notification = true := by
  unfold State.post
  split
  · refine ⟨ipi_senders _, Inv.ipi_core _ _, ?_, ?_, ?_, fun c hset => ?_⟩
    · unfold State.ipi
      split_ifs <;> rfl
    · unfold State.ipi
      split_ifs <;> rfl
    · unfold State.ipi
      split_ifs <;> rfl
    · rw [ipi_notification]
      simp [hset]
  · exact ⟨rfl, rfl, rfl, rfl, rfl, fun _ => id⟩

private theorem post (h : Settled s) (hinv : Inv s) (haccepts : s.accepts t uvec = true) :
    Settled (s.post t uvec) := by
  have huvec : uvec < 64 := lt_of_accepts haccepts
  obtain ⟨hsenders, hcore, hcosts, hflags, hupid, hapic⟩ := post_frame s t uvec
  refine ⟨by rw [hsenders]; exact h.senders, by rw [hcore]; exact h.recognizing, ?_, ?_, ?_, ?_⟩
  · intro t'
    rw [hupid]
    by_cases heq : t' = t
    · subst heq
      simpa [Upid.post] using fun _ => setBit_ne_zero huvec
    · simpa [heq] using h.on t'
  · intro t'
    rw [hupid, hflags]
    by_cases heq : t' = t
    · subst heq
      simpa [Upid.post] using h.blkd t'
    · simpa [heq] using h.blkd t'
  · rw [hcore, hcosts, hflags]
    exact h.waiting
  · rw [hcore, hcosts, hupid]
    intro c t' hcur hcost' hmode hpuir
    by_cases heq : t' = t
    · subst heq
      exact h.post_due hinv hcur hcost' hmode
    · exact hapic c (h.due c t' hcur hcost' hmode (by simpa [heq] using hpuir))

private theorem fixed (h : Settled s) (hinv : Inv s) (huvec : uvec < 64)
    (hblkd : (s.upid t).blkd = true) :
    Settled ((s.setUpid t { s.upid t with
      blkd := false, puir := setBit (s.upid t).puir uvec, on := true }).setFlags t
      { s.flags t with waiting := false, asleep := false }) := by
  have hcost := (hinv.task t).blkd hblkd
  have hwaiting := h.waiting
  have hwaits := h.blkd t hblkd
  refine ⟨h.senders, h.recognizing, ?_, ?_, ?_, ?_⟩
  · intro t'
    by_cases heq : t' = t
    · subst heq
      simpa using setBit_ne_zero huvec
    · simpa [heq] using h.on t'
  · intro t'
    by_cases heq : t' = t
    · simp [heq]
    · simpa [heq] using h.blkd t'
  · intro c t' hcur hcost' hwaiting'
    refine h.waiting c t' hcur hcost' ?_
    by_cases heq : t' = t
    · simp [heq] at hwaiting'
    · simpa [heq] using hwaiting'
  · intro c t' hcur hsome hmode hpuir
    by_cases heq : t' = t
    · subst heq
      rcases h.waiting c t' hcur hcost hwaits with hother | hother
      · rw [show (s.core c).mode = .user from hmode] at hother
        cases hother
      · rw [show (s.core c).mode = .user from hmode] at hother
        cases hother
    · exact h.due c t' hcur hsome hmode (by simpa [heq] using hpuir)

end Settled

/-! ### Steps that post nothing -/

/-- Nothing is posted or recognised, no task comes to user mode or loses a notification there, and
no receiver that lets its senders pay starts to wait. -/
structure Keeps (s s' : State) : Prop where
  cost : s'.cost = s.cost
  senders : s'.senders = s.senders
  recognizing : ∀ c, (s'.core c).recognizing = (s.core c).recognizing
  on : ∀ t, (s'.upid t).on = (s.upid t).on
  puir : ∀ t, (s'.upid t).puir = (s.upid t).puir
  blkd : ∀ t, (s'.upid t).blkd = true → (s.upid t).blkd = true ∧
    (s.cost t = some .sender → (s.flags t).waiting = true → (s'.flags t).waiting = true)
  waiting : ∀ t, s.cost t = some .sender → (s'.flags t).waiting = true →
    (s.flags t).waiting = true
  user : ∀ c t, (s'.core c).current = some t → (s.cost t).isSome = true →
    (s'.core c).mode = .user → (s.core c).current = some t ∧ (s.core c).mode = .user ∧
      ((s.apic c).notification = true → (s'.apic c).notification = true)
  waits : ∀ c t, (s'.core c).current = some t → s.cost t = some .sender →
    (s'.flags t).waiting = true → (s.core c).current = some t ∧
      ((s.core c).mode = .blocking ∨ (s.core c).mode = .prepared →
        (s'.core c).mode = .blocking ∨ (s'.core c).mode = .prepared)

private theorem Settled.of_keeps (h : Settled s) (hinv : Inv s) (hkeeps : Keeps s s') :
    Settled s' := by
  refine ⟨?_, ?_, ?_, ?_, ?_, ?_⟩
  · rw [hkeeps.senders]
    exact h.senders
  · intro c
    rw [hkeeps.recognizing]
    exact h.recognizing c
  · intro t
    rw [hkeeps.on, hkeeps.puir]
    exact h.on t
  · intro t hblkd
    obtain ⟨hblkd, hwaits⟩ := hkeeps.blkd t hblkd
    exact hwaits ((hinv.task t).blkd hblkd) (h.blkd t hblkd)
  · intro c t hcur hcost hwaiting
    rw [hkeeps.cost] at hcost
    obtain ⟨hcur, hmode⟩ := hkeeps.waits c t hcur hcost hwaiting
    exact hmode (h.waiting c t hcur hcost (hkeeps.waiting t hcost hwaiting))
  · intro c t hcur hcost hmode hpuir
    rw [hkeeps.cost] at hcost
    rw [hkeeps.puir] at hpuir
    obtain ⟨hcur, hmode, hapic⟩ := hkeeps.user c t hcur hcost hmode
    exact hapic (h.due c t hcur hcost hmode hpuir)

namespace Keeps

theorem refl (s : State) : Keeps s s :=
  ⟨rfl, rfl, fun _ => rfl, fun _ => rfl, fun _ => rfl, fun _ hblkd => ⟨hblkd, fun _ => id⟩,
    fun _ _ => id, fun _ _ hcur _ hmode => ⟨hcur, hmode, id⟩, fun _ _ hcur _ _ => ⟨hcur, id⟩⟩

theorem trans {s'' : State} (h : Keeps s s') (h' : Keeps s' s'') : Keeps s s'' := by
  refine ⟨h'.cost.trans h.cost, h'.senders.trans h.senders,
    fun c => (h'.recognizing c).trans (h.recognizing c), fun t => (h'.on t).trans (h.on t),
    fun t => (h'.puir t).trans (h.puir t), ?_, ?_, ?_, ?_⟩
  · intro t hblkd
    obtain ⟨hblkd, hwaiting'⟩ := h'.blkd t hblkd
    obtain ⟨hblkd, hwaiting⟩ := h.blkd t hblkd
    refine ⟨hblkd, fun hcost hwaits => hwaiting' ?_ (hwaiting hcost hwaits)⟩
    rwa [h.cost]
  · intro t hcost hwaiting
    exact h.waiting t hcost (h'.waiting t (by rwa [h.cost]) hwaiting)
  · intro c t hcur hcost hmode
    obtain ⟨hcur, hmode, hapic'⟩ := h'.user c t hcur (by rwa [h.cost]) hmode
    obtain ⟨hcur, hmode, hapic⟩ := h.user c t hcur hcost hmode
    exact ⟨hcur, hmode, hapic' ∘ hapic⟩
  · intro c t hcur hcost hwaiting
    have hcost' : s'.cost t = some .sender := by rwa [h.cost]
    obtain ⟨hcur, hmode'⟩ := h'.waits c t hcur hcost' hwaiting
    obtain ⟨hcur, hmode⟩ := h.waits c t hcur hcost (h'.waiting t hcost' hwaiting)
    exact ⟨hcur, hmode' ∘ hmode⟩

theorem setFpu (x : Fpu) : Keeps s (s.setFpu t x) :=
  { refl s with }

theorem setWaitList (x : List Task) : Keeps s (s.setWaitList x) :=
  { refl s with }

theorem setUpid {x : Upid} (hon : x.on = (s.upid t).on) (hpuir : x.puir = (s.upid t).puir)
    (hblkd : x.blkd = true → (s.upid t).blkd = true) : Keeps s (s.setUpid t x) := by
  refine { refl s with on := ?_, puir := ?_, blkd := ?_ }
  · intro t'
    by_cases heq : t' = t <;> simp [heq, hon]
  · intro t'
    by_cases heq : t' = t <;> simp [heq, hpuir]
  · intro t' hset
    refine ⟨?_, fun _ => id⟩
    by_cases heq : t' = t
    · subst heq
      exact hblkd (by simpa using hset)
    · simpa [heq] using hset

theorem setFlags {x : Flags} (hx : x.waiting = (s.flags t).waiting ∨ s.cost t ≠ some .sender) :
    Keeps s (s.setFlags t x) := by
  have hflags : ∀ t', s.cost t' = some .sender →
      ((s.setFlags t x).flags t').waiting = (s.flags t').waiting := by
    intro t' hcost
    by_cases heq : t' = t
    · subst heq
      simpa using hx.resolve_right (not_not_intro hcost)
    · simp [heq]
  refine { refl s with blkd := ?_, waiting := ?_, waits := ?_ }
  · exact fun t' hblkd => ⟨hblkd, fun hcost => (hflags t' hcost).symm ▸ id⟩
  · exact fun t' hcost => (hflags t' hcost) ▸ id
  · exact fun _ _ hcur _ _ => ⟨hcur, id⟩

theorem setCore {x : Core} (hrec : x.recognizing = (s.core c).recognizing)
    (huser : ∀ t, x.current = some t → (s.cost t).isSome = true → x.mode = .user →
      (s.core c).current = some t ∧ (s.core c).mode = .user)
    (hwaits : ∀ t, x.current = some t → s.cost t = some .sender → (s.flags t).waiting = true →
      (s.core c).current = some t ∧ ((s.core c).mode = .blocking ∨ (s.core c).mode = .prepared →
        x.mode = .blocking ∨ x.mode = .prepared)) : Keeps s (s.setCore c x) := by
  refine { refl s with recognizing := ?_, user := ?_, waits := ?_ }
  · intro d
    by_cases heq : d = c <;> simp [heq, hrec]
  · intro d t hcur hcost hmode
    by_cases heq : d = c
    · subst heq
      obtain ⟨hcur, hmode⟩ := huser t (by simpa using hcur) hcost (by simpa using hmode)
      exact ⟨hcur, hmode, id⟩
    · exact ⟨by simpa [heq] using hcur, by simpa [heq] using hmode, id⟩
  · intro d t hcur hcost hwaiting
    by_cases heq : d = c
    · subst heq
      simpa using hwaits t (by simpa using hcur) hcost hwaiting
    · simpa [heq] using hcur

private theorem setSameTask {x : Core} (hrec : x.recognizing = (s.core c).recognizing)
    (hcur : x.current = (s.core c).current) (huser : x.mode = .user → (s.core c).mode = .user)
    (hwaits : (s.core c).mode = .blocking ∨ (s.core c).mode = .prepared →
      x.mode = .blocking ∨ x.mode = .prepared) : Keeps s (s.setCore c x) :=
  setCore hrec (fun _ ht _ hmode => ⟨hcur ▸ ht, huser hmode⟩) fun _ ht _ _ => ⟨hcur ▸ ht, hwaits⟩

theorem setMode {mode : Mode} (hmode : mode ≠ .user)
    (hwaits : (s.core c).mode = .blocking ∨ (s.core c).mode = .prepared →
      mode = .blocking ∨ mode = .prepared) : Keeps s (s.setMode c mode) := by
  refine setSameTask ?_ ?_ ?_ hwaits
  exacts [rfl, rfl, fun huser => absurd huser hmode]

theorem setApic {x : Apic} (hx : (s.apic c).notification = true → x.notification = true ∨
    (s.core c).mode ≠ .user) : Keeps s (s.setApic c x) := by
  refine { refl s with user := ?_ }
  intro d t hcur _ hmode
  refine ⟨hcur, hmode, fun hset => ?_⟩
  by_cases heq : d = c
  · subst heq
    simpa using (hx hset).resolve_right (not_not_intro hmode)
  · simpa [heq] using hset

theorem foldl {f : State → Task → State}
    (hf : ∀ s t, s.cost t ≠ some .sender → Keeps s (f s t)) {entries : List Task}
    (hentries : ∀ t ∈ entries, s.cost t ≠ some .sender) : Keeps s (entries.foldl f s) := by
  induction entries generalizing s with
  | nil => exact refl s
  | cons t entries ih =>
      have hstep := hf s t (hentries t List.mem_cons_self)
      refine hstep.trans (ih fun t' ht' => ?_)
      rw [hstep.cost]
      exact hentries t' (List.mem_cons_of_mem t ht')

theorem unlist {x : Upid} {y : Flags} (hon : x.on = (s.upid t).on)
    (hpuir : x.puir = (s.upid t).puir) (hblkd : x.blkd = (s.upid t).blkd)
    (hcost : s.cost t ≠ some .sender) (l : List Task) :
    Keeps s (((s.setUpid t x).setFlags t y).setWaitList l) := by
  have hupid : Keeps s (s.setUpid t x) := setUpid hon hpuir (hblkd ▸ id)
  exact (hupid.trans (setFlags (.inr hcost))).trans (setWaitList l)

theorem wakeUpEntry (s : State) (t : Task) (hcost : s.cost t ≠ some .sender) :
    Keeps s (s.wakeUpEntry t) := by
  unfold State.wakeUpEntry
  split
  · exact unlist (by rfl) (by rfl) (by rfl) hcost _
  · exact refl s

theorem removeEntry (task : Task) (s : State) (t : Task) (hcost : s.cost t ≠ some .sender) :
    Keeps s (s.removeEntry task t) := by
  unfold State.removeEntry
  split
  · exact unlist (by rfl) (by rfl) (by rfl) hcost _
  · exact refl s

private theorem cost_of_listed (hinv : Inv s) : ∀ t ∈ s.waitList, s.cost t ≠ some .sender := by
  intro t ht
  simp [((hinv.task t).receiver ht).1]

theorem uintrWakeUpProcess (hinv : Inv s) : Keeps s s.uintrWakeUpProcess :=
  foldl wakeUpEntry (cost_of_listed hinv)

private theorem unblock (s : State) (t : Task) :
    Keeps s ((s.setFlags t { s.flags t with waiting := false }).setUpid t
      { s.upid t with blkd := false }) := by
  refine { refl s with on := ?_, puir := ?_, blkd := ?_, waiting := ?_, waits := ?_ }
  · intro t'
    by_cases heq : t' = t <;> simp [heq]
  · intro t'
    by_cases heq : t' = t <;> simp [heq]
  · intro t' hblkd
    by_cases heq : t' = t
    · simp [heq] at hblkd
    · simpa [heq] using hblkd
  · intro t' _
    by_cases heq : t' = t <;> simp [heq]
  · exact fun _ _ hcur _ _ => ⟨hcur, id⟩

theorem switchUintrFinish (hlisted : ∀ t ∈ s.waitList, s.cost t ≠ some .sender) :
    Keeps s (s.switchUintrFinish t) := by
  unfold State.switchUintrFinish
  split_ifs
  · exact unblock s t
  · exact foldl (removeEntry t) hlisted
  · exact refl s

theorem xsaves : Keeps s (s.xsaves c t) := by
  refine (setFpu _).trans (setSameTask ?_ ?_ ?_ ?_)
  exacts [rfl, rfl, id, id]

theorem disown : Keeps s (s.disown t) := by
  have hcore : ∀ d, ((s.disown t).core d).current = (s.core d).current ∧
      ((s.disown t).core d).mode = (s.core d).mode ∧
      ((s.disown t).core d).recognizing = (s.core d).recognizing := fun d => by
    simp only [State.disown]
    split <;> exact ⟨rfl, rfl, rfl⟩
  refine { refl s with recognizing := ?_, user := ?_, waits := ?_ }
  · exact fun d => (hcore d).2.2
  · intro d t' hcur _ hmode
    exact ⟨(hcore d).1 ▸ hcur, (hcore d).2.1 ▸ hmode, id⟩
  · intro d t' hcur _ _
    rw [(hcore d).2.1]
    exact ⟨(hcore d).1 ▸ hcur, id⟩

end Keeps

private theorem finished (hcost : s.cost t = some .sender) :
    ((s.switchUintrFinish t).flags t).waiting = false := by
  unfold State.switchUintrFinish
  split_ifs with hwaits
  · simp
  · simpa [hcost] using hwaits

namespace Keeps

theorem enter : Keeps s (s.enter c) := by
  unfold State.enter
  split
  · next hcan => exact setMode (by decide) (by simp [hcan.1])
  · exact refl s

theorem kernelFpuBegin : Keeps s (s.kernelFpuBegin c) := by
  unfold State.kernelFpuBegin
  split
  · split
    · refine xsaves.trans (setSameTask ?_ ?_ ?_ ?_)
      exacts [rfl, rfl, id, id]
    · exact refl s
  · exact refl s

theorem switchFpu (interruptible sleeps : Bool) : Keeps s (s.switchFpu c interruptible sleeps) := by
  unfold State.switchFpu
  split
  · next hcan =>
      split
      · next t _ =>
          have hflags : Keeps s (s.setFlags t { s.flags t with asleep := sleeps }) :=
            setFlags (.inl rfl)
          dsimp only
          split
          · exact (hflags.trans xsaves).trans (setMode (by simp) (by simp [State.xsaves, hcan.1]))
          · exact hflags.trans (setMode (by simp) (by simp [hcan.1]))
      · exact setMode (by simp) (by simp [hcan.1])
  · exact refl s

theorem switchUintrBlock : Keeps s (s.switchUintrBlock c) := by
  unfold State.switchUintrBlock
  split
  · split
    · exact refl s
    · split
      · exact (setWaitList _).trans (setMode (by decide) (fun _ => .inr rfl))
      · next t _ _ =>
          have hupid : Keeps s (s.setUpid t { s.upid t with sn := true }) :=
            setUpid (by rfl) (by rfl) (by exact id)
          exact hupid.trans (setMode (by decide) (fun _ => .inr rfl))
  · exact refl s

theorem leaveCpu : Keeps s (s.leaveCpu c) := by
  unfold State.leaveCpu
  split
  · exact setFlags (.inl rfl)
  · exact refl s

theorem takeCpu (hlisted : ∀ t ∈ s.waitList, s.cost t ≠ some .sender) :
    Keeps s (s.takeCpu c t) := by
  have hflags : Keeps s (s.setFlags t { s.flags t with onCpu := true }) := setFlags (.inl rfl)
  refine (hflags.trans (switchUintrFinish hlisted)).trans (setCore ?_ ?_ ?_)
  · rfl
  · simp
  · rintro t' ht' hcost hwaiting
    obtain rfl : t = t' := Option.some.inj ht'
    rw [(Quiet.switchUintrFinish _ t).cost] at hcost
    rw [finished hcost] at hwaiting
    cases hwaiting

theorem switchTo (hinv : Inv s) (next : Option Task) : Keeps s (s.switchTo c next) := by
  have hleave : Keeps s (s.leaveCpu c) := leaveCpu
  unfold State.switchTo
  split
  · split
    · refine hleave.trans (setCore ?_ (by simp) (by simp))
      unfold State.leaveCpu
      split <;> rfl
    · refine hleave.trans (takeCpu ?_)
      have hlisted := cost_of_listed hinv
      unfold State.leaveCpu
      split <;> exact hlisted
  · exact refl s

theorem switchFpuReturn : Keeps s (s.switchFpuReturn c) := by
  unfold State.switchFpuReturn
  split
  · next t _ =>
      split
      · next hcan =>
          have hmode : ∀ {x : State}, (x.core c).mode = .kernel →
              (x.core c).mode = .blocking ∨ (x.core c).mode = .prepared →
              Mode.restored = .blocking ∨ Mode.restored = .prepared := by
            intro x hx
            simp [hx]
          split
          · exact setMode (by decide) (hmode hcan.1)
          · refine (disown.trans (setFpu _)).trans (setSameTask ?_ ?_ ?_ ?_)
            · rfl
            · rfl
            · simp
            · refine hmode ?_
              simp only [State.setFpu_core, State.disown]
              split <;> exact hcan.1
      · exact refl s
  · exact refl s

theorem returnUinv : Keeps s (s.returnUinv c) := by
  unfold State.returnUinv
  split
  · next t hcur =>
      split
      · next hmode =>
          split
          · refine setSameTask ?_ ?_ ?_ ?_
            exacts [rfl, rfl, by simp, by simp [hmode]]
          · next hcost =>
              -- The task goes to user mode, but it has no handler.
              refine setCore rfl ?_ ?_
              · intro t' ht' hcost'
                obtain rfl : t = t' := Option.some.inj (hcur.symm.trans ht')
                exact absurd hcost' hcost
              · intro t' ht' hcost'
                obtain rfl : t = t' := Option.some.inj (hcur.symm.trans ht')
                simp [hcost'] at hcost
      · exact refl s
  · exact refl s

theorem returnNdst : Keeps s (s.returnNdst c) := by
  unfold State.returnNdst
  split
  · next t _ =>
      split
      · next hmode =>
          have hupid : Keeps s (s.setUpid t { s.upid t with ndst := c }) :=
            setUpid (by rfl) (by rfl) (by exact id)
          exact hupid.trans (setMode (by decide) (by simp [hmode]))
      · exact refl s
  · exact refl s

theorem returnSn : Keeps s (s.returnSn c) := by
  unfold State.returnSn
  split
  · next t _ =>
      split
      · next hmode =>
          have hupid : Keeps s (s.setUpid t { s.upid t with sn := false }) :=
            setUpid (by rfl) (by rfl) (by exact id)
          exact hupid.trans (setMode (by decide) (by simp [hmode]))
      · exact refl s
  · exact refl s

theorem deliver : Keeps s (s.deliver c uvec) := by
  unfold State.deliver
  split
  · refine setSameTask ?_ ?_ ?_ ?_
    exacts [rfl, rfl, id, id]
  · exact refl s

theorem interrupt (hinv : Inv s) {x : Apic}
    (hmode : (s.core c).mode = .user ∨ (s.core c).mode = .kernel) :
    Keeps s (((s.setApic c x).setMode c .kernel).uintrWakeUpProcess) := by
  have hcommute : (s.setApic c x).setMode c .kernel = (s.setMode c .kernel).setApic c x := rfl
  have hkernel : Keeps s (s.setMode c .kernel) :=
    setMode (by decide) (by rcases hmode with hmode | hmode <;> simp [hmode])
  have hinv' : Inv ((s.setMode c .kernel).setApic c x) := (hinv.toKernel hmode).setApic x
  rw [hcommute]
  refine (hkernel.trans (setApic fun _ => .inr ?_)).trans (uintrWakeUpProcess hinv')
  simp [State.setMode]

theorem acceptKernel (hinv : Inv s) : Keeps s (s.acceptKernel c) := by
  unfold State.acceptKernel
  split
  · next hcan => exact interrupt hinv (Inv.of_takesInterrupts hcan.1).1
  · exact refl s

end Keeps

namespace Settled

/-! ### Steps that post or recognise -/

private theorem senduipi (h : Settled s) (hinv : Inv s) (haccepts : s.accepts t uvec = true) :
    Settled (s.senduipi t uvec) := by
  cases hblkd : (s.upid t).blkd with
  | true => simpa [State.senduipi, hblkd] using h
  | false =>
      rw [senduipi_eq hblkd]
      exact h.post hinv haccepts

private theorem block (h : Settled s) (hcur : (s.core c).current = some t)
    (hother : ∀ d, (s.core d).current = some t → d = c) :
    Settled (((s.setUpid t { s.upid t with blkd := true }).setFlags t
      { s.flags t with waiting := true }).setMode c .blocking) := by
  have hrecognizing := h.recognizing
  have hwaiting := h.waiting
  have hdue := h.due
  refine ⟨h.senders, ?_, ?_, ?_, ?_, ?_⟩
  · intro d
    by_cases heq : d = c <;> simp [State.setMode, heq, hrecognizing]
  · intro t'
    by_cases heq : t' = t
    · subst heq
      simpa [State.setMode] using h.on t'
    · simpa [State.setMode, heq] using h.on t'
  · intro t'
    by_cases heq : t' = t
    · simp [State.setMode, heq]
    · simpa [State.setMode, heq] using h.blkd t'
  · intro d t' hcur' hcost hwaits
    by_cases heq : d = c
    · simp [State.setMode, heq]
    · simp only [State.setMode, State.setCore_core, Function.update_of_ne heq] at hcur' ⊢
      have hne : t' ≠ t := fun hsame => heq (hother d (hsame ▸ hcur'))
      exact h.waiting d t' hcur' hcost (by simpa [State.setMode, hne] using hwaits)
  · intro d t' hcur' hcost hmode hpuir
    by_cases heq : d = c
    · simp [State.setMode, heq] at hmode
    · simp only [State.setMode, State.setCore_core, Function.update_of_ne heq] at hcur' hmode
      have hne : t' ≠ t := fun hsame => heq (hother d (hsame ▸ hcur'))
      exact h.due d t' hcur' hcost hmode (by simpa [State.setMode, hne] using hpuir)

private theorem switchUintrPrepare (h : Settled s) (hinv : Inv s) :
    Settled (s.switchUintrPrepare c) := by
  have hother : ∀ t, (s.core c).current = some t → ∀ d, (s.core d).current = some t → d = c :=
    fun t hcur d hcur' => hinv.unique d c t hcur' hcur
  unfold State.switchUintrPrepare
  split
  · next interruptible hmode =>
      have hprepared : ∀ {x : State}, Keeps x (x.setMode c .prepared) :=
        Keeps.setMode (by decide) fun _ => .inr rfl
      split
      · exact h.of_keeps hinv hprepared
      · next t hcur =>
          split
          · exact h.of_keeps hinv hprepared
          · next cost hcost =>
              split
              · by_cases hsender : cost = .sender
                · subst hsender
                  exact h.block hcur (hother t hcur)
                · dsimp only
                  rw [if_pos hsender]
                  have hupid : Keeps s (s.setUpid t { s.upid t with nv := uintrKernelVector }) :=
                    Keeps.setUpid (by rfl) (by rfl) (by exact id)
                  refine h.of_keeps hinv ((hupid.trans (Keeps.setFlags (.inr ?_))).trans
                    (Keeps.setMode (by decide) fun _ => .inl rfl))
                  simpa [hcost] using hsender
              · have hupid : Keeps s (s.setUpid t { s.upid t with sn := true }) :=
                  Keeps.setUpid (by rfl) (by rfl) (by exact id)
                exact h.of_keeps hinv (hupid.trans hprepared)
  · exact h

private theorem arriveUser (h : Settled s) (hcur : (s.core c).current = some t)
    (hmode : (s.core c).mode = .unsuppressed)
    (hpuir : (s.upid t).puir ≠ 0 → (s.apic c).notification = true) :
    Settled (s.setMode c .user) := by
  have hrecognizing := h.recognizing
  refine ⟨h.senders, ?_, h.on, h.blkd, ?_, ?_⟩
  · intro d
    by_cases heq : d = c <;> simp [State.setMode, heq, hrecognizing]
  · intro d t' hcur' hcost hwaiting
    by_cases heq : d = c
    · subst heq
      have hwaits := h.waiting d t' (by simpa [State.setMode] using hcur') hcost hwaiting
      simp [hmode] at hwaits
    · simp only [State.setMode, State.setCore_core, Function.update_of_ne heq] at hcur' ⊢
      exact h.waiting d t' hcur' hcost hwaiting
  · intro d t' hcur' hcost hmode' hpuir'
    by_cases heq : d = c
    · subst heq
      have hcur'' : (s.core d).current = some t' := by simpa [State.setMode] using hcur'
      obtain rfl : t = t' := Option.some.inj (hcur.symm.trans hcur'')
      exact hpuir hpuir'
    · simp only [State.setMode, State.setCore_core, Function.update_of_ne heq] at hcur' hmode'
      exact h.due d t' hcur' hcost hmode' hpuir'

private theorem returnPuir (h : Settled s) (hinv : Inv s) : Settled (s.returnPuir c) := by
  unfold State.returnPuir
  split
  · next t hcur =>
      split
      · next hmode =>
          dsimp only
          split
          · have hkeeps : Keeps s (s.ipi c uintrNotificationVector) := by
              unfold State.ipi
              rw [if_pos rfl]
              exact Keeps.setApic fun _ => .inl rfl
            refine (h.of_keeps hinv hkeeps).arriveUser (t := t) ?_ ?_ ?_
            · rwa [Inv.ipi_core]
            · rwa [Inv.ipi_core]
            · simp [ipi_notification]
          · next hnone => exact h.arriveUser hcur hmode fun hsome => absurd hsome hnone
      · exact h
  · exact h

private theorem recognized (h : Settled s) (hinv : Inv s) (hcur : (s.core c).current = some t)
    {x : Apic} {y : Regs} :
    Settled (((s.setApic c x).setUpid t { s.upid t with on := false, puir := 0 }).setCore c
      { s.core c with regs := y, recognizing := false }) := by
  have hother : ∀ d, (s.core d).current = some t → d = c :=
    fun d hcur' => hinv.unique d c t hcur' hcur
  have hrecognizing := h.recognizing
  refine ⟨h.senders, ?_, ?_, ?_, ?_, ?_⟩
  · intro d
    by_cases heq : d = c <;> simp [heq, hrecognizing]
  · intro t'
    by_cases heq : t' = t
    · simp [heq]
    · simpa [heq] using h.on t'
  · intro t'
    by_cases heq : t' = t
    · subst heq
      simpa using h.blkd t'
    · simpa [heq] using h.blkd t'
  · intro d t' hcur' hcost hwaiting
    by_cases heq : d = c
    · subst heq
      simpa using h.waiting d t' (by simpa using hcur') hcost hwaiting
    · simp only [State.setCore_core, Function.update_of_ne heq] at hcur' ⊢
      exact h.waiting d t' hcur' hcost hwaiting
  · intro d t' hcur' hcost hmode hpuir
    by_cases heq : d = c
    · subst heq
      obtain rfl : t = t' := Option.some.inj (hcur.symm.trans (by simpa using hcur'))
      simp at hpuir
    · simp only [State.setCore_core, Function.update_of_ne heq] at hcur' hmode
      have hne : t' ≠ t := fun hsame => heq (hother d (hsame ▸ hcur'))
      simpa [heq] using h.due d t' hcur' hcost hmode (by simpa [hne] using hpuir)

private theorem run_recognition (h : Settled s) (hinv : Inv s) :
    Settled (s.run (recognition c)) := by
  have hrun : s.run (recognition c) = (s.acceptNotification c).recognize c := rfl
  by_cases hcan : s.takesInterrupts c ∧ (s.apic c).notification = true
  · by_cases huinv : (s.core c).regs.uinv = true
    · obtain ⟨t, hcur, -, -, -⟩ := hinv.of_uinv huinv
      rw [run_recognition_eq hinv hcan.1 hcan.2 hcur huinv]
      exact h.recognized hinv hcur
    · have haccept : s.acceptNotification c =
          ((s.setApic c { s.apic c with notification := false }).setMode c
            .kernel).uintrWakeUpProcess := by
        simp [State.acceptNotification, hcan, huinv]
      have hsettled := h.of_keeps hinv (Keeps.interrupt hinv (c := c)
        (x := { s.apic c with notification := false }) (Inv.of_takesInterrupts hcan.1).1)
      rw [hrun, haccept]
      simpa [State.recognize, hsettled.recognizing c] using hsettled
  · have haccept : s.acceptNotification c = s := if_neg hcan
    rw [hrun, haccept]
    simpa [State.recognize, h.recognizing c] using h

private theorem run_notify (h : Settled s) (hinv : Inv s) : Settled (s.run (notify k t uvec)) := by
  by_cases haccepts : s.accepts t uvec = true
  · rw [Notify.run_notify (h.senders k) haccepts]
    exact h.post hinv haccepts
  · have hrun : s.run (notify k t uvec) = s := by
      simp [State.run, notify, State.step, haccepts, State.notifyTestSn, State.notifyTestAndSetOn,
        State.notifySend, h.senders k]
    rwa [hrun]

private theorem run_fixup (h : Settled s) (hinv : Inv s) : Settled (s.run (fixup k t uvec)) := by
  by_cases hcan : s.accepts t uvec = true ∧ (s.upid t).blkd = true
  · rw [Notify.run_fixup (h.senders k) hcan.1 hcan.2]
    exact h.fixed hinv (lt_of_accepts hcan.1) hcan.2
  · rwa [run_fixup_idle (h.senders k) hcan]

private theorem step (h : Settled s) (hinv : Inv s) {event : Event} (hevent : event.whole = true) :
    Settled (s.step event) := by
  cases event with
  | senduipi t uvec =>
      simp only [State.step]
      split
      · next haccepts => exact h.senduipi hinv haccepts
      · exact h
  | wake t => exact h.of_keeps hinv (Keeps.setFlags (.inl rfl))
  | enter c => exact h.of_keeps hinv Keeps.enter
  | kernelFpuBegin c => exact h.of_keeps hinv Keeps.kernelFpuBegin
  | switchFpu c interruptible sleeps => exact h.of_keeps hinv (Keeps.switchFpu _ _)
  | switchUintrPrepare c => exact h.switchUintrPrepare hinv
  | switchUintrBlock c => exact h.of_keeps hinv Keeps.switchUintrBlock
  | switchTo c next => exact h.of_keeps hinv (Keeps.switchTo hinv next)
  | switchFpuReturn c => exact h.of_keeps hinv Keeps.switchFpuReturn
  | returnUinv c => exact h.of_keeps hinv Keeps.returnUinv
  | returnNdst c => exact h.of_keeps hinv Keeps.returnNdst
  | returnSn c => exact h.of_keeps hinv Keeps.returnSn
  | returnPuir c => exact h.returnPuir hinv
  | acceptKernel c => exact h.of_keeps hinv (Keeps.acceptKernel hinv)
  | deliver c uvec => exact h.of_keeps hinv Keeps.deliver
  | _ => simp [Event.whole] at hevent

private theorem run (h : Settled s) (hinv : Inv s) {events : List Event}
    (hevents : Undivided events) :
    Settled (s.run events) := by
  induction hevents generalizing s with
  | nil => exact h
  | whole hwhole _ ih => exact ih (h.step hinv hwhole) (hinv.step _)
  | notify k t uvec _ ih =>
      rw [State.run, List.foldl_append]
      exact ih (h.run_notify hinv) (hinv.run _)
  | fixup k t uvec _ ih =>
      rw [State.run, List.foldl_append]
      exact ih (h.run_fixup hinv) (hinv.run _)
  | recognition c _ ih =>
      rw [State.run, List.foldl_append]
      exact ih (h.run_recognition hinv) (hinv.run _)

private theorem boot (cost : Task → Option WaitingCost) : Settled (State.boot cost) where
  senders := fun _ => rfl
  recognizing := fun _ => rfl
  on := by simp [State.boot]
  blkd := by simp [State.boot]
  waiting := by simp [State.boot]
  due := by simp [State.boot]

end Settled

/-- In a run whose posts and recognitions are whole steps, a receiver in user mode that has a
posted vector has a notification waiting at its CPU, and when the CPU takes that the vector is
recognised. -/
theorem boot_run_due {cost : Task → Option WaitingCost} {events : List Event}
    (hrun : s = (State.boot cost).run events) (hevents : Undivided events)
    (hcur : (s.core c).current = some t) (hcost : (s.cost t).isSome = true)
    (hmode : (s.core c).mode = .user) (hposted : (s.upid t).puir.getLsbD uvec = true) :
    (s.apic c).notification = true ∧
      ((s.run (recognition c)).core c).regs.uirr.getLsbD uvec = true := by
  have hinv : Inv s := hrun ▸ (Inv.boot cost).run events
  have hsettled : Settled s := hrun ▸ (Settled.boot cost).run (Inv.boot cost) hevents
  have hdue := hsettled.due c t hcur hcost hmode (ne_zero_of_getLsbD hposted)
  have hopen : s.takesInterrupts c = true := by
    simp [State.takesInterrupts, hmode, hsettled.recognizing c]
  have huinv := (hinv.busy c t hcur).armed hcost (by simp [hmode, Mode.stage])
  refine ⟨hdue, ?_⟩
  rw [run_recognition_eq hinv hopen hdue hcur huinv]
  simp [hposted]

theorem boot_run_due_toUser :
    let s := (State.boot fun _ => some .none).run (toUser ++ [.senduipi 1 5])
    (s.apic 0).notification = true ∧
      ((s.run (recognition 0)).core 0).regs.uirr.getLsbD 5 = true := by
  intro s
  have hevents : Undivided (toUser ++ [.senduipi 1 5]) := by
    repeat (first | exact .nil | refine .whole rfl ?_)
  refine boot_run_due (t := 1) rfl hevents ?_ ?_ ?_ ?_
  · decide
  · decide
  · decide
  · decide

end UserPaging.Linux.Notify
