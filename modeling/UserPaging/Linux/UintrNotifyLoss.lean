import UserPaging.Linux.UintrNotifyOwed

/-!
# Notifications that do not come

A vector that is posted stays in the UPID, but nobody need tell the receiver.

A receiver that asked to be woken goes to sleep without clearing `SN`.  If it has been
switched out since it last was in user mode, `SN` is set, and no sender wakes it.

And `ON` can stay set after the notification is gone: a post that falls between the
two halves of a recognition, or between the writes of `uintr_notify_receiver`, sets
`ON` for vectors that have been taken already.  When the receiver is switched out and
back, `switch_uintr_return` finds `puir` empty and sends no interrupt.  From then on
every sender takes the notification for sent, as long as the receiver stays in user
mode.
-/

namespace UserPaging.Linux.Notify

open UserPaging.Foundation UserPaging.Linux.Uintr

variable {s : State} {c : Cpu} {t : Task}

/-! ### A receiver that sleeps with `SN` set -/

structure Deaf (s : State) (t : Task) : Prop where
  asleep : (s.flags t).asleep = true
  sn : (s.upid t).sn = true
  on : (s.upid t).on = false
  cost : s.cost t ≠ some .sender
  senders : ∀ k, s.senders k ≠ .unsuppressed t

namespace Deaf

private theorem setUpid (h : Deaf s t) {t' : Task} {x : Upid}
    (hx : t' = t → x.sn = true ∧ x.on = false) : Deaf (s.setUpid t' x) t := by
  refine ⟨h.asleep, ?_, ?_, h.cost, h.senders⟩
  · by_cases heq : t = t'
    · subst heq
      simpa using (hx rfl).1
    · simpa [heq] using h.sn
  · by_cases heq : t = t'
    · subst heq
      simpa using (hx rfl).2
    · simpa [heq] using h.on

private theorem setSender (h : Deaf s t) {k : Sender} {x : Posting} (hx : x ≠ .unsuppressed t) :
    Deaf (s.setSender k x) t := by
  refine ⟨h.asleep, h.sn, h.on, h.cost, fun k' => ?_⟩
  by_cases heq : k' = k
  · simpa [heq] using hx
  · simpa [heq] using h.senders k'

private theorem setFlags (h : Deaf s t) {t' : Task} {x : Flags} (hx : t' = t → x.asleep = true) :
    Deaf (s.setFlags t' x) t := by
  refine ⟨?_, h.sn, h.on, h.cost, h.senders⟩
  by_cases heq : t = t'
  · subst heq
    simpa using hx rfl
  · simpa [heq] using h.asleep

private theorem setCore (h : Deaf s t) (x : Core) : Deaf (s.setCore c x) t :=
  ⟨h.asleep, h.sn, h.on, h.cost, h.senders⟩

private theorem setWaitList (h : Deaf s t) (x : List Task) : Deaf (s.setWaitList x) t :=
  ⟨h.asleep, h.sn, h.on, h.cost, h.senders⟩

private theorem ipi (h : Deaf s t) (vector : Nat) : Deaf (s.ipi c vector) t := by
  unfold State.ipi
  split_ifs
  · exact ⟨h.asleep, h.sn, h.on, h.cost, h.senders⟩
  · exact ⟨h.asleep, h.sn, h.on, h.cost, h.senders⟩
  · exact h

private theorem wakeUpEntry (h : Deaf s t) (t' : Task) : Deaf (s.wakeUpEntry t') t := by
  unfold State.wakeUpEntry
  split
  · next hon =>
      have hne : t' ≠ t := by
        rintro rfl
        simp [h.on] at hon
      exact ((h.setUpid fun heq => absurd heq hne).setFlags
        fun heq => absurd heq hne).setWaitList _
  · exact h

private theorem foldl {f : State → Task → State} (hf : ∀ s t', Deaf s t → Deaf (f s t') t)
    (h : Deaf s t) (entries : List Task) : Deaf (entries.foldl f s) t := by
  induction entries generalizing s with
  | nil => exact h
  | cons t' entries ih => exact ih (hf s t' h)

private theorem uintrWakeUpProcess (h : Deaf s t) : Deaf s.uintrWakeUpProcess t :=
  foldl (fun _ t' h => h.wakeUpEntry t') h s.waitList

private theorem removeEntry (h : Deaf s t) {task : Task} (hne : task ≠ t) (t' : Task) :
    Deaf (s.removeEntry task t') t := by
  unfold State.removeEntry
  split
  · next heq =>
      subst heq
      exact ((h.setUpid fun heq => absurd heq hne).setFlags
        fun heq => absurd heq hne).setWaitList _
  · exact h

private theorem switchUintrFinish (h : Deaf s t) {t' : Task} (hne : t' ≠ t) :
    Deaf (s.switchUintrFinish t') t := by
  unfold State.switchUintrFinish
  split
  · split
    · exact (h.setFlags fun heq => absurd heq hne).setUpid fun heq => absurd heq hne
    · exact foldl (fun _ t'' h => h.removeEntry hne t'') h s.waitList
  · exact h

private theorem switchTo (h : Deaf s t) (next : Option Task) : Deaf (s.switchTo c next) t := by
  have hleave : Deaf (s.leaveCpu c) t := by
    unfold State.leaveCpu
    split
    · next t' _ =>
        refine h.setFlags ?_
        rintro rfl
        exact h.asleep
    · exact h
  unfold State.switchTo
  split
  · next hcan =>
      cases next with
      | none => exact hleave.setCore _
      | some t' =>
          have hne : t' ≠ t := by
            rintro rfl
            simpa [h.asleep] using (hcan.2 t' rfl).1
          exact ((hleave.setFlags fun heq => absurd heq hne).switchUintrFinish hne).setCore _
  · exact h

private theorem not_current (h : Deaf s t) (hinv : Inv s)
    (hmode : (s.core c).mode.switching = false) :
    (s.core c).current ≠ some t := by
  intro hcur
  have hswitching := (hinv.busy c t hcur).asleep h.asleep
  rw [hmode] at hswitching
  cases hswitching

private theorem senduipi (h : Deaf s t) (t' : Task) (uvec : Nat) : Deaf (s.senduipi t' uvec) t := by
  have hpost : Deaf (s.setUpid t' ((s.upid t').post uvec)) t := by
    refine h.setUpid ?_
    rintro rfl
    simp [Upid.post, h.on, h.sn]
  simp only [State.senduipi]
  split_ifs
  · exact h
  · exact hpost.ipi _
  · exact hpost

private theorem notifyPost (h : Deaf s t) (k : Sender) (t' : Task) (uvec : Nat) :
    Deaf (s.notifyPost k t' uvec) t := by
  simp only [State.notifyPost]
  split
  · refine (h.setUpid ?_).setSender (by simp)
    rintro rfl
    exact ⟨h.sn, h.on⟩
  · exact h

private theorem notifyTestSn (h : Deaf s t) (k : Sender) : Deaf (s.notifyTestSn k) t := by
  simp only [State.notifyTestSn]
  split
  · next t' _ =>
      refine h.setSender ?_
      split
      · simp
      · next hsn =>
          rintro ⟨⟩
          exact hsn h.sn
  · exact h

private theorem notifyTestAndSetOn (h : Deaf s t) (k : Sender) :
    Deaf (s.notifyTestAndSetOn k) t := by
  simp only [State.notifyTestAndSetOn]
  split
  · next t' hk =>
      refine (h.setUpid ?_).setSender (by split <;> simp)
      rintro rfl
      exact absurd hk (h.senders k)
  · exact h

private theorem notifySend (h : Deaf s t) (k : Sender) : Deaf (s.notifySend k) t := by
  simp only [State.notifySend]
  split
  · exact (h.ipi _).setSender (by simp)
  · exact h

private theorem fixupUnblock (h : Deaf s t) (k : Sender) (t' : Task) (uvec : Nat) :
    Deaf (s.fixupUnblock k t' uvec) t := by
  simp only [State.fixupUnblock]
  split
  · split
    · refine (h.setUpid ?_).setSender (by simp)
      rintro rfl
      exact ⟨h.sn, h.on⟩
    · exact h
  · exact h

private theorem fixupPost (h : Deaf s t) (k : Sender) : Deaf (s.fixupPost k) t := by
  simp only [State.fixupPost]
  split
  · refine (h.setUpid ?_).setSender (by simp)
    rintro rfl
    exact ⟨h.sn, h.on⟩
  · exact h

private theorem fixupSetOn (h : Deaf s t) (hinv : Inv s) (k : Sender) :
    Deaf (s.fixupSetOn k) t := by
  simp only [State.fixupSetOn]
  split
  · next t' hk =>
      refine (h.setUpid ?_).setSender (by simp)
      rintro rfl
      exact absurd ((hinv.senders k).fixed t' hk) h.cost
  · exact h

private theorem fixupWake (h : Deaf s t) (hinv : Inv s) (k : Sender) : Deaf (s.fixupWake k) t := by
  simp only [State.fixupWake]
  split
  · next t' hk =>
      refine (h.setFlags ?_).setSender (by simp)
      rintro rfl
      exact absurd ((hinv.senders k).woken t' hk) h.cost
  · exact h

private theorem wake (h : Deaf s t) {t' : Task} (hne : t' ≠ t) : Deaf (s.wake t') t :=
  h.setFlags fun heq => absurd heq hne

private theorem enter (h : Deaf s t) (c : Cpu) : Deaf (s.enter c) t := by
  simp only [State.enter]
  split
  · exact h.setCore _
  · exact h

private theorem kernelFpuBegin (h : Deaf s t) (c : Cpu) : Deaf (s.kernelFpuBegin c) t := by
  simp only [State.kernelFpuBegin]
  split
  · split
    · exact ⟨h.asleep, h.sn, h.on, h.cost, h.senders⟩
    · exact h
  · exact h

private theorem switchFpu (h : Deaf s t) (hinv : Inv s) (c : Cpu) (interruptible sleeps : Bool) :
    Deaf (s.switchFpu c interruptible sleeps) t := by
  simp only [State.switchFpu]
  split
  · next hcan =>
      have hnot := h.not_current hinv (c := c) (by simp [hcan.1, Mode.switching])
      split
      · next t' hcur =>
          have hne : t' ≠ t := fun heq => hnot (heq ▸ hcur)
          have hflags : Deaf (s.setFlags t' { s.flags t' with asleep := sleeps }) t :=
            h.setFlags fun heq => absurd heq hne
          split
          · exact ⟨hflags.asleep, hflags.sn, hflags.on, hflags.cost, hflags.senders⟩
          · exact hflags.setCore _
      · exact h.setCore _
  · exact h

private theorem switchUintrPrepare (h : Deaf s t) (c : Cpu) : Deaf (s.switchUintrPrepare c) t := by
  simp only [State.switchUintrPrepare]
  split
  · split
    · exact h.setCore _
    · split
      · exact h.setCore _
      · split
        · refine ((h.setUpid ?_).setFlags ?_).setCore _
          · rintro rfl
            split <;> exact ⟨h.sn, h.on⟩
          · rintro rfl
            exact h.asleep
        · refine (h.setUpid ?_).setCore _
          rintro rfl
          exact ⟨rfl, h.on⟩
  · exact h

private theorem switchUintrBlock (h : Deaf s t) (c : Cpu) : Deaf (s.switchUintrBlock c) t := by
  simp only [State.switchUintrBlock]
  split
  · split
    · exact h
    · split
      · exact (h.setWaitList _).setCore _
      · refine (h.setUpid ?_).setCore _
        rintro rfl
        exact ⟨rfl, h.on⟩
  · exact h

private theorem switchFpuReturn (h : Deaf s t) (c : Cpu) : Deaf (s.switchFpuReturn c) t := by
  simp only [State.switchFpuReturn]
  split
  · split_ifs
    · exact h.setCore _
    · exact ⟨h.asleep, h.sn, h.on, h.cost, h.senders⟩
    · exact ⟨h.asleep, h.sn, h.on, h.cost, h.senders⟩
    · exact h
  · exact h

private theorem returnUinv (h : Deaf s t) (c : Cpu) : Deaf (s.returnUinv c) t := by
  simp only [State.returnUinv]
  split
  · split_ifs
    · exact h.setCore _
    · exact h.setCore _
    · exact h
  · exact h

private theorem returnNdst (h : Deaf s t) (c : Cpu) : Deaf (s.returnNdst c) t := by
  simp only [State.returnNdst]
  split
  · split
    · refine (h.setUpid ?_).setCore _
      rintro rfl
      exact ⟨h.sn, h.on⟩
    · exact h
  · exact h

private theorem returnSn (h : Deaf s t) (hinv : Inv s) (c : Cpu) : Deaf (s.returnSn c) t := by
  simp only [State.returnSn]
  split
  · next t' hcur =>
      split
      · next hmode =>
          have hnot := h.not_current hinv (c := c) (by simp [hmode, Mode.switching])
          exact (h.setUpid fun heq => absurd (heq ▸ hcur) hnot).setCore _
      · exact h
  · exact h

private theorem returnPuir (h : Deaf s t) (c : Cpu) : Deaf (s.returnPuir c) t := by
  simp only [State.returnPuir]
  split
  · split
    · split
      · exact (h.ipi _).setCore _
      · exact h.setCore _
    · exact h
  · exact h

private theorem setApic (h : Deaf s t) (x : Apic) : Deaf (s.setApic c x) t :=
  ⟨h.asleep, h.sn, h.on, h.cost, h.senders⟩

private theorem acceptNotification (h : Deaf s t) (c : Cpu) : Deaf (s.acceptNotification c) t := by
  simp only [State.acceptNotification]
  split
  · split
    · split
      · refine ((h.setApic _).setUpid ?_).setCore _
        rintro rfl
        exact ⟨h.sn, rfl⟩
      · exact h.setApic _
    · exact ((h.setApic _).setCore _).uintrWakeUpProcess
  · exact h

private theorem recognize (h : Deaf s t) (c : Cpu) : Deaf (s.recognize c) t := by
  simp only [State.recognize]
  split
  · split
    · refine (h.setUpid ?_).setCore _
      rintro rfl
      exact ⟨h.sn, h.on⟩
    · exact h
  · exact h

private theorem acceptKernel (h : Deaf s t) (c : Cpu) : Deaf (s.acceptKernel c) t := by
  simp only [State.acceptKernel]
  split
  · exact ((h.setApic _).setCore _).uintrWakeUpProcess
  · exact h

private theorem deliver (h : Deaf s t) (c : Cpu) (uvec : Nat) : Deaf (s.deliver c uvec) t := by
  simp only [State.deliver]
  split
  · exact h.setCore _
  · exact h

private theorem step (h : Deaf s t) (hinv : Inv s) {event : Event} (hevent : event ≠ .wake t) :
    Deaf (s.step event) t := by
  cases event with
  | senduipi t' uvec =>
      rw [State.step]
      split
      · exact h.senduipi t' uvec
      · exact h
  | notifyPost k t' uvec =>
      rw [State.step]
      split
      · exact h.notifyPost k t' uvec
      · exact h
  | fixupUnblock k t' uvec =>
      rw [State.step]
      split
      · exact h.fixupUnblock k t' uvec
      · exact h
  | notifyTestSn k => exact h.notifyTestSn k
  | notifyTestAndSetOn k => exact h.notifyTestAndSetOn k
  | notifySend k => exact h.notifySend k
  | fixupPost k => exact h.fixupPost k
  | fixupSetOn k => exact h.fixupSetOn hinv k
  | fixupWake k => exact h.fixupWake hinv k
  | wake t' => exact h.wake fun heq => hevent (heq ▸ rfl)
  | enter c => exact h.enter c
  | kernelFpuBegin c => exact h.kernelFpuBegin c
  | switchFpu c interruptible sleeps => exact h.switchFpu hinv c interruptible sleeps
  | switchUintrPrepare c => exact h.switchUintrPrepare c
  | switchUintrBlock c => exact h.switchUintrBlock c
  | switchTo c next => exact h.switchTo next
  | switchFpuReturn c => exact h.switchFpuReturn c
  | returnUinv c => exact h.returnUinv c
  | returnNdst c => exact h.returnNdst c
  | returnSn c => exact h.returnSn hinv c
  | returnPuir c => exact h.returnPuir c
  | acceptNotification c => exact h.acceptNotification c
  | recognize c => exact h.recognize c
  | acceptKernel c => exact h.acceptKernel c
  | deliver c uvec => exact h.deliver c uvec

private theorem run (h : Deaf s t) (hinv : Inv s) {events : List Event}
    (hevents : .wake t ∉ events) :
    Deaf (s.run events) t := by
  induction events generalizing s with
  | nil => exact h
  | cons event events ih =>
      rw [List.mem_cons, not_or] at hevents
      exact ih (h.step hinv (Ne.symm hevents.1)) (hinv.step event) hevents.2

end Deaf

def switchedOut : List Event :=
  [.switchFpu 0 false false, .switchUintrPrepare 0, .switchTo 0 none, .switchFpu 0 false false,
    .switchUintrPrepare 0, .switchTo 0 (some 1)]

/-- The receiver is in user mode, its notification counts as sent, and none is on its way. -/
structure Stale (s : State) (c : Cpu) (t : Task) : Prop where
  mode : (s.core c).mode = .user
  current : (s.core c).current = some t
  on : (s.upid t).on = true
  notification : (s.apic c).notification = false
  senders : ∀ k, s.senders k = .idle ∨ s.senders k = .posted t ∨ s.senders k = .unsuppressed t

def PostsTo (c : Cpu) (t : Task) : Event → Prop
  | .senduipi t' _ => t' = t
  | .notifyPost _ t' _ => t' = t
  | .notifyTestSn _ => True
  | .notifyTestAndSetOn _ => True
  | .notifySend _ => True
  | .deliver d _ => d = c
  | _ => False

namespace Stale

theorem setSender (h : Stale s c t) {k : Sender} {x : Posting}
    (hx : x = .idle ∨ x = .posted t ∨ x = .unsuppressed t) : Stale (s.setSender k x) c t := by
  refine ⟨h.mode, h.current, h.on, h.notification, fun k' => ?_⟩
  by_cases heq : k' = k
  · simpa [heq] using hx
  · simpa [heq] using h.senders k'

theorem setUpid (h : Stale s c t) {x : Upid} (hx : x.on = true) : Stale (s.setUpid t x) c t :=
  ⟨h.mode, h.current, by simpa using hx, h.notification, h.senders⟩

private theorem getLsbD_setBit_of_true {word : BitVec 64} {i j : Nat} (h : word.getLsbD j = true) :
    (setBit word i).getLsbD j = true := by
  rw [getLsbD_setBit, h, Bool.true_or]

theorem step (h : Stale s c t) {event : Event} (hevent : PostsTo c t event) :
    Stale (s.step event) c t ∧ ∀ uvec, (s.upid t).puir.getLsbD uvec = true →
      ((s.step event).upid t).puir.getLsbD uvec = true := by
  cases event with
  | senduipi t' uvec =>
      obtain rfl : t' = t := hevent
      simp only [State.step, State.senduipi, h.on, Bool.not_true, Bool.false_and,
        Bool.false_eq_true, if_false]
      split_ifs
      · exact ⟨h, fun _ => id⟩
      · refine ⟨h.setUpid (by simp [Upid.post, h.on]), fun uvec' hbit => ?_⟩
        simpa [Upid.post] using getLsbD_setBit_of_true hbit
      · exact ⟨h, fun _ => id⟩
  | notifyPost k t' uvec =>
      obtain rfl : t' = t := hevent
      simp only [State.step, State.notifyPost]
      split_ifs
      · split
        · refine ⟨(h.setUpid (by exact h.on)).setSender (.inr (.inl rfl)), fun uvec' hbit => ?_⟩
          simpa using getLsbD_setBit_of_true hbit
        · exact ⟨h, fun _ => id⟩
      · exact ⟨h, fun _ => id⟩
  | notifyTestSn k =>
      simp only [State.step, State.notifyTestSn]
      split
      · next t' hk =>
          have hpost := h.senders k
          simp only [hk, reduceCtorEq, false_or, or_false, Posting.posted.injEq] at hpost
          subst hpost
          refine ⟨h.setSender ?_, fun _ => id⟩
          split
          · exact .inl rfl
          · exact .inr (.inr rfl)
      · exact ⟨h, fun _ => id⟩
  | notifyTestAndSetOn k =>
      simp only [State.step, State.notifyTestAndSetOn]
      split
      · next t' hk =>
          have hpost := h.senders k
          simp only [hk, reduceCtorEq, false_or, Posting.unsuppressed.injEq] at hpost
          subst hpost
          refine ⟨(h.setUpid rfl).setSender (by simp [h.on]), fun uvec' hbit => ?_⟩
          simpa using hbit
      · exact ⟨h, fun _ => id⟩
  | notifySend k =>
      simp only [State.step, State.notifySend]
      split
      · next t' hk => simpa [hk] using h.senders k
      · exact ⟨h, fun _ => id⟩
  | deliver d uvec =>
      obtain rfl : d = c := hevent
      simp only [State.step, State.deliver]
      split
      · exact ⟨⟨by simpa using h.mode, by simpa using h.current, h.on, h.notification, h.senders⟩,
          fun _ => id⟩
      · exact ⟨h, fun _ => id⟩
  | _ => exact hevent.elim

end Stale

/-- While the receiver stays in user mode with a stale `ON`, whatever is posted to it stays in
`puir`, and no notification is sent. -/
theorem stale_run (h : Stale s c t) {events : List Event}
    (hevents : ∀ event ∈ events, PostsTo c t event) :
    Stale (s.run events) c t ∧ ∀ uvec, (s.upid t).puir.getLsbD uvec = true →
      ((s.run events).upid t).puir.getLsbD uvec = true := by
  induction events generalizing s with
  | nil => exact ⟨h, fun _ => id⟩
  | cons event events ih =>
      obtain ⟨hstep, hpuir⟩ := h.step (hevents event List.mem_cons_self)
      obtain ⟨hrun, hpuir'⟩ := ih hstep fun e he => hevents e (List.mem_cons_of_mem _ he)
      exact ⟨hrun, fun uvec hbit => hpuir' uvec (hpuir uvec hbit)⟩

/-- The thread 7 is in `uintr_notify_receiver` while `SENDUIPI` notifies the same receiver; its own
notification reaches the CPU when the receiver has just been switched out. -/
def staleOn : List Event :=
  toUser ++ [.notifyPost 7 1 5, .senduipi 1 6, .acceptNotification 0, .recognize 0,
    .notifyTestSn 7, .notifyTestAndSetOn 7, .notifySend 7, .enter 0, .switchFpu 0 false false,
    .switchUintrPrepare 0, .switchTo 0 none, .acceptNotification 0] ++ toUser

theorem stale_run_staleOn :
    let s := (State.boot fun _ => some .none).run (staleOn ++ [.senduipi 1 8])
    Stale s 0 1 ∧ (s.upid 1).puir.getLsbD 8 = true ∧
      ((s.run [.senduipi 1 9, .deliver 0 5, .deliver 0 6, .deliver 0 8]).upid 1).puir.getLsbD 8 =
        true := by
  intro s
  have hstale : Stale s 0 1 := by
    have hsenders : s.senders = Function.update (Function.update (Function.update (Function.update
        (fun _ => .idle) 7 (.posted 1)) 7 (.unsuppressed 1)) 7 (.outstanding 1)) 7 .idle := by rfl
    refine ⟨by decide, by decide, by decide, by decide, fun k => .inl ?_⟩
    simp [hsenders, Function.update_apply]
  refine ⟨hstale, by decide, (stale_run hstale ?_).2 8 (by decide)⟩
  simp [PostsTo]

end UserPaging.Linux.Notify
