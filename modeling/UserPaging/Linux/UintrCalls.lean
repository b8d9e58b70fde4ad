import UserPaging.Linux.UintrRefs

/-!
# Every call keeps the counts

One lemma for each call: from a state in order it ends, without touching what has
been freed, in a state in order.  Two calls need a hypothesis.  An index must be
below the size of the table, and `uintr_register_self` must not fail after it has
registered the vector.
-/

namespace UserPaging.Linux.Uintr

open UserPaging.Foundation

variable {s : State}

/-! ### Posting -/

private theorem Upid.post_blkd (upid : Upid) (uvec : Nat) : (upid.post uvec).blkd = upid.blkd := rfl

namespace Inv

variable {t : Task} {th : Thread}

theorem uintrNotify (hinv : Inv s) (f : File) : Keeps (s.uintrNotify f) := by
  unfold State.uintrNotify
  cases hf : s.uvecfds f with
  | none => exact hinv.keeps
  | some ctx =>
      obtain ⟨c, hu⟩ : ∃ c, s.upids ctx.upidCtx = some c :=
        hinv.live (show s.holder (.uvecfd f) = some ctx.upidCtx by simp [State.holder, hf])
      simp only [State.uintrNotifyReceiver, State.upid_eq hu, ok_bind]
      exact (hinv.edit_upid hu _ (c.upid.post_blkd ctx.uvec)).keeps

theorem switchUintrReturn (hinv : Inv s) (ht : s.tasks t = some th) (ndst : Nat) :
    Keeps (s.switchUintrReturn t ndst) := by
  simp only [State.switchUintrReturn, State.thread_eq ht, ok_bind]
  split
  · next hactive =>
      obtain ⟨u, c, hctx, -, hu, -⟩ := hinv.active ht hactive
      simp only [hctx, State.deref_some, State.upid_eq hu, ok_bind]
      exact Inv.keeps (hinv.edit_upid hu { c.upid with ndst := ndst, sn := false } rfl)
  · exact hinv.keeps

theorem uintrSetSenderMsrs_eq (ht : s.tasks t = some th) {mm : MmStruct} {w : Table}
    (hm : s.mms th.mm = some mm) (hw : mm.uittCtx = some w) :
    s.uintrSetSenderMsrs t =
      .ok (s.setTask t (some { th with uintrTt := some w, uittActivated := true })) := by
  simp only [State.uintrSetSenderMsrs, State.thread_eq ht, State.mm_eq hm, hw, State.deref_some,
    ok_bind]
  rfl

theorem set_sender_msrs (hinv : Inv s) (ht : s.tasks t = some th)
    (hrunning : th.running = true) {mm : MmStruct} {w : Table} (hm : s.mms th.mm = some mm)
    (hw : mm.uittCtx = some w) :
    Inv (s.setTask t (some { th with uintrTt := some w, uittActivated := true })) := by
  have hthread := hinv.threads t th ht
  refine ⟨hinv.setTask ht rfl rfl rfl ?_, hinv.wait.setTask (hinv.wait.awake ht hrunning)⟩
  refine ⟨hthread.owner, hthread.active, hthread.pd, ?_, rfl⟩
  rintro w' ⟨⟩
  exact ⟨mm, hm, hw⟩

theorem sender_msrs_set (hinv : Inv s) (ht : s.tasks t = some th) {mm : MmStruct} {w : Table}
    (hm : s.mms th.mm = some mm) (hw : mm.uittCtx = some w) :
    (if th.uittActivated then pure s else s.uintrSetSenderMsrs t) =
      (.ok (s.setTask t (some { th with uintrTt := some w, uittActivated := true })) :
        Except Fault State) := by
  have hthread := hinv.threads t th ht
  cases hactive : th.uittActivated with
  | false => exact uintrSetSenderMsrs_eq ht hm hw
  | true =>
      obtain ⟨w', htt⟩ := Option.isSome_iff_exists.1 (hthread.sender ▸ hactive)
      obtain ⟨mm', hm', hw'⟩ := hthread.tt w' htt
      obtain rfl : mm = mm' := Option.some.inj (hm.symm.trans hm')
      obtain rfl : w = w' := Option.some.inj (hw.symm.trans hw')
      have hsame : { th with uintrTt := some w, uittActivated := true } = th := by
        rw [← htt, ← hactive]
      have hself : s.setTask t (some th) = s := by simp [State.setTask, ← ht]
      rw [hsame, hself]
      rfl

theorem fixupSenduipiUdException (hinv : Inv s) (ht : s.tasks t = some th)
    (hrunning : th.running = true) : Keeps (s.fixupSenduipiUdException t) := by
  obtain ⟨mm, hm⟩ := hinv.mm_of_task ht
  simp only [State.fixupSenduipiUdException, State.thread_eq ht, State.mm_eq hm, ok_bind]
  cases hw : mm.uittCtx with
  | none => simpa [pure_eq] using hinv.keeps
  | some w =>
      split
      · exact hinv.keeps
      · rw [uintrSetSenderMsrs_eq ht hm hw]
        exact (hinv.set_sender_msrs ht hrunning hm hw).keeps

theorem fixupUintrGpException (hinv : Inv s) (ht : s.tasks t = some th) {index : Nat}
    (hindex : index < uintrMaxUittNr) : Keeps (s.fixupUintrGpException t index) := by
  have hsmall : index < 256 := hindex
  simp only [State.fixupUintrGpException, State.thread_eq ht, ok_bind]
  split
  · exact hinv.keeps
  · next hsender =>
      simp only [Bool.or_eq_true, Bool.not_eq_true', decide_eq_true_eq, not_or,
        Bool.not_eq_false, not_le] at hsender
      rw [(hinv.threads t th ht).sender, Option.isSome_iff_exists] at hsender
      obtain ⟨⟨w, htt⟩, -⟩ := hsender
      obtain ⟨mm, tab, hm, hw, htab, -⟩ := hinv.table_of_tt ht htt
      have hbit : State.uintrCheckUitteValid tab (index % 2 ^ 32) =
          .ok (tab.uittMask.getLsbD index) := by
        rw [Nat.mod_eq_of_lt (by omega), State.uintrCheckUitteValid, if_pos hindex]
      simp only [State.mm_eq hm, hw, State.deref_some, State.table_eq htab, hbit, ok_bind]
      split
      · exact hinv.keeps
      · next hset =>
          rw [if_neg (Nat.not_le.2 hindex)]
          split
          · exact hinv.keeps
          · obtain ⟨c, hu⟩ := hinv.upid_of_entry htab (by simpa using hset)
            simp only [State.upid_eq hu, ok_bind]
            split
            · exact hinv.keeps
            · next hblkd =>
                have hblocked := hinv.wait.blocked _ c hu (by simpa using hblkd)
                refine Inv.keeps ⟨hinv.edit hu rfl rfl, hinv.wait.calm ?_ ?_⟩
                · rintro d hd
                  rw [hu] at hd
                  cases hd
                  exact .inr hblocked.2
                · rintro d ⟨⟩
                  exact ⟨rfl, rfl⟩

theorem senduipi (hinv : Inv s) (ht : s.tasks t = some th) (hrunning : th.running = true)
    {index : Nat} (hindex : index < uintrMaxUittNr) : Keeps (s.senduipi t index) := by
  simp only [State.senduipi, State.thread_eq ht, ok_bind]
  cases htt : th.uintrTt with
  | none => exact hinv.fixupSenduipiUdException ht hrunning
  | some w =>
      obtain ⟨mm, tab, hm, hw, htab, hwf⟩ := hinv.table_of_tt ht htt
      simp only [if_neg (Nat.not_le.2 hindex), State.table_eq htab, ok_bind]
      split
      · exact hinv.fixupUintrGpException ht hindex
      · next hvalid =>
          have hbit : tab.uittMask.getLsbD index = true := by
            rw [← hwf.valid index]
            simpa using hvalid
          obtain ⟨c, hu⟩ := hinv.upid_of_entry htab hbit
          rw [hwf.target index hbit]
          simp only [State.upid_eq hu, ok_bind]
          split
          · exact hinv.fixupUintrGpException ht hindex
          · exact Inv.keeps (hinv.edit_upid hu _ (c.upid.post_blkd _))

end Inv

/-! ### The wait list -/

structure Leaves (leave : UpidCtx → UpidCtx) : Prop where
  refs : ∀ c, (leave c).refs = c.refs
  task : ∀ c, (leave c).task = c.task
  waiting : ∀ c, (leave c).waiting = false
  waitingCost : ∀ c, (leave c).waitingCost = c.waitingCost
  blkd : ∀ c, (leave c).upid.blkd = c.upid.blkd

private theorem leaves_unlisted : Leaves UpidCtx.unlisted :=
  ⟨fun _ => rfl, fun _ => rfl, fun _ => rfl, fun _ => rfl, fun _ => rfl⟩

private theorem leaves_woken : Leaves UpidCtx.woken :=
  ⟨fun _ => rfl, fun _ => rfl, fun _ => rfl, fun _ => rfl, fun _ => rfl⟩

/-- The loop over the wait list touches no freed memory, and what stays in the list was not
due. -/
private theorem scanWaitList_spec (due : UpidCtx → Bool) {leave : UpidCtx → UpidCtx}
    (hleave : Leaves leave) {rest : List Addr} (hinv : Inv s) (hnodup : rest.Nodup)
    (hsub : ∀ u ∈ rest, u ∈ s.waitList) :
    ∃ upids waitList,
      State.scanWaitList due leave rest s = .ok { s with upids := upids, waitList := waitList } ∧
      Inv { s with upids := upids, waitList := waitList } ∧
      (∀ u ∈ waitList, u ∈ s.waitList) ∧
      (∀ u c, upids u = some c →
        ∃ c', s.upids u = some c' ∧ c.waitingCost = c'.waitingCost ∧ (u ∉ rest → c = c')) ∧
      ∀ u ∈ rest, u ∈ waitList → ∀ c, upids u = some c → due c = false := by
  induction rest generalizing s with
  | nil =>
      exact ⟨s.upids, s.waitList, rfl, hinv, fun _ hu => hu,
        fun _ c hc => ⟨c, hc, rfl, fun _ => rfl⟩, by simp⟩
  | cons u rest ih =>
      obtain ⟨hfresh, hnodup⟩ := List.nodup_cons.1 hnodup
      have hin : u ∈ s.waitList := hsub u (by simp)
      obtain ⟨c, hu, -, -⟩ := (hinv.wait.mem u).1 hin
      simp only [State.scanWaitList, State.upid_eq hu, ok_bind]
      by_cases hdue : due c = true
      · rw [if_pos hdue]
        have hinv' : Inv ((s.setUpid u (some (leave c))).setWaitList (s.waitList.erase u)) :=
          ⟨(hinv.edit hu (hleave.refs c) (hleave.task c)).setWaitList _,
            hinv.wait.leave hu hin (hleave.waiting c) (hleave.blkd c)⟩
        obtain ⟨upids, waitList, hscan, hfinal, hsubset, hsame, hrest⟩ := ih hinv' hnodup
          (fun v hv => (hinv.wait.nodup.mem_erase_iff).2
            ⟨fun heq => hfresh (heq ▸ hv), hsub v (by simp [hv])⟩)
        refine ⟨upids, waitList, hscan, hfinal, ?_, ?_, ?_⟩
        · intro v hv
          exact List.mem_of_mem_erase (hsubset v hv)
        · intro v d hd
          obtain ⟨d', hd', hcost, hkept⟩ := hsame v d hd
          by_cases hv : v = u
          · subst hv
            simp only [State.setWaitList_upids, State.setUpid_upids, Function.update_self,
              Option.some.injEq] at hd'
            subst hd'
            exact ⟨c, hu, hcost.trans (hleave.waitingCost c), fun hout => absurd (by simp) hout⟩
          · exact ⟨d', by simpa [hv] using hd', hcost,
              fun hout => hkept fun hin => hout (by simp [hin])⟩
        · intro v hv hvin
          rcases List.mem_cons.1 hv with rfl | hv
          · exact absurd (hsubset v hvin) hinv.wait.nodup.not_mem_erase
          · exact hrest v hv hvin
      · rw [if_neg hdue]
        obtain ⟨upids, waitList, hscan, hfinal, hsubset, hsame, hrest⟩ := ih hinv hnodup
          (fun v hv => hsub v (by simp [hv]))
        refine ⟨upids, waitList, hscan, hfinal, hsubset, ?_, ?_⟩
        · intro v d hd
          obtain ⟨d', hd', hcost, hkept⟩ := hsame v d hd
          exact ⟨d', hd', hcost, fun hout => hkept fun hin => hout (by simp [hin])⟩
        · intro v hv hvin d hd
          rcases List.mem_cons.1 hv with rfl | hv
          · obtain ⟨d', hd', -, hkept⟩ := hsame v d hd
            rw [hu] at hd'
            cases hd'
            rw [hkept hfresh]
            simpa using hdue
          · exact hrest v hv hvin d hd

namespace Inv

variable {t : Task} {th : Thread}

theorem uintrWakeUpProcess (hinv : Inv s) : Keeps s.uintrWakeUpProcess := by
  obtain ⟨upids, waitList, hscan, hfinal, -⟩ := scanWaitList_spec (fun c => c.upid.on)
    leaves_woken hinv hinv.wait.nodup (fun _ hu => hu)
  exact ⟨_, hscan, hfinal⟩

theorem uintrRemoveTaskWait (hinv : Inv s) (ht : s.tasks t = some th) {u : Addr} {c : UpidCtx}
    (hctx : th.upidCtx = some u) (hu : s.upids u = some c) (hcost : c.waitingCost ≠ .sender) :
    ∃ upids waitList,
      s.uintrRemoveTaskWait t = .ok { s with upids := upids, waitList := waitList } ∧
      Inv { s with upids := upids, waitList := waitList } ∧
      ∀ v c, upids v = some c → c.task = t → c.waiting = false := by
  obtain ⟨upids, waitList, hscan, hfinal, hsubset, hsame, hstays⟩ :=
    scanWaitList_spec (fun c => c.task = t) leaves_unlisted hinv hinv.wait.nodup (fun _ hv => hv)
  refine ⟨upids, waitList, hscan, hfinal, ?_⟩
  refine hfinal.wait.awake_of_held ht ?_
  intro v d hctx' hactive hv
  cases hctx.symm.trans hctx'
  by_contra hwaiting
  have hwaiting : d.waiting = true := by simpa using hwaiting
  obtain ⟨d', hd', hcost', -⟩ := hsame u d hv
  cases hu.symm.trans hd'
  have hin : u ∈ waitList := (hfinal.wait.mem u).2 ⟨d, hv, hwaiting, hcost' ▸ hcost⟩
  obtain ⟨th', ht', hctx', -⟩ := hfinal.wait.asleep u d hv hwaiting
  have hnot := hstays u (hsubset u hin) hin d hv
  have htask : d.task = t := (hfinal.threads t th ht).owner u d hctx hv
  simp [htask] at hnot

theorem uintrRemoveTaskWait_awake
    (hlist : ∀ u ∈ s.waitList, ∃ c, s.upids u = some c ∧ c.task ≠ t) :
    s.uintrRemoveTaskWait t = .ok s := by
  unfold State.uintrRemoveTaskWait
  generalize s.waitList = rest at hlist
  induction rest with
  | nil => rfl
  | cons u rest ih =>
      obtain ⟨c, hu, htask⟩ := hlist u (by simp)
      simp only [State.scanWaitList, State.upid_eq hu, ok_bind, decide_eq_true_eq, if_neg htask]
      exact ih fun v hv => hlist v (by simp [hv])

private theorem setRunning_eq (ht : s.tasks t = some th) (running : Bool) :
    s.setRunning t running = .ok (s.setTask t (some { th with running := running })) := by
  simp only [State.setRunning, State.thread_eq ht, ok_bind]
  rfl

private theorem setRunning_lives (hlives : Lives s) (ht : s.tasks t = some th) (running : Bool) :
    Lives (s.setTask t (some { th with running := running })) :=
  have hthread := hlives.threads t th ht
  hlives.setTask ht rfl rfl rfl
    ⟨hthread.owner, hthread.active, hthread.pd, hthread.tt, hthread.sender⟩

theorem setRunning (hinv : Inv s) (ht : s.tasks t = some th) (running : Bool)
    (hawake : ∀ u c, s.upids u = some c → c.task = t → c.waiting = false) :
    Keeps (s.setRunning t running) := by
  rw [setRunning_eq ht]
  exact Inv.keeps ⟨setRunning_lives hinv.toLives ht running, hinv.wait.setTask hawake⟩

theorem switchIn (hinv : Inv s) (ht : s.tasks t = some th) :
    Keeps (s.switchUintrFinish t >>= fun s => s.setRunning t true) := by
  simp only [State.switchUintrFinish, State.thread_eq ht, ok_bind]
  split
  · next hactive =>
      obtain ⟨u, c, hctx, -, hu, htask⟩ := hinv.active ht hactive
      simp only [hctx, State.deref_some, State.upid_eq hu, ok_bind]
      split
      · split
        · next hcost =>
            have hfinal : Inv (s.setUpid u (some { c with
                upid := { c.upid with blkd := false }, waiting := false })) := by
              refine ⟨hinv.edit hu rfl rfl, hinv.wait.calm ?_ ?_⟩
              · intro d hd
                cases hu.symm.trans hd
                exact .inr hcost
              · rintro d ⟨⟩
                exact ⟨rfl, rfl⟩
            rw [pure_eq, ok_bind]
            refine hfinal.setRunning ht true (hfinal.wait.awake_of_held ht ?_)
            intro v d hctx' _ hv
            cases hctx.symm.trans hctx'
            simp only [State.setUpid_upids, Function.update_self, Option.some.injEq] at hv
            rw [← hv]
        · next hcost =>
            obtain ⟨upids, waitList, hremove, hfinal, hawake⟩ :=
              hinv.uintrRemoveTaskWait ht hctx hu hcost
            rw [hremove, ok_bind]
            exact hfinal.setRunning ht true hawake
      · next hwaiting =>
          rw [pure_eq, ok_bind]
          refine hinv.setRunning ht true (hinv.wait.awake_of_held ht ?_)
          intro v d hctx' _ hv
          cases hctx.symm.trans hctx'
          cases hu.symm.trans hv
          simpa using hwaiting
  · next hactive =>
      rw [pure_eq, ok_bind]
      exact hinv.setRunning ht true
        (hinv.wait.awake_of_held ht fun _ _ _ hactive' _ => absurd hactive' hactive)

theorem sleep (hinv : Inv s) (ht : s.tasks t = some th) (hrunning : th.running = true)
    (hactive : th.upidActivated = true) {u : Addr} {c c' : UpidCtx} (hctx : th.upidCtx = some u)
    (hu : s.upids u = some c) (hrefs : c'.refs = c.refs) (htask : c'.task = c.task)
    (hwaiting : c'.waiting = true) (hblkd : c'.upid.blkd = true → c'.waitingCost = .sender)
    {waitList : List Addr} (hnodup : waitList.Nodup)
    (hmem : ∀ v, v ∈ waitList ↔ v ∈ s.waitList ∨ v = u ∧ c'.waitingCost ≠ .sender) :
    Keeps (((s.setUpid u (some c')).setWaitList waitList).setRunning t false) := by
  have howner : c.task = t := (hinv.threads t th ht).owner u c hctx hu
  rw [setRunning_eq (s := (s.setUpid u (some c')).setWaitList waitList) ht]
  refine Inv.keeps ⟨setRunning_lives ((hinv.edit hu hrefs htask).setWaitList waitList) ht false, ?_⟩
  exact hinv.wait.sleep (hinv.wait.awake ht hrunning) hu (htask.trans howner) hctx hactive rfl
    hwaiting hblkd (hinv.wait.awake ht hrunning u c hu howner) hnodup hmem

theorem switchOut (hinv : Inv s) (ht : s.tasks t = some th) (hrunning : th.running = true)
    (interruptible : Bool) :
    Keeps (s.switchUintrPrepare t interruptible >>= fun s => s.setRunning t false) := by
  have hawake := hinv.wait.awake ht hrunning
  simp only [State.switchUintrPrepare, State.thread_eq ht, ok_bind]
  split
  · next hactive =>
      obtain ⟨u, c, hctx, -, hu, htask⟩ := hinv.active ht hactive
      have hcalm : c.waiting = false := hawake u c hu htask
      have hblkd : c.upid.blkd = false := by
        by_contra hset
        simp [(hinv.wait.blocked u c hu (by simpa using hset)).1] at hcalm
      have hout : u ∉ s.waitList := by
        intro hin
        obtain ⟨d, hd, hwaiting, -⟩ := (hinv.wait.mem u).1 hin
        cases hu.symm.trans hd
        simp [hcalm] at hwaiting
      simp only [hctx, State.deref_some, State.upid_eq hu, ok_bind]
      split
      · split
        · next hcost =>
            simp only [State.listAdd, State.setUpid_waitList, if_neg hout, ok_bind]
            refine hinv.sleep ht hrunning hactive hctx hu (by rfl) (by rfl) (by rfl) ?_ ?_ ?_
            · simp [hblkd]
            · exact List.nodup_cons.2 ⟨hout, hinv.wait.nodup⟩
            · intro v
              simp [hcost, or_comm]
        · next hcost =>
            rw [pure_eq, ok_bind]
            have hsender : c.waitingCost = .sender := by simpa using hcost
            show Keeps (((s.setUpid u (some { c with
              upid := { c.upid with blkd := true, sn := true }
              waiting := true })).setWaitList s.waitList).setRunning t false)
            refine hinv.sleep ht hrunning hactive hctx hu (by rfl) (by rfl) (by rfl) ?_
              hinv.wait.nodup ?_
            · exact fun _ => hsender
            · intro v
              simp [hsender]
      · rw [pure_eq, ok_bind]
        have hquiet : Inv (s.setUpid u (some (c.setSn true))) := hinv.edit_upid hu _ rfl
        exact hquiet.setRunning ht false (hquiet.wait.awake ht hrunning)
  · next hactive =>
      rw [pure_eq, ok_bind]
      exact hinv.setRunning ht false hawake

end Inv

/-! ### Descriptors for vectors -/

theorem putUpidRef_eq {u : Addr} {c : UpidCtx} (hu : s.upids u = some c) :
    s.putUpidRef u = .ok (s.setUpid u c.put) := by
  simp only [State.putUpidRef, State.upid_eq hu, ok_bind]
  rfl

theorem getUpidRef_eq {u : Addr} {c : UpidCtx} (hu : s.upids u = some c) :
    s.getUpidRef u = .ok (s.setUpid u (some (c.setRefs (c.refs + 1)))) := by
  simp only [State.getUpidRef, State.upid_eq hu, ok_bind]
  rfl

theorem putUpidRef_setUpid (u : Addr) (c : UpidCtx) :
    (s.setUpid u (some c)).putUpidRef u = .ok (s.setUpid u c.put) := by
  rw [putUpidRef_eq (s := s.setUpid u (some c)) (Function.update_self _ _ _)]
  simp [State.setUpid, Function.update_idem]

theorem putUpidRef_setUpid_setTask (u : Addr) (c : UpidCtx) (t : Task) (th : Option Thread) :
    ((s.setUpid u (some c)).setTask t th).putUpidRef u =
      .ok ((s.setUpid u c.put).setTask t th) :=
  putUpidRef_setUpid (s := s.setTask t th) u c

theorem put_of_two {c : UpidCtx} (hrefs : 2 ≤ c.refs) :
    c.put = some (c.setRefs (c.refs - 1)) := by
  rw [UpidCtx.put, if_neg (by omega)]

theorem setUpid_setUpid (u : Addr) (x y : Option UpidCtx) :
    (s.setUpid u x).setUpid u y = s.setUpid u y := by
  simp [State.setUpid, Function.update_idem]

private theorem setUpid_self {u : Addr} {x : Option UpidCtx} (hu : s.upids u = x) :
    s.setUpid u x = s := by
  simp [State.setUpid, ← hu]

private theorem putUpidRef_get {u : Addr} {c : UpidCtx} (hu : s.upids u = some c)
    (hpos : 0 < c.refs) :
    (s.setUpid u (some (c.setRefs (c.refs + 1)))).putUpidRef u = .ok s := by
  have hput : (c.setRefs (c.refs + 1)).put = some c := by
    rw [UpidCtx.put, if_neg (by simp only [UpidCtx.setRefs_refs]; omega)]
    rfl
  have htaken : (s.setUpid u (some (c.setRefs (c.refs + 1)))).upids u =
      some (c.setRefs (c.refs + 1)) := Function.update_self _ _ _
  rw [putUpidRef_eq htaken, hput, setUpid_setUpid, setUpid_self hu]

private theorem anonInodeGetfd_setUpid (u : Addr) (x : Option UpidCtx) (file : Option File) :
    (s.setUpid u x).anonInodeGetfd file = s.anonInodeGetfd file := rfl

theorem fresh_file {file : Option File} {f : File} (hfile : s.anonInodeGetfd file = some f) :
    s.uvecfds f = none ∧ s.uipifds f = none := by
  simp only [State.anonInodeGetfd, Option.filter_eq_some_iff, Bool.and_eq_true,
    Option.isNone_iff_eq_none] at hfile
  exact hfile.2

namespace Lives

variable {u : Addr} {c : UpidCtx} {f : File}

theorem put_upids {h : Holder} (hlives : Lives s) (hu : s.upids u = some c)
    (hheld : s.holder h = some u) :
    Counted UpidCtx.refs (Function.update s.upids u c.put)
      (Function.update s.holder h none) := by
  have hpos := hlives.upidHeld u c hu
  exact hlives.upids.put hheld hu (show c.refs = c.refs - 1 + 1 by omega)

theorem get_kept (c : UpidCtx) :
    ∀ d, some (c.setRefs (c.refs + 1)) = some d → d.task = c.task ∧ 0 < d.refs := by
  rintro d ⟨⟩
  exact ⟨rfl, Nat.succ_pos _⟩

private theorem open_uvecfd (hlives : Lives s) (hu : s.upids u = some c) (hf : s.uvecfds f = none)
    (uvec : Nat) :
    Lives ((s.setUpid u (some (c.setRefs (c.refs + 1)))).setUvecfd f (some ⟨u, uvec⟩)) where
  upids := by
    rw [State.holder_setUvecfd, State.holder_setUpid]
    exact hlives.upids.get (by simp [State.holder, hf]) hu rfl
  tables := hlives.tables
  mms := hlives.mms
  threads := fun _ _ ht => hlives.threads_setUpid hu (get_kept c) ht
  wf := hlives.wf
  kernel := hlives.kernel_setUpid hu _
  upidHeld := hlives.upidHeld_setUpid hu (get_kept c)
  tableHeld := hlives.tableHeld

private theorem close_uvecfd (hlives : Lives s) {ctx : UvecfdCtx}
    (hu : s.upids ctx.upidCtx = some c)
    (hf : s.uvecfds f = some ctx) :
    Lives ((s.setUpid ctx.upidCtx c.put).setUvecfd f none) where
  upids := by
    rw [State.holder_setUvecfd, State.holder_setUpid]
    exact hlives.put_upids hu (by simp [State.holder, hf])
  tables := hlives.tables
  mms := hlives.mms
  threads := fun _ _ ht => hlives.threads_setUpid hu (hlives.put_kept hu) ht
  wf := hlives.wf
  kernel := hlives.kernel_setUpid hu _
  upidHeld := hlives.upidHeld_setUpid hu (hlives.put_kept hu)
  tableHeld := hlives.tableHeld

end Lives

namespace Inv

variable {u : Addr} {c : UpidCtx} {t : Task} {th : Thread}

private theorem waiting_refs (hinv : Inv s) (hu : s.upids u = some c)
    (hwaiting : c.waiting = true) :
    c.refs ≠ 1 := by
  intro hone
  obtain ⟨th, ht, hctx, hactive, -⟩ := hinv.wait.asleep u c hu hwaiting
  have hmsr : s.holder (.msr c.task) = some u := by
    rw [State.holder_msr ht, (hinv.threads c.task th ht).pd, if_pos hactive, hctx]
  have htask : s.holder (.task c.task) = some u := (State.holder_task ht).trans hctx
  cases hinv.upids.holder_eq hmsr htask hu hone

theorem wait_put (hinv : Inv s) (hu : s.upids u = some c) :
    WaitOk (Function.update s.upids u c.put) s.tasks s.waitList := by
  unfold UpidCtx.put
  split
  · next hone =>
      refine hinv.wait.calm (fun d hd => ?_) (by simp)
      cases hu.symm.trans hd
      by_contra hwaiting
      exact hinv.waiting_refs hu (by simpa using (not_or.1 hwaiting).1) hone
  · exact hinv.wait.edit hu rfl rfl rfl rfl

theorem uvecfdRelease (hinv : Inv s) (f : File) : Keeps (s.uvecfdRelease f) := by
  unfold State.uvecfdRelease
  cases hf : s.uvecfds f with
  | none => exact hinv.keeps
  | some ctx =>
      obtain ⟨c, hu⟩ : ∃ c, s.upids ctx.upidCtx = some c :=
        hinv.live (show s.holder (.uvecfd f) = some ctx.upidCtx by simp [State.holder, hf])
      simp only [State.doUintrUnregisterVector, putUpidRef_eq hu, ok_bind]
      exact Inv.keeps ⟨hinv.close_uvecfd hu hf, hinv.wait_put hu⟩

theorem doUintrRegisterVector (hinv : Inv s) (ht : s.tasks t = some th) (uvec : Nat) (fd : Bool) :
    (∃ errno, s.doUintrRegisterVector t uvec fd = .ok (s, .error errno)) ∨
      ∃ u c, th.upidCtx = some u ∧ Inv (s.setUpid u (some c)) ∧
        s.doUintrRegisterVector t uvec fd =
          .ok (s.setUpid u (some (if fd then c.setRefs (c.refs + 1) else c)), .ok u) := by
  simp only [State.doUintrRegisterVector, State.thread_eq ht, ok_bind]
  split
  · exact .inl ⟨.EINVAL, rfl⟩
  · next hactive =>
      split
      · exact .inl ⟨.ENOSPC, rfl⟩
      · obtain ⟨u, c, hctx, -, hu, -⟩ := hinv.active ht (by simpa using hactive)
        refine .inr ⟨u, { c with uvecMask := setBit c.uvecMask uvec }, hctx,
          ⟨hinv.edit hu rfl rfl, hinv.wait.edit hu rfl rfl rfl rfl⟩, ?_⟩
        simp only [hctx, State.deref_some, State.upid_eq hu, ok_bind]
        cases fd with
        | false => rfl
        | true =>
            rw [if_pos rfl, getUpidRef_eq (Function.update_self _ _ _), ok_bind, setUpid_setUpid]
            rfl

theorem uintrVectorFd (hinv : Inv s) (ht : s.tasks t = some th) (vector : Nat)
    (flags : BitVec 32) (mem : Bool) (file : Option File) :
    Keeps ((s.uintrVectorFd t vector flags mem file).map Prod.fst) := by
  unfold State.uintrVectorFd
  split
  · exact hinv.keeps
  · split
    · exact hinv.keeps
    · rcases hinv.doUintrRegisterVector ht vector true with
        ⟨errno, hcall⟩ | ⟨u, c, -, hset, hcall⟩
      · rw [hcall]
        exact hinv.keeps
      · rw [hcall, ok_bind, if_pos rfl, ← setUpid_setUpid u (some c)]
        have hu : (s.setUpid u (some c)).upids u = some c := Function.update_self _ _ _
        generalize s.setUpid u (some c) = s at hset hu
        simp only [anonInodeGetfd_setUpid]
        cases hfile : s.anonInodeGetfd file with
        | none =>
            simp only [State.doUintrUnregisterVector, putUpidRef_get hu (hset.upidHeld u c hu),
              ok_bind]
            exact hset.keeps
        | some f => exact Inv.keeps ⟨hset.open_uvecfd hu (fresh_file hfile).1 vector,
            hset.wait.edit hu rfl rfl rfl rfl⟩

end Inv

/-! ### Receivers -/

theorem WaitOk.others {upids : Addr → Option UpidCtx} {tasks : Task → Option Thread}
    {waitList : List Addr} {t : Task} {th : Thread} (hwait : WaitOk upids tasks waitList)
    (ht : tasks t = some th) (hrunning : th.running = true) :
    ∀ u ∈ waitList, ∃ c, upids u = some c ∧ c.task ≠ t := by
  intro u hin
  obtain ⟨c, hu, hwaiting, -⟩ := (hwait.mem u).1 hin
  refine ⟨c, hu, fun htask => ?_⟩
  simp [hwait.awake ht hrunning u c hu htask] at hwaiting

namespace Inv

variable {u : Addr} {c : UpidCtx} {t : Task} {th : Thread}

theorem calm (hinv : Inv s) (ht : s.tasks t = some th) (hrunning : th.running = true)
    (hu : s.upids u = some c) (htask : c.task = t) : c.waiting = false ∧ c.upid.blkd = false := by
  have hcalm : c.waiting = false := hinv.wait.awake ht hrunning u c hu htask
  refine ⟨hcalm, ?_⟩
  by_contra hset
  simp [(hinv.wait.blocked u c hu (by simpa using hset)).1] at hcalm

theorem wait_own (hinv : Inv s) (ht : s.tasks t = some th) (hrunning : th.running = true)
    {x : Option UpidCtx} (hold : ∀ c, s.upids u = some c → c.task = t)
    (hnew : ∀ d, x = some d → d.waiting = false ∧ d.upid.blkd = false) (y : Option Thread) :
    WaitOk (Function.update s.upids u x) (Function.update s.tasks t y) s.waitList := by
  have hawake := hinv.wait.awake ht hrunning
  refine (hinv.wait.calm (fun c hc => .inl (hawake u c hc (hold c hc))) hnew).setTask ?_
  intro v d hd htask
  by_cases hv : v = u
  · subst hv
    exact (hnew d (by simpa using hd)).1
  · exact hawake v d (by simpa [hv] using hd) htask

end Inv

private theorem Lives.activate (hlives : Lives s) {t : Task} {th : Thread} {u : Addr} {c : UpidCtx}
    (ht : s.tasks t = some th) (hold : ∀ d, s.upids u = some d → d.task = t)
    (hcounted : Counted UpidCtx.refs (Function.update s.upids u (some c))
      (Function.update (Function.update s.holder (.task t) (some u)) (.msr t) (some u)))
    (htask : c.task = t) (hpos : 0 < c.refs) (hkernel : u.getLsbD 63 = true) :
    Lives ((s.setUpid u (some c)).setTask t (some { th with
      upidCtx := some u, uintrPd := some u, upidActivated := true })) where
  upids := by
    rw [State.holder_setTask, State.holder_setUpid]
    exact hcounted
  tables := hlives.tables
  mms := by
    rw [State.mmHolder_setTask_same (s := s.setUpid u (some c)) ht (by rfl)]
    exact hlives.mms
  threads := by
    have hthread := hlives.threads t th ht
    intro t' th' ht'
    by_cases hne : t' = t
    · subst hne
      simp only [State.setTask_tasks, Function.update_self, Option.some.injEq] at ht'
      subst ht'
      refine ⟨?_, fun _ => ⟨u, rfl⟩, rfl, hthread.tt, hthread.sender⟩
      rintro v d ⟨⟩ hd
      simp only [State.setTask_upids, State.setUpid_upids, Function.update_self,
        Option.some.injEq] at hd
      rw [← hd, htask]
    · have hother : s.tasks t' = some th' := by simpa [hne] using ht'
      refine (hlives.threads t' th' hother).congr_upids fun v d hctx hd => ?_
      by_cases hv : v = u
      · subst hv
        obtain ⟨e, he⟩ := hlives.live ((State.holder_task hother).trans hctx)
        simp only [State.setTask_upids, State.setUpid_upids, Function.update_self,
          Option.some.injEq] at hd
        exact ⟨e, he, by rw [hold e he, ← hd, htask]⟩
      · exact ⟨d, by simpa [hv] using hd, rfl⟩
  wf := hlives.wf
  kernel := by
    intro v d hd
    by_cases hv : v = u
    · exact hv ▸ hkernel
    · exact hlives.kernel v d (by simpa [hv] using hd)
  upidHeld := by
    intro v d hd
    by_cases hv : v = u
    · subst hv
      simp only [State.setTask_upids, State.setUpid_upids, Function.update_self,
        Option.some.injEq] at hd
      exact hd ▸ hpos
    · exact hlives.upidHeld v d (by simpa [hv] using hd)
  tableHeld := hlives.tableHeld

namespace Inv

variable {u : Addr} {c : UpidCtx} {t : Task} {th : Thread}

private theorem programHandler_eq (hu : s.upids u = some c) (flags : BitVec 32) (ndst : Nat) :
    s.programHandler t th u flags ndst =
      .ok ((s.setUpid u (some ((c.setRefs (c.refs + 1)).program flags ndst))).setTask t
        (some { th with upidCtx := some u, uintrPd := some u, upidActivated := true }), .ok 0) := by
  have htaken : (s.setUpid u (some (c.setRefs (c.refs + 1)))).upids u =
      some (c.setRefs (c.refs + 1)) := Function.update_self _ _ _
  simp only [State.programHandler, getUpidRef_eq hu, ok_bind, State.upid_eq htaken,
    setUpid_setUpid]
  rfl

theorem uintrRegisterHandler (hinv : Inv s) (ht : s.tasks t = some th)
    (hrunning : th.running = true) (handler : Addr) (flags : BitVec 32) (ndst : Nat)
    (mem : Option Addr) :
    Keeps ((s.uintrRegisterHandler t handler flags ndst mem).map Prod.fst) := by
  have hthread := hinv.threads t th ht
  unfold State.uintrRegisterHandler
  split
  · exact hinv.keeps
  split
  · exact hinv.keeps
  simp only [State.doUintrRegisterHandler, State.thread_eq ht, ok_bind]
  split
  · exact hinv.keeps
  · next hinactive =>
      have hmsr : s.holder (.msr t) = none := by
        rw [State.holder_msr ht, hthread.pd, if_neg hinactive]
      have htask := State.holder_task ht
      cases hctx : th.upidCtx with
      | some u =>
          obtain ⟨c, hu⟩ := hinv.live (htask.trans hctx)
          have howner := hthread.owner u c hctx hu
          have hold : ∀ d, s.upids u = some d → d.task = t := fun d => hthread.owner u d hctx
          obtain ⟨hcalm, hfree⟩ := hinv.calm ht hrunning hu howner
          simp only [programHandler_eq hu]
          refine Inv.keeps ⟨hinv.activate ht hold ?_ howner (Nat.succ_pos _)
            (hinv.kernel u c hu), hinv.wait_own ht hrunning hold ?_ _⟩
          · have hsame : Function.update s.holder (.task t) (some u) = s.holder := by
              rw [← hctx, ← htask, Function.update_eq_self]
            rw [hsame]
            exact hinv.upids.get hmsr hu rfl
          · rintro d ⟨⟩
            exact ⟨hcalm, hfree⟩
      | none =>
          cases hmem : s.kzallocUpid mem with
          | none => exact hinv.keeps
          | some u =>
              simp only [State.kzallocUpid, Option.filter_eq_some_iff, Bool.and_eq_true,
                Option.isNone_iff_eq_none] at hmem
              obtain ⟨-, hnew, hkernel⟩ := hmem
              have hold : ∀ d, s.upids u = some d → d.task = t := by simp [hnew]
              have hu : (s.setUpid u (some (.alloc t))).upids u = some (.alloc t) :=
                Function.update_self _ _ _
              simp only [programHandler_eq hu, setUpid_setUpid]
              refine Inv.keeps ⟨hinv.activate ht hold ?_ rfl (Nat.succ_pos _) hkernel,
                hinv.wait_own ht hrunning hold ?_ _⟩
              · have halloc := hinv.upids.alloc (htask.trans hctx) hnew
                  (show (UpidCtx.alloc t).refs = 1 from rfl)
                have hget := halloc.get (h := .msr t) (by simp [hmsr]) (Function.update_self _ _ _)
                  (show (((UpidCtx.alloc t).setRefs 2).program flags ndst).refs = 1 + 1
                    from rfl)
                rwa [Function.update_idem] at hget
              · rintro d ⟨⟩
                exact ⟨rfl, rfl⟩

end Inv

private theorem Lives.deactivate (hlives : Lives s) {t : Task} {th : Thread} {u : Addr}
    {c : UpidCtx}
    (ht : s.tasks t = some th) (hpd : th.uintrPd = some u) (hu : s.upids u = some c)
    (hrefs : 2 ≤ c.refs) :
    Lives ((s.setUpid u (some (c.setRefs (c.refs - 1)))).setTask t (some { th with
      uintrPd := none, upidActivated := false })) where
  upids := by
    have htask : Function.update s.holder (.task t) th.upidCtx = s.holder := by
      rw [← State.holder_task ht, Function.update_eq_self]
    have hput := hlives.put_upids hu ((State.holder_msr ht).trans hpd)
    rw [put_of_two hrefs] at hput
    rw [State.holder_setTask, State.holder_setUpid, Option.bind_some, Option.bind_some, htask]
    exact hput
  tables := hlives.tables
  mms := by
    rw [State.mmHolder_setTask_same (s := s.setUpid u _) ht (by rfl)]
    exact hlives.mms
  threads := by
    have hkept := put_of_two hrefs ▸ hlives.put_kept hu
    intro t' th' ht'
    by_cases hne : t' = t
    · subst hne
      have hthread := hlives.threads_setUpid hu hkept ht
      simp only [State.setTask_tasks, Function.update_self, Option.some.injEq] at ht'
      subst ht'
      exact ⟨hthread.owner, by simp, rfl, hthread.tt, hthread.sender⟩
    · exact hlives.threads_setUpid hu hkept (by simpa [hne] using ht')
  wf := hlives.wf
  kernel := hlives.kernel_setUpid hu _
  upidHeld := hlives.upidHeld_setUpid hu (put_of_two hrefs ▸ hlives.put_kept hu)
  tableHeld := hlives.tableHeld

namespace Inv

variable {u : Addr} {c : UpidCtx} {t : Task} {th : Thread}

theorem refs_of_active (hinv : Inv s) (ht : s.tasks t = some th) (hctx : th.upidCtx = some u)
    (hpd : th.uintrPd = some u) (hu : s.upids u = some c) : 2 ≤ c.refs := by
  have hpos := hinv.upidHeld u c hu
  have hne : c.refs ≠ 1 := by
    intro hone
    cases hinv.upids.holder_eq ((State.holder_msr ht).trans hpd)
      ((State.holder_task ht).trans hctx) hu hone
  omega

theorem uintrUnregisterHandler (hinv : Inv s) (ht : s.tasks t = some th)
    (hrunning : th.running = true) (flags : BitVec 32) :
    Keeps ((s.uintrUnregisterHandler t flags).map Prod.fst) := by
  have hthread := hinv.threads t th ht
  unfold State.uintrUnregisterHandler
  split
  · exact hinv.keeps
  simp only [State.doUintrUnregisterHandler, State.thread_eq ht, ok_bind]
  split
  · next hactive =>
      obtain ⟨u, c, hctx, hpd, hu, howner⟩ := hinv.active ht hactive
      have hrefs := hinv.refs_of_active ht hctx hpd hu
      obtain ⟨hcalm, hfree⟩ := hinv.calm ht hrunning hu howner
      have hold : ∀ d, s.upids u = some d → d.task = t := fun d => hthread.owner u d hctx
      have hwait : ∀ refs, WaitOk
          (Function.update s.upids u (some ((c.setSn true).setRefs refs)))
          (Function.update s.tasks t (some { th with uintrPd := none, upidActivated := false }))
          s.waitList :=
        fun refs => hinv.wait_own ht hrunning hold (by rintro d ⟨⟩; exact ⟨hcalm, hfree⟩) _
      have hderef : State.deref th.upidCtx = .ok u := by rw [hctx, State.deref_some]
      simp only [hderef, ok_bind, State.upid_setTask, State.upid_eq hu,
        putUpidRef_setUpid, put_of_two (show 2 ≤ (c.setSn true).refs from hrefs)]
      rw [uintrRemoveTaskWait_awake ((hwait _).others (Function.update_self _ _ _) hrunning),
        ok_bind]
      have hquiet := hinv.edit hu (show (c.setSn true).refs = c.refs from rfl) rfl
      have hlives := hquiet.deactivate ht hpd (Function.update_self _ _ _) hrefs
      rw [setUpid_setUpid] at hlives
      exact Inv.keeps ⟨hlives, hwait _⟩
  · exact hinv.keeps

end Inv

end UserPaging.Linux.Uintr
