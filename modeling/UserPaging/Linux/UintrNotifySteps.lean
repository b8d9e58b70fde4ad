import UserPaging.Linux.UintrNotifyInv

/-!
# The steps of a CPU

Context switches, the return to user mode and interrupts keep what holds of the
protocol, and so does every run.
-/

namespace UserPaging.Linux.Notify

open UserPaging.Foundation UserPaging.Linux.Uintr

variable {s s' : State} {c : Cpu} {t : Task}

namespace Inv

/-! ### Context switches -/

theorem toKernel (h : Inv s) (hmode : (s.core c).mode = .user ∨ (s.core c).mode = .kernel) :
    Inv (s.setMode c .kernel) := by
  cases hcur : (s.core c).current with
  | none =>
      have hidle := h.idle c hcur
      exact h.editsIdle hcur hcur ⟨hidle.uinv, hidle.recognizing, rfl⟩ fun t ht => ⟨ht, rfl⟩
  | some t =>
      have hbusy := h.busy c t hcur
      refine h.editsMode ((EditsCpu.refl hcur).setMode .kernel) rfl ?_ ?_ (h.task t) h.nodup
      · simp [State.setMode]
      · simp only [State.setMode, State.setCore, Function.update_self]
        constructor <;> grind [Mode.stage, Mode.switching]

theorem enter (h : Inv s) : Inv (s.enter c) := by
  unfold State.enter
  split
  · next hmode => exact h.toKernel (.inl hmode.1)
  · exact h

private theorem of_loaded (h : Inv s) (ht : (s.fpu t).loaded = some c) :
    (s.core c).current = some t ∧ (s.core c).owner = some t := by
  have hcur := h.loaded t c ht
  have hbusy := h.busy c t hcur
  grind

theorem xsaves (h : Inv s) (ht : (s.fpu t).loaded = some c) (hmode : (s.core c).mode = .kernel)
    (hidle : (s.core c).recognizing = false) : Inv (s.xsaves c t) := by
  obtain ⟨hcur, howner⟩ := h.of_loaded ht
  have hbusy := h.busy c t hcur
  have htask := h.task t
  refine h.editsCpu (((EditsCpu.refl hcur).setFpu _).setCore hcur) ?_ ?_ ?_ h.nodup
  · simp only [State.xsaves, State.setCore, State.setFpu, Function.update_self]
    constructor <;> grind [Mode.stage, Mode.switching]
  · simp only [State.xsaves, State.setCore, State.setFpu, Function.update_self]
    constructor <;> grind
  · have howner' := h.owner
    simp only [State.xsaves, State.setCore, State.setFpu]
    grind [Function.update_apply]

private theorem forget (h : Inv s) (hcur : (s.core c).current = some t)
    (ht : (s.fpu t).loaded = none) :
    Inv (s.setCore c { s.core c with owner := none }) := by
  have hbusy := h.busy c t hcur
  refine h.editsCpu ((EditsCpu.refl hcur).setCore hcur) ?_ (h.task t) ?_ h.nodup
  · simp only [State.setCore, Function.update_self]
    constructor <;> grind
  · have howner := h.owner
    simp only [State.setCore]
    grind [Function.update_apply]

theorem kernelFpuBegin (h : Inv s) : Inv (s.kernelFpuBegin c) := by
  unfold State.kernelFpuBegin
  split
  · next t hcur =>
      split
      · next hcan =>
          obtain ⟨hmode, hidle, hloaded⟩ := hcan
          refine (h.xsaves hloaded hmode hidle).forget (t := t) ?_ ?_
          · simpa [State.xsaves] using hcur
          · simp [State.xsaves]
      · exact h
  · exact h

theorem leave (h : Inv s) (hmode : (s.core c).mode = .kernel)
    (hidle : (s.core c).recognizing = false) (hcur : (s.core c).current = some t)
    (ht : (s.fpu t).loaded = none) (interruptible sleeps : Bool) :
    Inv ((s.setFlags t { s.flags t with asleep := sleeps }).setMode c (.saved interruptible)) := by
  have hbusy := h.busy c t hcur
  have htask := h.task t
  refine h.editsMode (((EditsCpu.refl hcur).setFlags _).setMode _) rfl ?_ ?_ ?_ h.nodup
  · simp [State.setMode]
  · simp only [State.setMode, State.setCore, State.setFlags, Function.update_self]
    constructor <;> grind [Mode.stage, Mode.switching]
  · simp only [State.setMode, State.setCore, State.setFlags, Function.update_self]
    constructor <;> grind

theorem switchFpu (h : Inv s) (interruptible sleeps : Bool) :
    Inv (s.switchFpu c interruptible sleeps) := by
  unfold State.switchFpu
  split
  · next hcan =>
      obtain ⟨hmode, hidle⟩ := hcan
      split
      · next t hcur =>
          have hbusy := h.busy c t hcur
          dsimp only
          split
          · next hloaded =>
              refine (h.xsaves hloaded hmode hidle).leave ?_ ?_ ?_ ?_ interruptible sleeps
              all_goals simp [State.xsaves, hmode, hidle, hcur]
          · next hloaded =>
              have hnone : (s.fpu t).loaded = none :=
                hbusy.loaded.resolve_right fun hsome => hloaded hsome.1
              exact h.leave hmode hidle hcur hnone interruptible sleeps
      · next hcur =>
          have hcpu := h.idle c hcur
          exact h.editsIdle hcur hcur ⟨hcpu.uinv, hcpu.recognizing, rfl⟩ fun t ht => ⟨ht, rfl⟩
  · exact h

private theorem prepare_other (h : Inv s) {interruptible : Bool}
    (hmode : (s.core c).mode = .saved interruptible) (hcur : (s.core c).current = some t)
    (hcost : s.cost t = none) : Inv (s.setMode c .prepared) := by
  have hbusy := h.busy c t hcur
  refine h.editsMode ((EditsCpu.refl hcur).setMode _) rfl ?_ ?_ (h.task t) h.nodup
  · simp [State.setMode]
  · simp only [State.setMode, State.setCore, Function.update_self]
    constructor <;> grind [Mode.stage, Mode.switching]

private theorem prepare_suppress (h : Inv s) {interruptible : Bool}
    (hmode : (s.core c).mode = .saved interruptible) (hcur : (s.core c).current = some t) :
    Inv ((s.setUpid t { s.upid t with sn := true }).setMode c .prepared) := by
  have hbusy := h.busy c t hcur
  have htask := h.task t
  refine h.editsMode (((EditsCpu.refl hcur).setUpid _).setMode _) rfl ?_ ?_ ?_ h.nodup
  · simp [State.setMode]
  · simp only [State.setMode, State.setCore, State.setUpid, Function.update_self]
    constructor <;> grind [Mode.stage, Mode.switching]
  · simp only [State.setMode, State.setCore, State.setUpid, Function.update_self]
    constructor <;> grind

/-- A receiver begins to wait: one that pays asks for the kernel vector, one that lets its
senders pay sets the reserved bit. -/
private theorem prepare_wait (h : Inv s) {interruptible : Bool} {x : Upid}
    (hmode : (s.core c).mode = .saved interruptible) (hcur : (s.core c).current = some t)
    (hx : s.cost t = some .receiver ∧ x.nv = uintrKernelVector ∧ x.blkd = (s.upid t).blkd ∨
      s.cost t = some .sender ∧ x.nv = (s.upid t).nv) :
    Inv (((s.setUpid t x).setFlags t { s.flags t with waiting := true }).setMode c .blocking) := by
  have hbusy := h.busy c t hcur
  have htask := h.task t
  refine h.editsMode ((((EditsCpu.refl hcur).setUpid _).setFlags _).setMode _) rfl ?_ ?_ ?_ h.nodup
  · simp [State.setMode]
  · simp only [State.setMode, State.setCore, State.setUpid, State.setFlags, Function.update_self]
    constructor <;> grind [Mode.stage, Mode.switching]
  · simp only [State.setMode, State.setCore, State.setUpid, State.setFlags, Function.update_self]
    constructor <;> grind

theorem switchUintrPrepare (h : Inv s) : Inv (s.switchUintrPrepare c) := by
  unfold State.switchUintrPrepare
  split
  · next interruptible hmode =>
      split
      · next hcur =>
          have hcpu := h.idle c hcur
          exact h.editsIdle hcur hcur ⟨hcpu.uinv, hcpu.recognizing, rfl⟩ fun t ht => ⟨ht, rfl⟩
      · next t hcur =>
          split
          · next hcost => exact h.prepare_other hmode hcur hcost
          · next cost hcost =>
              split
              · next hwaits =>
                  cases cost with
                  | none => exact absurd rfl hwaits.1
                  | receiver => exact h.prepare_wait hmode hcur (.inl ⟨hcost, rfl, rfl⟩)
                  | sender => exact h.prepare_wait hmode hcur (.inr ⟨hcost, rfl⟩)
              · exact h.prepare_suppress hmode hcur
  · exact h

private theorem block_receiver (h : Inv s) (hmode : (s.core c).mode = .blocking)
    (hcur : (s.core c).current = some t) (hcost : s.cost t ≠ some .sender) :
    Inv ((s.setWaitList (t :: s.waitList)).setMode c .prepared) := by
  have hbusy := h.busy c t hcur
  have htask := h.task t
  have hwaiting : s.cost t = some .receiver ∧ (s.flags t).waiting = true ∧ t ∉ s.waitList :=
    (hbusy.blocking hmode).resolve_left hcost
  have hothers : ∀ t', t' ≠ t → (t' ∈ t :: s.waitList ↔ t' ∈ s.waitList) := fun t' hne => by
    simp [hne]
  refine h.editsMode (((EditsCpu.refl hcur).setWaitList hothers).setMode _) rfl ?_ ?_ ?_
    (List.nodup_cons.2 ⟨hwaiting.2.2, h.nodup⟩)
  · simp [State.setMode]
  · simp only [State.setMode, State.setCore, State.setWaitList, Function.update_self]
    constructor <;> grind [Mode.stage, Mode.switching]
  · simp only [State.setMode, State.setCore, State.setWaitList]
    constructor <;> grind

private theorem block_sender (h : Inv s) (hmode : (s.core c).mode = .blocking)
    (hcur : (s.core c).current = some t) (hcost : s.cost t = some .sender) :
    Inv ((s.setUpid t { s.upid t with sn := true }).setMode c .prepared) := by
  have hbusy := h.busy c t hcur
  have htask := h.task t
  refine h.editsMode (((EditsCpu.refl hcur).setUpid _).setMode _) rfl ?_ ?_ ?_ h.nodup
  · simp [State.setMode]
  · simp only [State.setMode, State.setCore, State.setUpid, Function.update_self]
    constructor <;> grind [Mode.stage, Mode.switching]
  · simp only [State.setMode, State.setCore, State.setUpid, Function.update_self]
    constructor <;> grind

theorem switchUintrBlock (h : Inv s) : Inv (s.switchUintrBlock c) := by
  unfold State.switchUintrBlock
  split
  · next hmode =>
      split
      · exact h
      · next t hcur =>
          split
          · next hcost => exact h.block_receiver hmode hcur hcost
          · next hcost => exact h.block_sender hmode hcur (not_not.1 hcost)
  · exact h

private theorem off (h : Inv s) (hmode : (s.core c).mode = .prepared)
    (hcur : (s.core c).current = some t) :
    Inv ((s.setFlags t { s.flags t with onCpu := false }).setCore c
      { s.core c with current := none }) := by
  have hbusy := h.busy c t hcur
  have htask := h.task t
  have hnone := hbusy.switching (by rw [hmode]; rfl)
  have hcurrent : ∀ d t', ((s.setCore c { s.core c with current := none }).core d).current =
      some t' ↔ d ≠ c ∧ (s.core d).current = some t' := fun d t' => by
    by_cases heq : d = c <;> simp [heq]
  refine ⟨?_, ?_, ?_, ?_, ?_, ?_, h.senders, h.nodup⟩
  · exact fun d e t' hd he =>
      h.unique d e t' ((hcurrent d t').1 hd).2 ((hcurrent e t').1 he).2
  · intro t' d hloaded
    refine (hcurrent d t').2 ⟨?_, h.loaded t' d hloaded⟩
    rintro rfl
    obtain rfl : t' = t := Option.some.inj ((h.loaded t' d hloaded).symm.trans hcur)
    simp [hnone] at hloaded
  · have howner := h.owner
    simp only [State.setCore, State.setFlags]
    grind [Function.update_apply]
  · intro d t' hd
    obtain ⟨hne, hbusy'⟩ := (hcurrent d t').1 hd
    have hne' : t' ≠ t := fun heq => hne (h.unique d c t (heq ▸ hbusy') hcur)
    simp only [State.setCore, State.setFlags, Function.update_of_ne hne, Function.update_of_ne hne']
    exact h.busy d t' hbusy'
  · intro d hd
    by_cases heq : d = c
    · subst heq
      simp only [State.setCore, Function.update_self]
      constructor <;> grind [Mode.stage]
    · simp only [State.setCore, Function.update_of_ne heq] at hd ⊢
      exact h.idle d hd
  · intro t'
    by_cases heq : t' = t
    · subst heq
      simp only [State.setCore, State.setFlags, Function.update_self]
      constructor <;> grind
    · simp only [State.setCore, State.setFlags, Function.update_of_ne heq]
      exact h.task t'

private theorem mark (h : Inv s) :
    Inv (s.setFlags t { s.flags t with onCpu := true }) := by
  have htask := h.task t
  refine h.editsTask (t := t)
    ⟨rfl, rfl, rfl, rfl, fun _ _ => rfl, ?_, fun _ _ => .rfl⟩ ?_ ?_ h.nodup
  · exact fun t' hne => Function.update_of_ne hne _ _
  · intro d hbusy
    simp only [State.setFlags, Function.update_self]
    constructor <;> grind
  · simp only [State.setFlags, Function.update_self]
    constructor <;> grind

theorem switchUintrFinish (h : Inv s) (hasleep : (s.flags t).asleep = false)
    (hlisted : s.cost t = some .receiver → (s.flags t).waiting = true → t ∈ s.waitList) :
    Inv (s.switchUintrFinish t) ∧ (s.cost t = some .receiver →
      ((s.switchUintrFinish t).flags t).waiting = false) := by
  have htask := h.task t
  unfold State.switchUintrFinish
  split
  · next hwaits =>
      split
      · next hcost =>
          refine ⟨(h.setFlags ?_ ?_ (.inr hcost)).setUpid ?_ ?_ ?_ ?_, ?_⟩
          exacts [rfl, hasleep, rfl, rfl, rfl, by simp, by simp [hcost]]
      · next hcost =>
          rw [State.uintrRemoveTaskWait, foldl_removeEntry h.nodup]
          split
          · next hmem =>
              rw [State.removeEntry, if_pos rfl]
              refine ⟨h.unlist hmem ?_ ?_ ?_ ?_ ?_ ?_, ?_⟩
              exacts [rfl, rfl, rfl, rfl, id, rfl, by simp]
          · next hmem => exact ⟨h, fun hcost => absurd (hlisted hcost hwaits.2) hmem⟩
  · next hwaits =>
      refine ⟨h, fun hcost => ?_⟩
      simpa [hcost] using hwaits

private theorem arrive (h : Inv s) (hcur : (s.core c).current = none)
    (haway : ∀ d, (s.core d).current ≠ some t) (hon : (s.flags t).onCpu = true)
    (hasleep : (s.flags t).asleep = false)
    (hwaiting : s.cost t = some .receiver → (s.flags t).waiting = false) :
    Inv (s.setCore c { s.core c with current := some t, mode := .kernel }) := by
  have hcpu := h.idle c hcur
  have hnone : (s.fpu t).loaded = none :=
    Option.eq_none_iff_forall_ne_some.2 fun d hloaded => haway d (h.loaded t d hloaded)
  refine ⟨?_, ?_, ?_, ?_, ?_, h.task, h.senders, h.nodup⟩
  · have hunique := h.unique
    simp only [State.setCore]
    grind [Function.update_apply]
  · have hloaded := h.loaded
    simp only [State.setCore]
    grind [Function.update_apply]
  · have howner := h.owner
    simp only [State.setCore]
    grind [Function.update_apply]
  · intro d t' hd
    by_cases heq : d = c
    · subst heq
      obtain ⟨huinv, hrec, -⟩ := hcpu
      simp only [State.setCore, Function.update_self, Option.some.injEq] at hd ⊢
      subst hd
      constructor <;> grind [Mode.stage, Mode.switching]
    · simp only [State.setCore, Function.update_of_ne heq] at hd ⊢
      exact h.busy d t' hd
  · intro d hd
    by_cases heq : d = c
    · simp [heq] at hd
    · simp only [State.setCore, Function.update_of_ne heq] at hd ⊢
      exact h.idle d hd

end Inv

/-! ### What the loops over the wait list leave alone -/

structure Quiet (s s' : State) : Prop where
  cost : s'.cost = s.cost
  core : s'.core = s.core
  apic : s'.apic = s.apic
  fpu : s'.fpu = s.fpu
  senders : s'.senders = s.senders
  puir : ∀ t, (s'.upid t).puir = (s.upid t).puir
  on : ∀ t, (s'.upid t).on = (s.upid t).on
  onCpu : ∀ t, (s'.flags t).onCpu = (s.flags t).onCpu
  awake : ∀ t, (s.flags t).asleep = false → (s'.flags t).asleep = false

namespace Quiet

theorem refl (s : State) : Quiet s s :=
  ⟨rfl, rfl, rfl, rfl, rfl, fun _ => rfl, fun _ => rfl, fun _ => rfl, fun _ => id⟩

theorem trans {s'' : State} (h : Quiet s s') (h' : Quiet s' s'') : Quiet s s'' :=
  ⟨h'.cost.trans h.cost, h'.core.trans h.core, h'.apic.trans h.apic, h'.fpu.trans h.fpu,
    h'.senders.trans h.senders, fun t => (h'.puir t).trans (h.puir t),
    fun t => (h'.on t).trans (h.on t), fun t => (h'.onCpu t).trans (h.onCpu t),
    fun t hawake => h'.awake t (h.awake t hawake)⟩

theorem foldl {f : State → Task → State} (hf : ∀ s t, Quiet s (f s t)) (entries : List Task)
    (s : State) : Quiet s (entries.foldl f s) := by
  induction entries generalizing s with
  | nil => exact refl s
  | cons t entries ih => exact (hf s t).trans (ih (f s t))

theorem edit (s : State) (t : Task) {x : Upid} {y : Flags} (hpuir : x.puir = (s.upid t).puir)
    (hon : x.on = (s.upid t).on) (honCpu : y.onCpu = (s.flags t).onCpu)
    (hawake : (s.flags t).asleep = false → y.asleep = false) (l : List Task) :
    Quiet s (((s.setUpid t x).setFlags t y).setWaitList l) := by
  refine ⟨rfl, rfl, rfl, rfl, rfl, ?_, ?_, ?_, ?_⟩ <;> intro t' <;>
    by_cases heq : t' = t <;> simp [heq, hpuir, hon, honCpu]
  exact hawake

theorem wakeUpEntry (s : State) (t : Task) : Quiet s (s.wakeUpEntry t) := by
  unfold State.wakeUpEntry
  split
  · exact edit s t (by rfl) (by rfl) (by rfl) (fun _ => by rfl) _
  · exact refl s

theorem uintrWakeUpProcess (s : State) : Quiet s s.uintrWakeUpProcess :=
  foldl wakeUpEntry s.waitList s

theorem removeEntry (task : Task) (s : State) (t : Task) : Quiet s (s.removeEntry task t) := by
  unfold State.removeEntry
  split
  · exact edit s t (by rfl) (by rfl) (by rfl) (by exact id) _
  · exact refl s

theorem switchUintrFinish (s : State) (t : Task) : Quiet s (s.switchUintrFinish t) := by
  unfold State.switchUintrFinish
  split
  · split
    · exact edit s t (x := { s.upid t with blkd := false })
        (y := { s.flags t with waiting := false }) rfl rfl rfl id s.waitList
    · exact foldl (removeEntry t) s.waitList s
  · exact refl s

end Quiet

private theorem setCore_setCore (x y : Core) : (s.setCore c x).setCore c y = s.setCore c y := by
  simp [State.setCore, Function.update_idem]

private theorem foldl_removeEntry_setCore (entries : List Task) (x : Core) :
    entries.foldl (State.removeEntry t) (s.setCore c x) =
      (entries.foldl (State.removeEntry t) s).setCore c x := by
  induction entries generalizing s with
  | nil => rfl
  | cons t' entries ih =>
      have hstep : (s.setCore c x).removeEntry t t' = (s.removeEntry t t').setCore c x := by
        unfold State.removeEntry
        split <;> rfl
      rw [List.foldl_cons, List.foldl_cons, hstep, ih]

private theorem switchUintrFinish_setCore (x : Core) :
    (s.setCore c x).switchUintrFinish t = (s.switchUintrFinish t).setCore c x := by
  unfold State.switchUintrFinish
  simp only [State.setCore_cost, State.setCore_flags]
  split_ifs
  · rfl
  · exact foldl_removeEntry_setCore _ x
  · rfl

private theorem takeCpu_vacant :
    (s.setCore c { s.core c with current := none }).takeCpu c t = s.takeCpu c t := by
  have hquiet := Quiet.switchUintrFinish (s.setFlags t { s.flags t with onCpu := true }) t
  have hset : ∀ x y, (s.setCore c x).setFlags t y = (s.setFlags t y).setCore c x := fun _ _ => rfl
  simp only [State.takeCpu, hset, State.setCore_flags, switchUintrFinish_setCore, setCore_setCore,
    hquiet.core, State.setCore_core, Function.update_self, State.setFlags_core]

namespace Inv

theorem takeCpu (h : Inv s) (hcur : (s.core c).current = none)
    (hasleep : (s.flags t).asleep = false) (hoff : (s.flags t).onCpu = false) :
    Inv (s.takeCpu c t) := by
  have haway : ∀ d, (s.core d).current ≠ some t := fun d hd => by
    have hbusy := h.busy d t hd
    grind
  have hmark : Inv (s.setFlags t { s.flags t with onCpu := true }) := h.mark
  have hquiet := Quiet.switchUintrFinish (s.setFlags t { s.flags t with onCpu := true }) t
  obtain ⟨hfinish, hwaiting⟩ := hmark.switchUintrFinish (t := t) (by simpa using hasleep)
    (by simpa using (h.task t).away hoff)
  refine hfinish.arrive ?_ ?_ ?_ ?_ ?_
  · rw [hquiet.core]
    exact hcur
  · rw [hquiet.core]
    exact haway
  · rw [hquiet.onCpu]
    simp
  · exact hquiet.awake t (by simpa using hasleep)
  · rw [hquiet.cost]
    exact hwaiting

theorem leaveCpu (h : Inv s) (hmode : (s.core c).mode = .prepared) :
    Inv ((s.leaveCpu c).setCore c { s.core c with current := none }) ∧
      (s.leaveCpu c).core = s.core ∧
      ∀ t, (s.flags t).onCpu = false → (s.leaveCpu c).flags t = s.flags t := by
  unfold State.leaveCpu
  split
  · next t hcur =>
      refine ⟨h.off hmode hcur, rfl, fun t' hoff => Function.update_of_ne ?_ _ _⟩
      rintro rfl
      have hbusy := h.busy c t' hcur
      grind
  · next hcur =>
      have hcpu := h.idle c hcur
      refine ⟨h.editsIdle hcur rfl ⟨hcpu.uinv, hcpu.recognizing, hcpu.returning⟩ fun t ht => ?_,
        rfl, fun _ _ => rfl⟩
      exact ⟨ht, rfl⟩

theorem switchTo (h : Inv s) (next : Option Task) : Inv (s.switchTo c next) := by
  unfold State.switchTo
  split
  · next hcan =>
      obtain ⟨hmode, hready⟩ := hcan
      obtain ⟨hinv, hcore, hflags⟩ := h.leaveCpu hmode
      have hnone : (((s.leaveCpu c).setCore c { s.core c with current := none }).core c).current =
          none := by simp
      cases next with
      | none =>
          have hcpu := hinv.idle c hnone
          have hidle := hinv.editsIdle (x := { s.core c with current := none, mode := .kernel })
            hnone rfl ⟨by simpa using hcpu.uinv, by simpa using hcpu.recognizing, rfl⟩
            fun t ht => ⟨by simpa using ht, by simp⟩
          rwa [setCore_setCore] at hidle
      | some t =>
          obtain ⟨hasleep, hoff⟩ := hready t rfl
          have htake := hinv.takeCpu (t := t) hnone (by simpa [hflags t hoff] using hasleep)
            (by simpa [hflags t hoff] using hoff)
          rwa [← hcore, takeCpu_vacant] at htake
  · exact h

/-! ### The return to user mode -/

theorem disown (h : Inv s) (ht : (s.fpu t).loaded = none) : Inv (s.disown t) := by
  have hcurrent : ∀ d, ((s.disown t).core d).current = (s.core d).current := fun d => by
    simp only [State.disown]
    split <;> rfl
  refine ⟨?_, ?_, ?_, ?_, ?_, h.task, h.senders, h.nodup⟩
  · simp only [hcurrent]
    exact h.unique
  · simp only [hcurrent]
    exact h.loaded
  · have howner := h.owner
    simp only [State.disown]
    grind
  · intro d t' hd
    rw [hcurrent] at hd
    have hbusy := h.busy d t' hd
    simp only [State.disown]
    split
    · constructor <;> grind
    · exact hbusy
  · intro d hd
    rw [hcurrent] at hd
    have hcpu := h.idle d hd
    simp only [State.disown]
    split
    · exact ⟨hcpu.uinv, hcpu.recognizing, hcpu.returning⟩
    · exact hcpu

theorem load (h : Inv s) (hcur : (s.core c).current = some t)
    (hmode : (s.core c).mode = .kernel) (hidle : (s.core c).recognizing = false)
    (hfree : ∀ d, (s.core d).owner ≠ some t) {x : Regs}
    (hx : x.uinv = true → (s.cost t).isSome = true) :
    Inv ((s.setFpu t { s.fpu t with loaded := some c }).setCore c
      { s.core c with regs := x, owner := some t, mode := .restored }) := by
  have hbusy := h.busy c t hcur
  have htask := h.task t
  refine h.editsCpu (((EditsCpu.refl hcur).setFpu _).setCore hcur) ?_ ?_ ?_ h.nodup
  · simp only [State.setCore, State.setFpu, Function.update_self]
    constructor <;> grind [Mode.stage, Mode.switching]
  · simp only [State.setCore, State.setFpu, Function.update_self]
    constructor <;> grind
  · have howner := h.owner
    simp only [State.setCore, State.setFpu]
    grind [Function.update_apply]

theorem switchFpuReturn (h : Inv s) : Inv (s.switchFpuReturn c) := by
  unfold State.switchFpuReturn
  split
  · next t hcur =>
      split
      · next hcan =>
          obtain ⟨hmode, hidle⟩ := hcan
          have hbusy := h.busy c t hcur
          have htask := h.task t
          split
          · next hloaded =>
              refine h.editsMode ((EditsCpu.refl hcur).setMode _) rfl ?_ ?_ htask h.nodup
              · simp [State.setMode]
              · simp only [State.setMode, State.setCore, Function.update_self]
                constructor <;> grind [Mode.stage, Mode.switching]
          · next hloaded =>
              have hnone := hbusy.loaded.resolve_right fun hsome => hloaded hsome.1
              refine (h.disown hnone).load (s := s.disown t) ?_ ?_ ?_ ?_ ?_
              · simpa [State.disown, apply_ite Core.current] using hcur
              · simpa [State.disown, apply_ite Core.mode] using hmode
              · simpa [State.disown, apply_ite Core.recognizing] using hidle
              · simp only [State.disown]
                grind
              · show _ → (s.cost t).isSome = true
                grind
      · exact h
  · exact h

theorem returnUinv (h : Inv s) : Inv (s.returnUinv c) := by
  unfold State.returnUinv
  split
  · next t hcur =>
      split
      · next hmode =>
          have hbusy := h.busy c t hcur
          have htask := h.task t
          split
          · next hcost =>
              refine h.editsCpu ((EditsCpu.refl hcur).setCore hcur) ?_ htask ?_ h.nodup
              · simp only [State.setCore, Function.update_self]
                constructor <;> grind [Mode.stage, Mode.switching]
              · have howner := h.owner
                simp only [State.setCore]
                grind [Function.update_apply]
          · next hcost =>
              refine h.editsMode ((EditsCpu.refl hcur).setMode _) rfl ?_ ?_ htask h.nodup
              · simp [State.setMode]
              · simp only [State.setMode, State.setCore, Function.update_self]
                constructor <;> grind [Mode.stage, Mode.switching]
      · exact h
  · exact h

private theorem nextStage (h : Inv s) (hcur : (s.core c).current = some t)
    (hold : (s.core c).mode = .armed ∨ (s.core c).mode = .routed) {mode : Mode}
    (hmode : mode = .routed ∨ mode = .unsuppressed) {x : Upid} (hnv : x.nv = (s.upid t).nv)
    (hblkd : x.blkd = (s.upid t).blkd) (hndst : (s.cost t).isSome = true → x.ndst = c)
    (hsn : mode = .unsuppressed → x.sn = false) :
    Inv ((s.setUpid t x).setMode c mode) := by
  have hbusy := h.busy c t hcur
  have htask := h.task t
  refine h.editsMode (((EditsCpu.refl hcur).setUpid _).setMode _) rfl ?_ ?_ ?_ h.nodup
  · simp [State.setMode]
  · simp only [State.setMode, State.setCore, State.setUpid, Function.update_self]
    constructor <;> grind [Mode.stage, Mode.switching]
  · simp only [State.setMode, State.setCore, State.setUpid, Function.update_self]
    constructor <;> grind

theorem returnNdst (h : Inv s) : Inv (s.returnNdst c) := by
  unfold State.returnNdst
  split
  · next t hcur =>
      split
      · next hmode =>
          exact h.nextStage hcur (.inl hmode) (.inl rfl) rfl rfl (fun _ => rfl) (by simp)
      · exact h
  · exact h

theorem returnSn (h : Inv s) : Inv (s.returnSn c) := by
  unfold State.returnSn
  split
  · next t hcur =>
      split
      · next hmode =>
          refine h.nextStage hcur (.inr hmode) (.inr rfl) rfl rfl ?_ fun _ => rfl
          exact fun hcost => (h.busy c t hcur).ndst hcost (by simp [hmode, Mode.stage])
      · exact h
  · exact h

theorem arriveUser (h : Inv s) (hcur : (s.core c).current = some t)
    (hmode : (s.core c).mode = .unsuppressed) : Inv (s.setMode c .user) := by
  have hbusy := h.busy c t hcur
  refine h.editsMode ((EditsCpu.refl hcur).setMode _) rfl ?_ ?_ (h.task t) h.nodup
  · simp [State.setMode]
  · simp only [State.setMode, State.setCore, Function.update_self]
    constructor <;> grind [Mode.stage, Mode.switching]

theorem ipi_core (d : Cpu) (vector : Nat) : (s.ipi d vector).core = s.core := by
  unfold State.ipi
  split_ifs <;> rfl

theorem returnPuir (h : Inv s) : Inv (s.returnPuir c) := by
  unfold State.returnPuir
  split
  · next t hcur =>
      split
      · next hmode =>
          dsimp only
          split
          · exact (h.ipi _).arriveUser (by rwa [ipi_core]) (by rwa [ipi_core])
          · exact h.arriveUser hcur hmode
      · exact h
  · exact h

/-! ### Interrupts -/

theorem of_takesInterrupts (hopen : s.takesInterrupts c = true) :
    ((s.core c).mode = .user ∨ (s.core c).mode = .kernel) ∧ (s.core c).recognizing = false := by
  simpa [State.takesInterrupts] using hopen

theorem of_uinv (h : Inv s) (huinv : (s.core c).regs.uinv = true) :
    ∃ t, (s.core c).current = some t ∧ (s.core c).owner = some t ∧ (s.fpu t).loaded = some c ∧
      (s.cost t).isSome = true := by
  cases hcur : (s.core c).current with
  | none =>
      have hcpu := (h.idle c hcur).uinv
      rw [huinv] at hcpu
      cases hcpu
  | some t =>
      obtain ⟨hcost, hloaded⟩ := (h.busy c t hcur).uinv huinv
      exact ⟨t, rfl, (h.of_loaded hloaded).2, hloaded, hcost⟩

theorem of_recognizing (h : Inv s) (hrec : (s.core c).recognizing = true) :
    ∃ t, (s.core c).current = some t ∧ (s.core c).owner = some t ∧ (s.fpu t).loaded = some c ∧
      (s.cost t).isSome = true := by
  cases hcur : (s.core c).current with
  | none =>
      have hcpu := (h.idle c hcur).recognizing
      rw [hrec] at hcpu
      cases hcpu
  | some t =>
      have huinv := ((h.busy c t hcur).recognizing hrec).1
      rw [← hcur]
      exact h.of_uinv huinv

private theorem beginRecognition (h : Inv s) (huinv : (s.core c).regs.uinv = true)
    (hcur : (s.core c).current = some t)
    (hmode : (s.core c).mode = .user ∨ (s.core c).mode = .kernel) :
    Inv ((s.setUpid t { s.upid t with on := false }).setCore c
      { s.core c with recognizing := true }) := by
  have hbusy := h.busy c t hcur
  have htask := h.task t
  refine h.editsMode (((EditsCpu.refl hcur).setUpid _).setCore hcur) rfl ?_ ?_ ?_ h.nodup
  · simp
  · simp only [State.setCore, State.setUpid, Function.update_self]
    constructor <;> grind
  · simp only [State.setCore, State.setUpid, Function.update_self]
    constructor <;> grind

theorem acceptNotification (h : Inv s) : Inv (s.acceptNotification c) := by
  unfold State.acceptNotification
  split
  · next hcan =>
      obtain ⟨hmode, hidle⟩ := of_takesInterrupts hcan.1
      have hinv : Inv (s.setApic c { s.apic c with notification := false }) := h.setApic _
      dsimp only
      split
      · next huinv =>
          obtain ⟨t, hcur, howner, -, -⟩ := h.of_uinv huinv
          split
          · next t' howner' =>
              obtain rfl : t = t' := Option.some.inj (howner.symm.trans howner')
              exact hinv.beginRecognition huinv hcur hmode
          · exact hinv
      · exact (hinv.toKernel hmode).uintrWakeUpProcess
  · exact h

theorem recognize (h : Inv s) : Inv (s.recognize c) := by
  unfold State.recognize
  split
  · next hrec =>
      split
      · next t howner =>
          obtain ⟨t', hcur, howner', hloaded, -⟩ := h.of_recognizing hrec
          obtain rfl : t' = t := Option.some.inj (howner'.symm.trans howner)
          have hbusy := h.busy c t' hcur
          have htask := h.task t'
          refine h.editsCpu (((EditsCpu.refl hcur).setUpid _).setCore hcur) ?_ ?_ ?_ h.nodup
          · simp only [State.setCore, State.setUpid, Function.update_self]
            constructor <;> grind
          · simp only [State.setCore, State.setUpid, Function.update_self]
            constructor <;> grind
          · have howners := h.owner
            simp only [State.setCore, State.setUpid]
            grind [Function.update_apply]
      · exact h
  · exact h

theorem acceptKernel (h : Inv s) : Inv (s.acceptKernel c) := by
  unfold State.acceptKernel
  split
  · next hcan =>
      have hinv : Inv (s.setApic c { s.apic c with kernelVector := false }) := h.setApic _
      exact (hinv.toKernel (of_takesInterrupts hcan.1).1).uintrWakeUpProcess
  · exact h

theorem of_user (h : Inv s) (hmode : (s.core c).mode = .user) :
    ∃ t, (s.core c).current = some t ∧ (s.fpu t).loaded = some c := by
  cases hcur : (s.core c).current with
  | none =>
      have hcpu := (h.idle c hcur).returning
      simp [hmode, Mode.stage] at hcpu
  | some t => exact ⟨t, rfl, (h.busy c t hcur).returning (by simp [hmode, Mode.stage])⟩

theorem deliver (h : Inv s) (uvec : Nat) : Inv (s.deliver c uvec) := by
  unfold State.deliver
  split
  · next hcan =>
      obtain ⟨t, hcur, hloaded⟩ := h.of_user hcan.1
      have hbusy := h.busy c t hcur
      refine h.editsCpu ((EditsCpu.refl hcur).setCore hcur) ?_ (h.task t) ?_ h.nodup
      · simp only [State.setCore, Function.update_self]
        constructor <;> grind
      · have howner := h.owner
        have howner' := (h.of_loaded hloaded).2
        simp only [State.setCore]
        grind [Function.update_apply]
  · exact h

/-! ### Runs -/

theorem step (h : Inv s) (event : Event) : Inv (s.step event) := by
  cases event with
  | senduipi t uvec =>
      simp only [State.step]
      split
      · exact h.senduipi uvec
      · exact h
  | notifyPost k t uvec =>
      simp only [State.step]
      split
      · exact h.notifyPost uvec
      · exact h
  | notifyTestSn k => exact h.notifyTestSn
  | notifyTestAndSetOn k => exact h.notifyTestAndSetOn
  | notifySend k => exact h.notifySend
  | fixupUnblock k t uvec =>
      simp only [State.step]
      split
      · exact h.fixupUnblock uvec
      · exact h
  | fixupPost k => exact h.fixupPost
  | fixupSetOn k => exact h.fixupSetOn
  | fixupWake k => exact h.fixupWake
  | wake t => exact h.wake
  | enter c => exact h.enter
  | kernelFpuBegin c => exact h.kernelFpuBegin
  | switchFpu c interruptible sleeps => exact h.switchFpu interruptible sleeps
  | switchUintrPrepare c => exact h.switchUintrPrepare
  | switchUintrBlock c => exact h.switchUintrBlock
  | switchTo c next => exact h.switchTo next
  | switchFpuReturn c => exact h.switchFpuReturn
  | returnUinv c => exact h.returnUinv
  | returnNdst c => exact h.returnNdst
  | returnSn c => exact h.returnSn
  | returnPuir c => exact h.returnPuir
  | acceptNotification c => exact h.acceptNotification
  | recognize c => exact h.recognize
  | acceptKernel c => exact h.acceptKernel
  | deliver c uvec => exact h.deliver uvec

theorem run (h : Inv s) (events : List Event) : Inv (s.run events) := by
  induction events generalizing s with
  | nil => exact h
  | cons event events ih => exact ih (h.step event)

theorem boot (cost : Task → Option WaitingCost) : Inv (State.boot cost) where
  unique := by simp [State.boot]
  loaded := by simp [State.boot]
  owner := by simp [State.boot]
  busy := by simp [State.boot]
  idle := fun _ _ => ⟨rfl, rfl, rfl⟩
  task := fun _ => ⟨by simp [State.boot], by simp [State.boot], by simp [State.boot],
    by simp [State.boot], by simp [State.boot]⟩
  senders := fun _ => ⟨by simp [State.boot], by simp [State.boot], by simp [State.boot]⟩
  nodup := List.nodup_nil

end Inv

end UserPaging.Linux.Notify
