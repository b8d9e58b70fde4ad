import UserPaging.Linux.UintrNotify

/-!
# What holds in every state of the notification protocol

The registers of a CPU belong to the task that has loaded them, and a CPU that
recognises the notification vector does so for its current task.  The wait list
holds the receivers that asked for the kernel vector.  On its way to user mode a
receiver sets `UINV`, then `ndst`, then clears `SN`, and each of these is still so
when it gets there, whatever the senders and the other CPUs do meanwhile.

All of this is said of one CPU and its current task, and of one task.  A step
changes one CPU or one task or both, so that only what is said of these has to be
shown again.
-/

namespace UserPaging.Linux.Notify

open UserPaging.Foundation UserPaging.Linux.Uintr

def Mode.stage : Mode → Nat
  | .restored => 1
  | .armed => 2
  | .routed => 3
  | .unsuppressed => 4
  | .user => 5
  | _ => 0

def Mode.switching : Mode → Bool
  | .saved _ | .blocking | .prepared => true
  | _ => false

@[grind cases]
structure Busy (cost : Option WaitingCost) (listed : Prop) (c : Cpu) (t : Task) (x : Core)
    (upid : Upid) (flags : Flags) (fpu : Fpu) : Prop where
  on : flags.onCpu = true
  loaded : fpu.loaded = none ∨ fpu.loaded = some c ∧ x.owner = some t
  uinv : x.regs.uinv = true → cost.isSome = true ∧ fpu.loaded = some c
  recognizing : x.recognizing = true →
    x.regs.uinv = true ∧ (x.mode = .user ∨ x.mode = .kernel)
  returning : 1 ≤ x.mode.stage → fpu.loaded = some c
  switching : x.mode.switching = true → fpu.loaded = none
  awake : cost = some .receiver → flags.waiting = true →
    x.mode = .blocking ∨ x.mode = .prepared
  blocking : x.mode = .blocking → cost = some .sender ∨
    cost = some .receiver ∧ flags.waiting = true ∧ ¬listed
  prepared : x.mode = .prepared → cost = some .receiver → flags.waiting = true → listed
  asleep : flags.asleep = true → x.mode.switching = true
  armed : cost.isSome = true → 2 ≤ x.mode.stage → x.regs.uinv = true
  ndst : cost.isSome = true → 3 ≤ x.mode.stage → upid.ndst = c
  sn : cost.isSome = true → 4 ≤ x.mode.stage → upid.sn = false

structure Idle (x : Core) : Prop where
  uinv : x.regs.uinv = false
  recognizing : x.recognizing = false
  returning : x.mode.stage = 0

@[grind cases]
structure TaskOk (cost : Option WaitingCost) (listed : Prop) (upid : Upid) (flags : Flags)
    (fpu : Fpu) : Prop where
  saved : fpu.saved.uinv = true → cost.isSome = true
  receiver : listed → cost = some .receiver ∧ flags.waiting = true
  nv : cost.isSome = true → upid.nv =
    if cost = some .receiver ∧ flags.waiting = true then uintrKernelVector
    else uintrNotificationVector
  blkd : upid.blkd = true → cost = some .sender
  away : flags.onCpu = false → cost = some .receiver → flags.waiting = true → listed

structure Posting.Ok (cost : Task → Option WaitingCost) (x : Posting) : Prop where
  unblocked : ∀ t uvec, x = .unblocked t uvec → cost t = some .sender
  fixed : ∀ t, x = .fixed t → cost t = some .sender
  woken : ∀ t, x = .woken t → cost t = some .sender

structure Inv (s : State) : Prop where
  unique : ∀ c d t, (s.core c).current = some t → (s.core d).current = some t → c = d
  loaded : ∀ t c, (s.fpu t).loaded = some c → (s.core c).current = some t
  owner : ∀ c t, (s.core c).owner = some t → (s.fpu t).loaded = some c ∨
    (s.fpu t).loaded = none ∧ (s.core c).regs.uirr = (s.fpu t).saved.uirr
  busy : ∀ c t, (s.core c).current = some t →
    Busy (s.cost t) (t ∈ s.waitList) c t (s.core c) (s.upid t) (s.flags t) (s.fpu t)
  idle : ∀ c, (s.core c).current = none → Idle (s.core c)
  task : ∀ t, TaskOk (s.cost t) (t ∈ s.waitList) (s.upid t) (s.flags t) (s.fpu t)
  senders : ∀ k, (s.senders k).Ok s.cost
  nodup : s.waitList.Nodup

variable {s s' : State} {c : Cpu} {t : Task} {k : Sender}

/-! ### Frames -/

structure EditsTask (s s' : State) (t : Task) : Prop where
  cost : s'.cost = s.cost
  core : s'.core = s.core
  fpu : s'.fpu = s.fpu
  senders : s'.senders = s.senders
  upid : ∀ t', t' ≠ t → s'.upid t' = s.upid t'
  flags : ∀ t', t' ≠ t → s'.flags t' = s.flags t'
  listed : ∀ t', t' ≠ t → (t' ∈ s'.waitList ↔ t' ∈ s.waitList)

structure EditsCpu (s s' : State) (c : Cpu) (t : Task) : Prop where
  cost : s'.cost = s.cost
  senders : s'.senders = s.senders
  current : (s.core c).current = some t
  current' : (s'.core c).current = some t
  core : ∀ d, d ≠ c → s'.core d = s.core d
  fpu : ∀ t', t' ≠ t → s'.fpu t' = s.fpu t'
  upid : ∀ t', t' ≠ t → s'.upid t' = s.upid t'
  flags : ∀ t', t' ≠ t → s'.flags t' = s.flags t'
  listed : ∀ t', t' ≠ t → (t' ∈ s'.waitList ↔ t' ∈ s.waitList)

namespace EditsCpu

theorem refl (hcur : (s.core c).current = some t) : EditsCpu s s c t :=
  ⟨rfl, rfl, hcur, hcur, fun _ _ => rfl, fun _ _ => rfl, fun _ _ => rfl, fun _ _ => rfl,
    fun _ _ => .rfl⟩

theorem setCore (hedits : EditsCpu s s' c t) {x : Core} (hx : x.current = some t) :
    EditsCpu s (s'.setCore c x) c t :=
  { hedits with
    current' := by simpa using hx
    core := fun d hne => (Function.update_of_ne hne _ _).trans (hedits.core d hne) }

theorem setMode (hedits : EditsCpu s s' c t) (mode : Mode) :
    EditsCpu s (s'.setMode c mode) c t :=
  hedits.setCore hedits.current'

theorem setFpu (hedits : EditsCpu s s' c t) (x : Fpu) : EditsCpu s (s'.setFpu t x) c t :=
  { hedits with
    fpu := fun t' hne => (Function.update_of_ne hne _ _).trans (hedits.fpu t' hne) }

theorem setUpid (hedits : EditsCpu s s' c t) (x : Upid) : EditsCpu s (s'.setUpid t x) c t :=
  { hedits with
    upid := fun t' hne => (Function.update_of_ne hne _ _).trans (hedits.upid t' hne) }

theorem setFlags (hedits : EditsCpu s s' c t) (x : Flags) : EditsCpu s (s'.setFlags t x) c t :=
  { hedits with
    flags := fun t' hne => (Function.update_of_ne hne _ _).trans (hedits.flags t' hne) }

theorem setWaitList (hedits : EditsCpu s s' c t) {x : List Task}
    (hx : ∀ t', t' ≠ t → (t' ∈ x ↔ t' ∈ s.waitList)) : EditsCpu s (s'.setWaitList x) c t :=
  { hedits with listed := hx }

end EditsCpu

namespace Inv

theorem editsTask (h : Inv s) (hedits : EditsTask s s' t)
    (hbusy : ∀ c, Busy (s.cost t) (t ∈ s.waitList) c t (s.core c) (s.upid t) (s.flags t) (s.fpu t) →
      Busy (s.cost t) (t ∈ s'.waitList) c t (s.core c) (s'.upid t) (s'.flags t) (s.fpu t))
    (htask : TaskOk (s.cost t) (t ∈ s'.waitList) (s'.upid t) (s'.flags t) (s.fpu t))
    (hnodup : s'.waitList.Nodup) : Inv s' := by
  obtain ⟨hcost, hcore, hfpu, hsenders, hupid, hflags, hlisted⟩ := hedits
  refine ⟨?_, ?_, ?_, ?_, ?_, ?_, ?_, hnodup⟩
  · rw [hcore]
    exact h.unique
  · rw [hcore, hfpu]
    exact h.loaded
  · rw [hcore, hfpu]
    exact h.owner
  · intro d t' hcur
    rw [hcore] at hcur
    rw [hcore, hcost, hfpu]
    by_cases heq : t' = t
    · subst heq
      exact hbusy d (h.busy d t' hcur)
    · rw [hupid t' heq, hflags t' heq, hlisted t' heq]
      exact h.busy d t' hcur
  · rw [hcore]
    exact h.idle
  · intro t'
    rw [hcost, hfpu]
    by_cases heq : t' = t
    · subst heq
      exact htask
    · rw [hupid t' heq, hflags t' heq, hlisted t' heq]
      exact h.task t'
  · rw [hsenders, hcost]
    exact h.senders

theorem editsCpu (h : Inv s) (hedits : EditsCpu s s' c t)
    (hbusy : Busy (s.cost t) (t ∈ s'.waitList) c t (s'.core c) (s'.upid t) (s'.flags t) (s'.fpu t))
    (htask : TaskOk (s.cost t) (t ∈ s'.waitList) (s'.upid t) (s'.flags t) (s'.fpu t))
    (howner : ∀ d t', (s'.core d).owner = some t' → (s'.fpu t').loaded = some d ∨
      (s'.fpu t').loaded = none ∧ (s'.core d).regs.uirr = (s'.fpu t').saved.uirr)
    (hnodup : s'.waitList.Nodup) : Inv s' := by
  obtain ⟨hcost, hsenders, hcur, hcur', hcore, hfpu, hupid, hflags, hlisted⟩ := hedits
  have hcurrent : ∀ d, (s'.core d).current = (s.core d).current := fun d => by
    by_cases heq : d = c
    · rw [heq, hcur, hcur']
    · rw [hcore d heq]
  refine ⟨?_, ?_, howner, ?_, ?_, ?_, ?_, hnodup⟩
  · simp only [hcurrent]
    exact h.unique
  · intro t' d hloaded
    by_cases heq : t' = t
    · subst heq
      rcases hbusy.loaded with hnone | hsome
      · simp [hnone] at hloaded
      · obtain rfl : c = d := Option.some.inj (hsome.1.symm.trans hloaded)
        exact hcur'
    · rw [hcurrent]
      exact h.loaded t' d (by rw [← hfpu t' heq, hloaded])
  · intro d t' hcur''
    rw [hcurrent] at hcur''
    rw [hcost]
    by_cases heq : t' = t
    · subst heq
      obtain rfl : c = d := h.unique c d t' hcur hcur''
      exact hbusy
    · have hne : d ≠ c := by
        rintro rfl
        exact heq (Option.some.inj (hcur''.symm.trans hcur))
      rw [hcore d hne, hupid t' heq, hflags t' heq, hfpu t' heq, hlisted t' heq]
      exact h.busy d t' hcur''
  · intro d hnone
    rw [hcurrent] at hnone
    have hne : d ≠ c := by
      rintro rfl
      simp [hcur] at hnone
    rw [hcore d hne]
    exact h.idle d hnone
  · intro t'
    rw [hcost]
    by_cases heq : t' = t
    · subst heq
      exact htask
    · rw [hupid t' heq, hflags t' heq, hfpu t' heq, hlisted t' heq]
      exact h.task t'
  · rw [hsenders, hcost]
    exact h.senders

theorem editsMode (h : Inv s) (hedits : EditsCpu s s' c t) (hfpu : s'.fpu = s.fpu)
    (hcore : (s'.core c).regs = (s.core c).regs ∧ (s'.core c).owner = (s.core c).owner)
    (hbusy : Busy (s.cost t) (t ∈ s'.waitList) c t (s'.core c) (s'.upid t) (s'.flags t) (s.fpu t))
    (htask : TaskOk (s.cost t) (t ∈ s'.waitList) (s'.upid t) (s'.flags t) (s.fpu t))
    (hnodup : s'.waitList.Nodup) : Inv s' := by
  refine h.editsCpu hedits (hfpu ▸ hbusy) (hfpu ▸ htask) ?_ hnodup
  intro d t' howner
  rw [hfpu]
  by_cases heq : d = c
  · subst heq
    rw [hcore.2] at howner
    rw [hcore.1]
    exact h.owner d t' howner
  · rw [hedits.core d heq] at howner ⊢
    exact h.owner d t' howner

theorem editsIdle (h : Inv s) {x : Core} (hcur : (s.core c).current = none)
    (hcur' : x.current = none) (hx : Idle x)
    (howner : ∀ t, x.owner = some t →
      (s.core c).owner = some t ∧ x.regs.uirr = (s.core c).regs.uirr) :
    Inv (s.setCore c x) := by
  have hcurrent : ∀ d, ((s.setCore c x).core d).current = (s.core d).current := fun d => by
    by_cases heq : d = c
    · rw [heq, hcur, ← hcur']
      simp
    · rw [State.setCore_core, Function.update_of_ne heq]
  have hother : ∀ d t, (s.core d).current = some t → (s.setCore c x).core d = s.core d := by
    intro d t hbusy
    refine Function.update_of_ne ?_ _ _
    rintro rfl
    simp [hcur] at hbusy
  refine ⟨?_, ?_, ?_, ?_, ?_, h.task, h.senders, h.nodup⟩
  · simp only [hcurrent]
    exact h.unique
  · simp only [hcurrent]
    exact h.loaded
  · intro d t
    by_cases heq : d = c
    · subst heq
      rw [State.setCore_core, Function.update_self]
      intro hx
      rw [(howner t hx).2]
      exact h.owner d t (howner t hx).1
    · rw [State.setCore_core, Function.update_of_ne heq]
      exact h.owner d t
  · intro d t hbusy
    rw [hcurrent] at hbusy
    rw [hother d t hbusy]
    exact h.busy d t hbusy
  · intro d hidle
    by_cases heq : d = c
    · subst heq
      rwa [State.setCore_core, Function.update_self]
    · rw [State.setCore_core, Function.update_of_ne heq] at hidle ⊢
      exact h.idle d hidle

/-! ### Posting -/

theorem setApic (h : Inv s) (x : Apic) : Inv (s.setApic c x) :=
  ⟨h.unique, h.loaded, h.owner, h.busy, h.idle, h.task, h.senders, h.nodup⟩

theorem ipi (h : Inv s) (vector : Nat) : Inv (s.ipi c vector) := by
  unfold State.ipi
  split_ifs
  · exact h.setApic _
  · exact h.setApic _
  · exact h

theorem setSender (h : Inv s) {x : Posting} (hx : x.Ok s.cost) : Inv (s.setSender k x) := by
  refine ⟨h.unique, h.loaded, h.owner, h.busy, h.idle, h.task, ?_, h.nodup⟩
  intro k'
  show Posting.Ok s.cost (Function.update s.senders k x k')
  by_cases heq : k' = k
  · rwa [heq, Function.update_self]
  · rw [Function.update_of_ne heq]
    exact h.senders k'

theorem setUpid (h : Inv s) {x : Upid} (hnv : x.nv = (s.upid t).nv)
    (hndst : x.ndst = (s.upid t).ndst) (hsn : x.sn = (s.upid t).sn)
    (hblkd : x.blkd = true → (s.upid t).blkd = true) : Inv (s.setUpid t x) := by
  have hsame : (s.setUpid t x).upid t = x := Function.update_self _ _ _
  refine h.editsTask (t := t)
    ⟨rfl, rfl, rfl, rfl, ?_, fun _ _ => rfl, fun _ _ => .rfl⟩ ?_ ?_ h.nodup
  · exact fun t' hne => Function.update_of_ne hne _ _
  · intro c hbusy
    rw [hsame]
    exact { hbusy with
      ndst := fun hcost hstage => hndst.trans (hbusy.ndst hcost hstage)
      sn := fun hcost hstage => hsn.trans (hbusy.sn hcost hstage) }
  · rw [hsame]
    exact { h.task t with
      nv := fun hcost => hnv.trans ((h.task t).nv hcost)
      blkd := fun hset => (h.task t).blkd (hblkd hset) }

theorem senduipi (h : Inv s) (uvec : Nat) : Inv (s.senduipi t uvec) := by
  have hpost : Inv (s.setUpid t ((s.upid t).post uvec)) := h.setUpid rfl rfl rfl id
  unfold State.senduipi
  dsimp only
  split_ifs
  · exact h
  · exact hpost.ipi _
  · exact hpost

theorem notifyPost (h : Inv s) (uvec : Nat) : Inv (s.notifyPost k t uvec) := by
  unfold State.notifyPost
  split
  · refine (h.setUpid ?_ ?_ ?_ ?_).setSender ?_
    exacts [rfl, rfl, rfl, id, ⟨by simp, by simp, by simp⟩]
  · exact h

theorem notifyTestSn (h : Inv s) : Inv (s.notifyTestSn k) := by
  unfold State.notifyTestSn
  split
  · refine h.setSender ?_
    constructor <;> grind
  · exact h

theorem notifyTestAndSetOn (h : Inv s) : Inv (s.notifyTestAndSetOn k) := by
  unfold State.notifyTestAndSetOn
  split
  · refine (h.setUpid ?_ ?_ ?_ ?_).setSender ?_
    exacts [rfl, rfl, rfl, id, by constructor <;> grind]
  · exact h

theorem notifySend (h : Inv s) : Inv (s.notifySend k) := by
  unfold State.notifySend
  split
  · exact (h.ipi _).setSender ⟨by simp, by simp, by simp⟩
  · exact h

theorem fixupUnblock (h : Inv s) (uvec : Nat) : Inv (s.fixupUnblock k t uvec) := by
  unfold State.fixupUnblock
  split
  · split
    · next hblkd =>
        have hcost := (h.task t).blkd hblkd
        refine (h.setUpid ?_ ?_ ?_ ?_).setSender ⟨?_, ?_, ?_⟩
        exacts [rfl, rfl, rfl, by simp, by simpa using hcost, by simp, by simp]
    · exact h
  · exact h

theorem fixupPost (h : Inv s) : Inv (s.fixupPost k) := by
  unfold State.fixupPost
  split
  · next hk =>
      have hcost := (h.senders k).unblocked _ _ hk
      refine (h.setUpid ?_ ?_ ?_ ?_).setSender ⟨?_, ?_, ?_⟩
      exacts [rfl, rfl, rfl, id, by simp, by simpa using hcost, by simp]
  · exact h

theorem fixupSetOn (h : Inv s) : Inv (s.fixupSetOn k) := by
  unfold State.fixupSetOn
  split
  · next hk =>
      have hcost := (h.senders k).fixed _ hk
      refine (h.setUpid ?_ ?_ ?_ ?_).setSender ⟨?_, ?_, ?_⟩
      exacts [rfl, rfl, rfl, id, by simp, by simp, by simpa using hcost]
  · exact h

theorem setFlags (h : Inv s) {x : Flags} (honCpu : x.onCpu = (s.flags t).onCpu)
    (hasleep : x.asleep = false)
    (hwaiting : x.waiting = (s.flags t).waiting ∨ s.cost t = some .sender) :
    Inv (s.setFlags t x) := by
  refine h.editsTask (t := t)
    ⟨rfl, rfl, rfl, rfl, fun _ _ => rfl, ?_, fun _ _ => .rfl⟩ ?_ ?_ h.nodup
  · exact fun t' hne => Function.update_of_ne hne _ _
  · intro c hbusy
    simp only [State.setFlags, Function.update_self]
    constructor <;> grind
  · have htask := h.task t
    simp only [State.setFlags, Function.update_self]
    constructor <;> grind

theorem fixupWake (h : Inv s) : Inv (s.fixupWake k) := by
  unfold State.fixupWake
  split
  · next hk =>
      have hcost := (h.senders k).woken _ hk
      refine (h.setFlags ?_ ?_ (.inr hcost)).setSender ⟨?_, ?_, ?_⟩
      exacts [rfl, rfl, by simp, by simp, by simp]
  · exact h

theorem wake (h : Inv s) : Inv (s.wake t) := by
  unfold State.wake
  refine h.setFlags ?_ ?_ (.inl ?_)
  exacts [rfl, rfl, rfl]

/-! ### The wait list -/

theorem unlist (h : Inv s) (ht : t ∈ s.waitList) {x : Upid} {y : Flags}
    (hnv : x.nv = uintrNotificationVector) (hndst : x.ndst = (s.upid t).ndst)
    (hblkd : x.blkd = (s.upid t).blkd) (hwaiting : y.waiting = false)
    (hasleep : y.asleep = true → (s.flags t).asleep = true)
    (honCpu : y.onCpu = (s.flags t).onCpu) :
    Inv (((s.setUpid t x).setFlags t y).setWaitList (s.waitList.erase t)) := by
  have htask := h.task t
  have hlisted := htask.receiver ht
  have hgone : t ∉ s.waitList.erase t := fun hmem => (h.nodup.mem_erase_iff.1 hmem).1 rfl
  refine h.editsTask (t := t) ⟨rfl, rfl, rfl, rfl, ?_, ?_, ?_⟩ ?_ ?_ (h.nodup.erase t)
  · exact fun t' hne => Function.update_of_ne hne _ _
  · exact fun t' hne => Function.update_of_ne hne _ _
  · exact fun t' hne => List.mem_erase_of_ne hne
  · intro c hbusy
    simp only [State.setWaitList, State.setFlags, State.setUpid, Function.update_self]
    constructor <;> grind [Mode.stage]
  · simp only [State.setWaitList, State.setFlags, State.setUpid, Function.update_self]
    constructor <;> grind

theorem wakeUpEntry (h : Inv s) (ht : t ∈ s.waitList) : Inv (s.wakeUpEntry t) := by
  unfold State.wakeUpEntry
  split
  · refine h.unlist ht ?_ ?_ ?_ ?_ ?_ ?_
    exacts [rfl, rfl, rfl, rfl, by simp, rfl]
  · exact h

private theorem foldl_wakeUpEntry {entries : List Task} (h : Inv s) (hentries : entries.Nodup)
    (hsub : ∀ t ∈ entries, t ∈ s.waitList) : Inv (entries.foldl State.wakeUpEntry s) := by
  induction entries generalizing s with
  | nil => exact h
  | cons t entries ih =>
      rw [List.nodup_cons] at hentries
      refine ih (h.wakeUpEntry (hsub t List.mem_cons_self)) hentries.2 fun t' ht' => ?_
      have hne : t' ≠ t := fun heq => hentries.1 (heq ▸ ht')
      have hmem := hsub t' (List.mem_cons_of_mem t ht')
      unfold State.wakeUpEntry
      split
      · exact (List.mem_erase_of_ne hne).2 hmem
      · exact hmem

theorem uintrWakeUpProcess (h : Inv s) : Inv s.uintrWakeUpProcess :=
  h.foldl_wakeUpEntry h.nodup fun _ => id

end Inv

theorem foldl_removeEntry {entries : List Task} (hentries : entries.Nodup) :
    entries.foldl (State.removeEntry t) s = if t ∈ entries then s.removeEntry t t else s := by
  induction entries generalizing s with
  | nil => rfl
  | cons t' entries ih =>
      rw [List.nodup_cons] at hentries
      rw [List.foldl_cons, ih hentries.2]
      by_cases heq : t' = t
      · subst heq
        simp [hentries.1, State.removeEntry]
      · have hskip : s.removeEntry t t' = s := if_neg heq
        simp [hskip, Ne.symm heq]

end UserPaging.Linux.Notify
