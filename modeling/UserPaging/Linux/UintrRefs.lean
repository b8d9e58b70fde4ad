import UserPaging.Foundation.RefCount
import UserPaging.Linux.Uintr

/-!
# Lifetimes of UPIDs and tables

Who holds a reference to a UPID: the task, the MSR of the task while its handler
is registered, every `uvecfd`, and every used entry of every table.  Who holds a
reference to a table: every address space and every `uipifd`.
-/

namespace UserPaging.Linux.Uintr

open UserPaging.Foundation

inductive Holder where
  | task (t : Task)
  | msr (t : Task)
  | uvecfd (f : File)
  | entry (w : Table) (i : Nat)
  deriving DecidableEq

inductive TableHolder where
  | mm (m : Mm)
  | uipifd (f : File)
  deriving DecidableEq

def UittCtx.target (c : UittCtx) (i : Nat) : Option Addr :=
  if c.uittMask.getLsbD i then some (c.rUpidCtx i) else none

namespace State

def holder (s : State) : Holder → Option Addr
  | .task t => (s.tasks t).bind Thread.upidCtx
  | .msr t => (s.tasks t).bind Thread.uintrPd
  | .uvecfd f => (s.uvecfds f).map UvecfdCtx.upidCtx
  | .entry w i => (s.uitts w).bind fun c => c.target i

def tableHolder (s : State) : TableHolder → Option Table
  | .mm m => (s.mms m).bind MmStruct.uittCtx
  | .uipifd f => s.uipifds f

def mmHolder (s : State) (t : Task) : Option Mm := (s.tasks t).map Thread.mm

variable (s : State)

@[simp]
theorem holder_setUpid (u : Addr) (c : Option UpidCtx) : (s.setUpid u c).holder = s.holder := by
  funext h
  cases h <;> rfl

@[simp]
theorem holder_setMm (m : Mm) (mm : Option MmStruct) : (s.setMm m mm).holder = s.holder := by
  funext h
  cases h <;> rfl

@[simp]
theorem holder_setUipifd (f : File) (w : Option Table) : (s.setUipifd f w).holder = s.holder := by
  funext h
  cases h <;> rfl

@[simp]
theorem holder_setWaitList (waitList : List Addr) : (s.setWaitList waitList).holder = s.holder := by
  funext h
  cases h <;> rfl

theorem holder_setTask (t : Task) (th : Option Thread) :
    (s.setTask t th).holder =
      Function.update (Function.update s.holder (.task t) (th.bind Thread.upidCtx)) (.msr t)
        (th.bind Thread.uintrPd) := by
  funext h
  cases h with
  | task t' => by_cases ht : t' = t <;> simp [holder, ht]
  | msr t' => by_cases ht : t' = t <;> simp [holder, ht]
  | uvecfd f => rfl
  | entry w i => rfl

theorem holder_setUvecfd (f : File) (ctx : Option UvecfdCtx) :
    (s.setUvecfd f ctx).holder =
      Function.update s.holder (.uvecfd f) (ctx.map UvecfdCtx.upidCtx) := by
  funext h
  cases h with
  | task t => rfl
  | msr t => rfl
  | uvecfd f' => by_cases hf : f' = f <;> simp [holder, hf]
  | entry w i => rfl

variable {s} in
theorem holder_setTable {w : Table} {c c' : UittCtx} {i : Nat} (hw : s.uitts w = some c)
    (hothers : ∀ j, j ≠ i → c'.target j = c.target j) :
    (s.setTable w (some c')).holder =
      Function.update s.holder (.entry w i) (c'.target i) := by
  funext h
  cases h with
  | task t => rfl
  | msr t => rfl
  | uvecfd f => rfl
  | entry w' j =>
      by_cases hw' : w' = w
      · subst hw'
        by_cases hj : j = i
        · simp [holder, hj]
        · simp [holder, hj, hw, hothers j hj]
      · simp [holder, hw']

variable {s} in
theorem holder_setTable_same {w : Table} {c : Option UittCtx}
    (hsame : ∀ i, (c.bind fun c => c.target i) = (s.uitts w).bind fun c => c.target i) :
    (s.setTable w c).holder = s.holder := by
  funext h
  cases h with
  | task t => rfl
  | msr t => rfl
  | uvecfd f => rfl
  | entry w' j =>
      by_cases hw' : w' = w
      · subst hw'
        simpa [holder] using hsame j
      · simp [holder, hw']

theorem tableHolder_setMm (m : Mm) (mm : Option MmStruct) :
    (s.setMm m mm).tableHolder =
      Function.update s.tableHolder (.mm m) (mm.bind MmStruct.uittCtx) := by
  funext h
  cases h with
  | mm m' => by_cases hm : m' = m <;> simp [tableHolder, hm]
  | uipifd f => rfl

theorem tableHolder_setUipifd (f : File) (w : Option Table) :
    (s.setUipifd f w).tableHolder = Function.update s.tableHolder (.uipifd f) w := by
  funext h
  cases h with
  | mm m => rfl
  | uipifd f' => by_cases hf : f' = f <;> simp [tableHolder, hf]

theorem mmHolder_setTask (t : Task) (th : Option Thread) :
    (s.setTask t th).mmHolder = Function.update s.mmHolder t (th.map Thread.mm) := by
  funext t'
  by_cases ht : t' = t <;> simp [mmHolder, ht]

section

variable {s} {t : Task} {th th' : Thread} (ht : s.tasks t = some th)
include ht

theorem holder_task : s.holder (.task t) = th.upidCtx := by
  simp [holder, ht]

theorem holder_msr : s.holder (.msr t) = th.uintrPd := by
  simp [holder, ht]

theorem mmHolder_eq : s.mmHolder t = some th.mm := by
  simp [mmHolder, ht]

private theorem holder_setTask_same (hctx : th'.upidCtx = th.upidCtx)
    (hpd : th'.uintrPd = th.uintrPd) :
    (s.setTask t (some th')).holder = s.holder := by
  rw [holder_setTask, Option.bind_some, Option.bind_some, hctx, hpd, ← holder_task ht,
    ← holder_msr ht, Function.update_eq_self, Function.update_eq_self]

theorem mmHolder_setTask_same (hmm : th'.mm = th.mm) :
    (s.setTask t (some th')).mmHolder = s.mmHolder := by
  rw [mmHolder_setTask, Option.map_some, hmm, ← mmHolder_eq ht, Function.update_eq_self]

end

end State

/-! ### What holds between calls -/

structure UittCtx.Wf (c : UittCtx) : Prop where
  valid : ∀ i, (c.uitt i).valid = c.uittMask.getLsbD i
  target : ∀ i, c.uittMask.getLsbD i = true → (c.uitt i).targetUpidAddr = c.rUpidCtx i

structure ThreadOk (upids : Addr → Option UpidCtx) (mms : Mm → Option MmStruct) (t : Task)
    (th : Thread) : Prop where
  owner : ∀ u c, th.upidCtx = some u → upids u = some c → c.task = t
  active : th.upidActivated = true → ∃ u, th.upidCtx = some u
  pd : th.uintrPd = if th.upidActivated then th.upidCtx else none
  tt : ∀ w, th.uintrTt = some w → ∃ mm, mms th.mm = some mm ∧ mm.uittCtx = some w
  sender : th.uittActivated = th.uintrTt.isSome

structure WaitOk (upids : Addr → Option UpidCtx) (tasks : Task → Option Thread)
    (waitList : List Addr) : Prop where
  nodup : waitList.Nodup
  mem : ∀ u, u ∈ waitList ↔
    ∃ c, upids u = some c ∧ c.waiting = true ∧ c.waitingCost ≠ .sender
  asleep : ∀ u c, upids u = some c → c.waiting = true →
    ∃ th, tasks c.task = some th ∧ th.upidCtx = some u ∧ th.upidActivated = true ∧
      th.running = false
  blocked : ∀ u c, upids u = some c → c.upid.blkd = true →
    c.waiting = true ∧ c.waitingCost = .sender

/-- Every count is right, nobody points at what has been freed, and what nobody points at has
been freed. -/
structure Lives (s : State) : Prop where
  upids : Counted UpidCtx.refs s.upids s.holder
  tables : Counted UittCtx.refs s.uitts s.tableHolder
  mms : Counted MmStruct.users s.mms s.mmHolder
  threads : ∀ t th, s.tasks t = some th → ThreadOk s.upids s.mms t th
  wf : ∀ w c, s.uitts w = some c → c.Wf
  kernel : ∀ u c, s.upids u = some c → u.getLsbD 63 = true
  upidHeld : ∀ u c, s.upids u = some c → 0 < c.refs
  tableHeld : ∀ w c, s.uitts w = some c → 0 < c.refs

structure Inv (s : State) : Prop extends Lives s where
  wait : WaitOk s.upids s.tasks s.waitList

variable {s : State}

/-! ### Reading -/

section Reading

theorem ok_bind {α β : Type} (a : α) (f : α → Except Fault β) : (Except.ok a >>= f) = f a := rfl

theorem pure_eq {α : Type} (a : α) : (pure a : Except Fault α) = .ok a := rfl

namespace State

theorem upid_eq {u : Addr} {c : UpidCtx} (hu : s.upids u = some c) : s.upid u = .ok c := by
  simp [upid, hu]

theorem table_eq {w : Table} {c : UittCtx} (hw : s.uitts w = some c) : s.table w = .ok c := by
  simp [table, hw]

theorem thread_eq {t : Task} {th : Thread} (ht : s.tasks t = some th) : s.thread t = .ok th := by
  simp [thread, ht]

theorem mm_eq {m : Mm} {mm : MmStruct} (hm : s.mms m = some mm) : s.mm m = .ok mm := by
  simp [State.mm, hm]

theorem deref_some {α : Type} (a : α) : deref (some a) = .ok a := rfl

variable (s) {u : Addr} {c : UpidCtx} {x : Option UpidCtx} {t : Task} {th : Option Thread} {m : Mm}
  {mmStruct : Option MmStruct} {w : Table} {tab : UittCtx}

theorem upid_setUpid : (s.setUpid u (some c)).upid u = .ok c := upid_eq (Function.update_self _ _ _)

theorem table_setTable : (s.setTable w (some tab)).table w = .ok tab :=
  table_eq (Function.update_self _ _ _)

theorem upid_setTask : (s.setTask t th).upid u = s.upid u := rfl

theorem thread_setUpid : (s.setUpid u x).thread t = s.thread t := rfl

theorem thread_setTable {tab : Option UittCtx} : (s.setTable w tab).thread t = s.thread t := rfl

end State

end Reading

namespace WaitOk

variable {upids : Addr → Option UpidCtx} {tasks : Task → Option Thread} {waitList : List Addr}
  {u : Addr} {c c' : UpidCtx} {t : Task}

theorem edit (hwait : WaitOk upids tasks waitList) (hu : upids u = some c)
    (htask : c'.task = c.task) (hwaiting : c'.waiting = c.waiting)
    (hcost : c'.waitingCost = c.waitingCost) (hblkd : c'.upid.blkd = c.upid.blkd) :
    WaitOk (Function.update upids u (some c')) tasks waitList := by
  constructor
  · exact hwait.nodup
  · intro v
    rw [hwait.mem v]
    by_cases hv : v = u
    · subst hv
      simp [hu, hwaiting, hcost]
    · simp [hv]
  · intro v d hd hd'
    by_cases hv : v = u
    · subst hv
      simp only [Function.update_self, Option.some.injEq] at hd
      subst hd
      rw [htask]
      exact hwait.asleep v c hu (hwaiting ▸ hd')
    · exact hwait.asleep v d (by simpa [hv] using hd) hd'
  · intro v d hd hd'
    by_cases hv : v = u
    · subst hv
      simp only [Function.update_self, Option.some.injEq] at hd
      subst hd
      rw [hwaiting, hcost]
      exact hwait.blocked v c hu (hblkd ▸ hd')
    · exact hwait.blocked v d (by simpa [hv] using hd) hd'

theorem calm (hwait : WaitOk upids tasks waitList) {x : Option UpidCtx}
    (hold : ∀ c, upids u = some c → c.waiting = false ∨ c.waitingCost = .sender)
    (hnew : ∀ c, x = some c → c.waiting = false ∧ c.upid.blkd = false) :
    WaitOk (Function.update upids u x) tasks waitList := by
  constructor
  · exact hwait.nodup
  · intro v
    rw [hwait.mem v]
    by_cases hv : v = u
    · subst hv
      constructor
      · rintro ⟨c, hc, hwaiting, hcost⟩
        rcases hold c hc with hcalm | hsender
        · simp [hcalm] at hwaiting
        · exact absurd hsender hcost
      · rintro ⟨c, hc, hwaiting, -⟩
        simp [hnew c (by simpa using hc)] at hwaiting
    · simp [hv]
  · intro v d hd hd'
    by_cases hv : v = u
    · subst hv
      simp [hnew d (by simpa using hd)] at hd'
    · exact hwait.asleep v d (by simpa [hv] using hd) hd'
  · intro v d hd hd'
    by_cases hv : v = u
    · subst hv
      simp [hnew d (by simpa using hd)] at hd'
    · exact hwait.blocked v d (by simpa [hv] using hd) hd'

private theorem sleeper (hwait : WaitOk upids tasks waitList) {th : Thread} (ht : tasks t = some th)
    (hu : upids u = some c) (htask : c.task = t) (hwaiting : c.waiting = true) :
    th.upidCtx = some u ∧ th.upidActivated = true ∧ th.running = false := by
  obtain ⟨th', hth', hsleeps⟩ := hwait.asleep u c hu hwaiting
  rw [htask, ht] at hth'
  cases hth'
  exact hsleeps

theorem awake_of_held (hwait : WaitOk upids tasks waitList) {th : Thread} (ht : tasks t = some th)
    (hheld : ∀ u c, th.upidCtx = some u → th.upidActivated = true → upids u = some c →
      c.waiting = false) : ∀ u c, upids u = some c → c.task = t → c.waiting = false := by
  intro u c hu htask
  by_contra hwaiting
  obtain ⟨hctx, hactive, -⟩ := hwait.sleeper ht hu htask (by simpa using hwaiting)
  exact hwaiting (hheld u c hctx hactive hu)

theorem awake (hwait : WaitOk upids tasks waitList) {th : Thread} (ht : tasks t = some th)
    (hrunning : th.running = true) : ∀ u c, upids u = some c → c.task = t → c.waiting = false := by
  intro u c hu htask
  by_contra hwaiting
  have hsleeps := (hwait.sleeper ht hu htask (by simpa using hwaiting)).2.2
  simp [hrunning] at hsleeps

theorem setTask (hwait : WaitOk upids tasks waitList) {x : Option Thread}
    (hawake : ∀ u c, upids u = some c → c.task = t → c.waiting = false) :
    WaitOk upids (Function.update tasks t x) waitList := by
  refine ⟨hwait.nodup, hwait.mem, ?_, hwait.blocked⟩
  intro u c hu hwaiting
  have hne : c.task ≠ t := by
    intro htask
    simp [hawake u c hu htask] at hwaiting
  simpa [hne] using hwait.asleep u c hu hwaiting

theorem leave (hwait : WaitOk upids tasks waitList) (hu : upids u = some c) (hmem : u ∈ waitList)
    (hwaiting : c'.waiting = false) (hblkd : c'.upid.blkd = c.upid.blkd) :
    WaitOk (Function.update upids u (some c')) tasks (waitList.erase u) := by
  obtain ⟨d, hd, -, hcost⟩ := (hwait.mem u).1 hmem
  rw [hu] at hd
  cases hd
  have hfree : c.upid.blkd = false := by
    by_contra hset
    exact hcost (hwait.blocked u c hu (by simpa using hset)).2
  constructor
  · exact hwait.nodup.erase u
  · intro v
    rw [hwait.nodup.mem_erase_iff, hwait.mem v]
    by_cases hv : v = u
    · simp [hv, hwaiting]
    · simp [hv]
  · intro v d hd hd'
    by_cases hv : v = u
    · subst hv
      simp only [Function.update_self, Option.some.injEq] at hd
      subst hd
      simp [hwaiting] at hd'
    · exact hwait.asleep v d (by simpa [hv] using hd) hd'
  · intro v d hd hd'
    by_cases hv : v = u
    · subst hv
      simp only [Function.update_self, Option.some.injEq] at hd
      subst hd
      simp [hblkd, hfree] at hd'
    · exact hwait.blocked v d (by simpa [hv] using hd) hd'

theorem sleep (hwait : WaitOk upids tasks waitList) {th : Thread} {waitList' : List Addr}
    (hawake : ∀ u c, upids u = some c → c.task = t → c.waiting = false)
    (hu : upids u = some c) (htask : c'.task = t) (hctx : th.upidCtx = some u)
    (hactive : th.upidActivated = true) (hsleeps : th.running = false)
    (hwaiting : c'.waiting = true) (hblkd : c'.upid.blkd = true → c'.waitingCost = .sender)
    (hold : c.waiting = false) (hnodup : waitList'.Nodup)
    (hmem : ∀ v, v ∈ waitList' ↔ v ∈ waitList ∨ v = u ∧ c'.waitingCost ≠ .sender) :
    WaitOk (Function.update upids u (some c')) (Function.update tasks t (some th)) waitList' := by
  have hout : u ∉ waitList := by
    intro hin
    obtain ⟨d, hd, hdwaiting, -⟩ := (hwait.mem u).1 hin
    rw [hu] at hd
    cases hd
    simp [hold] at hdwaiting
  constructor
  · exact hnodup
  · intro v
    rw [hmem v]
    by_cases hv : v = u
    · subst hv
      simp [hout, hwaiting]
    · simp [hv, hwait.mem v]
  · intro v d hd hd'
    by_cases hv : v = u
    · subst hv
      simp only [Function.update_self, Option.some.injEq] at hd
      subst hd
      exact ⟨th, by simp [htask], hctx, hactive, hsleeps⟩
    · have hd : upids v = some d := by simpa [hv] using hd
      have hne : d.task ≠ t := by
        intro hdtask
        simp [hawake v d hd hdtask] at hd'
      simpa [hne] using hwait.asleep v d hd hd'
  · intro v d hd hd'
    by_cases hv : v = u
    · subst hv
      simp only [Function.update_self, Option.some.injEq] at hd
      subst hd
      exact ⟨hwaiting, hblkd hd'⟩
    · exact hwait.blocked v d (by simpa [hv] using hd) hd'

end WaitOk

namespace ThreadOk

variable {upids upids' : Addr → Option UpidCtx} {mms mms' : Mm → Option MmStruct} {t : Task}
  {th : Thread}

theorem congr (hthread : ThreadOk upids mms t th)
    (hupids : ∀ u c, th.upidCtx = some u → upids' u = some c →
      ∃ c', upids u = some c' ∧ c'.task = c.task)
    (hmms : ∀ w mm, mms th.mm = some mm → mm.uittCtx = some w →
      ∃ mm', mms' th.mm = some mm' ∧ mm'.uittCtx = some w) :
    ThreadOk upids' mms' t th := by
  refine ⟨?_, hthread.active, hthread.pd, ?_, hthread.sender⟩
  · intro u c hctx hu
    obtain ⟨c', hu', htask⟩ := hupids u c hctx hu
    rw [← htask]
    exact hthread.owner u c' hctx hu'
  · intro w hw
    obtain ⟨mm, hmm, hctx⟩ := hthread.tt w hw
    exact hmms w mm hmm hctx

theorem congr_upids (hthread : ThreadOk upids mms t th)
    (hupids : ∀ u c, th.upidCtx = some u → upids' u = some c →
      ∃ c', upids u = some c' ∧ c'.task = c.task) : ThreadOk upids' mms t th :=
  hthread.congr hupids fun _ mm hmm hctx => ⟨mm, hmm, hctx⟩

end ThreadOk

def Keeps (result : Except Fault State) : Prop := ∃ s', result = .ok s' ∧ Inv s'

theorem Inv.keeps (hinv : Inv s) : Keeps (.ok s) := ⟨s, rfl, hinv⟩

namespace Lives

variable {u : Addr} {c c' : UpidCtx} {t : Task} {th th' : Thread}

theorem live (hlives : Lives s) {h : Holder} (hheld : s.holder h = some u) :
    ∃ c, s.upids u = some c := hlives.upids.live h u hheld

theorem active (hlives : Lives s) (ht : s.tasks t = some th) (hactive : th.upidActivated = true) :
    ∃ u c, th.upidCtx = some u ∧ th.uintrPd = some u ∧ s.upids u = some c ∧ c.task = t := by
  have hthread := hlives.threads t th ht
  obtain ⟨u, hctx⟩ := hthread.active hactive
  obtain ⟨c, hu⟩ := hlives.live ((State.holder_task ht).trans hctx)
  refine ⟨u, c, hctx, ?_, hu, hthread.owner u c hctx hu⟩
  rw [hthread.pd, if_pos hactive, hctx]

theorem mm_of_task (hlives : Lives s) (ht : s.tasks t = some th) : ∃ mm, s.mms th.mm = some mm :=
  hlives.mms.live t th.mm (State.mmHolder_eq ht)

theorem table_of_mm (hlives : Lives s) {m : Mm} {mm : MmStruct} {w : Table}
    (hm : s.mms m = some mm) (hw : mm.uittCtx = some w) : ∃ tab, s.uitts w = some tab :=
  hlives.tables.live (.mm m) w (by simp [State.tableHolder, hm, hw])

theorem table_of_tt (hlives : Lives s) (ht : s.tasks t = some th) {w : Table}
    (htt : th.uintrTt = some w) :
    ∃ mm tab, s.mms th.mm = some mm ∧ mm.uittCtx = some w ∧ s.uitts w = some tab ∧ tab.Wf := by
  obtain ⟨mm, hm, hw⟩ := (hlives.threads t th ht).tt w htt
  obtain ⟨tab, htab⟩ := hlives.table_of_mm hm hw
  exact ⟨mm, tab, hm, hw, htab, hlives.wf w tab htab⟩

theorem upid_of_entry (hlives : Lives s) {w : Table} {tab : UittCtx} {i : Nat}
    (htab : s.uitts w = some tab) (hbit : tab.uittMask.getLsbD i = true) :
    ∃ c, s.upids (tab.rUpidCtx i) = some c :=
  hlives.live (show s.holder (.entry w i) = some (tab.rUpidCtx i) by
    simp [State.holder, htab, UittCtx.target, hbit])

theorem setWaitList (hlives : Lives s) (waitList : List Addr) : Lives (s.setWaitList waitList) where
  upids := by
    rw [State.holder_setWaitList]
    exact hlives.upids
  tables := hlives.tables
  mms := hlives.mms
  threads := hlives.threads
  wf := hlives.wf
  kernel := hlives.kernel
  upidHeld := hlives.upidHeld
  tableHeld := hlives.tableHeld

theorem kernel_setUpid (hlives : Lives s) (hu : s.upids u = some c) (x : Option UpidCtx) :
    ∀ v d, Function.update s.upids u x v = some d → v.getLsbD 63 = true := by
  intro v d hd
  by_cases hv : v = u
  · exact hv ▸ hlives.kernel u c hu
  · exact hlives.kernel v d (by simpa [hv] using hd)

section Upid

/- A UPID becomes `x`: gone, or still with its task and a reference. -/
variable {x : Option UpidCtx} (hlives : Lives s) (hu : s.upids u = some c)
  (hx : ∀ d, x = some d → d.task = c.task ∧ 0 < d.refs)
include hlives hu hx

theorem threads_setUpid {t : Task} {th : Thread} (ht : s.tasks t = some th) :
    ThreadOk (Function.update s.upids u x) s.mms t th := by
  refine (hlives.threads t th ht).congr_upids fun v d _ hd => ?_
  by_cases hv : v = u
  · subst hv
    exact ⟨c, hu, (hx d (by simpa using hd)).1.symm⟩
  · exact ⟨d, by simpa [hv] using hd, rfl⟩

theorem upidHeld_setUpid : ∀ v d, Function.update s.upids u x v = some d → 0 < d.refs := by
  intro v d hd
  by_cases hv : v = u
  · subst hv
    exact (hx d (by simpa using hd)).2
  · exact hlives.upidHeld v d (by simpa [hv] using hd)

end Upid

theorem put_kept (hlives : Lives s) (hu : s.upids u = some c) :
    ∀ d, c.put = some d → d.task = c.task ∧ 0 < d.refs := by
  intro d hd
  have hpos := hlives.upidHeld u c hu
  unfold UpidCtx.put at hd
  split at hd
  · cases hd
  · cases hd
    exact ⟨rfl, by simp only [UpidCtx.setRefs_refs]; omega⟩

theorem edit (hlives : Lives s) (hu : s.upids u = some c) (hrefs : c'.refs = c.refs)
    (htask : c'.task = c.task) : Lives (s.setUpid u (some c')) :=
  have hkept : ∀ d, some c' = some d → d.task = c.task ∧ 0 < d.refs := by
    rintro d ⟨⟩
    exact ⟨htask, hrefs ▸ hlives.upidHeld u c hu⟩
  { upids := by
      rw [State.holder_setUpid]
      exact hlives.upids.edit hu hrefs
    tables := hlives.tables
    mms := hlives.mms
    threads := fun _ _ ht => hlives.threads_setUpid hu hkept ht
    wf := hlives.wf
    kernel := hlives.kernel_setUpid hu _
    upidHeld := hlives.upidHeld_setUpid hu hkept
    tableHeld := hlives.tableHeld }

theorem setTask (hlives : Lives s) (ht : s.tasks t = some th)
    (hctx : th'.upidCtx = th.upidCtx) (hpd : th'.uintrPd = th.uintrPd) (hmm : th'.mm = th.mm)
    (hthread : ThreadOk s.upids s.mms t th') : Lives (s.setTask t (some th')) where
  upids := by
    rw [State.holder_setTask_same ht hctx hpd]
    exact hlives.upids
  tables := hlives.tables
  mms := by
    rw [State.mmHolder_setTask_same ht hmm]
    exact hlives.mms
  threads := by
    intro t' th'' ht'
    by_cases hne : t' = t
    · subst hne
      simp only [State.setTask_tasks, Function.update_self, Option.some.injEq] at ht'
      exact ht' ▸ hthread
    · exact hlives.threads t' th'' (by simpa [hne] using ht')
  wf := hlives.wf
  kernel := hlives.kernel
  upidHeld := hlives.upidHeld
  tableHeld := hlives.tableHeld

end Lives

theorem Inv.edit_upid (hinv : Inv s) {u : Addr} {c : UpidCtx} (hu : s.upids u = some c)
    (upid : Upid) (hblkd : upid.blkd = c.upid.blkd) :
    Inv (s.setUpid u (some { c with upid := upid })) :=
  ⟨hinv.edit hu rfl rfl, hinv.wait.edit hu rfl rfl rfl hblkd⟩

end UserPaging.Linux.Uintr
