import UserPaging.Usm.History

/-!
# What a swap fault is answered with

A frame submitted for an event with the swap flag should carry the contents that
were swapped out: it is still held by the swap cache, or the slot that the event
names was read into it.  This holds as long as `usm_handle_events` does not reach
its label `retry` with such an event.  It does so after every swap cache hit,
since `ret` is then left at `1`, and after every failed swap-in; the event then
gets whatever page is first in the free list.
-/

namespace UserPaging.Usm

open UserPaging.Foundation

def Submission.FromSwap (submission : Submission) : Prop :=
  submission.event.isSwap = true →
    submission.held = true ∨
      submission.readFrom = some (eventSlot submission.event.offst)

instance (submission : Submission) : Decidable submission.FromSwap :=
  inferInstanceAs (Decidable (_ → _ ∨ _))

namespace Daemon

structure SwapAnswers (s : Daemon) : Prop where
  holder : ∀ slot entry, s.toSwapHolder slot = some entry →
    (s.toSwap entry).snode = slot ∧ entry < s.nextToSwap
  answers : ∀ submission ∈ s.submissions, submission.FromSwap

def SwapsIn (s : Daemon) (event : Event) (faults : EventFaults) : Prop :=
  event.isSwap = true →
    s.swapCacheEntry event = none ∧ faults.swapIn.seekFails = false ∧
      s.freeList ≠ [] ∧ faults.swapIn.readFails.isNone = true

namespace SwapAnswers

variable {s : Daemon}

private theorem setup (pagesNumber slots : Nat) (prio : Nat → Int) :
    SwapAnswers (Daemon.setup pagesNumber slots prio) where
  holder := fun _ _ hholder => by cases hholder
  answers := fun _ hmem => by cases hmem

private theorem submit (hs : SwapAnswers s) {event : Event} {frame : Nat}
    (hframe : event.isSwap = true → s.readFrom frame = some (eventSlot event.offst))
    (reply : Reply) :
    (s.usmSubmitAllocEvent event frame reply).Ensures SwapAnswers
      fun _ => SwapAnswers := by
  have hanswers : ∀ submission ∈ (s.logSubmission event frame).submissions,
      submission.FromSwap := by
    rintro submission (_ | ⟨_, hmem⟩)
    · exact fun hswap => .inr (hframe hswap)
    · exact hs.answers submission hmem
  cases reply <;> exact ⟨hs.holder, hanswers⟩

private theorem alloc (hs : SwapAnswers s) {event : Event} (hevent : event.isSwap = false)
    (reply : Reply) :
    (s.basicAllocUniq event reply).Ensures SwapAnswers fun _ => SwapAnswers := by
  unfold basicAllocUniq
  cases hfree : s.freeList with
  | nil => exact hs
  | cons frame rest =>
      have htaken : SwapAnswers (s.takeFree rest) := ⟨hs.holder, hs.answers⟩
      refine (htaken.submit (by simp [hevent]) reply).andThen fun ret s' hs' => ?_
      by_cases hret : ret ≠ 0
      · rw [if_pos hret]
        exact ⟨hs'.holder, hs'.answers⟩
      · rw [if_neg hret]
        exact ⟨hs'.holder, hs'.answers⟩

private theorem swapOutBegin (hs : SwapAnswers s) (entry : Nat) (faults : EvictFaults) :
    SwapAnswers (s.swapOutBegin entry faults).2 := by
  unfold Daemon.swapOutBegin
  dsimp only
  split
  · exact ⟨hs.holder, hs.answers⟩
  · exact ⟨hs.holder, hs.answers⟩

private theorem swapOutUndo (hs : SwapAnswers s) (entry : Nat) :
    SwapAnswers (s.swapOutUndo entry) := by
  unfold Daemon.swapOutUndo
  dsimp only
  split
  · exact ⟨hs.holder, hs.answers⟩
  · exact ⟨hs.holder, hs.answers⟩

private theorem swapOutEnd (hs : SwapAnswers s) (entry : Nat) (faults : EvictFaults) :
    SwapAnswers (s.swapOutEnd entry faults) := by
  unfold Daemon.swapOutEnd
  dsimp only
  split
  · exact hs.swapOutUndo entry
  · split
    · rename_i torn _
      have htorn : SwapAnswers (s.writeSlot (s.toSwap entry).snode torn) :=
        ⟨hs.holder, hs.answers⟩
      exact htorn.swapOutUndo entry
    · split
      · exact ⟨hs.holder, hs.answers⟩
      · exact ⟨hs.holder, hs.answers⟩

private theorem newToSwap (hs : SwapAnswers s) (victim slot : Nat) (slots : List Nat)
    (retaken : Bool) : SwapAnswers (s.newToSwap victim slot slots retaken) where
  holder := fun other entry hholder => by
    simp only [Daemon.newToSwap, setToSwap] at hholder ⊢
    by_cases hslot : other = slot
    · subst hslot
      simp only [Function.update_self, Option.some.injEq] at hholder
      subst hholder
      simp
    · rw [Function.update_of_ne hslot] at hholder
      obtain ⟨hsnode, hlt⟩ := hs.holder other entry hholder
      rw [Function.update_of_ne hlt.ne]
      exact ⟨hsnode, Nat.lt_succ_of_lt hlt⟩
  answers := hs.answers

private theorem evictBegin (hs : SwapAnswers s) {faults : EvictFaults} {due : Option Nat}
    {s' : Daemon} (hbegin : s.evictBegin faults = some (due, s')) : SwapAnswers s' := by
  cases hused : s.usedList with
  | nil =>
      simp only [Daemon.evictBegin, hused] at hbegin
      cases hbegin
      exact hs
  | cons victim rest =>
      have hheld : SwapAnswers (s.setUsed rest) := ⟨hs.holder, hs.answers⟩
      simp only [Daemon.evictBegin, hused] at hbegin
      split at hbegin
      · cases hbegin
        exact ⟨hs.holder, hs.answers⟩
      · cases hslots : s.slotFree with
        | nil => simp [hslots] at hbegin
        | cons slot slots =>
            simp only [hslots, Option.some.injEq] at hbegin
            have hs' := (hheld.newToSwap victim slot slots faults.retaken).swapOutBegin
              s.nextToSwap faults
            rwa [hbegin] at hs'

private theorem evict (hs : SwapAnswers s) (faults : EvictFaults) :
    (s.handleEvictRequest faults).Ensures SwapAnswers fun _ => SwapAnswers := by
  unfold handleEvictRequest
  split
  · trivial
  · exact hs.evictBegin (by assumption)
  · rename_i entry s' hbegin
    exact (hs.evictBegin hbegin).swapOutEnd entry faults

private theorem fillPage (hs : SwapAnswers s) (entry frame : Nat) :
    SwapAnswers (s.fillPage entry frame) where
  holder := fun slot other hother => by
    obtain ⟨hslot, hbound⟩ := hs.holder slot other hother
    refine ⟨?_, hbound⟩
    by_cases hsame : other = entry
    · subst hsame
      simpa [Daemon.fillPage, setData, setToSwap] using hslot
    · simpa [Daemon.fillPage, setData, setToSwap, Function.update_of_ne hsame] using hslot
  answers := hs.answers

private theorem basicSwap (hs : SwapAnswers s) {event : Event} {faults : SwapInFaults}
    (hseek : faults.seekFails = false) (hfree : s.freeList ≠ [])
    (hread : faults.readFails = none) (reply : Reply) :
    (s.basicSwap event faults reply).Ensures SwapAnswers fun ret s' =>
      ret = 0 ∧ SwapAnswers s' := by
  obtain ⟨frame, rest, hlist⟩ := List.exists_cons_of_ne_nil hfree
  unfold Daemon.basicSwap
  cases hholder : s.toSwapHolder (eventSlot event.offst) with
  | none => trivial
  | some entry =>
      obtain ⟨hsnode, hlt⟩ := hs.holder _ _ hholder
      simp only [swapIn, hseek, hlist, hread, Bool.false_eq_true, if_false]
      have htaken : SwapAnswers (s.takeFree rest) := ⟨hs.holder, hs.answers⟩
      refine ((htaken.fillPage entry frame).submit ?_ reply).andThen fun ret s' hs' => ?_
      · simp [Daemon.fillPage, takeFree, setData, setToSwap, hsnode]
      · split
        · trivial
        · exact ⟨rfl, hs'.holder, hs'.answers⟩

private theorem handleEvents (hs : SwapAnswers s) {event : Event} {faults : EventFaults}
    (hswaps : s.SwapsIn event faults) :
    (s.usmHandleEvents event faults).Ensures SwapAnswers fun _ => SwapAnswers := by
  unfold usmHandleEvents firstAttempt
  cases hevent : event.isSwap with
  | true =>
      obtain ⟨hmiss, hseek, hfree, hread⟩ := hswaps hevent
      have hread' : faults.swapIn.readFails = none := by simpa using hread
      simp only [if_true, trySwapCache, hmiss]
      refine (hs.basicSwap hseek hfree hread' faults.swapReply).andThen ?_
      rintro ret s' ⟨rfl, hs'⟩
      exact hs'
  | false =>
      refine (hs.alloc hevent faults.allocReply).andThen fun ret s' hs' => ?_
      by_cases hret : ret ≠ 1
      · rw [if_pos hret]
        exact hs'
      · rw [if_neg hret]
        exact (hs'.evict faults.evict).andThen fun _ _ hs'' =>
          hs''.alloc hevent faults.retryReply

private theorem step (hs : SwapAnswers s) {op : Op} {s' : Daemon}
    (hop : ∀ event faults, op = .fault event faults → s.SwapsIn event faults)
    (hstep : s.step op = some s') : SwapAnswers s' := by
  cases op with
  | fault event faults =>
      simp only [Daemon.step, Option.ite_none_right_eq_some] at hstep
      exact (hs.handleEvents (hop event faults rfl)).of_state? hstep.2
  | write proc vaddr data =>
      simp only [Daemon.step] at hstep
      split at hstep
      · cases hstep
        exact ⟨hs.holder, hs.answers⟩
      all_goals cases hstep
  | evict faults => exact (hs.evict faults).of_state? hstep
  | free proc vaddr =>
      simp only [Daemon.step] at hstep
      split at hstep
      · cases hstep
        exact ⟨hs.holder, hs.answers⟩
      all_goals cases hstep
  | dropSwapped proc vaddr =>
      simp only [Daemon.step] at hstep
      split at hstep
      · cases hstep
        exact ⟨hs.holder, hs.answers⟩
      all_goals cases hstep
  | setPrio proc prio =>
      cases hstep
      exact ⟨hs.holder, hs.answers⟩
  | exit proc =>
      cases hstep
      exact ⟨hs.holder, hs.answers⟩

end SwapAnswers

end Daemon

/-! ## Histories with divided evictions -/

namespace Workers

def SwapsIn (s : Workers) : HalfOp → Prop
  | .whole (.fault event faults) => s.daemon.SwapsIn event faults
  | _ => True

private theorem swapAnswers_step {s s' : Workers} {op : HalfOp} (hs : s.daemon.SwapAnswers)
    (hswaps : s.SwapsIn op) (hstep : s.step op = some s') : s'.daemon.SwapAnswers := by
  cases op with
  | whole op =>
      simp only [step, Option.map_eq_some_iff] at hstep
      obtain ⟨daemon, hdaemon, rfl⟩ := hstep
      refine hs.step (fun event faults hop => ?_) hdaemon
      subst hop
      exact hswaps
  | evictBegin faults =>
      simp only [step] at hstep
      split at hstep
      · cases hstep
      · cases hstep
        exact hs.evictBegin (by assumption)
      · cases hstep
        exact hs.evictBegin (by assumption)
  | evictEnd entry faults =>
      simp only [step, Option.ite_none_right_eq_some, Option.some.injEq] at hstep
      obtain ⟨-, rfl⟩ := hstep
      exact hs.swapOutEnd entry faults

def setup (pagesNumber slots : Nat) (prio : Nat → Int) : Workers :=
  ⟨Daemon.setup pagesNumber slots prio, []⟩

end Workers

def firstTouchEvent (proc : Nat) (vaddr : BitVec 64) : Event := ⟨proc, vaddr, 0, 0, 0, 0⟩

def swapEvent (proc : Nat) (vaddr : BitVec 64) (slot : Nat) : Event :=
  ⟨proc, vaddr, 0, flagSwap, swapOffst (swapValue (snodeOffset slot) swapDeviceNumber), 0⟩

def noEvictFaults : EvictFaults := ⟨false, false, false, none⟩

def noFaults : EventFaults :=
  ⟨.applied, ⟨false, none⟩, .applied, .applied, noEvictFaults, .applied⟩

def evictAndReuse : List HalfOp :=
  [.whole (.fault (firstTouchEvent 0 0x1000) noFaults), .whole (.write 0 0x1000 fun _ => 7),
    .evictBegin noEvictFaults, .evictEnd 0 noEvictFaults,
    .whole (.fault (firstTouchEvent 1 0x1000) noFaults)]

instance (s : Workers) : ∀ op, Decidable (s.SwapsIn op)
  | .whole (.fault event faults) =>
      inferInstanceAs (Decidable (event.isSwap = true →
        s.daemon.swapCacheEntry event = none ∧ faults.swapIn.seekFails = false ∧
          s.daemon.freeList ≠ [] ∧ faults.swapIn.readFails.isNone = true))
  | .whole (.write ..) | .whole (.evict _) | .whole (.free ..)
  | .whole (.dropSwapped ..) | .whole (.setPrio ..) | .whole (.exit _)
  | .evictBegin _ | .evictEnd .. => inferInstanceAs (Decidable True)

end UserPaging.Usm
