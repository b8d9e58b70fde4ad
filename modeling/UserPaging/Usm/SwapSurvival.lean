import UserPaging.Usm.Books
import UserPaging.Usm.SwapAnswer

/-!
# Swapped data survives

While nothing fails, the bytes of an evicted page stay in its slot until the page
is swapped in again: the slot is named by the page-table entry, its holder is the
entry of that page, and a free slot is never one of those.
-/

namespace UserPaging.Usm.Daemon

open UserPaging.Foundation

def UsedMapped (s : Daemon) : Prop :=
  ∀ frame ∈ s.usedList,
    s.pageTable (s.pages frame).process (s.pages frame).virtualAddress = .mapped frame

def Kept (s : Daemon) : Prop :=
  ∀ proc vaddr value, s.pageTable proc vaddr = .raw value →
    ∃ slot data, slot < slotLimit ∧ value = slotEntry slot ∧
      s.evicted proc vaddr = some (slot, data) ∧ s.backend (snodeOffset slot) = data

structure Survives (s : Daemon) : Prop where
  books : Books s
  used : UsedMapped s
  cache : ∀ proc, s.swapCache proc = []
  kept : Kept s

def NoEvictFaults (faults : EvictFaults) : Prop :=
  faults.retaken = false ∧ faults.clearFails = false ∧ faults.seekFails = false ∧
    faults.writeFails.isNone = true

def Smooth (s : Daemon) : Op → Prop
  | .fault event faults =>
      (event.isSwap = true → s.pageTable event.origin event.vaddr ≠ .empty) ∧
      s.freeList ≠ [] ∧ faults.swapIn.seekFails = false ∧
      faults.swapIn.readFails.isNone = true ∧ faults.swapReply = .applied ∧
      faults.allocReply = .applied
  | .evict faults =>
      NoEvictFaults faults ∧
      ∀ victim ∈ s.usedList.head?, s.slotFree ≠ [] ∧ s.prio (s.pages victim).process ≠ -1
  | .setPrio _ prio => prio ≠ -1
  | .exit _ => False
  | .write .. | .free .. | .dropSwapped .. => True

variable {s : Daemon}

private theorem unmapped_of_posted {event : Event} (hposted : s.posted event = true) (frame : Nat) :
    s.pageTable event.origin event.vaddr ≠ .mapped frame := by
  intro hmapped
  simp [posted, hmapped] at hposted

/-! ## Used pages stay mapped -/

namespace UsedMapped

private theorem setPte (hs : UsedMapped s) {proc : Nat} {vaddr : BitVec 64}
    (hunmapped : ∀ frame, s.pageTable proc vaddr ≠ .mapped frame) (pte : Pte) :
    UsedMapped (s.setPte proc vaddr pte) := by
  intro frame hframe
  have hmapped := hs frame hframe
  rw [pageTable_setPte, if_neg]
  · exact hmapped
  · rintro ⟨hproc, hvaddr⟩
    change (s.pages frame).process = proc at hproc
    change (s.pages frame).virtualAddress = vaddr at hvaddr
    rw [hproc, hvaddr] at hmapped
    exact hunmapped frame hmapped

private theorem install (hs : UsedMapped s) {proc : Nat} {vaddr : BitVec 64}
    (hunmapped : ∀ frame, s.pageTable proc vaddr ≠ .mapped frame) {frame : Nat}
    {usedList : List Nat} (hperm : usedList.Perm (frame :: s.usedList)) :
    UsedMapped (((s.setPte proc vaddr (.mapped frame)).linkPage frame vaddr proc).setUsed
      usedList) := by
  intro other hother
  by_cases hsame : other = frame
  · subst hsame
    simp [setUsed, linkPage]
  · have hmem := List.mem_cons.1 (hperm.mem_iff.1 hother)
    have hmapped := hs.setPte hunmapped (.mapped frame) other (hmem.resolve_left hsame)
    simpa only [setUsed, linkPage, Function.update_of_ne hsame] using hmapped

private theorem setData (hs : UsedMapped s) (frame : Nat) (data : PageData) :
    UsedMapped (s.setData frame data) := by
  intro other hother
  obtain ⟨hproc, hvaddr⟩ := pages_setData_record s frame data other
  rw [hproc, hvaddr]
  exact hs other hother

private theorem remove (hs : UsedMapped s) {proc : Nat} {vaddr : BitVec 64} {frame : Nat}
    (hmapped : s.pageTable proc vaddr = .mapped frame) {pte : Pte} {usedList : List Nat}
    (hmem : ∀ other ∈ usedList, other ≠ frame ∧ other ∈ s.usedList) :
    UsedMapped ((s.setPte proc vaddr pte).setUsed usedList) := by
  intro other hother
  obtain ⟨hne, hold⟩ := hmem other hother
  refine (pageTable_setPte s proc vaddr pte _ _).trans ?_
  rw [if_neg]
  · exact hs other hold
  · rintro ⟨hproc, hvaddr⟩
    have hrecord := hs other hold
    change (s.pages other).process = proc at hproc
    change (s.pages other).virtualAddress = vaddr at hvaddr
    rw [hproc, hvaddr, hmapped] at hrecord
    cases hrecord
    exact hne rfl

private theorem congr (hs : UsedMapped s) {s' : Daemon} (hused : s'.usedList = s.usedList)
    (htable : s'.pageTable = s.pageTable)
    (hpages : ∀ frame ∈ s.usedList, s'.pages frame = s.pages frame) : UsedMapped s' := by
  intro frame hframe
  rw [hused] at hframe
  rw [htable, hpages frame hframe]
  exact hs frame hframe

end UsedMapped

theorem Kept.setPte (hs : Kept s) (proc : Nat) (vaddr : BitVec 64) {pte : Pte}
    (hpte : ∀ value, pte ≠ .raw value) : Kept (s.setPte proc vaddr pte) := by
  intro proc' vaddr' value hraw
  rw [pageTable_setPte] at hraw
  split at hraw
  · exact absurd hraw (hpte value)
  · exact hs proc' vaddr' value hraw

/-! ## What the operations do when nothing fails -/

private theorem usmHandleEvents_alloc {event : Event} {faults : EventFaults} {frame : Nat}
    {rest : List Nat} (hevent : event.isSwap = false) (hfree : s.freeList = frame :: rest)
    (hreply : faults.allocReply = .applied) :
    s.usmHandleEvents event faults = .returned 0
      (((((s.takeFree rest).logSubmission event frame).setPte event.origin event.vaddr
        (.mapped frame)).linkPage frame event.vaddr event.origin).setUsed
          (s.usedList ++ [frame])) := by
  simp only [usmHandleEvents, firstAttempt, hevent, basicAllocUniq, hfree, hreply]
  rfl

def swappedInTo (s : Daemon) (event : Event) (slot entry frame : Nat) (rest : List Nat) :
    Daemon :=
  ((((((s.takeFree rest).fillPage entry frame).logSubmission event frame).setPte
    event.origin event.vaddr (.mapped frame)).linkPage frame event.vaddr event.origin).setUsed
      (frame :: s.usedList)).putSwapNode slot

private theorem usmHandleEvents_swap {event : Event} {faults : EventFaults} {slot entry frame : Nat}
    {rest : List Nat} (hevent : event.isSwap = true) (hmiss : s.swapCacheEntry event = none)
    (hslot : eventSlot event.offst = slot)
    (hheld : HeldBy s slot entry event.origin event.vaddr)
    (hfree : s.freeList = frame :: rest) (hseek : faults.swapIn.seekFails = false)
    (hread : faults.swapIn.readFails = none) (hreply : faults.swapReply = .applied) :
    s.usmHandleEvents event faults =
      .returned 0 (s.swappedInTo event slot entry frame rest) := by
  have hrecord := toSwap_fillPage entry frame (s.takeFree rest)
  have hsnode : ((s.takeFree rest).toSwap entry).snode = slot := hheld.snode
  have hproc : ((s.takeFree rest).toSwap entry).proc = event.origin := hheld.proc
  have hvaddr : ((s.takeFree rest).toSwap entry).swappedAddress = event.vaddr := hheld.vaddr
  simp only [usmHandleEvents, firstAttempt, hevent, if_true, trySwapCache, hmiss, basicSwap, hslot,
    hheld.holder, swapIn, hseek, hfree, hread, Bool.false_eq_true, if_false, Outcome.andThen,
    hrecord, hreply, usmSubmitAllocEvent, hsnode, hproc, hvaddr]
  rfl

def evictedTo (s : Daemon) (victim slot : Nat) (rest slots : List Nat) : Daemon :=
  (((((s.evicting victim slot rest slots false).clearAndSet
    (s.evictRecord victim slot false)).writeSlot slot (s.pages victim).data).setSwapCache
      (s.pages victim).process (s.swapCache (s.pages victim).process)).addSwapped s.nextToSwap
        (s.pages victim).process).giveBack victim (victim :: s.freeList)

private theorem backend_evictedTo (s : Daemon) (victim slot : Nat) (rest slots : List Nat) :
    (s.evictedTo victim slot rest slots).backend =
      Function.update s.backend (snodeOffset slot) (s.pages victim).data := rfl

private theorem evicted_evictedTo (s : Daemon) (victim slot : Nat) (rest slots : List Nat)
    (proc : Nat) (vaddr : BitVec 64) :
    (s.evictedTo victim slot rest slots).evicted proc vaddr =
      if proc = (s.pages victim).process ∧ vaddr = (s.pages victim).virtualAddress then
        (s.contents proc vaddr).map (slot, ·)
      else s.evicted proc vaddr := by
  change Function.update s.evicted (s.pages victim).process (Function.update
    (s.evicted (s.pages victim).process) (s.pages victim).virtualAddress _) proc vaddr = _
  by_cases hproc : proc = (s.pages victim).process
  · subst hproc
    by_cases hvaddr : vaddr = (s.pages victim).virtualAddress
    · subst hvaddr
      simp only [Function.update_self, and_self, if_true]
      rfl
    · simp [hvaddr]
  · simp [hproc]

private theorem handleEvictRequest_evictedTo {faults : EvictFaults} {victim slot : Nat}
    {rest slots : List Nat} (hused : s.usedList = victim :: rest)
    (halive : s.prio (s.pages victim).process ≠ -1) (hslots : s.slotFree = slot :: slots)
    (hmapped : s.pageTable (s.pages victim).process (s.pages victim).virtualAddress =
      .mapped victim) (hfaults : NoEvictFaults faults) :
    s.handleEvictRequest faults = .returned 0 (s.evictedTo victim slot rest slots) := by
  obtain ⟨hretaken, hclear, hseek, hwrite⟩ := hfaults
  have hwrite' : faults.writeFails = none := by simpa using hwrite
  have hrecord : ((s.evicting victim slot rest slots false).clearAndSet
      (s.evictRecord victim slot false)).toSwap s.nextToSwap = s.evictRecord victim slot false :=
    toSwap_evicting s victim slot rest slots false
  have hcache : (((s.evicting victim slot rest slots false).clearAndSet
      (s.evictRecord victim slot false)).swapCache
        (s.evictRecord victim slot false).proc).erase s.nextToSwap =
          s.swapCache (s.pages victim).process := by
    simp [clearAndSet, evicting, setSwapCache, setPte, evictRecord]
  have hcleared : (s.evictRecord victim slot false).retaken = false := rfl
  rw [handleEvictRequest_alive hused halive hslots, hretaken]
  simp only [hclear, hmapped, Pte.present, Bool.not_true, Bool.or_self, Bool.false_eq_true,
    if_false, swapOutEnd, hrecord, hseek, hwrite', hcleared, hcache]
  rfl

private theorem Smooth.tame {op : Op} (hs : Survives s) (hsmooth : s.Smooth op) : s.Tame op := by
  cases op with
  | fault event faults =>
      obtain ⟨hpte, hfree, hseek, hread, -⟩ := hsmooth
      refine ⟨fun hswap => ⟨hpte hswap, by simp [swapCacheEntry, hs.cache]⟩, fun hfails => ?_⟩
      have hread' : faults.swapIn.readFails = none := by simpa using hread
      simp [attemptFails, swapInFails, hfree, hseek, hread'] at hfails
  | evict faults =>
      intro victim hvictim
      rw [if_neg (hsmooth.2 victim hvictim).2]
      exact hsmooth.1.1
  | write proc vaddr data => trivial
  | free proc vaddr => trivial
  | dropSwapped proc vaddr => trivial
  | setPrio proc prio => trivial
  | exit proc => trivial

namespace Survives

private theorem alloc (hs : Survives s) {event : Event} {faults : EventFaults} {s' : Daemon}
    (hevent : event.isSwap = false) (hposted : s.posted event = true)
    (hsmooth : s.Smooth (.fault event faults))
    (hstate : (s.usmHandleEvents event faults).state? = some s') : Survives s' := by
  have hbooks := (hs.books.handleEvents hposted (hsmooth.tame hs)).of_state? hstate
  obtain ⟨frame, rest, hfree⟩ := List.exists_cons_of_ne_nil hsmooth.2.1
  rw [usmHandleEvents_alloc hevent hfree hsmooth.2.2.2.2.2] at hstate
  cases hstate
  refine ⟨hbooks, ?_, hs.cache, ?_⟩
  · have hunmapped : ∀ other, s.pageTable event.origin event.vaddr ≠ .mapped other :=
      unmapped_of_posted hposted
    have hused : UsedMapped ((s.takeFree rest).logSubmission event frame) := hs.used
    exact hused.install hunmapped (List.perm_append_singleton frame s.usedList)
  · exact Kept.setPte (s := s) hs.kept event.origin event.vaddr (by simp)

private theorem swap_fault (hs : Survives s) {event : Event} {faults : EventFaults}
    (hevent : event.isSwap = true) (hposted : s.posted event = true)
    (hsmooth : s.Smooth (.fault event faults)) :
    ∃ slot data, s.evicted event.origin event.vaddr = some (slot, data) ∧
      eventSlot event.offst = slot ∧
      ∃ s', s.step (.fault event faults) = some s' ∧ Survives s' ∧
        s'.contents event.origin event.vaddr = some data := by
  have htame := hsmooth.tame hs
  obtain ⟨hpte, hmiss⟩ := htame.1 hevent
  obtain ⟨-, hpool, hseek, hread, hreply, -⟩ := hsmooth
  obtain ⟨value, hraw, hoffst⟩ := hs.books.raw_of_posted hposted hpte
  obtain ⟨slot, data, hbound, rfl, hevicted, hdata⟩ := hs.kept _ _ _ hraw
  obtain ⟨entry, hheld⟩ := hs.books.slots.heldBy_of_raw hbound hraw
  have hslot : eventSlot event.offst = slot := by rw [hoffst, eventSlot_slotEntry hbound]
  obtain ⟨frame, rest, hfree⟩ := List.exists_cons_of_ne_nil hpool
  have heq := usmHandleEvents_swap hevent hmiss hslot hheld hfree hseek (by simpa using hread)
    hreply
  have hstep : s.step (.fault event faults) = some (s.swappedInTo event slot entry frame rest) := by
    simp only [step, hposted, if_true, heq]
    rfl
  have hsnode : ((s.takeFree rest).toSwap entry).snode = slot := hheld.snode
  refine ⟨slot, data, hevicted, hslot, _, hstep, ⟨hs.books.step htame hstep, ?_, hs.cache, ?_⟩, ?_⟩
  · have hfilled : UsedMapped (((s.takeFree rest).fillPage entry frame).logSubmission event
        frame) := hs.used.setData frame (s.backend (snodeOffset (s.toSwap entry).snode))
    exact hfilled.install (unmapped_of_posted hposted) (List.Perm.refl _)
  · exact Kept.setPte (s := s) hs.kept event.origin event.vaddr (by simp)
  · have hmapped : (s.swappedInTo event slot entry frame rest).pageTable event.origin event.vaddr =
        .mapped frame :=
      (pageTable_setPte _ _ _ _ _ _).trans (if_pos ⟨rfl, rfl⟩)
    rw [contents, hmapped, ← hdata, ← hsnode]
    simp [swappedInTo, putSwapNode, setUsed, linkPage, setPte, logSubmission, fillPage, setData,
      setToSwap, takeFree]

private theorem kept_evictedTo (hs : Survives s) {victim slot : Nat} {rest slots : List Nat}
    (hslots : s.slotFree = slot :: slots)
    (hmapped : s.pageTable (s.pages victim).process (s.pages victim).virtualAddress =
      .mapped victim) : Kept (s.evictedTo victim slot rest slots) := by
  have hfree : slot ∈ s.slotFree := by simp [hslots]
  have hbound := hs.books.slots.bound slot hfree
  intro proc vaddr value hraw
  change (s.setPte (s.pages victim).process (s.pages victim).virtualAddress
    (.raw (slotEntry slot))).pageTable proc vaddr = .raw value at hraw
  rw [pageTable_setPte] at hraw
  split at hraw
  · rename_i hplace
    obtain ⟨rfl, rfl⟩ := hplace
    cases hraw
    refine ⟨slot, (s.pages victim).data, hbound, rfl, ?_, ?_⟩
    · rw [evicted_evictedTo, if_pos ⟨rfl, rfl⟩]
      simp only [contents, hmapped, Option.map_some]
    · rw [backend_evictedTo, Function.update_self]
  · rename_i hplace
    obtain ⟨other, data, hother, hvalue, hevicted, hdata⟩ := hs.kept proc vaddr value hraw
    subst hvalue
    obtain ⟨entry, hheld⟩ := hs.books.slots.heldBy_of_raw hother hraw
    have hne : other ≠ slot := fun heq => hheld.taken (heq ▸ hfree)
    have hoffset : snodeOffset other ≠ snodeOffset slot := fun heq =>
      hne (snodeOffset_injective hother hbound heq)
    refine ⟨other, data, hother, rfl, ?_, ?_⟩
    · rw [evicted_evictedTo, if_neg hplace]
      exact hevicted
    · rw [backend_evictedTo, Function.update_of_ne hoffset]
      exact hdata

private theorem evict (hs : Survives s) {faults : EvictFaults} {s' : Daemon}
    (hsmooth : s.Smooth (.evict faults)) (hstep : s.step (.evict faults) = some s') :
    Survives s' := by
  have hbooks := hs.books.step (hsmooth.tame hs) hstep
  obtain ⟨hfaults, havailable⟩ := hsmooth
  cases hused : s.usedList with
  | nil =>
      simp only [step, handleEvictRequest, evictBegin, hused] at hstep
      cases hstep
      exact hs
  | cons victim rest =>
      obtain ⟨hslot, hprio⟩ := havailable victim (by simp [hused])
      obtain ⟨slot, slots, hslots⟩ := List.exists_cons_of_ne_nil hslot
      have hmapped := hs.used victim (by simp [hused])
      rw [step, handleEvictRequest_evictedTo hused hprio hslots hmapped hfaults] at hstep
      cases hstep
      refine ⟨hbooks, ?_, fun proc => ?_, hs.kept_evictedTo hslots hmapped⟩
      · have hnodup := hs.books.pages.usedNodup
        rw [hused, List.nodup_cons] at hnodup
        refine hs.used.remove hmapped fun other hmem => ⟨?_, ?_⟩
        · rintro rfl
          exact hnodup.1 hmem
        · rw [hused]
          exact List.mem_cons_of_mem _ hmem
      · by_cases hproc : proc = (s.pages victim).process
        · subst hproc
          exact (Function.update_self ..).trans (hs.cache _)
        · refine (Function.update_of_ne hproc ..).trans ?_
          exact (Function.update_of_ne hproc ..).trans (hs.cache proc)

private theorem free (hs : Survives s) {proc : Nat} {vaddr : BitVec 64} {frame : Nat}
    (hmapped : s.pageTable proc vaddr = .mapped frame)
    (hbooks : Books ((s.setPte proc vaddr .empty).pindexFree frame)) :
    Survives ((s.setPte proc vaddr .empty).pindexFree frame) := by
  have hother : ∀ other ∈ s.usedList.erase frame, other ≠ frame ∧ other ∈ s.usedList :=
    fun other hmem => hs.books.pages.usedNodup.mem_erase_iff.1 hmem
  refine ⟨hbooks, ?_, hs.cache, Kept.setPte (s := s) hs.kept proc vaddr (by simp)⟩
  have hcleared : UsedMapped ((s.setPte proc vaddr .empty).setUsed (s.usedList.erase frame)) :=
    hs.used.remove hmapped hother
  refine hcleared.congr rfl rfl fun other hmem => ?_
  have hne := (hother other hmem).1
  simp [pindexFree, giveBack, setUsed, linkPage, setData, setPte, Function.update_of_ne hne]

private theorem setup (pagesNumber : Nat) {slots : Nat} (hslots : slots ≤ slotLimit)
    (prio : Nat → Int) : Survives (Daemon.setup pagesNumber slots prio) where
  books := ⟨.setup pagesNumber slots prio, .setup pagesNumber hslots prio⟩
  used := fun _ hmem => by cases hmem
  cache := fun _ => rfl
  kept := fun _ _ _ hraw => by cases hraw

private theorem step (hs : Survives s) {op : Op} {s' : Daemon} (hsmooth : s.Smooth op)
    (hstep : s.step op = some s') : Survives s' := by
  have hbooks := hs.books.step (hsmooth.tame hs) hstep
  cases op with
  | fault event faults =>
      have hfault := hstep
      simp only [Daemon.step, Option.ite_none_right_eq_some] at hfault
      cases hevent : event.isSwap with
      | false => exact hs.alloc hevent hfault.1 hsmooth hfault.2
      | true =>
          obtain ⟨-, -, -, -, s'', hstep', hs'', -⟩ := hs.swap_fault hevent hfault.1 hsmooth
          rw [hstep] at hstep'
          cases hstep'
          exact hs''
  | evict faults => exact hs.evict hsmooth hstep
  | exit proc => exact absurd hsmooth id
  | setPrio proc prio =>
      cases hstep
      exact ⟨hbooks, hs.used, hs.cache, hs.kept⟩
  | write proc vaddr data =>
      simp only [Daemon.step] at hstep
      split at hstep
      · cases hstep
        exact ⟨hbooks, hs.used.setData _ data, hs.cache, hs.kept⟩
      all_goals cases hstep
  | free proc vaddr =>
      simp only [Daemon.step] at hstep
      split at hstep
      · rename_i frame hmapped
        cases hstep
        exact hs.free hmapped hbooks
      all_goals cases hstep
  | dropSwapped proc vaddr =>
      simp only [Daemon.step] at hstep
      split at hstep
      · rename_i value hraw
        cases hstep
        have hunmapped : ∀ frame, s.pageTable proc vaddr ≠ .mapped frame := by simp [hraw]
        exact ⟨hbooks, hs.used.setPte hunmapped .empty, hs.cache,
          hs.kept.setPte proc vaddr (by simp)⟩
      all_goals cases hstep

end Survives

def swappedTo (s : Daemon) (proc : Nat) (vaddr : BitVec 64) : Option Nat :=
  match s.pageTable proc vaddr with
  | .raw value => some (eventSlot (swapOffst value))
  | .empty | .mapped _ => none

private theorem swappedTo_injective (hs : SlotBooks s) {proc proc' slot : Nat}
    {vaddr vaddr' : BitVec 64}
    (hslot : s.swappedTo proc vaddr = some slot) (hslot' : s.swappedTo proc' vaddr' = some slot) :
    proc = proc' ∧ vaddr = vaddr' := by
  have hheld : ∀ {proc : Nat} {vaddr : BitVec 64}, s.swappedTo proc vaddr = some slot →
      ∃ entry, HeldBy s slot entry proc vaddr := by
    intro proc vaddr hslot
    unfold swappedTo at hslot
    split at hslot
    · rename_i value hraw
      obtain ⟨other, entry, rfl, hheld⟩ := hs.swapped proc vaddr value hraw
      rw [eventSlot_slotEntry hheld.bound] at hslot
      cases hslot
      exact ⟨entry, hheld⟩
    all_goals cases hslot
  obtain ⟨entry, hfirst⟩ := hheld hslot
  obtain ⟨entry', hsecond⟩ := hheld hslot'
  exact (hfirst.unique hsecond).2

/-- In every history in which nothing fails, each swap fault decodes to the slot that
its page was written to and the frame installed for it holds the bytes the page had
when it was evicted; pages swapped out at the same time are in different slots. -/
theorem swapped_data_survives (pagesNumber : Nat) {slots : Nat} (hslots : slots ≤ slotLimit)
    (prio : Nat → Int) {ops : List Op}
    (hsmooth : StepsMeet step Smooth (setup pagesNumber slots prio) ops) :
    ∀ s ∈ run step (setup pagesNumber slots prio) ops,
      (∀ event faults, event.isSwap = true → s.posted event = true →
        s.Smooth (.fault event faults) →
          ∃ slot data, s.evicted event.origin event.vaddr = some (slot, data) ∧
            eventSlot event.offst = slot ∧
            ∃ s', s.step (.fault event faults) = some s' ∧
              s'.contents event.origin event.vaddr = some data) ∧
      ∀ proc vaddr proc' vaddr' slot, s.swappedTo proc vaddr = some slot →
        s.swappedTo proc' vaddr' = some slot → proc = proc' ∧ vaddr = vaddr' := by
  intro s hrun
  have hsurvives : Survives s :=
    run_invariant_of_meets (fun _ _ _ hs hop hstep => hs.step hop hstep)
      (.setup pagesNumber hslots prio) hsmooth hrun
  constructor
  · intro event faults hevent hposted hop
    obtain ⟨slot, data, hevicted, hslot, s', hstep, -, hcontents⟩ :=
      hsurvives.swap_fault hevent hposted hop
    exact ⟨slot, data, hevicted, hslot, s', hstep, hcontents⟩
  · intro proc vaddr proc' vaddr' slot hfirst hsecond
    exact swappedTo_injective hsurvives.books.slots hfirst hsecond

end UserPaging.Usm.Daemon

namespace UserPaging.Usm

open UserPaging.Foundation

def touchWriteEvict : List Op :=
  [.fault (firstTouchEvent 0 0x1000) noFaults, .write 0 0x1000 fun _ => 7, .evict noEvictFaults]

private theorem smooth_touchWriteEvict :
    StepsMeet Daemon.step Daemon.Smooth (Daemon.setup 2 4 fun _ => 0) touchWriteEvict := by
  refine ⟨⟨nofun, nofun, rfl, rfl, rfl, rfl⟩, trivial, ⟨⟨rfl, rfl, rfl, rfl⟩, ?_⟩, trivial⟩
  intro victim hvictim
  cases hvictim
  exact ⟨nofun, by decide⟩

theorem swapped_data_survives_touchWriteEvict :
    ∃ s ∈ run Daemon.step (Daemon.setup 2 4 fun _ => 0) touchWriteEvict,
      ∃ slot data, s.evicted 0 0x1000 = some (slot, data) ∧
        eventSlot (swapEvent 0 0x1000 3).offst = slot ∧
        ∃ s', s.step (.fault (swapEvent 0 0x1000 3) noFaults) = some s' ∧
          s'.contents 0 0x1000 = some data := by
  refine ⟨_, rfl, ?_⟩
  exact (Daemon.swapped_data_survives 2 (by decide) (fun _ => 0) smooth_touchWriteEvict _ rfl).1
    (swapEvent 0 0x1000 3) noFaults (by decide) (by decide)
    ⟨fun _ => nofun, nofun, rfl, rfl, rfl, rfl⟩

end UserPaging.Usm
