import UserPaging.Usm.SlotBooks

/-!
# The books along a history

A history keeps the books of pages and slots as long as its swap faults are
those of swapped entries and miss the swap cache, and its evictions take pages of
live processes with `retaken` clear.  I/O errors, refused or unanswered
submissions and a lack of free pages do not disturb them.
-/

namespace UserPaging.Usm.Daemon

open UserPaging.Foundation

structure Books (s : Daemon) : Prop where
  pages : PageBooks s
  slots : SlotBooks s

variable {s : Daemon}

/-! ## Allocation -/

theorem Books.logSubmission (hs : Books s) (event : Event) (frame : Nat) :
    Books (s.logSubmission event frame) :=
  ⟨{ hs.pages with }, hs.slots.congr rfl⟩

theorem Books.setSwapCache (hs : Books s) (proc : Nat) (entries : List Nat) :
    Books (s.setSwapCache proc entries) :=
  ⟨{ hs.pages with }, hs.slots.congr rfl⟩

theorem Books.addSwapped (hs : Books s) (entry proc : Nat) : Books (s.addSwapped entry proc) :=
  ⟨{ hs.pages with }, hs.slots.congr rfl⟩

theorem Books.alloc (hs : Books s) (event : Event) (reply : Reply) :
    (s.basicAllocUniq event reply).Ensures Books fun ret s' =>
      Books s' ∧ (ret = 1 → s.freeList = [] ∧ s' = s) := by
  unfold basicAllocUniq
  cases hfree : s.freeList with
  | nil => exact ⟨hs, fun _ => ⟨rfl, rfl⟩⟩
  | cons frame rest =>
      obtain ⟨hpages, hloose⟩ := hs.pages.takeFree hfree
      have hslots : SlotBooks (s.takeFree rest) := hs.slots.congr rfl
      have hback : Books ((s.takeFree rest).logSubmission event frame |>.giveBack frame
          (frame :: rest)) :=
        ⟨{ hpages.giveBack hloose (List.Perm.refl (frame :: rest)) with },
          hslots.congr rfl⟩
      cases reply with
      | applied =>
          have hmapped := hpages.setPte_mapped hloose event.origin event.vaddr
          have hswapped := hslots.setPte event.origin event.vaddr
            (by simp : ∀ value, Pte.mapped frame ≠ .raw value)
          refine ⟨⟨?_, hswapped.congr rfl⟩, by simp⟩
          have hlinked := hmapped.linkLoose hloose.notUsed event.vaddr event.origin
          refine { hlinked.addUsed hloose.notFree hloose.notUsed (fun proc vaddr hat => ?_)
            (List.perm_append_singleton frame s.usedList) with }
          simpa [linkPage] using hloose.only_of_setPte hat
      | oomVictim => exact ⟨hback, by simp⟩
      | shmemError => exact ⟨hback, by simp⟩
      | alreadyMapped => exact ⟨hback, by simp⟩
      | unanswered => exact ⟨{ hpages with }, hslots.congr rfl⟩

/-! ## Eviction -/

def evictRecord (s : Daemon) (victim slot : Nat) (retaken : Bool) : ToSwap :=
  ⟨victim, (s.pages victim).virtualAddress, slot, (s.pages victim).process, retaken⟩

def evicting (s : Daemon) (victim slot : Nat) (rest slots : List Nat) (retaken : Bool) :
    Daemon :=
  ((s.setUsed rest).newToSwap victim slot slots retaken).setSwapCache
    (s.pages victim).process (s.nextToSwap :: s.swapCache (s.pages victim).process)

theorem toSwap_evicting (s : Daemon) (victim slot : Nat) (rest slots : List Nat)
    (retaken : Bool) :
    (s.evicting victim slot rest slots retaken).toSwap s.nextToSwap =
      s.evictRecord victim slot retaken :=
  Function.update_self ..

theorem handleEvictRequest_alive {faults : EvictFaults} {victim slot : Nat}
    {rest slots : List Nat} (hused : s.usedList = victim :: rest)
    (halive : s.prio (s.pages victim).process ≠ -1) (hslots : s.slotFree = slot :: slots) :
    s.handleEvictRequest faults =
      .returned 0
        (if faults.clearFails ||
            !(s.pageTable (s.pages victim).process (s.pages victim).virtualAddress).present then
          (s.evicting victim slot rest slots faults.retaken).putSwapNode slot
        else
          ((s.evicting victim slot rest slots faults.retaken).clearAndSet
            (s.evictRecord victim slot faults.retaken)).swapOutEnd s.nextToSwap faults) := by
  have hrecord : ((s.setUsed rest).newToSwap victim slot slots faults.retaken).toSwap
      s.nextToSwap = s.evictRecord victim slot faults.retaken := Function.update_self ..
  simp only [handleEvictRequest, evictBegin, hused, if_neg halive, hslots, swapOutBegin, hrecord]
  split_ifs with hfails hfails'
  · rfl
  · exact absurd hfails hfails'
  · exact absurd ‹_› hfails
  · rfl

theorem handleEvictRequest_ensures {faults : EvictFaults} {inv : Daemon → Prop} (hnone : inv s)
    (hdead : ∀ victim rest, s.usedList = victim :: rest →
      s.prio (s.pages victim).process = -1 →
      inv ((s.setUsed rest).giveBack victim (victim :: s.freeList)))
    (hstays : ∀ victim rest slot slots, s.usedList = victim :: rest →
      s.prio (s.pages victim).process ≠ -1 → s.slotFree = slot :: slots →
      inv ((s.evicting victim slot rest slots faults.retaken).putSwapNode slot))
    (hleaves : ∀ victim rest slot slots, s.usedList = victim :: rest →
      s.prio (s.pages victim).process ≠ -1 → s.slotFree = slot :: slots →
      (!faults.clearFails && (s.pageTable (s.pages victim).process
        (s.pages victim).virtualAddress).present) = true →
      inv (((s.evicting victim slot rest slots faults.retaken).clearAndSet
        (s.evictRecord victim slot faults.retaken)).swapOutEnd s.nextToSwap faults)) :
    (s.handleEvictRequest faults).Ensures inv fun _ => inv := by
  cases hused : s.usedList with
  | nil => simpa [handleEvictRequest, evictBegin, hused, Outcome.Ensures] using hnone
  | cons victim rest =>
      by_cases hprio : s.prio (s.pages victim).process = -1
      · simpa [handleEvictRequest, evictBegin, hused, hprio, Outcome.Ensures] using
          hdead victim rest hused hprio
      · cases hslots : s.slotFree with
        | nil =>
            simp only [handleEvictRequest, evictBegin, hused, if_neg hprio, hslots]
            trivial
        | cons slot slots =>
            rw [handleEvictRequest_alive hused hprio hslots]
            split
            · exact hstays victim rest slot slots hused hprio hslots
            · rename_i hpresent
              exact hleaves victim rest slot slots hused hprio hslots (by simpa using hpresent)

/-- The victim of an eviction is a page that its dead process has no more, or its
entry starts with `retaken` clear. -/
def TameEvict (s : Daemon) (faults : EvictFaults) : Prop :=
  ∀ victim ∈ s.usedList.head?,
    if s.prio (s.pages victim).process = -1 then
      s.pageTable (s.pages victim).process (s.pages victim).virtualAddress ≠ .mapped victim
    else faults.retaken = false

structure Held (s : Daemon) (entry : Nat) (record : ToSwap) : Prop where
  books : Books s
  known : s.toSwap entry = record
  notFree : record.page ∉ s.freeList
  notUsed : record.page ∉ s.usedList
  only : ∀ proc vaddr, s.pageTable proc vaddr = .mapped record.page →
    proc = record.proc ∧ vaddr = record.swappedAddress
  process : (s.pages record.page).process = record.proc
  virtualAddress : (s.pages record.page).virtualAddress = record.swappedAddress
  held : HeldBy s record.snode entry record.proc record.swappedAddress
  retaken : record.retaken = false

structure Due (s : Daemon) (entry : Nat) (record : ToSwap) : Prop extends
    Held s entry record where
  loose : Loose s record.page
  raw : s.pageTable record.proc record.swappedAddress = .raw (slotEntry record.snode)

theorem Books.evicting (hs : Books s) {victim slot : Nat} {rest slots : List Nat}
    (hused : s.usedList = victim :: rest) (hslots : s.slotFree = slot :: slots) :
    Held (s.evicting victim slot rest slots false) s.nextToSwap
        (s.evictRecord victim slot false) ∧
      (s.evicting victim slot rest slots false).Unnamed slot := by
  obtain ⟨hpages, hfree, hrest⟩ := hs.pages.holdUsed hused
  have hsame : SlotBooks (s.setUsed rest) := hs.slots.congr rfl
  obtain ⟨hbooks, hunnamed, hheld⟩ := hsame.newToSwap victim hslots false
  have honly := hs.pages.usedOnly victim (by simp [hused])
  exact ⟨⟨⟨{ hpages with }, hbooks.congr rfl⟩, toSwap_evicting .., hfree, hrest, honly, rfl, rfl,
    { hheld with }, rfl⟩, hunnamed⟩

theorem Held.clearAndSet {entry : Nat} {record : ToSwap} (hheld : Held s entry record) :
    Due (s.clearAndSet record) entry record := by
  have hpte : ∀ frame, Pte.raw (slotEntry record.snode) ≠ .mapped frame := by simp
  have hpages := hheld.books.pages.setPte_unmapped record.proc record.swappedAddress hpte
  have hslots := hheld.books.slots.setPte_raw hheld.held
  have hloose := loose_of_setPte hheld.notFree hheld.notUsed hheld.only hpte
  refine { hheld with
    books := ⟨{ hpages with }, hslots.congr rfl⟩
    only := fun proc vaddr hmapped => absurd hmapped (hloose.unmapped proc vaddr)
    held := { hheld.held with }
    loose := { hloose with }
    raw := ?_ }
  exact (pageTable_setPte s record.proc record.swappedAddress _ _ _).trans (if_pos ⟨rfl, rfl⟩)

theorem Due.writeSlot {entry : Nat} {record : ToSwap} (hdue : Due s entry record)
    (data : PageData) : Due (s.writeSlot record.snode data) entry record :=
  { hdue with
    books := ⟨{ hdue.books.pages with }, hdue.books.slots.congr rfl⟩
    held := { hdue.held with }
    loose := { hdue.loose with } }

theorem Due.swapOutUndo {entry : Nat} {record : ToSwap} (hdue : Due s entry record) :
    Books (s.swapOutUndo entry) := by
  have hpresent : (s.pageTable record.proc record.swappedAddress).present = false := by
    rw [hdue.raw]
    exact ptePresent_swapValue _ _
  have hpte : ∀ value, Pte.mapped record.page ≠ .raw value := by simp
  simp only [Daemon.swapOutUndo, hdue.known, hpresent, Bool.false_eq_true, if_false]
  constructor
  · have hmapped := hdue.books.pages.setPte_mapped hdue.loose record.proc record.swappedAddress
    refine { hmapped.addUsed hdue.notFree hdue.notUsed (fun proc vaddr hat => ?_)
      (List.Perm.refl _) with }
    have hplace := hdue.loose.only_of_setPte hat
    exact ⟨hplace.1.trans hdue.process.symm, hplace.2.trans hdue.virtualAddress.symm⟩
  · have hslots := hdue.books.slots.setPte record.proc record.swappedAddress hpte
    have hunnamed := hdue.books.slots.unnamed_of_setPte hdue.held hpte
    exact (hslots.putSwapNode hdue.held.bound hdue.held.taken hunnamed).congr rfl

theorem Due.swapOutEnd {entry : Nat} {record : ToSwap} (hdue : Due s entry record)
    (faults : EvictFaults) : Books (s.swapOutEnd entry faults) := by
  simp only [Daemon.swapOutEnd, hdue.known, hdue.retaken, Bool.false_eq_true, if_false]
  split
  · exact hdue.swapOutUndo
  · split
    · rename_i torn _
      exact (hdue.writeSlot torn).swapOutUndo
    · have hwritten := hdue.writeSlot (s.pages record.page).data
      have hlisted := (hwritten.books.setSwapCache record.proc
        ((s.swapCache record.proc).erase entry)).addSwapped entry record.proc
      exact ⟨hlisted.pages.giveBack { hdue.loose with } (List.Perm.refl _),
        hlisted.slots.congr rfl⟩

private theorem Books.reclaim (hs : Books s) {victim : Nat} {rest : List Nat}
    (hused : s.usedList = victim :: rest)
    (hgone : s.pageTable (s.pages victim).process (s.pages victim).virtualAddress ≠
      .mapped victim) :
    Books ((s.setUsed rest).giveBack victim (victim :: s.freeList)) := by
  obtain ⟨hpages, hfree, hrest⟩ := hs.pages.holdUsed hused
  have hloose : Loose (s.setUsed rest) victim := by
    refine ⟨hfree, hrest, fun proc vaddr hmapped => ?_⟩
    obtain ⟨hproc, hvaddr⟩ := hs.pages.usedOnly victim (by simp [hused]) proc vaddr hmapped
    rw [hproc, hvaddr] at hmapped
    exact hgone hmapped
  exact ⟨hpages.giveBack hloose (List.Perm.refl _), hs.slots.congr rfl⟩

theorem Books.evict (hs : Books s) {faults : EvictFaults} (htame : s.TameEvict faults) :
    (s.handleEvictRequest faults).Ensures Books fun _ => Books := by
  refine handleEvictRequest_ensures hs ?_ ?_ ?_
  · intro victim rest hused hdead
    have hvictim := htame victim (by simp [hused])
    rw [if_pos hdead] at hvictim
    exact hs.reclaim hused hvictim
  · intro victim rest slot slots hused halive hslots
    have hvictim := htame victim (by simp [hused])
    rw [if_neg halive] at hvictim
    rw [hvictim]
    obtain ⟨hheld, hunnamed⟩ := hs.evicting hused hslots
    exact ⟨{ hheld.books.pages with },
      hheld.books.slots.putSwapNode hheld.held.bound hheld.held.taken hunnamed⟩
  · intro victim rest slot slots hused halive hslots _
    have hvictim := htame victim (by simp [hused])
    rw [if_neg halive] at hvictim
    rw [hvictim]
    exact (hs.evicting hused hslots).1.clearAndSet.swapOutEnd faults

/-! ## Swap-in -/

structure SameUsed (s s' : Daemon) : Prop where
  usedList : s'.usedList = s.usedList
  prio : s'.prio = s.prio
  pageTable : s'.pageTable = s.pageTable
  pages : ∀ frame ∈ s.usedList, s'.pages frame = s.pages frame

private theorem TameEvict.of_sameUsed {s' : Daemon} {faults : EvictFaults}
    (htame : s.TameEvict faults) (hsame : SameUsed s s') : s'.TameEvict faults := by
  intro victim hvictim
  rw [hsame.usedList] at hvictim
  have hpage := hsame.pages victim (List.mem_of_mem_head? hvictim)
  rw [hsame.prio, hsame.pageTable, hpage]
  exact htame victim hvictim

theorem Books.fill (hs : Books s) (entry : Nat) {frame : Nat} {rest : List Nat}
    (hfree : s.freeList = frame :: rest) :
    Books ((s.takeFree rest).fillPage entry frame) ∧
      Loose ((s.takeFree rest).fillPage entry frame) frame := by
  obtain ⟨hpages, hloose⟩ := hs.pages.takeFree hfree
  have hdata := hpages.setData frame (s.backend (snodeOffset (s.toSwap entry).snode))
  have hrecord : SlotBooks (s.setToSwap entry { s.toSwap entry with page := frame }) :=
    hs.slots.setToSwap entry rfl rfl rfl
  exact ⟨⟨{ hdata with }, hrecord.congr rfl⟩, { hloose with }⟩

def swapInFails (s : Daemon) (faults : SwapInFaults) : Bool :=
  faults.seekFails || s.freeList.isEmpty || faults.readFails.isSome

theorem Books.swapIn_failed (hs : Books s) {entry : Nat} {faults : SwapInFaults}
    {s' : Daemon} {ret : Nat} (hswapIn : s.swapIn entry faults = (ret + 1, s')) :
    Books s' ∧ s.swapInFails faults = true ∧ SameUsed s s' := by
  unfold swapIn at hswapIn
  split at hswapIn
  · rename_i hseek
    cases hswapIn
    exact ⟨hs, by simp [swapInFails, hseek], rfl, rfl, rfl, fun _ _ => rfl⟩
  · split at hswapIn
    · rename_i hfree
      cases hswapIn
      exact ⟨hs, by simp [swapInFails, hfree], rfl, rfl, rfl, fun _ _ => rfl⟩
    · rename_i frame rest hfree
      split at hswapIn
      · rename_i left hread
        cases hswapIn
        obtain ⟨hpages, hloose⟩ := hs.pages.takeFree hfree
        have hback := (hpages.setData frame left).giveBack { hloose with }
          (List.perm_append_singleton frame rest)
        refine ⟨⟨{ hback with }, hs.slots.congr rfl⟩,
          by simp [swapInFails, hread], rfl, rfl, rfl, ?_⟩
        intro other hother
        have hne : other ≠ frame := fun heq => hloose.notUsed (heq ▸ hother)
        exact Function.update_of_ne hne _ _
      · simp at hswapIn

theorem eq_of_swapIn {entry : Nat} {faults : SwapInFaults} {s' : Daemon}
    (hswapIn : s.swapIn entry faults = (0, s')) :
    ∃ frame rest, s.freeList = frame :: rest ∧ s' = (s.takeFree rest).fillPage entry frame := by
  unfold swapIn at hswapIn
  split at hswapIn
  · simp at hswapIn
  · split at hswapIn
    · simp at hswapIn
    · rename_i frame rest hfree
      split at hswapIn
      · simp at hswapIn
      · cases hswapIn
        exact ⟨frame, rest, hfree, rfl⟩

theorem toSwap_fillPage (entry frame : Nat) (s : Daemon) :
    (s.fillPage entry frame).toSwap entry = { s.toSwap entry with page := frame } := by
  simp [fillPage, setToSwap, setData]

theorem Books.install (hs : Books s) {slot entry proc frame : Nat} {vaddr : BitVec 64}
    (hloose : Loose s frame) (hheld : HeldBy s slot entry proc vaddr) :
    Books ((((s.setPte proc vaddr (.mapped frame)).linkPage frame vaddr proc).setUsed
      (frame :: s.usedList)).putSwapNode slot) := by
  have hpte : ∀ value, Pte.mapped frame ≠ .raw value := by simp
  constructor
  · have hlinked := (hs.pages.setPte_mapped hloose proc vaddr).linkLoose hloose.notUsed vaddr proc
    refine { hlinked.addUsed hloose.notFree hloose.notUsed (fun proc' vaddr' hat => ?_)
      (List.Perm.refl _) with }
    simpa [linkPage] using hloose.only_of_setPte hat
  · have hslots := hs.slots.setPte proc vaddr hpte
    have hput := hslots.putSwapNode hheld.bound hheld.taken
      (hs.slots.unnamed_of_setPte hheld hpte)
    exact hput.congr rfl

theorem Books.basicSwap (hs : Books s) {event : Event} {value : BitVec 64}
    (hraw : s.pageTable event.origin event.vaddr = .raw value)
    (hoffst : event.offst = swapOffst value) (faults : SwapInFaults) (reply : Reply) :
    (s.basicSwap event faults reply).Ensures Books fun ret s' =>
      Books s' ∧ (ret = 1 → s.swapInFails faults = true ∧ SameUsed s s') := by
  obtain ⟨slot, entry, rfl, hheld⟩ := hs.slots.swapped _ _ _ hraw
  have hslot : eventSlot event.offst = slot := by
    rw [hoffst, eventSlot_slotEntry hheld.bound]
  unfold Daemon.basicSwap
  rw [hslot, hheld.holder]
  dsimp only
  split
  · rename_i s' hswapIn
    obtain ⟨frame, rest, hfree, rfl⟩ := eq_of_swapIn hswapIn
    obtain ⟨hbooks, hloose⟩ := hs.fill entry hfree
    have hrecord := toSwap_fillPage entry frame (s.takeFree rest)
    have hsnode : ((s.takeFree rest).toSwap entry).snode = slot := hheld.snode
    have hproc : ((s.takeFree rest).toSwap entry).proc = event.origin := hheld.proc
    have hvaddr : ((s.takeFree rest).toSwap entry).swappedAddress = event.vaddr := hheld.vaddr
    have hheld' : HeldBy ((s.takeFree rest).fillPage entry frame) slot entry event.origin
        event.vaddr := by
      refine { hheld with snode := ?_, proc := ?_, vaddr := ?_ }
      all_goals simp only [hrecord, hsnode, hproc, hvaddr]
    simp only [hrecord, hsnode, hproc, hvaddr]
    cases reply with
    | applied =>
        have hinstalled := (hbooks.logSubmission event frame).install { hloose with }
          { hheld' with }
        exact ⟨hinstalled, by simp⟩
    | unanswered => exact hbooks.logSubmission event frame
    | oomVictim | shmemError | alreadyMapped => trivial
  · rename_i ret s' hne hswapIn
    cases ret with
    | zero => exact absurd rfl hne
    | succ ret =>
        obtain ⟨hbooks, hsame⟩ := hs.swapIn_failed hswapIn
        exact ⟨hbooks, fun _ => hsame⟩

/-! ## Events and histories -/

def attemptFails (s : Daemon) (event : Event) (faults : EventFaults) : Bool :=
  if event.isSwap then s.swapInFails faults.swapIn else s.freeList.isEmpty

/-- The swap faults are those of swapped entries and miss the swap cache, and
evictions are tame. -/
def Tame (s : Daemon) : Op → Prop
  | .fault event faults =>
      (event.isSwap = true →
        s.pageTable event.origin event.vaddr ≠ .empty ∧ s.swapCacheEntry event = none) ∧
      (s.attemptFails event faults = true → s.TameEvict faults.evict)
  | .evict faults => s.TameEvict faults
  | .write .. | .free .. | .dropSwapped .. | .setPrio .. | .exit _ => True

theorem Books.raw_of_posted (hs : Books s) {event : Event} (hposted : s.posted event = true)
    (hpte : s.pageTable event.origin event.vaddr ≠ .empty) :
    ∃ value, s.pageTable event.origin event.vaddr = .raw value ∧
      event.offst = swapOffst value := by
  unfold posted at hposted
  cases htable : s.pageTable event.origin event.vaddr with
  | empty => exact absurd htable hpte
  | mapped frame => simp [htable] at hposted
  | raw value =>
      obtain ⟨slot, entry, rfl, -⟩ := hs.slots.swapped _ _ _ htable
      simp only [htable, pteNone_slotEntry, Bool.false_or, Bool.and_eq_true, beq_iff_eq]
        at hposted
      exact ⟨_, rfl, hposted.2⟩

theorem Books.firstAttempt (hs : Books s) {event : Event} {faults : EventFaults}
    (hposted : s.posted event = true) (htame : s.Tame (.fault event faults)) :
    (s.firstAttempt event faults).Ensures Books fun ret s' =>
      Books s' ∧ (ret = 1 → s.attemptFails event faults = true ∧ SameUsed s s') := by
  unfold Daemon.firstAttempt attemptFails
  cases hevent : event.isSwap with
  | true =>
      obtain ⟨hpte, hmiss⟩ := htame.1 hevent
      obtain ⟨value, hraw, hoffst⟩ := hs.raw_of_posted hposted hpte
      simp only [if_true, trySwapCache, hmiss]
      exact hs.basicSwap hraw hoffst faults.swapIn faults.swapReply
  | false =>
      simp only [Bool.false_eq_true, if_false]
      refine (hs.alloc event faults.allocReply).mono (fun _ h => h) fun ret s' ⟨hs', hfails⟩ => ?_
      refine ⟨hs', fun hret => ?_⟩
      obtain ⟨hfree, rfl⟩ := hfails hret
      exact ⟨by simp [hfree], rfl, rfl, rfl, fun _ _ => rfl⟩

theorem Books.handleEvents (hs : Books s) {event : Event} {faults : EventFaults}
    (hposted : s.posted event = true) (htame : s.Tame (.fault event faults)) :
    (s.usmHandleEvents event faults).Ensures Books fun _ => Books := by
  refine (hs.firstAttempt hposted htame).andThen fun ret s' ⟨hs', hfails⟩ => ?_
  by_cases hret : ret = 1
  · obtain ⟨hfailed, hsame⟩ := hfails hret
    simp only [hret, ne_eq, not_true_eq_false, if_false]
    refine (hs'.evict ((htame.2 hfailed).of_sameUsed hsame)).andThen fun _ s'' hs'' => ?_
    exact (hs''.alloc event _).mono (fun _ h => h) fun _ _ h => h.1
  · simp only [ne_eq, hret, not_false_eq_true, if_true]
    exact hs'

theorem Books.exit (hs : Books s) (proc : Nat) {prio : Nat → Int} :
    Books { s with
      prio := prio
      pageTable := Function.update s.pageTable proc fun _ => .empty } := by
  have hsame : ∀ proc' vaddr' pte, pte ≠ .empty →
      Function.update s.pageTable proc (fun _ => .empty) proc' vaddr' = pte →
        s.pageTable proc' vaddr' = pte := by
    intro proc' vaddr' pte hpte hat
    by_cases hproc : proc' = proc
    · subst hproc
      rw [Function.update_self] at hat
      exact absurd hat.symm hpte
    · rwa [Function.update_of_ne hproc] at hat
  constructor
  · exact { hs.pages.unmap fun proc' vaddr' frame => hsame proc' vaddr' _ (by simp) with }
  · refine { hs.slots with swapped := fun proc' vaddr' value hraw => ?_ }
    obtain ⟨slot, entry, hvalue, hheld⟩ :=
      hs.slots.swapped proc' vaddr' value (hsame proc' vaddr' _ (by simp) hraw)
    exact ⟨slot, entry, hvalue, { hheld with }⟩

theorem Books.step (hs : Books s) {op : Op} {s' : Daemon} (htame : s.Tame op)
    (hstep : s.step op = some s') : Books s' := by
  cases op with
  | fault event faults =>
      simp only [Daemon.step, Option.ite_none_right_eq_some] at hstep
      exact (hs.handleEvents hstep.1 htame).of_state? hstep.2
  | evict faults => exact (hs.evict htame).of_state? hstep
  | setPrio proc prio =>
      cases hstep
      exact ⟨{ hs.pages with }, hs.slots.congr rfl⟩
  | exit proc =>
      cases hstep
      exact hs.exit proc
  | write proc vaddr data =>
      simp only [Daemon.step] at hstep
      split at hstep
      · cases hstep
        exact ⟨hs.pages.setData _ data, hs.slots.congr rfl⟩
      all_goals cases hstep
  | free proc vaddr =>
      simp only [Daemon.step] at hstep
      split at hstep
      · rename_i frame hmapped
        cases hstep
        have hslots := hs.slots.setPte proc vaddr (by simp : ∀ value, Pte.empty ≠ .raw value)
        exact ⟨hs.pages.free hmapped, hslots.congr rfl⟩
      all_goals cases hstep
  | dropSwapped proc vaddr =>
      simp only [Daemon.step] at hstep
      split at hstep
      · cases hstep
        exact ⟨hs.pages.setPte_unmapped proc vaddr (by simp),
          hs.slots.setPte proc vaddr (by simp)⟩
      all_goals cases hstep

end UserPaging.Usm.Daemon
