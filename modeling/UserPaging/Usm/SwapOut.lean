import UserPaging.Usm.Books

/-!
# An eviction and its failure exits

`handle_evict_request` takes the first page of the used list and `swap_out` writes
it to a slot.  While the write is going on other workers may look into the swap
cache and retake the page.

None of the exits but the regular one puts everything back: a page-table update
that fails leaves the page in no list at all, a failed seek or write leaves the
entry in the swap cache, and a retaken page is put nowhere.  The regular exit adds
an entry to lists that may still lead through entries which `basic_swap` has freed.
-/

namespace UserPaging.Usm.Daemon

/-- Another worker's look into the swap cache; the worker may then wait for its answer. -/
def lookup (s : Daemon) (event : Event) (reply : Reply) : Daemon :=
  match s.trySwapCache event reply with
  | .returned _ t | .suspended t => t
  | .undefined => s

def lookups (s : Daemon) (during : List (Event × Reply)) : Daemon :=
  during.foldl (fun t look => t.lookup look.1 look.2) s

/-- The first half of `swap_out`.  Once the kernel has `released` the context of the process,
or its address space is gone, it answers that the entry was set and sets nothing. -/
def clearOrReleased (s : Daemon) (released : Bool) (entry : Nat) (faults : EvictFaults) :
    Option Nat × Daemon :=
  if released && !faults.clearFails then
    (some entry, s.setSwapCache (s.toSwap entry).proc (entry :: s.swapCache (s.toSwap entry).proc))
  else s.swapOutBegin entry faults

/-- The second half; `usm_set_pfn` does not reach a page table that is gone. -/
def writeOrUndo (s : Daemon) (released : Bool) (entry : Nat) (faults : EvictFaults) : Daemon :=
  if released then { s.swapOutEnd entry faults with pageTable := s.pageTable }
  else s.swapOutEnd entry faults

/-- `malloc` gives `nextToSwap`, which may be an entry that was freed while it was linked. -/
def EntryLinked (s : Daemon) (proc : Nat) : Prop :=
  s.nextToSwap ∈ s.swapList ∨ s.nextToSwap ∈ s.procSwapList proc

instance (s : Daemon) (proc : Nat) : Decidable (s.EntryLinked proc) :=
  inferInstanceAs (Decidable (_ ∨ _))

/-- `handle_evict_request` with the looks into the swap cache that come while the page is
written.  `none` is behaviour without a defined result: the null pointer of a device without
free slots, or `list_add` of a node through which a list leads already. -/
def evictDuring (s : Daemon) (released : Bool) (faults : EvictFaults)
    (during : List (Event × Reply)) : Option Daemon :=
  match s.usedList with
  | [] => some s
  | victim :: rest =>
      if s.prio (s.pages victim).process = -1 then
        some ((s.setUsed rest).giveBack victim (victim :: s.freeList))
      else
        match s.slotFree with
        | [] => none
        | slot :: slots =>
            if s.EntryLinked (s.pages victim).process then none
            else
              match ((s.setUsed rest).newToSwap victim slot slots faults.retaken).clearOrReleased
                released s.nextToSwap faults with
              | (none, t) => some t
              | (some entry, t) => some ((t.lookups during).writeOrUndo released entry faults)

theorem evictDuring_nil (s : Daemon) (faults : EvictFaults)
    (hnew : ∀ proc, ¬s.EntryLinked proc) :
    s.evictDuring false faults [] = (s.handleEvictRequest faults).state? := by
  unfold evictDuring handleEvictRequest evictBegin
  cases s.usedList with
  | nil => rfl
  | cons victim rest =>
      dsimp only
      split
      · rfl
      · cases s.slotFree with
        | nil => rfl
        | cons slot slots =>
            simp only [if_neg (hnew _), clearOrReleased, Bool.false_and, Bool.false_eq_true,
              if_false]
            rcases ((s.setUsed rest).newToSwap victim slot slots faults.retaken).swapOutBegin
              s.nextToSwap faults with ⟨_ | entry, t⟩ <;> rfl

/-! ## All or nothing -/

/-- What the lists and `malloc` give: a page or a slot is in one list, once, an entry of a swap
cache is allocated, and a new allocation is not.  `live` are the allocated entries. -/
structure Intrusive (s : Daemon) (live : Nat → Bool) : Prop where
  usedNodup : s.usedList.Nodup
  disjoint : ∀ frame ∈ s.freeList, frame ∉ s.usedList
  slotNodup : s.slotFree.Nodup
  cacheLive : ∀ proc, ∀ entry ∈ s.swapCache proc, live entry = true
  new : live s.nextToSwap = false

def isFor (s : Daemon) (proc : Nat) (vaddr : BitVec 64) (entry : Nat) : Bool :=
  (s.toSwap entry).proc == proc && (s.toSwap entry).swappedAddress == vaddr

/-- What a walk through a list of entries finds for a page; `none` if it leads through memory
that has been freed. -/
def entriesFor (s : Daemon) (live : Nat → Bool) (proc : Nat) (vaddr : BitVec 64)
    (list : List Nat) : Option Nat :=
  if list.all live then some (list.countP (s.isFor proc vaddr)) else none

structure Undone (s t : Daemon) (victim : Nat) : Prop where
  used : t.usedList.count victim = 1
  slot : t.slotFree.Perm s.slotFree
  cache : ∀ entry ∈ t.swapCache (s.pages victim).process,
    t.isFor (s.pages victim).process (s.pages victim).virtualAddress entry = false
  usedMemory : t.usedMemory = s.usedMemory
  swappedMemory : t.swappedMemory = s.swappedMemory

structure Retaken (s t : Daemon) (victim : Nat) : Prop where
  used : victim ∈ t.usedList
  slot : t.slotFree.Perm s.slotFree

structure SwappedOut (s t : Daemon) (live : Nat → Bool) (victim : Nat) : Prop where
  free : t.freeList.count victim = 1
  used : victim ∉ t.usedList
  proc : t.entriesFor (Function.update live s.nextToSwap true) (s.pages victim).process
    (s.pages victim).virtualAddress (t.procSwapList (s.pages victim).process) = some 1
  global : t.entriesFor (Function.update live s.nextToSwap true) (s.pages victim).process
    (s.pages victim).virtualAddress t.swapList = some 1
  slot : ((t.toSwap s.nextToSwap).snode :: t.slotFree).Perm s.slotFree
  inUse : (t.toSwap s.nextToSwap).snode ∉ t.slotFree

def clearFails (s : Daemon) (victim : Nat) (released : Bool) (faults : EvictFaults) : Bool :=
  faults.clearFails || !(released ||
    (s.pageTable (s.pages victim).process (s.pages victim).virtualAddress).present)

def EvictFails (s : Daemon) (victim : Nat) (released : Bool) (faults : EvictFaults) : Prop :=
  s.slotFree = [] ∨ s.clearFails victim released faults = true ∨
    faults.seekFails = true ∨ faults.writeFails ≠ none

def retakes (s : Daemon) (victim : Nat) (during : List (Event × Reply)) : Bool :=
  during.any fun look =>
    look.1.origin == (s.pages victim).process && look.1.vaddr == (s.pages victim).virtualAddress

def AllOrNothing (s : Daemon) (live : Nat → Bool) (victim : Nat) (released : Bool)
    (faults : EvictFaults) (during : List (Event × Reply)) : Prop :=
  ∃ t, s.evictDuring released faults during = some t ∧
    (EvictFails s victim released faults → Undone s t victim) ∧
    (¬EvictFails s victim released faults → s.retakes victim during = true →
      Retaken s t victim) ∧
    (¬EvictFails s victim released faults → s.retakes victim during = false →
      SwappedOut s t live victim)

def CleanFor (s : Daemon) (live : Nat → Bool) (victim : Nat) (list : List Nat) : Prop :=
  ∀ entry ∈ list, live entry = true ∧
    s.isFor (s.pages victim).process (s.pages victim).virtualAddress entry = false

/-! ## Looks into the swap cache -/

structure SameLists (s t : Daemon) : Prop where
  freeList : t.freeList = s.freeList
  usedList : t.usedList = s.usedList
  usedMemory : t.usedMemory = s.usedMemory
  swapCache : t.swapCache = s.swapCache
  procSwapList : t.procSwapList = s.procSwapList
  swapList : t.swapList = s.swapList
  swappedMemory : t.swappedMemory = s.swappedMemory
  slotFree : t.slotFree = s.slotFree

private theorem SameLists.refl (s : Daemon) : SameLists s s :=
  ⟨rfl, rfl, rfl, rfl, rfl, rfl, rfl, rfl⟩

private theorem SameLists.trans {s t u : Daemon} (h : SameLists s t) (h' : SameLists t u) :
    SameLists s u :=
  ⟨h'.freeList.trans h.freeList, h'.usedList.trans h.usedList, h'.usedMemory.trans h.usedMemory,
    h'.swapCache.trans h.swapCache, h'.procSwapList.trans h.procSwapList,
    h'.swapList.trans h.swapList, h'.swappedMemory.trans h.swappedMemory,
    h'.slotFree.trans h.slotFree⟩

private theorem lookup_eq (s : Daemon) (event : Event) (reply : Reply) :
    SameLists s (s.lookup event reply) ∧
      (s.lookup event reply).toSwap =
        match s.swapCacheEntry event with
        | none => s.toSwap
        | some entry => Function.update s.toSwap entry { s.toSwap entry with retaken := true } := by
  unfold lookup trySwapCache
  cases s.swapCacheEntry event with
  | none => exact ⟨SameLists.refl s, rfl⟩
  | some entry => cases reply <;> exact ⟨⟨rfl, rfl, rfl, rfl, rfl, rfl, rfl, rfl⟩, rfl⟩

private theorem isFor_lookups (s : Daemon) (during : List (Event × Reply)) :
    (s.lookups during).isFor = s.isFor := by
  induction during generalizing s with
  | nil => rfl
  | cons look during ih =>
      refine (ih (s.lookup look.1 look.2)).trans ?_
      funext proc vaddr entry
      rw [isFor, (lookup_eq s look.1 look.2).2, isFor]
      cases s.swapCacheEntry look.1 with
      | none => rfl
      | some other => by_cases hother : entry = other <;> simp [hother]

structure Leads (s : Daemon) (entry : Nat) (record : ToSwap) : Prop where
  isRecord : s.toSwap entry = record
  leads : (s.swapCache record.proc).head? = some entry
  only : ∀ proc ≠ record.proc, entry ∉ s.swapCache proc

def asked (record : ToSwap) (event : Event) : Bool :=
  event.origin == record.proc && event.vaddr == record.swappedAddress

private theorem Leads.swapCacheEntry {s : Daemon} {entry : Nat} {record : ToSwap}
    (h : Leads s entry record) (event : Event) :
    s.swapCacheEntry event = some entry ↔ asked record event = true := by
  unfold Daemon.swapCacheEntry asked
  simp only [Bool.and_eq_true, beq_iff_eq]
  constructor
  · intro hfound
    have haddr := List.find?_some hfound
    rw [h.isRecord, beq_iff_eq] at haddr
    refine ⟨?_, haddr.symm⟩
    by_contra hother
    exact h.only _ hother (List.mem_of_find?_eq_some hfound)
  · rintro ⟨hproc, haddr⟩
    obtain ⟨tail, hcache⟩ := List.head?_eq_some_iff.1 h.leads
    rw [hproc, hcache, List.find?_cons_of_pos (by simp [h.isRecord, haddr])]

private theorem Leads.lookup {s : Daemon} {entry : Nat} {record : ToSwap} (h : Leads s entry record)
    (event : Event) (reply : Reply) :
    Leads (s.lookup event reply) entry
      { record with retaken := record.retaken || asked record event } := by
  obtain ⟨hsame, htoSwap⟩ := lookup_eq s event reply
  refine ⟨?_, by rw [hsame.swapCache]; exact h.leads, by rw [hsame.swapCache]; exact h.only⟩
  rw [htoSwap]
  cases hasked : asked record event with
  | true =>
      rw [(h.swapCacheEntry event).2 hasked]
      simp [h.isRecord]
  | false =>
      have hne : s.swapCacheEntry event ≠ some entry := by
        rw [Ne, h.swapCacheEntry event, hasked]
        exact Bool.false_ne_true
      cases hfound : s.swapCacheEntry event with
      | none => simpa using h.isRecord
      | some other =>
          have hother : entry ≠ other := fun heq => hne (by rw [hfound, heq])
          simpa [Function.update_of_ne hother] using h.isRecord

private theorem Leads.lookups {s : Daemon} {entry : Nat} {record : ToSwap}
    (h : Leads s entry record)
    (during : List (Event × Reply)) :
    SameLists s (s.lookups during) ∧
      (s.lookups during).toSwap entry =
        { record with
          retaken := record.retaken || during.any fun look => asked record look.1 } := by
  induction during generalizing s record with
  | nil => exact ⟨SameLists.refl s, by simpa [Daemon.lookups] using h.isRecord⟩
  | cons look during ih =>
      obtain ⟨hsame, hrecord⟩ := ih (h.lookup look.1 look.2)
      refine ⟨(lookup_eq s look.1 look.2).1.trans hsame, ?_⟩
      simpa [Daemon.lookups, asked, Bool.or_assoc] using hrecord

/-! ## The exits -/

section Exits

variable {s : Daemon} {live : Nat → Bool} {victim slot : Nat} {rest slots : List Nat}
  {released : Bool} {faults : EvictFaults}

def writing (s : Daemon) (released : Bool) (victim slot : Nat) (rest slots : List Nat)
    (retaken : Bool) : Daemon :=
  if released then s.evicting victim slot rest slots retaken
  else
    (s.evicting victim slot rest slots retaken).clearAndSet (s.evictRecord victim slot retaken)

private theorem writing_eq (s : Daemon) (released : Bool) (victim slot : Nat)
    (rest slots : List Nat)
    (retaken : Bool) :
    SameLists (s.evicting victim slot rest slots retaken)
        (s.writing released victim slot rest slots retaken) ∧
      (s.writing released victim slot rest slots retaken).toSwap =
        Function.update s.toSwap s.nextToSwap (s.evictRecord victim slot retaken) := by
  cases released <;> exact ⟨⟨rfl, rfl, rfl, rfl, rfl, rfl, rfl, rfl⟩, rfl⟩

private theorem Intrusive.leads_writing (hs : Intrusive s live) (released : Bool)
    (victim slot : Nat)
    (rest slots : List Nat) (retaken : Bool) :
    Leads (s.writing released victim slot rest slots retaken) s.nextToSwap
      (s.evictRecord victim slot retaken) := by
  obtain ⟨hsame, htoSwap⟩ := writing_eq s released victim slot rest slots retaken
  refine ⟨by rw [htoSwap, Function.update_self], ?_, ?_⟩
  · rw [hsame.swapCache]
    simp [evicting, evictRecord, setSwapCache]
  · intro proc hproc hmem
    have hproc' : proc ≠ (s.pages victim).process := hproc
    have hmem' : s.nextToSwap ∈ s.swapCache proc := by
      rw [hsame.swapCache] at hmem
      simpa [evicting, setSwapCache, newToSwap, setToSwap, setUsed, Function.update_of_ne hproc']
        using hmem
    exact Bool.false_ne_true (hs.new.symm.trans (hs.cacheLive proc _ hmem'))

private theorem clearOrReleased_newToSwap (s : Daemon) (released : Bool) (faults : EvictFaults)
    (victim slot : Nat) (rest slots : List Nat) :
    ((s.setUsed rest).newToSwap victim slot slots faults.retaken).clearOrReleased released
        s.nextToSwap faults =
      if s.clearFails victim released faults = true then
        (none, (s.evicting victim slot rest slots faults.retaken).putSwapNode slot)
      else (some s.nextToSwap, s.writing released victim slot rest slots faults.retaken) := by
  have hrecord : ((s.setUsed rest).newToSwap victim slot slots faults.retaken).toSwap
      s.nextToSwap = s.evictRecord victim slot faults.retaken := Function.update_self ..
  have hbegin : ((s.setUsed rest).newToSwap victim slot slots faults.retaken).swapOutBegin
        s.nextToSwap faults =
      if faults.clearFails || !(s.pageTable (s.pages victim).process
          (s.pages victim).virtualAddress).present then
        (none, (s.evicting victim slot rest slots faults.retaken).putSwapNode slot)
      else (some s.nextToSwap, s.writing false victim slot rest slots faults.retaken) := by
    simp only [swapOutBegin, hrecord]
    rfl
  rw [clearOrReleased, hbegin, hrecord]
  cases released with
  | false => simp [clearFails]
  | true =>
      rcases Bool.eq_false_or_eq_true faults.clearFails with hfails | hworks
      · simp [clearFails, hfails]
      · rw [if_pos (by simp [hworks]), if_neg (by simp [clearFails, hworks])]
        rfl

private theorem evictDuring_alive (hused : s.usedList = victim :: rest)
    (halive : s.prio (s.pages victim).process ≠ -1) (hslots : s.slotFree = slot :: slots)
    (hnew : ¬s.EntryLinked (s.pages victim).process) (during : List (Event × Reply)) :
    s.evictDuring released faults during =
      some (if s.clearFails victim released faults = true then
          (s.evicting victim slot rest slots faults.retaken).putSwapNode slot
        else
          ((s.writing released victim slot rest slots faults.retaken).lookups
            during).writeOrUndo released s.nextToSwap faults) := by
  simp only [evictDuring, hused, if_neg halive, hslots, if_neg hnew, clearOrReleased_newToSwap]
  split_ifs <;> rfl

private theorem writeOrUndo_eq (t : Daemon) (released : Bool) (entry : Nat) (faults : EvictFaults) :
    SameLists (t.swapOutEnd entry faults) (t.writeOrUndo released entry faults) ∧
      (t.writeOrUndo released entry faults).toSwap = (t.swapOutEnd entry faults).toSwap := by
  cases released <;> exact ⟨⟨rfl, rfl, rfl, rfl, rfl, rfl, rfl, rfl⟩, rfl⟩

private theorem swapOutEnd_failed (t : Daemon) (entry : Nat)
    (hfails : faults.seekFails = true ∨ faults.writeFails ≠ none) :
    (t.swapOutEnd entry faults).swapCache = t.swapCache ∧
      (t.swapOutEnd entry faults).toSwap = t.toSwap := by
  have hundo : ∀ u : Daemon, (u.swapOutUndo entry).swapCache = u.swapCache ∧
      (u.swapOutUndo entry).toSwap = u.toSwap := by
    intro u
    unfold swapOutUndo
    simp only [putSwapNode, setUsed]
    split <;> exact ⟨rfl, rfl⟩
  unfold swapOutEnd
  cases hseek : faults.seekFails with
  | true => exact hundo t
  | false =>
      cases hwrite : faults.writeFails with
      | none => simp [hseek, hwrite] at hfails
      | some torn => exact hundo _

private theorem swapOutEnd_retaken {t : Daemon} {entry : Nat} (hseek : faults.seekFails = false)
    (hwrite : faults.writeFails = none) (hretaken : (t.toSwap entry).retaken = true) :
    (t.swapOutEnd entry faults).usedList = t.usedList ∧
      (t.swapOutEnd entry faults).freeList = t.freeList := by
  simp only [swapOutEnd, hseek, hwrite, hretaken, if_true]
  exact ⟨rfl, rfl⟩

private theorem swapOutEnd_written {t : Daemon} {entry : Nat} (hseek : faults.seekFails = false)
    (hwrite : faults.writeFails = none) (hretaken : (t.toSwap entry).retaken = false) :
    t.swapOutEnd entry faults =
      ((((t.writeSlot (t.toSwap entry).snode (t.pages (t.toSwap entry).page).data).setSwapCache
        (t.toSwap entry).proc ((t.swapCache (t.toSwap entry).proc).erase entry)).addSwapped
          entry (t.toSwap entry).proc).giveBack (t.toSwap entry).page
            ((t.toSwap entry).page :: t.freeList)) := by
  simp only [swapOutEnd, hseek, hwrite, hretaken, Bool.false_eq_true, if_false]
  rfl

private theorem not_undone_of_clear (hs : Intrusive s live) (hused : s.usedList = victim :: rest) :
    ¬Undone s ((s.evicting victim slot rest slots faults.retaken).putSwapNode slot) victim := by
  intro h
  have hrest : victim ∉ rest := (List.nodup_cons.1 (hused ▸ hs.usedNodup)).1
  have hcount : rest.count victim = 1 := h.used
  rw [List.count_eq_zero_of_not_mem hrest] at hcount
  exact absurd hcount Nat.zero_ne_one

private theorem Intrusive.sameLists_writing (hs : Intrusive s live) (released : Bool)
    (victim slot : Nat)
    (rest slots : List Nat) (retaken : Bool) (during : List (Event × Reply)) :
    SameLists (s.evicting victim slot rest slots retaken)
        ((s.writing released victim slot rest slots retaken).lookups during) ∧
      ((s.writing released victim slot rest slots retaken).lookups during).toSwap s.nextToSwap =
        s.evictRecord victim slot (retaken || s.retakes victim during) := by
  obtain ⟨hsame, hrecord⟩ :=
    (hs.leads_writing released victim slot rest slots retaken).lookups during
  exact ⟨(writing_eq s released victim slot rest slots retaken).1.trans hsame, hrecord⟩

private theorem not_undone_of_write (hs : Intrusive s live) (during : List (Event × Reply))
    (hfails : faults.seekFails = true ∨ faults.writeFails ≠ none) :
    ¬Undone s (((s.writing released victim slot rest slots faults.retaken).lookups
      during).writeOrUndo released s.nextToSwap faults) victim := by
  intro h
  obtain ⟨hsame, hrecord⟩ :=
    hs.sameLists_writing released victim slot rest slots faults.retaken during
  generalize (s.writing released victim slot rest slots faults.retaken).lookups during = t
    at hsame hrecord h
  obtain ⟨hend, htoSwap⟩ := writeOrUndo_eq t released s.nextToSwap faults
  obtain ⟨hcache, htoSwap'⟩ := swapOutEnd_failed t s.nextToSwap hfails
  have hmem : s.nextToSwap ∈ (t.writeOrUndo released s.nextToSwap faults).swapCache
      (s.pages victim).process := by
    rw [hend.swapCache, hcache, hsame.swapCache]
    simp [evicting, setSwapCache]
  have hfor := h.cache _ hmem
  rw [isFor, htoSwap, htoSwap', hrecord] at hfor
  simp [evictRecord] at hfor

private theorem lost_of_retaken (hs : Intrusive s live) (hused : s.usedList = victim :: rest)
    (during : List (Event × Reply)) (hseek : faults.seekFails = false)
    (hwrite : faults.writeFails = none)
    (hretaken : (faults.retaken || s.retakes victim during) = true) {t : Daemon}
    (ht : t = ((s.writing released victim slot rest slots faults.retaken).lookups
      during).writeOrUndo released s.nextToSwap faults) :
    victim ∉ t.usedList ∧ victim ∉ t.freeList := by
  obtain ⟨hsame, hrecord⟩ :=
    hs.sameLists_writing released victim slot rest slots faults.retaken during
  have hmarked : (((s.writing released victim slot rest slots faults.retaken).lookups
      during).toSwap s.nextToSwap).retaken = true := by
    rw [hrecord]
    exact hretaken
  obtain ⟨husedList, hfreeList⟩ := swapOutEnd_retaken hseek hwrite hmarked
  have hend := (writeOrUndo_eq ((s.writing released victim slot rest slots
    faults.retaken).lookups during) released s.nextToSwap faults).1
  rw [ht, hend.usedList, hend.freeList, husedList, hfreeList, hsame.usedList, hsame.freeList]
  refine ⟨(List.nodup_cons.1 (hused ▸ hs.usedNodup)).1, fun hfree => ?_⟩
  exact hs.disjoint victim hfree (by rw [hused]; exact List.mem_cons_self)

private theorem entriesFor_cons_iff (live : Nat → Bool) {t : Daemon} {list : List Nat}
    (hlist : s.nextToSwap ∉ list)
    (hnew : t.isFor (s.pages victim).process (s.pages victim).virtualAddress s.nextToSwap = true)
    (hold : ∀ entry ≠ s.nextToSwap, ∀ proc vaddr,
      t.isFor proc vaddr entry = s.isFor proc vaddr entry) :
    t.entriesFor (Function.update live s.nextToSwap true) (s.pages victim).process
        (s.pages victim).virtualAddress (s.nextToSwap :: list) = some 1 ↔
      CleanFor s live victim list := by
  have hne : ∀ entry ∈ list, entry ≠ s.nextToSwap := by
    rintro entry hentry rfl
    exact hlist hentry
  have hall : (s.nextToSwap :: list).all (Function.update live s.nextToSwap true) = true ↔
      ∀ entry ∈ list, live entry = true := by
    rw [List.all_cons, Function.update_self, Bool.true_and, List.all_eq_true]
    exact forall₂_congr fun entry hentry => by rw [Function.update_of_ne (hne entry hentry)]
  have hcount : (s.nextToSwap :: list).countP
        (t.isFor (s.pages victim).process (s.pages victim).virtualAddress) = 1 ↔
      ∀ entry ∈ list,
        s.isFor (s.pages victim).process (s.pages victim).virtualAddress entry = false := by
    rw [List.countP_cons_of_pos hnew, Nat.add_eq_right, List.countP_eq_zero]
    exact forall₂_congr fun entry hentry => by
      rw [hold entry (hne entry hentry), Bool.not_eq_true]
  unfold entriesFor CleanFor
  split
  · next hlive =>
      rw [Option.some.injEq, hcount]
      exact ⟨fun hclean entry hentry => ⟨hall.1 hlive entry hentry, hclean entry hentry⟩,
        fun hclean entry hentry => (hclean entry hentry).2⟩
  · next hdead =>
      refine iff_of_false (by simp) fun hclean => hdead (hall.2 ?_)
      exact fun entry hentry => (hclean entry hentry).1

/-- The lists and the new entry once the page has been written out. -/
private structure WrittenOut (s u : Daemon) (victim slot : Nat) (rest slots : List Nat) :
    Prop where
  freeList : u.freeList = victim :: s.freeList
  usedList : u.usedList = rest
  swapList : u.swapList = s.nextToSwap :: s.swapList
  procSwapList : u.procSwapList (s.pages victim).process =
    s.nextToSwap :: s.procSwapList (s.pages victim).process
  slotFree : u.slotFree = slots
  snode : (u.toSwap s.nextToSwap).snode = slot
  isFor : u.isFor (s.pages victim).process (s.pages victim).virtualAddress s.nextToSwap = true
  others : ∀ entry ≠ s.nextToSwap, ∀ proc vaddr,
    u.isFor proc vaddr entry = s.isFor proc vaddr entry

private theorem Intrusive.writtenOut (hs : Intrusive s live) (released : Bool)
    (victim slot : Nat) (rest slots : List Nat) (during : List (Event × Reply))
    (hseek : faults.seekFails = false) (hwrite : faults.writeFails = none)
    (hretaken : (faults.retaken || s.retakes victim during) = false) :
    WrittenOut s (((s.writing released victim slot rest slots faults.retaken).lookups
      during).writeOrUndo released s.nextToSwap faults) victim slot rest slots := by
  obtain ⟨hsame, hrecord⟩ :=
    hs.sameLists_writing released victim slot rest slots faults.retaken during
  have hisFor := isFor_lookups (s.writing released victim slot rest slots faults.retaken) during
  have hwriting := (writing_eq s released victim slot rest slots faults.retaken).2
  rw [hretaken] at hrecord
  generalize (s.writing released victim slot rest slots faults.retaken).lookups during = t
    at hsame hrecord hisFor
  have hmarked : (t.toSwap s.nextToSwap).retaken = false := by rw [hrecord]; rfl
  obtain ⟨hend, htoSwap⟩ := writeOrUndo_eq t released s.nextToSwap faults
  generalize t.writeOrUndo released s.nextToSwap faults = u at hend htoSwap
  rw [swapOutEnd_written hseek hwrite hmarked, hrecord] at hend htoSwap
  have hu : u.toSwap = t.toSwap := htoSwap
  have hisFor' : u.isFor = t.isFor := by
    funext proc vaddr entry
    rw [Daemon.isFor, hu, Daemon.isFor]
  refine ⟨?_, ?_, ?_, ?_, ?_, ?_, ?_, ?_⟩
  · rw [hend.freeList]
    simp [giveBack, evictRecord, hsame.freeList, evicting, newToSwap, setToSwap, setUsed,
      setSwapCache]
  · rw [hend.usedList]
    simp [giveBack, addSwapped, setSwapCache, writeSlot, hsame.usedList, evicting, newToSwap,
      setToSwap, setUsed]
  · rw [hend.swapList]
    simp [giveBack, addSwapped, setSwapCache, writeSlot, hsame.swapList, evicting, newToSwap,
      setToSwap, setUsed]
  · rw [hend.procSwapList]
    simp [giveBack, addSwapped, setSwapCache, writeSlot, hsame.procSwapList, evicting, newToSwap,
      setToSwap, setUsed, evictRecord]
  · rw [hend.slotFree]
    simp [giveBack, addSwapped, setSwapCache, writeSlot, hsame.slotFree, evicting, newToSwap]
  · rw [hu, hrecord]
    rfl
  · rw [Daemon.isFor, hu, hrecord]
    simp [evictRecord]
  · intro entry hentry proc vaddr
    rw [hisFor', hisFor, Daemon.isFor, hwriting, Function.update_of_ne hentry, Daemon.isFor]

private theorem WrittenOut.swappedOut_iff {u : Daemon} (h : WrittenOut s u victim slot rest slots)
    (hs : Intrusive s live) (hused : s.usedList = victim :: rest)
    (hslots : s.slotFree = slot :: slots) (hnew : ¬s.EntryLinked (s.pages victim).process) :
    SwappedOut s u live victim ↔ CleanFor s live victim s.swapList ∧
      CleanFor s live victim (s.procSwapList (s.pages victim).process) := by
  have hvictim : victim ∉ s.freeList := fun hmem =>
    hs.disjoint victim hmem (by rw [hused]; exact List.mem_cons_self)
  obtain ⟨hglobal, hproc⟩ := not_or.1 hnew
  have hwalks := entriesFor_cons_iff live hglobal h.isFor h.others
  have hwalks' := entriesFor_cons_iff live hproc h.isFor h.others
  rw [← h.swapList] at hwalks
  rw [← h.procSwapList] at hwalks'
  rw [← hwalks, ← hwalks']
  constructor
  · exact fun hout => ⟨hout.global, hout.proc⟩
  · rintro ⟨hone, hone'⟩
    refine ⟨?_, ?_, hone', hone, ?_, ?_⟩
    · rw [h.freeList, List.count_cons_self, List.count_eq_zero_of_not_mem hvictim]
    · rw [h.usedList]
      exact (List.nodup_cons.1 (hused ▸ hs.usedNodup)).1
    · rw [h.snode, h.slotFree, hslots]
    · rw [h.snode, h.slotFree]
      exact (List.nodup_cons.1 (hslots ▸ hs.slotNodup)).1

end Exits

private theorem evictDuring_cases {s : Daemon} {live : Nat → Bool} (hs : Intrusive s live)
    {victim slot : Nat} {rest slots : List Nat} (hused : s.usedList = victim :: rest)
    (halive : s.prio (s.pages victim).process ≠ -1) (hslots : s.slotFree = slot :: slots)
    (hnew : ¬s.EntryLinked (s.pages victim).process) (released : Bool) (faults : EvictFaults)
    (during : List (Event × Reply)) :
    ∃ t, s.evictDuring released faults during = some t ∧
      (EvictFails s victim released faults → ¬Undone s t victim) ∧
      (¬EvictFails s victim released faults →
        ((faults.retaken || s.retakes victim during) = true →
          victim ∉ t.usedList ∧ victim ∉ t.freeList) ∧
        ((faults.retaken || s.retakes victim during) = false →
          (SwappedOut s t live victim ↔ CleanFor s live victim s.swapList ∧
            CleanFor s live victim (s.procSwapList (s.pages victim).process)))) := by
  refine ⟨_, evictDuring_alive hused halive hslots hnew during, ?_, ?_⟩
  · intro hfails
    split
    · exact not_undone_of_clear hs hused
    · rename_i hclear
      apply not_undone_of_write hs during
      rcases hfails with hempty | hclear' | hwrite
      · rw [hslots] at hempty
        cases hempty
      · exact absurd hclear' hclear
      · exact hwrite
  · intro hworks
    simp only [EvictFails, not_or, not_not] at hworks
    obtain ⟨_, hclear, hseek, hwrite⟩ := hworks
    rw [if_neg hclear]
    have hseek' := Bool.eq_false_iff.2 hseek
    refine ⟨fun hmarked => lost_of_retaken hs hused during hseek' hwrite hmarked rfl, ?_⟩
    intro hretaken
    exact (hs.writtenOut released victim slot rest slots during hseek' hwrite
      hretaken).swappedOut_iff hs hused hslots hnew

private theorem not_clean_of_linked {s : Daemon} {live : Nat → Bool} (hs : Intrusive s live)
    {victim : Nat} (hlinked : s.EntryLinked (s.pages victim).process) :
    ¬(CleanFor s live victim s.swapList ∧
      CleanFor s live victim (s.procSwapList (s.pages victim).process)) := by
  rintro ⟨hglobal, hproc⟩
  have hlive : live s.nextToSwap = true :=
    hlinked.elim (fun hmem => (hglobal _ hmem).1) fun hmem => (hproc _ hmem).1
  exact Bool.false_ne_true (hs.new.symm.trans hlive)

/-- Swapping a page out is all or nothing exactly when no step fails, the page is not marked as
retaken, be it by another worker or by what `malloc` left in the entry, and both swap lists
lead through allocated entries only, none of them for the page. -/
theorem allOrNothing_iff {s : Daemon} {live : Nat → Bool} (hs : Intrusive s live) {victim : Nat}
    {rest : List Nat} (hused : s.usedList = victim :: rest)
    (halive : s.prio (s.pages victim).process ≠ -1) (released : Bool) (faults : EvictFaults)
    (during : List (Event × Reply)) :
    AllOrNothing s live victim released faults during ↔
      ¬EvictFails s victim released faults ∧ faults.retaken = false ∧
        s.retakes victim during = false ∧ CleanFor s live victim s.swapList ∧
        CleanFor s live victim (s.procSwapList (s.pages victim).process) := by
  cases hslots : s.slotFree with
  | nil =>
      have hnull : s.evictDuring released faults during = none := by
        simp only [evictDuring, hused, if_neg halive, hslots]
      have hfails : EvictFails s victim released faults := Or.inl hslots
      simp [AllOrNothing, hnull, hfails]
  | cons slot slots =>
      by_cases hlinked : s.EntryLinked (s.pages victim).process
      · have hbroken : s.evictDuring released faults during = none := by
          simp only [evictDuring, hused, if_neg halive, hslots, if_pos hlinked]
        refine iff_of_false ?_ fun hclean => not_clean_of_linked hs hlinked hclean.2.2.2
        simp [AllOrNothing, hbroken]
      · obtain ⟨t, hresult, hundone, hswapped⟩ :=
          evictDuring_cases hs hused halive hslots hlinked released faults during
        have hunique : AllOrNothing s live victim released faults during ↔
            (EvictFails s victim released faults → Undone s t victim) ∧
            (¬EvictFails s victim released faults → s.retakes victim during = true →
              Retaken s t victim) ∧
            (¬EvictFails s victim released faults → s.retakes victim during = false →
              SwappedOut s t live victim) := by
          simp [AllOrNothing, hresult]
        rw [hunique]
        by_cases hfails : EvictFails s victim released faults
        · simpa [hfails] using hundone hfails
        · obtain ⟨hlost, hwritten⟩ := hswapped hfails
          cases hmarked : (faults.retaken || s.retakes victim during) with
          | true =>
              obtain ⟨husedList, hfreeList⟩ := hlost hmarked
              refine iff_of_false ?_ ?_
              · rintro ⟨_, hretaken, hout⟩
                cases hretakes : s.retakes victim during with
                | true => exact husedList (hretaken hfails hretakes).used
                | false =>
                    have hcount := (hout hfails hretakes).free
                    rw [List.count_eq_zero_of_not_mem hfreeList] at hcount
                    exact absurd hcount Nat.zero_ne_one
              · rintro ⟨_, hflag, hretakes, _⟩
                rw [hflag, hretakes] at hmarked
                cases hmarked
          | false =>
              obtain ⟨hflag, hretakes⟩ := Bool.or_eq_false_iff.1 hmarked
              simpa [hfails, hflag, hretakes] using hwritten hmarked

/-- One page and one slot, and the page in use at address `4096` of process `1`. -/
def onePageUsed : Daemon :=
  { setup 1 1 (fun _ => 0) with
    pages := fun _ => ⟨0, 4096, 1⟩
    freeList := []
    usedList := [0]
    usedMemory := 4096
    pageTable := fun proc vaddr => if proc = 1 ∧ vaddr = 4096 then .mapped 0 else .empty }

private theorem intrusive_onePageUsed : Intrusive onePageUsed fun _ => false where
  usedNodup := by decide
  disjoint := by decide
  slotNodup := by decide
  cacheLive := by simp [onePageUsed, setup]
  new := rfl

/-- When the page-table update fails the page is in no list any more, although its memory is
counted as used, and the entry stays in the swap cache. -/
theorem onePageUsed_lost :
    ∃ t, onePageUsed.evictDuring false ⟨false, true, false, none⟩ [] = some t ∧
      t.usedList = [] ∧ t.freeList = [] ∧ t.usedMemory = 4096 ∧ t.swapCache 1 = [0] :=
  ⟨_, rfl, rfl, rfl, rfl, rfl⟩

theorem allOrNothing_onePageUsed :
    Intrusive onePageUsed (fun _ => false) ∧ onePageUsed.usedList = [0] ∧
      onePageUsed.prio (onePageUsed.pages 0).process ≠ -1 ∧
      AllOrNothing onePageUsed (fun _ => false) 0 false ⟨false, false, false, none⟩ [] := by
  have hused : onePageUsed.usedList = [0] := rfl
  have halive : onePageUsed.prio (onePageUsed.pages 0).process ≠ -1 := by decide
  refine ⟨intrusive_onePageUsed, hused, halive, ?_⟩
  refine (allOrNothing_iff intrusive_onePageUsed hused halive _ _ _).2 ⟨?_, rfl, rfl, ?_, ?_⟩
  · unfold EvictFails
    decide
  · simp [CleanFor, onePageUsed, setup]
  · simp [CleanFor, onePageUsed, setup]

end UserPaging.Usm.Daemon
