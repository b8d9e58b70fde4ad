import UserPaging.Usm.PageBooks

/-!
# Bookkeeping of swap slots

Every swapped page-table entry names a slot that is not free and whose holder is
an entry for that very process and address.  Hence two swapped pages never share
a slot, and a slot may be reused as soon as no entry names it.
-/

namespace UserPaging.Usm.Daemon

def slotLimit : Nat := 2 ^ 38

def slotEntry (slot : Nat) : BitVec 64 := swapValue (snodeOffset slot) swapDeviceNumber

private theorem toNat_ofNat_slot {slot : Nat} (hslot : slot < slotLimit) :
    (BitVec.ofNat 64 slot).toNat = slot := by
  rw [BitVec.toNat_ofNat]
  exact Nat.mod_eq_of_lt (hslot.trans (by decide))

theorem eventSlot_slotEntry {slot : Nat} (hslot : slot < slotLimit) :
    eventSlot (swapOffst (slotEntry slot)) = slot := by
  have hbits := toNat_ofNat_slot hslot
  have hdecoded := eventSlot_swapOffst_swapValue (hbits.symm ▸ hslot) swapDeviceNumber
  exact hdecoded.trans hbits

theorem pteNone_slotEntry (slot : Nat) : pteNone (slotEntry slot) = false := by
  have hdevice : (slotEntry slot &&& ~~~0x60).getLsbD 59 = true := by
    simp [slotEntry, swapValue, swapDeviceNumber]
  rw [pteNone, beq_eq_false_iff_ne]
  intro hnone
  rw [hnone] at hdevice
  exact absurd hdevice (by decide)

private theorem slotEntry_injective {slot other : Nat} (hslot : slot < slotLimit)
    (hother : other < slotLimit) (heq : slotEntry slot = slotEntry other) : slot = other := by
  rw [← eventSlot_slotEntry hslot, heq, eventSlot_slotEntry hother]

theorem snodeOffset_injective {slot other : Nat} (hslot : slot < slotLimit)
    (hother : other < slotLimit) (heq : snodeOffset slot = snodeOffset other) :
    slot = other := by
  refine slotEntry_injective hslot hother ?_
  rw [slotEntry, slotEntry, heq]

structure HeldBy (s : Daemon) (slot entry proc : Nat) (vaddr : BitVec 64) : Prop where
  bound : slot < slotLimit
  taken : slot ∉ s.slotFree
  holder : s.toSwapHolder slot = some entry
  known : entry < s.nextToSwap
  snode : (s.toSwap entry).snode = slot
  proc : (s.toSwap entry).proc = proc
  vaddr : (s.toSwap entry).swappedAddress = vaddr

structure SlotBooks (s : Daemon) : Prop where
  nodup : s.slotFree.Nodup
  bound : ∀ slot ∈ s.slotFree, slot < slotLimit
  swapped : ∀ proc vaddr value, s.pageTable proc vaddr = .raw value →
    ∃ slot entry, value = slotEntry slot ∧ HeldBy s slot entry proc vaddr

def slotView (s : Daemon) :
    List Nat × (Nat → Option Nat) × (Nat → ToSwap) × Nat × (Nat → BitVec 64 → Pte) :=
  (s.slotFree, s.toSwapHolder, s.toSwap, s.nextToSwap, s.pageTable)

def Unnamed (s : Daemon) (slot : Nat) : Prop :=
  ∀ proc vaddr, s.pageTable proc vaddr ≠ .raw (slotEntry slot)

variable {s : Daemon}

theorem HeldBy.unique {slot entry entry' proc proc' : Nat} {vaddr vaddr' : BitVec 64}
    (hheld : HeldBy s slot entry proc vaddr) (hheld' : HeldBy s slot entry' proc' vaddr') :
    entry = entry' ∧ proc = proc' ∧ vaddr = vaddr' := by
  have hsame : entry = entry' := Option.some.inj (hheld.holder.symm.trans hheld'.holder)
  subst hsame
  exact ⟨rfl, hheld.proc.symm.trans hheld'.proc, hheld.vaddr.symm.trans hheld'.vaddr⟩

namespace SlotBooks

theorem congr {s' : Daemon} (hs : SlotBooks s) (hview : s'.slotView = s.slotView) :
    SlotBooks s' := by
  simp only [slotView, Prod.mk.injEq] at hview
  obtain ⟨hfree, hholder, hrecord, hnext, htable⟩ := hview
  refine ⟨hfree ▸ hs.nodup, hfree ▸ hs.bound, fun proc vaddr value hraw => ?_⟩
  rw [htable] at hraw
  obtain ⟨slot, entry, hvalue, hheld⟩ := hs.swapped proc vaddr value hraw
  refine ⟨slot, entry, hvalue, ?_⟩
  constructor
  · exact hheld.bound
  · exact hfree ▸ hheld.taken
  · exact hholder ▸ hheld.holder
  · exact hnext ▸ hheld.known
  · exact hrecord ▸ hheld.snode
  · exact hrecord ▸ hheld.proc
  · exact hrecord ▸ hheld.vaddr

theorem setup (pagesNumber : Nat) {slots : Nat} (hslots : slots ≤ slotLimit)
    (prio : Nat → Int) : SlotBooks (Daemon.setup pagesNumber slots prio) where
  nodup := List.nodup_reverse.2 List.nodup_range
  bound := fun slot hmem => by
    have hlt : slot < slots := by simpa [Daemon.setup] using hmem
    exact hlt.trans_le hslots
  swapped := fun _ _ _ hraw => by cases hraw

private theorem unnamed_of_free (hs : SlotBooks s) {slot : Nat} (hfree : slot ∈ s.slotFree) :
    s.Unnamed slot := by
  intro proc vaddr hraw
  obtain ⟨other, entry, hvalue, hheld⟩ := hs.swapped proc vaddr _ hraw
  have hsame := slotEntry_injective (hs.bound slot hfree) hheld.bound hvalue
  subst hsame
  exact hheld.taken hfree

theorem heldBy_of_raw (hs : SlotBooks s) {slot proc : Nat} {vaddr : BitVec 64}
    (hslot : slot < slotLimit) (hraw : s.pageTable proc vaddr = .raw (slotEntry slot)) :
    ∃ entry, HeldBy s slot entry proc vaddr := by
  obtain ⟨other, entry, hvalue, hheld⟩ := hs.swapped proc vaddr _ hraw
  have hsame := slotEntry_injective hslot hheld.bound hvalue
  subst hsame
  exact ⟨entry, hheld⟩

theorem setPte (hs : SlotBooks s) (proc : Nat) (vaddr : BitVec 64) {pte : Pte}
    (hpte : ∀ value, pte ≠ .raw value) : SlotBooks (s.setPte proc vaddr pte) :=
  { hs with
    swapped := fun proc' vaddr' value hraw => by
      rw [pageTable_setPte] at hraw
      split at hraw
      · exact absurd hraw (hpte value)
      · obtain ⟨slot, entry, hvalue, hheld⟩ := hs.swapped proc' vaddr' value hraw
        exact ⟨slot, entry, hvalue, { hheld with }⟩ }

theorem unnamed_of_setPte (hs : SlotBooks s) {slot entry proc : Nat} {vaddr : BitVec 64}
    (hheld : HeldBy s slot entry proc vaddr) {pte : Pte} (hpte : ∀ value, pte ≠ .raw value) :
    (s.setPte proc vaddr pte).Unnamed slot := by
  intro proc' vaddr' hraw
  rw [pageTable_setPte] at hraw
  split at hraw
  · exact hpte _ hraw
  · rename_i hne
    obtain ⟨entry', hheld'⟩ := hs.heldBy_of_raw hheld.bound hraw
    obtain ⟨-, hproc, hvaddr⟩ := hheld.unique hheld'
    exact hne ⟨hproc.symm, hvaddr.symm⟩

theorem newToSwap (hs : SlotBooks s) (victim : Nat) {slot : Nat} {slots : List Nat}
    (hfree : s.slotFree = slot :: slots) (retaken : Bool) :
    SlotBooks (s.newToSwap victim slot slots retaken) ∧
      (s.newToSwap victim slot slots retaken).Unnamed slot ∧
      HeldBy (s.newToSwap victim slot slots retaken) slot s.nextToSwap
        (s.pages victim).process (s.pages victim).virtualAddress := by
  have hnodup := hs.nodup
  rw [hfree, List.nodup_cons] at hnodup
  have hhead : slot ∈ s.slotFree := by simp [hfree]
  have hsubset : ∀ other ∈ slots, other ∈ s.slotFree := fun other hmem => by
    rw [hfree]
    exact List.mem_cons_of_mem _ hmem
  refine ⟨⟨hnodup.2, fun other hmem => hs.bound other (hsubset other hmem), ?_⟩,
    hs.unnamed_of_free hhead, ?_⟩
  · intro proc vaddr value hraw
    obtain ⟨other, entry, hvalue, hheld⟩ := hs.swapped proc vaddr value hraw
    have hother : other ≠ slot := fun hsame => hheld.taken (hsame ▸ hhead)
    have hentry : entry ≠ s.nextToSwap := hheld.known.ne
    refine ⟨other, entry, hvalue, ⟨hheld.bound, fun hmem => hheld.taken (hsubset _ hmem), ?_,
      Nat.lt_succ_of_lt hheld.known, ?_, ?_, ?_⟩⟩
    · simpa [Daemon.newToSwap, setToSwap, Function.update_of_ne hother] using hheld.holder
    · simpa [Daemon.newToSwap, setToSwap, Function.update_of_ne hentry] using hheld.snode
    · simpa [Daemon.newToSwap, setToSwap, Function.update_of_ne hentry] using hheld.proc
    · simpa [Daemon.newToSwap, setToSwap, Function.update_of_ne hentry] using hheld.vaddr
  · constructor <;> simp [Daemon.newToSwap, setToSwap, hnodup.1, hs.bound slot hhead]

theorem setPte_raw (hs : SlotBooks s) {slot entry proc : Nat} {vaddr : BitVec 64}
    (hheld : HeldBy s slot entry proc vaddr) :
    SlotBooks (s.setPte proc vaddr (.raw (slotEntry slot))) :=
  { hs with
    swapped := fun proc' vaddr' value hraw => by
      rw [pageTable_setPte] at hraw
      split at hraw
      · rename_i heq
        cases hraw
        rw [heq.1, heq.2]
        exact ⟨slot, entry, rfl, { hheld with }⟩
      · obtain ⟨other, entry', hvalue, hheld'⟩ := hs.swapped proc' vaddr' value hraw
        exact ⟨other, entry', hvalue, { hheld' with }⟩ }

theorem putSwapNode (hs : SlotBooks s) {slot : Nat} (hbound : slot < slotLimit)
    (htaken : slot ∉ s.slotFree) (hunnamed : s.Unnamed slot) :
    SlotBooks (s.putSwapNode slot) where
  nodup := by
    have hperm := List.perm_append_singleton slot s.slotFree
    exact hperm.nodup_iff.2 (List.nodup_cons.2 ⟨htaken, hs.nodup⟩)
  bound := fun other hmem => by
    rcases List.mem_append.1 hmem with hfree | hsame
    · exact hs.bound other hfree
    · rw [List.mem_singleton.1 hsame]
      exact hbound
  swapped := fun proc vaddr value hraw => by
    obtain ⟨other, entry, hvalue, hheld⟩ := hs.swapped proc vaddr value hraw
    refine ⟨other, entry, hvalue, { hheld with taken := fun hmem => ?_ }⟩
    rcases List.mem_append.1 hmem with hfree | hsame
    · exact hheld.taken hfree
    · rw [List.mem_singleton.1 hsame] at hvalue
      subst hvalue
      exact hunnamed proc vaddr hraw

theorem setToSwap (hs : SlotBooks s) (entry : Nat) {record : ToSwap}
    (hsnode : record.snode = (s.toSwap entry).snode)
    (hproc : record.proc = (s.toSwap entry).proc)
    (hvaddr : record.swappedAddress = (s.toSwap entry).swappedAddress) :
    SlotBooks (s.setToSwap entry record) :=
  { hs with
    swapped := fun proc vaddr value hraw => by
      obtain ⟨slot, other, hvalue, hheld⟩ := hs.swapped proc vaddr value hraw
      refine ⟨slot, other, hvalue, ?_⟩
      by_cases hother : other = entry
      · subst hother
        constructor <;> simp [Daemon.setToSwap, hsnode, hproc, hvaddr, hheld.bound,
          hheld.taken, hheld.holder, hheld.known, hheld.snode, hheld.proc, hheld.vaddr]
      · constructor <;> simp [Daemon.setToSwap, Function.update_of_ne hother, hheld.bound,
          hheld.taken, hheld.holder, hheld.known, hheld.snode, hheld.proc, hheld.vaddr] }

end SlotBooks

end UserPaging.Usm.Daemon
