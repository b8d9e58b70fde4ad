import Mathlib.Data.List.Perm.Basic
import UserPaging.Usm.History

/-!
# Bookkeeping of pages

`PageBooks` relates the free list, the used list, the address recorded in each
used page and the page tables.  A page may also be in neither list while some
operation holds it.  Every single update of the pool keeps the books under a
condition on the page it moves, so the functions of the daemon are treated by
composing updates.
-/

namespace UserPaging.Usm.Daemon

structure PageBooks (s : Daemon) : Prop where
  freeNodup : s.freeList.Nodup
  usedNodup : s.usedList.Nodup
  disjoint : ∀ frame ∈ s.freeList, frame ∉ s.usedList
  notFree : ∀ proc vaddr frame, s.pageTable proc vaddr = .mapped frame →
    frame ∉ s.freeList
  once : ∀ proc vaddr proc' vaddr' frame, s.pageTable proc vaddr = .mapped frame →
    s.pageTable proc' vaddr' = .mapped frame → proc = proc' ∧ vaddr = vaddr'
  usedOnly : ∀ frame ∈ s.usedList, ∀ proc vaddr, s.pageTable proc vaddr = .mapped frame →
    proc = (s.pages frame).process ∧ vaddr = (s.pages frame).virtualAddress

structure Loose (s : Daemon) (frame : Nat) : Prop where
  notFree : frame ∉ s.freeList
  notUsed : frame ∉ s.usedList
  unmapped : ∀ proc vaddr, s.pageTable proc vaddr ≠ .mapped frame

@[simp] theorem pageTable_setPte (s : Daemon) (proc : Nat) (vaddr : BitVec 64) (pte : Pte)
    (proc' : Nat) (vaddr' : BitVec 64) :
    (s.setPte proc vaddr pte).pageTable proc' vaddr' =
      if proc' = proc ∧ vaddr' = vaddr then pte else s.pageTable proc' vaddr' := by
  simp only [setPte, Function.update_apply]
  by_cases hproc : proc' = proc
  · subst hproc
    simp [Function.update_apply]
  · simp [hproc]

private theorem mapped_of_setPte {s : Daemon} {proc : Nat} {vaddr : BitVec 64} {pte : Pte}
    (hpte : ∀ other, pte ≠ .mapped other) {proc' : Nat} {vaddr' : BitVec 64} {frame : Nat}
    (hmapped : (s.setPte proc vaddr pte).pageTable proc' vaddr' = .mapped frame) :
    s.pageTable proc' vaddr' = .mapped frame ∧ ¬ (proc' = proc ∧ vaddr' = vaddr) := by
  rw [pageTable_setPte] at hmapped
  split at hmapped
  · exact absurd hmapped (hpte frame)
  · exact ⟨hmapped, by assumption⟩

theorem pages_setData_record (s : Daemon) (frame : Nat) (data : PageData) (other : Nat) :
    ((s.setData frame data).pages other).process = (s.pages other).process ∧
      ((s.setData frame data).pages other).virtualAddress =
        (s.pages other).virtualAddress := by
  by_cases hother : other = frame
  · subst hother
    simp [setData]
  · simp [setData, Function.update_of_ne hother]

variable {s : Daemon}

theorem loose_of_setPte {frame : Nat} (hfree : frame ∉ s.freeList)
    (hused : frame ∉ s.usedList) {proc : Nat} {vaddr : BitVec 64}
    (honly : ∀ proc' vaddr', s.pageTable proc' vaddr' = .mapped frame →
      proc' = proc ∧ vaddr' = vaddr) {pte : Pte} (hpte : ∀ other, pte ≠ .mapped other) :
    Loose (s.setPte proc vaddr pte) frame := by
  refine ⟨hfree, hused, fun proc' vaddr' hmapped => ?_⟩
  obtain ⟨hold, hne⟩ := mapped_of_setPte hpte hmapped
  exact hne (honly proc' vaddr' hold)

theorem Loose.only_of_setPte {frame : Nat} (hloose : Loose s frame) {proc : Nat}
    {vaddr : BitVec 64} {pte : Pte} {proc' : Nat} {vaddr' : BitVec 64}
    (hmapped : (s.setPte proc vaddr pte).pageTable proc' vaddr' = .mapped frame) :
    proc' = proc ∧ vaddr' = vaddr := by
  rw [pageTable_setPte] at hmapped
  split at hmapped
  · assumption
  · exact absurd hmapped (hloose.unmapped proc' vaddr')

namespace PageBooks

theorem setup (pagesNumber slots : Nat) (prio : Nat → Int) :
    PageBooks (Daemon.setup pagesNumber slots prio) where
  freeNodup := List.nodup_range
  usedNodup := List.nodup_nil
  disjoint := fun _ _ => List.not_mem_nil
  notFree := fun _ _ _ hmapped => by cases hmapped
  once := fun _ _ _ _ _ hmapped => by cases hmapped
  usedOnly := fun _ hmem => by cases hmem

theorem takeFree (hs : PageBooks s) {frame : Nat} {rest : List Nat}
    (hfree : s.freeList = frame :: rest) :
    PageBooks (s.takeFree rest) ∧ Loose (s.takeFree rest) frame := by
  have hnodup := hs.freeNodup
  rw [hfree, List.nodup_cons] at hnodup
  have hsubset : ∀ other ∈ rest, other ∈ s.freeList := fun other hmem => by
    rw [hfree]
    exact List.mem_cons_of_mem _ hmem
  have hhead : frame ∈ s.freeList := by simp [hfree]
  constructor
  · exact { hs with
      freeNodup := hnodup.2
      disjoint := fun other hmem => hs.disjoint other (hsubset other hmem)
      notFree := fun proc vaddr other hmapped hmem =>
        hs.notFree proc vaddr other hmapped (hsubset other hmem) }
  · exact ⟨hnodup.1, hs.disjoint frame hhead,
      fun proc vaddr hmapped => hs.notFree proc vaddr frame hmapped hhead⟩

theorem setData (hs : PageBooks s) (frame : Nat) (data : PageData) :
    PageBooks (s.setData frame data) :=
  { hs with
    usedOnly := fun other hmem => by
      obtain ⟨hproc, hvaddr⟩ := pages_setData_record s frame data other
      rw [hproc, hvaddr]
      exact hs.usedOnly other hmem }

theorem giveBack (hs : PageBooks s) {frame : Nat} (hloose : Loose s frame)
    {freeList : List Nat} (hperm : freeList.Perm (frame :: s.freeList)) :
    PageBooks (s.giveBack frame freeList) :=
  { hs with
    freeNodup := hperm.nodup_iff.2 (List.nodup_cons.2 ⟨hloose.notFree, hs.freeNodup⟩)
    disjoint := fun other hmem => by
      rcases List.mem_cons.1 (hperm.mem_iff.1 hmem) with rfl | hfree
      · exact hloose.notUsed
      · exact hs.disjoint other hfree
    notFree := fun proc vaddr other hmapped hmem => by
      rcases List.mem_cons.1 (hperm.mem_iff.1 hmem) with rfl | hfree
      · exact hloose.unmapped proc vaddr hmapped
      · exact hs.notFree proc vaddr other hmapped hfree }

theorem setPte_mapped (hs : PageBooks s) {frame : Nat} (hloose : Loose s frame)
    (proc : Nat) (vaddr : BitVec 64) : PageBooks (s.setPte proc vaddr (.mapped frame)) :=
  { hs with
    notFree := fun proc' vaddr' other hmapped => by
      rw [pageTable_setPte] at hmapped
      split at hmapped
      · cases hmapped
        exact hloose.notFree
      · exact hs.notFree proc' vaddr' other hmapped
    once := fun proc₁ vaddr₁ proc₂ vaddr₂ other hfirst hsecond => by
      rw [pageTable_setPte] at hfirst hsecond
      split at hfirst <;> split at hsecond
      · rename_i h₁ h₂
        exact ⟨h₁.1.trans h₂.1.symm, h₁.2.trans h₂.2.symm⟩
      · cases hfirst
        exact absurd hsecond (hloose.unmapped _ _)
      · cases hsecond
        exact absurd hfirst (hloose.unmapped _ _)
      · exact hs.once _ _ _ _ other hfirst hsecond
    usedOnly := fun other hmem proc' vaddr' hmapped => by
      rw [pageTable_setPte] at hmapped
      split at hmapped
      · cases hmapped
        exact absurd hmem hloose.notUsed
      · exact hs.usedOnly other hmem proc' vaddr' hmapped }

theorem addUsed (hs : PageBooks s) {frame : Nat} (hfree : frame ∉ s.freeList)
    (hused : frame ∉ s.usedList)
    (honly : ∀ proc vaddr, s.pageTable proc vaddr = .mapped frame →
      proc = (s.pages frame).process ∧ vaddr = (s.pages frame).virtualAddress)
    {usedList : List Nat} (hperm : usedList.Perm (frame :: s.usedList)) :
    PageBooks (s.setUsed usedList) :=
  { hs with
    usedNodup := hperm.nodup_iff.2 (List.nodup_cons.2 ⟨hused, hs.usedNodup⟩)
    disjoint := fun other hother hmem => by
      rcases List.mem_cons.1 (hperm.mem_iff.1 hmem) with rfl | hmem'
      · exact hfree hother
      · exact hs.disjoint other hother hmem'
    usedOnly := fun other hmem => by
      rcases List.mem_cons.1 (hperm.mem_iff.1 hmem) with rfl | hmem'
      · exact honly
      · exact hs.usedOnly other hmem' }

theorem holdUsed (hs : PageBooks s) {victim : Nat} {rest : List Nat}
    (hused : s.usedList = victim :: rest) :
    PageBooks (s.setUsed rest) ∧ victim ∉ s.freeList ∧ victim ∉ rest := by
  have hnodup := hs.usedNodup
  rw [hused, List.nodup_cons] at hnodup
  have hsubset : ∀ other ∈ rest, other ∈ s.usedList := fun other hmem => by
    rw [hused]
    exact List.mem_cons_of_mem _ hmem
  have hhead : victim ∈ s.usedList := by simp [hused]
  refine ⟨?_, fun hfree => hs.disjoint victim hfree hhead, hnodup.1⟩
  exact { hs with
    usedNodup := hnodup.2
    disjoint := fun other hother hmem => hs.disjoint other hother (hsubset other hmem)
    usedOnly := fun other hmem => hs.usedOnly other (hsubset other hmem) }

theorem unmap (hs : PageBooks s) {pageTable : Nat → BitVec 64 → Pte}
    (hfewer : ∀ proc vaddr frame, pageTable proc vaddr = .mapped frame →
      s.pageTable proc vaddr = .mapped frame) :
    PageBooks { s with pageTable := pageTable } :=
  { hs with
    notFree := fun proc vaddr frame hmapped =>
      hs.notFree proc vaddr frame (hfewer proc vaddr frame hmapped)
    once := fun _ _ _ _ frame hfirst hsecond =>
      hs.once _ _ _ _ frame (hfewer _ _ _ hfirst) (hfewer _ _ _ hsecond)
    usedOnly := fun frame hmem proc vaddr hmapped =>
      hs.usedOnly frame hmem proc vaddr (hfewer proc vaddr frame hmapped) }

theorem setPte_unmapped (hs : PageBooks s) (proc : Nat) (vaddr : BitVec 64) {pte : Pte}
    (hpte : ∀ frame, pte ≠ .mapped frame) : PageBooks (s.setPte proc vaddr pte) :=
  hs.unmap fun _ _ _ hmapped => (mapped_of_setPte hpte hmapped).1

theorem linkLoose (hs : PageBooks s) {frame : Nat} (hused : frame ∉ s.usedList)
    (vaddr : BitVec 64) (proc : Nat) : PageBooks (s.linkPage frame vaddr proc) :=
  { hs with
    usedOnly := fun other hmem => by
      have hother : other ≠ frame := fun hsame => hused (hsame ▸ hmem)
      simpa [linkPage, Function.update_of_ne hother] using hs.usedOnly other hmem }

private theorem eraseUsed (hs : PageBooks s) (frame : Nat) :
    PageBooks (s.setUsed (s.usedList.erase frame)) :=
  { hs with
    usedNodup := hs.usedNodup.erase frame
    disjoint := fun other hother hmem => hs.disjoint other hother (List.mem_of_mem_erase hmem)
    usedOnly := fun other hmem => hs.usedOnly other (List.mem_of_mem_erase hmem) }

theorem free (hs : PageBooks s) {proc : Nat} {vaddr : BitVec 64} {frame : Nat}
    (hmapped : s.pageTable proc vaddr = .mapped frame) :
    PageBooks ((s.setPte proc vaddr .empty).pindexFree frame) := by
  have hfree := hs.notFree proc vaddr frame hmapped
  have hgone : frame ∉ s.usedList.erase frame := by
    rw [hs.usedNodup.mem_erase_iff]
    simp
  have hcleared := (hs.eraseUsed frame).setPte_unmapped proc vaddr
    (by simp : ∀ other, Pte.empty ≠ .mapped other)
  have hloose : Loose ((s.setUsed (s.usedList.erase frame)).setPte proc vaddr .empty) frame :=
    loose_of_setPte (s := s.setUsed (s.usedList.erase frame)) hfree hgone
      (fun _ _ hother => hs.once _ _ _ _ frame hother hmapped) (by simp)
  have hzeroed := (hcleared.setData frame 0).linkLoose hgone 0 0
  have hperm : (s.freeList.erase frame ++ [frame]).Perm (frame :: s.freeList) := by
    rw [List.erase_of_not_mem hfree]
    exact List.perm_append_singleton frame s.freeList
  exact hzeroed.giveBack ⟨hloose.notFree, hloose.notUsed, hloose.unmapped⟩ hperm

end PageBooks

end UserPaging.Usm.Daemon
