import UserPaging.Usm.DefaultPolicy

/-!
# No frame is shared or lost

Most steps hand pages over from one place to another and leave their bookings as they
are.  The page tables and the bookings change together: the kernel's answer books the
page, a free notification ends the booking.
-/

namespace UserPaging.Usm.DefaultPolicy

open UserPaging.Foundation

variable {Op : Type*}

/-! ## Handing pages over -/

def poolTotal (lists : PoolLists) : BitVec 64 :=
  lists.usedMemory + pageSize * BitVec.ofNat 64 lists.freeList.length

structure Handover (s s' : State Op) (source dest : Place Op) (moved : List Nat) : Prop where
  move : Partition.Move s.contents s'.contents source dest moved
  booked_moved : ∀ page ∈ moved, s'.bookedAt page dest = s.bookedAt page source
  booked_rest : ∀ place, ∀ page ∈ s.contents place, page ∉ moved →
    s'.bookedAt page place = s.bookedAt page place
  pageTable : s'.pageTable = s.pageTable
  freed : s'.freed = s.freed
  total : poolTotal s'.lists = poolTotal s.lists

section

variable {s s' : State Op} {source dest : Place Op} {moved : List Nat} {pool : Pool}
  {paddr : BitVec 64} {mapping : PageNode}

private theorem Handover.booked_iff (hhandover : Handover s s' source dest moved) {all : Set Nat}
    (hpart : Partition s.contents all) :
    s'.Booked pool paddr mapping ↔ s.Booked pool paddr mapping := by
  constructor
  · rintro ⟨place, page, hmem, hpfn, hbooked⟩
    rcases (hhandover.move.mem_iff hpart place page).1 hmem with ⟨hmoved, rfl⟩ | ⟨hnot, hin⟩
    · rw [hhandover.booked_moved page hmoved] at hbooked
      exact ⟨source, page, hhandover.move.mem_source hmoved, hpfn, hbooked⟩
    · rw [hhandover.booked_rest place page hin hnot] at hbooked
      exact ⟨place, page, hin, hpfn, hbooked⟩
  · rintro ⟨place, page, hmem, hpfn, hbooked⟩
    by_cases hmoved : page ∈ moved
    · obtain rfl := hpart.disjoint hmem (hhandover.move.mem_source hmoved)
      rw [← hhandover.booked_moved page hmoved] at hbooked
      exact ⟨dest, page, (hhandover.move.mem_iff hpart dest page).2 (.inl ⟨hmoved, rfl⟩), hpfn,
        hbooked⟩
    · rw [← hhandover.booked_rest place page hmem hmoved] at hbooked
      exact ⟨place, page, (hhandover.move.mem_iff hpart place page).2 (.inr ⟨hmoved, hmem⟩), hpfn,
        hbooked⟩

private theorem booked_iff_of_bookedAt (hcontents : s'.contents = s.contents)
    (hbookedAt : ∀ place, ∀ page ∈ s.contents place,
      s'.bookedAt page place = s.bookedAt page place) :
    s'.Booked pool paddr mapping ↔ s.Booked pool paddr mapping := by
  simp only [State.Booked, hcontents]
  constructor
  · rintro ⟨place, page, hmem, hpfn, hbooked⟩
    rw [hbookedAt place page hmem] at hbooked
    exact ⟨place, page, hmem, hpfn, hbooked⟩
  · rintro ⟨place, page, hmem, hpfn, hbooked⟩
    rw [← hbookedAt place page hmem] at hbooked
    exact ⟨place, page, hmem, hpfn, hbooked⟩

private theorem bookedAt_of_record {page : Nat} (hpoint : s'.point = s.point)
    (hrecord : s'.lists.pages page = s.lists.pages page) (place : Place Op) :
    s'.bookedAt page place = s.bookedAt page place := by
  cases place with
  | free => rfl
  | used => simp [State.bookedAt, hrecord]
  | held op =>
      simp only [State.bookedAt, hpoint]
      cases s.point op <;> simp [OpPoint.booking, hrecord]

end

section

variable [DecidableEq Op] {s : State Op} {op : Op} {point : OpPoint} {place : Place Op}

private theorem contents_goto_self : (s.goto op point).contents (.held op) = point.pages := by
  simp [State.goto, State.contents]

private theorem contents_goto_of_ne (hplace : place ≠ .held op) :
    (s.goto op point).contents place = s.contents place := by
  cases place with
  | free | used => rfl
  | held other =>
      have hother : other ≠ op := by
        rintro rfl
        exact hplace rfl
      simp [State.goto, State.contents, hother]

private theorem bookedAt_goto_self (page : Nat) :
    (s.goto op point).bookedAt page (.held op) = point.booking s.lists.pages page := by
  simp [State.goto, State.bookedAt]

private theorem bookedAt_goto_of_ne (hplace : place ≠ .held op) (page : Nat) :
    (s.goto op point).bookedAt page place = s.bookedAt page place := by
  cases place with
  | free | used => rfl
  | held other =>
      have hother : other ≠ op := by
        rintro rfl
        exact hplace rfl
      simp [State.goto, State.bookedAt, hother]

private theorem contents_lists_goto {lists : PoolLists} (hplace : place ≠ .held op)
    (hfree : place = .free → lists.freeList = s.lists.freeList)
    (hused : place = .used → lists.usedList = s.lists.usedList) :
    ({ s with lists := lists }.goto op point).contents place = s.contents place := by
  rw [contents_goto_of_ne hplace]
  cases place with
  | free => exact hfree rfl
  | used => exact hused rfl
  | held => rfl

private theorem bookedAt_lists_goto {lists : PoolLists} (hplace : place ≠ .held op)
    (hpages : lists.pages = s.lists.pages) (page : Nat) :
    ({ s with lists := lists }.goto op point).bookedAt page place = s.bookedAt page place := by
  rw [bookedAt_goto_of_ne hplace]
  apply bookedAt_of_record
  · rfl
  · rw [hpages]

private theorem contents_goto_of_pages {s' : State Op} (hcontents : s'.contents = s.contents)
    (hpages : point.pages = s.contents (.held op)) :
    (s'.goto op point).contents = s.contents := by
  funext place
  by_cases hheld : place = .held op
  · subst hheld
    rw [contents_goto_self, hpages]
  · rw [contents_goto_of_ne hheld, hcontents]

private theorem handover_take {taken rest : List Nat} {usedMemory : BitVec 64}
    (hfree : s.lists.freeList = taken ++ rest)
    (hpages : point.pages.Perm (taken ++ (s.point op).pages))
    (hbefore : ∀ page, (s.point op).booking s.lists.pages page = none)
    (hafter : ∀ page, point.booking s.lists.pages page = none)
    (hmemory : usedMemory = s.lists.usedMemory + pageSize * BitVec.ofNat 64 taken.length) :
    Handover s
      ({ s with
        lists := { s.lists with freeList := rest, usedMemory := usedMemory } }.goto op point)
      .free (.held op) taken where
  move :=
    { ne := by simp
      leaves := by
        rw [contents_goto_of_ne (by simp)]
        exact .of_eq hfree
      enters := by
        rw [contents_goto_self]
        exact hpages
      others := fun place hfree hheld =>
        contents_lists_goto hheld (fun h => absurd h hfree) fun _ => rfl }
  booked_moved := fun page _ => by
    rw [bookedAt_goto_self]
    exact hafter page
  booked_rest := by
    intro place page _ _
    by_cases hheld : place = .held op
    · subst hheld
      rw [bookedAt_goto_self]
      exact (hafter page).trans (hbefore page).symm
    · exact bookedAt_lists_goto hheld rfl page
  pageTable := rfl
  freed := rfl
  total := by
    simp only [poolTotal, State.goto, hmemory, hfree, List.length_append, BitVec.ofNat_add,
      BitVec.mul_add]
    grind

private theorem handover_put {freeList : List Nat} {usedMemory : BitVec 64}
    (hfree : freeList.Perm ((s.point op).pages ++ s.lists.freeList))
    (hpages : point.pages = [])
    (hbefore : ∀ page, (s.point op).booking s.lists.pages page = none)
    (hmemory : usedMemory =
      s.lists.usedMemory - pageSize * BitVec.ofNat 64 (s.point op).pages.length) :
    Handover s
      ({ s with
        lists := { s.lists with freeList := freeList, usedMemory := usedMemory } }.goto op point)
      (.held op) .free (s.point op).pages where
  move :=
    { ne := by simp
      leaves := by
        rw [contents_goto_self, hpages, List.append_nil]
        exact .refl _
      enters := by
        rw [contents_goto_of_ne (by simp)]
        exact hfree
      others := fun place hheld hfree =>
        contents_lists_goto hheld (fun h => absurd h hfree) fun _ => rfl }
  booked_moved := fun page _ => (hbefore page).symm
  booked_rest := by
    intro place page hin hnot
    have hheld : place ≠ .held op := by
      rintro rfl
      exact hnot hin
    exact bookedAt_lists_goto hheld rfl _
  pageTable := rfl
  freed := rfl
  total := by
    simp only [poolTotal, State.goto, hmemory, hfree.length_eq, List.length_append,
      BitVec.ofNat_add, BitVec.mul_add]
    grind

private theorem handover_addUsed {page ret : Nat} (hpoint : s.point op = .addUsed page) :
    Handover s
      ({ s with lists := { s.lists with usedList := s.lists.usedList ++ [page] } }.goto op
        (.returned ret))
      (.held op) .used [page] where
  move :=
    { ne := by simp
      leaves := by
        rw [contents_goto_self]
        simp [State.contents, hpoint, OpPoint.pages]
      enters := by
        rw [contents_goto_of_ne (by simp)]
        exact List.perm_append_comm
      others := fun place hheld hused =>
        contents_lists_goto hheld (fun _ => rfl) fun h => absurd h hused }
  booked_moved := by
    intro other hother
    rw [bookedAt_goto_of_ne (by simp)]
    simp [State.bookedAt, hpoint, OpPoint.booking]
  booked_rest := by
    intro place other hin hnot
    have hheld : place ≠ .held op := by
      rintro rfl
      simp only [State.contents, hpoint, OpPoint.pages] at hin
      exact hnot hin
    exact bookedAt_lists_goto hheld rfl _
  pageTable := rfl
  freed := rfl
  total := rfl

end

/-! ## The invariant -/

structure Invariant (pool : Pool) (s : State Op) : Prop where
  partition : Partition s.contents {page | page < pool.pagesNumber}
  ledger : Ledger (s.Booked pool) s.pageTable s.freed
  total : poolTotal s.lists = pageSize * BitVec.ofNat 64 pool.pagesNumber
  submitted : ∀ op page event, s.point op = .submit page event → event.paddr = pool.pfn page

private theorem invariant_setup (pool : Pool) : Invariant pool (setup pool : State Op) where
  partition :=
    { nodup := by
        intro place
        cases place with
        | free => exact List.nodup_range
        | used | held => exact List.nodup_nil
      disjoint := by
        intro place other page hplace hother
        cases place <;> cases other <;> first | rfl | cases hplace | cases hother
      mem_iff := by
        intro page
        constructor
        · intro hpage
          exact ⟨.free, List.mem_range.2 hpage⟩
        · rintro ⟨place, hplace⟩
          cases place with
          | free => exact List.mem_range.1 hplace
          | used | held => cases hplace }
  ledger := by
    have hnone : ∀ paddr mapping, ¬ (setup pool : State Op).Booked pool paddr mapping := by
      rintro paddr mapping ⟨place, page, hmem, -, hbooked⟩
      cases place with
      | free => cases hbooked
      | used | held => cases hmem
    exact
      { unique := fun hbooked => absurd hbooked (hnone _ _)
        booked_of_mapped := fun hmapped => by cases hmapped
        mapped_of_booked := fun hbooked => absurd hbooked (hnone _ _)
        booked_of_freed := fun hfreed => by cases hfreed
        unmapped_of_freed := fun hfreed => by cases hfreed }
  total := by simp [poolTotal, setup]
  submitted := fun op page event hpoint => by cases hpoint

namespace Invariant

variable {pool : Pool} {s s' : State Op}

private theorem lt (hinv : Invariant pool s) {place : Place Op} {page : Nat}
    (hmem : page ∈ s.contents place) : page < pool.pagesNumber :=
  (hinv.partition.mem_iff page).2 ⟨place, hmem⟩

private theorem booked_pfn_iff (hinv : Invariant pool s) {place : Place Op} {page : Nat}
    {mapping : PageNode} (hmem : page ∈ s.contents place) :
    s.Booked pool (pool.pfn page) mapping ↔ s.bookedAt page place = some mapping := by
  constructor
  · rintro ⟨other, page', hother, hpfn, hbooked⟩
    obtain rfl := pfn_inj (hinv.lt hother) (hinv.lt hmem) hpfn
    obtain rfl := hinv.partition.disjoint hmem hother
    exact hbooked
  · intro hbooked
    exact ⟨place, page, hmem, rfl, hbooked⟩

private theorem handover {source dest : Place Op} {moved : List Nat} (hinv : Invariant pool s)
    (hhandover : Handover s s' source dest moved)
    (hsubmitted : ∀ op page event, s'.point op = .submit page event →
      event.paddr = pool.pfn page) : Invariant pool s' where
  partition := hinv.partition.move hhandover.move
  ledger := by
    rw [hhandover.pageTable, hhandover.freed]
    exact hinv.ledger.congr fun _ _ => hhandover.booked_iff hinv.partition
  total := hhandover.total.trans hinv.total
  submitted := hsubmitted

private theorem in_place (hinv : Invariant pool s) (hcontents : s'.contents = s.contents)
    (hledger : Ledger (s'.Booked pool) s'.pageTable s'.freed)
    (htotal : poolTotal s'.lists = poolTotal s.lists)
    (hsubmitted : ∀ op page event, s'.point op = .submit page event →
      event.paddr = pool.pfn page) : Invariant pool s' where
  partition := by
    rw [hcontents]
    exact hinv.partition
  ledger := hledger
  total := htotal.trans hinv.total
  submitted := hsubmitted

private theorem unmap {mapping : PageNode} {paddr : BitVec 64} (hinv : Invariant pool s)
    (hmapped : s.pageTable mapping = some paddr) :
    Invariant pool
      { s with
        pageTable := Function.update s.pageTable mapping none
        freed := Function.update s.freed paddr true } :=
  hinv.in_place rfl (hinv.ledger.unmap hmapped) rfl hinv.submitted

private theorem used_of_freed {paddr : BitVec 64} (hinv : Invariant pool s)
    (hfreed : s.freed paddr = true) (hafter : FreedAfterAlloc pool s (.pindexFree paddr)) :
    ∃ page ∈ s.lists.usedList, pool.pfn page = paddr := by
  obtain ⟨mapping, place, page, hmem, hpfn, hbooked⟩ := hinv.ledger.booked_of_freed hfreed
  cases place with
  | free => cases hbooked
  | used => exact ⟨page, hmem, hpfn⟩
  | held op => exact absurd hpfn (hafter op page hmem)

private theorem move_collect (paddr : BitVec 64) {page : Nat} (hinv : Invariant pool s)
    (hused : page ∈ s.lists.usedList) :
    Partition.Move s.contents (DefaultPolicy.collect s paddr page).contents .used .free [page] where
  ne := by simp
  leaves := List.perm_cons_erase hused
  enters := by
    have hfree : page ∉ s.lists.freeList := by
      intro hfree
      have hplace := hinv.partition.disjoint (show page ∈ s.contents .free from hfree)
        (show page ∈ s.contents .used from hused)
      cases hplace
    simp only [State.contents, DefaultPolicy.collect, List.erase_of_not_mem hfree]
    exact List.perm_append_comm
  others := by
    intro place hplace hother
    cases place with
    | free => exact absurd rfl hother
    | used => exact absurd rfl hplace
    | held => rfl

private theorem collect {paddr : BitVec 64} {page : Nat} (hinv : Invariant pool s)
    (hfreed : s.freed paddr = true) (hused : page ∈ s.lists.usedList)
    (hpfn : pool.pfn page = paddr) : Invariant pool (DefaultPolicy.collect s paddr page) where
  partition := hinv.partition.move (hinv.move_collect paddr hused)
  ledger := by
    refine hinv.ledger.release hfreed ?_
    intro paddr' mapping
    have hmem := (hinv.move_collect paddr hused).mem_iff hinv.partition
    have hrecord : ∀ other, other ≠ page → ∀ place,
        (DefaultPolicy.collect s paddr page).bookedAt other place = s.bookedAt other place :=
      fun other hother => bookedAt_of_record rfl (Function.update_of_ne hother ..)
    constructor
    · rintro ⟨place, other, hin, rfl, hbooked⟩
      rcases (hmem place other).1 hin with ⟨-, rfl⟩ | ⟨hnot, hin⟩
      · cases hbooked
      · have hother : other ≠ page := by simpa using hnot
        rw [hrecord other hother] at hbooked
        refine ⟨⟨place, other, hin, rfl, hbooked⟩, ?_⟩
        intro hsame
        have hlt := hinv.lt (show page ∈ s.contents .used from hused)
        exact hother (pfn_inj (hinv.lt hin) hlt (hsame.trans hpfn.symm))
    · rintro ⟨⟨place, other, hin, rfl, hbooked⟩, hne⟩
      have hother : other ≠ page := by
        rintro rfl
        exact hne hpfn
      rw [← hrecord other hother] at hbooked
      exact ⟨place, other, (hmem place other).2 (.inr ⟨by simpa using hother, hin⟩), rfl, hbooked⟩
  total := by
    have hfree := (hinv.move_collect paddr hused).enters.length_eq
    rw [← hinv.total]
    simp only [State.contents, List.length_append, List.length_singleton] at hfree
    simp only [poolTotal, hfree]
    simp only [DefaultPolicy.collect, BitVec.ofNat_add, BitVec.mul_add]
    grind
  submitted := hinv.submitted

variable [DecidableEq Op] {op : Op} {point : OpPoint}

private theorem submitted_goto (hinv : Invariant pool s) (hpoints : s'.point = s.point)
    (hpoint : ∀ page event, point = .submit page event → event.paddr = pool.pfn page) :
    ∀ other page event, (s'.goto op point).point other = .submit page event →
      event.paddr = pool.pfn page := by
  intro other page event hsubmit
  by_cases hother : other = op
  · subst hother
    simp only [State.goto, Function.update_self] at hsubmit
    exact hpoint page event hsubmit
  · simp only [State.goto, Function.update_of_ne hother, hpoints] at hsubmit
    exact hinv.submitted other page event hsubmit

private theorem goto (hinv : Invariant pool s) (hpages : point.pages = (s.point op).pages)
    (hbooking : ∀ page, point.booking s.lists.pages page =
      (s.point op).booking s.lists.pages page)
    (hpoint : ∀ page event, point = .submit page event → event.paddr = pool.pfn page) :
    Invariant pool (s.goto op point) := by
  have hcontents : (s.goto op point).contents = s.contents := contents_goto_of_pages rfl hpages
  refine hinv.in_place hcontents (hinv.ledger.congr ?_) rfl (hinv.submitted_goto rfl hpoint)
  intro paddr mapping
  refine booked_iff_of_bookedAt hcontents ?_
  intro place page _
  by_cases hplace : place = .held op
  · subst hplace
    rw [bookedAt_goto_self, hbooking]
    rfl
  · exact bookedAt_goto_of_ne hplace page

private theorem applied {page : Nat} {event : Event} (hinv : Invariant pool s)
    (hpoint : s.point op = .submit page event) (hempty : s.pageTable (mappingOf event) = none) :
    Invariant pool ((s.install event).goto op (.link page event)) := by
  have hheld : s.contents (.held op) = [page] := by simp [State.contents, hpoint, OpPoint.pages]
  have hunbooked : ∀ other, s.bookedAt other (.held op) = none := fun other => by
    simp [State.bookedAt, hpoint, OpPoint.booking]
  have hcontents : ((s.install event).goto op (.link page event)).contents = s.contents :=
    contents_goto_of_pages rfl hheld.symm
  refine hinv.in_place hcontents ?_ rfl (hinv.submitted_goto rfl (by simp))
  have hinstall : ((s.install event).goto op (.link page event)).pageTable =
      Function.update s.pageTable (mappingOf event) (some (pool.pfn page)) := by
    rw [← hinv.submitted op page event hpoint]
    rfl
  rw [hinstall]
  refine hinv.ledger.install ?_ hempty ?_
  · intro mapping hbooked
    rw [hinv.booked_pfn_iff (hheld ▸ List.mem_singleton_self page), hunbooked] at hbooked
    cases hbooked
  · intro paddr mapping
    constructor
    · rintro ⟨place, other, hmem, rfl, hbooked⟩
      rw [hcontents] at hmem
      by_cases hplace : place = .held op
      · subst hplace
        rw [hheld, List.mem_singleton] at hmem
        rw [bookedAt_goto_self, OpPoint.booking, Option.some.injEq] at hbooked
        exact .inr ⟨hmem ▸ rfl, hbooked.symm⟩
      · rw [bookedAt_goto_of_ne hplace] at hbooked
        exact .inl ⟨place, other, hmem, rfl, hbooked⟩
    · rintro (⟨place, other, hmem, rfl, hbooked⟩ | ⟨rfl, rfl⟩)
      · have hplace : place ≠ .held op := by
          rintro rfl
          rw [hunbooked] at hbooked
          cases hbooked
        refine ⟨place, other, hcontents ▸ hmem, rfl, ?_⟩
        rw [bookedAt_goto_of_ne hplace]
        exact hbooked
      · refine ⟨.held op, page, ?_, rfl, ?_⟩
        · rw [hcontents, hheld]
          exact List.mem_singleton_self page
        · rw [bookedAt_goto_self, OpPoint.booking]

private theorem link {page : Nat} {event : Event} (hinv : Invariant pool s)
    (hpoint : s.point op = .link page event) :
    Invariant pool ((s.linkPage page event).goto op (.addUsed page)) := by
  have hheld : s.contents (.held op) = [page] := by simp [State.contents, hpoint, OpPoint.pages]
  have hcontents : ((s.linkPage page event).goto op (.addUsed page)).contents = s.contents :=
    contents_goto_of_pages rfl hheld.symm
  refine hinv.in_place hcontents (hinv.ledger.congr ?_) rfl (hinv.submitted_goto rfl (by simp))
  intro paddr mapping
  refine booked_iff_of_bookedAt hcontents ?_
  intro place other hother
  by_cases hplace : place = .held op
  · subst hplace
    rw [hheld, List.mem_singleton] at hother
    rw [bookedAt_goto_self]
    simp [State.bookedAt, OpPoint.booking, State.linkPage, hpoint, hother]
  · -- the record of another page is not touched
    have hne : other ≠ page := by
      rintro rfl
      exact hplace (hinv.partition.disjoint hother (hheld ▸ List.mem_singleton_self other))
    rw [bookedAt_goto_of_ne hplace]
    apply bookedAt_of_record
    · rfl
    · exact Function.update_of_ne hne ..

end Invariant

private theorem eventToPage_pfn {pool : Pool} {page other : Nat} (hpage : page < pool.pagesNumber)
    (hother : eventToPage pool (pool.pfn page) = some other) : other = page := by
  simp only [eventToPage, Option.ite_none_left_eq_some, Option.some.injEq] at hother
  obtain ⟨-, rfl⟩ := hother
  have := pool.pagesNumber_lt
  rw [BitVec.toNat_sub, toNat_pfn]
  omega

/-! ## Steps -/

private theorem placeholder_eq_some {point : OpPoint} {placeholder : List Nat}
    (hpoint : point.placeholder = some placeholder) :
    point.pages = placeholder ∧ ∀ pages page, point.booking pages page = none := by
  cases point <;> simp_all [OpPoint.placeholder, OpPoint.pages, OpPoint.booking]

namespace Invariant

variable [DecidableEq Op] {pool : Pool} {globalPageSize : BitVec 32} {s : State Op} {op : Op}

private theorem allocate (hinv : Invariant pool s) (hsize : globalPageSize.setWidth 64 = pageSize)
    {ret : Nat} (hpoint : s.point op = .returned ret) (event : Event) :
    Invariant pool (DefaultPolicy.allocate pool globalPageSize s op event) := by
  rw [DefaultPolicy.allocate]
  cases hfree : s.lists.freeList with
  | nil =>
      refine hinv.goto ?_ ?_ (by simp)
      · rw [hpoint, OpPoint.pages, OpPoint.pages]
      · intro page
        rw [hpoint, OpPoint.booking, OpPoint.booking]
  | cons page rest =>
      have htake : s.lists.freeList = [page] ++ rest := hfree
      refine hinv.handover (handover_take htake ?_ ?_ ?_ ?_) (hinv.submitted_goto rfl ?_)
      · simp [hpoint, OpPoint.pages]
      · simp [hpoint, OpPoint.booking]
      · simp [OpPoint.booking]
      · simp [hsize]
      · rintro page' event' hsubmit
        cases hsubmit
        rfl

private theorem undo (hinv : Invariant pool s) (hsize : globalPageSize.setWidth 64 = pageSize)
    {page res : Nat} (hpoint : s.point op = .undo page res) :
    Invariant pool
      ({ s with
        lists :=
          { s.lists with
            freeList := page :: s.lists.freeList
            usedMemory := s.lists.usedMemory - globalPageSize.setWidth 64 } }.goto op
        (.returned res)) := by
  refine hinv.handover (handover_put ?_ ?_ ?_ ?_) (hinv.submitted_goto rfl (by simp))
  · simp [hpoint, OpPoint.pages]
  · rfl
  · simp [hpoint, OpPoint.booking]
  · simp [hpoint, OpPoint.pages, hsize]

private theorem pickPages {placeholder : List Nat} (hinv : Invariant pool s) (nr : Nat)
    (hpoint : (s.point op).placeholder = some placeholder) :
    Invariant pool
      ({ s with lists := (DefaultPolicy.pickPages nr s.lists placeholder).1 }.goto op
        (.holding (DefaultPolicy.pickPages nr s.lists placeholder).2)) := by
  obtain ⟨hpages, hbooking⟩ := placeholder_eq_some hpoint
  rw [pickPages_eq]
  have htake := (List.take_append_drop nr s.lists.freeList).symm
  refine hinv.handover (handover_take htake ?_ ?_ ?_ rfl) (hinv.submitted_goto rfl (by simp))
  · rw [OpPoint.pages, hpages]
    exact (List.reverse_perm _).append_right _
  · exact hbooking _
  · simp [OpPoint.booking]

private theorem giveBackPages {placeholder : List Nat} (hinv : Invariant pool s)
    (hpoint : (s.point op).placeholder = some placeholder) :
    Invariant pool
      ({ s with lists := DefaultPolicy.giveBackPages placeholder s.lists }.goto op
        (.returned 0)) := by
  obtain ⟨hpages, hbooking⟩ := placeholder_eq_some hpoint
  rw [giveBackPages_eq_putPages]
  refine hinv.handover (handover_put ?_ rfl ?_ ?_) (hinv.submitted_goto rfl (by simp))
  · rw [hpages]
    exact List.perm_append_comm
  · exact hbooking _
  · rw [hpages]

private theorem step {label : Label Op} {next : State Op}
    (hsize : globalPageSize.setWidth 64 = pageSize)
    (hinv : Invariant pool s) (hafter : FreedAfterAlloc pool s label)
    (hstep : DefaultPolicy.step pool globalPageSize s label = some next) :
    Invariant pool next := by
  cases label with
  | alloc op event =>
      simp only [DefaultPolicy.step] at hstep
      split at hstep
      next ret hpoint =>
        cases hstep
        exact hinv.allocate hsize hpoint event
      next => cases hstep
  | submit op reply =>
      simp only [DefaultPolicy.step] at hstep
      split at hstep
      next page event hpoint =>
        split at hstep
        · split at hstep
          next hempty =>
            cases hstep
            exact hinv.applied hpoint hempty
          next => cases hstep
        · obtain ⟨res, -, rfl⟩ := Option.map_eq_some_iff.1 hstep
          refine hinv.goto ?_ ?_ (by simp)
          · rw [hpoint, OpPoint.pages, OpPoint.pages]
          · intro page
            rw [hpoint, OpPoint.booking, OpPoint.booking]
      next => cases hstep
  | undo op =>
      simp only [DefaultPolicy.step] at hstep
      split at hstep
      next page res hpoint =>
        cases hstep
        exact hinv.undo hsize hpoint
      next => cases hstep
  | link op =>
      simp only [DefaultPolicy.step] at hstep
      split at hstep
      next page event hpoint =>
        cases hstep
        exact hinv.link hpoint
      next => cases hstep
  | addUsed op =>
      simp only [DefaultPolicy.step] at hstep
      split at hstep
      next page hpoint =>
        cases hstep
        exact hinv.handover (handover_addUsed hpoint) (hinv.submitted_goto rfl (by simp))
      next => cases hstep
  | pickPages op nr =>
      obtain ⟨placeholder, hpoint, rfl⟩ := Option.map_eq_some_iff.1 hstep
      exact hinv.pickPages nr.toNat hpoint
  | giveBackPages op =>
      obtain ⟨placeholder, hpoint, rfl⟩ := Option.map_eq_some_iff.1 hstep
      exact hinv.giveBackPages hpoint
  | unmap mapping =>
      obtain ⟨paddr, hmapped, rfl⟩ := Option.map_eq_some_iff.1 hstep
      exact hinv.unmap hmapped
  | pindexFree paddr =>
      simp only [DefaultPolicy.step] at hstep
      split at hstep
      next hfreed =>
        split at hstep
        next =>
          cases hstep
          exact hinv
        next page hpage =>
          cases hstep
          obtain ⟨used, hused, rfl⟩ := hinv.used_of_freed hfreed hafter
          have hlt := hinv.lt (show used ∈ s.contents .used from hused)
          obtain rfl := eventToPage_pfn hlt hpage
          exact hinv.collect hfreed hused rfl
      next => cases hstep

end Invariant

/-! ## Every run -/

/-- A page is in one place at a time, there once, and mapped at one address at most. -/
structure FramesKept (pool : Pool) (s : State Op) : Prop where
  one_place : ∀ page, page < pool.pagesNumber → ∃! place, page ∈ s.contents place
  once : ∀ place, (s.contents place).Nodup
  one_address : ∀ paddr mapping other, s.pageTable mapping = some paddr →
    s.pageTable other = some paddr → mapping = other
  free_unmapped : ∀ page ∈ s.lists.freeList, ∀ mapping,
    s.pageTable mapping ≠ some (pool.pfn page)
  recorded : ∀ page ∈ s.lists.usedList, ∀ mapping,
    s.pageTable mapping = some (pool.pfn page) → s.lists.pages page = mapping
  mapped : ∀ page ∈ s.lists.usedList, s.freed (pool.pfn page) = false →
    s.pageTable (s.lists.pages page) = some (pool.pfn page)
  used_memory : s.lists.usedMemory.toNat =
    4096 * (List.range pool.pagesNumber).countP (· ∉ s.lists.freeList)

private theorem Invariant.framesKept {pool : Pool} {s : State Op} (hinv : Invariant pool s) :
    FramesKept pool s where
  one_place := fun _ hpage => hinv.partition.existsUnique hpage
  once := hinv.partition.nodup
  one_address := fun _ _ _ => hinv.ledger.key_unique
  free_unmapped := by
    intro page hfree mapping hmapped
    have hbooked := hinv.ledger.booked_of_mapped hmapped
    rw [hinv.booked_pfn_iff (show page ∈ s.contents .free from hfree)] at hbooked
    cases hbooked
  recorded := by
    intro page hused mapping hmapped
    have hbooked := hinv.ledger.booked_of_mapped hmapped
    rw [hinv.booked_pfn_iff (show page ∈ s.contents .used from hused)] at hbooked
    exact Option.some.inj hbooked
  mapped := by
    intro page hused hnot
    have hmem : page ∈ s.contents .used := hused
    exact hinv.ledger.mapped_of_booked ((hinv.booked_pfn_iff hmem).2 rfl) hnot
  used_memory := by
    have hcount : (List.range pool.pagesNumber).countP (· ∉ s.lists.freeList) +
        s.lists.freeList.length = pool.pagesNumber :=
      hinv.partition.countP_not_mem_add_length .free
    have htotal := congrArg BitVec.toNat hinv.total
    have hlt := pool.pagesNumber_lt
    have hbound := s.lists.usedMemory.isLt
    have hsize : pageSize.toNat = 4096 := rfl
    simp only [poolTotal, BitVec.toNat_add, BitVec.toNat_mul, BitVec.toNat_ofNat, hsize] at htotal
    omega

theorem frames_kept [DecidableEq Op] (pool : Pool) (globalPageSize : BitVec 32)
    (hsize : globalPageSize = 4096) (labels : List (Label Op)) (s : State Op)
    (hafter : StepsMeet (step pool globalPageSize) (FreedAfterAlloc pool) (setup pool) labels)
    (hrun : run (step pool globalPageSize) (setup pool) labels = some s) : FramesKept pool s := by
  have hwidth : globalPageSize.setWidth 64 = pageSize := by
    rw [hsize]
    rfl
  have hinv : Invariant pool s :=
    run_invariant_of_meets (fun _ _ _ hinv hcond hstep => hinv.step hwidth hcond hstep)
      (invariant_setup pool) hafter hrun
  exact hinv.framesKept

/-- One uthread maps a page while the request of another is refused; the page is then
unmapped and collected, and the other uthread borrows pages for swapping. -/
def allocAndCollect : List (Label Bool) :=
  let event : Event := ⟨3, 0x7000, 0, 0, 0, 0⟩
  [.alloc true event, .alloc false event, .submit true .applied, .submit false .alreadyMapped,
    .link true, .undo false, .addUsed true, .pickPages false 2, .unmap ⟨0x7000, 3⟩,
    .pindexFree 64, .giveBackPages false]

def threePages : Pool := ⟨64, 3, by decide⟩

theorem frames_kept_allocAndCollect :
    StepsMeet (step threePages 4096) (FreedAfterAlloc threePages) (setup threePages)
        allocAndCollect ∧
      (run (step threePages 4096) (setup threePages) allocAndCollect).map
        (fun s => s.lists.freeList) = some [0, 2, 1] ∧
      ∀ s, run (step threePages 4096) (setup threePages) allocAndCollect = some s →
        FramesKept threePages s := by
  have hafter : StepsMeet (step threePages 4096) (FreedAfterAlloc threePages)
      (setup threePages) allocAndCollect := by decide
  exact ⟨hafter, by decide, fun s => frames_kept threePages 4096 rfl allocAndCollect s hafter⟩

end UserPaging.Usm.DefaultPolicy
