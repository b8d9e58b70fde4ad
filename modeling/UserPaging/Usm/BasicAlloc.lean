import UserPaging.Usm.RunEncoding

/-!
# `basic_alloc`

The policy that answers one fault with several pages, and how far its books then match
the page tables.  Afterwards `basic_alloc` gives back as many pages as `rem_size` says,
always the one in the first run slot, and books all the others as used.
-/

namespace UserPaging.Usm

open UserPaging.Foundation

structure PageNode where
  virtualAddress : BitVec 64
  process : Nat
  deriving DecidableEq, Repr

/-- The page nodes of `policiesSet1.c`: page `i` of the pool has the frame `basePfn + i`. -/
structure PoolLists where
  freeList : List Nat
  usedList : List Nat
  pages : Nat → PageNode
  usedMemory : BitVec 64

structure Pool where
  basePfn : BitVec 64
  pagesNumber : Nat
  pagesNumber_lt : pagesNumber < 2 ^ 32

namespace Pool

def pfn (pool : Pool) (page : Nat) : BitVec 64 := pool.basePfn + BitVec.ofNat 64 page

/-- `usmGetUnacctPage`, which returns an `int`, minus `basePFN`; `none` is an index
outside `pagesList`. -/
def unacctPage (pool : Pool) (slots : RunSlots) : Option Nat :=
  let index := ((slots 0).first.setWidth 32).signExtend 64 - pool.basePfn
  if index.toNat < pool.pagesNumber then some index.toNat else none

end Pool

/-- The frame number survives the `int` of `usmGetUnacctPage`. -/
def FitsInt (frame : BitVec 64) : Prop := (frame.setWidth 32).signExtend 64 = frame

instance (frame : BitVec 64) : Decidable (FitsInt frame) :=
  inferInstanceAs (Decidable (_ = _))

structure Held where
  lists : PoolLists
  placeholder : List Nat

/-- `put_page`: `list_move_tail` takes the node out of the list that it is in. -/
def putPage (page : Nat) (held : Held) : Held where
  lists :=
    { held.lists with
      freeList := held.lists.freeList.erase page ++ [page]
      usedList := held.lists.usedList.erase page }
  placeholder := held.placeholder.erase page

/-- `while (event->flags--) put_page(..)`, where `pos` stays zero. -/
def putUnconsumed (page : Nat) : Nat → Held → Held
  | 0, held => held
  | flags + 1, held => putUnconsumed page flags (putPage page held)

def consumePagesAcct (origin : Nat) : List Nat → BitVec 64 → PoolLists → PoolLists
  | [], _, lists => lists
  | page :: pages, addr, lists =>
      consumePagesAcct origin pages (addr + pageSize)
        { lists with
          usedList := lists.usedList ++ [page]
          pages := Function.update lists.pages page ⟨addr, origin⟩
          usedMemory := lists.usedMemory + pageSize }

/-- `give_back_pages` of the pages of a request that was not applied. -/
def putPages (placeholder : List Nat) (lists : PoolLists) : PoolLists :=
  { lists with
    freeList := lists.freeList ++ placeholder
    usedMemory := lists.usedMemory - pageSize * BitVec.ofNat 64 placeholder.length }

/-- `event->length + 1` as an `int`, at most 512. -/
def wantedNumber (length : BitVec 64) : Int := min ((length + 1).setWidth 32).toInt 512

structure AllocResult where
  ret : Nat
  lists : PoolLists
  tables : PageTables

/-- What `usmSubmitAllocEvent` returns: `0`, with the fault handled, or another status. -/
inductive Submitted where
  | applied (result : FaultResult)
  | refused (status : Nat)

/-- `basic_alloc` with any answer to its submission; `none` is an access outside
`pagesList`. -/
def basicAllocAnswered (pool : Pool) (lists : PoolLists) (tables : PageTables) (event : Event)
    (slots : RunSlots) (submit : ExtraAnswer → Submitted) : Option AllocResult :=
  let prepared :=
    getPagesPrep pool.pfn lists.freeList (wantedNumber event.length) event slots
  if prepared.avPages = 0 then some ⟨1, lists, tables⟩
  else
    let lists := { lists with freeList := prepared.freeList }
    match submit (prepared.answer event.length) with
    | .refused _ => some ⟨1, putPages prepared.placeholder lists, tables⟩
    | .applied result =>
        if result.remSize = 0 then
          some ⟨0, consumePagesAcct event.origin prepared.placeholder event.vaddr lists,
            result.tables⟩
        else
          match pool.unacctPage result.slots with
          | none => none
          | some page =>
              let held := putUnconsumed page result.remSize.toNat ⟨lists, prepared.placeholder⟩
              some ⟨0, consumePagesAcct event.origin held.placeholder event.vaddr held.lists,
                result.tables⟩

def submitAllocEvent (usm : BitVec 64 → Bool) (tables : PageTables) (address : BitVec 64)
    (answer : ExtraAnswer) : Submitted :=
  match handleUsmFault usm tables address answer with
  | none => .refused 7
  | some result => .applied result

/-- `basic_alloc` with the kernel's part of the handshake. -/
def basicAlloc (pool : Pool) (usm : BitVec 64 → Bool) (lists : PoolLists) (tables : PageTables)
    (event : Event) (slots : RunSlots) : Option AllocResult :=
  basicAllocAnswered pool lists tables event slots (submitAllocEvent usm tables event.vaddr)

/-! ## What the books should say -/

structure PoolLists.WellFormed (lists : PoolLists) (pool : Pool) : Prop where
  nodup : (lists.freeList ++ lists.usedList).Nodup
  bound : ∀ page ∈ lists.freeList, page < pool.pagesNumber

def Installed (tables tables' : PageTables) (address frame : BitVec 64) : Prop :=
  tables.pte address = none ∧ tables'.pte address = some frame

/-- The pages that became used are those that the kernel installed, each with the process
and the address in its node; of the other pages only those that were taken moved, and
they are free again. -/
structure BooksMatch (pool : Pool) (event : Event) (taken : List Nat) (before : PoolLists)
    (tables : PageTables) (result : AllocResult) : Prop where
  recorded : ∀ page ∈ result.lists.usedList, page ∉ before.usedList →
    (result.lists.pages page).process = event.origin ∧
      Installed tables result.tables (result.lists.pages page).virtualAddress (pool.pfn page)
  used : ∀ page address, page < pool.pagesNumber →
    address.toNat % 4096 = event.vaddr.toNat % 4096 →
    Installed tables result.tables address (pool.pfn page) →
    page ∈ result.lists.usedList ∧ page ∉ before.usedList ∧
      result.lists.pages page = ⟨address, event.origin⟩
  back : ∀ page ∈ taken, page ∉ result.lists.usedList → page ∈ result.lists.freeList
  frame : ∀ page, page ∉ taken →
    (page ∈ result.lists.freeList ↔ page ∈ before.freeList) ∧
      (page ∈ result.lists.usedList ↔ page ∈ before.usedList)

/-! ## Frames and addresses -/

theorem toNat_pfn (pool : Pool) (page : Nat) :
    (pool.pfn page).toNat = (pool.basePfn.toNat + page) % 2 ^ 64 := by
  simp [Pool.pfn, BitVec.toNat_add, BitVec.toNat_ofNat]

theorem pfn_inj {pool : Pool} {page other : Nat} (hpage : page < pool.pagesNumber)
    (hother : other < pool.pagesNumber) (hsame : pool.pfn page = pool.pfn other) :
    page = other := by
  have hnat := congrArg BitVec.toNat hsame
  rw [toNat_pfn, toNat_pfn] at hnat
  have := pool.pagesNumber_lt
  omega

/-- The `int` of `usmGetUnacctPage` cuts a frame number short, but the pool is too small
for another of its pages to be hit. -/
private theorem unacctPage_eq_some {pool : Pool} {slots : RunSlots} {page other : Nat}
    (hpage : page < pool.pagesNumber) (hslot : (slots 0).first = pool.pfn page)
    (hother : pool.unacctPage slots = some other) : other = page := by
  simp only [Pool.unacctPage, Option.ite_none_right_eq_some, Option.some.injEq, hslot] at hother
  obtain ⟨hlt, hindex⟩ := hother
  rw [hindex] at hlt
  rw [BitVec.toNat_sub, BitVec.toNat_signExtend, BitVec.toNat_setWidth, BitVec.toNat_setWidth,
    toNat_pfn] at hindex
  have hbase := pool.basePfn.isLt
  have hnumber := pool.pagesNumber_lt
  split at hindex <;> omega

private theorem unacctPage_eq_some_iff {pool : Pool} {slots : RunSlots} {page : Nat}
    (hpage : page < pool.pagesNumber) (hslot : (slots 0).first = pool.pfn page) :
    pool.unacctPage slots = some page ↔ FitsInt (pool.pfn page) := by
  have hindex : pool.pfn page - pool.basePfn = BitVec.ofNat 64 page := by
    rw [Pool.pfn, BitVec.add_comm, BitVec.add_sub_cancel]
  have hnat : (BitVec.ofNat 64 page).toNat = page := by
    have := pool.pagesNumber_lt
    rw [BitVec.toNat_ofNat]
    omega
  constructor
  · intro hsome
    simp only [Pool.unacctPage, Option.ite_none_right_eq_some, Option.some.injEq, hslot] at hsome
    have hsame : ((pool.pfn page).setWidth 32).signExtend 64 - pool.basePfn =
        pool.pfn page - pool.basePfn := by
      rw [hindex]
      exact BitVec.eq_of_toNat_eq (hsome.2.trans hnat.symm)
    rw [FitsInt, ← BitVec.sub_add_cancel (((pool.pfn page).setWidth 32).signExtend 64)
      pool.basePfn, hsame, BitVec.sub_add_cancel]
  · intro hfits
    simp only [Pool.unacctPage, hslot]
    rw [FitsInt] at hfits
    rw [hfits, hindex, hnat, if_pos hpage]

private theorem unacctPage_lt {pool : Pool} {slots : RunSlots} {page : Nat}
    (hpage : pool.unacctPage slots = some page) : page < pool.pagesNumber := by
  simp only [Pool.unacctPage, Option.ite_none_right_eq_some, Option.some.injEq] at hpage
  omega

private theorem eq_of_same_entry {address other : BitVec 64}
    (hpmd : pmdOffset address = pmdOffset other)
    (hindex : pteOffset address = pteOffset other)
    (hoffset : address.toNat % 4096 = other.toNat % 4096) : address = other := by
  have hpmd := congrArg BitVec.toNat hpmd
  have hindex := congrArg BitVec.toNat hindex
  rw [toNat_pmdOffset, toNat_pmdOffset] at hpmd
  rw [toNat_pteOffset, toNat_pteOffset] at hindex
  apply BitVec.eq_of_toNat_eq
  omega

/-! ## The lists -/

section

variable (origin : Nat)

@[simp] theorem consumePagesAcct_freeList (pages : List Nat) (addr : BitVec 64)
    (lists : PoolLists) :
    (consumePagesAcct origin pages addr lists).freeList = lists.freeList := by
  induction pages generalizing addr lists with
  | nil => rfl
  | cons page pages ih => exact ih _ _

@[simp] theorem consumePagesAcct_usedList (pages : List Nat) (addr : BitVec 64)
    (lists : PoolLists) :
    (consumePagesAcct origin pages addr lists).usedList = lists.usedList ++ pages := by
  induction pages generalizing addr lists with
  | nil => simp [consumePagesAcct]
  | cons page pages ih =>
      rw [consumePagesAcct, ih]
      simp

private theorem consumePagesAcct_pages_of_not_mem {pages : List Nat} {other : Nat}
    (hother : other ∉ pages)
    (addr : BitVec 64) (lists : PoolLists) :
    (consumePagesAcct origin pages addr lists).pages other = lists.pages other := by
  induction pages generalizing addr lists with
  | nil => rfl
  | cons page pages ih =>
      rw [List.mem_cons, not_or] at hother
      rw [consumePagesAcct, ih hother.2]
      exact Function.update_of_ne hother.1 _ _

private theorem consumePagesAcct_pages {pages : List Nat} (hnodup : pages.Nodup) {i : Nat}
    {page : Nat}
    (hpage : pages[i]? = some page) (addr : BitVec 64) (lists : PoolLists) :
    (consumePagesAcct origin pages addr lists).pages page = ⟨target addr i, origin⟩ := by
  induction pages generalizing i addr lists with
  | nil => simp at hpage
  | cons first pages ih =>
      rw [List.nodup_cons] at hnodup
      cases i with
      | zero =>
          obtain rfl : first = page := by simpa using hpage
          rw [consumePagesAcct, consumePagesAcct_pages_of_not_mem origin hnodup.1, target_zero]
          exact Function.update_self ..
      | succ i =>
          rw [consumePagesAcct, ih hnodup.2 (by simpa using hpage), target_add_page]

end

private theorem putUnconsumed_eq {page : Nat} {held : Held} (hfree : held.lists.freeList.Nodup)
    (hused : held.lists.usedList.Nodup) (hplace : held.placeholder.Nodup) {flags : Nat}
    (hflags : flags ≠ 0) : putUnconsumed page flags held = putPage page held := by
  have hagain : putPage page (putPage page held) = putPage page held := by
    simp [putPage, hfree.not_mem_erase, hused.not_mem_erase, hplace.not_mem_erase,
      List.erase_append_right, List.erase_of_not_mem]
  have hfixed : ∀ n, putUnconsumed page n (putPage page held) = putPage page held := by
    intro n
    induction n with
    | zero => rfl
    | succ n ih => rw [putUnconsumed, hagain, ih]
  obtain ⟨n, rfl⟩ := Nat.exists_eq_succ_of_ne_zero hflags
  exact hfixed n

/-! ## One call -/

section

variable {pool : Pool} {usm : BitVec 64 → Bool} {lists : PoolLists} {tables : PageTables}
  {event : Event} {slots : RunSlots}

private theorem basicAlloc_of_handled {prepared : Prepared} {handled : FaultResult}
    (hprepared : getPagesPrep pool.pfn lists.freeList (wantedNumber event.length) event slots =
      prepared) (hpages : prepared.avPages ≠ 0)
    (hhandled : handleUsmFault usm tables event.vaddr (prepared.answer event.length) =
      some handled) :
    basicAlloc pool usm lists tables event slots =
      if handled.remSize = 0 then
        some ⟨0, consumePagesAcct event.origin prepared.placeholder event.vaddr
          { lists with freeList := prepared.freeList }, handled.tables⟩
      else
        (pool.unacctPage handled.slots).map fun page =>
          let held := putUnconsumed page handled.remSize.toNat
            ⟨{ lists with freeList := prepared.freeList }, prepared.placeholder⟩
          ⟨0, consumePagesAcct event.origin held.placeholder event.vaddr held.lists,
            handled.tables⟩ := by
  simp only [basicAlloc, basicAllocAnswered, submitAllocEvent, hprepared, hpages, if_false,
    hhandled]
  split
  · rfl
  · cases pool.unacctPage handled.slots <;> rfl

private theorem booksMatch_of_one {first : Nat} {taken : List Nat} {result : AllocResult}
    (hfault : tables.pte event.vaddr = none) (hfirst : first < pool.pagesNumber)
    (hunused : first ∉ lists.usedList) (hmem : first ∈ taken)
    (htables : result.tables =
      tables.setPte (pmdOffset event.vaddr) (pteOffset event.vaddr) (pool.pfn first))
    (hused : result.lists.usedList = lists.usedList ++ [first])
    (hrecord : result.lists.pages first = ⟨event.vaddr, event.origin⟩)
    (hback : ∀ page ∈ taken, page ≠ first → page ∈ result.lists.freeList)
    (hframe : ∀ page, page ∉ taken →
      (page ∈ result.lists.freeList ↔ page ∈ lists.freeList)) :
    BooksMatch pool event taken lists tables result := by
  have hpte : ∀ address, result.tables.pte address =
      if pmdOffset address = pmdOffset event.vaddr ∧ pteOffset address = pteOffset event.vaddr then
        some (pool.pfn first) else tables.pte address := by
    intro address
    rw [htables]
    exact PageTables.setPte_apply ..
  refine ⟨fun page hpage hold => ?_, fun page address hpage hoffset hinstalled => ?_,
    fun page hpage hgone => ?_, fun page hpage => ⟨hframe page hpage, ?_⟩⟩
  · obtain rfl : page = first := by
      rw [hused, List.mem_append] at hpage
      simpa [hold] using hpage
    rw [hrecord]
    exact ⟨rfl, hfault, by rw [hpte, if_pos ⟨rfl, rfl⟩]⟩
  · obtain ⟨hempty, hfilled⟩ := hinstalled
    rw [hpte] at hfilled
    split at hfilled
    · rename_i hentry
      obtain rfl := eq_of_same_entry hentry.1 hentry.2 hoffset
      obtain rfl := pfn_inj hfirst hpage (Option.some.inj hfilled)
      exact ⟨by simp [hused], hunused, hrecord⟩
    · rw [hempty] at hfilled
      cases hfilled
  · refine hback page hpage fun h => hgone ?_
    simp [hused, h]
  · have hne : page ≠ first := fun h => hpage (h ▸ hmem)
    simp [hused, hne]

/-- If every page that was taken is booked as used, the last of them is booked for an
address that the kernel did not touch. -/
private theorem not_booksMatch_of_all_used {prepared : Prepared} {handled : FaultResult}
    {freeList : List Nat}
    (hhandled : handleUsmFault usm tables event.vaddr (prepared.answer event.length) =
      some handled)
    (hmore : (prepared.answer event.length).furtherAlloc + 2 = prepared.placeholder.length)
    (hfurther : (prepared.answer event.length).furtherAlloc ≤ 511)
    (hnodup : prepared.placeholder.Nodup)
    (hunused : ∀ page ∈ prepared.placeholder, page ∉ lists.usedList) (taken : List Nat) :
    ¬ BooksMatch pool event taken lists tables
      ⟨0, consumePagesAcct event.origin prepared.placeholder event.vaddr
        { lists with freeList := freeList }, handled.tables⟩ := by
  intro hmatch
  obtain ⟨page, hpage⟩ : ∃ page, prepared.placeholder[
      (prepared.answer event.length).furtherAlloc + 1]? = some page :=
    ⟨_, List.getElem?_eq_getElem (by omega)⟩
  have hmem := List.mem_of_getElem? hpage
  obtain ⟨-, hempty, hfilled⟩ := hmatch.recorded page (by simp [hmem]) (hunused page hmem)
  rw [consumePagesAcct_pages event.origin hnodup hpage] at hempty hfilled
  rw [result_pte_behind hhandled hfurther, hempty] at hfilled
  cases hfilled

def AllocMatches (pool : Pool) (event : Event) (taken : List Nat) (lists : PoolLists)
    (tables : PageTables) (outcome : Option AllocResult) : Prop :=
  ∃ result, outcome = some result ∧
    (result.ret = 0 → BooksMatch pool event taken lists tables result)

/-- With a single free page the loop over `rem_size` gives back whatever page an earlier
request left in the first slot, or looks outside `pagesList` for it. -/
private theorem one_page_matches_iff (hwf : lists.WellFormed pool)
    (hfault : tables.pte event.vaddr = none)
    {first : Nat} (hfree : lists.freeList = [first]) :
    AllocMatches pool event [first] lists tables
        (basicAlloc pool usm lists tables event slots) ↔ event.length = 0 := by
  obtain ⟨hnodup, hbound⟩ := hwf
  rw [hfree, List.singleton_append, List.nodup_cons] at hnodup
  have hprepared : getPagesPrep pool.pfn lists.freeList (wantedNumber event.length) event slots =
      ⟨[first], [], pool.pfn first, slots, 1⟩ := by
    rw [hfree]
    simp only [getPagesPrep, Prepared.mk.injEq, true_and]
    omega
  have halloc := basicAlloc_of_handled hprepared Int.one_ne_zero
    (handleUsmFault_of_zero usm hfault rfl)
  by_cases hlength : event.length = 0
  · refine iff_of_true ⟨_, halloc.trans (if_pos hlength), fun _ => ?_⟩ hlength
    refine booksMatch_of_one hfault (hbound first (by simp [hfree])) hnodup.1 (by simp) rfl
      (by simp) ?_ (by simp) (by simp [hfree])
    rw [consumePagesAcct_pages event.origin (List.nodup_singleton first) (i := 0) rfl, target_zero]
  · refine iff_of_false ?_ hlength
    rintro ⟨result, hresult, hmatch⟩
    rw [halloc.trans (if_neg hlength), Option.map_eq_some_iff] at hresult
    obtain ⟨page, hstale, rfl⟩ := hresult
    have hmatch := hmatch rfl
    simp only [Prepared.answer] at hstale hmatch
    rw [putUnconsumed_eq List.nodup_nil hnodup.2 (List.nodup_singleton first)
      fun h => hlength (BitVec.eq_of_toNat_eq h)] at hmatch
    by_cases hpage : page = first
    · subst hpage
      have hbooked := hmatch.used page event.vaddr (unacctPage_lt hstale) rfl
        ⟨hfault, (PageTables.setPte_apply ..).trans (if_pos ⟨rfl, rfl⟩)⟩
      simp [putPage, List.erase_of_not_mem hnodup.1, hnodup.1] at hbooked
    · have hmoved := (hmatch.frame page (by simpa using hpage)).1
      simp [putPage, hfree, hpage] at hmoved

theorem wantedNumber_le (length : BitVec 64) : wantedNumber length ≤ 512 := min_le_right ..

/-- Two pages are taken and at least one is advertised: the kernel installs the first,
and the second, whose frame is in the first slot, is given back if an `int` can name it. -/
private theorem two_pages_match_iff (hwf : lists.WellFormed pool)
    (hfault : tables.pte event.vaddr = none)
    {first second : Nat} {rest : List Nat} (hfree : lists.freeList = first :: second :: rest)
    (hlength : event.length ≠ 0)
    (htake : rest.take (wantedNumber event.length - 1).toNat = []) :
    AllocMatches pool event [first, second] lists tables
        (basicAlloc pool usm lists tables event slots) ↔ FitsInt (pool.pfn second) := by
  obtain ⟨hnodup, hbound⟩ := hwf
  simp only [hfree, List.cons_append, List.nodup_cons, List.mem_cons, List.mem_append,
    not_or] at hnodup
  obtain ⟨⟨hne, hfirstRest, hfirstUsed⟩, ⟨hsecondRest, hsecondUsed⟩, hrest⟩ := hnodup
  have hdrop := List.take_append_drop (wantedNumber event.length - 1).toNat rest
  rw [htake, List.nil_append] at hdrop
  obtain ⟨slots', hslot, hprepared⟩ : ∃ slots', (slots' 0).first = pool.pfn second ∧
      getPagesPrep pool.pfn lists.freeList (wantedNumber event.length) event slots =
        ⟨[first, second], rest, pool.pfn first, slots', 1⟩ := by
    have hprepared := getPagesPrep_cons pool.pfn (wantedNumber event.length) event slots first
      second rest
    rw [← hfree, htake, hdrop] at hprepared
    exact ⟨_, by simp [PrepRuns.begin, PrepRuns.finish, usmPrepPreAlloc], hprepared⟩
  have hpage := hbound second (by simp [hfree])
  have halloc := (basicAlloc_of_handled hprepared (by simp)
    (handleUsmFault_of_zero usm hfault rfl)).trans (if_neg hlength)
  simp only [Prepared.answer] at halloc
  rw [halloc]
  constructor
  · rintro ⟨result, hresult, -⟩
    obtain ⟨page, hsome, -⟩ := Option.map_eq_some_iff.1 hresult
    rw [← unacctPage_eq_some_iff hpage hslot, hsome, unacctPage_eq_some hpage hslot hsome]
  · intro hfits
    rw [(unacctPage_eq_some_iff hpage hslot).2 hfits]
    refine ⟨_, rfl, fun _ => ?_⟩
    dsimp only
    rw [putUnconsumed_eq hrest.of_append_left hrest.of_append_right (by simpa using hne)
      fun h => hlength (BitVec.eq_of_toNat_eq h)]
    have hplace : [first, second].erase second = [first] := by simp [hne]
    have hrecord := consumePagesAcct_pages event.origin (List.nodup_singleton first) (i := 0) rfl
      event.vaddr (putPage second ⟨{ lists with freeList := rest }, [first, second]⟩).lists
    rw [target_zero] at hrecord
    refine booksMatch_of_one hfault (hbound first (by simp [hfree])) hfirstUsed (by simp) rfl ?_ ?_
      ?_ ?_
    · simp [putPage, hplace, List.erase_of_not_mem hsecondUsed]
    · simpa [putPage, hplace] using hrecord
    · intro other hother hnot
      simp_all [putPage]
    · intro other hother
      simp_all [putPage, List.erase_of_not_mem]

private theorem more_pages_differ (hwf : lists.WellFormed pool)
    (hfault : tables.pte event.vaddr = none)
    {first second : Nat} {rest : List Nat} (hfree : lists.freeList = first :: second :: rest)
    (hother : event.length ≠ 0 → rest.take (wantedNumber event.length - 1).toNat ≠ []) :
    ∃ result, basicAlloc pool usm lists tables event slots = some result ∧ result.ret = 0 ∧
      ∀ taken, ¬ BooksMatch pool event taken lists tables result := by
  have hprepared := getPagesPrep_cons pool.pfn (wantedNumber event.length) event slots first
    second rest
  have hmore := furtherAlloc_getPagesPrep pool.pfn (wantedNumber event.length) event slots first
    second rest event.length
  rw [← hfree] at hprepared hmore
  obtain ⟨prepared, hprep⟩ : ∃ prepared, getPagesPrep pool.pfn lists.freeList
      (wantedNumber event.length) event slots = prepared := ⟨_, rfl⟩
  rw [hprep] at hprepared hmore
  have hplaceholder : prepared.placeholder =
      first :: second :: rest.take (wantedNumber event.length - 1).toNat := by
    rw [hprepared]
  have hfurther : (prepared.answer event.length).furtherAlloc =
      (rest.take (wantedNumber event.length - 1).toNat).length := by
    simp only [hplaceholder, List.length_cons] at hmore
    omega
  obtain ⟨handled, hhandled⟩ := handleUsmFault_isSome usm (prepared.answer event.length) hfault
  have hrem : handled.remSize = 0 := by
    rw [(handleUsmFault_eq_some hhandled).2.2]
    split
    · rename_i hzero
      by_contra hlength
      exact hother hlength (List.length_eq_zero_iff.1 (hfurther.symm.trans hzero))
    · rfl
  have hsublist : List.Sublist prepared.placeholder lists.freeList := by
    rw [hplaceholder, hfree]
    exact ((List.take_sublist _ rest).cons_cons second).cons_cons first
  obtain ⟨hnodup, -⟩ := hwf
  rw [List.nodup_append] at hnodup
  have hunused : ∀ page ∈ prepared.placeholder, page ∉ lists.usedList := by
    intro page hpage hused
    exact hnodup.2.2 page (hsublist.subset hpage) page hused rfl
  have hcount := List.length_take_le (wantedNumber event.length - 1).toNat rest
  have hwanted := wantedNumber_le event.length
  refine ⟨_, (basicAlloc_of_handled hprep ?_ hhandled).trans (if_pos hrem), rfl, ?_⟩
  · rw [hprepared]
    dsimp only
    omega
  · exact not_booksMatch_of_all_used hhandled hmore (by omega) (hnodup.1.sublist hsublist) hunused

private theorem more_pages_match_iff (hwf : lists.WellFormed pool)
    (hfault : tables.pte event.vaddr = none)
    {first second : Nat} {rest : List Nat} (hfree : lists.freeList = first :: second :: rest) :
    AllocMatches pool event
        (first :: second :: rest.take (wantedNumber event.length - 1).toNat) lists tables
        (basicAlloc pool usm lists tables event slots) ↔
      event.length ≠ 0 ∧ (rest = [] ∨ wantedNumber event.length ≤ 1) ∧
        FitsInt (pool.pfn second) := by
  have htake : (rest = [] ∨ wantedNumber event.length ≤ 1) ↔
      rest.take (wantedNumber event.length - 1).toNat = [] := by
    rw [List.take_eq_nil_iff, or_comm, show (wantedNumber event.length - 1).toNat = 0 ↔
      wantedNumber event.length ≤ 1 by omega]
  rw [htake]
  by_cases htwo : event.length ≠ 0 ∧ rest.take (wantedNumber event.length - 1).toNat = []
  · rw [htwo.2, two_pages_match_iff hwf hfault hfree htwo.1 htwo.2]
    exact ⟨fun hfits => ⟨htwo.1, rfl, hfits⟩, fun hall => hall.2.2⟩
  · refine iff_of_false ?_ fun hall => htwo ⟨hall.1, hall.2.1⟩
    rintro ⟨result, hresult, hmatch⟩
    have hother := fun hlength htaken => htwo ⟨hlength, htaken⟩
    obtain ⟨result', hresult', hret, hdiffer⟩ := more_pages_differ hwf hfault hfree hother
    obtain rfl : result = result' := Option.some.inj (hresult.symm.trans hresult')
    exact hdiffer _ (hmatch hret)

/-- When the books match: no page is free; or one is and no page is advertised; or exactly
two are taken, at least one is advertised, and an `int` holds the frame of the second. -/
def BooksCanMatch (pool : Pool) (length : BitVec 64) : List Nat → Prop
  | [] => True
  | [_] => length = 0
  | _ :: second :: rest => length ≠ 0 ∧ (rest = [] ∨ wantedNumber length ≤ 1) ∧
      FitsInt (pool.pfn second)

end

def smallPool : Pool := ⟨1000, 8, by decide⟩

def freshLists (freeList : List Nat) : PoolLists := ⟨freeList, [], fun _ => ⟨0, 0⟩, 0⟩

def touch (length : BitVec 64) : Event := ⟨1, 0x10000, 0, 0, 0, length⟩

end UserPaging.Usm
