import Mathlib.Data.Fintype.Defs
import UserPaging.Foundation.Ledger
import UserPaging.Foundation.Partition
import UserPaging.Foundation.Run
import UserPaging.Usm.BasicAlloc
import UserPaging.Usm.Pool

/-!
# The default policy under concurrent operations

`basic_alloc_uniq`, `pindex_free`, `pick_pages` and `give_back_pages` of any number of
uthreads, one step for each section under a lock and one for each statement between two
of them that others can see.  A page leaves the free list before the kernel is asked to
map it and joins the used list only after the answer; in between it is known to no list.
-/

namespace UserPaging.Usm.DefaultPolicy

open UserPaging.Foundation

/-! ## Operations -/

def mappingOf (event : Event) : PageNode := ⟨event.vaddr, event.origin⟩

inductive OpPoint where
  | returned (ret : Nat)
  | submit (page : Nat) (event : Event)
  | undo (page : Nat) (res : Nat)
  | link (page : Nat) (event : Event)
  | addUsed (page : Nat)
  | holding (placeholder : List Nat)
  deriving DecidableEq, Repr

namespace OpPoint

def pages : OpPoint → List Nat
  | .returned _ => []
  | .submit page _ | .undo page _ | .link page _ | .addUsed page => [page]
  | .holding placeholder => placeholder

/-- The list that `pick_pages` and `give_back_pages` are called on. -/
def placeholder : OpPoint → Option (List Nat)
  | .returned _ => some []
  | .holding placeholder => some placeholder
  | .submit .. | .undo .. | .link .. | .addUsed _ => none

/-- Where an operation takes its page to be mapped: from the answer of the kernel on. -/
def booking (pages : Nat → PageNode) (page : Nat) : OpPoint → Option PageNode
  | .link _ event => some (mappingOf event)
  | .addUsed _ => some (pages page)
  | .returned _ | .submit .. | .undo .. | .holding _ => none

end OpPoint

structure State (Op : Type*) where
  lists : PoolLists
  point : Op → OpPoint
  /-- The page tables of all processes. -/
  pageTable : PageNode → Option (BitVec 64)
  /-- The kernel freed the frame and the daemon did not collect it yet. -/
  freed : BitVec 64 → Bool

inductive Label (Op : Type*) where
  | alloc (op : Op) (event : Event)
  | submit (op : Op) (reply : Reply)
  | undo (op : Op)
  | link (op : Op)
  | addUsed (op : Op)
  | pickPages (op : Op) (nr : Int)
  | giveBackPages (op : Op)
  | unmap (mapping : PageNode)
  | pindexFree (paddr : BitVec 64)
  deriving DecidableEq, Repr

/-- `usmEventToPage`, where `usmPfnToPageIndex` returns an `unsigned int`. -/
def eventToPage (pool : Pool) (paddr : BitVec 64) : Option Nat :=
  let index := paddr - pool.basePfn
  if pool.pagesNumber ≤ (index.setWidth 32).toNat || paddr < pool.basePfn then none
  else some index.toNat

/-- The loop of `pick_pages`. -/
def pickPages : Nat → PoolLists → List Nat → PoolLists × List Nat
  | 0, lists, placeholder => (lists, placeholder)
  | nr + 1, lists, placeholder =>
      match lists.freeList with
      | [] => (lists, placeholder)
      | page :: rest =>
          pickPages nr
            { lists with freeList := rest, usedMemory := lists.usedMemory + pageSize }
            (page :: placeholder)

/-- The loop of `give_back_pages`. -/
def giveBackPages : List Nat → PoolLists → PoolLists
  | [], lists => lists
  | page :: pages, lists =>
      giveBackPages pages
        { lists with
          freeList := lists.freeList ++ [page]
          usedMemory := lists.usedMemory - pageSize }

def refusal : Reply → Option Nat
  | .oomVictim => some 5
  | .shmemError => some 6
  | .alreadyMapped => some 7
  | .applied | .unanswered => none

variable {Op : Type*}

def State.install (s : State Op) (event : Event) : State Op :=
  { s with pageTable := Function.update s.pageTable (mappingOf event) (some event.paddr) }

def State.linkPage (s : State Op) (page : Nat) (event : Event) : State Op :=
  { s with
    lists :=
      { s.lists with pages := Function.update s.lists.pages page (mappingOf event) } }

section

variable [DecidableEq Op]

def State.goto (s : State Op) (op : Op) (point : OpPoint) : State Op :=
  { s with point := Function.update s.point op point }

variable (pool : Pool) (globalPageSize : BitVec 32)

/-- The first locked section of `basic_alloc_uniq`. -/
def allocate (s : State Op) (op : Op) (event : Event) : State Op :=
  match s.lists.freeList with
  | [] => s.goto op (.returned 1)
  | page :: rest =>
      { s with
        lists :=
          { s.lists with
            freeList := rest
            usedMemory := s.lists.usedMemory + globalPageSize.setWidth 64 } }.goto op
        (.submit page { event with paddr := pool.pfn page, length := 0 })

/-- `pindex_free` after `usmEventToPage`. -/
def collect (s : State Op) (paddr : BitVec 64) (page : Nat) : State Op :=
  { s with
    lists :=
      { freeList := s.lists.freeList.erase page ++ [page]
        usedList := s.lists.usedList.erase page
        pages := Function.update s.lists.pages page ⟨0, 0⟩
        usedMemory := s.lists.usedMemory - pageSize }
    freed := Function.update s.freed paddr false }

def step (s : State Op) : Label Op → Option (State Op)
  | .alloc op event =>
      match s.point op with
      | .returned _ => some (allocate pool globalPageSize s op event)
      | _ => none
  | .submit op reply =>
      match s.point op with
      | .submit page event =>
          -- the kernel fills only an empty entry; without an answer the uthread waits on
          if reply = .applied then
            if s.pageTable (mappingOf event) = none then
              some ((s.install event).goto op (.link page event))
            else none
          else (refusal reply).map fun res => s.goto op (.undo page res)
      | _ => none
  | .undo op =>
      match s.point op with
      | .undo page res =>
          some ({ s with
            lists :=
              { s.lists with
                freeList := page :: s.lists.freeList
                usedMemory := s.lists.usedMemory - globalPageSize.setWidth 64 } }.goto op
            (.returned res))
      | _ => none
  | .link op =>
      match s.point op with
      | .link page event =>
          some ((s.linkPage page event).goto op (.addUsed page))
      | _ => none
  | .addUsed op =>
      match s.point op with
      | .addUsed page =>
          some ({ s with
            lists := { s.lists with usedList := s.lists.usedList ++ [page] } }.goto op
            (.returned 0))
      | _ => none
  | .pickPages op nr =>
      (s.point op).placeholder.map fun placeholder =>
        let picked := pickPages nr.toNat s.lists placeholder
        { s with lists := picked.1 }.goto op (.holding picked.2)
  | .giveBackPages op =>
      (s.point op).placeholder.map fun placeholder =>
        { s with lists := giveBackPages placeholder s.lists }.goto op (.returned 0)
  | .unmap mapping =>
      (s.pageTable mapping).map fun paddr =>
        { s with
          pageTable := Function.update s.pageTable mapping none
          freed := Function.update s.freed paddr true }
  | .pindexFree paddr =>
      if s.freed paddr then
        match eventToPage pool paddr with
        | none => some s
        | some page => some (collect s paddr page)
      else none

end

def setup (pool : Pool) : State Op where
  lists := ⟨List.range pool.pagesNumber, [], fun _ => ⟨0, 0⟩, 0⟩
  point := fun _ => .returned 0
  pageTable := fun _ => none
  freed := fun _ => false

/-! ## Where a page is -/

inductive Place (Op : Type*) where
  | free
  | used
  | held (op : Op)
  deriving DecidableEq, Repr

def State.contents (s : State Op) : Place Op → List Nat
  | .free => s.lists.freeList
  | .used => s.lists.usedList
  | .held op => (s.point op).pages

def State.bookedAt (s : State Op) (page : Nat) : Place Op → Option PageNode
  | .free => none
  | .used => some (s.lists.pages page)
  | .held op => (s.point op).booking s.lists.pages page

def State.Booked (pool : Pool) (s : State Op) (paddr : BitVec 64) (mapping : PageNode) : Prop :=
  ∃ place page, page ∈ s.contents place ∧ pool.pfn page = paddr ∧
    s.bookedAt page place = some mapping

/-- The notification that `page` was freed is handled only when the operation that
allocated it has finished. -/
def FreedAfterAlloc (pool : Pool) (s : State Op) : Label Op → Prop
  | .pindexFree paddr => ∀ op, ∀ page ∈ (s.point op).pages, pool.pfn page ≠ paddr
  | _ => True

instance [Fintype Op] (pool : Pool) (s : State Op) :
    ∀ label, Decidable (FreedAfterAlloc pool s label)
  | .pindexFree paddr =>
      inferInstanceAs (Decidable (∀ op, ∀ page ∈ (s.point op).pages, pool.pfn page ≠ paddr))
  | .alloc .. | .submit .. | .undo _ | .link _ | .addUsed _ | .pickPages .. | .giveBackPages _
  | .unmap _ => isTrue trivial

/-! ## The loops -/

theorem pickPages_eq (nr : Nat) (lists : PoolLists) (placeholder : List Nat) :
    pickPages nr lists placeholder =
      ({ lists with
          freeList := lists.freeList.drop nr
          usedMemory := lists.usedMemory +
            pageSize * BitVec.ofNat 64 (lists.freeList.take nr).length },
        (lists.freeList.take nr).reverse ++ placeholder) := by
  induction nr generalizing lists placeholder with
  | zero => simp [pickPages]
  | succ nr ih =>
      obtain ⟨free, used, pages, usedMemory⟩ := lists
      cases free with
      | nil => simp [pickPages]
      | cons page rest =>
          simp only [pickPages, ih, List.drop_succ_cons, List.take_succ_cons, List.reverse_cons,
            List.append_assoc, List.singleton_append, List.length_cons, Prod.mk.injEq,
            PoolLists.mk.injEq, true_and, and_true]
          rw [BitVec.ofNat_add, BitVec.mul_add]
          grind

theorem giveBackPages_eq_putPages (pages : List Nat) (lists : PoolLists) :
    giveBackPages pages lists = putPages pages lists := by
  induction pages generalizing lists with
  | nil => simp [giveBackPages, putPages]
  | cons page pages ih =>
      rw [giveBackPages, ih]
      simp only [putPages, List.append_assoc, List.singleton_append, List.length_cons,
        PoolLists.mk.injEq, true_and]
      rw [BitVec.ofNat_add, BitVec.mul_add]
      grind

/-! ## An operation on its own -/

def poolLists (daemon : Daemon) : PoolLists where
  freeList := daemon.freeList
  usedList := daemon.usedList
  pages := fun page => ⟨(daemon.pages page).virtualAddress, (daemon.pages page).process⟩
  usedMemory := daemon.usedMemory

private theorem poolLists_linkPage (daemon : Daemon) (page : Nat) (vaddr : BitVec 64) (proc : Nat) :
    poolLists (daemon.linkPage page vaddr proc) =
      { poolLists daemon with
        pages := Function.update (poolLists daemon).pages page ⟨vaddr, proc⟩ } := by
  simp only [poolLists, Daemon.linkPage, PoolLists.mk.injEq, true_and, and_true]
  funext other
  by_cases hother : other = page
  · subst hother
    simp
  · simp [hother]

/-- The steps of `basic_alloc_uniq` when nothing comes between them. -/
def allocSteps (op : Op) (event : Event) (reply : Reply) (freeList : List Nat) :
    List (Label Op) :=
  .alloc op event ::
    if freeList = [] then []
    else if reply = .applied then [.submit op reply, .link op, .addUsed op]
    else [.submit op reply, .undo op]

section

variable [DecidableEq Op] {pool : Pool} {globalPageSize : BitVec 32} {s : State Op}
  {daemon : Daemon}

theorem run_allocSteps {op : Op} {event : Event} {reply : Reply} {ret : Nat}
    (hsize : globalPageSize.setWidth 64 = sysPageSize) (hlists : s.lists = poolLists daemon)
    (hpoint : s.point op = .returned ret) (hreply : reply ≠ .unanswered)
    (hempty : reply = .applied → s.pageTable (mappingOf event) = none) :
    ∃ s' ret' daemon',
      run (step pool globalPageSize) s (allocSteps op event reply s.lists.freeList) = some s' ∧
        daemon.basicAllocUniq event reply = .returned ret' daemon' ∧
        s'.lists = poolLists daemon' ∧ s'.point op = .returned ret' := by
  cases hfree : daemon.freeList with
  | nil =>
      refine ⟨s.goto op (.returned 1), 1, daemon, ?_, ?_, hlists, ?_⟩
      · simp [allocSteps, run, step, hpoint, allocate, hlists, poolLists, hfree]
      · simp [Daemon.basicAllocUniq, hfree]
      · simp [State.goto]
  | cons page rest =>
      cases reply with
      | unanswered => exact absurd rfl hreply
      | applied =>
          have hempty : s.pageTable ⟨event.vaddr, event.origin⟩ = none := hempty rfl
          have hpages := congrArg PoolLists.pages
            (poolLists_linkPage daemon page event.vaddr event.origin)
          simp only [poolLists, Daemon.linkPage] at hpages
          simp [allocSteps, run, step, hpoint, allocate, hlists, poolLists, hfree, State.goto,
            State.install, State.linkPage, mappingOf, hempty, Daemon.basicAllocUniq,
            Daemon.usmSubmitAllocEvent, Outcome.andThen, Daemon.takeFree, Daemon.logSubmission,
            Daemon.setPte, Daemon.linkPage, Daemon.setUsed, hsize, ← hpages]
      | oomVictim | shmemError | alreadyMapped =>
          simp [allocSteps, run, step, hpoint, allocate, hlists, poolLists, hfree, State.goto,
            refusal, Daemon.basicAllocUniq, Daemon.usmSubmitAllocEvent, Outcome.andThen,
            Daemon.takeFree, Daemon.logSubmission, Daemon.giveBack, hsize]

omit [DecidableEq Op] in
theorem lists_collect (hlists : s.lists = poolLists daemon) (paddr : BitVec 64) (page : Nat) :
    (collect s paddr page).lists = poolLists (daemon.pindexFree page) := by
  simp only [collect, hlists, poolLists, Daemon.pindexFree, Daemon.giveBack, Daemon.setUsed,
    PoolLists.mk.injEq, true_and]
  refine ⟨?_, rfl⟩
  funext other
  by_cases hother : other = page
  · subst hother
    simp [Daemon.linkPage]
  · simp [Daemon.linkPage, Daemon.setData, hother]

end

end UserPaging.Usm.DefaultPolicy
