import UserPaging.Foundation.ListHead
import UserPaging.Usm.History

/-!
# Swapping a page in, through the pointers of the lists

`basic_swap` and `swap_in` work on four lists of `list.h` and on a list whose head is
a local variable of `swap_in`.  The pointers matter here: a failed read adds an entry
to the swap list in which it still is, and a refused submission goes through the
local list after `swap_in` has returned.

The entry stays in both swap lists on every exit, also where its slot is given back
and its memory is freed.
-/

namespace UserPaging.Usm

open UserPaging.Foundation

/-- The `struct list_head`s: the heads, and the nodes of pages, entries and slots. -/
inductive Node where
  | freeList
  | usedList
  | swapList
  | slotFree
  | procSwapList (proc : Nat)
  /-- The local variable of `swap_in`. -/
  | pageToSwapInsideOf
  | page (frame : Nat)
  | globlist (entry : Nat)
  | iulist (entry : Nat)
  | slot (slot : Nat)
  deriving DecidableEq, Repr

structure Cells where
  links : Links Node
  usedMemory : BitVec 64
  swappedMemory : BitVec 64
  toSwap : Nat → ToSwap
  toSwapHolder : Nat → Option Nat

inductive CellsOutcome where
  | returned (ret : Nat) (c : Cells)
  | suspended (c : Cells)
  | undefined

namespace Cells

/-- `get_pages`, which returns how many pages it took. -/
def pickPages (target : Node) : Nat → Cells → Nat × Cells
  | 0, c => (0, c)
  | nr + 1, c =>
      if c.links.next .freeList = .freeList then (0, c)
      else
        let (taken, c) := pickPages target nr
          { c with
            links := c.links.move (c.links.next .freeList) target
            usedMemory := c.usedMemory + sysPageSize }
        (taken + 1, c)

/-- `put_pages`; `none` when the loop has not ended after the given number of tests. -/
def giveBackPages (fuel : Nat) (c : Cells) (pages : Node) : Option Cells :=
  (Links.drainTail pages .freeList fuel c.links (c.links.next pages)
    (c.links.next (c.links.next pages))).map fun result =>
      { c with
        links := result.1
        usedMemory := c.usedMemory - BitVec.ofNat 64 result.2 * sysPageSize }

def swapIn (fuel : Nat) (c : Cells) (entry : Nat) (faults : SwapInFaults) :
    Option (Nat × Cells) :=
  if faults.seekFails then some (1, c)
  else
    match pickPages .pageToSwapInsideOf 1 { c with links := c.links.init .pageToSwapInsideOf } with
    | (0, c) => some (1, c)
    | (_ + 1, c) =>
        match c.links.next .pageToSwapInsideOf with
        | .page frame =>
            match faults.readFails with
            | some _ =>
                (c.giveBackPages fuel .pageToSwapInsideOf).map fun c =>
                  (1, { c with links := c.links.add (.globlist entry) .swapList })
            | none =>
                some (0, { c with
                  toSwap := Function.update c.toSwap entry
                    { c.toSwap entry with page := frame } })
        | _ => none

/-- `basic_swap`.  After a refused submission `put_pages` is given the page as the head of a
list, and the next node is the local head of `swap_in`, which is gone.  The entry is freed at
the end, with both swap lists still leading through it. -/
def basicSwap (fuel : Nat) (c : Cells) (event : Event) (faults : SwapInFaults) (reply : Reply) :
    CellsOutcome :=
  match c.toSwapHolder (eventSlot event.offst) with
  | none => .undefined
  | some entry =>
      match c.swapIn fuel entry faults with
      | none => .undefined
      | some (0, c) =>
          match reply with
          | .applied =>
              .returned 0 { c with
                links := (c.links.add (.page (c.toSwap entry).page) .usedList).addTail
                  (.slot (c.toSwap entry).snode) .slotFree }
          | .unanswered => .suspended c
          | .oomVictim | .shmemError | .alreadyMapped => .undefined
      | some (_ + 1, c) => .returned 1 c

end Cells

/-! ### The lists that the pointers make -/

structure OtherRings (m : Links Node) (s : Daemon) : Prop where
  used : m.Ring .usedList (s.usedList.map .page)
  swap : m.Ring .swapList (s.swapList.map .globlist)
  slots : m.Ring .slotFree (s.slotFree.map .slot)
  proc : ∀ proc, m.Ring (.procSwapList proc) ((s.procSwapList proc).map .iulist)

structure Represents (c : Cells) (s : Daemon) : Prop where
  free : c.links.Ring .freeList (s.freeList.map .page)
  others : OtherRings c.links s
  disjoint : ∀ frame ∈ s.freeList, frame ∉ s.usedList
  usedMemory : c.usedMemory = s.usedMemory
  swappedMemory : c.swappedMemory = s.swappedMemory
  toSwap : c.toSwap = s.toSwap
  toSwapHolder : c.toSwapHolder = s.toSwapHolder

private theorem OtherRings.congr {m m' : Links Node} {s : Daemon} (h : OtherRings m s)
    (hdisj : ∀ frame ∈ s.freeList, frame ∉ s.usedList)
    (hsame : ∀ node, node ∉ Node.pageToSwapInsideOf :: Node.freeList :: s.freeList.map .page →
      Links.SameAt m m' node) : OtherRings m' s := by
  refine ⟨h.used.congr fun node hnode => hsame node ?_,
    h.swap.congr fun node hnode => hsame node ?_,
    h.slots.congr fun node hnode => hsame node ?_,
    fun proc => (h.proc proc).congr fun node hnode => hsame node ?_⟩
  · simp only [List.mem_cons, List.mem_map] at hnode ⊢
    rcases hnode with rfl | ⟨frame, hused, rfl⟩
    · simp
    · simpa using fun hfree => hdisj frame hfree hused
  all_goals
    simp only [List.mem_cons, List.mem_map] at hnode ⊢
    rcases hnode with rfl | ⟨i, _, rfl⟩ <;> simp

def Daemon.swapView (s : Daemon) :
    List Nat × List Nat × List Nat × List Nat × (Nat → List Nat) × BitVec 64 × BitVec 64 ×
      (Nat → ToSwap) × (Nat → Option Nat) :=
  (s.freeList, s.usedList, s.swapList, s.slotFree, s.procSwapList, s.usedMemory,
    s.swappedMemory, s.toSwap, s.toSwapHolder)

namespace Represents

variable {c : Cells} {s : Daemon}

private theorem of_view {s' : Daemon} (h : Represents c s) (hview : s'.swapView = s.swapView) :
    Represents c s' := by
  simp only [Daemon.swapView, Prod.mk.injEq] at hview
  obtain ⟨hfree, hused, hswap, hslots, hproc, husedMemory, hswapped, htoSwap, hholder⟩ := hview
  refine ⟨?_, ⟨?_, ?_, ?_, ?_⟩, ?_, ?_, ?_, ?_, ?_⟩
  · rw [hfree]; exact h.free
  · rw [hused]; exact h.others.used
  · rw [hswap]; exact h.others.swap
  · rw [hslots]; exact h.others.slots
  · rw [hproc]; exact h.others.proc
  · rw [hfree, hused]; exact h.disjoint
  · rw [husedMemory]; exact h.usedMemory
  · rw [hswapped]; exact h.swappedMemory
  · rw [htoSwap]; exact h.toSwap
  · rw [hholder]; exact h.toSwapHolder

theorem nodup (h : Represents c s) : s.freeList.Nodup :=
  List.Nodup.of_map _ h.free.nodup_nodes

theorem init (h : Represents c s) :
    Represents { c with links := c.links.init .pageToSwapInsideOf } s where
  free := h.free.congr fun node hnode => Links.sameAt_init _ (by
    rintro rfl
    simp at hnode)
  others := h.others.congr h.disjoint fun node hnode => Links.sameAt_init _ (by
    rintro rfl
    simp at hnode)
  disjoint := h.disjoint
  usedMemory := h.usedMemory
  swappedMemory := h.swappedMemory
  toSwap := h.toSwap
  toSwapHolder := h.toSwapHolder

private theorem pick_none (h : Represents c s) (hfree : s.freeList = []) (target : Node) :
    Cells.pickPages target 1 c = (0, c) := by
  have hempty : c.links.next .freeList = .freeList :=
    h.free.next_eq_head_iff.2 (by simp [hfree])
  simp [Cells.pickPages, hempty]

private theorem pick_one (h : Represents c s) (hlocal : c.links.Ring .pageToSwapInsideOf [])
    {frame : Nat} {rest : List Nat} (hfree : s.freeList = frame :: rest) :
    ∃ c', Cells.pickPages .pageToSwapInsideOf 1 c = (1, c') ∧ Represents c' (s.takeFree rest) ∧
      c'.links.Ring .pageToSwapInsideOf [.page frame] := by
  have hring := h.free
  rw [hfree, List.map_cons] at hring
  have hfirst : c.links.next .freeList = .page frame := hring.path.1
  have hmoved := hring.move_first hlocal (by simp)
  refine ⟨{ c with
    links := c.links.move (.page frame) .pageToSwapInsideOf
    usedMemory := c.usedMemory + sysPageSize },
    by simp [Cells.pickPages, hfirst], ?_, hmoved.gained⟩
  have hothers : OtherRings (c.links.move (.page frame) .pageToSwapInsideOf) s :=
    h.others.congr h.disjoint fun node hnode => hmoved.same node (by
      simp only [hfree] at hnode
      simp at hnode ⊢
      tauto)
  exact ⟨hmoved.left, ⟨hothers.used, hothers.swap, hothers.slots, hothers.proc⟩,
    fun other hother => h.disjoint other (by rw [hfree]; exact List.mem_cons_of_mem _ hother),
    by simp [Daemon.takeFree, h.usedMemory], h.swappedMemory, h.toSwap, h.toSwapHolder⟩

private theorem giveBack_one (h : Represents c s) {frame : Nat}
    (hlocal : c.links.Ring .pageToSwapInsideOf [.page frame]) (hnotFree : frame ∉ s.freeList)
    (hnotUsed : frame ∉ s.usedList) {fuel : Nat} (hfuel : 2 ≤ fuel) :
    ∃ c', c.giveBackPages fuel .pageToSwapInsideOf = some c' ∧
      Represents c' (s.giveBack frame (s.freeList ++ [frame])) := by
  have hapart : ∀ node ∈ [Node.pageToSwapInsideOf, .page frame],
      node ∉ Node.freeList :: s.freeList.map .page := by
    have hne : ∀ other ∈ s.freeList, other ≠ frame := fun other hother heq =>
      hnotFree (heq ▸ hother)
    simpa using hne
  obtain ⟨m', hrun, hmoved⟩ := hlocal.drainTail h.free hapart hfuel
  refine ⟨{ c with links := m', usedMemory := c.usedMemory - sysPageSize }, ?_, ?_⟩
  · simp only [Cells.giveBackPages, hrun, Option.map_some, List.length_singleton,
      BitVec.one_mul]
  · have hothers : OtherRings m' (s.giveBack frame (s.freeList ++ [frame])) := by
      have hkeep : OtherRings c.links (s.giveBack frame (s.freeList ++ [frame])) :=
        ⟨h.others.used, h.others.swap, h.others.slots, h.others.proc⟩
      refine hkeep.congr ?_ fun node hnode => hmoved.same node (by
        simp [Daemon.giveBack] at hnode ⊢
        tauto)
      intro other hother
      rcases List.mem_append.1 hother with hfree | hlast
      · exact h.disjoint other hfree
      · rw [List.mem_singleton.1 hlast]
        exact hnotUsed
    refine ⟨by simpa [Daemon.giveBack] using hmoved.gained, hothers, ?_, ?_, h.swappedMemory,
      h.toSwap, h.toSwapHolder⟩
    · intro other hother
      rcases List.mem_append.1 hother with hfree | hlast
      · exact h.disjoint other hfree
      · rw [List.mem_singleton.1 hlast]
        exact hnotUsed
    · simp [Daemon.giveBack, h.usedMemory]

end Represents

/-! ### `swap_in` -/

/-- The seek fails or there is no free page: `swap_in` gives up before it has taken one. -/
def swapInStops (s : Daemon) (faults : SwapInFaults) : Prop :=
  faults.seekFails = true ∨ s.freeList = []

namespace Represents

variable {c : Cells} {s : Daemon} {entry : Nat} {faults : SwapInFaults}

private theorem swapIn_stops (h : Represents c s) (hstops : swapInStops s faults)
    (entry fuel : Nat) :
    s.swapIn entry faults = (1, s) ∧
      ∃ c', c.swapIn fuel entry faults = some (1, c') ∧ Represents c' s := by
  unfold Cells.swapIn Daemon.swapIn
  cases hseek : faults.seekFails with
  | true => exact ⟨by simp, c, by simp, h⟩
  | false =>
      have hfree : s.freeList = [] := hstops.resolve_left (by simp [hseek])
      refine ⟨by simp [hfree], _, ?_, h.init⟩
      simp [h.init.pick_none hfree]

private theorem swapIn_unread (h : Represents c s) (hgoes : ¬swapInStops s faults)
    (hread : faults.readFails ≠ none) (hentry : entry ∈ s.swapList) {fuel : Nat}
    (hfuel : 2 ≤ fuel) :
    ∃ c', c.swapIn fuel entry faults = some (1, c') ∧
      ∀ nodes, ¬c'.links.Ring .swapList nodes := by
  simp only [swapInStops, not_or, Bool.not_eq_true] at hgoes
  obtain ⟨hseek, hfree⟩ := hgoes
  obtain ⟨frame, rest, hfree⟩ := List.exists_cons_of_ne_nil hfree
  obtain ⟨c', hpick, htaken, hlocal⟩ := h.init.pick_one (Links.ring_init _ _) hfree
  have hnotFree : frame ∉ rest := (List.nodup_cons.1 (hfree ▸ h.nodup)).1
  have hnotUsed : frame ∉ s.usedList := h.disjoint frame (by simp [hfree])
  obtain ⟨c'', hback, hgiven⟩ := htaken.giveBack_one hlocal hnotFree hnotUsed hfuel
  obtain ⟨left, hleft⟩ := Option.ne_none_iff_exists'.1 hread
  refine ⟨{ c'' with links := c''.links.add (.globlist entry) .swapList }, ?_, ?_⟩
  · simp only [Cells.swapIn, hseek, Bool.false_eq_true, if_false, hpick, hlocal.path.1, hleft,
      hback, Option.map_some]
  · intro nodes
    refine hgiven.others.swap.not_ring_add ?_ nodes
    exact List.mem_map_of_mem hentry

private theorem swapIn_filled (h : Represents c s) (hgoes : ¬swapInStops s faults)
    (hread : faults.readFails = none) (entry fuel : Nat) :
    ∃ c' frame rest, s.freeList = frame :: rest ∧
      s.swapIn entry faults = (0, (s.takeFree rest).fillPage entry frame) ∧
      c.swapIn fuel entry faults = some (0, c') ∧
      Represents c' ((s.takeFree rest).fillPage entry frame) := by
  simp only [swapInStops, not_or, Bool.not_eq_true] at hgoes
  obtain ⟨hseek, hfree⟩ := hgoes
  obtain ⟨frame, rest, hfree⟩ := List.exists_cons_of_ne_nil hfree
  obtain ⟨c', hpick, htaken, hlocal⟩ := h.init.pick_one (Links.ring_init _ _) hfree
  refine ⟨{ c' with
    toSwap := Function.update c'.toSwap entry { c'.toSwap entry with page := frame } },
    frame, rest, hfree, ?_, ?_, ?_⟩
  · simp only [Daemon.swapIn, hseek, Bool.false_eq_true, if_false, hfree, hread]
  · simp only [Cells.swapIn, hseek, Bool.false_eq_true, if_false, hpick, hlocal.path.1, hread]
  · exact ⟨htaken.free,
      ⟨htaken.others.used, htaken.others.swap, htaken.others.slots, htaken.others.proc⟩,
      htaken.disjoint, htaken.usedMemory, htaken.swappedMemory,
      by rw [htaken.toSwap]; rfl, htaken.toSwapHolder⟩

theorem install (h : Represents c s) {frame slot : Nat} (hnotFree : frame ∉ s.freeList)
    (hnotUsed : frame ∉ s.usedList) (hslot : slot ∉ s.slotFree) :
    Represents
      { c with links := (c.links.add (.page frame) .usedList).addTail (.slot slot) .slotFree }
      ((s.setUsed (frame :: s.usedList)).putSwapNode slot) := by
  have hpage : Node.page frame ∉ Node.usedList :: s.usedList.map .page := by simpa using hnotUsed
  have hused := h.others.used.add hpage
  have hslots : (c.links.add (.page frame) .usedList).Ring .slotFree (s.slotFree.map .slot) :=
    h.others.slots.congr fun node hnode => h.others.used.sameAt_add (by
      simp only [List.mem_cons, List.mem_map] at hnode ⊢
      rcases hnode with rfl | ⟨i, _, rfl⟩ <;> simp)
  have hnew : Node.slot slot ∉ Node.slotFree :: s.slotFree.map .slot := by simpa using hslot
  -- the other lists have neither pages in use nor slots
  have hsame : ∀ node, node ∉ Node.page frame :: Node.usedList :: s.usedList.map .page →
      node ∉ Node.slot slot :: Node.slotFree :: s.slotFree.map .slot →
      Links.SameAt c.links ((c.links.add (.page frame) .usedList).addTail (.slot slot) .slotFree)
        node := by
    intro node hpages hslotNodes
    exact (h.others.used.sameAt_add hpages).trans (hslots.sameAt_addTail hslotNodes)
  refine ⟨?_, ⟨?_, ?_, ?_, ?_⟩, ?_, h.usedMemory, h.swappedMemory, h.toSwap, h.toSwapHolder⟩
  · refine h.free.congr fun node hnode => hsame node ?_ ?_
    · simp only [List.mem_cons, List.mem_map] at hnode ⊢
      rcases hnode with rfl | ⟨other, hother, rfl⟩
      · simp
      · have hne : other ≠ frame := fun heq => hnotFree (heq ▸ hother)
        simpa [hne] using h.disjoint other hother
    · simp only [List.mem_cons, List.mem_map] at hnode ⊢
      rcases hnode with rfl | ⟨other, _, rfl⟩ <;> simp
  · refine hused.congr fun node hnode => hslots.sameAt_addTail ?_
    simp only [List.mem_cons, List.mem_map] at hnode ⊢
    rcases hnode with rfl | rfl | ⟨other, _, rfl⟩ <;> simp
  · refine h.others.swap.congr fun node hnode => hsame node ?_ ?_ <;>
      simp only [List.mem_cons, List.mem_map] at hnode ⊢ <;>
      rcases hnode with rfl | ⟨other, _, rfl⟩ <;> simp
  · simpa [Daemon.putSwapNode, Daemon.setUsed] using hslots.addTail hnew
  · intro proc
    refine (h.others.proc proc).congr fun node hnode => hsame node ?_ ?_ <;>
      simp only [List.mem_cons, List.mem_map] at hnode ⊢ <;>
      rcases hnode with rfl | ⟨other, _, rfl⟩ <;> simp
  · intro other hother hmem
    rcases List.mem_cons.1 hmem with rfl | hmem
    · exact hnotFree hother
    · exact h.disjoint other hother hmem

end Represents

/-! ### `basic_swap` -/

def Outcome.Agrees : Outcome → CellsOutcome → Prop
  | .returned ret s, .returned ret' c => ret = ret' ∧ Represents c s
  | .suspended s, .suspended c => Represents c s
  | .undefined, .undefined => True
  | _, _ => False

structure SwappedEntry (c : Cells) (s : Daemon) (event : Event) (entry : Nat) : Prop where
  represents : Represents c s
  holder : s.toSwapHolder (eventSlot event.offst) = some entry
  global : entry ∈ s.swapList
  proc : entry ∈ s.procSwapList (s.toSwap entry).proc
  slot : (s.toSwap entry).snode ∉ s.slotFree

namespace SwappedEntry

variable {c : Cells} {s : Daemon} {event : Event} {entry : Nat} {faults : SwapInFaults}
  {reply : Reply} {fuel : Nat}

private theorem holder_cells (h : SwappedEntry c s event entry) :
    c.toSwapHolder (eventSlot event.offst) = some entry := by
  rw [h.represents.toSwapHolder, h.holder]

private theorem basicSwap_stops (h : SwappedEntry c s event entry) (hstops : swapInStops s faults)
    (reply : Reply) (fuel : Nat) :
    s.basicSwap event faults reply = .returned 1 s ∧
      ∃ c', c.basicSwap fuel event faults reply = .returned 1 c' ∧ Represents c' s := by
  obtain ⟨hlists, c', hrun, hc'⟩ := h.represents.swapIn_stops hstops entry fuel
  exact ⟨by simp only [Daemon.basicSwap, h.holder, hlists], c',
    by simp only [Cells.basicSwap, h.holder_cells, hrun], hc'⟩

private theorem basicSwap_applied (h : SwappedEntry c s event entry) (hgoes : ¬swapInStops s faults)
    (hread : faults.readFails = none) (fuel : Nat) :
    ∃ s' c', s.basicSwap event faults .applied = .returned 0 s' ∧
      c.basicSwap fuel event faults .applied = .returned 0 c' ∧ Represents c' s' ∧
      s'.swapList = s.swapList := by
  obtain ⟨c', frame, rest, hfree, hlists, hrun, hc'⟩ :=
    h.represents.swapIn_filled hgoes hread entry fuel
  have hrecord : ((s.takeFree rest).fillPage entry frame).toSwap entry =
      { s.toSwap entry with page := frame } := Function.update_self ..
  have hcells : c'.toSwap entry = { s.toSwap entry with page := frame } := by
    rw [hc'.toSwap, hrecord]
  have hnotFree : frame ∉ rest := (List.nodup_cons.1 (hfree ▸ h.represents.nodup)).1
  have hnotUsed : frame ∉ s.usedList := h.represents.disjoint frame (by simp [hfree])
  let submitted := (((s.takeFree rest).fillPage entry frame).logSubmission event frame).setPte
    event.origin event.vaddr (.mapped frame)
  have hdaemon : s.basicSwap event faults .applied =
      .returned 0 (((submitted.linkPage frame (s.toSwap entry).swappedAddress
        (s.toSwap entry).proc).setUsed (frame :: submitted.usedList)).putSwapNode
          (s.toSwap entry).snode) := by
    simp only [Daemon.basicSwap, h.holder, hlists, hrecord]
    rfl
  have hpointers : c.basicSwap fuel event faults .applied =
      .returned 0 { c' with
        links := (c'.links.add (.page frame) .usedList).addTail (.slot (s.toSwap entry).snode)
          .slotFree } := by
    simp only [Cells.basicSwap, h.holder_cells, hrun, hcells]
  refine ⟨_, _, hdaemon, hpointers, ?_, rfl⟩
  exact (hc'.install hnotFree hnotUsed h.slot).of_view rfl

theorem basicSwap_agrees (h : SwappedEntry c s event entry)
    (hread : swapInStops s faults ∨ faults.readFails = none) (reply : Reply) (fuel : Nat) :
    (s.basicSwap event faults reply).Agrees (c.basicSwap fuel event faults reply) := by
  by_cases hstops : swapInStops s faults
  · obtain ⟨hlists, c', hrun, hc'⟩ := h.basicSwap_stops hstops reply fuel
    rw [hlists, hrun]
    exact ⟨rfl, hc'⟩
  · have hnone := hread.resolve_left hstops
    obtain ⟨c', frame, rest, _, hlists, hrun, hc'⟩ :=
      h.represents.swapIn_filled hstops hnone entry fuel
    cases reply with
    | applied =>
        obtain ⟨s', c', hdaemon, hcells, hrep, _⟩ := h.basicSwap_applied hstops hnone fuel
        rw [hdaemon, hcells]
        exact ⟨rfl, hrep⟩
    | unanswered =>
        simp only [Daemon.basicSwap, Cells.basicSwap, h.holder, h.holder_cells, hlists, hrun]
        exact hc'.of_view rfl
    | oomVictim | shmemError | alreadyMapped =>
        simp only [Daemon.basicSwap, Cells.basicSwap, h.holder, h.holder_cells, hlists, hrun]
        trivial

end SwappedEntry

/-! ### The swap books -/

structure SwappedIn (c : Cells) (s : Daemon) (entry : Nat) : Prop where
  global : ∃ nodes, c.links.Ring .swapList nodes ∧ .globlist entry ∉ nodes
  proc : ∃ nodes, c.links.Ring (.procSwapList (s.toSwap entry).proc) nodes ∧ .iulist entry ∉ nodes
  slot : ∃ nodes, c.links.Ring .slotFree nodes ∧ nodes.count (.slot (s.toSwap entry).snode) = 1
  swappedMemory : c.swappedMemory = s.swappedMemory - sysPageSize
  used : ∃ nodes, c.links.Ring .usedList nodes ∧ nodes.count (.page (c.toSwap entry).page) = 1

structure LeftSwapped (c : Cells) (s : Daemon) (entry : Nat) : Prop where
  free : ∃ nodes, c.links.Ring .freeList nodes ∧ nodes.Perm (s.freeList.map .page)
  usedMemory : c.usedMemory = s.usedMemory
  global : ∃ nodes, c.links.Ring .swapList nodes ∧ nodes.count (.globlist entry) = 1
  proc : ∃ nodes, c.links.Ring (.procSwapList (s.toSwap entry).proc) nodes ∧
    nodes.count (.iulist entry) = 1
  slot : ∃ nodes, c.links.Ring .slotFree nodes ∧ .slot (s.toSwap entry).snode ∉ nodes

def KeepsSwapBooks (s : Daemon) (entry : Nat) : CellsOutcome → Prop
  | .returned 0 c => SwappedIn c s entry
  | .returned (_ + 1) c => LeftSwapped c s entry
  | .suspended _ => True
  | .undefined => False

private theorem leftSwapped_of_represents {c c' : Cells} {s : Daemon} {event : Event} {entry : Nat}
    (h : SwappedEntry c s event entry) (hc' : Represents c' s) : LeftSwapped c' s entry where
  free := ⟨_, hc'.free, List.Perm.refl _⟩
  usedMemory := hc'.usedMemory
  global := ⟨_, hc'.others.swap,
    List.count_eq_one_of_mem hc'.others.swap.nodup_nodes (List.mem_map_of_mem h.global)⟩
  proc := ⟨_, hc'.others.proc _,
    List.count_eq_one_of_mem (hc'.others.proc _).nodup_nodes (List.mem_map_of_mem h.proc)⟩
  slot := ⟨_, hc'.others.slots, by simpa using h.slot⟩

/-- The swap books stay straight exactly when `swap_in` gives up before it has taken a page,
or `basic_swap` never returns. -/
theorem keepsSwapBooks_iff {c : Cells} {s : Daemon} {event : Event} {entry : Nat}
    (h : SwappedEntry c s event entry) (faults : SwapInFaults) (reply : Reply) {fuel : Nat}
    (hfuel : 2 ≤ fuel) :
    KeepsSwapBooks s entry (c.basicSwap fuel event faults reply) ↔
      swapInStops s faults ∨ faults.readFails = none ∧ reply = .unanswered := by
  by_cases hstops : swapInStops s faults
  · obtain ⟨_, c', hrun, hc'⟩ := h.basicSwap_stops hstops reply fuel
    simp only [hrun, hstops, true_or, iff_true]
    exact leftSwapped_of_represents h hc'
  · cases hread : faults.readFails with
    | some left =>
        obtain ⟨c', hrun, hbroken⟩ :=
          h.represents.swapIn_unread hstops (by simp [hread]) h.global hfuel
        simp only [Cells.basicSwap, h.holder_cells, hrun, hstops, reduceCtorEq, false_and, or_self,
          iff_false]
        intro hleft
        obtain ⟨nodes, hring, _⟩ := hleft.global
        exact hbroken nodes hring
    | none =>
        obtain ⟨c', frame, rest, _, _, hrun, _⟩ :=
          h.represents.swapIn_filled hstops hread entry fuel
        cases reply with
        | applied =>
            obtain ⟨s', c', _, hcells, hrep, hswap⟩ := h.basicSwap_applied hstops hread fuel
            simp only [hcells, hstops, reduceCtorEq, and_false, or_self, iff_false]
            intro hin
            -- the pointers determine the swap list, and the entry is in it
            obtain ⟨nodes, hring, hout⟩ := hin.global
            rw [hring.unique hrep.others.swap, hswap] at hout
            exact hout (List.mem_map_of_mem h.global)
        | unanswered =>
            simp only [Cells.basicSwap, h.holder_cells, hrun, and_self, or_true, iff_true]
            trivial
        | oomVictim | shmemError | alreadyMapped =>
            simp only [Cells.basicSwap, h.holder_cells, hrun, hstops, reduceCtorEq, and_false,
              or_self, iff_false]
            exact fun hfalse => hfalse

/-! ### A swapped page -/

/-- No free page, and one page of process `1` swapped to slot `0`. -/
def swappedDaemon : Daemon :=
  { Daemon.setup 0 0 (fun _ => 0) with
    toSwap := fun _ => ⟨0, 4096, 0, 1, false⟩
    swapList := [0]
    procSwapList := fun proc => if proc = 1 then [0] else []
    swappedMemory := 4096
    toSwapHolder := fun slot => if slot = 0 then some 0 else none }

def emptyLinks : Links Node := ⟨fun node => node, fun node => node⟩

def swappedCells : Cells where
  links := (emptyLinks.add (.globlist 0) .swapList).add (.iulist 0) (.procSwapList 1)
  usedMemory := 0
  swappedMemory := 4096
  toSwap := swappedDaemon.toSwap
  toSwapHolder := swappedDaemon.toSwapHolder

def swappedEvent : Event where
  origin := 1
  vaddr := 4096
  paddr := 0
  flags := 0
  offst := 0
  length := 0

private theorem represents_swapped : Represents swappedCells swappedDaemon := by
  have hempty : ∀ head, emptyLinks.Ring head [] := fun head => ⟨⟨rfl, rfl⟩, by simp⟩
  have hswap := (hempty .swapList).add (by simp : Node.globlist 0 ∉ [Node.swapList])
  have hproc : (emptyLinks.add (.globlist 0) .swapList).Ring (.procSwapList 1) [] :=
    (hempty _).congr fun node hnode => (hempty .swapList).sameAt_add (by
      rw [List.mem_singleton.1 hnode]
      simp)
  have hsame : ∀ node ∉ [Node.globlist 0, .swapList, .iulist 0, .procSwapList 1],
      Links.SameAt emptyLinks swappedCells.links node := by
    intro node hnode
    simp only [List.mem_cons, not_or] at hnode
    have hfirst : Links.SameAt emptyLinks (emptyLinks.add (.globlist 0) .swapList) node :=
      (hempty .swapList).sameAt_add (by simp [hnode])
    have hsecond : Links.SameAt (emptyLinks.add (.globlist 0) .swapList) swappedCells.links node :=
      hproc.sameAt_add (by simp [hnode])
    exact hfirst.trans hsecond
  have hother : ∀ head ∉ [Node.globlist 0, .swapList, .iulist 0, .procSwapList 1],
      swappedCells.links.Ring head [] := fun head hhead =>
    (hempty head).congr fun node hnode => hsame node (by rwa [List.mem_singleton.1 hnode])
  refine ⟨hother _ (by simp), ⟨hother _ (by simp), ?_, hother _ (by simp), ?_⟩, by
    simp [swappedDaemon, Daemon.setup], rfl, rfl, rfl, rfl⟩
  · exact hswap.congr fun node hnode => hproc.sameAt_add (by
      simp only [List.mem_cons, List.not_mem_nil, or_false] at hnode
      rcases hnode with rfl | rfl <;> simp)
  · intro proc
    by_cases hone : proc = 1
    · subst hone
      exact hproc.add (by simp)
    · have hnil : swappedDaemon.procSwapList proc = [] := if_neg hone
      rw [hnil]
      exact hother _ (by simpa using hone)

private theorem swappedEntry_swapped : SwappedEntry swappedCells swappedDaemon swappedEvent 0 where
  represents := represents_swapped
  holder := by decide
  global := by decide
  proc := by decide
  slot := by decide

/-- With a page `0` in the free list the page is swapped in: the entry is still the first of
both swap lists, its slot is free, and its memory still counts as swapped. -/
theorem swappedIn_keeps_entry :
    ∃ c, Cells.basicSwap 2
        { swappedCells with links := swappedCells.links.add (.page 0) .freeList }
        swappedEvent ⟨false, none⟩ .applied = .returned 0 c ∧
      c.links.next .usedList = .page 0 ∧ c.links.next .slotFree = .slot 0 ∧
      c.links.next .swapList = .globlist 0 ∧ c.links.next (.procSwapList 1) = .iulist 0 ∧
      c.swappedMemory = 4096 :=
  ⟨_, rfl, by decide, by decide, by decide, by decide, rfl⟩

theorem keepsSwapBooks_failed_seek :
    SwappedEntry swappedCells swappedDaemon swappedEvent 0 ∧
      KeepsSwapBooks swappedDaemon 0
        (Cells.basicSwap 2 swappedCells swappedEvent ⟨true, none⟩ .applied) :=
  ⟨swappedEntry_swapped,
    (keepsSwapBooks_iff swappedEntry_swapped ⟨true, none⟩ .applied (Nat.le_refl 2)).2
      (Or.inl (Or.inl rfl))⟩

end UserPaging.Usm
