import UserPaging.Usm.Books
import UserPaging.Usm.SwapAnswer

/-!
# What a first touch gets to see

`basic_alloc_uniq` hands out a free page as it is.  Pages come to the free list
zeroed from `pindex_free` only: `swap_out`, the reclaim of a dead process and a
failed swap-in leave their old contents in place.  A first touch sees zeroes
exactly as long as those contents are zero.
-/

namespace UserPaging.Usm.Daemon

open UserPaging.Foundation

structure Clean (s : Daemon) : Prop where
  free : ∀ frame ∈ s.freeList, (s.pages frame).data = 0
  submitted : ∀ submission ∈ s.submissions,
    submission.firstTouch = true → submission.data = 0

variable {s : Daemon}

namespace Clean

private theorem setup (pagesNumber slots : Nat) (prio : Nat → Int) :
    Clean (Daemon.setup pagesNumber slots prio) :=
  ⟨fun _ _ => rfl, fun _ hmem => by cases hmem⟩

private theorem takeFree (hs : Clean s) {frame : Nat} {rest : List Nat}
    (hfree : s.freeList = frame :: rest) :
    Clean (s.takeFree rest) ∧ (s.pages frame).data = 0 := by
  have hall : ∀ other ∈ frame :: rest, (s.pages other).data = 0 := hfree ▸ hs.free
  exact ⟨⟨fun other hmem => hall other (List.mem_cons_of_mem _ hmem), hs.submitted⟩,
    hall frame List.mem_cons_self⟩

private theorem logSubmission (hs : Clean s) {event : Event} {frame : Nat}
    (hdata : s.pageTable event.origin event.vaddr = .empty → (s.pages frame).data = 0) :
    Clean (s.logSubmission event frame) := by
  refine ⟨hs.free, ?_⟩
  rintro submission (_ | ⟨_, hmem⟩) htouch
  · exact hdata (by simpa using htouch)
  · exact hs.submitted submission hmem htouch

private theorem submit (hs : Clean s) {event : Event} {frame : Nat}
    (hdata : s.pageTable event.origin event.vaddr = .empty → (s.pages frame).data = 0)
    (reply : Reply) :
    (s.usmSubmitAllocEvent event frame reply).Ensures Clean fun _ => Clean := by
  have hlogged := hs.logSubmission hdata
  cases reply <;> exact { hlogged with }

private theorem giveBack (hs : Clean s) {frame : Nat} (hdata : (s.pages frame).data = 0)
    {freeList : List Nat} (hback : ∀ other ∈ freeList, other = frame ∨ other ∈ s.freeList) :
    Clean (s.giveBack frame freeList) := by
  refine ⟨fun other hmem => ?_, hs.submitted⟩
  rcases hback other hmem with rfl | hfree
  · exact hdata
  · exact hs.free other hfree

private theorem linkPage (hs : Clean s) (frame : Nat) (vaddr : BitVec 64) (proc : Nat) :
    Clean (s.linkPage frame vaddr proc) := by
  refine ⟨fun other hmem => ?_, hs.submitted⟩
  by_cases hother : other = frame
  · subst hother
    simpa [Daemon.linkPage] using hs.free other hmem
  · simpa [Daemon.linkPage, Function.update_of_ne hother] using hs.free other hmem

private theorem setData (hs : Clean s) (frame : Nat) {data : PageData}
    (hdata : frame ∈ s.freeList → data = 0) : Clean (s.setData frame data) := by
  refine ⟨fun other hmem => ?_, hs.submitted⟩
  by_cases hother : other = frame
  · subst hother
    simpa [Daemon.setData] using hdata hmem
  · simpa [Daemon.setData, Function.update_of_ne hother] using hs.free other hmem

private theorem alloc (hs : Clean s) (event : Event) (reply : Reply) :
    (s.basicAllocUniq event reply).Ensures Clean fun _ => Clean := by
  unfold basicAllocUniq
  cases hfree : s.freeList with
  | nil => exact hs
  | cons frame rest =>
      obtain ⟨htaken, hdata⟩ := hs.takeFree hfree
      have hlogged : Clean ((s.takeFree rest).logSubmission event frame) :=
        htaken.logSubmission fun _ => hdata
      have hback : Clean (((s.takeFree rest).logSubmission event frame).giveBack frame
          (frame :: rest)) := hlogged.giveBack hdata fun _ => List.mem_cons.1
      cases reply with
      | applied =>
          have hlinked := hlogged.linkPage frame event.vaddr event.origin
          exact { hlinked with }
      | oomVictim => exact hback
      | shmemError => exact hback
      | alreadyMapped => exact hback
      | unanswered => exact hlogged

/-! ## Eviction -/

private theorem swapOutUndo (hs : Clean s) (entry : Nat) : Clean (s.swapOutUndo entry) := by
  unfold Daemon.swapOutUndo
  dsimp only
  split
  · exact { hs with }
  · exact { hs with }

private theorem swapOutEnd (hs : Clean s) {entry : Nat} {faults : EvictFaults}
    (hdata : faults.seekFails = false → faults.writeFails = none →
      (s.pages (s.toSwap entry).page).data = 0) : Clean (s.swapOutEnd entry faults) := by
  unfold Daemon.swapOutEnd
  dsimp only
  split
  · exact hs.swapOutUndo entry
  · rename_i hseek
    split
    · rename_i torn _
      have htorn : Clean (s.writeSlot (s.toSwap entry).snode torn) := { hs with }
      exact htorn.swapOutUndo entry
    · rename_i hwrite
      split
      · exact { hs with }
      · have hback := hs.giveBack (hdata (by simpa using hseek) hwrite) fun _ => List.mem_cons.1
        exact { hback with }

end Clean

def givesBack (s : Daemon) (victim : Nat) (faults : EvictFaults) : Bool :=
  s.prio (s.pages victim).process == -1 ||
    !faults.clearFails &&
      (s.pageTable (s.pages victim).process (s.pages victim).virtualAddress).present &&
      !faults.seekFails && faults.writeFails.isNone

def CleanEvict (s : Daemon) (faults : EvictFaults) : Prop :=
  ∀ victim ∈ s.usedList.head?,
    s.givesBack victim faults = true → (s.pages victim).data = 0

private theorem CleanEvict.of_sameUsed {s' : Daemon} {faults : EvictFaults}
    (hclean : s.CleanEvict faults) (hsame : SameUsed s s') : s'.CleanEvict faults := by
  intro victim hvictim
  rw [hsame.usedList] at hvictim
  have hpage := hsame.pages victim (List.mem_of_mem_head? hvictim)
  rw [givesBack, hsame.prio, hsame.pageTable, hpage]
  exact hclean victim hvictim

private theorem Clean.evict (hs : Clean s) {faults : EvictFaults} (hclean : s.CleanEvict faults) :
    (s.handleEvictRequest faults).Ensures Clean fun _ => Clean := by
  refine handleEvictRequest_ensures hs ?_ ?_ ?_
  · intro victim rest hused hdead
    have hdata := hclean victim (by simp [hused]) (by simp [givesBack, hdead])
    have hback := hs.giveBack hdata fun _ => List.mem_cons.1
    exact { hback with }
  · intro victim rest slot slots _ _ _
    exact { hs with }
  · intro victim rest slot slots hused _ _ hpresent
    have hheld : Clean ((s.evicting victim slot rest slots faults.retaken).clearAndSet
        (s.evictRecord victim slot faults.retaken)) := { hs with }
    refine hheld.swapOutEnd fun hseek hwrite => ?_
    have hrecord : ((s.evicting victim slot rest slots faults.retaken).clearAndSet
        (s.evictRecord victim slot faults.retaken)).toSwap s.nextToSwap =
          s.evictRecord victim slot faults.retaken := toSwap_evicting s victim slot rest slots _
    rw [hrecord]
    refine hclean victim (by simp [hused]) ?_
    simp [givesBack, hpresent, hseek, hwrite]

/-! ## Swap-in -/

private theorem Clean.swapIn_failed (hs : Clean s) {entry : Nat} {faults : SwapInFaults}
    (hread : ∀ left ∈ faults.readFails, left = 0) {s' : Daemon} {ret : Nat}
    (hswapIn : s.swapIn entry faults = (ret + 1, s')) : Clean s' := by
  unfold swapIn at hswapIn
  split at hswapIn
  · cases hswapIn
    exact hs
  · split at hswapIn
    · cases hswapIn
      exact hs
    · rename_i frame rest hfree
      split at hswapIn
      · rename_i left hleft
        cases hswapIn
        have hzero := hread left hleft
        have hwritten := (hs.takeFree hfree).1.setData frame fun _ => hzero
        have hback : Clean (((s.takeFree rest).setData frame left).giveBack frame
            (rest ++ [frame])) := by
          refine hwritten.giveBack (by simp [Daemon.setData, hzero]) fun other hmem => ?_
          rcases List.mem_append.1 hmem with hrest | hlast
          · exact .inr hrest
          · exact .inl (List.mem_singleton.1 hlast)
        exact { hback with }
      · simp at hswapIn

private theorem Clean.basicSwap (hs : Clean s) (hbooks : Books s) {event : Event}
    (hraw : s.pageTable event.origin event.vaddr ≠ .empty) {faults : SwapInFaults}
    (hread : ∀ left ∈ faults.readFails, left = 0) (reply : Reply) :
    (s.basicSwap event faults reply).Ensures Clean fun _ => Clean := by
  unfold Daemon.basicSwap
  cases s.toSwapHolder (eventSlot event.offst) with
  | none => trivial
  | some entry =>
      dsimp only
      split
      · rename_i s' hswapIn
        obtain ⟨frame, rest, hfree, rfl⟩ := eq_of_swapIn hswapIn
        have hloose := (hbooks.pages.takeFree hfree).2
        have hfilled : Clean ((s.takeFree rest).fillPage entry frame) := by
          have hdata : Clean ((s.takeFree rest).setData frame
              (s.backend (snodeOffset (s.toSwap entry).snode))) :=
            (hs.takeFree hfree).1.setData frame fun hmem => absurd hmem hloose.notFree
          exact { hdata with }
        refine (hfilled.submit (fun hempty => absurd hempty hraw) reply).andThen ?_
        intro ret s' hs'
        split
        · trivial
        · exact ⟨(hs'.linkPage _ _ _).free, hs'.submitted⟩
      · rename_i ret s' hne hswapIn
        cases ret with
        | zero => exact absurd rfl hne
        | succ ret => exact hs.swapIn_failed hread hswapIn

/-! ## Histories -/

/-- What a step needs, besides being tame, for first touches to see zeroes: the pages
that it gives back hold zeroes already. -/
def Clears (s : Daemon) (op : Op) : Prop :=
  s.Tame op ∧
    match op with
    | .fault event faults =>
        (event.isSwap = true → ∀ left ∈ faults.swapIn.readFails, left = 0) ∧
        (s.attemptFails event faults = true → s.CleanEvict faults.evict)
    | .evict faults => s.CleanEvict faults
    | .write .. | .free .. | .dropSwapped .. | .setPrio .. | .exit _ => True

private theorem Clean.firstAttempt (hs : Clean s) (hbooks : Books s) {event : Event}
    {faults : EventFaults} (hclears : s.Clears (.fault event faults)) :
    (s.firstAttempt event faults).Ensures Clean fun _ => Clean := by
  obtain ⟨htame, hread, -⟩ := hclears
  unfold Daemon.firstAttempt
  cases hevent : event.isSwap with
  | true =>
      obtain ⟨hpte, hmiss⟩ := htame.1 hevent
      simp only [if_true, trySwapCache, hmiss]
      exact hs.basicSwap hbooks hpte (hread hevent) faults.swapReply
  | false => exact hs.alloc event faults.allocReply

private theorem Clean.handleEvents (hs : Clean s) (hbooks : Books s) {event : Event}
    {faults : EventFaults} (hposted : s.posted event = true)
    (hclears : s.Clears (.fault event faults)) :
    (s.usmHandleEvents event faults).Ensures Clean fun _ => Clean := by
  have hfirst := (hs.firstAttempt hbooks hclears).and (hbooks.firstAttempt hposted hclears.1)
  refine Outcome.Ensures.andThen (hfirst.mono (fun _ h => h.1) fun _ _ h => h) ?_
  rintro ret s' ⟨hs', -, hfails⟩
  by_cases hret : ret = 1
  · obtain ⟨hfailed, hsame⟩ := hfails hret
    simp only [hret, ne_eq, not_true_eq_false, if_false]
    refine (hs'.evict ((hclears.2.2 hfailed).of_sameUsed hsame)).andThen fun _ s'' hs'' => ?_
    exact hs''.alloc event faults.retryReply
  · simp only [ne_eq, hret, not_false_eq_true, if_true]
    exact hs'

private theorem Clean.free_page (hs : Clean s) (proc : Nat) (vaddr : BitVec 64) (frame : Nat) :
    Clean ((s.setPte proc vaddr .empty).pindexFree frame) := by
  have hcleared : Clean (s.setPte proc vaddr .empty) := { hs with }
  have hzeroed := (hcleared.setData frame fun _ => rfl).linkPage frame 0 0
  have hdata : ((((s.setPte proc vaddr .empty).setData frame 0).linkPage frame 0 0).pages
      frame).data = 0 := by
    simp [Daemon.linkPage, Daemon.setData]
  refine ⟨(hzeroed.giveBack hdata fun other hmem => ?_).free, hs.submitted⟩
  rcases List.mem_append.1 hmem with hold | hlast
  · exact .inr (List.mem_of_mem_erase hold)
  · exact .inl (List.mem_singleton.1 hlast)

private theorem Clean.step (hs : Clean s) (hbooks : Books s) {op : Op} {s' : Daemon}
    (hclears : s.Clears op) (hstep : s.step op = some s') : Clean s' := by
  cases op with
  | fault event faults =>
      simp only [Daemon.step, Option.ite_none_right_eq_some] at hstep
      exact (hs.handleEvents hbooks hstep.1 hclears).of_state? hstep.2
  | evict faults => exact (hs.evict hclears.2).of_state? hstep
  | setPrio proc prio =>
      cases hstep
      exact { hs with }
  | exit proc =>
      cases hstep
      exact { hs with }
  | write proc vaddr data =>
      simp only [Daemon.step] at hstep
      split at hstep
      · rename_i frame hmapped
        cases hstep
        exact hs.setData frame fun hfree =>
          absurd hfree (hbooks.pages.notFree proc vaddr frame hmapped)
      all_goals cases hstep
  | free proc vaddr =>
      simp only [Daemon.step] at hstep
      split at hstep
      · rename_i frame hmapped
        cases hstep
        exact hs.free_page proc vaddr frame
      all_goals cases hstep
  | dropSwapped proc vaddr =>
      simp only [Daemon.step] at hstep
      split at hstep
      · cases hstep
        exact { hs with }
      all_goals cases hstep

private theorem books_clean_step {op : Op} {s' : Daemon} (hs : Books s ∧ Clean s)
    (hclears : s.Clears op) (hstep : s.step op = some s') : Books s' ∧ Clean s' :=
  ⟨hs.1.step hclears.1 hstep, hs.2.step hs.1 hclears hstep⟩

/-- In every history whose evictions and failed swap-ins give back zeroed pages only,
each frame submitted for a first touch holds zeroes. -/
theorem first_touch_clean (pagesNumber : Nat) {slots : Nat} (hslots : slots ≤ slotLimit)
    (prio : Nat → Int) {ops : List Op}
    (hclears : StepsMeet step Clears (setup pagesNumber slots prio) ops) :
    ∀ s ∈ run step (setup pagesNumber slots prio) ops, ∀ submission ∈ s.submissions,
      submission.firstTouch = true → submission.data = 0 := by
  intro s hrun
  have hsetup : Books (setup pagesNumber slots prio) ∧ Clean (setup pagesNumber slots prio) :=
    ⟨⟨.setup pagesNumber slots prio, .setup pagesNumber hslots prio⟩,
      .setup pagesNumber slots prio⟩
  have hclean := run_invariant_of_meets (fun _ _ _ hs hop hstep => books_clean_step hs hop hstep)
    hsetup hclears hrun
  exact hclean.2.submitted

end UserPaging.Usm.Daemon

namespace UserPaging.Usm

open UserPaging.Foundation

def touchEvictTouch (writes : List Op) : List Op :=
  .fault (firstTouchEvent 0 0x1000) noFaults ::
    (writes ++ [.evict noEvictFaults, .fault (firstTouchEvent 1 0x1000) noFaults])

theorem first_touch_clean_touchEvictTouch :
    (run Daemon.step (Daemon.setup 1 4 fun _ => 0) (touchEvictTouch [])).isSome = true ∧
      ∀ s ∈ run Daemon.step (Daemon.setup 1 4 fun _ => 0) (touchEvictTouch []),
        ∀ submission ∈ s.submissions, submission.firstTouch = true → submission.data = 0 :=
  ⟨by decide, Daemon.first_touch_clean 1 (by decide) (fun _ => 0)
    ⟨⟨⟨nofun, nofun⟩, nofun, nofun⟩,
      ⟨fun _ hvictim => by cases hvictim; rfl, fun _ hvictim _ => by cases hvictim; rfl⟩,
      ⟨⟨nofun, nofun⟩, nofun, nofun⟩, trivial⟩⟩

/-- What process `0` wrote to its page is what process `1` finds in its own. -/
theorem first_touch_reads_evicted_bytes :
    ∃ s ∈ run Daemon.step (Daemon.setup 1 4 fun _ => 0)
        (touchEvictTouch [.write 0 0x1000 fun _ => 7]),
      ∃ submission ∈ s.submissions, submission.firstTouch = true ∧
        submission.event.origin = 1 ∧ submission.data = fun _ => 7 :=
  ⟨_, rfl, _, List.mem_cons_self, rfl, rfl, rfl⟩

end UserPaging.Usm
