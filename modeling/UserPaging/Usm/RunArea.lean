import UserPaging.Foundation.Stores
import UserPaging.Usm.RunEncoding

/-!
# The bytes that `get_pages_prep` writes

A run takes twelve bytes of the shared page, from byte 48 on, and the kernel keeps words of
its own from byte 4000 on.  Nothing in `get_pages_prep` counts the runs: a request of 512
pages may need one for each page, and room is for 329.
-/

namespace UserPaging.Usm

open UserPaging.Foundation

/-- `sizeof(int) * 4 + sizeof(unsigned long) * 4 + pos * (sizeof(int) + sizeof(long))`. -/
def slotOffset (pos : Nat) : Nat := 4 * 4 + 8 * 4 + pos * (4 + 8)

def usmPrepPreAllocStore (pfn : BitVec 64) (pos : Nat) : Store := ⟨slotOffset pos, 8, pfn⟩

def usmPrepPreAllocFastCountedStore (pos count : Nat) : Store :=
  ⟨slotOffset pos + 8, 4, BitVec.ofNat 32 count⟩

/-- The stores of the loop of `get_pages_prep` and the one after it. -/
def prepLoopStores (pfn : Nat → BitVec 64) :
    List Nat → Int → BitVec 64 → Nat → Nat → List Store
  | [], _, _, count, pos =>
      if count ≠ 0 then [usmPrepPreAllocFastCountedStore pos count] else []
  | page :: freeList, nr, vpfn, count, pos =>
      if 0 < nr then
        if vpfn = pfn page then
          prepLoopStores pfn freeList (nr - 1) (pfn page + 1) (count + 1) pos
        else
          usmPrepPreAllocFastCountedStore pos count ::
            usmPrepPreAllocStore (pfn page) (pos + 1) ::
              prepLoopStores pfn freeList (nr - 1) (pfn page + 1) 0 (pos + 1)
      else if count ≠ 0 then [usmPrepPreAllocFastCountedStore pos count] else []

/-- The stores of `get_pages_prep`, in order. -/
def getPagesPrepStores (pfn : Nat → BitVec 64) (freeList : List Nat) (nr : Int) : List Store :=
  match freeList with
  | [] | [_] => []
  | _ :: second :: freeList =>
      usmPrepPreAllocStore (pfn second) 0 ::
        prepLoopStores pfn freeList (nr - 1) (pfn second + 1) 0 0

/-! ## The slots in the bytes -/

def slotsAt (usmmem : BitVec 64) (mem : Memory 64) : RunSlots := fun pos =>
  ⟨mem.load 8 (usmmem + BitVec.ofNat 64 (slotOffset pos)),
    (mem.load 4 (usmmem + BitVec.ofNat 64 (slotOffset pos + 8))).toNat⟩

section

variable (usmmem : BitVec 64) (mem : Memory 64) {pos other : Nat}

private theorem slotsAt_usmPrepPreAllocStore (pfn : BitVec 64) (hpos : pos < 2 ^ 59)
    (hother : other < 2 ^ 59) :
    slotsAt usmmem (mem.apply usmmem (usmPrepPreAllocStore pfn pos)) other =
      usmPrepPreAlloc (slotsAt usmmem mem) pfn pos other := by
  let store := usmPrepPreAllocStore pfn pos
  have hcount : Memory.load 4 (mem.apply usmmem store)
      (usmmem + BitVec.ofNat 64 (slotOffset other + 8)) =
        mem.load 4 (usmmem + BitVec.ofNat 64 (slotOffset other + 8)) := by
    refine Memory.load_apply_of_disjoint usmmem mem store (by decide) (Nat.succ_pos _) ?_ ?_ ?_ <;>
      simp only [store, usmPrepPreAllocStore, slotOffset] <;> omega
  unfold slotsAt usmPrepPreAlloc
  rw [hcount]
  by_cases hsame : other = pos
  · subst hsame
    have hfirst : Memory.load 8 (mem.apply usmmem store)
        (usmmem + BitVec.ofNat 64 (slotOffset other)) = pfn :=
      Memory.load_apply_self usmmem mem store (show 8 ≤ 2 ^ 64 by decide)
    rw [hfirst, Function.update_self]
  · have hfirst : Memory.load 8 (mem.apply usmmem store)
        (usmmem + BitVec.ofNat 64 (slotOffset other)) =
          mem.load 8 (usmmem + BitVec.ofNat 64 (slotOffset other)) := by
      refine Memory.load_apply_of_disjoint usmmem mem store
          (by decide) (Nat.succ_pos _) ?_ ?_ ?_ <;>
        simp only [store, usmPrepPreAllocStore, slotOffset] <;> omega
    rw [hfirst, Function.update_of_ne hsame]

private theorem slotsAt_usmPrepPreAllocFastCountedStore {count : Nat} (hcount : count < 2 ^ 32)
    (hpos : pos < 2 ^ 59) (hother : other < 2 ^ 59) :
    slotsAt usmmem (mem.apply usmmem (usmPrepPreAllocFastCountedStore pos count)) other =
      usmPrepPreAllocFastCounted (slotsAt usmmem mem) pos count other := by
  let store := usmPrepPreAllocFastCountedStore pos count
  have hfirst : Memory.load 8 (mem.apply usmmem store)
      (usmmem + BitVec.ofNat 64 (slotOffset other)) =
        mem.load 8 (usmmem + BitVec.ofNat 64 (slotOffset other)) := by
    refine Memory.load_apply_of_disjoint usmmem mem store (by decide) (Nat.succ_pos _) ?_ ?_ ?_ <;>
      simp only [store, usmPrepPreAllocFastCountedStore, slotOffset] <;> omega
  unfold slotsAt usmPrepPreAllocFastCounted
  rw [hfirst]
  by_cases hsame : other = pos
  · subst hsame
    have hextra : Memory.load 4 (mem.apply usmmem store)
        (usmmem + BitVec.ofNat 64 (slotOffset other + 8)) = BitVec.ofNat 32 count :=
      Memory.load_apply_self usmmem mem store (show 4 ≤ 2 ^ 64 by decide)
    rw [hextra, BitVec.toNat_ofNat, Nat.mod_eq_of_lt hcount, Function.update_self]
  · have hextra : Memory.load 4 (mem.apply usmmem store)
        (usmmem + BitVec.ofNat 64 (slotOffset other + 8)) =
          mem.load 4 (usmmem + BitVec.ofNat 64 (slotOffset other + 8)) := by
      refine Memory.load_apply_of_disjoint usmmem mem store
          (by decide) (Nat.succ_pos _) ?_ ?_ ?_ <;>
        simp only [store, usmPrepPreAllocFastCountedStore, slotOffset] <;> omega
    rw [hextra, Function.update_of_ne hsame]

end

def SlotsMatch (usmmem : BitVec 64) (mem : Memory 64) (slots : RunSlots) : Prop :=
  ∀ pos < 2 ^ 59, slotsAt usmmem mem pos = slots pos

section

variable {usmmem : BitVec 64} {mem : Memory 64} {slots : RunSlots} {pos : Nat}

private theorem SlotsMatch.first (hslots : SlotsMatch usmmem mem slots) (pfn : BitVec 64)
    (hpos : pos < 2 ^ 59) :
    SlotsMatch usmmem (mem.apply usmmem (usmPrepPreAllocStore pfn pos))
      (usmPrepPreAlloc slots pfn pos) := by
  intro other hother
  rw [slotsAt_usmPrepPreAllocStore usmmem mem pfn hpos hother]
  simp only [usmPrepPreAlloc, Function.update_apply, hslots pos hpos, hslots other hother]

private theorem SlotsMatch.extra (hslots : SlotsMatch usmmem mem slots) {count : Nat}
    (hcount : count < 2 ^ 32) (hpos : pos < 2 ^ 59) :
    SlotsMatch usmmem (mem.apply usmmem (usmPrepPreAllocFastCountedStore pos count))
      (usmPrepPreAllocFastCounted slots pos count) := by
  intro other hother
  rw [slotsAt_usmPrepPreAllocFastCountedStore usmmem mem hcount hpos hother]
  simp only [usmPrepPreAllocFastCounted, Function.update_apply, hslots pos hpos,
    hslots other hother]

private theorem SlotsMatch.finish {s : PrepRuns} (hslots : SlotsMatch usmmem mem s.slots)
    (hcount : s.count < 2 ^ 32) (hpos : s.pos < 2 ^ 59) :
    SlotsMatch usmmem (mem.applyAll usmmem
      (if s.count ≠ 0 then [usmPrepPreAllocFastCountedStore s.pos s.count] else [])) s.finish := by
  unfold PrepRuns.finish
  split
  · exact hslots.extra hcount hpos
  · exact hslots

def PrepRuns.addStores (s : PrepRuns) (pfn : BitVec 64) : List Store :=
  if s.vpfn = pfn then []
  else [usmPrepPreAllocFastCountedStore s.pos s.count, usmPrepPreAllocStore pfn (s.pos + 1)]

private theorem prepLoopStores_cons (pfn : Nat → BitVec 64) (page : Nat) (freeList : List Nat)
    {nr : Int}
    (hnr : 0 < nr) (s : PrepRuns) :
    prepLoopStores pfn (page :: freeList) nr s.vpfn s.count s.pos =
      s.addStores (pfn page) ++ prepLoopStores pfn freeList (nr - 1) (s.add (pfn page)).vpfn
        (s.add (pfn page)).count (s.add (pfn page)).pos := by
  simp only [prepLoopStores, hnr, if_true, PrepRuns.addStores, PrepRuns.add]
  split <;> rfl

private theorem SlotsMatch.add {s : PrepRuns} (hslots : SlotsMatch usmmem mem s.slots)
    (hcount : s.count < 2 ^ 32) (hpos : s.pos + 1 < 2 ^ 59) (pfn : BitVec 64) :
    SlotsMatch usmmem (mem.applyAll usmmem (s.addStores pfn)) (s.add pfn).slots := by
  unfold PrepRuns.addStores PrepRuns.add
  split
  · exact hslots
  · exact (hslots.extra hcount (Nat.lt_of_succ_lt hpos)).first pfn hpos

private theorem PrepRuns.add_le (s : PrepRuns) (pfn : BitVec 64) :
    (s.add pfn).count ≤ s.count + 1 ∧ (s.add pfn).pos ≤ s.pos + 1 := by
  unfold PrepRuns.add
  split <;> simp

private theorem SlotsMatch.prepLoop (pfn : Nat → BitVec 64) (freeList : List Nat) (nr : Int)
    {s : PrepRuns} (hslots : SlotsMatch usmmem mem s.slots)
    (hcount : s.count + freeList.length < 2 ^ 32) (hpos : s.pos + freeList.length < 2 ^ 59) :
    SlotsMatch usmmem
      (mem.applyAll usmmem (prepLoopStores pfn freeList nr s.vpfn s.count s.pos))
      (prepLoop pfn freeList nr s).2.2.2.finish := by
  induction freeList generalizing nr s mem with
  | nil => exact hslots.finish hcount hpos
  | cons page freeList ih =>
      rw [List.length_cons] at hcount hpos
      by_cases hnr : 0 < nr
      · obtain ⟨hcount', hpos'⟩ := s.add_le (pfn page)
        rw [prepLoopStores_cons pfn page freeList hnr, Memory.applyAll_append, Usm.prepLoop,
          if_pos hnr]
        exact ih (nr - 1) (hslots.add (by omega) (by omega) (pfn page)) (by omega) (by omega)
      · simp only [prepLoopStores, Usm.prepLoop, hnr, if_false]
        exact hslots.finish (by omega) (by omega)

theorem slotsMatch_getPagesPrep (pfn : Nat → BitVec 64) {freeList : List Nat}
    (hfree : freeList.length < 2 ^ 32) (nr : Int) (event : Event)
    (hslots : SlotsMatch usmmem mem slots) :
    SlotsMatch usmmem (mem.applyAll usmmem (getPagesPrepStores pfn freeList nr))
      (getPagesPrep pfn freeList nr event slots).slots := by
  match freeList with
  | [] | [_] => exact hslots
  | _ :: second :: freeList =>
      simp only [List.length_cons] at hfree
      have hbegin : SlotsMatch usmmem _ (PrepRuns.begin slots (pfn second)).slots :=
        hslots.first (pfn second) (by decide)
      exact hbegin.prepLoop pfn freeList (nr - 1) (by simp only [PrepRuns.begin]; omega)
        (by simp only [PrepRuns.begin]; omega)

end

/-! ## The slots that are written -/

def SlotStore (pos : Nat) (store : Store) : Prop :=
  (∃ pfn, store = usmPrepPreAllocStore pfn pos) ∨
    ∃ count, store = usmPrepPreAllocFastCountedStore pos count

private theorem SlotStore.within {pos : Nat} {store : Store} (hstore : SlotStore pos store) :
    store.Within (slotOffset pos) (slotOffset (pos + 1)) := by
  rcases hstore with ⟨pfn, rfl⟩ | ⟨count, rfl⟩
  · simp only [Store.Within, usmPrepPreAllocStore, slotOffset]
    omega
  · simp only [Store.Within, usmPrepPreAllocFastCountedStore, slotOffset]
    omega

section

variable (pfn : Nat → BitVec 64)

def runFrames (freeList : List Nat) (nr : Int) : List (BitVec 64) :=
  (freeList.take nr.toNat).map pfn

private theorem runFrames_cons (page : Nat) (freeList : List Nat) {nr : Int} (hnr : 0 < nr) :
    runFrames pfn (page :: freeList) nr = pfn page :: runFrames pfn freeList (nr - 1) := by
  have htoNat : nr.toNat = (nr - 1).toNat + 1 := by omega
  rw [runFrames, htoNat, List.take_succ_cons, List.map_cons, runFrames]

private theorem runFrames_of_le (freeList : List Nat) {nr : Int} (hnr : ¬0 < nr) :
    runFrames pfn freeList nr = [] := by
  have htoNat : nr.toNat = 0 := by omega
  rw [runFrames, htoNat, List.take_zero, List.map_nil]

private theorem slotStore_of_mem_last {count pos : Nat} {store : Store}
    (hstore : store ∈
      if count ≠ 0 then [usmPrepPreAllocFastCountedStore pos count] else []) :
    SlotStore pos store := by
  split at hstore
  · exact .inr ⟨count, List.mem_singleton.1 hstore⟩
  · simp at hstore

private theorem slotStore_of_mem_prepLoopStores {freeList : List Nat} {nr : Int} {f : BitVec 64}
    {count pos : Nat} {store : Store}
    (hstore : store ∈ prepLoopStores pfn freeList nr (f + 1) count pos) :
    ∃ other < pos + runCount (· + 1) (f :: runFrames pfn freeList nr), SlotStore other store := by
  induction freeList generalizing nr f count pos with
  | nil => exact ⟨pos, Nat.lt_add_of_pos_right (runCount_pos ..), slotStore_of_mem_last hstore⟩
  | cons page freeList ih =>
      by_cases hnr : 0 < nr
      · simp only [prepLoopStores, hnr, if_true] at hstore
        rw [runFrames_cons pfn page freeList hnr, runCount]
        by_cases hnext : f + 1 = pfn page
        · rw [if_pos hnext] at hstore ⊢
          exact ih hstore
        · rw [if_neg hnext] at hstore ⊢
          rcases List.mem_cons.1 hstore with rfl | hstore
          · exact ⟨pos, by omega, .inr ⟨count, rfl⟩⟩
          rcases List.mem_cons.1 hstore with rfl | hstore
          · have hpos := runCount_pos (· + 1) (pfn page) (runFrames pfn freeList (nr - 1))
            exact ⟨pos + 1, by omega, .inl ⟨pfn page, rfl⟩⟩
          · obtain ⟨other, hother, hslot⟩ := ih hstore
            exact ⟨other, by omega, hslot⟩
      · simp only [prepLoopStores, hnr, if_false] at hstore
        exact ⟨pos, Nat.lt_add_of_pos_right (runCount_pos ..), slotStore_of_mem_last hstore⟩

private theorem exists_store_prepLoopStores {freeList : List Nat} {nr : Int} {f : BitVec 64}
    {count pos other : Nat} (hpos : pos < other)
    (hother : other < pos + runCount (· + 1) (f :: runFrames pfn freeList nr)) :
    ∃ frame, usmPrepPreAllocStore frame other ∈
      prepLoopStores pfn freeList nr (f + 1) count pos := by
  induction freeList generalizing nr f count pos with
  | nil =>
      simp only [runFrames, List.take_nil, List.map_nil, runCount] at hother
      omega
  | cons page freeList ih =>
      by_cases hnr : 0 < nr
      · simp only [prepLoopStores, hnr, if_true]
        rw [runFrames_cons pfn page freeList hnr, runCount] at hother
        by_cases hnext : f + 1 = pfn page
        · rw [if_pos hnext] at hother ⊢
          exact ih hpos hother
        · rw [if_neg hnext] at hother ⊢
          by_cases hsame : other = pos + 1
          · exact ⟨pfn page, by simp [hsame]⟩
          · have hother' : other <
                pos + 1 + runCount (· + 1) (pfn page :: runFrames pfn freeList (nr - 1)) := by omega
            obtain ⟨frame, hframe⟩ := @ih (nr - 1) (pfn page) 0 (pos + 1) (by omega) hother'
            exact ⟨frame, List.mem_cons_of_mem _ (List.mem_cons_of_mem _ hframe)⟩
      · simp only [runFrames_of_le pfn _ hnr, runCount] at hother
        omega

private theorem runFrames_tail (first second : Nat) (freeList : List Nat) (nr : Int) :
    runFrames pfn (first :: second :: freeList).tail (max nr 1) =
      pfn second :: runFrames pfn freeList (nr - 1) := by
  have htoNat : (max nr 1 - 1).toNat = (nr - 1).toNat := by omega
  rw [List.tail_cons, runFrames_cons pfn second freeList (by omega), runFrames, htoNat, runFrames]

variable {pfn} {freeList : List Nat} {nr : Int}

private theorem slotStore_of_mem {store : Store}
    (hstore : store ∈ getPagesPrepStores pfn freeList nr) :
    ∃ pos < runCount (· + 1) (runFrames pfn freeList.tail (max nr 1)), SlotStore pos store := by
  match freeList with
  | [] | [_] => simp [getPagesPrepStores] at hstore
  | first :: second :: freeList =>
      rw [runFrames_tail]
      rcases List.mem_cons.1 hstore with rfl | hstore
      · exact ⟨0, runCount_pos .., .inl ⟨pfn second, rfl⟩⟩
      · simpa using slotStore_of_mem_prepLoopStores pfn hstore

private theorem exists_store {pos : Nat}
    (hpos : pos < runCount (· + 1) (runFrames pfn freeList.tail (max nr 1))) :
    ∃ frame, usmPrepPreAllocStore frame pos ∈ getPagesPrepStores pfn freeList nr := by
  match freeList with
  | [] | [_] => simp [runFrames, runCount] at hpos
  | first :: second :: freeList =>
      rw [runFrames_tail] at hpos
      cases pos with
      | zero => exact ⟨pfn second, List.mem_cons_self⟩
      | succ pos =>
          obtain ⟨frame, hframe⟩ := exists_store_prepLoopStores pfn (Nat.succ_pos pos)
            (by rwa [Nat.zero_add])
          exact ⟨frame, List.mem_cons_of_mem _ hframe⟩

end

/-! ## The room for them -/

def workerChannel : Nat := 4000

def InRunArea (stores : List Store) : Prop :=
  ∀ store ∈ stores, store.Within (slotOffset 0) workerChannel

def KeepsTrailer (stores : List Store) : Prop :=
  ∀ (usmmem : BitVec 64) (mem : Memory 64) (i : Nat), workerChannel ≤ i → i < 4096 →
    mem.applyAll usmmem stores (usmmem + BitVec.ofNat 64 i) = mem (usmmem + BitVec.ofNat 64 i)

private theorem InRunArea.keepsTrailer {stores : List Store} (harea : InRunArea stores) :
    KeepsTrailer stores := fun _ mem _ hchannel hi =>
  Memory.applyAll_of_within harea hchannel (by omega) mem

section

variable {pfn : Nat → BitVec 64} {freeList : List Nat} {nr : Int}

private theorem inRunArea_of_runCount_le
    (hruns : runCount (· + 1) (runFrames pfn freeList.tail (max nr 1)) ≤ 329) :
    InRunArea (getPagesPrepStores pfn freeList nr) := by
  intro store hstore
  obtain ⟨pos, hpos, hslot⟩ := slotStore_of_mem hstore
  obtain ⟨hlow, hhigh⟩ := hslot.within
  simp only [Store.Within, slotOffset, workerChannel] at hlow hhigh ⊢
  omega

private theorem not_keepsTrailer_of_lt_runCount
    (hruns : 329 < runCount (· + 1) (runFrames pfn freeList.tail (max nr 1))) :
    ¬KeepsTrailer (getPagesPrepStores pfn freeList nr) := by
  intro hkeeps
  obtain ⟨frame, hframe⟩ := exists_store hruns
  obtain ⟨mem, hchanged⟩ := Memory.exists_applyAll_ne 0 4000 hframe
    (show (4000 - (0 + BitVec.ofNat 64 (slotOffset 329))).toNat < 8 by decide)
  exact hchanged (hkeeps 0 mem 4000 le_rfl (by decide))

end

/-- For every free list and every number of pages: the stores stay in the run area, and the
words behind it as they are, exactly when the frames taken form at most 329 runs. -/
theorem run_area_kept_iff (pfn : Nat → BitVec 64) (freeList : List Nat) (nr : Int) :
    (InRunArea (getPagesPrepStores pfn freeList nr) ↔
        runCount (· + 1) (runFrames pfn freeList.tail (max nr 1)) ≤ 329) ∧
      (KeepsTrailer (getPagesPrepStores pfn freeList nr) ↔
        runCount (· + 1) (runFrames pfn freeList.tail (max nr 1)) ≤ 329) := by
  have hfits (hkeeps : KeepsTrailer (getPagesPrepStores pfn freeList nr)) :
      runCount (· + 1) (runFrames pfn freeList.tail (max nr 1)) ≤ 329 :=
    Nat.le_of_not_lt fun hruns => not_keepsTrailer_of_lt_runCount hruns hkeeps
  exact ⟨⟨fun harea => hfits harea.keepsTrailer, inRunArea_of_runCount_le⟩,
    hfits, fun hruns => (inRunArea_of_runCount_le hruns).keepsTrailer⟩

/-- A free list in which no two neighbours are consecutive, and a request of 330 pages: the
lowest byte of the channel of the worker is overwritten. -/
theorem scattered_overwrites_channel :
    (∃ store ∈ getPagesPrepStores (fun page => 1000 + BitVec.ofNat 64 page)
        ((List.range 331).map (2 * ·)) 330, ¬store.Within 48 4000) ∧
      Memory.applyAll 0 (fun _ => 255) (getPagesPrepStores
        (fun page => 1000 + BitVec.ofNat 64 page) ((List.range 331).map (2 * ·)) 330) 4000 = 0 := by
  decide +kernel

end UserPaging.Usm
