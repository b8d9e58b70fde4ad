import UserPaging.Usm.ExtraPages
import UserPaging.Usm.SharedPage

/-!
# `get_pages_prep`

The daemon takes pages from the head of its free list and writes their frames as runs
into the shared page.  The first page answers the fault itself; the second one opens the
first run without being counted, so that one page more is taken than is reported.  The
count of the last run is written only if it is not zero: for a run of one frame the slot
keeps the count of an earlier request.
-/

namespace UserPaging.Usm

open UserPaging.Foundation

/-- The variables `vpfn`, `count` and `pos`, and the slots written so far. -/
structure PrepRuns where
  slots : RunSlots
  vpfn : BitVec 64
  count : Nat
  pos : Nat

namespace PrepRuns

def begin (slots : RunSlots) (pfn : BitVec 64) : PrepRuns where
  slots := usmPrepPreAlloc slots pfn 0
  vpfn := pfn + 1
  count := 0
  pos := 0

def add (s : PrepRuns) (pfn : BitVec 64) : PrepRuns :=
  if s.vpfn = pfn then { s with count := s.count + 1, vpfn := pfn + 1 }
  else
    { slots := usmPrepPreAlloc (usmPrepPreAllocFastCounted s.slots s.pos s.count) pfn (s.pos + 1)
      vpfn := pfn + 1
      count := 0
      pos := s.pos + 1 }

def finish (s : PrepRuns) : RunSlots :=
  if s.count ≠ 0 then usmPrepPreAllocFastCounted s.slots s.pos s.count else s.slots

end PrepRuns

/-- The loop of `get_pages_prep`: the pages it moves to `placeholder`, the free list that
it leaves, and `nr` and the runs at its end. -/
def prepLoop (pfn : Nat → BitVec 64) : List Nat → Int → PrepRuns →
    List Nat × List Nat × Int × PrepRuns
  | [], nr, s => ([], [], nr, s)
  | page :: freeList, nr, s =>
      if 0 < nr then
        let rest := prepLoop pfn freeList (nr - 1) (s.add (pfn page))
        (page :: rest.1, rest.2)
      else ([], page :: freeList, nr, s)

structure Prepared where
  placeholder : List Nat
  freeList : List Nat
  paddr : BitVec 64
  slots : RunSlots
  avPages : Int

/-- `get_pages_prep`; page `i` of the pool has the frame `pfn i`. -/
def getPagesPrep (pfn : Nat → BitVec 64) (freeList : List Nat) (nr : Int) (event : Event)
    (slots : RunSlots) : Prepared :=
  match freeList with
  | [] => ⟨[], [], event.paddr, slots, 0⟩
  | [first] => ⟨[first], [], pfn first, slots, nr - (nr - 1)⟩
  | first :: second :: freeList =>
      let (taken, freeList, left, runs) :=
        prepLoop pfn freeList (nr - 1) (.begin slots (pfn second))
      ⟨first :: second :: taken, freeList, pfn first, runs.finish, nr - left⟩

/-- What `basic_alloc` then submits: `event->length` is `avPages - 1`. -/
def Prepared.answer (prepared : Prepared) (remSize : BitVec 64) : ExtraAnswer :=
  ⟨prepared.paddr, (prepared.avPages - 1).toNat, remSize, prepared.slots⟩

/-! ## The runs -/

def PrepRuns.Open (s : PrepRuns) : Prop :=
  s.vpfn = (· + 1)^[s.count + 1] (s.slots s.pos).first

/-- What is read back from the slot of the open run on, once the frames `fs` were added. -/
structure ReadsBack (s : PrepRuns) (fs : List (BitVec 64)) (final : RunSlots) : Prop where
  before : ∀ pos < s.pos, final pos = s.slots pos
  first : (final s.pos).first = (s.slots s.pos).first
  run : ∀ i ≤ s.count, element (· + 1) final s.pos i = (· + 1)^[i] (s.slots s.pos).first
  rest : ∀ i (hi : i < fs.length), element (· + 1) final s.pos (s.count + 1 + i) = fs[i]

private theorem readsBack_finish (s : PrepRuns) : ReadsBack s [] s.finish := by
  unfold PrepRuns.finish
  split
  · refine ⟨fun pos hpos => Function.update_of_ne (by omega) _ _, ?_, fun i hi => ?_, ?_⟩
    · simp [usmPrepPreAllocFastCounted]
    · rw [element, elementFrom_of_le]
      · simp [usmPrepPreAllocFastCounted]
      · simpa [usmPrepPreAllocFastCounted] using hi
    · simp
  · rename_i hcount
    refine ⟨fun _ _ => rfl, rfl, fun i hi => ?_, by simp⟩
    -- The count in the slot is an old one, but no further frame is read from it.
    obtain rfl : i = 0 := by omega
    rfl

private theorem ReadsBack.extend {s : PrepRuns} (hopen : s.Open) {f : BitVec 64}
    (hnext : s.vpfn = f)
    {fs : List (BitVec 64)} {final : RunSlots} (hback : ReadsBack (s.add f) fs final) :
    ReadsBack s (f :: fs) final := by
  have hadd : s.add f = { s with count := s.count + 1, vpfn := f + 1 } := if_pos hnext
  rw [hadd] at hback
  obtain ⟨hbefore, hfirst, hrun, hrest⟩ := hback
  refine ⟨hbefore, hfirst, fun i hi => hrun i (Nat.le_succ_of_le hi), fun i hi => ?_⟩
  cases i with
  | zero => exact (hrun (s.count + 1) le_rfl).trans (hopen.symm.trans hnext)
  | succ i =>
      rw [show s.count + 1 + (i + 1) = s.count + 1 + 1 + i by omega]
      exact hrest i (by simpa using hi)

private theorem ReadsBack.newRun {s : PrepRuns} {f : BitVec 64} (hnext : s.vpfn ≠ f)
    {fs : List (BitVec 64)} {final : RunSlots} (hback : ReadsBack (s.add f) fs final) :
    ReadsBack s (f :: fs) final := by
  have hadd : s.add f = _ := if_neg hnext
  rw [hadd] at hback
  obtain ⟨hbefore, hfirst, hrun, hrest⟩ := hback
  have hclosed : final s.pos = ⟨(s.slots s.pos).first, s.count⟩ := by
    rw [hbefore s.pos (Nat.lt_succ_self _)]
    simp [usmPrepPreAlloc, usmPrepPreAllocFastCounted]
  refine ⟨fun pos hpos => ?_, by rw [hclosed], fun i hi => ?_, fun i hi => ?_⟩
  · rw [hbefore pos (Nat.lt_succ_of_lt hpos)]
    simp [usmPrepPreAlloc, usmPrepPreAllocFastCounted, show pos ≠ s.pos by omega,
      show pos ≠ s.pos + 1 by omega]
  · rw [element, hclosed]
    exact elementFrom_of_le hi _ _
  · rw [element, hclosed, elementFrom_add]
    cases i with
    | zero =>
        refine (hrun 0 le_rfl).trans ?_
        simp [usmPrepPreAlloc]
    | succ i =>
        have hread : element (· + 1) final (s.pos + 1) (0 + 1 + i) =
            fs.get ⟨i, by simpa using hi⟩ :=
          hrest i _
        rwa [show 0 + 1 + i = i + 1 by omega] at hread

private theorem open_begin (slots : RunSlots) (f : BitVec 64) : (PrepRuns.begin slots f).Open := by
  simp [PrepRuns.Open, PrepRuns.begin, usmPrepPreAlloc]

private theorem PrepRuns.Open.add {s : PrepRuns} (hopen : s.Open) (f : BitVec 64) :
    (s.add f).Open := by
  unfold PrepRuns.add
  split
  · rename_i hnext
    rw [PrepRuns.Open, Function.iterate_succ_apply', ← hopen, hnext]
  · simp [PrepRuns.Open, usmPrepPreAlloc]

private theorem readsBack_foldl (fs : List (BitVec 64)) {s : PrepRuns} (hopen : s.Open) :
    ReadsBack s fs (fs.foldl PrepRuns.add s).finish := by
  induction fs generalizing s with
  | nil => exact readsBack_finish s
  | cons f fs ih =>
      by_cases hnext : s.vpfn = f
      · exact .extend hopen hnext (ih (hopen.add f))
      · exact .newRun hnext (ih (hopen.add f))

private theorem extraFrame_runs (slots : RunSlots) (f : BitVec 64) (fs : List (BitVec 64)) {i : Nat}
    (hi : i < (f :: fs).length) :
    extraFrame (fs.foldl PrepRuns.add (.begin slots f)).finish i = (f :: fs)[i] := by
  have hback := readsBack_foldl fs (open_begin slots f)
  cases i with
  | zero =>
      refine (hback.run 0 le_rfl).trans ?_
      simp [PrepRuns.begin, usmPrepPreAlloc]
  | succ i =>
      have hread := hback.rest i (by simpa using hi)
      rwa [show (PrepRuns.begin slots f).count + 1 + i = i + 1 from Nat.add_comm 1 i] at hread

/-! ## The pages taken -/

private theorem prepLoop_eq (pfn : Nat → BitVec 64) (freeList : List Nat) (nr : Int)
    (s : PrepRuns) :
    prepLoop pfn freeList nr s =
      (freeList.take nr.toNat, freeList.drop nr.toNat,
        nr - (freeList.take nr.toNat).length,
        ((freeList.take nr.toNat).map pfn).foldl PrepRuns.add s) := by
  induction freeList generalizing nr s with
  | nil => simp [prepLoop]
  | cons page freeList ih =>
      by_cases hnr : 0 < nr
      · obtain ⟨n, rfl⟩ : ∃ n : Nat, nr = (n : Int) + 1 := ⟨(nr - 1).toNat, by omega⟩
        have htoNat : ((n : Int) + 1).toNat = n + 1 := by omega
        simp only [prepLoop, hnr, if_true, ih, htoNat, Int.add_sub_cancel, Int.toNat_natCast,
          List.take_succ_cons, List.drop_succ_cons, List.map_cons, List.foldl_cons,
          List.length_cons, Prod.mk.injEq, true_and, and_true]
        omega
      · simp [prepLoop, hnr, show nr.toNat = 0 by omega]

section

variable (pfn : Nat → BitVec 64) (nr : Int) (event : Event) (slots : RunSlots)

theorem getPagesPrep_cons (first second : Nat) (freeList : List Nat) :
    getPagesPrep pfn (first :: second :: freeList) nr event slots =
      { placeholder := first :: second :: freeList.take (nr - 1).toNat
        freeList := freeList.drop (nr - 1).toNat
        paddr := pfn first
        slots := (((freeList.take (nr - 1).toNat).map pfn).foldl PrepRuns.add
          (.begin slots (pfn second))).finish
        avPages := (freeList.take (nr - 1).toNat).length + 1 } := by
  simp only [getPagesPrep, prepLoop_eq, Prepared.mk.injEq, true_and]
  omega

theorem furtherAlloc_getPagesPrep (first second : Nat) (freeList : List Nat) (remSize : BitVec 64) :
    ((getPagesPrep pfn (first :: second :: freeList) nr event slots).answer remSize).furtherAlloc +
      2 = (getPagesPrep pfn (first :: second :: freeList) nr event slots).placeholder.length := by
  rw [getPagesPrep_cons]
  simp only [Prepared.answer, List.length_cons]
  omega

private theorem paddr_getPagesPrep {freeList : List Nat} (hfree : freeList ≠ []) :
    ∃ page, (getPagesPrep pfn freeList nr event slots).placeholder[0]? = some page ∧
      (getPagesPrep pfn freeList nr event slots).paddr = pfn page := by
  match freeList with
  | [] => exact absurd rfl hfree
  | [first] => exact ⟨first, rfl, rfl⟩
  | first :: second :: freeList => exact ⟨first, rfl, rfl⟩

private theorem extraFrame_getPagesPrep {freeList : List Nat} (remSize : BitVec 64) {i : Nat}
    (hi : i < ((getPagesPrep pfn freeList nr event slots).answer remSize).furtherAlloc) :
    ∃ page, (getPagesPrep pfn freeList nr event slots).placeholder[i + 1]? = some page ∧
      extraFrame (getPagesPrep pfn freeList nr event slots).slots i = pfn page := by
  match freeList with
  | [] | [first] => simp [getPagesPrep, Prepared.answer] at hi
  | first :: second :: freeList =>
      have hfurther := furtherAlloc_getPagesPrep pfn nr event slots first second freeList remSize
      simp only [getPagesPrep_cons, List.length_cons] at hfurther hi ⊢
      have hlt : i < (second :: freeList.take (nr - 1).toNat).length := by
        rw [List.length_cons]
        omega
      refine ⟨_, List.getElem?_eq_getElem (by simpa using hlt), ?_⟩
      rw [extraFrame_runs slots (pfn second) _ (by simpa using hlt)]
      simp only [← List.map_cons, List.getElem_map, List.getElem_cons_succ]

end

/-- The frames of `get_pages_prep` arrive: the fault address gets the first one, and the
`i`-th page after it the `i`-th frame after it, and no other entry changes. -/
theorem extra_pages_decoded (pfn : Nat → BitVec 64) {freeList : List Nat}
    (hfree : freeList ≠ []) (nr : Int) (event : Event) (slots : RunSlots) (remSize : BitVec 64)
    {usm : BitVec 64 → Bool}
    (husm : ∀ page ∈ (getPagesPrep pfn freeList nr event slots).placeholder,
      usm (pfn page) = true)
    {answer : ExtraAnswer} (hanswer : answer =
      (getPagesPrep pfn freeList nr event slots).answer remSize)
    (hregion : (pteOffset event.vaddr).toNat + answer.furtherAlloc ≤ 511) {tables : PageTables}
    (hunmapped : ∀ i ≤ answer.furtherAlloc, tables.pte (target event.vaddr i) = none) :
    ∃ result, handleUsmFault usm tables event.vaddr answer = some result ∧
      (∀ i ≤ answer.furtherAlloc, ∃ page,
        (getPagesPrep pfn freeList nr event slots).placeholder[i]? = some page ∧
        result.tables.pte (target event.vaddr i) = some (pfn page)) ∧
      ∀ pmd index,
        (∀ i ≤ answer.furtherAlloc,
          ¬ (pmd = pmdOffset (target event.vaddr i) ∧ index = pteOffset (target event.vaddr i))) →
        result.tables pmd index = tables pmd index := by
  obtain ⟨result, hresult⟩ := handleUsmFault_isSome usm answer
    (by simpa using hunmapped 0 (Nat.zero_le _))
  refine ⟨result, hresult, fun i hi => ?_, fun pmd index hother => ?_⟩
  · cases i with
    | zero =>
        obtain ⟨page, hpage, hpaddr⟩ := paddr_getPagesPrep pfn nr event slots hfree
        refine ⟨page, hpage, ?_⟩
        rw [target_zero, result_pte_address hresult (by omega), hanswer]
        exact congrArg some hpaddr
    | succ i =>
        subst hanswer
        obtain ⟨page, hpage, hframe⟩ :=
          extraFrame_getPagesPrep pfn nr event slots remSize (Nat.lt_of_succ_le hi)
        refine ⟨page, hpage, ?_⟩
        have hentry : ∀ j ≤ i, tables (pmdOffset event.vaddr)
            (pteOffset (target event.vaddr (j + 1))) = none := by
          intro j hj
          rw [← PageTables.pte_target tables (by omega)]
          exact hunmapped (j + 1) (by omega)
        rw [PageTables.pte_target _ (by omega), result_tables_target hresult (by omega) hi,
          hentry i le_rfl, extraTaken_eq (by omega) hi fun j hj => hentry j (by omega)]
        simp only [Prepared.answer, hframe, settled, husm page (List.mem_of_getElem? hpage),
          if_true]
  · refine result_tables_of_ne hresult fun hpmd i hi hindex => ?_
    exact hother i hi ⟨by rw [hpmd, pmdOffset_target (by omega)], hindex⟩

/-- Pages 4, 6, 7, 2 and 3 are taken for a request of four: three frames follow the one
of the fault, in the runs 6-7 and 2-3, of which the last frame is not asked for. -/
theorem extra_pages_decoded_fragmented :
    ∃ result, handleUsmFault (fun _ => true) (fun _ _ => none) 4096
        ((getPagesPrep (BitVec.ofNat 64) [4, 6, 7, 2, 3, 9] 4 ⟨0, 4096, 0, 0, 0, 3⟩
          (fun _ => ⟨70, 70⟩)).answer 3) = some result ∧
      result.tables.pte (target 4096 3) = some 2 := by
  obtain ⟨result, hresult, hmapped, -⟩ :=
    @extra_pages_decoded (BitVec.ofNat 64) [4, 6, 7, 2, 3, 9] (by decide) 4 ⟨0, 4096, 0, 0, 0, 3⟩
      (fun _ => ⟨70, 70⟩) 3 (fun _ => true) (fun _ _ => rfl) _ rfl (by decide) (fun _ _ => none)
      fun _ _ => rfl
  refine ⟨result, hresult, ?_⟩
  obtain ⟨page, hpage, hpte⟩ := hmapped 3 (by decide)
  obtain rfl : page = 2 := by simpa [getPagesPrep, prepLoop] using hpage.symm
  exact hpte

end UserPaging.Usm
