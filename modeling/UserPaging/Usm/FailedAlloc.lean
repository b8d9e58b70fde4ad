import UserPaging.Usm.BasicAlloc

/-!
# A multi-page allocation that fails

When the submission of `basic_alloc` is not applied, `give_back_pages` returns all pages
to the free list and takes their size off `usedMemory`, which only a consumption would
have added; and the status of the kernel is replaced by `1`, for which
`usm_handle_events` evicts a page and tries again.
-/

namespace UserPaging.Usm

structure Handled (σ : Type) where
  ret : Nat
  evictions : Nat
  state : σ

/-- The branch of `usm_handle_events` for a fault that is not about a swapped page. -/
def usmHandleAlloc {σ : Type} (alloc : σ → Nat × σ) (evictFallback : σ → σ) (s : σ) :
    Handled σ :=
  let (ret, s) := alloc s
  if ret ≠ 1 then ⟨ret, 0, s⟩
  else
    let (ret, s) := alloc (evictFallback s)
    ⟨ret, 1, s⟩

/-- A failed call leaves the lists and the counter as they were and hands on the status of the
kernel, if it was asked, so that only a status `1` is taken for a lack of memory. -/
structure FailsCleanly (lists : PoolLists) (reported : Option Nat) (result : AllocResult) :
    Prop where
  free : result.lists.freeList.Perm lists.freeList
  used : result.lists.usedList = lists.usedList
  usedMemory : result.lists.usedMemory = lists.usedMemory
  value : ∀ status ∈ reported, result.ret = status
  notRetried : ∀ status ∈ reported, status ≠ 1 →
    ∀ (alloc : PoolLists → Nat × PoolLists) (evictFallback : PoolLists → PoolLists),
      alloc lists = (result.ret, result.lists) →
        (usmHandleAlloc alloc evictFallback lists).evictions = 0

def reportedStatus (lists : PoolLists) (status : Nat) : Option Nat :=
  if lists.freeList = [] then none else some status

section

variable (pfn : Nat → BitVec 64) (freeList : List Nat) (nr : Int) (event : Event)
  (slots : RunSlots)

private theorem avPages_eq_zero_iff :
    (getPagesPrep pfn freeList nr event slots).avPages = 0 ↔ freeList = [] := by
  match freeList with
  | [] => simp [getPagesPrep]
  | [first] =>
      simp only [getPagesPrep, List.cons_ne_nil, iff_false]
      omega
  | first :: second :: freeList =>
      rw [getPagesPrep_cons]
      simp only [List.cons_ne_nil, iff_false]
      omega

private theorem placeholder_append :
    (getPagesPrep pfn freeList nr event slots).placeholder ++
      (getPagesPrep pfn freeList nr event slots).freeList = freeList := by
  match freeList with
  | [] => rfl
  | [first] => rfl
  | first :: second :: freeList =>
      rw [getPagesPrep_cons]
      simp

private theorem length_placeholder (hfree : freeList ≠ []) (hnr : nr ≤ 512) :
    0 < (getPagesPrep pfn freeList nr event slots).placeholder.length ∧
      (getPagesPrep pfn freeList nr event slots).placeholder.length ≤ 513 := by
  match freeList with
  | [] => exact absurd rfl hfree
  | [first] => simp [getPagesPrep]
  | first :: second :: freeList =>
      have htake := List.length_take_le (nr - 1).toNat freeList
      rw [getPagesPrep_cons]
      simp only [List.length_cons]
      omega

end

private theorem sub_pageSize_mul_ne (usedMemory : BitVec 64) {n : Nat} (hpos : 0 < n)
    (hn : n ≤ 513) :
    usedMemory - pageSize * BitVec.ofNat 64 n ≠ usedMemory := by
  intro heq
  have hnat := congrArg BitVec.toNat heq
  have hlt := usedMemory.isLt
  have hsize : (pageSize * BitVec.ofNat 64 n).toNat = 4096 * n := by
    have hpage : pageSize.toNat = 4096 := rfl
    rw [BitVec.toNat_mul, BitVec.toNat_ofNat, hpage]
    omega
  rw [BitVec.toNat_sub, hsize] at hnat
  omega

section

variable (pool : Pool) (lists : PoolLists) (tables : PageTables) (event : Event)
  (slots : RunSlots) (status : Nat)

private theorem basicAllocAnswered_refused_nil (hfree : lists.freeList = []) :
    basicAllocAnswered pool lists tables event slots (fun _ => .refused status) =
      some ⟨1, lists, tables⟩ := by
  unfold basicAllocAnswered
  dsimp only
  rw [if_pos ((avPages_eq_zero_iff ..).2 hfree)]

private theorem basicAllocAnswered_refused (hfree : lists.freeList ≠ []) :
    ∃ result, basicAllocAnswered pool lists tables event slots (fun _ => .refused status) =
        some result ∧ result.ret = 1 ∧ result.lists.freeList.Perm lists.freeList ∧
      result.lists.usedList = lists.usedList ∧
      result.lists.usedMemory ≠ lists.usedMemory := by
  have hpages : ¬(getPagesPrep pool.pfn lists.freeList (wantedNumber event.length) event
      slots).avPages = 0 := fun hzero => hfree ((avPages_eq_zero_iff ..).1 hzero)
  have happend := placeholder_append pool.pfn lists.freeList (wantedNumber event.length) event slots
  obtain ⟨hpos, hlength⟩ := length_placeholder pool.pfn lists.freeList (wantedNumber event.length)
    event slots hfree (wantedNumber_le event.length)
  refine ⟨_, by unfold basicAllocAnswered; dsimp only; rw [if_neg hpages], rfl, ?_, rfl, ?_⟩
  · exact List.perm_append_comm.trans (.of_eq happend)
  · exact sub_pageSize_mul_ne lists.usedMemory hpos hlength

/-- For any free list, length and status: a refused request fails cleanly exactly when no page
was free, so that it was never made. -/
theorem failsCleanly_iff :
    ∃ result, basicAllocAnswered pool lists tables event slots (fun _ => .refused status) =
        some result ∧ result.ret ≠ 0 ∧
      (FailsCleanly lists (reportedStatus lists status) result ↔ lists.freeList = []) := by
  by_cases hfree : lists.freeList = []
  · refine ⟨_, basicAllocAnswered_refused_nil pool lists tables event slots status hfree,
      Nat.one_ne_zero, ?_⟩
    simp only [hfree, iff_true]
    have hnone : reportedStatus lists status = none := if_pos hfree
    rw [hnone]
    exact ⟨List.Perm.refl _, rfl, rfl, by simp, by simp⟩
  · obtain ⟨result, hresult, hret, _, _, hmemory⟩ :=
      basicAllocAnswered_refused pool lists tables event slots status hfree
    refine ⟨result, hresult, by omega, ?_⟩
    simp only [hfree, iff_false]
    exact fun hclean => hmemory hclean.usedMemory

end

/-- Two free pages and the answer `FAULT_EXISTS`: the counter falls below zero, and the answer
is taken for a lack of memory. -/
theorem exists_answer_evicts :
    ∃ result, basicAllocAnswered smallPool (freshLists [4, 5]) (fun _ _ => none) (touch 1)
        (fun _ => ⟨0, 0⟩) (fun _ => .refused 7) = some result ∧
      (freshLists [4, 5]).usedMemory = 0 ∧ result.lists.usedMemory = -8192 ∧ result.ret = 1 ∧
      ∀ alloc evictFallback, alloc (freshLists [4, 5]) = (result.ret, result.lists) →
        (usmHandleAlloc alloc evictFallback (freshLists [4, 5])).evictions = 1 := by
  refine ⟨_, rfl, rfl, by decide, rfl, fun alloc evictFallback halloc => ?_⟩
  unfold usmHandleAlloc
  rw [halloc]
  rfl

end UserPaging.Usm
