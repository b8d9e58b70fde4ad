import Mathlib.Data.BitVec
import Mathlib.Data.List.Chain
import Mathlib.Data.List.Nodup
import Mathlib.Data.Finset.Card

/-!
# Which addresses extmem manages

`extmem_mmap` appends the bounds of every range that it maps to two parallel
arrays, and `userfault_range_check` searches the array of starts by bisection.
Bisection finds the last start at or below an address only in an ascending
array; `extmem_mmap` does not sort.
-/

namespace UserPaging.Extmem

def uint64Max : Nat := 2 ^ 64 - 1

/-- The loop of `floor_binary_search`. -/
def floorLoop (arr : List (BitVec 64)) (target : BitVec 64) (low high result : Nat) : Nat :=
  if low ≤ high then
    let mid := low + (high - low) / 2
    if arr.getD mid 0 ≤ target then floorLoop arr target (mid + 1) high mid
    else if mid = 0 then result
    else floorLoop arr target low (mid - 1) result
  else result
termination_by high + 1 - low

def floorBinarySearch (arr : List (BitVec 64)) (arrLen : Nat) (target : BitVec 64) : Nat :=
  if arrLen = 0 then uint64Max
  else if target < arr.getD 0 0 then uint64Max
  else floorLoop arr target 0 (arrLen - 1) uint64Max

/-- `userfault_range_start_array` and `userfault_range_end_array`. -/
structure Ranges where
  startArray : List (BitVec 64)
  endArray : List (BitVec 64)
  deriving DecidableEq, Repr

def userfaultRangeCheck (ranges : Ranges) (addr : BitVec 64) : Bool :=
  let startIndex := floorBinarySearch ranges.startArray ranges.startArray.length addr
  if startIndex = uint64Max then false
  else decide (addr < ranges.endArray.getD startIndex 0)

/-- A range that `extmem_mmap` returned. -/
structure Mapping where
  p : BitVec 64
  length : BitVec 64
  nonempty : 0 < length.toNat
  noWrap : p.toNat + length.toNat < 2 ^ 64

namespace Mapping

def Covers (mapping : Mapping) (addr : BitVec 64) : Prop :=
  mapping.p.toNat ≤ addr.toNat ∧ addr.toNat < mapping.p.toNat + mapping.length.toNat

instance (mapping : Mapping) (addr : BitVec 64) : Decidable (mapping.Covers addr) :=
  inferInstanceAs (Decidable (_ ∧ _))

def Disjoint (mapping other : Mapping) : Prop :=
  mapping.p.toNat + mapping.length.toNat ≤ other.p.toNat ∨
    other.p.toNat + other.length.toNat ≤ mapping.p.toNat

instance (mapping other : Mapping) : Decidable (mapping.Disjoint other) :=
  inferInstanceAs (Decidable (_ ∨ _))

private theorem toNat_end (mapping : Mapping) :
    (mapping.p + mapping.length).toNat = mapping.p.toNat + mapping.length.toNat := by
  rw [BitVec.toNat_add, Nat.mod_eq_of_lt mapping.noWrap]

private theorem covers_p (mapping : Mapping) : mapping.Covers mapping.p :=
  ⟨Nat.le_refl _, Nat.lt_add_of_pos_right mapping.nonempty⟩

private theorem Disjoint.not_covers {mapping other : Mapping} (hdisjoint : mapping.Disjoint other)
    {addr : BitVec 64} (hcovers : mapping.Covers addr) : ¬ other.Covers addr := by
  rintro ⟨hstart, hend⟩
  obtain ⟨hstart', hend'⟩ := hcovers
  rcases hdisjoint with h | h <;> omega

end Mapping

def extmemMmap (ranges : Ranges) (mapping : Mapping) : Ranges where
  startArray := ranges.startArray ++ [mapping.p]
  endArray := ranges.endArray ++ [mapping.p + mapping.length]

def registered (calls : List Mapping) : Ranges := calls.foldl extmemMmap ⟨[], []⟩

private theorem registered_eq (calls : List Mapping) :
    registered calls = ⟨calls.map Mapping.p, calls.map fun call => call.p + call.length⟩ := by
  induction calls using List.reverseRecOn with
  | nil => rfl
  | append_singleton calls call ih =>
      rw [registered] at ih ⊢
      rw [List.foldl_append, ih]
      simp [extmemMmap]

/-! ## What the bisection finds -/

/-- Index `i` is at or below the target and its right neighbour is not. -/
structure FloorAt (arr : List (BitVec 64)) (target : BitVec 64) (i : Nat) : Prop where
  bound : i < arr.length
  below : arr.getD i 0 ≤ target
  above : i + 1 < arr.length → target < arr.getD (i + 1) 0

/--
The loop ends at a `FloorAt` position of any array, ascending or not: `result` is
always the index below `low`, and the entry behind `high` has been seen above the
target.
-/
private theorem floorLoop_floorAt {arr : List (BitVec 64)} {target : BitVec 64}
    (hfirst : arr.getD 0 0 ≤ target) {low high result : Nat} (hhigh : high < arr.length)
    (hroom : low ≤ high + 1)
    (hbelow : low ≠ 0 → result + 1 = low ∧ arr.getD result 0 ≤ target)
    (habove : high + 1 < arr.length → target < arr.getD (high + 1) 0) :
    FloorAt arr target (floorLoop arr target low high result) := by
  induction low, high, result using floorLoop.induct arr target with
  | case1 low high result hle mid hmid ih =>
      have hmidle : mid ≤ high := by omega
      rw [floorLoop, if_pos hle]
      simp only [show arr.getD (low + (high - low) / 2) 0 ≤ target from hmid, if_true]
      exact ih hhigh (by omega) (fun _ => ⟨rfl, hmid⟩) habove
  | case2 low high result hle mid hmid hzero =>
      rw [hzero] at hmid
      exact absurd hfirst hmid
  | case3 low high result hle mid hmid hzero ih =>
      have hmidle : mid ≤ high := by omega
      have hnext : mid - 1 + 1 = mid := by omega
      rw [floorLoop, if_pos hle]
      simp only [show ¬ arr.getD (low + (high - low) / 2) 0 ≤ target from hmid, if_false,
        show low + (high - low) / 2 ≠ 0 from hzero]
      refine ih (by omega) (by omega) hbelow fun _ => ?_
      rw [hnext]
      exact BitVec.not_le.1 hmid
  | case4 low high result hle =>
      obtain ⟨hresult, hle'⟩ := hbelow (by omega)
      have heq : result = high := by omega
      rw [floorLoop, if_neg hle]
      subst heq
      exact ⟨hhigh, hle', habove⟩

theorem floorBinarySearch_cases (arr : List (BitVec 64)) (target : BitVec 64) :
    (floorBinarySearch arr arr.length target = uint64Max ∧
        (arr = [] ∨ target < arr.getD 0 0)) ∨
      FloorAt arr target (floorBinarySearch arr arr.length target) := by
  by_cases hempty : arr.length = 0
  · exact .inl ⟨by simp [floorBinarySearch, hempty], .inl (List.length_eq_zero_iff.1 hempty)⟩
  · by_cases hfirst : target < arr.getD 0 0
    · exact .inl ⟨by rw [floorBinarySearch, if_neg hempty, if_pos hfirst], .inr hfirst⟩
    · right
      rw [floorBinarySearch, if_neg hempty, if_neg hfirst]
      exact floorLoop_floorAt (BitVec.not_lt.1 hfirst) (by omega) (by omega)
        (fun h => absurd rfl h) (fun h => by omega)

/-! ## The check against the registered ranges -/

variable {calls : List Mapping} {addr : BitVec 64}

private theorem startArray_getD {i : Nat} (hi : i < calls.length) :
    (registered calls).startArray.getD i 0 = calls[i].p := by
  simp [registered_eq, List.getD, hi]

private theorem endArray_getD {i : Nat} (hi : i < calls.length) :
    (registered calls).endArray.getD i 0 = calls[i].p + calls[i].length := by
  simp [registered_eq, List.getD, hi]

private theorem length_startArray : (registered calls).startArray.length = calls.length := by
  simp [registered_eq]

structure Picked (calls : List Mapping) (addr : BitVec 64) (i : Nat) : Prop where
  search : floorBinarySearch (registered calls).startArray calls.length addr = i
  bound : i < calls.length
  below : calls[i].p.toNat ≤ addr.toNat
  above : ∀ hnext : i + 1 < calls.length, addr.toNat < calls[i + 1].p.toNat

private theorem picked_or_before (calls : List Mapping) (addr : BitVec 64) :
    (floorBinarySearch (registered calls).startArray calls.length addr = uint64Max ∧
        ∀ hfirst : 0 < calls.length, addr.toNat < calls[0].p.toNat) ∨
      ∃ i, Picked calls addr i := by
  have hcases := floorBinarySearch_cases (registered calls).startArray addr
  rw [length_startArray] at hcases
  rcases hcases with ⟨hmax, hbefore⟩ | hfloor
  · refine .inl ⟨hmax, fun hfirst => ?_⟩
    rcases hbefore with hempty | hbefore
    · have hlength : (registered calls).startArray.length = calls.length := length_startArray
      simp only [hempty, List.length_nil] at hlength
      omega
    · rw [startArray_getD hfirst] at hbefore
      exact hbefore
  · obtain ⟨hbound, hbelow, habove⟩ := hfloor
    rw [length_startArray] at hbound habove
    rw [startArray_getD hbound] at hbelow
    refine .inr ⟨_, rfl, hbound, hbelow, fun hnext => ?_⟩
    have hlt := habove hnext
    rwa [startArray_getD hnext] at hlt

private theorem Picked.check {i : Nat} (hpicked : Picked calls addr i) (hmax : i ≠ uint64Max) :
    userfaultRangeCheck (registered calls) addr = true ↔
      (calls.get ⟨i, hpicked.bound⟩).Covers addr := by
  obtain ⟨hsearch, hbound, hbelow, -⟩ := hpicked
  rw [userfaultRangeCheck, length_startArray, hsearch, if_neg hmax, endArray_getD hbound,
    decide_eq_true_iff, BitVec.lt_def, Mapping.toNat_end]
  exact ⟨fun hend => ⟨hbelow, hend⟩, fun hcovers => hcovers.2⟩

theorem exists_covers_of_check (hcheck : userfaultRangeCheck (registered calls) addr = true) :
    ∃ call ∈ calls, call.Covers addr := by
  rcases picked_or_before calls addr with ⟨hmax, -⟩ | ⟨i, hpicked⟩
  · simp [userfaultRangeCheck, length_startArray, hmax] at hcheck
  · by_cases hmax : i = uint64Max
    · simp [userfaultRangeCheck, length_startArray, hpicked.search, hmax] at hcheck
    · exact ⟨_, List.getElem_mem hpicked.bound, (hpicked.check hmax).1 hcheck⟩

/-! ## Ascending registrations -/

def Ascending (calls : List Mapping) : Prop :=
  calls.Pairwise fun earlier later => earlier.p.toNat < later.p.toNat

private theorem ascending_iff_neighbours :
    Ascending calls ↔
      ∀ i, (hnext : i + 1 < calls.length) → calls[i].p.toNat < calls[i + 1].p.toNat := by
  have hmap : Ascending calls ↔ (calls.map fun call => call.p.toNat).Pairwise (· < ·) :=
    List.pairwise_map.symm
  rw [hmap, ← List.isChain_iff_pairwise, List.isChain_iff_getElem]
  simp

private theorem eq_of_covers (hdisjoint : calls.Pairwise Mapping.Disjoint) {i j : Nat}
    (hi : i < calls.length) (hj : j < calls.length) (hcovers : calls[i].Covers addr)
    (hcovers' : calls[j].Covers addr) : i = j := by
  have hpair := List.pairwise_iff_getElem.1 hdisjoint
  rcases Nat.lt_trichotomy i j with hlt | heq | hgt
  · exact absurd hcovers' ((hpair i j hi hj hlt).not_covers hcovers)
  · exact heq
  · exact absurd hcovers ((hpair j i hj hi hgt).not_covers hcovers')

private theorem length_le_uint64Max (hdisjoint : calls.Pairwise Mapping.Disjoint) :
    calls.length ≤ uint64Max := by
  have hnodup : (calls.map fun call => call.p.toNat).Nodup := by
    refine List.pairwise_map.2 (hdisjoint.imp fun {call other} h heq => ?_)
    have hcall := call.nonempty
    have hother := other.nonempty
    rcases h with h | h <;> omega
  have hsubset : (calls.map fun call => call.p.toNat) ⊆ List.range uint64Max := by
    intro start hstart
    obtain ⟨call, -, rfl⟩ := List.mem_map.1 hstart
    have hwrap := call.noWrap
    have hcall := call.nonempty
    simp only [List.mem_range, uint64Max]
    omega
  have hle := (hnodup.subperm hsubset).length_le
  rwa [List.length_map, List.length_range] at hle

private theorem Picked.ne_uint64Max {i : Nat} (hpicked : Picked calls addr i)
    (hdisjoint : calls.Pairwise Mapping.Disjoint) : i ≠ uint64Max :=
  Nat.ne_of_lt (Nat.lt_of_lt_of_le hpicked.bound (length_le_uint64Max hdisjoint))

private theorem Ascending.picked_of_covers (hascending : Ascending calls)
    (hdisjoint : calls.Pairwise Mapping.Disjoint) {k : Nat} (hk : k < calls.length)
    (hcovers : calls[k].Covers addr) : Picked calls addr k := by
  have hstarts := List.pairwise_iff_getElem.1 hascending
  rcases picked_or_before calls addr with ⟨-, hbefore⟩ | ⟨i, hpicked⟩
  · -- The first range starts at or below every other one.
    have hfirst := hbefore (Nat.zero_lt_of_lt hk)
    have hle : calls[0].p.toNat ≤ calls[k].p.toNat := by
      rcases Nat.eq_zero_or_pos k with rfl | hpos
      · exact Nat.le_refl _
      · exact Nat.le_of_lt (hstarts 0 k _ hk hpos)
    have hstart := hcovers.1
    omega
  · rcases Nat.lt_trichotomy i k with hlt | rfl | hgt
    · have habove := hpicked.above (by omega)
      have hle : calls[i + 1].p.toNat ≤ calls[k].p.toNat := by
        rcases Nat.eq_or_lt_of_le (Nat.succ_le_of_lt hlt) with rfl | hlt'
        · exact Nat.le_refl _
        · exact Nat.le_of_lt (hstarts (i + 1) k _ hk hlt')
      have hstart := hcovers.1
      omega
    · exact hpicked
    · -- A later start at or below the address would lie inside range `k`.
      have hi := hpicked.bound
      have hlater := hstarts k i hk hi hgt
      have hbelow := hpicked.below
      have hend := hcovers.2
      have hpositive := calls[i].nonempty
      rcases List.pairwise_iff_getElem.1 hdisjoint k i hk hi hgt with h | h <;> omega

/-- The check answers for exactly the registered addresses if and only if the
ranges were registered in ascending order. -/
theorem range_check_exact_iff_ascending (hdisjoint : calls.Pairwise Mapping.Disjoint) :
    (∀ addr, userfaultRangeCheck (registered calls) addr = true ↔
        ∃ call ∈ calls, call.Covers addr) ↔
      Ascending calls := by
  constructor
  · intro hexact
    rw [ascending_iff_neighbours]
    intro i hnext
    -- The start of range `i` is found at `i`, so its right neighbour was seen above it.
    have hcheck := (hexact calls[i].p).2 ⟨_, List.getElem_mem (by omega), calls[i].covers_p⟩
    rcases picked_or_before calls calls[i].p with ⟨hmax, -⟩ | ⟨j, hpicked⟩
    · simp [userfaultRangeCheck, length_startArray, hmax] at hcheck
    · have hcovers := (hpicked.check (hpicked.ne_uint64Max hdisjoint)).1 hcheck
      obtain rfl := eq_of_covers hdisjoint hpicked.bound (by omega) hcovers calls[i].covers_p
      exact hpicked.above hnext
  · intro hascending addr
    refine ⟨exists_covers_of_check, ?_⟩
    rintro ⟨call, hmem, hcovers⟩
    obtain ⟨k, hk, rfl⟩ := List.getElem_of_mem hmem
    have hpicked := hascending.picked_of_covers hdisjoint hk hcovers
    exact (hpicked.check (hpicked.ne_uint64Max hdisjoint)).2 hcovers

def lowMapping : Mapping := ⟨0x10000, 0x1000, by decide, by decide⟩

def highMapping : Mapping := ⟨0x7f0000000000, 0x1000, by decide, by decide⟩

theorem range_check_exact_iff_ascending_lowFirst :
    Ascending [lowMapping, highMapping] ∧
      ∀ addr, userfaultRangeCheck (registered [lowMapping, highMapping]) addr = true ↔
        ∃ call ∈ [lowMapping, highMapping], call.Covers addr := by
  have hascending : Ascending [lowMapping, highMapping] := by
    unfold Ascending
    decide
  exact ⟨hascending, (range_check_exact_iff_ascending (by decide)).2 hascending⟩

/-- The kernel places a second mapping below the first one; no address of it is
recognised. -/
theorem lower_range_missed :
    [highMapping, lowMapping].Pairwise Mapping.Disjoint ∧
      ¬ ∀ addr, userfaultRangeCheck (registered [highMapping, lowMapping]) addr = true ↔
        ∃ call ∈ [highMapping, lowMapping], call.Covers addr := by
  refine ⟨by decide, fun hexact => ?_⟩
  have hcheck := (hexact 0x10000).2 ⟨lowMapping, by simp, by decide⟩
  simp [userfaultRangeCheck, floorBinarySearch, registered_eq, highMapping, uint64Max] at hcheck

end UserPaging.Extmem
