import Mathlib.Data.Nat.Log
import UserPaging.Extmem.RangeCheck

/-!
# The bisection in machine words

`floor_binary_search` computes with 64-bit indices that wrap around.  The loop is
run here with a bound on its rounds and leaves the indices that it reads, so that
its length, its reads and its result can be stated together; the result is that of
the loop over natural numbers.
-/

namespace UserPaging.Extmem

def UINT64_MAX : BitVec 64 := BitVec.allOnes 64

structure Found where
  index : BitVec 64
  probes : List (BitVec 64)
  deriving DecidableEq, Repr

def Found.probe (found : Found) (i : BitVec 64) : Found :=
  { found with probes := i :: found.probes }

/-- The loop of `floor_binary_search`; `none` when the rounds do not suffice. -/
def floorLoop64 (arr : List (BitVec 64)) (target : BitVec 64) :
    Nat → BitVec 64 → BitVec 64 → BitVec 64 → Option Found
  | 0, _, _, _ => none
  | rounds + 1, low, high, result =>
      if low ≤ high then
        let mid := low + (high - low) / 2
        if arr.getD mid.toNat 0 ≤ target then
          (floorLoop64 arr target rounds (mid + 1) high mid).map (·.probe mid)
        else if mid = 0 then some ⟨result, [mid]⟩
        else (floorLoop64 arr target rounds low (mid - 1) result).map (·.probe mid)
      else some ⟨result, []⟩

def floorBinarySearch64 (rounds : Nat) (arr : List (BitVec 64)) (arrLen target : BitVec 64) :
    Option Found :=
  if arrLen = 0 then some ⟨UINT64_MAX, []⟩
  else if target < arr.getD 0 0 then some ⟨UINT64_MAX, [0]⟩
  else (floorLoop64 arr target rounds 0 (arrLen - 1) UINT64_MAX).map (·.probe 0)

/-! ## The loop -/

section

variable {low high : BitVec 64}

private theorem toNat_mid (hle : low ≤ high) :
    (low + (high - low) / 2).toNat = low.toNat + (high.toNat - low.toNat) / 2 := by
  have hlow : low.toNat ≤ high.toNat := hle
  have hhigh := high.isLt
  rw [BitVec.toNat_add, BitVec.toNat_udiv, BitVec.toNat_sub_of_le hle]
  have htwo : (2 : BitVec 64).toNat = 2 := rfl
  rw [htwo]
  exact Nat.mod_eq_of_lt (by omega)

private theorem toNat_succ {mid : BitVec 64} (hmid : mid.toNat + 1 < 2 ^ 64) :
    (mid + 1).toNat = mid.toNat + 1 := by
  rw [BitVec.toNat_add]
  exact Nat.mod_eq_of_lt hmid

private theorem toNat_pred {mid : BitVec 64} (hmid : mid ≠ 0) :
    (mid - 1).toNat = mid.toNat - 1 := by
  have hpos : mid.toNat ≠ 0 := fun h => hmid (BitVec.eq_of_toNat_eq h)
  have hle : (1 : BitVec 64) ≤ mid := by
    rw [BitVec.le_def]
    exact Nat.one_le_iff_ne_zero.2 hpos
  rw [BitVec.toNat_sub_of_le hle]
  rfl

end

/-- The loop reads within its bounds, at most `k` times while they are less than `2 ^ k`
apart, and finds what the loop over natural numbers finds. -/
structure LoopFinds (arr : List (BitVec 64)) (target low high result : BitVec 64) (k : Nat)
    (found : Found) : Prop where
  index : found.index.toNat = floorLoop arr target low.toNat high.toNat result.toNat
  count : found.probes.length ≤ k
  bounds : ∀ i ∈ found.probes, i.toNat ≤ high.toNat
  ends : ∀ rounds, k < rounds → floorLoop64 arr target rounds low high result = some found

namespace LoopFinds

variable {arr : List (BitVec 64)} {target low high result : BitVec 64} {k : Nat} {found : Found}

private theorem leave (hle : ¬ low ≤ high) :
    LoopFinds arr target low high result k ⟨result, []⟩ where
  index := by
    have hlow : ¬ low.toNat ≤ high.toNat := hle
    rw [floorLoop, if_neg hlow]
  count := Nat.zero_le k
  bounds := by simp
  ends := by
    intro rounds hrounds
    obtain ⟨rounds, rfl⟩ := Nat.exists_eq_add_of_lt hrounds
    rw [floorLoop64, if_neg hle]

private theorem right {mid : BitVec 64} (hle : low ≤ high) (hmid : low + (high - low) / 2 = mid)
    (hbelow : arr.getD mid.toNat 0 ≤ target) (hhigh : high.toNat + 1 < 2 ^ 64)
    (h : LoopFinds arr target (mid + 1) high mid k found) :
    LoopFinds arr target low high result (k + 1) (found.probe mid) := by
  have hlow : low.toNat ≤ high.toNat := hle
  have hnat := toNat_mid hle
  rw [hmid] at hnat
  have hsucc : (mid + 1).toNat = mid.toNat + 1 := toNat_succ (by omega)
  refine ⟨?_, Nat.succ_le_succ h.count, ?_, ?_⟩
  · rw [floorLoop, if_pos hlow, ← hnat, if_pos hbelow, ← hsucc]
    exact h.index
  · intro i hi
    rcases List.mem_cons.1 hi with rfl | hi
    · omega
    · exact h.bounds i hi
  · intro rounds hrounds
    obtain ⟨rounds, rfl⟩ := Nat.exists_eq_add_of_lt hrounds
    rw [floorLoop64, if_pos hle, hmid]
    simp only [hbelow, if_true, h.ends (k + 1 + rounds) (by omega), Option.map_some]

private theorem stop (hle : low ≤ high) (hmid : low + (high - low) / 2 = 0)
    (hbelow : ¬ arr.getD 0 0 ≤ target) :
    LoopFinds arr target low high result (k + 1) ⟨result, [0]⟩ := by
  have hlow : low.toNat ≤ high.toNat := hle
  have hnat := toNat_mid hle
  rw [hmid] at hnat
  refine ⟨?_, by simp, by simp, ?_⟩
  · rw [floorLoop, if_pos hlow, ← hnat]
    exact (if_neg hbelow).symm
  · intro rounds hrounds
    obtain ⟨rounds, rfl⟩ := Nat.exists_eq_add_of_lt hrounds
    rw [floorLoop64, if_pos hle, hmid]
    exact if_neg hbelow

private theorem left {mid : BitVec 64} (hle : low ≤ high) (hmid : low + (high - low) / 2 = mid)
    (hbelow : ¬ arr.getD mid.toNat 0 ≤ target) (hzero : mid ≠ 0)
    (h : LoopFinds arr target low (mid - 1) result k found) :
    LoopFinds arr target low high result (k + 1) (found.probe mid) := by
  have hlow : low.toNat ≤ high.toNat := hle
  have hnat := toNat_mid hle
  rw [hmid] at hnat
  have hpos : mid.toNat ≠ 0 := fun h => hzero (BitVec.eq_of_toNat_eq h)
  have hpred := toNat_pred hzero
  refine ⟨?_, Nat.succ_le_succ h.count, ?_, ?_⟩
  · rw [floorLoop, if_pos hlow, ← hnat, if_neg hbelow, if_neg hpos, ← hpred]
    exact h.index
  · intro i hi
    rcases List.mem_cons.1 hi with rfl | hi
    · omega
    · have hi' := h.bounds i hi
      omega
  · intro rounds hrounds
    obtain ⟨rounds, rfl⟩ := Nat.exists_eq_add_of_lt hrounds
    rw [floorLoop64, if_pos hle, hmid]
    simp only [hbelow, if_false, hzero, h.ends (k + 1 + rounds) (by omega), Option.map_some]

end LoopFinds

private theorem exists_loopFinds (arr : List (BitVec 64)) (target : BitVec 64) (k : Nat)
    {low high : BitVec 64} (hhigh : high.toNat + 1 < 2 ^ 64)
    (hwidth : high.toNat + 1 - low.toNat < 2 ^ k) (result : BitVec 64) :
    ∃ found, LoopFinds arr target low high result k found := by
  -- every round halves the width at least
  induction k generalizing low high result with
  | zero =>
      have hle : ¬ low ≤ high := by
        rw [BitVec.le_def]
        omega
      exact ⟨_, .leave hle⟩
  | succ k ih =>
      by_cases hle : low ≤ high
      · have hlow : low.toNat ≤ high.toNat := hle
        have hnat := toNat_mid hle
        rw [Nat.pow_succ] at hwidth
        generalize hmid : low + (high - low) / 2 = mid at hnat
        by_cases hbelow : arr.getD mid.toNat 0 ≤ target
        · have hsucc : (mid + 1).toNat = mid.toNat + 1 := toNat_succ (by omega)
          have habove : high.toNat + 1 - (mid + 1).toNat < 2 ^ k := by omega
          obtain ⟨found, hfinds⟩ := ih hhigh habove mid
          exact ⟨_, hfinds.right hle hmid hbelow hhigh⟩
        · by_cases hzero : mid = 0
          · subst hzero
            exact ⟨_, .stop hle hmid hbelow⟩
          · have hpos : mid.toNat ≠ 0 := fun h => hzero (BitVec.eq_of_toNat_eq h)
            have hpred := toNat_pred hzero
            have hnext : (mid - 1).toNat + 1 - low.toNat < 2 ^ k := by omega
            obtain ⟨found, hfinds⟩ := ih (by omega) hnext result
            exact ⟨_, hfinds.left hle hmid hbelow hzero⟩
      · exact ⟨_, .leave hle⟩

/-! ## The search -/

variable {arr : List (BitVec 64)} {target : BitVec 64}

/-- The search ends, reads within the array and finds what the search over natural numbers
finds. -/
structure SearchFinds (arr : List (BitVec 64)) (target : BitVec 64) (found : Found) : Prop where
  index : found.index.toNat = floorBinarySearch arr arr.length target
  count : found.probes.length ≤ Nat.log2 arr.length + 2
  bounds : ∀ i ∈ found.probes, i.toNat < arr.length
  ends : ∀ rounds, Nat.log2 arr.length + 2 ≤ rounds →
    floorBinarySearch64 rounds arr (BitVec.ofNat 64 arr.length) target = some found

private theorem toNat_UINT64_MAX : UINT64_MAX.toNat = uint64Max := rfl

private theorem exists_searchFinds (hlength : arr.length < 2 ^ 64 - 1) :
    ∃ found, SearchFinds arr target found := by
  have harrLen : (BitVec.ofNat 64 arr.length).toNat = arr.length := by
    rw [BitVec.toNat_ofNat]
    exact Nat.mod_eq_of_lt (by omega)
  by_cases hempty : arr.length = 0
  · refine ⟨⟨UINT64_MAX, []⟩, ?_, Nat.zero_le _, by simp, fun rounds _ => ?_⟩
    · rw [floorBinarySearch, if_pos hempty, toNat_UINT64_MAX]
    · have hzero : BitVec.ofNat 64 arr.length = 0 := by
        rw [hempty]
        rfl
      rw [floorBinarySearch64, if_pos hzero]
  · have hnonempty : BitVec.ofNat 64 arr.length ≠ 0 := by
      intro hzero
      rw [hzero] at harrLen
      exact hempty harrLen.symm
    have hpos : 0 < arr.length := Nat.pos_of_ne_zero hempty
    by_cases hfirst : target < arr.getD 0 0
    · refine ⟨⟨UINT64_MAX, [0]⟩, ?_, by simp, by simpa using hpos, fun rounds _ => ?_⟩
      · rw [floorBinarySearch, if_neg hempty, if_pos hfirst, toNat_UINT64_MAX]
      · rw [floorBinarySearch64, if_neg hnonempty, if_pos hfirst]
    · have hhigh : (BitVec.ofNat 64 arr.length - 1).toNat = arr.length - 1 := by
        rw [toNat_pred hnonempty, harrLen]
      have hwidth : (BitVec.ofNat 64 arr.length - 1).toNat + 1 - (0 : BitVec 64).toNat <
          2 ^ (Nat.log2 arr.length + 1) := by
        have hlog : arr.length < 2 ^ (Nat.log2 arr.length + 1) := Nat.lt_log2_self
        rw [hhigh]
        omega
      obtain ⟨found, hfinds⟩ := exists_loopFinds arr target (Nat.log2 arr.length + 1)
        (by omega) hwidth UINT64_MAX
      refine ⟨found.probe 0, ?_, Nat.succ_le_succ hfinds.count, ?_, fun rounds hrounds => ?_⟩
      · rw [floorBinarySearch, if_neg hempty, if_neg hfirst, ← hhigh]
        exact hfinds.index
      · intro i hi
        rcases List.mem_cons.1 hi with rfl | hi
        · exact hpos
        · have hi' := hfinds.bounds i hi
          omega
      · rw [floorBinarySearch64, if_neg hnonempty, if_neg hfirst, hfinds.ends rounds (by omega),
          Option.map_some]

private theorem FloorAt.greatest {i : Nat} (h : FloorAt arr target i)
    (hsorted : arr.Pairwise (· ≤ ·))
    {j : Nat} (hj : j < arr.length) (hbelow : arr[j] ≤ target) : j ≤ i := by
  by_contra hlt
  have hnext : i + 1 < arr.length := by omega
  have habove : target < arr[i + 1] := by
    simpa [List.getD, hnext] using h.above hnext
  have hle : arr[i + 1] ≤ arr[j] := by
    rcases Nat.eq_or_lt_of_le (show i + 1 ≤ j by omega) with heq | hlt'
    · simp only [heq]
      exact BitVec.le_refl _
    · exact List.pairwise_iff_getElem.1 hsorted (i + 1) j hnext hj hlt'
  simp only [BitVec.le_def, BitVec.lt_def] at habove hle hbelow
  omega

private theorem forall_lt_of_first {target : BitVec 64} (hsorted : arr.Pairwise (· ≤ ·))
    (hfirst : target < arr.getD 0 0) : ∀ x ∈ arr, target < x := by
  cases arr with
  | nil => simp
  | cons first rest =>
      have hrest := (List.pairwise_cons.1 hsorted).1
      intro x hx
      rcases List.mem_cons.1 hx with rfl | hx
      · exact hfirst
      · have hle := hrest x hx
        simp only [List.getD_cons_zero, BitVec.lt_def, BitVec.le_def] at hfirst hle ⊢
        omega

/-- The search of any array ends after a logarithmic number of reads, all inside the array,
with an index at or below the target or none; in an ascending array it is the last such
index. -/
theorem floorBinarySearch64_correct (arr : List (BitVec 64)) (target : BitVec 64)
    (hlength : arr.length < 2 ^ 64 - 1) :
    ∃ found : Found,
      (∀ rounds, Nat.log2 arr.length + 2 ≤ rounds →
        floorBinarySearch64 rounds arr (BitVec.ofNat 64 arr.length) target = some found) ∧
      found.probes.length ≤ Nat.log2 arr.length + 2 ∧
      (∀ i ∈ found.probes, i.toNat < arr.length) ∧
      (found.index = UINT64_MAX ∨
        ∃ h : found.index.toNat < arr.length, arr[found.index.toNat] ≤ target) ∧
      (arr.Pairwise (· ≤ ·) →
        (found.index = UINT64_MAX ↔ ∀ x ∈ arr, target < x) ∧
        (found.index ≠ UINT64_MAX →
          ∀ j, (hj : j < arr.length) → arr[j] ≤ target → j ≤ found.index.toNat)) := by
  obtain ⟨found, hfinds⟩ : ∃ found, SearchFinds arr target found := exists_searchFinds hlength
  refine ⟨found, hfinds.ends, hfinds.count, hfinds.bounds, ?_⟩
  rcases floorBinarySearch_cases arr target with ⟨hmax, hbefore⟩ | hfloor
  · have hindex : found.index = UINT64_MAX :=
      BitVec.eq_of_toNat_eq (hfinds.index.trans (hmax.trans toNat_UINT64_MAX.symm))
    refine ⟨.inl hindex, fun hsorted => ⟨iff_of_true hindex ?_, fun hne => absurd hindex hne⟩⟩
    rcases hbefore with rfl | hfirst
    · simp
    · exact forall_lt_of_first hsorted hfirst
  · rw [← hfinds.index] at hfloor
    have hbelow : arr.get ⟨found.index.toNat, hfloor.bound⟩ ≤ target := by
      simpa [List.getD, hfloor.bound] using hfloor.below
    have hne : found.index ≠ UINT64_MAX := by
      intro hmax
      have hbound := hfloor.bound
      rw [hmax, toNat_UINT64_MAX, uint64Max] at hbound
      omega
    refine ⟨.inr ⟨hfloor.bound, hbelow⟩, fun hsorted => ⟨iff_of_false hne fun hall => ?_, ?_⟩⟩
    · exact absurd (hall _ (List.get_mem arr _)) (BitVec.not_lt.2 hbelow)
    · intro _ j hj hj'
      exact hfloor.greatest hsorted hj hj'

theorem floorBinarySearch64_correct_three :
    [3#64, 5, 5].length < 2 ^ 64 - 1 ∧
      ∃ found : Found, found.probes.length ≤ 3 ∧
        ([3#64, 5, 5].Pairwise (· ≤ ·) →
          (found.index = UINT64_MAX ↔ ∀ x ∈ [3#64, 5, 5], 7#64 < x)) := by
  have hlength : [3#64, 5, 5].length < 2 ^ 64 - 1 := by decide
  obtain ⟨found, -, hcount, -, -, hsorted⟩ := floorBinarySearch64_correct [3#64, 5, 5] 7 hlength
  exact ⟨hlength, found, hcount, fun h => (hsorted h).1⟩

end UserPaging.Extmem
