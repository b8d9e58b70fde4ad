import Mathlib.Data.BitVec
import Mathlib.Data.Finset.Card

/-!
# Words used as sets of small numbers

A word stands for the set of positions of its set bits.  `setBit` and `clearBit`
are the usual masks with `1 << i`; `ffs` is the C library's find-first-set, which
counts from one and answers zero for the empty word.
-/

namespace UserPaging.Foundation

variable {width : Nat}

def setBit (word : BitVec width) (i : Nat) : BitVec width := word ||| BitVec.twoPow width i

def clearBit (word : BitVec width) (i : Nat) : BitVec width := word &&& ~~~BitVec.twoPow width i

def ffs (word : BitVec width) : Nat :=
  match (List.range width).find? fun i => word.getLsbD i with
  | some i => i + 1
  | none => 0

theorem getLsbD_setBit (word : BitVec width) (i j : Nat) :
    (setBit word i).getLsbD j = (word.getLsbD j || (decide (j < width) && decide (i = j))) := by
  rw [setBit, BitVec.getLsbD_or, BitVec.getLsbD_twoPow]
  by_cases hij : i = j <;> simp [hij]

theorem getLsbD_clearBit (word : BitVec width) (i j : Nat) :
    (clearBit word i).getLsbD j = (word.getLsbD j && !decide (i = j)) := by
  rw [clearBit, BitVec.getLsbD_and, BitVec.getLsbD_not, BitVec.getLsbD_twoPow]
  by_cases hj : j < width
  · by_cases hij : i = j <;> simp [hij, hj]
  · simp [BitVec.getLsbD_of_ge word j (by omega)]

theorem getLsbD_setBit_self {word : BitVec width} {i : Nat} (hi : i < width) :
    (setBit word i).getLsbD i = true := by
  simp [getLsbD_setBit, hi]

theorem getLsbD_setBit_of_ne {word : BitVec width} {i j : Nat} (hne : i ≠ j) :
    (setBit word i).getLsbD j = word.getLsbD j := by
  simp [getLsbD_setBit, hne]

theorem getLsbD_clearBit_self (word : BitVec width) (i : Nat) :
    (clearBit word i).getLsbD i = false := by
  simp [getLsbD_clearBit]

theorem getLsbD_clearBit_of_ne {word : BitVec width} {i j : Nat} (hne : i ≠ j) :
    (clearBit word i).getLsbD j = word.getLsbD j := by
  simp [getLsbD_clearBit, hne]

theorem getLsbD_of_clearBit {word : BitVec width} {i j : Nat}
    (h : (clearBit word i).getLsbD j = true) : word.getLsbD j = true ∧ i ≠ j := by
  simpa [getLsbD_clearBit] using h

theorem ne_zero_of_getLsbD {word : BitVec width} {i : Nat} (h : word.getLsbD i = true) :
    word ≠ 0 := by
  rintro rfl
  simp at h

theorem ffs_of_ne_zero {word : BitVec width} (hne : word ≠ 0) :
    ∃ i, ffs word = i + 1 ∧ word.getLsbD i = true ∧ ∀ j, word.getLsbD j = true → i ≤ j := by
  unfold ffs
  cases hfind : (List.range width).find? fun i => word.getLsbD i with
  | none =>
      exfalso
      apply hne
      apply BitVec.eq_of_getLsbD_eq
      intro i hi
      have hnone := List.find?_eq_none.1 hfind i (List.mem_range.2 hi)
      simpa using hnone
  | some i =>
      rw [List.find?_range_eq_some] at hfind
      refine ⟨i, rfl, hfind.1, ?_⟩
      intro j hj
      by_contra hlt
      have hbelow := hfind.2.2 j (by omega)
      simp [hj] at hbelow

/-- The lowest position whose bit is `value`, as the kernel's `find_first_bit` and
`find_first_zero_bit` give it; the width stands for none. -/
def findFirst (word : BitVec width) (value : Bool) : Nat :=
  ((List.range width).find? fun i => word.getLsbD i == value).getD width

theorem findFirst_cases (word : BitVec width) (value : Bool) :
    (findFirst word value = width ∧ ∀ i < width, word.getLsbD i ≠ value) ∨
      findFirst word value < width ∧ word.getLsbD (findFirst word value) = value ∧
        ∀ i < findFirst word value, word.getLsbD i ≠ value := by
  unfold findFirst
  cases hfind : (List.range width).find? fun i => word.getLsbD i == value with
  | none =>
      refine .inl ⟨rfl, fun i hi => ?_⟩
      simpa using List.find?_eq_none.1 hfind i (List.mem_range.2 hi)
  | some i =>
      rw [List.find?_range_eq_some] at hfind
      refine .inr ⟨by simpa using hfind.2.1, by simpa using hfind.1, fun j hj => ?_⟩
      simpa using hfind.2.2 j hj

def clearBits (word : BitVec width) : Nat :=
  ((Finset.range width).filter fun i => word.getLsbD i = false).card

theorem clearBits_le (word : BitVec width) : clearBits word ≤ width :=
  (Finset.card_filter_le _ _).trans (Finset.card_range width).le

theorem clearBits_setBit_lt {word : BitVec width} {i : Nat} (hi : i < width)
    (hclear : word.getLsbD i = false) : clearBits (setBit word i) < clearBits word := by
  refine Finset.card_lt_card (Finset.ssubset_iff_subset_ne.2 ⟨fun j hj => ?_, fun heq => ?_⟩)
  · obtain ⟨hrange, hj⟩ := Finset.mem_filter.1 hj
    rw [getLsbD_setBit, Bool.or_eq_false_iff] at hj
    exact Finset.mem_filter.2 ⟨hrange, hj.1⟩
  · have hmem : i ∈ (Finset.range width).filter fun i => word.getLsbD i = false :=
      Finset.mem_filter.2 ⟨Finset.mem_range.2 hi, hclear⟩
    rw [← heq, Finset.mem_filter, getLsbD_setBit_self hi] at hmem
    exact absurd hmem.2 (by simp)

/-- The word of free numbers below `width`: a bit is set exactly if nobody has taken its
number. -/
def FreeWord (word : BitVec width) (taken : Nat → Prop) : Prop :=
  ∀ i, i < width → (word.getLsbD i = true ↔ ¬taken i)

namespace FreeWord

variable {word : BitVec width} {taken taken' : Nat → Prop}

theorem congr (hword : FreeWord word taken) (hsame : ∀ i, i < width → (taken i ↔ taken' i)) :
    FreeWord word taken' := by
  intro i hi
  rw [hword i hi, hsame i hi]

theorem allOnes (hnone : ∀ i, ¬taken i) : FreeWord (BitVec.allOnes width) taken := by
  intro i hi
  simp [hi, hnone i]

theorem take (hword : FreeWord word taken) (i : Nat) :
    FreeWord (clearBit word i) fun j => taken j ∨ j = i := by
  intro j hj
  by_cases hij : i = j
  · subst hij
    simp [getLsbD_clearBit_self]
  · rw [getLsbD_clearBit_of_ne hij, hword j hj]
    simp [Ne.symm hij]

theorem give (hword : FreeWord word taken) (i : Nat) :
    FreeWord (setBit word i) fun j => taken j ∧ j ≠ i := by
  intro j hj
  by_cases hij : i = j
  · subst hij
    simp [getLsbD_setBit_self hj]
  · rw [getLsbD_setBit_of_ne hij, hword j hj]
    simp [Ne.symm hij]

end FreeWord

end UserPaging.Foundation
