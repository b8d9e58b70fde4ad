import Mathlib.Data.List.Nodup
import Mathlib.Order.Lattice

/-!
# Stable sorting by a key

Pairs that stand in the order of their places are sorted by their keys.  Since the
sort is stable, pairs with one key keep the order of their places.
-/

namespace UserPaging.Foundation

private theorem not_sublist_swap {α : Type*} {a b : α} {l : List α} (hnodup : l.Nodup)
    (hab : [a, b].Sublist l) : ¬ [b, a].Sublist l := by
  induction l with
  | nil => cases hab
  | cons c l ih =>
      obtain ⟨hc, hnodup⟩ := List.nodup_cons.1 hnodup
      intro hba
      cases hab with
      | cons _ hab =>
          cases hba with
          | cons _ hba => exact ih hnodup hab hba
          | cons_cons _ hba => exact hc (hab.subset (List.mem_cons_of_mem _ List.mem_cons_self))
      | cons_cons _ hab =>
          cases hba with
          | cons _ hba => exact hc (hba.subset (List.mem_cons_of_mem _ List.mem_cons_self))
          | cons_cons _ _ => exact hc (hab.subset List.mem_cons_self)

private theorem sublist_or_swap {α : Type*} {a b : α} {l : List α} (hne : a ≠ b) (ha : a ∈ l)
    (hb : b ∈ l) : [a, b].Sublist l ∨ [b, a].Sublist l := by
  induction l with
  | nil => cases ha
  | cons c l ih =>
      rcases List.mem_cons.1 ha with rfl | hal
      · have hbl : b ∈ l := (List.mem_cons.1 hb).resolve_left (Ne.symm hne)
        exact Or.inl ((List.singleton_sublist.2 hbl).cons_cons a)
      rcases List.mem_cons.1 hb with rfl | hbl
      · exact Or.inr ((List.singleton_sublist.2 hal).cons_cons b)
      · exact (ih hal hbl).imp (·.cons c) (·.cons c)

section

variable {ι κ : Type*} [LinearOrder ι] [LinearOrder κ]

def byKey (pairs : List (ι × κ)) : List (ι × κ) :=
  pairs.mergeSort fun a b => decide (a.2 ≤ b.2)

theorem pairwise_byKey {pairs : List (ι × κ)} (hplaces : (pairs.map Prod.fst).Pairwise (· < ·)) :
    (byKey pairs).Pairwise fun a b => a.2 < b.2 ∨ (a.2 = b.2 ∧ a.1 < b.1) := by
  have htrans : ∀ a b c : ι × κ,
      decide (a.2 ≤ b.2) = true → decide (b.2 ≤ c.2) = true → decide (a.2 ≤ c.2) = true := by
    intro a b c hab hbc
    rw [decide_eq_true_eq] at *
    exact hab.trans hbc
  have htotal : ∀ a b : ι × κ, (decide (a.2 ≤ b.2) || decide (b.2 ≤ a.2)) = true := by
    intro a b
    rw [Bool.or_eq_true, decide_eq_true_eq, decide_eq_true_eq]
    exact le_total a.2 b.2
  rw [List.pairwise_map] at hplaces
  have hnodup : (byKey pairs).Nodup := by
    refine (List.mergeSort_perm pairs _).nodup_iff.2 (hplaces.imp fun {a b} hless heq => ?_)
    rw [heq] at hless
    exact lt_irrefl _ hless
  rw [List.pairwise_iff_forall_sublist]
  intro a b hab
  have hle : a.2 ≤ b.2 := by
    have hsorted := List.pairwise_mergeSort htrans htotal pairs
    exact of_decide_eq_true (List.pairwise_iff_forall_sublist.1 hsorted hab)
  rcases lt_or_eq_of_le hle with hless | heq
  · exact Or.inl hless
  -- the keys are equal: the sort has not swapped the two
  refine Or.inr ⟨heq, ?_⟩
  have hne : a ≠ b := List.pairwise_iff_forall_sublist.1 hnodup hab
  have hperm := List.mergeSort_perm pairs fun a b => decide (a.2 ≤ b.2)
  have ha : a ∈ pairs := hperm.mem_iff.1 (hab.subset List.mem_cons_self)
  have hb : b ∈ pairs := hperm.mem_iff.1 (hab.subset (List.mem_cons_of_mem _ List.mem_cons_self))
  rcases sublist_or_swap hne ha hb with hkept | hswapped
  · exact List.pairwise_iff_forall_sublist.1 hplaces hkept
  · have hstable := List.pair_sublist_mergeSort htrans htotal (decide_eq_true heq.ge) hswapped
    exact absurd hstable (not_sublist_swap hnodup hab)

end

end UserPaging.Foundation
