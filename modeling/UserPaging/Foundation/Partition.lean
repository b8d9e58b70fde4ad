import Mathlib.Data.List.Nodup
import Mathlib.Data.List.Perm.Basic
import Mathlib.Data.List.Range
import Mathlib.Data.Set.Basic

/-!
# Things that are in one place

Every element of a set is in the list of exactly one owner, and there once.  What a
system does to its lists is to move elements from one owner to another, in any order.
-/

namespace UserPaging.Foundation

variable {Owner α : Type*}

structure Partition (lists : Owner → List α) (all : Set α) : Prop where
  nodup : ∀ owner, (lists owner).Nodup
  disjoint : ∀ {owner other a}, a ∈ lists owner → a ∈ lists other → owner = other
  mem_iff : ∀ a, a ∈ all ↔ ∃ owner, a ∈ lists owner

namespace Partition

variable {lists lists' : Owner → List α} {all : Set α}

theorem existsUnique (hpart : Partition lists all) {a : α} (ha : a ∈ all) :
    ∃! owner, a ∈ lists owner := by
  obtain ⟨owner, howner⟩ := (hpart.mem_iff a).1 ha
  exact ⟨owner, howner, fun _ hother => hpart.disjoint hother howner⟩

structure Move (lists lists' : Owner → List α) (source dest : Owner) (moved : List α) : Prop where
  ne : source ≠ dest
  leaves : (lists source).Perm (moved ++ lists' source)
  enters : (lists' dest).Perm (moved ++ lists dest)
  others : ∀ owner, owner ≠ source → owner ≠ dest → lists' owner = lists owner

variable {source dest : Owner} {moved : List α}

theorem Move.mem_iff (hmove : Move lists lists' source dest moved) (hpart : Partition lists all)
    (owner : Owner) (a : α) :
    a ∈ lists' owner ↔ (a ∈ moved ∧ owner = dest) ∨ (a ∉ moved ∧ a ∈ lists owner) := by
  have hsource : ∀ b, b ∈ lists source ↔ b ∈ moved ∨ b ∈ lists' source := fun b => by
    rw [hmove.leaves.mem_iff, List.mem_append]
  have hnodup := (hmove.leaves.nodup_iff.1 (hpart.nodup source))
  rw [List.nodup_append] at hnodup
  by_cases howner : owner = dest
  · subst howner
    rw [hmove.enters.mem_iff, List.mem_append]
    by_cases hmoved : a ∈ moved <;> simp [hmoved]
  · by_cases hsame : owner = source
    · subst hsame
      have hout : a ∈ moved → a ∉ lists' owner := fun hmoved hleft =>
        hnodup.2.2 a hmoved a hleft rfl
      by_cases hmoved : a ∈ moved <;> simp [hmoved, howner, hsource, hout]
    · rw [hmove.others owner hsame howner]
      have hout : a ∈ moved → a ∉ lists owner := fun hmoved hin =>
        hsame (hpart.disjoint hin ((hsource a).2 (.inl hmoved)))
      by_cases hmoved : a ∈ moved <;> simp [hmoved, howner, hout]

theorem Move.mem_source (hmove : Move lists lists' source dest moved) {a : α} (ha : a ∈ moved) :
    a ∈ lists source :=
  hmove.leaves.mem_iff.2 (List.mem_append_left _ ha)

theorem move (hpart : Partition lists all) (hmove : Move lists lists' source dest moved) :
    Partition lists' all where
  nodup := fun owner => by
    have hsource := hmove.leaves.nodup_iff.1 (hpart.nodup source)
    rw [List.nodup_append] at hsource
    by_cases howner : owner = dest
    · subst howner
      rw [hmove.enters.nodup_iff, List.nodup_append]
      refine ⟨hsource.1, hpart.nodup owner, ?_⟩
      rintro a ha b hb rfl
      exact hmove.ne (hpart.disjoint (hmove.mem_source ha) hb)
    · by_cases hsame : owner = source
      · subst hsame
        exact hsource.2.1
      · rw [hmove.others owner hsame howner]
        exact hpart.nodup owner
  disjoint := by
    intro owner other a howner hother
    rw [hmove.mem_iff hpart] at howner hother
    rcases howner with ⟨hmoved, rfl⟩ | ⟨hmoved, hin⟩
    · rcases hother with ⟨-, rfl⟩ | ⟨hnot, -⟩
      · rfl
      · exact absurd hmoved hnot
    · rcases hother with ⟨hyes, -⟩ | ⟨-, hin'⟩
      · exact absurd hyes hmoved
      · exact hpart.disjoint hin hin'
  mem_iff := fun a => by
    rw [hpart.mem_iff]
    constructor
    · rintro ⟨owner, howner⟩
      by_cases hmoved : a ∈ moved
      · exact ⟨dest, (hmove.mem_iff hpart dest a).2 (.inl ⟨hmoved, rfl⟩)⟩
      · exact ⟨owner, (hmove.mem_iff hpart owner a).2 (.inr ⟨hmoved, howner⟩)⟩
    · rintro ⟨owner, howner⟩
      rcases (hmove.mem_iff hpart owner a).1 howner with ⟨hmoved, -⟩ | ⟨-, hin⟩
      · exact ⟨source, hmove.mem_source hmoved⟩
      · exact ⟨owner, hin⟩

theorem countP_not_mem_add_length {lists : Owner → List Nat} {n : Nat}
    (hpart : Partition lists {a | a < n}) (owner : Owner) :
    (List.range n).countP (· ∉ lists owner) + (lists owner).length = n := by
  have hmem : ∀ a, a ∈ (List.range n).filter (· ∈ lists owner) ↔ a ∈ lists owner := by
    intro a
    have hlt : a ∈ lists owner → a < n := fun ha => (hpart.mem_iff a).2 ⟨owner, ha⟩
    simpa using hlt
  have hperm : ((List.range n).filter (· ∈ lists owner)).Perm (lists owner) :=
    (List.perm_ext_iff_of_nodup (List.nodup_range.filter _) (hpart.nodup owner)).2 hmem
  have hsplit := List.length_eq_countP_add_countP (l := List.range n) (· ∈ lists owner)
  rw [List.countP_eq_length_filter, hperm.length_eq, List.length_range] at hsplit
  simp only [decide_eq_true_eq] at hsplit
  omega

end Partition

end UserPaging.Foundation
