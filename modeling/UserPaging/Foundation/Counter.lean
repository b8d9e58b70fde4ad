import Mathlib.Data.List.Induction
import Mathlib.Data.List.Nodup

/-!
# Counting items

A counter has an entry for every item, in the order in which the items were first
met, with the number of times it was met.  Of several items that were met equally
often, `mostCommon` takes the first entry.
-/

namespace UserPaging.Foundation.Counter

variable {α : Type*}

def mostCommon : List (α × Nat) → Option (α × Nat)
  | [] => none
  | entry :: entries =>
      some (entries.foldl (fun best next => if best.2 < next.2 then next else best) entry)

private theorem foldl_max (entries : List (α × Nat)) (entry : α × Nat) :
    let best := entries.foldl (fun best next => if best.2 < next.2 then next else best) entry
    best ∈ entry :: entries ∧ ∀ other ∈ entry :: entries, other.2 ≤ best.2 := by
  induction entries generalizing entry with
  | nil => simp
  | cons next entries ih =>
      obtain ⟨hmem, hmax⟩ := ih (if entry.2 < next.2 then next else entry)
      simp only [List.foldl_cons]
      by_cases hless : entry.2 < next.2
      · simp only [if_pos hless] at hmem hmax ⊢
        have hnext := hmax next List.mem_cons_self
        refine ⟨List.mem_cons_of_mem _ hmem, fun other hother => ?_⟩
        rcases List.mem_cons.1 hother with rfl | hother
        · omega
        · exact hmax other hother
      · simp only [if_neg hless] at hmem hmax ⊢
        have hentry := hmax entry List.mem_cons_self
        refine ⟨?_, fun other hother => ?_⟩
        · rcases List.mem_cons.1 hmem with heq | hmem
          · rw [heq]
            exact List.mem_cons_self
          · exact List.mem_cons_of_mem _ (List.mem_cons_of_mem _ hmem)
        · rcases List.mem_cons.1 hother with rfl | hother
          · exact hentry
          rcases List.mem_cons.1 hother with rfl | hother
          · omega
          · exact hmax other (List.mem_cons_of_mem _ hother)

variable [DecidableEq α] [BEq α] [LawfulBEq α]

def add (item : α) : List (α × Nat) → List (α × Nat)
  | [] => [(item, 1)]
  | (key, times) :: entries =>
      if key = item then (key, times + 1) :: entries else (key, times) :: add item entries

def ofItems (items : List α) : List (α × Nat) :=
  items.foldl (fun entries item => add item entries) []

private theorem add_map {item : α} {keys : List α} (hkeys : keys.Nodup) (times : α → Nat) :
    add item (keys.map fun key => (key, times key)) =
      if item ∈ keys then
        keys.map fun key => (key, if key = item then times key + 1 else times key)
      else keys.map (fun key => (key, times key)) ++ [(item, 1)] := by
  induction keys with
  | nil => rfl
  | cons key keys ih =>
      obtain ⟨hnotin, hkeys⟩ := List.nodup_cons.1 hkeys
      rw [List.map_cons, add]
      by_cases heq : key = item
      · subst heq
        have hrest : keys.map (fun other => (other, times other)) =
            keys.map fun other =>
              (other, if other = key then times other + 1 else times other) := by
          refine List.map_congr_left fun other hother => ?_
          have hne : other ≠ key := fun h => hnotin (h ▸ hother)
          rw [if_neg hne]
        rw [if_pos rfl, if_pos List.mem_cons_self, List.map_cons, if_pos rfl, hrest]
      · rw [if_neg heq, ih hkeys]
        have hmem : item ∈ key :: keys ↔ item ∈ keys := by
          rw [List.mem_cons, or_iff_right (Ne.symm heq)]
        by_cases hin : item ∈ keys
        · rw [if_pos hin, if_pos (hmem.2 hin), List.map_cons, if_neg heq]
        · rw [if_neg hin, if_neg (mt hmem.1 hin), List.cons_append]

private theorem ofItems_eq (items : List α) :
    ∃ keys : List α, keys.Nodup ∧ (∀ key, key ∈ keys ↔ key ∈ items) ∧
      ofItems items = keys.map fun key => (key, items.count key) := by
  induction items using List.reverseRecOn with
  | nil => exact ⟨[], List.nodup_nil, by simp, rfl⟩
  | append_singleton items item ih =>
      obtain ⟨keys, hkeys, hmem, heq⟩ := ih
      have hadd : ofItems (items ++ [item]) = add item (ofItems items) := by
        rw [ofItems, List.foldl_append]
        rfl
      have hcount : ∀ key, (items ++ [item]).count key =
          if key = item then items.count key + 1 else items.count key := by
        intro key
        rw [List.count_append, List.count_singleton]
        by_cases h : key = item
        · rw [if_pos h, if_pos (beq_iff_eq.2 h.symm)]
        · rw [if_neg h, if_neg (mt (fun hbeq => (beq_iff_eq.1 hbeq).symm) h), Nat.add_zero]
      rw [hadd, heq, add_map hkeys]
      by_cases hin : item ∈ keys
      · refine ⟨keys, hkeys, fun key => ?_, ?_⟩
        · rw [List.mem_append, List.mem_singleton, ← hmem]
          exact ⟨Or.inl, fun h => h.elim id fun h => h ▸ hin⟩
        · rw [if_pos hin]
          simp only [hcount]
      · refine ⟨keys ++ [item], ?_, fun key => ?_, ?_⟩
        · rw [List.nodup_append]
          refine ⟨hkeys, List.nodup_singleton item, fun key hkey other hother => ?_⟩
          rw [List.mem_singleton.1 hother]
          exact fun h => hin (h ▸ hkey)
        · rw [List.mem_append, List.mem_append, hmem]
        · have hzero : items.count item = 0 := List.count_eq_zero.2 (mt (hmem item).2 hin)
          have hold : keys.map (fun key => (key, items.count key)) =
              keys.map fun key => (key, (items ++ [item]).count key) := by
            refine List.map_congr_left fun key hkey => ?_
            have hne : key ≠ item := fun h => hin (h ▸ hkey)
            rw [hcount, if_neg hne]
          rw [if_neg hin, List.map_append, ← hold, List.map_singleton, hcount, if_pos rfl, hzero]

theorem mostCommon_ofItems {items : List α} (hne : items ≠ []) :
    ∃ item ∈ items, mostCommon (ofItems items) = some (item, items.count item) ∧
      ∀ other, items.count other ≤ items.count item := by
  obtain ⟨keys, _, hmem, heq⟩ := ofItems_eq items
  obtain ⟨first, rest, rfl⟩ := List.exists_cons_of_ne_nil hne
  have hfirst : first ∈ keys := (hmem first).2 List.mem_cons_self
  generalize first :: rest = items at hmem heq ⊢
  obtain ⟨key, keys, rfl⟩ := List.exists_cons_of_ne_nil (List.ne_nil_of_mem hfirst)
  rw [List.map_cons] at heq
  obtain ⟨hbest, hmax⟩ := foldl_max (keys.map fun key => (key, items.count key))
    (key, items.count key)
  rw [← List.map_cons (f := fun key => (key, items.count key))] at hbest hmax
  obtain ⟨item, hitem, hpair⟩ := List.mem_map.1 hbest
  refine ⟨item, (hmem item).1 hitem, ?_, fun other => ?_⟩
  · rw [heq, mostCommon, ← hpair]
  · rw [← hpair] at hmax
    by_cases hother : other ∈ items
    · exact hmax _ (List.mem_map_of_mem ((hmem other).2 hother))
    · rw [List.count_eq_zero.2 hother]
      exact Nat.zero_le _

end UserPaging.Foundation.Counter
