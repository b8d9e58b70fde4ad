import Mathlib.Logic.Function.Basic

/-!
# Frames that are booked at a key

A frame is installed in a table under the key that it is booked at.  Whoever removes it
from the table marks it as freed, and only then may the booking be dropped.
-/

namespace UserPaging.Foundation

variable {Frame Key : Type*}

structure Ledger (booked : Frame → Key → Prop) (table : Key → Option Frame)
    (freed : Frame → Bool) : Prop where
  unique : ∀ {frame key other}, booked frame key → booked frame other → key = other
  booked_of_mapped : ∀ {frame key}, table key = some frame → booked frame key
  mapped_of_booked : ∀ {frame key}, booked frame key → freed frame = false →
    table key = some frame
  booked_of_freed : ∀ {frame}, freed frame = true → ∃ key, booked frame key
  unmapped_of_freed : ∀ {frame key}, freed frame = true → table key ≠ some frame

namespace Ledger

variable {booked booked' : Frame → Key → Prop} {table : Key → Option Frame}
  {freed : Frame → Bool}

theorem key_unique (hledger : Ledger booked table freed) {frame : Frame} {key other : Key}
    (hkey : table key = some frame) (hother : table other = some frame) : key = other :=
  hledger.unique (hledger.booked_of_mapped hkey) (hledger.booked_of_mapped hother)

theorem congr (hledger : Ledger booked table freed)
    (hbooked : ∀ frame key, booked' frame key ↔ booked frame key) :
    Ledger booked' table freed := by
  have hsame : booked' = booked := by
    funext frame key
    exact propext (hbooked frame key)
  rwa [hsame]

theorem install [DecidableEq Key] (hledger : Ledger booked table freed) {frame : Frame} {key : Key}
    (hfresh : ∀ other, ¬ booked frame other) (hempty : table key = none)
    (hbooked : ∀ frame' other,
      booked' frame' other ↔ booked frame' other ∨ (frame' = frame ∧ other = key)) :
    Ledger booked' (Function.update table key (some frame)) freed where
  unique := by
    intro frame' other other' hfirst hsecond
    rw [hbooked] at hfirst hsecond
    rcases hfirst with hfirst | ⟨rfl, rfl⟩
    · rcases hsecond with hsecond | ⟨rfl, rfl⟩
      · exact hledger.unique hfirst hsecond
      · exact absurd hfirst (hfresh _)
    · rcases hsecond with hsecond | ⟨-, rfl⟩
      · exact absurd hsecond (hfresh _)
      · rfl
  booked_of_mapped := by
    intro frame' other hmapped
    rw [hbooked]
    by_cases hother : other = key
    · subst hother
      rw [Function.update_self, Option.some.injEq] at hmapped
      exact .inr ⟨hmapped.symm, rfl⟩
    · rw [Function.update_of_ne hother] at hmapped
      exact .inl (hledger.booked_of_mapped hmapped)
  mapped_of_booked := by
    intro frame' other hin hnot
    rcases (hbooked frame' other).1 hin with hin | ⟨rfl, rfl⟩
    · have hmapped := hledger.mapped_of_booked hin hnot
      have hother : other ≠ key := by
        rintro rfl
        rw [hempty] at hmapped
        cases hmapped
      rwa [Function.update_of_ne hother]
    · exact Function.update_self ..
  booked_of_freed := by
    intro frame' hfreed
    obtain ⟨other, hother⟩ := hledger.booked_of_freed hfreed
    exact ⟨other, (hbooked frame' other).2 (.inl hother)⟩
  unmapped_of_freed := by
    intro frame' other hfreed hmapped
    by_cases hother : other = key
    · subst hother
      rw [Function.update_self, Option.some.injEq] at hmapped
      subst hmapped
      obtain ⟨booking, hbooking⟩ := hledger.booked_of_freed hfreed
      exact hfresh booking hbooking
    · rw [Function.update_of_ne hother] at hmapped
      exact hledger.unmapped_of_freed hfreed hmapped

theorem unmap [DecidableEq Key] [DecidableEq Frame] (hledger : Ledger booked table freed)
    {frame : Frame} {key : Key} (hmapped : table key = some frame) :
    Ledger booked (Function.update table key none) (Function.update freed frame true) where
  unique := hledger.unique
  booked_of_mapped := by
    intro frame' other hother
    have hne : other ≠ key := by
      rintro rfl
      simp at hother
    rw [Function.update_of_ne hne] at hother
    exact hledger.booked_of_mapped hother
  mapped_of_booked := by
    intro frame' other hin hnot
    have hne : frame' ≠ frame := by
      rintro rfl
      simp at hnot
    rw [Function.update_of_ne hne] at hnot
    have hother := hledger.mapped_of_booked hin hnot
    have hkey : other ≠ key := by
      rintro rfl
      exact hne (Option.some.inj (hother.symm.trans hmapped))
    rwa [Function.update_of_ne hkey]
  booked_of_freed := by
    intro frame' hfreed
    by_cases hframe : frame' = frame
    · exact ⟨key, hframe ▸ hledger.booked_of_mapped hmapped⟩
    · rw [Function.update_of_ne hframe] at hfreed
      exact hledger.booked_of_freed hfreed
  unmapped_of_freed := by
    intro frame' other hfreed hother
    have hkey : other ≠ key := by
      rintro rfl
      simp at hother
    rw [Function.update_of_ne hkey] at hother
    by_cases hframe : frame' = frame
    · subst hframe
      exact hkey (hledger.key_unique hother hmapped)
    · rw [Function.update_of_ne hframe] at hfreed
      exact hledger.unmapped_of_freed hfreed hother

theorem release [DecidableEq Frame] (hledger : Ledger booked table freed) {frame : Frame}
    (hfreed : freed frame = true)
    (hbooked : ∀ frame' key, booked' frame' key ↔ booked frame' key ∧ frame' ≠ frame) :
    Ledger booked' table (Function.update freed frame false) where
  unique := fun hfirst hsecond =>
    hledger.unique ((hbooked _ _).1 hfirst).1 ((hbooked _ _).1 hsecond).1
  booked_of_mapped := by
    intro frame' key hmapped
    refine (hbooked frame' key).2 ⟨hledger.booked_of_mapped hmapped, ?_⟩
    rintro rfl
    exact hledger.unmapped_of_freed hfreed hmapped
  mapped_of_booked := by
    intro frame' key hin hnot
    obtain ⟨hin, hne⟩ := (hbooked frame' key).1 hin
    rw [Function.update_of_ne hne] at hnot
    exact hledger.mapped_of_booked hin hnot
  booked_of_freed := by
    intro frame' hfreed'
    have hne : frame' ≠ frame := by
      rintro rfl
      simp at hfreed'
    rw [Function.update_of_ne hne] at hfreed'
    obtain ⟨key, hkey⟩ := hledger.booked_of_freed hfreed'
    exact ⟨key, (hbooked frame' key).2 ⟨hkey, hne⟩⟩
  unmapped_of_freed := by
    intro frame' key hfreed'
    have hne : frame' ≠ frame := by
      rintro rfl
      simp at hfreed'
    rw [Function.update_of_ne hne] at hfreed'
    exact hledger.unmapped_of_freed hfreed'

end Ledger

end UserPaging.Foundation
