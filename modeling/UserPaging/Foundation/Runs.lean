import Mathlib.Logic.Function.Iterate
import Mathlib.Order.Monotone.Basic

/-!
# Runs of successors

A sequence stored as runs: a slot holds the first element of a run and the number of
successors that follow it.  A reader stands inside a run with the next element and the
number of elements left there; it moves to the next slot when that number is used up.
The slots of the runs that a reader has left may change under it.
-/

namespace UserPaging.Foundation

structure Run (α : Type*) where
  first : α
  extra : Nat
  deriving DecidableEq, Repr

variable {α : Type*} (succ : α → α)

/-- The element that a reader gets after `i` others, from slot `pos` on, with `next` and
`left` successors of it still to come there. -/
def elementFrom (slots : Nat → Run α) : Nat → α → Nat → Nat → α
  | 0, next, _, _ => next
  | i + 1, _, 0, pos =>
      elementFrom slots i (slots (pos + 1)).first (slots (pos + 1)).extra (pos + 1)
  | i + 1, next, left + 1, pos => elementFrom slots i (succ next) left pos

def element (slots : Nat → Run α) (pos i : Nat) : α :=
  elementFrom succ slots i (slots pos).first (slots pos).extra pos

variable {succ} {slots slots' : Nat → Run α}

theorem elementFrom_congr {pos : Nat} (hslots : ∀ later, pos < later → slots later = slots' later)
    (i : Nat) (next : α) (left : Nat) :
    elementFrom succ slots i next left pos = elementFrom succ slots' i next left pos := by
  induction i generalizing next left pos with
  | zero => rfl
  | succ i ih =>
      cases left with
      | zero =>
          simp only [elementFrom, hslots (pos + 1) (by omega)]
          exact ih (fun later hlater => hslots later (by omega)) _ _
      | succ left => exact ih hslots _ _

theorem elementFrom_of_le {i left : Nat} (hi : i ≤ left) (next : α) (pos : Nat) :
    elementFrom succ slots i next left pos = succ^[i] next := by
  induction i generalizing next left with
  | zero => rfl
  | succ i ih =>
      cases left with
      | zero => omega
      | succ left =>
          rw [elementFrom, ih (by omega), Function.iterate_succ_apply]

theorem elementFrom_add (i left : Nat) (next : α) (pos : Nat) :
    elementFrom succ slots (left + 1 + i) next left pos = element succ slots (pos + 1) i := by
  induction left generalizing next with
  | zero =>
      rw [show 0 + 1 + i = i + 1 by omega]
      rfl
  | succ left ih =>
      rw [show left + 1 + 1 + i = (left + 1 + i) + 1 by omega, elementFrom]
      exact ih (succ next)

def runStart (slots : Nat → Run α) : Nat → Nat
  | 0 => 0
  | pos + 1 => runStart slots pos + ((slots pos).extra + 1)

theorem element_runStart (pos i : Nat) :
    element succ slots 0 (runStart slots pos + i) = element succ slots pos i := by
  induction pos generalizing i with
  | zero => rw [runStart, Nat.zero_add]
  | succ pos ih =>
      rw [runStart, Nat.add_assoc, ih]
      exact elementFrom_add i (slots pos).extra (slots pos).first pos

theorem runStart_mono (slots : Nat → Run α) : Monotone (runStart slots) :=
  monotone_nat_of_le_succ fun pos => by
    rw [runStart]
    exact Nat.le_add_right _ _

/-! ## Counting runs -/

section

variable [DecidableEq α] (succ)

def runCount : List α → Nat
  | [] => 0
  | [_] => 1
  | a :: b :: l => if succ a = b then runCount (b :: l) else runCount (b :: l) + 1

theorem runCount_pos (a : α) (l : List α) : 0 < runCount succ (a :: l) := by
  induction l generalizing a with
  | nil => exact Nat.one_pos
  | cons b l ih =>
      rw [runCount]
      split
      · exact ih b
      · exact Nat.succ_pos _

end

end UserPaging.Foundation
