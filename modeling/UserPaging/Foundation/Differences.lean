import Mathlib.Algebra.BigOperators.Group.List.Basic
import Mathlib.Algebra.Group.Basic

/-!
# Differences along a list

The differences of neighbours add up again: their running sums are the list, and
a block of them adds up to the difference of its ends.
-/

namespace UserPaging.Foundation

variable {α : Type*} [AddCommGroup α]

def differences (previous : α) : List α → List α
  | [] => []
  | value :: values => (value - previous) :: differences value values

@[simp] theorem length_differences (previous : α) (values : List α) :
    (differences previous values).length = values.length := by
  induction values generalizing previous with
  | nil => rfl
  | cons value values ih => rw [differences, List.length_cons, ih, List.length_cons]

theorem scanl_differences (previous : α) (values : List α) :
    (differences previous values).scanl (· + ·) previous = previous :: values := by
  induction values generalizing previous with
  | nil => rfl
  | cons value values ih =>
      have hvalue : previous + (value - previous) = value := add_sub_cancel previous value
      rw [differences, List.scanl_cons, hvalue, ih]

theorem eq_differences_of_scanl {previous : α} {deltas values : List α}
    (hscan : deltas.scanl (· + ·) previous = previous :: values) :
    deltas = differences previous values := by
  induction deltas generalizing previous values with
  | nil =>
      rw [List.scanl_nil, List.cons.injEq] at hscan
      rw [← hscan.2]
      rfl
  | cons delta deltas ih =>
      rw [List.scanl_cons, List.cons.injEq] at hscan
      cases values with
      | nil => exact absurd hscan.2 List.scanl_ne_nil
      | cons value values =>
          have hvalue : previous + delta = value := by
            have hhead := congrArg List.head? hscan.2
            rw [List.head?_scanl] at hhead
            exact Option.some.inj hhead
          rw [hvalue] at hscan
          rw [differences, ← ih hscan.2, ← hvalue, add_sub_cancel_left]

private theorem sum_take_differences (previous : α) (values : List α) {count : Nat}
    (hcount : count ≤ values.length) :
    ((differences previous values).take count).sum =
      (previous :: values).getD count 0 - previous := by
  induction values generalizing previous count with
  | nil =>
      have hzero : count = 0 := Nat.le_zero.1 hcount
      subst hzero
      simp
  | cons value values ih =>
      cases count with
      | zero => simp
      | succ count =>
          rw [differences, List.take_succ_cons, List.sum_cons,
            ih value (Nat.le_of_succ_le_succ hcount), List.getD_cons_succ, add_comm,
            sub_add_sub_cancel]

theorem sum_block_differences (previous : α) (values : List α) {start count : Nat}
    (hcount : start + count ≤ values.length) :
    (((differences previous values).drop start).take count).sum =
      (previous :: values).getD (start + count) 0 - (previous :: values).getD start 0 := by
  have hstart := sum_take_differences previous values (Nat.le_of_add_right_le hcount)
  have hsum := sum_take_differences previous values hcount
  rw [List.take_add, List.sum_append, hstart] at hsum
  rw [eq_sub_of_add_eq' hsum, sub_sub_sub_cancel_right]

theorem sum_differences (previous : α) {values : List α} (hne : values ≠ []) :
    (differences previous values).sum = values.getLast hne - previous := by
  have hsum := sum_take_differences previous values (Nat.le_refl _)
  have hall : (differences previous values).take values.length = differences previous values :=
    List.take_of_length_le (Nat.le_of_eq (length_differences previous values))
  rw [hall] at hsum
  rw [hsum, List.getLast_eq_getElem]
  obtain ⟨value, values, rfl⟩ := List.exists_cons_of_ne_nil hne
  simp [List.getD_eq_getElem?_getD]

end UserPaging.Foundation
