import Mathlib.Data.BitVec
import Mathlib.Data.List.Basic

/-!
# The worker of a new thread

The kernel writes the number of the chosen worker into the page of a new thread, and
`usmChooseWorker` walks the list of workers to it.  The loop decrements the number
once more than it moves on, and the number is tested after that: the walk is
taken back for every worker but the first, and succeeds at the end of the list.
-/

namespace UserPaging.Usm

/-! ## The walk -/

/-- A worker is named by its place in the list; `none` is the null pointer. -/
inductive Choice where
  | returns (worker : Option Nat)
  | aborts
  deriving DecidableEq, Repr

variable {Worker : Type*}

/-- `while (workersIterator && id--) workersIterator = workersIterator->next`, with the
iterator at `place` and the workers from there on. -/
def walk : List Worker → Nat → BitVec 32 → Option Nat × BitVec 32
  | [], _, id => (none, id)
  | _ :: next, place, id => if id = 0 then (some place, id - 1) else walk next (place + 1) (id - 1)

def usmChooseWorker (workers : List Worker) (id : BitVec 32) : Choice :=
  let reached := if id = 0 then (some 0, id) else walk workers 0 id
  if reached.2 = 0 then .returns reached.1 else .aborts

private theorem toNat_sub_one {id : BitVec 32} (hid : id ≠ 0) : (id - 1).toNat = id.toNat - 1 := by
  have hpos : id.toNat ≠ 0 := fun h => hid (BitVec.eq_of_toNat_eq h)
  have hle : (1 : BitVec 32) ≤ id := by
    rw [BitVec.le_def]
    exact Nat.one_le_iff_ne_zero.2 hpos
  rw [BitVec.toNat_sub_of_le hle]
  rfl

/-- Inside the list the walk ends with the number below zero, at its end with what is left
of the number. -/
private theorem walk_spec (workers : List Worker) (place : Nat) (id : BitVec 32) :
    (id.toNat < workers.length ∧ (walk workers place id).2 = -1) ∨
      (workers.length ≤ id.toNat ∧ (walk workers place id).1 = none ∧
        (walk workers place id).2.toNat = id.toNat - workers.length) := by
  induction workers generalizing place id with
  | nil => exact .inr ⟨Nat.zero_le _, rfl, rfl⟩
  | cons worker next ih =>
      rw [walk, List.length_cons]
      by_cases hid : id = 0
      · subst hid
        exact .inl ⟨Nat.succ_pos _, rfl⟩
      · have hpos : id.toNat ≠ 0 := fun h => hid (BitVec.eq_of_toNat_eq h)
        have hsub := toNat_sub_one hid
        rw [if_neg hid]
        rcases ih (place + 1) (id - 1) with ⟨hlt, hend⟩ | ⟨hle, hnull, hleft⟩
        · exact .inl ⟨by omega, hend⟩
        · exact .inr ⟨by omega, hnull, by omega⟩

private theorem usmChooseWorker_eq (workers : List Worker) (id : BitVec 32) :
    usmChooseWorker workers id =
      if id = 0 then .returns (some 0)
      else if id.toNat = workers.length then .returns none
      else .aborts := by
  unfold usmChooseWorker
  by_cases hid : id = 0
  · simp only [hid, if_true]
  · simp only [hid, if_false]
    rcases walk_spec workers 0 id with ⟨hlt, hend⟩ | ⟨hle, hnull, hleft⟩
    · rw [hend, if_neg (by omega : id.toNat ≠ workers.length)]
      rfl
    · by_cases heq : id.toNat = workers.length
      · have hzero : (walk workers 0 id).2 = 0 := by
          apply BitVec.eq_of_toNat_eq
          rw [hleft, heq]
          exact Nat.sub_self _
        rw [hzero, hnull, if_pos heq]
        rfl
      · have hne : (walk workers 0 id).2 ≠ 0 := by
          intro hzero
          rw [hzero] at hleft
          have hnat : (0 : BitVec 32).toNat = 0 := rfl
          omega
        rw [if_neg hne, if_neg heq]

/-- The worker that the number names is returned, every other number aborts, and no null
pointer is returned. -/
structure ChoosesRight (workers : List Worker) (id : BitVec 32) : Prop where
  inside : 0 ≤ id.toInt → id.toInt < workers.length →
    usmChooseWorker workers id = .returns (some id.toInt.toNat)
  outside : ¬(0 ≤ id.toInt ∧ id.toInt < workers.length) → usmChooseWorker workers id = .aborts
  notNull : usmChooseWorker workers id ≠ .returns none

theorem choosesRight_iff (usmMemWorkers : Worker) (next : List Worker) (id : BitVec 32) :
    ChoosesRight (usmMemWorkers :: next) id ↔
      id = 0 ∨
        ((id.toInt < 0 ∨ ((usmMemWorkers :: next).length : Int) < id.toInt) ∧
          id.toNat ≠ (usmMemWorkers :: next).length) := by
  have heq := usmChooseWorker_eq (usmMemWorkers :: next) id
  generalize hworkers : usmMemWorkers :: next = workers at heq
  have hlength : 0 < workers.length := by
    rw [← hworkers]
    exact Nat.succ_pos _
  constructor
  · rintro ⟨hinside, houtside, hnull⟩
    by_cases hid : id = 0
    · exact .inl hid
    · rw [if_neg hid] at heq
      have hlast : id.toNat ≠ workers.length := by
        intro hlast
        rw [if_pos hlast] at heq
        exact hnull heq
      rw [if_neg hlast] at heq
      have hnot : ¬(0 ≤ id.toInt ∧ id.toInt < workers.length) := by
        rintro ⟨hpos, hlt⟩
        have hreturns := hinside hpos hlt
        rw [heq] at hreturns
        cases hreturns
      have hint := BitVec.toInt_eq_toNat_cond id
      refine .inr ⟨?_, hlast⟩
      split at hint <;> omega
  · rintro (rfl | ⟨houtside, hlast⟩)
    · have hzero : (0 : BitVec 32).toInt = 0 := rfl
      rw [if_pos rfl] at heq
      refine ⟨fun _ _ => heq, fun hnot => ?_, ?_⟩
      · omega
      · rw [heq]
        decide
    · have hid : id ≠ 0 := by
        rintro rfl
        have hzero : (0 : BitVec 32).toInt = 0 := rfl
        omega
      rw [if_neg hid, if_neg hlast] at heq
      refine ⟨fun hpos hlt => ?_, fun _ => heq, ?_⟩
      · omega
      · rw [heq]
        decide

theorem second_worker_aborts :
    usmChooseWorker [(), ()] 1 = .aborts ∧ usmChooseWorker [(), ()] 2 = .returns none ∧
      ¬ ChoosesRight [(), ()] 1 := by
  refine ⟨by decide, by decide, fun hright => ?_⟩
  exact absurd (hright.inside (by decide) (by decide)) (by decide)

end UserPaging.Usm
