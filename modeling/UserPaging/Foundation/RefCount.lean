import Mathlib.Data.Set.Card

/-!
# Reference counts

Some holders point at objects; an object carries the number of holders that
point at it and is freed with the last of them.  `Counted` says that the numbers
are right and that nobody points at an object that has been freed.  The rules
below are the moves that keep it: a holder takes a reference to a new or to an
existing object, gives one back, or changes something else in the object.
-/

namespace UserPaging.Foundation

variable {Holder Obj Body : Type*}

def pointers (target : Holder → Option Obj) (obj : Obj) : Set Holder :=
  {h | target h = some obj}

private theorem mem_pointers {target : Holder → Option Obj} {obj : Obj} {h : Holder} :
    h ∈ pointers target obj ↔ target h = some obj := Iff.rfl

section Update

variable [DecidableEq Holder] {target : Holder → Option Obj} {obj : Obj} {h : Holder}

private theorem pointers_update_self :
    pointers (Function.update target h (some obj)) obj = insert h (pointers target obj) := by
  ext other
  by_cases hother : other = h
  · subst hother
    simp [mem_pointers]
  · simp [mem_pointers, hother]

private theorem pointers_update_none (hheld : target h = some obj) :
    insert h (pointers (Function.update target h none) obj) = pointers target obj := by
  ext other
  by_cases hother : other = h
  · subst hother
    simp [mem_pointers, hheld]
  · simp [mem_pointers, hother]

private theorem pointers_update_of_ne {value : Option Obj} (hold : target h ≠ some obj)
    (hnew : value ≠ some obj) :
    pointers (Function.update target h value) obj = pointers target obj := by
  ext other
  by_cases hother : other = h
  · subst hother
    simp [mem_pointers, hold, hnew]
  · simp [mem_pointers, hother]

end Update

/-- Every object carries the number of those who point at it, and whatever somebody points at
is there. -/
structure Counted (refs : Body → Nat) (objects : Obj → Option Body)
    (target : Holder → Option Obj) : Prop where
  exact : ∀ obj body, objects obj = some body → (pointers target obj).encard = refs body
  live : ∀ h obj, target h = some obj → ∃ body, objects obj = some body

namespace Counted

variable {refs : Body → Nat} {objects : Obj → Option Body} {target : Holder → Option Obj}
  {obj : Obj} {body body' : Body} {h h' : Holder}

theorem refs_pos (hcounted : Counted refs objects target) (hheld : target h = some obj)
    (hobj : objects obj = some body) : 0 < refs body := by
  have hne : (pointers target obj).encard ≠ 0 :=
    Set.encard_ne_zero.2 ⟨h, hheld⟩
  rw [hcounted.exact obj body hobj] at hne
  exact Nat.pos_of_ne_zero fun hzero => hne (by rw [hzero]; rfl)

theorem holder_eq (hcounted : Counted refs objects target) (hheld : target h = some obj)
    (hheld' : target h' = some obj) (hobj : objects obj = some body) (hone : refs body = 1) :
    h = h' := by
  have hcard := hcounted.exact obj body hobj
  rw [hone, Nat.cast_one, Set.encard_eq_one] at hcard
  obtain ⟨only, honly⟩ := hcard
  have hmem : h ∈ pointers target obj := hheld
  have hmem' : h' ∈ pointers target obj := hheld'
  rw [honly] at hmem hmem'
  rw [Set.mem_singleton_iff.1 hmem, Set.mem_singleton_iff.1 hmem']

private theorem not_target (hcounted : Counted refs objects target) (hobj : objects obj = none)
    (h : Holder) : target h ≠ some obj := by
  intro hheld
  obtain ⟨body, hbody⟩ := hcounted.live h obj hheld
  rw [hobj] at hbody
  cases hbody

variable [DecidableEq Obj]

theorem edit (hcounted : Counted refs objects target) (hobj : objects obj = some body)
    (hrefs : refs body' = refs body) :
    Counted refs (Function.update objects obj (some body')) target := by
  constructor
  · intro other
    by_cases hother : other = obj
    · subst hother
      simpa [hrefs] using hcounted.exact other body hobj
    · simpa [hother] using hcounted.exact other
  · intro h other hheld
    by_cases hother : other = obj
    · subst hother
      exact ⟨body', by simp⟩
    · simpa [hother] using hcounted.live h other hheld

theorem remove (hcounted : Counted refs objects target) (hobj : objects obj = some body)
    (hrefs : refs body = 0) : Counted refs (Function.update objects obj none) target := by
  have hempty : pointers target obj = ∅ := by
    rw [← Set.encard_eq_zero, hcounted.exact obj body hobj, hrefs]
    rfl
  constructor
  · intro other other' hother'
    by_cases hother : other = obj
    · simp [hother] at hother'
    · exact hcounted.exact other other' (by simpa [hother] using hother')
  · intro h other hheld
    by_cases hother : other = obj
    · subst hother
      have hmem : h ∈ pointers target other := hheld
      simp [hempty] at hmem
    · simpa [hother] using hcounted.live h other hheld

variable [DecidableEq Holder]

theorem hold (hcounted : Counted refs objects target) (hfree : target h = none)
    (hcard : (pointers target obj).encard + 1 = refs body) :
    Counted refs (Function.update objects obj (some body))
      (Function.update target h (some obj)) := by
  constructor
  · intro other other' hother'
    by_cases hother : other = obj
    · subst hother
      simp only [Function.update_self, Option.some.injEq] at hother'
      subst hother'
      have hout : h ∉ pointers target other := by simp [mem_pointers, hfree]
      rw [pointers_update_self, Set.encard_insert_of_notMem hout, hcard]
    · have hne : (some obj : Option Obj) ≠ some other := by
        simpa using fun heq => hother heq.symm
      rw [pointers_update_of_ne (by simp [hfree]) hne]
      exact hcounted.exact other other' (by simpa [hother] using hother')
  · intro other other' hheld
    by_cases hother : other' = obj
    · subst hother
      exact ⟨body, by simp⟩
    · have hheld' : target other = some other' := by
        by_cases hsame : other = h
        · subst hsame
          simp only [Function.update_self, Option.some.injEq] at hheld
          exact absurd hheld.symm hother
        · simpa [hsame] using hheld
      simpa [hother] using hcounted.live other other' hheld'

theorem get (hcounted : Counted refs objects target) (hfree : target h = none)
    (hobj : objects obj = some body) (hrefs : refs body' = refs body + 1) :
    Counted refs (Function.update objects obj (some body'))
      (Function.update target h (some obj)) := by
  apply hcounted.hold hfree
  rw [hcounted.exact obj body hobj, hrefs]
  rfl

theorem alloc (hcounted : Counted refs objects target) (hfree : target h = none)
    (hobj : objects obj = none) (hrefs : refs body = 1) :
    Counted refs (Function.update objects obj (some body))
      (Function.update target h (some obj)) := by
  have hempty : pointers target obj = ∅ :=
    Set.eq_empty_of_forall_notMem fun h => hcounted.not_target hobj h
  apply hcounted.hold hfree
  rw [hempty, hrefs]
  simp

theorem release (hcounted : Counted refs objects target) (hheld : target h = some obj)
    (hobj : objects obj = some body) (hrefs : refs body = refs body' + 1) :
    Counted refs (Function.update objects obj (some body'))
      (Function.update target h none) := by
  constructor
  · intro other other' hother'
    by_cases hother : other = obj
    · subst hother
      simp only [Function.update_self, Option.some.injEq] at hother'
      subst hother'
      have hout : h ∉ pointers (Function.update target h none) other := by simp [mem_pointers]
      have hsum := hcounted.exact other body hobj
      rw [← pointers_update_none hheld, Set.encard_insert_of_notMem hout, hrefs,
        Nat.cast_add, Nat.cast_one] at hsum
      exact ENat.add_left_injective_of_ne_top ENat.one_ne_top hsum
    · have hne : target h ≠ some other := by
        rw [hheld]
        simpa using fun heq => hother heq.symm
      rw [pointers_update_of_ne hne (by simp)]
      exact hcounted.exact other other' (by simpa [hother] using hother')
  · intro other other' hheld'
    by_cases hother : other' = obj
    · subst hother
      exact ⟨body', by simp⟩
    · have hold : target other = some other' := by
        by_cases hsame : other = h
        · subst hsame
          simp at hheld'
        · simpa [hsame] using hheld'
      simpa [hother] using hcounted.live other other' hold

theorem put (hcounted : Counted refs objects target) (hheld : target h = some obj)
    (hobj : objects obj = some body) (hrefs : refs body = refs body' + 1) :
    Counted refs
      (Function.update objects obj (if refs body = 1 then none else some body'))
      (Function.update target h none) := by
  have hreleased := hcounted.release hheld hobj hrefs
  split
  · have hremoved := hreleased.remove (Function.update_self obj (some body') objects) (by omega)
    rwa [Function.update_idem] at hremoved
  · exact hreleased

end Counted

end UserPaging.Foundation
