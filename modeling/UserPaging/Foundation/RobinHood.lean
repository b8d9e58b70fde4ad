import Mathlib.Algebra.BigOperators.Group.Finset.Piecewise
import Mathlib.Algebra.Order.Group.Multiset
import Mathlib.Data.Nat.ModEq
import Mathlib.Tactic.Abel

/-!
# Robin Hood hashing

An open-addressed table of `n` slots.  A slot that holds a value also holds its
distance counter, one more than the number of slots between the value's home
and the slot; an empty slot has the counter zero.  Positions are natural numbers
read modulo `n`, so that a probe only ever counts upwards.

A table is well probed when the counter grows by at most one from each slot to
the next.  This one condition says both that no empty slot stands between a
value and its home and that no value could take the slot of a luckier one.

The counters have a finite width: they are increased modulo `limit`.
-/

namespace UserPaging.Foundation.RobinHood

structure Slot (α : Type*) where
  dib : Nat
  val : α

abbrev Table (α : Type*) := Nat → Slot α

variable {α κ : Type*} {n limit : Nat} {home : α → Nat}

/-! ### Contents -/

def Slot.held (s : Slot α) : Multiset α := if s.dib = 0 then 0 else {s.val}

theorem Slot.held_empty {s : Slot α} (h : s.dib = 0) : s.held = 0 := if_pos h

theorem Slot.held_live {s : Slot α} (h : s.dib ≠ 0) : s.held = {s.val} := if_neg h

def items (n : Nat) (t : Table α) : Multiset α := ∑ i ∈ Finset.range n, (t i).held

theorem items_update (t : Table α) (s : Slot α) {p : Nat} (hp : p < n) :
    items n (Function.update t p s) + (t p).held = items n t + s.held := by
  have hmem : p ∈ Finset.range n := Finset.mem_range.2 hp
  have hheld : (fun i => (Function.update t p s i).held) =
      Function.update (fun i => (t i).held) p s.held :=
    funext fun i => Function.apply_update (fun _ => Slot.held) t p s i
  have hold : items n t = (t p).held + ∑ i ∈ Finset.range n \ {p}, (t i).held := by
    rw [items, ← Finset.sum_update_of_mem hmem, Function.update_eq_self]
  rw [hold, items, hheld, Finset.sum_update_of_mem hmem]
  abel

theorem mem_items {t : Table α} {v : α} :
    v ∈ items n t ↔ ∃ p < n, (t p).dib ≠ 0 ∧ (t p).val = v := by
  simp only [items, Multiset.mem_sum, Finset.mem_range]
  refine exists_congr fun p => and_congr_right fun _ => ?_
  by_cases h : (t p).dib = 0
  · simp [Slot.held_empty h, h]
  · simp [Slot.held_live h, h, eq_comm]

theorem card_items (t : Table α) :
    (items n t).card = ((Finset.range n).filter fun i => (t i).dib ≠ 0).card := by
  rw [items, Multiset.card_sum, Finset.card_filter]
  refine Finset.sum_congr rfl fun i _ => ?_
  by_cases h : (t i).dib = 0
  · simp [Slot.held_empty h, h]
  · simp [Slot.held_live h, h]

theorem items_eq_zero {t : Table α} (h : ∀ i < n, (t i).dib = 0) : items n t = 0 :=
  Finset.sum_eq_zero fun i hi => Slot.held_empty (h i (Finset.mem_range.1 hi))

def Slot.toOption (s : Slot α) : Option α := if s.dib = 0 then none else some s.val

private theorem Slot.coe_toOption (s : Slot α) : (s.toOption.toList : Multiset α) = s.held := by
  by_cases h : s.dib = 0 <;> simp [toOption, held, h]

theorem items_eq_coe (n : Nat) (t : Table α) :
    items n t = ((List.range n).filterMap fun i => (t i).toOption : List α) := by
  induction n with
  | zero => rfl
  | succ n ih =>
      rw [items, Finset.sum_range_succ, ← items, ih, List.range_succ, List.filterMap_append,
        ← Slot.coe_toOption, Multiset.coe_add]
      congr 2

theorem slot_eq_of_key_eq {t : Table α} {key : α → κ} (hnodup : ((items n t).map key).Nodup)
    {p q : Nat} (hp : p < n) (hq : q < n) (hplive : (t p).dib ≠ 0) (hqlive : (t q).dib ≠ 0)
    (hkey : key (t p).val = key (t q).val) : p = q := by
  by_contra hne
  -- emptying slot `p` leaves the value of slot `q` among the others
  have hupdate := items_update t ⟨0, (t p).val⟩ hp
  rw [Slot.held_live hplive, Slot.held_empty (s := ⟨0, (t p).val⟩) rfl, add_zero, add_comm,
    Multiset.singleton_add] at hupdate
  rw [← hupdate, Multiset.map_cons, Multiset.nodup_cons, hkey] at hnodup
  refine hnodup.1 (Multiset.mem_map_of_mem key (mem_items.2 ⟨q, hq, ?_⟩))
  rw [Function.update_of_ne (Ne.symm hne)]
  exact ⟨hqlive, rfl⟩

/-- Slot `i + k` is empty, and it is met before the probe is back at `i`. -/
def FreeAt (n : Nat) (t : Table α) (i k : Nat) : Prop := k < n ∧ (t ((i + k) % n)).dib = 0

private theorem mod_add_sub_mod {i p : Nat} (hn : 0 < n) :
    (i + (p + (n - i % n)) % n) % n = p % n := by
  have hlt : i % n < n := Nat.mod_lt i hn
  have hi : i = n * (i / n) + i % n := (Nat.div_add_mod i n).symm
  rw [Nat.add_mod_mod]
  have hsum : i + (p + (n - i % n)) = p + n + n * (i / n) := by omega
  rw [hsum, Nat.add_mul_mod_self_left, Nat.add_mod_right]

theorem exists_freeAt {t : Table α} (h : (items n t).card < n) (i : Nat) :
    ∃ k, FreeAt n t i k := by
  have hn : 0 < n := by omega
  obtain ⟨p, hp, hfree⟩ : ∃ p < n, (t p).dib = 0 := by
    by_contra hfull
    have hall : (Finset.range n).filter (fun i => (t i).dib ≠ 0) = Finset.range n :=
      Finset.filter_true_of_mem fun p hp hfree => hfull ⟨p, Finset.mem_range.1 hp, hfree⟩
    rw [card_items, hall, Finset.card_range] at h
    exact h.false
  refine ⟨(p + (n - i % n)) % n, Nat.mod_lt _ hn, ?_⟩
  rw [mod_add_sub_mod hn, Nat.mod_eq_of_lt hp]
  exact hfree

private theorem FreeAt.card_lt {t : Table α} {i k : Nat} (hfree : FreeAt n t i k) :
    (items n t).card < n := by
  have hp : (i + k) % n < n := Nat.mod_lt _ (by have := hfree.1; omega)
  rw [card_items]
  calc ((Finset.range n).filter fun i => (t i).dib ≠ 0).card
      < (Finset.range n).card := Finset.card_lt_card (Finset.filter_ssubset.2
        ⟨(i + k) % n, Finset.mem_range.2 hp, by simpa using hfree.2⟩)
    _ = n := Finset.card_range n

theorem add_mod_ne {i k : Nat} (h0 : 0 < k) (hk : k < n) : (i + k) % n ≠ i % n := by
  intro h
  have hzero : k ≡ 0 [MOD n] := Nat.ModEq.add_left_cancel' i h
  exact absurd (Nat.le_of_dvd h0 ((Nat.modEq_zero_iff_dvd).1 hzero)) (by omega)

theorem FreeAt.advance {t : Table α} {i k : Nat} {s : Slot α} (hfree : FreeAt n t i (k + 1)) :
    FreeAt n (Function.update t (i % n) s) (i + 1) k := by
  refine ⟨by have := hfree.1; omega, ?_⟩
  rw [show i + 1 + k = i + (k + 1) by omega,
    Function.update_of_ne (add_mod_ne (Nat.succ_pos k) hfree.1)]
  exact hfree.2

theorem FreeAt.skip {t : Table α} {i k : Nat} (hfree : FreeAt n t i (k + 1)) :
    FreeAt n t (i + 1) k := by
  refine ⟨by have := hfree.1; omega, ?_⟩
  rw [show i + 1 + k = i + (k + 1) by omega]
  exact hfree.2

/-! ### Values by key -/

def Maps (key : α → κ) (values : Multiset α) (M : κ → Option α) : Prop :=
  ∀ k v, M k = some v ↔ v ∈ values ∧ key v = k

section

variable {key : α → κ} {values : Multiset α} {M : κ → Option α} {v : α}

theorem maps_zero (key : α → κ) : Maps key 0 fun _ => none := by
  intro k v
  simp

theorem Maps.eq_none (h : Maps key values M) (hnew : key v ∉ values.map key) :
    M (key v) = none := by
  refine Option.eq_none_iff_forall_ne_some.2 fun w hw => hnew ?_
  obtain ⟨hmem, hkey⟩ := (h _ _).1 hw
  exact hkey ▸ Multiset.mem_map_of_mem key hmem

variable [DecidableEq κ]

theorem Maps.insert (h : Maps key values M) (hnew : key v ∉ values.map key) :
    Maps key (v ::ₘ values) (Function.update M (key v) (some v)) := by
  intro k w
  by_cases hk : k = key v
  · subst hk
    rw [Function.update_self, Option.some.injEq, Multiset.mem_cons]
    constructor
    · rintro rfl
      exact ⟨.inl rfl, rfl⟩
    · rintro ⟨rfl | hmem, hkey⟩
      · rfl
      · exact absurd (hkey ▸ Multiset.mem_map_of_mem key hmem) hnew
  · rw [Function.update_of_ne hk, h, Multiset.mem_cons]
    constructor
    · rintro ⟨hmem, hkey⟩
      exact ⟨.inr hmem, hkey⟩
    · rintro ⟨rfl | hmem, hkey⟩
      · exact absurd hkey.symm hk
      · exact ⟨hmem, hkey⟩

theorem Maps.erase (h : Maps key (v ::ₘ values) M)
    (hnodup : ((v ::ₘ values).map key).Nodup) :
    M (key v) = some v ∧ Maps key values (Function.update M (key v) none) := by
  rw [Multiset.map_cons, Multiset.nodup_cons] at hnodup
  refine ⟨(h _ _).2 ⟨Multiset.mem_cons_self v _, rfl⟩, fun k w => ?_⟩
  by_cases hk : k = key v
  · subst hk
    rw [Function.update_self]
    constructor
    · intro hnone
      cases hnone
    · rintro ⟨hmem, hkey⟩
      exact absurd (hkey ▸ Multiset.mem_map_of_mem key hmem) hnodup.1
  · rw [Function.update_of_ne hk, h, Multiset.mem_cons]
    constructor
    · rintro ⟨rfl | hmem, hkey⟩
      · exact absurd hkey.symm hk
      · exact ⟨hmem, hkey⟩
    · rintro ⟨hmem, hkey⟩
      exact ⟨.inr hmem, hkey⟩

theorem Maps.replace {old : α} (h : Maps key (old ::ₘ values) M)
    (hnodup : ((old ::ₘ values).map key).Nodup) (hkey : key old = key v) :
    M (key v) = some old ∧ Maps key (v ::ₘ values) (Function.update M (key v) (some v)) := by
  obtain ⟨hold, herase⟩ := h.erase hnodup
  rw [Multiset.map_cons, Multiset.nodup_cons] at hnodup
  rw [hkey] at hold herase hnodup
  have hinsert := herase.insert hnodup.1
  rw [Function.update_idem] at hinsert
  exact ⟨hold, hinsert⟩

end

/-! ### Well-probed tables -/

structure Probed (n : Nat) (home : α → Nat) (t : Table α) : Prop where
  step (i : Nat) : (t ((i + 1) % n)).dib ≤ (t (i % n)).dib + 1
  homed (i : Nat) : (t (i % n)).dib ≠ 0 →
    home (t (i % n)).val + (t (i % n)).dib ≡ i + 1 [MOD n]

/-- The value of `e` may be put into slot `i`, as far as the slots before it go. -/
structure Fits (n : Nat) (home : α → Nat) (t : Table α) (i : Nat) (e : Slot α) : Prop where
  pos : 0 < e.dib
  homed : home e.val + e.dib ≡ i + 1 [MOD n]
  step (q : Nat) : q + 1 ≡ i [MOD n] → e.dib ≤ (t (q % n)).dib + 1

theorem probed_empty {t : Table α} (h : ∀ i, (t (i % n)).dib = 0) : Probed n home t where
  step i := by rw [h]; omega
  homed i hi := absurd (h i) hi

theorem fits_home {t : Table α} {i : Nat} {v : α} (h : home v ≡ i [MOD n]) :
    Fits n home t i ⟨1, v⟩ where
  pos := Nat.one_pos
  homed := h.add_right 1
  step _ _ := Nat.le_add_left 1 _

namespace Probed

variable {t : Table α}

private theorem climb (h : Probed n home t) (i k : Nat) :
    (t ((i + k) % n)).dib ≤ (t (i % n)).dib + k := by
  induction k with
  | zero => exact Nat.le_refl _
  | succ k ih =>
      have hstep := h.step (i + k)
      rw [show i + (k + 1) = i + k + 1 by omega]
      omega

theorem position (h : Probed n home t) {p : Nat} (hp : p < n) (hlive : (t p).dib ≠ 0) :
    (home (t p).val + ((t p).dib - 1)) % n = p := by
  have hhome := h.homed p
  rw [Nat.mod_eq_of_lt hp] at hhome
  have hmod : home (t p).val + ((t p).dib - 1) ≡ p [MOD n] := by
    refine Nat.ModEq.add_right_cancel' 1 ?_
    rw [show home (t p).val + ((t p).dib - 1) + 1 = home (t p).val + (t p).dib by omega]
    exact hhome hlive
  rw [hmod, Nat.mod_eq_of_lt hp]

private theorem passed (h : Probed n home t) {p : Nat} (hp : p < n) {j : Nat} (hj : j < (t p).dib) :
    j + 1 ≤ (t ((home (t p).val + j) % n)).dib := by
  have hclimb := h.climb (home (t p).val + j) ((t p).dib - 1 - j)
  rw [show home (t p).val + j + ((t p).dib - 1 - j) = home (t p).val + ((t p).dib - 1) by omega,
    h.position hp (by omega)] at hclimb
  omega

private theorem dib_le_of_freeAt (h : Probed n home t) {p k : Nat} (hp : p < n)
    (hfree : FreeAt n t (home (t p).val) k) : (t p).dib ≤ k := by
  by_contra hlt
  have hpassed := h.passed hp (Nat.lt_of_not_le hlt)
  rw [hfree.2] at hpassed
  omega

theorem dib_le_card (h : Probed n home t) (hroom : (items n t).card < n) {p : Nat} (hp : p < n) :
    (t p).dib ≤ (items n t).card := by
  obtain ⟨k, hfree⟩ := exists_freeAt hroom (home (t p).val)
  have hk := h.dib_le_of_freeAt hp hfree
  rw [card_items, ← Finset.card_range (t p).dib]
  refine Finset.card_le_card_of_injOn (fun j => (home (t p).val + j) % n) ?_ ?_
  · intro j hj
    have hpassed := h.passed hp (Finset.mem_range.1 hj)
    simp only [Finset.coe_filter, Finset.mem_range, Set.mem_ofPred_eq]
    exact ⟨Nat.mod_lt _ (by omega), by omega⟩
  · intro a ha b hb hab
    have ha' := Finset.mem_range.1 ha
    have hb' := Finset.mem_range.1 hb
    have hmod : a ≡ b [MOD n] := Nat.ModEq.add_left_cancel' _ hab
    have hlt := hfree.1
    exact Nat.ModEq.eq_of_lt_of_lt hmod (by omega) (by omega)

end Probed

namespace Fits

variable {t : Table α} {i : Nat} {e : Slot α}

theorem put (hfit : Fits n home t i e) (h : Probed n home t) (hle : (t (i % n)).dib ≤ e.dib) :
    Probed n home (Function.update t (i % n) e) where
  step q := by
    have hstep := h.step q
    by_cases hnext : (q + 1) % n = i % n
    · have hfits := hfit.step q hnext
      rw [hnext, Function.update_self]
      by_cases hq : q % n = i % n
      · rw [hq, Function.update_self]
        omega
      · rw [Function.update_of_ne hq]
        exact hfits
    · rw [Function.update_of_ne hnext]
      by_cases hq : q % n = i % n
      · rw [hq, Function.update_self]
        rw [hq] at hstep
        omega
      · rw [Function.update_of_ne hq]
        exact hstep
  homed q := by
    by_cases hq : q % n = i % n
    · rw [hq, Function.update_self]
      exact fun _ => hfit.homed.trans (Nat.ModEq.add_right 1 (Eq.symm hq))
    · rw [Function.update_of_ne hq]
      exact h.homed q

theorem next (hfit : Fits n home t i e) (hle : e.dib ≤ (t (i % n)).dib) :
    Fits n home t (i + 1) ⟨e.dib + 1, e.val⟩ where
  pos := Nat.succ_pos _
  homed := hfit.homed.add_right 1
  step q hq := by
    have hslot : q % n = i % n := Nat.ModEq.add_right_cancel' 1 hq
    rw [hslot]
    exact Nat.succ_le_succ hle

private theorem of_swap (h : Probed n home t) (hlive : (t (i % n)).dib ≠ 0)
    (hlt : (t (i % n)).dib < e.dib) :
    Fits n home (Function.update t (i % n) e) (i + 1)
      ⟨(t (i % n)).dib + 1, (t (i % n)).val⟩ where
  pos := Nat.succ_pos _
  homed := (h.homed i hlive).add_right 1
  step q hq := by
    have hslot : q % n = i % n := Nat.ModEq.add_right_cancel' 1 hq
    rw [hslot, Function.update_self]
    exact Nat.succ_le_succ hlt.le

theorem dib_le_card (hfit : Fits n home t i e) (h : Probed n home t)
    (hroom : (items n t).card < n) : e.dib ≤ (items n t).card + 1 := by
  have hn : 0 < n := by omega
  have hprev : i + (n - 1) + 1 ≡ i [MOD n] := by
    rw [show i + (n - 1) + 1 = i + n by omega]
    exact Nat.add_modEq_right
  have hstep := hfit.step (i + (n - 1)) hprev
  have hcard := h.dib_le_card hroom (Nat.mod_lt (i + (n - 1)) hn)
  omega

end Fits

/-! ### Insertion -/

/-- Carry `e` from slot `i` on until a slot is free or holds the same value,
changing places with the values that are closer to their homes. -/
def carry (n limit : Nat) (same : α → α → Bool) :
    Nat → Table α → Nat → Slot α → Option (Table α × Option α)
  | 0, _, _, _ => none
  | fuel + 1, t, i, e =>
      let b := t (i % n)
      if b.dib = 0 then some (Function.update t (i % n) e, none)
      else if same e.val b.val then
        some (Function.update t (i % n) ⟨b.dib, e.val⟩, some b.val)
      else if b.dib < e.dib then
        carry n limit same fuel (Function.update t (i % n) e) (i + 1)
          ⟨(b.dib + 1) % limit, b.val⟩
      else carry n limit same fuel t (i + 1) ⟨(e.dib + 1) % limit, e.val⟩

private theorem items_swap {t : Table α} {i : Nat} {e : Slot α} (hn : 0 < n) (he : 0 < e.dib)
    (hlive : (t (i % n)).dib ≠ 0) :
    (t (i % n)).val ::ₘ items n (Function.update t (i % n) e) = e.val ::ₘ items n t := by
  have hupdate := items_update t e (Nat.mod_lt i hn)
  rw [Slot.held_live hlive, Slot.held_live he.ne'] at hupdate
  rw [← Multiset.singleton_add, ← Multiset.singleton_add, add_comm, hupdate, add_comm]

private theorem card_items_swap {t : Table α} {i : Nat} {e : Slot α} (hn : 0 < n) (he : 0 < e.dib)
    (hlive : (t (i % n)).dib ≠ 0) :
    (items n (Function.update t (i % n) e)).card = (items n t).card := by
  have hswap := congrArg Multiset.card (items_swap hn he hlive)
  simpa using hswap

def Apart (same : α → α → Bool) (values : Multiset α) : Prop :=
  ∀ a b, a ::ₘ {b} ≤ values → same a b = false

theorem apart_of_nodup {same : α → α → Bool} (key : α → κ) {values : Multiset α}
    (hsame : ∀ a ∈ values, ∀ b ∈ values, same a b = true → key a = key b)
    (hnodup : (values.map key).Nodup) : Apart same values := by
  intro a b hle
  have ha : a ∈ values := Multiset.mem_of_le hle (Multiset.mem_cons_self a _)
  have hb : b ∈ values :=
    Multiset.mem_of_le hle (Multiset.mem_cons_of_mem (Multiset.mem_singleton_self b))
  cases hab : same a b with
  | false => rfl
  | true =>
      have hpair := Multiset.nodup_of_le (Multiset.map_le_map hle) hnodup
      simp [hsame a ha b hb hab] at hpair

variable {same : α → α → Bool} {t : Table α} {i : Nat} {e : Slot α}

private theorem Apart.same_eq_false (hn : 0 < n) (hapart : Apart same (e.val ::ₘ items n t))
    (hlive : (t (i % n)).dib ≠ 0) : same e.val (t (i % n)).val = false := by
  refine hapart _ _ (Multiset.cons_le_cons _ ?_)
  rw [Multiset.singleton_le]
  exact mem_items.2 ⟨i % n, Nat.mod_lt i hn, hlive, rfl⟩

theorem carry_new (limit : Nat) (same : α → α → Bool) {k : Nat} (fuel : Nat)
    (h : Probed n home t) (hfit : Fits n home t i e)
    (hapart : Apart same (e.val ::ₘ items n t)) (hfree : FreeAt n t i k) (hfuel : k < fuel)
    (hlimit : (items n t).card + 1 < limit) :
    ∃ t', carry n limit same fuel t i e = some (t', none) ∧ Probed n home t' ∧
      items n t' = e.val ::ₘ items n t := by
  -- the probe moves towards the free slot, which the swaps behind it never touch
  induction fuel generalizing t i k e with
  | zero => omega
  | succ fuel ih =>
      have hn : 0 < n := by have := hfree.1; omega
      simp only [carry]
      by_cases hempty : (t (i % n)).dib = 0
      · refine ⟨_, if_pos hempty, hfit.put h (by omega), ?_⟩
        have hupdate := items_update t e (Nat.mod_lt i hn)
        rw [Slot.held_empty hempty, Slot.held_live hfit.pos.ne', add_zero] at hupdate
        rw [hupdate, add_comm, Multiset.singleton_add]
      · rw [if_neg hempty, hapart.same_eq_false hn hempty, if_neg Bool.false_ne_true]
        cases k with
        | zero => exact absurd hfree.2 hempty
        | succ k =>
            have hslot := h.dib_le_card hfree.card_lt (Nat.mod_lt i hn)
            by_cases hlt : (t (i % n)).dib < e.dib
            · have hswap := items_swap hn hfit.pos hempty
              rw [if_pos hlt, Nat.mod_eq_of_lt (show (t (i % n)).dib + 1 < limit by omega)]
              obtain ⟨t', hcarry, hprobed, hitems⟩ := ih (hfit.put h hlt.le)
                (.of_swap h hempty hlt) (hswap ▸ hapart) hfree.advance (by omega)
                (by rwa [card_items_swap hn hfit.pos hempty])
              exact ⟨t', hcarry, hprobed, hitems.trans hswap⟩
            · rw [if_neg hlt, Nat.mod_eq_of_lt (show e.dib + 1 < limit by omega)]
              exact ih h (hfit.next (by omega)) hapart hfree.skip (by omega) hlimit

/-- A value that the table holds is reached before the carried one could take
any slot, and it is replaced where it stands. -/
theorem carry_present (limit : Nat) (same : α → α → Bool) {q : Nat} (fuel : Nat)
    (h : Probed n home t) (hq : q < n) (hpos : 0 < e.dib)
    (hle : e.dib ≤ (t q).dib) (hreach : (i + ((t q).dib - e.dib)) % n = q)
    (hsame : same e.val (t q).val = true)
    (hunique : ∀ p < n, (t p).dib ≠ 0 → same e.val (t p).val = true → p = q)
    (hfuel : (t q).dib - e.dib < fuel) (hlimit : (t q).dib < limit) :
    carry n limit same fuel t i e =
      some (Function.update t q ⟨(t q).dib, e.val⟩, some (t q).val) := by
  induction fuel generalizing i e with
  | zero => omega
  | succ fuel ih =>
      have hn : 0 < n := by omega
      have hclimb := h.climb i ((t q).dib - e.dib)
      rw [hreach] at hclimb
      simp only [carry]
      rw [if_neg (by omega)]
      by_cases hhere : same e.val (t (i % n)).val = true
      · have hslot : i % n = q := hunique _ (Nat.mod_lt i hn) (by omega) hhere
        rw [if_pos hhere, hslot]
      · have hlt : e.dib < (t q).dib := by
          refine Nat.lt_of_le_of_ne hle fun heq => hhere ?_
          rw [heq, Nat.sub_self, Nat.add_zero] at hreach
          rw [hreach]
          exact hsame
        rw [if_neg hhere, if_neg (by omega),
          Nat.mod_eq_of_lt (show e.dib + 1 < limit by omega)]
        refine ih (Nat.succ_pos _) hlt ?_ hsame hunique (by simp only; omega)
        rw [show i + 1 + ((t q).dib - (e.dib + 1)) = i + ((t q).dib - e.dib) by omega]
        exact hreach

theorem Probed.replace (h : Probed n home t) {q : Nat} {v : α}
    (hhome : home v ≡ home (t q).val [MOD n]) :
    Probed n home (Function.update t q ⟨(t q).dib, v⟩) where
  step p := by
    have hdib : ∀ p, (Function.update t q ⟨(t q).dib, v⟩ p).dib = (t p).dib := by
      intro p
      by_cases hp : p = q
      · rw [hp, Function.update_self]
      · rw [Function.update_of_ne hp]
    rw [hdib, hdib]
    exact h.step p
  homed p := by
    by_cases hp : p % n = q
    · rw [hp, Function.update_self]
      intro hlive
      have hold := h.homed p
      rw [hp] at hold
      exact (hhome.add_right _).trans (hold hlive)
    · rw [Function.update_of_ne hp]
      exact h.homed p

theorem items_replace {q : Nat} (hq : q < n) (hlive : (t q).dib ≠ 0) (v : α) :
    (t q).val ::ₘ items n (Function.update t q ⟨(t q).dib, v⟩) = v ::ₘ items n t := by
  have hupdate := items_update t ⟨(t q).dib, v⟩ hq
  rw [Slot.held_live hlive, Slot.held_live (s := ⟨(t q).dib, v⟩) hlive] at hupdate
  rw [← Multiset.singleton_add, ← Multiset.singleton_add, add_comm, hupdate, add_comm]

/-! ### Search -/

/-- The first slot from `i` on whose value meets `p`, as far as the slots are occupied. -/
def find (n : Nat) (p : α → Bool) : Nat → Table α → Nat → Option (Option Nat)
  | 0, _, _ => none
  | fuel + 1, t, i =>
      if (t (i % n)).dib = 0 then some none
      else if p (t (i % n)).val then some (some (i % n))
      else find n p fuel t (i + 1)

variable {p : α → Bool}

private theorem find_hit {d fuel : Nat} (hn : 0 < n) (hlive : ∀ j ≤ d, (t ((i + j) % n)).dib ≠ 0)
    (hp : p (t ((i + d) % n)).val = true) (hfuel : d < fuel) :
    ∃ q < n, find n p fuel t i = some (some q) ∧ (t q).dib ≠ 0 ∧ p (t q).val = true := by
  induction fuel generalizing i d with
  | zero => omega
  | succ fuel ih =>
      have hhead : (t (i % n)).dib ≠ 0 := hlive 0 (Nat.zero_le d)
      simp only [find]
      rw [if_neg hhead]
      by_cases hhere : p (t (i % n)).val = true
      · exact ⟨i % n, Nat.mod_lt i hn, if_pos hhere, hhead, hhere⟩
      · rw [if_neg hhere]
        cases d with
        | zero => exact absurd hp hhere
        | succ d =>
            refine ih (d := d) (fun j hj => ?_) ?_ (by omega)
            · rw [show i + 1 + j = i + (j + 1) by omega]
              exact hlive (j + 1) (by omega)
            · rwa [show i + 1 + d = i + (d + 1) by omega]

private theorem find_miss {k fuel : Nat} (hfree : FreeAt n t i k) (hfuel : k < fuel)
    (hp : ∀ v ∈ items n t, p v = false) : find n p fuel t i = some none := by
  induction fuel generalizing i k with
  | zero => omega
  | succ fuel ih =>
      have hn : 0 < n := by have := hfree.1; omega
      simp only [find]
      by_cases hempty : (t (i % n)).dib = 0
      · exact if_pos hempty
      · rw [if_neg hempty, hp _ (mem_items.2 ⟨i % n, Nat.mod_lt i hn, hempty, rfl⟩),
          if_neg Bool.false_ne_true]
        cases k with
        | zero => exact absurd hfree.2 hempty
        | succ k => exact ih hfree.skip (by omega)

private theorem Probed.live_from_home (h : Probed n home t) {q : Nat} (hq : q < n)
    (hhome : home (t q).val ≡ i [MOD n]) {j : Nat} (hj : j < (t q).dib) :
    (t ((i + j) % n)).dib ≠ 0 := by
  have hpassed := h.passed hq hj
  rw [hhome.add_right j] at hpassed
  omega

theorem Probed.position_from (h : Probed n home t) {q : Nat} (hq : q < n)
    (hlive : (t q).dib ≠ 0) (hhome : home (t q).val ≡ i [MOD n]) :
    (i + ((t q).dib - 1)) % n = q := by
  rw [← hhome.add_right ((t q).dib - 1)]
  exact h.position hq hlive

theorem find_spec {fuel : Nat} (h : Probed n home t) (hroom : (items n t).card < n)
    (hfuel : n ≤ fuel) (hp : ∀ v ∈ items n t, p v = true → home v ≡ i [MOD n]) :
    (∃ q < n, find n p fuel t i = some (some q) ∧ (t q).dib ≠ 0 ∧ p (t q).val = true) ∨
      (find n p fuel t i = some none ∧ ∀ v ∈ items n t, p v = false) := by
  by_cases hany : ∃ v ∈ items n t, p v = true
  · obtain ⟨v, hv, hpv⟩ := hany
    have hhome := hp v hv hpv
    obtain ⟨q, hq, hlive, rfl⟩ := mem_items.1 hv
    have hcard := h.dib_le_card hroom hq
    refine .inl (find_hit (d := (t q).dib - 1) (by omega) (fun j hj => ?_) ?_ (by omega))
    · exact h.live_from_home hq hhome (by omega)
    · rwa [h.position_from hq hlive hhome]
  · have hnone : ∀ v ∈ items n t, p v = false := fun v hv =>
      Bool.eq_false_iff.2 fun hpv => hany ⟨v, hv, hpv⟩
    obtain ⟨k, hfree⟩ := exists_freeAt hroom i
    exact .inr ⟨find_miss hfree (by have := hfree.1; omega) hnone, hnone⟩

/-! ### Deletion -/

/-- Move the values behind the hole `i` one slot back, up to one that is at home. -/
def shift (n : Nat) : Nat → Table α → Nat → Option (Table α)
  | 0, _, _ => none
  | fuel + 1, t, i =>
      let b := t ((i + 1) % n)
      if b.dib ≤ 1 then some (Function.update t (i % n) ⟨0, (t (i % n)).val⟩)
      else shift n fuel (Function.update t (i % n) ⟨b.dib - 1, b.val⟩) (i + 1)

/-- A table that is well probed once slot `i` has been emptied or refilled from behind. -/
structure Holed (n : Nat) (home : α → Nat) (t : Table α) (i : Nat) : Prop where
  step (q : Nat) : (q + 1) % n ≠ i % n → q % n ≠ i % n →
    (t ((q + 1) % n)).dib ≤ (t (q % n)).dib + 1
  bridge (q : Nat) : (q + 1) % n = i % n → (t ((i + 1) % n)).dib ≤ (t (q % n)).dib + 2
  homed (q : Nat) : q % n ≠ i % n → (t (q % n)).dib ≠ 0 →
    home (t (q % n)).val + (t (q % n)).dib ≡ q + 1 [MOD n]

namespace Holed

theorem of_probed (h : Probed n home t) (hn : 1 < n) (i : Nat) (s : Slot α) :
    Holed n home (Function.update t (i % n) s) i where
  step q hnext hq := by
    rw [Function.update_of_ne hnext, Function.update_of_ne hq]
    exact h.step q
  bridge q hq := by
    have hprev : q % n ≠ i % n := by
      rw [← hq]
      exact (add_mod_ne Nat.one_pos hn).symm
    have hstep := h.step q
    have hstep' := h.step i
    rw [hq] at hstep
    rw [Function.update_of_ne (add_mod_ne Nat.one_pos hn), Function.update_of_ne hprev]
    omega
  homed q hq := by
    rw [Function.update_of_ne hq]
    exact h.homed q

private theorem close (h : Holed n home t i) (hlast : (t ((i + 1) % n)).dib ≤ 1) (v : α) :
    Probed n home (Function.update t (i % n) ⟨0, v⟩) where
  step q := by
    by_cases hnext : (q + 1) % n = i % n
    · rw [hnext, Function.update_self]
      exact Nat.zero_le _
    · rw [Function.update_of_ne hnext]
      by_cases hq : q % n = i % n
      · have hsucc : (q + 1) % n = (i + 1) % n := Nat.ModEq.add_right 1 hq
        rw [hq, Function.update_self, hsucc]
        exact hlast
      · rw [Function.update_of_ne hq]
        exact h.step q hnext hq
  homed q := by
    by_cases hq : q % n = i % n
    · rw [hq, Function.update_self]
      exact fun hlive => absurd rfl hlive
    · rw [Function.update_of_ne hq]
      exact h.homed q hq

private theorem refill (h : Holed n home t i) (hmore : 1 < (t ((i + 1) % n)).dib) :
    Holed n home
      (Function.update t (i % n) ⟨(t ((i + 1) % n)).dib - 1, (t ((i + 1) % n)).val⟩)
      (i + 1) where
  step q hnext hq := by
    have hqi : q % n ≠ i % n := fun hq' => hnext (Nat.ModEq.add_right 1 hq')
    rw [Function.update_of_ne hqi]
    by_cases hprev : (q + 1) % n = i % n
    · have hbridge := h.bridge q hprev
      rw [hprev, Function.update_self]
      simp only
      omega
    · rw [Function.update_of_ne hprev]
      exact h.step q hprev hqi
  bridge q hq := by
    have hqi : q % n = i % n := Nat.ModEq.add_right_cancel' 1 hq
    rw [hqi, Function.update_self]
    by_cases hround : (i + 1 + 1) % n = i % n
    · rw [hround, Function.update_self]
      exact Nat.le_add_right _ 2
    · rw [Function.update_of_ne hround]
      by_cases hone : (i + 1) % n = i % n
      · exact absurd ((Nat.ModEq.add_right 1 hone).trans hone) hround
      · have hstep := h.step (i + 1) hround hone
        simp only
        omega
  homed q hq := by
    by_cases hqi : q % n = i % n
    · rw [hqi, Function.update_self]
      intro _
      have hone : (i + 1) % n ≠ i % n := fun hone => hq (hqi.trans hone.symm)
      have hhome := h.homed (i + 1) hone (by omega)
      refine Nat.ModEq.trans (Nat.ModEq.add_right_cancel' 1 ?_)
        (Nat.ModEq.add_right 1 (Eq.symm hqi))
      rw [show home (t ((i + 1) % n)).val + ((t ((i + 1) % n)).dib - 1) + 1 =
        home (t ((i + 1) % n)).val + (t ((i + 1) % n)).dib by omega]
      exact hhome
    · rw [Function.update_of_ne hqi]
      exact h.homed q hqi

end Holed

theorem shift_spec {k : Nat} (fuel : Nat) {rest : Multiset α} (h : Holed n home t i)
    (hitems : items n t = (t (i % n)).held + rest) (hfree : FreeAt n t i (k + 1))
    (hfuel : k < fuel) :
    ∃ t', shift n fuel t i = some t' ∧ Probed n home t' ∧ items n t' = rest := by
  induction fuel generalizing t i k with
  | zero => omega
  | succ fuel ih =>
      have hn : 0 < n := by have := hfree.1; omega
      have hupdate := fun s => items_update t s (Nat.mod_lt i hn)
      simp only [shift]
      by_cases hlast : (t ((i + 1) % n)).dib ≤ 1
      · refine ⟨_, if_pos hlast, h.close hlast _, ?_⟩
        have hclosed := hupdate ⟨0, (t (i % n)).val⟩
        rw [hitems, Slot.held_empty (s := ⟨0, (t (i % n)).val⟩) rfl, add_zero, add_comm]
          at hclosed
        exact add_left_cancel hclosed
      · rw [if_neg hlast]
        cases k with
        | zero =>
            have hzero : (t ((i + 1) % n)).dib = 0 := hfree.2
            omega
        | succ k =>
            have hne : (i + 1) % n ≠ i % n := add_mod_ne Nat.one_pos (by have := hfree.1; omega)
            refine ih (h.refill (by omega)) ?_ hfree.advance (by omega)
            have hfilled := hupdate ⟨(t ((i + 1) % n)).dib - 1, (t ((i + 1) % n)).val⟩
            rw [hitems, Slot.held_live (s := ⟨(t ((i + 1) % n)).dib - 1, _⟩)
              (by simp only; omega), add_comm, add_assoc] at hfilled
            rw [Function.update_of_ne hne, Slot.held_live (by omega), add_left_cancel hfilled,
              add_comm]

end UserPaging.Foundation.RobinHood
