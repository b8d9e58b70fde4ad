import UserPaging.Foundation.Memory

/-!
# Logs of stores

The stores that a piece of code makes through one pointer, at offsets from it.  A byte
that no store covers keeps its value; the value of a covered one does not depend on what
it held before.
-/

namespace UserPaging.Foundation

structure Store where
  offset : Nat
  bytes : Nat
  value : BitVec (8 * bytes)
  deriving DecidableEq

def Store.Within (low high : Nat) (store : Store) : Prop :=
  low ≤ store.offset ∧ store.offset + store.bytes ≤ high

instance (low high : Nat) : DecidablePred (Store.Within low high) := fun _ =>
  inferInstanceAs (Decidable (_ ∧ _))

namespace Memory

variable {base addr : BitVec 64} {mem mem' : Memory 64} {store : Store} {stores : List Store}

def apply (base : BitVec 64) (mem : Memory 64) (store : Store) : Memory 64 :=
  mem.store (base + BitVec.ofNat 64 store.offset) store.value

def applyAll (base : BitVec 64) (mem : Memory 64) (stores : List Store) : Memory 64 :=
  stores.foldl (apply base) mem

@[simp] theorem applyAll_nil : applyAll base mem [] = mem := rfl

@[simp] theorem applyAll_cons :
    applyAll base mem (store :: stores) = applyAll base (apply base mem store) stores := rfl

theorem applyAll_append (base : BitVec 64) (mem : Memory 64) (stores later : List Store) :
    applyAll base mem (stores ++ later) = applyAll base (applyAll base mem stores) later :=
  List.foldl_append

private theorem toNat_offset_sub_offset (base : BitVec 64) {i j : Nat} (hi : i < 2 ^ 64)
    (hj : j < 2 ^ 64) :
    (base + BitVec.ofNat 64 i - (base + BitVec.ofNat 64 j)).toNat = (2 ^ 64 - j + i) % 2 ^ 64 := by
  rw [add_sub_add_left_eq_sub, BitVec.toNat_sub, BitVec.toNat_ofNat, BitVec.toNat_ofNat,
    Nat.mod_eq_of_lt hi, Nat.mod_eq_of_lt hj]

/-! ## Bytes -/

private theorem apply_congr (hsame : mem addr = mem' addr) :
    apply base mem store addr = apply base mem' store addr := by
  unfold apply Memory.store
  split
  · rfl
  · exact hsame

private theorem applyAll_congr (stores : List Store) (hsame : mem addr = mem' addr) :
    applyAll base mem stores addr = applyAll base mem' stores addr := by
  induction stores generalizing mem mem' with
  | nil => exact hsame
  | cons store stores ih => exact ih (apply_congr hsame)

private theorem applyAll_eq_of_covered (hstore : store ∈ stores)
    (hcovered : (addr - (base + BitVec.ofNat 64 store.offset)).toNat < store.bytes)
    (mem mem' : Memory 64) :
    applyAll base mem stores addr = applyAll base mem' stores addr := by
  induction stores generalizing mem mem' with
  | nil => simp at hstore
  | cons first stores ih =>
      rcases List.mem_cons.1 hstore with rfl | hlater
      · rw [applyAll_cons, applyAll_cons]
        apply applyAll_congr
        unfold apply Memory.store
        rw [if_pos hcovered, if_pos hcovered]
      · exact ih hlater _ _

theorem exists_applyAll_ne (base addr : BitVec 64) (hstore : store ∈ stores)
    (hcovered : (addr - (base + BitVec.ofNat 64 store.offset)).toNat < store.bytes) :
    ∃ mem : Memory 64, applyAll base mem stores addr ≠ mem addr := by
  by_contra hkeeps
  push Not at hkeeps
  have hsame := applyAll_eq_of_covered hstore hcovered (fun _ => 0) (fun _ => 1)
  rw [hkeeps, hkeeps] at hsame
  exact absurd hsame (by decide)

theorem applyAll_of_within {low high i : Nat} (hstores : ∀ store ∈ stores, store.Within low high)
    (hhigh : high ≤ i) (hi : i < 2 ^ 64) (mem : Memory 64) :
    applyAll base mem stores (base + BitVec.ofNat 64 i) = mem (base + BitVec.ofNat 64 i) := by
  induction stores generalizing mem with
  | nil => rfl
  | cons store stores ih =>
      obtain ⟨hfirst, hrest⟩ := List.forall_mem_cons.1 hstores
      obtain ⟨-, hend⟩ := hfirst
      rw [applyAll_cons, ih hrest]
      apply store_of_le
      rw [toNat_offset_sub_offset base hi (by omega)]
      omega

/-! ## Words -/

variable {bytes i : Nat}

theorem load_apply_self (base : BitVec 64) (mem : Memory 64) (store : Store)
    (hbytes : store.bytes ≤ 2 ^ 64) :
    load store.bytes (apply base mem store) (base + BitVec.ofNat 64 store.offset) = store.value :=
  load_store_self hbytes _ _ _

theorem load_apply_of_disjoint (base : BitVec 64) (mem : Memory 64) (store : Store)
    (hbytes : 0 < bytes) (hwidth : 0 < store.bytes)
    (happart : i + bytes ≤ store.offset ∨ store.offset + store.bytes ≤ i)
    (hi : i + bytes ≤ 2 ^ 63) (hstore : store.offset + store.bytes ≤ 2 ^ 63) :
    load bytes (apply base mem store) (base + BitVec.ofNat 64 i) =
      load bytes mem (base + BitVec.ofNat 64 i) := by
  apply load_store_of_disjoint
  · rw [toNat_offset_sub_offset base (by omega) (by omega)]
    omega
  · rw [toNat_offset_sub_offset base (by omega) (by omega)]
    omega

end Memory

end UserPaging.Foundation
