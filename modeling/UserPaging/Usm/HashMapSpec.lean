import UserPaging.Usm.HashMap

/-!
# What the operations of the hash map do

A map is well formed when its buckets are well probed, its items have distinct
keys, it is never as full as its array, and no distance counter can overflow.
Every operation keeps this, whether or not its allocations succeed, and is
described by what it does to the contents of the map.
-/

namespace UserPaging.Usm.HashMap

open UserPaging.Foundation.RobinHood

variable {ι κ : Type}

/-! ### Well-formed maps -/

def stamp (cb : Callbacks ι) (item : ι) : Hashed ι := ⟨getHash cb item, item⟩

structure Keyed (cb : Callbacks ι) (key : ι → κ) : Prop where
  same_iff (a b : ι) : cb.same (stamp cb a) (stamp cb b) = true ↔ key a = key b

private theorem Keyed.hash_eq {cb : Callbacks ι} {key : ι → κ} (hk : Keyed cb key) {a b : ι}
    (hkey : key a = key b) : getHash cb a = getHash cb b := by
  have hsame := (hk.same_iff a b).2 hkey
  simp only [Callbacks.same, stamp, Bool.and_eq_true, beq_iff_eq] at hsame
  exact hsame.1

def Hashmap.contents (m : Hashmap ι) : Multiset ι :=
  (items m.nbuckets m.buckets).map Hashed.item

structure Hashmap.Wf (cb : Callbacks ι) (key : ι → κ) (m : Hashmap ι) : Prop where
  cap_pow : ∃ k, m.cap = 2 ^ k
  cap_min : 16 ≤ m.cap
  pow : ∃ k, m.nbuckets = 2 ^ k
  cap_le : m.cap ≤ m.nbuckets
  mask : m.mask = m.nbuckets - 1
  growpower : 1 ≤ m.growpower
  growat : 4 * m.growat ≤ 3 * m.nbuckets
  shrinkat : 10 * m.shrinkat ≤ m.nbuckets
  room : m.count ≤ m.growat
  probed : Probed m.nbuckets Hashed.hash m.buckets
  stamped : ∀ v ∈ items m.nbuckets m.buckets, v = stamp cb v.item
  nodup : (m.contents.map key).Nodup
  count : m.contents.card = m.count
  small : m.count < dibLimit

private theorem clipHash_getHash (cb : Callbacks ι) (key : ι) :
    clipHash (getHash cb key) = getHash cb key := by
  simp only [getHash, clipHash, Nat.and_assoc, Nat.and_self]

private theorem land_mask {n : Nat} (hn : ∃ k, n = 2 ^ k) (x : Nat) : x &&& (n - 1) = x % n := by
  obtain ⟨k, rfl⟩ := hn
  exact Nat.and_two_pow_sub_one_eq_mod x k

private theorem roundCap_pow {cap : Nat} (hcap : ∃ k, cap = 2 ^ k) (hmin : 16 ≤ cap) :
    roundCap cap cap 16 = cap := by
  obtain ⟨k, rfl⟩ := hcap
  have hloop : ∀ d fuel j, j + d = k → d ≤ fuel → roundCap (2 ^ k) fuel (2 ^ j) = 2 ^ k := by
    intro d
    induction d with
    | zero =>
        intro fuel j hj _
        obtain rfl : j = k := hj
        cases fuel with
        | zero => rfl
        | succ fuel => exact if_neg (Nat.lt_irrefl _)
    | succ d ih =>
        intro fuel j hj hfuel
        cases fuel with
        | zero => omega
        | succ fuel =>
            have hlt : 2 ^ j < 2 ^ k := Nat.pow_lt_pow_right (by omega) (by omega)
            simp only [roundCap]
            rw [if_pos hlt, ← Nat.pow_succ]
            exact ih fuel (j + 1) (by omega) (by omega)
  have hk : 4 ≤ k := by
    by_contra hlt
    have hle : 2 ^ k ≤ 2 ^ 3 := Nat.pow_le_pow_right (by omega) (by omega)
    omega
  have hfuel : k < 2 ^ k := Nat.lt_two_pow_self
  exact hloop (k - 4) (2 ^ k) 4 (by omega) (by omega)

theorem roundCap_spec (cap fuel : Nat) {ncap : Nat} (hpow : ∃ k, ncap = 2 ^ k)
    (hmin : 16 ≤ ncap) :
    (∃ k, roundCap cap fuel ncap = 2 ^ k) ∧ 16 ≤ roundCap cap fuel ncap := by
  induction fuel generalizing ncap with
  | zero => exact ⟨hpow, hmin⟩
  | succ fuel ih =>
      simp only [roundCap]
      split
      · obtain ⟨k, rfl⟩ := hpow
        exact ih ⟨k + 1, (Nat.pow_succ ..).symm⟩ (by omega)
      · exact ⟨hpow, hmin⟩

namespace Hashmap

variable {cb : Callbacks ι} {key : ι → κ} {m : Hashmap ι}

theorem wf_emptyMap [Inhabited ι] (cb : Callbacks ι) (key : ι → κ) {cap : Nat}
    (hpow : ∃ k, cap = 2 ^ k) (hmin : 16 ≤ cap) : (emptyMap ι cap).Wf cb key := by
  have hitems : items (emptyMap ι cap).nbuckets (emptyMap ι cap).buckets = 0 :=
    items_eq_zero fun _ _ => rfl
  have hcontents : (emptyMap ι cap).contents = 0 := by
    rw [contents, hitems, Multiset.map_zero]
  exact {
    cap_pow := hpow
    cap_min := hmin
    pow := hpow
    cap_le := Nat.le_refl _
    mask := rfl
    growpower := Nat.le_refl _
    growat := by simp only [emptyMap]; omega
    shrinkat := by simp only [emptyMap]; omega
    room := Nat.zero_le _
    probed := probed_empty fun _ => rfl
    stamped := by
      intro v hv
      rw [hitems] at hv
      exact absurd hv (Multiset.notMem_zero v)
    nodup := by rw [hcontents]; exact Multiset.nodup_zero
    count := by rw [hcontents]; rfl
    small := by simp [emptyMap, dibLimit] }

namespace Wf

private theorem land_mask (hwf : m.Wf cb key) (x : Nat) : x &&& m.mask = x % m.nbuckets := by
  rw [hwf.mask]
  exact HashMap.land_mask hwf.pow x

theorem card_items (hwf : m.Wf cb key) : (items m.nbuckets m.buckets).card = m.count := by
  rw [← hwf.count, contents, Multiset.card_map]

private theorem nbuckets_min (hwf : m.Wf cb key) : 16 ≤ m.nbuckets :=
  hwf.cap_min.trans hwf.cap_le

theorem count_lt (hwf : m.Wf cb key) : m.count < m.nbuckets := by
  have hroom := hwf.room
  have hgrow := hwf.growat
  have hmin := hwf.nbuckets_min
  omega

private theorem items_eq (hwf : m.Wf cb key) :
    items m.nbuckets m.buckets = m.contents.map (stamp cb) := by
  rw [contents, Multiset.map_map]
  exact (Multiset.map_id' _).symm.trans (Multiset.map_congr rfl hwf.stamped)

end Wf

private theorem mem_contents {i : Nat} (hi : i < m.nbuckets) (hlive : (m.buckets i).dib ≠ 0) :
    (m.buckets i).val.item ∈ m.contents :=
  Multiset.mem_map_of_mem Hashed.item (mem_items.2 ⟨i, hi, hlive, rfl⟩)

structure SameArray (m m' : Hashmap ι) : Prop where
  nbuckets : m'.nbuckets = m.nbuckets
  growat : m'.growat = m.growat
  growpower : m'.growpower = m.growpower

theorem SameArray.trans {m₁ m₂ m₃ : Hashmap ι} (h₁ : SameArray m₁ m₂) (h₂ : SameArray m₂ m₃) :
    SameArray m₁ m₃ :=
  ⟨h₂.nbuckets.trans h₁.nbuckets, h₂.growat.trans h₁.growat, h₂.growpower.trans h₁.growpower⟩

def withSize (m : Hashmap ι) (nbuckets : Nat) : Hashmap ι :=
  { m with nbuckets := nbuckets, growat := nbuckets * 60 / 100 }

def grown (m : Hashmap ι) : Hashmap ι :=
  if m.count = m.growat then m.withSize (m.nbuckets * 2 ^ m.growpower) else m

/-! ### Rehashing -/

private theorem rehashBucket_empty {mask fuel : Nat} (m : Hashmap ι) (buckets : Nat → Bucket ι)
    {i : Nat}
    (hempty : (m.buckets i).dib = 0) : m.rehashBucket mask fuel buckets i = some buckets :=
  if_pos hempty

private theorem rehashBucket_live {mask n fuel : Nat} (hmask : ∀ x, x &&& mask = x % n)
    (hfuel : n ≤ fuel) (m : Hashmap ι) {buckets : Nat → Bucket ι} {i : Nat}
    (hlive : (m.buckets i).dib ≠ 0) (h : Probed n Hashed.hash buckets)
    (hroom : (items n buckets).card < n) (hlimit : (items n buckets).card + 1 < dibLimit) :
    ∃ placed, m.rehashBucket mask fuel buckets i = some placed ∧
      Probed n Hashed.hash placed ∧
      items n placed = (m.buckets i).val ::ₘ items n buckets := by
  obtain ⟨k, hfree⟩ := exists_freeAt hroom (m.buckets i).val.hash
  obtain ⟨placed, hcarry, hspec⟩ := carry_new dibLimit (fun _ _ => false) fuel h
    (fits_home (v := (m.buckets i).val) rfl) (fun _ _ _ => rfl) hfree
    (Nat.lt_of_lt_of_le hfree.1 hfuel) hlimit
  refine ⟨placed, ?_, hspec⟩
  rw [rehashBucket, if_neg hlive, hmask, placeLoop_eq hmask, hcarry]
  rfl

private theorem rehash_fold {mask n fuel : Nat} (hmask : ∀ x, x &&& mask = x % n) (hfuel : n ≤ fuel)
    (m : Hashmap ι) (indices : List Nat) {buckets : Nat → Bucket ι}
    (h : Probed n Hashed.hash buckets)
    (hroom : (items n buckets).card +
      (indices.map fun i => (m.buckets i).held).sum.card < n)
    (hlimit : (items n buckets).card +
      (indices.map fun i => (m.buckets i).held).sum.card < dibLimit) :
    ∃ buckets', indices.foldlM (m.rehashBucket mask fuel) buckets = some buckets' ∧
      Probed n Hashed.hash buckets' ∧
      items n buckets' = items n buckets + (indices.map fun i => (m.buckets i).held).sum := by
  induction indices generalizing buckets with
  | nil => exact ⟨buckets, rfl, h, (add_zero _).symm⟩
  | cons i indices ih =>
      rw [List.map_cons, List.sum_cons] at hroom hlimit ⊢
      by_cases hempty : (m.buckets i).dib = 0
      · rw [Slot.held_empty hempty, zero_add] at hroom hlimit ⊢
        obtain ⟨buckets', hfold, hspec⟩ := ih h hroom hlimit
        refine ⟨buckets', ?_, hspec⟩
        rw [List.foldlM_cons, rehashBucket_empty m buckets hempty]
        exact hfold
      · rw [Slot.held_live hempty, Multiset.card_add, Multiset.card_singleton] at hroom hlimit
        obtain ⟨placed, hplace, hprobed, hitems⟩ :=
          rehashBucket_live hmask hfuel m hempty h (by omega) (by omega)
        have hcard : (items n placed).card = (items n buckets).card + 1 := by
          rw [hitems, Multiset.card_cons]
        obtain ⟨buckets', hfold, hprobed', hitems'⟩ := ih hprobed (by omega) (by omega)
        refine ⟨buckets', ?_, hprobed', ?_⟩
        · rw [List.foldlM_cons, hplace]
          exact hfold
        · rw [hitems', hitems, Slot.held_live hempty, ← Multiset.singleton_add, add_assoc,
            add_left_comm]

private theorem Wf.rehash_spec (hwf : m.Wf cb key) (mask : Nat) (buckets : Nat → Bucket ι) {n : Nat}
    (hmask : ∀ x, x &&& mask = x % n) (hroom : m.count < n)
    (hempty : ∀ i, (buckets i).dib = 0) :
    ∃ buckets', m.rehash mask n buckets = some buckets' ∧ Probed n Hashed.hash buckets' ∧
      items n buckets' = items m.nbuckets m.buckets := by
  have hzero : items n buckets = 0 := items_eq_zero fun i _ => hempty i
  have hsum : ((List.range m.nbuckets).map fun i => (m.buckets i).held).sum =
      items m.nbuckets m.buckets := rfl
  have hcard := hwf.card_items
  have hsmall := hwf.small
  obtain ⟨buckets', hfold, hprobed, hitems⟩ := rehash_fold hmask (Nat.le_refl n) m
    (List.range m.nbuckets) (probed_empty fun i => hempty (i % n))
    (by rw [hzero, hsum, hcard, Multiset.card_zero]; omega)
    (by rw [hzero, hsum, hcard, Multiset.card_zero]; omega)
  rw [hzero, zero_add, hsum] at hitems
  exact ⟨buckets', hfold, hprobed, hitems⟩

private theorem resize0_fails [Inhabited ι] (m : Hashmap ι) {malloc : Malloc}
    (hfail : malloc.succeeds = false) (newCap : Nat) :
    m.resize0 malloc newCap = .ok none := by
  simp [resize0, hashmapNewWithAllocator, hfail]

private theorem resize0_spec [Inhabited ι] (hwf : m.Wf cb key) {malloc : Malloc}
    (hmalloc : malloc.succeeds = true) {newCap : Nat} (hpow : ∃ k, newCap = 2 ^ k)
    (hcap : m.cap ≤ newCap) (hroom : m.count < newCap * 60 / 100) :
    ∃ m', m.resize0 malloc newCap = .ok (some m') ∧ m'.Wf cb key ∧
      m'.contents = m.contents ∧ m'.count < m'.growat ∧ SameArray (m.withSize newCap) m' ∧
      m'.oom = m.oom := by
  have hmin : 16 ≤ newCap := hwf.cap_min.trans hcap
  obtain ⟨buckets, hrehash, hprobed, hitems⟩ := hwf.rehash_spec (newCap - 1)
    (emptyMap ι newCap).buckets (HashMap.land_mask hpow) (by omega) (fun _ => rfl)
  have hnew : hashmapNewWithAllocator (ι := ι) malloc newCap = some (emptyMap ι newCap) := by
    rw [hashmapNewWithAllocator, if_pos hmalloc, roundCap_pow hpow hmin]
  refine ⟨{ m with
    buckets := buckets
    nbuckets := newCap
    mask := newCap - 1
    growat := newCap * 60 / 100
    shrinkat := newCap * 10 / 100 }, ?_, ?_, ?_, hroom, ⟨rfl, rfl, rfl⟩, rfl⟩
  · rw [resize0, hnew]
    simp only [emptyMap] at hrehash ⊢
    rw [hrehash]
  · have hcontents : contents { m with
        buckets := buckets
        nbuckets := newCap
        mask := newCap - 1
        growat := newCap * 60 / 100
        shrinkat := newCap * 10 / 100 } = m.contents := by
      simp only [contents, hitems]
    exact {
      cap_pow := hwf.cap_pow
      cap_min := hwf.cap_min
      pow := hpow
      cap_le := hcap
      mask := rfl
      growpower := hwf.growpower
      growat := by simp only; omega
      shrinkat := by simp only; omega
      room := hroom.le
      probed := hprobed
      stamped := by
        simp only [hitems]
        exact hwf.stamped
      nodup := by
        rw [hcontents]
        exact hwf.nodup
      count := by
        rw [hcontents]
        exact hwf.count
      small := hwf.small }
  · simp only [contents, hitems]

/-! ### Setting -/

/-- The buckets of a well-formed map may be exchanged for others that hold items of the
same callbacks under distinct keys. -/
private theorem Wf.with_buckets (hwf : m.Wf cb key) {buckets : Nat → Bucket ι} {values : Multiset ι}
    (hprobed : Probed m.nbuckets Hashed.hash buckets)
    (hitems : items m.nbuckets buckets = values.map (stamp cb))
    (hnodup : (values.map key).Nodup) (hroom : values.card ≤ m.growat)
    (hsmall : values.card < dibLimit) :
    Wf cb key { m with buckets := buckets, count := values.card } ∧
      contents { m with buckets := buckets, count := values.card } = values := by
  have hcontents : contents { m with buckets := buckets, count := values.card } = values := by
    simp only [contents, hitems, Multiset.map_map]
    exact Multiset.map_id' values
  refine ⟨{ hwf with
    room := hroom
    probed := hprobed
    stamped := ?_
    nodup := by rwa [hcontents]
    count := by rw [hcontents]
    small := hsmall }, hcontents⟩
  intro v hv
  simp only [hitems] at hv
  obtain ⟨item, -, rfl⟩ := Multiset.mem_map.1 hv
  rfl

/-- What a successful `hashmap_set` does to the contents. -/
inductive Stores (key : ι → κ) (item : ι) : Option ι → Multiset ι → Multiset ι → Prop
  | new {values : Multiset ι} (hnew : key item ∉ values.map key) :
      Stores key item none values (item ::ₘ values)
  | replaced {rest : Multiset ι} {old : ι} (hkey : key old = key item) :
      Stores key item (some old) (old ::ₘ rest) (item ::ₘ rest)

variable {item : ι}

private theorem Wf.bucket_of_mem (hwf : m.Wf cb key) (hmem : item ∈ m.contents) :
    ∃ q < m.nbuckets, (m.buckets q).dib ≠ 0 ∧ (m.buckets q).val = stamp cb item := by
  have hstamp : stamp cb item ∈ items m.nbuckets m.buckets := by
    rw [hwf.items_eq]
    exact Multiset.mem_map_of_mem _ hmem
  exact mem_items.1 hstamp

private theorem insert_new (hk : Keyed cb key) (hwf : m.Wf cb key) (hroom : m.count < m.growat)
    (hsmall : m.count + 1 < dibLimit) (hnew : key item ∉ m.contents.map key) :
    ∃ m', hashmapSetWithHash.insert cb m item (getHash cb item) = .ok (none, m') ∧
      m'.Wf cb key ∧ m'.contents = item ::ₘ m.contents ∧ SameArray m m' ∧ m'.oom = m.oom := by
  have hcard := hwf.card_items
  have hnodup : ((item ::ₘ m.contents).map key).Nodup := by
    rw [Multiset.map_cons, Multiset.nodup_cons]
    exact ⟨hnew, hwf.nodup⟩
  have hapart : Apart cb.same (stamp cb item ::ₘ items m.nbuckets m.buckets) := by
    rw [hwf.items_eq, ← Multiset.map_cons]
    refine apart_of_nodup (fun v => key v.item) ?_ ?_
    · intro a ha b hb hsame
      obtain ⟨a, -, rfl⟩ := Multiset.mem_map.1 ha
      obtain ⟨b, -, rfl⟩ := Multiset.mem_map.1 hb
      exact (hk.same_iff a b).1 hsame
    · rw [Multiset.map_map]
      exact hnodup
  obtain ⟨k, hfree⟩ := exists_freeAt (hcard ▸ hwf.count_lt) (getHash cb item)
  obtain ⟨buckets, hcarry, hprobed, hitems⟩ := carry_new dibLimit cb.same m.nbuckets
    hwf.probed (fits_home (v := stamp cb item) rfl) hapart hfree hfree.1 (by omega)
  simp only [hwf.items_eq, ← Multiset.map_cons] at hitems
  have hvalues : (item ::ₘ m.contents).card = m.count + 1 := by
    rw [Multiset.card_cons, hwf.count]
  obtain ⟨hwf', hcontents⟩ := hwf.with_buckets hprobed hitems hnodup (by omega) (by omega)
  rw [hvalues] at hwf' hcontents
  refine ⟨_, ?_, hwf', hcontents, ⟨rfl, rfl, rfl⟩, rfl⟩
  rw [hashmapSetWithHash.insert, hwf.land_mask, setLoop_eq hwf.land_mask]
  simp only [stamp] at hcarry
  rw [hcarry]
  rfl

private theorem Wf.nodup_items (hwf : m.Wf cb key) :
    ((items m.nbuckets m.buckets).map fun v => key v.item).Nodup := by
  have hnodup := hwf.nodup
  rwa [contents, Multiset.map_map] at hnodup

theorem Wf.same_iff (hk : Keyed cb key) (hwf : m.Wf cb key) {p : Nat} (hp : p < m.nbuckets)
    (hlive : (m.buckets p).dib ≠ 0) :
    cb.same (stamp cb item) (m.buckets p).val = true ↔
      key item = key (m.buckets p).val.item := by
  rw [hwf.stamped _ (mem_items.2 ⟨p, hp, hlive, rfl⟩)]
  exact hk.same_iff item _

variable {q : Nat}

theorem write_spec (hk : Keyed cb key) (hwf : m.Wf cb key) (hq : q < m.nbuckets)
    (hlive : (m.buckets q).dib ≠ 0) (hkey : key (m.buckets q).val.item = key item) :
    (m.write q item).Wf cb key ∧ ∃ rest, m.contents = (m.buckets q).val.item ::ₘ rest ∧
      (m.write q item).contents = item ::ₘ rest := by
  obtain ⟨rest, hrest⟩ := Multiset.exists_cons_of_mem (mem_contents hq hlive)
  have hval := hwf.stamped _ (mem_items.2 ⟨q, hq, hlive, rfl⟩)
  have hstamp : (⟨(m.buckets q).val.hash, item⟩ : Hashed ι) = stamp cb item := by
    rw [hval, stamp, hk.hash_eq hkey]
    rfl
  have hitems := items_replace hq hlive (stamp cb item)
  rw [hwf.items_eq, hrest, Multiset.map_cons, Multiset.cons_swap, ← hval,
    Multiset.cons_inj_right, ← Multiset.map_cons] at hitems
  have hnodup := hwf.nodup
  rw [hrest, Multiset.map_cons, hkey, ← Multiset.map_cons] at hnodup
  have hcount : (item ::ₘ rest).card = m.count := by
    rw [← hwf.count, hrest, Multiset.card_cons, Multiset.card_cons]
  have hhash : (stamp cb item).hash ≡ (m.buckets q).val.hash [MOD m.nbuckets] := by
    rw [← hstamp]
  obtain ⟨hwf', hcontents⟩ := hwf.with_buckets (hwf.probed.replace hhash) hitems hnodup
    (hcount ▸ hwf.room) (hcount ▸ hwf.small)
  rw [hcount, ← hstamp] at hwf' hcontents
  exact ⟨hwf', rest, hrest, hcontents⟩

private theorem write_self (m : Hashmap ι) (q : Nat) : m.write q (m.buckets q).val.item = m := by
  have hself : Function.update m.buckets q (m.buckets q) = m.buckets :=
    Function.update_eq_self q m.buckets
  exact congrArg (fun buckets => { m with buckets := buckets }) hself

private theorem insert_present (hk : Keyed cb key) (hwf : m.Wf cb key) (hq : q < m.nbuckets)
    (hlive : (m.buckets q).dib ≠ 0) (hkey : key (m.buckets q).val.item = key item) :
    hashmapSetWithHash.insert cb m item (getHash cb item) =
      .ok (some (m.buckets q).val.item, m.write q item) := by
  have hval := hwf.stamped _ (mem_items.2 ⟨q, hq, hlive, rfl⟩)
  have hhash : (m.buckets q).val.hash = getHash cb item := by
    rw [hval]
    exact hk.hash_eq hkey
  have hdib := hwf.probed.dib_le_card (hwf.card_items ▸ hwf.count_lt) hq
  rw [hwf.card_items] at hdib
  have hsmall := hwf.small
  have hlt := hwf.count_lt
  have hcarry := carry_present dibLimit cb.same m.nbuckets (e := ⟨1, stamp cb item⟩)
    (i := getHash cb item) hwf.probed hq Nat.one_pos
    (Nat.one_le_iff_ne_zero.2 hlive) (hwf.probed.position_from hq hlive (by rw [hhash]))
    ((hwf.same_iff hk hq hlive).2 hkey.symm)
    (fun p hp hplive hsame => slot_eq_of_key_eq hwf.nodup_items hp hq hplive hlive
      (by rw [← (hwf.same_iff hk hp hplive).1 hsame, hkey]))
    (by simp only; omega) (by omega)
  rw [hashmapSetWithHash.insert, hwf.land_mask, setLoop_eq hwf.land_mask]
  simp only [stamp] at hcarry
  rw [hcarry, write, hhash]
  rfl

private theorem insert_spec (hk : Keyed cb key) (hwf : m.Wf cb key) (item : ι)
    (hroom : m.count < m.growat)
    (hsmall : key item ∉ m.contents.map key → m.count + 1 < dibLimit) :
    ∃ old m', hashmapSetWithHash.insert cb m item (getHash cb item) = .ok (old, m') ∧
      m'.Wf cb key ∧ Stores key item old m.contents m'.contents ∧ SameArray m m' ∧
      m'.oom = m.oom := by
  by_cases hnew : key item ∉ m.contents.map key
  · obtain ⟨m', hinsert, hwf', hcontents, harray⟩ := insert_new hk hwf hroom (hsmall hnew) hnew
    exact ⟨none, m', hinsert, hwf', hcontents ▸ .new hnew, harray⟩
  · obtain ⟨old, hold, hkey⟩ := Multiset.mem_map.1 (not_not.1 hnew)
    obtain ⟨q, hq, hlive, hval⟩ := hwf.bucket_of_mem hold
    obtain rfl : (m.buckets q).val.item = old := congrArg Hashed.item hval
    obtain ⟨hwf', rest, hrest, hcontents⟩ := write_spec hk hwf hq hlive hkey
    exact ⟨_, _, insert_present hk hwf hq hlive hkey, hwf',
      hrest ▸ hcontents ▸ .replaced hkey, ⟨rfl, rfl, rfl⟩, rfl⟩

theorem Wf.of_oom (hwf : m.Wf cb key) (oom : Bool) : Wf cb key { m with oom := oom } :=
  { hwf with }

private theorem Wf.grow_room (hwf : m.Wf cb key) :
    (∃ k, m.nbuckets * 2 ^ m.growpower = 2 ^ k) ∧ m.cap ≤ m.nbuckets * 2 ^ m.growpower ∧
      m.count < m.nbuckets * 2 ^ m.growpower * 60 / 100 := by
  obtain ⟨k, hk⟩ := hwf.pow
  have htwo : 2 ≤ 2 ^ m.growpower :=
    calc 2 = 2 ^ 1 := rfl
      _ ≤ 2 ^ m.growpower := Nat.pow_le_pow_right (by omega) hwf.growpower
  have hdouble : m.nbuckets * 2 ≤ m.nbuckets * 2 ^ m.growpower := Nat.mul_le_mul_left _ htwo
  have hcap := hwf.cap_le
  have hmin := hwf.nbuckets_min
  have hroom := hwf.room
  have hgrow := hwf.growat
  refine ⟨⟨k + m.growpower, ?_⟩, by omega, by omega⟩
  rw [hk, Nat.pow_add]

/-- Setting an item that lies outside the map stores it, unless the map has to grow and
an allocation fails; then nothing but the flag changes. -/
theorem hashmapSet_spec [Inhabited ι] (hk : Keyed cb key) (hwf : m.Wf cb key) (malloc : Malloc)
    (item : ι) (hsmall : key item ∉ m.contents.map key → m.count + 1 < dibLimit) :
    (m.count = m.growat ∧ malloc.succeeds = false ∧
      m.hashmapSet cb malloc (.value item) = .ok (none, { m with oom := true })) ∨
    ∃ old m', m.hashmapSet cb malloc (.value item) = .ok (old, m') ∧ m'.Wf cb key ∧
      Stores key item old m.contents m'.contents ∧ SameArray m.grown m' ∧ m'.oom = false := by
  simp only [hashmapSet, hashmapSetWithHash, read, clipHash_getHash]
  by_cases hfull : m.count = m.growat
  · rw [if_pos hfull]
    cases hmalloc : malloc.succeeds with
    | false =>
        rw [resize0_fails _ hmalloc]
        exact .inl ⟨hfull, rfl, rfl⟩
    | true =>
        obtain ⟨hpow, hcap, hroom⟩ := hwf.grow_room
        obtain ⟨m', hresize, hwf', hcontents, hroom', harray, hoom⟩ :=
          resize0_spec (hwf.of_oom false) hmalloc hpow hcap hroom
        rw [hresize]
        have hcount : m'.count = m.count := by
          rw [← hwf'.count, hcontents, ← hwf.count]
          rfl
        obtain ⟨old, m'', hinsert, hwf'', hstores, harray', hoom'⟩ :=
          insert_spec hk hwf' item hroom' (by rw [hcontents, hcount]; exact hsmall)
        rw [hcontents] at hstores
        refine .inr ⟨old, m'', hinsert, hwf'', hstores, ?_, hoom'.trans hoom⟩
        rw [grown, if_pos hfull]
        have hsame := harray.trans harray'
        exact ⟨hsame.nbuckets, hsame.growat, hsame.growpower⟩
  · rw [if_neg hfull]
    have hroom := hwf.room
    obtain ⟨old, m', hinsert, hwf', hstores, harray, hoom⟩ :=
      insert_spec hk (hwf.of_oom false) item (by simp only; omega) hsmall
    refine .inr ⟨old, m', hinsert, hwf', hstores, ?_, hoom⟩
    rw [grown, if_neg hfull]
    exact ⟨harray.nbuckets, harray.growat, harray.growpower⟩

/-- Setting an item that lies in a bucket of the map itself changes nothing as long as the
map need not grow. -/
theorem hashmapSet_bucket [Inhabited ι] (hk : Keyed cb key) (hwf : m.Wf cb key)
    (malloc : Malloc) (hq : q < m.nbuckets) (hlive : (m.buckets q).dib ≠ 0)
    (hroom : m.count ≠ m.growat) :
    m.hashmapSet cb malloc (.bucket q) =
      .ok (some (m.buckets q).val.item, { m with oom := false }) := by
  simp only [hashmapSet, hashmapSetWithHash, read, clipHash_getHash]
  rw [if_neg hroom, insert_present hk (hwf.of_oom false) hq hlive rfl, write_self]

theorem hashmapSet_bucket_freed [Inhabited ι] (hwf : m.Wf cb key) {malloc : Malloc}
    (hmalloc : malloc.succeeds = true) (q : Nat) (hfull : m.count = m.growat) :
    m.hashmapSet cb malloc (.bucket q) = .error .freed := by
  obtain ⟨hpow, hcap, hroom⟩ := hwf.grow_room
  obtain ⟨m', hresize, -⟩ := resize0_spec (hwf.of_oom false) hmalloc hpow hcap hroom
  simp only [hashmapSet, hashmapSetWithHash]
  rw [if_pos hfull, hresize]

/-! ### Getting and deleting -/

private theorem findLoop_spec (hk : Keyed cb key) (hwf : m.Wf cb key) (item : ι) :
    (∃ q < m.nbuckets,
      findLoop cb m.mask (stamp cb item) m.nbuckets m.buckets (getHash cb item &&& m.mask) =
        some (some q) ∧
      (m.buckets q).dib ≠ 0 ∧ key (m.buckets q).val.item = key item) ∨
    (findLoop cb m.mask (stamp cb item) m.nbuckets m.buckets (getHash cb item &&& m.mask) =
        some none ∧ key item ∉ m.contents.map key) := by
  rw [hwf.land_mask, findLoop_eq hwf.land_mask]
  have hhome : ∀ v ∈ items m.nbuckets m.buckets, cb.same (stamp cb item) v = true →
      v.hash ≡ getHash cb item [MOD m.nbuckets] := by
    intro v _ hsame
    simp only [Callbacks.same, stamp, Bool.and_eq_true, beq_iff_eq] at hsame
    rw [hsame.1]
  obtain ⟨q, hq, hfind, hlive, hsame⟩ | ⟨hfind, hnone⟩ :=
    find_spec hwf.probed (hwf.card_items ▸ hwf.count_lt) (Nat.le_refl _) hhome
  · exact .inl ⟨q, hq, hfind, hlive, ((hwf.same_iff hk hq hlive).1 hsame).symm⟩
  · refine .inr ⟨hfind, fun hmem => ?_⟩
    obtain ⟨other, hother, hkey⟩ := Multiset.mem_map.1 hmem
    have hsame := hnone (stamp cb other) (hwf.items_eq ▸ Multiset.mem_map_of_mem _ hother)
    rw [(hk.same_iff item other).2 hkey.symm] at hsame
    cases hsame

theorem hashmapGet_spec (hk : Keyed cb key) (hwf : m.Wf cb key) (item : ι) :
    (∃ q < m.nbuckets, m.hashmapGet cb item = .ok (some q) ∧ (m.buckets q).dib ≠ 0 ∧
      (m.buckets q).val.item ∈ m.contents ∧ key (m.buckets q).val.item = key item) ∨
    (m.hashmapGet cb item = .ok none ∧ key item ∉ m.contents.map key) := by
  simp only [hashmapGet, hashmapGetWithHash, clipHash_getHash]
  obtain ⟨q, hq, hfind, hlive, hkey⟩ | ⟨hfind, hnone⟩ := findLoop_spec hk hwf item
  · simp only [stamp] at hfind
    exact .inl ⟨q, hq, by rw [hfind], hlive, mem_contents hq hlive, hkey⟩
  · simp only [stamp] at hfind
    exact .inr ⟨by rw [hfind], hnone⟩

private theorem shiftLoop_spec (hwf : m.Wf cb key) {q : Nat} (hq : q < m.nbuckets)
    (hlive : (m.buckets q).dib ≠ 0) :
    ∃ buckets, shiftLoop m.mask m.nbuckets
        (Function.update m.buckets q ⟨0, (m.buckets q).val⟩) q = some buckets ∧
      Probed m.nbuckets Hashed.hash buckets ∧
      items m.nbuckets m.buckets = (m.buckets q).val ::ₘ items m.nbuckets buckets := by
  have hmod : q % m.nbuckets = q := Nat.mod_eq_of_lt hq
  have hmin := hwf.nbuckets_min
  obtain ⟨k, hfree⟩ := exists_freeAt (hwf.card_items ▸ hwf.count_lt) q
  cases k with
  | zero =>
      have hempty := hfree.2
      rw [Nat.add_zero, hmod] at hempty
      exact absurd hempty hlive
  | succ k =>
      have hholed := Holed.of_probed hwf.probed (by omega) q ⟨0, (m.buckets q).val⟩
      have hfree' : FreeAt m.nbuckets
          (Function.update m.buckets (q % m.nbuckets) ⟨0, (m.buckets q).val⟩) q (k + 1) := by
        refine ⟨hfree.1, ?_⟩
        rw [Function.update_of_ne (add_mod_ne (Nat.succ_pos k) hfree.1)]
        exact hfree.2
      obtain ⟨buckets, hshift, hprobed, hitems⟩ := shift_spec m.nbuckets hholed
        (by rw [Function.update_self, Slot.held_empty rfl, zero_add]) hfree'
        (by have := hfree.1; omega)
      rw [← shiftLoop_eq hwf.land_mask, hmod] at hshift
      refine ⟨buckets, hshift, hprobed, ?_⟩
      have hupdate := items_update m.buckets ⟨0, (m.buckets q).val⟩ hq
      rw [Slot.held_live hlive, Slot.held_empty (s := ⟨0, (m.buckets q).val⟩) rfl, add_zero,
        add_comm, Multiset.singleton_add] at hupdate
      rw [hitems, hmod, hupdate]

private theorem Wf.shrink_room (hwf : m.Wf cb key) (hcap : m.nbuckets > m.cap)
    (hfew : m.count ≤ m.shrinkat) :
    (∃ k, m.nbuckets / 2 = 2 ^ k) ∧ m.cap ≤ m.nbuckets / 2 ∧
      m.count < m.nbuckets / 2 * 60 / 100 := by
  obtain ⟨k, hk⟩ := hwf.pow
  obtain ⟨c, hc⟩ := hwf.cap_pow
  have hmin := hwf.cap_min
  have hshrink := hwf.shrinkat
  have hck : c < k := by
    rw [hk, hc] at hcap
    exact (Nat.pow_lt_pow_iff_right (by omega)).1 hcap
  have hhalf : m.nbuckets / 2 = 2 ^ (k - 1) := by
    rw [hk, show k = k - 1 + 1 by omega, Nat.pow_succ, Nat.add_sub_cancel,
      Nat.mul_div_cancel _ (by omega)]
  have hle : m.cap ≤ m.nbuckets / 2 := by
    rw [hc, hhalf]
    exact Nat.pow_le_pow_right (by omega) (by omega)
  exact ⟨⟨k - 1, hhalf⟩, hle, by omega⟩

private theorem remove_spec [Inhabited ι] (hwf : m.Wf cb key) (malloc : Malloc) {q : Nat}
    (hq : q < m.nbuckets) (hlive : (m.buckets q).dib ≠ 0) :
    ∃ m', m.remove malloc q = .ok (some (m.buckets q).val.item, m') ∧ m'.Wf cb key ∧
      m.contents = (m.buckets q).val.item ::ₘ m'.contents := by
  obtain ⟨buckets, hshift, hprobed, hitems⟩ := shiftLoop_spec hwf hq hlive
  obtain ⟨values, hvalues⟩ := Multiset.exists_cons_of_mem (mem_contents hq hlive)
  have hstamped := hwf.stamped _ (mem_items.2 ⟨q, hq, hlive, rfl⟩)
  have hrest : items m.nbuckets buckets = values.map (stamp cb) := by
    rw [hwf.items_eq, hvalues, Multiset.map_cons, ← hstamped, Multiset.cons_inj_right] at hitems
    exact hitems.symm
  have hnodup := hwf.nodup
  rw [hvalues, Multiset.map_cons, Multiset.nodup_cons] at hnodup
  have hcount : values.card = m.count - 1 := by
    rw [← hwf.count, hvalues, Multiset.card_cons, Nat.add_sub_cancel]
  have hroom := hwf.room
  have hsmall := hwf.small
  obtain ⟨hwf', hcontents⟩ := hwf.with_buckets hprobed hrest hnodup.2 (by omega) (by omega)
  rw [hcount] at hwf' hcontents
  simp only [remove, hshift]
  split
  · rename_i hfew
    cases hmalloc : malloc.succeeds with
    | false =>
        rw [resize0_fails _ hmalloc]
        exact ⟨_, rfl, hwf', by rw [hvalues]; exact congrArg _ hcontents.symm⟩
    | true =>
        obtain ⟨hpow, hcap, hroom'⟩ := hwf'.shrink_room hfew.1 hfew.2
        obtain ⟨m', hresize, hwf'', hcontents', -⟩ :=
          resize0_spec hwf' hmalloc hpow hcap hroom'
        rw [hresize]
        refine ⟨m', rfl, hwf'', ?_⟩
        rw [hcontents', hcontents, hvalues]
  · exact ⟨_, rfl, hwf', by rw [hvalues]; exact congrArg _ hcontents.symm⟩

theorem hashmapDelete_spec [Inhabited ι] (hk : Keyed cb key) (hwf : m.Wf cb key)
    (malloc : Malloc) (item : ι) :
    (∃ old m', m.hashmapDelete cb malloc item = .ok (some old, m') ∧ m'.Wf cb key ∧
      key old = key item ∧ m.contents = old ::ₘ m'.contents) ∨
    (m.hashmapDelete cb malloc item = .ok (none, { m with oom := false }) ∧
      key item ∉ m.contents.map key) := by
  simp only [hashmapDelete, hashmapDeleteWithHash, clipHash_getHash]
  obtain ⟨q, hq, hfind, hlive, hkey⟩ | ⟨hfind, hnone⟩ := findLoop_spec hk hwf item
  · obtain ⟨m', hremove, hwf', hcontents⟩ := remove_spec (hwf.of_oom false) malloc hq hlive
    simp only [stamp] at hfind
    exact .inl ⟨_, m', by rw [hfind]; exact hremove, hwf', hkey, hcontents⟩
  · simp only [stamp] at hfind
    exact .inr ⟨by rw [hfind], hnone⟩

theorem hashmapClear_spec [Inhabited ι] (hwf : m.Wf cb key) (updateCap malloc : Bool) :
    (m.hashmapClear updateCap malloc).Wf cb key ∧
      (m.hashmapClear updateCap malloc).contents = 0 := by
  have hempty : ∀ i < (m.hashmapClear updateCap malloc).nbuckets,
      ((m.hashmapClear updateCap malloc).buckets i).dib = 0 := by
    intro i hi
    simp only [hashmapClear] at hi ⊢
    rw [if_pos (.inl hi)]
  have hitems : items (m.hashmapClear updateCap malloc).nbuckets
      (m.hashmapClear updateCap malloc).buckets = 0 := items_eq_zero hempty
  have hcontents : (m.hashmapClear updateCap malloc).contents = 0 := by
    rw [contents, hitems, Multiset.map_zero]
  have hcap : (∃ k, (m.hashmapClear updateCap malloc).cap = 2 ^ k) ∧
      16 ≤ (m.hashmapClear updateCap malloc).cap := by
    cases updateCap with
    | true => exact ⟨hwf.pow, hwf.nbuckets_min⟩
    | false => exact ⟨hwf.cap_pow, hwf.cap_min⟩
  refine ⟨{
    cap_pow := hcap.1
    cap_min := hcap.2
    pow := hcap.1
    cap_le := Nat.le_refl _
    mask := rfl
    growpower := hwf.growpower
    growat := by simp only [hashmapClear]; omega
    shrinkat := by simp only [hashmapClear]; omega
    room := Nat.zero_le _
    probed := probed_empty fun i => hempty _ (Nat.mod_lt _ (Nat.lt_of_lt_of_le (by omega) hcap.2))
    stamped := ?_
    nodup := by rw [hcontents]; exact Multiset.nodup_zero
    count := by rw [hcontents]; rfl
    small := by simp [hashmapClear, dibLimit] }, hcontents⟩
  intro v hv
  rw [hitems] at hv
  exact absurd hv (Multiset.notMem_zero v)

theorem wf_setGrowByPower (hwf : m.Wf cb key) (power : Nat) :
    (m.hashmapSetGrowByPower power).Wf cb key := by
  refine { hwf with growpower := ?_ }
  simp only [hashmapSetGrowByPower]
  split
  · exact Nat.le_refl 1
  · split <;> omega

/-! ### Scanning -/

def itemsFrom (m : Hashmap ι) (i : Nat) : List ι :=
  (List.range' i (m.nbuckets - i)).filterMap fun i => (m.buckets i).toOption.map Hashed.item

def toList (m : Hashmap ι) : List ι := m.itemsFrom 0

theorem coe_toList (m : Hashmap ι) : (m.toList : Multiset ι) = m.contents := by
  rw [contents, items_eq_coe, Multiset.map_coe, List.map_filterMap, toList, itemsFrom,
    Nat.sub_zero, ← List.range_eq_range']

private theorem itemsFrom_end {i : Nat} (hi : m.nbuckets ≤ i) : m.itemsFrom i = [] := by
  rw [itemsFrom, Nat.sub_eq_zero_of_le hi]
  rfl

private theorem itemsFrom_step {i : Nat} (hi : i < m.nbuckets) :
    m.itemsFrom i =
      ((m.buckets i).toOption.map Hashed.item).toList ++ m.itemsFrom (i + 1) := by
  rw [itemsFrom, show m.nbuckets - i = m.nbuckets - (i + 1) + 1 by omega, List.range'_succ,
    List.filterMap_cons, itemsFrom]
  cases (m.buckets i).toOption <;> rfl

def visit {σ : Type} (iter : σ → ι → Bool × σ) : List ι → σ → Bool × σ
  | [], udata => (true, udata)
  | item :: rest, udata =>
      if (iter udata item).1 then visit iter rest (iter udata item).2
      else (false, (iter udata item).2)

theorem hashmapScan_eq {σ : Type} (m : Hashmap ι) (iter : σ → ι → Bool × σ) (udata : σ) :
    m.hashmapScan iter udata = visit iter m.toList udata := by
  have hgo : ∀ (indices : List Nat) (udata : σ), hashmapScan.go m iter indices udata =
      visit iter (indices.filterMap fun i => (m.buckets i).toOption.map Hashed.item) udata := by
    intro indices
    induction indices with
    | nil => intro _; rfl
    | cons i rest ih =>
        intro udata
        by_cases hempty : (m.buckets i).dib = 0
        · simp [hashmapScan.go, hempty, Slot.toOption, ih]
        · simp [hashmapScan.go, hempty, Slot.toOption, ih, visit]
  rw [hashmapScan, hgo, toList, itemsFrom, Nat.sub_zero, ← List.range_eq_range']

private theorem hashmapIter_go_eq (m : Hashmap ι) {fuel i : Nat} (hfuel : fuel = m.nbuckets - i) :
    (hashmapIter.go m fuel i = none ∧ m.itemsFrom i = []) ∨
      ∃ item i', hashmapIter.go m fuel i = some (item, i') ∧ i < i' ∧
        m.itemsFrom i = item :: m.itemsFrom i' := by
  induction fuel generalizing i with
  | zero => exact .inl ⟨rfl, itemsFrom_end (by omega)⟩
  | succ fuel ih =>
      have hstep := itemsFrom_step (m := m) (i := i) (by omega)
      by_cases hempty : (m.buckets i).dib = 0
      · rw [Slot.toOption, if_pos hempty] at hstep
        have hgo : hashmapIter.go m (fuel + 1) i = hashmapIter.go m fuel (i + 1) := if_pos hempty
        rw [hgo, hstep]
        obtain ⟨hnone, hend⟩ | ⟨item, i', hsome, hlt, hitems⟩ := ih (i := i + 1) (by omega)
        · exact .inl ⟨hnone, by simpa using hend⟩
        · exact .inr ⟨item, i', hsome, by omega, by simpa using hitems⟩
      · rw [Slot.toOption, if_neg hempty] at hstep
        exact .inr ⟨_, i + 1, if_neg hempty, by omega, hstep⟩

/-- A loop that calls `hashmap_iter` until it returns false. -/
def iterAll (m : Hashmap ι) : Nat → Nat → List ι
  | 0, _ => []
  | fuel + 1, i =>
      match m.hashmapIter i with
      | none => []
      | some (item, i') => item :: m.iterAll fuel i'

theorem iterAll_eq (m : Hashmap ι) {fuel i : Nat} (hfuel : m.nbuckets - i < fuel) :
    m.iterAll fuel i = m.itemsFrom i := by
  induction fuel generalizing i with
  | zero => omega
  | succ fuel ih =>
      simp only [iterAll, hashmapIter]
      obtain ⟨hnone, hend⟩ | ⟨item, i', hsome, hlt, hitems⟩ := hashmapIter_go_eq m (i := i) rfl
      · rw [hnone, hend]
      · rw [hsome, hitems]
        by_cases hdone : m.nbuckets ≤ i
        · rw [itemsFrom_end hdone] at hitems
          cases hitems
        · simp only [ih (i := i') (by omega)]

end Hashmap

end UserPaging.Usm.HashMap
