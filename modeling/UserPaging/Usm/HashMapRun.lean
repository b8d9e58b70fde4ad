import UserPaging.Usm.HashMapSpec

/-!
# Runs of the hash map

Seen through its operations the hash map is a finite map from keys to items.
This holds for every sequence of operations, however the allocations turn out:
an operation that fails for want of memory says so and changes nothing.  The one
condition is that the distance counters of 16 bits suffice, so fewer than 65536
different keys may be used.
-/

namespace UserPaging.Usm.HashMap

open UserPaging.Foundation.RobinHood

variable {ι κ : Type}

inductive Op (ι : Type) where
  | set (item : ι) (malloc : Malloc)
  | get (key : ι)
  | delete (key : ι) (malloc : Malloc)
  | clear (updateCap malloc : Bool)
  | setGrowByPower (power : Nat)
  | count
  | scan

inductive Result (ι : Type) where
  | item (found : Option ι)
  | oom
  | done
  | count (n : Nat)
  | items (list : List ι)
  deriving DecidableEq

/-- A callback of `hashmap_scan` that notes every item. -/
def note (seen : List ι) (item : ι) : Bool × List ι := (true, seen ++ [item])

namespace Hashmap

def step [Inhabited ι] (cb : Callbacks ι) (m : Hashmap ι) :
    Op ι → Except Fault (Result ι × Hashmap ι)
  | .set item malloc =>
      match m.hashmapSet cb malloc (.value item) with
      | .error fault => .error fault
      | .ok (old, m') => .ok (if m'.oom then .oom else .item old, m')
  | .get key =>
      match m.hashmapGet cb key with
      | .error fault => .error fault
      | .ok found => .ok (.item (found.map fun q => (m.buckets q).val.item), m)
  | .delete key malloc =>
      match m.hashmapDelete cb malloc key with
      | .error fault => .error fault
      | .ok (old, m') => .ok (.item old, m')
  | .clear updateCap malloc => .ok (.done, m.hashmapClear updateCap malloc)
  | .setGrowByPower power => .ok (.done, m.hashmapSetGrowByPower power)
  | .count => .ok (.count m.count, m)
  | .scan => .ok (.items (m.hashmapScan note []).2, m)

def run [Inhabited ι] (cb : Callbacks ι) :
    Hashmap ι → List (Op ι) → Except Fault (List (Result ι) × Hashmap ι)
  | m, [] => .ok ([], m)
  | m, op :: ops =>
      match m.step cb op with
      | .error fault => .error fault
      | .ok (result, m') =>
          match run cb m' ops with
          | .error fault => .error fault
          | .ok (results, final) => .ok (result :: results, final)

end Hashmap

/-! ### The finite map -/

def Enumerates (key : ι → κ) (M : κ → Option ι) (list : List ι) : Prop :=
  list.Nodup ∧ ∀ v, v ∈ list ↔ M (key v) = some v

/-- What an operation may answer on the map `M`, and the map that it leaves. -/
inductive Answers [DecidableEq κ] (key : ι → κ) :
    (κ → Option ι) → Op ι → Result ι → (κ → Option ι) → Prop
  | set (M : κ → Option ι) (item : ι) (malloc : Malloc) :
      Answers key M (.set item malloc) (.item (M (key item)))
        (Function.update M (key item) (some item))
  | oom (M : κ → Option ι) (item : ι) (malloc : Malloc) (hmalloc : malloc.succeeds = false) :
      Answers key M (.set item malloc) .oom M
  | get (M : κ → Option ι) (item : ι) : Answers key M (.get item) (.item (M (key item))) M
  | delete (M : κ → Option ι) (item : ι) (malloc : Malloc) :
      Answers key M (.delete item malloc) (.item (M (key item)))
        (Function.update M (key item) none)
  | clear (M : κ → Option ι) (updateCap malloc : Bool) :
      Answers key M (.clear updateCap malloc) .done fun _ => none
  | setGrowByPower (M : κ → Option ι) (power : Nat) :
      Answers key M (.setGrowByPower power) .done M
  | count (M : κ → Option ι) (list : List ι) (hlist : Enumerates key M list) :
      Answers key M .count (.count list.length) M
  | scan (M : κ → Option ι) (list : List ι) (hlist : Enumerates key M list) :
      Answers key M .scan (.items list) M

inductive AnswersAll [DecidableEq κ] (key : ι → κ) :
    (κ → Option ι) → List (Op ι) → List (Result ι) → (κ → Option ι) → Prop
  | nil (M : κ → Option ι) : AnswersAll key M [] [] M
  | cons {M M' M'' : κ → Option ι} {op : Op ι} {ops : List (Op ι)} {result : Result ι}
      {results : List (Result ι)} (hop : Answers key M op result M')
      (hops : AnswersAll key M' ops results M'') :
      AnswersAll key M (op :: ops) (result :: results) M''

def setKeys (key : ι → κ) (ops : List (Op ι)) : List κ :=
  ops.filterMap fun
    | .set item _ => some (key item)
    | _ => none

/-! ### The hash map is a finite map -/

namespace Hashmap

variable {cb : Callbacks ι} {key : ι → κ} {m : Hashmap ι} {M : κ → Option ι}

structure Represents (cb : Callbacks ι) (key : ι → κ) (m : Hashmap ι) (M : κ → Option ι) :
    Prop where
  wf : m.Wf cb key
  maps : Maps key m.contents M

private theorem visit_note (list seen : List ι) : visit note list seen = (true, seen ++ list) := by
  induction list generalizing seen with
  | nil => simp [visit]
  | cons item list ih => simp [visit, note, ih]

private theorem scan_note (m : Hashmap ι) : (m.hashmapScan note []).2 = m.toList := by
  rw [hashmapScan_eq, visit_note, List.nil_append]

private theorem Represents.enumerates (h : Represents cb key m M) : Enumerates key M m.toList := by
  constructor
  · have hnodup := h.wf.nodup
    rw [← coe_toList, Multiset.map_coe, Multiset.coe_nodup] at hnodup
    exact hnodup.of_map key
  · intro v
    rw [h.maps, ← coe_toList, Multiset.mem_coe]
    simp

private theorem Represents.length_toList (h : Represents cb key m M) :
    m.toList.length = m.count := by
  rw [← h.wf.count, ← coe_toList, Multiset.coe_card]

private theorem Stores.keys_subset {item : ι} {old : Option ι} {values values' : Multiset ι}
    (hstores : Stores key item old values values') {K : Finset κ}
    (hK : ∀ v ∈ values, key v ∈ K) (hitem : key item ∈ K) : ∀ v ∈ values', key v ∈ K := by
  cases hstores with
  | new hnew =>
      intro v hv
      obtain rfl | hv := Multiset.mem_cons.1 hv
      · exact hitem
      · exact hK v hv
  | replaced hkey =>
      intro v hv
      obtain rfl | hv := Multiset.mem_cons.1 hv
      · exact hitem
      · exact hK v (Multiset.mem_cons_of_mem hv)

/-- A map whose keys are among `K` holds fewer items than `K` has members as long as a
member is missing. -/
theorem Represents.count_lt (h : Represents cb key m M) {K : Finset κ}
    (hK : ∀ v ∈ m.contents, key v ∈ K) {item : ι} (hitem : key item ∈ K)
    (hnew : key item ∉ m.contents.map key) : m.count < K.card := by
  have hsub : (⟨_, h.wf.nodup⟩ : Finset κ) ⊂ K := by
    refine ⟨fun k hk => ?_, fun hle => hnew (hle hitem)⟩
    obtain ⟨v, hv, rfl⟩ := Multiset.mem_map.1 hk
    exact hK v hv
  have hcard := Finset.card_lt_card hsub
  rw [Finset.card_mk, Multiset.card_map, h.wf.count] at hcard
  exact hcard

theorem Represents.count_eq (h : Represents cb key m M) {K : Finset κ}
    (hK : ∀ k, k ∈ K ↔ M k ≠ none) : m.count = K.card := by
  have hkeys : (⟨_, h.wf.nodup⟩ : Finset κ) = K := by
    ext k
    rw [hK, Finset.mem_mk, Multiset.mem_map]
    constructor
    · rintro ⟨v, hv, rfl⟩
      rw [(h.maps _ v).2 ⟨hv, rfl⟩]
      simp
    · intro hk
      obtain ⟨v, hv⟩ := Option.ne_none_iff_exists'.1 hk
      exact ⟨v, (h.maps k v).1 hv⟩
  rw [← h.wf.count, ← hkeys, Finset.card_mk, Multiset.card_map]

theorem Stores.eq_cons {item : ι} {old : Option ι} {values values' : Multiset ι}
    (hstores : Stores key item old values values') (hnew : key item ∉ values.map key) :
    values' = item ::ₘ values := by
  cases hstores with
  | new _ => rfl
  | replaced hkey =>
      exact absurd (hkey ▸ Multiset.mem_map_of_mem key (Multiset.mem_cons_self _ _)) hnew

theorem Stores.card_le {item : ι} {old : Option ι} {values values' : Multiset ι}
    (hstores : Stores key item old values values') : values'.card ≤ values.card + 1 := by
  cases hstores with
  | new _ => simp
  | replaced _ => simp

private theorem step_get [Inhabited ι] (hk : Keyed cb key) (h : Represents cb key m M) (item : ι) :
    m.step cb (.get item) = .ok (.item (M (key item)), m) := by
  simp only [step]
  obtain ⟨q, -, hget, -, hmem, hkey⟩ | ⟨hget, hnone⟩ := hashmapGet_spec hk h.wf item
  · rw [hget, (h.maps (key item) _).2 ⟨hmem, hkey⟩]
    rfl
  · rw [hget, h.maps.eq_none hnone]
    rfl

theorem represents_new [Inhabited ι] (cb : Callbacks ι) (key : ι → κ) {malloc : Malloc}
    {cap : Nat} (hnew : hashmapNewWithAllocator malloc cap = some m) :
    Represents cb key m fun _ => none := by
  rw [hashmapNewWithAllocator] at hnew
  split at hnew
  · cases hnew
    obtain ⟨hpow, hmin⟩ := roundCap_spec cap cap ⟨4, rfl⟩ (Nat.le_refl 16)
    refine ⟨wf_emptyMap cb key hpow hmin, ?_⟩
    rw [show (emptyMap ι (roundCap cap cap 16)).contents = 0 from
      (congrArg _ (items_eq_zero fun _ _ => rfl)).trans (Multiset.map_zero _)]
    exact maps_zero key
  · cases hnew

/-- Iterating by `hashmap_iter` from the first bucket on yields every item of the finite map
once. -/
private theorem Represents.iterAll_enumerates (h : Represents cb key m M) :
    Enumerates key M (m.iterAll (m.nbuckets + 1) 0) := by
  rw [iterAll_eq m (by omega)]
  exact h.enumerates

variable [DecidableEq κ]

theorem Stores.maps {item : ι} {old : Option ι} {values values' : Multiset ι}
    (hstores : Stores key item old values values') (hnodup : (values.map key).Nodup)
    (hmaps : Maps key values M) :
    old = M (key item) ∧ Maps key values' (Function.update M (key item) (some item)) := by
  cases hstores with
  | new hnew => exact ⟨(hmaps.eq_none hnew).symm, hmaps.insert hnew⟩
  | replaced hkey =>
      obtain ⟨hold, hmaps'⟩ := hmaps.replace hnodup hkey
      exact ⟨hold.symm, hmaps'⟩

private theorem step_set [Inhabited ι] (hk : Keyed cb key) (h : Represents cb key m M)
    {K : Finset κ}
    (hcard : K.card < dibLimit) (hK : ∀ v ∈ m.contents, key v ∈ K) {item : ι}
    (hitem : key item ∈ K) (malloc : Malloc) :
    ∃ result m' M', m.step cb (.set item malloc) = .ok (result, m') ∧
      Answers key M (.set item malloc) result M' ∧ Represents cb key m' M' ∧
      ∀ v ∈ m'.contents, key v ∈ K := by
  have hsmall : key item ∉ m.contents.map key → m.count + 1 < dibLimit := by
    intro hnew
    have hlt := h.count_lt hK hitem hnew
    omega
  simp only [step]
  obtain ⟨-, hmalloc, hset⟩ | ⟨old, m', hset, hwf', hstores, -, hoom⟩ :=
    hashmapSet_spec hk h.wf malloc item hsmall
  · rw [hset]
    exact ⟨_, _, M, rfl, .oom M item malloc hmalloc, ⟨h.wf.of_oom true, h.maps⟩, hK⟩
  · rw [hset]
    obtain ⟨rfl, hmaps'⟩ := hstores.maps h.wf.nodup h.maps
    refine ⟨_, m', _, rfl, ?_, ⟨hwf', hmaps'⟩, hstores.keys_subset hK hitem⟩
    rw [hoom]
    exact .set M item malloc

private theorem step_delete [Inhabited ι] (hk : Keyed cb key) (h : Represents cb key m M) (item : ι)
    (malloc : Malloc) :
    ∃ m', m.step cb (.delete item malloc) = .ok (.item (M (key item)), m') ∧
      Represents cb key m' (Function.update M (key item) none) ∧ m'.contents ≤ m.contents := by
  simp only [step]
  obtain ⟨old, m', hdelete, hwf', hkey, hcontents⟩ | ⟨hdelete, hnone⟩ :=
    hashmapDelete_spec hk h.wf malloc item
  · have hmaps := h.maps
    have hnodup := h.wf.nodup
    rw [hcontents] at hmaps hnodup
    obtain ⟨hold, hmaps'⟩ := hmaps.erase hnodup
    rw [hkey] at hold hmaps'
    refine ⟨m', ?_, ⟨hwf', hmaps'⟩, hcontents ▸ Multiset.le_cons_self _ _⟩
    rw [hdelete, hold]
  · have hmiss := h.maps.eq_none hnone
    refine ⟨_, by rw [hdelete, hmiss], ⟨h.wf.of_oom false, ?_⟩, le_rfl⟩
    rw [← hmiss, Function.update_eq_self]
    exact h.maps

private theorem step_answers [Inhabited ι] (hk : Keyed cb key) (h : Represents cb key m M)
    {K : Finset κ} (hcard : K.card < dibLimit) (hK : ∀ v ∈ m.contents, key v ∈ K) (op : Op ι)
    (hop : ∀ k ∈ setKeys key [op], k ∈ K) :
    ∃ result m' M', m.step cb op = .ok (result, m') ∧ Answers key M op result M' ∧
      Represents cb key m' M' ∧ ∀ v ∈ m'.contents, key v ∈ K := by
  cases op with
  | set item malloc => exact step_set hk h hcard hK (hop _ List.mem_cons_self) malloc
  | get item => exact ⟨_, m, M, step_get hk h item, .get M item, h, hK⟩
  | delete item malloc =>
      obtain ⟨m', hstep, h', hle⟩ := step_delete hk h item malloc
      exact ⟨_, m', _, hstep, .delete M item malloc, h',
        fun v hv => hK v (Multiset.mem_of_le hle hv)⟩
  | clear updateCap malloc =>
      obtain ⟨hwf', hempty⟩ := hashmapClear_spec h.wf updateCap malloc
      refine ⟨_, _, _, rfl, .clear M updateCap malloc, ⟨hwf', hempty ▸ maps_zero key⟩, ?_⟩
      rw [hempty]
      exact fun v hv => absurd hv (Multiset.notMem_zero v)
  | setGrowByPower power =>
      exact ⟨_, _, M, rfl, .setGrowByPower M power, ⟨wf_setGrowByPower h.wf power, h.maps⟩, hK⟩
  | count =>
      refine ⟨_, m, M, rfl, ?_, h, hK⟩
      rw [← h.length_toList]
      exact .count M _ h.enumerates
  | scan =>
      refine ⟨_, m, M, rfl, ?_, h, hK⟩
      rw [scan_note]
      exact .scan M _ h.enumerates

private theorem run_answers [Inhabited ι] (hk : Keyed cb key) (h : Represents cb key m M)
    {K : Finset κ} (hcard : K.card < dibLimit) (hK : ∀ v ∈ m.contents, key v ∈ K)
    (ops : List (Op ι)) (hops : ∀ k ∈ setKeys key ops, k ∈ K) :
    ∃ results m' M', run cb m ops = .ok (results, m') ∧ AnswersAll key M ops results M' ∧
      Represents cb key m' M' := by
  induction ops generalizing m M with
  | nil => exact ⟨[], m, M, rfl, .nil M, h⟩
  | cons op ops ih =>
      have hsplit : setKeys key (op :: ops) = setKeys key [op] ++ setKeys key ops := by
        rw [setKeys, setKeys, setKeys, ← List.filterMap_append]
        rfl
      rw [hsplit] at hops
      obtain ⟨result, m', M', hstep, hop, h', hK'⟩ := step_answers hk h hcard hK op
        fun k hmem => hops k (List.mem_append_left _ hmem)
      obtain ⟨results, final, M'', hrun, hall, hfinal⟩ :=
        ih h' hK' fun k hmem => hops k (List.mem_append_right _ hmem)
      refine ⟨result :: results, final, M'', ?_, .cons hop hall, hfinal⟩
      simp only [run, hstep, hrun]

end Hashmap

def pairCallbacks : Callbacks (Nat × Nat) where
  hash := fun pair => pair.1 % 2
  compare := some fun a b => (a.1 : Int) - b.1

private theorem keyed_pairCallbacks : Keyed pairCallbacks Prod.fst where
  same_iff a b := by
    simp only [Callbacks.same, pairCallbacks, stamp, getHash, clipHash, Bool.and_eq_true,
      beq_iff_eq]
    constructor
    · rintro ⟨-, hdiff⟩
      omega
    · intro hkey
      rw [hkey]
      exact ⟨rfl, Int.sub_self _⟩

end UserPaging.Usm.HashMap
