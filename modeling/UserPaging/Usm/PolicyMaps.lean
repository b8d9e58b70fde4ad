import Mathlib.Data.Finset.Option
import UserPaging.Usm.HashMapRun
import UserPaging.Usm.PolicyKinds

/-!
# The maps behind the policies

The daemon keeps its policies and the links of its processes in three hash maps.
A line of the configuration file that names a process asks the map for the link
of that process, changes the link where it lies in the map, and then sets it
again by passing the pointer into the map.  When the map is due to grow at that
moment, the link is read from the buckets that have just been freed.

Apart from that, the maps do what `Policies` says: reading a configuration
through them gives the same daemon.  Which configurations are affected does not
depend on the hash function, only on the number of processes linked so far.
-/

namespace UserPaging.Usm.PolicyMaps

open UserPaging.Foundation UserPaging.Foundation.RobinHood
open UserPaging.Usm.HashMap UserPaging.Usm.HashMap.Hashmap UserPaging.Usm.Policies

structure Policy where
  ops : Ops
  name : Name

structure PLink where
  procName : Name
  link : Link

instance : Inhabited Policy := ⟨⟨.stray 0, []⟩⟩

instance : Inhabited PLink := ⟨⟨[], ⟨none, none, 0⟩⟩⟩

def strcmp (a b : Name) : Int := if a = b then 0 else if a < b then -1 else 1

section

variable {ι : Type} (sip : Name → Nat)

def byName (name : ι → Name) : Callbacks ι where
  hash := fun item => sip (name item)
  compare := some fun a b => strcmp (name a) (name b)

/-- `usm_policy_hash` and `usm_policy_compare` -/
def policyCallbacks : Callbacks Policy := byName sip Policy.name

/-- `usm_plink_hash` and `usm_plink_compare` -/
def plinkCallbacks : Callbacks PLink := byName sip PLink.procName

private theorem strcmp_eq_zero {a b : Name} : strcmp a b = 0 ↔ a = b := by
  rw [strcmp]
  split
  · simp [*]
  · split <;> simp [*]

private theorem keyed_byName (name : ι → Name) : Keyed (byName sip name) name where
  same_iff a b := by
    simp only [Callbacks.same, byName, stamp, getHash, Bool.and_eq_true, beq_iff_eq,
      strcmp_eq_zero]
    constructor
    · exact fun hsame => hsame.2
    · intro hname
      rw [hname]
      exact ⟨rfl, rfl⟩

end

structure State where
  allocPolicies : Hashmap Policy
  swapPolicies : Hashmap Policy
  linking : Hashmap PLink
  defaultAllocPolicy : Option Nat
  defaultSwapPolicy : Option Nat
  initThreshold : Bool
  allocPolicyThresholds : Nat → Option Ops

namespace State

variable (sip : Name → Nat) (malloc : Malloc)

def initial : State where
  allocPolicies := emptyMap Policy 16
  swapPolicies := emptyMap Policy 16
  linking := emptyMap PLink 16
  defaultAllocPolicy := none
  defaultSwapPolicy := none
  initThreshold := false
  allocPolicyThresholds := fun _ => none

/-- `hashmap_set` of a policy; `none` stands for the return value 1. -/
def setPolicy (s : State) (policy : Policy) : Except Fault (Option State) :=
  match s.allocPolicies.hashmapSet (policyCallbacks sip) malloc (.value policy) with
  | .error fault => .error fault
  | .ok (old, allocPolicies) =>
      if old.isNone ∧ allocPolicies.oom then .ok none
      else .ok (some { s with allocPolicies := allocPolicies })

def register (s : State) : Registration → Except Fault (Option State)
  | .alloc ops name isDefault =>
      setPolicy sip malloc
        { s with defaultAllocPolicy := if isDefault then some ops else s.defaultAllocPolicy }
        ⟨.alloc ops, name⟩
  | .swap ops name isDefault =>
      setPolicy sip malloc
        { s with defaultSwapPolicy := if isDefault then some ops else s.defaultSwapPolicy }
        ⟨.swap ops, name⟩

def findPolicy (policies : Hashmap Policy) (name : Name) : Except Fault (Option Ops) :=
  match policies.hashmapGet (policyCallbacks sip) ⟨.stray 0, name⟩ with
  | .error fault => .error fault
  | .ok found => .ok (found.map fun q => (policies.buckets q).val.item.ops)

/-- The end of a `process` or `priority` line: the link is set, and if no old one comes back
it is looked for again. -/
def finishLink (s : State) (linking : Hashmap PLink) (procName : Name) (arg : Arg PLink) :
    Except Fault (Option State) :=
  match linking.hashmapSet (plinkCallbacks sip) malloc arg with
  | .error fault => .error fault
  | .ok (some _, linking) => .ok (some { s with linking := linking })
  | .ok (none, linking) =>
      if linking.oom then .ok none
      else
        match linking.hashmapGet (plinkCallbacks sip) ⟨procName, ⟨none, none, 0⟩⟩ with
        | .error fault => .error fault
        | .ok none => .ok none
        | .ok (some _) => .ok (some { s with linking := linking })

def editLink (s : State) (procName : Name) (fresh : Link) (edit : Link → Link) :
    Except Fault (Option State) :=
  match s.linking.hashmapGet (plinkCallbacks sip) ⟨procName, ⟨none, none, 0⟩⟩ with
  | .error fault => .error fault
  | .ok (some q) =>
      let plink := (s.linking.buckets q).val.item
      let linking := s.linking.write q { plink with link := edit plink.link }
      s.finishLink sip malloc linking procName (.bucket q)
  | .ok none => s.finishLink sip malloc s.linking procName (.value ⟨procName, edit fresh⟩)

def bindPolicy (s : State) (policies : Hashmap Policy) (procName policy : Name) (fresh : Link)
    (edit : Ops → Link → Link) : Except Fault (Option State) :=
  match findPolicy sip policies policy with
  | .error fault => .error fault
  | .ok none => .ok none
  | .ok (some ops) => s.editLink sip malloc procName fresh (edit ops)

def command (fresh : Name → Option Ops × Option Ops) (s : State) :
    Command → Except Fault (Option State)
  | .skip => .ok (some s)
  | .threshold percent policy =>
      let table := fun index =>
        if s.initThreshold then s.allocPolicyThresholds index else some .defaultAlloc
      match findPolicy sip s.allocPolicies policy with
      | .error fault => .error fault
      | .ok none => .ok none
      | .ok (some ops) =>
          .ok (some { s with
            initThreshold := true
            allocPolicyThresholds := fun index =>
              if atoi percent ≤ index ∧ index < 100 then some ops else table index })
  | .process kind procName policy =>
      let link : Link := ⟨(fresh procName).1, (fresh procName).2, 0⟩
      if kind = wordAlloc then
        s.bindPolicy sip malloc s.allocPolicies procName policy link
          fun ops link => { link with allocPol := some ops }
      else if kind = wordSwap then
        s.bindPolicy sip malloc s.swapPolicies procName policy link
          fun ops link => { link with swpPol := some ops }
      else .ok none
  | .priority procName prio =>
      s.editLink sip malloc procName ⟨none, none, 0⟩ fun link => { link with prio := atoi prio }
  | .unknown => .ok none

def each {α : Type} (step : State → α → Except Fault (Option State)) :
    State → List α → Except Fault (Option State)
  | s, [] => .ok (some s)
  | s, a :: rest =>
      match step s a with
      | .error fault => .error fault
      | .ok none => .ok none
      | .ok (some next) => each step next rest

def registerAll (registrations : List Registration) : Except Fault (Option State) :=
  each (register sip malloc) initial registrations

def boot (fresh : Name → Option Ops × Option Ops) (registrations : List Registration)
    (lines : List (List Char)) : Except Fault (Option State) :=
  match registerAll sip malloc registrations with
  | .error fault => .error fault
  | .ok none => .ok none
  | .ok (some s) => each (fun s ln => s.command sip malloc fresh (.ofLine ln)) s lines

def findLink (s : State) : Option Name → Except Fault (Option Link)
  | none => .ok none
  | some procName =>
      match s.linking.hashmapGet (plinkCallbacks sip) ⟨procName, ⟨none, none, 0⟩⟩ with
      | .error fault => .error fault
      | .ok found => .ok (found.map fun q => (s.linking.buckets q).val.item.link)

def usmSetupProcess (s : State) (procDescList : Fin maxProc → Process) (event : NewProc) :
    Except Fault (Fin maxProc → Process) :=
  match s.findLink sip event.procName with
  | .error fault => .error fault
  | .ok (some link) =>
      .ok (Function.update procDescList event.origin (link.setUp (procDescList event.origin)))
  | .ok none =>
      .ok (Function.update procDescList event.origin { procDescList event.origin with prio := 0 })

def setUpAll (s : State) (events : List NewProc) : Except Fault (Fin maxProc → Process) :=
  events.foldlM (s.usmSetupProcess sip) fun _ => Process.initial

end State

/-! ### The maps represent the daemon -/

variable {sip : Name → Nat} {malloc : Malloc}

def policies (f : Name → Option Ops) : Name → Option Policy := fun name =>
  (f name).map fun ops => ⟨ops, name⟩

def plinks (f : Name → Option Link) : Name → Option PLink := fun name =>
  (f name).map fun link => ⟨name, link⟩

private theorem policies_update (f : Name → Option Ops) (policy : Policy) :
    policies (Function.update f policy.name (some policy.ops)) =
      Function.update (policies f) policy.name (some policy) := by
  funext name
  by_cases hname : name = policy.name
  · simp [policies, hname]
  · simp [policies, Function.update_of_ne hname]

private theorem plinks_update (f : Name → Option Link) (procName : Name) (link : Link) :
    plinks (Function.update f procName (some link)) =
      Function.update (plinks f) procName (some ⟨procName, link⟩) := by
  funext name
  by_cases hname : name = procName
  · simp [plinks, hname]
  · simp [plinks, Function.update_of_ne hname]

structure Rep (sip : Name → Nat) (s : State) (d : Daemon) : Prop where
  alloc : Represents (policyCallbacks sip) Policy.name s.allocPolicies
    (policies d.allocPolicies)
  swap : Represents (policyCallbacks sip) Policy.name s.swapPolicies (policies d.swapPolicies)
  linking : Represents (plinkCallbacks sip) PLink.procName s.linking (plinks d.linking)
  defaultAlloc : s.defaultAllocPolicy = d.defaultAllocPolicy
  defaultSwap : s.defaultSwapPolicy = d.defaultSwapPolicy
  initThreshold : s.initThreshold = d.initThreshold
  thresholds : s.allocPolicyThresholds = d.allocPolicyThresholds

theorem findPolicy_eq {m : Hashmap Policy} {f : Name → Option Ops}
    (h : Represents (policyCallbacks sip) Policy.name m (policies f)) (name : Name) :
    State.findPolicy sip m name = .ok (f name) := by
  rw [State.findPolicy]
  obtain ⟨q, -, hget, -, hmem, hname⟩ | ⟨hget, hnone⟩ :=
    hashmapGet_spec (keyed_byName sip Policy.name) h.wf ⟨.stray 0, name⟩
  · have hfound := (h.maps name _).2 ⟨hmem, hname⟩
    rw [policyCallbacks, hget]
    cases hf : f name with
    | none =>
        rw [policies, hf] at hfound
        cases hfound
    | some ops =>
        rw [policies, hf, Option.map_some, Option.some.injEq] at hfound
        simp only [Option.map_some, ← hfound]
  · have hnone' := h.maps.eq_none hnone
    rw [policyCallbacks, hget]
    cases hf : f name with
    | none => rfl
    | some ops =>
        rw [policies, hf] at hnone'
        cases hnone'

/-! ### Registrations -/

private theorem setPolicy_spec {s : State} {f : Name → Option Ops}
    (h : Represents (policyCallbacks sip) Policy.name s.allocPolicies (policies f))
    (hmalloc : malloc.succeeds = true) (hsmall : s.allocPolicies.count + 1 < dibLimit)
    (policy : Policy) :
    ∃ m, s.setPolicy sip malloc policy = .ok (some { s with allocPolicies := m }) ∧
      Represents (policyCallbacks sip) Policy.name m
        (policies (Function.update f policy.name (some policy.ops))) ∧
      m.count ≤ s.allocPolicies.count + 1 := by
  obtain ⟨-, hfail, -⟩ | ⟨old, m, hset, hwf, hstores, -, hoom⟩ :=
    hashmapSet_spec (keyed_byName sip Policy.name) h.wf malloc policy (fun _ => hsmall)
  · rw [hmalloc] at hfail
    cases hfail
  · obtain ⟨-, hmaps⟩ := hstores.maps h.wf.nodup h.maps
    refine ⟨m, ?_, ⟨hwf, policies_update f policy ▸ hmaps⟩, ?_⟩
    · simp [State.setPolicy, policyCallbacks, hset, hoom]
    · rw [← hwf.count, ← h.wf.count]
      exact hstores.card_le

private theorem register_spec {s : State} {d : Daemon} (hrep : Rep sip s d)
    (hmalloc : malloc.succeeds = true) (hsmall : s.allocPolicies.count + 1 < dibLimit)
    (registration : Registration) :
    ∃ s', s.register sip malloc registration = .ok (some s') ∧
      Rep sip s' (d.register registration) ∧ s'.linking = s.linking ∧
      s'.allocPolicies.count ≤ s.allocPolicies.count + 1 := by
  cases registration with
  | alloc ops name isDefault =>
      obtain ⟨m, hset, halloc, hcount⟩ := setPolicy_spec (s := { s with
        defaultAllocPolicy := if isDefault then some ops else s.defaultAllocPolicy })
        hrep.alloc hmalloc hsmall ⟨.alloc ops, name⟩
      refine ⟨_, hset, { hrep with alloc := halloc, defaultAlloc := ?_ }, rfl, hcount⟩
      simp only [Daemon.register, Daemon.usmRegisterAllocPolicy, hrep.defaultAlloc]
  | swap ops name isDefault =>
      obtain ⟨m, hset, halloc, hcount⟩ := setPolicy_spec (s := { s with
        defaultSwapPolicy := if isDefault then some ops else s.defaultSwapPolicy })
        hrep.alloc hmalloc hsmall ⟨.swap ops, name⟩
      refine ⟨_, hset, { hrep with alloc := halloc, defaultSwap := ?_ }, rfl, hcount⟩
      simp only [Daemon.register, Daemon.usmRegisterSwapPolicy, hrep.defaultSwap]

private theorem registerAll_spec {s : State} {d : Daemon} (hrep : Rep sip s d)
    (hmalloc : malloc.succeeds = true) (registrations : List Registration)
    (hsmall : s.allocPolicies.count + registrations.length < dibLimit) :
    ∃ s', State.each (State.register sip malloc) s registrations = .ok (some s') ∧
      Rep sip s' (registrations.foldl Daemon.register d) ∧ s'.linking = s.linking := by
  induction registrations generalizing s d with
  | nil => exact ⟨s, rfl, hrep, rfl⟩
  | cons registration rest ih =>
      rw [List.length_cons] at hsmall
      obtain ⟨s₁, hregister, hrep₁, hlinking₁, hcount⟩ :=
        register_spec hrep hmalloc (by omega) registration
      obtain ⟨s', heach, hrep', hlinking⟩ := ih hrep₁ (by omega)
      refine ⟨s', ?_, hrep', hlinking.trans hlinking₁⟩
      rw [State.each, hregister]
      exact heach

private theorem rep_initial (sip : Name → Nat) : Rep sip State.initial Daemon.initial where
  alloc := represents_new (policyCallbacks sip) Policy.name
    (show hashmapNewWithAllocator ⟨true, true⟩ 0 = some _ from rfl)
  swap := represents_new (policyCallbacks sip) Policy.name
    (show hashmapNewWithAllocator ⟨true, true⟩ 0 = some _ from rfl)
  linking := represents_new (plinkCallbacks sip) PLink.procName
    (show hashmapNewWithAllocator ⟨true, true⟩ 0 = some _ from rfl)
  defaultAlloc := rfl
  defaultSwap := rfl
  initThreshold := rfl
  thresholds := rfl

/-! ### Growth of the map of links -/

def growth (k : Nat) : Nat := 16 * 2 ^ k * 60 / 100

def Full (n : Nat) : Prop := ∃ k, n = growth k

private theorem growth_strictMono : StrictMono growth := by
  refine strictMono_nat_of_lt_succ fun k => ?_
  have hpos : 1 ≤ 2 ^ k := Nat.one_le_two_pow
  rw [growth, growth, Nat.pow_succ]
  omega

structure Sized (m : Hashmap PLink) : Prop where
  growpower : m.growpower = 1
  size : ∃ k, m.nbuckets = 16 * 2 ^ k ∧ m.growat = growth k ∧
    ∀ j < k, growth j < m.count

private theorem Sized.full_iff {m : Hashmap PLink} (h : Sized m) (hroom : m.count ≤ m.growat) :
    m.count = m.growat ↔ Full m.count := by
  obtain ⟨k, -, hgrowat, hbelow⟩ := h.size
  constructor
  · intro heq
    exact ⟨k, heq.trans hgrowat⟩
  · rintro ⟨j, hj⟩
    rw [hgrowat] at hroom ⊢
    rw [hj] at hroom hbelow
    have hjk : j ≤ k := growth_strictMono.le_iff_le.1 hroom
    rcases Nat.lt_or_eq_of_le hjk with hlt | rfl
    · exact absurd (hbelow j hlt) (Nat.lt_irrefl _)
    · exact hj

private theorem Sized.of_sameArray {m m' : Hashmap PLink} (h : Sized m) (harray : SameArray m m')
    (hcount : m.count ≤ m'.count) : Sized m' := by
  obtain ⟨k, hnbuckets, hgrowat, hbelow⟩ := h.size
  exact ⟨harray.growpower.trans h.growpower, k, harray.nbuckets.trans hnbuckets,
    harray.growat.trans hgrowat, fun j hj => Nat.lt_of_lt_of_le (hbelow j hj) hcount⟩

private theorem Sized.of_grown {m m' : Hashmap PLink} (h : Sized m) (harray : SameArray m.grown m')
    (hcount : m'.count = m.count + 1) : Sized m' := by
  by_cases hfull : m.count = m.growat
  · obtain ⟨k, hnbuckets, hgrowat, hbelow⟩ := h.size
    rw [grown, if_pos hfull] at harray
    have hsize : m'.nbuckets = 16 * 2 ^ (k + 1) := by
      rw [harray.nbuckets]
      simp only [withSize]
      rw [hnbuckets, h.growpower, Nat.mul_assoc, ← Nat.pow_add]
    refine ⟨harray.growpower.trans h.growpower, k + 1, hsize, ?_, ?_⟩
    · rw [growth, ← hsize, harray.nbuckets]
      exact harray.growat
    · intro j hj
      have hle : growth j ≤ growth k := growth_strictMono.monotone (by omega)
      omega
  · rw [grown, if_neg hfull] at harray
    exact h.of_sameArray harray (by omega)

/-! ### Links -/

section

variable {s : State} {d : Daemon} {m : Hashmap PLink} {f : Name → Option Link}

private theorem getLink_spec (h : Represents (plinkCallbacks sip) PLink.procName m (plinks f))
    (procName : Name) (link : Link) :
    (∃ q < m.nbuckets, ∃ found, m.hashmapGet (plinkCallbacks sip) ⟨procName, link⟩ = .ok (some q) ∧
      (m.buckets q).dib ≠ 0 ∧ (m.buckets q).val.item = ⟨procName, found⟩ ∧
      f procName = some found) ∨
    (m.hashmapGet (plinkCallbacks sip) ⟨procName, link⟩ = .ok none ∧ f procName = none ∧
      procName ∉ m.contents.map PLink.procName) := by
  obtain ⟨q, hq, hget, hlive, hmem, hname⟩ | ⟨hget, hnone⟩ :=
    hashmapGet_spec (keyed_byName sip PLink.procName) h.wf ⟨procName, link⟩
  · have hfound := (h.maps procName _).2 ⟨hmem, hname⟩
    cases hf : f procName with
    | none =>
        rw [plinks, hf] at hfound
        cases hfound
    | some found =>
        rw [plinks, hf, Option.map_some, Option.some.injEq] at hfound
        exact .inl ⟨q, hq, found, hget, hlive, hfound.symm, rfl⟩
  · have hnone' := h.maps.eq_none hnone
    cases hf : f procName with
    | none => exact .inr ⟨hget, rfl, hnone⟩
    | some found =>
        rw [plinks, hf] at hnone'
        cases hnone'

private theorem editLink_present
    (h : Represents (plinkCallbacks sip) PLink.procName s.linking (plinks f))
    {procName : Name} {link : Link} (hlink : f procName = some link) (fresh : Link)
    (edit : Link → Link) (hroom : s.linking.count ≠ s.linking.growat) :
    ∃ m, s.editLink sip malloc procName fresh edit = .ok (some { s with linking := m }) ∧
      Represents (plinkCallbacks sip) PLink.procName m
        (plinks (Function.update f procName (some (edit link)))) ∧
      SameArray s.linking m ∧ m.count = s.linking.count := by
  obtain ⟨q, hq, found, hget, hlive, hitem, hf⟩ | ⟨-, hnone, -⟩ :=
    getLink_spec h procName ⟨none, none, 0⟩
  · obtain rfl : found = link := Option.some.inj (hf.symm.trans hlink)
    have hk := keyed_byName sip PLink.procName
    have hname : (s.linking.buckets q).val.item.procName =
        (⟨procName, edit found⟩ : PLink).procName := by rw [hitem]
    obtain ⟨hwf, rest, hrest, hcontents⟩ := write_spec hk h.wf hq hlive hname
    have hmaps := h.maps
    have hnodup := h.wf.nodup
    rw [hrest] at hmaps hnodup
    obtain ⟨-, hmaps'⟩ := hmaps.replace hnodup hname
    have hset := hashmapSet_bucket hk hwf malloc (q := q) hq
      (by simp only [write, Function.update_self]; exact hlive) hroom
    refine ⟨_, ?_, ⟨hwf.of_oom false, ?_⟩, ⟨rfl, rfl, rfl⟩, rfl⟩
    · rw [State.editLink, hget]
      simp only [hitem, State.finishLink, plinkCallbacks, hset]
    · rw [plinks_update]
      exact (hcontents ▸ hmaps' : Maps _ (s.linking.write q ⟨procName, edit found⟩).contents _)
  · rw [hnone] at hlink
    cases hlink

private theorem editLink_freed
    (h : Represents (plinkCallbacks sip) PLink.procName s.linking (plinks f))
    {procName : Name} (hlink : f procName ≠ none) (fresh : Link) (edit : Link → Link)
    (hmalloc : malloc.succeeds = true) (hfull : s.linking.count = s.linking.growat) :
    s.editLink sip malloc procName fresh edit = .error .freed := by
  obtain ⟨q, hq, found, hget, hlive, hitem, hf⟩ | ⟨-, hnone, -⟩ :=
    getLink_spec h procName ⟨none, none, 0⟩
  · have hk := keyed_byName sip PLink.procName
    have hname : (s.linking.buckets q).val.item.procName =
        (⟨procName, edit found⟩ : PLink).procName := by rw [hitem]
    obtain ⟨hwf, -⟩ := write_spec hk h.wf hq hlive hname
    have hset := hashmapSet_bucket_freed hwf hmalloc q hfull
    rw [State.editLink, hget]
    simp only [hitem, State.finishLink, plinkCallbacks, hset]
  · exact absurd hnone hlink

private theorem editLink_new
    (h : Represents (plinkCallbacks sip) PLink.procName s.linking (plinks f))
    {procName : Name} (hlink : f procName = none) (fresh : Link) (edit : Link → Link)
    (hmalloc : malloc.succeeds = true) (hsmall : s.linking.count + 1 < dibLimit) :
    ∃ m, s.editLink sip malloc procName fresh edit = .ok (some { s with linking := m }) ∧
      Represents (plinkCallbacks sip) PLink.procName m
        (plinks (Function.update f procName (some (edit fresh)))) ∧
      SameArray s.linking.grown m ∧ m.count = s.linking.count + 1 := by
  obtain ⟨q, hq, found, hget, hlive, hitem, hf⟩ | ⟨hget, -, hnew⟩ :=
    getLink_spec h procName ⟨none, none, 0⟩
  · rw [hlink] at hf
    cases hf
  · obtain ⟨-, hfail, -⟩ | ⟨old, m, hset, hwf, hstores, harray, hoom⟩ :=
      hashmapSet_spec (keyed_byName sip PLink.procName) h.wf malloc ⟨procName, edit fresh⟩
        (fun _ => hsmall)
    · rw [hmalloc] at hfail
      cases hfail
    · obtain ⟨hold, hmaps⟩ := hstores.maps h.wf.nodup h.maps
      have hrep : Represents (plinkCallbacks sip) PLink.procName m
          (plinks (Function.update f procName (some (edit fresh)))) :=
        ⟨hwf, plinks_update f procName (edit fresh) ▸ hmaps⟩
      obtain ⟨q, -, -, hget', -⟩ | ⟨-, hnone, -⟩ := getLink_spec hrep procName ⟨none, none, 0⟩
      · refine ⟨m, ?_, hrep, harray, ?_⟩
        · rw [State.editLink, hget]
          have hnull : old = none := by
            rw [hold]
            simp [plinks, hlink]
          rw [hnull] at hset
          simp only [State.finishLink, plinkCallbacks] at hset hget' ⊢
          simp [hset, hoom, hget']
        · rw [← hwf.count, ← h.wf.count, hstores.eq_cons hnew, Multiset.card_cons]
      · simp at hnone

end

/-! ### Reading the configuration -/

/-- The maps represent the daemon, and `names` are the processes that have links. -/
structure Reads (sip : Name → Nat) (s : State) (d : Daemon) (names : Finset Name) : Prop where
  rep : Rep sip s d
  mem_iff (procName : Name) : procName ∈ names ↔ d.linking procName ≠ none
  sized : Sized s.linking

def Critical (names : Finset Name) (command : Command) : Prop :=
  ∃ procName, command.procName = some procName ∧ procName ∈ names ∧ Full names.card

section

variable {s : State} {d : Daemon} {names : Finset Name}

theorem Reads.count_eq (h : Reads sip s d names) : s.linking.count = names.card := by
  refine h.rep.linking.count_eq fun procName => ?_
  rw [h.mem_iff]
  simp [plinks]

private theorem Reads.full_iff (h : Reads sip s d names) :
    s.linking.count = s.linking.growat ↔ Full names.card := by
  rw [← h.count_eq]
  exact h.sized.full_iff h.rep.linking.wf.room

private theorem editLink_spec (h : Reads sip s d names) (hmalloc : malloc.succeeds = true)
    (hsmall : names.card + 1 < dibLimit) (procName : Name) (fresh : Link)
    (edit : Link → Link) :
    (procName ∈ names ∧ Full names.card →
      s.editLink sip malloc procName fresh edit = .error .freed) ∧
    (¬(procName ∈ names ∧ Full names.card) →
      ∃ s', s.editLink sip malloc procName fresh edit = .ok (some s') ∧
        Reads sip s' (d.setLink procName (edit ((d.linking procName).getD fresh)))
          (insert procName names)) := by
  have hmem : ∀ link name, name ∈ insert procName names ↔
      (d.setLink procName link).linking name ≠ none := by
    intro link name
    rw [Finset.mem_insert, h.mem_iff, Daemon.setLink]
    by_cases hname : name = procName
    · simp [hname]
    · simp [hname]
  constructor
  · rintro ⟨hlinked, hfull⟩
    exact editLink_freed h.rep.linking ((h.mem_iff procName).1 hlinked) fresh edit hmalloc
      (h.full_iff.2 hfull)
  · intro hsafe
    cases hlink : d.linking procName with
    | none =>
        obtain ⟨m, hedit, hlinking, harray, hcount⟩ := editLink_new h.rep.linking hlink fresh edit
          hmalloc (by rw [h.count_eq]; exact hsmall)
        exact ⟨_, hedit, { h.rep with linking := hlinking }, hmem _,
          h.sized.of_grown harray hcount⟩
    | some link =>
        have hlinked : procName ∈ names := (h.mem_iff procName).2 (by simp [hlink])
        obtain ⟨m, hedit, hlinking, harray, hcount⟩ := editLink_present h.rep.linking hlink fresh
          edit (fun hfull => hsafe ⟨hlinked, h.full_iff.1 hfull⟩)
        exact ⟨_, hedit, { h.rep with linking := hlinking }, hmem _,
          h.sized.of_sameArray harray hcount.ge⟩

variable (fresh : Name → Option Ops × Option Ops)

/-- What reading one line through the maps gives when the daemon of `Policies` gives `d?`. -/
def Expected (sip : Name → Nat) (names : Finset Name) (command : Command) (d? : Option Daemon)
    (result : Except Fault (Option State)) : Prop :=
  match d? with
  | none => result = .ok none
  | some next =>
      (Critical names command ∧ result = .error .freed) ∨
      (¬Critical names command ∧ ∃ s', result = .ok (some s') ∧
        Reads sip s' next (names ∪ command.procName.toFinset))

private theorem editLink_expected (h : Reads sip s d names) (hmalloc : malloc.succeeds = true)
    (hsmall : names.card + 1 < dibLimit) {command : Command} {procName : Name}
    (hname : command.procName = some procName) (link : Link) (edit : Link → Link) :
    Expected sip names command
      (some (d.setLink procName (edit ((d.linking procName).getD link))))
      (s.editLink sip malloc procName link edit) := by
  obtain ⟨hfreed, hedit⟩ := editLink_spec h hmalloc hsmall procName link edit
  have hcritical : Critical names command ↔ procName ∈ names ∧ Full names.card := by
    simp [Critical, hname]
  simp only [Expected, hcritical, hname, Option.toFinset_some, Finset.union_singleton]
  by_cases hboth : procName ∈ names ∧ Full names.card
  · exact .inl ⟨hboth, hfreed hboth⟩
  · exact .inr ⟨hboth, hedit hboth⟩

private theorem bindPolicy_expected (h : Reads sip s d names) (hmalloc : malloc.succeeds = true)
    (hsmall : names.card + 1 < dibLimit) {command : Command} {procName : Name}
    (hname : command.procName = some procName) {m : Hashmap Policy} {f : Name → Option Ops}
    (hm : Represents (policyCallbacks sip) Policy.name m (policies f)) (policy : Name)
    (link : Link) (edit : Ops → Link → Link) :
    Expected sip names command
      ((f policy).map fun ops =>
        d.setLink procName (edit ops ((d.linking procName).getD link)))
      (s.bindPolicy sip malloc m procName policy link edit) := by
  rw [State.bindPolicy, findPolicy_eq hm]
  cases f policy with
  | none => rfl
  | some ops => exact editLink_expected h hmalloc hsmall hname link (edit ops)

private theorem Reads.expected_of_rep {s' : State} {d' : Daemon} (h : Reads sip s d names)
    (hrep : Rep sip s' d') (hd : d'.linking = d.linking) (hs : s'.linking = s.linking)
    (command : Command) (hname : command.procName = none) :
    Expected sip names command (some d') (.ok (some s')) := by
  refine .inr ⟨?_, s', rfl, hrep, ?_, hs ▸ h.sized⟩
  · rintro ⟨procName, hsome, -⟩
    rw [hname] at hsome
    cases hsome
  · intro procName
    rw [hname, Option.toFinset_none, Finset.union_empty, hd]
    exact h.mem_iff procName

private theorem threshold_expected (h : Reads sip s d names) (percent policy : Name) :
    Expected sip names (.threshold percent policy) (d.thresholdLine percent policy)
      (s.command sip malloc fresh (.threshold percent policy)) := by
  simp only [State.command, Daemon.thresholdLine, findPolicy_eq h.rep.alloc]
  cases d.allocPolicies policy with
  | none => rfl
  | some ops =>
      have hrep : Rep sip
          { s with
            initThreshold := true
            allocPolicyThresholds := fun index =>
              if atoi percent ≤ index ∧ index < 100 then some ops
              else if s.initThreshold then s.allocPolicyThresholds index
              else some .defaultAlloc }
          { d with
            initThreshold := true
            allocPolicyThresholds := fun index =>
              if atoi percent ≤ index ∧ index < 100 then some ops
              else if d.initThreshold then d.allocPolicyThresholds index
              else some .defaultAlloc } :=
        { h.rep with
          initThreshold := rfl
          thresholds := by rw [h.rep.thresholds, h.rep.initThreshold] }
      exact h.expected_of_rep hrep rfl rfl (.threshold percent policy) rfl

private theorem process_expected (h : Reads sip s d names) (hmalloc : malloc.succeeds = true)
    (hsmall : names.card + 1 < dibLimit) (kind procName policy : Name) :
    Expected sip names (.process kind procName policy) (d.processLine fresh kind procName policy)
      (s.command sip malloc fresh (.process kind procName policy)) := by
  have hlink : d.processLink fresh procName =
      (d.linking procName).getD ⟨(fresh procName).1, (fresh procName).2, 0⟩ := by
    rw [Daemon.processLink]
    cases d.linking procName <;> rfl
  simp only [State.command, Daemon.processLine, hlink]
  by_cases halloc : kind = wordAlloc
  · rw [if_pos halloc, if_pos halloc]
    have hbind := bindPolicy_expected h hmalloc hsmall
      (show (Command.process kind procName policy).procName = some procName from rfl)
      h.rep.alloc policy ⟨(fresh procName).1, (fresh procName).2, 0⟩
      fun ops link => { link with allocPol := some ops }
    cases hpolicy : d.allocPolicies policy <;> rw [hpolicy] at hbind <;> exact hbind
  · rw [if_neg halloc, if_neg halloc]
    by_cases hswap : kind = wordSwap
    · rw [if_pos hswap, if_pos hswap]
      have hbind := bindPolicy_expected h hmalloc hsmall
        (show (Command.process kind procName policy).procName = some procName from rfl)
        h.rep.swap policy ⟨(fresh procName).1, (fresh procName).2, 0⟩
        fun ops link => { link with swpPol := some ops }
      cases hpolicy : d.swapPolicies policy <;> rw [hpolicy] at hbind <;> exact hbind
    · rw [if_neg hswap, if_neg hswap]
      rfl

private theorem command_expected (h : Reads sip s d names) (hmalloc : malloc.succeeds = true)
    (hsmall : names.card + 1 < dibLimit) (command : Command) :
    Expected sip names command (d.command fresh command) (s.command sip malloc fresh command) := by
  cases command with
  | skip => exact h.expected_of_rep h.rep rfl rfl .skip rfl
  | threshold percent policy => exact threshold_expected fresh h percent policy
  | process kind procName policy =>
      exact process_expected fresh h hmalloc hsmall kind procName policy
  | priority procName prio =>
      exact editLink_expected h hmalloc hsmall
        (show (Command.priority procName prio).procName = some procName from rfl)
        ⟨none, none, 0⟩ fun link => { link with prio := atoi prio }
  | unknown => rfl

/-- Some line of the file comes back to a linked process while the map of the links is full;
`d` and `names` are the daemon and its linked processes before the file. -/
def ReturnsWhenFull : Daemon → Finset Name → List (List Char) → Prop
  | _, _, [] => False
  | d, names, ln :: lines =>
      match d.command fresh (.ofLine ln) with
      | none => False
      | some next =>
          Critical names (.ofLine ln) ∨
            ReturnsWhenFull next (names ∪ (Command.ofLine ln).procName.toFinset) lines

private theorem readLines_spec (h : Reads sip s d names) (hmalloc : malloc.succeeds = true)
    (lines : List (List Char)) (hsmall : names.card + lines.length < dibLimit) :
    (ReturnsWhenFull fresh d names lines →
      State.each (fun s ln => s.command sip malloc fresh (.ofLine ln)) s lines =
        .error .freed) ∧
    (¬ReturnsWhenFull fresh d names lines →
      (d.usmSetAllocPolicyAssignmentStrategy fresh lines = none ∧
        State.each (fun s ln => s.command sip malloc fresh (.ofLine ln)) s lines = .ok none) ∨
      ∃ d' s', d.usmSetAllocPolicyAssignmentStrategy fresh lines = some d' ∧
        State.each (fun s ln => s.command sip malloc fresh (.ofLine ln)) s lines =
          .ok (some s') ∧ Rep sip s' d') := by
  induction lines generalizing s d names with
  | nil => exact ⟨fun hnever => hnever.elim, fun _ => .inr ⟨d, s, rfl, rfl, h.rep⟩⟩
  | cons ln lines ih =>
      rw [List.length_cons] at hsmall
      have hline := command_expected fresh h hmalloc (by omega) (.ofLine ln)
      simp only [ReturnsWhenFull, State.each, Daemon.usmSetAllocPolicyAssignmentStrategy]
      cases hnext : d.command fresh (.ofLine ln) with
      | none =>
          rw [hnext] at hline
          rw [show s.command sip malloc fresh (.ofLine ln) = .ok none from hline]
          exact ⟨fun hnever => hnever.elim, fun _ => .inl ⟨rfl, rfl⟩⟩
      | some next =>
          rw [hnext] at hline
          obtain ⟨hcritical, hfreed⟩ | ⟨hsafe, s', hstep, hreads⟩ := hline
          · rw [hfreed]
            exact ⟨fun _ => rfl, fun hnot => absurd (.inl hcritical) hnot⟩
          · have hcard : (names ∪ (Command.ofLine ln).procName.toFinset).card ≤
                names.card + 1 := by
              refine (Finset.card_union_le _ _).trans (Nat.add_le_add_left ?_ _)
              cases (Command.ofLine ln).procName <;> simp
            obtain ⟨hfull, hnot⟩ := ih hreads (by omega)
            rw [hstep]
            exact ⟨fun hreturns => hfull (hreturns.resolve_left hsafe),
              fun hnever => hnot fun hrest => hnever (.inr hrest)⟩

end

theorem registerAll_rep (sip : Name → Nat) {malloc : Malloc} (hmalloc : malloc.succeeds = true)
    {registrations : List Registration} (hsmall : registrations.length < dibLimit) :
    ∃ s, State.registerAll sip malloc registrations = .ok (some s) ∧
      Rep sip s (Daemon.registerAll registrations) ∧ s.linking = State.initial.linking :=
  registerAll_spec (rep_initial sip) hmalloc registrations
    (by rwa [show State.initial.allocPolicies.count = 0 from rfl, Nat.zero_add])

/-- With memory to spare, the daemon reads its configuration as it is meant if and only if
no line comes back to a linked process while 9, 19, 38, ... processes are linked.  Such a
line makes it read freed memory. -/
theorem boot_spec (sip : Name → Nat) (fresh : Name → Option Ops × Option Ops) {malloc : Malloc}
    (hmalloc : malloc.succeeds = true) {registrations : List Registration}
    (hregistrations : registrations.length < dibLimit) {lines : List (List Char)}
    (hlines : lines.length < dibLimit) :
    (ReturnsWhenFull fresh (Daemon.registerAll registrations) ∅ lines →
      State.boot sip malloc fresh registrations lines = .error .freed) ∧
    (¬ReturnsWhenFull fresh (Daemon.registerAll registrations) ∅ lines →
      ((Daemon.registerAll registrations).usmSetAllocPolicyAssignmentStrategy fresh lines = none ∧
        State.boot sip malloc fresh registrations lines = .ok none) ∨
      ∃ d s, (Daemon.registerAll registrations).usmSetAllocPolicyAssignmentStrategy fresh lines =
          some d ∧
        State.boot sip malloc fresh registrations lines = .ok (some s) ∧ Rep sip s d) := by
  obtain ⟨s, hregister, hrep, hlinking⟩ := registerAll_rep sip hmalloc hregistrations
  have hreads : Reads sip s (Daemon.registerAll registrations) ∅ := by
    refine ⟨hrep, ?_, ?_⟩
    · intro procName
      simp [registerAll_linking]
    · rw [hlinking]
      exact ⟨rfl, 0, rfl, rfl, fun j hj => absurd hj (Nat.not_lt_zero j)⟩
  have hread := readLines_spec fresh hreads hmalloc lines
    (by rw [Finset.card_empty, Nat.zero_add]; exact hlines)
  simp only [State.boot, hregister]
  exact hread

/-! ### The processes -/

private theorem findLink_eq {s : State} {d : Daemon} (hrep : Rep sip s d) (procName : Option Name) :
    s.findLink sip procName = .ok (procName.bind d.linking) := by
  cases procName with
  | none => rfl
  | some procName =>
      rw [State.findLink, Option.bind_some]
      obtain ⟨q, -, found, hget, -, hitem, hlink⟩ | ⟨hget, hnone, -⟩ :=
        getLink_spec hrep.linking procName ⟨none, none, 0⟩
      · rw [hget, hlink]
        simp only [Option.map_some, hitem]
      · rw [hget, hnone]
        rfl

theorem setUpAll_eq {s : State} {d : Daemon} (hrep : Rep sip s d) (events : List NewProc) :
    s.setUpAll sip events = .ok (d.setUpAll events) := by
  have hstep (procDescList : Fin maxProc → Process) (event : NewProc) :
      s.usmSetupProcess sip procDescList event = .ok (d.usmSetupProcess procDescList event) := by
    rw [State.usmSetupProcess, findLink_eq hrep, Daemon.usmSetupProcess]
    cases event.procName.bind d.linking <;> rfl
  rw [State.setUpAll, Daemon.setUpAll]
  generalize (fun _ => Process.initial : Fin maxProc → Process) = procDescList
  induction events generalizing procDescList with
  | nil => rfl
  | cons event events ih =>
      rw [List.foldlM_cons, hstep, List.foldl_cons]
      exact ih _

end UserPaging.Usm.PolicyMaps
