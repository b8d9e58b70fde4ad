import UserPaging.Usm.PolicyMaps

/-!
# Policy lookup through the maps

The lookup respects the kinds of policies if the daemon, with its hash maps, reads
every file that names registered policies, gives every process what the file says,
and never takes a policy of one kind for one of the other.

Four things stand in the way: a swap policy that is registered at all, a line that
comes back to a process while the map of the links is full, what the memory of a new
link held, and what an earlier process left in the descriptor.
-/

namespace UserPaging.Usm.PolicyLookup

open UserPaging.Foundation UserPaging.Usm.HashMap UserPaging.Usm.HashMap.Hashmap
open UserPaging.Usm.Policies UserPaging.Usm.PolicyMaps

/-- Policy lookup respects kinds, for one history of registrations, one file and the processes
that are set up afterwards. -/
structure KindsRespected (sip : Name → Nat) (malloc : Malloc)
    (fresh : Name → Option Ops × Option Ops) (registrations : List Registration)
    (cfg : List Line) (events : List NewProc) : Prop where
  defined : ∀ fault,
    State.boot sip malloc fresh registrations (cfg.map Line.text) ≠ .error fault
  accepted : (∀ line ∈ cfg, line.Resolves registrations) →
    State.boot sip malloc fresh registrations (cfg.map Line.text) ≠ .ok none
  setup : ∀ s, State.boot sip malloc fresh registrations (cfg.map Line.text) = .ok (some s) →
    ∀ before event after, events = before ++ event :: after →
      ∃ procDescList, s.setUpAll sip (before ++ [event]) = .ok procDescList ∧
        RunsAsConfigured registrations cfg procDescList event
  separate : ∀ s, State.registerAll sip malloc registrations = .ok (some s) → ∀ name,
    (lastAlloc registrations name = none →
      State.findPolicy sip s.allocPolicies name = .ok none) ∧
    (lastSwap registrations name = none → State.findPolicy sip s.swapPolicies name = .ok none)
  frame : ∀ before registration after s next,
    registrations = before ++ registration :: after →
    State.registerAll sip malloc before = .ok (some s) →
    State.registerAll sip malloc (before ++ [registration]) = .ok (some next) → ∀ name,
      if registration.isAlloc then
        State.findPolicy sip next.swapPolicies name = State.findPolicy sip s.swapPolicies name
      else
        State.findPolicy sip next.allocPolicies name = State.findPolicy sip s.allocPolicies name

def named (cfg : List Line) : Finset Name := (cfg.filterMap Line.procName).toFinset

def ComesBackWhenFull (before : List Line) (line : Line) : Prop :=
  ∃ procName, line.procName = some procName ∧ procName ∈ named before ∧ Full (named before).card

section

variable {fresh : Name → Option Ops × Option Ops} {registrations : List Registration}

private theorem named_append (cfg : List Line) (line : Line) :
    named (cfg ++ [line]) = named cfg ∪ line.procName.toFinset := by
  rw [named, List.filterMap_append, List.toFinset_append, named]
  cases hname : line.procName <;> simp [hname]

private def LaterComesBack (registrations : List Registration) (done left : List Line) : Prop :=
  ∃ before line after, left = before ++ line :: after ∧
    (∀ l ∈ before ++ [line], l.Resolves registrations) ∧ ComesBackWhenFull (done ++ before) line

private theorem laterComesBack_cons {done left : List Line} {line : Line} :
    LaterComesBack registrations done (line :: left) ↔
      line.Resolves registrations ∧
        (ComesBackWhenFull done line ∨ LaterComesBack registrations (done ++ [line]) left) := by
  constructor
  · rintro ⟨before, last, after, heq, hresolves, hback⟩
    cases before with
    | nil =>
        obtain ⟨rfl, rfl⟩ := List.cons.inj heq
        exact ⟨hresolves line (by simp), .inl (by simpa using hback)⟩
    | cons first before =>
        obtain ⟨rfl, rfl⟩ := List.cons.inj heq
        refine ⟨hresolves line (by simp), .inr ⟨before, last, after, rfl, ?_, by simpa using hback⟩⟩
        exact fun l hl => hresolves l (List.mem_cons_of_mem _ hl)
  · rintro ⟨hline, hback | ⟨before, last, after, rfl, hresolves, hback⟩⟩
    · exact ⟨[], line, left, rfl, by simpa using hline, by simpa using hback⟩
    · refine ⟨line :: before, last, after, rfl, ?_, by simpa using hback⟩
      intro l hl
      obtain rfl | hl := List.mem_cons.1 hl
      · exact hline
      · exact hresolves l hl

private theorem returnsWhenFull_iff
    (halloc : ∀ registration ∈ registrations, registration.isAlloc = true)
    {done : List Line} {d : Daemon} (hdone : launch fresh registrations done = some d)
    (left : List Line) :
    ReturnsWhenFull fresh d (named done) (left.map Line.text) ↔
      LaterComesBack registrations done left := by
  induction left generalizing done d with
  | nil => simp [ReturnsWhenFull, LaterComesBack]
  | cons line left ih =>
      have hlinked := launch_linked fresh halloc done hdone
      have hsome := hlinked.command_isSome halloc line
      rw [List.map_cons, laterComesBack_cons, ReturnsWhenFull, Line.ofLine_text]
      cases hnext : d.command fresh line.command with
      | none =>
          rw [hnext] at hsome
          exact iff_of_false id fun hboth => by simpa using hsome.2 hboth.1
      | some next =>
          rw [hnext] at hsome
          have hlaunch : launch fresh registrations (done ++ [line]) = some next := by
            rw [launch_append, hdone]
            exact hnext
          have hrest := ih hlaunch
          rw [named_append] at hrest
          rw [and_iff_right (hsome.1 rfl), ← hrest]
          exact Iff.rfl

end

section

variable {sip : Name → Nat} {malloc : Malloc} {fresh : Name → Option Ops × Option Ops}
  {registrations : List Registration} {cfg : List Line} {events : List NewProc}

private theorem isAlloc_of_kindsRespected (hmalloc : malloc.succeeds = true)
    (hregistrations : registrations.length < dibLimit)
    (h : KindsRespected sip malloc fresh registrations cfg events) :
    ∀ registration ∈ registrations, registration.isAlloc = true := by
  apply isAlloc_of_frame
  intro before registration after heq hswap
  have hlength : (before ++ [registration]).length ≤ registrations.length := by
    rw [heq]
    simp
  obtain ⟨s, hs, hrep, -⟩ := registerAll_rep sip hmalloc
    (show before.length < dibLimit by simp at hlength; omega)
  obtain ⟨next, hnext, hrep', -⟩ := registerAll_rep sip hmalloc
    (Nat.lt_of_le_of_lt hlength hregistrations)
  funext name
  have hframe := h.frame before registration after s next heq hs hnext name
  rw [hswap, if_neg Bool.false_ne_true, findPolicy_eq hrep.alloc, findPolicy_eq hrep'.alloc]
    at hframe
  exact Except.ok.inj hframe

private theorem separate_of_isAlloc (hmalloc : malloc.succeeds = true)
    (hregistrations : registrations.length < dibLimit)
    (halloc : ∀ registration ∈ registrations, registration.isAlloc = true) {s : State}
    (hs : State.registerAll sip malloc registrations = .ok (some s)) (name : Name) :
    (lastAlloc registrations name = none →
      State.findPolicy sip s.allocPolicies name = .ok none) ∧
    (lastSwap registrations name = none →
      State.findPolicy sip s.swapPolicies name = .ok none) := by
  obtain ⟨s', hs', hrep, -⟩ := registerAll_rep sip hmalloc hregistrations
  rw [hs] at hs'
  cases hs'
  rw [findPolicy_eq hrep.alloc, findPolicy_eq hrep.swap, registerAll_allocPolicies halloc,
    registerAll_swapPolicies]
  refine ⟨?_, fun _ => rfl⟩
  intro hnone
  rw [hnone]
  rfl

private theorem frame_of_isAlloc (hmalloc : malloc.succeeds = true)
    (hregistrations : registrations.length < dibLimit) {before : List Registration}
    {registration : Registration} (hlength : (before ++ [registration]).length ≤
      registrations.length) {s next : State}
    (hs : State.registerAll sip malloc before = .ok (some s))
    (hnext : State.registerAll sip malloc (before ++ [registration]) = .ok (some next))
    (name : Name) :
    State.findPolicy sip next.swapPolicies name = State.findPolicy sip s.swapPolicies name := by
  obtain ⟨s₁, hs₁, hrep₁, -⟩ := registerAll_rep sip hmalloc
    (show before.length < dibLimit by simp at hlength; omega)
  obtain ⟨s₂, hs₂, hrep₂, -⟩ := registerAll_rep sip hmalloc
    (Nat.lt_of_le_of_lt hlength hregistrations)
  rw [hs] at hs₁
  rw [hnext] at hs₂
  cases hs₁
  cases hs₂
  rw [findPolicy_eq hrep₁.swap, findPolicy_eq hrep₂.swap, registerAll_swapPolicies,
    registerAll_swapPolicies]

/-- The daemon gets through a file of well-formed lines, or stops at one that it cannot carry
out, if no line comes back while the map of the links is full. -/
private theorem boot_iff (sip : Name → Nat) (fresh : Name → Option Ops × Option Ops)
    (hmalloc : malloc.succeeds = true)
    (hregistrations : registrations.length < dibLimit) (hcfg : cfg.length < dibLimit)
    (halloc : ∀ registration ∈ registrations, registration.isAlloc = true) :
    (LaterComesBack registrations [] cfg →
      State.boot sip malloc fresh registrations (cfg.map Line.text) = .error .freed) ∧
    (¬LaterComesBack registrations [] cfg →
      (launch fresh registrations cfg = none ∧
        State.boot sip malloc fresh registrations (cfg.map Line.text) = .ok none) ∨
      ∃ d s, launch fresh registrations cfg = some d ∧
        State.boot sip malloc fresh registrations (cfg.map Line.text) = .ok (some s) ∧
        Rep sip s d) := by
  have hstart : launch fresh registrations [] = some (Daemon.registerAll registrations) := rfl
  rw [← returnsWhenFull_iff halloc hstart cfg]
  exact boot_spec sip fresh hmalloc hregistrations (by rwa [List.length_map])

/-- In a file that is carried out, the processes run as configured if they find their links and
descriptors clean. -/
private theorem setup_iff {d : Daemon} {s : State}
    (halloc : ∀ registration ∈ registrations, registration.isAlloc = true)
    (hresolves : ∀ line ∈ cfg, line.Resolves registrations)
    (hlaunch : launch fresh registrations cfg = some d) (hrep : Rep sip s d)
    (events : List NewProc) :
    (∀ before event after, events = before ++ event :: after →
      ∃ procDescList, s.setUpAll sip (before ++ [event]) = .ok procDescList ∧
        RunsAsConfigured registrations cfg procDescList event) ↔
      ∀ before event after, events = before ++ event :: after →
        CleanLink fresh cfg event ∧ CleanDescriptor cfg before event := by
  have hlinked := launch_linked fresh halloc cfg hlaunch
  rw [← hlinked.all_runAsConfigured_iff halloc hresolves events]
  constructor
  · intro hruns before event after heq
    obtain ⟨procDescList, hsetup, hrun⟩ := hruns before event after heq
    rw [setUpAll_eq hrep] at hsetup
    cases hsetup
    exact hrun
  · exact fun hruns before event after heq =>
      ⟨_, setUpAll_eq hrep _, hruns before event after heq⟩

private theorem resolves_of_launch {d : Daemon}
    (halloc : ∀ registration ∈ registrations, registration.isAlloc = true)
    (hlaunch : launch fresh registrations cfg = some d) :
    ∀ line ∈ cfg, line.Resolves registrations := by
  refine (launch_isSome fresh halloc cfg).1 ?_
  rw [hlaunch]
  rfl

private theorem kindsRespected_of_clean (hmalloc : malloc.succeeds = true)
    (hregistrations : registrations.length < dibLimit) (hcfg : cfg.length < dibLimit)
    (halloc : ∀ registration ∈ registrations, registration.isAlloc = true)
    (hnever : ¬LaterComesBack registrations [] cfg)
    (hclean : (∀ line ∈ cfg, line.Resolves registrations) →
      ∀ before event after, events = before ++ event :: after →
        CleanLink fresh cfg event ∧ CleanDescriptor cfg before event) :
    KindsRespected sip malloc fresh registrations cfg events := by
  have hread := (boot_iff sip fresh hmalloc hregistrations hcfg halloc).2 hnever
  refine ⟨?_, ?_, ?_, ?_, ?_⟩
  · intro fault hfault
    obtain ⟨-, hboot⟩ | ⟨d, s, -, hboot, -⟩ := hread <;> rw [hboot] at hfault <;> cases hfault
  · intro hresolves hnone
    obtain ⟨hlaunch, -⟩ | ⟨d, s, -, hboot, -⟩ := hread
    · have hsome := (launch_isSome fresh halloc cfg).2 hresolves
      rw [hlaunch] at hsome
      cases hsome
    · rw [hboot] at hnone
      cases hnone
  · intro s hboot
    obtain ⟨-, hnone⟩ | ⟨d, s', hlaunch, hboot', hrep⟩ := hread
    · rw [hnone] at hboot
      cases hboot
    · rw [hboot'] at hboot
      cases hboot
      have hresolves := resolves_of_launch halloc hlaunch
      exact (setup_iff halloc hresolves hlaunch hrep events).2 (hclean hresolves)
  · exact fun s hs name => separate_of_isAlloc hmalloc hregistrations halloc hs name
  · intro before registration after s next heq hs hnext name
    have hlength : (before ++ [registration]).length ≤ registrations.length := by
      rw [heq]
      simp
    rw [if_pos (halloc registration (by simp [heq]))]
    exact frame_of_isAlloc hmalloc hregistrations hlength hs hnext name

/-- Policy lookup respects kinds exactly when no swap policy is registered, no line that the
daemon gets to comes back to a process while the map of the links is full, and, in a file that
can be carried out, every process finds its link and its descriptor clean. -/
theorem kindsRespected_iff (hmalloc : malloc.succeeds = true)
    (hregistrations : registrations.length < dibLimit) (hcfg : cfg.length < dibLimit) :
    KindsRespected sip malloc fresh registrations cfg events ↔
      (∀ registration ∈ registrations, registration.isAlloc = true) ∧
      (∀ before line after, cfg = before ++ line :: after →
        (∀ l ∈ before ++ [line], l.Resolves registrations) → ¬ComesBackWhenFull before line) ∧
      ((∀ line ∈ cfg, line.Resolves registrations) →
        ∀ before event after, events = before ++ event :: after →
          CleanLink fresh cfg event ∧ CleanDescriptor cfg before event) := by
  constructor
  · intro h
    have halloc := isAlloc_of_kindsRespected hmalloc hregistrations h
    obtain ⟨hfreed, hread⟩ := boot_iff sip fresh hmalloc hregistrations hcfg halloc
    have hnever : ¬LaterComesBack registrations [] cfg :=
      fun hback => h.defined .freed (hfreed hback)
    refine ⟨halloc, ?_, ?_⟩
    · intro before line after heq hresolves hback
      exact hnever ⟨before, line, after, heq, hresolves, hback⟩
    · intro hresolves
      obtain ⟨-, hnone⟩ | ⟨d, s, hlaunch, hboot, hrep⟩ := hread hnever
      · exact absurd hnone (h.accepted hresolves)
      · exact (setup_iff halloc hresolves hlaunch hrep events).1 (h.setup s hboot)
  · rintro ⟨halloc, hback, hclean⟩
    refine kindsRespected_of_clean hmalloc hregistrations hcfg halloc ?_ hclean
    rintro ⟨before, line, after, heq, hresolves, hfull⟩
    exact hback before line after heq hresolves hfull

end

/-! ### The policies of the repository -/

def policyOne : Name := ['p', 'o', 'l', 'i', 'c', 'y', 'O', 'n', 'e']

def basicPolicy : Name := ['b', 'a', 's', 'i', 'c', 'P', 'o', 'l', 'i', 'c', 'y']

def doublePolicy : Name := ['d', 'o', 'u', 'b', 'l', 'e', 'P', 'o', 'l', 'i', 'c', 'y']

def basicSwapPolicy : Name := ['b', 'a', 's', 'i', 'c', '_', 'p', 'o', 'l', 'i', 'c', 'y']

/-- What the two `policiesSet1_setup` functions register, in the order of `usm_launch`. -/
def policiesSet1 : List Registration :=
  [.alloc 0 policyOne true, .alloc 1 basicPolicy false, .alloc 2 doublePolicy false,
    .swap 0 policyOne false, .swap 1 basicSwapPolicy true]

def redis : Name := ['r', 'e', 'd', 'i', 's']

def redisLine : Line :=
  .processAlloc ⟨⟨redis, by decide, solid_of_all (by decide)⟩, by decide⟩
    ⟨⟨policyOne, by decide, solid_of_all (by decide)⟩, by decide⟩

def redisProcess : NewProc := ⟨⟨3, by decide⟩, some redis⟩

theorem kindsRespected_iff_redis :
    KindsRespected (fun _ => 0) ⟨true, true⟩ (fun _ => (none, none)) (policiesSet1.take 3)
      [redisLine] [redisProcess, redisProcess] := by
  refine (kindsRespected_iff rfl (by decide) (by decide)).2 ⟨by decide, ?_, ?_⟩
  · intro before line after heq hresolves
    obtain ⟨rfl, -, -⟩ : before = [] ∧ line = redisLine ∧ after = [] := by
      cases before with
      | nil => simpa [eq_comm] using heq
      | cons first before => simp at heq
    rintro ⟨procName, -, hmem, -⟩
    simp [named] at hmem
  · intro _ before event after heq
    have hmem : event ∈ [redisProcess, redisProcess] := by
      rw [heq]
      simp
    obtain rfl : event = redisProcess := by simpa using hmem
    refine ⟨fun _ _ _ => rfl, fun hnone => ?_⟩
    cases hnone

theorem policiesSet1_mixes_kinds :
    ∃ s procDescList, State.boot (fun _ => 0) ⟨true, true⟩ (fun _ => (none, none)) policiesSet1
        [redisLine.text] = .ok (some s) ∧
      s.setUpAll (fun _ => 0) [redisProcess] = .ok procDescList ∧
      (procDescList redisProcess.origin).allocPolicy = .swap 0 ∧
      expectedAlloc policiesSet1 [redisLine] (some redis) = .alloc 0 := by
  have hread := boot_spec (fun _ => 0) (fun _ => (none, none))
    (show Malloc.succeeds ⟨true, true⟩ = true from rfl)
    (show policiesSet1.length < dibLimit by decide)
    (show [redisLine.text].length < dibLimit by decide)
  have hnever : ¬ReturnsWhenFull (fun _ => (none, none)) (Daemon.registerAll policiesSet1) ∅
      [redisLine.text] := by
    rw [ReturnsWhenFull]
    split
    · exact id
    · rintro (⟨procName, -, hmem, -⟩ | hnil)
      · simp at hmem
      · exact hnil
  obtain ⟨hnone, -⟩ | ⟨d, s, hlaunch, hboot, hrep⟩ := hread.2 hnever
  · cases hnone
  · refine ⟨s, d.setUpAll [redisProcess], hboot, setUpAll_eq hrep _, ?_, rfl⟩
    cases hlaunch
    rfl

end UserPaging.Usm.PolicyLookup
