import Mathlib.Data.List.Induction
import UserPaging.Usm.Policies

/-!
# Policy lookup and the kinds of policies

What a process should run with is a matter of the last registration of the right
kind under the name that the last line of the right kind gives.  Every registration
of a swap policy changes what an allocation name resolves to.  A link made by a
`process` line starts with whatever its memory held, and a process without a line of
its own runs with what the last process left in its descriptor.
-/

namespace UserPaging.Usm.Policies

open UserPaging.Foundation

/-! ### What the registrations and the file say -/

def Registration.isAlloc : Registration → Bool
  | .alloc _ _ _ => true
  | .swap _ _ _ => false

def lastAlloc (registrations : List Registration) (name : Name) : Option Nat :=
  let update := fun (found : Option Nat) (registration : Registration) =>
    match registration with
    | .alloc ops name' _ => if name' = name then some ops else found
    | .swap _ _ _ => found
  registrations.foldl update none

def lastSwap (registrations : List Registration) (name : Name) : Option Nat :=
  let update := fun (found : Option Nat) (registration : Registration) =>
    match registration with
    | .alloc _ _ _ => found
    | .swap ops name' _ => if name' = name then some ops else found
  registrations.foldl update none

/-- The policy name in the last `process alloc` line of the process. -/
def lastProcessAlloc (cfg : List Line) (procName : Name) : Option Name :=
  let update := fun (found : Option Name) (line : Line) =>
    match line with
    | .processAlloc procName' policy =>
        if procName'.chars = procName then some policy.chars else found
    | .threshold _ _ | .processSwap _ _ | .priority _ _ => found
  cfg.foldl update none

/-- The policy name in the last `process swap` line of the process. -/
def lastProcessSwap (cfg : List Line) (procName : Name) : Option Name :=
  let update := fun (found : Option Name) (line : Line) =>
    match line with
    | .processSwap procName' policy =>
        if procName'.chars = procName then some policy.chars else found
    | .threshold _ _ | .processAlloc _ _ | .priority _ _ => found
  cfg.foldl update none

def expectedAlloc (registrations : List Registration) (cfg : List Line)
    (procName : Option Name) : Ops :=
  match (procName.bind (lastProcessAlloc cfg)).bind (lastAlloc registrations) with
  | some ops => .alloc ops
  | none => .defaultAlloc

def expectedSwap (registrations : List Registration) (cfg : List Line)
    (procName : Option Name) : Ops :=
  match (procName.bind (lastProcessSwap cfg)).bind (lastSwap registrations) with
  | some ops => .swap ops
  | none => .defaultSwap

/-- The line names a policy that has been registered as the kind the line asks for. -/
def Line.Resolves (registrations : List Registration) : Line → Prop
  | .threshold _ policy | .processAlloc _ policy => lastAlloc registrations policy.chars ≠ none
  | .processSwap _ policy => lastSwap registrations policy.chars ≠ none
  | .priority _ _ => True

def launch (fresh : Name → Option Ops × Option Ops) (registrations : List Registration)
    (cfg : List Line) : Option Daemon :=
  (Daemon.registerAll registrations).usmSetAllocPolicyAssignmentStrategy fresh (cfg.map Line.text)

def Line.procName (line : Line) : Option Name := line.command.procName

def Line.isProcess : Line → Bool
  | .processAlloc _ _ | .processSwap _ _ => true
  | .threshold _ _ | .priority _ _ => false

/-- Whether the first line about the process is a `process` line, if there is one. -/
def firstIsProcess (cfg : List Line) (procName : Name) : Option Bool :=
  (cfg.find? fun line => decide (line.procName = some procName)).map Line.isProcess

/-- The link of the process was not made by a `process` line, or its memory held no swap
policy but the default one. -/
def CleanLink (fresh : Name → Option Ops × Option Ops) (cfg : List Line) (event : NewProc) :
    Prop :=
  ∀ procName, event.procName = some procName → firstIsProcess cfg procName = some true →
    (fresh procName).2.getD .defaultSwap = .defaultSwap

/-- The process has a `process alloc` line, or no process with one had its descriptor. -/
def CleanDescriptor (cfg : List Line) (before : List NewProc) (event : NewProc) : Prop :=
  event.procName.bind (lastProcessAlloc cfg) = none →
    ∀ earlier ∈ before, earlier.origin = event.origin →
      earlier.procName.bind (lastProcessAlloc cfg) = none

/-! ### Registrations -/

private theorem registerAll_append (registrations : List Registration)
    (registration : Registration) :
    Daemon.registerAll (registrations ++ [registration]) =
      (Daemon.registerAll registrations).register registration := by
  simp only [Daemon.registerAll, List.foldl_append, List.foldl_cons, List.foldl_nil]

private theorem lastAlloc_append_alloc (registrations : List Registration) (ops : Nat)
    (name name' : Name)
    (isDefault : Bool) :
    lastAlloc (registrations ++ [.alloc ops name' isDefault]) name =
      if name' = name then some ops else lastAlloc registrations name := by
  simp only [lastAlloc, List.foldl_append, List.foldl_cons, List.foldl_nil]

theorem registerAll_swapPolicies (registrations : List Registration) (name : Name) :
    (Daemon.registerAll registrations).swapPolicies name = none := by
  induction registrations using List.reverseRecOn with
  | nil => rfl
  | append_singleton registrations registration ih =>
      rw [registerAll_append]
      cases registration <;> exact ih

theorem registerAll_linking (registrations : List Registration) (procName : Name) :
    (Daemon.registerAll registrations).linking procName = none := by
  induction registrations using List.reverseRecOn with
  | nil => rfl
  | append_singleton registrations registration ih =>
      rw [registerAll_append]
      cases registration <;> exact ih

theorem registerAll_allocPolicies {registrations : List Registration}
    (halloc : ∀ registration ∈ registrations, registration.isAlloc = true) (name : Name) :
    (Daemon.registerAll registrations).allocPolicies name =
      (lastAlloc registrations name).map .alloc := by
  induction registrations using List.reverseRecOn with
  | nil => rfl
  | append_singleton registrations registration ih =>
      have hbefore := ih fun r hr => halloc r (List.mem_append_left _ hr)
      have hlast := halloc registration (by simp)
      rw [registerAll_append]
      cases registration with
      | swap ops name' isDefault => cases hlast
      | alloc ops name' isDefault =>
          rw [lastAlloc_append_alloc]
          simp only [Daemon.register, Daemon.usmRegisterAllocPolicy]
          by_cases hname : name' = name
          · subst hname
            simp
          · rw [Function.update_of_ne (Ne.symm hname), if_neg hname]
            exact hbefore

private theorem lastSwap_eq_none {registrations : List Registration}
    (halloc : ∀ registration ∈ registrations, registration.isAlloc = true) (name : Name) :
    lastSwap registrations name = none := by
  induction registrations using List.reverseRecOn with
  | nil => rfl
  | append_singleton registrations registration ih =>
      have hbefore := ih fun r hr => halloc r (List.mem_append_left _ hr)
      have hlast := halloc registration (by simp)
      cases registration with
      | swap ops name' isDefault => cases hlast
      | alloc ops name' isDefault =>
          simpa [lastSwap, List.foldl_append] using hbefore

theorem isAlloc_of_frame {registrations : List Registration}
    (hframe : ∀ before registration after, registrations = before ++ registration :: after →
      registration.isAlloc = false →
        (Daemon.registerAll (before ++ [registration])).allocPolicies =
          (Daemon.registerAll before).allocPolicies) :
    ∀ registration ∈ registrations, registration.isAlloc = true := by
  induction registrations using List.reverseRecOn with
  | nil => simp
  | append_singleton registrations registration ih =>
      have hbefore : ∀ r ∈ registrations, r.isAlloc = true := by
        apply ih
        intro before r after heq
        apply hframe before r (after ++ [registration])
        simp [heq]
      intro r hr
      rw [List.mem_append, List.mem_singleton] at hr
      obtain hr | rfl := hr
      · exact hbefore r hr
      · cases r with
        | alloc ops name isDefault => rfl
        | swap ops name isDefault =>
            have hsame := congrFun (hframe registrations _ [] rfl rfl) name
            rw [registerAll_append, registerAll_allocPolicies hbefore] at hsame
            cases hlast : lastAlloc registrations name <;>
              simp [Daemon.register, Daemon.usmRegisterSwapPolicy, hlast] at hsame

/-! ### The file -/

theorem launch_append (fresh : Name → Option Ops × Option Ops)
    (registrations : List Registration) (cfg : List Line) (line : Line) :
    launch fresh registrations (cfg ++ [line]) =
      (launch fresh registrations cfg).bind (Daemon.command fresh · line.command) := by
  unfold launch
  generalize Daemon.registerAll registrations = s
  induction cfg generalizing s with
  | nil =>
      simp only [List.nil_append, List.map_cons, List.map_nil,
        Daemon.usmSetAllocPolicyAssignmentStrategy, Line.ofLine_text, Option.bind_some]
      cases s.command fresh line.command <;> rfl
  | cons first cfg ih =>
      simp only [List.cons_append, List.map_cons, Daemon.usmSetAllocPolicyAssignmentStrategy,
        Line.ofLine_text]
      cases s.command fresh first.command with
      | none => rfl
      | some next => exact ih next

/-- What the daemon holds after the lines, when only allocation policies are registered. -/
structure Linked (fresh : Name → Option Ops × Option Ops) (registrations : List Registration)
    (cfg : List Line) (s : Daemon) : Prop where
  allocPolicies : ∀ name, s.allocPolicies name = (lastAlloc registrations name).map .alloc
  swapPolicies : ∀ name, s.swapPolicies name = none
  alloc : ∀ procName, (s.linking procName).bind Link.allocPol =
    ((lastProcessAlloc cfg procName).bind (lastAlloc registrations)).map .alloc
  swap : ∀ procName, (s.linking procName).map Link.swpPol =
    (firstIsProcess cfg procName).map fun isProcess =>
      if isProcess then (fresh procName).2 else none

private theorem lastProcessAlloc_append (cfg : List Line) (line : Line) (procName : Name) :
    lastProcessAlloc (cfg ++ [line]) procName =
      match line with
      | .processAlloc procName' policy =>
          if procName'.chars = procName then some policy.chars else lastProcessAlloc cfg procName
      | .threshold _ _ | .processSwap _ _ | .priority _ _ => lastProcessAlloc cfg procName := by
  simp only [lastProcessAlloc, List.foldl_append, List.foldl_cons, List.foldl_nil]

private theorem firstIsProcess_append (cfg : List Line) (line : Line) (procName : Name) :
    firstIsProcess (cfg ++ [line]) procName =
      (firstIsProcess cfg procName).or
        (if line.procName = some procName then some line.isProcess else none) := by
  unfold firstIsProcess
  rw [List.find?_append]
  cases hfirst : cfg.find? fun line => decide (line.procName = some procName) with
  | some first => rfl
  | none => by_cases hname : line.procName = some procName <;> simp [hname]

private theorem firstIsProcess_append_of_ne {cfg : List Line} {line : Line} {procName : Name}
    (hne : line.procName ≠ some procName) :
    firstIsProcess (cfg ++ [line]) procName = firstIsProcess cfg procName := by
  rw [firstIsProcess_append, if_neg hne, Option.or_none]

/-- If every line can be carried out, the policy of a process's last `process alloc` line
has been registered. -/
private theorem lastAlloc_of_lastProcessAlloc {registrations : List Registration} {cfg : List Line}
    (hresolves : ∀ line ∈ cfg, line.Resolves registrations) {procName policy : Name}
    (hlast : lastProcessAlloc cfg procName = some policy) :
    lastAlloc registrations policy ≠ none := by
  induction cfg using List.reverseRecOn with
  | nil => cases hlast
  | append_singleton cfg line ih =>
      have hbefore := ih fun l hl => hresolves l (List.mem_append_left _ hl)
      have hline := hresolves line (by simp)
      rw [lastProcessAlloc_append] at hlast
      cases line with
      | processAlloc procName' policy' =>
          dsimp only at hlast
          split at hlast
          · cases hlast
            exact hline
          · exact hbefore hlast
      | threshold _ _ | processSwap _ _ | priority _ _ => exact hbefore hlast

namespace Linked

variable {fresh : Name → Option Ops × Option Ops} {registrations : List Registration}
  {cfg : List Line} {s : Daemon}

private theorem initial (halloc : ∀ registration ∈ registrations, registration.isAlloc = true) :
    Linked fresh registrations [] (Daemon.registerAll registrations) where
  allocPolicies := registerAll_allocPolicies halloc
  swapPolicies := registerAll_swapPolicies registrations
  alloc procName := by rw [registerAll_linking]; rfl
  swap procName := by rw [registerAll_linking]; rfl

private theorem threshold (h : Linked fresh registrations cfg s) {percent : Percentage}
    {policy : Argument}
    {next : Daemon} (hnext : s.thresholdLine percent.chars policy.chars = some next) :
    Linked fresh registrations (cfg ++ [.threshold percent policy]) next := by
  simp only [Daemon.thresholdLine] at hnext
  cases hpolicy : s.allocPolicies policy.chars with
  | none => simp [hpolicy] at hnext
  | some ops =>
      simp only [hpolicy, Option.some.injEq] at hnext
      subst hnext
      exact ⟨h.allocPolicies, h.swapPolicies,
        fun procName => by rw [lastProcessAlloc_append]; exact h.alloc procName,
        fun procName => by
          rw [firstIsProcess_append_of_ne (by simp [Line.procName, Line.command, Command.procName])]
          exact h.swap procName⟩

private theorem processAlloc (h : Linked fresh registrations cfg s) {procName policy : Argument}
    {next : Daemon}
    (hnext : s.processLine fresh wordAlloc procName.chars policy.chars = some next) :
    Linked fresh registrations (cfg ++ [.processAlloc procName policy]) next := by
  simp only [Daemon.processLine, if_true, h.allocPolicies] at hnext
  cases hpolicy : lastAlloc registrations policy.chars with
  | none => simp [hpolicy] at hnext
  | some ops =>
      simp only [hpolicy, Option.map_some, Option.some.injEq] at hnext
      subst hnext
      have hline : (Line.processAlloc procName policy).procName = some procName.chars := rfl
      refine ⟨h.allocPolicies, h.swapPolicies, ?_, ?_⟩
      · intro name
        rw [lastProcessAlloc_append]
        by_cases hname : procName.chars = name
        · subst hname
          simp [Daemon.setLink, hpolicy]
        · simp only [Daemon.setLink, if_neg hname, Function.update_of_ne (Ne.symm hname)]
          exact h.alloc name
      · intro name
        have hswap := h.swap name
        by_cases hname : procName.chars = name
        · subst hname
          rw [firstIsProcess_append]
          cases hlink : s.linking procName.chars <;>
            cases hfirst : firstIsProcess cfg procName.chars <;>
            simp [hlink, hfirst] at hswap <;>
            simp [Daemon.setLink, Daemon.processLink, hline, Line.isProcess, hlink, hswap]
        · rw [firstIsProcess_append_of_ne (by simpa [hline] using hname)]
          simpa [Daemon.setLink, Function.update_of_ne (Ne.symm hname)] using hswap

private theorem priority (h : Linked fresh registrations cfg s) (procName prio : Argument) :
    Linked fresh registrations (cfg ++ [.priority procName prio])
      (s.priorityLine procName.chars prio.chars) := by
  have hline : (Line.priority procName prio).procName = some procName.chars := rfl
  refine ⟨h.allocPolicies, h.swapPolicies, ?_, ?_⟩
  · intro name
    have halloc := h.alloc name
    rw [lastProcessAlloc_append]
    by_cases hname : procName.chars = name
    · subst hname
      cases hlink : s.linking procName.chars <;> simp [hlink] at halloc <;>
        simp [Daemon.priorityLine, Daemon.setLink, hlink, halloc]
    · simpa [Daemon.priorityLine, Daemon.setLink, Function.update_of_ne (Ne.symm hname)]
        using halloc
  · intro name
    have hswap := h.swap name
    by_cases hname : procName.chars = name
    · subst hname
      rw [firstIsProcess_append]
      cases hlink : s.linking procName.chars <;>
        cases hfirst : firstIsProcess cfg procName.chars <;>
        simp [hlink, hfirst] at hswap <;>
        simp [Daemon.priorityLine, Daemon.setLink, hline, Line.isProcess, hlink, hswap]
    · rw [firstIsProcess_append_of_ne (by simpa [hline] using hname)]
      simpa [Daemon.priorityLine, Daemon.setLink, Function.update_of_ne (Ne.symm hname)] using hswap

private theorem processSwap_refused (h : Linked fresh registrations cfg s)
    (procName policy : Argument) :
    s.command fresh (Line.processSwap procName policy).command = none := by
  simp only [Line.command, Daemon.command, Daemon.processLine,
    if_neg (show wordSwap ≠ wordAlloc by decide), if_true, h.swapPolicies]

private theorem command (h : Linked fresh registrations cfg s) {line : Line} {next : Daemon}
    (hnext : s.command fresh line.command = some next) :
    Linked fresh registrations (cfg ++ [line]) next := by
  cases line with
  | threshold percent policy => exact h.threshold hnext
  | processAlloc procName policy => exact h.processAlloc hnext
  | processSwap procName policy =>
      rw [h.processSwap_refused] at hnext
      cases hnext
  | priority procName prio =>
      cases hnext
      exact h.priority procName prio

theorem command_isSome (h : Linked fresh registrations cfg s)
    (halloc : ∀ registration ∈ registrations, registration.isAlloc = true) (line : Line) :
    (s.command fresh line.command).isSome ↔ line.Resolves registrations := by
  cases line with
  | threshold percent policy =>
      simp only [Line.command, Daemon.command, Daemon.thresholdLine, h.allocPolicies,
        Line.Resolves]
      cases lastAlloc registrations policy.chars <;> simp
  | processAlloc procName policy =>
      simp only [Line.command, Daemon.command, Daemon.processLine, if_true, h.allocPolicies,
        Line.Resolves]
      cases lastAlloc registrations policy.chars <;> simp
  | processSwap procName policy =>
      simp [h.processSwap_refused, Line.Resolves, lastSwap_eq_none halloc]
  | priority procName prio => simp [Line.command, Daemon.command, Line.Resolves]

end Linked

theorem launch_linked (fresh : Name → Option Ops × Option Ops)
    {registrations : List Registration}
    (halloc : ∀ registration ∈ registrations, registration.isAlloc = true) (cfg : List Line)
    {daemon : Daemon} (hlaunch : launch fresh registrations cfg = some daemon) :
    Linked fresh registrations cfg daemon := by
  induction cfg using List.reverseRecOn generalizing daemon with
  | nil =>
      cases hlaunch
      exact Linked.initial halloc
  | append_singleton cfg line ih =>
      rw [launch_append, Option.bind_eq_some_iff] at hlaunch
      obtain ⟨before, hbefore, hline⟩ := hlaunch
      exact (ih hbefore).command hline

theorem launch_isSome (fresh : Name → Option Ops × Option Ops)
    {registrations : List Registration}
    (halloc : ∀ registration ∈ registrations, registration.isAlloc = true) (cfg : List Line) :
    (launch fresh registrations cfg).isSome ↔ ∀ line ∈ cfg, line.Resolves registrations := by
  induction cfg using List.reverseRecOn with
  | nil => simp [launch, Daemon.usmSetAllocPolicyAssignmentStrategy]
  | append_singleton cfg line ih =>
      rw [launch_append]
      simp only [List.mem_append, List.mem_singleton, or_imp, forall_and, forall_eq, ← ih]
      cases hbefore : launch fresh registrations cfg with
      | none => simp
      | some before =>
          simpa using (launch_linked fresh halloc cfg hbefore).command_isSome halloc line

/-! ### The processes -/

section

variable {fresh : Name → Option Ops × Option Ops} {registrations : List Registration}
  {cfg : List Line} {s : Daemon} {events : List NewProc} {event : NewProc}

private theorem setUpAll_append (s : Daemon) (events : List NewProc) (event : NewProc) :
    s.setUpAll (events ++ [event]) = s.usmSetupProcess (s.setUpAll events) event := by
  simp only [Daemon.setUpAll, List.foldl_append, List.foldl_cons, List.foldl_nil]

private theorem usmSetupProcess_of_ne {procDescList : Fin maxProc → Process} {origin : Fin maxProc}
    (hne : event.origin ≠ origin) :
    s.usmSetupProcess procDescList event origin = procDescList origin :=
  Function.update_of_ne hne.symm _ _

private theorem Linked.allocPolicy (h : Linked fresh registrations cfg s)
    (procDescList : Fin maxProc → Process) (event : NewProc) :
    (s.usmSetupProcess procDescList event event.origin).allocPolicy =
      (((event.procName.bind (lastProcessAlloc cfg)).bind (lastAlloc registrations)).map
        Ops.alloc).getD (procDescList event.origin).allocPolicy := by
  rw [Daemon.usmSetupProcess, Function.update_self]
  cases hname : event.procName with
  | none => rfl
  | some procName =>
      have halloc := h.alloc procName
      rw [Option.bind_some, Option.bind_some, ← halloc]
      cases s.linking procName <;> rfl

private theorem Linked.swapPolicy (h : Linked fresh registrations cfg s)
    {procDescList : Fin maxProc → Process}
    (hdesc : (procDescList event.origin).swapPolicy = .defaultSwap) :
    (s.usmSetupProcess procDescList event event.origin).swapPolicy = .defaultSwap ↔
      CleanLink fresh cfg event := by
  rw [Daemon.usmSetupProcess, Function.update_self]
  cases hname : event.procName with
  | none => simpa [CleanLink, hname] using hdesc
  | some procName =>
      have hswap := h.swap procName
      simp only [CleanLink, hname, Option.some.injEq, forall_eq', Option.bind_some]
      cases hlink : s.linking procName <;> cases hfirst : firstIsProcess cfg procName with
      | none => simp [hlink, hfirst, hdesc] at hswap ⊢
      | some isProcess =>
          cases isProcess <;> simp [hlink, hfirst] at hswap <;> simp [Link.setUp, hswap, hdesc]

private theorem expectedSwap_eq
    (halloc : ∀ registration ∈ registrations, registration.isAlloc = true)
    (procName : Option Name) : expectedSwap registrations cfg procName = .defaultSwap := by
  unfold expectedSwap
  cases procName.bind (lastProcessSwap cfg) <;> simp [lastSwap_eq_none halloc]

/-- A descriptor has the default allocation policy as long as no process with a line of its
own has used it. -/
private theorem setUpAll_allocPolicy (h : Linked fresh registrations cfg s)
    (hresolves : ∀ line ∈ cfg, line.Resolves registrations) (events : List NewProc)
    (origin : Fin maxProc) :
    (s.setUpAll events origin).allocPolicy = .defaultAlloc ↔
      ∀ earlier ∈ events, earlier.origin = origin →
        earlier.procName.bind (lastProcessAlloc cfg) = none := by
  induction events using List.reverseRecOn with
  | nil => simp [Daemon.setUpAll, Process.initial]
  | append_singleton events event ih =>
      simp only [setUpAll_append, List.mem_append, List.mem_singleton, or_imp, forall_and,
        forall_eq]
      by_cases horigin : event.origin = origin
      · subst horigin
        rw [h.allocPolicy]
        cases hline : event.procName.bind (lastProcessAlloc cfg) with
        | none => simpa using ih
        | some policy =>
            obtain ⟨procName, -, hlast⟩ := Option.bind_eq_some_iff.1 hline
            obtain ⟨ops, hops⟩ := Option.ne_none_iff_exists'.1
              (lastAlloc_of_lastProcessAlloc hresolves hlast)
            simp [hops]
      · rw [usmSetupProcess_of_ne horigin, ih]
        simp [horigin]

private theorem setUpAll_swapPolicy (h : Linked fresh registrations cfg s)
    (hclean : ∀ event ∈ events, CleanLink fresh cfg event) (origin : Fin maxProc) :
    (s.setUpAll events origin).swapPolicy = .defaultSwap := by
  induction events using List.reverseRecOn with
  | nil => rfl
  | append_singleton events event ih =>
      have hbefore := ih fun e he => hclean e (List.mem_append_left _ he)
      rw [setUpAll_append]
      by_cases horigin : event.origin = origin
      · subst horigin
        exact (h.swapPolicy hbefore).2 (hclean event (by simp))
      · rw [usmSetupProcess_of_ne horigin]
        exact hbefore

def RunsAsConfigured (registrations : List Registration) (cfg : List Line)
    (procDescList : Fin maxProc → Process) (event : NewProc) : Prop :=
  (procDescList event.origin).allocPolicy = expectedAlloc registrations cfg event.procName ∧
    (procDescList event.origin).swapPolicy = expectedSwap registrations cfg event.procName

private theorem Linked.runsAsConfigured_iff (h : Linked fresh registrations cfg s)
    (halloc : ∀ registration ∈ registrations, registration.isAlloc = true)
    (hresolves : ∀ line ∈ cfg, line.Resolves registrations)
    (hclean : ∀ event ∈ events, CleanLink fresh cfg event) (event : NewProc) :
    RunsAsConfigured registrations cfg (s.setUpAll (events ++ [event])) event ↔
      CleanLink fresh cfg event ∧ CleanDescriptor cfg events event := by
  rw [RunsAsConfigured, setUpAll_append, expectedSwap_eq halloc,
    h.swapPolicy (setUpAll_swapPolicy h hclean event.origin), and_comm, h.allocPolicy,
    expectedAlloc, CleanDescriptor]
  refine and_congr_right fun _ => ?_
  cases hline : event.procName.bind (lastProcessAlloc cfg) with
  | none => simpa using setUpAll_allocPolicy h hresolves events event.origin
  | some policy =>
      obtain ⟨procName, -, hlast⟩ := Option.bind_eq_some_iff.1 hline
      obtain ⟨ops, hops⟩ := Option.ne_none_iff_exists'.1
        (lastAlloc_of_lastProcessAlloc hresolves hlast)
      simp [hops]

/-- All processes run as they should exactly if each of them finds its link and its descriptor
clean. -/
theorem Linked.all_runAsConfigured_iff (h : Linked fresh registrations cfg s)
    (halloc : ∀ registration ∈ registrations, registration.isAlloc = true)
    (hresolves : ∀ line ∈ cfg, line.Resolves registrations) (events : List NewProc) :
    (∀ before event after, events = before ++ event :: after →
        RunsAsConfigured registrations cfg (s.setUpAll (before ++ [event])) event) ↔
      ∀ before event after, events = before ++ event :: after →
        CleanLink fresh cfg event ∧ CleanDescriptor cfg before event := by
  constructor
  · intro hruns before
    -- the processes before this one are as they should be, so their links are clean
    have hbefore : ∀ (rest : List NewProc), events = before ++ rest →
        ∀ e ∈ before, CleanLink fresh cfg e := by
      induction before using List.reverseRecOn with
      | nil => simp
      | append_singleton earlier last ih =>
          intro rest heq e he
          rw [List.append_assoc, List.singleton_append] at heq
          have hearlier := ih _ heq
          rw [List.mem_append, List.mem_singleton] at he
          obtain he | rfl := he
          · exact hearlier e he
          · exact ((h.runsAsConfigured_iff halloc hresolves hearlier e).1
              (hruns earlier e rest heq)).1
    intro event after heq
    exact (h.runsAsConfigured_iff halloc hresolves (hbefore _ heq) event).1
      (hruns before event after heq)
  · intro hclean before event after heq
    refine (h.runsAsConfigured_iff halloc hresolves ?_ event).2 (hclean before event after heq)
    intro e he
    obtain ⟨left, right, rfl⟩ := List.append_of_mem he
    exact (hclean left e (right ++ event :: after) (by simp [heq])).1

end

end UserPaging.Usm.Policies
