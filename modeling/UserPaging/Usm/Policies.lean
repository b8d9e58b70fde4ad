import Mathlib.Logic.Function.Basic
import UserPaging.Foundation.Scan

/-!
# Policies and the configuration file

Policies are registered by name.  The configuration file binds process names to
policies and priorities, line by line, and `usmSetupProcess` applies what it finds
for a new process.  `usm_register_swap_policy` stores swap policies in the map of
the allocation policies; the map of the swap policies is never written.

A line that cannot be carried out ends the reading of the file, and the daemon
exits because it has not reached the end of it.

The maps are functions here; `PolicyMaps` has the hash maps of the daemon.
-/

namespace UserPaging.Usm.Policies

open UserPaging.Foundation

abbrev Name := List Char

/-- What a pointer to policy operations points to.  `stray` is an address that is none of
the daemon's. -/
inductive Ops where
  | defaultAlloc
  | defaultSwap
  | alloc (ops : Nat)
  | swap (ops : Nat)
  | stray (address : Nat)
  deriving DecidableEq, Repr

/-- `struct usm_process_link`; a null pointer is `none`. -/
structure Link where
  allocPol : Option Ops
  swpPol : Option Ops
  prio : Int
  deriving DecidableEq, Repr

structure Daemon where
  allocPolicies : Name → Option Ops
  swapPolicies : Name → Option Ops
  /-- The operations that `default_alloc_policy` and `default_swap_policy` are copies of. -/
  defaultAllocPolicy : Option Nat
  defaultSwapPolicy : Option Nat
  linking : Name → Option Link
  initThreshold : Bool
  allocPolicyThresholds : Nat → Option Ops

inductive Registration where
  | alloc (ops : Nat) (name : Name) (isDefault : Bool)
  | swap (ops : Nat) (name : Name) (isDefault : Bool)
  deriving DecidableEq, Repr

namespace Daemon

def initial : Daemon where
  allocPolicies := fun _ => none
  swapPolicies := fun _ => none
  defaultAllocPolicy := none
  defaultSwapPolicy := none
  linking := fun _ => none
  initThreshold := false
  allocPolicyThresholds := fun _ => none

def usmRegisterAllocPolicy (s : Daemon) (ops : Nat) (name : Name) (isDefault : Bool) : Daemon :=
  { s with
    defaultAllocPolicy := if isDefault then some ops else s.defaultAllocPolicy
    allocPolicies := Function.update s.allocPolicies name (some (.alloc ops)) }

def usmRegisterSwapPolicy (s : Daemon) (ops : Nat) (name : Name) (isDefault : Bool) : Daemon :=
  { s with
    defaultSwapPolicy := if isDefault then some ops else s.defaultSwapPolicy
    allocPolicies := Function.update s.allocPolicies name (some (.swap ops)) }

def register (s : Daemon) : Registration → Daemon
  | .alloc ops name isDefault => s.usmRegisterAllocPolicy ops name isDefault
  | .swap ops name isDefault => s.usmRegisterSwapPolicy ops name isDefault

def registerAll (registrations : List Registration) : Daemon :=
  registrations.foldl register initial

end Daemon

/-! ### The configuration file -/

/-- `atoi` on a word: an optional sign and the digits that follow. -/
def atoi (text : List Char) : Int :=
  match text with
  | '-' :: digits => -decimal digits
  | '+' :: digits => decimal digits
  | digits => decimal digits
where
  decimal (digits : List Char) : Int :=
    (digits.takeWhile Char.isDigit).foldl (fun value c => 10 * value + (c.toNat - 48)) 0

inductive Command where
  | skip
  | threshold (percent policy : Name)
  | process (kind procName policy : Name)
  | priority (procName prio : Name)
  | unknown

def wordAlloc : List Char := ['a', 'l', 'l', 'o', 'c']

def wordSwap : List Char := ['s', 'w', 'a', 'p']

def wordThreshold : List Char := ['t', 'h', 'r', 'e', 's', 'h', 'o', 'l', 'd']

def wordProcess : List Char := ['p', 'r', 'o', 'c', 'e', 's', 's']

def wordPriority : List Char := ['p', 'r', 'i', 'o', 'r', 'i', 't', 'y']

def sizeKeywords : List (List Char) :=
  [['m', 'e', 'm', 'o', 'r', 'y'], ['w', 'o', 'r', 'k', 'e', 'r', 's'], ['p', 'a', 'g', 'e']]

/-- The words of a line.  The arguments of a `process` line are looked for behind its first
two words and one blank. -/
def Command.ofLine (ln : List Char) : Command :=
  let arg1 := (scanWord ln).1
  if ln.head? = some '#' ∨ arg1 = [] then .skip
  else if sizeKeywords.contains arg1 then .skip
  else if arg1 = wordThreshold then
    let (arg2, rest) := scanWord (ln.drop arg1.length)
    .threshold arg2 (scanWord rest).1
  else if arg1 = wordProcess then
    let arg2 := (scanWord (ln.drop arg1.length)).1
    let (arg3, rest) := scanWord (ln.drop (arg1.length + arg2.length + 1))
    .process arg2 arg3 (scanWord rest).1
  else if arg1 = wordPriority then
    let (arg2, rest) := scanWord (ln.drop arg1.length)
    .priority arg2 (scanWord rest).1
  else .unknown

def Command.procName : Command → Option Name
  | .process _ procName _ => some procName
  | .priority procName _ => some procName
  | .skip | .threshold _ _ | .unknown => none

namespace Daemon

def thresholdLine (s : Daemon) (percent policy : Name) : Option Daemon :=
  let table := fun index =>
    if s.initThreshold then s.allocPolicyThresholds index else some .defaultAlloc
  match s.allocPolicies policy with
  | none => none
  | some ops =>
      some { s with
        initThreshold := true
        allocPolicyThresholds := fun index =>
          if atoi percent ≤ index ∧ index < 100 then some ops else table index }

/-- A link that is not there yet is allocated and not cleared: `fresh` is what its two
policy fields hold. -/
def processLink (s : Daemon) (fresh : Name → Option Ops × Option Ops) (procName : Name) : Link :=
  match s.linking procName with
  | some link => link
  | none => ⟨(fresh procName).1, (fresh procName).2, 0⟩

def setLink (s : Daemon) (procName : Name) (link : Link) : Daemon :=
  { s with linking := Function.update s.linking procName (some link) }

def processLine (s : Daemon) (fresh : Name → Option Ops × Option Ops)
    (kind procName policy : Name) : Option Daemon :=
  if kind = wordAlloc then
    match s.allocPolicies policy with
    | none => none
    | some ops =>
        some (s.setLink procName { s.processLink fresh procName with allocPol := some ops })
  else if kind = wordSwap then
    match s.swapPolicies policy with
    | none => none
    | some ops =>
        some (s.setLink procName { s.processLink fresh procName with swpPol := some ops })
  else none

def priorityLine (s : Daemon) (procName prio : Name) : Daemon :=
  let link := (s.linking procName).getD ⟨none, none, 0⟩
  s.setLink procName { link with prio := atoi prio }

/-- One round of the loop over the lines; `none` is a `break`. -/
def command (fresh : Name → Option Ops × Option Ops) (s : Daemon) : Command → Option Daemon
  | .skip => some s
  | .threshold percent policy => s.thresholdLine percent policy
  | .process kind procName policy => s.processLine fresh kind procName policy
  | .priority procName prio => some (s.priorityLine procName prio)
  | .unknown => none

/-- The whole file; `none` means that the daemon exits. -/
def usmSetAllocPolicyAssignmentStrategy (fresh : Name → Option Ops × Option Ops) :
    Daemon → List (List Char) → Option Daemon
  | s, [] => some s
  | s, ln :: lines =>
      match s.command fresh (.ofLine ln) with
      | some next => usmSetAllocPolicyAssignmentStrategy fresh next lines
      | none => none

end Daemon

/-! ### The descriptors of the processes -/

def maxProc : Nat := 1000

structure Process where
  allocPolicy : Ops
  swapPolicy : Ops
  prio : Int
  deriving DecidableEq, Repr

/-- What `usm_init` writes to every descriptor before the first process. -/
def Process.initial : Process := ⟨.defaultAlloc, .defaultSwap, 0⟩

def Link.setUp (link : Link) (desc : Process) : Process :=
  ⟨link.allocPol.getD desc.allocPolicy, link.swpPol.getD desc.swapPolicy, link.prio⟩

structure NewProc where
  origin : Fin maxProc
  procName : Option Name

def Daemon.usmSetupProcess (s : Daemon) (procDescList : Fin maxProc → Process) (event : NewProc) :
    Fin maxProc → Process :=
  Function.update procDescList event.origin
    (match event.procName.bind s.linking with
    | some link => link.setUp (procDescList event.origin)
    | none => { procDescList event.origin with prio := 0 })

/-- The descriptors after some processes.  One that ends leaves its policies behind. -/
def Daemon.setUpAll (s : Daemon) (events : List NewProc) : Fin maxProc → Process :=
  events.foldl s.usmSetupProcess fun _ => Process.initial

/-! ### Well-formed lines -/

structure Argument extends Word where
  short : chars.length < 20

structure Percentage extends Argument where
  nonneg : 0 ≤ atoi chars

inductive Line where
  | threshold (percent : Percentage) (policy : Argument)
  | processAlloc (procName policy : Argument)
  | processSwap (procName policy : Argument)
  | priority (procName prio : Argument)

namespace Line

def text : Line → List Char
  | .threshold percent policy =>
      wordThreshold ++ ' ' :: (percent.chars ++ ' ' :: (policy.chars ++ ['\n']))
  | .processAlloc procName policy =>
      wordProcess ++ ' ' ::
        (wordAlloc ++ ' ' :: (procName.chars ++ ' ' :: (policy.chars ++ ['\n'])))
  | .processSwap procName policy =>
      wordProcess ++ ' ' :: (wordSwap ++ ' ' :: (procName.chars ++ ' ' :: (policy.chars ++ ['\n'])))
  | .priority procName prio =>
      wordPriority ++ ' ' :: (procName.chars ++ ' ' :: (prio.chars ++ ['\n']))

def command : Line → Command
  | .threshold percent policy => .threshold percent.chars policy.chars
  | .processAlloc procName policy => .process wordAlloc procName.chars policy.chars
  | .processSwap procName policy => .process wordSwap procName.chars policy.chars
  | .priority procName prio => .priority procName.chars prio.chars

private theorem scan_argument (argument : Argument) {c : Char} (hc : isSpace c = true)
    (rest : List Char) :
    scanWord (' ' :: (argument.chars ++ c :: rest)) = (argument.chars, c :: rest) := by
  rw [scanWord_space]
  apply scanWord_append
  intro c' hc'
  cases hc'
  exact hc

private theorem isSpace_blank : isSpace ' ' = true := by decide

private theorem isSpace_newline : isSpace '\n' = true := by decide

private theorem scan_keyword (keyword : Word) (rest : List Char) :
    scanWord (keyword.chars ++ ' ' :: rest) = (keyword.chars, ' ' :: rest) := by
  apply scanWord_append
  intro c hc
  cases hc
  exact isSpace_blank

private theorem not_skipped (keyword : Word) (rest : List Char) (hhash : '#' ∉ keyword.chars) :
    ¬((keyword.chars ++ ' ' :: rest).head? = some '#' ∨ keyword.chars = []) := by
  rintro (hhead | hempty)
  · cases hchars : keyword.chars with
    | nil => exact keyword.ne_nil hchars
    | cons c chars =>
        rw [hchars] at hhead hhash
        cases hhead
        exact hhash List.mem_cons_self
  · exact keyword.ne_nil hempty

def keywordThreshold : Word := ⟨wordThreshold, by decide, solid_of_all (by decide)⟩

def keywordProcess : Word := ⟨wordProcess, by decide, solid_of_all (by decide)⟩

def keywordPriority : Word := ⟨wordPriority, by decide, solid_of_all (by decide)⟩

private theorem ofLine_threshold (percent policy : Argument) :
    Command.ofLine
        (wordThreshold ++ ' ' :: (percent.chars ++ ' ' :: (policy.chars ++ ['\n']))) =
      .threshold percent.chars policy.chars := by
  have hkeyword := scan_keyword keywordThreshold (percent.chars ++ ' ' :: (policy.chars ++ ['\n']))
  have hplain := not_skipped keywordThreshold (percent.chars ++ ' ' :: (policy.chars ++ ['\n']))
    (by decide)
  rw [show keywordThreshold.chars = wordThreshold from rfl] at hkeyword hplain
  simp only [Command.ofLine, hkeyword]
  rw [if_neg hplain, if_neg (by decide), if_pos trivial, List.drop_left,
    scan_argument percent isSpace_blank]
  simp only [scan_argument policy isSpace_newline]

private theorem ofLine_process (kind : Word) (procName policy : Argument) :
    Command.ofLine (wordProcess ++ ' ' :: (kind.chars ++ ' ' ::
        (procName.chars ++ ' ' :: (policy.chars ++ ['\n'])))) =
      .process kind.chars procName.chars policy.chars := by
  have hkind : scanWord (' ' :: (kind.chars ++ ' ' ::
      (procName.chars ++ ' ' :: (policy.chars ++ ['\n'])))) =
      (kind.chars, ' ' :: (procName.chars ++ ' ' :: (policy.chars ++ ['\n']))) := by
    rw [scanWord_space, scan_keyword]
  have hdrop : (wordProcess ++ ' ' :: (kind.chars ++ ' ' ::
      (procName.chars ++ ' ' :: (policy.chars ++ ['\n'])))).drop
        (wordProcess.length + kind.chars.length + 1) =
      ' ' :: (procName.chars ++ ' ' :: (policy.chars ++ ['\n'])) := by
    rw [Nat.add_assoc, ← List.drop_drop, List.drop_left, List.drop_succ_cons, List.drop_left]
  have hkeyword := scan_keyword keywordProcess (kind.chars ++ ' ' ::
    (procName.chars ++ ' ' :: (policy.chars ++ ['\n'])))
  have hplain := not_skipped keywordProcess (kind.chars ++ ' ' ::
    (procName.chars ++ ' ' :: (policy.chars ++ ['\n']))) (by decide)
  rw [show keywordProcess.chars = wordProcess from rfl] at hkeyword hplain
  simp only [Command.ofLine, hkeyword]
  rw [if_neg hplain, if_neg (by decide), if_neg (by decide), if_pos trivial, List.drop_left, hkind]
  simp only [hdrop, scan_argument procName isSpace_blank, scan_argument policy isSpace_newline]

private theorem ofLine_priority (procName prio : Argument) :
    Command.ofLine (wordPriority ++ ' ' :: (procName.chars ++ ' ' :: (prio.chars ++ ['\n']))) =
      .priority procName.chars prio.chars := by
  have hkeyword := scan_keyword keywordPriority (procName.chars ++ ' ' :: (prio.chars ++ ['\n']))
  have hplain := not_skipped keywordPriority (procName.chars ++ ' ' :: (prio.chars ++ ['\n']))
    (by decide)
  rw [show keywordPriority.chars = wordPriority from rfl] at hkeyword hplain
  simp only [Command.ofLine, hkeyword]
  rw [if_neg hplain, if_neg (by decide), if_neg (by decide), if_neg (by decide), if_pos trivial,
    List.drop_left, scan_argument procName isSpace_blank]
  simp only [scan_argument prio isSpace_newline]

theorem ofLine_text (line : Line) : Command.ofLine line.text = line.command := by
  cases line with
  | threshold percent policy => exact ofLine_threshold percent.toArgument policy
  | processAlloc procName policy =>
      exact ofLine_process ⟨wordAlloc, by decide, solid_of_all (by decide)⟩ procName policy
  | processSwap procName policy =>
      exact ofLine_process ⟨wordSwap, by decide, solid_of_all (by decide)⟩ procName policy
  | priority procName prio => exact ofLine_priority procName prio

end Line

end UserPaging.Usm.Policies
