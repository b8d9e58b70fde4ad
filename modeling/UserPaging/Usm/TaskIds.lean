import Mathlib.Data.List.Nodup
import UserPaging.Usm.Dispatch

/-!
# Task ids

Every worker has a word of free ids.  A task is created by `dup_usm` (or, the first
of a process, by `userfaultfd`), which stores the default worker in the task and
queues the task's shared page together with the worker of the task that is running,
the parent.  `usm_mmap` takes the next entry of a process's queue and an id from the
word recorded there; faults are posted to the worker in the task, and `do_exit`
gives the id back to the worker in the task.

The record and the task agree only if the default worker has not moved since the
parent was created.  Two scans of `uthread` have no end of their own: the one for a
slot of a new worker, and the one for another worker with a free id, which counts to
`MAX_USM_vCPUs` over an array of 32.
-/

namespace UserPaging.Usm.TaskIds

open UserPaging.Foundation

open UserPaging.Usm.Dispatch (maxUthreads)

structure Task where
  ctx : Nat
  /-- `usm_x`: where the task posts its faults. -/
  worker : Nat
  /-- The id word of the task's shared page. -/
  usmid : Nat
  registered : Bool
  live : Bool
  deriving DecidableEq, Repr

/-- `struct usm_ctx_p`.  `queue_usmmph` sets `uctx` and `ucx` but not `tsk`, which holds
whatever the memory held: a task, or nothing that can be written to. -/
structure Entry where
  uctx : Nat
  ucx : Nat
  tsk : Option Nat
  deriving DecidableEq, Repr

structure Registry where
  /-- Slots `0` to `workers - 1` of `uthread` are taken. -/
  workers : Nat
  free : Nat → BitVec 32
  defaultChannel : Nat
  /-- Tasks are numbered in the order of their creation. -/
  born : Nat
  task : Nat → Task
  /-- `ctx->usmmph`, for each userfaultfd context. -/
  usmmph : Nat → List Entry
  /-- The kernel has taken other memory for a slot of `uthread`, a queue entry or a task.
  The other fields mean nothing from then on. -/
  astray : Bool

structure Stale where
  usmid : Nat
  tsk : Option Nat
  deriving DecidableEq, Repr

inductive Label where
  | newWorker
  | userfaultfd (ctx : Nat) (stale : Stale)
  | dupUsm (parent ctx : Nat) (stale : Stale)
  | usmMmap (ctx : Nat) (remapFails : Bool)
  | exit (task : Nat)
  deriving DecidableEq, Repr

/-- `__ffs`, with the value that the kernel's check takes for "none" on zero. -/
def firstFree (word : BitVec 32) : Nat := if word = 0 then maxUthreads else ffs word - 1

namespace Registry

def initial : Registry where
  workers := 0
  free := fun _ => 0
  defaultChannel := 0
  born := 0
  task := fun _ => ⟨0, 0, 0, false, false⟩
  usmmph := fun _ => []
  astray := false

def goAstray (s : Registry) : Registry := { s with astray := true }

def addWorker (s : Registry) : Registry :=
  { s with
    workers := s.workers + 1
    free := Function.update s.free s.workers (BitVec.allOnes 32)
    defaultChannel := s.workers }

/-- The part of `usm_mmap` that registers a worker and makes it the default.  The scan for an
empty slot does not stop at the end of `uthread`. -/
def newWorker (s : Registry) : Registry :=
  if s.workers < maxUthreads then s.addWorker else s.goAstray

/-- A new task posts to the default worker; its queue entry records `usmX`. -/
def create (s : Registry) (ctx usmX : Nat) (stale : Stale) : Registry :=
  { s with
    born := s.born + 1
    task := Function.update s.task s.born ⟨ctx, s.defaultChannel, stale.usmid, false, true⟩
    usmmph := Function.update s.usmmph ctx (s.usmmph ctx ++ [⟨s.born, usmX, stale.tsk⟩]) }

/-- The id is written to the page before the page is mapped; when the mapping fails the
entry goes back to the head of the queue. -/
def finishMmap (s : Registry) (ctx : Nat) (entry : Entry) (rest : List Entry) (usmid : Nat)
    (remapFails : Bool) : Registry :=
  { s with
    task := Function.update s.task entry.uctx
      { s.task entry.uctx with
        usmid := usmid
        registered := (s.task entry.uctx).registered || !remapFails }
    usmmph := Function.update s.usmmph ctx (if remapFails then entry :: rest else rest) }

def takeId (s : Registry) (worker usmid : Nat) : Registry :=
  { s with free := Function.update s.free worker (clearBit (s.free worker) usmid) }

/-- The first slot of `uthread` with a worker that has a free id. -/
def otherChannel (s : Registry) : Option Nat :=
  (List.range maxUthreads).find? fun slot =>
    slot < s.workers ∧ firstFree (s.free slot) < maxUthreads

/-- The task that the entry's `tsk` points to moves to the worker that had a place. -/
def moveTask (s : Registry) (manChannel tsk : Nat) : Registry :=
  { s with
    defaultChannel := manChannel
    task := Function.update s.task tsk { s.task tsk with worker := manChannel } }

def usmMmap (s : Registry) (ctx : Nat) (remapFails : Bool) : Registry :=
  match s.usmmph ctx with
  -- `list_first_entry` of an empty list
  | [] => s.goAstray
  | entry :: rest =>
      if firstFree (s.free entry.ucx) < maxUthreads then
        let usmid := firstFree (s.free entry.ucx)
        (s.takeId entry.ucx usmid).finishMmap ctx entry rest usmid remapFails
      else
        match s.otherChannel with
        -- the scan goes on to `uthread[32]`, where the lock is that it holds
        | none => s.goAstray
        | some manChannel =>
            match entry.tsk with
            | none => s.goAstray
            | some tsk =>
                let usmid := firstFree (s.free manChannel)
                ((s.takeId manChannel usmid).moveTask manChannel tsk).finishMmap ctx entry rest
                  usmid remapFails

/-- `do_exit` gives the id word of the page back, whatever it holds. -/
def exit (s : Registry) (task : Nat) : Registry :=
  { s with
    free := Function.update s.free (s.task task).worker
      (setBit (s.free (s.task task).worker) (s.task task).usmid)
    task := Function.update s.task task { s.task task with live := false } }

def step (s : Registry) : Label → Option Registry
  | .newWorker => some s.newWorker
  | .userfaultfd ctx stale =>
      if 0 < s.workers then some (s.create ctx s.defaultChannel stale) else none
  | .dupUsm parent ctx stale =>
      if (s.task parent).live then some (s.create ctx (s.task parent).worker stale) else none
  | .usmMmap ctx remapFails => some (s.usmMmap ctx remapFails)
  | .exit task => if (s.task task).live then some (s.exit task) else none

/-- A live registered task that posts to `worker` under the id `usmid`. -/
def Holds (s : Registry) (task worker usmid : Nat) : Prop :=
  (s.task task).live = true ∧ (s.task task).registered = true ∧
    (s.task task).worker = worker ∧ (s.task task).usmid = usmid

instance (s : Registry) (task worker usmid : Nat) : Decidable (s.Holds task worker usmid) :=
  inferInstanceAs (Decidable (_ ∧ _))

/-- No two tasks share an id of a worker, and an id is free exactly if no task has it. -/
structure IdsUnique (s : Registry) : Prop where
  unique : ∀ worker usmid task task', s.Holds task worker usmid → s.Holds task' worker usmid →
    task = task'
  free : ∀ worker, worker < s.workers →
    FreeWord (s.free worker) fun usmid => ∃ task, s.Holds task worker usmid

/-- The next entry takes its id from the word of the worker that its task posts to, and
its page gets mapped. -/
def RegistersOwn (s : Registry) (remapFails : Bool) (entry : Entry) : Prop :=
  firstFree (s.free entry.ucx) < maxUthreads ∧ entry.ucx = (s.task entry.uctx).worker ∧
    remapFails = false

/-- A step that the books survive: `uthread` has room for a new worker, a registration is as
`RegistersOwn` says, and only a registered task exits. -/
def Regular (s : Registry) : Label → Prop
  | .newWorker => s.workers < maxUthreads
  | .userfaultfd _ _ | .dupUsm _ _ _ => True
  | .usmMmap ctx remapFails => ∃ entry ∈ (s.usmmph ctx).head?, s.RegistersOwn remapFails entry
  | .exit task => (s.task task).registered = true

instance (s : Registry) (remapFails : Bool) : DecidablePred (s.RegistersOwn remapFails) :=
  fun _ => inferInstanceAs (Decidable (_ ∧ _))

instance (s : Registry) (label : Label) : Decidable (s.Regular label) :=
  match label with
  | .newWorker => inferInstanceAs (Decidable (s.workers < maxUthreads))
  | .userfaultfd _ _ | .dupUsm _ _ _ => isTrue trivial
  | .usmMmap ctx remapFails =>
      inferInstanceAs (Decidable (∃ entry ∈ (s.usmmph ctx).head?, s.RegistersOwn remapFails entry))
  | .exit task => inferInstanceAs (Decidable ((s.task task).registered = true))

end Registry

private theorem firstFree_of_lt {word : BitVec 32} (hlt : firstFree word < maxUthreads) :
    word.getLsbD (firstFree word) = true := by
  unfold firstFree at hlt ⊢
  split at hlt
  · exact absurd hlt (Nat.lt_irrefl _)
  · next hne =>
      obtain ⟨i, hffs, hi, -⟩ := ffs_of_ne_zero hne
      rwa [if_neg hne, hffs, Nat.add_sub_cancel]

/-- The books of a regular run: ids are unique, every holder's worker and id are in range,
and the queues hold each task that waits for its registration once. -/
structure Sound (s : Registry) : Prop extends s.IdsUnique where
  range : ∀ task worker usmid, s.Holds task worker usmid →
    worker < s.workers ∧ usmid < maxUthreads
  posts : ∀ task, (s.task task).live = true → (s.task task).worker < s.workers
  channel : 0 < s.workers → s.defaultChannel < s.workers
  unborn : ∀ task, s.born ≤ task → (s.task task).live = false
  queued : ∀ ctx, ∀ entry ∈ s.usmmph ctx,
    (s.task entry.uctx).live = true ∧ (s.task entry.uctx).registered = false ∧
      (s.task entry.uctx).ctx = ctx
  recorded : ∀ ctx, ∀ entry ∈ s.usmmph ctx, entry.ucx < s.workers
  nodup : ∀ ctx, ((s.usmmph ctx).map Entry.uctx).Nodup
  inBounds : s.astray = false

namespace Sound

open Registry

variable {s next : Registry}

theorem initial : Sound Registry.initial where
  unique := by simp [Registry.Holds, Registry.initial]
  free := by simp [Registry.initial]
  range := by simp [Registry.Holds, Registry.initial]
  posts := by simp [Registry.initial]
  channel := by simp [Registry.initial]
  unborn := by simp [Registry.initial]
  queued := by simp [Registry.initial]
  recorded := by simp [Registry.initial]
  nodup := by simp [Registry.initial]
  inBounds := rfl

private theorem addWorker (hs : Sound s) : Sound s.addWorker where
  unique := hs.unique
  free := by
    intro worker hworker
    by_cases hnew : worker = s.workers
    · have hword : s.addWorker.free worker = BitVec.allOnes 32 := by
        rw [hnew]
        exact Function.update_self ..
      rw [hword]
      apply FreeWord.allOnes
      rintro usmid ⟨task, hholds⟩
      have hlt := (hs.range task worker usmid hholds).1
      omega
    · have hlt : worker < s.workers := Nat.lt_of_le_of_ne (Nat.lt_succ_iff.1 hworker) hnew
      have hsame : s.addWorker.free worker = s.free worker := Function.update_of_ne hnew _ _
      rw [hsame]
      exact hs.free worker hlt
  range := by
    intro task worker usmid hholds
    obtain ⟨hworker, husmid⟩ := hs.range task worker usmid hholds
    exact ⟨Nat.lt_succ_of_lt hworker, husmid⟩
  posts := fun task hlive => Nat.lt_succ_of_lt (hs.posts task hlive)
  channel := fun _ => Nat.lt_succ_self _
  unborn := hs.unborn
  queued := hs.queued
  recorded := fun ctx entry hentry => Nat.lt_succ_of_lt (hs.recorded ctx entry hentry)
  nodup := hs.nodup
  inBounds := hs.inBounds

section

variable {ctx usmX : Nat} {stale : Stale}

private theorem create_task_of_ne {task : Nat} (hne : task ≠ s.born) :
    (s.create ctx usmX stale).task task = s.task task :=
  Function.update_of_ne hne _ _

private theorem mem_create {ctx' : Nat} {entry : Entry}
    (hentry : entry ∈ (s.create ctx usmX stale).usmmph ctx') :
    entry ∈ s.usmmph ctx' ∨ ctx' = ctx ∧ entry = ⟨s.born, usmX, stale.tsk⟩ := by
  by_cases hctx : ctx' = ctx
  · subst hctx
    simpa [Registry.create] using hentry
  · left
    simpa [Registry.create, Function.update_of_ne hctx] using hentry

private theorem queued_ne_born (hs : Sound s) {ctx' : Nat} {entry : Entry}
    (hentry : entry ∈ s.usmmph ctx') : entry.uctx ≠ s.born := by
  intro hborn
  have hlive := (hs.queued ctx' entry hentry).1
  rw [hborn, hs.unborn s.born (Nat.le_refl _)] at hlive
  cases hlive

private theorem holds_create (hs : Sound s) {task worker usmid : Nat} :
    (s.create ctx usmX stale).Holds task worker usmid ↔ s.Holds task worker usmid := by
  by_cases htask : task = s.born
  · subst htask
    simp [Registry.Holds, Registry.create, hs.unborn s.born (Nat.le_refl _)]
  · rw [Registry.Holds, create_task_of_ne htask, Registry.Holds]

private theorem create (hs : Sound s) (husmX : usmX < s.workers) :
    Sound (s.create ctx usmX stale) where
  unique := by
    intro worker usmid task task' hholds hholds'
    rw [hs.holds_create] at hholds hholds'
    exact hs.unique worker usmid task task' hholds hholds'
  free := by
    intro worker hworker
    simp only [hs.holds_create]
    exact hs.free worker hworker
  range := by
    intro task worker usmid hholds
    rw [hs.holds_create] at hholds
    exact hs.range task worker usmid hholds
  posts := by
    intro task hlive
    by_cases htask : task = s.born
    · simpa [Registry.create, htask] using hs.channel (Nat.zero_lt_of_lt husmX)
    · rw [create_task_of_ne htask] at hlive ⊢
      exact hs.posts task hlive
  channel := hs.channel
  unborn := by
    intro task hborn
    have hle : s.born + 1 ≤ task := hborn
    rw [create_task_of_ne (by omega)]
    exact hs.unborn task (by omega)
  queued := by
    intro ctx' entry hentry
    obtain hmem | ⟨rfl, rfl⟩ := mem_create hentry
    · rw [create_task_of_ne (hs.queued_ne_born hmem)]
      exact hs.queued ctx' entry hmem
    · simp [Registry.create]
  recorded := by
    intro ctx' entry hentry
    obtain hmem | ⟨rfl, rfl⟩ := mem_create hentry
    · exact hs.recorded ctx' entry hmem
    · exact husmX
  nodup := by
    intro ctx'
    by_cases hctx : ctx' = ctx
    · subst hctx
      simp only [Registry.create, Function.update_self, List.map_append, List.map_cons,
        List.map_nil]
      rw [List.nodup_append]
      refine ⟨hs.nodup ctx', List.nodup_singleton _, ?_⟩
      intro uctx huctx uctx' huctx'
      obtain ⟨entry, hentry, rfl⟩ := List.mem_map.1 huctx
      rw [List.mem_singleton.1 huctx']
      exact hs.queued_ne_born hentry
    · simp only [Registry.create, Function.update_of_ne hctx]
      exact hs.nodup ctx'
  inBounds := hs.inBounds

end

/-- The state after a regular registration of the task behind `entry`. -/
def registered (s : Registry) (ctx : Nat) (entry : Entry) (rest : List Entry) : Registry :=
  let usmid := firstFree (s.free entry.ucx)
  (s.takeId entry.ucx usmid).finishMmap ctx entry rest usmid false

section

variable {ctx : Nat} {entry : Entry} {rest : List Entry}

private theorem registered_task_of_ne {task : Nat} (hne : task ≠ entry.uctx) :
    (registered s ctx entry rest).task task = s.task task :=
  Function.update_of_ne hne _ _

private theorem registered_task_self :
    (registered s ctx entry rest).task entry.uctx =
      { s.task entry.uctx with
        usmid := firstFree (s.free entry.ucx)
        registered := true } := by
  simp [registered, Registry.finishMmap, Registry.takeId]

private theorem holds_registered {task worker usmid : Nat}
    (hlive : (s.task entry.uctx).live = true) (hown : entry.ucx = (s.task entry.uctx).worker)
    (hunregistered : (s.task entry.uctx).registered = false) :
    (registered s ctx entry rest).Holds task worker usmid ↔
      s.Holds task worker usmid ∨
        (task = entry.uctx ∧ worker = entry.ucx ∧ usmid = firstFree (s.free entry.ucx)) := by
  by_cases htask : task = entry.uctx
  · subst htask
    rw [Registry.Holds, registered_task_self]
    simp [Registry.Holds, hlive, hunregistered, ← hown, eq_comm]
  · simp [Registry.Holds, registered_task_of_ne htask, htask]

private theorem mem_registered (hs : Sound s) (hqueue : s.usmmph ctx = entry :: rest)
    (hctx : (s.task entry.uctx).ctx = ctx) {ctx' : Nat} {entry' : Entry}
    (hentry' : entry' ∈ (registered s ctx entry rest).usmmph ctx') :
    entry' ∈ s.usmmph ctx' ∧ entry'.uctx ≠ entry.uctx := by
  by_cases hsame : ctx' = ctx
  · have hmem : entry' ∈ rest := by
      simpa [registered, Registry.finishMmap, Registry.takeId, hsame] using hentry'
    have hnodup := hs.nodup ctx
    rw [hqueue, List.map_cons, List.nodup_cons] at hnodup
    constructor
    · rw [hsame, hqueue]
      exact List.mem_cons_of_mem _ hmem
    · intro heq
      exact hnodup.1 (heq ▸ List.mem_map_of_mem hmem)
  · have hmem : entry' ∈ s.usmmph ctx' := by
      simpa [registered, Registry.finishMmap, Registry.takeId, Function.update_of_ne hsame]
        using hentry'
    refine ⟨hmem, ?_⟩
    intro heq
    have hctx' := (hs.queued ctx' entry' hmem).2.2
    rw [heq, hctx] at hctx'
    exact hsame hctx'.symm

private theorem idsUnique_registered (hs : Sound s) (hlive : (s.task entry.uctx).live = true)
    (hunregistered : (s.task entry.uctx).registered = false)
    (hplace : firstFree (s.free entry.ucx) < maxUthreads)
    (hown : entry.ucx = (s.task entry.uctx).worker) :
    (registered s ctx entry rest).IdsUnique := by
  have hholds (task worker usmid : Nat) : (registered s ctx entry rest).Holds task worker usmid ↔
      s.Holds task worker usmid ∨
        (task = entry.uctx ∧ worker = entry.ucx ∧ usmid = firstFree (s.free entry.ucx)) :=
    holds_registered hlive hown hunregistered
  have hworker : entry.ucx < s.workers := by
    rw [hown]
    exact hs.posts entry.uctx hlive
  have hnone : ¬∃ task, s.Holds task entry.ucx (firstFree (s.free entry.ucx)) :=
    (hs.free entry.ucx hworker _ hplace).1 (firstFree_of_lt hplace)
  constructor
  · intro worker usmid task task' hheld hheld'
    rw [hholds] at hheld hheld'
    rcases hheld with hold | ⟨rfl, rfl, rfl⟩
    · rcases hheld' with hold' | ⟨rfl, rfl, rfl⟩
      · exact hs.unique worker usmid task task' hold hold'
      · exact absurd ⟨task, hold⟩ hnone
    · rcases hheld' with hold' | ⟨rfl, -, -⟩
      · exact absurd ⟨task', hold'⟩ hnone
      · rfl
  · intro worker hworker'
    simp only [hholds]
    by_cases hsame : worker = entry.ucx
    · have hword : (registered s ctx entry rest).free worker =
          clearBit (s.free worker) (firstFree (s.free entry.ucx)) := by
        rw [hsame]
        exact Function.update_self ..
      rw [hword]
      apply ((hs.free worker hworker').take _).congr
      intro usmid _
      simp [exists_or, hsame]
    · have hword : (registered s ctx entry rest).free worker = s.free worker :=
        Function.update_of_ne hsame _ _
      rw [hword]
      apply (hs.free worker hworker').congr
      intro usmid _
      simp [hsame]

theorem register (hs : Sound s) (hqueue : s.usmmph ctx = entry :: rest)
    (hplace : firstFree (s.free entry.ucx) < maxUthreads)
    (hown : entry.ucx = (s.task entry.uctx).worker) :
    Sound (registered s ctx entry rest) := by
  have hentry : entry ∈ s.usmmph ctx := by
    rw [hqueue]
    exact List.mem_cons_self
  obtain ⟨hlive, hunregistered, hctx⟩ := hs.queued ctx entry hentry
  have hold (ctx' : Nat) (entry' : Entry)
      (hentry' : entry' ∈ (registered s ctx entry rest).usmmph ctx') :
      entry' ∈ s.usmmph ctx' ∧ entry'.uctx ≠ entry.uctx :=
    hs.mem_registered hqueue hctx hentry'
  refine ⟨hs.idsUnique_registered hlive hunregistered hplace hown, ?_, ?_, hs.channel, ?_, ?_,
    ?_, ?_, hs.inBounds⟩
  · intro task worker usmid hheld
    rw [holds_registered hlive hown hunregistered] at hheld
    rcases hheld with hold | ⟨-, rfl, rfl⟩
    · exact hs.range task worker usmid hold
    · exact ⟨hs.recorded ctx entry hentry, hplace⟩
  · intro task htask
    by_cases hne : task = entry.uctx
    · rw [hne, registered_task_self]
      exact hs.posts entry.uctx hlive
    · rw [registered_task_of_ne hne] at htask ⊢
      exact hs.posts task htask
  · intro task hborn
    have hne : task ≠ entry.uctx := by
      rintro rfl
      rw [hs.unborn entry.uctx hborn] at hlive
      cases hlive
    rw [registered_task_of_ne hne]
    exact hs.unborn task hborn
  · intro ctx' entry' hentry'
    obtain ⟨hmem, hne⟩ := hold ctx' entry' hentry'
    rw [registered_task_of_ne hne]
    exact hs.queued ctx' entry' hmem
  · intro ctx' entry' hentry'
    exact hs.recorded ctx' entry' (hold ctx' entry' hentry').1
  · intro ctx'
    have hnodup := hs.nodup ctx'
    by_cases hsame : ctx' = ctx
    · rw [hsame, hqueue, List.map_cons, List.nodup_cons] at hnodup
      simpa [registered, Registry.finishMmap, Registry.takeId, hsame] using hnodup.2
    · simpa [registered, Registry.finishMmap, Registry.takeId, Function.update_of_ne hsame]
        using hnodup

end

private theorem holds_exit {task task' worker usmid : Nat} :
    (s.exit task).Holds task' worker usmid ↔ s.Holds task' worker usmid ∧ task' ≠ task := by
  by_cases htask : task' = task
  · simp [Registry.Holds, Registry.exit, htask]
  · simp [Registry.Holds, Registry.exit, htask]

private theorem idsUnique_exit (hs : Sound s) {task : Nat} (hlive : (s.task task).live = true)
    (hregistered : (s.task task).registered = true) : (s.exit task).IdsUnique := by
  have hholds : s.Holds task (s.task task).worker (s.task task).usmid :=
    ⟨hlive, hregistered, rfl, rfl⟩
  constructor
  · intro worker usmid task₁ task₂ h₁ h₂
    rw [holds_exit] at h₁ h₂
    exact hs.unique worker usmid task₁ task₂ h₁.1 h₂.1
  · intro worker hworker
    simp only [holds_exit]
    by_cases hsame : worker = (s.task task).worker
    · have hword : (s.exit task).free worker = setBit (s.free worker) (s.task task).usmid := by
        rw [hsame]
        exact Function.update_self ..
      rw [hword]
      apply ((hs.free worker hworker).give _).congr
      intro usmid _
      constructor
      · rintro ⟨⟨task', hheld⟩, hne⟩
        refine ⟨task', hheld, ?_⟩
        rintro rfl
        exact hne hheld.2.2.2.symm
      · rintro ⟨task', hheld, hne⟩
        refine ⟨⟨task', hheld⟩, ?_⟩
        rintro rfl
        rw [hsame] at hheld
        exact hne (hs.unique _ _ task' task hheld hholds)
    · have hword : (s.exit task).free worker = s.free worker := Function.update_of_ne hsame _ _
      rw [hword]
      apply (hs.free worker hworker).congr
      intro usmid _
      constructor
      · rintro ⟨task', hheld⟩
        refine ⟨task', hheld, ?_⟩
        rintro rfl
        exact hsame hheld.2.2.1.symm
      · rintro ⟨task', hheld, -⟩
        exact ⟨task', hheld⟩

theorem exit (hs : Sound s) {task : Nat} (hlive : (s.task task).live = true)
    (hregistered : (s.task task).registered = true) : Sound (s.exit task) := by
  refine ⟨hs.idsUnique_exit hlive hregistered, ?_, ?_, hs.channel, ?_, ?_, hs.recorded, hs.nodup,
    hs.inBounds⟩
  · intro task' worker usmid hheld
    rw [holds_exit] at hheld
    exact hs.range task' worker usmid hheld.1
  · intro task' hlive'
    by_cases hne : task' = task
    · simp [Registry.exit, hne] at hlive'
    · simp only [Registry.exit, Function.update_of_ne hne] at hlive' ⊢
      exact hs.posts task' hlive'
  · intro task' hborn
    by_cases hne : task' = task
    · simp [Registry.exit, hne]
    · simp only [Registry.exit, Function.update_of_ne hne]
      exact hs.unborn task' hborn
  · intro ctx entry hentry
    have hqueued := hs.queued ctx entry hentry
    have hne : entry.uctx ≠ task := by
      intro heq
      rw [heq, hregistered] at hqueued
      cases hqueued.2.1
    simpa [Registry.exit, Function.update_of_ne hne] using hqueued

theorem usmMmap (hs : Sound s) {ctx : Nat} {remapFails : Bool}
    (hregular : s.Regular (.usmMmap ctx remapFails)) : Sound (s.usmMmap ctx remapFails) := by
  obtain ⟨entry, hhead, hplace, hown, rfl⟩ := hregular
  obtain ⟨rest, hqueue⟩ := List.head?_eq_some_iff.1 hhead
  have hnext : s.usmMmap ctx false = registered s ctx entry rest := by
    simp [Registry.usmMmap, hqueue, hplace, registered]
  rw [hnext]
  exact hs.register hqueue hplace hown

theorem step (hs : Sound s) {label : Label} (hregular : s.Regular label)
    (hstep : s.step label = some next) : Sound next := by
  cases label with
  | newWorker =>
      have hroom : s.workers < maxUthreads := hregular
      cases hstep
      rw [Registry.newWorker, if_pos hroom]
      exact hs.addWorker
  | userfaultfd ctx stale =>
      simp only [Registry.step] at hstep
      split at hstep <;> cases hstep
      next hworkers => exact hs.create (hs.channel hworkers)
  | dupUsm parent ctx stale =>
      simp only [Registry.step] at hstep
      split at hstep <;> cases hstep
      next hlive => exact hs.create (hs.posts parent hlive)
  | usmMmap ctx remapFails =>
      cases hstep
      exact hs.usmMmap hregular
  | exit task =>
      simp only [Registry.step] at hstep
      split at hstep <;> cases hstep
      next hlive => exact hs.exit hlive hregular

theorem of_run {labels : List Label} (hrun : run Registry.step Registry.initial labels = some s)
    (hmeets : StepsMeet Registry.step Registry.Regular Registry.initial labels) : Sound s :=
  run_invariant_of_meets (fun _ _ _ hs hregular hstep => hs.step hregular hstep) initial hmeets
    hrun

end Sound

private theorem not_idsUnique_of_foreign {s next : Registry} (hs : Sound s) {ctx : Nat}
    {entry : Entry}
    {rest : List Entry} {remapFails : Bool} (hqueue : s.usmmph ctx = entry :: rest)
    (hplace : firstFree (s.free entry.ucx) < maxUthreads)
    (hforeign : entry.ucx ≠ (s.task entry.uctx).worker)
    (hstep : s.step (.usmMmap ctx remapFails) = some next) : ¬next.IdsUnique := by
  have hnext : next = (s.takeId entry.ucx (firstFree (s.free entry.ucx))).finishMmap ctx entry
      rest (firstFree (s.free entry.ucx)) remapFails := by
    simpa [Registry.step, Registry.usmMmap, hqueue, hplace] using hstep.symm
  have hworker : entry.ucx < s.workers := by
    apply hs.recorded ctx
    rw [hqueue]
    exact List.mem_cons_self
  have hnone : ¬∃ task, s.Holds task entry.ucx (firstFree (s.free entry.ucx)) :=
    (hs.free entry.ucx hworker _ hplace).1 (firstFree_of_lt hplace)
  intro hunique
  have hword : next.free entry.ucx =
      clearBit (s.free entry.ucx) (firstFree (s.free entry.ucx)) := by
    rw [hnext]
    exact Function.update_self ..
  have hheld : ∃ task, next.Holds task entry.ucx (firstFree (s.free entry.ucx)) := by
    have hfree := hunique.free entry.ucx (by rw [hnext]; exact hworker) _ hplace
    rw [hword, getLsbD_clearBit_self] at hfree
    simpa using hfree
  obtain ⟨task, hheld⟩ := hheld
  apply hnone
  refine ⟨task, ?_⟩
  have hne : task ≠ entry.uctx := by
    rintro rfl
    apply hforeign
    rw [← hheld.2.2.1, hnext]
    simp [Registry.finishMmap, Registry.takeId]
  have htask : next.task task = s.task task := by
    rw [hnext]
    exact Function.update_of_ne hne _ _
  rwa [Registry.Holds, htask] at hheld

/-- Worker 1 becomes the default after a process of worker 0 has started.  Its next
thread posts to worker 1 under an id of worker 0. -/
def movedDefault : List Label :=
  [.newWorker, .userfaultfd 0 ⟨0, none⟩, .usmMmap 0 false,
    .newWorker, .userfaultfd 1 ⟨0, none⟩, .usmMmap 1 false,
    .dupUsm 0 0 ⟨0, none⟩, .usmMmap 0 false, .dupUsm 1 1 ⟨0, none⟩, .usmMmap 1 false]

theorem movedDefault_shares_id :
    ∃ s, run Registry.step Registry.initial movedDefault = some s ∧ s.Holds 2 1 1 ∧
      s.Holds 3 1 1 := by
  have hany : (run Registry.step Registry.initial movedDefault).any
      (fun s => decide (s.Holds 2 1 1 ∧ s.Holds 3 1 1)) = true := by decide
  obtain ⟨s, hrun, hholds⟩ := (Option.any_eq_true _ _).1 hany
  exact ⟨s, hrun, of_decide_eq_true hholds⟩

/-- In every regular run ids are unique, the free words are right and `uthread` is only used
inside its bounds; a registration that takes its id from the word of a worker that the task
does not post to ends this. -/
theorem regular_ids_unique {labels : List Label} {s : Registry}
    (hrun : run Registry.step Registry.initial labels = some s)
    (hmeets : StepsMeet Registry.step Registry.Regular Registry.initial labels) :
    s.IdsUnique ∧ s.astray = false ∧
      ∀ (ctx : Nat) (entry : Entry) (rest : List Entry) (remapFails : Bool) (next : Registry),
        s.usmmph ctx = entry :: rest → firstFree (s.free entry.ucx) < maxUthreads →
        entry.ucx ≠ (s.task entry.uctx).worker →
        s.step (.usmMmap ctx remapFails) = some next → ¬next.IdsUnique := by
  have hsound := Sound.of_run hrun hmeets
  refine ⟨hsound.toIdsUnique, hsound.inBounds, ?_⟩
  intro ctx entry rest remapFails next hqueue hplace hforeign hstep
  exact not_idsUnique_of_foreign hsound hqueue hplace hforeign hstep

def steadyDefault : List Label :=
  [.newWorker, .userfaultfd 0 ⟨7, none⟩, .usmMmap 0 false, .dupUsm 0 0 ⟨0, none⟩,
    .usmMmap 0 false, .exit 0, .dupUsm 1 0 ⟨1, none⟩, .usmMmap 0 false]

theorem regular_ids_unique_reuse :
    ∃ s, run Registry.step Registry.initial steadyDefault = some s ∧ s.Holds 2 0 0 ∧
      s.IdsUnique := by
  have hmeets : StepsMeet Registry.step Registry.Regular Registry.initial steadyDefault := by
    decide
  have hany : (run Registry.step Registry.initial steadyDefault).any
      (fun s => decide (s.Holds 2 0 0)) = true := by decide
  obtain ⟨s, hrun, hholds⟩ := (Option.any_eq_true _ _).1 hany
  exact ⟨s, hrun, of_decide_eq_true hholds, (regular_ids_unique hrun hmeets).1⟩

end UserPaging.Usm.TaskIds
