import Mathlib.Data.List.Basic
import Mathlib.Data.List.Nodup
import Mathlib.Logic.Function.Basic

/-!
# Circular lists through their pointers

The lists of `list.h`: every node, the head of a list included, has a pointer to the
next node and one to the previous node.  `Ring` says that the pointers starting from
a head run through given nodes and back.  Operations are specified by the rings they
make and by the nodes whose pointers they leave alone.

Adding a node that is already in the list does not give a list again: the pointers
no longer lead back to the head.
-/

namespace UserPaging.Foundation

structure Links (α : Type*) where
  next : α → α
  prev : α → α

namespace Links

variable {α : Type*}

/-! ### Rings -/

/-- The pointers lead from `a` through the nodes to `b`, and back. -/
def Path (m : Links α) : α → List α → α → Prop
  | a, [], b => m.next a = b ∧ m.prev b = a
  | a, x :: nodes, b => m.next a = x ∧ m.prev x = a ∧ Path m x nodes b

structure Ring (m : Links α) (head : α) (nodes : List α) : Prop where
  path : m.Path head nodes head
  nodup : (head :: nodes).Nodup

def SameAt (m m' : Links α) (a : α) : Prop := m'.next a = m.next a ∧ m'.prev a = m.prev a

theorem SameAt.trans {m m' m'' : Links α} {a : α} (h : SameAt m m' a) (h' : SameAt m' m'' a) :
    SameAt m m'' a :=
  ⟨h'.1.trans h.1, h'.2.trans h.2⟩

variable {m m' : Links α} {a b x head new : α} {nodes : List α}

private theorem Path.congr (hnext : ∀ c ∈ a :: nodes, m'.next c = m.next c)
    (hprev : ∀ c ∈ nodes ++ [b], m'.prev c = m.prev c) (h : m.Path a nodes b) :
    m'.Path a nodes b := by
  induction nodes generalizing a with
  | nil =>
      obtain ⟨hforth, hback⟩ := h
      exact ⟨(hnext a List.mem_cons_self).trans hforth, (hprev b (by simp)).trans hback⟩
  | cons x nodes ih =>
      obtain ⟨hforth, hback, hrest⟩ := h
      refine ⟨(hnext a List.mem_cons_self).trans hforth, (hprev x (by simp)).trans hback, ?_⟩
      exact ih (fun c hc => hnext c (List.mem_cons_of_mem _ hc))
        (fun c hc => hprev c (by simp_all)) hrest

theorem Ring.congr (h : m.Ring head nodes) (hsame : ∀ c ∈ head :: nodes, SameAt m m' c) :
    m'.Ring head nodes := by
  refine ⟨h.path.congr (fun c hc => (hsame c hc).1) (fun c hc => ?_), h.nodup⟩
  refine (hsame c ?_).2
  rcases List.mem_append.1 hc with hc | hc
  · exact List.mem_cons_of_mem _ hc
  · rw [List.mem_singleton.1 hc]
    exact List.mem_cons_self

private theorem Path.unique {nodes' : List α} (h : m.Path a nodes b) (h' : m.Path a nodes' b)
    (hb : b ∉ nodes) (hb' : b ∉ nodes') : nodes = nodes' := by
  induction nodes generalizing a nodes' with
  | nil =>
      cases nodes' with
      | nil => rfl
      | cons x nodes' => exact absurd (h.1.symm.trans h'.1) (fun heq => hb' (by simp [heq]))
  | cons x nodes ih =>
      cases nodes' with
      | nil => exact absurd (h'.1.symm.trans h.1) (fun heq => hb (by simp [heq]))
      | cons y nodes' =>
          have hxy : x = y := h.1.symm.trans h'.1
          subst hxy
          rw [ih h.2.2 h'.2.2 (fun hmem => hb (List.mem_cons_of_mem _ hmem))
            (fun hmem => hb' (List.mem_cons_of_mem _ hmem))]

theorem Ring.unique {nodes' : List α} (h : m.Ring head nodes) (h' : m.Ring head nodes') :
    nodes = nodes' :=
  h.path.unique h'.path (List.nodup_cons.1 h.nodup).1 (List.nodup_cons.1 h'.nodup).1

private theorem Path.append {nodes' : List α} (h : m.Path a (nodes ++ x :: nodes') b) :
    m.Path a nodes x ∧ m.Path x nodes' b := by
  induction nodes generalizing a with
  | nil => exact ⟨⟨h.1, h.2.1⟩, h.2.2⟩
  | cons y nodes ih =>
      obtain ⟨hfirst, hrest⟩ := ih h.2.2
      exact ⟨⟨h.1, h.2.1, hfirst⟩, hrest⟩

private theorem Path.concat {nodes' : List α} (h : m.Path a nodes x) (h' : m.Path x nodes' b) :
    m.Path a (nodes ++ x :: nodes') b := by
  induction nodes generalizing a with
  | nil => exact ⟨h.1, h.2, h'⟩
  | cons y nodes ih => exact ⟨h.1, h.2.1, ih h.2.2⟩

private theorem Path.mem_of_closed {inside : α → Prop} (h : m.Path a nodes b)
    (hstart : inside (m.next a)) (hclosed : ∀ c, inside c → inside (m.next c)) : inside b := by
  induction nodes generalizing a with
  | nil => exact h.1 ▸ hstart
  | cons x nodes ih =>
      apply ih h.2.2
      exact hclosed x (h.1 ▸ hstart)

private theorem Path.next_mem (h : m.Path a nodes b) {c : α} (hc : c ∈ a :: nodes) :
    m.next c ∈ nodes ++ [b] := by
  induction nodes generalizing a with
  | nil => simp_all [Path]
  | cons x nodes ih =>
      rcases List.mem_cons.1 hc with rfl | hc
      · simp [h.1]
      · exact List.mem_append.2 (by
          rcases List.mem_append.1 (ih h.2.2 hc) with hin | hend
          · exact Or.inl (List.mem_cons_of_mem _ hin)
          · exact Or.inr hend)

private theorem Path.prev_last (h : m.Path a nodes b) :
    m.prev b = (a :: nodes).getLast (by simp) := by
  induction nodes generalizing a with
  | nil => exact h.2
  | cons x nodes ih => exact ih h.2.2

private theorem Ring.prev_mem (h : m.Ring head nodes) : m.prev head ∈ head :: nodes := by
  rw [h.path.prev_last]
  exact List.getLast_mem _

private theorem Ring.next_mem (h : m.Ring head nodes) : m.next head ∈ head :: nodes := by
  cases nodes with
  | nil => simp [h.path.1]
  | cons x nodes => simp [h.path.1]

private theorem Ring.head_not_mem (h : m.Ring head nodes) : head ∉ nodes :=
  (List.nodup_cons.1 h.nodup).1

theorem Ring.nodup_nodes (h : m.Ring head nodes) : nodes.Nodup := (List.nodup_cons.1 h.nodup).2

theorem Ring.next_eq_head_iff (h : m.Ring head nodes) : m.next head = head ↔ nodes = [] := by
  cases nodes with
  | nil => simpa using h.path.1
  | cons x nodes =>
      have hne : x ≠ head := fun heq => (List.nodup_cons.1 h.nodup).1 (by simp [heq])
      simpa [h.path.1] using hne

/-! ### Operations -/

variable [DecidableEq α]

def setNext (m : Links α) (a b : α) : Links α := { m with next := Function.update m.next a b }

def setPrev (m : Links α) (a b : α) : Links α := { m with prev := Function.update m.prev a b }

/-- `INIT_LIST_HEAD` -/
def init (m : Links α) (head : α) : Links α := (m.setNext head head).setPrev head head

/-- `__list_add` -/
def addBetween (m : Links α) (new prev next : α) : Links α :=
  (((m.setPrev next new).setNext new next).setPrev new prev).setNext prev new

def add (m : Links α) (new head : α) : Links α := m.addBetween new head (m.next head)

def addTail (m : Links α) (new head : α) : Links α := m.addBetween new (m.prev head) head

/-- `__list_del` -/
def delBetween (m : Links α) (prev next : α) : Links α := (m.setPrev next prev).setNext prev next

def move (m : Links α) (node head : α) : Links α :=
  (m.delBetween (m.prev node) (m.next node)).add node head

def moveTail (m : Links α) (node head : α) : Links α :=
  (m.delBetween (m.prev node) (m.next node)).addTail node head

/-- `list_for_each_safe` with `list_move_tail` to another list as its body, from the nodes in
its two variables on: the pointers at the end and the number of rounds. -/
def drainTail (head target : α) : Nat → Links α → α → α → Option (Links α × Nat)
  | 0, _, _, _ => none
  | fuel + 1, m, pos, following =>
      if pos = head then some (m, 0)
      else
        let m := m.moveTail pos target
        (drainTail head target fuel m following (m.next following)).map fun result =>
          (result.1, result.2 + 1)

theorem ring_init (m : Links α) (head : α) : (m.init head).Ring head [] :=
  ⟨⟨by simp [init, setNext, setPrev], by simp [init, setNext, setPrev]⟩, by simp⟩

theorem sameAt_init (m : Links α) {head c : α} (hc : c ≠ head) : SameAt m (m.init head) c := by
  simp [SameAt, init, setNext, setPrev, hc]

private theorem next_addBetween (m : Links α) (new prev next c : α) :
    (m.addBetween new prev next).next c =
      if c = prev then new else if c = new then next else m.next c := by
  simp [addBetween, setNext, setPrev, Function.update_apply]

private theorem prev_addBetween (m : Links α) (new prev next c : α) :
    (m.addBetween new prev next).prev c =
      if c = new then prev else if c = next then new else m.prev c := by
  simp [addBetween, setNext, setPrev, Function.update_apply]

private theorem next_delBetween (m : Links α) (prev next c : α) :
    (m.delBetween prev next).next c = if c = prev then next else m.next c := by
  simp [delBetween, setNext, setPrev, Function.update_apply]

private theorem prev_delBetween (m : Links α) (prev next c : α) :
    (m.delBetween prev next).prev c = if c = next then prev else m.prev c := by
  simp [delBetween, setNext, setPrev, Function.update_apply]

theorem Ring.add (h : m.Ring head nodes) (hnew : new ∉ head :: nodes) :
    (m.add new head).Ring head (new :: nodes) := by
  obtain ⟨hhead, hnodes⟩ := not_or.1 (fun hmem => hnew (List.mem_cons.2 hmem))
  refine ⟨?_, by simp [hnodes, h.nodup_nodes, h.head_not_mem, Ne.symm hhead]⟩
  refine ⟨by simp [Links.add, next_addBetween], by simp [Links.add, prev_addBetween], ?_⟩
  cases nodes with
  | nil =>
      have hnext : m.next head = head := h.path.1
      exact ⟨by simp [Links.add, next_addBetween, hnext, hhead],
        by simp [Links.add, prev_addBetween, hnext, Ne.symm hhead]⟩
  | cons x nodes =>
      have hnext : m.next head = x := h.path.1
      have hx : x ≠ new := fun heq => hnodes (by simp [heq])
      have hhx : head ≠ x := fun heq => h.head_not_mem (by simp [heq])
      have hxn : x ∉ nodes := (List.nodup_cons.1 h.nodup_nodes).1
      refine ⟨by simp [Links.add, next_addBetween, hnext, hhead],
        by simp [Links.add, prev_addBetween, hnext, hx], ?_⟩
      refine h.path.2.2.congr (fun c hc => ?_) (fun c hc => ?_)
      · have hch : c ≠ head := fun heq => h.head_not_mem (heq ▸ hc)
        have hcn : c ≠ new := fun heq => hnodes (heq ▸ hc)
        simp [Links.add, next_addBetween, hch, hcn]
      · have hcx : c ≠ x := by
          rintro rfl
          rcases List.mem_append.1 hc with hc | hc
          · exact hxn hc
          · exact hhx (List.mem_singleton.1 hc).symm
        have hcn : c ≠ new := by
          rintro rfl
          rcases List.mem_append.1 hc with hc | hc
          · exact hnodes (List.mem_cons_of_mem _ hc)
          · exact hhead (List.mem_singleton.1 hc)
        simp [Links.add, prev_addBetween, hnext, hcx, hcn]

theorem Ring.addTail (h : m.Ring head nodes) (hnew : new ∉ head :: nodes) :
    (m.addTail new head).Ring head (nodes ++ [new]) := by
  obtain ⟨hhead, hnodes⟩ := not_or.1 (fun hmem => hnew (List.mem_cons.2 hmem))
  refine ⟨?_, ?_⟩
  · rcases List.eq_nil_or_concat nodes with rfl | ⟨nodes, y, rfl⟩
    · have hprev : m.prev head = head := h.path.2
      refine ⟨?_, ?_, ?_, ?_⟩ <;>
        simp [Links.addTail, next_addBetween, prev_addBetween, hprev, hhead, Ne.symm hhead]
    · simp only [List.concat_eq_append] at *
      obtain ⟨hfirst, hlast⟩ := h.path.append
      have hprev : m.prev head = y := hlast.2
      have hy : y ≠ new := fun heq => hnodes (by simp [heq])
      have hyh : head ≠ y := fun heq => h.head_not_mem (by simp [heq])
      have hyn : y ∉ nodes := by
        have hnodup := h.nodup_nodes
        rw [List.nodup_append] at hnodup
        exact fun hmem => hnodup.2.2 y hmem y (by simp) rfl
      have hstart : (m.addTail new head).Path head nodes y := by
        refine hfirst.congr (fun c hc => ?_) (fun c hc => ?_)
        · have hcy : c ≠ y := by
            rintro rfl
            rcases List.mem_cons.1 hc with hc | hc
            · exact hyh hc.symm
            · exact hyn hc
          have hcn : c ≠ new := by
            rintro rfl
            rcases List.mem_cons.1 hc with hc | hc
            · exact hhead hc
            · exact hnodes (by simp [hc])
          simp [Links.addTail, next_addBetween, hprev, hcy, hcn]
        · have hcn : c ≠ new := fun heq => hnodes (heq ▸ hc)
          have hch : c ≠ head := fun heq => h.head_not_mem (heq ▸ hc)
          simp [Links.addTail, prev_addBetween, hcn, hch]
      have hend : (m.addTail new head).Path y [new] head := by
        refine ⟨?_, ?_, ?_, ?_⟩ <;>
          simp [Links.addTail, next_addBetween, prev_addBetween, hprev, Ne.symm hy, Ne.symm hhead]
      simpa using hstart.concat hend
  · have hnodup := h.nodup
    simp only [List.nodup_cons, List.mem_append, List.mem_singleton, List.nodup_append] at *
    grind

theorem Ring.sameAt_add (h : m.Ring head nodes) {c : α} (hc : c ∉ new :: head :: nodes) :
    SameAt m (m.add new head) c := by
  simp only [List.mem_cons, not_or] at hc
  have hnext : c ≠ m.next head := fun heq => by
    have hmem := heq ▸ h.next_mem
    simp [hc] at hmem
  simp [SameAt, Links.add, next_addBetween, prev_addBetween, hc, hnext]

theorem Ring.sameAt_addTail (h : m.Ring head nodes) {c : α} (hc : c ∉ new :: head :: nodes) :
    SameAt m (m.addTail new head) c := by
  simp only [List.mem_cons, not_or] at hc
  have hprev : c ≠ m.prev head := fun heq => by
    have hmem := heq ▸ h.prev_mem
    simp [hc] at hmem
  simp [SameAt, Links.addTail, next_addBetween, prev_addBetween, hc, hprev]

private theorem Ring.delFirst (h : m.Ring head (x :: nodes)) :
    (m.delBetween (m.prev x) (m.next x)).Ring head nodes := by
  have hprev : m.prev x = head := h.path.2.1
  have hnodup := h.nodup
  simp only [List.nodup_cons, List.mem_cons, not_or] at hnodup
  refine ⟨?_, by simp [hnodup]⟩
  cases nodes with
  | nil =>
      have hnext : m.next x = head := h.path.2.2.1
      exact ⟨by simp [next_delBetween, hprev, hnext], by simp [prev_delBetween, hprev, hnext]⟩
  | cons y nodes =>
      have hnext : m.next x = y := h.path.2.2.1
      refine ⟨by simp [next_delBetween, hprev, hnext], by simp [prev_delBetween, hprev, hnext], ?_⟩
      refine h.path.2.2.2.2.congr (fun c hc => ?_) (fun c hc => ?_)
      · have hch : c ≠ head := by grind
        simp [next_delBetween, hprev, hch]
      · have hcy : c ≠ y := by grind
        simp [prev_delBetween, hnext, hcy]

private theorem Ring.sameAt_delFirst (h : m.Ring head (x :: nodes)) {c : α}
    (hc : c ∉ head :: nodes) :
    SameAt m (m.delBetween (m.prev x) (m.next x)) c := by
  have hprev : m.prev x = head := h.path.2.1
  have hnext : m.next x ∈ head :: nodes := by
    cases nodes with
    | nil => simp [h.path.2.2.1]
    | cons y nodes => simp [h.path.2.2.1]
  have hcn : c ≠ m.next x := fun heq => hc (heq ▸ hnext)
  have hch : c ≠ head := fun heq => hc (by simp [heq])
  simp [SameAt, next_delBetween, prev_delBetween, hprev, hch, hcn]

/-! ### Moving between lists -/

structure Moved (m m' : Links α) (a b : α) (left gained touched : List α) : Prop where
  left : m'.Ring a left
  gained : m'.Ring b gained
  same : ∀ c ∉ touched, SameAt m m' c

section Move

variable {others : List α}

private theorem Ring.delFirst_other (h : m.Ring a (x :: nodes)) (h' : m.Ring b others)
    (hdisj : ∀ c ∈ a :: x :: nodes, c ∉ b :: others) :
    (m.delBetween (m.prev x) (m.next x)).Ring b others :=
  h'.congr fun c hc => h.sameAt_delFirst (by grind)

private theorem Ring.moved_of_gained (h : m.Ring a (x :: nodes))
    (hdisj : ∀ c ∈ a :: x :: nodes, c ∉ b :: others) {gained : List α} (hgained : m'.Ring b gained)
    (hsame : ∀ c ∉ x :: b :: others, SameAt (m.delBetween (m.prev x) (m.next x)) m' c) :
    Moved m m' a b nodes gained (a :: x :: nodes ++ b :: others) := by
  have hx : x ∉ a :: nodes := by
    have hnodup := h.nodup
    grind
  refine ⟨h.delFirst.congr fun c hc => hsame c (by grind), hgained, ?_⟩
  intro c hc
  have hdel : SameAt m (m.delBetween (m.prev x) (m.next x)) c := h.sameAt_delFirst (by grind)
  exact hdel.trans (hsame c (by grind))

theorem Ring.move_first (h : m.Ring a (x :: nodes)) (h' : m.Ring b others)
    (hdisj : ∀ c ∈ a :: x :: nodes, c ∉ b :: others) :
    Moved m (m.move x b) a b nodes (x :: others) (a :: x :: nodes ++ b :: others) := by
  have hother := h.delFirst_other h' hdisj
  exact h.moved_of_gained hdisj (hother.add (hdisj x (by simp))) fun c hc => hother.sameAt_add hc

private theorem Ring.moveTail_first (h : m.Ring a (x :: nodes)) (h' : m.Ring b others)
    (hdisj : ∀ c ∈ a :: x :: nodes, c ∉ b :: others) :
    Moved m (m.moveTail x b) a b nodes (others ++ [x]) (a :: x :: nodes ++ b :: others) := by
  have hother := h.delFirst_other h' hdisj
  exact h.moved_of_gained hdisj (hother.addTail (hdisj x (by simp))) fun c hc =>
    hother.sameAt_addTail hc

/-- The loop empties its list into the other one, in order.  Each round moves the first node,
and the variables of the loop are the first two nodes of what is left. -/
theorem Ring.drainTail (h : m.Ring a nodes) (h' : m.Ring b others)
    (hdisj : ∀ c ∈ a :: nodes, c ∉ b :: others) {fuel : Nat} (hfuel : nodes.length < fuel) :
    ∃ m', Links.drainTail a b fuel m (m.next a) (m.next (m.next a)) = some (m', nodes.length) ∧
      Moved m m' a b [] (others ++ nodes) (a :: nodes ++ b :: others) := by
  induction nodes generalizing m others fuel with
  | nil =>
      obtain ⟨fuel, rfl⟩ := Nat.exists_eq_succ_of_ne_zero (Nat.ne_of_gt hfuel)
      refine ⟨m, by simp [Links.drainTail, h.path.1], h, by simpa using h', fun c _ => ⟨rfl, rfl⟩⟩
  | cons x nodes ih =>
      obtain ⟨fuel, rfl⟩ := Nat.exists_eq_succ_of_ne_zero (Nat.ne_of_gt (Nat.zero_lt_of_lt hfuel))
      have hx : m.next a = x := h.path.1
      have hxa : x ≠ a := fun heq => h.head_not_mem (by simp [heq])
      have hmoved := h.moveTail_first h' hdisj
      have hfirst : (m.moveTail x b).next a = m.next x := by
        cases nodes with
        | nil => rw [hmoved.left.path.1, h.path.2.2.1]
        | cons y nodes => rw [hmoved.left.path.1, h.path.2.2.1]
      have hrest : ∀ c ∈ a :: nodes, c ∉ b :: (others ++ [x]) := by
        have hnodup := h.nodup
        grind
      obtain ⟨m', hrun, hdone⟩ := ih hmoved.left hmoved.gained hrest (Nat.lt_of_succ_lt_succ hfuel)
      rw [hfirst] at hrun
      refine ⟨m', by simp [Links.drainTail, hx, hxa, hrun], hdone.left, by
        simpa using hdone.gained, ?_⟩
      intro c hc
      exact (hmoved.same c hc).trans (hdone.same c (by grind))

end Move

/-! ### A node added twice -/

/-- `list_add` of a node that is in the list already: whatever is reached from the head is the
node or one of those that stood before it. -/
theorem Ring.not_ring_add (h : m.Ring head nodes) (hx : x ∈ nodes) (nodes' : List α) :
    ¬(m.add x head).Ring head nodes' := by
  intro hring
  obtain ⟨before, after, rfl⟩ := List.append_of_mem hx
  obtain ⟨hbefore, _⟩ := h.path.append
  have hhead := h.head_not_mem
  have hxhead : x ≠ head := fun heq => hhead (by simp [heq])
  have hxbefore : x ∉ before := by
    have hnodup := h.nodup_nodes
    grind
  have hinside : head ∈ before ++ [x] := by
    have hclosed : ∀ c, c ∈ before ++ [x] → (m.add x head).next c ∈ before ++ [x] := by
      intro c hc
      have hch : c ≠ head := fun heq => hhead (by grind)
      by_cases hcx : c = x
      · subst hcx
        have hfirst := hbefore.next_mem List.mem_cons_self
        simpa [Links.add, next_addBetween, hch] using hfirst
      · have hcb : c ∈ head :: before := by grind
        simpa [Links.add, next_addBetween, hch, hcx] using hbefore.next_mem hcb
    exact hring.path.mem_of_closed (by simp [Links.add, next_addBetween]) hclosed
  grind

end Links

end UserPaging.Foundation
