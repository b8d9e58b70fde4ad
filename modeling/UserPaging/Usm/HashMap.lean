import UserPaging.Foundation.RobinHood

/-!
# The hash map of the daemon

`hashmap.c` is an open-addressed map that keeps its buckets by Robin Hood
hashing.  A bucket holds 48 bits of the item's hash and a distance counter of 16
bits.  The number of buckets is a power of two, and positions are reduced by
masking.  The map is rehashed into a larger array when it is set while it holds
exactly `growat` items, and into a smaller one when few are left after a
deletion.

An allocation may fail at any time.  Items are passed by address: an item may
lie in the buckets of the very map it is set in, and rehashing frees those.
-/

namespace UserPaging.Usm.HashMap

open UserPaging.Foundation.RobinHood

variable {ι κ : Type}

structure Hashed (ι : Type) where
  hash : Nat
  item : ι

/-- `struct bucket`: the counter `dib`, and the hash beside the item. -/
abbrev Bucket (ι : Type) := Slot (Hashed ι)

structure Callbacks (ι : Type) where
  hash : ι → Nat
  compare : Option (ι → ι → Int)

structure Hashmap (ι : Type) where
  cap : Nat
  nbuckets : Nat
  count : Nat
  mask : Nat
  growat : Nat
  shrinkat : Nat
  growpower : Nat
  oom : Bool
  buckets : Nat → Bucket ι

structure Malloc where
  handle : Bool
  buckets : Bool
  deriving DecidableEq, Repr

def Malloc.succeeds (malloc : Malloc) : Bool := malloc.handle && malloc.buckets

/-- `endless`: a probe never meets an empty bucket.  `freed`: an item is read from
buckets that have been freed. -/
inductive Fault where
  | endless
  | freed
  deriving DecidableEq, Repr

/-- Where the item passed to `hashmap_set` lies. -/
inductive Arg (ι : Type) where
  | value (item : ι)
  | bucket (index : Nat)

def dibLimit : Nat := 2 ^ 16

def clipHash (hash : Nat) : Nat := hash &&& 0xFFFFFFFFFFFF

def getHash (cb : Callbacks ι) (key : ι) : Nat := clipHash (cb.hash key)

def Callbacks.same (cb : Callbacks ι) (entry bucket : Hashed ι) : Bool :=
  entry.hash == bucket.hash &&
    match cb.compare with
    | none => true
    | some compare => compare entry.item bucket.item == 0

/-! ### Loops over the buckets -/

def placeLoop (mask : Nat) :
    Nat → (Nat → Bucket ι) → Nat → Bucket ι → Option (Nat → Bucket ι)
  | 0, _, _, _ => none
  | fuel + 1, buckets, j, entry =>
      let bucket := buckets j
      if bucket.dib = 0 then some (Function.update buckets j entry)
      else if bucket.dib < entry.dib then
        placeLoop mask fuel (Function.update buckets j entry) ((j + 1) &&& mask)
          ⟨(bucket.dib + 1) % dibLimit, bucket.val⟩
      else placeLoop mask fuel buckets ((j + 1) &&& mask) ⟨(entry.dib + 1) % dibLimit, entry.val⟩

/-- The loop of `hashmap_set_with_hash`, with the item that was replaced. -/
def setLoop (cb : Callbacks ι) (mask : Nat) :
    Nat → (Nat → Bucket ι) → Nat → Bucket ι → Option ((Nat → Bucket ι) × Option ι)
  | 0, _, _, _ => none
  | fuel + 1, buckets, i, entry =>
      let bucket := buckets i
      if bucket.dib = 0 then some (Function.update buckets i entry, none)
      else if cb.same entry.val bucket.val then
        some (Function.update buckets i ⟨bucket.dib, ⟨bucket.val.hash, entry.val.item⟩⟩,
          some bucket.val.item)
      else if bucket.dib < entry.dib then
        setLoop cb mask fuel (Function.update buckets i entry) ((i + 1) &&& mask)
          ⟨(bucket.dib + 1) % dibLimit, bucket.val⟩
      else
        setLoop cb mask fuel buckets ((i + 1) &&& mask) ⟨(entry.dib + 1) % dibLimit, entry.val⟩

/-- The loop of `hashmap_get_with_hash`, and the outer one of `hashmap_delete_with_hash`. -/
def findLoop (cb : Callbacks ι) (mask : Nat) (key : Hashed ι) :
    Nat → (Nat → Bucket ι) → Nat → Option (Option Nat)
  | 0, _, _ => none
  | fuel + 1, buckets, i =>
      if (buckets i).dib = 0 then some none
      else if cb.same key (buckets i).val then some (some i)
      else findLoop cb mask key fuel buckets ((i + 1) &&& mask)

/-- The inner loop of `hashmap_delete_with_hash`; `prev` is the bucket to be filled. -/
def shiftLoop (mask : Nat) : Nat → (Nat → Bucket ι) → Nat → Option (Nat → Bucket ι)
  | 0, _, _ => none
  | fuel + 1, buckets, prev =>
      let i := (prev + 1) &&& mask
      let bucket := buckets i
      if bucket.dib ≤ 1 then some (Function.update buckets prev ⟨0, (buckets prev).val⟩)
      else shiftLoop mask fuel (Function.update buckets prev ⟨bucket.dib - 1, bucket.val⟩) i

/-! ### Operations -/

def roundCap (cap : Nat) : Nat → Nat → Nat
  | 0, ncap => ncap
  | fuel + 1, ncap => if ncap < cap then roundCap cap fuel (ncap * 2) else ncap

def emptyMap (ι : Type) [Inhabited ι] (cap : Nat) : Hashmap ι where
  cap := cap
  nbuckets := cap
  count := 0
  mask := cap - 1
  growat := cap * 60 / 100
  shrinkat := cap * 10 / 100
  growpower := 1
  oom := false
  buckets := fun _ => ⟨0, ⟨0, default⟩⟩

def hashmapNewWithAllocator [Inhabited ι] (malloc : Malloc) (cap : Nat) : Option (Hashmap ι) :=
  if malloc.succeeds then some (emptyMap ι (roundCap cap cap 16)) else none

namespace Hashmap

/-- One round of the loop of `resize0`: bucket `i` of the old array goes to the new one. -/
def rehashBucket (m : Hashmap ι) (mask fuel : Nat) (buckets : Nat → Bucket ι) (i : Nat) :
    Option (Nat → Bucket ι) :=
  let entry := m.buckets i
  if entry.dib = 0 then some buckets
  else placeLoop mask fuel buckets (entry.val.hash &&& mask) ⟨1, entry.val⟩

def rehash (m : Hashmap ι) (mask fuel : Nat) (buckets : Nat → Bucket ι) :
    Option (Nat → Bucket ι) :=
  (List.range m.nbuckets).foldlM (m.rehashBucket mask fuel) buckets

/-- `resize0`; `none` inside means that an allocation failed. -/
def resize0 [Inhabited ι] (m : Hashmap ι) (malloc : Malloc) (newCap : Nat) :
    Except Fault (Option (Hashmap ι)) :=
  match hashmapNewWithAllocator malloc newCap with
  | none => .ok none
  | some map2 =>
      match m.rehash map2.mask map2.nbuckets map2.buckets with
      | none => .error .endless
      | some buckets =>
          .ok (some { m with
            buckets := buckets
            nbuckets := map2.nbuckets
            mask := map2.mask
            growat := map2.growat
            shrinkat := map2.shrinkat })

def hashmapSetWithHash [Inhabited ι] (cb : Callbacks ι) (m : Hashmap ι) (malloc : Malloc)
    (arg : Arg ι) (hash : Nat) : Except Fault (Option ι × Hashmap ι) :=
  let hash := clipHash hash
  let m := { m with oom := false }
  if m.count = m.growat then
    match m.resize0 malloc (m.nbuckets * 2 ^ m.growpower) with
    | .error fault => .error fault
    | .ok none => .ok (none, { m with oom := true })
    | .ok (some m) =>
        match arg with
        | .bucket _ => .error .freed
        | .value item => insert m item hash
  else
    match arg with
    | .bucket index => insert m (m.buckets index).val.item hash
    | .value item => insert m item hash
where
  insert (m : Hashmap ι) (item : ι) (hash : Nat) : Except Fault (Option ι × Hashmap ι) :=
    match setLoop cb m.mask m.nbuckets m.buckets (hash &&& m.mask) ⟨1, ⟨hash, item⟩⟩ with
    | none => .error .endless
    | some (buckets, none) => .ok (none, { m with buckets := buckets, count := m.count + 1 })
    | some (buckets, some old) => .ok (some old, { m with buckets := buckets })

def read (m : Hashmap ι) : Arg ι → ι
  | .value item => item
  | .bucket index => (m.buckets index).val.item

def hashmapSet [Inhabited ι] (cb : Callbacks ι) (m : Hashmap ι) (malloc : Malloc) (arg : Arg ι) :
    Except Fault (Option ι × Hashmap ι) :=
  m.hashmapSetWithHash cb malloc arg (getHash cb (m.read arg))

def hashmapGetWithHash (cb : Callbacks ι) (m : Hashmap ι) (key : ι) (hash : Nat) :
    Except Fault (Option Nat) :=
  let hash := clipHash hash
  match findLoop cb m.mask ⟨hash, key⟩ m.nbuckets m.buckets (hash &&& m.mask) with
  | none => .error .endless
  | some found => .ok found

def hashmapGet (cb : Callbacks ι) (m : Hashmap ι) (key : ι) : Except Fault (Option Nat) :=
  m.hashmapGetWithHash cb key (getHash cb key)

def write (m : Hashmap ι) (i : Nat) (item : ι) : Hashmap ι :=
  let bucket := m.buckets i
  { m with buckets := Function.update m.buckets i ⟨bucket.dib, ⟨bucket.val.hash, item⟩⟩ }

/-- The rest of a deletion once the bucket `i` of the key has been found.  The result of
shrinking is ignored. -/
def remove [Inhabited ι] (m : Hashmap ι) (malloc : Malloc) (i : Nat) :
    Except Fault (Option ι × Hashmap ι) :=
  let spare := (m.buckets i).val
  match shiftLoop m.mask m.nbuckets (Function.update m.buckets i ⟨0, spare⟩) i with
  | none => .error .endless
  | some buckets =>
      let m := { m with buckets := buckets, count := m.count - 1 }
      if m.nbuckets > m.cap ∧ m.count ≤ m.shrinkat then
        match m.resize0 malloc (m.nbuckets / 2) with
        | .error fault => .error fault
        | .ok resized => .ok (some spare.item, resized.getD m)
      else .ok (some spare.item, m)

def hashmapDeleteWithHash [Inhabited ι] (cb : Callbacks ι) (m : Hashmap ι) (malloc : Malloc)
    (key : ι) (hash : Nat) : Except Fault (Option ι × Hashmap ι) :=
  let hash := clipHash hash
  let m := { m with oom := false }
  match findLoop cb m.mask ⟨hash, key⟩ m.nbuckets m.buckets (hash &&& m.mask) with
  | none => .error .endless
  | some none => .ok (none, m)
  | some (some i) => m.remove malloc i

def hashmapDelete [Inhabited ι] (cb : Callbacks ι) (m : Hashmap ι) (malloc : Malloc) (key : ι) :
    Except Fault (Option ι × Hashmap ι) :=
  m.hashmapDeleteWithHash cb malloc key (getHash cb key)

def hashmapClear [Inhabited ι] (m : Hashmap ι) (updateCap malloc : Bool) : Hashmap ι :=
  let cap := if updateCap then m.nbuckets else m.cap
  let fresh := !updateCap && m.nbuckets != m.cap && malloc
  { m with
    count := 0
    cap := cap
    nbuckets := cap
    mask := cap - 1
    growat := cap * 75 / 100
    shrinkat := cap * 10 / 100
    buckets := fun i => if i < cap ∨ fresh then ⟨0, ⟨0, default⟩⟩ else m.buckets i }

def hashmapSetGrowByPower (m : Hashmap ι) (power : Nat) : Hashmap ι :=
  { m with growpower := if power < 1 then 1 else if power > 16 then 16 else power }

def hashmapProbe (m : Hashmap ι) (position : Nat) : Option ι :=
  let bucket := m.buckets (position &&& m.mask)
  if bucket.dib = 0 then none else some bucket.val.item

/-- The buckets in the order of the array, as long as `iter` returns true. -/
def hashmapScan {σ : Type*} (m : Hashmap ι) (iter : σ → ι → Bool × σ) (udata : σ) : Bool × σ :=
  go iter (List.range m.nbuckets) udata
where
  go (iter : σ → ι → Bool × σ) : List Nat → σ → Bool × σ
    | [], udata => (true, udata)
    | i :: rest, udata =>
        if (m.buckets i).dib = 0 then go iter rest udata
        else
          let (continue_, udata) := iter udata (m.buckets i).val.item
          if continue_ then go iter rest udata else (false, udata)

def hashmapIter (m : Hashmap ι) (i : Nat) : Option (ι × Nat) :=
  go (m.nbuckets - i) i
where
  go : Nat → Nat → Option (ι × Nat)
    | 0, _ => none
    | fuel + 1, i =>
        if (m.buckets i).dib = 0 then go fuel (i + 1) else some ((m.buckets i).val.item, i + 1)

end Hashmap

/-! ### The loops are those of Robin Hood hashing -/

section

variable {mask n : Nat} (hmask : ∀ x, x &&& mask = x % n)
include hmask

theorem placeLoop_eq (fuel : Nat) (buckets : Nat → Bucket ι) (i : Nat) (entry : Bucket ι) :
    placeLoop mask fuel buckets (i % n) entry =
      (carry n dibLimit (fun _ _ => false) fuel buckets i entry).map Prod.fst := by
  induction fuel generalizing buckets i entry with
  | zero => rfl
  | succ fuel ih =>
      simp only [placeLoop, carry, hmask, Nat.mod_add_mod, ih, Bool.false_eq_true, if_false]
      split
      · rfl
      · split <;> rfl

theorem setLoop_eq (cb : Callbacks ι) (fuel : Nat) (buckets : Nat → Bucket ι) (i : Nat)
    (entry : Bucket ι) :
    setLoop cb mask fuel buckets (i % n) entry =
      (carry n dibLimit cb.same fuel buckets i entry).map
        (Prod.map id (Option.map Hashed.item)) := by
  induction fuel generalizing buckets i entry with
  | zero => rfl
  | succ fuel ih =>
      simp only [setLoop, carry, hmask, Nat.mod_add_mod, ih]
      split
      · rfl
      · split
        · -- the hashes agree, so that the whole entry is stored
          rename_i hsame
          have hhash : entry.val.hash = (buckets (i % n)).val.hash := by
            simp only [Callbacks.same, Bool.and_eq_true, beq_iff_eq] at hsame
            exact hsame.1
          rw [← hhash]
          rfl
        · split <;> rfl

theorem findLoop_eq (cb : Callbacks ι) (key : Hashed ι) (fuel : Nat) (buckets : Nat → Bucket ι)
    (i : Nat) :
    findLoop cb mask key fuel buckets (i % n) = find n (cb.same key) fuel buckets i := by
  induction fuel generalizing i with
  | zero => rfl
  | succ fuel ih => simp only [findLoop, find, hmask, Nat.mod_add_mod, ih]

theorem shiftLoop_eq (fuel : Nat) (buckets : Nat → Bucket ι) (prev : Nat) :
    shiftLoop mask fuel buckets (prev % n) = shift n fuel buckets prev := by
  induction fuel generalizing buckets prev with
  | zero => rfl
  | succ fuel ih => simp only [shiftLoop, shift, hmask, Nat.mod_add_mod, ih]

end

end UserPaging.Usm.HashMap
