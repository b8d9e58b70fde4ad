import Mathlib.Data.List.Forall2
import UserPaging.Foundation.Counter
import UserPaging.Foundation.CsvReader
import UserPaging.Foundation.Differences
import UserPaging.Foundation.StableSort
import UserPaging.Timings.Chart

/-!
# The stacked chart

`convert-timeline-to-stacked-area-chart.py` reads its file twice.  The first time it
finds the order in which the tracepoints were hit most often; the second time it
prints the rows that follow this order, as the delays between neighbours.

A row's own order comes from a stable sort and the second pass checks the row against
the common order with a loop of its own; `OwnOrder` and `Follows` say what the two do
without either.
-/

namespace UserPaging.Timings

open UserPaging.Foundation

def str (value : Int) : List Char :=
  if value < 0 then '-' :: Nat.toDigits 10 value.natAbs else Nat.toDigits 10 value.natAbs

namespace StackedChart

/-! ### The two passes -/

/-- The lines after the first, when `lines` of them have been printed. -/
def printRows (order : List Nat) (maxLines : Option Int) (lines : Nat) :
    List (List (List Char)) → Option (List Char)
  | [] => some []
  | row :: rows =>
      match reorderTimestampsAndConvertToDelays row order with
      | none => none
      | some none => printRows order maxLines lines rows
      | some (some reordered) =>
          let line := csvLine (reordered.map str) ++ ['\n']
          if maxLines = some ((lines + 1 : Nat) : Int) then some line
          else (printRows order maxLines (lines + 1) rows).map (line ++ ·)

def printStackedChart (text : List Char) (order : List Nat) (maxLines : Option Int) :
    Option (List Char) :=
  match csvRecords text with
  | [] => none
  | columns :: rows =>
      match order.mapM (columns[·]?) with
      | none => none
      | some names =>
          (printRows order maxLines 0 rows).map (csvLine names ++ '\n' :: ·)

def mostCommonOrder (text : List Char) : Option (List Nat) :=
  match csvRecords text with
  | [] => none
  | _ :: rows =>
      match rows.mapM orderOfRow with
      | none => none
      | some orders => (Counter.mostCommon (Counter.ofItems orders)).map Prod.fst

def main (text : List Char) (maxLines : Option Int) : Option (List Char) :=
  match mostCommonOrder text with
  | none => none
  | some order => printStackedChart text order maxLines

/-! ### Timestamps -/

def timestamp (row : List (List Char)) (i : Nat) : Option Int :=
  match row[i]? with
  | none => none
  | some field => if field = [] then none else int field

def Stamped (row : List (List Char)) (order : List Nat) (stamps : List Int) : Prop :=
  List.Forall₂ (fun i stamp => timestamp row i = some stamp) order stamps

/-- There is a timestamp in every column of the order, none before the one in the column
before. -/
def Follows (order : List Nat) (row : List (List Char)) : Prop :=
  ∃ stamps, Stamped row order stamps ∧ stamps.Pairwise (· ≤ ·)

def Earlier (row : List (List Char)) (i j : Nat) : Prop :=
  ∃ s ∈ timestamp row i, ∃ t ∈ timestamp row j, s < t ∨ (s = t ∧ i < j)

structure OwnOrder (row : List (List Char)) (order : List Nat) : Prop where
  hit : ∀ i, i ∈ order ↔ (timestamp row i).isSome
  sorted : order.Pairwise (Earlier row)

theorem mapM_eq_some_iff {α β : Type} {f : α → Option β} {l : List α} {bs : List β} :
    l.mapM f = some bs ↔ List.Forall₂ (fun a b => f a = some b) l bs := by
  induction l generalizing bs with
  | nil =>
      rw [List.mapM_nil, List.forall₂_nil_left_iff]
      exact ⟨fun h => (Option.some.inj h).symm, fun h => congrArg some h.symm⟩
  | cons a l ih =>
      rw [List.mapM_cons, List.forall₂_cons_left_iff]
      constructor
      · intro h
        obtain ⟨b, hb, h⟩ := Option.bind_eq_some_iff.1 h
        obtain ⟨rest, hrest, h⟩ := Option.bind_eq_some_iff.1 h
        exact ⟨b, rest, hb, ih.1 hrest, (Option.some.inj h).symm⟩
      · rintro ⟨b, rest, hb, hrest, rfl⟩
        rw [hb, ih.2 hrest]
        rfl

private theorem forall₂_some_iff {α β : Type} {f : α → Option β} {l : List α} {bs : List β} :
    List.Forall₂ (fun a b => f a = some b) l bs ↔ l.map f = bs.map some := by
  rw [← List.forall₂_eq_eq_eq, List.forall₂_map_left_iff, List.forall₂_map_right_iff]

theorem exists_of_mapM {α β : Type} {f : α → Option β} {l : List α} {bs : List β}
    (h : l.mapM f = some bs) {a : α} (ha : a ∈ l) : ∃ b, f a = some b := by
  have hmem : f a ∈ bs.map some := by
    rw [← forall₂_some_iff.1 (mapM_eq_some_iff.1 h)]
    exact List.mem_map_of_mem ha
  obtain ⟨b, _, hb⟩ := List.mem_map.1 hmem
  exact ⟨b, hb.symm⟩

theorem exists_of_mem_right {α β : Type} {R : α → β → Prop} {l : List α} {bs : List β}
    (h : List.Forall₂ R l bs) {b : β} (hb : b ∈ bs) : ∃ a ∈ l, R a b := by
  induction h with
  | nil => cases hb
  | @cons a b' l bs hab _ ih =>
      rcases List.mem_cons.1 hb with rfl | hb
      · exact ⟨a, List.mem_cons_self, hab⟩
      · obtain ⟨other, hother, hR⟩ := ih hb
        exact ⟨other, List.mem_cons_of_mem _ hother, hR⟩

instance (order : List Nat) (row : List (List Char)) : Decidable (Follows order row) :=
  decidable_of_iff (∃ stamps ∈ order.mapM (timestamp row), stamps.Pairwise (· ≤ ·)) (by
    unfold Follows Stamped
    simp only [Option.mem_def, mapM_eq_some_iff])

private theorem Earlier.asymm {row : List (List Char)} {i j : Nat} (hij : Earlier row i j)
    (hji : Earlier row j i) : i = j := by
  obtain ⟨s, hs, t, ht, hst⟩ := hij
  obtain ⟨t', ht', s', hs', hts⟩ := hji
  rw [Option.mem_def] at hs ht hs' ht'
  rw [hs, Option.some.injEq] at hs'
  rw [ht, Option.some.injEq] at ht'
  omega

theorem OwnOrder.nodup {row : List (List Char)} {order : List Nat} (h : OwnOrder row order) :
    order.Nodup := by
  refine h.sorted.imp fun {i j} hij heq => ?_
  subst heq
  obtain ⟨s, hs, t, ht, hst⟩ := hij
  rw [Option.mem_def] at hs ht
  rw [hs, Option.some.injEq] at ht
  omega

theorem OwnOrder.unique {row : List (List Char)} {order order' : List Nat}
    (h : OwnOrder row order) (h' : OwnOrder row order') : order = order' := by
  refine List.Perm.eq_of_pairwise (fun _ _ _ _ => Earlier.asymm) h.sorted h'.sorted ?_
  rw [List.perm_ext_iff_of_nodup h.nodup h'.nodup]
  intro i
  rw [h.hit, h'.hit]

private theorem stamped_map {row : List (List Char)} {order : List Nat}
    (hhit : ∀ i ∈ order, (timestamp row i).isSome) :
    Stamped row order (order.map fun i => (timestamp row i).getD 0) := by
  rw [Stamped, List.forall₂_map_right_iff, List.forall₂_same]
  intro i hi
  obtain ⟨stamp, hstamp⟩ := Option.isSome_iff_exists.1 (hhit i hi)
  rw [hstamp, Option.getD_some]

theorem OwnOrder.follows {row : List (List Char)} {order : List Nat} (h : OwnOrder row order) :
    Follows order row := by
  refine ⟨_, stamped_map fun i hi => (h.hit i).1 hi, ?_⟩
  rw [List.pairwise_map]
  refine h.sorted.imp fun {i j} hij => ?_
  obtain ⟨s, hs, t, ht, hst⟩ := hij
  rw [Option.mem_def] at hs ht
  rw [hs, ht, Option.getD_some, Option.getD_some]
  omega

/-! ### The first pass -/

private theorem timestamp_eq_some_iff {row : List (List Char)} {i : Nat} {stamp : Int} :
    timestamp row i = some stamp ↔
      ∃ field, row[i]? = some field ∧ field ≠ [] ∧ int field = some stamp := by
  unfold timestamp
  cases row[i]? with
  | none => simp
  | some field => by_cases hempty : field = [] <;> simp [hempty]

def hitOf (hit : List Char × Nat) : Option (Nat × Int) :=
  (int hit.1).map fun timestamp => (hit.2, timestamp)

section Hits

variable {row : List (List Char)} {pairs : List (Nat × Int)}
  (hpairs : List.Forall₂ (fun hit pair => hitOf hit = some pair)
    (row.zipIdx.filter fun hit => hit.1 ≠ []) pairs)

include hpairs

private theorem mem_hits_iff (i : Nat) (stamp : Int) :
    (i, stamp) ∈ pairs ↔ timestamp row i = some stamp := by
  have hmap := forall₂_some_iff.1 hpairs
  have hmem : (i, stamp) ∈ pairs ↔ some (i, stamp) ∈ pairs.map some := by simp
  rw [hmem, ← hmap, List.mem_map, timestamp_eq_some_iff]
  constructor
  · rintro ⟨⟨field, place⟩, hhit, hpair⟩
    obtain ⟨hzip, hne⟩ := List.mem_filter.1 hhit
    obtain ⟨value, hvalue, heq⟩ := Option.map_eq_some_iff.1 hpair
    cases heq
    exact ⟨field, List.mem_zipIdx_iff_getElem?.1 hzip, by simpa using hne, hvalue⟩
  · rintro ⟨field, hfield, hne, hvalue⟩
    refine ⟨(field, i), List.mem_filter.2 ⟨List.mem_zipIdx_iff_getElem?.2 hfield, ?_⟩, ?_⟩
    · simpa using hne
    · rw [hitOf, hvalue]
      rfl

private theorem places_hits : (pairs.map Prod.fst).Pairwise (· < ·) := by
  have hmap : (row.zipIdx.filter fun hit => hit.1 ≠ []).map Prod.snd = pairs.map Prod.fst := by
    rw [← List.forall₂_eq_eq_eq, List.forall₂_map_left_iff, List.forall₂_map_right_iff]
    refine hpairs.imp fun hit pair hpair => ?_
    obtain ⟨value, _, rfl⟩ := Option.map_eq_some_iff.1 hpair
    rfl
  have hzip : (row.zipIdx.map Prod.snd).Pairwise (· < ·) := by
    rw [List.zipIdx_map_snd]
    exact List.pairwise_lt_range'
  rw [← hmap]
  exact hzip.sublist (List.filter_sublist.map _)

end Hits

private theorem ownOrder_of_orderOfRow {row : List (List Char)} {order : List Nat}
    (horder : orderOfRow row = some order) : OwnOrder row order := by
  simp only [orderOfRow] at horder
  split at horder
  · cases horder
  · rename_i pairs hpairs
    cases horder
    have hhits := mapM_eq_some_iff.1 hpairs
    have hmem : ∀ pair, pair ∈ byKey pairs ↔ timestamp row pair.1 = some pair.2 := by
      intro pair
      rw [byKey, List.mem_mergeSort]
      exact mem_hits_iff hhits pair.1 pair.2
    change OwnOrder row ((byKey pairs).map Prod.fst)
    constructor
    · intro i
      rw [List.mem_map, Option.isSome_iff_exists]
      constructor
      · rintro ⟨pair, hpair, rfl⟩
        exact ⟨pair.2, (hmem pair).1 hpair⟩
      · rintro ⟨stamp, hstamp⟩
        exact ⟨(i, stamp), (hmem (i, stamp)).2 hstamp, rfl⟩
    · rw [List.pairwise_map]
      refine (pairwise_byKey (places_hits hhits)).imp_of_mem fun {a b} ha hb hab => ?_
      exact ⟨a.2, (hmem a).1 ha, b.2, (hmem b).1 hb, hab⟩

/-! ### The second pass -/

private theorem reorderFrom_of_none {row : List (List Char)} {i : Nat}
    (hstamp : timestamp row i = none)
    (previous : Int) (order : List Nat) (delays : List Int) :
    reorderFrom row previous (i :: order) ≠ some (some delays) := by
  unfold timestamp at hstamp
  unfold reorderFrom
  cases hfield : row[i]? with
  | none => simp
  | some field =>
      by_cases hempty : field = []
      · simp [hempty]
      · rw [hfield] at hstamp
        simp only [if_neg hempty] at hstamp
        simp [if_neg hempty, hstamp]

private theorem reorderFrom_of_some {row : List (List Char)} {i : Nat} {stamp : Int}
    (hstamp : timestamp row i = some stamp) (previous : Int) (order : List Nat) :
    reorderFrom row previous (i :: order) =
      if stamp < previous then some none
      else (reorderFrom row stamp order).map
        (Option.map fun reordered => (stamp - previous) :: reordered) := by
  obtain ⟨field, hfield, hne, hint⟩ := timestamp_eq_some_iff.1 hstamp
  simp only [reorderFrom, hfield, if_neg hne, hint]

private theorem reorderFrom_eq_some_iff {row : List (List Char)} {previous : Int} {order : List Nat}
    {delays : List Int} :
    reorderFrom row previous order = some (some delays) ↔
      ∃ stamps, Stamped row order stamps ∧ (previous :: stamps).Pairwise (· ≤ ·) ∧
        delays = differences previous stamps := by
  induction order generalizing previous delays with
  | nil =>
      simp only [reorderFrom, Option.some.injEq, Stamped, List.forall₂_nil_left_iff]
      constructor
      · rintro rfl
        exact ⟨[], rfl, List.pairwise_singleton _ _, rfl⟩
      · rintro ⟨stamps, rfl, _, rfl⟩
        rfl
  | cons i order ih =>
      constructor
      · intro hloop
        cases hstamp : timestamp row i with
        | none => exact absurd hloop (reorderFrom_of_none hstamp previous order delays)
        | some stamp =>
            rw [reorderFrom_of_some hstamp] at hloop
            split at hloop
            · cases hloop
            rename_i hle
            obtain ⟨result, hrest, hresult⟩ := Option.map_eq_some_iff.1 hloop
            obtain ⟨rest, rfl, rfl⟩ := Option.map_eq_some_iff.1 hresult
            obtain ⟨stamps, hstamps, hsorted, rfl⟩ := ih.1 hrest
            refine ⟨stamp :: stamps, .cons hstamp hstamps, ?_, rfl⟩
            have hless : previous ≤ stamp := not_lt.1 hle
            refine List.pairwise_cons.2 ⟨fun later hlater => ?_, hsorted⟩
            rcases List.mem_cons.1 hlater with rfl | hlater
            · exact hless
            · exact hless.trans (List.rel_of_pairwise_cons hsorted hlater)
      · rintro ⟨stamps, hstamps, hsorted, rfl⟩
        cases hstamps with
        | cons hstamp hstamps =>
            rename_i stamp stamps
            have hless : previous ≤ stamp :=
              List.rel_of_pairwise_cons hsorted List.mem_cons_self
            have hrest := ih.2 ⟨stamps, hstamps, hsorted.of_cons, rfl⟩
            rw [reorderFrom_of_some hstamp, if_neg (not_lt.2 hless), hrest]
            rfl

def delaysOf (order : List Nat) (row : List (List Char)) : Option (List Int) :=
  (reorderTimestampsAndConvertToDelays row order).join

private theorem delaysOf_eq_some_iff {order : List Nat} {row : List (List Char)}
    {delays : List Int} :
    delaysOf order row = some delays ↔
      ∃ stamps, Stamped row order stamps ∧ (0 :: stamps).Pairwise (· ≤ ·) ∧
        delays = differences 0 stamps := by
  rw [delaysOf, Option.join_eq_some_iff]
  exact reorderFrom_eq_some_iff

/-- The first lines that the limit lets through; a limit below one lets all through. -/
def limited {β : Type} (maxLines : Option Int) (lines : Nat) (rows : List β) : List β :=
  match maxLines with
  | none => rows
  | some limit => if (lines : Int) < limit then rows.take (limit - lines).toNat else rows

private theorem limited_cons {β : Type} {maxLines : Option Int} {lines : Nat}
    (hmore : maxLines ≠ some ((lines + 1 : Nat) : Int)) (row : β) (rows : List β) :
    limited maxLines lines (row :: rows) = row :: limited maxLines (lines + 1) rows := by
  cases maxLines with
  | none => rfl
  | some limit =>
      have hne : limit ≠ lines + 1 := fun h => hmore (by rw [h]; rfl)
      simp only [limited]
      by_cases hless : (lines : Int) < limit
      · have hless' : ((lines + 1 : Nat) : Int) < limit := by omega
        have hcount : (limit - lines).toNat = (limit - (lines + 1 : Nat)).toNat + 1 := by omega
        rw [if_pos hless, if_pos hless', hcount, List.take_succ_cons]
      · have hless' : ¬ ((lines + 1 : Nat) : Int) < limit := by omega
        rw [if_neg hless, if_neg hless']

private theorem printRows_eq {order : List Nat} {maxLines : Option Int} {lines : Nat}
    {rows : List (List (List Char))} {printed : List Char}
    (hprint : printRows order maxLines lines rows = some printed) :
    printed = csvText
      ((limited maxLines lines (rows.filterMap (delaysOf order))).map (List.map str)) := by
  induction rows generalizing lines printed with
  | nil =>
      cases hprint
      rw [List.filterMap_nil]
      cases maxLines with
      | none => rfl
      | some limit =>
          rw [limited]
          split
          · rw [List.take_nil]
            rfl
          · rfl
  | cons row rows ih =>
      rw [printRows] at hprint
      split at hprint
      · cases hprint
      · rename_i hreorder
        have hnone : delaysOf order row = none := by rw [delaysOf, hreorder]; rfl
        rw [List.filterMap_cons_none hnone]
        exact ih hprint
      · rename_i delays hreorder
        have hsome : delaysOf order row = some delays := by rw [delaysOf, hreorder]; rfl
        rw [List.filterMap_cons_some hsome]
        simp only at hprint
        split at hprint
        · rename_i hlast
          cases hprint
          have hone : (((lines + 1 : Nat) : Int) - lines).toNat = 1 := by omega
          have hless : (lines : Int) < ((lines + 1 : Nat) : Int) := by omega
          rw [hlast, limited, if_pos hless, hone, List.take_succ_cons, List.take_zero,
            List.map_singleton, csvText_cons]
          rfl
        · rename_i hmore
          obtain ⟨rest, hrest, rfl⟩ := Option.map_eq_some_iff.1 hprint
          rw [limited_cons hmore, List.map_cons, csvText_cons, ih hrest, List.append_assoc]
          rfl

private theorem printRows_ne_none {order : List Nat} {rows : List (List (List Char))}
    (hrows : ∀ row ∈ rows, reorderTimestampsAndConvertToDelays row order ≠ none)
    (maxLines : Option Int) (lines : Nat) : printRows order maxLines lines rows ≠ none := by
  induction rows generalizing lines with
  | nil => simp [printRows]
  | cons row rows ih =>
      have hrest := ih fun other hother => hrows other (List.mem_cons_of_mem _ hother)
      rw [printRows]
      split
      · rename_i hnone
        exact absurd hnone (hrows row List.mem_cons_self)
      · exact hrest lines
      · simp only
        split
        · simp
        · simpa using hrest (lines + 1)

/-! ### Whole charts -/

def chartColumns (columns : List (List Char)) (order : List Nat) : List (List Char) :=
  order.map fun i => columns.getD i []

private theorem chartColumns_of_mapM {columns names : List (List Char)} {order : List Nat}
    (hnames : order.mapM (columns[·]?) = some names) :
    names = chartColumns columns order ∧ ∀ i ∈ order, i < columns.length := by
  have hmap := forall₂_some_iff.1 (mapM_eq_some_iff.1 hnames)
  constructor
  · have hget := congrArg (List.map fun name => name.getD []) hmap
    simpa [chartColumns, Function.comp_def] using hget.symm
  · intro i hi
    obtain ⟨name, hname⟩ := exists_of_mapM hnames hi
    exact (List.getElem?_eq_some_iff.1 hname).1

section Read

variable {text : List Char} {columns : List (List Char)} {rows : List (List (List Char))}
  {order : List Nat} (hread : csvRecords text = columns :: rows)

include hread

theorem mostCommonOrder_eq_some (horder : mostCommonOrder text = some order) :
    ∃ orders, List.Forall₂ OwnOrder rows orders ∧ order ∈ orders ∧
      ∀ other, orders.count other ≤ orders.count order := by
  rw [mostCommonOrder, hread] at horder
  simp only at horder
  split at horder
  · cases horder
  rename_i orders horders
  have hown : List.Forall₂ OwnOrder rows orders :=
    (mapM_eq_some_iff.1 horders).imp fun _ _ => ownOrder_of_orderOfRow
  have hne : orders ≠ [] := by
    rintro rfl
    cases horder
  obtain ⟨item, hitem, hmost, hmax⟩ := Counter.mostCommon_ofItems hne
  rw [hmost] at horder
  cases horder
  exact ⟨orders, hown, hitem, hmax⟩

theorem main_eq_some {maxLines : Option Int} {output : List Char}
    (horder : mostCommonOrder text = some order) (hmain : main text maxLines = some output) :
    (∀ i ∈ order, i < columns.length) ∧
      output = csvText (chartColumns columns order ::
        (limited maxLines 0 (rows.filterMap (delaysOf order))).map (List.map str)) := by
  rw [main, horder] at hmain
  simp only [printStackedChart, hread] at hmain
  split at hmain
  · cases hmain
  rename_i names hnames
  obtain ⟨rfl, hbound⟩ := chartColumns_of_mapM hnames
  obtain ⟨printed, hprinted, rfl⟩ := Option.map_eq_some_iff.1 hmain
  exact ⟨hbound, by rw [csvText_cons, printRows_eq hprinted]⟩

end Read

structure Emits (order : List Nat) (row : List (List Char)) (delays : List Int) : Prop where
  nonneg : ∀ delay ∈ delays, 0 ≤ delay
  sums : ∃ stamps, Stamped row order stamps ∧ delays.scanl (· + ·) 0 = 0 :: stamps

theorem Stamped.nonneg {row : List (List Char)} (hcells : ∀ field ∈ row, Cell field)
    {order : List Nat} {stamps : List Int} (hstamps : Stamped row order stamps) :
    ∀ stamp ∈ stamps, 0 ≤ stamp := by
  intro stamp hstamp
  obtain ⟨i, _, hi⟩ := exists_of_mem_right hstamps hstamp
  obtain ⟨field, hfield, hne, hint⟩ := timestamp_eq_some_iff.1 hi
  obtain ⟨value, hvalue⟩ := int_digits (hcells field (List.mem_of_getElem? hfield)) hne
  rw [hint, Option.some.injEq] at hvalue
  omega

private theorem differences_nonneg {previous : Int} {stamps : List Int}
    (hsorted : (previous :: stamps).Pairwise (· ≤ ·)) :
    ∀ delay ∈ differences previous stamps, 0 ≤ delay := by
  induction stamps generalizing previous with
  | nil => simp [differences]
  | cons stamp stamps ih =>
      intro delay hdelay
      rw [differences, List.mem_cons] at hdelay
      rcases hdelay with rfl | hdelay
      · have hle : previous ≤ stamp := List.rel_of_pairwise_cons hsorted List.mem_cons_self
        omega
      · exact ih hsorted.of_cons delay hdelay

private theorem delaysOf_cells {row : List (List Char)} (hcells : ∀ field ∈ row, Cell field)
    (order : List Nat) :
    if Follows order row then ∃ delays, delaysOf order row = some delays ∧ Emits order row delays
    else delaysOf order row = none := by
  split
  · rename_i hfollows
    obtain ⟨stamps, hstamps, hsorted⟩ := hfollows
    have hall : (0 :: stamps).Pairwise (· ≤ ·) :=
      List.pairwise_cons.2 ⟨hstamps.nonneg hcells, hsorted⟩
    refine ⟨_, delaysOf_eq_some_iff.2 ⟨stamps, hstamps, hall, rfl⟩, differences_nonneg hall, ?_⟩
    exact ⟨stamps, hstamps, scanl_differences 0 stamps⟩
  · rename_i hnot
    rw [Option.eq_none_iff_forall_ne_some]
    intro delays hdelays
    obtain ⟨stamps, hstamps, hsorted, _⟩ := delaysOf_eq_some_iff.1 hdelays
    exact hnot ⟨stamps, hstamps, hsorted.of_cons⟩

theorem forall₂_emits {rows : List (List (List Char))}
    (hcells : ∀ row ∈ rows, ∀ field ∈ row, Cell field) (order : List Nat) :
    List.Forall₂ (Emits order) (rows.filter (Follows order))
      (rows.filterMap (delaysOf order)) := by
  induction rows with
  | nil => exact .nil
  | cons row rows ih =>
      have hrest := ih fun other hother => hcells other (List.mem_cons_of_mem _ hother)
      have hrow := delaysOf_cells (hcells row List.mem_cons_self) order
      by_cases hfollows : Follows order row
      · rw [if_pos hfollows] at hrow
        obtain ⟨delays, hdelays, hemits⟩ := hrow
        rw [List.filter_cons_of_pos (by simpa using hfollows), List.filterMap_cons_some hdelays]
        exact .cons hemits hrest
      · rw [if_neg hfollows] at hrow
        rw [List.filter_cons_of_neg (by simpa using hfollows), List.filterMap_cons_none hrow]
        exact hrest

private theorem count_le_filter_follows {rows : List (List (List Char))} {orders : List (List Nat)}
    (horders : List.Forall₂ OwnOrder rows orders) (order : List Nat) :
    orders.count order ≤ (rows.filter (Follows order)).length := by
  induction horders with
  | nil => exact Nat.le_refl _
  | @cons row own rows orders hown _ ih =>
      rw [List.count_cons]
      by_cases heq : own = order
      · have hfollows : Follows order row := heq ▸ hown.follows
        rw [if_pos (beq_iff_eq.2 heq), List.filter_cons_of_pos (by simpa using hfollows),
          List.length_cons]
        omega
      · rw [if_neg (mt beq_iff_eq.1 heq), Nat.add_zero]
        refine ih.trans (List.Sublist.length_le ?_)
        exact (List.sublist_cons_self row rows).filter _

def Regular (columns : List (List Char)) (rows : List (List (List Char))) : Prop :=
  ∀ row ∈ rows, row.length = columns.length ∧ ∀ field ∈ row, Cell field

theorem regular_of_all {columns : List (List Char)} {rows : List (List (List Char))}
    (hall : (rows.all fun row =>
      row.length == columns.length && row.all fun field => field.all Char.isDigit) = true) :
    Regular columns rows := by
  intro row hrow
  have hcheck := List.all_eq_true.1 hall row hrow
  rw [Bool.and_eq_true, beq_iff_eq, List.all_eq_true] at hcheck
  exact ⟨hcheck.1, fun field hfield => List.all_eq_true.1 (hcheck.2 field hfield)⟩

section Regular

variable {text : List Char} {columns : List (List Char)} {rows : List (List (List Char))}
  {order : List Nat} (hread : csvRecords text = columns :: rows) (hregular : Regular columns rows)

include hread hregular

private theorem exists_mostCommonOrder (hrows : rows ≠ []) :
    ∃ order, mostCommonOrder text = some order := by
  have horders : ∀ row ∈ rows, ∃ order, orderOfRow row = some order ∧ True := by
    intro row hrow
    obtain ⟨order, horder, _⟩ := orderOfRow_cells (hregular row hrow).2
    exact ⟨order, horder, trivial⟩
  obtain ⟨orders, hall, _⟩ := mapM_eq_some_of_forall horders
  have hne : orders ≠ [] := by
    rintro rfl
    have hlength := (mapM_eq_some_iff.1 hall).length_eq
    exact hrows (List.length_eq_zero_iff.1 hlength)
  obtain ⟨item, _, hmost, _⟩ := Counter.mostCommon_ofItems hne
  refine ⟨item, ?_⟩
  simp only [mostCommonOrder, hread, hall, hmost]
  rfl

private theorem lt_of_mem_mostCommonOrder (horder : mostCommonOrder text = some order) :
    ∀ i ∈ order, i < columns.length := by
  obtain ⟨orders, hown, hmem, _⟩ := mostCommonOrder_eq_some hread horder
  intro i hi
  obtain ⟨row, hrow, hrowOwn⟩ := exists_of_mem_right hown hmem
  obtain ⟨stamp, hstamp⟩ := Option.isSome_iff_exists.1 ((hrowOwn.hit i).1 hi)
  obtain ⟨field, hfield, _⟩ := timestamp_eq_some_iff.1 hstamp
  rw [← (hregular row hrow).1]
  exact (List.getElem?_eq_some_iff.1 hfield).1

private theorem exists_main (horder : mostCommonOrder text = some order) (maxLines : Option Int) :
    ∃ output, main text maxLines = some output := by
  have hbound := lt_of_mem_mostCommonOrder hread hregular horder
  have hnames : ∀ i ∈ order, ∃ name, columns[i]? = some name ∧ True := fun i hi =>
    ⟨columns.get ⟨i, hbound i hi⟩, List.getElem?_eq_getElem (hbound i hi), trivial⟩
  obtain ⟨names, hnames, _⟩ := mapM_eq_some_of_forall hnames
  have hrows : ∀ row ∈ rows, reorderTimestampsAndConvertToDelays row order ≠ none := by
    intro row hrow
    apply reorderFrom_cells (hregular row hrow).2
    rw [(hregular row hrow).1]
    exact hbound
  obtain ⟨printed, hprinted⟩ :=
    Option.ne_none_iff_exists'.1 (printRows_ne_none hrows maxLines 0)
  refine ⟨csvLine names ++ '\n' :: printed, ?_⟩
  simp only [main, horder, printStackedChart, hread, hnames, hprinted]
  rfl

end Regular

/-- The chart has the rows that follow the most common order, and with them all the rows
whose own order it is. -/
theorem main_keeps_dominant {text : List Char} {columns : List (List Char)}
    {rows : List (List (List Char))} (hread : csvRecords text = columns :: rows)
    (hrows : rows ≠ []) (hregular : Regular columns rows) :
    ∃ (orders : List (List Nat)) (order : List Nat) (emitted : List (List Int)),
      List.Forall₂ OwnOrder rows orders ∧ order ∈ orders ∧
        (∀ other, orders.count other ≤ orders.count order) ∧
      (∀ row ∈ rows, OwnOrder row order → Follows order row) ∧
      orders.count order ≤ emitted.length ∧
      List.Forall₂ (Emits order) (rows.filter (Follows order)) emitted ∧
      main text none =
        some (csvText (chartColumns columns order :: emitted.map (List.map str))) ∧
      ∀ limit : Int, 1 ≤ limit → main text (some limit) =
        some (csvText (chartColumns columns order ::
          (emitted.take limit.toNat).map (List.map str))) := by
  obtain ⟨order, horder⟩ := exists_mostCommonOrder hread hregular hrows
  obtain ⟨orders, hown, hmem, hmax⟩ := mostCommonOrder_eq_some hread horder
  have hemits := forall₂_emits (fun row hrow => (hregular row hrow).2) order
  have hmain : ∀ maxLines, main text maxLines = some (csvText (chartColumns columns order ::
      (limited maxLines 0 (rows.filterMap (delaysOf order))).map (List.map str))) := by
    intro maxLines
    obtain ⟨output, houtput⟩ := exists_main hread hregular horder maxLines
    rw [houtput, (main_eq_some hread horder houtput).2]
  refine ⟨orders, order, rows.filterMap (delaysOf order), hown, hmem, hmax,
    fun row _ hown => hown.follows, ?_, hemits, hmain none, fun limit hlimit => ?_⟩
  · rw [← hemits.length_eq]
    exact count_le_filter_follows hown order
  · have hpos : ((0 : Nat) : Int) < limit := by omega
    have hcount : (limit - (0 : Nat)).toNat = limit.toNat := by omega
    rw [hmain, limited, if_pos hpos, hcount]

/-- Three rows in the order of the columns, one of them with equal times, and two others. -/
def fiveRows : List Char :=
  ['a', ',', 'b', '\n', '1', ',', '3', '\n', '5', ',', '2', '\n', '2', ',', '2', '\n',
    ',', '7', '\n', '4', ',', '9', '\n']

theorem main_keeps_dominant_fiveRows :
    ∃ (orders : List (List Nat)) (order : List Nat) (emitted : List (List Int)),
      orders.length = 5 ∧ order ∈ orders ∧
        (∀ other, orders.count other ≤ orders.count order) ∧
      orders.count order ≤ emitted.length ∧
      main fiveRows none = some (csvText (chartColumns [['a'], ['b']] order ::
        emitted.map (List.map str))) := by
  have hread : csvRecords fiveRows = [['a'], ['b']] :: [[['1'], ['3']], [['5'], ['2']],
      [['2'], ['2']], [[], ['7']], [['4'], ['9']]] := by decide
  have hregular : Regular [['a'], ['b']] [[['1'], ['3']], [['5'], ['2']],
      [['2'], ['2']], [[], ['7']], [['4'], ['9']]] := regular_of_all (by decide)
  obtain ⟨orders, order, emitted, hown, hmem, hmax, _, hcount, _, hmain, _⟩ :=
    main_keeps_dominant hread (by decide) hregular
  exact ⟨orders, order, emitted, hown.length_eq.symm, hmem, hmax, hcount, hmain⟩

end StackedChart

end UserPaging.Timings
