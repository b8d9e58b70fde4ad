import UserPaging.Timings.StackedChart

/-!
# Regrouping the columns of a chart

`sum-and-remap-columns.py` reads a chart and prints one column for every
specification `name=column+column+…`, with the sum of the columns named there.  The
delays of a chart telescope, so a regrouped row should add up to the last timestamp
of the row that the chart was made from.

Both scripts read with `csv.reader`, but the converter prints the names of its columns
as they are.  A name that needs quotes is not read back.
-/

namespace UserPaging.Timings

open UserPaging.Foundation

namespace SumAndRemap

open StackedChart (mapM_eq_some_iff exists_of_mapM exists_of_mem_right Stamped Follows Emits
  limited delaysOf chartColumns)

/-! ### The script -/

/-- `s.split('=', 2)` has two parts exactly when there is one `=`. -/
def parseColumn (s : List Char) (sourceColumns : List (List Char)) :
    Option (List Char × List Nat) :=
  match s.splitOn '=' with
  | [newName, columnsToSum] =>
      ((columnsToSum.splitOn '+').mapM (List.idxOf? · sourceColumns)).map (newName, ·)
  | _ => none

def transformRow (row : List Int) (newColumns : List (List Char × List Nat)) :
    Option (List Int) :=
  newColumns.mapM fun column => (column.2.mapM (row[·]?)).map List.sum

def transformRows (newColumns : List (List Char × List Nat)) :
    List (List (List Char)) → Option (List Char)
  | [] => some []
  | row :: rows =>
      match row.mapM int with
      | none => none
      | some values =>
          match transformRow values newColumns with
          | none => none
          | some sums =>
              (transformRows newColumns rows).map (csvLine (sums.map str) ++ '\n' :: ·)

def main (text : List Char) (newColumns : List (List Char)) : Option (List Char) :=
  match csvRecords text with
  | [] => none
  | sourceColumns :: rows =>
      match newColumns.mapM (parseColumn · sourceColumns) with
      | none => none
      | some columns =>
          (transformRows columns rows).map (csvLine (columns.map Prod.fst) ++ '\n' :: ·)

/-! ### Specifications -/

structure Spec where
  name : List Char
  columns : List (List Char)
  name_plain : '=' ∉ name
  columns_ne_nil : columns ≠ []
  columns_plain : ∀ column ∈ columns, '=' ∉ column ∧ '+' ∉ column

def Spec.text (spec : Spec) : List Char := spec.name ++ '=' :: ['+'].intercalate spec.columns

private theorem Spec.parseColumn_text (spec : Spec) (sourceColumns : List (List Char)) :
    parseColumn spec.text sourceColumns =
      (spec.columns.mapM (List.idxOf? · sourceColumns)).map (spec.name, ·) := by
  have hsum : '=' ∉ ['+'].intercalate spec.columns := by
    intro hmem
    rcases mem_of_mem_intercalate hmem with hplus | ⟨column, hcolumn, hmem⟩
    · exact absurd (List.mem_singleton.1 hplus) (by decide)
    · exact (spec.columns_plain column hcolumn).1 hmem
  have hsplit : spec.text.splitOn '=' = [spec.name, ['+'].intercalate spec.columns] := by
    rw [Spec.text, List.splitOn_append_cons_self, List.splitOn_eq_singleton spec.name_plain,
      List.splitOn_eq_singleton hsum, List.singleton_append]
  have hcolumns : (['+'].intercalate spec.columns).splitOn '+' = spec.columns :=
    List.splitOn_intercalate '+' (fun column hcolumn => (spec.columns_plain column hcolumn).2)
      spec.columns_ne_nil
  simp only [parseColumn, hsplit, hcolumns]

/-! ### Reading numbers back -/

private theorem cell_toDigits (value : Nat) : Cell (Nat.toDigits 10 value) := fun _ hc =>
  Nat.isDigit_of_mem_toDigits (by decide) (by decide) hc

private theorem str_of_nonneg {value : Int} (hvalue : 0 ≤ value) :
    str value = Nat.toDigits 10 value.natAbs := if_neg (not_lt.2 hvalue)

private theorem int_str {value : Int} (hvalue : 0 ≤ value) : int (str value) = some value := by
  have hdigits : digitsValue (Nat.toDigits 10 value.natAbs) = value.natAbs := by
    have hround := Nat.ofDigitChars_ten_toDigits (n := value.natAbs)
    rw [Nat.ofDigitChars_eq_foldl] at hround
    exact hround
  rw [str_of_nonneg hvalue, int_digits_eq (cell_toDigits _) Nat.toDigits_ne_nil, hdigits,
    Int.natAbs_of_nonneg hvalue]

private theorem plainField_str {value : Int} (hvalue : 0 ≤ value) : PlainField (str value) := by
  have hcell := cell_toDigits value.natAbs
  rw [str_of_nonneg hvalue]
  refine ⟨fun h => ?_, fun h => ?_, fun h => ?_⟩
  · exact absurd (hcell _ h) (by decide)
  · exact absurd (hcell _ h) (by decide)
  · exact absurd (hcell _ (List.mem_of_mem_head? h)) (by decide)

private theorem plainRecord_str {delays : List Int} (hne : delays ≠ [])
    (hnonneg : ∀ delay ∈ delays, 0 ≤ delay) : PlainRecord (delays.map str) := by
  have hfields : ∀ field ∈ delays.map str, PlainField field ∧ field ≠ [] := by
    intro field hfield
    obtain ⟨delay, hdelay, rfl⟩ := List.mem_map.1 hfield
    refine ⟨plainField_str (hnonneg delay hdelay), ?_⟩
    rw [str_of_nonneg (hnonneg delay hdelay)]
    exact Nat.toDigits_ne_nil
  refine ⟨mt List.map_eq_nil_iff.1 hne, fun hblank => ?_, fun field hfield => ?_⟩
  · exact (hfields [] (hblank ▸ List.mem_cons_self)).2 rfl
  · exact (hfields field hfield).1

/-! ### Regrouping -/

private theorem mapM_eq_some_map {α β : Type} {f : α → Option β} {g : α → β} {l : List α}
    (h : ∀ a ∈ l, f a = some (g a)) : l.mapM f = some (l.map g) := by
  rw [mapM_eq_some_iff, List.forall₂_map_right_iff, List.forall₂_same]
  exact h

def share (names : List (List Char)) (delays : List Int) (column : List Char) : Int :=
  delays.getD (names.idxOf column) 0

def Spec.sumOf (names : List (List Char)) (delays : List Int) (spec : Spec) : Int :=
  (spec.columns.map (share names delays)).sum

def Spec.placed (names : List (List Char)) (spec : Spec) : List Char × List Nat :=
  (spec.name, spec.columns.map (names.idxOf ·))

theorem idxOf?_of_mem {names : List (List Char)} {column : List Char} (hmem : column ∈ names) :
    List.idxOf? column names = some (names.idxOf column) := by
  obtain ⟨i, hi⟩ := Option.isSome_iff_exists.1 (List.isSome_idxOf?.2 hmem)
  rw [List.idxOf_eq_getD_idxOf?, hi, Option.getD_some]

private theorem mapM_parseColumn {names : List (List Char)} {specs : List Spec}
    (hspecs : ∀ spec ∈ specs, ∀ column ∈ spec.columns, column ∈ names) :
    (specs.map Spec.text).mapM (parseColumn · names) = some (specs.map (Spec.placed names)) := by
  rw [mapM_eq_some_iff, List.forall₂_map_left_iff, List.forall₂_map_right_iff,
    List.forall₂_same]
  intro spec hspec
  have hplaces : spec.columns.mapM (List.idxOf? · names) =
      some (spec.columns.map (names.idxOf ·)) :=
    mapM_eq_some_map fun column hcolumn => idxOf?_of_mem (hspecs spec hspec column hcolumn)
  rw [spec.parseColumn_text, hplaces]
  rfl

section Share

variable {names : List (List Char)} {delays : List Int} (hlength : delays.length = names.length)

include hlength

private theorem transformRow_placed {specs : List Spec}
    (hspecs : ∀ spec ∈ specs, ∀ column ∈ spec.columns, column ∈ names) :
    transformRow delays (specs.map (Spec.placed names)) =
      some (specs.map (Spec.sumOf names delays)) := by
  rw [transformRow, mapM_eq_some_iff, List.forall₂_map_left_iff,
    List.forall₂_map_right_iff, List.forall₂_same]
  intro spec hspec
  have hvalues : (spec.columns.map (names.idxOf ·)).mapM (delays[·]?) =
      some (spec.columns.map (share names delays)) := by
    rw [mapM_eq_some_iff, List.forall₂_map_left_iff, List.forall₂_map_right_iff,
      List.forall₂_same]
    intro column hcolumn
    have hplace : names.idxOf column < delays.length := by
      rw [hlength]
      exact List.idxOf_lt_length_iff.2 (hspecs spec hspec column hcolumn)
    rw [share, List.getD_eq_getElem?_getD, List.getElem?_eq_getElem hplace, Option.getD_some]
  rw [Spec.placed, hvalues]
  rfl

private theorem map_share (hnodup : names.Nodup) : names.map (share names delays) = delays := by
  refine List.ext_getElem (by rw [List.length_map, hlength]) fun i hi hi' => ?_
  rw [List.length_map] at hi
  rw [List.getElem_map, share, hnodup.idxOf_getElem i hi, List.getD_eq_getElem?_getD,
    List.getElem?_eq_getElem hi', Option.getD_some]

private theorem sum_sumOf (hnodup : names.Nodup) {specs : List Spec}
    (hperm : (specs.flatMap Spec.columns).Perm names) :
    (specs.map (Spec.sumOf names delays)).sum = delays.sum := by
  have hflat : (specs.map (Spec.sumOf names delays)).sum =
      ((specs.flatMap Spec.columns).map (share names delays)).sum := by
    rw [List.map_flatMap, List.flatMap_def, List.sum_flatten, List.map_map]
    rfl
  rw [hflat, (hperm.map _).sum_eq, map_share hlength hnodup]

private theorem sumOf_block (hnodup : names.Nodup) {spec : Spec}
    {before block after : List (List Char)}
    (hnames : names = before ++ (block ++ after)) (hperm : spec.columns.Perm block) :
    spec.sumOf names delays = ((delays.drop before.length).take block.length).sum := by
  have hblock : ∀ f : List Char → Int, names.map f = delays →
      block.map f = (delays.drop before.length).take block.length := by
    intro f hf
    rw [← hf, hnames, List.map_append, List.map_append, List.drop_left' (List.length_map f),
      List.take_left' (List.length_map f)]
  rw [Spec.sumOf, (hperm.map _).sum_eq, hblock _ (map_share hlength hnodup)]

end Share

structure Regroups (order : List Nat) (names : List (List Char)) (specs : List Spec)
    (row : List (List Char)) (sums : List Int) : Prop where
  width : sums.length = specs.length
  total : ∃ stamps, Stamped row order stamps ∧ stamps.getLast? = some sums.sum
  block : ∀ (i : Nat) (spec : Spec) (before block after : List (List Char)),
    specs[i]? = some spec → names = before ++ (block ++ after) → spec.columns.Perm block →
    ∃ stamps, Stamped row order stamps ∧
      sums[i]? = some ((0 :: stamps).getD (before.length + block.length) 0 -
        (0 :: stamps).getD before.length 0)

private theorem regroups_of_emits {order : List Nat} {names : List (List Char)} {specs : List Spec}
    {row : List (List Char)} {delays : List Int} (horder : order ≠ [])
    (hlength : names.length = order.length) (hnodup : names.Nodup)
    (hperm : (specs.flatMap Spec.columns).Perm names)
    (hemits : Emits order row delays) :
    delays.length = names.length ∧
      Regroups order names specs row (specs.map (Spec.sumOf names delays)) := by
  obtain ⟨stamps, hstamps, hscan⟩ := hemits.sums
  have hdelays := eq_differences_of_scanl hscan
  have hcount : stamps.length = names.length := hstamps.length_eq.symm.trans hlength.symm
  have hwidth : delays.length = names.length := by
    rw [hdelays, length_differences, hcount]
  refine ⟨hwidth, List.length_map _, ⟨stamps, hstamps, ?_⟩, ?_⟩
  · have hne : stamps ≠ [] := by
      rintro rfl
      exact horder (List.length_eq_zero_iff.1 hstamps.length_eq)
    rw [sum_sumOf hwidth hnodup hperm, hdelays, sum_differences 0 hne, sub_zero,
      List.getLast?_eq_some_getLast hne]
  · intro i spec before block after hspec hnames hblock
    have hbound : before.length + block.length ≤ stamps.length := by
      rw [hcount, hnames, List.length_append, List.length_append]
      omega
    refine ⟨stamps, hstamps, ?_⟩
    rw [List.getElem?_map, hspec, Option.map_some, sumOf_block hwidth hnodup hnames hblock, hdelays,
      sum_block_differences 0 stamps hbound]

private theorem transformRows_placed {names : List (List Char)} {specs : List Spec}
    (hspecs : ∀ spec ∈ specs, ∀ column ∈ spec.columns, column ∈ names)
    {emitted : List (List Int)} (hemitted : ∀ delays ∈ emitted,
      delays.length = names.length ∧ ∀ delay ∈ delays, 0 ≤ delay) :
    transformRows (specs.map (Spec.placed names)) (emitted.map (List.map str)) =
      some (csvText ((emitted.map fun delays => specs.map (Spec.sumOf names delays)).map
        (List.map str))) := by
  induction emitted with
  | nil => rfl
  | cons delays emitted ih =>
      have hrest := ih fun other hother => hemitted other (List.mem_cons_of_mem _ hother)
      obtain ⟨hlength, hnonneg⟩ := hemitted delays List.mem_cons_self
      have hread : (delays.map str).mapM int = some delays := by
        rw [mapM_eq_some_iff, List.forall₂_map_left_iff, List.forall₂_same]
        exact fun delay hdelay => int_str (hnonneg delay hdelay)
      simp only [List.map_cons, transformRows, hread, transformRow_placed hlength hspecs, hrest,
        Option.map_some, csvText_cons]

private theorem csvRecords_chart {names : List (List Char)} (hplain : PlainRecord names)
    {emitted : List (List Int)} (hemitted : ∀ delays ∈ emitted,
      delays.length = names.length ∧ ∀ delay ∈ delays, 0 ≤ delay) :
    csvRecords (csvText (names :: emitted.map (List.map str))) =
      names :: emitted.map (List.map str) := by
  apply csvRecords_csvText
  intro record hrecord
  rcases List.mem_cons.1 hrecord with rfl | hrecord
  · exact hplain
  obtain ⟨delays, hdelays, rfl⟩ := List.mem_map.1 hrecord
  obtain ⟨hlength, hnonneg⟩ := hemitted delays hdelays
  refine plainRecord_str (fun hnil => hplain.ne_nil ?_) hnonneg
  rw [hnil] at hlength
  exact List.length_eq_zero_iff.1 hlength.symm

private theorem main_eq_some {text : List Char} {specs : List Spec} {sums : List (List Int)}
    (hmain : main text (specs.map Spec.text) =
      some (csvText (specs.map Spec.name :: sums.map (List.map str))))
    (hsums : sums ≠ []) :
    ∃ record records, csvRecords text = record :: records ∧ records ≠ [] ∧
      ∀ column ∈ specs.flatMap Spec.columns, column ∈ record := by
  rw [main] at hmain
  split at hmain
  · cases hmain
  rename_i record records hread
  split at hmain
  · cases hmain
  rename_i parsed hparsed
  refine ⟨record, records, hread, ?_, ?_⟩
  · rintro rfl
    have hparse := mapM_eq_some_iff.1 hparsed
    have hheader : parsed.map Prod.fst = specs.map Spec.name := by
      rw [List.forall₂_map_left_iff] at hparse
      symm
      rw [← List.forall₂_eq_eq_eq, List.forall₂_map_left_iff, List.forall₂_map_right_iff]
      refine hparse.imp fun spec column hcolumn => ?_
      rw [spec.parseColumn_text] at hcolumn
      obtain ⟨places, _, rfl⟩ := Option.map_eq_some_iff.1 hcolumn
      rfl
    rw [transformRows, Option.map_some, Option.some.injEq, hheader, csvText_cons] at hmain
    have hprinted := List.append_cancel_left hmain
    rw [List.cons.injEq] at hprinted
    obtain ⟨sum, rest, rfl⟩ := List.exists_cons_of_ne_nil hsums
    rw [List.map_cons, csvText_cons] at hprinted
    exact absurd hprinted.2.symm (List.append_ne_nil_of_right_ne_nil _ (List.cons_ne_nil _ _))
  · intro column hcolumn
    obtain ⟨spec, hspec, hcolumn⟩ := List.mem_flatMap.1 hcolumn
    obtain ⟨parse, hparse⟩ := exists_of_mapM hparsed (List.mem_map_of_mem hspec)
    rw [spec.parseColumn_text] at hparse
    obtain ⟨places, hplaces, _⟩ := Option.map_eq_some_iff.1 hparse
    obtain ⟨place, hplace⟩ := exists_of_mapM hplaces hcolumn
    exact List.isSome_idxOf?.1 (Option.isSome_iff_exists.2 ⟨place, hplace⟩)

/-! ### The two scripts together -/

structure Accepted (text : List Char) (maxLines : Option Int) (output : List Char)
    (columns : List (List Char)) (rows : List (List (List Char))) (order : List Nat) : Prop where
  read : csvRecords text = columns :: rows
  common : StackedChart.mostCommonOrder text = some order
  prints : StackedChart.main text maxLines = some output
  columns_nodup : columns.Nodup
  columns_comma : ∀ name ∈ columns, ',' ∉ name
  cells : ∀ row ∈ rows, ∀ field ∈ row, Cell field
  order_ne_nil : order ≠ []

def Preserves (output : List Char) (specs : List Spec) (order : List Nat)
    (names : List (List Char)) (rows : List (List (List Char))) : Prop :=
  ∃ sums : List (List Int),
    main output (specs.map Spec.text) =
        some (csvText (specs.map Spec.name :: sums.map (List.map str))) ∧
      List.Forall₂ (Regroups order names specs) rows sums

private theorem forall₂_limited {α β : Type} {R : α → β → Prop} {l : List α} {l' : List β}
    (h : List.Forall₂ R l l') (maxLines : Option Int) (lines : Nat) :
    List.Forall₂ R (limited maxLines lines l) (limited maxLines lines l') := by
  cases maxLines with
  | none => exact h
  | some limit =>
      simp only [limited]
      split
      · exact List.forall₂_take _ h
      · exact h

private theorem limited_ne_nil {α : Type} {l : List α} (hne : l ≠ []) (maxLines : Option Int) :
    limited maxLines 0 l ≠ [] := by
  cases maxLines with
  | none => exact hne
  | some limit =>
      simp only [limited]
      split
      · rename_i hpos
        rw [Ne, List.take_eq_nil_iff, not_or]
        exact ⟨by omega, hne⟩
      · exact hne

namespace Accepted

variable {text : List Char} {maxLines : Option Int} {output : List Char}
  {columns : List (List Char)} {rows : List (List (List Char))} {order : List Nat}
  (h : Accepted text maxLines output columns rows order)

include h

private theorem output_eq : (∀ i ∈ order, i < columns.length) ∧
    output = csvText (chartColumns columns order ::
      (limited maxLines 0 (rows.filterMap (delaysOf order))).map (List.map str)) :=
  StackedChart.main_eq_some h.read h.common h.prints

private theorem own : ∃ row ∈ rows, StackedChart.OwnOrder row order := by
  obtain ⟨orders, horders, hmem, _⟩ := StackedChart.mostCommonOrder_eq_some h.read h.common
  exact exists_of_mem_right horders hmem

private theorem emits :
    List.Forall₂ (Emits order) (limited maxLines 0 (rows.filter (Follows order)))
    (limited maxLines 0 (rows.filterMap (delaysOf order))) :=
  forall₂_limited (StackedChart.forall₂_emits h.cells order) maxLines 0

private theorem rows_ne_nil : limited maxLines 0 (rows.filter (Follows order)) ≠ [] := by
  obtain ⟨row, hrow, hown⟩ := h.own
  have hmem : row ∈ rows.filter (Follows order) :=
    List.mem_filter.2 ⟨hrow, decide_eq_true hown.follows⟩
  exact limited_ne_nil (List.ne_nil_of_mem hmem) maxLines

private theorem names_ne_nil : chartColumns columns order ≠ [] :=
  mt List.map_eq_nil_iff.1 h.order_ne_nil

private theorem names_mem : ∀ name ∈ chartColumns columns order, name ∈ columns := by
  intro name hname
  obtain ⟨i, hi, rfl⟩ := List.mem_map.1 hname
  have hbound := h.output_eq.1 i hi
  rw [List.getD_eq_getElem?_getD, List.getElem?_eq_getElem hbound]
  exact List.getElem_mem hbound

private theorem names_nodup : (chartColumns columns order).Nodup := by
  obtain ⟨row, _, hown⟩ := h.own
  refine List.Nodup.map_on (fun i hi j hj heq => ?_) hown.nodup
  have hbound := h.output_eq.1
  rw [List.getD_eq_getElem?_getD, List.getD_eq_getElem?_getD,
    List.getElem?_eq_getElem (hbound i hi), List.getElem?_eq_getElem (hbound j hj)] at heq
  exact (h.columns_nodup.getElem_inj_iff).1 heq

private theorem preserves_of_plain {specs : List Spec}
    (hplain : PlainRecord (chartColumns columns order))
    (hperm : (specs.flatMap Spec.columns).Perm (chartColumns columns order)) :
    Preserves output specs order (chartColumns columns order)
      (limited maxLines 0 (rows.filter (Follows order))) := by
  have hemits := h.emits
  rw [h.output_eq.2]
  generalize limited maxLines 0 (rows.filterMap (delaysOf order)) = emitted at hemits ⊢
  generalize limited maxLines 0 (rows.filter (Follows order)) = kept at hemits ⊢
  have hlength : (chartColumns columns order).length = order.length := List.length_map _
  have hregroups := fun row delays (hrow : Emits order row delays) =>
    regroups_of_emits h.order_ne_nil hlength h.names_nodup hperm hrow
  have hwidths : ∀ delays ∈ emitted, delays.length = (chartColumns columns order).length ∧
      ∀ delay ∈ delays, 0 ≤ delay := by
    intro delays hdelays
    obtain ⟨row, _, hrow⟩ := exists_of_mem_right hemits hdelays
    exact ⟨(hregroups row delays hrow).1, hrow.nonneg⟩
  have hspecs : ∀ spec ∈ specs, ∀ column ∈ spec.columns,
      column ∈ chartColumns columns order := fun spec hspec column hcolumn =>
    hperm.subset (List.mem_flatMap.2 ⟨spec, hspec, hcolumn⟩)
  refine ⟨emitted.map fun delays => specs.map (Spec.sumOf (chartColumns columns order) delays),
    ?_, ?_⟩
  · simp only [main, csvRecords_chart hplain hwidths, mapM_parseColumn hspecs,
      transformRows_placed hspecs hwidths]
    rw [Option.map_some, csvText_cons, List.map_map]
    rfl
  · rw [List.forall₂_map_right_iff]
    exact hemits.imp fun row delays hrow => (hregroups row delays hrow).2

private theorem plain_of_preserves {specs : List Spec}
    (hnames : chartColumns columns order ⊆ specs.flatMap Spec.columns)
    (hpreserves : Preserves output specs order (chartColumns columns order)
      (limited maxLines 0 (rows.filter (Follows order)))) :
    PlainRecord (chartColumns columns order) ∧
      ∀ column ∈ specs.flatMap Spec.columns, column ∈ chartColumns columns order := by
  obtain ⟨sums, hmain, hrows⟩ := hpreserves
  have hsums : sums ≠ [] := by
    rintro rfl
    exact h.rows_ne_nil (List.forall₂_nil_right_iff.1 hrows)
  obtain ⟨record, records, hread, hrecords, hcolumns⟩ := main_eq_some hmain hsums
  have hemits := h.emits
  rw [h.output_eq.2, csvText_cons] at hread
  generalize limited maxLines 0 (rows.filterMap (delaysOf order)) = emitted at hemits hread
  have hquote : '"' ∉ csvText (emitted.map (List.map str)) := by
    refine not_mem_csvText (by decide) (by decide) fun fields hfields field hfield hmem => ?_
    obtain ⟨delays, hdelays, rfl⟩ := List.mem_map.1 hfields
    obtain ⟨delay, hdelay, rfl⟩ := List.mem_map.1 hfield
    obtain ⟨row, _, hrow⟩ := exists_of_mem_right hemits hdelays
    rw [str_of_nonneg (hrow.nonneg delay hdelay)] at hmem
    exact absurd (cell_toDigits _ _ hmem) (by decide)
  have hplain : PlainRecord (chartColumns columns order) :=
    plain_of_csvRecords h.names_nodup h.names_ne_nil
      (fun name hname => h.columns_comma name (h.names_mem name hname)) hquote hread hrecords
      fun name hname => hcolumns name (hnames hname)
  refine ⟨hplain, fun column hcolumn => ?_⟩
  rw [csvRecords_csvLine hplain, List.cons.injEq] at hread
  rw [hread.1]
  exact hcolumns column hcolumn

end Accepted

/-- Regrouping a chart preserves the times of every row exactly when the names of the chart
are read back as they were printed and the specifications name no other column. -/
theorem preserves_iff {text : List Char} {maxLines : Option Int} {output : List Char}
    {columns : List (List Char)} {rows : List (List (List Char))} {order : List Nat}
    (h : Accepted text maxLines output columns rows order) {specs : List Spec}
    (hspecs : ∀ name ∈ chartColumns columns order,
      (specs.flatMap Spec.columns).count name = 1) :
    Preserves output specs order (chartColumns columns order)
        (limited maxLines 0 (rows.filter (Follows order))) ↔
      PlainRecord (chartColumns columns order) ∧
        ∀ column ∈ specs.flatMap Spec.columns, column ∈ chartColumns columns order := by
  have hnames : chartColumns columns order ⊆ specs.flatMap Spec.columns := by
    intro name hname
    rw [← List.one_le_count_iff, hspecs name hname]
  refine ⟨h.plain_of_preserves hnames, fun ⟨hplain, hcolumns⟩ => h.preserves_of_plain hplain ?_⟩
  have hnodup : (specs.flatMap Spec.columns).Nodup :=
    List.nodup_iff_count_eq_one.2 fun column hcolumn => hspecs column (hcolumns column hcolumn)
  rw [List.perm_ext_iff_of_nodup hnodup h.names_nodup]
  exact fun column => ⟨hcolumns column, fun hmem => hnames hmem⟩

/-- A file with one row, whose two tracepoints were hit in the order of the columns. -/
def oneRow : List Char := ['a', ',', 'b', '\n', '2', ',', '5', '\n']

def oneRowChart : List Char := ['a', ',', 'b', '\n', '2', ',', '3', '\n']

private theorem orderOfRow_of_sorted {row : List (List Char)} {pairs : List (Nat × Int)}
    (hpairs : (row.zipIdx.filter fun hit => hit.1 ≠ []).mapM StackedChart.hitOf = some pairs)
    (hsorted : pairs.Pairwise fun a b => decide (a.2 ≤ b.2) = true) :
    orderOfRow row = some (pairs.map Prod.fst) := by
  have hmapM : (row.zipIdx.filter fun hit => hit.1 ≠ []).mapM
      (fun hit => (int hit.1).map fun timestamp => (hit.2, timestamp)) = some pairs := hpairs
  simp only [orderOfRow, hmapM, List.mergeSort_of_pairwise hsorted]

private theorem accepted_of_row {text output : List Char} {columns row : List (List Char)}
    {order : List Nat} (hread : csvRecords text = [columns, row])
    (hown : orderOfRow row = some order)
    (hprint : StackedChart.printStackedChart text order none = some output)
    (hnodup : columns.Nodup) (hcomma : ∀ name ∈ columns, ',' ∉ name)
    (hregular : StackedChart.Regular columns [row]) (hne : order ≠ []) :
    Accepted text none output columns [row] order := by
  have hcommon : StackedChart.mostCommonOrder text = some order := by
    simp only [StackedChart.mostCommonOrder, hread, List.mapM_cons, List.mapM_nil, hown]
    rfl
  refine ⟨hread, hcommon, ?_, hnodup, hcomma, fun row hrow => (hregular row hrow).2, hne⟩
  rw [StackedChart.main, hcommon]
  exact hprint

private theorem accepted_oneRow :
    Accepted oneRow none oneRowChart [['a'], ['b']] [[['2'], ['5']]] [0, 1] := by
  have hpairs : (([['2'], ['5']] : List (List Char)).zipIdx.filter fun hit => hit.1 ≠ []).mapM
      StackedChart.hitOf = some [(0, 2), (1, 5)] := by decide
  exact accepted_of_row (by decide) (orderOfRow_of_sorted hpairs (by decide)) (by decide)
    (by decide) (by decide) (StackedChart.regular_of_all (by decide)) (by decide)

def totalSpec : Spec where
  name := ['t']
  columns := [['b'], ['a']]
  name_plain := by decide
  columns_ne_nil := by decide
  columns_plain := by decide

theorem preserves_iff_oneRow :
    Preserves oneRowChart [totalSpec] [0, 1] [['a'], ['b']] [[['2'], ['5']]] := by
  have hplain : PlainRecord [['a'], ['b']] := by
    refine ⟨by decide, by decide, fun field hfield => ?_⟩
    rcases List.mem_cons.1 hfield with rfl | hfield
    · exact ⟨by decide, by decide, by decide⟩
    · rw [List.mem_singleton.1 hfield]
      exact ⟨by decide, by decide, by decide⟩
  have hspecs : ∀ name ∈ chartColumns [['a'], ['b']] [0, 1],
      ([totalSpec].flatMap Spec.columns).count name = 1 := by decide
  exact (preserves_iff accepted_oneRow hspecs).2 ⟨hplain, by decide⟩

/-- The name of the only column has quotation marks; the file quotes it, the chart does not. -/
def quotedName : List Char := ['"', '"', '"', 'x', '"', '"', '"', '\n', '5', '\n']

def quotedNameChart : List Char := ['"', 'x', '"', '\n', '5', '\n']

def quotedSpec : Spec where
  name := ['t']
  columns := [['"', 'x', '"']]
  name_plain := by decide
  columns_ne_nil := by decide
  columns_plain := by decide

/-- The name is read back without its quotation marks, and `index` raises. -/
theorem quotedName_not_found :
    Accepted quotedName none quotedNameChart [['"', 'x', '"']] [[['5']]] [0] ∧
      (∀ name ∈ chartColumns [['"', 'x', '"']] [0],
        ([quotedSpec].flatMap Spec.columns).count name = 1) ∧
      main quotedNameChart [quotedSpec.text] = none ∧
      ¬ Preserves quotedNameChart [quotedSpec] [0] (chartColumns [['"', 'x', '"']] [0])
        (limited none 0 ([[['5']]].filter (Follows [0]))) := by
  have hpairs : (([['5']] : List (List Char)).zipIdx.filter fun hit => hit.1 ≠ []).mapM
      StackedChart.hitOf = some [(0, 5)] := by decide
  have hraises : main quotedNameChart [quotedSpec.text] = none := by decide
  refine ⟨?_, by decide, hraises, ?_⟩
  · exact accepted_of_row (by decide) (orderOfRow_of_sorted hpairs (by decide)) (by decide)
      (by decide) (by decide) (StackedChart.regular_of_all (by decide)) (by decide)
  · rintro ⟨sums, hmain, _⟩
    rw [List.map_singleton, hraises] at hmain
    cases hmain

end SumAndRemap

end UserPaging.Timings
