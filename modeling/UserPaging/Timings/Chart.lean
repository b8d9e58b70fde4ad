import UserPaging.Foundation.CsvReader
import UserPaging.Foundation.Scan
import UserPaging.Timings.Collector

/-!
# Reading the timings for a chart

`convert-timeline-to-stacked-area-chart.py` reads what the collector prints.  Its
`int` raises on a text that is no number; a raised exception is `none` here.
-/

namespace UserPaging.Timings

open UserPaging.Foundation

/-! ### The converter -/

def strip (text : List Char) : List Char :=
  ((text.dropWhile isSpace).reverse.dropWhile isSpace).reverse

def unsignedInt (text : List Char) : Option Nat :=
  if (text.splitOn '_').all fun piece => piece ≠ [] && piece.all Char.isDigit then
    some ((text.filter Char.isDigit).foldl (fun value c => 10 * value + (c.toNat - 48)) 0)
  else none

def int (text : List Char) : Option Int :=
  match strip text with
  | '-' :: digits => (unsignedInt digits).map fun value => -value
  | '+' :: digits => (unsignedInt digits).map fun value => value
  | digits => (unsignedInt digits).map fun value => value

def orderOfRow (row : List (List Char)) : Option (List Nat) :=
  let hits := row.zipIdx.filter fun hit => hit.1 ≠ []
  match hits.mapM fun hit => (int hit.1).map fun timestamp => (hit.2, timestamp) with
  | none => none
  | some hitTracepoints =>
      some ((hitTracepoints.mergeSort fun a b => decide (a.2 ≤ b.2)).map Prod.fst)

def getOrderOfTracepoints (text : List Char) : Option (List (List Nat)) :=
  match csvRecords text with
  | [] => none
  | _ :: rows => rows.mapM orderOfRow

/-- The outer `none` is an exception, the inner one Python's `None`. -/
def reorderFrom (timestamps : List (List Char)) (previous : Int) :
    List Nat → Option (Option (List Int))
  | [] => some (some [])
  | i :: order =>
      match timestamps[i]? with
      | none => none
      | some text =>
          if text = [] then some none
          else
            match int text with
            | none => none
            | some timestamp =>
                if timestamp < previous then some none
                else
                  (reorderFrom timestamps timestamp order).map
                    (Option.map fun reordered => (timestamp - previous) :: reordered)

def reorderTimestampsAndConvertToDelays (timestamps : List (List Char)) (order : List Nat) :
    Option (Option (List Int)) :=
  reorderFrom timestamps 0 order

/-! ### What the converter needs -/

def Cell (field : List Char) : Prop := ∀ c ∈ field, c.isDigit = true

def Readable (columns : List (List Char)) (text : List Char) : Prop :=
  ∃ rows, csvRecords text = columns :: rows ∧
    ∀ row ∈ rows, row.length = columns.length ∧ ∀ field ∈ row, Cell field

def Converts (text : List Char) : Prop :=
  ∃ orders, getOrderOfTracepoints text = some orders ∧
    ∀ order ∈ orders, ∀ row ∈ (csvRecords text).tail,
      reorderTimestampsAndConvertToDelays row order ≠ none

private theorem isSpace_of_isDigit {c : Char} (hdigit : c.isDigit = true) : isSpace c = false := by
  have hlow : 48 ≤ c.toNat := by
    simp only [Char.isDigit, Bool.and_eq_true, decide_eq_true_eq] at hdigit
    exact UInt32.le_iff_toNat_le.1 hdigit.1
  simp only [isSpace, Bool.or_eq_false_iff, beq_eq_false_iff_ne, Bool.and_eq_false_iff,
    decide_eq_false_iff_not]
  omega

private theorem dropWhile_digits {text : List Char} (htext : Cell text) :
    text.dropWhile isSpace = text := by
  cases text with
  | nil => rfl
  | cons c text =>
      have hspace := isSpace_of_isDigit (htext c List.mem_cons_self)
      rw [List.dropWhile_cons_of_neg (by simp [hspace])]

private theorem strip_digits {text : List Char} (htext : Cell text) : strip text = text := by
  have hreverse : Cell text.reverse := fun c hc => htext c (List.mem_reverse.1 hc)
  rw [strip, dropWhile_digits htext, dropWhile_digits hreverse, List.reverse_reverse]

def digitsValue (text : List Char) : Nat :=
  text.foldl (fun value c => 10 * value + (c.toNat - 48)) 0

theorem int_digits_eq {text : List Char} (htext : Cell text) (hne : text ≠ []) :
    int text = some (digitsValue text : Int) := by
  have hunderscore : '_' ∉ text := fun hmem => absurd (htext _ hmem) (by decide)
  have hall :
      (text.splitOn '_').all (fun piece => piece ≠ [] && piece.all Char.isDigit) = true := by
    rw [List.splitOn_eq_singleton hunderscore]
    simp only [List.all_cons, List.all_nil, Bool.and_true, Bool.and_eq_true, decide_eq_true_eq]
    exact ⟨hne, List.all_eq_true.2 htext⟩
  have hvalue : unsignedInt text = some (digitsValue text) := by
    rw [unsignedInt, if_pos hall, List.filter_eq_self.2 htext, digitsValue]
  unfold int
  rw [strip_digits htext]
  split
  · exact absurd (htext '-' List.mem_cons_self) (by decide)
  · exact absurd (htext '+' List.mem_cons_self) (by decide)
  · rw [hvalue]
    rfl

theorem int_digits {text : List Char} (htext : Cell text) (hne : text ≠ []) :
    ∃ value : Nat, int text = some (value : Int) := ⟨_, int_digits_eq htext hne⟩

theorem mapM_eq_some_of_forall {α β : Type} {f : α → Option β} {P : β → Prop} {l : List α}
    (h : ∀ a ∈ l, ∃ b, f a = some b ∧ P b) : ∃ bs, l.mapM f = some bs ∧ ∀ b ∈ bs, P b := by
  induction l with
  | nil => exact ⟨[], rfl, by simp⟩
  | cons a l ih =>
      obtain ⟨b, hb, hPb⟩ := h a List.mem_cons_self
      obtain ⟨bs, hbs, hPbs⟩ := ih fun a' ha' => h a' (List.mem_cons_of_mem _ ha')
      refine ⟨b :: bs, ?_, ?_⟩
      · simp [hb, hbs]
      · simpa [hPb] using hPbs

theorem orderOfRow_cells {row : List (List Char)} (hrow : ∀ field ∈ row, Cell field) :
    ∃ order, orderOfRow row = some order ∧ ∀ i ∈ order, i < row.length := by
  have hhits : ∀ hit ∈ row.zipIdx.filter (fun hit => hit.1 ≠ []), ∃ pair : Nat × Int,
      ((int hit.1).map fun timestamp => (hit.2, timestamp)) = some pair ∧
        pair.1 < row.length := by
    rintro ⟨field, i⟩ hhit
    obtain ⟨hmem, hne⟩ := List.mem_filter.1 hhit
    have hfield := List.mem_zipIdx_iff_getElem?.1 hmem
    obtain ⟨value, hvalue⟩ :=
      int_digits (hrow field (List.mem_of_getElem? hfield)) (by simpa using hne)
    refine ⟨(i, value), by simp [hvalue], ?_⟩
    exact (List.getElem?_eq_some_iff.1 hfield).1
  obtain ⟨pairs, hpairs, hbound⟩ := mapM_eq_some_of_forall hhits
  refine ⟨_, by simp only [orderOfRow, hpairs]; rfl, ?_⟩
  intro i hi
  obtain ⟨pair, hpair, rfl⟩ := List.mem_map.1 hi
  exact hbound pair (List.mem_mergeSort.1 hpair)

theorem reorderFrom_cells {row : List (List Char)} (hrow : ∀ field ∈ row, Cell field)
    {order : List Nat} (horder : ∀ i ∈ order, i < row.length) (previous : Int) :
    reorderFrom row previous order ≠ none := by
  induction order generalizing previous with
  | nil => simp [reorderFrom]
  | cons i order ih =>
      have hi : i < row.length := horder i List.mem_cons_self
      have hrest := ih fun j hj => horder j (List.mem_cons_of_mem _ hj)
      unfold reorderFrom
      rw [List.getElem?_eq_getElem hi]
      by_cases hempty : row[i] = []
      · simp [hempty]
      · obtain ⟨value, hvalue⟩ := int_digits (hrow _ (List.getElem_mem hi)) hempty
        simp only [hempty, if_false, hvalue]
        split
        · simp
        · simpa using hrest value

private theorem Readable.converts {columns : List (List Char)} {text : List Char}
    (h : Readable columns text) : Converts text := by
  obtain ⟨rows, hrows, hcells⟩ := h
  have horders : ∀ row ∈ rows, ∃ order, orderOfRow row = some order ∧
      ∀ i ∈ order, i < columns.length := by
    intro row hrow
    obtain ⟨hlength, hfields⟩ := hcells row hrow
    rw [← hlength]
    exact orderOfRow_cells hfields
  obtain ⟨orders, hall, hbound⟩ := mapM_eq_some_of_forall horders
  refine ⟨orders, by unfold getOrderOfTracepoints; rw [hrows]; exact hall, ?_⟩
  intro order horder row hrow
  rw [hrows] at hrow
  obtain ⟨hlength, hfields⟩ := hcells row hrow
  apply reorderFrom_cells hfields
  rw [hlength]
  exact hbound order horder

/-! ### The lines of the collector -/

private theorem cell_decimal (value : BitVec 64) : Cell (decimal value) := fun _ hc =>
  Nat.isDigit_of_mem_toDigits (by decide) (by decide) hc

private theorem cell_elapsed (timestamp pageFault : BitVec 64) :
    Cell (elapsed timestamp pageFault) := by
  unfold elapsed
  split
  · exact cell_decimal _
  · intro c hc
    cases hc

structure LineText (fields : List (List Char)) (text : List Char) : Prop where
  first : ∃ field rest, fields = field :: rest ∧ field ≠ [] ∧
    text = field ++ rest.flatMap (',' :: ·)
  cells : ∀ field ∈ fields, Cell field

private theorem LineText.csvFields {fields : List (List Char)} {text : List Char}
    (h : LineText fields text) : csvFields text = fields := by
  obtain ⟨field, rest, rfl, hne, rfl⟩ := h.first
  apply csvFields_cons hne
  intro f hf hcomma
  exact absurd (h.cells f hf _ hcomma) (by decide)

private theorem LineText.not_mem {fields : List (List Char)} {text : List Char}
    (h : LineText fields text) {c : Char} (hcomma : c ≠ ',') (hdigit : c.isDigit = false) :
    c ∉ text := by
  obtain ⟨field, rest, rfl, hne, rfl⟩ := h.first
  have hcell : ∀ f ∈ field :: rest, c ∉ f := fun f hf hmem =>
    Bool.false_ne_true (hdigit.symm.trans (h.cells f hf c hmem))
  simp only [List.mem_append, List.mem_flatMap, List.mem_cons, not_or, not_exists, not_and]
  exact ⟨hcell field List.mem_cons_self, fun f hf =>
    ⟨hcomma, hcell f (List.mem_cons_of_mem _ hf)⟩⟩

private theorem LineText.newline {fields : List (List Char)} {text : List Char}
    (h : LineText fields text) : '\n' ∉ text := h.not_mem (by decide) (by decide)

private theorem LineText.ne_nil {fields : List (List Char)} {text : List Char}
    (h : LineText fields text) : text ≠ [] := by
  obtain ⟨field, rest, rfl, hne, rfl⟩ := h.first
  simp [hne]

private theorem LineText.append {fields more : List (List Char)} {text : List Char}
    (h : LineText fields text) (hmore : ∀ field ∈ more, Cell field) :
    LineText (fields ++ more) (text ++ more.flatMap (',' :: ·)) := by
  obtain ⟨field, rest, rfl, hne, rfl⟩ := h.first
  refine ⟨⟨field, rest ++ more, rfl, hne, by simp⟩, ?_⟩
  intro f hf
  rcases List.mem_append.1 hf with hf | hf
  · exact h.cells f hf
  · exact hmore f hf

private theorem printPageStart_text (s : Settings) (sample : Sample) :
    ∃ fields, LineText fields (printPageStart s sample) ∧
      fields.length = if s.noMsgReceived then 1 else 2 := by
  have hfirst : LineText [decimal (sample.finish - sample.pageFault)]
      (decimal (sample.finish - sample.pageFault)) :=
    ⟨⟨_, [], rfl, Nat.toDigits_ne_nil, by simp⟩, by simpa using cell_decimal _⟩
  unfold printPageStart
  cases s.noMsgReceived with
  | true => exact ⟨_, by simpa using hfirst, rfl⟩
  | false =>
      have hmore : ∀ field ∈ [elapsed sample.msgReceived sample.pageFault], Cell field := by
        simpa using cell_elapsed _ _
      exact ⟨_, by simpa using hfirst.append hmore, rfl⟩

private theorem printTracepoints_ok (sample : Sample) (tracepoints : List Tracepoint) :
    (printTracepoints sample tracepoints).2 = true ↔
      ∀ tracepoint ∈ tracepoints, readFastTracepoint (sample.reads tracepoint.name) ≠ none := by
  induction tracepoints with
  | nil => simp [printTracepoints]
  | cons tracepoint rest ih =>
      unfold printTracepoints
      cases hread : readFastTracepoint (sample.reads tracepoint.name) with
      | none => simp [hread]
      | some timestamp => simpa [hread] using ih

private theorem printTracepoints_text (sample : Sample) (tracepoints : List Tracepoint) :
    ∃ fields : List (List Char),
      (printTracepoints sample tracepoints).1 = fields.flatMap (',' :: ·) ∧
      (∀ field ∈ fields, Cell field) ∧
      if (printTracepoints sample tracepoints).2 then fields.length = tracepoints.length
      else fields.length < tracepoints.length := by
  induction tracepoints with
  | nil => exact ⟨[], by simp [printTracepoints]⟩
  | cons tracepoint rest ih =>
      obtain ⟨fields, htext, hcells, hlength⟩ := ih
      unfold printTracepoints
      cases hread : readFastTracepoint (sample.reads tracepoint.name) with
      | none => exact ⟨[], by simp⟩
      | some timestamp =>
          refine ⟨elapsed timestamp sample.pageFault :: fields, by simp [htext], ?_, ?_⟩
          · simpa [cell_elapsed] using hcells
          · simpa using hlength

def Sample.Complete (s : Settings) (sample : Sample) : Prop :=
  ∀ tracepoints, s.fastTracepoints = some tracepoints → ∀ tracepoint ∈ tracepoints,
    readFastTracepoint (sample.reads tracepoint.name) ≠ none

private theorem printPage_ok (s : Settings) (sample : Sample) :
    (printPage s sample).2 = true ↔ sample.Complete s := by
  unfold printPage Sample.Complete
  cases hdir : s.fastTracepoints with
  | none => simp
  | some tracepoints =>
      have hok := printTracepoints_ok sample tracepoints
      simp only [Option.some.injEq, forall_eq']
      rw [← hok]
      cases (printTracepoints sample tracepoints).2 <;> simp

/-- A page that is sampled completely gives a line as wide as the header; otherwise the
line is too short and not ended. -/
private theorem printPage_text (s : Settings) (sample : Sample) :
    ∃ fields line, LineText fields line ∧
      if (printPage s sample).2 then
        (printPage s sample).1 = line ++ ['\n'] ∧ fields.length = s.columns.length
      else (printPage s sample).1 = line ∧ fields.length < s.columns.length := by
  obtain ⟨start, hstart, hwidth⟩ := printPageStart_text s sample
  unfold printPage Settings.columns
  cases hdir : s.fastTracepoints with
  | none =>
      refine ⟨start, printPageStart s sample, hstart, ?_⟩
      cases hno : s.noMsgReceived <;> simp [hwidth, hno]
  | some tracepoints =>
      obtain ⟨fields, htext, hcells, hlength⟩ := printTracepoints_text sample tracepoints
      let fixed := [decimal (sample.isrEntry - sample.pageFault),
        decimal (sample.iret - sample.pageFault)]
      have hfixed : ∀ field ∈ fixed, Cell field := by
        simp only [fixed, List.mem_cons, List.not_mem_nil, or_false, forall_eq_or_imp, forall_eq]
        exact ⟨cell_decimal _, cell_decimal _⟩
      refine ⟨_, _, (hstart.append hfixed).append hcells, ?_⟩
      cases hok : (printTracepoints sample tracepoints).2 <;> rw [hok] at hlength <;>
        cases hno : s.noMsgReceived <;>
        simp [fixed, htext, hok, hno, hwidth] at hlength ⊢ <;> omega

/-! ### Whole outputs -/

private theorem csvRows_printPages_succ (s : Settings) (samples : Nat → Sample) (page left : Nat) :
    ∃ fields, (∀ field ∈ fields, Cell field) ∧
      if (printPage s (samples page)).2 then
        fields.length = s.columns.length ∧
          csvRows (printPages s samples page (left + 1)) =
            fields :: csvRows (printPages s samples (page + 1) left)
      else
        fields.length < s.columns.length ∧
          csvRows (printPages s samples page (left + 1)) = [fields] := by
  obtain ⟨fields, line, hline, htext⟩ := printPage_text s (samples page)
  refine ⟨fields, hline.cells, ?_⟩
  cases hok : (printPage s (samples page)).2 with
  | true =>
      simp only [hok, if_true, printPages] at htext ⊢
      refine ⟨htext.2, ?_⟩
      rw [htext.1, List.append_assoc, List.singleton_append, csvRows_cons hline.newline,
        hline.csvFields]
  | false =>
      simp only [hok, Bool.false_eq_true, if_false, printPages] at htext ⊢
      refine ⟨htext.2, ?_⟩
      rw [htext.1, csvRows_unterminated hline.newline hline.ne_nil, hline.csvFields]

private theorem printPages_complete (s : Settings) (samples : Nat → Sample) (page left : Nat)
    (hcomplete : ∀ i < left, (samples (page + i)).Complete s) :
    ∀ row ∈ csvRows (printPages s samples page left),
      row.length = s.columns.length ∧ ∀ field ∈ row, Cell field := by
  induction left generalizing page with
  | zero => simp [printPages]
  | succ left ih =>
      have hrest := ih (page + 1) fun i hi => by
        simpa [Nat.add_assoc, Nat.add_comm 1 i] using hcomplete (i + 1) (by omega)
      have hok := (printPage_ok s (samples page)).2 (hcomplete 0 (by omega))
      obtain ⟨fields, hcells, hrows⟩ := csvRows_printPages_succ s samples page left
      rw [if_pos hok] at hrows
      intro row hrow
      rw [hrows.2, List.mem_cons] at hrow
      rcases hrow with rfl | hrow
      · exact ⟨hrows.1, hcells⟩
      · exact hrest row hrow

private theorem printPages_incomplete (s : Settings) (samples : Nat → Sample) (page left : Nat)
    {i : Nat} (hi : i < left) (hincomplete : ¬(samples (page + i)).Complete s) :
    ∃ row ∈ csvRows (printPages s samples page left), row.length < s.columns.length := by
  induction left generalizing page i with
  | zero => omega
  | succ left ih =>
      obtain ⟨fields, _, hrows⟩ := csvRows_printPages_succ s samples page left
      by_cases hok : (printPage s (samples page)).2 = true
      · rw [if_pos hok] at hrows
        -- this page is complete, so the one that is not comes later
        cases i with
        | zero => exact absurd ((printPage_ok s (samples page)).1 hok) hincomplete
        | succ i =>
            have hlater : ¬(samples (page + 1 + i)).Complete s := by
              simpa [Nat.add_assoc, Nat.add_comm 1 i] using hincomplete
            obtain ⟨row, hrow, hshort⟩ := ih (page + 1) (by omega) hlater
            exact ⟨row, by rw [hrows.2]; exact List.mem_cons_of_mem _ hrow, hshort⟩
      · rw [if_neg hok] at hrows
        exact ⟨fields, by rw [hrows.2]; exact List.mem_singleton_self _, hrows.1⟩

private theorem quote_not_mem_printPages (s : Settings) (samples : Nat → Sample) (page left : Nat) :
    '"' ∉ printPages s samples page left := by
  induction left generalizing page with
  | zero => exact List.not_mem_nil
  | succ left ih =>
      obtain ⟨fields, line, hline, htext⟩ := printPage_text s (samples page)
      have hquote : '"' ∉ line := hline.not_mem (by decide) (by decide)
      cases hok : (printPage s (samples page)).2 with
      | true =>
          simp only [hok, if_true] at htext
          simpa [printPages, hok, htext.1, hquote] using ih (page + 1)
      | false =>
          simp only [hok, Bool.false_eq_true, if_false] at htext
          simpa [printPages, hok, htext.1] using hquote

private theorem quote_not_mem_doIteration (s : Settings) (iteration : Iteration) :
    '"' ∉ doIteration s iteration := by
  rw [doIteration, List.mem_append, not_or]
  refine ⟨quote_not_mem_printColumns s, ?_⟩
  split
  · exact quote_not_mem_printPages s iteration.samples 0 s.pages
  · exact List.not_mem_nil

private theorem quote_not_mem_doIterations (s : Settings) (iterations : Nat → Iteration)
    (i left : Nat) :
    '"' ∉ doIterations s iterations i left := by
  induction left generalizing i with
  | zero => exact List.not_mem_nil
  | succ left ih =>
      rw [doIterations, List.mem_append, not_or]
      exact ⟨quote_not_mem_doIteration s (iterations i), ih (i + 1)⟩

private theorem readable_doIteration (s : Settings) (iteration : Iteration) :
    Readable s.columns (doIteration s iteration) ↔
      (iteration.ready = true → ∀ page < s.pages, (iteration.samples page).Complete s) := by
  rw [Readable, csvRecords_eq_csvRows (quote_not_mem_doIteration s iteration), doIteration,
    csvRows_printColumns]
  simp only [List.cons.injEq, true_and, exists_eq_left']
  cases iteration.ready with
  | false => simp
  | true =>
      simp only [if_true, forall_const]
      constructor
      · intro hrows page hpage
        by_contra hincomplete
        rw [← Nat.zero_add page] at hincomplete
        obtain ⟨row, hrow, hshort⟩ :=
          printPages_incomplete s iteration.samples 0 s.pages hpage hincomplete
        exact absurd (hrows row hrow).1 (Nat.ne_of_lt hshort)
      · intro hcomplete
        apply printPages_complete
        intro page hpage
        rw [Nat.zero_add]
        exact hcomplete page hpage

private theorem not_readable_of_header (s : Settings) (iteration : Iteration) {rest : List Char}
    (hquote : '"' ∉ rest) (hrest : 'e' ∈ rest) :
    ¬Readable s.columns (doIteration s iteration ++ rest) := by
  have hplain : '"' ∉ doIteration s iteration ++ rest := by
    rw [List.mem_append, not_or]
    exact ⟨quote_not_mem_doIteration s iteration, hquote⟩
  rintro ⟨rows, hrows, hcells⟩
  rw [csvRecords_eq_csvRows hplain, doIteration, List.append_assoc, csvRows_printColumns,
    List.cons.injEq] at hrows
  obtain ⟨row, hrow, field, hfield, he⟩ :=
    mem_csvRows_of_mem (List.mem_append_right _ hrest) (by decide) (by decide)
  rw [hrows.2] at hrow
  exact absurd ((hcells row hrow).2 field hfield 'e' he) (by decide)

private theorem mem_doIterations (s : Settings) (iterations : Nat → Iteration) (i left : Nat) :
    'e' ∈ doIterations s iterations i (left + 1) := by
  simp [doIterations, doIteration, printColumns]

private theorem not_readable_nil (s : Settings) : ¬Readable s.columns [] := by
  rintro ⟨rows, hrows, _⟩
  cases hrows

/-- The output is readable, and is converted, exactly when there is one iteration, the
tracepoints are not too many, and each of them can be read for every page. -/
theorem main_readable_iff (s : Settings) (iterations : Nat → Iteration) :
    (Readable s.columns (main s iterations) ∧ Converts (main s iterations)) ↔
      s.iterationCount.toNat = 1 ∧ s.listFastTracepoints = true ∧
        ((iterations 0).ready = true →
          ∀ page < s.pages, ((iterations 0).samples page).Complete s) := by
  have hconverts : Readable s.columns (main s iterations) ∧ Converts (main s iterations) ↔
      Readable s.columns (main s iterations) := and_iff_left_of_imp Readable.converts
  rw [hconverts, ← readable_doIteration]
  unfold main
  cases s.listFastTracepoints with
  | false => simpa using not_readable_nil s
  | true =>
      simp only [if_true, true_and]
      match s.iterationCount.toNat with
      | 0 => simpa [doIterations] using not_readable_nil s
      | 1 => simp [doIterations]
      | left + 2 =>
          have hheader := not_readable_of_header s (iterations 0)
            (quote_not_mem_doIterations s iterations 1 (left + 1))
            (mem_doIterations s iterations 1 left)
          simpa [doIterations] using hheader

def twoIterations : Settings where
  length := 1
  iterationCount := 2
  withUserfaultfd := false
  noMsgReceivedOption := false
  fastTracepoints := none

def fiveCycles : Iteration where
  ready := true
  samples := fun _ => ⟨100, 105, 0, 0, 0, fun _ => none⟩

/-- The second header is taken for a row, and `int` raises on its first field. -/
theorem twoIterations_raises :
    main twoIterations (fun _ => fiveCycles) =
        ['e', 'n', 'd', '\n', '5', '\n', 'e', 'n', 'd', '\n', '5', '\n'] ∧
      getOrderOfTracepoints (main twoIterations fun _ => fiveCycles) = none := by
  decide

end UserPaging.Timings
