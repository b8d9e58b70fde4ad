import Mathlib.Algebra.GroupWithZero.Nat
import Mathlib.Algebra.Order.BigOperators.Group.List
import Mathlib.Algebra.Order.Group.Nat
import Mathlib.Data.List.Perm.Subperm
import UserPaging.Foundation.Csv

/-!
# Reading comma-separated text with quotation marks

`csvRecords` is Python's `csv.reader` in its default dialect, as a machine that
takes the text character by character.  A field that starts with a quotation mark
goes on to the next single one, over commas and ends of lines; elsewhere a
quotation mark is an ordinary character.  The ends of lines are already `'\n'`.

Nothing quotes when a line is written (`csvLine`).  What a written line is read
back as is said twice: for fields that need no quotes, and, by counting characters,
for the ones that do.
-/

namespace UserPaging.Foundation

inductive CsvState where
  | startRecord
  | startField
  | inField
  | inQuotedField
  | quoteInQuotedField
  deriving DecidableEq, Repr

inductive CsvEffect where
  | addChar
  | skip
  | saveField
  | endRecord
  | emptyRecord
  deriving DecidableEq, Repr

namespace CsvState

def processStart (c : Char) : CsvEffect × CsvState :=
  if c = '\n' then (.endRecord, startRecord)
  else if c = '"' then (.skip, inQuotedField)
  else if c = ',' then (.saveField, startField)
  else (.addChar, inField)

def process (c : Char) : CsvState → CsvEffect × CsvState
  | startRecord => if c = '\n' then (.emptyRecord, startRecord) else processStart c
  | startField => processStart c
  | inField =>
      if c = '\n' then (.endRecord, startRecord)
      else if c = ',' then (.saveField, startField)
      else (.addChar, inField)
  | inQuotedField =>
      if c = '"' then (.skip, quoteInQuotedField) else (.addChar, inQuotedField)
  | quoteInQuotedField =>
      if c = '"' then (.addChar, inQuotedField)
      else if c = ',' then (.saveField, startField)
      else if c = '\n' then (.endRecord, startRecord)
      else (.addChar, inField)

end CsvState

/-- The records of the text, where `fields` and `field` have been read of the first. -/
def csvRecordsFrom (state : CsvState) (fields : List (List Char)) (field : List Char) :
    List Char → List (List (List Char))
  | [] => if state = .startRecord then [] else [fields ++ [field]]
  | c :: text =>
      match state.process c with
      | (.addChar, next) => csvRecordsFrom next fields (field ++ [c]) text
      | (.skip, next) => csvRecordsFrom next fields field text
      | (.saveField, next) => csvRecordsFrom next (fields ++ [field]) [] text
      | (.endRecord, next) => (fields ++ [field]) :: csvRecordsFrom next [] [] text
      | (.emptyRecord, next) => [] :: csvRecordsFrom next [] [] text

def csvRecords (text : List Char) : List (List (List Char)) :=
  csvRecordsFrom .startRecord [] [] text

/-! ### Fields that need no quotes -/

structure PlainField (field : List Char) : Prop where
  comma : ',' ∉ field
  newline : '\n' ∉ field
  quote : field.head? ≠ some '"'

/-- A record that is read as it is written; a single empty field would give a blank line. -/
structure PlainRecord (fields : List (List Char)) : Prop where
  ne_nil : fields ≠ []
  not_blank : fields ≠ [[]]
  fields : ∀ field ∈ fields, PlainField field

private theorem csvRecordsFrom_inField_comma (fields : List (List Char)) (field text : List Char) :
    csvRecordsFrom .inField fields field (',' :: text) =
      csvRecordsFrom .startField (fields ++ [field]) [] text := rfl

private theorem csvRecordsFrom_inField_append {more : List Char} (hcomma : ',' ∉ more)
    (hnewline : '\n' ∉ more) (fields : List (List Char)) (field text : List Char) :
    csvRecordsFrom .inField fields field (more ++ text) =
      csvRecordsFrom .inField fields (field ++ more) text := by
  induction more generalizing field with
  | nil => rw [List.append_nil, List.nil_append]
  | cons c more ih =>
      rw [List.mem_cons, not_or] at hcomma hnewline
      have hprocess : CsvState.inField.process c = (.addChar, .inField) := by
        rw [CsvState.process, if_neg (Ne.symm hnewline.1), if_neg (Ne.symm hcomma.1)]
      rw [List.cons_append, csvRecordsFrom, hprocess]
      simp only
      rw [ih hcomma.2 hnewline.2, List.append_assoc, List.singleton_append]

private theorem processStart_of_plain {c : Char} {field : List Char}
    (hplain : PlainField (c :: field)) :
    CsvState.processStart c = (.addChar, .inField) ∧ c ≠ '\n' := by
  have hcomma : c ≠ ',' := fun h => hplain.comma (h ▸ List.mem_cons_self)
  have hnewline : c ≠ '\n' := fun h => hplain.newline (h ▸ List.mem_cons_self)
  have hquote : c ≠ '"' := fun h => hplain.quote (congrArg some h)
  refine ⟨?_, hnewline⟩
  rw [CsvState.processStart, if_neg hnewline, if_neg hquote, if_neg hcomma]

private theorem csvRecordsFrom_plain {field : List Char} (hplain : PlainField field)
    (hne : field ≠ [])
    {state : CsvState} (hstate : state = .startRecord ∨ state = .startField)
    (fields : List (List Char)) (text : List Char) :
    csvRecordsFrom state fields [] (field ++ text) =
      csvRecordsFrom .inField fields field text := by
  cases field with
  | nil => exact absurd rfl hne
  | cons c field =>
      obtain ⟨hstart, hnewline⟩ := processStart_of_plain hplain
      have hprocess : state.process c = (.addChar, .inField) := by
        rcases hstate with rfl | rfl
        · rw [CsvState.process, if_neg hnewline, hstart]
        · rw [CsvState.process, hstart]
      have hcomma : ',' ∉ field := fun h => hplain.comma (List.mem_cons_of_mem _ h)
      have hmore : '\n' ∉ field := fun h => hplain.newline (List.mem_cons_of_mem _ h)
      rw [List.cons_append, csvRecordsFrom, hprocess]
      exact csvRecordsFrom_inField_append hcomma hmore fields [c] text

private theorem csvRecordsFrom_field {field : List Char} (hplain : PlainField field)
    (fields : List (List Char)) {c : Char} (hc : c = ',' ∨ c = '\n') (text : List Char) :
    csvRecordsFrom .startField fields [] (field ++ c :: text) =
      csvRecordsFrom .inField fields field (c :: text) := by
  by_cases hempty : field = []
  · rw [hempty, List.nil_append]
    rcases hc with rfl | rfl <;> rfl
  · exact csvRecordsFrom_plain hplain hempty (Or.inr rfl) fields (c :: text)

private theorem csvRecordsFrom_fields {rest : List (List Char)}
    (hplain : ∀ field ∈ rest, PlainField field) (fields : List (List Char))
    (field text : List Char) :
    csvRecordsFrom .inField fields field (rest.flatMap (',' :: ·) ++ '\n' :: text) =
      (fields ++ field :: rest) :: csvRecords text := by
  induction rest generalizing fields field with
  | nil => rfl
  | cons next rest ih =>
      have hnext := hplain next List.mem_cons_self
      have hrest := ih fun f hf => hplain f (List.mem_cons_of_mem _ hf)
      have hsplit : ∃ c tail, (c = ',' ∨ c = '\n') ∧
          rest.flatMap (',' :: ·) ++ '\n' :: text = c :: tail := by
        cases rest with
        | nil => exact ⟨'\n', text, Or.inr rfl, rfl⟩
        | cons other rest =>
            refine ⟨',', other ++ rest.flatMap (',' :: ·) ++ '\n' :: text, Or.inl rfl, ?_⟩
            rw [List.flatMap_cons, List.cons_append, List.cons_append]
      obtain ⟨c, tail, hc, htail⟩ := hsplit
      rw [List.flatMap_cons, List.append_assoc, List.cons_append,
        csvRecordsFrom_inField_comma, htail, csvRecordsFrom_field hnext _ hc, ← htail, hrest,
        List.append_assoc, List.singleton_append]

theorem csvRecords_csvLine {fields : List (List Char)} (hplain : PlainRecord fields)
    (text : List Char) :
    csvRecords (csvLine fields ++ '\n' :: text) = fields :: csvRecords text := by
  cases fields with
  | nil => exact absurd rfl hplain.ne_nil
  | cons field rest =>
      have hrest : ∀ f ∈ rest, PlainField f := fun f hf =>
        hplain.fields f (List.mem_cons_of_mem _ hf)
      rw [csvLine_cons, List.append_assoc, csvRecords]
      by_cases hempty : field = []
      · subst hempty
        cases rest with
        | nil => exact absurd rfl hplain.not_blank
        | cons next rest => exact csvRecordsFrom_fields hrest [] [] text
      · rw [csvRecordsFrom_plain (hplain.fields field List.mem_cons_self) hempty (Or.inl rfl)]
        exact csvRecordsFrom_fields hrest [] field text

def csvText (records : List (List (List Char))) : List Char :=
  records.flatMap fun record => csvLine record ++ ['\n']

theorem csvText_cons (record : List (List Char)) (records : List (List (List Char))) :
    csvText (record :: records) = csvLine record ++ '\n' :: csvText records := by
  rw [csvText, List.flatMap_cons, List.append_assoc]
  rfl

theorem not_mem_csvText {c : Char} (hcomma : c ≠ ',') (hnewline : c ≠ '\n')
    {records : List (List (List Char))}
    (hfields : ∀ record ∈ records, ∀ field ∈ record, c ∉ field) : c ∉ csvText records := by
  intro hmem
  obtain ⟨record, hrecord, hmem⟩ := List.mem_flatMap.1 hmem
  rcases List.mem_append.1 hmem with hmem | hmem
  · rcases mem_of_mem_intercalate hmem with hseparator | ⟨field, hfield, hmem⟩
    · exact hcomma (List.mem_singleton.1 hseparator)
    · exact hfields record hrecord field hfield hmem
  · exact hnewline (List.mem_singleton.1 hmem)

theorem csvRecords_csvText {records : List (List (List Char))}
    (hplain : ∀ record ∈ records, PlainRecord record) :
    csvRecords (csvText records) = records := by
  induction records with
  | nil => rfl
  | cons record records ih =>
      have hrest := ih fun other hother => hplain other (List.mem_cons_of_mem _ hother)
      rw [csvText_cons, csvRecords_csvLine (hplain record List.mem_cons_self), hrest]

/-! ### Counting characters -/

def recordWeight (fields : List (List Char)) : Nat :=
  (fields.map fun field => field.length + 1).sum

@[simp] theorem recordWeight_nil : recordWeight [] = 0 := rfl

@[simp] theorem recordWeight_append (fields more : List (List Char)) :
    recordWeight (fields ++ more) = recordWeight fields + recordWeight more := by
  simp [recordWeight]

@[simp] theorem recordWeight_cons (field : List Char) (fields : List (List Char)) :
    recordWeight (field :: fields) = field.length + 1 + recordWeight fields := rfl

private theorem length_csvLine {fields : List (List Char)} (hne : fields ≠ []) :
    (csvLine fields).length + 1 = recordWeight fields := by
  cases fields with
  | nil => exact absurd rfl hne
  | cons field rest =>
      have hrest : (rest.flatMap (',' :: ·)).length = recordWeight rest := by
        simp [recordWeight, List.length_flatMap]
      rw [csvLine_cons, List.length_append, hrest, recordWeight_cons]
      omega

private theorem recordWeight_le_of_subset {names fields : List (List Char)} (hnodup : names.Nodup)
    (hsubset : names ⊆ fields) : recordWeight names ≤ recordWeight fields := by
  obtain ⟨part, hperm, hsublist⟩ := List.subperm_of_subset hnodup hsubset
  have hpart : recordWeight part = recordWeight names := (hperm.map _).sum_nat
  rw [← hpart]
  exact (hsublist.map _).sum_le_sum fun _ _ => Nat.zero_le _

private theorem csvRecordsFrom_unclosed {text : List Char} (hquote : '"' ∉ text)
    (fields : List (List Char)) (field : List Char) :
    csvRecordsFrom .inQuotedField fields field text = [fields ++ [field ++ text]] := by
  induction text generalizing field with
  | nil => rw [List.append_nil]; rfl
  | cons c text ih =>
      rw [List.mem_cons, not_or] at hquote
      have hprocess : CsvState.inQuotedField.process c = (.addChar, .inQuotedField) := by
        rw [CsvState.process, if_neg (Ne.symm hquote.1)]
      rw [csvRecordsFrom, hprocess]
      simp only
      rw [ih hquote.2, List.append_assoc, List.singleton_append]

def SingleOrLight (records : List (List (List Char))) (weight : Nat) : Prop :=
  (∃ record, records = [record]) ∨
    ∃ record rest, records = record :: rest ∧ recordWeight record ≤ weight

namespace SingleOrLight

variable {record : List (List Char)} {records : List (List (List Char))} {weight weight' : Nat}

private theorem of_cons (hweight : recordWeight record ≤ weight) :
    SingleOrLight (record :: records) weight :=
  Or.inr ⟨record, records, rfl, hweight⟩

private theorem mono (hlight : SingleOrLight records weight) (hle : weight ≤ weight') :
    SingleOrLight records weight' := by
  rcases hlight with hsingle | ⟨record, rest, heq, hweight⟩
  · exact Or.inl hsingle
  · exact Or.inr ⟨record, rest, heq, hweight.trans hle⟩

end SingleOrLight

/-- The first record weighs at most what the line and the fields before it do, unless it
swallows the text after the line. -/
private theorem csvRecordsFrom_weight (line : List Char) {text : List Char} (hquote : '"' ∉ text)
    (state : CsvState) (fields : List (List Char)) (field : List Char) :
    SingleOrLight (csvRecordsFrom state fields field (line ++ '\n' :: text))
      (recordWeight fields + field.length + line.length + 1) := by
  induction line generalizing state fields field with
  | nil =>
      rw [List.nil_append]
      cases state with
      | inQuotedField =>
          have hall : '"' ∉ '\n' :: text := by
            rw [List.mem_cons, not_or]
            exact ⟨by decide, hquote⟩
          exact Or.inl ⟨_, csvRecordsFrom_unclosed hall fields field⟩
      | startRecord => exact .of_cons (Nat.zero_le _)
      | startField | inField | quoteInQuotedField =>
          apply SingleOrLight.of_cons
          simp
          omega
  | cons c line ih =>
      rw [List.cons_append, csvRecordsFrom, List.length_cons]
      -- each character adds at most one to the weight of what has been read
      split
      · rename_i next _
        have hnext := ih next fields (field ++ [c])
        rw [List.length_append, List.length_singleton] at hnext
        exact hnext.mono (by omega)
      · rename_i next _
        exact (ih next fields field).mono (by omega)
      · rename_i next _
        have hnext := ih next (fields ++ [field]) []
        rw [recordWeight_append, recordWeight_cons, recordWeight_nil, List.length_nil] at hnext
        exact hnext.mono (by omega)
      · apply SingleOrLight.of_cons
        rw [recordWeight_append, recordWeight_cons, recordWeight_nil]
        omega
      · exact .of_cons (Nat.zero_le _)

private theorem csvLine_cons_cons (field next : List Char) (rest : List (List Char)) :
    csvLine (field :: next :: rest) = field ++ ',' :: csvLine (next :: rest) := by
  rw [csvLine_cons, csvLine_cons, List.flatMap_cons, List.cons_append]

private theorem csvRecordsFrom_quote {state : CsvState}
    (hstate : state = .startRecord ∨ state = .startField) (fields : List (List Char))
    (line : List Char) {text : List Char} (hquote : '"' ∉ text) :
    SingleOrLight (csvRecordsFrom state fields [] ('"' :: line ++ '\n' :: text))
      (recordWeight fields + ('"' :: line).length) := by
  have hopen : csvRecordsFrom state fields [] ('"' :: line ++ '\n' :: text) =
      csvRecordsFrom .inQuotedField fields [] (line ++ '\n' :: text) := by
    rcases hstate with rfl | rfl <;> rfl
  rw [hopen]
  exact csvRecordsFrom_weight line hquote .inQuotedField fields []

private theorem csvRecordsFrom_cut {state : CsvState}
    (hstate : state = .startRecord ∨ state = .startField) (fields : List (List Char))
    {field : List Char} (hplain : PlainField field) (text : List Char) :
    SingleOrLight (csvRecordsFrom state fields [] (field ++ '\n' :: text))
      (recordWeight fields + field.length + 1) := by
  by_cases hempty : field = []
  · subst hempty
    rcases hstate with rfl | rfl
    · exact .of_cons (Nat.zero_le _)
    · exact .of_cons (by simp)
  · rw [csvRecordsFrom_plain hplain hempty hstate]
    apply SingleOrLight.of_cons
    rw [recordWeight_append, recordWeight_cons, recordWeight_nil]
    omega

private theorem csvRecordsFrom_plain_comma {field : List Char} (hplain : PlainField field)
    {state : CsvState} (hstate : state = .startRecord ∨ state = .startField)
    (fields : List (List Char)) (text : List Char) :
    csvRecordsFrom state fields [] (field ++ ',' :: text) =
      csvRecordsFrom .startField (fields ++ [field]) [] text := by
  by_cases hempty : field = []
  · subst hempty
    rcases hstate with rfl | rfl <;> rfl
  · rw [csvRecordsFrom_plain hplain hempty hstate, csvRecordsFrom_inField_comma]

private theorem csvRecordsFrom_not_plain {names : List (List Char)}
    (hcomma : ∀ name ∈ names, ',' ∉ name)
    (hnot : ∃ name ∈ names, ¬ PlainField name) {text : List Char} (hquote : '"' ∉ text)
    {state : CsvState} (hstate : state = .startRecord ∨ state = .startField)
    (fields : List (List Char)) :
    SingleOrLight (csvRecordsFrom state fields [] (csvLine names ++ '\n' :: text))
      (recordWeight fields + (csvLine names).length) := by
  induction names generalizing state fields with
  | nil =>
      obtain ⟨name, hmem, _⟩ := hnot
      cases hmem
  | cons name rest ih =>
      have hname : ',' ∉ name := hcomma name List.mem_cons_self
      by_cases hhead : name.head? = some '"'
      · obtain ⟨tail, rfl⟩ := List.head?_eq_some_iff.1 hhead
        rw [csvLine_cons, List.cons_append]
        exact csvRecordsFrom_quote hstate fields _ hquote
      by_cases hnewline : '\n' ∈ name
      · obtain ⟨before, after, rfl, hbefore⟩ := List.eq_append_cons_of_mem hnewline
        have hplain : PlainField before := by
          refine ⟨fun h => hname (List.mem_append_left _ h), hbefore, fun h => hhead ?_⟩
          rw [List.head?_append, h]
          rfl
        have hcut := csvRecordsFrom_cut hstate fields hplain
          (after ++ rest.flatMap (',' :: ·) ++ '\n' :: text)
        rw [csvLine_cons, List.length_append, List.length_append, List.length_cons]
        simp only [List.append_assoc, List.cons_append] at hcut ⊢
        exact hcut.mono (by omega)
      -- the name is plain, so the one that is not comes later
      have hplain : PlainField name := ⟨hname, hnewline, hhead⟩
      have hlater : ∃ other ∈ rest, ¬ PlainField other := by
        obtain ⟨other, hmem, hother⟩ := hnot
        rcases List.mem_cons.1 hmem with rfl | hmem
        · exact absurd hplain hother
        · exact ⟨other, hmem, hother⟩
      have hrest := ih (fun other hother => hcomma other (List.mem_cons_of_mem _ hother)) hlater
        (Or.inr rfl) (fields ++ [name])
      cases rest with
      | nil =>
          obtain ⟨other, hmem, _⟩ := hlater
          cases hmem
      | cons next rest =>
          rw [recordWeight_append, recordWeight_cons, recordWeight_nil] at hrest
          rw [csvLine_cons_cons, List.append_assoc, List.cons_append,
            csvRecordsFrom_plain_comma hplain hstate, List.length_append, List.length_cons]
          exact hrest.mono (by omega)

/-- If the first record has all the names of the line and is not the only one, then the names
need no quotes. -/
theorem plain_of_csvRecords {names : List (List Char)} (hnodup : names.Nodup) (hne : names ≠ [])
    (hcomma : ∀ name ∈ names, ',' ∉ name) {text : List Char} (hquote : '"' ∉ text)
    {record : List (List Char)} {records : List (List (List Char))}
    (hread : csvRecords (csvLine names ++ '\n' :: text) = record :: records)
    (hrecords : records ≠ []) (hsubset : names ⊆ record) : PlainRecord names := by
  refine ⟨hne, ?_, ?_⟩
  · rintro rfl
    cases hread
    exact absurd (hsubset List.mem_cons_self) List.not_mem_nil
  · by_contra hplain
    have hnot : ∃ name ∈ names, ¬ PlainField name := by simpa using hplain
    have hweight := recordWeight_le_of_subset hnodup hsubset
    have hlength := length_csvLine hne
    rw [csvRecords] at hread
    rcases csvRecordsFrom_not_plain hcomma hnot hquote (Or.inl rfl) [] with
      ⟨other, hother⟩ | ⟨other, others, hother, hless⟩
    · rw [hread, List.cons.injEq] at hother
      exact hrecords hother.2
    · rw [hread, List.cons.injEq] at hother
      rw [hother.1] at hweight
      rw [recordWeight_nil] at hless
      omega

/-! ### Text without quotation marks -/

def EndsLine (ending : List Char) (records : List (List (List Char))) : Prop :=
  (ending = [] ∧ records = []) ∨ ∃ text, ending = '\n' :: text ∧ records = csvRecords text

private theorem modifyHead_nil_append (pieces : List (List Char)) :
    pieces.modifyHead ([] ++ ·) = pieces := congrFun List.modifyHead_id pieces

private theorem csvRecordsFrom_line {line ending : List Char} {records : List (List (List Char))}
    (hnewline : '\n' ∉ line) (hquote : '"' ∉ line) (hends : EndsLine ending records)
    {state : CsvState} (hstate : state = .startField ∨ state = .inField)
    (fields : List (List Char)) (field : List Char) :
    csvRecordsFrom state fields field (line ++ ending) =
      (fields ++ (line.splitOn ',').modifyHead (field ++ ·)) :: records := by
  induction line generalizing state fields field with
  | nil =>
      rw [List.nil_append, List.splitOn_nil, List.modifyHead_cons, List.append_nil]
      rcases hends with ⟨rfl, rfl⟩ | ⟨text, rfl, rfl⟩ <;> rcases hstate with rfl | rfl <;> rfl
  | cons c line ih =>
      rw [List.mem_cons, not_or] at hnewline hquote
      have hprocess : state.process c =
          if c = ',' then (.saveField, .startField) else (.addChar, .inField) := by
        rcases hstate with rfl | rfl
        · rw [CsvState.process, CsvState.processStart, if_neg (Ne.symm hnewline.1),
            if_neg (Ne.symm hquote.1)]
        · rw [CsvState.process, if_neg (Ne.symm hnewline.1)]
      rw [List.cons_append, csvRecordsFrom, hprocess, List.splitOn_cons_eq_if_modifyHead]
      by_cases hcomma : c = ','
      · have hrest := ih hnewline.2 hquote.2 (Or.inl rfl) (fields ++ [field]) []
        simp only [if_pos hcomma, beq_iff_eq, List.modifyHead_cons, List.append_nil]
        rw [hrest, modifyHead_nil_append, List.append_assoc, List.singleton_append]
      · have hrest := ih hnewline.2 hquote.2 (Or.inr rfl) fields (field ++ [c])
        simp only [if_neg hcomma, beq_iff_eq]
        rw [hrest, List.modifyHead_modifyHead]
        simp only [Function.comp_def, List.append_assoc, List.singleton_append]

private theorem csvRecords_line {line ending : List Char} {records : List (List (List Char))}
    (hnewline : '\n' ∉ line) (hquote : '"' ∉ line) (hne : line ≠ [])
    (hends : EndsLine ending records) :
    csvRecords (line ++ ending) = csvFields line :: records := by
  have hstart : csvRecords (line ++ ending) =
      csvRecordsFrom .startField [] [] (line ++ ending) := by
    cases line with
    | nil => exact absurd rfl hne
    | cons c line =>
        have hc : c ≠ '\n' := fun h => hnewline (h ▸ List.mem_cons_self)
        have hprocess : CsvState.startRecord.process c = CsvState.startField.process c := by
          rw [CsvState.process, if_neg hc, CsvState.process]
        rw [csvRecords, List.cons_append, csvRecordsFrom, csvRecordsFrom, hprocess]
  rw [hstart, csvRecordsFrom_line hnewline hquote hends (Or.inl rfl), modifyHead_nil_append,
    csvFields, if_neg hne, List.nil_append]

theorem csvRecords_eq_csvRows {text : List Char} (hquote : '"' ∉ text) :
    csvRecords text = csvRows text := by
  induction hlength : text.length using Nat.strong_induction_on generalizing text with
  | _ length ih =>
      by_cases hnewline : '\n' ∈ text
      · obtain ⟨line, rest, rfl, hline⟩ := List.eq_append_cons_of_mem hnewline
        rw [List.mem_append, List.mem_cons, not_or, not_or] at hquote
        have hshort : rest.length < length := by
          rw [← hlength, List.length_append, List.length_cons]
          omega
        rw [csvRows_cons hline, ← ih _ hshort hquote.2.2 rfl]
        by_cases hempty : line = []
        · subst hempty
          rfl
        · exact csvRecords_line hline hquote.1 hempty (Or.inr ⟨rest, rfl, rfl⟩)
      · by_cases hempty : text = []
        · subst hempty
          rfl
        · have hread := csvRecords_line hnewline hquote hempty (Or.inl ⟨rfl, rfl⟩)
          rw [List.append_nil] at hread
          rw [hread, csvRows_unterminated hnewline hempty]

end UserPaging.Foundation
