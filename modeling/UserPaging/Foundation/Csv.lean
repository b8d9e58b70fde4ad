import Mathlib.Data.List.Basic

/-!
# Comma-separated text

A text is read line by line, and a line as the fields between its commas.  The end
of the last line may be missing; an empty line has no fields.  Quoting is not part
of this: the texts have no quotation marks.
-/

namespace UserPaging.Foundation

def csvLine (row : List (List Char)) : List Char := [','].intercalate row

def csvFields (line : List Char) : List (List Char) :=
  if line = [] then [] else line.splitOn ','

def csvLines (text : List Char) : List (List Char) :=
  if (text.splitOn '\n').getLast? = some [] then (text.splitOn '\n').dropLast
  else text.splitOn '\n'

def csvRows (text : List Char) : List (List (List Char)) :=
  (csvLines text).map csvFields

/-! ### Fields -/

theorem csvLine_cons (field : List Char) (rest : List (List Char)) :
    csvLine (field :: rest) = field ++ rest.flatMap (',' :: ·) := by
  induction rest generalizing field with
  | nil => simp [csvLine]
  | cons next rest ih =>
      have hnext := ih next
      unfold csvLine at hnext ⊢
      rw [List.intercalate_cons_cons, hnext]
      simp

theorem csvFields_cons {field : List Char} {rest : List (List Char)} (hfield : field ≠ [])
    (hcomma : ∀ f ∈ field :: rest, ',' ∉ f) :
    csvFields (field ++ rest.flatMap (',' :: ·)) = field :: rest := by
  have hline : csvLine (field :: rest) ≠ [] := by
    rw [csvLine_cons]
    simp [hfield]
  rw [← csvLine_cons, csvFields, if_neg hline]
  exact List.splitOn_intercalate ',' hcomma (List.cons_ne_nil _ _)

theorem mem_of_mem_intercalate {α : Type*} {separator : List α} {pieces : List (List α)} {c : α}
    (hc : c ∈ separator.intercalate pieces) :
    c ∈ separator ∨ ∃ piece ∈ pieces, c ∈ piece := by
  induction pieces with
  | nil => simp at hc
  | cons piece pieces ih =>
      cases pieces with
      | nil =>
          rw [List.intercalate_singleton] at hc
          exact Or.inr ⟨piece, List.mem_cons_self, hc⟩
      | cons next pieces =>
          rw [List.intercalate_cons_cons, List.mem_append, List.mem_append] at hc
          rcases hc with (hc | hc) | hc
          · exact Or.inr ⟨piece, List.mem_cons_self, hc⟩
          · exact Or.inl hc
          · rcases ih hc with hsep | ⟨other, hmem, hc⟩
            · exact Or.inl hsep
            · exact Or.inr ⟨other, List.mem_cons_of_mem _ hmem, hc⟩

private theorem mem_splitOn_of_mem {text : List Char} {separator c : Char} (hc : c ∈ text)
    (hne : c ≠ separator) : ∃ piece ∈ text.splitOn separator, c ∈ piece := by
  have htext : [separator].intercalate (text.splitOn separator) = text :=
    List.intercalate_splitOn separator
  rw [← htext] at hc
  rcases mem_of_mem_intercalate hc with hsep | hpiece
  · exact absurd (List.mem_singleton.1 hsep) hne
  · exact hpiece

/-! ### Lines -/

@[simp] theorem csvRows_nil : csvRows [] = [] := rfl

private theorem csvLines_cons {line : List Char} (hline : '\n' ∉ line) (rest : List Char) :
    csvLines (line ++ '\n' :: rest) = line :: csvLines rest := by
  have hsplit : (line ++ '\n' :: rest).splitOn '\n' = line :: rest.splitOn '\n' := by
    rw [List.splitOn_append_cons_self, List.splitOn_eq_singleton hline, List.singleton_append]
  obtain ⟨piece, pieces, hrest⟩ := List.exists_cons_of_ne_nil (List.splitOn_ne_nil '\n' rest)
  unfold csvLines
  rw [hsplit, hrest, List.getLast?_cons_cons, List.dropLast_cons_cons]
  split <;> rfl

theorem csvRows_cons {line : List Char} (hline : '\n' ∉ line) (rest : List Char) :
    csvRows (line ++ '\n' :: rest) = csvFields line :: csvRows rest := by
  unfold csvRows
  rw [csvLines_cons hline, List.map_cons]

theorem csvRows_unterminated {line : List Char} (hline : '\n' ∉ line) (hne : line ≠ []) :
    csvRows line = [csvFields line] := by
  have hlast : [line].getLast? ≠ some [] := by simpa using hne
  unfold csvRows csvLines
  rw [List.splitOn_eq_singleton hline, if_neg hlast, List.map_singleton]

theorem mem_csvRows_of_mem {text : List Char} {c : Char} (hc : c ∈ text) (hcomma : c ≠ ',')
    (hnewline : c ≠ '\n') : ∃ row ∈ csvRows text, ∃ field ∈ row, c ∈ field := by
  obtain ⟨line, hline, hcline⟩ := mem_splitOn_of_mem hc hnewline
  have hne : line ≠ [] := List.ne_nil_of_mem hcline
  have hmem : line ∈ csvLines text := by
    unfold csvLines
    split
    · rename_i hlast
      obtain ⟨before, hsplit⟩ := List.getLast?_eq_some_iff.1 hlast
      rw [hsplit, List.mem_append, List.mem_singleton] at hline
      rw [hsplit, List.dropLast_concat]
      exact hline.resolve_right hne
    · exact hline
  obtain ⟨field, hfield, hcfield⟩ := mem_splitOn_of_mem hcline hcomma
  refine ⟨csvFields line, List.mem_map_of_mem hmem, field, ?_, hcfield⟩
  rw [csvFields, if_neg hne]
  exact hfield

end UserPaging.Foundation
