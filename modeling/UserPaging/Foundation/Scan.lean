import Mathlib.Data.List.Basic

/-!
# Words of a line

`scanWord` is what `%s` does in `sscanf`: it skips white space and takes the
characters up to the next white space.  A `Word` can be written to a line and
scanned back from it.
-/

namespace UserPaging.Foundation

def isSpace (c : Char) : Bool := c.toNat == 32 || (9 ≤ c.toNat && c.toNat ≤ 13)

def scanWord (text : List Char) : List Char × List Char :=
  let rest := text.dropWhile isSpace
  (rest.takeWhile fun c => !isSpace c, rest.dropWhile fun c => !isSpace c)

structure Word where
  chars : List Char
  ne_nil : chars ≠ []
  solid : ∀ c ∈ chars, isSpace c = false

theorem solid_of_all {chars : List Char} (hall : chars.all (fun c => !isSpace c) = true) :
    ∀ c ∈ chars, isSpace c = false := by
  simpa using hall

def Breaks (text : List Char) : Prop := ∀ c ∈ text.head?, isSpace c = true

theorem scanWord_space (text : List Char) : scanWord (' ' :: text) = scanWord text := by
  have hspace : isSpace ' ' = true := by decide
  simp [scanWord, hspace]

theorem scanWord_append (word : Word) {rest : List Char} (hrest : Breaks rest) :
    scanWord (word.chars ++ rest) = (word.chars, rest) := by
  obtain ⟨chars, hne, hsolid⟩ := word
  have hskip : (chars ++ rest).dropWhile isSpace = chars ++ rest := by
    cases chars with
    | nil => exact absurd rfl hne
    | cons c chars =>
        have hc := hsolid c List.mem_cons_self
        simp [hc]
  have hall : ∀ c ∈ chars, (!isSpace c) = true := by
    intro c hc
    rw [hsolid c hc]
    rfl
  have htake : rest.takeWhile (fun c => !isSpace c) = [] := by
    cases rest with
    | nil => rfl
    | cons c rest =>
        have hc := hrest c rfl
        simp [hc]
  have hdrop : rest.dropWhile (fun c => !isSpace c) = rest := by
    cases rest with
    | nil => rfl
    | cons c rest =>
        have hc := hrest c rfl
        simp [hc]
  simp only [scanWord, hskip]
  rw [List.takeWhile_append_of_pos hall, List.dropWhile_append_of_pos hall, htake, hdrop,
    List.append_nil]

end UserPaging.Foundation
