import Mathlib.Data.BitVec
import UserPaging.Foundation.Csv

/-!
# The collector of page fault timings

`collect-page-fault-timings` touches the pages of a fresh mapping one by one and
prints one line for each: the time of the whole fault and what the other timestamps
say, relative to the start of the fault.  What the hardware and the kernel answer is
left open; a page's timestamps and the texts of its tracepoint files are a `Sample`.

Every iteration prints the columns again, and a tracepoint that cannot be read ends
the iteration in the middle of its line.
-/

namespace UserPaging.Timings

open UserPaging.Foundation

/-- The kernel makes the file names from the identifiers in `ENUMERATE_FAST_TRACEPOINTS`. -/
structure Tracepoint where
  name : List Char
  identifier : ∀ c ∈ name, c.isAlphanum = true ∨ c = '_'

structure Sample where
  pageFault : BitVec 64
  finish : BitVec 64
  msgReceived : BitVec 64
  isrEntry : BitVec 64
  iret : BitVec 64
  /-- What is read from the file of a tracepoint; `none` when it cannot be opened or read. -/
  reads : List Char → Option (List Char)

/-- One call of `do_iteration`: whether the mapping can be set up, and what its pages give. -/
structure Iteration where
  ready : Bool
  samples : Nat → Sample

structure Settings where
  length : BitVec 64
  iterationCount : BitVec 64
  withUserfaultfd : Bool
  /-- The option of that name. -/
  noMsgReceivedOption : Bool
  /-- The files in the directory of the tracepoints, if there is one. -/
  fastTracepoints : Option (List Tracepoint)

def maxFastTracepoints : Nat := 32

def pageSize : Nat := 4096

namespace Settings

def noMsgReceived (s : Settings) : Bool := s.noMsgReceivedOption || !s.withUserfaultfd

def listFastTracepoints (s : Settings) : Bool :=
  match s.fastTracepoints with
  | none => true
  | some tracepoints => decide (tracepoints.length ≤ maxFastTracepoints)

def roundedLength (s : Settings) : BitVec 64 :=
  (s.length + BitVec.ofNat 64 (pageSize - 1)) &&& ~~~(BitVec.ofNat 64 (pageSize - 1))

def pages (s : Settings) : Nat := s.roundedLength.toNat / pageSize

end Settings

/-! ### Reading a tracepoint -/

def parseUint64 (buf : List Char) : Option (BitVec 64 × List Char) :=
  match buf.takeWhile Char.isDigit with
  | [] => none
  | c :: digits =>
      some ((c :: digits).foldl (fun out c => out * 10 + BitVec.ofNat 64 (c.toNat - 48)) 0,
        buf.dropWhile Char.isDigit)

def readFastTracepoint (read : Option (List Char)) : Option (BitVec 64) :=
  match read with
  | none => none
  | some contents => (parseUint64 (contents.take 21)).map Prod.fst

/-! ### Printing -/

def printColumns (s : Settings) : List Char :=
  ['e', 'n', 'd'] ++
    (if s.noMsgReceived then []
      else [',', 'm', 's', 'g', '_', 'r', 'e', 'c', 'e', 'i', 'v', 'e', 'd']) ++
    (match s.fastTracepoints with
      | none => []
      | some tracepoints =>
          [',', 'i', 's', 'r', '_', 'e', 'n', 't', 'r', 'y', ',', 'i', 'r', 'e', 't'] ++
            tracepoints.flatMap fun tracepoint => ',' :: tracepoint.name) ++ ['\n']

def decimal (value : BitVec 64) : List Char := Nat.toDigits 10 value.toNat

def elapsed (timestamp pageFault : BitVec 64) : List Char :=
  if pageFault < timestamp then decimal (timestamp - pageFault) else []

def printTracepoints (sample : Sample) : List Tracepoint → List Char × Bool
  | [] => ([], true)
  | tracepoint :: rest =>
      match readFastTracepoint (sample.reads tracepoint.name) with
      | none => ([], false)
      | some timestamp =>
          let (text, ok) := printTracepoints sample rest
          (',' :: (elapsed timestamp sample.pageFault ++ text), ok)

def printPageStart (s : Settings) (sample : Sample) : List Char :=
  decimal (sample.finish - sample.pageFault) ++
    (if s.noMsgReceived then [] else ',' :: elapsed sample.msgReceived sample.pageFault)

def printPage (s : Settings) (sample : Sample) : List Char × Bool :=
  match s.fastTracepoints with
  | none => (printPageStart s sample ++ ['\n'], true)
  | some tracepoints =>
      let start := printPageStart s sample ++
        (',' :: decimal (sample.isrEntry - sample.pageFault) ++
          ',' :: decimal (sample.iret - sample.pageFault))
      let (text, ok) := printTracepoints sample tracepoints
      if ok then (start ++ text ++ ['\n'], true) else (start ++ text, false)

def printPages (s : Settings) (samples : Nat → Sample) (page : Nat) : Nat → List Char
  | 0 => []
  | left + 1 =>
      let (text, ok) := printPage s (samples page)
      if ok then text ++ printPages s samples (page + 1) left else text

def doIteration (s : Settings) (iteration : Iteration) : List Char :=
  printColumns s ++ if iteration.ready then printPages s iteration.samples 0 s.pages else []

def doIterations (s : Settings) (iterations : Nat → Iteration) (i : Nat) : Nat → List Char
  | 0 => []
  | left + 1 => doIteration s (iterations i) ++ doIterations s iterations (i + 1) left

def main (s : Settings) (iterations : Nat → Iteration) : List Char :=
  if s.listFastTracepoints then doIterations s iterations 0 s.iterationCount.toNat else []

/-! ### The columns -/

def Settings.columns (s : Settings) : List (List Char) :=
  ['e', 'n', 'd'] ::
    ((if s.noMsgReceived then []
      else [['m', 's', 'g', '_', 'r', 'e', 'c', 'e', 'i', 'v', 'e', 'd']]) ++
      match s.fastTracepoints with
      | none => []
      | some tracepoints =>
          ['i', 's', 'r', '_', 'e', 'n', 't', 'r', 'y'] :: ['i', 'r', 'e', 't'] ::
            tracepoints.map Tracepoint.name)

private theorem printColumns_eq (s : Settings) :
    printColumns s = ['e', 'n', 'd'] ++ s.columns.tail.flatMap (',' :: ·) ++ ['\n'] := by
  unfold printColumns Settings.columns
  cases s.noMsgReceived <;> cases s.fastTracepoints <;> simp [List.flatMap_map]

private theorem Tracepoint.plain (tracepoint : Tracepoint) :
    ',' ∉ tracepoint.name ∧ '\n' ∉ tracepoint.name ∧ '"' ∉ tracepoint.name := by
  refine ⟨?_, ?_, ?_⟩ <;> intro hmem <;> have hchar := tracepoint.identifier _ hmem <;>
    revert hchar <;> decide

theorem Settings.columns_plain (s : Settings) :
    ∀ column ∈ s.columns, ',' ∉ column ∧ '\n' ∉ column ∧ '"' ∉ column := by
  intro column hcolumn
  unfold Settings.columns at hcolumn
  rw [List.mem_cons, List.mem_append] at hcolumn
  rcases hcolumn with rfl | hmsg | htracepoint
  · decide
  · cases hno : s.noMsgReceived <;> simp [hno] at hmsg
    subst hmsg
    decide
  · cases htps : s.fastTracepoints with
    | none => simp [htps] at htracepoint
    | some tracepoints =>
        simp only [htps, List.mem_cons, List.mem_map] at htracepoint
        rcases htracepoint with rfl | rfl | ⟨tracepoint, _, rfl⟩
        · decide
        · decide
        · exact tracepoint.plain

theorem csvRows_printColumns (s : Settings) (rest : List Char) :
    csvRows (printColumns s ++ rest) = s.columns :: csvRows rest := by
  have hcolumns : ['e', 'n', 'd'] :: s.columns.tail = s.columns := rfl
  have hplain := s.columns_plain
  have hline : '\n' ∉ ['e', 'n', 'd'] ++ s.columns.tail.flatMap (',' :: ·) := by
    simp only [List.mem_append, List.mem_flatMap, List.mem_cons, not_or, not_exists, not_and]
    refine ⟨by decide, fun column hcolumn => ⟨by decide, ?_⟩⟩
    exact (hplain column (List.mem_of_mem_tail hcolumn)).2.1
  rw [printColumns_eq, List.append_assoc, List.singleton_append, csvRows_cons hline,
    csvFields_cons (by decide), hcolumns]
  intro column hcolumn
  rw [hcolumns] at hcolumn
  exact (hplain column hcolumn).1

theorem quote_not_mem_printColumns (s : Settings) : '"' ∉ printColumns s := by
  rw [printColumns_eq]
  simp only [List.mem_append, List.mem_flatMap, List.mem_cons, not_or, not_exists, not_and]
  refine ⟨⟨by decide, fun column hcolumn => ⟨by decide, ?_⟩⟩, by decide⟩
  exact (s.columns_plain column (List.mem_of_mem_tail hcolumn)).2.2

end UserPaging.Timings
