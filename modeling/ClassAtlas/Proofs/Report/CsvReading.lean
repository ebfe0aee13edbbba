import ClassAtlas.Proofs.Text.Cut
import ClassAtlas.Report.Format
import Mathlib.Data.List.Forall2

/-!
Reading comma-separated fields. A field is written bare, or in quotes with its own quotes doubled; a
row ends in a line feed that a carriage return may precede, and the last row may lack its end. The
reader finds the rows of every text that is written so, and the report is such a text.
-/

namespace ClassAtlas.Report

namespace Csv

/-- Where a reader stands. -/
inductive Place where
  /-- Before the first character of a row. -/
  | row
  /-- Before the first character of a further field. -/
  | field
  | bare
  | quoted
  /-- Behind a quote, which closes the field or is the first of two. -/
  | closed
  /-- Behind a carriage return, where a line feed has to follow. -/
  | returned
  deriving Repr, DecidableEq

/-- The rows that are complete, the fields of the row begun and the text of the field begun. -/
structure Reader where
  rows : List (List String) := []
  fields : List String := []
  text : List Char := []
  place : Place := .row
  deriving Repr, DecidableEq

namespace Reader

def endField (r : Reader) : Reader :=
  { r with fields := r.fields ++ [String.ofList r.text], text := [], place := .field }

def endRow (r : Reader) : Reader :=
  { rows := r.rows ++ [r.fields ++ [String.ofList r.text]] }

def add (r : Reader) (c : Char) (place : Place) : Reader :=
  { r with text := r.text ++ [c], place }

/-- What ends a field. -/
def delimit? (r : Reader) (c : Char) : Option Reader :=
  if c = ',' then some r.endField
  else if c = '\n' then some r.endRow
  else if c = '\r' then some { r with place := .returned }
  else none

/-- A quote has no place in a bare field. -/
def bare? (r : Reader) (c : Char) : Option Reader :=
  if c = '"' then none else (r.delimit? c).orElse fun _ => some (r.add c .bare)

def step (r : Reader) (c : Char) : Option Reader :=
  match r.place with
  | .row => if c = '"' then some { r with place := .quoted } else r.bare? c
  | .field => if c = '"' then some { r with place := .quoted } else r.bare? c
  | .bare => r.bare? c
  | .quoted => some (if c = '"' then { r with place := .closed } else r.add c .quoted)
  | .closed => if c = '"' then some (r.add c .quoted) else r.delimit? c
  | .returned => if c = '\n' then some r.endRow else none

/-- At the end of the text a row that was begun is complete. -/
def finish? (r : Reader) : Option (List (List String)) :=
  match r.place with
  | .row => some r.rows
  | .quoted => none
  | .returned => none
  | _ => some r.endRow.rows

def run (r : Reader) (text : List Char) : Option Reader :=
  text.foldlM step r

end Reader

def read (text : String) : Option (List (List String)) :=
  (Reader.run {} text.toList).bind Reader.finish?

/-- The characters that a bare field cannot hold. -/
def special : List Char :=
  [',', '"', '\r', '\n']

/-- The ways to write a field. -/
inductive FieldText (value : String) : List Char → Prop
  | bare : (∀ c ∈ value.toList, c ∉ special) → FieldText value value.toList
  | quoted : FieldText value
      ('"' :: (value.toList.flatMap fun c => if c = '"' then ['"', '"'] else [c]) ++ ['"'])

inductive RowText : List String → List Char → Prop
  | last {value : String} {text : List Char} : FieldText value text → RowText [value] text
  | more {value : String} {values : List String} {text rest : List Char} :
      FieldText value text → RowText values rest → RowText (value :: values) (text ++ ',' :: rest)

inductive Document : List (List String) → List Char → Prop
  | empty : Document [] []
  | unended {values : List String} {text : List Char} : RowText values text → text ≠ [] →
      Document [values] text
  | row {values : List String} {rows : List (List String)} {text rest : List Char}
      (lineEnd : List Char) : lineEnd = ['\n'] ∨ lineEnd = ['\r', '\n'] → RowText values text →
      Document rows rest → Document (values :: rows) (text ++ (lineEnd ++ rest))

namespace Reader

/-- The reader stands behind a whole field. -/
def Outside (r : Reader) : Prop :=
  r.place ≠ .quoted ∧ r.place ≠ .returned

theorem run_append (r : Reader) (front back : List Char) :
    r.run (front ++ back) = (r.run front).bind (run · back) :=
  List.foldlM_append

theorem run_cons (r : Reader) (c : Char) (text : List Char) :
    r.run (c :: text) = (r.step c).bind (run · text) :=
  List.foldlM_cons

theorem step_of_outside {r after : Reader} (outside : r.Outside) {c : Char} (other : c ≠ '"')
    (ends : r.delimit? c = some after) : r.step c = some after := by
  have bare : r.bare? c = some after := by
    rw [bare?, if_neg other, ends]
    rfl
  unfold step
  split
  case h_1 => rw [if_neg other, bare]
  case h_2 => rw [if_neg other, bare]
  case h_3 => exact bare
  case h_4 here => exact absurd here outside.1
  case h_5 => rw [if_neg other, ends]
  case h_6 here => exact absurd here outside.2

theorem step_comma {r : Reader} (outside : r.Outside) : r.step ',' = some r.endField :=
  step_of_outside outside (by decide) rfl

theorem run_lineEnd {r : Reader} (outside : r.Outside) {lineEnd : List Char}
    (ends : lineEnd = ['\n'] ∨ lineEnd = ['\r', '\n']) : r.run lineEnd = some r.endRow := by
  rcases ends with rfl | rfl
  · rw [run_cons, step_of_outside outside (by decide) rfl]
    rfl
  · rw [run_cons, step_of_outside outside (by decide) rfl]
    rfl

theorem step_plain {r : Reader} (unquoted : r.place = .row ∨ r.place = .field ∨ r.place = .bare)
    {c : Char} (plain : c ∉ special) : r.step c = some (r.add c .bare) := by
  simp only [special, List.mem_cons, List.not_mem_nil, or_false, not_or] at plain
  obtain ⟨noComma, noQuote, noReturn, noFeed⟩ := plain
  have bare : r.bare? c = some (r.add c .bare) := by
    simp [bare?, delimit?, noComma, noQuote, noReturn, noFeed]
  rcases unquoted with here | here | here
  · simp [step, here, noQuote, bare]
  · simp [step, here, noQuote, bare]
  · simp [step, here, bare]

/-- Bare text goes on as it was begun. -/
theorem run_bare {r : Reader} (here : r.place = .bare) {text : List Char}
    (plain : ∀ c ∈ text, c ∉ special) :
    r.run text = some { r with text := r.text ++ text } := by
  induction text generalizing r with
  | nil =>
      rw [List.append_nil]
      rfl
  | cons c text ih =>
      rw [List.forall_mem_cons] at plain
      rw [run_cons, step_plain (.inr (.inr here)) plain.1, Option.bind_some, ih rfl plain.2]
      simp [add, here]

/-- Inside quotes two quotes are one, and everything else is itself. -/
theorem run_quoted {r : Reader} (here : r.place = .quoted) (text : List Char) :
    r.run (text.flatMap fun c => if c = '"' then ['"', '"'] else [c]) =
      some { r with text := r.text ++ text } := by
  induction text generalizing r with
  | nil =>
      rw [List.append_nil]
      rfl
  | cons c text ih =>
      have char : r.run (if c = '"' then ['"', '"'] else [c]) = some (r.add c .quoted) := by
        by_cases quote : c = '"'
        · simp [run, step, here, quote, add]
        · simp [run, step, here, quote]
      rw [List.flatMap_cons, run_append, char, Option.bind_some, ih rfl]
      simp [add, here]

/-- A field is read whole, however it is written. -/
theorem run_field {r : Reader} (start : r.place = .row ∨ r.place = .field) (fresh : r.text = [])
    {value : String} {text : List Char} (written : FieldText value text) :
    ∃ place, r.run text = some { r with text := value.toList, place } ∧
      place ≠ .quoted ∧ place ≠ .returned ∧ (place = .row → r.place = .row ∧ text = []) := by
  cases written with
  | bare plain =>
      cases split : value.toList with
      | nil =>
          refine ⟨r.place, ?_, ?_, ?_, fun here => ⟨here, rfl⟩⟩
          · change some r = _
            rw [← fresh]
          · rcases start with here | here <;> simp [here]
          · rcases start with here | here <;> simp [here]
      | cons c rest =>
          rw [split, List.forall_mem_cons] at plain
          have first : r.step c = some (r.add c .bare) := by
            apply step_plain _ plain.1
            rcases start with here | here <;> simp [here]
          refine ⟨.bare, ?_, by decide, by decide, nofun⟩
          rw [run_cons, first, Option.bind_some, run_bare rfl plain.2]
          simp [add, fresh]
  | quoted =>
      have opened : r.step '"' = some { r with place := .quoted } := by
        rcases start with here | here <;> simp [step, here]
      refine ⟨.closed, ?_, by decide, by decide, nofun⟩
      rw [List.cons_append, run_cons, opened, Option.bind_some, run_append, run_quoted rfl]
      simp [run, step, fresh]

/-- The fields of a row join those that the reader has of it already. -/
theorem run_row {r : Reader} (start : r.place = .row ∨ r.place = .field) (fresh : r.text = [])
    {values : List String} {text : List Char} (written : RowText values text) :
    ∃ after, r.run text = some after ∧ after.Outside ∧
      after.endRow = { rows := r.rows ++ [r.fields ++ values] } ∧
      (after.place = .row → r.place = .row ∧ text = []) := by
  induction written generalizing r with
  | @last value text written =>
      obtain ⟨place, ran, notQuoted, notReturned, blank⟩ := run_field start fresh written
      refine ⟨_, ran, ⟨notQuoted, notReturned⟩, ?_, blank⟩
      simp [endRow]
  | @more value values text rest written _ ih =>
      obtain ⟨place, ran, notQuoted, notReturned, -⟩ := run_field start fresh written
      have comma := step_comma (r := { r with text := value.toList, place }) ⟨notQuoted, notReturned⟩
      obtain ⟨after, ranMore, outside, ended, blank⟩ :=
        @ih (endField { r with text := value.toList, place }) (.inr rfl) rfl
      refine ⟨after, ?_, outside, ?_, fun here => nomatch (blank here).1⟩
      · rw [run_append, ran, Option.bind_some, run_cons, comma, Option.bind_some, ranMore]
      · rw [ended]
        simp [endField]

theorem finish?_of_outside {r : Reader} (outside : r.Outside) (begun : r.place ≠ .row) :
    r.finish? = some r.endRow.rows := by
  unfold finish?
  split
  case h_1 here => exact absurd here begun
  case h_2 here => exact absurd here outside.1
  case h_3 here => exact absurd here outside.2
  case h_4 => rfl

theorem run_document {rows : List (List String)} {text : List Char} (document : Document rows text)
    (before : List (List String)) :
    ((run { rows := before } text).bind finish?) = some (before ++ rows) := by
  induction document generalizing before with
  | empty =>
      rw [List.append_nil]
      rfl
  | unended written nonempty =>
      obtain ⟨after, ran, outside, ended, blank⟩ :=
        run_row (r := { rows := before }) (.inl rfl) rfl written
      have begun : after.place ≠ .row := fun here => nonempty (blank here).2
      rw [ran, Option.bind_some, finish?_of_outside outside begun, ended]
      rfl
  | row lineEnd ends written _ ih =>
      obtain ⟨after, ran, outside, ended, -⟩ :=
        run_row (r := { rows := before }) (.inl rfl) rfl written
      rw [run_append, ran, Option.bind_some, run_append, run_lineEnd outside ends, Option.bind_some,
        ended, ih, List.append_assoc]
      rfl

end Reader

/-- The reader finds in a text what the text was written for. -/
theorem read_document {rows : List (List String)} {text : String}
    (document : Document rows text.toList) : read text = some rows :=
  Reader.run_document document []

theorem doubleQuotes_eq_flatMap (text : List Char) :
    doubleQuotes text = text.flatMap fun c => if c = '"' then ['"', '"'] else [c] := by
  induction text with
  | nil => rfl
  | cons c text ih =>
      rw [doubleQuotes, ih, List.flatMap_cons]
      by_cases quote : c = '"'
      · simp [quote]
      · simp [quote]

theorem needsQuotes_eq_false_iff {value : String} :
    needsQuotes value = false ↔ ∀ c ∈ value.toList, c ∉ special := by
  simp [needsQuotes, special]

theorem fieldText_field (value : String) : FieldText value (field value).toList := by
  unfold field
  cases quotes : needsQuotes value with
  | false => exact .bare (needsQuotes_eq_false_iff.mp quotes)
  | true =>
      rw [if_pos rfl, doubleQuotes_eq_flatMap]
      simp only [String.toList_append, String.toList_ofList]
      exact .quoted

theorem rowText_fields {values : List String} (nonempty : values ≠ []) :
    RowText values (Text.joinWith "," (values.map field)).toList := by
  induction values with
  | nil => exact absurd rfl nonempty
  | cons value values ih =>
      cases values with
      | nil => exact .last (fieldText_field value)
      | cons next others =>
          rw [List.map_cons, List.map_cons, Text.toList_joinWith_cons_cons]
          exact .more (fieldText_field value) (ih (List.cons_ne_nil next others))

theorem document_text {rows : List (List String)} (nonempty : ∀ values ∈ rows, values ≠ []) :
    Document rows (text rows).toList := by
  induction rows with
  | nil => exact .empty
  | cons values rows ih =>
      rw [List.forall_mem_cons] at nonempty
      have split : (text (values :: rows)).toList =
          (Text.joinWith "," (values.map field)).toList ++ (['\n'] ++ (text rows).toList) := by
        simp [text, row]
      rw [split]
      exact .row ['\n'] (.inl rfl) (rowText_fields nonempty.1) (ih nonempty.2)

end Csv

/-- The count and the text of a list of names. Cutting the text at its semicolons gives the names
again if there are any and none of them holds a semicolon. -/
structure ListFields (names : List String) (count text : String) : Prop where
  decimal : count = String.ofList (Nat.toDigits 10 names.length)
  joined : text = ";".intercalate names
  recovered : (∀ name ∈ names, ';' ∉ name.toList) → 0 < names.length →
    (Text.splitAll ';' text.toList).map String.ofList = names

/-- The seven fields of a record. -/
inductive RowOf (record : DependencyRecord) : List String → Prop
  | mk {internalCount externalCount internal external : String} :
      ListFields record.internal internalCount internal →
      ListFields record.external externalCount external →
      RowOf record [record.className, record.package,
        if record.isSynthetic then "resource" else "class", internalCount, externalCount, internal,
        external]

theorem listFields (names : List String) :
    ListFields names (toString names.length) (Text.joinWith ";" names) where
  decimal := rfl
  joined := Text.joinWith_eq_intercalate ";" names
  recovered := by
    intro free counted
    rw [Text.splitAll_joinWith rfl (List.ne_nil_of_length_pos counted) free, List.map_map]
    simp

theorem rowOf_csvFields (record : DependencyRecord) : RowOf record (csvFields record) :=
  .mk (listFields record.internal) (listFields record.external)

/-- The report is read back as its header and one row for each record, in the order of the records. -/
theorem csvText_reads_back (results : Results) :
    ∃ rows, Csv.read (csvText results) = some (csvHeader :: rows) ∧
      List.Forall₂ RowOf results.records rows := by
  refine ⟨results.records.map csvFields, ?_, ?_⟩
  · apply Csv.read_document
    apply Csv.document_text
    rw [List.forall_mem_cons, List.forall_mem_map]
    exact ⟨List.cons_ne_nil _ _, fun _ _ => List.cons_ne_nil _ _⟩
  · rw [List.forall₂_map_right_iff, List.forall₂_same]
    exact fun record _ => rowOf_csvFields record

/-- Commas, quotes and line breaks of a name end neither its field nor its row. -/
example : Csv.read (csvText ⟨".", [.ofClass "a,\"b\"\n" ["x\r", "y"] []], {}, {}, [], {}⟩) =
    some [csvHeader, ["a,\"b\"\n", "/", "class", "2", "0", "x\r;y", ""]] := by
  decide +kernel

end ClassAtlas.Report
