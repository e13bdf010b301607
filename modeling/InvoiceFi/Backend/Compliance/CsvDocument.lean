import InvoiceFi.Backend.Compliance.Exports
import InvoiceFi.Lib.Csv

/-!
# CSV documents (`compliance/csv.ts`)

`toCsv` for any columns and any rows, and what a reader of RFC 4180 makes of its text
(`toCsv_unambiguous`): the names of the columns, and the cells of each row as they are, whatever
characters they have. The documents of the exports are such texts (`parse_exported`).

A row is looked up by the names of the columns. Numbers are any that have a text.
-/

namespace InvoiceFi

namespace Backend

namespace Compliance

namespace CsvDocument

/-- A value of a row. -/
inductive Value (ν : Type) where
  | null
  | undefined
  | num (n : ν)
  | str (s : String)

section
variable {ν : Type} (numberText : ν → String)

/-- `escapeField`. -/
def escapeField : Value ν → String
  | .null | .undefined => ""
  | .num n => quoteField (numberText n)
  | .str s => quoteField s

/-- `toCsv`. -/
def toCsv (fields : List String) (rows : List (String → Value ν)) : String :=
  let header := ",".intercalate (fields.map fun f => escapeField numberText (.str f))
  let body := rows.map fun row =>
    ",".intercalate (fields.map fun field => escapeField numberText (row field))
  "\r\n".intercalate (header :: body)

/-- The form of a value as a text, which is empty for `null`. -/
def text : Value ν → String
  | .null | .undefined => ""
  | .num n => numberText n
  | .str s => s

theorem escapeField_eq (value : Value ν) :
    escapeField numberText value = quoteField (text numberText value) := by
  cases value <;> rfl

end

theorem toList_quoteField (text : String) : (quoteField text).toList = Csv.quote text.toList := by
  unfold quoteField Csv.quote
  change (if text.toList.any Csv.isSpecial then _ else _ : String).toList = _
  split
  · rw [String.toList_ofList]
    rfl
  · rfl

/-- The line of some cells. -/
def line (cells : List String) : String := ",".intercalate (cells.map quoteField)

theorem toList_line (cells : List String) :
    (line cells).toList = Csv.renderRecord (cells.map String.toList) := by
  rw [line, String.toList_intercalate, List.map_map, Csv.renderRecord, List.map_map]
  exact congrArg _ (List.map_congr_left fun cell _ => toList_quoteField cell)

/-- Lines of two cells or more are read as those cells. -/
theorem parse_lines {header : List String} {rows : List (List String)}
    (hheader : 2 ≤ header.length) (hrows : ∀ row ∈ rows, 2 ≤ row.length) :
    Csv.parse ("\r\n".intercalate (line header :: rows.map line)).toList =
      some (header.map String.toList :: rows.map fun row => row.map String.toList) := by
  have hrender : ("\r\n".intercalate (line header :: rows.map line)).toList =
      Csv.render (header.map String.toList :: rows.map fun row => row.map String.toList) := by
    rw [String.toList_intercalate, List.map_cons, toList_line, List.map_map, Csv.render,
      List.map_cons, List.map_map]
    exact congrArg (fun lines => ['\r', '\n'].intercalate (_ :: lines))
      (List.map_congr_left fun row _ => toList_line row)
  rw [hrender]
  refine Csv.parse_render (fun hnil => ?_) fun record hrecord => ?_
  · rw [List.map_eq_nil_iff.1 hnil] at hheader
    cases hheader
  · obtain ⟨row, hrow, rfl⟩ := List.mem_map.1 hrecord
    have hlength := hrows row hrow
    rw [← List.length_map String.toList] at hlength
    refine ⟨fun hnil => ?_, fun hsingle => ?_⟩
    · rw [hnil] at hlength
      cases hlength
    · rw [hsingle] at hlength
      exact absurd hlength (by decide)

/-- **A CSV document is unambiguous.** It is read as the names of its columns and, for each row, the
texts of the values in these columns. -/
theorem toCsv_unambiguous {ν : Type} (numberText : ν → String) {fields : List String}
    (h : 2 ≤ fields.length) (rows : List (String → Value ν)) :
    Csv.parse (toCsv numberText fields rows).toList = some (fields.map String.toList ::
      rows.map fun row => fields.map fun field => (text numberText (row field)).toList) := by
  have hlines : toCsv numberText fields rows = "\r\n".intercalate (line fields ::
      (rows.map fun row => fields.map fun field => text numberText (row field)).map line) := by
    simp only [toCsv, line, List.map_map, escapeField_eq, Function.comp_def, text]
  rw [hlines, parse_lines h]
  · simp only [List.map_map, Function.comp_def]
  · intro cells hcells
    obtain ⟨row, -, rfl⟩ := List.mem_map.1 hcells
    rwa [List.length_map]

theorem toCsv_two_columns :
    Csv.parse (toCsv id ["name", "note"] [fun field => if field = "name" then .str "a,b" else .null]
      ).toList = some [["name".toList, "note".toList], ["a,b".toList, []]] :=
  toCsv_unambiguous id (by decide) _

/-- The text of a value of an exported row. -/
def jsonText : Json → String
  | .null => ""
  | .str text => text
  | value => value.stringify

/-- The documents of the exports are unambiguous as well. -/
theorem parse_exported {ρ : Type} {fields : Fields ρ} (h : 2 ≤ fields.length) (rows : List ρ) :
    Csv.parse (Compliance.toCsv fields rows).toList =
      some ((fields.map fun field => field.1.toList) ::
        rows.map fun row => fields.map fun field => (jsonText (field.2 row)).toList) := by
  have hescape : ∀ value : Json, Compliance.escapeField value = quoteField (jsonText value) := by
    intro value
    cases value <;> rfl
  have hlines : Compliance.toCsv fields rows = "\r\n".intercalate (line (fields.map Prod.fst) ::
      (rows.map fun row => fields.map fun field => jsonText (field.2 row)).map line) := by
    simp only [Compliance.toCsv, line, List.map_map, hescape, Function.comp_def]
  rw [hlines, parse_lines (by rwa [List.length_map])]
  · simp only [List.map_map, Function.comp_def]
  · intro cells hcells
    obtain ⟨row, -, rfl⟩ := List.mem_map.1 hcells
    rwa [List.length_map]

end CsvDocument

end Compliance

end Backend

end InvoiceFi
