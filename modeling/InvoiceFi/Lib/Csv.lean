import Mathlib.Data.List.Basic

/-!
# Comma-separated values

`Csv.render` writes records as RFC 4180 says: fields separated by commas, records by line breaks,
and a field that has a comma, a quote or a line break in quotes. `Csv.parse` reads such texts, where
the last record may be followed by a line break. Any character that is not special may stand outside
quotes.

The rule a development uses by name: `Csv.parse_render` (records are read as they were written,
where none is a single empty field).
-/

namespace InvoiceFi

namespace Csv

/-- A field and a record of fields. -/
abbrev Field := List Char

abbrev Record := List Field

/-- A character that may stand in quotes only. -/
def isSpecial (c : Char) : Bool := c ∈ [',', '\x22', '\r', '\n']

/-- A character in quotes: a quote is doubled. -/
def double (c : Char) : List Char := if c = '\x22' then [c, c] else [c]

/-- A field as it is written. -/
def quote (field : Field) : List Char :=
  if field.any isSpecial then '\x22' :: (field.flatMap double ++ ['\x22']) else field

/-- A record as it is written. -/
def renderRecord (record : Record) : List Char := [','].intercalate (record.map quote)

/-- Records as they are written. -/
def render (records : List Record) : List Char :=
  ['\r', '\n'].intercalate (records.map renderRecord)

/-! ## Reading -/

/-- Where a reader is: before a field, in one without quotes, in quotes or after them, after the
first character of a line break, or after a line break. -/
inductive Place where
  | start
  | plain
  | quoted
  | closed
  | break
  | next

/-- What a reader finds: the rest of a field, the fields after it, and the records after them. -/
abbrev Found := Field × Record × List Record

/-- A character of the field. -/
def push (c : Char) (found : Found) : Found := (c :: found.1, found.2)

/-- The end of a field that another one follows. -/
def endField (found : Found) : Found := ([], found.1 :: found.2.1, found.2.2)

/-- The end of a record that another one follows. -/
def endRecord (found : Found) : Found := ([], [], (found.1 :: found.2.1) :: found.2.2)

/-- What a character adds to what follows it, and where the reader is after it. -/
abbrev Move := (Found → Found) × Place

/-- A character outside quotes. -/
def outside (c : Char) : Option Move :=
  if c = ',' then some (endField, .start)
  else if c = '\r' then some (id, .break)
  else if isSpecial c then none
  else some (push c, .plain)

/-- The first character of a field. -/
def first (c : Char) : Option Move := if c = '\x22' then some (id, .quoted) else outside c

/-- The next character. -/
def move : Place → Char → Option Move
  | .start, c => first c
  | .plain, c => outside c
  | .quoted, c => if c = '\x22' then some (id, .closed) else some (push c, .quoted)
  | .closed, c =>
    if c = '\x22' then some (push c, .quoted) else if isSpecial c then outside c else none
  | .break, c => if c = '\n' then some (id, .next) else none
  | .next, c => (first c).map fun m => (endRecord ∘ m.1, m.2)

/-- The end of the text. -/
def finish : Place → Option Found
  | .quoted | .break => none
  | _ => some ([], [], [])

/-- What the rest of a text is. -/
def parseFrom : Place → List Char → Option Found
  | place, [] => finish place
  | place, c :: rest =>
    match move place c with
    | some m => (parseFrom m.2 rest).map m.1
    | none => none

/-- The records of a text. -/
def parse (text : List Char) : Option (List Record) :=
  (parseFrom .start text).map fun p => (p.1 :: p.2.1) :: p.2.2

example : parse "a,\x22b\x22\x22,\r\n\x22\r\n,c\r\n".toList =
    some [[['a'], "b\x22,\r\n".toList], [[], ['c']]] := by decide

/-! ## Records are read as they were written -/

section
variable {place place' : Place} {c : Char}

/-- A character that adds something to what follows it. -/
theorem parseFrom_cons {f : Found → Found} (h : move place c = some (f, place'))
    (rest : List Char) : parseFrom place (c :: rest) = (parseFrom place' rest).map f := by
  rw [parseFrom, h]

/-- A character that adds nothing. -/
theorem parseFrom_skip (h : move place c = some (id, place')) (rest : List Char) :
    parseFrom place (c :: rest) = parseFrom place' rest := by
  rw [parseFrom_cons h, Option.map_id_fun, id]

end

/-- Characters of the field. -/
def pushAll (cs : List Char) (found : Found) : Found := (cs ++ found.1, found.2)

theorem map_pushAll_cons (c : Char) (cs : List Char) (found : Option Found) :
    (found.map (pushAll cs)).map (push c) = found.map (pushAll (c :: cs)) := by
  rw [Option.map_map]
  rfl

theorem map_pushAll_nil (found : Option Found) : found.map (pushAll []) = found := by
  cases found <;> rfl

/-- A field in quotes is read up to its closing quote. -/
theorem parseFrom_double (field : Field) (rest : List Char) :
    parseFrom .quoted (field.flatMap double ++ '\x22' :: rest) =
      (parseFrom .closed rest).map (pushAll field) := by
  have hclose : move .quoted '\x22' = some (id, .closed) := rfl
  induction field with
  | nil => rw [List.flatMap_nil, List.nil_append, parseFrom_skip hclose, map_pushAll_nil]
  | cons c field ih =>
    rw [List.flatMap_cons, List.append_assoc, double, ← map_pushAll_cons, ← ih]
    split
    · next hc =>
      -- a doubled quote closes the field and opens it again
      subst hc
      have hagain : move .closed '\x22' = some (push '\x22', .quoted) := rfl
      rw [List.cons_append, List.cons_append, List.nil_append, parseFrom_skip hclose,
        parseFrom_cons hagain]
    · next hc =>
      have hinside : move .quoted c = some (push c, .quoted) := if_neg hc
      rw [List.cons_append, List.nil_append, parseFrom_cons hinside]

theorem isSpecial_eq_false {c : Char} (h : isSpecial c = false) :
    c ≠ '\x22' ∧ c ≠ ',' ∧ c ≠ '\r' := by
  simp only [isSpecial, decide_eq_false_iff_not, List.mem_cons, List.not_mem_nil, or_false,
    not_or] at h
  exact ⟨h.2.1, h.1, h.2.2.1⟩

/-- A character that is not special belongs to the field. -/
theorem outside_of_not_special {c : Char} (hc : isSpecial c = false) :
    outside c = some (push c, .plain) := by
  obtain ⟨-, hcomma, hcr⟩ := isSpecial_eq_false hc
  rw [outside, if_neg hcomma, if_neg hcr, hc]
  rfl

theorem first_of_not_special {c : Char} (hc : isSpecial c = false) :
    first c = some (push c, .plain) := by
  rw [first, if_neg (isSpecial_eq_false hc).1, outside_of_not_special hc]

theorem parseFrom_unquoted {field : Field} (hfield : ∀ c ∈ field, isSpecial c = false)
    (rest : List Char) :
    parseFrom .plain (field ++ rest) = (parseFrom .plain rest).map (pushAll field) := by
  induction field with
  | nil => rw [List.nil_append, map_pushAll_nil]
  | cons c field ih =>
    have hplain : move .plain c = some (push c, .plain) :=
      outside_of_not_special (hfield c (.head _))
    rw [List.cons_append, parseFrom_cons hplain, ih fun d hd => hfield d (.tail _ hd),
      map_pushAll_cons]

/-- The field ends here. -/
inductive Ends : List Char → Prop
  | text : Ends []
  | field (rest : List Char) : Ends (',' :: rest)
  | record (rest : List Char) : Ends ('\r' :: rest)

/-- Where the field ends, it does not matter how it was written. -/
theorem parseFrom_ends {rest : List Char} (h : Ends rest) :
    parseFrom .start rest = parseFrom .plain rest ∧
      parseFrom .closed rest = parseFrom .plain rest := by
  cases h with
  | text => exact ⟨rfl, rfl⟩
  | field rest => exact ⟨rfl, rfl⟩
  | record rest => exact ⟨rfl, rfl⟩

/-- A field is read as it was written. -/
theorem parseFrom_quote (field : Field) {rest : List Char} (hrest : Ends rest) :
    parseFrom .start (quote field ++ rest) = (parseFrom .plain rest).map (pushAll field) := by
  have hopen : move .start '\x22' = some (id, .quoted) := rfl
  unfold quote
  split
  · rw [List.cons_append, List.append_assoc, List.cons_append, List.nil_append,
      parseFrom_skip hopen, parseFrom_double, (parseFrom_ends hrest).2]
  · next hany =>
    have hfield : ∀ c ∈ field, isSpecial c = false := by
      simpa using hany
    cases field with
    | nil => rw [List.nil_append, map_pushAll_nil, (parseFrom_ends hrest).1]
    | cons c field =>
      have hplain : move .start c = some (push c, .plain) :=
        first_of_not_special (hfield c (.head _))
      rw [List.cons_append, parseFrom_cons hplain,
        parseFrom_unquoted fun d hd => hfield d (.tail _ hd), map_pushAll_cons]

/-- Fields that follow another one. -/
def moreFields (fields : Record) : List Char := fields.flatMap fun field => ',' :: quote field

theorem moreFields_cons (field : Field) (fields : Record) (rest : List Char) :
    moreFields (field :: fields) ++ rest = ',' :: (quote field ++ (moreFields fields ++ rest)) := by
  rw [moreFields, List.flatMap_cons, List.append_assoc]
  rfl

/-- The parts of a joined text after the first one. -/
theorem intercalate_cons {α : Type} (sep first : List α) (parts : List (List α)) :
    sep.intercalate (first :: parts) = first ++ parts.flatMap fun part => sep ++ part := by
  induction parts generalizing first with
  | nil => rw [List.intercalate_singleton, List.flatMap_nil, List.append_nil]
  | cons part parts ih =>
    rw [List.intercalate_cons_cons, ih, List.flatMap_cons, List.append_assoc, List.append_assoc]

theorem renderRecord_cons (field : Field) (fields : Record) :
    renderRecord (field :: fields) = quote field ++ moreFields fields := by
  rw [renderRecord, List.map_cons, intercalate_cons, List.flatMap_map]
  rfl

/-- What follows a record: the records that are read there. -/
def Follows (rest : List Char) (records : List Record) : Prop :=
  Ends rest ∧ parseFrom .plain rest = some ([], [], records)

theorem ends_moreFields (fields : Record) {rest : List Char} (h : Ends rest) :
    Ends (moreFields fields ++ rest) := by
  cases fields with
  | nil => exact h
  | cons field fields => exact .field _

theorem parseFrom_moreFields (fields : Record) {rest : List Char} {records : List Record}
    (h : Follows rest records) :
    parseFrom .plain (moreFields fields ++ rest) = some ([], fields, records) := by
  have hcomma : move .plain ',' = some (endField, .start) := rfl
  induction fields with
  | nil => exact h.2
  | cons field fields ih =>
    rw [moreFields_cons, parseFrom_cons hcomma, parseFrom_quote field (ends_moreFields fields h.1),
      ih, Option.map_some, Option.map_some, pushAll, endField, List.append_nil]

/-- A record is read as it was written. -/
theorem parseFrom_record (field : Field) (fields : Record) {rest : List Char}
    {records : List Record} (h : Follows rest records) :
    parseFrom .start (renderRecord (field :: fields) ++ rest) = some (field, fields, records) := by
  rw [renderRecord_cons, List.append_assoc, parseFrom_quote field (ends_moreFields fields h.1),
    parseFrom_moreFields fields h, Option.map_some, pushAll, List.append_nil]

/-- A record that is written as some text. -/
def Written (record : Record) : Prop := record ≠ [] ∧ record ≠ [[]]

theorem renderRecord_ne_nil {record : Record} (h : Written record) : renderRecord record ≠ [] := by
  obtain ⟨hne, hsingle⟩ := h
  cases record with
  | nil => exact absurd rfl hne
  | cons field fields =>
    rw [renderRecord_cons]
    intro hnil
    obtain ⟨hfield, hfields⟩ := List.append_eq_nil_iff.1 hnil
    cases fields with
    | cons next fields => cases hfields
    | nil =>
      cases field with
      | nil => exact hsingle rfl
      | cons c field =>
        unfold quote at hfield
        split at hfield <;> cases hfield

/-- Records that follow another one. -/
def moreRecords (records : List Record) : List Char :=
  records.flatMap fun record => '\r' :: '\n' :: renderRecord record

theorem render_cons (record : Record) (records : List Record) :
    render (record :: records) = renderRecord record ++ moreRecords records := by
  rw [render, List.map_cons, intercalate_cons, List.flatMap_map]
  rfl

/-- After a line break, a text that goes on is another record. -/
theorem parseFrom_next {text : List Char} (h : text ≠ []) :
    parseFrom .next text = (parseFrom .start text).map endRecord := by
  cases text with
  | nil => exact absurd rfl h
  | cons c text =>
    rw [parseFrom, parseFrom]
    change (match (first c).map fun m => (endRecord ∘ m.1, m.2) with
      | some m => (parseFrom m.2 text).map m.1
      | none => none) = Option.map endRecord (match first c with
      | some m => (parseFrom m.2 text).map m.1
      | none => none)
    cases first c with
    | none => rfl
    | some m => exact (Option.map_map endRecord m.1 (parseFrom m.2 text)).symm

theorem follows_moreRecords {records : List Record} (h : ∀ record ∈ records, Written record) :
    Follows (moreRecords records) records := by
  have hbreak : move .plain '\r' = some (id, .break) := rfl
  have hfeed : move .break '\n' = some (id, .next) := rfl
  induction records with
  | nil => exact ⟨.text, rfl⟩
  | cons record records ih =>
    have hrecord := h record (.head _)
    have hmore := ih fun other hother => h other (.tail _ hother)
    have htext : moreRecords (record :: records) =
        '\r' :: '\n' :: (renderRecord record ++ moreRecords records) := List.flatMap_cons
    rw [htext]
    refine ⟨.record _, ?_⟩
    have hne : renderRecord record ++ moreRecords records ≠ [] := fun hnil =>
      renderRecord_ne_nil hrecord (List.append_eq_nil_iff.1 hnil).1
    rw [parseFrom_skip hbreak, parseFrom_skip hfeed, parseFrom_next hne]
    cases record with
    | nil => exact absurd rfl hrecord.1
    | cons field fields =>
      rw [parseFrom_record field fields hmore, Option.map_some, endRecord]

/-- **Records are read as they were written**, where no record after the first is a single empty
field. -/
theorem parse_render {record : Record} {records : List Record} (hne : record ≠ [])
    (h : ∀ record ∈ records, Written record) :
    parse (render (record :: records)) = some (record :: records) := by
  cases record with
  | nil => exact absurd rfl hne
  | cons field fields =>
    rw [parse, render_cons, parseFrom_record field fields (follows_moreRecords h), Option.map_some]

end Csv

end InvoiceFi
