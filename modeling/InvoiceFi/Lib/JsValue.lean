import InvoiceFi.Lib.Json
import Mathlib.Data.List.Nodup

/-!
# Parsed JSON values and what their text tells of them

`JsValue` is what `JSON.parse` yields. Its objects are lists of fields in the order of the
properties, and its numbers may be infinite, as those of a numeral that is out of range.
`JsValue.Same` is equality as JSON values: arrays in order, objects as maps.

`JSON.stringify` follows the order of the fields, and writes `null` for an infinite number. So the
texts of two values agree exactly if the values do as they stand, up to their infinite numbers
(`JsValue.stringify_eq_iff`), and the text stands for the value up to the order of its fields
except where fields are in another order, or numbers are infinite (`JsValue.stringify_same_iff`).
-/

namespace InvoiceFi

/-- A number: a finite one is given by the numeral it is written as. -/
inductive JsNumber where
  | finite (n : Numeral)
  | infinite (negative : Bool)

/-- A value. -/
inductive JsValue where
  | null
  | bool (b : Bool)
  | num (n : JsNumber)
  | str (s : String)
  | arr (items : List JsValue)
  | obj (fields : List (String × JsValue))

mutual

/-- The value that is written. -/
def JsValue.json : JsValue → Json
  | .null => .null
  | .bool b => .bool b
  | .num (.finite n) => .num n
  | .num (.infinite _) => .null
  | .str s => .str s
  | .arr items => .arr (jsonItems items)
  | .obj fields => .obj (jsonFields fields)

/-- The items of an array. -/
def jsonItems : List JsValue → List Json
  | [] => []
  | item :: rest => item.json :: jsonItems rest

/-- The fields of an object. -/
def jsonFields : List (String × JsValue) → List (String × Json)
  | [] => []
  | (name, value) :: rest => (name, value.json) :: jsonFields rest

end

/-- `JSON.stringify(value)`. -/
def JsValue.stringify (value : JsValue) : String := value.json.stringify

mutual

/-- The fields of every object have different names. -/
def JsValue.Unique : JsValue → Prop
  | .arr items => UniqueItems items
  | .obj fields => (fields.map Prod.fst).Nodup ∧ UniqueFields fields
  | _ => True

/-- In all items of an array. -/
def UniqueItems : List JsValue → Prop
  | [] => True
  | item :: rest => item.Unique ∧ UniqueItems rest

/-- In all fields of an object. -/
def UniqueFields : List (String × JsValue) → Prop
  | [] => True
  | (_, value) :: rest => value.Unique ∧ UniqueFields rest

end

mutual

/-- The two are equal as JSON values. -/
inductive JsValue.Same : JsValue → JsValue → Prop
  | null : JsValue.Same .null .null
  | bool (b : Bool) : JsValue.Same (.bool b) (.bool b)
  | num (n : JsNumber) : JsValue.Same (.num n) (.num n)
  | str (s : String) : JsValue.Same (.str s) (.str s)
  | arr {items items' : List JsValue} : SameItems items items' →
    JsValue.Same (.arr items) (.arr items')
  | obj {fields fields₁ fields' : List (String × JsValue)} : SameFields fields fields₁ →
    fields₁.Perm fields' → JsValue.Same (.obj fields) (.obj fields')

/-- The items are equal in their order. -/
inductive SameItems : List JsValue → List JsValue → Prop
  | nil : SameItems [] []
  | cons {v w : JsValue} {items items' : List JsValue} : v.Same w → SameItems items items' →
    SameItems (v :: items) (w :: items')

/-- The fields are equal in their order. -/
inductive SameFields : List (String × JsValue) → List (String × JsValue) → Prop
  | nil : SameFields [] []
  | cons (name : String) {v w : JsValue} {fields fields' : List (String × JsValue)} : v.Same w →
    SameFields fields fields' → SameFields ((name, v) :: fields) ((name, w) :: fields')

end

/-- The value is written as `null`. -/
def JsValue.Blank : JsValue → Prop
  | .null | .num (.infinite _) => True
  | _ => False

mutual

/-- The two agree, fields in their order, if infinite numbers count as `null`. -/
inductive JsValue.Agree : JsValue → JsValue → Prop
  | blank {v w : JsValue} : v.Blank → w.Blank → JsValue.Agree v w
  | bool (b : Bool) : JsValue.Agree (.bool b) (.bool b)
  | num (n : Numeral) : JsValue.Agree (.num (.finite n)) (.num (.finite n))
  | str (s : String) : JsValue.Agree (.str s) (.str s)
  | arr {items items' : List JsValue} : AgreeItems items items' →
    JsValue.Agree (.arr items) (.arr items')
  | obj {fields fields' : List (String × JsValue)} : AgreeFields fields fields' →
    JsValue.Agree (.obj fields) (.obj fields')

/-- The items agree in their order. -/
inductive AgreeItems : List JsValue → List JsValue → Prop
  | nil : AgreeItems [] []
  | cons {v w : JsValue} {items items' : List JsValue} : v.Agree w → AgreeItems items items' →
    AgreeItems (v :: items) (w :: items')

/-- The fields agree in their order. -/
inductive AgreeFields : List (String × JsValue) → List (String × JsValue) → Prop
  | nil : AgreeFields [] []
  | cons (name : String) {v w : JsValue} {fields fields' : List (String × JsValue)} : v.Agree w →
    AgreeFields fields fields' → AgreeFields ((name, v) :: fields) ((name, w) :: fields')

end

/-! ## The order of the fields -/

mutual

theorem JsValue.Same.refl : ∀ v : JsValue, v.Same v
  | .null => .null
  | .bool b => .bool b
  | .num n => .num n
  | .str s => .str s
  | .arr items => .arr (SameItems.refl items)
  | .obj fields => .obj (SameFields.refl fields) (List.Perm.refl _)

theorem SameItems.refl : ∀ items : List JsValue, SameItems items items
  | [] => .nil
  | item :: rest => .cons (JsValue.Same.refl item) (SameItems.refl rest)

theorem SameFields.refl : ∀ fields : List (String × JsValue), SameFields fields fields
  | [] => .nil
  | (name, value) :: rest => .cons name (JsValue.Same.refl value) (SameFields.refl rest)

end

theorem SameFields.names {fields fields' : List (String × JsValue)} :
    SameFields fields fields' → fields.map Prod.fst = fields'.map Prod.fst
  | .nil => rfl
  | .cons name _ h => congrArg (name :: ·) h.names

theorem jsonFields_names : ∀ fields : List (String × JsValue),
    (jsonFields fields).map Prod.fst = fields.map Prod.fst
  | [] => rfl
  | (name, _) :: rest => congrArg (name :: ·) (jsonFields_names rest)

/-- A list is determined by its elements and the order of their keys, if these are different. -/
theorem perm_eq_of_map {α β : Type} {f : α → β} {l l' : List α} (h : l.Perm l')
    (hnodup : (l.map f).Nodup) (hmap : l.map f = l'.map f) : l = l' := by
  refine List.ext_getElem h.length_eq fun i hi hi' => ?_
  refine List.inj_on_of_nodup_map hnodup (List.getElem_mem hi)
    (h.mem_iff.2 (List.getElem_mem hi')) ?_
  have hat := congrArg (fun names => names[i]?) hmap
  simpa [hi, hi'] using hat

mutual

/-- Equal values that are written alike have their fields in the same order. -/
theorem JsValue.Same.eq_of_json {v w : JsValue} (h : v.Same w) (hunique : v.Unique)
    (hjson : v.json = w.json) : v = w := by
  match h with
  | .null => rfl
  | .bool b => rfl
  | .num n => rfl
  | .str s => rfl
  | .arr hitems =>
    exact congrArg JsValue.arr (hitems.eq_of_json hunique (Json.arr.inj hjson))
  | @JsValue.Same.obj fields fields₁ fields' hfields hperm =>
    have hwritten := Json.obj.inj hjson
    have hnames : fields.map Prod.fst = fields'.map Prod.fst := by
      rw [← jsonFields_names, ← jsonFields_names, hwritten]
    have hsame := perm_eq_of_map hperm (hfields.names ▸ hunique.1) (hfields.names.symm.trans hnames)
    subst hsame
    exact congrArg JsValue.obj (hfields.eq_of_json hunique.2 hwritten)

theorem SameItems.eq_of_json {items items' : List JsValue} (h : SameItems items items')
    (hunique : UniqueItems items) (hjson : jsonItems items = jsonItems items') :
    items = items' := by
  match h with
  | .nil => rfl
  | .cons hv hitems =>
    obtain ⟨hvjson, hrest⟩ := List.cons.inj hjson
    rw [hv.eq_of_json hunique.1 hvjson, hitems.eq_of_json hunique.2 hrest]

theorem SameFields.eq_of_json {fields fields' : List (String × JsValue)}
    (h : SameFields fields fields') (hunique : UniqueFields fields)
    (hjson : jsonFields fields = jsonFields fields') : fields = fields' := by
  match h with
  | .nil => rfl
  | .cons name hv hfields =>
    obtain ⟨hfield, hrest⟩ := List.cons.inj hjson
    rw [hv.eq_of_json hunique.1 (Prod.mk.inj hfield).2, hfields.eq_of_json hunique.2 hrest]

end

/-! ## Infinite numbers -/

theorem JsValue.json_eq_null {v : JsValue} : v.json = .null ↔ v.Blank := by
  match v with
  | .null => exact iff_of_true rfl trivial
  | .num (.infinite _) => exact iff_of_true rfl trivial
  | .num (.finite _) => exact iff_of_false nofun id
  | .bool _ => exact iff_of_false nofun id
  | .str _ => exact iff_of_false nofun id
  | .arr _ => exact iff_of_false nofun id
  | .obj _ => exact iff_of_false nofun id

mutual

/-- Values that agree are written alike. -/
theorem JsValue.Agree.json_eq {v w : JsValue} (h : v.Agree w) : v.json = w.json := by
  match h with
  | .blank hv hw => exact (JsValue.json_eq_null.2 hv).trans (JsValue.json_eq_null.2 hw).symm
  | .bool b => rfl
  | .num n => rfl
  | .str s => rfl
  | .arr hitems => exact congrArg Json.arr hitems.json_eq
  | .obj hfields => exact congrArg Json.obj hfields.json_eq

theorem AgreeItems.json_eq {items items' : List JsValue} (h : AgreeItems items items') :
    jsonItems items = jsonItems items' := by
  match h with
  | .nil => rfl
  | .cons hv hitems => exact congrArg₂ List.cons hv.json_eq hitems.json_eq

theorem AgreeFields.json_eq {fields fields' : List (String × JsValue)}
    (h : AgreeFields fields fields') : jsonFields fields = jsonFields fields' := by
  match h with
  | .nil => rfl
  | .cons name hv hfields =>
    exact congrArg₂ List.cons (congrArg (Prod.mk name) hv.json_eq) hfields.json_eq

end

mutual

/-- Values that are written alike agree. -/
theorem JsValue.agree_of_json (v w : JsValue) (h : v.json = w.json) : v.Agree w := by
  match v, w with
  | .bool b, .bool b' =>
    cases Json.bool.inj h
    exact .bool b
  | .num (.finite n), .num (.finite n') =>
    cases Json.num.inj h
    exact .num n
  | .str s, .str s' =>
    cases Json.str.inj h
    exact .str s
  | .arr items, .arr items' => exact .arr (agreeItems_of_json items items' (Json.arr.inj h))
  | .obj fields, .obj fields' => exact .obj (agreeFields_of_json fields fields' (Json.obj.inj h))
  | .null, w => exact .blank trivial (JsValue.json_eq_null.1 h.symm)
  | .num (.infinite _), w => exact .blank trivial (JsValue.json_eq_null.1 h.symm)
  | v, .null => exact .blank (JsValue.json_eq_null.1 h) trivial
  | v, .num (.infinite _) => exact .blank (JsValue.json_eq_null.1 h) trivial

theorem agreeItems_of_json (items items' : List JsValue) (h : jsonItems items = jsonItems items') :
    AgreeItems items items' := by
  match items, items' with
  | [], [] => exact .nil
  | item :: rest, item' :: rest' =>
    obtain ⟨hitem, hrest⟩ := List.cons.inj h
    exact .cons (JsValue.agree_of_json item item' hitem) (agreeItems_of_json rest rest' hrest)

theorem agreeFields_of_json (fields fields' : List (String × JsValue))
    (h : jsonFields fields = jsonFields fields') : AgreeFields fields fields' := by
  match fields, fields' with
  | [], [] => exact .nil
  | (name, value) :: rest, (name', value') :: rest' =>
    obtain ⟨hfield, hrest⟩ := List.cons.inj h
    obtain ⟨rfl, hvalue⟩ := Prod.mk.inj hfield
    exact .cons name (JsValue.agree_of_json value value' hvalue)
      (agreeFields_of_json rest rest' hrest)

end

/-! ## The text -/

/-- The texts of two values are equal exactly if the values agree. -/
theorem JsValue.stringify_eq_iff {v w : JsValue} : v.stringify = w.stringify ↔ v.Agree w := by
  constructor
  · intro h
    exact agree_of_json v w (Json.stringify_injective h)
  · intro h
    exact congrArg Json.stringify h.json_eq

/-- The text of a value stands for the value as it is compared as JSON, for two given values,
exactly if they neither differ only in the order of fields, nor only in infinite numbers that are
written as `null`. -/
theorem JsValue.stringify_same_iff {v w : JsValue} (hunique : v.Unique) :
    (v.stringify = w.stringify ↔ v.Same w) ↔ (v.Same w → v = w) ∧ (v.Agree w → v = w) := by
  rw [stringify_eq_iff]
  have hboth : v.Agree w → v.Same w → v = w :=
    fun hagree hsame => hsame.eq_of_json hunique hagree.json_eq
  constructor
  · intro h
    exact ⟨fun hsame => hboth (h.2 hsame) hsame, fun hagree => hboth hagree (h.1 hagree)⟩
  · rintro ⟨hsame, hagree⟩
    constructor
    · intro h
      rw [hagree h]
      exact .refl w
    · intro h
      rw [hsame h]
      exact agree_of_json w w rfl

end InvoiceFi
