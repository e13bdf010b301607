import InvoiceFi.Backend.Monitoring.AnomalyDetector

/-!
# The events of an operation (`monitoring/horizon-monitor.service.ts`)

`toMonitoringEvents` reads an operation of the Horizon API, a JSON object, as the events that the
detector evaluates: a funding, a price of an oracle, and a change of the pausers.

Numbers are exact, so that none overflows. The functions that the SDK puts into a record are left
out, as in its text.
-/

namespace InvoiceFi

namespace Backend

namespace Monitoring

/-! ## `Number` -/

/-- The value of a digit in a radix, in which letters stand for the digits from 10 on. -/
def radixDigit (radix : Nat) (c : Char) : Option Nat :=
  let c := c.toLower
  let value := if c.isDigit then c.toNat - '0'.toNat else c.toNat - 'a'.toNat + 10
  if c.isAlphanum = true ∧ value < radix then some value else none

/-- The integer that some digits denote in a radix. -/
def radixNumber (radix : Nat) (text : List Char) : Option ℚ :=
  if text = [] then none
  else
    (text.mapM (radixDigit radix)).map fun digits =>
      ((digits.foldl (fun n d => radix * n + d) 0 : Nat) : ℚ)

/-- The exponent of a decimal numeral, where it has one. -/
def exponent (text : List Char) : Option Int :=
  match text with
  | [] => some 0
  | e :: rest =>
    let (sign, digits) : Int × List Char := match rest with
      | '-' :: digits => (-1, digits)
      | '+' :: digits => (1, digits)
      | digits => (1, digits)
    if e.toLower = 'e' ∧ digits ≠ [] ∧ digits.all Char.isDigit = true then
      some (sign * Nat.ofDigitChars 10 digits 0)
    else none

/-- The number that a decimal numeral without a sign denotes. -/
def decimalNumber (text : List Char) : Option ℚ :=
  let whole := text.takeWhile Char.isDigit
  let rest := text.dropWhile Char.isDigit
  let (fraction, rest) := match rest with
    | '.' :: rest => (rest.takeWhile Char.isDigit, rest.dropWhile Char.isDigit)
    | rest => ([], rest)
  if whole ++ fraction = [] then none
  else
    (exponent rest).map fun e : Int =>
      ((Nat.ofDigitChars 10 (whole ++ fraction) 0 : Nat) : ℚ) *
        (10 : ℚ) ^ (e - (fraction.length : Int))

/-- `Number(text)`, where it is finite. -/
def textNumber (text : List Char) : Option ℚ :=
  match Compliance.trim text with
  | [] => some 0
  | '0' :: 'x' :: digits | '0' :: 'X' :: digits => radixNumber 16 digits
  | '0' :: 'o' :: digits | '0' :: 'O' :: digits => radixNumber 8 digits
  | '0' :: 'b' :: digits | '0' :: 'B' :: digits => radixNumber 2 digits
  | '-' :: numeral => (decimalNumber numeral).map Neg.neg
  | '+' :: numeral => decimalNumber numeral
  | numeral => decimalNumber numeral

mutual

/-- The text of an item of an array. -/
def itemText : Json → List Char
  | .null => []
  | .bool b => (toString b).toList
  | .num n => n.chars
  | .str s => s.toList
  | .arr items => itemsText items
  | .obj _ => "[object Object]".toList

/-- The text of an array, `items.join(',')`. -/
def itemsText : List Json → List Char
  | [] => []
  | item :: items => itemText item ++ moreItemsText items

/-- The text of the items after the first one. -/
def moreItemsText : List Json → List Char
  | [] => []
  | item :: items => ',' :: (itemText item ++ moreItemsText items)

end

/-- `Number(value)`, where it is finite. -/
def number : Json → Option ℚ
  | .null => some 0
  | .bool b => some (if b then 1 else 0)
  | .num n => textNumber n.chars
  | .str s => textNumber s.toList
  | .arr items => textNumber (itemsText items)
  | .obj _ => none

example : (textNumber " -12.50e1 ".toList, textNumber "0x1F".toList, textNumber "1.2.3".toList) =
    (some (-125), some 31, none) := by decide +kernel

/-! ## Operations -/

/-- `HorizonOperation`, a record that has an id. -/
structure HorizonOperation where
  fields : List (String × Json)
  id : String
  id_field : fields.lookup "id" = some (.str id)

namespace HorizonOperation

variable (operation : HorizonOperation)

/-- A field that is declared as a text. -/
def text (name : String) : Option String :=
  match operation.fields.lookup name with
  | some (.str value) => some value
  | _ => none

/-- `Number(operation.amount ?? 0)`. -/
def amount : Option ℚ :=
  match operation.fields.lookup "amount" with
  | none | some .null => some 0
  | some value => number value

/-- `extractNumber`. -/
def extractNumber (keys : List String) : Option ℚ :=
  keys.findSome? fun key =>
    ((operation.fields.lookup key).bind number).filter fun value => decide (0 < value)

/-- The account of the events. -/
def accountOf : Option String :=
  ["from", "funder", "account", "trustee", "source_account"].findSome? operation.text

/-- `matchContract`. -/
def matchContract (contractIds : List String) (candidate : String) : String :=
  (contractIds.find? fun id => includes candidate id).getD candidate

/-- `JSON.stringify(operation).toLowerCase()`. No character outside ASCII has a letter of the words
that are looked for as its lower case. -/
def memo : String := (Json.obj operation.fields).stringify.toLower

/-- `toMonitoringEvents`. -/
def toMonitoringEvents (contractIds : List String) (ledger : Nat) (closedAt : Int) :
    List MonitoringEvent :=
  let hash := (operation.text "transaction_hash").getD operation.id
  let account := operation.accountOf
  let contractId := matchContract contractIds
    (((operation.text "source_account").orElse fun _ => account).getD "stellar")
  let event : MonitoringEvent := ⟨ledger, closedAt, contractId, hash, "", account,
    none, none, none, none, none, none, none, none⟩
  let funding :=
    match operation.amount with
    | none => []
    | some amount =>
      if operation.text "type" ∈ [some "payment", some "create_claimable_balance"] ∧ 0 < amount then
        [{ event with
          type := "invoice_funded"
          amount := some amount
          asset := operation.text "asset_code" }]
      else []
  let price :=
    if includes operation.memo "oracle" = true ∧ includes operation.memo "price" = true then
      [{ event with
        type := "oracle_price_updated"
        oraclePrice := operation.extractNumber ["oracle_price", "price"]
        referencePrice := operation.extractNumber ["reference_price", "expected_price", "twap"] }]
    else []
  let role :=
    if includes operation.memo "pauser" = true ∨ includes operation.memo "emergency_pauser" = true
    then
      [{ event with
        type := "role_changed"
        role := some (if includes operation.memo "emergency_pauser" then "emergency_pauser"
          else "pauser") }]
    else []
  funding ++ price ++ role

end HorizonOperation

end Monitoring

end Backend

end InvoiceFi
