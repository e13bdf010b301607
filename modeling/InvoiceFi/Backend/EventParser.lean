/-!
# The settlement event parser (`settlement/settlement-event.parser.ts`)

What the listener sees of a contract event is its topics and its data, decoded by the Stellar SDK
to JavaScript values (`Native`, `NormalizedEvent`); `parseSettlementEvent` decides from them
whether the event settles an invoice and which one. The decoder makes a `number` only of a 32-bit
integer, so a `number` is an integer here: `Number.isFinite` holds of it and `Math.trunc` keeps it.
-/

namespace InvoiceFi

namespace Backend

/-! ## Data (`settlement/types.ts`) -/

/-- The JavaScript values that `scValToNative` makes of an `ScVal`. -/
inductive Native where
  | null
  | bool (b : Bool)
  | number (n : Int)
  | bigint (n : Int)
  | string (s : String)
  | bytes (b : List UInt8)
  | array (xs : List Native)
  | object (fields : List (String × Native))

/-- `NormalizedEvent`. -/
structure NormalizedEvent where
  ledger : Nat
  contractId : String
  topics : List Native
  value : Native
  txHash : Option String

/-- `SettlementEvent`. -/
structure SettlementEvent where
  invoiceId : String
  ledger : Nat
  txHash : Option String
  deriving DecidableEq, Repr

/-! ## The parser -/

/-- `SETTLEMENT_TOPICS`. -/
def settlementTopics : List String := ["invoice_settled", "invoicesettled", "settled"]

/-- `String.prototype.toLowerCase`. Only the letters `A` to `Z` matter to a comparison with the
settlement topics: no other character has a lower case that is made of letters in them. -/
def toLowerCase (s : String) : String := String.ofList (s.toList.map Char.toLower)

/-- `asString`. -/
def asString : Native → Option String
  | .string s => some s
  | .bigint n => some (toString n)
  | .number n => some (toString n)
  | _ => none

/-- `isPositiveIntString`: `/^[0-9]+$/` and not `"0"`. -/
def isPositiveIntString (value : String) : Bool :=
  !value.toList.isEmpty && value.toList.all Char.isDigit && value != "0"

/-- A scalar that is a positive integer, as its string. -/
def scalarId (candidate : Native) : Option String :=
  (asString candidate).filter isPositiveIntString

/-- `record[key]`. An array and a byte buffer have none of the three keys the parser reads. -/
def property (key : String) : Native → Option Native
  | .object fields => fields.lookup key
  | _ => none

/-- `extractInvoiceId`: the candidate itself, or the first of its three id properties that is a
positive integer. An absent topic is `none`. -/
def extractInvoiceId : Option Native → Option String
  | none => none
  | some candidate =>
    match scalarId candidate with
    | some direct => some direct
    | none => ["invoice_id", "invoiceId", "id"].findSome? fun key =>
        (property key candidate).bind scalarId

/-- `parseSettlementEvent`. -/
def parseSettlementEvent (event : NormalizedEvent) : Option SettlementEvent :=
  let name := event.topics[0]?
  let indexedId := event.topics[1]?
  match (name.bind asString).map toLowerCase with
  | none => none
  | some eventName =>
    if eventName ∈ settlementTopics then
      match (extractInvoiceId indexedId).or (extractInvoiceId (some event.value)) with
      | some invoiceId => some ⟨invoiceId, event.ledger, event.txHash⟩
      | none => none
    else none

/-! ## What an accepted event is -/

theorem scalarId_eq_some {candidate : Native} {id : String} :
    scalarId candidate = some id ↔ asString candidate = some id ∧ isPositiveIntString id := by
  rw [scalarId, Option.filter_eq_some_iff]

/-- An extracted id is a string of digits other than `"0"`. -/
theorem extractInvoiceId_positive {candidate : Option Native} {id : String}
    (h : extractInvoiceId candidate = some id) : isPositiveIntString id := by
  cases candidate with
  | none => cases h
  | some candidate =>
    rw [extractInvoiceId] at h
    split at h
    · next direct hd =>
      cases h
      exact (scalarId_eq_some.1 hd).2
    · obtain ⟨key, -, hk⟩ := List.exists_of_findSome?_eq_some h
      obtain ⟨nested, -, hn⟩ := Option.bind_eq_some_iff.1 hk
      exact (scalarId_eq_some.1 hn).2

/-- What the parser accepts: an event whose first topic is one of the settlement topics up to case,
with a positive id, passed on with the event's ledger and transaction. -/
theorem parseSettlementEvent_eq_some {event : NormalizedEvent} {p : SettlementEvent}
    (h : parseSettlementEvent event = some p) :
    (∃ name, (event.topics[0]?.bind asString).map toLowerCase = some name ∧
      name ∈ settlementTopics) ∧
    isPositiveIntString p.invoiceId ∧ p.ledger = event.ledger ∧ p.txHash = event.txHash := by
  simp only [parseSettlementEvent] at h
  split at h
  · cases h
  · next eventName hn =>
    split at h
    · next hmem =>
      split at h
      · next id hid =>
        cases h
        refine ⟨⟨eventName, hn, hmem⟩, ?_, rfl, rfl⟩
        rcases Option.or_eq_some_iff.1 hid with hi | ⟨-, hv⟩
        · exact extractInvoiceId_positive hi
        · exact extractInvoiceId_positive hv
      · cases h
    · cases h

/-- An event whose first topic is a string outside the settlement topics is not a settlement. -/
theorem parseSettlementEvent_eq_none {event : NormalizedEvent} {name : String}
    (hname : event.topics[0]? = some (.string name))
    (h : toLowerCase name ∉ settlementTopics) : parseSettlementEvent event = none := by
  cases hp : parseSettlementEvent event with
  | none => rfl
  | some p =>
    obtain ⟨⟨eventName, hn, hmem⟩, -⟩ := parseSettlementEvent_eq_some hp
    rw [hname] at hn
    cases hn
    exact absurd hmem h

/-- The name is matched up to case and the id read from the indexed topic or from the data. -/
example :
    parseSettlementEvent ⟨100, "C_INVOICE", [.string "InvoiceSettled", .number 5], .null, none⟩ =
      some ⟨"5", 100, none⟩ ∧
    parseSettlementEvent ⟨100, "C_INVOICE", [.string "settled"],
      .object [("invoice_id", .string "9")], none⟩ = some ⟨"9", 100, none⟩ ∧
    parseSettlementEvent ⟨100, "C_INVOICE", [.string "invoice_settled", .string "0"], .null,
      none⟩ = none := by
  decide

end Backend

end InvoiceFi
