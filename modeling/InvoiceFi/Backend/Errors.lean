import Mathlib.Data.List.Defs

/-!
# The errors of the backend (`common/contract-error.ts`, `soroban/soroban.service.ts`)

What a rejected promise of the services carries, with the text a handler reads from it, and
`parseContractError`, which names the contract error that a diagnostic text of the network reports.
-/

namespace InvoiceFi

namespace Backend

/-- `InvoiceStatus`. -/
inductive InvoiceStatus where
  | pending
  | funded
  | repaid
  | defaulted
  deriving DecidableEq, Repr

/-- The name of a status in the database and in messages. -/
def InvoiceStatus.name : InvoiceStatus → String
  | .pending => "PENDING"
  | .funded => "FUNDED"
  | .repaid => "REPAID"
  | .defaulted => "DEFAULTED"

/-- `ContractErrorCode`. -/
inductive ContractErrorCode where
  | insufficientFunds
  | invoiceExpired
  | duplicateFunding
  | unauthorized
  | invalidState
  | walletSessionExpired
  deriving DecidableEq, Repr

/-- The errors: an error of the database client, the violation of a unique constraint (`P2002`)
apart; a NestJS exception with its HTTP status; a `ContractError`; a `SorobanRpcError` or any other
error of the network; the two errors of the settlement service; a `RangeError`; a `TypeError`. -/
inductive Error where
  | database (message : String)
  | uniqueViolation
  | http (status : Nat) (message : String)
  | contract (code : ContractErrorCode) (message : String)
  | rpc (message : String)
  | invoiceNotFound (invoiceId : String)
  | unexpectedInvoiceStatus (invoiceId : String) (status : InvoiceStatus)
  | range (message : String)
  | type (message : String)
  deriving DecidableEq, Repr

/-- `error.message`. -/
def Error.message : Error → String
  | .database message => message
  | .uniqueViolation => "Unique constraint failed"
  | .http _ message => message
  | .contract _ message => message
  | .rpc message => message
  | .invoiceNotFound invoiceId => "Invoice " ++ invoiceId ++ " not found in database"
  | .unexpectedInvoiceStatus invoiceId status =>
    "Invoice " ++ invoiceId ++ " is " ++ status.name ++ ", expected FUNDED"
  | .range message => message
  | .type message => message

/-! ## Diagnostic texts -/

/-- `text.includes(part)`, on characters. -/
def includesChars (text part : List Char) : Bool :=
  text.tails.any fun suffix => part.isPrefixOf suffix

/-- `text.includes(part)`. -/
def includes (text part : String) : Bool := includesChars text.toList part.toList

/-- `/part/i.test(text)` for a part in lower case. -/
def includesIgnoringCase (text part : String) : Bool :=
  includesChars (text.toList.map Char.toLower) part.toList

/-- The digits at the front of a text that are closed by a parenthesis, `(\d+)\)`. -/
def closedDigits (text : List Char) : Option String :=
  let digits := text.takeWhile Char.isDigit
  if digits ≠ [] ∧ (text.drop digits.length).head? = some ')' then some (String.ofList digits)
  else none

/-- `Error\(Contract,\s*#(\d+)\)` at the front of a text. -/
def contractCodeHere (text : List Char) : Option String :=
  let head := "Error(Contract,".toList
  if head.isPrefixOf text then
    match (text.drop head.length).dropWhile Char.isWhitespace with
    | '#' :: rest => closedDigits rest
    | _ => none
  else none

/-- `extractNumericErrorCode`: the number in the first `Error(Contract, #N)` of the text. -/
def extractNumericErrorCode (raw : String) : Option Nat :=
  (raw.toList.tails.findSome? contractCodeHere).map fun digits =>
    digits.toList.foldl (fun n c => 10 * n + (c.toNat - '0'.toNat)) 0

/-- `FINANCING_POOL_ERROR_CODES`. -/
def financingPoolErrorCodes : Nat → Option ContractErrorCode
  | 5 | 6 => some .insufficientFunds
  | 7 => some .duplicateFunding
  | 10 | 11 | 22 => some .unauthorized
  | 1 | 2 | 3 | 4 | 8 | 9 | 12 | 13 | 14 | 15 | 16 | 17 | 18 | 19 | 20 | 21 | 23 =>
    some .invalidState
  | _ => none

/-- The text matches of `parseContractError`, tried in order once no numeric code is known. -/
def parseContractText (raw : String) : Error :=
  if includesIgnoringCase raw "walletsessionexpired" ∨ includesIgnoringCase raw "wallet session" ∨
      includesIgnoringCase raw "session expired" then
    .contract .walletSessionExpired "Wallet session has expired; reconnect and retry"
  else if includes raw "InsufficientFunds" ∨ includes raw "InsufficientBalance" ∨
      includes raw "InsufficientLiquidity" then
    .contract .insufficientFunds "Wallet balance is insufficient"
  else if includes raw "InvoiceExpired" then
    .contract .invoiceExpired "Invoice has passed its expiry timestamp"
  else if includes raw "DuplicateFunding" ∨ includes raw "AlreadyFunded" then
    .contract .duplicateFunding "Invoice has already been funded"
  else if includes raw "Unauthorized" ∨ includes raw "NotAuthorized" then
    .contract .unauthorized "Caller is not authorized to perform this action"
  else .contract .invalidState raw

/-- `parseContractError`, with the table of the financing pool, the one of a call that names no
contract. -/
def parseContractError (raw : String) : Error :=
  match (extractNumericErrorCode raw).bind fun n => (financingPoolErrorCodes n).map (n, ·) with
  | some (n, mapped) =>
    .contract mapped ("Contract error #" ++ toString n ++ ": " ++ raw)
  | none => parseContractText raw

/-- The rejection of a second funding, `AlreadyFunded`, is reported as a duplicate. -/
example : ∃ message, parseContractError "HostError: Error(Contract, #7)" =
    .contract .duplicateFunding message := ⟨_, rfl⟩

end Backend

end InvoiceFi
