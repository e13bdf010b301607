import InvoiceFi.Contracts.AccessControl
import InvoiceFi.Contracts.CheckedMath
import Mathlib.Logic.Function.Basic

/-!
# The settlement contract (`contracts/settlement/src/lib.rs`)

Invoices are registered by the admin, paid off in one or more `settle_invoice` calls under
single-use nonces, and the fee each payment leaves behind is collected and withdrawn.
`Settlement.Store` holds one field per storage key that an entry point writes (`StorageKey` of
`types.rs`, and the access-control keys as `ac`) and the events published so far. Each entry point
is a function of the store it finds, with the source's checks and writes in the source's order,
and the ones that write records or counters have a `_eq_ok` lemma. `Settlement.settlement` is the
contract as a machine.

The keys `InvoiceStatus` and `InvoiceAuth0` are only ever read, and no entry point uses
`nonce.rs`; both are left out.
-/

namespace InvoiceFi

namespace Settlement

open AccessControl (AcError Op)
open CheckedMath

/-! ## Data (`error.rs`, `types.rs`) -/

/-- `SettlementError`. -/
inductive SettlementError where
  | unauthorized
  | alreadySettled
  | invalidStatus
  | zeroAmount
  | alreadyAuthorized
  | notAuthorized
  | nonceReplay
  | invoiceNotFound
  | invalidAuthType
  | insufficientFees
  | reentrancyDetected
  | financingPoolNotSet
  | crossContractCallFailed
  | alreadyInitialized
  | notInitialized
  | notASigner
  | invalidThreshold
  | duplicateSigner
  | invalidTimelock
  | contractPaused
  | alreadyPaused
  | notPaused
  | noPendingTransfer
  | alreadyConfirmed
  | thresholdNotMet
  | timelockNotElapsed
  | cannotGrantAdminRole
  | invalidAttestationSignature
  | attestationReplay
  | escrowPubkeyNotSet
  | invalidAttestationPayload
  deriving DecidableEq, Repr

/-- `From<AcError> for SettlementError`. -/
def SettlementError.ofAcError : AcError → SettlementError
  | .alreadyInitialized => .alreadyInitialized
  | .notInitialized => .notInitialized
  | .unauthorized => .unauthorized
  | .notASigner => .notASigner
  | .invalidThreshold => .invalidThreshold
  | .duplicateSigner => .duplicateSigner
  | .invalidTimelock => .invalidTimelock
  | .contractPaused => .contractPaused
  | .alreadyPaused => .alreadyPaused
  | .notPaused => .notPaused
  | .noPendingTransfer => .noPendingTransfer
  | .alreadyConfirmed => .alreadyConfirmed
  | .thresholdNotMet => .thresholdNotMet
  | .timelockNotElapsed => .timelockNotElapsed
  | .cannotGrantAdminRole => .cannotGrantAdminRole

/-- `From<CheckedMathError> for SettlementError`. -/
def SettlementError.ofCheckedMathError : CheckedMathError → SettlementError
  | .overflow => .zeroAmount
  | .underflow => .zeroAmount
  | .divisionByZero => .zeroAmount

/-- `unwrap_ac`. -/
def unwrapAc {α : Type} (x : Result AcError α) : Result SettlementError α :=
  x.mapError (Trap.map SettlementError.ofAcError)

/-- `unwrap_math`. -/
def unwrapMath {α : Type} (x : Except CheckedMathError α) : Result SettlementError α :=
  x.mapError fun e => .error (SettlementError.ofCheckedMathError e)

/-- `SettlementStatus`. -/
inductive SettlementStatus where
  | approvedForSettlement
  | lenderApproved
  | payerApproved
  | settled
  | releaseRejected
  deriving DecidableEq, Repr

/-- `status as u32`, the form a record stores. -/
def SettlementStatus.code : SettlementStatus → UInt32
  | .approvedForSettlement => 0
  | .lenderApproved => 1
  | .payerApproved => 2
  | .settled => 3
  | .releaseRejected => 9

/-- `InvoiceRecord`. -/
structure InvoiceRecord where
  id : Symbol
  borrower : Address
  financier : Address
  amount : I128
  dueDate : UInt64
  principalPaid : I128
  interestPaid : I128
  status : UInt32
  lenderApproved : Bool
  payerApproved : Bool
  isFunded : Bool
  lenderAllowed : Bool
  payerAllowed : Bool
  approvalStatus : UInt32
  deriving DecidableEq

/-- `NonceMeta`. -/
structure NonceMeta where
  invoiceId : Symbol
  usedNonces : List UInt64
  dueDate : UInt64
  deriving DecidableEq, Repr

/-- The events the contract publishes. -/
inductive Event where
  | payersSet
  | financiersSet
  | invoiceSet (invoiceId : Symbol) (borrower financier : Address) (amount : I128)
      (dueDate : UInt64)
  | feeRateSet (feeRate : UInt32)
  | escrowSet
  | attestationSubmitted (caller : Address) (payload : List UInt8) (sig : Vector UInt8 64)
  | authRecorded (invoiceId : Symbol) (caller : Address) (didPay isBuyer isPayee : Bool)
  | authRequested (invoiceId : Symbol) (caller : Address)
  | feesWithdrawn (payee : Address) (amount : I128)
  | financingPoolSet (pool : Address)
  | notifyFinancingPool (invoiceId : Symbol) (pool : Address) (amount net : I128)
  | settled (invoiceId : Symbol) (caller : Address) (amount : I128) (nonce : UInt64)
      (fee net newPrincipal : I128)
  deriving DecidableEq

/-- The contract's storage, one field per key, and the events published so far. -/
structure Store where
  ac : AccessControl.Store
  feeRate : Option UInt32
  collectedFees : Option I128
  withdrawnFees : Option I128
  reentrancyGuard : Option ReentrancyGuard
  escrowPubKey : Option (Vector UInt8 32)
  financingPoolAddress : Option Address
  invoiceData : Symbol → Option InvoiceRecord
  nonceMeta : Symbol → Option NonceMeta
  events : List Event

/-- Storage of a contract that has just been deployed. -/
def Store.empty : Store :=
  ⟨.empty, none, none, none, none, none, none, fun _ => none, fun _ => none, []⟩

/-- `env.events().publish`. -/
def publish (s : Store) (e : Event) : Store := { s with events := s.events ++ [e] }

/-- Writing the reentrancy guard. -/
def setGuard (s : Store) (g : ReentrancyGuard) : Store := { s with reentrancyGuard := some g }

/-- Writing an invoice record. -/
def setRecord (s : Store) (invoiceId : Symbol) (record : InvoiceRecord) : Store :=
  { s with invoiceData := Function.update s.invoiceData invoiceId (some record) }

/-! ## Nonces (`types.rs`) -/

namespace NonceMeta

/-- `NonceMeta::new`. -/
def new (invoiceId : Symbol) (dueDate : UInt64) : NonceMeta := ⟨invoiceId, [], dueDate⟩

/-- `NonceMeta::load`. -/
def load (s : Store) (invoiceId : Symbol) : NonceMeta :=
  match s.nonceMeta invoiceId with
  | some nm => nm
  | none => new invoiceId 0

/-- `NonceMeta::mark_used`. -/
def markUsed (nm : NonceMeta) (nonce : UInt64) : NonceMeta :=
  { nm with usedNonces := nm.usedNonces ++ [nonce] }

/-- `NonceMeta::is_valid`. -/
def isValid (nm : NonceMeta) (env : Env) (nonce : UInt64) : Bool :=
  if nonce ∈ nm.usedNonces then false
  else decide (env.timestamp ≤ saturatingAddU64 nm.dueDate 2592000)

end NonceMeta

/-! ## Entry points -/

/-- `init`. -/
def init (s : Store) (signers : List Address) (threshold timelock : UInt32) :
    Result SettlementError Store := do
  let ac ← unwrapAc (AccessControl.init s.ac signers threshold timelock)
  let s := { s with ac := ac }
  let s := { s with feeRate := some 0 }
  let s := { s with collectedFees := some .zero }
  let s := { s with withdrawnFees := some .zero }
  pure (setGuard s .unlocked)

/-- `set_authorized_payers`; the list is ignored. -/
def setAuthorizedPayers (env : Env) (s : Store) (caller : Address) (_payers : List Address) :
    Result SettlementError Store := do
  unwrapAc (AccessControl.requireAdmin env s.ac caller)
  pure (publish s .payersSet)

/-- `set_financiers`; the list is ignored. -/
def setFinanciers (env : Env) (s : Store) (caller : Address) (_financiers : List Address) :
    Result SettlementError Store := do
  unwrapAc (AccessControl.requireAdmin env s.ac caller)
  pure (publish s .financiersSet)

/-- The record `set_invoice_data` writes. -/
def newRecord (invoiceId : Symbol) (borrower financier : Address) (amount : I128)
    (dueDate : UInt64) : InvoiceRecord where
  id := invoiceId
  borrower := borrower
  financier := financier
  amount := amount
  dueDate := dueDate
  principalPaid := .zero
  interestPaid := .zero
  status := SettlementStatus.approvedForSettlement.code
  lenderApproved := false
  payerApproved := false
  isFunded := false
  lenderAllowed := true
  payerAllowed := false
  approvalStatus := 0

/-- `set_invoice_data`; the interest rate is ignored. -/
def setInvoiceData (env : Env) (s : Store) (caller : Address) (invoiceId : Symbol)
    (borrower financier : Address) (amount : I128) (dueDate : UInt64) (_interestRate : UInt32) :
    Result SettlementError Store := do
  unwrapAc (AccessControl.requireAdmin env s.ac caller)
  let record := newRecord invoiceId borrower financier amount dueDate
  let s := setRecord s invoiceId record
  pure (publish s (.invoiceSet invoiceId borrower financier amount dueDate))

/-- `set_fee_rate`. -/
def setFeeRate (env : Env) (s : Store) (caller : Address) (feeRate : UInt32) :
    Result SettlementError Store := do
  unwrapAc (AccessControl.requireAdmin env s.ac caller)
  let s := { s with feeRate := some feeRate }
  pure (publish s (.feeRateSet feeRate))

/-- `set_escrow_pubkey`. -/
def setEscrowPubkey (env : Env) (s : Store) (caller : Address) (pubkey : Vector UInt8 32) :
    Result SettlementError Store := do
  unwrapAc (AccessControl.requireAdmin env s.ac caller)
  let s := { s with escrowPubKey := some pubkey }
  pure (publish s .escrowSet)

/-- `submit_attestation`. -/
def submitAttestation (env : Env) (s : Store) (caller : Address) (payload : List UInt8)
    (sig : Vector UInt8 64) : Result SettlementError Store := do
  requireAuth env caller
  unwrapAc (AccessControl.requireNotPaused s.ac)
  let _pubkey ← okOr s.escrowPubKey (.panic "Err: ESCROW_PUBKEY_NOT_SET")
  pure (publish s (.attestationSubmitted caller payload sig))

/-- Reading an invoice record that must exist. -/
def getRecord (s : Store) (invoiceId : Symbol) : Result SettlementError InvoiceRecord :=
  okOr (s.invoiceData invoiceId) (.panic "Err: INVOICE_NOT_FOUND")

/-- `settlement_auth`. -/
def settlementAuth (env : Env) (s : Store) (caller : Address) (invoiceId : Symbol)
    (didPay isBuyer isPayee : Bool) : Result SettlementError Store := do
  requireAuth env caller
  let record ← getRecord s invoiceId
  let record :=
    if isBuyer && !didPay then { record with payerApproved := true, lenderAllowed := true }
    else record
  let record :=
    if isPayee && didPay then { record with lenderApproved := true, payerAllowed := true }
    else record
  let s := setRecord s invoiceId record
  pure (publish s (.authRecorded invoiceId caller didPay isBuyer isPayee))

/-- `request_settlement_auth`. -/
def requestSettlementAuth (env : Env) (s : Store) (caller : Address) (invoiceId : Symbol) :
    Result SettlementError Store := do
  requireAuth env caller
  let record ← getRecord s invoiceId
  let record :=
    if caller = record.borrower ∧ record.payerApproved = false then
      { record with payerApproved := true }
    else record
  let record :=
    if caller = record.financier ∧ record.lenderApproved = false then
      { record with lenderApproved := true }
    else record
  rejectIf (record.lenderApproved = false ∧ record.payerApproved = false)
    (.panic "Err: NOT_AUTHORIZED_TO_REQUEST")
  let s := setRecord s invoiceId record
  pure (publish s (.authRequested invoiceId caller))

/-- `withdraw_fees`; the source's `to` is `payee`. -/
def withdrawFees (env : Env) (s : Store) (caller payee : Address) (amount : I128) :
    Result SettlementError Store := do
  unwrapAc (AccessControl.requireAdmin env s.ac caller)
  unwrapAc (AccessControl.requireNotPaused s.ac)
  let collected := s.collectedFees.getD .zero
  rejectIf (collected.val < amount.val) (.panic "Err: INSUFFICIENT_FEES")
  let newCollected ← unwrapMath (checkedSub collected amount)
  let s := { s with collectedFees := some newCollected }
  let withdrawn := s.withdrawnFees.getD .zero
  let newWithdrawn ← unwrapMath (checkedAdd withdrawn amount)
  let s := { s with withdrawnFees := some newWithdrawn }
  pure (publish s (.feesWithdrawn payee amount))

/-- `set_financing_pool_address`. -/
def setFinancingPoolAddress (env : Env) (s : Store) (caller pool : Address) :
    Result SettlementError Store := do
  unwrapAc (AccessControl.requireAdmin env s.ac caller)
  let s := { s with financingPoolAddress := some pool }
  pure (publish s (.financingPoolSet pool))

/-- The denominator of the fee rate. -/
def feeDenominator : I128 := .lit 10000

/-- The record after a payment that brings the principal to `newPrincipal`. -/
def paidRecord (record : InvoiceRecord) (newPrincipal : I128) : InvoiceRecord :=
  let record := { record with principalPaid := newPrincipal }
  if record.amount.val ≤ newPrincipal.val then
    { record with status := SettlementStatus.settled.code }
  else record

/-- The notification `settle_invoice` publishes in place of the call to the financing pool. -/
def notifyFinancingPool (s : Store) (invoiceId : Symbol) (amount net : I128) : Store :=
  match s.financingPoolAddress with
  | some pool => publish s (.notifyFinancingPool invoiceId pool amount net)
  | none => s

/-- `settle_invoice`; the authorization type is ignored. -/
def settleInvoice (env : Env) (s : Store) (caller : Address) (invoiceId : Symbol)
    (nonce : UInt64) (amount : I128) (_authType : UInt32) : Result SettlementError Store := do
  requireAuth env caller
  unwrapAc (AccessControl.requireNotPaused s.ac)
  rejectIf (s.reentrancyGuard.getD .unlocked = .locked) (.panic "Err: REENTRANCY_DETECTED")
  let nm := NonceMeta.load s invoiceId
  rejectIf (nm.isValid env nonce = false) (.panic "Err: NONCE_REPLAY")
  let nm2 := nm.markUsed nonce
  let record ← getRecord s invoiceId
  rejectIf (amount.val ≤ 0 ∨ record.amount.val < amount.val) (.panic "Err: INVALID_AMOUNT")
  let feeRate := s.feeRate.getD 0
  let feeNum ← unwrapMath (checkedMul amount (I128.ofUInt32 feeRate))
  let fee ← unwrapMath (checkedDiv feeNum feeDenominator)
  let net ← unwrapMath (checkedSub amount fee)
  let collected := s.collectedFees.getD .zero
  let newCollected ← unwrapMath (checkedAdd collected fee)
  let s := { s with collectedFees := some newCollected }
  let newPrincipal ← unwrapMath (checkedAdd record.principalPaid net)
  let s := setRecord s invoiceId (paidRecord record newPrincipal)
  let s := { s with nonceMeta := Function.update s.nonceMeta invoiceId (some nm2) }
  let s := setGuard s .locked
  let s := notifyFinancingPool s invoiceId amount net
  let s := setGuard s .unlocked
  pure (publish s (.settled invoiceId caller amount nonce fee net newPrincipal))

/-- The role, pause and admin-transfer entry points. -/
def access (env : Env) (s : Store) (o : Op) : Result SettlementError Store := do
  let ac ← unwrapAc (AccessControl.apply env s.ac o)
  pure { s with ac := ac }

/-! ## Views -/

/-- `get_fee_rate`. -/
def getFeeRate (s : Store) : Option UInt32 := s.feeRate

/-- `get_collected_fees`. -/
def getCollectedFees (s : Store) : Option I128 := s.collectedFees

/-- `get_withdrawn_fees`. -/
def getWithdrawnFees (s : Store) : Option I128 := s.withdrawnFees

/-- `get_invoice`. -/
def getInvoice (s : Store) (invoiceId : Symbol) : Option InvoiceRecord := s.invoiceData invoiceId

/-- `get_used_nonces`. -/
def getUsedNonces (s : Store) (invoiceId : Symbol) : List UInt64 :=
  (NonceMeta.load s invoiceId).usedNonces

/-! ## The contract -/

/-- A call of the contract. The views change nothing and are functions of the store. -/
inductive Call where
  | init (signers : List Address) (threshold timelock : UInt32)
  | setAuthorizedPayers (caller : Address) (payers : List Address)
  | setFinanciers (caller : Address) (financiers : List Address)
  | setInvoiceData (caller : Address) (invoiceId : Symbol) (borrower financier : Address)
      (amount : I128) (dueDate : UInt64) (interestRate : UInt32)
  | setFeeRate (caller : Address) (feeRate : UInt32)
  | setEscrowPubkey (caller : Address) (pubkey : Vector UInt8 32)
  | submitAttestation (caller : Address) (payload : List UInt8) (sig : Vector UInt8 64)
  | settlementAuth (caller : Address) (invoiceId : Symbol) (didPay isBuyer isPayee : Bool)
  | requestSettlementAuth (caller : Address) (invoiceId : Symbol)
  | withdrawFees (caller payee : Address) (amount : I128)
  | setFinancingPoolAddress (caller pool : Address)
  | settleInvoice (caller : Address) (invoiceId : Symbol) (nonce : UInt64) (amount : I128)
      (authType : UInt32)
  | access (o : Op)

/-- Dispatching a call to its entry point. -/
def dispatch (env : Env) (s : Store) : Call → Result SettlementError Store
  | .init signers threshold timelock => init s signers threshold timelock
  | .setAuthorizedPayers caller payers => setAuthorizedPayers env s caller payers
  | .setFinanciers caller financiers => setFinanciers env s caller financiers
  | .setInvoiceData caller invoiceId borrower financier amount dueDate interestRate =>
    setInvoiceData env s caller invoiceId borrower financier amount dueDate interestRate
  | .setFeeRate caller feeRate => setFeeRate env s caller feeRate
  | .setEscrowPubkey caller pubkey => setEscrowPubkey env s caller pubkey
  | .submitAttestation caller payload sig => submitAttestation env s caller payload sig
  | .settlementAuth caller invoiceId didPay isBuyer isPayee =>
    settlementAuth env s caller invoiceId didPay isBuyer isPayee
  | .requestSettlementAuth caller invoiceId => requestSettlementAuth env s caller invoiceId
  | .withdrawFees caller payee amount => withdrawFees env s caller payee amount
  | .setFinancingPoolAddress caller pool => setFinancingPoolAddress env s caller pool
  | .settleInvoice caller invoiceId nonce amount authType =>
    settleInvoice env s caller invoiceId nonce amount authType
  | .access o => access env s o

/-- The contract as a machine. -/
def settlement : Machine Store (Env × Call) (Trap SettlementError) Unit where
  init := .empty
  invoke i s := ((), ·) <$> dispatch i.1 s i.2

/-- A step of the contract's history. -/
abbrev SettlementStep := Step Store (Env × Call) (Trap SettlementError) Unit

/-! ## What each function does when it succeeds -/

section
variable {env : Env} {s s' : Store} {caller : Address} {invoiceId : Symbol}

@[simp] theorem unwrapAc_eq_ok {α : Type} {x : Result AcError α} {a : α} :
    unwrapAc x = .ok a ↔ x = .ok a := mapError_eq_ok

@[simp] theorem unwrapMath_eq_ok {α : Type} {x : Except CheckedMathError α} {a : α} :
    unwrapMath x = .ok a ↔ x = .ok a := mapError_eq_ok

@[simp] theorem getRecord_eq_ok {record : InvoiceRecord} :
    getRecord s invoiceId = .ok record ↔ s.invoiceData invoiceId = some record := okOr_eq_ok

/-- A nonce passes exactly when it is unused and the deadline has not passed. -/
theorem NonceMeta.isValid_iff {nm : NonceMeta} {nonce : UInt64} :
    nm.isValid env nonce = true ↔
      nonce ∉ nm.usedNonces ∧
        env.timestamp.toNat ≤ min (nm.dueDate.toNat + 2592000) (2 ^ 64 - 1) := by
  unfold NonceMeta.isValid
  split
  · next h => simp [h]
  · next h => simp [h, UInt64.le_iff_toNat_le]

theorem init_eq_ok {signers : List Address} {threshold timelock : UInt32} :
    init s signers threshold timelock = .ok s' ↔
      ∃ ac, AccessControl.init s.ac signers threshold timelock = .ok ac ∧
      s' = { s with ac := ac, feeRate := some 0, collectedFees := some .zero,
                    withdrawnFees := some .zero, reentrancyGuard := some .unlocked } := by
  simp [init, setGuard]

theorem setInvoiceData_eq_ok {borrower financier : Address} {amount : I128} {dueDate : UInt64}
    {interestRate : UInt32} :
    setInvoiceData env s caller invoiceId borrower financier amount dueDate interestRate =
        .ok s' ↔
      (caller ∈ env.auths ∧ AccessControl.isSigner s.ac caller = true) ∧
      s' = { s with
        invoiceData := Function.update s.invoiceData invoiceId
          (some (newRecord invoiceId borrower financier amount dueDate))
        events := s.events ++ [.invoiceSet invoiceId borrower financier amount dueDate] } := by
  simp [setInvoiceData, setRecord, publish]

theorem setFeeRate_eq_ok {feeRate : UInt32} :
    setFeeRate env s caller feeRate = .ok s' ↔
      (caller ∈ env.auths ∧ AccessControl.isSigner s.ac caller = true) ∧
      s' = { s with feeRate := some feeRate, events := s.events ++ [.feeRateSet feeRate] } := by
  simp [setFeeRate, publish]

/-- The record that `settlement_auth` leaves. -/
def authRecord (record : InvoiceRecord) (didPay isBuyer isPayee : Bool) : InvoiceRecord :=
  { record with
    payerApproved := record.payerApproved || (isBuyer && !didPay)
    lenderAllowed := record.lenderAllowed || (isBuyer && !didPay)
    lenderApproved := record.lenderApproved || (isPayee && didPay)
    payerAllowed := record.payerAllowed || (isPayee && didPay) }

/-- `settlement_auth` asks its caller for nothing but the authorization of the call. -/
theorem settlementAuth_eq_ok {didPay isBuyer isPayee : Bool} :
    settlementAuth env s caller invoiceId didPay isBuyer isPayee = .ok s' ↔
      caller ∈ env.auths ∧ ∃ record, s.invoiceData invoiceId = some record ∧
      s' = { s with
        invoiceData := Function.update s.invoiceData invoiceId
          (some (authRecord record didPay isBuyer isPayee))
        events := s.events ++ [.authRecorded invoiceId caller didPay isBuyer isPayee] } := by
  have hrec : ∀ record : InvoiceRecord,
      (let record :=
        if isBuyer && !didPay then { record with payerApproved := true, lenderAllowed := true }
        else record
      if isPayee && didPay then { record with lenderApproved := true, payerAllowed := true }
      else record) = authRecord record didPay isBuyer isPayee := by
    intro record
    cases didPay <;> cases isBuyer <;> cases isPayee <;> simp [authRecord]
  simp only [settlementAuth, bind_eq_ok, requireAuth_eq_ok, getRecord_eq_ok, pure_eq_ok,
    exists_const]
  simp only [setRecord, publish, ← hrec]

/-- The record that `request_settlement_auth` leaves. -/
def requestRecord (record : InvoiceRecord) (caller : Address) : InvoiceRecord :=
  { record with
    payerApproved := record.payerApproved || decide (caller = record.borrower)
    lenderApproved := record.lenderApproved || decide (caller = record.financier) }

/-- `request_settlement_auth` rejects a caller who is no party only while neither flag is set. -/
theorem requestSettlementAuth_eq_ok :
    requestSettlementAuth env s caller invoiceId = .ok s' ↔
      caller ∈ env.auths ∧ ∃ record, s.invoiceData invoiceId = some record ∧
      ((requestRecord record caller).lenderApproved = true ∨
        (requestRecord record caller).payerApproved = true) ∧
      s' = { s with
        invoiceData := Function.update s.invoiceData invoiceId
          (some (requestRecord record caller))
        events := s.events ++ [.authRequested invoiceId caller] } := by
  have hrec : ∀ record : InvoiceRecord,
      (let record :=
        if caller = record.borrower ∧ record.payerApproved = false then
          { record with payerApproved := true }
        else record
      if caller = record.financier ∧ record.lenderApproved = false then
        { record with lenderApproved := true }
      else record) = requestRecord record caller := by
    rintro ⟨id, borrower, financier, amount, due, paid, interest, status, lender, payer, rest⟩
    simp only [requestRecord]
    cases lender <;> cases payer <;> split <;> split <;> simp_all
  simp only [requestSettlementAuth, bind_eq_ok, requireAuth_eq_ok, getRecord_eq_ok, pure_eq_ok,
    exists_const, rejectIf_eq_ok]
  simp only [setRecord, publish, ← hrec, not_and_or, Bool.not_eq_false]

theorem withdrawFees_eq_ok {payee : Address} {amount : I128} :
    withdrawFees env s caller payee amount = .ok s' ↔
      (caller ∈ env.auths ∧ AccessControl.isSigner s.ac caller = true) ∧
      AccessControl.isPaused s.ac = false ∧
      amount.val ≤ (s.collectedFees.getD .zero).val ∧
      ∃ c : I128, c.val = (s.collectedFees.getD .zero).val - amount.val ∧
      ∃ w : I128, w.val = (s.withdrawnFees.getD .zero).val + amount.val ∧
      s' = { s with collectedFees := some c, withdrawnFees := some w,
                    events := s.events ++ [.feesWithdrawn payee amount] } := by
  simp only [withdrawFees, bind_eq_ok, unwrapAc_eq_ok, AccessControl.requireAdmin_eq_ok,
    AccessControl.requireNotPaused_eq_ok, rejectIf_eq_ok, unwrapMath_eq_ok, checkedSub_eq_ok,
    checkedAdd_eq_ok, pure_eq_ok, exists_const, Int.not_lt]
  rfl

/-- The fee and the net of an accepted payment: the floor of the fee rate's share, and the rest. -/
theorem fee_eq_ok {amount : I128} (hpos : 0 < amount.val) {rate : UInt32} {num fee : I128} :
    checkedMul amount (I128.ofUInt32 rate) = .ok num ∧
        checkedDiv num feeDenominator = .ok fee ↔
      num.val = amount.val * rate.toNat ∧ fee.val = amount.val * rate.toNat / 10000 := by
  have hnum : 0 ≤ amount.val * (rate.toNat : Int) := Int.mul_nonneg (Int.le_of_lt hpos) (by omega)
  simp only [checkedMul_eq_ok, checkedDiv_eq_ok, I128.ofUInt32_val]
  constructor
  · rintro ⟨hn, -, hf⟩
    refine ⟨hn, ?_⟩
    rw [hf, hn]
    exact Int.tdiv_eq_ediv_of_nonneg hnum
  · rintro ⟨hn, hf⟩
    refine ⟨hn, by decide, ?_⟩
    rw [hf, hn]
    exact (Int.tdiv_eq_ediv_of_nonneg hnum).symm

/-- The events of an accepted payment: the notification, if a financing pool is set, and the
settlement. -/
def paymentEvents (s : Store) (caller : Address) (invoiceId : Symbol) (nonce : UInt64)
    (amount fee net newPrincipal : I128) : List Event :=
  (match s.financingPoolAddress with
    | some pool => [.notifyFinancingPool invoiceId pool amount net]
    | none => []) ++ [.settled invoiceId caller amount nonce fee net newPrincipal]

theorem settleInvoice_eq_ok {nonce : UInt64} {amount : I128} {authType : UInt32} :
    settleInvoice env s caller invoiceId nonce amount authType = .ok s' ↔
      caller ∈ env.auths ∧ AccessControl.isPaused s.ac = false ∧
      s.reentrancyGuard ≠ some .locked ∧
      (NonceMeta.load s invoiceId).isValid env nonce = true ∧
      ∃ record, s.invoiceData invoiceId = some record ∧
      (0 < amount.val ∧ amount.val ≤ record.amount.val) ∧
      ∃ num : I128, num.val = amount.val * (s.feeRate.getD 0).toNat ∧
      ∃ fee : I128, fee.val = amount.val * (s.feeRate.getD 0).toNat / 10000 ∧
      ∃ net : I128, net.val = amount.val - fee.val ∧
      ∃ c : I128, c.val = (s.collectedFees.getD .zero).val + fee.val ∧
      ∃ p : I128, p.val = record.principalPaid.val + net.val ∧
      s' = { s with
        collectedFees := some c
        invoiceData := Function.update s.invoiceData invoiceId (some (paidRecord record p))
        nonceMeta := Function.update s.nonceMeta invoiceId
          (some ((NonceMeta.load s invoiceId).markUsed nonce))
        reentrancyGuard := some .unlocked
        events := s.events ++ paymentEvents s caller invoiceId nonce amount fee net p } := by
  have hguard : ¬ (s.reentrancyGuard.getD .unlocked = .locked) ↔
      s.reentrancyGuard ≠ some .locked := by
    cases s.reentrancyGuard <;> simp
  simp only [settleInvoice, bind_eq_ok, requireAuth_eq_ok, unwrapAc_eq_ok,
    AccessControl.requireNotPaused_eq_ok, rejectIf_eq_ok, getRecord_eq_ok, unwrapMath_eq_ok,
    checkedSub_eq_ok, checkedAdd_eq_ok, pure_eq_ok, exists_const, hguard, not_or, Int.not_le,
    Int.not_lt, Bool.not_eq_false]
  have hpost : ∀ (record : InvoiceRecord) (fee net c p : I128),
      publish (setGuard (notifyFinancingPool (setGuard
        { setRecord { s with collectedFees := some c } invoiceId (paidRecord record p) with
          nonceMeta := Function.update s.nonceMeta invoiceId
            (some ((NonceMeta.load s invoiceId).markUsed nonce)) } .locked)
        invoiceId amount net) .unlocked)
        (.settled invoiceId caller amount nonce fee net p) =
      { s with
        collectedFees := some c
        invoiceData := Function.update s.invoiceData invoiceId (some (paidRecord record p))
        nonceMeta := Function.update s.nonceMeta invoiceId
          (some ((NonceMeta.load s invoiceId).markUsed nonce))
        reentrancyGuard := some .unlocked
        events := s.events ++ paymentEvents s caller invoiceId nonce amount fee net p } := by
    intro record fee net c p
    simp only [notifyFinancingPool, paymentEvents, setGuard, setRecord]
    cases s.financingPoolAddress <;> simp [publish]
  constructor
  · rintro ⟨h1, h2, h3, h4, record, h5, h6, num, hn, fee, hf, net, hnet, c, hc, p, hp, rfl⟩
    obtain ⟨hn, hf⟩ := (fee_eq_ok h6.1).1 ⟨hn, hf⟩
    exact ⟨h1, h2, h3, h4, record, h5, h6, num, hn, fee, hf, net, hnet, c, hc, p, hp,
      hpost record fee net c p⟩
  · rintro ⟨h1, h2, h3, h4, record, h5, h6, num, hn, fee, hf, net, hnet, c, hc, p, hp, rfl⟩
    obtain ⟨hn, hf⟩ := (fee_eq_ok h6.1).2 ⟨hn, hf⟩
    exact ⟨h1, h2, h3, h4, record, h5, h6, num, hn, fee, hf, net, hnet, c, hc, p, hp,
      (hpost record fee net c p).symm⟩

end

/-! ## The embedded access control -/

/-- The access-control call that a call of the contract forwards. -/
def Call.forwards : Call → Option AccessControl.Call
  | .init signers threshold timelock => some (.init signers threshold timelock)
  | .access o => some (.op o)
  | _ => none

/-- The contract embeds the access-control library. -/
def embedding : Machine.Embedding settlement AccessControl.harness where
  part := Store.ac
  forward i := (Call.forwards i.2).map (i.1, ·)
  init := rfl
  forwarded := by
    rintro ⟨env, c⟩ k s r s' hi hf
    obtain ⟨_, h, heq⟩ := map_eq_ok.1 hi
    cases heq
    cases c with
    | init sg th tl =>
      cases hf
      obtain ⟨ac, hac, rfl⟩ := init_eq_ok.1 h
      exact ⟨(), AccessControl.harness_invoke_eq_ok.2 (.inl ⟨sg, th, tl, rfl, hac⟩)⟩
    | access o =>
      cases hf
      simp only [dispatch, access, bind_eq_ok, unwrapAc_eq_ok, pure_eq_ok] at h
      obtain ⟨ac, hac, rfl⟩ := h
      exact ⟨(), AccessControl.harness_invoke_eq_ok.2 (.inr ⟨o, rfl, hac⟩)⟩
    | _ => cases hf
  kept := by
    rintro ⟨env, c⟩ s r s' hi hf
    obtain ⟨_, h, heq⟩ := map_eq_ok.1 hi
    cases heq
    cases c with
    | init sg th tl => cases hf
    | setAuthorizedPayers c ps =>
      simp only [dispatch, setAuthorizedPayers, bind_eq_ok, pure_eq_ok] at h
      obtain ⟨-, -, rfl⟩ := h
      rfl
    | setFinanciers c ps =>
      simp only [dispatch, setFinanciers, bind_eq_ok, pure_eq_ok] at h
      obtain ⟨-, -, rfl⟩ := h
      rfl
    | setInvoiceData c j b f a d r =>
      have h : setInvoiceData env s c j b f a d r = .ok s' := h
      obtain ⟨-, rfl⟩ := setInvoiceData_eq_ok.1 h
      rfl
    | setFeeRate c rate =>
      obtain ⟨-, rfl⟩ := setFeeRate_eq_ok.1 h
      rfl
    | setEscrowPubkey c k =>
      simp only [dispatch, setEscrowPubkey, bind_eq_ok, pure_eq_ok] at h
      obtain ⟨-, -, rfl⟩ := h
      rfl
    | submitAttestation c pl sig =>
      simp only [dispatch, submitAttestation, bind_eq_ok, pure_eq_ok] at h
      obtain ⟨-, -, -, -, -, -, rfl⟩ := h
      rfl
    | settlementAuth c j d b p =>
      obtain ⟨-, record, -, rfl⟩ := settlementAuth_eq_ok.1 h
      rfl
    | requestSettlementAuth c j =>
      obtain ⟨-, record, -, -, rfl⟩ := requestSettlementAuth_eq_ok.1 h
      rfl
    | withdrawFees c p a =>
      obtain ⟨-, -, -, c', -, w, -, rfl⟩ := withdrawFees_eq_ok.1 h
      rfl
    | setFinancingPoolAddress c p =>
      simp only [dispatch, setFinancingPoolAddress, bind_eq_ok, pure_eq_ok] at h
      obtain ⟨-, -, rfl⟩ := h
      rfl
    | settleInvoice c j n a k =>
      have h : settleInvoice env s c j n a k = .ok s' := h
      obtain ⟨-, -, -, -, record, -, -, num, -, fee, -, net, -, c', -, p, -, rfl⟩ :=
        settleInvoice_eq_ok.1 h
      rfl
    | access o => cases hf

end Settlement

end InvoiceFi
