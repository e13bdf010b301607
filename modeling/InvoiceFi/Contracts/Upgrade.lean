import InvoiceFi.Contracts.Host
import InvoiceFi.Lib.Machine
import InvoiceFi.Lib.Markers

/-!
# Storage migrations (`contracts/upgrade_test_framework`)

The V2 doubles of the invoice, pool and settlement contracts read the records that their V1
contracts stored, migrate them in place, and remember by a marker under a derived key that they did.
The three `migrate`s, and the getters that call them, are one program (`migrate`, `get`) at the
`Versions` of each contract: its guard, its transformation and its errors.

What the host makes of a record of one version that is read as one of the other is a parameter
(`Conversion`), as is the text of an address.
-/

namespace InvoiceFi

namespace Upgrade

/-! ## The storage -/

/-- A stored value: a record of one of the versions, or a version marker. -/
inductive Stored (V1 V2 : Type) where
  | v1 (data : V1)
  | v2 (data : V2)
  | version (number : UInt32)

/-- The storage of a contract, by key. -/
abbrev Storage (V1 V2 : Type) := String → Option (Stored V1 V2)

/-- A record of one version read as one of the other, `none` where the host cannot convert it. -/
structure Conversion (V1 V2 : Type) where
  asV1 : V2 → Option V1
  asV2 : V1 → Option V2

section Reads

variable {V1 V2 ε : Type} (c : Conversion V1 V2)

/-- `env.storage().get`, as a V1 record. A value that cannot be converted traps. -/
def getV1 (s : Storage V1 V2) (id : String) : Result ε (Option V1) :=
  match s id with
  | none => .ok none
  | some (.v1 data) => .ok (some data)
  | some (.v2 data) => some <$> okOr (c.asV1 data) (.panic "ConversionError")
  | some (.version _) => .error (.panic "ConversionError")

/-- `env.storage().get`, as a V2 record. -/
def getV2 (s : Storage V1 V2) (id : String) : Result ε (Option V2) :=
  match s id with
  | none => .ok none
  | some (.v1 data) => some <$> okOr (c.asV2 data) (.panic "ConversionError")
  | some (.v2 data) => .ok (some data)
  | some (.version _) => .error (.panic "ConversionError")

end Reads

/-- `version_key`. -/
def versionKey (id : String) : String := id ++ "_v2"

/-! ## The program of the three contracts -/

/-- The event `("migration", "v1_to_v2")`. -/
structure Migrated where
  id : String
  version : UInt32
  timestamp : UInt64
  deriving DecidableEq

/-- What the three contracts do each in their own way. -/
structure Versions (V1 V2 ε : Type) where
  v1DataNotFound : ε
  alreadyMigrated : ε
  notFound : ε
  guard : Env → String → V1 → Result ε Unit
  transformToV2 : Env → V1 → Result ε V2

section Program

variable {V1 V2 ε : Type} (v : Versions V1 V2 ε) (c : Conversion V1 V2)

/-- `migrate`. -/
def migrate (env : Env) (s : Storage V1 V2) (id : String) :
    Result ε (Storage V1 V2 × Migrated) := do
  let data ← getV1 c s id
  let v1Data ← okOr data (.error v.v1DataNotFound)
  let versionKey := versionKey id
  rejectIf (s versionKey).isSome (.error v.alreadyMigrated)
  v.guard env id v1Data
  let v2Data ← v.transformToV2 env v1Data
  let s := Function.update s id (some (.v2 v2Data))
  let s := Function.update s versionKey (some (.version 2))
  return (s, ⟨id, 2, env.timestamp⟩)

/-- The version check of the getters, which migrate a record that is not marked. -/
def checkVersion (env : Env) (s : Storage V1 V2) (id : String) :
    Result ε (Storage V1 V2 × List Migrated) :=
  if (s (versionKey id)).isSome then .ok (s, [])
  else do
    let (s, event) ← migrate v c env s id
    return (s, [event])

/-- `get_invoice`, `get_pool` and `get_settlement`. -/
def get (env : Env) (s : Storage V1 V2) (id : String) :
    Result ε (V2 × Storage V1 V2 × List Migrated) := do
  let (s, events) ← checkVersion v c env s id
  let data ← getV2 c s id
  let v2Data ← okOr data (.error v.notFound)
  return (v2Data, s, events)

/-- A V2 contract: its storage and the events it has published. -/
structure State (V1 V2 : Type) where
  storage : Storage V1 V2
  events : List Migrated

/-- A call of a V2 contract. -/
inductive Call where
  | migrate (env : Env) (id : String)
  | get (env : Env) (id : String)

/-- What a call returns and leaves. -/
def invoke (st : State V1 V2) : Call → Result ε (Option V2 × State V1 V2)
  | .migrate env id => do
    let (s, event) ← migrate v c env st.storage id
    return (none, ⟨s, st.events ++ [event]⟩)
  | .get env id => do
    let (data, s, events) ← get v c env st.storage id
    return (some data, ⟨s, st.events ++ events⟩)

/-- The contract under the host, from a storage that its V1 contract left. -/
def contract (s : Storage V1 V2) : Machine (State V1 V2) Call (Trap ε) (Option V2) where
  init := ⟨s, []⟩
  invoke call st := invoke v c st call

end Program

/-! ## Invoices (`v2_invoice.rs`) -/

/-- `V1InvoiceStatus`. -/
inductive V1InvoiceStatus where
  | pending
  | funded
  | paid
  | defaulted
  deriving DecidableEq

/-- `V1InvoiceData`, the record of an invoice before the migration. -/
structure V1InvoiceData where
  id : String
  seller : Address
  buyer : Address
  amount : I128
  asset : String
  createdAt : UInt64
  status : V1InvoiceStatus

/-- `V2InvoiceStatus`, with two states that no V1 invoice has. -/
inductive V2InvoiceStatus where
  | pending
  | funded
  | paid
  | defaulted
  | disputed
  | settled
  deriving DecidableEq

/-- `V2PaymentTerms`. -/
structure V2PaymentTerms where
  dueDays : UInt32
  latePenaltyBps : I128
  gracePeriodDays : UInt32

/-- `V2InvoiceData`. -/
structure V2InvoiceData where
  id : String
  seller : Address
  buyer : Address
  amount : I128
  asset : String
  createdAt : UInt64
  status : V2InvoiceStatus
  metadata : String
  collateral : I128
  maturityDate : UInt64
  paymentTerms : V2PaymentTerms
  version : UInt32

/-- `MigrationError` of the invoices. -/
inductive InvoiceMigrationError where
  | v1DataNotFound
  | alreadyMigrated
  | cannotMigratePendingInvoice
  | invoiceNotFound
  | migrationFailed
  deriving DecidableEq

namespace V2InvoiceContract

/-- The V2 status of a migrated invoice. -/
def status : V1InvoiceStatus → V2InvoiceStatus
  | .pending => .pending
  | .funded => .funded
  | .paid => .paid
  | .defaulted => .defaulted

/-- `transform_to_v2`. The `u64` sum of the maturity date panics where it overflows. -/
def transformToV2 (addressText : Address → String) (_ : Env) (v1 : V1InvoiceData) :
    Result InvoiceMigrationError V2InvoiceData := do
  let metadata := "migrated: invoice_" ++ v1.id ++ "_seller_" ++ addressText v1.seller
  let collateral ← okOr (v1.amount.checkedDiv (.lit 10)) (.panic "attempt to divide with overflow")
  rejectIf (2 ^ 64 ≤ v1.createdAt.toNat + 30 * 24 * 60 * 60) (.panic "attempt to add with overflow")
  let maturityDate := v1.createdAt + 30 * 24 * 60 * 60
  let paymentTerms := ⟨30, .lit 500, 3⟩
  return {
    id := v1.id
    seller := v1.seller
    buyer := v1.buyer
    amount := v1.amount
    asset := v1.asset
    createdAt := v1.createdAt
    status := status v1.status
    metadata
    collateral
    maturityDate
    paymentTerms
    version := 2 }

/-- The migration of invoices: a pending one is not migrated. -/
def versions (addressText : Address → String) :
    Versions V1InvoiceData V2InvoiceData InvoiceMigrationError where
  v1DataNotFound := .v1DataNotFound
  alreadyMigrated := .alreadyMigrated
  notFound := .invoiceNotFound
  guard _ _ v1 := rejectIf (v1.status = .pending) (.error .cannotMigratePendingInvoice)
  transformToV2 := transformToV2 addressText

end V2InvoiceContract

/-! ## Pools (`v2_financing_pool.rs`) -/

/-- `V1PoolStatus`. -/
inductive V1PoolStatus where
  | active
  | paused
  | closed
  deriving DecidableEq

/-- `V1PoolData`, the record of a pool before the migration. -/
structure V1PoolData where
  id : String
  admin : Address
  totalCommitted : I128
  totalDeployed : I128
  totalReturned : I128
  createdAt : UInt64
  status : V1PoolStatus

/-- `V2PoolStatus`. -/
inductive V2PoolStatus where
  | active
  | paused
  | closed
  | underReview
  | inactive
  deriving DecidableEq

/-- `V2PerformanceMetrics`. -/
structure V2PerformanceMetrics where
  totalInterestEarned : I128
  defaultRateBps : I128
  averageLoanDurationDays : UInt32
  currentLiquidityRatio : I128

/-- `V2PoolData`. -/
structure V2PoolData where
  id : String
  admin : Address
  totalCommitted : I128
  totalDeployed : I128
  totalReturned : I128
  createdAt : UInt64
  status : V2PoolStatus
  riskScore : UInt32
  maxLeverage : I128
  allowedAssets : List String
  performanceMetrics : V2PerformanceMetrics
  lastAuditDate : UInt64
  version : UInt32

/-- `MigrationError` of the pools. -/
inductive PoolMigrationError where
  | v1DataNotFound
  | alreadyMigrated
  | cannotMigrateWithActiveLoans
  | poolNotFound
  | migrationFailed
  deriving DecidableEq

namespace V2FinancingPool

/-- The V2 status of a migrated pool. -/
def status : V1PoolStatus → V2PoolStatus
  | .active => .active
  | .paused => .paused
  | .closed => .closed

/-- `transform_to_v2`. -/
def transformToV2 (env : Env) (v1 : V1PoolData) : Result PoolMigrationError V2PoolData := do
  let performanceMetrics := ⟨.lit 0, .lit 100, 30, .lit 2000⟩
  return {
    id := v1.id
    admin := v1.admin
    totalCommitted := v1.totalCommitted
    totalDeployed := v1.totalDeployed
    totalReturned := v1.totalReturned
    createdAt := v1.createdAt
    status := status v1.status
    riskScore := 50
    maxLeverage := .lit 1000000
    allowedAssets := ["XLM", "USDC"]
    performanceMetrics
    lastAuditDate := env.timestamp
    version := 2 }

/-- `get_active_loans_count`, which the framework leaves at zero. -/
def getActiveLoansCount (_ : Env) (_ : String) : UInt32 := 0

/-- The migration of pools: one with active loans is not migrated. -/
def versions : Versions V1PoolData V2PoolData PoolMigrationError where
  v1DataNotFound := .v1DataNotFound
  alreadyMigrated := .alreadyMigrated
  notFound := .poolNotFound
  guard env id _ :=
    rejectIf (getActiveLoansCount env id > 0) (.error .cannotMigrateWithActiveLoans)
  transformToV2 := transformToV2

end V2FinancingPool

/-! ## Settlements (`v2_settlement.rs`) -/

/-- `V1SettlementStatus`. -/
inductive V1SettlementStatus where
  | pending
  | completed
  | failed
  deriving DecidableEq

/-- `V1SettlementData`, the record of a settlement before the migration. -/
structure V1SettlementData where
  id : String
  invoiceId : String
  payer : Address
  payee : Address
  amount : I128
  asset : String
  settledAt : UInt64
  status : V1SettlementStatus

/-- `V2SettlementStatus`. -/
inductive V2SettlementStatus where
  | pending
  | completed
  | failed
  | reversed
  | confirmed
  deriving DecidableEq

/-- `V2SettlementType`. -/
inductive V2SettlementType where
  | standard
  | instant
  | delayed
  | conditional

/-- `V2FinalityStatus`. -/
inductive V2FinalityStatus where
  | pending
  | confirmed
  | finalized

/-- `V2SettlementData`. -/
structure V2SettlementData where
  id : String
  invoiceId : String
  payer : Address
  payee : Address
  amount : I128
  asset : String
  settledAt : UInt64
  status : V2SettlementStatus
  confirmationBlock : UInt64
  transactionHash : String
  feeAmount : I128
  settlementType : V2SettlementType
  finalityStatus : V2FinalityStatus
  version : UInt32

/-- `MigrationError` of the settlements. -/
inductive SettlementMigrationError where
  | v1DataNotFound
  | alreadyMigrated
  | cannotMigratePendingSettlement
  | settlementNotFound
  | migrationFailed
  deriving DecidableEq

namespace V2Settlement

/-- The V2 status of a migrated settlement. -/
def status : V1SettlementStatus → V2SettlementStatus
  | .pending => .pending
  | .completed => .confirmed
  | .failed => .failed

/-- `transform_to_v2`. -/
def transformToV2 (env : Env) (v1 : V1SettlementData) :
    Result SettlementMigrationError V2SettlementData := do
  let confirmationBlock := env.sequence.toUInt64
  let transactionHash := "txn_" ++ v1.id
  let feeAmount ← okOr (v1.amount.checkedDiv (.lit 1000)) (.panic "attempt to divide with overflow")
  return {
    id := v1.id
    invoiceId := v1.invoiceId
    payer := v1.payer
    payee := v1.payee
    amount := v1.amount
    asset := v1.asset
    settledAt := v1.settledAt
    status := status v1.status
    confirmationBlock
    transactionHash
    feeAmount
    settlementType := .standard
    finalityStatus := .finalized
    version := 2 }

/-- The migration of settlements: a pending one is not migrated. -/
def versions : Versions V1SettlementData V2SettlementData SettlementMigrationError where
  v1DataNotFound := .v1DataNotFound
  alreadyMigrated := .alreadyMigrated
  notFound := .settlementNotFound
  guard _ _ v1 := rejectIf (v1.status = .pending) (.error .cannotMigratePendingSettlement)
  transformToV2 := transformToV2

end V2Settlement

end Upgrade

end InvoiceFi
