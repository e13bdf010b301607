import InvoiceFi.Backend.Database
import Mathlib.Data.List.Basic
import Std.Data.String.ToInt

/-!
# The readers of the funded invoices (`compliance/`, `invoices/invoices.service.ts`)

The transactions export (`buildTransactionsExport`, `compliance/fatf.ts`), the investor report
(`buildInvestorExport`, `compliance/investor-report.ts`) and the list of an investor's invoices
(`byInvestor`). The documents are modelled up to their rendering as CSV or JSON and their signature.

All of them find the funder of an invoice in the column `investor`, so an invoice is reportable for
a wallet exactly if that column names it (`reportable_iff`).
-/

namespace InvoiceFi

namespace Backend

/-! ## Amounts (`compliance/amount.ts`) -/

/-- `DEFAULT_ASSET_DECIMALS`. -/
def defaultAssetDecimals : Nat := 7

/-- `minorUnitsToDecimal`. -/
def minorUnitsToDecimal (value : Int) (decimals : Nat) : String :=
  let digits := (padStart (decimals + 1) (toString value.natAbs)).toList
  let whole := String.ofList (digits.take (digits.length - decimals))
  let fraction :=
    if 0 < decimals then String.ofList (digits.drop (digits.length - decimals)) else ""
  let sign := if value < 0 then "-" else ""
  if fraction = "" then sign ++ whole else sign ++ whole ++ "." ++ fraction

example : minorUnitsToDecimal (-12345) 4 = "-1.2345" := by decide +kernel

/-! ## Travel rule records (`compliance/fatf.ts`) -/

/-- `FatfTransactionType`. -/
inductive FatfTransactionType where
  | financing
  | repayment
  deriving DecidableEq, Repr

/-- The name of a transaction type in a record. -/
def FatfTransactionType.name : FatfTransactionType → String
  | .financing => "FINANCING"
  | .repayment => "REPAYMENT"

/-- `FatfRecord`. -/
structure FatfRecord where
  transactionRef : String
  invoiceOnchainId : String
  transactionType : FatfTransactionType
  transactionDate : String
  ledgerSequence : Option Nat
  invoiceStatus : String
  originatorAccount : String
  originatorName : Option String
  beneficiaryAccount : String
  beneficiaryName : Option String
  amountMinorUnits : String
  amountDecimal : String
  assetCode : String
  kycStatus : String
  deriving DecidableEq

/-- `FatfBuildOptions`. -/
structure FatfBuildOptions where
  thresholdMinorUnits : Int
  defaultAssetCode : String
  assetDecimals : Option Nat
  rangeStart : Option Int
  rangeEnd : Option Int

/-- `withinRange`. A bound may lie before the epoch. -/
def withinRange (date : Nat) (rangeStart rangeEnd : Option Int) : Bool :=
  rangeStart.all (fun bound => decide (bound ≤ (date : Int))) &&
    rangeEnd.all (fun bound => decide ((date : Int) ≤ bound))

/-- The transfer that a record is made of. -/
structure Transfer where
  date : Nat
  ledger : Option Nat
  originator : String
  beneficiary : String
  amount : Int
  assetCode : String
  decimals : Nat

/-- `record`. -/
def record (invoice : Invoice) (type : FatfTransactionType) (fields : Transfer) : FatfRecord where
  transactionRef := toString invoice.onchainId ++ ":" ++ type.name
  invoiceOnchainId := toString invoice.onchainId
  transactionType := type
  transactionDate := toISOString fields.date
  ledgerSequence := fields.ledger
  invoiceStatus := invoice.status.name
  originatorAccount := fields.originator
  originatorName := none
  beneficiaryAccount := fields.beneficiary
  beneficiaryName := none
  amountMinorUnits := toString fields.amount
  amountDecimal := minorUnitsToDecimal fields.amount fields.decimals
  assetCode := fields.assetCode
  kycStatus := "UNAVAILABLE"

/-- The financing of an invoice by `investor`, if it is large enough and lies in the range. -/
def financing (options : FatfBuildOptions) (invoice : Invoice) (investor : String) :
    List FatfRecord :=
  let financedAmount := invoice.fundedAmount.getD invoice.faceValue
  let financedDate := invoice.createdAt
  if options.thresholdMinorUnits ≤ financedAmount ∧
      withinRange financedDate options.rangeStart options.rangeEnd = true then
    [record invoice .financing
      { date := financedDate
        ledger := none
        originator := investor
        beneficiary := invoice.farmer
        amount := financedAmount
        assetCode := invoice.assetCode.getD options.defaultAssetCode
        decimals := options.assetDecimals.getD defaultAssetDecimals }]
  else []

/-- The repayment of an invoice to `investor`, if it is large enough and lies in the range. -/
def repayment (options : FatfBuildOptions) (invoice : Invoice) (investor : String) :
    List FatfRecord :=
  if invoice.status = .repaid then
    let repaidAmount := invoice.repaidAmount.getD invoice.faceValue
    let repaidDate := invoice.settledAt.getD invoice.updatedAt
    if options.thresholdMinorUnits ≤ repaidAmount ∧
        withinRange repaidDate options.rangeStart options.rangeEnd = true then
      [record invoice .repayment
        { date := repaidDate
          ledger := invoice.settledLedger
          originator := invoice.farmer
          beneficiary := investor
          amount := repaidAmount
          assetCode := invoice.assetCode.getD options.defaultAssetCode
          decimals := options.assetDecimals.getD defaultAssetDecimals }]
    else []
  else []

/-- The records of one invoice. Without an investor there are none. -/
def fatfRecords (options : FatfBuildOptions) (invoice : Invoice) : List FatfRecord :=
  match invoice.investor with
  | none => []
  | some investor =>
    if investor = "" then []
    else financing options invoice investor ++ repayment options invoice investor

/-- `buildFatfRecords`. -/
def buildFatfRecords (invoices : List Invoice) (options : FatfBuildOptions) : List FatfRecord :=
  invoices.flatMap (fatfRecords options)

/-! ## The investor report (`compliance/investor-report.ts`) -/

/-- `InvestorPosition`. -/
structure InvestorPosition where
  invoiceOnchainId : String
  status : String
  farmer : String
  assetCode : String
  faceValueMinorUnits : String
  costBasisMinorUnits : String
  proceedsMinorUnits : Option String
  realizedPnlMinorUnits : Option String
  unrealizedValueMinorUnits : Option String
  fundedAt : String
  settledAt : Option String
  deriving DecidableEq

/-- `Money`. -/
structure Money where
  minorUnits : String
  decimal : String
  deriving DecidableEq

/-- `InvestorReportSummary`. -/
structure InvestorReportSummary where
  totalInvoices : Nat
  fundedCount : Nat
  repaidCount : Nat
  defaultedCount : Nat
  totalFaceValue : Money
  totalCostBasis : Money
  realizedProceeds : Money
  realizedPnl : Money
  outstandingCostBasis : Money
  defaultedCostBasis : Money
  unrealizedValue : Money
  deriving DecidableEq

/-- `InvestorReport`. -/
structure InvestorReport where
  investor : String
  assetCode : String
  positions : List InvestorPosition
  summary : InvestorReportSummary
  deriving DecidableEq

/-- `InvestorReportOptions`. -/
structure InvestorReportOptions where
  defaultAssetCode : String
  assetDecimals : Option Nat

/-- The variables of the loop of `buildInvestorReport`. -/
structure ReportState where
  positions : List InvestorPosition
  fundedCount : Nat
  repaidCount : Nat
  defaultedCount : Nat
  totalFaceValue : Int
  totalCostBasis : Int
  realizedProceeds : Int
  realizedPnl : Int
  outstandingCostBasis : Int
  defaultedCostBasis : Int
  unrealizedValue : Int

/-- `costBasis`. -/
def costBasis (invoice : Invoice) : Int := invoice.fundedAmount.getD invoice.faceValue

/-- The position of an invoice, with its proceeds, its realized profit and its unrealized value. -/
def position (options : InvestorReportOptions) (invoice : Invoice)
    (proceeds realizedPnl unrealized : Option Int) : InvestorPosition where
  invoiceOnchainId := toString invoice.onchainId
  status := invoice.status.name
  farmer := invoice.farmer
  assetCode := invoice.assetCode.getD options.defaultAssetCode
  faceValueMinorUnits := toString invoice.faceValue
  costBasisMinorUnits := toString (costBasis invoice)
  proceedsMinorUnits := proceeds.map toString
  realizedPnlMinorUnits := realizedPnl.map toString
  unrealizedValueMinorUnits := unrealized.map toString
  fundedAt := toISOString invoice.createdAt
  settledAt := invoice.settledAt.map toISOString

/-- One pass through the loop of `buildInvestorReport`. -/
def reportInvoice (investor : String) (options : InvestorReportOptions) (st : ReportState)
    (invoice : Invoice) : ReportState :=
  if invoice.investor ≠ some investor then st
  else
    let basis := costBasis invoice
    let st := { st with
      totalFaceValue := st.totalFaceValue + invoice.faceValue
      totalCostBasis := st.totalCostBasis + basis }
    match invoice.status with
    | .repaid =>
      let proceeds := invoice.repaidAmount.getD invoice.faceValue
      { st with
        positions := st.positions ++
          [position options invoice (some proceeds) (some (proceeds - basis)) none]
        repaidCount := st.repaidCount + 1
        realizedProceeds := st.realizedProceeds + proceeds
        realizedPnl := st.realizedPnl + (proceeds - basis) }
    | .defaulted =>
      { st with
        positions := st.positions ++ [position options invoice (some 0) (some (-basis)) none]
        defaultedCount := st.defaultedCount + 1
        realizedPnl := st.realizedPnl + -basis
        defaultedCostBasis := st.defaultedCostBasis + basis }
    | .funded =>
      { st with
        positions := st.positions ++
          [position options invoice none none (some (invoice.faceValue - basis))]
        fundedCount := st.fundedCount + 1
        outstandingCostBasis := st.outstandingCostBasis + basis
        unrealizedValue := st.unrealizedValue + (invoice.faceValue - basis) }
    | .pending =>
      { st with positions := st.positions ++ [position options invoice none none none] }

/-- `buildInvestorReport`. -/
def buildInvestorReport (investor : String) (invoices : List Invoice)
    (options : InvestorReportOptions) : InvestorReport :=
  let decimals := options.assetDecimals.getD defaultAssetDecimals
  let money (value : Int) : Money := ⟨toString value, minorUnitsToDecimal value decimals⟩
  let st := invoices.foldl (reportInvoice investor options) ⟨[], 0, 0, 0, 0, 0, 0, 0, 0, 0, 0⟩
  { investor := investor
    assetCode := options.defaultAssetCode
    positions := st.positions
    summary :=
      { totalInvoices := st.positions.length
        fundedCount := st.fundedCount
        repaidCount := st.repaidCount
        defaultedCount := st.defaultedCount
        totalFaceValue := money st.totalFaceValue
        totalCostBasis := money st.totalCostBasis
        realizedProceeds := money st.realizedProceeds
        realizedPnl := money st.realizedPnl
        outstandingCostBasis := money st.outstandingCostBasis
        defaultedCostBasis := money st.defaultedCostBasis
        unrealizedValue := money st.unrealizedValue } }

/-! ## The exports (`compliance/compliance.service.ts`) -/

/-- `ComplianceConfig`: the default asset. -/
structure ComplianceConfig where
  assetCode : String
  assetDecimals : Nat

/-- `TransactionParams`. -/
structure TransactionParams where
  subject : Option String
  thresholdMinorUnits : Int
  rangeStart : Option Int
  rangeEnd : Option Int

/-- `orderBy: { onchainId: 'asc' }`. -/
def orderByOnchainId (invoices : List Invoice) : List Invoice :=
  invoices.mergeSort fun a b => decide (a.onchainId ≤ b.onchainId)

/-- The condition of the query of `buildTransactionsExport`. -/
def concerns (subject : Option String) (invoice : Invoice) : Bool :=
  match subject with
  | none => true
  | some subject =>
    decide (subject = "" ∨ invoice.farmer = subject ∨ invoice.investor = some subject)

/-- `buildTransactionsExport`, up to the rendering of the records. -/
def buildTransactionsExport (config : ComplianceConfig) (params : TransactionParams) (db : Db) :
    List FatfRecord :=
  buildFatfRecords (orderByOnchainId (db.invoices.rows.filter (concerns params.subject)))
    { thresholdMinorUnits := params.thresholdMinorUnits
      defaultAssetCode := config.assetCode
      assetDecimals := some config.assetDecimals
      rangeStart := params.rangeStart
      rangeEnd := params.rangeEnd }

/-- `buildInvestorExport`, up to the rendering of the report. -/
def buildInvestorExport (config : ComplianceConfig) (subject : String) (db : Db) :
    InvestorReport :=
  buildInvestorReport subject
    (orderByOnchainId
      (db.invoices.rows.filter fun invoice => decide (invoice.investor = some subject)))
    { defaultAssetCode := config.assetCode
      assetDecimals := some config.assetDecimals }

/-! ## The list of an investor (`invoices/invoices.service.ts`) -/

/-- `InvoiceDto`. -/
structure InvoiceDto where
  id : Int
  onchainId : String
  status : String
  faceValue : String
  farmer : String
  investor : Option String
  settledLedger : Option Nat
  settledAt : Option String
  createdAt : String
  updatedAt : String
  deriving DecidableEq

/-- `toDto`. -/
def toDto (invoice : Invoice) : InvoiceDto where
  id := invoice.id
  onchainId := toString invoice.onchainId
  status := invoice.status.name
  faceValue := toString invoice.faceValue
  farmer := invoice.farmer
  investor := invoice.investor
  settledLedger := invoice.settledLedger
  settledAt := invoice.settledAt.map toISOString
  createdAt := toISOString invoice.createdAt
  updatedAt := toISOString invoice.updatedAt

/-- `byInvestor`, the newest invoice first. -/
def byInvestor (investor : String) (db : Db) : List InvoiceDto :=
  ((db.invoices.rows.filter fun invoice => decide (invoice.investor = some investor)).mergeSort
    fun a b => decide (b.createdAt ≤ a.createdAt)).map toDto

/-! ## What the readers list -/

/-- A decimal text determines its number. -/
theorem toString_int_injective : Function.Injective (toString : Int → String) :=
  fun _ _ h => Int.repr_injective h

/-- The positions of a report are those of the invoices of its investor. -/
theorem positions_foldl (investor : String) (options : InvestorReportOptions)
    (invoices : List Invoice) (st : ReportState) (i : String) :
    (∃ p ∈ (invoices.foldl (reportInvoice investor options) st).positions,
        p.invoiceOnchainId = i) ↔
      (∃ p ∈ st.positions, p.invoiceOnchainId = i) ∨
      ∃ r ∈ invoices, r.investor = some investor ∧ toString r.onchainId = i := by
  induction invoices generalizing st with
  | nil => simp
  | cons r rest ih =>
    rw [List.foldl_cons, ih]
    have hstep : (∃ p ∈ (reportInvoice investor options st r).positions,
        p.invoiceOnchainId = i) ↔ (∃ p ∈ st.positions, p.invoiceOnchainId = i) ∨
          (r.investor = some investor ∧ toString r.onchainId = i) := by
      unfold reportInvoice
      split
      · next hne => simp [hne]
      · next heq =>
        rw [not_not] at heq
        cases r.status <;> simp [heq, position, or_and_right, exists_or]
    rw [hstep]
    simp [or_assoc]

/-- The record list holds the financing of an invoice by a wallet. -/
def HasFinancing (records : List FatfRecord) (r : Invoice) (wallet : String) : Prop :=
  ∃ rec ∈ records, rec.transactionType = .financing ∧
    rec.invoiceOnchainId = toString r.onchainId ∧ rec.originatorAccount = wallet

/-- A threshold and a date range admit the financing of an invoice. -/
def Admits (params : TransactionParams) (r : Invoice) : Prop :=
  params.thresholdMinorUnits ≤ r.fundedAmount.getD r.faceValue ∧
    withinRange r.createdAt params.rangeStart params.rangeEnd = true

/-- The records of an invoice hold its financing by the wallet that its `investor` column names. -/
theorem hasFinancing_fatfRecords {options : FatfBuildOptions} {r r' : Invoice} {wallet : String} :
    HasFinancing (fatfRecords options r') r wallet ↔
      r'.onchainId = r.onchainId ∧ r'.investor = some wallet ∧ wallet ≠ "" ∧
      options.thresholdMinorUnits ≤ r'.fundedAmount.getD r'.faceValue ∧
      withinRange r'.createdAt options.rangeStart options.rangeEnd = true := by
  constructor
  · rintro ⟨rec, hrec, htype, hid, horig⟩
    unfold fatfRecords at hrec
    split at hrec
    · cases hrec
    · next investor hinv =>
      split at hrec
      · cases hrec
      · next hne =>
        rcases List.mem_append.1 hrec with hrec | hrec
        · unfold financing at hrec
          dsimp only at hrec
          split at hrec
          · next hadm =>
            rw [List.mem_singleton.1 hrec] at hid horig
            cases horig
            exact ⟨toString_int_injective hid, hinv, hne, hadm⟩
          · cases hrec
        · -- a repayment is no financing
          unfold repayment at hrec
          dsimp only at hrec
          split at hrec
          · split at hrec
            · rw [List.mem_singleton.1 hrec] at htype
              cases htype
            · cases hrec
          · cases hrec
  · rintro ⟨hid, hinv, hne, hadm⟩
    rw [fatfRecords, hinv]
    dsimp only
    rw [if_neg hne, financing, if_pos hadm]
    exact ⟨_, List.mem_append_left _ (.head _), rfl, congrArg toString hid, rfl⟩

/-- The transactions export of a subject holds the financing of an invoice by a wallet exactly if
the column `investor` of the invoice names the wallet, the subject is a party to the invoice, and
the amount and the date are admitted. -/
theorem hasFinancing_export {config : ComplianceConfig} {params : TransactionParams} {db : Db}
    {r : Invoice} (hr : r ∈ db.invoices.rows) {wallet : String} :
    HasFinancing (buildTransactionsExport config params db) r wallet ↔
      concerns params.subject r = true ∧ r.investor = some wallet ∧ wallet ≠ "" ∧
        Admits params r := by
  have hflat : ∀ {options : FatfBuildOptions} {l : List Invoice},
      HasFinancing (buildFatfRecords l options) r wallet ↔
        ∃ r' ∈ l, HasFinancing (fatfRecords options r') r wallet := by
    intro options l
    simp only [HasFinancing, buildFatfRecords, List.mem_flatMap]
    constructor
    · rintro ⟨rec, ⟨r', hr', hrec⟩, h⟩
      exact ⟨r', hr', rec, hrec, h⟩
    · rintro ⟨r', hr', rec, hrec, h⟩
      exact ⟨rec, ⟨r', hr', hrec⟩, h⟩
  rw [buildTransactionsExport, hflat]
  simp only [orderByOnchainId, List.mem_mergeSort, List.mem_filter, hasFinancing_fatfRecords]
  constructor
  · rintro ⟨r', ⟨hr', hsubject⟩, hid, hrest⟩
    rw [InvoiceTable.eq_of_onchainId hr' hr hid] at hsubject hrest
    exact ⟨hsubject, hrest⟩
  · rintro ⟨hsubject, hrest⟩
    exact ⟨r, ⟨hr, hsubject⟩, rfl, hrest⟩

/-- The investor report holds a position for an invoice exactly if its column `investor` names the
investor. -/
theorem position_export {config : ComplianceConfig} {db : Db} {r : Invoice}
    (hr : r ∈ db.invoices.rows) {wallet : String} :
    (∃ p ∈ (buildInvestorExport config wallet db).positions,
      p.invoiceOnchainId = toString r.onchainId) ↔ r.investor = some wallet := by
  rw [buildInvestorExport, buildInvestorReport, positions_foldl]
  simp only [orderByOnchainId, List.mem_mergeSort, List.mem_filter, decide_eq_true_eq,
    List.not_mem_nil, false_and, exists_false, false_or]
  constructor
  · rintro ⟨r', ⟨hr', -⟩, hinv, hid⟩
    rw [← InvoiceTable.eq_of_onchainId hr' hr (toString_int_injective hid)]
    exact hinv
  · intro hinv
    exact ⟨r, ⟨hr, hinv⟩, hinv, rfl⟩

/-- The list of an investor holds an invoice exactly if its column `investor` names the investor. -/
theorem byInvestor_iff {db : Db} {r : Invoice} (hr : r ∈ db.invoices.rows) {wallet : String} :
    (∃ d ∈ byInvestor wallet db, d.onchainId = toString r.onchainId) ↔
      r.investor = some wallet := by
  simp only [byInvestor, List.mem_map, List.mem_mergeSort, List.mem_filter, decide_eq_true_eq]
  constructor
  · rintro ⟨_, ⟨r', ⟨hr', hinv⟩, rfl⟩, hid⟩
    rw [← InvoiceTable.eq_of_onchainId hr' hr (toString_int_injective hid)]
    exact hinv
  · intro hinv
    exact ⟨_, ⟨r, ⟨hr, hinv⟩, rfl⟩, rfl⟩

/-- Every reader lists the funding of the invoice by the wallet: the transactions exports for all
subjects, for the wallet and for the farmer, the report of the wallet, and its list of invoices. -/
structure Reportable (config : ComplianceConfig) (threshold : Int)
    (rangeStart rangeEnd : Option Int) (db : Db) (r : Invoice) (wallet : String) : Prop where
  all : HasFinancing (buildTransactionsExport config ⟨none, threshold, rangeStart, rangeEnd⟩ db)
    r wallet
  originator : HasFinancing
    (buildTransactionsExport config ⟨some wallet, threshold, rangeStart, rangeEnd⟩ db) r wallet
  farmer : HasFinancing
    (buildTransactionsExport config ⟨some r.farmer, threshold, rangeStart, rangeEnd⟩ db) r wallet
  position : ∃ p ∈ (buildInvestorExport config wallet db).positions,
    p.invoiceOnchainId = toString r.onchainId
  listed : ∃ d ∈ byInvestor wallet db, d.onchainId = toString r.onchainId

/-- **An invoice is reportable for a wallet exactly if its column `investor` names the wallet**,
given an amount and a date that the export admits. -/
theorem reportable_iff {config : ComplianceConfig} {threshold : Int}
    {rangeStart rangeEnd : Option Int} {db : Db} {r : Invoice} (hr : r ∈ db.invoices.rows)
    {wallet : String} (hadm : Admits ⟨none, threshold, rangeStart, rangeEnd⟩ r) :
    Reportable config threshold rangeStart rangeEnd db r wallet ↔
      r.investor = some wallet ∧ wallet ≠ "" := by
  constructor
  · intro h
    obtain ⟨-, hinv, hne, -⟩ := (hasFinancing_export hr).1 h.all
    exact ⟨hinv, hne⟩
  · rintro ⟨hinv, hne⟩
    refine ⟨(hasFinancing_export hr).2 ⟨rfl, hinv, hne, hadm⟩,
      (hasFinancing_export hr).2 ⟨?_, hinv, hne, hadm⟩,
      (hasFinancing_export hr).2 ⟨?_, hinv, hne, hadm⟩, (position_export hr).2 hinv,
      (byInvestor_iff hr).2 hinv⟩
    · exact decide_eq_true (.inr (.inr hinv))
    · exact decide_eq_true (.inr (.inl rfl))

end Backend

end InvoiceFi
