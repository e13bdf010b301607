import InvoiceFi.Backend.Compliance
import Mathlib.Algebra.BigOperators.Group.List.Basic
import Mathlib.Algebra.Ring.Int.Defs
import Std.Data.String.ToInt

/-!
# When the investor report balances (`compliance/investor-report.ts`)

`Balances` says what the totals of a report are to be: the sums of its columns. The loop of
`buildInvestorReport` keeps its accumulators in step with the positions it lists (`Books`), of which
the pending ones are in none of the counts; so a report balances exactly if the investor holds no
pending invoice (`balances_iff`).
-/

namespace InvoiceFi

namespace Backend

namespace Compliance

/-! ## The columns of a report -/

/-- The number of minor units that a text states. -/
def units (text : String) : Int := text.toInt?.getD 0

@[simp] theorem units_repr (n : Int) : units n.repr = n :=
  congrArg (Option.getD · 0) (Int.toInt?_repr n)

/-- The sum of a column, where `null` adds nothing. -/
def column (field : InvestorPosition → Option String) (positions : List InvestorPosition) : Int :=
  (positions.map fun p => ((field p).map units).getD 0).sum

/-- The positions with a status. -/
def withStatus (status : InvoiceStatus) (positions : List InvestorPosition) :
    List InvestorPosition :=
  positions.filter fun p => decide (p.status = status.name)

/-- The column of the cost bases. -/
def costBases (positions : List InvestorPosition) : Int :=
  column (fun p => some p.costBasisMinorUnits) positions

/-- A report balances: its counts are those of its positions, its totals are the sums of their
columns, and the profit realized is what came in less what it has cost. -/
structure Balances (report : InvestorReport) : Prop where
  counts : report.summary.totalInvoices =
    report.summary.fundedCount + report.summary.repaidCount + report.summary.defaultedCount
  listed : report.summary.totalInvoices = report.positions.length
  pnl : units report.summary.realizedPnl.minorUnits =
    units report.summary.realizedProceeds.minorUnits -
      (units report.summary.totalCostBasis.minorUnits -
        units report.summary.outstandingCostBasis.minorUnits)
  open_ : units report.summary.unrealizedValue.minorUnits =
    ((withStatus .funded report.positions).map fun p =>
      units p.faceValueMinorUnits - units p.costBasisMinorUnits).sum
  faceValue : units report.summary.totalFaceValue.minorUnits =
    column (fun p => some p.faceValueMinorUnits) report.positions
  costBasis : units report.summary.totalCostBasis.minorUnits = costBases report.positions
  proceeds : units report.summary.realizedProceeds.minorUnits =
    column InvestorPosition.proceedsMinorUnits report.positions
  realized : units report.summary.realizedPnl.minorUnits =
    column InvestorPosition.realizedPnlMinorUnits report.positions
  unrealized : units report.summary.unrealizedValue.minorUnits =
    column InvestorPosition.unrealizedValueMinorUnits report.positions
  outstanding : units report.summary.outstandingCostBasis.minorUnits =
    costBases (withStatus .funded report.positions)
  defaulted : units report.summary.defaultedCostBasis.minorUnits =
    costBases (withStatus .defaulted report.positions)

theorem column_append (field : InvestorPosition → Option String)
    (first second : List InvestorPosition) :
    column field (first ++ second) = column field first + column field second := by
  rw [column, List.map_append, List.sum_append]
  rfl

theorem costBases_append (first second : List InvestorPosition) :
    costBases (first ++ second) = costBases first + costBases second :=
  column_append ..

theorem withStatus_append (status : InvoiceStatus) (first second : List InvestorPosition) :
    withStatus status (first ++ second) = withStatus status first ++ withStatus status second :=
  List.filter_append ..

theorem statusName_inj {status status' : InvoiceStatus} (h : status.name = status'.name) :
    status = status' := by
  cases status <;> cases status' <;> first | rfl | exact absurd h (by decide)

/-! ## Rows -/

/-- The position that the loop lists for an invoice. -/
def positionOf (options : InvestorReportOptions) (invoice : Invoice) : InvestorPosition :=
  match invoice.status with
  | .repaid =>
    position options invoice (some (invoice.repaidAmount.getD invoice.faceValue))
      (some (invoice.repaidAmount.getD invoice.faceValue - costBasis invoice)) none
  | .defaulted => position options invoice (some 0) (some (-costBasis invoice)) none
  | .funded => position options invoice none none (some (invoice.faceValue - costBasis invoice))
  | .pending => position options invoice none none none

theorem positionOf_status (options : InvestorReportOptions) (invoice : Invoice) :
    (positionOf options invoice).status = invoice.status.name := by
  unfold positionOf
  split <;> rfl

/-- What a row has to say for the totals to balance: it is counted once, a pending row apart, its
profit is what came in less what it has cost, and only an open row is worth more than its cost. -/
structure Row (p : InvestorPosition) : Prop where
  counts : (withStatus .funded [p]).length + (withStatus .repaid [p]).length +
    (withStatus .defaulted [p]).length + (withStatus .pending [p]).length = 1
  pnl : column InvestorPosition.realizedPnlMinorUnits [p] =
    column InvestorPosition.proceedsMinorUnits [p] -
      (costBases [p] - costBases (withStatus .funded [p])) + costBases (withStatus .pending [p])
  open_ : column InvestorPosition.unrealizedValueMinorUnits [p] =
    ((withStatus .funded [p]).map fun p =>
      units p.faceValueMinorUnits - units p.costBasisMinorUnits).sum

theorem row_positionOf (options : InvestorReportOptions) (invoice : Invoice) :
    Row (positionOf options invoice) := by
  unfold positionOf
  cases hstatus : invoice.status with
  | pending | funded | repaid | defaulted =>
    constructor <;>
      simp [column, costBases, withStatus, position, hstatus, InvoiceStatus.name]

/-! ## The loop -/

/-- The variables of the loop after a row, by what the row says. -/
def ReportState.push (st : ReportState) (p : InvestorPosition) : ReportState where
  positions := st.positions ++ [p]
  fundedCount := st.fundedCount + (withStatus .funded [p]).length
  repaidCount := st.repaidCount + (withStatus .repaid [p]).length
  defaultedCount := st.defaultedCount + (withStatus .defaulted [p]).length
  totalFaceValue := st.totalFaceValue + column (fun p => some p.faceValueMinorUnits) [p]
  totalCostBasis := st.totalCostBasis + costBases [p]
  realizedProceeds := st.realizedProceeds + column InvestorPosition.proceedsMinorUnits [p]
  realizedPnl := st.realizedPnl + column InvestorPosition.realizedPnlMinorUnits [p]
  outstandingCostBasis := st.outstandingCostBasis + costBases (withStatus .funded [p])
  defaultedCostBasis := st.defaultedCostBasis + costBases (withStatus .defaulted [p])
  unrealizedValue := st.unrealizedValue + column InvestorPosition.unrealizedValueMinorUnits [p]

/-- **What one pass through the loop does**: it adds the row of an invoice of the investor. -/
theorem reportInvoice_eq (investor : String) (options : InvestorReportOptions) (st : ReportState)
    (invoice : Invoice) :
    reportInvoice investor options st invoice =
      if invoice.investor = some investor then ReportState.push st (positionOf options invoice)
      else st := by
  unfold reportInvoice positionOf
  by_cases hinvestor : invoice.investor = some investor
  · rw [if_neg (not_not.2 hinvestor), if_pos hinvestor]
    cases hstatus : invoice.status with
    | pending | funded | repaid | defaulted =>
      simp [ReportState.push, column, costBases, withStatus, position, hstatus,
        InvoiceStatus.name]
  · rw [if_pos hinvestor, if_neg hinvestor]

/-- What the accumulators of the loop are to the positions listed so far. -/
structure Books (st : ReportState) : Prop where
  counts : st.fundedCount + st.repaidCount + st.defaultedCount +
    (withStatus .pending st.positions).length = st.positions.length
  pnl : st.realizedPnl = st.realizedProceeds - (st.totalCostBasis - st.outstandingCostBasis) +
    costBases (withStatus .pending st.positions)
  open_ : st.unrealizedValue = ((withStatus .funded st.positions).map fun p =>
    units p.faceValueMinorUnits - units p.costBasisMinorUnits).sum
  faceValue : st.totalFaceValue = column (fun p => some p.faceValueMinorUnits) st.positions
  costBasis : st.totalCostBasis = costBases st.positions
  proceeds : st.realizedProceeds = column InvestorPosition.proceedsMinorUnits st.positions
  realized : st.realizedPnl = column InvestorPosition.realizedPnlMinorUnits st.positions
  unrealized : st.unrealizedValue = column InvestorPosition.unrealizedValueMinorUnits st.positions
  outstanding : st.outstandingCostBasis = costBases (withStatus .funded st.positions)
  defaulted : st.defaultedCostBasis = costBases (withStatus .defaulted st.positions)

/-- A row keeps the accumulators in step with the positions. -/
theorem Books.push {st : ReportState} (h : Books st) {p : InvestorPosition} (hp : Row p) :
    Books (ReportState.push st p) where
  counts := by
    have hrow := hp.counts
    have hcounts := h.counts
    simp only [ReportState.push, withStatus_append, List.length_append, List.length_singleton]
    omega
  pnl := by
    rw [ReportState.push, withStatus_append, costBases_append, h.pnl, hp.pnl]
    dsimp only
    omega
  open_ := by
    rw [ReportState.push, withStatus_append, List.map_append, List.sum_append, h.open_, hp.open_]
  faceValue := by rw [ReportState.push, h.faceValue, column_append]
  costBasis := by rw [ReportState.push, h.costBasis, costBases_append]
  proceeds := by rw [ReportState.push, h.proceeds, column_append]
  realized := by rw [ReportState.push, h.realized, column_append]
  unrealized := by rw [ReportState.push, h.unrealized, column_append]
  outstanding := by rw [ReportState.push, h.outstanding, withStatus_append, costBases_append]
  defaulted := by rw [ReportState.push, h.defaulted, withStatus_append, costBases_append]

/-- The loop lists the invoices of the investor, and keeps its accumulators in step with them. -/
theorem foldl_reportInvoice (investor : String) (options : InvestorReportOptions)
    (invoices : List Invoice) {st : ReportState} (h : Books st) :
    Books (invoices.foldl (reportInvoice investor options) st) ∧
      (invoices.foldl (reportInvoice investor options) st).positions = st.positions ++
        (invoices.filter fun invoice => decide (invoice.investor = some investor)).map
          (positionOf options) := by
  induction invoices generalizing st with
  | nil => exact ⟨h, (List.append_nil _).symm⟩
  | cons invoice invoices ih =>
    rw [List.foldl_cons, reportInvoice_eq, List.filter_cons]
    by_cases hinvestor : invoice.investor = some investor
    · obtain ⟨hbooks, hpositions⟩ := ih (h.push (row_positionOf options invoice))
      rw [if_pos hinvestor, if_pos (decide_eq_true hinvestor)]
      refine ⟨hbooks, hpositions.trans ?_⟩
      rw [ReportState.push, List.append_assoc, List.map_cons, List.singleton_append]
    · rw [if_neg hinvestor, if_neg (mt of_decide_eq_true hinvestor)]
      exact ih h

/-! ## Balance -/

/-- The variables of the loop at its end. -/
def finalState (investor : String) (invoices : List Invoice) (options : InvestorReportOptions) :
    ReportState :=
  invoices.foldl (reportInvoice investor options) ⟨[], 0, 0, 0, 0, 0, 0, 0, 0, 0, 0⟩

theorem finalState_books (investor : String) (invoices : List Invoice)
    (options : InvestorReportOptions) : Books (finalState investor invoices options) :=
  (foldl_reportInvoice investor options invoices (by constructor <;> rfl)).1

theorem finalState_positions (investor : String) (invoices : List Invoice)
    (options : InvestorReportOptions) :
    (finalState investor invoices options).positions =
      (invoices.filter fun invoice => decide (invoice.investor = some investor)).map
        (positionOf options) :=
  (foldl_reportInvoice investor options invoices (by constructor <;> rfl)).2

/-- The pending positions of a report are those of the pending invoices of its investor. -/
theorem pending_positions (investor : String) (invoices : List Invoice)
    (options : InvestorReportOptions) :
    withStatus .pending (finalState investor invoices options).positions = [] ↔
      ∀ invoice ∈ invoices, invoice.investor = some investor → invoice.status ≠ .pending := by
  rw [finalState_positions, withStatus, List.filter_eq_nil_iff]
  constructor
  · intro hnone invoice hmem hinvestor hstatus
    refine hnone (positionOf options invoice) (List.mem_map_of_mem ?_) (decide_eq_true ?_)
    · exact List.mem_filter.2 ⟨hmem, decide_eq_true hinvestor⟩
    · rw [positionOf_status, hstatus]
  · intro hnone p hp hstatus
    obtain ⟨invoice, hmem, rfl⟩ := List.mem_map.1 hp
    obtain ⟨hmem, hinvestor⟩ := List.mem_filter.1 hmem
    rw [positionOf_status] at hstatus
    exact hnone invoice hmem (of_decide_eq_true hinvestor)
      (statusName_inj (of_decide_eq_true hstatus))

/-- **When the investor report balances.** The report of an investor balances exactly if no invoice
of theirs is pending. -/
theorem balances_iff (investor : String) (invoices : List Invoice)
    (options : InvestorReportOptions) :
    Balances (buildInvestorReport investor invoices options) ↔
      ∀ invoice ∈ invoices, invoice.investor = some investor → invoice.status ≠ .pending := by
  have hbooks := finalState_books investor invoices options
  rw [← pending_positions investor invoices options]
  constructor
  · intro hbalances
    have hsum : (finalState investor invoices options).positions.length =
        (finalState investor invoices options).fundedCount +
          (finalState investor invoices options).repaidCount +
          (finalState investor invoices options).defaultedCount := hbalances.counts
    have hcounts := hbooks.counts
    exact List.eq_nil_of_length_eq_zero (by omega)
  · intro hnone
    have hcounts := hbooks.counts
    have hpnl := hbooks.pnl
    rw [hnone, List.length_nil, add_zero] at hcounts
    rw [hnone, costBases, column, List.map_nil, List.sum_nil, add_zero] at hpnl
    exact
      { counts := hcounts.symm
        listed := rfl
        pnl := by
          refine (units_repr _).trans (hpnl.trans ?_)
          exact congrArg₂ _ (units_repr _).symm
            (congrArg₂ _ (units_repr _).symm (units_repr _).symm)
        open_ := (units_repr _).trans hbooks.open_
        faceValue := (units_repr _).trans hbooks.faceValue
        costBasis := (units_repr _).trans hbooks.costBasis
        proceeds := (units_repr _).trans hbooks.proceeds
        realized := (units_repr _).trans hbooks.realized
        unrealized := (units_repr _).trans hbooks.unrealized
        outstanding := (units_repr _).trans hbooks.outstanding
        defaulted := (units_repr _).trans hbooks.defaulted }

/-- A pending invoice of an investor. -/
def pendingInvoice : Invoice where
  id := 1
  onchainId := 1
  status := .pending
  faceValue := 1000
  farmer := "GF"
  buyerId := "B"
  investor := some "GI"
  funder := none
  discountPercentage := none
  settledLedger := none
  settledAt := none
  fundedAmount := none
  fundedAt := none
  fundedTxHash := none
  repaidAmount := none
  assetCode := none
  createdAt := 1000
  updatedAt := 1000

/-- The invoice is listed and is in the totals, but it is in none of the counts, and its cost is
taken for a loss. -/
theorem pending_unbalanced :
    ¬ Balances (buildInvestorReport "GI" [pendingInvoice] ⟨"USDC", some 7⟩) := by
  intro hbalances
  have hcounts := hbalances.counts
  revert hcounts
  decide +kernel

end Compliance

end Backend

end InvoiceFi
