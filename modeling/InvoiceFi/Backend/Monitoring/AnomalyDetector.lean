import InvoiceFi.Backend.Compliance.Exports
import InvoiceFi.Lib.TrimmedWindow
import Mathlib.Algebra.Order.Ring.Rat
import Mathlib.Data.Rat.Floor

/-!
# The anomaly detector (`monitoring/anomaly-detector.service.ts`)

`evaluate` takes an event into the windows of its rules and returns the alerts that it raises. The
windows are trimmed at the front, by the time of the event that comes. Ledgers are processed
concurrently, so events come in any order: `metrics_iff` says when the metrics of the funding rules
are those of their windows.

Numbers are exact, and `Math.sqrt` is a parameter.
-/

namespace InvoiceFi

namespace Backend

namespace Monitoring

/-! ## Data (`monitoring/types.ts`, `monitoring/monitoring.config.ts`) -/

/-- `AnomalyType`. -/
inductive AnomalyType where
  | largeInvoiceFunding
  | fundingVolumeSpike
  | fundingVelocitySpike
  | oraclePriceDeviation
  | pauserRoleChanged
  | relativeVolumeSpike
  | unusualDiscount
  deriving DecidableEq

/-- The name of a type in the alerts. -/
def AnomalyType.name : AnomalyType → String
  | .largeInvoiceFunding => "large_invoice_funding"
  | .fundingVolumeSpike => "funding_volume_spike"
  | .fundingVelocitySpike => "funding_velocity_spike"
  | .oraclePriceDeviation => "oracle_price_deviation"
  | .pauserRoleChanged => "pauser_role_changed"
  | .relativeVolumeSpike => "relative_volume_spike"
  | .unusualDiscount => "unusual_discount"

/-- `MonitoringEvent`. -/
structure MonitoringEvent where
  ledger : Nat
  closedAt : Int
  contractId : String
  transactionHash : String
  type : String
  account : Option String
  amount : Option ℚ
  asset : Option String
  oraclePrice : Option ℚ
  referencePrice : Option ℚ
  role : Option String
  oldValue : Option String
  newValue : Option String
  discountRate : Option ℚ
  deriving DecidableEq

/-- A metric or a threshold, `number | string`. -/
inductive Metric where
  | number (value : ℚ)
  | text (value : String)
  deriving DecidableEq

/-- The severity of an alert. -/
inductive Severity where
  | warning
  | critical
  deriving DecidableEq

/-- `AnomalyAlert`. -/
structure AnomalyAlert where
  id : String
  anomalyType : AnomalyType
  affectedAccountOrContract : String
  transactionHash : String
  currentMetric : Metric
  threshold : Metric
  ledger : Nat
  occurredAt : String
  severity : Severity
  summary : String
  context : MonitoringEvent
  deriving DecidableEq

/-- The settings of the rules in `MonitoringConfig`. -/
structure RuleConfig where
  largeFundingAmount : ℚ
  fundingVolumeWindowMs : ℚ
  fundingVolumeThreshold : ℚ
  fundingVelocityWindowMs : ℚ
  fundingVelocityCountThreshold : ℚ
  oracleDeviationBps : ℚ
  pauserRoleNames : List String
  relativeVolumeSpikeEnabled : Bool
  relativeVolumeSpikeMultiple : ℚ
  unusualDiscountEnabled : Bool
  unusualDiscountStdDevMultiple : ℚ

/-- `FundingPoint`. -/
structure FundingPoint where
  amount : ℚ
  timestamp : Int
  deriving DecidableEq

/-- `DiscountPoint`. -/
structure DiscountPoint where
  rate : ℚ
  timestamp : Int
  deriving DecidableEq

/-- The windows of the rules. -/
structure Windows where
  fundingWindow : List FundingPoint
  velocityWindow : List FundingPoint
  longTermFundingWindow : List FundingPoint
  discountWindow : List DiscountPoint
  deriving DecidableEq

/-! ## The rules -/

/-- `alert`. -/
def alert (event : MonitoringEvent) (anomalyType : AnomalyType)
    (currentMetric threshold : Metric) (severity : Severity) : AnomalyAlert :=
  let affected := event.account.getD event.contractId
  { id := anomalyType.name ++ ":" ++ affected ++ ":" ++ event.transactionHash
    anomalyType := anomalyType
    affectedAccountOrContract := affected
    transactionHash := event.transactionHash
    currentMetric := currentMetric
    threshold := threshold
    ledger := event.ledger
    occurredAt := Compliance.isoDate event.closedAt
    severity := severity
    summary := anomalyType.name ++ " detected for " ++ affected
    context := event }

/-- `if (c) alerts.push(a)`. -/
def alertIf (c : Prop) [Decidable c] (a : AnomalyAlert) : List AnomalyAlert := if c then [a] else []

/-- `window.reduce((total, point) => total + point.amount, 0)`. -/
def totalAmount (window : List FundingPoint) : ℚ := (window.map FundingPoint.amount).sum

/-- The time of a point, among those of the windows. -/
def FundingPoint.time (p : FundingPoint) : ℚ := p.timestamp

/-- The time of a point, among those of the windows. -/
def DiscountPoint.time (p : DiscountPoint) : ℚ := p.timestamp

/-- `sevenDaysMs`. -/
def sevenDaysMs : ℚ := 7 * 24 * 60 * 60 * 1000

/-- `thirtyDaysMs`. -/
def thirtyDaysMs : ℚ := 30 * 24 * 60 * 60 * 1000

/-- `role.toLowerCase().includes(name.toLowerCase())`, for names in ASCII. -/
def roleIncludes (role name : String) : Bool := includes role.toLower name.toLower

/-- `AnomalyDetectorService`: its settings, and `Math.sqrt`. -/
structure AnomalyDetector where
  config : RuleConfig
  sqrt : ℚ → ℚ

namespace AnomalyDetector

variable (d : AnomalyDetector)

/-- `isPauserRole`. -/
def isPauserRole (role : Option String) : Bool :=
  role.any fun role => decide (role ≠ "") && d.config.pauserRoleNames.any (roleIncludes role)

/-- The rule of unusual discounts, with its window. -/
def evaluateDiscount (event : MonitoringEvent) (discountWindow : List DiscountPoint) :
    List AnomalyAlert × List DiscountPoint :=
  match event.discountRate with
  | none => ([], discountWindow)
  | some rate =>
    if d.config.unusualDiscountEnabled then
      let alerts :=
        if 2 ≤ discountWindow.length then
          let mean : ℚ := (discountWindow.map DiscountPoint.rate).sum / discountWindow.length
          let variance : ℚ :=
            (discountWindow.map fun p => (p.rate - mean) ^ 2).sum / discountWindow.length
          let stdDev := d.sqrt variance
          let deviation := |rate - mean|
          let maxDeviation := stdDev * d.config.unusualDiscountStdDevMultiple
          if maxDeviation < deviation ∧ 0 < stdDev then
            [alert event .unusualDiscount (.number rate) (.number (mean + maxDeviation)) .warning]
          else if 0 < deviation ∧ stdDev = 0 then
            [alert event .unusualDiscount (.number rate) (.number mean) .warning]
          else []
        else []
      (alerts, TrimmedWindow.push DiscountPoint.time thirtyDaysMs discountWindow
        ⟨rate, event.closedAt⟩)
    else ([], discountWindow)

/-- The rules of an invoice that is funded with an amount. -/
def evaluateFunding (event : MonitoringEvent) (amount : ℚ) (st : Windows) :
    List AnomalyAlert × Windows :=
  let point : FundingPoint := ⟨amount, event.closedAt⟩
  let fundingWindow :=
    TrimmedWindow.push FundingPoint.time d.config.fundingVolumeWindowMs st.fundingWindow point
  let volume := totalAmount fundingWindow
  let velocityWindow :=
    TrimmedWindow.push FundingPoint.time d.config.fundingVelocityWindowMs st.velocityWindow point
  let longTermFundingWindow :=
    TrimmedWindow.push FundingPoint.time sevenDaysMs st.longTermFundingWindow point
  let threshold := totalAmount longTermFundingWindow / 2016 * d.config.relativeVolumeSpikeMultiple
  let discount := d.evaluateDiscount event st.discountWindow
  (alertIf (d.config.largeFundingAmount ≤ amount)
      (alert event .largeInvoiceFunding (.number amount) (.number d.config.largeFundingAmount)
        .critical) ++
    alertIf (d.config.fundingVolumeThreshold ≤ volume)
      (alert event .fundingVolumeSpike (.number volume) (.number d.config.fundingVolumeThreshold)
        .critical) ++
    alertIf (d.config.fundingVelocityCountThreshold ≤ velocityWindow.length)
      (alert event .fundingVelocitySpike (.number velocityWindow.length)
        (.number d.config.fundingVelocityCountThreshold) .warning) ++
    alertIf (d.config.relativeVolumeSpikeEnabled = true ∧ 0 < threshold ∧ threshold ≤ volume)
      (alert event .relativeVolumeSpike (.number volume) (.number threshold) .critical) ++
    discount.1,
  ⟨fundingWindow, velocityWindow, longTermFundingWindow, discount.2⟩)

/-- The rule of oracle prices. -/
def evaluateOracle (event : MonitoringEvent) : List AnomalyAlert :=
  match event.oraclePrice, event.referencePrice with
  | some oraclePrice, some referencePrice =>
    let deviationBps := |oraclePrice - referencePrice| / referencePrice * 10000
    alertIf (event.type = "oracle_price_updated" ∧ 0 < referencePrice ∧
        d.config.oracleDeviationBps ≤ deviationBps)
      (alert event .oraclePriceDeviation (.number ⌊deviationBps + 1 / 2⌋)
        (.number d.config.oracleDeviationBps) .critical)
  | _, _ => []

/-- The rule of pauser roles. -/
def evaluateRole (event : MonitoringEvent) : List AnomalyAlert :=
  alertIf (event.type = "role_changed" ∧ d.isPauserRole event.role = true)
    (alert event .pauserRoleChanged (.text (event.newValue.getD "changed"))
      (.text (",".intercalate d.config.pauserRoleNames)) .critical)

/-- `evaluate`. -/
def evaluate (event : MonitoringEvent) (st : Windows) : List AnomalyAlert × Windows :=
  let funding :=
    match event.amount with
    | none => ([], st)
    | some amount =>
      if event.type = "invoice_funded" then d.evaluateFunding event amount st else ([], st)
  (funding.1 ++ d.evaluateOracle event ++ d.evaluateRole event, funding.2)

/-- The windows after some events. -/
def after (events : List MonitoringEvent) : Windows :=
  events.foldl (fun st event => (d.evaluate event st).2) ⟨[], [], [], []⟩

/-- The metric of the rule of the funding volume. -/
def volume (events : List MonitoringEvent) : ℚ := totalAmount (d.after events).fundingWindow

/-- The metric of the rule of the funding velocity. -/
def velocity (events : List MonitoringEvent) : Nat := (d.after events).velocityWindow.length

end AnomalyDetector

/-! ## What the windows hold -/

/-- The point that an event puts into the windows of the funding rules. -/
def MonitoringEvent.point? (event : MonitoringEvent) : Option FundingPoint :=
  event.amount.bind fun amount =>
    if event.type = "invoice_funded" then some ⟨amount, event.closedAt⟩ else none

/-- The fundings among some events. -/
def fundings (events : List MonitoringEvent) : List FundingPoint :=
  events.filterMap MonitoringEvent.point?

open TrimmedWindow (push pushAll stale recent leftover)

/-- What an event does to the windows of the funding rules. -/
theorem evaluate_windows (d : AnomalyDetector) (event : MonitoringEvent) (st : Windows) :
    ((d.evaluate event st).2.fundingWindow = match event.point? with
      | none => st.fundingWindow
      | some p => push FundingPoint.time d.config.fundingVolumeWindowMs st.fundingWindow p) ∧
    ((d.evaluate event st).2.velocityWindow = match event.point? with
      | none => st.velocityWindow
      | some p =>
        push FundingPoint.time d.config.fundingVelocityWindowMs st.velocityWindow p) := by
  unfold AnomalyDetector.evaluate MonitoringEvent.point?
  cases event.amount with
  | none => exact ⟨rfl, rfl⟩
  | some amount =>
    dsimp only [Option.bind_some]
    split
    · exact ⟨rfl, rfl⟩
    · exact ⟨rfl, rfl⟩

/-- **The windows of the funding rules** hold the fundings, trimmed at the front as they came. -/
theorem after_windows (d : AnomalyDetector) (events : List MonitoringEvent) :
    (d.after events).fundingWindow =
      pushAll FundingPoint.time d.config.fundingVolumeWindowMs (fundings events) ∧
    (d.after events).velocityWindow =
      pushAll FundingPoint.time d.config.fundingVelocityWindowMs (fundings events) := by
  induction events using List.reverseRecOn with
  | nil => exact ⟨rfl, rfl⟩
  | append_singleton events event ih =>
    have hafter : d.after (events ++ [event]) = (d.evaluate event (d.after events)).2 :=
      List.foldl_concat ..
    obtain ⟨hfunding, hvelocity⟩ := evaluate_windows d event (d.after events)
    rw [hafter, hfunding, hvelocity, fundings, List.filterMap_append, List.filterMap_cons,
      List.filterMap_nil]
    cases event.point? with
    | none =>
      dsimp only
      rw [List.append_nil]
      exact ih
    | some p =>
      dsimp only
      rw [TrimmedWindow.pushAll_concat, TrimmedWindow.pushAll_concat, ih.1, ih.2]
      exact ⟨rfl, rfl⟩

/-! ## When the metrics are right -/

/-- The fundings of the window of a length that ends at `now`. -/
def inWindow (ttlMs : ℚ) (now : Int) (events : List MonitoringEvent) : List FundingPoint :=
  (fundings events).filter fun p => decide (now - ttlMs ≤ p.timestamp ∧ p.timestamp ≤ now)

/-- The fundings that have left the window of a length that ends at `now`, and came after one that
is in it. -/
def overtaken (ttlMs : ℚ) (now : Int) (events : List MonitoringEvent) : List FundingPoint :=
  leftover FundingPoint.time ttlMs (now : ℚ) (fundings events)

/-- A step of a run takes in the newest funding so far. -/
def Newest (before : List MonitoringEvent) (event : MonitoringEvent) (p : FundingPoint) : Prop :=
  event.point? = some p ∧ ∀ q ∈ fundings before, q.timestamp ≤ p.timestamp

/-- After each event of the run that is the newest funding so far, the metrics of the funding rules
are those of the windows that end at it. -/
def MetricsExact (d : AnomalyDetector) (events : List MonitoringEvent) : Prop :=
  ∀ before event rest p, events = before ++ event :: rest → Newest before event p →
    d.volume (before ++ [event]) = totalAmount
      (inWindow d.config.fundingVolumeWindowMs p.timestamp (before ++ [event])) ∧
    d.velocity (before ++ [event]) =
      (inWindow d.config.fundingVelocityWindowMs p.timestamp (before ++ [event])).length

/-- At each event of the run that is the newest funding so far, no funding that has left the window
of the velocity came after one that is in it, and those that did so for the window of the volume
add up to nothing. -/
def Settled (d : AnomalyDetector) (events : List MonitoringEvent) : Prop :=
  ∀ before event rest p, events = before ++ event :: rest → Newest before event p →
    totalAmount (overtaken d.config.fundingVolumeWindowMs p.timestamp (before ++ [event])) = 0 ∧
    overtaken d.config.fundingVelocityWindowMs p.timestamp (before ++ [event]) = []

theorem fundings_concat {before : List MonitoringEvent} {event : MonitoringEvent}
    {p : FundingPoint} (h : event.point? = some p) :
    fundings (before ++ [event]) = fundings before ++ [p] := by
  rw [fundings, List.filterMap_append, List.filterMap_cons, h]
  rfl

/-- At the newest funding, those of the window are the recent ones. -/
theorem inWindow_eq {before : List MonitoringEvent} {event : MonitoringEvent} {p : FundingPoint}
    (h : Newest before event p) (ttlMs : ℚ) :
    inWindow ttlMs p.timestamp (before ++ [event]) =
      recent FundingPoint.time ttlMs p.time (fundings before ++ [p]) := by
  rw [inWindow, fundings_concat h.1, recent]
  refine List.filter_congr fun q hq => ?_
  have hle : q.timestamp ≤ p.timestamp := by
    rcases List.mem_append.1 hq with hq | hq
    · exact h.2 q hq
    · rw [List.mem_singleton.1 hq]
  rw [stale, ← decide_not]
  refine decide_eq_decide.2 ?_
  rw [not_lt]
  exact and_iff_left hle

/-- Fundings that come in the order of their times are settled. -/
theorem settled_of_inOrder (d : AnomalyDetector) {events : List MonitoringEvent}
    (h : (fundings events).Pairwise fun p q => p.timestamp ≤ q.timestamp) : Settled d events := by
  rintro before event rest p rfl -
  have hsublist : (fundings (before ++ [event])).Sublist (fundings (before ++ event :: rest)) := by
    refine List.Sublist.filterMap _ (List.Sublist.append_left ?_ before)
    exact List.cons_sublist_cons.2 (List.nil_sublist rest)
  have hnone : ∀ ttlMs, overtaken ttlMs p.timestamp (before ++ [event]) = [] := fun ttlMs =>
    (TrimmedWindow.leftover_eq_nil_iff FundingPoint.time ttlMs).2 <|
      (h.sublist hsublist).imp fun {x y} hle hstale =>
        decide_eq_true (lt_of_le_of_lt (Int.cast_le.2 hle) (of_decide_eq_true hstale))
  rw [hnone, hnone]
  exact ⟨rfl, rfl⟩

/-- **When the metrics are right**, whatever the order in which the events come. -/
theorem metrics_iff (d : AnomalyDetector) (events : List MonitoringEvent) :
    MetricsExact d events ↔ Settled d events := by
  refine forall₄_congr fun before event rest p => imp_congr_right fun _ =>
    imp_congr_right fun hnewest => ?_
  have htime : ∀ q ∈ fundings before, q.time ≤ p.time := fun q hq =>
    Int.cast_le.2 (hnewest.2 q hq)
  obtain ⟨hfunding, hvelocity⟩ := after_windows d (before ++ [event])
  rw [fundings_concat hnewest.1] at hfunding hvelocity
  rw [AnomalyDetector.volume, AnomalyDetector.velocity, hfunding, hvelocity,
    inWindow_eq hnewest, inWindow_eq hnewest, overtaken, overtaken, fundings_concat hnewest.1]
  exact and_congr
    (TrimmedWindow.sum_pushAll_iff FundingPoint.time _ FundingPoint.amount htime)
    (TrimmedWindow.length_pushAll_iff FundingPoint.time _ htime)

/-- The default settings of the rules. -/
def defaultRules : RuleConfig where
  largeFundingAmount := 100000
  fundingVolumeWindowMs := 5 * 60000
  fundingVolumeThreshold := 500000
  fundingVelocityWindowMs := 60000
  fundingVelocityCountThreshold := 25
  oracleDeviationBps := 500
  pauserRoleNames := ["pauser", "emergency_pauser"]
  relativeVolumeSpikeEnabled := true
  relativeVolumeSpikeMultiple := 3
  unusualDiscountEnabled := true
  unusualDiscountStdDevMultiple := 3

/-- The funding of an invoice at some time. -/
def fundedAt (closedAt : Int) : MonitoringEvent where
  ledger := 1
  closedAt := closedAt
  contractId := "C"
  transactionHash := "T"
  type := "invoice_funded"
  account := none
  amount := some 10
  asset := none
  oraclePrice := none
  referencePrice := none
  role := none
  oldValue := none
  newValue := none
  discountRate := none

/-- A funding of 90 seconds ago comes behind one of just now, and is counted in the minute that ends
with the next one. -/
theorem overtaken_counted :
    ¬ MetricsExact ⟨defaultRules, id⟩ [fundedAt 100000, fundedAt 10000, fundedAt 100001] := by
  intro hexact
  have hvelocity := (hexact [fundedAt 100000, fundedAt 10000] (fundedAt 100001) []
    ⟨10, 100001⟩ rfl ⟨rfl, by decide +kernel⟩).2
  revert hvelocity
  decide +kernel

end Monitoring

end Backend

end InvoiceFi
