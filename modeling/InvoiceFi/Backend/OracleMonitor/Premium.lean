import InvoiceFi.Backend.Network
import InvoiceFi.Backend.OracleMonitor
import Mathlib.Data.List.DropRight

/-!
# The risk premium of a funding (`fallback-strategy.service.ts`)

While the last known good prices are in force, `fundInvoice` records the discount that
`calculateEffectiveDiscountBps` makes of the requested one. `strategy` is the machine of the
`activate` and `deactivate` calls, and `Records` says which discount the invoice shows that has been
funded after them.

`maxRiskPremiumBps` bounds the premium when a fallback is activated, and then bounds the sum of the
requested discount and the premium again. So a requested discount above it is recorded as
`maxRiskPremiumBps` itself, which is less than what was asked for. The column has two places: a
discount with more of them is rounded, down or up, and one that is out of the range of the column is
not recorded at all. `premiumSound_iff` says when none of this breaks the promise of the premium.
-/

namespace InvoiceFi

namespace Backend

namespace OracleMonitor

/-! ## The strategy -/

/-- `deactivate`. -/
def deactivate (state : Option Fallback) : Option Fallback :=
  match state with
  | none => none
  | some _ => none

/-- `getRiskPremiumBps`. -/
def getRiskPremiumBps (state : Option Fallback) : ℚ := (state.map Fallback.riskPremiumBps).getD 0

/-- `calculateEffectiveDiscountBps`. -/
def calculateEffectiveDiscountBps (config : OracleMonitorConfig) (baseDiscountBps : ℚ)
    (state : Option Fallback) : ℚ :=
  match state with
  | none => baseDiscountBps
  | some fallback =>
    let adjusted := baseDiscountBps + fallback.riskPremiumBps
    min adjusted config.maxRiskPremiumBps

/-- A call that changes the state of the strategy. -/
inductive StrategyCall where
  | activate (mode : Mode) (riskPremiumBps : ℚ) (reason : String) (now : Nat)
  | deactivate
  deriving DecidableEq

/-- The strategy as a machine. -/
def strategy (config : OracleMonitorConfig) :
    Machine (Option Fallback) StrategyCall Empty Unit where
  init := none
  invoke call state :=
    match call with
    | .activate mode riskPremiumBps reason now =>
      .ok ((), activate config mode riskPremiumBps reason now state)
    | .deactivate => .ok ((), deactivate state)

/-- The state of the strategy after some calls. -/
def stateAfter (config : OracleMonitorConfig) (calls : List StrategyCall) : Option Fallback :=
  (strategy config).exec (strategy config).init calls

/-! ## The activation in force -/

/-- The call is an activation. -/
def StrategyCall.isActivation : StrategyCall → Bool
  | .activate .. => true
  | .deactivate => false

/-- The activation in force after some calls: the first one since the last deactivation. -/
def inForce (calls : List StrategyCall) : Option StrategyCall :=
  (calls.rtakeWhile StrategyCall.isActivation).head?

/-- The fallback that a call activates when none is active. -/
def StrategyCall.fallback (config : OracleMonitorConfig) : StrategyCall → Option Fallback
  | .activate mode riskPremiumBps reason now =>
    some ⟨mode, min riskPremiumBps config.maxRiskPremiumBps, now, reason⟩
  | .deactivate => none

/-- A call that is in force is an activation. -/
theorem inForce_activation {calls : List StrategyCall} {call : StrategyCall}
    (h : inForce calls = some call) : call.isActivation = true :=
  List.mem_rtakeWhile_imp (List.mem_of_head? h)

/-- A deactivation ends the activation in force. -/
theorem inForce_deactivate (calls : List StrategyCall) :
    inForce (calls ++ [.deactivate]) = none := by
  rw [inForce, List.rtakeWhile_concat_neg]
  · rfl
  · exact Bool.false_ne_true

/-- An activation is in force unless another one is. -/
theorem inForce_activate (calls : List StrategyCall) (mode : Mode) (riskPremiumBps : ℚ)
    (reason : String) (now : Nat) :
    inForce (calls ++ [.activate mode riskPremiumBps reason now]) =
      (inForce calls).or (some (.activate mode riskPremiumBps reason now)) := by
  rw [inForce, List.rtakeWhile_concat_pos, List.head?_append]
  · rfl
  · rfl

theorem stateAfter_concat (config : OracleMonitorConfig) (calls : List StrategyCall)
    (call : StrategyCall) :
    stateAfter config (calls ++ [call]) =
      ((strategy config).step call (stateAfter config calls)).post :=
  Machine.exec_concat _ _ _

/-- The strategy is in the fallback of the activation in force: the later ones are ignored. -/
theorem stateAfter_eq (config : OracleMonitorConfig) (calls : List StrategyCall) :
    stateAfter config calls = (inForce calls).bind (StrategyCall.fallback config) := by
  induction calls using List.reverseRecOn with
  | nil => rfl
  | append_singleton calls call ih =>
    rw [stateAfter_concat, ih]
    cases call with
    | deactivate =>
      rw [inForce_deactivate]
      cases (inForce calls).bind (StrategyCall.fallback config) <;> rfl
    | activate mode riskPremiumBps reason now =>
      rw [inForce_activate]
      cases hforce : inForce calls with
      | none => rfl
      | some first =>
        cases first with
        | deactivate => exact absurd (inForce_activation hforce) Bool.false_ne_true
        | activate => rfl

/-! ## What a funding records -/

/-- After the strategy is in a state, a funding that requests a discount may record another one:
some call of `fundInvoice` that reads this state stores a funding whose invoice shows it. -/
def Records (config : OracleMonitorConfig) (state : Option Fallback) (requested discount : ℚ) :
    Prop :=
  ∃ (call : FundCall) (w : FundingWrite) (now : Nat) (db db' : Db) (r : Invoice),
    call.dto.discountRate = requested ∧
    call.atPremium = state.map (Fallback.toFallbackState config) ∧
    (fundInvoice call).MayAwait (.recordFunding w) ∧
    recordFunding w now db = .ok (r, db') ∧ r.discountPercentage = some discount

/-- The discount that step 6 of `fundInvoice` comes to. -/
def discountOf (config : OracleMonitorConfig) (state : Option Fallback) (requested : ℚ) : ℚ :=
  if getActiveMode state = .lastKnownGood then
    calculateEffectiveDiscountBps config requested state
  else requested

theorem effectiveDiscountRate_eq {config : OracleMonitorConfig} {state : Option Fallback}
    {call : FundCall} (h : call.atPremium = state.map (Fallback.toFallbackState config)) :
    effectiveDiscountRate call = discountOf config state call.dto.discountRate := by
  rw [effectiveDiscountRate, h]
  cases state with
  | none => rfl
  | some fallback =>
    cases hmode : fallback.mode <;>
      simp [discountOf, getActiveMode, calculateEffectiveDiscountBps, Fallback.toFallbackState,
        hmode]

/-- A funding that is written has the effective discount of its call. -/
def RecordsEffective (call : FundCall) (a : Act) : Prop :=
  ∀ w, a = .recordFunding w → w.discount = effectiveDiscountRate call

theorem payInvoice_only (call : FundCall) (invoice : Invoice) (amount : Int) :
    (payInvoice call invoice amount).Only (RecordsEffective call) (fun _ => True) := by
  refine ⟨nofun, fun sent => ?_⟩
  cases sent with
  | error e => exact trivial
  | ok txHash =>
    refine ⟨?_, fun stored => by cases stored <;> exact trivial⟩
    rintro w ⟨⟩
    rfl

/-- Every funding that a call writes has the effective discount of the call. -/
theorem fundInvoice_only (call : FundCall) :
    (fundInvoice call).Only (RecordsEffective call) (fun _ => True) := by
  refine Async.Only.ofExcept_bind (fun _ _ => ?_) fun _ _ => trivial
  refine ⟨nofun, fun found => ?_⟩
  rcases found with e | _ | invoice
  · exact trivial
  · exact trivial
  · change ((Async.ofExcept (checkFundable call invoice) : Task Int) >>= _).Only _ _
    exact Async.Only.ofExcept_bind (fun amount _ => payInvoice_only call invoice amount)
      fun _ _ => trivial

/-- A funding of one unit that no halt blocks. -/
def unitCall (atPremium : Option FallbackState) (requested : ℚ) : FundCall :=
  ⟨"buyer", "G", ⟨1, 1, requested⟩, none, atPremium⟩

/-- A funding records what the column holds of the discount of its step 6, and no other. -/
theorem records_iff {config : OracleMonitorConfig} {state : Option Fallback}
    {requested discount : ℚ} :
    Records config state requested discount ↔
      discountColumn (discountOf config state requested) = some discount := by
  constructor
  · rintro ⟨call, w, now, db, db', r, rfl, hread, hmay, hrecord, hr⟩
    obtain ⟨-, r₀, -, -, rfl, -⟩ := (recordFunding_eq_ok w now).1 hrecord
    rw [← effectiveDiscountRate_eq hread, ← hmay.acts (fundInvoice_only call) w rfl]
    exact hr
  · intro hcolumn
    let call := unitCall (state.map (Fallback.toFallbackState config)) requested
    let invoice := mirroredInvoice 1 7 1000 "farmer" "buyer" 0
    have hdiscount : discountColumn (fundingWrite call invoice 1 "hash").discount =
        some discount := by
      rw [← hcolumn]
      exact congrArg discountColumn (effectiveDiscountRate_eq rfl)
    have hfits : (fundingWrite call invoice 1 "hash").Fits := by
      rw [FundingWrite.Fits, hdiscount]
      exact Option.some_ne_none discount
    refine ⟨call, fundingWrite call invoice 1 "hash", 0, oneInvoice [], _, _, rfl, rfl, ?_,
      (recordFunding_eq_ok _ 0).2 ⟨hfits, invoice, .head _, rfl, rfl, rfl⟩, hdiscount⟩
    exact .later (.ok (some invoice)) (.later (.ok "hash") (.here _))

/-! ## The premium never makes a funding cheaper -/

/-- After some calls of the strategy, the premium raises the discount that a funding records, by no
more than the active premium, which the configuration bounds; it keeps the order of the requested
discounts; and it changes nothing when no fallback is active. -/
structure PremiumSound (config : OracleMonitorConfig) (calls : List StrategyCall)
    (requested : ℚ) : Prop where
  raises : getActiveMode (stateAfter config calls) = .lastKnownGood →
    ∀ recorded, Records config (stateAfter config calls) requested recorded → requested ≤ recorded
  bounded : getActiveMode (stateAfter config calls) = .lastKnownGood →
    ∀ recorded, Records config (stateAfter config calls) requested recorded →
      recorded ≤ requested + getRiskPremiumBps (stateAfter config calls)
  capped : stateAfter config calls ≠ none →
    getRiskPremiumBps (stateAfter config calls) ≤ config.maxRiskPremiumBps
  monotone : ∀ requested' recorded recorded', requested ≤ requested' →
    Records config (stateAfter config calls) requested recorded →
    Records config (stateAfter config calls) requested' recorded' → recorded ≤ recorded'
  inactive : stateAfter config calls = none →
    ∀ recorded, Records config (stateAfter config calls) requested recorded → recorded = requested

/-- The number rounded to the two places of the column. -/
def hundredths (x : ℚ) : ℚ := rounded 2 x

/-- The number has more than the three digits before the point that the column has room for. -/
def TooLarge (x : ℚ) : Prop := 1000 ≤ hundredths x

/-- The same, for a negative number. -/
def TooSmall (x : ℚ) : Prop := hundredths x ≤ -1000

/-- A discount of `requested` with a premium, under a cap, keeps the promise of the premium: rounded
to the column, neither the sum of the two nor the cap is below the discount that was asked for, and
one of them is not above the sum. -/
structure Kept (requested premium cap : ℚ) : Prop where
  sum : requested ≤ hundredths (requested + premium)
  underCap : requested ≤ hundredths cap
  above : hundredths (requested + premium) ≤ requested + premium ∨
    hundredths cap ≤ requested + premium

/-- What the column holds of a discount. -/
theorem discountColumn_eq_some {x y : ℚ} :
    discountColumn x = some y ↔ (¬ TooLarge x ∧ ¬ TooSmall x) ∧ y = hundredths x := by
  have hrange : |units 2 x| < 10 ^ 5 ↔ ¬ TooLarge x ∧ ¬ TooSmall x := by
    rw [TooLarge, TooSmall, hundredths, rounded, not_le, not_le, div_lt_iff₀ (by norm_num),
      lt_div_iff₀ (by norm_num), abs_lt, and_comm]
    norm_cast
  rw [discountColumn, numeric_eq_some, hrange]
  rfl

theorem hundredths_mono {x y : ℚ} (h : x ≤ y) : hundredths x ≤ hundredths y := rounded_mono 2 h

theorem hundredths_min (x y : ℚ) : hundredths (min x y) = min (hundredths x) (hundredths y) :=
  (rounded_mono 2).map_min

/-- The smaller of two numbers fits the column. -/
theorem min_fits_iff {x y : ℚ} :
    (¬ TooLarge (min x y) ∧ ¬ TooSmall (min x y)) ↔
      (¬ TooLarge x ∨ ¬ TooLarge y) ∧ ¬ TooSmall x ∧ ¬ TooSmall y := by
  simp only [TooLarge, TooSmall, hundredths_min, le_min_iff, min_le_iff, not_and_or, not_or]

/-- The premium of an active fallback is at most the cap. -/
theorem getRiskPremiumBps_le {config : OracleMonitorConfig} {calls : List StrategyCall}
    (h : stateAfter config calls ≠ none) :
    getRiskPremiumBps (stateAfter config calls) ≤ config.maxRiskPremiumBps := by
  rw [stateAfter_eq] at h ⊢
  cases hforce : inForce calls with
  | none => exact absurd (by rw [hforce]; rfl) h
  | some first =>
    cases first with
    | deactivate => exact absurd (inForce_activation hforce) Bool.false_ne_true
    | activate mode riskPremiumBps reason now => exact min_le_right _ _

/-- In the last known good mode, the discount that step 6 comes to. -/
theorem discountOf_lastKnownGood {config : OracleMonitorConfig} {state : Option Fallback}
    (h : getActiveMode state = .lastKnownGood) (requested : ℚ) :
    discountOf config state requested =
      min (requested + getRiskPremiumBps state) config.maxRiskPremiumBps := by
  cases state with
  | none => cases h
  | some fallback => exact if_pos h

theorem discountOf_monotone (config : OracleMonitorConfig) (state : Option Fallback)
    {requested requested' : ℚ} (h : requested ≤ requested') :
    discountOf config state requested ≤ discountOf config state requested' := by
  by_cases hmode : getActiveMode state = .lastKnownGood
  · rw [discountOf_lastKnownGood hmode, discountOf_lastKnownGood hmode]
    exact min_le_min_right _ (add_le_add_left h _)
  · rw [discountOf, discountOf, if_neg hmode, if_neg hmode]
    exact h

/-- The strategy is in the last known good mode exactly when an activation of it is in force. -/
theorem lastKnownGood_iff {config : OracleMonitorConfig} {calls : List StrategyCall} {b : ℚ} :
    (getActiveMode (stateAfter config calls) = .lastKnownGood ∧
      getRiskPremiumBps (stateAfter config calls) = b) ↔
    ∃ riskPremiumBps reason now,
      inForce calls = some (.activate .lastKnownGood riskPremiumBps reason now) ∧
      b = min riskPremiumBps config.maxRiskPremiumBps := by
  rw [stateAfter_eq]
  cases hforce : inForce calls with
  | none => simp [getActiveMode]
  | some first =>
    cases first with
    | deactivate => exact absurd (inForce_activation hforce) Bool.false_ne_true
    | activate mode riskPremiumBps reason now =>
      simp [getActiveMode, getRiskPremiumBps, StrategyCall.fallback, eq_comm]

/-- No fallback is active exactly when no activation is in force. -/
theorem stateAfter_eq_none (config : OracleMonitorConfig) {calls : List StrategyCall} :
    stateAfter config calls = none ↔ inForce calls = none := by
  rw [stateAfter_eq]
  cases hforce : inForce calls with
  | none => exact iff_of_true rfl rfl
  | some first =>
    cases first with
    | deactivate => exact absurd (inForce_activation hforce) Bool.false_ne_true
    | activate mode riskPremiumBps reason now =>
      exact iff_of_false (Option.some_ne_none _) (Option.some_ne_none _)

/-- Without a fallback, a funding records the requested discount exactly if that has the places of
the column, or records none. -/
theorem records_inactive_iff {config : OracleMonitorConfig} {requested : ℚ} :
    (∀ recorded, Records config none requested recorded → recorded = requested) ↔
      TooLarge requested ∨ TooSmall requested ∨ hundredths requested = requested := by
  have hdiscount : discountOf config none requested = requested := if_neg nofun
  simp only [records_iff, hdiscount, discountColumn_eq_some]
  constructor
  · intro h
    by_cases hfits : ¬ TooLarge requested ∧ ¬ TooSmall requested
    · exact .inr (.inr (h _ ⟨hfits, rfl⟩))
    · rw [not_and_or, not_not, not_not] at hfits
      exact hfits.imp_right .inl
  · rintro h recorded ⟨⟨hlarge, hsmall⟩, rfl⟩
    exact (h.resolve_left hlarge).resolve_left hsmall

/-- In the last known good mode, a funding records a discount between the requested one and the sum
of it and the premium exactly if the promise is kept, or records none. -/
theorem records_active_iff {config : OracleMonitorConfig} {state : Option Fallback}
    (hmode : getActiveMode state = .lastKnownGood) {requested : ℚ} :
    (∀ recorded, Records config state requested recorded →
      requested ≤ recorded ∧ recorded ≤ requested + getRiskPremiumBps state) ↔
      (TooLarge (requested + getRiskPremiumBps state) ∧ TooLarge config.maxRiskPremiumBps) ∨
      TooSmall (requested + getRiskPremiumBps state) ∨ TooSmall config.maxRiskPremiumBps ∨
      Kept requested (getRiskPremiumBps state) config.maxRiskPremiumBps := by
  simp only [records_iff, discountOf_lastKnownGood hmode, discountColumn_eq_some, min_fits_iff]
  generalize getRiskPremiumBps state = premium
  have hkept : (requested ≤ hundredths (min (requested + premium) config.maxRiskPremiumBps) ∧
      hundredths (min (requested + premium) config.maxRiskPremiumBps) ≤ requested + premium) ↔
      Kept requested premium config.maxRiskPremiumBps := by
    rw [hundredths_min, le_min_iff, min_le_iff]
    exact ⟨fun h => ⟨h.1.1, h.1.2, h.2⟩, fun h => ⟨⟨h.sum, h.underCap⟩, h.above⟩⟩
  constructor
  · intro h
    by_cases hfits : (¬ TooLarge (requested + premium) ∨ ¬ TooLarge config.maxRiskPremiumBps) ∧
        ¬ TooSmall (requested + premium) ∧ ¬ TooSmall config.maxRiskPremiumBps
    · exact .inr (.inr (.inr (hkept.1 (h _ ⟨hfits, rfl⟩))))
    · tauto
  · rintro h recorded ⟨⟨hlarge, hsum, hcap⟩, rfl⟩
    rw [hkept]
    tauto

/-- **When the premium never makes a funding cheaper.** For every configuration, every sequence of
activations and deactivations and every requested discount, the premium is sound exactly when:
without an activation in force, the requested discount has the two places of the column; and with
one of the last known good mode, rounded to the column, neither the sum of the requested discount
and the premium nor the cap is below the discount that was asked for, and one of them is not above
that sum. In either case the discount may also be out of the range of the column, so that none is
recorded. -/
theorem premiumSound_iff (config : OracleMonitorConfig) (calls : List StrategyCall)
    (requested : ℚ) :
    PremiumSound config calls requested ↔
      (inForce calls = none →
        TooLarge requested ∨ TooSmall requested ∨ hundredths requested = requested) ∧
      ∀ riskPremiumBps reason now,
        inForce calls = some (.activate .lastKnownGood riskPremiumBps reason now) →
        let premium := min riskPremiumBps config.maxRiskPremiumBps
        (TooLarge (requested + premium) ∧ TooLarge config.maxRiskPremiumBps) ∨
        TooSmall (requested + premium) ∨ TooSmall config.maxRiskPremiumBps ∨
        Kept requested premium config.maxRiskPremiumBps := by
  constructor
  · intro h
    refine ⟨fun hforce => ?_, fun riskPremiumBps reason now hforce => ?_⟩
    · have hnone := (stateAfter_eq_none config).2 hforce
      have hexact := h.inactive hnone
      rw [hnone] at hexact
      exact records_inactive_iff.1 hexact
    · obtain ⟨hmode, hpremium⟩ := lastKnownGood_iff.2 ⟨_, _, _, hforce, rfl⟩
      have hiff := (records_active_iff hmode).1 fun recorded hrec =>
        ⟨h.raises hmode recorded hrec, h.bounded hmode recorded hrec⟩
      rw [hpremium] at hiff
      exact hiff
  · rintro ⟨hinactive, hactive⟩
    have hbounds : getActiveMode (stateAfter config calls) = .lastKnownGood → ∀ recorded,
        Records config (stateAfter config calls) requested recorded →
        requested ≤ recorded ∧
          recorded ≤ requested + getRiskPremiumBps (stateAfter config calls) := by
      intro hmode
      obtain ⟨riskPremiumBps, reason, now, hforce, hpremium⟩ := lastKnownGood_iff.1 ⟨hmode, rfl⟩
      refine (records_active_iff hmode).2 ?_
      rw [hpremium]
      exact hactive _ _ _ hforce
    refine ⟨fun hmode recorded hrec => (hbounds hmode recorded hrec).1,
      fun hmode recorded hrec => (hbounds hmode recorded hrec).2, getRiskPremiumBps_le, ?_, ?_⟩
    · rintro requested' recorded recorded' hle hrec hrec'
      rw [(discountColumn_eq_some.1 (records_iff.1 hrec)).2,
        (discountColumn_eq_some.1 (records_iff.1 hrec')).2]
      exact hundredths_mono (discountOf_monotone config _ hle)
    · intro hnone
      rw [hnone]
      exact records_inactive_iff.2 (hinactive ((stateAfter_eq_none config).1 hnone))

/-- For a discount, a premium and a cap with two places the promise is kept exactly if the premium
and the cap are not negative and the requested discount does not exceed the cap. -/
theorem kept_iff_of_hundredths {requested risk cap : ℚ}
    (hrequested : hundredths requested = requested) (hrisk : hundredths risk = risk)
    (hcap : hundredths cap = cap) :
    Kept requested (min risk cap) cap ↔ 0 ≤ risk ∧ 0 ≤ cap ∧ requested ≤ cap := by
  have hsum : hundredths (requested + min risk cap) = requested + min risk cap := by
    obtain ⟨n, hn⟩ := rounded_eq_iff.1 hrequested
    have hpremium : hundredths (min risk cap) = min risk cap := by rw [hundredths_min, hrisk, hcap]
    obtain ⟨m, hm⟩ := rounded_eq_iff.1 hpremium
    exact rounded_eq_iff.2 ⟨n + m, by rw [add_mul, hn, hm, Int.cast_add]⟩
  constructor
  · intro h
    have hnonneg := h.sum
    rw [hsum, le_add_iff_nonneg_right, le_min_iff] at hnonneg
    exact ⟨hnonneg.1, hnonneg.2, hcap ▸ h.underCap⟩
  · rintro ⟨h0, h0', hle⟩
    refine ⟨?_, hcap.symm ▸ hle, .inl hsum.le⟩
    rw [hsum]
    exact le_add_of_nonneg_right (le_min h0 h0')

/-- A configuration with the default premium and the given cap. -/
def capConfig (maxRiskPremiumBps : ℚ) : OracleMonitorConfig :=
  { haltConfig with
    fallbackMode := .lastKnownGood
    maxRiskPremiumBps := maxRiskPremiumBps }

/-- Under a cap of 500 a funding that asks for 600 bps records 500; under a cap that allows no
premium a funding that asks for a discount of 0.1 records none; and without a fallback a discount of
0.125 is recorded as 0.13. -/
theorem funding_cheaper :
    ¬ PremiumSound (capConfig 500) [.activate .lastKnownGood 100 "oracle down" 0] 600 ∧
    ¬ PremiumSound (capConfig 0) [.activate .lastKnownGood 100 "oracle down" 0] (1 / 10) ∧
    ¬ PremiumSound (capConfig 500) [] (1 / 8) := by
  refine ⟨fun h => ?_, fun h => ?_, fun h => ?_⟩
  · have hle := h.raises rfl 500 (records_iff.2 (by decide +kernel))
    exact absurd hle (by norm_num)
  · have hle := h.raises rfl 0 (records_iff.2 (by decide +kernel))
    exact absurd hle (by norm_num)
  · have heq := h.inactive rfl (13 / 100) (records_iff.2 (by decide +kernel))
    exact absurd heq (by norm_num)

end OracleMonitor

end Backend

end InvoiceFi
