import InvoiceFi.Backend.Services
import InvoiceFi.Lib.Machine
import Mathlib.Data.Rat.Floor

/-!
# The oracle monitor and the fallback (`oracle-monitor/`)

The monitor polls the oracle feeds, counts the polls in a row that find some feed not healthy and,
past a limit, activates a fallback in `FallbackStrategyService`, whose `halt` mode blocks fundings.
The mode of the fallback is kept twice, in the monitor and in the strategy. `monitor` is the machine
of the two services: an invocation is a poll, its result the alerts that the poll dispatches.

What a poll makes of a feed is a parameter of it (`Poll.check`), so that the results here hold for
every outcome; `checkFeed` is the service's own, with the answers of the network and the clock as
its arguments. `deactivateFallback` is called by nothing and is left out, and so is the report of
`getHealth`.

The monitor takes its mode from the configuration when it is constructed, and activates the
fallback only while its mode is `none`. So under a configuration that asks for a fallback it never
activates one: `fallback_sound_iff`.
-/

namespace InvoiceFi

namespace Backend

namespace OracleMonitor

/-! ## Data (`oracle-monitor.types.ts`) -/

/-- `FeedStatus`. -/
inductive FeedStatus where
  | healthy
  | stale
  | unknown
  deriving DecidableEq, Repr

/-- `FallbackMode`. -/
inductive Mode where
  | none
  | lastKnownGood
  | halt
  deriving DecidableEq, Repr

/-- The name of a mode in messages. -/
def Mode.name : Mode → String
  | .none => "none"
  | .lastKnownGood => "last_known_good"
  | .halt => "halt"

/-- The configuration of a feed. -/
structure FeedConfig where
  feedId : String
  name : String
  contractAddress : String
  stalenessThresholdMs : ℚ
  riskPremiumBps : ℚ
  deriving DecidableEq

/-- `OracleMonitorConfig`: what the two services read of it. -/
structure OracleMonitorConfig where
  enabled : Bool
  warningThresholdMs : ℚ
  fallbackMode : Mode
  fallbackRiskPremiumBps : ℚ
  maxRiskPremiumBps : ℚ
  feeds : List FeedConfig
  maxConsecutiveFailures : ℚ

/-- A number that `parseFloat` gives, `NaN` apart. -/
abbrev Price := WithBot (WithTop ℚ)

/-- `OracleFeed`. -/
structure OracleFeed extends FeedConfig where
  lastKnownPrice : Option Price
  lastUpdateLedger : Nat
  lastUpdatedAt : Nat
  status : FeedStatus
  fallbackActive : Bool
  deriving DecidableEq

/-- `FeedHealthReport`. -/
structure FeedHealthReport where
  feedId : String
  name : String
  status : FeedStatus
  lastUpdateLedger : Nat
  lastUpdatedAt : String
  stalenessThresholdMs : ℚ
  staleMs : Int
  fallbackActive : Bool
  deriving DecidableEq

/-- `OracleAlert.severity`. -/
inductive Severity where
  | warning
  | critical
  deriving DecidableEq, Repr

/-- `OracleAlert.type`, the types that the monitor uses. -/
inductive AlertType where
  | stalenessBreached
  | fallbackActivated
  | fallbackDeactivated
  deriving DecidableEq, Repr

/-- `OracleAlert`. -/
structure OracleAlert where
  id : String
  feedId : String
  severity : Severity
  type : AlertType
  message : String
  feed : FeedHealthReport
  occurredAt : String
  deriving DecidableEq

/-! ## The strategy (`fallback-strategy.service.ts`) -/

/-- `FallbackState`. -/
structure Fallback where
  mode : Mode
  riskPremiumBps : ℚ
  activatedAt : Nat
  reason : String
  deriving DecidableEq

/-- `activate`. -/
def activate (config : OracleMonitorConfig) (mode : Mode) (riskPremiumBps : ℚ) (reason : String)
    (now : Nat) (state : Option Fallback) : Option Fallback :=
  match state with
  | some fallback => some fallback
  | none => some ⟨mode, min riskPremiumBps config.maxRiskPremiumBps, now, reason⟩

/-- `getActiveMode`. -/
def getActiveMode (state : Option Fallback) : Mode := (state.map Fallback.mode).getD .none

/-- `shouldBlockFunding`. -/
def shouldBlockFunding (state : Option Fallback) : Bool :=
  decide (state.map Fallback.mode = some .halt)

/-- The state of the strategy as a funding call reads it. -/
def Fallback.toFallbackState (config : OracleMonitorConfig) (fallback : Fallback) :
    FallbackState where
  mode :=
    match fallback.mode with
    | .none => .other
    | .lastKnownGood => .lastKnownGood
    | .halt => .halt
  riskPremiumBps := fallback.riskPremiumBps
  maxRiskPremiumBps := config.maxRiskPremiumBps

/-- A funding call is blocked by the strategy exactly as `shouldBlockFunding` says. -/
theorem guardHalt_eq_ok {config : OracleMonitorConfig} {state : Option Fallback} {call : FundCall}
    (h : call.atGuard = state.map (Fallback.toFallbackState config)) {u : Unit} :
    guardHalt call = .ok u ↔ shouldBlockFunding state = false := by
  rw [guardHalt, rejectIf_eq_ok, h, shouldBlockFunding, decide_eq_false_iff_not, not_iff_not]
  cases state with
  | none => simp
  | some fallback => cases hmode : fallback.mode <;> simp [Fallback.toFallbackState, hmode]

/-! ## The monitor (`oracle-monitor.service.ts`) -/

/-- The state of the monitor. -/
structure Monitor where
  feeds : List OracleFeed
  lastPollAt : Option Nat
  consecutiveFailures : Nat
  fallbackMode : Mode
  fallbackRiskPremiumBps : ℚ

/-- The two services. -/
structure Services where
  monitor : Monitor
  strategy : Option Fallback

/-- `this.feeds.set(feed.feedId, feed)`. -/
def setFeed (feeds : List OracleFeed) (feed : OracleFeed) : List OracleFeed :=
  if feeds.any (fun f => decide (f.feedId = feed.feedId)) then
    feeds.map fun f => if f.feedId = feed.feedId then feed else f
  else feeds ++ [feed]

/-- `onModuleInit`: the feeds of the configuration. -/
def onModuleInit (config : OracleMonitorConfig) : List OracleFeed :=
  if config.enabled then
    config.feeds.foldl (fun feeds feedCfg => setFeed feeds
      { toFeedConfig := feedCfg
        lastKnownPrice := none
        lastUpdateLedger := 0
        lastUpdatedAt := 0
        status := .unknown
        fallbackActive := false }) []
  else []

/-- The services when they have been constructed and initialised. -/
def Services.initial (config : OracleMonitorConfig) : Services where
  monitor :=
    { feeds := onModuleInit config
      lastPollAt := none
      consecutiveFailures := 0
      fallbackMode := config.fallbackMode
      fallbackRiskPremiumBps := 0 }
  strategy := none

/-- `getFeed`. -/
def getFeed (feedId : String) (s : Services) : Option OracleFeed :=
  s.monitor.feeds.find? fun feed => decide (feed.feedId = feedId)

/-- `toHealthReport`, at the time `now`. -/
def toHealthReport (now : Nat) (feed : OracleFeed) : FeedHealthReport where
  feedId := feed.feedId
  name := feed.name
  status := feed.status
  lastUpdateLedger := feed.lastUpdateLedger
  lastUpdatedAt := toISOString feed.lastUpdatedAt
  stalenessThresholdMs := feed.stalenessThresholdMs
  staleMs := if feed.status = .unknown then 0 else (now : Int) - feed.lastUpdatedAt
  fallbackActive := feed.fallbackActive

/-- What the RPC node answers to the request for a price: the request or the reading of its body
fails, the status is not a success, or the body, with the number that its `xdr` parses to: a body
may have no `xdr`, and an `xdr` may parse to no number. -/
inductive PriceAnswer where
  | failed
  | notOk
  | body (xdr : Option (Option Price))

/-- What the network and the clock answer while a feed is checked: the ledger that Horizon reports,
if it answers, and the time when it does not, the time of the check, and the answer to the request
for the price. -/
structure Answers where
  ledger : Option Nat
  simulatedAt : Nat
  now : Nat
  price : PriceAnswer

/-- `fetchLedgerInfo`. -/
def fetchLedgerInfo (answers : Answers) : Nat := answers.ledger.getD (answers.simulatedAt / 6000)

/-- `fetchOraclePrice`. -/
def fetchOraclePrice (answers : Answers) : Option Price :=
  match answers.price with
  | .failed => none
  | .notOk => none
  | .body none => none
  | .body (some parsed) => parsed.filter fun price => price ≠ 0

/-- `checkFeed`. -/
def checkFeed (config : OracleMonitorConfig) (answers : Answers) (feed : OracleFeed) :
    OracleFeed :=
  if feed.contractAddress = "" then { feed with status := .unknown }
  else
    let feed := { feed with
      lastUpdateLedger := fetchLedgerInfo answers
      lastUpdatedAt := answers.now
      lastKnownPrice := fetchOraclePrice answers }
    let staleMs : ℚ := (answers.now : ℚ) - feed.lastUpdatedAt
    if feed.stalenessThresholdMs < staleMs then { feed with status := .stale }
    else if config.warningThresholdMs < staleMs then { feed with status := .stale }
    else { feed with status := .healthy }

/-- `Math.round(ms / 1000)`. -/
def seconds (ms : ℚ) : String := toString ⌊ms / 1000 + 1 / 2⌋

/-- `evaluateFeed`, at the time `now`: the feed and the alerts about it. -/
def evaluateFeed (now : Nat) (feed : OracleFeed) : OracleFeed × List OracleAlert :=
  let staleMs : Int := (now : Int) - feed.lastUpdatedAt
  if feed.status = .stale ∧ feed.fallbackActive = false then
    let feed := { feed with fallbackActive := true }
    (feed,
      [{ id := "stale:" ++ feed.feedId ++ ":" ++ toString now
         feedId := feed.feedId
         severity := if feed.stalenessThresholdMs < staleMs then .critical else .warning
         type := .stalenessBreached
         message := "Oracle feed \"" ++ feed.name ++ "\" is stale (" ++ seconds staleMs ++
           "s since last update, threshold: " ++ seconds feed.stalenessThresholdMs ++ "s)"
         feed := toHealthReport now feed
         occurredAt := toISOString now }])
  else if feed.status = .healthy ∧ feed.fallbackActive = true then
    let feed := { feed with fallbackActive := false }
    (feed,
      [{ id := "recovered:" ++ feed.feedId ++ ":" ++ toString now
         feedId := feed.feedId
         severity := .warning
         type := .fallbackDeactivated
         message := "Oracle feed \"" ++ feed.name ++ "\" recovered, deactivating fallback"
         feed := toHealthReport now feed
         occurredAt := toISOString now }])
  else (feed, [])

/-- A poll: its time, and what its check makes of each feed. A check that throws gives the feed as
it has left it. -/
structure Poll where
  now : Nat
  check : OracleFeed → Except OracleFeed OracleFeed

/-- The poll of the service, with the answers that it gets for each feed. -/
def Poll.of (config : OracleMonitorConfig) (now : Nat) (answers : OracleFeed → Answers) :
    Poll where
  now := now
  check feed := .ok (checkFeed config (answers feed) feed)

/-- The part of a poll that is about one feed: the feed and the alerts about it. -/
def pollFeed (p : Poll) (feed : OracleFeed) : OracleFeed × List OracleAlert :=
  match p.check feed with
  | .ok feed => evaluateFeed p.now feed
  | .error feed => evaluateFeed p.now { feed with status := .unknown }

/-- `activateFallback`, with the alert that it dispatches. -/
def activateFallback (config : OracleMonitorConfig) (message : String) (now : Nat) (s : Services) :
    Services × List OracleAlert :=
  if s.monitor.fallbackMode ≠ .none then (s, [])
  else
    ({ monitor := { s.monitor with
         fallbackMode := config.fallbackMode
         fallbackRiskPremiumBps := config.fallbackRiskPremiumBps }
       strategy := activate config config.fallbackMode config.fallbackRiskPremiumBps message now
         s.strategy },
      [{ id := "fallback:activate:" ++ toString now
         feedId := "system"
         severity := .critical
         type := .fallbackActivated
         message := "Fallback mode activated: " ++ config.fallbackMode.name ++ ". " ++ message
         feed := ⟨"system", "System", .stale, 0, toISOString now, 0, 0, true⟩
         occurredAt := toISOString now }])

/-- Every feed is healthy. -/
def Services.AllHealthy (s : Services) : Prop := ∀ feed ∈ s.monitor.feeds, feed.status = .healthy

instance (s : Services) : Decidable s.AllHealthy :=
  inferInstanceAs (Decidable (∀ feed ∈ s.monitor.feeds, feed.status = .healthy))

/-- `poll`: the services it leaves and the alerts it dispatches. -/
def poll (config : OracleMonitorConfig) (p : Poll) (s : Services) :
    List OracleAlert × Services :=
  let polled := s.monitor.feeds.map (pollFeed p)
  let alerts := polled.flatMap Prod.snd
  let s := { s with monitor := { s.monitor with
    feeds := polled.map Prod.fst
    lastPollAt := some p.now } }
  let s := { s with monitor := { s.monitor with
    consecutiveFailures := if s.AllHealthy then 0 else s.monitor.consecutiveFailures + 1 } }
  if config.maxConsecutiveFailures ≤ s.monitor.consecutiveFailures ∧
      s.monitor.fallbackMode = .none then
    let (s, alert) := activateFallback config "Multiple oracle feeds stale, activating fallback"
      p.now s
    (alert ++ alerts, s)
  else (alerts, s)

/-- The two services as a machine. -/
def monitor (config : OracleMonitorConfig) : Machine Services Poll Empty (List OracleAlert) where
  init := .initial config
  invoke p s := .ok (poll config p s)

/-! ## The fallback over a run -/

/-- A poll while the monitor's mode is not `none` changes neither mode. -/
theorem modes_of_poll {config : OracleMonitorConfig} {p : Poll} {s : Services}
    (h : s.monitor.fallbackMode ≠ .none) :
    (poll config p s).2.monitor.fallbackMode = s.monitor.fallbackMode ∧
      (poll config p s).2.strategy = s.strategy := by
  unfold poll
  dsimp only
  rw [if_neg fun hact => h hact.2]
  exact ⟨rfl, rfl⟩

/-- Under a configuration that asks for a fallback, the monitor's mode stays the configured one and
the strategy stays inactive. -/
theorem modes_exec {config : OracleMonitorConfig} (hmode : config.fallbackMode ≠ .none)
    (polls : List Poll) :
    ((monitor config).exec (.initial config) polls).monitor.fallbackMode = config.fallbackMode ∧
      ((monitor config).exec (.initial config) polls).strategy = none := by
  refine Machine.invariant (I := fun s : Services =>
    s.monitor.fallbackMode = config.fallbackMode ∧ s.strategy = none) ⟨rfl, rfl⟩ ?_ polls
  rintro p s r s' ⟨hmonitor, hstrategy⟩ hi
  have hs' : s' = (poll config p s).2 := (congrArg Prod.snd (Except.ok.inj hi)).symm
  have hne : s.monitor.fallbackMode ≠ .none := hmonitor ▸ hmode
  obtain ⟨hm, hs⟩ : (poll config p s).2.monitor.fallbackMode = s.monitor.fallbackMode ∧
      (poll config p s).2.strategy = s.strategy := modes_of_poll hne
  rw [hs', hm, hs]
  exact ⟨hmonitor, hstrategy⟩

/-- The fallback is active when it should be, and only then, throughout a run of polls: after
`maxConsecutiveFailures` polls in a row that leave some feed not healthy the strategy is active with
the configured mode, and blocks the fundings if the mode is `halt`; after a poll that leaves every
feed healthy it is inactive; and after every poll the two services are in the same mode. -/
structure FallbackSound (config : OracleMonitorConfig) (polls : List Poll) : Prop where
  activates : ∀ ps₁ ps₂ ps₃, polls = ps₁ ++ ps₂ ++ ps₃ → ps₂ ≠ [] →
    config.maxConsecutiveFailures ≤ ps₂.length →
    (∀ t ∈ (monitor config).trace ((monitor config).exec (.initial config) ps₁) ps₂,
      ¬ t.post.AllHealthy) →
    getActiveMode ((monitor config).exec (.initial config) (ps₁ ++ ps₂)).strategy =
        config.fallbackMode ∧
      (config.fallbackMode = .halt → ∀ call : FundCall, call.atGuard =
          ((monitor config).exec (.initial config) (ps₁ ++ ps₂)).strategy.map
            (Fallback.toFallbackState config) →
        ∃ e, guardHalt call = .error e)
  deactivates : ∀ ps₁ p ps₂, polls = ps₁ ++ p :: ps₂ →
    ((monitor config).exec (.initial config) (ps₁ ++ [p])).AllHealthy →
    getActiveMode ((monitor config).exec (.initial config) (ps₁ ++ [p])).strategy = .none
  agrees : ∀ ps₁ p ps₂, polls = ps₁ ++ p :: ps₂ →
    ((monitor config).exec (.initial config) (ps₁ ++ [p])).monitor.fallbackMode =
      getActiveMode ((monitor config).exec (.initial config) (ps₁ ++ [p])).strategy

/-- **A configured fallback is never activated.** For every configuration that asks for a fallback,
every set of feeds and every outcome of the polls, the fallback is sound only as long as there has
been no poll: from the first poll on the monitor reports the configured mode, and the strategy is
inactive. -/
theorem fallback_sound_iff {config : OracleMonitorConfig}
    (hmode : config.fallbackMode = .halt ∨ config.fallbackMode = .lastKnownGood)
    (polls : List Poll) : FallbackSound config polls ↔ polls = [] := by
  have hne : config.fallbackMode ≠ .none := by
    rcases hmode with h | h <;> rw [h] <;> decide
  constructor
  · intro h
    cases polls with
    | nil => rfl
    | cons p ps =>
      have hagrees := h.agrees [] p ps rfl
      obtain ⟨hmonitor, hstrategy⟩ := modes_exec hne ([] ++ [p])
      rw [hmonitor, hstrategy] at hagrees
      exact absurd hagrees hne
  · rintro rfl
    refine ⟨?_, ?_, ?_⟩
    · intro ps₁ ps₂ ps₃ hsplit hps₂
      have hnil := (List.append_eq_nil_iff.1 hsplit.symm).1
      exact absurd (List.append_eq_nil_iff.1 hnil).2 hps₂
    · intro ps₁ p ps₂ hsplit
      exact absurd hsplit.symm (List.append_ne_nil_of_right_ne_nil _ (List.cons_ne_nil _ _))
    · intro ps₁ p ps₂ hsplit
      exact absurd hsplit.symm (List.append_ne_nil_of_right_ne_nil _ (List.cons_ne_nil _ _))

/-- A configuration that halts the fundings after one failure, with a feed that has no contract
address. -/
def haltConfig : OracleMonitorConfig where
  enabled := true
  warningThresholdMs := 240000
  fallbackMode := .halt
  fallbackRiskPremiumBps := 1000
  maxRiskPremiumBps := 5000
  feeds := [⟨"xlm-usd", "XLM/USD Oracle", "", 300000, 500⟩]
  maxConsecutiveFailures := 3

/-- A poll of the service at the time `now`. -/
def pollAt (now : Nat) : Poll := .of haltConfig now fun _ => ⟨some 100, now, now, .notOk⟩

theorem fallback_sound_iff_halt :
    FallbackSound haltConfig [pollAt 1, pollAt 2, pollAt 3] ↔
      [pollAt 1, pollAt 2, pollAt 3] = [] :=
  fallback_sound_iff (.inl rfl) _

/-- Three polls in a row find the feed not healthy, and the fundings are not halted. -/
theorem fundings_not_halted :
    (∀ t ∈ (monitor haltConfig).trace (.initial haltConfig) [pollAt 1, pollAt 2, pollAt 3],
      ¬ t.post.AllHealthy) ∧
    getActiveMode ((monitor haltConfig).exec (.initial haltConfig)
      [pollAt 1, pollAt 2, pollAt 3]).strategy = .none ∧
    ¬ FallbackSound haltConfig [pollAt 1, pollAt 2, pollAt 3] := by
  refine ⟨?_, rfl, fun h => ?_⟩
  · decide +kernel
  · exact absurd (h.agrees [] (pollAt 1) [pollAt 2, pollAt 3] rfl) (by decide)

end OracleMonitor

end Backend

end InvoiceFi
