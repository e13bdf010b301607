import InvoiceFi.Backend.OracleMonitor.Freshness
import InvoiceFi.Lib.Cooldown
import Std.Data.String.ToNat

/-!
# The alerts of the monitor (`oracle-alert.service.ts`)

The dispatcher suppresses an alert whose id it has sent less than `alertCooldownMs` ago. The ids are
made by the monitor, of the type of the alert, its feed and the time at which it is raised
(`alertId`). So the same alert raised again has another id, and is sent whatever the cooldown is:
the cooldown is respected where the monitor itself does not raise the same alert twice within it
(`cooldown_respected`), and, where no alert is raised twice in one millisecond, only there
(`cooldownRespected_iff`).

A poll has a reading of the clock for each of its parts. The dispatcher does not act on the monitor,
so that the dispatches of a run are those of the alerts of its polls, in order (`dispatches`).
-/

namespace InvoiceFi

namespace Backend

namespace OracleMonitor

/-! ## The dispatcher -/

/-- `OracleMonitorConfig`, with what the dispatcher reads of it. -/
structure AlertConfig extends OracleMonitorConfig where
  alertWebhookUrl : Option String
  alertCooldownMs : ℚ

/-- What the request to the webhook comes to: it fails, or it is answered. -/
inductive WebhookResponse where
  | failed
  | notOk
  | ok
  deriving DecidableEq, Repr

/-- What becomes of an alert: it is suppressed, or sent; a sent alert may not be delivered. -/
inductive Outcome where
  | suppressed
  | sent (delivered : Bool)
  deriving DecidableEq, Repr

/-- What `dispatch` returns. -/
def Outcome.returned : Outcome → Bool
  | .suppressed => false
  | .sent delivered => delivered

/-- `dispatch`, at the time `now`. An alert without a webhook goes to the log. -/
def dispatch (config : AlertConfig) (alert : OracleAlert) (now : Nat) (response : WebhookResponse)
    (sentAt : String → Option Nat) : Outcome × (String → Option Nat) :=
  if Within config.alertCooldownMs (sentAt alert.id) now then (.suppressed, sentAt)
  else
    let sentAt := Function.update sentAt alert.id (some now)
    if config.alertWebhookUrl.getD "" = "" then (.sent true, sentAt)
    else
      match response with
      | .ok => (.sent true, sentAt)
      | .notOk => (.sent false, sentAt)
      | .failed => (.sent false, sentAt)

/-- A call of `dispatch`. -/
structure Offer where
  alert : OracleAlert
  now : Nat
  response : WebhookResponse

/-- The dispatcher as a machine. -/
def dispatcher (config : AlertConfig) : Machine (String → Option Nat) Offer Empty Outcome where
  init _ := none
  invoke o sentAt := .ok (dispatch config o.alert o.now o.response sentAt)

/-- A call of the dispatcher, with its result. -/
abbrev Dispatch := Step (String → Option Nat) Offer Empty Outcome

/-- The alert has been sent. -/
def Dispatch.Sent (d : Dispatch) : Prop := ∃ delivered, d.result = .ok (.sent delivered)

instance (d : Dispatch) : Decidable d.Sent :=
  match h : d.result with
  | .ok (.sent delivered) => .isTrue ⟨delivered, h⟩
  | .ok .suppressed => .isFalse fun ⟨_, hd⟩ => by cases h.symm.trans hd
  | .error e => nomatch e

theorem dispatcher_step (config : AlertConfig) (o : Offer) (sentAt : String → Option Nat) :
    (dispatcher config).step o sentAt =
      ⟨sentAt, o, .ok (dispatch config o.alert o.now o.response sentAt).1,
        (dispatch config o.alert o.now o.response sentAt).2⟩ := rfl

/-- An alert that is sent sets the time of its id, whatever the webhook answers. -/
theorem dispatch_sent {config : AlertConfig} {alert : OracleAlert} {now : Nat}
    (response : WebhookResponse) {sentAt : String → Option Nat}
    (h : ¬ Within config.alertCooldownMs (sentAt alert.id) now) :
    ∃ delivered, dispatch config alert now response sentAt =
      (.sent delivered, Function.update sentAt alert.id (some now)) := by
  unfold dispatch
  rw [if_neg h]
  dsimp only
  split
  · exact ⟨true, rfl⟩
  · cases response with
    | ok => exact ⟨true, rfl⟩
    | notOk | failed => exact ⟨false, rfl⟩

/-- The dispatcher has a cooldown for each id. -/
def cooldown (config : AlertConfig) : Cooldown (dispatcher config) String where
  period := config.alertCooldownMs
  sentAt sentAt := sentAt
  offer d := some (d.input.alert.id, d.input.now)
  Passes := Dispatch.Sent
  init _ := rfl
  idle h := by cases h
  held := by
    rintro o sentAt k now ⟨⟩ hp
    by_cases h : Within config.alertCooldownMs (sentAt o.alert.id) o.now
    · refine ⟨h, ?_⟩
      rw [dispatcher_step, dispatch, if_pos h]
    · obtain ⟨delivered, hd⟩ := dispatch_sent o.response h
      exact absurd ⟨delivered, by rw [dispatcher_step, hd]⟩ hp
  passed := by
    rintro o sentAt k now ⟨⟩ ⟨delivered, hp⟩
    rw [dispatcher_step] at hp ⊢
    by_cases h : Within config.alertCooldownMs (sentAt o.alert.id) o.now
    · rw [dispatch, if_pos h] at hp
      cases hp
    · obtain ⟨delivered', hd⟩ := dispatch_sent o.response h
      exact ⟨h, by rw [hd]⟩

/-! ## The polls -/

/-- What the check of a feed assigns to it. A check that throws leaves it `unknown`. -/
structure Checked where
  lastKnownPrice : Option Price
  lastUpdateLedger : Nat
  lastUpdatedAt : Nat
  status : FeedStatus

/-- The feed that its check leaves. -/
def Checked.apply (c : Checked) (feed : OracleFeed) : OracleFeed :=
  { feed with
    lastKnownPrice := c.lastKnownPrice
    lastUpdateLedger := c.lastUpdateLedger
    lastUpdatedAt := c.lastUpdatedAt
    status := c.status }

/-- A poll: what it makes of each feed, what the webhook answers, and the readings of the clock:
when it starts, when it evaluates a feed, when it activates the fallback, and when the dispatcher
gets the alert of a type and a feed. -/
structure AlertPoll where
  startedAt : Nat
  check : OracleFeed → Checked
  evaluatedAt : String → Nat
  activatedAt : Nat
  dispatchedAt : AlertType → String → Nat
  response : AlertType → String → WebhookResponse

/-- The part of a poll that is about one feed. -/
def AlertPoll.pollFeed (p : AlertPoll) (feed : OracleFeed) : OracleFeed × List OracleAlert :=
  evaluateFeed (p.evaluatedAt feed.feedId) ((p.check feed).apply feed)

/-- `consecutiveFailures` after the checks of a poll. -/
def AlertPoll.failures (p : AlertPoll) (s : Services) : Nat :=
  if ∀ feed ∈ s.monitor.feeds, (p.check feed).status = .healthy then 0
  else s.monitor.consecutiveFailures + 1

/-- The poll activates the fallback. -/
def AlertPoll.Activates (config : OracleMonitorConfig) (p : AlertPoll) (s : Services) : Prop :=
  config.maxConsecutiveFailures ≤ p.failures s ∧ s.monitor.fallbackMode = .none

instance (config : OracleMonitorConfig) (p : AlertPoll) (s : Services) :
    Decidable (p.Activates config s) := inferInstanceAs (Decidable (_ ∧ _))

/-- `poll`: the services it leaves and the alerts it dispatches, in their order. -/
def AlertPoll.poll (config : OracleMonitorConfig) (p : AlertPoll) (s : Services) :
    List OracleAlert × Services :=
  let polled := s.monitor.feeds.map p.pollFeed
  let alerts := polled.flatMap Prod.snd
  let s' := { s with monitor := { s.monitor with
    feeds := polled.map Prod.fst
    lastPollAt := some p.startedAt
    consecutiveFailures := p.failures s } }
  if p.Activates config s then
    let (s', alert) := activateFallback config "Multiple oracle feeds stale, activating fallback"
      p.activatedAt s'
    (alert ++ alerts, s')
  else (alerts, s')

/-- With one reading of the clock for all its parts, the poll is the one of the monitor. -/
theorem AlertPoll.poll_eq (config : OracleMonitorConfig) (p : AlertPoll) (s : Services) (now : Nat)
    (hstarted : p.startedAt = now) (hevaluated : ∀ feedId, p.evaluatedAt feedId = now)
    (hactivated : p.activatedAt = now) :
    p.poll config s =
      OracleMonitor.poll config ⟨now, fun feed => .ok ((p.check feed).apply feed)⟩ s := by
  have hfeed : OracleMonitor.pollFeed ⟨now, fun feed => .ok ((p.check feed).apply feed)⟩ =
      p.pollFeed := by
    funext feed
    rw [AlertPoll.pollFeed, hevaluated]
    rfl
  have hstatus : ∀ feed, (p.pollFeed feed).1.status = (p.check feed).status := fun feed =>
    (evaluateFeed_fst _ _).2.2
  unfold AlertPoll.poll OracleMonitor.poll AlertPoll.Activates AlertPoll.failures
  rw [hfeed, hstarted, hactivated]
  simp only [Services.AllHealthy, List.forall_mem_map, hstatus]
  rfl

/-- The monitor as a machine of such polls. -/
def alertMonitor (config : AlertConfig) : Machine Services AlertPoll Empty (List OracleAlert) where
  init := .initial config.toOracleMonitorConfig
  invoke p s := .ok (p.poll config.toOracleMonitorConfig s)

/-- A poll of a run. -/
abbrev Polled := Step Services AlertPoll Empty (List OracleAlert)

/-- The alerts that a poll dispatches. -/
def Polled.alerts (t : Polled) : List OracleAlert :=
  match t.result with
  | .ok alerts => alerts
  | .error e => nomatch e

/-- The calls of `dispatch` that a poll makes. -/
def Polled.offers (t : Polled) : List Offer :=
  t.alerts.map fun alert =>
    ⟨alert, t.input.dispatchedAt alert.type alert.feedId, t.input.response alert.type alert.feedId⟩

/-- The polls of a run. -/
def polledIn (config : AlertConfig) (polls : List AlertPoll) : List Polled :=
  (alertMonitor config).trace (alertMonitor config).init polls

/-- The calls of `dispatch` in a run. -/
def offersIn (config : AlertConfig) (polls : List AlertPoll) : List Offer :=
  (polledIn config polls).flatMap Polled.offers

/-- The calls of `dispatch` in a run, with their results. -/
def dispatches (config : AlertConfig) (polls : List AlertPoll) : List Dispatch :=
  (dispatcher config).trace (dispatcher config).init (offersIn config polls)

/-- The readings of the clock in a poll, in the order in which they are made. -/
def Polled.readings (config : AlertConfig) (t : Polled) : List Nat :=
  t.input.startedAt :: t.pre.monitor.feeds.map (fun feed => t.input.evaluatedAt feed.feedId) ++
    (if t.input.Activates config.toOracleMonitorConfig t.pre then [t.input.activatedAt] else []) ++
    t.offers.map Offer.now

/-- The clock does not go back in a run. -/
def ClockOrdered (config : AlertConfig) (polls : List AlertPoll) : Prop :=
  ((polledIn config polls).flatMap (Polled.readings config)).Pairwise (· ≤ ·)

/-! ## The alerts of a poll -/

/-- The id of an alert that is raised at a time. -/
def alertId (type : AlertType) (feedId : String) (raisedAt : Nat) : String :=
  match type with
  | .stalenessBreached => "stale:" ++ feedId ++ ":" ++ toString raisedAt
  | .fallbackDeactivated => "recovered:" ++ feedId ++ ":" ++ toString raisedAt
  | .fallbackActivated => "fallback:activate:" ++ toString raisedAt

/-- The time at which a poll raises the alert of a type and a feed. -/
def AlertPoll.raisedAt (p : AlertPoll) (type : AlertType) (feedId : String) : Nat :=
  match type with
  | .fallbackActivated => p.activatedAt
  | .stalenessBreached | .fallbackDeactivated => p.evaluatedAt feedId

/-- The poll raises the alert of a type and a feed: the check finds the feed stale that was not
before, or healthy again, or the fallback is activated. -/
def AlertPoll.Raises (config : OracleMonitorConfig) (p : AlertPoll) (s : Services)
    (type : AlertType) (feedId : String) : Prop :=
  match type with
  | .stalenessBreached => ∃ feed ∈ s.monitor.feeds, feed.feedId = feedId ∧
      (p.check feed).status = .stale ∧ feed.fallbackActive = false
  | .fallbackDeactivated => ∃ feed ∈ s.monitor.feeds, feed.feedId = feedId ∧
      (p.check feed).status = .healthy ∧ feed.fallbackActive = true
  | .fallbackActivated => feedId = "system" ∧ p.Activates config s

/-- The alert about a feed that is newly stale. -/
theorem stale_evaluateFeed (now : Nat) (feed : OracleFeed)
    (h : feed.status = .stale ∧ feed.fallbackActive = false) :
    ∃ alert, (evaluateFeed now feed).2 = [alert] ∧ alert.feedId = feed.feedId ∧
      alert.id = alertId .stalenessBreached feed.feedId now ∧ alert.type = .stalenessBreached :=
  ⟨_, by rw [evaluateFeed, if_pos h], rfl, rfl, rfl⟩

/-- The alert about a feed that is healthy again. -/
theorem healthy_evaluateFeed (now : Nat) (feed : OracleFeed)
    (h : feed.status = .healthy ∧ feed.fallbackActive = true) :
    ∃ alert, (evaluateFeed now feed).2 = [alert] ∧ alert.feedId = feed.feedId ∧
      alert.id = alertId .fallbackDeactivated feed.feedId now ∧
      alert.type = .fallbackDeactivated := by
  have hstale : ¬ (feed.status = .stale ∧ feed.fallbackActive = false) := by
    rintro ⟨-, hfalse⟩
    exact absurd (hfalse.symm.trans h.2) Bool.false_ne_true
  exact ⟨_, by rw [evaluateFeed, if_neg hstale, if_pos h], rfl, rfl, rfl⟩

/-- The alerts about a feed: one when it is newly stale or healthy again, or none. -/
theorem alerts_evaluateFeed (now : Nat) (feed : OracleFeed) :
    (evaluateFeed now feed).2 = [] ∨
    ∃ alert, (evaluateFeed now feed).2 = [alert] ∧ alert.feedId = feed.feedId ∧
      alert.id = alertId alert.type feed.feedId now ∧
      (alert.type = .stalenessBreached ∧ feed.status = .stale ∧ feed.fallbackActive = false ∨
        alert.type = .fallbackDeactivated ∧ feed.status = .healthy ∧
          feed.fallbackActive = true) := by
  by_cases hstale : feed.status = .stale ∧ feed.fallbackActive = false
  · obtain ⟨alert, ha, hfeed, hid, htype⟩ := stale_evaluateFeed now feed hstale
    exact .inr ⟨alert, ha, hfeed, htype ▸ hid, .inl ⟨htype, hstale⟩⟩
  · by_cases hhealthy : feed.status = .healthy ∧ feed.fallbackActive = true
    · obtain ⟨alert, ha, hfeed, hid, htype⟩ := healthy_evaluateFeed now feed hhealthy
      exact .inr ⟨alert, ha, hfeed, htype ▸ hid, .inr ⟨htype, hhealthy⟩⟩
    · exact .inl (by rw [evaluateFeed, if_neg hstale, if_neg hhealthy])

/-- The alert that the activation of the fallback dispatches. -/
theorem activateFallback_alerts (config : OracleMonitorConfig) (message : String) (now : Nat)
    {s : Services} (h : s.monitor.fallbackMode = .none) :
    ∃ alert, (activateFallback config message now s).2 = [alert] ∧ alert.feedId = "system" ∧
      alert.type = .fallbackActivated ∧ alert.id = alertId .fallbackActivated "system" now := by
  refine ⟨_, by rw [activateFallback, if_neg fun hne => hne h], rfl, rfl, rfl⟩

/-- The alerts of a poll: the one of the activation, if it activates the fallback, then those about
the feeds. -/
theorem alerts_poll (config : OracleMonitorConfig) (p : AlertPoll) (s : Services) :
    ∃ activation, (p.poll config s).1 =
        activation ++ s.monitor.feeds.flatMap (fun feed => (p.pollFeed feed).2) ∧
      (activation = [] ∧ ¬ p.Activates config s ∨ p.Activates config s ∧
        ∃ alert, activation = [alert] ∧ alert.feedId = "system" ∧
          alert.type = .fallbackActivated ∧
          alert.id = alertId .fallbackActivated "system" p.activatedAt) := by
  unfold AlertPoll.poll
  dsimp only
  rw [List.flatMap_map]
  by_cases h : p.Activates config s
  · rw [if_pos h]
    obtain ⟨alert, halert, hid⟩ := activateFallback_alerts config
      "Multiple oracle feeds stale, activating fallback" p.activatedAt
      (s := { s with monitor := { s.monitor with
        feeds := (s.monitor.feeds.map p.pollFeed).map Prod.fst
        lastPollAt := some p.startedAt
        consecutiveFailures := p.failures s } }) h.2
    exact ⟨[alert], by rw [← halert], .inr ⟨h, alert, rfl, hid⟩⟩
  · rw [if_neg h]
    exact ⟨[], rfl, .inl ⟨rfl, h⟩⟩

/-- An alert of a poll is raised by it, and has the id of its type, feed and time. -/
theorem raises_of_mem {config : OracleMonitorConfig} {p : AlertPoll} {s : Services}
    {alert : OracleAlert} (h : alert ∈ (p.poll config s).1) :
    p.Raises config s alert.type alert.feedId ∧
      alert.id = alertId alert.type alert.feedId (p.raisedAt alert.type alert.feedId) := by
  obtain ⟨activation, halerts, hactivation⟩ := alerts_poll config p s
  rw [halerts, List.mem_append] at h
  rcases h with h | h
  · rcases hactivation with ⟨rfl, -⟩ | ⟨hact, a, rfl, hfeed, htype, hid⟩
    · cases h
    · cases List.mem_singleton.1 h
      rw [htype, hfeed]
      exact ⟨⟨rfl, hact⟩, hid⟩
  · obtain ⟨feed, hmem, halert⟩ := List.mem_flatMap.1 h
    rcases alerts_evaluateFeed (p.evaluatedAt feed.feedId) ((p.check feed).apply feed) with hnil |
      ⟨a, ha, hfeed, hid, htype⟩
    · rw [AlertPoll.pollFeed, hnil] at halert
      cases halert
    · rw [AlertPoll.pollFeed, ha] at halert
      cases List.mem_singleton.1 halert
      rw [hfeed, hid]
      rcases htype with ⟨htype, hstatus⟩ | ⟨htype, hstatus⟩ <;> rw [htype] <;>
        exact ⟨⟨feed, hmem, rfl, hstatus⟩, rfl⟩

/-- What a poll raises is among its alerts. -/
theorem mem_of_raises {config : OracleMonitorConfig} {p : AlertPoll} {s : Services}
    {type : AlertType} {feedId : String} (h : p.Raises config s type feedId) :
    ∃ alert ∈ (p.poll config s).1, alert.type = type ∧ alert.feedId = feedId := by
  obtain ⟨activation, halerts, hactivation⟩ := alerts_poll config p s
  rw [halerts]
  have hfeeds : ∀ feed ∈ s.monitor.feeds, ∀ alert, (p.pollFeed feed).2 = [alert] →
      alert ∈ activation ++ s.monitor.feeds.flatMap fun feed => (p.pollFeed feed).2 :=
    fun feed hmem alert ha => List.mem_append_right _
      (List.mem_flatMap.2 ⟨feed, hmem, by rw [ha]; exact .head _⟩)
  cases type with
  | fallbackActivated =>
    obtain ⟨rfl, hact⟩ := h
    rcases hactivation with ⟨-, hnot⟩ | ⟨-, alert, rfl, hfeed, htype, -⟩
    · exact absurd hact hnot
    · exact ⟨alert, .head _, htype, hfeed⟩
  | stalenessBreached =>
    obtain ⟨feed, hmem, rfl, hstale⟩ := h
    obtain ⟨alert, ha, hfeed, -, htype⟩ := stale_evaluateFeed
      (p.evaluatedAt feed.feedId) ((p.check feed).apply feed) hstale
    exact ⟨alert, hfeeds feed hmem alert ha, htype, hfeed⟩
  | fallbackDeactivated =>
    obtain ⟨feed, hmem, rfl, hhealthy⟩ := h
    obtain ⟨alert, ha, hfeed, -, htype⟩ := healthy_evaluateFeed
      (p.evaluatedAt feed.feedId) ((p.check feed).apply feed) hhealthy
    exact ⟨alert, hfeeds feed hmem alert ha, htype, hfeed⟩

/-! ## The feeds and the ids -/

theorem setFeed_nodup {feeds : List OracleFeed} {feed : OracleFeed}
    (h : (feeds.map fun f => f.feedId).Nodup) :
    ((setFeed feeds feed).map fun f => f.feedId).Nodup := by
  unfold setFeed
  split
  · next hany =>
    -- a feed that is there already keeps its place and its id
    have heq : ((feeds.map fun f => if f.feedId = feed.feedId then feed else f).map
        fun f => f.feedId) = feeds.map fun f => f.feedId := by
      rw [List.map_map]
      refine List.map_congr_left fun f _ => ?_
      by_cases hf : f.feedId = feed.feedId
      · rw [Function.comp_apply, if_pos hf, hf]
      · rw [Function.comp_apply, if_neg hf]
    rw [heq]
    exact h
  · next hany =>
    rw [List.map_append, List.nodup_append]
    refine ⟨h, List.nodup_singleton _, ?_⟩
    rintro a ha b hb rfl
    obtain ⟨f, hf, rfl⟩ := List.mem_map.1 ha
    exact hany (List.any_eq_true.2 ⟨f, hf, decide_eq_true (List.mem_singleton.1 hb)⟩)

theorem onModuleInit_nodup (config : OracleMonitorConfig) :
    ((onModuleInit config).map fun f => f.feedId).Nodup := by
  unfold onModuleInit
  split
  · refine List.foldlRecOn (motive := fun feeds : List OracleFeed =>
      (feeds.map fun f => f.feedId).Nodup) config.feeds _ ?_ fun feeds h feedCfg _ => ?_
    · exact .nil
    · exact setFeed_nodup h
  · exact .nil

theorem pollFeed_feedId (p : AlertPoll) (feed : OracleFeed) :
    (p.pollFeed feed).1.feedId = feed.feedId :=
  congrArg FeedConfig.feedId (evaluateFeed_fst _ _).1

/-- A poll keeps the ids of the feeds. -/
theorem poll_feedIds (config : OracleMonitorConfig) (p : AlertPoll) (s : Services) :
    ((p.poll config s).2.monitor.feeds.map fun f => f.feedId) =
      s.monitor.feeds.map fun f => f.feedId := by
  have hfeeds : (p.poll config s).2.monitor.feeds =
      (s.monitor.feeds.map p.pollFeed).map Prod.fst := by
    unfold AlertPoll.poll activateFallback
    dsimp only
    split
    · split <;> rfl
    · rfl
  rw [hfeeds, List.map_map, List.map_map]
  exact List.map_congr_left fun feed _ => pollFeed_feedId p feed

/-- In every state of a run the feeds have distinct ids. -/
theorem feedIds_nodup {config : AlertConfig} {polls : List AlertPoll} {t : Polled}
    (ht : t ∈ polledIn config polls) : (t.pre.monitor.feeds.map fun f => f.feedId).Nodup := by
  refine Machine.invariant_pre_of (I := fun s : Services =>
      (s.monitor.feeds.map fun f => f.feedId).Nodup) (C := fun _ => True)
    (onModuleInit_nodup _) ?_ (fun _ _ => trivial) ht
  rintro p s alerts s' h - hi
  have hs' : s' = (p.poll config.toOracleMonitorConfig s).2 :=
    (congrArg Prod.snd (Except.ok.inj hi)).symm
  rw [hs', poll_feedIds]
  exact h

/-- The alerts of a poll differ in their type or their feed. -/
theorem alerts_pairwise {config : OracleMonitorConfig} {p : AlertPoll} {s : Services}
    (h : (s.monitor.feeds.map fun f => f.feedId).Nodup) :
    (p.poll config s).1.Pairwise fun a b => a.type = b.type → a.feedId ≠ b.feedId := by
  obtain ⟨activation, halerts, hactivation⟩ := alerts_poll config p s
  have hone : ∀ feed, ∀ alert ∈ (p.pollFeed feed).2,
      alert.feedId = feed.feedId ∧ alert.type ≠ .fallbackActivated := by
    intro feed alert halert
    rcases alerts_evaluateFeed (p.evaluatedAt feed.feedId) ((p.check feed).apply feed) with hnil |
      ⟨a, ha, hfeed, -, htype⟩
    · rw [AlertPoll.pollFeed, hnil] at halert
      cases halert
    · rw [AlertPoll.pollFeed, ha] at halert
      cases List.mem_singleton.1 halert
      refine ⟨hfeed, fun hact => ?_⟩
      rcases htype with ⟨htype, -⟩ | ⟨htype, -⟩ <;> cases htype.symm.trans hact
  rw [halerts, List.pairwise_append, List.pairwise_flatMap]
  refine ⟨?_, ⟨fun feed _ => ?_, ?_⟩, fun a ha b hb htype => ?_⟩
  · rcases hactivation with ⟨rfl, -⟩ | ⟨-, alert, rfl, -⟩
    · exact .nil
    · exact List.pairwise_singleton _ _
  · rcases alerts_evaluateFeed (p.evaluatedAt feed.feedId) ((p.check feed).apply feed) with hnil |
      ⟨a, ha, -⟩
    · rw [AlertPoll.pollFeed, hnil]
      exact .nil
    · rw [AlertPoll.pollFeed, ha]
      exact List.pairwise_singleton _ _
  · refine (List.pairwise_map.1 h).imp fun hne a ha b hb _ => ?_
    rw [(hone _ a ha).1, (hone _ b hb).1]
    exact hne
  · obtain ⟨feed, -, hb⟩ := List.mem_flatMap.1 hb
    rcases hactivation with ⟨rfl, -⟩ | ⟨-, alert, rfl, -, hact, -⟩
    · cases ha
    · cases List.mem_singleton.1 ha
      exact absurd (htype.symm.trans hact) (hone feed b hb).2

/-- A decimal number has no colon. -/
theorem colon_not_mem (n : Nat) : ':' ∉ (toString n).toList := by
  intro hmem
  change ':' ∈ (Nat.repr n).toList at hmem
  rw [Nat.toList_repr] at hmem
  exact absurd (Nat.isDigit_of_mem_toDigits (by decide) (by decide) hmem) (by decide)

/-- A text that ends in a colon and a number determines the number and what stands before. -/
theorem colon_inj {x y : String} {m n : Nat} (h : x ++ ":" ++ toString m = y ++ ":" ++ toString n) :
    x = y ∧ m = n := by
  have hrev : ∀ (z : String) (k : Nat), (z ++ ":" ++ toString k).toList.reverse =
      (toString k).toList.reverse ++ ':' :: z.toList.reverse := fun z k => by
    simp
  have hdigits : ∀ (z : String) (k : Nat),
      (z ++ ":" ++ toString k).toList.reverse.takeWhile (fun c => decide (c ≠ ':')) =
        (toString k).toList.reverse := by
    intro z k
    have hpos : ∀ c ∈ (toString k).toList.reverse, decide (c ≠ ':') = true := fun c hc =>
      decide_eq_true fun heq => colon_not_mem k (heq ▸ List.mem_reverse.1 hc)
    rw [hrev, List.takeWhile_append_of_pos hpos, List.takeWhile_cons_of_neg (by simp),
      List.append_nil]
  have hnum : (toString m).toList.reverse = (toString n).toList.reverse := by
    rw [← hdigits x m, h, hdigits y n]
  have hrest := congrArg (fun text => text.toList.reverse) h
  simp only [hrev] at hrest
  rw [hnum, List.append_cancel_left_eq, List.cons_inj_right, List.reverse_inj] at hrest
  exact ⟨String.toList_inj.1 hrest, Nat.repr_inj.1 (String.toList_inj.1 (List.reverse_inj.1 hnum))⟩

/-- A raised alert's type and feed: the fallback is activated for the system. -/
def Keyed (type : AlertType) (feedId : String) : Prop :=
  type = .fallbackActivated → feedId = "system"

theorem head_append {x : String} {c : Char} (h : x.toList.head? = some c) (y : String) :
    (x ++ y).toList.head? = some c := by
  rw [String.toList_append, List.head?_append, h]
  rfl

theorem head_alertId (type : AlertType) (feedId : String) (n : Nat) :
    (alertId type feedId n).toList.head? = some
      (match type with
      | .stalenessBreached => 's'
      | .fallbackDeactivated => 'r'
      | .fallbackActivated => 'f') := by
  cases type with
  | stalenessBreached => exact head_append (head_append (head_append (by decide) _) _) _
  | fallbackDeactivated => exact head_append (head_append (head_append (by decide) _) _) _
  | fallbackActivated => exact head_append (by decide) _

/-- The id of an alert determines its type, its feed and the time at which it is raised. -/
theorem alertId_inj {type type' : AlertType} {feedId feedId' : String} {m n : Nat}
    (hkey : Keyed type feedId) (hkey' : Keyed type' feedId')
    (h : alertId type feedId m = alertId type' feedId' n) :
    type = type' ∧ feedId = feedId' ∧ m = n := by
  -- the three kinds of ids start with different letters
  have hkind := congrArg (fun text => text.toList.head?) h
  simp only [head_alertId] at hkind
  cases type with
  | stalenessBreached =>
    cases type' with
    | stalenessBreached =>
      obtain ⟨htext, hnum⟩ := colon_inj h
      exact ⟨rfl, (String.append_right_inj _).1 htext, hnum⟩
    | fallbackActivated | fallbackDeactivated => exact absurd hkind (by decide)
  | fallbackDeactivated =>
    cases type' with
    | fallbackDeactivated =>
      obtain ⟨htext, hnum⟩ := colon_inj h
      exact ⟨rfl, (String.append_right_inj _).1 htext, hnum⟩
    | fallbackActivated | stalenessBreached => exact absurd hkind (by decide)
  | fallbackActivated =>
    cases type' with
    | fallbackActivated =>
      refine ⟨rfl, (hkey rfl).trans (hkey' rfl).symm, ?_⟩
      exact Nat.repr_inj.1 ((String.append_right_inj _).1 h)
    | stalenessBreached | fallbackDeactivated => exact absurd hkind (by decide)

/-! ## The cooldown -/

/-- Two alerts of one type for one feed. -/
def OracleAlert.Like (a b : OracleAlert) : Prop := a.type = b.type ∧ a.feedId = b.feedId

instance (a b : OracleAlert) : Decidable (a.Like b) := inferInstanceAs (Decidable (_ ∧ _))

/-- The cooldown is respected in a run: two alerts of one type and one feed that are sent are sent
at least `alertCooldownMs` apart, and an alert is sent if none of its type and feed has been sent
less than that before. -/
structure CooldownRespected (config : AlertConfig) (polls : List AlertPoll) : Prop where
  apart : (dispatches config polls).Pairwise fun u d => u.input.alert.Like d.input.alert →
    Dispatch.Sent u → Dispatch.Sent d →
      (u.input.now : ℚ) + config.alertCooldownMs ≤ d.input.now
  unsuppressed : ∀ ds₁ d ds₂, dispatches config polls = ds₁ ++ d :: ds₂ →
    (∀ u ∈ ds₁, u.input.alert.Like d.input.alert → Dispatch.Sent u →
      (u.input.now : ℚ) + config.alertCooldownMs ≤ d.input.now) → Dispatch.Sent d

/-- A later poll raises no alert that an earlier one has raised less than `alertCooldownMs` before,
unless both are raised in the same millisecond. -/
def Spaced (config : AlertConfig) (u t : Polled) : Prop :=
  ∀ type feedId, u.input.Raises config.toOracleMonitorConfig u.pre type feedId →
    t.input.Raises config.toOracleMonitorConfig t.pre type feedId →
    (u.input.dispatchedAt type feedId : ℚ) + config.alertCooldownMs ≤
        t.input.dispatchedAt type feedId ∨
      u.input.raisedAt type feedId = t.input.raisedAt type feedId ∧
        u.input.dispatchedAt type feedId ≠ 0

variable {config : AlertConfig} {polls : List AlertPoll}

theorem alerts_of_mem {t : Polled} (ht : t ∈ polledIn config polls) :
    t.alerts = (t.input.poll config.toOracleMonitorConfig t.pre).1 := by
  obtain ⟨ps₁, p, ps₂, -, rfl⟩ := Machine.mem_trace.1 ht
  rfl

/-- What is dispatched for a poll is raised by it, with the id of its type, feed and time. -/
theorem raises_of_offer {t : Polled} (ht : t ∈ polledIn config polls) {o : Offer}
    (ho : o ∈ t.offers) :
    t.input.Raises config.toOracleMonitorConfig t.pre o.alert.type o.alert.feedId ∧
      o.alert.id = alertId o.alert.type o.alert.feedId
        (t.input.raisedAt o.alert.type o.alert.feedId) ∧
      o.now = t.input.dispatchedAt o.alert.type o.alert.feedId := by
  obtain ⟨alert, halert, rfl⟩ := List.mem_map.1 ho
  rw [alerts_of_mem ht] at halert
  obtain ⟨hraises, hid⟩ := raises_of_mem halert
  exact ⟨hraises, hid, rfl⟩

theorem AlertPoll.Raises.keyed {c : OracleMonitorConfig} {p : AlertPoll} {s : Services}
    {type : AlertType} {feedId : String} (h : p.Raises c s type feedId) : Keyed type feedId := by
  rintro rfl
  exact h.1

/-- Alerts of a run with one id are of one type and one feed, and raised at one time. -/
theorem like_of_id {u t : Polled} (hu : u ∈ polledIn config polls)
    (ht : t ∈ polledIn config polls) {o o' : Offer} (ho : o ∈ u.offers) (ho' : o' ∈ t.offers)
    (h : o.alert.id = o'.alert.id) :
    o.alert.Like o'.alert ∧ u.input.raisedAt o'.alert.type o'.alert.feedId =
      t.input.raisedAt o'.alert.type o'.alert.feedId := by
  obtain ⟨hraises, hid, -⟩ := raises_of_offer hu ho
  obtain ⟨hraises', hid', -⟩ := raises_of_offer ht ho'
  rw [hid, hid'] at h
  obtain ⟨htype, hfeed, htime⟩ := alertId_inj hraises.keyed hraises'.keyed h
  rw [htype, hfeed] at htime
  exact ⟨⟨htype, hfeed⟩, htime⟩

/-- The dispatches of a run are the calls of its polls. -/
theorem mem_dispatches {d : Dispatch} (hd : d ∈ dispatches config polls) :
    ∃ t ∈ polledIn config polls, d.input ∈ t.offers :=
  List.mem_flatMap.1 (Machine.input_mem_of_mem_trace hd)

/-- What relates the calls of each poll, and those of a poll to those of the later ones, relates the
dispatches of a run. -/
theorem pairwise_dispatches {R : Offer → Offer → Prop} :
    (dispatches config polls).Pairwise (fun u d => R u.input d.input) ↔
      (∀ t ∈ polledIn config polls, t.offers.Pairwise R) ∧
      (polledIn config polls).Pairwise fun u t => ∀ o ∈ u.offers, ∀ o' ∈ t.offers, R o o' := by
  rw [← List.pairwise_flatMap, ← List.pairwise_map]
  exact Iff.of_eq (congrArg (List.Pairwise R)
    (Machine.map_input_trace (m := dispatcher config) (dispatcher config).init _))

/-- The dispatcher's readings of the clock are in order. -/
theorem dispatches_ordered (h : ClockOrdered config polls) :
    (dispatches config polls).Pairwise fun u d => u.input.now ≤ d.input.now := by
  obtain ⟨hpoll, hpolls⟩ := List.pairwise_flatMap.1 h
  have hmem : ∀ t : Polled, ∀ o ∈ t.offers, o.now ∈ t.readings config := fun t o ho =>
    List.mem_append_right _ (List.mem_map_of_mem ho)
  refine (pairwise_dispatches (R := fun o o' => o.now ≤ o'.now)).2 ⟨fun t ht => ?_, ?_⟩
  · exact List.pairwise_map.1 (List.pairwise_append.1 (hpoll t ht)).2.1
  · exact hpolls.imp fun hle o ho o' ho' => hle _ (hmem _ o ho) _ (hmem _ o' ho')

/-- The alerts of one poll are of different types or feeds. -/
theorem offers_pairwise {t : Polled} (ht : t ∈ polledIn config polls) :
    t.offers.Pairwise fun o o' => ¬ o.alert.Like o'.alert := by
  rw [Polled.offers, List.pairwise_map, alerts_of_mem ht]
  exact (alerts_pairwise (feedIds_nodup ht)).imp fun h hlike => h hlike.1 hlike.2

theorem cooldown_ordered (h : ClockOrdered config polls) :
    (cooldown config).Ordered (offersIn config polls) := by
  refine (dispatches_ordered h).imp fun hle k previous now hu hd => ?_
  obtain ⟨-, rfl⟩ := Prod.mk.inj (Option.some.inj hu.1)
  obtain ⟨-, rfl⟩ := Prod.mk.inj (Option.some.inj hd.1)
  exact hle

/-- **An alert is suppressed only within the cooldown**: whatever the polls find, the first alert of
a type and a feed, and one raised after the cooldown, is sent. -/
theorem sent_of_apart {ds₁ ds₂ : List Dispatch} {d : Dispatch}
    (hsplit : dispatches config polls = ds₁ ++ d :: ds₂)
    (h : ∀ u ∈ ds₁, u.input.alert.Like d.input.alert → Dispatch.Sent u →
      (u.input.now : ℚ) + config.alertCooldownMs ≤ d.input.now) : Dispatch.Sent d := by
  by_contra hnot
  have hd : d ∈ dispatches config polls := by
    rw [hsplit]
    exact List.mem_append_right _ (.head _)
  obtain ⟨os₁, o, os₂, hoffers, rfl, rfl⟩ := Machine.trace_split hsplit
  obtain ⟨u, hu, previous, hsends, -, hnear⟩ :=
    (cooldown config).held_after os₁ o rfl hnot
  obtain ⟨hid, rfl⟩ := Prod.mk.inj (Option.some.inj hsends.1)
  -- the alert that holds this one back has its id, and so its type and feed
  have humem : u ∈ dispatches config polls := by
    rw [hsplit]
    exact List.mem_append_left _ hu
  obtain ⟨t, ht, hot⟩ := mem_dispatches humem
  obtain ⟨t', ht', hot'⟩ := mem_dispatches hd
  have happart := h u hu (like_of_id ht ht' hot hot' hid).1 hsends.2
  have hlt : (o.now : ℚ) - u.input.now < config.alertCooldownMs := hnear
  rw [Machine.step_input] at happart
  linarith

/-- Two sent alerts of one id are the cooldown apart. -/
theorem apart_of_id (hclock : ClockOrdered config polls) :
    (dispatches config polls).Pairwise fun u d => u.input.alert.id = d.input.alert.id →
      Dispatch.Sent u → Dispatch.Sent d → u.input.now ≠ 0 →
      (u.input.now : ℚ) + config.alertCooldownMs ≤ d.input.now := by
  refine ((cooldown config).apart (cooldown_ordered hclock)).imp fun happart hid hu hd h0 => ?_
  exact happart _ _ _ ⟨rfl, hu⟩ ⟨by rw [hid]; rfl, hd⟩ h0

/-- **The cooldown is respected if the monitor respects it.** In every run in which no poll raises
an alert of the type and feed of one raised less than `alertCooldownMs` before, except in the same
millisecond, the cooldown is respected. -/
theorem cooldown_respected (hclock : ClockOrdered config polls)
    (hspaced : (polledIn config polls).Pairwise (Spaced config)) :
    CooldownRespected config polls := by
  refine ⟨?_, fun ds₁ d ds₂ => sent_of_apart⟩
  -- alerts of one type and feed are apart by themselves, or have one id
  have hoffers : (dispatches config polls).Pairwise fun u d =>
      u.input.alert.Like d.input.alert →
        (u.input.now : ℚ) + config.alertCooldownMs ≤ d.input.now ∨
        u.input.alert.id = d.input.alert.id ∧ u.input.now ≠ 0 := by
    refine (pairwise_dispatches (R := fun o o' => o.alert.Like o'.alert →
      (o.now : ℚ) + config.alertCooldownMs ≤ o'.now ∨
        o.alert.id = o'.alert.id ∧ o.now ≠ 0)).2 ⟨fun t ht => ?_, ?_⟩
    · exact (offers_pairwise ht).imp fun hnot hlike => absurd hlike hnot
    · refine hspaced.imp_of_mem fun hu ht happart o ho o' ho' hlike => ?_
      obtain ⟨hraises, hid, hnow⟩ := raises_of_offer hu ho
      obtain ⟨hraises', hid', hnow'⟩ := raises_of_offer ht ho'
      rw [hlike.1, hlike.2] at hraises hid hnow
      rw [hnow, hnow', hid, hid']
      rcases happart _ _ hraises hraises' with hle | ⟨htime, h0⟩
      · exact .inl hle
      · exact .inr ⟨by rw [htime], h0⟩
  refine (hoffers.and (apart_of_id hclock)).imp ?_
  rintro u d ⟨hlike, hid⟩ h hu hd
  rcases hlike h with hle | ⟨heq, h0⟩
  · exact hle
  · exact hid heq hu hd h0

/-- No poll raises an alert of the type and feed of an earlier one in the same millisecond. -/
def TimesDistinct (config : AlertConfig) (polls : List AlertPoll) : Prop :=
  (polledIn config polls).Pairwise fun u t => ∀ type feedId,
    u.input.Raises config.toOracleMonitorConfig u.pre type feedId →
    t.input.Raises config.toOracleMonitorConfig t.pre type feedId →
    u.input.raisedAt type feedId ≠ t.input.raisedAt type feedId

/-- Where no alert is raised twice in one millisecond, the ids of a run are distinct. -/
theorem ids_distinct (h : TimesDistinct config polls) :
    (dispatches config polls).Pairwise fun u d => u.input.alert.id ≠ d.input.alert.id := by
  refine (pairwise_dispatches (R := fun o o' => o.alert.id ≠ o'.alert.id)).2 ⟨fun t ht => ?_, ?_⟩
  · refine (offers_pairwise ht).imp_of_mem fun ho ho' hnot hid => ?_
    exact hnot (like_of_id ht ht ho ho' hid).1
  · refine h.imp_of_mem fun hu ht hne o ho o' ho' hid => ?_
    obtain ⟨hlike, htime⟩ := like_of_id hu ht ho ho' hid
    have hraises := (raises_of_offer hu ho).1
    rw [hlike.1, hlike.2] at hraises
    exact hne _ _ hraises (raises_of_offer ht ho').1 htime

/-- Where the ids are distinct, every alert is sent. -/
theorem sent_of_distinct (h : TimesDistinct config polls) :
    ∀ d ∈ dispatches config polls, Dispatch.Sent d := by
  intro d hd
  obtain ⟨ds₁, ds₂, hsplit⟩ := List.append_of_mem hd
  have hids := ids_distinct h
  rw [hsplit, List.pairwise_append] at hids
  by_contra hnot
  obtain ⟨os₁, o, os₂, -, rfl, rfl⟩ := Machine.trace_split hsplit
  obtain ⟨u, hu, previous, hsends, -, -⟩ :=
    (cooldown config).held_after os₁ o rfl hnot
  exact hids.2.2 u hu _ (.head _) (Prod.mk.inj (Option.some.inj hsends.1)).1

/-- **Exactly when the cooldown is respected**, in the runs in which no alert is raised twice in one
millisecond: when no poll raises an alert of the type and feed of one raised less than
`alertCooldownMs` before. -/
theorem cooldownRespected_iff (hclock : ClockOrdered config polls)
    (hdistinct : TimesDistinct config polls) :
    CooldownRespected config polls ↔ (polledIn config polls).Pairwise (Spaced config) := by
  refine ⟨fun h => ?_, cooldown_respected hclock⟩
  have hall := sent_of_distinct hdistinct
  have happart : (dispatches config polls).Pairwise fun u d =>
      u.input.alert.Like d.input.alert →
        (u.input.now : ℚ) + config.alertCooldownMs ≤ d.input.now :=
    h.apart.imp_of_mem fun hu hd hle hlike => hle hlike (hall _ hu) (hall _ hd)
  have hpolls := (pairwise_dispatches (R := fun o o' => o.alert.Like o'.alert →
    (o.now : ℚ) + config.alertCooldownMs ≤ o'.now)).1 happart
  refine hpolls.2.imp_of_mem fun {u t} hu ht hle type feedId hraises hraises' => .inl ?_
  obtain ⟨a, ha, rfl, rfl⟩ := mem_of_raises hraises
  obtain ⟨b, hb, htype, hfeed⟩ := mem_of_raises hraises'
  rw [← alerts_of_mem hu] at ha
  rw [← alerts_of_mem ht] at hb
  have hle := hle _ (List.mem_map_of_mem ha) _ (List.mem_map_of_mem hb) ⟨htype.symm, hfeed.symm⟩
  rw [htype, hfeed] at hle
  exact hle

/-- The default configuration, of which no fallback is asked, with a feed that has no contract
address. -/
def defaultAlerts : AlertConfig where
  toOracleMonitorConfig := { haltConfig with fallbackMode := .none }
  alertWebhookUrl := none
  alertCooldownMs := 300000

/-- A poll at a time, all of whose parts read it, which finds every feed unknown. -/
def unknownAt (now : Nat) : AlertPoll where
  startedAt := now
  check _ := ⟨none, 0, 0, .unknown⟩
  evaluatedAt _ := now
  activatedAt := now
  dispatchedAt _ _ := now
  response _ _ := .ok

/-- Polls 30 seconds apart each send the alert of the activation from the third on. -/
theorem alert_every_poll :
    ¬ CooldownRespected defaultAlerts
      [unknownAt 30000, unknownAt 60000, unknownAt 90000, unknownAt 120000] := by
  intro h
  exact absurd h.apart (by decide +kernel)

/-- Polls that find every feed unknown raise the alert of the activation only. -/
theorem spaced_unknown {u t : Polled} {now : Nat} (hu : u.input = unknownAt now)
    (h : u.input.Activates config.toOracleMonitorConfig u.pre →
      t.input.Activates config.toOracleMonitorConfig t.pre →
      (u.input.dispatchedAt .fallbackActivated "system" : ℚ) + config.alertCooldownMs ≤
        t.input.dispatchedAt .fallbackActivated "system") : Spaced config u t := by
  rintro type feedId hraises hraises'
  cases type with
  | fallbackActivated =>
    obtain ⟨rfl, hact⟩ := hraises
    exact .inl (h hact hraises'.2)
  | stalenessBreached =>
    obtain ⟨feed, -, -, hstatus, -⟩ := hraises
    rw [hu] at hstatus
    cases hstatus
  | fallbackDeactivated =>
    obtain ⟨feed, -, -, hstatus, -⟩ := hraises
    rw [hu] at hstatus
    cases hstatus

/-- Two activations that are the cooldown apart. -/
theorem cooldown_respected_apart :
    CooldownRespected defaultAlerts
      [unknownAt 30000, unknownAt 60000, unknownAt 90000, unknownAt 390000] := by
  refine cooldown_respected (by unfold ClockOrdered; decide +kernel) ?_
  have happart : (polledIn defaultAlerts
      [unknownAt 30000, unknownAt 60000, unknownAt 90000, unknownAt 390000]).Pairwise fun u t =>
      u.input.Activates defaultAlerts.toOracleMonitorConfig u.pre →
      t.input.Activates defaultAlerts.toOracleMonitorConfig t.pre →
      (u.input.dispatchedAt .fallbackActivated "system" : ℚ) + defaultAlerts.alertCooldownMs ≤
        t.input.dispatchedAt .fallbackActivated "system" := by
    decide +kernel
  refine happart.imp_of_mem fun hu _ h => ?_
  have hinput := Machine.input_mem_of_mem_trace hu
  simp only [List.mem_cons, List.not_mem_nil, or_false] at hinput
  rcases hinput with heq | heq | heq | heq <;> exact spaced_unknown heq h

end OracleMonitor

end Backend

end InvoiceFi
