import InvoiceFi.Backend.OracleMonitor

/-!
# How fresh a feed is (`checkFeed`)

The monitor is there to notice that a feed no longer delivers prices: a feed is `Fresh` in a run of
polls if its `lastUpdatedAt` is always the time of the last check that obtained a price, and if it
is not `healthy` after a poll when every price obtained so far is older than its threshold.

`checkFeed` sets `lastUpdatedAt` to the present before it asks for the price, whatever the answer,
and takes the age of the feed from it: the age is zero, and neither of the two comparisons that
make a feed `stale` is met under a threshold of zero or more (`getFeed_concat`). So a feed stays
fresh only as long as every check of it obtains a price or cannot be told from one that does:
`fresh_iff`.
-/

namespace InvoiceFi

namespace Backend

namespace OracleMonitor

/-- What the network and the clock answer in a poll, feed by feed. -/
structure Round where
  now : Nat
  answers : String → Answers

/-- The poll of a round. -/
def Round.poll (config : OracleMonitorConfig) (r : Round) : Poll :=
  .of config r.now fun feed => r.answers feed.feedId

/-- The services after a run of rounds. -/
def after (config : OracleMonitorConfig) (rounds : List Round) : Services :=
  (monitor config).exec (.initial config) (rounds.map (Round.poll config))

/-- The time of a round's check of a feed, if the check obtains a price. -/
def Round.priced (feed : FeedConfig) (r : Round) : Option Nat :=
  if feed.contractAddress = "" then none
  else (fetchOraclePrice (r.answers feed.feedId)).map fun _ => (r.answers feed.feedId).now

/-- The times at which a run has obtained a price of a feed, oldest first. -/
def pricedAt (feed : FeedConfig) (rounds : List Round) : List Nat :=
  rounds.filterMap (Round.priced feed)

/-- A feed is healthy only while prices keep arriving, throughout a run of polls: its
`lastUpdatedAt` is the time of the last check that obtained a price, or the initial one if none
has, and after a poll with no price obtained within the last `stalenessThresholdMs` it is not
healthy. -/
structure Fresh (config : OracleMonitorConfig) (feedId : String) (rounds : List Round) : Prop where
  updated : ∀ rs₁ rs₂ feed, rounds = rs₁ ++ rs₂ → getFeed feedId (after config rs₁) = some feed →
    feed.lastUpdatedAt = (pricedAt feed.toFeedConfig rs₁).getLast?.getD 0
  outage : ∀ rs₁ r rs₂ feed, rounds = rs₁ ++ r :: rs₂ →
    getFeed feedId (after config (rs₁ ++ [r])) = some feed →
    (∀ time ∈ pricedAt feed.toFeedConfig (rs₁ ++ [r]),
      feed.stalenessThresholdMs < ((r.answers feedId).now : ℚ) - time) →
    feed.status ≠ .healthy

/-- After the rounds `rs` a round's check of a feed obtains a price, or cannot be told from one that
does: it is made at the very time of the last check that did, or, when none has, at the epoch and
under a negative threshold. -/
def Round.AsPriced (config : OracleMonitorConfig) (feed : FeedConfig) (rs : List Round)
    (r : Round) : Prop :=
  fetchOraclePrice (r.answers feed.feedId) ≠ none ∨
    (pricedAt feed rs).getLast? = some (r.answers feed.feedId).now ∨
    (pricedAt feed rs = [] ∧ (r.answers feed.feedId).now = 0 ∧
      (feed.stalenessThresholdMs < 0 ∨ config.warningThresholdMs < 0))

/-! ## What has been priced -/

theorem pricedAt_concat (feed : FeedConfig) (rs : List Round) (r : Round) :
    pricedAt feed (rs ++ [r]) = pricedAt feed rs ++ (r.priced feed).toList := by
  rw [pricedAt, List.filterMap_append]
  cases h : r.priced feed <;> simp [pricedAt, h]

/-- The price of a feed without a contract address is not asked for. -/
theorem pricedAt_of_no_address {feed : FeedConfig} (h : feed.contractAddress = "")
    (rs : List Round) : pricedAt feed rs = [] :=
  List.filterMap_eq_nil_iff.2 fun _ _ => if_pos h

theorem pricedAt_concat_of_none {feed : FeedConfig} {rs : List Round} {r : Round}
    (h : fetchOraclePrice (r.answers feed.feedId) = none) :
    pricedAt feed (rs ++ [r]) = pricedAt feed rs := by
  have hnone : r.priced feed = none := by rw [Round.priced, h, Option.map_none, ite_self]
  rw [pricedAt_concat, hnone, Option.toList_none, List.append_nil]

theorem pricedAt_concat_of_some {feed : FeedConfig} {rs : List Round} {r : Round} {price : Price}
    (ha : feed.contractAddress ≠ "")
    (h : fetchOraclePrice (r.answers feed.feedId) = some price) :
    pricedAt feed (rs ++ [r]) = pricedAt feed rs ++ [(r.answers feed.feedId).now] := by
  have hsome : r.priced feed = some (r.answers feed.feedId).now := by
    rw [Round.priced, if_neg ha, h, Option.map_some]
  rw [pricedAt_concat, hsome, Option.toList_some]

/-! ## One feed in a poll -/

/-- The alerts change what is said of a feed, not what is known of it. -/
theorem evaluateFeed_fst (now : Nat) (feed : OracleFeed) :
    (evaluateFeed now feed).1.toFeedConfig = feed.toFeedConfig ∧
      (evaluateFeed now feed).1.lastUpdatedAt = feed.lastUpdatedAt ∧
      (evaluateFeed now feed).1.status = feed.status := by
  unfold evaluateFeed
  dsimp only
  split_ifs <;> exact ⟨rfl, rfl, rfl⟩

/-- A feed without a contract address is unknown, and nothing else of it changes. -/
theorem checkFeed_of_no_address {config : OracleMonitorConfig} {answers : Answers}
    {feed : OracleFeed} (h : feed.contractAddress = "") :
    checkFeed config answers feed = { feed with status := .unknown } :=
  if_pos h

/-- A feed with a contract address is as old as the check, price or not, and healthy unless a
threshold is negative. -/
theorem checkFeed_of_address (config : OracleMonitorConfig) (answers : Answers)
    {feed : OracleFeed} (h : feed.contractAddress ≠ "") :
    (checkFeed config answers feed).toFeedConfig = feed.toFeedConfig ∧
      (checkFeed config answers feed).lastUpdatedAt = answers.now ∧
      ((checkFeed config answers feed).status = .healthy ↔
        0 ≤ feed.stalenessThresholdMs ∧ 0 ≤ config.warningThresholdMs) := by
  rw [checkFeed, if_neg h]
  dsimp only
  rw [sub_self]
  split_ifs with hstale hwarning
  · exact ⟨rfl, rfl, by simp [hstale]⟩
  · exact ⟨rfl, rfl, by simp [hwarning]⟩
  · exact ⟨rfl, rfl, by simp [not_lt.1 hstale, not_lt.1 hwarning]⟩

/-- What a round's check makes of a feed, and what is left of it after the alerts. -/
theorem pollFeed_poll (config : OracleMonitorConfig) (r : Round) (feed : OracleFeed) :
    (pollFeed (r.poll config) feed).1.toFeedConfig = feed.toFeedConfig ∧
      (pollFeed (r.poll config) feed).1.lastUpdatedAt =
        (checkFeed config (r.answers feed.feedId) feed).lastUpdatedAt ∧
      (pollFeed (r.poll config) feed).1.status =
        (checkFeed config (r.answers feed.feedId) feed).status := by
  obtain ⟨hconfig, hupdated, hstatus⟩ :=
    evaluateFeed_fst r.now (checkFeed config (r.answers feed.feedId) feed)
  refine ⟨hconfig.trans ?_, hupdated, hstatus⟩
  by_cases h : feed.contractAddress = ""
  · rw [checkFeed_of_no_address h]
  · exact (checkFeed_of_address _ _ h).1

/-! ## A feed in a run -/

/-- The feeds of a poll are polled one by one. -/
theorem poll_feeds (config : OracleMonitorConfig) (p : Poll) (s : Services) :
    (poll config p s).2.monitor.feeds = s.monitor.feeds.map fun feed => (pollFeed p feed).1 := by
  unfold poll activateFallback
  dsimp only
  split_ifs <;> simp [Function.comp_def]

theorem after_concat (config : OracleMonitorConfig) (rs : List Round) (r : Round) :
    after config (rs ++ [r]) = (poll config (r.poll config) (after config rs)).2 := by
  rw [after, List.map_append, List.map_singleton, Machine.exec_concat]
  rfl

/-- A round polls the feed that it finds. -/
theorem getFeed_after_concat (config : OracleMonitorConfig) (feedId : String) (rs : List Round)
    (r : Round) :
    getFeed feedId (after config (rs ++ [r])) =
      (getFeed feedId (after config rs)).map fun feed => (pollFeed (r.poll config) feed).1 := by
  have hid : ∀ feed : OracleFeed, (pollFeed (r.poll config) feed).1.feedId = feed.feedId :=
    fun feed => congrArg FeedConfig.feedId (pollFeed_poll config r feed).1
  rw [getFeed, after_concat, poll_feeds, List.find?_map]
  simp only [Function.comp_def, hid]
  rfl

/-- The configuration of a feed is the initial one throughout a run. -/
theorem config_of_after (config : OracleMonitorConfig) (feedId : String) (rs : List Round) :
    (getFeed feedId (after config rs)).map OracleFeed.toFeedConfig =
      (getFeed feedId (.initial config)).map OracleFeed.toFeedConfig := by
  induction rs using List.reverseRecOn with
  | nil => rfl
  | append_singleton rs r ih =>
    rw [getFeed_after_concat, Option.map_map, ← ih]
    exact congrArg (Option.map · _) (funext fun feed => (pollFeed_poll config r feed).1)

/-- So what holds of the configuration of the feed initially holds of it after every run. -/
theorem forall_config_iff (config : OracleMonitorConfig) (feedId : String) (rs : List Round)
    (P : FeedConfig → Prop) :
    (∀ feed, getFeed feedId (after config rs) = some feed → P feed.toFeedConfig) ↔
      ∀ feed, getFeed feedId (.initial config) = some feed → P feed.toFeedConfig := by
  have hmap : ∀ found : Option OracleFeed, (∀ feed, found = some feed → P feed.toFeedConfig) ↔
      ∀ feedCfg, found.map OracleFeed.toFeedConfig = some feedCfg → P feedCfg := by
    rintro (_ | found) <;> simp
  rw [hmap, hmap, config_of_after]

theorem feedId_of_getFeed {feedId : String} {s : Services} {feed : OracleFeed}
    (h : getFeed feedId s = some feed) : feed.feedId = feedId := by
  have hid := List.find?_some h
  exact of_decide_eq_true hid

/-- A feed that is set is in the map, and the others are those that were there. -/
theorem mem_setFeed {feeds : List OracleFeed} {feed f : OracleFeed} (h : f ∈ setFeed feeds feed) :
    f = feed ∨ f ∈ feeds := by
  unfold setFeed at h
  split_ifs at h
  · obtain ⟨g, hg, rfl⟩ := List.mem_map.1 h
    split_ifs with hid
    · exact .inl rfl
    · exact .inr hg
  · exact (List.mem_append.1 h).symm.imp List.mem_singleton.1 id

/-- Before the first poll nothing is known of a feed. -/
theorem mem_onModuleInit {config : OracleMonitorConfig} {feed : OracleFeed}
    (h : feed ∈ onModuleInit config) : feed.lastUpdatedAt = 0 ∧ feed.status = .unknown := by
  unfold onModuleInit at h
  split_ifs at h with henabled
  · revert feed
    refine List.foldlRecOn config.feeds _ (motive := fun feeds : List OracleFeed =>
      ∀ {feed}, feed ∈ feeds → feed.lastUpdatedAt = 0 ∧ feed.status = .unknown)
      (fun h => absurd h List.not_mem_nil) ?_
    intro feeds ih feedCfg _ feed h
    rcases mem_setFeed h with rfl | h
    · exact ⟨rfl, rfl⟩
    · exact ih h
  · exact absurd h List.not_mem_nil

theorem getFeed_initial {config : OracleMonitorConfig} {feedId : String} {feed : OracleFeed}
    (h : getFeed feedId (.initial config) = some feed) :
    feed.lastUpdatedAt = 0 ∧ feed.status = .unknown :=
  mem_onModuleInit (List.mem_of_find?_eq_some h)

/-- Nothing is ever known of a feed without a contract address. -/
theorem getFeed_of_no_address {config : OracleMonitorConfig} {feedId : String} {rs : List Round}
    {feed : OracleFeed} (h : getFeed feedId (after config rs) = some feed)
    (ha : feed.contractAddress = "") : feed.lastUpdatedAt = 0 ∧ feed.status = .unknown := by
  induction rs using List.reverseRecOn generalizing feed with
  | nil => exact getFeed_initial h
  | append_singleton rs r ih =>
    rw [getFeed_after_concat, Option.map_eq_some_iff] at h
    obtain ⟨found, hfound, rfl⟩ := h
    obtain ⟨hconfig, hupdated, hstatus⟩ := pollFeed_poll config r found
    have ha' : found.contractAddress = "" :=
      (congrArg FeedConfig.contractAddress hconfig).symm.trans ha
    rw [hupdated, hstatus, checkFeed_of_no_address ha']
    exact ⟨(ih hfound ha').1, rfl⟩

/-- After a poll a feed with a contract address is as old as its check, price or not, and healthy
unless a threshold is negative. -/
theorem getFeed_concat {config : OracleMonitorConfig} {feedId : String} {rs : List Round}
    {r : Round} {feed : OracleFeed} (h : getFeed feedId (after config (rs ++ [r])) = some feed)
    (ha : feed.contractAddress ≠ "") :
    feed.lastUpdatedAt = (r.answers feedId).now ∧
      (feed.status = .healthy ↔
        0 ≤ feed.stalenessThresholdMs ∧ 0 ≤ config.warningThresholdMs) := by
  rw [getFeed_after_concat, Option.map_eq_some_iff] at h
  obtain ⟨found, hfound, rfl⟩ := h
  obtain ⟨hconfig, hupdated, hstatus⟩ := pollFeed_poll config r found
  have ha' : found.contractAddress ≠ "" := fun hempty =>
    ha ((congrArg FeedConfig.contractAddress hconfig).trans hempty)
  obtain ⟨-, hnow, hhealthy⟩ := checkFeed_of_address config (r.answers found.feedId) ha'
  rw [hupdated, hstatus, hnow, hhealthy, hconfig, feedId_of_getFeed hfound]
  exact ⟨rfl, Iff.rfl⟩

/-! ## Outages -/

/-- After a poll a feed with a contract address is as it should be exactly when its check has
obtained a price or cannot be told from one that has. -/
theorem fresh_concat_iff {config : OracleMonitorConfig} {feedId : String} {rs : List Round}
    {r : Round} {feed : OracleFeed} (h : getFeed feedId (after config (rs ++ [r])) = some feed)
    (ha : feed.contractAddress ≠ "") :
    (feed.lastUpdatedAt = (pricedAt feed.toFeedConfig (rs ++ [r])).getLast?.getD 0 ∧
      ((∀ time ∈ pricedAt feed.toFeedConfig (rs ++ [r]),
        feed.stalenessThresholdMs < ((r.answers feedId).now : ℚ) - time) →
        feed.status ≠ .healthy)) ↔
      r.AsPriced config feed.toFeedConfig rs := by
  obtain ⟨hnow, hhealthy⟩ := getFeed_concat h ha
  cases feedId_of_getFeed h
  -- an age of zero is over a threshold only when the threshold is negative
  have hover : ∀ {times : List Nat}, (r.answers feed.feedId).now ∈ times →
      (∀ time ∈ times, feed.stalenessThresholdMs < ((r.answers feed.feedId).now : ℚ) - time) →
      feed.status ≠ .healthy := by
    intro times hmem hout
    have hneg := hout _ hmem
    rw [sub_self] at hneg
    exact fun hstatus => absurd (hhealthy.1 hstatus).1 (not_le.2 hneg)
  cases hprice : fetchOraclePrice (r.answers feed.feedId) with
  | some price =>
    rw [pricedAt_concat_of_some ha hprice, List.getLast?_concat, hnow]
    refine iff_of_true ⟨rfl, hover (List.mem_append_right _ (.head _))⟩ (.inl ?_)
    rw [hprice]
    exact Option.some_ne_none price
  | none =>
    rw [pricedAt_concat_of_none hprice, hnow, Round.AsPriced, hprice, or_iff_right (not_not.2 rfl)]
    cases hlast : (pricedAt feed.toFeedConfig rs).getLast? with
    | some time =>
      have hmem : time ∈ pricedAt feed.toFeedConfig rs := List.mem_of_getLast? hlast
      constructor
      · rintro ⟨htime, -⟩
        exact .inl (congrArg some htime.symm)
      · rintro (htime | ⟨hnil, -⟩)
        · cases htime
          exact ⟨rfl, hover hmem⟩
        · exact absurd hmem (hnil ▸ List.not_mem_nil)
    | none =>
      have hnil := List.getLast?_eq_none_iff.1 hlast
      rw [hnil, Option.getD_none, ne_eq, hhealthy, not_and_or, not_le, not_le]
      constructor
      · rintro ⟨hzero, hout⟩
        exact .inr ⟨rfl, hzero, hout fun _ htime => absurd htime List.not_mem_nil⟩
      · rintro (htime | ⟨-, hzero, hneg⟩)
        · exact nomatch htime
        · exact ⟨hzero, fun _ => hneg⟩

/-- **An outage is not noticed.** A feed is fresh in a run of polls exactly when it is not
monitored, has no contract address, or every check of it obtains a price, but for the checks that
cannot be told from one that does. -/
theorem fresh_iff (config : OracleMonitorConfig) (feedId : String) (rounds : List Round) :
    Fresh config feedId rounds ↔
      ∀ feed, getFeed feedId (.initial config) = some feed → feed.contractAddress ≠ "" →
        ∀ rs₁ r rs₂, rounds = rs₁ ++ r :: rs₂ → r.AsPriced config feed.toFeedConfig rs₁ := by
  constructor
  · intro hfresh feed hinit ha rs₁ r rs₂ hsplit
    refine (forall_config_iff config feedId (rs₁ ++ [r]) fun feedCfg =>
      feedCfg.contractAddress ≠ "" → r.AsPriced config feedCfg rs₁).1 ?_ feed hinit ha
    intro polled hpolled ha
    refine (fresh_concat_iff hpolled ha).1 ⟨?_, ?_⟩
    · exact hfresh.updated (rs₁ ++ [r]) rs₂ polled (by simp [hsplit]) hpolled
    · exact hfresh.outage rs₁ r rs₂ polled hsplit hpolled
  · intro h
    have hpriced : ∀ rs₁ r rs₂ polled, rounds = rs₁ ++ r :: rs₂ →
        getFeed feedId (after config (rs₁ ++ [r])) = some polled → polled.contractAddress ≠ "" →
        r.AsPriced config polled.toFeedConfig rs₁ := by
      intro rs₁ r rs₂ polled hsplit hpolled
      refine (forall_config_iff config feedId (rs₁ ++ [r]) fun feedCfg =>
        feedCfg.contractAddress ≠ "" → r.AsPriced config feedCfg rs₁).2 ?_ polled hpolled
      exact fun feed hinit ha => h feed hinit ha rs₁ r rs₂ hsplit
    constructor
    · intro rs₁ rs₂ feed hsplit hfeed
      by_cases ha : feed.contractAddress = ""
      · rw [pricedAt_of_no_address ha]
        exact (getFeed_of_no_address hfeed ha).1
      · rcases List.eq_nil_or_concat rs₁ with rfl | ⟨rs, r, rfl⟩
        · exact (getFeed_initial hfeed).1
        · rw [List.concat_eq_append] at hsplit hfeed ⊢
          exact ((fresh_concat_iff hfeed ha).2
            (hpriced rs r rs₂ feed (by simp [hsplit]) hfeed ha)).1
    · intro rs₁ r rs₂ feed hsplit hfeed
      by_cases ha : feed.contractAddress = ""
      · rw [(getFeed_of_no_address hfeed ha).2]
        exact fun _ => nofun
      · exact ((fresh_concat_iff hfeed ha).2 (hpriced rs₁ r rs₂ feed hsplit hfeed ha)).2

/-- A monitor of one feed, with the default thresholds. -/
def xlmUsdConfig : OracleMonitorConfig where
  enabled := true
  warningThresholdMs := 240000
  fallbackMode := .none
  fallbackRiskPremiumBps := 1000
  maxRiskPremiumBps := 5000
  feeds := [⟨"xlm-usd", "XLM/USD Oracle", "CDLZ", 300000, 500⟩]
  maxConsecutiveFailures := 3

/-- A round at the time `now` in which neither of the requests succeeds. -/
def downAt (now : Nat) : Round := ⟨now, fun _ => ⟨none, now, now, .failed⟩⟩

/-- No price has ever been obtained, and the feed is healthy, updated when it was last polled. -/
theorem outage_not_noticed :
    (getFeed "xlm-usd" (after xlmUsdConfig [downAt 1000000, downAt 2000000])).map
        (fun feed => (feed.status, feed.lastUpdatedAt, feed.lastKnownPrice)) =
      some (.healthy, 2000000, none) ∧
    ¬ Fresh xlmUsdConfig "xlm-usd" [downAt 1000000, downAt 2000000] := by
  have hfeed : (getFeed "xlm-usd" (after xlmUsdConfig [downAt 1000000, downAt 2000000])).map
      (fun feed => (feed.status, feed.lastUpdatedAt, feed.lastKnownPrice)) =
        some (.healthy, 2000000, none) := by
    decide +kernel
  refine ⟨hfeed, fun hfresh => ?_⟩
  obtain ⟨feed, hsome, heq⟩ := Option.map_eq_some_iff.1 hfeed
  have hnil : pricedAt feed.toFeedConfig ([downAt 1000000] ++ [downAt 2000000]) = [] := by
    simp [pricedAt, Round.priced, downAt, fetchOraclePrice]
  refine hfresh.outage [downAt 1000000] (downAt 2000000) [] feed rfl hsome ?_
    (congrArg Prod.fst heq)
  rw [hnil]
  exact fun _ h => absurd h List.not_mem_nil

end OracleMonitor

end Backend

end InvoiceFi
