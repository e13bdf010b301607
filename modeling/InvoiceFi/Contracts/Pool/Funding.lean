import InvoiceFi.Contracts.Pool.Ledger

/-!
# Funding records and the price they need

`FundingStep` says what a step can do to the funding records and to the discount they are priced
with: the one-time setup fixes the discount, a successful `fund_invoice` writes the record of an
invoice that had none, and every other step leaves both alone. `Priced` carries that along a run:
the history of the setups and fundings determines the discount and every record, which gives
`fundings_sound`.

The other guard of `fund_invoice` is the age of the price feed, a saturating difference between the
ledger and a timestamp that `set_price_feed` takes as it is given. `funding_is_fresh` says what that
guarantees as long as no timestamp is ahead of its ledger, and `future_feed_funds` what happens
otherwise.
-/

namespace InvoiceFi

namespace Pool

/-! ## What one step can do -/

/-- The discount that a successful `initialize` sets. -/
def setupDiscount (t : PoolStep) : Option UInt32 :=
  match t.input.2, t.result with
  | .init _ _ _ bps, .ok _ => some bps
  | _, _ => none

/-- The invoice that a successful `fund_invoice` funds. -/
def fundedId (t : PoolStep) : Option UInt64 :=
  match t.input.2, t.result with
  | .fundInvoice _ n _ _, .ok _ => some n
  | _, _ => none

/-- The step is a successful `set_price_feed` with this timestamp. -/
def SetsFeed (timestamp : UInt32) (t : PoolStep) : Prop :=
  t.Accepted ∧ ∃ caller price, t.input.2 = .setPriceFeed caller price timestamp

/-- The step stores the feed it sets, or leaves the stored feed alone. -/
def FeedStep (t : PoolStep) : Prop :=
  (∃ price timestamp, SetsFeed timestamp t ∧ t.post.priceFeed = some (price, timestamp)) ∨
    t.post.priceFeed = t.pre.priceFeed

/-- What a step may do to the discount, to the funding records and to the price feed. -/
inductive FundingStep (t : PoolStep) : Prop
  | setup {bps : UInt32} (hbps : setupDiscount t = some bps) (hid : fundedId t = none)
      (hlt : bps.toNat < 10000) (hpre : t.pre.ac.multisig = none)
      (hpost : t.post.ac.multisig ≠ none) (hdisc : t.post.discountBps = some bps)
      (hfund : t.post.funding = t.pre.funding) (hfeed : t.post.priceFeed = t.pre.priceFeed)
  | fund {caller recipient : Address} {n : UInt64} {fv adv : I128}
      (hbps : setupDiscount t = none) (hid : fundedId t = some n)
      (hc : t.input.2 = .fundInvoice caller n fv recipient) (hr : t.result = .ok (.int adv))
      (hset : t.pre.ac.multisig ≠ none) (hac : t.post.ac = t.pre.ac) (hfv : 0 < fv.val)
      (hnone : t.pre.funding n = none) (hadv : advanceFor t.pre fv = .ok adv)
      (hdisc : t.post.discountBps = t.pre.discountBps)
      (hfund : t.post.funding = Function.update t.pre.funding n (some ⟨n, fv, adv, recipient⟩))
      (hfeed : t.post.priceFeed = t.pre.priceFeed)
  | idle (hbps : setupDiscount t = none) (hid : fundedId t = none)
      (hset : t.post.ac.multisig = none ↔ t.pre.ac.multisig = none)
      (hdisc : t.post.discountBps = t.pre.discountBps)
      (hfund : t.post.funding = t.pre.funding) (hfeed : FeedStep t)

theorem fundingStep_of_invoke {i : Env × Call} {s s' : Store} {r : Value}
    (h : pool.invoke i s = .ok (r, s')) : FundingStep ⟨s, i, .ok r, s'⟩ := by
  obtain ⟨env, c⟩ := i
  cases c with
  | init sg th tl bps =>
    obtain ⟨_, h, heq⟩ := map_eq_ok.1 h
    cases heq
    obtain ⟨hlt, ac, hac, rfl⟩ := init_eq_ok.1 h
    obtain ⟨hm, -, -, rfl⟩ := AccessControl.init_eq_ok.1 hac
    exact .setup rfl rfl hlt hm (by simp) rfl rfl rfl
  | deposit d amount =>
    obtain ⟨_, h, heq⟩ := map_eq_ok.1 h
    cases heq
    obtain ⟨-, -, -, -, -, b, -, v, -, rfl⟩ := deposit_eq_ok.1 h
    exact .idle rfl rfl Iff.rfl rfl rfl (.inr rfl)
  | withdraw p amount =>
    obtain ⟨_, h, heq⟩ := map_eq_ok.1 h
    cases heq
    obtain ⟨-, -, -, -, -, -, -, b, -, v, -, rfl⟩ := withdraw_eq_ok.1 h
    exact .idle rfl rfl Iff.rfl rfl rfl (.inr rfl)
  | fundInvoice c n fv p =>
    obtain ⟨⟨adv, s₁⟩, hf, heq⟩ := map_eq_ok.1 h
    cases heq
    obtain ⟨⟨cfg, hcfg⟩, -, -, hfv, hnone, -, hadv, -, v, -, b, -, rfl⟩ := fundInvoice_eq_ok.1 hf
    exact .fund rfl rfl rfl rfl (by simp [hcfg]) rfl hfv hnone hadv rfl rfl rfl
  | setTokenAddress c token address =>
    obtain ⟨_, h, heq⟩ := map_eq_ok.1 h
    cases heq
    obtain ⟨-, -, rfl⟩ := setTokenAddress_eq_ok.1 h
    exact .idle rfl rfl Iff.rfl rfl rfl (.inr rfl)
  | setOracleDiscountConfig c config =>
    obtain ⟨_, h, heq⟩ := map_eq_ok.1 h
    cases heq
    obtain ⟨-, -, -, -, rfl⟩ := setOracleDiscountConfig_eq_ok.1 h
    exact .idle rfl rfl Iff.rfl rfl rfl (.inr rfl)
  | setPriceFeed c price timestamp =>
    obtain ⟨_, h, heq⟩ := map_eq_ok.1 h
    cases heq
    obtain ⟨-, -, rfl⟩ := setPriceFeed_eq_ok.1 h
    exact .idle rfl rfl Iff.rfl rfl rfl (.inl ⟨price, timestamp, ⟨rfl, c, price, rfl⟩, rfl⟩)
  | access o =>
    obtain ⟨_, h, heq⟩ := map_eq_ok.1 h
    cases heq
    obtain ⟨ac, hac, rfl⟩ := access_eq_ok.1 h
    exact .idle rfl rfl (AccessControl.multisig_iff_of_apply hac) rfl rfl (.inr rfl)

/-- In every run, every step does to the discount and the records what a step may do. -/
theorem fundingStep_of_mem {is : List (Env × Call)} {t : PoolStep}
    (ht : t ∈ pool.trace pool.init is) : FundingStep t := by
  refine Machine.forall_mem_trace (P := FundingStep) ?_ ?_ t ht
  · intro i s r s' hi
    exact fundingStep_of_invoke hi
  · intro i s e
    refine .idle ?_ ?_ Iff.rfl rfl rfl (.inr rfl)
    · unfold setupDiscount
      split <;> first | rfl | contradiction
    · unfold fundedId
      split <;> first | rfl | contradiction

/-! ## The records and the history -/

/-- The discounts that the successful setups of a history set. -/
def setups (h : List PoolStep) : List UInt32 := h.filterMap setupDiscount

/-- The number of successful fundings of an invoice in a history. -/
def fundings (n : UInt64) (h : List PoolStep) : Nat :=
  h.countP fun t => fundedId t = some n

/-- What the record of a successful funding is: the one that the step `t` wrote, with the given
face value and recipient, and the advance that is the floor of the face value discounted by `d`. -/
structure RecordPriced (t : PoolStep) (d : UInt32) (f : Funding) : Prop where
  call : ∃ caller, t.input.2 = .fundInvoice caller f.invoiceId f.faceValue f.recipient
  result : t.result = .ok (.int f.advance)
  positive : 0 < f.faceValue.val
  floor : f.advance.val = f.faceValue.val * (10000 - d.toNat) / 10000
  nonneg : 0 ≤ f.advance.val
  le : f.advance.val ≤ f.faceValue.val

/-- The history determines the discount and the funding records. -/
structure Priced (h : List PoolStep) (s : Store) : Prop where
  discount : setups h = s.discountBps.toList
  set : s.ac.multisig = none ↔ s.discountBps = none
  below : (discountBps s).toNat < 10000
  once : ∀ n, fundings n h = if s.funding n = none then 0 else 1
  recorded : ∀ t ∈ h, ∀ n, fundedId t = some n → ∃ d f, s.discountBps = some d ∧
    s.funding n = some f ∧ f.invoiceId = n ∧ RecordPriced t d f

theorem fundings_concat (n : UInt64) (h : List PoolStep) (t : PoolStep) :
    fundings n (h ++ [t]) = fundings n h + if fundedId t = some n then 1 else 0 := by
  simp [fundings, List.countP_append, List.countP_singleton]

theorem setups_concat (h : List PoolStep) (t : PoolStep) :
    setups (h ++ [t]) = setups h ++ (setupDiscount t).toList := by
  rw [setups, List.filterMap_append, ← setups]
  cases hd : setupDiscount t with
  | none => simp [hd]
  | some bps => simp [hd]

section
variable {h : List PoolStep} {t : PoolStep}

/-- A step keeps the discount the one that the setup set. -/
theorem Priced.discount_step (ht : FundingStep t) (hp : Priced h t.pre) :
    setups (h ++ [t]) = t.post.discountBps.toList := by
  rw [setups_concat, hp.discount]
  cases ht with
  | setup hbps hid hlt hpre hpost hdisc hfund hfeed =>
    rw [hp.set.1 hpre, hbps, hdisc]
    rfl
  | fund hbps hid hc hr hset hac hfv hnone hadv hdisc hfund hfeed =>
    rw [hbps, hdisc]
    exact List.append_nil _
  | idle hbps hid hset hdisc hfund hfeed =>
    rw [hbps, hdisc]
    exact List.append_nil _

/-- A step keeps a discount present from the setup on. -/
theorem Priced.set_step (ht : FundingStep t) (hp : Priced h t.pre) :
    t.post.ac.multisig = none ↔ t.post.discountBps = none := by
  cases ht with
  | setup hbps hid hlt hpre hpost hdisc hfund hfeed => simp [hdisc, hpost]
  | fund hbps hid hc hr hset hac hfv hnone hadv hdisc hfund hfeed =>
    rw [hac, hdisc]
    exact hp.set
  | idle hbps hid hset hdisc hfund hfeed =>
    rw [hset, hdisc]
    exact hp.set

/-- A step keeps the discount below the denominator. -/
theorem Priced.below_step (ht : FundingStep t) (hp : Priced h t.pre) :
    (discountBps t.post).toNat < 10000 := by
  cases ht with
  | setup hbps hid hlt hpre hpost hdisc hfund hfeed => simpa [discountBps, hdisc] using hlt
  | fund hbps hid hc hr hset hac hfv hnone hadv hdisc hfund hfeed =>
    rw [discountBps, hdisc]
    exact hp.below
  | idle hbps hid hset hdisc hfund hfeed =>
    rw [discountBps, hdisc]
    exact hp.below

/-- A step funds an invoice once: the one it funds had no record. -/
theorem Priced.once_step (ht : FundingStep t) (hp : Priced h t.pre) (n : UInt64) :
    fundings n (h ++ [t]) = if t.post.funding n = none then 0 else 1 := by
  rw [fundings_concat, hp.once n]
  cases ht with
  | setup hbps hid hlt hpre hpost hdisc hfund hfeed => simp [hid, hfund]
  | @fund caller recipient m fv adv hbps hid hc hr hset hac hfv hnone hadv hdisc hfund hfeed =>
    rw [hid, hfund]
    by_cases hn : n = m
    · subst hn
      simp [hnone]
    · simp [Function.update_of_ne hn, Ne.symm hn]
  | idle hbps hid hset hdisc hfund hfeed => simp [hid, hfund]

/-- A step keeps the records of the fundings before it, and writes the record of its own. -/
theorem Priced.recorded_step (ht : FundingStep t) (hp : Priced h t.pre) :
    ∀ u ∈ h ++ [t], ∀ n, fundedId u = some n → ∃ d f, t.post.discountBps = some d ∧
      t.post.funding n = some f ∧ f.invoiceId = n ∧ RecordPriced u d f := by
  intro u hu n hn
  cases ht with
  | setup hbps hid hlt hpre hpost hdisc hfund hfeed =>
    rcases List.mem_append.1 hu with hu | hu
    · -- nothing was funded before the setup
      obtain ⟨d, f, hd, -⟩ := hp.recorded u hu n hn
      rw [hp.set.1 hpre] at hd
      cases hd
    · rw [List.mem_singleton.1 hu, hid] at hn
      cases hn
  | @fund caller recipient m fv adv hbps hid hc hr hset hac hfv hnone hadv hdisc hfund hfeed =>
    rw [hdisc, hfund]
    rcases List.mem_append.1 hu with hu | hu
    · obtain ⟨d, f, hd, hf, hfid, hpr⟩ := hp.recorded u hu n hn
      have hne : n ≠ m := by
        rintro rfl
        rw [hnone] at hf
        cases hf
      rw [Function.update_of_ne hne]
      exact ⟨d, f, hd, hf, hfid, hpr⟩
    · obtain rfl := List.mem_singleton.1 hu
      obtain rfl : m = n := Option.some.inj (hid.symm.trans hn)
      obtain ⟨d, hd⟩ := Option.ne_none_iff_exists'.1 fun h => hset (hp.set.2 h)
      have hdval : discountBps u.pre = d := by rw [discountBps, hd]; rfl
      obtain ⟨hfloor, hnn, hle⟩ := advanceFor_bounds hp.below hfv hadv
      rw [hdval] at hfloor
      rw [Function.update_self]
      exact ⟨d, ⟨m, fv, adv, recipient⟩, hd, rfl, rfl, ⟨caller, hc⟩, hr, hfv, hfloor, hnn, hle⟩
  | idle hbps hid hset hdisc hfund hfeed =>
    rw [hdisc, hfund]
    rcases List.mem_append.1 hu with hu | hu
    · exact hp.recorded u hu n hn
    · rw [List.mem_singleton.1 hu, hid] at hn
      cases hn

/-- A step keeps the discount and the records determined by the history. -/
theorem Priced.step (ht : FundingStep t) (hp : Priced h t.pre) : Priced (h ++ [t]) t.post where
  discount := hp.discount_step ht
  set := hp.set_step ht
  below := hp.below_step ht
  once := hp.once_step ht
  recorded := hp.recorded_step ht

end

/-- In every run the history determines the discount and the funding records. -/
theorem priced_exec (is : List (Env × Call)) :
    Priced (pool.trace pool.init is) (pool.exec pool.init is) := by
  refine Machine.history_of (m := pool) (P := FundingStep) ⟨rfl, ?_, ?_, fun _ => rfl, ?_⟩
    (fun _ _ ht hp => hp.step ht) fun _ => fundingStep_of_mem
  · exact ⟨fun _ => rfl, fun _ => rfl⟩
  · exact PoolOK.empty.discount
  · exact fun _ h => nomatch h

/-! ## Whole runs -/

/-- The funding records of a run.

* `once`: each invoice is funded at most once, and has a record exactly when it was funded.
* `recorded`: the contract was set up once, with a discount `d` below 100%, and the record of each
  successful funding is the one it wrote, priced at `d`.
* `kept`: no step changes a record.
* `discount`: once the discount is set up, no later step changes it. -/
structure FundingsSound (is : List (Env × Call)) : Prop where
  once : ∀ n, fundings n (pool.trace pool.init is) =
    if (pool.exec pool.init is).funding n = none then 0 else 1
  recorded : ∀ t ∈ pool.trace pool.init is, ∀ n, fundedId t = some n →
    ∃ d f, setups (pool.trace pool.init is) = [d] ∧ d.toNat < 10000 ∧
      (pool.exec pool.init is).funding n = some f ∧ f.invoiceId = n ∧ RecordPriced t d f
  kept : ∀ t ∈ pool.trace pool.init is, ∀ n f, t.pre.funding n = some f →
    t.post.funding n = some f
  discount : ∀ is₁ is₂, is = is₁ ++ is₂ → ∀ d, setups (pool.trace pool.init is₁) = [d] →
    setups (pool.trace pool.init is) = [d] ∧ discountBps (pool.exec pool.init is) = d

/-- A setup that has happened is the only one, and its discount is the one in force. -/
theorem Priced.discount_eq {h : List PoolStep} {s : Store} (hp : Priced h s) {d : UInt32}
    (hd : s.discountBps = some d) : setups h = [d] ∧ d.toNat < 10000 := by
  refine ⟨by rw [hp.discount, hd]; rfl, ?_⟩
  have hbelow := hp.below
  rwa [discountBps, hd] at hbelow

/-- **Funding records are immutable and correctly priced**, in every run. -/
theorem fundings_sound (is : List (Env × Call)) : FundingsSound is := by
  have hp := priced_exec is
  refine ⟨hp.once, ?_, ?_, ?_⟩
  · intro t ht n hn
    obtain ⟨d, f, hd, hf, hfid, hpr⟩ := hp.recorded t ht n hn
    obtain ⟨hset, hlt⟩ := hp.discount_eq hd
    exact ⟨d, f, hset, hlt, hf, hfid, hpr⟩
  · intro t ht n f hf
    cases fundingStep_of_mem ht with
    | setup _ _ _ _ _ _ hfund _ => rwa [hfund]
    | fund _ _ _ _ _ _ _ hnone _ _ hfund _ =>
      rw [hfund, Function.update_of_ne, hf]
      rintro rfl
      rw [hnone] at hf
      cases hf
    | idle _ _ _ _ hfund _ => rwa [hfund]
  · rintro is₁ is₂ rfl d hd
    -- the setups of the whole run begin with those of its part, and there is at most one
    have hlist := hp.discount
    rw [Machine.trace_append, setups, List.filterMap_append, ← setups, hd] at hlist
    obtain ⟨d', hd'⟩ : ∃ d', (pool.exec pool.init (is₁ ++ is₂)).discountBps = some d' := by
      cases hnone : (pool.exec pool.init (is₁ ++ is₂)).discountBps with
      | none => rw [hnone] at hlist; cases hlist
      | some d' => exact ⟨d', rfl⟩
    rw [hd'] at hlist
    obtain rfl : d = d' := (List.cons.inj hlist).1
    exact ⟨(hp.discount_eq hd').1, by rw [discountBps, hd']; rfl⟩

/-! ## The price feed -/

theorem FundingStep.feed {t : PoolStep} (h : FundingStep t) : FeedStep t := by
  cases h with
  | setup _ _ _ _ _ _ _ hfeed => exact .inr hfeed
  | fund _ _ _ _ _ _ _ _ _ _ _ hfeed => exact .inr hfeed
  | idle _ _ _ _ _ hfeed => exact hfeed

/-- Every stored feed was set by a step of the history. -/
def FeedBacked (h : List PoolStep) (s : Store) : Prop :=
  ∀ price timestamp, s.priceFeed = some (price, timestamp) → ∃ u ∈ h, SetsFeed timestamp u

/-- In every run the stored feed was set by a step of its history. -/
theorem feedBacked_exec (is : List (Env × Call)) :
    FeedBacked (pool.trace pool.init is) (pool.exec pool.init is) := by
  refine Machine.history_of (m := pool) (H := FeedBacked) (P := FeedStep) ?_ ?_
    fun _ ht => (fundingStep_of_mem ht).feed
  · intro price timestamp h
    cases h
  · intro h t ht hb price timestamp hfeed
    rcases ht with ⟨p, ts, hset, hpost⟩ | hsame
    · rw [hpost] at hfeed
      cases hfeed
      exact ⟨t, List.mem_append_right _ (.head _), hset⟩
    · rw [hsame] at hfeed
      obtain ⟨u, hu, hs⟩ := hb price timestamp hfeed
      exact ⟨u, List.mem_append_left _ hu, hs⟩

/-- The ledger sequence never decreases along a run. -/
def LedgerMonotone (is : List (Env × Call)) : Prop :=
  is.Pairwise fun i j => i.1.sequence.toNat ≤ j.1.sequence.toNat

/-- Every funding of a run at a ledger `L` finds a feed with a timestamp between
`L - MAX_PRICE_AGE_LEDGERS` and `L`, and a `set_price_feed` was made no earlier than
`MAX_PRICE_AGE_LEDGERS` ledgers ago. -/
def FundingFresh (is : List (Env × Call)) : Prop :=
  ∀ is₁ i is₂, is = is₁ ++ i :: is₂ →
    fundedId (pool.step i (pool.exec pool.init is₁)) ≠ none →
    (∃ price timestamp, (pool.exec pool.init is₁).priceFeed = some (price, timestamp) ∧
      i.1.sequence.toNat ≤ timestamp.toNat + maxPriceAgeLedgers.toNat ∧
      timestamp.toNat ≤ i.1.sequence.toNat) ∧
    ∃ u ∈ pool.trace pool.init is₁, (∃ timestamp, SetsFeed timestamp u) ∧
      i.1.sequence.toNat ≤ u.input.1.sequence.toNat + maxPriceAgeLedgers.toNat

/-- A funding passes the age check. -/
theorem feed_of_fundedId {i : Env × Call} {s : Store} (h : fundedId (pool.step i s) ≠ none) :
    ∃ price timestamp, s.priceFeed = some (price, timestamp) ∧
      i.1.sequence.toNat - timestamp.toNat ≤ maxPriceAgeLedgers.toNat := by
  obtain ⟨env, c⟩ := i
  rcases Machine.step_cases (m := pool) (env, c) s with ⟨r, s', hi, heq⟩ | ⟨e, -, heq⟩
  · rw [heq] at h
    cases c with
    | fundInvoice caller n fv p =>
      obtain ⟨⟨adv, s₁⟩, hf, -⟩ := map_eq_ok.1 hi
      obtain ⟨-, -, -, -, -, hfeed, -⟩ := fundInvoice_eq_ok.1 hf
      exact hfeed
    | _ => exact absurd rfl h
  · rw [heq] at h
    cases c <;> exact absurd rfl h

/-- **Funding happens only on a fresh price**, in every run with a non-decreasing ledger in which
no `set_price_feed` succeeds with a timestamp ahead of its ledger. -/
theorem funding_is_fresh {is : List (Env × Call)} (hmono : LedgerMonotone is)
    (hpast : ∀ t ∈ pool.trace pool.init is, ∀ timestamp, SetsFeed timestamp t →
      timestamp.toNat ≤ t.input.1.sequence.toNat) : FundingFresh is := by
  rintro is₁ i is₂ rfl hfund
  obtain ⟨price, timestamp, hfeed, hage⟩ := feed_of_fundedId hfund
  obtain ⟨u, hu, hset⟩ := feedBacked_exec is₁ price timestamp hfeed
  have hts := hpast u (Machine.mem_trace_append hu) timestamp hset
  have hle : u.input.1.sequence.toNat ≤ i.1.sequence.toNat :=
    (List.pairwise_append.1 hmono).2.2 _ (Machine.input_mem_of_mem_trace hu) _ (.head _)
  exact ⟨⟨price, timestamp, hfeed, by omega, by omega⟩, u, hu, ⟨timestamp, hset⟩, by omega⟩

/-- A pool of 10000 with a price of that timestamp, set at ledger 10, and a funding by the signer 1
at the ledger `L`. -/
def fundingRun (timestamp L : UInt32) : List (Env × Call) :=
  [(⟨10, 0, []⟩, .init [⟨1⟩] 1 34560 1000),
    (⟨10, 0, [⟨1⟩]⟩, .setPriceFeed ⟨1⟩ (.lit 1) timestamp),
    (⟨10, 0, [⟨2⟩]⟩, .deposit ⟨2⟩ (.lit 10000)),
    (⟨L, 0, [⟨1⟩]⟩, .fundInvoice ⟨1⟩ 1 (.lit 1000) ⟨3⟩)]

/-- With the price of ledger 10 an invoice is funded at ledger 110, the last one it is fresh at. -/
theorem funding_is_fresh_at_limit :
    FundingFresh (fundingRun 10 110) ∧
      fundings 1 (pool.trace pool.init (fundingRun 10 110)) = 1 := by
  refine ⟨funding_is_fresh ?_ ?_, rfl⟩
  · unfold LedgerMonotone fundingRun
    simp
  · rintro t ht timestamp ⟨-, c, p, hc⟩
    have hin := Machine.input_mem_of_mem_trace ht
    simp only [fundingRun, List.mem_cons, List.not_mem_nil, or_false] at hin
    rcases hin with h | h | h | h
    all_goals
      rw [h] at hc ⊢
      cases hc
    exact Nat.le_refl _

/-- A price set at ledger 10 with a timestamp of 1000 still funds an invoice at ledger 500. -/
theorem future_feed_funds :
    LedgerMonotone (fundingRun 1000 500) ∧ ¬ FundingFresh (fundingRun 1000 500) := by
  refine ⟨?_, fun h => ?_⟩
  · unfold LedgerMonotone fundingRun
    simp
  · have hfund : fundedId (pool.step (⟨500, 0, [⟨1⟩]⟩, .fundInvoice ⟨1⟩ 1 (.lit 1000) ⟨3⟩)
        (pool.exec pool.init ((fundingRun 1000 500).take 3))) = some 1 := rfl
    obtain ⟨⟨price, timestamp, hfeed, -, hle⟩, -⟩ := h _ _ [] rfl (by rw [hfund]; simp)
    cases hfeed
    exact absurd hle (by decide)

end Pool

end InvoiceFi
