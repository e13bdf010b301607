import InvoiceFi.Contracts.Oracle.Aggregation

/-!
# How old the prices are

A stored submission is the last one that its submitter made (`submission_exec`), and it stays until
the next, through revocations and new authorizations. `get_price` compares the ledger with the
newest of the submissions that count and with no other: a price has one fresh submission behind it,
and when all of them are old there is none (`price_fresh_by_newest`). The old ones still enter the
medians (`old_price_counts`), until their submitter is revoked.
-/

namespace InvoiceFi

namespace Oracle

/-! ## Stored submissions -/

/-- The submission under the key that a step stored. -/
def submits (k : Symbol × Address) (t : OracleStep) : Option PriceSubmission :=
  match t.input.2 with
  | .submitPrice a pair price =>
    if (pair, a) = k ∧ t.Accepted then some ⟨a, pair, price, t.input.1.sequence.toUInt64⟩ else none
  | _ => none

/-- The last submission under the key in a history. -/
def lastSubmission (k : Symbol × Address) (h : List OracleStep) : Option PriceSubmission :=
  h.foldl (fun last t => (submits k t).or last) none

theorem lastSubmission_concat (k : Symbol × Address) (h : List OracleStep) (t : OracleStep) :
    lastSubmission k (h ++ [t]) = (submits k t).or (lastSubmission k h) := by
  simp [lastSubmission]

theorem submits_rejected {k : Symbol × Address} {t : OracleStep} (ht : ¬ t.Accepted) :
    submits k t = none := by
  unfold submits
  split
  · rw [if_neg fun h => ht h.2]
  · rfl

/-- A successful call stores the submission it makes and keeps the others. -/
theorem submission_of_invoke {i : Env × Call} {s s' : Store} {u : Unit}
    (h : oracle.invoke i s = .ok (u, s')) (k : Symbol × Address) :
    s'.submission k = (submits k ⟨s, i, .ok u, s'⟩).or (s.submission k) := by
  obtain ⟨s₁, h, heq⟩ := map_eq_ok.1 h
  cases heq
  obtain ⟨env, c⟩ := i
  cases c with
  | init admin =>
    obtain ⟨-, -, rfl⟩ := init_eq_ok.1 h
    rfl
  | configureAssetPair caller pair tol stale =>
    obtain ⟨-, -, -, rfl⟩ := configureAssetPair_eq_ok.1 h
    rfl
  | authorizeSubmitter caller pair a =>
    obtain ⟨-, config, -, -, rfl⟩ := authorizeSubmitter_eq_ok.1 h
    rfl
  | revokeSubmitter caller pair a =>
    obtain ⟨-, config, -, -, rfl⟩ := revokeSubmitter_eq_ok.1 h
    rfl
  | submitPrice a pair price =>
    obtain ⟨-, -, config, -, -, rfl⟩ := submitPrice_eq_ok.1 h
    by_cases hk : (pair, a) = k
    · subst hk
      exact (Function.update_self ..).trans (by simp [submits, Step.Accepted, Except.isOk,
        Except.toBool])
    · exact (Function.update_of_ne (Ne.symm hk) ..).trans (by simp [submits, hk])

/-- In every run the stored submissions are the last ones made. -/
theorem submission_exec (is : List (Env × Call)) (k : Symbol × Address) :
    (oracle.exec oracle.init is).submission k =
      lastSubmission k (oracle.trace oracle.init is) := by
  refine Machine.history_of (m := oracle) (H := fun h s => s.submission k = lastSubmission k h)
    (P := fun t => t.post.submission k = (submits k t).or (t.pre.submission k)) rfl ?_
    (Machine.forall_mem_trace (fun i s u s' hi => submission_of_invoke hi k) ?_)
  · intro h t ht ih
    rw [ht, ih, lastSubmission_concat]
  · intro i s e
    have hrej : ¬ (⟨s, i, .error e, s⟩ : OracleStep).Accepted := Bool.false_ne_true
    rw [submits_rejected hrej, Option.none_or]

/-! ## Freshness -/

section
variable {env : Env} {s s' : Store} {assetPair : Symbol} {config : OracleConfig}

/-- The submissions that count are those of the authorized submitters. -/
theorem contributions_congr {submitters : List Address}
    (h : ∀ a ∈ submitters, s'.submission (assetPair, a) = s.submission (assetPair, a)) :
    contributions s' assetPair submitters = contributions s assetPair submitters := by
  refine List.filterMap_congr fun a ha => ?_
  rw [contribution, contribution, h a ha]

/-- There is no price when every submission that counts is too old. -/
theorem getPrice_stale (hc : s.assetConfig assetPair = some config)
    (h : ∀ x ∈ contributions s assetPair config.authorizedSubmitters,
      x.2.ledger.toNat + config.stalenessLedgers.toNat < env.sequence.toNat) :
    getPrice env s assetPair = .ok none := by
  rw [getPrice_eq hc rfl]
  split
  · rfl
  · next h2 =>
    have hne : contributions s assetPair config.authorizedSubmitters ≠ [] :=
      List.ne_nil_of_length_pos (by omega)
    obtain ⟨x, hx, hnewest⟩ := newestLedger_mem hne
    have hold := h x hx
    rw [hnewest] at hold
    rw [if_neg (by omega), if_pos hold]

/-- The store in which the value of a submission is changed. -/
def reprice (s : Store) (assetPair : Symbol) (a : Address) (price : I128) : Store :=
  { s with
    submission := Function.update s.submission (assetPair, a)
      ((s.submission (assetPair, a)).map fun sub => { sub with price := price }) }

/-- A change of a value leaves the ledgers. -/
theorem submission_reprice {a b : Address} {price : I128} {sub : PriceSubmission}
    (h : (reprice s assetPair a price).submission (assetPair, b) = some sub) :
    ∃ sub', s.submission (assetPair, b) = some sub' ∧ sub'.ledger = sub.ledger := by
  by_cases hb : b = a
  · subst hb
    rw [show (reprice s assetPair b price).submission (assetPair, b) = _ from
      Function.update_self .., Option.map_eq_some_iff] at h
    obtain ⟨sub', hsub', rfl⟩ := h
    exact ⟨sub', hsub', rfl⟩
  · refine ⟨sub, ?_, rfl⟩
    rw [← h]
    refine (Function.update_of_ne (fun heq => hb ?_) ..).symm
    exact (Prod.mk.inj heq).2

end

/-- The price of an asset pair after a run is fresh by its newest submission.

* `newest`: behind a price is a submission that is not older than the staleness allows; its ledger
  is the one returned, and no submission that counts is newer.
* `stored`: the submissions that count are the last ones their submitters made.
* `stale`: when the submissions of all authorized submitters are too old there is no price, and no
  change of a value makes one.
* `revoked`: changing the value of a submission whose submitter is not authorized at present changes
  nothing. -/
structure FreshByNewest (is : List (Env × Call)) (env : Env) (assetPair : Symbol)
    (config : OracleConfig) : Prop where
  newest : ∀ p l, getPrice env (oracle.exec oracle.init is) assetPair = .ok (some (p, l)) →
    env.sequence.toNat ≤ l.toNat + config.stalenessLedgers.toNat ∧
    (∃ x ∈ contributions (oracle.exec oracle.init is) assetPair config.authorizedSubmitters,
      x.2.ledger = l) ∧
    ∀ x ∈ contributions (oracle.exec oracle.init is) assetPair config.authorizedSubmitters,
      x.2.ledger.toNat ≤ l.toNat
  stored : ∀ x ∈ contributions (oracle.exec oracle.init is) assetPair config.authorizedSubmitters,
    lastSubmission (assetPair, x.1) (oracle.trace oracle.init is) = some x.2
  stale : (∀ a ∈ config.authorizedSubmitters, ∀ sub,
      (oracle.exec oracle.init is).submission (assetPair, a) = some sub →
      sub.ledger.toNat + config.stalenessLedgers.toNat < env.sequence.toNat) →
    getPrice env (oracle.exec oracle.init is) assetPair = .ok none ∧
    ∀ a price,
      getPrice env (reprice (oracle.exec oracle.init is) assetPair a price) assetPair = .ok none
  revoked : ∀ a price, a ∉ config.authorizedSubmitters →
    getPrice env (reprice (oracle.exec oracle.init is) assetPair a price) assetPair =
      getPrice env (oracle.exec oracle.init is) assetPair

/-- **A price is fresh by its newest submission**, in every run. -/
theorem price_fresh_by_newest (is : List (Env × Call)) (env : Env) (assetPair : Symbol)
    (config : OracleConfig)
    (hc : (oracle.exec oracle.init is).assetConfig assetPair = some config) :
    FreshByNewest is env assetPair config := by
  constructor
  · intro p l h
    obtain ⟨config', hc', h2, rfl, -, hstale, -⟩ := getPrice_eq_some.1 h
    obtain rfl : config = config' := Option.some.inj (hc.symm.trans hc')
    refine ⟨hstale, newestLedger_mem ?_, fun x hx => ledger_le_newestLedger hx⟩
    exact List.ne_nil_of_length_pos (by omega)
  · intro x hx
    rw [← submission_exec]
    exact (mem_contributions.1 hx).2.1
  · intro h
    refine ⟨getPrice_stale hc fun x hx => ?_, fun a price => getPrice_stale hc fun x hx => ?_⟩
    · obtain ⟨ha, hsub, -⟩ := mem_contributions.1 hx
      exact h x.1 ha x.2 hsub
    · obtain ⟨ha, hsub, -⟩ := mem_contributions.1 hx
      obtain ⟨sub, hsub, hledger⟩ := submission_reprice hsub
      rw [← hledger]
      exact h x.1 ha sub hsub
  · intro a price ha
    have hsubs : contributions (reprice (oracle.exec oracle.init is) assetPair a price) assetPair
        config.authorizedSubmitters =
        contributions (oracle.exec oracle.init is) assetPair config.authorizedSubmitters := by
      refine contributions_congr fun b hb => Function.update_of_ne (fun heq => ha ?_) ..
      rw [← (Prod.mk.inj heq).2]
      exact hb
    have hc' : (reprice (oracle.exec oracle.init is) assetPair a price).assetConfig assetPair =
        some config := hc
    rw [getPrice_eq hc' hsubs.symm, getPrice_eq hc rfl]

/-! ## Old submissions -/

/-- Two submitters of which one submitted the price 100 at ledger 1 and the other at ledger 1000,
under a staleness of 100 ledgers. -/
def oldAndNew : List (Env × Call) :=
  [(⟨1, 0, [⟨1⟩]⟩, .init ⟨1⟩),
    (⟨1, 0, [⟨1⟩]⟩, .configureAssetPair ⟨1⟩ "XLM/USDC" 1000 100),
    (⟨1, 0, [⟨1⟩]⟩, .authorizeSubmitter ⟨1⟩ "XLM/USDC" ⟨2⟩),
    (⟨1, 0, [⟨1⟩]⟩, .authorizeSubmitter ⟨1⟩ "XLM/USDC" ⟨3⟩),
    (⟨1, 0, [⟨2⟩]⟩, .submitPrice ⟨2⟩ "XLM/USDC" (.lit 100)),
    (⟨1000, 0, [⟨3⟩]⟩, .submitPrice ⟨3⟩ "XLM/USDC" (.lit 100))]

theorem price_fresh_by_newest_old_and_new :
    FreshByNewest oldAndNew ⟨1000, 0, []⟩ "XLM/USDC" ⟨"XLM/USDC", 1000, 100, [⟨2⟩, ⟨3⟩]⟩ ∧
      getPrice ⟨1000, 0, []⟩ (oracle.exec oracle.init oldAndNew) "XLM/USDC" =
        .ok (some (.lit 100, 1000)) :=
  ⟨price_fresh_by_newest oldAndNew ⟨1000, 0, []⟩ "XLM/USDC" _ rfl, rfl⟩

/-- Every submission that counts towards a price is fresh, and changing the value of one that is
not fresh changes nothing. -/
def OnlyFreshCount (is : List (Env × Call)) (env : Env) (assetPair : Symbol) : Prop :=
  ∀ config p l, (oracle.exec oracle.init is).assetConfig assetPair = some config →
    getPrice env (oracle.exec oracle.init is) assetPair = .ok (some (p, l)) →
    (∀ x ∈ contributions (oracle.exec oracle.init is) assetPair config.authorizedSubmitters,
      env.sequence.toNat ≤ x.2.ledger.toNat + config.stalenessLedgers.toNat) ∧
    ∀ a sub price, (oracle.exec oracle.init is).submission (assetPair, a) = some sub →
      sub.ledger.toNat + config.stalenessLedgers.toNat < env.sequence.toNat → 0 < price.val →
      getPrice env (reprice (oracle.exec oracle.init is) assetPair a price) assetPair =
        getPrice env (oracle.exec oracle.init is) assetPair

/-- A submission of ledger 1 counts at ledger 1000 next to a fresh one, and the price moves with its
value. -/
theorem old_price_counts :
    (oldAndNew.Pairwise fun i j => i.1.sequence.toNat ≤ j.1.sequence.toNat) ∧
    (∀ i ∈ oldAndNew, i.1.sequence.toNat ≤ 1000) ∧
    ¬ OnlyFreshCount oldAndNew ⟨1000, 0, []⟩ "XLM/USDC" := by
  refine ⟨by decide, by decide, fun h => ?_⟩
  obtain ⟨-, hsame⟩ := h _ (.lit 100) 1000 rfl rfl
  have heq := hsame ⟨2⟩ ⟨⟨2⟩, "XLM/USDC", .lit 100, 1⟩ (.lit 110) rfl (by decide) (by decide)
  have hmoved : getPrice ⟨1000, 0, []⟩
      (reprice (oracle.exec oracle.init oldAndNew) "XLM/USDC" ⟨2⟩ (.lit 110)) "XLM/USDC" =
        .ok (some (.lit 110, 1000)) := rfl
  rw [hmoved] at heq
  cases heq

end Oracle

end InvoiceFi
