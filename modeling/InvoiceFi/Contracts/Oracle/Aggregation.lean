import InvoiceFi.Contracts.Oracle
import InvoiceFi.Lib.Share
import Mathlib.Data.Finset.Insert

/-!
# What `get_price` aggregates

The submissions that count are the `contributions`: those of the authorized submitters, with a
positive price. `getPrice_eq_some` reads `get_price` back in terms of them: there are at least two,
the newest is not stale, and the price is what `aggregate` makes of their prices, the middle of
those in the band around the middle of all (`aggregate_eq_some`).

How far a minority can move the price follows from the first median alone. It lies between two
honest prices whatever the others submit, and the price returned is in the band around it:
`price_near_honest_range`. The second median has no such majority behind it, since the band may
have dropped honest prices, and the price itself may leave the honest range
(`price_past_honest_range`).
-/

namespace InvoiceFi

namespace Oracle

/-! ## The submissions that count -/

/-- The submission of an address on an asset pair, if it counts: it is there, with a positive
price. -/
def contribution (s : Store) (assetPair : Symbol) (submitter : Address) :
    Option (Address × PriceSubmission) :=
  match s.submission (assetPair, submitter) with
  | some submission => if 0 < submission.price.val then some (submitter, submission) else none
  | none => none

/-- The submissions that count, with the addresses they are stored under. -/
def contributions (s : Store) (assetPair : Symbol) (submitters : List Address) :
    List (Address × PriceSubmission) :=
  submitters.filterMap (contribution s assetPair)

/-- The newest of some ledgers, `0` if there are none. -/
def newestLedger (subs : List (Address × PriceSubmission)) : UInt64 :=
  subs.foldl (fun latest sub => if latest < sub.2.ledger then sub.2.ledger else latest) 0

theorem contribution_eq_some {s : Store} {assetPair : Symbol} {submitter : Address}
    {x : Address × PriceSubmission} :
    contribution s assetPair submitter = some x ↔
      x.1 = submitter ∧ s.submission (assetPair, submitter) = some x.2 ∧ 0 < x.2.price.val := by
  obtain ⟨a, sub⟩ := x
  unfold contribution
  cases s.submission (assetPair, submitter) with
  | none => simp
  | some sub' =>
    simp only [Option.ite_none_right_eq_some, Option.some.injEq, Prod.mk.injEq]
    constructor
    · rintro ⟨hpos, rfl, rfl⟩
      exact ⟨rfl, rfl, hpos⟩
    · rintro ⟨rfl, rfl, hpos⟩
      exact ⟨hpos, rfl, rfl⟩

theorem mem_contributions {s : Store} {assetPair : Symbol} {submitters : List Address}
    {x : Address × PriceSubmission} :
    x ∈ contributions s assetPair submitters ↔
      x.1 ∈ submitters ∧ s.submission (assetPair, x.1) = some x.2 ∧ 0 < x.2.price.val := by
  rw [contributions, List.mem_filterMap]
  constructor
  · rintro ⟨a, ha, hx⟩
    obtain ⟨rfl, hsub, hpos⟩ := contribution_eq_some.1 hx
    exact ⟨ha, hsub, hpos⟩
  · rintro ⟨ha, hsub, hpos⟩
    exact ⟨x.1, ha, contribution_eq_some.2 ⟨rfl, hsub, hpos⟩⟩

theorem contributions_concat (s : Store) (assetPair : Symbol) (submitters : List Address)
    (a : Address) :
    contributions s assetPair (submitters ++ [a]) =
      contributions s assetPair submitters ++ (contribution s assetPair a).toList := by
  rw [contributions, List.filterMap_append]
  cases h : contribution s assetPair a with
  | none => simp [contributions, h]
  | some x => simp [contributions, h]

theorem newestLedger_concat (subs : List (Address × PriceSubmission))
    (x : Address × PriceSubmission) :
    newestLedger (subs ++ [x]) =
      if newestLedger subs < x.2.ledger then x.2.ledger else newestLedger subs := by
  rw [newestLedger, List.foldl_append]
  rfl

/-- The loop collects the prices of the submissions that count, and the newest of their ledgers. -/
theorem collect_eq (s : Store) (assetPair : Symbol) (submitters : List Address) :
    collect s assetPair submitters =
      ((contributions s assetPair submitters).map (fun x => x.2.price),
        newestLedger (contributions s assetPair submitters)) := by
  -- the loop extends what it has collected at its end
  induction submitters using List.reverseRecOn with
  | nil => rfl
  | append_singleton submitters a ih =>
    rw [collect, List.foldl_append, ← collect, ih, contributions_concat]
    unfold contribution
    cases h : s.submission (assetPair, a) with
    | none => simp [h]
    | some sub =>
      by_cases hpos : 0 < sub.price.val
      · simp [h, hpos, newestLedger_concat]
      · simp [h, hpos]

/-! ## The newest ledger -/

/-- The newest ledger is at least every ledger. -/
theorem ledger_le_newestLedger {subs : List (Address × PriceSubmission)}
    {x : Address × PriceSubmission} (hx : x ∈ subs) :
    x.2.ledger.toNat ≤ (newestLedger subs).toNat := by
  induction subs using List.reverseRecOn with
  | nil => cases hx
  | append_singleton subs y ih =>
    rw [newestLedger_concat]
    split
    · next hlt =>
      have hlt := UInt64.lt_iff_toNat_lt.1 hlt
      rcases List.mem_append.1 hx with hx | hx
      · exact (ih hx).trans hlt.le
      · rw [List.mem_singleton.1 hx]
    · next hle =>
      have hle := UInt64.le_iff_toNat_le.1 (UInt64.not_lt.1 hle)
      rcases List.mem_append.1 hx with hx | hx
      · exact ih hx
      · rw [List.mem_singleton.1 hx]
        exact hle

/-- The newest ledger is the ledger of one of the submissions. -/
theorem newestLedger_mem {subs : List (Address × PriceSubmission)} (hne : subs ≠ []) :
    ∃ x ∈ subs, x.2.ledger = newestLedger subs := by
  induction subs using List.reverseRecOn with
  | nil => exact absurd rfl hne
  | append_singleton subs y ih =>
    rw [newestLedger_concat]
    split
    · exact ⟨y, List.mem_append_right _ (.head _), rfl⟩
    · next hle =>
      by_cases hs : subs = []
      · subst hs
        exact ⟨y, .head _, UInt64.le_antisymm (UInt64.not_lt.1 hle) UInt64.zero_le⟩
      · obtain ⟨x, hx, heq⟩ := ih hs
        exact ⟨x, List.mem_append_left _ hx, heq⟩

/-! ## The medians -/

/-- The entry in the middle, the upper of the two if there are two. -/
def middle (v : List I128) : Option I128 := v[v.length / 2]?

/-- The entries between two bounds. -/
def band (lo hi : I128) (v : List I128) : List I128 := v.filter fun q => lo ≤ q ∧ q ≤ hi

/-- Around a positive median the band reaches as far as the median's share at the tolerance. -/
theorem toleranceBand_bounds {m lo hi : I128} {tol : UInt32} (hm : 0 < m.val)
    (h : toleranceBand m tol = .ok (lo, hi)) :
    lo.val = rest 10000 tol.toNat m.val ∧ hi.val = m.val + share 10000 tol.toNat m.val := by
  simp only [toleranceBand, bind_eq_ok, okOr_eq_ok, pure_eq_ok, Prod.mk.injEq] at h
  obtain ⟨scaled, hscaled, tolerance, htol, lo', hlo, hi', hhi, rfl, rfl⟩ := h
  simp only [I128.checkedMul, I128.checkedDiv, I128.checkedSub, I128.checkedAdd,
    I128.ofInt?_eq_some, I128.ofUInt32_val] at hscaled htol hlo hhi
  have hnonneg : 0 ≤ scaled.val := by
    rw [hscaled]
    exact mul_nonneg hm.le (Int.natCast_nonneg _)
  have htol : tolerance.val = share 10000 tol.toNat m.val := by
    rw [if_neg (by decide), I128.ofInt?_eq_some] at htol
    change tolerance.val = scaled.val.tdiv 10000 at htol
    rw [htol, Int.tdiv_eq_ediv_of_nonneg hnonneg, hscaled, share]
  exact ⟨by rw [hlo, htol, rest], by rw [hhi, htol]⟩

/-- The aggregate is the middle of the prices in the band around the middle of all. -/
theorem aggregate_eq_some {tol : UInt32} {prices : List I128} {p : I128} :
    aggregate tol prices = .ok (some p) ↔
      ∃ m lo hi, middle (bubbleSort prices) = some m ∧ toleranceBand m tol = .ok (lo, hi) ∧
        2 ≤ (band lo hi (bubbleSort prices)).length ∧
        middle (band lo hi (bubbleSort prices)) = some p := by
  simp only [aggregate, sortPrices_eq, bind_eq_ok, Except.ok.injEq, getUnchecked_eq_ok, Prod.exists,
    exists_eq_left', ite_none_eq_ok_some, pure_eq_ok, Option.some.injEq, exists_eq_right', middle,
    band, Nat.not_lt]
  exact exists_congr fun m => by simp only [exists_and_left]

/-! ## The result -/

section
variable {env : Env} {s : Store} {assetPair : Symbol} {config : OracleConfig}

/-- Whether a ledger that is not in the future is too old. -/
theorem age_lt_iff {now stale : UInt32} {ledger : UInt64} (h : ledger.toNat ≤ now.toNat) :
    stale.toUInt64 < now.toUInt64 - ledger ↔ ledger.toNat + stale.toNat < now.toNat := by
  have hle : ledger ≤ now.toUInt64 := by
    rw [UInt64.le_iff_toNat_le, UInt32.toNat_toUInt64]
    exact h
  rw [UInt64.lt_iff_toNat_lt, UInt64.toNat_sub_of_le _ _ hle, UInt32.toNat_toUInt64,
    UInt32.toNat_toUInt64]
  omega

/-- `get_price` in terms of the submissions that count. -/
theorem getPrice_eq (hc : s.assetConfig assetPair = some config)
    {subs : List (Address × PriceSubmission)}
    (hsubs : subs = contributions s assetPair config.authorizedSubmitters) :
    getPrice env s assetPair =
      if subs.length < 2 then .ok none
      else if env.sequence.toNat < (newestLedger subs).toNat then
        .error (.panic "attempt to subtract with overflow")
      else if (newestLedger subs).toNat + config.stalenessLedgers.toNat < env.sequence.toNat then
        .ok none
      else (Option.map (·, newestLedger subs)) <$>
        aggregate config.toleranceBps (subs.map fun x => x.2.price) := by
  have hcfg : getConfig s assetPair = .ok config := getConfig_eq_ok.2 hc
  simp only [getPrice, hcfg, ok_bind, collect_eq, ← hsubs, List.length_map]
  split
  · rfl
  by_cases hfuture : env.sequence.toNat < (newestLedger subs).toNat
  · rw [if_pos hfuture, subLedger, rejectIf, if_pos]
    · rfl
    · rw [UInt64.lt_iff_toNat_lt, UInt32.toNat_toUInt64]
      exact hfuture
  · have hle : (newestLedger subs).toNat ≤ env.sequence.toNat := Nat.not_lt.1 hfuture
    have hsub : subLedger env.sequence.toUInt64 (newestLedger subs) =
        .ok (env.sequence.toUInt64 - newestLedger subs) := by
      refine subLedger_eq_ok.2 ⟨?_, rfl⟩
      rw [UInt64.le_iff_toNat_le, UInt32.toNat_toUInt64]
      exact hle
    simp only [if_neg hfuture, hsub, ok_bind, age_lt_iff hle]
    split
    · rfl
    · cases aggregate config.toleranceBps (subs.map fun x => x.2.price) with
      | error e => rfl
      | ok q => rfl

/-- A price that `get_price` returns, in terms of the submissions that count. -/
theorem getPrice_eq_some {p : I128} {l : UInt64} :
    getPrice env s assetPair = .ok (some (p, l)) ↔
      ∃ config, s.assetConfig assetPair = some config ∧
        2 ≤ (contributions s assetPair config.authorizedSubmitters).length ∧
        l = newestLedger (contributions s assetPair config.authorizedSubmitters) ∧
        l.toNat ≤ env.sequence.toNat ∧
        env.sequence.toNat ≤ l.toNat + config.stalenessLedgers.toNat ∧
        aggregate config.toleranceBps
          ((contributions s assetPair config.authorizedSubmitters).map fun x => x.2.price) =
          .ok (some p) := by
  constructor
  · intro h
    obtain ⟨config, hc, -⟩ := bind_eq_ok.1 h
    have hc := getConfig_eq_ok.1 hc
    refine ⟨config, hc, ?_⟩
    rw [getPrice_eq hc rfl] at h
    split at h
    · cases h
    split at h
    · cases h
    split at h
    · cases h
    · next h2 hfuture hstale =>
      obtain ⟨q, hq, heq⟩ := map_eq_ok.1 h
      cases q with
      | none => cases heq
      | some q =>
        cases heq
        exact ⟨Nat.not_lt.1 h2, rfl, Nat.not_lt.1 hfuture, Nat.not_lt.1 hstale, hq⟩
  · rintro ⟨config, hc, h2, rfl, hfuture, hstale, hagg⟩
    rw [getPrice_eq hc rfl, if_neg (Nat.not_lt.2 h2), if_neg (Nat.not_lt.2 hfuture),
      if_neg (Nat.not_lt.2 hstale), hagg]
    rfl

end

/-! ## A minority of submitters -/

section
variable {s : Store} {assetPair : Symbol} {config : OracleConfig} {adversary : Finset Address}

/-- The adversary has fewer than half of the submissions that count. -/
def Minority (s : Store) (assetPair : Symbol) (config : OracleConfig)
    (adversary : Finset Address) : Prop :=
  2 * (contributions s assetPair config.authorizedSubmitters).countP (fun x => x.1 ∈ adversary) <
    (contributions s assetPair config.authorizedSubmitters).length

instance : Decidable (Minority s assetPair config adversary) :=
  inferInstanceAs (Decidable (_ < _))

/-- The prices of the other submissions that count. -/
def honestPrices (s : Store) (assetPair : Symbol) (config : OracleConfig)
    (adversary : Finset Address) : List I128 :=
  ((contributions s assetPair config.authorizedSubmitters).filter (fun x => x.1 ∉ adversary)).map
    fun x => x.2.price

theorem mem_honestPrices {x : Address × PriceSubmission}
    (hx : x ∈ contributions s assetPair config.authorizedSubmitters)
    (hA : decide (x.1 ∈ adversary) = false) :
    x.2.price ∈ honestPrices s assetPair config adversary := by
  refine List.mem_map.2 ⟨x, List.mem_filter.2 ⟨hx, ?_⟩, rfl⟩
  exact decide_eq_true (of_decide_eq_false hA)

/-- The first median lies between two honest prices. -/
theorem middle_between_honest (hA : Minority s assetPair config adversary) {m : I128}
    (hm : middle (bubbleSort ((contributions s assetPair config.authorizedSubmitters).map
      fun x => x.2.price)) = some m) :
    (∃ a ∈ honestPrices s assetPair config adversary, a.val ≤ m.val) ∧
      ∃ b ∈ honestPrices s assetPair config adversary, m.val ≤ b.val := by
  constructor
  · obtain ⟨x, hx, hhonest, hle⟩ :=
      exists_le_middle hA (bubbleSort_pairwise _) (bubbleSort_perm _) hm
    exact ⟨x.2.price, mem_honestPrices hx hhonest, I128.le_iff.1 hle⟩
  · obtain ⟨x, hx, hhonest, hle⟩ :=
      exists_middle_le hA (bubbleSort_pairwise _) (bubbleSort_perm _) hm
    exact ⟨x.2.price, mem_honestPrices hx hhonest, I128.le_iff.1 hle⟩

/-- Every price that counts is positive. -/
theorem pos_of_mem_sorted {q : I128}
    (hq : q ∈ bubbleSort ((contributions s assetPair config.authorizedSubmitters).map
      fun x => x.2.price)) : 0 < q.val := by
  obtain ⟨x, hx, rfl⟩ := List.mem_map.1 ((bubbleSort_perm _).subset hq)
  exact (mem_contributions.1 hx).2.2

/-- **A minority moves the price by no more than the tolerance.** Whatever fewer than half of the
submitters submit, a price that `get_price` returns is at least some honest price less its share at
the tolerance, and at most some honest price and its share. -/
theorem price_near_honest_range {env : Env} {p : I128} {l : UInt64}
    (hc : s.assetConfig assetPair = some config) (htol : config.toleranceBps.toNat ≤ 10000)
    (hA : Minority s assetPair config adversary)
    (h : getPrice env s assetPair = .ok (some (p, l))) :
    (∃ a ∈ honestPrices s assetPair config adversary,
      a.val - a.val * config.toleranceBps.toNat / 10000 ≤ p.val) ∧
    ∃ b ∈ honestPrices s assetPair config adversary,
      p.val ≤ b.val + b.val * config.toleranceBps.toNat / 10000 := by
  obtain ⟨config', hc', -, -, -, -, hagg⟩ := getPrice_eq_some.1 h
  obtain rfl : config = config' := Option.some.inj (hc.symm.trans hc')
  obtain ⟨m, lo, hi, hm, hband, -, hp⟩ := aggregate_eq_some.1 hagg
  obtain ⟨⟨a, ha, ham⟩, b, hb, hmb⟩ := middle_between_honest hA hm
  obtain ⟨hlo, hhi⟩ := toleranceBand_bounds (pos_of_mem_sorted (List.mem_of_getElem? hm)) hband
  have hin := of_decide_eq_true (List.mem_filter.1 (List.mem_of_getElem? hp)).2
  have hlop := I128.le_iff.1 hin.1
  have hphi := I128.le_iff.1 hin.2
  have hpos : (0 : ℤ) < 10000 := by decide
  refine ⟨⟨a, ha, ?_⟩, b, hb, ?_⟩
  · calc a.val - a.val * config.toleranceBps.toNat / 10000
        = rest 10000 config.toleranceBps.toNat a.val := rfl
      _ ≤ rest 10000 config.toleranceBps.toNat m.val := rest_mono hpos (by omega) ham
      _ = lo.val := hlo.symm
      _ ≤ p.val := hlop
  · have hshare := share_mono (r := config.toleranceBps.toNat) hpos (by omega) hmb
    calc p.val ≤ hi.val := hphi
      _ = m.val + share 10000 config.toleranceBps.toNat m.val := hhi
      _ ≤ b.val + share 10000 config.toleranceBps.toNat b.val := by omega

end

/-- An asset pair with a tolerance of ten per cent and the prices 10, 100 and 101. -/
def threePrices : List (Env × Call) :=
  [(⟨1, 0, [⟨1⟩]⟩, .init ⟨1⟩),
    (⟨1, 0, [⟨1⟩]⟩, .configureAssetPair ⟨1⟩ "XLM/USDC" 1000 100),
    (⟨1, 0, [⟨1⟩]⟩, .authorizeSubmitter ⟨1⟩ "XLM/USDC" ⟨2⟩),
    (⟨1, 0, [⟨1⟩]⟩, .authorizeSubmitter ⟨1⟩ "XLM/USDC" ⟨3⟩),
    (⟨1, 0, [⟨1⟩]⟩, .authorizeSubmitter ⟨1⟩ "XLM/USDC" ⟨4⟩),
    (⟨1, 0, [⟨2⟩]⟩, .submitPrice ⟨2⟩ "XLM/USDC" (.lit 10)),
    (⟨1, 0, [⟨3⟩]⟩, .submitPrice ⟨3⟩ "XLM/USDC" (.lit 100)),
    (⟨1, 0, [⟨4⟩]⟩, .submitPrice ⟨4⟩ "XLM/USDC" (.lit 101))]

theorem price_near_honest_range_three :
    (∃ a ∈ honestPrices (oracle.exec oracle.init threePrices) "XLM/USDC"
        ⟨"XLM/USDC", 1000, 100, [⟨2⟩, ⟨3⟩, ⟨4⟩]⟩ {⟨4⟩}, a.val - a.val * 1000 / 10000 ≤ 101) ∧
    ∃ b ∈ honestPrices (oracle.exec oracle.init threePrices) "XLM/USDC"
        ⟨"XLM/USDC", 1000, 100, [⟨2⟩, ⟨3⟩, ⟨4⟩]⟩ {⟨4⟩}, 101 ≤ b.val + b.val * 1000 / 10000 :=
  price_near_honest_range rfl (by decide) (by decide)
    (show getPrice ⟨1, 0, []⟩ _ _ = .ok (some (.lit 101, 1)) from rfl)

/-- The price leaves the honest range: of the prices 10, 100 and 101 the band around 100 keeps the
last two, and the middle of those is the adversary's. -/
theorem price_past_honest_range :
    ¬ ∀ (env : Env) (s : Store) (assetPair : Symbol) (config : OracleConfig)
        (adversary : Finset Address) (p : I128) (l : UInt64),
      s.assetConfig assetPair = some config → config.toleranceBps.toNat ≤ 10000 →
      Minority s assetPair config adversary → getPrice env s assetPair = .ok (some (p, l)) →
      (∃ a ∈ honestPrices s assetPair config adversary, a.val ≤ p.val) ∧
        ∃ b ∈ honestPrices s assetPair config adversary, p.val ≤ b.val := by
  intro h
  obtain ⟨-, b, hb, hle⟩ := h ⟨1, 0, []⟩ (oracle.exec oracle.init threePrices) "XLM/USDC" _ {⟨4⟩}
    (.lit 101) 1 rfl (by decide) (by decide) rfl
  have hall : ∀ q ∈ honestPrices (oracle.exec oracle.init threePrices) "XLM/USDC"
      ⟨"XLM/USDC", 1000, 100, [⟨2⟩, ⟨3⟩, ⟨4⟩]⟩ {⟨4⟩}, q.val < 101 := by decide
  exact absurd (hall b hb) (not_lt.2 hle)

end Oracle

end InvoiceFi
