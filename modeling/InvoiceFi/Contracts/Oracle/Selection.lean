import InvoiceFi.Contracts.Oracle.Aggregation
import Mathlib.Data.Multiset.Filter

/-!
# What `get_price` selects, and where it traps

`get_price` sorts, takes the entry in the middle, lays a band around it and takes the entry in the
middle of the band. Three things are said about it here.

It traps where the arithmetic of the band leaves the 128 bits. That is a matter of the middle entry
alone, and larger entries are worse, so it happens exactly if at least half of the prices are too
large for the band around them (`price_read_iff`); one of two submitters is half of them.

Up to the traps the result is a function of the multiset of the prices: the sort lists it in order,
and both selections are by position (`selects_by_multiset_iff`).

The entry in the middle is the upper of the two middle ones when there are two, where the
documentation takes their average, so the two agree exactly where the two entries do
(`documented_medians_iff`).
-/

namespace InvoiceFi

namespace Oracle

/-! ## The arithmetic of the band -/

/-- The band around a price leaves the 128 bits: its product with the tolerance, or the upper
bound. -/
def Oversized (tol : UInt32) (m : I128) : Prop :=
  2 ^ 127 ≤ m.val * tol.toNat ∨ 2 ^ 127 ≤ m.val + share 10000 tol.toNat m.val

instance (tol : UInt32) (m : I128) : Decidable (Oversized tol m) :=
  inferInstanceAs (Decidable (_ ∨ _))

/-- A larger price has a larger band. -/
theorem Oversized.mono {tol : UInt32} {a b : I128} (hab : a ≤ b) (h : Oversized tol a) :
    Oversized tol b := by
  have hval := I128.le_iff.1 hab
  have hprod : a.val * tol.toNat ≤ b.val * tol.toNat :=
    Int.mul_le_mul_of_nonneg_right hval (Int.natCast_nonneg _)
  have hshare : share 10000 tol.toNat a.val ≤ share 10000 tol.toNat b.val :=
    share_mono (by decide) (Int.natCast_nonneg _) hval
  rcases h with h | h
  · exact .inl (h.trans hprod)
  · exact .inr (by omega)

/-- The band is computed, or the arithmetic traps. -/
theorem toleranceBand_cases (m : I128) (tol : UInt32) :
    (∃ b, toleranceBand m tol = .ok b) ∨ ∃ msg, toleranceBand m tol = .error (.panic msg) := by
  unfold toleranceBand
  cases m.checkedMul (.ofUInt32 tol) with
  | none => exact .inr ⟨_, rfl⟩
  | some scaled =>
    cases hdiv : scaled.checkedDiv (.lit 10000) with
    | none => exact .inr ⟨_, by rw [okOr, ok_bind, hdiv]; rfl⟩
    | some tolerance =>
      cases hsub : m.checkedSub tolerance with
      | none => exact .inr ⟨_, by rw [okOr, ok_bind, hdiv, okOr, ok_bind, hsub]; rfl⟩
      | some lo =>
        cases hadd : m.checkedAdd tolerance with
        | none =>
          exact .inr ⟨_, by rw [okOr, ok_bind, hdiv, okOr, ok_bind, hsub, okOr, ok_bind, hadd]; rfl⟩
        | some hi =>
          exact .inl ⟨_, by rw [okOr, ok_bind, hdiv, okOr, ok_bind, hsub, okOr, ok_bind, hadd]; rfl⟩

/-- Around a positive median the band is computed exactly if it is not too large. -/
theorem toleranceBand_isOk_iff {m : I128} {tol : UInt32} (hm : 0 < m.val) :
    (∃ b, toleranceBand m tol = .ok b) ↔ ¬ Oversized tol m := by
  have hprod : 0 ≤ m.val * tol.toNat := mul_nonneg hm.le (Int.natCast_nonneg _)
  have hshare : 0 ≤ share 10000 tol.toNat m.val :=
    share_nonneg (by decide) (Int.natCast_nonneg _) hm.le
  constructor
  · rintro ⟨⟨lo, hi⟩, h⟩
    obtain ⟨-, hhi⟩ := toleranceBand_bounds hm h
    obtain ⟨scaled, hscaled, -⟩ := bind_eq_ok.1 h
    have hscaled : scaled.val = m.val * tol.toNat := by
      simpa [I128.checkedMul] using hscaled
    have hupper := scaled.upper
    have hiupper := hi.upper
    rintro (hover | hover) <;> omega
  · intro hfits
    obtain ⟨hscaled, hupper⟩ := not_or.1 hfits
    rw [not_le] at hscaled hupper
    have hle : share 10000 tol.toNat m.val ≤ m.val * tol.toNat :=
      Int.ediv_le_self _ hprod
    have hlower := m.lower
    refine ⟨(⟨m.val - share 10000 tol.toNat m.val, by omega, by omega⟩,
      ⟨m.val + share 10000 tol.toNat m.val, by omega, hupper⟩), ?_⟩
    have htol : (m.val * tol.toNat).tdiv 10000 = share 10000 tol.toNat m.val :=
      Int.tdiv_eq_ediv_of_nonneg hprod
    simp only [toleranceBand, bind_eq_ok, okOr_eq_ok, pure_eq_ok, I128.checkedMul, I128.checkedSub,
      I128.checkedAdd, I128.ofInt?_eq_some, I128.ofUInt32_val]
    refine ⟨⟨m.val * tol.toNat, by omega, hscaled⟩, rfl,
      ⟨share 10000 tol.toNat m.val, by omega, by omega⟩, ?_, _, rfl, _, rfl, rfl⟩
    rw [I128.checkedDiv, if_neg (by decide), I128.ofInt?_eq_some]
    exact htol.symm

/-! ## Traps -/

/-- The call traps. -/
def Traps {ε α : Type} (r : Result ε α) : Prop := ∃ msg, r = .error (.panic msg)

theorem traps_map {ε α β : Type} {r : Result ε α} {f : α → β} : Traps (f <$> r) ↔ Traps r := by
  cases r with
  | error e => exact exists_congr fun msg => by simp [Functor.map, Except.map]
  | ok a => exact exists_congr fun msg => by simp [Functor.map, Except.map]

section
variable {tol : UInt32} {prices : List I128} {m : I128}

theorem middle_of_ne_nil {v : List I128} (hv : v ≠ []) : ∃ m, middle v = some m := by
  have hpos : 0 < v.length := List.length_pos_of_ne_nil hv
  exact ⟨_, List.getElem?_eq_getElem (show v.length / 2 < v.length by omega)⟩

/-- The aggregate, once the middle entry is known. -/
theorem aggregate_eq (hm : middle (bubbleSort prices) = some m) :
    aggregate tol prices = (fun b =>
      if (band b.1 b.2 (bubbleSort prices)).length < 2 then none
      else middle (band b.1 b.2 (bubbleSort prices))) <$> toleranceBand m tol := by
  have hget : getUnchecked (bubbleSort prices) ((bubbleSort prices).length / 2) = .ok m :=
    getUnchecked_eq_ok.2 hm
  rw [aggregate, sortPrices_eq, ok_bind, hget, ok_bind]
  cases toleranceBand m tol with
  | error e => rfl
  | ok b =>
    obtain ⟨lo, hi⟩ := b
    rw [ok_bind]
    show (if (band lo hi (bubbleSort prices)).length < 2 then _ else _) = _
    split
    · next hfew => exact congrArg Except.ok (if_pos hfew).symm
    · next hmany =>
      have hne : band lo hi (bubbleSort prices) ≠ [] := by
        intro h
        rw [h] at hmany
        exact hmany (by decide)
      obtain ⟨p, hp⟩ := middle_of_ne_nil hne
      have hgetp : getUnchecked (band lo hi (bubbleSort prices))
          ((band lo hi (bubbleSort prices)).length / 2) = .ok p := getUnchecked_eq_ok.2 hp
      have hout : (if (band lo hi (bubbleSort prices)).length < 2 then none
          else middle (band lo hi (bubbleSort prices))) = some p := by rw [if_neg hmany, hp]
      exact (congrArg (· >>= _) hgetp).trans (congrArg Except.ok hout.symm)

/-- Positive prices have a positive middle. -/
theorem middle_bubbleSort (hpos : ∀ p ∈ prices, 0 < p.val) (hne : prices ≠ []) :
    ∃ m, middle (bubbleSort prices) = some m ∧ 0 < m.val := by
  have hperm := bubbleSort_perm prices
  have hsorted : bubbleSort prices ≠ [] := by
    intro h
    rw [h] at hperm
    exact hne hperm.nil_eq.symm
  obtain ⟨m, hm⟩ := middle_of_ne_nil hsorted
  exact ⟨m, hm, hpos m (hperm.subset (List.mem_of_getElem? hm))⟩

/-- The aggregate of positive prices traps exactly if at least half of them are too large. -/
theorem aggregate_traps_iff (hpos : ∀ p ∈ prices, 0 < p.val) (hne : prices ≠ []) :
    Traps (aggregate tol prices) ↔ prices.length ≤ 2 * prices.countP (Oversized tol ·) := by
  obtain ⟨m, hm, hmpos⟩ := middle_bubbleSort hpos hne
  -- too large is a property that larger prices have as well
  have hlarge := getElem?_iff_countP (q := fun p => decide (Oversized tol p))
    (bubbleSort_pairwise prices) hm
    fun a b hab h => decide_eq_true ((of_decide_eq_true h).mono hab)
  rw [(bubbleSort_perm prices).countP_eq, (bubbleSort_perm prices).length_eq,
    decide_eq_true_eq] at hlarge
  have htraps : Traps (aggregate tol prices) ↔ Oversized tol m := by
    rw [aggregate_eq hm]
    rcases toleranceBand_cases m tol with ⟨b, hb⟩ | ⟨msg, hmsg⟩
    · refine iff_of_false ?_ ((toleranceBand_isOk_iff hmpos).1 ⟨b, hb⟩)
      rw [hb]
      rintro ⟨msg, h⟩
      cases h
    · refine iff_of_true ⟨msg, by rw [hmsg]; rfl⟩ ?_
      by_contra hfits
      obtain ⟨b, hb⟩ := (toleranceBand_isOk_iff hmpos).2 hfits
      rw [hmsg] at hb
      cases hb
  rw [htraps, hlarge]
  omega

end

section
variable {env : Env} {s : Store} {assetPair : Symbol} {config : OracleConfig}

/-- The price of an asset pair can be read: with fewer than two submissions that count there is
none; otherwise none of them is from a later ledger, and they are too old, or fewer than half of
their prices are too large for the band around them. -/
def Readable (env : Env) (s : Store) (assetPair : Symbol) : Prop :=
  ∀ config, s.assetConfig assetPair = some config →
    (contributions s assetPair config.authorizedSubmitters).length < 2 ∨
    (newestLedger (contributions s assetPair config.authorizedSubmitters)).toNat ≤
        env.sequence.toNat ∧
      ((newestLedger (contributions s assetPair config.authorizedSubmitters)).toNat +
          config.stalenessLedgers.toNat < env.sequence.toNat ∨
        2 * (contributions s assetPair config.authorizedSubmitters).countP
            (fun x => Oversized config.toleranceBps x.2.price) <
          (contributions s assetPair config.authorizedSubmitters).length)

/-- The prices that count are positive. -/
theorem pos_of_mem_contributions {submitters : List Address} {q : I128}
    (hq : q ∈ (contributions s assetPair submitters).map fun x => x.2.price) : 0 < q.val := by
  obtain ⟨x, hx, rfl⟩ := List.mem_map.1 hq
  exact (mem_contributions.1 hx).2.2

/-- Submissions that are not too few have prices. -/
theorem prices_ne_nil {submitters : List Address}
    (hmany : ¬ (contributions s assetPair submitters).length < 2) :
    (contributions s assetPair submitters).map (fun x => x.2.price) ≠ [] := by
  intro h
  rw [List.map_eq_nil_iff] at h
  rw [h] at hmany
  exact hmany (by decide)

/-- **`get_price` traps exactly if half of the prices are too large**, or if it is called in a
ledger before one of the submissions: in every store and every ledger, `get_price` returns if and
only if the price can be read. -/
theorem price_read_iff : ¬ Traps (getPrice env s assetPair) ↔ Readable env s assetPair := by
  cases hc : s.assetConfig assetPair with
  | none =>
    refine iff_of_true ?_ fun config h => ?_
    · rintro ⟨msg, h⟩
      rw [getPrice, getConfig, hc] at h
      cases h
    · rw [hc] at h
      cases h
  | some config =>
    have hreadable : Readable env s assetPair ↔ _ :=
      ⟨fun h => h config hc, fun h config' hc' => by cases hc.symm.trans hc'; exact h⟩
    rw [hreadable, getPrice_eq hc rfl]
    split
    · next hfew => exact iff_of_true (by rintro ⟨msg, h⟩; cases h) (.inl hfew)
    next hmany =>
    split
    · next hfuture =>
      refine iff_of_false (not_not.2 ⟨_, rfl⟩) ?_
      rintro (hfew | ⟨hle, -⟩)
      · exact hmany hfew
      · exact absurd hle (Nat.not_le.2 hfuture)
    next hle =>
    have hle := Nat.not_lt.1 hle
    split
    · next hstale => exact iff_of_true (by rintro ⟨msg, h⟩; cases h) (.inr ⟨hle, .inl hstale⟩)
    next hfresh =>
    have htraps : Traps (aggregate config.toleranceBps _) ↔ _ :=
      aggregate_traps_iff (fun _ => pos_of_mem_contributions) (prices_ne_nil hmany)
    rw [List.length_map, List.countP_map] at htraps
    rw [traps_map, htraps, Nat.not_le]
    constructor
    · exact fun h => .inr ⟨hle, .inr h⟩
    · rintro (hfew | ⟨-, hstale | h⟩)
      · exact absurd hfew hmany
      · exact absurd hstale hfresh
      · exact h

end

/-- An asset pair with a tolerance of ten per cent and two submitters, one of whom submits the
largest price there is. -/
def hugePrice : List (Env × Call) :=
  [(⟨1, 0, [⟨1⟩]⟩, .init ⟨1⟩),
    (⟨1, 0, [⟨1⟩]⟩, .configureAssetPair ⟨1⟩ "XLM/USDC" 1000 100),
    (⟨1, 0, [⟨1⟩]⟩, .authorizeSubmitter ⟨1⟩ "XLM/USDC" ⟨2⟩),
    (⟨1, 0, [⟨1⟩]⟩, .authorizeSubmitter ⟨1⟩ "XLM/USDC" ⟨3⟩),
    (⟨1, 0, [⟨2⟩]⟩, .submitPrice ⟨2⟩ "XLM/USDC" (.lit 100)),
    (⟨1, 0, [⟨3⟩]⟩, .submitPrice ⟨3⟩ "XLM/USDC" (.lit (2 ^ 127 - 1)))]

theorem hugePrice_traps :
    getPrice ⟨1, 0, []⟩ (oracle.exec oracle.init hugePrice) "XLM/USDC" =
      .error (.panic "attempt to multiply with overflow") := rfl

/-- One submitter of two makes every call of `get_price` trap. -/
theorem price_unreadable :
    ¬ ∀ (calls : List (Env × Call)) (env : Env) (assetPair : Symbol),
      ¬ Traps (getPrice env (oracle.exec oracle.init calls) assetPair) :=
  fun h => h hugePrice _ "XLM/USDC" ⟨_, hugePrice_traps⟩

/-! ## The selection, on multisets -/

/-- The first median of some prices: the middle of them in order, the upper of the two if there are
two. -/
def firstMedian (prices : Multiset I128) : Option I128 := prices.sort[prices.card / 2]?

/-- A price is within tolerance of the median. -/
def Inlying (tol : UInt32) (m q : I128) : Prop :=
  rest 10000 tol.toNat m.val ≤ q.val ∧ q.val ≤ m.val + share 10000 tol.toNat m.val

instance (tol : UInt32) (m q : I128) : Decidable (Inlying tol m q) :=
  inferInstanceAs (Decidable (_ ∧ _))

/-- The prices within tolerance of the first median. -/
def inliers (tol : UInt32) (prices : Multiset I128) : Multiset I128 :=
  match firstMedian prices with
  | none => 0
  | some m => prices.filter (Inlying tol m)

section
variable {tol : UInt32} {prices prices' : List I128} {m : I128}

/-- The middle entry of the sorted list is the first median. -/
theorem middle_eq_firstMedian (prices : List I128) :
    middle (bubbleSort prices) = firstMedian prices := by
  have hlen : (bubbleSort prices).length = prices.length := (bubbleSort_perm prices).length_eq
  rw [middle, hlen, bubbleSort_eq_sort]
  rfl

/-- The band that the contract computes holds the prices within tolerance. -/
theorem band_eq (hm : 0 < m.val) {lo hi : I128} (h : toleranceBand m tol = .ok (lo, hi))
    (v : List I128) : band lo hi v = v.filter fun q => decide (Inlying tol m q) := by
  obtain ⟨hlo, hhi⟩ := toleranceBand_bounds hm h
  refine List.filter_congr fun q _ => decide_eq_decide.2 ?_
  rw [Inlying, ← hlo, ← hhi]
  rfl

/-- The prices in the band, in order, are the inliers in order. -/
theorem band_eq_sort (hm : 0 < m.val) {lo hi : I128} (h : toleranceBand m tol = .ok (lo, hi))
    (hfirst : firstMedian prices = some m) :
    band lo hi (bubbleSort prices) = (inliers tol prices).sort := by
  have hin : inliers tol prices =
        (prices.filter fun q => decide (Inlying tol m q) : List I128) := by
    rw [inliers, hfirst]
    exact Multiset.filter_coe _ _
  have hsorted : (band lo hi (bubbleSort prices)).Pairwise (· ≤ ·) :=
    (bubbleSort_pairwise prices).filter _
  have hperm : (band lo hi (bubbleSort prices)).Perm (inliers tol prices).sort := by
    rw [← Multiset.coe_eq_coe, Multiset.sort_eq, hin, Multiset.coe_eq_coe, band_eq hm h]
    exact (bubbleSort_perm prices).filter _
  exact hperm.eq_of_pairwise' hsorted (Multiset.pairwise_sort _ _)

/-- The aggregate depends only on the multiset of the prices. -/
theorem aggregate_congr (h : prices.Perm prices') :
    aggregate tol prices = aggregate tol prices' := by
  have hsort : bubbleSort prices = bubbleSort prices' := by
    rw [bubbleSort_eq_sort, bubbleSort_eq_sort, Multiset.coe_eq_coe.2 h]
  rw [aggregate, aggregate, sortPrices_eq, sortPrices_eq, hsort]

/-- An aggregate that does not trap: nothing if there are fewer than two inliers, and otherwise the
middle of them. -/
theorem aggregate_of_not_traps (hpos : ∀ p ∈ prices, 0 < p.val) (hne : prices ≠ [])
    (h : ¬ Traps (aggregate tol prices)) :
    aggregate tol prices =
      .ok (if (inliers tol prices).card < 2 then none else firstMedian (inliers tol prices)) := by
  obtain ⟨m, hm, hmpos⟩ := middle_bubbleSort hpos hne
  have hfirst : firstMedian prices = some m := by rw [← middle_eq_firstMedian, hm]
  rw [aggregate_eq hm] at h ⊢
  rcases toleranceBand_cases m tol with ⟨⟨lo, hi⟩, hb⟩ | ⟨msg, hmsg⟩
  · have hsort := band_eq_sort hmpos hb hfirst
    have hlen : (band lo hi (bubbleSort prices)).length = (inliers tol prices).card := by
      rw [hsort, Multiset.length_sort]
    have hmiddle : middle (band lo hi (bubbleSort prices)) = firstMedian (inliers tol prices) := by
      rw [middle, hlen, hsort, firstMedian]
    rw [hb, ← hlen, ← hmiddle]
    rfl
  · rw [hmsg] at h
    exact absurd ⟨msg, rfl⟩ h

end

section
variable {env : Env} {s : Store} {assetPair : Symbol} {config : OracleConfig}

/-- The newest ledger is that of the submissions, in whatever order. -/
theorem newestLedger_congr {subs subs' : List (Address × PriceSubmission)}
    (h : subs.Perm subs') : newestLedger subs = newestLedger subs' := by
  have hle : ∀ {l l' : List (Address × PriceSubmission)}, l.Perm l' →
      (newestLedger l).toNat ≤ (newestLedger l').toNat := by
    intro l l' hl
    by_cases hnil : l = []
    · subst hnil
      exact Nat.zero_le _
    · obtain ⟨x, hx, hnew⟩ := newestLedger_mem hnil
      rw [← hnew]
      exact ledger_le_newestLedger (hl.subset hx)
  exact UInt64.toNat_inj.1 (Nat.le_antisymm (hle h) (hle h.symm))

/-- The prices that count. -/
def countedPrices (s : Store) (assetPair : Symbol) (config : OracleConfig) : Multiset I128 :=
  ((contributions s assetPair config.authorizedSubmitters).map fun x => x.2.price : List I128)

/-- There is no price: fewer than two submissions count, the newest of them is too old, or fewer
than two prices are within tolerance of the first median. -/
def Unpriced (env : Env) (s : Store) (assetPair : Symbol) (config : OracleConfig) : Prop :=
  (countedPrices s assetPair config).card < 2 ∨
    (newestLedger (contributions s assetPair config.authorizedSubmitters)).toNat +
      config.stalenessLedgers.toNat < env.sequence.toNat ∨
    (inliers config.toleranceBps (countedPrices s assetPair config)).card < 2

/-- `get_price` selects from the multiset of the prices that count: its sort puts every list in
order; the order of the submitters does not matter; it returns nothing exactly if there is no
price; and otherwise it returns one of the prices within tolerance of the first median. -/
structure SelectsByMultiset (env : Env) (s : Store) (assetPair : Symbol) (config : OracleConfig) :
    Prop where
  sorts : ∀ prices, ∃ sorted, sortPrices prices = .ok sorted ∧ sorted.Perm prices ∧
    sorted.Pairwise (· ≤ ·)
  order : ∀ submitters, submitters.Perm config.authorizedSubmitters →
    getPrice env (setConfig s assetPair { config with authorizedSubmitters := submitters })
      assetPair = getPrice env s assetPair
  none_iff : getPrice env s assetPair = .ok none ↔ Unpriced env s assetPair config
  selects : ¬ Unpriced env s assetPair config → ∃ m p l,
    getPrice env s assetPair = .ok (some (p, l)) ∧ p ∈ countedPrices s assetPair config ∧
    firstMedian (countedPrices s assetPair config) = some m ∧ Inlying config.toleranceBps m p

/-- The order of the submitters does not matter, not even to the traps. -/
theorem getPrice_perm (hc : s.assetConfig assetPair = some config) {submitters : List Address}
    (h : submitters.Perm config.authorizedSubmitters) :
    getPrice env (setConfig s assetPair { config with authorizedSubmitters := submitters })
      assetPair = getPrice env s assetPair := by
  have hc' : (setConfig s assetPair
      { config with authorizedSubmitters := submitters }).assetConfig assetPair =
        some { config with authorizedSubmitters := submitters } := Function.update_self ..
  have hsubs : (contributions s assetPair submitters).Perm
      (contributions s assetPair config.authorizedSubmitters) := h.filterMap _
  -- the configuration does not hold the submissions
  have hsame : contributions (setConfig s assetPair
      { config with authorizedSubmitters := submitters }) assetPair submitters =
        contributions s assetPair submitters := rfl
  rw [getPrice_eq hc' hsame.symm, getPrice_eq hc rfl, hsubs.length_eq, newestLedger_congr hsubs,
    aggregate_congr (hsubs.map fun x => x.2.price)]

/-- A price that can be read is nothing if there is no price, and the middle of the inliers
otherwise. -/
theorem getPrice_of_readable (hc : s.assetConfig assetPair = some config)
    (h : Readable env s assetPair) :
    (Unpriced env s assetPair config ∧ getPrice env s assetPair = .ok none) ∨
    (¬ Unpriced env s assetPair config ∧ ∃ p,
      firstMedian (inliers config.toleranceBps (countedPrices s assetPair config)) = some p ∧
      getPrice env s assetPair = .ok (some (p,
        newestLedger (contributions s assetPair config.authorizedSubmitters)))) := by
  have hnot := price_read_iff.2 h
  have hcard : (countedPrices s assetPair config).card =
      (contributions s assetPair config.authorizedSubmitters).length := by
    rw [countedPrices, Multiset.coe_card, List.length_map]
  rw [getPrice_eq hc rfl] at hnot ⊢
  split at hnot
  · next hfew => exact .inl ⟨.inl (hcard ▸ hfew), if_pos hfew⟩
  next hmany =>
  split at hnot
  · exact absurd ⟨_, rfl⟩ hnot
  next hle =>
  split at hnot
  · next hstale =>
    exact .inl ⟨.inr (.inl hstale), by rw [if_neg hmany, if_neg hle, if_pos hstale]⟩
  next hfresh =>
  rw [traps_map] at hnot
  have hagg : aggregate config.toleranceBps _ =
      .ok (if (inliers config.toleranceBps (countedPrices s assetPair config)).card < 2 then none
        else firstMedian (inliers config.toleranceBps (countedPrices s assetPair config))) :=
    aggregate_of_not_traps (fun _ => pos_of_mem_contributions) (prices_ne_nil hmany) hnot
  rw [if_neg hmany, if_neg hle, if_neg hfresh, hagg]
  by_cases hin : (inliers config.toleranceBps (countedPrices s assetPair config)).card < 2
  · refine .inl ⟨.inr (.inr hin), ?_⟩
    rw [if_pos hin]
    rfl
  · refine .inr ⟨?_, ?_⟩
    · rintro (hfew | hstale | hin')
      · exact hmany (hcard ▸ hfew)
      · exact hfresh hstale
      · exact hin hin'
    · have hlt : (inliers config.toleranceBps (countedPrices s assetPair config)).card / 2 <
          (inliers config.toleranceBps (countedPrices s assetPair config)).sort.length := by
        rw [Multiset.length_sort]
        omega
      refine ⟨_, List.getElem?_eq_getElem hlt, ?_⟩
      rw [if_neg hin]
      exact congrArg (fun q => Except.ok (Option.map _ q)) (List.getElem?_eq_getElem hlt)

/-- **The result depends on the multiset of the prices alone, and is selected from it, exactly if
the price can be read.** Where it cannot, `get_price` traps instead. -/
theorem selects_by_multiset_iff (hc : s.assetConfig assetPair = some config) :
    SelectsByMultiset env s assetPair config ↔ Readable env s assetPair := by
  constructor
  · intro h
    rw [← price_read_iff]
    rintro ⟨msg, htraps⟩
    by_cases hnone : Unpriced env s assetPair config
    · rw [h.none_iff.2 hnone] at htraps
      cases htraps
    · obtain ⟨m, p, l, hp, -⟩ := h.selects hnone
      rw [hp] at htraps
      cases htraps
  · intro h
    have hres := getPrice_of_readable hc h
    refine ⟨fun prices => ⟨_, sortPrices_eq prices, bubbleSort_perm prices,
      bubbleSort_pairwise prices⟩, fun submitters => getPrice_perm hc, ?_, ?_⟩
    · rcases hres with ⟨hnone, hprice⟩ | ⟨hsome, p, -, hprice⟩
      · exact iff_of_true hprice hnone
      · refine iff_of_false (fun h => ?_) hsome
        rw [hprice] at h
        cases h
    · intro hsome
      rcases hres with ⟨hnone, -⟩ | ⟨-, p, hp, hprice⟩
      · exact absurd hnone hsome
      · have hmem : p ∈ inliers config.toleranceBps (countedPrices s assetPair config) :=
          (Multiset.mem_sort _).1 (List.mem_of_getElem? hp)
        unfold inliers at hmem
        split at hmem
        · cases hmem
        · next m hm =>
          obtain ⟨hin, hinlying⟩ := Multiset.mem_filter.1 hmem
          exact ⟨m, p, _, hprice, hin, hm, hinlying⟩

end

/-- Two of three prices are selected from. -/
theorem selects_by_multiset_iff_three :
    SelectsByMultiset ⟨1, 0, []⟩ (oracle.exec oracle.init threePrices) "XLM/USDC"
        ⟨"XLM/USDC", 1000, 100, [⟨2⟩, ⟨3⟩, ⟨4⟩]⟩ ↔
      Readable ⟨1, 0, []⟩ (oracle.exec oracle.init threePrices) "XLM/USDC" :=
  selects_by_multiset_iff rfl

/-- With a price that is too large, `get_price` neither returns nothing nor selects a price. -/
theorem price_not_selected :
    (oracle.exec oracle.init hugePrice).assetConfig "XLM/USDC" =
      some ⟨"XLM/USDC", 1000, 100, [⟨2⟩, ⟨3⟩]⟩ ∧
    ¬ SelectsByMultiset ⟨1, 0, []⟩ (oracle.exec oracle.init hugePrice) "XLM/USDC"
      ⟨"XLM/USDC", 1000, 100, [⟨2⟩, ⟨3⟩]⟩ := by
  refine ⟨rfl, fun h => ?_⟩
  by_cases hnone : Unpriced ⟨1, 0, []⟩ (oracle.exec oracle.init hugePrice) "XLM/USDC"
      ⟨"XLM/USDC", 1000, 100, [⟨2⟩, ⟨3⟩]⟩
  · have hprice := h.none_iff.2 hnone
    rw [hugePrice_traps] at hprice
    cases hprice
  · obtain ⟨m, p, l, hprice, -⟩ := h.selects hnone
    rw [hugePrice_traps] at hprice
    cases hprice

/-! ## The documented medians (`docs/oracle-architecture.md`) -/

/-- The median of the documented algorithm: the middle price, or the average of the two middle
prices if their number is even. -/
def documentedMedian (prices : Multiset I128) : Option ℤ :=
  if prices.card % 2 = 1 then prices.sort[prices.card / 2]?.map I128.val
  else
    match prices.sort[prices.card / 2 - 1]?, prices.sort[prices.card / 2]? with
    | some a, some b => some ((a.val + b.val) / 2)
    | _, _ => none

/-- The number of the prices is odd, or the two middle ones are the same. -/
def Balanced (prices : Multiset I128) : Prop :=
  prices.card % 2 = 1 ∨ prices.sort[prices.card / 2 - 1]? = prices.sort[prices.card / 2]?

instance (prices : Multiset I128) : Decidable (Balanced prices) :=
  inferInstanceAs (Decidable (_ ∨ _))

/-- The upper of the middle prices is the documented median exactly if the prices are balanced. -/
theorem documentedMedian_eq_iff {prices : Multiset I128} {x : I128}
    (hx : firstMedian prices = some x) :
    documentedMedian prices = some x.val ↔ Balanced prices := by
  have hx : prices.sort[prices.card / 2]? = some x := hx
  unfold documentedMedian Balanced
  split
  · next hodd =>
    rw [hx]
    exact iff_of_true rfl (.inl hodd)
  · next heven =>
    obtain ⟨hlt, hupper⟩ := List.getElem?_eq_some_iff.1 hx
    rw [Multiset.length_sort] at hlt
    have hlen : prices.card / 2 - 1 < prices.sort.length := by
      rw [Multiset.length_sort]
      omega
    have hlower : prices.sort[prices.card / 2 - 1]? = some prices.sort[prices.card / 2 - 1] :=
      List.getElem?_eq_getElem hlen
    have hle : prices.sort[prices.card / 2 - 1] ≤ x := by
      rw [← hupper]
      exact List.pairwise_iff_getElem.1 (Multiset.pairwise_sort prices _) _ _ _ _ (by omega)
    have hval := I128.le_iff.1 hle
    rw [hx, hlower]
    dsimp only
    constructor
    · intro h
      have havg := Option.some.inj h
      exact .inr (congrArg some (I128.ext_val (by omega)))
    · rintro (hodd | heq)
      · exact absurd hodd heven
      · have heq := congrArg I128.val (Option.some.inj heq)
        exact congrArg some (by omega)

/-- The two medians of the aggregation are the documented ones: the price that the band is laid
around is the median of all prices, and the price returned is the median of those in the band. -/
def MediansDocumented (tol : UInt32) (prices : List I128) (p : I128) : Prop :=
  ∃ sorted m lo hi, sortPrices prices = .ok sorted ∧
    getUnchecked sorted (sorted.length / 2) = .ok m ∧ toleranceBand m tol = .ok (lo, hi) ∧
    documentedMedian prices = some m.val ∧ documentedMedian (band lo hi sorted) = some p.val

/-- **The medians are the documented ones exactly where the two middle prices agree.** Whenever
`get_price` returns a price, its two medians are the documented ones if and only if the prices, and
those of them within tolerance of the middle one, are odd in number or have two equal middle
prices. -/
theorem documented_medians_iff {env : Env} {s : Store} {assetPair : Symbol} {config : OracleConfig}
    {p : I128} {l : UInt64} (hc : s.assetConfig assetPair = some config)
    (h : getPrice env s assetPair = .ok (some (p, l))) :
    MediansDocumented config.toleranceBps (collect s assetPair config.authorizedSubmitters).1 p ↔
      Balanced (collect s assetPair config.authorizedSubmitters).1 ∧
      Balanced (inliers config.toleranceBps
        (collect s assetPair config.authorizedSubmitters).1) := by
  obtain ⟨config', hc', -, -, -, -, hagg⟩ := getPrice_eq_some.1 h
  obtain rfl : config = config' := Option.some.inj (hc.symm.trans hc')
  rw [collect_eq]
  dsimp only
  generalize hprices : (contributions s assetPair config.authorizedSubmitters).map
    (fun x => x.2.price) = prices at hagg
  have hpos : ∀ q ∈ prices, 0 < q.val := hprices ▸ fun _ => pos_of_mem_contributions
  obtain ⟨m, lo, hi, hm, hband, -, hp⟩ := aggregate_eq_some.1 hagg
  have hmpos : 0 < m.val := hpos m ((bubbleSort_perm prices).subset (List.mem_of_getElem? hm))
  have hfirst : firstMedian prices = some m := by rw [← middle_eq_firstMedian, hm]
  have hsort := band_eq_sort hmpos hband hfirst
  have hinliers : ((band lo hi (bubbleSort prices) : List I128) : Multiset I128) =
      inliers config.toleranceBps prices := by rw [hsort, Multiset.sort_eq]
  have hsecond : firstMedian (inliers config.toleranceBps prices) = some p := by
    rw [firstMedian, ← hsort, ← Multiset.length_sort (r := (· ≤ ·)), ← hsort]
    exact hp
  rw [← documentedMedian_eq_iff hfirst, ← documentedMedian_eq_iff hsecond]
  constructor
  · rintro ⟨sorted, m', lo', hi', hs, hget, hband', hfull, hreturned⟩
    obtain rfl : bubbleSort prices = sorted := Except.ok.inj ((sortPrices_eq prices).symm.trans hs)
    obtain rfl : m = m' := Option.some.inj (hm.symm.trans (getUnchecked_eq_ok.1 hget))
    obtain ⟨rfl, rfl⟩ := Prod.mk.inj (Except.ok.inj (hband.symm.trans hband'))
    rw [hinliers] at hreturned
    exact ⟨hfull, hreturned⟩
  · rintro ⟨hfull, hreturned⟩
    exact ⟨_, m, lo, hi, sortPrices_eq prices, getUnchecked_eq_ok.2 hm, hband, hfull,
      hinliers ▸ hreturned⟩

theorem documented_medians_iff_three :
    MediansDocumented 1000 [.lit 10, .lit 100, .lit 101] (.lit 101) ↔
      Balanced (([.lit 10, .lit 100, .lit 101] : List I128) : Multiset I128) ∧
      Balanced (inliers 1000 (([.lit 10, .lit 100, .lit 101] : List I128) : Multiset I128)) :=
  documented_medians_iff
    (show (oracle.exec oracle.init threePrices).assetConfig "XLM/USDC" =
      some ⟨"XLM/USDC", 1000, 100, [⟨2⟩, ⟨3⟩, ⟨4⟩]⟩ from rfl)
    (show getPrice ⟨1, 0, []⟩ _ _ = .ok (some (.lit 101, 1)) from rfl)

/-- The prices 1000, 1005 and 1500 at a tolerance of ten per cent. -/
def withOutlier : List (Env × Call) :=
  [(⟨1, 0, [⟨1⟩]⟩, .init ⟨1⟩),
    (⟨1, 0, [⟨1⟩]⟩, .configureAssetPair ⟨1⟩ "XLM/USDC" 1000 100),
    (⟨1, 0, [⟨1⟩]⟩, .authorizeSubmitter ⟨1⟩ "XLM/USDC" ⟨2⟩),
    (⟨1, 0, [⟨1⟩]⟩, .authorizeSubmitter ⟨1⟩ "XLM/USDC" ⟨3⟩),
    (⟨1, 0, [⟨1⟩]⟩, .authorizeSubmitter ⟨1⟩ "XLM/USDC" ⟨4⟩),
    (⟨1, 0, [⟨2⟩]⟩, .submitPrice ⟨2⟩ "XLM/USDC" (.lit 1000)),
    (⟨1, 0, [⟨3⟩]⟩, .submitPrice ⟨3⟩ "XLM/USDC" (.lit 1005)),
    (⟨1, 0, [⟨4⟩]⟩, .submitPrice ⟨4⟩ "XLM/USDC" (.lit 1500))]

/-- Of the two prices in the band, 1000 and 1005, the upper one is returned; their documented
median is 1002. -/
theorem upper_of_two_returned :
    (oracle.exec oracle.init withOutlier).assetConfig "XLM/USDC" =
      some ⟨"XLM/USDC", 1000, 100, [⟨2⟩, ⟨3⟩, ⟨4⟩]⟩ ∧
    getPrice ⟨1, 0, []⟩ (oracle.exec oracle.init withOutlier) "XLM/USDC" =
      .ok (some (.lit 1005, 1)) ∧
    ¬ MediansDocumented 1000 (collect (oracle.exec oracle.init withOutlier) "XLM/USDC"
      [⟨2⟩, ⟨3⟩, ⟨4⟩]).1 (.lit 1005) := by
  refine ⟨rfl, rfl, ?_⟩
  have hcollected : (collect (oracle.exec oracle.init withOutlier) "XLM/USDC"
      [⟨2⟩, ⟨3⟩, ⟨4⟩]).1 = [.lit 1000, .lit 1005, .lit 1500] := rfl
  rw [hcollected]
  rintro ⟨sorted, m, lo, hi, hs, hget, hband, -, hreturned⟩
  obtain rfl : [.lit 1000, .lit 1005, .lit 1500] = sorted := by
    rw [sortPrices_eq] at hs
    exact (show _ = bubbleSort _ from rfl).trans (Except.ok.inj hs)
  obtain rfl : .lit 1005 = m := Option.some.inj (getUnchecked_eq_ok.1 hget)
  obtain ⟨rfl, rfl⟩ : .lit 905 = lo ∧ .lit 1105 = hi := Prod.mk.inj (Except.ok.inj hband)
  have hin : band (.lit 905) (.lit 1105) [.lit 1000, .lit 1005, .lit 1500] =
      bubbleSort [.lit 1000, .lit 1005] := rfl
  have hcard : ((bubbleSort [.lit 1000, .lit 1005] : List I128) : Multiset I128).card = 2 := rfl
  have hsort : ((bubbleSort [.lit 1000, .lit 1005] : List I128) : Multiset I128).sort =
      [.lit 1000, .lit 1005] := (bubbleSort_eq_sort _).symm.trans rfl
  rw [hin, documentedMedian, hcard, hsort] at hreturned
  exact absurd hreturned (by decide)

end Oracle

end InvoiceFi
