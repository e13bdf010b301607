import InvoiceFi.Contracts.Settlement.Nonces
import InvoiceFi.Lib.Installments
import Mathlib.Data.Finset.Card

/-!
# Paying an invoice off

A payment may not exceed the amount of the invoice, and it loses its fee before it is counted, so
one payment does not pay an invoice off at any fee rate above zero. This module says which numbers
of payments do, from any reachable state: the run of payments is built one at a time from
amounts that leave the right nets (`Ready.pay`), and every run of payments adds up its nets
(`nets_of_payments`), so that the question is one about installments (`payoff_iff`).
-/

namespace InvoiceFi

namespace Settlement

/-- The call is a payment of the invoice. -/
def Call.Pays (invoiceId : Symbol) (c : Call) : Prop :=
  ∃ caller nonce amount authType, c = .settleInvoice caller invoiceId nonce amount authType

/-- The calls are accepted payments of the invoice, all in one environment, that bring its principal
to exactly its amount. -/
structure PaysOff (env : Env) (s : Store) (invoiceId : Symbol) (is : List (Env × Call)) :
    Prop where
  payments : ∀ i ∈ is, i.1 = env ∧ i.2.Pays invoiceId
  accepted : ∀ t ∈ settlement.trace s is, t.Accepted
  exactly : ∃ t, terms (settlement.exec s is) invoiceId = some t ∧
    t.principalPaid.val = t.amount.val

/-- What it takes for `n` payments to pay off an invoice with the terms `t`: somebody who authorizes
them, a contract that is not paused, a time that the nonce check accepts, and a number of payments
that is enough at the fee rate and not more than what is owed. -/
structure CanPayOff (env : Env) (s : Store) (t : Terms) (n : ℕ) : Prop where
  authorized : env.auths ≠ []
  unpaused : AccessControl.isPaused s.ac = false
  inTime : env.timestamp ≤ 2592000
  positive : 0 < t.amount.val
  enough : t.amount.val - t.principalPaid.val ≤ n * netAt (feeRate s) t.amount.val
  few : n ≤ t.amount.val - t.principalPaid.val

section
variable {env : Env} {s s' : Store} {invoiceId : Symbol} {r A p : ℤ} {n : ℕ}

/-! ## The reentrancy guard -/

/-- A successful call leaves the guard unlocked if it was. -/
theorem unlocked_of_invoke {i : Env × Call} {u : Unit} (h : settlement.invoke i s = .ok (u, s'))
    (hs : s.reentrancyGuard ≠ some .locked) : s'.reentrancyGuard ≠ some .locked := by
  obtain ⟨s₁, h, heq⟩ := map_eq_ok.1 h
  cases heq
  obtain ⟨env, c⟩ := i
  cases c with
  | init sg th tl =>
    obtain ⟨ac, -, rfl⟩ := init_eq_ok.1 h
    exact nofun
  | setInvoiceData c j b f a d r =>
    have h : setInvoiceData env s c j b f a d r = .ok s' := h
    obtain ⟨-, rfl⟩ := setInvoiceData_eq_ok.1 h
    exact hs
  | setFeeRate c rate =>
    obtain ⟨-, rfl⟩ := setFeeRate_eq_ok.1 h
    exact hs
  | withdrawFees c p a =>
    obtain ⟨-, -, -, c', -, w, -, rfl⟩ := withdrawFees_eq_ok.1 h
    exact hs
  | settleInvoice c j n a k =>
    have h : settleInvoice env s c j n a k = .ok s' := h
    obtain ⟨-, -, -, -, r, -, -, -, -, fee, -, net, -, c', -, p, -, rfl⟩ :=
      settleInvoice_eq_ok.1 h
    exact nofun
  | settlementAuth c j d b p =>
    obtain ⟨-, r, -, rfl⟩ := settlementAuth_eq_ok.1 h
    exact hs
  | requestSettlementAuth c j =>
    obtain ⟨-, r, -, -, rfl⟩ := requestSettlementAuth_eq_ok.1 h
    exact hs
  | setAuthorizedPayers c ps | setFinanciers c ps =>
    simp only [dispatch, setAuthorizedPayers, setFinanciers, bind_eq_ok, pure_eq_ok] at h
    obtain ⟨-, -, rfl⟩ := h
    exact hs
  | setEscrowPubkey c k =>
    simp only [dispatch, setEscrowPubkey, bind_eq_ok, pure_eq_ok] at h
    obtain ⟨-, -, rfl⟩ := h
    exact hs
  | submitAttestation c pl sig =>
    simp only [dispatch, submitAttestation, bind_eq_ok, pure_eq_ok] at h
    obtain ⟨-, -, -, -, -, -, rfl⟩ := h
    exact hs
  | setFinancingPoolAddress c p =>
    simp only [dispatch, setFinancingPoolAddress, bind_eq_ok, pure_eq_ok] at h
    obtain ⟨-, -, rfl⟩ := h
    exact hs
  | access o =>
    simp only [dispatch, access, bind_eq_ok, unwrapAc_eq_ok, pure_eq_ok] at h
    obtain ⟨ac, -, rfl⟩ := h
    exact hs

/-- No run leaves the guard locked. -/
theorem unlocked_exec (is : List (Env × Call)) :
    (settlement.exec settlement.init is).reentrancyGuard ≠ some .locked :=
  Machine.invariant (I := fun s => s.reentrancyGuard ≠ some .locked)
    (show Store.empty.reentrancyGuard ≠ some .locked from nofun)
    (fun _ _ _ _ hs hi => unlocked_of_invoke hi hs) is

/-! ## What payments leave -/

/-- A payment leaves the fee rate as it is. -/
theorem feeRate_of_settleInvoice {caller : Address} {nonce : UInt64} {amount : I128}
    {authType : UInt32}
    (h : settleInvoice env s caller invoiceId nonce amount authType = .ok s') :
    feeRate s' = feeRate s := by
  obtain ⟨-, -, -, -, r, -, -, -, -, fee, -, net, -, c, -, p, -, rfl⟩ := settleInvoice_eq_ok.1 h
  rfl

/-- Accepted payments of an invoice add their nets to its principal. -/
theorem nets_of_payments {is : List (Env × Call)} {t : Terms}
    (hpay : ∀ i ∈ is, i.1 = env ∧ i.2.Pays invoiceId)
    (hacc : ∀ t ∈ settlement.trace s is, t.Accepted) (ht : terms s invoiceId = some t) :
    ∃ (amounts : List ℤ) (t' : Terms), amounts.length = is.length ∧
      (∀ g ∈ amounts, 0 < g ∧ g ≤ t.amount.val) ∧
      terms (settlement.exec s is) invoiceId = some t' ∧ t'.amount = t.amount ∧
      t'.principalPaid.val =
        t.principalPaid.val + (amounts.map (netAt (feeRate s))).sum := by
  induction is generalizing s t with
  | nil => exact ⟨[], t, rfl, nofun, ht, rfl, by simp⟩
  | cons i is ih =>
    obtain ⟨env', c⟩ := i
    obtain ⟨-, caller, nonce, amount, authType, rfl⟩ := hpay _ (.head _)
    obtain ⟨u, s', hi⟩ := Machine.step_accepted_iff.1 (hacc _ (.head _))
    have hstep := Machine.step_of_ok hi
    obtain ⟨s₁, h, heq⟩ := map_eq_ok.1 hi
    cases heq
    have h : settleInvoice env' s caller invoiceId nonce amount authType = .ok s' := h
    obtain ⟨t₀, p, hp⟩ := pays_of_settleInvoice h
    have hfound := hp.found
    rw [ht] at hfound
    cases hfound
    have ht' : terms s' invoiceId = some (t.paid p) := by
      rw [hp.left, Function.update_self]
    have hacc' : ∀ x ∈ settlement.trace s' is, x.Accepted := by
      intro x hx
      refine hacc x (.tail _ ?_)
      rw [hstep]
      exact hx
    obtain ⟨amounts, t', hlength, hbounds, hterms, hamount, hprincipal⟩ :=
      ih (fun j hj => hpay j (.tail _ hj)) hacc' ht'
    refine ⟨amount.val :: amounts, t', by rw [List.length_cons, List.length_cons, hlength], ?_, ?_,
      hamount, ?_⟩
    · intro g hg
      rcases List.mem_cons.1 hg with rfl | hg
      · exact ⟨hp.pos, hp.le⟩
      · exact hbounds g hg
    · rw [Machine.exec, hstep]
      exact hterms
    · rw [hprincipal, feeRate_of_settleInvoice h, List.map_cons, List.sum_cons]
      have hprin := hp.principal
      simp only [Terms.paid]
      omega

/-! ## Making the payments -/

/-- There are more nonces than used ones. -/
theorem exists_unused (used : List UInt64) (h : used.length < 2 ^ 64) : ∃ nonce, nonce ∉ used := by
  by_contra hall
  push Not at hall
  have hsub : Finset.range (2 ^ 64) ⊆ (used.map UInt64.toNat).toFinset := by
    intro k hk
    have hlt := Finset.mem_range.1 hk
    refine List.mem_toFinset.2 (List.mem_map.2 ⟨.ofNat k, hall _, ?_⟩)
    exact UInt64.toNat_ofNat_of_lt' hlt
  have hcard := (Finset.card_le_card hsub).trans (List.toFinset_card_le _)
  rw [Finset.card_range, List.length_map] at hcard
  omega

/-- The invoice of `A`, of which `p` is paid, is ready for `n` more payments at the fee rate `r`. -/
structure Ready (env : Env) (invoiceId : Symbol) (r A : ℤ) (n : ℕ) (p : ℤ) (s : Store) : Prop where
  unpaused : AccessControl.isPaused s.ac = false
  unlocked : s.reentrancyGuard ≠ some .locked
  rate : feeRate s = r
  found : ∃ t, terms s invoiceId = some t ∧ t.amount.val = A ∧ t.principalPaid.val = p
  inTime : env.timestamp.toNat ≤
    min ((NonceMeta.load s invoiceId).dueDate.toNat + 2592000) (2 ^ 64 - 1)
  room : collected s + n * A < 2 ^ 127
  nonces : (NonceMeta.load s invoiceId).usedNonces.length + n ≤ 2 ^ 64

/-- One of the payments is accepted, and leaves the invoice ready for the others. -/
theorem Ready.pay (h : Ready env invoiceId r A (n + 1) p s) {caller : Address}
    (hcaller : caller ∈ env.auths) {g : ℤ} (hpos : 0 < g) (hle : g ≤ A) (hrate : A * r < 2 ^ 127)
    (hnet : 0 ≤ netAt r g) (hleft : p + netAt r g ≤ A) :
    ∃ nonce amount s', settleInvoice env s caller invoiceId nonce amount 0 = .ok s' ∧
      Ready env invoiceId r A n (p + netAt r g) s' := by
  obtain ⟨t, ht, rfl, rfl⟩ := h.found
  obtain ⟨record, hrecord, hterms⟩ := Option.map_eq_some_iff.1 ht
  have hamount : record.amount = t.amount := congrArg Terms.amount hterms
  have hprincipal : record.principalPaid = t.principalPaid := congrArg Terms.principalPaid hterms
  obtain ⟨nonce, hnonce⟩ := exists_unused (NonceMeta.load s invoiceId).usedNonces
    (by have := h.nonces; omega)
  have hr : 0 ≤ r := h.rate ▸ feeRate_nonneg s
  have hnum : g * r ≤ t.amount.val * r := Int.mul_le_mul_of_nonneg_right hle hr
  have hfee : 0 ≤ feeAt r g := share_nonneg rateDenominator_pos hr hpos.le
  have hfee_le : feeAt r g ≤ g := by
    have hsum : netAt r g = g - feeAt r g := rfl
    omega
  have hsplit : netAt r g = g - feeAt r g := rfl
  have hroom := h.room
  push_cast at hroom
  rw [add_mul, one_mul] at hroom
  have hothers : 0 ≤ (n : ℤ) * t.amount.val := Int.mul_nonneg (by omega) (by omega)
  have hupper := t.amount.upper
  have hlower := t.principalPaid.lower
  have hcollected : -2 ^ 127 ≤ collected s := (s.collectedFees.getD .zero).lower
  have hnum_nonneg : 0 ≤ g * r := Int.mul_nonneg hpos.le hr
  let amount : I128 := ⟨g, by omega, by omega⟩
  obtain ⟨s', hok⟩ : ∃ s', settleInvoice env s caller invoiceId nonce amount 0 = .ok s' := by
    refine ⟨_, settleInvoice_eq_ok.2 ⟨hcaller, h.unpaused, h.unlocked,
      NonceMeta.isValid_iff.2 ⟨hnonce, h.inTime⟩, record, hrecord,
      ⟨hpos, by rw [hamount]; exact hle⟩,
      ⟨g * r, by omega, by omega⟩, congrArg (g * ·) h.rate.symm,
      ⟨feeAt r g, by omega, by omega⟩, congrArg (g * · / 10000) h.rate.symm,
      ⟨netAt r g, by omega, by omega⟩, hsplit,
      ⟨collected s + feeAt r g, by omega, by omega⟩, rfl,
      ⟨t.principalPaid.val + netAt r g, by omega, by omega⟩, by rw [hprincipal], rfl⟩⟩
  refine ⟨nonce, amount, s', hok, ?_⟩
  obtain ⟨t', p, hp⟩ := pays_of_settleInvoice hok
  have hfound := hp.found
  rw [ht] at hfound
  cases hfound
  have hload := hp.load invoiceId
  rw [if_pos rfl] at hload
  have hinvoke : settlement.invoke (env, .settleInvoice caller invoiceId nonce amount 0) s =
      .ok ((), s') := map_eq_ok.2 ⟨s', hok, rfl⟩
  constructor
  case unpaused =>
    rw [hp.access]
    exact h.unpaused
  case unlocked => exact unlocked_of_invoke hinvoke h.unlocked
  case rate => rw [feeRate_of_settleInvoice hok, h.rate]
  case found =>
    refine ⟨t.paid p, by rw [hp.left, Function.update_self], rfl, ?_⟩
    have hprin := hp.principal
    rw [h.rate] at hprin
    exact hprin
  case inTime =>
    rw [hload]
    exact h.inTime
  case room =>
    have hcoll := hp.collected
    rw [h.rate] at hcoll
    have hfee_eq : feeAt r amount.val = feeAt r g := rfl
    omega
  case nonces =>
    have hn := h.nonces
    rw [hload, NonceMeta.markUsed, List.length_append, List.length_singleton]
    omega

/-- The payments of these amounts are made, and pay the invoice off if their nets add up. -/
theorem Ready.payOff {amounts : List ℤ} (h : Ready env invoiceId r A amounts.length p s)
    {caller : Address} (hcaller : caller ∈ env.auths) (hrate : A * r < 2 ^ 127)
    (hamounts : ∀ g ∈ amounts, (0 < g ∧ g ≤ A) ∧ 0 ≤ netAt r g)
    (hsum : p + (amounts.map (netAt r)).sum = A) :
    ∃ is, is.length = amounts.length ∧ PaysOff env s invoiceId is := by
  induction amounts generalizing s p with
  | nil =>
    obtain ⟨t, ht, hA, hp⟩ := h.found
    have htrace : settlement.trace s [] = [] := rfl
    refine ⟨[], rfl, by simp, by simp [htrace], t, ht, ?_⟩
    rw [hp, hA]
    simpa using hsum
  | cons g amounts ih =>
    obtain ⟨⟨hpos, hle⟩, hnet⟩ := hamounts g (.head _)
    rw [List.map_cons, List.sum_cons] at hsum
    have hrest : 0 ≤ (amounts.map (netAt r)).sum := by
      refine List.sum_nonneg fun x hx => ?_
      obtain ⟨g', hg', rfl⟩ := List.mem_map.1 hx
      exact (hamounts g' (.tail _ hg')).2
    obtain ⟨nonce, amount, s', hok, hready⟩ :=
      Ready.pay h hcaller hpos hle hrate hnet (by omega)
    obtain ⟨is, hlength, hpays⟩ :=
      ih hready (fun g' hg' => hamounts g' (.tail _ hg')) (by omega)
    have hinvoke : settlement.invoke (env, .settleInvoice caller invoiceId nonce amount 0) s =
        .ok ((), s') := map_eq_ok.2 ⟨s', hok, rfl⟩
    have hstep := Machine.step_of_ok hinvoke
    refine ⟨(env, .settleInvoice caller invoiceId nonce amount 0) :: is,
      by rw [List.length_cons, List.length_cons, hlength], ?_, ?_, ?_⟩
    · intro i hi
      rcases List.mem_cons.1 hi with rfl | hi
      · exact ⟨rfl, caller, nonce, amount, 0, rfl⟩
      · exact hpays.payments i hi
    · intro t ht
      rw [Machine.trace, hstep] at ht
      rcases List.mem_cons.1 ht with rfl | ht
      · rfl
      · exact hpays.accepted t ht
    · rw [Machine.exec, hstep]
      exact hpays.exactly

end

/-! ## How many payments it takes -/

/-- **How many payments pay an invoice off.** In every reachable state, as long as neither the
amounts nor the nonces run out of range, `n` payments can bring the principal of an invoice that is
short of its amount to exactly that amount if, and only if, somebody authorizes them, the contract
is not paused, the ledger time is at most thirty days, and what is owed lies between `n` and `n`
times the net of a payment of the full amount. -/
theorem payoff_iff (past : List (Env × Call)) (env : Env) {invoiceId : Symbol} {t : Terms} {n : ℕ}
    (ht : terms (settlement.exec settlement.init past) invoiceId = some t)
    (howed : t.principalPaid.val < t.amount.val)
    (hrate : t.amount.val * feeRate (settlement.exec settlement.init past) < 2 ^ 127)
    (hroom : collected (settlement.exec settlement.init past) + n * t.amount.val < 2 ^ 127)
    (hnonces : (getUsedNonces (settlement.exec settlement.init past) invoiceId).length + n ≤
      2 ^ 64) :
    (∃ is, is.length = n ∧ PaysOff env (settlement.exec settlement.init past) invoiceId is) ↔
      CanPayOff env (settlement.exec settlement.init past) t n := by
  generalize hs : settlement.exec settlement.init past = s at ht hrate hroom hnonces ⊢
  have hunset : (NonceMeta.load s invoiceId).dueDate = 0 := hs ▸ (nonces_exec past invoiceId).unset
  have hguard : s.reentrancyGuard ≠ some .locked := hs ▸ unlocked_exec past
  have hr : 0 ≤ feeRate s := feeRate_nonneg s
  constructor
  · rintro ⟨is, rfl, hpays⟩
    obtain ⟨amounts, t', hlength, hbounds, ht', hamount, hprincipal⟩ :=
      nets_of_payments hpays.payments hpays.accepted ht
    obtain ⟨t'', ht'', hexact⟩ := hpays.exactly
    cases ht'.symm.trans ht''
    have hsum : (amounts.map (netAt (feeRate s))).sum = t.amount.val - t.principalPaid.val := by
      rw [hamount] at hexact
      omega
    cases is with
    | nil =>
      rw [List.length_eq_zero_iff.1 hlength] at hsum
      simp only [List.map_nil, List.sum_nil] at hsum
      omega
    | cons i is =>
      -- the first payment finds everything as it is
      obtain ⟨env', c⟩ := i
      obtain ⟨henv, caller, nonce, amount, authType, hc⟩ := hpays.payments _ (.head _)
      dsimp only at henv hc
      subst henv hc
      obtain ⟨u, s', hi⟩ := Machine.step_accepted_iff.1 (hpays.accepted _ (.head _))
      obtain ⟨s₁, hok, -⟩ := map_eq_ok.1 hi
      have hok : settleInvoice env' s caller invoiceId nonce amount authType = .ok s₁ := hok
      obtain ⟨hauth, hunpaused, -, hvalid, -⟩ := settleInvoice_eq_ok.1 hok
      obtain ⟨t₀, p, hp⟩ := pays_of_settleInvoice hok
      have hfound := hp.found
      rw [ht] at hfound
      cases hfound
      have hpositive : 0 < t.amount.val := lt_of_lt_of_le hp.pos hp.le
      have hbetween := (installments_iff rateDenominator_pos hr hpositive.le (by omega)).1
        ⟨amounts, hlength, hbounds, hsum⟩
      refine ⟨List.ne_nil_of_mem hauth, hunpaused, ?_, hpositive, hbetween.2, hbetween.1⟩
      have htime := (NonceMeta.isValid_iff.1 hvalid).2
      rw [hunset] at htime
      rw [UInt64.le_iff_toNat_le]
      exact htime.trans (min_le_left _ _)
  · intro h
    obtain ⟨caller, hcaller⟩ := List.exists_mem_of_ne_nil _ h.authorized
    obtain ⟨amounts, rfl, hbounds, hsum⟩ :=
      (installments_iff rateDenominator_pos hr h.positive.le (by omega)).2 ⟨h.few, h.enough⟩
    have hready : Ready env invoiceId (feeRate s) t.amount.val amounts.length t.principalPaid.val
        s := by
      refine ⟨h.unpaused, hguard, rfl, ⟨t, ht, rfl, rfl⟩, ?_, hroom, hnonces⟩
      have htime : env.timestamp.toNat ≤ 2592000 := UInt64.le_iff_toNat_le.1 h.inTime
      have hzero : (0 : UInt64).toNat = 0 := rfl
      rw [hunset, hzero, zero_add]
      exact le_min htime (htime.trans (by omega))
    have hbelow : feeRate s < 10000 := by
      by_contra hbelow
      have hnone := rest_nonpos rateDenominator_pos (Int.not_lt.1 hbelow) h.positive.le
      have hsome := h.enough
      have hmul : (amounts.length : ℤ) * netAt (feeRate s) t.amount.val ≤ 0 :=
        mul_nonpos_of_nonneg_of_nonpos (by omega) hnone
      omega
    refine hready.payOff hcaller hrate (fun g hg => ⟨hbounds g hg, ?_⟩) ?_
    · exact (rest_pos rateDenominator_pos hbelow (hbounds g hg).1).le
    · have hnets : (amounts.map (netAt (feeRate s))).sum = _ := hsum
      omega

/-- A run that registers the invoice `INV` of 100 and sets a fee rate of five percent. -/
def chargedRun : List (Env × Call) :=
  [(⟨1, 1000, []⟩, .init [⟨1⟩] 1 34560),
    (⟨1, 1000, [⟨1⟩]⟩, .setInvoiceData ⟨1⟩ "INV" ⟨2⟩ ⟨3⟩ (.lit 100) 5000 500),
    (⟨1, 1000, [⟨1⟩]⟩, .setFeeRate ⟨1⟩ 500)]

/-- With a fee, one payment does not pay the invoice off, and two payments can. -/
theorem payoff_iff_one_two :
    (¬ ∃ is, is.length = 1 ∧
      PaysOff ⟨1, 2000, [⟨2⟩]⟩ (settlement.exec settlement.init chargedRun) "INV" is) ∧
    ∃ is, is.length = 2 ∧
      PaysOff ⟨1, 2000, [⟨2⟩]⟩ (settlement.exec settlement.init chargedRun) "INV" is := by
  have ht : terms (settlement.exec settlement.init chargedRun) "INV" =
      some (.registered (.lit 100) 5000) := by decide
  refine ⟨fun h => ?_, ?_⟩
  · have hcan := (payoff_iff chargedRun _ ht (by decide) (by decide) (by decide) (by decide)).1 h
    exact absurd hcan.enough (by decide)
  · exact (payoff_iff chargedRun _ ht (by decide) (by decide) (by decide) (by decide)).2
      ⟨by decide, by decide, by decide, by decide, by decide, by decide⟩

end Settlement

end InvoiceFi
