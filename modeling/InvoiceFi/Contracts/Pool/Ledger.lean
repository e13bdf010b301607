import InvoiceFi.Contracts.Pool
import InvoiceFi.Lib.Book
import Mathlib.Algebra.Order.Ring.Int
import Mathlib.Data.Int.ConditionallyCompleteOrder
import Mathlib.Order.ConditionallyCompleteLattice.Basic

/-!
# The pool's ledger

The pool refines a `Book`: `book` reads the un-deployed liquidity and the claims off the store,
`posting` reads off a step what it does to them, and `book_step` says that every step of the
contract is that posting, and that the book covers it. The conservation laws are the book's,
carried over by `Machine.simulate`, and so is solvency (`PoolOK`).

An advance is charged to the un-deployed liquidity when it is credited, and the withdrawal of the
same advance is charged to it again. `advance_payable_iff` says what that means for a financed
farmer: the advance can be withdrawn at once exactly when the pool held it twice.
-/

namespace InvoiceFi

namespace Pool

open AccessControl (Op)

/-! ## What one call can do -/

/-- The calls that move funds. -/
def Call.movesFunds : Call → Bool
  | .deposit _ _ | .withdraw _ _ | .fundInvoice _ _ _ _ => true
  | _ => false

/-- The parts of the store that only the setup and the calls that move funds write. -/
structure SameFunds (s s' : Store) : Prop where
  discountBps : s'.discountBps = s.discountBps
  available : s'.available = s.available
  balance : s'.balance = s.balance
  funding : s'.funding = s.funding
  reentrancyGuard : s'.reentrancyGuard = s.reentrancyGuard
  initialized : s'.ac.multisig = none → s.ac.multisig = none

/-- What a successful call does to the funds: it is the one-time setup, one of the three calls
that move funds, or it leaves them alone. -/
theorem pool_cases {i : Env × Call} {s s' : Store} {r : Value}
    (h : pool.invoke i s = .ok (r, s')) :
    (∃ sg th tl bps ac, i.2 = .init sg th tl bps ∧ s.ac.multisig = none ∧
      ac.multisig ≠ none ∧ bps.toNat < 10000 ∧
      s' = { s with ac := ac, discountBps := some bps, available := some .zero,
                    reentrancyGuard := some .unlocked }) ∨
    (∃ d amount, i.2 = .deposit d amount ∧ deposit i.1 s d amount = .ok s') ∨
    (∃ p amount, i.2 = .withdraw p amount ∧ withdraw i.1 s p amount = .ok s') ∨
    (∃ c n fv p adv, i.2 = .fundInvoice c n fv p ∧ r = .int adv ∧
      fundInvoice i.1 s c n fv p = .ok (adv, s')) ∨
    (i.2.movesFunds = false ∧ SameFunds s s') := by
  obtain ⟨env, c⟩ := i
  cases c with
  | init sg th tl bps =>
    obtain ⟨_, h, heq⟩ := map_eq_ok.1 h
    cases heq
    obtain ⟨hb, ac, hac, rfl⟩ := init_eq_ok.1 h
    obtain ⟨hm, -, -, rfl⟩ := AccessControl.init_eq_ok.1 hac
    exact .inl ⟨sg, th, tl, bps, _, rfl, hm, by simp, hb, rfl⟩
  | deposit d amount =>
    obtain ⟨_, h, heq⟩ := map_eq_ok.1 h
    cases heq
    exact .inr (.inl ⟨d, amount, rfl, h⟩)
  | withdraw p amount =>
    obtain ⟨_, h, heq⟩ := map_eq_ok.1 h
    cases heq
    exact .inr (.inr (.inl ⟨p, amount, rfl, h⟩))
  | fundInvoice c n fv p =>
    obtain ⟨⟨adv, s₁⟩, hf, heq⟩ := map_eq_ok.1 h
    cases heq
    exact .inr (.inr (.inr (.inl ⟨c, n, fv, p, adv, rfl, rfl, hf⟩)))
  | setTokenAddress c token address =>
    obtain ⟨_, h, heq⟩ := map_eq_ok.1 h
    cases heq
    obtain ⟨-, -, rfl⟩ := setTokenAddress_eq_ok.1 h
    exact .inr (.inr (.inr (.inr ⟨rfl, rfl, rfl, rfl, rfl, rfl, id⟩)))
  | setOracleDiscountConfig c config =>
    obtain ⟨_, h, heq⟩ := map_eq_ok.1 h
    cases heq
    obtain ⟨-, -, -, -, rfl⟩ := setOracleDiscountConfig_eq_ok.1 h
    exact .inr (.inr (.inr (.inr ⟨rfl, rfl, rfl, rfl, rfl, rfl, id⟩)))
  | setPriceFeed c price timestamp =>
    obtain ⟨_, h, heq⟩ := map_eq_ok.1 h
    cases heq
    obtain ⟨-, -, rfl⟩ := setPriceFeed_eq_ok.1 h
    exact .inr (.inr (.inr (.inr ⟨rfl, rfl, rfl, rfl, rfl, rfl, id⟩)))
  | access o =>
    obtain ⟨_, h, heq⟩ := map_eq_ok.1 h
    cases heq
    obtain ⟨ac, hac, rfl⟩ := access_eq_ok.1 h
    exact .inr (.inr (.inr (.inr
      ⟨rfl, rfl, rfl, rfl, rfl, rfl, AccessControl.multisig_of_apply hac⟩)))

/-! ## The pool as a book -/

/-- The book of a store. -/
def book (s : Store) : Book Address ℤ :=
  ⟨(availableInner s).val, fun a => (balanceInner s a).val⟩

/-- What a step posts: an accepted deposit, withdrawal or funding, and nothing otherwise. -/
def posting (t : PoolStep) : Posting Address ℤ :=
  match t.input.2, t.result with
  | .deposit d amount, .ok _ => .deposit d amount.val
  | .withdraw p amount, .ok _ => .withdraw p amount.val
  | .fundInvoice _ _ _ p, .ok (.int adv) => .advance p adv.val
  | _, _ => .idle

/-- The claims of a store in which one balance was written. -/
theorem claim_update {s : Store} (s' : Store) {a : Address} {b : I128} {x : ℤ}
    (hs : s'.balance = Function.update s.balance a (some b))
    (hb : b.val = (balanceInner s a).val + x) :
    (book s').claim = Function.update (book s).claim a ((book s).claim a + x) := by
  funext c
  simp only [book, balanceInner, hs]
  by_cases hc : c = a
  · subst hc
    rw [Function.update_self, Function.update_self]
    exact hb
  · rw [Function.update_of_ne hc, Function.update_of_ne hc]

/-- A call that leaves the funds alone leaves the book alone. -/
theorem SameFunds.book {s s' : Store} (h : SameFunds s s') : book s' = book s := by
  simp only [Pool.book, availableInner, balanceInner, h.available, h.balance]

/-- The invariant of the store: the discount is below the denominator, the reentrancy guard is
released, nothing is available before the setup, and the book is solvent. -/
structure PoolOK (s : Store) : Prop where
  discount : (discountBps s).toNat < 10000
  unlocked : s.reentrancyGuard ≠ some .locked
  unset : s.ac.multisig = none → s.available = none
  solvent : (book s).Solvent

theorem PoolOK.empty : PoolOK .empty := by
  refine ⟨by decide, by decide, fun _ => rfl, le_refl _, fun a => le_refl _⟩

/-- The advance of a positive face value at a discount below the denominator is the floor of the
discounted face value, between zero and the face value. -/
theorem advanceFor_bounds {s : Store} (hs : (discountBps s).toNat < 10000) {fv adv : I128}
    (hfv : 0 < fv.val) (h : advanceFor s fv = .ok adv) :
    adv.val = fv.val * (10000 - (discountBps s).toNat) / 10000 ∧ 0 ≤ adv.val ∧
      adv.val ≤ fv.val := by
  obtain ⟨-, ha⟩ := advanceFor_eq_ok.1 h
  have hd : (0 : ℤ) ≤ 10000 - (discountBps s).toNat := by omega
  have hnum : 0 ≤ fv.val * (10000 - (discountBps s).toNat) := mul_nonneg hfv.le hd
  rw [Int.tdiv_eq_ediv_of_nonneg hnum] at ha
  refine ⟨ha, by omega, ?_⟩
  have hle : fv.val * (10000 - (discountBps s).toNat) ≤ fv.val * 10000 :=
    mul_le_mul_of_nonneg_left (by omega) hfv.le
  omega

/-- What a successful deposit posts. -/
theorem book_deposit {env : Env} {s s' : Store} {d : Address} {amount : I128}
    (h : deposit env s d amount = .ok s') :
    book s' = (book s).post (.deposit d amount.val) ∧ 0 ≤ amount.val := by
  obtain ⟨-, -, -, hpos, -, b, hb, v, hv, hs'⟩ := deposit_eq_ok.1 h
  have hclaim := claim_update s' (by rw [hs']) hb
  refine ⟨?_, hpos.le⟩
  rw [Book.post, Book.credit, ← hclaim]
  simp only [book, availableInner, hs', Option.getD_some, hv]

/-- What a successful withdrawal posts. -/
theorem book_withdraw {env : Env} {s s' : Store} {p : Address} {amount : I128}
    (h : withdraw env s p amount = .ok s') :
    book s' = (book s).post (.withdraw p amount.val) ∧
      amount.val ≤ (book s).claim p ∧ amount.val ≤ (book s).pooled := by
  obtain ⟨-, -, -, -, -, hbal, hav, b, hb, v, hv, hs'⟩ := withdraw_eq_ok.1 h
  rw [sub_eq_add_neg] at hb
  have hclaim := claim_update s' (by rw [hs']) hb
  refine ⟨?_, hbal, hav⟩
  rw [Book.post, Book.credit, ← hclaim]
  simp only [book, availableInner, hs', Option.getD_some, hv]

/-- What a successful funding posts. -/
theorem book_fundInvoice {env : Env} {s s' : Store} {c p : Address} {n : UInt64} {fv adv : I128}
    (h : fundInvoice env s c n fv p = .ok (adv, s')) :
    book s' = (book s).post (.advance p adv.val) ∧ adv.val ≤ (book s).pooled := by
  obtain ⟨-, -, -, -, -, -, -, hav, v, hv, b, hb, hs'⟩ := fundInvoice_eq_ok.1 h
  have hclaim := claim_update s' (by rw [hs']) hb
  refine ⟨?_, hav⟩
  rw [Book.post, Book.credit, ← hclaim]
  simp only [book, availableInner, hs', Option.getD_some, hv]

/-- The posting of a call that moves no funds is idle. -/
theorem posting_idle {t : PoolStep} (h : t.input.2.movesFunds = false ∨ ¬ t.Accepted) :
    posting t = .idle := by
  obtain ⟨pre, ⟨env, c⟩, res, post⟩ := t
  cases res with
  | error e => cases c <;> rfl
  | ok v =>
    rcases h with h | h
    · cases c <;> first | rfl | cases h
    · exact absurd rfl h

/-- **The pool refines its book.** Every step posts what `posting` reads off it. -/
theorem book_step {s : Store} (hs : PoolOK s) (i : Env × Call) :
    book (pool.step i s).post = (book s).post (posting (pool.step i s)) ∧
      (posting (pool.step i s)).Covered (book s) := by
  rcases Machine.step_cases (m := pool) i s with ⟨r, s', hi, ht⟩ | ⟨e, -, ht⟩
  · rw [ht]
    rcases pool_cases hi with
      ⟨sg, th, tl, bps, ac, hc, hm, -, -, rfl⟩ | ⟨d, amount, hc, h⟩ | ⟨p, amount, hc, h⟩ |
      ⟨c, n, fv, p, adv, hc, rfl, h⟩ | ⟨hc, h⟩
    · -- setup: the liquidity it resets to zero was zero
      have hidle : ∀ s', posting ⟨s, i, .ok r, s'⟩ = .idle :=
        fun s' => posting_idle (.inl (by rw [hc]; rfl))
      rw [hidle]
      refine ⟨?_, trivial⟩
      simp [Book.post, book, availableInner, balanceInner, hs.unset hm]
    · obtain ⟨hb, hx⟩ := book_deposit h
      simp only [posting, hc]
      exact ⟨hb, hx⟩
    · obtain ⟨hb, hx⟩ := book_withdraw h
      simp only [posting, hc]
      exact ⟨hb, hx⟩
    · obtain ⟨hb, hx⟩ := book_fundInvoice h
      obtain ⟨-, -, -, hfv, -, -, hadv, -⟩ := fundInvoice_eq_ok.1 h
      simp only [posting, hc]
      exact ⟨hb, (advanceFor_bounds hs.discount hfv hadv).2.1, hx⟩
    · rw [posting_idle (.inl hc)]
      exact ⟨h.book, trivial⟩
  · have hrej : ¬ (⟨s, i, .error e, s⟩ : PoolStep).Accepted := Bool.false_ne_true
    rw [ht, posting_idle (.inr hrej)]
    exact ⟨rfl, trivial⟩

/-- Every successful call keeps the invariant. -/
theorem PoolOK.step {i : Env × Call} {s : Store} {r : Value} {s' : Store} (hs : PoolOK s)
    (hi : pool.invoke i s = .ok (r, s')) : PoolOK s' := by
  have hsolv : (book s').Solvent := by
    obtain ⟨hb, hcov⟩ := book_step hs i
    rw [Machine.step_of_ok hi] at hb hcov
    rw [hb]
    exact hs.solvent.post hcov
  rcases pool_cases hi with
    ⟨sg, th, tl, bps, ac, -, -, hm, hb, rfl⟩ | ⟨d, amount, -, h⟩ | ⟨p, amount, -, h⟩ |
    ⟨c, n, fv, p, adv, -, -, h⟩ | ⟨-, h⟩
  · exact ⟨hb, by simp, fun hn => absurd hn hm, hsolv⟩
  · obtain ⟨⟨cfg, hcfg⟩, -, -, -, -, b, -, v, -, rfl⟩ := deposit_eq_ok.1 h
    exact ⟨hs.discount, by simp, fun hn => by simp [hcfg] at hn, hsolv⟩
  · obtain ⟨⟨cfg, hcfg⟩, -, -, -, -, -, -, b, -, v, -, rfl⟩ := withdraw_eq_ok.1 h
    exact ⟨hs.discount, by simp, fun hn => by simp [hcfg] at hn, hsolv⟩
  · obtain ⟨⟨cfg, hcfg⟩, -, -, -, -, -, -, -, v, -, b, -, rfl⟩ := fundInvoice_eq_ok.1 h
    exact ⟨hs.discount, hs.unlocked, fun hn => by simp [hcfg] at hn, hsolv⟩
  · refine ⟨?_, h.reentrancyGuard ▸ hs.unlocked, fun hn => ?_, hsolv⟩
    · simp only [discountBps, h.discountBps]; exact hs.discount
    · rw [h.available]; exact hs.unset (h.initialized hn)

/-- The invariant holds after every run. -/
theorem poolOK_exec (is : List (Env × Call)) : PoolOK (pool.exec pool.init is) :=
  Machine.invariant (I := PoolOK) .empty (fun _ _ _ _ h hi => h.step hi) is

/-! ## Conservation -/

/-- The postings of a run. -/
def postings (is : List (Env × Call)) : List (Posting Address ℤ) :=
  (pool.trace pool.init is).map posting

/-- The book after a run is the book of its postings. -/
theorem book_exec (is : List (Env × Call)) :
    book (pool.exec pool.init is) = (postings is).foldl Book.post (book pool.init) :=
  Machine.simulate (I := PoolOK) book posting Book.post (fun _ _ _ _ h hi => h.step hi)
    (fun i _ hs => (book_step hs i).1) .empty is

/-- **Ledger conservation.** After every run the available liquidity is what was deposited, less
what was advanced, less what was withdrawn, and is not negative; the balance of every address is
what it deposited and was advanced, less what it withdrew, and is not negative; and no step but an
accepted deposit, withdrawal or funding changes either. -/
theorem ledger_conserved (is : List (Env × Call)) :
    ((availableLiquidity (pool.exec pool.init is)).val =
        ((postings is).map Posting.deposited).sum - ((postings is).map Posting.advanced).sum -
          ((postings is).map Posting.withdrawn).sum ∧
      0 ≤ (availableLiquidity (pool.exec pool.init is)).val) ∧
    (∀ a, (balanceOf (pool.exec pool.init is) a).val =
        ((postings is).map fun p => (p.ofAccount a).deposited).sum +
          ((postings is).map fun p => (p.ofAccount a).advanced).sum -
          ((postings is).map fun p => (p.ofAccount a).withdrawn).sum ∧
      0 ≤ (balanceOf (pool.exec pool.init is) a).val) ∧
    ∀ t ∈ pool.trace pool.init is, t.input.2.movesFunds = false ∨ ¬ t.Accepted →
      availableLiquidity t.post = availableLiquidity t.pre ∧
      ∀ a, balanceOf t.post a = balanceOf t.pre a := by
  have hok := poolOK_exec is
  refine ⟨⟨?_, hok.solvent.pooled⟩, fun a => ⟨?_, hok.solvent.claim a⟩, fun t ht hidle => ?_⟩
  · have h := congrArg Book.pooled (book_exec is)
    rw [Book.foldl_pooled] at h
    exact h.trans (zero_add _)
  · have h := congrArg (fun b => Book.claim b a) (book_exec is)
    simp only [Book.foldl_claim] at h
    exact h.trans (zero_add _)
  · obtain ⟨is₁, i, is₂, -, rfl⟩ := Machine.mem_trace.1 ht
    have hstep := (book_step (poolOK_exec is₁) i).1
    rw [posting_idle hidle] at hstep
    rw [Machine.step_pre]
    exact ⟨I128.ext_val (congrArg Book.pooled hstep),
      fun a => I128.ext_val (congrFun (congrArg Book.claim hstep) a)⟩

/-! ## Paying an advance out -/

/-- In a store of the invariant the checked subtractions of a withdrawal never fail and the
reentrancy guard is free: a withdrawal succeeds exactly when the contract is set up and running,
the payee authorized it, and the amount is positive, claimed and available. -/
theorem withdraw_isOk_iff {s : Store} (hs : PoolOK s) {env : Env} {payee : Address}
    {amount : I128} :
    (withdraw env s payee amount).isOk = true ↔
      (∃ cfg, s.ac.multisig = some cfg) ∧ AccessControl.isPaused s.ac = false ∧
      payee ∈ env.auths ∧ 0 < amount.val ∧
      amount.val ≤ (balanceInner s payee).val ∧ amount.val ≤ (availableInner s).val := by
  rw [isOk_iff]
  constructor
  · rintro ⟨s', h⟩
    obtain ⟨hm, hp, ha, hpos, -, hbal, hav, -⟩ := withdraw_eq_ok.1 h
    exact ⟨hm, hp, ha, hpos, hbal, hav⟩
  · rintro ⟨hm, hp, ha, hpos, hbal, hav⟩
    have hb := (balanceInner s payee).upper
    have hv := (availableInner s).upper
    exact ⟨_, withdraw_eq_ok.2 ⟨hm, hp, ha, hpos, hs.unlocked, hbal, hav,
      ⟨(balanceInner s payee).val - amount.val, by omega, by omega⟩, rfl,
      ⟨(availableInner s).val - amount.val, by omega, by omega⟩, rfl, rfl⟩⟩

/-- **When an advance is payable.** The recipient of an advance can withdraw it from the state the
funding leaves exactly when the advance is positive and the liquidity that was available before
the funding covers it twice, for the funding has already taken it once. -/
theorem advance_payable_iff {s s' : Store} (hs : pool.Reachable s) {env env' : Env}
    {caller recipient : Address} {invoiceId : UInt64} {faceValue advance : I128}
    (hfund : fundInvoice env s caller invoiceId faceValue recipient = .ok (advance, s'))
    (hauth : recipient ∈ env'.auths) :
    (withdraw env' s' recipient advance).isOk = true ↔
      10000 ≤ faceValue.val * (10000 - (discountBps s).toNat) ∧
      2 * (faceValue.val * (10000 - (discountBps s).toNat) / 10000) ≤
        (availableLiquidity s).val := by
  obtain ⟨is, rfl⟩ := hs
  have hok := poolOK_exec is
  have hcall : pool.invoke (env, .fundInvoice caller invoiceId faceValue recipient)
      (pool.exec pool.init is) = .ok (.int advance, s') := map_eq_ok.2 ⟨_, hfund, rfl⟩
  have hok' : PoolOK s' := hok.step hcall
  obtain ⟨hm, -, hp, hfv, -, -, hadv, -, v, hv, b, hb, hs'⟩ := fundInvoice_eq_ok.1 hfund
  obtain ⟨hfloor, -, -⟩ := advanceFor_bounds hok.discount hfv hadv
  have hbal : (balanceInner s' recipient).val =
      (balanceInner (pool.exec pool.init is) recipient).val + advance.val := by
    rw [hs', balanceInner]
    simpa using hb
  have hav : (availableInner s').val =
      (availableInner (pool.exec pool.init is)).val - advance.val := by
    rw [hs']
    exact hv
  have hclaim : 0 ≤ (balanceInner (pool.exec pool.init is) recipient).val :=
    hok.solvent.claim recipient
  have hac : s'.ac = (pool.exec pool.init is).ac := by rw [hs']
  rw [withdraw_isOk_iff hok', hac, hbal, hav, ← hfloor, availableLiquidity]
  constructor
  · rintro ⟨-, -, -, hpos, -, hle⟩
    exact ⟨by omega, by omega⟩
  · rintro ⟨hnum, htwice⟩
    exact ⟨hm, hp, hauth, by omega, by omega, by omega⟩

/-- A run that leaves a pool with a fresh price feed, a discount of ten percent and the liquidity
`amount`: address 1 is the admin, address 2 the liquidity provider. -/
def liquidityRun (amount : I128) : List (Env × Call) :=
  [(⟨10, 0, []⟩, .init [⟨1⟩] 1 34560 1000),
    (⟨10, 0, [⟨1⟩]⟩, .setPriceFeed ⟨1⟩ amount 10),
    (⟨10, 0, [⟨2⟩]⟩, .deposit ⟨2⟩ amount)]

/-- In a pool of 10000 an advance of 900 is payable. -/
theorem advance_payable_deep :
    ∃ advance s', fundInvoice ⟨10, 0, [⟨1⟩]⟩ (pool.exec pool.init (liquidityRun (.lit 10000)))
        ⟨1⟩ 1 (.lit 1000) ⟨3⟩ = .ok (advance, s') ∧ advance.val = 900 ∧
      (withdraw ⟨10, 0, [⟨3⟩]⟩ s' ⟨3⟩ advance).isOk = true := by
  have hfund : ∃ r, fundInvoice ⟨10, 0, [⟨1⟩]⟩
      (pool.exec pool.init (liquidityRun (.lit 10000))) ⟨1⟩ 1 (.lit 1000) ⟨3⟩ = .ok r ∧
      r.1.val = 900 := ⟨_, rfl, rfl⟩
  obtain ⟨⟨advance, s'⟩, h, hv⟩ := hfund
  have hauth : (⟨3⟩ : Address) ∈ (⟨10, 0, [⟨3⟩]⟩ : Env).auths := .head _
  exact ⟨advance, s', h, hv, (advance_payable_iff ⟨_, rfl⟩ h hauth).2 (by decide)⟩

/-- Without the condition an advance need not be payable: in a pool of 1000, of which 900 are
advanced to address 3, address 3 cannot withdraw the advance. -/
theorem advance_unpayable_shallow :
    ∃ advance s', fundInvoice ⟨10, 0, [⟨1⟩]⟩ (pool.exec pool.init (liquidityRun (.lit 1000)))
        ⟨1⟩ 1 (.lit 1000) ⟨3⟩ = .ok (advance, s') ∧ advance.val = 900 ∧
      withdraw ⟨10, 0, [⟨3⟩]⟩ s' ⟨3⟩ advance = .error (.error .insufficientLiquidity) :=
  ⟨_, _, rfl, rfl, rfl⟩

end Pool

end InvoiceFi
