import InvoiceFi.Contracts.Pool.Ledger
import InvoiceFi.Lib.Journal

/-!
# What the pool's events tell

An indexer sees the events of the pool and not its storage. `View` is what it can know of the
storage, `record` how it reads one event, and `journal` the proof that the two agree along every
run: the un-deployed liquidity, the balance of every address, the funding of every invoice, the
registered token addresses and the published part of the oracle configuration are those that the
events tell (`pool_replayed`), from the start or from any point at which the indexer was in step.

The events do not tell the rest: the discount, the price feed and all of the access control change
without an event, and the published oracle configuration leaves out its asset pair.
-/

namespace InvoiceFi

namespace Pool

open AccessControl (Op)

/-- What the events tell of an oracle configuration: its contract, whether it is enabled, and the
bounds of the discount. -/
def OracleDiscountConfig.published (c : OracleDiscountConfig) : Address × Bool × UInt32 × UInt32 :=
  (c.oracleContract.getD zeroContract, c.enabled, c.minDiscountBps, c.maxDiscountBps)

/-- What the events tell of the storage. -/
structure View where
  book : Book Address ℤ
  funding : UInt64 → Option Funding
  tokenAddress : Symbol → Option Address
  oracleDiscount : Option (Address × Bool × UInt32 × UInt32)

/-- The view of a store. -/
def view (s : Store) : View :=
  ⟨book s, s.funding, s.tokenAddress, s.oracleDiscountConfig.map OracleDiscountConfig.published⟩

/-- What reading one event does to a view. The events that stand in for token transfers repeat the
ones beside them. -/
def record (v : View) : Event → View
  | .deposited depositor amount => { v with book := v.book.post (.deposit depositor amount.val) }
  | .withdrawn payee amount => { v with book := v.book.post (.withdraw payee amount.val) }
  | .funded recipient invoiceId faceValue advance =>
    { v with
      book := v.book.post (.advance recipient advance.val)
      funding := Function.update v.funding invoiceId
        (some ⟨invoiceId, faceValue, advance, recipient⟩) }
  | .tokenAddressSet symbol address =>
    { v with tokenAddress := Function.update v.tokenAddress symbol (some address) }
  | .oracleConfigSet oracle enabled minBps maxBps =>
    { v with oracleDiscount := some (oracle, enabled, minBps, maxBps) }
  | .tokenTransferIn _ _ _ _ | .depositPendingToken _ _ | .tokenTransferOut _ _ _ _
  | .withdrawPendingToken _ _ => v

theorem record_transferInEvent (s : Store) (depositor : Address) (amount : I128) (v : View) :
    record v (transferInEvent s depositor amount) = v := by
  unfold transferInEvent
  split <;> rfl

theorem record_transferOutEvent (s : Store) (payee : Address) (amount : I128) (v : View) :
    record v (transferOutEvent s payee amount) = v := by
  unfold transferOutEvent
  split <;> rfl

/-- The events a successful call publishes tell what it does to the view. -/
theorem written {i : Env × Call} {s s' : Store} {r : Value} (hs : PoolOK s)
    (h : pool.invoke i s = .ok (r, s')) :
    ∃ es, s'.events = s.events ++ es ∧ view s' = es.foldl record (view s) := by
  obtain ⟨env, c⟩ := i
  cases c with
  | init sg th tl bps =>
    obtain ⟨_, h, heq⟩ := map_eq_ok.1 h
    cases heq
    obtain ⟨-, ac, hac, rfl⟩ := init_eq_ok.1 h
    obtain ⟨hm, -⟩ := AccessControl.init_eq_ok.1 hac
    -- the setup publishes nothing, and the liquidity it resets to zero was zero
    refine ⟨[], (List.append_nil _).symm, ?_⟩
    simp [view, book, availableInner, balanceInner, hs.unset hm]
  | deposit d amount =>
    obtain ⟨_, h, heq⟩ := map_eq_ok.1 h
    cases heq
    have hbook := (book_deposit h).1
    obtain ⟨-, -, -, -, -, b, -, v, -, rfl⟩ := deposit_eq_ok.1 h
    refine ⟨_, rfl, ?_⟩
    rw [List.foldl_cons, record_transferInEvent, List.foldl_cons, List.foldl_nil, record]
    simp only [view, hbook]
  | withdraw p amount =>
    obtain ⟨_, h, heq⟩ := map_eq_ok.1 h
    cases heq
    have hbook := (book_withdraw h).1
    obtain ⟨-, -, -, -, -, -, -, b, -, v, -, rfl⟩ := withdraw_eq_ok.1 h
    refine ⟨_, rfl, ?_⟩
    rw [List.foldl_cons, record_transferOutEvent, List.foldl_cons, List.foldl_nil, record]
    simp only [view, hbook]
  | fundInvoice c n fv p =>
    obtain ⟨⟨adv, s₁⟩, hfund, heq⟩ := map_eq_ok.1 h
    cases heq
    have hbook := (book_fundInvoice hfund).1
    obtain ⟨-, -, -, -, -, -, -, -, v, -, b, -, rfl⟩ := fundInvoice_eq_ok.1 hfund
    refine ⟨_, rfl, ?_⟩
    rw [List.foldl_cons, List.foldl_nil, record]
    simp only [view, hbook]
  | setTokenAddress c token address =>
    obtain ⟨_, h, heq⟩ := map_eq_ok.1 h
    cases heq
    obtain ⟨-, -, rfl⟩ := setTokenAddress_eq_ok.1 h
    exact ⟨_, rfl, rfl⟩
  | setOracleDiscountConfig c config =>
    obtain ⟨_, h, heq⟩ := map_eq_ok.1 h
    cases heq
    obtain ⟨-, -, -, -, rfl⟩ := setOracleDiscountConfig_eq_ok.1 h
    exact ⟨_, rfl, rfl⟩
  | setPriceFeed c price timestamp =>
    obtain ⟨_, h, heq⟩ := map_eq_ok.1 h
    cases heq
    obtain ⟨-, -, rfl⟩ := setPriceFeed_eq_ok.1 h
    exact ⟨[], (List.append_nil _).symm, rfl⟩
  | access o =>
    obtain ⟨_, h, heq⟩ := map_eq_ok.1 h
    cases heq
    obtain ⟨ac, -, rfl⟩ := access_eq_ok.1 h
    exact ⟨[], (List.append_nil _).symm, rfl⟩

/-- The pool keeps a journal of its funds. -/
def journal : Journal pool Event View where
  events := Store.events
  view := view
  record := record
  Inv := PoolOK
  start := .empty
  kept := PoolOK.step
  fresh := rfl
  written := written

/-- **The events of the pool tell its funds.** Reading all events of a run gives the liquidity, the
balances, the fundings, the token addresses and the published oracle configuration of the state it
reaches; events are only ever added; and a reader in step with any state of a run catches up with
any later one by the events between the two. -/
theorem pool_replayed (is₁ is₂ : List (Env × Call)) :
    view (pool.exec pool.init is₁) =
        (pool.exec pool.init is₁).events.foldl record (view pool.init) ∧
      (pool.exec pool.init is₁).events <+: (pool.exec pool.init (is₁ ++ is₂)).events ∧
      view (pool.exec pool.init (is₁ ++ is₂)) =
        ((pool.exec pool.init (is₁ ++ is₂)).events.drop
          (pool.exec pool.init is₁).events.length).foldl record
          (view (pool.exec pool.init is₁)) :=
  ⟨journal.view_exec is₁, journal.prefix_events is₁ is₂, journal.view_append is₁ is₂⟩

end Pool

end InvoiceFi
