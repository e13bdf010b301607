import InvoiceFi.Contracts.AccessControl
import InvoiceFi.Contracts.CheckedMath
import Mathlib.Logic.Function.Basic

/-!
# The financing pool (`contracts/financing-pool/src/lib.rs`)

Liquidity providers deposit, the pool advances discounted capital against invoices, and claims are
withdrawn. Balances are internal ledger claims; no external token moves. `Pool.Store` holds one
field per storage key (`DataKey`, `StorageKey` of `types.rs`, and the access-control keys as `ac`)
and the events published so far. Each entry point is a function of the store it finds, with the
source's checks and writes in the source's order, and has a `_eq_ok` lemma. `Pool.pool` is the
contract as a machine.

`DataKey::OracleDiscountConfig` is used by the source but missing from its `DataKey`; it is
modelled as the separate key it is used as.
-/

namespace InvoiceFi

namespace Pool

open AccessControl (AcError Role Op)
open CheckedMath

/-- `MAX_PRICE_AGE_LEDGERS`. -/
def maxPriceAgeLedgers : UInt32 := 100

/-- `BPS_DENOMINATOR`. -/
def bpsDenominator : I128 := .lit 10000

/-- `OracleDiscountConfig`. -/
structure OracleDiscountConfig where
  oracleContract : Option Address
  assetPair : Symbol
  minDiscountBps : UInt32
  maxDiscountBps : UInt32
  enabled : Bool
  deriving DecidableEq, Repr

/-- `Funding`. -/
structure Funding where
  invoiceId : UInt64
  faceValue : I128
  advance : I128
  recipient : Address
  deriving DecidableEq

/-- `TokenContract`. -/
inductive TokenContract where
  | xlm
  | usdc
  | aqua
  deriving DecidableEq, Repr

/-- `TokenContract::to_symbol`. -/
def TokenContract.toSymbol : TokenContract → Symbol
  | .xlm => "XLM"
  | .usdc => "USDC"
  | .aqua => "AQUA"

/-- The events the contract publishes. -/
inductive Event where
  | deposited (depositor : Address) (amount : I128)
  | withdrawn (payee : Address) (amount : I128)
  | funded (recipient : Address) (invoiceId : UInt64) (faceValue advance : I128)
  | tokenTransferIn (depositor token : Address) (amount : I128) (symbol : Symbol)
  | depositPendingToken (depositor : Address) (amount : I128)
  | tokenTransferOut (payee token : Address) (amount : I128) (symbol : Symbol)
  | withdrawPendingToken (payee : Address) (amount : I128)
  | tokenAddressSet (symbol : Symbol) (address : Address)
  | oracleConfigSet (oracle : Address) (enabled : Bool) (minBps maxBps : UInt32)
  deriving DecidableEq

/-- `Error`. -/
inductive Error where
  | alreadyInitialized
  | notInitialized
  | invalidAmount
  | invalidDiscount
  | insufficientBalance
  | insufficientLiquidity
  | alreadyFunded
  | fundingNotFound
  | reentrancyDetected
  | unauthorized
  | notASigner
  | invalidThreshold
  | duplicateSigner
  | invalidTimelock
  | contractPaused
  | alreadyPaused
  | notPaused
  | noPendingTransfer
  | alreadyConfirmed
  | thresholdNotMet
  | timelockNotElapsed
  | cannotGrantAdminRole
  | stalePriceFeed
  deriving DecidableEq, Repr

/-- `From<AcError> for Error`. -/
def Error.ofAcError : AcError → Error
  | .alreadyInitialized => .alreadyInitialized
  | .notInitialized => .notInitialized
  | .unauthorized => .unauthorized
  | .notASigner => .notASigner
  | .invalidThreshold => .invalidThreshold
  | .duplicateSigner => .duplicateSigner
  | .invalidTimelock => .invalidTimelock
  | .contractPaused => .contractPaused
  | .alreadyPaused => .alreadyPaused
  | .notPaused => .notPaused
  | .noPendingTransfer => .noPendingTransfer
  | .alreadyConfirmed => .alreadyConfirmed
  | .thresholdNotMet => .thresholdNotMet
  | .timelockNotElapsed => .timelockNotElapsed
  | .cannotGrantAdminRole => .cannotGrantAdminRole

/-- `From<CheckedMathError> for Error`. -/
def Error.ofCheckedMathError : CheckedMathError → Error
  | .overflow => .invalidAmount
  | .underflow => .invalidAmount
  | .divisionByZero => .invalidAmount

/-- `?` on an access-control result. -/
def liftAc {α : Type} (x : Result AcError α) : Result Error α :=
  x.mapError (Trap.map Error.ofAcError)

/-- `?` on a checked-arithmetic result. -/
def liftMath {α : Type} (x : Except CheckedMathError α) : Result Error α :=
  x.mapError fun e => .error (Error.ofCheckedMathError e)

/-- The contract's storage, one field per key, and the events published so far. -/
structure Store where
  ac : AccessControl.Store
  discountBps : Option UInt32
  available : Option I128
  balance : Address → Option I128
  funding : UInt64 → Option Funding
  priceFeed : Option (I128 × UInt32)
  oracleDiscountConfig : Option OracleDiscountConfig
  reentrancyGuard : Option ReentrancyGuard
  tokenAddress : Symbol → Option Address
  events : List Event

/-- Storage of a contract that has just been deployed. -/
def Store.empty : Store :=
  ⟨.empty, none, none, fun _ => none, fun _ => none, none, none, none, fun _ => none, []⟩

/-! ## Internals -/

/-- `balance_inner`. -/
def balanceInner (s : Store) (addr : Address) : I128 := (s.balance addr).getD .zero

/-- `set_balance`. -/
def setBalance (s : Store) (addr : Address) (amount : I128) : Store :=
  { s with balance := Function.update s.balance addr (some amount) }

/-- `available_inner`. -/
def availableInner (s : Store) : I128 := s.available.getD .zero

/-- `set_available`. -/
def setAvailable (s : Store) (amount : I128) : Store := { s with available := some amount }

/-- Writing the reentrancy guard. -/
def setGuard (s : Store) (g : ReentrancyGuard) : Store := { s with reentrancyGuard := some g }

/-- `env.events().publish`. -/
def publish (s : Store) (e : Event) : Store := { s with events := s.events ++ [e] }

/-- The event `deposit` publishes in place of the token transfer. -/
def transferInEvent (s : Store) (depositor : Address) (amount : I128) : Event :=
  match s.tokenAddress TokenContract.xlm.toSymbol with
  | some token => .tokenTransferIn depositor token amount TokenContract.xlm.toSymbol
  | none => .depositPendingToken depositor amount

/-- The event `withdraw` publishes in place of the token transfer. -/
def transferOutEvent (s : Store) (payee : Address) (amount : I128) : Event :=
  match s.tokenAddress TokenContract.xlm.toSymbol with
  | some token => .tokenTransferOut payee token amount TokenContract.xlm.toSymbol
  | none => .withdrawPendingToken payee amount

/-- `require_initialized`. -/
def requireInitialized (s : Store) : Result Error Unit := do
  let _ ← liftAc (AccessControl.multisig s.ac)
  pure ()

/-- The guard of `deposit` and `withdraw` against re-entry. -/
def requireUnlocked (s : Store) : Result Error Unit :=
  rejectIf (s.reentrancyGuard.getD .unlocked = .locked) (.error .reentrancyDetected)

/-- `advance_for`. -/
def advanceFor (s : Store) (faceValue : I128) : Except CheckedMathError I128 := do
  let discount ← checkedSub bpsDenominator (I128.ofUInt32 (s.discountBps.getD 0))
  let numer ← checkedMul faceValue discount
  checkedDiv numer bpsDenominator

/-- `require_fresh_price_feed`. -/
def requireFreshPriceFeed (env : Env) (s : Store) : Result Error Unit :=
  match s.priceFeed with
  | some (_, timestamp) =>
    rejectIf (maxPriceAgeLedgers.toNat < env.sequence.toNat - timestamp.toNat)
      (.error .stalePriceFeed)
  | none => .error (.error .stalePriceFeed)

/-! ## Entry points -/

/-- `initialize`. -/
def init (s : Store) (signers : List Address) (threshold timelock discountBps : UInt32) :
    Result Error Store := do
  rejectIf (bpsDenominator.val ≤ (I128.ofUInt32 discountBps).val) (.error .invalidDiscount)
  let ac ← liftAc (AccessControl.init s.ac signers threshold timelock)
  let s := { s with ac := ac, discountBps := some discountBps }
  let s := setAvailable s .zero
  pure (setGuard s .unlocked)

/-- `deposit`; the source's `from` is `depositor`. -/
def deposit (env : Env) (s : Store) (depositor : Address) (amount : I128) :
    Result Error Store := do
  requireInitialized s
  liftAc (AccessControl.requireNotPaused s.ac)
  requireAuth env depositor
  rejectIf (amount.val ≤ 0) (.error .invalidAmount)
  requireUnlocked s
  let balance ← liftMath (checkedAdd (balanceInner s depositor) amount)
  let s := setBalance s depositor balance
  let available ← liftMath (checkedAdd (availableInner s) amount)
  let s := setAvailable s available
  let s := setGuard s .locked
  let s := publish s (transferInEvent s depositor amount)
  let s := setGuard s .unlocked
  pure (publish s (.deposited depositor amount))

/-- `withdraw`; the source's `to` is `payee`. -/
def withdraw (env : Env) (s : Store) (payee : Address) (amount : I128) : Result Error Store := do
  requireInitialized s
  liftAc (AccessControl.requireNotPaused s.ac)
  requireAuth env payee
  rejectIf (amount.val ≤ 0) (.error .invalidAmount)
  requireUnlocked s
  let balance := balanceInner s payee
  rejectIf (balance.val < amount.val) (.error .insufficientBalance)
  let available := availableInner s
  rejectIf (available.val < amount.val) (.error .insufficientLiquidity)
  let newBalance ← liftMath (checkedSub balance amount)
  let s := setBalance s payee newBalance
  let newAvailable ← liftMath (checkedSub available amount)
  let s := setAvailable s newAvailable
  let s := setGuard s .locked
  let s := publish s (transferOutEvent s payee amount)
  let s := setGuard s .unlocked
  pure (publish s (.withdrawn payee amount))

/-- `fund_invoice`. -/
def fundInvoice (env : Env) (s : Store) (caller : Address) (invoiceId : UInt64)
    (faceValue : I128) (recipient : Address) : Result Error (I128 × Store) := do
  requireInitialized s
  liftAc (AccessControl.requireRole env s.ac .liquidityManager caller)
  liftAc (AccessControl.requireNotPaused s.ac)
  rejectIf (faceValue.val ≤ 0) (.error .invalidAmount)
  rejectIf ((s.funding invoiceId).isSome = true) (.error .alreadyFunded)
  requireFreshPriceFeed env s
  let advance ← liftMath (advanceFor s faceValue)
  let available := availableInner s
  rejectIf (available.val < advance.val) (.error .insufficientLiquidity)
  let newAvailable ← liftMath (checkedSub available advance)
  let s := setAvailable s newAvailable
  let recipientBalance ← liftMath (checkedAdd (balanceInner s recipient) advance)
  let s := setBalance s recipient recipientBalance
  let s := { s with
    funding := Function.update s.funding invoiceId
      (some ⟨invoiceId, faceValue, advance, recipient⟩) }
  pure (advance, publish s (.funded recipient invoiceId faceValue advance))

/-- `set_token_address`. -/
def setTokenAddress (env : Env) (s : Store) (caller : Address) (token : TokenContract)
    (address : Address) : Result Error Store := do
  requireInitialized s
  liftAc (AccessControl.requireAdmin env s.ac caller)
  let s := { s with
    tokenAddress := Function.update s.tokenAddress token.toSymbol (some address) }
  pure (publish s (.tokenAddressSet token.toSymbol address))

/-- The contract address of the all-zero id, published for an unset oracle. -/
def zeroContract : Address := ⟨0⟩

/-- `set_oracle_discount_config`. -/
def setOracleDiscountConfig (env : Env) (s : Store) (caller : Address)
    (config : OracleDiscountConfig) : Result Error Store := do
  requireInitialized s
  liftAc (AccessControl.requireAdmin env s.ac caller)
  rejectIf (config.maxDiscountBps ≤ config.minDiscountBps) (.error .invalidDiscount)
  rejectIf (10000 ≤ config.maxDiscountBps) (.error .invalidDiscount)
  let s := { s with oracleDiscountConfig := some config }
  pure (publish s (.oracleConfigSet (config.oracleContract.getD zeroContract) config.enabled
    config.minDiscountBps config.maxDiscountBps))

/-- `set_price_feed`. -/
def setPriceFeed (env : Env) (s : Store) (caller : Address) (price : I128) (timestamp : UInt32) :
    Result Error Store := do
  requireInitialized s
  liftAc (AccessControl.requireAdmin env s.ac caller)
  pure { s with priceFeed := some (price, timestamp) }

/-- The role, pause and admin-transfer entry points. -/
def access (env : Env) (s : Store) (o : Op) : Result Error Store := do
  let ac ← liftAc (AccessControl.apply env s.ac o)
  pure { s with ac := ac }

/-! ## Views -/

/-- `quote`. -/
def quote (s : Store) (faceValue : I128) : Result Error I128 := do
  rejectIf (faceValue.val ≤ 0) (.error .invalidAmount)
  liftMath (advanceFor s faceValue)

/-- `discount_amount`. -/
def discountAmount (s : Store) (faceValue : I128) : Result Error I128 := do
  rejectIf (faceValue.val ≤ 0) (.error .invalidAmount)
  let advance ← liftMath (advanceFor s faceValue)
  liftMath (checkedSub faceValue advance)

/-- `balance_of`. -/
def balanceOf (s : Store) (addr : Address) : I128 := balanceInner s addr

/-- `available_liquidity`. -/
def availableLiquidity (s : Store) : I128 := availableInner s

/-- `discount_bps`. -/
def discountBps (s : Store) : UInt32 := s.discountBps.getD 0

/-! ## The contract -/

/-- A call of the contract. The views change nothing and are functions of the store. -/
inductive Call where
  | init (signers : List Address) (threshold timelock discountBps : UInt32)
  | deposit (depositor : Address) (amount : I128)
  | withdraw (payee : Address) (amount : I128)
  | fundInvoice (caller : Address) (invoiceId : UInt64) (faceValue : I128) (recipient : Address)
  | setTokenAddress (caller : Address) (token : TokenContract) (address : Address)
  | setOracleDiscountConfig (caller : Address) (config : OracleDiscountConfig)
  | setPriceFeed (caller : Address) (price : I128) (timestamp : UInt32)
  | access (o : Op)

/-- What a call returns. -/
inductive Value where
  | unit
  | int (v : I128)
  deriving DecidableEq

/-- The contract as a machine. -/
def pool : Machine Store (Env × Call) (Trap Error) Value where
  init := .empty
  invoke i s :=
    match i.2 with
    | .init signers threshold timelock bps =>
      (.unit, ·) <$> init s signers threshold timelock bps
    | .deposit depositor amount => (.unit, ·) <$> deposit i.1 s depositor amount
    | .withdraw payee amount => (.unit, ·) <$> withdraw i.1 s payee amount
    | .fundInvoice caller invoiceId faceValue recipient =>
      (fun r => (.int r.1, r.2)) <$> fundInvoice i.1 s caller invoiceId faceValue recipient
    | .setTokenAddress caller token address =>
      (.unit, ·) <$> setTokenAddress i.1 s caller token address
    | .setOracleDiscountConfig caller config =>
      (.unit, ·) <$> setOracleDiscountConfig i.1 s caller config
    | .setPriceFeed caller price timestamp =>
      (.unit, ·) <$> setPriceFeed i.1 s caller price timestamp
    | .access o => (.unit, ·) <$> access i.1 s o

/-- A step of the contract's history. -/
abbrev PoolStep := Step Store (Env × Call) (Trap Error) Value

/-! ## What each function does when it succeeds -/

section
variable {env : Env} {s s' : Store} {caller : Address}

@[simp] theorem liftAc_eq_ok {α : Type} {x : Result AcError α} {a : α} :
    liftAc x = .ok a ↔ x = .ok a := mapError_eq_ok

@[simp] theorem liftMath_eq_ok {α : Type} {x : Except CheckedMathError α} {a : α} :
    liftMath x = .ok a ↔ x = .ok a := mapError_eq_ok

@[simp] theorem requireInitialized_eq_ok {u : Unit} :
    requireInitialized s = .ok u ↔ ∃ cfg, s.ac.multisig = some cfg := by
  simp [requireInitialized, AccessControl.multisig]

@[simp] theorem requireUnlocked_eq_ok {u : Unit} :
    requireUnlocked s = .ok u ↔ s.reentrancyGuard ≠ some .locked := by
  simp only [requireUnlocked, rejectIf_eq_ok]
  cases s.reentrancyGuard <;> simp

@[simp] theorem requireFreshPriceFeed_eq_ok {u : Unit} :
    requireFreshPriceFeed env s = .ok u ↔ ∃ price timestamp,
      s.priceFeed = some (price, timestamp) ∧
      env.sequence.toNat - timestamp.toNat ≤ maxPriceAgeLedgers.toNat := by
  unfold requireFreshPriceFeed
  cases s.priceFeed with
  | none => simp
  | some feed => obtain ⟨price, timestamp⟩ := feed; simp

/-- The advance is the truncated discounted face value, where the product is in range. -/
theorem advanceFor_eq_ok {faceValue a : I128} :
    advanceFor s faceValue = .ok a ↔
      (∃ numer : I128, numer.val = faceValue.val * (10000 - (discountBps s).toNat)) ∧
      a.val = (faceValue.val * (10000 - (discountBps s).toNat)).tdiv 10000 := by
  simp only [advanceFor, bind_eq_ok, checkedSub_eq_ok, checkedMul_eq_ok, checkedDiv_eq_ok,
    I128.ofUInt32_val]
  constructor
  · rintro ⟨d, hd, n, hn, -, ha⟩
    rw [hd] at hn
    exact ⟨⟨n, hn⟩, by rw [ha, hn]; rfl⟩
  · rintro ⟨⟨n, hn⟩, ha⟩
    have hlt := (discountBps s).toNat_lt
    refine ⟨⟨10000 - (discountBps s).toNat, by omega, by omega⟩, rfl, n, hn, by decide, ?_⟩
    rw [ha, hn]; rfl

theorem init_eq_ok {signers : List Address} {threshold timelock bps : UInt32} :
    init s signers threshold timelock bps = .ok s' ↔
      bps.toNat < 10000 ∧ ∃ ac, AccessControl.init s.ac signers threshold timelock = .ok ac ∧
      s' = { s with ac := ac, discountBps := some bps, available := some .zero,
                    reentrancyGuard := some .unlocked } := by
  have hb : ¬ (bpsDenominator.val ≤ (I128.ofUInt32 bps).val) ↔ bps.toNat < 10000 := by
    simp only [bpsDenominator, I128.lit, I128.ofUInt32_val]; omega
  simp only [init, bind_eq_ok, rejectIf_eq_ok, liftAc_eq_ok, pure_eq_ok, exists_const, hb]
  rfl

theorem deposit_eq_ok {depositor : Address} {amount : I128} :
    deposit env s depositor amount = .ok s' ↔
      (∃ cfg, s.ac.multisig = some cfg) ∧ AccessControl.isPaused s.ac = false ∧
      depositor ∈ env.auths ∧ 0 < amount.val ∧ s.reentrancyGuard ≠ some .locked ∧
      ∃ b : I128, b.val = (balanceInner s depositor).val + amount.val ∧
      ∃ v : I128, v.val = (availableInner s).val + amount.val ∧
      s' = { s with
        balance := Function.update s.balance depositor (some b)
        available := some v
        reentrancyGuard := some .unlocked
        events := s.events ++ [transferInEvent s depositor amount,
          .deposited depositor amount] } := by
  simp only [deposit, bind_eq_ok, requireInitialized_eq_ok, liftAc_eq_ok,
    AccessControl.requireNotPaused_eq_ok, requireAuth_eq_ok, rejectIf_eq_ok,
    requireUnlocked_eq_ok, liftMath_eq_ok, checkedAdd_eq_ok, pure_eq_ok, exists_const,
    Int.not_le]
  simp [setBalance, setAvailable, setGuard, publish, availableInner, transferInEvent]

theorem withdraw_eq_ok {payee : Address} {amount : I128} :
    withdraw env s payee amount = .ok s' ↔
      (∃ cfg, s.ac.multisig = some cfg) ∧ AccessControl.isPaused s.ac = false ∧
      payee ∈ env.auths ∧ 0 < amount.val ∧ s.reentrancyGuard ≠ some .locked ∧
      amount.val ≤ (balanceInner s payee).val ∧ amount.val ≤ (availableInner s).val ∧
      ∃ b : I128, b.val = (balanceInner s payee).val - amount.val ∧
      ∃ v : I128, v.val = (availableInner s).val - amount.val ∧
      s' = { s with
        balance := Function.update s.balance payee (some b)
        available := some v
        reentrancyGuard := some .unlocked
        events := s.events ++ [transferOutEvent s payee amount, .withdrawn payee amount] } := by
  simp only [withdraw, bind_eq_ok, requireInitialized_eq_ok, liftAc_eq_ok,
    AccessControl.requireNotPaused_eq_ok, requireAuth_eq_ok, rejectIf_eq_ok,
    requireUnlocked_eq_ok, liftMath_eq_ok, checkedSub_eq_ok, pure_eq_ok, exists_const,
    Int.not_le, Int.not_lt]
  simp [setBalance, setAvailable, setGuard, publish, transferOutEvent]

theorem fundInvoice_eq_ok {invoiceId : UInt64} {faceValue advance : I128}
    {recipient : Address} :
    fundInvoice env s caller invoiceId faceValue recipient = .ok (advance, s') ↔
      (∃ cfg, s.ac.multisig = some cfg) ∧
      (caller ∈ env.auths ∧ (AccessControl.isSigner s.ac caller = true ∨
        AccessControl.hasRole s.ac .liquidityManager caller = true)) ∧
      AccessControl.isPaused s.ac = false ∧ 0 < faceValue.val ∧ s.funding invoiceId = none ∧
      (∃ price timestamp, s.priceFeed = some (price, timestamp) ∧
        env.sequence.toNat - timestamp.toNat ≤ maxPriceAgeLedgers.toNat) ∧
      advanceFor s faceValue = .ok advance ∧
      advance.val ≤ (availableInner s).val ∧
      ∃ v : I128, v.val = (availableInner s).val - advance.val ∧
      ∃ b : I128, b.val = (balanceInner s recipient).val + advance.val ∧
      s' = { s with
        available := some v
        balance := Function.update s.balance recipient (some b)
        funding := Function.update s.funding invoiceId
          (some ⟨invoiceId, faceValue, advance, recipient⟩)
        events := s.events ++ [.funded recipient invoiceId faceValue advance] } := by
  simp only [fundInvoice, bind_eq_ok, requireInitialized_eq_ok, liftAc_eq_ok,
    AccessControl.requireRole_eq_ok, AccessControl.requireNotPaused_eq_ok, rejectIf_eq_ok,
    requireFreshPriceFeed_eq_ok, liftMath_eq_ok, checkedSub_eq_ok, checkedAdd_eq_ok, pure_eq_ok,
    exists_const, Int.not_le, Int.not_lt, Bool.not_eq_true, Option.isSome_eq_false_iff,
    Option.isNone_iff_eq_none, Prod.mk.injEq]
  constructor
  · rintro ⟨h1, h2, h3, h4, h5, h6, a, h7, h8, v, hv, b, hb, rfl, rfl⟩
    exact ⟨h1, h2, h3, h4, h5, h6, h7, h8, v, hv, b, hb, rfl⟩
  · rintro ⟨h1, h2, h3, h4, h5, h6, h7, h8, v, hv, b, hb, rfl⟩
    exact ⟨h1, h2, h3, h4, h5, h6, advance, h7, h8, v, hv, b, hb, rfl, rfl⟩

theorem setTokenAddress_eq_ok {token : TokenContract} {address : Address} :
    setTokenAddress env s caller token address = .ok s' ↔
      (∃ cfg, s.ac.multisig = some cfg) ∧
      (caller ∈ env.auths ∧ AccessControl.isSigner s.ac caller = true) ∧
      s' = { s with
        tokenAddress := Function.update s.tokenAddress token.toSymbol (some address)
        events := s.events ++ [.tokenAddressSet token.toSymbol address] } := by
  simp [setTokenAddress, publish]

theorem setOracleDiscountConfig_eq_ok {config : OracleDiscountConfig} :
    setOracleDiscountConfig env s caller config = .ok s' ↔
      (∃ cfg, s.ac.multisig = some cfg) ∧
      (caller ∈ env.auths ∧ AccessControl.isSigner s.ac caller = true) ∧
      config.minDiscountBps < config.maxDiscountBps ∧ config.maxDiscountBps < 10000 ∧
      s' = { s with
        oracleDiscountConfig := some config
        events := s.events ++ [.oracleConfigSet (config.oracleContract.getD zeroContract)
          config.enabled config.minDiscountBps config.maxDiscountBps] } := by
  simp [setOracleDiscountConfig, publish]

theorem setPriceFeed_eq_ok {price : I128} {timestamp : UInt32} :
    setPriceFeed env s caller price timestamp = .ok s' ↔
      (∃ cfg, s.ac.multisig = some cfg) ∧
      (caller ∈ env.auths ∧ AccessControl.isSigner s.ac caller = true) ∧
      s' = { s with priceFeed := some (price, timestamp) } := by
  simp [setPriceFeed]

theorem access_eq_ok {o : Op} :
    access env s o = .ok s' ↔
      ∃ ac, AccessControl.apply env s.ac o = .ok ac ∧ s' = { s with ac := ac } := by
  simp [access]

end

/-! ## The embedded access control -/

/-- The access-control call that a call of the contract forwards. -/
def Call.forwards : Call → Option AccessControl.Call
  | .init signers threshold timelock _ => some (.init signers threshold timelock)
  | .access o => some (.op o)
  | _ => none

/-- The contract embeds the access-control library. -/
def embedding : Machine.Embedding pool AccessControl.harness where
  part := Store.ac
  forward i := (Call.forwards i.2).map (i.1, ·)
  init := rfl
  forwarded := by
    rintro ⟨env, c⟩ k s r s' hi hf
    cases c with
    | init sg th tl bps =>
      cases hf
      obtain ⟨_, h, heq⟩ := map_eq_ok.1 hi
      cases heq
      obtain ⟨-, ac, hac, rfl⟩ := init_eq_ok.1 h
      exact ⟨(), AccessControl.harness_invoke_eq_ok.2 (.inl ⟨sg, th, tl, rfl, hac⟩)⟩
    | access o =>
      cases hf
      obtain ⟨_, h, heq⟩ := map_eq_ok.1 hi
      cases heq
      obtain ⟨ac, hac, rfl⟩ := access_eq_ok.1 h
      exact ⟨(), AccessControl.harness_invoke_eq_ok.2 (.inr ⟨o, rfl, hac⟩)⟩
    | _ => cases hf
  kept := by
    rintro ⟨env, c⟩ s r s' hi hf
    cases c with
    | init sg th tl bps => cases hf
    | deposit d amount =>
      obtain ⟨_, h, heq⟩ := map_eq_ok.1 hi
      cases heq
      obtain ⟨-, -, -, -, -, b, -, v, -, rfl⟩ := deposit_eq_ok.1 h
      rfl
    | withdraw p amount =>
      obtain ⟨_, h, heq⟩ := map_eq_ok.1 hi
      cases heq
      obtain ⟨-, -, -, -, -, -, -, b, -, v, -, rfl⟩ := withdraw_eq_ok.1 h
      rfl
    | fundInvoice c n fv p =>
      obtain ⟨⟨adv, s₁⟩, h, heq⟩ := map_eq_ok.1 hi
      cases heq
      obtain ⟨-, -, -, -, -, -, -, -, v, -, b, -, rfl⟩ := fundInvoice_eq_ok.1 h
      rfl
    | setTokenAddress c token address =>
      obtain ⟨_, h, heq⟩ := map_eq_ok.1 hi
      cases heq
      obtain ⟨-, -, rfl⟩ := setTokenAddress_eq_ok.1 h
      rfl
    | setOracleDiscountConfig c config =>
      obtain ⟨_, h, heq⟩ := map_eq_ok.1 hi
      cases heq
      obtain ⟨-, -, -, -, rfl⟩ := setOracleDiscountConfig_eq_ok.1 h
      rfl
    | setPriceFeed c price timestamp =>
      obtain ⟨_, h, heq⟩ := map_eq_ok.1 hi
      cases heq
      obtain ⟨-, -, rfl⟩ := setPriceFeed_eq_ok.1 h
      rfl
    | access o => cases hf

end Pool

end InvoiceFi
