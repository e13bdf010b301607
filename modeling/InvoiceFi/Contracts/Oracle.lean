import InvoiceFi.Contracts.Host
import InvoiceFi.Lib.BubbleSort
import InvoiceFi.Lib.Machine
import Mathlib.Logic.Function.Basic

/-!
# The oracle aggregator (`contracts/oracle/src/lib.rs`)

An admin configures asset pairs and authorizes submitters for them, the submitters submit prices,
and `get_price` aggregates: it collects the prices of the authorized submitters, checks the age of
the newest, sorts them, takes the median, drops the prices outside a tolerance band around it and
returns the median of the rest. `Oracle.Store` holds one field per storage key and the events
published so far. `Oracle.oracle` is the contract as a machine; `get_price` writes nothing and is
a view of the store and the ledger.

The contract is built with overflow checks, so its plain arithmetic, its indexing and its writes
into a vector trap where they leave the range (`Trap.panic`). The sort is the source's loop, step
by step, and `sortPrices_eq` says that it is `bubbleSort` and never traps.

The event `PriceUpdated` is never published and is left out.
-/

namespace InvoiceFi

namespace Oracle

/-! ## Data (`lib.rs`, `types.rs`) -/

/-- `Error`. -/
inductive Error where
  | alreadyInitialized
  | notInitialized
  | unauthorized
  | invalidPrice
  | noSubmissions
  | stalePrice
  | invalidTolerance
  | invalidStaleness
  | duplicateSubmitter
  | submitterNotFound
  | assetPairNotFound
  | insufficientSubmissions
  deriving DecidableEq, Repr

/-- `OracleConfig`. -/
structure OracleConfig where
  assetPair : Symbol
  toleranceBps : UInt32
  stalenessLedgers : UInt32
  authorizedSubmitters : List Address
  deriving DecidableEq, Repr

/-- `PriceSubmission`. -/
structure PriceSubmission where
  submitter : Address
  assetPair : Symbol
  price : I128
  ledger : UInt64
  deriving DecidableEq

/-- The events the contract publishes. -/
inductive Event where
  | configUpdated (assetPair : Symbol) (toleranceBps stalenessLedgers : UInt32)
  | submitterAuthorized (submitter : Address)
  | submitterRevoked (submitter : Address)
  deriving DecidableEq, Repr

/-- The contract's storage, one field per key, and the events published so far. -/
structure Store where
  admin : Option Address
  assetConfig : Symbol → Option OracleConfig
  submission : Symbol × Address → Option PriceSubmission
  events : List Event

/-- Storage of a contract that has just been deployed. -/
def Store.empty : Store := ⟨none, fun _ => none, fun _ => none, []⟩

/-- `publish`. -/
def publish (s : Store) (e : Event) : Store := { s with events := s.events ++ [e] }

/-- Writing a configuration. -/
def setConfig (s : Store) (assetPair : Symbol) (config : OracleConfig) : Store :=
  { s with assetConfig := Function.update s.assetConfig assetPair (some config) }

/-! ## Entry points -/

/-- `initialize` (a reserved word of Lean). -/
def init (env : Env) (s : Store) (admin : Address) : Result Error Store := do
  rejectIf (s.admin.isSome = true) (.error .alreadyInitialized)
  requireAuth env admin
  pure { s with admin := some admin }

/-- `require_admin`. -/
def requireAdmin (env : Env) (s : Store) (caller : Address) : Result Error Unit := do
  let admin ← okOr s.admin (.error .notInitialized)
  rejectIf (caller ≠ admin) (.error .unauthorized)
  requireAuth env caller

/-- `get_config`, which the other entry points read as well. -/
def getConfig (s : Store) (assetPair : Symbol) : Result Error OracleConfig :=
  okOr (s.assetConfig assetPair) (.error .assetPairNotFound)

/-- `configure_asset_pair`. -/
def configureAssetPair (env : Env) (s : Store) (caller : Address) (assetPair : Symbol)
    (toleranceBps stalenessLedgers : UInt32) : Result Error Store := do
  requireAdmin env s caller
  rejectIf (10000 < toleranceBps.toNat) (.error .invalidTolerance)
  rejectIf (stalenessLedgers = 0) (.error .invalidStaleness)
  let config := ⟨assetPair, toleranceBps, stalenessLedgers, []⟩
  let s := setConfig s assetPair config
  pure (publish s (.configUpdated assetPair toleranceBps stalenessLedgers))

/-- `authorize_submitter`. -/
def authorizeSubmitter (env : Env) (s : Store) (caller : Address) (assetPair : Symbol)
    (submitter : Address) : Result Error Store := do
  requireAdmin env s caller
  let config ← getConfig s assetPair
  rejectIf (submitter ∈ config.authorizedSubmitters) (.error .duplicateSubmitter)
  let config :=
    { config with authorizedSubmitters := config.authorizedSubmitters ++ [submitter] }
  let s := setConfig s assetPair config
  pure (publish s (.submitterAuthorized submitter))

/-- `revoke_submitter`. -/
def revokeSubmitter (env : Env) (s : Store) (caller : Address) (assetPair : Symbol)
    (submitter : Address) : Result Error Store := do
  requireAdmin env s caller
  let config ← getConfig s assetPair
  let newSubmitters := config.authorizedSubmitters.filter (· ≠ submitter)
  rejectIf (submitter ∉ config.authorizedSubmitters) (.error .submitterNotFound)
  let config := { config with authorizedSubmitters := newSubmitters }
  let s := setConfig s assetPair config
  pure (publish s (.submitterRevoked submitter))

/-- `submit_price`. -/
def submitPrice (env : Env) (s : Store) (submitter : Address) (assetPair : Symbol)
    (price : I128) : Result Error Store := do
  requireAuth env submitter
  rejectIf (price.val ≤ 0) (.error .invalidPrice)
  let config ← getConfig s assetPair
  rejectIf (submitter ∉ config.authorizedSubmitters) (.error .unauthorized)
  let ledger := env.sequence.toUInt64
  let submission := ⟨submitter, assetPair, price, ledger⟩
  pure { s with
    submission := Function.update s.submission (assetPair, submitter) (some submission) }

/-! ## The aggregation (`get_price`) -/

/-- `Vec::get_unchecked`. -/
def getUnchecked (v : List I128) (i : ℕ) : Result Error I128 :=
  okOr v[i]? (.panic "index out of bounds")

/-- `Vec::set`. -/
def setEntry (v : List I128) (i : ℕ) (x : I128) : Result Error (List I128) := do
  rejectIf (v.length ≤ i) (.panic "index out of bounds")
  pure (v.set i x)

/-- A subtraction of lengths and positions. -/
def subLen (a b : ℕ) : Result Error ℕ := do
  rejectIf (a < b) (.panic "attempt to subtract with overflow")
  pure (a - b)

/-- A subtraction of ledgers. -/
def subLedger (a b : UInt64) : Result Error UInt64 := do
  rejectIf (a < b) (.panic "attempt to subtract with overflow")
  pure (a - b)

/-- The prices of the authorized submitters, in their order, and the newest of their ledgers. -/
def collect (s : Store) (assetPair : Symbol) (submitters : List Address) : List I128 × UInt64 :=
  submitters.foldl
    (fun (prices, latestLedger) submitter =>
      match s.submission (assetPair, submitter) with
      | some submission =>
        if 0 < submission.price.val then
          (prices ++ [submission.price],
            if latestLedger < submission.ledger then submission.ledger else latestLedger)
        else (prices, latestLedger)
      | none => (prices, latestLedger))
    ([], 0)

/-- The body of the inner loop of the sort. -/
def sortStep (v : List I128) (j : ℕ) : Result Error (List I128) := do
  let a ← getUnchecked v j
  let b ← getUnchecked v (j + 1)
  if b < a then do
    let v ← setEntry v j b
    setEntry v (j + 1) a
  else pure v

/-- The body of the outer loop of the sort. -/
def sortPass (v : List I128) (i : ℕ) : Result Error (List I128) := do
  let last ← subLen v.length 1
  let bound ← subLen last i
  (List.range bound).foldlM sortStep v

/-- The sort. -/
def sortPrices (prices : List I128) : Result Error (List I128) :=
  (List.range prices.length).foldlM sortPass prices

/-- The tolerance band around the median: its bounds. -/
def toleranceBand (medianPrice : I128) (toleranceBps : UInt32) : Result Error (I128 × I128) := do
  let scaled ← okOr (medianPrice.checkedMul (.ofUInt32 toleranceBps))
    (.panic "attempt to multiply with overflow")
  let tolerance ← okOr (scaled.checkedDiv (.lit 10000)) (.panic "attempt to divide with overflow")
  let lowerBound ← okOr (medianPrice.checkedSub tolerance)
    (.panic "attempt to subtract with overflow")
  let upperBound ← okOr (medianPrice.checkedAdd tolerance)
    (.panic "attempt to add with overflow")
  pure (lowerBound, upperBound)

/-- The two medians: `get_price` from the sort on. -/
def aggregate (toleranceBps : UInt32) (prices : List I128) : Result Error (Option I128) := do
  let sortedPrices ← sortPrices prices
  let medianPrice ← getUnchecked sortedPrices (sortedPrices.length / 2)
  let (lowerBound, upperBound) ← toleranceBand medianPrice toleranceBps
  let filteredPrices := sortedPrices.filter fun p => lowerBound ≤ p ∧ p ≤ upperBound
  if filteredPrices.length < 2 then pure none else do
  let finalMedian ← getUnchecked filteredPrices (filteredPrices.length / 2)
  pure (some finalMedian)

/-- `get_price`. -/
def getPrice (env : Env) (s : Store) (assetPair : Symbol) :
    Result Error (Option (I128 × UInt64)) := do
  let config ← getConfig s assetPair
  let (prices, latestLedger) := collect s assetPair config.authorizedSubmitters
  if prices.length < 2 then pure none else do
  let currentLedger := env.sequence.toUInt64
  let age ← subLedger currentLedger latestLedger
  if config.stalenessLedgers.toUInt64 < age then pure none else do
  let finalMedian ← aggregate config.toleranceBps prices
  pure (finalMedian.map (·, latestLedger))

/-- `admin`. -/
def admin (s : Store) : Result Error Address := okOr s.admin (.error .notInitialized)

/-! ## The contract as a machine -/

/-- The calls that write the storage. -/
inductive Call where
  | init (admin : Address)
  | configureAssetPair (caller : Address) (assetPair : Symbol)
      (toleranceBps stalenessLedgers : UInt32)
  | authorizeSubmitter (caller : Address) (assetPair : Symbol) (submitter : Address)
  | revokeSubmitter (caller : Address) (assetPair : Symbol) (submitter : Address)
  | submitPrice (submitter : Address) (assetPair : Symbol) (price : I128)

/-- The entry point of a call. -/
def dispatch (env : Env) (s : Store) : Call → Result Error Store
  | .init admin => init env s admin
  | .configureAssetPair caller assetPair toleranceBps stalenessLedgers =>
    configureAssetPair env s caller assetPair toleranceBps stalenessLedgers
  | .authorizeSubmitter caller assetPair submitter =>
    authorizeSubmitter env s caller assetPair submitter
  | .revokeSubmitter caller assetPair submitter => revokeSubmitter env s caller assetPair submitter
  | .submitPrice submitter assetPair price => submitPrice env s submitter assetPair price

/-- The oracle contract. -/
def oracle : Machine Store (Env × Call) (Trap Error) Unit where
  init := .empty
  invoke i s := (fun s' => ((), s')) <$> dispatch i.1 s i.2

/-- A step of the contract's history. -/
abbrev OracleStep := Step Store (Env × Call) (Trap Error) Unit

/-! ## What each function does when it succeeds -/

section
variable {env : Env} {s s' : Store} {caller submitter : Address} {assetPair : Symbol}

@[simp] theorem requireAdmin_eq_ok {u : Unit} :
    requireAdmin env s caller = .ok u ↔ s.admin = some caller ∧ caller ∈ env.auths := by
  simp [requireAdmin]

@[simp] theorem getConfig_eq_ok {config : OracleConfig} :
    getConfig s assetPair = .ok config ↔ s.assetConfig assetPair = some config := okOr_eq_ok

theorem init_eq_ok {admin : Address} :
    init env s admin = .ok s' ↔
      s.admin = none ∧ admin ∈ env.auths ∧ s' = { s with admin := some admin } := by
  simp [init]

theorem configureAssetPair_eq_ok {tol stale : UInt32} :
    configureAssetPair env s caller assetPair tol stale = .ok s' ↔
      (s.admin = some caller ∧ caller ∈ env.auths) ∧ tol.toNat ≤ 10000 ∧ stale ≠ 0 ∧
      s' = { s with
        assetConfig :=
          Function.update s.assetConfig assetPair (some ⟨assetPair, tol, stale, []⟩)
        events := s.events ++ [.configUpdated assetPair tol stale] } := by
  simp [configureAssetPair, setConfig, publish]

theorem authorizeSubmitter_eq_ok :
    authorizeSubmitter env s caller assetPair submitter = .ok s' ↔
      (s.admin = some caller ∧ caller ∈ env.auths) ∧
      ∃ config, s.assetConfig assetPair = some config ∧
      submitter ∉ config.authorizedSubmitters ∧
      s' = { s with
        assetConfig := Function.update s.assetConfig assetPair (some { config with
          authorizedSubmitters := config.authorizedSubmitters ++ [submitter] })
        events := s.events ++ [.submitterAuthorized submitter] } := by
  simp [authorizeSubmitter, setConfig, publish]

theorem revokeSubmitter_eq_ok :
    revokeSubmitter env s caller assetPair submitter = .ok s' ↔
      (s.admin = some caller ∧ caller ∈ env.auths) ∧
      ∃ config, s.assetConfig assetPair = some config ∧
      submitter ∈ config.authorizedSubmitters ∧
      s' = { s with
        assetConfig := Function.update s.assetConfig assetPair (some { config with
          authorizedSubmitters := config.authorizedSubmitters.filter (· ≠ submitter) })
        events := s.events ++ [.submitterRevoked submitter] } := by
  simp [revokeSubmitter, setConfig, publish]

theorem submitPrice_eq_ok {price : I128} :
    submitPrice env s submitter assetPair price = .ok s' ↔
      submitter ∈ env.auths ∧ 0 < price.val ∧
      ∃ config, s.assetConfig assetPair = some config ∧
      submitter ∈ config.authorizedSubmitters ∧
      s' = { s with
        submission := Function.update s.submission (assetPair, submitter)
          (some ⟨submitter, assetPair, price, env.sequence.toUInt64⟩) } := by
  simp [submitPrice]

end

/-! ## The sort -/

@[simp] theorem getUnchecked_eq_ok {v : List I128} {i : ℕ} {x : I128} :
    getUnchecked v i = .ok x ↔ v[i]? = some x := okOr_eq_ok

@[simp] theorem setEntry_eq_ok {v w : List I128} {i : ℕ} {x : I128} :
    setEntry v i x = .ok w ↔ i < v.length ∧ w = v.set i x := by
  simp [setEntry]

@[simp] theorem subLen_eq_ok {a b c : ℕ} : subLen a b = .ok c ↔ b ≤ a ∧ c = a - b := by
  simp [subLen]

@[simp] theorem subLedger_eq_ok {a b c : UInt64} : subLedger a b = .ok c ↔ b ≤ a ∧ c = a - b := by
  simp [subLedger]

/-- One step of the sort compares and swaps. -/
theorem sortStep_eq {v : List I128} {j : ℕ} (hj : j + 1 < v.length) :
    sortStep v j = .ok (compareSwap v j) := by
  have ha : v[j]? = some v[j] := List.getElem?_eq_getElem (by omega)
  have hb : v[j + 1]? = some v[j + 1] := List.getElem?_eq_getElem hj
  refine bind_eq_ok.2 ⟨_, getUnchecked_eq_ok.2 ha, bind_eq_ok.2 ⟨_, getUnchecked_eq_ok.2 hb, ?_⟩⟩
  rw [compareSwap, ha, hb]
  by_cases h : v[j + 1] < v[j]
  · simp only [h, if_true]
    have hj' : j + 1 < (v.set j v[j + 1]).length := by rwa [List.length_set]
    exact bind_eq_ok.2 ⟨_, setEntry_eq_ok.2 ⟨by omega, rfl⟩, setEntry_eq_ok.2 ⟨hj', rfl⟩⟩
  · simp only [h, if_false]
    rfl

/-- One pass of the sort. -/
theorem sortPass_eq {v : List I128} {i : ℕ} (hi : i < v.length) :
    sortPass v i = .ok (bubblePass v (v.length - 1 - i)) ∧
      (bubblePass v (v.length - 1 - i)).length = v.length := by
  have hloop : (List.range (v.length - 1 - i)).foldlM sortStep v =
      .ok (bubblePass v (v.length - 1 - i)) ∧
      (bubblePass v (v.length - 1 - i)).length = v.length := by
    refine foldlM_eq_ok (I := fun w : List I128 => w.length = v.length) ?_ rfl
    intro w j hj hw
    have hj := List.mem_range.1 hj
    exact ⟨sortStep_eq (by omega), by rw [compareSwap_length, hw]⟩
  refine ⟨?_, hloop.2⟩
  have hlast : subLen v.length 1 = .ok (v.length - 1) := subLen_eq_ok.2 ⟨by omega, rfl⟩
  have hbound : subLen (v.length - 1) i = .ok (v.length - 1 - i) := subLen_eq_ok.2 ⟨by omega, rfl⟩
  exact bind_eq_ok.2 ⟨_, hlast, bind_eq_ok.2 ⟨_, hbound, hloop.1⟩⟩

/-- The sort never traps, and it is a bubble sort. -/
theorem sortPrices_eq (v : List I128) : sortPrices v = .ok (bubbleSort v) := by
  refine (foldlM_eq_ok (I := fun w : List I128 => w.length = v.length) ?_ rfl).1
  intro w i hi hw
  have hi := List.mem_range.1 hi
  obtain ⟨h, hlen⟩ := sortPass_eq (v := w) (i := i) (by omega)
  exact ⟨h, by rw [hlen, hw]⟩

end Oracle

end InvoiceFi
