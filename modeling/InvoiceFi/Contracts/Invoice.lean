import InvoiceFi.Contracts.AccessControl
import InvoiceFi.Contracts.CheckedMath
import Mathlib.Logic.Function.Basic

/-!
# The invoice contract (`contracts/invoice/src/lib.rs`)

An invoice is a farmer's future crop yield minted as an on-chain record. Funding it mints its
unique ownership token, the token can be transferred by its owner or by the one address the owner
approved, and admin signers drive the record to `Settled` or `Defaulted`. `Invoicing.Store` holds
one field per storage key and the events published so far; each entry point has the source's checks
and writes in the source's order and a `_eq_ok` lemma. `Invoicing.invoiceContract` is the contract
as a machine.

Ids come from a `u64` counter that is incremented in `i128`, where the sum never overflows, and
then narrowed: `mint_eq_ok` shows the successor of the word, which wraps.
-/

namespace InvoiceFi

namespace Invoicing

open AccessControl (AcError Role Op)
open CheckedMath

/-- `MAX_DISCOUNT_BPS`. -/
def maxDiscountBps : UInt32 := 10000

/-- `Status`. -/
inductive Status where
  | pending
  | funded
  | settled
  | defaulted
  deriving DecidableEq, Repr

/-- `Invoice`. -/
structure Invoice where
  id : UInt64
  owner : Address
  amount : I128
  crop : Symbol
  dueDate : UInt64
  metadata : String
  status : Status
  deriving DecidableEq

/-- `InvoiceToken`. -/
structure InvoiceToken where
  invoiceId : UInt64
  faceValue : I128
  discountRate : UInt32
  dueDate : UInt64
  deriving DecidableEq

/-- The events the contract publishes; the `from` and `to` of `Transferred` are `sender` and
`receiver`, those of `StatusChanged` are `old` and `new`. -/
inductive Event where
  | minted (owner : Address) (invoiceId : UInt64) (amount : I128)
  | transferred (sender receiver : Address) (invoiceId : UInt64)
  | statusChanged (invoiceId : UInt64) (old new : Status)
  | tokenMinted (owner : Address) (invoiceId : UInt64) (faceValue : I128) (discountRate : UInt32)
  | approved (owner spender : Address) (invoiceId : UInt64)
  deriving DecidableEq

/-- `Error`. -/
inductive Error where
  | alreadyInitialized
  | notInitialized
  | invoiceNotFound
  | invalidAmount
  | notOwner
  | invalidTransition
  | sameOwnerTransfer
  | notTokenized
  | invalidDiscountRate
  | transferAfterRepayment
  | notApproved
  | unauthorized
  | notASigner
  | invalidThreshold
  | duplicateSigner
  | invalidTimelock
  | contractPaused
  | alreadyPaused
  | notPaused
  | noPendingTransfer
  | alreadyConfirmed
  | thresholdNotMet
  | timelockNotElapsed
  | cannotGrantAdminRole
  | overflow
  | underflow
  | divisionByZero
  deriving DecidableEq, Repr

/-- `From<AcError> for Error`. -/
def Error.ofAcError : AcError → Error
  | .alreadyInitialized => .alreadyInitialized
  | .notInitialized => .notInitialized
  | .unauthorized => .unauthorized
  | .notASigner => .notASigner
  | .invalidThreshold => .invalidThreshold
  | .duplicateSigner => .duplicateSigner
  | .invalidTimelock => .invalidTimelock
  | .contractPaused => .contractPaused
  | .alreadyPaused => .alreadyPaused
  | .notPaused => .notPaused
  | .noPendingTransfer => .noPendingTransfer
  | .alreadyConfirmed => .alreadyConfirmed
  | .thresholdNotMet => .thresholdNotMet
  | .timelockNotElapsed => .timelockNotElapsed
  | .cannotGrantAdminRole => .cannotGrantAdminRole

/-- `From<CheckedMathError> for Error`. -/
def Error.ofCheckedMathError : CheckedMathError → Error
  | .overflow => .overflow
  | .underflow => .underflow
  | .divisionByZero => .divisionByZero

/-- `?` on an access-control result. -/
def liftAc {α : Type} (x : Result AcError α) : Result Error α :=
  x.mapError (Trap.map Error.ofAcError)

/-- `?` on a checked-arithmetic result. -/
def liftMath {α : Type} (x : Except CheckedMathError α) : Result Error α :=
  x.mapError fun e => .error (Error.ofCheckedMathError e)

/-- The contract's storage, one field per key, and the events published so far. -/
structure Store where
  ac : AccessControl.Store
  counter : Option UInt64
  invoice : UInt64 → Option Invoice
  token : UInt64 → Option InvoiceToken
  approval : UInt64 → Option Address
  events : List Event

/-- Storage of a contract that has just been deployed. -/
def Store.empty : Store :=
  ⟨.empty, none, fun _ => none, fun _ => none, fun _ => none, []⟩

/-! ## Internals -/

/-- `transition_allowed`; `Pending -> Funded` is left to `fund`, which also mints the token. -/
def transitionAllowed : Status → Status → Bool
  | .pending, .defaulted | .funded, .settled | .funded, .defaulted => true
  | _, _ => false

/-- `is_tokenized_inner`. -/
def isTokenizedInner (s : Store) (invoiceId : UInt64) : Bool := (s.token invoiceId).isSome

/-- `save`. -/
def save (s : Store) (invoice : Invoice) : Store :=
  { s with invoice := Function.update s.invoice invoice.id (some invoice) }

/-- `load`. -/
def load (s : Store) (invoiceId : UInt64) : Result Error Invoice :=
  okOr (s.invoice invoiceId) (.error .invoiceNotFound)

/-- `env.events().publish`. -/
def publish (s : Store) (e : Event) : Store := { s with events := s.events ++ [e] }

/-- `require_initialized`. -/
def requireInitialized (s : Store) : Result Error Unit := do
  let _ ← liftAc (AccessControl.multisig s.ac)
  pure ()

/-- `do_transfer`; the source's `from` and `to` are `sender` and `receiver`. -/
def doTransfer (s : Store) (invoice : Invoice) (sender receiver : Address) (invoiceId : UInt64) :
    Result Error Store := do
  rejectIf (sender = receiver) (.error .sameOwnerTransfer)
  rejectIf (invoice.status = .settled) (.error .transferAfterRepayment)
  let s := save s { invoice with owner := receiver }
  let s := { s with approval := Function.update s.approval invoiceId none }
  pure (publish s (.transferred sender receiver invoiceId))

/-! ## Entry points -/

/-- `initialize`. -/
def init (s : Store) (signers : List Address) (threshold timelock : UInt32) :
    Result Error Store := do
  let ac ← liftAc (AccessControl.init s.ac signers threshold timelock)
  pure { s with ac := ac, counter := some 0 }

/-- `mint`. -/
def mint (env : Env) (s : Store) (owner : Address) (amount : I128) (crop : Symbol)
    (dueDate : UInt64) (metadata : String) : Result Error (UInt64 × Store) := do
  requireInitialized s
  liftAc (AccessControl.requireNotPaused s.ac)
  requireAuth env owner
  rejectIf (amount.val ≤ 0) (.error .invalidAmount)
  let id := s.counter.getD 0
  let sum ← liftMath (checkedAdd (I128.ofUInt64 id) (.lit 1))
  let next := sum.toUInt64
  let s := { s with counter := some next }
  let s := save s ⟨next, owner, amount, crop, dueDate, metadata, .pending⟩
  pure (next, publish s (.minted owner next amount))

/-- `fund`. -/
def fund (env : Env) (s : Store) (caller : Address) (invoiceId : UInt64) (discountRate : UInt32) :
    Result Error Store := do
  requireInitialized s
  liftAc (AccessControl.requireRole env s.ac .liquidityManager caller)
  liftAc (AccessControl.requireNotPaused s.ac)
  rejectIf (maxDiscountBps ≤ discountRate) (.error .invalidDiscountRate)
  let invoice ← load s invoiceId
  rejectIf (invoice.status ≠ .pending) (.error .invalidTransition)
  let invoice := { invoice with status := .funded }
  let s := save s invoice
  let s := { s with
    token := Function.update s.token invoiceId
      (some ⟨invoiceId, invoice.amount, discountRate, invoice.dueDate⟩) }
  let s := publish s (.statusChanged invoiceId .pending .funded)
  pure (publish s (.tokenMinted invoice.owner invoiceId invoice.amount discountRate))

/-- `approve`. -/
def approve (env : Env) (s : Store) (owner spender : Address) (invoiceId : UInt64) :
    Result Error Store := do
  liftAc (AccessControl.requireNotPaused s.ac)
  requireAuth env owner
  let invoice ← load s invoiceId
  rejectIf (¬ isTokenizedInner s invoiceId = true) (.error .notTokenized)
  rejectIf (invoice.owner ≠ owner) (.error .notOwner)
  let s := { s with approval := Function.update s.approval invoiceId (some spender) }
  pure (publish s (.approved owner spender invoiceId))

/-- `transfer`. -/
def transfer (env : Env) (s : Store) (sender receiver : Address) (invoiceId : UInt64) :
    Result Error Store := do
  liftAc (AccessControl.requireNotPaused s.ac)
  requireAuth env sender
  let invoice ← load s invoiceId
  rejectIf (invoice.owner ≠ sender) (.error .notOwner)
  doTransfer s invoice sender receiver invoiceId

/-- `transfer_from`. -/
def transferFrom (env : Env) (s : Store) (spender sender receiver : Address)
    (invoiceId : UInt64) : Result Error Store := do
  liftAc (AccessControl.requireNotPaused s.ac)
  requireAuth env spender
  let invoice ← load s invoiceId
  rejectIf (¬ isTokenizedInner s invoiceId = true) (.error .notTokenized)
  rejectIf (invoice.owner ≠ sender) (.error .notOwner)
  rejectIf (s.approval invoiceId ≠ some spender) (.error .notApproved)
  doTransfer s invoice sender receiver invoiceId

/-- `update_status`. -/
def updateStatus (env : Env) (s : Store) (caller : Address) (invoiceId : UInt64)
    (newStatus : Status) : Result Error Store := do
  requireInitialized s
  liftAc (AccessControl.requireAdmin env s.ac caller)
  liftAc (AccessControl.requireNotPaused s.ac)
  let invoice ← load s invoiceId
  rejectIf (¬ transitionAllowed invoice.status newStatus = true) (.error .invalidTransition)
  let old := invoice.status
  let s := save s { invoice with status := newStatus }
  pure (publish s (.statusChanged invoiceId old newStatus))

/-- The role, pause and admin-transfer entry points. -/
def access (env : Env) (s : Store) (o : Op) : Result Error Store := do
  let ac ← liftAc (AccessControl.apply env s.ac o)
  pure { s with ac := ac }

/-! ## Views -/

/-- `get_invoice`. -/
def getInvoice (s : Store) (invoiceId : UInt64) : Result Error Invoice := load s invoiceId

/-- `owner_of`. -/
def ownerOf (s : Store) (invoiceId : UInt64) : Result Error Address :=
  (·.owner) <$> load s invoiceId

/-- `status_of`. -/
def statusOf (s : Store) (invoiceId : UInt64) : Result Error Status :=
  (·.status) <$> load s invoiceId

/-- `get_invoice_token`. -/
def getInvoiceToken (s : Store) (invoiceId : UInt64) : Result Error InvoiceToken :=
  okOr (s.token invoiceId) (.error .notTokenized)

/-- `get_invoice_token_owner`. -/
def getInvoiceTokenOwner (s : Store) (invoiceId : UInt64) : Result Error Address := do
  rejectIf (¬ isTokenizedInner s invoiceId = true) (.error .notTokenized)
  (·.owner) <$> load s invoiceId

/-- `is_tokenized`. -/
def isTokenized (s : Store) (invoiceId : UInt64) : Bool := isTokenizedInner s invoiceId

/-- `get_approved`. -/
def getApproved (s : Store) (invoiceId : UInt64) : Result Error Address :=
  okOr (s.approval invoiceId) (.error .notApproved)

/-- `total_minted`. -/
def totalMinted (s : Store) : UInt64 := s.counter.getD 0

/-! ## The contract -/

/-- A call of the contract. The views change nothing and are functions of the store. -/
inductive Call where
  | init (signers : List Address) (threshold timelock : UInt32)
  | mint (owner : Address) (amount : I128) (crop : Symbol) (dueDate : UInt64) (metadata : String)
  | fund (caller : Address) (invoiceId : UInt64) (discountRate : UInt32)
  | approve (owner spender : Address) (invoiceId : UInt64)
  | transfer (sender receiver : Address) (invoiceId : UInt64)
  | transferFrom (spender sender receiver : Address) (invoiceId : UInt64)
  | updateStatus (caller : Address) (invoiceId : UInt64) (newStatus : Status)
  | access (o : Op)

/-- What a call returns. -/
inductive Value where
  | unit
  | id (n : UInt64)
  deriving DecidableEq

/-- `InvoiceContract`, as a machine. -/
def invoiceContract : Machine Store (Env × Call) (Trap Error) Value where
  init := .empty
  invoke i s :=
    match i.2 with
    | .init signers threshold timelock => (.unit, ·) <$> init s signers threshold timelock
    | .mint owner amount crop dueDate metadata =>
      (fun r => (.id r.1, r.2)) <$> mint i.1 s owner amount crop dueDate metadata
    | .fund caller invoiceId discountRate =>
      (.unit, ·) <$> fund i.1 s caller invoiceId discountRate
    | .approve owner spender invoiceId => (.unit, ·) <$> approve i.1 s owner spender invoiceId
    | .transfer sender receiver invoiceId =>
      (.unit, ·) <$> transfer i.1 s sender receiver invoiceId
    | .transferFrom spender sender receiver invoiceId =>
      (.unit, ·) <$> transferFrom i.1 s spender sender receiver invoiceId
    | .updateStatus caller invoiceId newStatus =>
      (.unit, ·) <$> updateStatus i.1 s caller invoiceId newStatus
    | .access o => (.unit, ·) <$> access i.1 s o

/-- A step of the contract's history. -/
abbrev InvoiceStep := Step Store (Env × Call) (Trap Error) Value

/-! ## What each function does when it succeeds -/

section
variable {env : Env} {s s' : Store} {caller : Address} {invoiceId : UInt64}

@[simp] theorem liftAc_eq_ok {α : Type} {x : Result AcError α} {a : α} :
    liftAc x = .ok a ↔ x = .ok a := mapError_eq_ok

@[simp] theorem liftMath_eq_ok {α : Type} {x : Except CheckedMathError α} {a : α} :
    liftMath x = .ok a ↔ x = .ok a := mapError_eq_ok

@[simp] theorem requireInitialized_eq_ok {u : Unit} :
    requireInitialized s = .ok u ↔ ∃ cfg, s.ac.multisig = some cfg := by
  simp [requireInitialized, AccessControl.multisig]

@[simp] theorem load_eq_ok {inv : Invoice} :
    load s invoiceId = .ok inv ↔ s.invoice invoiceId = some inv := okOr_eq_ok

theorem doTransfer_eq_ok {inv : Invoice} {sender receiver : Address} :
    doTransfer s inv sender receiver invoiceId = .ok s' ↔
      sender ≠ receiver ∧ inv.status ≠ .settled ∧
      s' = { s with
        invoice := Function.update s.invoice inv.id (some { inv with owner := receiver })
        approval := Function.update s.approval invoiceId none
        events := s.events ++ [.transferred sender receiver invoiceId] } := by
  simp [doTransfer, save, publish]

theorem init_eq_ok {signers : List Address} {threshold timelock : UInt32} :
    init s signers threshold timelock = .ok s' ↔
      ∃ ac, AccessControl.init s.ac signers threshold timelock = .ok ac ∧
      s' = { s with ac := ac, counter := some 0 } := by
  simp [init]

/-- `mint` allocates the successor of the counter as a 64-bit word: the checked sum is taken in
128 bits and never fails. -/
theorem mint_eq_ok {owner : Address} {amount : I128} {crop : Symbol} {dueDate n : UInt64}
    {metadata : String} :
    mint env s owner amount crop dueDate metadata = .ok (n, s') ↔
      (∃ cfg, s.ac.multisig = some cfg) ∧ AccessControl.isPaused s.ac = false ∧
      owner ∈ env.auths ∧ 0 < amount.val ∧ n = totalMinted s + 1 ∧
      s' = { s with
        counter := some n
        invoice := Function.update s.invoice n
          (some ⟨n, owner, amount, crop, dueDate, metadata, .pending⟩)
        events := s.events ++ [.minted owner n amount] } := by
  simp only [mint, bind_eq_ok, requireInitialized_eq_ok, liftAc_eq_ok,
    AccessControl.requireNotPaused_eq_ok, requireAuth_eq_ok, rejectIf_eq_ok, liftMath_eq_ok,
    checkedAdd_eq_ok, pure_eq_ok, exists_const, Int.not_le, Prod.mk.injEq, save, publish,
    I128.ofUInt64_val]
  constructor
  · rintro ⟨h1, h2, h3, h4, v, hv, rfl, rfl⟩
    exact ⟨h1, h2, h3, h4, I128.toUInt64_succ hv, rfl⟩
  · rintro ⟨h1, h2, h3, h4, rfl, rfl⟩
    have hlt := (s.counter.getD 0).toNat_lt
    refine ⟨h1, h2, h3, h4, ⟨(s.counter.getD 0).toNat + 1, by omega, by omega⟩, rfl, ?_⟩
    rw [I128.toUInt64_succ rfl]
    exact ⟨rfl, rfl⟩

theorem fund_eq_ok {discountRate : UInt32} :
    fund env s caller invoiceId discountRate = .ok s' ↔
      (∃ cfg, s.ac.multisig = some cfg) ∧
      (caller ∈ env.auths ∧ (AccessControl.isSigner s.ac caller = true ∨
        AccessControl.hasRole s.ac .liquidityManager caller = true)) ∧
      AccessControl.isPaused s.ac = false ∧ discountRate.toNat < 10000 ∧
      ∃ inv, s.invoice invoiceId = some inv ∧ inv.status = .pending ∧
      s' = { s with
        invoice := Function.update s.invoice inv.id (some { inv with status := .funded })
        token := Function.update s.token invoiceId
          (some ⟨invoiceId, inv.amount, discountRate, inv.dueDate⟩)
        events := s.events ++ [.statusChanged invoiceId .pending .funded,
          .tokenMinted inv.owner invoiceId inv.amount discountRate] } := by
  have hd : ¬ (maxDiscountBps ≤ discountRate) ↔ discountRate.toNat < 10000 := by
    rw [UInt32.le_iff_toNat_le, Nat.not_le]; rfl
  simp [fund, save, publish, hd]

theorem approve_eq_ok {owner spender : Address} :
    approve env s owner spender invoiceId = .ok s' ↔
      AccessControl.isPaused s.ac = false ∧ owner ∈ env.auths ∧
      ∃ inv, s.invoice invoiceId = some inv ∧ isTokenizedInner s invoiceId = true ∧
      inv.owner = owner ∧
      s' = { s with
        approval := Function.update s.approval invoiceId (some spender)
        events := s.events ++ [.approved owner spender invoiceId] } := by
  simp [approve, publish]

theorem transfer_eq_ok {sender receiver : Address} :
    transfer env s sender receiver invoiceId = .ok s' ↔
      AccessControl.isPaused s.ac = false ∧ sender ∈ env.auths ∧
      ∃ inv, s.invoice invoiceId = some inv ∧ inv.owner = sender ∧
      doTransfer s inv sender receiver invoiceId = .ok s' := by
  simp [transfer]

theorem transferFrom_eq_ok {spender sender receiver : Address} :
    transferFrom env s spender sender receiver invoiceId = .ok s' ↔
      AccessControl.isPaused s.ac = false ∧ spender ∈ env.auths ∧
      ∃ inv, s.invoice invoiceId = some inv ∧ isTokenizedInner s invoiceId = true ∧
      inv.owner = sender ∧ s.approval invoiceId = some spender ∧
      doTransfer s inv sender receiver invoiceId = .ok s' := by
  simp [transferFrom]

theorem updateStatus_eq_ok {newStatus : Status} :
    updateStatus env s caller invoiceId newStatus = .ok s' ↔
      (∃ cfg, s.ac.multisig = some cfg) ∧
      (caller ∈ env.auths ∧ AccessControl.isSigner s.ac caller = true) ∧
      AccessControl.isPaused s.ac = false ∧
      ∃ inv, s.invoice invoiceId = some inv ∧ transitionAllowed inv.status newStatus = true ∧
      s' = { s with
        invoice := Function.update s.invoice inv.id (some { inv with status := newStatus })
        events := s.events ++ [.statusChanged invoiceId inv.status newStatus] } := by
  simp [updateStatus, save, publish]

theorem access_eq_ok {o : Op} :
    access env s o = .ok s' ↔
      ∃ ac, AccessControl.apply env s.ac o = .ok ac ∧ s' = { s with ac := ac } := by
  simp [access]

end

/-! ## The embedded access control -/

/-- The access-control call that a call of the contract forwards. -/
def Call.forwards : Call → Option AccessControl.Call
  | .init signers threshold timelock => some (.init signers threshold timelock)
  | .access o => some (.op o)
  | _ => none

/-- The contract embeds the access-control library. -/
def embedding : Machine.Embedding invoiceContract AccessControl.harness where
  part := Store.ac
  forward i := (Call.forwards i.2).map (i.1, ·)
  init := rfl
  forwarded := by
    rintro ⟨env, c⟩ k s r s' hi hf
    cases c with
    | init sg th tl =>
      cases hf
      obtain ⟨_, h, heq⟩ := map_eq_ok.1 hi
      cases heq
      obtain ⟨ac, hac, rfl⟩ := init_eq_ok.1 h
      exact ⟨(), AccessControl.harness_invoke_eq_ok.2 (.inl ⟨sg, th, tl, rfl, hac⟩)⟩
    | access o =>
      cases hf
      obtain ⟨_, h, heq⟩ := map_eq_ok.1 hi
      cases heq
      obtain ⟨ac, hac, rfl⟩ := access_eq_ok.1 h
      exact ⟨(), AccessControl.harness_invoke_eq_ok.2 (.inr ⟨o, rfl, hac⟩)⟩
    | _ => cases hf
  kept := by
    rintro ⟨env, c⟩ s r s' hi hf
    cases c with
    | init sg th tl => cases hf
    | mint owner amount crop due md =>
      obtain ⟨⟨n, s₁⟩, h, heq⟩ := map_eq_ok.1 hi
      cases heq
      obtain ⟨-, -, -, -, -, rfl⟩ := mint_eq_ok.1 h
      rfl
    | fund c n d =>
      obtain ⟨_, h, heq⟩ := map_eq_ok.1 hi
      cases heq
      obtain ⟨-, -, -, -, inv, -, -, rfl⟩ := fund_eq_ok.1 h
      rfl
    | approve o sp n =>
      obtain ⟨_, h, heq⟩ := map_eq_ok.1 hi
      cases heq
      obtain ⟨-, -, inv, -, -, -, rfl⟩ := approve_eq_ok.1 h
      rfl
    | transfer x y n =>
      obtain ⟨_, h, heq⟩ := map_eq_ok.1 hi
      cases heq
      obtain ⟨-, -, inv, -, -, h⟩ := transfer_eq_ok.1 h
      obtain ⟨-, -, rfl⟩ := doTransfer_eq_ok.1 h
      rfl
    | transferFrom sp x y n =>
      obtain ⟨_, h, heq⟩ := map_eq_ok.1 hi
      cases heq
      obtain ⟨-, -, inv, -, -, -, -, h⟩ := transferFrom_eq_ok.1 h
      obtain ⟨-, -, rfl⟩ := doTransfer_eq_ok.1 h
      rfl
    | updateStatus c n st =>
      obtain ⟨_, h, heq⟩ := map_eq_ok.1 hi
      cases heq
      obtain ⟨-, -, -, inv, -, -, rfl⟩ := updateStatus_eq_ok.1 h
      rfl
    | access o => cases hf

end Invoicing

end InvoiceFi
