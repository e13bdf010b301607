import InvoiceFi.Contracts.Host
import InvoiceFi.Lib.Machine
import Mathlib.Data.List.Nodup

/-!
# Access control (`contracts/access-control/src/lib.rs`)

The role and multisig-admin library that the invoice, pool and settlement contracts share. Admin
authority is membership in an n-of-m signer set; any one signer may act, but changing the signer
set takes a proposal, confirmations and a time-lock.

`AccessControl.Store` is the part of a contract's instance storage under the library's own keys,
one field per key. The functions are the library's, guards in the source's order, and each that
writes has a `_eq_ok` lemma that says exactly when it succeeds and what it leaves; every later
proof reads a function through that lemma. `AccessControl.harness` is the library behind an
`initialize` and one entry point per operation, as its own tests and the three contracts expose
it.
-/

namespace InvoiceFi

namespace AccessControl

/-- `MIN_ADMIN_TRANSFER_TIMELOCK_LEDGERS`. -/
def minAdminTransferTimelockLedgers : UInt32 := 34560

/-- `Role`. -/
inductive Role where
  | admin
  | oracleWriter
  | pauser
  | liquidityManager
  deriving DecidableEq, Repr

/-- `AcError`. -/
inductive AcError where
  | alreadyInitialized
  | notInitialized
  | unauthorized
  | notASigner
  | invalidThreshold
  | duplicateSigner
  | invalidTimelock
  | contractPaused
  | notPaused
  | noPendingTransfer
  | alreadyConfirmed
  | thresholdNotMet
  | timelockNotElapsed
  | cannotGrantAdminRole
  | alreadyPaused
  deriving DecidableEq, Repr

/-- `MultisigConfig`. -/
structure MultisigConfig where
  signers : List Address
  threshold : UInt32
  deriving DecidableEq, Repr

/-- `PendingAdminTransfer`. -/
structure PendingAdminTransfer where
  newSigners : List Address
  newThreshold : UInt32
  proposedAt : UInt32
  confirmations : List Address
  deriving DecidableEq, Repr

/-- The instance storage under `AcKey`. A role entry is only ever set to `true`, so its presence
is a Boolean. -/
structure Store where
  multisig : Option MultisigConfig
  timelockLedgers : Option UInt32
  paused : Option Bool
  pendingTransfer : Option PendingAdminTransfer
  roleHolder : Role → Address → Bool

/-- Storage of a contract that has just been deployed. -/
def Store.empty : Store := ⟨none, none, none, none, fun _ _ => false⟩

/-! ## Queries -/

/-- `multisig`. -/
def multisig (st : Store) : Result AcError MultisigConfig :=
  okOr st.multisig (.error .notInitialized)

/-- `is_signer`. -/
def isSigner (st : Store) (addr : Address) : Bool :=
  match st.multisig with
  | some cfg => decide (addr ∈ cfg.signers)
  | none => false

/-- `has_role`. -/
def hasRole (st : Store) (role : Role) (addr : Address) : Bool :=
  match role with
  | .admin => isSigner st addr
  | role => st.roleHolder role addr

/-- `is_paused`. -/
def isPaused (st : Store) : Bool := st.paused.getD false

/-- `timelock_ledgers`. -/
def timelockLedgers (st : Store) : UInt32 :=
  st.timelockLedgers.getD minAdminTransferTimelockLedgers

/-! ## Guards -/

/-- `require_role`. -/
def requireRole (env : Env) (st : Store) (role : Role) (caller : Address) :
    Result AcError Unit := do
  requireAuth env caller
  rejectIf (¬ (isSigner st caller = true ∨ hasRole st role caller = true)) (.error .unauthorized)

/-- `require_admin`. -/
def requireAdmin (env : Env) (st : Store) (caller : Address) : Result AcError Unit := do
  requireAuth env caller
  rejectIf (¬ isSigner st caller = true) (.error .notASigner)

/-- `require_not_paused`. -/
def requireNotPaused (st : Store) : Result AcError Unit :=
  rejectIf (isPaused st = true) (.error .contractPaused)

/-- The nested loop of `validate_signer_set`: some entry occurs again after its position. -/
def hasDuplicate : List Address → Bool
  | [] => false
  | a :: rest => decide (a ∈ rest) || hasDuplicate rest

/-- `validate_signer_set`. -/
def validateSignerSet (signers : List Address) (threshold : UInt32) : Result AcError Unit := do
  rejectIf (signers = [] ∨ threshold = 0 ∨ signers.length < threshold.toNat)
    (.error .invalidThreshold)
  rejectIf (hasDuplicate signers = true) (.error .duplicateSigner)

/-! ## Operations -/

/-- `initialize` (a reserved word of Lean, hence `init` throughout). -/
def init (st : Store) (signers : List Address) (threshold timelock : UInt32) :
    Result AcError Store := do
  rejectIf (st.multisig.isSome = true) (.error .alreadyInitialized)
  validateSignerSet signers threshold
  rejectIf (timelock < minAdminTransferTimelockLedgers) (.error .invalidTimelock)
  pure { st with
    multisig := some ⟨signers, threshold⟩
    timelockLedgers := some timelock
    paused := some false }

/-- The store with the `RoleHolder(role, grantee)` entry present or removed. -/
def Store.setRole (st : Store) (role : Role) (grantee : Address) (held : Bool) : Store :=
  { st with
    roleHolder := fun r a => if r = role ∧ a = grantee then held else st.roleHolder r a }

/-- `grant_role`. -/
def grantRole (env : Env) (st : Store) (caller : Address) (role : Role) (grantee : Address) :
    Result AcError Store := do
  requireAdmin env st caller
  rejectIf (role = .admin) (.error .cannotGrantAdminRole)
  pure (st.setRole role grantee true)

/-- `revoke_role`. -/
def revokeRole (env : Env) (st : Store) (caller : Address) (role : Role) (grantee : Address) :
    Result AcError Store := do
  requireAdmin env st caller
  pure (st.setRole role grantee false)

/-- `pause`. -/
def pause (env : Env) (st : Store) (caller : Address) : Result AcError Store := do
  requireRole env st .pauser caller
  rejectIf (isPaused st = true) (.error .alreadyPaused)
  pure { st with paused := some true }

/-- `unpause`. -/
def unpause (env : Env) (st : Store) (caller : Address) : Result AcError Store := do
  requireRole env st .pauser caller
  rejectIf (¬ isPaused st = true) (.error .notPaused)
  pure { st with paused := some false }

/-- `propose_admin_transfer`. -/
def proposeAdminTransfer (env : Env) (st : Store) (caller : Address)
    (newSigners : List Address) (newThreshold : UInt32) : Result AcError Store := do
  requireAdmin env st caller
  validateSignerSet newSigners newThreshold
  pure { st with pendingTransfer := some ⟨newSigners, newThreshold, env.sequence, [caller]⟩ }

/-- `confirm_admin_transfer`. -/
def confirmAdminTransfer (env : Env) (st : Store) (caller : Address) :
    Result AcError Store := do
  requireAdmin env st caller
  let pending ← okOr st.pendingTransfer (.error .noPendingTransfer)
  rejectIf (caller ∈ pending.confirmations) (.error .alreadyConfirmed)
  pure { st with
    pendingTransfer :=
      some { pending with confirmations := pending.confirmations ++ [caller] } }

/-- `execute_admin_transfer`. -/
def executeAdminTransfer (env : Env) (st : Store) (caller : Address) :
    Result AcError Store := do
  requireAdmin env st caller
  let pending ← okOr st.pendingTransfer (.error .noPendingTransfer)
  let current ← multisig st
  rejectIf (pending.confirmations.length < current.threshold.toNat) (.error .thresholdNotMet)
  rejectIf (env.sequence < saturatingAddU32 pending.proposedAt (timelockLedgers st))
    (.error .timelockNotElapsed)
  pure { st with
    multisig := some ⟨pending.newSigners, pending.newThreshold⟩
    pendingTransfer := none }

/-- `cancel_admin_transfer`. -/
def cancelAdminTransfer (env : Env) (st : Store) (caller : Address) : Result AcError Store := do
  requireAdmin env st caller
  rejectIf (st.pendingTransfer.isNone = true) (.error .noPendingTransfer)
  pure { st with pendingTransfer := none }

/-! ## The operations as one entry point -/

/-- The operations every consuming contract forwards to the library. -/
inductive Op where
  | grantRole (caller : Address) (role : Role) (grantee : Address)
  | revokeRole (caller : Address) (role : Role) (grantee : Address)
  | pause (caller : Address)
  | unpause (caller : Address)
  | proposeAdminTransfer (caller : Address) (newSigners : List Address) (newThreshold : UInt32)
  | confirmAdminTransfer (caller : Address)
  | executeAdminTransfer (caller : Address)
  | cancelAdminTransfer (caller : Address)
  deriving DecidableEq, Repr

/-- Forwarding an operation to the library. -/
def apply (env : Env) (st : Store) : Op → Result AcError Store
  | .grantRole caller role grantee => grantRole env st caller role grantee
  | .revokeRole caller role grantee => revokeRole env st caller role grantee
  | .pause caller => pause env st caller
  | .unpause caller => unpause env st caller
  | .proposeAdminTransfer caller newSigners newThreshold =>
    proposeAdminTransfer env st caller newSigners newThreshold
  | .confirmAdminTransfer caller => confirmAdminTransfer env st caller
  | .executeAdminTransfer caller => executeAdminTransfer env st caller
  | .cancelAdminTransfer caller => cancelAdminTransfer env st caller

/-- A call of the harness contract: the one-time setup or an operation. -/
inductive Call where
  | init (signers : List Address) (threshold timelock : UInt32)
  | op (o : Op)
  deriving DecidableEq, Repr

/-- The library behind its entry points. -/
def harness : Machine Store (Env × Call) (Trap AcError) Unit where
  init := .empty
  invoke i st :=
    match i.2 with
    | .init signers threshold timelock => do
      let st' ← init st signers threshold timelock
      pure ((), st')
    | .op o => do
      let st' ← apply i.1 st o
      pure ((), st')

/-- A step of the library's history. -/
abbrev HarnessStep := Step Store (Env × Call) (Trap AcError) Unit

/-! ## What each function does when it succeeds -/

section
variable {env : Env} {st st' : Store} {caller : Address}

/-- An address is a signer when the stored configuration lists it. -/
theorem isSigner_iff {a : Address} :
    isSigner st a = true ↔ ∃ cfg, st.multisig = some cfg ∧ a ∈ cfg.signers := by
  unfold isSigner
  cases st.multisig with
  | none => simp
  | some cfg => simp

/-- The loop finds a duplicate exactly in the lists that have one. -/
theorem hasDuplicate_eq_false_iff {l : List Address} : hasDuplicate l = false ↔ l.Nodup := by
  induction l with
  | nil => simp [hasDuplicate]
  | cons a rest ih => simp [hasDuplicate, ih]

/-- A well-formed signer set: some signers, no one twice, and a threshold that they can reach. -/
structure SignerSetOK (signers : List Address) (threshold : UInt32) : Prop where
  nonempty : signers ≠ []
  nodup : signers.Nodup
  pos : 1 ≤ threshold.toNat
  le : threshold.toNat ≤ signers.length

/-- The validation accepts exactly the well-formed signer sets. -/
@[simp] theorem validateSignerSet_eq_ok {signers : List Address} {threshold : UInt32} {u : Unit} :
    validateSignerSet signers threshold = .ok u ↔ SignerSetOK signers threshold := by
  have h0 : threshold = 0 ↔ threshold.toNat = 0 := by
    rw [← UInt32.toNat_inj]; rfl
  simp only [validateSignerSet, bind_eq_ok, rejectIf_eq_ok, not_or, exists_const, h0,
    Bool.not_eq_true, hasDuplicate_eq_false_iff]
  constructor
  · rintro ⟨⟨h1, h2, h3⟩, h4⟩
    exact ⟨h1, h4, by omega, by omega⟩
  · rintro ⟨h1, h2, h3, h4⟩
    exact ⟨⟨h1, by omega, by omega⟩, h2⟩

@[simp] theorem requireAdmin_eq_ok {u : Unit} :
    requireAdmin env st caller = .ok u ↔ caller ∈ env.auths ∧ isSigner st caller = true := by
  simp [requireAdmin]

@[simp] theorem requireRole_eq_ok {role : Role} {u : Unit} :
    requireRole env st role caller = .ok u ↔
      caller ∈ env.auths ∧ (isSigner st caller = true ∨ hasRole st role caller = true) := by
  simp only [requireRole, bind_eq_ok, requireAuth_eq_ok, rejectIf_eq_ok, not_not, exists_const]

@[simp] theorem requireNotPaused_eq_ok {u : Unit} :
    requireNotPaused st = .ok u ↔ isPaused st = false := by
  simp [requireNotPaused]

theorem init_eq_ok {signers : List Address} {threshold timelock : UInt32} :
    init st signers threshold timelock = .ok st' ↔
      st.multisig = none ∧ SignerSetOK signers threshold ∧
      minAdminTransferTimelockLedgers.toNat ≤ timelock.toNat ∧
      st' = { st with multisig := some ⟨signers, threshold⟩, timelockLedgers := some timelock,
                      paused := some false } := by
  simp [init, UInt32.le_iff_toNat_le]

theorem grantRole_eq_ok {role : Role} {grantee : Address} :
    grantRole env st caller role grantee = .ok st' ↔
      (caller ∈ env.auths ∧ isSigner st caller = true) ∧ role ≠ .admin ∧
      st' = st.setRole role grantee true := by
  simp [grantRole]

theorem revokeRole_eq_ok {role : Role} {grantee : Address} :
    revokeRole env st caller role grantee = .ok st' ↔
      (caller ∈ env.auths ∧ isSigner st caller = true) ∧
      st' = st.setRole role grantee false := by
  simp [revokeRole]

theorem pause_eq_ok :
    pause env st caller = .ok st' ↔
      (caller ∈ env.auths ∧ (isSigner st caller = true ∨ hasRole st .pauser caller = true)) ∧
      isPaused st = false ∧ st' = { st with paused := some true } := by
  simp [pause]

theorem unpause_eq_ok :
    unpause env st caller = .ok st' ↔
      (caller ∈ env.auths ∧ (isSigner st caller = true ∨ hasRole st .pauser caller = true)) ∧
      isPaused st = true ∧ st' = { st with paused := some false } := by
  simp [unpause]

theorem proposeAdminTransfer_eq_ok {newSigners : List Address} {newThreshold : UInt32} :
    proposeAdminTransfer env st caller newSigners newThreshold = .ok st' ↔
      (caller ∈ env.auths ∧ isSigner st caller = true) ∧ SignerSetOK newSigners newThreshold ∧
      st' = { st with
        pendingTransfer := some ⟨newSigners, newThreshold, env.sequence, [caller]⟩ } := by
  simp [proposeAdminTransfer]

theorem confirmAdminTransfer_eq_ok :
    confirmAdminTransfer env st caller = .ok st' ↔
      (caller ∈ env.auths ∧ isSigner st caller = true) ∧
      ∃ p, st.pendingTransfer = some p ∧ caller ∉ p.confirmations ∧
        st' = { st with
          pendingTransfer := some { p with confirmations := p.confirmations ++ [caller] } } := by
  simp [confirmAdminTransfer]

theorem executeAdminTransfer_eq_ok :
    executeAdminTransfer env st caller = .ok st' ↔
      (caller ∈ env.auths ∧ isSigner st caller = true) ∧
      ∃ p, st.pendingTransfer = some p ∧ ∃ cfg, st.multisig = some cfg ∧
        cfg.threshold.toNat ≤ p.confirmations.length ∧
        min (p.proposedAt.toNat + (timelockLedgers st).toNat) (2 ^ 32 - 1) ≤
          env.sequence.toNat ∧
        st' = { st with
          multisig := some ⟨p.newSigners, p.newThreshold⟩, pendingTransfer := none } := by
  simp [executeAdminTransfer, multisig, UInt32.le_iff_toNat_le]

theorem cancelAdminTransfer_eq_ok :
    cancelAdminTransfer env st caller = .ok st' ↔
      (caller ∈ env.auths ∧ isSigner st caller = true) ∧ (∃ p, st.pendingTransfer = some p) ∧
      st' = { st with pendingTransfer := none } := by
  simp [cancelAdminTransfer, Option.ne_none_iff_exists']

end

/-- No operation installs a first signer set or removes the last. -/
theorem multisig_iff_of_apply {env : Env} {st st' : Store} {o : Op}
    (h : apply env st o = .ok st') : st'.multisig = none ↔ st.multisig = none := by
  cases o with
  | grantRole caller role grantee => obtain ⟨-, -, rfl⟩ := grantRole_eq_ok.1 h; rfl
  | revokeRole caller role grantee => obtain ⟨-, rfl⟩ := revokeRole_eq_ok.1 h; rfl
  | pause caller => obtain ⟨-, -, rfl⟩ := pause_eq_ok.1 h; rfl
  | unpause caller => obtain ⟨-, -, rfl⟩ := unpause_eq_ok.1 h; rfl
  | proposeAdminTransfer caller ns nt =>
    obtain ⟨-, -, rfl⟩ := proposeAdminTransfer_eq_ok.1 h; rfl
  | confirmAdminTransfer caller =>
    obtain ⟨-, p, -, -, rfl⟩ := confirmAdminTransfer_eq_ok.1 h; rfl
  | executeAdminTransfer caller =>
    obtain ⟨-, p, -, cfg, hcfg, -, -, rfl⟩ := executeAdminTransfer_eq_ok.1 h; simp [hcfg]
  | cancelAdminTransfer caller => obtain ⟨-, -, rfl⟩ := cancelAdminTransfer_eq_ok.1 h; rfl

/-- No operation removes the signer set. -/
theorem multisig_of_apply {env : Env} {st st' : Store} {o : Op} (h : apply env st o = .ok st')
    (hm : st'.multisig = none) : st.multisig = none :=
  (multisig_iff_of_apply h).1 hm

/-- A successful call of the harness is a successful setup or a successful operation. -/
theorem harness_invoke_eq_ok {i : Env × Call} {st st' : Store} {u : Unit} :
    harness.invoke i st = .ok (u, st') ↔
      (∃ signers threshold timelock, i.2 = .init signers threshold timelock ∧
        init st signers threshold timelock = .ok st') ∨
      (∃ o, i.2 = .op o ∧ apply i.1 st o = .ok st') := by
  obtain ⟨env, c⟩ := i
  cases c with
  | init signers threshold timelock => simp [harness]
  | op o => simp [harness]

end AccessControl

end InvoiceFi
