import InvoiceFi.Contracts.AccessControl

/-!
# Role queries and role guards

An operational role is one storage entry for each holder, set by `grant_role` and removed by
`revoke_role` and by nothing else, so after every run it says what the last of the two said
(`roleHolder_exec`). The guard `require_role` accepts the holders and the current signers
(`requireRole_iff_lastRoleChange`); the query `has_role` looks at the entry alone. The two agree
on whoever is not a signer and on the signers that were granted the role
(`roleQueriesAgree_iff`), and on no other signer.
-/

namespace InvoiceFi

namespace AccessControl

/-- What a step says about the role of `a`: a successful grant gives it and a successful revocation
takes it away. -/
def roleChange (role : Role) (a : Address) (t : HarnessStep) : Option Bool :=
  match t.input.2 with
  | .op (.grantRole _ r g) => if (r, g) = (role, a) ∧ t.Accepted then some true else none
  | .op (.revokeRole _ r g) => if (r, g) = (role, a) ∧ t.Accepted then some false else none
  | _ => none

/-- The last successful grant or revocation of the role of `a` in a history: whether it was a
grant. -/
def lastRoleChange (role : Role) (a : Address) (h : List HarnessStep) : Option Bool :=
  Machine.latest (roleChange role a) h

/-- A reverted call changes no role. -/
theorem roleChange_rejected {role : Role} {a : Address} {t : HarnessStep} (ht : ¬ t.Accepted) :
    roleChange role a t = none := by
  unfold roleChange
  split
  · rw [if_neg fun h => ht h.2]
  · rw [if_neg fun h => ht h.2]
  · rfl

/-- The entry of `a` after a grant or a revocation. -/
theorem setRole_roleHolder (st : Store) (r role : Role) (g a : Address) (held : Bool) :
    (st.setRole r g held).roleHolder role a =
      if (r, g) = (role, a) then held else st.roleHolder role a := by
  simp only [Store.setRole, Prod.mk.injEq, eq_comm]

/-- What a successful call does to a role entry. -/
theorem roleHolder_of_invoke {i : Env × Call} {st st' : Store} {u : Unit}
    (h : harness.invoke i st = .ok (u, st')) (role : Role) (a : Address) :
    st'.roleHolder role a =
      (roleChange role a ⟨st, i, .ok u, st'⟩).getD (st.roleHolder role a) := by
  have hacc : (⟨st, i, .ok u, st'⟩ : HarnessStep).Accepted := rfl
  rcases harness_invoke_eq_ok.1 h with ⟨sg, th, tl, hc, h⟩ | ⟨o, hc, h⟩
  · obtain ⟨-, -, -, rfl⟩ := init_eq_ok.1 h
    simp [roleChange, hc]
  · cases o with
    | grantRole caller r g =>
      obtain ⟨-, -, rfl⟩ := grantRole_eq_ok.1 h
      rw [setRole_roleHolder]
      by_cases hrg : (r, g) = (role, a)
      · simp [roleChange, hc, hrg, hacc]
      · simp [roleChange, hc, hrg]
    | revokeRole caller r g =>
      obtain ⟨-, rfl⟩ := revokeRole_eq_ok.1 h
      rw [setRole_roleHolder]
      by_cases hrg : (r, g) = (role, a)
      · simp [roleChange, hc, hrg, hacc]
      · simp [roleChange, hc, hrg]
    | pause caller => obtain ⟨-, -, rfl⟩ := pause_eq_ok.1 h; simp [roleChange, hc]
    | unpause caller => obtain ⟨-, -, rfl⟩ := unpause_eq_ok.1 h; simp [roleChange, hc]
    | proposeAdminTransfer caller ns nt =>
      obtain ⟨-, -, rfl⟩ := proposeAdminTransfer_eq_ok.1 h; simp [roleChange, hc]
    | confirmAdminTransfer caller =>
      obtain ⟨-, p, -, -, rfl⟩ := confirmAdminTransfer_eq_ok.1 h; simp [roleChange, hc]
    | executeAdminTransfer caller =>
      obtain ⟨-, p, -, cfg, -, -, -, rfl⟩ := executeAdminTransfer_eq_ok.1 h; simp [roleChange, hc]
    | cancelAdminTransfer caller =>
      obtain ⟨-, -, rfl⟩ := cancelAdminTransfer_eq_ok.1 h; simp [roleChange, hc]

/-- After every run a role is held by whom it was granted last. -/
theorem roleHolder_exec (is : List (Env × Call)) (role : Role) (a : Address) :
    (harness.exec harness.init is).roleHolder role a = true ↔
      lastRoleChange role a (harness.trace harness.init is) = some true := by
  have h := Machine.latest_exec (m := harness) (q := fun st => st.roleHolder role a)
    (fun i st u st' hi => roleHolder_of_invoke hi role a)
    (fun i st e => roleChange_rejected Bool.false_ne_true) harness.init is
  rw [h, lastRoleChange]
  cases Machine.latest (roleChange role a) (harness.trace harness.init is) with
  | none => exact ⟨fun hf => absurd hf Bool.false_ne_true, nofun⟩
  | some held => simp

/-- The query of an operational role reads its entry. -/
theorem hasRole_of_ne_admin {st : Store} {role : Role} (hrole : role ≠ .admin) (a : Address) :
    hasRole st role a = st.roleHolder role a := by
  cases role with
  | admin => exact absurd rfl hrole
  | oracleWriter | pauser | liquidityManager => rfl

/-- The guard accepts an address that authorizes the call exactly when it is a current signer or
was last granted the role. -/
theorem requireRole_iff_lastRoleChange (is : List (Env × Call)) {env : Env} {role : Role}
    {a : Address} (hrole : role ≠ .admin) (ha : a ∈ env.auths) :
    requireRole env (harness.exec harness.init is) role a = .ok () ↔
      isSigner (harness.exec harness.init is) a = true ∨
        lastRoleChange role a (harness.trace harness.init is) = some true := by
  rw [requireRole_eq_ok, hasRole_of_ne_admin hrole, roleHolder_exec]
  exact ⟨fun h => h.2, fun h => ⟨ha, h⟩⟩

/-- The query and the guard agree on an operational role of `a` after the run, and both say that
`a` is a current signer or was last granted the role. -/
def RoleQueriesAgree (is : List (Env × Call)) (role : Role) (a : Address) : Prop :=
  (∀ env : Env, a ∈ env.auths →
    (requireRole env (harness.exec harness.init is) role a = .ok () ↔
      hasRole (harness.exec harness.init is) role a = true)) ∧
  (hasRole (harness.exec harness.init is) role a = true ↔
    isSigner (harness.exec harness.init is) a = true ∨
      lastRoleChange role a (harness.trace harness.init is) = some true)

/-- **Queries and guards agree except on signers without a grant.** After every run, for every
operational role and every address, the two agree and say what the history says exactly when the
address is no current signer or the role's last change was a grant to it. -/
theorem roleQueriesAgree_iff (is : List (Env × Call)) {role : Role} (hrole : role ≠ .admin)
    (a : Address) :
    RoleQueriesAgree is role a ↔
      (isSigner (harness.exec harness.init is) a = true →
        lastRoleChange role a (harness.trace harness.init is) = some true) := by
  have hquery : hasRole (harness.exec harness.init is) role a = true ↔
      lastRoleChange role a (harness.trace harness.init is) = some true := by
    rw [hasRole_of_ne_admin hrole, roleHolder_exec]
  constructor
  · intro hagree hsigner
    exact hquery.1 (hagree.2.2 (.inl hsigner))
  · intro hcond
    -- under the condition being a signer adds nothing to the grant
    have hor : isSigner (harness.exec harness.init is) a = true ∨
        lastRoleChange role a (harness.trace harness.init is) = some true ↔
          lastRoleChange role a (harness.trace harness.init is) = some true :=
      ⟨fun h => h.elim hcond id, .inr⟩
    refine ⟨fun env ha => ?_, hquery.trans hor.symm⟩
    rw [requireRole_iff_lastRoleChange is hrole ha, hor, hquery]

/-- A run that sets up the signer `⟨1⟩`, which grants the pauser role to the address `⟨2⟩`. -/
def grantedRun : List (Env × Call) :=
  [(⟨0, 0, [⟨1⟩]⟩, .init [⟨1⟩] 1 34560),
   (⟨1, 0, [⟨1⟩]⟩, .op (.grantRole ⟨1⟩ .pauser ⟨2⟩))]

/-- The query and the guard agree on the address that was granted the role. -/
theorem roleQueriesAgree_granted :
    Role.pauser ≠ .admin ∧ RoleQueriesAgree grantedRun .pauser ⟨2⟩ :=
  ⟨by decide, (roleQueriesAgree_iff grantedRun (by decide) ⟨2⟩).2 fun h =>
    absurd h (by decide)⟩

/-- A signer that was granted nothing passes the guard of every operational role, and the query
denies it: the two do not agree after the setup. -/
theorem signer_without_grant_denied :
    ¬ ∀ (is : List (Env × Call)) (role : Role) (a : Address), role ≠ .admin →
      RoleQueriesAgree is role a := by
  intro h
  have hsigner : isSigner (harness.exec harness.init (grantedRun.take 1)) ⟨1⟩ = true := by decide
  have hquery := (h (grantedRun.take 1) .pauser ⟨1⟩ (by decide)).2.2 (.inl hsigner)
  exact absurd hquery (by decide)

end AccessControl

end InvoiceFi
