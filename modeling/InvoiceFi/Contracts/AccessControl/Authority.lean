import InvoiceFi.Contracts.AccessControl.Roles

/-!
# Where a contract's roles come from

A contract that embeds the access-control library (`Machine.Embedding`) forwards its role calls to
it, and its guards read the roles that these calls left. `granted_of_roleHolder` traces a role back
through the contract's own history: whoever holds an operational role was granted it by an
authorized signer of the time, and nobody has revoked it since.
-/

namespace InvoiceFi

namespace AccessControl

variable {σ ι ε ρ : Type} {m : Machine σ ι ε ρ} (e : Machine.Embedding m harness)

/-- The access-control call that a step of the contract has passed on, if it was accepted. -/
def forwarded (t : Step σ ι ε ρ) : Option (Env × Call) :=
  if t.Accepted then e.forward t.input else none

/-- What a step of the contract says about the role of `a`. -/
def contractRoleChange (role : Role) (a : Address) (t : Step σ ι ε ρ) : Option Bool :=
  match forwarded e t with
  | some (_, .op (.grantRole _ r g)) => if (r, g) = (role, a) then some true else none
  | some (_, .op (.revokeRole _ r g)) => if (r, g) = (role, a) then some false else none
  | _ => none

/-- In the history of the contract a signer of the time granted the role to `a` and authorized it,
and nobody has revoked it since. -/
def Granted (role : Role) (a : Address) (h : List (Step σ ι ε ρ)) : Prop :=
  ∃ h₁ t h₂, h = h₁ ++ t :: h₂ ∧
    (∃ env admin, forwarded e t = some (env, .op (.grantRole admin role a)) ∧
      admin ∈ env.auths ∧ isSigner (e.part t.pre) admin = true) ∧
    ∀ u ∈ h₂, ∀ env admin, forwarded e u ≠ some (env, .op (.revokeRole admin role a))

variable {e}

/-- A step whose change of the role of `a` is a grant passed on that grant. -/
theorem grant_of_change {role : Role} {a : Address} {t : Step σ ι ε ρ}
    (h : contractRoleChange e role a t = some true) :
    ∃ env admin, forwarded e t = some (env, .op (.grantRole admin role a)) := by
  unfold contractRoleChange at h
  split at h
  · next env admin r g hf =>
    split at h
    · next heq =>
      obtain ⟨rfl, rfl⟩ := Prod.mk.inj heq
      exact ⟨env, admin, hf⟩
    · cases h
  · next env admin r g hf =>
    split at h
    · cases h
    · cases h
  · cases h

/-- What a successful call of the contract does to a role entry. -/
theorem roleHolder_of_forwarded {i : ι} {s s' : σ} {r : ρ} (hi : m.invoke i s = .ok (r, s'))
    (role : Role) (a : Address) :
    (e.part s').roleHolder role a =
      (contractRoleChange e role a ⟨s, i, .ok r, s'⟩).getD ((e.part s).roleHolder role a) := by
  have hacc : (⟨s, i, .ok r, s'⟩ : Step σ ι ε ρ).Accepted := rfl
  cases hf : e.forward i with
  | none =>
    have hch : contractRoleChange e role a ⟨s, i, .ok r, s'⟩ = none := by
      simp only [contractRoleChange, forwarded, hacc, if_true, hf]
    rw [hch, e.kept hi hf, Option.getD_none]
  | some k =>
    obtain ⟨u, hk⟩ := e.forwarded hi hf
    have hch : contractRoleChange e role a ⟨s, i, .ok r, s'⟩ =
        roleChange role a ⟨e.part s, k, .ok u, e.part s'⟩ := by
      have hacc' : (⟨e.part s, k, .ok u, e.part s'⟩ : HarnessStep).Accepted := rfl
      obtain ⟨env, c⟩ := k
      simp only [contractRoleChange, roleChange, forwarded, hacc, hacc', if_true, hf, and_true]
      cases c with
      | init sg th tl => rfl
      | op o => cases o <;> rfl
    rw [hch]
    exact roleHolder_of_invoke hk role a

/-- After every run of the contract, a role that is held was granted and not revoked since. -/
theorem granted_of_roleHolder {is : List ι} {role : Role} {a : Address}
    (h : (e.part (m.exec m.init is)).roleHolder role a = true) :
    Granted e role a (m.trace m.init is) := by
  have hlast := Machine.latest_exec (m := m) (q := fun s => (e.part s).roleHolder role a)
    (w := contractRoleChange e role a) (fun i s r s' hi => roleHolder_of_forwarded hi role a)
    (fun i s err => by simp [contractRoleChange, forwarded, Step.Accepted, Except.isOk,
      Except.toBool]) m.init is
  have h0 : (e.part m.init).roleHolder role a = false := by
    rw [e.init]
    rfl
  rw [h, h0] at hlast
  obtain ⟨held, hheld⟩ : ∃ held, Machine.latest (contractRoleChange e role a)
      (m.trace m.init is) = some held := by
    cases hl : Machine.latest (contractRoleChange e role a) (m.trace m.init is) with
    | none => rw [hl] at hlast; cases hlast
    | some held => exact ⟨held, rfl⟩
  rw [hheld, Option.getD_some] at hlast
  subst hlast
  obtain ⟨h₁, t, h₂, hsplit, ht, hafter⟩ := Machine.latest_eq_some hheld
  obtain ⟨env, admin, hf⟩ := grant_of_change ht
  refine ⟨h₁, t, h₂, hsplit, ⟨env, admin, hf, ?_⟩, fun u hu env' admin' hrev => ?_⟩
  · -- the step was accepted, so the library accepted the grant it passed on
    have hmem : t ∈ m.trace m.init is := by
      rw [hsplit]
      exact List.mem_append_right _ (.head _)
    unfold forwarded at hf
    split at hf
    · next hacc =>
      obtain ⟨r, hi⟩ := Machine.invoke_of_mem_trace hmem hacc
      obtain ⟨u, hk⟩ := e.forwarded hi hf
      rcases harness_invoke_eq_ok.1 hk with ⟨sg, th, tl, hc, -⟩ | ⟨o, hc, hgrant⟩
      · cases hc
      · cases hc
        exact (grantRole_eq_ok.1 hgrant).1
    · cases hf
  · have hnone := hafter u hu
    simp only [contractRoleChange, hrev, if_true] at hnone
    cases hnone

/-- The guard of an operational role accepts only an authorized signer or an authorized address to
which the contract's history grants the role. -/
theorem authority_of_requireRole {is : List ι} {role : Role} (hrole : role ≠ .admin)
    {a : Address} (h : isSigner (e.part (m.exec m.init is)) a = true ∨
      hasRole (e.part (m.exec m.init is)) role a = true) :
    isSigner (e.part (m.exec m.init is)) a = true ∨ Granted e role a (m.trace m.init is) := by
  rcases h with h | h
  · exact .inl h
  · rw [hasRole_of_ne_admin hrole] at h
    exact .inr (granted_of_roleHolder h)

end AccessControl

end InvoiceFi
