import InvoiceFi.Contracts.AccessControl

/-!
# Pausing

The pause flag is one field of the library's storage. Before the setup nobody can set it, since
nobody is a signer or holds a role (`Store.Untouched`), and once it is set only an `unpause`
clears it (`isPaused_of_invoke`).

A contract that embeds the library is paused between a successful pause and the next successful
unpause (`WhilePaused`): there the flag is set and the setup is over (`WhilePaused.paused`),
whatever else the run does. `Freezes` says what such a contract is expected to do then.
-/

namespace InvoiceFi

namespace AccessControl

/-- Before the setup nothing is paused and no role is held. -/
def Store.Untouched (st : Store) : Prop :=
  st.multisig = none → isPaused st = false ∧ ∀ role a, st.roleHolder role a = false

/-- A call that changes the storage in any other way than the setup finds a signer set. -/
theorem multisig_of_role {st : Store} (hst : st.Untouched) {role : Role} {a : Address}
    (h : isSigner st a = true ∨ hasRole st role a = true) : st.multisig ≠ none := by
  intro hm
  have hsig : isSigner st a = false := by rw [isSigner, hm]
  rcases h with h | h
  · exact Bool.false_ne_true (hsig.symm.trans h)
  · cases role with
    | admin => exact Bool.false_ne_true (hsig.symm.trans h)
    | oracleWriter | pauser | liquidityManager =>
      exact Bool.false_ne_true (((hst hm).2 _ a).symm.trans h)

/-- The caller of an operation. -/
def Op.caller : Op → Address
  | .grantRole c _ _ | .revokeRole c _ _ | .pause c | .unpause c | .proposeAdminTransfer c _ _
  | .confirmAdminTransfer c | .executeAdminTransfer c | .cancelAdminTransfer c => c

/-- A successful operation has a caller with some authority. -/
theorem role_of_apply {env : Env} {st st' : Store} {o : Op} (h : apply env st o = .ok st') :
    isSigner st o.caller = true ∨ hasRole st .pauser o.caller = true := by
  cases o with
  | grantRole c role g => exact .inl (grantRole_eq_ok.1 h).1.2
  | revokeRole c role g => exact .inl (revokeRole_eq_ok.1 h).1.2
  | pause c => exact (pause_eq_ok.1 h).1.2
  | unpause c => exact (unpause_eq_ok.1 h).1.2
  | proposeAdminTransfer c ns nt => exact .inl (proposeAdminTransfer_eq_ok.1 h).1.2
  | confirmAdminTransfer c => exact .inl (confirmAdminTransfer_eq_ok.1 h).1.2
  | executeAdminTransfer c => exact .inl (executeAdminTransfer_eq_ok.1 h).1.2
  | cancelAdminTransfer c => exact .inl (cancelAdminTransfer_eq_ok.1 h).1.2

/-- No call touches the storage before the setup. -/
theorem Store.Untouched.step {i : Env × Call} {st st' : Store} {u : Unit} (hst : st.Untouched)
    (h : harness.invoke i st = .ok (u, st')) : st'.Untouched := by
  rcases harness_invoke_eq_ok.1 h with ⟨sg, th, tl, -, hinit⟩ | ⟨o, -, ho⟩
  · obtain ⟨-, -, -, rfl⟩ := init_eq_ok.1 hinit
    exact fun hm => nomatch hm
  · intro hm
    exact absurd (multisig_of_apply ho hm) (multisig_of_role hst (role_of_apply ho))

theorem Store.Untouched.empty : Store.empty.Untouched := fun _ => ⟨rfl, fun _ _ => rfl⟩

/-- Only an unpause clears the flag after the setup. -/
theorem isPaused_of_invoke {i : Env × Call} {st st' : Store} {u : Unit}
    (h : harness.invoke i st = .ok (u, st')) (hm : st.multisig ≠ none)
    (hp : isPaused st = true) (hi : ∀ c, i.2 ≠ .op (.unpause c)) :
    isPaused st' = true ∧ st'.multisig ≠ none := by
  rcases harness_invoke_eq_ok.1 h with ⟨sg, th, tl, -, hinit⟩ | ⟨o, ho, happ⟩
  · exact absurd (init_eq_ok.1 hinit).1 hm
  · refine ⟨?_, fun hm' => hm (multisig_of_apply happ hm')⟩
    cases o with
    | grantRole c role g => obtain ⟨-, -, rfl⟩ := grantRole_eq_ok.1 happ; exact hp
    | revokeRole c role g => obtain ⟨-, rfl⟩ := revokeRole_eq_ok.1 happ; exact hp
    | pause c => obtain ⟨-, -, rfl⟩ := pause_eq_ok.1 happ; rfl
    | unpause c => exact absurd ho (hi c)
    | proposeAdminTransfer c ns nt =>
      obtain ⟨-, -, rfl⟩ := proposeAdminTransfer_eq_ok.1 happ; exact hp
    | confirmAdminTransfer c =>
      obtain ⟨-, p, -, -, rfl⟩ := confirmAdminTransfer_eq_ok.1 happ; exact hp
    | executeAdminTransfer c =>
      obtain ⟨-, p, -, cfg, -, -, -, rfl⟩ := executeAdminTransfer_eq_ok.1 happ; exact hp
    | cancelAdminTransfer c => obtain ⟨-, -, rfl⟩ := cancelAdminTransfer_eq_ok.1 happ; exact hp

/-- What asks for a contract that runs fails on a paused one. -/
theorem not_running {st : Store} (hp : isPaused st = true) : isPaused st ≠ false := by
  rw [hp]
  exact Bool.noConfusion

/-! ## Contracts that embed the library -/

section
variable {σ ι ε ρ : Type} {m : Machine σ ι ε ρ} (e : Machine.Embedding m harness)

/-- The step is a successful pause. -/
def Pauses (t : Step σ ι ε ρ) : Prop :=
  t.Accepted ∧ ∃ env c, e.forward t.input = some (env, .op (.pause c))

/-- The step is a successful unpause. -/
def Unpauses (t : Step σ ι ε ρ) : Prop :=
  t.Accepted ∧ ∃ env c, e.forward t.input = some (env, .op (.unpause c))

/-- The step comes after a successful pause of a run, with no successful unpause in between. -/
def WhilePaused (t : Step σ ι ε ρ) : Prop :=
  ∃ is₁ p is₂ i, Pauses e (m.step p (m.exec m.init is₁)) ∧
    (∀ u ∈ m.trace (m.exec m.init (is₁ ++ [p])) is₂, ¬ Unpauses e u) ∧
    t = m.step i (m.exec m.init (is₁ ++ p :: is₂))

/-- The contract keeps `Kept` of every step made while it is paused by an address that is not a
current signer; `caller` says who makes a call, where it says it. -/
def Freezes (caller : ι → Option Address) (Kept : Step σ ι ε ρ → Prop) : Prop :=
  ∀ t, WhilePaused e t → (∀ a, caller t.input = some a → isSigner (e.part t.pre) a = false) →
    Kept t

variable {e}

/-- A successful pause leaves the contract paused and finds it set up. -/
theorem Pauses.paused {is : List ι} {p : ι} (h : Pauses e (m.step p (m.exec m.init is))) :
    isPaused (e.part (m.exec m.init (is ++ [p]))) = true ∧
      (e.part (m.exec m.init (is ++ [p]))).multisig ≠ none := by
  obtain ⟨hacc, env, c, hf⟩ := h
  rw [Machine.step_input] at hf
  obtain ⟨r, s', hp⟩ := Machine.step_accepted_iff.1 hacc
  obtain ⟨u, hp'⟩ := e.forwarded hp hf
  rw [Machine.exec_concat, Machine.step_of_ok hp]
  have huntouched := e.invariant (I := Store.Untouched) .empty (fun _ _ _ _ h hi => h.step hi) is
  rcases harness_invoke_eq_ok.1 hp' with ⟨_, _, _, hc, -⟩ | ⟨o, hc, ho⟩
  · cases hc
  · cases hc
    refine ⟨?_, fun hm => ?_⟩
    · obtain ⟨-, -, hs'⟩ := pause_eq_ok.1 ho
      rw [hs']
      rfl
    · exact multisig_of_role huntouched (role_of_apply ho) (multisig_of_apply ho hm)

/-- A step made while the contract is paused finds the flag set and the setup over. -/
theorem WhilePaused.paused {t : Step σ ι ε ρ} (ht : WhilePaused e t) :
    isPaused (e.part t.pre) = true ∧ (e.part t.pre).multisig ≠ none := by
  obtain ⟨is₁, p, is₂, i, hp, hun, rfl⟩ := ht
  rw [Machine.step_pre, show is₁ ++ p :: is₂ = is₁ ++ [p] ++ is₂ by simp, Machine.exec_append]
  refine Machine.invariant_of (C := fun u => ¬ Unpauses e u)
    (I := fun s => isPaused (e.part s) = true ∧ (e.part s).multisig ≠ none) hp.paused ?_ hun
  intro j s r s' hs hC hj
  cases hf : e.forward j with
  | none =>
    rw [e.kept hj hf]
    exact hs
  | some k =>
    obtain ⟨u, hk⟩ := e.forwarded hj hf
    refine isPaused_of_invoke hk hs.2 hs.1 fun c hc => hC ⟨rfl, k.1, c, ?_⟩
    rw [hf, ← hc]

/-- A contract freezes what every successful call keeps while it is paused and set up. -/
theorem Freezes.of_invoke {caller : ι → Option Address} {Kept : Step σ ι ε ρ → Prop}
    (hrej : ∀ s i x, Kept ⟨s, i, .error x, s⟩)
    (hok : ∀ s i r s', m.invoke i s = .ok (r, s') → isPaused (e.part s) = true →
      (e.part s).multisig ≠ none →
      (∀ a, caller i = some a → isSigner (e.part s) a = false) → Kept ⟨s, i, .ok r, s'⟩) :
    Freezes e caller Kept := by
  intro t ht hcaller
  obtain ⟨hp, hm⟩ := ht.paused
  obtain ⟨is₁, p, is₂, i, -, -, rfl⟩ := ht
  rcases Machine.step_cases (m := m) i (m.exec m.init (is₁ ++ p :: is₂)) with
    ⟨r, s', hi, heq⟩ | ⟨x, -, heq⟩
  · rw [heq] at hp hm hcaller ⊢
    exact hok _ _ _ _ hi hp hm hcaller
  · rw [heq]
    exact hrej _ _ _

end

end AccessControl

end InvoiceFi
