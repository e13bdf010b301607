import InvoiceFi.Contracts.AccessControl.Authority
import InvoiceFi.Contracts.Invoice.Journal

/-!
# Who stands behind an invoice's status and token

A status other than `Pending` and an ownership token are the work of some call of the run, the last
that changed them (`Machine.last_change`). `status_by_authority` and `token_by_authority` say whose:
an invoice is `Funded`, and its token minted, by a caller who authorized the funding and was a
signer at that time or held the liquidity-manager role by a grant in the contract's own history; it
is `Settled` or `Defaulted` by an authorized signer; and the contract was not paused.
-/

namespace InvoiceFi

namespace Invoicing

open AccessControl (Granted)

/-- The status of an invoice, if it is on record. -/
def statusAt (s : Store) (n : UInt64) : Option Status := (s.invoice n).map (·.status)

/-- The guards of `fund` before it reads the invoice. -/
structure Manages (env : Env) (s : Store) (caller : Address) : Prop where
  authorized : caller ∈ env.auths
  role : AccessControl.isSigner s.ac caller = true ∨
    AccessControl.hasRole s.ac .liquidityManager caller = true
  running : AccessControl.isPaused s.ac = false

/-- The guards of `update_status` before it reads the invoice. -/
structure Administers (env : Env) (s : Store) (caller : Address) : Prop where
  authorized : caller ∈ env.auths
  signer : AccessControl.isSigner s.ac caller = true
  running : AccessControl.isPaused s.ac = false

section
variable {i : Env × Call} {s s' : Store} {r : Value} {n : UInt64}

/-- The statuses of a store in which one record was written. -/
theorem statusAt_update (s s' : Store) (n : UInt64) {m : UInt64} {inv : Invoice}
    (h : s'.invoice = Function.update s.invoice m (some inv)) :
    statusAt s' n = if n = m then some inv.status else statusAt s n := by
  simp only [statusAt, h]
  by_cases hn : n = m
  · subst hn
    simp
  · simp [hn]

/-- A transfer leaves every status alone. -/
theorem statusAt_doTransfer {inv : Invoice} {x y : Address} {m : UInt64}
    (hinv : s.invoice inv.id = some inv) (h : doTransfer s inv x y m = .ok s') :
    statusAt s' n = statusAt s n := by
  obtain ⟨-, -, hs'⟩ := doTransfer_eq_ok.1 h
  rw [statusAt_update s s' n (by rw [hs'])]
  split
  · next heq => rw [heq, statusAt, hinv, Option.map_some]
  · rfl

/-- What a successful call that changes a status is: a mint of the invoice, a funding of it by a
manager, or a change by an admin to a status past `Funded`. -/
theorem status_change (hs : Readable s) (h : invoiceContract.invoke i s = .ok (r, s'))
    (hne : statusAt s' n ≠ statusAt s n) :
    statusAt s' n = some .pending ∨
    (∃ caller rate, i.2 = .fund caller n rate ∧ statusAt s' n = some .funded ∧
      Manages i.1 s caller) ∨
    (∃ caller st, i.2 = .updateStatus caller n st ∧ statusAt s' n = some st ∧ st ≠ .funded ∧
      Administers i.1 s caller) := by
  obtain ⟨env, c⟩ := i
  cases c with
  | init sg th tl =>
    obtain ⟨_, h, heq⟩ := map_eq_ok.1 h
    cases heq
    obtain ⟨ac, -, rfl⟩ := init_eq_ok.1 h
    exact absurd rfl hne
  | mint owner amount crop due md =>
    obtain ⟨⟨m, s₁⟩, hmint, heq⟩ := map_eq_ok.1 h
    cases heq
    obtain ⟨-, -, -, -, -, hs'⟩ := mint_eq_ok.1 hmint
    have hst := statusAt_update s s₁ n (by rw [hs'])
    rw [hst] at hne ⊢
    split at hne
    · next heq => exact .inl (if_pos heq)
    · exact absurd rfl hne
  | fund c m d =>
    obtain ⟨_, h, heq⟩ := map_eq_ok.1 h
    cases heq
    obtain ⟨-, ⟨hauth, hrole⟩, hp, -, inv, hinv, -, hs'⟩ := fund_eq_ok.1 h
    obtain rfl := hs.id m inv hinv
    have hst := statusAt_update s s' n (by rw [hs'])
    rw [hst] at hne ⊢
    split at hne
    · next heq =>
      subst heq
      exact .inr (.inl ⟨c, d, rfl, if_pos rfl, hauth, hrole, hp⟩)
    · exact absurd rfl hne
  | approve o sp m =>
    obtain ⟨_, h, heq⟩ := map_eq_ok.1 h
    cases heq
    obtain ⟨-, -, inv, -, -, -, rfl⟩ := approve_eq_ok.1 h
    exact absurd rfl hne
  | transfer x y m =>
    obtain ⟨_, h, heq⟩ := map_eq_ok.1 h
    cases heq
    obtain ⟨-, -, inv, hinv, -, h⟩ := transfer_eq_ok.1 h
    obtain rfl := hs.id m inv hinv
    exact absurd (statusAt_doTransfer hinv h) hne
  | transferFrom sp x y m =>
    obtain ⟨_, h, heq⟩ := map_eq_ok.1 h
    cases heq
    obtain ⟨-, -, inv, hinv, -, -, -, h⟩ := transferFrom_eq_ok.1 h
    obtain rfl := hs.id m inv hinv
    exact absurd (statusAt_doTransfer hinv h) hne
  | updateStatus c m st =>
    obtain ⟨_, h, heq⟩ := map_eq_ok.1 h
    cases heq
    obtain ⟨-, ⟨hauth, hsig⟩, hp, inv, hinv, htr, hs'⟩ := updateStatus_eq_ok.1 h
    obtain rfl := hs.id m inv hinv
    have hst := statusAt_update s s' n (by rw [hs'])
    rw [hst] at hne ⊢
    split at hne
    · next heq =>
      subst heq
      exact .inr (.inr ⟨c, st, rfl, if_pos rfl, (ne_of_transitionAllowed htr).2, hauth, hsig, hp⟩)
    · exact absurd rfl hne
  | access o =>
    obtain ⟨_, h, heq⟩ := map_eq_ok.1 h
    cases heq
    obtain ⟨ac, -, rfl⟩ := access_eq_ok.1 h
    exact absurd rfl hne

/-- A successful call that changes a token is a funding of its invoice by a manager. -/
theorem token_change (h : invoiceContract.invoke i s = .ok (r, s'))
    (hne : s'.token n ≠ s.token n) :
    ∃ caller rate, i.2 = .fund caller n rate ∧ Manages i.1 s caller ∧
      ∃ inv, s.invoice n = some inv ∧ inv.status = .pending ∧
        s'.token n = some ⟨n, inv.amount, rate, inv.dueDate⟩ := by
  obtain ⟨env, c⟩ := i
  cases c with
  | init sg th tl =>
    obtain ⟨_, h, heq⟩ := map_eq_ok.1 h
    cases heq
    obtain ⟨ac, -, rfl⟩ := init_eq_ok.1 h
    exact absurd rfl hne
  | mint owner amount crop due md =>
    obtain ⟨⟨m, s₁⟩, hmint, heq⟩ := map_eq_ok.1 h
    cases heq
    obtain ⟨-, -, -, -, -, rfl⟩ := mint_eq_ok.1 hmint
    exact absurd rfl hne
  | fund c m d =>
    obtain ⟨_, h, heq⟩ := map_eq_ok.1 h
    cases heq
    obtain ⟨-, ⟨hauth, hrole⟩, hp, -, inv, hinv, hpend, rfl⟩ := fund_eq_ok.1 h
    by_cases hn : n = m
    · subst hn
      exact ⟨c, d, rfl, ⟨hauth, hrole, hp⟩, inv, hinv, hpend, Function.update_self _ _ _⟩
    · exact absurd (Function.update_of_ne hn _ _) hne
  | approve o sp m =>
    obtain ⟨_, h, heq⟩ := map_eq_ok.1 h
    cases heq
    obtain ⟨-, -, inv, -, -, -, rfl⟩ := approve_eq_ok.1 h
    exact absurd rfl hne
  | transfer x y m =>
    obtain ⟨_, h, heq⟩ := map_eq_ok.1 h
    cases heq
    obtain ⟨-, -, inv, -, -, h⟩ := transfer_eq_ok.1 h
    obtain ⟨-, -, rfl⟩ := doTransfer_eq_ok.1 h
    exact absurd rfl hne
  | transferFrom sp x y m =>
    obtain ⟨_, h, heq⟩ := map_eq_ok.1 h
    cases heq
    obtain ⟨-, -, inv, -, -, -, -, h⟩ := transferFrom_eq_ok.1 h
    obtain ⟨-, -, rfl⟩ := doTransfer_eq_ok.1 h
    exact absurd rfl hne
  | updateStatus c m st =>
    obtain ⟨_, h, heq⟩ := map_eq_ok.1 h
    cases heq
    obtain ⟨-, -, -, inv, -, -, rfl⟩ := updateStatus_eq_ok.1 h
    exact absurd rfl hne
  | access o =>
    obtain ⟨_, h, heq⟩ := map_eq_ok.1 h
    cases heq
    obtain ⟨ac, -, rfl⟩ := access_eq_ok.1 h
    exact absurd rfl hne

end

/-- After the run `is` the call `i` is a funding of the invoice `n` that its caller authorized, who
is a signer or was granted the liquidity-manager role by a signer of the time, not revoked since;
and the contract is not paused. -/
def FundedByManager (is : List (Env × Call)) (i : Env × Call) (n : UInt64) : Prop :=
  ∃ caller rate, i.2 = .fund caller n rate ∧ caller ∈ i.1.auths ∧
    AccessControl.isPaused (invoiceContract.exec invoiceContract.init is).ac = false ∧
    (AccessControl.isSigner (invoiceContract.exec invoiceContract.init is).ac caller = true ∨
      Granted embedding .liquidityManager caller (invoiceContract.trace invoiceContract.init is))

theorem Manages.fundedByManager {is : List (Env × Call)} {i : Env × Call} {n : UInt64}
    {caller : Address} {rate : UInt32} (hc : i.2 = .fund caller n rate)
    (h : Manages i.1 (invoiceContract.exec invoiceContract.init is) caller) :
    FundedByManager is i n :=
  ⟨caller, rate, hc, h.authorized, h.running,
    AccessControl.authority_of_requireRole (e := embedding) (by decide) h.role⟩

/-- A step that changes a part of the state is a successful call. -/
theorem invoke_of_change {α : Type} (q : Store → α) {i : Env × Call} {s : Store}
    (h : q (invoiceContract.step i s).post ≠ q s) :
    ∃ r, invoiceContract.invoke i s = .ok (r, (invoiceContract.step i s).post) := by
  rcases Machine.step_cases (m := invoiceContract) i s with ⟨r, s', hi, ht⟩ | ⟨e, -, ht⟩
  · rw [ht]
    exact ⟨r, hi⟩
  · rw [ht] at h
    exact absurd rfl h

/-- **Statuses and tokens come from authority.** After every run, a status other than `Pending` was
set by some call of the run: `Funded` by a funding of a manager, `Settled` and `Defaulted` by an
authorized signer while the contract was not paused. An ownership token was minted by a funding of
a manager, for the amount and the due date that the invoice had when it was pending. -/
theorem invoices_by_authority (is : List (Env × Call)) (n : UInt64) :
    (∀ st, statusAt (invoiceContract.exec invoiceContract.init is) n = some st → st ≠ .pending →
      ∃ is₁ i is₂, is = is₁ ++ i :: is₂ ∧
        ((st = .funded ∧ FundedByManager is₁ i n) ∨
          (st ≠ .funded ∧ ∃ caller, i.2 = .updateStatus caller n st ∧
            Administers i.1 (invoiceContract.exec invoiceContract.init is₁) caller))) ∧
    ∀ tok, (invoiceContract.exec invoiceContract.init is).token n = some tok →
      ∃ is₁ i is₂, is = is₁ ++ i :: is₂ ∧ FundedByManager is₁ i n ∧
        ∃ inv, (invoiceContract.exec invoiceContract.init is₁).invoice n = some inv ∧
          inv.status = .pending ∧ tok.invoiceId = n ∧ tok.faceValue = inv.amount ∧
          tok.dueDate = inv.dueDate := by
  refine ⟨fun st hst hne => ?_, fun tok htok => ?_⟩
  · have hinit : statusAt (invoiceContract.exec invoiceContract.init is) n ≠
        statusAt invoiceContract.init n := by
      rw [hst]
      exact Option.some_ne_none st
    obtain ⟨is₁, i, is₂, his, hch, hset⟩ := Machine.last_change (statusAt · n) hinit
    obtain ⟨r, hi⟩ := invoke_of_change (statusAt · n) hch
    simp only [hst] at hset
    refine ⟨is₁, i, is₂, his, ?_⟩
    rcases status_change (journal.inv_exec is₁) hi hch with hp | ⟨c, d, hc, hf, hm⟩ |
      ⟨c, st', hc, hf, hnf, hadm⟩
    · rw [hset] at hp
      exact absurd (Option.some.inj hp) hne
    · rw [hset] at hf
      exact .inl ⟨Option.some.inj hf, hm.fundedByManager hc⟩
    · rw [hset] at hf
      obtain rfl := Option.some.inj hf
      exact .inr ⟨hnf, c, hc, hadm⟩
  · have hinit : (invoiceContract.exec invoiceContract.init is).token n ≠
        invoiceContract.init.token n := by
      rw [htok]
      exact Option.some_ne_none tok
    obtain ⟨is₁, i, is₂, his, hch, hset⟩ := Machine.last_change (Store.token · n) hinit
    obtain ⟨r, hi⟩ := invoke_of_change (Store.token · n) hch
    simp only [htok] at hset
    obtain ⟨c, d, hc, hm, inv, hinv, hpend, htok'⟩ := token_change hi hch
    rw [hset] at htok'
    obtain rfl := Option.some.inj htok'
    exact ⟨is₁, i, is₂, his, hm.fundedByManager hc, inv, hinv, hpend, rfl, rfl, rfl⟩

end Invoicing

end InvoiceFi
