import InvoiceFi.Contracts.Invoice.Ids

/-!
# Ownership

The approval of an invoice is one slot that successive owners share. `ApprovalBacked` reads what is
in it off the history: an accepted `approve` by the present owner, given as owner, with no transfer
and no change of owner since (`FreshApproval`). Every step keeps that, because every change of
owner clears the slot, and so the consent behind a `transfer_from` is always the present owner's
own (`ownership_by_consent`).

A mint that wraps the id counter breaks it: it overwrites the record of an id in use, and the
invoice has a new owner without a transfer (`owner_overwritten`).
-/

namespace InvoiceFi

namespace Invoicing

/-! ## Owner changes and approvals -/

/-- The step changed the owner of the invoice from `x` to `y`. -/
def OwnerChanges (t : InvoiceStep) (n : UInt64) (x y : Address) : Prop :=
  ∃ inv inv', t.pre.invoice n = some inv ∧ t.post.invoice n = some inv' ∧
    inv.owner = x ∧ inv'.owner = y ∧ x ≠ y

/-- The step is a successful `transfer` or `transfer_from` of the invoice. -/
def Transfers (n : UInt64) (t : InvoiceStep) : Prop :=
  t.Accepted ∧ ((∃ x y, t.input.2 = .transfer x y n) ∨
    ∃ spender x y, t.input.2 = .transferFrom spender x y n)

/-- The step is a successful `approve` of the spender by `x`, who authorized it as the owner of
the invoice. -/
def Approves (n : UInt64) (x spender : Address) (t : InvoiceStep) : Prop :=
  t.Accepted ∧ t.input.2 = .approve x spender n ∧ x ∈ t.input.1.auths ∧
    ∃ inv, t.pre.invoice n = some inv ∧ inv.owner = x

/-- The history has an approval of the spender by the owner `x`, and since then no transfer of the
invoice and no change of its owner. -/
def FreshApproval (n : UInt64) (x spender : Address) (h : List InvoiceStep) : Prop :=
  ∃ h₁ a h₂, h = h₁ ++ a :: h₂ ∧ Approves n x spender a ∧
    ∀ u ∈ h₂, ¬ Transfers n u ∧ ∀ y z, ¬ OwnerChanges u n y z

/-- A step that neither transfers the invoice nor changes its owner keeps an approval fresh. -/
theorem FreshApproval.concat {n : UInt64} {x spender : Address} {h : List InvoiceStep}
    (hf : FreshApproval n x spender h) {t : InvoiceStep} (ht : ¬ Transfers n t)
    (hc : ∀ y z, ¬ OwnerChanges t n y z) : FreshApproval n x spender (h ++ [t]) := by
  obtain ⟨h₁, a, h₂, rfl, ha, hsince⟩ := hf
  refine ⟨h₁, a, h₂ ++ [t], by rw [List.append_assoc, List.cons_append], ha, fun u hu => ?_⟩
  rcases List.mem_append.1 hu with hu | hu
  · exact hsince u hu
  · rw [List.mem_singleton.1 hu]
    exact ⟨ht, hc⟩

/-- A fresh approval was given after every transfer of the history. -/
theorem FreshApproval.after {n : UInt64} {x spender : Address} {h₁ h₂ : List InvoiceStep}
    {t : InvoiceStep} (hf : FreshApproval n x spender (h₁ ++ t :: h₂)) (ht : Transfers n t) :
    ∃ a ∈ h₂, Approves n x spender a := by
  obtain ⟨g₁, a, g₂, heq, ha, hsince⟩ := hf
  -- the approval is not the transfer itself
  have hne : t ≠ a := by
    rintro rfl
    rcases ht.2 with ⟨y, z, hc⟩ | ⟨sp, y, z, hc⟩
    · exact nomatch ha.2.1.symm.trans hc
    · exact nomatch ha.2.1.symm.trans hc
  rcases List.append_eq_append_iff.1 heq with ⟨c, rfl, hc⟩ | ⟨c, rfl, hc⟩
  · cases c with
    | nil =>
      cases hc
      exact absurd rfl hne
    | cons b c =>
      cases hc
      exact ⟨a, List.mem_append_right _ (.head _), ha⟩
  · cases c with
    | nil =>
      cases hc
      exact absurd rfl hne
    | cons b c =>
      cases hc
      exact absurd ht (hsince t (List.mem_append_right _ (.head _))).1

/-! ## One step -/

section
variable {t : InvoiceStep} {n : UInt64} {e e' : Entry}

/-- A step that changes the owner is a transfer by the owner, or by the spender in the approval
slot, of an invoice that is not settled; it empties the slot. -/
theorem EntryStep.owner_change (h : EntryStep t n e e') {inv inv' : Invoice}
    (hinv : e.invoice = some inv) (hinv' : e'.invoice = some inv')
    (hne : inv.owner ≠ inv'.owner) :
    ((t.input.2 = .transfer inv.owner inv'.owner n ∧ inv.owner ∈ t.input.1.auths) ∨
      ∃ sp, t.input.2 = .transferFrom sp inv.owner inv'.owner n ∧ sp ∈ t.input.1.auths ∧
        e.approval = some sp) ∧
    t.Accepted ∧ e'.approval = none ∧ inv.status ≠ .settled := by
  have hsame : ∀ {i : Invoice}, e.invoice = some i → i = inv :=
    fun h => Option.some.inj (h.symm.trans hinv)
  cases h with
  | idle _ | approve _ _ _ _ _ =>
    cases hsame hinv'
    exact absurd rfl hne
  | mint hacc hc hid hnone hpos =>
    rw [hnone] at hinv
    cases hinv
  | fund hacc hc hpre hst hd =>
    cases hsame hpre
    cases hinv'
    exact absurd rfl hne
  | transfer hacc hc hauth hpre hneq hst =>
    cases hsame hpre
    cases hinv'
    exact ⟨.inl ⟨hc, hauth⟩, hacc, rfl, hst⟩
  | transferFrom hacc hc hauth hpre happ hneq hst =>
    cases hsame hpre
    cases hinv'
    exact ⟨.inr ⟨_, hc, hauth, happ⟩, hacc, rfl, hst⟩
  | updateStatus hacc hc hpre hst =>
    cases hsame hpre
    cases hinv'
    exact absurd rfl hne

/-- A call of another entry point transfers nothing. -/
theorem not_transfers {c : Call} (hc : t.input.2 = c) (h1 : ∀ x y, c ≠ .transfer x y n)
    (h2 : ∀ sp x y, c ≠ .transferFrom sp x y n) : ¬ Transfers n t := by
  rintro ⟨-, ⟨x, y, hc'⟩ | ⟨sp, x, y, hc'⟩⟩
  · exact h1 x y (hc.symm.trans hc')
  · exact h2 sp x y (hc.symm.trans hc')

/-- What a step does to the approval slot: a transfer empties it, an `approve` of the owner fills
it, and every other step leaves the slot and the owner alone. -/
theorem EntryStep.approval_cases (h : EntryStep t n e e') :
    e'.approval = none ∨
    (¬ Transfers n t ∧ ∃ inv spender, e.invoice = some inv ∧ e'.invoice = some inv ∧
      e'.approval = some spender ∧ t.Accepted ∧ t.input.2 = .approve inv.owner spender n ∧
      inv.owner ∈ t.input.1.auths) ∨
    (¬ Transfers n t ∧ e'.approval = e.approval ∧
      ∀ inv, e.invoice = some inv → ∃ inv', e'.invoice = some inv' ∧ inv'.owner = inv.owner) := by
  cases h with
  | idle ht =>
    refine .inr (.inr ⟨?_, rfl, fun inv hinv => ⟨inv, hinv, rfl⟩⟩)
    rintro ⟨hacc, ⟨x, y, hc⟩ | ⟨sp, x, y, hc⟩⟩
    · exact ht hacc (by rw [hc]; rfl)
    · exact ht hacc (by rw [hc]; rfl)
  | mint hacc hc hid hnone hpos =>
    refine .inr (.inr ⟨not_transfers hc nofun nofun, rfl, fun inv hinv => ?_⟩)
    rw [hnone] at hinv
    cases hinv
  | fund hacc hc hpre hst hd =>
    refine .inr (.inr ⟨not_transfers hc nofun nofun, rfl, fun inv hinv => ?_⟩)
    rw [hpre] at hinv
    cases hinv
    exact ⟨_, rfl, rfl⟩
  | approve hacc hc hauth hpre htok =>
    exact .inr (.inl ⟨not_transfers hc nofun nofun, _, _, hpre, hpre, rfl, hacc, hc, hauth⟩)
  | transfer _ _ _ _ _ _ => exact .inl rfl
  | transferFrom _ _ _ _ _ _ _ => exact .inl rfl
  | updateStatus hacc hc hpre hst =>
    refine .inr (.inr ⟨not_transfers hc nofun nofun, rfl, fun inv hinv => ?_⟩)
    rw [hpre] at hinv
    cases hinv
    exact ⟨_, rfl, rfl⟩

end

/-- A step that changes the owner of an invoice transfers it. -/
theorem OwnerChanges.transfers {t : InvoiceStep} {n : UInt64} {x y : Address}
    (h : OwnerChanges t n x y) (hstep : EntryStep t n (entry t.pre n) (entry t.post n)) :
    Transfers n t := by
  obtain ⟨inv, inv', hinv, hinv', rfl, rfl, hne⟩ := h
  obtain ⟨hc, hacc, -, -⟩ := hstep.owner_change hinv hinv' hne
  rcases hc with ⟨hc, -⟩ | ⟨sp, hc, -, -⟩
  · exact ⟨hacc, .inl ⟨_, _, hc⟩⟩
  · exact ⟨hacc, .inr ⟨_, _, _, hc⟩⟩

/-! ## The approval and the history -/

/-- The history backs the approval of the invoice: its present owner gave it, afresh. -/
def ApprovalBacked (n : UInt64) (h : List InvoiceStep) (s : Store) : Prop :=
  ∀ spender, s.approval n = some spender →
    ∃ inv, s.invoice n = some inv ∧ FreshApproval n inv.owner spender h

theorem ApprovalBacked.step {n : UInt64} {h : List InvoiceStep} {t : InvoiceStep}
    (hstep : EntryStep t n (entry t.pre n) (entry t.post n)) (hb : ApprovalBacked n h t.pre) :
    ApprovalBacked n (h ++ [t]) t.post := by
  intro spender hsp
  rcases hstep.approval_cases with hnone | ⟨hnt, inv, sp, hpre, hpost, happ, hacc, hc, hauth⟩ |
    ⟨hnt, happ, howner⟩
  · rw [show t.post.approval n = none from hnone] at hsp
    cases hsp
  · rw [show t.post.approval n = some sp from happ] at hsp
    cases hsp
    exact ⟨inv, hpost, h, t, [], rfl, ⟨hacc, hc, hauth, inv, hpre, rfl⟩, fun _ h => nomatch h⟩
  · obtain ⟨inv, hinv, hfresh⟩ := hb spender (happ.symm.trans hsp)
    obtain ⟨inv', hinv', heq⟩ := howner inv hinv
    refine ⟨inv', hinv', ?_⟩
    rw [heq]
    exact hfresh.concat hnt fun y z hch => hnt (hch.transfers hstep)

/-- In every run in which no mint wraps, the history backs every approval. -/
theorem approvalBacked_exec {is : List (Env × Call)}
    (hw : ∀ t ∈ invoiceContract.trace invoiceContract.init is, ¬ Wraps t) (n : UInt64) :
    ApprovalBacked n (invoiceContract.trace invoiceContract.init is)
      (invoiceContract.exec invoiceContract.init is) := by
  refine Machine.history_of (m := invoiceContract) (H := ApprovalBacked n)
    (P := fun t => EntryStep t n (entry t.pre n) (entry t.post n)) ?_
    (fun _ _ ht => ApprovalBacked.step ht) fun _ ht => entryStep_of_mem hw ht n
  intro spender h
  cases h

/-! ## Whole runs -/

/-- Owner changes in a run have the consent of the present owner.

* `consented`: a change of owner from `x` to `y` is a `transfer` that `x` authorized, or a
  `transfer_from` that a spender authorized whom `x` approved, as owner, after every earlier
  transfer.
* `cleared`: a change of owner leaves no approval behind.
* `once`: between a transfer of an invoice and a later `transfer_from` of it there is an approval
  of that spender by that owner, so no approval serves two.
* `tokenized`: only a tokenized invoice has an approval.
* `unsettled`: no settled invoice changes its owner. -/
structure ConsentSound (is : List (Env × Call)) : Prop where
  consented : ∀ is₁ i is₂, is = is₁ ++ i :: is₂ → ∀ n x y,
    OwnerChanges (invoiceContract.step i (invoiceContract.exec invoiceContract.init is₁)) n x y →
    (i.2 = .transfer x y n ∧ x ∈ i.1.auths) ∨
    ∃ spender, i.2 = .transferFrom spender x y n ∧ spender ∈ i.1.auths ∧
      FreshApproval n x spender (invoiceContract.trace invoiceContract.init is₁)
  cleared : ∀ t ∈ invoiceContract.trace invoiceContract.init is, ∀ n x y,
    OwnerChanges t n x y → t.post.approval n = none
  once : ∀ is₁ i is₂ j is₃, is = is₁ ++ i :: (is₂ ++ j :: is₃) → ∀ n spender x y,
    Transfers n (invoiceContract.step i (invoiceContract.exec invoiceContract.init is₁)) →
    (invoiceContract.step j
      (invoiceContract.exec invoiceContract.init (is₁ ++ i :: is₂))).Accepted →
    j.2 = .transferFrom spender x y n →
    ∃ a ∈ invoiceContract.trace
        (invoiceContract.step i (invoiceContract.exec invoiceContract.init is₁)).post is₂,
      Approves n x spender a
  tokenized : ∀ n, (invoiceContract.exec invoiceContract.init is).approval n ≠ none →
    (invoiceContract.exec invoiceContract.init is).token n ≠ none
  unsettled : ∀ t ∈ invoiceContract.trace invoiceContract.init is, ∀ n x y,
    OwnerChanges t n x y → ∀ inv, t.pre.invoice n = some inv → inv.status ≠ .settled

/-- A successful `transfer_from` finds the spender in the approval slot of the owner it names. -/
theorem approval_of_transferFrom {j : Env × Call} {s : Store}
    (hacc : (invoiceContract.step j s).Accepted) {spender x y : Address} {n : UInt64}
    (hj : j.2 = .transferFrom spender x y n) :
    s.approval n = some spender ∧ ∃ inv, s.invoice n = some inv ∧ inv.owner = x := by
  obtain ⟨env, c⟩ := j
  cases hj
  obtain ⟨r, s', h⟩ := Machine.step_accepted_iff.1 hacc
  obtain ⟨_, h, -⟩ := map_eq_ok.1 h
  obtain ⟨-, -, inv, hinv, -, howner, happ, -⟩ := transferFrom_eq_ok.1 h
  exact ⟨happ, inv, hinv, howner⟩

/-- **Ownership changes by fresh consent of the owner**, in every run in which no mint finds the
id counter at `u64::MAX`. -/
theorem ownership_by_consent {is : List (Env × Call)}
    (hw : ∀ t ∈ invoiceContract.trace invoiceContract.init is, ¬ Wraps t) : ConsentSound is := by
  -- the approval a step finds is the present owner's, given after every transfer before the step
  have hback : ∀ {is₁ is₂ : List (Env × Call)}, is = is₁ ++ is₂ → ∀ {n spender inv},
      (invoiceContract.exec invoiceContract.init is₁).approval n = some spender →
      (invoiceContract.exec invoiceContract.init is₁).invoice n = some inv →
      FreshApproval n inv.owner spender (invoiceContract.trace invoiceContract.init is₁) := by
    rintro is₁ is₂ rfl n spender inv happ hinv
    obtain ⟨inv', hinv', hfresh⟩ :=
      approvalBacked_exec (fun t ht => hw t (Machine.mem_trace_append ht)) n spender happ
    rw [hinv] at hinv'
    cases hinv'
    exact hfresh
  refine ⟨?_, ?_, ?_, ?_, ?_⟩
  · rintro is₁ i is₂ hsplit n x y ⟨inv, inv', hinv, hinv', rfl, rfl, hne⟩
    have ht := hsplit ▸ Machine.step_mem_trace invoiceContract invoiceContract.init is₁ i is₂
    obtain ⟨hc, -⟩ := (entryStep_of_mem hw ht n).owner_change hinv hinv' hne
    rw [Machine.step_input] at hc
    rw [Machine.step_pre] at hinv
    rcases hc with hc | ⟨sp, hc, hauth, happ⟩
    · exact .inl hc
    · rw [entry, Machine.step_pre] at happ
      exact .inr ⟨sp, hc, hauth, hback hsplit happ hinv⟩
  · rintro t ht n x y ⟨inv, inv', hinv, hinv', rfl, rfl, hne⟩
    exact ((entryStep_of_mem hw ht n).owner_change hinv hinv' hne).2.2.1
  · intro is₁ i is₂ j is₃ hsplit n spender x y ht hacc hj
    obtain ⟨happ, inv, hinv, rfl⟩ := approval_of_transferFrom hacc hj
    have hsplit' : is = (is₁ ++ i :: is₂) ++ j :: is₃ := by
      rw [hsplit, List.append_assoc, List.cons_append]
    have hfresh := hback hsplit' happ hinv
    rw [Machine.trace_append] at hfresh
    exact hfresh.after ht
  · exact fun n => ((storeOK_exec hw).entries n).approval
  · rintro t ht n x y ⟨inv, inv', hinv, hinv', rfl, rfl, hne⟩ inv₀ hinv₀
    rw [hinv] at hinv₀
    cases hinv₀
    exact ((entryStep_of_mem hw ht n).owner_change hinv hinv' hne).2.2.2

/-- A run in which an approved spender takes the invoice over, with the consent of its owner. -/
theorem ownership_by_consent_spender :
    ConsentSound (mintRun 1 ++ [(⟨0, 0, [⟨1⟩]⟩, .fund ⟨1⟩ 1 500),
      (⟨0, 0, [⟨1⟩]⟩, .approve ⟨1⟩ ⟨2⟩ 1), (⟨0, 0, [⟨2⟩]⟩, .transferFrom ⟨2⟩ ⟨1⟩ ⟨3⟩ 1)]) ∧
    ownerOf (invoiceContract.exec invoiceContract.init
      (mintRun 1 ++ [(⟨0, 0, [⟨1⟩]⟩, .fund ⟨1⟩ 1 500),
        (⟨0, 0, [⟨1⟩]⟩, .approve ⟨1⟩ ⟨2⟩ 1),
        (⟨0, 0, [⟨2⟩]⟩, .transferFrom ⟨2⟩ ⟨1⟩ ⟨3⟩ 1)])) 1 = .ok ⟨3⟩ := by
  refine ⟨ownership_by_consent (not_wraps_of_few ?_), rfl⟩
  show 1 < 2 ^ 64 - 1
  omega

/-- After `2 ^ 64` mints by address 1 the counter is back at 0, and a mint by address 2 takes
invoice 1 over. -/
theorem owner_overwritten :
    ¬ ConsentSound (mintRun (2 ^ 64) ++ [(⟨0, 0, [⟨2⟩]⟩, .mint ⟨2⟩ (.lit 1) "MAIZE" 0 "")]) := by
  obtain ⟨n, hn⟩ : ∃ n : Nat, n = 2 ^ 64 := ⟨_, rfl⟩
  rw [← hn]
  intro h
  obtain ⟨hac, htotal, hinv⟩ := mintRun_exec n
  obtain ⟨inv, hinv, howner⟩ := hinv (by omega)
  have h0 : UInt64.ofNat n + 1 = 1 := by
    rw [hn]
    rfl
  obtain ⟨s', hi, -, -, hinv'⟩ := mint_succeeds (mintReady_of_mintRunAc hac ⟨2⟩) "MAIZE" 0 ""
  rw [htotal, h0] at hinv'
  have hchange : OwnerChanges (invoiceContract.step
      (⟨0, 0, [⟨2⟩]⟩, .mint ⟨2⟩ (.lit 1) "MAIZE" 0 "")
      (invoiceContract.exec invoiceContract.init (mintRun n))) 1 ⟨1⟩ ⟨2⟩ := by
    rw [Machine.step_of_ok hi]
    refine ⟨inv, ⟨1, ⟨2⟩, .lit 1, "MAIZE", 0, "", .pending⟩, hinv, ?_, howner, rfl, by decide⟩
    rw [hinv', Function.update_self]
  rcases h.consented _ _ [] rfl 1 ⟨1⟩ ⟨2⟩ hchange with ⟨hc, -⟩ | ⟨sp, hc, -⟩
  · cases hc
  · cases hc

end Invoicing

end InvoiceFi
