import InvoiceFi.Contracts.AccessControl

/-!
# Signer-set changes need a quorum

`execute_admin_transfer` only counts the confirmations of the pending proposal. That the count is
a quorum of the signer set in force rests on an invariant of the store (`StoreOK`): confirmations
are distinct and are all of current signers, because the one operation that changes the signers
clears the pending proposal. The history half (`Backed`) says where each confirmation came from:
an accepted `propose` or `confirm` call of its signer, no earlier than the `propose` call that
created the proposal.

Both are invariants of `harness` runs and are proved from `harness_cases`, which says once what a
successful call can do to the signer set, the time-lock and the pending proposal.
-/

namespace InvoiceFi

namespace AccessControl

/-! ## What one call can do -/

/-- The operations of the signer-set transfer. -/
def Op.isTransfer : Op → Bool
  | .proposeAdminTransfer _ _ _ | .confirmAdminTransfer _ | .executeAdminTransfer _
  | .cancelAdminTransfer _ => true
  | _ => false

/-- What a successful call does to the signer set, the time-lock and the pending proposal: it is
the one-time setup, it touches none of them, or it is one of the four transfer operations. -/
theorem harness_cases {i : Env × Call} {st st' : Store} {u : Unit}
    (h : harness.invoke i st = .ok (u, st')) :
    (∃ signers threshold timelock, i.2 = .init signers threshold timelock ∧
      st.multisig = none ∧ SignerSetOK signers threshold ∧
      minAdminTransferTimelockLedgers.toNat ≤ timelock.toNat ∧
      st'.multisig = some ⟨signers, threshold⟩ ∧ st'.timelockLedgers = some timelock ∧
      st'.pendingTransfer = st.pendingTransfer) ∨
    (∃ o, i.2 = .op o ∧ o.isTransfer = false ∧ st'.multisig = st.multisig ∧
      st'.timelockLedgers = st.timelockLedgers ∧ st'.pendingTransfer = st.pendingTransfer) ∨
    (∃ caller ns nt, i.2 = .op (.proposeAdminTransfer caller ns nt) ∧
      isSigner st caller = true ∧ SignerSetOK ns nt ∧
      st' = { st with pendingTransfer := some ⟨ns, nt, i.1.sequence, [caller]⟩ }) ∨
    (∃ caller p, i.2 = .op (.confirmAdminTransfer caller) ∧ isSigner st caller = true ∧
      st.pendingTransfer = some p ∧ caller ∉ p.confirmations ∧
      st' = { st with
        pendingTransfer := some { p with confirmations := p.confirmations ++ [caller] } }) ∨
    (∃ caller p cfg, i.2 = .op (.executeAdminTransfer caller) ∧
      st.pendingTransfer = some p ∧ st.multisig = some cfg ∧
      cfg.threshold.toNat ≤ p.confirmations.length ∧
      min (p.proposedAt.toNat + (timelockLedgers st).toNat) (2 ^ 32 - 1) ≤ i.1.sequence.toNat ∧
      st' = { st with
        multisig := some ⟨p.newSigners, p.newThreshold⟩, pendingTransfer := none }) ∨
    (∃ caller, i.2 = .op (.cancelAdminTransfer caller) ∧
      st' = { st with pendingTransfer := none }) := by
  rcases harness_invoke_eq_ok.1 h with ⟨sg, th, tl, hc, h⟩ | ⟨o, hc, h⟩
  · obtain ⟨hm, hok, htl, rfl⟩ := init_eq_ok.1 h
    exact .inl ⟨sg, th, tl, hc, hm, hok, htl, rfl, rfl, rfl⟩
  · cases o with
    | grantRole caller role grantee =>
      obtain ⟨-, -, rfl⟩ := grantRole_eq_ok.1 h
      exact .inr (.inl ⟨_, hc, rfl, rfl, rfl, rfl⟩)
    | revokeRole caller role grantee =>
      obtain ⟨-, rfl⟩ := revokeRole_eq_ok.1 h
      exact .inr (.inl ⟨_, hc, rfl, rfl, rfl, rfl⟩)
    | pause caller =>
      obtain ⟨-, -, rfl⟩ := pause_eq_ok.1 h
      exact .inr (.inl ⟨_, hc, rfl, rfl, rfl, rfl⟩)
    | unpause caller =>
      obtain ⟨-, -, rfl⟩ := unpause_eq_ok.1 h
      exact .inr (.inl ⟨_, hc, rfl, rfl, rfl, rfl⟩)
    | proposeAdminTransfer caller ns nt =>
      obtain ⟨⟨-, hs⟩, hok, rfl⟩ := proposeAdminTransfer_eq_ok.1 h
      exact .inr (.inr (.inl ⟨caller, ns, nt, hc, hs, hok, rfl⟩))
    | confirmAdminTransfer caller =>
      obtain ⟨⟨-, hs⟩, p, hp, hn, rfl⟩ := confirmAdminTransfer_eq_ok.1 h
      exact .inr (.inr (.inr (.inl ⟨caller, p, hc, hs, hp, hn, rfl⟩)))
    | executeAdminTransfer caller =>
      obtain ⟨-, p, hp, cfg, hm, hth, htl, rfl⟩ := executeAdminTransfer_eq_ok.1 h
      exact .inr (.inr (.inr (.inr (.inl ⟨caller, p, cfg, hc, hp, hm, hth, htl, rfl⟩))))
    | cancelAdminTransfer caller =>
      obtain ⟨-, -, rfl⟩ := cancelAdminTransfer_eq_ok.1 h
      exact .inr (.inr (.inr (.inr (.inr ⟨caller, hc, rfl⟩))))

/-! ## The store invariant -/

/-- A pending proposal is well formed in the store `st`: its signer set is, and its confirmations
are some, distinct, and of current signers. -/
structure PendingOK (st : Store) (p : PendingAdminTransfer) : Prop where
  target : SignerSetOK p.newSigners p.newThreshold
  nonempty : p.confirmations ≠ []
  nodup : p.confirmations.Nodup
  current : ∀ a ∈ p.confirmations, isSigner st a = true

/-- The invariant of the store: the stored signer set is well formed, its time-lock is at least
the minimum, and a pending proposal is well formed. -/
structure StoreOK (st : Store) : Prop where
  config : ∀ cfg, st.multisig = some cfg → SignerSetOK cfg.signers cfg.threshold
  timelock : ∀ cfg, st.multisig = some cfg → ∃ tl, st.timelockLedgers = some tl ∧
    minAdminTransferTimelockLedgers.toNat ≤ tl.toNat
  pending : ∀ p, st.pendingTransfer = some p → PendingOK st p

theorem StoreOK.empty : StoreOK .empty := by
  constructor <;> intro _ h <;> cases h

/-- Well-formedness of a pending proposal reads only the signer set of the store. -/
theorem PendingOK.congr {st st' : Store} {p : PendingAdminTransfer}
    (h : st'.multisig = st.multisig) (hp : PendingOK st p) : PendingOK st' p := by
  refine ⟨hp.target, hp.nonempty, hp.nodup, fun a ha => ?_⟩
  have := hp.current a ha
  rw [isSigner_iff] at this ⊢
  rwa [h]

/-- An uninitialized store has no pending proposal: a proposal has a confirmation, and that needs
a signer. -/
theorem StoreOK.pending_none {st : Store} (h : StoreOK st) (hm : st.multisig = none) :
    st.pendingTransfer = none := by
  cases hp : st.pendingTransfer with
  | none => rfl
  | some p =>
    have hok := h.pending p hp
    obtain ⟨a, ha⟩ := List.exists_mem_of_ne_nil _ hok.nonempty
    obtain ⟨cfg, hcfg, -⟩ := isSigner_iff.1 (hok.current a ha)
    rw [hm] at hcfg
    cases hcfg

/-- Every successful call keeps the store invariant. -/
theorem StoreOK.step {i : Env × Call} {st st' : Store} {u : Unit} (h : StoreOK st)
    (hi : harness.invoke i st = .ok (u, st')) : StoreOK st' := by
  rcases harness_cases hi with
    ⟨sg, th, tl, -, hm, hok, htl, hm', htl', hp'⟩ | ⟨o, -, -, hm, htl, hp⟩ |
    ⟨caller, ns, nt, -, hs, hok, rfl⟩ | ⟨caller, p, -, hs, hp, hn, rfl⟩ |
    ⟨caller, p, cfg, -, hp, hm, -, -, rfl⟩ | ⟨caller, -, rfl⟩
  · -- setup: nothing was pending, so nothing is
    refine ⟨fun cfg hc => ?_, fun _ _ => ⟨tl, htl', htl⟩, fun p hp => ?_⟩
    · rw [hm'] at hc; cases hc; exact hok
    · rw [hp', h.pending_none hm] at hp; cases hp
  · refine ⟨fun cfg hc => ?_, fun cfg hc => ?_, fun p hp' => ?_⟩
    · rw [hm] at hc; exact h.config cfg hc
    · rw [hm] at hc; rw [htl]; exact h.timelock cfg hc
    · rw [hp] at hp'; exact (h.pending p hp').congr hm
  · refine ⟨h.config, h.timelock, fun p hp => ?_⟩
    cases hp
    refine ⟨hok, by simp, by simp, fun a ha => ?_⟩
    rw [List.mem_singleton] at ha
    subst ha; exact hs
  · refine ⟨h.config, h.timelock, fun q hq => ?_⟩
    cases hq
    have hok := h.pending p hp
    refine ⟨hok.target, by simp, ?_, fun a ha => ?_⟩
    · exact hok.nodup.append (by simp) (by simpa using hn)
    · rcases List.mem_append.1 ha with ha | ha
      · exact hok.current a ha
      · rw [List.mem_singleton] at ha; subst ha; exact hs
  · -- execution: the proposed set was validated when it was proposed
    refine ⟨fun c hc => ?_, fun _ _ => h.timelock cfg hm, fun q hq => by cases hq⟩
    cases hc
    exact (h.pending p hp).target
  · exact ⟨h.config, h.timelock, fun q hq => by cases hq⟩

/-- The store invariant holds after every run. -/
theorem storeOK_exec (is : List (Env × Call)) : StoreOK (harness.exec harness.init is) :=
  Machine.invariant (I := StoreOK) .empty (fun _ _ _ _ h hi => h.step hi) is

/-! ## Where the confirmations came from -/

/-- The step is an accepted `propose_admin_transfer`. -/
def IsProposal (t : HarnessStep) : Bool :=
  match t.input.2 with
  | .op (.proposeAdminTransfer _ _ _) => decide t.Accepted
  | _ => false

/-- The part of a history since its last accepted proposal, that step included; the whole history
if it has none. -/
def sinceProposal (h : List HarnessStep) : List HarnessStep :=
  h.foldl (fun acc t => if IsProposal t then [t] else acc ++ [t]) []

theorem sinceProposal_concat (h : List HarnessStep) (t : HarnessStep) :
    sinceProposal (h ++ [t]) = if IsProposal t then [t] else sinceProposal h ++ [t] := by
  simp [sinceProposal]

/-- The address `a` proposed or confirmed in the accepted step `t`. -/
def Supports (a : Address) (t : HarnessStep) : Prop :=
  t.Accepted ∧ ((∃ ns nt, t.input.2 = .op (.proposeAdminTransfer a ns nt)) ∨
    t.input.2 = .op (.confirmAdminTransfer a))

/-- The step created the proposal `p`: an accepted `propose_admin_transfer` of its signer set, at
its ledger. -/
def Creates (p : PendingAdminTransfer) (t : HarnessStep) : Prop :=
  t.Accepted ∧ t.input.1.sequence = p.proposedAt ∧
    ∃ caller, t.input.2 = .op (.proposeAdminTransfer caller p.newSigners p.newThreshold)

/-- The history backs the proposal `p`: its last accepted proposal created `p`, and since then
every address that has confirmed `p` proposed or confirmed it. -/
structure Backed (h : List HarnessStep) (p : PendingAdminTransfer) : Prop where
  created : ∃ t rest, sinceProposal h = t :: rest ∧ Creates p t
  supported : ∀ a ∈ p.confirmations, ∃ t ∈ sinceProposal h, Supports a t

/-- A step that is no accepted proposal keeps a backed proposal backed. -/
theorem Backed.concat {h : List HarnessStep} {p : PendingAdminTransfer} (hb : Backed h p)
    {t : HarnessStep} (ht : IsProposal t = false) : Backed (h ++ [t]) p := by
  have hs : sinceProposal (h ++ [t]) = sinceProposal h ++ [t] := by
    rw [sinceProposal_concat, ht]; rfl
  obtain ⟨c, rest, hc, hcr⟩ := hb.created
  refine ⟨⟨c, rest ++ [t], by rw [hs, hc]; rfl, hcr⟩, fun a ha => ?_⟩
  obtain ⟨s, hmem, hsup⟩ := hb.supported a ha
  exact ⟨s, by rw [hs]; exact List.mem_append_left _ hmem, hsup⟩

/-- An accepted confirmation of `a` adds `a` to what the history backs. -/
theorem Backed.confirm {h : List HarnessStep} {p : PendingAdminTransfer} (hb : Backed h p)
    {a : Address} {t : HarnessStep} (hacc : t.Accepted)
    (hc : t.input.2 = .op (.confirmAdminTransfer a)) :
    Backed (h ++ [t]) { p with confirmations := p.confirmations ++ [a] } := by
  have ht : IsProposal t = false := by rw [IsProposal, hc]
  have hb' := hb.concat ht
  refine ⟨hb'.created, fun b hbm => ?_⟩
  rcases List.mem_append.1 hbm with hbm | hbm
  · exact hb'.supported b hbm
  · rw [List.mem_singleton] at hbm
    subst hbm
    refine ⟨t, ?_, hacc, .inr hc⟩
    rw [sinceProposal_concat, ht]
    simp

/-- An accepted proposal is backed by its own step. -/
theorem Backed.propose {h : List HarnessStep} {caller : Address} {ns : List Address}
    {nt : UInt32} {t : HarnessStep} (hacc : t.Accepted)
    (hc : t.input.2 = .op (.proposeAdminTransfer caller ns nt)) :
    Backed (h ++ [t]) ⟨ns, nt, t.input.1.sequence, [caller]⟩ := by
  have ht : IsProposal t = true := by rw [IsProposal, hc]; exact decide_eq_true hacc
  have hs : sinceProposal (h ++ [t]) = [t] := by rw [sinceProposal_concat, ht]; rfl
  refine ⟨⟨t, [], hs, hacc, rfl, caller, hc⟩, fun a ha => ?_⟩
  rw [List.mem_singleton] at ha
  subst ha
  exact ⟨t, by rw [hs]; exact .head _, hacc, .inl ⟨ns, nt, hc⟩⟩

/-- In every run the history backs the pending proposal. -/
theorem backed_exec (is : List (Env × Call)) :
    ∀ p, (harness.exec harness.init is).pendingTransfer = some p →
      Backed (harness.trace harness.init is) p := by
  refine Machine.history (m := harness)
    (H := fun h st => ∀ p, st.pendingTransfer = some p → Backed h p)
    (fun p hp => by cases hp) ?_ ?_ is
  · intro h st i u st' ih hi
    have hacc : (⟨st, i, .ok u, st'⟩ : HarnessStep).Accepted := rfl
    intro p hp
    rcases harness_cases hi with
      ⟨sg, th, tl, hc, -, -, -, -, -, hp'⟩ | ⟨o, hc, ho, -, -, hp'⟩ |
      ⟨caller, ns, nt, hc, -, -, rfl⟩ | ⟨caller, q, hc, -, hq, -, rfl⟩ |
      ⟨caller, q, cfg, hc, -, -, -, -, rfl⟩ | ⟨caller, hc, rfl⟩
    · exact (ih p (hp' ▸ hp)).concat (by simp [IsProposal, hc])
    · refine (ih p (hp' ▸ hp)).concat ?_
      cases o <;> simp_all [IsProposal, Op.isTransfer]
    · cases hp
      exact Backed.propose hacc hc
    · cases hp
      exact (ih q hq).confirm hacc hc
    · cases hp
    · cases hp
  · intro h st i e ih p hp
    refine (ih p hp).concat ?_
    unfold IsProposal
    split
    · simp [Step.Accepted, Except.isOk, Except.toBool]
    · rfl

/-! ## The quorum -/

/-- The step `t`, with the history `h` before it, replaced the signer set `cfg` through a quorum:
it is an accepted `execute_admin_transfer` of the pending proposal `p`, it installed exactly what
`p` proposes, and at least `threshold` distinct members of `cfg` proposed or confirmed `p` since
`p` was created. -/
structure QuorumChange (h : List HarnessStep) (t : HarnessStep) (cfg : MultisigConfig)
    (p : PendingAdminTransfer) : Prop where
  execute : ∃ caller, t.input.2 = .op (.executeAdminTransfer caller)
  accepted : t.Accepted
  pending : t.pre.pendingTransfer = some p
  installed : t.post.multisig = some ⟨p.newSigners, p.newThreshold⟩
  created : ∃ c rest, sinceProposal h = c :: rest ∧ Creates p c
  quorum : ∃ supporters : List Address, supporters.Nodup ∧
    cfg.threshold.toNat ≤ supporters.length ∧
    ∀ a ∈ supporters, a ∈ cfg.signers ∧ ∃ c ∈ sinceProposal h, Supports a c

/-- A step that changes a stored signer set is an execution by quorum. -/
theorem quorumChange_of_ne {h : List HarnessStep} {st : Store} (hok : StoreOK st)
    (hb : ∀ p, st.pendingTransfer = some p → Backed h p) {i : Env × Call} {cfg : MultisigConfig}
    (hm : st.multisig = some cfg) (hne : (harness.step i st).post.multisig ≠ some cfg) :
    ∃ p, QuorumChange h (harness.step i st) cfg p := by
  rcases Machine.step_cases (m := harness) i st with ⟨u, st', hi, ht⟩ | ⟨e, -, ht⟩
  · rw [ht] at hne ⊢
    rcases harness_cases hi with
      ⟨sg, th, tl, -, hm₀, -⟩ | ⟨o, -, -, hm', -, -⟩ | ⟨caller, ns, nt, -, -, -, rfl⟩ |
      ⟨caller, p, -, -, -, -, rfl⟩ | ⟨caller, p, cfg', hc, hp, hm', hth, -, rfl⟩ |
      ⟨caller, -, rfl⟩
    · rw [hm] at hm₀; cases hm₀
    · exact absurd (hm'.trans hm) hne
    · exact absurd hm hne
    · exact absurd hm hne
    · rw [hm] at hm'
      cases hm'
      have hpok := hok.pending p hp
      refine ⟨p, ⟨caller, hc⟩, rfl, hp, rfl, (hb p hp).created, p.confirmations, hpok.nodup, hth,
        fun a ha => ⟨?_, (hb p hp).supported a ha⟩⟩
      obtain ⟨cfg'', hcfg, hmem⟩ := isSigner_iff.1 (hpok.current a ha)
      rw [hm] at hcfg
      cases hcfg
      exact hmem
    · exact absurd hm hne
  · rw [ht] at hne
    exact absurd hm hne

/-- **Signer-set changes need a quorum.** After every run the store is well formed, and the next
call, whatever it is, sets an absent signer set only by the one-time setup and changes a stored
one only through a quorum of it. -/
theorem signer_set_changes_by_quorum (is : List (Env × Call)) :
    StoreOK (harness.exec harness.init is) ∧
    (∀ i, (harness.exec harness.init is).multisig = none →
      (harness.step i (harness.exec harness.init is)).post.multisig ≠ none →
      ∃ signers threshold timelock, i.2 = .init signers threshold timelock) ∧
    ∀ i cfg, (harness.exec harness.init is).multisig = some cfg →
      (harness.step i (harness.exec harness.init is)).post.multisig ≠ some cfg →
      ∃ p, QuorumChange (harness.trace harness.init is)
        (harness.step i (harness.exec harness.init is)) cfg p := by
  have hok := storeOK_exec is
  refine ⟨hok, fun i hm hne => ?_, fun i cfg hm hne =>
    quorumChange_of_ne hok (backed_exec is) hm hne⟩
  rcases Machine.step_cases (m := harness) i (harness.exec harness.init is) with
    ⟨u, st', hi, ht⟩ | ⟨e, -, ht⟩
  · rw [ht] at hne
    have hp := hok.pending_none hm
    rcases harness_cases hi with
      ⟨sg, th, tl, hc, -⟩ | ⟨o, -, -, hm', -, -⟩ | ⟨caller, ns, nt, -, -, -, rfl⟩ |
      ⟨caller, p, -, -, hp', -⟩ | ⟨caller, p, cfg', -, hp', -⟩ | ⟨caller, -, rfl⟩
    · exact ⟨sg, th, tl, hc⟩
    · exact absurd (hm'.trans hm) hne
    · exact absurd hm hne
    · rw [hp] at hp'; cases hp'
    · rw [hp] at hp'; cases hp'
    · exact absurd hm hne
  · rw [ht] at hne
    exact absurd hm hne

end AccessControl

end InvoiceFi
