import InvoiceFi.Contracts.AccessControl.Quorum

/-!
# The time-lock of a signer-set transfer

`execute_admin_transfer` compares the ledger with `proposed_at.saturating_add(timelock)`. Where the
sum fits in a `u32` the comparison is the time-lock; where it does not, the deadline is cut to the
last ledger number and the transfer becomes executable there with less than the time-lock elapsed.
`timelockKept_iff` is the exact boundary, over whole runs: the time-lock and the proposal's ledger
are read off the history (`timelockOf`, `proposalLedger`), not off the store.
-/

namespace InvoiceFi

namespace AccessControl

/-! ## The ledger of the proposal and the time-lock, off the history -/

/-- The ledger of the last accepted proposal of a history. -/
def proposalLedger (h : List HarnessStep) : Option UInt32 :=
  match sinceProposal h with
  | t :: _ => if IsProposal t then some t.input.1.sequence else none
  | [] => none

/-- The time-lock that a step sets: the one an accepted `initialize` was given. -/
def timelockSet (t : HarnessStep) : Option UInt32 :=
  match t.input.2 with
  | .init _ _ timelock => if t.Accepted then some timelock else none
  | .op _ => none

/-- The time-lock of a history. -/
def timelockOf (h : List HarnessStep) : Option UInt32 := h.findSome? timelockSet

/-- The pending proposal records the ledger of the last accepted proposal. -/
theorem Backed.proposalLedger {h : List HarnessStep} {p : PendingAdminTransfer}
    (hb : Backed h p) : proposalLedger h = some p.proposedAt := by
  obtain ⟨t, rest, hs, hacc, hseq, caller, hc⟩ := hb.created
  have ht : IsProposal t = true := by rw [IsProposal, hc]; exact decide_eq_true hacc
  simp [AccessControl.proposalLedger, hs, ht, hseq]

/-- The store holds the time-lock that was given at setup, and none before. -/
structure TimelockStored (h : List HarnessStep) (st : Store) : Prop where
  stored : timelockOf h = st.timelockLedgers
  unset : st.multisig = none → st.timelockLedgers = none

/-- A step that sets no time-lock leaves the time-lock of the history. -/
theorem timelockOf_concat {h : List HarnessStep} {t : HarnessStep} (ht : timelockSet t = none) :
    timelockOf (h ++ [t]) = timelockOf h := by
  simp [timelockOf, ht]

/-- After every run the store holds the time-lock of the history. -/
theorem timelockStored_exec (is : List (Env × Call)) :
    TimelockStored (harness.trace harness.init is) (harness.exec harness.init is) := by
  refine Machine.history (m := harness) (H := TimelockStored) ⟨rfl, fun _ => rfl⟩ ?_ ?_ is
  · intro h st i u st' ih hi
    rcases harness_cases hi with
      ⟨sg, th, tl, hc, hm, -, -, hm', htl', -⟩ | ⟨o, hc, -, hm', htl', -⟩ |
      ⟨caller, ns, nt, hc, -, -, rfl⟩ | ⟨caller, p, hc, -, -, -, rfl⟩ |
      ⟨caller, p, cfg, hc, -, hm, -, -, rfl⟩ | ⟨caller, hc, rfl⟩
    · refine ⟨?_, fun hn => ?_⟩
      · have hnone : timelockOf h = none := by rw [ih.stored, ih.unset hm]
        have hset : timelockSet ⟨st, i, .ok u, st'⟩ = some tl := by
          simp [timelockSet, hc, Step.Accepted, Except.isOk, Except.toBool]
        rw [timelockOf, List.findSome?_append, ← timelockOf, hnone, htl']
        simp [hset]
      · rw [hm'] at hn; cases hn
    · refine ⟨?_, fun hn => ?_⟩
      · rw [timelockOf_concat (by simp [timelockSet, hc]), ih.stored, htl']
      · rw [htl']; exact ih.unset (hm' ▸ hn)
    · exact ⟨(timelockOf_concat (by simp [timelockSet, hc])).trans ih.stored, ih.unset⟩
    · exact ⟨(timelockOf_concat (by simp [timelockSet, hc])).trans ih.stored, ih.unset⟩
    · exact ⟨(timelockOf_concat (by simp [timelockSet, hc])).trans ih.stored,
        fun hn => by cases hn⟩
    · exact ⟨(timelockOf_concat (by simp [timelockSet, hc])).trans ih.stored, ih.unset⟩
  · intro h st i e ih
    refine ⟨(timelockOf_concat ?_).trans ih.stored, ih.unset⟩
    unfold timelockSet
    split
    · simp [Step.Accepted, Except.isOk, Except.toBool]
    · rfl

/-! ## The boundary -/

/-- What `Q` says of the proposal's ledger, the time-lock and the ledger of every accepted
execution of a run. -/
def AtExecutions (is : List (Env × Call)) (Q : (p tl n : UInt32) → Prop) : Prop :=
  ∀ is₁ env caller is₂, is = is₁ ++ (env, .op (.executeAdminTransfer caller)) :: is₂ →
    (harness.step (env, .op (.executeAdminTransfer caller))
      (harness.exec harness.init is₁)).Accepted →
    ∃ p tl, proposalLedger (harness.trace harness.init is₁) = some p ∧
      timelockOf (harness.trace harness.init is₁) = some tl ∧ Q p tl env.sequence

/-- No execution of the run is early: at each, the time-lock has elapsed since the proposal, and
in particular the minimum time-lock has. -/
def TimelockKept (is : List (Env × Call)) : Prop :=
  AtExecutions is fun p tl n =>
    p.toNat + tl.toNat ≤ n.toNat ∧ p.toNat + minAdminTransferTimelockLedgers.toNat ≤ n.toNat

/-- No execution of the run has a deadline past the last ledger number. -/
def DeadlineFits (is : List (Env × Call)) : Prop :=
  AtExecutions is fun p tl _ => p.toNat + tl.toNat < 2 ^ 32

/-- An accepted execution has a backed proposal and a time-lock of at least the minimum, and the
ledger has reached the saturated deadline. -/
theorem execution_deadline {is : List (Env × Call)} {env : Env} {caller : Address}
    (h : (harness.step (env, .op (.executeAdminTransfer caller))
      (harness.exec harness.init is)).Accepted) :
    ∃ p tl, proposalLedger (harness.trace harness.init is) = some p ∧
      timelockOf (harness.trace harness.init is) = some tl ∧
      minAdminTransferTimelockLedgers.toNat ≤ tl.toNat ∧
      min (p.toNat + tl.toNat) (2 ^ 32 - 1) ≤ env.sequence.toNat := by
  obtain ⟨u, st', hi⟩ := Machine.step_accepted_iff.1 h
  have hok := storeOK_exec is
  rcases harness_cases hi with
    ⟨sg, th, tl, hc, -⟩ | ⟨o, hc, ho, -⟩ | ⟨c, ns, nt, hc, -⟩ | ⟨c, p, hc, -⟩ |
    ⟨c, p, cfg, hc, hp, hm, -, hdl, -⟩ | ⟨c, hc, -⟩
  · cases hc
  · cases hc; cases ho
  · cases hc
  · cases hc
  · obtain ⟨tl, htl, hmin⟩ := hok.timelock cfg hm
    refine ⟨p.proposedAt, tl, (backed_exec is p hp).proposalLedger, ?_, hmin, ?_⟩
    · rw [(timelockStored_exec is).stored, htl]
    · simpa [timelockLedgers, htl] using hdl
  · cases hc

/-- **The time-lock is kept exactly where its deadline fits in a ledger number.** A run keeps the
time-lock at all its executions if and only if none of them has `proposed_at + timelock` past
`u32::MAX`. -/
theorem timelockKept_iff (is : List (Env × Call)) : TimelockKept is ↔ DeadlineFits is := by
  constructor
  · intro hk is₁ env caller is₂ his hacc
    obtain ⟨p, tl, hp, htl, hle, -⟩ := hk is₁ env caller is₂ his hacc
    have := env.sequence.toNat_lt
    exact ⟨p, tl, hp, htl, by omega⟩
  · intro hf is₁ env caller is₂ his hacc
    obtain ⟨p, tl, hp, htl, hfit⟩ := hf is₁ env caller is₂ his hacc
    obtain ⟨p', tl', hp', htl', hmin, hdl⟩ := execution_deadline hacc
    rw [hp] at hp'
    rw [htl] at htl'
    cases hp'
    cases htl'
    exact ⟨p, tl, hp, htl, by omega, by omega⟩

/-- A run that ends with an early execution: a transfer proposed five ledgers before the last
ledger number is executed at the last one, with a time-lock of 34560 ledgers. -/
def saturatedRun : List (Env × Call) :=
  [(⟨4294967290, 0, []⟩, .init [⟨1⟩] 1 34560),
    (⟨4294967290, 0, [⟨1⟩]⟩, .op (.proposeAdminTransfer ⟨1⟩ [⟨2⟩] 1)),
    (⟨4294967295, 0, [⟨1⟩]⟩, .op (.executeAdminTransfer ⟨1⟩))]

/-- Without the condition the time-lock is not kept, not even on runs whose ledger never goes
back. -/
theorem timelock_shortened_by_saturation :
    ¬ ∀ is : List (Env × Call), (is.map (·.1.sequence)).Pairwise (· ≤ ·) → TimelockKept is := by
  intro h
  obtain ⟨p, tl, hp, htl, hle, -⟩ := h saturatedRun (by decide) (saturatedRun.take 2)
    ⟨4294967295, 0, [⟨1⟩]⟩ ⟨1⟩ [] rfl (by decide)
  have hp' : proposalLedger (harness.trace harness.init (saturatedRun.take 2)) =
      some 4294967290 := by decide
  have htl' : timelockOf (harness.trace harness.init (saturatedRun.take 2)) = some 34560 := by
    decide
  rw [hp'] at hp
  rw [htl'] at htl
  cases hp
  cases htl
  exact absurd hle (by decide)

end AccessControl

end InvoiceFi
