import InvoiceFi.Contracts.AccessControl.Pausing
import InvoiceFi.Contracts.AccessControl.Quorum

/-!
# What a coalition of signers can do

A coalition is a list of addresses whose members authorize calls, and nobody else does
(`AuthorizedBy`). What it can do to the signer set depends on two counts: its members among the
current signers (`coalition`), and those together with the signers that have already confirmed the
pending proposal (`backing`). With a quorum of the first kind it installs any well-formed signer
set, from any ledger on and whatever is pending (`takeover`): this is how lost keys are replaced.
With one of the second kind it can finish the pending proposal. `coalition_changes_signers_iff`
says that there is no third way: the coalition can change the signer set exactly in these two
cases.
-/

namespace InvoiceFi

namespace AccessControl

/-- Only members of `A` authorize the calls of the run. -/
def AuthorizedBy (A : List Address) (is : List (Env × Call)) : Prop :=
  ∀ i ∈ is, ∀ a ∈ i.1.auths, a ∈ A

/-- The ledgers of the calls of a run follow one another, from the ledger `now` on. -/
def InLedgerOrder (now : UInt32) (is : List (Env × Call)) : Prop :=
  (now :: is.map fun i => i.1.sequence).Pairwise (· ≤ ·)

/-- The members of the coalition `A` among the signers. -/
def coalition (cfg : MultisigConfig) (A : List Address) : List Address :=
  cfg.signers.filter fun a => a ∈ A

/-- The confirmations of the pending proposal. -/
def confirmations (st : Store) : List Address :=
  st.pendingTransfer.elim [] PendingAdminTransfer.confirmations

/-- The signers that have confirmed the pending proposal or are members of the coalition `A`. -/
def backing (st : Store) (cfg : MultisigConfig) (A : List Address) : List Address :=
  cfg.signers.filter fun a => a ∈ A ∨ a ∈ confirmations st

/-- The four operations on the signer set need an authorized signer. -/
theorem caller_admin {env : Env} {st st' : Store} {o : Op} (h : apply env st o = .ok st')
    (ho : o.isTransfer = true) : o.caller ∈ env.auths ∧ isSigner st o.caller = true := by
  cases o with
  | proposeAdminTransfer caller ns nt => exact (proposeAdminTransfer_eq_ok.1 h).1
  | confirmAdminTransfer caller => exact (confirmAdminTransfer_eq_ok.1 h).1
  | executeAdminTransfer caller => exact (executeAdminTransfer_eq_ok.1 h).1
  | cancelAdminTransfer caller => exact (cancelAdminTransfer_eq_ok.1 h).1
  | _ => cases ho

/-- The caller of an accepted operation on the signer set is an authorized signer. -/
theorem admin_of_invoke {i : Env × Call} {st st' : Store} {u : Unit}
    (h : harness.invoke i st = .ok (u, st')) {o : Op} (hc : i.2 = .op o)
    (ho : o.isTransfer = true) : o.caller ∈ i.1.auths ∧ isSigner st o.caller = true := by
  rcases harness_invoke_eq_ok.1 h with ⟨sg, th, tl, hc', -⟩ | ⟨o', hc', h⟩
  · rw [hc] at hc'
    cases hc'
  · rw [hc] at hc'
    cases hc'
    exact caller_admin h ho

section
variable {st : Store} {cfg : MultisigConfig} {A : List Address}

theorem mem_coalition {a : Address} : a ∈ coalition cfg A ↔ a ∈ cfg.signers ∧ a ∈ A := by
  simp [coalition]

theorem mem_backing {a : Address} :
    a ∈ backing st cfg A ↔ a ∈ cfg.signers ∧ (a ∈ A ∨ a ∈ confirmations st) := by
  simp [backing]

/-- A signer of the stored set is one that the configuration lists. -/
theorem mem_signers (hm : st.multisig = some cfg) {a : Address} (h : isSigner st a = true) :
    a ∈ cfg.signers := by
  obtain ⟨cfg', hcfg, ha⟩ := isSigner_iff.1 h
  rw [hm] at hcfg
  cases hcfg
  exact ha

/-! ## What a quorum can do -/

/-- The store with the proposal `p` pending. -/
def Store.setPending (st : Store) (p : PendingAdminTransfer) : Store :=
  { st with pendingTransfer := some p }

/-- A store is itself with its pending proposal. -/
theorem setPending_self {p : PendingAdminTransfer} (hp : st.pendingTransfer = some p) :
    st.setPending p = st := by
  rw [Store.setPending, ← hp]

/-- The call by which `a` confirms the pending proposal at the ledger `q`. -/
def confirmCall (q : UInt32) (a : Address) : Env × Call :=
  (⟨q, 0, [a]⟩, .op (.confirmAdminTransfer a))

/-- The call by which `a` executes the pending proposal at the ledger `q`. -/
def executeCall (q : UInt32) (a : Address) : Env × Call :=
  (⟨q, 0, [a]⟩, .op (.executeAdminTransfer a))

/-- Distinct signers that have not confirmed the pending proposal can confirm it one after
another. -/
theorem exec_confirmCalls (hm : st.multisig = some cfg) (q : UInt32) (p : PendingAdminTransfer)
    {bs : List Address} (hbs : ∀ b ∈ bs, b ∈ cfg.signers) (hnd : (p.confirmations ++ bs).Nodup) :
    harness.exec (st.setPending p) (bs.map (confirmCall q)) =
      st.setPending { p with confirmations := p.confirmations ++ bs } := by
  induction bs generalizing p with
  | nil =>
    rw [List.append_nil]
    rfl
  | cons b bs ih =>
    have hsig : isSigner (st.setPending p) b = true := isSigner_iff.2 ⟨cfg, hm, hbs b (.head _)⟩
    have hnew : b ∉ p.confirmations := fun hb =>
      (List.nodup_append.1 hnd).2.2 b hb b (.head _) rfl
    have hok : harness.invoke (confirmCall q b) (st.setPending p) =
        .ok ((), st.setPending { p with confirmations := p.confirmations ++ [b] }) :=
      harness_invoke_eq_ok.2 (.inr ⟨_, rfl, confirmAdminTransfer_eq_ok.2
        ⟨⟨.head _, hsig⟩, p, rfl, hnew, rfl⟩⟩)
    have hsplit : p.confirmations ++ b :: bs = p.confirmations ++ [b] ++ bs := by
      rw [List.append_assoc, List.singleton_append]
    rw [hsplit] at hnd
    rw [List.map_cons, Machine.exec, Machine.step_of_ok hok, hsplit]
    exact ih { p with confirmations := p.confirmations ++ [b] }
      (fun c hc => hbs c (.tail _ hc)) hnd

/-- A signer can execute a proposal that has its quorum, once the time-lock has elapsed. -/
theorem exec_executeCall (hm : st.multisig = some cfg) {p : PendingAdminTransfer}
    (hq : cfg.threshold.toNat ≤ p.confirmations.length) {a : Address} (ha : a ∈ cfg.signers)
    {q : UInt32} (hlock : saturatingAddU32 p.proposedAt (timelockLedgers st) ≤ q) :
    (harness.exec (st.setPending p) [executeCall q a]).multisig =
      some ⟨p.newSigners, p.newThreshold⟩ := by
  have hsig : isSigner (st.setPending p) a = true := isSigner_iff.2 ⟨cfg, hm, ha⟩
  rw [UInt32.le_iff_toNat_le, toNat_saturatingAddU32] at hlock
  have hok : harness.invoke (executeCall q a) (st.setPending p) = .ok ((), { st.setPending p with
      multisig := some ⟨p.newSigners, p.newThreshold⟩, pendingTransfer := none }) :=
    harness_invoke_eq_ok.2 (.inr ⟨_, rfl, executeAdminTransfer_eq_ok.2
      ⟨⟨.head _, hsig⟩, p, rfl, cfg, hm, hq, hlock, rfl⟩⟩)
  rw [Machine.exec, Machine.step_of_ok hok]
  rfl

/-- The run by which the addresses `a :: bs` install a signer set: `a` proposes it at the ledger
`q`, the others confirm it, and `a` executes it when the time-lock `lock` has elapsed. -/
def takeover (q lock : UInt32) (a : Address) (bs newSigners : List Address)
    (newThreshold : UInt32) : List (Env × Call) :=
  (⟨q, 0, [a]⟩, .op (.proposeAdminTransfer a newSigners newThreshold)) ::
    (bs.map (confirmCall q) ++ [executeCall (saturatingAddU32 q lock) a])

/-- The calls by which members of a coalition confirm and execute are authorized by it. -/
theorem authorizedBy_finish {q r : UInt32} {a : Address} {bs : List Address} (ha : a ∈ A)
    (hbs : ∀ b ∈ bs, b ∈ A) : AuthorizedBy A (bs.map (confirmCall q) ++ [executeCall r a]) := by
  intro i hi c hc
  rcases List.mem_append.1 hi with hi | hi
  · obtain ⟨b, hb, rfl⟩ := List.mem_map.1 hi
    obtain rfl := List.mem_singleton.1 hc
    exact hbs c hb
  · obtain rfl := List.mem_singleton.1 hi
    obtain rfl := List.mem_singleton.1 hc
    exact ha

/-- Confirmations at one ledger and an execution at a later one are in order. -/
theorem inLedgerOrder_finish {q r : UInt32} (h : q ≤ r) (a : Address) (bs : List Address) :
    InLedgerOrder q (bs.map (confirmCall q) ++ [executeCall r a]) := by
  have hconst : ∀ x ∈ q :: (bs.map (confirmCall q)).map (fun i => i.1.sequence), x = q := by
    intro x hx
    rcases List.mem_cons.1 hx with rfl | hx
    · rfl
    · rw [List.map_map] at hx
      obtain ⟨b, -, rfl⟩ := List.mem_map.1 hx
      rfl
  rw [InLedgerOrder, List.map_append, ← List.cons_append, List.pairwise_append]
  refine ⟨List.pairwise_of_forall_mem_list fun x hx y hy => ?_, List.pairwise_singleton _ _,
    fun x hx y hy => ?_⟩
  · rw [hconst x hx, hconst y hy]
    exact UInt32.le_refl q
  · obtain rfl := List.mem_singleton.1 hy
    rw [hconst x hx]
    exact h

/-- The time-lock ends no earlier than it starts. -/
theorem le_saturatingAddU32 (q lock : UInt32) : q ≤ saturatingAddU32 q lock := by
  have := q.toNat_lt
  rw [UInt32.le_iff_toNat_le, toNat_saturatingAddU32]
  omega

/-- A quorum of distinct signers can install any well-formed signer set. -/
theorem exec_takeover (hm : st.multisig = some cfg) (q : UInt32) {a : Address}
    {bs : List Address} (hsub : ∀ b ∈ a :: bs, b ∈ cfg.signers) (hnd : (a :: bs).Nodup)
    (hq : cfg.threshold.toNat ≤ (a :: bs).length) {ns : List Address} {nt : UInt32}
    (hok : SignerSetOK ns nt) :
    (harness.exec st (takeover q (timelockLedgers st) a bs ns nt)).multisig = some ⟨ns, nt⟩ := by
  have ha : a ∈ cfg.signers := hsub a (.head _)
  have hsig : isSigner st a = true := isSigner_iff.2 ⟨cfg, hm, ha⟩
  have hpropose : harness.invoke (⟨q, 0, [a]⟩, .op (.proposeAdminTransfer a ns nt)) st =
      .ok ((), st.setPending ⟨ns, nt, q, [a]⟩) :=
    harness_invoke_eq_ok.2 (.inr ⟨_, rfl, proposeAdminTransfer_eq_ok.2
      ⟨⟨.head _, hsig⟩, hok, rfl⟩⟩)
  have hconfirm := exec_confirmCalls hm q ⟨ns, nt, q, [a]⟩ (fun b hb => hsub b (.tail _ hb)) hnd
  rw [takeover, Machine.exec, Machine.step_of_ok hpropose, Machine.exec_append, hconfirm]
  exact exec_executeCall (p := ⟨ns, nt, q, a :: bs⟩) hm hq ha (UInt32.le_refl _)

theorem authorizedBy_takeover {q lock : UInt32} {a : Address} {bs ns : List Address} {nt : UInt32}
    (h : ∀ b ∈ a :: bs, b ∈ A) : AuthorizedBy A (takeover q lock a bs ns nt) := by
  intro i hi c hc
  rcases List.mem_cons.1 hi with rfl | hi
  · obtain rfl := List.mem_singleton.1 hc
    exact h c (.head _)
  · exact authorizedBy_finish (h a (.head _)) (fun b hb => h b (.tail _ hb)) i hi c hc

theorem inLedgerOrder_takeover {q lock : UInt32} {a : Address} {bs ns : List Address}
    {nt : UInt32} : InLedgerOrder q (takeover q lock a bs ns nt) := by
  have h := inLedgerOrder_finish (le_saturatingAddU32 q lock) a bs
  refine List.pairwise_cons.2 ⟨fun x hx => ?_, h⟩
  rcases List.mem_cons.1 hx with rfl | hx
  · exact UInt32.le_refl x
  · exact (List.pairwise_cons.1 h).1 x hx

/-- The signers of a quorum in a coalition can install any well-formed signer set, from any ledger
on. -/
theorem exists_takeover (hok : StoreOK st) (hm : st.multisig = some cfg)
    (hq : cfg.threshold.toNat ≤ (coalition cfg A).length) (now : UInt32) {ns : List Address}
    {nt : UInt32} (hn : SignerSetOK ns nt) :
    ∃ is, AuthorizedBy A is ∧ InLedgerOrder now is ∧
      (harness.exec st is).multisig = some ⟨ns, nt⟩ := by
  have hmem : ∀ a ∈ coalition cfg A, a ∈ cfg.signers ∧ a ∈ A := fun a => mem_coalition.1
  have hnd : (coalition cfg A).Nodup := (hok.config cfg hm).nodup.filter _
  have hpos := (hok.config cfg hm).pos
  cases hS : coalition cfg A with
  | nil =>
    rw [hS, List.length_nil] at hq
    omega
  | cons a bs =>
    rw [hS] at hmem hnd hq
    refine ⟨takeover now (timelockLedgers st) a bs ns nt, ?_, ?_,
      exec_takeover hm now (fun b hb => (hmem b hb).1) hnd hq hn⟩
    · exact authorizedBy_takeover fun b hb => (hmem b hb).2
    · exact inLedgerOrder_takeover

/-- With the confirmations that the pending proposal `p` already has, the signers of a coalition
can bring it to a quorum and execute it, from any ledger on. -/
theorem exists_finish (hok : StoreOK st) (hm : st.multisig = some cfg) {p : PendingAdminTransfer}
    (hp : st.pendingTransfer = some p) (hne : coalition cfg A ≠ [])
    (hq : cfg.threshold.toNat ≤ (backing st cfg A).length) (now : UInt32) :
    ∃ is, AuthorizedBy A is ∧ InLedgerOrder now is ∧
      (harness.exec st is).multisig = some ⟨p.newSigners, p.newThreshold⟩ := by
  obtain ⟨a, ha⟩ := List.exists_mem_of_ne_nil _ hne
  obtain ⟨has, haA⟩ := mem_coalition.1 ha
  have hpok := hok.pending p hp
  have hnodup := (hok.config cfg hm).nodup
  -- those of the coalition that have not confirmed yet
  let bs := (coalition cfg A).filter fun b => b ∉ p.confirmations
  have hbs : ∀ b ∈ bs, (b ∈ cfg.signers ∧ b ∈ A) ∧ b ∉ p.confirmations := fun b hb => by
    have h := List.mem_filter.1 hb
    exact ⟨mem_coalition.1 h.1, of_decide_eq_true h.2⟩
  have hnd : (p.confirmations ++ bs).Nodup := by
    refine List.nodup_append.2 ⟨hpok.nodup, (hnodup.filter _).filter _, ?_⟩
    rintro c hc b hb rfl
    exact (hbs c hb).2 hc
  have hlen : (backing st cfg A).length ≤ (p.confirmations ++ bs).length := by
    refine (hnodup.filter _).length_le_of_subset fun b hb => ?_
    obtain ⟨hsig, hb⟩ := mem_backing.1 hb
    by_cases hc : b ∈ p.confirmations
    · exact List.mem_append_left _ hc
    · have hbA : b ∈ A := hb.resolve_right fun h => hc (by simpa [confirmations, hp] using h)
      exact List.mem_append_right _
        (List.mem_filter.2 ⟨mem_coalition.2 ⟨hsig, hbA⟩, decide_eq_true hc⟩)
  have hconfirm := exec_confirmCalls hm now p (fun b hb => (hbs b hb).1.1) hnd
  rw [setPending_self hp] at hconfirm
  obtain ⟨r, hnow, hlock⟩ :
      ∃ r, now ≤ r ∧ saturatingAddU32 p.proposedAt (timelockLedgers st) ≤ r := by
    rcases UInt32.le_total now (saturatingAddU32 p.proposedAt (timelockLedgers st)) with h | h
    · exact ⟨_, h, UInt32.le_refl _⟩
    · exact ⟨now, UInt32.le_refl _, h⟩
  refine ⟨bs.map (confirmCall now) ++ [executeCall r a],
    authorizedBy_finish haA fun b hb => (hbs b hb).1.2, inLedgerOrder_finish hnow a bs, ?_⟩
  rw [Machine.exec_append, hconfirm]
  exact exec_executeCall (p := { p with confirmations := p.confirmations ++ bs }) hm
    (hq.trans hlen) has hlock

/-! ## What less than a quorum cannot do -/

/-- What the runs of the coalition `A` from the store `st` do not leave: the signer set is `cfg`,
and the pending proposal is one that the coalition made, confirmed by its members only, or the one
that `st` has, confirmed by them and by those who had confirmed it. -/
structure Held (st : Store) (cfg : MultisigConfig) (A : List Address) (st' : Store) : Prop where
  ok : StoreOK st'
  config : st'.multisig = some cfg
  pending : ∀ p, st'.pendingTransfer = some p → (∀ a ∈ p.confirmations, a ∈ A) ∨
    ∃ q, st.pendingTransfer = some q ∧ p.newSigners = q.newSigners ∧
      p.newThreshold = q.newThreshold ∧ ∀ a ∈ p.confirmations, a ∈ A ∨ a ∈ confirmations st

theorem Held.start (hok : StoreOK st) (hm : st.multisig = some cfg) : Held st cfg A st := by
  refine ⟨hok, hm, fun p hp => .inr ⟨p, hp, rfl, rfl, fun a ha => .inr ?_⟩⟩
  rw [confirmations, hp]
  exact ha

/-- The coalition can finish the pending proposal, and that changes the signer set. -/
def CanFinish (st : Store) (cfg : MultisigConfig) (A : List Address) : Prop :=
  coalition cfg A ≠ [] ∧ cfg.threshold.toNat ≤ (backing st cfg A).length ∧
    ∃ p, st.pendingTransfer = some p ∧ some cfg ≠ some ⟨p.newSigners, p.newThreshold⟩

/-- A coalition that has no quorum and cannot finish the pending proposal keeps its hold under
every call it authorizes. -/
theorem Held.step (hq : ¬ cfg.threshold.toNat ≤ (coalition cfg A).length)
    (hfin : ¬ CanFinish st cfg A) {i : Env × Call} {s s' : Store} {u : Unit}
    (h : Held st cfg A s) (hA : ∀ a ∈ i.1.auths, a ∈ A)
    (hi : harness.invoke i s = .ok (u, s')) : Held st cfg A s' := by
  have hok' := h.ok.step hi
  have hcaller : ∀ {o : Op}, i.2 = .op o → o.isTransfer = true →
      o.caller ∈ A ∧ isSigner s o.caller = true := fun hc ho =>
    ⟨hA _ (admin_of_invoke hi hc ho).1, (admin_of_invoke hi hc ho).2⟩
  rcases harness_cases hi with
    ⟨sg, th, tl, -, hm, -⟩ | ⟨o, -, -, hm, -, hp⟩ | ⟨caller, ns, nt, hc, -, -, rfl⟩ |
    ⟨caller, p, hc, -, hp, -, rfl⟩ | ⟨caller, p, cfg', hc, hp, hm, hth, -, rfl⟩ |
    ⟨caller, hc, rfl⟩
  · rw [h.config] at hm
    cases hm
  · exact ⟨hok', hm.trans h.config, fun p hp' => h.pending p (hp ▸ hp')⟩
  · -- a proposal has its proposer's confirmation only
    refine ⟨hok', h.config, fun p hp => .inl fun a ha => ?_⟩
    cases hp
    obtain rfl := List.mem_singleton.1 ha
    exact (hcaller hc rfl).1
  · refine ⟨hok', h.config, fun p' hp' => ?_⟩
    cases hp'
    have hcA : caller ∈ A := (hcaller hc rfl).1
    rcases h.pending p hp with hall | ⟨q, hq', hns, hnt, hall⟩
    · refine .inl fun a ha => ?_
      rcases List.mem_append.1 ha with ha | ha
      · exact hall a ha
      · obtain rfl := List.mem_singleton.1 ha
        exact hcA
    · refine .inr ⟨q, hq', hns, hnt, fun a ha => ?_⟩
      rcases List.mem_append.1 ha with ha | ha
      · exact hall a ha
      · obtain rfl := List.mem_singleton.1 ha
        exact .inl hcA
  · -- an execution: the proposal has a quorum, so it is the one that was pending, and it proposes
    -- the signer set there is
    obtain rfl : cfg = cfg' := Option.some.inj (h.config.symm.trans hm)
    have hpok := h.ok.pending p hp
    have hsig : ∀ a ∈ p.confirmations, a ∈ cfg.signers := fun a ha =>
      mem_signers hm (hpok.current a ha)
    rcases h.pending p hp with hall | ⟨q, hq', hns, hnt, hall⟩
    · have hle := hpok.nodup.length_le_of_subset fun a ha =>
        mem_coalition.2 ⟨hsig a ha, hall a ha⟩
      exact absurd (hth.trans hle) hq
    · have hle := hpok.nodup.length_le_of_subset fun a ha =>
        mem_backing.2 ⟨hsig a ha, hall a ha⟩
      obtain ⟨hcA, hcs⟩ := hcaller hc rfl
      have hne : coalition cfg A ≠ [] :=
        List.ne_nil_of_mem (mem_coalition.2 ⟨mem_signers hm hcs, hcA⟩)
      refine ⟨hok', ?_, fun p' hp' => by cases hp'⟩
      by_contra hch
      exact hfin ⟨hne, hth.trans hle, q, hq', by rw [← hns, ← hnt]; exact fun heq => hch heq.symm⟩
  · exact ⟨hok', h.config, fun p hp => by cases hp⟩

/-- A coalition that has no quorum and cannot finish the pending proposal leaves the signer set as
it is, in every run. -/
theorem multisig_held (hok : StoreOK st) (hm : st.multisig = some cfg)
    (hq : ¬ cfg.threshold.toNat ≤ (coalition cfg A).length) (hfin : ¬ CanFinish st cfg A)
    {is : List (Env × Call)} (hA : AuthorizedBy A is) :
    (harness.exec st is).multisig = some cfg := by
  refine (Machine.invariant_of (m := harness) (I := Held st cfg A)
    (C := fun t => ∀ a ∈ t.input.1.auths, a ∈ A) (.start hok hm) ?_ ?_).config
  · exact fun i s u s' hs hC hi => hs.step hq hfin hC hi
  · intro t ht a ha
    exact hA t.input (Machine.input_mem_of_mem_trace ht) a ha

end

/-- Every signer set can be replaced by another well-formed one. -/
theorem exists_other_signerSet (cfg : MultisigConfig) :
    ∃ ns nt, SignerSetOK ns nt ∧ some (⟨ns, nt⟩ : MultisigConfig) ≠ some cfg := by
  have hok : ∀ a : Address, SignerSetOK [a] 1 := fun a =>
    ⟨List.cons_ne_nil _ _, List.nodup_singleton a, le_refl _, le_refl _⟩
  by_cases h : some (⟨[⟨0⟩], 1⟩ : MultisigConfig) = some cfg
  · refine ⟨[⟨1⟩], 1, hok _, ?_⟩
    rw [← h]
    decide
  · exact ⟨[⟨0⟩], 1, hok _, h⟩

/-- **What a coalition can do to the signer set.** In any state a run reaches and from any ledger
on, the members of `A` can change the signer set by themselves exactly when a quorum of the signers
is among them, or some signer is, the members and those who have confirmed the pending proposal are
a quorum together, and that proposal is of another signer set. A quorum can install any well-formed
signer set. -/
theorem coalition_changes_signers_iff {st : Store} (hs : harness.Reachable st)
    {cfg : MultisigConfig} (hm : st.multisig = some cfg) (A : List Address) (now : UInt32) :
    ((∃ is, AuthorizedBy A is ∧ InLedgerOrder now is ∧
        (harness.exec st is).multisig ≠ some cfg) ↔
      cfg.threshold.toNat ≤ (coalition cfg A).length ∨ CanFinish st cfg A) ∧
    (cfg.threshold.toNat ≤ (coalition cfg A).length → ∀ ns nt, SignerSetOK ns nt →
      ∃ is, AuthorizedBy A is ∧ InLedgerOrder now is ∧
        (harness.exec st is).multisig = some ⟨ns, nt⟩) := by
  obtain ⟨is₀, rfl⟩ := hs
  have hok := storeOK_exec is₀
  refine ⟨⟨?_, ?_⟩, fun hq ns nt hn => exists_takeover hok hm hq now hn⟩
  · rintro ⟨is, hA, -, hne⟩
    by_contra hno
    obtain ⟨hq, hfin⟩ := not_or.1 hno
    exact hne (multisig_held hok hm hq hfin hA)
  · rintro (hq | ⟨hne, hb, p, hp, hother⟩)
    · obtain ⟨ns, nt, hn, hother⟩ := exists_other_signerSet cfg
      obtain ⟨is, hA, hord, hset⟩ := exists_takeover hok hm hq now hn
      exact ⟨is, hA, hord, by rwa [hset]⟩
    · obtain ⟨is, hA, hord, hset⟩ := exists_finish hok hm hp hne hb now
      exact ⟨is, hA, hord, by rw [hset]; exact hother.symm⟩

/-- A set of three signers with a threshold of two, just set up. -/
def twoOfThree : Store :=
  harness.exec harness.init [(⟨1, 0, []⟩, .init [⟨1⟩, ⟨2⟩, ⟨3⟩] 2 34560)]

/-- Two of the three can replace the signers, and one of them cannot. -/
theorem two_of_three_replace_signers :
    (∃ is, AuthorizedBy [⟨1⟩, ⟨2⟩] is ∧ InLedgerOrder 1 is ∧
      (harness.exec twoOfThree is).multisig ≠ some ⟨[⟨1⟩, ⟨2⟩, ⟨3⟩], 2⟩) ∧
    ¬ ∃ is, AuthorizedBy [⟨1⟩] is ∧ InLedgerOrder 1 is ∧
      (harness.exec twoOfThree is).multisig ≠ some ⟨[⟨1⟩, ⟨2⟩, ⟨3⟩], 2⟩ := by
  have h := fun A => (coalition_changes_signers_iff ⟨_, rfl⟩
    (show twoOfThree.multisig = some ⟨[⟨1⟩, ⟨2⟩, ⟨3⟩], 2⟩ from rfl) A 1).1
  refine ⟨(h _).2 (.inl (by decide)), fun hex => ?_⟩
  rcases (h _).1 hex with hq | ⟨-, hb, -⟩
  · exact absurd hq (by decide)
  · exact absurd hb (by decide)

end AccessControl

end InvoiceFi
