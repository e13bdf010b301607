import InvoiceFi.Contracts.AccessControl.Quorum
import Mathlib.Data.List.Perm.Subperm

/-!
# Confirmations in flight

`confirm_admin_transfer` names no proposal: a signer that has read the pending proposal sends a
confirmation, and the confirmation counts for whatever is pending when it is delivered. `network`
is the access-control store with the confirmations in flight around it. A `Ballot` is one
confirmation with the proposal its signer had seen when sending it, and each accepted confirmation
moves its ballot from the network to the pending proposal, so that the store's confirmation list
is the signers of the ballots (`NetOK.counted`).

A confirmation is counted for a proposal its signer never saw exactly when the proposal is
replaced under it: `ballots_faithful` proves that a run in which no accepted proposal overtakes
the confirmation of another current signer (`Undisturbed`) counts every ballot for the proposal it
was cast on, and that a proposal that does overtake one can be followed at once by a delivery that
breaks this.
-/

namespace InvoiceFi

namespace AccessControl

/-- A proposal as its signers see it: its number among the accepted proposals of the contract, and
what it proposes. -/
structure Proposal where
  number : Nat
  newSigners : List Address
  newThreshold : UInt32
  deriving DecidableEq, Repr

/-- A confirmation, with the proposal its signer had seen when sending it. The proposer of a
proposal confirms the proposal it sends. -/
structure Ballot where
  signer : Address
  seen : Proposal
  deriving DecidableEq, Repr

/-- An executed transfer: the proposal, the threshold in force, the ballots it was executed on and
the signer set it installed. -/
structure Execution where
  proposal : Proposal
  threshold : UInt32
  ballots : List Ballot
  installed : Option MultisigConfig
  deriving DecidableEq, Repr

/-- The store and the confirmations around it: how many proposals were accepted, the ballots of
the pending one, the ballots in flight, and the transfers executed so far. -/
structure Net where
  store : Store
  proposals : Nat
  ballots : List Ballot
  inflight : List Ballot
  executed : List Execution

/-- The call is a confirmation. -/
def Call.isConfirm : Call → Bool
  | .op (.confirmAdminTransfer _) => true
  | _ => false

/-- What can happen next: a signer reads the pending proposal and sends its confirmation, a
confirmation in flight is delivered, or any other call is delivered. -/
inductive Action where
  | send (signer : Address)
  | confirm (env : Env) (k : Nat)
  | call (env : Env) (c : Call) (h : c.isConfirm = false)

namespace Net

/-- The pending proposal. It is the last accepted one. -/
def pending (n : Net) : Option Proposal :=
  n.store.pendingTransfer.map fun p => ⟨n.proposals, p.newSigners, p.newThreshold⟩

/-- A signer reads the pending proposal and sends its confirmation. -/
def send (n : Net) (signer : Address) : Net :=
  match n.pending with
  | some q => { n with inflight := n.inflight ++ [⟨signer, q⟩] }
  | none => n

/-- The `k`-th confirmation in flight is delivered. -/
def confirm (n : Net) (env : Env) (k : Nat) : Net :=
  match n.inflight[k]? with
  | none => n
  | some b =>
    match confirmAdminTransfer env n.store b.signer with
    | .error _ => { n with inflight := n.inflight.eraseIdx k }
    | .ok st =>
      { n with store := st, ballots := n.ballots ++ [b], inflight := n.inflight.eraseIdx k }

/-- The record of an execution that leaves the store `st`. -/
def execution (n : Net) (st : Store) : List Execution :=
  match n.pending, n.store.multisig with
  | some q, some cfg => [⟨q, cfg.threshold, n.ballots, st.multisig⟩]
  | _, _ => []

/-- The network after an accepted call that leaves the store `st`. -/
def committed (n : Net) (st : Store) : Call → Net
  | .op (.proposeAdminTransfer caller ns nt) =>
    { n with
      store := st
      proposals := n.proposals + 1
      ballots := [⟨caller, ⟨n.proposals + 1, ns, nt⟩⟩] }
  | .op (.executeAdminTransfer _) =>
    { n with store := st, ballots := [], executed := n.executed ++ n.execution st }
  | .op (.cancelAdminTransfer _) => { n with store := st, ballots := [] }
  | _ => { n with store := st }

/-- A role or pause operation moves no ballot. -/
theorem committed_of_not_transfer {n : Net} {st : Store} {o : Op} (ho : o.isTransfer = false) :
    n.committed st (.op o) = { n with store := st } := by
  cases o <;> first | rfl | cases ho

/-- Any other call is delivered. -/
def call (n : Net) (env : Env) (c : Call) : Net :=
  match harness.invoke (env, c) n.store with
  | .error _ => n
  | .ok (_, st) => n.committed st c

/-- The network after an action. -/
def next (n : Net) : Action → Net
  | .send signer => n.send signer
  | .confirm env k => n.confirm env k
  | .call env c _ => n.call env c

end Net

/-- The network as a machine. No action fails: a rejected call or confirmation is one that leaves
the store alone. -/
def network : Machine Net Action Empty Unit where
  init := ⟨.empty, 0, [], [], []⟩
  invoke a n := .ok ((), n.next a)

/-! ## What holds of every run -/

/-- The invariant of the network: the store's, the confirmations of the pending proposal are those
of the ballots, no ballot in flight was cast on a later proposal, and an execution had a quorum
and installed what was proposed. -/
structure NetOK (n : Net) : Prop where
  store : StoreOK n.store
  counted : ∀ p, n.store.pendingTransfer = some p → p.confirmations = n.ballots.map (·.signer)
  numbered : ∀ b ∈ n.inflight, b.seen.number ≤ n.proposals
  executed : ∀ e ∈ n.executed, (e.ballots.map (·.signer)).Nodup ∧
    e.threshold.toNat ≤ e.ballots.length ∧
    e.installed = some ⟨e.proposal.newSigners, e.proposal.newThreshold⟩

/-- What an accepted execution records. -/
theorem mem_execution {n : Net} (h : NetOK n) {p : PendingAdminTransfer} {cfg : MultisigConfig}
    (hp : n.store.pendingTransfer = some p) (hm : n.store.multisig = some cfg)
    (hth : cfg.threshold.toNat ≤ p.confirmations.length) {st : Store}
    (hst : st.multisig = some ⟨p.newSigners, p.newThreshold⟩) {e : Execution}
    (he : e ∈ n.execution st) :
    e = ⟨⟨n.proposals, p.newSigners, p.newThreshold⟩, cfg.threshold, n.ballots, st.multisig⟩ ∧
      (e.ballots.map (·.signer)).Nodup ∧ e.threshold.toNat ≤ e.ballots.length ∧
      e.installed = some ⟨e.proposal.newSigners, e.proposal.newThreshold⟩ := by
  have hq : n.pending = some ⟨n.proposals, p.newSigners, p.newThreshold⟩ := by
    rw [Net.pending, hp]; rfl
  simp only [Net.execution, hq, hm, List.mem_singleton] at he
  subst he
  have hc := h.counted p hp
  refine ⟨rfl, ?_, ?_, hst⟩
  · show (n.ballots.map (·.signer)).Nodup
    rw [← hc]; exact (h.store.pending p hp).nodup
  · show cfg.threshold.toNat ≤ n.ballots.length
    rw [hc, List.length_map] at hth; exact hth

/-- An accepted call other than a confirmation keeps the invariant. -/
theorem NetOK.committed {n : Net} (h : NetOK n) {env : Env} {c : Call} {st : Store} {u : Unit}
    (hc : c.isConfirm = false) (hi : harness.invoke (env, c) n.store = .ok (u, st)) :
    NetOK (n.committed st c) := by
  have hst := h.store.step hi
  rcases harness_cases hi with
    ⟨sg, th, tl, rfl, -, -, -, -, -, hp'⟩ | ⟨o, rfl, ho, -, -, hp'⟩ |
    ⟨caller, ns, nt, rfl, -, -, rfl⟩ | ⟨caller, p, rfl, -⟩ |
    ⟨caller, p, cfg, rfl, hp, hm, hth, -, rfl⟩ | ⟨caller, rfl, rfl⟩
  · exact ⟨hst, fun p hp => h.counted p (hp' ▸ hp), h.numbered, h.executed⟩
  · rw [Net.committed_of_not_transfer ho]
    exact ⟨hst, fun p hp => h.counted p (hp' ▸ hp), h.numbered, h.executed⟩
  · refine ⟨hst, fun p hp => ?_, fun b hb => Nat.le_succ_of_le (h.numbered b hb), h.executed⟩
    cases hp; rfl
  · cases hc
  · refine ⟨hst, fun q hq => by (cases hq), h.numbered, fun e he => ?_⟩
    rcases List.mem_append.1 he with he | he
    · exact h.executed e he
    · exact (mem_execution h hp hm hth rfl he).2
  · exact ⟨hst, fun q hq => by (cases hq), h.numbered, h.executed⟩

/-- Every action keeps the invariant. -/
theorem NetOK.next {n : Net} (h : NetOK n) (a : Action) : NetOK (n.next a) := by
  cases a with
  | send signer =>
    simp only [Net.next, Net.send]
    cases hq : n.pending with
    | none => exact h
    | some q =>
      refine ⟨h.store, h.counted, fun b hb => ?_, h.executed⟩
      rcases List.mem_append.1 hb with hb | hb
      · exact h.numbered b hb
      · rw [List.mem_singleton] at hb
        subst hb
        rw [Net.pending, Option.map_eq_some_iff] at hq
        obtain ⟨p, -, rfl⟩ := hq
        exact Nat.le_refl _
  | confirm env k =>
    simp only [Net.next, Net.confirm]
    have herase : ∀ b ∈ n.inflight.eraseIdx k, b.seen.number ≤ n.proposals :=
      fun b hb => h.numbered b (List.mem_of_mem_eraseIdx hb)
    cases hk : n.inflight[k]? with
    | none => exact h
    | some b =>
      dsimp only
      cases hcf : confirmAdminTransfer env n.store b.signer with
      | error e => exact ⟨h.store, h.counted, herase, h.executed⟩
      | ok st =>
        have hi : harness.invoke (env, .op (.confirmAdminTransfer b.signer)) n.store =
            .ok ((), st) := harness_invoke_eq_ok.2 (.inr ⟨_, rfl, hcf⟩)
        refine ⟨h.store.step hi, fun q hq => ?_, herase, h.executed⟩
        obtain ⟨-, p, hp, -, rfl⟩ := confirmAdminTransfer_eq_ok.1 hcf
        cases hq
        simp [h.counted p hp]
  | call env c hc =>
    simp only [Net.next, Net.call]
    cases hi : harness.invoke (env, c) n.store with
    | error e => exact h
    | ok r => exact h.committed hc hi

/-- The invariant holds after every run. -/
theorem netOK_exec (as : List Action) : NetOK (network.exec network.init as) := by
  have h0 : NetOK network.init :=
    ⟨.empty, fun p hp => by (cases hp), fun b hb => by (cases hb), fun e he => by (cases he)⟩
  refine Machine.invariant (I := NetOK) h0 (fun a n u n' h hi => ?_) as
  cases hi
  exact h.next a

/-! ## What holds where no proposal overtakes a confirmation -/

/-- Every ballot counts for the proposal its signer saw: those of the pending proposal and those
of every executed one. -/
structure Faithful (n : Net) : Prop where
  pending : ∀ q, n.pending = some q → ∀ b ∈ n.ballots, b.seen = q
  executed : ∀ e ∈ n.executed, ∀ b ∈ e.ballots, b.seen = e.proposal

/-- The action overtakes no confirmation: an accepted proposal is delivered only while every
ballot in flight of a current signer is the proposer's own. -/
def Undisturbed (n : Net) : Action → Prop
  | .call env (.op (.proposeAdminTransfer caller ns nt)) _ =>
    (proposeAdminTransfer env n.store caller ns nt).isOk = true →
      ∀ b ∈ n.inflight, isSigner n.store b.signer = true → b.signer = caller
  | _ => True

/-- Every ballot in flight that could still be accepted was cast on the pending proposal. -/
def Current (n : Net) : Prop :=
  ∀ p, n.store.pendingTransfer = some p → ∀ b ∈ n.inflight, isSigner n.store b.signer = true →
    b.signer ∉ p.confirmations → n.pending = some b.seen

/-- Signers are read off the signer set alone. -/
theorem isSigner_congr {st st' : Store} (h : st'.multisig = st.multisig) (a : Address) :
    isSigner st' a = isSigner st a := by
  rw [isSigner, isSigner, h]

/-- A network whose ballots and executions are those of a faithful one, with the same pending
proposal, is faithful. -/
theorem Faithful.congr {n n' : Net} (h : Faithful n) (hp : n'.pending = n.pending)
    (hb : n'.ballots = n.ballots) (he : n'.executed = n.executed) : Faithful n' :=
  ⟨fun q hq => hb ▸ h.pending q (hp ▸ hq), he ▸ h.executed⟩

/-- An undisturbed accepted call keeps the ballots faithful and the ones in flight current. -/
theorem Faithful.committed {n : Net} (hok : NetOK n) (hf : Faithful n) (hcur : Current n)
    {env : Env} {c : Call} {st : Store} {u : Unit} (hc : c.isConfirm = false)
    (hund : Undisturbed n (.call env c hc))
    (hi : harness.invoke (env, c) n.store = .ok (u, st)) :
    Faithful (n.committed st c) ∧ Current (n.committed st c) := by
  rcases harness_cases hi with
    ⟨sg, th, tl, rfl, hm, -, -, -, -, hp'⟩ | ⟨o, rfl, ho, hm, -, hp'⟩ |
    ⟨caller, ns, nt, rfl, -, -, rfl⟩ | ⟨caller, p, rfl, -⟩ |
    ⟨caller, p, cfg, rfl, hp, hm, hth, -, rfl⟩ | ⟨caller, rfl, rfl⟩
  · -- setup: nothing is pending, before or after
    have hnone := hok.store.pending_none hm
    refine ⟨hf.congr ?_ rfl rfl, fun p hp => ?_⟩
    · simp only [Net.pending, Net.committed, hp']
    · rw [show (n.committed st (.init sg th tl)).store = st from rfl, hp', hnone] at hp
      cases hp
  · rw [Net.committed_of_not_transfer ho]
    have hpend : Net.pending { n with store := st } = n.pending := by
      simp only [Net.pending, hp']
    refine ⟨hf.congr hpend rfl rfl, fun p hp b hb hs hn => ?_⟩
    rw [hpend]
    exact hcur p (hp' ▸ hp) b hb ((isSigner_congr hm b.signer) ▸ hs) hn
  · -- a proposal: every ballot in flight that could be accepted is the proposer's own
    have hprop : (proposeAdminTransfer env n.store caller ns nt).isOk = true := by
      rcases harness_invoke_eq_ok.1 hi with ⟨_, _, _, hx, -⟩ | ⟨o, hx, ho⟩
      · cases hx
      · cases hx; exact isOk_iff.2 ⟨_, ho⟩
    refine ⟨⟨fun q hq b hb => ?_, hf.executed⟩, fun p hp b hb hs hn => ?_⟩
    · cases hq
      simp only [Net.committed, List.mem_singleton] at hb
      subst hb; rfl
    · cases hp
      exact absurd (List.mem_singleton.2 (hund hprop b hb hs)) hn
  · cases hc
  · refine ⟨⟨nofun, fun e he b hb => ?_⟩, nofun⟩
    rcases List.mem_append.1 he with he | he
    · exact hf.executed e he b hb
    · obtain ⟨rfl, -⟩ := mem_execution hok hp hm hth rfl he
      exact hf.pending _ (by rw [Net.pending, hp]; rfl) b hb
  · exact ⟨⟨nofun, hf.executed⟩, nofun⟩

/-- An undisturbed action keeps the ballots faithful and the ones in flight current. -/
theorem Faithful.next {n : Net} (hok : NetOK n) (hf : Faithful n) (hcur : Current n) {a : Action}
    (hund : Undisturbed n a) : Faithful (n.next a) ∧ Current (n.next a) := by
  cases a with
  | send signer =>
    simp only [Net.next, Net.send]
    cases hq : n.pending with
    | none => exact ⟨hf, hcur⟩
    | some q =>
      refine ⟨hf.congr rfl rfl rfl, fun p hp b hb hs hn => ?_⟩
      rcases List.mem_append.1 hb with hb | hb
      · exact hcur p hp b hb hs hn
      · rw [List.mem_singleton] at hb
        subst hb; exact hq
  | confirm env k =>
    simp only [Net.next, Net.confirm]
    cases hk : n.inflight[k]? with
    | none => exact ⟨hf, hcur⟩
    | some b =>
      dsimp only
      cases hcf : confirmAdminTransfer env n.store b.signer with
      | error e =>
        exact ⟨hf.congr rfl rfl rfl,
          fun p hp c hc hs hn => hcur p hp c (List.mem_of_mem_eraseIdx hc) hs hn⟩
      | ok st =>
        obtain ⟨⟨-, hs⟩, p, hp, hnot, rfl⟩ := confirmAdminTransfer_eq_ok.1 hcf
        have hseen := hcur p hp b (List.mem_of_getElem? hk) hs hnot
        have hpend : n.pending = some ⟨n.proposals, p.newSigners, p.newThreshold⟩ := by
          rw [Net.pending, hp]; rfl
        refine ⟨⟨fun q hq c hc => ?_, hf.executed⟩, fun q hq c hc hs' hn => ?_⟩
        · have hq' : n.pending = some q := hpend.trans hq
          rcases List.mem_append.1 hc with hc | hc
          · exact hf.pending q hq' c hc
          · rw [List.mem_singleton] at hc
            subst hc
            exact Option.some.inj (hseen.symm.trans hq')
        · cases hq
          refine hpend.symm.trans (hcur p hp c (List.mem_of_mem_eraseIdx hc) hs' fun hmem => ?_)
          exact hn (List.mem_append_left _ hmem)
  | call env c hc =>
    simp only [Net.next, Net.call]
    cases hi : harness.invoke (env, c) n.store with
    | error e => exact ⟨hf, hcur⟩
    | ok r => exact hf.committed hok hcur hc hund hi

/-- In a run whose actions overtake no confirmation, every ballot counts for the proposal its
signer saw. -/
theorem faithful_exec {as : List Action}
    (h : ∀ t ∈ network.trace network.init as, Undisturbed t.pre t.input) :
    Faithful (network.exec network.init as) := by
  have key : NetOK (network.exec network.init as) ∧ Faithful (network.exec network.init as) ∧
      Current (network.exec network.init as) := by
    refine Machine.invariant_of (I := fun n => NetOK n ∧ Faithful n ∧ Current n)
      (C := fun t => Undisturbed t.pre t.input) ⟨netOK_exec [], ⟨nofun, nofun⟩, nofun⟩
      (fun a n u n' hI hC hi => ?_) h
    cases hi
    exact ⟨hI.1.next a, hI.2.1.next hI.1 hI.2.2 hC⟩
  exact key.2.1

/-- An execution on faithful ballots that any fewer signers than the threshold collude in has a
ballot of another signer, cast on the executed proposal. -/
theorem exists_honest_ballot {n : Net} (hok : NetOK n) (hf : Faithful n) {e : Execution}
    (he : e ∈ n.executed) {colluders : List Address}
    (hlt : colluders.length < e.threshold.toNat) :
    ∃ b ∈ e.ballots, b.signer ∉ colluders ∧ b.seen = e.proposal := by
  obtain ⟨hnd, hth, -⟩ := hok.executed e he
  by_contra hall
  -- otherwise the distinct signers of the ballots are all among the colluders
  have hsub : e.ballots.map (·.signer) ⊆ colluders := by
    intro a ha
    obtain ⟨b, hb, rfl⟩ := List.mem_map.1 ha
    by_contra hn
    exact hall ⟨b, hb, hn, hf.executed e he b hb⟩
  have hle := (List.subperm_of_subset hnd hsub).length_le
  rw [List.length_map] at hle
  omega

/-- A proposal that overtakes a confirmation can be followed at once by the delivery that counts
the confirmation for it. -/
theorem overtaken_ballot {n : Net} (hok : NetOK n) {a : Action} (h : ¬ Undisturbed n a) :
    ∃ b, ¬ Faithful ((n.next a).next b) := by
  match a with
  | .send _ | .confirm _ _ => exact absurd trivial h
  | .call env (.init _ _ _) _ => exact absurd trivial h
  | .call env (.op (.grantRole _ _ _)) _ | .call env (.op (.revokeRole _ _ _)) _
  | .call env (.op (.pause _)) _ | .call env (.op (.unpause _)) _
  | .call env (.op (.confirmAdminTransfer _)) _ | .call env (.op (.executeAdminTransfer _)) _
  | .call env (.op (.cancelAdminTransfer _)) _ => exact absurd trivial h
  | .call env (.op (.proposeAdminTransfer caller ns nt)) hc =>
    simp only [Undisturbed, not_forall] at h
    obtain ⟨hprop, b, hb, hs, hne⟩ := h
    obtain ⟨st, hst⟩ := isOk_iff.1 hprop
    obtain ⟨k, hk, hbk⟩ := List.getElem_of_mem hb
    have hi : harness.invoke (env, .op (.proposeAdminTransfer caller ns nt)) n.store =
        .ok ((), st) := harness_invoke_eq_ok.2 (.inr ⟨_, rfl, hst⟩)
    have hnext : n.next (.call env (.op (.proposeAdminTransfer caller ns nt)) hc) =
        n.committed st (.op (.proposeAdminTransfer caller ns nt)) := by
      rw [Net.next, Net.call, hi]
    obtain ⟨-, -, rfl⟩ := proposeAdminTransfer_eq_ok.1 hst
    refine ⟨.confirm ⟨env.sequence, env.timestamp, [b.signer]⟩ k, fun hf => ?_⟩
    rw [hnext] at hf
    have hget : n.inflight[k]? = some b := by rw [List.getElem?_eq_getElem hk, hbk]
    -- the delivery is accepted: its signer is current and has not confirmed the new proposal
    have hcf : confirmAdminTransfer ⟨env.sequence, env.timestamp, [b.signer]⟩
        { n.store with pendingTransfer := some ⟨ns, nt, env.sequence, [caller]⟩ } b.signer =
        .ok { n.store with
          pendingTransfer := some ⟨ns, nt, env.sequence, [caller, b.signer]⟩ } :=
      confirmAdminTransfer_eq_ok.2 ⟨⟨.head _, hs⟩, _, rfl, by simpa using hne, rfl⟩
    simp only [Net.next, Net.confirm, Net.committed, hget, hcf] at hf
    have hseen := hf.pending ⟨n.proposals + 1, ns, nt⟩ rfl b
      (List.mem_append_right _ (.head _))
    have hnum := hok.numbered b hb
    rw [hseen] at hnum
    exact absurd hnum (Nat.not_succ_le_self _)

/-- **A confirmation counts for the proposal its signer saw exactly where no proposal overtakes
it.** In every state of a run in which no accepted proposal overtakes the confirmation of another
current signer, the confirmations of the pending proposal are the signers of its ballots, every
ballot, pending or executed, counts for the proposal its signer saw, and no set of fewer signers
than the threshold has installed a signer set without a ballot that another signer cast on it. And
a proposal that overtakes a confirmation can be followed at once by a delivery after which a
ballot counts for a proposal its signer did not see. -/
theorem ballots_faithful (as : List Action) :
    ((∀ t ∈ network.trace network.init as, Undisturbed t.pre t.input) →
      ∀ as₁ as₂, as = as₁ ++ as₂ →
        (∀ p, (network.exec network.init as₁).store.pendingTransfer = some p →
          p.confirmations = (network.exec network.init as₁).ballots.map (·.signer)) ∧
        Faithful (network.exec network.init as₁) ∧
        ∀ e ∈ (network.exec network.init as₁).executed,
          e.installed = some ⟨e.proposal.newSigners, e.proposal.newThreshold⟩ ∧
          ∀ colluders : List Address, colluders.length < e.threshold.toNat →
            ∃ b ∈ e.ballots, b.signer ∉ colluders ∧ b.seen = e.proposal) ∧
    ∀ a : Action, ¬ Undisturbed (network.exec network.init as) a →
      ∃ b, ¬ Faithful (network.exec network.init (as ++ [a, b])) := by
  refine ⟨fun h as₁ as₂ has => ?_, fun a ha => ?_⟩
  · have hok := netOK_exec as₁
    have hf : Faithful (network.exec network.init as₁) := by
      rw [has] at h
      exact faithful_exec fun t ht => h t (Machine.mem_trace_append ht)
    exact ⟨hok.counted, hf, fun e he => ⟨(hok.executed e he).2.2,
      fun colluders hlt => exists_honest_ballot hok hf he hlt⟩⟩
  · obtain ⟨b, hb⟩ := overtaken_ballot (netOK_exec as) ha
    refine ⟨b, ?_⟩
    rw [Machine.exec_append]
    exact hb

/-- A run of a 2-of-3 signer set in which the second signer's confirmation of the first signer's
proposal is overtaken by the third signer's: it is counted for the third signer's proposal, which
is executed and hands the contract to the third signer alone. -/
def overtakenRun : List Action :=
  [.call ⟨1, 0, []⟩ (.init [⟨1⟩, ⟨2⟩, ⟨3⟩] 2 34560) rfl,
    .call ⟨1, 0, [⟨1⟩]⟩ (.op (.proposeAdminTransfer ⟨1⟩ [⟨1⟩, ⟨2⟩, ⟨4⟩] 2)) rfl,
    .send ⟨2⟩,
    .call ⟨2, 0, [⟨3⟩]⟩ (.op (.proposeAdminTransfer ⟨3⟩ [⟨3⟩] 1)) rfl,
    .confirm ⟨3, 0, [⟨2⟩]⟩ 0,
    .call ⟨40000, 0, [⟨3⟩]⟩ (.op (.executeAdminTransfer ⟨3⟩)) rfl]

/-- Without the condition a confirmation counts for a proposal its signer did not see, and one
signer of a threshold of two installs a signer set that no other confirming signer saw. -/
theorem overtaken_ballot_counts :
    ¬ Faithful (network.exec network.init overtakenRun) ∧
    ∃ e ∈ (network.exec network.init overtakenRun).executed,
      [(⟨3⟩ : Address)].length < e.threshold.toNat ∧ e.installed = some ⟨[⟨3⟩], 1⟩ ∧
      ∀ b ∈ e.ballots, b.signer ∉ [(⟨3⟩ : Address)] → b.seen ≠ e.proposal := by
  have hex : ∃ e ∈ (network.exec network.init overtakenRun).executed,
      [(⟨3⟩ : Address)].length < e.threshold.toNat ∧ e.installed = some ⟨[⟨3⟩], 1⟩ ∧
      (∃ b ∈ e.ballots, b.signer ∉ [(⟨3⟩ : Address)]) ∧
      ∀ b ∈ e.ballots, b.signer ∉ [(⟨3⟩ : Address)] → b.seen ≠ e.proposal := by
    decide
  obtain ⟨e, he, hlt, hinst, ⟨b, hb, hbs⟩, hne⟩ := hex
  exact ⟨fun hf => hne b hb hbs (hf.executed e he b hb), e, he, hlt, hinst, hne⟩

end AccessControl

end InvoiceFi
