import InvoiceFi.Contracts.Oracle

/-!
# Who may submit

The authorized submitters of an asset pair are a field of its configuration, next to the tolerance
and the staleness. `authorize_submitter` and `revoke_submitter` read the record and write it back
with one address more or less; `configure_asset_pair` writes a new record, with no submitters. A
step is one of four kinds (`MemberStep`), and over the steps of three of them the list is what the
history of authorizations and revocations says. A configuration keeps that exactly when it finds
nobody to lose (`submittersKept_iff`): the first of a pair does, the re-tuning of a pair in use
does not.
-/

namespace InvoiceFi

namespace Oracle

/-- The authorized submitters of an asset pair, of which there are none before it is configured. -/
def submittersOf (s : Store) (assetPair : Symbol) : List Address :=
  match s.assetConfig assetPair with
  | some config => config.authorizedSubmitters
  | none => []

/-- The step is a successful `configure_asset_pair` of the pair. -/
def Configures (assetPair : Symbol) (t : OracleStep) : Prop :=
  t.Accepted ∧ ∃ caller tol stale, t.input.2 = .configureAssetPair caller assetPair tol stale

/-- What a step says about `a` as a submitter of the pair: a successful authorization admits it and
a successful revocation removes it. -/
def memberChange (assetPair : Symbol) (a : Address) (t : OracleStep) : Option Bool :=
  match t.input.2 with
  | .authorizeSubmitter _ p x => if (p, x) = (assetPair, a) ∧ t.Accepted then some true else none
  | .revokeSubmitter _ p x => if (p, x) = (assetPair, a) ∧ t.Accepted then some false else none
  | _ => none

/-- The last successful authorization or revocation of `a` for the pair in a history: whether it
was an authorization. -/
def lastMemberChange (assetPair : Symbol) (a : Address) (h : List OracleStep) : Option Bool :=
  Machine.latest (memberChange assetPair a) h

/-- A reverted call changes no membership. -/
theorem memberChange_rejected {assetPair : Symbol} {a : Address} {t : OracleStep}
    (ht : ¬ t.Accepted) : memberChange assetPair a t = none := by
  unfold memberChange
  split
  · rw [if_neg fun h => ht h.2]
  · rw [if_neg fun h => ht h.2]
  · rfl

/-! ## What one step does to the list -/

/-- What a step can do to the submitters of a pair: a configuration of the pair leaves none, an
authorization appends one that was not there, a revocation removes one, and any other step leaves
them. -/
inductive MemberStep (assetPair : Symbol) (t : OracleStep) : Prop where
  | configured (hconf : Configures assetPair t)
      (hpost : submittersOf t.post assetPair = [])
      (hchange : ∀ x, memberChange assetPair x t = none)
  | authorized (a : Address) (hnew : a ∉ submittersOf t.pre assetPair)
      (hpost : submittersOf t.post assetPair = submittersOf t.pre assetPair ++ [a])
      (hchange : ∀ x, memberChange assetPair x t = if x = a then some true else none)
  | revoked (a : Address)
      (hpost : submittersOf t.post assetPair = (submittersOf t.pre assetPair).filter (· ≠ a))
      (hchange : ∀ x, memberChange assetPair x t = if x = a then some false else none)
  | kept (hpost : submittersOf t.post assetPair = submittersOf t.pre assetPair)
      (hchange : ∀ x, memberChange assetPair x t = none)

/-- The submitters of a pair after its configuration is written. -/
theorem submittersOf_update_self {s s' : Store} {assetPair : Symbol} {config : OracleConfig}
    (h : s'.assetConfig = Function.update s.assetConfig assetPair (some config)) :
    submittersOf s' assetPair = config.authorizedSubmitters := by
  rw [submittersOf, h, Function.update_self]

/-- The submitters of the other pairs then. -/
theorem submittersOf_update_of_ne {s s' : Store} {p assetPair : Symbol} {config : OracleConfig}
    (h : s'.assetConfig = Function.update s.assetConfig p (some config)) (hne : p ≠ assetPair) :
    submittersOf s' assetPair = submittersOf s assetPair := by
  rw [submittersOf, submittersOf, h, Function.update_of_ne (Ne.symm hne)]

/-- The submitters of a configured pair. -/
theorem submittersOf_some {s : Store} {assetPair : Symbol} {config : OracleConfig}
    (h : s.assetConfig assetPair = some config) :
    submittersOf s assetPair = config.authorizedSubmitters := by
  rw [submittersOf, h]

/-- Every successful call is such a step. -/
theorem memberStep_of_invoke {i : Env × Call} {s s' : Store} {u : Unit}
    (h : oracle.invoke i s = .ok (u, s')) (assetPair : Symbol) :
    MemberStep assetPair ⟨s, i, .ok u, s'⟩ := by
  have hacc : (⟨s, i, .ok u, s'⟩ : OracleStep).Accepted := rfl
  obtain ⟨s₁, h, heq⟩ := map_eq_ok.1 h
  cases heq
  obtain ⟨env, c⟩ := i
  cases c with
  | init admin =>
    obtain ⟨-, -, rfl⟩ := init_eq_ok.1 h
    exact .kept rfl fun x => rfl
  | configureAssetPair caller p tol stale =>
    obtain ⟨-, -, -, hs'⟩ := configureAssetPair_eq_ok.1 h
    have hcfg := congrArg Store.assetConfig hs'
    by_cases hp : p = assetPair
    · subst hp
      exact .configured ⟨hacc, caller, tol, stale, rfl⟩ (submittersOf_update_self hcfg) fun x => rfl
    · exact .kept (submittersOf_update_of_ne hcfg hp) fun x => rfl
  | authorizeSubmitter caller p a =>
    obtain ⟨-, config, hc, hnew, hs'⟩ := authorizeSubmitter_eq_ok.1 h
    have hcfg := congrArg Store.assetConfig hs'
    by_cases hp : p = assetPair
    · subst hp
      refine .authorized a ?_ ?_ fun x => ?_
      · rwa [submittersOf_some hc]
      · rw [submittersOf_some hc, submittersOf_update_self hcfg]
      · simp [memberChange, hacc, eq_comm]
    · exact .kept (submittersOf_update_of_ne hcfg hp) fun x => by simp [memberChange, hp]
  | revokeSubmitter caller p a =>
    obtain ⟨-, config, hc, -, hs'⟩ := revokeSubmitter_eq_ok.1 h
    have hcfg := congrArg Store.assetConfig hs'
    by_cases hp : p = assetPair
    · subst hp
      refine .revoked a ?_ fun x => ?_
      · rw [submittersOf_some hc, submittersOf_update_self hcfg]
      · simp [memberChange, hacc, eq_comm]
    · exact .kept (submittersOf_update_of_ne hcfg hp) fun x => by simp [memberChange, hp]
  | submitPrice a p price =>
    obtain ⟨-, -, config, -, -, rfl⟩ := submitPrice_eq_ok.1 h
    exact .kept rfl fun x => rfl

/-- Every step of a run is such a step. -/
theorem memberStep_of_mem {is : List (Env × Call)} (assetPair : Symbol) :
    ∀ t ∈ oracle.trace oracle.init is, MemberStep assetPair t :=
  Machine.forall_mem_trace (fun _ _ _ _ hi => memberStep_of_invoke hi assetPair)
    fun _ _ _ => .kept rfl fun _ => memberChange_rejected Bool.false_ne_true

/-! ## What the list holds -/

/-- The list has no duplicates and holds exactly the addresses whose last change in the history was
an authorization. -/
structure ListedBy (assetPair : Symbol) (h : List OracleStep) (s : Store) : Prop where
  nodup : (submittersOf s assetPair).Nodup
  mem_iff : ∀ a, a ∈ submittersOf s assetPair ↔ lastMemberChange assetPair a h = some true

/-- A step keeps the list in line with the history, if it is no configuration that loses
submitters. -/
theorem ListedBy.step {assetPair : Symbol} {h : List OracleStep} {t : OracleStep}
    (hl : ListedBy assetPair h t.pre) (ht : MemberStep assetPair t)
    (hconf : Configures assetPair t → submittersOf t.pre assetPair = []) :
    ListedBy assetPair (h ++ [t]) t.post := by
  have hkept : submittersOf t.post assetPair = submittersOf t.pre assetPair →
      (∀ x, memberChange assetPair x t = none) → ListedBy assetPair (h ++ [t]) t.post := by
    intro hpost hchange
    refine ⟨hpost ▸ hl.nodup, fun a => ?_⟩
    rw [lastMemberChange, Machine.latest_concat, hchange, Option.none_or, hpost]
    exact hl.mem_iff a
  cases ht with
  | configured hc hpost hchange => exact hkept (hpost.trans (hconf hc).symm) hchange
  | kept hpost hchange => exact hkept hpost hchange
  | authorized b hnew hpost hchange =>
    refine ⟨?_, fun a => ?_⟩
    · rw [hpost]
      exact hl.nodup.append (List.nodup_singleton b) (by simpa using hnew)
    · rw [lastMemberChange, Machine.latest_concat, hchange, hpost, List.mem_append,
        List.mem_singleton, hl.mem_iff]
      by_cases hab : a = b
      · simp [hab]
      · simp [hab, lastMemberChange]
  | revoked b hpost hchange =>
    refine ⟨hpost ▸ hl.nodup.filter _, fun a => ?_⟩
    rw [lastMemberChange, Machine.latest_concat, hchange, hpost, List.mem_filter, hl.mem_iff]
    by_cases hab : a = b
    · simp [hab]
    · simp [hab, lastMemberChange]

/-- Before the first call the list is empty, and so is the history. -/
theorem ListedBy.nil (assetPair : Symbol) : ListedBy assetPair [] oracle.init :=
  ⟨List.nodup_nil, fun _ => iff_of_false List.not_mem_nil nofun⟩

/-- The prices that `get_price` aggregates for a pair, and the newest of their ledgers. -/
def aggregated (s : Store) (assetPair : Symbol) : List I128 × UInt64 :=
  collect s assetPair (submittersOf s assetPair)

/-- The run keeps the submitters of a pair: after every part of it the list is in line with the
history, and a configuration of the pair leaves the list and the prices to aggregate. -/
structure SubmittersKept (assetPair : Symbol) (is : List (Env × Call)) : Prop where
  listed : ∀ is₁ is₂, is = is₁ ++ is₂ →
    ListedBy assetPair (oracle.trace oracle.init is₁) (oracle.exec oracle.init is₁)
  retuned : ∀ t ∈ oracle.trace oracle.init is, Configures assetPair t →
    submittersOf t.post assetPair = submittersOf t.pre assetPair ∧
      aggregated t.post assetPair = aggregated t.pre assetPair

/-- A configuration of a pair leaves it without submitters. -/
theorem submittersOf_configured {is : List (Env × Call)} {assetPair : Symbol} {t : OracleStep}
    (ht : t ∈ oracle.trace oracle.init is) (hc : Configures assetPair t) :
    submittersOf t.post assetPair = [] := by
  obtain ⟨hacc, caller, tol, stale, hi⟩ := hc
  obtain ⟨u, hok⟩ := Machine.invoke_of_mem_trace ht hacc
  obtain ⟨s₁, hok, heq⟩ := map_eq_ok.1 hok
  cases heq
  rw [hi] at hok
  obtain ⟨-, -, -, hs'⟩ := configureAssetPair_eq_ok.1 hok
  exact submittersOf_update_self (congrArg Store.assetConfig hs')

/-- **Re-tuning a pair keeps its submitters exactly where it has none.** A run keeps the submitters
of a pair if and only if every successful `configure_asset_pair` of the pair finds the list
empty. -/
theorem submittersKept_iff (assetPair : Symbol) (is : List (Env × Call)) :
    SubmittersKept assetPair is ↔
      ∀ t ∈ oracle.trace oracle.init is, Configures assetPair t →
        submittersOf t.pre assetPair = [] := by
  constructor
  · intro hkept t ht hc
    rw [← (hkept.retuned t ht hc).1]
    exact submittersOf_configured ht hc
  · intro hcond
    refine ⟨fun is₁ is₂ his => ?_, fun t ht hc => ?_⟩
    · refine Machine.history_of (m := oracle) (H := ListedBy assetPair)
        (P := fun t => MemberStep assetPair t ∧
          (Configures assetPair t → submittersOf t.pre assetPair = []))
        (.nil assetPair)
        (fun h t ht hl => hl.step ht.1 ht.2) fun t ht => ⟨memberStep_of_mem assetPair t ht, ?_⟩
      subst his
      exact hcond t (Machine.mem_trace_append ht)
    · have hpre := hcond t ht hc
      have hpost := submittersOf_configured ht hc
      refine ⟨hpost.trans hpre.symm, ?_⟩
      rw [aggregated, aggregated, hpost, hpre]
      rfl

/-- A run that configures a pair, authorizes one submitter for it, and then changes the
tolerance. -/
def retunedRun : List (Env × Call) :=
  [(⟨0, 0, [⟨1⟩]⟩, .init ⟨1⟩),
   (⟨1, 0, [⟨1⟩]⟩, .configureAssetPair ⟨1⟩ "XLM_USDC" 500 100),
   (⟨2, 0, [⟨1⟩]⟩, .authorizeSubmitter ⟨1⟩ "XLM_USDC" ⟨2⟩),
   (⟨3, 0, [⟨1⟩]⟩, .configureAssetPair ⟨1⟩ "XLM_USDC" 300 100)]

/-- The change of the tolerance removes the submitter, whom nobody revoked. -/
theorem retuning_drops_submitters :
    ¬ ∀ (assetPair : Symbol) (is : List (Env × Call)), SubmittersKept assetPair is := by
  intro h
  have hlast : lastMemberChange "XLM_USDC" ⟨2⟩ (oracle.trace oracle.init retunedRun) =
      some true := by decide
  have hmem := (((h "XLM_USDC" retunedRun).listed retunedRun [] rfl).mem_iff ⟨2⟩).2 hlast
  exact absurd hmem (by decide)

end Oracle

end InvoiceFi
