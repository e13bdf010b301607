import InvoiceFi.Contracts.Invoice.Steps

/-!
# Invoice ids

`mint` hands out the successors of the counter. `minted_exec` counts: after every run the counter
is the number of mints, modulo `2 ^ 64`. As long as no mint wraps (`Wraps`), the ids handed out are
at most the counter (`minted_le_total`), so each is new, and `ids_sound_iff` says that this is the
whole condition: the ids of a run are sound exactly when no mint of it finds the counter at
`u64::MAX`.

At `u64::MAX` the checked sum is taken in 128 bits, where it does not overflow, and the narrowed
result is `0`. `mintRun n` is a run of `n` mints; the one of `2 ^ 64` mints gets there.
-/

namespace InvoiceFi

namespace Invoicing

/-! ## Counting the mints -/

/-- The ids that the mints of a history returned, oldest first. -/
def mintedIds (h : List InvoiceStep) : List UInt64 := h.filterMap mintedId

theorem mintedIds_concat_none {h : List InvoiceStep} {t : InvoiceStep} (ht : mintedId t = none) :
    mintedIds (h ++ [t]) = mintedIds h := by
  simp [mintedIds, ht]

theorem mintedIds_concat_some {h : List InvoiceStep} {t : InvoiceStep} {n : UInt64}
    (ht : mintedId t = some n) : mintedIds (h ++ [t]) = mintedIds h ++ [n] := by
  simp [mintedIds, ht]

/-- The history of a run backs the counter: nothing is minted before the setup, and the counter is
the number of mints as a 64-bit word. -/
structure Counted (h : List InvoiceStep) (s : Store) : Prop where
  fresh : s.ac.multisig = none → mintedIds h = []
  total : (totalMinted s).toNat = (mintedIds h).length % 2 ^ 64

theorem Counted.step {h : List InvoiceStep} {t : InvoiceStep} (ht : CounterStep t)
    (hc : Counted h t.pre) : Counted (h ++ [t]) t.post := by
  cases ht with
  | setup hid hpre hpost h0 hinv =>
    refine ⟨fun h => absurd h hpost, ?_⟩
    rw [mintedIds_concat_none hid, hc.fresh hpre, h0]
    rfl
  | mint hcall hr hid htotal hac =>
    refine ⟨fun h => absurd (hac ▸ h) hr.1, ?_⟩
    rw [mintedIds_concat_some hid, htotal, UInt64.toNat_add, hc.total, List.length_append,
      UInt64.toNat_one, List.length_singleton]
    omega
  | idle hid htotal hm =>
    have hids := mintedIds_concat_none (h := h) hid
    exact ⟨fun h => hids.trans (hc.fresh (hm h)), by rw [htotal, hids]; exact hc.total⟩

/-- After every run the counter is the number of its mints, modulo `2 ^ 64`. -/
theorem minted_exec (is : List (Env × Call)) :
    Counted (invoiceContract.trace invoiceContract.init is)
      (invoiceContract.exec invoiceContract.init is) :=
  Machine.history_of (m := invoiceContract) (P := CounterStep) ⟨fun _ => rfl, rfl⟩
    (fun _ _ ht hc => hc.step ht) fun _ => counterStep_of_mem

/-- The mints of a part of a run are among its mints. -/
theorem mintedIds_length_le (s : Store) (is js : List (Env × Call)) :
    (mintedIds (invoiceContract.trace s is)).length ≤
      (mintedIds (invoiceContract.trace s (is ++ js))).length := by
  rw [Machine.trace_append, mintedIds, mintedIds, List.filterMap_append, List.length_append]
  omega

/-- A run with fewer than `2 ^ 64 - 1` mints has none that wraps. -/
theorem not_wraps_of_few {is : List (Env × Call)}
    (hfew : (mintedIds (invoiceContract.trace invoiceContract.init is)).length < 2 ^ 64 - 1) :
    ∀ t ∈ invoiceContract.trace invoiceContract.init is, ¬ Wraps t := by
  intro t ht hw
  obtain ⟨is₁, i, is₂, rfl, rfl⟩ := Machine.mem_trace.1 ht
  have hmax : (totalMinted (invoiceContract.exec invoiceContract.init is₁)).toNat
      = 2 ^ 64 - 1 := by
    rw [Wraps, Machine.step_pre] at hw
    split at hw
    · exact hw.2
    · exact hw.elim
  have hle := mintedIds_length_le invoiceContract.init is₁ (i :: is₂)
  rw [(minted_exec is₁).total] at hmax
  omega

/-! ## The ids of a run -/

/-- The mint of a step that does not wrap leaves the counter one higher. -/
theorem total_of_not_wraps {t : InvoiceStep} {owner : Address} {amount : I128} {crop : Symbol}
    {due : UInt64} {md : String} (hw : ¬ Wraps t)
    (hc : t.input.2 = .mint owner amount crop due md)
    (hr : MintReady t.input.1 t.pre owner amount) :
    (totalMinted t.pre + 1).toNat = (totalMinted t.pre).toNat + 1 := by
  refine toNat_succ fun hmax => hw ?_
  rw [Wraps, hc]
  exact ⟨hr, hmax⟩

/-- While no mint wraps, the ids handed out are at most the counter. -/
theorem minted_le_total {is : List (Env × Call)}
    (hw : ∀ t ∈ invoiceContract.trace invoiceContract.init is, ¬ Wraps t) :
    ∀ m ∈ mintedIds (invoiceContract.trace invoiceContract.init is),
      m.toNat ≤ (totalMinted (invoiceContract.exec invoiceContract.init is)).toNat := by
  refine (Machine.history_of (m := invoiceContract)
    (H := fun h s => Counted h s ∧ ∀ m ∈ mintedIds h, m.toNat ≤ (totalMinted s).toNat)
    (P := fun t => CounterStep t ∧ ¬ Wraps t) ⟨⟨fun _ => rfl, rfl⟩, fun _ h => nomatch h⟩ ?_
    fun t ht => ⟨counterStep_of_mem ht, hw t ht⟩).2
  rintro h t ⟨ht, hwt⟩ ⟨hcount, hle⟩
  refine ⟨hcount.step ht, ?_⟩
  cases ht with
  | setup hid hpre hpost h0 hinv =>
    intro m hm
    rw [mintedIds_concat_none hid, hcount.fresh hpre] at hm
    cases hm
  | mint hc hr hid htotal hac =>
    intro m hm
    rw [mintedIds_concat_some hid] at hm
    rw [htotal]
    rcases List.mem_append.1 hm with hm | hm
    · have := hle m hm
      rw [total_of_not_wraps hwt hc hr]
      omega
    · obtain rfl := List.mem_singleton.1 hm
      exact Nat.le_refl _
  | idle hid htotal hm =>
    rw [mintedIds_concat_none hid, htotal]
    exact hle

/-- A mint that returned `n`, after the history `h`, allocated it soundly: `n` is above every id
returned before and was not in use, the first id is `1`, and `total_minted` is now `n`. -/
structure MintSound (h : List InvoiceStep) (t : InvoiceStep) (n : UInt64) : Prop where
  increasing : ∀ m ∈ mintedIds h, m < n
  unused : t.pre.invoice n = none
  first : mintedIds h = [] → n = 1
  total : totalMinted t.post = n

/-- The ids of a run are sound: every mint allocates soundly, and a mint that passes its guards
with the counter at `u64::MAX` fails with an overflow and leaves the state unchanged. -/
structure IdsSound (is : List (Env × Call)) : Prop where
  minted : ∀ is₁ i is₂, is = is₁ ++ i :: is₂ → ∀ n,
    mintedId (invoiceContract.step i (invoiceContract.exec invoiceContract.init is₁)) = some n →
      MintSound (invoiceContract.trace invoiceContract.init is₁)
        (invoiceContract.step i (invoiceContract.exec invoiceContract.init is₁)) n
  exhausted : ∀ t ∈ invoiceContract.trace invoiceContract.init is,
    ∀ owner amount crop due md, t.input.2 = .mint owner amount crop due md →
      MintReady t.input.1 t.pre owner amount → (totalMinted t.pre).toNat = 2 ^ 64 - 1 →
      t.result = .error (.error .overflow) ∧ t.post = t.pre

/-- A mint that passes its guards succeeds, whatever the counter. -/
theorem mint_succeeds {env : Env} {s : Store} {owner : Address} {amount : I128}
    (hr : MintReady env s owner amount) (crop : Symbol) (due : UInt64) (md : String) :
    ∃ s', invoiceContract.invoke (env, .mint owner amount crop due md) s
        = .ok (.id (totalMinted s + 1), s') ∧
      s'.ac = s.ac ∧ totalMinted s' = totalMinted s + 1 ∧
      s'.invoice = Function.update s.invoice (totalMinted s + 1)
        (some ⟨totalMinted s + 1, owner, amount, crop, due, md, .pending⟩) := by
  obtain ⟨hm, hp, ha, hpos⟩ := hr
  obtain ⟨cfg, hcfg⟩ := Option.ne_none_iff_exists'.1 hm
  have hmint : mint env s owner amount crop due md = .ok (totalMinted s + 1, _) :=
    mint_eq_ok.2 ⟨⟨cfg, hcfg⟩, hp, ha, hpos, rfl, rfl⟩
  exact ⟨_, map_eq_ok.2 ⟨_, hmint, rfl⟩, rfl, rfl, rfl⟩

/-- Where the ids are sound no mint wraps: it would not fail. -/
theorem IdsSound.not_wraps {is : List (Env × Call)} (h : IdsSound is) :
    ∀ t ∈ invoiceContract.trace invoiceContract.init is, ¬ Wraps t := by
  intro t ht hw
  have hex := h.exhausted t ht
  obtain ⟨is₁, ⟨env, c⟩, is₂, -, rfl⟩ := Machine.mem_trace.1 ht
  simp only [Wraps, Machine.step_pre, Machine.step_input] at hw hex
  cases c with
  | mint owner amount crop due md =>
    obtain ⟨s', hi, -⟩ := mint_succeeds hw.1 crop due md
    have hres := (hex owner amount crop due md rfl hw.1 hw.2).1
    rw [Machine.step_of_ok hi] at hres
    cases hres
  | _ => exact hw

/-- **The ids of a run are sound exactly when no mint of it finds the counter at `u64::MAX`.** -/
theorem ids_sound_iff (is : List (Env × Call)) :
    IdsSound is ↔ ∀ t ∈ invoiceContract.trace invoiceContract.init is, ¬ Wraps t := by
  refine ⟨IdsSound.not_wraps, fun hw => ⟨?_, ?_⟩⟩
  · rintro is₁ i is₂ rfl n hid
    have hw₁ : ∀ t ∈ invoiceContract.trace invoiceContract.init is₁, ¬ Wraps t :=
      fun t ht => hw t (Machine.mem_trace_append ht)
    have ht := Machine.step_mem_trace invoiceContract invoiceContract.init is₁ i is₂
    have hle := minted_le_total hw₁
    have hcount := minted_exec is₁
    have hok := storeOK_exec hw₁
    cases counterStep_of_mem ht with
    | mint hc hr hid' htotal hac =>
      have hsucc := total_of_not_wraps (hw _ ht) hc hr
      rw [Machine.step_pre] at hid' htotal hsucc
      obtain rfl := Option.some.inj (hid'.symm.trans hid)
      refine ⟨fun m hm => ?_, ?_, fun hnil => ?_, htotal⟩
      · have := hle m hm
        rw [UInt64.lt_iff_toNat_lt, hsucc]
        omega
      · rw [Machine.step_pre]
        by_contra hne
        have := (hok.range _ hne).2
        omega
      · have h0 := hcount.total
        rw [hnil] at h0
        exact UInt64.toNat_inj.1 (by rw [hsucc, h0]; rfl)
    | setup hid' hpre hpost h0 hinv =>
      rw [hid'] at hid
      cases hid
    | idle hid' htotal hm =>
      rw [hid'] at hid
      cases hid
  · intro t ht owner amount crop due md hc hr hmax
    refine absurd ?_ (hw t ht)
    rw [Wraps, hc]
    exact ⟨hr, hmax⟩

/-! ## A run that exhausts the counter -/

/-- A mint by address 1, of an invoice of 1. -/
def mintOne : Env × Call := (⟨0, 0, [⟨1⟩]⟩, .mint ⟨1⟩ (.lit 1) "MAIZE" 0 "")

/-- The setup with the one signer 1, and `n` mints. -/
def mintRun (n : Nat) : List (Env × Call) :=
  (⟨0, 0, []⟩, .init [⟨1⟩] 1 34560) :: List.replicate n mintOne

/-- The access-control storage after that setup. -/
def mintRunAc : AccessControl.Store :=
  { AccessControl.Store.empty with
    multisig := some ⟨[⟨1⟩], 1⟩, timelockLedgers := some 34560, paused := some false }

/-- In such a contract any address can mint. -/
theorem mintReady_of_mintRunAc {s : Store} (hac : s.ac = mintRunAc) (a : Address) :
    MintReady ⟨0, 0, [a]⟩ s a (.lit 1) := by
  rw [MintReady, hac]
  exact ⟨Option.some_ne_none _, rfl, .head _, by decide⟩

theorem mintRun_succ (n : Nat) : mintRun (n + 1) = mintRun n ++ [mintOne] := by
  rw [mintRun, List.replicate_succ', ← List.cons_append, mintRun]

/-- After `n` mints the counter is `n`, as a 64-bit word, and an invoice 1 belongs to address 1. -/
theorem mintRun_exec (n : Nat) :
    (invoiceContract.exec invoiceContract.init (mintRun n)).ac = mintRunAc ∧
    totalMinted (invoiceContract.exec invoiceContract.init (mintRun n)) = .ofNat n ∧
    (0 < n → ∃ inv, (invoiceContract.exec invoiceContract.init (mintRun n)).invoice 1 = some inv ∧
      inv.owner = ⟨1⟩) := by
  induction n with
  | zero => exact ⟨rfl, rfl, fun h => absurd h (Nat.lt_irrefl 0)⟩
  | succ n ih =>
    obtain ⟨hac, htotal, hinv⟩ := ih
    obtain ⟨s', hi, hac', htotal', hinv'⟩ :=
      mint_succeeds (mintReady_of_mintRunAc hac ⟨1⟩) "MAIZE" 0 ""
    have hpost : (invoiceContract.step mintOne
        (invoiceContract.exec invoiceContract.init (mintRun n))).post = s' :=
      congrArg Step.post (Machine.step_of_ok hi)
    rw [mintRun_succ, Machine.exec_concat, hpost]
    refine ⟨hac'.trans hac, ?_, fun _ => ?_⟩
    · rw [htotal', htotal, UInt64.ofNat_add]
      rfl
    · rw [hinv', htotal]
      by_cases h1 : (1 : UInt64) = .ofNat n + 1
      · rw [← h1, Function.update_self]
        exact ⟨_, rfl, rfl⟩
      · rw [Function.update_of_ne h1]
        refine hinv (Nat.pos_of_ne_zero fun h0 => h1 ?_)
        rw [h0]
        rfl

/-- The mint that follows `2 ^ 64 - 1` mints wraps. -/
theorem mintRun_wraps {n : Nat} (hn : n = 2 ^ 64 - 1) :
    Wraps (invoiceContract.step mintOne
      (invoiceContract.exec invoiceContract.init (mintRun n))) := by
  obtain ⟨hac, htotal, -⟩ := mintRun_exec n
  rw [Wraps, Machine.step_input, Machine.step_pre, htotal]
  refine ⟨mintReady_of_mintRunAc hac ⟨1⟩, ?_⟩
  rw [UInt64.toNat_ofNat_of_lt' (by rw [hn]; decide), hn]

/-- After `2 ^ 64 - 1` mints the counter is at its largest value, and the next mint returns 0. -/
theorem ids_unsound_after_exhaustion : ¬ IdsSound (mintRun (2 ^ 64)) := by
  obtain ⟨n, hn⟩ : ∃ n : Nat, n = 2 ^ 64 - 1 := ⟨_, rfl⟩
  rw [show 2 ^ 64 = n + 1 by omega, mintRun_succ]
  intro h
  exact h.not_wraps _ (Machine.step_mem_trace invoiceContract invoiceContract.init (mintRun n)
    mintOne []) (mintRun_wraps hn)

end Invoicing

end InvoiceFi
