import InvoiceFi.Contracts.Settlement.Steps

/-!
# Settlement nonces

`NonceMeta` is created by the first payment of an invoice and written by every payment. The
history invariant `nonces_exec` says what it holds after any run: the nonces of the payments of
the invoice, in order and no one twice, and a due date that is always zero, because only
`NonceMeta::load` ever creates the entry. Single use (`nonces_single_use`) is the first half; the
second half says how far the nonce check is from the documented window (`nonce_check_iff`), which
is counted from the due date the invoice was registered with (`registeredDue`).
-/

namespace InvoiceFi

namespace Settlement

/-! ## Readings of a history -/

/-- The nonce of a step that is an accepted payment of the invoice. -/
def paidNonce (invoiceId : Symbol) (t : SettlementStep) : Option UInt64 :=
  match t.input.2 with
  | .settleInvoice _ j nonce _ _ => if j = invoiceId ∧ t.Accepted then some nonce else none
  | _ => none

/-- The nonces of the accepted payments of the invoice, oldest first. -/
def paidNonces (invoiceId : Symbol) (h : List SettlementStep) : List UInt64 :=
  h.filterMap (paidNonce invoiceId)

/-- The due date of a step that is an accepted registration of the invoice. -/
def registration (invoiceId : Symbol) (t : SettlementStep) : Option UInt64 :=
  match t.input.2 with
  | .setInvoiceData _ j _ _ _ dueDate _ =>
    if j = invoiceId ∧ t.Accepted then some dueDate else none
  | _ => none

/-- The due date the invoice was last registered with. -/
def registeredDue (invoiceId : Symbol) (h : List SettlementStep) : Option UInt64 :=
  (h.filterMap (registration invoiceId)).getLast?

section
variable {h : List SettlementStep} {t : SettlementStep} {j : Symbol}

theorem paidNonces_concat :
    paidNonces j (h ++ [t]) = paidNonces j h ++ (paidNonce j t).toList := by
  rw [paidNonces, List.filterMap_append, ← paidNonces]
  cases hn : paidNonce j t <;> simp [hn]

theorem registeredDue_concat :
    registeredDue j (h ++ [t]) = (registration j t).or (registeredDue j h) := by
  rw [registeredDue, List.filterMap_append, registeredDue]
  cases hr : registration j t <;> simp [hr]

/-- A rejected step pays and registers nothing. -/
theorem rejected_reads (ht : ¬ t.Accepted) : paidNonce j t = none ∧ registration j t = none := by
  unfold paidNonce registration
  constructor <;> split <;> simp [ht]

/-- A step that writes no invoice pays and registers nothing. -/
theorem idle_reads (ht : t.input.2.writesInvoice = false) :
    paidNonce j t = none ∧ registration j t = none := by
  unfold paidNonce registration
  constructor
  · split
    · next heq => rw [heq] at ht; cases ht
    · rfl
  · split
    · next heq => rw [heq] at ht; cases ht
    · rfl

end

/-! ## The invariant -/

/-- What the store holds of an invoice after a history. -/
structure NonceBook (h : List SettlementStep) (s : Store) (invoiceId : Symbol) : Prop where
  used : (NonceMeta.load s invoiceId).usedNonces = paidNonces invoiceId h
  nodup : (NonceMeta.load s invoiceId).usedNonces.Nodup
  unset : (NonceMeta.load s invoiceId).dueDate = 0
  due : (terms s invoiceId).map Terms.dueDate = registeredDue invoiceId h

/-- The nonces of an invoice after a payment. -/
theorem Pays.load {env : Env} {s s' : Store} {caller : Address} {j : Symbol} {nonce : UInt64}
    {amount : I128} {t : Terms} {p : I128} (h : Pays env s caller j nonce amount t p s')
    (k : Symbol) :
    NonceMeta.load s' k =
      if k = j then (NonceMeta.load s j).markUsed nonce else NonceMeta.load s k := by
  rw [NonceMeta.load, h.nonces]
  by_cases hk : k = j
  · subst hk
    simp
  · simp only [Function.update_of_ne hk, if_neg hk]
    rfl

/-- A step that pays and registers nothing of an invoice and leaves its nonces and its due date
alone keeps its book. -/
theorem NonceBook.idle {h : List SettlementStep} {s s' : Store} {j : Symbol} {t : SettlementStep}
    (hb : NonceBook h s j) (ht : paidNonce j t = none ∧ registration j t = none)
    (hl : NonceMeta.load s' j = NonceMeta.load s j)
    (hd : (terms s' j).map Terms.dueDate = (terms s j).map Terms.dueDate) :
    NonceBook (h ++ [t]) s' j := by
  refine ⟨?_, ?_, ?_, ?_⟩
  · rw [hl, paidNonces_concat, ht.1, hb.used]
    exact (List.append_nil _).symm
  · rw [hl]; exact hb.nodup
  · rw [hl]; exact hb.unset
  · rw [hd, registeredDue_concat, ht.2, hb.due]
    rfl

/-- A registration keeps the books of all invoices. -/
theorem NonceBook.register {h : List SettlementStep} {s s' : Store} {j k : Symbol}
    {t : SettlementStep} {a : I128} {d : UInt64} (hb : NonceBook h s k)
    (hp : paidNonce k t = none) (hr : registration k t = if j = k then some d else none)
    (hl : NonceMeta.load s' k = NonceMeta.load s k)
    (hs : terms s' = Function.update (terms s) j (some (.registered a d))) :
    NonceBook (h ++ [t]) s' k := by
  by_cases hk : j = k
  · subst hk
    rw [if_pos rfl] at hr
    refine ⟨?_, ?_, ?_, ?_⟩
    · rw [hl, paidNonces_concat, hp, hb.used]
      exact (List.append_nil _).symm
    · rw [hl]; exact hb.nodup
    · rw [hl]; exact hb.unset
    · rw [hs, Function.update_self, registeredDue_concat, hr]
      rfl
  · rw [if_neg hk] at hr
    refine hb.idle ⟨hp, hr⟩ hl ?_
    rw [hs, Function.update_of_ne (Ne.symm hk)]

/-- A payment keeps the books of all invoices. -/
theorem NonceBook.pay {env : Env} {h : List SettlementStep} {s s' : Store} {caller : Address}
    {j k : Symbol} {nonce : UInt64} {amount : I128} {tm : Terms} {p : I128} {t : SettlementStep}
    (hb : NonceBook h s k) (hpay : Pays env s caller j nonce amount tm p s')
    (hp : paidNonce k t = if j = k then some nonce else none) (hr : registration k t = none) :
    NonceBook (h ++ [t]) s' k := by
  by_cases hk : j = k
  · subst hk
    rw [if_pos rfl] at hp
    have hl := hpay.load j
    rw [if_pos rfl] at hl
    have hfresh : nonce ∉ (NonceMeta.load s j).usedNonces :=
      (NonceMeta.isValid_iff.1 hpay.valid).1
    refine ⟨?_, ?_, ?_, ?_⟩
    · rw [hl, paidNonces_concat, hp, ← hb.used]
      rfl
    · rw [hl, NonceMeta.markUsed, ← List.concat_eq_append]
      exact hb.nodup.concat hfresh
    · rw [hl]; exact hb.unset
    · rw [hpay.left, Function.update_self, registeredDue_concat, hr, ← hb.due, hpay.found]
      rfl
  · rw [if_neg hk] at hp
    refine hb.idle ⟨hp, hr⟩ ?_ ?_
    · rw [hpay.load k, if_neg (Ne.symm hk)]
    · rw [hpay.left, Function.update_of_ne (Ne.symm hk)]

/-- Every successful call keeps the book of every invoice. -/
theorem NonceBook.step {h : List SettlementStep} {i : Env × Call} {s s' : Store} {u : Unit}
    {k : Symbol} (hb : NonceBook h s k) (hi : settlement.invoke i s = .ok (u, s')) :
    NonceBook (h ++ [⟨s, i, .ok u, s'⟩]) s' k := by
  have hacc : (⟨s, i, .ok u, s'⟩ : SettlementStep).Accepted := rfl
  rcases invoice_cases hi with ⟨c, j, b, f, a, d, r, hc, hs, hn⟩ |
    ⟨c, j, n, a, r, t, p, hc, hpay⟩ | ⟨hc, hs, hn⟩
  · refine hb.register (j := j) (a := a) (d := d) ?_ ?_ (by rw [NonceMeta.load, hn]; rfl) hs
    · rw [paidNonce, hc]
    · simp only [registration, hc, hacc, and_true]
  · refine hb.pay hpay ?_ ?_
    · simp only [paidNonce, hc, hacc, and_true]
    · rw [registration, hc]
  · exact hb.idle (idle_reads hc) (by rw [NonceMeta.load, hn]; rfl) (by rw [hs])

theorem NonceBook.empty (k : Symbol) : NonceBook [] settlement.init k :=
  ⟨rfl, List.nodup_nil, rfl, rfl⟩

/-- The books hold after every run. -/
theorem nonces_exec (is : List (Env × Call)) (k : Symbol) :
    NonceBook (settlement.trace settlement.init is) (settlement.exec settlement.init is) k :=
  Machine.history (H := fun h s => NonceBook h s k) (.empty k)
    (fun _ _ _ _ _ hb hi => hb.step hi)
    (fun _ _ _ _ hb => hb.idle (rejected_reads Bool.false_ne_true) rfl rfl) is

/-! ## Single use -/

/-- **Nonces are used once.** After every run the stored nonces of an invoice are those of its
accepted payments, in order; no one is there twice; and at most one payment of the invoice with a
given nonce was accepted. -/
theorem nonces_single_use (is : List (Env × Call)) (invoiceId : Symbol) :
    (∀ nonce, ((settlement.trace settlement.init is).countP fun t =>
      paidNonce invoiceId t == some nonce) ≤ 1) ∧
    (getUsedNonces (settlement.exec settlement.init is) invoiceId).Nodup ∧
    getUsedNonces (settlement.exec settlement.init is) invoiceId =
      paidNonces invoiceId (settlement.trace settlement.init is) := by
  have hb := nonces_exec is invoiceId
  refine ⟨fun nonce => ?_, hb.nodup, hb.used⟩
  have hnodup := hb.nodup
  rw [hb.used] at hnodup
  have hcount := List.nodup_iff_count_le_one.1 hnodup nonce
  rwa [paidNonces, List.count_filterMap] at hcount

/-! ## The window -/

/-- The documented check: the nonce was not accepted before, and the time is within thirty days
of the due date `due`. -/
def InWindow (h : List SettlementStep) (invoiceId : Symbol) (due : UInt64) (env : Env)
    (nonce : UInt64) : Prop :=
  nonce ∉ paidNonces invoiceId h ∧ env.timestamp ≤ saturatingAddU64 due 2592000

/-- What the nonce check decides in a reachable store: the nonce was not accepted before, and the
ledger time is at most thirty days. -/
theorem nonce_check (is : List (Env × Call)) (invoiceId : Symbol) (env : Env) (nonce : UInt64) :
    (NonceMeta.load (settlement.exec settlement.init is) invoiceId).isValid env nonce = true ↔
      nonce ∉ paidNonces invoiceId (settlement.trace settlement.init is) ∧
        env.timestamp ≤ 2592000 := by
  have hb := nonces_exec is invoiceId
  rw [NonceMeta.isValid_iff, hb.used, hb.unset, UInt64.le_iff_toNat_le]
  simp

/-- **Where the nonce check agrees with the documented window.** For an invoice last registered
with the due date `due`, the record holds that due date, and the nonce check decides the documented
window exactly for a nonce that was accepted before, for a time of at most thirty days, and for a
time past the window. -/
theorem nonce_check_iff (is : List (Env × Call)) {invoiceId : Symbol} {due : UInt64}
    (hreg : registeredDue invoiceId (settlement.trace settlement.init is) = some due)
    (env : Env) (nonce : UInt64) :
    (getInvoice (settlement.exec settlement.init is) invoiceId).map InvoiceRecord.dueDate =
      some due ∧
    (((NonceMeta.load (settlement.exec settlement.init is) invoiceId).isValid env nonce = true ↔
        InWindow (settlement.trace settlement.init is) invoiceId due env nonce) ↔
      nonce ∈ paidNonces invoiceId (settlement.trace settlement.init is) ∨
      env.timestamp ≤ 2592000 ∨ saturatingAddU64 due 2592000 < env.timestamp) := by
  refine ⟨?_, ?_⟩
  · have hdue := (nonces_exec is invoiceId).due
    rw [hreg, terms, Option.map_map] at hdue
    exact hdue
  rw [nonce_check, InWindow, ← UInt64.not_le]
  -- the code's window is contained in the documented one
  have hsub : env.timestamp ≤ 2592000 → env.timestamp ≤ saturatingAddU64 due 2592000 := by
    simp only [UInt64.le_iff_toNat_le, toNat_saturatingAddU64]
    intro h
    have hlt := env.timestamp.toNat_lt
    have h0 : (2592000 : UInt64).toNat = 2592000 := rfl
    omega
  constructor
  · intro heq
    by_cases hu : nonce ∈ paidNonces invoiceId (settlement.trace settlement.init is)
    · exact .inl hu
    · by_cases hw : env.timestamp ≤ saturatingAddU64 due 2592000
      · exact .inr (.inl (heq.2 ⟨hu, hw⟩).2)
      · exact .inr (.inr hw)
  · rintro (hu | ht | hw)
    · exact ⟨fun h => absurd hu h.1, fun h => absurd hu h.1⟩
    · exact ⟨fun h => ⟨h.1, hsub ht⟩, fun h => ⟨h.1, ht⟩⟩
    · exact ⟨fun h => absurd (hsub h.2) hw, fun h => absurd h.2 hw⟩

/-- A run that registers the invoice `INV` of 100 with a due date in the year 2030. -/
def registeredRun : List (Env × Call) :=
  [(⟨1, 1800000000, []⟩, .init [⟨1⟩] 1 34560),
    (⟨1, 1800000000, [⟨1⟩]⟩,
      .setInvoiceData ⟨1⟩ "INV" ⟨2⟩ ⟨3⟩ (.lit 100) 1900000000 500)]

/-- Past the window the check rejects a fresh nonce as documented. -/
theorem nonce_check_past_window :
    (NonceMeta.load (settlement.exec settlement.init registeredRun) "INV").isValid
        ⟨1, 2000000000, []⟩ 1 = true ↔
      InWindow (settlement.trace settlement.init registeredRun) "INV" 1900000000
        ⟨1, 2000000000, []⟩ 1 :=
  (nonce_check_iff registeredRun (by decide) ⟨1, 2000000000, []⟩ 1).2.2 (by decide)

/-- Without the condition the check does not decide the window: a fresh nonce is rejected three
years before the due date of its invoice. -/
theorem nonce_rejected_in_window :
    registeredDue "INV" (settlement.trace settlement.init registeredRun) = some 1900000000 ∧
    InWindow (settlement.trace settlement.init registeredRun) "INV" 1900000000
      ⟨1, 1800000000, [⟨2⟩]⟩ 1 ∧
    (NonceMeta.load (settlement.exec settlement.init registeredRun) "INV").isValid
      ⟨1, 1800000000, [⟨2⟩]⟩ 1 = false := by
  refine ⟨by decide, ⟨by decide, by decide⟩, by decide⟩

end Settlement

end InvoiceFi
