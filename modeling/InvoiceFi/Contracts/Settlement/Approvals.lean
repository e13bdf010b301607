import InvoiceFi.Contracts.Settlement.Records

/-!
# Who approves a settlement

A record has two approval flags, the payer's and the lender's, and two entry points set them.
`request_settlement_auth` compares its caller with the record's borrower and financier;
`settlement_auth` takes the caller's word for being the buyer or the payee, and the other one
lets anyone through once a flag is set. `approvals_by_parties_iff` says exactly which runs keep the
approvals with the parties: those in which the calls are made by the parties in the first place
(`PartyCall`).

The history half is `FlagsBacked`: since the registration of the invoice, the borrower made an
authorized call if the payer's flag is set, and the financier did if the lender's is.
-/

namespace InvoiceFi

namespace Settlement

/-! ## Calls and histories -/

/-- The step is a successful `settlement_auth` or `request_settlement_auth` on the invoice that
`a` made and authorized. -/
def Authorizes (a : Address) (j : Symbol) (t : SettlementStep) : Prop :=
  t.Accepted ∧ a ∈ t.input.1.auths ∧
    ((∃ didPay isBuyer isPayee, t.input.2 = .settlementAuth a j didPay isBuyer isPayee) ∨
      t.input.2 = .requestSettlementAuth a j)

/-- The step is a successful registration of the invoice. -/
def registers (j : Symbol) (t : SettlementStep) : Bool :=
  match t.input.2 with
  | .setInvoiceData _ k _ _ _ _ _ => decide (k = j ∧ t.Accepted)
  | _ => false

/-- The part of a history after the last successful registration of the invoice. -/
def sinceRegistration (j : Symbol) (h : List SettlementStep) : List SettlementStep :=
  h.foldl (fun acc t => if registers j t then [] else acc ++ [t]) []

theorem sinceRegistration_concat (j : Symbol) (h : List SettlementStep) (t : SettlementStep) :
    sinceRegistration j (h ++ [t]) =
      if registers j t then [] else sinceRegistration j h ++ [t] := by
  simp [sinceRegistration]

/-- A call of another entry point registers nothing. -/
theorem registers_eq_false {j : Symbol} {t : SettlementStep}
    (h : ∀ c b f a d r, t.input.2 = .setInvoiceData c j b f a d r → ¬ t.Accepted) :
    registers j t = false := by
  unfold registers
  split
  · next c k b f a d r hc =>
    refine decide_eq_false ?_
    rintro ⟨rfl, hacc⟩
    exact h c b f a d r hc hacc
  · rfl

/-- The calls of `settlement_auth` and `request_settlement_auth` come from the parties: one that
its caller authorized and that finds a record is made by the record's borrower or financier; by
the borrower if it claims the buyer's approval and that is not given yet, by the financier if it
claims the payee's; and a request counts only once a flag is set. -/
def PartyCall (t : SettlementStep) : Prop :=
  match t.input.2 with
  | .settlementAuth c j didPay isBuyer isPayee =>
    c ∈ t.input.1.auths → ∀ r, getInvoice t.pre j = some r →
      (c = r.borrower ∨ c = r.financier) ∧
      (isBuyer = true → didPay = false → r.payerApproved = false → c = r.borrower) ∧
      (isPayee = true → didPay = true → r.lenderApproved = false → c = r.financier)
  | .requestSettlementAuth c j =>
    c ∈ t.input.1.auths → ∀ r, getInvoice t.pre j = some r →
      r.payerApproved = true ∨ r.lenderApproved = true → c = r.borrower ∨ c = r.financier
  | _ => True

/-! ## The flags and the history -/

/-- Since the registration of the invoice, `a` made an authorized call on it. -/
def HasAuthorized (a : Address) (j : Symbol) (h : List SettlementStep) : Prop :=
  ∃ t ∈ sinceRegistration j h, Authorizes a j t

/-- The history backs the flags of the record. -/
structure FlagsBacked (j : Symbol) (h : List SettlementStep) (r : InvoiceRecord) : Prop where
  payer : r.payerApproved = true → HasAuthorized r.borrower j h
  lender : r.lenderApproved = true → HasAuthorized r.financier j h

section
variable {t : SettlementStep} {j : Symbol} {h : List SettlementStep} {a : Address}

/-- A later step that registers nothing keeps what was authorized. -/
theorem HasAuthorized.concat (ha : HasAuthorized a j h) (ht : registers j t = false) :
    HasAuthorized a j (h ++ [t]) := by
  obtain ⟨u, hu, hauth⟩ := ha
  refine ⟨u, ?_, hauth⟩
  rw [sinceRegistration_concat, ht]
  exact List.mem_append_left _ hu

/-- A call that `a` authorized is one it has authorized. -/
theorem Authorizes.last (ha : Authorizes a j t) : HasAuthorized a j (h ++ [t]) := by
  refine ⟨t, ?_, ha⟩
  have ht : registers j t = false := by
    refine registers_eq_false fun c b f x d r hc => ?_
    rcases ha.2.2 with ⟨p, q, s, hc'⟩ | hc'
    · cases hc.symm.trans hc'
    · cases hc.symm.trans hc'
  rw [sinceRegistration_concat, ht]
  exact List.mem_append_right _ (.head _)

/-- A payment leaves the parties and the flags of the record. -/
theorem paidRecord_flags (r : InvoiceRecord) (p : I128) :
    (paidRecord r p).borrower = r.borrower ∧ (paidRecord r p).financier = r.financier ∧
      (paidRecord r p).payerApproved = r.payerApproved ∧
      (paidRecord r p).lenderApproved = r.lenderApproved := by
  by_cases h : r.amount.val ≤ p.val
  · simp [paidRecord, h]
  · simp [paidRecord, h]

/-- A step that sets a flag anew, in a run of party calls, is authorized by its party. -/
theorem RecordStep.flag_set {r r' : InvoiceRecord} (hstep : RecordStep t j (some r) (some r'))
    (hr : getInvoice t.pre j = some r) (hparty : PartyCall t) :
    (r.payerApproved = false → r'.payerApproved = true → Authorizes r.borrower j t) ∧
    (r.lenderApproved = false → r'.lenderApproved = true → Authorizes r.financier j t) := by
  generalize ho : some r = o at hstep
  generalize ho' : some r' = o' at hstep
  cases hstep with
  | idle _ =>
    cases ho.trans ho'.symm
    exact ⟨fun h h' => absurd (h.symm.trans h') Bool.false_ne_true,
      fun h h' => absurd (h.symm.trans h') Bool.false_ne_true⟩
  | register hacc hc hsig =>
    cases ho'
    exact ⟨fun _ h => absurd h Bool.false_ne_true, fun _ h => absurd h Bool.false_ne_true⟩
  | pay hacc hc hrun =>
    cases ho
    cases ho'
    obtain ⟨-, -, hp, hl⟩ := paidRecord_flags r _
    exact ⟨fun h h' => absurd (h.symm.trans (hp.symm.trans h')) Bool.false_ne_true,
      fun h h' => absurd (h.symm.trans (hl.symm.trans h')) Bool.false_ne_true⟩
  | @auth _ c didPay isBuyer isPayee hacc hc hauth =>
    cases ho
    cases ho'
    rw [PartyCall, hc] at hparty
    obtain ⟨-, hpay, hlend⟩ := hparty hauth r hr
    refine ⟨fun h h' => ?_, fun h h' => ?_⟩
    · simp only [authRecord, h, Bool.false_or, Bool.and_eq_true, Bool.not_eq_true'] at h'
      obtain rfl := hpay h'.1 h'.2 h
      exact ⟨hacc, hauth, .inl ⟨_, _, _, hc⟩⟩
    · simp only [authRecord, h, Bool.false_or, Bool.and_eq_true] at h'
      obtain rfl := hlend h'.1 h'.2 h
      exact ⟨hacc, hauth, .inl ⟨_, _, _, hc⟩⟩
  | @request _ c hacc hc hauth hflag =>
    cases ho
    cases ho'
    refine ⟨fun h h' => ?_, fun h h' => ?_⟩
    · simp only [requestRecord, h, Bool.false_or, decide_eq_true_eq] at h'
      subst h'
      exact ⟨hacc, hauth, .inr hc⟩
    · simp only [requestRecord, h, Bool.false_or, decide_eq_true_eq] at h'
      subst h'
      exact ⟨hacc, hauth, .inr hc⟩

/-- A record whose flags are not both clear was there before, with the same parties, and the step
registers nothing. -/
theorem RecordStep.parties {o : Option InvoiceRecord} {r' : InvoiceRecord}
    (hstep : RecordStep t j o (some r')) :
    (r'.payerApproved = false ∧ r'.lenderApproved = false) ∨
    (registers j t = false ∧
      ∃ r, o = some r ∧ r'.borrower = r.borrower ∧ r'.financier = r.financier) := by
  generalize ho' : some r' = o' at hstep
  cases hstep with
  | idle ht =>
    refine .inr ⟨registers_eq_false fun c b f a d r hc hacc => ht hacc ?_, r', ho'.symm, rfl, rfl⟩
    rw [hc]
    rfl
  | register hacc hc hsig =>
    cases ho'
    exact .inl ⟨rfl, rfl⟩
  | @pay r _ _ _ p _ hacc hc hrun =>
    cases ho'
    obtain ⟨hb, hf, -, -⟩ := paidRecord_flags r p
    exact .inr ⟨by rw [registers, hc], r, rfl, hb, hf⟩
  | auth hacc hc hauth =>
    cases ho'
    exact .inr ⟨by rw [registers, hc], _, rfl, rfl, rfl⟩
  | request hacc hc hauth hflag =>
    cases ho'
    exact .inr ⟨by rw [registers, hc], _, rfl, rfl, rfl⟩

/-- A step keeps the flags of a record backed, in a run of party calls. -/
theorem FlagsBacked.step (hstep : RecordStep t j (t.pre.invoiceData j) (t.post.invoiceData j))
    (hparty : PartyCall t) (hb : ∀ r, getInvoice t.pre j = some r → FlagsBacked j h r) :
    ∀ r', getInvoice t.post j = some r' → FlagsBacked j (h ++ [t]) r' := by
  intro r' hr'
  rw [show t.post.invoiceData j = some r' from hr'] at hstep
  rcases hstep.parties with ⟨hp, hl⟩ | ⟨hreg, r, hr, hbor, hfin⟩
  · exact ⟨fun h => absurd (hp.symm.trans h) Bool.false_ne_true,
      fun h => absurd (hl.symm.trans h) Bool.false_ne_true⟩
  · rw [hr] at hstep
    obtain ⟨hpay, hlend⟩ := hstep.flag_set hr hparty
    refine ⟨fun hp => ?_, fun hl => ?_⟩
    · rw [hbor]
      cases hold : r.payerApproved with
      | true => exact ((hb r hr).payer hold).concat hreg
      | false => exact (hpay hold hp).last
    · rw [hfin]
      cases hold : r.lenderApproved with
      | true => exact ((hb r hr).lender hold).concat hreg
      | false => exact (hlend hold hl).last

end

/-- In every run of party calls, the history backs the flags of every record. -/
theorem flagsBacked_exec {is : List (Env × Call)}
    (hparty : ∀ t ∈ settlement.trace settlement.init is, PartyCall t) (j : Symbol) :
    ∀ r, getInvoice (settlement.exec settlement.init is) j = some r →
      FlagsBacked j (settlement.trace settlement.init is) r := by
  refine Machine.history_of (m := settlement)
    (H := fun h s => ∀ r, getInvoice s j = some r → FlagsBacked j h r)
    (P := fun t => RecordStep t j (t.pre.invoiceData j) (t.post.invoiceData j) ∧ PartyCall t) ?_
    (fun h t ht hb => FlagsBacked.step ht.1 ht.2 hb) fun t ht =>
      ⟨recordStep_of_mem ht j, hparty t ht⟩
  intro r hr
  cases hr

/-! ## Whole runs -/

/-- The approvals of a run come from the parties.

* `payer`, `lender`: at every point of the run, if a record has the payer's flag its borrower made
  an authorized call on the invoice since its registration, and if it has the lender's its
  financier did.
* `setBy`: a step that sets a flag is a call that its party made and authorized.
* `outsiders`: a call by an address that is neither party of the record it names is rejected and
  changes nothing. -/
structure ApprovalsByParties (is : List (Env × Call)) : Prop where
  payer : ∀ is₁ is₂, is = is₁ ++ is₂ → ∀ j r,
    getInvoice (settlement.exec settlement.init is₁) j = some r → r.payerApproved = true →
    HasAuthorized r.borrower j (settlement.trace settlement.init is₁)
  lender : ∀ is₁ is₂, is = is₁ ++ is₂ → ∀ j r,
    getInvoice (settlement.exec settlement.init is₁) j = some r → r.lenderApproved = true →
    HasAuthorized r.financier j (settlement.trace settlement.init is₁)
  setBy : ∀ t ∈ settlement.trace settlement.init is, ∀ j r r',
    getInvoice t.pre j = some r → getInvoice t.post j = some r' →
    (r.payerApproved = false → r'.payerApproved = true → Authorizes r.borrower j t) ∧
    (r.lenderApproved = false → r'.lenderApproved = true → Authorizes r.financier j t)
  outsiders : ∀ t ∈ settlement.trace settlement.init is, ∀ c j,
    t.input.2.authParts = some (c, j) → ∀ r, getInvoice t.pre j = some r →
    c ≠ r.borrower → c ≠ r.financier → ¬ t.Accepted ∧ t.post = t.pre

section
variable {env : Env} {s : Store} {c : Address} {j : Symbol} {r : InvoiceRecord}

/-- A `settlement_auth` that its caller authorized succeeds on every record. -/
theorem auth_succeeds (hauth : c ∈ env.auths) (hr : getInvoice s j = some r)
    (didPay isBuyer isPayee : Bool) :
    ∃ s', settlement.invoke (env, .settlementAuth c j didPay isBuyer isPayee) s = .ok ((), s') ∧
      getInvoice s' j = some (authRecord r didPay isBuyer isPayee) := by
  have h : settlementAuth env s c j didPay isBuyer isPayee = .ok _ :=
    settlementAuth_eq_ok.2 ⟨hauth, r, hr, rfl⟩
  exact ⟨_, map_eq_ok.2 ⟨_, h, rfl⟩, Function.update_self ..⟩

/-- A `request_settlement_auth` that its caller authorized succeeds on every record that has a
flag. -/
theorem request_succeeds (hauth : c ∈ env.auths) (hr : getInvoice s j = some r)
    (hflag : r.payerApproved = true ∨ r.lenderApproved = true) :
    ∃ s', settlement.invoke (env, .requestSettlementAuth c j) s = .ok ((), s') := by
  have hflag' : (requestRecord r c).lenderApproved = true ∨
      (requestRecord r c).payerApproved = true := by
    rcases hflag with h | h
    · exact .inr (by simp [requestRecord, h])
    · exact .inl (by simp [requestRecord, h])
  have h : requestSettlementAuth env s c j = .ok _ :=
    requestSettlementAuth_eq_ok.2 ⟨hauth, r, hr, hflag', rfl⟩
  exact ⟨_, map_eq_ok.2 ⟨_, h, rfl⟩⟩

/-- Only the caller authorizes a call. -/
theorem Authorizes.caller {a : Address} {t : SettlementStep} (h : Authorizes a j t)
    (hc : t.input.2.authParts = some (c, j)) : a = c := by
  rcases h.2.2 with ⟨p, q, s, hcall⟩ | hcall
  · rw [hcall] at hc
    cases hc
    rfl
  · rw [hcall] at hc
    cases hc
    rfl

end

/-- Where the approvals come from the parties, so do the calls. -/
theorem ApprovalsByParties.partyCall {is : List (Env × Call)} (h : ApprovalsByParties is) :
    ∀ t ∈ settlement.trace settlement.init is, PartyCall t := by
  intro t ht
  have hset := h.setBy t ht
  -- an accepted call is not an outsider's
  have hparty : ∀ c j, t.input.2.authParts = some (c, j) → ∀ r, getInvoice t.pre j = some r →
      t.Accepted → c = r.borrower ∨ c = r.financier := by
    intro c j hc r hr hacc
    by_contra hne
    rw [not_or] at hne
    exact (h.outsiders t ht c j hc r hr hne.1 hne.2).1 hacc
  obtain ⟨is₁, ⟨env, call⟩, is₂, -, rfl⟩ := Machine.mem_trace.1 ht
  simp only [Machine.step_input, Machine.step_pre] at hset hparty
  rw [PartyCall, Machine.step_input, Machine.step_pre]
  cases call with
  | settlementAuth c j didPay isBuyer isPayee =>
    intro hauth r hr
    obtain ⟨s', hi, hr'⟩ := auth_succeeds hauth hr didPay isBuyer isPayee
    rw [Machine.step_of_ok hi] at hset hparty
    obtain ⟨hpay, hlend⟩ := hset j r _ hr hr'
    refine ⟨hparty c j rfl r hr rfl, fun hb hd hp => ?_, fun hb hd hl => ?_⟩
    · exact ((hpay hp (by simp [authRecord, hb, hd])).caller rfl).symm
    · exact ((hlend hl (by simp [authRecord, hb, hd])).caller rfl).symm
  | requestSettlementAuth c j =>
    intro hauth r hr hflag
    obtain ⟨s', hi⟩ := request_succeeds hauth hr hflag
    rw [Machine.step_of_ok hi] at hparty
    exact hparty c j rfl r hr rfl
  | _ => exact trivial

/-- In a run of party calls, an outsider's call is rejected. -/
theorem PartyCall.outsider {t : SettlementStep} {s : Store} {is : List (Env × Call)}
    (hparty : PartyCall t) (ht : t ∈ settlement.trace s is) {c : Address} {j : Symbol}
    (hc : t.input.2.authParts = some (c, j)) {r : InvoiceRecord}
    (hr : getInvoice t.pre j = some r) (hb : c ≠ r.borrower) (hf : c ≠ r.financier) :
    ¬ t.Accepted := by
  intro hacc
  have hmem : t.input.2.record = some j := Call.record_of_authParts hc
  have hstep := recordStep_of_mem ht j
  rw [show t.pre.invoiceData j = some r from hr] at hstep
  generalize ho : some r = o at hstep
  generalize t.post.invoiceData j = o' at hstep
  cases hstep with
  | idle h => exact h hacc hmem
  | register _ hcall _ => rw [hcall] at hc; cases hc
  | pay _ hcall _ => rw [hcall] at hc; cases hc
  | auth _ hcall hauth =>
    rw [hcall] at hc
    cases hc
    rw [PartyCall, hcall] at hparty
    rcases (hparty hauth r hr).1 with h | h
    · exact hb h
    · exact hf h
  | request _ hcall hauth hflag =>
    rw [hcall] at hc
    cases hc
    cases ho
    rw [PartyCall, hcall] at hparty
    -- the caller is neither party, so the flags were there before the call
    simp only [requestRecord, hb, hf, decide_false, Bool.or_false] at hflag
    rcases hparty hauth r hr hflag.symm with h | h
    · exact hb h
    · exact hf h

/-- **The approvals of a run come from the parties exactly when its calls do.** In every run of
the contract, the flags are backed by calls of the parties since the registration, no other
call sets one, and outsiders are rejected, if and only if every authorized `settlement_auth` or
`request_settlement_auth` is made by the party whose approval it records: the contract does not
check it. -/
theorem approvals_by_parties_iff (is : List (Env × Call)) :
    ApprovalsByParties is ↔ ∀ t ∈ settlement.trace settlement.init is, PartyCall t := by
  refine ⟨fun h => h.partyCall, fun hparty => ?_⟩
  have hbacked : ∀ is₁ is₂, is = is₁ ++ is₂ → ∀ j r,
      getInvoice (settlement.exec settlement.init is₁) j = some r →
      FlagsBacked j (settlement.trace settlement.init is₁) r := by
    rintro is₁ is₂ rfl j
    exact flagsBacked_exec (fun t ht => hparty t (Machine.mem_trace_append ht)) j
  constructor
  · exact fun is₁ is₂ his j r hr hp => (hbacked is₁ is₂ his j r hr).payer hp
  · exact fun is₁ is₂ his j r hr hl => (hbacked is₁ is₂ his j r hr).lender hl
  · intro t ht j r r' hr hr'
    have hstep := recordStep_of_mem ht j
    rw [show t.pre.invoiceData j = some r from hr,
      show t.post.invoiceData j = some r' from hr'] at hstep
    exact hstep.flag_set hr (hparty t ht)
  · intro t ht c j hc r hr hb hf
    have hacc : ¬ t.Accepted := (hparty t ht).outsider ht hc hr hb hf
    exact ⟨hacc, Machine.post_of_not_accepted ht hacc⟩

/-- An invoice of the borrower 2 and the financier 3, registered by the signer 1. -/
def partiesOfINV : List (Env × Call) :=
  [(⟨1, 0, []⟩, .init [⟨1⟩] 1 34560),
    (⟨1, 0, [⟨1⟩]⟩, .setInvoiceData ⟨1⟩ "INV" ⟨2⟩ ⟨3⟩ (.lit 100) 0 0)]

/-- The address 9, which is no party of the invoice, calls itself the buyer and approves for the
payer. -/
theorem outsider_approves :
    ¬ ApprovalsByParties
      (partiesOfINV ++ [(⟨1, 0, [⟨9⟩]⟩, .settlementAuth ⟨9⟩ "INV" false true false)]) := by
  intro h
  have hmem := Machine.step_mem_trace settlement settlement.init partiesOfINV
    (⟨1, 0, [⟨9⟩]⟩, .settlementAuth ⟨9⟩ "INV" false true false) []
  rcases (h.partyCall _ hmem (.head _) _ rfl).1 with hb | hf
  · cases hb
  · cases hf

end Settlement

end InvoiceFi
