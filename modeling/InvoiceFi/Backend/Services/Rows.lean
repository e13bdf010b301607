import InvoiceFi.Backend.Services.Mirror

/-!
# What a move does to the row of an invoice

`move_row` says for every row of the table what a move of the backend has done to it, and for every
move which funding it has stored. By induction over a run, a row is out of `PENDING` exactly if the
run has stored a funding of it (`stored_iff`).
-/

namespace InvoiceFi

namespace Backend

section
variable {τ κ O : Type} {chain : PoolChain τ κ O} {sha : Sha256}

/-- The move lets the transaction take effect with which a call stores a funding: the database does
not fail, and the discount fits its column. -/
def StoresFunding (p : Pool (Store τ) BackendCall Act Act.Answer Error Reply)
    (m : Move BackendCall (Choice κ) (Environ O)) (w : FundingWrite) : Prop :=
  ∃ k c call f, m = .resume k c ∧ p.calls[k]? = some ⟨call, .await (.recordFunding w) f⟩ ∧
    w.Fits ∧ c.fault ≠ .failed

/-- The move stores a funding of the invoice. -/
def Stores (p : Pool (Store τ) BackendCall Act Act.Answer Error Reply)
    (m : Move BackendCall (Choice κ) (Environ O)) (i : Int) : Prop :=
  ∃ w, StoresFunding p m w ∧ w.onchainId = i

/-- How the row `r` of an invoice becomes `r'` in a step that stores the fundings `Stored`: it is
kept, it was `PENDING` and shows the funding that is stored, or it was `FUNDED` and is settled. -/
inductive RowMove (Stored : FundingWrite → Prop) (r r' : Invoice) : Prop
  | kept (same : r' = r) (none : ∀ w, Stored w → w.onchainId ≠ r.onchainId)
  | funded (w : FundingWrite) (now : Nat) (stored : Stored w)
      (onchainId : w.onchainId = r.onchainId) (status : r.status = .pending)
      (row : r' = (w.change now).apply r)
  | settled (w : SettlementWrite) (now : Nat) (status : r.status = .funded)
      (row : r' = (w.change now).apply r) (none : ∀ w, ¬ Stored w)

/-- A step that leaves the rows alone and stores nothing. -/
theorem RowMove.of_same {Stored : FundingWrite → Prop} {t t' : InvoiceTable} (hsame : t' = t)
    (hnone : ∀ w, ¬ Stored w) {r' : Invoice} (hr' : r' ∈ t'.rows) :
    ∃ r ∈ t.rows, RowMove Stored r r' := by
  rw [hsame] at hr'
  exact ⟨r', hr', .kept rfl fun w hw => absurd hw (hnone w)⟩

/-- Whether a waiting call stores a funding is seen from what it waits for. -/
theorem storesFunding_iff {p : Pool (Store τ) BackendCall Act Act.Answer Error Reply} {k : Nat}
    {c : Choice κ} {w : FundingWrite} {call : BackendCall} {a : Act}
    {f : Except Error a.Answer → Task Reply} (hk : p.calls[k]? = some ⟨call, .await a f⟩) :
    StoresFunding p (.resume k c : Move BackendCall (Choice κ) (Environ O)) w ↔
      a = .recordFunding w ∧ w.Fits ∧ c.fault ≠ .failed := by
  constructor
  · rintro ⟨k', c', call', f', hm, hk', hstores⟩
    cases hm
    rw [hk] at hk'
    cases hk'
    exact ⟨rfl, hstores⟩
  · rintro ⟨rfl, hstores⟩
    exact ⟨k, c, call, f, rfl, hk, hstores⟩

/-- A move stores at most one funding. -/
theorem StoresFunding.unique {p : Pool (Store τ) BackendCall Act Act.Answer Error Reply}
    {m : Move BackendCall (Choice κ) (Environ O)} {w w' : FundingWrite} (h : StoresFunding p m w)
    (h' : StoresFunding p m w') : w = w' := by
  obtain ⟨k, c, call, f, rfl, hk, -⟩ := h
  obtain ⟨hw, -⟩ := (storesFunding_iff hk).1 h'
  cases hw
  rfl

/-- The columns of an invoice that neither a funding nor a settlement writes. -/
structure SameParticulars (r r' : Invoice) : Prop where
  onchainId : r'.onchainId = r.onchainId
  faceValue : r'.faceValue = r.faceValue
  farmer : r'.farmer = r.farmer
  buyerId : r'.buyerId = r.buyerId
  investor : r'.investor = r.investor
  createdAt : r'.createdAt = r.createdAt

theorem RowMove.particulars {Stored : FundingWrite → Prop} {r r' : Invoice}
    (h : RowMove Stored r r') : SameParticulars r r' := by
  cases h with
  | kept same =>
    rw [same]
    exact ⟨rfl, rfl, rfl, rfl, rfl, rfl⟩
  | funded w now stored onchainId status row =>
    rw [row]
    exact ⟨rfl, rfl, rfl, rfl, rfl, rfl⟩
  | settled w now status row =>
    rw [row]
    exact ⟨rfl, rfl, rfl, rfl, rfl, rfl⟩

/-- What a step of a funding call does to a row. -/
theorem FundAt.row {k : Nat} {call : FundCall} {a : Act} {f : Except Error a.Answer → Task Reply}
    {c : Choice κ} {s : Store τ} (h : FundAt chain sha k call (.await a f) s) {r' : Invoice}
    (hr' : r' ∈ (perform chain k a c s).2.db.invoices.rows) :
    ∃ r ∈ s.db.invoices.rows,
      RowMove (fun w => a = .recordFunding w ∧ w.Fits ∧ c.fault ≠ .failed) r r' := by
  rcases h with h | ⟨invoice, amount, r, h, -⟩ | ⟨w, r₀, h, hr₀, hid, ho, hst, -⟩ | ⟨x, h, -⟩
  · rw [BackendCall.task, fundInvoice] at h
    cases hg : guardHalt call with
    | error e =>
      rw [hg] at h
      cases h
    | ok u =>
      rw [hg] at h
      cases h
      exact RowMove.of_same rfl (by simp) hr'
  · cases h
    refine RowMove.of_same ?_ (by simp) hr'
    dsimp only [perform]
    split <;> rfl
  · cases h
    by_cases hfits : w.Fits
    swap
    · -- the column refuses the discount, and the row stays as it is
      have hbody : Store.onDb (recordFunding w c.clock) s =
          .error (.database "numeric field overflow") := by
        rw [Store.onDb, recordFunding_overflow c.clock hr₀ hid hfits]
        rfl
      rw [perform, transact_of_error hbody] at hr'
      refine ⟨r', hr', .kept rfl fun w' hw' => ?_⟩
      cases hw'.1
      exact absurd hw'.2.1 hfits
    have hbody := onDb_eq_ok.2
      ⟨_, (recordFunding_eq_ok w c.clock).2 ⟨hfits, r₀, hr₀, hid, rfl, rfl⟩, rfl⟩
    rw [perform, transact_of_ok hbody] at hr'
    split at hr'
    · next hc => exact ⟨r', hr', .kept rfl fun w' hw' => absurd hc hw'.2.2⟩
    · next hc =>
      obtain ⟨r, hr, rfl⟩ := InvoiceTable.mem_updateMany.1 hr'
      split
      · next hw =>
        have heq : r = r₀ := InvoiceTable.eq_of_id hr hr₀ (by rw [of_decide_eq_true hw, hid])
        rw [heq]
        exact ⟨r₀, hr₀, .funded w c.clock ⟨rfl, hfits, hc⟩ ho.symm hst rfl⟩
      · next hw =>
        refine ⟨r, hr, .kept rfl ?_⟩
        rintro w' ⟨hw', -⟩ hid'
        cases hw'
        have heq : r = r₀ := InvoiceTable.eq_of_onchainId hr hr₀ (by rw [ho, hid'])
        exact hw (decide_eq_true (by rw [heq, hid]))
  · cases h

/-- What a step of a settlement call does to a row. -/
theorem SettleAt.row (chain : PoolChain τ κ O) {k : Nat} {id : DecimalId} {ledger : Nat}
    {txHash : Option String} {a : Act} {f : Except Error a.Answer → Task Reply} {c : Choice κ}
    {s : Store τ}
    (h : SettleAt sha k id ledger txHash (.await a f) s) {r' : Invoice}
    (hr' : r' ∈ (perform chain k a c s).2.db.invoices.rows) :
    ∃ r ∈ s.db.invoices.rows,
      RowMove (fun w => a = .recordFunding w ∧ w.Fits ∧ c.fault ≠ .failed) r r' := by
  rcases h with h | h | h
  · cases h
    exact RowMove.of_same (perform_quiet chain k (a := .begin) trivial c s).invoices (by simp) hr'
  · cases h
    -- the conditional update of the settlement's own transaction
    have hmoved : ∀ s', (∃ x, Store.settle k ⟨id, ledger, txHash⟩ c.clock s = .ok (x, s')) →
        r' ∈ s'.db.invoices.rows → ∃ r ∈ s.db.invoices.rows,
          RowMove (fun w => Act.settle ⟨id, ledger, txHash⟩ = .recordFunding w ∧ w.Fits ∧
            c.fault ≠ .failed) r r' := by
      rintro s' ⟨x, hb⟩ hmem
      rcases settle_eq_ok hb with ⟨rfl, -, rfl⟩ | ⟨rfl, rfl, -⟩
      · obtain ⟨r, hr, rfl⟩ := InvoiceTable.mem_updateMany.1 hmem
        split
        · next hw => exact ⟨r, hr, .settled _ _ (of_decide_eq_true hw).2 rfl (by simp)⟩
        · exact ⟨r, hr, .kept rfl (by simp)⟩
      · exact ⟨r', hmem, .kept rfl (by simp)⟩
    rw [perform] at hr'
    rcases transact_cases c.fault (Store.settle k ⟨id, ledger, txHash⟩ c.clock) s with ⟨e, ht⟩ |
      ⟨x, s', hb, -, ht⟩ | ⟨x, s', hb, -, ht⟩
    · rw [ht] at hr'
      exact RowMove.of_same rfl (by simp) hr'
    · rw [ht] at hr'
      exact hmoved s' ⟨x, hb⟩ hr'
    · rw [ht] at hr'
      exact hmoved s' ⟨x, hb⟩ hr'
  · refine RowMove.of_same (perform_quiet chain k h.1 c s).invoices ?_ hr'
    rintro w ⟨rfl, -⟩
    exact h.1

/-- **What a move does to the row of an invoice.** -/
theorem move_row {p : Pool (Store τ) BackendCall Act Act.Answer Error Reply}
    (hat : p.Meets (CallAt chain sha)) (m : Move BackendCall (Choice κ) (Environ O)) {r' : Invoice}
    (hr' : r' ∈ ((backend sha chain).move m p).state.db.invoices.rows) :
    ∃ r ∈ p.state.db.invoices.rows, RowMove (StoresFunding p m) r r' := by
  rcases Service.move_cases (backend sha chain) m p with ⟨i, rfl, hp⟩ |
    ⟨k, c, i, a, f, rfl, hk, hp⟩ | ⟨o, rfl, hp⟩ | ⟨k, c, rfl, hk, hp⟩
  · refine RowMove.of_same (congrArg (fun q => q.state.db.invoices) hp) ?_ hr'
    rintro w ⟨k, c, call, f, hm, -⟩
    cases hm
  · rw [hp] at hr'
    have hstored : StoresFunding p (.resume k c : Move BackendCall (Choice κ) (Environ O)) =
        fun w => a = .recordFunding w ∧ w.Fits ∧ c.fault ≠ .failed :=
      funext fun w => propext (storesFunding_iff hk)
    rw [hstored]
    have hcall := hat _ _ hk
    cases i with
    | fund call => exact FundAt.row hcall hr'
    | settle id ledger txHash => exact SettleAt.row chain hcall hr'
  · have hsame : ((backend sha chain).move (.environ o) p).state.db.invoices =
        p.state.db.invoices := by
      rw [hp]
      cases o <;> rfl
    refine RowMove.of_same hsame ?_ hr'
    rintro w ⟨k, c, call, f, hm, -⟩
    cases hm
  · refine RowMove.of_same (congrArg (fun q => q.state.db.invoices) hp) ?_ hr'
    rintro w ⟨k', c', call, f, hm, hk', -⟩
    cases hm
    exact hk _ _ _ hk'

variable {s : Store τ} {ms : List (Move BackendCall (Choice κ) (Environ O))}

/-- After a run from rows that are all `PENDING`, a row is out of `PENDING` exactly if the run has
stored a funding of it. -/
theorem stored_iff (hs : Untouched s) (hpending : ∀ r ∈ s.db.invoices.rows, r.status = .pending)
    {r : Invoice}
    (hr : r ∈ (((backend sha chain).machine s).exec ⟨s, []⟩ ms).state.db.invoices.rows) :
    r.status ≠ .pending ↔ ∃ t ∈ ((backend sha chain).machine s).trace ⟨s, []⟩ ms,
      Stores t.pre t.input r.onchainId := by
  induction ms using List.reverseRecOn generalizing r with
  | nil => exact ⟨fun h => absurd (hpending r hr) h, fun ⟨t, ht, _⟩ => nomatch ht⟩
  | append_singleton ms m ih =>
    rw [Machine.exec_concat] at hr
    obtain ⟨r₀, hr₀, hmove⟩ := move_row (mirror_exec sha chain hs ms).2 m hr
    have hiff : r.onchainId = r₀.onchainId ∧ (r.status ≠ .pending ↔ r₀.status ≠ .pending ∨
        Stores (((backend sha chain).machine s).exec ⟨s, []⟩ ms) m r₀.onchainId) := by
      cases hmove with
      | kept same none =>
        rw [same]
        exact ⟨rfl, .inl, fun h => h.resolve_right fun ⟨w, hw, hid⟩ => none w hw hid⟩
      | funded w now stored onchainId status row =>
        rw [row]
        exact ⟨rfl, fun _ => .inr ⟨w, stored, onchainId⟩, fun _ => InvoiceStatus.noConfusion⟩
      | settled w now status row none =>
        rw [row]
        refine ⟨rfl, fun _ => .inl ?_, fun _ => InvoiceStatus.noConfusion⟩
        rw [status]
        exact InvoiceStatus.noConfusion
    rw [hiff.2, ih hr₀, hiff.1, Machine.trace_concat]
    simp [or_and_right, exists_or]

/-- A run keeps the particulars of every invoice. -/
theorem particulars_exec (hs : Untouched s) {r : Invoice}
    (hr : r ∈ (((backend sha chain).machine s).exec ⟨s, []⟩ ms).state.db.invoices.rows) :
    ∃ r₀ ∈ s.db.invoices.rows, SameParticulars r₀ r := by
  induction ms using List.reverseRecOn generalizing r with
  | nil => exact ⟨r, hr, rfl, rfl, rfl, rfl, rfl, rfl⟩
  | append_singleton ms m ih =>
    rw [Machine.exec_concat] at hr
    obtain ⟨r₁, hr₁, hmove⟩ := move_row (mirror_exec sha chain hs ms).2 m hr
    obtain ⟨r₀, hr₀, h₀⟩ := ih hr₁
    have h₁ := hmove.particulars
    exact ⟨r₀, hr₀, h₁.onchainId.trans h₀.onchainId, h₁.faceValue.trans h₀.faceValue,
      h₁.farmer.trans h₀.farmer, h₁.buyerId.trans h₀.buyerId, h₁.investor.trans h₀.investor,
      h₁.createdAt.trans h₀.createdAt⟩

/-- A funding that a run has stored is what the row of the invoice shows ever after. -/
theorem shown_of_stored (hs : Untouched s) {r : Invoice}
    (hr : r ∈ (((backend sha chain).machine s).exec ⟨s, []⟩ ms).state.db.invoices.rows)
    {t : Step (Pool (Store τ) BackendCall Act Act.Answer Error Reply)
      (Move BackendCall (Choice κ) (Environ O)) Empty Unit}
    (ht : t ∈ ((backend sha chain).machine s).trace ⟨s, []⟩ ms) {w : FundingWrite}
    (hw : StoresFunding t.pre t.input w) (hid : w.onchainId = r.onchainId) :
    r.status ≠ .pending ∧ r.funder = some w.investorWallet ∧ r.fundedAmount = some w.amount := by
  induction ms using List.reverseRecOn generalizing r with
  | nil => cases ht
  | append_singleton ms m ih =>
    rw [Machine.exec_concat] at hr
    obtain ⟨r₀, hr₀, hmove⟩ := move_row (mirror_exec sha chain hs ms).2 m hr
    have hid₀ : w.onchainId = r₀.onchainId := hid.trans hmove.particulars.onchainId
    rw [Machine.trace_concat] at ht
    rcases List.mem_append.1 ht with ht | ht
    · -- the funding was stored before: the row is out of `PENDING` and keeps what it shows
      obtain ⟨hst, hfunder, hamount⟩ := ih hr₀ ht hid₀
      cases hmove with
      | kept same =>
        rw [same]
        exact ⟨hst, hfunder, hamount⟩
      | funded w' now stored onchainId status row => exact absurd status hst
      | settled w' now status row =>
        rw [row]
        exact ⟨InvoiceStatus.noConfusion, hfunder, hamount⟩
    · rw [List.mem_singleton.1 ht, Machine.step_pre, Machine.step_input] at hw
      cases hmove with
      | kept same none => exact absurd hid₀ (none w hw)
      | funded w' now stored onchainId status row =>
        rw [row, hw.unique stored]
        exact ⟨InvoiceStatus.noConfusion, rfl, rfl⟩
      | settled w' now status row none => exact absurd hw (none w)

end

end Backend

end InvoiceFi
