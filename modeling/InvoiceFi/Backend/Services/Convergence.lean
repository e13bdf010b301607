import InvoiceFi.Backend.Services.Rows

/-!
# Fundings that happened on the chain only

A funding takes effect on the chain first and in the database later, and nothing carries the first
over to the second when the call stops in between: its transaction fails, or the polling gives up on
a submission that is executed all the same. A further call then finds the invoice `PENDING`, passes
the checks, submits again and is rejected with `AlreadyFunded`, so it changes nothing
(`fundInvoice_of_advanced`). The row shows the funding exactly if the transaction of the call that
was answered success took effect (`stored_iff`), and `funding_converges_iff` draws the conclusion.
-/

namespace InvoiceFi

namespace Backend

/-! ## A further call -/

/-- A run in which neither the database nor the RPC fails. -/
def Healthy (h : List (Act × Choice Submission)) : Prop :=
  ∀ x ∈ h, x.2.fault = .none ∧ ∃ hash, x.2.chain = .executed hash

/-- The row shows the funding that the chain has executed. -/
def ShowsFunding (r : Invoice) (req : FundRequest) : Prop :=
  r.status = .funded ∧ r.funder = some req.investorWallet ∧ r.fundedAmount = some req.amount

/-- One further call by the buyer of the invoice, which is not halted and in which nothing fails,
leaves the row with the funding of the chain. -/
def Converges (s : Store Network) (r : Invoice) (req : FundRequest) : Prop :=
  ∀ (k : Nat) (call : FundCall) (h : List (Act × Choice Submission))
    (x : Except Error FundResponse) (s' : Store Network),
    call.userId = r.buyerId → call.dto.invoiceId = r.id → guardHalt call = .ok () →
    Async.Runs (perform network k) (fundInvoice call) s h x s' → Healthy h →
    ∃ r' ∈ s'.db.invoices.rows, r'.id = r.id ∧ ShowsFunding r' req

/-- A call for an invoice that the chain has funded leaves the database as it is, whatever the row
says and whatever fails. -/
theorem fundInvoice_of_advanced {k : Nat} {call : FundCall} {s s' : Store Network}
    {h : List (Act × Choice Submission)} {x : Except Error FundResponse} {r : Invoice}
    {req : FundRequest} (hr : r ∈ s.db.invoices.rows) (hid : r.id = call.dto.invoiceId)
    (hreq : s.chain.advanced r.onchainId = some req)
    (hrun : Async.Runs (perform network k) (fundInvoice call) s h x s') : s'.db = s.db := by
  have hfind := InvoiceTable.findId_eq_some.2 ⟨hr, hid⟩
  unfold fundInvoice at hrun
  cases hg : guardHalt call with
  | error e =>
    rw [hg] at hrun
    obtain ⟨-, -, rfl⟩ := hrun.done_inv
    rfl
  | ok u =>
    rw [hg] at hrun
    obtain ⟨c, h', -, hrun⟩ := Async.Runs.await_inv hrun
    dsimp only [perform, read] at hrun
    split at hrun
    · rw [hfind] at hrun
      change Async.Runs _ (Async.ofExcept (checkFundable call r) >>= _) _ _ _ _ at hrun
      cases hc : checkFundable call r with
      | error e =>
        rw [hc] at hrun
        obtain ⟨-, -, rfl⟩ := hrun.done_inv
        rfl
      | ok amount =>
        rw [hc] at hrun
        obtain ⟨c', h'', -, hrun⟩ := Async.Runs.await_inv hrun
        obtain ⟨e, he⟩ := Network.submit_of_advanced ⟨r.onchainId, call.investorWallet, amount⟩
          c'.chain hreq
        -- the contract rejects the second funding, and the call ends with its error
        have hperform : perform network k
            (.fundOnChain ⟨r.onchainId, call.investorWallet, amount⟩) c' s =
            (.error e, s) := by
          simp only [perform, network, he]
        rw [hperform] at hrun
        obtain ⟨-, -, rfl⟩ := hrun.done_inv
        rfl
    · obtain ⟨-, -, rfl⟩ := hrun.done_inv
      rfl

/-- For an invoice that the chain has funded, a further call converges exactly if the row shows the
funding already. -/
theorem converges_iff {s : Store Network} {r : Invoice} {req : FundRequest}
    (hr : r ∈ s.db.invoices.rows) (hreq : s.chain.advanced r.onchainId = some req) :
    Converges s r req ↔ ShowsFunding r req := by
  constructor
  · intro hconv
    let call : FundCall := ⟨r.buyerId, req.investorWallet, ⟨r.id, 0, 0⟩, none, none⟩
    obtain ⟨h, x, s', hrun, hh⟩ := Async.exists_runs (perform network 0) (fundInvoice call) smooth
      s
    obtain ⟨r', hr', hid, hshows⟩ := hconv 0 call h x s' rfl rfl rfl hrun fun y hy => by
      rw [hh y hy]
      exact ⟨rfl, "hash", rfl⟩
    rw [fundInvoice_of_advanced hr rfl hreq hrun] at hr'
    rw [← InvoiceTable.eq_of_id hr' hr hid]
    exact hshows
  · intro hshows k call h x s' _ hid _ hrun _
    rw [fundInvoice_of_advanced hr hid.symm hreq hrun]
    exact ⟨r, hr, rfl, hshows⟩

/-! ## What the rows show -/

/-- Every row is `PENDING` or shows a funding that has taken effect on the chain. -/
def RowsShowFundings {τ κ O : Type} (chain : PoolChain τ κ O) (s : Store τ) : Prop :=
  ∀ r ∈ s.db.invoices.rows, r.status = .pending ∨
    ∃ req, chain.confirmed s.chain req ∧ req.invoiceContractId = r.onchainId ∧ ShowsFunding r req

section
variable {τ κ O : Type} {chain : PoolChain τ κ O} {sha : Sha256}

/-- A step of a funding call keeps what the rows show. -/
theorem RowsShowFundings.effect {k : Nat} {call : Option BackendCall} {s s' : Store τ}
    (h : RowsShowFundings chain s) (hcall : ∀ i, call = some i → ∃ c, i = .fund c)
    (heff : Effect chain k call s s') : RowsShowFundings chain s' := by
  -- a row that is kept shows what it showed
  have hkept : ∀ r ∈ s.db.invoices.rows, r.status = .pending ∨
      ∃ req, chain.confirmed s'.chain req ∧ req.invoiceContractId = r.onchainId ∧
        ShowsFunding r req := by
    intro r hr
    rcases h r hr with hp | ⟨req, hreq, hid, hshows⟩
    · exact .inl hp
    · exact .inr ⟨req, heff.confirmed hreq, hid, hshows⟩
  cases heff with
  | quiet hi =>
    intro r hr
    rw [hi] at hr
    exact hkept r hr
  | paid _ _ _ hdb =>
    intro r hr
    rw [hdb] at hr
    exact hkept r hr
  | funded w now r₀ hr₀ hid₀ ho₀ _ _ hreq hs =>
    intro r hr
    rw [hs] at hr
    obtain ⟨r₁, hr₁, rfl⟩ := InvoiceTable.mem_updateMany.1 hr
    split
    · next hw =>
      have heq : r₁ = r₀ := InvoiceTable.eq_of_id hr₁ hr₀ (by rw [of_decide_eq_true hw, hid₀])
      refine .inr ⟨w.request, ?_, ?_, rfl, rfl, rfl⟩
      · rw [hs]
        exact hreq
      · rw [heq]
        exact ho₀.symm
    · exact hkept r₁ hr₁
  | settled w now r₀ hby =>
    obtain ⟨c, hc⟩ := hcall _ hby
    cases hc

variable {s : Store τ} {ms : List (Move BackendCall (Choice κ) (Environ O))}

/-- After a run of fundings, from rows that are all `PENDING`, every row is `PENDING` or shows a
funding that has taken effect on the chain. -/
theorem rowsShowFundings_exec (hs : Untouched s)
    (hpending : ∀ r ∈ s.db.invoices.rows, r.status = .pending)
    (hms : ∀ i, .start i ∈ ms → ∃ c, i = .fund c) :
    RowsShowFundings chain (((backend sha chain).machine s).exec ⟨s, []⟩ ms).state :=
  (mirror_exec_of sha _ (RowsShowFundings chain) (fun _ h hcall heff => h.effect hcall heff) hs
    (fun r hr => .inl (hpending r hr)) ms hms).2.1

end

/-- **A funding that happened on the chain reaches the database only through its own call.** In
every run of fundings, from rows that are all `PENDING`, and for every invoice that the chain has
funded: one further healthy call of the buyer leaves the row with the funding of the chain exactly
if the run has stored the funding, that is, if the transaction of the call that was answered success
took effect. -/
theorem funding_converges_iff (sha : Sha256) {s : Store Network} (hs : Untouched s)
    (hpending : ∀ r ∈ s.db.invoices.rows, r.status = .pending)
    {ms : List (Move BackendCall (Choice Submission) (Environ NetworkEvent))}
    (hms : ∀ i, .start i ∈ ms → ∃ call, i = .fund call) {r : Invoice}
    (hr : r ∈ (((backend sha network).machine s).exec ⟨s, []⟩ ms).state.db.invoices.rows)
    {req : FundRequest} (hreq : (((backend sha network).machine s).exec
      ⟨s, []⟩ ms).state.chain.advanced r.onchainId = some req) :
    Converges (((backend sha network).machine s).exec ⟨s, []⟩ ms).state r req ↔
      ∃ t ∈ ((backend sha network).machine s).trace ⟨s, []⟩ ms,
        Stores t.pre t.input r.onchainId := by
  rw [converges_iff hr hreq, ← stored_iff hs hpending hr]
  constructor
  · rintro ⟨hst, -⟩ hpend
    rw [hst] at hpend
    cases hpend
  · intro hst
    rcases rowsShowFundings_exec hs hpending hms r hr with hpend | ⟨req', hconf, hid, hshows⟩
    · exact absurd hpend hst
    · rw [← hid] at hreq
      rw [← network_confirmed hconf hreq]
      exact hshows

/-- The buyer's funding of 100 from start to end: the row shows it. -/
theorem funding_converges_stored :
    let ms : List (Move BackendCall (Choice Submission) (Environ NetworkEvent)) :=
      [.start (.fund (buyerFunds 100)), .resume 0 smooth, .resume 0 smooth, .resume 0 smooth]
    ∃ r ∈ (((backend plainSha256 network).machine (.opening (oneInvoice []))).exec
        ⟨.opening (oneInvoice []), []⟩ ms).state.db.invoices.rows,
      Converges (((backend plainSha256 network).machine (.opening (oneInvoice []))).exec
        ⟨.opening (oneInvoice []), []⟩ ms).state r ⟨7, "investor", 100⟩ := by
  intro ms
  refine ⟨_, .head _, (funding_converges_iff plainSha256 ⟨fun _ => rfl, fun _ => rfl⟩ ?_ ?_
    (.head _) rfl).2 ⟨_, .tail _ (.tail _ (.tail _ (.head _))), _,
      ⟨0, smooth, _, _, rfl, rfl, by decide, Fault.noConfusion⟩, rfl⟩⟩
  · intro r hr
    cases List.mem_singleton.1 hr
    rfl
  · intro i hi
    exact ⟨buyerFunds 100, by simpa [ms] using hi⟩

/-- The chain has funded the invoice and a further call does not help: the transaction of the first
call failed, or its polling gave up before the submission was executed. -/
theorem funding_not_converging :
    let ms : List (Move BackendCall (Choice Submission) (Environ NetworkEvent)) :=
      [.start (.fund (buyerFunds 100)), .resume 0 smooth, .resume 0 smooth, .resume 0 failing]
    let ms' : List (Move BackendCall (Choice Submission) (Environ NetworkEvent)) :=
      [.start (.fund (buyerFunds 100)), .resume 0 smooth,
        .resume 0 ⟨.none, 0, .pending (.rpc "no final status within the polling window")⟩,
        .environ (.chain (.land 0))]
    ∀ run ∈ [ms, ms'],
      ∃ r ∈ (((backend plainSha256 network).machine (.opening (oneInvoice []))).exec
          ⟨.opening (oneInvoice []), []⟩ run).state.db.invoices.rows, ∃ req,
        (((backend plainSha256 network).machine (.opening (oneInvoice []))).exec
          ⟨.opening (oneInvoice []), []⟩ run).state.chain.advanced r.onchainId = some req ∧
        ¬ Converges (((backend plainSha256 network).machine (.opening (oneInvoice []))).exec
          ⟨.opening (oneInvoice []), []⟩ run).state r req := by
  intro ms ms' run hrun
  have hfails : ∀ s : Store Network, s.db.invoices = (oneInvoice []).invoices →
      s.chain.advanced 7 = some ⟨7, "investor", 100⟩ →
      ∃ r ∈ s.db.invoices.rows, ∃ req, s.chain.advanced r.onchainId = some req ∧
        ¬ Converges s r req := by
    intro s hrows hadv
    have hr : mirroredInvoice 1 7 1000 "farmer" "buyer" 0 ∈ s.db.invoices.rows := by
      rw [hrows]
      exact .head _
    refine ⟨_, hr, _, hadv, fun hconv => ?_⟩
    obtain ⟨hst, -⟩ := (converges_iff hr hadv).1 hconv
    cases hst
  rcases List.mem_cons.1 hrun with rfl | hrun
  · exact hfails _ rfl rfl
  · rw [List.mem_singleton.1 hrun]
    exact hfails _ rfl rfl

end Backend

end InvoiceFi
