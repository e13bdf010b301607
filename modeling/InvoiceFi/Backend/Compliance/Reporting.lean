import InvoiceFi.Backend.Compliance
import InvoiceFi.Backend.Services.Rows

/-!
# The fundings of a run and their reports

A funding writes the wallet to the column `funder` and leaves the column `investor` alone
(`shown_of_stored`, `particulars_exec`), and the readers look at `investor` only (`reportable_iff`).
So a funding is reported exactly if the column already named the wallet before the run.
-/

namespace InvoiceFi

namespace Backend

/-- **A funding is reported only under a wallet that the invoice named before.** For every run of
fundings and settlements, every threshold and every date range: a funding that the run has stored,
of an amount and an invoice that the export admits, is reported by all readers exactly if the column
`investor` of the invoice, which nothing writes, named its wallet from the start. -/
theorem funding_reportable_iff {τ κ O : Type} (sha : Sha256) (chain : PoolChain τ κ O)
    (config : ComplianceConfig) {s : Store τ} (hs : Untouched s)
    {ms : List (Move BackendCall (Choice κ) (Environ O))}
    {t : Step (Pool (Store τ) BackendCall Act Act.Answer Error Reply)
      (Move BackendCall (Choice κ) (Environ O)) Empty Unit}
    (ht : t ∈ ((backend sha chain).machine s).trace ⟨s, []⟩ ms) {w : FundingWrite}
    (hw : StoresFunding t.pre t.input w) {r : Invoice}
    (hr : r ∈ (((backend sha chain).machine s).exec ⟨s, []⟩ ms).state.db.invoices.rows)
    (hid : w.onchainId = r.onchainId) {threshold : Int} (hamount : threshold ≤ w.amount)
    {rangeStart rangeEnd : Option Int}
    (hrange : withinRange r.createdAt rangeStart rangeEnd = true) :
    Reportable config threshold rangeStart rangeEnd
        (((backend sha chain).machine s).exec ⟨s, []⟩ ms).state.db r w.investorWallet ↔
      w.investorWallet ≠ "" ∧ ∃ r₀ ∈ s.db.invoices.rows, r₀.onchainId = w.onchainId ∧
        r₀.investor = some w.investorWallet := by
  obtain ⟨-, -, hshown⟩ := shown_of_stored hs hr ht hw hid
  have hadm : Admits ⟨none, threshold, rangeStart, rangeEnd⟩ r := by
    refine ⟨?_, hrange⟩
    rw [hshown]
    exact hamount
  obtain ⟨r₀, hr₀, h₀⟩ := particulars_exec hs hr
  rw [reportable_iff hr hadm]
  constructor
  · rintro ⟨hinv, hne⟩
    exact ⟨hne, r₀, hr₀, by rw [hid, h₀.onchainId], by rw [← h₀.investor, hinv]⟩
  · rintro ⟨hne, r₁, hr₁, hid₁, hinv⟩
    have heq : r₁ = r₀ := InvoiceTable.eq_of_onchainId hr₁ hr₀ (by
      rw [hid₁, hid, h₀.onchainId])
    rw [heq] at hinv
    exact ⟨by rw [h₀.investor, hinv], hne⟩

/-- The buyer's funding of an invoice whose column `investor` names the wallet already. -/
theorem funding_reportable_named :
    let db : Db := { oneInvoice [] with
      invoices := ⟨[{ mirroredInvoice 1 7 1000 "farmer" "buyer" 0 with
        investor := some "investor" }], List.nodup_singleton _, List.nodup_singleton _⟩ }
    let ms : List (Move BackendCall (Choice Submission) (Environ NetworkEvent)) :=
      [.start (.fund (buyerFunds 100)), .resume 0 smooth, .resume 0 smooth, .resume 0 smooth]
    ∃ r ∈ (((backend plainSha256 network).machine (.opening db)).exec
        ⟨.opening db, []⟩ ms).state.db.invoices.rows,
      Reportable ⟨"USDC", 7⟩ 50 none none (((backend plainSha256 network).machine
        (.opening db)).exec ⟨.opening db, []⟩ ms).state.db r "investor" := by
  intro db ms
  refine ⟨_, .head _, (funding_reportable_iff plainSha256 network ⟨"USDC", 7⟩ (s := .opening db)
    ⟨fun _ => rfl, fun _ => rfl⟩ (.tail _ (.tail _ (.tail _ (.head _))))
    (w := ⟨1, 7, "buyer", "investor", 100, 5, "hash"⟩)
    ⟨0, smooth, _, _, rfl, rfl, by decide, Fault.noConfusion⟩ (.head _) rfl
    (by decide : (50 : Int) ≤ 100) rfl).2 ⟨by decide, _, .head _, rfl, rfl⟩⟩

/-- The buyer's funding of an invoice as the listener mirrors it: the row is `FUNDED` by the wallet,
and it is not reportable for it. -/
theorem funding_unreported :
    let ms : List (Move BackendCall (Choice Submission) (Environ NetworkEvent)) :=
      [.start (.fund (buyerFunds 100)), .resume 0 smooth, .resume 0 smooth, .resume 0 smooth]
    ∃ r ∈ (((backend plainSha256 network).machine (.opening (oneInvoice []))).exec
        ⟨.opening (oneInvoice []), []⟩ ms).state.db.invoices.rows,
      r.status = .funded ∧ r.funder = some "investor" ∧ r.fundedAmount = some 100 ∧
      ¬ Reportable ⟨"USDC", 7⟩ 50 none none (((backend plainSha256 network).machine
        (.opening (oneInvoice []))).exec ⟨.opening (oneInvoice []), []⟩ ms).state.db r
        "investor" := by
  refine ⟨_, .head _, rfl, rfl, rfl, fun h => ?_⟩
  obtain ⟨hinv, -⟩ := (reportable_iff (.head _) ⟨by decide, rfl⟩).1 h
  cases hinv

end Backend

end InvoiceFi
