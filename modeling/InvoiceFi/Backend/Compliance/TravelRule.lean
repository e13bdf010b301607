import InvoiceFi.Backend.Compliance.Amounts
import Mathlib.Data.List.Nodup
import Std.Data.String.ToInt

/-!
# How travel rule reports compose (`compliance/fatf.ts`)

The transfers that an invoice has to report do not depend on the threshold and the range of a
report: `candidates` are these transfers, and the records of a report are those of the candidates
that it admits (`buildFatfRecords_eq`). So the reports of one list of invoices are filters of one
list, and compose as filters do (`travelRule_composes`).
-/

namespace InvoiceFi

namespace Backend

namespace Compliance

/-! ## Reports as filters -/

/-- A transfer of an invoice. -/
structure Candidate where
  invoice : Invoice
  type : FatfTransactionType
  transfer : Transfer

/-- The record of a transfer. -/
def Candidate.record (c : Candidate) : FatfRecord := Backend.record c.invoice c.type c.transfer

/-- A report admits the transfer. -/
def Candidate.Admitted (options : FatfBuildOptions) (c : Candidate) : Prop :=
  options.thresholdMinorUnits ≤ c.transfer.amount ∧
    withinRange c.transfer.date options.rangeStart options.rangeEnd = true

instance (options : FatfBuildOptions) : DecidablePred (Candidate.Admitted options) :=
  fun _ => inferInstanceAs (Decidable (_ ∧ _))

/-- The financing of an invoice. -/
def financed (options : FatfBuildOptions) (invoice : Invoice) (investor : String) :
    Candidate where
  invoice := invoice
  type := .financing
  transfer :=
    { date := invoice.createdAt
      ledger := none
      originator := investor
      beneficiary := invoice.farmer
      amount := invoice.fundedAmount.getD invoice.faceValue
      assetCode := invoice.assetCode.getD options.defaultAssetCode
      decimals := options.assetDecimals.getD defaultAssetDecimals }

/-- The repayment of an invoice. -/
def repaid (options : FatfBuildOptions) (invoice : Invoice) (investor : String) : Candidate where
  invoice := invoice
  type := .repayment
  transfer :=
    { date := invoice.settledAt.getD invoice.updatedAt
      ledger := invoice.settledLedger
      originator := invoice.farmer
      beneficiary := investor
      amount := invoice.repaidAmount.getD invoice.faceValue
      assetCode := invoice.assetCode.getD options.defaultAssetCode
      decimals := options.assetDecimals.getD defaultAssetDecimals }

/-- The transfers of an invoice, whatever their amounts and dates. -/
def candidates (options : FatfBuildOptions) (invoice : Invoice) : List Candidate :=
  match invoice.investor with
  | none => []
  | some investor =>
    if investor = "" then []
    else financed options invoice investor ::
      if invoice.status = .repaid then [repaid options invoice investor] else []

/-- The records of the transfers that a report admits. -/
def recordsOf (options : FatfBuildOptions) (transfers : List Candidate) : List FatfRecord :=
  (transfers.filter fun c => decide (c.Admitted options)).map Candidate.record

theorem recordsOf_singleton (options : FatfBuildOptions) (c : Candidate) :
    recordsOf options [c] = if c.Admitted options then [c.record] else [] := by
  unfold recordsOf
  by_cases h : c.Admitted options
  · rw [List.filter_cons, if_pos (decide_eq_true h), if_pos h]
    rfl
  · rw [List.filter_cons, if_neg (mt of_decide_eq_true h), if_neg h]
    rfl

/-- The records of an invoice are those of its transfers that the report admits. -/
theorem fatfRecords_eq (options : FatfBuildOptions) (invoice : Invoice) :
    fatfRecords options invoice = recordsOf options (candidates options invoice) := by
  unfold fatfRecords candidates
  cases invoice.investor with
  | none => rfl
  | some investor =>
    have hfinancing : financing options invoice investor =
        recordsOf options [financed options invoice investor] :=
      (recordsOf_singleton options (financed options invoice investor)).symm
    have hrepayment : repayment options invoice investor = recordsOf options
        (if invoice.status = .repaid then [repaid options invoice investor] else []) := by
      unfold repayment
      split
      · exact (recordsOf_singleton options (repaid options invoice investor)).symm
      · rfl
    dsimp only
    split
    · rfl
    · rw [hfinancing, hrepayment, recordsOf, recordsOf, ← List.map_append, ← List.filter_append]
      rfl

/-- **The records of a report are those of the transfers that it admits.** -/
theorem buildFatfRecords_eq (options : FatfBuildOptions) (invoices : List Invoice) :
    buildFatfRecords invoices options =
      recordsOf options (invoices.flatMap (candidates options)) := by
  rw [buildFatfRecords, recordsOf, List.filter_flatMap, List.map_flatMap]
  exact congrArg (List.flatMap · invoices) (funext (fatfRecords_eq options))

/-! ## The references of the records -/

/-- The reference of a record tells the invoice and the type of its transfer. -/
theorem transactionRef_inj {c c' : Candidate}
    (h : c.record.transactionRef = c'.record.transactionRef) :
    c.invoice.onchainId = c'.invoice.onchainId ∧ c.type = c'.type := by
  have hchars := congrArg String.toList h
  simp only [Candidate.record, Backend.record, String.toList_append, List.append_assoc] at hchars
  -- the names of the two types are of one length
  have hlength : ∀ t : FatfTransactionType, (":".toList ++ t.name.toList).length = 10 := by
    intro t
    cases t <;> rfl
  obtain ⟨hid, hname⟩ := List.append_inj' hchars ((hlength _).trans (hlength _).symm)
  refine ⟨toString_int_injective (String.toList_inj.1 hid), ?_⟩
  have hname := String.toList_inj.1 (List.append_cancel_left hname)
  cases hc : c.type <;> cases hc' : c'.type <;> rw [hc, hc'] at hname
  · exact absurd hname (by decide)
  · exact absurd hname (by decide)

/-- A transfer of an invoice is its financing or its repayment. -/
theorem candidates_cases {options : FatfBuildOptions} {invoice : Invoice} {c : Candidate}
    (h : c ∈ candidates options invoice) :
    ∃ investor, c = financed options invoice investor ∨ c = repaid options invoice investor := by
  unfold candidates at h
  split at h
  · cases h
  · next investor _ =>
    refine ⟨investor, ?_⟩
    split at h
    · cases h
    · split at h
      · rcases List.mem_cons.1 h with rfl | h
        · exact .inl rfl
        · exact .inr (List.mem_singleton.1 h)
      · exact .inl (List.mem_singleton.1 h)

theorem candidates_invoice {options : FatfBuildOptions} {invoice : Invoice} {c : Candidate}
    (h : c ∈ candidates options invoice) : c.invoice = invoice := by
  obtain ⟨investor, rfl | rfl⟩ := candidates_cases h <;> rfl

/-- An invoice reports no two transfers of one type. -/
theorem candidates_types (options : FatfBuildOptions) (invoice : Invoice) :
    ((candidates options invoice).map Candidate.type).Nodup := by
  unfold candidates
  split
  · exact List.nodup_nil
  · split
    · exact List.nodup_nil
    · split
      · exact (by decide : [FatfTransactionType.financing, .repayment].Nodup)
      · exact List.nodup_singleton _

/-- The transfers of invoices with distinct ids have distinct references. -/
theorem candidates_refs (options : FatfBuildOptions) {invoices : List Invoice}
    (hids : (invoices.map Invoice.onchainId).Nodup) :
    ((invoices.flatMap (candidates options)).map fun c => c.record.transactionRef).Nodup := by
  rw [List.map_flatMap, List.nodup_flatMap]
  constructor
  · intro invoice _
    rw [List.nodup_iff_pairwise_ne, List.pairwise_map]
    have htypes := candidates_types options invoice
    rw [List.nodup_iff_pairwise_ne, List.pairwise_map] at htypes
    exact htypes.imp fun hne heq => hne (transactionRef_inj heq).2
  · rw [List.nodup_iff_pairwise_ne, List.pairwise_map] at hids
    refine hids.imp fun {invoice invoice'} hne ref href href' => ?_
    obtain ⟨c, hc, rfl⟩ := List.mem_map.1 href
    obtain ⟨c', hc', heq⟩ := List.mem_map.1 href'
    refine hne ?_
    rw [← candidates_invoice hc, ← candidates_invoice hc']
    exact (transactionRef_inj heq).1.symm

/-- The records of transfers with distinct references have distinct references. -/
theorem recordsOf_refs {options : FatfBuildOptions} {transfers : List Candidate}
    (h : (transfers.map fun c => c.record.transactionRef).Nodup) :
    ((recordsOf options transfers).map FatfRecord.transactionRef).Nodup := by
  rw [recordsOf, List.map_map]
  exact h.sublist (List.filter_sublist.map _)

/-! ## Thresholds, dates and amounts -/

/-- The amount that a record states. -/
def amountOf (record : FatfRecord) : Option Int := record.amountMinorUnits.toInt?

theorem amountOf_record (c : Candidate) : amountOf c.record = some c.transfer.amount :=
  Int.toInt?_repr c.transfer.amount

/-- Raising the threshold removes the records whose amount does not reach it. -/
theorem recordsOf_threshold (options : FatfBuildOptions) {higher : Int}
    (h : options.thresholdMinorUnits ≤ higher) (transfers : List Candidate) :
    recordsOf { options with thresholdMinorUnits := higher } transfers =
      (recordsOf options transfers).filter fun record =>
        (amountOf record).any fun amount => decide (higher ≤ amount) := by
  rw [recordsOf, recordsOf, List.filter_map, List.filter_filter]
  refine congrArg (List.map Candidate.record) (List.filter_congr fun c _ => ?_)
  rw [Function.comp_apply, amountOf_record, Option.any_some, ← Bool.decide_and]
  refine decide_eq_decide.2 ⟨fun hadm => ?_, fun hadm => ?_⟩
  · exact ⟨hadm.1, Int.le_trans h hadm.1, hadm.2⟩
  · exact ⟨hadm.1, hadm.2.2⟩

/-- A date lies in one of the two parts of a range. -/
theorem withinRange_cut {rangeStart rangeEnd : Option Int} {cut : Int}
    (hstart : ∀ a ∈ rangeStart, a ≤ cut) (hend : ∀ b ∈ rangeEnd, cut < b) (date : Nat) :
    (withinRange date rangeStart (some cut) = true ↔
      withinRange date rangeStart rangeEnd = true ∧ (date : Int) ≤ cut) ∧
    (withinRange date (some (cut + 1)) rangeEnd = true ↔
      withinRange date rangeStart rangeEnd = true ∧ ¬ (date : Int) ≤ cut) := by
  unfold withinRange
  cases rangeStart with
  | none =>
    cases rangeEnd with
    | none =>
      simp only [Option.all_none, Option.all_some, Bool.true_and, Bool.and_true, Bool.and_self,
        true_and, decide_eq_true_eq]
      omega
    | some b =>
      have hb := hend b rfl
      simp
      omega
  | some a =>
    have ha := hstart a rfl
    cases rangeEnd with
    | none =>
      simp
      omega
    | some b =>
      have hb := hend b rfl
      simp
      omega

/-- Cutting the range splits the records. -/
theorem recordsOf_cut (options : FatfBuildOptions) {cut : Int}
    (hstart : ∀ a ∈ options.rangeStart, a ≤ cut) (hend : ∀ b ∈ options.rangeEnd, cut < b)
    (transfers : List Candidate) :
    (recordsOf { options with rangeEnd := some cut } transfers ++
      recordsOf { options with rangeStart := some (cut + 1) } transfers).Perm
        (recordsOf options transfers) := by
  have hperm := List.filter_append_perm (fun c : Candidate => decide ((c.transfer.date : Int) ≤ cut))
    (transfers.filter fun c => decide (c.Admitted options))
  have hbefore : transfers.filter
        (fun c => decide (c.Admitted { options with rangeEnd := some cut })) =
      (transfers.filter fun c => decide (c.Admitted options)).filter
        fun c => decide ((c.transfer.date : Int) ≤ cut) := by
    rw [List.filter_filter]
    refine List.filter_congr fun c _ => ?_
    rw [← Bool.decide_and]
    refine decide_eq_decide.2 ?_
    unfold Candidate.Admitted
    rw [(withinRange_cut hstart hend c.transfer.date).1]
    tauto
  have hafter : transfers.filter
        (fun c => decide (c.Admitted { options with rangeStart := some (cut + 1) })) =
      (transfers.filter fun c => decide (c.Admitted options)).filter
        fun c => !decide ((c.transfer.date : Int) ≤ cut) := by
    rw [List.filter_filter]
    refine List.filter_congr fun c _ => ?_
    rw [← decide_not, ← Bool.decide_and]
    refine decide_eq_decide.2 ?_
    unfold Candidate.Admitted
    rw [(withinRange_cut hstart hend c.transfer.date).2]
    tauto
  rw [recordsOf, recordsOf, recordsOf, hbefore, hafter, ← List.map_append]
  exact hperm.map Candidate.record

/-! ## The laws of the reports -/

/-- A record states its amount twice: in minor units, and as a decimal text that reads as the same
amount. -/
def AmountsAgree (decimals : Nat) (record : FatfRecord) : Prop :=
  ∃ amount : Int, record.amountMinorUnits = toString amount ∧
    decimalToMinorUnits record.amountDecimal decimals = .ok amount

/-- How the reports of a list of invoices compose. -/
structure Composes (invoices : List Invoice) (options : FatfBuildOptions) : Prop where
  /-- No two records have one reference. -/
  refs : ((buildFatfRecords invoices options).map FatfRecord.transactionRef).Nodup
  /-- A higher threshold keeps the records whose amount reaches it. -/
  threshold : ∀ higher, options.thresholdMinorUnits ≤ higher →
    buildFatfRecords invoices { options with thresholdMinorUnits := higher } =
      (buildFatfRecords invoices options).filter fun record =>
        (amountOf record).any fun amount => decide (higher ≤ amount)
  /-- A cut of the range, open or closed at its ends, splits the records. -/
  cut : ∀ cut : Int, (∀ a ∈ options.rangeStart, a ≤ cut) → (∀ b ∈ options.rangeEnd, cut < b) →
    (buildFatfRecords invoices options).Perm
      (buildFatfRecords invoices { options with rangeEnd := some cut } ++
        buildFatfRecords invoices { options with rangeStart := some (cut + 1) }) ∧
    List.Disjoint (buildFatfRecords invoices { options with rangeEnd := some cut })
      (buildFatfRecords invoices { options with rangeStart := some (cut + 1) })
  /-- The records of further invoices follow. -/
  append : ∀ more, buildFatfRecords (invoices ++ more) options =
    buildFatfRecords invoices options ++ buildFatfRecords more options
  /-- The two amounts of a record agree. -/
  amounts : ∀ record ∈ buildFatfRecords invoices options,
    AmountsAgree (options.assetDecimals.getD defaultAssetDecimals) record

theorem candidates_decimals {options : FatfBuildOptions} {invoice : Invoice} {c : Candidate}
    (h : c ∈ candidates options invoice) :
    c.transfer.decimals = options.assetDecimals.getD defaultAssetDecimals := by
  obtain ⟨investor, rfl | rfl⟩ := candidates_cases h <;> rfl

/-- **Travel rule reports compose**, for invoices with distinct ids. -/
theorem travelRule_composes (invoices : List Invoice) (options : FatfBuildOptions)
    (hids : (invoices.map Invoice.onchainId).Nodup) : Composes invoices options := by
  have hrefs : ((buildFatfRecords invoices options).map FatfRecord.transactionRef).Nodup := by
    rw [buildFatfRecords_eq]
    exact recordsOf_refs (candidates_refs options hids)
  refine ⟨hrefs, fun higher h => ?_, fun cut hstart hend => ?_, fun more => ?_,
    fun record hrecord => ?_⟩
  · rw [buildFatfRecords_eq, buildFatfRecords_eq]
    exact recordsOf_threshold options h _
  · have hperm : (buildFatfRecords invoices options).Perm
        (buildFatfRecords invoices { options with rangeEnd := some cut } ++
          buildFatfRecords invoices { options with rangeStart := some (cut + 1) }) := by
      rw [buildFatfRecords_eq, buildFatfRecords_eq, buildFatfRecords_eq]
      exact (recordsOf_cut options hstart hend _).symm
    exact ⟨hperm, List.disjoint_of_nodup_append (hperm.nodup_iff.1 hrefs.of_map)⟩
  · exact List.flatMap_append
  · rw [buildFatfRecords_eq] at hrecord
    obtain ⟨c, hc, rfl⟩ := List.mem_map.1 hrecord
    obtain ⟨invoice, -, hinvoice⟩ := List.mem_flatMap.1 (List.mem_of_mem_filter hc)
    refine ⟨c.transfer.amount, rfl, ?_⟩
    rw [← candidates_decimals hinvoice]
    exact decimalToMinorUnits_minorUnitsToDecimal c.transfer.amount c.transfer.decimals

/-- A repaid invoice, with its two records. -/
def repaidInvoice : Invoice where
  id := 1
  onchainId := 42
  status := .repaid
  faceValue := 1000
  farmer := "GF"
  buyerId := "B"
  investor := some "GI"
  funder := none
  discountPercentage := none
  settledLedger := some 7
  settledAt := some 2000
  fundedAmount := some 900
  fundedAt := some 1000
  fundedTxHash := none
  repaidAmount := none
  assetCode := none
  createdAt := 1000
  updatedAt := 3000

theorem travelRule_composes_repaid :
    Composes [repaidInvoice] ⟨500, "USDC", some 7, some 0, some 5000⟩ :=
  travelRule_composes [repaidInvoice] _ (by decide)

example : (buildFatfRecords [repaidInvoice] ⟨950, "USDC", some 7, some 0, some 5000⟩).map
    FatfRecord.transactionRef = ["42:REPAYMENT"] := by
  decide +kernel

end Compliance

end Backend

end InvoiceFi
