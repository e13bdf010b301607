import InvoiceFi.Backend.Compliance.Amounts
import InvoiceFi.Backend.Compliance.Scoping
import InvoiceFi.Backend.Prisma
import Mathlib.Data.Fintype.EquivFin

/-!
# Queued and inline exports agree (`compliance/compliance.service.ts`)

An `Export` is what a query asks for, before it is rendered. The inline path renders it at once. The
queued path stores the parameters of the query in the row of a job, where the threshold is a decimal
text and what is absent is `null`, and builds the export from the row when the job is processed.
Both paths render the same export, and reject the same queries, of a client that has the two models
(`ensures_pathsAgree`).

The client that the service is given is a `PrismaService`, which has no getter for `exportJob`. The
first statement of the queued path throws there, so that a query which the inline path answers is
not exported as a job: `queued_agrees_iff` says for which queries the paths agree, with whatever
getters are added.
-/

namespace InvoiceFi

namespace Backend

namespace Compliance

/-! ## Exports before they are rendered -/

theorem intercalate_ne_empty (sep : String) {first : String} (h : first ≠ "")
    (rest : List String) : sep.intercalate (first :: rest) ≠ "" := by
  intro heq
  have hlist := congrArg String.toList heq
  rw [String.toList_intercalate, List.map_cons] at hlist
  have hfirst : first.toList = [] := by
    cases rest with
    | nil => simpa using hlist
    | cons second rest =>
      rw [List.map_cons, List.intercalate_cons_cons, List.append_assoc] at hlist
      exact (List.append_eq_nil_iff.1 hlist).1
  exact h (String.toList_inj.1 hfirst)

/-- A CSV text has at least the name of its first column. -/
theorem toCsv_ne_empty {ρ : Type} {name : String} {value : ρ → Json} (fields : Fields ρ)
    (rows : List ρ) (h : quoteField name ≠ "") : toCsv ((name, value) :: fields) rows ≠ "" :=
  intercalate_ne_empty _ (intercalate_ne_empty _ h _) _

/-- An export: its format, its text as CSV, the fields of its JSON document before and after the
time at which it is generated, and the number of its records. -/
structure Export where
  type : ExportType
  format : ExportFormat
  subject : Option String
  csv : String
  before : List (String × Json)
  after : List (String × Json)
  recordCount : Nat
  csv_ne : csv ≠ ""

/-- The JSON document of an export. -/
def Export.json (e : Export) (now : Nat) : Json :=
  .obj (e.before ++ ("generatedAt", .str (toISOString now)) :: e.after)

/-- The document holds the export, as CSV or as JSON generated at some time. -/
structure Export.Renders (e : Export) (document : InlineExport) : Prop where
  recordCount : document.recordCount = e.recordCount
  byteLength : document.byteLength = document.content.utf8ByteSize
  content : (e.format = .csv ∧ document.contentType = "text/csv" ∧ document.content = e.csv) ∨
    (e.format = .json ∧ document.contentType = "application/json" ∧
      ∃ now, document.content = (e.json now).stringifyIndented)

theorem stringifyIndented_obj_ne_empty (fields : List (String × Json)) :
    (Json.obj fields).stringifyIndented ≠ "" := by
  intro heq
  have hlist := congrArg String.toList heq
  rw [Json.stringifyIndented, String.toList_ofList] at hlist
  cases fields with
  | nil =>
    rw [Json.indented] at hlist
    cases hlist
  | cons field fields =>
    rw [Json.indented] at hlist
    · cases hlist
    · nofun

/-- A document that holds an export is not empty. -/
theorem Export.Renders.content_ne {e : Export} {document : InlineExport} (h : e.Renders document) :
    document.content ≠ "" := by
  rcases h.content with ⟨-, -, hcontent⟩ | ⟨-, -, now, hcontent⟩
  · rw [hcontent]
    exact e.csv_ne
  · rw [hcontent]
    exact stringifyIndented_obj_ne_empty _

/-- Two texts that are one JSON object, except for the time at which they were generated. -/
def SameButTime (text text' : String) : Prop :=
  ∃ before after t t',
    text = (Json.obj (before ++ ("generatedAt", .str t) :: after)).stringifyIndented ∧
    text' = (Json.obj (before ++ ("generatedAt", .str t') :: after)).stringifyIndented

/-- Two documents with the same records: as CSV they have the same bytes, and as JSON they differ in
the time at which they were generated at most. -/
structure SameDocument (document document' : InlineExport) : Prop where
  recordCount : document'.recordCount = document.recordCount
  contentType : document'.contentType = document.contentType
  csv : document.contentType = "text/csv" → document'.content = document.content
  json : document.contentType ≠ "text/csv" → SameButTime document.content document'.content

theorem Export.Renders.same {e : Export} {document document' : InlineExport}
    (h : e.Renders document) (h' : e.Renders document') : SameDocument document document' := by
  rcases h.content with ⟨hformat, htype, hcontent⟩ | ⟨hformat, htype, now, hcontent⟩
  · rcases h'.content with ⟨-, htype', hcontent'⟩ | ⟨hformat', -⟩
    · exact ⟨h'.recordCount.trans h.recordCount.symm, htype'.trans htype.symm,
        fun _ => hcontent'.trans hcontent.symm, fun hne => absurd htype hne⟩
    · cases hformat.symm.trans hformat'
  · rcases h'.content with ⟨hformat', -⟩ | ⟨-, htype', now', hcontent'⟩
    · cases hformat.symm.trans hformat'
    · refine ⟨h'.recordCount.trans h.recordCount.symm, htype'.trans htype.symm, fun hcsv => ?_,
        fun _ => ⟨e.before, e.after, _, _, hcontent, hcontent'⟩⟩
      exact absurd (htype.symm.trans hcsv) (by decide)

namespace ComplianceService

variable (cs : ComplianceService)

/-- The transactions export of some invoices. -/
def transactionsExport (params : TransactionParams) (invoices : List Invoice) : Export where
  type := .transactions
  format := params.format
  subject := params.subject
  csv := toCsv fatfFields (cs.fatfRecords params invoices)
  before :=
    [("schemaVersion", .str schemaVersion), ("exportType", .str ExportType.transactions.name)]
  after :=
    [("asset", cs.asset),
      ("threshold", .obj
        [("minorUnits", .str (toString params.thresholdMinorUnits)),
          ("decimal",
            .str (minorUnitsToDecimal params.thresholdMinorUnits cs.config.assetDecimals))]),
      ("scope", .obj
        [("subject", orNull params.subject),
          ("rangeStart", orNull (params.rangeStart.map isoDate)),
          ("rangeEnd", orNull (params.rangeEnd.map isoDate))]),
      ("recordCount", number (cs.fatfRecords params invoices).length),
      ("records", .arr ((cs.fatfRecords params invoices).map fatfFields.toJson))]
  recordCount := (cs.fatfRecords params invoices).length
  csv_ne := toCsv_ne_empty _ _ (by decide +kernel)

/-- The investor export of some invoices. -/
def investorExport (params : InvestorParams) (invoices : List Invoice) : Export where
  type := .investorReport
  format := params.format
  subject := some params.subject
  csv := toCsv investorPositionFields (cs.investorReport params invoices).positions
  before :=
    [("schemaVersion", .str schemaVersion), ("exportType", .str ExportType.investorReport.name)]
  after :=
    [("asset", cs.asset),
      ("scope", .obj [("subject", .str params.subject)]),
      ("report", reportFields.toJson (cs.investorReport params invoices))]
  recordCount := (cs.investorReport params invoices).positions.length
  csv_ne := toCsv_ne_empty _ _ (by decide +kernel)

end ComplianceService

/-- The outside lets a statement pass. -/
def Passes (c : Choice) : Prop := c.thrown = none

/-- The outside lets a statement pass, and draws an id that no job has. -/
def Quiet (jobs : JobTable) (c : Choice) : Prop :=
  Passes c ∧ c.uuid ∉ jobs.rows.map ExportJob.id

theorem exists_quiet (jobs : JobTable) : ∃ c, Quiet jobs c := by
  obtain ⟨uuid, hfresh⟩ := Infinite.exists_notMem_finset (jobs.rows.map ExportJob.id).toFinset
  exact ⟨⟨none, 0, uuid⟩, rfl, mt List.mem_toFinset.2 hfresh⟩

/-! ## Building -/

/-- Rendering an export, and naming the file. -/
def ComplianceService.renderExport (cs : ComplianceService) (e : Export) : Task InlineExport := do
  let (content, contentType) ← render e.format e.csv e.json
  let filename ← filenameFor e.type e.format e.subject
  pure (cs.finalize content contentType e.recordCount filename)

theorem buildTransactionsExport_eq (cs : ComplianceService) (params : TransactionParams) :
    cs.buildTransactionsExport params =
      act (.findInvoices (.transactions params.subject)) >>= fun invoices =>
        cs.renderExport (cs.transactionsExport params invoices) := rfl

theorem buildInvestorExport_eq (cs : ComplianceService) (params : InvestorParams) :
    cs.buildInvestorExport params =
      act (.findInvoices (.investor params.subject)) >>= fun invoices =>
        cs.renderExport (cs.investorExport params invoices) := rfl

section
variable {k : Nat} {Ok : Choice → Prop} {s : ExportStore}

theorem ensures_filenameFor (type : ExportType) (format : ExportFormat) (subject : Option String) :
    (filenameFor type format subject).Ensures (perform k) Ok s fun r s' =>
      s' = s ∧ ∃ filename, r = .ok filename :=
  fun _ _ => ⟨rfl, _, rfl⟩

theorem ensures_render (format : ExportFormat) (csv : String) (json : Nat → Json) :
    (render format csv json).Ensures (perform k) Ok s fun r s' => s' = s ∧
      ∃ content contentType, r = .ok (content, contentType) ∧
        ((format = .csv ∧ contentType = "text/csv" ∧ content = csv) ∨
          (format = .json ∧ contentType = "application/json" ∧
            ∃ now, content = (json now).stringifyIndented)) := by
  cases format with
  | csv => exact ⟨rfl, _, _, rfl, .inl ⟨rfl, rfl, rfl⟩⟩
  | json => exact fun c _ => ⟨rfl, _, _, rfl, .inr ⟨rfl, rfl, c.clock, rfl⟩⟩

/-- Rendering an export gives a document that holds it. -/
theorem ensures_renderExport (cs : ComplianceService) (e : Export) :
    (cs.renderExport e).Ensures (perform k) Ok s fun r s' =>
      s' = s ∧ ∃ document, r = .ok document ∧ e.Renders document := by
  refine (ensures_render e.format e.csv e.json).bind ?_ ?_
  · rintro _ _ ⟨rfl, content, contentType, hrendered, hcontent⟩
    cases hrendered
    refine (ensures_filenameFor e.type e.format e.subject).bind ?_ ?_
    · rintro filename _ ⟨rfl, -⟩
      exact ⟨rfl, _, rfl, rfl, rfl, hcontent⟩
    · rintro _ _ ⟨-, _, h⟩
      cases h
  · rintro _ _ ⟨-, _, _, h, -⟩
    cases h

/-- A query that passes is followed by what is done with its answer. -/
theorem ensures_findInvoices (hOk : ∀ c, Ok c → Passes c) (query : InvoiceQuery)
    {α : Type} {f : List Invoice → Task α} {Q : Except Error α → ExportStore → Prop}
    (h : (f (orderByOnchainId (s.invoices.rows.filter query.asksFor))).Ensures (perform k) Ok s Q) :
    ((act (.findInvoices query)) >>= f).Ensures (perform k) Ok s Q := by
  intro c hc
  rw [perform_findInvoices (hOk c hc)]
  exact h

end

/-! ## The two paths -/

namespace ComplianceService

variable (cs : ComplianceService)

/-- The inline entry points. -/
def exportInline (principal : Principal) (query : RawExportQuery) :
    ExportType → Task InlineExport
  | .transactions => cs.exportTransactionsInline principal query
  | .investorReport => cs.exportInvestorReportInline principal query

/-- The entry points that create a job. -/
def enqueueExport (principal : Principal) (query : RawExportQuery) : ExportType → Task JobSummary
  | .transactions => cs.enqueueTransactionsExport principal query
  | .investorReport => enqueueInvestorReportExport principal query

/-- The queued path: a job is created and processed, and its state and its document are asked
for. -/
def exportQueued (principal : Principal) (query : RawExportQuery) (type : ExportType) :
    Task (JobSummary × InlineExport) := do
  let job ← cs.enqueueExport principal query type
  cs.processJob job.id
  let summary ← getJob principal job.id
  let document ← downloadJob principal job.id
  pure (summary, document)

/-- The export that a query asks for, or the error that it is rejected with. -/
def exportOf (principal : Principal) (query : RawExportQuery) (invoices : InvoiceTable) :
    ExportType → Except Error Export
  | .transactions => do
    let params ← cs.parseTransactionParams principal query
    pure (cs.transactionsExport params (orderByOnchainId
      (invoices.rows.filter (InvoiceQuery.transactions params.subject).asksFor)))
  | .investorReport => do
    let params ← parseInvestorParams principal query
    pure (cs.investorExport params (orderByOnchainId
      (invoices.rows.filter (InvoiceQuery.investor params.subject).asksFor)))

end ComplianceService

section
variable (cs : ComplianceService) {k : Nat} {Ok : Choice → Prop} {s : ExportStore}

theorem ensures_buildTransactionsExport (hOk : ∀ c, Ok c → Passes c)
    (params : TransactionParams) :
    (cs.buildTransactionsExport params).Ensures (perform k) Ok s fun r s' =>
      s' = s ∧ ∃ document, r = .ok document ∧ (cs.transactionsExport params (orderByOnchainId
        (s.invoices.rows.filter (InvoiceQuery.transactions params.subject).asksFor))).Renders
          document := by
  rw [buildTransactionsExport_eq]
  exact ensures_findInvoices hOk _ (ensures_renderExport cs _)

theorem ensures_buildInvestorExport (hOk : ∀ c, Ok c → Passes c) (params : InvestorParams) :
    (cs.buildInvestorExport params).Ensures (perform k) Ok s fun r s' =>
      s' = s ∧ ∃ document, r = .ok document ∧ (cs.investorExport params (orderByOnchainId
        (s.invoices.rows.filter (InvoiceQuery.investor params.subject).asksFor))).Renders
          document := by
  rw [buildInvestorExport_eq]
  exact ensures_findInvoices hOk _ (ensures_renderExport cs _)

/-- **The inline path** renders the export that the query asks for, or rejects it. -/
theorem ensures_exportInline (hOk : ∀ c, Ok c → Passes c) (principal : Principal)
    (query : RawExportQuery) (type : ExportType) :
    (cs.exportInline principal query type).Ensures (perform k) Ok s fun r _ =>
      match cs.exportOf principal query s.invoices type with
      | .error e => r = .error e
      | .ok e => ∃ document, r = .ok document ∧ e.Renders document := by
  cases type with
  | transactions =>
    rw [ComplianceService.exportInline, ComplianceService.exportTransactionsInline,
      ComplianceService.exportOf]
    cases cs.parseTransactionParams principal query with
    | error e => exact rfl
    | ok params => exact (ensures_buildTransactionsExport cs hOk params).mono fun r s' h => h.2
  | investorReport =>
    rw [ComplianceService.exportInline, ComplianceService.exportInvestorReportInline,
      ComplianceService.exportOf]
    cases parseInvestorParams principal query with
    | error e => exact rfl
    | ok params => exact (ensures_buildInvestorExport cs hOk params).mono fun r s' h => h.2

/-! ### The job -/

/-- The threshold of a job is read back as the amount that was stored. -/
theorem jobThreshold_eq {job : ExportJob} {threshold : Int}
    (h : job.thresholdMinorUnits =
      some (minorUnitsToDecimal threshold cs.config.assetDecimals)) :
    cs.jobThreshold job = .ok threshold := by
  unfold ComplianceService.jobThreshold
  rw [h, nonempty, Option.filter_some,
    if_pos (decide_eq_true (minorUnitsToDecimal_ne_empty threshold cs.config.assetDecimals))]
  dsimp only
  rw [decimalToMinorUnits_minorUnitsToDecimal]
  rfl

/-- The row of a job builds the export, as long as the invoices are the same. -/
def Builds (invoices : InvoiceTable) (data : NewExportJob) (e : Export) : Prop :=
  ∀ (k : Nat) (Ok : Choice → Prop) (s : ExportStore) (job : ExportJob),
    (∀ c, Ok c → Passes c) → s.invoices = invoices → job.toNewExportJob = data →
    (cs.buildJob job).Ensures (perform k) Ok s fun r s' =>
      s' = s ∧ ∃ document, r = .ok document ∧ e.Renders document

theorem builds_transactions {params : TransactionParams} {data : NewExportJob}
    (invoices : InvoiceTable) (htype : data.type = .transactions)
    (hformat : data.format = params.format) (hsubject : data.subject = params.subject)
    (hthreshold : data.thresholdMinorUnits =
      some (minorUnitsToDecimal params.thresholdMinorUnits cs.config.assetDecimals))
    (hstart : data.rangeStart = params.rangeStart) (hend : data.rangeEnd = params.rangeEnd) :
    Builds cs invoices data (cs.transactionsExport params (orderByOnchainId
      (invoices.rows.filter (InvoiceQuery.transactions params.subject).asksFor))) := by
  rintro k Ok s job hOk rfl rfl
  have hparams : (⟨⟨job.subject, params.thresholdMinorUnits, job.rangeStart, job.rangeEnd⟩,
      job.format⟩ : TransactionParams) = params := by
    rw [hsubject, hstart, hend, hformat]
  rw [ComplianceService.buildJob, htype]
  dsimp only
  rw [jobThreshold_eq cs hthreshold]
  change (cs.buildTransactionsExport _).Ensures _ _ _ _
  rw [hparams]
  exact ensures_buildTransactionsExport cs hOk params

theorem builds_investor {params : InvestorParams} {data : NewExportJob} (invoices : InvoiceTable)
    (htype : data.type = .investorReport) (hformat : data.format = params.format)
    (hsubject : data.subject = some params.subject) :
    Builds cs invoices data (cs.investorExport params (orderByOnchainId
      (invoices.rows.filter (InvoiceQuery.investor params.subject).asksFor))) := by
  rintro k Ok s job hOk rfl rfl
  rw [ComplianceService.buildJob, htype]
  dsimp only
  rw [hformat, hsubject, Option.getD_some]
  exact ensures_buildInvestorExport cs hOk params

/-- A job of the principal waits to be processed, and its row builds the export. -/
structure Enqueued (principal : Principal) (e : Export) (job : ExportJob) (s : ExportStore) :
    Prop where
  found : s.jobs.findUnique job.id = some job
  pending : job.status = .pending
  own : job.requestedBy = principal.walletAddress
  builds : Builds cs s.invoices job.toNewExportJob e

/-- Creating a job that builds the export. -/
theorem ensures_createJob {principal : Principal} {e : Export} {data : NewExportJob}
    (hown : data.requestedBy = principal.walletAddress) (hbuilds : Builds cs s.invoices data e) :
    (act (.createJob data) >>= fun job => (pure (toJobSummary job) : Task JobSummary)).Ensures
      (perform k) (Quiet s.jobs) s fun r s' =>
        ∃ job, r = .ok (toJobSummary job) ∧ Enqueued cs principal e job s' := by
  intro c hc
  obtain ⟨s', hperform, hinvoices, hrows⟩ := perform_createJob (k := k) hc.1 data hc.2
  rw [hperform]
  refine ⟨data.create c.uuid c.clock, rfl, ?_, rfl, hown, ?_⟩
  · refine JobTable.findUnique_eq_some.2 ⟨?_, rfl⟩
    rw [hrows]
    exact List.mem_append_right _ (.head _)
  · rw [hinvoices]
    exact hbuilds

/-- **The enqueueing** creates a job that builds the export that the query asks for, or rejects
the query. -/
theorem ensures_enqueueExport (principal : Principal) (query : RawExportQuery)
    (type : ExportType) :
    (cs.enqueueExport principal query type).Ensures (perform k) (Quiet s.jobs) s fun r s' =>
      match cs.exportOf principal query s.invoices type with
      | .error e => r = .error e
      | .ok e => ∃ job, r = .ok (toJobSummary job) ∧ Enqueued cs principal e job s' := by
  cases type with
  | transactions =>
    rw [ComplianceService.enqueueExport, ComplianceService.enqueueTransactionsExport,
      ComplianceService.exportOf]
    cases cs.parseTransactionParams principal query with
    | error e => exact rfl
    | ok params =>
      exact ensures_createJob cs rfl
        (builds_transactions cs s.invoices rfl rfl rfl rfl rfl rfl)
  | investorReport =>
    rw [ComplianceService.enqueueExport, enqueueInvestorReportExport, ComplianceService.exportOf]
    cases parseInvestorParams principal query with
    | error e => exact rfl
    | ok params => exact ensures_createJob cs rfl (builds_investor cs s.invoices rfl rfl rfl)

/-- The row of a job that has been updated. -/
theorem findUnique_updated {t t' : JobTable} {id : String} {u : JobUpdate} {job : ExportJob}
    (h : t.findUnique id = some job) (hrows : t'.rows = t.rows.map (updated id u)) :
    t'.findUnique id = some (u.apply job) := by
  obtain ⟨hjob, hid⟩ := JobTable.findUnique_eq_some.1 h
  refine JobTable.findUnique_eq_some.2 ⟨?_, (JobUpdate.apply_id job u).trans hid⟩
  rw [hrows]
  refine List.mem_map.2 ⟨job, hjob, ?_⟩
  rw [updated, if_pos hid]

theorem ensures_updateJob (hOk : ∀ c, Ok c → Passes c) {id : String} (u : JobUpdate)
    {job : ExportJob} (hfound : s.jobs.findUnique id = some job) :
    (act (.updateJob id u)).Ensures (perform k) Ok s fun r s' =>
      r = .ok () ∧ s'.invoices = s.invoices ∧ s'.jobs.findUnique id = some (u.apply job) := by
  intro c hc
  obtain ⟨hjob, hid⟩ := JobTable.findUnique_eq_some.1 hfound
  obtain ⟨s', hperform, hinvoices, hrows⟩ :=
    perform_updateJob (k := k) (hOk c hc) u (List.mem_map.2 ⟨job, hjob, hid⟩)
  rw [hperform]
  exact ⟨rfl, hinvoices, findUnique_updated hfound hrows⟩

/-- A job after it has been processed. -/
def processed (job : ExportJob) (startedAt completedAt : Nat) (document : InlineExport) :
    ExportJob :=
  (JobUpdate.completed completedAt document).apply ((JobUpdate.processing startedAt).apply job)

/-- **The processing** completes the job with a document that holds the export. -/
theorem ensures_processJob (hOk : ∀ c, Ok c → Passes c) {principal : Principal}
    {e : Export} {job : ExportJob} (h : Enqueued cs principal e job s) :
    (cs.processJob job.id).Ensures (perform k) Ok s fun r s' =>
      r = .ok () ∧ ∃ startedAt completedAt document, e.Renders document ∧
        s'.jobs.findUnique job.id = some (processed job startedAt completedAt document) := by
  intro c hc
  rw [perform_findJob (hOk c hc), h.found]
  change Async.Ensures _ _ (if job.status ≠ .pending then pure () else cs.processPending job) _ _
  rw [if_neg (not_not.2 h.pending)]
  intro c₁ _
  refine (ensures_updateJob hOk (.processing c₁.clock) h.found).bind ?_ fun _ _ h => nomatch h.1
  rintro _ s₁ ⟨-, hinvoices, hfound₁⟩
  refine Async.Ensures.tryCatch (Q := fun r s' => r = .ok () ∧
    ∃ startedAt completedAt document, e.Renders document ∧
      s'.jobs.findUnique job.id = some (processed job startedAt completedAt document))
    ?_ (fun _ _ => id) fun _ _ h => nomatch h.1
  refine (h.builds k Ok s₁ job hOk hinvoices rfl).bind ?_ ?_
  · rintro document _ ⟨rfl, document', hdocument, hrenders⟩
    cases hdocument
    intro c₂ _
    refine (ensures_updateJob hOk (.completed c₂.clock document) hfound₁).mono ?_
    rintro r s₂ ⟨hr, -, hfound₂⟩
    exact ⟨hr, c₁.clock, c₂.clock, document, hrenders, hfound₂⟩
  · rintro _ _ ⟨-, _, hdocument, -⟩
    cases hdocument

/-- A completed job of the principal is handed out. -/
theorem ensures_loadAuthorizedJob (hOk : ∀ c, Ok c → Passes c) {principal : Principal}
    {jobId : String} {job : ExportJob} (hfound : s.jobs.findUnique jobId = some job)
    (hown : job.requestedBy = principal.walletAddress) :
    (loadAuthorizedJob principal jobId).Ensures (perform k) Ok s fun r s' =>
      r = .ok job ∧ s' = s := by
  intro c hc
  rw [perform_findJob (hOk c hc), hfound]
  change Async.Ensures _ _ (ofExcept (authorizedJob principal jobId (some job))) _ _
  rw [authorizedJob, if_neg fun h => h.2 hown]
  exact ⟨rfl, rfl⟩

theorem ensures_getJob (hOk : ∀ c, Ok c → Passes c) {principal : Principal} {jobId : String}
    {job : ExportJob} (hfound : s.jobs.findUnique jobId = some job)
    (hown : job.requestedBy = principal.walletAddress) :
    (getJob principal jobId).Ensures (perform k) Ok s fun r s' =>
      r = .ok (toJobSummary job) ∧ s' = s := by
  refine (ensures_loadAuthorizedJob hOk hfound hown).bind ?_ fun _ _ h => nomatch h.1
  rintro _ _ ⟨hjob, rfl⟩
  cases hjob
  exact ⟨rfl, rfl⟩

/-- **The download** of a processed job is a document that holds the export. -/
theorem ensures_downloadJob (hOk : ∀ c, Ok c → Passes c) {principal : Principal}
    {e : Export} {job : ExportJob} (hown : job.requestedBy = principal.walletAddress)
    {startedAt completedAt : Nat} {document : InlineExport} (hrenders : e.Renders document)
    (hfound : s.jobs.findUnique job.id = some (processed job startedAt completedAt document)) :
    (downloadJob principal job.id).Ensures (perform k) Ok s fun r _ =>
      ∃ document', r = .ok document' ∧ e.Renders document' := by
  refine (ensures_loadAuthorizedJob hOk hfound hown).bind ?_ fun _ _ h => nomatch h.1
  rintro job' _ ⟨hjob', rfl⟩
  cases hjob'
  have hcontent : nonempty (some document.content) = some document.content := by
    rw [nonempty, Option.filter_some, if_pos (decide_eq_true hrenders.content_ne)]
  simp only [jobDocument, processed, JobUpdate.apply, hcontent]
  refine (ensures_filenameFor _ _ _).bind ?_ fun _ _ ⟨_, _, h⟩ => nomatch h
  intro filename _ _
  exact ⟨_, rfl, hrenders.recordCount, hrenders.byteLength, hrenders.content⟩

/-! ## The paths agree -/

/-- What the two paths answer: they reject a query with the same error, or the job is completed and
its document is the same. -/
inductive PathsAgree : Except Error InlineExport → Except Error (JobSummary × InlineExport) → Prop
  | rejected (e : Error) : PathsAgree (.error e) (.error e)
  | exported {inline queued : InlineExport} {summary : JobSummary}
      (hstatus : summary.status = .completed) (hsame : SameDocument inline queued) :
      PathsAgree (.ok inline) (.ok (summary, queued))

/-- Queued and inline exports agree, for one table of invoices, as long as no statement of the
database fails and the client has the models. -/
theorem ensures_pathsAgree (principal : Principal) (query : RawExportQuery) (type : ExportType)
    (invoices : InvoiceTable) (jobs jobs' : JobTable) (k k' : Nat) :
    (cs.exportInline principal query type).Ensures (perform k) Passes ⟨invoices, jobs⟩
      fun inline _ =>
        (cs.exportQueued principal query type).Ensures (perform k') (Quiet jobs')
          ⟨invoices, jobs'⟩ fun queued _ => PathsAgree inline queued := by
  refine (ensures_exportInline cs (fun _ => id) principal query type).mono ?_
  intro inline _ hinline
  refine (ensures_enqueueExport cs (s := ⟨invoices, jobs'⟩) principal query type).bind ?_ ?_
  · rintro job' s₁ henqueued
    cases hexport : cs.exportOf principal query invoices type with
    | error e =>
      rw [hexport] at henqueued
      cases henqueued
    | ok e =>
      rw [hexport] at henqueued hinline
      obtain ⟨document, rfl, hdocument⟩ := hinline
      obtain ⟨job, hjob, henqueued⟩ := henqueued
      cases hjob
      refine (ensures_processJob cs (fun _ h => h.1) henqueued).bind ?_ fun _ _ h => nomatch h.1
      rintro _ s₂ ⟨-, startedAt, completedAt, built, hbuilt, hfound⟩
      have hOk : ∀ c, Quiet jobs' c → Passes c := fun _ h => h.1
      refine (ensures_getJob hOk hfound henqueued.own).bind ?_ fun _ _ h => nomatch h.1
      rintro summary _ ⟨hsummary, rfl⟩
      cases hsummary
      refine (ensures_downloadJob hOk henqueued.own hbuilt hfound).bind ?_ ?_
      · rintro queued _ ⟨_, hqueued, hrenders⟩
        cases hqueued
        exact .exported rfl (hdocument.same hrenders)
      · rintro _ _ ⟨_, h, -⟩
        cases h
  · intro e s₁ henqueued
    cases hexport : cs.exportOf principal query invoices type with
    | error e' =>
      rw [hexport] at henqueued hinline
      cases henqueued
      rw [hinline]
      exact .rejected e
    | ok e' =>
      rw [hexport] at henqueued
      obtain ⟨job, hjob, -⟩ := henqueued
      cases hjob

end

/-! ## Through the getters of `PrismaService` -/

/-- The model and the method of the statement that an action is. -/
def Act.statement : Act → Option (PrismaModel × String)
  | .now => none
  | .findInvoices _ => some (.invoice, "findMany")
  | .createJob _ => some (.exportJob, "create")
  | .findJob _ => some (.exportJob, "findUnique")
  | .updateJob .. => some (.exportJob, "update")

/-- What an action answers and does through a `PrismaService` with the getters. -/
def performThrough (getters : List PrismaModel) (k : Nat) (a : Act) (c : Choice)
    (s : ExportStore) : Except Error a.Answer × ExportStore :=
  match a.statement with
  | none => perform k a c s
  | some (model, method) => through getters model method (perform k a c) s

/-- The paths agree on a query through a `PrismaService` with the getters: whatever the outside
decides in the inline path and in the queued one, as long as no statement of the database fails. -/
def QueuedAgrees (cs : ComplianceService) (getters : List PrismaModel) (principal : Principal)
    (query : RawExportQuery) (type : ExportType) (invoices : InvoiceTable) (jobs jobs' : JobTable)
    (k k' : Nat) : Prop :=
  (cs.exportInline principal query type).Ensures (performThrough getters k) Passes
    ⟨invoices, jobs⟩ fun inline _ =>
      (cs.exportQueued principal query type).Ensures (performThrough getters k') (Quiet jobs')
        ⟨invoices, jobs'⟩ fun queued _ => PathsAgree inline queued

/-- The format is one of the two, in any case. -/
def FormatAccepted (query : RawExportQuery) : Prop :=
  (query.format.getD "json").toLower = "json" ∨ (query.format.getD "json").toLower = "csv"

/-- The query names no other wallet than that of the principal. -/
def SubjectOwn (principal : Principal) (query : RawExportQuery) : Prop :=
  ∀ subject, nonempty query.subject = some subject → subject = principal.walletAddress

/-- A date is absent, or a text that is one. -/
def ComplianceService.DateAccepted (cs : ComplianceService) (raw : Option String) : Prop :=
  ∀ text, nonempty raw = some text → cs.dateOf text ≠ none

/-- The threshold is a decimal amount that is not negative, of at most the places of the asset. -/
def ComplianceService.ThresholdAccepted (cs : ComplianceService) (query : RawExportQuery) : Prop :=
  ∃ amount, 0 ≤ amount ∧ decimalToMinorUnits
    (query.threshold.getD cs.config.defaultThresholdDecimal) cs.config.assetDecimals = .ok amount

/-- The query is one that is exported. -/
def ComplianceService.Accepts (cs : ComplianceService) (principal : Principal)
    (query : RawExportQuery) : ExportType → Prop
  | .transactions =>
    FormatAccepted query ∧ (isAdmin principal = true ∨ SubjectOwn principal query) ∧
      cs.ThresholdAccepted query ∧ cs.DateAccepted query.since ∧ cs.DateAccepted query.untilDate
  | .investorReport =>
    FormatAccepted query ∧ if isAdmin principal = true then nonempty query.subject ≠ none
      else SubjectOwn principal query

section
variable {cs : ComplianceService} {principal : Principal} {query : RawExportQuery}
  {type : ExportType} {invoices : InvoiceTable} {jobs jobs' : JobTable} {k k' : Nat}
  {getters : List PrismaModel}

theorem formatAccepted_iff :
    FormatAccepted query ↔ ∃ format, parseFormat query.format = .ok format := by
  unfold FormatAccepted parseFormat
  dsimp only
  split
  · next h => exact iff_of_true (.inl h) ⟨_, rfl⟩
  · next hjson =>
    split
    · next h => exact iff_of_true (.inr h) ⟨_, rfl⟩
    · next hcsv =>
      refine iff_of_false (fun h => h.elim hjson hcsv) ?_
      rintro ⟨format, h⟩
      cases h

/-- Of a wallet that is not an admin, the own subject is accepted. -/
theorem subjectOwn_iff :
    SubjectOwn principal query ↔
      ((query.subject.filter fun subject => subject ≠ "").all
        fun subject => subject = principal.walletAddress) = true := by
  unfold SubjectOwn nonempty
  cases query.subject.filter fun subject => subject ≠ "" with
  | none => simp
  | some subject => simp [eq_comm]

theorem transactionSubjectAccepted_iff :
    (isAdmin principal = true ∨ SubjectOwn principal query) ↔
      ∃ subject, resolveTransactionSubject principal query.subject = .ok subject := by
  unfold resolveTransactionSubject
  rw [subjectOwn_iff]
  dsimp only
  split
  · next h => exact iff_of_true (.inl h) ⟨_, rfl⟩
  · next hadmin =>
    split
    · next h => exact iff_of_true (.inr h) ⟨_, rfl⟩
    · next hown =>
      refine iff_of_false (fun h => h.elim hadmin hown) ?_
      rintro ⟨subject, h⟩
      cases h

theorem investorSubjectAccepted_iff :
    (if isAdmin principal = true then nonempty query.subject ≠ none
      else SubjectOwn principal query) ↔
      ∃ subject, resolveInvestorSubject principal query.subject = .ok subject := by
  unfold resolveInvestorSubject
  rw [subjectOwn_iff]
  dsimp only
  split
  · next hadmin =>
    unfold nonempty
    cases query.subject.filter fun subject => subject ≠ "" with
    | none =>
      refine iff_of_false (fun h => h rfl) ?_
      rintro ⟨subject, h⟩
      cases h
    | some subject => exact iff_of_true (Option.some_ne_none subject) ⟨_, rfl⟩
  · next hadmin =>
    split
    · next h => exact iff_of_true h ⟨_, rfl⟩
    · next hown =>
      refine iff_of_false hown ?_
      rintro ⟨subject, h⟩
      cases h

theorem dateAccepted_iff (raw : Option String) (field : String) :
    cs.DateAccepted raw ↔ ∃ date, cs.parseDate raw field = .ok date := by
  unfold ComplianceService.DateAccepted ComplianceService.parseDate
  cases nonempty raw with
  | none => exact iff_of_true nofun ⟨_, rfl⟩
  | some text =>
    dsimp only
    cases hdate : cs.dateOf text with
    | none =>
      refine iff_of_false (fun h => h text rfl hdate) ?_
      rintro ⟨date, h⟩
      cases h
    | some date =>
      refine iff_of_true ?_ ⟨_, rfl⟩
      rintro text' ⟨⟩
      rw [hdate]
      exact Option.some_ne_none date

/-- The queries that are exported are those that ask for an export. -/
theorem accepts_iff (invoices : InvoiceTable) :
    cs.Accepts principal query type ↔
      ∃ e, cs.exportOf principal query invoices type = .ok e := by
  cases type with
  | transactions =>
    simp only [ComplianceService.Accepts, ComplianceService.exportOf,
      ComplianceService.parseTransactionParams, formatAccepted_iff,
      transactionSubjectAccepted_iff, dateAccepted_iff query.since "since",
      dateAccepted_iff query.untilDate "until", ComplianceService.ThresholdAccepted, bind_eq_ok,
      mapError_eq_ok, pure_eq_ok]
    constructor
    · rintro ⟨⟨format, hformat⟩, ⟨subject, hsubject⟩, ⟨amount, hnonneg, hamount⟩, ⟨since, hsince⟩,
        ⟨untilDate, huntil⟩⟩
      refine ⟨_, ⟨⟨subject, amount, since, untilDate⟩, format⟩,
        ⟨format, hformat, subject, hsubject, amount, hamount, ?_⟩, rfl⟩
      rw [if_neg (not_lt.2 hnonneg), hsince, huntil]
      rfl
    · rintro ⟨e, params, ⟨format, hformat, subject, hsubject, amount, hamount, h⟩, -⟩
      split at h
      · cases h
      · next hnonneg =>
        simp only [bind_eq_ok] at h
        obtain ⟨since, hsince, untilDate, huntil, -⟩ := h
        exact ⟨⟨format, hformat⟩, ⟨subject, hsubject⟩, ⟨amount, not_lt.1 hnonneg, hamount⟩,
          ⟨since, hsince⟩, ⟨untilDate, huntil⟩⟩
  | investorReport =>
    simp only [ComplianceService.Accepts, ComplianceService.exportOf, parseInvestorParams,
      formatAccepted_iff, investorSubjectAccepted_iff, bind_eq_ok, pure_eq_ok]
    constructor
    · rintro ⟨⟨format, hformat⟩, ⟨subject, hsubject⟩⟩
      exact ⟨_, _, ⟨format, hformat, subject, hsubject, rfl⟩, rfl⟩
    · rintro ⟨e, params, ⟨format, hformat, subject, hsubject, -⟩, -⟩
      exact ⟨⟨format, hformat⟩, ⟨subject, hsubject⟩⟩

/-- The actions of the inline path. -/
def Inline : Act → Prop
  | .now | .findInvoices _ => True
  | _ => False

theorem within_exportInline : Within Inline (cs.exportInline principal query type) := by
  cases type with
  | transactions =>
    exact within_ofExcept fun params _ => within_buildTransactionsExport trivial trivial
  | investorReport =>
    exact within_ofExcept fun params _ => within_buildInvestorExport trivial trivial

/-- A client that has the model of an action performs it. -/
theorem performThrough_of_mem {a : Act}
    (ha : ∀ model method, a.statement = some (model, method) → model ∈ getters) (c : Choice)
    (s : ExportStore) : performThrough getters k a c s = perform k a c s := by
  unfold performThrough
  split
  · rfl
  · next model method hstatement => exact through_of_mem (ha model method hstatement)

theorem performThrough_inline (hinvoice : .invoice ∈ getters) {a : Act} (ha : Inline a) (c : Choice)
    (s : ExportStore) : performThrough getters k a c s = perform k a c s := by
  refine performThrough_of_mem (fun model method hstatement => ?_) c s
  cases a with
  | now => cases hstatement
  | findInvoices => exact (Prod.mk.inj (Option.some.inj hstatement)).1 ▸ hinvoice
  | createJob | findJob | updateJob => exact ha.elim

/-- With both models the paths agree. -/
theorem agrees_of_getters (hinvoice : .invoice ∈ getters) (hjob : .exportJob ∈ getters) :
    QueuedAgrees cs getters principal query type invoices jobs jobs' k k' := by
  have hperform : performThrough getters = perform := by
    funext k a c s
    refine performThrough_of_mem (fun model method hstatement => ?_) c s
    cases a with
    | now => cases hstatement
    | findInvoices => exact (Prod.mk.inj (Option.some.inj hstatement)).1 ▸ hinvoice
    | createJob | findJob | updateJob =>
      exact (Prod.mk.inj (Option.some.inj hstatement)).1 ▸ hjob
  rw [QueuedAgrees, hperform]
  exact ensures_pathsAgree cs principal query type invoices jobs jobs' k k'

/-- A query that asks for no export is rejected at once by both paths. -/
theorem rejected_of_exportOf {e : Error}
    (h : cs.exportOf principal query invoices type = .error e) :
    cs.exportInline principal query type = .done (.error e) ∧
      cs.exportQueued principal query type = .done (.error e) := by
  cases type with
  | transactions =>
    rw [ComplianceService.exportOf] at h
    rw [ComplianceService.exportInline, ComplianceService.exportTransactionsInline,
      ComplianceService.exportQueued, ComplianceService.enqueueExport,
      ComplianceService.enqueueTransactionsExport]
    cases hparams : cs.parseTransactionParams principal query with
    | error e' =>
      rw [hparams] at h
      cases h
      exact ⟨rfl, rfl⟩
    | ok params =>
      rw [hparams] at h
      cases h
  | investorReport =>
    rw [ComplianceService.exportOf] at h
    rw [ComplianceService.exportInline, ComplianceService.exportInvestorReportInline,
      ComplianceService.exportQueued, ComplianceService.enqueueExport, enqueueInvestorReportExport]
    cases hparams : parseInvestorParams principal query with
    | error e' =>
      rw [hparams] at h
      cases h
      exact ⟨rfl, rfl⟩
    | ok params =>
      rw [hparams] at h
      cases h

/-- Whatever the client, the paths agree on a query that is rejected. -/
theorem agrees_of_rejected (h : ¬ cs.Accepts principal query type) :
    QueuedAgrees cs getters principal query type invoices jobs jobs' k k' := by
  cases hexport : cs.exportOf principal query invoices type with
  | ok e => exact absurd ((accepts_iff invoices).2 ⟨e, hexport⟩) h
  | error e =>
    obtain ⟨hinline, hqueued⟩ := rejected_of_exportOf hexport
    rw [QueuedAgrees, hinline, hqueued]
    exact .rejected e

/-- Without the model of the jobs, a query that asks for an export throws when its job is
created. -/
theorem queued_throws (hjob : .exportJob ∉ getters) (Ok : Choice → Prop) (s : ExportStore)
    {e : Export} (h : cs.exportOf principal query invoices type = .ok e) :
    (cs.exportQueued principal query type).Ensures (performThrough getters k) Ok s fun r _ =>
      r = .error (readOfUndefined "create") := by
  have hcreate : ∀ (data : NewExportJob) (c : Choice) (s : ExportStore),
      performThrough getters k (.createJob data) c s =
        (.error (readOfUndefined "create"), s) := fun data c s => through_of_not_mem hjob
  cases type with
  | transactions =>
    rw [ComplianceService.exportOf] at h
    rw [ComplianceService.exportQueued, ComplianceService.enqueueExport,
      ComplianceService.enqueueTransactionsExport]
    cases hparams : cs.parseTransactionParams principal query with
    | error e' =>
      rw [hparams] at h
      cases h
    | ok params =>
      intro c _
      rw [hcreate]
      exact rfl
  | investorReport =>
    rw [ComplianceService.exportOf] at h
    rw [ComplianceService.exportQueued, ComplianceService.enqueueExport,
      enqueueInvestorReportExport]
    cases hparams : parseInvestorParams principal query with
    | error e' =>
      rw [hparams] at h
      cases h
    | ok params =>
      intro c _
      rw [hcreate]
      exact rfl

/-- Without the model of the jobs, the paths disagree on every query that is accepted: the inline
path hands out a document, and the queued one throws. -/
theorem not_agrees (hinvoice : .invoice ∈ getters) (hjob : .exportJob ∉ getters)
    (h : cs.Accepts principal query type) :
    ¬ QueuedAgrees cs getters principal query type invoices jobs jobs' k k' := by
  intro hagrees
  obtain ⟨e, hexport⟩ := (accepts_iff invoices).1 h
  have hinline := (ensures_exportInline cs (k := k) (s := ⟨invoices, jobs⟩) (fun _ => id) principal
    query type).congr within_exportInline fun a ha c s =>
      performThrough_inline (k := k) hinvoice ha c s
  rw [hexport] at hinline
  obtain ⟨c, hquiet⟩ := exists_quiet jobs'
  obtain ⟨inline, _, ⟨document, rfl, -⟩, hqueued⟩ := (hinline.and hagrees).exists hquiet.1
  obtain ⟨queued, _, hthrown, hpaths⟩ := ((queued_throws (k := k') hjob (Quiet jobs')
    ⟨invoices, jobs'⟩ hexport).and hqueued).exists hquiet
  rw [hthrown] at hpaths
  cases hpaths

end

/-- **When queued and inline exports agree.** For every principal, query, type and tables, and
through a `PrismaService` with whatever further getters: the two paths reject the query with one
error, or the job is completed and its document is the same, exactly if there is a getter for the
jobs, or the query is one that is rejected. -/
theorem queued_agrees_iff (cs : ComplianceService) (further : List PrismaModel)
    (principal : Principal) (query : RawExportQuery) (type : ExportType) (invoices : InvoiceTable)
    (jobs jobs' : JobTable) (k k' : Nat) :
    QueuedAgrees cs (PrismaService.getters ++ further) principal query type invoices jobs jobs' k
        k' ↔
      .exportJob ∈ further ∨ ¬ cs.Accepts principal query type := by
  have hinvoice : .invoice ∈ PrismaService.getters ++ further :=
    List.mem_append_left _ (by decide)
  have hjob : .exportJob ∈ PrismaService.getters ++ further ↔ .exportJob ∈ further := by
    rw [List.mem_append]
    exact or_iff_right (by decide)
  constructor
  · intro hagrees
    by_contra hneither
    rw [not_or, not_not] at hneither
    exact not_agrees hinvoice (mt hjob.1 hneither.1) hneither.2 hagrees
  · rintro (hgetter | hrejected)
    · exact agrees_of_getters hinvoice (hjob.2 hgetter)
    · exact agrees_of_rejected hrejected

/-- A service with the default settings. -/
def plainCompliance : ComplianceService where
  config := ⟨⟨"USDC", 7⟩, "1000"⟩
  dateOf _ := none
  sign _ := ⟨"sha256", "", "ed25519", "", ""⟩

/-- An investor asks for its own transactions, without any parameter: the queued path throws. -/
theorem queued_disagrees :
    ¬ QueuedAgrees plainCompliance PrismaService.getters ⟨"u1", "GA", "investor"⟩
      ⟨none, none, none, none, none⟩ .transactions ⟨[], List.nodup_nil, List.nodup_nil⟩
      ⟨[], List.nodup_nil⟩ ⟨[], List.nodup_nil⟩ 0 0 := by
  refine not_agrees (by decide) (by decide) ⟨.inl (by decide +kernel), .inr nofun,
    ⟨10000000000, by decide, by decide +kernel⟩, nofun, nofun⟩

end Compliance

end Backend

end InvoiceFi
