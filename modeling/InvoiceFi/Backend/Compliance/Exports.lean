import InvoiceFi.Backend.Compliance
import InvoiceFi.Lib.Async
import InvoiceFi.Lib.Json

/-!
# The export service (`compliance/compliance.service.ts`, `compliance/principal.ts`)

The signed documents that the compliance service hands out, at once or as jobs that are processed
later, and the rules of who may export what. The entry points are programs over the actions they
await: the clock and the statements of the database, any of which may throw. `exportService` is
these programs called at any time, with `processJob` called for any job. A request comes with the
claims of a verified token.

`new Date(text)`, the signature of a document and the settings are parameters. The ids that the
database draws for new jobs are chosen outside; one that is taken violates the key of the table.
Logging and the controller, which picks one of the entry points, are left out. The statements are
those of a client that has the two models, invoices and jobs; `PrismaService` has no getter for the
jobs, and what becomes of the programs then is the subject of `Queued.lean`.
-/

namespace InvoiceFi

namespace Backend

namespace Compliance

/-! ## Principals (`compliance/principal.ts`, `compliance/compliance-access.guard.ts`) -/

/-- The claims of a verified token that are read: those that are texts, and the text of `sub`. -/
structure JwtPayload where
  sub : Option String
  walletAddress : Option String
  role : Option String
  deriving DecidableEq

/-- `Principal`. -/
structure Principal where
  userId : String
  walletAddress : String
  role : String
  deriving DecidableEq

/-- `ROLE_ADMIN`. -/
def roleAdmin : String := "admin"

/-- `isAdmin`. -/
def isAdmin (principal : Principal) : Bool := principal.role = roleAdmin

/-- `principalFromPayload`. No character outside ASCII has a letter of `admin` as its lower case. -/
def principalFromPayload (payload : JwtPayload) : Except String Principal :=
  let role := (payload.role.getD "").toLower
  let walletAddress := payload.walletAddress.getD ""
  let userId := payload.sub.getD ""
  if role = "" ∨ walletAddress = "" ∨ userId = "" then
    .error "Token missing required identity claims"
  else .ok ⟨userId, walletAddress, role⟩

/-- `resolvePrincipal`, for a token that is verified. -/
def resolvePrincipal (payload : JwtPayload) : Except Error Principal :=
  (principalFromPayload payload).mapError (.http 401)

/-! ## Amounts and dates (`compliance/amount.ts`) -/

/-- The white space that `trim` removes. -/
def isSpace (c : Char) : Bool :=
  c.toNat ∈ [0x9, 0xa, 0xb, 0xc, 0xd, 0x20, 0xa0, 0x1680, 0x2028, 0x2029, 0x202f, 0x205f, 0x3000,
    0xfeff] || (0x2000 ≤ c.toNat && c.toNat ≤ 0x200a)

/-- `text.trim()`. -/
def trim (text : List Char) : List Char :=
  ((text.dropWhile isSpace).reverse.dropWhile isSpace).reverse

/-- What follows the whole part of a decimal amount, `(?:\.(\d+))?$`: the digits of the fraction. -/
def fractionDigits : List Char → Option (List Char)
  | [] => some []
  | c :: digits =>
    if c = '.' ∧ digits ≠ [] ∧ digits.all Char.isDigit = true then some digits else none

/-- `decimalToMinorUnits`. -/
def decimalToMinorUnits (value : String) (decimals : Nat) : Except String Int :=
  let trimmed := trim value.toList
  let negative := trimmed.head? = some '-'
  let unsigned := if negative then trimmed.tail else trimmed
  let whole := unsigned.takeWhile Char.isDigit
  match fractionDigits (unsigned.dropWhile Char.isDigit) with
  | none => .error ("Invalid decimal amount: \"" ++ value ++ "\"")
  | some fraction =>
    if whole = [] then .error ("Invalid decimal amount: \"" ++ value ++ "\"")
    else if decimals < fraction.length then
      .error ("Amount \"" ++ value ++ "\" exceeds " ++ toString decimals ++
        " decimal places of precision")
    else
      let scaled := whole ++ fraction ++ List.replicate (decimals - fraction.length) '0'
      let magnitude := decimalValue (String.ofList scaled)
      .ok (if negative then -magnitude else magnitude)

example : decimalToMinorUnits " -12.5 " 3 = .ok (-12500) := by decide +kernel

/-- The calendar repeats after 400 years. -/
def calendarCycle : Nat := 146097 * 86400000

/-- `date.toISOString()`, for a time that may lie before the epoch. -/
def isoDate (date : Int) : String :=
  if 0 ≤ date then toISOString date.toNat
  else
    let cycles := (-date).toNat / calendarCycle + 1
    let shifted := (date + cycles * calendarCycle).toNat
    let year : Int := (calendarDate (shifted / 86400000)).1 - 400 * cycles
    -- only the year differs from that of the time some cycles later
    let rest := String.ofList ((toISOString shifted).toList.drop 4)
    if 0 ≤ year then padStart 4 (toString year) ++ rest
    else "-" ++ padStart 6 (toString year.natAbs) ++ rest

example : isoDate (-1) = "1969-12-31T23:59:59.999Z" := by decide +kernel

/-! ## Documents (`compliance/csv.ts`, `compliance/fatf.ts`, `compliance/investor-report.ts`) -/

/-- `value ?? null`. -/
def orNull (value : Option String) : Json := (value.map Json.str).getD .null

/-- The number `n`. -/
def number (n : Nat) : Json := .num (.ofNat n)

/-- A field that has a comma, a quote or a line break is put in quotes. -/
def quoteField (text : String) : String :=
  if text.toList.any fun c => c ∈ [',', '\x22', '\r', '\n'] then
    String.ofList ('\x22' ::
      (text.toList.flatMap (fun c => if c = '\x22' then [c, c] else [c]) ++ ['\x22']))
  else text

/-- `escapeField`. The fields of a row are texts, numbers or `null`. -/
def escapeField : Json → String
  | .null => ""
  | .str text => quoteField text
  | value => quoteField value.stringify

/-- The names and the values of the fields of a row, in their order. -/
abbrev Fields (ρ : Type) := List (String × (ρ → Json))

/-- `toCsv`. -/
def toCsv {ρ : Type} (fields : Fields ρ) (rows : List ρ) : String :=
  let header := ",".intercalate (fields.map fun field => quoteField field.1)
  let body :=
    rows.map fun row => ",".intercalate (fields.map fun field => escapeField (field.2 row))
  "\r\n".intercalate (header :: body)

/-- A row as an object. -/
def Fields.toJson {ρ : Type} (fields : Fields ρ) (row : ρ) : Json :=
  .obj (fields.map fun field => (field.1, field.2 row))

/-- `FATF_FIELDS`, which is also the order of the fields of a record. -/
def fatfFields : Fields FatfRecord :=
  [("transactionRef", fun r => .str r.transactionRef),
    ("invoiceOnchainId", fun r => .str r.invoiceOnchainId),
    ("transactionType", fun r => .str r.transactionType.name),
    ("transactionDate", fun r => .str r.transactionDate),
    ("ledgerSequence", fun r => (r.ledgerSequence.map number).getD .null),
    ("invoiceStatus", fun r => .str r.invoiceStatus),
    ("originatorAccount", fun r => .str r.originatorAccount),
    ("originatorName", fun r => orNull r.originatorName),
    ("beneficiaryAccount", fun r => .str r.beneficiaryAccount),
    ("beneficiaryName", fun r => orNull r.beneficiaryName),
    ("amountMinorUnits", fun r => .str r.amountMinorUnits),
    ("amountDecimal", fun r => .str r.amountDecimal),
    ("assetCode", fun r => .str r.assetCode),
    ("kycStatus", fun r => .str r.kycStatus)]

/-- `INVESTOR_POSITION_FIELDS`, which is also the order of the fields of a position. -/
def investorPositionFields : Fields InvestorPosition :=
  [("invoiceOnchainId", fun p => .str p.invoiceOnchainId),
    ("status", fun p => .str p.status),
    ("farmer", fun p => .str p.farmer),
    ("assetCode", fun p => .str p.assetCode),
    ("faceValueMinorUnits", fun p => .str p.faceValueMinorUnits),
    ("costBasisMinorUnits", fun p => .str p.costBasisMinorUnits),
    ("proceedsMinorUnits", fun p => orNull p.proceedsMinorUnits),
    ("realizedPnlMinorUnits", fun p => orNull p.realizedPnlMinorUnits),
    ("unrealizedValueMinorUnits", fun p => orNull p.unrealizedValueMinorUnits),
    ("fundedAt", fun p => .str p.fundedAt),
    ("settledAt", fun p => orNull p.settledAt)]

/-- The fields of `Money`. -/
def moneyFields : Fields Money :=
  [("minorUnits", fun m => .str m.minorUnits), ("decimal", fun m => .str m.decimal)]

/-- The fields of `InvestorReportSummary`. -/
def summaryFields : Fields InvestorReportSummary :=
  [("totalInvoices", fun s => number s.totalInvoices),
    ("fundedCount", fun s => number s.fundedCount),
    ("repaidCount", fun s => number s.repaidCount),
    ("defaultedCount", fun s => number s.defaultedCount),
    ("totalFaceValue", fun s => moneyFields.toJson s.totalFaceValue),
    ("totalCostBasis", fun s => moneyFields.toJson s.totalCostBasis),
    ("realizedProceeds", fun s => moneyFields.toJson s.realizedProceeds),
    ("realizedPnl", fun s => moneyFields.toJson s.realizedPnl),
    ("outstandingCostBasis", fun s => moneyFields.toJson s.outstandingCostBasis),
    ("defaultedCostBasis", fun s => moneyFields.toJson s.defaultedCostBasis),
    ("unrealizedValue", fun s => moneyFields.toJson s.unrealizedValue)]

/-- The fields of `InvestorReport`. -/
def reportFields : Fields InvestorReport :=
  [("investor", fun r => .str r.investor),
    ("assetCode", fun r => .str r.assetCode),
    ("positions", fun r => .arr (r.positions.map investorPositionFields.toJson)),
    ("summary", fun r => summaryFields.toJson r.summary)]

/-! ## The jobs and the service -/

/-- `ExportType`. -/
inductive ExportType where
  | transactions
  | investorReport
  deriving DecidableEq

/-- The name of a type in the documents. -/
def ExportType.name : ExportType → String
  | .transactions => "TRANSACTIONS"
  | .investorReport => "INVESTOR_REPORT"

/-- `ExportFormat`. -/
inductive ExportFormat where
  | json
  | csv
  deriving DecidableEq

/-- `ExportJobStatus`. -/
inductive ExportJobStatus where
  | pending
  | processing
  | completed
  | failed
  deriving DecidableEq

/-- The name of a status in messages. -/
def ExportJobStatus.name : ExportJobStatus → String
  | .pending => "PENDING"
  | .processing => "PROCESSING"
  | .completed => "COMPLETED"
  | .failed => "FAILED"

/-- `IntegrityProof`. -/
structure IntegrityProof where
  digestAlgorithm : String
  sha256 : String
  signatureAlgorithm : String
  signature : String
  signerPublicKey : String
  deriving DecidableEq

/-- `InlineExport`. -/
structure InlineExport where
  filename : String
  contentType : String
  content : String
  recordCount : Nat
  byteLength : Nat
  integrity : IntegrityProof
  deriving DecidableEq

/-- What a job is created with. Its status is `PENDING`. -/
structure NewExportJob where
  type : ExportType
  format : ExportFormat
  requestedBy : String
  requesterRole : String
  subject : Option String
  thresholdMinorUnits : Option String
  rangeStart : Option Int
  rangeEnd : Option Int
  deriving DecidableEq

/-- The model `ExportJob`. -/
structure ExportJob extends NewExportJob where
  id : String
  status : ExportJobStatus
  recordCount : Option Nat
  byteLength : Option Nat
  sha256 : Option String
  signature : Option String
  signerPublicKey : Option String
  content : Option String
  contentType : Option String
  error : Option String
  createdAt : Nat
  startedAt : Option Nat
  completedAt : Option Nat
  deriving DecidableEq

/-- A job as it is created. -/
def NewExportJob.create (data : NewExportJob) (id : String) (createdAt : Nat) : ExportJob where
  toNewExportJob := data
  id := id
  status := .pending
  recordCount := none
  byteLength := none
  sha256 := none
  signature := none
  signerPublicKey := none
  content := none
  contentType := none
  error := none
  createdAt := createdAt
  startedAt := none
  completedAt := none

/-- The updates of `processJob`. -/
inductive JobUpdate where
  | processing (startedAt : Nat)
  | completed (completedAt : Nat) (built : InlineExport)
  | failed (completedAt : Nat) (error : String)

/-- A job after an update. -/
def JobUpdate.apply (job : ExportJob) : JobUpdate → ExportJob
  | .processing startedAt => { job with
      status := .processing
      startedAt := some startedAt }
  | .completed completedAt built => { job with
      status := .completed
      completedAt := some completedAt
      recordCount := some built.recordCount
      byteLength := some built.byteLength
      contentType := some built.contentType
      content := some built.content
      sha256 := some built.integrity.sha256
      signature := some built.integrity.signature
      signerPublicKey := some built.integrity.signerPublicKey }
  | .failed completedAt error => { job with
      status := .failed
      completedAt := some completedAt
      error := some error }

/-- An update changes neither the id of a job nor what it was created with. -/
@[simp] theorem JobUpdate.apply_id (job : ExportJob) (u : JobUpdate) :
    (u.apply job).id = job.id := by
  cases u <;> rfl

@[simp] theorem JobUpdate.apply_data (job : ExportJob) (u : JobUpdate) :
    (u.apply job).toNewExportJob = job.toNewExportJob := by
  cases u <;> rfl

/-- The table of jobs, with its key. -/
structure JobTable where
  rows : List ExportJob
  ids : (rows.map ExportJob.id).Nodup

namespace JobTable

/-- `findUnique({ where: { id } })`. -/
def findUnique (t : JobTable) (id : String) : Option ExportJob :=
  t.rows.find? fun job => decide (job.id = id)

/-- `create({ data })`, with the id and the time that the database draws. -/
def create (t : JobTable) (data : NewExportJob) (id : String) (createdAt : Nat) :
    Except Error (ExportJob × JobTable) :=
  if hid : id ∈ t.rows.map ExportJob.id then .error .uniqueViolation
  else .ok (data.create id createdAt,
    { rows := t.rows ++ [data.create id createdAt]
      ids := by
        rw [List.map_append]
        exact List.nodup_append.2 ⟨t.ids, List.nodup_singleton _, fun a ha b hb => by
          rw [List.mem_singleton.1 hb]
          rintro rfl
          exact hid ha⟩ })

/-- `update({ where: { id }, data })`. -/
def update (t : JobTable) (id : String) (u : JobUpdate) : Except Error JobTable :=
  if id ∈ t.rows.map ExportJob.id then
    .ok {
      rows := t.rows.map fun job => if job.id = id then u.apply job else job
      ids := by
        rw [List.map_map]
        have hkey : (ExportJob.id ∘ fun job => if job.id = id then u.apply job else job) =
            ExportJob.id := by
          funext job
          by_cases h : job.id = id <;> simp [h]
        rw [hkey]
        exact t.ids }
  else .error (.database "Record to update not found.")

/-- A job is determined by its id. -/
theorem eq_of_id {t : JobTable} {job job' : ExportJob} (h : job ∈ t.rows) (h' : job' ∈ t.rows)
    (hid : job.id = job'.id) : job = job' :=
  List.inj_on_of_nodup_map t.ids h h' hid

theorem findUnique_eq_some {t : JobTable} {id : String} {job : ExportJob} :
    t.findUnique id = some job ↔ job ∈ t.rows ∧ job.id = id :=
  find?_key_eq_some t.ids

end JobTable

/-- The tables of the exports. -/
structure ExportStore where
  invoices : InvoiceTable
  jobs : JobTable

/-- The conditions of the queries of invoices: `concerns` for the transactions of a subject, and the
invoices of an investor. -/
inductive InvoiceQuery where
  | transactions (subject : Option String)
  | investor (subject : String)

/-- The invoice is one of those that are asked for. -/
def InvoiceQuery.asksFor : InvoiceQuery → Invoice → Bool
  | .transactions subject, invoice => concerns subject invoice
  | .investor subject, invoice => decide (invoice.investor = some subject)

/-- The actions that the programs await. -/
inductive Act where
  | now
  | findInvoices (query : InvoiceQuery)
  | createJob (data : NewExportJob)
  | findJob (id : String)
  | updateJob (id : String) (u : JobUpdate)

/-- The answers of the actions. -/
abbrev Act.Answer : Act → Type
  | .now => Nat
  | .findInvoices _ => List Invoice
  | .createJob _ => ExportJob
  | .findJob _ => Option ExportJob
  | .updateJob .. => Unit

/-- What the outside decides when it answers an action: the message of the error that the database
throws, if it throws one, the clock, and the id that is drawn for a new job. -/
structure Choice where
  thrown : Option String
  clock : Nat
  uuid : String

/-- A statement of the database, which may throw. -/
def statement {α : Type} (c : Choice) (run : ExportStore → Except Error (α × ExportStore))
    (s : ExportStore) : Except Error α × ExportStore :=
  match c.thrown with
  | some message => (.error (.database message), s)
  | none =>
    match run s with
    | .ok (a, s') => (.ok a, s')
    | .error e => (.error e, s)

/-- What an action answers and does. -/
def perform (_ : Nat) : (a : Act) → Choice → ExportStore → Except Error a.Answer × ExportStore
  | .now, c, s => (.ok c.clock, s)
  | .findInvoices query, c, s =>
    statement c (fun s => .ok (orderByOnchainId (s.invoices.rows.filter query.asksFor), s)) s
  | .createJob data, c, s =>
    statement c (fun s => do
      let (job, jobs) ← s.jobs.create data c.uuid c.clock
      .ok (job, { s with jobs := jobs })) s
  | .findJob id, c, s => statement c (fun s => .ok (s.jobs.findUnique id, s)) s
  | .updateJob id u, c, s =>
    statement c (fun s => do
      let jobs ← s.jobs.update id u
      .ok ((), { s with jobs := jobs })) s

/-- A program of the service. -/
abbrev Task (α : Type) := Async Act Act.Answer Error α

/-- Awaiting an action. -/
def act (a : Act) : Task a.Answer := Async.perform a

/-- A result that is computed without awaiting anything. -/
def ofExcept {α : Type} (x : Except Error α) : Task α := Async.ofExcept x

/-! ## Parameters and access scoping -/

/-- `RawExportQuery`. The field `until` is `untilDate`. -/
structure RawExportQuery where
  format : Option String
  threshold : Option String
  since : Option String
  untilDate : Option String
  subject : Option String

/-- `TransactionParams`. -/
structure TransactionParams extends Backend.TransactionParams where
  format : ExportFormat

/-- `InvestorParams`. -/
structure InvestorParams where
  format : ExportFormat
  subject : String

/-- `ComplianceConfig`, with the threshold that applies if a query names none. -/
structure ExportConfig extends ComplianceConfig where
  defaultThresholdDecimal : String

/-- `schemaVersion`. -/
def schemaVersion : String := "1.0"

/-- `ComplianceService`: the settings, the time of `new Date(text)`, if it is a date, and the
signature of a document. -/
structure ComplianceService where
  config : ExportConfig
  dateOf : String → Option Int
  sign : String → IntegrityProof

/-- `parseFormat`. No character outside ASCII has a letter of a format as its lower case. -/
def parseFormat (raw : Option String) : Except Error ExportFormat :=
  let value := (raw.getD "json").toLower
  if value = "json" then .ok .json
  else if value = "csv" then .ok .csv
  else .error (.http 400 ("Unsupported format: " ++ raw.getD "json"))

/-- `resolveTransactionSubject`. -/
def resolveTransactionSubject (principal : Principal) (requested : Option String) :
    Except Error (Option String) :=
  let requested := requested.filter fun subject => subject ≠ ""
  if isAdmin principal then .ok requested
  else if requested.all fun subject => subject = principal.walletAddress then
    .ok (some principal.walletAddress)
  else .error (.http 403 "You may only export your own transaction data")

/-- `resolveInvestorSubject`. -/
def resolveInvestorSubject (principal : Principal) (requested : Option String) :
    Except Error String :=
  let requested := requested.filter fun subject => subject ≠ ""
  if isAdmin principal then
    match requested with
    | none =>
      .error (.http 400 "subject (investor wallet) is required for admin investor reports")
    | some subject => .ok subject
  else if requested.all fun subject => subject = principal.walletAddress then
    .ok principal.walletAddress
  else .error (.http 403 "You may only export your own report")

/-- `parseInvestorParams`. -/
def parseInvestorParams (principal : Principal) (query : RawExportQuery) :
    Except Error InvestorParams := do
  let format ← parseFormat query.format
  let subject ← resolveInvestorSubject principal query.subject
  .ok ⟨format, subject⟩

/-- `JobSummary`. -/
structure JobSummary where
  id : String
  type : ExportType
  format : ExportFormat
  status : ExportJobStatus
  requestedBy : String
  subject : Option String
  recordCount : Option Nat
  byteLength : Option Nat
  contentType : Option String
  integrity : Option IntegrityProof
  error : Option String
  createdAt : String
  startedAt : Option String
  completedAt : Option String
  downloadUrl : Option String
  deriving DecidableEq

/-- `text` if it is not empty. -/
def nonempty (text : Option String) : Option String := text.filter fun text => text ≠ ""

/-- The proof of a completed job. -/
def jobIntegrity (job : ExportJob) : Option IntegrityProof := do
  if job.status ≠ .completed then none
  else
    let sha256 ← nonempty job.sha256
    let signature ← nonempty job.signature
    let signerPublicKey ← nonempty job.signerPublicKey
    some ⟨"sha256", sha256, "ed25519", signature, signerPublicKey⟩

/-- `toJobSummary`. -/
def toJobSummary (job : ExportJob) : JobSummary where
  id := job.id
  type := job.type
  format := job.format
  status := job.status
  requestedBy := job.requestedBy
  subject := job.subject
  recordCount := job.recordCount
  byteLength := job.byteLength
  contentType := job.contentType
  integrity := jobIntegrity job
  error := job.error
  createdAt := toISOString job.createdAt
  startedAt := job.startedAt.map toISOString
  completedAt := job.completedAt.map toISOString
  downloadUrl :=
    if job.status = .completed then
      some ("/compliance/exports/jobs/" ++ job.id ++ "/download")
    else none

/-- `filenameFor`. -/
def filenameFor (type : ExportType) (format : ExportFormat) (subject : Option String) :
    Task String := do
  let ext := if format = .csv then "csv" else "json"
  let base := if type = .transactions then "transactions-export" else "investor-report"
  let scope := "-" ++ (nonempty subject).getD "all"
  let now ← act .now
  let stamp := String.ofList ((toISOString now).toList.take 10)
  pure (base ++ scope ++ "-" ++ stamp ++ "." ++ ext)

/-- The content and the type of a document: the CSV text, or the JSON text with the time at which it
is generated. -/
def render (format : ExportFormat) (csv : String) (json : Nat → Json) : Task (String × String) :=
  if format = .csv then pure (csv, "text/csv")
  else do
    let now ← act .now
    pure ((json now).stringifyIndented, "application/json")

/-- What `loadAuthorizedJob` returns of the job that is found. -/
def authorizedJob (principal : Principal) (jobId : String) :
    Option ExportJob → Except Error ExportJob
  | none => .error (.http 404 ("Export job " ++ jobId ++ " not found"))
  | some job =>
    if isAdmin principal = false ∧ job.requestedBy ≠ principal.walletAddress then
      .error (.http 404 ("Export job " ++ jobId ++ " not found"))
    else .ok job

/-- `loadAuthorizedJob`. -/
def loadAuthorizedJob (principal : Principal) (jobId : String) : Task ExportJob := do
  let job ← act (.findJob jobId)
  ofExcept (authorizedJob principal jobId job)

/-! ### The entry points that need no settings -/

/-- `enqueueInvestorReportExport`. The job is processed by a call of its own. -/
def enqueueInvestorReportExport (principal : Principal) (query : RawExportQuery) :
    Task JobSummary := do
  let params ← ofExcept (parseInvestorParams principal query)
  let job ← act (.createJob
    { type := .investorReport
      format := params.format
      requestedBy := principal.walletAddress
      requesterRole := principal.role
      subject := some params.subject
      thresholdMinorUnits := none
      rangeStart := none
      rangeEnd := none })
  pure (toJobSummary job)

/-- `getJob`. -/
def getJob (principal : Principal) (jobId : String) : Task JobSummary := do
  let job ← loadAuthorizedJob principal jobId
  pure (toJobSummary job)

/-- What `downloadJob` returns of a job. -/
def jobDocument (jobId : String) (job : ExportJob) : Task InlineExport :=
  match job.status, nonempty job.content with
  | .completed, some content => do
    let filename ← filenameFor job.type job.format job.subject
    pure
      { filename := filename
        contentType := job.contentType.getD "application/octet-stream"
        content := content
        recordCount := job.recordCount.getD 0
        byteLength := job.byteLength.getD content.utf8ByteSize
        integrity :=
          { digestAlgorithm := "sha256"
            sha256 := job.sha256.getD ""
            signatureAlgorithm := "ed25519"
            signature := job.signature.getD ""
            signerPublicKey := job.signerPublicKey.getD "" } }
  | status, _ =>
    throw (.http 400 ("Export " ++ jobId ++ " is not ready (status: " ++ status.name ++ ")"))

/-- `downloadJob`. -/
def downloadJob (principal : Principal) (jobId : String) : Task InlineExport := do
  let job ← loadAuthorizedJob principal jobId
  jobDocument jobId job

namespace ComplianceService

variable (cs : ComplianceService)

/-- `parseDate`. -/
def parseDate (raw : Option String) (field : String) : Except Error (Option Int) :=
  match nonempty raw with
  | none => .ok none
  | some raw =>
    match cs.dateOf raw with
    | none => .error (.http 400 ("Invalid " ++ field ++ " date: " ++ raw))
    | some date => .ok (some date)

/-- `parseTransactionParams`. -/
def parseTransactionParams (principal : Principal) (query : RawExportQuery) :
    Except Error TransactionParams := do
  let format ← parseFormat query.format
  let subject ← resolveTransactionSubject principal query.subject
  let thresholdDecimal := query.threshold.getD cs.config.defaultThresholdDecimal
  let thresholdMinorUnits ←
    (decimalToMinorUnits thresholdDecimal cs.config.assetDecimals).mapError (.http 400)
  if thresholdMinorUnits < 0 then
    .error (.http 400 "threshold must not be negative")
  else
    let rangeStart ← cs.parseDate query.since "since"
    let rangeEnd ← cs.parseDate query.untilDate "until"
    .ok ⟨⟨subject, thresholdMinorUnits, rangeStart, rangeEnd⟩, format⟩

/-! ### Document builders -/

/-- The asset of the settings. -/
def asset : Json :=
  .obj [("code", .str cs.config.assetCode), ("decimals", number cs.config.assetDecimals)]

/-- `finalize`. -/
def finalize (content contentType : String) (recordCount : Nat) (filename : String) :
    InlineExport where
  filename := filename
  contentType := contentType
  content := content
  recordCount := recordCount
  byteLength := content.utf8ByteSize
  integrity := cs.sign content

/-- The records of a transactions export. -/
def fatfRecords (params : TransactionParams) (invoices : List Invoice) : List FatfRecord :=
  buildFatfRecords invoices
    { thresholdMinorUnits := params.thresholdMinorUnits
      defaultAssetCode := cs.config.assetCode
      assetDecimals := some cs.config.assetDecimals
      rangeStart := params.rangeStart
      rangeEnd := params.rangeEnd }

/-- The document of a transactions export. -/
def transactionsDocument (params : TransactionParams) (records : List FatfRecord) (now : Nat) :
    Json :=
  .obj
    [("schemaVersion", .str schemaVersion),
      ("exportType", .str ExportType.transactions.name),
      ("generatedAt", .str (toISOString now)),
      ("asset", cs.asset),
      ("threshold", .obj
        [("minorUnits", .str (toString params.thresholdMinorUnits)),
          ("decimal",
            .str (minorUnitsToDecimal params.thresholdMinorUnits cs.config.assetDecimals))]),
      ("scope", .obj
        [("subject", orNull params.subject),
          ("rangeStart", orNull (params.rangeStart.map isoDate)),
          ("rangeEnd", orNull (params.rangeEnd.map isoDate))]),
      ("recordCount", number records.length),
      ("records", .arr (records.map fatfFields.toJson))]

/-- `buildTransactionsExport`. -/
def buildTransactionsExport (params : TransactionParams) : Task InlineExport := do
  let invoices ← act (.findInvoices (.transactions params.subject))
  let records := cs.fatfRecords params invoices
  let (content, contentType) ←
    render params.format (toCsv fatfFields records) (cs.transactionsDocument params records)
  let filename ← filenameFor .transactions params.format params.subject
  pure (cs.finalize content contentType records.length filename)

/-- The report of an investor export. -/
def investorReport (params : InvestorParams) (invoices : List Invoice) : InvestorReport :=
  buildInvestorReport params.subject invoices
    { defaultAssetCode := cs.config.assetCode
      assetDecimals := some cs.config.assetDecimals }

/-- The document of an investor export. -/
def reportDocument (params : InvestorParams) (report : InvestorReport) (now : Nat) : Json :=
  .obj
    [("schemaVersion", .str schemaVersion),
      ("exportType", .str ExportType.investorReport.name),
      ("generatedAt", .str (toISOString now)),
      ("asset", cs.asset),
      ("scope", .obj [("subject", .str params.subject)]),
      ("report", reportFields.toJson report)]

/-- `buildInvestorExport`. -/
def buildInvestorExport (params : InvestorParams) : Task InlineExport := do
  let invoices ← act (.findInvoices (.investor params.subject))
  let report := cs.investorReport params invoices
  let (content, contentType) ←
    render params.format (toCsv investorPositionFields report.positions)
      (cs.reportDocument params report)
  let filename ← filenameFor .investorReport params.format (some params.subject)
  pure (cs.finalize content contentType report.positions.length filename)

/-! ### The other entry points -/

/-- `exportTransactionsInline`. -/
def exportTransactionsInline (principal : Principal) (query : RawExportQuery) :
    Task InlineExport := do
  let params ← ofExcept (cs.parseTransactionParams principal query)
  cs.buildTransactionsExport params

/-- `enqueueTransactionsExport`. The job is processed by a call of its own. -/
def enqueueTransactionsExport (principal : Principal) (query : RawExportQuery) :
    Task JobSummary := do
  let params ← ofExcept (cs.parseTransactionParams principal query)
  let job ← act (.createJob
    { type := .transactions
      format := params.format
      requestedBy := principal.walletAddress
      requesterRole := principal.role
      subject := params.subject
      thresholdMinorUnits :=
        some (minorUnitsToDecimal params.thresholdMinorUnits cs.config.assetDecimals)
      rangeStart := params.rangeStart
      rangeEnd := params.rangeEnd })
  pure (toJobSummary job)

/-- `exportInvestorReportInline`. -/
def exportInvestorReportInline (principal : Principal) (query : RawExportQuery) :
    Task InlineExport := do
  let params ← ofExcept (parseInvestorParams principal query)
  cs.buildInvestorExport params

/-- The threshold of a job. An amount that cannot be parsed throws an error with its message. -/
def jobThreshold (job : ExportJob) : Except Error Int :=
  match nonempty job.thresholdMinorUnits with
  | none => .ok 0
  | some threshold =>
    (decimalToMinorUnits threshold cs.config.assetDecimals).mapError .range

/-- The document of a job. -/
def buildJob (job : ExportJob) : Task InlineExport :=
  match job.type with
  | .transactions => do
    let thresholdMinorUnits ← ofExcept (cs.jobThreshold job)
    cs.buildTransactionsExport
      ⟨⟨job.subject, thresholdMinorUnits, job.rangeStart, job.rangeEnd⟩, job.format⟩
  | .investorReport => cs.buildInvestorExport ⟨job.format, job.subject.getD ""⟩

/-- The processing of a pending job. -/
def processPending (job : ExportJob) : Task Unit := do
  let startedAt ← act .now
  act (.updateJob job.id (.processing startedAt))
  tryCatch
    (do
      let built ← cs.buildJob job
      let completedAt ← act .now
      act (.updateJob job.id (.completed completedAt built)))
    fun err => do
      let completedAt ← act .now
      act (.updateJob job.id (.failed completedAt err.message))

/-- `processJob`. -/
def processJob (jobId : String) : Task Unit := do
  let job ← act (.findJob jobId)
  match job with
  | none => pure ()
  | some job => if job.status ≠ .pending then pure () else cs.processPending job

end ComplianceService

/-! ## The service -/

/-- What a request asks for. -/
inductive Operation where
  | exportTransactionsInline (query : RawExportQuery)
  | enqueueTransactionsExport (query : RawExportQuery)
  | exportInvestorReportInline (query : RawExportQuery)
  | enqueueInvestorReportExport (query : RawExportQuery)
  | getJob (jobId : String)
  | downloadJob (jobId : String)

/-- The calls: the requests, with the claims of their tokens, and the jobs that are processed. -/
inductive ExportCall where
  | request (payload : JwtPayload) (operation : Operation)
  | process (jobId : String)

/-- What the calls return. -/
inductive Response where
  | exported (document : InlineExport)
  | summary (job : JobSummary)
  | processed
  deriving DecidableEq

/-- The program of a request of a principal. -/
def ComplianceService.serve (cs : ComplianceService) (principal : Principal) :
    Operation → Task Response
  | .exportTransactionsInline query => do
    let document ← cs.exportTransactionsInline principal query
    pure (.exported document)
  | .enqueueTransactionsExport query => do
    let job ← cs.enqueueTransactionsExport principal query
    pure (.summary job)
  | .exportInvestorReportInline query => do
    let document ← cs.exportInvestorReportInline principal query
    pure (.exported document)
  | .enqueueInvestorReportExport query => do
    let job ← enqueueInvestorReportExport principal query
    pure (.summary job)
  | .getJob jobId => do
    let job ← getJob principal jobId
    pure (.summary job)
  | .downloadJob jobId => do
    let document ← downloadJob principal jobId
    pure (.exported document)

/-- The program of a call. -/
def ComplianceService.main (cs : ComplianceService) : ExportCall → Task Response
  | .request payload operation => do
    let principal ← ofExcept (resolvePrincipal payload)
    cs.serve principal operation
  | .process jobId => do
    cs.processJob jobId
    pure .processed

/-- The exports. From outside, the invoices may change in any way. -/
def exportService (cs : ComplianceService) :
    Service ExportStore ExportCall Act Act.Answer Error Response Choice InvoiceTable where
  main := cs.main
  perform := perform
  environ invoices s := { s with invoices := invoices }

end Compliance

end Backend

end InvoiceFi
