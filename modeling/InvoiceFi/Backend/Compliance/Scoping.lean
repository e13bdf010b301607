import InvoiceFi.Backend.Compliance.Exports
import InvoiceFi.Lib.Coupling
import InvoiceFi.Lib.Fallible

/-!
# What the exports read and write for a wallet

The programs of the exports (`Exports.lean`) by the actions they await. One who is not an admin asks
for the own invoices only, and the jobs it creates are for itself (`Exports`); a job asks for the
invoices of its subject (`Processes`). So the programs of a wallet, and the processing of its jobs,
are `Discreet`: they do not tell a job of somebody else from no job at all. What others do is
foreign (`ForeignAct`).

A step of a program of the wallet gets the same answer from two databases that agree for the wallet,
and they agree afterwards (`perform_own`); a step of somebody else changes nothing that the wallet
can see (`perform_foreign`).
-/

namespace InvoiceFi

namespace Backend

namespace Compliance

variable {cs : ComplianceService} {w : String} {principal : Principal}

/-! ## What the programs await -/

/-- The actions of the exports of a principal: the queries and the jobs of one who is not an admin
are for the principal. -/
def Exports (principal : Principal) : Act → Prop
  | .now => True
  | .findInvoices query => isAdmin principal = false → ∀ r, query.asksFor r = true →
      r.farmer = principal.walletAddress ∨ r.investor = some principal.walletAddress
  | .createJob data => data.requestedBy = principal.walletAddress ∧
      (isAdmin principal = false → data.subject = some principal.walletAddress)
  | .findJob _ | .updateJob .. => False

/-- The actions of a principal who looks at a job. -/
def Looks : Act → Prop
  | .now | .findJob _ => True
  | _ => False

/-- The actions of the processing of a job: the queries are for its subject. -/
def Processes (job : ExportJob) : Act → Prop
  | .now => True
  | .findInvoices query => ∀ subject, subject ≠ "" → job.subject = some subject →
      ∀ r, query.asksFor r = true → r.farmer = subject ∨ r.investor = some subject
  | .updateJob id _ => id = job.id
  | .createJob _ | .findJob _ => False

/-- The query of the transactions of a wallet asks for its invoices only. -/
theorem transactions_asksFor {subject : String} (hne : subject ≠ "") {r : Invoice}
    (h : (InvoiceQuery.transactions (some subject)).asksFor r = true) :
    r.farmer = subject ∨ r.investor = some subject := by
  have h := of_decide_eq_true h
  tauto

/-- So does the query of its investments. -/
theorem investor_asksFor {subject : String} {r : Invoice}
    (h : (InvoiceQuery.investor subject).asksFor r = true) :
    r.farmer = subject ∨ r.investor = some subject :=
  .inr (of_decide_eq_true h)

/-- One who is not an admin exports the own transactions. -/
theorem resolveTransactionSubject_eq_ok {requested subject : Option String}
    (hadmin : isAdmin principal = false)
    (h : resolveTransactionSubject principal requested = .ok subject) :
    subject = some principal.walletAddress := by
  simp only [resolveTransactionSubject, hadmin] at h
  split at h
  · contradiction
  · split at h
    · exact (Except.ok.inj h).symm
    · cases h

/-- And the own investments. -/
theorem resolveInvestorSubject_eq_ok {requested : Option String} {subject : String}
    (hadmin : isAdmin principal = false)
    (h : resolveInvestorSubject principal requested = .ok subject) :
    subject = principal.walletAddress := by
  simp only [resolveInvestorSubject, hadmin] at h
  split at h
  · contradiction
  · split at h
    · exact (Except.ok.inj h).symm
    · cases h

/-- The parameters of an accepted query of transactions are about the principal. -/
theorem parseTransactionParams_eq_ok {query : RawExportQuery} {params : TransactionParams}
    (hadmin : isAdmin principal = false)
    (h : cs.parseTransactionParams principal query = .ok params) :
    params.subject = some principal.walletAddress := by
  simp only [ComplianceService.parseTransactionParams, bind_eq_ok, mapError_eq_ok] at h
  obtain ⟨format, -, subject, hsubject, threshold, -, h⟩ := h
  split at h
  · cases h
  · simp only [bind_eq_ok] at h
    obtain ⟨rangeStart, -, rangeEnd, -, h⟩ := h
    cases h
    exact resolveTransactionSubject_eq_ok hadmin hsubject

/-- So are those of a query of investments. -/
theorem parseInvestorParams_eq_ok {query : RawExportQuery} {params : InvestorParams}
    (hadmin : isAdmin principal = false)
    (h : parseInvestorParams principal query = .ok params) :
    params.subject = principal.walletAddress := by
  simp only [parseInvestorParams, bind_eq_ok] at h
  obtain ⟨format, -, subject, hsubject, h⟩ := h
  cases h
  exact resolveInvestorSubject_eq_ok hadmin hsubject

/-- The program awaits no other actions. -/
abbrev Within {α : Type} (acts : Act → Prop) (p : Task α) : Prop := p.Only acts fun _ => True

variable {α β : Type} {acts acts' : Act → Prop}

/-- An action of the set. -/
theorem within_act {a : Act} (h : acts a) : Within acts (act a) := ⟨h, fun _ => trivial⟩

/-- A program followed by another one. -/
theorem within_bind {p : Task α} {f : α → Task β} (hp : Within acts p)
    (hf : ∀ a, Within acts (f a)) : Within acts (p >>= f) :=
  Async.Only.bind hp (fun a _ => hf a) fun _ _ => trivial

/-- A program with a handler of its errors. -/
theorem within_tryCatch {p : Task α} {h : Error → Task α} (hp : Within acts p)
    (hh : ∀ e, Within acts (h e)) : Within acts (tryCatch p h) :=
  Async.Only.tryCatch hp (fun _ _ => trivial) fun e _ => hh e

/-- What follows a computation needs to be looked at for its result only. -/
theorem within_ofExcept {x : Except Error α} {f : α → Task β}
    (hf : ∀ a, x = .ok a → Within acts (f a)) : Within acts (ofExcept x >>= f) := by
  cases x with
  | ok a => exact hf a rfl
  | error e => trivial

/-- A larger set of actions. -/
theorem Within.mono {p : Task α} (h : Within acts p) (ha : ∀ a, acts a → acts' a) :
    Within acts' p :=
  Async.Only.mono h ha fun _ h => h

/-- The name of a file takes the time only. -/
theorem within_filenameFor (hnow : acts .now) (type : ExportType) (format : ExportFormat)
    (subject : Option String) : Within acts (filenameFor type format subject) :=
  within_bind (within_act hnow) fun _ => trivial

/-- So does the text of a document. -/
theorem within_render (hnow : acts .now) (format : ExportFormat) (csv : String)
    (json : Nat → Json) : Within acts (render format csv json) := by
  unfold render
  split
  · trivial
  · exact within_bind (within_act hnow) fun now => trivial

/-- A document of transactions queries the invoices of its subject. -/
theorem within_buildTransactionsExport {params : TransactionParams} (hnow : acts .now)
    (hfind : acts (.findInvoices (.transactions params.subject))) :
    Within acts (cs.buildTransactionsExport params) := by
  refine within_bind (within_act hfind) fun invoices => within_bind (within_render hnow _ _ _) ?_
  rintro ⟨content, contentType⟩
  exact within_bind (within_filenameFor hnow _ _ _) fun filename => trivial

/-- So does a report of investments. -/
theorem within_buildInvestorExport {params : InvestorParams} (hnow : acts .now)
    (hfind : acts (.findInvoices (.investor params.subject))) :
    Within acts (cs.buildInvestorExport params) := by
  refine within_bind (within_act hfind) fun invoices => within_bind (within_render hnow _ _ _) ?_
  rintro ⟨content, contentType⟩
  exact within_bind (within_filenameFor hnow _ _ _) fun filename => trivial

/-- An export of transactions asks for invoices of the principal. -/
theorem within_exportTransactionsInline (hne : principal.walletAddress ≠ "")
    (query : RawExportQuery) :
    Within (Exports principal) (cs.exportTransactionsInline principal query) := by
  refine within_ofExcept fun params hparams => within_buildTransactionsExport trivial ?_
  intro hadmin r hr
  rw [parseTransactionParams_eq_ok hadmin hparams] at hr
  exact transactions_asksFor hne hr

/-- So does an export of investments. -/
theorem within_exportInvestorReportInline (query : RawExportQuery) :
    Within (Exports principal) (cs.exportInvestorReportInline principal query) := by
  refine within_ofExcept fun params hparams => within_buildInvestorExport trivial ?_
  intro hadmin r hr
  rw [parseInvestorParams_eq_ok hadmin hparams] at hr
  exact investor_asksFor hr

/-- The job of an export is for the principal. -/
theorem within_enqueueTransactionsExport (query : RawExportQuery) :
    Within (Exports principal) (cs.enqueueTransactionsExport principal query) := by
  refine within_ofExcept fun params hparams => within_bind (within_act ⟨rfl, ?_⟩) fun _ => trivial
  exact fun hadmin => parseTransactionParams_eq_ok hadmin hparams

/-- So is that of a report. -/
theorem within_enqueueInvestorReportExport (query : RawExportQuery) :
    Within (Exports principal) (enqueueInvestorReportExport principal query) := by
  refine within_ofExcept fun params hparams => within_bind (within_act ⟨rfl, ?_⟩) fun _ => trivial
  exact fun hadmin => congrArg some (parseInvestorParams_eq_ok hadmin hparams)

/-- A job is loaded by one look at it. -/
theorem within_loadAuthorizedJob (jobId : String) :
    Within Looks (loadAuthorizedJob principal jobId) :=
  within_bind (within_act trivial) fun _ => trivial

/-- The document of a job that is loaded takes the time only. -/
theorem within_jobDocument (hnow : acts .now) (jobId : String) (job : ExportJob) :
    Within acts (jobDocument jobId job) := by
  unfold jobDocument
  split
  · exact within_bind (within_filenameFor hnow _ _ _) fun _ => trivial
  · trivial

/-- The actions of a request. -/
theorem within_serve (hne : principal.walletAddress ≠ "") (operation : Operation) :
    Within (fun a => Exports principal a ∨ Looks a) (cs.serve principal operation) := by
  cases operation with
  | exportTransactionsInline query =>
    exact within_bind ((within_exportTransactionsInline hne query).mono fun _ => .inl)
      fun _ => trivial
  | enqueueTransactionsExport query =>
    exact within_bind ((within_enqueueTransactionsExport query).mono fun _ => .inl)
      fun _ => trivial
  | exportInvestorReportInline query =>
    exact within_bind ((within_exportInvestorReportInline query).mono fun _ => .inl)
      fun _ => trivial
  | enqueueInvestorReportExport query =>
    exact within_bind ((within_enqueueInvestorReportExport query).mono fun _ => .inl)
      fun _ => trivial
  | getJob jobId =>
    refine within_bind (within_bind ?_ fun _ => trivial) fun _ => trivial
    exact (within_loadAuthorizedJob jobId).mono fun _ => .inr
  | downloadJob jobId =>
    refine within_bind (within_bind ?_ fun job => ?_) fun _ => trivial
    · exact (within_loadAuthorizedJob jobId).mono fun _ => .inr
    · exact within_jobDocument (.inr trivial) jobId job

/-- The actions of the processing of a pending job. -/
theorem within_processPending (job : ExportJob) :
    Within (Processes job) (cs.processPending job) := by
  have hbuild : Within (Processes job) (cs.buildJob job) := by
    unfold ComplianceService.buildJob
    split
    · refine within_ofExcept fun threshold _ => within_buildTransactionsExport trivial ?_
      intro subject hne hsubject r hr
      rw [hsubject] at hr
      exact transactions_asksFor hne hr
    · refine within_buildInvestorExport trivial ?_
      intro subject hne hsubject r hr
      rw [hsubject] at hr
      exact investor_asksFor hr
  refine within_bind (within_act trivial) fun startedAt => within_bind (within_act rfl) fun _ => ?_
  refine within_tryCatch ?_ fun err => ?_
  · exact within_bind hbuild fun built => within_bind (within_act trivial) fun completedAt =>
      within_act rfl
  · exact within_bind (within_act trivial) fun completedAt => within_act rfl

/-! ## What a wallet can see -/

/-- The tables agree on the invoices of the wallet, those whose farmer or investor it is. -/
def AgreeInvoices (w : String) (t₁ t₂ : InvoiceTable) : Prop :=
  ∀ r, r.farmer = w ∨ r.investor = some w → (r ∈ t₁.rows ↔ r ∈ t₂.rows)

/-- The databases agree on the invoices of the wallet and on the jobs it has requested. -/
structure AgreeFor (w : String) (s₁ s₂ : ExportStore) : Prop where
  invoices : AgreeInvoices w s₁.invoices s₂.invoices
  jobs : ∀ job, job.requestedBy = w → (job ∈ s₁.jobs.rows ↔ job ∈ s₂.jobs.rows)

/-- The jobs of the wallet are for itself. -/
def OwnJobs (w : String) (s : ExportStore) : Prop :=
  ∀ job ∈ s.jobs.rows, job.requestedBy = w → job.subject = some w

/-- The jobs stay, with those who have requested them. -/
def Grows (s s' : ExportStore) : Prop :=
  ∀ job ∈ s.jobs.rows, ∃ job' ∈ s'.jobs.rows, job'.id = job.id ∧ job'.requestedBy = job.requestedBy

/-- The actions of a program of the wallet, and of the processing of its jobs. -/
def OwnAct (w : String) (s : ExportStore) : Act → Prop
  | .now | .findJob _ => True
  | .findInvoices query => ∀ r, query.asksFor r = true → r.farmer = w ∨ r.investor = some w
  | .createJob data => data.requestedBy = w ∧ data.subject = some w
  | .updateJob id _ => ∃ job ∈ s.jobs.rows, job.id = id ∧ job.requestedBy = w

/-- The actions of the programs of others, and of the processing of their jobs. -/
def ForeignAct (w : String) (s : ExportStore) : Act → Prop
  | .now | .findJob _ | .findInvoices _ => True
  | .createJob data => data.requestedBy ≠ w
  | .updateJob id _ => ∃ job ∈ s.jobs.rows, job.id = id ∧ job.requestedBy ≠ w

/-- The answer is no job of the wallet. -/
def Hidden (w : String) (r : Except Error (Option ExportJob)) : Prop :=
  ∃ job, r = .ok job ∧ ∀ job' ∈ job, job'.requestedBy ≠ w

/-- The answers that a program of the wallet does not tell apart: a job of somebody else and no
job. -/
def SameAnswer (w : String) : (a : Act) → Except Error a.Answer → Except Error a.Answer → Prop
  | .findJob _, r, r' => r = r' ∨ (Hidden w r ∧ Hidden w r')
  | .now, r, r' | .findInvoices _, r, r' | .createJob _, r, r' | .updateJob .., r, r' => r = r'

variable {s s' s₁ s₂ s₃ s₁' s₂' : ExportStore} {a : Act}

/-- An answer is the same as itself. -/
theorem SameAnswer.refl (w : String) : (a : Act) → (r : Except Error a.Answer) →
    SameAnswer w a r r
  | .findJob _, _ => .inl rfl
  | .now, _ | .findInvoices _, _ | .createJob _, _ | .updateJob .., _ => rfl

theorem AgreeFor.refl (s : ExportStore) : AgreeFor w s s := ⟨fun _ _ => .rfl, fun _ _ => .rfl⟩

theorem AgreeFor.symm (h : AgreeFor w s₁ s₂) : AgreeFor w s₂ s₁ :=
  ⟨fun r hr => (h.invoices r hr).symm, fun job hjob => (h.jobs job hjob).symm⟩

theorem AgreeFor.trans (h : AgreeFor w s₁ s₂) (h' : AgreeFor w s₂ s₃) : AgreeFor w s₁ s₃ :=
  ⟨fun r hr => (h.invoices r hr).trans (h'.invoices r hr),
    fun job hjob => (h.jobs job hjob).trans (h'.jobs job hjob)⟩

/-- What is said of the jobs of the wallet depends on what it sees only. -/
theorem OwnJobs.of_agree (h : OwnJobs w s₁) (hagree : AgreeFor w s₁ s₂) : OwnJobs w s₂ :=
  fun job hjob hby => h job ((hagree.jobs job hby).2 hjob) hby

theorem Grows.refl (s : ExportStore) : Grows s s := fun job hjob => ⟨job, hjob, rfl, rfl⟩

/-- More jobs leave an action of the wallet its own. -/
theorem OwnAct.mono (hgrows : Grows s s') (h : OwnAct w s a) : OwnAct w s' a := by
  cases a with
  | updateJob id u =>
    obtain ⟨job, hjob, hid, hby⟩ := h
    obtain ⟨job', hjob', hid', hby'⟩ := hgrows job hjob
    exact ⟨job', hjob', hid'.trans hid, hby'.trans hby⟩
  | now | findJob | findInvoices | createJob => exact h

/-- And one of others theirs. -/
theorem ForeignAct.mono (hgrows : Grows s s') (h : ForeignAct w s a) : ForeignAct w s' a := by
  cases a with
  | updateJob id u =>
    obtain ⟨job, hjob, hid, hby⟩ := h
    obtain ⟨job', hjob', hid', hby'⟩ := hgrows job hjob
    exact ⟨job', hjob', hid'.trans hid, hby'.symm ▸ hby⟩
  | now | findJob | findInvoices | createJob => exact h

/-- The program does not tell a job of somebody else from no job at all. -/
abbrev Discreet {α : Type} (w : String) (s : ExportStore) (p : Task α) : Prop :=
  p.Blind (OwnAct w s) (SameAnswer w)

/-- A program that looks at no job is discreet. -/
theorem discreet_of_within {p : Task α} (hp : Within acts p) (ha : ∀ a, acts a → OwnAct w s a)
    (hfind : ∀ id, ¬ acts (.findJob id)) : Discreet w s p := by
  refine Async.Blind.of_only hp ha fun a hacts r r' hsame => ?_
  cases a with
  | findJob id => exact absurd hacts (hfind id)
  | now | findInvoices | createJob | updateJob => exact hsame

/-- One who is not an admin gets the same answer for a job of somebody else and for no job. -/
theorem authorizedJob_hidden (hadmin : isAdmin principal = false) (jobId : String)
    {job : Option ExportJob} (hjob : ∀ job' ∈ job, job'.requestedBy ≠ principal.walletAddress) :
    authorizedJob principal jobId job =
      .error (.http 404 ("Export job " ++ jobId ++ " not found")) := by
  cases job with
  | none => rfl
  | some job => exact if_pos ⟨hadmin, hjob job rfl⟩

/-- So loading a job is discreet. -/
theorem discreet_loadAuthorizedJob (hadmin : isAdmin principal = false) (jobId : String) :
    Discreet principal.walletAddress s (loadAuthorizedJob principal jobId) := by
  refine ⟨trivial, fun r r' hsame => ⟨?_, ?_⟩⟩
  · rcases hsame with rfl | ⟨⟨job, rfl, hjob⟩, ⟨job', rfl, hjob'⟩⟩
    · rfl
    · change ofExcept (authorizedJob principal jobId job) =
        ofExcept (authorizedJob principal jobId job')
      rw [authorizedJob_hidden hadmin jobId hjob, authorizedJob_hidden hadmin jobId hjob']
  · cases r with
    | ok job => trivial
    | error e => trivial

/-- A request of one who is not an admin is discreet. -/
theorem discreet_serve (hne : principal.walletAddress ≠ "") (hadmin : isAdmin principal = false)
    (operation : Operation) :
    Discreet principal.walletAddress s (cs.serve principal operation) := by
  have hexports : ∀ a, Exports principal a → OwnAct principal.walletAddress s a := by
    intro a ha
    cases a with
    | now => trivial
    | findInvoices query => exact ha hadmin
    | createJob data => exact ⟨ha.1, ha.2 hadmin⟩
    | findJob | updateJob => exact ha.elim
  have hof : ∀ {α : Type} {p : Task α}, Within (Exports principal) p →
      Discreet principal.walletAddress s p :=
    fun hp => discreet_of_within hp hexports fun _ h => h
  cases operation with
  | exportTransactionsInline query =>
    exact (hof (within_exportTransactionsInline hne query)).bind fun _ => trivial
  | enqueueTransactionsExport query =>
    exact (hof (within_enqueueTransactionsExport query)).bind fun _ => trivial
  | exportInvestorReportInline query =>
    exact (hof (within_exportInvestorReportInline query)).bind fun _ => trivial
  | enqueueInvestorReportExport query =>
    exact (hof (within_enqueueInvestorReportExport query)).bind fun _ => trivial
  | getJob jobId =>
    refine ((discreet_loadAuthorizedJob hadmin jobId).bind fun job => ?_).bind fun _ => trivial
    trivial
  | downloadJob jobId =>
    refine ((discreet_loadAuthorizedJob hadmin jobId).bind fun job => ?_).bind fun _ => trivial
    have hdocument : Within (Eq .now) (jobDocument jobId job) := within_jobDocument rfl jobId job
    exact discreet_of_within hdocument (fun a ha => ha ▸ trivial) fun _ h => by cases h

/-- The processing of a job of the wallet is discreet. -/
theorem discreet_processPending (hne : w ≠ "") {job : ExportJob} (hjob : job ∈ s.jobs.rows)
    (hby : job.requestedBy = w) (hsubject : job.subject = some w) :
    Discreet w s (cs.processPending job) := by
  refine discreet_of_within (within_processPending job) ?_ fun _ h => h
  intro a ha
  cases a with
  | now => trivial
  | findInvoices query => exact ha w hne hsubject
  | updateJob id u => exact ⟨job, hjob, ha.symm, hby⟩
  | createJob | findJob => exact ha.elim

/-- What others request, and the processing of their jobs. -/
theorem foreign_serve (hne : principal.walletAddress ≠ "") (hby : principal.walletAddress ≠ w)
    (operation : Operation) : Within (ForeignAct w s) (cs.serve principal operation) := by
  refine (within_serve hne operation).mono fun a ha => ?_
  cases a with
  | now | findJob | findInvoices => trivial
  | createJob data =>
    rcases ha with ha | ha
    · exact fun hw => hby (ha.1.symm.trans hw)
    · exact ha.elim
  | updateJob id u => exact (or_self_iff.1 ha).elim

theorem foreign_processPending {job : ExportJob} (hjob : job ∈ s.jobs.rows)
    (hby : job.requestedBy ≠ w) : Within (ForeignAct w s) (cs.processPending job) := by
  refine (within_processPending job).mono fun a ha => ?_
  cases a with
  | now | findJob | findInvoices => trivial
  | createJob data => exact ha.elim
  | updateJob id u => exact ⟨job, hjob, ha.symm, hby⟩

/-! ## Steps -/

variable {k : Nat} {c : Choice}

/-- The row of a job after an update of the job `id`. -/
def updated (id : String) (u : JobUpdate) (job : ExportJob) : ExportJob :=
  if job.id = id then u.apply job else job

@[simp] theorem updated_id (id : String) (u : JobUpdate) (job : ExportJob) :
    (updated id u job).id = job.id := by
  unfold updated
  split
  · exact JobUpdate.apply_id job u
  · rfl

@[simp] theorem updated_data (id : String) (u : JobUpdate) (job : ExportJob) :
    (updated id u job).toNewExportJob = job.toNewExportJob := by
  unfold updated
  split
  · exact JobUpdate.apply_data job u
  · rfl

/-- A statement that throws changes nothing. -/
theorem perform_thrown {message : String} (hthrown : c.thrown = some message) (ha : a ≠ .now) :
    perform k a c s = (.error (.database message), s) := by
  cases a with
  | now => exact absurd rfl ha
  | findInvoices | createJob | findJob | updateJob => simp only [perform, statement, hthrown]

/-- The query of invoices, where it does not throw. -/
theorem perform_findInvoices (hthrown : c.thrown = none) (query : InvoiceQuery) :
    perform k (.findInvoices query) c s =
      (.ok (orderByOnchainId (s.invoices.rows.filter query.asksFor)), s) := by
  simp only [perform, statement, hthrown]

/-- The look at a job. -/
theorem perform_findJob (hthrown : c.thrown = none) (id : String) :
    perform k (.findJob id) c s = (.ok (s.jobs.findUnique id), s) := by
  simp only [perform, statement, hthrown]

/-- The insert of a job. -/
theorem perform_createJob (hthrown : c.thrown = none) (data : NewExportJob)
    (hfresh : c.uuid ∉ s.jobs.rows.map ExportJob.id) :
    ∃ s', perform k (.createJob data) c s = (.ok (data.create c.uuid c.clock), s') ∧
      s'.invoices = s.invoices ∧
      s'.jobs.rows = s.jobs.rows ++ [data.create c.uuid c.clock] := by
  simp only [perform, statement, hthrown, JobTable.create, dif_neg hfresh]
  exact ⟨_, rfl, rfl, rfl⟩

/-- The insert of a job whose id is taken. -/
theorem perform_createJob_taken (hthrown : c.thrown = none) (data : NewExportJob)
    (htaken : c.uuid ∈ s.jobs.rows.map ExportJob.id) :
    perform k (.createJob data) c s = (.error .uniqueViolation, s) := by
  simp only [perform, statement, hthrown, JobTable.create, dif_pos htaken]
  rfl

/-- The update of a job. -/
theorem perform_updateJob (hthrown : c.thrown = none) {id : String} (u : JobUpdate)
    (hstored : id ∈ s.jobs.rows.map ExportJob.id) :
    ∃ s', perform k (.updateJob id u) c s = (.ok (), s') ∧ s'.invoices = s.invoices ∧
      s'.jobs.rows = s.jobs.rows.map (updated id u) := by
  simp only [perform, statement, hthrown, JobTable.update, if_pos hstored]
  exact ⟨_, rfl, rfl, rfl⟩

/-- The update of a job that is not there. -/
theorem perform_updateJob_missing (hthrown : c.thrown = none) {id : String} (u : JobUpdate)
    (hmissing : id ∉ s.jobs.rows.map ExportJob.id) :
    perform k (.updateJob id u) c s =
      (.error (.database "Record to update not found."), s) := by
  simp only [perform, statement, hthrown, JobTable.update, if_neg hmissing]
  rfl

/-- What an action does: nothing, or it adds a job, or it updates one. -/
theorem perform_cases (k : Nat) (a : Act) (c : Choice) (s : ExportStore) :
    (perform k a c s).2 = s ∨
    (∃ data, a = .createJob data ∧ (perform k a c s).2.invoices = s.invoices ∧
      (perform k a c s).2.jobs.rows = s.jobs.rows ++ [data.create c.uuid c.clock]) ∨
    ∃ id u, a = .updateJob id u ∧ (perform k a c s).2.invoices = s.invoices ∧
      (perform k a c s).2.jobs.rows = s.jobs.rows.map (updated id u) := by
  cases hthrown : c.thrown with
  | some message =>
    by_cases hnow : a = .now
    · subst hnow
      exact .inl rfl
    · rw [perform_thrown hthrown hnow]
      exact .inl rfl
  | none =>
    cases a with
    | now => exact .inl rfl
    | findInvoices query =>
      rw [perform_findInvoices hthrown]
      exact .inl rfl
    | findJob id =>
      rw [perform_findJob hthrown]
      exact .inl rfl
    | createJob data =>
      by_cases htaken : c.uuid ∈ s.jobs.rows.map ExportJob.id
      · rw [perform_createJob_taken hthrown data htaken]
        exact .inl rfl
      · obtain ⟨s', hp, hinvoices, hrows⟩ := perform_createJob (k := k) hthrown data htaken
        rw [hp]
        exact .inr (.inl ⟨data, rfl, hinvoices, hrows⟩)
    | updateJob id u =>
      by_cases hstored : id ∈ s.jobs.rows.map ExportJob.id
      · obtain ⟨s', hp, hinvoices, hrows⟩ := perform_updateJob (k := k) hthrown u hstored
        rw [hp]
        exact .inr (.inr ⟨id, u, rfl, hinvoices, hrows⟩)
      · rw [perform_updateJob_missing hthrown u hstored]
        exact .inl rfl

/-- A new job leaves the others as they are. -/
theorem grows_create {job : ExportJob} (hrows : s'.jobs.rows = s.jobs.rows ++ [job]) :
    Grows s s' := by
  intro job' hjob'
  rw [hrows]
  exact ⟨job', List.mem_append_left _ hjob', rfl, rfl⟩

/-- An update leaves the jobs with those who have requested them. -/
theorem grows_update {id : String} {u : JobUpdate}
    (hrows : s'.jobs.rows = s.jobs.rows.map (updated id u)) : Grows s s' := by
  intro job hjob
  rw [hrows]
  exact ⟨updated id u job, List.mem_map_of_mem hjob, updated_id id u job, by rw [updated_data]⟩

/-- A new job that is about the wallet if it is for the wallet. -/
theorem OwnJobs.create (hown : OwnJobs w s) {job : ExportJob}
    (hjob : job.requestedBy = w → job.subject = some w)
    (hrows : s'.jobs.rows = s.jobs.rows ++ [job]) : OwnJobs w s' := by
  intro job' hjob' hby
  rw [hrows, List.mem_append, List.mem_singleton] at hjob'
  rcases hjob' with hjob' | rfl
  · exact hown job' hjob' hby
  · exact hjob hby

/-- An update changes no subject. -/
theorem OwnJobs.update (hown : OwnJobs w s) {id : String} {u : JobUpdate}
    (hrows : s'.jobs.rows = s.jobs.rows.map (updated id u)) : OwnJobs w s' := by
  intro job hjob hby
  rw [hrows] at hjob
  obtain ⟨job', hjob', rfl⟩ := List.mem_map.1 hjob
  rw [updated_data] at hby ⊢
  exact hown job' hjob' hby

/-- Databases that agree for a wallet agree after the same job is added to both. -/
theorem AgreeFor.create (hagree : AgreeFor w s₁ s₂) {job : ExportJob}
    (hinvoices₁ : s₁'.invoices = s₁.invoices) (hinvoices₂ : s₂'.invoices = s₂.invoices)
    (hrows₁ : s₁'.jobs.rows = s₁.jobs.rows ++ [job])
    (hrows₂ : s₂'.jobs.rows = s₂.jobs.rows ++ [job]) : AgreeFor w s₁' s₂' := by
  refine ⟨?_, fun job' hby => ?_⟩
  · rw [hinvoices₁, hinvoices₂]
    exact hagree.invoices
  · rw [hrows₁, hrows₂, List.mem_append, List.mem_append]
    exact or_congr_left (hagree.jobs job' hby)

/-- They agree after the same update of both. -/
theorem AgreeFor.update (hagree : AgreeFor w s₁ s₂) {id : String} {u : JobUpdate}
    (hinvoices₁ : s₁'.invoices = s₁.invoices) (hinvoices₂ : s₂'.invoices = s₂.invoices)
    (hrows₁ : s₁'.jobs.rows = s₁.jobs.rows.map (updated id u))
    (hrows₂ : s₂'.jobs.rows = s₂.jobs.rows.map (updated id u)) : AgreeFor w s₁' s₂' := by
  refine ⟨?_, fun job hby => ?_⟩
  · rw [hinvoices₁, hinvoices₂]
    exact hagree.invoices
  · rw [hrows₁, hrows₂, List.mem_map, List.mem_map]
    refine exists_congr fun job' => and_congr_left fun heq => hagree.jobs job' ?_
    rw [← heq, updated_data] at hby
    exact hby

/-- A step of somebody else changes nothing that the wallet can see. -/
theorem perform_foreign (h : ForeignAct w s a) :
    AgreeFor w s (perform k a c s).2 ∧ Grows s (perform k a c s).2 := by
  rcases perform_cases k a c s with hs | ⟨data, rfl, hinvoices, hrows⟩ |
    ⟨id, u, rfl, hinvoices, hrows⟩
  · rw [hs]
    exact ⟨.refl s, .refl s⟩
  · refine ⟨⟨hinvoices ▸ fun _ _ => .rfl, fun job hby => ?_⟩, grows_create hrows⟩
    rw [hrows, List.mem_append, List.mem_singleton]
    refine ⟨.inl, fun hjob => hjob.resolve_right ?_⟩
    rintro rfl
    exact h hby
  · obtain ⟨own, hown, hid, hforeign⟩ := h
    refine ⟨⟨hinvoices ▸ fun _ _ => .rfl, fun job hby => ?_⟩, grows_update hrows⟩
    -- the job that is updated is the only one of its id, and not one of the wallet
    have hne : ∀ job ∈ s.jobs.rows, job.requestedBy = w → updated id u job = job := by
      intro job hjob hby
      refine if_neg fun heq => hforeign ?_
      rw [← JobTable.eq_of_id hjob hown (heq.trans hid.symm)]
      exact hby
    rw [hrows, List.mem_map]
    constructor
    · exact fun hjob => ⟨job, hjob, hne job hjob hby⟩
    · rintro ⟨job', hjob', rfl⟩
      rw [updated_data] at hby
      rw [hne job' hjob' hby]
      exact hjob'

/-- Two pairs of databases: the wallet still sees the same in both, and the jobs have stayed. -/
structure StaysAlike (w : String) (s₁ s₂ s₁' s₂' : ExportStore) : Prop where
  agree : AgreeFor w s₁' s₂'
  own : OwnJobs w s₁'
  grows₁ : Grows s₁ s₁'
  grows₂ : Grows s₂ s₂'

/-- The invoices of the wallet are found in the same order. -/
theorem orderByOnchainId_congr {t₁ t₂ : InvoiceTable} (hagree : AgreeInvoices w t₁ t₂)
    {p : Invoice → Bool} (hp : ∀ r, p r = true → r.farmer = w ∨ r.investor = some w) :
    orderByOnchainId (t₁.rows.filter p) = orderByOnchainId (t₂.rows.filter p) := by
  have hnodup : ∀ t : InvoiceTable, (t.rows.filter p).Nodup :=
    fun t => (List.Nodup.of_map _ t.ids).filter p
  have hperm : (t₁.rows.filter p).Perm (t₂.rows.filter p) := by
    refine (List.perm_ext_iff_of_nodup (hnodup t₁) (hnodup t₂)).2 fun r => ?_
    rw [List.mem_filter, List.mem_filter]
    exact and_congr_left fun hr => hagree r (hp r hr)
  have hsorted : ∀ l : List Invoice,
      (orderByOnchainId l).Pairwise fun a b => decide (a.onchainId ≤ b.onchainId) = true := by
    intro l
    refine List.pairwise_mergeSort (fun a b c hab hbc => ?_) (fun a b => ?_) l
    · rw [decide_eq_true_eq] at hab hbc ⊢
      exact Int.le_trans hab hbc
    · rw [Bool.or_eq_true, decide_eq_true_eq, decide_eq_true_eq]
      exact Int.le_total _ _
  refine List.Perm.eq_of_pairwise ?_ (hsorted _) (hsorted _)
    ((List.mergeSort_perm _ _).trans (hperm.trans (List.mergeSort_perm _ _).symm))
  intro a b ha hb hab hba
  rw [decide_eq_true_eq] at hab hba
  have ha : a ∈ t₁.rows.filter p := List.mem_mergeSort.1 ha
  have hb : b ∈ t₁.rows.filter p := hperm.mem_iff.2 (List.mem_mergeSort.1 hb)
  exact InvoiceTable.eq_of_onchainId (List.mem_filter.1 ha).1 (List.mem_filter.1 hb).1
    (Int.le_antisymm hab hba)

/-- Nothing has changed. -/
theorem StaysAlike.refl (hagree : AgreeFor w s₁ s₂) (hown : OwnJobs w s₁) :
    StaysAlike w s₁ s₂ s₁ s₂ :=
  ⟨hagree, hown, .refl s₁, .refl s₂⟩

/-- The answers to a look at a job. -/
theorem sameAnswer_findJob (hagree : AgreeFor w s₁ s₂) (id : String) :
    (∃ job, job ∈ s₁.jobs.rows ∧ job.id = id ∧ job.requestedBy = w ∧
      s₁.jobs.findUnique id = some job ∧ s₂.jobs.findUnique id = some job) ∨
    (∀ job ∈ s₁.jobs.findUnique id, job.requestedBy ≠ w) ∧
      ∀ job ∈ s₂.jobs.findUnique id, job.requestedBy ≠ w := by
  by_cases hown : ∃ job ∈ s₁.jobs.rows, job.id = id ∧ job.requestedBy = w
  · obtain ⟨job, hjob, hid, hby⟩ := hown
    exact .inl ⟨job, hjob, hid, hby, JobTable.findUnique_eq_some.2 ⟨hjob, hid⟩,
      JobTable.findUnique_eq_some.2 ⟨(hagree.jobs job hby).1 hjob, hid⟩⟩
  · refine .inr ⟨fun job hfound hby => hown ?_, fun job hfound hby => hown ?_⟩
    · obtain ⟨hjob, hid⟩ := JobTable.findUnique_eq_some.1 hfound
      exact ⟨job, hjob, hid, hby⟩
    · obtain ⟨hjob, hid⟩ := JobTable.findUnique_eq_some.1 hfound
      exact ⟨job, (hagree.jobs job hby).2 hjob, hid, hby⟩

/-- A step of the wallet gets the same answer from two databases that agree for it, and they agree
afterwards. -/
theorem perform_own (h : OwnAct w s₁ a) (hagree : AgreeFor w s₁ s₂) (hown : OwnJobs w s₁)
    (hfresh₁ : ∀ data, a = .createJob data → c.uuid ∉ s₁.jobs.rows.map ExportJob.id)
    (hfresh₂ : ∀ data, a = .createJob data → c.uuid ∉ s₂.jobs.rows.map ExportJob.id) :
    SameAnswer w a (perform k a c s₁).1 (perform k a c s₂).1 ∧
      StaysAlike w s₁ s₂ (perform k a c s₁).2 (perform k a c s₂).2 := by
  have hsame : StaysAlike w s₁ s₂ s₁ s₂ := .refl hagree hown
  cases hthrown : c.thrown with
  | some message =>
    by_cases hnow : a = .now
    · subst hnow
      exact ⟨rfl, hsame⟩
    · rw [perform_thrown hthrown hnow, perform_thrown hthrown hnow]
      exact ⟨.refl w a _, hsame⟩
  | none =>
    cases a with
    | now => exact ⟨rfl, hsame⟩
    | findInvoices query =>
      rw [perform_findInvoices hthrown, perform_findInvoices hthrown,
        orderByOnchainId_congr hagree.invoices h]
      exact ⟨rfl, hsame⟩
    | findJob id =>
      rw [perform_findJob hthrown, perform_findJob hthrown]
      refine ⟨?_, hsame⟩
      rcases sameAnswer_findJob hagree id with ⟨job, -, -, -, h₁, h₂⟩ | ⟨h₁, h₂⟩
      · exact .inl (by rw [h₁, h₂])
      · exact .inr ⟨⟨_, rfl, h₁⟩, ⟨_, rfl, h₂⟩⟩
    | createJob data =>
      obtain ⟨s₁', hp₁, hinvoices₁, hrows₁⟩ :=
        perform_createJob (k := k) hthrown data (hfresh₁ data rfl)
      obtain ⟨s₂', hp₂, hinvoices₂, hrows₂⟩ :=
        perform_createJob (k := k) hthrown data (hfresh₂ data rfl)
      rw [hp₁, hp₂]
      exact ⟨rfl, hagree.create hinvoices₁ hinvoices₂ hrows₁ hrows₂,
        hown.create (fun _ => h.2) hrows₁, grows_create hrows₁, grows_create hrows₂⟩
    | updateJob id u =>
      obtain ⟨job₀, hjob₀, hid, hby₀⟩ := h
      have hjob₀' := (hagree.jobs job₀ hby₀).1 hjob₀
      obtain ⟨s₁', hp₁, hinvoices₁, hrows₁⟩ :=
        perform_updateJob (k := k) hthrown u (List.mem_map.2 ⟨job₀, hjob₀, hid⟩)
      obtain ⟨s₂', hp₂, hinvoices₂, hrows₂⟩ :=
        perform_updateJob (k := k) hthrown u (List.mem_map.2 ⟨job₀, hjob₀', hid⟩)
      rw [hp₁, hp₂]
      exact ⟨rfl, hagree.update hinvoices₁ hinvoices₂ hrows₁ hrows₂, hown.update hrows₁,
        grows_update hrows₁, grows_update hrows₂⟩

end Compliance

end Backend

end InvoiceFi
