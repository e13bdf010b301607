import InvoiceFi.Backend.Compliance.Scoping

/-!
# Nothing leaks across wallets

Two histories of the exports, from databases that agree on what is of a wallet, are coupled
(`isolation`): the rests of the requests of the wallet and of the processing of its jobs are the
same in both (`Related`); what others do differs, but keeps what the wallet can see. The jobs of a
wallet that never presents the token of an admin are about the wallet (`ownJobs`), which is what
makes the processing of a job with its stored parameters safe. `exports_isolated` is the result: the
requests of the wallet have the same results in both histories.
-/

namespace InvoiceFi

namespace Backend

namespace Compliance

variable {cs : ComplianceService} {w : String} {principal : Principal} {acts : Act → Prop}
  {s s₁ s₂ : ExportStore} {a : Act} {k : Nat} {c : Choice}

/-! ## Histories -/

/-- Who makes a request. -/
def ExportCall.requester : ExportCall → Option Principal
  | .request payload _ => (principalFromPayload payload).toOption
  | .process _ => none

/-- The move does not present the token of an admin for the wallet. -/
def PresentsNoAdmin (w : String) : Move ExportCall Choice InvoiceTable → Prop
  | .start call => ∀ principal ∈ call.requester, principal.walletAddress = w →
      isAdmin principal = false
  | _ => True

instance (w : String) :
    (m : Move ExportCall Choice InvoiceTable) → Decidable (PresentsNoAdmin w m)
  | .start call => inferInstanceAs (Decidable (∀ principal ∈ call.requester, _))
  | .resume .. | .environ _ => inferInstanceAs (Decidable True)

/-- The database is one that the service, with any settings, leaves if it starts without jobs and
the wallet never presents the token of an admin. -/
def Served (w : String) (s : ExportStore) : Prop :=
  ∃ cs s₀ ms, s₀.jobs.rows = [] ∧ (∀ m ∈ ms, PresentsNoAdmin w m) ∧
    (((exportService cs).machine s₀).exec ⟨s₀, []⟩ ms).state = s

/-- A principal has a wallet. -/
theorem walletAddress_ne {payload : JwtPayload} (h : principalFromPayload payload = .ok principal) :
    principal.walletAddress ≠ "" := by
  simp only [principalFromPayload] at h
  split at h
  · cases h
  · next hne =>
    cases h
    exact fun hempty => hne (.inr (.inl hempty))

/-- The requester of a request with a token that is accepted. -/
theorem requester_request {payload : JwtPayload}
    (h : principalFromPayload payload = .ok principal) (operation : Operation) :
    (ExportCall.request payload operation).requester = some principal := by
  simp only [ExportCall.requester, h]
  rfl

theorem ne_of_requester {call : ExportCall} (h : principal ∈ call.requester) :
    principal.walletAddress ≠ "" := by
  cases call with
  | process id => cases h
  | request payload operation =>
    refine @walletAddress_ne principal payload ?_
    cases hp : principalFromPayload payload with
    | ok p =>
      rw [requester_request hp] at h
      cases h
      rfl
    | error e =>
      simp only [ExportCall.requester, hp] at h
      cases h

/-- A request is that of its principal, or it is rejected. -/
theorem main_request (cs : ComplianceService) (payload : JwtPayload) (operation : Operation) :
    (∃ principal, principalFromPayload payload = .ok principal ∧
      cs.main (.request payload operation) = cs.serve principal operation) ∨
    ∃ e, principalFromPayload payload = .error e ∧
      cs.main (.request payload operation) = throw (.http 401 e) := by
  simp only [ComplianceService.main, resolvePrincipal]
  cases principalFromPayload payload with
  | ok principal => exact .inl ⟨principal, rfl, rfl⟩
  | error e => exact .inr ⟨e, rfl, rfl⟩

/-! ### The jobs of a wallet -/

/-- A job that is created for the wallet is about the wallet. -/
def CreatesOwn (w : String) : Act → Prop
  | .createJob data => data.requestedBy = w → data.subject = some w
  | _ => True

/-- A call that does not present the token of an admin creates no other jobs for the wallet. -/
theorem within_main {call : ExportCall}
    (h : ∀ principal ∈ call.requester, principal.walletAddress = w → isAdmin principal = false) :
    Within (CreatesOwn w) (cs.main call) := by
  cases call with
  | request payload operation =>
    rcases main_request cs payload operation with ⟨principal, hp, hmain⟩ | ⟨e, -, hmain⟩
    · rw [hmain]
      refine (within_serve (walletAddress_ne hp) operation).mono fun a ha => ?_
      cases a with
      | createJob data =>
        intro hby
        have ha : Exports principal (.createJob data) := ha.resolve_right fun h => h
        have hw : principal.walletAddress = w := ha.1.symm.trans hby
        rw [← hw]
        exact ha.2 (h principal (requester_request hp operation) hw)
      | now | findInvoices | findJob | updateJob => trivial
    · rw [hmain]
      trivial
  | process id =>
    refine within_bind (within_bind (within_act trivial) fun job => ?_) fun _ => trivial
    cases job with
    | none => trivial
    | some job =>
      dsimp only
      split
      · trivial
      · refine (within_processPending job).mono fun a ha => ?_
        cases a with
        | createJob data => exact ha.elim
        | now | findInvoices | findJob | updateJob => trivial

theorem ownJobs_perform (h : CreatesOwn w a) (hown : OwnJobs w s) :
    OwnJobs w (perform k a c s).2 := by
  rcases perform_cases k a c s with hs | ⟨data, rfl, -, hrows⟩ | ⟨id, u, rfl, -, hrows⟩
  · rw [hs]
    exact hown
  · exact hown.create (fun hby => h hby) hrows
  · exact hown.update hrows

/-- The jobs of the wallet are about the wallet, whatever is called. -/
def ownJobs (cs : ComplianceService) (w : String) :
    Outline (exportService cs) (fun _ m => PresentsNoAdmin w m) where
  Inv := OwnJobs w
  At _ _ q _ := Within (CreatesOwn w) q
  start hok _ _ := within_main hok
  step := by
    intro p k c i a f _ hk hinv hat
    have hq : Within (CreatesOwn w) (.await a f) := hat k _ hk
    exact ⟨ownJobs_perform (k := k) hq.1 hinv, hq.2 _⟩
  stable _ _ _ hat _ hcall := hat _ _ hcall
  environ _ hinv hat := ⟨hinv, fun k call hcall => hat k call hcall⟩

theorem Served.ownJobs (h : Served w s) : OwnJobs w s := by
  obtain ⟨cs, s₀, ms, hempty, hms, rfl⟩ := h
  refine ((Compliance.ownJobs cs w).exec (s := s₀) (p := ⟨s₀, []⟩) ?_ Pool.meets_nil ?_).1
  · intro job hjob
    rw [hempty] at hjob
    cases hjob
  · exact fun t ht => hms t.input (Machine.input_mem_of_mem_trace ht)

/-! ### Two histories -/

/-- The program is about to create a job. -/
def Creates : Task Response → Prop
  | .await (.createJob _) _ => True
  | _ => False

instance : (q : Task Response) → Decidable (Creates q)
  | .await (.createJob _) _ => inferInstanceAs (Decidable True)
  | .await .now _ | .await (.findInvoices _) _ | .await (.findJob _) _ | .await (.updateJob ..) _
  | .done _ => inferInstanceAs (Decidable False)

/-- The id that the database draws for a new job is not taken. -/
def FreshId (p : Pool ExportStore ExportCall Act Act.Answer Error Response) :
    Move ExportCall Choice InvoiceTable → Prop
  | .resume k c => ∀ call ∈ p.calls[k]?, Creates call.rest →
      c.uuid ∉ p.state.jobs.rows.map ExportJob.id
  | _ => True

instance (p : Pool ExportStore ExportCall Act Act.Answer Error Response) :
    (m : Move ExportCall Choice InvoiceTable) → Decidable (FreshId p m)
  | .resume k _ => inferInstanceAs (Decidable (∀ call ∈ p.calls[k]?, Creates call.rest → _))
  | .start _ | .environ _ => inferInstanceAs (Decidable True)

/-- The call is a request of the wallet. -/
def ExportCall.IsOf (w : String) (call : ExportCall) : Prop :=
  ∃ principal ∈ call.requester, principal.walletAddress = w

/-- What is left of a call in two histories. -/
inductive Related (cs : ComplianceService) (w : String) :
    ExportCall → Task Response → Task Response → ExportStore → ExportStore → Prop
  /-- A request of the wallet and the processing of one of its jobs are the same in both. -/
  | own {call : ExportCall} {q : Task Response} {s₁ s₂ : ExportStore} (h : Discreet w s₁ q) :
      Related cs w call q q s₁ s₂
  /-- The processing of a job that has not been looked at is the same. -/
  | opening (id : String) (s₁ s₂ : ExportStore) :
      Related cs w (.process id) (cs.main (.process id)) (cs.main (.process id)) s₁ s₂
  /-- What others do, and the processing of their jobs, keeps to what is not of the wallet. -/
  | foreign {call : ExportCall} {q₁ q₂ : Task Response} {s₁ s₂ : ExportStore}
      (h : ¬ call.IsOf w) (h₁ : Within (ForeignAct w s₁) q₁) (h₂ : Within (ForeignAct w s₂) q₂) :
      Related cs w call q₁ q₂ s₁ s₂

variable {call : ExportCall} {q q₁ q₂ : Task Response} {s₁' s₂' : ExportStore}

theorem Related.mono (h : Related cs w call q₁ q₂ s₁ s₂) (hgrows₁ : Grows s₁ s₁')
    (hgrows₂ : Grows s₂ s₂') : Related cs w call q₁ q₂ s₁' s₂' := by
  cases h with
  | own h => exact .own (Async.Blind.mono h fun a => OwnAct.mono hgrows₁)
  | opening id => exact .opening id s₁' s₂'
  | foreign h h₁ h₂ =>
    exact .foreign h (h₁.mono fun a => ForeignAct.mono hgrows₁)
      (h₂.mono fun a => ForeignAct.mono hgrows₂)

/-- The rests of a request of the wallet are the same. -/
theorem Related.eq (h : Related cs w call q₁ q₂ s₁ s₂) (hcall : call.IsOf w) : q₁ = q₂ := by
  cases h with
  | own h => rfl
  | opening id => rfl
  | foreign h h₁ h₂ => exact absurd hcall h

/-- Every call starts alike. -/
theorem related_start (hadmin : PresentsNoAdmin w (.start call)) :
    Related cs w call (cs.main call) (cs.main call) s₁ s₂ := by
  cases call with
  | process id => exact .opening id s₁ s₂
  | request payload operation =>
    rcases main_request cs payload operation with ⟨principal, hp, hmain⟩ | ⟨e, -, hmain⟩
    · have hrequester := requester_request hp operation
      rw [hmain]
      by_cases hw : principal.walletAddress = w
      · subst hw
        have hnot : isAdmin principal = false := hadmin principal hrequester rfl
        exact .own (discreet_serve (walletAddress_ne hp) hnot operation)
      · refine .foreign ?_ (foreign_serve (walletAddress_ne hp) hw operation)
          (foreign_serve (walletAddress_ne hp) hw operation)
        rintro ⟨principal', hprincipal', hw'⟩
        rw [hrequester] at hprincipal'
        cases hprincipal'
        exact hw hw'
    · rw [hmain]
      exact .own trivial

/-- A step of a call of somebody else. -/
theorem foreign_advance (k : Nat) (c : Choice) (h : Within (ForeignAct w s) q) :
    let r := q.advance (perform k) c s
    AgreeFor w s r.2 ∧ Grows s r.2 ∧ Within (ForeignAct w r.2) r.1 := by
  cases q with
  | done r => exact ⟨.refl s, .refl s, trivial⟩
  | await a f =>
    obtain ⟨hagree, hgrows⟩ := perform_foreign (k := k) (c := c) h.1
    exact ⟨hagree, hgrows, Within.mono (h.2 _) fun a => ForeignAct.mono hgrows⟩

/-- A step of a call of the wallet. -/
theorem own_advance (hdiscreet : Discreet w s₁ q) (hagree : AgreeFor w s₁ s₂)
    (hown : OwnJobs w s₁)
    (hfresh₁ : Creates q → c.uuid ∉ s₁.jobs.rows.map ExportJob.id)
    (hfresh₂ : Creates q → c.uuid ∉ s₂.jobs.rows.map ExportJob.id) :
    let r₁ := q.advance (perform k) c s₁
    let r₂ := q.advance (perform k) c s₂
    StaysAlike w s₁ s₂ r₁.2 r₂.2 ∧ Related cs w call r₁.1 r₂.1 r₁.2 r₂.2 := by
  cases q with
  | done r => exact ⟨.refl hagree hown, .own trivial⟩
  | await a f =>
    have hcreates : ∀ data, a = .createJob data → Creates (.await a f) := by
      rintro data rfl
      trivial
    obtain ⟨hanswer, hstays⟩ := perform_own (k := k) hdiscreet.1 hagree hown
      (fun data ha => hfresh₁ (hcreates data ha)) fun data ha => hfresh₂ (hcreates data ha)
    obtain ⟨heq, hrest⟩ := hdiscreet.2 _ _ hanswer
    refine ⟨hstays, ?_⟩
    simp only [Async.advance]
    rw [← heq]
    exact .own (Async.Blind.mono hrest fun a => OwnAct.mono hstays.grows₁)

/-- The processing of the job that is found. -/
def ComplianceService.found (cs : ComplianceService) : Option ExportJob → Task Response
  | none => pure .processed
  | some job =>
    (if job.status ≠ .pending then pure () else cs.processPending job) >>= fun _ => pure .processed

/-- The first step of the processing of a job looks at it. -/
theorem process_advance (cs : ComplianceService) (id : String) (k : Nat) (c : Choice)
    (s : ExportStore) :
    (cs.main (.process id)).advance (perform k) c s =
      match c.thrown with
      | some message => (throw (.database message), s)
      | none => (cs.found (s.jobs.findUnique id), s) := by
  cases hthrown : c.thrown with
  | some message =>
    have hread : perform k (.findJob id) c s = (.error (.database message), s) :=
      perform_thrown hthrown fun h => by cases h
    simp only [ComplianceService.main, ComplianceService.processJob, act, Async.perform,
      Async.await_bind, Async.advance, hread]
    rfl
  | none =>
    simp only [ComplianceService.main, ComplianceService.processJob, act, Async.perform,
      Async.await_bind, Async.advance, perform_findJob hthrown id]
    cases s.jobs.findUnique id with
    | none => rfl
    | some job => rfl

theorem discreet_found (hne : w ≠ "") {job : ExportJob} (hjob : job ∈ s.jobs.rows)
    (hby : job.requestedBy = w) (hsubject : job.subject = some w) :
    Discreet w s (cs.found (some job)) := by
  refine Async.Blind.bind ?_ fun _ => trivial
  split
  · trivial
  · exact discreet_processPending hne hjob hby hsubject

theorem foreign_found {job : Option ExportJob} (hjob : ∀ job' ∈ job, job' ∈ s.jobs.rows)
    (hby : ∀ job' ∈ job, job'.requestedBy ≠ w) : Within (ForeignAct w s) (cs.found job) := by
  cases job with
  | none => trivial
  | some job =>
    refine within_bind ?_ fun _ => trivial
    split
    · trivial
    · exact foreign_processPending (hjob job rfl) (hby job rfl)

/-- The first step of the processing of a job. -/
theorem opening_advance (hne : w ≠ "") (hagree : AgreeFor w s₁ s₂) (hown : OwnJobs w s₁)
    (id : String) (k : Nat) (c : Choice) :
    let r₁ := (cs.main (.process id)).advance (perform k) c s₁
    let r₂ := (cs.main (.process id)).advance (perform k) c s₂
    StaysAlike w s₁ s₂ r₁.2 r₂.2 ∧ Related cs w (.process id) r₁.1 r₂.1 r₁.2 r₂.2 := by
  simp only [process_advance]
  cases c.thrown with
  | some message => exact ⟨.refl hagree hown, .own trivial⟩
  | none =>
    refine ⟨.refl hagree hown, ?_⟩
    rcases sameAnswer_findJob hagree id with ⟨job, hjob, -, hby, h₁, h₂⟩ | ⟨h₁, h₂⟩
    · rw [h₁, h₂]
      exact .own (discreet_found hne hjob hby (hown job hjob hby))
    · have hstored : ∀ s : ExportStore, ∀ job ∈ s.jobs.findUnique id, job ∈ s.jobs.rows :=
        fun s job hfound => (JobTable.findUnique_eq_some.1 hfound).1
      refine .foreign ?_ (foreign_found (hstored s₁) h₁) (foreign_found (hstored s₂) h₂)
      rintro ⟨principal, hprincipal, -⟩
      cases hprincipal

/-- **What a wallet sees is the same in two histories**: the coupling of two runs of the exports,
from databases that agree for the wallet. -/
def isolation (cs : ComplianceService) {w : String} (hne : w ≠ "") :
    Coupling (exportService cs) (fun p m => PresentsNoAdmin w m ∧ FreshId p m)
      (AgreeInvoices w) where
  Inv s₁ s₂ := AgreeFor w s₁ s₂ ∧ OwnJobs w s₁
  At := Related cs w
  start hok _ _ := related_start hok.1
  step := by
    intro p₁ p₂ k c i q₁ q₂ hok₁ hok₂ hk₁ hk₂ ⟨hagree, hown⟩ hrelated r₁ r₂
    have hstep : StaysAlike w p₁.state p₂.state r₁.2 r₂.2 ∧
        Related cs w i r₁.1 r₂.1 r₁.2 r₂.2 := by
      cases hrelated with
      | own h => exact own_advance (k := k) h hagree hown (hok₁.2 _ hk₁) (hok₂.2 _ hk₂)
      | opening id => exact opening_advance hne hagree hown id k c
      | foreign h h₁ h₂ =>
        obtain ⟨hagree₁, hgrows₁, hrest₁⟩ := foreign_advance k c h₁
        obtain ⟨hagree₂, hgrows₂, hrest₂⟩ := foreign_advance k c h₂
        exact ⟨⟨(hagree₁.symm.trans hagree).trans hagree₂, hown.of_agree hagree₁, hgrows₁,
          hgrows₂⟩, .foreign h hrest₁ hrest₂⟩
    obtain ⟨hstays, hrest⟩ := hstep
    exact ⟨⟨hstays.agree, hstays.own⟩, hrest,
      fun i' q q' h => h.mono hstays.grows₁ hstays.grows₂⟩
  environ := by
    intro o₁ o₂ s₁ s₂ hout ⟨hagree, hown⟩
    refine ⟨⟨⟨hout, hagree.jobs⟩, hown⟩, fun i q q' h => h.mono ?_ ?_⟩
    · exact fun job hjob => ⟨job, hjob, rfl, rfl⟩
    · exact fun job hjob => ⟨job, hjob, rfl, rfl⟩

/-- Moves that belong together present the same tokens. -/
theorem presentsNoAdmin_of_same {ms₁ ms₂ : List (Move ExportCall Choice InvoiceTable)}
    (hms : List.Forall₂ (SameMove (AgreeInvoices w)) ms₁ ms₂)
    (h : ∀ m ∈ ms₁, PresentsNoAdmin w m) : ∀ m ∈ ms₂, PresentsNoAdmin w m := by
  induction hms with
  | nil => exact h
  | cons hm _ ih =>
    rw [List.forall_mem_cons] at h ⊢
    refine ⟨?_, ih h.2⟩
    cases hm with
    | start call => exact h.1
    | resume k c => trivial
    | environ hout => trivial

/-- **Compliance exports leak nothing across wallets.** Take two databases, and two histories from
them with the same requests, jobs and choices of the outside, in which the invoices change in any
way; the databases and the invoices agree on what is of the wallet. If the wallet never presents the
token of an admin, its requests have the same results in both, at every point. -/
theorem exports_isolated (cs : ComplianceService) {w : String} {s₁ s₂ : ExportStore}
    (hserved : Served w s₁) (hagree : AgreeFor w s₁ s₂)
    {ms₁ ms₂ : List (Move ExportCall Choice InvoiceTable)}
    (hms : List.Forall₂ (SameMove (AgreeInvoices w)) ms₁ ms₂)
    (hadmin : ∀ m ∈ ms₁, PresentsNoAdmin w m)
    (hfresh₁ : ∀ t ∈ ((exportService cs).machine s₁).trace ⟨s₁, []⟩ ms₁, FreshId t.pre t.input)
    (hfresh₂ : ∀ t ∈ ((exportService cs).machine s₂).trace ⟨s₂, []⟩ ms₂, FreshId t.pre t.input)
    {call : Call ExportCall Act Act.Answer Error Response} (hcall : call.input.IsOf w) (k : Nat) :
    (((exportService cs).machine s₁).exec ⟨s₁, []⟩ ms₁).calls[k]? = some call ↔
      (((exportService cs).machine s₂).exec ⟨s₂, []⟩ ms₂).calls[k]? = some call := by
  have hne : w ≠ "" := by
    obtain ⟨principal, hprincipal, rfl⟩ := hcall
    exact ne_of_requester hprincipal
  have hadmin₂ := presentsNoAdmin_of_same hms hadmin
  have hholds := (isolation cs hne).exec ((isolation cs hne).holds_nil ⟨hagree, hserved.ownJobs⟩)
    hms (fun t ht => ⟨hadmin _ (Machine.input_mem_of_mem_trace ht), hfresh₁ t ht⟩)
    fun t ht => ⟨hadmin₂ _ (Machine.input_mem_of_mem_trace ht), hfresh₂ t ht⟩
  exact hholds.get_iff fun h => Related.eq h hcall

/-- An invoice that an investor has funded. -/
def investedInvoice (id : Int) (farmer investor : String) : Invoice where
  id := id
  onchainId := id
  status := .funded
  faceValue := 10000000
  farmer := farmer
  buyerId := "buyer"
  investor := some investor
  funder := none
  discountPercentage := none
  settledLedger := none
  settledAt := none
  fundedAmount := none
  fundedAt := none
  fundedTxHash := none
  repaidAmount := none
  assetCode := none
  createdAt := 0
  updatedAt := 0

/-- A wallet enqueues a report and downloads it, and asks for the job of an admin, which only the
second database holds; the first one holds the invoice of another investor. -/
theorem exports_isolated_download :
    let cs : ComplianceService := ⟨⟨⟨"USDC", 7⟩, "1000"⟩, fun _ => none,
      fun content => ⟨"sha256", content, "ed25519", "signature", "key"⟩⟩
    let adminJob : ExportJob := NewExportJob.create
      ⟨.transactions, .csv, "GADMIN", "admin", none, some "0", none, none⟩ "all" 0
    let s₁ : ExportStore :=
      ⟨⟨[investedInvoice 1 "GFARMER" "GUSER", investedInvoice 2 "GFARMER" "GOTHER"], by decide,
        by decide⟩, ⟨[], List.nodup_nil⟩⟩
    let s₂ : ExportStore :=
      ⟨⟨[investedInvoice 1 "GFARMER" "GUSER"], List.nodup_singleton _, List.nodup_singleton _⟩,
        ⟨[adminJob], List.nodup_singleton _⟩⟩
    let user : JwtPayload := ⟨some "2", some "GUSER", some "Investor"⟩
    let c : Choice := ⟨none, 5, "report"⟩
    let enqueue : ExportCall := .request user (.enqueueInvestorReportExport
      ⟨some "csv", none, none, none, none⟩)
    let ms : List (Move ExportCall Choice InvoiceTable) :=
      [.start enqueue, .resume 0 c, .start (.process "report"), .resume 1 c, .resume 1 c,
        .resume 1 c, .resume 1 c, .resume 1 c, .resume 1 c, .resume 1 c,
        .start (.request user (.downloadJob "report")), .resume 2 c, .resume 2 c,
        .start (.request user (.getJob "all")), .resume 3 c]
    let p₁ := ((exportService cs).machine s₁).exec ⟨s₁, []⟩ ms
    let p₂ := ((exportService cs).machine s₂).exec ⟨s₂, []⟩ ms
    (∃ call, p₁.calls[2]? = some call ∧ p₂.calls[2]? = some call ∧
      call.result?.isSome = true) ∧
    ∃ call, p₁.calls[3]? = some call ∧ p₂.calls[3]? = some call ∧
      call.result?.isSome = true := by
  intro cs adminJob s₁ s₂ user c enqueue ms p₁ p₂
  have hagree : AgreeFor "GUSER" s₁ s₂ := by
    refine ⟨fun r hr => ⟨fun h => ?_, fun h => ?_⟩, fun job hby => ⟨nofun, fun h => ?_⟩⟩
    · rcases List.mem_cons.1 h with rfl | h
      · exact .head _
      · rw [List.mem_singleton.1 h] at hr
        exact absurd hr (by decide)
    · rw [List.mem_singleton.1 h]
      exact .head _
    · rw [List.mem_singleton.1 h] at hby
      exact absurd hby (by decide)
  have hserved : Served "GUSER" s₁ := ⟨cs, s₁, [], rfl, List.forall_mem_nil _, rfl⟩
  have hisolated := @exports_isolated cs "GUSER" s₁ s₂ hserved hagree ms ms
    (List.forall₂_same.2 fun m _ => .refl (fun _ _ _ => .rfl) m) (by decide +kernel)
    (by decide +kernel) (by decide +kernel)
  have hsome : ∀ k ∈ [2, 3], (p₁.calls[k]?).isSome = true := by decide +kernel
  have hcalls : ∀ k ∈ [2, 3], ∀ call ∈ p₁.calls[k]?,
      call.input.requester = some ⟨"2", "GUSER", "investor"⟩ ∧ call.result?.isSome = true := by
    decide +kernel
  have hsame : ∀ k ∈ [2, 3], ∃ call, p₁.calls[k]? = some call ∧ p₂.calls[k]? = some call ∧
      call.result?.isSome = true := by
    intro k hk
    obtain ⟨call, hcall⟩ := Option.isSome_iff_exists.1 (hsome k hk)
    obtain ⟨hof, hended⟩ := hcalls k hk call hcall
    exact ⟨call, hcall, (hisolated ⟨_, hof, rfl⟩ k).1 hcall, hended⟩
  exact ⟨hsame 2 (.head _), hsame 3 (.tail _ (.head _))⟩

end Compliance

end Backend

end InvoiceFi
