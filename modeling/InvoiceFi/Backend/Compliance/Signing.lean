import InvoiceFi.Backend.Compliance.Queued
import InvoiceFi.Lib.Base64
import InvoiceFi.Lib.Guarantee
import InvoiceFi.Lib.Utf8

/-!
# Signed documents (`compliance/signing.ts`, `compliance/export-signing.service.ts`)

An export comes with the digest of its bytes and a signature of the server. The row of a job holds
them beside the document, and several processings of one job may write it in any order; the server
may also be restarted, with another key if none is configured. Yet what a row holds is always one
document with its own proof (`Sealed`), since an update writes all of them at once. So every
document that is handed out verifies, and its proof verifies another document only where SHA-256
collides on the two (`documents_verify`).

Digests, and the keys and the signatures of the Stellar SDK, are a parameter, with the hypothesis
that a signature verifies with the public key of its signer. Nothing is assumed of collisions.
-/

namespace InvoiceFi

namespace Backend

namespace Compliance

/-! ## Digests and signatures (`compliance/signing.ts`) -/

/-- What `crypto`, `Buffer` and the `Keypair` of the Stellar SDK compute. -/
structure SigningRuntime where
  Keypair : Type
  /-- `createHash('sha256').update(bytes).digest('hex')`. -/
  sha256 : List UInt8 → String
  /-- `Buffer.from(text, 'base64')`. -/
  fromBase64 : List Char → List UInt8
  /-- `Keypair.fromSecret`, which throws for a malformed secret. -/
  fromSecret : String → Except String Keypair
  publicKey : Keypair → String
  sign : Keypair → List UInt8 → List UInt8
  /-- `Keypair.fromPublicKey(key).verify(bytes, signature)`, either of which may throw. -/
  verify : String → List UInt8 → List UInt8 → Except String Bool

/-- A signature is read back from its text, and it verifies with the public key of the signer. None
of the texts is empty. -/
structure SigningRuntime.Lawful (rt : SigningRuntime) : Prop where
  sha256_ne_empty : ∀ bytes, rt.sha256 bytes ≠ ""
  fromBase64_encode : ∀ bytes : List UInt8, rt.fromBase64 (Base64.encode bytes) = bytes
  publicKey_ne_empty : ∀ key, rt.publicKey key ≠ ""
  sign_ne_nil : ∀ key bytes, rt.sign key bytes ≠ []
  verify_sign : ∀ key bytes, rt.verify (rt.publicKey key) bytes (rt.sign key bytes) = .ok true

/-- `toBuffer`, for a text. -/
def toBuffer (data : String) : List UInt8 := Utf8.encode data.toList

namespace SigningRuntime

variable (rt : SigningRuntime)

/-- `sha256Hex`. -/
def sha256Hex (data : String) : String := rt.sha256 (toBuffer data)

/-- `signContent`. -/
def signContent (keypair : rt.Keypair) (data : String) : IntegrityProof where
  digestAlgorithm := "sha256"
  sha256 := rt.sha256Hex data
  signatureAlgorithm := "ed25519"
  signature := String.ofList (Base64.encode (rt.sign keypair (toBuffer data)))
  signerPublicKey := rt.publicKey keypair

/-- `verifyContent`. -/
def verifyContent (signerPublicKey data : String) (proof : IntegrityProof) : Bool :=
  if rt.sha256Hex data ≠ proof.sha256 then false
  else
    match rt.verify signerPublicKey (toBuffer data) (rt.fromBase64 proof.signature.toList) with
    | .ok valid => valid
    | .error _ => false

/-- `LoadedSigningKey`. -/
structure LoadedSigningKey where
  keypair : rt.Keypair
  ephemeral : Bool

/-- `loadSigningKey`, where `random` is the key that `Keypair.random` draws. -/
def loadSigningKey (configuredSecret : Option String) (random : rt.Keypair) :
    Except String rt.LoadedSigningKey :=
  match nonempty (configuredSecret.map fun secret => String.ofList (trim secret.toList)) with
  | some secret => (rt.fromSecret secret).map fun keypair => ⟨keypair, false⟩
  | none => .ok ⟨random, true⟩

end SigningRuntime

/-- Two texts of different bytes have the same digest. -/
structure SigningRuntime.Collide (rt : SigningRuntime) (content content' : String) : Prop where
  bytes : toBuffer content ≠ toBuffer content'
  digest : rt.sha256Hex content = rt.sha256Hex content'

/-- The digest and the signature of a text, and of no other on which SHA-256 does not collide. -/
structure Proves (rt : SigningRuntime) (keys : List rt.Keypair) (content : String)
    (proof : IntegrityProof) : Prop where
  signed : ∃ key ∈ keys, proof = rt.signContent key content
  verifies : rt.verifyContent proof.signerPublicKey content proof = true
  unique : ∀ signer content', rt.verifyContent signer content' proof = true →
    content' = content ∨ rt.Collide content' content

section
variable {rt : SigningRuntime} {keys : List rt.Keypair}

theorem toBuffer_injective : Function.Injective toBuffer := by
  intro text text' h
  have hlist := congrArg Utf8.decode h
  rw [toBuffer, toBuffer, Utf8.decode_encode, Utf8.decode_encode] at hlist
  exact String.toList_inj.1 hlist

/-- What verifies has the digest of the proof. -/
theorem verifyContent_digest {signer content : String} {proof : IntegrityProof}
    (h : rt.verifyContent signer content proof = true) : rt.sha256Hex content = proof.sha256 := by
  by_contra hne
  rw [SigningRuntime.verifyContent, if_pos hne] at h
  cases h

/-- **A proof that is signed verifies its text**, and no other but a collision, whoever is said to
have signed. -/
theorem proves_signContent (hrt : rt.Lawful) {key : rt.Keypair} (hkey : key ∈ keys)
    (content : String) : Proves rt keys content (rt.signContent key content) where
  signed := ⟨key, hkey, rfl⟩
  verifies := by
    have hsignature : rt.fromBase64 (rt.signContent key content).signature.toList =
        rt.sign key (toBuffer content) := by
      rw [SigningRuntime.signContent, String.toList_ofList, hrt.fromBase64_encode]
    have hdigest : ¬ rt.sha256Hex content ≠ (rt.signContent key content).sha256 := fun h => h rfl
    rw [SigningRuntime.verifyContent, if_neg hdigest, hsignature, SigningRuntime.signContent,
      hrt.verify_sign]
  unique := by
    intro signer content' h
    have hdigest : rt.sha256Hex content' = rt.sha256Hex content := verifyContent_digest h
    rcases eq_or_ne content' content with heq | hne
    · exact .inl heq
    · exact .inr ⟨toBuffer_injective.ne hne, hdigest⟩

theorem nonempty_some {text : String} (h : text ≠ "") : nonempty (some text) = some text := by
  rw [nonempty, Option.filter_some, if_pos (decide_eq_true h)]

/-- The text of a signature is not empty. -/
theorem signature_ne_empty (hrt : rt.Lawful) (key : rt.Keypair) (content : String) :
    (rt.signContent key content).signature ≠ "" := by
  intro h
  have htext : Base64.encode (rt.sign key (toBuffer content)) = Base64.encode [] := by
    have hlist := congrArg String.toList h
    rw [SigningRuntime.signContent, String.toList_ofList] at hlist
    exact hlist
  have hbytes := congrArg rt.fromBase64 htext
  rw [hrt.fromBase64_encode, hrt.fromBase64_encode] at hbytes
  exact hrt.sign_ne_nil key _ hbytes

theorem Proves.mono {keys' : List rt.Keypair} {content : String} {proof : IntegrityProof}
    (h : Proves rt keys content proof) (hkeys : ∀ key ∈ keys, key ∈ keys') :
    Proves rt keys' content proof where
  signed :=
    have ⟨key, hkey, hproof⟩ := h.signed
    ⟨key, hkeys key hkey, hproof⟩
  verifies := h.verifies
  unique := h.unique

/-! ## What the exports guarantee -/

/-- The document has its size and its proof, signed with one of the keys. -/
structure Signed (keys : List rt.Keypair) (document : InlineExport) : Prop where
  byteLength : document.byteLength = document.content.utf8ByteSize
  integrity : ∃ key ∈ keys, document.integrity = rt.signContent key document.content

/-- If the job is completed, its row holds what one update has written: a document with its size
and its proof. -/
def Sealed (keys : List rt.Keypair) (job : ExportJob) : Prop :=
  job.status = .completed → ∃ job₀ completedAt document,
    Signed keys document ∧ job = (JobUpdate.completed completedAt document).apply job₀

/-- A job is completed with signed documents only. -/
def Writes (keys : List rt.Keypair) : Act → Prop
  | .updateJob _ (.completed _ document) => Signed keys document
  | _ => True

/-- The jobs that are found are sealed. -/
def Reads (keys : List rt.Keypair) : (a : Act) → Except Error a.Answer → Prop
  | .findJob _, r => Async.Returns (fun found => ∀ job ∈ found, Sealed keys job) r
  | .createJob _, r => Async.Returns (Sealed keys) r
  | .now, _ | .findInvoices _, _ | .updateJob .., _ => True

/-- The summary shows a proof if, and only if, the job is completed, and it is one of a text that
was signed. -/
structure ShowsProof (keys : List rt.Keypair) (job : JobSummary) : Prop where
  completed : job.integrity.isSome = true ↔ job.status = .completed
  signed : ∀ proof ∈ job.integrity, ∃ key ∈ keys, ∃ content, proof = rt.signContent key content

/-- What the calls return. -/
def Vouches (keys : List rt.Keypair) : Response → Prop
  | .exported document => Signed keys document
  | .summary job => ShowsProof keys job
  | .processed => True

/-- The program completes jobs with signed documents only, and returns what it promises, as long as
the jobs it finds are sealed. -/
abbrev Guards {α : Type} (keys : List rt.Keypair) (P : α → Prop) (p : Task α) : Prop :=
  p.Keeps (Writes keys) (Reads keys) (Async.Returns P)

variable {cs : ComplianceService} {key : rt.Keypair} {α β : Type} {P : α → Prop} {Q : β → Prop}

theorem guards_bind {p : Task α} {f : α → Task β} (hp : Guards keys P p)
    (hf : ∀ a, P a → Guards keys Q (f a)) : Guards keys Q (p >>= f) :=
  Async.Keeps.bind_returns hp hf

theorem guards_ofExcept {x : Except Error α} {f : α → Task β} (hf : ∀ a, Guards keys Q (f a)) :
    Guards keys Q (ofExcept x >>= f) :=
  Async.Keeps.ofExcept_bind_returns fun a _ => hf a

/-- An action whose answer does not matter. -/
theorem guards_act {a : Act} (h : Writes keys a) : Guards keys (fun _ => True) (act a) :=
  Async.keeps_perform h fun r _ => by cases r <;> trivial

theorem guards_filenameFor (type : ExportType) (format : ExportFormat) (subject : Option String) :
    Guards keys (fun _ => True) (filenameFor type format subject) :=
  guards_bind (guards_act trivial) fun _ _ => trivial

theorem guards_render (format : ExportFormat) (csv : String) (json : Nat → Json) :
    Guards keys (fun _ => True) (render format csv json) := by
  unfold render
  split
  · trivial
  · exact guards_bind (guards_act trivial) fun _ _ => trivial

/-- What is finalized is signed. -/
theorem signed_finalize (hsign : cs.sign = rt.signContent key) (hkey : key ∈ keys)
    (content contentType : String) (recordCount : Nat) (filename : String) :
    Signed keys (cs.finalize content contentType recordCount filename) :=
  ⟨rfl, key, hkey, congrFun hsign content⟩

theorem guards_renderExport (hsign : cs.sign = rt.signContent key) (hkey : key ∈ keys)
    (e : Export) : Guards keys (Signed keys) (cs.renderExport e) := by
  refine guards_bind (guards_render e.format e.csv e.json) ?_
  rintro ⟨content, contentType⟩ -
  refine guards_bind (guards_filenameFor e.type e.format e.subject) fun filename _ => ?_
  exact signed_finalize hsign hkey content contentType e.recordCount filename

theorem guards_buildTransactionsExport (hsign : cs.sign = rt.signContent key) (hkey : key ∈ keys)
    (params : TransactionParams) :
    Guards keys (Signed keys) (cs.buildTransactionsExport params) := by
  rw [buildTransactionsExport_eq]
  exact guards_bind (guards_act trivial) fun invoices _ => guards_renderExport hsign hkey _

theorem guards_buildInvestorExport (hsign : cs.sign = rt.signContent key) (hkey : key ∈ keys)
    (params : InvestorParams) : Guards keys (Signed keys) (cs.buildInvestorExport params) := by
  rw [buildInvestorExport_eq]
  exact guards_bind (guards_act trivial) fun invoices _ => guards_renderExport hsign hkey _

theorem guards_buildJob (hsign : cs.sign = rt.signContent key) (hkey : key ∈ keys)
    (job : ExportJob) : Guards keys (Signed keys) (cs.buildJob job) := by
  unfold ComplianceService.buildJob
  split
  · exact guards_ofExcept fun threshold => guards_buildTransactionsExport hsign hkey _
  · exact guards_buildInvestorExport hsign hkey _

/-- The processing of a job completes it with the document that it has built. -/
theorem guards_processPending (hsign : cs.sign = rt.signContent key) (hkey : key ∈ keys)
    (job : ExportJob) : Guards keys (fun _ => True) (cs.processPending job) := by
  refine guards_bind (guards_act trivial) fun startedAt _ => ?_
  refine guards_bind (guards_act trivial) fun _ _ => ?_
  refine Async.Keeps.tryCatch (?_ : Guards keys (fun _ => True) _) (fun _ _ => trivial)
    fun err _ => ?_
  · refine guards_bind (guards_buildJob hsign hkey job) fun document hdocument => ?_
    exact guards_bind (guards_act trivial) fun completedAt _ => guards_act hdocument
  · exact guards_bind (guards_act trivial) fun completedAt _ => guards_act trivial

/-! ### What is shown of a job -/

/-- A completed job shows the proof of its document. -/
theorem jobIntegrity_completed (hrt : rt.Lawful) (job : ExportJob) (completedAt : Nat)
    {document : InlineExport} (h : document.integrity = rt.signContent key document.content) :
    jobIntegrity ((JobUpdate.completed completedAt document).apply job) =
      some (rt.signContent key document.content) := by
  have hsha : nonempty (some (rt.signContent key document.content).sha256) = _ :=
    nonempty_some (hrt.sha256_ne_empty _)
  have hsignature := nonempty_some (signature_ne_empty hrt key document.content)
  have hpublic : nonempty (some (rt.signContent key document.content).signerPublicKey) = _ :=
    nonempty_some (hrt.publicKey_ne_empty key)
  simp only [jobIntegrity, JobUpdate.apply, h, hsha, hsignature, hpublic]
  rfl

/-- A job that is not completed shows no proof. -/
theorem jobIntegrity_not_completed {job : ExportJob} (h : job.status ≠ .completed) :
    jobIntegrity job = none := by
  simp only [jobIntegrity, if_pos h]

theorem showsProof_of_sealed (hrt : rt.Lawful) {job : ExportJob} (h : Sealed keys job) :
    ShowsProof keys (toJobSummary job) := by
  by_cases hstatus : job.status = .completed
  · obtain ⟨job₀, completedAt, document, ⟨-, key, hkey, hproof⟩, rfl⟩ := h hstatus
    have hshown := jobIntegrity_completed hrt job₀ completedAt hproof
    refine ⟨⟨fun _ => hstatus, fun _ => Option.isSome_iff_exists.2 ⟨_, hshown⟩⟩, ?_⟩
    intro proof hmem
    obtain rfl := Option.some.inj (hshown.symm.trans hmem)
    exact ⟨key, hkey, document.content, rfl⟩
  · have hshown := jobIntegrity_not_completed hstatus
    refine ⟨⟨fun h => ?_, fun h => absurd h hstatus⟩, fun proof hmem => ?_⟩
    · obtain ⟨proof, hproof⟩ := Option.isSome_iff_exists.1 h
      cases hshown.symm.trans hproof
    · cases hshown.symm.trans hmem

/-- The download of a sealed job is a signed document. -/
theorem guards_jobDocument (jobId : String) {job : ExportJob} (h : Sealed keys job) :
    Guards keys (Signed keys) (jobDocument jobId job) := by
  unfold jobDocument
  split
  · next content hstatus hcontent =>
    obtain ⟨job₀, completedAt, document, hsigned, rfl⟩ := h hstatus
    obtain rfl : document.content = content := by
      rw [JobUpdate.apply, nonempty, Option.filter_some] at hcontent
      split at hcontent
      · exact Option.some.inj hcontent
      · cases hcontent
    refine guards_bind (guards_filenameFor _ _ _) fun filename _ => ?_
    obtain ⟨hlength, key, hkey, hproof⟩ := hsigned
    refine ⟨hlength, key, hkey, ?_⟩
    simp only [JobUpdate.apply, hproof]
    rfl
  · trivial

theorem guards_loadAuthorizedJob (principal : Principal) (jobId : String) :
    Guards keys (Sealed keys) (loadAuthorizedJob principal jobId) := by
  refine guards_bind (P := fun found => ∀ job ∈ found, Sealed keys job)
    (Async.keeps_perform trivial fun _ h => h) fun found hfound => ?_
  cases found with
  | none => trivial
  | some job =>
    simp only [authorizedJob]
    split
    · trivial
    · exact hfound job rfl

/-- The creation of a job. -/
theorem guards_createJob (hrt : rt.Lawful) (data : NewExportJob) :
    Guards keys (ShowsProof keys)
      (act (.createJob data) >>= fun job => (pure (toJobSummary job) : Task JobSummary)) :=
  guards_bind (P := Sealed keys) (Async.keeps_perform trivial fun _ h => h)
    fun _ hjob => showsProof_of_sealed hrt hjob

/-- The requests of a principal. -/
theorem guards_serve (hrt : rt.Lawful) (hsign : cs.sign = rt.signContent key) (hkey : key ∈ keys)
    (principal : Principal) (operation : Operation) :
    Guards keys (Vouches keys) (cs.serve principal operation) := by
  cases operation with
  | exportTransactionsInline query =>
    refine guards_bind (P := Signed keys) ?_ fun _ h => h
    exact guards_ofExcept fun params => guards_buildTransactionsExport hsign hkey params
  | exportInvestorReportInline query =>
    refine guards_bind (P := Signed keys) ?_ fun _ h => h
    exact guards_ofExcept fun params => guards_buildInvestorExport hsign hkey params
  | enqueueTransactionsExport query =>
    refine guards_bind (P := ShowsProof keys) ?_ fun _ h => h
    exact guards_ofExcept fun params => guards_createJob hrt _
  | enqueueInvestorReportExport query =>
    refine guards_bind (P := ShowsProof keys) ?_ fun _ h => h
    exact guards_ofExcept fun params => guards_createJob hrt _
  | getJob jobId =>
    refine guards_bind (P := ShowsProof keys) ?_ fun _ h => h
    exact guards_bind (guards_loadAuthorizedJob principal jobId)
      fun job hjob => showsProof_of_sealed hrt hjob
  | downloadJob jobId =>
    refine guards_bind (P := Signed keys) ?_ fun _ h => h
    exact guards_bind (guards_loadAuthorizedJob principal jobId)
      fun job hjob => guards_jobDocument jobId hjob

/-- Every call keeps the guarantees. -/
theorem guards_main (hrt : rt.Lawful) (hsign : cs.sign = rt.signContent key) (hkey : key ∈ keys)
    (call : ExportCall) : Guards keys (Vouches keys) (cs.main call) := by
  cases call with
  | request payload operation =>
    exact guards_ofExcept fun principal => guards_serve hrt hsign hkey principal operation
  | process jobId =>
    refine guards_bind (P := fun _ => True) ?_ fun _ _ => trivial
    refine guards_bind (guards_act trivial) fun found _ => ?_
    cases found with
    | none => trivial
    | some job =>
      dsimp only
      split
      · trivial
      · exact guards_processPending hsign hkey job

/-! ### Steps -/

/-- The jobs of a database are sealed. -/
def AllSealed (keys : List rt.Keypair) (s : ExportStore) : Prop :=
  ∀ job ∈ s.jobs.rows, Sealed keys job

/-- A job that is updated stays sealed. -/
theorem sealed_updated {id : String} {u : JobUpdate} (hwrites : Writes keys (.updateJob id u))
    {job : ExportJob} (h : Sealed keys job) : Sealed keys (updated id u job) := by
  unfold updated
  split
  · cases u with
    | processing startedAt => exact nofun
    | failed completedAt error => exact nofun
    | completed completedAt document => exact fun _ => ⟨job, completedAt, document, hwrites, rfl⟩
  · exact h

/-- A step keeps the jobs sealed. -/
theorem allSealed_perform (k : Nat) {a : Act} (c : Choice) {s : ExportStore}
    (hwrites : Writes keys a) (h : AllSealed keys s) : AllSealed keys (perform k a c s).2 := by
  rcases perform_cases k a c s with hs | ⟨data, rfl, -, hrows⟩ | ⟨id, u, rfl, -, hrows⟩
  · rw [hs]
    exact h
  · intro job hjob
    rw [hrows, List.mem_append, List.mem_singleton] at hjob
    rcases hjob with hjob | rfl
    · exact h job hjob
    · exact nofun
  · intro job hjob
    rw [hrows] at hjob
    obtain ⟨job', hjob', rfl⟩ := List.mem_map.1 hjob
    exact sealed_updated hwrites (h job' hjob')

/-- The jobs that a step finds or creates are sealed. -/
theorem reads_perform (k : Nat) (a : Act) (c : Choice) {s : ExportStore} (h : AllSealed keys s) :
    Reads keys a (perform k a c s).1 := by
  cases hthrown : c.thrown with
  | some message =>
    by_cases hnow : a = .now
    · subst hnow
      trivial
    · rw [perform_thrown hthrown hnow]
      cases a with
      | now | findInvoices | createJob | findJob | updateJob => trivial
  | none =>
    cases a with
    | now | findInvoices | updateJob => trivial
    | findJob id =>
      rw [perform_findJob hthrown]
      intro job hfound
      exact h job (JobTable.findUnique_eq_some.1 hfound).1
    | createJob data =>
      by_cases htaken : c.uuid ∈ s.jobs.rows.map ExportJob.id
      · rw [perform_createJob_taken hthrown data htaken]
        trivial
      · obtain ⟨s', hp, -, -⟩ := perform_createJob (k := k) hthrown data htaken
        rw [hp]
        change Sealed keys (data.create c.uuid c.clock)
        exact nofun

/-- The guarantee of the exports, whose server signs with one of the keys. -/
def vouching (hrt : rt.Lawful) (hsign : cs.sign = rt.signContent key) (hkey : key ∈ keys) :
    Guarantee (exportService cs) where
  Inv := AllSealed keys
  guar := Writes keys
  rely := Reads keys
  results := Async.Returns (Vouches keys)
  main := guards_main hrt hsign hkey
  perform k _ c _ hwrites h := ⟨allSealed_perform k c hwrites h, reads_perform k _ c h⟩
  environ _ _ h := h

/-! ## The lives of the server (`compliance/export-signing.service.ts`) -/

/-- What a server is started with: its settings, `COMPLIANCE_SIGNING_SECRET`, and the key that is
drawn if there is no secret. -/
structure Boot (rt : SigningRuntime) where
  config : ExportConfig
  dateOf : String → Option Int
  secret : Option String
  random : rt.Keypair

/-- `onModuleInit`. It throws if the secret is malformed, and then the server does not start. -/
def Boot.onModuleInit (boot : Boot rt) : Except String rt.Keypair :=
  (rt.loadSigningKey boot.secret boot.random).map SigningRuntime.LoadedSigningKey.keypair

/-- The service of a server that has started. -/
def Boot.service (boot : Boot rt) (keypair : rt.Keypair) : ComplianceService where
  config := boot.config
  dateOf := boot.dateOf
  sign := rt.signContent keypair

/-- The keys of some servers. -/
def keysOf (boots : List (Boot rt)) : List rt.Keypair :=
  boots.filterMap fun boot => boot.onModuleInit.toOption

/-- The database is one that these servers leave, one after the other, the last one first, if there
are no jobs at the beginning. Each of them stops at any point. -/
inductive LeftBy : List (Boot rt) → ExportStore → Prop
  | empty {s : ExportStore} (h : s.jobs.rows = []) : LeftBy [] s
  | life {boots : List (Boot rt)} {s : ExportStore} (h : LeftBy boots s) {boot : Boot rt}
      {keypair : rt.Keypair} (hboot : boot.onModuleInit = .ok keypair)
      (ms : List (Move ExportCall Choice InvoiceTable)) :
      LeftBy (boot :: boots)
        (((exportService (boot.service keypair)).machine s).exec ⟨s, []⟩ ms).state

theorem mem_keysOf {boots : List (Boot rt)} {boot : Boot rt} (hmem : boot ∈ boots)
    (h : boot.onModuleInit = .ok key) : key ∈ keysOf boots :=
  List.mem_filterMap.2 ⟨boot, hmem, by rw [h]; rfl⟩

theorem Signed.mono {keys' : List rt.Keypair} {document : InlineExport} (h : Signed keys document)
    (hkeys : ∀ key ∈ keys, key ∈ keys') : Signed keys' document :=
  have ⟨key, hkey, hproof⟩ := h.integrity
  ⟨h.byteLength, key, hkeys key hkey, hproof⟩

theorem AllSealed.mono {keys' : List rt.Keypair} {s : ExportStore} (h : AllSealed keys s)
    (hkeys : ∀ key ∈ keys, key ∈ keys') : AllSealed keys' s := by
  intro job hjob hstatus
  obtain ⟨job₀, completedAt, document, hsigned, hrow⟩ := h job hjob hstatus
  exact ⟨job₀, completedAt, document, hsigned.mono hkeys, hrow⟩

/-- The keys of one server more. -/
theorem keysOf_cons {boots : List (Boot rt)} (boot : Boot rt) :
    ∀ key ∈ keysOf boots, key ∈ keysOf (boot :: boots) := by
  intro key hkey
  obtain ⟨boot', hboot', hstarted⟩ := List.mem_filterMap.1 hkey
  exact List.mem_filterMap.2 ⟨boot', .tail _ hboot', hstarted⟩

/-- Servers with the same secret have the same key. -/
theorem keysOf_of_secret {boots : List (Boot rt)} {secret : String}
    (hsecret : ∀ boot ∈ boots, boot.secret = some secret)
    (hne : String.ofList (trim secret.toList) ≠ "") {boot : Boot rt} (hmem : boot ∈ boots)
    (hboot : boot.onModuleInit = .ok key) : ∀ key' ∈ keysOf boots, key' ∈ [key] := by
  have hkey : ∀ boot ∈ boots,
      boot.onModuleInit = rt.fromSecret (String.ofList (trim secret.toList)) := by
    intro boot hboot
    rw [Boot.onModuleInit, SigningRuntime.loadSigningKey, hsecret boot hboot, Option.map_some,
      nonempty_some hne]
    dsimp only
    cases rt.fromSecret (String.ofList (trim secret.toList)) with
    | ok keypair => rfl
    | error e => rfl
  intro key' hkey'
  obtain ⟨boot', hboot', hstarted⟩ := List.mem_filterMap.1 hkey'
  rw [hkey boot' hboot', ← hkey boot hmem, hboot] at hstarted
  cases hstarted
  exact .head _

/-- The jobs are sealed whatever the lives of the server. -/
theorem LeftBy.allSealed (hrt : rt.Lawful) {boots : List (Boot rt)} {s : ExportStore}
    (h : LeftBy boots s) : AllSealed (keysOf boots) s := by
  induction h with
  | empty h =>
    intro job hjob
    rw [h] at hjob
    cases hjob
  | @life boots s h boot keypair hboot ms ih =>
    have hinv : AllSealed (keysOf (boot :: boots)) s := ih.mono (keysOf_cons boot)
    exact ((vouching hrt rfl (mem_keysOf (.head _) hboot)).exec hinv ms).1

/-- A document that is returned has its size and a proof, and the summary of a job shows a proof
if, and only if, the job is completed. -/
def Verifiable (keys : List rt.Keypair) : Response → Prop
  | .exported document =>
    document.byteLength = document.content.utf8ByteSize ∧
      Proves rt keys document.content document.integrity
  | .summary job =>
    (job.integrity.isSome = true ↔ job.status = .completed) ∧
      ∀ proof ∈ job.integrity, ∃ content, Proves rt keys content proof
  | .processed => True

theorem Vouches.mono {keys' : List rt.Keypair} {response : Response} (h : Vouches keys response)
    (hkeys : ∀ key ∈ keys, key ∈ keys') : Vouches keys' response := by
  cases response with
  | exported document => exact Signed.mono h hkeys
  | summary job =>
    refine ⟨h.completed, fun proof hmem => ?_⟩
    obtain ⟨key, hkey, hsigned⟩ := h.signed proof hmem
    exact ⟨key, hkeys key hkey, hsigned⟩
  | processed => trivial

theorem Vouches.verifiable (hrt : rt.Lawful) {response : Response} (h : Vouches keys response) :
    Verifiable keys response := by
  cases response with
  | exported document =>
    obtain ⟨hlength, key, hkey, hproof⟩ := h
    refine ⟨hlength, ?_⟩
    rw [hproof]
    exact proves_signContent hrt hkey document.content
  | summary job =>
    refine ⟨h.completed, fun proof hmem => ?_⟩
    obtain ⟨key, hkey, content, rfl⟩ := h.signed proof hmem
    exact ⟨content, proves_signContent hrt hkey content⟩
  | processed => trivial

/-- **Every document that is handed out verifies.** Let servers run one after the other, each with
the key of its secret or one that is drawn, and each stopped at any point, while requests and
processings of jobs are interleaved and the database throws as it likes. Every document that is
returned, at once or as the download of a job, comes with its size and with the digest and the
signature of its own text by the key of a server so far, which verify that text, and another one
only if SHA-256 collides on the two; and the summary of a job shows such a proof if, and only if,
the job is completed. If all servers have the same secret, every signature is by the one key of that
secret. -/
theorem documents_verify (hrt : rt.Lawful) {boots : List (Boot rt)} {s : ExportStore}
    (h : LeftBy boots s) {boot : Boot rt} {keypair : rt.Keypair}
    (hboot : boot.onModuleInit = .ok keypair) (ms : List (Move ExportCall Choice InvoiceTable))
    {k : Nat} {call : ExportCall} {response : Response}
    (hcall : (((exportService (boot.service keypair)).machine s).exec ⟨s, []⟩ ms).calls[k]? =
      some ⟨call, .done (.ok response)⟩) :
    Verifiable (keysOf (boot :: boots)) response ∧
    ∀ secret, (∀ boot' ∈ boot :: boots, boot'.secret = some secret) →
      String.ofList (trim secret.toList) ≠ "" → Verifiable [keypair] response := by
  have hinv : AllSealed (keysOf (boot :: boots)) s := (h.allSealed hrt).mono (keysOf_cons boot)
  have hkey : keypair ∈ keysOf (boot :: boots) := mem_keysOf (.head _) hboot
  have hvouches : Vouches (keysOf (boot :: boots)) response :=
    ((@vouching _ _ (boot.service keypair) _ hrt rfl hkey).exec hinv ms).2 k call _ hcall
  refine ⟨hvouches.verifiable hrt, fun secret hsecret hne => ?_⟩
  exact (hvouches.mono (keysOf_of_secret hsecret hne (.head _) hboot)).verifiable hrt

end

/-! ### A signed report -/

/-- The report of an investor without invoices. -/
def emptyReport : String := toCsv investorPositionFields []

/-- A secret, and its public key. -/
def sampleSecret : String := "SAAACAQDAQCQMBYIBEFAWDANBYHRAEISCMKBKFQXDAMRUGY4DUPB6NKI"

def samplePublicKey : String := "GAB2CB576PHBBPQ5ODORRZ2LYCMWPZGWGCN2KDK7DXOIMZASKUY3QZ6Q"

def publicKeyOf (secret : String) : String :=
  if secret = sampleSecret then samplePublicKey else "G" ++ secret

theorem publicKeyOf_ne_empty (secret : String) : publicKeyOf secret ≠ "" := by
  intro h
  have hlist := congrArg String.toList h
  unfold publicKeyOf at hlist
  split at hlist
  · exact absurd hlist (by decide)
  · rw [String.toList_append] at hlist
    exact absurd hlist (List.cons_ne_nil _ _)

/-- The signature of the report, and a stand-in for those of other keys and texts. -/
def sampleSignature (publicKey : String) (bytes : List UInt8) : List UInt8 :=
  if publicKey = samplePublicKey ∧ bytes = toBuffer emptyReport then
    Base64.decode ("7A66/2U6iFeRo38wi84nn1bmna4ig1V77JyJNKcElWoRqrkyGGQyFIh2cup4DPnyrsq68Fh+Pm" ++
      "TSPKe8+QLaCA==").toList
  else 0 :: bytes

theorem sampleSignature_ne_nil (publicKey : String) (bytes : List UInt8) :
    sampleSignature publicKey bytes ≠ [] := by
  unfold sampleSignature
  split
  · decide +kernel
  · exact List.cons_ne_nil _ _

/-- A runtime with the digest of the report, and a stand-in for those of other texts. -/
def sampleRuntime : SigningRuntime where
  Keypair := String
  sha256 bytes :=
    if bytes = toBuffer emptyReport then
      "a31d64630b782e68f02f3fb49a6237a80617839542ee6ac5c25a86592f12993e"
    else "-" ++ String.ofList (Base64.encode bytes)
  fromBase64 := Base64.decode
  fromSecret secret := if secret.length = 56 then .ok secret else .error "invalid encoded string"
  publicKey := publicKeyOf
  sign secret := sampleSignature (publicKeyOf secret)
  verify publicKey bytes signature := .ok (decide (signature = sampleSignature publicKey bytes))

instance : DecidableEq sampleRuntime.Keypair := inferInstanceAs (DecidableEq String)

theorem sampleRuntime_lawful : sampleRuntime.Lawful where
  sha256_ne_empty := by
    intro bytes h
    have hlist := congrArg String.toList h
    simp only [sampleRuntime] at hlist
    split at hlist <;> simp at hlist
  fromBase64_encode := Base64.decode_encode
  publicKey_ne_empty := publicKeyOf_ne_empty
  sign_ne_nil key bytes := sampleSignature_ne_nil _ bytes
  verify_sign := by
    intro key bytes
    simp only [sampleRuntime, decide_true]

/-- The request has been answered with a document of this text. -/
def handedOut (content : String) : Task Response → Bool
  | .done (.ok (.exported document)) => document.content = content
  | _ => false

/-- A server processes the job of an investor and stops; the next one hands the report out. -/
theorem documents_verify_download :
    let boot : Boot sampleRuntime :=
      ⟨⟨⟨"USDC", 7⟩, "1000"⟩, fun _ => none, some (sampleSecret ++ " "), "other"⟩
    let sv := exportService (boot.service sampleSecret)
    let s₀ : ExportStore := ⟨⟨[], List.nodup_nil, List.nodup_nil⟩, ⟨[], List.nodup_nil⟩⟩
    let user : JwtPayload := ⟨some "2", some "GUSER", some "Investor"⟩
    let c : Choice := ⟨none, 5, "report"⟩
    let enqueue := Operation.enqueueInvestorReportExport ⟨some "csv", none, none, none, none⟩
    let ms₀ : List (Move ExportCall Choice InvoiceTable) :=
      [.start (.request user enqueue), .resume 0 c, .start (.process "report"), .resume 1 c,
        .resume 1 c, .resume 1 c, .resume 1 c, .resume 1 c, .resume 1 c, .resume 1 c]
    let ms₁ : List (Move ExportCall Choice InvoiceTable) :=
      [.start (.request user (.downloadJob "report")), .resume 0 c, .resume 0 c]
    let s₁ := ((sv.machine s₀).exec ⟨s₀, []⟩ ms₀).state
    ∃ call document,
      ((sv.machine s₁).exec ⟨s₁, []⟩ ms₁).calls[0]? =
        some ⟨call, .done (.ok (.exported document))⟩ ∧
      document.content = emptyReport ∧
      @Verifiable sampleRuntime [sampleSecret] (.exported document) := by
  intro boot sv s₀ user c enqueue ms₀ ms₁ s₁
  have hstart : ∀ boot' ∈ [boot, boot], boot'.secret = some (sampleSecret ++ " ") := by
    intro boot' hmem
    simp only [List.mem_cons, List.not_mem_nil, or_false, or_self] at hmem
    rw [hmem]
  have hboot : boot.onModuleInit = .ok sampleSecret := by
    decide +kernel
  have hdone : (((sv.machine s₁).exec ⟨s₁, []⟩ ms₁).calls[0]?).any
      (fun call => handedOut emptyReport call.rest) = true := by
    decide +kernel
  obtain ⟨⟨call, rest⟩, hcall, hrest⟩ := (Option.any_eq_true _ _).1 hdone
  have hleft : LeftBy [boot] s₁ := (LeftBy.empty rfl).life hboot ms₀
  obtain ⟨document, rfl, hcontent⟩ :
      ∃ document, rest = .done (.ok (.exported document)) ∧ document.content = emptyReport := by
    dsimp only [handedOut] at hrest
    split at hrest
    · next document => exact ⟨document, rfl, of_decide_eq_true hrest⟩
    · cases hrest
  exact ⟨call, document, hcall, hcontent, (documents_verify sampleRuntime_lawful hleft hboot ms₁
    hcall).2 _ hstart (by decide +kernel)⟩

end Compliance

end Backend

end InvoiceFi
