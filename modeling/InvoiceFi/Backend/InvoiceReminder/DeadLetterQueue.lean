import InvoiceFi.Backend.InvoiceReminder
import InvoiceFi.Backend.Monitoring.AnomalyDetector
import InvoiceFi.Lib.Guarantee

/-!
# The dead-letter queue (`invoice-reminder/invoice-reminder-dlq.processor.ts`)

A worker that gives up on a reminder adds its job to a second queue, with the error in the data
(`onFailed`). Other workers take the jobs of that queue, write a failure record and dispatch an
alert (`handleDlq`). `deadLetters` is the schedulers and workers of the reminders, whose programs
are those of `reminders`, together with the workers of the dead letters.

Of Bull is assumed that a new job has made no attempts and has no `failedReason`, that jobs without
an id get the next number, and that a job with one attempt is handed out once.

The store remembers which attempts have failed and with what errors, which forwards have been lost,
who has taken a letter, and which records and alerts could not be written; no program reads these.
-/

namespace InvoiceFi

namespace Backend

namespace InvoiceReminder

/-! ## Data -/

/-- A job of the dead-letter queue. What `onFailed` carries over is in its data. -/
structure DlqJob where
  id : Nat
  data : JobData
  _failedReason : String
  attemptsMade : Nat
  failedReason : Option String

/-- A letter of the queue: its job, and the worker that has added it. -/
structure Letter extends DlqJob where
  worker : Nat

/-- A row of `invoiceReminderFailure`. -/
structure InvoiceReminderFailure where
  invoiceId : String
  errorMessage : String
  attemptCount : Nat
  jobId : String
  deriving DecidableEq

/-- The `context` of an alert. -/
structure FailureContext where
  invoiceId : String
  jobId : String
  attemptCount : Nat
  errorMessage : String
  userEmail : String

/-- `AnomalyAlert`, with a type of its own and the time as a number. -/
structure AnomalyAlert where
  id : String
  anomalyType : String
  affectedAccountOrContract : String
  transactionHash : String
  currentMetric : Nat
  threshold : Nat
  ledger : Nat
  occurredAt : Nat
  severity : Monitoring.Severity
  summary : String
  context : FailureContext

/-- An attempt at a job whose handler has thrown: the worker, the error, the number of the attempt,
and whether the queue retries the job. -/
structure Failure where
  worker : Nat
  data : JobData
  message : String
  attemptsMade : Nat
  retried : Bool

/-- The reminders with their dead letters, and what has happened to them. -/
structure DlqStore where
  world : World
  thrown : Nat → Option String
  failures : List Failure
  letters : List Letter
  lost : List Nat
  takenBy : Nat → Option Nat
  records : List InvoiceReminderFailure
  unrecorded : List Nat
  alerts : List AnomalyAlert
  unalerted : List Nat

/-- Nothing has been scheduled or sent. -/
def DlqStore.empty : DlqStore := ⟨.empty, fun _ => none, [], [], [], fun _ => none, [], [], [], []⟩

/-! ## Actions -/

/-- The actions of the reminders, and those of the workers of the dead letters. A record and an
alert come with the job that they are for. -/
inductive DlqAct where
  | reminder (a : Act)
  | takeLetter
  | create (jobId : Nat) (record : InvoiceReminderFailure)
  | now
  | dispatch (jobId : Nat) (alert : AnomalyAlert)

abbrev DlqAct.Answer : DlqAct → Type
  | .reminder a => a.Answer
  | .takeLetter => Option DlqJob
  | .now => Nat
  | _ => Unit

/-- The queue has the job wait for another attempt. -/
def Queue.retries (q : Queue) (jobId : String) : Bool :=
  (q.jobs jobId).any fun job => decide (job.state = .delayed)

/-- The attempt that the worker `k` hands back to the queue, if it has the job locked. -/
def DlqStore.failure? (s : DlqStore) (k : Nat) (jobId : String) : Option Failure :=
  ((s.world.queue.jobs jobId).filter fun job => decide (job.state = .active k)).map fun job =>
    { worker := k
      data := job.data
      message := (s.thrown k).getD ""
      attemptsMade := (s.world.queue.moveToFailed k jobId).1
      retried := (s.world.queue.moveToFailed k jobId).2.retries jobId }

/-- `dlqQueue.add`. -/
def DlqStore.addLetter (s : DlqStore) (k : Nat) (data : JobData) (failedReason : String) :
    DlqStore :=
  { s with letters := s.letters ++ [
      { id := s.letters.length + 1
        data := data
        _failedReason := failedReason
        attemptsMade := 0
        failedReason := none
        worker := k }] }

/-- What an action of the reminders leaves beside its own world. -/
def DlqStore.noting (s : DlqStore) (k : Nat) (c : Choice) : Act → DlqStore
  | .sendInvoiceReminder .. | .createNotification .. =>
    { s with thrown := Function.update s.thrown k c.thrown }
  | .moveToFailed jobId => { s with failures := s.failures ++ (s.failure? k jobId).toList }
  | .addToDlq data failedReason =>
    if c.Reaches then s.addLetter k data failedReason else { s with lost := k :: s.lost }
  | _ => s

/-- A letter that nobody has taken is taken. -/
def DlqStore.takeLetter (s : DlqStore) (k : Nat) (jobId : String) : Option DlqJob × DlqStore :=
  match s.letters.find? fun letter =>
      decide (toString letter.id = jobId ∧ s.takenBy letter.id = none) with
  | some letter =>
    (some letter.toDlqJob, { s with takenBy := Function.update s.takenBy letter.id (some k) })
  | none => (none, s)

/-- An action that may throw, with what it leaves in either case. -/
def thrownOr {α : Type} (c : Choice) (a : α) (s' s : DlqStore) : Except String α × DlqStore :=
  match c.thrown with
  | some message => (.error message, s)
  | none => (.ok a, s')

/-- What an action of the call `k` answers and does. -/
def performDlq (k : Nat) : (a : DlqAct) → Choice → DlqStore → Except String a.Answer × DlqStore
  | .reminder a, c, s =>
    ((perform k a c s.world).1, { s.noting k c a with world := (perform k a c s.world).2 })
  | .takeLetter, c, s => (.ok (s.takeLetter k c.jobId).1, (s.takeLetter k c.jobId).2)
  | .create jobId record, c, s =>
    thrownOr c () { s with records := record :: s.records }
      { s with unrecorded := jobId :: s.unrecorded }
  | .now, c, s => (.ok c.clock, s)
  | .dispatch jobId alert, c, s =>
    thrownOr c () { s with alerts := alert :: s.alerts } { s with unalerted := jobId :: s.unalerted }

/-! ## The programs -/

/-- A program of the reminders or of the dead letters. -/
abbrev DlqTask (α : Type) := Async DlqAct DlqAct.Answer String α

def dlqAct (a : DlqAct) : DlqTask a.Answer := Async.perform a

/-- A program of the reminders among the others. -/
def ofReminder {α : Type} (p : Task α) : DlqTask α := p.embed DlqAct.reminder fun _ r => r

/-- The text of the error in a failure record. -/
def DlqJob.errorMessage (job : DlqJob) : String :=
  job.failedReason.getD "Unknown error after max retries"

/-- The row that `handleDlq` writes. -/
def DlqJob.record (job : DlqJob) : InvoiceReminderFailure where
  invoiceId := job.data.invoiceId
  errorMessage := job.errorMessage
  attemptCount := job.attemptsMade
  jobId := toString job.id

/-- The alert that `handleDlq` dispatches. -/
def DlqJob.alert (job : DlqJob) (now : Nat) : AnomalyAlert where
  id := "invoice-reminder-dlq-" ++ toString job.id
  anomalyType := "invoice_reminder_failure"
  affectedAccountOrContract := job.data.userEmail
  transactionHash := "job:" ++ toString job.id
  currentMetric := job.attemptsMade
  threshold := job.attemptsMade
  ledger := 0
  occurredAt := now
  severity := .warning
  summary := "Invoice reminder for " ++ job.data.invoiceId ++ " failed after " ++
    toString job.attemptsMade ++ " attempt(s): " ++ job.errorMessage
  context :=
    { invoiceId := job.data.invoiceId
      jobId := toString job.id
      attemptCount := job.attemptsMade
      errorMessage := job.errorMessage
      userEmail := job.data.userEmail }

/-- The end of `handleDlq`. -/
def dispatchAlert (job : DlqJob) : DlqTask Unit :=
  tryCatch
    (do
      let now ← dlqAct .now
      dlqAct (.dispatch job.id (job.alert now)))
    fun _ => pure ()

/-- `handleDlq`. What throws is logged. -/
def handleDlq (job : DlqJob) : DlqTask Unit := do
  tryCatch (dlqAct (.create job.id job.record)) fun _ => pure ()
  dispatchAlert job

/-- A worker takes a letter and runs the handler. -/
def workDlq : DlqTask Unit := do
  match ← dlqAct .takeLetter with
  | none => pure ()
  | some job => handleDlq job

/-! ## The service -/

/-- A call of the reminders, or the processing of a letter. -/
inductive DlqCall where
  | reminder (call : ReminderCall)
  | handle

/-- The reminders with their dead letters. -/
def deadLetters (localeDate : Option String → String) (maxAttempts : Nat) :
    Service DlqStore DlqCall DlqAct DlqAct.Answer String Unit Choice String where
  main
    | .reminder call => ofReminder ((reminders localeDate maxAttempts).main call)
    | .handle => workDlq
  perform := performDlq
  environ jobId s :=
    { s with world := (reminders localeDate maxAttempts).environ jobId s.world }

/-- The calls made so far. -/
abbrev DlqInstances := Pool DlqStore DlqCall DlqAct DlqAct.Answer String Unit

abbrev DlqMove := Move DlqCall Choice String

end InvoiceReminder

end Backend

end InvoiceFi
