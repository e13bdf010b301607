import InvoiceFi.Backend.Database
import InvoiceFi.Lib.Async
import InvoiceFi.Lib.Fallible
import Mathlib.Logic.Function.Basic

/-!
# Reminders of due invoices (`invoice-reminder/`)

Every scheduler run adds a job for each invoice that is due soon, under an id of the invoice and of
the current window of six hours (`scheduleInvoiceReminders`); workers take the jobs, send the email
and create a notification (`handleReminder`). Any number of schedulers and workers run in parallel,
and one that is cut off by a restart does not go on. They share a Bull queue (`Queue`).

Of Bull is assumed what the scheduler relies on: an `add` under the id of a job that the queue still
has, in whatever state, is ignored; a job whose handler threw is retried as long as it has attempts
left; and of the finished jobs the queue keeps the last ten that completed and the last fifty that
failed. The data of a job is stored as JSON, in which a `Date` is a text and what is `undefined` is
left out.

What the services answer that find the invoices, send the emails and create the notifications is
left open here: it is a choice of the outside. `AsWritten.lean` has the three of the repository.
-/

namespace InvoiceFi

namespace Backend

namespace InvoiceReminder

/-! ## Data -/

/-- The owner of an invoice, as far as it is read here. -/
structure User where
  email : String
  name : Option String

/-- What is read of an invoice that is due, with the texts of its id and its amount, and the due
date as a time. A property that is `undefined` is `none`. -/
structure Invoice where
  id : String
  userId : Option String
  user : Option User
  amount : Option String
  dueDate : Option Nat
  tokenType : Option String

/-- `InvoiceReminderJobData`, as the data of a job is read back from JSON: the due date is a
text. -/
structure JobData where
  invoiceId : String
  userId : Option String
  userEmail : String
  userName : String
  amount : String
  dueDate : Option String
  tokenType : Option String
  deriving DecidableEq

/-- `SendInvoiceReminderParams`, whose `to` is the recipient, with the values that a worker
passes. -/
structure Reminder where
  recipient : String
  userName : String
  invoiceId : String
  amount : String
  dueDate : Option String
  tokenType : Option String
  deriving DecidableEq

/-- The `metadata` of a notification. -/
structure ReminderMetadata where
  invoiceId : String
  amount : String
  dueDate : Option String
  tokenType : Option String

/-- What `notificationService.create` is given. -/
structure Notification where
  userId : Option String
  type : String
  title : String
  message : String
  metadata : ReminderMetadata

/-- `REMINDER_WINDOW_MS`. -/
def reminderWindowMs : Nat := 6 * 60 * 60 * 1000

/-- `reminderWindowSlot`. -/
def reminderWindowSlot (now : Nat) : String := toString (now / reminderWindowMs)

/-- `reminderJobId`. -/
def reminderJobId (invoiceId slot : String) : String := "reminder:" ++ invoiceId ++ ":" ++ slot

/-! ## The queue -/

/-- Where a job is. An active job is locked by a worker, and finished jobs are numbered as they
finish. -/
inductive JobState where
  | waiting
  | delayed
  | active (worker : Nat)
  | completed (number : Nat)
  | failed (number : Nat)
  deriving DecidableEq

structure Job where
  jobId : String
  data : JobData
  attemptsMade : Nat
  state : JobState
  deriving DecidableEq

/-- The queue: the jobs that it has, and how many have completed and failed. -/
structure Queue where
  jobs : String → Option Job
  completions : Nat
  failures : Nat

namespace Queue

/-- The `attempts` of a job (`invoice-reminder.module.ts`). -/
def attempts : Nat := 3

/-- `removeOnComplete`. -/
def removeOnComplete : Nat := 10

/-- `removeOnFail`. -/
def removeOnFail : Nat := 50

/-- The queue keeps a job until enough others have finished after it. -/
def keeps (q : Queue) (job : Job) : Bool :=
  match job.state with
  | .completed number => q.completions < number + removeOnComplete
  | .failed number => q.failures < number + removeOnFail
  | _ => true

def trim (q : Queue) : Queue :=
  { q with jobs := fun id => (q.jobs id).filter q.keeps }

def set (q : Queue) (jobId : String) (job : Job) : Queue :=
  { q with jobs := Function.update q.jobs jobId (some job) }

/-- `queue.add`, with the id of the job. -/
def add (q : Queue) (jobId : String) (data : JobData) : Queue :=
  match q.jobs jobId with
  | some _ => q
  | none => q.set jobId ⟨jobId, data, 0, .waiting⟩

/-- The jobs in flight, `getJobs(['waiting', 'active', 'delayed'])`. -/
def inFlight (q : Queue) (jobId : String) : Bool :=
  match q.jobs jobId with
  | some job =>
    match job.state with
    | .waiting | .active _ | .delayed => true
    | .completed _ | .failed _ => false
  | none => false

/-- A worker takes and locks a waiting job. -/
def take (q : Queue) (worker : Nat) (jobId : String) : Option Job × Queue :=
  match q.jobs jobId with
  | some job =>
    if job.state = .waiting then
      let job := { job with state := .active worker }
      (some job, q.set jobId job)
    else (none, q)
  | none => (none, q)

/-- The worker's handler has returned. -/
def moveToCompleted (q : Queue) (worker : Nat) (jobId : String) : Queue :=
  match q.jobs jobId with
  | some job =>
    if job.state = .active worker then
      let number := q.completions + 1
      trim { q.set jobId { job with state := .completed number } with completions := number }
    else q
  | none => q

/-- The worker's handler has thrown: the job is retried after a while if it has attempts left, and
has failed otherwise. The attempts that it has made are returned. -/
def moveToFailed (q : Queue) (worker : Nat) (jobId : String) : Nat × Queue :=
  match q.jobs jobId with
  | some job =>
    if job.state = .active worker then
      let attemptsMade := job.attemptsMade + 1
      if attemptsMade < attempts then
        (attemptsMade, q.set jobId { job with attemptsMade, state := .delayed })
      else
        let number := q.failures + 1
        (attemptsMade, trim { q.set jobId { job with attemptsMade, state := .failed number } with
          failures := number })
    else (job.attemptsMade, q)
  | none => (0, q)

/-- The delay of a job is over. -/
def promote (q : Queue) (jobId : String) : Queue :=
  match q.jobs jobId with
  | some job =>
    if job.state = .delayed then q.set jobId { job with state := .waiting } else q
  | none => q

end Queue

/-! ## Actions -/

/-- An email that was sent, with the job it was sent for. -/
structure SentReminder extends Reminder where
  jobId : String
  deriving DecidableEq

structure World where
  queue : Queue
  sent : List SentReminder

/-- The actions of the schedulers and the workers. An email and a notification come with the job
that they are for. -/
inductive Act where
  | now
  | findInvoicesDueSoon (hours : Nat)
  | getJobs
  | add (jobId : String) (data : JobData)
  | take
  | sendInvoiceReminder (jobId : String) (mail : Reminder)
  | createNotification (jobId : String) (notification : Notification)
  | moveToCompleted (jobId : String)
  | moveToFailed (jobId : String)
  | addToDlq (data : JobData) (failedReason : String)

abbrev Act.Answer : Act → Type
  | .now => Nat
  | .findInvoicesDueSoon _ => List Invoice
  | .getJobs => String → Bool
  | .take => Option Job
  | .moveToFailed _ => Nat
  | _ => Unit

/-- What the outside decides when it answers an action: the message of the error that it throws, if
it throws one, whether an `add` that throws has reached the queue nevertheless, the clock of the
instance, the invoices that are due, and the job that is taken. -/
structure Choice where
  thrown : Option String
  reached : Bool
  clock : Nat
  invoices : List Invoice
  jobId : String

/-- An action that may throw: it has no effect if it does. -/
def unlessThrown {α : Type} (c : Choice) (a : α) (w' w : World) : Except String α × World :=
  match c.thrown with
  | some message => (.error message, w)
  | none => (.ok a, w')

/-- The `add` reaches the queue. -/
def Choice.Reaches (c : Choice) : Prop := c.thrown = none ∨ c.reached = true

instance (c : Choice) : Decidable c.Reaches := inferInstanceAs (Decidable (_ ∨ _))

def World.withQueue (w : World) (queue : Queue) : World := { w with queue := queue }

/-- What an action of the call `k` answers and does. -/
def perform (k : Nat) : (a : Act) → Choice → World → Except String a.Answer × World
  | .now, c, w => (.ok c.clock, w)
  | .findInvoicesDueSoon _, c, w => unlessThrown c c.invoices w w
  | .getJobs, c, w => unlessThrown c w.queue.inFlight w w
  | .add jobId data, c, w =>
    let w' := if c.Reaches then w.withQueue (w.queue.add jobId data) else w
    unlessThrown c () w' w'
  | .take, c, w => (.ok (w.queue.take k c.jobId).1, w.withQueue (w.queue.take k c.jobId).2)
  | .sendInvoiceReminder jobId mail, c, w =>
    unlessThrown c () { w with sent := w.sent ++ [{ mail with jobId }] } w
  | .createNotification .., c, w => unlessThrown c () w w
  | .moveToCompleted jobId, _, w => (.ok (), w.withQueue (w.queue.moveToCompleted k jobId))
  | .moveToFailed jobId, _, w =>
    (.ok (w.queue.moveToFailed k jobId).1, w.withQueue (w.queue.moveToFailed k jobId).2)
  | .addToDlq .., c, w => unlessThrown c () w w

/-! ## The scheduler (`invoice-reminder.scheduler.ts`) -/

/-- A program of a scheduler or a worker. -/
abbrev Task (α : Type) := Async Act Act.Answer String α

def act (a : Act) : Task a.Answer := Async.perform a

/-- The data of the job of an invoice, as it is read back. A property of what is `undefined` is an
error. -/
def jobData (invoice : Invoice) : Except String JobData := do
  let user ← okOr invoice.user "Cannot read properties of undefined (reading 'email')"
  let amount ← okOr invoice.amount "Cannot read properties of undefined (reading 'toString')"
  pure
    { invoiceId := invoice.id
      userId := invoice.userId
      userEmail := user.email
      userName := user.name.getD "Farmer"
      amount := amount
      dueDate := invoice.dueDate.map toISOString
      tokenType := invoice.tokenType }

/-- One round of the scheduler's loop. What throws is logged. -/
def enqueueReminder (slot : String) (inFlightIds : String → Bool) (invoice : Invoice) :
    Task Unit :=
  let jobId := reminderJobId invoice.id slot
  if inFlightIds jobId then pure ()
  else
    tryCatch
      (do
        let data ← Async.ofExcept (jobData invoice)
        act (.add jobId data))
      fun _ => pure ()

/-- `scheduleInvoiceReminders`. -/
def scheduleInvoiceReminders : Task Unit := do
  let now ← act .now
  let slot := reminderWindowSlot now
  let found ← tryCatch (some <$> act (.findInvoicesDueSoon 72)) fun _ => pure none
  match found with
  | none => pure ()
  | some invoices => do
    let inFlightIds ← tryCatch (act .getJobs) fun _ => pure fun _ => false
    forM invoices (enqueueReminder slot inFlightIds)

/-! ## The worker (`invoice-reminder.processor.ts`) -/

section Worker

variable (localeDate : Option String → String) (maxAttempts : Nat)

/-- The notification of a reminder, where `localeDate` is the text of
`new Date(dueDate).toLocaleDateString()`. -/
def notification (data : JobData) : Notification where
  userId := data.userId
  type := "INVOICE_DUE"
  title := "Invoice Payment Reminder"
  message := "Your invoice " ++ data.invoiceId ++ " for " ++ data.amount ++ " " ++
    data.tokenType.getD "undefined" ++ " is due on " ++ localeDate data.dueDate ++ "."
  metadata := ⟨data.invoiceId, data.amount, data.dueDate, data.tokenType⟩

/-- `handleReminder`. -/
def handleReminder (job : Job) : Task String := do
  act (.sendInvoiceReminder job.jobId
    { recipient := job.data.userEmail
      userName := job.data.userName
      invoiceId := job.data.invoiceId
      amount := job.data.amount
      dueDate := job.data.dueDate
      tokenType := job.data.tokenType })
  act (.createNotification job.jobId (notification localeDate job.data))
  return job.data.invoiceId

/-- `onFailed`. -/
def onFailed (job : Job) (attemptsMade : Nat) (message : String) : Task Unit :=
  if attemptsMade ≥ maxAttempts then
    tryCatch (act (.addToDlq job.data message)) fun _ => pure ()
  else pure ()

/-- What Bull does when the handler has returned or thrown. -/
def finish (job : Job) : Except String String → Task Unit
  | .ok _ => act (.moveToCompleted job.jobId)
  | .error message => do
    let attemptsMade ← act (.moveToFailed job.jobId)
    onFailed maxAttempts job attemptsMade message

/-- A worker takes a waiting job and runs the handler. -/
def work : Task Unit := do
  match ← act .take with
  | none => pure ()
  | some job =>
    let result ← tryCatch (.ok <$> handleReminder localeDate job) fun message =>
      pure (.error message)
    finish maxAttempts job result

end Worker

/-! ## The service -/

/-- A run of a scheduler, or the processing of a job by a worker. -/
inductive ReminderCall where
  | schedule
  | work

/-- The schedulers and the workers around the queue. Beside them, the delays of jobs go by. -/
def reminders (localeDate : Option String → String) (maxAttempts : Nat) :
    Service World ReminderCall Act Act.Answer String Unit Choice String where
  main
    | .schedule => scheduleInvoiceReminders
    | .work => work localeDate maxAttempts
  perform := perform
  environ jobId w := w.withQueue (w.queue.promote jobId)

/-- Nothing has been scheduled or sent. -/
def World.empty : World := ⟨⟨fun _ => none, 0, 0⟩, []⟩

/-- The calls made so far. -/
abbrev Instances := Pool World ReminderCall Act Act.Answer String Unit

abbrev ReminderMove := Move ReminderCall Choice String

end InvoiceReminder

end Backend

end InvoiceFi
