import InvoiceFi.Backend.InvoiceReminder.Once
import InvoiceFi.Backend.Prisma

/-!
# The reminders as written (`invoice/`, `email/` and `notification/`)

The schedulers and the workers with the services as the repository has them. `findInvoicesDueSoon`
selects rows of the invoice table alone, which has neither a `userId` nor a `user`, an `amount`, a
`dueDate` or a `tokenType`; `sendInvoiceReminder` formats the due date as a `Date`, and the data of
a job is JSON, in which it is a text; and `PrismaService` has no `notification`.

So no reminder comes about. A scheduler throws at `user.email` for every invoice, so that no job is
ever added (`nothing_added`). And a worker with a job that is in the queue for some other reason
throws before the email is handed over (`nothing_sent`), so that no invoice and window have two
(`reminded_once`). The choice of the outside is narrowed to what these services make of it
(`Choice.served`), and programs, queue and emails are those of `reminders`.
-/

namespace InvoiceFi

namespace Backend

namespace InvoiceReminder

/-! ## The services -/

/-- `findInvoicesDueSoon`, where `addHours` adds hours to a time as `setHours` does. -/
def InvoiceService.findInvoicesDueSoon (addHours : Nat → Nat → Nat) (table : InvoiceTable)
    (now hours : Nat) : List Backend.Invoice :=
  let dueDate := addHours now hours
  (table.rows.filter fun r => r.status = .funded ∧ r.createdAt ≤ dueDate).mergeSort
    fun a b => a.createdAt ≤ b.createdAt

/-- What the scheduler reads of a row. Of these properties only the id is a column. -/
def ofRow (row : Backend.Invoice) : Invoice where
  id := toString row.id
  userId := none
  user := none
  amount := none
  dueDate := none
  tokenType := none

/-- A due date as the email service may be given it. -/
inductive DueDate where
  | date (time : Nat)
  | text (text : String)

/-- `dueDate.toLocaleDateString(…)`, where `format` writes a date. -/
def toLocaleDateString (format : Nat → String) : Option DueDate → Except String String
  | some (.date time) => .ok (format time)
  | some (.text _) => .error "dueDate.toLocaleDateString is not a function"
  | none => .error "Cannot read properties of undefined (reading 'toLocaleDateString')"

/-- What the transport of the emails is given, up to the text. -/
structure MailOptions where
  recipient : String
  subject : String

/-- `sendInvoiceReminder`, where `sendMail` hands an email to the transport. -/
def EmailService.sendInvoiceReminder (format : Nat → String)
    (sendMail : MailOptions → Except String Unit) (recipient : String)
    (dueDate : Option DueDate) : Except String Unit := do
  let formattedDate ← toLocaleDateString format dueDate
  sendMail ⟨recipient, "Invoice Payment Reminder - Due on " ++ formattedDate⟩

/-- `notificationService.create`, where `created` is what the statement comes to. -/
def NotificationService.create (created : Except Error Unit) : Except Error Unit :=
  (through PrismaService.getters .notification "create" (fun u => (created, u)) ()).1

/-! ## The outside -/

/-- What an action comes to if the services do not stand in its way. -/
def Choice.outcome (c : Choice) : Except String Unit :=
  match c.thrown with
  | some message => .error message
  | none => .ok ()

/-- The message of the error, if there is one. -/
def thrownBy : Except String Unit → Option String
  | .error message => some message
  | .ok () => none

section
variable (addHours : Nat → Nat → Nat) (format : Nat → String)

/-- What the services make of a choice. The due date of a job is a text where it has one. -/
def Choice.served (table : InvoiceTable) (c : Choice) : Act → Choice
  | .findInvoicesDueSoon hours =>
    let invoices := InvoiceService.findInvoicesDueSoon addHours table c.clock hours
    { c with invoices := invoices.map ofRow }
  | .sendInvoiceReminder _ mail =>
    let sent := EmailService.sendInvoiceReminder format (fun _ => c.outcome) mail.recipient
      (mail.dueDate.map .text)
    { c with thrown := thrownBy sent }
  | .createNotification .. =>
    let created := NotificationService.create (c.outcome.mapError .database)
    { c with thrown := thrownBy (created.mapError Error.message) }
  | _ => c

/-- The queue and the emails, and the invoice table. -/
structure Deployment where
  world : World
  invoices : InvoiceTable

/-- What happens beside the calls: the delay of a job is over, or others write the invoice table. -/
inductive Event where
  | promote (jobId : String)
  | invoices (table : InvoiceTable)

/-- The schedulers and the workers with the services of the repository. -/
def asWritten (localeDate : Option String → String) (maxAttempts : Nat) :
    Service Deployment ReminderCall Act Act.Answer String Unit Choice Event where
  main := (reminders localeDate maxAttempts).main
  perform k a c s :=
    let (answer, world) := perform k a (c.served addHours format s.invoices a) s.world
    (answer, { s with world })
  environ
    | .promote jobId, s =>
      { s with world := (reminders localeDate maxAttempts).environ jobId s.world }
    | .invoices table, s => { s with invoices := table }

end

/-- The calls made so far. -/
abbrev Deployments := Pool Deployment ReminderCall Act Act.Answer String Unit

abbrev DeploymentMove := Move ReminderCall Choice Event

variable {addHours : Nat → Nat → Nat} {format : Nat → String} {q q' : Queue} {w : World}
  {localeDate : Option String → String} {maxAttempts : Nat}

/-! ## No email is sent -/

/-- A text is not formatted as a date. -/
theorem sendInvoiceReminder_text (format : Nat → String)
    (sendMail : MailOptions → Except String Unit) (recipient : String) (dueDate : Option String) :
    ∃ message, EmailService.sendInvoiceReminder format sendMail recipient (dueDate.map .text) =
      .error message := by
  cases dueDate with
  | none => exact ⟨_, rfl⟩
  | some text => exact ⟨_, rfl⟩

/-- An action sends nothing but the email that it hands over. -/
theorem perform_sent (k : Nat) (a : Act) (c : Choice) (w : World)
    (hsend : ∀ jobId mail, a = .sendInvoiceReminder jobId mail → c.thrown ≠ none) :
    (perform k a c w).2.sent = w.sent := by
  cases a with
  | sendInvoiceReminder jobId mail =>
    simp only [perform, unlessThrown]
    cases hthrown : c.thrown with
    | none => exact absurd hthrown (hsend jobId mail rfl)
    | some message => rfl
  | add jobId data =>
    simp only [perform, unlessThrown]
    cases c.thrown <;> dsimp only <;> split <;> rfl
  | now | take | moveToCompleted jobId | moveToFailed jobId => rfl
  | findInvoicesDueSoon hours | getJobs | createNotification jobId notification
  | addToDlq data failedReason =>
    simp only [perform, unlessThrown]
    cases c.thrown <;> rfl

/-- As the services are, no action sends an email. -/
theorem served_sent (k : Nat) (a : Act) (c : Choice) (table : InvoiceTable) (w : World) :
    (perform k a (c.served addHours format table a) w).2.sent = w.sent := by
  refine perform_sent k a _ w ?_
  rintro jobId mail rfl
  obtain ⟨message, hmessage⟩ :=
    sendInvoiceReminder_text format (fun _ => c.outcome) mail.recipient mail.dueDate
  intro hnone
  simp only [Choice.served, hmessage] at hnone
  cases hnone

/-- **No email is ever sent**, whatever is in the queue and in the table. -/
theorem nothing_sent (addHours : Nat → Nat → Nat) (format : Nat → String)
    (localeDate : Option String → String) (maxAttempts : Nat) (s : Deployment)
    (moves : List DeploymentMove) :
    (((asWritten addHours format localeDate maxAttempts).machine s).exec ⟨s, []⟩
      moves).state.world.sent = s.world.sent := by
  refine Machine.invariant (I := fun p : Deployments => p.state.world.sent = s.world.sent)
    rfl ?_ moves
  intro m p u p' hsent hi
  rw [Service.post_of_invoke hi]
  rcases Service.move_cases (asWritten addHours format localeDate maxAttempts) m p with
    ⟨i, -, hp⟩ | ⟨k, c, i, a, f, -, -, hp⟩ | ⟨o, -, hp⟩ | ⟨k, c, -, -, hp⟩ <;> rw [hp]
  · exact hsent
  · exact (served_sent k a c p.state.invoices p.state.world).trans hsent
  · cases o with
    | promote jobId => exact hsent
    | invoices table => exact hsent
  · exact hsent

/-- **At most one email is sent for each invoice and window.** From any queue and any table, in
every run. -/
theorem reminded_once (addHours : Nat → Nat → Nat) (format : Nat → String)
    (localeDate : Option String → String) (maxAttempts : Nat) (queue : Queue)
    (table : InvoiceTable) (moves : List DeploymentMove) :
    RemindedOnce (((asWritten addHours format localeDate maxAttempts).machine
      ⟨⟨queue, []⟩, table⟩).exec ⟨⟨⟨queue, []⟩, table⟩, []⟩ moves).state.world := by
  have hsent := nothing_sent addHours format localeDate maxAttempts ⟨⟨queue, []⟩, table⟩ moves
  constructor
  · intro mail hmem
    rw [hsent] at hmem
    cases hmem
  · intro invoiceId slot
    rw [World.emailsOf, hsent]
    exact Nat.zero_le 1

/-! ## No job is added -/

/-- Every job of the queue is one of `q`, with its data. -/
def JobsOf (q q' : Queue) : Prop :=
  ∀ id job', q'.jobs id = some job' → ∃ job, q.jobs id = some job ∧ job'.data = job.data

/-- What a worker does to a job leaves its data alone. -/
theorem JobsOf.advance {k : Nat} {jobId : String} {Retry : Prop} {q'' : Queue} (h : JobsOf q q')
    (hadv : Advances k jobId Retry q' q'') : JobsOf q q'' := by
  intro id job'' hid
  obtain ⟨job', hjob', hchanged⟩ := hadv.back id job'' hid
  obtain ⟨job, hjob, hdata⟩ := h id job' hjob'
  refine ⟨job, hjob, ?_⟩
  rcases hchanged with rfl | ⟨-, hchanged⟩
  · exact hdata
  · exact hchanged.data_eq.trans hdata

/-- The actions that are no `add`. -/
def AddsNothing : Act → Prop
  | .add _ _ => False
  | _ => True

theorem JobsOf.perform {a : Act} (h : JobsOf q w.queue) (ha : AddsNothing a) (k : Nat)
    (c : Choice) : JobsOf q (perform k a c w).2.queue := by
  cases a with
  | add jobId data => exact ha.elim
  | take => exact h.advance (Queue.take_advances w.queue k c.jobId)
  | moveToCompleted jobId => exact h.advance (Queue.moveToCompleted_advances w.queue k jobId)
  | moveToFailed jobId =>
    cases hjob : w.queue.jobs jobId with
    | none =>
      simp only [InvoiceReminder.perform, Queue.moveToFailed, hjob]
      exact h
    | some job => exact h.advance (Queue.moveToFailed_advances hjob)
  | now => exact h
  | findInvoicesDueSoon hours | getJobs | sendInvoiceReminder jobId mail
  | createNotification jobId notification | addToDlq data failedReason =>
    simp only [InvoiceReminder.perform, unlessThrown]
    cases c.thrown <;> exact h

/-- A worker adds no job. -/
theorem work_only : (work localeDate maxAttempts).Only AddsNothing fun _ => True := by
  have hfinish (job : Job) (result : Except String String) :
      (finish maxAttempts job result).Only AddsNothing fun _ => True := by
    cases result with
    | ok invoiceId => exact ⟨trivial, fun _ => trivial⟩
    | error message =>
      refine ⟨trivial, fun attemptsMade => ?_⟩
      cases attemptsMade with
      | error _ => trivial
      | ok attemptsMade =>
        refine (onFailed_only job attemptsMade message).mono (fun a ha => ?_) fun _ _ => trivial
        cases a with
        | add jobId data => exact ha.elim
        | _ => trivial
  refine ⟨trivial, fun taken => ?_⟩
  cases taken with
  | error message => trivial
  | ok job =>
    cases job with
    | none => trivial
    | some job =>
      refine ⟨trivial, fun sent => ?_⟩
      cases sent with
      | error message => exact hfinish job (.error message)
      | ok =>
        refine ⟨trivial, fun created => ?_⟩
        cases created with
        | error message => exact hfinish job (.error message)
        | ok => exact hfinish job (.ok job.data.invoiceId)

/-- A row has no user, so that a scheduler passes over it. -/
theorem enqueueReminder_ofRow (slot : String) (inFlightIds : String → Bool)
    (row : Backend.Invoice) : enqueueReminder slot inFlightIds (ofRow row) = pure () := by
  unfold enqueueReminder
  dsimp only
  split <;> rfl

theorem forM_enqueueReminder_ofRow (slot : String) (inFlightIds : String → Bool)
    (rows : List Backend.Invoice) :
    forM (rows.map ofRow) (enqueueReminder slot inFlightIds) = pure () := by
  induction rows with
  | nil => rfl
  | cons row rows ih =>
    rw [List.map_cons, List.forM_cons, enqueueReminder_ofRow, Async.pure_bind, ih]

/-- A scheduler that is about to find the invoices. -/
def finding (slot : String) : Task Unit := do
  let found ← tryCatch (some <$> act (.findInvoicesDueSoon 72)) fun _ => pure none
  match found with
  | none => pure ()
  | some invoices => do
    let inFlightIds ← tryCatch (act .getJobs) fun _ => pure fun _ => false
    forM invoices (enqueueReminder slot inFlightIds)

/-- Where a scheduler waits. What it has found are rows of the table. -/
inductive SchedulerAt : Task Unit → Prop
  | starting : SchedulerAt scheduleInvoiceReminders
  | finding (slot : String) : SchedulerAt (finding slot)
  | idle (rest : Task Unit) : rest.Only AddsNothing (fun _ => True) → SchedulerAt rest

/-- A scheduler that has found rows adds nothing. -/
theorem SchedulerAt.found (slot : String) (rows : List Backend.Invoice) :
    SchedulerAt (do
      let inFlightIds ← tryCatch (act .getJobs) fun _ => pure fun _ => false
      forM (rows.map ofRow) (enqueueReminder slot inFlightIds)) := by
  refine .idle _ ⟨trivial, fun jobs => ?_⟩
  cases jobs with
  | error _ | ok _ =>
    -- with the ids of the queue or without, no row gives a job
    change Async.Only _ _ (forM (rows.map ofRow) (enqueueReminder slot _))
    rw [forM_enqueueReminder_ofRow]
    trivial

/-- The step of a scheduler is no `add`, and where it waits next. -/
theorem SchedulerAt.step {a : Act} {f : Except String a.Answer → Task Unit}
    (h : SchedulerAt (.await a f)) (k : Nat) (c : Choice) (table : InvoiceTable) (w : World) :
    AddsNothing a ∧ SchedulerAt (f (InvoiceReminder.perform k a
      (c.served addHours format table a) w).1) := by
  generalize hrest : Async.await a f = rest at h
  cases h with
  | starting =>
    cases hrest
    exact ⟨trivial, .finding _⟩
  | finding slot =>
    cases hrest
    refine ⟨trivial, ?_⟩
    simp only [InvoiceReminder.perform, Choice.served, unlessThrown]
    cases c.thrown with
    | some message => exact .idle _ trivial
    | none => exact .found slot _
  | idle rest honly =>
    subst hrest
    exact ⟨honly.1, .idle _ (honly.2 _)⟩

/-- What is known of a call. -/
def AddingAt : ReminderCall → Task Unit → Prop
  | .schedule, rest => SchedulerAt rest
  | .work, rest => rest.Only AddsNothing fun _ => True

theorem AddingAt.step {call : ReminderCall} {a : Act} {f : Except String a.Answer → Task Unit}
    (h : AddingAt call (.await a f)) (addHours : Nat → Nat → Nat) (format : Nat → String)
    (k : Nat) (c : Choice) (table : InvoiceTable) (w : World) :
    AddsNothing a ∧ AddingAt call (f (InvoiceReminder.perform k a
      (c.served addHours format table a) w).1) := by
  cases call with
  | schedule => exact SchedulerAt.step h k c table w
  | work => exact ⟨h.1, h.2 _⟩

/-- The argument as a proof outline. -/
def addedOutline (addHours : Nat → Nat → Nat) (format : Nat → String)
    (localeDate : Option String → String) (maxAttempts : Nat) (q : Queue) :
    Outline (asWritten addHours format localeDate maxAttempts) fun _ _ => True where
  Inv s := JobsOf q s.world.queue
  At _ call rest _ := AddingAt call rest
  start {_ call} _ _ _ := by
    cases call with
    | schedule => exact .starting
    | work => exact work_only
  step {p k c _ _ _} _ hk hinv hat := by
    have hstep := AddingAt.step (hat _ _ hk) addHours format k c p.state.invoices p.state.world
    exact ⟨hinv.perform hstep.1 k _, hstep.2⟩
  stable _ _ _ hat _ hj := hat _ _ hj
  environ {p o} _ hinv hat := by
    refine ⟨?_, hat⟩
    cases o with
    | promote jobId => exact hinv.advance (Queue.promote_advances p.state.world.queue 0 jobId)
    | invoices table => exact hinv

/-- **No job is ever added.** In every run, from any queue and any table, the jobs of the queue are
some of those that it had at the start, with their data. -/
theorem nothing_added (addHours : Nat → Nat → Nat) (format : Nat → String)
    (localeDate : Option String → String) (maxAttempts : Nat) (s : Deployment)
    (moves : List DeploymentMove) :
    JobsOf s.world.queue (((asWritten addHours format localeDate maxAttempts).machine s).exec
      ⟨s, []⟩ moves).state.world.queue := by
  have hstart : JobsOf s.world.queue s.world.queue := fun id job hjob => ⟨job, hjob, rfl⟩
  exact ((addedOutline addHours format localeDate maxAttempts s.world.queue).exec (p := ⟨s, []⟩)
    hstart Pool.meets_nil fun _ _ => trivial).1

end InvoiceReminder

end Backend

end InvoiceFi
