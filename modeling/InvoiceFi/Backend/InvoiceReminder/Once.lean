import InvoiceFi.Backend.InvoiceReminder.Jobs
import Mathlib.Data.List.Nodup

/-!
# Reminders that are sent once

A reminder is sent twice if its job is run again after its email. Two things lead to that. The
handler creates a notification after the email, and where that throws the job is retried, email and
all. And the queue forgets a finished job after ten others, after which another scheduler of the
same window adds it again. `Harmless` rules both out, and in the runs whose moves are all harmless
at most one email is sent for each invoice and window (`reminders_once`).

The argument is by the states of a job: one whose email was sent is settled, so no worker takes it,
and the worker that sends an email has the job locked.
-/

namespace InvoiceFi

namespace Backend

namespace InvoiceReminder

/-! ## The condition -/

/-- An email was sent for the job. -/
def World.Emailed (w : World) (jobId : String) : Prop := jobId ∈ w.sent.map SentReminder.jobId

instance (w : World) (jobId : String) : Decidable (w.Emailed jobId) :=
  inferInstanceAs (Decidable (_ ∈ _))

/-- The action that a program awaits. -/
def nextAct {α : Type} : Task α → Option Act
  | .await a _ => some a
  | .done _ => none

/-- The action does not have a job run again after its email: no `add` of a job whose email was sent
finds the queue without it, and a notification that is refused is of a job without attempts left. -/
def ActHarmless (c : Choice) (w : World) : Act → Prop
  | .add jobId _ => c.Reaches → w.queue.jobs jobId = none → ¬ w.Emailed jobId
  | .createNotification jobId _ =>
    c.thrown = none ∨ ∀ job ∈ w.queue.jobs jobId, Queue.attempts ≤ job.attemptsMade + 1
  | _ => True

instance (c : Choice) (w : World) : (a : Act) → Decidable (ActHarmless c w a)
  | .add _ _ => inferInstanceAs (Decidable (_ → _ → _))
  | .createNotification _ _ => inferInstanceAs (Decidable (_ ∨ _))
  | .now | .findInvoicesDueSoon _ | .getJobs | .take | .sendInvoiceReminder _ _
  | .moveToCompleted _ | .moveToFailed _ | .addToDlq _ _ => inferInstanceAs (Decidable True)

/-- The move is harmless. -/
def Harmless (p : Instances) : ReminderMove → Prop
  | .resume k c => ∀ call ∈ p.calls[k]?, ∀ a ∈ nextAct call.rest, ActHarmless c p.state a
  | _ => True

instance (p : Instances) : (m : ReminderMove) → Decidable (Harmless p m)
  | .resume k _ => inferInstanceAs (Decidable (∀ call ∈ p.calls[k]?, _))
  | .start _ | .environ _ => inferInstanceAs (Decidable True)

/-! ## The invariant -/

/-- The jobs are named after their invoices, a job whose email was sent is settled, and no job has
two emails. -/
structure Consistent (w : World) : Prop where
  named : ∀ id job, w.queue.jobs id = some job →
    job.jobId = id ∧ ∃ slot, id = reminderJobId job.data.invoiceId slot
  settled : ∀ id job, w.Emailed id → w.queue.jobs id = some job → job.state.Settled
  sentFor : ∀ mail ∈ w.sent, ∃ slot, mail.jobId = reminderJobId mail.invoiceId slot
  once : (w.sent.map SentReminder.jobId).Nodup

/-- The worker has the job locked. -/
def Locked (k : Nat) (w : World) (job : Job) : Prop :=
  w.queue.jobs job.jobId = some job ∧ job.state = .active k

/-- A step of the call `k` leaves alone what other workers have locked, and sends no email but for a
job that `k` has locked. -/
structure Untouched (k : Nat) (w w' : World) : Prop where
  locked : ∀ j job, Locked j w job → j ≠ k → w'.queue.jobs job.jobId = some job
  emailed : ∀ id, w'.Emailed id → w.Emailed id ∨ ∃ job, Locked k w job ∧ job.jobId = id

variable {k j : Nat} {w w' : World} {job : Job} {jobId : String} {Retry : Prop} {q' : Queue}

theorem Untouched.refl (k : Nat) (w : World) : Untouched k w w :=
  ⟨fun _ _ h _ => h.1, fun _ h => .inl h⟩

theorem Locked.untouched (h : Locked j w job) (hw : Untouched k w w') (hne : j ≠ k) :
    Locked j w' job :=
  ⟨hw.locked j job h hne, h.2⟩

/-- No email is sent for a job by others than the worker that has it locked. -/
theorem Locked.not_emailed (h : Locked j w job) (hnot : ¬ w.Emailed job.jobId)
    (hw : Untouched k w w') (hne : j ≠ k) : ¬ w'.Emailed job.jobId := by
  intro hemailed
  rcases hw.emailed _ hemailed with hold | ⟨job', ⟨hjob', hactive'⟩, hid⟩
  · exact hnot hold
  · rw [hid, h.1] at hjob'
    cases hjob'
    cases h.2.symm.trans hactive'
    exact hne rfl

/-- An operation of a worker keeps the invariant, if it does not retry a job after its email. -/
theorem Consistent.advance (h : Consistent w) (hadv : Advances k jobId Retry w.queue q')
    (hretry : Retry → ¬ w.Emailed jobId) :
    Consistent (w.withQueue q') ∧ Untouched k w (w.withQueue q') := by
  refine ⟨⟨?_, ?_, h.sentFor, h.once⟩, ⟨?_, fun _ h => .inl h⟩⟩
  · intro id job' hid
    obtain ⟨job, hjob, rfl | ⟨-, hchanged⟩⟩ := hadv.back id job' hid
    · exact h.named id job' hjob
    · rw [hchanged.jobId_eq, hchanged.data_eq]
      exact h.named id job hjob
  · intro id job' hemailed hid
    obtain ⟨job, hjob, rfl | ⟨rfl, hchanged⟩⟩ := hadv.back id job' hid
    · exact h.settled id job' hemailed hjob
    · exact hchanged.settled (h.settled id job hemailed hjob) fun hr => hretry hr hemailed
  · intro j job hlocked hne
    exact hadv.locked _ job j hlocked.1 hlocked.2 hne

/-- So does an email, if it is the first of a job that the worker has locked. -/
theorem Consistent.send (h : Consistent w) (hlocked : Locked k w job)
    (hnot : ¬ w.Emailed job.jobId) {mail : SentReminder} (hid : mail.jobId = job.jobId)
    (hinvoice : mail.invoiceId = job.data.invoiceId) :
    Consistent { w with sent := w.sent ++ [mail] } ∧
      Untouched k w { w with sent := w.sent ++ [mail] } := by
  have hemailed : ∀ id, World.Emailed { w with sent := w.sent ++ [mail] } id →
      w.Emailed id ∨ id = job.jobId := by
    intro id hid'
    obtain ⟨mail', hmem, rfl⟩ := List.mem_map.1 hid'
    rcases List.mem_append.1 hmem with hold | hnew
    · exact .inl (List.mem_map_of_mem hold)
    · rw [List.mem_singleton.1 hnew]
      exact .inr hid
  refine ⟨⟨h.named, ?_, ?_, ?_⟩, ⟨fun _ _ h _ => h.1, ?_⟩⟩
  · intro id job' hid' hjob'
    rcases hemailed id hid' with hold | rfl
    · exact h.settled id job' hold hjob'
    · cases hlocked.1.symm.trans hjob'
      rw [hlocked.2]
      trivial
  · intro mail' hmem
    rcases List.mem_append.1 hmem with hold | hnew
    · exact h.sentFor mail' hold
    · rw [List.mem_singleton.1 hnew, hid, hinvoice]
      exact (h.named _ job hlocked.1).2
  · rw [List.map_append, List.nodup_append]
    refine ⟨h.once, List.pairwise_singleton _ _, ?_⟩
    intro id hold id' hnew heq
    rw [heq, List.mem_singleton.1 hnew, hid] at hold
    exact hnot hold
  · intro id hid'
    exact (hemailed id hid').imp_right fun heq => ⟨job, hlocked, heq.symm⟩

/-- So does an `add`, if the queue has not forgotten a job whose email was sent. -/
theorem Consistent.add {data : JobData} (h : Consistent w)
    (hname : ∃ slot, jobId = reminderJobId data.invoiceId slot)
    (hnew : w.queue.jobs jobId = none → ¬ w.Emailed jobId) (k : Nat) :
    Consistent (w.withQueue (w.queue.add jobId data)) ∧
      Untouched k w (w.withQueue (w.queue.add jobId data)) := by
  rcases w.queue.add_cases jobId data with heq | ⟨hnone, heq⟩ <;> rw [heq]
  · exact ⟨h, .refl k w⟩
  · have hset : ∀ id job, (w.queue.set jobId ⟨jobId, data, 0, .waiting⟩).jobs id = some job →
        w.queue.jobs id = some job ∨ id = jobId ∧ job = ⟨jobId, data, 0, .waiting⟩ := by
      intro id job hid
      rcases eq_or_ne id jobId with rfl | hne
      · cases Queue.set_self.symm.trans hid
        exact .inr ⟨rfl, rfl⟩
      · exact .inl ((Queue.set_of_ne hne).symm.trans hid)
    refine ⟨⟨?_, ?_, h.sentFor, h.once⟩, ⟨?_, fun _ h => .inl h⟩⟩
    · intro id job hid
      rcases hset id job hid with hold | ⟨rfl, rfl⟩
      · exact h.named id job hold
      · exact ⟨rfl, hname⟩
    · intro id job hemailed hid
      rcases hset id job hid with hold | ⟨rfl, -⟩
      · exact h.settled id job hemailed hold
      · exact absurd hemailed (hnew hnone)
    · intro j job hlocked _
      have hne : job.jobId ≠ jobId := by
        rintro rfl
        exact Option.some_ne_none _ (hlocked.1.symm.trans hnone)
      exact (Queue.set_of_ne hne).trans hlocked.1

/-! ## What is known of a call -/

/-- What a scheduler awaits. -/
def Scheduling : Act → Prop
  | .now | .findInvoicesDueSoon _ | .getJobs => True
  | .add jobId data => ∃ slot, jobId = reminderJobId data.invoiceId slot
  | _ => False

/-- The data of a job names its invoice. -/
theorem jobData_invoiceId {invoice : Invoice} {data : JobData} (h : jobData invoice = .ok data) :
    data.invoiceId = invoice.id := by
  simp only [jobData, bind_eq_ok, okOr_eq_ok, pure_eq_ok] at h
  obtain ⟨user, -, amount, -, rfl⟩ := h
  rfl

theorem enqueueReminder_only (slot : String) (inFlightIds : String → Bool) (invoice : Invoice) :
    (enqueueReminder slot inFlightIds invoice).Only Scheduling fun _ => True := by
  unfold enqueueReminder
  dsimp only
  split
  · trivial
  · cases hdata : jobData invoice with
    | error message => trivial
    | ok data =>
      refine ⟨⟨slot, by rw [jobData_invoiceId hdata]⟩, fun r => ?_⟩
      cases r <;> trivial

theorem forM_enqueueReminder_only (slot : String) (inFlightIds : String → Bool)
    (invoices : List Invoice) :
    Async.Only Scheduling (fun _ => True) (forM invoices (enqueueReminder slot inFlightIds)) := by
  induction invoices with
  | nil => trivial
  | cons invoice invoices ih =>
    rw [List.forM_cons]
    exact (enqueueReminder_only slot inFlightIds invoice).bind (fun _ _ => ih) fun _ _ => trivial

/-- A scheduler adds jobs that are named after their invoices, and awaits nothing of a worker. -/
theorem scheduleInvoiceReminders_only :
    scheduleInvoiceReminders.Only Scheduling fun _ => True := by
  refine ⟨trivial, fun now => ?_⟩
  cases now with
  | error message => trivial
  | ok now =>
    refine ⟨trivial, fun found => ?_⟩
    cases found with
    | error message => trivial
    | ok invoices =>
      refine ⟨trivial, fun jobs => ?_⟩
      cases jobs with
      | error message => exact forM_enqueueReminder_only _ _ invoices
      | ok inFlightIds => exact forM_enqueueReminder_only _ _ invoices

section Worker

variable (localeDate : Option String → String) (maxAttempts : Nat)

/-- A worker that has taken a job. -/
def sending (job : Job) : Task Unit := do
  let result ← tryCatch (.ok <$> handleReminder localeDate job) fun message =>
    pure (.error message)
  finish maxAttempts job result

/-- A worker that has sent the email of its job. -/
def notifying (job : Job) : Task Unit := do
  let result ← tryCatch
    (.ok <$> do
      act (.createNotification job.jobId (notification localeDate job.data))
      return job.data.invoiceId)
    fun message => pure (.error message)
  finish maxAttempts job result

/-- What a worker awaits after its job. -/
def Forwarding : Act → Prop
  | .addToDlq _ _ => True
  | _ => False

/-- What is known of a worker where it waits. -/
inductive WorkAt (k : Nat) (w : World) : Task Unit → Prop
  | taking : WorkAt k w (work localeDate maxAttempts)
  | sending (job : Job) : Locked k w job → ¬ w.Emailed job.jobId →
      WorkAt k w (sending localeDate maxAttempts job)
  | notifying (job : Job) : Locked k w job → WorkAt k w (notifying localeDate maxAttempts job)
  | finishing (job : Job) (result : Except String String) : Locked k w job →
      (∀ message, result = .error message →
        ¬ w.Emailed job.jobId ∨ Queue.attempts ≤ job.attemptsMade + 1) →
      WorkAt k w (finish maxAttempts job result)
  | forwarding (rest : Task Unit) : rest.Only Forwarding (fun _ => True) → WorkAt k w rest

variable {localeDate maxAttempts}

theorem WorkAt.untouched {rest : Task Unit} (h : WorkAt localeDate maxAttempts j w rest)
    (hw : Untouched k w w') (hne : j ≠ k) : WorkAt localeDate maxAttempts j w' rest := by
  cases h with
  | taking => exact .taking
  | sending job hlocked hnot =>
    exact .sending job (hlocked.untouched hw hne) (hlocked.not_emailed hnot hw hne)
  | notifying job hlocked => exact .notifying job (hlocked.untouched hw hne)
  | finishing job result hlocked herror =>
    refine .finishing job result (hlocked.untouched hw hne) fun message hmessage => ?_
    exact (herror message hmessage).imp_left fun hnot => hlocked.not_emailed hnot hw hne
  | forwarding rest honly => exact .forwarding rest honly

theorem onFailed_only (job : Job) (attemptsMade : Nat) (message : String) :
    (onFailed maxAttempts job attemptsMade message).Only Forwarding fun _ => True := by
  unfold onFailed
  split
  · exact ⟨trivial, fun r => by cases r <;> trivial⟩
  · trivial

theorem perform_send_cases (k : Nat) (jobId : String) (mail : Reminder) (c : Choice) (w : World) :
    (∃ message, perform k (.sendInvoiceReminder jobId mail) c w = (.error message, w)) ∨
    perform k (.sendInvoiceReminder jobId mail) c w =
      (.ok (), { w with sent := w.sent ++ [{ mail with jobId }] }) := by
  simp only [perform, unlessThrown]
  cases c.thrown with
  | none => exact .inr rfl
  | some message => exact .inl ⟨message, rfl⟩

theorem perform_notify_cases (k : Nat) (jobId : String) (n : Notification) (c : Choice)
    (w : World) :
    (∃ message, c.thrown = some message ∧
      perform k (.createNotification jobId n) c w = (.error message, w)) ∨
    perform k (.createNotification jobId n) c w = (.ok (), w) := by
  simp only [perform, unlessThrown]
  cases c.thrown with
  | none => exact .inr rfl
  | some message => exact .inl ⟨message, rfl, rfl⟩

/-- Nothing is changed after the job. -/
theorem perform_forwarding {a : Act} (ha : Forwarding a) (k : Nat) (c : Choice) (w : World) :
    (perform k a c w).2 = w := by
  cases a with
  | addToDlq data failedReason =>
    simp only [perform, unlessThrown]
    cases c.thrown <;> rfl
  | _ => exact ha.elim

/-- A worker that asks for a job gets none, or one that is locked and whose email was not sent. -/
theorem Consistent.taken (h : Consistent w) (k : Nat) (jobId : String) :
    (Consistent (w.withQueue (w.queue.take k jobId).2) ∧
      Untouched k w (w.withQueue (w.queue.take k jobId).2)) ∧
    ∀ job, (w.queue.take k jobId).1 = some job →
      Locked k (w.withQueue (w.queue.take k jobId).2) job ∧ ¬ w.Emailed job.jobId := by
  have htaken := h.advance (Queue.take_advances w.queue k jobId) False.elim
  refine ⟨htaken, fun job htake => ?_⟩
  obtain ⟨hjob, hactive, job₀, hjob₀, hwaiting⟩ := Queue.take_eq_some htake
  obtain ⟨hid, -⟩ := htaken.1.named jobId job hjob
  refine ⟨⟨(congrArg _ hid).trans hjob, hactive⟩, fun hemailed => ?_⟩
  -- a job whose email was sent is not waiting
  rw [hid] at hemailed
  have hsettled := h.settled jobId job₀ hemailed hjob₀
  rw [hwaiting] at hsettled
  exact hsettled

/-- A worker that has failed with its job hands it back: the job has no attempts left, or its email
was not sent. -/
theorem Consistent.failed {job : Job} (h : Consistent w) (hlocked : Locked k w job)
    (herror : ¬ w.Emailed job.jobId ∨ Queue.attempts ≤ job.attemptsMade + 1) :
    Consistent (w.withQueue (w.queue.moveToFailed k job.jobId).2) ∧
      Untouched k w (w.withQueue (w.queue.moveToFailed k job.jobId).2) := by
  refine h.advance (Queue.moveToFailed_advances hlocked.1) fun hleft hemailed => ?_
  rcases herror with hnot | hlast
  · exact hnot hemailed
  · exact absurd hleft (Nat.not_lt.2 hlast)

/-- A step of a worker keeps the invariant and leaves the others alone, and what is known of it
where it waits next. -/
theorem WorkAt.step {a : Act} {f : Except String a.Answer → Task Unit} {c : Choice}
    (hat : WorkAt localeDate maxAttempts k w (.await a f)) (h : Consistent w)
    (hok : ActHarmless c w a) :
    (Consistent (perform k a c w).2 ∧ Untouched k w (perform k a c w).2) ∧
      WorkAt localeDate maxAttempts k (perform k a c w).2 (f (perform k a c w).1) := by
  generalize hrest : Async.await a f = rest at hat
  cases hat with
  | taking =>
    cases hrest
    obtain ⟨htaken, hjob⟩ := h.taken k c.jobId
    refine ⟨htaken, ?_⟩
    change WorkAt localeDate maxAttempts k _ (match (w.queue.take k c.jobId).1 with
      | none => pure ()
      | some job => InvoiceReminder.sending localeDate maxAttempts job)
    cases htake : (w.queue.take k c.jobId).1 with
    | none => exact .forwarding _ trivial
    | some job =>
      obtain ⟨hlocked, hnot⟩ := hjob job htake
      exact .sending job hlocked hnot
  | sending job hlocked hnot =>
    cases hrest
    obtain ⟨message, hp⟩ | hp := perform_send_cases k job.jobId _ c w
    · rw [hp]
      exact ⟨⟨h, .refl k w⟩, .finishing job (.error message) hlocked fun _ _ => .inl hnot⟩
    · rw [hp]
      exact ⟨h.send hlocked hnot rfl rfl, .notifying job hlocked⟩
  | notifying job hlocked =>
    cases hrest
    obtain ⟨message, hthrown, hp⟩ | hp :=
      perform_notify_cases k job.jobId (notification localeDate job.data) c w
    · rw [hp]
      have hlast : Queue.attempts ≤ job.attemptsMade + 1 :=
        (hok.resolve_left fun hnone => Option.some_ne_none _ (hthrown.symm.trans hnone)) job
          hlocked.1
      exact ⟨⟨h, .refl k w⟩, .finishing job (.error message) hlocked fun _ _ => .inr hlast⟩
    · rw [hp]
      exact ⟨⟨h, .refl k w⟩,
        .finishing job (.ok job.data.invoiceId) hlocked fun _ herror => by cases herror⟩
  | finishing job result hlocked herror =>
    cases result with
    | ok invoiceId =>
      cases hrest
      exact ⟨h.advance (Queue.moveToCompleted_advances w.queue k job.jobId) False.elim,
        .forwarding _ trivial⟩
    | error message =>
      cases hrest
      exact ⟨h.failed hlocked (herror message rfl), .forwarding _ (onFailed_only job _ message)⟩
  | forwarding rest honly =>
    subst hrest
    rw [perform_forwarding honly.1]
    exact ⟨⟨h, .refl k w⟩, .forwarding _ (honly.2 _)⟩

end Worker

/-- A step of a scheduler keeps the invariant and leaves the workers alone. -/
theorem scheduling_step {a : Act} (ha : Scheduling a) {c : Choice} (h : Consistent w)
    (hok : ActHarmless c w a) (k : Nat) :
    Consistent (perform k a c w).2 ∧ Untouched k w (perform k a c w).2 := by
  cases a with
  | add jobId data =>
    have hstate : (perform k (.add jobId data) c w).2 =
        if c.Reaches then w.withQueue (w.queue.add jobId data) else w := by
      simp only [perform, unlessThrown]
      cases c.thrown <;> rfl
    rw [hstate]
    split
    · rename_i hreaches
      exact h.add ha (hok hreaches) k
    · exact ⟨h, .refl k w⟩
  | now => exact ⟨h, .refl k w⟩
  | findInvoicesDueSoon hours =>
    simp only [perform, unlessThrown]
    cases c.thrown <;> exact ⟨h, .refl k w⟩
  | getJobs =>
    simp only [perform, unlessThrown]
    cases c.thrown <;> exact ⟨h, .refl k w⟩
  | _ => exact ha.elim

/-! ## Runs -/

/-- What is known of a call. -/
def CallAt (localeDate : Option String → String) (maxAttempts : Nat) (k : Nat) :
    ReminderCall → Task Unit → World → Prop
  | .schedule, rest, _ => rest.Only Scheduling fun _ => True
  | .work, rest, w => WorkAt localeDate maxAttempts k w rest

theorem CallAt.untouched {localeDate : Option String → String} {maxAttempts : Nat}
    {call : ReminderCall} {rest : Task Unit} (h : CallAt localeDate maxAttempts j call rest w)
    (hw : Untouched k w w') (hne : j ≠ k) : CallAt localeDate maxAttempts j call rest w' := by
  cases call with
  | schedule => exact h
  | work => exact WorkAt.untouched h hw hne

theorem CallAt.step {localeDate : Option String → String} {maxAttempts : Nat}
    {call : ReminderCall} {a : Act} {f : Except String a.Answer → Task Unit} {c : Choice}
    (hat : CallAt localeDate maxAttempts k call (.await a f) w) (h : Consistent w)
    (hok : ActHarmless c w a) :
    (Consistent (perform k a c w).2 ∧ Untouched k w (perform k a c w).2) ∧
      CallAt localeDate maxAttempts k call (f (perform k a c w).1) (perform k a c w).2 := by
  cases call with
  | schedule => exact ⟨scheduling_step hat.1 h hok k, hat.2 _⟩
  | work => exact WorkAt.step hat h hok

/-- The argument as a proof outline. -/
def onceOutline (localeDate : Option String → String) (maxAttempts : Nat) :
    Outline (reminders localeDate maxAttempts) Harmless where
  Inv := Consistent
  At k := CallAt localeDate maxAttempts k
  start {_ call} _ _ _ := by
    cases call with
    | schedule => exact scheduleInvoiceReminders_only
    | work => exact .taking
  step hok hk hinv hat := by
    have hstep := CallAt.step (hat _ _ hk) hinv (hok _ hk _ rfl)
    exact ⟨hstep.1.1, hstep.2⟩
  stable hok hk hinv hat hne hj := by
    have hstep := CallAt.step (hat _ _ hk) hinv (hok _ hk _ rfl)
    exact (hat _ _ hj).untouched hstep.1.2 hne
  environ {p jobId} _ hinv hat := by
    have hwoken := fun k => hinv.advance (Queue.promote_advances p.state.queue k jobId) False.elim
    refine ⟨(hwoken 0).1, fun k call hcall => ?_⟩
    exact (hat k call hcall).untouched (hwoken (k + 1)).2 (Nat.ne_of_lt (Nat.lt_succ_self k))

/-- The emails of an invoice and a window. -/
def World.emailsOf (w : World) (invoiceId slot : String) : List SentReminder :=
  w.sent.filter fun mail => mail.invoiceId = invoiceId ∧ mail.jobId = reminderJobId invoiceId slot

/-- Every email is one of an invoice and a window, and no invoice and window have two. -/
structure RemindedOnce (w : World) : Prop where
  each : ∀ mail ∈ w.sent, ∃ slot, mail ∈ w.emailsOf mail.invoiceId slot
  once : ∀ invoiceId slot, (w.emailsOf invoiceId slot).length ≤ 1

/-- Nothing throws, and the clock stands at zero. -/
def calm : Choice := ⟨none, false, 0, [], ""⟩

def dueInvoice (id : String) : Invoice :=
  ⟨id, some "u", some ⟨"u@x", none⟩, some "10", some 0, some "USDC"⟩

/-- The `k`-th call is a run of a scheduler that finds the invoices and enqueues them all. -/
def scheduleRun (k : Nat) (ids : List String) : List ReminderMove :=
  [.start .schedule, .resume k calm, .resume k { calm with invoices := ids.map dueInvoice },
    .resume k calm] ++ ids.map fun _ => .resume k calm

/-- The `k`-th call is a worker that takes the job of an invoice and sends its email. -/
def emailRun (k : Nat) (id : String) : List ReminderMove :=
  [.start .work, .resume k { calm with jobId := reminderJobId id "0" }, .resume k calm]

/-- A run in which the job is retried after its email because its notification was refused. -/
def retriedRun : List ReminderMove :=
  scheduleRun 0 ["7"] ++ emailRun 1 "7" ++
    [.resume 1 { calm with thrown := some "Notification failed" }, .resume 1 calm,
      .environ (reminderJobId "7" "0")] ++ emailRun 2 "7"

/-- A run in which the job is added again after ten others have completed. -/
def forgottenRun : List ReminderMove :=
  let ids := (List.range 11).map toString
  scheduleRun 0 ids ++
    (ids.zipIdx 1).flatMap (fun (id, k) => emailRun k id ++ [.resume k calm, .resume k calm]) ++
    scheduleRun 12 ["0"] ++ emailRun 13 "0"

/-- A refused notification has an email sent twice, and so has a forgotten job. -/
theorem reminder_sent_twice :
    ¬ RemindedOnce
        (((reminders toString 3).machine .empty).exec ⟨.empty, []⟩ retriedRun).state ∧
      ¬ RemindedOnce
        (((reminders toString 3).machine .empty).exec ⟨.empty, []⟩ forgottenRun).state := by
  constructor
  · exact fun h => absurd (h.once "7" "0") (by decide +kernel)
  · exact fun h => absurd (h.once "0" "0") (by decide +kernel)

end InvoiceReminder

end Backend

end InvoiceFi
