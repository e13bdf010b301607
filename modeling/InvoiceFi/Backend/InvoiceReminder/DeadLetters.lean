import InvoiceFi.Backend.InvoiceReminder.DeadLetterQueue
import InvoiceFi.Backend.InvoiceReminder.Once

/-!
# What becomes of reminders that fail

The queue gives a job three attempts; the worker forwards it from the attempt `maxAttempts` on, a
number that is configured elsewhere. `dead_letters` says what that comes to: every failed attempt
from that number on has one letter, or its forward was lost, and no other attempt has one. So the
letters are those of the jobs that have failed for good if the numbers agree; a smaller one forwards
jobs that are retried, and a larger one none. `failure_log` follows the letters into the failure
records and the alerts, which tell neither the number of the attempts nor the error.

The argument is an outline of all programs. The workers of a job have it locked, so what they hand
back is what they took; the calls are numbered, and what they leave carries their numbers.
-/

namespace InvoiceFi

namespace Backend

namespace InvoiceReminder

variable {k j : Nat} {q : Queue} {w : World} {job : Job} {jobId : String} {s s' : DlqStore}
  {maxAttempts : Nat}

/-! ## The jobs of the queue -/

/-- The job has not finished. -/
def JobState.Open : JobState → Prop
  | .waiting | .delayed | .active _ => True
  | .completed _ | .failed _ => False

/-- The jobs are under their ids, and those that have not finished have attempts left. -/
def WellFormed (q : Queue) : Prop :=
  ∀ id job, q.jobs id = some job →
    job.jobId = id ∧ (job.state.Open → job.attemptsMade < Queue.attempts)

theorem WellFormed.set (h : WellFormed q) (hid : job.jobId = jobId)
    (hopen : job.state.Open → job.attemptsMade < Queue.attempts) :
    WellFormed (q.set jobId job) := by
  intro id job' hjob'
  rcases eq_or_ne id jobId with rfl | hne
  · cases Queue.set_self.symm.trans hjob'
    exact ⟨hid, hopen⟩
  · exact h id job' ((Queue.set_of_ne hne).symm.trans hjob')

theorem WellFormed.trim (h : WellFormed q) : WellFormed q.trim :=
  fun id job hjob => h id job (Option.eq_some_of_filter_eq_some hjob)

theorem WellFormed.take (h : WellFormed q) (k : Nat) (jobId : String) :
    WellFormed (q.take k jobId).2 := by
  unfold Queue.take
  cases hjob : q.jobs jobId with
  | none => exact h
  | some job =>
    dsimp only
    split
    · next hwaiting => exact h.set (h _ _ hjob).1 fun _ => (h _ _ hjob).2 (hwaiting ▸ trivial)
    · exact h

theorem WellFormed.moveToCompleted (h : WellFormed q) (k : Nat) (jobId : String) :
    WellFormed (q.moveToCompleted k jobId) := by
  unfold Queue.moveToCompleted
  cases hjob : q.jobs jobId with
  | none => exact h
  | some job =>
    dsimp only
    split
    · exact WellFormed.trim (h.set (h _ _ hjob).1 False.elim)
    · exact h

theorem WellFormed.moveToFailed (h : WellFormed q) (k : Nat) (jobId : String) :
    WellFormed (q.moveToFailed k jobId).2 := by
  unfold Queue.moveToFailed
  cases hjob : q.jobs jobId with
  | none => exact h
  | some job =>
    dsimp only
    split
    · split
      · next hleft => exact h.set (h _ _ hjob).1 fun _ => hleft
      · exact WellFormed.trim (h.set (h _ _ hjob).1 False.elim)
    · exact h

theorem WellFormed.promote (h : WellFormed q) (jobId : String) : WellFormed (q.promote jobId) := by
  unfold Queue.promote
  cases hjob : q.jobs jobId with
  | none => exact h
  | some job =>
    dsimp only
    split
    · next hdelayed => exact h.set (h _ _ hjob).1 fun _ => (h _ _ hjob).2 (hdelayed ▸ trivial)
    · exact h

theorem WellFormed.add (h : WellFormed q) (jobId : String) (data : JobData) :
    WellFormed (q.add jobId data) := by
  rcases q.add_cases jobId data with heq | ⟨-, heq⟩ <;> rw [heq]
  · exact h
  · exact h.set rfl fun _ => Nat.zero_lt_succ 2

/-- Every action of a scheduler or a worker keeps the queue well formed. -/
theorem WellFormed.perform (h : WellFormed w.queue) (k : Nat) (a : Act) (c : Choice) :
    WellFormed (perform k a c w).2.queue := by
  cases a with
  | now => exact h
  | take => exact h.take k c.jobId
  | moveToCompleted jobId => exact h.moveToCompleted k jobId
  | moveToFailed jobId => exact h.moveToFailed k jobId
  | add jobId data =>
    simp only [InvoiceReminder.perform, unlessThrown]
    split <;> split
    · exact h.add jobId data
    · exact h
    · exact h.add jobId data
    · exact h
  | findInvoicesDueSoon | getJobs | sendInvoiceReminder | createNotification | addToDlq =>
    simp only [InvoiceReminder.perform, unlessThrown]
    split <;> exact h

/-- What a worker has locked is left alone by the others. -/
theorem Locked.perform (h : Locked k w job) (hne : k ≠ j) (a : Act) (c : Choice) :
    Locked k (perform j a c w).2 job := by
  refine ⟨?_, h.2⟩
  cases a with
  | now => exact h.1
  | take => exact (Queue.take_advances w.queue j c.jobId).locked _ job k h.1 h.2 hne
  | moveToCompleted jobId =>
    exact (Queue.moveToCompleted_advances w.queue j jobId).locked _ job k h.1 h.2 hne
  | moveToFailed jobId =>
    cases hjob : w.queue.jobs jobId with
    | none =>
      simp only [InvoiceReminder.perform, World.withQueue, Queue.moveToFailed, hjob]
      exact h.1
    | some job' => exact (Queue.moveToFailed_advances hjob).locked _ job k h.1 h.2 hne
  | add jobId data =>
    have hadd : (w.queue.add jobId data).jobs job.jobId = some job := by
      rcases w.queue.add_cases jobId data with heq | ⟨hnone, heq⟩ <;> rw [heq]
      · exact h.1
      · have hother : job.jobId ≠ jobId := by
          rintro rfl
          cases h.1.symm.trans hnone
        exact (Queue.set_of_ne hother).trans h.1
    simp only [InvoiceReminder.perform, unlessThrown]
    split <;> split
    · exact hadd
    · exact h.1
    · exact hadd
    · exact h.1
  | findInvoicesDueSoon | getJobs | sendInvoiceReminder | createNotification | addToDlq =>
    simp only [InvoiceReminder.perform, unlessThrown]
    split <;> exact h.1

/-- A worker that hands its job back has made one more attempt, and the queue retries the job if it
has attempts left. -/
theorem Locked.moveToFailed (h : Locked k w job) :
    (w.queue.moveToFailed k job.jobId).1 = job.attemptsMade + 1 ∧
      ((w.queue.moveToFailed k job.jobId).2.retries job.jobId = true ↔
        job.attemptsMade + 1 < Queue.attempts) := by
  unfold Queue.moveToFailed
  simp only [h.1]
  rw [if_pos h.2]
  split
  · next hleft =>
    refine ⟨rfl, fun _ => hleft, fun _ => ?_⟩
    simp [Queue.retries, Queue.set]
  · next hlast =>
    refine ⟨rfl, fun hretries => absurd hretries ?_, fun hleft => absurd hleft hlast⟩
    simp [Queue.retries, Queue.trim, Queue.set, Queue.keeps, Queue.removeOnFail]

/-! ## What a call leaves -/

/-- The call has left nothing. -/
structure Unwritten (k : Nat) (s : DlqStore) : Prop where
  failures : ∀ failure ∈ s.failures, failure.worker ≠ k
  letters : ∀ letter ∈ s.letters, letter.worker ≠ k
  takenBy : ∀ id, s.takenBy id ≠ some k

/-- What the call `k` has left and what it has locked is as before, and nothing that was written is
gone. -/
structure Spared (k : Nat) (s s' : DlqStore) : Prop where
  locked : ∀ job, Locked k s.world job → Locked k s'.world job
  thrown : s'.thrown k = s.thrown k
  failures : ∀ failure, failure.worker = k → (failure ∈ s'.failures ↔ failure ∈ s.failures)
  letters : ∀ letter, letter.worker = k → (letter ∈ s'.letters ↔ letter ∈ s.letters)
  takenBy : ∀ id, s'.takenBy id = some k ↔ s.takenBy id = some k
  posted : ∀ letter ∈ s.letters, letter ∈ s'.letters
  lost : ∀ i ∈ s.lost, i ∈ s'.lost
  records : ∀ record ∈ s.records, record ∈ s'.records
  unrecorded : ∀ id ∈ s.unrecorded, id ∈ s'.unrecorded
  alerts : ∀ alert ∈ s.alerts, alert ∈ s'.alerts
  unalerted : ∀ id ∈ s.unalerted, id ∈ s'.unalerted

theorem Unwritten.spared (h : Unwritten k s) (hs : Spared k s s') : Unwritten k s' where
  failures failure hmem hk := h.failures failure ((hs.failures failure hk).1 hmem) hk
  letters letter hmem hk := h.letters letter ((hs.letters letter hk).1 hmem) hk
  takenBy id hk := h.takenBy id ((hs.takenBy id).1 hk)

/-- What an action of the reminders changes, beside what the worker has been thrown: it may note a
failure of the worker, add a letter of the worker, or lose one. -/
inductive Noted (k : Nat) (s : DlqStore) : DlqStore → Prop
  | nothing (thrown : Nat → Option String) (w : World) :
    (∀ i, i ≠ k → thrown i = s.thrown i) → Noted k s { s with thrown, world := w }
  | failed (failures : List Failure) (w : World) : (∀ failure ∈ failures, failure.worker = k) →
    Noted k s { s with failures := s.failures ++ failures, world := w }
  | posted (data : JobData) (message : String) (w : World) :
    Noted k s { s.addLetter k data message with world := w }
  | lost (w : World) : Noted k s { s with lost := k :: s.lost, world := w }

theorem failure?_worker {failure : Failure} (h : failure ∈ s.failure? k jobId) :
    failure.worker = k := by
  obtain ⟨job, -, rfl⟩ := Option.map_eq_some_iff.1 h
  rfl

theorem noted_perform (k : Nat) (a : Act) (c : Choice) (s : DlqStore) :
    Noted k s (performDlq k (.reminder a) c s).2 := by
  have hsame := fun w => Noted.nothing (s := s) (k := k) s.thrown w fun _ _ => rfl
  cases a with
  | sendInvoiceReminder | createNotification =>
    exact .nothing _ _ fun i hi => Function.update_of_ne hi _ _
  | moveToFailed jobId =>
    exact .failed _ _ fun failure hmem => failure?_worker (Option.mem_toList.1 hmem)
  | addToDlq data message =>
    simp only [performDlq, DlqStore.noting]
    split
    · exact .posted data message _
    · exact .lost _
  | now | findInvoicesDueSoon | getJobs | add | take | moveToCompleted => exact hsame _

/-- An action of one call spares the others. -/
theorem spared_perform (hne : k ≠ j) (a : DlqAct) (c : Choice) (s : DlqStore) :
    Spared k s (performDlq j a c s).2 := by
  have hrefl : Spared k s s := ⟨fun _ h => h, rfl, fun _ _ => .rfl, fun _ _ => .rfl, fun _ => .rfl,
    fun _ h => h, fun _ h => h, fun _ h => h, fun _ h => h, fun _ h => h, fun _ h => h⟩
  cases a with
  | reminder a =>
    have hlocked : ∀ job, Locked k s.world job →
        Locked k (performDlq j (.reminder a) c s).2.world job :=
      fun job h => h.perform hne a c
    generalize (performDlq j (.reminder a) c s).2 = s', noted_perform j a c s = hnoted at *
    cases hnoted with
    | nothing thrown w hthrown => exact { hrefl with locked := hlocked, thrown := hthrown k hne }
    | failed failures w hfailures =>
      refine { hrefl with locked := hlocked, failures := fun failure hk => ?_ }
      rw [List.mem_append, or_iff_left]
      exact fun hmem => hne (hk.symm.trans (hfailures failure hmem))
    | posted data message w =>
      refine { hrefl with
        locked := hlocked
        letters := fun letter hk => ?_
        posted := fun letter hmem => List.mem_append_left _ hmem }
      simp only [DlqStore.addLetter, List.mem_append, List.mem_singleton]
      rw [or_iff_left]
      rintro rfl
      exact hne hk.symm
    | lost w =>
      exact { hrefl with locked := hlocked, lost := fun i hi => List.mem_cons_of_mem _ hi }
  | takeLetter =>
    simp only [performDlq, DlqStore.takeLetter]
    split
    · next letter hfind =>
      refine { hrefl with takenBy := fun id => ?_ }
      have hfree : s.takenBy letter.id = none := by
        have hfound := List.find?_some hfind
        rw [decide_eq_true_eq] at hfound
        exact hfound.2
      dsimp only
      rcases eq_or_ne id letter.id with rfl | hid
      · rw [Function.update_self, hfree]
        simpa using hne.symm
      · rw [Function.update_of_ne hid]
    · exact hrefl
  | create id record =>
    simp only [performDlq, thrownOr]
    split
    · exact { hrefl with unrecorded := fun i hi => List.mem_cons_of_mem _ hi }
    · exact { hrefl with records := fun r hr => List.mem_cons_of_mem _ hr }
  | now => exact hrefl
  | dispatch id alert =>
    simp only [performDlq, thrownOr]
    split
    · exact { hrefl with unalerted := fun i hi => List.mem_cons_of_mem _ hi }
    · exact { hrefl with alerts := fun r hr => List.mem_cons_of_mem _ hr }

/-! ## The invariant -/

/-- The letter is of the failed attempt: it comes from the worker, with the data of the job and with
the error. -/
def Letter.Of (letter : Letter) (failure : Failure) : Prop :=
  letter.worker = failure.worker ∧ letter.data = failure.data ∧
    letter._failedReason = failure.message

/-- The failed attempt has its letter, or its forward was lost. -/
def Forwarded (s : DlqStore) (failure : Failure) : Prop :=
  failure.worker ∈ s.lost ∨ ∃ letter ∈ s.letters, letter.Of failure

/-- The failed attempt is one that the queue gives, and is retried unless it is the last. -/
def Failure.Counted (failure : Failure) : Prop :=
  0 < failure.attemptsMade ∧ failure.attemptsMade ≤ Queue.attempts ∧
    (failure.retried = true ↔ failure.attemptsMade < Queue.attempts)

/-- The failed attempts are of different workers and so are the letters, and every letter is of an
attempt from `maxAttempts` on. -/
structure Posted (maxAttempts : Nat) (s : DlqStore) : Prop where
  queue : WellFormed s.world.queue
  counted : ∀ failure ∈ s.failures, failure.Counted
  each : (s.failures.map Failure.worker).Nodup
  once : (s.letters.map Letter.worker).Nodup
  backed : ∀ letter ∈ s.letters, ∃ failure ∈ s.failures,
    letter.Of failure ∧ maxAttempts ≤ failure.attemptsMade

/-- The letters are numbered, and the records and the alerts are of different letters. -/
structure Filed (s : DlqStore) : Prop where
  numbered : (s.letters.map fun letter => letter.id).Nodup
  bounded : ∀ letter ∈ s.letters, letter.id ≤ s.letters.length
  fresh : ∀ letter ∈ s.letters, letter.attemptsMade = 0 ∧ letter.failedReason = none
  records : ∀ record ∈ s.records, ∃ letter ∈ s.letters,
    s.takenBy letter.id ≠ none ∧ record = letter.record
  recordedOnce : (s.records.map InvoiceReminderFailure.jobId).Nodup
  alerts : ∀ alert ∈ s.alerts, ∃ letter ∈ s.letters,
    s.takenBy letter.id ≠ none ∧ ∃ now, alert = letter.alert now
  alertedOnce : (s.alerts.map AnomalyAlert.id).Nodup

/-- A letter is the only one of its number. -/
theorem Filed.eq_of_id (h : Filed s) {letter letter' : Letter} (hmem : letter ∈ s.letters)
    (hmem' : letter' ∈ s.letters) (hid : letter.id = letter'.id) : letter = letter' :=
  List.inj_on_of_nodup_map h.numbered hmem hmem' hid

/-- A letter that is added gets a number of its own. -/
theorem Filed.addLetter (h : Filed s) (k : Nat) (data : JobData) (message : String) :
    Filed (s.addLetter k data message) := by
  have hposted : ∀ letter ∈ s.letters, letter ∈ (s.addLetter k data message).letters :=
    fun letter hmem => List.mem_append_left _ hmem
  have hlength : (s.addLetter k data message).letters.length = s.letters.length + 1 :=
    List.length_append
  refine { h with
    numbered := ?_
    bounded := fun letter hmem => ?_
    fresh := fun letter hmem => ?_
    records := fun record hmem => ?_
    alerts := fun alert hmem => ?_ }
  · simp only [DlqStore.addLetter, List.map_append, List.map_cons, List.map_nil]
    refine List.nodup_append.2 ⟨h.numbered, List.nodup_singleton _, ?_⟩
    intro id hid id' hid' heq
    obtain ⟨letter, hmem, rfl⟩ := List.mem_map.1 hid
    have hle := h.bounded letter hmem
    rw [heq, List.mem_singleton.1 hid'] at hle
    exact Nat.not_succ_le_self _ hle
  · rw [hlength]
    rcases List.mem_append.1 hmem with hold | hnew
    · exact Nat.le_succ_of_le (h.bounded letter hold)
    · rw [List.mem_singleton.1 hnew]
  · rcases List.mem_append.1 hmem with hold | hnew
    · exact h.fresh letter hold
    · rw [List.mem_singleton.1 hnew]
      exact ⟨rfl, rfl⟩
  · obtain ⟨letter, hletter, htaken⟩ := h.records record hmem
    exact ⟨letter, hposted letter hletter, htaken⟩
  · obtain ⟨letter, hletter, htaken⟩ := h.alerts alert hmem
    exact ⟨letter, hposted letter hletter, htaken⟩

/-- The queue and the errors may change as they like. -/
theorem Posted.world (h : Posted maxAttempts s) (thrown : Nat → Option String)
    (hw : WellFormed w.queue) : Posted maxAttempts { s with thrown, world := w } where
  queue := hw
  counted := h.counted
  each := h.each
  once := h.once
  backed := h.backed

/-- A worker that has left nothing notes a failed attempt. -/
theorem Posted.failed (h : Posted maxAttempts s) (hk : Unwritten k s) {failure : Failure}
    (hworker : failure.worker = k) (hcounted : failure.Counted) (hw : WellFormed w.queue) :
    Posted maxAttempts { s with failures := s.failures ++ [failure], world := w } where
  queue := hw
  counted failure' hmem := by
    rcases List.mem_append.1 hmem with hold | hnew
    · exact h.counted failure' hold
    · rw [List.mem_singleton.1 hnew]
      exact hcounted
  each := by
    rw [List.map_append, List.nodup_append]
    refine ⟨h.each, List.nodup_singleton _, ?_⟩
    intro worker hmem worker' hmem' heq
    obtain ⟨failure', hold, rfl⟩ := List.mem_map.1 hmem
    rw [List.mem_singleton.1 hmem'] at heq
    exact hk.failures failure' hold (heq.trans hworker)
  once := h.once
  backed letter hmem := by
    obtain ⟨failure', hold, hof⟩ := h.backed letter hmem
    exact ⟨failure', List.mem_append_left _ hold, hof⟩

/-- A worker without a letter forwards its failed attempt. -/
theorem Posted.addLetter (h : Posted maxAttempts s) {failure : Failure}
    (hfailure : failure ∈ s.failures) (hworker : failure.worker = k)
    (hmax : maxAttempts ≤ failure.attemptsMade) (hk : ∀ letter ∈ s.letters, letter.worker ≠ k) :
    Posted maxAttempts (s.addLetter k failure.data failure.message) where
  queue := h.queue
  counted := h.counted
  each := h.each
  once := by
    simp only [DlqStore.addLetter, List.map_append, List.map_cons, List.map_nil]
    refine List.nodup_append.2 ⟨h.once, List.nodup_singleton _, ?_⟩
    intro worker hmem worker' hmem' heq
    obtain ⟨letter, hold, rfl⟩ := List.mem_map.1 hmem
    exact hk letter hold (heq.trans (List.mem_singleton.1 hmem'))
  backed letter hmem := by
    rcases List.mem_append.1 hmem with hold | hnew
    · exact h.backed letter hold
    · rw [List.mem_singleton.1 hnew]
      exact ⟨failure, hfailure, ⟨hworker.symm, rfl, rfl⟩, hmax⟩

/-! ## The workers of the reminders -/

section Worker

variable (localeDate : Option String → String) (maxAttempts : Nat)

/-- The end of `onFailed`, for an attempt that is forwarded. -/
def forwarding (data : JobData) (message : String) : Task Unit :=
  tryCatch (act (.addToDlq data message)) fun _ => pure ()

/-- What is known of a worker where it waits. Until it hands its job back it has left nothing, and
then it has left one failed attempt. -/
inductive WorkerAt (k : Nat) (s : DlqStore) : DlqTask Unit → Prop
  | taking : Unwritten k s → WorkerAt k s (ofReminder (work localeDate maxAttempts))
  | sending (job : Job) : Unwritten k s → Locked k s.world job →
      WorkerAt k s (ofReminder (sending localeDate maxAttempts job))
  | notifying (job : Job) : Unwritten k s → Locked k s.world job →
      WorkerAt k s (ofReminder (notifying localeDate maxAttempts job))
  | completing (job : Job) (invoiceId : String) : Unwritten k s →
      WorkerAt k s (ofReminder (finish maxAttempts job (.ok invoiceId)))
  | failing (job : Job) (message : String) : Unwritten k s → Locked k s.world job →
      s.thrown k = some message →
      WorkerAt k s (ofReminder (finish maxAttempts job (.error message)))
  | forwarding (failure : Failure) : failure ∈ s.failures → failure.worker = k →
      maxAttempts ≤ failure.attemptsMade →
      (∀ failure' ∈ s.failures, failure'.worker = k → failure' = failure) →
      (∀ letter ∈ s.letters, letter.worker ≠ k) →
      WorkerAt k s (ofReminder (forwarding failure.data failure.message))
  | ended (r : Except String Unit) :
      (∀ failure ∈ s.failures, failure.worker = k → maxAttempts ≤ failure.attemptsMade →
        Forwarded s failure) →
      WorkerAt k s (.done r)

end Worker

variable {localeDate : Option String → String}

theorem Forwarded.spared {failure : Failure} (h : Forwarded s failure) (hs : Spared k s s') :
    Forwarded s' failure := by
  rcases h with hlost | ⟨letter, hmem, hof⟩
  · exact .inl (hs.lost _ hlost)
  · exact .inr ⟨letter, hs.posted letter hmem, hof⟩

/-- What is known of a worker is not changed by the others. -/
theorem WorkerAt.spared {rest : DlqTask Unit} (h : WorkerAt localeDate maxAttempts k s rest)
    (hs : Spared k s s') : WorkerAt localeDate maxAttempts k s' rest := by
  cases h with
  | taking hk => exact .taking (hk.spared hs)
  | sending job hk hlocked => exact .sending job (hk.spared hs) (hs.locked job hlocked)
  | notifying job hk hlocked => exact .notifying job (hk.spared hs) (hs.locked job hlocked)
  | completing job invoiceId hk => exact .completing job invoiceId (hk.spared hs)
  | failing job message hk hlocked hthrown =>
    exact .failing job message (hk.spared hs) (hs.locked job hlocked) (hs.thrown.trans hthrown)
  | forwarding failure hmem hworker hmax honly hnone =>
    refine .forwarding failure ((hs.failures failure hworker).2 hmem) hworker hmax ?_ ?_
    · exact fun failure' hmem' hk => honly failure' ((hs.failures failure' hk).1 hmem') hk
    · exact fun letter hletter hk => hnone letter ((hs.letters letter hk).1 hletter) hk
  | ended r hdone =>
    refine .ended r fun failure hmem hk hmax => ?_
    exact (hdone failure ((hs.failures failure hk).1 hmem) hk hmax).spared hs

/-- A worker that is done has forwarded what it had to forward. -/
theorem WorkerAt.forwarded {failure : Failure} {r : Except String Unit}
    (h : WorkerAt localeDate maxAttempts failure.worker s (.done r)) (hmem : failure ∈ s.failures)
    (hmax : maxAttempts ≤ failure.attemptsMade) : Forwarded s failure := by
  generalize hrest : Async.done r = rest at h
  cases h with
  | ended r' hdone => exact hdone failure hmem rfl hmax
  | taking | sending | notifying | failing | completing | forwarding => cases hrest

/-- A call that has left nothing has nothing to forward. -/
theorem WorkerAt.ended_unwritten (h : Unwritten k s) (r : Except String Unit) :
    WorkerAt localeDate maxAttempts k s (.done r) :=
  .ended r fun failure hmem hk => absurd hk (h.failures failure hmem)

/-- An action that only has the world change leaves the call without anything. -/
theorem Unwritten.world (h : Unwritten k s) (thrown : Nat → Option String) (w : World) :
    Unwritten k { s with thrown, world := w } :=
  ⟨h.failures, h.letters, h.takenBy⟩

/-- The failed attempt that a worker hands back. -/
theorem Locked.failure? (h : Locked k s.world job) {message : String}
    (hthrown : s.thrown k = some message) (hopen : job.attemptsMade < Queue.attempts) :
    ∃ failure, s.failure? k job.jobId = some failure ∧ failure.worker = k ∧
      failure.data = job.data ∧ failure.message = message ∧
      failure.attemptsMade = (s.world.queue.moveToFailed k job.jobId).1 ∧ failure.Counted := by
  obtain ⟨hmade, hretries⟩ := h.moveToFailed
  refine ⟨⟨k, job.data, message, (s.world.queue.moveToFailed k job.jobId).1,
    (s.world.queue.moveToFailed k job.jobId).2.retries job.jobId⟩, ?_, rfl, rfl, rfl, rfl, ?_⟩
  · rw [DlqStore.failure?, h.1, Option.filter_some, if_pos (decide_eq_true h.2), Option.map_some,
      hthrown, Option.getD_some]
  · refine ⟨?_, ?_, ?_⟩ <;> dsimp only <;> rw [hmade]
    · exact Nat.succ_pos _
    · exact hopen
    · exact hretries

/-- The email of a job. -/
def mailOf (job : Job) : Reminder where
  recipient := job.data.userEmail
  userName := job.data.userName
  invoiceId := job.data.invoiceId
  amount := job.data.amount
  dueDate := job.data.dueDate
  tokenType := job.data.tokenType

/-- A step of a worker keeps the invariant, and what is known of it where it waits next. -/
theorem WorkerAt.step {a : DlqAct} {f : Except String a.Answer → DlqTask Unit} {c : Choice}
    (hat : WorkerAt localeDate maxAttempts k s (.await a f)) (hposted : Posted maxAttempts s)
    (hfiled : Filed s) :
    (Posted maxAttempts (performDlq k a c s).2 ∧ Filed (performDlq k a c s).2) ∧
      WorkerAt localeDate maxAttempts k (performDlq k a c s).2 (f (performDlq k a c s).1) := by
  generalize hrest : Async.await a f = rest at hat
  cases hat with
  | taking hk =>
    cases hrest
    have hqueue := hposted.queue.take k c.jobId
    refine ⟨⟨hposted.world s.thrown hqueue, { hfiled with }⟩, ?_⟩
    change WorkerAt localeDate maxAttempts k _ (ofReminder (match (s.world.queue.take k c.jobId).1
      with
      | none => pure ()
      | some job => InvoiceReminder.sending localeDate maxAttempts job))
    cases htake : (s.world.queue.take k c.jobId).1 with
    | none => exact .ended_unwritten (hk.world s.thrown _) _
    | some job =>
      obtain ⟨hjob, hactive, -⟩ := Queue.take_eq_some htake
      have hid : job.jobId = c.jobId := (hqueue c.jobId job hjob).1
      refine .sending job (hk.world s.thrown _) ⟨?_, hactive⟩
      rw [hid]
      exact hjob
  | sending job hk hlocked =>
    cases hrest
    have hqueue := hposted.queue.perform k (.sendInvoiceReminder job.jobId (mailOf job)) c
    refine ⟨⟨hposted.world _ hqueue, { hfiled with }⟩, ?_⟩
    simp only [performDlq, DlqStore.noting, perform, unlessThrown]
    cases hthrown : c.thrown with
    | some message => exact .failing job message (hk.world _ _) hlocked (Function.update_self ..)
    | none => exact .notifying job (hk.world _ _) hlocked
  | notifying job hk hlocked =>
    cases hrest
    have hqueue := hposted.queue.perform k
      (.createNotification job.jobId (notification localeDate job.data)) c
    refine ⟨⟨hposted.world _ hqueue, { hfiled with }⟩, ?_⟩
    simp only [performDlq, DlqStore.noting, perform, unlessThrown]
    cases hthrown : c.thrown with
    | some message => exact .failing job message (hk.world _ _) hlocked (Function.update_self ..)
    | none => exact .completing job job.data.invoiceId (hk.world _ _)
  | completing job invoiceId hk =>
    cases hrest
    exact ⟨⟨hposted.world s.thrown (hposted.queue.moveToCompleted k job.jobId), { hfiled with }⟩,
      .ended_unwritten (hk.world s.thrown _) _⟩
  | failing job message hk hlocked hthrown =>
    cases hrest
    have hopen : job.attemptsMade < Queue.attempts :=
      (hposted.queue job.jobId job hlocked.1).2 (hlocked.2 ▸ trivial)
    obtain ⟨failure, hfailure, hworker, hdata, hmessage, hmade, hcounted⟩ :=
      hlocked.failure? hthrown hopen
    simp only [performDlq, DlqStore.noting, hfailure, Option.toList_some]
    refine ⟨⟨hposted.failed hk hworker hcounted (hposted.queue.moveToFailed k job.jobId),
      { hfiled with }⟩, ?_⟩
    -- the failed attempt is the only one of the worker
    have honly : ∀ failure' ∈ s.failures ++ [failure], failure'.worker = k →
        failure' = failure := by
      intro failure' hmem' hk'
      rcases List.mem_append.1 hmem' with hold | hnew
      · exact absurd hk' (hk.failures failure' hold)
      · exact List.mem_singleton.1 hnew
    change WorkerAt localeDate maxAttempts k _
      (ofReminder (onFailed maxAttempts job (s.world.queue.moveToFailed k job.jobId).1 message))
    rw [onFailed, ← hmade, ← hdata, ← hmessage]
    split
    · next hmax =>
      exact .forwarding failure (List.mem_append_right _ (List.mem_singleton_self _)) hworker hmax
        honly hk.letters
    · next hmax =>
      refine .ended _ fun failure' hmem' hk' hmax' => ?_
      rw [honly failure' hmem' hk'] at hmax'
      exact absurd hmax' hmax
  | forwarding failure hmem hworker hmax honly hnone =>
    cases hrest
    -- the worker ends, whatever the `add` answers
    have hended : ∀ (s' : DlqStore) (r : Except String Unit), s'.failures = s.failures →
        Forwarded s' failure → WorkerAt localeDate maxAttempts k s'
          (ofReminder (tryCatch (Async.done r) fun _ => pure ())) := by
      intro s' r hsame hforwarded
      have hall : ∀ failure' ∈ s'.failures, failure'.worker = k →
          maxAttempts ≤ failure'.attemptsMade → Forwarded s' failure' := by
        intro failure' hmem' hk' _
        rw [hsame] at hmem'
        rw [honly failure' hmem' hk']
        exact hforwarded
      cases r <;> exact .ended _ hall
    have hworld : (perform k (.addToDlq failure.data failure.message) c s.world).2 = s.world :=
      perform_forwarding (a := .addToDlq failure.data failure.message) trivial k c s.world
    simp only [performDlq, DlqStore.noting, hworld]
    split
    · have hletter : ∃ letter ∈ (s.addLetter k failure.data failure.message).letters,
          letter.Of failure :=
        ⟨_, List.mem_append_right _ (List.mem_singleton_self _), hworker.symm, rfl, rfl⟩
      exact ⟨⟨hposted.addLetter hmem hworker hmax hnone, hfiled.addLetter k _ _⟩,
        hended _ _ rfl (.inr hletter)⟩
    · refine ⟨⟨{ hposted with }, { hfiled with }⟩, hended _ _ rfl (.inl ?_)⟩
      rw [hworker]
      exact List.mem_cons_self
  | ended r hdone => cases hrest

/-! ## The workers of the dead letters -/

/-- The letter has its record, or that could not be written. -/
def Recorded (s : DlqStore) (letter : Letter) : Prop :=
  letter.id ∈ s.unrecorded ∨ letter.record ∈ s.records

/-- The letter has its alert, or that could not be dispatched. -/
def Alerted (s : DlqStore) (letter : Letter) : Prop :=
  letter.id ∈ s.unalerted ∨ ∃ now, letter.alert now ∈ s.alerts

/-- The worker has taken the letter and no other. -/
structure Holds (k : Nat) (s : DlqStore) (letter : Letter) : Prop where
  mem : letter ∈ s.letters
  taken : s.takenBy letter.id = some k
  only : ∀ id, s.takenBy id = some k → id = letter.id

/-- No record is of the job. -/
def NoRecord (s : DlqStore) (id : Nat) : Prop := ∀ record ∈ s.records, record.jobId ≠ toString id

/-- No alert is of the job. -/
def NoAlert (s : DlqStore) (id : Nat) : Prop :=
  ∀ alert ∈ s.alerts, alert.id ≠ "invoice-reminder-dlq-" ++ toString id

/-- What is known of a worker of the dead letters where it waits. -/
inductive HandlerAt (k : Nat) (s : DlqStore) : DlqTask Unit → Prop
  | taking : Unwritten k s → HandlerAt k s workDlq
  | recording (letter : Letter) : Holds k s letter → NoRecord s letter.id → NoAlert s letter.id →
      HandlerAt k s (handleDlq letter.toDlqJob)
  | alerting (letter : Letter) : Holds k s letter → Recorded s letter → NoAlert s letter.id →
      HandlerAt k s (dispatchAlert letter.toDlqJob)
  | dispatching (letter : Letter) (now : Nat) : Holds k s letter → Recorded s letter →
      NoAlert s letter.id →
      HandlerAt k s (tryCatch (dlqAct (.dispatch letter.id (letter.alert now))) fun _ => pure ())
  | idle (r : Except String Unit) : (∀ id, s.takenBy id ≠ some k) → HandlerAt k s (.done r)
  | ended (r : Except String Unit) (letter : Letter) : Holds k s letter → Recorded s letter →
      Alerted s letter → HandlerAt k s (.done r)

/-- The records and the alerts that a step of another call adds are of other letters than those of
the call `k`. -/
structure Undisturbed (k : Nat) (s s' : DlqStore) : Prop extends Spared k s s' where
  newRecords : ∀ record ∈ s'.records, record ∈ s.records ∨
    ∃ id, s.takenBy id ≠ some k ∧ record.jobId = toString id
  newAlerts : ∀ alert ∈ s'.alerts, alert ∈ s.alerts ∨
    ∃ id, s.takenBy id ≠ some k ∧ alert.id = "invoice-reminder-dlq-" ++ toString id

theorem Holds.spared {letter : Letter} (h : Holds k s letter) (hs : Spared k s s') :
    Holds k s' letter where
  mem := hs.posted letter h.mem
  taken := (hs.takenBy letter.id).2 h.taken
  only id hid := h.only id ((hs.takenBy id).1 hid)

theorem Recorded.spared {letter : Letter} (h : Recorded s letter) (hs : Spared k s s') :
    Recorded s' letter :=
  h.imp (hs.unrecorded _) (hs.records _)

theorem Alerted.spared {letter : Letter} (h : Alerted s letter) (hs : Spared k s s') :
    Alerted s' letter :=
  h.imp (hs.unalerted _) fun ⟨now, hmem⟩ => ⟨now, hs.alerts _ hmem⟩

theorem NoRecord.undisturbed {id : Nat} (h : NoRecord s id) (hid : s.takenBy id = some k)
    (hs : Undisturbed k s s') : NoRecord s' id := by
  intro record hmem heq
  rcases hs.newRecords record hmem with hold | ⟨id', hother, hjob⟩
  · exact h record hold heq
  · have hsame : id' = id := Nat.repr_inj.1 (hjob.symm.trans heq)
    rw [hsame] at hother
    exact hother hid

theorem NoAlert.undisturbed {id : Nat} (h : NoAlert s id) (hid : s.takenBy id = some k)
    (hs : Undisturbed k s s') : NoAlert s' id := by
  intro alert hmem heq
  rcases hs.newAlerts alert hmem with hold | ⟨id', hother, hjob⟩
  · exact h alert hold heq
  · have hsame : id' = id :=
      Nat.repr_inj.1 ((String.append_right_inj _).1 (hjob.symm.trans heq))
    rw [hsame] at hother
    exact hother hid

/-- What is known of such a worker is not changed by the others. -/
theorem HandlerAt.undisturbed {rest : DlqTask Unit} (h : HandlerAt k s rest)
    (hs : Undisturbed k s s') : HandlerAt k s' rest := by
  have hspared := hs.toSpared
  cases h with
  | taking hk => exact .taking (hk.spared hspared)
  | recording letter hholds hrecord halert =>
    exact .recording letter (hholds.spared hspared) (hrecord.undisturbed hholds.taken hs)
      (halert.undisturbed hholds.taken hs)
  | alerting letter hholds hrecorded halert =>
    exact .alerting letter (hholds.spared hspared) (hrecorded.spared hspared)
      (halert.undisturbed hholds.taken hs)
  | dispatching letter now hholds hrecorded halert =>
    exact .dispatching letter now (hholds.spared hspared) (hrecorded.spared hspared)
      (halert.undisturbed hholds.taken hs)
  | idle r hnone => exact .idle r fun id hid => hnone id ((hspared.takenBy id).1 hid)
  | ended r letter hholds hrecorded halerted =>
    exact .ended r letter (hholds.spared hspared) (hrecorded.spared hspared)
      (halerted.spared hspared)

/-- A worker that is done has recorded the letter that it has taken and raised its alert. -/
theorem HandlerAt.handled {id : Nat} {r : Except String Unit} (h : HandlerAt k s (.done r))
    (hid : s.takenBy id = some k) :
    ∃ letter, Holds k s letter ∧ Recorded s letter ∧ Alerted s letter := by
  generalize hrest : Async.done r = rest at h
  cases h with
  | idle r' hnone => exact absurd hid (hnone id)
  | ended r' letter hholds hrecorded halerted => exact ⟨letter, hholds, hrecorded, halerted⟩
  | taking | recording | alerting | dispatching => cases hrest

/-- A worker takes a letter that nobody has taken. -/
theorem Filed.take {letter : Letter} (h : Filed s) (hfree : s.takenBy letter.id = none) :
    Filed { s with takenBy := Function.update s.takenBy letter.id (some k) } ∧
      NoRecord s letter.id ∧ NoAlert s letter.id := by
  have hstill : ∀ id, s.takenBy id ≠ none →
      Function.update s.takenBy letter.id (some k) id ≠ none := by
    intro id hid
    rcases eq_or_ne id letter.id with rfl | hne
    · exact absurd hfree hid
    · rw [Function.update_of_ne hne]
      exact hid
  refine ⟨{ h with records := fun record hmem => ?_, alerts := fun alert hmem => ?_ },
    fun record hmem heq => ?_, fun alert hmem heq => ?_⟩
  · obtain ⟨letter', hletter', htaken, hrecord⟩ := h.records record hmem
    exact ⟨letter', hletter', hstill _ htaken, hrecord⟩
  · obtain ⟨letter', hletter', htaken, halert⟩ := h.alerts alert hmem
    exact ⟨letter', hletter', hstill _ htaken, halert⟩
  · obtain ⟨letter', -, htaken, rfl⟩ := h.records record hmem
    have hsame : letter'.id = letter.id := Nat.repr_inj.1 heq
    rw [hsame] at htaken
    exact htaken hfree
  · obtain ⟨letter', -, htaken, now, rfl⟩ := h.alerts alert hmem
    have hsame : letter'.id = letter.id := Nat.repr_inj.1 ((String.append_right_inj _).1 heq)
    rw [hsame] at htaken
    exact htaken hfree

/-- A step of a worker of the dead letters keeps the invariant, and what is known of it where it
waits next. -/
theorem HandlerAt.step {a : DlqAct} {f : Except String a.Answer → DlqTask Unit} {c : Choice}
    (hat : HandlerAt k s (.await a f)) (hposted : Posted maxAttempts s) (hfiled : Filed s) :
    ((Posted maxAttempts (performDlq k a c s).2 ∧ Filed (performDlq k a c s).2) ∧
      (performDlq k a c s).2.failures = s.failures) ∧
      HandlerAt k (performDlq k a c s).2 (f (performDlq k a c s).1) := by
  generalize hrest : Async.await a f = rest at hat
  cases hat with
  | taking hk =>
    cases hrest
    simp only [performDlq, DlqStore.takeLetter]
    cases hfind : s.letters.find? fun letter =>
        decide (toString letter.id = c.jobId ∧ s.takenBy letter.id = none) with
    | none => exact ⟨⟨⟨hposted, hfiled⟩, rfl⟩, .idle _ hk.takenBy⟩
    | some letter =>
      have hfree : s.takenBy letter.id = none := by
        have hfound := List.find?_some hfind
        rw [decide_eq_true_eq] at hfound
        exact hfound.2
      obtain ⟨hfiled', hrecord, halert⟩ := hfiled.take (k := k) hfree
      have hholds : Holds k { s with
          takenBy := Function.update s.takenBy letter.id (some k) } letter := by
        refine ⟨List.mem_of_find?_eq_some hfind, Function.update_self .., fun id hid => ?_⟩
        by_contra hne
        exact hk.takenBy id ((Function.update_of_ne hne _ _).symm.trans hid)
      exact ⟨⟨⟨{ hposted with }, hfiled'⟩, rfl⟩, .recording letter hholds hrecord halert⟩
  | recording letter hholds hrecord halert =>
    cases hrest
    simp only [performDlq, thrownOr]
    cases hthrown : c.thrown with
    | some message =>
      refine ⟨⟨⟨{ hposted with }, { hfiled with }⟩, rfl⟩, ?_⟩
      exact .alerting letter { hholds with } (.inl List.mem_cons_self) halert
    | none =>
      refine ⟨⟨⟨{ hposted with }, { hfiled with records := ?_, recordedOnce := ?_ }⟩, rfl⟩, ?_⟩
      · intro record hmem
        rcases List.mem_cons.1 hmem with rfl | hold
        · exact ⟨letter, hholds.mem, by simp [hholds.taken], rfl⟩
        · exact hfiled.records record hold
      · refine List.nodup_cons.2 ⟨fun hmem => ?_, hfiled.recordedOnce⟩
        obtain ⟨record, hold, hid⟩ := List.mem_map.1 hmem
        exact hrecord record hold hid
      · exact .alerting letter { hholds with } (.inr List.mem_cons_self) halert
  | alerting letter hholds hrecorded halert =>
    cases hrest
    exact ⟨⟨⟨hposted, hfiled⟩, rfl⟩, .dispatching letter c.clock hholds hrecorded halert⟩
  | dispatching letter now hholds hrecorded halert =>
    cases hrest
    simp only [performDlq, thrownOr]
    cases hthrown : c.thrown with
    | some message =>
      refine ⟨⟨⟨{ hposted with }, { hfiled with }⟩, rfl⟩, ?_⟩
      exact .ended _ letter { hholds with } hrecorded (.inl List.mem_cons_self)
    | none =>
      refine ⟨⟨⟨{ hposted with }, { hfiled with alerts := ?_, alertedOnce := ?_ }⟩, rfl⟩, ?_⟩
      · intro alert hmem
        rcases List.mem_cons.1 hmem with rfl | hold
        · exact ⟨letter, hholds.mem, by simp [hholds.taken], now, rfl⟩
        · exact hfiled.alerts alert hold
      · refine List.nodup_cons.2 ⟨fun hmem => ?_, hfiled.alertedOnce⟩
        obtain ⟨alert, hold, hid⟩ := List.mem_map.1 hmem
        exact halert alert hold hid
      · exact .ended _ letter { hholds with } hrecorded (.inr ⟨now, List.mem_cons_self⟩)
  | idle r hnone => cases hrest
  | ended r letter hholds hrecorded halerted => cases hrest

/-! ## Runs -/

/-- What is known of a call. -/
def DlqAt (localeDate : Option String → String) (maxAttempts : Nat) (k : Nat) :
    DlqCall → DlqTask Unit → DlqStore → Prop
  | .reminder .schedule, rest, s =>
    Unwritten k s ∧ ∃ p : Task Unit, rest = ofReminder p ∧ p.Only Scheduling fun _ => True
  | .reminder .work, rest, s =>
    (∀ id, s.takenBy id ≠ some k) ∧ WorkerAt localeDate maxAttempts k s rest
  | .handle, rest, s => (∀ failure ∈ s.failures, failure.worker ≠ k) ∧ HandlerAt k s rest

variable {call : DlqCall} {a : DlqAct} {f : Except String a.Answer → DlqTask Unit} {c : Choice}

theorem DlqAt.undisturbed {rest : DlqTask Unit} (h : DlqAt localeDate maxAttempts k call rest s)
    (hs : Undisturbed k s s') : DlqAt localeDate maxAttempts k call rest s' := by
  have hspared := hs.toSpared
  cases call with
  | reminder call =>
    cases call with
    | schedule => exact ⟨h.1.spared hspared, h.2⟩
    | work =>
      exact ⟨fun id hid => h.1 id ((hspared.takenBy id).1 hid), h.2.spared hspared⟩
  | handle =>
    exact ⟨fun failure hmem hk => h.1 failure ((hspared.failures failure hk).1 hmem) hk,
      h.2.undisturbed hs⟩

/-- A worker of the reminders performs the actions of the reminders. -/
theorem WorkerAt.reminder (h : WorkerAt localeDate maxAttempts k s (.await a f)) :
    ∃ a', a = .reminder a' := by
  generalize hrest : Async.await a f = rest at h
  cases h with
  | ended r hdone => cases hrest
  | _ =>
    cases hrest
    exact ⟨_, rfl⟩

/-- They take no letters. -/
theorem takenBy_reminder (k : Nat) (a : Act) (c : Choice) (s : DlqStore) :
    (performDlq k (.reminder a) c s).2.takenBy = s.takenBy := by
  generalize (performDlq k (.reminder a) c s).2 = s', noted_perform k a c s = hnoted
  cases hnoted <;> rfl

/-- A step of a scheduler leaves nothing. -/
theorem scheduler_step {a : Act} (ha : Scheduling a) (hposted : Posted maxAttempts s)
    (hfiled : Filed s) (hk : Unwritten k s) (c : Choice) :
    (Posted maxAttempts (performDlq k (.reminder a) c s).2 ∧
      Filed (performDlq k (.reminder a) c s).2) ∧
      Unwritten k (performDlq k (.reminder a) c s).2 := by
  have hqueue := hposted.queue.perform k a c
  cases a with
  | now | findInvoicesDueSoon | getJobs | add =>
    exact ⟨⟨hposted.world s.thrown hqueue, { hfiled with }⟩, hk.world s.thrown _⟩
  | _ => exact ha.elim

/-- A step of a call keeps the invariant, and what is known of it where it waits next. -/
theorem DlqAt.step (hat : DlqAt localeDate maxAttempts k call (.await a f) s)
    (hposted : Posted maxAttempts s) (hfiled : Filed s) :
    (Posted maxAttempts (performDlq k a c s).2 ∧ Filed (performDlq k a c s).2) ∧
      DlqAt localeDate maxAttempts k call (f (performDlq k a c s).1) (performDlq k a c s).2 := by
  cases call with
  | reminder call =>
    cases call with
    | schedule =>
      obtain ⟨hk, p, hrest, honly⟩ := hat
      cases p with
      | done r => cases hrest
      | await a' g =>
        cases hrest
        obtain ⟨hinv, hk'⟩ := scheduler_step honly.1 hposted hfiled hk c
        exact ⟨hinv, hk', g _, rfl, honly.2 _⟩
    | work =>
      obtain ⟨hnone, hat⟩ := hat
      obtain ⟨hinv, hat'⟩ := hat.step (c := c) hposted hfiled
      obtain ⟨a, rfl⟩ := hat.reminder
      refine ⟨hinv, fun id => ?_, hat'⟩
      rw [takenBy_reminder]
      exact hnone id
  | handle =>
    obtain ⟨⟨hinv, hfailures⟩, hat'⟩ := hat.2.step (c := c) hposted hfiled
    refine ⟨hinv, fun failure hmem => ?_, hat'⟩
    rw [hfailures] at hmem
    exact hat.1 failure hmem

/-- What the call `k` writes is of a letter that it has taken. -/
def OwnWrite (k : Nat) (s : DlqStore) : DlqAct → Prop
  | .create _ record => ∃ id, s.takenBy id = some k ∧ record.jobId = toString id
  | .dispatch _ alert =>
    ∃ id, s.takenBy id = some k ∧ alert.id = "invoice-reminder-dlq-" ++ toString id
  | _ => True

theorem HandlerAt.ownWrite (h : HandlerAt k s (.await a f)) : OwnWrite k s a := by
  generalize hrest : Async.await a f = rest at h
  cases h with
  | taking hk =>
    cases hrest
    trivial
  | recording letter hholds hrecord halert =>
    cases hrest
    exact ⟨letter.id, hholds.taken, rfl⟩
  | alerting letter hholds hrecorded halert =>
    cases hrest
    trivial
  | dispatching letter now hholds hrecorded halert =>
    cases hrest
    exact ⟨letter.id, hholds.taken, rfl⟩
  | idle r hnone => cases hrest
  | ended r letter hholds hrecorded halerted => cases hrest

theorem DlqAt.ownWrite (h : DlqAt localeDate maxAttempts k call (.await a f) s) :
    OwnWrite k s a := by
  cases call with
  | reminder call =>
    cases call with
    | schedule =>
      obtain ⟨-, p, hrest, -⟩ := h
      cases p with
      | done r => cases hrest
      | await a' g =>
        cases hrest
        trivial
    | work =>
      obtain ⟨a, rfl⟩ := h.2.reminder
      trivial
  | handle => exact h.2.ownWrite

/-- Records and alerts are added by those who write them only. -/
theorem written_perform (k : Nat) (a : DlqAct) (c : Choice) (s : DlqStore) :
    ((performDlq k a c s).2.records = s.records ∨
      ∃ id record, a = .create id record ∧
        (performDlq k a c s).2.records = record :: s.records) ∧
    ((performDlq k a c s).2.alerts = s.alerts ∨
      ∃ id alert, a = .dispatch id alert ∧
        (performDlq k a c s).2.alerts = alert :: s.alerts) := by
  cases a with
  | reminder a =>
    generalize (performDlq k (.reminder a) c s).2 = s', noted_perform k a c s = hnoted
    cases hnoted <;> exact ⟨.inl rfl, .inl rfl⟩
  | takeLetter =>
    simp only [performDlq, DlqStore.takeLetter]
    split <;> exact ⟨.inl rfl, .inl rfl⟩
  | create id record =>
    simp only [performDlq, thrownOr]
    split
    · exact ⟨.inl rfl, .inl rfl⟩
    · exact ⟨.inr ⟨id, record, rfl, rfl⟩, .inl rfl⟩
  | now => exact ⟨.inl rfl, .inl rfl⟩
  | dispatch id alert =>
    simp only [performDlq, thrownOr]
    split
    · exact ⟨.inl rfl, .inl rfl⟩
    · exact ⟨.inl rfl, .inr ⟨id, alert, rfl, rfl⟩⟩

/-- A step of another call that writes of its own letter leaves the call undisturbed. -/
theorem OwnWrite.undisturbed (h : OwnWrite j s a) (hne : k ≠ j) (c : Choice) :
    Undisturbed k s (performDlq j a c s).2 := by
  have hother : ∀ id, s.takenBy id = some j → s.takenBy id ≠ some k := by
    intro id hj hk
    exact hne (Option.some.inj (hk.symm.trans hj))
  obtain ⟨hrecords, halerts⟩ := written_perform j a c s
  refine ⟨spared_perform hne a c s, fun record hmem => ?_, fun alert hmem => ?_⟩
  · rcases hrecords with hsame | ⟨id, record', rfl, hnew⟩
    · exact .inl (hsame ▸ hmem)
    · obtain ⟨id, hid, hjob⟩ := h
      rw [hnew] at hmem
      rcases List.mem_cons.1 hmem with rfl | hold
      · exact .inr ⟨id, hother id hid, hjob⟩
      · exact .inl hold
  · rcases halerts with hsame | ⟨id, alert', rfl, hnew⟩
    · exact .inl (hsame ▸ hmem)
    · obtain ⟨id, hid, hjob⟩ := h
      rw [hnew] at hmem
      rcases List.mem_cons.1 hmem with rfl | hold
      · exact .inr ⟨id, hother id hid, hjob⟩
      · exact .inl hold

/-- The end of a delay disturbs no call. -/
theorem undisturbed_promote (k : Nat) (jobId : String) (s : DlqStore) :
    Undisturbed k s { s with world := s.world.withQueue (s.world.queue.promote jobId) } where
  locked job h := ⟨(Queue.promote_advances s.world.queue (k + 1) jobId).locked _ job k h.1 h.2
    (Nat.ne_of_lt (Nat.lt_succ_self k)), h.2⟩
  thrown := rfl
  failures _ _ := .rfl
  letters _ _ := .rfl
  takenBy _ := .rfl
  posted _ h := h
  lost _ h := h
  records _ h := h
  unrecorded _ h := h
  alerts _ h := h
  unalerted _ h := h
  newRecords _ h := .inl h
  newAlerts _ h := .inl h

/-- The argument as a proof outline. -/
def dlqOutline (localeDate : Option String → String) (maxAttempts : Nat) :
    Outline (deadLetters localeDate maxAttempts) fun p _ => p.Unmade Unwritten where
  Inv s := Posted maxAttempts s ∧ Filed s
  At k := DlqAt localeDate maxAttempts k
  start {p call} hunmade _ _ := by
    have hk : Unwritten p.calls.length p.state := hunmade _ (Nat.le_refl _)
    cases call with
    | reminder call =>
      cases call with
      | schedule => exact ⟨hk, _, rfl, scheduleInvoiceReminders_only⟩
      | work => exact ⟨hk.takenBy, .taking hk⟩
    | handle => exact ⟨hk.failures, .taking hk⟩
  step _ hk hinv hat := (hat _ _ hk).step hinv.1 hinv.2
  stable _ hk _ hat hne hj := (hat _ _ hj).undisturbed ((hat _ _ hk).ownWrite.undisturbed hne _)
  environ {p jobId} _ hinv hat :=
    ⟨⟨hinv.1.world p.state.thrown (hinv.1.queue.promote jobId), { hinv.2 with }⟩,
      fun k call hcall => (hat k call hcall).undisturbed (undisturbed_promote k jobId p.state)⟩

/-- After every run, the invariant holds and so does what is known of each call. -/
theorem dlq_exec (localeDate : Option String → String) (maxAttempts : Nat) (moves : List DlqMove) :
    (Posted maxAttempts
        (((deadLetters localeDate maxAttempts).machine .empty).exec ⟨.empty, []⟩ moves).state ∧
      Filed (((deadLetters localeDate maxAttempts).machine .empty).exec ⟨.empty, []⟩
        moves).state) ∧
    (((deadLetters localeDate maxAttempts).machine .empty).exec ⟨.empty, []⟩ moves).Meets
      (DlqAt localeDate maxAttempts) := by
  refine (dlqOutline localeDate maxAttempts).exec_unmade (P := Unwritten) ?_ ?_ ?_ ?_ moves
  · constructor
    · exact ⟨nofun, nofun, List.nodup_nil, List.nodup_nil, nofun⟩
    · exact ⟨List.nodup_nil, nofun, nofun, nofun, List.nodup_nil, nofun, List.nodup_nil⟩
  · exact fun k => ⟨nofun, nofun, nofun⟩
  · exact fun j k a c s hne h => h.spared (spared_perform hne.symm a c s)
  · exact fun k jobId s h => h.spared (undisturbed_promote k jobId s).toSpared

/-- Which failed attempts have letters: those from `maxAttempts` on, one each. -/
structure DeadLettered (maxAttempts : Nat) (p : DlqInstances) : Prop where
  counted : ∀ failure ∈ p.state.failures, failure.Counted
  each : (p.state.failures.map Failure.worker).Nodup
  once : (p.state.letters.map Letter.worker).Nodup
  backed : ∀ letter ∈ p.state.letters, ∃ failure ∈ p.state.failures,
    letter.Of failure ∧ maxAttempts ≤ failure.attemptsMade
  forwarded : ∀ failure ∈ p.state.failures, maxAttempts ≤ failure.attemptsMade →
    ∀ call r, p.calls[failure.worker]? = some ⟨call, .done r⟩ → Forwarded p.state failure

/-- **The dead letters are the failed attempts from `maxAttempts` on.** In every run, a letter is of
such an attempt and no two are of the same one, and such an attempt has its letter when its worker
is done, unless the forward was lost. A job has three attempts and is retried before the last one,
so the letters are those of the jobs that have failed for good only if `maxAttempts` is three. -/
theorem dead_letters (localeDate : Option String → String) (maxAttempts : Nat)
    (moves : List DlqMove) :
    DeadLettered maxAttempts
      (((deadLetters localeDate maxAttempts).machine .empty).exec ⟨.empty, []⟩ moves) := by
  obtain ⟨⟨hposted, -⟩, hat⟩ := dlq_exec localeDate maxAttempts moves
  refine ⟨hposted.counted, hposted.each, hposted.once, hposted.backed, ?_⟩
  intro failure hmem hmax call r hcall
  have h := hat failure.worker _ hcall
  cases call with
  | reminder call =>
    cases call with
    | schedule => exact absurd rfl (h.1.failures failure hmem)
    | work => exact h.2.forwarded hmem hmax
  | handle => exact absurd rfl (h.1 failure hmem)

/-- What the records and the alerts say of the letters. -/
structure FailureLog (p : DlqInstances) : Prop where
  untold : ∀ letter ∈ p.state.letters, ∃ failure ∈ p.state.failures, letter.Of failure ∧
    letter.attemptsMade < failure.attemptsMade ∧
    letter.errorMessage = "Unknown error after max retries"
  records : ∀ record ∈ p.state.records, ∃ letter ∈ p.state.letters, record = letter.record
  recordedOnce : (p.state.records.map InvoiceReminderFailure.jobId).Nodup
  alerts : ∀ alert ∈ p.state.alerts, ∃ letter ∈ p.state.letters, ∃ now, alert = letter.alert now
  alertedOnce : (p.state.alerts.map AnomalyAlert.id).Nodup
  handled : ∀ letter ∈ p.state.letters, ∀ k, p.state.takenBy letter.id = some k →
    ∀ call r, p.calls[k]? = some ⟨call, .done r⟩ →
      Recorded p.state letter ∧ Alerted p.state letter

/-- **The failure log is complete, and tells neither the attempts nor the error.** In every run, the
records and the alerts are of different letters, and a letter whose worker is done has both, unless
they could not be written. What they say of the attempts is too little, and the error is the same
text for all, since the carried reason is not read. -/
theorem failure_log (localeDate : Option String → String) (maxAttempts : Nat)
    (moves : List DlqMove) :
    FailureLog
      (((deadLetters localeDate maxAttempts).machine .empty).exec ⟨.empty, []⟩ moves) := by
  obtain ⟨⟨hposted, hfiled⟩, hat⟩ := dlq_exec localeDate maxAttempts moves
  refine ⟨fun letter hmem => ?_, fun record hmem => ?_, hfiled.recordedOnce, fun alert hmem => ?_,
    hfiled.alertedOnce, fun letter hmem k htaken call r hcall => ?_⟩
  · obtain ⟨failure, hfailure, hof, -⟩ := hposted.backed letter hmem
    obtain ⟨hnone, hreason⟩ := hfiled.fresh letter hmem
    refine ⟨failure, hfailure, hof, ?_, ?_⟩
    · rw [hnone]
      exact (hposted.counted failure hfailure).1
    · rw [DlqJob.errorMessage, hreason, Option.getD_none]
  · obtain ⟨letter, hletter, -, hrecord⟩ := hfiled.records record hmem
    exact ⟨letter, hletter, hrecord⟩
  · obtain ⟨letter, hletter, -, halert⟩ := hfiled.alerts alert hmem
    exact ⟨letter, hletter, halert⟩
  · have h := hat k _ hcall
    cases call with
    | reminder call =>
      cases call with
      | schedule => exact absurd htaken (h.1.takenBy letter.id)
      | work => exact absurd htaken (h.1 letter.id)
    | handle =>
      obtain ⟨held, hholds, hdone⟩ := h.2.handled htaken
      have hsame : letter = held := hfiled.eq_of_id hmem hholds.mem (hholds.only _ htaken)
      rw [hsame]
      exact hdone

end InvoiceReminder

end Backend

end InvoiceFi
