import InvoiceFi.Backend.Monitoring.HorizonOperations
import InvoiceFi.Lib.Async
import InvoiceFi.Lib.Cooldown

/-!
# The monitor and its alerts (`monitoring/horizon-monitor.service.ts`,
`monitoring/alert-dispatcher.service.ts`)

`processLedger` fetches the operations of a ledger, has the detector evaluate their events and
dispatches the alerts one after the other. The dispatcher suppresses an alert whose id it has put on
record less than `alertCooldownMs` ago. It puts an alert on record before it sends it, and lets a
failed request throw through both loops of `processLedger`.

Ledgers are processed as they come, so that `horizonMonitor` is a service of calls in parallel, in
which other services dispatch alerts as well. A call may be interrupted between any two of its
actions, which the program is only where it awaits something. `hidesNothing_iff` says in which runs
the failures of the webhook hide nothing.
-/

namespace InvoiceFi

namespace Backend

namespace Monitoring

/-! ## The service -/

/-- `LedgerRecord`, with the time at which it closed. -/
structure LedgerRecord where
  sequence : Nat
  closedAt : Int

/-- The errors of the service. -/
inductive Failure where
  | horizon (message : String)
  | request (message : String)
  | status (code : Nat)
  deriving DecidableEq

/-- The message of an error. -/
def Failure.message : Failure → String
  | .horizon message => message
  | .request message => message
  | .status code => "Alert webhook failed with " ++ toString code

/-- What the request to the webhook comes to. -/
inductive Response where
  | failed (message : String)
  | answered (code : Nat)

/-- The actions of the service. `claim` is the part of `dispatch` before the request. -/
inductive Act where
  | operations (ledger : Nat)
  | evaluate (event : MonitoringEvent)
  | claim (alert : AnomalyAlert)
  | send (alert : AnomalyAlert) (now : Nat)

/-- The answers of the actions. -/
abbrev Act.Answer : Act → Type
  | .operations _ => List HorizonOperation
  | .evaluate _ => List AnomalyAlert
  | .claim _ => Option Nat
  | .send _ _ => Unit

/-- What the outside decides when it answers an action. -/
structure Choice where
  operations : Except String (List HorizonOperation)
  now : Nat
  response : Response

/-- The windows of the detector, and the record of the dispatcher. -/
structure MonitorState where
  windows : Windows
  sentAt : String → Option Nat

/-- `HorizonMonitorService`, with its detector and its dispatcher. -/
structure HorizonMonitor where
  detector : AnomalyDetector
  contractIds : List String
  alertWebhookUrl : Option String
  alertCooldownMs : ℚ

/-- A program of the service. -/
abbrev Task (α : Type) := Async Act Act.Answer Failure α

/-- An action with its answer. -/
abbrev Answered := (a : Act) × Except Failure a.Answer

/-- Awaiting an action. -/
def act (a : Act) : Task a.Answer := Async.perform a

/-- `dispatch`. The time at which it is called is the one that is put on record. -/
def dispatch (alert : AnomalyAlert) : Task Bool := do
  match ← act (.claim alert) with
  | none => pure false
  | some now =>
    act (.send alert now)
    pure true

/-- What `processLedger` does with an alert. -/
def dispatchAlert (alert : AnomalyAlert) : Task Unit := do
  let _ ← dispatch alert
  pure ()

/-- What `processLedger` does with an event. -/
def processEvent (event : MonitoringEvent) : Task Unit := do
  let alerts ← act (.evaluate event)
  forM alerts dispatchAlert

namespace HorizonMonitor

variable (m : HorizonMonitor)

/-- The end of `dispatch`, with the answer of the webhook. Without one the alert goes to the log. -/
def deliver (response : Response) : Except Failure Unit :=
  if m.alertWebhookUrl.getD "" = "" then .ok ()
  else
    match response with
    | .failed message => .error (.request message)
    | .answered code =>
      if 200 ≤ code ∧ code ≤ 299 then .ok () else .error (.status code)

/-- What an action answers and does. -/
def perform : (a : Act) → Choice → MonitorState → Except Failure a.Answer × MonitorState
  | .operations _, c, s => (c.operations.mapError .horizon, s)
  | .evaluate event, _, s =>
    let (alerts, windows) := m.detector.evaluate event s.windows
    (.ok alerts, { s with windows := windows })
  | .claim alert, c, s =>
    if Within m.alertCooldownMs (s.sentAt alert.id) c.now then (.ok none, s)
    else (.ok (some c.now), { s with sentAt := Function.update s.sentAt alert.id (some c.now) })
  | .send _ _, c, s => (m.deliver c.response, s)

/-- The events of an operation of a ledger. -/
def eventsOf (ledger : LedgerRecord) (operation : HorizonOperation) : List MonitoringEvent :=
  operation.toMonitoringEvents m.contractIds ledger.sequence ledger.closedAt

/-- `processLedger`. -/
def processLedger (ledger : LedgerRecord) : Task Unit := do
  let operations ← act (.operations ledger.sequence)
  forM operations fun operation => forM (m.eventsOf ledger operation) processEvent

end HorizonMonitor

/-- The calls of the service: a ledger that is streamed, and an alert that another service
dispatches. -/
inductive Request where
  | ledger (ledger : LedgerRecord)
  | alert (alert : AnomalyAlert)

/-- The monitor as a service. -/
def horizonMonitor (m : HorizonMonitor) :
    Service MonitorState Request Act Act.Answer Failure Unit Choice Empty where
  main
    | .ledger ledger => m.processLedger ledger
    | .alert alert => dispatchAlert alert
  perform _ := m.perform
  environ o := nomatch o

/-- What happens next in a run of the service. -/
abbrev Moves := List (Move Request Choice Empty)

/-- A step of a run of the service. -/
abbrev Moved := Step (Pool MonitorState Request Act Act.Answer Failure Unit)
  (Move Request Choice Empty) Empty Unit

/-- The state in which nothing has been evaluated or put on record. -/
def MonitorState.initial : MonitorState := ⟨⟨[], [], [], []⟩, fun _ => none⟩

/-- The service as a machine. -/
abbrev monitor (m : HorizonMonitor) := (horizonMonitor m).machine .initial

/-- The steps of a run. -/
def stepsOf (m : HorizonMonitor) (ms : Moves) : List Moved :=
  (monitor m).trace (monitor m).init ms

/-! ## What a call has done -/

/-- The operations that a call has fetched. -/
def fetched (h : List Answered) : Option (List HorizonOperation) :=
  h.findSome? fun x => match x with
    | ⟨.operations _, .ok operations⟩ => some operations
    | _ => none

/-- The events that a call has evaluated. -/
def evaluated (h : List Answered) : List MonitoringEvent :=
  h.filterMap fun x => match x with
    | ⟨.evaluate event, _⟩ => some event
    | _ => none

/-- The alerts that the detector has raised in a call. -/
def raised (h : List Answered) : List AnomalyAlert :=
  h.flatMap fun x => match x with
    | ⟨.evaluate _, .ok alerts⟩ => alerts
    | _ => []

/-- The alerts that a call has dispatched. -/
def attempted (h : List Answered) : List AnomalyAlert :=
  h.filterMap fun x => match x with
    | ⟨.claim alert, _⟩ => some alert
    | _ => none

/-- A call has evaluated every event of the operations that it has fetched, and dispatched every
alert that was raised. -/
def NothingSkipped (m : HorizonMonitor) (ledger : LedgerRecord) (h : List Answered) : Prop :=
  ∀ operations, fetched h = some operations →
    evaluated h = operations.flatMap (m.eventsOf ledger) ∧ attempted h = raised h

/-- What a call of `processLedger` does when it has some alerts left to dispatch, and then some
events to evaluate. -/
def remaining (alerts : List AnomalyAlert) (events : List MonitoringEvent) : Task Unit := do
  forM alerts dispatchAlert
  forM events processEvent

/-- A call has some alerts and some events left. One of `processLedger` has fetched its operations,
and these are the events of theirs that it has not evaluated and the alerts that it has not
dispatched. -/
def Left (m : HorizonMonitor) (request : Request) (h : List Answered)
    (alerts : List AnomalyAlert) (events : List MonitoringEvent) : Prop :=
  ∀ ledger, request = .ledger ledger → ∃ operations, fetched h = some operations ∧
    evaluated h ++ events = operations.flatMap (m.eventsOf ledger) ∧
    attempted h ++ alerts = raised h

/-- Where a call is, after some actions and their answers. -/
inductive At (m : HorizonMonitor) (request : Request) (h : List Answered) (q : Task Unit) : Prop
  | start (ledger : LedgerRecord) (hrequest : request = .ledger ledger) (hh : h = [])
      (hq : q = m.processLedger ledger)
  | unfetched (r : Except Failure Unit) (hh : fetched h = none) (hq : q = .done r)
  | between (alerts : List AnomalyAlert) (events : List MonitoringEvent)
      (hleft : Left m request h alerts events) (hq : q = remaining alerts events)
  | sending (alert : AnomalyAlert) (now : Nat) (f : Except Failure Unit → Task Unit)
      (alerts : List AnomalyAlert) (events : List MonitoringEvent) (before : List Answered)
      (hleft : Left m request h alerts events)
      (hh : h = before ++ [⟨.claim alert, .ok (some now)⟩]) (hq : q = .await (.send alert now) f)
      (hok : f (.ok ()) = remaining alerts events) (herror : ∀ e, f (.error e) = .done (.error e))
  | failed (before : List Answered) (alert : AnomalyAlert) (now : Nat) (e : Failure)
      (hh : h = before ++ [⟨.send alert now, .error e⟩]) (hq : q = .done (.error e))

/-- The loops of `processLedger` go through the events of all the operations. -/
theorem processLedger_eq (m : HorizonMonitor) (ledger : LedgerRecord) :
    m.processLedger ledger = act (.operations ledger.sequence) >>= fun operations =>
      remaining [] (operations.flatMap (m.eventsOf ledger)) := by
  unfold HorizonMonitor.processLedger remaining
  refine congrArg _ (funext fun operations => ?_)
  rw [List.forM_nil, Async.forM_flatMap]
  rfl

theorem remaining_alert (alert : AnomalyAlert) (alerts : List AnomalyAlert)
    (events : List MonitoringEvent) :
    remaining (alert :: alerts) events =
      dispatchAlert alert >>= fun _ => remaining alerts events := by
  unfold remaining
  rw [List.forM_cons, bind_assoc]

theorem remaining_event (event : MonitoringEvent) (events : List MonitoringEvent) :
    remaining [] (event :: events) =
      act (.evaluate event) >>= fun alerts => remaining alerts events := by
  unfold remaining processEvent
  rw [List.forM_nil, List.forM_cons, bind_assoc]
  rfl

/-- Nothing is left where a call ends. -/
theorem remaining_eq_done {alerts : List AnomalyAlert} {events : List MonitoringEvent}
    {r : Except Failure Unit} (h : remaining alerts events = .done r) :
    alerts = [] ∧ events = [] ∧ r = .ok () := by
  cases alerts with
  | cons alert alerts => rw [remaining_alert] at h; cases h
  | nil =>
    cases events with
    | cons event events => rw [remaining_event] at h; cases h
    | nil => cases h; exact ⟨rfl, rfl, rfl⟩

theorem fetched_concat {h : List Answered} {operations : List HorizonOperation}
    (hf : fetched h = some operations) (x : Answered) :
    fetched (h ++ [x]) = some operations := by
  rw [fetched, List.findSome?_append]
  rw [fetched] at hf
  rw [hf, Option.some_or]

/-- An answer keeps the account of what is left if it moves as many events and alerts from one side
to the other. -/
theorem Left.concat {m : HorizonMonitor} {request : Request} {h : List Answered}
    {alerts alerts' : List AnomalyAlert} {events events' : List MonitoringEvent}
    (hleft : Left m request h alerts events) {x : Answered}
    (hevents : evaluated (h ++ [x]) ++ events' = evaluated h ++ events)
    (halerts : attempted h ++ alerts = raised h →
      attempted (h ++ [x]) ++ alerts' = raised (h ++ [x])) :
    Left m request (h ++ [x]) alerts' events' := by
  intro ledger hledger
  obtain ⟨operations, hf, he, ha⟩ := hleft ledger hledger
  exact ⟨operations, fetched_concat hf _, hevents.trans he, halerts ha⟩

/-- An alert that is dispatched is no longer left. -/
theorem Left.claim {m : HorizonMonitor} {request : Request} {h : List Answered}
    {alert : AnomalyAlert} {alerts : List AnomalyAlert} {events : List MonitoringEvent}
    (hleft : Left m request h (alert :: alerts) events) (r : Except Failure (Option Nat)) :
    Left m request (h ++ [⟨.claim alert, r⟩]) alerts events := by
  refine hleft.concat ?_ fun ha => ?_
  · simp [evaluated]
  · simp [attempted, raised] at ha ⊢
    exact ha

/-- An event that is evaluated is no longer left, and its alerts are. -/
theorem Left.evaluate {m : HorizonMonitor} {request : Request} {h : List Answered}
    {event : MonitoringEvent} {events : List MonitoringEvent}
    (hleft : Left m request h [] (event :: events)) (alerts : List AnomalyAlert) :
    Left m request (h ++ [⟨.evaluate event, .ok alerts⟩]) alerts events := by
  refine hleft.concat ?_ fun ha => ?_
  · simp [evaluated]
  · simp [attempted, raised] at ha ⊢
    exact ha

/-- A request leaves what is left. -/
theorem Left.send {m : HorizonMonitor} {request : Request} {h : List Answered}
    {alerts : List AnomalyAlert} {events : List MonitoringEvent}
    (hleft : Left m request h alerts events) (alert : AnomalyAlert) (now : Nat)
    (r : Except Failure Unit) :
    Left m request (h ++ [⟨.send alert now, r⟩]) alerts events := by
  refine hleft.concat ?_ fun ha => ?_
  · simp [evaluated]
  · simp [attempted, raised] at ha ⊢
    exact ha

/-- Nothing has been skipped exactly if nothing is left. -/
theorem Left.nothingSkipped_iff {m : HorizonMonitor} {ledger : LedgerRecord} {h : List Answered}
    {alerts : List AnomalyAlert} {events : List MonitoringEvent}
    (hleft : Left m (.ledger ledger) h alerts events) :
    NothingSkipped m ledger h ↔ alerts = [] ∧ events = [] := by
  obtain ⟨operations, hf, he, ha⟩ := hleft ledger rfl
  constructor
  · intro hskip
    obtain ⟨he', ha'⟩ := hskip operations hf
    exact ⟨List.append_right_eq_self.1 (ha.trans ha'.symm),
      List.append_right_eq_self.1 (he.trans he'.symm)⟩
  · rintro ⟨rfl, rfl⟩ operations' hf'
    cases hf.symm.trans hf'
    rw [List.append_nil] at he ha
    exact ⟨he, ha⟩

/-- A call starts at a place. -/
theorem At.main (m : HorizonMonitor) (request : Request) :
    At m request [] ((horizonMonitor m).main request) := by
  cases request with
  | ledger ledger => exact .start ledger rfl rfl rfl
  | alert alert =>
    refine .between [alert] [] nofun ?_
    rw [remaining_alert]
    exact (bind_pure _).symm

/-- A step of a call takes it from one place to the next. -/
theorem At.step {m : HorizonMonitor} {request : Request} {h : List Answered} {a : Act}
    {f : Except Failure a.Answer → Task Unit} (hat : At m request h (.await a f)) (c : Choice)
    (s : MonitorState) :
    At m request (h ++ [⟨a, (m.perform a c s).1⟩]) (f (m.perform a c s).1) := by
  cases hat with
  | start ledger hrequest hh hq =>
    rw [processLedger_eq] at hq
    cases hq
    subst hh hrequest
    cases hfetch : c.operations with
    | error message =>
      have hanswer : (m.perform (.operations ledger.sequence) c s).1 = .error (.horizon message) :=
        by rw [HorizonMonitor.perform, hfetch]; rfl
      rw [hanswer]
      exact .unfetched _ rfl rfl
    | ok operations =>
      have hanswer : (m.perform (.operations ledger.sequence) c s).1 = .ok operations := by
        rw [HorizonMonitor.perform, hfetch]
        rfl
      rw [hanswer]
      refine .between [] _ ?_ rfl
      rintro _ ⟨⟩
      exact ⟨operations, rfl, rfl, rfl⟩
  | unfetched r hh hq => cases hq
  | between alerts events hleft hq =>
    cases alerts with
    | cons alert alerts =>
      rw [remaining_alert] at hq
      cases hq
      by_cases hwithin : Within m.alertCooldownMs (s.sentAt alert.id) c.now
      · have hanswer : (m.perform (.claim alert) c s).1 = .ok none := by
          rw [HorizonMonitor.perform, if_pos hwithin]
        rw [hanswer]
        exact .between alerts events (hleft.claim _) rfl
      · have hanswer : (m.perform (.claim alert) c s).1 = .ok (some c.now) := by
          rw [HorizonMonitor.perform, if_neg hwithin]
        rw [hanswer]
        exact .sending alert c.now _ alerts events h (hleft.claim _) rfl rfl rfl fun _ => rfl
    | nil =>
      cases events with
      | nil => cases hq
      | cons event events =>
        rw [remaining_event] at hq
        cases hq
        exact .between _ events (hleft.evaluate _) rfl
  | sending alert now f alerts events before hleft hh hq hok herror =>
    cases hq
    have hanswer : (m.perform (.send alert now) c s).1 = m.deliver c.response := rfl
    rw [hanswer]
    cases m.deliver c.response with
    | ok u => exact .between alerts events (hleft.send _ _ _) hok
    | error e => exact .failed h alert now e rfl (herror e)
  | failed before alert now e hh hq => cases hq

/-! ## What the dispatcher has on record -/

/-- A step dispatches the alert with an id at a time, and goes on to send it or not. -/
def dispatched? (m : HorizonMonitor) (t : Moved) : Option (String × Nat × Bool) :=
  match Service.performed? t with
  | some (.claim alert, c) =>
    some (alert.id, c.now, (m.perform (.claim alert) c t.pre.state).1.toOption.join.isSome)
  | _ => none

/-- A step sends the request for the alert with an id that is on record at a time, and the alert is
delivered or not. -/
def requested? (m : HorizonMonitor) (t : Moved) : Option (String × Nat × Bool) :=
  match Service.performed? t with
  | some (.send alert now, c) => some (alert.id, now, (m.deliver c.response).isOk)
  | _ => none

/-- An action changes the record only where it lets an alert pass. -/
theorem sentAt_perform (m : HorizonMonitor) (a : Act) (c : Choice) (s : MonitorState) :
    (∃ alert, a = .claim alert ∧
      ¬ Within m.alertCooldownMs (s.sentAt alert.id) c.now ∧
      (m.perform (.claim alert) c s).1.toOption.join.isSome = true ∧
      (m.perform a c s).2.sentAt = Function.update s.sentAt alert.id (some c.now)) ∨
    (∃ alert, a = .claim alert ∧
      Within m.alertCooldownMs (s.sentAt alert.id) c.now ∧
      (m.perform (.claim alert) c s).1.toOption.join.isSome = false ∧
      (m.perform a c s).2.sentAt = s.sentAt) ∨
    (∀ alert, a ≠ .claim alert) ∧ (m.perform a c s).2.sentAt = s.sentAt := by
  cases a with
  | claim alert =>
    by_cases hwithin : Within m.alertCooldownMs (s.sentAt alert.id) c.now
    · refine .inr (.inl ⟨alert, rfl, hwithin, ?_, ?_⟩)
      · rw [HorizonMonitor.perform, if_pos hwithin]
        rfl
      · rw [HorizonMonitor.perform, if_pos hwithin]
    · refine .inl ⟨alert, rfl, hwithin, ?_, ?_⟩
      · rw [HorizonMonitor.perform, if_neg hwithin]
        rfl
      · rw [HorizonMonitor.perform, if_neg hwithin]
  | operations ledger => exact .inr (.inr ⟨fun _ h => (by cases h), rfl⟩)
  | evaluate event => exact .inr (.inr ⟨fun _ h => (by cases h), rfl⟩)
  | send alert now => exact .inr (.inr ⟨fun _ h => (by cases h), rfl⟩)

/-- A step that dispatches an alert sends it exactly if it is not within the cooldown, and puts it
on record if it does; no other step changes the record. -/
theorem dispatched?_step (m : HorizonMonitor) (mv : Move Request Choice Empty)
    (p : Pool MonitorState Request Act Act.Answer Failure Unit) :
    (dispatched? m ((monitor m).step mv p) = none ∧
      ((monitor m).step mv p).post.state.sentAt = p.state.sentAt) ∨
    ∃ id now, (dispatched? m ((monitor m).step mv p) = some (id, now, false) ∧
        Within m.alertCooldownMs (p.state.sentAt id) now ∧
        ((monitor m).step mv p).post.state.sentAt = p.state.sentAt) ∨
      dispatched? m ((monitor m).step mv p) = some (id, now, true) ∧
        ¬ Within m.alertCooldownMs (p.state.sentAt id) now ∧
        ((monitor m).step mv p).post.state.sentAt =
          Function.update p.state.sentAt id (some now) := by
  have hpost : ((monitor m).step mv p).post = (horizonMonitor m).move mv p := rfl
  rw [hpost]
  unfold dispatched?
  rcases (horizonMonitor m).state_step mv p .initial with ⟨k, a, c, hperformed, hstate⟩ |
    ⟨hperformed, hstate | ⟨o, -⟩⟩
  · rw [hperformed, hstate]
    change (_ ∧ (m.perform a c p.state).2.sentAt = _) ∨ _
    rcases sentAt_perform m a c p.state with ⟨alert, rfl, hwithin, hsome, hsent⟩ |
      ⟨alert, rfl, hwithin, hsome, hsent⟩ | ⟨hno, hsent⟩
    · exact .inr ⟨alert.id, c.now, .inr ⟨by simp only [Machine.step_pre, hsome], hwithin, hsent⟩⟩
    · exact .inr ⟨alert.id, c.now, .inl ⟨by simp only [Machine.step_pre, hsome], hwithin, hsent⟩⟩
    · refine .inl ⟨?_, hsent⟩
      split
      · next heq =>
        cases heq
        exact absurd rfl (hno _)
      · rfl
  · rw [hperformed, hstate]
    exact .inl ⟨rfl, rfl⟩
  · exact o.elim

/-- The dispatcher has a cooldown for each id. -/
def alertCooldown (m : HorizonMonitor) : Cooldown (monitor m) String where
  period := m.alertCooldownMs
  sentAt p := p.state.sentAt
  offer t := (dispatched? m t).map fun d => (d.1, d.2.1)
  Passes t := ∃ id now, dispatched? m t = some (id, now, true)
  init _ := rfl
  idle {mv p} h := by
    rcases dispatched?_step m mv p with ⟨-, hsent⟩ | ⟨id, now, ⟨hd, -⟩ | ⟨hd, -⟩⟩
    · exact hsent
    · rw [hd] at h
      cases h
    · rw [hd] at h
      cases h
  held {mv p id now} ho hp := by
    rcases dispatched?_step m mv p with ⟨hd, -⟩ | ⟨id', now', ⟨hd, hwithin, hsent⟩ | ⟨hd, -⟩⟩
    · rw [hd] at ho
      cases ho
    · rw [hd] at ho
      cases ho
      exact ⟨hwithin, hsent⟩
    · exact absurd ⟨id', now', hd⟩ hp
  passed {mv p id now} ho hp := by
    obtain ⟨_, _, hp⟩ := hp
    rcases dispatched?_step m mv p with ⟨hd, -⟩ | ⟨id', now', ⟨hd, -⟩ | ⟨hd, hwithin, hsent⟩⟩
    · rw [hd] at ho
      cases ho
    · rw [hd] at hp
      cases hp
    · rw [hd] at ho
      cases ho
      exact ⟨hwithin, hsent⟩

theorem sends_iff {m : HorizonMonitor} {t : Moved} {id : String} {now : Nat} :
    (alertCooldown m).Sends t id now ↔ dispatched? m t = some (id, now, true) := by
  constructor
  · rintro ⟨ho, id', now', hp⟩
    change (dispatched? m t).map (fun d => (d.1, d.2.1)) = _ at ho
    rw [hp] at ho
    cases ho
    exact hp
  · intro h
    refine ⟨?_, id, now, h⟩
    change (dispatched? m t).map (fun d => (d.1, d.2.1)) = _
    rw [h]
    rfl

/-- The alert with the id was last sent at the time. -/
def LastSent (m : HorizonMonitor) (ts : List Moved) (id : String) (now : Nat) : Prop :=
  ∃ before t after, ts = before ++ t :: after ∧ dispatched? m t = some (id, now, true) ∧
    ∀ u ∈ after, ∀ later, dispatched? m u ≠ some (id, later, true)

/-- The request for the alert with the id that was sent at the time has failed. -/
def RequestFailed (m : HorizonMonitor) (ts : List Moved) (id : String) (sentAt : Nat) : Prop :=
  ∃ t ∈ ts, requested? m t = some (id, sentAt, false)

/-- The alert with the id that was sent at the time has been delivered. -/
def Delivered (m : HorizonMonitor) (ts : List Moved) (id : String) (sentAt : Nat) : Prop :=
  ∃ t ∈ ts, requested? m t = some (id, sentAt, true)

/-- The record is the time at which an alert was last sent. -/
theorem lastSent_iff {m : HorizonMonitor} {ms : Moves} {id : String} {now : Nat} :
    LastSent m (stepsOf m ms) id now ↔
      ((monitor m).exec (monitor m).init ms).state.sentAt id = some now := by
  refine ((alertCooldown m).sentAt_eq_some_iff.trans ?_).symm
  unfold Cooldown.LastSent LastSent
  simp only [sends_iff]
  rfl

/-! ## What failures hide -/

/-- Failures hide nothing in a run: the calls that have ended have skipped nothing, an alert whose
last send has failed is sent when it is raised again, and one that has been delivered is suppressed
for `alertCooldownMs`. -/
structure HidesNothing (m : HorizonMonitor) (ms : Moves) : Prop where
  complete : ∀ k ledger r,
    ((monitor m).exec (monitor m).init ms).calls[k]? = some ⟨.ledger ledger, .done r⟩ →
    NothingSkipped m ledger ((horizonMonitor m).answers k (stepsOf m ms))
  resent : ∀ before t after id sentAt now, stepsOf m ms = before ++ t :: after →
    LastSent m before id sentAt → RequestFailed m before id sentAt →
    dispatched? m t ≠ some (id, now, false)
  suppressed : ∀ before t after id sentAt now, stepsOf m ms = before ++ t :: after →
    Delivered m before id sentAt → sentAt ≤ now → (now : ℚ) - sentAt < m.alertCooldownMs →
    dispatched? m t ≠ some (id, now, true)

/-- A step raises the alert with an id at a time. -/
def RaisedAgain (m : HorizonMonitor) (t : Moved) (id : String) (now : Nat) : Prop :=
  ∃ sent, dispatched? m t = some (id, now, sent)

/-- The failures in a run have nothing to hide: a request of a call fails only where the call would
have ended, an alert whose last send has failed is not raised again within `alertCooldownMs`, and
neither is one that was delivered when the clock read 0. -/
structure Harmless (m : HorizonMonitor) (ms : Moves) : Prop where
  last : ∀ t ∈ stepsOf m ms, ∀ k c ledger alert now f, t.input = .resume k c →
    t.pre.calls[k]? = some ⟨.ledger ledger, .await (.send alert now) f⟩ →
    m.deliver c.response ≠ .ok () → f (.ok ()) = .done (.ok ())
  apart : ∀ before t after id sentAt now, stepsOf m ms = before ++ t :: after →
    LastSent m before id sentAt → RequestFailed m before id sentAt → RaisedAgain m t id now →
    sentAt = 0 ∨ sentAt + m.alertCooldownMs ≤ now
  counted : ∀ before t after id now, stepsOf m ms = before ++ t :: after →
    LastSent m before id 0 → Delivered m before id 0 → RaisedAgain m t id now →
    m.alertCooldownMs ≤ now

section
variable {m : HorizonMonitor} {ms : Moves}

/-- The place of a call after a run. -/
theorem at_exec {k : Nat} {request : Request} {q : Task Unit}
    (hcall : ((monitor m).exec (monitor m).init ms).calls[k]? = some ⟨request, q⟩) :
    At m request ((horizonMonitor m).answers k (stepsOf m ms)) q :=
  (horizonMonitor m).answers_invariant (I := At m) (At.main m)
    (fun _ _ _ _ _ c s hat => hat.step c s) hcall

/-- Where a call waits for a request, some alerts and events are left: it goes on with them if the
request succeeds, and ends if it fails. It has put the alert of the request on record before. -/
theorem At.sending_inv {request : Request} {h : List Answered} {alert : AnomalyAlert}
    {now : Nat} {f : Except Failure Unit → Task Unit}
    (hat : At m request h (.await (.send alert now) f)) :
    (∃ alerts events, Left m request h alerts events ∧ f (.ok ()) = remaining alerts events ∧
      ∀ e, f (.error e) = .done (.error e)) ∧
    ∃ before, h = before ++ [⟨.claim alert, .ok (some now)⟩] := by
  cases hat with
  | start ledger hrequest hh hq =>
    rw [processLedger_eq] at hq
    cases hq
  | unfetched r hh hq => cases hq
  | between alerts events hleft hq =>
    cases alerts with
    | cons alert alerts => rw [remaining_alert] at hq; cases hq
    | nil =>
      cases events with
      | nil => cases hq
      | cons event events => rw [remaining_event] at hq; cases hq
  | sending alert now f' alerts events before hleft hh hq hok herror =>
    cases hq
    exact ⟨⟨alerts, events, hleft, hok, herror⟩, before, hh⟩
  | failed before alert now e hh hq => cases hq

/-- Where a request of a call fails, the call has skipped nothing exactly if it would have ended. -/
theorem nothingSkipped_failed_iff {ledger : LedgerRecord} {h : List Answered}
    {alert : AnomalyAlert} {now : Nat} {f : Except Failure Unit → Task Unit}
    (hat : At m (.ledger ledger) h (.await (.send alert now) f)) (e : Failure) :
    NothingSkipped m ledger (h ++ [⟨.send alert now, .error e⟩]) ↔
      f (.ok ()) = .done (.ok ()) := by
  obtain ⟨⟨alerts, events, hleft, hok, -⟩, -⟩ := hat.sending_inv
  rw [(hleft.send alert now _).nothingSkipped_iff, hok]
  constructor
  · rintro ⟨rfl, rfl⟩
    rfl
  · intro hdone
    obtain ⟨halerts, hevents, -⟩ := remaining_eq_done hdone
    exact ⟨halerts, hevents⟩

/-- A call that has ended without a failed request has skipped nothing. -/
theorem At.done_inv {ledger : LedgerRecord} {h : List Answered} {r : Except Failure Unit}
    (hat : At m (.ledger ledger) h (.done r)) :
    NothingSkipped m ledger h ∨
      ∃ before alert now e, h = before ++ [⟨.send alert now, .error e⟩] := by
  cases hat with
  | start ledger' hrequest hh hq =>
    rw [processLedger_eq] at hq
    cases hq
  | unfetched r hh hq =>
    refine .inl fun operations hf => ?_
    cases hh.symm.trans hf
  | between alerts events hleft hq =>
    obtain ⟨halerts, hevents, -⟩ := remaining_eq_done hq.symm
    exact .inl (hleft.nothingSkipped_iff.2 ⟨halerts, hevents⟩)
  | sending alert now f alerts events before hleft hh hq hok herror => cases hq
  | failed before alert now e hh hq => exact .inr ⟨before, alert, now, e, hh⟩

/-- The calls of a run have skipped nothing if requests fail only where a call would have ended. -/
theorem complete_of_last
    (hlast : ∀ t ∈ stepsOf m ms, ∀ k c ledger alert now f, t.input = .resume k c →
      t.pre.calls[k]? = some ⟨.ledger ledger, .await (.send alert now) f⟩ →
      m.deliver c.response ≠ .ok () → f (.ok ()) = .done (.ok ()))
    {k : Nat} {ledger : LedgerRecord} {r : Except Failure Unit}
    (hcall : ((monitor m).exec (monitor m).init ms).calls[k]? = some ⟨.ledger ledger, .done r⟩) :
    NothingSkipped m ledger ((horizonMonitor m).answers k (stepsOf m ms)) := by
  rcases (at_exec hcall).done_inv with hskip | ⟨before, alert, now, e, hfailed⟩
  · exact hskip
  · -- the step at which the request has failed
    obtain ⟨ms₁, c, ms₂, i, a, f, rfl, hbefore, hwas, hx⟩ := Service.answers_concat hfailed
    obtain ⟨rfl, hans⟩ := Sigma.mk.inj_iff.1 hx
    have herror : m.deliver c.response = .error e := (eq_of_heq hans).symm
    obtain ⟨rest, hlater⟩ := (horizonMonitor m).input_later (s := .initial) hwas
      (.resume k c :: ms₂)
    rw [← (monitor m).exec_append] at hlater
    cases hlater.symm.trans hcall
    rw [hfailed, ← hbefore]
    refine (nothingSkipped_failed_iff (at_exec hwas) e).2 ?_
    refine hlast _ ((monitor m).step_mem_trace _ ms₁ _ ms₂) k c ledger alert now f
      (Machine.step_input _ _) ?_ ?_
    · rw [Machine.step_pre]
      exact hwas
    · rw [herror]
      nofun

/-- Requests fail only where a call would have ended if the calls of a run have skipped nothing. -/
theorem last_of_complete
    (hcomplete : ∀ k ledger r,
      ((monitor m).exec (monitor m).init ms).calls[k]? = some ⟨.ledger ledger, .done r⟩ →
      NothingSkipped m ledger ((horizonMonitor m).answers k (stepsOf m ms)))
    {t : Moved} (ht : t ∈ stepsOf m ms) {k : Nat} {c : Choice} {ledger : LedgerRecord}
    {alert : AnomalyAlert} {now : Nat} {f : Except Failure Unit → Task Unit}
    (hinput : t.input = .resume k c)
    (hcall : t.pre.calls[k]? = some ⟨.ledger ledger, .await (.send alert now) f⟩)
    (hfailed : m.deliver c.response ≠ .ok ()) : f (.ok ()) = .done (.ok ()) := by
  obtain ⟨ms₁, mv, ms₂, rfl, rfl⟩ := Machine.mem_trace.1 ht
  rw [Machine.step_input] at hinput
  rw [Machine.step_pre] at hcall
  subst hinput
  have hat := at_exec hcall
  cases hanswer : m.deliver c.response with
  | ok u => exact absurd hanswer hfailed
  | error e =>
    obtain ⟨⟨-, -, -, -, herror⟩, -⟩ := hat.sending_inv
    have hdone : f ((horizonMonitor m).perform k (.send alert now) c
        ((monitor m).exec (monitor m).init ms₁).state).1 = .done (.error e) := by
      change f (m.deliver c.response) = _
      rw [hanswer, herror]
    have hended := (horizonMonitor m).ended_of_resume hcall hdone ms₂
    have hanswers : (horizonMonitor m).answers k (stepsOf m (ms₁ ++ .resume k c :: ms₂)) =
        (horizonMonitor m).answers k (stepsOf m ms₁) ++
          [⟨.send alert now, m.deliver c.response⟩] := hended.2
    have hskip := hcomplete k ledger _ hended.1
    rw [hanswers, hanswer] at hskip
    exact (nothingSkipped_failed_iff hat e).1 hskip

/-- A step that dispatches an alert does so by the record before it. -/
theorem dispatched?_iff {before after : List Moved} {t : Moved}
    (hsplit : stepsOf m ms = before ++ t :: after) {id : String} {now : Nat} {sent : Bool}
    (hd : dispatched? m t = some (id, now, sent)) :
    ∃ record : Option Nat, (∀ sentAt, record = some sentAt ↔ LastSent m before id sentAt) ∧
      (sent = false ↔ Within m.alertCooldownMs record now) := by
  obtain ⟨ms₁, mv, ms₂, rfl, rfl, rfl⟩ := Machine.trace_split hsplit
  refine ⟨((monitor m).exec (monitor m).init ms₁).state.sentAt id,
    fun sentAt => lastSent_iff.symm, ?_⟩
  rcases dispatched?_step m mv ((monitor m).exec (monitor m).init ms₁) with
    ⟨hnone, -⟩ | ⟨id', now', ⟨hheld, hwithin, -⟩ | ⟨hpassed, hwithin, -⟩⟩
  · cases hnone.symm.trans hd
  · cases hheld.symm.trans hd
    exact iff_of_true rfl hwithin
  · cases hpassed.symm.trans hd
    exact iff_of_false Bool.noConfusion hwithin

/-- A call whose alert is put on record dispatches it. -/
theorem dispatched?_claim {p : Pool MonitorState Request Act Act.Answer Failure Unit} {k now : Nat}
    {request : Request} {alert : AnomalyAlert} {f : Except Failure (Option Nat) → Task Unit}
    {c : Choice} (hcall : p.calls[k]? = some ⟨request, .await (.claim alert) f⟩)
    (hanswer : (m.perform (.claim alert) c p.state).1 = .ok (some now)) :
    dispatched? m ((monitor m).step (.resume k c) p) = some (alert.id, now, true) := by
  have hnow : c.now = now := by
    rw [HorizonMonitor.perform] at hanswer
    split at hanswer
    · cases hanswer
    · cases hanswer
      rfl
  unfold dispatched?
  rw [(horizonMonitor m).performed?_resume hcall]
  simp only [Machine.step_pre, hanswer, hnow]
  rfl

/-- A request is for an alert that has been sent. -/
theorem sent_of_requested {before after : List Moved} {t : Moved}
    (hsplit : stepsOf m ms = before ++ t :: after) {id : String} {sentAt : Nat} {delivered : Bool}
    (hr : requested? m t = some (id, sentAt, delivered)) :
    ∃ u ∈ before, dispatched? m u = some (id, sentAt, true) := by
  obtain ⟨ms₁, mv, ms₂, rfl, rfl, rfl⟩ := Machine.trace_split hsplit
  unfold requested? at hr
  split at hr
  · next alert now c hperformed =>
    cases hr
    obtain ⟨k, i, f, -, hcall⟩ := Service.performed?_eq_some hperformed
    rw [Machine.step_pre] at hcall
    -- the request follows the step that has put the alert on record
    obtain ⟨-, answers, hanswers⟩ := (at_exec hcall).sending_inv
    obtain ⟨ms₃, c', ms₄, j, a, g, rfl, -, hwas, hx⟩ := Service.answers_concat hanswers
    obtain ⟨rfl, hans⟩ := Sigma.mk.inj_iff.1 hx
    exact ⟨_, (monitor m).step_mem_trace _ ms₃ _ ms₄,
      dispatched?_claim hwas (eq_of_heq hans).symm⟩
  · cases hr

/-- Where a failed send is never held back, its alert is not raised again within
`alertCooldownMs`. -/
theorem HidesNothing.apart (h : HidesNothing m ms) {before after : List Moved} {t : Moved}
    {id : String} {sentAt now : Nat} (hsplit : stepsOf m ms = before ++ t :: after)
    (hlast : LastSent m before id sentAt) (hfailed : RequestFailed m before id sentAt)
    (hraised : RaisedAgain m t id now) : sentAt = 0 ∨ sentAt + m.alertCooldownMs ≤ now := by
  obtain ⟨sent, hd⟩ := hraised
  obtain ⟨record, hrecord, hheld⟩ := dispatched?_iff hsplit hd
  have hsent : ¬ Within m.alertCooldownMs record now := by
    rw [← hheld]
    rintro rfl
    exact h.resent before t after id sentAt now hsplit hlast hfailed hd
  rw [(hrecord sentAt).2 hlast] at hsent
  by_contra hnot
  rw [not_or, not_le] at hnot
  exact hsent ⟨hnot.1, by linarith⟩

/-- Where a delivered alert is suppressed, one that was delivered when the clock read 0 is not
raised again within `alertCooldownMs`: a record of 0 holds nothing back. -/
theorem HidesNothing.counted (h : HidesNothing m ms) {before after : List Moved} {t : Moved}
    {id : String} {now : Nat} (hsplit : stepsOf m ms = before ++ t :: after)
    (hlast : LastSent m before id 0) (hdelivered : Delivered m before id 0)
    (hraised : RaisedAgain m t id now) : m.alertCooldownMs ≤ now := by
  obtain ⟨sent, hd⟩ := hraised
  obtain ⟨record, hrecord, hheld⟩ := dispatched?_iff hsplit hd
  rw [(hrecord 0).2 hlast] at hheld
  cases sent with
  | false => exact absurd rfl (hheld.1 rfl).1
  | true =>
    by_contra hnear
    refine h.suppressed before t after id 0 now hsplit hdelivered (Nat.zero_le _) ?_ hd
    rw [Nat.cast_zero, sub_zero]
    exact not_le.1 hnear

/-- An alert whose last send has failed, and which is raised again late enough, is sent. -/
theorem Harmless.resent (h : Harmless m ms) {before after : List Moved} {t : Moved} {id : String}
    {sentAt now : Nat} (hsplit : stepsOf m ms = before ++ t :: after)
    (hlast : LastSent m before id sentAt) (hfailed : RequestFailed m before id sentAt) :
    dispatched? m t ≠ some (id, now, false) := by
  intro hd
  obtain ⟨record, hrecord, hheld⟩ := dispatched?_iff hsplit hd
  have hwithin := hheld.1 rfl
  rw [(hrecord sentAt).2 hlast] at hwithin
  obtain ⟨h0, hnear⟩ := hwithin
  rcases h.apart before t after id sentAt now hsplit hlast hfailed ⟨false, hd⟩ with rfl | hfar
  · exact h0 rfl
  · linarith

/-- Before a step, a delivered alert has a record that is not older than its send. -/
theorem lastSent_of_delivered {before after : List Moved} {t : Moved} {id : String} {sentAt : Nat}
    (hsplit : stepsOf m ms = before ++ t :: after) (hdelivered : Delivered m before id sentAt)
    (hperiod : 0 ≤ m.alertCooldownMs) : ∃ last, LastSent m before id last ∧ sentAt ≤ last := by
  obtain ⟨u, hu, hr⟩ := hdelivered
  obtain ⟨before₁, before₂, rfl⟩ := List.append_of_mem hu
  rw [List.append_assoc, List.cons_append] at hsplit
  obtain ⟨v, hv, hsent⟩ := sent_of_requested hsplit hr
  rw [← List.cons_append, ← List.append_assoc] at hsplit
  obtain ⟨ms₁, mv, ms₂, rfl, hbefore, rfl⟩ := Machine.trace_split hsplit
  obtain ⟨last, hlast, hle⟩ := (alertCooldown m).le_sentAt_of_nonneg hperiod
    (hbefore ▸ List.mem_append_left _ hv) (sends_iff.2 hsent)
  refine ⟨last, ?_, hle⟩
  rw [hbefore]
  exact lastSent_iff.2 hlast

/-- An alert that was delivered is suppressed for `alertCooldownMs`. -/
theorem Harmless.suppressed (h : Harmless m ms) {before after : List Moved} {t : Moved}
    {id : String} {sentAt now : Nat} (hsplit : stepsOf m ms = before ++ t :: after)
    (hdelivered : Delivered m before id sentAt) (hle : sentAt ≤ now)
    (hnear : (now : ℚ) - sentAt < m.alertCooldownMs) : dispatched? m t ≠ some (id, now, true) := by
  intro hd
  have hcast : (sentAt : ℚ) ≤ now := by exact_mod_cast hle
  obtain ⟨last, hlast, hlastle⟩ := lastSent_of_delivered hsplit hdelivered (by linarith)
  obtain ⟨record, hrecord, hheld⟩ := dispatched?_iff hsplit hd
  have hnot : ¬ Within m.alertCooldownMs record now := fun h => by cases hheld.2 h
  rw [(hrecord last).2 hlast] at hnot
  refine hnot ⟨?_, ?_⟩
  · rintro rfl
    rw [Nat.le_zero.1 hlastle] at hdelivered hnear
    have hfar := h.counted before t after id now hsplit hlast hdelivered ⟨true, hd⟩
    rw [Nat.cast_zero, sub_zero] at hnear
    exact absurd hnear (not_lt.2 hfar)
  · have hlast' : (sentAt : ℚ) ≤ last := by exact_mod_cast hlastle
    linarith

/-- **When failures hide nothing**: in a run in which a request of a call fails only where the call
would have ended, no alert whose last send has failed is raised again within `alertCooldownMs`, and
neither is one that was delivered when the clock read 0, and in no other run. -/
theorem hidesNothing_iff (m : HorizonMonitor) (ms : Moves) : HidesNothing m ms ↔ Harmless m ms := by
  constructor
  · intro h
    refine ⟨fun t ht k c ledger alert now f => last_of_complete h.complete ht, ?_, ?_⟩
    · intro before t after id sentAt now hsplit hlast hfailed hraised
      exact h.apart hsplit hlast hfailed hraised
    · intro before t after id now hsplit hlast hdelivered hraised
      exact h.counted hsplit hlast hdelivered hraised
  · intro h
    refine ⟨fun k ledger r hcall => complete_of_last h.last hcall, ?_, ?_⟩
    · intro before t after id sentAt now hsplit hlast hfailed
      exact h.resent hsplit hlast hfailed
    · intro before t after id sentAt now hsplit hdelivered hle hnear
      exact h.suppressed hsplit hdelivered hle hnear

/-- Where no request fails and the clock never reads 0, failures hide nothing. -/
theorem hidesNothing_of_delivered
    (hrequests : ∀ t ∈ stepsOf m ms, ∀ id sentAt, requested? m t ≠ some (id, sentAt, false))
    (hclock : ∀ t ∈ stepsOf m ms, ∀ id, dispatched? m t ≠ some (id, 0, true)) :
    HidesNothing m ms := by
  refine (hidesNothing_iff m ms).2 ⟨?_, ?_, ?_⟩
  · intro t ht k c ledger alert now f hinput hcall hfailed
    obtain ⟨ms₁, mv, ms₂, rfl, rfl⟩ := Machine.mem_trace.1 ht
    rw [Machine.step_input] at hinput
    rw [Machine.step_pre] at hcall
    subst hinput
    refine absurd ?_ (hrequests _ ht alert.id now)
    unfold requested?
    rw [(horizonMonitor m).performed?_resume hcall]
    cases hanswer : m.deliver c.response with
    | ok u => exact absurd hanswer hfailed
    | error e => simp only [hanswer, Except.isOk, Except.toBool]
  · rintro before t after id sentAt now hsplit - ⟨u, hu, hr⟩ -
    exact absurd hr (hrequests u (by rw [hsplit]; exact List.mem_append_left _ hu) _ _)
  · rintro before t after id now hsplit ⟨before₁, u, before₂, rfl, hd, -⟩ - -
    exact absurd hd (hclock u (by rw [hsplit]; simp) _)

end

/-- A monitor with the default rules and a webhook. -/
def webhookMonitor : HorizonMonitor where
  detector := ⟨defaultRules, fun x => x⟩
  contractIds := []
  alertWebhookUrl := some "https://alerts.example.com"
  alertCooldownMs := 900000

/-- A payment of an amount that is large. -/
def largePayment (id : String) : HorizonOperation where
  fields := [("id", .str id), ("type", .str "payment"), ("amount", .str "200000.0000000")]
  id := id
  id_field := rfl

/-- What the outside decides at a time at which the webhook is down. -/
def webhookDown (now : Nat) : Choice where
  operations := .ok [largePayment "1", largePayment "2"]
  now := now
  response := .answered 503

/-- A ledger of two large payments, up to the request for the alert of the first one. -/
def paymentsRun : Moves :=
  [.start (.ledger ⟨1, 1000000⟩), .resume 0 (webhookDown 1000), .resume 0 (webhookDown 1001),
    .resume 0 (webhookDown 1002), .resume 0 (webhookDown 1003)]

/-- The alert of a large payment. -/
def largePaymentAlert : AnomalyAlert :=
  alert (fundedAt 1000000) .largeInvoiceFunding (.number 200000) (.number 100000) .critical

/-- An alert that is dispatched, and whose request fails. -/
def failedRun : Moves :=
  [.start (.alert largePaymentAlert), .resume 0 (webhookDown 1000), .resume 0 (webhookDown 1001),
    .start (.alert largePaymentAlert)]

/-- A failed request hides the second payment of its ledger, and a second dispatch of its alert. -/
theorem failure_hides :
    ¬ HidesNothing webhookMonitor paymentsRun ∧
    ¬ HidesNothing webhookMonitor (failedRun ++ [.resume 1 (webhookDown 2000)]) := by
  constructor
  · intro h
    obtain ⟨rest, hcall⟩ := (horizonMonitor webhookMonitor).input_later (s := .initial)
      (p := (horizonMonitor webhookMonitor).move (.start (.ledger ⟨1, 1000000⟩)) ⟨.initial, []⟩)
      (k := 0) rfl (paymentsRun.drop 1)
    have hlater : ((monitor webhookMonitor).exec (monitor webhookMonitor).init
        paymentsRun).calls[0]? = some ⟨.ledger ⟨1, 1000000⟩, rest⟩ := hcall
    have hended : ((((monitor webhookMonitor).exec (monitor webhookMonitor).init
        paymentsRun).calls[0]?).bind Call.result?).isSome = true := by decide +kernel
    cases rest with
    | await a f =>
      rw [hlater] at hended
      cases hended
    | done r =>
      have hskip := h.complete 0 ⟨1, 1000000⟩ r hlater [largePayment "1", largePayment "2"] rfl
      revert hskip
      decide +kernel
  · intro h
    have hlast : LastSent webhookMonitor (stepsOf webhookMonitor failedRun)
        largePaymentAlert.id 1000 := lastSent_iff.2 rfl
    have hfailed : RequestFailed webhookMonitor (stepsOf webhookMonitor failedRun)
        largePaymentAlert.id 1000 := ⟨_, .tail _ (.tail _ (.head _)), rfl⟩
    exact h.resent _ _ [] largePaymentAlert.id 1000 2000 (Machine.trace_concat ..) hlast hfailed
      (by decide +kernel)

end Monitoring

end Backend

end InvoiceFi
