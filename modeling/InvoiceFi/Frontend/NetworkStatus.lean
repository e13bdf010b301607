import InvoiceFi.Lib.Fallible
import InvoiceFi.Lib.Machine
import Mathlib.Data.Finset.Basic

/-!
# The network status of the frontend (`hooks/useNetworkStatus.ts`)

The hook reports the browser as offline only after it has been so for a while: `handleOffline` sets
a timer, and the timer's callback changes the status (`Hook`). Beside the hook stand the clock and
what the browser has reported (`World`), which know nothing of timers; events and callbacks come in
any order, and a callback at any time from its due time on.

`handleOnline` leaves the timers running. One that was set in an earlier, shorter offline period
then marks a browser as offline that is back (`flap_marks_offline`). In the runs without such
callbacks the status follows the browser, and in all runs the reconnect listeners are called once
for each change to online (`status_follows_browser`).
-/

namespace InvoiceFi

namespace Frontend

namespace NetworkStatus

/-! ## The hook -/

/-- `OFFLINE_THRESHOLD_MS`. -/
def offlineThresholdMs : Nat := 3000

/-- A timer of `handleOffline`. -/
structure Timer where
  setAt : Nat
  deriving DecidableEq

def Timer.due (timer : Timer) : Nat := timer.setAt + offlineThresholdMs

/-- The state of a mounted hook: its two state variables, its two refs, the timers that it has set
and that have not run, and the calls of listeners that it has made. -/
structure Hook (L : Type) where
  isOnline : Bool
  lastChecked : Nat
  reconnectListeners : Finset L
  wasOnlineRef : Bool
  timers : List Timer
  notified : Multiset L

namespace Hook

variable {L : Type}

/-- The hook when it is mounted, by `navigator.onLine`. -/
def mount (onLine : Bool) (now : Nat) : Hook L where
  isOnline := onLine
  lastChecked := now
  reconnectListeners := ∅
  wasOnlineRef := onLine
  timers := []
  notified := 0

/-- `handleOnline`. -/
def handleOnline (now : Nat) (h : Hook L) : Hook L :=
  let wasOffline := !h.wasOnlineRef
  let h := { h with wasOnlineRef := true, isOnline := true, lastChecked := now }
  if wasOffline then { h with notified := h.notified + h.reconnectListeners.val } else h

theorem handleOnline_status (now : Nat) (h : Hook L) :
    (h.handleOnline now).isOnline = true ∧ (h.handleOnline now).wasOnlineRef = true := by
  unfold handleOnline
  cases h.wasOnlineRef <;> exact ⟨rfl, rfl⟩

/-- `handleOffline`. -/
def handleOffline (now : Nat) (h : Hook L) : Hook L :=
  { h with timers := h.timers ++ [⟨now⟩] }

/-- The callback of a timer. -/
def timerCallback (now : Nat) (h : Hook L) : Hook L :=
  { h with wasOnlineRef := false, isOnline := false, lastChecked := now }

/-- `onReconnect`. -/
def onReconnect [DecidableEq L] (cb : L) (h : Hook L) : Hook L :=
  { h with reconnectListeners := insert cb h.reconnectListeners }

/-- What `onReconnect` returns. -/
def unsubscribe [DecidableEq L] (cb : L) (h : Hook L) : Hook L :=
  { h with reconnectListeners := h.reconnectListeners.erase cb }

end Hook

/-! ## The browser -/

inductive BrowserEvent where
  | online
  | offline
  deriving DecidableEq

/-- What the browser has reported: its most recent event, and the start of the offline period that
is going on. -/
structure Browser where
  latest : Option BrowserEvent
  offlineSince : Option Nat

def Browser.report (b : Browser) (now : Nat) : BrowserEvent → Browser
  | .online => ⟨some .online, none⟩
  | .offline => ⟨some .offline, b.offlineSince.or (some now)⟩

structure World (L : Type) where
  now : Nat
  browser : Browser
  hook : Hook L

inductive Event (L : Type) where
  | pass (ms : Nat)
  | browser (event : BrowserEvent)
  | fire
  | onReconnect (cb : L)
  | unsubscribe (cb : L)

section Runs

variable {L : Type} [DecidableEq L]

/-- The timers run in the order in which they were set, as they all wait equally long. -/
def World.handle (w : World L) : Event L → Except Unit (World L)
  | .pass ms => .ok { w with now := w.now + ms }
  | .browser event =>
    .ok { w with
      browser := w.browser.report w.now event
      hook :=
        match event with
        | .online => w.hook.handleOnline w.now
        | .offline => w.hook.handleOffline w.now }
  | .fire =>
    match w.hook.timers with
    | [] => .error ()
    | timer :: timers =>
      if timer.due ≤ w.now then
        .ok { w with hook := { w.hook with timers := timers }.timerCallback w.now }
      else .error ()
  | .onReconnect cb => .ok { w with hook := w.hook.onReconnect cb }
  | .unsubscribe cb => .ok { w with hook := w.hook.unsubscribe cb }

/-- The hook in the browser, from its mount on. An event that cannot happen changes nothing. -/
def mounted (L : Type) [DecidableEq L] (onLine : Bool) (now : Nat) :
    Machine (World L) (Event L) Unit Unit where
  init := ⟨now, ⟨none, none⟩, .mount onLine now⟩
  invoke event w := (fun w' => ((), w')) <$> w.handle event

/-! ## What is claimed of a run -/

/-- The status follows the browser: it is offline only if the browser is and has been for the
threshold, and is offline whenever the browser has been that long and no timer is due. -/
structure Follows (w : World L) : Prop where
  only : w.hook.isOnline = false → w.browser.latest = some .offline ∧
    ∃ since, w.browser.offlineSince = some since ∧ since + offlineThresholdMs ≤ w.now
  whenever : ∀ since, w.browser.offlineSince = some since → since + offlineThresholdMs ≤ w.now →
    (∀ timer ∈ w.hook.timers, w.now < timer.due) → w.hook.isOnline = false

/-- A step calls every listener once if it changes the status to online, and none otherwise. -/
def NotifiesOnce (t : Step (World L) (Event L) Unit Unit) : Prop :=
  ∀ cb, t.post.hook.notified.count cb = t.pre.hook.notified.count cb +
    if (t.pre.hook.isOnline = false ∧ t.post.hook.isOnline = true) ∧
      cb ∈ t.pre.hook.reconnectListeners then 1 else 0

/-- The timer whose callback a step runs. -/
def firedTimer (t : Step (World L) (Event L) Unit Unit) : Option Timer :=
  match t.input, t.result with
  | .fire, .ok _ => t.pre.hook.timers.head?
  | _, _ => none

/-- A callback that a step runs is of a timer of the offline period that is going on. -/
def Timely (t : Step (World L) (Event L) Unit Unit) : Prop :=
  ∀ timer ∈ firedTimer t, ∃ since ∈ t.pre.browser.offlineSince, since ≤ timer.setAt

instance (t : Step (World L) (Event L) Unit Unit) : Decidable (Timely t) :=
  inferInstanceAs (Decidable (∀ timer ∈ firedTimer t,
    ∃ since ∈ t.pre.browser.offlineSince, since ≤ timer.setAt))

/-! ## What a step keeps -/

/-- What holds in every run: the two records of the status agree, and an offline period that the
hook has not noticed has its timer still to run. -/
structure Tracked (w : World L) : Prop where
  ref : w.hook.wasOnlineRef = w.hook.isOnline
  latest : ∀ since, w.browser.offlineSince = some since → w.browser.latest = some .offline
  pending : ∀ since, w.browser.offlineSince = some since →
    w.hook.isOnline = false ∨ ⟨since⟩ ∈ w.hook.timers

/-- A status that is offline is so for a long enough offline period. -/
def OnlyOffline (w : World L) : Prop :=
  w.hook.isOnline = false →
    ∃ since, w.browser.offlineSince = some since ∧ since + offlineThresholdMs ≤ w.now

/-- What the callback of a due timer does. -/
theorem handle_fire {w w' : World L} (h : w.handle .fire = .ok w') :
    ∃ timer timers, w.hook.timers = timer :: timers ∧ timer.due ≤ w.now ∧
      w' = { w with hook := { w.hook with timers := timers }.timerCallback w.now } := by
  unfold World.handle at h
  cases htimers : w.hook.timers with
  | nil => simp [htimers] at h
  | cons timer timers =>
    simp only [htimers] at h
    split at h
    · cases h
      exact ⟨timer, timers, rfl, ‹_›, rfl⟩
    · cases h

theorem Tracked.handle {w w' : World L} {event : Event L} (h : Tracked w)
    (hok : w.handle event = .ok w') : Tracked w' := by
  cases event with
  | pass ms =>
    cases hok
    exact ⟨h.ref, h.latest, h.pending⟩
  | onReconnect cb =>
    cases hok
    exact ⟨h.ref, h.latest, h.pending⟩
  | unsubscribe cb =>
    cases hok
    exact ⟨h.ref, h.latest, h.pending⟩
  | fire =>
    obtain ⟨timer, timers, -, -, rfl⟩ := handle_fire hok
    exact ⟨rfl, h.latest, fun _ _ => .inl rfl⟩
  | browser event =>
    cases hok
    cases event with
    | online =>
      obtain ⟨honline, href⟩ := Hook.handleOnline_status w.now w.hook
      refine ⟨href.trans honline.symm, ?_, ?_⟩ <;> intro since hsince <;> cases hsince
    | offline =>
      refine ⟨h.ref, fun _ _ => rfl, fun since hsince => ?_⟩
      -- the period starts with this event and its timer, or goes on with the timer of its start
      cases hstart : w.browser.offlineSince with
      | none =>
        have hnow : some w.now = some since := by simpa [Browser.report, hstart] using hsince
        cases hnow
        exact .inr (List.mem_append_right _ (.head _))
      | some start =>
        have hsame : some start = some since := by simpa [Browser.report, hstart] using hsince
        cases hsame
        exact (h.pending since hstart).imp_right (List.mem_append_left _)

/-- A callback of a timer of the period that is going on finds the period long enough. -/
theorem OnlyOffline.handle {w w' : World L} {event : Event L} (h : OnlyOffline w)
    (htimely : Timely ⟨w, event, .ok (), w'⟩) (hok : w.handle event = .ok w') :
    OnlyOffline w' := by
  cases event with
  | pass ms =>
    cases hok
    intro hoffline
    obtain ⟨since, hsince, hlong⟩ := h hoffline
    exact ⟨since, hsince, hlong.trans (Nat.le_add_right _ _)⟩
  | onReconnect cb =>
    cases hok
    exact h
  | unsubscribe cb =>
    cases hok
    exact h
  | fire =>
    obtain ⟨timer, timers, htimers, hdue, rfl⟩ := handle_fire hok
    obtain ⟨since, hsince, hle⟩ := htimely timer (by simp [firedTimer, htimers])
    exact fun _ => ⟨since, hsince, (Nat.add_le_add_right hle _).trans hdue⟩
  | browser event =>
    cases hok
    cases event with
    | online =>
      intro hoffline
      rw [(Hook.handleOnline_status w.now w.hook).1] at hoffline
      cases hoffline
    | offline =>
      intro hoffline
      obtain ⟨since, hsince, hlong⟩ := h hoffline
      exact ⟨since, by simp [Browser.report, hsince], hlong⟩

omit [DecidableEq L] in
theorem Tracked.follows {w : World L} (h : Tracked w) (honly : OnlyOffline w) : Follows w where
  only hoffline := by
    obtain ⟨since, hsince, hlong⟩ := honly hoffline
    exact ⟨h.latest since hsince, since, hsince, hlong⟩
  whenever since hsince hlong hnone := by
    rcases h.pending since hsince with hoffline | hpending
    · exact hoffline
    · exact absurd hlong (Nat.not_le.2 (hnone _ hpending))

/-- A listener is called when the status changes to online, as the ref that says so agrees with the
status. -/
theorem Tracked.notifiesOnce {w w' : World L} {event : Event L} (h : Tracked w)
    (hok : w.handle event = .ok w') : NotifiesOnce ⟨w, event, .ok (), w'⟩ := by
  intro cb
  cases event with
  | pass ms =>
    cases hok
    simp
  | onReconnect cb =>
    cases hok
    simp [Hook.onReconnect]
  | unsubscribe cb =>
    cases hok
    simp [Hook.unsubscribe]
  | fire =>
    obtain ⟨timer, timers, -, -, rfl⟩ := handle_fire hok
    simp [Hook.timerCallback]
  | browser event =>
    cases hok
    cases event with
    | online =>
      rw [(Hook.handleOnline_status w.now w.hook).1]
      unfold Hook.handleOnline
      rw [h.ref]
      cases w.hook.isOnline with
      | true => simp
      | false => simp [Multiset.count_eq_of_nodup w.hook.reconnectListeners.nodup]
    | offline => simp [Hook.handleOffline]

/-! ## Runs -/

theorem mounted_eq_ok {onLine : Bool} {now : Nat} {event : Event L} {w w' : World L} {r : Unit}
    (h : (mounted L onLine now).invoke event w = .ok (r, w')) : w.handle event = .ok w' := by
  obtain ⟨_, hok, heq⟩ := map_eq_ok.1 h
  cases heq
  exact hok

variable (onLine : Bool) (now : Nat)

theorem tracked_exec (events : List (Event L)) :
    Tracked ((mounted L onLine now).exec (mounted L onLine now).init events) := by
  have hinit : Tracked (mounted L onLine now).init :=
    ⟨rfl, fun _ h => (Option.some_ne_none _ h.symm).elim,
      fun _ h => (Option.some_ne_none _ h.symm).elim⟩
  exact Machine.invariant hinit (fun event w _ w' h hok => h.handle (mounted_eq_ok hok)) events

theorem onlyOffline_exec {w : World L} (h : OnlyOffline w) {events : List (Event L)}
    (htimely : ∀ t ∈ (mounted L onLine now).trace w events, Timely t) :
    OnlyOffline ((mounted L onLine now).exec w events) :=
  Machine.invariant_of h (fun _ _ _ _ h ht hok => h.handle ht (mounted_eq_ok hok)) htimely

/-- What the browser was at the mount does not matter after its first `online` event. -/
theorem onlyOffline_of_known {events : List (Event L)}
    (htimely : ∀ t ∈ (mounted L onLine now).trace (mounted L onLine now).init events, Timely t)
    (hknown : onLine = true ∨ .browser .online ∈ events) :
    OnlyOffline ((mounted L onLine now).exec (mounted L onLine now).init events) := by
  rcases hknown with rfl | hmem
  · refine onlyOffline_exec true now (fun hoffline => ?_) htimely
    cases hoffline
  · obtain ⟨before, rest, rfl⟩ := List.append_of_mem hmem
    rw [Machine.trace_append] at htimely
    rw [Machine.exec_append]
    have honline : OnlyOffline ((mounted L onLine now).step (.browser .online)
        ((mounted L onLine now).exec (mounted L onLine now).init before)).post := by
      intro hoffline
      cases (Hook.handleOnline_status _ _).1.symm.trans hoffline
    exact onlyOffline_exec onLine now honline fun t ht =>
      htimely t (List.mem_append_right _ (.tail _ ht))

/-- In every run whose callbacks are all of timers of the offline period that is going on, the
status follows the browser in every state from where the browser is known to have been online. In
every run the listeners are called once for each change to online. -/
theorem status_follows_browser (events : List (Event L)) :
    ((∀ t ∈ (mounted L onLine now).trace (mounted L onLine now).init events, Timely t) →
      ∀ before rest, events = before ++ rest → (onLine = true ∨ .browser .online ∈ before) →
        Follows ((mounted L onLine now).exec (mounted L onLine now).init before)) ∧
    ∀ t ∈ (mounted L onLine now).trace (mounted L onLine now).init events, NotifiesOnce t := by
  constructor
  · rintro htimely before rest rfl hknown
    have hbefore := onlyOffline_of_known onLine now
      (fun t ht => htimely t (Machine.mem_trace_append ht)) hknown
    exact (tracked_exec onLine now before).follows hbefore
  · intro t ht
    obtain ⟨before, event, rest, -, rfl⟩ := Machine.mem_trace.1 ht
    obtain ⟨r, w', hok, hstep⟩ | ⟨e, -, hstep⟩ := Machine.step_cases (m := mounted L onLine now)
      event ((mounted L onLine now).exec (mounted L onLine now).init before)
    · rw [hstep]
      exact (tracked_exec onLine now before).notifiesOnce (mounted_eq_ok hok)
    · rw [hstep]
      intro cb
      simp

end Runs

/-- An offline period of three seconds. -/
def outage : List (Event Unit) :=
  [.browser .offline, .pass 3000, .fire, .browser .online]

theorem outage_followed : ∀ before rest, outage = before ++ rest →
    Follows ((mounted Unit true 0).exec (mounted Unit true 0).init before) :=
  fun before rest h =>
    (status_follows_browser true 0 outage).1 (by decide) before rest h (.inl rfl)

/-- An offline period of one second, after which the browser stays online. -/
def flap : List (Event Unit) :=
  [.browser .offline, .pass 1000, .browser .online, .pass 2000, .fire]

/-- Three seconds after its start the hook reports the browser as offline. -/
theorem flap_marks_offline :
    ¬ Follows ((mounted Unit true 0).exec (mounted Unit true 0).init flap) := by
  intro h
  cases (h.only rfl).1

end NetworkStatus

end Frontend

end InvoiceFi
