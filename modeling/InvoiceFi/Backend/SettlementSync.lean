import InvoiceFi.Backend.Database
import InvoiceFi.Lib.Fallible
import InvoiceFi.Lib.Machine
import Mathlib.Data.List.Dedup

/-!
# The settlement listener (`settlement/settlement-sync.service.ts`)

One cycle of the listener reads the stored cursor, asks the RPC for the contract's events from the
next ledger on, settles the invoice of each settlement event with retries, and writes the cursor
back. `syncOnce` is such a cycle as a function of the stored cursor and of what the outside does
during it (`Cycle`): the answers of the database and the RPC and of every settlement attempt, each
of which may be an error. `listener` is the machine whose steps are the cycles; a cycle that throws
keeps what it had written, and the process may be restarted between cycles, since the cursor is
all that a cycle starts from. A process that dies in the middle of a cycle leaves the same store as
a cycle whose remaining settlements and whose cursor write fail.

Next to the cursor the store records two facts that no cycle reads: the events some cycle has
fetched, and the events whose settlement has succeeded.
-/

namespace InvoiceFi

namespace Backend

/-! ## Retries (`common/retry.ts`) -/

/-- The loop of `withRetry` from one attempt on, with the attempts that are left. -/
def retryFrom {ε α : Type} (fn : Nat → Except ε α) (lastError : Option ε) (attempt : Nat) :
    Nat → Except (Option ε) α
  | 0 => .error lastError
  | left + 1 =>
    match fn attempt with
    | .ok a => .ok a
    | .error e => retryFrom fn (some e) (attempt + 1) left

/-- `withRetry`: the first success among the attempts `1` to `maxAttempts`, or the last error, which
is `undefined` when there is no attempt. The answer of an attempt is given by its number; the delays
between attempts do not matter to it. -/
def withRetry {ε α : Type} (fn : Nat → Except ε α) (maxAttempts : Nat) : Except (Option ε) α :=
  retryFrom fn none 1 maxAttempts

/-- Some attempt succeeds. -/
def Succeeds {ε α : Type} (fn : Nat → Except ε α) (maxAttempts : Nat) : Prop :=
  ∃ k, 1 ≤ k ∧ k ≤ maxAttempts ∧ ∃ a, fn k = .ok a

theorem retryFrom_eq_ok {ε α : Type} {fn : Nat → Except ε α} {lastError : Option ε}
    {attempt left : Nat} :
    (∃ a, retryFrom fn lastError attempt left = .ok a) ↔
      ∃ k, attempt ≤ k ∧ k < attempt + left ∧ ∃ a, fn k = .ok a := by
  induction left generalizing lastError attempt with
  | zero =>
    constructor
    · rintro ⟨a, h⟩
      cases h
    · rintro ⟨k, hge, hlt, -⟩
      omega
  | succ left ih =>
    rw [retryFrom]
    cases hfn : fn attempt with
    | ok a => exact ⟨fun _ => ⟨attempt, Nat.le_refl _, by omega, a, hfn⟩, fun _ => ⟨a, rfl⟩⟩
    | error e =>
      rw [ih]
      constructor
      · rintro ⟨k, hge, hlt, hk⟩
        exact ⟨k, by omega, by omega, hk⟩
      · rintro ⟨k, hge, hlt, a, hk⟩
        have hne : k ≠ attempt := by
          rintro rfl
          rw [hfn] at hk
          cases hk
        exact ⟨k, by omega, by omega, a, hk⟩

/-- A retried call succeeds exactly when some attempt does. -/
theorem withRetry_eq_ok {ε α : Type} {fn : Nat → Except ε α} {maxAttempts : Nat} :
    (∃ a, withRetry fn maxAttempts = .ok a) ↔ Succeeds fn maxAttempts := by
  rw [withRetry, retryFrom_eq_ok]
  constructor
  · rintro ⟨k, hge, hlt, hk⟩
    exact ⟨k, hge, by omega, hk⟩
  · rintro ⟨k, hge, hle, hk⟩
    exact ⟨k, hge, by omega, hk⟩

/-! ## The RPC (`settlement/soroban-events.service.ts`) -/

/-- An event of a `getEvents` response: its id on the network and its decoded content. -/
structure EventResponse where
  id : Nat
  event : NormalizedEvent

/-- The ledger of an event. -/
def EventResponse.ledger (e : EventResponse) : Nat := e.event.ledger

/-- The event is a settlement. -/
def EventResponse.Settles (e : EventResponse) : Prop := (parseSettlementEvent e.event).isSome

/-- The events of the observed contracts, in the order of their ledgers. -/
structure EventLog where
  events : List EventResponse
  sorted : events.Pairwise fun a b => a.ledger ≤ b.ledger

/-- The events from one ledger to another. -/
def EventLog.between (log : EventLog) (startLedger tip : Nat) : List EventResponse :=
  log.events.filter fun e => decide (startLedger ≤ e.ledger ∧ e.ledger ≤ tip)

/-- How the RPC answers a `getEvents` request: the ledger it has reached, and the size of the page
it returns, less one, unless it returns every matching event. -/
structure Page where
  tip : Nat
  size : Option Nat

/-- `fetchEvents`: the events of the page and the reported tip. -/
def fetchEvents (log : EventLog) (page : Page) (startLedger : Nat) : List EventResponse × Nat :=
  let matching := log.between startLedger page.tip
  (match page.size with
    | none => matching
    | some n => matching.take (n + 1), page.tip)

/-! ## The cycle -/

/-- `SyncSummary`. -/
structure SyncSummary where
  processed : Nat
  settled : Nat
  gaps : Nat
  deriving DecidableEq, Repr

/-- What the outside does during one cycle: whether the cursor can be read and written, the answers
of `getLatestLedger` and `getEvents`, and the answer of `settleInvoice` to each attempt for the
event at each position of the batch. -/
structure Cycle where
  cursorRead : Except Error Unit
  latestLedger : Except Error Nat
  getEvents : Except Error Page
  settleInvoice : Nat → Nat → Except Error SettlementResult
  cursorWrite : Except Error Unit

/-- The `SyncCursor` row, and what the cycles have done so far: the events fetched and the events
settled. -/
structure SyncStore where
  lastLedger : Option Nat
  fetched : List EventResponse
  settled : List EventResponse

/-- The stored cursor, `0` before the first run. -/
def SyncStore.cursor (s : SyncStore) : Nat := s.lastLedger.getD 0

/-- The state of the loop over the events. `safeLedger` starts from `startLedger - 1`, cut at `0`:
it is only ever compared with a ledger, or with `0`. -/
structure Progress where
  safeLedger : Nat
  processed : Nat
  settled : Nat
  done : List EventResponse

/-- The loop over the events: `true` if it gave up on one of them. -/
def settleEvents (maxAttempts : Nat) (answer : Nat → Nat → Except Error SettlementResult) :
    List EventResponse → Progress → Bool × Progress
  | [], p => (false, p)
  | e :: es, p =>
    match parseSettlementEvent e.event with
    | none =>
      settleEvents maxAttempts (fun i => answer (i + 1)) es
        { p with safeLedger := max p.safeLedger e.ledger }
    | some _ =>
      let p := { p with processed := p.processed + 1 }
      match withRetry (answer 0) maxAttempts with
      | .ok result =>
        settleEvents maxAttempts (fun i => answer (i + 1)) es
          { p with
            settled := if result = .settled then p.settled + 1 else p.settled
            safeLedger := max p.safeLedger e.ledger
            done := p.done ++ [e] }
      | .error _ => (true, p)

/-- `detectGaps`. -/
def detectGaps (lastProcessedLedger : Nat) (events : List EventResponse) : Nat :=
  let ledgers := (events.map EventResponse.ledger).dedup.mergeSort
  match ledgers with
  | [] => 0
  | firstLedger :: rest =>
    (if 0 < lastProcessedLedger ∧ lastProcessedLedger + 1 < firstLedger then 1 else 0) +
      (ledgers.zip rest).countP fun (prev, curr) => decide (1 < curr - prev)

/-- `getLastLedger` (`settlement/sync-cursor.service.ts`). -/
def getLastLedger (c : Cycle) (s : SyncStore) : Except Error Nat := do
  c.cursorRead
  pure s.cursor

/-- `setLastLedger`. -/
def setLastLedger (c : Cycle) (ledger : Nat) (s : SyncStore) : Except Error Unit × SyncStore :=
  match c.cursorWrite with
  | .ok () => (.ok (), { s with lastLedger := some ledger })
  | .error e => (.error e, s)

/-- The ledger a cycle asks for: the one after the cursor, or the latest one on the first run. -/
def startLedger (c : Cycle) (lastLedger : Nat) : Except Error Nat :=
  if 0 < lastLedger then .ok (lastLedger + 1) else c.latestLedger

/-- The first half of a cycle, which only reads: the ledger it asks for, the events it gets and the
reported tip. -/
def fetchBatch (log : EventLog) (c : Cycle) (s : SyncStore) :
    Except Error (Nat × List EventResponse × Nat) := do
  let lastLedger ← getLastLedger c s
  let start ← startLedger c lastLedger
  let page ← c.getEvents
  pure (start, fetchEvents log page start)

/-- `syncOnce`. -/
def syncOnce (maxAttempts : Nat) (log : EventLog) (c : Cycle) (s : SyncStore) :
    Except Error SyncSummary × SyncStore :=
  match fetchBatch log c s with
  | .error e => (.error e, s)
  | .ok (startLedger, events, latestLedger) =>
    let gaps := detectGaps s.cursor events
    let (gaveUp, p) := settleEvents maxAttempts c.settleInvoice events ⟨startLedger - 1, 0, 0, []⟩
    let s := { s with fetched := s.fetched ++ events, settled := s.settled ++ p.done }
    let newCursor := if gaveUp then p.safeLedger else max p.safeLedger latestLedger
    let (written, s) := setLastLedger c newCursor s
    (written.map fun _ => ⟨p.processed, p.settled, gaps⟩, s)

/-- The listener: an invocation is a cycle, and its result is what the cycle returns or throws. -/
def listener (maxAttempts : Nat) (log : EventLog) :
    Machine SyncStore Cycle Empty (Except Error SyncSummary) where
  init := ⟨none, [], []⟩
  invoke c s := .ok (syncOnce maxAttempts log c s)

/-! ## The loop -/

instance (e : EventResponse) : Decidable e.Settles := inferInstanceAs (Decidable (_ = true))

/-- The highest of a ledger and the ledgers of some events. -/
def reach (ledger : Nat) (es : List EventResponse) : Nat :=
  es.foldl (fun l e => max l e.ledger) ledger

theorem le_reach (ledger : Nat) (es : List EventResponse) : ledger ≤ reach ledger es := by
  induction es generalizing ledger with
  | nil => exact Nat.le_refl _
  | cons e es ih => exact Nat.le_trans (Nat.le_max_left _ _) (ih _)

theorem ledger_le_reach {ledger : Nat} {es : List EventResponse} {e : EventResponse}
    (he : e ∈ es) : e.ledger ≤ reach ledger es := by
  induction es generalizing ledger with
  | nil => cases he
  | cons a es ih =>
    rcases List.mem_cons.1 he with rfl | he
    · exact Nat.le_trans (Nat.le_max_right _ _) (le_reach _ _)
    · exact ih he

/-- The highest ledger is the one started from or that of an event. -/
theorem reach_cases (ledger : Nat) (es : List EventResponse) :
    reach ledger es = ledger ∨ ∃ e ∈ es, e.ledger = reach ledger es := by
  induction es generalizing ledger with
  | nil => exact .inl rfl
  | cons a es ih =>
    have hstep : reach ledger (a :: es) = reach (max ledger a.ledger) es := rfl
    rw [hstep]
    rcases ih (max ledger a.ledger) with h | ⟨e, he, hle⟩
    · rw [h]
      rcases Nat.le_total a.ledger ledger with hle | hle
      · exact .inl (Nat.max_eq_left hle)
      · exact .inr ⟨a, .head _, (Nat.max_eq_right hle).symm⟩
    · exact .inr ⟨e, .tail _ he, hle⟩

/-- The attempts for the events of a batch settle every settlement event among them. -/
def AllSettle (maxAttempts : Nat) (answer : Nat → Nat → Except Error SettlementResult)
    (es : List EventResponse) : Prop :=
  ∀ i e, es[i]? = some e → e.Settles → Succeeds (answer i) maxAttempts

/-- The attempts for the events of a batch settle every settlement event of `before` and fail for
the settlement event `e` that follows. -/
structure FailsAt (maxAttempts : Nat) (answer : Nat → Nat → Except Error SettlementResult)
    (before : List EventResponse) (e : EventResponse) : Prop where
  passed : AllSettle maxAttempts answer before
  settles : e.Settles
  failed : ¬ Succeeds (answer before.length) maxAttempts

/-- The first event of a batch whose attempts fail is the first one, whichever way the batch is
split there. -/
theorem FailsAt.unique {maxAttempts : Nat} {answer : Nat → Nat → Except Error SettlementResult}
    {before before' after after' : List EventResponse} {e e' : EventResponse}
    (h : FailsAt maxAttempts answer before e) (h' : FailsAt maxAttempts answer before' e')
    (heq : before ++ e :: after = before' ++ e' :: after') : before = before' := by
  have hle : ∀ {b b' a a' : List EventResponse} {x x' : EventResponse},
      FailsAt maxAttempts answer b x → FailsAt maxAttempts answer b' x' →
      b ++ x :: a = b' ++ x' :: a' → b'.length ≤ b.length := by
    intro b b' a a' x x' hb hb' heq
    by_contra hlt
    -- otherwise the event that fails is among those that pass
    have hx : b'[b.length]? = some x := by
      have hleft : (b' ++ x' :: a')[b.length]? = b'[b.length]? :=
        List.getElem?_append_left (by omega)
      rw [← hleft, ← heq]
      simp
    exact hb.failed (hb'.passed _ x hx hb.settles)
  have hlen : before.length = before'.length := Nat.le_antisymm (hle h' h heq.symm) (hle h h' heq)
  exact (List.append_inj heq hlen).1

theorem AllSettle.cons {maxAttempts : Nat} {answer : Nat → Nat → Except Error SettlementResult}
    {a : EventResponse} {es : List EventResponse}
    (ha : a.Settles → Succeeds (answer 0) maxAttempts)
    (hes : AllSettle maxAttempts (fun i => answer (i + 1)) es) :
    AllSettle maxAttempts answer (a :: es) := by
  intro i e hi he
  cases i with
  | zero =>
    cases hi
    exact ha he
  | succ i => exact hes i e hi he

/-- What a run of the loop over a batch comes to: it settles the whole batch, or the part of it
before the first settlement event whose attempts all fail. -/
def LoopResult (maxAttempts : Nat) (answer : Nat → Nat → Except Error SettlementResult)
    (es : List EventResponse) (p : Progress) (run : Bool × Progress) : Prop :=
  (∃ p', run = (false, p') ∧
    AllSettle maxAttempts answer es ∧ p'.safeLedger = reach p.safeLedger es ∧
    p'.done = p.done ++ es.filter fun e => decide e.Settles) ∨
  (∃ before e after p', es = before ++ e :: after ∧
    run = (true, p') ∧
    FailsAt maxAttempts answer before e ∧ p'.safeLedger = reach p.safeLedger before ∧
    p'.done = p.done ++ before.filter fun e => decide e.Settles)

/-- An event that the loop passes, settled or not of interest, comes before what the rest of the
batch comes to. -/
theorem LoopResult.cons {maxAttempts : Nat} {answer : Nat → Nat → Except Error SettlementResult}
    {a : EventResponse} {es : List EventResponse} {p p₁ : Progress} {run : Bool × Progress}
    (ha : a.Settles → Succeeds (answer 0) maxAttempts)
    (hsafe : p₁.safeLedger = max p.safeLedger a.ledger)
    (hdone : p₁.done = p.done ++ [a].filter fun e => decide e.Settles)
    (h : LoopResult maxAttempts (fun i => answer (i + 1)) es p₁ run) :
    LoopResult maxAttempts answer (a :: es) p run := by
  have happend : ∀ l : List EventResponse, (p₁.done ++ l.filter fun e => decide e.Settles) =
      p.done ++ (a :: l).filter fun e => decide e.Settles := by
    intro l
    rw [hdone, List.append_assoc, ← List.filter_append, List.singleton_append]
  rcases h with ⟨p', hrun, hall, hsafe', hdone'⟩ |
    ⟨before, e, after, p', rfl, hrun, hfail, hsafe', hdone'⟩
  · refine .inl ⟨p', hrun, hall.cons ha, ?_, hdone'.trans (happend es)⟩
    rw [hsafe', hsafe]
    rfl
  · refine .inr ⟨a :: before, e, after, p', rfl, hrun,
      ⟨hfail.passed.cons ha, hfail.settles, hfail.failed⟩, ?_, hdone'.trans (happend before)⟩
    rw [hsafe', hsafe]
    rfl

/-- What the loop comes to, event by event. -/
theorem settleEvents_cases (maxAttempts : Nat)
    (answer : Nat → Nat → Except Error SettlementResult) (es : List EventResponse) (p : Progress) :
    LoopResult maxAttempts answer es p (settleEvents maxAttempts answer es p) := by
  induction es generalizing answer p with
  | nil =>
    refine .inl ⟨p, rfl, ?_, rfl, (List.append_nil _).symm⟩
    intro i e hi
    cases hi
  | cons a es ih =>
    rw [settleEvents]
    split
    · next hnone =>
      have ha : ¬ a.Settles := by simp [EventResponse.Settles, hnone]
      refine LoopResult.cons (fun h => absurd h ha) rfl ?_ (ih _ _)
      simp [ha]
    · next parsed hsome =>
      have ha : a.Settles := by simp [EventResponse.Settles, hsome]
      dsimp only
      split
      · next result hok =>
        refine LoopResult.cons (fun _ => withRetry_eq_ok.1 ⟨_, hok⟩) rfl ?_ (ih _ _)
        simp [ha]
      · next err herr =>
        refine .inr ⟨[], a, es, { p with processed := p.processed + 1 }, rfl, rfl,
          ⟨?_, ha, ?_⟩, rfl, (List.append_nil _).symm⟩
        · intro i e hi
          cases hi
        · intro hsucc
          obtain ⟨result, hok⟩ := withRetry_eq_ok.2 hsucc
          have hok : withRetry (answer 0) maxAttempts = .ok result := hok
          rw [hok] at herr
          cases herr

/-! ## One cycle -/

/-- The store after a cycle that fetched `events`, settled those of `done` and set out to move the
cursor to `newCursor`: the cursor moves if it can be written. -/
def SyncStore.after (s : SyncStore) (c : Cycle) (events done : List EventResponse)
    (newCursor : Nat) : SyncStore where
  lastLedger := if c.cursorWrite.isOk then some newCursor else s.lastLedger
  fetched := s.fetched ++ events
  settled := s.settled ++ done.filter fun e => decide e.Settles

/-- A cycle that gets no batch changes nothing. -/
theorem syncOnce_of_error {maxAttempts : Nat} {log : EventLog} {c : Cycle} {s : SyncStore}
    {err : Error} (h : fetchBatch log c s = .error err) :
    (syncOnce maxAttempts log c s).2 = s := by
  rw [syncOnce, h]

/-- What a cycle does with its batch: it settles all of it and moves the cursor to the reported
tip, or it stops at an event it gives up on and moves the cursor to the last ledger of the events
before it. -/
theorem syncOnce_of_batch (maxAttempts : Nat) {log : EventLog} {c : Cycle} {s : SyncStore}
    {start tip : Nat} {events : List EventResponse}
    (h : fetchBatch log c s = .ok (start, events, tip)) :
    (AllSettle maxAttempts c.settleInvoice events ∧ (syncOnce maxAttempts log c s).2 =
        s.after c events events (max (reach (start - 1) events) tip)) ∨
      ∃ before e after, events = before ++ e :: after ∧
        FailsAt maxAttempts c.settleInvoice before e ∧ (syncOnce maxAttempts log c s).2 =
          s.after c events before (reach (start - 1) before) := by
  rw [syncOnce, h]
  rcases settleEvents_cases maxAttempts c.settleInvoice events ⟨start - 1, 0, 0, []⟩ with
    ⟨p', hrun, hall, hsafe, hdone⟩ | ⟨before, e, after, p', hes, hrun, hfail, hsafe, hdone⟩
  · refine .inl ⟨hall, ?_⟩
    simp only [hrun, hsafe, hdone]
    cases hw : c.cursorWrite <;> simp [setLastLedger, SyncStore.after, hw, Except.isOk,
      Except.toBool]
  · refine .inr ⟨before, e, after, hes, hfail, ?_⟩
    simp only [hrun, hsafe, hdone]
    cases hw : c.cursorWrite <;> simp [setLastLedger, SyncStore.after, hw, Except.isOk,
      Except.toBool]

/-- Where the requested ledger and the batch come from. -/
theorem fetchBatch_eq_ok {log : EventLog} {c : Cycle} {s : SyncStore} {start tip : Nat}
    {events : List EventResponse} :
    fetchBatch log c s = .ok (start, events, tip) ↔
      c.cursorRead = .ok () ∧ startLedger c s.cursor = .ok start ∧
      ∃ page, c.getEvents = .ok page ∧ (events, tip) = fetchEvents log page start := by
  simp only [fetchBatch, getLastLedger, bind_eq_ok, pure_eq_ok]
  constructor
  · rintro ⟨_, ⟨⟨⟩, hread, rfl⟩, first, hstart, page, hpage, h⟩
    obtain ⟨rfl, h⟩ := Prod.mk.inj h
    exact ⟨hread, hstart, page, hpage, h⟩
  · rintro ⟨hread, hstart, page, hpage, h⟩
    exact ⟨_, ⟨(), hread, rfl⟩, start, hstart, page, hpage, by rw [h]⟩

end Backend

end InvoiceFi
