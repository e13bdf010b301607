import InvoiceFi.Backend.SettlementSync

/-!
# What the cursor stands for

The listener never looks behind its cursor, so the cursor has to stay behind every event that is
still to be settled and behind every event that is still to be fetched. It has the granularity of a
ledger and is moved in two ways, and each breaks one of the two.

A cycle that gives up on an event stores the last ledger it went through. If that is the ledger of
the event itself, because an event before it in the batch was of the same ledger, the event is
behind the cursor: `no_event_lost_iff` says that events are lost by exactly those cycles.

A cycle that goes through its whole batch stores the tip that the RPC reports with the page, and
what the page left out is behind it: `no_event_passed_iff` says that the cursor stays behind the
unseen events exactly as long as no page leaves an unseen event out.
-/

namespace InvoiceFi

namespace Backend

section
variable {maxAttempts : Nat} {log : EventLog} {c : Cycle} {s : SyncStore} {start tip : Nat}
  {events : List EventResponse}

/-- An invocation of the listener leaves the store that the cycle leaves. -/
theorem post_of_listener {r : Except Error SyncSummary} {s' : SyncStore}
    (h : (listener maxAttempts log).invoke c s = .ok (r, s')) :
    s' = (syncOnce maxAttempts log c s).2 :=
  (congrArg Prod.snd (Except.ok.inj h)).symm

/-! ## The batch -/

theorem mem_between {e : EventResponse} :
    e ∈ log.between start tip ↔ e ∈ log.events ∧ start ≤ e.ledger ∧ e.ledger ≤ tip := by
  simp [EventLog.between]

/-- The events of a batch are events of the log from the requested ledger up to the tip. -/
theorem mem_log_of_batch (h : fetchBatch log c s = .ok (start, events, tip)) {e : EventResponse}
    (he : e ∈ events) : e ∈ log.events ∧ start ≤ e.ledger ∧ e.ledger ≤ tip := by
  obtain ⟨-, -, page, -, hev⟩ := fetchBatch_eq_ok.1 h
  obtain ⟨rfl, rfl⟩ := Prod.mk.inj hev
  refine mem_between.1 ?_
  cases hs : page.size with
  | none => rwa [hs] at he
  | some n =>
    rw [hs] at he
    exact List.mem_of_mem_take he

/-- A cycle with a positive cursor asks for the ledger after it. -/
theorem start_of_batch (h : fetchBatch log c s = .ok (start, events, tip)) (hpos : 0 < s.cursor) :
    start = s.cursor + 1 := by
  obtain ⟨-, hstart, -⟩ := fetchBatch_eq_ok.1 h
  rw [startLedger, if_pos hpos] at hstart
  cases hstart
  rfl

/-- The batch of a cycle is in the order of the ledgers. -/
theorem sorted_of_batch (h : fetchBatch log c s = .ok (start, events, tip)) :
    events.Pairwise fun a b => a.ledger ≤ b.ledger := by
  obtain ⟨-, -, page, -, hev⟩ := fetchBatch_eq_ok.1 h
  obtain ⟨rfl, -⟩ := Prod.mk.inj hev
  have hsorted : (log.between start page.tip).Pairwise fun a b => a.ledger ≤ b.ledger :=
    log.sorted.filter _
  cases page.size with
  | none => exact hsorted
  | some n => exact hsorted.take

/-! ## Settlement -/

/-- The RPC answers with every matching event. -/
def Cycle.Complete (c : Cycle) : Prop := ∀ page, c.getEvents = .ok page → page.size = none

/-- No event is lost: every settlement event after the ledger `c₀` and up to the cursor has been
settled. -/
def NoEventLost (log : EventLog) (c₀ : Nat) (s : SyncStore) : Prop :=
  ∀ e ∈ log.events, e.Settles → c₀ < e.ledger → e.ledger ≤ s.cursor → e ∈ s.settled

/-- A cycle that loses an event: it gives up on an event of its batch behind another event of the
same ledger, stores its cursor, and that event or a later one of the ledger is a settlement that
has never been settled. -/
def LosesEvent (maxAttempts : Nat) (log : EventLog) (s : SyncStore) (c : Cycle) : Prop :=
  ∃ start events tip before e after,
    fetchBatch log c s = .ok (start, events, tip) ∧ events = before ++ e :: after ∧
    FailsAt maxAttempts c.settleInvoice before e ∧ c.cursorWrite.isOk = true ∧
    (∃ a ∈ before, a.ledger = e.ledger) ∧
    ∃ x ∈ e :: after, x.ledger = e.ledger ∧ x.Settles ∧ x ∉ s.settled ∧ x ∉ before

theorem cursor_after (s : SyncStore) (c : Cycle) (events done : List EventResponse)
    (newCursor : Nat) : (s.after c events done newCursor).cursor =
      if c.cursorWrite.isOk then newCursor else s.cursor := by
  unfold SyncStore.after SyncStore.cursor
  split <;> rfl

theorem mem_settled_after {done : List EventResponse} {newCursor : Nat} {e : EventResponse} :
    e ∈ (s.after c events done newCursor).settled ↔ e ∈ s.settled ∨ e ∈ done ∧ e.Settles := by
  simp [SyncStore.after]

/-- The cursor never moves back. -/
theorem cursor_le_syncOnce (hpos : 0 < s.cursor) :
    s.cursor ≤ (syncOnce maxAttempts log c s).2.cursor := by
  cases hb : fetchBatch log c s with
  | error err =>
    exact Nat.le_of_eq (congrArg SyncStore.cursor (syncOnce_of_error hb)).symm
  | ok b =>
    obtain ⟨start, events, tip⟩ := b
    have hstart := start_of_batch hb hpos
    rcases syncOnce_of_batch maxAttempts hb with
      ⟨-, hs⟩ | ⟨before, e, after, -, -, hs⟩
    · have hreach := le_reach (start - 1) events
      rw [hs, cursor_after]
      split <;> omega
    · have hreach := le_reach (start - 1) before
      rw [hs, cursor_after]
      split <;> omega

/-- Up to the tip, an event past the cursor is in the batch of a complete answer. -/
theorem mem_batch_of_complete (hc : c.Complete) (hpos : 0 < s.cursor)
    (hb : fetchBatch log c s = .ok (start, events, tip)) {x : EventResponse} (hx : x ∈ log.events)
    (hlt : s.cursor < x.ledger) (hle : x.ledger ≤ tip) : x ∈ events := by
  have hstart := start_of_batch hb hpos
  obtain ⟨-, -, page, hpage, hev⟩ := fetchBatch_eq_ok.1 hb
  have hevents : events = log.between start tip := by
    have hnone := hc page hpage
    rw [fetchEvents, hnone] at hev
    obtain ⟨h1, h2⟩ := Prod.mk.inj hev
    rw [h1, h2]
  rw [hevents]
  exact mem_between.2 ⟨hx, by omega, hle⟩

/-- The cursor that a finished batch stores is the old one or at most the tip. -/
theorem reach_le_tip (hpos : 0 < s.cursor)
    (hb : fetchBatch log c s = .ok (start, events, tip)) :
    reach (start - 1) events ≤ max s.cursor tip := by
  have hstart := start_of_batch hb hpos
  rcases reach_cases (start - 1) events with hr | ⟨a, ha, hr⟩
  · omega
  · have hle := (mem_log_of_batch hb ha).2.2
    omega

/-- A cycle keeps the law if it has settled what its cursor passes. -/
theorem NoEventLost.after {c₀ newCursor : Nat} {done : List EventResponse}
    (h : NoEventLost log c₀ s)
    (hpassed : c.cursorWrite.isOk = true → ∀ x ∈ log.events, x.Settles → s.cursor < x.ledger →
      x.ledger ≤ newCursor → x ∈ s.settled ∨ x ∈ done) :
    NoEventLost log c₀ (s.after c events done newCursor) := by
  intro x hx hsettles hlt hle
  rw [mem_settled_after]
  rw [cursor_after] at hle
  by_cases hold : x.ledger ≤ s.cursor
  · exact .inl (h x hx hsettles hlt hold)
  · split at hle
    · next hw =>
      exact (hpassed hw x hx hsettles (Nat.not_le.1 hold) hle).imp_right fun hdone =>
        ⟨hdone, hsettles⟩
    · exact absurd hle hold

/-- Past the old cursor, what the cursor of a cycle reaches is the ledger of an event that the cycle
has gone through. -/
theorem reached_of_lt (hpos : 0 < s.cursor) (hb : fetchBatch log c s = .ok (start, events, tip))
    {before : List EventResponse} (hlt : s.cursor < reach (start - 1) before) :
    ∃ a ∈ before, a.ledger = reach (start - 1) before := by
  have hstart := start_of_batch hb hpos
  rcases reach_cases (start - 1) before with hr | hr
  · omega
  · exact hr

/-- A cycle that loses no event keeps the law. -/
theorem NoEventLost.step {c₀ : Nat} (hc : c.Complete) (hpos : 0 < s.cursor)
    (h : NoEventLost log c₀ s) (hloses : ¬ LosesEvent maxAttempts log s c) :
    NoEventLost log c₀ (syncOnce maxAttempts log c s).2 := by
  cases hb : fetchBatch log c s with
  | error err => rwa [syncOnce_of_error hb]
  | ok b =>
  obtain ⟨start, events, tip⟩ := b
  rcases syncOnce_of_batch maxAttempts hb with
    ⟨-, hs⟩ | ⟨before, e, after, hevents, hfail, hs⟩
  · rw [hs]
    refine h.after fun _ x hx hsettles hlt hle => .inr ?_
    have hreach := reach_le_tip hpos hb
    exact mem_batch_of_complete hc hpos hb hx hlt (by omega)
  · rw [hs]
    refine h.after fun hw x hx hsettles hlt hle => ?_
    obtain ⟨a, ha, hreach⟩ := reached_of_lt hpos hb (Nat.lt_of_lt_of_le hlt hle)
    have hae : a ∈ events := by
      rw [hevents]
      exact List.mem_append_left _ ha
    have htip := (mem_log_of_batch hb hae).2.2
    have hsorted := sorted_of_batch hb
    have hxe : x ∈ events := mem_batch_of_complete hc hpos hb hx hlt (by omega)
    rw [hevents] at hsorted hxe
    rcases List.mem_append.1 hxe with hxb | hxa
    · exact .inr hxb
    · -- an event behind the cut and not behind the cursor has the ledger of the cut
      have hge : a.ledger ≤ e.ledger := (List.pairwise_append.1 hsorted).2.2 a ha e (.head _)
      have hex : e.ledger ≤ x.ledger := by
        rcases List.mem_cons.1 hxa with rfl | hxa
        · exact Nat.le_refl _
        · exact (List.pairwise_cons.1 (List.pairwise_append.1 hsorted).2.1).1 x hxa
      by_contra hnot
      rw [not_or] at hnot
      exact hloses ⟨start, events, tip, before, e, after, hb, hevents, hfail, hw,
        ⟨a, ha, by omega⟩, x, hxa, by omega, hsettles, hnot.1, hnot.2⟩

/-- A cycle that loses an event breaks the law. -/
theorem LosesEvent.not_noEventLost {c₀ : Nat} (hpos : 0 < s.cursor) (hc₀ : c₀ ≤ s.cursor)
    (h : LosesEvent maxAttempts log s c) :
    ¬ NoEventLost log c₀ (syncOnce maxAttempts log c s).2 := by
  obtain ⟨start, events, tip, before, e, after, hb, hevents, hfail, hw, ⟨a, ha, hae⟩, x, hx, hxe,
    hsettles, hnew, hxb⟩ := h
  intro hno
  have hstart := start_of_batch hb hpos
  have hxin : x ∈ events := by rw [hevents]; exact List.mem_append_right _ hx
  obtain ⟨hxlog, hxge, -⟩ := mem_log_of_batch hb hxin
  -- the cycle stops at `e`, so the cursor it stores has reached the ledger of `a`
  have hs : (syncOnce maxAttempts log c s).2 =
      s.after c events before (reach (start - 1) before) := by
    rcases syncOnce_of_batch maxAttempts hb with
      ⟨hall, -⟩ | ⟨before', e', after', hevents', hfail', hs⟩
    · exact absurd (hall before.length e (by rw [hevents]; simp) hfail.settles) hfail.failed
    · rw [hfail.unique hfail' (hevents ▸ hevents')]
      exact hs
  have hcursor : x.ledger ≤ (syncOnce maxAttempts log c s).2.cursor := by
    rw [hs, cursor_after, if_pos hw, hxe, ← hae]
    exact ledger_le_reach ha
  have hin := hno x hxlog hsettles (by omega) hcursor
  rw [hs, mem_settled_after] at hin
  rcases hin with hin | ⟨hin, -⟩
  · exact hnew hin
  · exact hxb hin

end

/-- A step of the listener that loses an event. -/
def LossyStep (maxAttempts : Nat) (log : EventLog)
    (t : Step SyncStore Cycle Empty (Except Error SyncSummary)) : Prop :=
  LosesEvent maxAttempts log t.pre t.input

/-- **The cycles that lose events are those that stop inside a ledger.** In the runs from a positive
cursor `c₀` whose `getEvents` answers are complete, no event is ever lost exactly if no cycle stores
a cursor after giving up on an event behind another event of the same ledger, with that event or a
later one of the ledger never settled. -/
theorem no_event_lost_iff (maxAttempts : Nat) (log : EventLog) {c₀ : Nat} (hc₀ : 0 < c₀)
    {cycles : List Cycle} (hcomplete : ∀ c ∈ cycles, c.Complete) :
    (∀ cs₁ cs₂, cycles = cs₁ ++ cs₂ →
      NoEventLost log c₀ ((listener maxAttempts log).exec ⟨some c₀, [], []⟩ cs₁)) ↔
    ∀ t ∈ (listener maxAttempts log).trace ⟨some c₀, [], []⟩ cycles,
      ¬ LossyStep maxAttempts log t := by
  have hcursor : ∀ cs, c₀ ≤ ((listener maxAttempts log).exec ⟨some c₀, [], []⟩ cs).cursor := by
    refine Machine.invariant (I := fun s : SyncStore => c₀ ≤ s.cursor) (Nat.le_refl c₀) ?_
    intro c s r s' hs hi
    rw [post_of_listener hi]
    exact Nat.le_trans hs (cursor_le_syncOnce (by omega))
  constructor
  · intro h t ht hloses
    obtain ⟨cs₁, c, cs₂, rfl, rfl⟩ := Machine.mem_trace.1 ht
    have hc := hcursor cs₁
    rw [LossyStep, Machine.step_pre, Machine.step_input] at hloses
    refine hloses.not_noEventLost (by omega) hc ?_
    have hpost := h (cs₁ ++ [c]) cs₂ (by rw [List.append_assoc]; rfl)
    rwa [Machine.exec_concat] at hpost
  · rintro h cs₁ cs₂ rfl
    -- the law holds at the start, where no event is past the cursor and behind it
    refine (Machine.invariant_of
      (I := fun s : SyncStore => c₀ ≤ s.cursor ∧ NoEventLost log c₀ s)
      (C := fun t => t.input.Complete ∧ ¬ LossyStep maxAttempts log t) ?_ ?_ ?_).2
    · refine ⟨Nat.le_refl _, fun e _ _ hlt hle => ?_⟩
      exact absurd hle (Nat.not_le.2 hlt)
    · rintro c s r s' ⟨hs, hno⟩ ⟨hc, hloses⟩ hi
      rw [post_of_listener hi]
      exact ⟨Nat.le_trans hs (cursor_le_syncOnce (by omega)), hno.step hc (by omega) hloses⟩
    · intro t ht
      exact ⟨hcomplete _ (List.mem_append_left _ (Machine.input_mem_of_mem_trace ht)),
        h t (Machine.mem_trace_append ht)⟩

/-- The event of id `id`, in the ledger `ledger`, by which a contract reports the settlement of the
invoice `invoiceId`. -/
def settlementOf (id ledger : Nat) (invoiceId : String) : EventResponse :=
  ⟨id, ⟨ledger, "C_INVOICE", [.string "invoice_settled", .string invoiceId], .null, none⟩⟩

/-- Two settlements in the ledger 101. -/
def tiedLog : EventLog := ⟨[settlementOf 1 101 "7", settlementOf 2 101 "8"], by decide⟩

/-- A cycle that sees everything up to the ledger 105 and settles only the first event it gets. -/
def secondFails : Cycle where
  cursorRead := .ok ()
  latestLedger := .ok 105
  getEvents := .ok ⟨105, none⟩
  settleInvoice i _ := if i = 1 then .error (.database "connection lost") else .ok .settled
  cursorWrite := .ok ()

theorem secondFails_complete : ∀ c ∈ [secondFails], c.Complete := by
  intro c hc page hpage
  rw [List.mem_singleton] at hc
  subst hc
  cases hpage
  rfl

/-- The law of the losing cycles, at the run of one `secondFails` from the cursor 100. -/
theorem no_event_lost_iff_tied :
    (∀ cs₁ cs₂, [secondFails] = cs₁ ++ cs₂ →
      NoEventLost tiedLog 100 ((listener 3 tiedLog).exec ⟨some 100, [], []⟩ cs₁)) ↔
    ∀ t ∈ (listener 3 tiedLog).trace ⟨some 100, [], []⟩ [secondFails],
      ¬ LossyStep 3 tiedLog t :=
  no_event_lost_iff 3 tiedLog (by decide) secondFails_complete

/-- The second settlement of the ledger 101 is lost: its attempts fail behind the first one, the
cursor is stored at 101, and the next cycle asks for the ledger 102. -/
theorem tied_event_lost :
    (∀ c ∈ [secondFails], c.Complete) ∧
    ¬ NoEventLost tiedLog 100 ((listener 3 tiedLog).exec ⟨some 100, [], []⟩ [secondFails]) ∧
    startLedger secondFails
      ((listener 3 tiedLog).exec ⟨some 100, [], []⟩ [secondFails]).cursor = .ok 102 := by
  refine ⟨secondFails_complete, fun h => ?_, rfl⟩
  have hin := h (settlementOf 2 101 "8") (.tail _ (.head _)) (by decide) (by decide) (by decide)
  have hids := List.mem_map_of_mem (f := EventResponse.id) hin
  exact absurd hids (by decide)

/-! ## Pages -/

/-- The cursor is behind every event that no cycle has fetched. -/
def NoEventPassed (log : EventLog) (s : SyncStore) : Prop :=
  ∀ e ∈ log.events, e.ledger ≤ s.cursor → e ∈ s.fetched

/-- The page that a cycle stores its cursor after leaves out no unseen event: no event that no
cycle has fetched, up to the reported tip or, if that is later, to the ledger before the requested
one. -/
def PageKeeps (log : EventLog) (s : SyncStore) (c : Cycle) : Prop :=
  ∀ start events tip, fetchBatch log c s = .ok (start, events, tip) →
    c.cursorWrite.isOk = true →
    ∀ e ∈ log.events, e.ledger ≤ max (start - 1) tip → e ∈ s.fetched ∨ e ∈ events

/-- Every settlement of the cycle succeeds. -/
def Cycle.SettlesAll (maxAttempts : Nat) (c : Cycle) : Prop :=
  ∀ i, Succeeds (c.settleInvoice i) maxAttempts

section
variable {maxAttempts : Nat} {log : EventLog} {c : Cycle} {s : SyncStore} {start tip : Nat}
  {events : List EventResponse}

/-- What a cycle whose settlements succeed does with its batch. -/
theorem syncOnce_of_settlesAll (hall : c.SettlesAll maxAttempts)
    (h : fetchBatch log c s = .ok (start, events, tip)) :
    (syncOnce maxAttempts log c s).2 =
      s.after c events events (max (reach (start - 1) events) tip) := by
  rcases syncOnce_of_batch maxAttempts h with
    ⟨-, hs⟩ | ⟨before, e, after, -, hfail, -⟩
  · exact hs
  · exact absurd (hall before.length) hfail.failed

/-- The cursor such a cycle stores is the reported tip or, if that is later, the ledger before the
requested one. -/
theorem stored_cursor (h : fetchBatch log c s = .ok (start, events, tip)) :
    max (reach (start - 1) events) tip = max (start - 1) tip := by
  have hle := le_reach (start - 1) events
  rcases reach_cases (start - 1) events with hr | ⟨a, ha, hr⟩
  · rw [hr]
  · have := (mem_log_of_batch h ha).2.2
    omega

/-- A cycle whose settlements succeed keeps the cursor behind the unseen events exactly if its page
leaves none out. -/
theorem noEventPassed_step_iff (hall : c.SettlesAll maxAttempts) (hs : NoEventPassed log s) :
    NoEventPassed log (syncOnce maxAttempts log c s).2 ↔ PageKeeps log s c := by
  cases hb : fetchBatch log c s with
  | error err =>
    rw [syncOnce_of_error hb]
    refine ⟨fun _ start events tip h => ?_, fun _ => hs⟩
    rw [hb] at h
    cases h
  | ok b =>
    obtain ⟨start, events, tip⟩ := b
    have hafter := syncOnce_of_settlesAll hall hb
    have hfetched : (syncOnce maxAttempts log c s).2.fetched = s.fetched ++ events := by
      rw [hafter]
      rfl
    have hcursor : (syncOnce maxAttempts log c s).2.cursor =
        if c.cursorWrite.isOk then max (start - 1) tip else s.cursor := by
      rw [hafter, cursor_after, stored_cursor hb]
    constructor
    · intro h start' events' tip' hb' hw e he hle
      rw [hb] at hb'
      cases hb'
      have hin := h e he (by rw [hcursor, if_pos hw]; exact hle)
      rw [hfetched] at hin
      exact List.mem_append.1 hin
    · intro h e he hle
      rw [hcursor] at hle
      rw [hfetched]
      split at hle
      · next hw => exact List.mem_append.2 (h start events tip hb hw e he hle)
      · exact List.mem_append_left _ (hs e he hle)

end

/-- **The cursor stays behind the unseen events exactly as long as no page leaves one out.** In a
run whose settlements all succeed, from a store whose cursor has passed no unseen event, the cursor
never passes one exactly if every cycle that stores its cursor was given a page with every event up
to the reported tip that no earlier cycle has fetched. -/
theorem no_event_passed_iff (maxAttempts : Nat) (log : EventLog) {s₀ : SyncStore}
    (h₀ : NoEventPassed log s₀) {cycles : List Cycle}
    (hall : ∀ c ∈ cycles, c.SettlesAll maxAttempts) :
    (∀ cs₁ cs₂, cycles = cs₁ ++ cs₂ →
      NoEventPassed log ((listener maxAttempts log).exec s₀ cs₁)) ↔
    ∀ t ∈ (listener maxAttempts log).trace s₀ cycles, PageKeeps log t.pre t.input := by
  constructor
  · intro h t ht
    obtain ⟨cs₁, c, cs₂, rfl, rfl⟩ := Machine.mem_trace.1 ht
    rw [Machine.step_pre, Machine.step_input]
    have hpre := h cs₁ (c :: cs₂) rfl
    have hpost := h (cs₁ ++ [c]) cs₂ (by rw [List.append_assoc]; rfl)
    rw [Machine.exec_concat] at hpost
    exact (noEventPassed_step_iff (hall c (List.mem_append_right _ (.head _))) hpre).1 hpost
  · rintro h cs₁ cs₂ rfl
    refine Machine.invariant_of (I := NoEventPassed log)
      (C := fun t => t.input.SettlesAll maxAttempts ∧ PageKeeps log t.pre t.input) h₀ ?_ ?_
    · rintro c s r s' hs ⟨hc, hkeeps⟩ hi
      rw [post_of_listener hi]
      exact (noEventPassed_step_iff hc hs).2 hkeeps
    · intro t ht
      exact ⟨hall _ (List.mem_append_left _ (Machine.input_mem_of_mem_trace ht)),
        h t (Machine.mem_trace_append ht)⟩

/-- Settlements in the ledgers 101 and 102. -/
def twoLedgers : EventLog := ⟨[settlementOf 1 101 "7", settlementOf 2 102 "8"], by decide⟩

/-- A cycle that settles all it gets, from a server of one-event pages that reports the tip 105. -/
def oneEventPage : Cycle where
  cursorRead := .ok ()
  latestLedger := .ok 105
  getEvents := .ok ⟨105, some 0⟩
  settleInvoice _ _ := .ok .settled
  cursorWrite := .ok ()

theorem oneEventPage_settlesAll : ∀ c ∈ [oneEventPage], c.SettlesAll 3 := by
  intro c hc i
  rw [List.mem_singleton] at hc
  subst hc
  exact ⟨1, by decide, by decide, .settled, rfl⟩

/-- At the cursor 100 no event of `twoLedgers` has been passed. -/
theorem twoLedgers_start : NoEventPassed twoLedgers ⟨some 100, [], []⟩ := by
  have hall : ∀ e ∈ twoLedgers.events, ¬ e.ledger ≤ 100 := by decide
  intro e he hle
  exact absurd hle (hall e he)

/-- The law of the pages, at the run of one `oneEventPage`. -/
theorem no_event_passed_iff_paged :
    (∀ cs₁ cs₂, [oneEventPage] = cs₁ ++ cs₂ →
      NoEventPassed twoLedgers ((listener 3 twoLedgers).exec ⟨some 100, [], []⟩ cs₁)) ↔
    ∀ t ∈ (listener 3 twoLedgers).trace ⟨some 100, [], []⟩ [oneEventPage],
      PageKeeps twoLedgers t.pre t.input :=
  no_event_passed_iff 3 twoLedgers twoLedgers_start oneEventPage_settlesAll

/-- After one page of one event the cursor is at the tip 105, past the second event, which no cycle
has fetched. -/
theorem unseen_event_passed :
    NoEventPassed twoLedgers ⟨some 100, [], []⟩ ∧ (∀ c ∈ [oneEventPage], c.SettlesAll 3) ∧
    ¬ NoEventPassed twoLedgers
      ((listener 3 twoLedgers).exec ⟨some 100, [], []⟩ [oneEventPage]) := by
  refine ⟨twoLedgers_start, oneEventPage_settlesAll, fun h => ?_⟩
  have hin := h (settlementOf 2 102 "8") (.tail _ (.head _)) (by decide)
  have hids := List.mem_map_of_mem (f := EventResponse.id) hin
  exact absurd hids (by decide)

end Backend

end InvoiceFi
