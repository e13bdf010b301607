import InvoiceFi.Backend.SettlementSync.Cursor

/-!
# Backfills (`settlement/settlement-sync.service.ts`, `settlement/dto/backfill.dto.ts`)

An administrator has the events of a range of ledgers settled again. A backfill goes on after an
event it gives up on, and neither reads nor moves the cursor. No cycle reads what is settled, so a
backfill that overlaps with cycles does what it does when it is run after them; `settlementSync` is
the machine whose steps are the cycles and the backfills.

An event that a cycle has passed over is never looked at by another cycle. `lost_iff` says which
events are lost: those that some cycle passes over, and that no backfill after it settles.
-/

namespace InvoiceFi

namespace Backend

/-! ## The endpoint -/

/-- `BackfillDto`, of a request that passes the validation. -/
structure BackfillDto where
  fromLedger : Nat
  toLedger : Nat
  min : 1 ≤ fromLedger
  max : toLedger ≤ 2147483647
  toLedgerGteFromLedger : fromLedger ≤ toLedger

/-- The answer of `getEvents` during a backfill, and the answer of `settleInvoice` to each attempt
for the event at each position of the range. -/
structure BackfillAnswers where
  getEvents : Except Error Page
  settleInvoice : Nat → Nat → Except Error SettlementResult

/-- The loop of a backfill over the events, with what it has done. -/
def backfillEvents (maxAttempts : Nat) (answer : Nat → Nat → Except Error SettlementResult) :
    List EventResponse → Progress → Progress
  | [], p => p
  | e :: es, p =>
    match parseSettlementEvent e.event with
    | none => backfillEvents maxAttempts (fun i => answer (i + 1)) es p
    | some _ =>
      let p := { p with processed := p.processed + 1 }
      match withRetry (answer 0) maxAttempts with
      | .ok result =>
        backfillEvents maxAttempts (fun i => answer (i + 1)) es
          { p with
            settled := if result = .settled then p.settled + 1 else p.settled
            done := p.done ++ [e] }
      | .error _ => backfillEvents maxAttempts (fun i => answer (i + 1)) es p

/-- The events of the requested range that the RPC returns. -/
def rangeEvents (log : EventLog) (page : Page) (dto : BackfillDto) : List EventResponse :=
  (fetchEvents log page dto.fromLedger).1.filter fun e =>
    decide (dto.fromLedger ≤ e.ledger ∧ e.ledger ≤ dto.toLedger)

/-- `backfill`. -/
def backfill (maxAttempts : Nat) (log : EventLog) (dto : BackfillDto) (a : BackfillAnswers)
    (s : SyncStore) : Except Error SyncSummary × SyncStore :=
  match a.getEvents with
  | .error e => (.error e, s)
  | .ok page =>
    let events := rangeEvents log page dto
    let gaps := detectGaps (dto.fromLedger - 1) events
    let p := backfillEvents maxAttempts a.settleInvoice events ⟨0, 0, 0, []⟩
    (.ok ⟨p.processed, p.settled, gaps⟩, { s with settled := s.settled ++ p.done })

/-- What the service is asked for. -/
inductive SyncCall where
  | poll (c : Cycle)
  | backfill (dto : BackfillDto) (a : BackfillAnswers)

/-- The listener with its administrators. -/
def settlementSync (maxAttempts : Nat) (log : EventLog) :
    Machine SyncStore SyncCall Empty (Except Error SyncSummary) where
  init := ⟨none, [], []⟩
  invoke call s :=
    .ok <| match call with
      | .poll c => syncOnce maxAttempts log c s
      | .backfill dto a => backfill maxAttempts log dto a s

section
variable {maxAttempts : Nat} {log : EventLog} {s : SyncStore} {e : EventResponse}

/-! ## What a backfill settles -/

/-- The loop settles the settlement events whose attempts do not all fail. -/
theorem mem_backfillEvents {answer : Nat → Nat → Except Error SettlementResult}
    {es : List EventResponse} {p : Progress} :
    e ∈ (backfillEvents maxAttempts answer es p).done ↔
      e ∈ p.done ∨ ∃ i, es[i]? = some e ∧ e.Settles ∧ Succeeds (answer i) maxAttempts := by
  induction es generalizing answer p with
  | nil => simp [backfillEvents]
  | cons a es ih =>
    have hsplit : (∃ i, (a :: es)[i]? = some e ∧ e.Settles ∧ Succeeds (answer i) maxAttempts) ↔
        (a = e ∧ e.Settles ∧ Succeeds (answer 0) maxAttempts) ∨
        ∃ i, es[i]? = some e ∧ e.Settles ∧ Succeeds (answer (i + 1)) maxAttempts := by
      constructor
      · rintro ⟨i, hi, h⟩
        cases i with
        | zero => exact .inl ⟨Option.some.inj hi, h⟩
        | succ i => exact .inr ⟨i, hi, h⟩
      · rintro (⟨rfl, h⟩ | ⟨i, hi, h⟩)
        · exact ⟨0, rfl, h⟩
        · exact ⟨i + 1, hi, h⟩
    rw [hsplit, backfillEvents]
    split
    · next hnone =>
      have ha : ¬ a.Settles := by simp [EventResponse.Settles, hnone]
      rw [ih, or_iff_right_of_imp (a := a = e ∧ _)]
      rintro ⟨rfl, h, -⟩
      exact absurd h ha
    · next parsed hsome =>
      have ha : a.Settles := by simp [EventResponse.Settles, hsome]
      dsimp only
      split
      · next result hok =>
        have hsucc : Succeeds (answer 0) maxAttempts := withRetry_eq_ok.1 ⟨_, hok⟩
        rw [ih, List.mem_append, List.mem_singleton, or_assoc]
        refine or_congr_right (or_congr_left ?_)
        constructor
        · rintro rfl
          exact ⟨rfl, ha, hsucc⟩
        · rintro ⟨rfl, -⟩
          rfl
      · next err herr =>
        rw [ih]
        refine or_congr_right (or_iff_right ?_).symm
        rintro ⟨rfl, -, hsucc⟩
        obtain ⟨result, hok⟩ := withRetry_eq_ok.2 hsucc
        rw [herr] at hok
        cases hok

/-- The backfill settles the event: it is one that the RPC returns for the range, and its attempts
do not all fail. -/
def Recovers (maxAttempts : Nat) (log : EventLog) (dto : BackfillDto) (a : BackfillAnswers)
    (e : EventResponse) : Prop :=
  ∃ page, a.getEvents = .ok page ∧ ∃ i, (rangeEvents log page dto)[i]? = some e ∧ e.Settles ∧
    Succeeds (a.settleInvoice i) maxAttempts

/-- A backfill leaves the cursor where it is. -/
theorem cursor_backfill (maxAttempts : Nat) (log : EventLog) (dto : BackfillDto)
    (a : BackfillAnswers) (s : SyncStore) :
    (backfill maxAttempts log dto a s).2.cursor = s.cursor := by
  rw [backfill]
  split <;> rfl

theorem mem_settled_backfill {dto : BackfillDto} {a : BackfillAnswers} :
    e ∈ (backfill maxAttempts log dto a s).2.settled ↔
      e ∈ s.settled ∨ Recovers maxAttempts log dto a e := by
  rw [backfill, Recovers]
  cases a.getEvents with
  | error err => simp
  | ok page => simp [mem_backfillEvents]

/-! ## What is lost -/

/-- The event is lost: it is a settlement after the ledger `c₀` and behind the cursor that has not
been settled. -/
structure Lost (log : EventLog) (c₀ : Nat) (s : SyncStore) (e : EventResponse) : Prop where
  logged : e ∈ log.events
  settles : e.Settles
  after : c₀ < e.ledger
  behind : e.ledger ≤ s.cursor
  unsettled : e ∉ s.settled

/-- The step moves the cursor past the event, which has not been settled by then. -/
def Passes (e : EventResponse)
    (t : Step SyncStore SyncCall Empty (Except Error SyncSummary)) : Prop :=
  t.pre.cursor < e.ledger ∧ e.ledger ≤ t.post.cursor ∧ e ∉ t.post.settled

/-- The step is a backfill that settles the event. -/
def RecoveredBy (maxAttempts : Nat) (log : EventLog) (e : EventResponse) (call : SyncCall) : Prop :=
  ∃ dto a, call = .backfill dto a ∧ Recovers maxAttempts log dto a e

/-- What is settled stays settled. -/
theorem mem_settled_syncOnce (c : Cycle) (h : e ∈ s.settled) :
    e ∈ (syncOnce maxAttempts log c s).2.settled := by
  cases hb : fetchBatch log c s with
  | error err => rwa [syncOnce_of_error hb]
  | ok b =>
    rcases syncOnce_of_batch maxAttempts hb with ⟨-, hs⟩ | ⟨before, e', after, -, -, hs⟩
    · rw [hs]
      exact mem_settled_after.2 (.inl h)
    · rw [hs]
      exact mem_settled_after.2 (.inl h)

/-- A cycle does not look behind its cursor. -/
theorem mem_settled_of_behind {c : Cycle} (hpos : 0 < s.cursor) (hbehind : e.ledger ≤ s.cursor)
    (h : e ∈ (syncOnce maxAttempts log c s).2.settled) : e ∈ s.settled := by
  cases hb : fetchBatch log c s with
  | error err => rwa [syncOnce_of_error hb] at h
  | ok b =>
    obtain ⟨start, events, tip⟩ := b
    have hstart := start_of_batch hb hpos
    have hnot : e ∉ events := fun he => by
      have hge := (mem_log_of_batch hb he).2.1
      omega
    rcases syncOnce_of_batch maxAttempts hb with ⟨-, hs⟩ | ⟨before, e', after, rfl, -, hs⟩
    · rw [hs, mem_settled_after] at h
      exact h.resolve_right fun h => hnot h.1
    · rw [hs, mem_settled_after] at h
      exact h.resolve_right fun h => hnot (List.mem_append_left _ h.1)

/-- The store that a call leaves. -/
def postCall (maxAttempts : Nat) (log : EventLog) (s : SyncStore) : SyncCall → SyncStore
  | .poll c => (syncOnce maxAttempts log c s).2
  | .backfill dto a => (backfill maxAttempts log dto a s).2

theorem settlementSync_post (call : SyncCall) (s : SyncStore) :
    ((settlementSync maxAttempts log).step call s).post = postCall maxAttempts log s call := by
  cases call <;> rfl

/-- The cursor never moves back. -/
theorem cursor_le_postCall (call : SyncCall) (hpos : 0 < s.cursor) :
    s.cursor ≤ (postCall maxAttempts log s call).cursor := by
  cases call with
  | poll c => exact cursor_le_syncOnce hpos
  | backfill dto a => exact Nat.le_of_eq (cursor_backfill maxAttempts log dto a s).symm

/-- What is behind the cursor is settled by backfills only. -/
theorem mem_settled_postCall (call : SyncCall) (hpos : 0 < s.cursor)
    (hbehind : e.ledger ≤ s.cursor) :
    e ∈ (postCall maxAttempts log s call).settled ↔
      e ∈ s.settled ∨ RecoveredBy maxAttempts log e call := by
  cases call with
  | poll c =>
    refine ⟨fun h => .inl (mem_settled_of_behind hpos hbehind h), ?_⟩
    rintro (h | ⟨dto, a, hcall, -⟩)
    · exact mem_settled_syncOnce c h
    · cases hcall
  | backfill dto a =>
    rw [postCall, mem_settled_backfill]
    refine or_congr_right ⟨fun h => ⟨dto, a, rfl, h⟩, ?_⟩
    rintro ⟨dto, a, hcall, h⟩
    cases hcall
    exact h

/-- What a call does to an event: it is lost if it was lost and no backfill settles it, or if the
call passes over it. -/
theorem lost_postCall_iff {c₀ : Nat} (call : SyncCall) (hpos : 0 < s.cursor)
    (hlogged : e ∈ log.events) (hsettles : e.Settles) (hafter : c₀ < e.ledger) :
    Lost log c₀ (postCall maxAttempts log s call) e ↔
      (Lost log c₀ s e ∧ ¬ RecoveredBy maxAttempts log e call) ∨
      Passes e ((settlementSync maxAttempts log).step call s) := by
  rw [Passes, Machine.step_pre, settlementSync_post]
  by_cases hbehind : e.ledger ≤ s.cursor
  · -- the cursor has been behind the event already
    have hmoved : s.cursor ≤ (postCall maxAttempts log s call).cursor :=
      cursor_le_postCall call hpos
    have hsettled : e ∈ (postCall maxAttempts log s call).settled ↔
        e ∈ s.settled ∨ RecoveredBy maxAttempts log e call :=
      mem_settled_postCall call hpos hbehind
    constructor
    · intro h
      have hnot := fun hmem => h.unsettled (hsettled.2 hmem)
      exact .inl ⟨⟨hlogged, hsettles, hafter, hbehind, fun hmem => hnot (.inl hmem)⟩,
        fun hmem => hnot (.inr hmem)⟩
    · rintro (⟨h, hnot⟩ | ⟨hlt, -⟩)
      · exact ⟨hlogged, hsettles, hafter, Nat.le_trans hbehind hmoved,
          fun hmem => (hsettled.1 hmem).elim h.unsettled hnot⟩
      · omega
  · constructor
    · exact fun h => .inr ⟨Nat.not_le.1 hbehind, h.behind, h.unsettled⟩
    · rintro (⟨h, -⟩ | ⟨-, hle, hunsettled⟩)
      · exact absurd h.behind hbehind
      · exact ⟨hlogged, hsettles, hafter, hle, hunsettled⟩

end

/-- **The events that are lost** are those that some cycle passes over and that no backfill after it
settles: no later cycle settles them, and what a backfill settles is never lost again. -/
theorem lost_iff (maxAttempts : Nat) (log : EventLog) {c₀ : Nat} (hc₀ : 0 < c₀)
    (calls : List SyncCall) {e : EventResponse} (hlogged : e ∈ log.events) (hsettles : e.Settles)
    (hafter : c₀ < e.ledger) :
    Lost log c₀ ((settlementSync maxAttempts log).exec ⟨some c₀, [], []⟩ calls) e ↔
      ∃ before call after, calls = before ++ call :: after ∧
        Passes e ((settlementSync maxAttempts log).step call
          ((settlementSync maxAttempts log).exec ⟨some c₀, [], []⟩ before)) ∧
        ∀ call' ∈ after, ¬ RecoveredBy maxAttempts log e call' := by
  have hcursor : ∀ calls,
      c₀ ≤ ((settlementSync maxAttempts log).exec ⟨some c₀, [], []⟩ calls).cursor := by
    intro calls
    induction calls using List.reverseRecOn with
    | nil => exact Nat.le_refl c₀
    | append_singleton calls call ih =>
      rw [Machine.exec_concat, settlementSync_post]
      exact Nat.le_trans ih (cursor_le_postCall call (by omega))
  induction calls using List.reverseRecOn with
  | nil =>
    constructor
    · intro h
      exact absurd h.behind (Nat.not_le.2 hafter)
    · rintro ⟨before, call, after, hcalls, -⟩
      cases before <;> cases hcalls
  | append_singleton calls call ih =>
    have hpos := Nat.lt_of_lt_of_le hc₀ (hcursor calls)
    rw [Machine.exec_concat, settlementSync_post,
      lost_postCall_iff call hpos hlogged hsettles hafter]
    constructor
    · rintro (⟨hlost, hlast⟩ | hpasses)
      · obtain ⟨before, call', after, rfl, hpasses, hnot⟩ := ih.1 hlost
        refine ⟨before, call', after ++ [call], by simp, hpasses, ?_⟩
        intro call'' hmem
        rcases List.mem_append.1 hmem with hmem | hmem
        · exact hnot call'' hmem
        · rwa [List.mem_singleton.1 hmem]
      · exact ⟨calls, call, [], rfl, hpasses, by simp⟩
    · rintro ⟨before, call', after, hcalls, hpasses, hnot⟩
      rcases List.eq_nil_or_concat after with rfl | ⟨after, last, rfl⟩
      · obtain ⟨rfl, hlast⟩ := List.append_inj' hcalls rfl
        cases hlast
        exact .inr hpasses
      · rw [List.concat_eq_append, ← List.cons_append, ← List.append_assoc] at hcalls
        obtain ⟨rfl, hlast⟩ := List.append_inj' hcalls rfl
        cases hlast
        refine .inl ⟨ih.2 ⟨before, call', after, rfl, hpasses, fun call'' hmem => ?_⟩, ?_⟩
        · exact hnot call'' (by simp [hmem])
        · exact hnot call (by simp)

/-- A backfill whose answer is complete and whose settlements succeed restores the law of the
cursor, whatever the cycles before it have lost in its range. -/
theorem noEventLost_of_backfill {maxAttempts : Nat} {log : EventLog} {c₀ : Nat} {s : SyncStore}
    {dto : BackfillDto} {a : BackfillAnswers} {page : Page} (hpage : a.getEvents = .ok page)
    (hcomplete : page.size = none) (htip : dto.toLedger ≤ page.tip)
    (hall : ∀ i, Succeeds (a.settleInvoice i) maxAttempts) (hfrom : dto.fromLedger ≤ c₀ + 1)
    (hto : s.cursor ≤ dto.toLedger) :
    NoEventLost log c₀ (backfill maxAttempts log dto a s).2 := by
  intro e hlogged hsettles hafter hbehind
  rw [cursor_backfill] at hbehind
  have hmem : e ∈ rangeEvents log page dto := by
    rw [rangeEvents, fetchEvents, hcomplete]
    refine List.mem_filter.2 ⟨mem_between.2 ⟨hlogged, by omega, by omega⟩, ?_⟩
    exact decide_eq_true ⟨by omega, by omega⟩
  obtain ⟨i, hi⟩ := List.mem_iff_getElem?.1 hmem
  exact mem_settled_backfill.2 (.inr ⟨page, hpage, i, hi, hsettles, hall i⟩)

/-- A backfill of the ledger 101 that settles what it gets. -/
def backfillTied : SyncCall :=
  .backfill ⟨101, 101, by decide, by decide, by decide⟩ ⟨.ok ⟨105, none⟩, fun _ _ => .ok .settled⟩

/-- The second settlement of the ledger 101 is lost by the cycle, and recovered by the backfill. -/
theorem lost_iff_tied :
    let sync := settlementSync 3 tiedLog
    let e := settlementOf 2 101 "8"
    Lost tiedLog 100 (sync.exec ⟨some 100, [], []⟩ [.poll secondFails]) e ∧
    ¬ Lost tiedLog 100 (sync.exec ⟨some 100, [], []⟩ [.poll secondFails, backfillTied]) e := by
  intro sync e
  have hafter : 100 < e.ledger := by decide
  have hiff := fun calls => lost_iff 3 tiedLog (by decide) calls (.tail _ (.head _))
    (by decide : e.Settles) hafter
  constructor
  · refine (hiff _).2 ⟨[], .poll secondFails, [], rfl, ⟨by decide, by decide, fun hmem => ?_⟩,
      List.forall_mem_nil _⟩
    have hids := List.mem_map_of_mem (f := EventResponse.id) hmem
    exact absurd hids (by decide)
  · intro h
    obtain ⟨before, call, after, hcalls, hpasses, hnot⟩ := (hiff _).1 h
    match before, hcalls with
    | [], hcalls =>
      cases hcalls
      refine hnot backfillTied (.head _) ⟨_, _, rfl, ⟨105, none⟩, rfl, 1, rfl, by decide, ?_⟩
      exact ⟨1, by decide, by decide, .settled, rfl⟩
    | [_], hcalls =>
      cases hcalls
      exact absurd hpasses.1 (by decide)
    | _ :: _ :: before, hcalls =>
      cases before <;> cases hcalls

end Backend

end InvoiceFi
