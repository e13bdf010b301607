import InvoiceFi.Backend.SettlementSync.Backfill
import Mathlib.Data.Finset.Card
import Mathlib.Data.List.Sort

/-!
# Gap alerts (`settlement/settlement-sync.service.ts`)

`detectGaps` goes through the ledgers of a batch in pairs. What it counts does not depend on the
order of the events or on how many a ledger has: it is the number of blocks of ledgers without an
event between the ledger processed last and the last event (`detectGaps_eq_card`). A cycle raises no
alert if, and only if, every ledger from the one it asks for to that of its last event has an event
(`no_alert_iff`).
-/

namespace InvoiceFi

namespace Backend

section
variable {last : Nat} {events : List EventResponse}

/-- The ledgers of some events. -/
def ledgersOf (events : List EventResponse) : Finset Nat :=
  (events.map EventResponse.ledger).toFinset

/-- The ledgers of the events that come right after a block of ledgers without an event, where the
ledger `last` counts as one with an event. -/
def afterBlock (last : Nat) (events : List EventResponse) : Finset Nat :=
  (ledgersOf events).filter fun l => l - 1 ∉ insert last (ledgersOf events)

theorem mem_ledgersOf {l : Nat} : l ∈ ledgersOf events ↔ ∃ e ∈ events, e.ledger = l := by
  simp [ledgersOf]

/-- Along an increasing list, the pairs that leave a number out are the members whose predecessor is
not in the list. -/
theorem countP_zip_eq {first : Nat} {rest : List Nat}
    (h : (first :: rest).Pairwise fun a b => a < b) :
    (((first :: rest).zip rest).countP fun (prev, curr) => decide (1 < curr - prev)) =
      rest.countP fun l => decide (l - 1 ∉ first :: rest) := by
  induction rest generalizing first with
  | nil => rfl
  | cons second rest ih =>
    obtain ⟨hfirst, hrest⟩ := List.pairwise_cons.1 h
    have hlt : first < second := hfirst second (.head _)
    have hsecond : ∀ l ∈ rest, second < l := (List.pairwise_cons.1 hrest).1
    rw [List.zip_cons_cons, List.countP_cons, List.countP_cons, ih hrest]
    -- the predecessor of a later member is not below the second one
    have htail : (rest.countP fun l => decide (l - 1 ∉ second :: rest)) =
        rest.countP fun l => decide (l - 1 ∉ first :: second :: rest) := by
      refine List.countP_congr fun l hl => ?_
      have hge := hsecond l hl
      have hne : l - 1 ≠ first := by omega
      simp only [decide_eq_true_eq, List.mem_cons, hne, false_or]
    have hhead : (decide (1 < second - first) = true) ↔
        (decide (second - 1 ∉ first :: second :: rest) = true) := by
      have hnot : second - 1 ∉ second :: rest := by
        intro hmem
        rcases List.mem_cons.1 hmem with heq | hmem
        · omega
        · have hge := hsecond _ hmem
          omega
      rw [decide_eq_true_eq, decide_eq_true_eq, List.mem_cons, not_or, and_iff_left hnot]
      omega
    rw [htail]
    exact congrArg _ (if_congr hhead rfl rfl)

/-- The ledgers of the events, in their order. -/
theorem pairwise_ledgers (events : List EventResponse) :
    ((events.map EventResponse.ledger).dedup.mergeSort).Pairwise fun a b => a < b := by
  have hle : ((events.map EventResponse.ledger).dedup.mergeSort).Pairwise fun a b => a ≤ b :=
    List.pairwise_mergeSort' (· ≤ ·) _
  have hnodup : ((events.map EventResponse.ledger).dedup.mergeSort).Nodup :=
    (List.mergeSort_perm _ _).nodup_iff.2 (List.nodup_dedup _)
  exact (hle.and hnodup).imp fun h => Nat.lt_of_le_of_ne h.1 h.2

/-- **The alerts count the blocks of missing ledgers** between the ledger processed last and the
last event. -/
theorem detectGaps_eq_card (hpos : 0 < last) (hafter : ∀ e ∈ events, last < e.ledger) :
    detectGaps last events = (afterBlock last events).card := by
  have hsorted := pairwise_ledgers events
  have hmem : ∀ l, l ∈ (events.map EventResponse.ledger).dedup.mergeSort ↔
      l ∈ ledgersOf events := by
    intro l
    rw [List.mem_mergeSort, List.mem_dedup, ledgersOf, List.mem_toFinset]
  -- the ledger processed last comes before the others
  have hfirst : (last :: (events.map EventResponse.ledger).dedup.mergeSort).Pairwise
      fun a b => a < b := by
    refine List.pairwise_cons.2 ⟨fun l hl => ?_, hsorted⟩
    obtain ⟨e, he, rfl⟩ := mem_ledgersOf.1 ((hmem l).1 hl)
    exact hafter e he
  have hzip : detectGaps last events =
      ((last :: (events.map EventResponse.ledger).dedup.mergeSort).zip
        (events.map EventResponse.ledger).dedup.mergeSort).countP
          fun (prev, curr) => decide (1 < curr - prev) := by
    rw [detectGaps]
    cases (events.map EventResponse.ledger).dedup.mergeSort with
    | nil => rfl
    | cons first rest =>
      dsimp only
      rw [List.zip_cons_cons, List.countP_cons, Nat.add_comm]
      refine congrArg _ (if_congr ?_ rfl rfl)
      rw [decide_eq_true_eq]
      omega
  have hcard : afterBlock last events =
      ((events.map EventResponse.ledger).dedup.mergeSort.filter fun l =>
        decide (l - 1 ∉ last :: (events.map EventResponse.ledger).dedup.mergeSort)).toFinset := by
    ext l
    simp only [afterBlock, Finset.mem_filter, List.mem_toFinset, List.mem_filter, hmem,
      Finset.mem_insert, List.mem_cons, decide_eq_true_eq]
  rw [hzip, countP_zip_eq hfirst, hcard, List.toFinset_card_of_nodup, List.countP_eq_length_filter]
  exact (hsorted.imp fun h => Nat.ne_of_lt h).filter _

/-- There is no block of missing ledgers if, and only if, all ledgers up to the last event have
one. -/
theorem afterBlock_eq_empty_iff (hafter : ∀ e ∈ events, last < e.ledger) :
    afterBlock last events = ∅ ↔
      ∀ l, last < l → l ≤ reach last events → ∃ e ∈ events, e.ledger = l := by
  rw [afterBlock, Finset.filter_eq_empty_iff]
  constructor
  · intro h l hlt hle
    -- from an event down, the ledgers before it have events as well
    have hdown : ∀ n l', l' ∈ ledgersOf events → last + n + 1 ≤ l' → l' - n ∈ ledgersOf events := by
      intro n
      induction n with
      | zero => exact fun l' hl' _ => hl'
      | succ n ih =>
        intro l' hl' hge
        have hprev := not_not.1 (h (ih l' hl' (by omega)))
        rcases Finset.mem_insert.1 hprev with heq | hmem
        · omega
        · rwa [show l' - (n + 1) = l' - n - 1 by omega]
    rcases reach_cases last events with hreach | ⟨e, he, hreach⟩
    · omega
    · have hlast : reach last events ∈ ledgersOf events := mem_ledgersOf.2 ⟨e, he, hreach⟩
      have hl := hdown (reach last events - l) _ hlast (by omega)
      rw [show reach last events - (reach last events - l) = l by omega] at hl
      exact mem_ledgersOf.1 hl
  · intro h l hl
    obtain ⟨e, he, rfl⟩ := mem_ledgersOf.1 hl
    have hlt := hafter e he
    rw [not_not, Finset.mem_insert]
    rcases Nat.lt_or_ge last (e.ledger - 1) with hprev | hprev
    · have hle : e.ledger ≤ reach last events := ledger_le_reach he
      exact .inr (mem_ledgersOf.2 (h _ hprev (by omega)))
    · exact .inl (by omega)

end

/-- **A cycle raises no alert** if, and only if, every ledger from the one after the cursor to that
of its last event has an event; and it raises as many alerts as there are blocks of ledgers without
an event in between. Events of the same ledgers in another order or in another number raise as
many. -/
theorem no_alert_iff (maxAttempts : Nat) {log : EventLog} {c : Cycle} {s : SyncStore}
    (hpos : 0 < s.cursor) {start tip : Nat} {events : List EventResponse}
    (hbatch : fetchBatch log c s = .ok (start, events, tip)) {summary : SyncSummary}
    (hsummary : (syncOnce maxAttempts log c s).1 = .ok summary) :
    summary.gaps = (afterBlock s.cursor events).card ∧
    (summary.gaps = 0 ↔
      ∀ l, s.cursor < l → l ≤ reach s.cursor events → ∃ e ∈ events, e.ledger = l) ∧
    ∀ batch : List EventResponse, ledgersOf batch = ledgersOf events →
      detectGaps s.cursor batch = summary.gaps := by
  have hafter : ∀ e ∈ events, s.cursor < e.ledger := by
    intro e he
    have hstart := start_of_batch hbatch hpos
    have hge := (mem_log_of_batch hbatch he).2.1
    omega
  have hgaps : summary.gaps = detectGaps s.cursor events := by
    rw [syncOnce, hbatch] at hsummary
    dsimp only at hsummary
    cases hw : c.cursorWrite with
    | ok u =>
      simp only [setLastLedger, hw] at hsummary
      cases hsummary
      rfl
    | error e =>
      simp only [setLastLedger, hw] at hsummary
      cases hsummary
  rw [hgaps, detectGaps_eq_card hpos hafter, Finset.card_eq_zero,
    afterBlock_eq_empty_iff hafter]
  refine ⟨rfl, .rfl, fun batch hbatch => ?_⟩
  have hlater : ∀ e ∈ batch, s.cursor < e.ledger := by
    intro e he
    obtain ⟨e', he', heq⟩ := mem_ledgersOf.1 (hbatch ▸ mem_ledgersOf.2 ⟨e, he, rfl⟩)
    rw [← heq]
    exact hafter e' he'
  rw [detectGaps_eq_card hpos hlater, afterBlock, hbatch, afterBlock]

/-- The ledger 100 is missing between the cursor and the two settlements of the ledger 101. -/
theorem no_alert_iff_tied :
    ∃ summary, (syncOnce 3 tiedLog secondFails ⟨some 99, [], []⟩).1 = .ok summary ∧
      summary.gaps ≠ 0 ∧ summary.gaps = (afterBlock 99 tiedLog.events).card := by
  have hbatch : fetchBatch tiedLog secondFails ⟨some 99, [], []⟩ = .ok (100, tiedLog.events, 105) :=
    rfl
  have hiff := no_alert_iff 3 (s := ⟨some 99, [], []⟩) (by decide) hbatch rfl
  refine ⟨_, rfl, fun h => ?_, hiff.1⟩
  obtain ⟨e, he, hledger⟩ := hiff.2.1.1 h 100 (by decide) (by decide)
  have hmem : e.ledger ∈ tiedLog.events.map EventResponse.ledger := List.mem_map_of_mem he
  rw [hledger] at hmem
  exact absurd hmem (by decide)

end Backend

end InvoiceFi
