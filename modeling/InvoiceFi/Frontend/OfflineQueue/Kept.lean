import InvoiceFi.Frontend.OfflineQueue.Stages

/-!
# What the queue keeps, and what a run passes on

An item leaves the object store only when its `onReplay` has resolved, or when a conflict is
resolved for the server (`Kept`). But a run goes by the statuses that it reads: it passes to
`onReplay` the items that it finds queued or failed with attempts to go (`Progress`), and no others.
An item that a closed page has left as `replaying` is kept for ever and never replayed
(`nothing_lost_iff`, `stranded_item`).
-/

namespace InvoiceFi

namespace Frontend

namespace OfflineQueue

variable {τ : Type}

/-! ## What is kept and what is passed on -/

/-- An enqueued item is stored, or its `onReplay` has resolved, or it has been discarded. -/
def Kept (s : Store τ) : Prop :=
  ∀ id ∈ s.order, (∃ row ∈ s.mutations.rows, row.id = id) ∨ id ∈ s.replayed ∨ id ∈ s.discarded

/-- The item has attempts to go and does not wait for a conflict to be resolved. -/
def QueuedMutation.Unfinished (maxAttempts : Nat) (item : QueuedMutation τ) : Prop :=
  item.attempts < maxAttempts ∧ item.status ≠ .conflict

/-- The item waits to be replayed: it is queued or failed, and has attempts to go. -/
def QueuedMutation.Waiting (maxAttempts : Nat) (item : QueuedMutation τ) : Prop :=
  item.pending = true ∧ item.attempts < maxAttempts

/-- The call `k` is a run that has come to its end without an error, and found `items` stored when
it started. -/
def CompletedRun (p : Tabs τ) (k : Nat) (run : Run) (items : List (QueuedMutation τ)) : Prop :=
  (∃ result, p.calls[k]? = some ⟨.replay run, .done (.ok result)⟩) ∧ (k, items) ∈ p.state.entered

/-- The run passes every unfinished one of the items to `onReplay`. -/
def PassesAll (s : Store τ) (k maxAttempts : Nat) (items : List (QueuedMutation τ)) : Prop :=
  ∀ item ∈ items, item.Unfinished maxAttempts → (k, item.id) ∈ s.passed

/-- The run finds every unfinished one of the items waiting when it reads the queue. -/
def FindsAll (s : Store τ) (k maxAttempts : Nat) (items : List (QueuedMutation τ)) : Prop :=
  ∀ item ∈ items, item.Unfinished maxAttempts → ∃ found, (k, found) ∈ s.read ∧
    ∃ item' ∈ found, item'.id = item.id ∧ item'.Waiting maxAttempts

/-! ## Where a run stands -/

/-- The ids of the items that have attempts to go. -/
def idsToGo (maxAttempts : Nat) (items : List (QueuedMutation τ)) : List ItemId :=
  (items.filter fun item => item.attempts < maxAttempts).map fun item => item.id

/-- The items that a run has yet to pass to `onReplay`. -/
def ReplayStage.ahead (maxAttempts : Nat) : ReplayStage τ → List ItemId
  | .taking item rest | .storing item rest | .calling item rest =>
    item.id :: idsToGo maxAttempts rest
  | .awaiting _ rest | .succeeding _ rest | .deleting _ rest | .notifying _ rest
  | .restoring _ _ rest | .reporting _ _ rest => idsToGo maxAttempts rest
  | _ => []

theorem ahead_next (maxAttempts : Nat) (items : List (QueuedMutation τ)) :
    (ReplayStage.next maxAttempts items).ahead maxAttempts = idsToGo maxAttempts items := by
  induction items with
  | nil => rfl
  | cons item rest ih =>
    rw [ReplayStage.next, idsToGo, List.filter_cons]
    by_cases h : maxAttempts ≤ item.attempts
    · rw [if_pos h, if_neg (by simpa using h)]
      exact ih
    · rw [if_neg h, if_pos (by simpa using h)]
      rfl

/-- The run has read the queue, and what it has found waiting is what it has passed to `onReplay`
and what is ahead. -/
def Progress (k maxAttempts : Nat) (s : Store τ) (ahead : List ItemId) : Prop :=
  ∃ found, (∀ items, (k, items) ∈ s.read ↔ items = found) ∧ ∀ id,
    (∃ item ∈ found, item.id = id ∧ item.Waiting maxAttempts) ↔ (k, id) ∈ s.passed ∨ id ∈ ahead

/-- What is known of a run at a stage. -/
def RunAt (k maxAttempts : Nat) (s : Store τ) : ReplayStage τ → Prop
  | .entering => (∀ items, (k, items) ∉ s.entered) ∧ (∀ items, (k, items) ∉ s.read) ∧
      ∀ id, (k, id) ∉ s.passed
  | .reading => (∀ items, (k, items) ∉ s.read) ∧ ∀ id, (k, id) ∉ s.passed
  | .deleting item rest =>
    item.id ∈ s.replayed ∧ Progress k maxAttempts s (idsToGo maxAttempts rest)
  | .leaving (some _) => True
  | stage => Progress k maxAttempts s (stage.ahead maxAttempts)

/-- What is known of a call at a stage. -/
def KeptAt (k : Nat) (call : QueueCall τ) (stage : Stage τ) (s : Store τ) : Prop :=
  match stage with
  | .replaying run st => RunAt k run.maxAttempts s st
  | .ended (.ok _) => ∀ run, call = .replay run →
      (∀ items, (k, items) ∉ s.entered) ∨ Progress k run.maxAttempts s []
  | _ => True

/-! ## Steps -/

variable {k : Nat} {c : Choice} {s s' : Store τ} {maxAttempts : Nat} {call : QueueCall τ}
  {stage stage' : Stage τ}

theorem mem_idsToGo {items : List (QueuedMutation τ)} {id : ItemId} :
    id ∈ idsToGo maxAttempts items ↔
      ∃ item ∈ items, item.id = id ∧ item.attempts < maxAttempts := by
  simp only [idsToGo, List.mem_map, List.mem_filter, decide_eq_true_eq]
  constructor
  · rintro ⟨item, ⟨hmem, hlt⟩, hid⟩
    exact ⟨item, hmem, hid, hlt⟩
  · rintro ⟨item, hmem, hid, hlt⟩
    exact ⟨item, ⟨hmem, hlt⟩, hid⟩

/-- The progress of a run stays while others go on. -/
theorem Progress.stable {ahead : List ItemId} (h : Progress k maxAttempts s ahead)
    (ho : Others k s s') : Progress k maxAttempts s' ahead := by
  obtain ⟨found, hread, hpassed⟩ := h
  refine ⟨found, fun items => (ho.read items).trans (hread items), fun id => ?_⟩
  rw [ho.passed]
  exact hpassed id

/-- What is known of a call stays while others go on. -/
theorem KeptAt.stable (h : KeptAt k call stage s) (ho : Others k s s')
    (hreplayed : ∀ id ∈ s.replayed, id ∈ s'.replayed) : KeptAt k call stage s' := by
  cases stage with
  | ended result =>
    cases result with
    | error message => trivial
    | ok item =>
      intro run hrun
      rcases h run hrun with hnever | hprogress
      · exact .inl fun items hmem => hnever items ((ho.entered items).1 hmem)
      · exact .inr (hprogress.stable ho)
  | replaying run st =>
    cases st with
    | entering =>
      exact ⟨fun items hmem => h.1 items ((ho.entered items).1 hmem),
        fun items hmem => h.2.1 items ((ho.read items).1 hmem),
        fun id hmem => h.2.2 id ((ho.passed id).1 hmem)⟩
    | reading =>
      exact ⟨fun items hmem => h.1 items ((ho.read items).1 hmem),
        fun id hmem => h.2 id ((ho.passed id).1 hmem)⟩
    | deleting item rest => exact ⟨hreplayed _ h.1, h.2.stable ho⟩
    | leaving thrown =>
      cases thrown with
      | none => exact Progress.stable h ho
      | some message => trivial
    | taking | storing | calling | awaiting | succeeding | notifying | restoring | reporting =>
      exact Progress.stable h ho
  | naming | drawing | dating | adding | discarding | fetching | requeueing => trivial

/-- A run that goes on with its loop has the items ahead that have attempts to go. -/
theorem runAt_next {items : List (QueuedMutation τ)}
    (h : Progress k maxAttempts s (idsToGo maxAttempts items)) :
    RunAt k maxAttempts s (.next maxAttempts items) := by
  rw [← ahead_next] at h
  generalize hst : ReplayStage.next maxAttempts items = st at *
  induction items with
  | nil =>
    cases hst
    exact h
  | cons item rest ih =>
    rw [ReplayStage.next] at hst
    split at hst
    · exact ih hst
    · cases hst
      exact h

/-- The progress of a run that has read the queue. -/
theorem progress_read (hread : ∀ items, (k, items) ∉ s.read) (hpassed : ∀ id, (k, id) ∉ s.passed) :
    Progress k maxAttempts { s with read := (k, s.queuedItems) :: s.read }
      (idsToGo maxAttempts (s.queuedItems.filter QueuedMutation.pending)) := by
  refine ⟨s.queuedItems, fun items => ?_, fun id => ?_⟩
  · constructor
    · intro hmem
      rcases List.mem_cons.1 hmem with heq | hmem
      · exact (Prod.mk.inj heq).2
      · exact absurd hmem (hread items)
    · rintro rfl
      exact List.mem_cons_self
  · rw [mem_idsToGo]
    constructor
    · rintro ⟨item, hmem, hid, hpending, hlt⟩
      exact .inr ⟨item, List.mem_filter.2 ⟨hmem, hpending⟩, hid, hlt⟩
    · rintro (hmem | ⟨item, hmem, hid, hlt⟩)
      · exact absurd hmem (hpassed id)
      · obtain ⟨hmem, hpending⟩ := List.mem_filter.1 hmem
        exact ⟨item, hmem, hid, hpending, hlt⟩

/-- The progress of a run that has passed an item on. -/
theorem progress_call {item : QueuedMutation τ} {ahead : List ItemId}
    (h : Progress k maxAttempts s (item.id :: ahead)) :
    Progress k maxAttempts { s with passed := (k, item.id) :: s.passed } ahead := by
  obtain ⟨found, hread, hpassed⟩ := h
  refine ⟨found, hread, fun id => (hpassed id).trans ?_⟩
  simp only [List.mem_cons, Prod.mk.injEq, true_and]
  tauto

/-- A step of a call establishes what is known of it at its next stage. -/
theorem KeptAt.step (h : KeptAt k call stage s) (hmoves : Moves k c s stage stage' s')
    (hof : stage.Of call) : KeptAt k call stage' s' := by
  cases hmoves with
  | name | draw | date | discardThrows | fetch | requeueThrows | addThrows => trivial
  | add item hfresh hok =>
    obtain ⟨label, payload, rfl⟩ := hof
    intro run hrun
    cases hrun
  | discard id =>
    obtain ⟨id', resolution, rfl⟩ := hof
    intro run hrun
    cases hrun
  | fetchEnds id payload result =>
    obtain ⟨id', resolution, rfl⟩ := hof
    cases result with
    | error message => trivial
    | ok item =>
      intro run hrun
      cases hrun
  | requeue item hok =>
    obtain ⟨id', resolution, rfl⟩ := hof
    intro run hrun
    cases hrun
  | busy hbusy => exact fun _ _ => .inl h.1
  | enter hfree => exact h.2
  | read run hok => exact runAt_next (progress_read h.1 h.2)
  | readThrows | storeThrows | restoreThrows | reportThrows => trivial
  | take | store | resolve | reject | succeedThrows | restore => exact h
  | call run item rest => exact progress_call h
  | succeed run item rest hok => exact ⟨List.mem_cons_self, h⟩
  | delete | deleteThrows => exact h.2
  | notify | notifyThrows | report => first | exact runAt_next h | exact h
  | leave run thrown result hresult =>
    cases result with
    | error message => trivial
    | ok item =>
      intro run' hrun'
      cases hof
      cases hrun'
      cases hresult item rfl
      exact .inr h

/-- No step of a call at a stage loses an item. -/
theorem Kept.step (hkept : Kept s) (h : KeptAt k call stage s)
    (hmoves : Moves k c s stage stage' s') : Kept s' := by
  have hput : ∀ (item : QueuedMutation τ) id, (∃ row ∈ s.mutations.rows, row.id = id) →
      ∃ row ∈ (s.put k item).mutations.rows, row.id = id := by
    rintro item id ⟨row, hrow, rfl⟩
    by_cases hid : row.id = item.id
    · exact ⟨_, ObjectStore.mem_put.2 (.inl rfl), hid.symm⟩
    · exact ⟨row, ObjectStore.mem_put.2 (.inr ⟨hrow, hid⟩), rfl⟩
  have hkeptPut : ∀ item : QueuedMutation τ, Kept (s.put k item) := by
    intro item id hid
    rcases hkept id hid with hrow | hrest
    · exact .inl (hput item id hrow)
    · exact .inr hrest
  cases hmoves with
  | requeue item hok => exact hkeptPut item
  | store run item rest hok => exact hkeptPut item
  | restore run item message rest hok => exact hkeptPut _
  | add item hfresh hok =>
    intro id hid
    rcases List.mem_append.1 hid with hid | hid
    · exact hkeptPut item id hid
    · rw [List.mem_singleton.1 hid]
      exact .inl ⟨_, ObjectStore.mem_put.2 (.inl rfl), rfl⟩
  | discard id =>
    intro id' hid'
    rcases hkept id' hid' with ⟨row, hrow, hrowid⟩ | hreplayed | hdiscarded
    · by_cases hid : id' = id
      · exact .inr (.inr (hid ▸ List.mem_cons_self))
      · exact .inl ⟨row, ObjectStore.mem_delete.2 ⟨hrow, hrowid ▸ hid⟩, hrowid⟩
    · exact .inr (.inl hreplayed)
    · exact .inr (.inr (List.mem_cons_of_mem _ hdiscarded))
  | delete run item rest hok =>
    intro id hid
    rcases hkept id hid with ⟨row, hrow, hrowid⟩ | hrest
    · by_cases hne : id = item.id
      · exact .inr (.inl (hne ▸ h.1))
      · exact .inl ⟨row, ObjectStore.mem_delete.2 ⟨hrow, hrowid ▸ hne⟩, hrowid⟩
    · exact .inr hrest
  | succeed run item rest hok =>
    intro id hid
    rcases hkept id hid with hrow | hreplayed | hdiscarded
    · exact .inl hrow
    · exact .inr (.inl (List.mem_cons_of_mem _ hreplayed))
    · exact .inr (.inr hdiscarded)
  | _ => exact hkept

/-! ## Runs -/

/-- What is kept and what is passed on, as an argument by stages. -/
def keptOutline : StageOutline (τ := τ) fun p _ =>
    (Numbered p ∧ FreshItems p) ∧ True where
  Inv := Kept
  At := KeptAt
  start {p call} hok _ := by
    have hnew : ∀ {α : Type} (l : List (Nat × α)), (∀ x ∈ l, x.1 < p.calls.length) →
        ∀ a, (p.calls.length, a) ∉ l := fun l hl a hmem => absurd (hl _ hmem) (Nat.lt_irrefl _)
    cases call with
    | enqueue label payload => trivial
    | replay run =>
      exact ⟨hnew _ hok.1.1.entered, hnew _ hok.1.1.read, hnew _ hok.1.1.passed⟩
    | resolve id resolution => cases resolution <;> trivial
  step _ _ hmoves hof hkept hat := ⟨hkept.step hat hmoves, hat.step hmoves hof⟩
  stable _ _ _ hmoves _ _ _ hj hat := hat.stable (hmoves.others hj) hmoves.grows.replayed

/-- **An item leaves the queue only when it has been replayed or discarded, and a run that comes to
its end passes on what it has found waiting.** In every run of the queue, with any number of hooks
and pages that are closed at any point: an enqueued item is stored, or its `onReplay` has resolved,
or a conflict has been resolved for the server; and a completed run passes every item to `onReplay`
that was unfinished when it started, if and only if it finds every one of them queued or failed,
with attempts to go, when it reads the queue. -/
theorem nothing_lost_iff (ms : List (QueueMove τ)) :
    Kept ((queue τ).exec (queue τ).init ms).state ∧
      ∀ k run items, CompletedRun ((queue τ).exec (queue τ).init ms) k run items →
        (PassesAll ((queue τ).exec (queue τ).init ms).state k run.maxAttempts items ↔
          FindsAll ((queue τ).exec (queue τ).init ms).state k run.maxAttempts items) := by
  have h0 : Kept (Store.empty : Store τ) := nofun
  obtain ⟨hkept, hat⟩ := keptOutline.exec_numbered (C := fun _ _ => True) h0 fun t ht => trivial
  refine ⟨hkept, ?_⟩
  rintro k run items ⟨⟨result, hcall⟩, hentered⟩
  obtain ⟨stage, htask, -, hstage⟩ := hat k _ hcall
  cases eq_ended htask
  rcases hstage run rfl with hnever | ⟨found, hread, hpassed⟩
  · exact absurd hentered (hnever items)
  · simp only [List.not_mem_nil, or_false] at hpassed
    constructor
    · intro hpasses item hitem hunfinished
      obtain ⟨item', hitem', hid, hwaiting⟩ := (hpassed item.id).2 (hpasses item hitem hunfinished)
      exact ⟨found, (hread found).2 rfl, item', hitem', hid, hwaiting⟩
    · intro hfinds item hitem hunfinished
      obtain ⟨found', hfound, item', hitem', hid, hwaiting⟩ := hfinds item hitem hunfinished
      rw [(hread found').1 hfound] at hitem'
      exact (hpassed item.id).1 ⟨item', hitem', hid, hwaiting⟩

/-- A step in which nothing is thrown. -/
def calm (clock : Nat) : Choice := ⟨none, clock, 0⟩

/-- The moves of a call that enqueues a mutation. -/
def enqueues (k clock : Nat) : List (QueueMove String) :=
  .start (.enqueue "fund invoice" "42") :: List.replicate 4 (.resume k (calm clock))

/-- The first moves of a run. -/
def replays (k hook steps clock : Nat) : List (QueueMove String) :=
  .start (.replay ⟨hook, 3⟩) :: List.replicate steps (.resume k (calm clock))

/-- The item that `enqueues` stores. -/
def storedItem (k clock : Nat) : QueuedMutation String :=
  enqueued "fund invoice" "42" ⟨clock, 0, k⟩ clock

/-- A mutation that is replayed. -/
theorem nothing_lost_iff_replayed :
    PassesAll ((queue String).exec (queue String).init (enqueues 0 1 ++ replays 1 0 10 2)).state 1 3
      [storedItem 0 1] := by
  refine ((nothing_lost_iff (enqueues 0 1 ++ replays 1 0 10 2)).2 1 ⟨0, 3⟩ [storedItem 0 1]
    ⟨⟨none, rfl⟩, List.mem_cons_self⟩).2 ?_
  intro item hitem _
  cases List.mem_singleton.1 hitem
  exact ⟨[storedItem 0 1], List.mem_cons_self, storedItem 0 1, List.mem_cons_self, rfl, rfl,
    by decide⟩

/-- The page is closed while its server call is in flight. The page that is opened next replays the
queue and passes nothing on, though the item has two attempts to go. -/
theorem stranded_item :
    let p := (queue String).exec (queue String).init
      (enqueues 0 1 ++ replays 1 0 5 2 ++ replays 2 1 3 3)
    CompletedRun p 2 ⟨1, 3⟩ [(storedItem 0 1).replaying 2] ∧
      ¬ PassesAll p.state 2 3 [(storedItem 0 1).replaying 2] := by
  intro p
  refine ⟨⟨⟨none, rfl⟩, List.mem_cons_self⟩, fun h => ?_⟩
  have hpassed := h _ List.mem_cons_self ⟨by decide, by decide⟩
  have hnone : ∀ x ∈ p.state.passed, x.1 ≠ 2 := by decide +kernel
  exact hnone _ hpassed rfl

end OfflineQueue

end Frontend

end InvoiceFi
