import InvoiceFi.Frontend.OfflineQueue.Kept

/-!
# The order in which mutations take effect

A run replays the items it has found waiting in the order in which it has read them. So an item
takes effect before an item that was enqueued earlier and still waits only if the two were read in
another order than they were enqueued in, or if the earlier one was put back to wait while the later
one was ahead of a run. `KeepsOrder` excludes the two, and in the runs whose moves all keep it,
mutations take effect in the order in which they were enqueued (`fifo`). The other runs begin with
two mutations that are enqueued in the same millisecond, or with a replay that fails
(`not_fifo`).
-/

namespace InvoiceFi

namespace Frontend

namespace OfflineQueue

variable {τ : Type}

/-! ## Order -/

/-- The item `a` has been enqueued before the item `b`. -/
def Before (order : List ItemId) (a b : ItemId) : Prop :=
  b ∈ order ∧ order.idxOf a < order.idxOf b

instance (order : List ItemId) (a b : ItemId) : Decidable (Before order a b) :=
  inferInstanceAs (Decidable (_ ∧ _))

/-- `maxAttempts` of a run. -/
def QueueCall.maxAttempts : QueueCall τ → Nat
  | .replay run => run.maxAttempts
  | _ => 0

/-- An answer that a program goes on with. -/
def Act.answer : (a : Act τ) → a.Answer
  | .now => 0
  | .random => (0, 0)
  | .getAll => []
  | .get _ => none
  | .enter _ => true
  | .add _ | .put _ | .delete _ | .discard _ | .leave _ | .callServer _ | .awaitServer _
  | .onSuccess _ | .onReplaySuccess _ | .onReplayError .. | .onConflict .. => ()

/-- The items whose `onReplay` a program is going to have resolved, if nothing throws. -/
def toResolve {α : Type} : Task τ α → List ItemId
  | .done _ => []
  | .await a f =>
    (match a with
      | .onSuccess item => [item.id]
      | _ => []) ++ toResolve (f (.ok a.answer))

/-- The action of a call keeps the order: a run reads the items that wait in the order in which they
were enqueued, and no item is put back to wait for a run that has a later one to resolve. -/
def ActKeepsOrder (p : Tabs τ) (call : QueueCall τ) : Act τ → Prop
  | .getAll =>
    (idsToGo call.maxAttempts (p.state.queuedItems.filter QueuedMutation.pending)).Pairwise
      (Before p.state.order)
  | .put item => item.pending = true → ∀ other ∈ p.calls,
    item.attempts < other.input.maxAttempts → ∀ id ∈ toResolve other.rest,
      ¬ Before p.state.order item.id id
  | _ => True

instance (p : Tabs τ) (call : QueueCall τ) : (a : Act τ) → Decidable (ActKeepsOrder p call a)
  | .getAll => inferInstanceAs (Decidable (List.Pairwise _ _))
  | .put _ => inferInstanceAs (Decidable (_ → ∀ other ∈ p.calls, _))
  | .now | .random | .add _ | .get _ | .delete _ | .discard _ | .enter _ | .leave _
  | .callServer _ | .awaitServer _ | .onSuccess _ | .onReplaySuccess _ | .onReplayError ..
  | .onConflict .. => inferInstanceAs (Decidable True)

/-- The move keeps the order. -/
def KeepsOrder (p : Tabs τ) : QueueMove τ → Prop
  | .resume k c => ∀ call ∈ p.calls[k]?, c.thrown = none → ∀ a ∈ nextAct call.rest,
    ActKeepsOrder p call.input a
  | _ => True

instance (p : Tabs τ) : (m : QueueMove τ) → Decidable (KeepsOrder p m)
  | .resume k _ => inferInstanceAs (Decidable (∀ call ∈ p.calls[k]?, _))
  | .start _ | .environ _ => inferInstanceAs (Decidable True)

/-- If the move has the `onReplay` of an item resolve, no item that was enqueued earlier waits to be
replayed. -/
def ResolvesInOrder (p : Tabs τ) (m : QueueMove τ) : Prop :=
  ∀ k c call item, m = .resume k c → p.calls[k]? = some call →
    nextAct call.rest = some (.onSuccess item) → c.thrown = none →
    ∀ row ∈ p.state.mutations.rows, row.Waiting call.input.maxAttempts →
      ¬ Before p.state.order row.id item.id

theorem Before.asymm {order : List ItemId} {a b : ItemId} (h : Before order a b) :
    ¬ Before order b a := fun h' => Nat.lt_asymm h.2 h'.2

/-- What was enqueued before stays before. -/
theorem before_append {order : List ItemId} {a b : ItemId} (ids : List ItemId) (ha : a ∈ order)
    (hb : b ∈ order) : Before (order ++ ids) a b ↔ Before order a b := by
  unfold Before
  rw [List.idxOf_append_of_mem ha, List.idxOf_append_of_mem hb, List.mem_append]
  exact ⟨fun h => ⟨hb, h.2⟩, fun h => ⟨.inl hb, h.2⟩⟩

/-- What is enqueued now is after what was enqueued before. -/
theorem not_before_of_new {order : List ItemId} {a b : ItemId} (ha : a ∉ order) (hb : b ∈ order) :
    ¬ Before (order ++ [a]) a b := by
  rintro ⟨-, hlt⟩
  rw [List.idxOf_append_of_mem hb, List.idxOf_append_of_notMem ha] at hlt
  have := List.idxOf_lt_length_iff.2 hb
  omega

/-! ## Where a run stands -/

/-- The items that a run has yet to have resolved. -/
def ReplayStage.left (maxAttempts : Nat) : ReplayStage τ → List ItemId
  | .taking item rest | .storing item rest | .calling item rest | .awaiting item rest
  | .succeeding item rest => item.id :: idsToGo maxAttempts rest
  | .deleting _ rest | .notifying _ rest | .restoring _ _ rest | .reporting _ _ rest =>
    idsToGo maxAttempts rest
  | _ => []

/-- The items that a run has yet to take. -/
def ReplayStage.untaken (maxAttempts : Nat) : ReplayStage τ → List ItemId
  | .taking item rest | .storing item rest => item.id :: idsToGo maxAttempts rest
  | .calling _ rest | .awaiting _ rest | .succeeding _ rest | .deleting _ rest | .notifying _ rest
  | .restoring _ _ rest | .reporting _ _ rest => idsToGo maxAttempts rest
  | _ => []

/-- The items that a run has in its hands. -/
def ReplayStage.held (maxAttempts : Nat) : ReplayStage τ → List ItemId
  | .taking item rest | .storing item rest | .calling item rest | .awaiting item rest
  | .succeeding item rest | .deleting item rest | .notifying item rest | .restoring item _ rest
  | .reporting item _ rest => item.id :: idsToGo maxAttempts rest
  | _ => []

variable {k : Nat} {c : Choice} {s s' : Store τ} {maxAttempts : Nat} {run : Run}
  {st : ReplayStage τ}

theorem left_next (maxAttempts : Nat) (items : List (QueuedMutation τ)) :
    (ReplayStage.next maxAttempts items).left maxAttempts = idsToGo maxAttempts items := by
  induction items with
  | nil => rfl
  | cons item rest ih =>
    rw [ReplayStage.next, idsToGo, List.filter_cons]
    by_cases h : maxAttempts ≤ item.attempts
    · rw [if_pos h, if_neg (by simpa using h)]
      exact ih
    · rw [if_neg h, if_pos (by simpa using h)]
      rfl

/-- A run that goes on with its loop has taken none of the items that it has to go. -/
theorem next_untaken (maxAttempts : Nat) (items : List (QueuedMutation τ)) :
    (ReplayStage.next maxAttempts items).untaken maxAttempts =
        (ReplayStage.next maxAttempts items).left maxAttempts ∧
      (ReplayStage.next maxAttempts items).held maxAttempts =
        (ReplayStage.next maxAttempts items).left maxAttempts := by
  rcases ReplayStage.next_cases maxAttempts items with h | ⟨item, rest, h⟩ <;> rw [h]
  · exact ⟨rfl, rfl⟩
  · exact ⟨rfl, rfl⟩

theorem next_ne_storing (maxAttempts : Nat) (items : List (QueuedMutation τ))
    {item : QueuedMutation τ} {rest : List (QueuedMutation τ)} :
    ReplayStage.next maxAttempts items ≠ .storing item rest := by
  rcases ReplayStage.next_cases maxAttempts items with h | ⟨item', rest', h⟩
  · exact fun heq => by cases h.symm.trans heq
  · exact fun heq => by cases h.symm.trans heq

/-- A run is going to have those items resolved that it has yet to have resolved. -/
theorem toResolve_next (run : Run) (items : List (QueuedMutation τ)) :
    toResolve (finallyLeave run.hook (replayItems run.maxAttempts items)) =
      idsToGo run.maxAttempts items := by
  induction items with
  | nil => rfl
  | cons item rest ih =>
    rw [finallyLeave_replayItems, ReplayStage.next, idsToGo, List.filter_cons]
    by_cases h : run.maxAttempts ≤ item.attempts
    · rw [if_pos h, if_neg (by simpa using h), ← finallyLeave_replayItems]
      exact ih
    · rw [if_neg h, if_pos (by simpa using h)]
      exact congrArg (item.id :: ·) ih

/-- The callback that is told of an error does not count. -/
theorem toResolve_notify (run : Run) (item : QueuedMutation τ) (message : String)
    (rest : List (QueuedMutation τ)) :
    toResolve (finallyLeave run.hook do
      notify (errorCallback run.maxAttempts item message)
      replayItems run.maxAttempts rest) = idsToGo run.maxAttempts rest := by
  rw [← toResolve_next]
  rcases errorCallback_cases run.maxAttempts item message with ⟨item', serverJson, h⟩ | ⟨item', h⟩
  · rw [h]
    rfl
  · rw [h]
    rfl

theorem toResolve_task (run : Run) (st : ReplayStage τ) :
    toResolve (st.task run) = st.left run.maxAttempts := by
  cases st with
  | entering => rfl
  | reading => rfl
  | taking item rest | storing item rest | calling item rest | awaiting item rest
  | succeeding item rest => exact congrArg (item.id :: ·) (toResolve_next run rest)
  | deleting item rest | notifying item rest => exact toResolve_next run rest
  | restoring item message rest | reporting item message rest =>
    exact toResolve_notify run item message rest
  | leaving thrown => cases thrown <;> rfl

theorem left_sublist_held (maxAttempts : Nat) (st : ReplayStage τ) :
    (st.left maxAttempts).Sublist (st.held maxAttempts) := by
  cases st with
  | deleting | notifying | restoring | reporting => exact List.sublist_cons_self _ _
  | _ => exact .refl _

/-- A run has the items that are left in the order in which they were enqueued, and an item that
waits and was enqueued before one of them is yet to be taken. -/
structure RunOrder (maxAttempts : Nat) (s : Store τ) (st : ReplayStage τ) : Prop where
  enqueued : ∀ id ∈ st.held maxAttempts, id ∈ s.order
  sorted : (st.left maxAttempts).Pairwise (Before s.order)
  earlier : ∀ row ∈ s.mutations.rows, row.Waiting maxAttempts → ∀ id ∈ st.left maxAttempts,
    Before s.order row.id id → row.id ∈ st.untaken maxAttempts
  marked : ∀ item rest, st = .storing item rest → item.pending = false

/-- What is known of a call at a stage. -/
def OrderAt (call : QueueCall τ) (stage : Stage τ) (s : Store τ) : Prop :=
  match stage with
  | .replaying run st => call = .replay run ∧ RunOrder run.maxAttempts s st
  | .requeueing item => item.id ∈ s.order
  | _ => True

/-- The stored items have been enqueued. -/
def StoredInOrder (s : Store τ) : Prop := ∀ row ∈ s.mutations.rows, row.id ∈ s.order

/-! ## Steps -/

variable {s s' : Store τ} {st st' : ReplayStage τ} {item : QueuedMutation τ}
  {call : QueueCall τ} {stage stage' : Stage τ}

/-- A run that has less left of the same knows as much, also when fewer items are stored. -/
theorem RunOrder.mono (h : RunOrder maxAttempts s st)
    (hheld : ∀ id ∈ st'.held maxAttempts, id ∈ st.held maxAttempts)
    (hleft : (st'.left maxAttempts).Sublist (st.left maxAttempts))
    (huntaken : ∀ id ∈ st.untaken maxAttempts, id ∈ st'.untaken maxAttempts)
    (hmarked : ∀ item rest, st' = .storing item rest → item.pending = false)
    (horder : s'.order = s.order) (hrows : ∀ row ∈ s'.mutations.rows, row ∈ s.mutations.rows) :
    RunOrder maxAttempts s' st' where
  enqueued id hid := by
    rw [horder]
    exact h.enqueued id (hheld id hid)
  sorted := by
    rw [horder]
    exact h.sorted.sublist hleft
  earlier row hrow hwaiting id hid hbefore := by
    rw [horder] at hbefore
    exact huntaken _ (h.earlier row (hrows row hrow) hwaiting id (hleft.subset hid) hbefore)
  marked := hmarked

/-- Putting an item keeps the order of a run, unless the item waits before one that is left. -/
theorem RunOrder.put (h : RunOrder maxAttempts s st)
    (hitem : item.Waiting maxAttempts → ∀ id ∈ st.left maxAttempts, ¬ Before s.order item.id id) :
    RunOrder maxAttempts (s.put k item) st where
  enqueued := h.enqueued
  sorted := h.sorted
  earlier row hrow hwaiting id hid hbefore := by
    rcases ObjectStore.mem_put.1 hrow with rfl | ⟨hrow, -⟩
    · exact absurd hbefore (hitem hwaiting id hid)
    · exact h.earlier row hrow hwaiting id hid hbefore
  marked := h.marked

/-- Adding an item keeps the order of a run. -/
theorem RunOrder.add (h : RunOrder maxAttempts s st) (hinv : StoredInOrder s)
    (hnew : item.id ∉ s.order) :
    RunOrder maxAttempts { s.put k item with order := s.order ++ [item.id] } st := by
  have hmem : ∀ id ∈ st.left maxAttempts, id ∈ s.order :=
    fun id hid => h.enqueued id ((left_sublist_held maxAttempts st).subset hid)
  refine ⟨fun id hid => List.mem_append_left _ (h.enqueued id hid), ?_, ?_, h.marked⟩
  · exact h.sorted.imp_of_mem fun ha hb hab => (before_append _ (hmem _ ha) (hmem _ hb)).2 hab
  · intro row hrow hwaiting id hid hbefore
    rcases ObjectStore.mem_put.1 hrow with rfl | ⟨hrow, -⟩
    · exact absurd hbefore (not_before_of_new hnew (hmem id hid))
    · exact h.earlier row hrow hwaiting id hid
        ((before_append _ (hinv row hrow) (hmem id hid)).1 hbefore)

/-- A run that goes on with its loop. -/
theorem RunOrder.next {rest : List (QueuedMutation τ)} (h : RunOrder maxAttempts s st)
    (item : QueuedMutation τ)
    (hheld : st.held maxAttempts = item.id :: idsToGo maxAttempts rest)
    (hleft : st.left maxAttempts = idsToGo maxAttempts rest)
    (huntaken : st.untaken maxAttempts = idsToGo maxAttempts rest) :
    RunOrder maxAttempts s (.next maxAttempts rest) := by
  obtain ⟨huntaken', hheld'⟩ := next_untaken maxAttempts rest
  rw [left_next] at huntaken' hheld'
  refine h.mono ?_ ?_ ?_ (fun _ _ heq => absurd heq (next_ne_storing _ _)) rfl fun _ h => h
  · rw [hheld, hheld']
    exact fun id hid => List.mem_cons_of_mem _ hid
  · rw [left_next, hleft]
  · rw [huntaken, huntaken']
    exact fun _ h => h

/-- A run that has nothing in its hands. -/
theorem RunOrder.of_nil (hheld : st.held maxAttempts = []) : RunOrder maxAttempts s st := by
  have hleft : st.left maxAttempts = [] :=
    List.eq_nil_of_sublist_nil (hheld ▸ left_sublist_held maxAttempts st)
  refine ⟨?_, ?_, ?_, ?_⟩
  · rw [hheld]
    exact fun id hid => absurd hid List.not_mem_nil
  · rw [hleft]
    exact .nil
  · rw [hleft]
    exact fun row hrow hwaiting id hid => absurd hid List.not_mem_nil
  · rintro item rest rfl
    cases hheld

/-- A run that has read the queue in the order in which it was enqueued. -/
theorem runOrder_read (hinv : StoredInOrder s)
    (hsorted : (idsToGo maxAttempts (s.queuedItems.filter QueuedMutation.pending)).Pairwise
      (Before s.order)) :
    RunOrder maxAttempts { s with read := (k, s.queuedItems) :: s.read }
      (.next maxAttempts (s.queuedItems.filter QueuedMutation.pending)) := by
  obtain ⟨huntaken, hheld⟩ :=
    next_untaken maxAttempts (s.queuedItems.filter QueuedMutation.pending)
  have hleft := left_next maxAttempts (s.queuedItems.filter QueuedMutation.pending)
  refine ⟨?_, ?_, ?_, ?_⟩
  · rw [hheld, hleft]
    intro id hid
    obtain ⟨item, hitem, rfl, -⟩ := mem_idsToGo.1 hid
    obtain ⟨row, hrow, rfl⟩ := Store.mem_queuedItems.1 (List.mem_filter.1 hitem).1
    exact hinv row hrow
  · rw [hleft]
    exact hsorted
  · rw [huntaken, hleft]
    intro row hrow hwaiting id hid hbefore
    exact mem_idsToGo.2 ⟨row.toQueuedMutation,
      List.mem_filter.2 ⟨Store.mem_queuedItems.2 ⟨row, hrow, rfl⟩, hwaiting.1⟩, rfl, hwaiting.2⟩
  · exact fun item rest heq => absurd heq (next_ne_storing _ _)

/-- A run that has marked its item has taken it. -/
theorem RunOrder.store {rest : List (QueuedMutation τ)}
    (h : RunOrder maxAttempts s (.storing item rest)) :
    RunOrder maxAttempts (s.put k item) (.calling item rest) := by
  have hpending := h.marked item rest rfl
  refine ⟨h.enqueued, h.sorted, ?_, fun item' rest' heq => by cases heq⟩
  intro row hrow hwaiting id hid hbefore
  rcases ObjectStore.mem_put.1 hrow with rfl | ⟨hrow, hne⟩
  · exact absurd hwaiting.1 (by simpa [QueuedMutation.pending] using hpending)
  · rcases List.mem_cons.1 (h.earlier row hrow hwaiting id hid hbefore) with heq | hmem
    · exact absurd heq hne
    · exact hmem

/-- A put that keeps the order has no item wait before one that a run has left. -/
theorem KeepsOrder.put {p : Tabs τ} {j : Nat} (hok : KeepsOrder p (.resume k c))
    (hk : p.calls[k]? = some ⟨call, stage.task⟩) (hthrown : c.thrown = none)
    (hact : nextAct stage.task = some (.put item))
    (hj : p.calls[j]? = some ⟨.replay run, st.task run⟩) (hwaiting : item.Waiting run.maxAttempts) :
    ∀ id ∈ st.left run.maxAttempts, ¬ Before p.state.order item.id id := by
  intro id hid
  rw [← toResolve_task] at hid
  exact hok _ hk hthrown _ hact hwaiting.1 _ (List.mem_of_getElem? hj) hwaiting.2 id hid

/-- A step of a call establishes what is known of it at its next stage. -/
theorem OrderAt.step {p : Tabs τ} (h : OrderAt call stage p.state)
    (hok : KeepsOrder p (.resume k c)) (hk : p.calls[k]? = some ⟨call, stage.task⟩)
    (hmoves : Moves k c p.state stage stage' s') (hinv : StoredInOrder p.state) :
    OrderAt call stage' s' := by
  cases hmoves with
  | fetch payload hrow =>
    obtain ⟨hmem, -⟩ := ObjectStore.get_eq_some.1 hrow
    exact hinv _ hmem
  | enter hfree => exact ⟨h.1, .of_nil rfl⟩
  | readThrows run message => exact ⟨h.1, .of_nil rfl⟩
  | storeThrows run item rest message => exact ⟨h.1, .of_nil rfl⟩
  | restoreThrows run item message message' rest => exact ⟨h.1, .of_nil rfl⟩
  | reportThrows run item message message' rest => exact ⟨h.1, .of_nil rfl⟩
  | read run hthrown =>
    obtain ⟨rfl, -⟩ := h
    exact ⟨rfl, runOrder_read hinv (hok _ hk hthrown _ rfl)⟩
  | take run item rest =>
    refine ⟨h.1, h.2.mono (fun _ h => h) (.refl _) (fun _ h => h) ?_ rfl fun _ h => h⟩
    rintro item' rest' heq
    cases heq
    rfl
  | store run item rest hthrown => exact ⟨h.1, h.2.store⟩
  | call run item rest | resolve run item rest =>
    exact ⟨h.1, h.2.mono (fun _ h => h) (.refl _) (fun _ h => h) (fun _ _ heq => by cases heq) rfl
      fun _ h => h⟩
  | reject run item message rest | succeed run item rest | succeedThrows run item message rest =>
    exact ⟨h.1, h.2.mono (fun _ h => h) (List.sublist_cons_self _ _) (fun _ h => h)
      (fun _ _ heq => by cases heq) rfl fun _ h => h⟩
  | delete run item rest =>
    exact ⟨h.1, h.2.mono (fun _ h => h) (.refl _) (fun _ h => h) (fun _ _ heq => by cases heq) rfl
      fun row hrow => (ObjectStore.mem_delete.1 hrow).1⟩
  | deleteThrows run item message rest | notifyThrows run item message rest =>
    exact ⟨h.1, h.2.mono (fun _ h => h) (.refl _) (fun _ h => h) (fun _ _ heq => by cases heq) rfl
      fun _ h => h⟩
  | restore run item message rest hthrown =>
    obtain ⟨rfl, hrun⟩ := h
    have hput := hrun.put (k := k) (hok.put hk hthrown rfl hk)
    exact ⟨rfl, hput.mono (fun _ h => h) (.refl _) (fun _ h => h) (fun _ _ heq => by cases heq) rfl
      fun _ h => h⟩
  | notify run item rest | report run item message rest =>
    exact ⟨h.1, h.2.next item rfl rfl rfl⟩
  | _ => trivial

/-- What is known of a call stays while others go on. -/
theorem OrderAt.stable {p : Tabs τ} {j : Nat} {call' : QueueCall τ} {other : Stage τ}
    (h : OrderAt call' other p.state) (hok : KeepsOrder p (.resume k c)) (hfresh : FreshItems p)
    (hk : p.calls[k]? = some ⟨call, stage.task⟩) (hj : p.calls[j]? = some ⟨call', other.task⟩)
    (hmoves : Moves k c p.state stage stage' s') (hinv : StoredInOrder p.state) :
    OrderAt call' other s' := by
  cases other with
  | naming | drawing | dating | adding | discarding | fetching | ended => trivial
  | requeueing item =>
    obtain ⟨ids, horder⟩ := hmoves.grows.order
    simp only [OrderAt] at h ⊢
    rw [horder]
    exact List.mem_append_left _ h
  | replaying run st =>
    obtain ⟨rfl, hrun⟩ := h
    rcases hmoves.rows_cases with ⟨horder, hrows⟩ | ⟨item, rfl, rfl⟩ | ⟨item, hact, hthrown, rfl⟩
    · exact ⟨rfl, hrun.mono (fun _ h => h) (.refl _) (fun _ h => h) hrun.marked horder hrows⟩
    · exact ⟨rfl, hrun.add hinv (hfresh k call item hk)⟩
    · exact ⟨rfl, hrun.put (hok.put hk hthrown hact hj)⟩

/-- A step of a call at a stage stores no item that has not been enqueued. -/
theorem StoredInOrder.step (hinv : StoredInOrder s) (hat : OrderAt call stage s)
    (hmoves : Moves k c s stage stage' s') : StoredInOrder s' := by
  have hput : ∀ item : QueuedMutation τ, item.id ∈ s.order → StoredInOrder (s.put k item) := by
    intro item hitem row hrow
    rcases ObjectStore.mem_put.1 hrow with rfl | ⟨hrow, -⟩
    · exact hitem
    · exact hinv row hrow
  cases hmoves with
  | add item hfresh hok =>
    intro row hrow
    rcases ObjectStore.mem_put.1 hrow with rfl | ⟨hrow, -⟩
    · exact List.mem_append_right _ (List.mem_singleton.2 rfl)
    · exact List.mem_append_left _ (hinv row hrow)
  | requeue item hok => exact hput item hat
  | store run item rest hok => exact hput item (hat.2.enqueued _ List.mem_cons_self)
  | restore run item message rest hok =>
    refine hput _ (hat.2.enqueued _ ?_)
    rw [QueuedMutation.afterError_id]
    exact List.mem_cons_self
  | discard id => exact fun row hrow => hinv row (ObjectStore.mem_delete.1 hrow).1
  | delete run item rest hok => exact fun row hrow => hinv row (ObjectStore.mem_delete.1 hrow).1
  | _ => exact hinv

/-! ## Runs -/

/-- The order of the queue, as an argument by stages. -/
def orderOutline : StageOutline (τ := τ) fun p m =>
    (Numbered p ∧ FreshItems p) ∧ KeepsOrder p m where
  Inv := StoredInOrder
  At _ := OrderAt
  start {p call} hok _ := by
    cases call with
    | enqueue label payload => trivial
    | replay run => exact ⟨rfl, .of_nil rfl⟩
    | resolve id resolution => cases resolution <;> trivial
  step hok hk hmoves _ hinv hat := ⟨hinv.step hat hmoves, hat.step hok.2 hk hmoves hinv⟩
  stable hok hk hj hmoves _ hinv _ _ hother := hother.stable hok.2 hok.1.2 hk hj hmoves hinv

/-- **Mutations take effect in the order in which they were enqueued, as long as every move keeps
the order.** In every run of the queue whose runs read the items that wait in the order in which
they were enqueued, and in which no item is put back to wait while a run that would replay it has a
later one left: no `onReplay` resolves while an item that was enqueued earlier waits to be
replayed. -/
theorem fifo (ms : List (QueueMove τ))
    (hok : ∀ t ∈ (queue τ).trace (queue τ).init ms, KeepsOrder t.pre t.input) :
    ∀ t ∈ (queue τ).trace (queue τ).init ms, ResolvesInOrder t.pre t.input := by
  intro t ht
  obtain ⟨ms₁, m, ms₂, rfl, rfl⟩ := Machine.mem_trace.1 ht
  rw [Machine.step_pre, Machine.step_input]
  have h0 : StoredInOrder (Store.empty : Store τ) := nofun
  obtain ⟨-, hat⟩ := orderOutline.exec_numbered (C := KeepsOrder) h0
    fun t ht => hok t (Machine.mem_trace_append ht)
  rintro k c call item rfl hk hact hthrown row hrow hwaiting hbefore
  obtain ⟨stage, htask, -, hstage⟩ := hat k call hk
  rw [htask] at hact
  obtain ⟨run, rest, rfl⟩ := Stage.awaits hact
  obtain ⟨hinput, horder⟩ := hstage
  rw [hinput] at hwaiting
  -- the waiting item is yet to be taken, so it comes after the one that is resolved
  have htake := horder.earlier row hrow hwaiting item.id List.mem_cons_self hbefore
  exact hbefore.asymm (List.rel_of_pairwise_cons horder.sorted htake)

/-- The moves of two mutations that are enqueued at different times, and of the run that replays
them. -/
def twoReplayed : List (QueueMove String) := enqueues 0 1 ++ enqueues 1 2 ++ replays 2 0 17 3

theorem fifo_two :
    (∀ t ∈ (queue String).trace (queue String).init twoReplayed, KeepsOrder t.pre t.input) ∧
    ∀ t ∈ (queue String).trace (queue String).init twoReplayed,
      ResolvesInOrder t.pre t.input := by
  have hok : ∀ t ∈ (queue String).trace (queue String).init twoReplayed,
      KeepsOrder t.pre t.input := by
    decide +kernel
  exact ⟨hok, fifo twoReplayed hok⟩

/-- The moves of a call that enqueues a mutation at the time 1, with the digits that it draws. -/
def enqueuesDrawn (k random : Nat) : List (QueueMove String) :=
  .start (.enqueue "fund invoice" "42") :: List.replicate 4 (.resume k ⟨none, 1, random⟩)

/-- Two mutations of the same millisecond, the second with the lower digits, and a run up to its
first `onSuccess`. -/
def sameMillisecond : List (QueueMove String) :=
  enqueuesDrawn 0 5 ++ enqueuesDrawn 1 3 ++ replays 2 0 6 2

/-- Two mutations, and a run in which the server call of the first one fails, up to the `onSuccess`
of the second. -/
def failsFirst : List (QueueMove String) :=
  enqueues 0 1 ++ enqueues 1 2 ++ replays 2 0 5 3 ++ [.resume 2 ⟨some "timeout", 3, 0⟩] ++
    List.replicate 6 (.resume 2 (calm 4))

/-- Of two mutations of the same millisecond the second can take effect first, and a mutation takes
effect while one that was enqueued before it waits for its second attempt. -/
theorem not_fifo :
    (∃ t ∈ (queue String).trace (queue String).init (sameMillisecond ++ [.resume 2 (calm 2)]),
      ¬ ResolvesInOrder t.pre t.input) ∧
    ∃ t ∈ (queue String).trace (queue String).init (failsFirst ++ [.resume 2 (calm 4)]),
      ¬ ResolvesInOrder t.pre t.input := by
  constructor
  · refine ⟨_, (queue String).step_mem_trace _ sameMillisecond _ [], fun h => ?_⟩
    rw [Machine.step_pre, Machine.step_input] at h
    exact h 2 (calm 2) _ _ rfl rfl rfl rfl ⟨enqueued "fund invoice" "42" ⟨1, 5, 0⟩ 1, 0⟩
      (.tail _ (.head _)) ⟨rfl, by decide⟩ ⟨by decide +kernel, by decide +kernel⟩
  · refine ⟨_, (queue String).step_mem_trace _ failsFirst _ [], fun h => ?_⟩
    rw [Machine.step_pre, Machine.step_input] at h
    exact h 2 (calm 4) _ _ rfl rfl rfl rfl
      ⟨((storedItem 0 1).replaying 3).afterError 3 "timeout", 2⟩
      (.tail _ (.head _)) ⟨rfl, by decide⟩ ⟨by decide +kernel, by decide +kernel⟩

end OfflineQueue

end Frontend

end InvoiceFi
