import InvoiceFi.Frontend.OfflineQueue.Kept

/-!
# Mutations that are sent once

A run owns the item it replays from the write that marks it as `replaying` to the write or the
deletion that ends its replay. Nothing in the queue enforces this: `replayingRef` belongs to a hook,
while the queue is shared, and the `catch` of a replay puts the item back whatever has thrown. So
`Exclusive` asks of every move that it does not mark an item that another run owns or has finished
with, and that nothing throws once a server call has resolved. In the runs whose moves are all
exclusive, an item whose server call has resolved is not sent again and does not come back
(`sent_once`). The other runs send a mutation twice (`sent_twice`).
-/

namespace InvoiceFi

namespace Frontend

namespace OfflineQueue

variable {τ : Type}

/-! ## The condition -/

/-- The call is a run. -/
def QueueCall.isReplay : QueueCall τ → Bool
  | .replay _ => true
  | _ => false

/-- The item is stored and no run is replaying it. -/
def Store.Free (s : Store τ) (id : ItemId) : Prop :=
  ∃ row ∈ s.mutations.rows, row.id = id ∧ row.status ≠ .replaying

instance (s : Store τ) (id : ItemId) : Decidable (s.Free id) :=
  inferInstanceAs (Decidable (∃ row ∈ s.mutations.rows, _))

/-- The action is exclusive: a run marks an item, and a conflict is resolved, only while the item is
stored and no run is replaying it, and what follows the server call of an item does not throw. -/
def ActExclusive (s : Store τ) (call : QueueCall τ) (thrown : Option String) : Act τ → Prop
  | .put item => thrown = none → item.status = .replaying ∨ call.isReplay = false → s.Free item.id
  | .discard id => thrown = none → ∀ row ∈ s.mutations.rows, row.id = id → row.status ≠ .replaying
  | .onSuccess _ | .delete _ | .onReplaySuccess _ => thrown = none
  | _ => True

instance (s : Store τ) (call : QueueCall τ) (thrown : Option String) :
    (a : Act τ) → Decidable (ActExclusive s call thrown a)
  | .put item => inferInstanceAs (Decidable (_ → _ → s.Free item.id))
  | .discard _ => inferInstanceAs (Decidable (_ → ∀ row ∈ s.mutations.rows, _))
  | .onSuccess _ | .delete _ | .onReplaySuccess _ => inferInstanceAs (Decidable (_ = _))
  | .now | .random | .add _ | .getAll | .get _ | .enter _ | .leave _ | .callServer _
  | .awaitServer _ | .onReplayError .. | .onConflict .. => inferInstanceAs (Decidable True)

/-- The move is exclusive. -/
def Exclusive (p : Tabs τ) : QueueMove τ → Prop
  | .resume k c => ∀ call ∈ p.calls[k]?, ∀ a ∈ nextAct call.rest,
    ActExclusive p.state call.input c.thrown a
  | _ => True

instance (p : Tabs τ) : (m : QueueMove τ) → Decidable (Exclusive p m)
  | .resume k _ => inferInstanceAs (Decidable (∀ call ∈ p.calls[k]?, _))
  | .start _ | .environ _ => inferInstanceAs (Decidable True)

/-- An item whose server call has resolved is left alone: the move does not make the call again, no
such call is in flight, and the move does not store the item. -/
structure SentOnce (p : Tabs τ) (m : QueueMove τ) : Prop where
  sent : ∀ k c call, m = .resume k c → p.calls[k]? = some call → ∀ item,
    nextAct call.rest = some (.callServer item) → item.id ∉ p.state.resolved
  inFlight : ∀ call ∈ p.calls, ∀ item,
    nextAct call.rest = some (.awaitServer item) → item.id ∉ p.state.resolved
  stored : ∀ row ∈ ((offlineQueue τ).move m p).state.mutations.rows,
    row.id ∈ p.state.resolved → row ∈ p.state.mutations.rows

/-! ## Owners -/

/-- The call has marked the item and nobody has written it since. -/
def Owned (k : Nat) (id : ItemId) (s : Store τ) : Prop :=
  ∃ row ∈ s.mutations.rows, row.id = id ∧ row.status = .replaying ∧ row.writer = k

/-- What is known of a call at a stage. -/
def OnceAt (k : Nat) (stage : Stage τ) (s : Store τ) : Prop :=
  match stage with
  | .replaying _ (.storing item _) => item.status = .replaying
  | .replaying _ (.calling item _) | .replaying _ (.awaiting item _)
  | .replaying _ (.restoring item _ _) => Owned k item.id s ∧ item.id ∉ s.resolved
  | .replaying _ (.succeeding item _) | .replaying _ (.deleting item _) => Owned k item.id s
  | _ => True

/-- The stored items have been enqueued, and so have those whose server calls have resolved, which
are stored as `replaying` if at all. -/
structure OnceInv (s : Store τ) : Prop where
  stored : ∀ row ∈ s.mutations.rows, row.id ∈ s.order
  resolved : ∀ id ∈ s.resolved, id ∈ s.order
  replaying : ∀ row ∈ s.mutations.rows, row.id ∈ s.resolved → row.status = .replaying

variable {k j : Nat} {c : Choice} {s s' : Store τ} {id id' : ItemId} {item : QueuedMutation τ}
  {call : QueueCall τ} {stage stage' : Stage τ}

/-- Two calls own different items. -/
theorem Owned.ne (hj : Owned j id s) (hk : Owned k id' s) (hne : j ≠ k) : id ≠ id' := by
  obtain ⟨row, hrow, hid, -, hwriter⟩ := hj
  obtain ⟨row', hrow', hid', -, hwriter'⟩ := hk
  rintro rfl
  rw [ObjectStore.eq_of_id hrow hrow' (hid.trans hid'.symm)] at hwriter
  exact hne (hwriter.symm.trans hwriter')

/-- An item that a call owns is not free. -/
theorem Owned.ne_free (hj : Owned j id s) (hfree : s.Free id') : id ≠ id' := by
  obtain ⟨row, hrow, hid, hstatus, -⟩ := hj
  obtain ⟨row', hrow', hid', hstatus'⟩ := hfree
  rintro rfl
  rw [ObjectStore.eq_of_id hrow hrow' (hid.trans hid'.symm)] at hstatus
  exact hstatus' hstatus

/-- The server call of an item that is free has not resolved. -/
theorem OnceInv.not_resolved (h : OnceInv s) (hfree : s.Free id) : id ∉ s.resolved := by
  obtain ⟨row, hrow, rfl, hstatus⟩ := hfree
  exact fun hid => hstatus (h.replaying row hrow hid)

/-- An item that a call puts is free, or the call owns it and its server call has not resolved. -/
theorem OnceAt.put_cases {p : Tabs τ} (h : OnceAt k stage p.state)
    (hok : Exclusive p (.resume k c)) (hk : p.calls[k]? = some ⟨call, stage.task⟩)
    (hof : stage.Of call) (hthrown : c.thrown = none)
    (hact : nextAct stage.task = some (.put item)) :
    p.state.Free item.id ∨ (Owned k item.id p.state ∧ item.id ∉ p.state.resolved) := by
  have hput := hok _ hk _ hact hthrown
  rcases Stage.awaits hact with rfl | ⟨run, rest, rfl⟩ | ⟨run, item', message, rest, rfl, rfl⟩
  · obtain ⟨id, resolution, rfl⟩ := hof
    exact .inl (hput (.inr rfl))
  · exact .inl (hput (.inl h))
  · rw [QueuedMutation.afterError_id]
    exact .inr h

/-! ## Steps -/

theorem OnceInv.put (h : OnceInv s) (horder : item.id ∈ s.order) (hnot : item.id ∉ s.resolved) :
    OnceInv (s.put k item) where
  stored row hrow := by
    rcases ObjectStore.mem_put.1 hrow with rfl | ⟨hrow, -⟩
    · exact horder
    · exact h.stored row hrow
  resolved := h.resolved
  replaying row hrow hid := by
    rcases ObjectStore.mem_put.1 hrow with rfl | ⟨hrow, -⟩
    · exact absurd hid hnot
    · exact h.replaying row hrow hid

/-- A store that has lost items. -/
theorem OnceInv.mono (h : OnceInv s) (hrows : ∀ row ∈ s'.mutations.rows, row ∈ s.mutations.rows)
    (horder : s'.order = s.order) (hresolved : s'.resolved = s.resolved) : OnceInv s' where
  stored row hrow := horder ▸ h.stored row (hrows row hrow)
  resolved id hid := horder ▸ h.resolved id (hresolved ▸ hid)
  replaying row hrow hid := h.replaying row (hrows row hrow) (hresolved ▸ hid)

/-- What a put of a call writes has been enqueued, and its server call has not resolved. -/
theorem OnceInv.of_put_cases (h : OnceInv s)
    (hcases : s.Free id ∨ (Owned k id s ∧ id ∉ s.resolved)) : id ∈ s.order ∧ id ∉ s.resolved := by
  rcases hcases with hfree | ⟨⟨row, hrow, rfl, -⟩, hnot⟩
  · have hnot := h.not_resolved hfree
    obtain ⟨row, hrow, rfl, -⟩ := hfree
    exact ⟨h.stored row hrow, hnot⟩
  · exact ⟨h.stored row hrow, hnot⟩

theorem OnceInv.step {p : Tabs τ} (h : OnceInv p.state) (hat : OnceAt k stage p.state)
    (hok : Exclusive p (.resume k c)) (hfresh : FreshItems p)
    (hk : p.calls[k]? = some ⟨call, stage.task⟩) (hof : stage.Of call)
    (hmoves : Moves k c p.state stage stage' s') : OnceInv s' := by
  have hput : ∀ item, c.thrown = none → nextAct stage.task = some (.put item) →
      OnceInv (p.state.put k item) := by
    intro item hthrown hact
    obtain ⟨horder, hnot⟩ := h.of_put_cases (hat.put_cases hok hk hof hthrown hact)
    exact h.put horder hnot
  cases hmoves with
  | add item hnew hthrown =>
    have hitem := hfresh k call item hk
    refine ⟨fun row hrow => ?_, fun id hid => List.mem_append_left _ (h.resolved id hid), ?_⟩
    · rcases ObjectStore.mem_put.1 hrow with rfl | ⟨hrow, -⟩
      · exact List.mem_append_right _ (List.mem_singleton.2 rfl)
      · exact List.mem_append_left _ (h.stored row hrow)
    · intro row hrow hid
      rcases ObjectStore.mem_put.1 hrow with rfl | ⟨hrow, -⟩
      · exact absurd (h.resolved _ hid) hitem
      · exact h.replaying row hrow hid
  | requeue item hthrown => exact hput item hthrown rfl
  | store run item rest hthrown => exact hput item hthrown rfl
  | restore run item message rest hthrown => exact hput _ hthrown rfl
  | discard id => exact h.mono (fun row hrow => (ObjectStore.mem_delete.1 hrow).1) rfl rfl
  | delete run item rest hthrown =>
    exact h.mono (fun row hrow => (ObjectStore.mem_delete.1 hrow).1) rfl rfl
  | resolve run item rest hthrown =>
    obtain ⟨⟨row, hrow, hid, hstatus, -⟩, -⟩ := hat
    refine ⟨h.stored, List.forall_mem_cons.2 ⟨hid ▸ h.stored row hrow, h.resolved⟩, ?_⟩
    intro row' hrow' hid'
    rcases List.mem_cons.1 hid' with hid' | hid'
    · rw [ObjectStore.eq_of_id hrow' hrow (hid'.trans hid.symm)]
      exact hstatus
    · exact h.replaying row' hrow' hid'
  | _ => exact h.mono (fun _ h => h) rfl rfl

/-- A run that goes on with its loop owns nothing. -/
theorem onceAt_next {run : Run} (maxAttempts : Nat) (items : List (QueuedMutation τ)) :
    OnceAt k (.replaying run (.next maxAttempts items)) s := by
  rcases ReplayStage.next_cases maxAttempts items with h | ⟨item, rest, h⟩ <;> rw [h]
  · trivial
  · trivial

/-- A step of a call establishes what is known of it at its next stage. -/
theorem OnceAt.step {p : Tabs τ} (hat : OnceAt k stage p.state) (h : OnceInv p.state)
    (hok : Exclusive p (.resume k c)) (hk : p.calls[k]? = some ⟨call, stage.task⟩)
    (hmoves : Moves k c p.state stage stage' s') : OnceAt k stage' s' := by
  cases hmoves with
  | take run item rest => exact rfl
  | store run item rest hthrown =>
    have hfree := hok _ hk _ rfl hthrown (.inl hat)
    exact ⟨⟨_, ObjectStore.mem_put.2 (.inl rfl), rfl, hat, rfl⟩, h.not_resolved hfree⟩
  | call run item rest => exact hat
  | resolve run item rest hthrown => exact hat.1
  | reject run item message rest => exact hat
  | succeed run item rest hthrown => exact hat
  | succeedThrows run item message rest hthrown =>
    have hnone : c.thrown = none := hok _ hk _ rfl
    cases hnone.symm.trans hthrown
  | deleteThrows run item message rest hthrown =>
    have hnone : c.thrown = none := hok _ hk _ rfl
    cases hnone.symm.trans hthrown
  | notifyThrows run item message rest hthrown =>
    have hnone : c.thrown = none := hok _ hk _ rfl
    cases hnone.symm.trans hthrown
  | read run hthrown => exact onceAt_next _ _
  | notify run item rest => exact onceAt_next _ _
  | report run item message rest => exact onceAt_next _ _
  | _ => trivial

/-- What a call owns stays its own while others go on. -/
theorem Owned.stable {p : Tabs τ} (hj : Owned j id p.state) (hat : OnceAt k stage p.state)
    (hok : Exclusive p (.resume k c)) (hk : p.calls[k]? = some ⟨call, stage.task⟩)
    (hof : stage.Of call) (hmoves : Moves k c p.state stage stage' s') (hne : j ≠ k) :
    Owned j id s' := by
  have hput : ∀ item, c.thrown = none → nextAct stage.task = some (.put item) →
      Owned j id (p.state.put k item) := by
    intro item hthrown hact
    have hid : id ≠ item.id := by
      rcases hat.put_cases hok hk hof hthrown hact with hfree | ⟨hown, -⟩
      · exact hj.ne_free hfree
      · exact hj.ne hown hne
    obtain ⟨row, hrow, rfl, hstatus⟩ := hj
    exact ⟨row, ObjectStore.mem_put.2 (.inr ⟨hrow, hid⟩), rfl, hstatus⟩
  cases hmoves with
  | add item hnew hthrown =>
    obtain ⟨row, hrow, rfl, hstatus⟩ := hj
    have hid : row.id ≠ item.id := fun hid => hnew (List.mem_map.2 ⟨row, hrow, hid⟩)
    exact ⟨row, ObjectStore.mem_put.2 (.inr ⟨hrow, hid⟩), rfl, hstatus⟩
  | requeue item hthrown => exact hput item hthrown rfl
  | store run item rest hthrown => exact hput item hthrown rfl
  | restore run item message rest hthrown => exact hput _ hthrown rfl
  | discard id' hthrown =>
    obtain ⟨row, hrow, rfl, hstatus, hwriter⟩ := hj
    have hid : row.id ≠ id' := fun hid => hok _ hk _ rfl hthrown row hrow hid hstatus
    exact ⟨row, ObjectStore.mem_delete.2 ⟨hrow, hid⟩, rfl, hstatus, hwriter⟩
  | delete run item rest hthrown =>
    have hid : id ≠ item.id := hj.ne hat hne
    obtain ⟨row, hrow, rfl, hstatus⟩ := hj
    exact ⟨row, ObjectStore.mem_delete.2 ⟨hrow, hid⟩, rfl, hstatus⟩
  | _ => exact hj

/-- The server call of an item that a call owns stays unresolved while others go on. -/
theorem Owned.unresolved {p : Tabs τ} (hj : Owned j id p.state) (hnot : id ∉ p.state.resolved)
    (hat : OnceAt k stage p.state) (hmoves : Moves k c p.state stage stage' s') (hne : j ≠ k) :
    id ∉ s'.resolved := by
  cases hmoves with
  | resolve run item rest hthrown =>
    intro hid
    rcases List.mem_cons.1 hid with hid | hid
    · exact hj.ne hat.1 hne hid
    · exact hnot hid
  | _ => exact hnot

/-- What is known of a call stays while others go on. -/
theorem OnceAt.stable {p : Tabs τ} {other : Stage τ} (hother : OnceAt j other p.state)
    (hat : OnceAt k stage p.state) (hok : Exclusive p (.resume k c))
    (hk : p.calls[k]? = some ⟨call, stage.task⟩) (hof : stage.Of call)
    (hmoves : Moves k c p.state stage stage' s') (hne : j ≠ k) : OnceAt j other s' := by
  cases other with
  | replaying run st =>
    cases st with
    | storing item rest => exact hother
    | calling item rest | awaiting item rest | restoring item message rest =>
      obtain ⟨hown, hnot⟩ := hother
      exact ⟨hown.stable hat hok hk hof hmoves hne, hown.unresolved hnot hat hmoves hne⟩
    | succeeding item rest | deleting item rest =>
      exact Owned.stable hother hat hok hk hof hmoves hne
    | entering | reading | taking | notifying | reporting | leaving => trivial
  | naming | drawing | dating | adding | discarding | fetching | requeueing | ended => trivial

/-! ## Runs -/

/-- Owners, as an argument by stages. -/
def onceOutline : StageOutline (τ := τ) fun p m =>
    (Numbered p ∧ FreshItems p) ∧ Exclusive p m where
  Inv := OnceInv
  At k _ := OnceAt k
  start {_ call} _ _ := by
    cases call with
    | enqueue label payload => trivial
    | replay run => trivial
    | resolve id resolution => cases resolution <;> trivial
  step hok hk hmoves hof hinv hat :=
    ⟨hinv.step hat hok.2 hok.1.2 hk hof hmoves, hat.step hinv hok.2 hk hmoves⟩
  stable hok hk _ hmoves hof _ hat hne hother := hother.stable hat hok.2 hk hof hmoves hne

/-- An exclusive move stores no item whose server call has resolved. -/
theorem stored_of_exclusive {p : Tabs τ} {m : QueueMove τ} (hinv : OnceInv p.state)
    (hat : p.Meets (AtStage onceOutline.At)) (hfresh : FreshItems p) (hok : Exclusive p m) :
    ∀ row ∈ ((offlineQueue τ).move m p).state.mutations.rows,
      row.id ∈ p.state.resolved → row ∈ p.state.mutations.rows := by
  rcases Service.move_cases (offlineQueue τ) m p with ⟨call, rfl, hp⟩ |
    ⟨k, c, call, a, f, rfl, hk, hp⟩ | ⟨o, rfl, hp⟩ | ⟨k, c, -, -, hp⟩
  · rw [hp]
    exact fun row hrow _ => hrow
  · obtain ⟨stage, htask, hof, hstage⟩ := hat k _ hk
    obtain ⟨stage', hmoves, -⟩ := Stage.advance htask
    rw [show Async.await a f = stage.task from htask] at hk
    rw [hp]
    change ∀ row ∈ (perform k a c p.state).2.mutations.rows, _
    intro row hrow hid
    rcases hmoves.rows_cases with ⟨-, hrows⟩ | ⟨item, rfl, heq⟩ | ⟨item, hact, hthrown, heq⟩
    · exact hrows row hrow
    · rw [heq] at hrow
      rcases ObjectStore.mem_put.1 hrow with rfl | ⟨hrow, -⟩
      · exact absurd (hinv.resolved _ hid) (hfresh k call item hk)
      · exact hrow
    · rw [heq] at hrow
      rcases ObjectStore.mem_put.1 hrow with rfl | ⟨hrow, -⟩
      · have hcases := OnceAt.put_cases hstage hok hk hof hthrown hact
        exact absurd hid (hinv.of_put_cases hcases).2
      · exact hrow
  · cases o
  · rw [hp]
    exact fun row hrow _ => hrow

/-- **A mutation is sent once, as long as every move is exclusive.** In every run of the queue, with
any number of hooks and tabs, in which a run marks an item, and a conflict is resolved, only while
the item is stored and no run is replaying it, and in which nothing throws between the end of a
server call and the next item: once the server call of an item has resolved, the call is not made
again, no such call is in flight, and the item is not stored again. -/
theorem sent_once (ms : List (QueueMove τ))
    (hok : ∀ t ∈ (queue τ).trace (queue τ).init ms, Exclusive t.pre t.input) :
    ∀ t ∈ (queue τ).trace (queue τ).init ms, SentOnce t.pre t.input := by
  intro t ht
  have hlast := hok t ht
  obtain ⟨ms₁, m, ms₂, rfl, rfl⟩ := Machine.mem_trace.1 ht
  rw [Machine.step_pre, Machine.step_input] at hlast ⊢
  have h0 : OnceInv (Store.empty : Store τ) := ⟨nofun, nofun, nofun⟩
  obtain ⟨hinv, hat⟩ := onceOutline.exec_numbered (C := Exclusive) h0
    fun t ht => hok t (Machine.mem_trace_append ht)
  have hfresh := (numbered_exec ms₁).2
  refine ⟨?_, ?_, stored_of_exclusive hinv hat hfresh hlast⟩
  · rintro k c call rfl hk item hact
    obtain ⟨stage, htask, -, hstage⟩ := hat k call hk
    rw [htask] at hact
    obtain ⟨run, rest, rfl⟩ := Stage.awaits hact
    exact hstage.2
  · intro call hcall item hact
    obtain ⟨k, hk⟩ := List.mem_iff_getElem?.1 hcall
    obtain ⟨stage, htask, -, hstage⟩ := hat k call hk
    rw [htask] at hact
    obtain ⟨run, rest, rfl⟩ := Stage.awaits hact
    exact hstage.2

/-- The moves of a mutation whose first replay fails, and of a run of another tab that replays it
again. -/
def sentAgainAfterFailure : List (QueueMove String) :=
  enqueues 0 1 ++ replays 1 0 5 2 ++ [.resume 1 ⟨some "timeout", 2, 0⟩] ++
    List.replicate 3 (.resume 1 (calm 2)) ++ replays 2 1 10 3

theorem sent_once_retried :
    (∀ t ∈ (queue String).trace (queue String).init sentAgainAfterFailure,
      Exclusive t.pre t.input) ∧
    ∀ t ∈ (queue String).trace (queue String).init sentAgainAfterFailure,
      SentOnce t.pre t.input := by
  have hok : ∀ t ∈ (queue String).trace (queue String).init sentAgainAfterFailure,
      Exclusive t.pre t.input := by
    decide +kernel
  exact ⟨hok, sent_once sentAgainAfterFailure hok⟩

/-- The moves of a mutation that two tabs have both read: the first one replays it and removes it,
the second one marks it. -/
def readTwice : List (QueueMove String) :=
  enqueues 0 1 ++ replays 1 0 2 2 ++ replays 2 1 2 2 ++
    List.replicate 8 (.resume 1 (calm 3)) ++ List.replicate 2 (.resume 2 (calm 4))

/-- The moves of a mutation whose server call has resolved and whose `onSuccess` throws. -/
def throwsOnSuccess : List (QueueMove String) :=
  enqueues 0 1 ++ replays 1 0 6 2 ++ [.resume 1 ⟨some "render error", 2, 0⟩]

/-- The second tab makes the server call again, and an item whose `onSuccess` has thrown is put back
into the queue. -/
theorem sent_twice :
    (∃ t ∈ (queue String).trace (queue String).init (readTwice ++ [.resume 2 (calm 5)]),
      ¬ SentOnce t.pre t.input) ∧
    ∃ t ∈ (queue String).trace (queue String).init (throwsOnSuccess ++ [.resume 1 (calm 3)]),
      ¬ SentOnce t.pre t.input := by
  constructor
  · refine ⟨_, (queue String).step_mem_trace _ readTwice _ [], fun h => ?_⟩
    rw [Machine.step_pre, Machine.step_input] at h
    exact h.sent 2 (calm 5) _ rfl rfl _ rfl (by decide +kernel)
  · refine ⟨_, (queue String).step_mem_trace _ throwsOnSuccess _ [], fun h => ?_⟩
    rw [Machine.step_pre, Machine.step_input] at h
    have hrow := h.stored
      ⟨((storedItem 0 1).replaying 2).afterError 3 "render error", 1⟩ (.head _) (by decide +kernel)
    have hnone : ∀ row ∈ ((queue String).exec (queue String).init
        throwsOnSuccess).state.mutations.rows, row.lastError = none := by decide +kernel
    exact absurd (hnone _ hrow) (by decide)

end OfflineQueue

end Frontend

end InvoiceFi
