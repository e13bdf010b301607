import InvoiceFi.Frontend.OfflineQueue.Attempts

/-!
# The runs of one hook

`replayingRef` keeps the runs of one hook from overlapping. So on a page with one hook, where
conflicts are resolved between runs, a run marks every item as it is stored (`one_hook`), which is
what the limit of the attempts rests on.

A run that is under way has the flag to itself (`OneRun`), and the items that it has yet to take are
still stored as it has read them (`ReplayStage.Current`).
-/

namespace InvoiceFi

namespace Frontend

namespace OfflineQueue

variable {τ : Type} {k j : Nat} {c : Choice} {s s' : Store τ} {p : Tabs τ} {stages : Stages τ}
  {call call' : QueueCall τ} {stage stage' : Stage τ} {id : ItemId} {item : QueuedMutation τ}
  {m hook : Nat}

/-! ## The condition -/

/-- A conflict is resolved while no run is under way, and only an item that is stored is put back.
-/
def ActBetween (hook : Nat) (s : Store τ) (call : QueueCall τ) (thrown : Option String) :
    Act τ → Prop
  | .put item => thrown = none → call.isReplay = false →
    s.replayingRef hook = false ∧ s.Free item.id
  | .discard _ => s.replayingRef hook = false
  | _ => True

instance (hook : Nat) (s : Store τ) (call : QueueCall τ) (thrown : Option String) :
    (a : Act τ) → Decidable (ActBetween hook s call thrown a)
  | .put item => inferInstanceAs (Decidable (_ → _ → _ ∧ s.Free item.id))
  | .discard _ => inferInstanceAs (Decidable (_ = _))
  | .now | .random | .add _ | .getAll | .get _ | .enter _ | .leave _ | .callServer _
  | .awaitServer _ | .delete _ | .onSuccess _ | .onReplaySuccess _ | .onReplayError ..
  | .onConflict .. => inferInstanceAs (Decidable True)

/-- The runs are those of the hook, with at most `m` attempts, and conflicts are resolved between
them. -/
def OfHook (hook m : Nat) (p : Tabs τ) : QueueMove τ → Prop
  | .start call => ∀ run ∈ call.run?, run.hook = hook ∧ run.maxAttempts ≤ m
  | .resume k c => ∀ call ∈ p.calls[k]?, ∀ a ∈ nextAct call.rest,
    ActBetween hook p.state call.input c.thrown a
  | .environ _ => True

instance (hook m : Nat) (p : Tabs τ) : (mv : QueueMove τ) → Decidable (OfHook hook m p mv)
  | .start call =>
    inferInstanceAs (Decidable (∀ run ∈ call.run?, run.hook = hook ∧ run.maxAttempts ≤ m))
  | .resume k _ => inferInstanceAs (Decidable (∀ call ∈ p.calls[k]?, _))
  | .environ _ => inferInstanceAs (Decidable True)

/-! ## What a run has read -/

/-- The items that a run has yet to take. -/
def ReplayStage.rest : ReplayStage τ → List (QueuedMutation τ)
  | .taking item rest => item :: rest
  | .storing _ rest | .calling _ rest | .awaiting _ rest | .succeeding _ rest | .deleting _ rest
  | .notifying _ rest | .restoring _ _ rest | .reporting _ _ rest => rest
  | .entering | .reading | .leaving _ => []

/-- The id of the item that a run has taken. -/
def ReplayStage.taken : ReplayStage τ → Option ItemId
  | .storing item _ | .calling item _ | .awaiting item _ | .succeeding item _ | .deleting item _
  | .notifying item _ | .restoring item _ _ | .reporting item _ _ => some item.id
  | .entering | .reading | .taking .. | .leaving _ => none

/-- The item waits, and is stored like this. -/
def Store.Waiting (s : Store τ) (item : QueuedMutation τ) : Prop :=
  item.pending = true ∧ ∃ row ∈ s.mutations.rows, row.toQueuedMutation = item

/-- What a run has yet to take is stored as it has read it, and is not what it has taken; and it is
about to mark an item as it is stored. -/
structure ReplayStage.Current (s : Store τ) (stage : ReplayStage τ) : Prop where
  waiting : ∀ item ∈ stage.rest, s.Waiting item
  apart : ∀ item ∈ stage.rest, some item.id ≠ stage.taken
  ids : (stage.rest.map fun item => item.id).Nodup
  marks : ∀ item rest, stage = .storing item rest → s.AsRead item

/-- A stage without items is current. -/
theorem ReplayStage.Current.of_rest {st : ReplayStage τ} (hrest : st.rest = [])
    (htaken : st.taken = none) : st.Current s where
  waiting item hitem := by
    rw [hrest] at hitem
    cases hitem
  apart item hitem := by
    rw [hrest] at hitem
    cases hitem
  ids := by
    rw [hrest]
    exact List.nodup_nil
  marks item rest hst := by
    rw [hst] at htaken
    cases htaken

/-- The items of the loop are current where it goes on. -/
theorem ReplayStage.next_current (maxAttempts : Nat) {items : List (QueuedMutation τ)}
    (hwaiting : ∀ item ∈ items, s.Waiting item)
    (hids : (items.map fun item => item.id).Nodup) : (next maxAttempts items).Current s := by
  induction items with
  | nil => exact .of_rest rfl rfl
  | cons item rest ih =>
    rw [next]
    split
    · exact ih (fun item' hitem' => hwaiting item' (List.mem_cons_of_mem _ hitem'))
        (List.nodup_cons.1 hids).2
    · exact ⟨hwaiting, fun _ _ => Option.some_ne_none _, hids, fun _ _ hst => by cases hst⟩

/-- What is read of the queue has ids of its own. -/
theorem Store.queuedItems_ids (s : Store τ) : (s.queuedItems.map fun item => item.id).Nodup := by
  have hperm : s.queuedItems.Perm (s.mutations.rows.map Stored.toQueuedMutation) :=
    (List.perm_insertionSort _ _).trans (List.perm_insertionSort _ _)
  rw [(hperm.map _).nodup_iff, List.map_map]
  exact s.mutations.ids

/-! ## The run that is under way -/

/-- The stage of a run that is under way. -/
def Stage.underWay : Stage τ → Option (ReplayStage τ)
  | .replaying _ .entering => none
  | .replaying _ stage => some stage
  | _ => none

theorem Stage.underWay_eq {run : Run} {st st' : ReplayStage τ}
    (h : st' ∈ (Stage.replaying run st).underWay) : st' = st := by
  cases st <;> cases h <;> rfl

/-- The runs are those of the hook, at most one of them is under way, and it has the flag and is
current. -/
structure OneRun (hook m : Nat) (s : Store τ) (stages : Stages τ) : Prop where
  of : ∀ (k : Nat) (call : QueueCall τ) (stage : Stage τ), stages[k]? = some (call, stage) →
    stage.Of call ∧ ∀ run ∈ call.run?, run.hook = hook
  busy : ∀ (k : Nat) (call : QueueCall τ) (stage : Stage τ), stages[k]? = some (call, stage) →
    ∀ st ∈ stage.underWay, s.replayingRef hook = true ∧ st.Current s
  alone : ∀ (j k : Nat) (call call' : QueueCall τ) (stage stage' : Stage τ),
    stages[j]? = some (call, stage) → stages[k]? = some (call', stage') →
    ∀ st ∈ stage.underWay, ∀ st' ∈ stage'.underWay, j = k

theorem Store.Waiting.put {item' : QueuedMutation τ} (h : s.Waiting item')
    (hne : item'.id ≠ item.id) : (s.put k item).Waiting item' := by
  obtain ⟨hpending, row, hrow, rfl⟩ := h
  exact ⟨hpending, row, ObjectStore.mem_put.2 (.inr ⟨hrow, hne⟩), rfl⟩

/-- A step keeps the run that makes it current. -/
theorem Moves.underWay (h : Moves k c s stage stage' s') (hof : stage.Of call)
    (hhook : ∀ run ∈ call.run?, run.hook = hook)
    (hbusy : ∀ st ∈ stage.underWay, s.replayingRef hook = true ∧ st.Current s) :
    ∀ st ∈ stage'.underWay, s'.replayingRef hook = true ∧ st.Current s' := by
  intro st hst
  cases h with
  | enter hfree =>
    cases hof
    cases Stage.underWay_eq hst
    refine ⟨?_, .of_rest rfl rfl⟩
    rw [← hhook _ rfl]
    exact Function.update_self _ _ _
  | read run hok =>
    obtain ⟨hflag, -⟩ := hbusy _ rfl
    cases Stage.underWay_eq hst
    refine ⟨hflag, ReplayStage.next_current _ (fun item hitem => ?_) ?_⟩
    · obtain ⟨hmem, hpending⟩ := List.mem_filter.1 hitem
      exact ⟨hpending, Store.mem_queuedItems.1 hmem⟩
    · exact s.queuedItems_ids.sublist (List.filter_sublist.map _)
  | take run item rest =>
    obtain ⟨hflag, hcurrent⟩ := hbusy _ rfl
    cases Stage.underWay_eq hst
    obtain ⟨hnot, hids⟩ := List.nodup_cons.1 hcurrent.ids
    obtain ⟨hpending, row, hrow, hitem⟩ := hcurrent.waiting item List.mem_cons_self
    refine ⟨hflag, fun item' hitem' => hcurrent.waiting item' (List.mem_cons_of_mem _ hitem'),
      fun item' hitem' hid => ?_, hids, ?_⟩
    · exact hnot (List.mem_map.2 ⟨item', hitem', Option.some.inj hid⟩)
    · rintro _ _ ⟨⟩
      exact ⟨row, hrow, by rw [hitem]; rfl, by rw [hitem]; exact hpending, by rw [hitem]; rfl⟩
  | store run item rest hok =>
    obtain ⟨hflag, hcurrent⟩ := hbusy _ rfl
    cases Stage.underWay_eq hst
    refine ⟨hflag, fun item' hitem' => ?_, hcurrent.apart, hcurrent.ids,
      fun _ _ hst => by cases hst⟩
    exact (hcurrent.waiting item' hitem').put fun hid =>
      hcurrent.apart item' hitem' (congrArg some hid)
  | restore run item message rest hok =>
    obtain ⟨hflag, hcurrent⟩ := hbusy _ rfl
    cases Stage.underWay_eq hst
    refine ⟨hflag, fun item' hitem' => ?_, hcurrent.apart, hcurrent.ids,
      fun _ _ hst => by cases hst⟩
    refine (hcurrent.waiting item' hitem').put fun hid => ?_
    rw [QueuedMutation.afterError_id] at hid
    exact hcurrent.apart item' hitem' (congrArg some hid)
  | delete run item rest hok =>
    obtain ⟨hflag, hcurrent⟩ := hbusy _ rfl
    cases Stage.underWay_eq hst
    refine ⟨hflag, fun item' hitem' => ?_, hcurrent.apart, hcurrent.ids,
      fun _ _ hst => by cases hst⟩
    obtain ⟨hpending, row, hrow, rfl⟩ := hcurrent.waiting item' hitem'
    refine ⟨hpending, row, ObjectStore.mem_delete.2 ⟨hrow, fun hid => ?_⟩, rfl⟩
    exact hcurrent.apart _ hitem' (congrArg some hid)
  | call | resolve | reject | succeed | succeedThrows | deleteThrows | notifyThrows =>
    obtain ⟨hflag, hcurrent⟩ := hbusy _ rfl
    cases Stage.underWay_eq hst
    exact ⟨hflag, hcurrent.waiting, hcurrent.apart, hcurrent.ids, fun _ _ hst => by cases hst⟩
  | notify run item rest | report run item message rest =>
    obtain ⟨hflag, hcurrent⟩ := hbusy _ rfl
    cases Stage.underWay_eq hst
    exact ⟨hflag, ReplayStage.next_current _ hcurrent.waiting hcurrent.ids⟩
  | readThrows | storeThrows | restoreThrows | reportThrows =>
    obtain ⟨hflag, -⟩ := hbusy _ rfl
    cases Stage.underWay_eq hst
    exact ⟨hflag, .of_rest rfl rfl⟩
  | _ => cases hst

/-- What is added to the queue leaves the run that is under way current. -/
theorem ReplayStage.Current.add {st : ReplayStage τ} (h : st.Current s)
    (hfresh : item.id ∉ s.mutations.rows.map fun row => row.id) :
    st.Current { s.put k item with order := s.order ++ [item.id] } where
  waiting item' hitem' := by
    refine (h.waiting item' hitem').put fun hid => ?_
    obtain ⟨-, row, hrow, rfl⟩ := h.waiting item' hitem'
    exact hfresh (List.mem_map.2 ⟨row, hrow, hid⟩)
  apart := h.apart
  ids := h.ids
  marks item' rest hst := by
    obtain ⟨row, hrow, hread⟩ := h.marks item' rest hst
    have hne : row.id ≠ item.id := fun hid => hfresh (List.mem_map.2 ⟨row, hrow, hid⟩)
    exact ⟨row, ObjectStore.mem_put.2 (.inr ⟨hrow, hne⟩), hread⟩

/-- While a run is under way, another call keeps it so and starts no run. -/
theorem OneRun.others (h : OneRun hook m p.state stages) (hok : OfHook hook m p (.resume k c))
    (hk : p.calls[k]? = some ⟨call, stage.task⟩) (hstage : stages[k]? = some (call, stage))
    (hmoves : Moves k c p.state stage stage' s') {other : Stage τ} {st : ReplayStage τ}
    (hj : stages[j]? = some (call', other)) (hne : j ≠ k) (hst : st ∈ other.underWay) :
    (s'.replayingRef hook = true ∧ st.Current s') ∧ stage'.underWay = none := by
  obtain ⟨hflag, hcurrent⟩ := h.busy j call' other hj st hst
  have hidle : ∀ st', st' ∉ stage.underWay := fun st' hst' =>
    hne (h.alone j k _ _ _ _ hj hstage st hst st' hst')
  cases hmoves with
  | name | draw | date | addThrows | discardThrows | fetch | fetchEnds | requeueThrows | busy =>
    exact ⟨⟨hflag, hcurrent⟩, rfl⟩
  | add item hfresh hthrown => exact ⟨⟨hflag, hcurrent.add hfresh⟩, rfl⟩
  | enter hfree =>
    obtain ⟨hof, hhook⟩ := h.of _ _ _ hstage
    cases hof
    rw [hhook _ rfl] at hfree
    cases hfree.symm.trans hflag
  | discard id hthrown => cases (hok _ hk _ rfl).symm.trans hflag
  | requeue item hthrown =>
    obtain ⟨⟨id, resolution, rfl⟩, -⟩ := h.of _ _ _ hstage
    cases (hok _ hk _ rfl hthrown rfl).1.symm.trans hflag
  | _ => exact absurd rfl (hidle _)

theorem OneRun.step (h : OneRun hook m p.state stages) (hok : OfHook hook m p (.resume k c))
    (hk : p.calls[k]? = some ⟨call, stage.task⟩) (hstage : stages[k]? = some (call, stage))
    (hmoves : Moves k c p.state stage stage' s') :
    OneRun hook m s' (stages.set k (call, stage')) := by
  obtain ⟨hof, hhook⟩ := h.of _ _ _ hstage
  refine ⟨fun j call' other hj => ?_, fun j call' other hj st hst => ?_, ?_⟩
  · rcases getElem?_set_cases hj with ⟨rfl, rfl, rfl⟩ | ⟨-, hj⟩
    · exact ⟨hmoves.of hof, hhook⟩
    · exact h.of j call' other hj
  · rcases getElem?_set_cases hj with ⟨rfl, rfl, rfl⟩ | ⟨hne, hj⟩
    · exact hmoves.underWay hof hhook (h.busy _ _ _ hstage) st hst
    · exact (h.others hok hk hstage hmoves hj hne hst).1
  · intro j l call₁ call₂ stage₁ stage₂ hj hl st₁ hst₁ st₂ hst₂
    rcases getElem?_set_cases hj with ⟨rfl, rfl, rfl⟩ | ⟨hne, hj'⟩
    · rcases getElem?_set_cases hl with ⟨rfl, -, -⟩ | ⟨hne', hl'⟩
      · rfl
      · cases (h.others hok hk hstage hmoves hl' hne' hst₂).2.symm.trans hst₁
    · rcases getElem?_set_cases hl with ⟨rfl, rfl, rfl⟩ | ⟨-, hl'⟩
      · cases (h.others hok hk hstage hmoves hj' hne hst₁).2.symm.trans hst₂
      · exact h.alone j l _ _ _ _ hj' hl' st₁ hst₁ st₂ hst₂

/-- A call that is made is not under way. -/
theorem QueueCall.stage_underWay (call : QueueCall τ) : call.stage.underWay = none := by
  cases call with
  | resolve id resolution => cases resolution <;> rfl
  | _ => rfl

theorem OneRun.start (h : OneRun hook m s stages) (hok : OfHook hook m p (.start call)) :
    OneRun hook m s (stages ++ [(call, call.stage)]) where
  of j call' stage hj := by
    rcases getElem?_concat_cases hj with hj | ⟨rfl, rfl⟩
    · exact h.of j call' stage hj
    · exact ⟨call'.stage_of, fun run hrun => (hok run hrun).1⟩
  busy j call' stage hj st hst := by
    rcases getElem?_concat_cases hj with hj | ⟨rfl, rfl⟩
    · exact h.busy j call' stage hj st hst
    · cases call'.stage_underWay.symm.trans hst
  alone j k call₁ call₂ stage₁ stage₂ hj hk st₁ hst₁ st₂ hst₂ := by
    rcases getElem?_concat_cases hj with hj | ⟨rfl, rfl⟩
    · rcases getElem?_concat_cases hk with hk | ⟨rfl, rfl⟩
      · exact h.alone j k _ _ _ _ hj hk st₁ hst₁ st₂ hst₂
      · cases call₂.stage_underWay.symm.trans hst₂
    · cases call₁.stage_underWay.symm.trans hst₁

/-- An item whose replay has thrown is no longer being replayed. -/
theorem QueuedMutation.afterError_status (maxAttempts : Nat) (item : QueuedMutation τ)
    (message : String) : (item.afterError maxAttempts message).status ≠ .replaying := by
  unfold QueuedMutation.afterError
  by_cases hconflict : isConflict message
  · rw [if_pos hconflict]
    exact fun h => by cases h
  · rw [if_neg hconflict]
    intro h
    dsimp only at h
    split at h <;> cases h

/-- A move of the hook goes by what is stored. -/
theorem OneRun.limited (h : OneRun hook m p.state stages) (hstaged : Staged p stages) :
    ∀ mv : QueueMove τ, OfHook hook m p mv → Limited m p mv
  | .start call, hok => fun run hrun => (hok run hrun).2
  | .environ _, _ => trivial
  | .resume k c, hok => by
    rintro ⟨call, rest⟩ hk a hact
    obtain ⟨stage, hstage, rfl⟩ := hstaged.stage_of hk
    have hbetween := hok _ hk a hact
    obtain ⟨hof, -⟩ := h.of k call stage hstage
    cases a with
    | put item =>
      intro hthrown
      refine ⟨fun hreplay hstatus => ?_, fun hresolve => (hbetween hthrown hresolve).2⟩
      rcases Stage.awaits hact with rfl | ⟨run, rest, rfl⟩ | ⟨run, item', message, rest, rfl, rfl⟩
      · obtain ⟨id, resolution, rfl⟩ := hof
        cases hreplay
      · exact (h.busy k call _ hstage _ rfl).2.marks item rest rfl
      · exact absurd hstatus (QueuedMutation.afterError_status _ _ _)
    | _ => trivial

/-! ## Runs -/

/-- The runs of one hook, as an argument about all stages. -/
def oneRunInvariant (hook m : Nat) : StagesInvariant (τ := τ) (OfHook hook m) where
  Inv := OneRun hook m
  start hok hinv := hinv.start hok
  step hok hk hstage hmoves hinv := hinv.step hok hk hstage hmoves

/-- **On a page with one hook a run marks what is stored.** In every run of the queue in which all
runs are of one hook, with at most `m` attempts each, and in which conflicts are resolved while no
run is under way and only for items that are stored: a run marks an item only while the item waits
in the store with the attempts that the run has read. -/
theorem one_hook (hook m : Nat) (ms : List (QueueMove τ))
    (hok : ∀ t ∈ (queue τ).trace (queue τ).init ms, OfHook hook m t.pre t.input) :
    ∀ t ∈ (queue τ).trace (queue τ).init ms, Limited m t.pre t.input := by
  intro t ht
  have hlast := hok t ht
  obtain ⟨ms₁, mv, ms₂, rfl, rfl⟩ := Machine.mem_trace.1 ht
  rw [Machine.step_pre, Machine.step_input] at hlast ⊢
  have hstaged : Staged (queue τ).init [] := rfl
  have hrun : OneRun hook m (queue τ).init.state [] :=
    ⟨fun k _ _ h => absurd h (no_stages k _), fun k _ _ h => absurd h (no_stages k _),
      fun j _ _ _ _ _ h => absurd h (no_stages j _)⟩
  obtain ⟨stages, hstages, hinv⟩ := (oneRunInvariant hook m).exec hstaged hrun
    fun t ht => hok t (Machine.mem_trace_append ht)
  exact OneRun.limited hinv hstages mv hlast

/-- The moves of a mutation whose first replay fails while another run of the hook finds the flag
set, and of a third run that replays it again. -/
def retriedOnPage : List (QueueMove String) :=
  enqueues 0 1 ++ replays 1 0 5 2 ++ replays 2 0 1 2 ++ [.resume 1 ⟨some "timeout", 2, 0⟩] ++
    List.replicate 3 (.resume 1 (calm 2)) ++ replays 3 0 10 3

/-- The mutation is sent twice, and both runs mark what is stored. -/
theorem one_hook_retried :
    ((queue String).exec (queue String).init retriedOnPage).state.passes ⟨1, 0, 0⟩ = 2 ∧
      ∀ t ∈ (queue String).trace (queue String).init retriedOnPage, Limited 3 t.pre t.input :=
  ⟨by decide +kernel, one_hook 0 3 retriedOnPage (by decide +kernel)⟩

end OfflineQueue

end Frontend

end InvoiceFi
