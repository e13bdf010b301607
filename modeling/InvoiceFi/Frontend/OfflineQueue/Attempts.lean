import InvoiceFi.Frontend.OfflineQueue.Once

/-!
# How often a mutation is sent

A run counts the attempts of an item in the copy that it has read, and writes that copy back. So the
limit of the attempts is one of the queue only if nobody has written the item in between. `AsRead`
asks that of every mark, and of every resolution of a conflict that no run is replaying the item.
Then no two runs hold an item (`Held`), and between two resolutions of its conflict a mutation is
sent at most `maxAttempts` times (`replays_limited`); one that waits for its conflict to be
resolved, or has used up its attempts, is not sent and stays as it is (`parked_waits`).

The argument is about the stages of all calls at once (`StagesInvariant`).
-/

namespace InvoiceFi

namespace Frontend

namespace OfflineQueue

variable {τ : Type}

/-! ## All stages at once -/

/-- The calls, each with a stage. -/
abbrev Stages (τ : Type) := List (QueueCall τ × Stage τ)

/-- The calls that have been made are at these stages. -/
def Staged (p : Tabs τ) (stages : Stages τ) : Prop :=
  p.calls = stages.map fun x => ⟨x.1, x.2.task⟩

variable {k j : Nat} {c : Choice} {s s' : Store τ} {p : Tabs τ} {stages : Stages τ}
  {call call' : QueueCall τ} {stage stage' other : Stage τ} {id : ItemId}
  {item item' : QueuedMutation τ} {Ok : Tabs τ → QueueMove τ → Prop}

theorem Staged.get (h : Staged p stages) (hk : stages[k]? = some (call, stage)) :
    p.calls[k]? = some ⟨call, stage.task⟩ := by
  rw [h, List.getElem?_map, hk]
  rfl

/-- A call that waits is at a stage. -/
theorem Staged.stage_of (h : Staged p stages) {rest : Task τ (Option (QueuedMutation τ))}
    (hk : p.calls[k]? = some ⟨call, rest⟩) :
    ∃ stage, stages[k]? = some (call, stage) ∧ rest = stage.task := by
  rw [h, List.getElem?_map] at hk
  obtain ⟨⟨call', stage⟩, hstage, heq⟩ := Option.map_eq_some_iff.1 hk
  cases heq
  exact ⟨stage, hstage, rfl⟩

/-- The stages after a step. -/
theorem getElem?_set_cases (h : (stages.set k (call, stage))[j]? = some (call', stage')) :
    (j = k ∧ call' = call ∧ stage' = stage) ∨ (j ≠ k ∧ stages[j]? = some (call', stage')) := by
  rcases eq_or_ne j k with rfl | hne
  · have hlt : j < (stages.set j (call, stage)).length := (List.getElem?_eq_some_iff.1 h).1
    rw [List.length_set] at hlt
    rw [List.getElem?_set_self hlt] at h
    cases h
    exact .inl ⟨rfl, rfl, rfl⟩
  · rw [List.getElem?_set_ne hne.symm] at h
    exact .inr ⟨hne, h⟩

/-- The stages after a call has been made. -/
theorem getElem?_concat_cases
    (h : (stages ++ [(call, stage)])[j]? = some (call', stage')) :
    stages[j]? = some (call', stage') ∨ (call' = call ∧ stage' = stage) := by
  rcases lt_or_ge j stages.length with hlt | hge
  · rw [List.getElem?_append_left hlt] at h
    exact .inl h
  · rw [List.getElem?_append_right hge] at h
    cases List.mem_singleton.1 (List.mem_of_getElem? h)
    exact .inr ⟨rfl, rfl⟩

theorem no_stages (k : Nat) (x : QueueCall τ × Stage τ) : ([] : Stages τ)[k]? ≠ some x := by
  rintro ⟨⟩

/-- An invariant of the store and of the stages of all calls, for the runs whose moves all meet
`Ok`. -/
structure StagesInvariant (Ok : Tabs τ → QueueMove τ → Prop) where
  Inv : Store τ → Stages τ → Prop
  start : ∀ {p : Tabs τ} {stages : Stages τ} {call : QueueCall τ}, Ok p (.start call) →
    Inv p.state stages → Inv p.state (stages ++ [(call, call.stage)])
  step : ∀ {p : Tabs τ} {stages : Stages τ} {k : Nat} {c : Choice} {call : QueueCall τ}
    {stage stage' : Stage τ} {s' : Store τ}, Ok p (.resume k c) →
    p.calls[k]? = some ⟨call, stage.task⟩ → stages[k]? = some (call, stage) →
    Moves k c p.state stage stage' s' → Inv p.state stages →
    Inv s' (stages.set k (call, stage'))

/-- The invariant is kept by every run, from wherever it holds. -/
theorem StagesInvariant.exec (o : StagesInvariant Ok) (hp : Staged p stages)
    (hinv : o.Inv p.state stages) {ms : List (QueueMove τ)}
    (hok : ∀ t ∈ (queue τ).trace p ms, Ok t.pre t.input) :
    ∃ stages', Staged ((queue τ).exec p ms) stages' ∧
      o.Inv ((queue τ).exec p ms).state stages' := by
  induction ms using List.reverseRecOn with
  | nil => exact ⟨stages, hp, hinv⟩
  | append_singleton ms m ih =>
    have hlast := hok _ ((queue τ).step_mem_trace p ms m [])
    rw [Machine.step_pre, Machine.step_input] at hlast
    obtain ⟨stages, hp, hinv⟩ := ih fun t ht => hok t (Machine.mem_trace_append ht)
    rw [Machine.exec_concat]
    generalize (queue τ).exec p ms = p at *
    change ∃ stages', Staged ((offlineQueue τ).move m p) stages' ∧
      o.Inv ((offlineQueue τ).move m p).state stages'
    rcases Service.move_cases (offlineQueue τ) m p with ⟨call, rfl, hmove⟩ |
      ⟨k, c, call, a, f, rfl, hk, hmove⟩ | ⟨e, rfl, hmove⟩ | ⟨k, c, -, -, hmove⟩
    · rw [hmove]
      have hinv' := o.start hlast hinv
      refine ⟨stages ++ [(call, call.stage)], ?_, hinv'⟩
      rw [Staged, hp, List.map_append]
      exact congrArg (fun q => _ ++ [Call.mk call q]) (main_eq_task call)
    · obtain ⟨stage, hstage, htask⟩ := hp.stage_of hk
      obtain ⟨stage', hmoves, hnext⟩ := Stage.advance htask
      rw [htask] at hk
      rw [hmove]
      refine ⟨stages.set k (call, stage'), ?_, o.step hlast hk hstage hmoves hinv⟩
      change p.calls.set k ⟨call, f (perform k a c p.state).1⟩ = _
      rw [hnext, hp, List.map_set]
    · cases e
    · rw [hmove]
      exact ⟨stages, hp, hinv⟩

/-! ## The condition -/

/-- The marked item is stored as the run has read it: it waits, with one attempt less. -/
def Store.AsRead (s : Store τ) (item : QueuedMutation τ) : Prop :=
  ∃ row ∈ s.mutations.rows, row.id = item.id ∧ row.pending = true ∧ row.attempts + 1 = item.attempts

instance (s : Store τ) (item : QueuedMutation τ) : Decidable (s.AsRead item) :=
  inferInstanceAs (Decidable (∃ row ∈ s.mutations.rows, _))

/-- A run marks an item as it is stored, and a conflict is resolved while no run is replaying its
item. -/
def ActAsRead (s : Store τ) (call : QueueCall τ) (thrown : Option String) : Act τ → Prop
  | .put item => thrown = none →
    (call.isReplay = true → item.status = .replaying → s.AsRead item) ∧
      (call.isReplay = false → s.Free item.id)
  | _ => True

instance (s : Store τ) (call : QueueCall τ) (thrown : Option String) :
    (a : Act τ) → Decidable (ActAsRead s call thrown a)
  | .put item => inferInstanceAs (Decidable (_ → (_ → _ → s.AsRead item) ∧ (_ → s.Free item.id)))
  | .now | .random | .add _ | .getAll | .get _ | .enter _ | .leave _ | .callServer _
  | .awaitServer _ | .delete _ | .discard _ | .onSuccess _ | .onReplaySuccess _ | .onReplayError ..
  | .onConflict .. => inferInstanceAs (Decidable True)

/-- The run that a call makes. -/
def QueueCall.run? : QueueCall τ → Option Run
  | .replay run => some run
  | _ => none

/-- The move goes by what is stored, and a run that it starts has at most `m` attempts. -/
def Limited (m : Nat) (p : Tabs τ) : QueueMove τ → Prop
  | .start call => ∀ run ∈ call.run?, run.maxAttempts ≤ m
  | .resume k c => ∀ call ∈ p.calls[k]?, ∀ a ∈ nextAct call.rest,
    ActAsRead p.state call.input c.thrown a
  | .environ _ => True

instance (m : Nat) (p : Tabs τ) : (mv : QueueMove τ) → Decidable (Limited m p mv)
  | .start call => inferInstanceAs (Decidable (∀ run ∈ call.run?, run.maxAttempts ≤ m))
  | .resume k _ => inferInstanceAs (Decidable (∀ call ∈ p.calls[k]?, _))
  | .environ _ => inferInstanceAs (Decidable True)

/-- The id of the item that an action puts. -/
def Act.puts? : Act τ → Option ItemId
  | .put item => some item.id
  | _ => none

/-- The move puts the item back for its conflict to be resolved. -/
def Requeues (id : ItemId) (p : Tabs τ) : QueueMove τ → Prop
  | .resume k c => c.thrown = none ∧
    ∃ call ∈ p.calls[k]?, call.input.isReplay = false ∧ (nextAct call.rest).bind Act.puts? = some id
  | _ => False

instance (id : ItemId) (p : Tabs τ) : (mv : QueueMove τ) → Decidable (Requeues id p mv)
  | .resume k c => inferInstanceAs (Decidable (c.thrown = none ∧ ∃ call ∈ p.calls[k]?, _))
  | .start _ | .environ _ => inferInstanceAs (Decidable False)

/-! ## What a run holds -/

/-- The item that a run has marked, as long as it may send it or write it. -/
def ReplayStage.inHand : ReplayStage τ → Option (QueuedMutation τ)
  | .calling item _ | .awaiting item _ | .succeeding item _ | .deleting item _
  | .notifying item _ | .restoring item _ _ => some item
  | .entering | .reading | .taking .. | .storing .. | .reporting .. | .leaving _ => none

/-- The item that a call holds. -/
def Stage.inHand : Stage τ → Option (QueuedMutation τ)
  | .replaying _ stage => stage.inHand
  | _ => none

/-- The item is marked, with at most `m` attempts. -/
structure QueuedMutation.Marked (m : Nat) (item : QueuedMutation τ) : Prop where
  status : item.status = .replaying
  pos : 0 < item.attempts
  le : item.attempts ≤ m

/-- A run takes an item that has attempts to go, and what it stores or holds is marked. -/
def ReplayStage.Counts (maxAttempts : Nat) : ReplayStage τ → Prop
  | .taking item _ => item.attempts < maxAttempts
  | .storing item _ => item.Marked maxAttempts
  | stage => ∀ item ∈ stage.inHand, item.Marked maxAttempts

/-- A run has at most `m` attempts, and counts them. -/
def Stage.Counts (m : Nat) : Stage τ → Prop
  | .replaying run stage => run.maxAttempts ≤ m ∧ stage.Counts run.maxAttempts
  | _ => True

theorem ReplayStage.next_counts (maxAttempts : Nat) (items : List (QueuedMutation τ)) :
    (next maxAttempts items).Counts maxAttempts := by
  induction items with
  | nil => exact nofun
  | cons item rest ih =>
    rw [next]
    split
    · exact ih
    · next hlt => exact Nat.lt_of_not_le hlt

/-- A run that goes on with its loop holds nothing. -/
theorem ReplayStage.next_free (run : Run) (maxAttempts : Nat) (items : List (QueuedMutation τ)) :
    (∀ run' item rest, Stage.replaying run (next maxAttempts items) ≠
      .replaying run' (.calling item rest)) ∧
    ∀ item, item ∉ (Stage.replaying run (next maxAttempts items)).inHand := by
  rcases next_cases maxAttempts items with h | ⟨item, rest, h⟩ <;> rw [h] <;> exact ⟨nofun, nofun⟩

/-- A step of a run keeps counting. -/
theorem Moves.counts {m : Nat} (h : Moves k c s stage stage' s') (hcounts : stage.Counts m) :
    stage'.Counts m := by
  cases h with
  | take run item rest =>
    exact ⟨hcounts.1, rfl, Nat.succ_pos _, Nat.succ_le_of_lt hcounts.2⟩
  | store run item rest hok =>
    refine ⟨hcounts.1, ?_⟩
    rintro item' ⟨⟩
    exact hcounts.2
  | call | resolve | reject | succeed | succeedThrows | delete | deleteThrows | notifyThrows =>
    exact ⟨hcounts.1, hcounts.2⟩
  | read run hok | notify run item rest | report run item message rest =>
    exact ⟨hcounts.1, ReplayStage.next_counts _ _⟩
  | enter | readThrows | storeThrows | restore | restoreThrows | reportThrows =>
    exact ⟨hcounts.1, nofun⟩
  | _ => trivial

/-- A step lets a run hold an item by marking it, or the run has held it before and no row is
written. -/
theorem Moves.held_cases (h : Moves k c s stage stage' s') :
    (∃ run item rest, stage = .replaying run (.storing item rest) ∧
      stage' = .replaying run (.calling item rest) ∧ c.thrown = none ∧ s' = s.put k item) ∨
    (∀ run item rest, stage' ≠ .replaying run (.calling item rest)) ∧
      ∀ item ∈ stage'.inHand, item ∈ stage.inHand ∧
        ∀ row ∈ s'.mutations.rows, row ∈ s.mutations.rows := by
  cases h with
  | store run item rest hok => exact .inl ⟨run, item, rest, rfl, rfl, hok, rfl⟩
  | call | resolve | reject | succeed | succeedThrows | deleteThrows | notifyThrows =>
    exact .inr ⟨nofun, fun item hitem => ⟨hitem, fun _ h => h⟩⟩
  | delete run item rest hok =>
    exact .inr ⟨nofun, fun item hitem =>
      ⟨hitem, fun row hrow => (ObjectStore.mem_delete.1 hrow).1⟩⟩
  | read run hok | notify run item rest | report run item message rest =>
    obtain ⟨hcalling, hheld⟩ := ReplayStage.next_free run run.maxAttempts _
    exact .inr ⟨hcalling, fun item hitem => absurd hitem (hheld item)⟩
  | _ => exact .inr ⟨nofun, nofun⟩

/-- No two runs hold the same item, and an item that a run holds is stored as the run has marked it,
if at all. -/
structure Held (m : Nat) (s : Store τ) (stages : Stages τ) : Prop where
  stored : ∀ row ∈ s.mutations.rows, row.id ∈ s.order
  of : ∀ (k : Nat) (call : QueueCall τ) (stage : Stage τ), stages[k]? = some (call, stage) →
    stage.Of call
  counts : ∀ (k : Nat) (call : QueueCall τ) (stage : Stage τ), stages[k]? = some (call, stage) →
    stage.Counts m
  locked : ∀ (k : Nat) (call : QueueCall τ) (stage : Stage τ), stages[k]? = some (call, stage) →
    ∀ item ∈ stage.inHand, item.id ∈ s.order ∧
      ∀ row ∈ s.mutations.rows, row.id = item.id → row.toQueuedMutation = item
  unique : ∀ (j k : Nat) (call call' : QueueCall τ) (stage stage' : Stage τ),
    stages[j]? = some (call, stage) → stages[k]? = some (call', stage') →
    ∀ item ∈ stage.inHand, ∀ item' ∈ stage'.inHand, item.id = item'.id → j = k

variable {m : Nat}

theorem Stage.Counts.marked (h : stage.Counts m) (hitem : item ∈ stage.inHand) : item.Marked m := by
  cases stage with
  | replaying run st =>
    obtain ⟨hrun, hst⟩ := h
    have hmarked : item.Marked run.maxAttempts := by
      cases st with
      | calling | awaiting | succeeding | deleting | notifying | restoring => exact hst item hitem
      | _ => cases hitem
    exact ⟨hmarked.status, hmarked.pos, hmarked.le.trans hrun⟩
  | _ => cases hitem

/-- An item that a run holds is not waiting. -/
theorem Held.ne_asRead (h : Held m s stages) (hk : stages[k]? = some (call, stage))
    (hitem : item ∈ stage.inHand) (hread : s.AsRead item') : item'.id ≠ item.id := by
  intro hid
  obtain ⟨row, hrow, hid', hpending, -⟩ := hread
  have hsame := (h.locked k call stage hk item hitem).2 row hrow (hid'.trans hid)
  rw [hsame, QueuedMutation.pending, ((h.counts k call stage hk).marked hitem).status] at hpending
  exact absurd hpending (by decide)

/-- An item that a run holds is not free. -/
theorem Held.ne_free (h : Held m s stages) (hk : stages[k]? = some (call, stage))
    (hitem : item ∈ stage.inHand) (hfree : s.Free id) : id ≠ item.id := by
  intro hid
  obtain ⟨row, hrow, hid', hstatus⟩ := hfree
  have hsame := (h.locked k call stage hk item hitem).2 row hrow (hid'.trans hid)
  rw [hsame] at hstatus
  exact hstatus ((h.counts k call stage hk).marked hitem).status

theorem QueuedMutation.afterError_attempts (maxAttempts : Nat) (item : QueuedMutation τ)
    (message : String) : (item.afterError maxAttempts message).attempts = item.attempts := by
  unfold QueuedMutation.afterError
  split <;> rfl

/-- What a call puts: an item that no run is replaying, for its conflict to be resolved, an item
that it marks as it is stored, or the item that it holds. -/
theorem put_cases (hok : Limited m p (.resume k c)) (hk : p.calls[k]? = some ⟨call, stage.task⟩)
    (hof : stage.Of call) (hcounts : stage.Counts m) (hthrown : c.thrown = none)
    (hact : nextAct stage.task = some (.put item)) :
    (call.isReplay = false ∧ p.state.Free item.id) ∨
      (p.state.AsRead item ∧ item.attempts ≤ m) ∨
      ∃ item' ∈ stage.inHand, item.id = item'.id ∧ item.attempts = item'.attempts := by
  obtain ⟨hmark, hfree⟩ := hok _ hk _ hact hthrown
  rcases Stage.awaits hact with rfl | ⟨run, rest, rfl⟩ | ⟨run, item', message, rest, rfl, rfl⟩
  · obtain ⟨id, resolution, rfl⟩ := hof
    exact .inl ⟨rfl, hfree rfl⟩
  · cases hof
    exact .inr (.inl ⟨hmark rfl hcounts.2.status, hcounts.2.le.trans hcounts.1⟩)
  · exact .inr (.inr ⟨item', rfl, QueuedMutation.afterError_id _ _ _,
      QueuedMutation.afterError_attempts _ _ _⟩)

/-- What a run holds is written by no other call. -/
theorem Held.alone (h : Held m p.state stages) (hok : Limited m p (.resume k c))
    (hfresh : FreshItems p) (hk : p.calls[k]? = some ⟨call, stage.task⟩)
    (hstage : stages[k]? = some (call, stage)) (hmoves : Moves k c p.state stage stage' s')
    (hj : stages[j]? = some (call', other)) (hitem : item ∈ other.inHand) (hne : j ≠ k) :
    ∀ row ∈ s'.mutations.rows, row.id = item.id → row ∈ p.state.mutations.rows := by
  intro row hrow hid
  rcases hmoves.rows_cases with ⟨-, hrows⟩ | ⟨item', rfl, rfl⟩ | ⟨item', hact, hthrown, rfl⟩
  · exact hrows row hrow
  · rcases ObjectStore.mem_put.1 hrow with rfl | ⟨hold, -⟩
    · have hmem := (h.locked j call' other hj item hitem).1
      rw [← hid] at hmem
      exact absurd hmem (hfresh k call item' hk)
    · exact hold
  · rcases ObjectStore.mem_put.1 hrow with rfl | ⟨hold, -⟩
    · rcases put_cases hok hk (h.of k call stage hstage) (h.counts k call stage hstage) hthrown
        hact with ⟨-, hfree⟩ | ⟨hread, -⟩ | ⟨held, hheld, hid', -⟩
      · exact absurd hid (h.ne_free hj hitem hfree)
      · exact absurd hid (h.ne_asRead hj hitem hread)
      · have hsame : item.id = held.id := hid.symm.trans hid'
        exact absurd (h.unique j k _ _ _ _ hj hstage item hitem held hheld hsame) hne
    · exact hold

/-- A call that is not a run puts an item back. -/
theorem requeues (hk : p.calls[k]? = some ⟨call, stage.task⟩) (hthrown : c.thrown = none)
    (hreplay : call.isReplay = false) (hact : nextAct stage.task = some (.put item))
    (hid : item.id = id) : Requeues id p (.resume k c) := by
  refine ⟨hthrown, _, hk, hreplay, ?_⟩
  rw [hact]
  exact congrArg some hid

/-- A step keeps this. -/
theorem Held.step (h : Held m p.state stages) (hok : Limited m p (.resume k c))
    (hfresh : FreshItems p) (hk : p.calls[k]? = some ⟨call, stage.task⟩)
    (hstage : stages[k]? = some (call, stage)) (hmoves : Moves k c p.state stage stage' s') :
    Held m s' (stages.set k (call, stage')) := by
  obtain ⟨ids, horder⟩ := hmoves.grows.order
  have hmono : ∀ id ∈ p.state.order, id ∈ s'.order := by
    intro id hid
    rw [horder]
    exact List.mem_append_left _ hid
  -- what the call holds after the step, and how it has come to hold it
  have hmark : ∀ item ∈ stage'.inHand,
      p.state.AsRead item ∧ s' = p.state.put k item ∨
      item ∈ stage.inHand ∧ ∀ row ∈ s'.mutations.rows, row ∈ p.state.mutations.rows := by
    intro item hitem
    rcases hmoves.held_cases with ⟨run, item', rest, rfl, rfl, hthrown, hs'⟩ | ⟨-, hheld⟩
    · cases hitem
      cases h.of k _ _ hstage
      have hstatus := (h.counts k _ _ hstage).2.status
      exact .inl ⟨(hok _ hk _ rfl hthrown).1 rfl hstatus, hs'⟩
    · exact .inr (hheld item hitem)
  refine ⟨fun row hrow => ?_, ?_, ?_, ?_, ?_⟩
  · rcases hmoves.rows_cases with ⟨-, hrows⟩ | ⟨item, rfl, rfl⟩ | ⟨item, hact, hthrown, rfl⟩
    · exact hmono _ (h.stored row (hrows row hrow))
    · rcases ObjectStore.mem_put.1 hrow with rfl | ⟨hold, -⟩
      · exact List.mem_append_right _ (List.mem_singleton.2 rfl)
      · exact hmono _ (h.stored row hold)
    · rcases ObjectStore.mem_put.1 hrow with rfl | ⟨hold, -⟩
      · rcases put_cases hok hk (h.of _ _ _ hstage) (h.counts _ _ _ hstage) hthrown hact with
          ⟨-, old, hold, hid, -⟩ | ⟨⟨old, hold, hid, -⟩, -⟩ | ⟨held, hheld, hid, -⟩
        · exact hid ▸ h.stored old hold
        · exact hid ▸ h.stored old hold
        · exact hid ▸ (h.locked _ _ _ hstage held hheld).1
      · exact h.stored row hold
  · intro j call' other hj
    rcases getElem?_set_cases hj with ⟨rfl, rfl, rfl⟩ | ⟨-, hj⟩
    · exact hmoves.of (h.of _ _ _ hstage)
    · exact h.of j call' other hj
  · intro j call' other hj
    rcases getElem?_set_cases hj with ⟨rfl, rfl, rfl⟩ | ⟨-, hj⟩
    · exact hmoves.counts (h.counts _ _ _ hstage)
    · exact h.counts j call' other hj
  · intro j call' other hj item hitem
    rcases getElem?_set_cases hj with ⟨rfl, rfl, rfl⟩ | ⟨hne, hj⟩
    · rcases hmark item hitem with ⟨⟨row, hrow, hid, -⟩, rfl⟩ | ⟨hheld, hrows⟩
      · refine ⟨hid ▸ h.stored row hrow, fun row' hrow' hid' => ?_⟩
        rcases ObjectStore.mem_put.1 hrow' with rfl | ⟨-, hother⟩
        · rfl
        · exact absurd hid' hother
      · obtain ⟨hmem, hlocked⟩ := h.locked _ _ _ hstage item hheld
        exact ⟨hmono _ hmem, fun row hrow hid => hlocked row (hrows row hrow) hid⟩
    · obtain ⟨hmem, hlocked⟩ := h.locked _ _ _ hj item hitem
      refine ⟨hmono _ hmem, fun row hrow hid => hlocked row ?_ hid⟩
      exact h.alone hok hfresh hk hstage hmoves hj hitem hne row hrow hid
  · -- another call that holds the item has held it before, and the item is not waiting
    have hother : ∀ j call' other, stages[j]? = some (call', other) → j ≠ k →
        ∀ item ∈ stage'.inHand, ∀ item' ∈ other.inHand, item.id ≠ item'.id := by
      intro j call' other hj hne item hitem item' hitem'
      rcases hmark item hitem with ⟨hread, -⟩ | ⟨hheld, -⟩
      · exact h.ne_asRead hj hitem' hread
      · exact fun hid =>
          hne (h.unique j k _ _ _ _ hj hstage item' hitem' item hheld hid.symm)
    intro j l call₁ call₂ stage₁ stage₂ hj hl item hitem item' hitem' hid
    rcases getElem?_set_cases hj with ⟨rfl, rfl, rfl⟩ | ⟨hne, hj'⟩
    · rcases getElem?_set_cases hl with ⟨rfl, -, -⟩ | ⟨hne', hl'⟩
      · rfl
      · exact absurd hid (hother l _ _ hl' hne' item hitem item' hitem')
    · rcases getElem?_set_cases hl with ⟨rfl, rfl, rfl⟩ | ⟨-, hl'⟩
      · exact absurd hid.symm (hother j _ _ hj' hne item' hitem' item hitem)
      · exact h.unique j l _ _ _ _ hj' hl' item hitem item' hitem' hid

/-- A call that is made holds nothing. -/
theorem QueueCall.stage_inHand (call : QueueCall τ) : call.stage.inHand = none := by
  cases call with
  | resolve id resolution => cases resolution <;> rfl
  | _ => rfl

theorem Limited.counts (h : Limited m p (.start call)) : call.stage.Counts m := by
  cases call with
  | enqueue label payload => trivial
  | replay run => exact ⟨h run rfl, nofun⟩
  | resolve id resolution => cases resolution <;> trivial

theorem Held.start (h : Held m s stages) (hok : Limited m p (.start call)) :
    Held m s (stages ++ [(call, call.stage)]) where
  stored := h.stored
  of j call' stage hj := by
    rcases getElem?_concat_cases hj with hj | ⟨rfl, rfl⟩
    · exact h.of j call' stage hj
    · exact call'.stage_of
  counts j call' stage hj := by
    rcases getElem?_concat_cases hj with hj | ⟨rfl, rfl⟩
    · exact h.counts j call' stage hj
    · exact hok.counts
  locked j call' stage hj item hitem := by
    rcases getElem?_concat_cases hj with hj | ⟨rfl, rfl⟩
    · exact h.locked j call' stage hj item hitem
    · cases call'.stage_inHand.symm.trans hitem
  unique j k call₁ call₂ stage₁ stage₂ hj hk item hitem item' hitem' hid := by
    rcases getElem?_concat_cases hj with hj | ⟨rfl, rfl⟩
    · rcases getElem?_concat_cases hk with hk | ⟨rfl, rfl⟩
      · exact h.unique j k _ _ _ _ hj hk item hitem item' hitem' hid
      · cases call₂.stage_inHand.symm.trans hitem'
    · cases call₁.stage_inHand.symm.trans hitem

/-! ## How often an item has been sent -/

/-- How often the item has been passed to the server. -/
def Store.passes (s : Store τ) (id : ItemId) : Nat := s.passed.countP fun x => x.2 = id

/-- A step passes on the item that the run holds, or nothing. -/
theorem Moves.passed_cases (h : Moves k c s stage stage' s') :
    (∃ run item rest, stage = .replaying run (.calling item rest) ∧
      stage' = .replaying run (.awaiting item rest) ∧
      s' = { s with passed := (k, item.id) :: s.passed }) ∨ s'.passed = s.passed := by
  cases h with
  | call run item rest => exact .inl ⟨run, item, rest, rfl, rfl, rfl⟩
  | _ => exact .inr rfl

/-- Since the item had been passed on `base` times, it has been passed on at most as often as its
attempts say, in the store and in the hands of a run, and less often as long as the server call of
its last attempt has not left. -/
structure Counted (m : Nat) (id : ItemId) (base : Nat) (s : Store τ) (stages : Stages τ) :
    Prop where
  total : s.passes id ≤ base + m
  fresh : id ∉ s.order → s.passes id ≤ base
  rows : ∀ row ∈ s.mutations.rows, row.id = id → s.passes id ≤ base + row.attempts
  held : ∀ (k : Nat) (call : QueueCall τ) (stage : Stage τ), stages[k]? = some (call, stage) →
    ∀ item ∈ stage.inHand, item.id = id → s.passes id ≤ base + item.attempts
  calling : ∀ (k : Nat) (call : QueueCall τ) (run : Run) (item : QueuedMutation τ)
    (rest : List (QueuedMutation τ)),
    stages[k]? = some (call, .replaying run (.calling item rest)) → item.id = id →
    s.passes id < base + item.attempts

variable {base : Nat}

theorem Counted.start (h : Counted m id base s stages) :
    Counted m id base s (stages ++ [(call, call.stage)]) where
  total := h.total
  fresh := h.fresh
  rows := h.rows
  held j call' stage hj item hitem := by
    rcases getElem?_concat_cases hj with hj | ⟨rfl, rfl⟩
    · exact h.held j call' stage hj item hitem
    · cases call'.stage_inHand.symm.trans hitem
  calling j call' run item rest hj hid := by
    rcases getElem?_concat_cases hj with hj | ⟨rfl, hstage⟩
    · exact h.calling j call' run item rest hj hid
    · have hnone := call'.stage_inHand
      rw [← hstage] at hnone
      cases hnone

/-- The server call of an item leaves. -/
theorem Counted.pass {run : Run} {rest : List (QueuedMutation τ)}
    (h : Counted m item.id base s stages) (hheld : Held m s stages)
    (hstage : stages[k]? = some (call, .replaying run (.calling item rest)))
    (hs : s'.passes item.id = s.passes item.id + 1) (hrows : s'.mutations = s.mutations)
    (horder : s'.order = s.order) :
    Counted m item.id base s' (stages.set k (call, .replaying run (.awaiting item rest))) := by
  have hlt : s'.passes item.id ≤ base + item.attempts := by
    rw [hs]
    exact Nat.succ_le_of_lt (h.calling k call run item rest hstage rfl)
  have hmarked : item.Marked m := (hheld.counts _ _ _ hstage).marked rfl
  obtain ⟨hmem, hlocked⟩ := hheld.locked _ _ _ hstage item rfl
  -- no other call holds the item
  have hother : ∀ j call' stage, stages[j]? = some (call', stage) → j ≠ k →
      ∀ item' ∈ stage.inHand, item'.id ≠ item.id := by
    intro j call' stage hj hne item' hitem' hid
    exact hne (hheld.unique j k _ _ _ _ hj hstage item' hitem' item rfl hid)
  refine ⟨hlt.trans (Nat.add_le_add_left hmarked.le base), fun hnot => ?_, fun row hrow hid => ?_,
    fun j call' stage hj item' hitem' hid => ?_, fun j call' run' item' rest' hj hid => ?_⟩
  · exact absurd (horder ▸ hmem) hnot
  · rw [hlocked row (hrows ▸ hrow) hid]
    exact hlt
  · rcases getElem?_set_cases hj with ⟨rfl, rfl, rfl⟩ | ⟨hne, hj⟩
    · cases hitem'
      exact hlt
    · exact absurd hid (hother j call' stage hj hne item' hitem')
  · rcases getElem?_set_cases hj with ⟨-, -, hst⟩ | ⟨hne, hj⟩
    · cases hst
    · exact absurd hid (hother j call' _ hj hne item' rfl)

/-- A step that does not put the item back for its conflict to be resolved keeps the count. -/
theorem Counted.step (h : Counted m id base p.state stages) (hheld : Held m p.state stages)
    (hok : Limited m p (.resume k c)) (hnot : ¬ Requeues id p (.resume k c)) (hfresh : FreshItems p)
    (hk : p.calls[k]? = some ⟨call, stage.task⟩) (hstage : stages[k]? = some (call, stage))
    (hmoves : Moves k c p.state stage stage' s') :
    Counted m id base s' (stages.set k (call, stage')) := by
  obtain ⟨ids, horder⟩ := hmoves.grows.order
  -- the item that the call puts has been sent no more often than it says
  have hput : ∀ item, nextAct stage.task = some (.put item) → c.thrown = none → item.id = id →
      p.state.passes id ≤ base + item.attempts := by
    intro item hact hthrown hid
    rcases put_cases hok hk (hheld.of _ _ _ hstage) (hheld.counts _ _ _ hstage) hthrown hact with
      ⟨hreplay, -⟩ | ⟨⟨row, hrow, hid', -, hattempts⟩, -⟩ | ⟨item', hitem', hid', hattempts⟩
    · exact absurd (requeues hk hthrown hreplay hact hid) hnot
    · have hle := h.rows row hrow (hid'.trans hid)
      omega
    · rw [hattempts]
      exact h.held _ _ _ hstage item' hitem' (hid'.symm.trans hid)
  have hread : ∀ item, p.state.AsRead item → item.id = id →
      p.state.passes id < base + item.attempts := by
    rintro item ⟨row, hrow, hid', -, hattempts⟩ hid
    have hle := h.rows row hrow (hid'.trans hid)
    omega
  by_cases hpass : ∃ run item rest, stage = .replaying run (.calling item rest) ∧
      stage' = .replaying run (.awaiting item rest) ∧
      s' = { p.state with passed := (k, item.id) :: p.state.passed } ∧ item.id = id
  · obtain ⟨run, item, rest, rfl, rfl, rfl, rfl⟩ := hpass
    exact h.pass hheld hstage (List.countP_cons_of_pos (decide_eq_true rfl)) rfl rfl
  · have hsame : s'.passes id = p.state.passes id := by
      rcases hmoves.passed_cases with ⟨run, item, rest, hst, hst', hs'⟩ | hpassed
      · have hne : item.id ≠ id := fun hid => hpass ⟨run, item, rest, hst, hst', hs', hid⟩
        rw [hs']
        exact List.countP_cons_of_neg (by simpa using hne)
      · rw [Store.passes, hpassed, Store.passes]
    refine ⟨hsame ▸ h.total, fun hmem => ?_, fun row hrow hid => ?_,
      fun j call' stage₁ hj item hitem hid => ?_, fun j call' run item rest hj hid => ?_⟩
    · rw [hsame]
      refine h.fresh fun hold => hmem ?_
      rw [horder]
      exact List.mem_append_left _ hold
    · rw [hsame]
      rcases hmoves.rows_cases with ⟨-, hrows⟩ | ⟨item, rfl, rfl⟩ | ⟨item, hact, hthrown, rfl⟩
      · exact h.rows row (hrows row hrow) hid
      · rcases ObjectStore.mem_put.1 hrow with rfl | ⟨hold, -⟩
        · exact (h.fresh (hid ▸ hfresh k call item hk)).trans (Nat.le_add_right _ _)
        · exact h.rows row hold hid
      · rcases ObjectStore.mem_put.1 hrow with rfl | ⟨hold, -⟩
        · exact hput item hact hthrown hid
        · exact h.rows row hold hid
    · rw [hsame]
      rcases getElem?_set_cases hj with ⟨rfl, rfl, rfl⟩ | ⟨-, hj⟩
      · rcases hmoves.held_cases with ⟨run, item', rest, rfl, rfl, hthrown, -⟩ | ⟨-, hcases⟩
        · cases hitem
          exact hput item rfl hthrown hid
        · exact h.held _ _ _ hstage item (hcases item hitem).1 hid
      · exact h.held j call' stage₁ hj item hitem hid
    · rw [hsame]
      rcases getElem?_set_cases hj with ⟨rfl, rfl, rfl⟩ | ⟨-, hj⟩
      · rcases hmoves.held_cases with ⟨run', item', rest', rfl, hst, hthrown, -⟩ | ⟨hcalling, -⟩
        · cases hst
          cases hheld.of _ _ _ hstage
          have hstatus := (hheld.counts _ _ _ hstage).2.status
          exact hread item ((hok _ hk _ rfl hthrown).1 rfl hstatus) hid
        · exact absurd rfl (hcalling run item rest)
      · exact h.calling j call' run item rest hj hid

/-! ## Runs -/

/-- What holds of every run whose moves go by what is stored. -/
def heldInvariant (m : Nat) : StagesInvariant (τ := τ) fun p mv =>
    (Numbered p ∧ FreshItems p) ∧ Limited m p mv where
  Inv := Held m
  start hok hinv := hinv.start hok.2
  step hok hk hstage hmoves hinv := hinv.step hok.2 hok.1.2 hk hstage hmoves

/-- What holds of it from where the item has been passed on `base` times, until its conflict is
resolved. -/
def countedInvariant (m : Nat) (id : ItemId) (base : Nat) : StagesInvariant (τ := τ) fun p mv =>
    ((Numbered p ∧ FreshItems p) ∧ Limited m p mv) ∧ ¬ Requeues id p mv where
  Inv s stages := Held m s stages ∧ Counted m id base s stages
  start hok hinv := ⟨hinv.1.start hok.1.2, hinv.2.start⟩
  step hok hk hstage hmoves hinv :=
    ⟨hinv.1.step hok.1.2 hok.1.1.2 hk hstage hmoves,
      hinv.2.step hinv.1 hok.1.2 hok.2 hok.1.1.2 hk hstage hmoves⟩

/-- The state before a step of a run has its calls numbered. -/
theorem numbered_pre {ms₁ ms₂ : List (QueueMove τ)} (hp : p = (queue τ).exec (queue τ).init ms₁)
    {t : Step (Tabs τ) (QueueMove τ) Empty Unit} (ht : t ∈ (queue τ).trace p ms₂) :
    Numbered t.pre ∧ FreshItems t.pre := by
  obtain ⟨ms, mv, ms', -, rfl⟩ := Machine.mem_trace.1 ht
  rw [Machine.step_pre, hp, ← Machine.exec_append]
  exact numbered_exec (ms₁ ++ ms)

theorem held_exec {ms : List (QueueMove τ)}
    (hok : ∀ t ∈ (queue τ).trace (queue τ).init ms, Limited m t.pre t.input) :
    ∃ stages, Staged ((queue τ).exec (queue τ).init ms) stages ∧
      Held m ((queue τ).exec (queue τ).init ms).state stages := by
  have hstaged : Staged (queue τ).init [] := rfl
  have hheld : Held m (queue τ).init.state [] :=
    ⟨nofun, fun k _ _ h => absurd h (no_stages k _), fun k _ _ h => absurd h (no_stages k _),
      fun k _ _ h => absurd h (no_stages k _), fun j _ _ _ _ _ h => absurd h (no_stages j _)⟩
  have hinit : (queue τ).init = (queue τ).exec (queue τ).init [] := rfl
  exact (heldInvariant m).exec hstaged hheld fun t ht => ⟨numbered_pre hinit ht, hok t ht⟩

/-- **A mutation is sent at most as often as it has attempts.** In every run of the queue, with any
number of hooks and tabs and at most `m` attempts in each of their runs, in which a run marks an
item only while it is stored as the run has read it, and a conflict is resolved only while no run is
replaying the item: as long as no conflict of an item is resolved by putting it back, its server
call is made at most `m` times. -/
theorem replays_limited (m : Nat) (id : ItemId) (ms₁ ms₂ : List (QueueMove τ))
    (hok : ∀ t ∈ (queue τ).trace (queue τ).init (ms₁ ++ ms₂), Limited m t.pre t.input)
    (hnot : ∀ t ∈ (queue τ).trace ((queue τ).exec (queue τ).init ms₁) ms₂,
      ¬ Requeues id t.pre t.input) :
    ((queue τ).exec (queue τ).init (ms₁ ++ ms₂)).state.passes id ≤
      ((queue τ).exec (queue τ).init ms₁).state.passes id + m := by
  obtain ⟨stages, hstaged, hheld⟩ := held_exec fun t ht => hok t (Machine.mem_trace_append ht)
  have hcounted : Counted m id (((queue τ).exec (queue τ).init ms₁).state.passes id)
      ((queue τ).exec (queue τ).init ms₁).state stages := by
    refine ⟨Nat.le_add_right _ _, fun _ => Nat.le_refl _, fun row _ _ => Nat.le_add_right _ _,
      fun _ _ _ _ item _ _ => Nat.le_add_right _ _, fun k call run item rest hk _ => ?_⟩
    exact Nat.lt_add_of_pos_right ((hheld.counts k _ _ hk).marked rfl).pos
  rw [Machine.trace_append] at hok
  rw [Machine.exec_append]
  obtain ⟨stages', -, -, hafter⟩ := (countedInvariant m id _).exec hstaged ⟨hheld, hcounted⟩
    fun t ht => ⟨⟨numbered_pre rfl ht, hok t (List.mem_append_right _ ht)⟩, hnot t ht⟩
  exact hafter.total

/-- The moves of a mutation whose first replay fails, from its enqueuing on, and of a run of another
tab that replays it again. -/
def retriedMoves : List (QueueMove String) :=
  replays 1 0 5 2 ++ [.resume 1 ⟨some "timeout", 2, 0⟩] ++ List.replicate 3 (.resume 1 (calm 2)) ++
    replays 2 1 10 3

theorem replays_limited_retried :
    ((queue String).exec (queue String).init
        (enqueues 0 1 ++ retriedMoves)).state.passes ⟨1, 0, 0⟩ ≤
      ((queue String).exec (queue String).init (enqueues 0 1)).state.passes ⟨1, 0, 0⟩ + 3 :=
  replays_limited 3 ⟨1, 0, 0⟩ (enqueues 0 1) retriedMoves (by decide +kernel) (by decide +kernel)

/-! ## Items that wait -/

/-- The item waits for its conflict to be resolved, or has used up its attempts. -/
def QueuedMutation.Parked (m : Nat) (item : QueuedMutation τ) : Prop :=
  item.status = .conflict ∨ item.status ≠ .replaying ∧ m ≤ item.attempts

/-- The record is stored, or has been discarded since the store was `s₀`. -/
def Store.Keeps (s₀ s : Store τ) (row : Stored τ) : Prop :=
  row ∈ s.mutations.rows ∨ s₀.discarded.count row.id < s.discarded.count row.id ∧
    ∀ row' ∈ s.mutations.rows, row'.id ≠ row.id

/-- The record waits since the store was `s₀`: no run holds its item, which has not been passed on
from then on. -/
structure Waits (row : Stored τ) (s₀ s : Store τ) (stages : Stages τ) : Prop where
  passes : s.passes row.id = s₀.passes row.id
  order : row.id ∈ s.order
  free : ∀ (k : Nat) (call : QueueCall τ) (stage : Stage τ), stages[k]? = some (call, stage) →
    ∀ item ∈ stage.inHand, item.id ≠ row.id
  since : s₀.discarded.count row.id ≤ s.discarded.count row.id
  kept : s₀.Keeps s row

variable {row : Stored τ} {s₀ : Store τ}

/-- A run does not mark an item that is parked. -/
theorem Waits.ne_asRead (h : Waits row s₀ s stages) (hparked : row.Parked m)
    (hread : s.AsRead item) (hle : item.attempts ≤ m) : item.id ≠ row.id := by
  obtain ⟨row', hrow', hid', hpending, hattempts⟩ := hread
  intro hid
  rcases h.kept with hkept | ⟨-, hnone⟩
  · have hsame : row' = row := ObjectStore.eq_of_id hrow' hkept (hid'.trans hid)
    rw [hsame] at hpending hattempts
    rcases hparked with hconflict | ⟨-, hm⟩
    · rw [QueuedMutation.pending, hconflict] at hpending
      exact absurd hpending (by decide)
    · omega
  · exact hnone row' hrow' (hid'.trans hid)

theorem Waits.start (h : Waits row s₀ s stages) :
    Waits row s₀ s (stages ++ [(call, call.stage)]) where
  passes := h.passes
  order := h.order
  free j call' stage hj item hitem := by
    rcases getElem?_concat_cases hj with hj | ⟨rfl, rfl⟩
    · exact h.free j call' stage hj item hitem
    · cases call'.stage_inHand.symm.trans hitem
  since := h.since
  kept := h.kept

/-- A write to another item keeps the record, or that it has been discarded. -/
theorem Store.Keeps.put (h : s₀.Keeps s row) (hne : item.id ≠ row.id) :
    s₀.Keeps (s.put k item) row := by
  rcases h with hkept | ⟨hdiscarded, hnone⟩
  · exact .inl (ObjectStore.mem_put.2 (.inr ⟨hkept, hne.symm⟩))
  · refine .inr ⟨hdiscarded, fun row' hrow' => ?_⟩
    rcases ObjectStore.mem_put.1 hrow' with rfl | ⟨hold, -⟩
    · exact hne
    · exact hnone row' hold

/-- So does the deletion of another item. -/
theorem Store.Keeps.delete (h : s₀.Keeps s row) (hne : id ≠ row.id) :
    s₀.Keeps { s with mutations := s.mutations.delete id } row := by
  rcases h with hkept | ⟨hdiscarded, hnone⟩
  · exact .inl (ObjectStore.mem_delete.2 ⟨hkept, hne.symm⟩)
  · exact .inr ⟨hdiscarded, fun row' hrow' => hnone row' (ObjectStore.mem_delete.1 hrow').1⟩

/-- The item may be discarded. -/
theorem Store.Keeps.discard (h : s₀.Keeps s row)
    (hsince : s₀.discarded.count row.id ≤ s.discarded.count row.id) (id : ItemId) :
    s₀.Keeps { s with
      mutations := s.mutations.delete id
      discarded := id :: s.discarded } row := by
  rcases eq_or_ne id row.id with rfl | hne
  · refine .inr ⟨?_, fun row' hrow' => (ObjectStore.mem_delete.1 hrow').2⟩
    rw [List.count_cons_self]
    exact Nat.lt_succ_of_le hsince
  · rcases h.delete hne with hkept | ⟨hdiscarded, hnone⟩
    · exact .inl hkept
    · refine .inr ⟨?_, hnone⟩
      rw [List.count_cons_of_ne hne]
      exact hdiscarded

/-- A step that does not put the item back for its conflict to be resolved leaves it waiting. -/
theorem Waits.step (h : Waits row s₀ p.state stages) (hparked : row.Parked m)
    (hheld : Held m p.state stages) (hok : Limited m p (.resume k c))
    (hnot : ¬ Requeues row.id p (.resume k c)) (hfresh : FreshItems p)
    (hk : p.calls[k]? = some ⟨call, stage.task⟩) (hstage : stages[k]? = some (call, stage))
    (hmoves : Moves k c p.state stage stage' s') :
    Waits row s₀ s' (stages.set k (call, stage')) := by
  have hcounts := hheld.counts _ _ _ hstage
  have hput : ∀ item, nextAct stage.task = some (.put item) → c.thrown = none →
      item.id ≠ row.id := by
    intro item hact hthrown
    rcases put_cases hok hk (hheld.of _ _ _ hstage) hcounts hthrown hact with
      ⟨hreplay, -⟩ | ⟨hread, hle⟩ | ⟨item', hitem', hid', -⟩
    · exact fun hid => hnot (requeues hk hthrown hreplay hact hid)
    · exact h.ne_asRead hparked hread hle
    · exact hid' ▸ h.free _ _ _ hstage item' hitem'
  refine ⟨?_, ?_, fun j call' stage₁ hj item hitem => ?_,
    h.since.trans (hmoves.grows.discarded.sublist.count_le row.id), ?_⟩
  · rcases hmoves.passed_cases with ⟨run, item, rest, rfl, rfl, rfl⟩ | hpassed
    · have hne := h.free _ _ _ hstage item rfl
      rw [← h.passes]
      exact List.countP_cons_of_neg (by simpa using hne)
    · rw [Store.passes, hpassed]
      exact h.passes
  · obtain ⟨ids, horder⟩ := hmoves.grows.order
    rw [horder]
    exact List.mem_append_left _ h.order
  · rcases getElem?_set_cases hj with ⟨rfl, rfl, rfl⟩ | ⟨-, hj⟩
    · rcases hmoves.held_cases with ⟨run, item', rest, rfl, rfl, hthrown, -⟩ | ⟨-, hcases⟩
      · cases hitem
        exact hput item rfl hthrown
      · exact h.free _ _ _ hstage item (hcases item hitem).1
    · exact h.free j call' stage₁ hj item hitem
  · cases hmoves with
    | add item hnew hthrown =>
      have hne : item.id ≠ row.id := by
        intro hid
        exact hfresh k call item hk (hid ▸ h.order)
      exact h.kept.put hne
    | requeue item hthrown => exact h.kept.put (hput item rfl hthrown)
    | store run item rest hthrown => exact h.kept.put (hput item rfl hthrown)
    | restore run item message rest hthrown => exact h.kept.put (hput _ rfl hthrown)
    | discard id hthrown => exact h.kept.discard h.since id
    | delete run item rest hthrown => exact h.kept.delete (h.free _ _ _ hstage item rfl)
    | _ => exact h.kept

/-- What holds of every run while a record waits. -/
def waitsInvariant (m : Nat) (row : Stored τ) (hparked : row.Parked m) (s₀ : Store τ) :
    StagesInvariant (τ := τ) fun p mv =>
      ((Numbered p ∧ FreshItems p) ∧ Limited m p mv) ∧ ¬ Requeues row.id p mv where
  Inv s stages := Held m s stages ∧ Waits row s₀ s stages
  start hok hinv := ⟨hinv.1.start hok.1.2, hinv.2.start⟩
  step hok hk hstage hmoves hinv :=
    ⟨hinv.1.step hok.1.2 hok.1.1.2 hk hstage hmoves,
      hinv.2.step hparked hinv.1 hok.1.2 hok.2 hok.1.1.2 hk hstage hmoves⟩

/-- **A mutation in conflict waits, and so does one that has used up its attempts.** In such a run,
as long as its conflict is not resolved by putting it back, the server call of an item that is
stored in conflict or with `m` attempts is not made, and its record stays as it is unless it is
discarded meanwhile. -/
theorem parked_waits (m : Nat) (row : Stored τ) (ms₁ ms₂ : List (QueueMove τ))
    (hok : ∀ t ∈ (queue τ).trace (queue τ).init (ms₁ ++ ms₂), Limited m t.pre t.input)
    (hrow : row ∈ ((queue τ).exec (queue τ).init ms₁).state.mutations.rows)
    (hparked : row.Parked m)
    (hnot : ∀ t ∈ (queue τ).trace ((queue τ).exec (queue τ).init ms₁) ms₂,
      ¬ Requeues row.id t.pre t.input) :
    ((queue τ).exec (queue τ).init (ms₁ ++ ms₂)).state.passes row.id =
        ((queue τ).exec (queue τ).init ms₁).state.passes row.id ∧
      ((queue τ).exec (queue τ).init ms₁).state.Keeps
        ((queue τ).exec (queue τ).init (ms₁ ++ ms₂)).state row := by
  obtain ⟨stages, hstaged, hheld⟩ := held_exec fun t ht => hok t (Machine.mem_trace_append ht)
  have hwaits : Waits row ((queue τ).exec (queue τ).init ms₁).state
      ((queue τ).exec (queue τ).init ms₁).state stages := by
    refine ⟨rfl, hheld.stored row hrow, fun k call stage hk item hitem hid => ?_, Nat.le_refl _,
      .inl hrow⟩
    have hsame := (hheld.locked k call stage hk item hitem).2 row hrow hid.symm
    have hstatus := ((hheld.counts k call stage hk).marked hitem).status
    rw [← hsame] at hstatus
    rcases hparked with hconflict | ⟨hnot, -⟩
    · cases hconflict.symm.trans hstatus
    · exact hnot hstatus
  rw [Machine.trace_append] at hok
  rw [Machine.exec_append]
  obtain ⟨stages', -, -, hafter⟩ := (waitsInvariant m row hparked _).exec hstaged ⟨hheld, hwaits⟩
    fun t ht => ⟨⟨numbered_pre rfl ht, hok t (List.mem_append_right _ ht)⟩, hnot t ht⟩
  exact ⟨hafter.passes, hafter.kept⟩

/-- The moves of a mutation whose replay ends in a conflict. -/
def conflictMoves : List (QueueMove String) :=
  enqueues 0 1 ++ replays 1 0 5 2 ++ [.resume 1 ⟨some "CONFLICT:43", 2, 0⟩] ++
    List.replicate 3 (.resume 1 (calm 2))

/-- The record of that mutation. -/
def conflictRow : Stored String :=
  ⟨((storedItem 0 1).replaying 2).afterError 3 "CONFLICT:43", 1⟩

/-- A run of another tab does not touch it. -/
theorem parked_waits_conflict :
    ((queue String).exec (queue String).init (conflictMoves ++ replays 2 1 10 3)).state.passes
        conflictRow.id = ((queue String).exec (queue String).init conflictMoves).state.passes
          conflictRow.id ∧
      ((queue String).exec (queue String).init conflictMoves).state.Keeps
        ((queue String).exec (queue String).init (conflictMoves ++ replays 2 1 10 3)).state
        conflictRow :=
  parked_waits 3 conflictRow conflictMoves (replays 2 1 10 3) (by decide +kernel) (.head _)
    (.inl (by decide +kernel)) (by decide +kernel)

end OfflineQueue

end Frontend

end InvoiceFi
