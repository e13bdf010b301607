import InvoiceFi.Frontend.OfflineQueue

/-!
# The stages of a call

A call of the queue waits at one of the stages of `Stage`, and `Stage.task` is what is left of its
program there. `Moves` lists what one step can do: the stage it goes to and the store it leaves.
`Stage.advance` says that a step of a call at a stage is one of these, so what follows argues about
stages and never unfolds a program again.
-/

namespace InvoiceFi

namespace Frontend

namespace OfflineQueue

variable {τ : Type}

/-! ## Stages -/

/-- The stages of a run. From `taking` on, a stage has the item that is being replayed and the items
that come after it. -/
inductive ReplayStage (τ : Type) where
  | entering
  | reading
  | taking (item : QueuedMutation τ) (rest : List (QueuedMutation τ))
  | storing (item : QueuedMutation τ) (rest : List (QueuedMutation τ))
  | calling (item : QueuedMutation τ) (rest : List (QueuedMutation τ))
  | awaiting (item : QueuedMutation τ) (rest : List (QueuedMutation τ))
  | succeeding (item : QueuedMutation τ) (rest : List (QueuedMutation τ))
  | deleting (item : QueuedMutation τ) (rest : List (QueuedMutation τ))
  | notifying (item : QueuedMutation τ) (rest : List (QueuedMutation τ))
  | restoring (item : QueuedMutation τ) (message : String) (rest : List (QueuedMutation τ))
  | reporting (item : QueuedMutation τ) (message : String) (rest : List (QueuedMutation τ))
  | leaving (thrown : Option String)

/-- The stages of a call. -/
inductive Stage (τ : Type) where
  | naming (label : String) (payload : τ)
  | drawing (label : String) (payload : τ) (time : Nat)
  | dating (label : String) (payload : τ) (id : ItemId)
  | adding (item : QueuedMutation τ)
  | replaying (run : Run) (stage : ReplayStage τ)
  | discarding (id : ItemId)
  | fetching (id : ItemId) (payload : Option τ)
  | requeueing (item : QueuedMutation τ)
  | ended (result : Except String (Option (QueuedMutation τ)))

/-- What is left of a run at a stage. -/
def ReplayStage.task (run : Run) : ReplayStage τ → Task τ (Option (QueuedMutation τ))
  | .entering => replayQueue run
  | .reading => finallyLeave run.hook (replayAll run.maxAttempts)
  | .taking item rest => finallyLeave run.hook do
      replayItem run.maxAttempts item
      replayItems run.maxAttempts rest
  | .storing item rest => finallyLeave run.hook do
      (do
        act (.put item)
        replayMarked run.maxAttempts item)
      replayItems run.maxAttempts rest
  | .calling item rest => finallyLeave run.hook do
      replayMarked run.maxAttempts item
      replayItems run.maxAttempts rest
  | .awaiting item rest => finallyLeave run.hook do
      tryCatch
        (do
          (do
            act (.awaitServer item)
            act (.onSuccess item))
          act (.delete item.id)
          act (.onReplaySuccess item))
        (handleError run.maxAttempts item)
      replayItems run.maxAttempts rest
  | .succeeding item rest => finallyLeave run.hook do
      tryCatch
        (do
          act (.onSuccess item)
          act (.delete item.id)
          act (.onReplaySuccess item))
        (handleError run.maxAttempts item)
      replayItems run.maxAttempts rest
  | .deleting item rest => finallyLeave run.hook do
      tryCatch
        (do
          act (.delete item.id)
          act (.onReplaySuccess item))
        (handleError run.maxAttempts item)
      replayItems run.maxAttempts rest
  | .notifying item rest => finallyLeave run.hook do
      tryCatch (act (.onReplaySuccess item)) (handleError run.maxAttempts item)
      replayItems run.maxAttempts rest
  | .restoring item message rest => finallyLeave run.hook do
      handleError run.maxAttempts item message
      replayItems run.maxAttempts rest
  | .reporting item message rest => finallyLeave run.hook do
      notify (errorCallback run.maxAttempts item message)
      replayItems run.maxAttempts rest
  | .leaving none => do
      act (.leave run.hook)
      pure none
  | .leaving (some message) => do
      act (.leave run.hook)
      throw message

/-- What is left of a call at a stage. -/
def Stage.task : Stage τ → Task τ (Option (QueuedMutation τ))
  | .naming label payload => enqueueMutation label payload
  | .drawing label payload time => do
      let (random, draw) ← act .random
      let createdAt ← act .now
      let item := enqueued label payload ⟨time, random, draw⟩ createdAt
      act (.add item)
      pure (some item)
  | .dating label payload id => do
      let createdAt ← act .now
      let item := enqueued label payload id createdAt
      act (.add item)
      pure (some item)
  | .adding item => do
      act (.add item)
      pure (some item)
  | .replaying run stage => stage.task run
  | .discarding id => do
      act (.discard id)
      pure none
  | .fetching id payload => do
      let item ← act (.get id)
      match item with
      | none => pure none
      | some item => do
        act (.put (item.requeued payload))
        pure none
  | .requeueing item => do
      act (.put item)
      pure none
  | .ended result => .done result

/-- The stage at which a run goes on with its loop: the first item that has attempts to go, or the
end. -/
def ReplayStage.next (maxAttempts : Nat) : List (QueuedMutation τ) → ReplayStage τ
  | [] => .leaving none
  | item :: rest =>
    if maxAttempts ≤ item.attempts then next maxAttempts rest else .taking item rest

/-- A run goes on by taking an item, or it leaves. -/
theorem ReplayStage.next_cases (maxAttempts : Nat) (items : List (QueuedMutation τ)) :
    next maxAttempts items = .leaving none ∨
      ∃ item rest, next maxAttempts items = .taking item rest := by
  induction items with
  | nil => exact .inl rfl
  | cons item rest ih =>
    rw [next]
    by_cases h : maxAttempts ≤ item.attempts
    · rw [if_pos h]
      exact ih
    · rw [if_neg h]
      exact .inr ⟨item, rest, rfl⟩

/-- The stage at which a call starts. -/
def QueueCall.stage : QueueCall τ → Stage τ
  | .enqueue label payload => .naming label payload
  | .replay run => .replaying run .entering
  | .resolve id .server => .discarding id
  | .resolve id resolution => .fetching id resolution.payload

theorem main_eq_task (call : QueueCall τ) : call.main = call.stage.task := by
  cases call with
  | enqueue label payload => rfl
  | replay run => rfl
  | resolve id resolution => cases resolution <;> rfl

/-- The loop of a run is at its next stage. -/
theorem finallyLeave_replayItems (run : Run) (items : List (QueuedMutation τ)) :
    finallyLeave run.hook (replayItems run.maxAttempts items) =
      (ReplayStage.next run.maxAttempts items).task run := by
  induction items with
  | nil => rfl
  | cons item rest ih =>
    rw [replayItems, ReplayStage.next]
    by_cases h : run.maxAttempts ≤ item.attempts
    · rw [if_pos h, if_pos h]
      exact ih
    · rw [if_neg h, if_neg h]
      rfl

/-- A body that has thrown leaves. -/
theorem finallyLeave_throw (run : Run) (message : String) :
    finallyLeave run.hook (throw message : Task τ Unit) =
      (ReplayStage.leaving (some message)).task run := by
  refine congrArg (Async.await (Act.leave run.hook)) (funext fun r => ?_)
  cases r <;> rfl

/-! ## What a step can do -/

/-- The steps of the call `k`: from a stage to a stage, and the store they leave. -/
inductive Moves (k : Nat) (c : Choice) (s : Store τ) : Stage τ → Stage τ → Store τ → Prop
  | name (label : String) (payload : τ) :
    Moves k c s (.naming label payload) (.drawing label payload c.clock) s
  | draw (label : String) (payload : τ) (time : Nat) :
    Moves k c s (.drawing label payload time) (.dating label payload ⟨time, c.random, k⟩) s
  | date (label : String) (payload : τ) (id : ItemId) :
    Moves k c s (.dating label payload id) (.adding (enqueued label payload id c.clock)) s
  | add (item : QueuedMutation τ) (hfresh : item.id ∉ s.mutations.rows.map fun row => row.id)
      (hok : c.thrown = none) :
    Moves k c s (.adding item) (.ended (.ok (some item)))
      { s.put k item with order := s.order ++ [item.id] }
  | addThrows (item : QueuedMutation τ) (message : String) :
    Moves k c s (.adding item) (.ended (.error message)) s
  | discard (id : ItemId) (hok : c.thrown = none) :
    Moves k c s (.discarding id) (.ended (.ok none)) { s with
      mutations := s.mutations.delete id
      discarded := id :: s.discarded }
  | discardThrows (id : ItemId) (message : String) :
    Moves k c s (.discarding id) (.ended (.error message)) s
  | fetch {id : ItemId} (payload : Option τ) {row : Stored τ}
      (hrow : s.mutations.get id = some row) :
    Moves k c s (.fetching id payload) (.requeueing (row.toQueuedMutation.requeued payload)) s
  | fetchEnds (id : ItemId) (payload : Option τ)
      (result : Except String (Option (QueuedMutation τ))) :
    Moves k c s (.fetching id payload) (.ended result) s
  | requeue (item : QueuedMutation τ) (hok : c.thrown = none) :
    Moves k c s (.requeueing item) (.ended (.ok none)) (s.put k item)
  | requeueThrows (item : QueuedMutation τ) (message : String) :
    Moves k c s (.requeueing item) (.ended (.error message)) s
  | busy {run : Run} (hbusy : s.replayingRef run.hook = true) :
    Moves k c s (.replaying run .entering) (.ended (.ok none)) s
  | enter {run : Run} (hfree : s.replayingRef run.hook = false) :
    Moves k c s (.replaying run .entering) (.replaying run .reading) { s with
      replayingRef := Function.update s.replayingRef run.hook true
      entered := (k, s.queuedItems) :: s.entered }
  | read (run : Run) (hok : c.thrown = none) :
    Moves k c s (.replaying run .reading)
      (.replaying run (.next run.maxAttempts (s.queuedItems.filter QueuedMutation.pending)))
      { s with read := (k, s.queuedItems) :: s.read }
  | readThrows (run : Run) (message : String) :
    Moves k c s (.replaying run .reading) (.replaying run (.leaving (some message))) s
  | take (run : Run) (item : QueuedMutation τ) (rest : List (QueuedMutation τ)) :
    Moves k c s (.replaying run (.taking item rest))
      (.replaying run (.storing (item.replaying c.clock) rest)) s
  | store (run : Run) (item : QueuedMutation τ) (rest : List (QueuedMutation τ))
      (hok : c.thrown = none) :
    Moves k c s (.replaying run (.storing item rest)) (.replaying run (.calling item rest))
      (s.put k item)
  | storeThrows (run : Run) (item : QueuedMutation τ) (rest : List (QueuedMutation τ))
      (message : String) :
    Moves k c s (.replaying run (.storing item rest)) (.replaying run (.leaving (some message))) s
  | call (run : Run) (item : QueuedMutation τ) (rest : List (QueuedMutation τ)) :
    Moves k c s (.replaying run (.calling item rest)) (.replaying run (.awaiting item rest))
      { s with passed := (k, item.id) :: s.passed }
  | resolve (run : Run) (item : QueuedMutation τ) (rest : List (QueuedMutation τ))
      (hok : c.thrown = none) :
    Moves k c s (.replaying run (.awaiting item rest)) (.replaying run (.succeeding item rest))
      { s with resolved := item.id :: s.resolved }
  | reject (run : Run) (item : QueuedMutation τ) (message : String)
      (rest : List (QueuedMutation τ)) :
    Moves k c s (.replaying run (.awaiting item rest))
      (.replaying run (.restoring item message rest)) s
  | succeed (run : Run) (item : QueuedMutation τ) (rest : List (QueuedMutation τ))
      (hok : c.thrown = none) :
    Moves k c s (.replaying run (.succeeding item rest)) (.replaying run (.deleting item rest))
      { s with replayed := item.id :: s.replayed }
  | succeedThrows (run : Run) (item : QueuedMutation τ) (message : String)
      (rest : List (QueuedMutation τ)) (hthrown : c.thrown = some message) :
    Moves k c s (.replaying run (.succeeding item rest))
      (.replaying run (.restoring item message rest)) s
  | delete (run : Run) (item : QueuedMutation τ) (rest : List (QueuedMutation τ))
      (hok : c.thrown = none) :
    Moves k c s (.replaying run (.deleting item rest)) (.replaying run (.notifying item rest))
      { s with mutations := s.mutations.delete item.id }
  | deleteThrows (run : Run) (item : QueuedMutation τ) (message : String)
      (rest : List (QueuedMutation τ)) (hthrown : c.thrown = some message) :
    Moves k c s (.replaying run (.deleting item rest))
      (.replaying run (.restoring item message rest)) s
  | notify (run : Run) (item : QueuedMutation τ) (rest : List (QueuedMutation τ)) :
    Moves k c s (.replaying run (.notifying item rest))
      (.replaying run (.next run.maxAttempts rest)) s
  | notifyThrows (run : Run) (item : QueuedMutation τ) (message : String)
      (rest : List (QueuedMutation τ)) (hthrown : c.thrown = some message) :
    Moves k c s (.replaying run (.notifying item rest))
      (.replaying run (.restoring item message rest)) s
  | restore (run : Run) (item : QueuedMutation τ) (message : String)
      (rest : List (QueuedMutation τ)) (hok : c.thrown = none) :
    Moves k c s (.replaying run (.restoring item message rest))
      (.replaying run (.reporting item message rest))
      (s.put k (item.afterError run.maxAttempts message))
  | restoreThrows (run : Run) (item : QueuedMutation τ) (message message' : String)
      (rest : List (QueuedMutation τ)) :
    Moves k c s (.replaying run (.restoring item message rest))
      (.replaying run (.leaving (some message'))) s
  | report (run : Run) (item : QueuedMutation τ) (message : String)
      (rest : List (QueuedMutation τ)) :
    Moves k c s (.replaying run (.reporting item message rest))
      (.replaying run (.next run.maxAttempts rest)) s
  | reportThrows (run : Run) (item : QueuedMutation τ) (message message' : String)
      (rest : List (QueuedMutation τ)) :
    Moves k c s (.replaying run (.reporting item message rest))
      (.replaying run (.leaving (some message'))) s
  | leave (run : Run) (thrown : Option String) (result : Except String (Option (QueuedMutation τ)))
      (hresult : ∀ item, result = .ok item → thrown = none) :
    Moves k c s (.replaying run (.leaving thrown)) (.ended result)
      { s with replayingRef := Function.update s.replayingRef run.hook false }

theorem unlessThrown_none {α : Type} {c : Choice} (h : c.thrown = none) (a : α) (s' s : Store τ) :
    unlessThrown c a s' s = (.ok a, s') := by
  rw [unlessThrown, h]

theorem unlessThrown_some {α : Type} {c : Choice} {message : String} (h : c.thrown = some message)
    (a : α) (s' s : Store τ) : unlessThrown c a s' s = (.error message, s) := by
  rw [unlessThrown, h]

variable {k : Nat} {c : Choice} {s : Store τ} {a : Act τ}
  {f : Except String a.Answer → Task τ (Option (QueuedMutation τ))}

/-- The callback that is told of an error is `onConflict` or `onReplayError`. -/
theorem errorCallback_cases (maxAttempts : Nat) (item : QueuedMutation τ) (message : String) :
    (∃ item' serverJson, errorCallback maxAttempts item message = .onConflict item' serverJson) ∨
      ∃ item', errorCallback maxAttempts item message = .onReplayError item' message := by
  unfold errorCallback
  by_cases h : isConflict message = true
  · exact .inl ⟨_, _, if_pos h⟩
  · exact .inr ⟨_, if_neg h⟩

/-- The callback that is told of an error returns or throws. -/
theorem perform_errorCallback (maxAttempts : Nat) (item : QueuedMutation τ) (message : String)
    (k : Nat) (c : Choice) (s : Store τ) :
    (∃ u, perform k (errorCallback maxAttempts item message) c s = (.ok u, s)) ∨
      ∃ message',
        perform k (errorCallback maxAttempts item message) c s = (.error message', s) := by
  have hcases := errorCallback_cases maxAttempts item message
  cases hthrown : c.thrown with
  | none =>
    refine .inl ?_
    rcases hcases with ⟨item', serverJson, h⟩ | ⟨item', h⟩ <;> rw [h]
    · exact ⟨(), unlessThrown_none hthrown _ _ _⟩
    · exact ⟨(), unlessThrown_none hthrown _ _ _⟩
  | some message' =>
    refine .inr ⟨message', ?_⟩
    rcases hcases with ⟨item', serverJson, h⟩ | ⟨item', h⟩ <;> rw [h]
    · exact unlessThrown_some hthrown _ _ _
    · exact unlessThrown_some hthrown _ _ _

/-- A step at an action that answers unless it throws: it goes to one stage, or, with the error, to
another one. -/
theorem moves_unlessThrown {a' : Act τ} {g : Except String a'.Answer → Task τ _}
    {answer : a'.Answer} {s' : Store τ} {stage stage' : Stage τ} {thrown : String → Stage τ}
    (h : .await a f = Async.await a' g) (hp : perform k a' c s = unlessThrown c answer s' s)
    (hok : c.thrown = none → Moves k c s stage stage' s' ∧ g (.ok answer) = stage'.task)
    (herror : ∀ message, c.thrown = some message →
      Moves k c s stage (thrown message) s ∧ g (.error message) = (thrown message).task) :
    ∃ stage', Moves k c s stage stage' (perform k a c s).2 ∧
      f (perform k a c s).1 = stage'.task := by
  cases h
  rw [hp]
  cases hthrown : c.thrown with
  | none =>
    rw [unlessThrown_none hthrown]
    exact ⟨stage', hok hthrown⟩
  | some message =>
    rw [unlessThrown_some hthrown]
    exact ⟨thrown message, herror message hthrown⟩

/-- A step of a call outside a run. -/
theorem Stage.advance_outside {stage : Stage τ} (h : .await a f = stage.task)
    (hrun : ∀ run st, stage ≠ .replaying run st) :
    ∃ stage', Moves k c s stage stage' (perform k a c s).2 ∧
      f (perform k a c s).1 = stage'.task := by
  cases stage with
  | ended result => cases h
  | replaying run st => exact absurd rfl (hrun run st)
  | naming label payload =>
    cases h
    exact ⟨_, .name label payload, rfl⟩
  | drawing label payload time =>
    cases h
    exact ⟨_, .draw label payload time, rfl⟩
  | dating label payload id =>
    cases h
    exact ⟨_, .date label payload id, rfl⟩
  | adding item =>
    by_cases hmem : item.id ∈ s.mutations.rows.map fun row => row.id
    · cases h
      have hp : perform k (.add item) c s =
          (.error "Key already exists in the object store.", s) := by
        simp only [perform, ObjectStore.add, if_pos hmem]
      rw [hp]
      exact ⟨_, .addThrows item _, rfl⟩
    · have hp : perform k (.add item) c s =
          unlessThrown c () { s.put k item with order := s.order ++ [item.id] } s := by
        simp only [perform, ObjectStore.add, if_neg hmem, Store.put]
      exact moves_unlessThrown h hp (fun hok => ⟨.add item hmem hok, rfl⟩)
        fun message _ => ⟨.addThrows item message, rfl⟩
  | discarding id =>
    exact moves_unlessThrown h rfl (fun hok => ⟨.discard id hok, rfl⟩)
      fun message _ => ⟨.discardThrows id message, rfl⟩
  | fetching id payload =>
    cases hrow : s.mutations.get id with
    | none =>
      have hp : perform k (.get id) c s = unlessThrown c none s s := by
        simp only [perform, hrow, Option.map_none]
      exact moves_unlessThrown h hp (fun _ => ⟨.fetchEnds id payload (.ok none), rfl⟩)
        fun message _ => ⟨.fetchEnds id payload (.error message), rfl⟩
    | some row =>
      have hp : perform k (.get id) c s = unlessThrown c (some row.toQueuedMutation) s s := by
        simp only [perform, hrow, Option.map_some]
      exact moves_unlessThrown h hp (fun _ => ⟨.fetch payload hrow, rfl⟩)
        fun message _ => ⟨.fetchEnds id payload (.error message), rfl⟩
  | requeueing item =>
    exact moves_unlessThrown h rfl (fun hok => ⟨.requeue item hok, rfl⟩)
      fun message _ => ⟨.requeueThrows item message, rfl⟩

/-- A step of a run. -/
theorem ReplayStage.advance {run : Run} {stage : ReplayStage τ} (h : .await a f = stage.task run) :
    ∃ stage', Moves k c s (.replaying run stage) stage' (perform k a c s).2 ∧
      f (perform k a c s).1 = stage'.task := by
  cases stage with
  | entering =>
    cases h
    cases hbusy : s.replayingRef run.hook with
    | true =>
      have hp : perform k (.enter run.hook) c s = (.ok false, s) := if_pos hbusy
      rw [hp]
      exact ⟨_, .busy hbusy, rfl⟩
    | false =>
      have hp : perform k (.enter run.hook) c s = (.ok true, { s with
          replayingRef := Function.update s.replayingRef run.hook true
          entered := (k, s.queuedItems) :: s.entered }) :=
        if_neg (Bool.eq_false_iff.1 hbusy)
      rw [hp]
      exact ⟨_, .enter hbusy, rfl⟩
  | reading =>
    exact moves_unlessThrown h rfl
      (fun hok => ⟨.read run hok, finallyLeave_replayItems run _⟩)
      fun message _ => ⟨.readThrows run message, finallyLeave_throw run _⟩
  | taking item rest =>
    cases h
    exact ⟨_, .take run item rest, rfl⟩
  | storing item rest =>
    exact moves_unlessThrown h rfl (fun hok => ⟨.store run item rest hok, rfl⟩)
      fun message _ => ⟨.storeThrows run item rest message, finallyLeave_throw run _⟩
  | calling item rest =>
    cases h
    exact ⟨_, .call run item rest, rfl⟩
  | awaiting item rest =>
    exact moves_unlessThrown h rfl (fun hok => ⟨.resolve run item rest hok, rfl⟩)
      fun message _ => ⟨.reject run item message rest, rfl⟩
  | succeeding item rest =>
    exact moves_unlessThrown h rfl (fun hok => ⟨.succeed run item rest hok, rfl⟩)
      fun message hthrown => ⟨.succeedThrows run item message rest hthrown, rfl⟩
  | deleting item rest =>
    exact moves_unlessThrown h rfl (fun hok => ⟨.delete run item rest hok, rfl⟩)
      fun message hthrown => ⟨.deleteThrows run item message rest hthrown, rfl⟩
  | notifying item rest =>
    exact moves_unlessThrown h rfl
      (fun _ => ⟨.notify run item rest, finallyLeave_replayItems run rest⟩)
      fun message hthrown => ⟨.notifyThrows run item message rest hthrown, rfl⟩
  | restoring item message rest =>
    exact moves_unlessThrown h rfl (fun hok => ⟨.restore run item message rest hok, rfl⟩)
      fun message' _ => ⟨.restoreThrows run item message message' rest, finallyLeave_throw run _⟩
  | reporting item message rest =>
    cases h
    rcases perform_errorCallback run.maxAttempts item message k c s with ⟨u, hp⟩ | ⟨message', hp⟩
    · rw [hp]
      exact ⟨_, .report run item message rest, finallyLeave_replayItems run rest⟩
    · rw [hp]
      exact ⟨_, .reportThrows run item message message' rest, finallyLeave_throw run _⟩
  | leaving thrown =>
    cases thrown with
    | none =>
      cases h
      exact ⟨.ended (.ok none), .leave run none _ fun _ _ => rfl, rfl⟩
    | some message =>
      cases h
      exact ⟨.ended (.error message), .leave run (some message) _ nofun, rfl⟩

/-- A step of a call at a stage goes to a stage, as `Moves` says. -/
theorem Stage.advance {stage : Stage τ} (h : .await a f = stage.task) :
    ∃ stage', Moves k c s stage stage' (perform k a c s).2 ∧
      f (perform k a c s).1 = stage'.task := by
  cases stage with
  | replaying run stage => exact ReplayStage.advance h
  | naming | drawing | dating | adding | discarding | fetching | requeueing | ended =>
    exact Stage.advance_outside h fun run st hst => by cases hst

/-! ## What a step leaves alone -/

/-- The stage is one of the call. -/
def Stage.Of (call : QueueCall τ) : Stage τ → Prop
  | .naming .. | .drawing .. | .dating .. | .adding _ =>
    ∃ label payload, call = .enqueue label payload
  | .replaying run _ => call = .replay run
  | .discarding _ | .fetching .. | .requeueing _ => ∃ id resolution, call = .resolve id resolution
  | .ended _ => True

theorem QueueCall.stage_of (call : QueueCall τ) : call.stage.Of call := by
  cases call with
  | enqueue label payload => exact ⟨label, payload, rfl⟩
  | replay run => rfl
  | resolve id resolution =>
    cases resolution with
    | server => exact ⟨id, _, rfl⟩
    | keepLocal => exact ⟨id, _, rfl⟩
    | merge mergedPayload => exact ⟨id, _, rfl⟩

variable {stage stage' : Stage τ} {s' : Store τ} {call : QueueCall τ}

/-- A step goes to a stage of the same call. -/
theorem Moves.of (h : Moves k c s stage stage' s') (hof : stage.Of call) : stage'.Of call := by
  cases h <;> trivial

/-- What a step of another call leaves alone: what is remembered of the call `j`. -/
structure Others (j : Nat) (s s' : Store τ) : Prop where
  entered : ∀ items, (j, items) ∈ s'.entered ↔ (j, items) ∈ s.entered
  read : ∀ items, (j, items) ∈ s'.read ↔ (j, items) ∈ s.read
  passed : ∀ id, (j, id) ∈ s'.passed ↔ (j, id) ∈ s.passed

theorem Moves.others (h : Moves k c s stage stage' s') {j : Nat} (hj : j ≠ k) : Others j s s' := by
  cases h with
  | enter =>
    refine ⟨fun items => ?_, fun _ => .rfl, fun _ => .rfl⟩
    simp [hj]
  | read run hok =>
    refine ⟨fun _ => .rfl, fun items => ?_, fun _ => .rfl⟩
    simp [hj]
  | call run item rest =>
    refine ⟨fun _ => .rfl, fun _ => .rfl, fun id => ?_⟩
    simp [hj]
  | _ => exact ⟨fun _ => .rfl, fun _ => .rfl, fun _ => .rfl⟩

/-- What has happened is remembered. -/
structure Grows (s s' : Store τ) : Prop where
  order : ∃ ids, s'.order = s.order ++ ids
  resolved : ∀ id ∈ s.resolved, id ∈ s'.resolved
  replayed : ∀ id ∈ s.replayed, id ∈ s'.replayed
  discarded : s.discarded <:+ s'.discarded

theorem Moves.grows (h : Moves k c s stage stage' s') : Grows s s' := by
  cases h with
  | add item hfresh hok =>
    exact ⟨⟨[item.id], rfl⟩, fun _ h => h, fun _ h => h, List.suffix_rfl⟩
  | discard id =>
    exact ⟨⟨[], (List.append_nil _).symm⟩, fun _ h => h, fun _ h => h, List.suffix_cons id _⟩
  | resolve run item rest hok =>
    exact ⟨⟨[], (List.append_nil _).symm⟩, fun _ => List.mem_cons_of_mem _, fun _ h => h,
      List.suffix_rfl⟩
  | succeed run item rest hok =>
    exact ⟨⟨[], (List.append_nil _).symm⟩, fun _ h => h, fun _ => List.mem_cons_of_mem _,
      List.suffix_rfl⟩
  | _ => exact ⟨⟨[], (List.append_nil _).symm⟩, fun _ h => h, fun _ h => h, List.suffix_rfl⟩

/-! ## Arguments by stages -/

/-- An argument about the queue, for the runs whose moves all meet `Ok`: an invariant of the store,
and an assertion for every call, its stage and the store. -/
structure StageOutline (Ok : Tabs τ → QueueMove τ → Prop) where
  Inv : Store τ → Prop
  At : Nat → QueueCall τ → Stage τ → Store τ → Prop
  start : ∀ {p : Tabs τ} {call : QueueCall τ}, Ok p (.start call) → Inv p.state →
    At p.calls.length call call.stage p.state
  step : ∀ {p : Tabs τ} {k : Nat} {c : Choice} {call : QueueCall τ} {stage stage' : Stage τ}
    {s' : Store τ}, Ok p (.resume k c) → p.calls[k]? = some ⟨call, stage.task⟩ →
    Moves k c p.state stage stage' s' → stage.Of call → Inv p.state → At k call stage p.state →
    Inv s' ∧ At k call stage' s'
  stable : ∀ {p : Tabs τ} {k j : Nat} {c : Choice} {call call' : QueueCall τ}
    {stage stage' other : Stage τ} {s' : Store τ}, Ok p (.resume k c) →
    p.calls[k]? = some ⟨call, stage.task⟩ → p.calls[j]? = some ⟨call', other.task⟩ →
    Moves k c p.state stage stage' s' → stage.Of call → Inv p.state → At k call stage p.state →
    j ≠ k → At j call' other p.state → At j call' other s'

/-- A call is at a stage, where its assertion holds. -/
def AtStage (At : Nat → QueueCall τ → Stage τ → Store τ → Prop) (k : Nat) (call : QueueCall τ)
    (q : Task τ (Option (QueuedMutation τ))) (s : Store τ) : Prop :=
  ∃ stage : Stage τ, q = stage.task ∧ stage.Of call ∧ At k call stage s

variable {Ok : Tabs τ → QueueMove τ → Prop}

/-- An argument by stages is a proof outline. -/
def StageOutline.outline (o : StageOutline Ok) : Outline (offlineQueue τ) Ok where
  Inv := o.Inv
  At := AtStage o.At
  start := by
    intro p call hok hinv hat
    exact ⟨call.stage, main_eq_task call, call.stage_of, o.start hok hinv⟩
  step := by
    intro p k c call a f hok hk hinv hat
    obtain ⟨stage, htask, hof, h⟩ := hat k _ hk
    obtain ⟨stage', hmoves, hnext⟩ := Stage.advance htask
    have hk' : p.calls[k]? = some ⟨call, stage.task⟩ := by rw [hk, ← htask]
    obtain ⟨hinv', h'⟩ := o.step hok hk' hmoves hof hinv h
    exact ⟨hinv', stage', hnext, hmoves.of hof, h'⟩
  stable := by
    intro p k c call a f j call' hok hk hinv hat hj hcall'
    obtain ⟨stage, htask, hof, h⟩ := hat k _ hk
    obtain ⟨stage', hmoves, -⟩ := Stage.advance htask
    have hk' : p.calls[k]? = some ⟨call, stage.task⟩ := by rw [hk, ← htask]
    obtain ⟨other, htask', hof', h'⟩ := hat j call' hcall'
    have hj' : p.calls[j]? = some ⟨call'.input, other.task⟩ := by rw [hcall', ← htask']
    exact ⟨other, htask', hof', o.stable hok hk' hj' hmoves hof hinv h hj h'⟩
  environ := by
    intro p o'
    cases o'

/-- The queue as a machine. -/
def queue (τ : Type) : Machine (Tabs τ) (QueueMove τ) Empty Unit :=
  (offlineQueue τ).machine .empty

/-- In a run whose moves all meet the condition, the invariant and the assertion of every call
hold. -/
theorem StageOutline.exec (o : StageOutline Ok) (h0 : o.Inv .empty) {ms : List (QueueMove τ)}
    (hok : ∀ t ∈ (queue τ).trace (queue τ).init ms, Ok t.pre t.input) :
    o.Inv ((queue τ).exec (queue τ).init ms).state ∧
      ((queue τ).exec (queue τ).init ms).Meets (AtStage o.At) :=
  o.outline.exec (p := ⟨.empty, []⟩) h0 Pool.meets_nil hok

/-- The action that a program awaits. -/
def nextAct {α : Type} : Task τ α → Option (Act τ)
  | .await a _ => some a
  | .done _ => none

/-- A call that has ended is at its last stage. -/
theorem eq_ended {result : Except String (Option (QueuedMutation τ))}
    (h : .done result = stage.task) : stage = .ended result := by
  cases stage with
  | ended result' =>
    cases h
    rfl
  | replaying run st =>
    cases st with
    | leaving thrown => cases thrown <;> cases h
    | _ => cases h
  | _ => cases h

/-- The stage is one at which a call awaits the action. -/
def Stage.Awaits (stage : Stage τ) : Act τ → Prop
  | .add item => stage = .adding item
  | .put item => stage = .requeueing item ∨
      (∃ run rest, stage = .replaying run (.storing item rest)) ∨
      ∃ run item' message rest, stage = .replaying run (.restoring item' message rest) ∧
        item = item'.afterError run.maxAttempts message
  | .callServer item => ∃ run rest, stage = .replaying run (.calling item rest)
  | .awaitServer item => ∃ run rest, stage = .replaying run (.awaiting item rest)
  | .onSuccess item => ∃ run rest, stage = .replaying run (.succeeding item rest)
  | _ => True

theorem Stage.awaits (h : nextAct stage.task = some a) : stage.Awaits a := by
  cases stage with
  | replaying run st =>
    cases st with
    | calling item rest | awaiting item rest | succeeding item rest =>
      cases h
      exact ⟨run, rest, rfl⟩
    | storing item rest =>
      cases h
      exact .inr (.inl ⟨run, rest, rfl⟩)
    | restoring item message rest =>
      cases h
      exact .inr (.inr ⟨run, item, message, rest, rfl, rfl⟩)
    | reporting item message rest =>
      have ha : errorCallback run.maxAttempts item message = a := Option.some.inj h
      rcases errorCallback_cases run.maxAttempts item message with ⟨item', serverJson, he⟩ |
        ⟨item', he⟩
      · rw [← ha, he]
        trivial
      · rw [← ha, he]
        trivial
    | leaving thrown => cases thrown <;> cases h <;> trivial
    | _ =>
      cases h
      trivial
  | ended result => cases h
  | requeueing item =>
    cases h
    exact .inl rfl
  | _ =>
    cases h
    trivial

/-- What a step does to the stored items: it stores no new one, or it adds an item, or it puts
one. -/
theorem Moves.rows_cases (h : Moves k c s stage stage' s') :
    (s'.order = s.order ∧ ∀ row ∈ s'.mutations.rows, row ∈ s.mutations.rows) ∨
    (∃ item, stage = .adding item ∧ s' = { s.put k item with order := s.order ++ [item.id] }) ∨
    ∃ item, nextAct stage.task = some (.put item) ∧ c.thrown = none ∧ s' = s.put k item := by
  cases h with
  | add item hfresh hok => exact .inr (.inl ⟨item, rfl, rfl⟩)
  | requeue item hok => exact .inr (.inr ⟨item, rfl, hok, rfl⟩)
  | store run item rest hok => exact .inr (.inr ⟨item, rfl, hok, rfl⟩)
  | restore run item message rest hok => exact .inr (.inr ⟨_, rfl, hok, rfl⟩)
  | discard id => exact .inl ⟨rfl, fun row hrow => (ObjectStore.mem_delete.1 hrow).1⟩
  | delete run item rest hok =>
    exact .inl ⟨rfl, fun row hrow => (ObjectStore.mem_delete.1 hrow).1⟩
  | _ => exact .inl ⟨rfl, fun _ h => h⟩

/-! ## Numbers -/

/-- The id that a call has drawn has the number of the call. -/
def Stage.Drawn (k : Nat) : Stage τ → Prop
  | .dating _ _ id => id.draw = k
  | .adding item => item.id.draw = k
  | _ => True

/-- Every call draws ids of its own. -/
def drawnOutline : StageOutline (τ := τ) fun _ _ => True where
  Inv _ := True
  At k _ stage _ := stage.Drawn k
  start {_ call} _ _ := by
    cases call with
    | enqueue label payload => trivial
    | replay run => trivial
    | resolve id resolution => cases resolution <;> trivial
  step _ _ hmoves _ _ hat := by
    refine ⟨trivial, ?_⟩
    cases hmoves with
    | draw label payload time => rfl
    | date label payload id => exact hat
    | _ => trivial
  stable _ _ _ _ _ _ _ _ hat := hat

/-- What has happened has happened in calls that have been made, and the call that has enqueued an
item has ended. -/
structure Numbered (p : Tabs τ) : Prop where
  entered : ∀ x ∈ p.state.entered, x.1 < p.calls.length
  read : ∀ x ∈ p.state.read, x.1 < p.calls.length
  passed : ∀ x ∈ p.state.passed, x.1 < p.calls.length
  order : ∀ id ∈ p.state.order, id.draw < p.calls.length
  ended : ∀ id ∈ p.state.order, ∀ call, p.calls[id.draw]? = some call → nextAct call.rest = none

/-- An item that is about to be added is new. -/
def FreshItems (p : Tabs τ) : Prop :=
  ∀ (k : Nat) (call : QueueCall τ) (item : QueuedMutation τ),
    p.calls[k]? = some ⟨call, (Stage.adding item).task⟩ → item.id ∉ p.state.order

/-- A call that is made has not done anything yet. -/
theorem Numbered.start {p : Tabs τ} (h : Numbered p) (call : QueueCall τ) :
    Numbered { p with calls := p.calls ++ [⟨call, call.main⟩] } := by
  have hlt : ∀ {j call'}, j < p.calls.length → j < (p.calls ++ [call']).length := by
    intro j call' hj
    rw [List.length_append]
    omega
  refine ⟨fun x hx => hlt (h.entered x hx), fun x hx => hlt (h.read x hx),
    fun x hx => hlt (h.passed x hx), fun id hid => hlt (h.order id hid), ?_⟩
  intro id hid call' hcall'
  rw [List.getElem?_append_left (h.order id hid)] at hcall'
  exact h.ended id hid call' hcall'

/-- A step of a call is one of the calls that have been made. -/
theorem Numbered.step {p : Tabs τ} (h : Numbered p) (hk : p.calls[k]? = some ⟨call, stage.task⟩)
    (hwaits : nextAct stage.task ≠ none) (hmoves : Moves k c p.state stage stage' s')
    (hdrawn : stage.Drawn k) :
    Numbered ⟨s', p.calls.set k ⟨call, stage'.task⟩⟩ := by
  have hlt : k < p.calls.length := (List.getElem?_eq_some_iff.1 hk).1
  have hlength : (p.calls.set k ⟨call, stage'.task⟩).length = p.calls.length := List.length_set
  have hne : ∀ id ∈ p.state.order, id.draw ≠ k := by
    rintro id hid rfl
    exact hwaits (h.ended id hid _ hk)
  have hended : ∀ id ∈ p.state.order, ∀ call',
      (p.calls.set k ⟨call, stage'.task⟩)[id.draw]? = some call' → nextAct call'.rest = none := by
    intro id hid call' hcall'
    rw [List.getElem?_set_ne (hne id hid).symm] at hcall'
    exact h.ended id hid call' hcall'
  obtain ⟨hentered, hread, hpassed, horder, -⟩ := h
  rw [← hlength] at hentered hread hpassed horder hlt
  cases hmoves with
  | enter => exact ⟨List.forall_mem_cons.2 ⟨hlt, hentered⟩, hread, hpassed, horder, hended⟩
  | read run hok => exact ⟨hentered, List.forall_mem_cons.2 ⟨hlt, hread⟩, hpassed, horder, hended⟩
  | call run item rest =>
    exact ⟨hentered, hread, List.forall_mem_cons.2 ⟨hlt, hpassed⟩, horder, hended⟩
  | add item hfresh hok =>
    refine ⟨hentered, hread, hpassed, fun id hid => ?_, fun id hid call' hcall' => ?_⟩
    · rcases List.mem_append.1 hid with hid | hid
      · exact horder id hid
      · rw [List.mem_singleton.1 hid]
        exact hdrawn ▸ hlt
    · rcases List.mem_append.1 hid with hid | hid
      · exact hended id hid call' hcall'
      · have hdraw : id.draw = k := List.mem_singleton.1 hid ▸ hdrawn
        rw [hdraw, List.getElem?_set_self (hlength ▸ hlt)] at hcall'
        cases hcall'
        rfl
  | _ => exact ⟨hentered, hread, hpassed, horder, hended⟩

theorem numbered_exec (ms : List (QueueMove τ)) :
    Numbered ((queue τ).exec (queue τ).init ms) ∧
      FreshItems ((queue τ).exec (queue τ).init ms) := by
  have hinv : ∀ ms, ((queue τ).exec (queue τ).init ms).Meets (AtStage drawnOutline.At) :=
    fun ms => (drawnOutline.exec trivial fun _ _ => trivial).2
  have hnumbered : Numbered ((queue τ).exec (queue τ).init ms) := by
    induction ms using List.reverseRecOn with
    | nil => exact ⟨nofun, nofun, nofun, nofun, nofun⟩
    | append_singleton ms m ih =>
      rw [Machine.exec_concat]
      have hat := hinv ms
      generalize (queue τ).exec (queue τ).init ms = p at *
      change Numbered ((offlineQueue τ).move m p)
      rcases Service.move_cases (offlineQueue τ) m p with ⟨call, rfl, hp⟩ |
        ⟨k, c, call, a, f, rfl, hk, hp⟩ | ⟨o, rfl, hp⟩ | ⟨k, c, -, -, hp⟩
      · rw [hp]
        exact ih.start call
      · obtain ⟨stage, htask, -, hdrawn⟩ := hat k _ hk
        obtain ⟨stage', hmoves, hnext⟩ := Stage.advance htask
        rw [hp]
        change Numbered
          ⟨(perform k a c p.state).2, p.calls.set k ⟨call, f (perform k a c p.state).1⟩⟩
        rw [hnext]
        rw [show Async.await a f = stage.task from htask] at hk
        exact ih.step hk (by rw [← htask]; exact Option.some_ne_none a) hmoves hdrawn
      · cases o
      · rw [hp]
        exact ih
  refine ⟨hnumbered, fun k call item hk hmem => ?_⟩
  obtain ⟨stage, htask, -, hdrawn⟩ := hinv ms k _ hk
  have hdraw : item.id.draw = k := by
    have hact : nextAct stage.task = some (.add item) := by
      rw [← htask]
      rfl
    have hstage : stage = .adding item := Stage.awaits hact
    rw [hstage] at hdrawn
    exact hdrawn
  cases hnumbered.ended item.id hmem _ (hdraw.symm ▸ hk)

/-- In a run whose moves all meet the condition, the invariant and the assertion of every call
hold, where the argument also knows the numbers of the calls. -/
theorem StageOutline.exec_numbered {C : Tabs τ → QueueMove τ → Prop}
    (o : StageOutline fun p m => (Numbered p ∧ FreshItems p) ∧ C p m) (h0 : o.Inv .empty)
    {ms : List (QueueMove τ)}
    (hok : ∀ t ∈ (queue τ).trace (queue τ).init ms, C t.pre t.input) :
    o.Inv ((queue τ).exec (queue τ).init ms).state ∧
      ((queue τ).exec (queue τ).init ms).Meets (AtStage o.At) := by
  refine o.exec h0 fun t ht => ⟨?_, hok t ht⟩
  obtain ⟨ms₁, m, ms₂, -, rfl⟩ := Machine.mem_trace.1 ht
  rw [Machine.step_pre]
  exact numbered_exec ms₁

end OfflineQueue

end Frontend

end InvoiceFi
