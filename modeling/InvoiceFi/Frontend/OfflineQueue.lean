import InvoiceFi.Lib.Async
import Mathlib.Data.List.Sort
import Mathlib.Logic.Function.Basic

/-!
# The offline queue (`hooks/useOfflineQueue.ts`, `hooks/useOptimisticUpdate.ts`)

Mutations that are made offline are kept in an object store of IndexedDB and replayed when the
network is back. `enqueueMutation`, `replayQueue` and `resolveConflict` are programs over the
actions they await: the requests to the object store, the two ends of the server call of
`onQueuedReplay`, and the callbacks, each of which may throw. `offlineQueue` is these programs
called at any time from any number of hooks and tabs. A page that is closed is a page whose calls
never go on; a page that is reloaded calls from a new hook.

The store remembers which items were enqueued and in what order, what a run found when it started
and when it read the queue, which items it passed to `onReplay`, and which server calls and which
`onReplay` have resolved; no program reads these. `JSON.parse` of a conflict's data is left to the
callback that is given it.
-/

namespace InvoiceFi

namespace Frontend

namespace OfflineQueue

/-! ## Data -/

/-- The id of an item, the text of a time and random digits. The number of the call that draws it
stands for the digits never being drawn twice. -/
structure ItemId where
  time : Nat
  random : Nat
  draw : Nat
  deriving DecidableEq, Repr

/-- The order of the keys of the object store. -/
def ItemId.le (a b : ItemId) : Bool :=
  a.time < b.time ||
    (a.time = b.time && (a.random < b.random || (a.random = b.random && a.draw ≤ b.draw)))

/-- `QueueItemStatus`. -/
inductive QueueItemStatus where
  | queued
  | replaying
  | succeeded
  | failed
  | conflict
  deriving DecidableEq, Repr

/-- `QueuedMutation<T>`. -/
structure QueuedMutation (τ : Type) where
  id : ItemId
  label : String
  payload : τ
  createdAt : Nat
  status : QueueItemStatus
  attempts : Nat
  lastAttemptAt : Option Nat
  lastError : Option String

variable {τ : Type}

/-- `item.status === 'queued' || item.status === 'failed'`. -/
def QueuedMutation.pending (item : QueuedMutation τ) : Bool :=
  item.status = .queued || item.status = .failed

/-- A record of the object store: an item, and the number of the call that has written it. -/
structure Stored (τ : Type) extends QueuedMutation τ where
  writer : Nat

/-- The object store, with its key. -/
structure ObjectStore (τ : Type) where
  rows : List (Stored τ)
  ids : (rows.map fun row => row.id).Nodup

namespace ObjectStore

/-- `store.get(id)`. -/
def get (o : ObjectStore τ) (id : ItemId) : Option (Stored τ) := o.rows.find? fun row => row.id = id

/-- `store.delete(id)`. -/
def delete (o : ObjectStore τ) (id : ItemId) : ObjectStore τ where
  rows := o.rows.filter fun row => row.id ≠ id
  ids := o.ids.sublist (List.filter_sublist.map _)

/-- `store.put(item)`. -/
def put (o : ObjectStore τ) (item : Stored τ) : ObjectStore τ where
  rows := item :: (o.delete item.id).rows
  ids := by
    refine List.nodup_cons.2 ⟨fun hmem => ?_, (o.delete item.id).ids⟩
    obtain ⟨row, hrow, hid⟩ := List.mem_map.1 hmem
    have := (List.mem_filter.1 hrow).2
    rw [decide_eq_true_eq] at this
    exact this hid

/-- `store.add(item)`. -/
def add (o : ObjectStore τ) (item : Stored τ) : Except String (ObjectStore τ) :=
  if item.id ∈ o.rows.map (fun row => row.id) then
    .error "Key already exists in the object store."
  else .ok (o.put item)

/-- `store.getAll()`, in the order of the keys. -/
def getAll (o : ObjectStore τ) : List (QueuedMutation τ) :=
  (o.rows.map Stored.toQueuedMutation).insertionSort fun a b => a.id.le b.id

variable {o : ObjectStore τ} {row row' : Stored τ} {id : ItemId}

theorem mem_delete : row ∈ (o.delete id).rows ↔ row ∈ o.rows ∧ row.id ≠ id := by
  simp [delete]

theorem mem_put : row ∈ (o.put row').rows ↔ row = row' ∨ (row ∈ o.rows ∧ row.id ≠ row'.id) := by
  rw [put, List.mem_cons, mem_delete]

/-- A record is the only one of its id. -/
theorem eq_of_id (hrow : row ∈ o.rows) (hrow' : row' ∈ o.rows) (hid : row.id = row'.id) :
    row = row' :=
  List.inj_on_of_nodup_map o.ids hrow hrow' hid

theorem get_eq_some : o.get id = some row ↔ row ∈ o.rows ∧ row.id = id := by
  constructor
  · intro h
    exact ⟨List.mem_of_find?_eq_some h, by simpa using List.find?_some h⟩
  · rintro ⟨hmem, rfl⟩
    cases hfind : o.get row.id with
    | none => exact absurd (decide_eq_true rfl) (List.find?_eq_none.1 hfind row hmem)
    | some row' =>
      have hid : row'.id = row.id := by simpa using List.find?_some hfind
      rw [eq_of_id (List.mem_of_find?_eq_some hfind) hmem hid]

end ObjectStore

/-- The object store, the `replayingRef` of every hook, and what has happened so far. -/
structure Store (τ : Type) where
  mutations : ObjectStore τ
  replayingRef : Nat → Bool
  order : List ItemId
  entered : List (Nat × List (QueuedMutation τ))
  read : List (Nat × List (QueuedMutation τ))
  passed : List (Nat × ItemId)
  resolved : List ItemId
  replayed : List ItemId
  discarded : List ItemId

/-- The store before any mutation. -/
def Store.empty : Store τ :=
  ⟨⟨[], List.nodup_nil⟩, fun _ => false, [], [], [], [], [], [], []⟩

/-! ## Actions -/

/-- The actions that the programs await. `onReplay` is three of them: the server call leaves, it
resolves or throws, and `onSuccess` is called. `removeQueueItem` is `delete` in a run and `discard`
in `resolveConflict`. -/
inductive Act (τ : Type) where
  | now
  | random
  | add (item : QueuedMutation τ)
  | getAll
  | get (id : ItemId)
  | put (item : QueuedMutation τ)
  | delete (id : ItemId)
  | discard (id : ItemId)
  | enter (hook : Nat)
  | leave (hook : Nat)
  | callServer (item : QueuedMutation τ)
  | awaitServer (item : QueuedMutation τ)
  | onSuccess (item : QueuedMutation τ)
  | onReplaySuccess (item : QueuedMutation τ)
  | onReplayError (item : QueuedMutation τ) (message : String)
  | onConflict (item : QueuedMutation τ) (serverJson : String)

/-- The answers of the actions. The digits that are drawn come with the number of the call. -/
abbrev Act.Answer : Act τ → Type
  | .now => Nat
  | .random => Nat × Nat
  | .getAll => List (QueuedMutation τ)
  | .get _ => Option (QueuedMutation τ)
  | .enter _ => Bool
  | _ => Unit

/-- What the outside decides when it answers an action: the message of the error that it throws, if
it throws one, the clock, and the digits that are drawn. -/
structure Choice where
  thrown : Option String
  clock : Nat
  random : Nat

/-- An action that may throw: it has no effect if it does. -/
def unlessThrown {α : Type} (c : Choice) (a : α) (s' s : Store τ) : Except String α × Store τ :=
  match c.thrown with
  | some message => (.error message, s)
  | none => (.ok a, s')

/-- `getAllQueuedItems`: the order of the keys, sorted by the time of creation. -/
def Store.queuedItems (s : Store τ) : List (QueuedMutation τ) :=
  s.mutations.getAll.insertionSort fun a b => a.createdAt ≤ b.createdAt

/-- What is read of the queue is what is stored. -/
theorem Store.mem_queuedItems {s : Store τ} {item : QueuedMutation τ} :
    item ∈ s.queuedItems ↔ ∃ row ∈ s.mutations.rows, row.toQueuedMutation = item := by
  rw [queuedItems, List.mem_insertionSort, ObjectStore.getAll, List.mem_insertionSort,
    List.mem_map]

/-- The store with an item that the call `k` writes. -/
def Store.put (k : Nat) (item : QueuedMutation τ) (s : Store τ) : Store τ :=
  { s with mutations := s.mutations.put { item with writer := k } }

/-- What an action of the call `k` answers and does. -/
def perform (k : Nat) : (a : Act τ) → Choice → Store τ → Except String a.Answer × Store τ
  | .now, c, s => (.ok c.clock, s)
  | .random, c, s => (.ok (c.random, k), s)
  | .add item, c, s =>
    match s.mutations.add { item with writer := k } with
    | .ok mutations =>
      unlessThrown c () { s with mutations := mutations, order := s.order ++ [item.id] } s
    | .error message => (.error message, s)
  | .getAll, c, s => unlessThrown c s.queuedItems { s with read := (k, s.queuedItems) :: s.read } s
  | .get id, c, s => unlessThrown c ((s.mutations.get id).map Stored.toQueuedMutation) s s
  | .put item, c, s => unlessThrown c () (s.put k item) s
  | .delete id, c, s => unlessThrown c () { s with mutations := s.mutations.delete id } s
  | .discard id, c, s =>
    unlessThrown c () { s with
      mutations := s.mutations.delete id
      discarded := id :: s.discarded } s
  | .enter hook, _, s =>
    if s.replayingRef hook then (.ok false, s)
    else
      (.ok true, { s with
        replayingRef := Function.update s.replayingRef hook true
        entered := (k, s.queuedItems) :: s.entered })
  | .leave hook, _, s =>
    (.ok (), { s with replayingRef := Function.update s.replayingRef hook false })
  | .callServer item, _, s => (.ok (), { s with passed := (k, item.id) :: s.passed })
  | .awaitServer item, c, s => unlessThrown c () { s with resolved := item.id :: s.resolved } s
  | .onSuccess item, c, s => unlessThrown c () { s with replayed := item.id :: s.replayed } s
  | .onReplaySuccess _, c, s => unlessThrown c () s s
  | .onReplayError .., c, s => unlessThrown c () s s
  | .onConflict .., c, s => unlessThrown c () s s

/-! ## The programs -/

/-- A program of the queue. Its errors are their messages. -/
abbrev Task (τ α : Type) := Async (Act τ) Act.Answer String α

/-- Awaiting an action. -/
def act (a : Act τ) : Task τ a.Answer := Async.perform a

/-- The item that `enqueueMutation` stores. -/
def enqueued (label : String) (payload : τ) (id : ItemId) (createdAt : Nat) : QueuedMutation τ where
  id := id
  label := label
  payload := payload
  createdAt := createdAt
  status := .queued
  attempts := 0
  lastAttemptAt := none
  lastError := none

/-- `enqueueMutation`. -/
def enqueueMutation (label : String) (payload : τ) : Task τ (Option (QueuedMutation τ)) := do
  let time ← act .now
  let (random, draw) ← act .random
  let createdAt ← act .now
  let item := enqueued label payload ⟨time, random, draw⟩ createdAt
  act (.add item)
  pure (some item)

/-- `onReplay`, the wrapper of `useOptimisticUpdate`. -/
def onReplay (item : QueuedMutation τ) : Task τ Unit := do
  act (.callServer item)
  act (.awaitServer item)
  act (.onSuccess item)

/-- `error.message.startsWith('CONFLICT:')`. -/
def isConflict (message : String) : Bool := "CONFLICT:".toList.isPrefixOf message.toList

/-- The item that is being replayed. -/
def QueuedMutation.replaying (item : QueuedMutation τ) (now : Nat) : QueuedMutation τ :=
  { item with
    status := .replaying
    attempts := item.attempts + 1
    lastAttemptAt := some now }

/-- The item whose replay has thrown. -/
def QueuedMutation.afterError (maxAttempts : Nat) (item : QueuedMutation τ) (message : String) :
    QueuedMutation τ :=
  if isConflict message then
    { item with
      status := .conflict
      lastError := some message }
  else
    { item with
      status := if maxAttempts ≤ item.attempts then .failed else .queued
      lastError := some message }

@[simp] theorem QueuedMutation.afterError_id (maxAttempts : Nat) (item : QueuedMutation τ)
    (message : String) : (item.afterError maxAttempts message).id = item.id := by
  unfold QueuedMutation.afterError
  split <;> rfl

/-- The callback that is told of the error. -/
def errorCallback (maxAttempts : Nat) (replaying : QueuedMutation τ) (message : String) : Act τ :=
  let item := replaying.afterError maxAttempts message
  if isConflict message then
    .onConflict item (String.ofList (message.toList.drop "CONFLICT:".length))
  else .onReplayError item message

/-- Awaiting a callback, whose answer nobody reads. -/
def notify (callback : Act τ) : Task τ Unit := do
  let _ ← act callback
  pure ()

/-- The `catch` of a replay. -/
def handleError (maxAttempts : Nat) (replaying : QueuedMutation τ) (message : String) :
    Task τ Unit := do
  act (.put (replaying.afterError maxAttempts message))
  notify (errorCallback maxAttempts replaying message)

/-- The replay of an item that has been marked as replaying. -/
def replayMarked (maxAttempts : Nat) (replaying : QueuedMutation τ) : Task τ Unit :=
  tryCatch
    (do
      onReplay replaying
      act (.delete replaying.id)
      act (.onReplaySuccess replaying))
    (handleError maxAttempts replaying)

/-- The replay of an item. -/
def replayItem (maxAttempts : Nat) (item : QueuedMutation τ) : Task τ Unit := do
  let now ← act .now
  act (.put (item.replaying now))
  replayMarked maxAttempts (item.replaying now)

/-- The loop over the pending items. -/
def replayItems (maxAttempts : Nat) : List (QueuedMutation τ) → Task τ Unit
  | [] => pure ()
  | item :: rest =>
    if maxAttempts ≤ item.attempts then replayItems maxAttempts rest
    else do
      replayItem maxAttempts item
      replayItems maxAttempts rest

/-- A run of `replayQueue`: the hook that makes it, and its `maxAttempts`. -/
structure Run where
  hook : Nat
  maxAttempts : Nat
  deriving DecidableEq

/-- `try { body } finally { replayingRef.current = false }`. -/
def finallyLeave (hook : Nat) (body : Task τ Unit) : Task τ (Option (QueuedMutation τ)) := do
  tryCatch body fun message => do
    act (.leave hook)
    throw message
  act (.leave hook)
  pure none

/-- The body of `replayQueue`. -/
def replayAll (maxAttempts : Nat) : Task τ Unit := do
  let items ← act .getAll
  replayItems maxAttempts (items.filter QueuedMutation.pending)

/-- `replayQueue`. -/
def replayQueue (run : Run) : Task τ (Option (QueuedMutation τ)) := do
  let entered ← act (.enter run.hook)
  if entered then finallyLeave run.hook (replayAll run.maxAttempts) else pure none

/-- The resolution of a conflict. -/
inductive Resolution (τ : Type) where
  | server
  | keepLocal
  | merge (mergedPayload : Option τ)

/-- The payload that a resolution replaces that of the item with. -/
def Resolution.payload : Resolution τ → Option τ
  | .merge mergedPayload => mergedPayload
  | _ => none

/-- The item that is to be replayed again. -/
def QueuedMutation.requeued (item : QueuedMutation τ) (payload : Option τ) : QueuedMutation τ :=
  { item with
    status := .queued
    attempts := 0
    payload := payload.getD item.payload
    lastError := none }

/-- `resolveConflict`. -/
def resolveConflict (id : ItemId) (resolution : Resolution τ) :
    Task τ (Option (QueuedMutation τ)) :=
  match resolution with
  | .server => do
    act (.discard id)
    pure none
  | _ => do
    let item ← act (.get id)
    match item with
    | none => pure none
    | some item => do
      act (.put (item.requeued resolution.payload))
      pure none

/-! ## The service -/

/-- The calls. -/
inductive QueueCall (τ : Type) where
  | enqueue (label : String) (payload : τ)
  | replay (run : Run)
  | resolve (id : ItemId) (resolution : Resolution τ)

/-- The program of a call. -/
def QueueCall.main : QueueCall τ → Task τ (Option (QueuedMutation τ))
  | .enqueue label payload => enqueueMutation label payload
  | .replay run => replayQueue run
  | .resolve id resolution => resolveConflict id resolution

/-- The queue. -/
def offlineQueue (τ : Type) : Service (Store τ) (QueueCall τ) (Act τ) Act.Answer String
    (Option (QueuedMutation τ)) Choice Empty where
  main := QueueCall.main
  perform := perform
  environ := nofun

/-- The store and the calls made so far. -/
abbrev Tabs (τ : Type) :=
  Pool (Store τ) (QueueCall τ) (Act τ) Act.Answer String (Option (QueuedMutation τ))

/-- What happens next. -/
abbrev QueueMove (τ : Type) := Move (QueueCall τ) Choice Empty

end OfflineQueue

end Frontend

end InvoiceFi
