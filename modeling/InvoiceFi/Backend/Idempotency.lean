import InvoiceFi.Backend.Database
import InvoiceFi.Backend.Runtime
import InvoiceFi.Lib.Async
import InvoiceFi.Lib.Fallible
import InvoiceFi.Lib.Json

/-!
# The idempotency interceptor

`intercept` of `common/idempotency.interceptor.ts`, as a program over the actions it awaits: the
two reads that may replay a response, the insertion of the locked row, the handler that the
interceptor wraps, and the writes that follow it. `IdempotencyTable` carries the unique constraints
of the model `IdempotencyKey` as fields. The jobs of `common/idempotency-cleanup.service.ts` delete
rows from outside, at any time, and the cache forgets a record at any time.

The id of a row is a fresh UUID; a call inserts one row at most, and the number of the call stands
for its id. The promise of the writes that follow the handler is awaited by nobody, so the call
answers with what the handler has returned whatever becomes of them. The store remembers every
successful execution of a handler; no program reads them.
-/

namespace InvoiceFi

namespace Backend

namespace Idempotency

/-! ## Requests -/

/-- `request.user`. -/
structure RequestUser where
  userId : Option String
  sub : Option String

/-- What the interceptor reads of a request. -/
structure Request where
  method : String
  path : String
  idempotencyKey : Option String
  user : Option RequestUser
  body : Option Json

/-- `request.user?.userId ?? request.user?.sub ?? 'anonymous'`. -/
def Request.userId (request : Request) : String :=
  (request.user.bind fun user => user.userId.or user.sub).getD "anonymous"

/-- `request.body ?? {}`. -/
def Request.json (request : Request) : Json :=
  match request.body with
  | none | some .null => .obj []
  | some body => body

/-- `hashBody`. -/
def hashBody (sha : Sha256) (request : Request) : String := sha.digest request.json.stringify

/-- `requestPath`. -/
def Request.requestPath (request : Request) : String := request.method ++ " " ++ request.path

/-- `cacheKey`. -/
def cacheKey (userId key : String) : String := "idempotency:" ++ userId ++ ":" ++ key

/-- `[0-9a-f]`, whatever the case. -/
def isHexDigit (c : Char) : Bool :=
  c.isDigit || ('a' ≤ c && c ≤ 'f') || ('A' ≤ c && c ≤ 'F')

/-- `uuidRegex`: hexadecimal digits in groups of 8, 4, 4, 4 and 12 with a dash between them. -/
def isUuid (text : String) : Bool :=
  text.toList.length = 36 && text.toList.zipIdx.all fun (c, i) =>
    if i = 8 ∨ i = 13 ∨ i = 18 ∨ i = 23 then c = '-' else isHexDigit c

/-- The key of a request. -/
def requireKey (request : Request) : Except Error String :=
  match request.idempotencyKey with
  | none | some "" => .error (.http 400 "Idempotency-Key header is required for this endpoint")
  | some key =>
    if isUuid key then .ok key else .error (.http 400 "Idempotency-Key must be a valid UUID")

/-! ## The two stores -/

/-- What a handler leaves: the status code of the response, and the data it returns. -/
structure HandlerResult where
  statusCode : Option Nat
  data : Option Json

/-- `response.statusCode ?? HttpStatus.OK`. -/
def HandlerResult.status (result : HandlerResult) : Nat := result.statusCode.getD 200

/-- `data ?? {}`. -/
def HandlerResult.body (result : HandlerResult) : Json :=
  match result.data with
  | none | some .null => .obj []
  | some data => data

/-- `IdempotencyRecord`, the record of the cache. -/
structure IdempotencyRecord where
  response : Option Json
  statusCode : Nat
  userId : String
  bodyHash : String
  createdAt : Nat

/-- The data a row is inserted with. -/
structure KeyData where
  key : String
  userId : String
  bodyHash : String
  statusCode : Nat
  responseBody : Json
  requestPath : String
  lockedAt : Option Nat
  lockOwner : Option String
  expiresAt : Nat

/-- The model `IdempotencyKey`. -/
structure IdempotencyKey extends KeyData where
  id : Nat

/-- The unique constraint `(key, userId)`. -/
def IdempotencyKey.keyUserId (row : IdempotencyKey) : String × String := (row.key, row.userId)

/-- The row once the handler has succeeded: its response is stored and its lock released. -/
def IdempotencyKey.complete (statusCode : Nat) (responseBody : Json) (row : IdempotencyKey) :
    IdempotencyKey :=
  { row with
    statusCode := statusCode
    responseBody := responseBody
    lockedAt := none
    lockOwner := none }

/-- The table of idempotency keys, with its unique columns. -/
structure IdempotencyTable where
  rows : List IdempotencyKey
  ids : (rows.map IdempotencyKey.id).Nodup
  keys : (rows.map IdempotencyKey.keyUserId).Nodup

namespace IdempotencyTable

/-- `findUnique({ where: { key_userId } })`. -/
def findUnique (t : IdempotencyTable) (key userId : String) : Option IdempotencyKey :=
  t.rows.find? fun row => decide (row.keyUserId = (key, userId))

/-- `create({ data })`, for a row of the given id. -/
def create (t : IdempotencyTable) (id : Nat) (data : KeyData) : Except Error IdempotencyTable :=
  if h : id ∈ t.rows.map IdempotencyKey.id ∨
      (data.key, data.userId) ∈ t.rows.map IdempotencyKey.keyUserId then
    .error .uniqueViolation
  else
    .ok
      { rows := t.rows ++ [⟨data, id⟩]
        ids := by
          rw [List.map_append, List.map_singleton, List.nodup_append_comm]
          exact List.nodup_cons.2 ⟨fun hid => h (.inl hid), t.ids⟩
        keys := by
          rw [List.map_append, List.map_singleton, List.nodup_append_comm]
          exact List.nodup_cons.2 ⟨fun hkey => h (.inr hkey), t.keys⟩ }

/-- `update({ where: { id }, data })` at the end of a handler. -/
def update (t : IdempotencyTable) (id statusCode : Nat) (responseBody : Json) :
    Except Error IdempotencyTable :=
  if id ∈ t.rows.map IdempotencyKey.id then
    .ok
      { rows := t.rows.map fun row =>
          if row.id = id then row.complete statusCode responseBody else row
        ids := by
          rw [List.map_map]
          have hid : (IdempotencyKey.id ∘ fun row =>
              if row.id = id then row.complete statusCode responseBody else row) =
              IdempotencyKey.id := by
            funext row
            by_cases h : row.id = id <;> simp [h, IdempotencyKey.complete]
          rw [hid]
          exact t.ids
        keys := by
          rw [List.map_map]
          have hkey : (IdempotencyKey.keyUserId ∘ fun row =>
              if row.id = id then row.complete statusCode responseBody else row) =
              IdempotencyKey.keyUserId := by
            funext row
            by_cases h : row.id = id <;>
              simp [h, IdempotencyKey.complete, IdempotencyKey.keyUserId]
          rw [hkey]
          exact t.keys }
  else .error (.database "Record to update not found.")

/-- `deleteMany({ where })`. -/
def deleteMany (t : IdempotencyTable) (p : IdempotencyKey → Bool) : IdempotencyTable where
  rows := t.rows.filter fun row => !p row
  ids := t.ids.sublist (List.filter_sublist.map _)
  keys := t.keys.sublist (List.filter_sublist.map _)

end IdempotencyTable

/-- A handler that has returned: the call it ran in, the request and what it has left. -/
structure Execution where
  call : Nat
  request : Request
  result : HandlerResult

/-- The table, the cache, and the handlers that have returned so far. -/
structure Store where
  keys : IdempotencyTable
  redis : String → Option IdempotencyRecord
  executed : List Execution

/-- The store before any request. -/
def Store.empty : Store := ⟨⟨[], List.nodup_nil, List.nodup_nil⟩, fun _ => none, []⟩

/-! ## Actions -/

/-- The actions the interceptor awaits. -/
inductive Act where
  | redisGet (cacheKey : String)
  | findUnique (key userId : String)
  | now
  | create (data : KeyData)
  | handle (request : Request)
  | update (id statusCode : Nat) (responseBody : Json)
  | setIfNotExists (cacheKey : String) (record : IdempotencyRecord) (ttlSeconds : Nat)

/-- The answers of the actions. -/
abbrev Act.Answer : Act → Type
  | .redisGet _ => Option IdempotencyRecord
  | .findUnique .. => Option IdempotencyKey
  | .now | .create _ => Nat
  | .handle _ => HandlerResult
  | .update .. => Unit
  | .setIfNotExists .. => Bool

/-- What the outside decides when it answers an action: how a statement fares, the clock, and how
the handler ends. -/
structure Choice where
  fault : Fault
  clock : Nat
  handler : Except Error HandlerResult

/-- A read of the cache. Its errors carry no HTTP status. -/
def readRedis {α : Type} (f : Fault) (a : α) : Except Error α :=
  if f = .none then .ok a else .error (.rpc "Socket closed unexpectedly")

/-- `SET` with `NX`: a record that is there stays. -/
def Store.setIfNotExists (cacheKey : String) (record : IdempotencyRecord) (s : Store) :
    Bool × Store :=
  match s.redis cacheKey with
  | some _ => (false, s)
  | none => (true, { s with redis := Function.update s.redis cacheKey (some record) })

/-- What an action of the call `k` answers and does. -/
def perform (k : Nat) : (a : Act) → Choice → Store → Except Error a.Answer × Store
  | .redisGet cacheKey, c, s => (readRedis c.fault (s.redis cacheKey), s)
  | .findUnique key userId, c, s => (read c.fault (s.keys.findUnique key userId), s)
  | .now, c, s => (.ok c.clock, s)
  | .create data, c, s =>
    transact c.fault (fun s => (s.keys.create k data).map fun t => (k, { s with keys := t })) s
  | .handle request, c, s =>
    match c.handler with
    | .ok result => (.ok result, { s with executed := s.executed ++ [⟨k, request, result⟩] })
    | .error e => (.error e, s)
  | .update id statusCode responseBody, c, s =>
    transact c.fault (fun s => (s.keys.update id statusCode responseBody).map fun t =>
      ((), { s with keys := t })) s
  | .setIfNotExists cacheKey record _, c, s =>
    transact c.fault (fun s => .ok (s.setIfNotExists cacheKey record)) s

/-! ## The interceptor -/

/-- A program of the interceptor. -/
abbrev Task (α : Type) := Async Act Act.Answer Error α

/-- Awaiting an action. -/
def act (a : Act) : Task a.Answer := Async.perform a

/-- The hash function and `IDEMPOTENCY_TTL_HOURS`. -/
structure Config where
  sha : Sha256
  ttlHours : Option Nat

/-- `ttlSeconds`. -/
def Config.ttlSeconds (config : Config) : Nat := config.ttlHours.getD 24 * 3600

/-- A request and the process that serves it, by the name it locks rows with. -/
structure Served where
  request : Request
  lockOwner : String

/-- What a request is answered with: the result of its own handler, or a stored response. -/
inductive Reply where
  | fresh (result : HandlerResult)
  | replayed (statusCode : Nat) (body : Option Json)

/-- `error.status !== undefined`. -/
def hasStatus : Error → Bool
  | .http .. => true
  | _ => false

/-- The answer to a key that comes with another body. -/
def reusedKey : Error := .http 409 "Idempotency key already used with a different request body"

/-- The answer to a key whose row is locked. -/
def concurrentRequest : Error :=
  .http 409 ("A concurrent request with the same Idempotency-Key is in progress. " ++
    "Retry after the first request completes.")

/-- `replayFromCache`. -/
def replayFromCache (cached : IdempotencyRecord) (userId bodyHash : String) :
    Except Error Reply := do
  rejectIf (cached.userId ≠ userId) (.http 403 "Idempotency key belongs to a different user")
  rejectIf (cached.bodyHash ≠ bodyHash) reusedKey
  pure (.replayed cached.statusCode cached.response)

/-- The answer of a row that is found in the table. -/
def replayExisting (existing : IdempotencyKey) (bodyHash : String) : Except Error Reply := do
  rejectIf (existing.bodyHash ≠ bodyHash) reusedKey
  rejectIf (existing.lockedAt ≠ none) concurrentRequest
  pure (.replayed existing.statusCode (some existing.responseBody))

/-- The record that is cached for the result of a request. -/
def cacheRecord (sha : Sha256) (request : Request) (result : HandlerResult) (createdAt : Nat) :
    IdempotencyRecord where
  response := result.data
  statusCode := result.status
  userId := request.userId
  bodyHash := hashBody sha request
  createdAt := createdAt

variable (config : Config) (served : Served) (key : String)

/-- The fast path. An error of the cache falls through, an exception of NestJS does not. -/
def fastPath : Task (Option Reply) :=
  tryCatch
    (do
      let cached ← act (.redisGet (cacheKey served.request.userId key))
      match cached with
      | some cached => do
        let reply ← Async.ofExcept
          (replayFromCache cached served.request.userId (hashBody config.sha served.request))
        pure (some reply)
      | none => pure none)
    fun e => if hasStatus e then throw e else pure none

/-- What follows the handler: the row gets the response, and then the cache. -/
def storeResponse (id : Nat) (result : HandlerResult) : Task Unit := do
  act (.update id result.status result.body)
  let createdAt ← act .now
  tryCatch
    (do
      let _ ← act (.setIfNotExists (cacheKey served.request.userId key)
        (cacheRecord config.sha served.request result createdAt) config.ttlSeconds)
      pure ())
    fun _ => pure ()

/-- The handler and what follows it, once the row of the given id has been inserted. -/
def execute (id : Nat) : Task Reply := do
  let result ← act (.handle served.request)
  tryCatch (storeResponse config served key id result) fun _ => pure ()
  pure (.fresh result)

/-- The data of the row that a request inserts. -/
def keyData (expiresAt lockedAt : Nat) : KeyData where
  key := key
  userId := served.request.userId
  bodyHash := hashBody config.sha served.request
  statusCode := 0
  responseBody := .obj []
  requestPath := served.request.requestPath
  lockedAt := some lockedAt
  lockOwner := some served.lockOwner
  expiresAt := expiresAt

/-- The insertion of the locked row, and the execution. -/
def insertAndExecute (expiresAt lockedAt : Nat) : Task Reply := do
  let id ← tryCatch (act (.create (keyData config served key expiresAt lockedAt)))
    fun e => throw (if e = .uniqueViolation then concurrentRequest else e)
  execute config served key id

/-- The first request of a key acquires the lock. -/
def acquire : Task Reply := do
  let now ← act .now
  let lockedAt ← act .now
  insertAndExecute config served key (now + config.ttlSeconds * 1000) lockedAt

/-- The authoritative path. -/
def authoritativePath : Task Reply := do
  let existing ← act (.findUnique key served.request.userId)
  match existing with
  | some existing => Async.ofExcept (replayExisting existing (hashBody config.sha served.request))
  | none => acquire config served key

/-- `intercept`. -/
def intercept : Task Reply :=
  if served.request.method ≠ "POST" then do
    let result ← act (.handle served.request)
    pure (.fresh result)
  else do
    let key ← Async.ofExcept (requireKey served.request)
    let hit ← fastPath config served key
    match hit with
    | some reply => pure reply
    | none => authoritativePath config served key

/-! ## The service -/

/-- What happens outside the calls: the two cleanup jobs, and the cache forgetting a record. -/
inductive Environ where
  | releaseStaleLocks (now : Nat)
  | deleteExpiredKeys (now : Nat)
  | evict (cacheKey : String)

/-- The row is locked since before `staleCutoff`. -/
def IdempotencyKey.stale (now : Nat) (row : IdempotencyKey) : Bool :=
  match row.lockedAt with
  | some lockedAt => lockedAt < now - 5 * 60 * 1000
  | none => false

/-- The row has expired. -/
def IdempotencyKey.expired (now : Nat) (row : IdempotencyKey) : Bool := row.expiresAt < now

/-- What happens to the store from outside. -/
def environ (o : Environ) (s : Store) : Store :=
  match o with
  | .releaseStaleLocks now => { s with keys := s.keys.deleteMany (IdempotencyKey.stale now) }
  | .deleteExpiredKeys now => { s with keys := s.keys.deleteMany (IdempotencyKey.expired now) }
  | .evict cacheKey => { s with redis := Function.update s.redis cacheKey none }

/-- The interceptor: the requests in parallel. -/
def interceptor (config : Config) :
    Service Store Served Act Act.Answer Error Reply Choice Environ where
  main := intercept config
  perform := perform
  environ := environ

end Idempotency

end Backend

end InvoiceFi
