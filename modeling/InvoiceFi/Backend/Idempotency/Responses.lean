import InvoiceFi.Backend.Idempotency.Replay

/-!
# What a retry receives

A retry is answered by the cache or by the table, and the two are written from the result of the
handler by different expressions: the cache keeps the data, the table `data ?? {}`. So the cache
always answers with what the first caller received, and the table does unless the handler has
returned `null` or nothing (`replays_original_iff`).
-/

namespace InvoiceFi

namespace Backend

namespace Idempotency

/-- What a caller receives: the status code and the body. -/
def Reply.received : Reply → Nat × Option Json
  | .fresh result => (result.status, result.data)
  | .replayed statusCode body => (statusCode, body)

/-- The stores that answer a retry. -/
inductive Path where
  | redis
  | database

/-- The reads that the paths answer from. -/
def Path.Reads : Path → Act → Prop
  | .redis, .redisGet _ => True
  | .database, .findUnique .. => True
  | _, _ => False

/-- The response that a path has for the result of a handler. -/
def Path.response : Path → HandlerResult → Nat × Option Json
  | .redis, result => (result.status, result.data)
  | .database, result => (result.status, some result.body)

/-- A step of the interceptor. -/
abbrev InterceptorStep :=
  Step (Pool Store Served Act Act.Answer Error Reply) (Move Served Choice Environ) Empty Unit

/-- The step answers a retry from the store of the path. -/
def Answers (path : Path) (served : Served) (reply : Reply) (t : InterceptorStep) : Prop :=
  ∃ k c a f, t.input = .resume k c ∧ t.pre.calls[k]? = some ⟨served, .await a f⟩ ∧
    path.Reads a ∧ t.post.calls[k]? = some ⟨served, .done (.ok reply)⟩

/-- The request is a retry of the one that has been executed. -/
structure Execution.RetriedBy (x : Execution) (request : Request) : Prop where
  uses : ∃ key, x.request.Uses key ∧ request.Uses key
  userId : x.request.userId = request.userId
  json : x.request.json = request.json

/-- A retry of a handler with the result that is answered along the path receives what the first
caller received, in every run under a hash without collisions. -/
def ReplaysOriginal (path : Path) (result : HandlerResult) : Prop :=
  ∀ config : Config, Function.Injective config.sha.digest → ∀ ms,
    ∀ t ∈ ((interceptor config).machine .empty).trace ⟨.empty, []⟩ ms,
    ∀ served reply, Answers path served reply t →
      (∀ x ∈ t.pre.state.executed, x.RetriedBy served.request → x.result = result) →
      reply.received = (Reply.fresh result).received

variable {config : Config} {P Kept : Served → Prop} {k : Nat} {served : Served} {key : String}
  {s : Store} {c : Choice} {path : Path} {reply : Reply}

theorem Execution.Replays.retriedBy {sha : Sha256} (hsha : Function.Injective sha.digest)
    {x : Execution} {request : Request} {statusCode : Nat} {body : Option Json}
    (h : x.Replays sha request statusCode body) : x.RetriedBy request :=
  ⟨h.uses, h.userId, json_of_hashBody hsha h.bodyHash⟩

/-- A reply from the cache. -/
theorem reply_of_start (hsha : Function.Injective config.sha.digest)
    (hs : Sound config.sha P s) (huses : served.request.Uses key) {a : Act}
    {f : Except Error a.Answer → Task Reply} (hq : .await a f = intercept config served)
    (hreads : path.Reads a) (hdone : f (perform k a c s).1 = .done (.ok reply)) :
    ∃ x ∈ s.executed, x.RetriedBy served.request ∧ reply.received = path.response x.result := by
  rw [intercept, if_neg (not_not.2 huses.post), huses.required] at hq
  cases hq
  cases path with
  | database => exact hreads.elim
  | redis =>
    dsimp only [perform] at hdone
    cases hread : readRedis c.fault (s.redis (cacheKey served.request.userId key)) with
    | error e =>
      obtain ⟨message, rfl⟩ := readRedis_eq_error hread
      rw [hread] at hdone
      cases hdone
    | ok found =>
      have hfound := readRedis_eq_ok hread
      rw [hread] at hdone
      cases found with
      | none => cases hdone
      | some cached =>
        change Async.bind (Async.tryCatch (Async.bind (Async.ofExcept
          (replayFromCache cached served.request.userId (hashBody config.sha served.request)))
            fun reply => pure (some reply)) _) _ = _ at hdone
        cases hreply : replayFromCache cached served.request.userId
            (hashBody config.sha served.request) with
        | error e =>
          obtain ⟨status, message, rfl⟩ := replayFromCache_eq_error hreply
          rw [hreply] at hdone
          cases hdone
        | ok reply' =>
          rw [hreply] at hdone
          cases hdone
          obtain rfl := (replayFromCache_eq_ok.1 hreply).2.2
          obtain ⟨x, hx, hreplays, hbody⟩ := hs.replays_cached huses hfound hreply
          exact ⟨x, hx, hreplays.retriedBy hsha, Prod.ext hreplays.statusCode hbody⟩

/-- A reply from the table. -/
theorem reply_of_looking (hsha : Function.Injective config.sha.digest)
    (hs : Sound config.sha P s) (huses : served.request.Uses key) {a : Act}
    {f : Except Error a.Answer → Task Reply}
    (hq : .await a f = authoritativePath config served key) (hreads : path.Reads a)
    (hdone : f (perform k a c s).1 = .done (.ok reply)) :
    ∃ x ∈ s.executed, x.RetriedBy served.request ∧ reply.received = path.response x.result := by
  cases hq
  cases path with
  | redis => exact hreads.elim
  | database =>
    dsimp only [perform] at hdone
    cases hread : read c.fault (s.keys.findUnique key served.request.userId) with
    | error e =>
      rw [hread] at hdone
      cases hdone
    | ok found =>
      have hfound := read_eq_ok hread
      rw [hread] at hdone
      cases found with
      | none => cases hdone
      | some existing =>
        have hreply : replayExisting existing (hashBody config.sha served.request) = .ok reply :=
          Async.done.inj hdone
        obtain rfl := (replayExisting_eq_ok.1 hreply).2.2
        obtain ⟨x, hx, hreplays, hbody⟩ := hs.replays_existing huses hfound hreply
        exact ⟨x, hx, hreplays.retriedBy hsha, Prod.ext hreplays.statusCode hbody⟩

/-- A reply that is read from a store is the response that the path has for the result of an
execution of the same key, user and body. -/
theorem CallAt.reply_of_read {a : Act} {f : Except Error a.Answer → Task Reply}
    (hsha : Function.Injective config.sha.digest)
    (h : CallAt config P Kept k served (.await a f) s) (hs : Sound config.sha P s)
    (hreads : path.Reads a) (hdone : f (perform k a c s).1 = .done (.ok reply)) :
    ∃ x ∈ s.executed, x.RetriedBy served.request ∧ reply.received = path.response x.result := by
  cases h.point with
  | passing method point fresh =>
    rw [intercept, if_pos method] at point
    cases point
    cases path <;> exact hreads.elim
  | asking key uses point fresh =>
    generalize hq : Async.await a f = q at point
    cases point with
    | start => exact reply_of_start hsha hs uses hq hreads hdone
    | looking => exact reply_of_looking hsha hs uses hq hreads hdone
    | acquiring =>
      cases hq
      cases path <;> exact hreads.elim
    | locking now =>
      cases hq
      cases path <;> exact hreads.elim
    | inserting expiresAt lockedAt =>
      cases hq
      cases path <;> exact hreads.elim
  | running key uses point fresh row =>
    cases point
    cases path <;> exact hreads.elim
  | closing key uses x mem call only row =>
    cases a with
    | redisGet ck => exact only.1.elim
    | findUnique key userId => exact only.1.elim
    | _ => cases path <;> exact hreads.elim
  | ended r point fresh passed replays => cases point

/-- A step that answers a retry sends the response that the path has for the result of an execution
of the retried request. -/
theorem response_of_answers (hsha : Function.Injective config.sha.digest)
    {ms : List (Move Served Choice Environ)} {t : InterceptorStep}
    (ht : t ∈ ((interceptor config).machine .empty).trace ⟨.empty, []⟩ ms)
    (hanswers : Answers path served reply t) :
    ∃ x ∈ t.pre.state.executed, x.RetriedBy served.request ∧
      reply.received = path.response x.result := by
  obtain ⟨ms₁, m, ms₂, -, rfl⟩ := Machine.mem_trace.1 ht
  obtain ⟨k, c, a, f, hinput, hk, hreads, hpost⟩ := hanswers
  rw [Machine.step_input] at hinput
  subst hinput
  rw [Machine.step_pre] at hk ⊢
  obtain ⟨hs, hat, -⟩ := calls_exec config (fun _ => True) (fun _ => False) ms₁
    (fun _ _ => trivial) fun _ _ _ _ _ _ _ hkept => hkept.elim
  refine (hat k _ hk).reply_of_read (c := c) hsha hs hreads ?_
  change ((interceptor config).move (.resume k c) _).calls[k]? = _ at hpost
  rw [Service.move, hk, List.getElem?_set_self (List.getElem?_eq_some_iff.1 hk).1] at hpost
  exact congrArg Call.rest (Option.some.inj hpost)

/-! ## The two paths -/

/-- The table stores what the handler has returned, unless that is `null` or nothing. -/
theorem body_eq_iff {result : HandlerResult} :
    some result.body = result.data ↔ result.data ≠ none ∧ result.data ≠ some .null := by
  obtain ⟨statusCode, data⟩ := result
  cases data with
  | none => exact iff_of_false nofun fun h => h.1 rfl
  | some data =>
    cases data with
    | null => exact iff_of_false nofun fun h => h.2 rfl
    | _ => exact iff_of_true rfl ⟨nofun, nofun⟩

/-- A path that has the data of the handler always replays the original response. -/
theorem replaysOriginal_of {result : HandlerResult}
    (hresponse : path.response result = (result.status, result.data)) :
    ReplaysOriginal path result := by
  intro config hsha ms t ht served reply hanswers honly
  obtain ⟨x, hx, hretried, hreply⟩ := response_of_answers hsha ht hanswers
  rw [hreply, honly x hx hretried]
  exact hresponse

/-- A statement that succeeds, and a handler that leaves the result. -/
def leaving (result : HandlerResult) : Choice := ⟨.none, 0, .ok result⟩

/-- The key of the request. -/
def settleKey : String := "123e4567-e89b-12d3-a456-426614174000"

/-- The row of the request. -/
def settleRow : IdempotencyKey := ⟨keyData plainConfig settleRequest settleKey 86400000 0, 0⟩

/-- The store once the handler has left the result and the response is in the table. -/
def writtenStore (result : HandlerResult) : Store where
  keys := ⟨[settleRow.complete result.status result.body], List.nodup_singleton _,
    List.nodup_singleton _⟩
  redis _ := none
  executed := [⟨0, settleRequest.request, result⟩]

/-- A request whose handler leaves the result, up to the write of its row. -/
def written (result : HandlerResult) : List (Move Served Choice Environ) :=
  toHandler 0 0 ++ [.resume 0 (leaving result), .resume 0 (leaving result)]

theorem exec_written (result : HandlerResult) : ∃ q,
    ((interceptor plainConfig).machine .empty).exec ⟨.empty, []⟩ (written result) =
      ⟨writtenStore result, [⟨settleRequest, q⟩]⟩ := by
  have hlocked : ((interceptor plainConfig).machine .empty).exec ⟨.empty, []⟩ (toHandler 0 0) =
      ⟨⟨⟨[settleRow], List.nodup_singleton _, List.nodup_singleton _⟩, fun _ => none, []⟩,
        [⟨settleRequest, execute plainConfig settleRequest settleKey 0⟩]⟩ := rfl
  rw [written, Machine.exec_append, hlocked]
  exact ⟨_, rfl⟩

/-- The table answers a retry with the body it has stored. -/
theorem body_of_replaysOriginal {result : HandlerResult}
    (h : ReplaysOriginal .database result) : some result.body = result.data := by
  let m := (interceptor plainConfig).machine .empty
  let retry : Move Served Choice Environ := .resume 1 (smooth 0)
  obtain ⟨q, hq⟩ := exec_written result
  have hlooking : m.exec ⟨.empty, []⟩ (written result ++ [.start settleRequest, retry]) =
      ⟨writtenStore result, [⟨settleRequest, q⟩,
        ⟨settleRequest, authoritativePath plainConfig settleRequest settleKey⟩]⟩ := by
    rw [Machine.exec_append, hq]
    rfl
  have ht := Machine.step_mem_trace m ⟨.empty, []⟩
    (written result ++ [.start settleRequest, retry]) retry []
  rw [hlooking] at ht
  have hanswers : Answers .database settleRequest (.replayed result.status (some result.body))
      (m.step retry ⟨writtenStore result, [⟨settleRequest, q⟩,
        ⟨settleRequest, authoritativePath plainConfig settleRequest settleKey⟩]⟩) :=
    ⟨1, smooth 0, _, _, rfl, rfl, trivial, rfl⟩
  have hreceived := h plainConfig plainSha256_injective _ _ ht settleRequest _ hanswers
    fun x hx _ => by
      cases List.mem_singleton.1 hx
      rfl
  exact (Prod.mk.inj hreceived).2

/-- **Both replay paths return the original response**, exactly for the handlers that return neither
`null` nor nothing. The cache does so for every handler, and both paths send the original status
code. -/
theorem replays_original_iff (result : HandlerResult) :
    (∀ path, ReplaysOriginal path result) ↔ result.data ≠ none ∧ result.data ≠ some .null := by
  rw [← body_eq_iff]
  constructor
  · intro h
    exact body_of_replaysOriginal (h .database)
  · intro hbody path
    cases path with
    | redis => exact replaysOriginal_of rfl
    | database => exact replaysOriginal_of (congrArg (Prod.mk result.status) hbody)

/-- The handler returns nothing: the table answers the retry with an empty object. -/
theorem nothing_replayed_as_object : ¬ ∀ path, ReplaysOriginal path ⟨some 201, none⟩ := by
  intro h
  cases body_of_replaysOriginal (h .database)

end Idempotency

end Backend

end InvoiceFi
