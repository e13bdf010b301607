import InvoiceFi.Backend.Idempotency.AtMostOnce

/-!
# A replayed response belongs to the same request

A stored response is replayed to a request of the same key, user and body. The endpoint is stored
with the row and compared nowhere, so that the replay belongs to the same request only as long as a
key, with one body, is used at one endpoint (`KeysAgree`, `replays_same_request`).
-/

namespace InvoiceFi

namespace Backend

namespace Idempotency

/-- The two requests come from one user, to one endpoint, with one body. -/
structure Request.Same (r r' : Request) : Prop where
  userId : r.userId = r'.userId
  method : r.method = r'.method
  path : r.path = r'.path
  json : r.json = r'.json

/-- A user who sends one key with one body twice sends it to one path. -/
def KeysAgree (ms : List (Move Served Choice Environ)) : Prop :=
  ∀ a b, .start a ∈ ms → .start b ∈ ms → ∀ key, a.request.Uses key → b.request.Uses key →
    a.request.userId = b.request.userId → a.request.json = b.request.json →
      a.request.path = b.request.path

variable {config : Config} {P Kept : Served → Prop} {k : Nat} {served : Served} {key : String}
  {s : Store}

/-- The hash of a body determines the body, without collisions. -/
theorem json_of_hashBody {sha : Sha256} (hsha : Function.Injective sha.digest) {r r' : Request}
    (h : hashBody sha r = hashBody sha r') : r.json = r'.json :=
  Json.stringify_injective (hsha h)

/-- A call that has not asked all it asks has not ended. -/
theorem Asking.not_done {r : Except Error Reply} (huses : served.request.Uses key) :
    ¬ Asking config served key (.done r) := by
  intro h
  generalize hq : Async.done r = q at h
  cases h with
  | start =>
    rw [intercept, if_neg (not_not.2 huses.post), huses.required] at hq
    cases hq
  | looking => cases hq
  | acquiring => cases hq
  | locking now => cases hq
  | inserting expiresAt lockedAt => cases hq

/-- A call that has ended has thrown, has executed its handler, or has replayed the response of an
execution. -/
theorem CallAt.answer {r : Except Error Reply} (h : CallAt config P Kept k served (.done r) s) :
    (∃ e, r = .error e) ∨
    (∃ result, r = .ok (.fresh result) ∧
      (served.request.method = "POST" → ∃ x ∈ s.executed, x.call = k)) ∨
    ∃ statusCode body, r = .ok (.replayed statusCode body) ∧
      (served.request.method = "POST" → Unexecuted k s) ∧
      ∃ x ∈ s.executed, x.Replays config.sha served.request statusCode body := by
  cases h.point with
  | passing method point fresh =>
    rw [intercept, if_pos method] at point
    cases point
  | asking key uses point fresh => exact absurd point (Asking.not_done uses)
  | running key uses point fresh row => cases point
  | closing key uses x mem call only row =>
    exact .inr (.inl ⟨x.result, only, fun _ => ⟨x, mem, call⟩⟩)
  | ended r' point fresh passed replays =>
    cases point
    cases r with
    | error e => exact .inl ⟨e, rfl⟩
    | ok reply =>
      cases reply with
      | fresh result =>
        exact .inr (.inl ⟨result, rfl, fun hpost => absurd hpost (passed result rfl)⟩)
      | replayed statusCode body =>
        exact .inr (.inr ⟨statusCode, body, rfl, fresh, replays statusCode body rfl⟩)

/-- A replayed response is the one of an earlier execution of the same request. -/
theorem replay_of_execution (hsha : Function.Injective config.sha.digest)
    {ms : List (Move Served Choice Environ)} (hagree : KeysAgree ms)
    {statusCode : Nat} {body : Option Json}
    (hk : (((interceptor config).machine .empty).exec ⟨.empty, []⟩ ms).calls[k]? =
      some ⟨served, .done (.ok (.replayed statusCode body))⟩) :
    ∃ x ∈ (((interceptor config).machine .empty).exec ⟨.empty, []⟩ ms).state.executed,
      x.call ≠ k ∧ x.request.Same served.request ∧ statusCode = x.result.status ∧
      (body = x.result.data ∨ body = some x.result.body) := by
  obtain ⟨hs, hat, -⟩ := calls_exec config (fun served => .start served ∈ ms) (fun _ => False) ms
    (fun _ h => h) fun _ _ _ _ _ _ _ hkept => hkept.elim
  have h := hat k _ hk
  rcases h.answer with ⟨e, hr⟩ | ⟨result, hr, -⟩ | ⟨_, _, hr, hfresh, x, hx, hreplays⟩
  · cases hr
  · cases hr
  · cases hr
    obtain ⟨⟨key, huses, huses'⟩, huser, hbody, hstatus, hresponse⟩ := hreplays
    obtain ⟨served', hstart, hrequest⟩ := hs.served x hx
    have hjson := json_of_hashBody hsha hbody
    have hpath : x.request.path = served.request.path := by
      rw [← hrequest] at huses huser hjson ⊢
      exact hagree served' served hstart h.kind key huses huses' huser hjson
    exact ⟨x, hx, hfresh huses'.post x hx,
      ⟨huser, huses.post.trans huses'.post.symm, hpath, hjson⟩, hstatus, hresponse⟩

/-- The execution for a key whose row is in the table is the one of the row's call. -/
theorem call_of_execution {p : Pool Store Served Act Act.Answer Error Reply}
    (hat : p.Meets (CallAt config P fun _ => True)) (hnumbered : Numbered p) {row : IdempotencyKey}
    (hrow : row ∈ p.state.keys.rows) {x : Execution} (hx : x ∈ p.state.executed)
    (huses : x.request.Uses row.key) (huser : x.request.userId = row.userId) : x.call = row.id := by
  obtain ⟨row', hrow', hid, hof⟩ := row_of_execution hat hnumbered hx huses.post fun _ _ => trivial
  have hrows : row' = row := IdempotencyTable.eq_of_keyUserId hrow' hrow
    (hof.uses.unique huses) (hof.userId.trans huser)
  rw [← hid, hrows]

/-- Without a cleanup, a request that comes with a key that another request has taken, to another
path or with another body, is not executed and is answered with an error. -/
theorem reuse_rejected (hsha : Function.Injective config.sha.digest)
    {ms : List (Move Served Choice Environ)} (hagree : KeysAgree ms)
    (hclean : ∀ o, .environ o ∈ ms → ∃ ck, o = .evict ck) {j : Nat} {a b : Served}
    {q q' : Task Reply}
    (hj : (((interceptor config).machine .empty).exec ⟨.empty, []⟩ ms).calls[j]? = some ⟨a, q⟩)
    (hk : (((interceptor config).machine .empty).exec ⟨.empty, []⟩ ms).calls[k]? = some ⟨b, q'⟩)
    (hrow : HasRow j (((interceptor config).machine .empty).exec ⟨.empty, []⟩ ms).state)
    (huses : a.request.Uses key) (huses' : b.request.Uses key)
    (huser : a.request.userId = b.request.userId)
    (hother : ¬ (a.request.path = b.request.path ∧ a.request.json = b.request.json)) :
    Unexecuted k (((interceptor config).machine .empty).exec ⟨.empty, []⟩ ms).state ∧
      ∀ r, q' = .done r → ∃ e, r = .error e := by
  have hkeeps : ∀ t ∈ ((interceptor config).machine .empty).trace ⟨.empty, []⟩ ms,
      Keeps (fun _ => True) t.pre t.input := by
    rintro t ht o hi k call - - - hrow
    obtain ⟨ck, rfl⟩ := hclean o (hi ▸ Machine.input_mem_of_mem_trace ht)
    exact hrow
  obtain ⟨-, hat, hnumbered⟩ := calls_exec config (fun served => .start served ∈ ms)
    (fun _ => True) ms (fun _ h => h) hkeeps
  generalize ((interceptor config).machine .empty).exec ⟨.empty, []⟩ ms = p at *
  obtain ⟨row, hmem, rfl⟩ := hrow
  have hof := (hat _ _ hj).row row hmem rfl
  have hkey : row.key = key := hof.uses.unique huses
  have hfresh : Unexecuted k p.state := by
    intro x hx hcall
    have hrequest : x.request = b.request := (hat k _ hk).execution x hx hcall
    have hxcall := call_of_execution hat hnumbered hmem hx (hkey ▸ hrequest ▸ huses')
      (hrequest ▸ huser.symm.trans hof.userId.symm)
    rw [← hcall, hxcall, hj] at hk
    cases hk
    exact hother ⟨rfl, rfl⟩
  refine ⟨hfresh, ?_⟩
  rintro r rfl
  rcases (hat k _ hk).answer with herr | ⟨result, -, hx⟩ | ⟨_, _, -, -, x, hx, hreplays⟩
  · exact herr
  · obtain ⟨x, hx, hcall⟩ := hx huses'.post
    exact absurd hcall (hfresh x hx)
  · obtain ⟨⟨key', hxuses, hbuses⟩, hxuser, hbody, -, -⟩ := hreplays
    cases hbuses.unique huses'
    have hcall := call_of_execution hat hnumbered hmem hx (hkey ▸ hxuses)
      (hxuser.trans (huser.symm.trans hof.userId.symm))
    have hrequest : x.request = a.request := (hat _ _ hj).execution x hx hcall
    have hjson : a.request.json = b.request.json := hrequest ▸ json_of_hashBody hsha hbody
    exact absurd ⟨hagree a b (hat _ _ hj).kind (hat k _ hk).kind _ huses huses' huser hjson, hjson⟩
      hother

/-- **A replayed response belongs to the same request**, in every run in which the keys agree, under
a hash without collisions: it is the response of an earlier execution of a request of the same user,
method, path and body. In the runs without a cleanup, where a key that has been taken stays taken, a
request that comes with the key of another one, to another path or with another body, is not
executed and is answered with an error. -/
theorem replays_same_request {config : Config} (hsha : Function.Injective config.sha.digest)
    {ms : List (Move Served Choice Environ)} (hagree : KeysAgree ms) :
    (∀ k served statusCode body,
      (((interceptor config).machine .empty).exec ⟨.empty, []⟩ ms).calls[k]? =
        some ⟨served, .done (.ok (.replayed statusCode body))⟩ →
      ∃ x ∈ (((interceptor config).machine .empty).exec ⟨.empty, []⟩ ms).state.executed,
        x.call ≠ k ∧ x.request.Same served.request ∧ statusCode = x.result.status ∧
        (body = x.result.data ∨ body = some x.result.body)) ∧
    ((∀ o, .environ o ∈ ms → ∃ ck, o = .evict ck) → ∀ j k a b q q' key,
      (((interceptor config).machine .empty).exec ⟨.empty, []⟩ ms).calls[j]? = some ⟨a, q⟩ →
      (((interceptor config).machine .empty).exec ⟨.empty, []⟩ ms).calls[k]? = some ⟨b, q'⟩ →
      HasRow j (((interceptor config).machine .empty).exec ⟨.empty, []⟩ ms).state →
      a.request.Uses key → b.request.Uses key → a.request.userId = b.request.userId →
      ¬ (a.request.path = b.request.path ∧ a.request.json = b.request.json) →
      Unexecuted k (((interceptor config).machine .empty).exec ⟨.empty, []⟩ ms).state ∧
        ∀ r, q' = .done r → ∃ e, r = .error e) :=
  ⟨fun _ _ _ _ hk => replay_of_execution hsha hagree hk,
    fun hclean _ _ _ _ _ _ _ hj hk hrow huses huses' huser hother =>
      reuse_rejected hsha hagree hclean hj hk hrow huses huses' huser hother⟩

/-- The same key from the same user, with another body. -/
def otherBody : Served :=
  { settleRequest with request := { settleRequest.request with
      body := some (.obj [("invoiceId", .str "8")]) } }

/-- The same key from the same user, with the same body, to another endpoint. -/
def otherEndpoint : Served :=
  { settleRequest with request := { settleRequest.request with path := "/financing-pool/fund" } }

/-- A request that is executed, a retry that is answered by the cache, and a request with another
body that is rejected by the table. -/
theorem replays_same_request_retried :
    let ms := toHandler 0 0 ++ List.replicate 4 (.resume 0 (smooth 1)) ++ .start settleRequest ::
      .resume 1 (smooth 2) :: .start otherBody :: [.resume 2 (failing 3), .resume 2 (smooth 3)]
    let p := ((interceptor plainConfig).machine .empty).exec ⟨.empty, []⟩ ms
    (∃ x ∈ p.state.executed, x.call ≠ 1 ∧ x.request.Same settleRequest.request ∧
      201 = x.result.status ∧ (none = x.result.data ∨ none = some x.result.body)) ∧
    Unexecuted 2 p.state := by
  intro ms p
  have hstart : ∀ a, .start a ∈ ms → a.request.path = "/settlement/settle" := by
    intro a ha
    simp only [ms, toHandler, List.mem_append, List.mem_cons, List.mem_replicate, Move.start.injEq,
      reduceCtorEq, and_false, or_false, false_or, List.not_mem_nil] at ha
    rcases ha with rfl | rfl | rfl <;> rfl
  have hagree : KeysAgree ms := fun a b ha hb _ _ _ _ _ => (hstart a ha).trans (hstart b hb).symm
  have h := @replays_same_request plainConfig plainSha256_injective _ hagree
  refine ⟨h.1 1 _ _ _ rfl, (h.2 ?_ 0 2 settleRequest otherBody _ _
    "123e4567-e89b-12d3-a456-426614174000" rfl rfl ⟨_, .head _, rfl⟩ (by decide +kernel)
      (by decide +kernel) rfl ?_).1⟩
  · intro o ho
    simp [ms, toHandler] at ho
  · rintro ⟨-, hjson⟩
    simp [settleRequest, otherBody, Request.json] at hjson

/-- The key is used at another endpoint: the response of the first one is replayed, by the cache or
by the table. -/
theorem other_endpoint_replayed :
    let executed := toHandler 0 0 ++ List.replicate 4 (.resume 0 (smooth 1))
    let cached := executed ++ .start otherEndpoint :: [.resume 1 (smooth 2)]
    let stored := executed ++ .start otherEndpoint :: [.resume 1 (failing 2), .resume 1 (smooth 2)]
    ∀ ms ∈ [cached, stored], ∃ statusCode body,
      (((interceptor plainConfig).machine .empty).exec ⟨.empty, []⟩ ms).calls[1]? =
        some ⟨otherEndpoint, .done (.ok (.replayed statusCode body))⟩ ∧
      ∀ x ∈ (((interceptor plainConfig).machine .empty).exec ⟨.empty, []⟩ ms).state.executed,
        x.request.path ≠ otherEndpoint.request.path := by
  intro executed cached stored ms hms
  rcases List.mem_cons.1 hms with rfl | hms
  · exact ⟨_, _, rfl, by decide +kernel⟩
  · cases List.mem_singleton.1 hms
    exact ⟨_, _, rfl, by decide +kernel⟩

end Idempotency

end Backend

end InvoiceFi
