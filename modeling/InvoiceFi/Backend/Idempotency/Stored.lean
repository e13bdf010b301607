import InvoiceFi.Backend.Idempotency

/-!
# What the two stores hold

Every response that is stored, in a row whose lock is released or in the cache, is the one of a
handler that has returned for a request of the same key, user and body (`Sound`), and a request that
is answered with a stored response is answered with such a one (`Replays`).

The proof follows a call from its first read to its last write (`Point`). The row that carries its
number is the one that it has inserted, and only the call itself inserts and updates it (`Effect`),
so the steps of the others keep what is said of it.
-/

namespace InvoiceFi

namespace Backend

namespace Idempotency

/-! ## Requests, rows and records -/

/-- The request is a POST that uses the key. -/
structure Request.Uses (request : Request) (key : String) : Prop where
  post : request.method = "POST"
  required : requireKey request = .ok key

/-- The row is one that the request inserts. -/
structure IdempotencyKey.Of (sha : Sha256) (row : IdempotencyKey) (request : Request) : Prop where
  uses : request.Uses row.key
  userId : row.userId = request.userId
  bodyHash : row.bodyHash = hashBody sha request
  requestPath : row.requestPath = request.requestPath

/-- The row holds the response of the execution. -/
structure Execution.StoredIn (sha : Sha256) (x : Execution) (row : IdempotencyKey) : Prop where
  call : x.call = row.id
  request : row.Of sha x.request
  statusCode : row.statusCode = x.result.status
  body : row.responseBody = x.result.body

/-- The record, cached under the key `ck`, holds the response of the execution. -/
structure Execution.CachedIn (sha : Sha256) (x : Execution) (ck : String)
    (record : IdempotencyRecord) : Prop where
  uses : ∃ key, x.request.Uses key ∧ ck = cacheKey x.request.userId key
  record : ∃ createdAt, record = cacheRecord sha x.request x.result createdAt

/-- The response is the one of the execution, of a request with the same key, user and body. -/
structure Execution.Replays (sha : Sha256) (x : Execution) (request : Request) (statusCode : Nat)
    (body : Option Json) : Prop where
  uses : ∃ key, x.request.Uses key ∧ request.Uses key
  userId : x.request.userId = request.userId
  bodyHash : hashBody sha x.request = hashBody sha request
  statusCode : statusCode = x.result.status
  body : body = x.result.data ∨ body = some x.result.body

/-- The completion of a row keeps whose it is. -/
theorem IdempotencyKey.Of.complete {sha : Sha256} {row : IdempotencyKey} {request : Request}
    (h : row.Of sha request) (statusCode : Nat) (responseBody : Json) :
    (row.complete statusCode responseBody).Of sha request := by
  obtain ⟨huses, huser, hbody, hpath⟩ := h
  exact ⟨huses, huser, hbody, hpath⟩

theorem Request.Uses.unique {request : Request} {key key' : String} (h : request.Uses key)
    (h' : request.Uses key') : key = key' :=
  Except.ok.inj (h.required.symm.trans h'.required)

/-- The key of the cache determines the key of the request, for one user. -/
theorem cacheKey_injective {userId key key' : String}
    (h : cacheKey userId key = cacheKey userId key') : key = key' := by
  have hlist := congrArg String.toList h
  simp only [cacheKey, String.toList_append, List.append_cancel_left_eq] at hlist
  exact String.toList_inj.1 hlist

/-! ## The table -/

namespace IdempotencyTable

variable {t t' : IdempotencyTable} {row row' : IdempotencyKey} {id : Nat}

theorem eq_of_id (h : row ∈ t.rows) (h' : row' ∈ t.rows) (hid : row.id = row'.id) : row = row' :=
  List.inj_on_of_nodup_map t.ids h h' hid

theorem eq_of_keyUserId (h : row ∈ t.rows) (h' : row' ∈ t.rows) (hkey : row.key = row'.key)
    (huser : row.userId = row'.userId) : row = row' :=
  List.inj_on_of_nodup_map t.keys h h' (Prod.ext hkey huser)

theorem findUnique_eq_some {key userId : String} :
    t.findUnique key userId = some row ↔ row ∈ t.rows ∧ row.key = key ∧ row.userId = userId := by
  rw [findUnique, find?_key_eq_some t.keys, IdempotencyKey.keyUserId, Prod.mk.injEq]

/-- A row is inserted if its id and its key are new. -/
theorem create_eq_ok {data : KeyData} :
    t.create id data = .ok t' → t'.rows = t.rows ++ [⟨data, id⟩] ∧
      id ∉ t.rows.map IdempotencyKey.id := by
  intro h
  unfold create at h
  split at h
  · cases h
  · next hnew =>
    cases h
    exact ⟨rfl, fun hid => hnew (.inl hid)⟩

theorem update_eq_ok {statusCode : Nat} {responseBody : Json} :
    t.update id statusCode responseBody = .ok t' → t'.rows = t.rows.map fun row =>
      if row.id = id then row.complete statusCode responseBody else row := by
  intro h
  unfold update at h
  split at h
  · cases h
    rfl
  · cases h

theorem mem_deleteMany {p : IdempotencyKey → Bool} :
    row ∈ (t.deleteMany p).rows ↔ row ∈ t.rows ∧ p row = false := by
  simp [deleteMany]

end IdempotencyTable

/-! ## What a step does to the stores -/

/-- What a step of the call `k` may do to the table and to the memory of the executions: it touches
no row and no execution of another call, and drops none. -/
structure Effect (k : Nat) (s s' : Store) : Prop where
  rows : ∀ row ∈ s'.keys.rows, row.id ≠ k → row ∈ s.keys.rows
  ids : ∀ row ∈ s.keys.rows, ∃ row' ∈ s'.keys.rows, row'.id = row.id
  executed : ∀ x ∈ s.executed, x ∈ s'.executed
  others : ∀ x ∈ s'.executed, x.call ≠ k → x ∈ s.executed

theorem Effect.of_eq {k : Nat} {s s' : Store} (hkeys : s'.keys = s.keys)
    (hexecuted : s'.executed = s.executed) : Effect k s s' := by
  refine ⟨fun row h _ => ?_, fun row h => ⟨row, ?_, rfl⟩, fun x h => ?_, fun x h _ => ?_⟩
  · rwa [hkeys] at h
  · rwa [hkeys]
  · rwa [hexecuted]
  · rwa [hexecuted] at h

/-- The actions of a call are on its own row. -/
def Act.Own (k : Nat) : Act → Prop
  | .update id .. => id = k
  | _ => True

/-- Caching a record touches neither the table nor the executions. -/
theorem perform_setIfNotExists (k : Nat) (ck : String) (record : IdempotencyRecord)
    (ttlSeconds : Nat) (c : Choice) (s : Store) :
    (perform k (.setIfNotExists ck record ttlSeconds) c s).2.keys = s.keys ∧
      (perform k (.setIfNotExists ck record ttlSeconds) c s).2.executed = s.executed := by
  refine transact_invariant (P := fun s' : Store => s'.keys = s.keys ∧ s'.executed = s.executed)
    ⟨rfl, rfl⟩ fun b s' hb => ?_
  rw [show s' = _ from (congrArg Prod.snd (Except.ok.inj hb)).symm]
  unfold Store.setIfNotExists
  split <;> exact ⟨rfl, rfl⟩

/-- A row that a call creates is its own. -/
theorem effect_create {k : Nat} {data : KeyData} {s : Store} {t : IdempotencyTable}
    (ht : s.keys.create k data = .ok t) : Effect k s { s with keys := t } := by
  obtain ⟨hrows, -⟩ := IdempotencyTable.create_eq_ok ht
  refine ⟨fun row h hne => ?_, fun row h => ⟨row, ?_, rfl⟩, fun _ h => h, fun _ h _ => h⟩
  · change row ∈ t.rows at h
    rw [hrows] at h
    rcases List.mem_append.1 h with h | h
    · exact h
    · cases List.mem_singleton.1 h
      exact absurd rfl hne
  · change row ∈ t.rows
    rw [hrows]
    exact List.mem_append_left _ h

/-- A call that updates its row changes no other one. -/
theorem effect_update {k : Nat} {statusCode : Nat} {responseBody : Json} {s : Store}
    {t : IdempotencyTable} (ht : s.keys.update k statusCode responseBody = .ok t) :
    Effect k s { s with keys := t } := by
  have hrows := IdempotencyTable.update_eq_ok ht
  refine ⟨fun row h hne => ?_, fun row h => ?_, fun _ h => h, fun _ h _ => h⟩
  · change row ∈ t.rows at h
    rw [hrows] at h
    obtain ⟨row₀, h₀, rfl⟩ := List.mem_map.1 h
    split at hne
    · next hid => exact absurd hid hne
    · next hid => rwa [if_neg hid]
  · refine ⟨if row.id = k then row.complete statusCode responseBody else row, ?_, ?_⟩
    · change _ ∈ t.rows
      rw [hrows]
      exact List.mem_map_of_mem h
    · split <;> rfl

/-- A step of a call has such an effect. -/
theorem effect_perform {k : Nat} {a : Act} (ha : a.Own k) (c : Choice) (s : Store) :
    Effect k s (perform k a c s).2 := by
  cases a with
  | create data =>
    refine transact_invariant (P := fun s' : Store => Effect k s s') (.of_eq rfl rfl)
      fun id s' hb => ?_
    obtain ⟨t, ht, heq⟩ := map_eq_ok.1 hb
    cases heq
    exact effect_create ht
  | handle request =>
    dsimp only [perform]
    split
    · refine ⟨fun _ h _ => h, fun row h => ⟨row, h, rfl⟩, fun x h => List.mem_append_left _ h,
        fun x h hne => ?_⟩
      rcases List.mem_append.1 h with h | h
      · exact h
      · cases List.mem_singleton.1 h
        exact absurd rfl hne
    · exact .of_eq rfl rfl
  | update id statusCode responseBody =>
    cases ha
    refine transact_invariant (P := fun s' : Store => Effect k s s') (.of_eq rfl rfl)
      fun u s' hb => ?_
    obtain ⟨t, ht, heq⟩ := map_eq_ok.1 hb
    cases heq
    exact effect_update ht
  | setIfNotExists ck record ttlSeconds =>
    obtain ⟨hkeys, hexecuted⟩ := perform_setIfNotExists k ck record ttlSeconds c s
    exact .of_eq hkeys hexecuted
  | redisGet ck => exact .of_eq rfl rfl
  | findUnique key userId => exact .of_eq rfl rfl
  | now => exact .of_eq rfl rfl

/-! ## The stored responses -/

/-- The stored responses are those of executions, each call has executed its handler once at most,
and what it has executed is a request of the kind `P`. -/
structure Sound (sha : Sha256) (P : Served → Prop) (s : Store) : Prop where
  rows : ∀ row ∈ s.keys.rows, row.lockedAt = none → ∃ x ∈ s.executed, x.StoredIn sha row
  cached : ∀ ck record, s.redis ck = some record → ∃ x ∈ s.executed, x.CachedIn sha ck record
  calls : (s.executed.map Execution.call).Nodup
  served : ∀ x ∈ s.executed, ∃ served, P served ∧ served.request = x.request

variable {config : Config} {sha : Sha256} {P : Served → Prop} {k : Nat} {served : Served}
  {key : String} {c : Choice} {s s' : Store}

theorem sound_empty : Sound sha P .empty := by
  refine ⟨?_, ?_, List.nodup_nil, ?_⟩
  · rintro row ⟨⟩
  · rintro ck record ⟨⟩
  · rintro x ⟨⟩

/-- A call has executed its handler once at most. -/
theorem Sound.eq_of_call (h : Sound sha P s) {x y : Execution} (hx : x ∈ s.executed)
    (hy : y ∈ s.executed) (hcall : x.call = y.call) : x = y :=
  List.inj_on_of_nodup_map h.calls hx hy hcall

/-- The row of a new key is locked. -/
theorem Sound.create {expiresAt lockedAt : Nat} (h : Sound sha P s) :
    Sound sha P (perform k (.create (keyData config served key expiresAt lockedAt)) c s).2 := by
  refine transact_invariant (P := fun s' : Store => Sound sha P s') h fun id s' hb => ?_
  cases ht : s.keys.create k (keyData config served key expiresAt lockedAt) with
  | error e =>
    rw [ht] at hb
    cases hb
  | ok t =>
    rw [ht] at hb
    cases hb
    refine ⟨fun row hrow hlock => ?_, h.cached, h.calls, h.served⟩
    rw [(IdempotencyTable.create_eq_ok ht).1] at hrow
    rcases List.mem_append.1 hrow with hrow | hrow
    · exact h.rows row hrow hlock
    · cases List.mem_singleton.1 hrow
      cases hlock

/-- A handler returns for the first time in its call. -/
theorem Sound.handle (h : Sound sha P s) (hserved : P served)
    (hfresh : ∀ x ∈ s.executed, x.call ≠ k) :
    Sound sha P (perform k (.handle served.request) c s).2 := by
  dsimp only [perform]
  split
  · next result _ =>
    refine ⟨fun row hrow hlock => ?_, fun ck record hck => ?_, ?_, fun x hx => ?_⟩
    · obtain ⟨x, hx, hstored⟩ := h.rows row hrow hlock
      exact ⟨x, List.mem_append_left _ hx, hstored⟩
    · obtain ⟨x, hx, hcached⟩ := h.cached ck record hck
      exact ⟨x, List.mem_append_left _ hx, hcached⟩
    · rw [List.map_append, List.map_singleton, List.nodup_append_comm]
      refine List.nodup_cons.2 ⟨fun hk => ?_, h.calls⟩
      obtain ⟨x, hx, hcall⟩ := List.mem_map.1 hk
      exact hfresh x hx hcall
    · rcases List.mem_append.1 hx with hx | hx
      · exact h.served x hx
      · cases List.mem_singleton.1 hx
        exact ⟨served, hserved, rfl⟩
  · exact h

/-- The row of a call gets the response of its execution. -/
theorem Sound.update {x : Execution} (h : Sound sha P s) (hx : x ∈ s.executed)
    (hrow : ∀ row ∈ s.keys.rows, row.id = x.call → row.Of sha x.request) :
    Sound sha P (perform k (.update x.call x.result.status x.result.body) c s).2 := by
  refine transact_invariant (P := fun s' : Store => Sound sha P s') h fun u s' hb => ?_
  cases ht : s.keys.update x.call x.result.status x.result.body with
  | error e =>
    rw [ht] at hb
    cases hb
  | ok t =>
    rw [ht] at hb
    cases hb
    refine ⟨fun row hmem hlock => ?_, h.cached, h.calls, h.served⟩
    rw [IdempotencyTable.update_eq_ok ht] at hmem
    obtain ⟨row₀, h₀, rfl⟩ := List.mem_map.1 hmem
    split at hlock
    · next hid =>
      rw [if_pos hid]
      exact ⟨x, hx, hid.symm, (hrow row₀ h₀ hid).complete _ _, rfl, rfl⟩
    · next hid =>
      rw [if_neg hid]
      exact h.rows row₀ h₀ hlock

/-- The cache gets the response of an execution. -/
theorem Sound.setIfNotExists {x : Execution} {createdAt ttlSeconds : Nat} (h : Sound sha P s)
    (hx : x ∈ s.executed) (huses : x.request.Uses key) :
    Sound sha P (perform k (.setIfNotExists (cacheKey x.request.userId key)
      (cacheRecord sha x.request x.result createdAt) ttlSeconds) c s).2 := by
  refine transact_invariant (P := fun s' : Store => Sound sha P s') h fun b s' hb => ?_
  rw [show s' = _ from (congrArg Prod.snd (Except.ok.inj hb)).symm]
  unfold Store.setIfNotExists
  split
  · exact h
  · refine ⟨h.rows, fun ck record hck => ?_, h.calls, h.served⟩
    rcases eq_or_ne ck (cacheKey x.request.userId key) with rfl | hne
    · cases (Function.update_self ..).symm.trans hck
      exact ⟨x, hx, ⟨key, huses, rfl⟩, createdAt, rfl⟩
    · exact h.cached ck record ((Function.update_of_ne hne _ _).symm.trans hck)

/-- What happens outside the calls adds no row. -/
theorem mem_environ {o : Environ} {row : IdempotencyKey}
    (h : row ∈ (Idempotency.environ o s).keys.rows) : row ∈ s.keys.rows := by
  cases o with
  | releaseStaleLocks now => exact (IdempotencyTable.mem_deleteMany.1 h).1
  | deleteExpiredKeys now => exact (IdempotencyTable.mem_deleteMany.1 h).1
  | evict ck => exact h

/-- What happens outside the calls executes nothing. -/
theorem executed_environ (o : Environ) (s : Store) :
    (Idempotency.environ o s).executed = s.executed := by
  cases o <;> rfl

/-- What happens outside the calls only takes responses away. -/
theorem Sound.environ (h : Sound sha P s) (o : Environ) :
    Sound sha P (Idempotency.environ o s) := by
  have hcached : ∀ ck record, (Idempotency.environ o s).redis ck = some record →
      s.redis ck = some record := by
    intro ck record hck
    cases o with
    | releaseStaleLocks now => exact hck
    | deleteExpiredKeys now => exact hck
    | evict ck' =>
      rcases eq_or_ne ck ck' with rfl | hne
      · cases (Function.update_self ..).symm.trans hck
      · exact (Function.update_of_ne hne _ _).symm.trans hck
  refine ⟨?_, ?_, ?_, ?_⟩
  all_goals rw [executed_environ]
  · exact fun row hrow => h.rows row (mem_environ hrow)
  · exact fun ck record hck => h.cached ck record (hcached ck record hck)
  · exact h.calls
  · exact h.served

/-! ## Replays -/

theorem readRedis_eq_ok {α : Type} {f : Fault} {a b : α} (h : readRedis f a = .ok b) : a = b := by
  unfold readRedis at h
  split at h
  · exact Except.ok.inj h
  · cases h

/-- An error of the cache is none of NestJS. -/
theorem readRedis_eq_error {α : Type} {f : Fault} {a : α} {e : Error}
    (h : readRedis f a = .error e) : ∃ message, e = .rpc message := by
  unfold readRedis at h
  split at h
  · cases h
  · cases h
    exact ⟨_, rfl⟩

theorem replayFromCache_eq_ok {cached : IdempotencyRecord} {userId bodyHash : String}
    {reply : Reply} : replayFromCache cached userId bodyHash = .ok reply ↔
      cached.userId = userId ∧ cached.bodyHash = bodyHash ∧
        reply = .replayed cached.statusCode cached.response := by
  simp [replayFromCache]

/-- An exception of the fast path is one of NestJS. -/
theorem replayFromCache_eq_error {cached : IdempotencyRecord} {userId bodyHash : String}
    {e : Error} (h : replayFromCache cached userId bodyHash = .error e) :
    ∃ status message, e = .http status message := by
  unfold replayFromCache rejectIf at h
  split at h
  · cases h
    exact ⟨_, _, rfl⟩
  · split at h
    · cases h
      exact ⟨_, _, rfl⟩
    · cases h

theorem replayExisting_eq_ok {existing : IdempotencyKey} {bodyHash : String} {reply : Reply} :
    replayExisting existing bodyHash = .ok reply ↔ existing.bodyHash = bodyHash ∧
      existing.lockedAt = none ∧
        reply = .replayed existing.statusCode (some existing.responseBody) := by
  simp [replayExisting]

/-- What the fast path replays is the response of an execution, with the data it has returned. -/
theorem Sound.replays_cached (h : Sound sha P s) {request : Request} (huses : request.Uses key)
    {record : IdempotencyRecord} (hrecord : s.redis (cacheKey request.userId key) = some record)
    {statusCode : Nat} {body : Option Json}
    (hreply : replayFromCache record request.userId (hashBody sha request) =
      .ok (.replayed statusCode body)) :
    ∃ x ∈ s.executed, x.Replays sha request statusCode body ∧ body = x.result.data := by
  obtain ⟨x, hx, ⟨key', huses', hck⟩, createdAt, rfl⟩ := h.cached _ _ hrecord
  obtain ⟨huser, hbody, hr⟩ := replayFromCache_eq_ok.1 hreply
  cases hr
  have huser : x.request.userId = request.userId := huser
  rw [huser] at hck
  cases cacheKey_injective hck
  exact ⟨x, hx, ⟨⟨key, huses', huses⟩, huser, hbody, rfl, .inl rfl⟩, rfl⟩

/-- What the authoritative path replays is the response of an execution, with the body that is
stored for its data. -/
theorem Sound.replays_existing (h : Sound sha P s) {request : Request} (huses : request.Uses key)
    {row : IdempotencyKey} (hrow : s.keys.findUnique key request.userId = some row)
    {statusCode : Nat} {body : Option Json}
    (hreply : replayExisting row (hashBody sha request) = .ok (.replayed statusCode body)) :
    ∃ x ∈ s.executed, x.Replays sha request statusCode body ∧ body = some x.result.body := by
  obtain ⟨hmem, rfl, huser⟩ := IdempotencyTable.findUnique_eq_some.1 hrow
  obtain ⟨hbody, hlock, hr⟩ := replayExisting_eq_ok.1 hreply
  cases hr
  obtain ⟨x, hx, hstored⟩ := h.rows row hmem hlock
  have huserx : x.request.userId = request.userId := hstored.request.userId.symm.trans huser
  have hbodyx : hashBody sha x.request = hashBody sha request :=
    hstored.request.bodyHash.symm.trans hbody
  have hresponse : some row.responseBody = some x.result.body := congrArg some hstored.body
  exact ⟨x, hx, ⟨⟨row.key, hstored.request.uses, huses⟩, huserx, hbodyx, hstored.statusCode,
    .inr hresponse⟩, hresponse⟩

end Idempotency

end Backend

end InvoiceFi
