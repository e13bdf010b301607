import InvoiceFi.Backend.Idempotency.Stored

/-!
# Where a call stands

A call first looks for a stored response, then inserts its row, then runs its handler, and then
stores the response (`Point`). Up to the handler the call has executed nothing, and after it the
call only writes the response it has got (`Closing`). `callOutline` has this hold of every call in
every run, along with the soundness of the stored responses.
-/

namespace InvoiceFi

namespace Backend

namespace Idempotency

/-! ## Points -/

/-- The points of a call before its handler. -/
inductive Asking (config : Config) (served : Served) (key : String) : Task Reply → Prop
  | start : Asking config served key (intercept config served)
  | looking : Asking config served key (authoritativePath config served key)
  | acquiring : Asking config served key (acquire config served key)
  | locking (now : Nat) : Asking config served key (do
      let lockedAt ← act .now
      insertAndExecute config served key (now + config.ttlSeconds * 1000) lockedAt)
  | inserting (expiresAt lockedAt : Nat) :
    Asking config served key (insertAndExecute config served key expiresAt lockedAt)

/-- The actions that follow the handler: they write the response of the execution. -/
def Closing (sha : Sha256) (key : String) (x : Execution) : Act → Prop
  | .update id statusCode responseBody =>
    id = x.call ∧ statusCode = x.result.status ∧ responseBody = x.result.body
  | .now => True
  | .setIfNotExists ck record _ =>
    ck = cacheKey x.request.userId key ∧
      ∃ createdAt, record = cacheRecord sha x.request x.result createdAt
  | _ => False

/-- The call has not executed its handler. -/
def Unexecuted (k : Nat) (s : Store) : Prop := ∀ x ∈ s.executed, x.call ≠ k

/-- The row of the call is in the table. -/
def HasRow (k : Nat) (s : Store) : Prop := ∃ row ∈ s.keys.rows, row.id = k

/-- The call is running its handler, or the handler has returned in it. -/
def InFlight (k : Nat) (q : Task Reply) (s : Store) : Prop :=
  (∃ request f, q = .await (.handle request) f) ∨ ∃ x ∈ s.executed, x.call = k

/-- Where the call `k` stands: before a handler that no key protects, before its handler, at its
handler, after its handler, or at its end without having executed it. The row that it has inserted
is there, for the calls whose rows are kept. -/
inductive Point (config : Config) (Kept : Served → Prop) (k : Nat) (served : Served)
    (q : Task Reply) (s : Store) : Prop
  | passing (method : served.request.method ≠ "POST") (point : q = intercept config served)
      (fresh : Unexecuted k s)
  | asking (key : String) (uses : served.request.Uses key) (point : Asking config served key q)
      (fresh : Unexecuted k s)
  | running (key : String) (uses : served.request.Uses key)
      (point : q = execute config served key k) (fresh : Unexecuted k s)
      (row : Kept served → HasRow k s)
  | closing (key : String) (uses : served.request.Uses key) (x : Execution)
      (mem : x ∈ s.executed) (call : x.call = k)
      (only : q.Only (Closing config.sha key x) fun r => r = .ok (.fresh x.result))
      (row : Kept served → HasRow k s)
  | ended (r : Except Error Reply) (point : q = .done r)
      (fresh : served.request.method = "POST" → Unexecuted k s)
      (passed : ∀ result, r = .ok (.fresh result) → served.request.method ≠ "POST")
      (replays : ∀ statusCode body, r = .ok (.replayed statusCode body) →
        ∃ x ∈ s.executed, x.Replays config.sha served.request statusCode body)

/-- What is known of the call `k`: where it stands, that the row of its number is its own, and that
what it has executed is its own request. -/
structure CallAt (config : Config) (P Kept : Served → Prop) (k : Nat) (served : Served)
    (q : Task Reply) (s : Store) : Prop where
  kind : P served
  row : ∀ row ∈ s.keys.rows, row.id = k → row.Of config.sha served.request
  execution : ∀ x ∈ s.executed, x.call = k → x.request = served.request
  point : Point config Kept k served q s

variable {config : Config} {P Kept : Served → Prop} {k : Nat} {served : Served} {key : String}
  {q : Task Reply} {c : Choice} {s s' : Store}

/-- A call ends with an error. -/
theorem Point.of_error (hfresh : Unexecuted k s) (e : Error) :
    Point config Kept k served (.done (.error e)) s :=
  .ended (.error e) rfl (fun _ => hfresh) nofun nofun

/-- A call stays where it is while nothing is executed in it and its row is kept. -/
theorem Point.stable (h : Point config Kept k served q s)
    (hrow : Kept served → InFlight k q s → HasRow k s → HasRow k s')
    (hexecuted : ∀ x ∈ s.executed, x ∈ s'.executed)
    (hothers : ∀ x ∈ s'.executed, x.call = k → x ∈ s.executed) :
    Point config Kept k served q s' := by
  have hfresh : Unexecuted k s → Unexecuted k s' :=
    fun hf x hx hk => hf x (hothers x hx hk) hk
  cases h with
  | passing method point fresh => exact .passing method point (hfresh fresh)
  | asking key uses point fresh => exact .asking key uses point (hfresh fresh)
  | running key uses point fresh row =>
    exact .running key uses point (hfresh fresh)
      fun hk => hrow hk (.inl ⟨_, _, point⟩) (row hk)
  | closing key uses x mem call only row =>
    exact .closing key uses x (hexecuted x mem) call only
      fun hk => hrow hk (.inr ⟨x, mem, call⟩) (row hk)
  | ended r point fresh passed replays =>
    refine .ended r point (fun hpost => hfresh (fresh hpost)) passed fun statusCode body hr => ?_
    obtain ⟨x, hx, hreplays⟩ := replays statusCode body hr
    exact ⟨x, hexecuted x hx, hreplays⟩

/-- What is known of a call stays true while others go on. -/
theorem CallAt.stable (h : CallAt config P Kept k served q s)
    (hrow : Kept served → InFlight k q s → HasRow k s → HasRow k s')
    (hrows : ∀ row ∈ s'.keys.rows, row.id = k → row ∈ s.keys.rows)
    (hexecuted : ∀ x ∈ s.executed, x ∈ s'.executed)
    (hothers : ∀ x ∈ s'.executed, x.call = k → x ∈ s.executed) :
    CallAt config P Kept k served q s' :=
  ⟨h.kind, fun row hrow hid => h.row row (hrows row hrow hid) hid,
    fun x hx hk => h.execution x (hothers x hx hk) hk, h.point.stable hrow hexecuted hothers⟩

/-- A step that touches neither the table nor the executions takes the call to its next point. -/
theorem CallAt.quiet (h : CallAt config P Kept k served q s) {q' : Task Reply}
    (hkeys : s'.keys = s.keys) (hexecuted : s'.executed = s.executed)
    (point : Point config Kept k served q' s) : CallAt config P Kept k served q' s' := by
  have hat : CallAt config P Kept k served q' s := ⟨h.kind, h.row, h.execution, point⟩
  refine hat.stable (fun _ _ hrow => ?_) (fun row hrow _ => ?_) (fun x hx => ?_) fun x hx _ => ?_
  · rwa [HasRow, hkeys]
  · rwa [hkeys] at hrow
  · rwa [hexecuted]
  · rwa [hexecuted] at hx

/-- A call that has executed its handler has its row, if it is one whose rows are kept. -/
theorem CallAt.hasRow (h : CallAt config P Kept k served q s) (hkept : Kept served)
    (hpost : served.request.method = "POST") {x : Execution} (hx : x ∈ s.executed)
    (hcall : x.call = k) : HasRow k s := by
  cases h.point with
  | passing method point fresh => exact absurd hcall (fresh x hx)
  | asking key uses point fresh => exact absurd hcall (fresh x hx)
  | running key uses point fresh row => exact row hkept
  | closing key uses x mem call only row => exact row hkept
  | ended r point fresh passed replays => exact absurd hcall (fresh hpost x hx)

/-- A call starts at a point before its handler, or ends at once. -/
theorem point_start (hfresh : Unexecuted k s) :
    Point config Kept k served (intercept config served) s := by
  by_cases hpost : served.request.method = "POST"
  · cases hkey : requireKey served.request with
    | ok key => exact .asking key ⟨hpost, hkey⟩ .start hfresh
    | error e =>
      have hdone : intercept config served = .done (.error e) := by
        rw [intercept, if_neg (not_not.2 hpost), hkey]
        rfl
      rw [hdone]
      exact .of_error hfresh _
  · exact .passing hpost rfl hfresh

/-- What follows the handler only writes the response, and the call returns it. -/
theorem closing_only (config : Config) (served : Served) (key : String) (k : Nat)
    (result : HandlerResult) :
    (do
      tryCatch (storeResponse config served key k result) fun _ => pure ()
      pure (.fresh result) : Task Reply).Only
        (Closing config.sha key ⟨k, served.request, result⟩) fun r => r = .ok (.fresh result) := by
  have hset : ∀ createdAt, (tryCatch
      (do
        let _ ← act (.setIfNotExists (cacheKey served.request.userId key)
          (cacheRecord config.sha served.request result createdAt) config.ttlSeconds)
        pure ())
      fun _ => pure () : Task Unit).Only
        (Closing config.sha key ⟨k, served.request, result⟩) fun _ => True := by
    intro createdAt
    refine ⟨⟨rfl, createdAt, rfl⟩, fun r => ?_⟩
    cases r <;> trivial
  have hstore : (storeResponse config served key k result).Only
      (Closing config.sha key ⟨k, served.request, result⟩) fun _ => True := by
    refine ⟨⟨rfl, rfl, rfl⟩, fun r => ?_⟩
    cases r with
    | error e => trivial
    | ok u =>
      refine ⟨trivial, fun r => ?_⟩
      cases r with
      | error e => trivial
      | ok createdAt => exact hset createdAt
  have htry : (tryCatch (storeResponse config served key k result) fun _ => pure () :
      Task Unit).Only (Closing config.sha key ⟨k, served.request, result⟩)
        fun r => ∃ u, r = .ok u :=
    hstore.tryCatch (fun u _ => ⟨u, rfl⟩) fun e _ => ⟨(), rfl⟩
  refine htry.bind (fun u _ => rfl) ?_
  rintro e ⟨u, hu⟩
  cases hu

/-! ## Steps -/

/-- What a step of a call does: it stays on its own row, the stored responses stay those of
executions, and the call gets to its next point. -/
structure Advances (config : Config) (P Kept : Served → Prop) (k : Nat) (served : Served) (a : Act)
    (f : Except Error a.Answer → Task Reply) (c : Choice) (s : Store) : Prop where
  own : a.Own k
  sound : Sound config.sha P (perform k a c s).2
  next : CallAt config P Kept k served (f (perform k a c s).1) (perform k a c s).2

/-- The handler returns, and the call has executed it, or it throws. -/
theorem CallAt.handle (h : CallAt config P Kept k served q s) (hs : Sound config.sha P s)
    (hfresh : Unexecuted k s) {f : Except Error HandlerResult → Task Reply}
    (herror : ∀ e, f (.error e) = .done (.error e))
    (hok : ∀ result, Point config Kept k served (f (.ok result))
      { s with executed := s.executed ++ [⟨k, served.request, result⟩] }) :
    Advances config P Kept k served (.handle served.request) f c s := by
  refine ⟨trivial, hs.handle h.kind hfresh, ?_⟩
  dsimp only [perform]
  split
  · next result _ =>
    refine ⟨h.kind, h.row, fun x hx hk => ?_, hok result⟩
    rcases List.mem_append.1 hx with hx | hx
    · exact absurd hk (hfresh x hx)
    · cases List.mem_singleton.1 hx
      rfl
  · next e _ =>
    rw [herror]
    exact h.quiet rfl rfl (.of_error hfresh _)

/-- The call reads the cache: it goes on with the table, or ends. -/
theorem CallAt.step_start (h : CallAt config P Kept k served q s) (hs : Sound config.sha P s)
    (huses : served.request.Uses key) (hfresh : Unexecuted k s) {a : Act}
    {f : Except Error a.Answer → Task Reply} (hq : .await a f = intercept config served) :
    Advances config P Kept k served a f c s := by
  rw [intercept, if_neg (not_not.2 huses.post), huses.required] at hq
  cases hq
  refine ⟨trivial, hs, h.quiet rfl rfl ?_⟩
  dsimp only [perform]
  cases hread : readRedis c.fault (s.redis (cacheKey served.request.userId key)) with
  | error e =>
    obtain ⟨message, rfl⟩ := readRedis_eq_error hread
    exact .asking key huses .looking hfresh
  | ok found =>
    have hfound := readRedis_eq_ok hread
    cases found with
    | none => exact .asking key huses .looking hfresh
    | some cached =>
      change Point config Kept k served (Async.bind (Async.tryCatch (Async.bind (Async.ofExcept
        (replayFromCache cached served.request.userId (hashBody config.sha served.request)))
          fun reply => pure (some reply)) _) _) s
      cases hreply : replayFromCache cached served.request.userId
          (hashBody config.sha served.request) with
      | error e =>
        obtain ⟨status, message, rfl⟩ := replayFromCache_eq_error hreply
        exact .of_error hfresh _
      | ok reply =>
        refine .ended (.ok reply) rfl (fun _ => hfresh) (fun result hr => ?_)
          fun statusCode body hr => ?_
        · cases hr
          cases (replayFromCache_eq_ok.1 hreply).2.2
        · cases hr
          obtain ⟨x, hx, hreplays, -⟩ := hs.replays_cached huses hfound hreply
          exact ⟨x, hx, hreplays⟩

/-- The call reads the table: it goes on as the first request of the key, or ends. -/
theorem CallAt.step_looking (h : CallAt config P Kept k served q s) (hs : Sound config.sha P s)
    (huses : served.request.Uses key) (hfresh : Unexecuted k s) {a : Act}
    {f : Except Error a.Answer → Task Reply}
    (hq : .await a f = authoritativePath config served key) :
    Advances config P Kept k served a f c s := by
  cases hq
  refine ⟨trivial, hs, h.quiet rfl rfl ?_⟩
  dsimp only [perform]
  cases hread : read c.fault (s.keys.findUnique key served.request.userId) with
  | error e => exact .of_error hfresh _
  | ok found =>
    cases found with
    | none => exact .asking key huses .acquiring hfresh
    | some existing =>
      refine .ended (replayExisting existing (hashBody config.sha served.request)) rfl
        (fun _ => hfresh) (fun result hr => ?_) fun statusCode body hr => ?_
      · cases (replayExisting_eq_ok.1 hr).2.2
      · obtain ⟨x, hx, hreplays, -⟩ := hs.replays_existing huses (read_eq_ok hread) hr
        exact ⟨x, hx, hreplays⟩

/-- The call inserts its row: it goes on with the handler, or ends. -/
theorem CallAt.step_inserting (h : CallAt config P Kept k served q s) (hs : Sound config.sha P s)
    (huses : served.request.Uses key) (hfresh : Unexecuted k s) {expiresAt lockedAt : Nat} {a : Act}
    {f : Except Error a.Answer → Task Reply}
    (hq : .await a f = insertAndExecute config served key expiresAt lockedAt) :
    Advances config P Kept k served a f c s := by
  cases hq
  refine ⟨trivial, hs.create, ?_⟩
  -- the row that is inserted is the call's own
  have hinserted : ∀ id s', ((s.keys.create k (keyData config served key expiresAt lockedAt)).map
      fun t => (k, { s with keys := t })) = .ok (id, s') → id = k ∧ HasRow k s' ∧
        Unexecuted k s' ∧
        ∀ q', Point config Kept k served q' s' → CallAt config P Kept k served q' s' := by
    intro id s' hb
    obtain ⟨t, ht, heq⟩ := map_eq_ok.1 hb
    cases heq
    obtain ⟨hrows, -⟩ := IdempotencyTable.create_eq_ok ht
    refine ⟨rfl, ?_, hfresh, fun q' point => ⟨h.kind, fun row hrow hid => ?_, h.execution, point⟩⟩
    · refine ⟨⟨keyData config served key expiresAt lockedAt, k⟩, ?_, rfl⟩
      rw [hrows]
      exact List.mem_append_right _ (.head _)
    · rw [hrows] at hrow
      rcases List.mem_append.1 hrow with hrow | hrow
      · exact h.row row hrow hid
      · cases List.mem_singleton.1 hrow
        exact ⟨huses, rfl, rfl, rfl⟩
  dsimp only [perform]
  rcases transact_cases c.fault _ s with ⟨e, hp⟩ | ⟨id, s', hb, -, hp⟩ | ⟨id, s', hb, -, hp⟩
  · rw [hp]
    exact h.quiet rfl rfl (.of_error hfresh _)
  · rw [hp]
    obtain ⟨rfl, hrow, hfresh', hnext⟩ := hinserted id s' hb
    exact hnext _ (.running key huses rfl hfresh' fun _ => hrow)
  · rw [hp]
    obtain ⟨-, -, hfresh', hnext⟩ := hinserted id s' hb
    exact hnext _ (.of_error hfresh' _)

/-- The call writes the response of its execution. -/
theorem CallAt.step_closing (h : CallAt config P Kept k served q s) (hs : Sound config.sha P s)
    (huses : served.request.Uses key) {x : Execution} (hx : x ∈ s.executed) (hcall : x.call = k)
    (hrow : Kept served → HasRow k s) {a : Act} {f : Except Error a.Answer → Task Reply}
    (honly : (Async.await a f).Only (Closing config.sha key x) fun r => r = .ok (.fresh x.result)) :
    Advances config P Kept k served a f c s := by
  obtain ⟨hact, hrest⟩ := honly
  have hrequest : x.request = served.request := h.execution x hx hcall
  have hpoint : ∀ r, Point config Kept k served (f r) s :=
    fun r => .closing key huses x hx hcall (hrest r) hrow
  cases a with
  | update id statusCode responseBody =>
    obtain ⟨rfl, rfl, rfl⟩ := hact
    have hown : ∀ row ∈ s.keys.rows, row.id = x.call → row.Of config.sha x.request := by
      intro row hrow hid
      rw [hrequest]
      exact h.row row hrow (hid.trans hcall)
    have hnext : ∀ r, CallAt config P Kept k served (f r)
        (perform k (.update x.call x.result.status x.result.body) c s).2 := by
      intro r
      refine transact_invariant (P := fun s' : Store => CallAt config P Kept k served (f r) s')
        (h.quiet rfl rfl (hpoint r)) fun u s' hb => ?_
      obtain ⟨t, ht, heq⟩ := map_eq_ok.1 hb
      cases heq
      have hrows := IdempotencyTable.update_eq_ok ht
      refine ⟨h.kind, fun row hrow hid => ?_, h.execution,
        (hpoint r).stable (fun _ _ hhas => ?_) (fun _ hy => hy) fun _ hy _ => hy⟩
      · rw [hrows] at hrow
        obtain ⟨row₀, h₀, rfl⟩ := List.mem_map.1 hrow
        split at hid
        · next hid₀ =>
          rw [if_pos hid₀]
          exact (h.row row₀ h₀ (hid₀.trans hcall)).complete _ _
        · next hid₀ =>
          rw [if_neg hid₀]
          exact h.row row₀ h₀ hid
      · obtain ⟨row, hrow, hid⟩ := hhas
        rw [HasRow, hrows]
        refine ⟨_, List.mem_map_of_mem hrow, ?_⟩
        rw [← hid]
        split <;> rfl
    exact ⟨hcall, hs.update hx hown, hnext _⟩
  | now => exact ⟨trivial, hs, h.quiet rfl rfl (hpoint _)⟩
  | setIfNotExists ck record ttlSeconds =>
    obtain ⟨rfl, createdAt, rfl⟩ := hact
    obtain ⟨hkeys, hexecuted⟩ := perform_setIfNotExists k _ _ ttlSeconds c s
    exact ⟨trivial, hs.setIfNotExists hx (hrequest ▸ huses), h.quiet hkeys hexecuted (hpoint _)⟩
  | _ => exact False.elim hact

/-- **A step of a call.** -/
theorem CallAt.step {a : Act} {f : Except Error a.Answer → Task Reply}
    (h : CallAt config P Kept k served (.await a f) s) (hs : Sound config.sha P s) :
    Advances config P Kept k served a f c s := by
  cases h.point with
  | passing method point fresh =>
    rw [intercept, if_pos method] at point
    cases point
    exact h.handle hs fresh (fun _ => rfl) fun result =>
      .ended _ rfl (fun hpost => absurd hpost method) (fun _ _ => method) nofun
  | asking key uses point fresh =>
    generalize hq : Async.await a f = q at point
    cases point with
    | start => exact h.step_start hs uses fresh hq
    | looking => exact h.step_looking hs uses fresh hq
    | acquiring =>
      cases hq
      exact ⟨trivial, hs, h.quiet rfl rfl (.asking key uses (.locking c.clock) fresh)⟩
    | locking now =>
      cases hq
      exact ⟨trivial, hs, h.quiet rfl rfl (.asking key uses (.inserting _ c.clock) fresh)⟩
    | inserting expiresAt lockedAt => exact h.step_inserting hs uses fresh hq
  | running key uses point fresh row =>
    cases point
    exact h.handle hs fresh (fun _ => rfl) fun result =>
      .closing key uses _ (List.mem_append_right _ (.head _)) rfl
        (closing_only config served key k result) row
  | closing key uses x mem call only row => exact h.step_closing hs uses mem call row only
  | ended r point => cases point

/-! ## Runs -/

/-- The rows and the executions carry the numbers of calls. -/
structure Numbered (p : Pool Store Served Act Act.Answer Error Reply) : Prop where
  rows : ∀ row ∈ p.state.keys.rows, row.id < p.calls.length
  executed : ∀ x ∈ p.state.executed, x.call < p.calls.length

/-- The move deletes no row of a call that is in flight, if it is one whose rows are kept. -/
def Keeps (Kept : Served → Prop) (p : Pool Store Served Act Act.Answer Error Reply)
    (m : Move Served Choice Environ) : Prop :=
  ∀ o, m = .environ o → ∀ k call, p.calls[k]? = some call → Kept call.input →
    InFlight k call.rest p.state → HasRow k p.state → HasRow k (environ o p.state)

/-- The outline of the interceptor, for runs of requests of the kind `P` that delete no row of a
call of the kind `Kept`. -/
def callOutline (config : Config) (P Kept : Served → Prop) :
    Outline (interceptor config) fun p m =>
      (∀ served, m = .start served → P served) ∧ Keeps Kept p m ∧ Numbered p where
  Inv := Sound config.sha P
  At := CallAt config P Kept
  start {p served} hok _ _ := by
    obtain ⟨hP, -, hnumbered⟩ := hok
    have hfresh : Unexecuted p.calls.length p.state :=
      fun x hx => Nat.ne_of_lt (hnumbered.executed x hx)
    exact ⟨hP served rfl, fun row hrow hid => absurd hid (Nat.ne_of_lt (hnumbered.rows row hrow)),
      fun x hx hcall => absurd hcall (hfresh x hx), point_start hfresh⟩
  step {p k c i a f} _ hk hs hat := by
    have hstep : Advances config P Kept k i a f c p.state := (hat _ _ hk).step hs
    exact ⟨hstep.sound, hstep.next⟩
  stable {p k c i a f j call} _ hk hs hat hne hj := by
    have hstep : Advances config P Kept k i a f c p.state := (hat _ _ hk).step hs
    have heff := effect_perform hstep.own c p.state
    refine (hat _ _ hj).stable (fun _ _ hhas => ?_)
      (fun row hrow hid => heff.rows row hrow (hid.trans_ne hne)) heff.executed
      fun x hx hcall => heff.others x hx (hcall.trans_ne hne)
    obtain ⟨row, hrow, hid⟩ := hhas
    obtain ⟨row', hrow', hid'⟩ := heff.ids row hrow
    exact ⟨row', hrow', hid'.trans hid⟩
  environ {p o} hok hs hat := by
    refine ⟨hs.environ o, fun j call hj => (hat _ _ hj).stable (hok.2.1 o rfl j call hj)
      (fun row hrow _ => mem_environ hrow) (fun x hx => ?_) fun x hx _ => ?_⟩
    · exact (executed_environ o p.state).symm ▸ hx
    · exact executed_environ o p.state ▸ hx

variable {p : Pool Store Served Act Act.Answer Error Reply} {m : Move Served Choice Environ}

theorem Numbered.move (h : Numbered p) (hs : Sound config.sha P p.state)
    (hat : p.Meets (CallAt config P Kept)) : Numbered ((interceptor config).move m p) := by
  rcases Service.move_cases (interceptor config) m p with ⟨i, rfl, hp⟩ |
    ⟨k, c, i, a, f, rfl, hk, hp⟩ | ⟨o, rfl, hp⟩ | ⟨k, c, -, -, hp⟩
  · rw [hp]
    refine ⟨fun row hrow => ?_, fun x hx => ?_⟩
    · exact Nat.lt_of_lt_of_le (h.rows row hrow) (by simp)
    · exact Nat.lt_of_lt_of_le (h.executed x hx) (by simp)
  · rw [hp]
    have hlt : k < p.calls.length := (List.getElem?_eq_some_iff.1 hk).1
    have hstep : Advances config P Kept k i a f c p.state := (hat _ _ hk).step hs
    have heff := effect_perform hstep.own c p.state
    refine ⟨fun row hrow => ?_, fun x hx => ?_⟩
    · rw [List.length_set]
      by_cases hid : row.id = k
      · rw [hid]
        exact hlt
      · exact h.rows row (heff.rows row hrow hid)
    · rw [List.length_set]
      by_cases hcall : x.call = k
      · rw [hcall]
        exact hlt
      · exact h.executed x (heff.others x hx hcall)
  · rw [hp]
    exact ⟨fun row hrow => h.rows row (mem_environ hrow),
      fun x hx => h.executed x (executed_environ o p.state ▸ hx)⟩
  · rw [hp]
    exact h

/-- **What holds after every run.** The stored responses are those of executions, every call stands
at one of its points, and rows and executions carry the numbers of calls. -/
theorem calls_exec (config : Config) (P Kept : Served → Prop)
    (ms : List (Move Served Choice Environ)) (hms : ∀ served, .start served ∈ ms → P served)
    (hkeeps : ∀ t ∈ ((interceptor config).machine .empty).trace ⟨.empty, []⟩ ms,
      Keeps Kept t.pre t.input) :
    Sound config.sha P (((interceptor config).machine .empty).exec ⟨.empty, []⟩ ms).state ∧
      (((interceptor config).machine .empty).exec ⟨.empty, []⟩ ms).Meets
        (CallAt config P Kept) ∧
      Numbered (((interceptor config).machine .empty).exec ⟨.empty, []⟩ ms) := by
  refine Machine.invariant_of (I := fun p => Sound config.sha P p.state ∧
      p.Meets (CallAt config P Kept) ∧ Numbered p)
    (C := fun t => (∀ served, t.input = .start served → P served) ∧ Keeps Kept t.pre t.input)
    ⟨sound_empty, Pool.meets_nil, nofun, nofun⟩ ?_ fun t ht => ⟨fun served hi => ?_, hkeeps t ht⟩
  · rintro m p u p' ⟨hs, hat, hnumbered⟩ ⟨hP, hkeep⟩ hi
    rw [Service.post_of_invoke hi]
    obtain ⟨hs', hat'⟩ := (callOutline config P Kept).move ⟨hP, hkeep, hnumbered⟩ hs hat
    exact ⟨hs', hat', hnumbered.move hs hat⟩
  · exact hms served (hi ▸ Machine.input_mem_of_mem_trace ht)

/-- The row that an execution leaves, if it is one of a call whose row is kept. -/
theorem row_of_execution (hat : p.Meets (CallAt config P Kept)) (hnumbered : Numbered p)
    {x : Execution} (hx : x ∈ p.state.executed) (hpost : x.request.method = "POST")
    (hkept : ∀ served, served.request = x.request → Kept served) :
    ∃ row ∈ p.state.keys.rows, row.id = x.call ∧ row.Of config.sha x.request := by
  have h := hat _ _ (List.getElem?_eq_getElem (hnumbered.executed x hx))
  have hrequest := h.execution x hx rfl
  obtain ⟨row, hrow, hid⟩ := h.hasRow (hkept _ hrequest.symm) (hrequest ▸ hpost) hx rfl
  exact ⟨row, hrow, hid, hrequest ▸ h.row row hrow hid⟩

end Idempotency

end Backend

end InvoiceFi
