import InvoiceFi.Backend.Idempotency.Calls

/-!
# A key is executed at most once

A handler that has returned for a key leaves its row in the table, first locked and then with the
response, and the table has one row for the key of a user. So no other handler returns for the key,
as long as nothing deletes the row (`executed_at_most_once`). The cleanup of stale locks does: it
looks at the age of a lock only, and a handler that takes longer, or whose response could not be
written, is executed again (`executed_twice`).
-/

namespace InvoiceFi

namespace Backend

namespace Idempotency

instance (request : Request) (key : String) : Decidable (request.Uses key) :=
  decidable_of_iff (request.method = "POST" ∧ requireKey request = .ok key)
    ⟨fun h => ⟨h.1, h.2⟩, fun h => ⟨h.post, h.required⟩⟩

/-- The executions for a key of a user. -/
def Store.executions (s : Store) (userId key : String) : List Execution :=
  s.executed.filter fun x => decide (x.request.Uses key ∧ x.request.userId = userId)

/-- The move spares the row of the key: if it releases stale locks, then it deletes no row of the
key while the handler of the row is running or after it has returned, and if it deletes expired
keys, then the key has not expired. -/
def Spared (userId key : String) (p : Pool Store Served Act Act.Answer Error Reply)
    (m : Move Served Choice Environ) : Prop :=
  ∀ row ∈ p.state.keys.rows, row.userId = userId → row.key = key →
    (∀ now, m = .environ (.releaseStaleLocks now) → row.stale now = true →
      ∀ call, p.calls[row.id]? = some call → ¬ InFlight row.id call.rest p.state) ∧
    ∀ now, m = .environ (.deleteExpiredKeys now) → row.expired now = false

/-- The calls for a key of a user. -/
def Served.IsFor (userId key : String) (served : Served) : Prop :=
  served.request.Uses key ∧ served.request.userId = userId

variable {config : Config} {P : Served → Prop} {userId key : String}
  {p : Pool Store Served Act Act.Answer Error Reply} {m : Move Served Choice Environ}

/-- A move that spares the rows of a key keeps those of the calls in flight. -/
theorem Spared.keeps (h : Spared userId key p m) {Kept : Served → Prop}
    (hat : p.Meets (CallAt config P Kept)) : Keeps (Served.IsFor userId key) p m := by
  rintro o rfl k call hk ⟨huses, huser⟩ hflight ⟨row, hrow, rfl⟩
  obtain ⟨hrowUses, hrowUser, -, -⟩ := (hat _ _ hk).row row hrow rfl
  obtain ⟨hstale, hexpired⟩ := h row hrow (hrowUser.trans huser) (hrowUses.unique huses)
  cases o with
  | releaseStaleLocks now =>
    refine ⟨row, IdempotencyTable.mem_deleteMany.2 ⟨hrow, ?_⟩, rfl⟩
    refine Bool.eq_false_iff.2 fun hold => ?_
    exact hstale now rfl hold call hk hflight
  | deleteExpiredKeys now =>
    exact ⟨row, IdempotencyTable.mem_deleteMany.2 ⟨hrow, hexpired now rfl⟩, rfl⟩
  | evict ck => exact ⟨row, hrow, rfl⟩

/-- **A key is executed at most once**, in every run in which its row is spared. -/
theorem executed_at_most_once (config : Config) (userId key : String)
    {ms : List (Move Served Choice Environ)}
    (hspared : ∀ t ∈ ((interceptor config).machine .empty).trace ⟨.empty, []⟩ ms,
      Spared userId key t.pre t.input) :
    ((((interceptor config).machine .empty).exec ⟨.empty, []⟩ ms).state.executions
      userId key).length ≤ 1 := by
  have hkeeps : ∀ t ∈ ((interceptor config).machine .empty).trace ⟨.empty, []⟩ ms,
      Keeps (Served.IsFor userId key) t.pre t.input := by
    intro t ht
    have hs := hspared t ht
    obtain ⟨ms₁, m, ms₂, -, rfl⟩ := Machine.mem_trace.1 ht
    rw [Machine.step_pre] at hs ⊢
    -- whose row is whose is known whatever happens to the rows
    obtain ⟨-, hat, -⟩ := calls_exec config (fun _ => True) (fun _ => False) ms₁
      (fun _ _ => trivial) fun _ _ _ _ _ _ _ hkept => hkept.elim
    exact hs.keeps hat
  obtain ⟨hs, hat, hnumbered⟩ := calls_exec config (fun _ => True) (Served.IsFor userId key) ms
    (fun _ _ => trivial) hkeeps
  generalize ((interceptor config).machine .empty).exec ⟨.empty, []⟩ ms = p at *
  have hunique : ∀ x ∈ p.state.executions userId key, ∀ y ∈ p.state.executions userId key,
      x = y := by
    intro x hx y hy
    simp only [Store.executions, List.mem_filter, decide_eq_true_eq] at hx hy
    obtain ⟨hx, huses, huser⟩ := hx
    obtain ⟨hy, huses', huser'⟩ := hy
    obtain ⟨row, hrow, hid, hof⟩ := row_of_execution hat hnumbered hx huses.post
      fun served h => ⟨h ▸ huses, h ▸ huser⟩
    obtain ⟨row', hrow', hid', hof'⟩ := row_of_execution hat hnumbered hy huses'.post
      fun served h => ⟨h ▸ huses', h ▸ huser'⟩
    have hrows : row = row' := IdempotencyTable.eq_of_keyUserId hrow hrow'
      ((hof.uses.unique huses).trans (hof'.uses.unique huses').symm)
      ((hof.userId.trans huser).trans (hof'.userId.trans huser').symm)
    exact hs.eq_of_call hx hy (by rw [← hid, ← hid', hrows])
  have hnodup : (p.state.executions userId key).Nodup := hs.calls.of_map.filter _
  cases hl : p.state.executions userId key with
  | nil => exact Nat.zero_le 1
  | cons x rest =>
    cases rest with
    | nil => exact Nat.le_refl 1
    | cons y rest =>
      rw [hl] at hunique hnodup
      have hxy := hunique x (.head _) y (.tail _ (.head _))
      exact absurd (hxy ▸ List.mem_cons_self) (List.nodup_cons.1 hnodup).1

/-- A settlement of the invoice 7 by `user`. -/
def settleRequest : Served where
  request :=
    { method := "POST"
      path := "/settlement/settle"
      idempotencyKey := some "123e4567-e89b-12d3-a456-426614174000"
      user := some ⟨some "user", none⟩
      body := some (.obj [("invoiceId", .str "7")]) }
  lockOwner := "host:1"

/-- A statement that succeeds at the given time, and a handler that returns. -/
def smooth (clock : Nat) : Choice := ⟨.none, clock, .ok ⟨some 201, none⟩⟩

/-- A statement that fails, and a handler that returns. -/
def failing (clock : Nat) : Choice := ⟨.failed, clock, .ok ⟨some 201, none⟩⟩

/-- A hash that is the identity, and the default time to live. -/
def plainConfig : Config := ⟨plainSha256, none⟩

/-- The moves of a call up to its handler. -/
def toHandler (k clock : Nat) : List (Move Served Choice Environ) :=
  .start settleRequest :: List.replicate 5 (.resume k (smooth clock))

/-- A request that is executed, the cleanup jobs after it, and a retry that is answered by the
table. -/
theorem executed_at_most_once_retried :
    let ms := toHandler 0 0 ++ [.resume 0 (smooth 0), .resume 0 (smooth 1), .resume 0 (smooth 1),
      .resume 0 (failing 1), .environ (.releaseStaleLocks 400000),
      .environ (.deleteExpiredKeys 400000)] ++ .start settleRequest ::
        List.replicate 2 (.resume 1 (smooth 400001))
    ((((interceptor plainConfig).machine .empty).exec ⟨.empty, []⟩ ms).state.executions "user"
      "123e4567-e89b-12d3-a456-426614174000").length ≤ 1 := by
  intro ms
  refine executed_at_most_once plainConfig _ _ ?_
  have hrows : ∀ t ∈ ((interceptor plainConfig).machine .empty).trace ⟨.empty, []⟩ ms,
      ∀ row ∈ t.pre.state.keys.rows, ∀ now, (t.input = .environ (.releaseStaleLocks now) →
        row.stale now = false) ∧ (t.input = .environ (.deleteExpiredKeys now) →
          row.expired now = false) := by
    iterate 10 refine List.forall_mem_cons.2 ⟨fun row hrow now => ⟨nofun, nofun⟩, ?_⟩
    refine List.forall_mem_cons.2 ⟨fun row hrow now => ⟨?_, nofun⟩, ?_⟩
    · rintro ⟨⟩
      cases List.mem_singleton.1 hrow
      rfl
    refine List.forall_mem_cons.2 ⟨fun row hrow now => ⟨nofun, ?_⟩, ?_⟩
    · rintro ⟨⟩
      cases List.mem_singleton.1 hrow
      rfl
    iterate 3 refine List.forall_mem_cons.2 ⟨fun row hrow now => ⟨nofun, nofun⟩, ?_⟩
    exact List.forall_mem_nil _
  intro t ht row hrow huser hkey
  refine ⟨fun now hi hold => ?_, fun now hi => (hrows t ht row hrow now).2 hi⟩
  rw [(hrows t ht row hrow now).1 hi] at hold
  cases hold

/-- The handler takes longer than five minutes, or the write of its response fails: the stale lock
is released, and the retry executes the handler again. -/
theorem executed_twice :
    let slow := toHandler 0 0 ++ [.environ (.releaseStaleLocks 300001)] ++ toHandler 1 300001 ++
      [.resume 0 (smooth 300002), .resume 1 (smooth 300002)]
    let unwritten := toHandler 0 0 ++ [.resume 0 (smooth 0), .resume 0 (failing 1),
      .environ (.releaseStaleLocks 300001)] ++ toHandler 1 300001 ++ [.resume 1 (smooth 300002)]
    ∀ ms ∈ [slow, unwritten],
      ((((interceptor plainConfig).machine .empty).exec ⟨.empty, []⟩ ms).state.executions "user"
        "123e4567-e89b-12d3-a456-426614174000").length = 2 := by
  decide +kernel

end Idempotency

end Backend

end InvoiceFi
