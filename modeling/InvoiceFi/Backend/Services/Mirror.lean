import InvoiceFi.Backend.Network

/-!
# The mirrored invoices and their log

Two services move a mirrored invoice, each in its own way: a settlement with an update that tests
the status, a funding with one that does not, after a check that may be long past. What keeps the
funding from moving an invoice twice is the chain: of all the calls that have passed the check, at
most one is answered with success, and only that one goes on to write.

`Effect` says once what a step of a call may do to the invoices, the log and the chain, given where
its program stands (`CallAt`); the invariant of the state (`MirrorInv`), the assertions of the other
calls and the lifecycle of every invoice follow from it. `mirror_agrees` puts them together.
-/

namespace InvoiceFi

namespace Backend

/-! ## The log -/

/-- A list of events takes an invoice from one status to another: each event leaves the status that
the one before it reached. -/
def Follows : InvoiceStatus → List InvoiceEvent → InvoiceStatus → Prop
  | a, [], b => a = b
  | a, e :: es, b => e.previousStatus = some a ∧ Follows e.newStatus es b

/-- The events of an invoice, in the order of their sequence numbers. -/
def Db.history (db : Db) (onchainId : Int) : List InvoiceEvent :=
  db.events.filter fun e => decide (e.invoiceOnchainId = onchainId)

/-- The log agrees with the table: the events of every invoice take it from `PENDING` to its current
status. -/
def LogAgrees (db : Db) : Prop :=
  ∀ r ∈ db.invoices.rows, Follows .pending (db.history r.onchainId) r.status

theorem Follows.concat {a b : InvoiceStatus} {es : List InvoiceEvent} (h : Follows a es b)
    {e : InvoiceEvent} (he : e.previousStatus = some b) : Follows a (es ++ [e]) e.newStatus := by
  induction es generalizing a with
  | nil =>
    cases h
    exact ⟨he, rfl⟩
  | cons x es ih => exact ⟨h.1, ih h.2⟩

/-- An update of one invoice together with the event that leaves its status keeps the log in
agreement with the table. -/
theorem LogAgrees.update {db : Db} (h : LogAgrees db) {p : Invoice → Bool} {f : InvoiceChange}
    {e : InvoiceEvent} (hp : ∀ r ∈ db.invoices.rows, p r = true ↔
      r.onchainId = e.invoiceOnchainId)
    (hprev : ∀ r ∈ db.invoices.rows, p r = true → e.previousStatus = some r.status)
    (hnew : ∀ r, (f.apply r).status = e.newStatus) :
    LogAgrees { db with
      invoices := db.invoices.updateMany p f
      events := db.events ++ [e] } := by
  intro r hr
  obtain ⟨r₀, hr₀, rfl⟩ := InvoiceTable.mem_updateMany.1 hr
  by_cases hpr : p r₀ = true
  · have hid := (hp r₀ hr₀).1 hpr
    have hhist : Db.history { db with
        invoices := db.invoices.updateMany p f
        events := db.events ++ [e] } r₀.onchainId = db.history r₀.onchainId ++ [e] := by
      simp [Db.history, hid]
    rw [if_pos hpr, f.onchainId, hhist, hnew]
    exact (h r₀ hr₀).concat (hprev r₀ hr₀ hpr)
  · have hid : ¬ e.invoiceOnchainId = r₀.onchainId := fun heq => hpr ((hp r₀ hr₀).2 heq.symm)
    have hhist : Db.history { db with
        invoices := db.invoices.updateMany p f
        events := db.events ++ [e] } r₀.onchainId = db.history r₀.onchainId := by
      simp [Db.history, hid]
    rw [if_neg hpr, hhist]
    exact h r₀ hr₀

/-! ## The effect of a step -/

section
variable {τ κ O : Type} {chain : PoolChain τ κ O} {sha : Sha256} {k : Nat}
  {call : Option BackendCall} {s s' : Store τ}

/-- What a step of the call `k` may do, or, with no call, what may happen from outside: nothing to
the invoices; be answered with success by the chain, for an invoice that had not been; fund an
invoice that is `PENDING`, having been answered so; or, as a settlement, settle one that is
`FUNDED`. -/
inductive Effect (chain : PoolChain τ κ O) (k : Nat) (call : Option BackendCall) (s s' : Store τ) :
    Prop
  | quiet (invoices : s'.db.invoices = s.db.invoices) (events : s'.db.events = s.db.events)
      (fundedBy : s'.fundedBy = s.fundedBy) (settledBy : s'.settledBy = s.settledBy)
      (confirmed : ∀ req, chain.confirmed s.chain req → chain.confirmed s'.chain req)
  | paid (i : Int) (fresh : ¬ chain.Spent s.chain i) (now : chain.Spent s'.chain i)
      (db : s'.db = s.db) (fundedBy : s'.fundedBy = Function.update s.fundedBy i (some k))
      (settledBy : s'.settledBy = s.settledBy)
      (confirmed : ∀ req, chain.confirmed s.chain req → chain.confirmed s'.chain req)
  | funded (w : FundingWrite) (now : Nat) (r : Invoice) (mem : r ∈ s.db.invoices.rows)
      (id : r.id = w.id) (onchainId : r.onchainId = w.onchainId) (status : r.status = .pending)
      (paid : s.fundedBy w.onchainId = some k) (confirmed : chain.confirmed s.chain w.request)
      (store : s' = { s with db := { s.db with
        invoices := s.db.invoices.updateMany (fun r => decide (r.id = w.id)) (w.change now)
        events := s.db.events ++
          [⟨w.onchainId, some .pending, .funded, w.userId, some w.txHash, now⟩] } })
  | settled (w : SettlementWrite) (now : Nat) (r : Invoice)
      (by_settlement : call = some (.settle w.invoiceId w.ledger w.txHash))
      (mem : r ∈ s.db.invoices.rows) (onchainId : r.onchainId = w.invoiceId.onchainId)
      (status : r.status = .funded)
      (store : s' = { s with
        db := { s.db with
          invoices := s.db.invoices.updateMany w.matches (w.change now)
          events := s.db.events ++ [⟨w.invoiceId.onchainId, some .funded, .repaid,
            "settlement-sync-service", w.txHash, now⟩] }
        settledBy := Function.update s.settledBy w.invoiceId.onchainId (some k) })

/-- What has been answered with success on the chain stays so. -/
theorem Effect.confirmed (h : Effect chain k call s s') {req : FundRequest}
    (hreq : chain.confirmed s.chain req) : chain.confirmed s'.chain req := by
  cases h with
  | quiet _ _ _ _ hs => exact hs req hreq
  | paid _ _ _ _ _ _ hs => exact hs req hreq
  | funded _ _ _ _ _ _ _ _ _ hs => rw [hs]; exact hreq
  | settled _ _ _ _ _ _ _ hs => rw [hs]; exact hreq

theorem Effect.spent (h : Effect chain k call s s') {i : Int} (hi : chain.Spent s.chain i) :
    chain.Spent s'.chain i := by
  obtain ⟨req, hreq, hid⟩ := hi
  exact ⟨req, h.confirmed hreq, hid⟩

/-- A store whose invoices are left alone has undergone no more than a quiet step. -/
theorem Effect.of_sameInvoices (h : SameInvoices s s') : Effect chain k call s s' :=
  .quiet h.invoices h.events h.fundedBy h.settledBy fun i hi => by rw [h.chain]; exact hi

/-- The invariant of the state: an invoice that a call was answered success for is spent on the
chain, and one that a call settled is `REPAID`. -/
structure MirrorInv (chain : PoolChain τ κ O) (s : Store τ) : Prop where
  spent : ∀ i j, s.fundedBy i = some j → chain.Spent s.chain i
  settled : ∀ i j, s.settledBy i = some j →
    ∀ r ∈ s.db.invoices.rows, r.onchainId = i → r.status = .repaid

/-- How a step changes a row. -/
inductive RowStep (k : Nat) (s s' : Store τ) (r r' : Invoice) : Prop
  | same (h : r' = r)
  | funded (before : r.status = .pending) (after : r'.status = .funded)
      (paid : s.fundedBy r.onchainId = some k)
  | settled (before : r.status = .funded) (after : r'.status = .repaid)

/-- What a step does to the row of an invoice: nothing, or one move of its lifecycle. -/
theorem Effect.row (h : Effect chain k call s s') {r' : Invoice} (hr' : r' ∈ s'.db.invoices.rows) :
    ∃ r ∈ s.db.invoices.rows, r'.id = r.id ∧ r'.onchainId = r.onchainId ∧ RowStep k s s' r r' := by
  cases h with
  | quiet hi =>
    rw [hi] at hr'
    exact ⟨r', hr', rfl, rfl, .same rfl⟩
  | paid _ _ _ hdb =>
    rw [hdb] at hr'
    exact ⟨r', hr', rfl, rfl, .same rfl⟩
  | funded w now r hr hid ho hst hpaid _ hs =>
    rw [hs] at hr'
    obtain ⟨r₀, hr₀, rfl⟩ := InvoiceTable.mem_updateMany.1 hr'
    split
    · next hw =>
      have heq : r₀ = r := InvoiceTable.eq_of_id hr₀ hr (by rw [of_decide_eq_true hw, hid])
      rw [heq]
      exact ⟨r, hr, rfl, rfl, .funded hst rfl (by rw [ho]; exact hpaid)⟩
    · exact ⟨r₀, hr₀, rfl, rfl, .same rfl⟩
  | settled w now r _ hr ho hst hs =>
    rw [hs] at hr'
    obtain ⟨r₀, hr₀, rfl⟩ := InvoiceTable.mem_updateMany.1 hr'
    split
    · next hw => exact ⟨r₀, hr₀, rfl, rfl, .settled (of_decide_eq_true hw).2 rfl⟩
    · exact ⟨r₀, hr₀, rfl, rfl, .same rfl⟩

/-- No row disappears and none is added. -/
theorem Effect.ids (h : Effect chain k call s s') :
    s'.db.invoices.rows.map Invoice.id = s.db.invoices.rows.map Invoice.id := by
  have hupdate : ∀ (p : Invoice → Bool) (f : InvoiceChange),
      (s.db.invoices.updateMany p f).rows.map Invoice.id =
        s.db.invoices.rows.map Invoice.id := by
    intro p f
    rw [InvoiceTable.updateMany, List.map_map]
    refine List.map_congr_left fun r _ => ?_
    by_cases hp : p r <;> simp [hp, f.id]
  cases h with
  | quiet hi => rw [hi]
  | paid _ _ _ hdb => rw [hdb]
  | funded w now _ _ _ _ _ _ _ hs =>
    rw [hs]
    exact hupdate _ _
  | settled w now _ _ _ _ _ hs =>
    rw [hs]
    exact hupdate _ _

/-- The row of an invoice after a step. -/
theorem Effect.row_after (h : Effect chain k call s s') {r : Invoice}
    (hr : r ∈ s.db.invoices.rows) : ∃ r' ∈ s'.db.invoices.rows,
      r'.id = r.id ∧ r'.onchainId = r.onchainId ∧ RowStep k s s' r r' := by
  have hid : r.id ∈ s'.db.invoices.rows.map Invoice.id := by
    rw [h.ids]
    exact List.mem_map_of_mem hr
  obtain ⟨r', hr', hid'⟩ := List.mem_map.1 hid
  obtain ⟨r₀, hr₀, h₀, ho, hstep⟩ := h.row hr'
  have heq : r₀ = r := InvoiceTable.eq_of_id hr₀ hr (by rw [← h₀, hid'])
  rw [heq] at h₀ ho hstep
  exact ⟨r', hr', h₀, ho, hstep⟩

/-- The call that settled an invoice stays that call. -/
theorem Effect.settledBy (h : Effect chain k call s s') (hinv : MirrorInv chain s) {i : Int}
    {j : Nat} (hj : s.settledBy i = some j) : s'.settledBy i = some j := by
  cases h with
  | quiet _ _ _ hs => rw [hs]; exact hj
  | paid _ _ _ _ _ hs => rw [hs]; exact hj
  | funded _ _ _ _ _ _ _ _ _ hs => rw [hs]; exact hj
  | settled w now r _ hr ho hst hs =>
    have hne : i ≠ w.invoiceId.onchainId := by
      rintro rfl
      have hrepaid := hinv.settled _ j hj r hr ho
      rw [hst] at hrepaid
      cases hrepaid
    rw [hs]
    exact (Function.update_of_ne hne _ _).trans hj

/-- The call that was answered success for an invoice stays that call. -/
theorem Effect.fundedBy (h : Effect chain k call s s') (hinv : MirrorInv chain s) {i : Int}
    {j : Nat} (hj : s.fundedBy i = some j) : s'.fundedBy i = some j := by
  cases h with
  | quiet _ _ hf => rw [hf]; exact hj
  | paid i' hfresh _ _ hf =>
    have hne : i ≠ i' := by
      rintro rfl
      exact hfresh (hinv.spent i j hj)
    rw [hf, Function.update_of_ne hne]
    exact hj
  | funded _ _ _ _ _ _ _ _ _ hs => rw [hs]; exact hj
  | settled _ _ _ _ _ _ _ hs => rw [hs]; exact hj

/-- An invoice whose call is answered with success is spent: it was before, or the call has just
spent it. -/
theorem Effect.spent_of_fundedBy (h : Effect chain k call s s') (hinv : MirrorInv chain s) {i : Int}
    {j : Nat} (hj : s'.fundedBy i = some j) : chain.Spent s'.chain i := by
  have hspent := h.spent (i := i)
  cases h with
  | quiet _ _ hf =>
    rw [hf] at hj
    exact hspent (hinv.spent i j hj)
  | paid i' _ hnow _ hf =>
    rw [hf] at hj
    rcases eq_or_ne i i' with rfl | hne
    · exact hnow
    · rw [Function.update_of_ne hne] at hj
      exact hspent (hinv.spent i j hj)
  | funded _ _ _ _ _ _ _ _ _ hs =>
    rw [hs] at hj ⊢
    exact hinv.spent i j hj
  | settled _ _ _ _ _ _ _ hs =>
    rw [hs] at hj ⊢
    exact hinv.spent i j hj

/-- An invoice that a call settled is `REPAID`: it was before, or the call has just settled it. -/
theorem Effect.repaid_of_settledBy (h : Effect chain k call s s') (hinv : MirrorInv chain s)
    {i : Int} {j : Nat} (hj : s'.settledBy i = some j) {r' : Invoice}
    (hr' : r' ∈ s'.db.invoices.rows) (hi : r'.onchainId = i) : r'.status = .repaid := by
  obtain ⟨r, hr, -, ho, hstep⟩ := h.row hr'
  have hkept : s.settledBy i = some j → r'.status = .repaid := by
    intro hold
    have hrepaid := hinv.settled i j hold r hr (by rw [← ho, hi])
    cases hstep with
    | same heq => rw [heq]; exact hrepaid
    | funded hb => rw [hb] at hrepaid; cases hrepaid
    | settled hb => rw [hb] at hrepaid; cases hrepaid
  cases h with
  | quiet _ _ _ hs => exact hkept (by rw [← hs]; exact hj)
  | paid _ _ _ _ _ hs => exact hkept (by rw [← hs]; exact hj)
  | funded _ _ _ _ _ _ _ _ _ hs => exact hkept (by rw [hs] at hj; exact hj)
  | settled w now r₁ _ hr₁ ho₁ hst₁ hs =>
    rw [hs] at hj hr'
    rcases eq_or_ne i w.invoiceId.onchainId with hi' | hne
    · -- the row of the id is the one that the write matched
      obtain ⟨r₂, hr₂, heq⟩ := InvoiceTable.mem_updateMany.1 hr'
      have h₂ : r₂.onchainId = r₁.onchainId := by
        have hid : r'.onchainId = r₂.onchainId := by
          rw [heq]
          split
          · exact (w.change now).onchainId r₂
          · rfl
        rw [← hid, hi, hi', ho₁]
      have hr₂₁ : r₂ = r₁ := InvoiceTable.eq_of_onchainId hr₂ hr₁ h₂
      have hmatch : w.matches r₂ = true := by
        rw [hr₂₁]
        exact decide_eq_true ⟨ho₁, hst₁⟩
      rw [heq, if_pos hmatch]
      rfl
    · exact hkept ((Function.update_of_ne hne _ _).symm.trans hj)

/-- A step keeps the invariant. -/
theorem Effect.inv (h : Effect chain k call s s') (hinv : MirrorInv chain s) :
    MirrorInv chain s' where
  spent _ _ hj := h.spent_of_fundedBy hinv hj
  settled _ _ hj _ hr' hi := h.repaid_of_settledBy hinv hj hr' hi

/-- A step keeps the log in agreement with the table. -/
theorem Effect.agrees (h : Effect chain k call s s') (hlog : LogAgrees s.db) : LogAgrees s'.db := by
  cases h with
  | quiet hi he =>
    intro r hr
    rw [hi] at hr
    rw [Db.history, he]
    exact hlog r hr
  | paid _ _ _ hdb => rw [hdb]; exact hlog
  | funded w now r hr hid ho hst _ _ hs =>
    rw [hs]
    refine hlog.update (fun r₀ hr₀ => ?_) (fun r₀ hr₀ hp => ?_) fun _ => rfl
    · rw [decide_eq_true_iff, ← hid, ← ho]
      constructor
      · intro h₀
        rw [InvoiceTable.eq_of_id hr₀ hr h₀]
      · intro h₀
        rw [InvoiceTable.eq_of_onchainId hr₀ hr h₀]
    · rw [InvoiceTable.eq_of_id hr₀ hr (by rw [of_decide_eq_true hp, hid]), hst]
  | settled w now r _ hr ho hst hs =>
    rw [hs]
    refine hlog.update (fun r₀ hr₀ => ?_) (fun r₀ hr₀ hp => ?_) fun _ => rfl
    · constructor
      · exact fun hp => (of_decide_eq_true hp).1
      · intro h₀
        have heq : r₀ = r := InvoiceTable.eq_of_onchainId hr₀ hr (h₀.trans ho.symm)
        exact decide_eq_true ⟨h₀, by rw [heq]; exact hst⟩
    · rw [(of_decide_eq_true hp).2]

/-! ## Where a call stands -/

/-- A funding call that has passed its checks. -/
def paying (call : FundCall) (invoice : Invoice) (amount : Int) : Task Reply := do
  let response ← payInvoice call invoice amount
  pure (.funded response)

/-- A funding call that the chain has answered with success. -/
def storing (w : FundingWrite) : Task Reply := do
  let response ← storeFunding w
  pure (.funded response)

/-- A settlement call that has opened its transaction. -/
def settling (sha : Sha256) (id : DecimalId) (ledger : Nat) (txHash : Option String) :
    Task Reply := do
  let result ← inTransaction (settleInvoiceWithTx sha id ledger txHash)
  pure (.settlement result)

/-- A settlement call whose own transaction has answered. -/
def closing (sha : Sha256) (id : DecimalId) (ledger : Nat) (x : SettlementResult) :
    Task Reply := do
  let result ← inTransaction (announce sha id ledger x)
  pure (.settlement result)

/-- Where a funding call stands: at its start; before the chain, with an invoice that is `PENDING`
or already spent; before its transaction, as the call that was answered success for an invoice that
is still `PENDING`; or at its end. -/
def FundAt (chain : PoolChain τ κ O) (sha : Sha256) (k : Nat) (call : FundCall) (p : Task Reply)
    (s : Store τ) : Prop :=
  p = BackendCall.task sha (.fund call) ∨
  (∃ invoice amount r, p = paying call invoice amount ∧ r ∈ s.db.invoices.rows ∧
    r.id = invoice.id ∧ r.onchainId = invoice.onchainId ∧
    (r.status = .pending ∨ chain.Spent s.chain r.onchainId)) ∨
  (∃ w r, p = storing w ∧ r ∈ s.db.invoices.rows ∧ r.id = w.id ∧ r.onchainId = w.onchainId ∧
    r.status = .pending ∧ s.fundedBy w.onchainId = some k ∧ chain.confirmed s.chain w.request) ∨
  ∃ x, p = .done x ∧ ∀ y, x ≠ .ok (.settlement y)

/-- Where a settlement call stands: before its own transaction; or after it, with nothing left to do
to the invoices, and with the call remembered as the one that settled the invoice if that is what it
reports. -/
def SettleAt (sha : Sha256) (k : Nat) (id : DecimalId) (ledger : Nat) (txHash : Option String)
    (p : Task Reply) (s : Store τ) : Prop :=
  p = BackendCall.task sha (.settle id ledger txHash) ∨ p = settling sha id ledger txHash ∨
  p.Only Act.Quiet fun x => x = .ok (.settlement .settled) → s.settledBy id.onchainId = some k

/-- Where a call stands. -/
def CallAt (chain : PoolChain τ κ O) (sha : Sha256) (k : Nat) (call : BackendCall)
    (p : Task Reply) (s : Store τ) : Prop :=
  match call with
  | .fund call => FundAt chain sha k call p s
  | .settle id ledger txHash => SettleAt sha k id ledger txHash p s

/-- An invoice that passes the checks of a funding is `PENDING`. -/
theorem checkFundable_eq_ok {call : FundCall} {invoice : Invoice} {amount : Int}
    (h : checkFundable call invoice = .ok amount) :
    invoice.status = .pending ∧ invoice.buyerId = call.userId ∧ amount ≤ invoice.faceValue := by
  simp only [checkFundable, bind_eq_ok, rejectIf_eq_ok, exists_const, pure_eq_ok, not_not,
    Int.not_lt] at h
  obtain ⟨hst, hbuyer, -, amount', -, hle, rfl⟩ := h
  exact ⟨hst, hbuyer, hle⟩

/-- What follows a successful own transaction is quiet, and reports what it did. -/
theorem closing_only (sha : Sha256) (id : DecimalId) (ledger : Nat) (x : SettlementResult) :
    (closing sha id ledger x).Only Act.Quiet
      (fun r => r = .ok (.settlement .settled) → x = .settled) := by
  refine Async.Only.bind (inTransaction_only
    ((announce_only sha id ledger x).mono (fun _ ha => ha.quiet) fun _ h => h) trivial trivial ?_)
    (fun y hy => ?_) fun e _ h => ?_
  · intro e y hy
    cases hy
  · intro h
    cases h
    exact (hy _ rfl).symm
  · cases h

/-- A funding call that has ended. -/
theorem fundAt_done {call : FundCall} {x : Except Error Reply}
    (hx : ∀ y, x ≠ .ok (.settlement y)) : FundAt chain sha k call (.done x) s :=
  .inr (.inr (.inr ⟨x, rfl, hx⟩))

/-- The first step of a funding call reads the invoice and checks it. -/
theorem FundAt.step_reading {call : FundCall} {a : Act} {f : Except Error a.Answer → Task Reply}
    {c : Choice κ} (h : .await a f = BackendCall.task sha (.fund call)) :
    Effect chain k (some (.fund call)) s (perform chain k a c s).2 ∧
      FundAt chain sha k call (f (perform chain k a c s).1) (perform chain k a c s).2 := by
  rw [BackendCall.task, fundInvoice] at h
  cases hg : guardHalt call with
  | error e =>
    rw [hg] at h
    cases h
  | ok u =>
    rw [hg] at h
    cases h
    refine ⟨.of_sameInvoices (perform_quiet chain k (a := .findInvoice _) trivial c s), ?_⟩
    dsimp only [perform, read]
    split
    · cases hf : s.db.invoices.findId call.dto.invoiceId with
      | none => exact fundAt_done fun y hy => by cases hy
      | some invoice =>
        obtain ⟨hmem, -⟩ := InvoiceTable.findId_eq_some.1 hf
        cases hc : checkFundable call invoice with
        | error e =>
          refine .inr (.inr (.inr ⟨.error e, ?_, fun y hy => by cases hy⟩))
          show (Async.ofExcept (checkFundable call invoice) >>= _) >>= _ = _
          rw [hc]
          rfl
        | ok amount =>
          refine .inr (.inl ⟨invoice, amount, invoice, ?_, hmem, rfl, rfl,
            .inl (checkFundable_eq_ok hc).1⟩)
          show (Async.ofExcept (checkFundable call invoice) >>= _) >>= _ = _
          rw [hc]
          rfl
    · exact fundAt_done fun y hy => by cases hy

/-- The answer of the chain to a funding call. -/
theorem FundAt.step_paying {call : FundCall} {invoice r : Invoice} {amount : Int} {c : Choice κ}
    (hr : r ∈ s.db.invoices.rows) (hid : r.id = invoice.id) (ho : r.onchainId = invoice.onchainId)
    (hst : r.status = .pending ∨ chain.Spent s.chain r.onchainId) {a : Act}
    {f : Except Error a.Answer → Task Reply} (h : .await a f = paying call invoice amount) :
    Effect chain k (some (.fund call)) s (perform chain k a c s).2 ∧
      FundAt chain sha k call (f (perform chain k a c s).1) (perform chain k a c s).2 := by
  cases h
  dsimp only [perform]
  cases hsub : (chain.submit c.chain ⟨invoice.onchainId, call.investorWallet, amount⟩
      s.chain).1 with
  | error e =>
    refine ⟨.quiet rfl rfl rfl rfl fun _ => chain.confirmed_submit, ?_⟩
    exact fundAt_done fun y hy => by cases hy
  | ok hash =>
    obtain ⟨hnow, hother⟩ := chain.confirmed_of_ok hsub
    have hfresh : ¬ chain.Spent s.chain invoice.onchainId := by
      rintro ⟨req, hreq, hid⟩
      exact hother req hreq hid
    have hpending : r.status = .pending := by
      rcases hst with hst | hst
      · exact hst
      · rw [ho] at hst
        exact absurd hst hfresh
    refine ⟨.paid invoice.onchainId hfresh ⟨_, hnow, rfl⟩ rfl rfl rfl
      fun _ => chain.confirmed_submit, ?_⟩
    exact .inr (.inr (.inl ⟨fundingWrite call invoice amount hash, r, rfl, hr, hid, ho, hpending,
      Function.update_self .., hnow⟩))

/-- The last step of a funding call stores the funding. -/
theorem FundAt.step_storing {call : FundCall} {w : FundingWrite} {r : Invoice} {c : Choice κ}
    (hr : r ∈ s.db.invoices.rows) (hid : r.id = w.id) (ho : r.onchainId = w.onchainId)
    (hst : r.status = .pending) (hk : s.fundedBy w.onchainId = some k)
    (hreq : chain.confirmed s.chain w.request) {a : Act}
    {f : Except Error a.Answer → Task Reply} (h : .await a f = storing w) :
    Effect chain k (some (.fund call)) s (perform chain k a c s).2 ∧
      FundAt chain sha k call (f (perform chain k a c s).1) (perform chain k a c s).2 := by
  cases h
  rw [perform]
  rcases transact_cases c.fault (Store.onDb (recordFunding w c.clock)) s with ⟨e, ht⟩ |
    ⟨r', s', hb, -, ht⟩ | ⟨r', s', hb, -, ht⟩
  · rw [ht]
    exact ⟨.of_sameInvoices (.refl s), fundAt_done fun y hy => by cases hy⟩
  · obtain ⟨db, hdb, rfl⟩ := onDb_eq_ok.1 hb
    obtain ⟨-, r₀, hr₀, hid₀, -, rfl⟩ := (recordFunding_eq_ok _ _).1 hdb
    rw [ht]
    exact ⟨.funded w c.clock r hr hid ho hst hk hreq rfl, fundAt_done fun y hy => by cases hy⟩
  · obtain ⟨db, hdb, rfl⟩ := onDb_eq_ok.1 hb
    obtain ⟨-, r₀, hr₀, hid₀, -, rfl⟩ := (recordFunding_eq_ok _ _).1 hdb
    rw [ht]
    exact ⟨.funded w c.clock r hr hid ho hst hk hreq rfl, fundAt_done fun y hy => by cases hy⟩

/-- A step of a funding call. -/
theorem FundAt.step {call : FundCall} {a : Act} {f : Except Error a.Answer → Task Reply}
    {c : Choice κ} (h : FundAt chain sha k call (.await a f) s) :
    Effect chain k (some (.fund call)) s (perform chain k a c s).2 ∧
      FundAt chain sha k call (f (perform chain k a c s).1) (perform chain k a c s).2 := by
  rcases h with h | ⟨invoice, amount, r, h, hr, hid, ho, hst⟩ |
    ⟨w, r, h, hr, hid, ho, hst, hk, hreq⟩ | ⟨x, h, -⟩
  · exact FundAt.step_reading h
  · exact FundAt.step_paying hr hid ho hst h
  · exact FundAt.step_storing hr hid ho hst hk hreq h
  · cases h

/-- A settlement call whose own transaction has answered. -/
theorem settleAt_closing {id : DecimalId} {ledger : Nat} {txHash : Option String}
    (x : SettlementResult) (hx : x = .settled → s.settledBy id.onchainId = some k) :
    SettleAt sha k id ledger txHash (closing sha id ledger x) s :=
  .inr (.inr ((closing_only sha id ledger x).mono (fun _ ha => ha) fun _ hr heq => hx (hr heq)))

/-- A settlement call whose own transaction has thrown. -/
theorem settleAt_thrown {id : DecimalId} {ledger : Nat} {txHash : Option String} (e : Error) :
    SettleAt sha k id ledger txHash
      (do
        let result ← inTransaction (throw e : Task SettlementResult)
        pure (Reply.settlement result)) s := by
  refine .inr (.inr ⟨trivial, fun r => ?_⟩)
  cases r <;> exact fun hx => by cases hx

/-- The answer of the settlement's own transaction. -/
theorem SettleAt.step_settling {id : DecimalId} {ledger : Nat} {txHash : Option String} {a : Act}
    {f : Except Error a.Answer → Task Reply} {c : Choice κ}
    (h : .await a f = settling sha id ledger txHash) :
    Effect chain k (some (.settle id ledger txHash)) s (perform chain k a c s).2 ∧
      SettleAt sha k id ledger txHash (f (perform chain k a c s).1) (perform chain k a c s).2 := by
  cases h
  rw [perform]
  rcases transact_cases c.fault (Store.settle k ⟨id, ledger, txHash⟩ c.clock) s with ⟨e, ht⟩ |
    ⟨x, s', hb, -, ht⟩ | ⟨x, s', hb, -, ht⟩
  · rw [ht]
    exact ⟨.of_sameInvoices (.refl s), settleAt_thrown e⟩
  · rw [ht]
    rcases settle_eq_ok hb with ⟨rfl, ⟨r, hr, ho, hst⟩, rfl⟩ | ⟨rfl, rfl, -⟩
    · exact ⟨.settled ⟨id, ledger, txHash⟩ c.clock r rfl hr ho hst rfl,
        settleAt_closing .settled fun _ => Function.update_self ..⟩
    · exact ⟨.of_sameInvoices (.refl _), settleAt_closing .alreadyRepaid fun hx => by cases hx⟩
  · rw [ht]
    rcases settle_eq_ok hb with ⟨rfl, ⟨r, hr, ho, hst⟩, rfl⟩ | ⟨rfl, rfl, -⟩
    · exact ⟨.settled ⟨id, ledger, txHash⟩ c.clock r rfl hr ho hst rfl, settleAt_thrown _⟩
    · exact ⟨.of_sameInvoices (.refl _), settleAt_thrown _⟩

/-- A step of a settlement call. -/
theorem SettleAt.step {id : DecimalId} {ledger : Nat} {txHash : Option String} {a : Act}
    {f : Except Error a.Answer → Task Reply} {c : Choice κ}
    (h : SettleAt sha k id ledger txHash (.await a f) s) :
    Effect chain k (some (.settle id ledger txHash)) s (perform chain k a c s).2 ∧
      SettleAt sha k id ledger txHash (f (perform chain k a c s).1) (perform chain k a c s).2 := by
  rcases h with h | h | h
  · -- the call opens its transaction
    cases h
    refine ⟨.of_sameInvoices (perform_quiet chain k (a := .begin) trivial c s), ?_⟩
    dsimp only [perform]
    split
    · exact .inr (.inl rfl)
    · exact .inr (.inr fun hx => by cases hx)
  · exact SettleAt.step_settling h
  · -- nothing is left to do to the invoices
    have hsame := perform_quiet chain k h.1 c s
    refine ⟨.of_sameInvoices hsame, .inr (.inr ((h.2 _).mono (fun _ ha => ha) ?_))⟩
    intro r hr hx
    rw [hsame.settledBy]
    exact hr hx

/-- A step of a call. -/
theorem CallAt.step {call : BackendCall} {a : Act} {f : Except Error a.Answer → Task Reply}
    {c : Choice κ} (h : CallAt chain sha k call (.await a f) s) :
    Effect chain k (some call) s (perform chain k a c s).2 ∧
      CallAt chain sha k call (f (perform chain k a c s).1) (perform chain k a c s).2 := by
  cases call with
  | fund call => exact FundAt.step h
  | settle id ledger txHash => exact SettleAt.step h

/-- The assertion of a call survives the steps of the others. -/
theorem CallAt.stable {j : Nat} {mine : BackendCall} {p : Task Reply} (hjk : j ≠ k)
    (hinv : MirrorInv chain s) (heff : Effect chain k call s s') (h : CallAt chain sha j mine p s) :
    CallAt chain sha j mine p s' := by
  cases mine with
  | settle id ledger txHash =>
    rcases h with h | h | h
    · exact .inl h
    · exact .inr (.inl h)
    · exact .inr (.inr (h.mono (fun _ ha => ha) fun r hr hx => heff.settledBy hinv (hr hx)))
  | fund call =>
    rcases h with h | ⟨invoice, amount, r, h, hr, hid, ho, hst⟩ | ⟨w, r, h, hr, hid, ho, hst, hw,
      hreq⟩ | h
    · exact .inl h
    · obtain ⟨r', hr', hid', ho', hstep⟩ := heff.row_after hr
      refine .inr (.inl ⟨invoice, amount, r', h, hr', hid'.trans hid, ho'.trans ho, ?_⟩)
      rw [ho']
      rcases hst with hst | hst
      · cases hstep with
        | same heq => exact .inl (by rw [heq]; exact hst)
        | funded _ _ hpaid => exact .inr (heff.spent (hinv.spent _ _ hpaid))
        | settled hb =>
          rw [hst] at hb
          cases hb
      · exact .inr (heff.spent hst)
    · -- only the call that was answered success may fund the invoice
      obtain ⟨r', hr', hid', ho', hstep⟩ := heff.row_after hr
      refine .inr (.inr (.inl ⟨w, r', h, hr', hid'.trans hid, ho'.trans ho, ?_,
        heff.fundedBy hinv hw, heff.confirmed hreq⟩))
      cases hstep with
      | same heq => rw [heq]; exact hst
      | funded _ _ hpaid =>
        rw [ho, hw] at hpaid
        exact absurd (Option.some.inj hpaid) hjk
      | settled hb =>
        rw [hst] at hb
        cases hb
    · exact .inr (.inr (.inr h))

/-- What happens to the chain and to the subscriptions leaves the invoices alone. -/
theorem effect_environ (sha : Sha256) (chain : PoolChain τ κ O) (k : Nat) (o : Environ O)
    (s : Store τ) : Effect chain k none s ((backend sha chain).environ o s) := by
  cases o with
  | chain o => exact .quiet rfl rfl rfl rfl fun _ => chain.confirmed_environ
  | subscribe w => exact .quiet rfl rfl rfl rfl fun _ h => h
  | unsubscribe id => exact .quiet rfl rfl rfl rfl fun _ h => h

/-- The outline of the backend, for runs that start only calls of the kind `P`, with a further
invariant `J` that every effect of such calls keeps. -/
def mirrorOutline (sha : Sha256) (chain : PoolChain τ κ O) (P : BackendCall → Prop)
    (J : Store τ → Prop)
    (hJ : ∀ {k : Nat} {call : Option BackendCall} {s s' : Store τ}, MirrorInv chain s → J s →
      (∀ i, call = some i → P i) → Effect chain k call s s' → J s') :
    Outline (backend sha chain) fun _ m => ∀ i, m = .start i → P i where
  Inv s := MirrorInv chain s ∧ J s
  At k i p s := P i ∧ CallAt chain sha k i p s
  start {p i} hP _ _ := by
    refine ⟨hP i rfl, ?_⟩
    cases i with
    | fund call => exact .inl rfl
    | settle id ledger txHash => exact .inl rfl
  step _ hk hinv hat := by
    obtain ⟨hP, hcall⟩ := hat _ _ hk
    obtain ⟨heff, hnext⟩ := CallAt.step hcall
    refine ⟨⟨heff.inv hinv.1, hJ hinv.1 hinv.2 ?_ heff⟩, hP, hnext⟩
    intro i hi
    cases hi
    exact hP
  stable _ hk hinv hat hne hj :=
    ⟨(hat _ _ hj).1, CallAt.stable hne hinv.1 (CallAt.step (hat _ _ hk).2).1 (hat _ _ hj).2⟩
  environ {p o} _ hinv hat := by
    have heff := fun k => effect_environ sha chain k o p.state
    refine ⟨⟨(heff 0).inv hinv.1, hJ hinv.1 hinv.2 (by simp) (heff 0)⟩, fun j call hj => ?_⟩
    -- the environment is no call: its step counts as one of a call other than `j`
    exact ⟨(hat j call hj).1, CallAt.stable (Nat.ne_of_lt (Nat.lt_succ_self j)) hinv.1
      (heff (j + 1)) (hat j call hj).2⟩

/-! ## The mirror and its log -/

/-- A store in which no call has been made. -/
structure Untouched (s : Store τ) : Prop where
  fundedBy : ∀ i, s.fundedBy i = none
  settledBy : ∀ i, s.settledBy i = none

/-- One move of the lifecycle, or none. -/
def Moves (a b : InvoiceStatus) : Prop :=
  a = b ∨ (a = .pending ∧ b = .funded) ∨ (a = .funded ∧ b = .repaid)

/-- Every invoice stays in the table and makes at most one move of its lifecycle. -/
def OnlyForward (db db' : Db) : Prop :=
  db'.invoices.rows.map Invoice.id = db.invoices.rows.map Invoice.id ∧
  ∀ r' ∈ db'.invoices.rows, ∃ r ∈ db.invoices.rows, r'.id = r.id ∧ r'.onchainId = r.onchainId ∧
    Moves r.status r'.status

/-- The call `k` is a settlement of the invoice and has reported `SETTLED`. -/
def ReportsSettled (p : Pool (Store τ) BackendCall Act Act.Answer Error Reply) (i : Int)
    (k : Nat) : Prop :=
  ∃ id ledger txHash, p.calls[k]? = some ⟨.settle id ledger txHash,
    .done (.ok (.settlement .settled))⟩ ∧ id.onchainId = i

theorem Effect.onlyForward (h : Effect chain k call s s') : OnlyForward s.db s'.db := by
  refine ⟨h.ids, fun r' hr' => ?_⟩
  obtain ⟨r, hr, hid, ho, hstep⟩ := h.row hr'
  refine ⟨r, hr, hid, ho, ?_⟩
  cases hstep with
  | same heq => exact .inl (by rw [heq])
  | funded hb ha => exact .inr (.inl ⟨hb, ha⟩)
  | settled hb ha => exact .inr (.inr ⟨hb, ha⟩)

theorem OnlyForward.refl (db : Db) : OnlyForward db db :=
  ⟨rfl, fun r hr => ⟨r, hr, rfl, rfl, .inl rfl⟩⟩

/-- The invariant of an untouched store. -/
theorem Untouched.inv (hs : Untouched s) : MirrorInv chain s := by
  refine ⟨fun i j hj => ?_, fun i j hj => ?_⟩
  · rw [hs.fundedBy i] at hj
    cases hj
  · rw [hs.settledBy i] at hj
    cases hj

/-- The invariants and the assertions hold after every run, from an untouched store, of calls of the
kind `P`. -/
theorem mirror_exec_of (sha : Sha256) (P : BackendCall → Prop) (J : Store τ → Prop)
    (hJ : ∀ {k : Nat} {call : Option BackendCall} {s s' : Store τ}, MirrorInv chain s → J s →
      (∀ i, call = some i → P i) → Effect chain k call s s' → J s')
    (hs : Untouched s) (h0 : J s) (ms : List (Move BackendCall (Choice κ) (Environ O)))
    (hms : ∀ i, .start i ∈ ms → P i) :
    MirrorInv chain (((backend sha chain).machine s).exec ⟨s, []⟩ ms).state ∧
      J (((backend sha chain).machine s).exec ⟨s, []⟩ ms).state ∧
      (((backend sha chain).machine s).exec ⟨s, []⟩ ms).Meets
        fun k i p s => P i ∧ CallAt chain sha k i p s := by
  have hstarts : ∀ t ∈ ((backend sha chain).machine s).trace ⟨s, []⟩ ms, ∀ i,
      t.input = .start i → P i :=
    fun t ht i hi => hms i (hi ▸ Machine.input_mem_of_mem_trace ht)
  obtain ⟨⟨hinv, hj⟩, hat⟩ := (mirrorOutline sha chain P J hJ).exec (p := ⟨s, []⟩) ⟨hs.inv, h0⟩
    Pool.meets_nil hstarts
  exact ⟨hinv, hj, hat⟩

/-- The invariant and the assertions hold after every run from an untouched store. -/
theorem mirror_exec (sha : Sha256) (chain : PoolChain τ κ O) (hs : Untouched s)
    (ms : List (Move BackendCall (Choice κ) (Environ O))) :
    MirrorInv chain (((backend sha chain).machine s).exec ⟨s, []⟩ ms).state ∧
      (((backend sha chain).machine s).exec ⟨s, []⟩ ms).Meets (CallAt chain sha) := by
  obtain ⟨hinv, -, hat⟩ := mirror_exec_of sha (fun _ => True) (fun _ => True)
    (fun _ _ _ _ => trivial) hs trivial ms fun _ _ => trivial
  exact ⟨hinv, fun k call hk => (hat k call hk).2⟩

end

/-- **The mirror and its log agree.** In every interleaving of fundings and settlements, whatever
fails, on a chain that answers the funding of an invoice with success at most once: every invoice
only moves from `PENDING` to `FUNDED` and from `FUNDED` to `REPAID`, at most one settlement call of
an invoice reports `SETTLED`, and the events of every invoice lead from `PENDING` to its current
status, if they did so before. -/
theorem mirror_agrees {τ κ O : Type} (sha : Sha256) (chain : PoolChain τ κ O) {s : Store τ}
    (hs : Untouched s) (hlog : LogAgrees s.db)
    (ms : List (Move BackendCall (Choice κ) (Environ O))) :
    (∀ t ∈ ((backend sha chain).machine s).trace ⟨s, []⟩ ms,
      OnlyForward t.pre.state.db t.post.state.db) ∧
    (∀ i j k, ReportsSettled (((backend sha chain).machine s).exec ⟨s, []⟩ ms) i j →
      ReportsSettled (((backend sha chain).machine s).exec ⟨s, []⟩ ms) i k → j = k) ∧
    LogAgrees (((backend sha chain).machine s).exec ⟨s, []⟩ ms).state.db := by
  refine ⟨fun t ht => ?_, fun i j k hj hk => ?_, ?_⟩
  · obtain ⟨ms₁, m, ms₂, -, rfl⟩ := Machine.mem_trace.1 ht
    obtain ⟨-, hat⟩ := mirror_exec sha chain hs ms₁
    rw [Machine.step_pre]
    show OnlyForward _ ((backend sha chain).move m _).state.db
    rcases Service.move_cases (backend sha chain) m
        (((backend sha chain).machine s).exec ⟨s, []⟩ ms₁) with
      ⟨i, rfl, hp⟩ | ⟨k, c, i, a, f, rfl, hk, hp⟩ | ⟨o, rfl, hp⟩ | ⟨k, c, -, -, hp⟩
    · rw [hp]
      exact .refl _
    · rw [hp]
      exact (CallAt.step (hat _ _ hk)).1.onlyForward
    · rw [hp]
      exact (effect_environ sha chain 0 o _).onlyForward
    · rw [hp]
      exact .refl _
  · obtain ⟨-, hat⟩ := mirror_exec sha chain hs ms
    have hcall : ∀ n, ReportsSettled (((backend sha chain).machine s).exec ⟨s, []⟩ ms) i n →
        (((backend sha chain).machine s).exec ⟨s, []⟩ ms).state.settledBy i = some n := by
      rintro n ⟨id, ledger, txHash, hn, rfl⟩
      rcases hat n _ hn with h | h | h
      · cases h
      · cases h
      · exact h rfl
    have hjk := (hcall j hj).symm.trans (hcall k hk)
    exact Option.some.inj hjk
  · exact (mirror_exec_of sha (fun _ => True) (fun s => LogAgrees s.db)
      (fun _ hlog _ heff => heff.agrees hlog) hs hlog ms fun _ _ => trivial).2.1

/-- Two buyers' fundings of one invoice in parallel, both past the check: the chain answers the
first one, and its transaction fails. -/
theorem mirror_agrees_racing :
    let s : Store Network := .opening (oneInvoice [])
    let ms : List (Move BackendCall (Choice Submission) (Environ NetworkEvent)) :=
      [.start (.fund (buyerFunds 100)), .start (.fund (buyerFunds 200)), .resume 0 smooth,
        .resume 1 smooth, .resume 0 smooth, .resume 1 smooth, .resume 0 failing]
    (∀ t ∈ ((backend plainSha256 network).machine s).trace ⟨s, []⟩ ms,
      OnlyForward t.pre.state.db t.post.state.db) ∧
    (∀ i j k, ReportsSettled (((backend plainSha256 network).machine s).exec ⟨s, []⟩ ms) i j →
      ReportsSettled (((backend plainSha256 network).machine s).exec ⟨s, []⟩ ms) i k → j = k) ∧
    LogAgrees (((backend plainSha256 network).machine s).exec ⟨s, []⟩ ms).state.db := by
  intro s ms
  refine mirror_agrees plainSha256 network (s := s) ⟨fun _ => rfl, fun _ => rfl⟩ (fun r hr => ?_) ms
  cases List.mem_singleton.1 hr
  rfl

end Backend

end InvoiceFi
