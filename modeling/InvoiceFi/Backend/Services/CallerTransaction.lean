import InvoiceFi.Backend.Network

/-!
# A settlement inside a caller's transaction

`settleInvoiceWithTx` is given a transaction client and does not use it: its writes go through a
transaction of its own, which is committed when it returns, and the deliveries through a third
connection. `settlement_joins_iff` says when the caller sees the atomicity it asks for: if the
settlement moves no row, or if nothing goes wrong between the settlement and the caller's commit.

A run is followed up to any point, where the process may stop: then the database rolls back the
transaction that is open (`Store.crash`).
-/

namespace InvoiceFi

namespace Backend

/-! ## The caller -/

/-- The further writes of a caller on its transaction client. -/
def writeAll : List TxWrite → Task Unit
  | [] => pure ()
  | w :: ws => do
    act (.onTx w)
    writeAll ws

/-- What a caller runs in its transaction: the settlement, and further writes. -/
def settleAndWrite (sha : Sha256) (invoiceId : DecimalId) (ledger : Nat) (txHash : Option String)
    (ws : List TxWrite) : Task SettlementResult := do
  let result ← settleInvoiceWithTx sha invoiceId ledger txHash
  writeAll ws
  pure result

/-- A caller's transaction. -/
def callerTransaction (sha : Sha256) (invoiceId : DecimalId) (ledger : Nat)
    (txHash : Option String) (ws : List TxWrite) : Task SettlementResult :=
  transaction (settleAndWrite sha invoiceId ledger txHash ws)

/-- `applyEventAtomically`. -/
def applyEventAtomically (sha : Sha256) (invoiceId : DecimalId) (ledger eventLedger : Nat)
    (txHash : Option String) : Task SettlementResult :=
  callerTransaction sha invoiceId ledger txHash [.setLastLedger eventLedger]

/-- The cursor after the writes, given the one that was written before them. -/
def cursorAfter : List TxWrite → Option Nat → Option Nat
  | [], last => last
  | .setLastLedger ledger :: ws, _ => cursorAfter ws (some ledger)
  | .other :: ws, last => cursorAfter ws last

/-- The process of the call `k` stops: the database rolls back the transaction it has open. -/
def Store.crash {τ : Type} (k : Nat) (s : Store τ) : Store τ :=
  match s.txs k with
  | .open _ => { s with txs := Function.update s.txs k .rolledBack }
  | _ => s

/-! ## What the caller asks for -/

/-- No invoice, no event and no delivery differs. -/
structure SameTables (db db' : Db) : Prop where
  invoices : db'.invoices = db.invoices
  events : db'.events = db.events
  deliveries : db'.deliveries = db.deliveries

/-- The invoice is `REPAID`. -/
def Repaid {τ : Type} (i : Int) (s : Store τ) : Prop :=
  ∃ r ∈ s.db.invoices.rows, r.onchainId = i ∧ r.status = .repaid

/-- The settlement of the invoice `i` by the call `k` joins the transaction of the call, with its
further writes `ws`: if the transaction is rolled back nothing has changed, and if it is committed
the settlement and the cursor are both visible. -/
structure Joins {τ : Type} (k : Nat) (i : Int) (ws : List TxWrite) (s s' : Store τ) : Prop where
  rolledBack : s'.txs k = .rolledBack → SameTables s.db s'.db
  committed : s'.txs k = .committed →
    Repaid i s' ∧ ∀ n, cursorAfter ws none = some n → s'.db.syncCursor = some n

/-! ## What goes wrong -/

/-- The actions whose failure makes the body of the transaction throw. -/
def Act.Critical : Act → Prop
  | .settle _ | .findSubscriptions | .onTx _ => True
  | _ => False

section
variable {τ κ O : Type}

/-- The settlement's own transaction has moved the invoice: it was `FUNDED`, and the transaction
took effect. -/
def Moved (i : Int) (s : Store τ) (h : List (Act × Choice κ)) : Prop :=
  (∃ r ∈ s.db.invoices.rows, r.onchainId = i ∧ r.status = .funded) ∧
    ∃ w c, (.settle w, c) ∈ h ∧ c.fault ≠ .failed

/-- No critical action has failed. -/
def Smooth (h : List (Act × Choice κ)) : Prop := ∀ x ∈ h, x.1.Critical → x.2.fault = .none

/-- The commit has been reached, and it has not failed. -/
def Committed (h : List (Act × Choice κ)) : Prop := ∃ c, (.commit, c) ∈ h ∧ c.fault ≠ .failed

theorem smooth_nil : Smooth ([] : List (Act × Choice κ)) := fun _ hx => nomatch hx

theorem smooth_cons {a : Act} {c : Choice κ} {h : List (Act × Choice κ)} :
    Smooth ((a, c) :: h) ↔ (a.Critical → c.fault = .none) ∧ Smooth h := by
  simp [Smooth, or_imp, forall_and]

theorem smooth_append {h h' : List (Act × Choice κ)} :
    Smooth (h ++ h') ↔ Smooth h ∧ Smooth h' := by
  simp [Smooth, or_imp, forall_and]

variable {chain : PoolChain τ κ O} {sha : Sha256} {k : Nat} {s s' : Store τ}
  {h : List (Act × Choice κ)}

/-! ## The body of the transaction -/

/-- The actions of the body: all but those that begin or end a transaction. -/
def Act.InBody : Act → Prop
  | .begin | .commit | .rollback => False
  | _ => True

/-- An action of the body leaves a transaction open. -/
theorem perform_open {a : Act} (ha : a.InBody) (c : Choice κ) (hs : ∃ l, s.txs k = .open l) :
    ∃ l, (perform chain k a c s).2.txs k = .open l := by
  obtain ⟨l, hl⟩ := hs
  by_cases htx : a.OnTx
  · cases a with
    | onTx w =>
      rw [perform]
      split
      · refine (?_ : ∃ l, Function.update s.txs k ((s.txs k).write w) k = .open l)
        rw [Function.update_self, hl]
        cases w with
        | setLastLedger ledger => exact ⟨some ledger, rfl⟩
        | other => exact ⟨l, rfl⟩
      · exact ⟨l, hl⟩
    | begin => exact absurd ha id
    | commit => exact absurd ha id
    | rollback => exact absurd ha id
    | _ => exact absurd htx id
  · exact ⟨l, by rw [perform_txs chain k htx, hl]⟩

/-- The announcement ends with the result of the settlement unless a critical action has failed. -/
theorem announce_reaches {id : DecimalId} {ledger : Nat} {x : SettlementResult}
    {r : Except Error SettlementResult}
    (hr : Async.Reaches (perform chain k) (announce sha id ledger x) s h (.done r) s') :
    (Smooth h → r = .ok x) ∧ (¬ Smooth h → ∃ e, r = .error e) := by
  cases x with
  | alreadyRepaid =>
    obtain ⟨rfl, hq, -⟩ := Async.Reaches.done_inv hr
    cases hq
    exact ⟨fun _ => rfl, fun hs => absurd smooth_nil hs⟩
  | settled =>
    rcases Async.Reaches.await_inv hr with ⟨-, hq, -⟩ | ⟨c, h₁, rfl, hr₁⟩
    · cases hq
    · rcases Async.Reaches.await_inv hr₁ with ⟨-, hq, -⟩ | ⟨c', h₂, rfl, hr₂⟩
      · cases hq
      · rw [smooth_cons, smooth_cons]
        dsimp only [perform, read] at hr₂
        split at hr₂
        · next hc =>
          -- the loop does not throw, and creates deliveries only
          rcases Async.Reaches.bind_inv hr₂ with ⟨p', hq, -, hne⟩ |
            ⟨n, h₃, h₄, s₁, rfl, hloop, hend⟩ | ⟨e, hloop, -⟩
          · cases p' with
            | done y => exact absurd rfl (hne y)
            | await a f => cases hq
          · obtain ⟨rfl, hq, -⟩ := Async.Reaches.done_inv hend
            cases hq
            have hsmooth : Smooth (h₃ ++ []) := by
              intro x hx
              rw [List.append_nil] at hx
              obtain ⟨d, hd⟩ := (Async.Reaches.only (enqueueAll_only _ _ _ _) hloop).1 x hx
              rw [hd]
              exact fun hcrit => False.elim hcrit
            exact ⟨fun _ => rfl, fun hs => absurd ⟨fun hcrit => False.elim hcrit, fun _ => hc,
              hsmooth⟩ hs⟩
          · obtain ⟨m, hm⟩ := (Async.Reaches.only (enqueueAll_only _ _ _ _) hloop).2
            cases hm
        · next hc =>
          obtain ⟨rfl, hq, -⟩ := Async.Reaches.done_inv hr₂
          cases hq
          exact ⟨fun hs => absurd (hs.2.1 trivial) hc, fun _ => ⟨_, rfl⟩⟩

/-- The further writes end unless one of them has failed, and what is written to the cursor is in
the open transaction. -/
theorem writeAll_reaches {ws : List TxWrite} {l : Option Nat} (hl : s.txs k = .open l)
    {r : Except Error Unit}
    (hr : Async.Reaches (perform chain k) (writeAll ws) s h (.done r) s') :
    (Smooth h → r = .ok () ∧ s'.txs k = .open (cursorAfter ws l)) ∧
      (¬ Smooth h → ∃ e, r = .error e) := by
  induction ws generalizing s h l with
  | nil =>
    obtain ⟨rfl, hq, rfl⟩ := Async.Reaches.done_inv hr
    cases hq
    exact ⟨fun _ => ⟨rfl, hl⟩, fun hs => absurd smooth_nil hs⟩
  | cons w ws ih =>
    rcases Async.Reaches.await_inv hr with ⟨-, hq, -⟩ | ⟨c, h₁, rfl, hr₁⟩
    · cases hq
    · rw [smooth_cons]
      dsimp only [perform] at hr₁
      split at hr₁
      · next hc =>
        have hopen : Function.update s.txs k ((s.txs k).write w) k =
            .open (cursorAfter [w] l) := by
          rw [Function.update_self, hl]
          cases w <;> rfl
        obtain ⟨hok, herr⟩ := ih hopen hr₁
        have hcursor : cursorAfter ws (cursorAfter [w] l) = cursorAfter (w :: ws) l := by
          cases w <;> rfl
        rw [hcursor] at hok
        exact ⟨fun hs => hok hs.2, fun hs => herr fun hs' => hs ⟨fun _ => hc, hs'⟩⟩
      · next hc =>
        obtain ⟨rfl, hq, -⟩ := Async.Reaches.done_inv hr₁
        cases hq
        exact ⟨fun hs => absurd (hs.1 trivial) hc, fun _ => ⟨_, rfl⟩⟩

/-- What is left of the body once the settlement's own transaction has answered. -/
def afterSettlement (sha : Sha256) (id : DecimalId) (ledger : Nat) (ws : List TxWrite)
    (x : SettlementResult) : Task SettlementResult := do
  let result ← announce sha id ledger x
  writeAll ws
  pure result

/-- The further writes touch the open transaction only. -/
theorem writeAll_only (ws : List TxWrite) :
    (writeAll ws).Only (fun a => ∃ w, a = .onTx w) fun _ => True := by
  induction ws with
  | nil => trivial
  | cons w ws ih =>
    refine ⟨⟨w, rfl⟩, fun r => ?_⟩
    cases r with
    | error e => trivial
    | ok u => exact ih

/-- What is left of the body ends with the result of the settlement only if no critical action has
failed, and then the cursor is in the open transaction. -/
theorem afterSettlement_ok {id : DecimalId} {ledger : Nat} {ws : List TxWrite}
    {x y : SettlementResult} {l : Option Nat} (hl : s.txs k = .open l)
    (hr : Async.Reaches (perform chain k) (afterSettlement sha id ledger ws x) s h
      (.done (.ok y)) s') : Smooth h ∧ s'.txs k = .open (cursorAfter ws l) := by
  rcases Async.Reaches.bind_inv hr with ⟨p', hq, -, hne⟩ | ⟨z, h₁, h₂, s₁, rfl, hann, hr₁⟩ |
    ⟨e, -, hq⟩
  · cases p' with
    | done z => exact absurd rfl (hne z)
    | await a f => cases hq
  · have hopen : s₁.txs k = .open l := by
      refine Async.Reaches.invariant (I := fun s => s.txs k = .open l)
        (announce_only sha id ledger x) (fun a c s₀ ha hs₀ => ?_) hl hann
      rw [perform_txs chain k ha.not_onTx]
      exact hs₀
    have hsmooth : Smooth h₁ := by
      by_contra hnot
      obtain ⟨e, he⟩ := (announce_reaches hann).2 hnot
      cases he
    rcases Async.Reaches.bind_inv hr₁ with ⟨p', hq, -, hne⟩ | ⟨u, h₃, h₄, s₂, rfl, hw, hend⟩ |
      ⟨e, -, hq⟩
    · cases p' with
      | done z => exact absurd rfl (hne z)
      | await a f => cases hq
    · obtain ⟨rfl, -, rfl⟩ := Async.Reaches.done_inv hend
      obtain ⟨hok, herr⟩ := writeAll_reaches hopen hw
      have hsmooth' : Smooth h₃ := by
        by_contra hnot
        obtain ⟨e, he⟩ := herr hnot
        cases he
      rw [List.append_nil]
      exact ⟨smooth_append.2 ⟨hsmooth, hsmooth'⟩, (hok hsmooth').2⟩
    · cases hq
  · cases hq

/-- A write on the transaction client does not reach the tables before the commit. -/
theorem perform_onTx_db (w : TxWrite) (c : Choice κ) (s : Store τ) :
    (perform chain k (.onTx w) c s).2.db = s.db := by
  rw [perform]
  split <;> rfl

/-- What is left of the body leaves the invoices alone, and, after a settlement that moved nothing,
the other tables too. -/
theorem afterSettlement_tables {id : DecimalId} {ledger : Nat} {ws : List TxWrite}
    {x : SettlementResult} {q : Task SettlementResult}
    (hr : Async.Reaches (perform chain k) (afterSettlement sha id ledger ws x) s h q s') :
    s'.db.invoices = s.db.invoices ∧ (x = .alreadyRepaid → s'.db = s.db) := by
  have hwrites : ∀ y, (do writeAll ws; pure y : Task SettlementResult).Only
      (fun a => ∃ w, a = .onTx w) fun _ => True :=
    fun y => (writeAll_only ws).bind (fun _ _ => trivial) fun _ _ => trivial
  constructor
  · have honly : (afterSettlement sha id ledger ws x).Only Act.Quiet fun _ => True := by
      refine ((announce_only sha id ledger x).mono (fun _ ha => ha.quiet) fun _ h => h).bind
        (fun y _ => (hwrites y).mono ?_ fun _ h => h) fun _ _ => trivial
      rintro _ ⟨w, rfl⟩
      trivial
    refine Async.Reaches.invariant (I := fun s₁ => s₁.db.invoices = s.db.invoices) honly
      (fun a c s₁ ha hs₁ => ?_) rfl hr
    rw [(perform_quiet chain k ha c s₁).invoices]
    exact hs₁
  · rintro rfl
    refine Async.Reaches.invariant (I := fun s₁ => s₁.db = s.db) (hwrites .alreadyRepaid)
      ?_ rfl hr
    rintro _ c s₁ ⟨w, rfl⟩ hs₁
    rw [perform_onTx_db]
    exact hs₁

/-- The actions of the body of a caller's transaction. -/
theorem settleAndWrite_only {id : DecimalId} {ledger : Nat} {txHash : Option String}
    {ws : List TxWrite} :
    (settleAndWrite sha id ledger txHash ws).Only Act.InBody fun _ => True := by
  have hwrites : ∀ y, (do writeAll ws; pure y : Task SettlementResult).Only Act.InBody
      fun _ => True := by
    intro y
    refine ((writeAll_only ws).mono ?_ fun _ h => h).bind (fun _ _ => trivial) fun _ _ => trivial
    rintro _ ⟨w, rfl⟩
    trivial
  refine ⟨trivial, fun r => ?_⟩
  cases r with
  | error e => trivial
  | ok x =>
    refine ((announce_only sha id ledger x).mono (fun a ha => ?_) fun _ h => h).bind
      (fun y _ => hwrites y) fun _ _ => trivial
    cases a <;> first | exact False.elim ha | trivial

/-- What the body of a caller's transaction has done at any point of its runs. -/
structure BodyRun (k : Nat) (i : Int) (ws : List TxWrite) (s s' : Store τ)
    (h : List (Act × Choice κ)) (q : Task SettlementResult) : Prop where
  unmoved : ¬ Moved i s h → SameTables s.db s'.db
  moved : Moved i s h → Repaid i s'
  repaid : ∀ x, q = .done (.ok x) → Repaid i s'
  cursor : ∀ x, q = .done (.ok x) → s'.txs k = .open (cursorAfter ws none)
  smooth : ∀ x, q = .done (.ok x) → Moved i s h → Smooth h

theorem SameTables.refl (db : Db) : SameTables db db := ⟨rfl, rfl, rfl⟩

/-- A body that has thrown has only to say whether its settlement moved the invoice. -/
theorem BodyRun.of_thrown {i : Int} {ws : List TxWrite} {e : Error}
    (hunmoved : ¬ Moved i s h → SameTables s.db s'.db) (hmoved : Moved i s h → Repaid i s') :
    BodyRun k i ws s s' h (.done (.error e)) :=
  ⟨hunmoved, hmoved, nofun, nofun, nofun⟩

/-- The body of a caller's transaction, for an invoice that is `FUNDED`. -/
theorem settleAndWrite_of_funded {id : DecimalId} {ledger : Nat} {txHash : Option String}
    {ws : List TxWrite} {q : Task SettlementResult} {c : Choice κ} (hl : s.txs k = .open none)
    {r : Invoice} (hr : r ∈ s.db.invoices.rows) (hid : r.onchainId = id.onchainId)
    (hst : r.status = .funded)
    (hrun : Async.Reaches (perform chain k)
      ((Async.ofExcept (perform chain k (.settle ⟨id, ledger, txHash⟩) c s).1 : Task _) >>=
        afterSettlement sha id ledger ws)
      (perform chain k (.settle ⟨id, ledger, txHash⟩) c s).2 h q s') :
    BodyRun k id.onchainId ws s s' ((.settle ⟨id, ledger, txHash⟩, c) :: h) q := by
  obtain ⟨s₁, hb⟩ := settle_of_funded k (w := ⟨id, ledger, txHash⟩) c.clock hr hid hst
  have hmoved : c.fault ≠ .failed →
      Moved id.onchainId s ((.settle ⟨id, ledger, txHash⟩, c) :: h) := fun hc =>
    ⟨⟨r, hr, hid, hst⟩, _, c, .head _, hc⟩
  have htxs : s₁.txs = s.txs := by
    rcases settle_eq_ok hb with ⟨-, -, rfl⟩ | ⟨hx, -⟩
    · rfl
    · cases hx
  have hperform : perform chain k (.settle ⟨id, ledger, txHash⟩) c s =
      transact c.fault (Store.settle k ⟨id, ledger, txHash⟩ c.clock) s := rfl
  rw [hperform] at hrun
  unfold transact at hrun
  rw [hb] at hrun
  cases hc : c.fault with
  | none =>
    rw [hc] at hrun hmoved
    have hmoved := hmoved Fault.noConfusion
    obtain ⟨hrows, -⟩ := afterSettlement_tables hrun
    have hrepaid : Repaid id.onchainId s' := by
      rw [Repaid, hrows]
      exact settle_repaid hb
    refine ⟨fun hnot => absurd hmoved hnot, fun _ => hrepaid, fun _ _ => hrepaid, ?_, ?_⟩
    · rintro x rfl
      exact (afterSettlement_ok (by rw [htxs, hl]) hrun).2
    · rintro x rfl -
      exact smooth_cons.2 ⟨fun _ => hc, (afterSettlement_ok (by rw [htxs, hl]) hrun).1⟩
  | failed =>
    rw [hc] at hrun
    obtain ⟨rfl, rfl, rfl⟩ := Async.Reaches.done_inv hrun
    refine .of_thrown (fun _ => .refl _) ?_
    rintro ⟨-, w, c', hmem, hc'⟩
    cases List.mem_singleton.1 hmem
    exact absurd hc hc'
  | lost =>
    rw [hc] at hrun hmoved
    obtain ⟨rfl, rfl, rfl⟩ := Async.Reaches.done_inv hrun
    exact .of_thrown (fun hnot => absurd (hmoved Fault.noConfusion) hnot)
      fun _ => settle_repaid hb

/-- The body of a caller's transaction, for an invoice that is not `FUNDED`: its settlement moves
nothing. -/
theorem settleAndWrite_of_not_funded {id : DecimalId} {ledger : Nat} {txHash : Option String}
    {ws : List TxWrite} {q : Task SettlementResult} {c : Choice κ} (hl : s.txs k = .open none)
    (hnot : ¬ ∃ r ∈ s.db.invoices.rows, r.onchainId = id.onchainId ∧ r.status = .funded)
    (hrun : Async.Reaches (perform chain k)
      ((Async.ofExcept (perform chain k (.settle ⟨id, ledger, txHash⟩) c s).1 : Task _) >>=
        afterSettlement sha id ledger ws)
      (perform chain k (.settle ⟨id, ledger, txHash⟩) c s).2 h q s') :
    BodyRun k id.onchainId ws s s' ((.settle ⟨id, ledger, txHash⟩, c) :: h) q := by
  have hunmoved : ¬ Moved id.onchainId s ((.settle ⟨id, ledger, txHash⟩, c) :: h) :=
    fun hm => hnot hm.1
  have hperform : perform chain k (.settle ⟨id, ledger, txHash⟩) c s =
      transact c.fault (Store.settle k ⟨id, ledger, txHash⟩ c.clock) s := rfl
  rw [hperform] at hrun
  rcases transact_cases c.fault (Store.settle k ⟨id, ledger, txHash⟩ c.clock) s with ⟨e, ht⟩ |
    ⟨x, s₁, hb, -, ht⟩ | ⟨x, s₁, hb, -, ht⟩
  · rw [ht] at hrun
    obtain ⟨rfl, rfl, rfl⟩ := Async.Reaches.done_inv hrun
    exact .of_thrown (fun _ => .refl _) fun hm => absurd hm hunmoved
  · rw [ht] at hrun
    have hrepaid := settle_repaid hb
    rcases settle_eq_ok hb with ⟨-, hfunded, -⟩ | ⟨rfl, rfl, -⟩
    · exact absurd hfunded hnot
    · have hdb := (afterSettlement_tables hrun).2 rfl
      refine ⟨fun _ => ⟨by rw [hdb], by rw [hdb], by rw [hdb]⟩, fun hm => absurd hm hunmoved,
        fun _ _ => ?_, ?_, fun _ _ hm => absurd hm hunmoved⟩
      · rw [Repaid, hdb]
        exact hrepaid
      · rintro x rfl
        exact (afterSettlement_ok hl hrun).2
  · rw [ht] at hrun
    obtain ⟨rfl, rfl, rfl⟩ := Async.Reaches.done_inv hrun
    rcases settle_eq_ok hb with ⟨-, hfunded, -⟩ | ⟨rfl, rfl, -⟩
    · exact absurd hfunded hnot
    · exact .of_thrown (fun _ => .refl _) fun hm => absurd hm hunmoved

/-- The body of a caller's transaction. -/
theorem settleAndWrite_reaches {id : DecimalId} {ledger : Nat} {txHash : Option String}
    {ws : List TxWrite} {q : Task SettlementResult} (hl : s.txs k = .open none)
    (hr : Async.Reaches (perform chain k) (settleAndWrite sha id ledger txHash ws) s h q s') :
    BodyRun k id.onchainId ws s s' h q := by
  rcases Async.Reaches.await_inv hr with ⟨rfl, rfl, rfl⟩ | ⟨c, h₁, rfl, hr₁⟩
  · refine ⟨fun _ => .refl _, ?_, nofun, nofun, nofun⟩
    rintro ⟨-, w, c, hmem, -⟩
    cases hmem
  · have hrun : Async.Reaches (perform chain k)
        ((Async.ofExcept (perform chain k (.settle ⟨id, ledger, txHash⟩) c s).1 : Task _) >>=
          afterSettlement sha id ledger ws)
        (perform chain k (.settle ⟨id, ledger, txHash⟩) c s).2 h₁ q s' := by
      revert hr₁
      cases (perform chain k (.settle ⟨id, ledger, txHash⟩) c s).1 with
      | error e => exact fun hr₁ => hr₁
      | ok x => exact fun hr₁ => hr₁
    by_cases hf : ∃ r ∈ s.db.invoices.rows, r.onchainId = id.onchainId ∧ r.status = .funded
    · obtain ⟨r, hmem, hid, hst⟩ := hf
      exact settleAndWrite_of_funded hl hmem hid hst hrun
    · exact settleAndWrite_of_not_funded hl hf hrun

/-- The body has changed the tables exactly if its settlement has moved the invoice. -/
theorem BodyRun.sameTables_iff {i : Int} {ws : List TxWrite} {q : Task SettlementResult}
    (hb : BodyRun k i ws s s' h q) : SameTables s.db s'.db ↔ ¬ Moved i s h := by
  refine ⟨fun hsame hm => ?_, hb.unmoved⟩
  obtain ⟨r', hr', hid', hst'⟩ := hb.moved hm
  obtain ⟨⟨r, hr, hid, hst⟩, -⟩ := hm
  rw [hsame.invoices] at hr'
  rw [InvoiceTable.eq_of_onchainId hr' hr (hid'.trans hid.symm), hst] at hst'
  cases hst'

/-! ## The transaction -/

/-- A body whose errors roll back is in the body, or has been rolled back and throws. -/
theorem rollback_reaches {α : Type} {body q : Task α}
    (hr : Async.Reaches (perform chain k) (tryCatch body fun e => do act .rollback; throw e)
      s h q s') :
    (∃ q', Async.Reaches (perform chain k) body s h q' s' ∧
      ∀ a, q = .done (.ok a) → q' = .done (.ok a)) ∨
    ∃ q' h₁ c s₁, h = h₁ ++ [(.rollback, c)] ∧ Async.Reaches (perform chain k) body s h₁ q' s₁ ∧
      s' = (perform chain k .rollback c s₁).2 ∧ ∃ e, q = .done (.error e) := by
  rcases Async.Reaches.tryCatch_inv hr with ⟨p', rfl, hbody, hne⟩ | ⟨a, hbody, rfl⟩ |
    ⟨e, h₂, h₃, s₂, rfl, hbody, hroll⟩
  · refine .inl ⟨p', hbody, fun a ha => ?_⟩
    cases p' with
    | done x => exact absurd rfl (hne x)
    | await b f => cases ha
  · exact .inl ⟨_, hbody, fun b hb => hb⟩
  · rcases Async.Reaches.await_inv hroll with ⟨rfl, rfl, rfl⟩ | ⟨c, h₄, rfl, hend⟩
    · rw [List.append_nil]
      exact .inl ⟨_, hbody, fun a ha => by cases ha⟩
    · obtain ⟨rfl, rfl, rfl⟩ := Async.Reaches.done_inv hend
      exact .inr ⟨_, h₂, c, s₂, rfl, hbody, rfl, e, rfl⟩

/-- A commit that has been tried is the last action, whatever its answer. -/
theorem commit_reaches {α : Type} {a : α} {q : Task α}
    (hr : Async.Reaches (perform chain k) (do act .commit; return a) s h q s') :
    (h = [] ∧ s' = s) ∨ ∃ c, h = [(.commit, c)] ∧ s' = (perform chain k .commit c s).2 := by
  rcases Async.Reaches.await_inv hr with ⟨rfl, -, rfl⟩ | ⟨c, h₁, rfl, hend⟩
  · exact .inl ⟨rfl, rfl⟩
  · refine .inr ⟨c, ?_⟩
    cases hx : (perform chain k .commit c s).1 with
    | error e =>
      rw [hx] at hend
      obtain ⟨rfl, -, rfl⟩ := Async.Reaches.done_inv hend
      exact ⟨rfl, rfl⟩
    | ok u =>
      rw [hx] at hend
      obtain ⟨rfl, -, rfl⟩ := Async.Reaches.done_inv hend
      exact ⟨rfl, rfl⟩

/-- A transaction that is open is in its body, or at its end without having come to a commit or a
rollback, or it has been rolled back, or its body has returned and the commit has been tried. -/
theorem inTransaction_reaches {α : Type} {body q : Task α}
    (hr : Async.Reaches (perform chain k) (inTransaction body) s h q s') :
    (∃ q', Async.Reaches (perform chain k) body s h q' s') ∨
    (∃ q' h₁ c s₁, h = h₁ ++ [(.rollback, c)] ∧ Async.Reaches (perform chain k) body s h₁ q' s₁ ∧
      s' = (perform chain k .rollback c s₁).2) ∨
    ∃ a h₁ c s₁, h = h₁ ++ [(.commit, c)] ∧
      Async.Reaches (perform chain k) body s h₁ (.done (.ok a)) s₁ ∧
      s' = (perform chain k .commit c s₁).2 := by
  rcases Async.Reaches.bind_inv hr with ⟨p', -, hbody, -⟩ | ⟨a, h₁, h₂, s₁, rfl, hbody, hcommit⟩ |
    ⟨e, hbody, -⟩
  · rcases rollback_reaches hbody with ⟨q', hq', -⟩ | ⟨q', h₂, c, s₂, hh, hq', hs', -⟩
    · exact .inl ⟨q', hq'⟩
    · exact .inr (.inl ⟨q', h₂, c, s₂, hh, hq', hs'⟩)
  · rcases rollback_reaches hbody with ⟨q', hq', hdone⟩ | ⟨q', h₃, c, s₂, -, -, -, e, he⟩
    · rcases commit_reaches hcommit with ⟨rfl, rfl⟩ | ⟨c, rfl, rfl⟩
      · rw [List.append_nil]
        exact .inl ⟨q', hq'⟩
      · rw [hdone a rfl] at hq'
        exact .inr (.inr ⟨a, h₁, c, s₁, rfl, hq', rfl⟩)
    · cases he
  · rcases rollback_reaches hbody with ⟨q', hq', -⟩ | ⟨q', h₂, c, s₂, hh, hq', hs', -⟩
    · exact .inl ⟨q', hq'⟩
    · exact .inr (.inl ⟨q', h₂, c, s₂, hh, hq', hs'⟩)

/-- A transaction that has not been committed leaves the tables as its statements on other
connections have left them. -/
theorem joins_of_uncommitted {i : Int} {ws : List TxWrite}
    (hs' : (∃ l, s'.txs k = .open l) ∨ s'.txs k = .rolledBack) :
    Joins k i ws s (s'.crash k) ↔ SameTables s.db s'.db := by
  have hcrash : (s'.crash k).txs k = .rolledBack ∧ (s'.crash k).db = s'.db := by
    unfold Store.crash
    rcases hs' with ⟨l, hl⟩ | hl
    · rw [hl]
      exact ⟨Function.update_self .., rfl⟩
    · rw [hl]
      exact ⟨hl, rfl⟩
  constructor
  · intro hj
    obtain ⟨hi, he, hd⟩ := hj.rolledBack hcrash.1
    rw [hcrash.2] at hi he hd
    exact ⟨hi, he, hd⟩
  · rintro ⟨hi, he, hd⟩
    refine ⟨fun _ => ⟨?_, ?_, ?_⟩, fun hc => ?_⟩
    · rw [hcrash.2, hi]
    · rw [hcrash.2, he]
    · rw [hcrash.2, hd]
    · rw [hcrash.1] at hc
      cases hc

/-- A transaction that has been committed joins if the settlement and the cursor are visible. -/
theorem joins_of_committed {i : Int} {ws : List TxWrite} (hs' : s'.txs k = .committed)
    (hrepaid : Repaid i s')
    (hcursor : ∀ n, cursorAfter ws none = some n → s'.db.syncCursor = some n) :
    Joins k i ws s (s'.crash k) := by
  have hcrash : s'.crash k = s' := by
    unfold Store.crash
    rw [hs']
  rw [hcrash]
  refine ⟨fun hx => ?_, fun _ => ⟨hrepaid, hcursor⟩⟩
  rw [hs'] at hx
  cases hx

/-- The writes of a transaction leave a repaid invoice as it is. -/
theorem repaid_apply {i : Int} (tx : Tx) {txs : Nat → Tx} (hrepaid : Repaid i s) :
    Repaid i { s with db := tx.apply s.db, txs := txs } := by
  rw [Repaid, (sameInvoices_apply tx txs s).invoices]
  exact hrepaid

/-- A transaction that has not been begun joins. -/
theorem joins_of_idle {i : Int} {ws : List TxWrite} (hs : s.txs k = .idle) :
    Joins k i ws s (s.crash k) := by
  have hcrash : (s.crash k).txs k = .idle := by
    unfold Store.crash
    rw [hs]
    exact hs
  refine ⟨fun hx => ?_, fun hx => ?_⟩
  · rw [hcrash] at hx
    cases hx
  · rw [hcrash] at hx
    cases hx

/-- While the body of the transaction runs, the transaction is open, no commit has been made, and
the tables are as they were exactly if the settlement has moved no row. -/
theorem settleAndWrite_open {sha : Sha256} {chain : PoolChain τ κ O} {id : DecimalId}
    {ledger : Nat} {txHash : Option String} {ws : List TxWrite} {q : Task SettlementResult}
    {txs : Nat → Tx} (hopen : txs k = .open none)
    (hr : Async.Reaches (perform chain k) (settleAndWrite sha id ledger txHash ws)
      { s with txs := txs } h q s') :
    (∃ l, s'.txs k = .open l) ∧ (∀ c, (.commit, c) ∉ h) ∧
      (SameTables s.db s'.db ↔ ¬ Moved id.onchainId s h) := by
  refine ⟨?_, fun c hc => ?_, (settleAndWrite_reaches hopen hr).sameTables_iff⟩
  · exact Async.Reaches.invariant (I := fun s => ∃ l, s.txs k = .open l) settleAndWrite_only
      (fun a c s ha hs => perform_open ha c hs) ⟨none, hopen⟩ hr
  · exact (Async.Reaches.only settleAndWrite_only hr).1 _ hc

/-- Actions that are neither critical nor a settlement or a commit do not matter to the
condition. -/
theorem moved_append {i : Int} {a : Act} {c : Choice κ} (ha : ∀ w, a ≠ .settle w) :
    Moved i s (h ++ [(a, c)]) ↔ Moved i s h := by
  have hmem : ∀ w c', (Act.settle w, c') ∈ h ++ [(a, c)] ↔ (.settle w, c') ∈ h := by
    intro w c'
    rw [List.mem_append, List.mem_singleton]
    refine ⟨fun hor => hor.resolve_right fun heq => ?_, .inl⟩
    exact ha w (congrArg Prod.fst heq).symm
  simp only [Moved, hmem]

theorem moved_begin {i : Int} {c : Choice κ} : Moved i s ((.begin, c) :: h) ↔ Moved i s h := by
  simp [Moved]

/-- In a run that has not come to its commit the settlement must not have moved the invoice. -/
theorem uncommitted_iff {i : Int} (h₁ : List (Act × Choice κ))
    (hcommit : ∀ c, (.commit, c) ∈ h₁ → c.fault = .failed) :
    (Moved i s h → Smooth h₁ ∧ Committed h₁) ↔ ¬ Moved i s h := by
  refine ⟨fun himp hm => ?_, fun hnot hm => absurd hm hnot⟩
  obtain ⟨-, c, hc, hne⟩ := himp hm
  exact hne (hcommit c hc)

/-- Where the body has returned and the commit has been tried, the settlement joins the transaction
unless it has moved the invoice and the commit has failed. -/
theorem joins_committing_iff {sha : Sha256} {chain : PoolChain τ κ O} {id : DecimalId}
    {ledger : Nat} {txHash : Option String} {ws : List TxWrite} {x : SettlementResult}
    {txs : Nat → Tx} (hopen : txs k = .open none)
    (hbody : Async.Reaches (perform chain k) (settleAndWrite sha id ledger txHash ws)
      { s with txs := txs } h (.done (.ok x)) s') (c c' : Choice κ) :
    Joins k id.onchainId ws s ((perform chain k .commit c' s').2.crash k) ↔
      (Moved id.onchainId s ((.begin, c) :: (h ++ [(.commit, c')])) →
        Smooth ((.begin, c) :: (h ++ [(.commit, c')])) ∧
          Committed ((.begin, c) :: (h ++ [(.commit, c')]))) := by
  have hrun := settleAndWrite_reaches hopen hbody
  obtain ⟨hl, hno, hsame⟩ := settleAndWrite_open hopen hbody
  dsimp only [perform]
  split
  · next hc =>
    rw [joins_of_uncommitted (.inr (Function.update_self ..)), moved_begin,
      moved_append (by simp), uncommitted_iff]
    · exact hsame
    · intro c'' hc''
      simp only [List.mem_cons, Prod.mk.injEq, List.mem_append, List.not_mem_nil,
        or_false, reduceCtorEq, false_and, false_or] at hc''
      rcases hc'' with hc'' | ⟨-, rfl⟩
      · exact absurd hc'' (hno c'')
      · exact hc
  · next hc =>
    have hcursor := hrun.cursor x rfl
    refine iff_of_true (joins_of_committed (Function.update_self ..) ?_ fun n hn => ?_)
      fun hm => ⟨?_, c', ?_, hc⟩
    · rw [hcursor]
      exact repaid_apply _ (hrun.repaid x rfl)
    · rw [hcursor, hn]
      rfl
    · rw [moved_begin, moved_append (by simp)] at hm
      exact smooth_cons.2 ⟨fun hcrit => False.elim hcrit, smooth_append.2
        ⟨hrun.smooth x rfl hm, smooth_cons.2 ⟨fun hcrit => False.elim hcrit, smooth_nil⟩⟩⟩
    · exact List.mem_cons_of_mem _ (List.mem_append_right _ (.head _))

end

/-- **When a settlement joins its caller's transaction.** At every point of every run of a caller
that settles an invoice and writes on in its transaction, where the process may stop: the settlement
joins the transaction exactly if it has moved no row, or if nothing has gone wrong since: its own
answer, the query for the subscriptions and the further writes have not failed, and the commit has
been reached and not failed. -/
theorem settlement_joins_iff {τ κ O : Type} (sha : Sha256) (chain : PoolChain τ κ O) {k : Nat}
    (id : DecimalId) (ledger : Nat) (txHash : Option String) (ws : List TxWrite) {s s' : Store τ}
    {h : List (Act × Choice κ)} {q : Task SettlementResult} (hidle : s.txs k = .idle)
    (hr : Async.Reaches (perform chain k) (callerTransaction sha id ledger txHash ws) s h q s') :
    Joins k id.onchainId ws s (s'.crash k) ↔
      (Moved id.onchainId s h → Smooth h ∧ Committed h) := by
  rcases Async.Reaches.await_inv hr with ⟨rfl, -, rfl⟩ | ⟨c, h₁, rfl, hr₁⟩
  · refine iff_of_true (joins_of_idle hidle) ?_
    rintro ⟨-, w, c, hmem, -⟩
    cases hmem
  · dsimp only [perform] at hr₁
    split at hr₁
    · -- the transaction is open
      have hopen : Function.update s.txs k (.open none) k = .open none := Function.update_self ..
      rcases inTransaction_reaches hr₁ with ⟨q', hbody⟩ | ⟨q', h₂, c', s₂, rfl, hbody, rfl⟩ |
        ⟨x, h₂, c', s₂, rfl, hbody, rfl⟩
      · obtain ⟨hl, hno, hsame⟩ := settleAndWrite_open hopen hbody
        rw [joins_of_uncommitted (.inl hl), hsame, moved_begin,
          uncommitted_iff _ fun c hc => absurd hc (by simpa using hno c)]
      · obtain ⟨-, hno, hsame⟩ := settleAndWrite_open hopen hbody
        rw [joins_of_uncommitted (.inr (Function.update_self ..)), moved_begin,
          moved_append (by simp), uncommitted_iff _ fun c hc => absurd hc (by simpa using hno c)]
        exact hsame
      · exact joins_committing_iff hopen hbody c c'
    · obtain ⟨rfl, -, rfl⟩ := Async.Reaches.done_inv hr₁
      refine iff_of_true (joins_of_idle hidle) ?_
      rintro ⟨-, w, c, hmem, -⟩
      cases List.mem_singleton.1 hmem

/-- A settlement of a funded invoice together with the cursor, in which nothing goes wrong. -/
theorem settlement_joins_smooth :
    ∃ s' : Store Network,
      Async.Reaches (perform network 0) (applyEventAtomically plainSha256 ⟨"7", rfl⟩ 20 20 none)
        (.opening (oneFunded [])) [(.begin, smooth), (.settle ⟨⟨"7", rfl⟩, 20, none⟩, smooth),
          (.now, smooth), (.findSubscriptions, smooth), (.onTx (.setLastLedger 20), smooth),
          (.commit, smooth)] (.done (.ok .settled)) s' ∧
      Joins 0 7 [.setLastLedger 20] (.opening (oneFunded [])) (s'.crash 0) := by
  have hrun : Async.Reaches (perform network 0)
      (applyEventAtomically plainSha256 ⟨"7", rfl⟩ 20 20 none) (.opening (oneFunded []))
      [(.begin, smooth), (.settle ⟨⟨"7", rfl⟩, 20, none⟩, smooth), (.now, smooth),
        (.findSubscriptions, smooth), (.onTx (.setLastLedger 20), smooth), (.commit, smooth)]
      (.done (.ok .settled)) _ :=
    .await smooth (.await smooth (.await smooth (.await smooth (.await smooth
      (.await smooth (.refl _ _))))))
  refine ⟨_, hrun, (settlement_joins_iff plainSha256 network ⟨"7", rfl⟩ 20 none
    [.setLastLedger 20] rfl hrun).2 fun _ => ⟨fun x hx _ => ?_, smooth, ?_, Fault.noConfusion⟩⟩
  · simp only [List.mem_cons, List.not_mem_nil, or_false] at hx
    rcases hx with rfl | rfl | rfl | rfl | rfl | rfl <;> rfl
  · simp

/-- The settlement goes through and the write of the cursor fails: the caller's transaction is
rolled back, and the invoice stays `REPAID`. -/
theorem settlement_not_joining :
    ∃ s' : Store Network,
      Async.Reaches (perform network 0) (applyEventAtomically plainSha256 ⟨"7", rfl⟩ 20 20 none)
        (.opening (oneFunded [])) [(.begin, smooth), (.settle ⟨⟨"7", rfl⟩, 20, none⟩, smooth),
          (.now, smooth), (.findSubscriptions, smooth), (.onTx (.setLastLedger 20), failing),
          (.rollback, smooth)] (.done (.error connectionLost)) s' ∧
      s'.txs 0 = .rolledBack ∧ Repaid 7 s' ∧
      ¬ Joins 0 7 [.setLastLedger 20] (.opening (oneFunded [])) (s'.crash 0) := by
  refine ⟨_, .await smooth (.await smooth (.await smooth (.await smooth (.await failing
    (.await smooth (.refl _ _)))))), rfl, ⟨_, .head _, rfl, rfl⟩, fun hj => ?_⟩
  have hrows := (hj.rolledBack rfl).invoices
  have hstatus := congrArg (fun t => t.rows.map Invoice.status) hrows
  exact absurd hstatus (by decide)

end Backend

end InvoiceFi
