import InvoiceFi.Backend.Services.Mirror

/-!
# The announcement of a settlement

The call that settles an invoice announces it after its own transaction has been committed, in
statements of their own. A later call finds the invoice `REPAID` and announces nothing, so whatever
the settling call has missed is missed for good.

The proof follows the settling call from its transaction to the end of its loop (`AnnounceAt`): up
to the loop there is no announcement of the invoice, in the loop a listening subscription has one or
is still to come, and after it has exactly one. Only the settling call writes announcements of its
invoice (`Enqueues`), so the steps of the others keep what is said of it. `announced_once` puts
this together for the runs in which nothing goes wrong in between (`Undisturbed`).
-/

namespace InvoiceFi

namespace Backend

/-! ## Keys -/

/-- The idempotency key of an event determines its invoice, for an id of digits and a hash without
collisions. -/
theorem invoiceId_of_key {sha : Sha256} (hsha : Function.Injective sha.digest) {e e' : WebhookEvent}
    (h : isPositiveIntString e.invoiceId = true) (h' : isPositiveIntString e'.invoiceId = true)
    (hkey : buildIdempotencyKey sha e = buildIdempotencyKey sha e') :
    e.invoiceId = e'.invoiceId := by
  -- the id is the part of the hashed text before its first colon
  have hlead : ∀ {x : WebhookEvent}, isPositiveIntString x.invoiceId = true →
      (x.invoiceId ++ ":" ++ x.event ++ ":" ++ toISOString x.timestamp).toList.takeWhile
        Char.isDigit = x.invoiceId.toList := by
    intro x hx
    have hdigits : ∀ c ∈ x.invoiceId.toList, c.isDigit = true := by
      simp only [isPositiveIntString, Bool.and_eq_true, List.all_eq_true] at hx
      exact hx.1.2
    simp only [String.toList_append, List.append_assoc]
    rw [List.takeWhile_append_of_pos hdigits]
    simp
  have heq := hsha hkey
  have hlist := congrArg (fun text => text.toList.takeWhile Char.isDigit) heq
  rw [hlead h, hlead h'] at hlist
  exact String.toList_inj.1 hlist

/-! ## Announcements -/

/-- The delivery is a `repaid` announcement of the invoice `i`. -/
def WebhookDelivery.announces (i : Int) (d : WebhookDelivery) : Bool :=
  decide (d.eventType = "repaid" ∧ decimalValue d.payload.invoiceId = i)

/-- The announcements of the invoice `i` for the subscription `w`. -/
def Db.announcements (db : Db) (w : String) (i : Int) : List WebhookDelivery :=
  db.deliveries.filter fun d => decide (d.subscriptionId = w) && d.announces i

/-- The delivery is one that the dispatch service enqueues. -/
structure WebhookDelivery.Enqueued (sha : Sha256) (d : WebhookDelivery) : Prop where
  digits : isPositiveIntString d.payload.invoiceId = true
  event : d.payload.event = "repaid"
  eventType : d.eventType = "repaid"
  key : d.idempotencyKey = buildIdempotencyKey sha d.payload

section
variable {τ κ O : Type}

/-- The subscription `w` is active and interested. -/
def Listening (w : String) (s : Store τ) : Prop :=
  ∃ sub ∈ s.db.subscriptions, sub.id = w ∧ sub.active = true ∧ sub.interested "repaid" = true

/-- The subscription `w` has exactly one announcement of the invoice `i`. -/
def Announced (w : String) (i : Int) (s : Store τ) : Prop := (s.db.announcements w i).length = 1

/-- Nobody has an announcement of the invoice `i`. -/
def Unannounced (i : Int) (s : Store τ) : Prop := ∀ d ∈ s.db.deliveries, d.announces i = false

/-- The announcements of the invoice are kept: none is added, and those of the subscription are the
same. -/
structure Keeps (w : String) (i : Int) (s s' : Store τ) : Prop where
  old : ∀ d ∈ s'.db.deliveries, d.announces i = true → d ∈ s.db.deliveries
  same : s'.db.announcements w i = s.db.announcements w i

theorem Keeps.of_deliveries {w : String} {i : Int} {s s' : Store τ}
    (h : s'.db.deliveries = s.db.deliveries) : Keeps w i s s' := by
  refine ⟨fun d hd _ => by rw [← h]; exact hd, ?_⟩
  rw [Db.announcements, h, Db.announcements]

theorem Keeps.of_append {w : String} {i : Int} {s s' : Store τ} {d : WebhookDelivery}
    (h : s'.db.deliveries = s.db.deliveries ++ [d]) (hd : d.announces i = false) :
    Keeps w i s s' := by
  refine ⟨fun d' hd' hann => ?_, ?_⟩
  · rw [h] at hd'
    rcases List.mem_append.1 hd' with hd' | hd'
    · exact hd'
    · rw [List.mem_singleton.1 hd', hd] at hann
      cases hann
  · rw [Db.announcements, h, List.filter_append, Db.announcements]
    simp [hd]

/-- What a step of the call `k` may do to the deliveries and to the memory of who settled what:
nothing, enqueue a delivery for an invoice that it has settled, or settle an invoice that nobody
has settled. -/
inductive Enqueues (sha : Sha256) (k : Nat) (s s' : Store τ) : Prop
  | quiet (deliveries : s'.db.deliveries = s.db.deliveries) (settledBy : s'.settledBy = s.settledBy)
  | enqueued (d : WebhookDelivery) (wellFormed : d.Enqueued sha)
      (mine : s.settledBy (decimalValue d.payload.invoiceId) = some k)
      (deliveries : s'.db.deliveries = s.db.deliveries ++ [d])
      (settledBy : s'.settledBy = s.settledBy)
  | settled (i : Int) (fresh : s.settledBy i = none)
      (deliveries : s'.db.deliveries = s.db.deliveries)
      (settledBy : s'.settledBy = Function.update s.settledBy i (some k))

/-- The invariant of the state: every delivery is one that the service enqueues, and an invoice that
nobody has settled is announced to nobody. -/
structure AnnounceInv (sha : Sha256) (i : Int) (s : Store τ) : Prop where
  keys : ∀ d ∈ s.db.deliveries, d.Enqueued sha
  fresh : s.settledBy i = none → Unannounced i s

variable {sha : Sha256} {w : String} {i : Int} {k : Nat} {s s' : Store τ}

theorem Enqueues.inv (h : Enqueues sha k s s') (hinv : AnnounceInv sha i s) :
    AnnounceInv sha i s' := by
  cases h with
  | quiet hd hs =>
    refine ⟨?_, ?_⟩
    · rw [hd]
      exact hinv.keys
    · rw [hs, Unannounced, hd]
      exact hinv.fresh
  | enqueued d hwf hmine hd hs =>
    refine ⟨fun d' hd' => ?_, fun hnone d' hd' => ?_⟩
    · rw [hd] at hd'
      rcases List.mem_append.1 hd' with hd' | hd'
      · exact hinv.keys d' hd'
      · rw [List.mem_singleton.1 hd']
        exact hwf
    · rw [hs] at hnone
      rw [hd] at hd'
      rcases List.mem_append.1 hd' with hd' | hd'
      · exact hinv.fresh hnone d' hd'
      · rw [List.mem_singleton.1 hd']
        refine decide_eq_false fun hann => ?_
        rw [hann.2, hnone] at hmine
        cases hmine
  | settled i' hfresh hd hs =>
    refine ⟨?_, fun hnone => ?_⟩
    · rw [hd]
      exact hinv.keys
    · rw [Unannounced, hd]
      refine hinv.fresh ?_
      rw [hs] at hnone
      rcases eq_or_ne i i' with rfl | hne
      · exact hfresh
      · rw [Function.update_of_ne hne] at hnone
        exact hnone

/-- A step of a call that has not settled the invoice keeps its announcements. -/
theorem Enqueues.keeps (h : Enqueues sha k s s') (hk : s.settledBy i ≠ some k) :
    Keeps w i s s' := by
  cases h with
  | quiet hd => exact .of_deliveries hd
  | settled _ _ hd => exact .of_deliveries hd
  | enqueued d hwf hmine hd =>
    have hother : d.announces i = false := by
      refine decide_eq_false fun hann => hk ?_
      rw [← hann.2]
      exact hmine
    exact .of_append hd hother

/-- Who has settled an invoice stays so. -/
theorem Enqueues.settledBy (h : Enqueues sha k s s') {i : Int} {j : Nat}
    (hj : s.settledBy i = some j) : s'.settledBy i = some j := by
  cases h with
  | quiet _ hs => rw [hs]; exact hj
  | enqueued _ _ _ _ hs => rw [hs]; exact hj
  | settled i' hfresh _ hs =>
    have hne : i ≠ i' := by
      rintro rfl
      rw [hfresh] at hj
      cases hj
    rw [hs]
    exact (Function.update_of_ne hne _ _).trans hj

/-- Nobody becomes the one who has settled an invoice by a step of another call. -/
theorem Enqueues.not_settledBy (h : Enqueues sha k s s') {i : Int} {j : Nat} (hjk : j ≠ k)
    (hj : s.settledBy i ≠ some j) : s'.settledBy i ≠ some j := by
  cases h with
  | quiet _ hs => rw [hs]; exact hj
  | enqueued _ _ _ _ hs => rw [hs]; exact hj
  | settled i' _ _ hs =>
    rw [hs]
    rcases eq_or_ne i i' with rfl | hne
    · rw [Function.update_self]
      exact fun heq => hjk (Option.some.inj heq).symm
    · rw [Function.update_of_ne hne]
      exact hj

/-- A step as the other calls see it: what it enqueues, and that an announcement that has been made
is not made again. -/
structure AnnounceStep (sha : Sha256) (w : String) (i : Int) (k : Nat) (s s' : Store τ) :
    Prop where
  enqueues : Enqueues sha k s s'
  announced : Announced w i s → Announced w i s'

theorem Announced.of_deliveries (h : s'.db.deliveries = s.db.deliveries)
    (hann : Announced w i s) : Announced w i s' := by
  rw [Announced, (Keeps.of_deliveries (w := w) (i := i) h).same]
  exact hann

/-- A step that leaves the deliveries and the memory alone. -/
theorem AnnounceStep.quiet (hd : s'.db.deliveries = s.db.deliveries)
    (hs : s'.settledBy = s.settledBy) : AnnounceStep sha w i k s s' :=
  ⟨.quiet hd hs, .of_deliveries hd⟩

/-! ## The loop -/

/-- In the loop over the subscriptions `ids`: the announcements of the invoice are those of the
loop, and the subscription `w` is still to come and has none, or it has one. -/
structure LoopInv (w : String) (i : Int) (key : String) (ids : List String) (s : Store τ) :
    Prop where
  keys : ∀ d ∈ s.db.deliveries, d.announces i = true → d.idempotencyKey = key
  coming : (w ∈ ids ∧ s.db.announcements w i = []) ∨ Announced w i s

/-- An announcement that is enqueued is one more for its subscription. -/
theorem announcements_append {db : Db} {d : WebhookDelivery} (hd : d.announces i = true) :
    ({ db with deliveries := db.deliveries ++ [d] } : Db).announcements w i =
      db.announcements w i ++ if d.subscriptionId = w then [d] else [] := by
  rw [Db.announcements, List.filter_append, Db.announcements]
  by_cases h : d.subscriptionId = w <;> simp [h, hd]

/-- In a loop whose announcements have the key of `d`, the delivery `d` is not enqueued for a
subscription that has one of them. -/
theorem LoopInv.not_announced {d : WebhookDelivery} {ids : List String}
    (h : LoopInv w i d.idempotencyKey ids s)
    (hunique : ∀ d' ∈ s.db.deliveries,
      ¬ (d'.subscriptionId = d.subscriptionId ∧ d'.idempotencyKey = d.idempotencyKey))
    (hann : Announced w i s) : d.subscriptionId ≠ w := by
  rintro rfl
  obtain ⟨d', hd'⟩ := List.exists_mem_of_length_pos (hann.symm ▸ Nat.one_pos :
    0 < (s.db.announcements d.subscriptionId i).length)
  obtain ⟨hmem, hp⟩ := List.mem_filter.1 hd'
  rw [Bool.and_eq_true, decide_eq_true_eq] at hp
  exact hunique d' hmem ⟨hp.1, h.keys d' hmem hp.2⟩

/-- The delivery `d` can be enqueued for a subscription that is listening and has no announcement of
the invoice. -/
theorem createDelivery_of_unannounced (hsha : Function.Injective sha.digest) {d : WebhookDelivery}
    (hinv : AnnounceInv sha i s) (hlisten : Listening d.subscriptionId s) (hwf : d.Enqueued sha)
    (hann : d.announces i = true)
    (hnone : s.db.announcements d.subscriptionId i = []) :
    ∃ db, createDelivery d s.db = .ok ((), db) := by
  obtain ⟨sub, hsub, hid, -⟩ := hlisten
  refine ⟨_, createDelivery_eq_ok.2 ⟨?_, ?_, rfl⟩⟩
  · rw [← hid]
    exact List.mem_map_of_mem hsub
  · -- a delivery with this key would be an announcement of the invoice
    rintro d' hd' ⟨hsame, hkey⟩
    have hwf' := hinv.keys d' hd'
    rw [hwf'.key, hwf.key] at hkey
    have hinvoice := invoiceId_of_key hsha hwf'.digits hwf.digits hkey
    have hann' : d'.announces i = true := by
      refine decide_eq_true ⟨hwf'.eventType, ?_⟩
      rw [hinvoice]
      exact (of_decide_eq_true hann).2
    have hmem : d' ∈ s.db.announcements d.subscriptionId i :=
      List.mem_filter.2 ⟨hd', by rw [hsame, hann']; simp⟩
    rw [hnone] at hmem
    cases hmem

/-- One pass through the loop, for a delivery of the invoice. -/
theorem LoopInv.step (hsha : Function.Injective sha.digest) (chain : PoolChain τ κ O) (k : Nat)
    (c : Choice κ) {d : WebhookDelivery} {ids : List String} (hinv : AnnounceInv sha i s)
    (hlisten : Listening w s) (hwf : d.Enqueued sha) (hann : d.announces i = true)
    (hfault : d.subscriptionId = w → c.fault ≠ .failed)
    (h : LoopInv w i d.idempotencyKey (d.subscriptionId :: ids) s) :
    LoopInv w i d.idempotencyKey ids (perform chain k (.createDelivery d) c s).2 ∧
      (Announced w i s → Announced w i (perform chain k (.createDelivery d) c s).2) := by
  -- what holds if the delivery is not enqueued
  have hskip : (s.db.announcements w i = [] → d.subscriptionId ≠ w) →
      LoopInv w i d.idempotencyKey ids s := by
    intro hne
    refine ⟨h.keys, ?_⟩
    rcases h.coming with ⟨hmem, hnone⟩ | hdone
    · rcases List.mem_cons.1 hmem with rfl | hmem
      · exact absurd rfl (hne hnone)
      · exact .inl ⟨hmem, hnone⟩
    · exact .inr hdone
  rw [perform]
  cases hb : createDelivery d s.db with
  | error e =>
    have hbody : Store.onDb (createDelivery d) s = .error e := by rw [Store.onDb, hb]; rfl
    rw [transact_of_error hbody]
    refine ⟨hskip ?_, fun hdone => hdone⟩
    rintro hnone rfl
    obtain ⟨db, hok⟩ := createDelivery_of_unannounced hsha hinv hlisten hwf hann hnone
    rw [hb] at hok
    cases hok
  | ok p =>
    obtain ⟨u, db⟩ := p
    obtain ⟨-, hunique, rfl⟩ := createDelivery_eq_ok.1 hb
    rw [transact_of_ok (onDb_eq_ok.2 ⟨_, hb, rfl⟩)]
    split
    · next hc => exact ⟨hskip fun _ heq => hfault heq hc, fun hdone => hdone⟩
    · have hdone' : Announced w i s → Announced w i
          { s with db := { s.db with deliveries := s.db.deliveries ++ [d] } } := by
        intro hdone
        have hne := h.not_announced hunique hdone
        rw [Announced, announcements_append hann, if_neg hne, List.append_nil]
        exact hdone
      refine ⟨⟨fun d' hd' hann' => ?_, ?_⟩, hdone'⟩
      · rcases List.mem_append.1 hd' with hd' | hd'
        · exact h.keys d' hd' hann'
        · rw [List.mem_singleton.1 hd']
      · rcases h.coming with ⟨hmem, hnone⟩ | hdone
        · by_cases hw : d.subscriptionId = w
          · refine .inr ?_
            rw [Announced, announcements_append hann, if_pos hw, hnone]
            rfl
          · refine .inl ⟨(List.mem_cons.1 hmem).resolve_left fun heq => hw heq.symm, ?_⟩
            rw [announcements_append hann, if_neg hw, hnone]
            rfl
        · exact .inr (hdone' hdone)

/-! ## Where a call stands -/

/-- A settlement call that is about to look up the subscriptions. -/
def dispatching (sha : Sha256) (e : WebhookEvent) : Task Reply := do
  let result ← inTransaction (do
    let _ ← dispatchInvoiceEvent sha e
    pure SettlementResult.settled)
  pure (.settlement result)

/-- A settlement call in the loop over the subscriptions. -/
def looping (e : WebhookEvent) (key : String) (rest : List WebhookSubscription) (n : Nat) :
    Task Reply := do
  let result ← inTransaction (do
    let _ ← enqueueAll e key rest n
    pure SettlementResult.settled)
  pure (.settlement result)

/-- A settlement call before its commit. -/
def committing (x : SettlementResult) : Task Reply := do
  let result ← inTransaction (pure x)
  pure (.settlement result)

/-- A settlement call before its rollback. -/
def throwing (e : Error) : Task Reply := do
  let result ← inTransaction (throw e)
  pure (.settlement result)

/-- The event by which an invoice is announced. -/
structure EventOf (id : DecimalId) (e : WebhookEvent) : Prop where
  invoiceId : e.invoiceId = id.text
  event : e.event = "repaid"

/-- Where a settlement call stands: before its own transaction; as the one that has settled the
invoice, before the clock is read, before the subscriptions are looked up, and in the loop; and then
before its commit or its rollback, and at its end. -/
inductive AnnounceAt (sha : Sha256) (w : String) (i : Int) (j : Nat) (id : DecimalId) (ledger : Nat)
    (txHash : Option String) (q : Task Reply) (s : Store τ) : Prop
  | before (point : q = BackendCall.task sha (.settle id ledger txHash) ∨
        q = settling sha id ledger txHash) (other : s.settledBy id.onchainId ≠ some j)
  | announcing (point : q = closing sha id ledger .settled)
      (mine : s.settledBy id.onchainId = some j) (none : id.onchainId = i → Unannounced i s)
  | dispatching (e : WebhookEvent) (event : EventOf id e) (point : q = dispatching sha e)
      (mine : s.settledBy id.onchainId = some j) (none : id.onchainId = i → Unannounced i s)
  | looping (e : WebhookEvent) (rest : List WebhookSubscription) (n : Nat) (event : EventOf id e)
      (point : q = looping e (buildIdempotencyKey sha e) rest n)
      (mine : s.settledBy id.onchainId = some j)
      (loop : id.onchainId = i →
        LoopInv w i (buildIdempotencyKey sha e) (rest.map WebhookSubscription.id) s)
  | committing (x : SettlementResult) (point : q = committing x)
      (done : id.onchainId = i → s.settledBy i = some j → Announced w i s)
      (settled : id.onchainId = i → s.settledBy i ≠ none)
  | throwing (e : Error) (point : q = throwing e)
      (done : id.onchainId = i → s.settledBy i = some j → Announced w i s)
  | ended (r : Except Error Reply) (point : q = .done r)
      (done : id.onchainId = i → s.settledBy i = some j → Announced w i s)
      (ok : ∀ y, r = .ok y → id.onchainId = i → Announced w i s)

/-- What a step of another call, or of the outside, keeps for the call `j`. -/
structure Other (w : String) (i : Int) (j : Nat) (s s' : Store τ) : Prop where
  settled : ∀ x, s.settledBy x = some j → s'.settledBy x = some j
  not_settled : ∀ x, s.settledBy x ≠ some j → s'.settledBy x ≠ some j
  remembered : s.settledBy i ≠ none → s'.settledBy i ≠ none
  keeps : s.settledBy i = some j → Keeps w i s s'
  announced : Announced w i s → Announced w i s'

theorem Other.of_step {j : Nat} (hjk : j ≠ k) (h : AnnounceStep sha w i k s s') :
    Other w i j s s' := by
  refine ⟨fun x hx => h.enqueues.settledBy hx, fun x hx => h.enqueues.not_settledBy hjk hx,
    fun hne => ?_, fun hj => h.enqueues.keeps ?_, h.announced⟩
  · obtain ⟨j', hj'⟩ := Option.ne_none_iff_exists'.1 hne
    rw [h.enqueues.settledBy hj']
    exact Option.some_ne_none _
  · rw [hj]
    exact fun heq => hjk (Option.some.inj heq)

theorem Unannounced.keeps (h : Unannounced i s) (hk : Keeps w i s s') : Unannounced i s' := by
  intro d hd
  by_contra hann
  rw [Bool.not_eq_false] at hann
  have hold := h d (hk.old d hd hann)
  rw [hann] at hold
  cases hold

theorem LoopInv.keeps {key : String} {ids : List String} (h : LoopInv w i key ids s)
    (hk : Keeps w i s s') : LoopInv w i key ids s' := by
  refine ⟨fun d hd hann => h.keys d (hk.old d hd hann) hann, ?_⟩
  rw [Announced, hk.same]
  exact h.coming

/-- The assertion of a call survives the steps of the others. -/
theorem AnnounceAt.stable {j : Nat} {id : DecimalId} {ledger : Nat} {txHash : Option String}
    {q : Task Reply} (ho : Other w i j s s') (h : AnnounceAt sha w i j id ledger txHash q s) :
    AnnounceAt sha w i j id ledger txHash q s' := by
  -- what is said of the settling call itself
  have hdone : (id.onchainId = i → s.settledBy i = some j → Announced w i s) →
      id.onchainId = i → s'.settledBy i = some j → Announced w i s' := by
    intro hold hid hj
    refine ho.announced (hold hid ?_)
    by_contra hne
    exact ho.not_settled i hne hj
  cases h with
  | before point other => exact .before point (ho.not_settled _ other)
  | announcing point mine none =>
    refine .announcing point (ho.settled _ mine) fun hid => ?_
    exact (none hid).keeps (ho.keeps (hid ▸ mine))
  | dispatching e event point mine none =>
    refine .dispatching e event point (ho.settled _ mine) fun hid => ?_
    exact (none hid).keeps (ho.keeps (hid ▸ mine))
  | looping e rest n event point mine loop =>
    refine .looping e rest n event point (ho.settled _ mine) fun hid => ?_
    exact (loop hid).keeps (ho.keeps (hid ▸ mine))
  | committing x point done settled =>
    exact .committing x point (hdone done) fun hid => ho.remembered (settled hid)
  | throwing e point done => exact .throwing e point (hdone done)
  | ended r point done ok =>
    exact .ended r point (hdone done) fun y hy hid => ho.announced (ok y hy hid)

/-! ## The steps of a call -/

/-- Nothing goes wrong in a step of a settlement call of the invoice, as far as the subscription `w`
is concerned: the answer of a settlement that moves the invoice does not get lost, the look-up of
the subscriptions does not fail, and neither does the statement that enqueues the delivery. -/
def Harmless (w : String) (i : Int) (s : Store τ) : Act → Choice κ → Prop
  | .settle _, c => c.fault = .lost →
    ∀ r ∈ s.db.invoices.rows, r.onchainId = i → r.status ≠ .funded
  | .findSubscriptions, c => c.fault = .none
  | .createDelivery d, c => d.subscriptionId = w → c.fault ≠ .failed
  | _, _ => True

variable {chain : PoolChain τ κ O} {j : Nat} {id : DecimalId} {ledger : Nat}
  {txHash : Option String} {c : Choice κ}

/-- A quiet step that enqueues nothing. -/
theorem announceStep_quiet {a : Act} (ha : a.Quiet) (hd : ∀ d, a ≠ .createDelivery d) :
    AnnounceStep sha w i k s (perform chain k a c s).2 :=
  .quiet (perform_deliveries chain k hd c s) (perform_quiet chain k ha c s).settledBy

/-- Before the commit: a call returns if its commit succeeds, and then the invoice has been
announced. -/
theorem announceStep_commit {x : SettlementResult} {a : Act}
    {f : Except Error a.Answer → Task Reply} (hpoint : Async.await a f = committing x)
    (hdone : id.onchainId = i → s.settledBy i = some j → Announced w i s)
    (hcommit : a = .commit → c.fault = .none → id.onchainId = i → Announced w i s) :
    AnnounceStep sha w i j s (perform chain j a c s).2 ∧
      AnnounceAt sha w i j id ledger txHash (f (perform chain j a c s).1)
        (perform chain j a c s).2 := by
  cases hpoint
  have hsame := perform_quiet chain j (a := .commit) trivial c s
  have hdel := perform_deliveries chain j (a := .commit) (by simp) c s
  refine ⟨.quiet hdel hsame.settledBy, ?_⟩
  have hdone' : id.onchainId = i → (perform chain j .commit c s).2.settledBy i = some j →
      Announced w i (perform chain j .commit c s).2 := by
    intro hid hj
    rw [hsame.settledBy] at hj
    exact (hdone hid hj).of_deliveries hdel
  by_cases hc : c.fault = .none
  · have hann := hcommit rfl hc
    have hok : (perform chain j .commit c s).1 = .ok () := by simp [perform, read, hc]
    rw [hok]
    exact .ended _ rfl hdone' fun y _ hid => (hann hid).of_deliveries hdel
  · have herr : (perform chain j .commit c s).1 = .error connectionLost := by
      rw [perform]
      split
      · rfl
      · exact if_neg hc
    rw [herr]
    exact .ended _ rfl hdone' (fun _ h => by cases h)

/-- The settlement's own transaction. -/
theorem announceStep_settle (hinv : AnnounceInv sha i s) (hmirror : MirrorInv chain s)
    (hrepaid : ∀ r ∈ s.db.invoices.rows, r.onchainId = i → r.status = .repaid →
      s.settledBy i ≠ none) {a : Act} {f : Except Error a.Answer → Task Reply}
    (hpoint : Async.await a f = settling sha id ledger txHash)
    (hother : s.settledBy id.onchainId ≠ some j)
    (hharmless : id.onchainId = i → Harmless w i s a c) :
    AnnounceStep sha w i j s (perform chain j a c s).2 ∧
      AnnounceAt sha w i j id ledger txHash (f (perform chain j a c s).1)
        (perform chain j a c s).2 := by
  cases hpoint
  have hnot : id.onchainId = i → s.settledBy i = some j → Announced w i s := fun hid hj =>
    absurd (hid ▸ hj) hother
  -- an invoice that is `FUNDED` has not been settled by anyone
  have hfresh : (∃ r ∈ s.db.invoices.rows, r.onchainId = id.onchainId ∧ r.status = .funded) →
      s.settledBy id.onchainId = none := by
    rintro ⟨r, hr, hid, hst⟩
    by_contra hne
    obtain ⟨j', hj'⟩ := Option.ne_none_iff_exists'.1 hne
    have h := hmirror.settled _ _ hj' r hr hid
    rw [hst] at h
    cases h
  rw [perform]
  rcases transact_cases c.fault (Store.settle j ⟨id, ledger, txHash⟩ c.clock) s with ⟨e, ht⟩ |
    ⟨x, s', hb, -, ht⟩ | ⟨x, s', hb, hc, ht⟩
  · rw [ht]
    exact ⟨.quiet rfl rfl, .throwing e rfl hnot⟩
  · rw [ht]
    rcases settle_eq_ok hb with ⟨rfl, hfunded, rfl⟩ | ⟨rfl, rfl, r, hr, hid, hst⟩
    · refine ⟨⟨.settled _ (hfresh hfunded) rfl rfl, .of_deliveries rfl⟩,
        .announcing rfl (Function.update_self ..) fun hid => ?_⟩
      exact hinv.fresh (hid ▸ hfresh hfunded)
    · refine ⟨.quiet rfl rfl, .committing .alreadyRepaid rfl hnot fun hi => ?_⟩
      exact hrepaid r hr (hid.trans hi) hst
  · rw [ht]
    rcases settle_eq_ok hb with ⟨rfl, hfunded, rfl⟩ | ⟨rfl, rfl, -⟩
    · refine ⟨⟨.settled _ (hfresh hfunded) rfl rfl, .of_deliveries rfl⟩,
        .throwing _ rfl fun hid => ?_⟩
      obtain ⟨r, hr, hrid, hst⟩ := hfunded
      exact absurd hst (hharmless hid hc r hr (hrid.trans hid))
    · exact ⟨.quiet rfl rfl, .throwing _ rfl hnot⟩

/-- The look-up of the subscriptions. -/
theorem announceStep_dispatch (hlisten : Listening w s) {e : WebhookEvent} (hevent : EventOf id e)
    {a : Act} {f : Except Error a.Answer → Task Reply}
    (hpoint : Async.await a f = dispatching sha e) (hmine : s.settledBy id.onchainId = some j)
    (hnone : id.onchainId = i → Unannounced i s)
    (hharmless : id.onchainId = i → Harmless w i s a c) :
    AnnounceStep sha w i j s (perform chain j a c s).2 ∧
      AnnounceAt sha w i j id ledger txHash (f (perform chain j a c s).1)
        (perform chain j a c s).2 := by
  cases hpoint
  refine ⟨.quiet rfl rfl, ?_⟩
  dsimp only [perform, read]
  split
  · refine .looping e _ 0 hevent rfl hmine fun hid => ⟨fun d hd hann => ?_, .inl ⟨?_, ?_⟩⟩
    · have hold := hnone hid d hd
      rw [hann] at hold
      cases hold
    · obtain ⟨sub, hsub, rfl, hactive, hinterested⟩ := hlisten
      refine List.mem_map_of_mem (List.mem_filter.2 ⟨List.mem_filter.2 ⟨hsub, hactive⟩, ?_⟩)
      rw [hevent.event]
      exact hinterested
    · refine List.filter_eq_nil_iff.2 fun d hd => ?_
      rw [hnone hid d hd]
      simp
  · next hc => exact .throwing _ rfl fun hid => absurd (hharmless hid) hc

/-- One pass through the loop. -/
theorem announceStep_create (hsha : Function.Injective sha.digest) (hinv : AnnounceInv sha i s)
    (hlisten : Listening w s) {e : WebhookEvent} (hevent : EventOf id e) {sub : WebhookSubscription}
    {rest : List WebhookSubscription} {n : Nat} {a : Act} {f : Except Error a.Answer → Task Reply}
    (hpoint : Async.await a f = looping e (buildIdempotencyKey sha e) (sub :: rest) n)
    (hmine : s.settledBy id.onchainId = some j)
    (hloop : id.onchainId = i → LoopInv w i (buildIdempotencyKey sha e)
      ((sub :: rest).map WebhookSubscription.id) s)
    (hharmless : id.onchainId = i → Harmless w i s a c) :
    AnnounceStep sha w i j s (perform chain j a c s).2 ∧
      AnnounceAt sha w i j id ledger txHash (f (perform chain j a c s).1)
        (perform chain j a c s).2 := by
  cases hpoint
  have hwf : WebhookDelivery.Enqueued sha ⟨sub.id, e.event, buildIdempotencyKey sha e, e⟩ :=
    ⟨by rw [hevent.invoiceId]; exact id.digits, hevent.event, hevent.event, rfl⟩
  have hvalue : decimalValue e.invoiceId = id.onchainId := by rw [hevent.invoiceId]; rfl
  have hsame := (perform_quiet chain j
    (a := .createDelivery ⟨sub.id, e.event, buildIdempotencyKey sha e, e⟩) trivial c s).settledBy
  have henqueues : Enqueues sha j s (perform chain j
      (.createDelivery ⟨sub.id, e.event, buildIdempotencyKey sha e, e⟩) c s).2 := by
    refine transact_invariant (P := Enqueues sha j s) (.quiet rfl rfl) fun u s' hb => ?_
    obtain ⟨db, hdb, rfl⟩ := onDb_eq_ok.1 hb
    obtain ⟨-, -, rfl⟩ := createDelivery_eq_ok.1 hdb
    exact .enqueued _ hwf (hvalue ▸ hmine) rfl rfl
  have hstep : AnnounceStep sha w i j s (perform chain j
      (.createDelivery ⟨sub.id, e.event, buildIdempotencyKey sha e, e⟩) c s).2 ∧
      (id.onchainId = i → LoopInv w i (buildIdempotencyKey sha e)
        (rest.map WebhookSubscription.id) (perform chain j
          (.createDelivery ⟨sub.id, e.event, buildIdempotencyKey sha e, e⟩) c s).2) := by
    by_cases hid : id.onchainId = i
    · have hann : WebhookDelivery.announces i
          ⟨sub.id, e.event, buildIdempotencyKey sha e, e⟩ = true :=
        decide_eq_true ⟨hevent.event, hvalue.trans hid⟩
      obtain ⟨hnext, hdone⟩ := (hloop hid).step hsha chain j c hinv hlisten hwf hann
        (hharmless hid)
      exact ⟨⟨henqueues, hdone⟩, fun _ => hnext⟩
    · -- the delivery is an announcement of another invoice
      refine ⟨⟨henqueues, ?_⟩, fun h => absurd h hid⟩
      have hother : WebhookDelivery.announces i
          ⟨sub.id, e.event, buildIdempotencyKey sha e, e⟩ = false :=
        decide_eq_false fun hann => hid (hvalue.symm.trans hann.2)
      refine transact_invariant (P := fun (s' : Store τ) => Announced w i s → Announced w i s')
        (fun hdone => hdone) fun u s' hb hdone => ?_
      obtain ⟨db, hdb, rfl⟩ := onDb_eq_ok.1 hb
      obtain ⟨-, -, rfl⟩ := createDelivery_eq_ok.1 hdb
      rw [Announced, (Keeps.of_append (w := w) rfl hother).same]
      exact hdone
  refine ⟨hstep.1, ?_⟩
  have hmine' := hsame ▸ hmine
  cases (perform chain j
      (.createDelivery ⟨sub.id, e.event, buildIdempotencyKey sha e, e⟩) c s).1 with
  | ok u => exact .looping e rest (n + 1) hevent rfl hmine' hstep.2
  | error err => exact .looping e rest n hevent rfl hmine' hstep.2

/-- A step of a settlement call. -/
theorem AnnounceAt.step (hsha : Function.Injective sha.digest) (hinv : AnnounceInv sha i s)
    (hmirror : MirrorInv chain s)
    (hrepaid : ∀ r ∈ s.db.invoices.rows, r.onchainId = i → r.status = .repaid →
      s.settledBy i ≠ none) (hlisten : Listening w s) {a : Act}
    {f : Except Error a.Answer → Task Reply}
    (hharmless : id.onchainId = i → Harmless w i s a c)
    (hcommit : a = .commit → c.fault = .none → id.onchainId = i →
      ∀ j', s.settledBy i = some j' → j' ≠ j → Announced w i s)
    (h : AnnounceAt sha w i j id ledger txHash (.await a f) s) :
    AnnounceStep sha w i j s (perform chain j a c s).2 ∧
      AnnounceAt sha w i j id ledger txHash (f (perform chain j a c s).1)
        (perform chain j a c s).2 := by
  cases h with
  | before point other =>
    rcases point with point | point
    · cases point
      have hsame := perform_quiet chain j (a := .begin) trivial c s
      refine ⟨announceStep_quiet (a := .begin) trivial (by simp), ?_⟩
      have hother : (perform chain j .begin c s).2.settledBy id.onchainId ≠ some j := by
        rw [hsame.settledBy]
        exact other
      have hnot : id.onchainId = i → (perform chain j .begin c s).2.settledBy i = some j →
          Announced w i (perform chain j .begin c s).2 :=
        fun hid hj => absurd (hid ▸ hj) hother
      cases (perform chain j .begin c s).1 with
      | ok u => exact .before (.inr rfl) hother
      | error e => exact .ended _ rfl hnot nofun
    · exact announceStep_settle hinv hmirror hrepaid point other hharmless
  | announcing point mine none =>
    cases point
    exact ⟨.quiet rfl rfl,
      .dispatching ⟨id.text, "repaid", c.clock, ledger⟩ ⟨rfl, rfl⟩ rfl mine none⟩
  | dispatching e event point mine none =>
    exact announceStep_dispatch hlisten event point mine none hharmless
  | looping e rest n event point mine loop =>
    cases rest with
    | nil =>
      -- the loop is over: the call is before its commit
      have hdone : id.onchainId = i → Announced w i s := fun hid =>
        (loop hid).coming.resolve_left fun hcoming => nomatch hcoming.1
      exact announceStep_commit (x := .settled) point (fun hid _ => hdone hid)
        fun _ _ hid => hdone hid
    | cons sub rest =>
      exact announceStep_create hsha hinv hlisten event point mine loop hharmless
  | committing x point done settled =>
    refine announceStep_commit point done fun ha hc hid => ?_
    obtain ⟨j', hj'⟩ := Option.ne_none_iff_exists'.1 (settled hid)
    rcases eq_or_ne j' j with rfl | hne
    · exact done hid hj'
    · exact hcommit ha hc hid j' hj' hne
  | throwing e point done =>
    cases point
    exact ⟨.quiet rfl rfl, .ended _ rfl done nofun⟩
  | ended r point => cases point

/-! ## The runs -/

/-- The actions of a funding call. -/
def Act.Funding : Act → Prop
  | .findInvoice _ | .fundOnChain _ | .recordFunding _ => True
  | _ => False

theorem fund_only (sha : Sha256) (call : FundCall) :
    (BackendCall.task sha (.fund call)).Only Act.Funding fun _ => True := by
  have hpay : ∀ (invoice : Invoice) (amount : Int),
      (payInvoice call invoice amount).Only Act.Funding fun _ => True := by
    intro invoice amount
    refine ⟨trivial, fun r => ?_⟩
    cases r with
    | error e => trivial
    | ok txHash =>
      refine ⟨trivial, fun r => ?_⟩
      cases r <;> trivial
  have hfund : (fundInvoice call).Only Act.Funding fun _ => True := by
    unfold fundInvoice
    cases guardHalt call with
    | error e => trivial
    | ok u =>
      refine ⟨trivial, fun r => ?_⟩
      cases r with
      | error e => trivial
      | ok found =>
        cases found with
        | none => trivial
        | some invoice =>
          show (Async.ofExcept (checkFundable call invoice) >>= _).Only _ _
          cases checkFundable call invoice with
          | error e => trivial
          | ok amount => exact hpay invoice amount
  exact hfund.bind (fun _ _ => trivial) fun _ _ => trivial

/-- A step of a funding call. -/
theorem announceStep_fund {a : Act} (ha : a.Funding) :
    AnnounceStep sha w i k s (perform chain k a c s).2 := by
  refine .quiet (perform_deliveries chain k ?_ c s) ?_
  · rintro d rfl
    exact ha
  · cases a with
    | findInvoice id => rfl
    | fundOnChain req =>
      dsimp only [perform]
      split <;> rfl
    | recordFunding w =>
      refine transact_invariant (P := fun (s' : Store τ) => s'.settledBy = s.settledBy) rfl
        fun r s' hb => ?_
      obtain ⟨db, -, rfl⟩ := onDb_eq_ok.1 hb
      rfl
    | _ => exact False.elim ha

/-- Where a call stands. -/
def CallAnnounceAt (sha : Sha256) (w : String) (i : Int) (j : Nat) (call : BackendCall)
    (q : Task Reply) (s : Store τ) : Prop :=
  match call with
  | .fund _ => q.Only Act.Funding fun _ => True
  | .settle id ledger txHash => AnnounceAt sha w i j id ledger txHash q s

/-- The call `j` is a settlement of the invoice that is announcing it. -/
def Announcing (i : Int) (p : Pool (Store τ) BackendCall Act Act.Answer Error Reply) (j : Nat) :
    Prop :=
  ∃ id ledger txHash a f, p.calls[j]? = some ⟨.settle id ledger txHash, .await a f⟩ ∧
    id.onchainId = i ∧ a.Announcing

/-- The move lets nothing go wrong with the announcement of the invoice to the subscription: if it
has a settlement call of the invoice go on, then nothing goes wrong in the step (`Harmless`), and if
the call returns by it then no other call is announcing the invoice. -/
def Undisturbed (w : String) (i : Int)
    (p : Pool (Store τ) BackendCall Act Act.Answer Error Reply)
    (m : Move BackendCall (Choice κ) (Environ O)) : Prop :=
  ∀ k c id ledger txHash a f, m = .resume k c →
    p.calls[k]? = some ⟨.settle id ledger txHash, .await a f⟩ → id.onchainId = i →
    Harmless w i p.state a c ∧
      (a = .commit → c.fault = .none → ∀ j, j ≠ k → ¬ Announcing i p j)

/-- Whoever is remembered as the one who has settled an invoice is a settlement call of it. -/
def SettledCalls (p : Pool (Store τ) BackendCall Act Act.Answer Error Reply) : Prop :=
  ∀ i k, p.state.settledBy i = some k → ∃ id ledger txHash q,
    p.calls[k]? = some ⟨.settle id ledger txHash, q⟩ ∧ id.onchainId = i

/-- A `REPAID` invoice `i` has been settled by a call. -/
def RepaidSettled (i : Int) (s : Store τ) : Prop :=
  ∀ r ∈ s.db.invoices.rows, r.onchainId = i → r.status = .repaid → s.settledBy i ≠ none

theorem RepaidSettled.effect {call : Option BackendCall} (h : RepaidSettled i s)
    (heff : Effect chain k call s s') : RepaidSettled i s' := by
  cases heff with
  | quiet hi _ _ hs =>
    rw [RepaidSettled, hi, hs]
    exact h
  | paid _ _ _ hdb _ hs =>
    rw [RepaidSettled, hdb, hs]
    exact h
  | funded w now r hr _ _ _ _ _ hs =>
    rw [hs]
    intro r' hr'
    obtain ⟨r₀, hr₀, rfl⟩ := InvoiceTable.mem_updateMany.1 hr'
    split
    · intro _ hst
      cases hst
    · exact h r₀ hr₀
  | settled w now r _ hr ho _ hs =>
    rw [hs]
    intro r' hr'
    dsimp only
    rcases eq_or_ne i w.invoiceId.onchainId with rfl | hne
    · rw [Function.update_self]
      exact fun _ _ => Option.some_ne_none k
    · rw [Function.update_of_ne hne]
      obtain ⟨r₀, hr₀, rfl⟩ := InvoiceTable.mem_updateMany.1 hr'
      split
      · next hw => exact fun hid _ => absurd (hid.symm.trans (of_decide_eq_true hw).1) hne
      · exact h r₀ hr₀

/-- A move of the outside that keeps the subscription keeps what is said of the announcements. -/
theorem Other.of_environ {o : Environ O}
    (hlisten : Listening w ((backend sha chain).environ o s)) :
    Other w i j s ((backend sha chain).environ o s) := by
  have hsettled : ((backend sha chain).environ o s).settledBy = s.settledBy := by
    cases o <;> rfl
  have hkeeps : Keeps w i s ((backend sha chain).environ o s) := by
    cases o with
    | chain o => exact .of_deliveries rfl
    | subscribe sub => exact .of_deliveries rfl
    | unsubscribe x =>
      obtain ⟨sub, hsub, hid, -⟩ := hlisten
      have hx : w ≠ x := by
        rw [← hid]
        exact of_decide_eq_true (List.mem_filter.1 hsub).2
      refine ⟨fun d hd _ => (List.mem_filter.1 hd).1, ?_⟩
      refine (List.filter_filter ..).trans (List.filter_congr fun d _ => ?_)
      by_cases hd : d.subscriptionId = w <;> simp [hd, hx]
  refine ⟨fun x hx => ?_, fun x hx => ?_, fun hx => ?_, fun _ => hkeeps, fun hann => ?_⟩
  · rw [hsettled]
    exact hx
  · rw [hsettled]
    exact hx
  · rw [hsettled]
    exact hx
  · rw [Announced, hkeeps.same]
    exact hann

theorem AnnounceInv.environ (hinv : AnnounceInv sha i s) (o : Environ O) :
    AnnounceInv sha i ((backend sha chain).environ o s) := by
  cases o with
  | chain o => exact ⟨hinv.keys, hinv.fresh⟩
  | subscribe sub => exact ⟨hinv.keys, hinv.fresh⟩
  | unsubscribe x =>
    exact ⟨fun d hd => hinv.keys d (List.mem_filter.1 hd).1,
      fun hnone d hd => hinv.fresh hnone d (List.mem_filter.1 hd).1⟩

/-- A run in which nothing goes wrong, from where the invariants of the mirror are known, under a
hash without collisions. -/
structure Calm (sha : Sha256) (chain : PoolChain τ κ O) (w : String) (i : Int)
    (p : Pool (Store τ) BackendCall Act Act.Answer Error Reply)
    (m : Move BackendCall (Choice κ) (Environ O)) : Prop where
  collisionFree : Function.Injective sha.digest
  undisturbed : Undisturbed w i p m
  listening : Listening w p.state
  listening_after : Listening w ((backend sha chain).move m p).state
  mirror : MirrorInv chain p.state
  repaid : RepaidSettled i p.state
  settled : SettledCalls p

/-- What a step of a call does, given where all calls stand. -/
theorem Calm.step {p : Pool (Store τ) BackendCall Act Act.Answer Error Reply} {call : BackendCall}
    {a : Act} {f : Except Error a.Answer → Task Reply}
    (hcalm : Calm sha chain w i p (.resume k c)) (hk : p.calls[k]? = some ⟨call, .await a f⟩)
    (hinv : AnnounceInv sha i p.state) (hat : p.Meets (CallAnnounceAt sha w i)) :
    AnnounceStep sha w i k p.state (perform chain k a c p.state).2 ∧
      CallAnnounceAt sha w i k call (f (perform chain k a c p.state).1)
        (perform chain k a c p.state).2 := by
  have hcall := hat _ _ hk
  cases call with
  | fund call => exact ⟨announceStep_fund hcall.1, hcall.2 _⟩
  | settle id ledger txHash =>
    refine AnnounceAt.step hcalm.collisionFree hinv hcalm.mirror hcalm.repaid hcalm.listening
      (fun hid => (hcalm.undisturbed k c _ _ _ a f rfl hk hid).1) (fun ha hc hid j' hj' hne => ?_)
      hcall
    -- the call that has settled the invoice is not announcing it any more
    have hnot := (hcalm.undisturbed k c _ _ _ a f rfl hk hid).2 ha hc j' hne
    obtain ⟨id', ledger', txHash', q, hq, hid'⟩ := hcalm.settled i j' hj'
    have hj := hat _ _ hq
    cases hj with
    | before point other =>
      rw [hid'] at other
      exact absurd hj' other
    | announcing point mine none =>
      cases point
      exact absurd ⟨id', ledger', txHash', _, _, hq, hid', trivial⟩ hnot
    | dispatching e event point mine none =>
      cases point
      exact absurd ⟨id', ledger', txHash', _, _, hq, hid', trivial⟩ hnot
    | looping e rest n event point mine loop =>
      cases rest with
      | nil => exact (loop hid').coming.resolve_left fun hcoming => nomatch hcoming.1
      | cons sub rest =>
        cases point
        exact absurd ⟨id', ledger', txHash', _, _, hq, hid', trivial⟩ hnot
    | committing x point done settled => exact done hid' hj'
    | throwing e point done => exact done hid' hj'
    | ended r point done ok => exact done hid' hj'

/-- The outline of the announcements. -/
def announceOutline (sha : Sha256) (chain : PoolChain τ κ O) (w : String) (i : Int) :
    Outline (backend sha chain) (Calm sha chain w i) where
  Inv := AnnounceInv sha i
  At := CallAnnounceAt sha w i
  start {p call} hcalm _ _ := by
    cases call with
    | fund call => exact fund_only sha call
    | settle id ledger txHash =>
      refine .before (.inl rfl) fun hmine => ?_
      obtain ⟨_, _, _, q, hq, -⟩ := hcalm.settled _ _ hmine
      exact absurd (List.getElem?_eq_some_iff.1 hq).1 (Nat.lt_irrefl _)
  step hcalm hk hinv hat := by
    obtain ⟨hstep, hnext⟩ := hcalm.step hk hinv hat
    exact ⟨hstep.enqueues.inv hinv, hnext⟩
  stable {p k c call a f j other} hcalm hk hinv hat hne hj := by
    obtain ⟨hstep, -⟩ := hcalm.step hk hinv hat
    have hother := hat _ _ hj
    obtain ⟨input, q⟩ := other
    cases input with
    | fund call => exact hother
    | settle id ledger txHash => exact AnnounceAt.stable (.of_step hne hstep) hother
  environ {p o} hcalm hinv hat := by
    refine ⟨hinv.environ o, fun j call hj => ?_⟩
    have hother := hat _ _ hj
    obtain ⟨input, q⟩ := call
    cases input with
    | fund call => exact hother
    | settle id ledger txHash =>
      exact AnnounceAt.stable (.of_environ hcalm.listening_after) hother

/-- A move keeps it: only a settlement call is remembered as the one who has settled an invoice. -/
theorem SettledCalls.move {p : Pool (Store τ) BackendCall Act Act.Answer Error Reply}
    (h : SettledCalls p) (hat : p.Meets (CallAt chain sha))
    (m : Move BackendCall (Choice κ) (Environ O)) :
    SettledCalls ((backend sha chain).move m p) := by
  rcases Service.move_cases (backend sha chain) m p with ⟨call, rfl, hp⟩ |
    ⟨k, c, call, a, f, rfl, hk, hp⟩ | ⟨o, rfl, hp⟩ | ⟨k, c, -, -, hp⟩
  · rw [hp]
    intro i j hj
    obtain ⟨id, ledger, txHash, q, hq, hid⟩ := h i j hj
    refine ⟨id, ledger, txHash, q, ?_, hid⟩
    rw [List.getElem?_append_left (List.getElem?_eq_some_iff.1 hq).1]
    exact hq
  · rw [hp]
    intro i j hj
    have hlt : k < p.calls.length := (List.getElem?_eq_some_iff.1 hk).1
    -- a call that was remembered before is still in its place
    have hold : p.state.settledBy i = some j → ∃ id ledger txHash q,
        (p.calls.set k ⟨call, f (perform chain k a c p.state).1⟩)[j]? =
          some ⟨.settle id ledger txHash, q⟩ ∧ id.onchainId = i := by
      intro hj
      obtain ⟨id, ledger, txHash, q, hq, hid⟩ := h i j hj
      rcases eq_or_ne j k with rfl | hne
      · rw [hk] at hq
        cases hq
        exact ⟨id, ledger, txHash, _, List.getElem?_set_self hlt, hid⟩
      · exact ⟨id, ledger, txHash, q, (List.getElem?_set_ne hne.symm).trans hq, hid⟩
    have heff := (CallAt.step (c := c) (hat _ _ hk)).1
    change (perform chain k a c p.state).2.settledBy i = some j at hj
    cases heff with
    | quiet _ _ _ hs =>
      rw [hs] at hj
      exact hold hj
    | paid _ _ _ _ _ hs =>
      rw [hs] at hj
      exact hold hj
    | funded _ _ _ _ _ _ _ _ _ hs =>
      rw [hs] at hj
      exact hold hj
    | settled w now r hby hr ho hst hs =>
      rw [hs] at hj
      rcases eq_or_ne i w.invoiceId.onchainId with rfl | hne
      · cases (Function.update_self ..).symm.trans hj
        cases hby
        exact ⟨_, _, _, _, List.getElem?_set_self hlt, rfl⟩
      · exact hold ((Function.update_of_ne hne _ _).symm.trans hj)
  · rw [hp]
    cases o <;> exact h
  · rw [hp]
    exact h

/-- Whoever is remembered is a settlement call, after every run from an untouched store. -/
theorem settledCalls_exec (hs : Untouched s)
    (ms : List (Move BackendCall (Choice κ) (Environ O))) :
    SettledCalls (((backend sha chain).machine s).exec ⟨s, []⟩ ms) := by
  induction ms using List.reverseRecOn with
  | nil =>
    intro i k hk
    rw [show (((backend sha chain).machine s).exec ⟨s, []⟩ []).state.settledBy i = none from
      hs.settledBy i] at hk
    cases hk
  | append_singleton ms m ih =>
    rw [Machine.exec_concat]
    exact ih.move (mirror_exec sha chain hs ms).2 m

end

/-- **A settlement is announced exactly once.** In every run in which nothing goes wrong with the
announcement of the invoice `i` to the subscription `w`, from a store in which the invoice is not
`REPAID` and not announced, with `w` active and interested throughout, under a hash without
collisions: once a settlement call of the invoice has returned without error, `w` has exactly one
announcement of it. -/
theorem announced_once {τ κ O : Type} {sha : Sha256} (hsha : Function.Injective sha.digest)
    (chain : PoolChain τ κ O) {s : Store τ} (hs : Untouched s)
    (hkeys : ∀ d ∈ s.db.deliveries, d.Enqueued sha) {w : String} {i : Int}
    (hfresh : Unannounced i s)
    (hrepaid : ∀ r ∈ s.db.invoices.rows, r.onchainId = i → r.status ≠ .repaid)
    {ms : List (Move BackendCall (Choice κ) (Environ O))}
    (hok : ∀ t ∈ ((backend sha chain).machine s).trace ⟨s, []⟩ ms, Undisturbed w i t.pre t.input)
    (hlisten : ∀ t ∈ ((backend sha chain).machine s).trace ⟨s, []⟩ ms,
      Listening w t.pre.state ∧ Listening w t.post.state)
    {j : Nat} {id : DecimalId} {ledger : Nat} {txHash : Option String} {x : Reply}
    (hj : (((backend sha chain).machine s).exec ⟨s, []⟩ ms).calls[j]? =
      some ⟨.settle id ledger txHash, .done (.ok x)⟩) (hid : id.onchainId = i) :
    Announced w i (((backend sha chain).machine s).exec ⟨s, []⟩ ms).state := by
  have hcalm : ∀ t ∈ ((backend sha chain).machine s).trace ⟨s, []⟩ ms,
      Calm sha chain w i t.pre t.input := by
    intro t ht
    obtain ⟨hpre, hpost⟩ := hlisten t ht
    have hundisturbed := hok t ht
    obtain ⟨ms₁, m, ms₂, -, rfl⟩ := Machine.mem_trace.1 ht
    obtain ⟨hmirror, hpaid, -⟩ := mirror_exec_of sha (fun _ => True) (RepaidSettled i)
      (fun _ h _ heff => h.effect heff) hs (fun r hr hi hst => absurd hst (hrepaid r hr hi)) ms₁
      fun _ _ => trivial
    rw [Machine.step_pre, Machine.step_input] at hundisturbed ⊢
    rw [Machine.step_pre] at hpre
    exact ⟨hsha, hundisturbed, hpre, hpost, hmirror, hpaid, settledCalls_exec hs ms₁⟩
  obtain ⟨-, hat⟩ := (announceOutline sha chain w i).exec (p := ⟨s, []⟩)
    ⟨hkeys, fun _ => hfresh⟩ Pool.meets_nil hcalm
  cases hat j _ hj with
  | before point => rcases point with point | point <;> cases point
  | announcing point => cases point
  | dispatching e event point => cases point
  | looping e rest n event point => cases rest <;> cases point
  | committing x point => cases point
  | throwing e point => cases point
  | ended r point done ok =>
    cases point
    exact ok x rfl hid

/-- A move of a run of one call in which no statement fails is undisturbed. -/
theorem undisturbed_smooth {τ κ O : Type} {w : String} {i : Int}
    {p : Pool (Store τ) BackendCall Act Act.Answer Error Reply}
    {m : Move BackendCall (Choice κ) (Environ O)} (hone : p.calls.length ≤ 1)
    (hm : ∀ k c, m = .resume k c → c.fault = .none) : Undisturbed w i p m := by
  intro k c id ledger txHash a f hmove hk hid
  have hc := hm k c hmove
  refine ⟨?_, fun _ _ j hne hann => ?_⟩
  · cases a <;> first | exact trivial | exact hc | simp [Harmless, hc]
  · obtain ⟨id', ledger', txHash', a', f', hj, -⟩ := hann
    have hklt := (List.getElem?_eq_some_iff.1 hk).1
    have hjlt := (List.getElem?_eq_some_iff.1 hj).1
    omega

/-- A store with a funded invoice and a subscription to its repayment. -/
def subscribed : Store Network := .opening (oneFunded [⟨"w", ["repaid"], true⟩])

theorem listening_subscribed {s : Store Network}
    (h : s.db.subscriptions = subscribed.db.subscriptions) : Listening "w" s := by
  refine ⟨⟨"w", ["repaid"], true⟩, ?_, rfl, rfl, rfl⟩
  rw [h]
  exact .head _

/-- A settlement in which nothing fails. -/
theorem announced_once_smooth :
    let ms : List (Move BackendCall (Choice Submission) (Environ NetworkEvent)) :=
      [.start (.settle ⟨"7", rfl⟩ 20 none), .resume 0 smooth, .resume 0 smooth, .resume 0 smooth,
        .resume 0 smooth, .resume 0 smooth, .resume 0 smooth]
    Announced "w" 7
      (((backend plainSha256 network).machine subscribed).exec ⟨subscribed, []⟩ ms).state := by
  intro ms
  have hsteps : ∀ t ∈ ((backend plainSha256 network).machine subscribed).trace ⟨subscribed, []⟩ ms,
      t.pre.calls.length ≤ 1 ∧ (∀ k c, t.input = .resume k c → c.fault = .none) ∧
        t.pre.state.db.subscriptions = subscribed.db.subscriptions ∧
        t.post.state.db.subscriptions = subscribed.db.subscriptions := by
    refine List.forall_mem_cons.2 ⟨⟨Nat.zero_le 1, nofun, rfl, rfl⟩, ?_⟩
    repeat
      refine List.forall_mem_cons.2 ⟨⟨Nat.le_refl 1, ?_, rfl, rfl⟩, ?_⟩
      · rintro k c ⟨⟩
        rfl
    exact List.forall_mem_nil _
  refine announced_once plainSha256_injective network (s := subscribed) (j := 0)
    ⟨fun _ => rfl, fun _ => rfl⟩ (fun d hd => nomatch hd) (fun d hd => nomatch hd)
    (fun r hr hid => ?_) (fun t ht => ?_) (fun t ht => ?_) (x := .settlement .settled) rfl rfl
  · cases List.mem_singleton.1 hr
    exact InvoiceStatus.noConfusion
  · obtain ⟨hone, hc, -, -⟩ := hsteps t ht
    exact undisturbed_smooth hone hc
  · obtain ⟨-, -, hpre, hpost⟩ := hsteps t ht
    exact ⟨listening_subscribed hpre, listening_subscribed hpost⟩

/-- The look-up of the subscriptions fails after the invoice has been settled, and the retry finds
the invoice `REPAID`: it succeeds, and the subscription has no announcement. -/
theorem settlement_unannounced :
    let ms : List (Move BackendCall (Choice Submission) (Environ NetworkEvent)) :=
      [.start (.settle ⟨"7", rfl⟩ 20 none), .resume 0 smooth, .resume 0 smooth, .resume 0 smooth,
        .resume 0 failing, .resume 0 smooth, .start (.settle ⟨"7", rfl⟩ 20 none),
        .resume 1 smooth, .resume 1 smooth, .resume 1 smooth]
    let p := ((backend plainSha256 network).machine subscribed).exec ⟨subscribed, []⟩ ms
    p.calls[0]? = some ⟨.settle ⟨"7", rfl⟩ 20 none, .done (.error connectionLost)⟩ ∧
      p.calls[1]? = some ⟨.settle ⟨"7", rfl⟩ 20 none,
        .done (.ok (.settlement .alreadyRepaid))⟩ ∧
      (∃ r ∈ p.state.db.invoices.rows, r.onchainId = 7 ∧ r.status = .repaid) ∧
      (∀ t ∈ ((backend plainSha256 network).machine subscribed).trace ⟨subscribed, []⟩ ms,
        Listening "w" t.pre.state ∧ Listening "w" t.post.state) ∧
      ¬ Announced "w" 7 p.state := by
  intro ms p
  refine ⟨rfl, rfl, ⟨_, .head _, rfl, rfl⟩, ?_, ?_⟩
  · repeat
      refine List.forall_mem_cons.2 ⟨⟨listening_subscribed rfl, listening_subscribed rfl⟩, ?_⟩
    exact List.forall_mem_nil _
  · show ¬ List.length _ = 1
    decide

end Backend

end InvoiceFi
