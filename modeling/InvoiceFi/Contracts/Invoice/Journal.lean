import InvoiceFi.Contracts.Invoice.Steps
import InvoiceFi.Lib.Journal

/-!
# What the invoice contract's events tell

`View` is what a reader of the contract's events can know: for every id the owner, the amount and
the status of the record, the face value and the discount rate of the ownership token, the approved
spender, and the number of invoices minted. `record` reads one event, and `journal` says that
reading keeps in step with the contract along every run, whether or not the id counter has wrapped
(`invoices_replayed`).

The crop, the due date and the metadata of an invoice are in no event, and neither is the access
control.
-/

namespace InvoiceFi

namespace Invoicing

open AccessControl (Op)

/-- What the events tell of an invoice record. -/
structure Told where
  owner : Address
  amount : I128
  status : Status

/-- What the events tell of a record. -/
def Invoice.told (inv : Invoice) : Told := ⟨inv.owner, inv.amount, inv.status⟩

/-- What the events tell of a token: its face value and its discount rate. -/
def InvoiceToken.told (tok : InvoiceToken) : I128 × UInt32 := (tok.faceValue, tok.discountRate)

/-- What the events tell of the storage. -/
structure View where
  invoice : UInt64 → Option Told
  token : UInt64 → Option (I128 × UInt32)
  approval : UInt64 → Option Address
  total : UInt64

/-- The view of a store. -/
def view (s : Store) : View :=
  ⟨Option.map Invoice.told ∘ s.invoice, Option.map InvoiceToken.told ∘ s.token, s.approval,
    totalMinted s⟩

/-- What reading one event does to a view. -/
def record (v : View) : Event → View
  | .minted owner invoiceId amount =>
    { v with
      invoice := Function.update v.invoice invoiceId (some ⟨owner, amount, .pending⟩)
      total := invoiceId }
  | .transferred _ receiver invoiceId =>
    { v with
      invoice := Function.update v.invoice invoiceId
        ((v.invoice invoiceId).map fun t => { t with owner := receiver })
      approval := Function.update v.approval invoiceId none }
  | .statusChanged invoiceId _ new =>
    { v with
      invoice := Function.update v.invoice invoiceId
        ((v.invoice invoiceId).map fun t => { t with status := new }) }
  | .tokenMinted _ invoiceId faceValue discountRate =>
    { v with token := Function.update v.token invoiceId (some (faceValue, discountRate)) }
  | .approved _ spender invoiceId =>
    { v with approval := Function.update v.approval invoiceId (some spender) }

/-- What reading the events needs of the store: a record carries the id it is stored under, and
nothing is minted before the setup. -/
structure Readable (s : Store) : Prop where
  id : ∀ n inv, s.invoice n = some inv → inv.id = n
  fresh : s.ac.multisig = none → totalMinted s = 0

theorem Readable.empty : Readable .empty where
  id _ _ h := nomatch h
  fresh _ := rfl

section
variable {s s' : Store}

/-- Writing a record under its own id keeps every record under its id. -/
theorem Readable.id_update (hs : Readable s) {m : UInt64} {inv : Invoice}
    (h : s'.invoice = Function.update s.invoice m (some inv)) (hinv : inv.id = m) :
    ∀ n inv', s'.invoice n = some inv' → inv'.id = n := by
  intro n inv' hn
  rw [h] at hn
  by_cases hnm : n = m
  · subst hnm
    rw [Function.update_self] at hn
    cases hn
    exact hinv
  · rw [Function.update_of_ne hnm] at hn
    exact hs.id n inv' hn

/-- A transfer that passes its checks publishes what it does to the view. -/
theorem doTransfer_written (hs : Readable s) {inv : Invoice} {x y : Address} {n : UInt64}
    (hinv : s.invoice n = some inv) (h : doTransfer s inv x y n = .ok s') :
    Readable s' ∧ ∃ es, s'.events = s.events ++ es ∧ view s' = es.foldl record (view s) := by
  obtain ⟨-, -, rfl⟩ := doTransfer_eq_ok.1 h
  obtain rfl := hs.id n inv hinv
  refine ⟨⟨hs.id_update rfl rfl, hs.fresh⟩, _, rfl, ?_⟩
  simp [view, record, Function.comp_update, totalMinted, hinv, Invoice.told]

/-- A successful call keeps what reading needs, and the events it publishes tell what it does to the
view. -/
theorem readable_written {i : Env × Call} {r : Value} (hs : Readable s)
    (h : invoiceContract.invoke i s = .ok (r, s')) :
    Readable s' ∧ ∃ es, s'.events = s.events ++ es ∧ view s' = es.foldl record (view s) := by
  obtain ⟨env, c⟩ := i
  cases c with
  | init sg th tl =>
    obtain ⟨_, h, heq⟩ := map_eq_ok.1 h
    cases heq
    obtain ⟨ac, hac, rfl⟩ := init_eq_ok.1 h
    obtain ⟨hm, -⟩ := AccessControl.init_eq_ok.1 hac
    -- the setup publishes nothing, and the counter it resets to zero was zero
    refine ⟨⟨hs.id, fun _ => rfl⟩, [], (List.append_nil _).symm, ?_⟩
    have h0 := hs.fresh hm
    simp only [totalMinted] at h0
    simp [view, totalMinted, h0]
  | mint owner amount crop due md =>
    obtain ⟨⟨n, s₁⟩, hmint, heq⟩ := map_eq_ok.1 h
    cases heq
    obtain ⟨⟨cfg, hm⟩, -, -, -, -, rfl⟩ := mint_eq_ok.1 hmint
    refine ⟨⟨hs.id_update rfl rfl, fun hn => ?_⟩, _, rfl, ?_⟩
    · rw [show s.ac.multisig = none from hn] at hm
      cases hm
    · simp [view, record, Function.comp_update, totalMinted, Invoice.told]
  | fund c n d =>
    obtain ⟨_, h, heq⟩ := map_eq_ok.1 h
    cases heq
    obtain ⟨-, -, -, -, inv, hinv, -, rfl⟩ := fund_eq_ok.1 h
    obtain rfl := hs.id n inv hinv
    refine ⟨⟨hs.id_update rfl rfl, hs.fresh⟩, _, rfl, ?_⟩
    simp [view, record, Function.comp_update, totalMinted, hinv, Invoice.told, InvoiceToken.told]
  | approve o sp n =>
    obtain ⟨_, h, heq⟩ := map_eq_ok.1 h
    cases heq
    obtain ⟨-, -, inv, -, -, -, rfl⟩ := approve_eq_ok.1 h
    exact ⟨⟨hs.id, hs.fresh⟩, _, rfl, rfl⟩
  | transfer x y n =>
    obtain ⟨_, h, heq⟩ := map_eq_ok.1 h
    cases heq
    obtain ⟨-, -, inv, hinv, -, h⟩ := transfer_eq_ok.1 h
    exact doTransfer_written hs hinv h
  | transferFrom sp x y n =>
    obtain ⟨_, h, heq⟩ := map_eq_ok.1 h
    cases heq
    obtain ⟨-, -, inv, hinv, -, -, -, h⟩ := transferFrom_eq_ok.1 h
    exact doTransfer_written hs hinv h
  | updateStatus c n st =>
    obtain ⟨_, h, heq⟩ := map_eq_ok.1 h
    cases heq
    obtain ⟨-, -, -, inv, hinv, -, rfl⟩ := updateStatus_eq_ok.1 h
    obtain rfl := hs.id n inv hinv
    refine ⟨⟨hs.id_update rfl rfl, hs.fresh⟩, _, rfl, ?_⟩
    simp [view, record, Function.comp_update, totalMinted, hinv, Invoice.told]
  | access o =>
    obtain ⟨_, h, heq⟩ := map_eq_ok.1 h
    cases heq
    obtain ⟨ac, hac, rfl⟩ := access_eq_ok.1 h
    exact ⟨⟨hs.id, fun hn => hs.fresh (AccessControl.multisig_of_apply hac hn)⟩, [],
      (List.append_nil _).symm, rfl⟩

end

/-- The contract keeps a journal of its invoices. -/
def journal : Journal invoiceContract Event View where
  events := Store.events
  view := view
  record := record
  Inv := Readable
  start := .empty
  kept hs h := (readable_written hs h).1
  fresh := rfl
  written hs h := (readable_written hs h).2

/-- **The events of the invoice contract tell its invoices.** Reading all events of a run gives the
owner, amount and status of every invoice, the face value and discount rate of every token, every
approval and the number of invoices minted, in the state the run reaches; events are only ever
added; and a reader in step with any state of a run catches up with any later one by the events
between the two. -/
theorem invoices_replayed (is₁ is₂ : List (Env × Call)) :
    view (invoiceContract.exec invoiceContract.init is₁) =
        (invoiceContract.exec invoiceContract.init is₁).events.foldl record
          (view invoiceContract.init) ∧
      (invoiceContract.exec invoiceContract.init is₁).events <+:
        (invoiceContract.exec invoiceContract.init (is₁ ++ is₂)).events ∧
      view (invoiceContract.exec invoiceContract.init (is₁ ++ is₂)) =
        ((invoiceContract.exec invoiceContract.init (is₁ ++ is₂)).events.drop
          (invoiceContract.exec invoiceContract.init is₁).events.length).foldl record
          (view (invoiceContract.exec invoiceContract.init is₁)) :=
  ⟨journal.view_exec is₁, journal.prefix_events is₁ is₂, journal.view_append is₁ is₂⟩

end Invoicing

end InvoiceFi
