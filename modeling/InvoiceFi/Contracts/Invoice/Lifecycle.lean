import InvoiceFi.Contracts.Invoice.Ids
import Mathlib.Logic.Relation

/-!
# The lifecycle of an invoice

`Moves` is the lifecycle that the contract documents for its `Status`. `lifecycle_sound` says that
every run with fewer than `2 ^ 64 - 1` mints keeps it: a record changes in nothing but its owner
and its status, the status moves along `Moves`, and the ownership token is minted by `fund`, once,
with the record's own terms.

All of it is read off `EntryStep`, one invoice and one step at a time. Two facts are about the
whole history, and `Tokenized` carries them along a run: an invoice has a token exactly when it has
passed through `Funded`, and then it was funded exactly once.
-/

namespace InvoiceFi

namespace Invoicing

/-! ## One step -/

/-- The documented transitions of `Status`. -/
inductive Moves : Status → Status → Prop
  | fund : Moves .pending .funded
  | abandon : Moves .pending .defaulted
  | settle : Moves .funded .settled
  | default : Moves .funded .defaulted

/-- `transition_allowed` permits documented transitions only. -/
theorem moves_of_transitionAllowed {st st' : Status} (h : transitionAllowed st st' = true) :
    Moves st st' := by
  cases st <;> cases st' <;> simp [transitionAllowed] at h
  · exact .abandon
  · exact .settle
  · exact .default

/-- Nothing leaves `Settled` or `Defaulted`. -/
theorem eq_of_terminal {st st' : Status} (hst : st = .settled ∨ st = .defaulted)
    (h : Relation.ReflTransGen Moves st st') : st' = st := by
  induction h with
  | refl => rfl
  | tail _ hm ih =>
    subst ih
    rcases hst with rfl | rfl
    · cases hm
    · cases hm

/-- The terms of a record, which no call changes after the mint. -/
structure SameTerms (inv inv' : Invoice) : Prop where
  id : inv'.id = inv.id
  amount : inv'.amount = inv.amount
  crop : inv'.crop = inv.crop
  dueDate : inv'.dueDate = inv.dueDate
  metadata : inv'.metadata = inv.metadata

theorem SameTerms.refl (inv : Invoice) : SameTerms inv inv := ⟨rfl, rfl, rfl, rfl, rfl⟩

theorem SameTerms.trans {inv inv' inv'' : Invoice} (h : SameTerms inv inv')
    (h' : SameTerms inv' inv'') : SameTerms inv inv'' :=
  ⟨h'.id.trans h.id, h'.amount.trans h.amount, h'.crop.trans h.crop, h'.dueDate.trans h.dueDate,
    h'.metadata.trans h.metadata⟩

/-- The step is a successful `fund` of the invoice. -/
def fundsInvoice (n : UInt64) (t : InvoiceStep) : Bool :=
  match t.input.2 with
  | .fund _ m _ => decide (m = n ∧ t.Accepted)
  | _ => false

theorem fundsInvoice_iff {n : UInt64} {t : InvoiceStep} :
    fundsInvoice n t = true ↔ t.Accepted ∧ ∃ caller d, t.input.2 = .fund caller n d := by
  unfold fundsInvoice
  cases t.input.2 with
  | fund c m d => simp [and_comm]
  | _ => simp

section
variable {t : InvoiceStep} {n : UInt64} {e e' : Entry}

/-- A step keeps a record, with its terms, and moves its status along the lifecycle or not at
all; a move to `Funded` is a `fund`. -/
theorem EntryStep.kept (h : EntryStep t n e e') {inv : Invoice} (hinv : e.invoice = some inv) :
    ∃ inv', e'.invoice = some inv' ∧ SameTerms inv inv' ∧
      (inv'.status = inv.status ∨ Moves inv.status inv'.status) ∧
      (inv.status = .pending → inv'.status = .funded → fundsInvoice n t = true) := by
  have hsame : ∀ {inv' : Invoice}, e.invoice = some inv' → inv' = inv :=
    fun h => Option.some.inj (h.symm.trans hinv)
  have hidle : inv.status = .pending → inv.status = .funded → fundsInvoice n t = true :=
    fun hp hf => nomatch hp.symm.trans hf
  cases h with
  | idle _ => exact ⟨inv, hinv, .refl _, .inl rfl, hidle⟩
  | mint hacc hc hid hnone hpos =>
    rw [hnone] at hinv
    cases hinv
  | fund hacc hc hinv' hst hd =>
    cases hsame hinv'
    refine ⟨_, rfl, ⟨rfl, rfl, rfl, rfl, rfl⟩, .inr ?_, fun _ _ =>
      fundsInvoice_iff.2 ⟨hacc, _, _, hc⟩⟩
    rw [hst]
    exact .fund
  | approve hacc hc hauth hinv' htok => exact ⟨inv, hinv, .refl _, .inl rfl, hidle⟩
  | transfer hacc hc hauth hinv' hne hst =>
    cases hsame hinv'
    exact ⟨_, rfl, ⟨rfl, rfl, rfl, rfl, rfl⟩, .inl rfl, hidle⟩
  | transferFrom hacc hc hauth hinv' happ hne hst =>
    cases hsame hinv'
    exact ⟨_, rfl, ⟨rfl, rfl, rfl, rfl, rfl⟩, .inl rfl, hidle⟩
  | updateStatus hacc hc hinv' hst =>
    cases hsame hinv'
    refine ⟨_, rfl, ⟨rfl, rfl, rfl, rfl, rfl⟩, .inr (moves_of_transitionAllowed hst), ?_⟩
    intro _ hf
    exact absurd hf (ne_of_transitionAllowed hst).2

/-- A step that does not fund the invoice keeps its token, or its absence. One that does finds a
pending record without a token, and leaves a funded record with one. -/
theorem EntryStep.token_cases (h : EntryStep t n e e') (hok : EntryOK n e) :
    (fundsInvoice n t = false ∧ e'.token = e.token) ∨
    (fundsInvoice n t = true ∧ e.token = none ∧ e'.token ≠ none ∧
      ∃ inv, e'.invoice = some inv ∧ inv.status = .funded) := by
  cases h with
  | idle ht =>
    refine .inl ⟨Bool.eq_false_iff.2 fun hf => ?_, rfl⟩
    obtain ⟨hacc, caller, d, hc⟩ := fundsInvoice_iff.1 hf
    exact ht hacc (by rw [hc]; rfl)
  | mint hacc hc hid hnone hpos => exact .inl ⟨by rw [fundsInvoice, hc], rfl⟩
  | @fund inv caller d hacc hc hinv hst hd =>
    refine .inr ⟨fundsInvoice_iff.2 ⟨hacc, _, _, hc⟩, ?_, Option.some_ne_none _, _, rfl, rfl⟩
    -- a token belongs to a record that has left `Pending`
    by_contra hne
    obtain ⟨tok, htok⟩ := Option.ne_none_iff_exists'.1 hne
    obtain ⟨inv', hinv', hst', -⟩ := hok.token tok htok
    rw [hinv] at hinv'
    cases hinv'
    exact hst' hst
  | approve hacc hc hauth hinv htok => exact .inl ⟨by rw [fundsInvoice, hc], rfl⟩
  | transfer hacc hc hauth hinv hne hst => exact .inl ⟨by rw [fundsInvoice, hc], rfl⟩
  | transferFrom hacc hc hauth hinv happ hne hst => exact .inl ⟨by rw [fundsInvoice, hc], rfl⟩
  | updateStatus hacc hc hinv hst => exact .inl ⟨by rw [fundsInvoice, hc], rfl⟩

end

/-! ## The token and the history -/

/-- The invoice has passed through `Funded`. -/
def PassedFunded (n : UInt64) (h : List InvoiceStep) : Prop :=
  ∃ t ∈ h, ∃ inv, t.post.invoice n = some inv ∧ inv.status = .funded

/-- The token of the invoice against its history: it is there exactly when the invoice has passed
through `Funded`, and `fund` has then succeeded once. -/
structure Tokenized (n : UInt64) (h : List InvoiceStep) (tok : Option InvoiceToken) : Prop where
  passed : tok ≠ none ↔ PassedFunded n h
  once : h.countP (fundsInvoice n) = if tok = none then 0 else 1

theorem passedFunded_concat {n : UInt64} {h : List InvoiceStep} {t : InvoiceStep} :
    PassedFunded n (h ++ [t]) ↔ PassedFunded n h ∨
      ∃ inv, t.post.invoice n = some inv ∧ inv.status = .funded := by
  simp [PassedFunded, or_and_right, exists_or]

/-- A step in the life of an invoice keeps its token in line with its history. -/
theorem Tokenized.step {n : UInt64} {h : List InvoiceStep} {t : InvoiceStep}
    (hstep : EntryStep t n (entry t.pre n) (entry t.post n)) (hok : EntryOK n (entry t.pre n))
    (ht : Tokenized n h (t.pre.token n)) : Tokenized n (h ++ [t]) (t.post.token n) := by
  rcases hstep.token_cases hok with ⟨hf, htok⟩ | ⟨hf, hnone, hsome, hfunded⟩
  · replace htok : t.post.token n = t.pre.token n := htok
    refine ⟨?_, ?_⟩
    · rw [passedFunded_concat]
      constructor
      · intro hne
        rw [htok] at hne
        exact .inl (ht.passed.1 hne)
      · rintro (hp | ⟨inv, hinv, hst⟩)
        · rw [htok]
          exact ht.passed.2 hp
        · exact (hstep.ok hok).funded inv hinv hst
    · rw [List.countP_append, List.countP_singleton, hf, htok]
      exact ht.once
  · replace hnone : t.pre.token n = none := hnone
    replace hsome : t.post.token n ≠ none := hsome
    refine ⟨?_, ?_⟩
    · rw [passedFunded_concat]
      exact ⟨fun _ => .inr hfunded, fun _ => hsome⟩
    · rw [List.countP_append, List.countP_singleton, hf, ht.once, if_pos hnone, if_neg hsome]
      rfl

/-- In every run in which no mint wraps, every token is in line with its history. -/
theorem tokenized_exec {is : List (Env × Call)}
    (hw : ∀ t ∈ invoiceContract.trace invoiceContract.init is, ¬ Wraps t) (n : UInt64) :
    Tokenized n (invoiceContract.trace invoiceContract.init is)
      ((invoiceContract.exec invoiceContract.init is).token n) := by
  refine Machine.history_of (m := invoiceContract) (H := fun h s => Tokenized n h (s.token n))
    (P := fun t => EntryStep t n (entry t.pre n) (entry t.post n) ∧ EntryOK n (entry t.pre n))
    ⟨?_, rfl⟩ (fun h t ht => Tokenized.step ht.1 ht.2) fun t ht =>
      ⟨entryStep_of_mem hw ht n, (storeOK_pre hw ht).entries n⟩
  exact ⟨fun h => absurd rfl h, fun ⟨_, h, _⟩ => nomatch h⟩

/-! ## Whole runs -/

/-- A run keeps the lifecycle of its invoices and their tokens.

* `moved`: in each step a record stays, its status moves along the lifecycle or not at all, and a
  move from `Pending` to `Funded` is a `fund` of that invoice.
* `kept`, `terminal`: from any point of the run to its end a record keeps its terms, its status
  follows the lifecycle, and `Settled` and `Defaulted` are final.
* `positive`: a record carries its own id and a positive amount.
* `passed`, `once`: an invoice has a token exactly when it has passed through `Funded`, and the
  token was then written by one `fund`.
* `tokenKept`, `tokenWritten`, `tokenTerms`: a token never changes, only a `fund` of the invoice
  writes it, and it holds the record's own id, amount and due date, at a discount below 100%. -/
structure LifecycleSound (is : List (Env × Call)) : Prop where
  moved : ∀ t ∈ invoiceContract.trace invoiceContract.init is, ∀ n inv,
    t.pre.invoice n = some inv → ∃ inv', t.post.invoice n = some inv' ∧
      (inv'.status = inv.status ∨ Moves inv.status inv'.status) ∧
      (inv.status = .pending → inv'.status = .funded → fundsInvoice n t = true)
  kept : ∀ is₁ is₂, is = is₁ ++ is₂ → ∀ n inv,
    (invoiceContract.exec invoiceContract.init is₁).invoice n = some inv →
    ∃ inv', (invoiceContract.exec invoiceContract.init is).invoice n = some inv' ∧
      SameTerms inv inv' ∧ Relation.ReflTransGen Moves inv.status inv'.status
  terminal : ∀ is₁ is₂, is = is₁ ++ is₂ → ∀ n inv,
    (invoiceContract.exec invoiceContract.init is₁).invoice n = some inv →
    (inv.status = .settled ∨ inv.status = .defaulted) →
    ∃ inv', (invoiceContract.exec invoiceContract.init is).invoice n = some inv' ∧
      inv'.status = inv.status
  positive : ∀ n inv, (invoiceContract.exec invoiceContract.init is).invoice n = some inv →
    inv.id = n ∧ 0 < inv.amount.val
  passed : ∀ n, (invoiceContract.exec invoiceContract.init is).token n ≠ none ↔
    PassedFunded n (invoiceContract.trace invoiceContract.init is)
  once : ∀ n, (invoiceContract.trace invoiceContract.init is).countP (fundsInvoice n)
    = if (invoiceContract.exec invoiceContract.init is).token n = none then 0 else 1
  tokenKept : ∀ t ∈ invoiceContract.trace invoiceContract.init is, ∀ n tok,
    t.pre.token n = some tok → t.post.token n = some tok
  tokenWritten : ∀ t ∈ invoiceContract.trace invoiceContract.init is, ∀ n,
    t.post.token n ≠ t.pre.token n → fundsInvoice n t = true
  tokenTerms : ∀ n tok, (invoiceContract.exec invoiceContract.init is).token n = some tok →
    ∃ inv, (invoiceContract.exec invoiceContract.init is).invoice n = some inv ∧
      tok.invoiceId = inv.id ∧ tok.faceValue = inv.amount ∧ tok.dueDate = inv.dueDate ∧
      tok.discountRate.toNat < 10000

/-- The records of one store, as those of a later one have them. -/
def RecordsKept (s s' : Store) : Prop :=
  ∀ n inv, s.invoice n = some inv → ∃ inv', s'.invoice n = some inv' ∧
    SameTerms inv inv' ∧ Relation.ReflTransGen Moves inv.status inv'.status

theorem RecordsKept.refl (s : Store) : RecordsKept s s :=
  fun _ inv hinv => ⟨inv, hinv, .refl _, .refl⟩

theorem RecordsKept.trans {s s' s'' : Store} (h : RecordsKept s s') (h' : RecordsKept s' s'') :
    RecordsKept s s'' := by
  intro n inv hinv
  obtain ⟨inv', hinv', hterms, hmoves⟩ := h n inv hinv
  obtain ⟨inv'', hinv'', hterms', hmoves'⟩ := h' n inv' hinv'
  exact ⟨inv'', hinv'', hterms.trans hterms', hmoves.trans hmoves'⟩

/-- In every run in which no mint wraps, the records at any point of it are kept to its end. -/
theorem recordsKept_exec {is₁ is₂ : List (Env × Call)}
    (hw : ∀ t ∈ invoiceContract.trace invoiceContract.init (is₁ ++ is₂), ¬ Wraps t) :
    RecordsKept (invoiceContract.exec invoiceContract.init is₁)
      (invoiceContract.exec invoiceContract.init (is₁ ++ is₂)) := by
  refine Machine.related_of (m := invoiceContract) RecordsKept.refl (fun _ _ _ => .trans) ?_
  intro t ht n inv hinv
  obtain ⟨inv', hinv', hterms, hst, -⟩ := (entryStep_of_mem hw ht n).kept hinv
  refine ⟨inv', hinv', hterms, ?_⟩
  rcases hst with hst | hmv
  · rw [hst]
  · exact .single hmv

/-- **The lifecycle of the invoices and their tokens**, in every run with fewer than
`2 ^ 64 - 1` mints. -/
theorem lifecycle_sound {is : List (Env × Call)}
    (hfew : (mintedIds (invoiceContract.trace invoiceContract.init is)).length < 2 ^ 64 - 1) :
    LifecycleSound is := by
  have hw := not_wraps_of_few hfew
  have hok := storeOK_exec hw
  refine ⟨?_, ?_, ?_, ?_, ?_, ?_, ?_, ?_, ?_⟩
  · intro t ht n inv hinv
    obtain ⟨inv', hinv', -, hst, hfund⟩ := (entryStep_of_mem hw ht n).kept hinv
    exact ⟨inv', hinv', hst, hfund⟩
  · rintro is₁ is₂ rfl
    exact recordsKept_exec hw
  · rintro is₁ is₂ rfl n inv hinv hst
    obtain ⟨inv', hinv', -, hmoves⟩ := recordsKept_exec hw n inv hinv
    exact ⟨inv', hinv', eq_of_terminal hst hmoves⟩
  · exact fun n => (hok.entries n).record
  · exact fun n => (tokenized_exec hw n).passed
  · exact fun n => (tokenized_exec hw n).once
  · intro t ht n tok htok
    rcases (entryStep_of_mem hw ht n).token_cases ((storeOK_pre hw ht).entries n) with
      ⟨-, h⟩ | ⟨-, hnone, -⟩
    · exact h.trans htok
    · rw [show t.pre.token n = none from hnone] at htok
      cases htok
  · intro t ht n hne
    rcases (entryStep_of_mem hw ht n).token_cases ((storeOK_pre hw ht).entries n) with
      ⟨-, h⟩ | ⟨hf, -⟩
    · exact absurd h hne
    · exact hf
  · intro n tok htok
    obtain ⟨inv, hinv, -, hid, hface, hdue, hd⟩ := (hok.entries n).token tok htok
    exact ⟨inv, hinv, hid.trans ((hok.entries n).record inv hinv).1.symm, hface, hdue, hd⟩

/-- A run of one mint, its funding and its settlement keeps the lifecycle, with its token. -/
theorem lifecycle_sound_settled :
    LifecycleSound (mintRun 1 ++ [(⟨0, 0, [⟨1⟩]⟩, .fund ⟨1⟩ 1 500),
      (⟨0, 0, [⟨1⟩]⟩, .updateStatus ⟨1⟩ 1 .settled)]) ∧
    (invoiceContract.exec invoiceContract.init
      (mintRun 1 ++ [(⟨0, 0, [⟨1⟩]⟩, .fund ⟨1⟩ 1 500),
        (⟨0, 0, [⟨1⟩]⟩, .updateStatus ⟨1⟩ 1 .settled)])).token 1 = some ⟨1, .lit 1, 500, 0⟩ := by
  refine ⟨lifecycle_sound ?_, rfl⟩
  show 1 < 2 ^ 64 - 1
  omega

end Invoicing

end InvoiceFi
