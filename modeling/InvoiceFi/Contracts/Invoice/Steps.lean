import InvoiceFi.Contracts.Invoice

/-!
# What a step of the invoice contract can do

One invoice is an `Entry`: its record, its ownership token and its approval, the three values the
contract keeps under the invoice's id. `EntryStep` is the life of one invoice as a transition
relation on entries, one constructor per entry point that can touch it, and it names neither the
other invoices nor the rest of the storage. The contract refines it: in every run in which no mint
wraps the id counter, every step is an `EntryStep` of every entry (`entryStep_of_mem`), and so the
properties of a single invoice are proved on entries (`EntryOK`) and carried over.

A mint that wraps (`Wraps`) is one that finds the counter at its largest value: the successor is
`0`, and from there on mints run into ids that are in use.
-/

namespace InvoiceFi

namespace Invoicing

open AccessControl (Op)

/-! ## The id counter -/

/-- The guards of `mint` before it reads the counter. -/
def MintReady (env : Env) (s : Store) (owner : Address) (amount : I128) : Prop :=
  s.ac.multisig ≠ none ∧ AccessControl.isPaused s.ac = false ∧ owner ∈ env.auths ∧
    0 < amount.val

/-- The step is a mint that passes its guards and finds the counter at `u64::MAX`. -/
def Wraps (t : InvoiceStep) : Prop :=
  match t.input.2 with
  | .mint owner amount _ _ _ =>
    MintReady t.input.1 t.pre owner amount ∧ (totalMinted t.pre).toNat = 2 ^ 64 - 1
  | _ => False

/-- The id that a mint returned. -/
def mintedId (t : InvoiceStep) : Option UInt64 :=
  match t.result with
  | .ok (.id n) => some n
  | _ => none

/-- What a step may do to the counter: it is the one-time setup, a mint, which allocates the
successor, or it leaves the counter alone. -/
inductive CounterStep (t : InvoiceStep) : Prop
  | setup (hid : mintedId t = none) (hpre : t.pre.ac.multisig = none)
      (hpost : t.post.ac.multisig ≠ none) (h0 : totalMinted t.post = 0)
      (hinv : t.post.invoice = t.pre.invoice)
  | mint {owner : Address} {amount : I128} {crop : Symbol} {due : UInt64} {md : String}
      (hc : t.input.2 = .mint owner amount crop due md)
      (hr : MintReady t.input.1 t.pre owner amount)
      (hid : mintedId t = some (totalMinted t.pre + 1))
      (htotal : totalMinted t.post = totalMinted t.pre + 1) (hac : t.post.ac = t.pre.ac)
  | idle (hid : mintedId t = none) (htotal : totalMinted t.post = totalMinted t.pre)
      (hm : t.post.ac.multisig = none → t.pre.ac.multisig = none)

theorem counterStep_of_invoke {i : Env × Call} {s s' : Store} {r : Value}
    (h : invoiceContract.invoke i s = .ok (r, s')) : CounterStep ⟨s, i, .ok r, s'⟩ := by
  obtain ⟨env, c⟩ := i
  cases c with
  | init sg th tl =>
    obtain ⟨_, h, heq⟩ := map_eq_ok.1 h
    cases heq
    obtain ⟨ac, hac, rfl⟩ := init_eq_ok.1 h
    obtain ⟨hm, -, -, rfl⟩ := AccessControl.init_eq_ok.1 hac
    exact .setup rfl hm (by simp) rfl rfl
  | mint owner amount crop due md =>
    obtain ⟨⟨n, s₁⟩, hmint, heq⟩ := map_eq_ok.1 h
    cases heq
    obtain ⟨⟨cfg, hm⟩, hp, ha, hpos, rfl, rfl⟩ := mint_eq_ok.1 hmint
    exact .mint rfl ⟨by simp [hm], hp, ha, hpos⟩ rfl rfl rfl
  | fund c n d =>
    obtain ⟨_, h, heq⟩ := map_eq_ok.1 h
    cases heq
    obtain ⟨-, -, -, -, inv, -, -, rfl⟩ := fund_eq_ok.1 h
    exact .idle rfl rfl id
  | approve o sp n =>
    obtain ⟨_, h, heq⟩ := map_eq_ok.1 h
    cases heq
    obtain ⟨-, -, inv, -, -, -, rfl⟩ := approve_eq_ok.1 h
    exact .idle rfl rfl id
  | transfer x y n =>
    obtain ⟨_, h, heq⟩ := map_eq_ok.1 h
    cases heq
    obtain ⟨-, -, inv, -, -, h⟩ := transfer_eq_ok.1 h
    obtain ⟨-, -, rfl⟩ := doTransfer_eq_ok.1 h
    exact .idle rfl rfl id
  | transferFrom sp x y n =>
    obtain ⟨_, h, heq⟩ := map_eq_ok.1 h
    cases heq
    obtain ⟨-, -, inv, -, -, -, -, h⟩ := transferFrom_eq_ok.1 h
    obtain ⟨-, -, rfl⟩ := doTransfer_eq_ok.1 h
    exact .idle rfl rfl id
  | updateStatus c n st =>
    obtain ⟨_, h, heq⟩ := map_eq_ok.1 h
    cases heq
    obtain ⟨-, -, -, inv, -, -, rfl⟩ := updateStatus_eq_ok.1 h
    exact .idle rfl rfl id
  | access o =>
    obtain ⟨_, h, heq⟩ := map_eq_ok.1 h
    cases heq
    obtain ⟨ac, hac, rfl⟩ := access_eq_ok.1 h
    exact .idle rfl rfl (AccessControl.multisig_of_apply hac)

/-! ## One invoice -/

/-- What the contract keeps under one invoice's id. -/
structure Entry where
  invoice : Option Invoice
  token : Option InvoiceToken
  approval : Option Address

/-- The entry of an id that was never minted. -/
def Entry.empty : Entry := ⟨none, none, none⟩

/-- The entry of an id in a store. -/
def entry (s : Store) (n : UInt64) : Entry := ⟨s.invoice n, s.token n, s.approval n⟩

/-- The invoice that a call names. -/
def Call.target : Call → Option UInt64
  | .fund _ n _ | .approve _ _ n | .transfer _ _ n | .transferFrom _ _ _ n
  | .updateStatus _ n _ => some n
  | .init _ _ _ | .mint _ _ _ _ _ | .access _ => none

/-- The life of the invoice `n`: how the step `t` may take its entry to another one. -/
inductive EntryStep (t : InvoiceStep) (n : UInt64) : Entry → Entry → Prop
  /-- The step failed, or it names another invoice, or none. -/
  | idle {e : Entry} (h : t.Accepted → t.input.2.target ≠ some n) : EntryStep t n e e
  /-- A mint allocated the id. -/
  | mint {e : Entry} {owner : Address} {amount : I128} {crop : Symbol} {due : UInt64}
      {md : String} (hacc : t.Accepted) (hc : t.input.2 = .mint owner amount crop due md)
      (hid : mintedId t = some n) (hnone : e.invoice = none) (hpos : 0 < amount.val) :
      EntryStep t n e { e with invoice := some ⟨n, owner, amount, crop, due, md, .pending⟩ }
  /-- The invoice was funded and its token minted. -/
  | fund {e : Entry} {inv : Invoice} {caller : Address} {d : UInt32} (hacc : t.Accepted)
      (hc : t.input.2 = .fund caller n d) (hinv : e.invoice = some inv)
      (hst : inv.status = .pending) (hd : d.toNat < 10000) :
      EntryStep t n e { e with
        invoice := some { inv with status := .funded }
        token := some ⟨n, inv.amount, d, inv.dueDate⟩ }
  /-- The owner of a tokenized invoice approved a spender. -/
  | approve {e : Entry} {inv : Invoice} {spender : Address} (hacc : t.Accepted)
      (hc : t.input.2 = .approve inv.owner spender n) (hauth : inv.owner ∈ t.input.1.auths)
      (hinv : e.invoice = some inv) (htok : e.token ≠ none) :
      EntryStep t n e { e with approval := some spender }
  /-- The owner transferred the invoice. -/
  | transfer {e : Entry} {inv : Invoice} {receiver : Address} (hacc : t.Accepted)
      (hc : t.input.2 = .transfer inv.owner receiver n) (hauth : inv.owner ∈ t.input.1.auths)
      (hinv : e.invoice = some inv) (hne : inv.owner ≠ receiver)
      (hst : inv.status ≠ .settled) :
      EntryStep t n e { e with
        invoice := some { inv with owner := receiver }, approval := none }
  /-- The approved spender transferred the invoice. -/
  | transferFrom {e : Entry} {inv : Invoice} {spender receiver : Address} (hacc : t.Accepted)
      (hc : t.input.2 = .transferFrom spender inv.owner receiver n)
      (hauth : spender ∈ t.input.1.auths) (hinv : e.invoice = some inv)
      (happ : e.approval = some spender) (hne : inv.owner ≠ receiver)
      (hst : inv.status ≠ .settled) :
      EntryStep t n e { e with
        invoice := some { inv with owner := receiver }, approval := none }
  /-- An admin signer moved the status. -/
  | updateStatus {e : Entry} {inv : Invoice} {caller : Address} {st : Status}
      (hacc : t.Accepted) (hc : t.input.2 = .updateStatus caller n st)
      (hinv : e.invoice = some inv) (hst : transitionAllowed inv.status st = true) :
      EntryStep t n e { e with invoice := some { inv with status := st } }

/-- What always holds of the entry of `n`: the record carries its own id and a positive amount, the
token belongs to a record that has left `Pending` and repeats its terms, a funded record has its
token, and only a tokenized invoice has an approval. -/
structure EntryOK (n : UInt64) (e : Entry) : Prop where
  record : ∀ inv, e.invoice = some inv → inv.id = n ∧ 0 < inv.amount.val
  token : ∀ tok, e.token = some tok → ∃ inv, e.invoice = some inv ∧ inv.status ≠ .pending ∧
    tok.invoiceId = n ∧ tok.faceValue = inv.amount ∧ tok.dueDate = inv.dueDate ∧
    tok.discountRate.toNat < 10000
  funded : ∀ inv, e.invoice = some inv → inv.status = .funded → e.token ≠ none
  approval : e.approval ≠ none → e.token ≠ none

theorem EntryOK.empty (n : UInt64) : EntryOK n .empty where
  record _ h := nomatch h
  token _ h := nomatch h
  funded _ h := nomatch h
  approval h := absurd rfl h

/-- A transfer changes the owner and drops the approval, and neither is part of what holds. -/
theorem EntryOK.transferred {n : UInt64} {e : Entry} (hok : EntryOK n e) {inv : Invoice}
    (hinv : e.invoice = some inv) (receiver : Address) :
    EntryOK n { e with invoice := some { inv with owner := receiver }, approval := none } := by
  refine ⟨?_, fun tok htok => ?_, ?_, fun h => absurd rfl h⟩
  · rintro _ ⟨⟩
    exact hok.record inv hinv
  · obtain ⟨inv', hinv', h⟩ := hok.token tok htok
    obtain rfl : inv = inv' := Option.some.inj (hinv.symm.trans hinv')
    exact ⟨_, rfl, h⟩
  · rintro _ ⟨⟩ hf
    exact hok.funded inv hinv hf

/-- An allowed status change leaves `Pending` or `Funded` and never enters either. -/
theorem ne_of_transitionAllowed {st st' : Status} (h : transitionAllowed st st' = true) :
    st' ≠ .pending ∧ st' ≠ .funded := by
  cases st <;> cases st' <;> simp [transitionAllowed] at h ⊢

/-- The life of an invoice keeps its entry well formed. -/
theorem EntryStep.ok {t : InvoiceStep} {n : UInt64} {e e' : Entry} (h : EntryStep t n e e')
    (hok : EntryOK n e) : EntryOK n e' := by
  cases h with
  | idle _ => exact hok
  | mint hacc hc hid hnone hpos =>
    -- an id without a record has no token yet
    have htok : e.token = none := by
      by_contra hne
      obtain ⟨tok, htok⟩ := Option.ne_none_iff_exists'.1 hne
      obtain ⟨inv, hinv, -⟩ := hok.token tok htok
      rw [hnone] at hinv
      cases hinv
    refine ⟨?_, fun tok h => ?_, ?_, hok.approval⟩
    · rintro _ ⟨⟩
      exact ⟨rfl, hpos⟩
    · rw [show e.token = some tok from h] at htok
      cases htok
    · rintro _ ⟨⟩ hst
      cases hst
  | @fund inv caller d hacc hc hinv hst hd =>
    obtain ⟨hid, hpos⟩ := hok.record inv hinv
    refine ⟨?_, ?_, fun _ _ _ => Option.some_ne_none _, fun _ => Option.some_ne_none _⟩
    · rintro _ ⟨⟩
      exact ⟨hid, hpos⟩
    · rintro _ ⟨⟩
      exact ⟨_, rfl, by simp, rfl, rfl, rfl, hd⟩
  | approve hacc hc hauth hinv htok => exact ⟨hok.record, hok.token, hok.funded, fun _ => htok⟩
  | transfer hacc hc hauth hinv hne hst => exact hok.transferred hinv _
  | transferFrom hacc hc hauth hinv happ hne hst => exact hok.transferred hinv _
  | @updateStatus inv caller st hacc hc hinv hst =>
    obtain ⟨hid, hpos⟩ := hok.record inv hinv
    obtain ⟨hnp, hnf⟩ := ne_of_transitionAllowed hst
    refine ⟨?_, fun tok htok => ?_, ?_, hok.approval⟩
    · rintro _ ⟨⟩
      exact ⟨hid, hpos⟩
    · obtain ⟨inv', hinv', -, h1, h2, h3, h4⟩ := hok.token tok htok
      obtain rfl : inv = inv' := Option.some.inj (hinv.symm.trans hinv')
      exact ⟨_, rfl, hnp, h1, h2, h3, h4⟩
    · rintro _ ⟨⟩ hf
      exact absurd hf hnf

/-! ## The contract -/

/-- What holds of the store while no mint wraps: every entry is well formed, the ids in use are
`1, …, total_minted`, and nothing is minted before the setup. -/
structure StoreOK (s : Store) : Prop where
  entries : ∀ n, EntryOK n (entry s n)
  range : ∀ n, s.invoice n ≠ none → 1 ≤ n.toNat ∧ n.toNat ≤ (totalMinted s).toNat
  fresh : s.ac.multisig = none → totalMinted s = 0

theorem StoreOK.empty : StoreOK .empty :=
  ⟨fun n => EntryOK.empty n, fun _ h => absurd rfl h, fun _ => rfl⟩

/-- The successor of a counter that is not at its largest value. -/
theorem toNat_succ {w : UInt64} (h : w.toNat ≠ 2 ^ 64 - 1) : (w + 1).toNat = w.toNat + 1 := by
  have := w.toNat_lt
  rw [UInt64.toNat_add, UInt64.toNat_one, Nat.mod_eq_of_lt (by omega)]

section
variable {i : Env × Call} {s s' : Store} {r : Value} {n : UInt64}

/-- A mint that does not wrap leaves the counter below its largest value. -/
theorem toNat_ne_of_not_wraps {owner : Address} {amount : I128} {crop : Symbol} {due : UInt64}
    {md : String} (hw : ¬ Wraps ⟨s, i, .ok r, s'⟩) (hc : i.2 = .mint owner amount crop due md)
    (hr : MintReady i.1 s owner amount) : (totalMinted s).toNat ≠ 2 ^ 64 - 1 := by
  intro hmax
  refine hw ?_
  simp only [Wraps, hc]
  exact ⟨hr, hmax⟩

/-- The entries of a store in which those of one invoice were written. -/
theorem entry_update {m : UInt64} {inv : Option Invoice} {tok : Option InvoiceToken}
    {app : Option Address} (h1 : s'.invoice = Function.update s.invoice m inv)
    (h2 : s'.token = Function.update s.token m tok)
    (h3 : s'.approval = Function.update s.approval m app) :
    entry s' = Function.update (entry s) m ⟨inv, tok, app⟩ := by
  funext k
  simp only [entry, h1, h2, h3]
  by_cases hk : k = m
  · subst hk
    simp only [Function.update_self]
  · simp only [Function.update_of_ne hk, entry]

/-- A call that rewrites one entry, and names no other, is an `EntryStep` of every entry when it
is one of that entry. -/
theorem EntryStep.of_update {t : InvoiceStep} {m : UInt64} {e : Entry}
    (hs : entry s' = Function.update (entry s) m e) (hm : EntryStep t m (entry s m) e)
    (ht : ∀ k, k ≠ m → t.input.2.target ≠ some k) :
    ∀ n, EntryStep t n (entry s n) (entry s' n) := by
  intro n
  rw [hs]
  by_cases hn : n = m
  · subst hn
    rw [Function.update_self]
    exact hm
  · rw [Function.update_of_ne hn]
    exact .idle fun _ => ht n hn

/-- A transfer that passes its checks rewrites the entry it names. -/
theorem entry_doTransfer {inv : Invoice} {x y : Address} {m : UInt64} (hid : inv.id = m)
    (h : doTransfer s inv x y m = .ok s') :
    x ≠ y ∧ inv.status ≠ .settled ∧ entry s' = Function.update (entry s) m
      { entry s m with invoice := some { inv with owner := y }, approval := none } := by
  obtain ⟨hne, hst, rfl⟩ := doTransfer_eq_ok.1 h
  subst hid
  exact ⟨hne, hst, entry_update rfl (Function.update_eq_self _ _).symm rfl⟩

/-- The next id is past every id in use. -/
theorem StoreOK.next_unused (hok : StoreOK s) (hmax : (totalMinted s).toNat ≠ 2 ^ 64 - 1) :
    s.invoice (totalMinted s + 1) = none := by
  by_contra hne
  have hle := (hok.range _ hne).2
  rw [toNat_succ hmax] at hle
  omega

/-- **The contract refines the life of each invoice**: a successful call that does not wrap the
counter is an `EntryStep` of every entry. -/
theorem entryStep_of_invoke (hok : StoreOK s) (hw : ¬ Wraps ⟨s, i, .ok r, s'⟩)
    (h : invoiceContract.invoke i s = .ok (r, s')) :
    ∀ n, EntryStep ⟨s, i, .ok r, s'⟩ n (entry s n) (entry s' n) := by
  have hid : ∀ {m inv}, s.invoice m = some inv → inv.id = m :=
    fun {m inv} hinv => ((hok.entries m).record inv hinv).1
  have hother : ∀ {m : UInt64} (k : UInt64), k ≠ m → some m ≠ some k :=
    fun k hk heq => hk (Option.some.inj heq).symm
  obtain ⟨env, c⟩ := i
  cases c with
  | init sg th tl =>
    obtain ⟨_, h, heq⟩ := map_eq_ok.1 h
    cases heq
    obtain ⟨ac, hac, rfl⟩ := init_eq_ok.1 h
    exact fun n => .idle fun _ h => nomatch h
  | mint owner amount crop due md =>
    obtain ⟨⟨m, s₁⟩, hmint, heq⟩ := map_eq_ok.1 h
    cases heq
    obtain ⟨⟨cfg, hm⟩, hp, ha, hpos, rfl, rfl⟩ := mint_eq_ok.1 hmint
    have hmax := toNat_ne_of_not_wraps hw rfl ⟨by simp [hm], hp, ha, hpos⟩
    have hnone := hok.next_unused hmax
    refine .of_update (m := totalMinted s + 1) (entry_update rfl (Function.update_eq_self _ _).symm
      (Function.update_eq_self _ _).symm) ?_ ?_
    · exact .mint rfl rfl rfl hnone hpos
    · exact fun _ _ h => nomatch h
  | fund c m d =>
    obtain ⟨_, h, heq⟩ := map_eq_ok.1 h
    cases heq
    obtain ⟨-, -, -, hd, inv, hinv, hst, rfl⟩ := fund_eq_ok.1 h
    obtain rfl := hid hinv
    refine .of_update (entry_update rfl rfl (Function.update_eq_self _ _).symm) ?_ ?_
    · exact .fund rfl rfl hinv hst hd
    · exact hother
  | approve o sp m =>
    obtain ⟨_, h, heq⟩ := map_eq_ok.1 h
    cases heq
    obtain ⟨-, ha, inv, hinv, htok, rfl, rfl⟩ := approve_eq_ok.1 h
    refine .of_update (m := m) (entry_update (Function.update_eq_self _ _).symm
      (Function.update_eq_self _ _).symm rfl) ?_ ?_
    · exact .approve rfl rfl ha hinv (Option.isSome_iff_ne_none.1 htok)
    · exact hother
  | transfer x y m =>
    obtain ⟨_, h, heq⟩ := map_eq_ok.1 h
    cases heq
    obtain ⟨-, ha, inv, hinv, rfl, h⟩ := transfer_eq_ok.1 h
    obtain ⟨hne, hst, he⟩ := entry_doTransfer (hid hinv) h
    refine .of_update he ?_ ?_
    · exact .transfer rfl rfl ha hinv hne hst
    · exact hother
  | transferFrom sp x y m =>
    obtain ⟨_, h, heq⟩ := map_eq_ok.1 h
    cases heq
    obtain ⟨-, ha, inv, hinv, -, rfl, happ, h⟩ := transferFrom_eq_ok.1 h
    obtain ⟨hne, hst, he⟩ := entry_doTransfer (hid hinv) h
    refine .of_update he ?_ ?_
    · exact .transferFrom rfl rfl ha hinv happ hne hst
    · exact hother
  | updateStatus c m st =>
    obtain ⟨_, h, heq⟩ := map_eq_ok.1 h
    cases heq
    obtain ⟨-, -, -, inv, hinv, hst, rfl⟩ := updateStatus_eq_ok.1 h
    obtain rfl := hid hinv
    refine .of_update (entry_update rfl (Function.update_eq_self _ _).symm
      (Function.update_eq_self _ _).symm) ?_ ?_
    · exact .updateStatus rfl rfl hinv hst
    · exact hother
  | access o =>
    obtain ⟨_, h, heq⟩ := map_eq_ok.1 h
    cases heq
    obtain ⟨ac, hac, rfl⟩ := access_eq_ok.1 h
    exact fun n => .idle fun _ h => nomatch h

/-- Only a mint makes a record appear, at the id it returns. -/
theorem EntryStep.appears {t : InvoiceStep} {e e' : Entry} (h : EntryStep t n e e')
    (hne : e'.invoice ≠ none) : e.invoice ≠ none ∨ mintedId t = some n := by
  cases h with
  | idle _ => exact .inl hne
  | mint hacc hc hid hnone hpos => exact .inr hid
  | approve hacc hc hauth hinv htok => exact .inl hne
  | fund hacc hc hinv hst hd => exact .inl (by simp [hinv])
  | transfer hacc hc hauth hinv hne hst => exact .inl (by simp [hinv])
  | transferFrom hacc hc hauth hinv happ hne hst => exact .inl (by simp [hinv])
  | updateStatus hacc hc hinv hst => exact .inl (by simp [hinv])

/-- A successful call that does not wrap the counter keeps the store well formed. -/
theorem StoreOK.step (hok : StoreOK s) (hw : ¬ Wraps ⟨s, i, .ok r, s'⟩)
    (h : invoiceContract.invoke i s = .ok (r, s')) : StoreOK s' := by
  have hstep := entryStep_of_invoke hok hw h
  have hentries : ∀ n, EntryOK n (entry s' n) := fun n => (hstep n).ok (hok.entries n)
  cases counterStep_of_invoke h with
  | setup hid hpre hpost h0 hinv =>
    refine ⟨hentries, fun n hn => ?_, fun h => absurd h hpost⟩
    rw [show s'.invoice = s.invoice from hinv] at hn
    have := hok.range n hn
    rw [hok.fresh hpre] at this
    rw [show totalMinted s' = 0 from h0]
    exact this
  | mint hc hr hid htotal hac =>
    have hmax := toNat_ne_of_not_wraps hw hc hr
    have hsucc : (totalMinted s').toNat = (totalMinted s).toNat + 1 := by
      rw [show totalMinted s' = _ from htotal, toNat_succ hmax]
    refine ⟨hentries, fun n hn => ?_, fun h => absurd (hac ▸ h) hr.1⟩
    rcases (hstep n).appears hn with hn | hid'
    · have := hok.range n hn
      omega
    · obtain rfl : totalMinted s + 1 = n := Option.some.inj (hid.symm.trans hid')
      rw [toNat_succ hmax]
      omega
  | idle hid htotal hm =>
    refine ⟨hentries, fun n hn => ?_, fun h => htotal.trans (hok.fresh (hm h))⟩
    rw [show totalMinted s' = totalMinted s from htotal]
    refine hok.range n (((hstep n).appears hn).resolve_right fun h => ?_)
    rw [hid] at h
    cases h

end

section
variable {is : List (Env × Call)}

/-- In every run, every step does to the counter what a step may do. -/
theorem counterStep_of_mem {t : InvoiceStep}
    (ht : t ∈ invoiceContract.trace invoiceContract.init is) : CounterStep t := by
  refine Machine.forall_mem_trace (P := CounterStep) ?_ ?_ t ht
  · intro i s r s' hi
    exact counterStep_of_invoke hi
  · intro i s e
    exact .idle rfl rfl id

/-- In every run in which no mint wraps, every step finds a well-formed store. -/
theorem storeOK_pre (hw : ∀ t ∈ invoiceContract.trace invoiceContract.init is, ¬ Wraps t)
    {t : InvoiceStep} (ht : t ∈ invoiceContract.trace invoiceContract.init is) : StoreOK t.pre :=
  Machine.invariant_pre_of (m := invoiceContract) (C := fun t => ¬ Wraps t) StoreOK.empty
    (fun _ _ _ _ hok hw h => hok.step hw h) hw ht

/-- In every run in which no mint wraps, the store is well formed. -/
theorem storeOK_exec (hw : ∀ t ∈ invoiceContract.trace invoiceContract.init is, ¬ Wraps t) :
    StoreOK (invoiceContract.exec invoiceContract.init is) :=
  Machine.invariant_of (m := invoiceContract) (C := fun t => ¬ Wraps t) StoreOK.empty
    (fun _ _ _ _ hok hw h => hok.step hw h) hw

/-- In every run in which no mint wraps, every step is a step in the life of every invoice. -/
theorem entryStep_of_mem (hw : ∀ t ∈ invoiceContract.trace invoiceContract.init is, ¬ Wraps t)
    {t : InvoiceStep} (ht : t ∈ invoiceContract.trace invoiceContract.init is) (n : UInt64) :
    EntryStep t n (entry t.pre n) (entry t.post n) := by
  refine Machine.forall_mem_trace (m := invoiceContract)
    (P := fun t => StoreOK t.pre → ¬ Wraps t → EntryStep t n (entry t.pre n) (entry t.post n))
    ?_ ?_ t ht (storeOK_pre hw ht) (hw t ht)
  · intro i s r s' hi hok hwt
    exact entryStep_of_invoke hok hwt hi n
  · intro i s e _ _
    exact .idle fun h => nomatch h

end

end Invoicing

end InvoiceFi
