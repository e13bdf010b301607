import InvoiceFi.Backend.Errors

/-!
# The runtime of the backend

What the services take from the world they run in: the statements of a database that may fail, and
the hash function of `crypto`. A statement takes effect as a whole or not at all, and the answer of
one that took effect may get lost, so that its caller sees the error of a lost connection.
-/

namespace InvoiceFi

namespace Backend

/-- How a statement fares: it succeeds, it fails, or it takes effect and its answer gets lost. -/
inductive Fault where
  | none
  | failed
  | lost
  deriving DecidableEq, Repr

/-- The error of a lost connection. -/
def connectionLost : Error := .database "Can't reach database server"

/-- A read. -/
def read {α : Type} (f : Fault) (a : α) : Except Error α :=
  if f = .none then .ok a else .error connectionLost

/-- A statement or a transaction: it takes effect as a whole, or not at all. -/
def transact {σ α : Type} (f : Fault) (body : σ → Except Error (α × σ)) (s : σ) :
    Except Error α × σ :=
  match f, body s with
  | .failed, _ => (.error connectionLost, s)
  | .none, .ok (a, s') => (.ok a, s')
  | .lost, .ok (_, s') => (.error connectionLost, s')
  | .none, .error e => (.error e, s)
  | .lost, .error e => (.error e, s)

/-- The SHA-256 of a text. Where a result rests on it that no two texts have one digest, it says
so. -/
structure Sha256 where
  digest : String → String

/-- A hash that is the identity. -/
def plainSha256 : Sha256 := ⟨fun text => text⟩

theorem plainSha256_injective : Function.Injective plainSha256.digest := fun _ _ h => h

/-! ## What a statement does -/

theorem read_eq_ok {α : Type} {f : Fault} {a b : α} (h : read f a = .ok b) : a = b := by
  unfold read at h
  split at h
  · exact Except.ok.inj h
  · cases h

/-- A read fails with a lost connection. -/
theorem read_eq_error {α : Type} {f : Fault} {a : α} {e : Error} (h : read f a = .error e) :
    e = connectionLost := by
  unfold read at h
  split at h
  · cases h
  · exact (Except.error.inj h).symm

/-- A transaction fails with a lost connection, or as its body does. -/
theorem transact_eq_error {σ α : Type} {f : Fault} {body : σ → Except Error (α × σ)} {s : σ}
    {e : Error} (h : (transact f body s).1 = .error e) :
    e = connectionLost ∨ body s = .error e := by
  unfold transact at h
  split at h
  · exact .inl (Except.error.inj h).symm
  · cases h
  · exact .inl (Except.error.inj h).symm
  · next hbody => exact .inr (hbody.trans (congrArg _ (Except.error.inj h)))
  · next hbody => exact .inr (hbody.trans (congrArg _ (Except.error.inj h)))

/-- A transaction has no effect, or the effect of its body. -/
theorem transact_cases {σ α : Type} (f : Fault) (body : σ → Except Error (α × σ)) (s : σ) :
    (∃ e, transact f body s = (.error e, s)) ∨
    (∃ a s', body s = .ok (a, s') ∧ f = .none ∧ transact f body s = (.ok a, s')) ∨
    (∃ a s', body s = .ok (a, s') ∧ f = .lost ∧
      transact f body s = (.error connectionLost, s')) := by
  unfold transact
  cases hb : body s with
  | error e =>
    cases f with
    | none => exact .inl ⟨e, rfl⟩
    | failed => exact .inl ⟨connectionLost, rfl⟩
    | lost => exact .inl ⟨e, rfl⟩
  | ok p =>
    cases f with
    | none => exact .inr (.inl ⟨p.1, p.2, rfl, rfl, rfl⟩)
    | failed => exact .inl ⟨connectionLost, rfl⟩
    | lost => exact .inr (.inr ⟨p.1, p.2, rfl, rfl, rfl⟩)

/-- What holds before a transaction and after its body holds after the transaction. -/
theorem transact_invariant {σ α : Type} {f : Fault} {body : σ → Except Error (α × σ)} {s : σ}
    {P : σ → Prop} (hs : P s) (hbody : ∀ a s', body s = .ok (a, s') → P s') :
    P (transact f body s).2 := by
  rcases transact_cases f body s with ⟨e, h⟩ | ⟨a, s', hb, -, h⟩ | ⟨a, s', hb, -, h⟩
  · rw [h]
    exact hs
  · rw [h]
    exact hbody a s' hb
  · rw [h]
    exact hbody a s' hb

/-- A transaction whose body succeeds takes effect unless it fails. -/
theorem transact_of_ok {σ α : Type} {f : Fault} {body : σ → Except Error (α × σ)} {s s' : σ} {a : α}
    (h : body s = .ok (a, s')) :
    (transact f body s).2 = if f = .failed then s else s' := by
  unfold transact
  rw [h]
  cases f <;> rfl

/-- A transaction whose body throws has no effect. -/
theorem transact_of_error {σ α : Type} {f : Fault} {body : σ → Except Error (α × σ)} {s : σ}
    {e : Error} (h : body s = .error e) : (transact f body s).2 = s := by
  unfold transact
  rw [h]
  cases f <;> rfl

end Backend

end InvoiceFi
