/-!
# Fallible computations

The programs modelled here fail early: a guard returns an error, a checked operation returns an
error, and everything after it is skipped. They are written in `Except`, one guard or one checked
operation a line, and read back by peeling one line at a time: `bind_eq_ok` splits a
successful sequence into its successful parts and `rejectIf_eq_ok` turns a passed guard into the
fact it checked. A loop that cannot fail is read back whole (`foldlM_eq_ok`).
-/

namespace InvoiceFi

variable {ε ε' α β : Type}

/-- A sequence succeeds exactly when its first part does and the rest succeeds on its value. -/
@[simp] theorem bind_eq_ok {x : Except ε α} {f : α → Except ε β} {b : β} :
    (x >>= f) = .ok b ↔ ∃ a, x = .ok a ∧ f a = .ok b := by
  cases x with
  | error e => simp [bind, Except.bind]
  | ok a => simp [bind, Except.bind]

/-- A sequence after a success is the rest at its value. -/
theorem ok_bind (a : α) (f : α → Except ε β) : ((.ok a : Except ε α) >>= f) = f a := rfl

/-- `pure` is success with its value. The value is on the right: in a specification it is the
state a program leaves. -/
@[simp] theorem pure_eq_ok {a b : α} : (pure a : Except ε α) = .ok b ↔ b = a := by
  simp [pure, Except.pure, eq_comm]

/-- A mapped computation succeeds exactly when the computation does. -/
@[simp] theorem map_eq_ok {x : Except ε α} {f : α → β} {b : β} :
    f <$> x = .ok b ↔ ∃ a, x = .ok a ∧ b = f a := by
  cases x with
  | error e => simp [Functor.map, Except.map]
  | ok a => simp [Functor.map, Except.map, eq_comm]

/-- Translating the error of a computation does not change when it succeeds. -/
@[simp] theorem mapError_eq_ok {f : ε → ε'} {x : Except ε α} {a : α} :
    x.mapError f = .ok a ↔ x = .ok a := by
  cases x with
  | error e => exact iff_of_false (fun h => by cases h) (fun h => by cases h)
  | ok b =>
    change (Except.ok b : Except ε' α) = .ok a ↔ _
    rw [Except.ok.injEq, Except.ok.injEq]

/-- The early return `if c { return Err(e) }`. -/
def rejectIf (c : Prop) [Decidable c] (e : ε) : Except ε Unit :=
  if c then .error e else .ok ()

/-- A guard passes exactly when what it rejects is false. -/
@[simp] theorem rejectIf_eq_ok {c : Prop} [Decidable c] {e : ε} {u : Unit} :
    rejectIf c e = .ok u ↔ ¬ c := by
  unfold rejectIf
  split <;> simp_all

/-- The early return `if c { return Ok(None) }`: a value is returned exactly when the rest returns
it and `c` is false. -/
@[simp] theorem ite_none_eq_ok_some {c : Prop} [Decidable c] {x : Except ε (Option α)} {a : α} :
    (if c then pure none else x) = .ok (some a) ↔ ¬ c ∧ x = .ok (some a) := by
  by_cases h : c
  · simp [h]
  · simp [h]

/-- Reading an entry that must be present, `ok_or(e)?`. -/
def okOr (o : Option α) (e : ε) : Except ε α :=
  match o with
  | some a => .ok a
  | none => .error e

/-- The read succeeds exactly when the entry is present, with the entry. -/
@[simp] theorem okOr_eq_ok {o : Option α} {e : ε} {a : α} :
    okOr o e = .ok a ↔ o = some a := by
  cases o <;> simp [okOr]

/-- A loop whose steps all succeed, as long as the invariant holds, is the loop of their values and
keeps the invariant. -/
theorem foldlM_eq_ok {f : α → β → Except ε α} {g : α → β → α} {I : α → Prop} {l : List β}
    (hstep : ∀ a, ∀ b ∈ l, I a → f a b = .ok (g a b) ∧ I (g a b)) {a : α} (ha : I a) :
    l.foldlM f a = .ok (l.foldl g a) ∧ I (l.foldl g a) := by
  induction l generalizing a with
  | nil => exact ⟨rfl, ha⟩
  | cons b l ih =>
    obtain ⟨hb, hI⟩ := hstep a b (.head _) ha
    rw [List.foldlM_cons, hb, List.foldl_cons]
    exact ih (fun a c hc => hstep a c (.tail _ hc)) hI

/-- A sequence fails exactly when its first part does, or the rest does on its value. -/
theorem bind_eq_error {x : Except ε α} {f : α → Except ε β} {e : ε} :
    (x >>= f) = .error e ↔ x = .error e ∨ ∃ a, x = .ok a ∧ f a = .error e := by
  cases x with
  | error e' => simp [bind, Except.bind]
  | ok a => simp [bind, Except.bind]

/-- A guard fails with its own error. -/
theorem rejectIf_eq_error {c : Prop} [Decidable c] {e e' : ε} :
    rejectIf c e = .error e' ↔ c ∧ e' = e := by
  unfold rejectIf
  split <;> simp_all [eq_comm]

/-- The read of a missing entry fails with its own error. -/
theorem okOr_eq_error {o : Option α} {e e' : ε} :
    okOr o e = .error e' ↔ o = none ∧ e' = e := by
  cases o <;> simp [okOr, eq_comm]

/-- A computation that returns a value succeeded. -/
theorem isOk_iff {x : Except ε α} : x.isOk = true ↔ ∃ a, x = .ok a := by
  cases x <;> simp [Except.isOk, Except.toBool]

end InvoiceFi
