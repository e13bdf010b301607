import InvoiceFi.Lib.Async

/-!
# What programs rely on and guarantee

The programs of a service rely on the answers that they get, and guarantee what they do in turn, so
that the answers of all of them stay right. `Async.Keeps guar rely results` says so of a program: as
long as every answer is one that it relies on, every action it performs is one of `guar`, and what
it returns is one of `results`. It holds of a program if it holds of its parts (`Async.Keeps.bind`,
`Async.Keeps.tryCatch`).

Where the guaranteed actions keep an invariant of the state and give the answers that are relied on
(`Guarantee`), the invariant holds in every run, however the calls are interleaved, and every call
that ends returns one of its results (`Guarantee.exec`).

Where the state keeps what each call has left, by its number, a call that has not been made has left
nothing; `Outline.exec_unmade` is the rule of outlines that rely on that.
-/

namespace InvoiceFi

namespace Async

variable {A : Type} {R : A → Type} {ε α β : Type}

/-- As long as every answer is one that `rely` allows, every action of the program is one of `guar`,
and its result is one of `results`. -/
def Keeps (guar : A → Prop) (rely : (a : A) → Except ε (R a) → Prop)
    (results : Except ε α → Prop) : Async A R ε α → Prop
  | .done r => results r
  | .await a k => guar a ∧ ∀ r, rely a r → (k r).Keeps guar rely results

variable {guar : A → Prop} {rely : (a : A) → Except ε (R a) → Prop}
  {results results' : Except ε α → Prop}

/-- A single action. -/
theorem keeps_perform {a : A} {results : Except ε (R a) → Prop} (ha : guar a)
    (hr : ∀ r, rely a r → results r) :
    (perform a : Async A R ε (R a)).Keeps guar rely results :=
  ⟨ha, hr⟩

theorem Keeps.bind {p : Async A R ε α} {f : α → Async A R ε β} {results' : Except ε β → Prop}
    (hp : p.Keeps guar rely results)
    (hf : ∀ a, results (.ok a) → (f a).Keeps guar rely results')
    (he : ∀ e, results (.error e) → results' (.error e)) :
    (p >>= f).Keeps guar rely results' := by
  induction p with
  | done r =>
    cases r with
    | ok a => exact hf a hp
    | error e => exact he e hp
  | await a k ih => exact ⟨hp.1, fun r hrely => ih r (hp.2 r hrely)⟩

theorem Keeps.tryCatch {p : Async A R ε α} {h : ε → Async A R ε α}
    (hp : p.Keeps guar rely results) (hok : ∀ a, results (.ok a) → results' (.ok a))
    (hh : ∀ e, results (.error e) → (h e).Keeps guar rely results') :
    (tryCatch p h).Keeps guar rely results' := by
  induction p with
  | done r =>
    cases r with
    | ok a => exact hok a hp
    | error e => exact hh e hp
  | await a k ih => exact ⟨hp.1, fun r hrely => ih r (hp.2 r hrely)⟩

/-! ### Programs that promise something of what they return, if they return at all -/

/-- If the result is a value, it is one of `P`. -/
def Returns (P : α → Prop) : Except ε α → Prop
  | .ok a => P a
  | .error _ => True

theorem Keeps.bind_returns {p : Async A R ε α} {f : α → Async A R ε β} {P : α → Prop}
    {Q : β → Prop} (hp : p.Keeps guar rely (Returns P))
    (hf : ∀ a, P a → (f a).Keeps guar rely (Returns Q)) :
    (p >>= f).Keeps guar rely (Returns Q) :=
  hp.bind hf fun _ _ => trivial

theorem Keeps.ofExcept_bind_returns {x : Except ε α} {f : α → Async A R ε β} {Q : β → Prop}
    (hf : ∀ a, x = .ok a → (f a).Keeps guar rely (Returns Q)) :
    ((Async.ofExcept x : Async A R ε α) >>= f).Keeps guar rely (Returns Q) := by
  cases x with
  | ok a => exact hf a rfl
  | error e => trivial

/-! ### Programs inside larger ones -/

/-- The program with other actions in place of its own, whose answers are read back. -/
def embed {B : Type} {R' : B → Type} (g : A → B)
    (back : (a : A) → Except ε (R' (g a)) → Except ε (R a)) : Async A R ε α → Async B R' ε α
  | .done r => .done r
  | .await a k => .await (g a) fun r => (k (back a r)).embed g back

theorem Keeps.embed {B : Type} {R' : B → Type} {g : A → B}
    {back : (a : A) → Except ε (R' (g a)) → Except ε (R a)} {guar : B → Prop}
    {rely' : (b : B) → Except ε (R' b) → Prop} {p : Async A R ε α}
    (h : p.Keeps (fun a => guar (g a)) rely results)
    (hrely : ∀ a r, rely' (g a) r → rely a (back a r)) :
    (p.embed g back).Keeps guar rely' results := by
  induction p with
  | done r => exact h
  | await a k ih => exact ⟨h.1, fun r hr => ih _ (h.2 _ (hrely a r hr))⟩

end Async

/-- What the calls of a service guarantee: `main` says it of the programs, and `perform` that the
actions they guarantee keep the invariant and give the answers they rely on. -/
structure Guarantee {σ ι A : Type} {R : A → Type} {ε α C O : Type}
    (sv : Service σ ι A R ε α C O) where
  Inv : σ → Prop
  guar : A → Prop
  rely : (a : A) → Except ε (R a) → Prop
  results : Except ε α → Prop
  main : ∀ i, (sv.main i).Keeps guar rely results
  perform : ∀ (k : Nat) {a : A} (c : C) {s : σ}, guar a → Inv s →
    Inv (sv.perform k a c s).2 ∧ rely a (sv.perform k a c s).1
  environ : ∀ (o : O) {s : σ}, Inv s → Inv (sv.environ o s)

namespace Guarantee

variable {σ ι A : Type} {R : A → Type} {ε α C O : Type} {sv : Service σ ι A R ε α C O}

/-- A guarantee as a proof outline, which asserts what is left to be guaranteed. -/
def outline (g : Guarantee sv) : Outline sv fun _ _ => True where
  Inv := g.Inv
  At _ _ q _ := q.Keeps g.guar g.rely g.results
  start _ _ _ := g.main _
  step := by
    intro p k c i a f _ hk hinv hat
    have hq : (Async.await a f).Keeps g.guar g.rely g.results := hat k _ hk
    obtain ⟨hinv', hrely⟩ := g.perform k c hq.1 hinv
    exact ⟨hinv', hq.2 _ hrely⟩
  stable _ _ _ hat _ hcall := hat _ _ hcall
  environ _ hinv hat := ⟨g.environ _ hinv, fun k call hcall => hat k call hcall⟩

/-- **The rule of guarantees.** In every run, the invariant holds, and every call that has ended has
returned one of the results. -/
theorem exec (g : Guarantee sv) {s : σ} (hs : g.Inv s) (ms : List (Move ι C O)) :
    g.Inv ((sv.machine s).exec ⟨s, []⟩ ms).state ∧
    ∀ (k : Nat) (i : ι) (r : Except ε α),
      ((sv.machine s).exec ⟨s, []⟩ ms).calls[k]? = some ⟨i, .done r⟩ → g.results r := by
  obtain ⟨hinv, hat⟩ : g.outline.Inv ((sv.machine s).exec ⟨s, []⟩ ms).state ∧
      ((sv.machine s).exec ⟨s, []⟩ ms).Meets g.outline.At :=
    g.outline.exec (p := ⟨s, []⟩) hs Pool.meets_nil fun _ _ => trivial
  exact ⟨hinv, fun k i r hcall => hat k _ hcall⟩

end Guarantee

/-! ## Calls that have not been made -/

section
variable {σ ι A : Type} {R : A → Type} {ε α C O : Type} {sv : Service σ ι A R ε α C O}

/-- `P` holds of every call that has not been made. -/
def Pool.Unmade (P : Nat → σ → Prop) (p : Pool σ ι A R ε α) : Prop :=
  ∀ k, p.calls.length ≤ k → P k p.state

/-- A call that has not been made has done nothing: what the others keep holds of it. -/
theorem Service.unmade_move {P : Nat → σ → Prop}
    (hstep : ∀ j k a c s, j ≠ k → P k s → P k (sv.perform j a c s).2)
    (henviron : ∀ k o s, P k s → P k (sv.environ o s)) {m : Move ι C O}
    {p : Pool σ ι A R ε α} (h : p.Unmade P) : (sv.move m p).Unmade P := by
  intro k hk
  rcases Service.move_cases sv m p with ⟨i, -, hp⟩ | ⟨j, c, i, a, f, -, hj, hp⟩ | ⟨o, -, hp⟩ |
    ⟨j, c, -, -, hp⟩ <;> rw [hp] at hk ⊢
  · rw [List.length_append] at hk
    exact h k (Nat.le_of_add_right_le hk)
  · rw [List.length_set] at hk
    have hlt : j < p.calls.length := (List.getElem?_eq_some_iff.1 hj).1
    exact hstep j k a c p.state (Nat.ne_of_lt (Nat.lt_of_lt_of_le hlt hk)) (h k hk)
  · exact henviron k o p.state (h k hk)
  · exact h k hk

/-- **Proof outlines of numbered calls.** An outline may rely on `P` for the calls that have not
been made, if the other calls keep it. -/
theorem Outline.exec_unmade {P : Nat → σ → Prop} (o : Outline sv fun p _ => p.Unmade P) {s : σ}
    (hinv : o.Inv s) (h0 : ∀ k, P k s)
    (hstep : ∀ j k a c s, j ≠ k → P k s → P k (sv.perform j a c s).2)
    (henviron : ∀ k w s, P k s → P k (sv.environ w s)) (ms : List (Move ι C O)) :
    o.Inv ((sv.machine s).exec ⟨s, []⟩ ms).state ∧ ((sv.machine s).exec ⟨s, []⟩ ms).Meets o.At := by
  refine (Machine.invariant_of
    (I := fun p : Pool σ ι A R ε α => p.Unmade P ∧ o.Inv p.state ∧ p.Meets o.At)
    (C := fun _ => True) ⟨fun k _ => h0 k, hinv, Pool.meets_nil⟩ ?_ fun _ _ => trivial).2
  rintro m p u p' ⟨hunmade, hinv, hat⟩ - hi
  rw [Service.post_of_invoke hi]
  exact ⟨Service.unmade_move hstep henviron hunmade, o.move hunmade hinv hat⟩

end

end InvoiceFi
