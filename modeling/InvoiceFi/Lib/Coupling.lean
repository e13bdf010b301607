import InvoiceFi.Lib.Async
import Mathlib.Data.List.Forall2

/-!
# Two runs of a service side by side

A property that compares two runs of one service, such as that an observer cannot tell them apart,
is proved by a coupling: a relation of the two states, and for every call a relation of what is left
of its program in the one run and in the other. Both runs make the same moves, or, where the state
changes from outside, moves that belong together (`SameMove`). The step of one call keeps the
relation of the states, leads to related rests, and keeps the relations of all other calls; then
`Coupling.exec` has them hold after the two runs.

`Async.Blind` is what makes two rests of one program stay equal: after two answers that it is not to
tell apart, the program goes on in the same way. It holds of a program if it holds of its parts
(`Async.Blind.bind`, `Async.Blind.tryCatch`), or if no answer is to be hidden from it
(`Async.Blind.of_only`).
-/

namespace InvoiceFi

namespace Async

variable {A : Type} {R : A → Type} {ε α β σ C : Type}

/-! ## Programs that do not tell answers apart -/

/-- Every action the program may still await is one of `acts`, and it goes on in the same way after
any two answers that `same` relates. -/
def Blind (acts : A → Prop) (same : (a : A) → Except ε (R a) → Except ε (R a) → Prop) :
    Async A R ε α → Prop
  | .done _ => True
  | .await a k => acts a ∧ ∀ r r', same a r r' → k r = k r' ∧ (k r).Blind acts same

variable {acts acts' : A → Prop} {same : (a : A) → Except ε (R a) → Except ε (R a) → Prop}

theorem Blind.mono {p : Async A R ε α} (h : p.Blind acts same) (ha : ∀ a, acts a → acts' a) :
    p.Blind acts' same := by
  induction p with
  | done r => trivial
  | await a k ih =>
    refine ⟨ha a h.1, fun r r' hr => ?_⟩
    obtain ⟨heq, hblind⟩ := h.2 r r' hr
    exact ⟨heq, ih r hblind⟩

theorem Blind.bind {p : Async A R ε α} {f : α → Async A R ε β} (hp : p.Blind acts same)
    (hf : ∀ a, (f a).Blind acts same) : (p >>= f).Blind acts same := by
  induction p with
  | done r =>
    cases r with
    | ok a => exact hf a
    | error e => trivial
  | await a k ih =>
    refine ⟨hp.1, fun r r' hr => ?_⟩
    obtain ⟨heq, hblind⟩ := hp.2 r r' hr
    exact ⟨congrArg (· >>= f) heq, ih r hblind⟩

theorem Blind.tryCatch {p : Async A R ε α} {h : ε → Async A R ε α} (hp : p.Blind acts same)
    (hh : ∀ e, (h e).Blind acts same) : (tryCatch p h).Blind acts same := by
  induction p with
  | done r =>
    cases r with
    | ok a => trivial
    | error e => exact hh e
  | await a k ih =>
    refine ⟨hp.1, fun r r' hr => ?_⟩
    obtain ⟨heq, hblind⟩ := hp.2 r r' hr
    exact ⟨congrArg (fun q => MonadExcept.tryCatch q h) heq, ih r hblind⟩

/-- A program goes on in the same way if the answers it is not to tell apart are the same. -/
theorem Blind.of_only {results : Except ε α → Prop} {p : Async A R ε α}
    (hp : p.Only acts results) (ha : ∀ a, acts a → acts' a)
    (hsame : ∀ a, acts a → ∀ r r', same a r r' → r = r') : p.Blind acts' same := by
  induction p with
  | done r => trivial
  | await a k ih =>
    refine ⟨ha a hp.1, fun r r' hr => ⟨?_, ih r (hp.2 r)⟩⟩
    rw [hsame a hp.1 r r' hr]

/-! ## One step of a program -/

/-- A program that has been let go on, and the state. -/
def advance (perform : (a : A) → C → σ → Except ε (R a) × σ) (c : C) :
    Async A R ε α → σ → Async A R ε α × σ
  | .done r, s => (.done r, s)
  | .await a k, s => (k (perform a c s).1, (perform a c s).2)

end Async

section

variable {σ ι A : Type} {R : A → Type} {ε α C O : Type} {sv : Service σ ι A R ε α C O}
  {p p₁ p₂ : Pool σ ι A R ε α} {k : Nat} {c : C} {i : ι} {q : Async A R ε α}

/-- What a call does that is let go on. -/
theorem Service.move_resume (hk : p.calls[k]? = some ⟨i, q⟩) :
    sv.move (.resume k c) p =
      { state := (q.advance (sv.perform k) c p.state).2
        calls := p.calls.set k ⟨i, (q.advance (sv.perform k) c p.state).1⟩ } := by
  cases q with
  | await a f => rw [move, hk]; rfl
  | done r =>
    obtain ⟨hlt, heq⟩ := List.getElem?_eq_some_iff.1 hk
    have hset : p.calls.set k ⟨i, .done r⟩ = p.calls := by
      rw [← heq]
      exact List.set_getElem_self hlt
    rw [move, hk]
    simp only [Async.advance, hset]

theorem Service.move_resume_none (hk : p.calls[k]? = none) : sv.move (.resume k c) p = p := by
  rw [move, hk]

/-! ## Couplings -/

/-- The moves belong together: they are the same, or changes from outside that are related. -/
inductive SameMove (Outside : O → O → Prop) : Move ι C O → Move ι C O → Prop
  | start (i : ι) : SameMove Outside (.start i) (.start i)
  | resume (k : Nat) (c : C) : SameMove Outside (.resume k c) (.resume k c)
  | environ {o₁ o₂ : O} (h : Outside o₁ o₂) : SameMove Outside (.environ o₁) (.environ o₂)

theorem SameMove.refl {Outside : O → O → Prop} (h : ∀ o, Outside o o) :
    (m : Move ι C O) → SameMove Outside m m
  | .start i => .start i
  | .resume k c => .resume k c
  | .environ o => .environ (h o)

/-- Moves that belong together to a list with a middle have one as well. -/
theorem SameMove.split {Outside : O → O → Prop} {ms₁ ms₂ ms : List (Move ι C O)} {m : Move ι C O}
    (h : List.Forall₂ (SameMove Outside) (ms₁ ++ m :: ms₂) ms) :
    ∃ ms₁' m' ms₂', ms = ms₁' ++ m' :: ms₂' ∧ List.Forall₂ (SameMove Outside) ms₁ ms₁' ∧
      SameMove Outside m m' := by
  induction ms₁ generalizing ms with
  | nil =>
    cases h with
    | @cons _ m' _ ms₂' hm hrest => exact ⟨[], m', ms₂', rfl, .nil, hm⟩
  | cons m₁ ms₁ ih =>
    cases h with
    | @cons _ m₁' _ ms' hm₁ hrest =>
      obtain ⟨ms₁', m', ms₂', rfl, hbefore, hm⟩ := ih hrest
      exact ⟨m₁' :: ms₁', m', ms₂', rfl, .cons hm₁ hbefore, hm⟩

/-- A coupling of two runs of a service whose moves all meet `Ok`: a relation `Inv` of the states,
and a relation `At` of what is left of the program of a call in the one run and in the other. -/
structure Coupling (sv : Service σ ι A R ε α C O) (Ok : Pool σ ι A R ε α → Move ι C O → Prop)
    (Outside : O → O → Prop) where
  Inv : σ → σ → Prop
  At : ι → Async A R ε α → Async A R ε α → σ → σ → Prop
  /-- The program of a call is related to itself. -/
  start : ∀ {p₁ p₂ : Pool σ ι A R ε α} {i : ι}, Ok p₁ (.start i) → Ok p₂ (.start i) →
    Inv p₁.state p₂.state → At i (sv.main i) (sv.main i) p₁.state p₂.state
  /-- A step keeps the states related, leads to related rests, and keeps the relations of the other
  calls. -/
  step : ∀ {p₁ p₂ : Pool σ ι A R ε α} {k : Nat} {c : C} {i : ι} {q₁ q₂ : Async A R ε α},
    Ok p₁ (.resume k c) → Ok p₂ (.resume k c) → p₁.calls[k]? = some ⟨i, q₁⟩ →
    p₂.calls[k]? = some ⟨i, q₂⟩ → Inv p₁.state p₂.state → At i q₁ q₂ p₁.state p₂.state →
    let r₁ := q₁.advance (sv.perform k) c p₁.state
    let r₂ := q₂.advance (sv.perform k) c p₂.state
    Inv r₁.2 r₂.2 ∧ At i r₁.1 r₂.1 r₁.2 r₂.2 ∧
      ∀ i' q q', At i' q q' p₁.state p₂.state → At i' q q' r₁.2 r₂.2
  /-- So do related changes from outside. -/
  environ : ∀ {o₁ o₂ : O} {s₁ s₂ : σ}, Outside o₁ o₂ → Inv s₁ s₂ →
    Inv (sv.environ o₁ s₁) (sv.environ o₂ s₂) ∧
      ∀ i q q', At i q q' s₁ s₂ → At i q q' (sv.environ o₁ s₁) (sv.environ o₂ s₂)

namespace Coupling

variable {Ok : Pool σ ι A R ε α → Move ι C O → Prop} {Outside : O → O → Prop}

/-- The two pools are coupled: they hold the same calls, and the states and the rests of every call
are related. -/
structure Holds (o : Coupling sv Ok Outside) (p₁ p₂ : Pool σ ι A R ε α) : Prop where
  inv : o.Inv p₁.state p₂.state
  length : p₁.calls.length = p₂.calls.length
  rests : ∀ (k : Nat) (call₁ call₂ : Call ι A R ε α), p₁.calls[k]? = some call₁ →
    p₂.calls[k]? = some call₂ → call₁.input = call₂.input ∧
      o.At call₁.input call₁.rest call₂.rest p₁.state p₂.state

/-- A call of the one pool is one of the other. -/
theorem Holds.get {o : Coupling sv Ok Outside} (h : o.Holds p₁ p₂) {k : Nat}
    {call : Call ι A R ε α} (hk : p₁.calls[k]? = some call) :
    ∃ call', p₂.calls[k]? = some call' := by
  have hlt : k < p₂.calls.length := h.length ▸ (List.getElem?_eq_some_iff.1 hk).1
  exact ⟨_, List.getElem?_eq_getElem hlt⟩

/-- A call whose rests are equal if they are related is the same in both pools. -/
theorem Holds.get_iff {o : Coupling sv Ok Outside} (h : o.Holds p₁ p₂) {k : Nat}
    {call : Call ι A R ε α}
    (heq : ∀ {q₁ q₂ : Async A R ε α}, o.At call.input q₁ q₂ p₁.state p₂.state → q₁ = q₂) :
    p₁.calls[k]? = some call ↔ p₂.calls[k]? = some call := by
  have hsame : ∀ call₁ call₂, p₁.calls[k]? = some call₁ → p₂.calls[k]? = some call₂ →
      call₁.input = call.input → call₁ = call₂ := by
    rintro ⟨i₁, q₁⟩ ⟨i₂, q₂⟩ hk₁ hk₂ hinput
    obtain ⟨hi, hat⟩ := h.rests k _ _ hk₁ hk₂
    rw [hinput] at hat
    exact congrArg₂ Call.mk hi (heq hat)
  constructor
  · intro hk₁
    have hlt : k < p₂.calls.length := h.length ▸ (List.getElem?_eq_some_iff.1 hk₁).1
    have hk₂ := List.getElem?_eq_getElem hlt
    rw [hk₂, hsame call _ hk₁ hk₂ rfl]
  · intro hk₂
    have hlt : k < p₁.calls.length := h.length ▸ (List.getElem?_eq_some_iff.1 hk₂).1
    have hk₁ := List.getElem?_eq_getElem hlt
    rw [hk₁, hsame _ call hk₁ hk₂ (h.rests k _ _ hk₁ hk₂).1]

/-- Two pools without calls. -/
theorem holds_nil (o : Coupling sv Ok Outside) {s₁ s₂ : σ} (h : o.Inv s₁ s₂) :
    o.Holds ⟨s₁, []⟩ ⟨s₂, []⟩ :=
  ⟨h, rfl, fun _ _ _ h => by cases h⟩

/-- A call is made in both pools. -/
theorem Holds.start {o : Coupling sv Ok Outside} (h : o.Holds p₁ p₂) (hok₁ : Ok p₁ (.start i))
    (hok₂ : Ok p₂ (.start i)) : o.Holds (sv.move (.start i) p₁) (sv.move (.start i) p₂) := by
  refine ⟨h.inv, ?_, fun k call₁ call₂ hk₁ hk₂ => ?_⟩
  · simp only [Service.move, List.length_append, h.length, List.length_singleton]
  · simp only [Service.move] at hk₁ hk₂ ⊢
    rcases Nat.lt_or_ge k p₁.calls.length with hlt | hge
    · rw [List.getElem?_append_left hlt] at hk₁
      rw [List.getElem?_append_left (h.length ▸ hlt)] at hk₂
      exact h.rests k call₁ call₂ hk₁ hk₂
    · rw [List.getElem?_append_right hge, List.getElem?_singleton] at hk₁
      rw [List.getElem?_append_right (h.length ▸ hge), List.getElem?_singleton] at hk₂
      split at hk₁
      · split at hk₂
        · cases hk₁
          cases hk₂
          exact ⟨rfl, o.start hok₁ hok₂ h.inv⟩
        · cases hk₂
      · cases hk₁

/-- A call goes on in both pools. -/
theorem Holds.resume {o : Coupling sv Ok Outside} (h : o.Holds p₁ p₂)
    (hok₁ : Ok p₁ (.resume k c)) (hok₂ : Ok p₂ (.resume k c)) :
    o.Holds (sv.move (.resume k c) p₁) (sv.move (.resume k c) p₂) := by
  cases hk₁ : p₁.calls[k]? with
  | none =>
    have hk₂ : p₂.calls[k]? = none := by
      rw [List.getElem?_eq_none_iff, ← h.length]
      exact List.getElem?_eq_none_iff.1 hk₁
    rw [Service.move_resume_none hk₁, Service.move_resume_none hk₂]
    exact h
  | some call₁ =>
    have hlt₁ : k < p₁.calls.length := (List.getElem?_eq_some_iff.1 hk₁).1
    have hlt₂ : k < p₂.calls.length := h.length ▸ hlt₁
    obtain ⟨i, q₁⟩ := call₁
    obtain ⟨⟨i₂, q₂⟩, hk₂⟩ : ∃ call₂, p₂.calls[k]? = some call₂ :=
      ⟨_, List.getElem?_eq_getElem hlt₂⟩
    obtain ⟨hi, hat⟩ := h.rests k _ _ hk₁ hk₂
    cases hi
    obtain ⟨hinv', hat', hothers⟩ := o.step hok₁ hok₂ hk₁ hk₂ h.inv hat
    rw [Service.move_resume hk₁, Service.move_resume hk₂]
    refine ⟨hinv', ?_, fun j call₁ call₂ hj₁ hj₂ => ?_⟩
    · simp only [List.length_set, h.length]
    · rcases eq_or_ne k j with rfl | hne
      · simp only [List.getElem?_set_self hlt₁] at hj₁
        simp only [List.getElem?_set_self hlt₂] at hj₂
        cases hj₁
        cases hj₂
        exact ⟨rfl, hat'⟩
      · simp only [List.getElem?_set_ne hne] at hj₁ hj₂
        obtain ⟨hi, hother⟩ := h.rests j call₁ call₂ hj₁ hj₂
        exact ⟨hi, hothers _ _ _ hother⟩

/-- The states change from outside. -/
theorem Holds.environ {o : Coupling sv Ok Outside} (h : o.Holds p₁ p₂) {o₁ o₂ : O}
    (hout : Outside o₁ o₂) : o.Holds (sv.move (.environ o₁) p₁) (sv.move (.environ o₂) p₂) := by
  obtain ⟨hinv, hrests⟩ := o.environ hout h.inv
  refine ⟨hinv, h.length, fun k call₁ call₂ hk₁ hk₂ => ?_⟩
  obtain ⟨hi, hat⟩ := h.rests k call₁ call₂ hk₁ hk₂
  exact ⟨hi, hrests _ _ _ hat⟩

/-- Moves that belong together keep two pools coupled. -/
theorem move (o : Coupling sv Ok Outside) {m₁ m₂ : Move ι C O} (h : o.Holds p₁ p₂)
    (hm : SameMove Outside m₁ m₂) (hok₁ : Ok p₁ m₁) (hok₂ : Ok p₂ m₂) :
    o.Holds (sv.move m₁ p₁) (sv.move m₂ p₂) := by
  cases hm with
  | start i => exact h.start hok₁ hok₂
  | resume k c => exact h.resume hok₁ hok₂
  | environ hout => exact h.environ hout

/-- **The rule of couplings.** Two runs of moves that belong together, which all meet the condition,
stay coupled. -/
theorem exec (o : Coupling sv Ok Outside) {s₁ s₂ : σ} (h : o.Holds p₁ p₂)
    {ms₁ ms₂ : List (Move ι C O)} (hms : List.Forall₂ (SameMove Outside) ms₁ ms₂)
    (hok₁ : ∀ t ∈ (sv.machine s₁).trace p₁ ms₁, Ok t.pre t.input)
    (hok₂ : ∀ t ∈ (sv.machine s₂).trace p₂ ms₂, Ok t.pre t.input) :
    o.Holds ((sv.machine s₁).exec p₁ ms₁) ((sv.machine s₂).exec p₂ ms₂) := by
  induction hms generalizing p₁ p₂ with
  | nil => exact h
  | cons hm _ ih =>
    refine ih (o.move h hm ?_ ?_) ?_ ?_
    · exact hok₁ _ List.mem_cons_self
    · exact hok₂ _ List.mem_cons_self
    · exact fun t ht => hok₁ t (List.mem_cons_of_mem _ ht)
    · exact fun t ht => hok₂ t (List.mem_cons_of_mem _ ht)

end Coupling

end

end InvoiceFi
