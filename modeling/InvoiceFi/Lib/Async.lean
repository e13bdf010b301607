import InvoiceFi.Lib.Machine

/-!
# Asynchronous programs and their interleavings

An asynchronous program runs on its own until it returns, throws or awaits an action of the world
outside, and goes on from there with the answer, which may be an error. `Async` is such a program
as the tree of its awaits; `do` blocks, `throw` and `try`/`catch` read as in the programs it models.
The world answers an action through `perform`, a function of the state, of the call that awaits and
of a choice that stands for everything the program does not control.

`Reaches` is a run of one program alone up to some point, and `Runs` a run to its end. A `Service`
is a set of programs that are called at any time: a `Pool` holds the state and every call made so
far with what is left of its program, and a `Move` starts a call, lets a waiting one go on, or
changes the state from outside, in any order (`Service.machine`).

`Only` bounds the actions and the results of a program whatever the answers are, and `MayAwait`
says that some answers lead it to an action.

The rules a development uses by name: `Reaches.await_inv`, `Reaches.done_inv`, `Reaches.bind_inv`
and `Reaches.tryCatch_inv` read a run of one program along the structure of the program,
`Reaches.invariant` is its rule of invariants, and `exists_runs` has every program run to its end;
`Ensures` says what a program ends with, and `Ensures.bind` and `Ensures.tryCatch` compose it;
`Service.move_cases` says what a move does, and `Service.entered` by which one a call has come to a
point of its program; `Service.answers_invariant` relates what a call has done to what is left of
it; `Outline` is the proof rule of interleavings. An outline gives an invariant of the state and an
assertion for every point a program can wait at; the step from that point establishes the assertion
of the next one and keeps the assertions of all other calls, and then `Outline.exec` has them hold
after every run.
-/

namespace InvoiceFi

/-- An asynchronous program: `A` the actions, `R` their answers, `ε` the errors. -/
inductive Async (A : Type) (R : A → Type) (ε α : Type) where
  | done (result : Except ε α)
  | await (a : A) (k : Except ε (R a) → Async A R ε α)

namespace Async

variable {A : Type} {R : A → Type} {ε α β : Type}

/-- A program followed by another one, which is skipped if the first throws. -/
protected def bind : Async A R ε α → (α → Async A R ε β) → Async A R ε β
  | .done (.ok a), f => f a
  | .done (.error e), _ => .done (.error e)
  | .await a k, f => .await a fun r => (k r).bind f

/-- A program whose errors are handled. -/
protected def tryCatch : Async A R ε α → (ε → Async A R ε α) → Async A R ε α
  | .done (.ok a), _ => .done (.ok a)
  | .done (.error e), h => h e
  | .await a k, h => .await a fun r => (k r).tryCatch h

instance : Monad (Async A R ε) where
  pure a := .done (.ok a)
  bind := Async.bind

instance : MonadExceptOf ε (Async A R ε) where
  throw e := .done (.error e)
  tryCatch := Async.tryCatch

@[simp] theorem pure_bind (a : α) (f : α → Async A R ε β) : (pure a : Async A R ε α) >>= f = f a :=
  rfl

@[simp] theorem throw_bind (e : ε) (f : α → Async A R ε β) :
    (throw e : Async A R ε α) >>= f = throw e := rfl

@[simp] theorem await_bind (a : A) (k : Except ε (R a) → Async A R ε α)
    (f : α → Async A R ε β) : (Async.await a k) >>= f = .await a fun r => k r >>= f := rfl

instance : LawfulMonad (Async A R ε) :=
  LawfulMonad.mk' _
    (fun p => by
      change (p >>= fun a => pure a) = p
      induction p with
      | done r => cases r <;> rfl
      | await a k ih => exact congrArg _ (funext ih))
    (fun _ _ => rfl)
    (fun p f g => by
      induction p with
      | done r => cases r <;> rfl
      | await a k ih => exact congrArg _ (funext ih))

/-- A loop inside a loop goes through the items of all the rounds. -/
theorem forM_flatMap {γ δ : Type} (xs : List γ) (g : γ → List δ) (f : δ → Async A R ε PUnit) :
    (forM xs fun x => forM (g x) f) = forM (xs.flatMap g) f := by
  induction xs with
  | nil => rfl
  | cons x xs ih => rw [List.forM_cons, List.flatMap_cons, List.forM_append, ih]

/-- Awaiting one action. -/
def perform (a : A) : Async A R ε (R a) := .await a .done

/-- A result computed without awaiting anything. -/
def ofExcept (x : Except ε α) : Async A R ε α := .done x

/-! ## What a program may still do -/

/-- Every action the program may still await is one of `acts`, and every result it may end with is
one of `results`, whatever the answers. -/
def Only (acts : A → Prop) (results : Except ε α → Prop) : Async A R ε α → Prop
  | .done r => results r
  | .await a k => acts a ∧ ∀ r, (k r).Only acts results

section
variable {acts acts' : A → Prop} {results results' : Except ε α → Prop}

theorem Only.mono {p : Async A R ε α} (h : p.Only acts results) (ha : ∀ a, acts a → acts' a)
    (hr : ∀ r, results r → results' r) : p.Only acts' results' := by
  induction p with
  | done r => exact hr r h
  | await a k ih => exact ⟨ha a h.1, fun r => ih r (h.2 r)⟩

theorem Only.bind {p : Async A R ε α} {f : α → Async A R ε β} {results' : Except ε β → Prop}
    (hp : p.Only acts results) (hf : ∀ a, results (.ok a) → (f a).Only acts results')
    (he : ∀ e, results (.error e) → results' (.error e)) : (p >>= f).Only acts results' := by
  induction p with
  | done r =>
    cases r with
    | ok a => exact hf a hp
    | error e => exact he e hp
  | await a k ih => exact ⟨hp.1, fun r => ih r (hp.2 r)⟩

/-- A computed result is followed by a program where it is a value. -/
theorem Only.ofExcept_bind {x : Except ε α} {f : α → Async A R ε β} {results : Except ε β → Prop}
    (hf : ∀ a, x = .ok a → (f a).Only acts results)
    (he : ∀ e, x = .error e → results (.error e)) :
    ((Async.ofExcept x : Async A R ε α) >>= f).Only acts results := by
  cases x with
  | ok a => exact hf a rfl
  | error e => exact he e rfl

theorem Only.tryCatch {p : Async A R ε α} {h : ε → Async A R ε α}
    (hp : p.Only acts results) (hok : ∀ a, results (.ok a) → results' (.ok a))
    (hh : ∀ e, results (.error e) → (h e).Only acts results') :
    (tryCatch p h).Only acts results' := by
  induction p with
  | done r =>
    cases r with
    | ok a => exact hok a hp
    | error e => exact hh e hp
  | await a k ih => exact ⟨hp.1, fun r => ih r (hp.2 r)⟩

end

/-- The program may await the action: some answers to the actions before lead to it. -/
inductive MayAwait (a : A) : Async A R ε α → Prop
  | here (k : Except ε (R a) → Async A R ε α) : MayAwait a (.await a k)
  | later {b : A} {k : Except ε (R b) → Async A R ε α} (r : Except ε (R b)) :
      MayAwait a (k r) → MayAwait a (.await b k)

/-- An action that a program may await is one of its actions. -/
theorem MayAwait.acts {acts : A → Prop} {results : Except ε α → Prop} {p : Async A R ε α} {a : A}
    (h : p.MayAwait a) (hp : p.Only acts results) : acts a := by
  induction h with
  | here k => exact hp.1
  | later r _ ih => exact ih (hp.2 r)

/-! ## A program alone -/

/-- The runs of one program up to some point: the actions performed with their choices, what is left
of the program, and the state. -/
inductive Reaches {σ C : Type} (perform : (a : A) → C → σ → Except ε (R a) × σ) :
    Async A R ε α → σ → List (A × C) → Async A R ε α → σ → Prop
  | refl (p : Async A R ε α) (s : σ) : Reaches perform p s [] p s
  | await {a : A} {k : Except ε (R a) → Async A R ε α} {s s' : σ} (c : C) {h : List (A × C)}
      {q : Async A R ε α} :
      Reaches perform (k (perform a c s).1) (perform a c s).2 h q s' →
      Reaches perform (.await a k) s ((a, c) :: h) q s'

/-- The runs of one program to its end, with its result. -/
def Runs {σ C : Type} (perform : (a : A) → C → σ → Except ε (R a) × σ) (p : Async A R ε α) (s : σ)
    (h : List (A × C)) (r : Except ε α) (s' : σ) : Prop :=
  Reaches perform p s h (.done r) s'

section
variable {σ C : Type} {perform : (a : A) → C → σ → Except ε (R a) × σ} {s s' : σ}
  {h : List (A × C)} {p q : Async A R ε α} {r : Except ε α}

/-- A program that has ended performs nothing more. -/
theorem Reaches.done_inv (hr : Reaches perform (.done r) s h q s') :
    h = [] ∧ q = .done r ∧ s' = s := by
  cases hr
  exact ⟨rfl, rfl, rfl⟩

/-- A waiting program waits, or performs its action and goes on with the answer. -/
theorem Reaches.await_inv {a : A} {k : Except ε (R a) → Async A R ε α}
    (hr : Reaches perform (.await a k) s h q s') :
    (h = [] ∧ q = .await a k ∧ s' = s) ∨
    ∃ c h', h = (a, c) :: h' ∧ Reaches perform (k (perform a c s).1) (perform a c s).2 h' q s' := by
  cases hr with
  | refl => exact .inl ⟨rfl, rfl, rfl⟩
  | await c hk => exact .inr ⟨c, _, rfl, hk⟩

/-- A program followed by another one is in the first one, or in the second one, or it has ended
because the first one threw. -/
theorem Reaches.bind_inv {f : α → Async A R ε β} {q : Async A R ε β}
    (hr : Reaches perform (p >>= f) s h q s') :
    (∃ p', q = p' >>= f ∧ Reaches perform p s h p' s' ∧ ∀ x, p' ≠ .done x) ∨
    (∃ a h₁ h₂ s₁, h = h₁ ++ h₂ ∧ Reaches perform p s h₁ (.done (.ok a)) s₁ ∧
      Reaches perform (f a) s₁ h₂ q s') ∨
    ∃ e, Reaches perform p s h (.done (.error e)) s' ∧ q = .done (.error e) := by
  induction p generalizing s h with
  | done r =>
    cases r with
    | ok a => exact .inr (.inl ⟨a, [], h, s, rfl, .refl _ _, hr⟩)
    | error e =>
      obtain ⟨rfl, rfl, rfl⟩ := Reaches.done_inv hr
      exact .inr (.inr ⟨e, .refl _ _, rfl⟩)
  | await a k ih =>
    rcases Reaches.await_inv hr with ⟨rfl, rfl, rfl⟩ | ⟨c, h', rfl, hk⟩
    · exact .inl ⟨.await a k, rfl, .refl _ _, nofun⟩
    · rcases ih _ hk with ⟨p', hq, hp, hne⟩ | ⟨b, h₁, h₂, s₁, rfl, hp, hf⟩ | ⟨e, hp, hq⟩
      · exact .inl ⟨p', hq, .await c hp, hne⟩
      · exact .inr (.inl ⟨b, (a, c) :: h₁, h₂, s₁, rfl, .await c hp, hf⟩)
      · exact .inr (.inr ⟨e, .await c hp, hq⟩)

/-- A program whose errors are handled is in its body, or has ended with the result of its body, or
is in the handler. -/
theorem Reaches.tryCatch_inv {g : ε → Async A R ε α}
    (hr : Reaches perform (tryCatch p g) s h q s') :
    (∃ p', q = tryCatch p' g ∧ Reaches perform p s h p' s' ∧ ∀ x, p' ≠ .done x) ∨
    (∃ a, Reaches perform p s h (.done (.ok a)) s' ∧ q = .done (.ok a)) ∨
    ∃ e h₁ h₂ s₁, h = h₁ ++ h₂ ∧ Reaches perform p s h₁ (.done (.error e)) s₁ ∧
      Reaches perform (g e) s₁ h₂ q s' := by
  induction p generalizing s h with
  | done r =>
    cases r with
    | ok a =>
      obtain ⟨rfl, rfl, rfl⟩ := Reaches.done_inv hr
      exact .inr (.inl ⟨a, .refl _ _, rfl⟩)
    | error e => exact .inr (.inr ⟨e, [], h, s, rfl, .refl _ _, hr⟩)
  | await a k ih =>
    rcases Reaches.await_inv hr with ⟨rfl, rfl, rfl⟩ | ⟨c, h', rfl, hk⟩
    · exact .inl ⟨.await a k, rfl, .refl _ _, nofun⟩
    · rcases ih _ hk with ⟨p', hq, hp, hne⟩ | ⟨b, hp, hq⟩ | ⟨e, h₁, h₂, s₁, rfl, hp, hg⟩
      · exact .inl ⟨p', hq, .await c hp, hne⟩
      · exact .inr (.inl ⟨b, .await c hp, hq⟩)
      · exact .inr (.inr ⟨e, (a, c) :: h₁, h₂, s₁, rfl, .await c hp, hg⟩)

/-- What the actions of a program keep holds at every point of its runs. -/
theorem Reaches.invariant {acts : A → Prop} {results : Except ε α → Prop} {I : σ → Prop}
    (hp : p.Only acts results) (hstep : ∀ a c s, acts a → I s → I (perform a c s).2) (hs : I s)
    (hr : Reaches perform p s h q s') : I s' := by
  induction hr with
  | refl p s => exact hs
  | await c _ ih => exact ih (hp.2 _) (hstep _ _ _ hp.1 hs)

/-- The actions of a run are those of its program, and what is left of the program awaits no
others. -/
theorem Reaches.only {acts : A → Prop} {results : Except ε α → Prop} (hp : p.Only acts results)
    (hr : Reaches perform p s h q s') : (∀ x ∈ h, acts x.1) ∧ q.Only acts results := by
  induction hr with
  | refl p s => exact ⟨fun _ hx => (nomatch hx), hp⟩
  | await c _ ih =>
    obtain ⟨hh, hq⟩ := ih (hp.2 _)
    refine ⟨fun x hx => ?_, hq⟩
    rcases List.mem_cons.1 hx with rfl | hx
    · exact hp.1
    · exact hh x hx

theorem Runs.done_inv {r₀ : Except ε α} (hr : Runs perform (.done r₀) s h r s') :
    h = [] ∧ r = r₀ ∧ s' = s := by
  obtain ⟨hh, hq, hs⟩ := Reaches.done_inv hr
  cases hq
  exact ⟨hh, rfl, hs⟩

/-- A waiting program that runs to its end performs its action and goes on with the answer. -/
theorem Runs.await_inv {a : A} {k : Except ε (R a) → Async A R ε α}
    (hr : Runs perform (.await a k) s h r s') :
    ∃ c h', h = (a, c) :: h' ∧ Runs perform (k (perform a c s).1) (perform a c s).2 h' r s' := by
  rcases Reaches.await_inv hr with ⟨-, hq, -⟩ | h
  · cases hq
  · exact h

/-- The program comes to its end with a result and a state that meet `Q`, whatever choices among
`Ok` the world makes. -/
def Ensures (perform : (a : A) → C → σ → Except ε (R a) × σ) (Ok : C → Prop) :
    Async A R ε α → σ → (Except ε α → σ → Prop) → Prop
  | .done r, s, Q => Q r s
  | .await a k, s, Q =>
    ∀ c, Ok c → (k (perform a c s).1).Ensures perform Ok (perform a c s).2 Q

section
variable {Ok : C → Prop} {Q Q' : Except ε α → σ → Prop}

theorem Ensures.mono (h : p.Ensures perform Ok s Q) (hQ : ∀ r s', Q r s' → Q' r s') :
    p.Ensures perform Ok s Q' := by
  induction p generalizing s with
  | done r => exact hQ r s h
  | await a k ih => exact fun c hc => ih _ (h c hc)

theorem Ensures.bind {f : α → Async A R ε β} {Q' : Except ε β → σ → Prop}
    (h : p.Ensures perform Ok s Q)
    (hf : ∀ a s', Q (.ok a) s' → (f a).Ensures perform Ok s' Q')
    (he : ∀ e s', Q (.error e) s' → Q' (.error e) s') :
    (p >>= f).Ensures perform Ok s Q' := by
  induction p generalizing s with
  | done r =>
    cases r with
    | ok a => exact hf a s h
    | error e => exact he e s h
  | await a k ih => exact fun c hc => ih _ (h c hc)

theorem Ensures.tryCatch {g : ε → Async A R ε α} (h : p.Ensures perform Ok s Q)
    (hok : ∀ a s', Q (.ok a) s' → Q' (.ok a) s')
    (hg : ∀ e s', Q (.error e) s' → (g e).Ensures perform Ok s' Q') :
    (Async.tryCatch p g).Ensures perform Ok s Q' := by
  induction p generalizing s with
  | done r =>
    cases r with
    | ok a => exact hok a s h
    | error e => exact hg e s h
  | await a k ih => exact fun c hc => ih _ (h c hc)

/-- What a specification says holds of every run with such choices. -/
theorem Ensures.runs (h : p.Ensures perform Ok s Q) {acts : List (A × C)}
    (hr : Runs perform p s acts r s') (hacts : ∀ x ∈ acts, Ok x.2) : Q r s' := by
  induction p generalizing s acts with
  | done r₀ =>
    obtain ⟨-, rfl, rfl⟩ := Runs.done_inv hr
    exact h
  | await a k ih =>
    obtain ⟨c, acts', rfl, hk⟩ := Runs.await_inv hr
    exact ih _ (h c (hacts _ (.head _))) hk fun x hx => hacts x (.tail _ hx)

end

/-- Two specifications of a program at once. -/
theorem Ensures.and {Ok : C → Prop} {Q Q' : Except ε α → σ → Prop}
    (h : p.Ensures perform Ok s Q) (h' : p.Ensures perform Ok s Q') :
    p.Ensures perform Ok s fun r s' => Q r s' ∧ Q' r s' := by
  induction p generalizing s with
  | done r => exact ⟨h, h'⟩
  | await a k ih => exact fun c hc => ih _ (h c hc) (h' c hc)

/-- A specification of one world holds in another one in which the actions of the program answer and
do the same. -/
theorem Ensures.congr {perform' : (a : A) → C → σ → Except ε (R a) × σ} {acts : A → Prop}
    {results : Except ε α → Prop} {Ok : C → Prop} {Q : Except ε α → σ → Prop}
    (h : p.Ensures perform Ok s Q) (hp : p.Only acts results)
    (hsame : ∀ a, acts a → ∀ c s, perform' a c s = perform a c s) :
    p.Ensures perform' Ok s Q := by
  induction p generalizing s with
  | done r => exact h
  | await a k ih =>
    intro c hc
    rw [hsame a hp.1 c s]
    exact ih _ (h c hc) (hp.2 _)

/-- A program comes to an end, also when the world makes the same choice at every action. -/
theorem exists_runs (perform : (a : A) → C → σ → Except ε (R a) × σ) (p : Async A R ε α) (c : C)
    (s : σ) :
    ∃ h r s', Runs perform p s h r s' ∧ ∀ x ∈ h, x.2 = c := by
  induction p generalizing s with
  | done r => exact ⟨[], r, s, .refl _ s, by simp⟩
  | await a k ih =>
    obtain ⟨h, r, s', hruns, hc⟩ := ih (perform a c s).1 (perform a c s).2
    refine ⟨(a, c) :: h, r, s', .await c hruns, fun x hx => ?_⟩
    rcases List.mem_cons.1 hx with rfl | hx
    · rfl
    · exact hc x hx

/-- A specification is met by some result, if the world has a choice. -/
theorem Ensures.exists {Ok : C → Prop} {Q : Except ε α → σ → Prop}
    (h : p.Ensures perform Ok s Q) {c : C} (hc : Ok c) : ∃ r s', Q r s' := by
  obtain ⟨acts, r, s', hruns, hacts⟩ := exists_runs perform p c s
  exact ⟨r, s', h.runs hruns fun x hx => hacts x hx ▸ hc⟩

end

end Async

/-! ## Calls in parallel -/

/-- Programs that are called in parallel: `ι` the calls with their arguments, `C` the choices of the
world when it answers an action, `O` what else may happen to the state. -/
structure Service (σ ι A : Type) (R : A → Type) (ε α C O : Type) where
  main : ι → Async A R ε α
  perform : Nat → (a : A) → C → σ → Except ε (R a) × σ
  environ : O → σ → σ

/-- A call: its arguments and what is left of its program. -/
structure Call (ι A : Type) (R : A → Type) (ε α : Type) where
  input : ι
  rest : Async A R ε α

/-- What a call has returned or thrown, if it has ended. -/
def Call.result? {ι A : Type} {R : A → Type} {ε α : Type} (call : Call ι A R ε α) :
    Option (Except ε α) :=
  match call.rest with
  | .done r => some r
  | .await .. => none

/-- The state, and the calls made so far in the order they were made. -/
structure Pool (σ ι A : Type) (R : A → Type) (ε α : Type) where
  state : σ
  calls : List (Call ι A R ε α)

/-- What happens next: a call is made, a waiting call goes on, or the state changes. -/
inductive Move (ι C O : Type) where
  | start (i : ι)
  | resume (k : Nat) (c : C)
  | environ (o : O)

namespace Service

variable {σ ι A : Type} {R : A → Type} {ε α C O : Type} (sv : Service σ ι A R ε α C O)

/-- The pool after a move. A call that has ended does not go on. -/
def move (m : Move ι C O) (p : Pool σ ι A R ε α) : Pool σ ι A R ε α :=
  match m with
  | .start i => { p with calls := p.calls ++ [⟨i, sv.main i⟩] }
  | .resume k c =>
    match p.calls[k]? with
    | some ⟨i, .await a f⟩ =>
      { state := (sv.perform k a c p.state).2
        calls := p.calls.set k ⟨i, f (sv.perform k a c p.state).1⟩ }
    | _ => p
  | .environ o => { p with state := sv.environ o p.state }

/-- The service as a machine, from a state in which no call has been made. -/
def machine (s : σ) : Machine (Pool σ ι A R ε α) (Move ι C O) Empty Unit where
  init := ⟨s, []⟩
  invoke m p := .ok ((), sv.move m p)

variable {sv}

/-- A step of the machine is a move. -/
theorem post_of_invoke {s : σ} {m : Move ι C O} {p p' : Pool σ ι A R ε α} {u : Unit}
    (h : (sv.machine s).invoke m p = .ok (u, p')) : p' = sv.move m p :=
  (congrArg Prod.snd (Except.ok.inj h)).symm

/-- What a move does: it makes a call, it has a waiting call go on, it changes the state, or, for a
call that is not waiting, it does nothing. -/
theorem move_cases (sv : Service σ ι A R ε α C O) (m : Move ι C O) (p : Pool σ ι A R ε α) :
    (∃ i, m = .start i ∧ sv.move m p = { p with calls := p.calls ++ [⟨i, sv.main i⟩] }) ∨
    (∃ k c i a f, m = .resume k c ∧ p.calls[k]? = some ⟨i, .await a f⟩ ∧ sv.move m p =
      { state := (sv.perform k a c p.state).2
        calls := p.calls.set k ⟨i, f (sv.perform k a c p.state).1⟩ }) ∨
    (∃ o, m = .environ o ∧ sv.move m p = { p with state := sv.environ o p.state }) ∨
    ∃ k c, m = .resume k c ∧ (∀ i a f, p.calls[k]? ≠ some ⟨i, .await a f⟩) ∧ sv.move m p = p := by
  cases m with
  | start i => exact .inl ⟨i, rfl, rfl⟩
  | environ o => exact .inr (.inr (.inl ⟨o, rfl, rfl⟩))
  | resume k c =>
    cases hk : p.calls[k]? with
    | none => exact .inr (.inr (.inr ⟨k, c, rfl, by simp [hk], by rw [move, hk]⟩))
    | some call =>
      obtain ⟨i, rest⟩ := call
      cases rest with
      | done r => exact .inr (.inr (.inr ⟨k, c, rfl, by simp [hk], by rw [move, hk]⟩))
      | await a f => exact .inr (.inl ⟨k, c, i, a, f, rfl, hk, by rw [move, hk]⟩)

/-! ### What a call has done -/

/-- The answer that a step of the service gives to the `k`-th call, with its action. -/
def answered? (sv : Service σ ι A R ε α C O) (k : Nat)
    (t : Step (Pool σ ι A R ε α) (Move ι C O) Empty Unit) : Option ((a : A) × Except ε (R a)) :=
  match t.input with
  | .resume j c =>
    if j = k then
      match t.pre.calls[k]? with
      | some ⟨_, .await a _⟩ => some ⟨a, (sv.perform k a c t.pre.state).1⟩
      | _ => none
    else none
  | _ => none

/-- The actions of the `k`-th call in a run, with their answers. -/
def answers (sv : Service σ ι A R ε α C O) (k : Nat)
    (ts : List (Step (Pool σ ι A R ε α) (Move ι C O) Empty Unit)) :
    List ((a : A) × Except ε (R a)) :=
  ts.filterMap (sv.answered? k)

/-- The action that a step performs, with the choice of the world. -/
def performed? (t : Step (Pool σ ι A R ε α) (Move ι C O) Empty Unit) : Option (A × C) :=
  match t.input with
  | .resume k c =>
    match t.pre.calls[k]? with
    | some ⟨_, .await a _⟩ => some (a, c)
    | _ => none
  | _ => none

/-- A waiting call goes on by performing its action. -/
theorem performed?_resume (sv : Service σ ι A R ε α C O) {p : Pool σ ι A R ε α} {k : Nat} {i : ι}
    {a : A} {f : Except ε (R a) → Async A R ε α} (h : p.calls[k]? = some ⟨i, .await a f⟩) (c : C)
    (s : σ) : performed? ((sv.machine s).step (.resume k c) p) = some (a, c) := by
  unfold performed?
  simp only [Machine.step_input, Machine.step_pre, h]

/-- A step that performs an action is one of a call that awaits it. -/
theorem performed?_eq_some {t : Step (Pool σ ι A R ε α) (Move ι C O) Empty Unit} {a : A} {c : C}
    (h : performed? t = some (a, c)) :
    ∃ k i f, t.input = .resume k c ∧ t.pre.calls[k]? = some ⟨i, .await a f⟩ := by
  unfold performed? at h
  split at h
  · next k c' hinput =>
    split at h
    · next i a' f hcall =>
      cases h
      exact ⟨k, i, f, hinput, hcall⟩
    · cases h
  · cases h

/-- A step changes the state as its action does, or from outside. -/
theorem state_step (sv : Service σ ι A R ε α C O) (m : Move ι C O) (p : Pool σ ι A R ε α) (s : σ) :
    (∃ k a c, performed? ((sv.machine s).step m p) = some (a, c) ∧
      (sv.move m p).state = (sv.perform k a c p.state).2) ∨
    performed? ((sv.machine s).step m p) = none ∧
      ((sv.move m p).state = p.state ∨ ∃ o, (sv.move m p).state = sv.environ o p.state) := by
  rcases move_cases sv m p with ⟨i, rfl, hp⟩ | ⟨j, c, i, a, f, rfl, hj, hp⟩ | ⟨o, rfl, hp⟩ |
    ⟨j, c, rfl, hno, hp⟩
  · exact .inr ⟨rfl, .inl (by rw [hp])⟩
  · exact .inl ⟨j, a, c, sv.performed?_resume hj c s, by rw [hp]⟩
  · exact .inr ⟨rfl, .inr ⟨o, by rw [hp]⟩⟩
  · refine .inr ⟨?_, .inl (by rw [hp])⟩
    unfold performed?
    simp only [Machine.step_input, Machine.step_pre]

/-- A step that answers a call has it go on. -/
theorem answered?_eq_some {k : Nat} {t : Step (Pool σ ι A R ε α) (Move ι C O) Empty Unit}
    {x : (a : A) × Except ε (R a)} (h : sv.answered? k t = some x) :
    ∃ c i a f, t.input = .resume k c ∧ t.pre.calls[k]? = some ⟨i, .await a f⟩ ∧
      x = ⟨a, (sv.perform k a c t.pre.state).1⟩ := by
  unfold answered? at h
  split at h
  · next j c hinput =>
    split at h
    · next hj =>
      split at h
      · next i a f hcall =>
        exact ⟨c, i, a, f, hj ▸ hinput, hcall, (Option.some.inj h).symm⟩
      · cases h
    · cases h
  · cases h

/-- What a step does to the `k`-th call: it makes it, it answers it and has it go on, or it leaves
it alone. -/
theorem call_move (sv : Service σ ι A R ε α C O) (m : Move ι C O) (p : Pool σ ι A R ε α) (k : Nat)
    (s : σ) :
    (∃ i, p.calls[k]? = none ∧ (sv.move m p).calls[k]? = some ⟨i, sv.main i⟩ ∧
      sv.answered? k ((sv.machine s).step m p) = none) ∨
    (∃ c i a f, m = .resume k c ∧ p.calls[k]? = some ⟨i, .await a f⟩ ∧
      (sv.move m p).calls[k]? = some ⟨i, f (sv.perform k a c p.state).1⟩ ∧
      sv.answered? k ((sv.machine s).step m p) = some ⟨a, (sv.perform k a c p.state).1⟩) ∨
    (sv.move m p).calls[k]? = p.calls[k]? ∧
      sv.answered? k ((sv.machine s).step m p) = none := by
  rcases move_cases sv m p with ⟨i, rfl, hp⟩ | ⟨j, c, i, a, f, rfl, hj, hp⟩ | ⟨o, rfl, hp⟩ |
    ⟨j, c, rfl, hno, hp⟩
  · rw [hp]
    rcases Nat.lt_trichotomy k p.calls.length with hlt | rfl | hgt
    · exact .inr (.inr ⟨List.getElem?_append_left hlt, rfl⟩)
    · exact .inl ⟨i, List.getElem?_eq_none (Nat.le_refl _), List.getElem?_concat_length, rfl⟩
    · refine .inr (.inr ⟨?_, rfl⟩)
      rw [List.getElem?_eq_none (Nat.le_of_lt hgt), List.getElem?_eq_none]
      rw [List.length_append]
      exact hgt
  · rw [hp]
    rcases eq_or_ne j k with rfl | hne
    · refine .inr (.inl ⟨c, i, a, f, rfl, hj, ?_, ?_⟩)
      · exact List.getElem?_set_self (List.getElem?_eq_some_iff.1 hj).1
      · unfold answered?
        simp only [Machine.step_input, Machine.step_pre, ↓reduceIte, hj]
    · exact .inr (.inr ⟨List.getElem?_set_ne hne, if_neg hne⟩)
  · rw [hp]
    exact .inr (.inr ⟨rfl, rfl⟩)
  · rw [hp]
    refine .inr (.inr ⟨rfl, ?_⟩)
    cases hans : sv.answered? k ((sv.machine s).step (.resume j c) p) with
    | none => rfl
    | some x =>
      obtain ⟨c', i, a, f, hinput, hcall, -⟩ := answered?_eq_some hans
      cases hinput
      exact absurd hcall (hno i a f)

/-- **A call comes to a point of its program by a step.** If what holds of the rest of a call does
not hold of a program that is called, some step of the call has established it. -/
theorem entered {P : ι → Async A R ε α → Prop} (hmain : ∀ i, ¬ P i (sv.main i)) {s : σ}
    {ms : List (Move ι C O)} {k : Nat} {call : Call ι A R ε α}
    (hcall : ((sv.machine s).exec ⟨s, []⟩ ms).calls[k]? = some call)
    (hP : P call.input call.rest) :
    ∃ ms₁ c ms₂ a f, ms = ms₁ ++ .resume k c :: ms₂ ∧
      ((sv.machine s).exec ⟨s, []⟩ ms₁).calls[k]? = some ⟨call.input, .await a f⟩ ∧
      ¬ P call.input (.await a f) ∧
      P call.input (f (sv.perform k a c ((sv.machine s).exec ⟨s, []⟩ ms₁).state).1) := by
  induction ms using List.reverseRecOn generalizing call with
  | nil => cases hcall
  | append_singleton ms m ih =>
    -- a step that the call has taken before is one of the longer run as well
    have hbefore : ∀ call', ((sv.machine s).exec ⟨s, []⟩ ms).calls[k]? = some call' →
        P call'.input call'.rest →
        ∃ ms₁ c ms₂ a f, ms ++ [m] = ms₁ ++ .resume k c :: ms₂ ∧
          ((sv.machine s).exec ⟨s, []⟩ ms₁).calls[k]? = some ⟨call'.input, .await a f⟩ ∧
          ¬ P call'.input (.await a f) ∧
          P call'.input (f (sv.perform k a c ((sv.machine s).exec ⟨s, []⟩ ms₁).state).1) := by
      intro call' hwas hheld
      obtain ⟨ms₁, c, ms₂, a, f, rfl, h⟩ := ih hwas hheld
      exact ⟨ms₁, c, ms₂ ++ [m], a, f, by rw [List.append_assoc, List.cons_append], h⟩
    rw [(sv.machine s).exec_concat] at hcall
    change (sv.move m ((sv.machine s).exec ⟨s, []⟩ ms)).calls[k]? = some call at hcall
    rcases sv.call_move m ((sv.machine s).exec ⟨s, []⟩ ms) k s with ⟨i, -, hmade, -⟩ |
      ⟨c, i, a, f, rfl, hwas, hnow, -⟩ | ⟨hsame, -⟩
    · cases hmade.symm.trans hcall
      exact absurd hP (hmain i)
    · cases hnow.symm.trans hcall
      by_cases hheld : P i (.await a f)
      · exact hbefore ⟨i, .await a f⟩ hwas hheld
      · exact ⟨ms, c, [], a, f, rfl, hwas, hheld, hP⟩
    · exact hbefore call (hsame.symm.trans hcall) hP

/-- **What the answers of a call keep holds of it after every run**: what holds of a call that is
made and is kept by each of its steps holds of the answers it has had and of what is left of it. -/
theorem answers_invariant (sv : Service σ ι A R ε α C O)
    {I : ι → List ((a : A) × Except ε (R a)) → Async A R ε α → Prop}
    (h0 : ∀ i, I i [] (sv.main i))
    (hstep : ∀ i h a f k c s, I i h (.await a f) →
      I i (h ++ [⟨a, (sv.perform k a c s).1⟩]) (f (sv.perform k a c s).1))
    {s : σ} {ms : List (Move ι C O)} {k : Nat} {call : Call ι A R ε α}
    (hcall : ((sv.machine s).exec ⟨s, []⟩ ms).calls[k]? = some call) :
    I call.input (sv.answers k ((sv.machine s).trace ⟨s, []⟩ ms)) call.rest := by
  suffices hall : (((sv.machine s).exec ⟨s, []⟩ ms).calls[k]? = none →
      sv.answers k ((sv.machine s).trace ⟨s, []⟩ ms) = []) ∧
      ∀ call, ((sv.machine s).exec ⟨s, []⟩ ms).calls[k]? = some call →
        I call.input (sv.answers k ((sv.machine s).trace ⟨s, []⟩ ms)) call.rest from
    hall.2 call hcall
  clear hcall call
  induction ms using List.reverseRecOn with
  | nil => exact ⟨fun _ => rfl, fun call h => by cases h⟩
  | append_singleton ms m ih =>
    rw [(sv.machine s).exec_concat, (sv.machine s).trace_concat, answers, List.filterMap_append,
      List.filterMap_cons, List.filterMap_nil]
    change ((sv.move m ((sv.machine s).exec ⟨s, []⟩ ms)).calls[k]? = none → _) ∧
      ∀ call, (sv.move m ((sv.machine s).exec ⟨s, []⟩ ms)).calls[k]? = some call → _
    rcases sv.call_move m ((sv.machine s).exec ⟨s, []⟩ ms) k s with ⟨i, hnone, hmade, hans⟩ |
      ⟨c, i, a, f, -, hwas, hnow, hans⟩ | ⟨hsame, hans⟩
    · rw [hans, hmade]
      refine ⟨nofun, fun call hcall => ?_⟩
      cases hcall
      have hempty := ih.1 hnone
      rw [answers] at hempty
      rw [hempty]
      exact h0 i
    · rw [hans, hnow]
      refine ⟨nofun, fun call hcall => ?_⟩
      cases hcall
      exact hstep _ _ _ _ _ _ _ (ih.2 _ hwas)
    · rw [hans, hsame, List.append_nil]
      exact ih

/-- A call keeps its arguments. -/
theorem input_later (sv : Service σ ι A R ε α C O) {s : σ} {p : Pool σ ι A R ε α} {k : Nat}
    {call : Call ι A R ε α} (h : p.calls[k]? = some call) (ms : List (Move ι C O)) :
    ∃ rest, ((sv.machine s).exec p ms).calls[k]? = some ⟨call.input, rest⟩ := by
  induction ms using List.reverseRecOn with
  | nil => exact ⟨call.rest, h⟩
  | append_singleton ms m ih =>
    obtain ⟨rest, ih⟩ := ih
    rw [(sv.machine s).exec_concat]
    change ∃ rest, (sv.move m ((sv.machine s).exec p ms)).calls[k]? = _
    rcases sv.call_move m ((sv.machine s).exec p ms) k s with ⟨i, hnone, -⟩ |
      ⟨c, i, a, f, -, hwas, hnow, -⟩ | ⟨hsame, -⟩
    · cases ih.symm.trans hnone
    · cases ih.symm.trans hwas
      exact ⟨_, hnow⟩
    · exact ⟨rest, hsame.trans ih⟩

/-- A call that has ended does nothing more. -/
theorem ended_later (sv : Service σ ι A R ε α C O) {s : σ} {p : Pool σ ι A R ε α} {k : Nat} {i : ι}
    {r : Except ε α} (h : p.calls[k]? = some ⟨i, .done r⟩) (ms : List (Move ι C O)) :
    ((sv.machine s).exec p ms).calls[k]? = some ⟨i, .done r⟩ ∧
      sv.answers k ((sv.machine s).trace p ms) = [] := by
  induction ms using List.reverseRecOn with
  | nil => exact ⟨h, rfl⟩
  | append_singleton ms m ih =>
    rw [(sv.machine s).exec_concat, (sv.machine s).trace_concat, answers, List.filterMap_append,
      List.filterMap_cons, List.filterMap_nil]
    change (sv.move m ((sv.machine s).exec p ms)).calls[k]? = _ ∧ _
    rcases sv.call_move m ((sv.machine s).exec p ms) k s with ⟨j, hnone, -⟩ |
      ⟨c, j, a, f, -, hwas, -⟩ | ⟨hsame, hans⟩
    · cases ih.1.symm.trans hnone
    · cases ih.1.symm.trans hwas
    · rw [hans, List.append_nil]
      exact ⟨hsame.trans ih.1, ih.2⟩

/-- The last answer of a call comes from one of its steps. -/
theorem answers_concat {s : σ} {ms : List (Move ι C O)} {k : Nat}
    {h : List ((a : A) × Except ε (R a))} {x : (a : A) × Except ε (R a)}
    (hx : sv.answers k ((sv.machine s).trace ⟨s, []⟩ ms) = h ++ [x]) :
    ∃ ms₁ c ms₂ i a f, ms = ms₁ ++ .resume k c :: ms₂ ∧
      sv.answers k ((sv.machine s).trace ⟨s, []⟩ ms₁) = h ∧
      ((sv.machine s).exec ⟨s, []⟩ ms₁).calls[k]? = some ⟨i, .await a f⟩ ∧
      x = ⟨a, (sv.perform k a c ((sv.machine s).exec ⟨s, []⟩ ms₁).state).1⟩ := by
  obtain ⟨ts₁, ts₂, hts, hts₁, hts₂⟩ := List.filterMap_eq_append_iff.1 hx
  obtain ⟨us, t, ts₃, rfl, hus, ht, -⟩ := List.filterMap_eq_cons_iff.1 hts₂
  rw [← List.append_assoc] at hts
  obtain ⟨ms₁, m, ms₂, rfl, hms₁, rfl⟩ := Machine.trace_split hts
  obtain ⟨c, i, a, f, hinput, hcall, hans⟩ := answered?_eq_some ht
  rw [Machine.step_input] at hinput
  rw [Machine.step_pre] at hcall hans
  subst hinput
  refine ⟨ms₁, c, ms₂, i, a, f, rfl, ?_, hcall, hans⟩
  rw [← hms₁, answers, List.filterMap_append, hts₁, List.filterMap_eq_nil_iff.2 hus,
    List.append_nil]

/-- A call that ends by a step has had the answer of that step last. -/
theorem ended_of_resume (sv : Service σ ι A R ε α C O) {s : σ} {ms₁ : List (Move ι C O)} {k : Nat}
    {i : ι} {a : A} {f : Except ε (R a) → Async A R ε α} {c : C} {r : Except ε α}
    (hcall : ((sv.machine s).exec ⟨s, []⟩ ms₁).calls[k]? = some ⟨i, .await a f⟩)
    (hdone : f (sv.perform k a c ((sv.machine s).exec ⟨s, []⟩ ms₁).state).1 = .done r)
    (ms₂ : List (Move ι C O)) :
    ((sv.machine s).exec ⟨s, []⟩ (ms₁ ++ .resume k c :: ms₂)).calls[k]? = some ⟨i, .done r⟩ ∧
    sv.answers k ((sv.machine s).trace ⟨s, []⟩ (ms₁ ++ .resume k c :: ms₂)) =
      sv.answers k ((sv.machine s).trace ⟨s, []⟩ ms₁) ++
        [⟨a, (sv.perform k a c ((sv.machine s).exec ⟨s, []⟩ ms₁).state).1⟩] := by
  obtain ⟨hnow, hans⟩ : (sv.move (.resume k c) ((sv.machine s).exec ⟨s, []⟩ ms₁)).calls[k]? =
        some ⟨i, .done r⟩ ∧
      sv.answered? k ((sv.machine s).step (.resume k c) ((sv.machine s).exec ⟨s, []⟩ ms₁)) =
        some ⟨a, (sv.perform k a c ((sv.machine s).exec ⟨s, []⟩ ms₁).state).1⟩ := by
    constructor
    · rw [move, hcall, ← hdone]
      exact List.getElem?_set_self (List.getElem?_eq_some_iff.1 hcall).1
    · unfold answered?
      simp only [Machine.step_input, Machine.step_pre, ↓reduceIte, hcall]
  obtain ⟨hlater, hnil⟩ := sv.ended_later (s := s) hnow ms₂
  constructor
  · rw [(sv.machine s).exec_append]
    exact hlater
  · rw [(sv.machine s).trace_append, answers, List.filterMap_append]
    change _ ++ List.filterMap _ (_ :: (sv.machine s).trace (sv.move (.resume k c) _) ms₂) = _
    rw [List.filterMap_cons, hans]
    change _ ++ _ :: sv.answers k _ = _
    rw [hnil]
    rfl

end Service

/-! ## Proof outlines -/

/-- The calls of a pool meet their assertions. -/
def Pool.Meets {σ ι A : Type} {R : A → Type} {ε α : Type} (p : Pool σ ι A R ε α)
    (At : Nat → ι → Async A R ε α → σ → Prop) : Prop :=
  ∀ k call, p.calls[k]? = some call → At k call.input call.rest p.state

/-- A proof outline of the programs of a service, for the runs whose moves all meet `Ok`: an
invariant `Inv` of the state, and an assertion `At` for a call, what is left of its program, and the
state. -/
structure Outline {σ ι A : Type} {R : A → Type} {ε α C O : Type}
    (sv : Service σ ι A R ε α C O) (Ok : Pool σ ι A R ε α → Move ι C O → Prop) where
  Inv : σ → Prop
  At : Nat → ι → Async A R ε α → σ → Prop
  /-- A call starts where its assertion holds. -/
  start : ∀ {p : Pool σ ι A R ε α} {i : ι}, Ok p (.start i) → Inv p.state → p.Meets At →
    At p.calls.length i (sv.main i) p.state
  /-- A step keeps the invariant and establishes the assertion of the point it reaches. -/
  step : ∀ {p : Pool σ ι A R ε α} {k : Nat} {c : C} {i : ι} {a : A}
    {f : Except ε (R a) → Async A R ε α},
    Ok p (.resume k c) → p.calls[k]? = some ⟨i, .await a f⟩ → Inv p.state → p.Meets At →
    Inv (sv.perform k a c p.state).2 ∧
      At k i (f (sv.perform k a c p.state).1) (sv.perform k a c p.state).2
  /-- A step keeps the assertions of the other calls. -/
  stable : ∀ {p : Pool σ ι A R ε α} {k : Nat} {c : C} {i : ι} {a : A}
    {f : Except ε (R a) → Async A R ε α} {j : Nat} {call : Call ι A R ε α},
    Ok p (.resume k c) → p.calls[k]? = some ⟨i, .await a f⟩ → Inv p.state → p.Meets At →
    j ≠ k → p.calls[j]? = some call → At j call.input call.rest (sv.perform k a c p.state).2
  /-- Nothing that happens to the state from outside breaks the invariant or an assertion. -/
  environ : ∀ {p : Pool σ ι A R ε α} {o : O}, Ok p (.environ o) → Inv p.state → p.Meets At →
    Inv (sv.environ o p.state) ∧
      ∀ k call, p.calls[k]? = some call → At k call.input call.rest (sv.environ o p.state)

namespace Outline

variable {σ ι A : Type} {R : A → Type} {ε α C O : Type} {sv : Service σ ι A R ε α C O}
  {Ok : Pool σ ι A R ε α → Move ι C O → Prop}

/-- A move keeps the invariant and the assertions. -/
theorem move (o : Outline sv Ok) {m : Move ι C O} {p : Pool σ ι A R ε α} (hok : Ok p m)
    (hinv : o.Inv p.state) (hat : p.Meets o.At) :
    o.Inv (sv.move m p).state ∧ (sv.move m p).Meets o.At := by
  rcases Service.move_cases sv m p with ⟨i, rfl, hp⟩ | ⟨k, c, i, a, f, rfl, hk, hp⟩ |
    ⟨w, rfl, hp⟩ | ⟨k, c, -, -, hp⟩
  · rw [hp]
    refine ⟨hinv, fun k call hcall => ?_⟩
    rcases Nat.lt_or_ge k p.calls.length with hlt | hge
    · rw [List.getElem?_append_left hlt] at hcall
      exact hat k call hcall
    · rw [List.getElem?_append_right hge, List.getElem?_singleton] at hcall
      split at hcall
      · next h0 =>
        have hk : k = p.calls.length := by omega
        cases hcall
        rw [hk]
        exact o.start hok hinv hat
      · cases hcall
  · rw [hp]
    have hstep := o.step hok hk hinv hat
    refine ⟨hstep.1, fun j call hcall => ?_⟩
    rcases eq_or_ne j k with rfl | hne
    · have hlt : j < p.calls.length := (List.getElem?_eq_some_iff.1 hk).1
      rw [List.getElem?_set_self hlt] at hcall
      cases hcall
      exact hstep.2
    · rw [List.getElem?_set_ne hne.symm] at hcall
      exact o.stable hok hk hinv hat hne hcall
  · rw [hp]
    exact o.environ hok hinv hat
  · rw [hp]
    exact ⟨hinv, hat⟩

/-- **The rule of proof outlines.** In a run whose moves all meet the condition, the invariant and
the assertion of every call hold after every part of the run. -/
theorem exec (o : Outline sv Ok) {s : σ} {p : Pool σ ι A R ε α} (hinv : o.Inv p.state)
    (hat : p.Meets o.At) {ms : List (Move ι C O)}
    (hok : ∀ t ∈ (sv.machine s).trace p ms, Ok t.pre t.input) :
    o.Inv ((sv.machine s).exec p ms).state ∧ ((sv.machine s).exec p ms).Meets o.At := by
  refine Machine.invariant_of (I := fun p => o.Inv p.state ∧ p.Meets o.At)
    (C := fun t => Ok t.pre t.input) ⟨hinv, hat⟩ ?_ hok
  rintro m p u p' ⟨hinv, hat⟩ hm hi
  rw [Service.post_of_invoke hi]
  exact o.move hm hinv hat

end Outline

/-- No call of an empty pool fails an assertion. -/
theorem Pool.meets_nil {σ ι A : Type} {R : A → Type} {ε α : Type} {s : σ}
    {At : Nat → ι → Async A R ε α → σ → Prop} :
    (⟨s, []⟩ : Pool σ ι A R ε α).Meets At := by
  intro k call h
  cases h

end InvoiceFi
