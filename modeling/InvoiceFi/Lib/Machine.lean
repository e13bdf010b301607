import Mathlib.Algebra.BigOperators.Group.List.Basic
import Mathlib.Data.List.Induction

/-!
# Transactional machines and their runs

A `Machine` is a state with fallible invocations under a host that reverts a failing one: an
invocation that returns an error leaves the state as it was (`Machine.step`). A run is a list of
invocations from a state, `Machine.exec` its final state and `Machine.trace` its history, one
`Step` per invocation with the state before, the result and the state after.

The rules a development uses by name: `Machine.invariant` and `Machine.history` (a property of the
state, or of the history and the state, that every successful invocation keeps holds after every
run), `Machine.invariant_of` and `Machine.history_of` (the same, for the runs whose steps all meet
a condition), `Machine.mem_trace` (every step of a history is the machine's step in the state its
prefix reaches), `Machine.forall_mem_trace` (what holds of successful and of reverted invocations
holds of every step of a history), `Machine.pairwise_trace` (what relates a step to those before it
relates any two steps of a history), `Machine.related_of` (what relates the two states of every step
relates any two states of a run), `Machine.last_change` (a part of the state that a run has changed
was set by a step of the run), `Machine.latest_exec` (a part of the state that steps overwrite
holds the last value written), `Machine.Embedding` (a machine that keeps another one's state in its
own), `Machine.simulate` (a machine whose steps are simulated by a labelled abstract transition is
simulated along whole runs) and `Machine.accumulate` (a quantity that each step moves by an amount
read off the step has moved by their sum).
-/

namespace InvoiceFi

/-- A state machine with fallible invocations: `ι` the invocations, `ε` the errors, `ρ` the
returned values. -/
structure Machine (σ ι ε ρ : Type) where
  init : σ
  invoke : ι → σ → Except ε (ρ × σ)

/-- One invocation of a run: the state it found, its result, and the state it left. -/
structure Step (σ ι ε ρ : Type) where
  pre : σ
  input : ι
  result : Except ε ρ
  post : σ

/-- The invocation succeeded. -/
def Step.Accepted {σ ι ε ρ : Type} (t : Step σ ι ε ρ) : Prop := t.result.isOk = true

instance {σ ι ε ρ : Type} (t : Step σ ι ε ρ) : Decidable t.Accepted :=
  inferInstanceAs (Decidable (_ = true))

namespace Machine

variable {σ ι ε ρ : Type} (m : Machine σ ι ε ρ)

/-- One invocation under a host that reverts failures. -/
def step (i : ι) (s : σ) : Step σ ι ε ρ :=
  match m.invoke i s with
  | .ok (r, s') => ⟨s, i, .ok r, s'⟩
  | .error e => ⟨s, i, .error e, s⟩

/-- The state after a run from `s`. -/
def exec (s : σ) : List ι → σ
  | [] => s
  | i :: is => exec (m.step i s).post is

/-- The history of a run from `s`, oldest step first. -/
def trace (s : σ) : List ι → List (Step σ ι ε ρ)
  | [] => []
  | i :: is => m.step i s :: trace (m.step i s).post is

/-- The states some run from the initial state reaches. -/
def Reachable (s : σ) : Prop := ∃ is, m.exec m.init is = s

variable {m}

/-! ## One step -/

/-- A step is a successful invocation or a reverted one. -/
theorem step_cases (i : ι) (s : σ) :
    (∃ r s', m.invoke i s = .ok (r, s') ∧ m.step i s = ⟨s, i, .ok r, s'⟩) ∨
    (∃ e, m.invoke i s = .error e ∧ m.step i s = ⟨s, i, .error e, s⟩) := by
  unfold step
  cases h : m.invoke i s with
  | error e => exact .inr ⟨e, rfl, rfl⟩
  | ok p => exact .inl ⟨p.1, p.2, rfl, rfl⟩

@[simp] theorem step_pre (i : ι) (s : σ) : (m.step i s).pre = s := by
  rcases step_cases (m := m) i s with ⟨r, s', -, h⟩ | ⟨e, -, h⟩ <;> rw [h]

@[simp] theorem step_input (i : ι) (s : σ) : (m.step i s).input = i := by
  rcases step_cases (m := m) i s with ⟨r, s', -, h⟩ | ⟨e, -, h⟩ <;> rw [h]

/-- The step of a successful invocation. -/
theorem step_of_ok {i : ι} {s s' : σ} {r : ρ} (h : m.invoke i s = .ok (r, s')) :
    m.step i s = ⟨s, i, .ok r, s'⟩ := by
  rw [step, h]

/-- A step is accepted exactly when its invocation succeeds. -/
theorem step_accepted_iff {i : ι} {s : σ} :
    (m.step i s).Accepted ↔ ∃ r s', m.invoke i s = .ok (r, s') := by
  rcases step_cases (m := m) i s with ⟨r, s', h, ht⟩ | ⟨e, h, ht⟩
  · simp [ht, h, Step.Accepted, Except.isOk, Except.toBool]
  · simp [ht, h, Step.Accepted, Except.isOk, Except.toBool]

/-! ## Runs -/

theorem exec_append (s : σ) (is js : List ι) :
    m.exec s (is ++ js) = m.exec (m.exec s is) js := by
  induction is generalizing s with
  | nil => rfl
  | cons i is ih => exact ih _

theorem trace_append (s : σ) (is js : List ι) :
    m.trace s (is ++ js) = m.trace s is ++ m.trace (m.exec s is) js := by
  induction is generalizing s with
  | nil => rfl
  | cons i is ih => rw [List.cons_append, trace, ih]; rfl

theorem exec_concat (s : σ) (is : List ι) (i : ι) :
    m.exec s (is ++ [i]) = (m.step i (m.exec s is)).post := by
  rw [exec_append]; rfl

theorem trace_concat (s : σ) (is : List ι) (i : ι) :
    m.trace s (is ++ [i]) = m.trace s is ++ [m.step i (m.exec s is)] := by
  rw [trace_append]; rfl

/-- Every step of a history is the machine's step in the state that the part of the run before it
reaches. -/
theorem mem_trace {s : σ} {is : List ι} {t : Step σ ι ε ρ} :
    t ∈ m.trace s is ↔ ∃ is₁ i is₂, is = is₁ ++ i :: is₂ ∧ t = m.step i (m.exec s is₁) := by
  constructor
  · intro h
    induction is generalizing s with
    | nil => cases h
    | cons i is ih =>
      rcases List.mem_cons.1 h with rfl | h
      · exact ⟨[], i, is, rfl, rfl⟩
      · obtain ⟨is₁, j, is₂, rfl, rfl⟩ := ih h
        exact ⟨i :: is₁, j, is₂, rfl, rfl⟩
  · rintro ⟨is₁, i, is₂, rfl, rfl⟩
    rw [trace_append]
    exact List.mem_append_right _ (.head _)

/-- The step that follows a part of a run is in its history. -/
theorem step_mem_trace (m : Machine σ ι ε ρ) (s : σ) (is₁ : List ι) (i : ι) (is₂ : List ι) :
    m.step i (m.exec s is₁) ∈ m.trace s (is₁ ++ i :: is₂) :=
  mem_trace.2 ⟨is₁, i, is₂, rfl, rfl⟩

/-- The invocations of a history are those of the run. -/
theorem input_mem_of_mem_trace {s : σ} {is : List ι} {t : Step σ ι ε ρ} (ht : t ∈ m.trace s is) :
    t.input ∈ is := by
  obtain ⟨is₁, i, is₂, rfl, rfl⟩ := mem_trace.1 ht
  rw [step_input]
  exact List.mem_append_right _ (.head _)

/-- The history has the invocations of the run in their order. -/
theorem map_input_trace (s : σ) (is : List ι) : (m.trace s is).map Step.input = is := by
  induction is generalizing s with
  | nil => rfl
  | cons i is ih => rw [trace, List.map_cons, step_input, ih]

/-- A step of a history splits the run where it splits the history. -/
theorem trace_split {s : σ} {is : List ι} {h₁ h₂ : List (Step σ ι ε ρ)} {t : Step σ ι ε ρ}
    (h : m.trace s is = h₁ ++ t :: h₂) :
    ∃ is₁ i is₂, is = is₁ ++ i :: is₂ ∧ h₁ = m.trace s is₁ ∧ t = m.step i (m.exec s is₁) := by
  induction is generalizing s h₁ with
  | nil => exact absurd h.symm (List.append_ne_nil_of_right_ne_nil _ (List.cons_ne_nil _ _))
  | cons i is ih =>
    cases h₁ with
    | nil => exact ⟨[], i, is, rfl, rfl, (List.cons.inj h).1.symm⟩
    | cons u h₁ =>
      obtain ⟨hu, htail⟩ := List.cons.inj h
      obtain ⟨is₁, j, is₂, rfl, rfl, rfl⟩ := ih htail
      exact ⟨i :: is₁, j, is₂, rfl, by rw [← hu]; rfl, rfl⟩

/-- The history of a part of a run is part of its history. -/
theorem mem_trace_append {s : σ} {is js : List ι} {t : Step σ ι ε ρ} (ht : t ∈ m.trace s is) :
    t ∈ m.trace s (is ++ js) := by
  rw [trace_append]
  exact List.mem_append_left _ ht

/-- An accepted step of a history is a successful invocation. -/
theorem invoke_of_mem_trace {s : σ} {is : List ι} {t : Step σ ι ε ρ} (ht : t ∈ m.trace s is)
    (h : t.Accepted) : ∃ r, m.invoke t.input t.pre = .ok (r, t.post) := by
  obtain ⟨is₁, i, is₂, -, rfl⟩ := mem_trace.1 ht
  obtain ⟨r, s', hi⟩ := step_accepted_iff.1 h
  rw [step_of_ok hi]
  exact ⟨r, hi⟩

/-- What holds of every successful invocation and of every reverted one holds of every step of a
history. -/
theorem forall_mem_trace {P : Step σ ι ε ρ → Prop}
    (hok : ∀ i s r s', m.invoke i s = .ok (r, s') → P ⟨s, i, .ok r, s'⟩)
    (herr : ∀ i s e, P ⟨s, i, .error e, s⟩) {s : σ} {is : List ι} :
    ∀ t ∈ m.trace s is, P t := by
  intro t ht
  obtain ⟨is₁, i, is₂, -, rfl⟩ := mem_trace.1 ht
  rcases step_cases (m := m) i (m.exec s is₁) with ⟨r, s', hi, heq⟩ | ⟨e, -, heq⟩
  · rw [heq]
    exact hok _ _ _ _ hi
  · rw [heq]
    exact herr _ _ _

/-- Every step of a history is related to those before it, if every step of the machine is related
to those of the history that has led to it. -/
theorem pairwise_trace {R : Step σ ι ε ρ → Step σ ι ε ρ → Prop} {s : σ} {is : List ι}
    (h : ∀ is₁ i is₂, is = is₁ ++ i :: is₂ →
      ∀ t ∈ m.trace s is₁, R t (m.step i (m.exec s is₁))) : (m.trace s is).Pairwise R := by
  induction is using List.reverseRecOn with
  | nil => exact .nil
  | append_singleton is i ih =>
    rw [trace_concat, List.pairwise_append]
    refine ⟨ih fun is₁ j is₂ his => ?_, List.pairwise_singleton _ _, fun t ht u hu => ?_⟩
    · exact h is₁ j (is₂ ++ [i]) (by rw [his, List.append_assoc, List.cons_append])
    · cases List.mem_singleton.1 hu
      exact h is i [] rfl t ht

/-- A rejected step of a history changes nothing. -/
theorem post_of_not_accepted {s : σ} {is : List ι} {t : Step σ ι ε ρ} (ht : t ∈ m.trace s is)
    (h : ¬ t.Accepted) : t.post = t.pre := by
  obtain ⟨is₁, i, is₂, -, rfl⟩ := mem_trace.1 ht
  rcases step_cases (m := m) i (m.exec s is₁) with ⟨r, s', hi, -⟩ | ⟨e, -, heq⟩
  · exact absurd (step_accepted_iff.2 ⟨r, s', hi⟩) h
  · rw [heq]

/-! ## Invariants -/

/-- A property of the history and the state that successful and reverted invocations keep holds
after every run. -/
theorem history {H : List (Step σ ι ε ρ) → σ → Prop} {s : σ} (h0 : H [] s)
    (hok : ∀ h s i r s', H h s → m.invoke i s = .ok (r, s') → H (h ++ [⟨s, i, .ok r, s'⟩]) s')
    (herr : ∀ h s i e, H h s → H (h ++ [⟨s, i, .error e, s⟩]) s) (is : List ι) :
    H (m.trace s is) (m.exec s is) := by
  -- the run grows at its end, as a history does
  induction is using List.reverseRecOn with
  | nil => exact h0
  | append_singleton is i ih =>
    rw [trace_concat, exec_concat]
    rcases step_cases (m := m) i (m.exec s is) with ⟨r, s', hi, ht⟩ | ⟨e, -, ht⟩
    · rw [ht]; exact hok _ _ _ _ _ ih hi
    · rw [ht]; exact herr _ _ _ _ ih

/-- A property that every successful step under the condition `C` keeps holds after every run
whose steps all meet `C`. -/
theorem invariant_of {I : σ → Prop} {C : Step σ ι ε ρ → Prop} {s : σ} (h0 : I s)
    (hstep : ∀ i s r s', I s → C ⟨s, i, .ok r, s'⟩ → m.invoke i s = .ok (r, s') → I s')
    {is : List ι} (hC : ∀ t ∈ m.trace s is, C t) : I (m.exec s is) := by
  induction is generalizing s with
  | nil => exact h0
  | cons i is ih =>
    have hi : C (m.step i s) := hC _ (.head _)
    refine ih ?_ fun t ht => hC t (.tail _ ht)
    rcases step_cases (m := m) i s with ⟨r, s', hok, ht⟩ | ⟨e, -, ht⟩
    · rw [ht] at hi ⊢; exact hstep i s r s' h0 hi hok
    · rw [ht]; exact h0

/-- Such a property holds in every state that a step of such a run finds. -/
theorem invariant_pre_of {I : σ → Prop} {C : Step σ ι ε ρ → Prop} {s : σ} (h0 : I s)
    (hstep : ∀ i s r s', I s → C ⟨s, i, .ok r, s'⟩ → m.invoke i s = .ok (r, s') → I s')
    {is : List ι} (hC : ∀ t ∈ m.trace s is, C t) {t : Step σ ι ε ρ} (ht : t ∈ m.trace s is) :
    I t.pre := by
  obtain ⟨is₁, i, is₂, rfl, rfl⟩ := mem_trace.1 ht
  rw [step_pre]
  exact invariant_of h0 hstep fun u hu => hC u (mem_trace_append hu)

/-- A property of the history and the state that every step of the kind `P` keeps holds after
every run whose steps are all of that kind. -/
theorem history_of {H : List (Step σ ι ε ρ) → σ → Prop} {P : Step σ ι ε ρ → Prop} {s : σ}
    (h0 : H [] s) (hstep : ∀ h t, P t → H h t.pre → H (h ++ [t]) t.post) {is : List ι}
    (hP : ∀ t ∈ m.trace s is, P t) : H (m.trace s is) (m.exec s is) := by
  induction is using List.reverseRecOn with
  | nil => exact h0
  | append_singleton is i ih =>
    have ih := ih fun t ht => hP t (mem_trace_append ht)
    rw [trace_concat] at hP ⊢
    rw [exec_concat]
    refine hstep _ _ (hP _ (List.mem_append_right _ (.head _))) ?_
    rw [step_pre]
    exact ih

/-- A reflexive and transitive relation that relates the two states of every step of a run relates
every state of the run to its last. -/
theorem related_of {R : σ → σ → Prop} (hrefl : ∀ s, R s s)
    (htrans : ∀ s s' s'', R s s' → R s' s'' → R s s'') {s : σ} {is₁ is₂ : List ι}
    (hstep : ∀ t ∈ m.trace s (is₁ ++ is₂), R t.pre t.post) :
    R (m.exec s is₁) (m.exec s (is₁ ++ is₂)) := by
  induction is₂ using List.reverseRecOn with
  | nil => rw [List.append_nil]; exact hrefl _
  | append_singleton is₂ i ih =>
    rw [← List.append_assoc] at hstep ⊢
    refine htrans _ _ _ (ih fun t ht => hstep t (mem_trace_append ht)) ?_
    have := hstep _ (step_mem_trace m s (is₁ ++ is₂) i [])
    rwa [step_pre, ← exec_concat] at this

/-- A part of the state that a run has changed was set by some step of the run, the last that
changed it. -/
theorem last_change {α : Type} (q : σ → α) {s : σ} {is : List ι} (h : q (m.exec s is) ≠ q s) :
    ∃ is₁ i is₂, is = is₁ ++ i :: is₂ ∧ q (m.step i (m.exec s is₁)).post ≠ q (m.exec s is₁) ∧
      q (m.step i (m.exec s is₁)).post = q (m.exec s is) := by
  induction is using List.reverseRecOn with
  | nil => exact absurd rfl h
  | append_singleton is i ih =>
    rw [exec_concat] at h ⊢
    by_cases hq : q (m.step i (m.exec s is)).post = q (m.exec s is)
    · rw [hq] at h ⊢
      obtain ⟨is₁, j, is₂, rfl, hne, hset⟩ := ih h
      exact ⟨is₁, j, is₂ ++ [i], by rw [List.append_assoc, List.cons_append], hne, hset⟩
    · exact ⟨is, i, [], rfl, hq, rfl⟩

/-- A property that every successful invocation keeps holds after every run. -/
theorem invariant {I : σ → Prop} {s : σ} (h0 : I s)
    (hstep : ∀ i s r s', I s → m.invoke i s = .ok (r, s') → I s') (is : List ι) :
    I (m.exec s is) :=
  invariant_of (C := fun _ => True) h0 (fun i s r s' h _ => hstep i s r s' h)
    (fun _ _ => trivial)

/-- An invariant survives a step, reverted or not. -/
theorem step_invariant {I : σ → Prop}
    (hstep : ∀ i s r s', I s → m.invoke i s = .ok (r, s') → I s') {i : ι} {s : σ} (h : I s) :
    I (m.step i s).post :=
  invariant h hstep [i]

/-! ## Simulation -/

/-- If every step from a state of the invariant is simulated by the abstract transition `g` of a
label `l` read off the step, every run is simulated by the fold of its labels. -/
theorem simulate {τ Λ : Type} {I : σ → Prop} (f : σ → τ) (l : Step σ ι ε ρ → Λ) (g : τ → Λ → τ)
    (hI : ∀ i s r s', I s → m.invoke i s = .ok (r, s') → I s')
    (h : ∀ i s, I s → f (m.step i s).post = g (f s) (l (m.step i s))) {s : σ} (h0 : I s)
    (is : List ι) : f (m.exec s is) = ((m.trace s is).map l).foldl g (f s) := by
  induction is generalizing s with
  | nil => rfl
  | cons i is ih =>
    rw [exec, ih (step_invariant hI h0), h i s h0, trace, List.map_cons, List.foldl_cons]

/-- A quantity that every step from a state of the invariant moves by `δ` of the step has moved,
after a run, by the sum of the `δ`s. -/
theorem accumulate {M : Type} [AddMonoid M] {I : σ → Prop} (q : σ → M) (δ : Step σ ι ε ρ → M)
    (hI : ∀ i s r s', I s → m.invoke i s = .ok (r, s') → I s')
    (h : ∀ i s, I s → q (m.step i s).post = q s + δ (m.step i s)) {s : σ} (h0 : I s)
    (is : List ι) : q (m.exec s is) = q s + ((m.trace s is).map δ).sum := by
  induction is generalizing s with
  | nil => rw [trace, List.map_nil, List.sum_nil, add_zero]; rfl
  | cons i is ih =>
    rw [exec, ih (step_invariant hI h0), h i s h0, trace, List.map_cons, List.sum_cons, add_assoc]

/-! ## Registers -/

/-- The last value that `w` reads off the steps of a history, where it reads any. -/
def latest {α : Type} (w : Step σ ι ε ρ → Option α) (h : List (Step σ ι ε ρ)) : Option α :=
  h.foldl (fun last t => (w t).or last) none

theorem latest_concat {α : Type} (w : Step σ ι ε ρ → Option α) (h : List (Step σ ι ε ρ))
    (t : Step σ ι ε ρ) : latest w (h ++ [t]) = (w t).or (latest w h) := by
  simp [latest]

/-- The last value was read off some step of the history, and none was read off those after it. -/
theorem latest_eq_some {α : Type} {w : Step σ ι ε ρ → Option α} {h : List (Step σ ι ε ρ)} {x : α}
    (hx : latest w h = some x) :
    ∃ h₁ t h₂, h = h₁ ++ t :: h₂ ∧ w t = some x ∧ ∀ u ∈ h₂, w u = none := by
  induction h using List.reverseRecOn with
  | nil => cases hx
  | append_singleton h t ih =>
    rw [latest_concat] at hx
    cases ht : w t with
    | some y =>
      rw [ht, Option.some_or] at hx
      exact ⟨h, t, [], rfl, ht.trans hx, fun u hu => nomatch hu⟩
    | none =>
      rw [ht, Option.none_or] at hx
      obtain ⟨h₁, u, h₂, rfl, hu, hafter⟩ := ih hx
      refine ⟨h₁, u, h₂ ++ [t], by rw [List.append_assoc, List.cons_append], hu, fun v hv => ?_⟩
      rcases List.mem_append.1 hv with hv | hv
      · exact hafter v hv
      · obtain rfl := List.mem_singleton.1 hv
        exact ht

/-- A part of the state that a successful invocation sets to what `w` reads off its step, and
leaves alone where `w` reads nothing, holds after a run the last value that `w` reads off the
history. -/
theorem latest_exec {α : Type} {q : σ → α} {w : Step σ ι ε ρ → Option α}
    (hok : ∀ i s r s', m.invoke i s = .ok (r, s') → q s' = (w ⟨s, i, .ok r, s'⟩).getD (q s))
    (herr : ∀ i s e, w ⟨s, i, .error e, s⟩ = none) (s : σ) (is : List ι) :
    q (m.exec s is) = (latest w (m.trace s is)).getD (q s) := by
  refine history (H := fun h s' => q s' = (latest w h).getD (q s)) rfl ?_ ?_ is
  · intro h s₁ i r s₂ ih hi
    rw [hok i s₁ r s₂ hi, ih, latest_concat]
    cases w ⟨s₁, i, .ok r, s₂⟩ with
    | none => rfl
    | some x => rfl
  · intro h s₁ i e ih
    rw [latest_concat, herr, Option.none_or]
    exact ih

/-! ## Embedding -/

/-- A machine `m` that keeps a state of the machine `n` in its own: `part` reads it, `forward` says
which invocation of `n` an invocation of `m` passes on, and a successful invocation of `m` does to
it what that one does, or nothing. -/
structure Embedding {τ κ ε' ρ' : Type} (m : Machine σ ι ε ρ) (n : Machine τ κ ε' ρ') where
  part : σ → τ
  forward : ι → Option κ
  init : part m.init = n.init
  forwarded : ∀ {i k s r s'}, m.invoke i s = .ok (r, s') → forward i = some k →
    ∃ r', n.invoke k (part s) = .ok (r', part s')
  kept : ∀ {i s r s'}, m.invoke i s = .ok (r, s') → forward i = none → part s' = part s

/-- What every successful invocation of the embedded machine keeps holds of the part after every
run of the embedding one. -/
theorem Embedding.invariant {τ κ ε' ρ' : Type} {n : Machine τ κ ε' ρ'} (e : Embedding m n)
    {I : τ → Prop} (h0 : I n.init)
    (hstep : ∀ k s r s', I s → n.invoke k s = .ok (r, s') → I s') (is : List ι) :
    I (e.part (m.exec m.init is)) := by
  refine Machine.invariant (I := fun s => I (e.part s)) ?_ ?_ is
  · rw [e.init]
    exact h0
  · intro i s r s' hs hi
    cases hf : e.forward i with
    | none =>
      rw [e.kept hi hf]
      exact hs
    | some k =>
      obtain ⟨r', hk⟩ := e.forwarded hi hf
      exact hstep k _ r' _ hs hk

end Machine

end InvoiceFi
