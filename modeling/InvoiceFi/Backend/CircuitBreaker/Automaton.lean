import InvoiceFi.Backend.CircuitBreaker
import Mathlib.Data.List.DropRight
import Mathlib.Data.Rat.Cast.Order

/-!
# The breaker of calls that do not overlap

`service` is the whole breaker service, a map of named circuits, on calls of `execute` that
complete before the next one starts. Each is the entry and the completion of `CircuitBreaker` with
nothing in between, on the circuit of its name.

What the circuit of a name does is read off the history of that name: `notes` are the completed
calls and the resets, and the runs that the counters count are the ends of that list
(`failureRun`, `stalenessRun`, `successRun`). `Tracked` is the invariant that the counters of each
state hold these runs, and `documented_automaton` is what the documentation says of the states.
-/

namespace InvoiceFi

namespace Backend

namespace CircuitBreaker

/-- Settings that are positive integers. -/
structure Settings where
  failureThreshold : ℕ
  resetTimeoutMs : ℕ
  successThresholdHalfOpen : ℕ
  stalenessFailureThreshold : ℕ
  failureThreshold_pos : 0 < failureThreshold
  resetTimeoutMs_pos : 0 < resetTimeoutMs
  successThresholdHalfOpen_pos : 0 < successThresholdHalfOpen
  stalenessFailureThreshold_pos : 0 < stalenessFailureThreshold

/-- The settings as the service reads them. -/
def Settings.config (s : Settings) : CircuitBreakerConfig :=
  ⟨s.failureThreshold, s.resetTimeoutMs, s.successThresholdHalfOpen, s.stalenessFailureThreshold⟩

/-! ## The service -/

/-- The circuits by name. -/
abbrev Circuits := String → Option Circuit

/-- `getOrCreateCircuit`. -/
def getOrCreateCircuit (circuits : Circuits) (name : String) : Circuit :=
  (circuits name).getD .created

/-- `getState`. -/
def getState (circuits : Circuits) (name : String) : CircuitState :=
  (getOrCreateCircuit circuits name).state

/-- What happens to the service: a call of `execute`, which starts, has its outcome if `fn` is
invoked, and completes, or a call of `reset`. -/
inductive Action where
  | execute (name : String) (started finished : ℕ) (outcome : Outcome)
  | reset (name : String)

/-- The circuit that an action is about. -/
def Action.name : Action → String
  | .execute name _ _ _ => name
  | .reset name => name

/-- `execute` on its circuit: whether it invokes `fn`, and the circuit it leaves. -/
def execute (config : CircuitBreakerConfig) (started finished : ℕ) (outcome : Outcome)
    (c : Circuit) : Bool × Circuit :=
  match enter started c with
  | some c => (true, settle config finished outcome c)
  | none => (false, c)

/-- An action: whether it invokes `fn`, and the circuits it leaves. -/
def perform (config : CircuitBreakerConfig) (circuits : Circuits) : Action → Bool × Circuits
  | .execute name started finished outcome =>
    let (invoked, c) :=
      execute config started finished outcome (getOrCreateCircuit circuits name)
    (invoked, Function.update circuits name (some c))
  | .reset name =>
    (false, Function.update circuits name (some (reset (getOrCreateCircuit circuits name))))

/-- The service, from its construction. -/
def service (s : Settings) : Machine Circuits Action Empty Bool where
  init := fun _ => none
  invoke a circuits := .ok (perform s.config circuits a)

/-- A step of the service's history. -/
abbrev ServiceStep := Step Circuits Action Empty Bool

/-- The step invoked `fn`. -/
def Invoked (t : ServiceStep) : Prop := t.result = .ok true

instance (t : ServiceStep) : Decidable (Invoked t) :=
  decidable_of_iff (t.result.toOption = some true) (by
    unfold Invoked
    cases t.result with
    | error e => exact e.elim
    | ok b => simp [Except.toOption])

/-! ## What a history says of a circuit -/

/-- What a circuit sees of a step: a call of it that invoked `fn`, by its outcome, or a reset. -/
inductive Note where
  | completed (outcome : Outcome)
  | reset
  deriving DecidableEq

/-- What the circuit of the name sees of a step. -/
def note (name : String) (t : ServiceStep) : Option Note :=
  match t.input with
  | .execute n _ _ outcome => if n = name ∧ Invoked t then some (.completed outcome) else none
  | .reset n => if n = name then some .reset else none

/-- What the circuit of the name has seen. -/
def notes (name : String) (h : List ServiceStep) : List Note := h.filterMap (note name)

/-- A failure. -/
def Note.isFailure : Note → Bool
  | .completed (.failure _) => true
  | _ => false

/-- A staleness failure. -/
def Note.isStaleness : Note → Bool
  | .completed (.failure true) => true
  | _ => false

/-- A success. -/
def Note.isSuccess : Note → Bool
  | .completed .success => true
  | _ => false

/-- The current run of failures: those since the last success or reset. -/
def failureRun (name : String) (h : List ServiceStep) : ℕ :=
  ((notes name h).rtakeWhile Note.isFailure).length

/-- The current run of staleness failures: those since the last success, other failure or reset. -/
def stalenessRun (name : String) (h : List ServiceStep) : ℕ :=
  ((notes name h).rtakeWhile Note.isStaleness).length

/-- The current run of successes: those since the last failure or reset. -/
def successRun (name : String) (h : List ServiceStep) : ℕ :=
  ((notes name h).rtakeWhile Note.isSuccess).length

/-- The time at which the step opened the circuit of the name: the failed call of it left it
open. -/
def opensAt (name : String) (t : ServiceStep) : Option ℕ :=
  match t.input with
  | .execute n _ finished (.failure _) =>
    if n = name ∧ Invoked t ∧ getState t.post name = .opened then some finished else none
  | _ => none

/-- When the circuit of the name last opened. -/
def openedAt (name : String) (h : List ServiceStep) : Option ℕ :=
  Machine.latest (opensAt name) h

/-- A step, after the history `h`, follows the documented automaton of the circuit of the name.

* `invokes`, `waits`: a call of a circuit that is not open is invoked; one of an open circuit is,
  exactly when the time-out has passed since it opened.
* `refused`: a call that is not invoked leaves the circuit as it is.
* `trips`: a call of a closed circuit opens it exactly when it completes the run of failures, or
  the run of staleness failures, and otherwise leaves it closed.
* `recovers`: a success on trial closes the circuit exactly when it completes the run of successes,
  and otherwise leaves it half-open.
* `reopens`: a failure on trial opens the circuit anew.
* `resets`: a reset closes the circuit.
* `apart`: what happens to another circuit leaves this one as it is. -/
structure Follows (s : Settings) (name : String) (h : List ServiceStep) (t : ServiceStep) :
    Prop where
  invokes : ∀ started finished outcome, t.input = .execute name started finished outcome →
    getState t.pre name ≠ .opened → Invoked t
  waits : ∀ started finished outcome, t.input = .execute name started finished outcome →
    getState t.pre name = .opened →
    ∃ opened, openedAt name h = some opened ∧
      (Invoked t ↔ opened + s.resetTimeoutMs ≤ started)
  refused : ¬ Invoked t → t.input ≠ .reset name →
    getOrCreateCircuit t.post name = getOrCreateCircuit t.pre name
  trips : ∀ started finished outcome, t.input = .execute name started finished outcome →
    getState t.pre name = .closed →
    getState t.post name =
      if failureRun name (h ++ [t]) = s.failureThreshold ∨
          stalenessRun name (h ++ [t]) = s.stalenessFailureThreshold then .opened
      else .closed
  recovers : ∀ started finished, t.input = .execute name started finished .success →
    Invoked t → getState t.pre name ≠ .closed →
    getState t.post name =
      if successRun name (h ++ [t]) = s.successThresholdHalfOpen then .closed else .halfOpen
  reopens : ∀ started finished isStaleness,
    t.input = .execute name started finished (.failure isStaleness) → Invoked t →
    getState t.pre name ≠ .closed →
    getState t.post name = .opened ∧ openedAt name (h ++ [t]) = some finished
  resets : t.input = .reset name → getState t.post name = .closed
  apart : t.input.name ≠ name → t.post name = t.pre name

/-! ## What a completion leaves -/

section
variable {s : Settings} {started finished : ℕ} {c c' : Circuit}

/-- A success in the closed state. -/
theorem settle_closed_success (h : c.state = .closed) :
    settle s.config finished .success c =
      { c with failures := 0, consecutiveStalenessFailures := 0 } := by
  simp only [settle, succeed, h]

variable (s finished) in
/-- A failure in the closed state. -/
theorem settle_closed_failure (h : c.state = .closed) (isStaleness : Bool) :
    let stale := if isStaleness then c.consecutiveStalenessFailures + 1 else 0
    settle s.config finished (.failure isStaleness) c =
      if (isStaleness = true ∧ s.stalenessFailureThreshold ≤ stale) ∨
          s.failureThreshold ≤ c.failures + 1 then
        { c with
          state := .opened
          failures := c.failures + 1
          lastFailureTime := some finished
          nextAttemptTime := some (finished + s.resetTimeoutMs)
          consecutiveStalenessFailures := stale }
      else
        { c with
          failures := c.failures + 1
          lastFailureTime := some finished
          consecutiveStalenessFailures := stale } := by
  simp only [settle, fail, h, Settings.config, Nat.cast_le]

/-- A success in the half-open state. -/
theorem settle_halfOpen_success (h : c.state = .halfOpen) :
    settle s.config finished .success c =
      if s.successThresholdHalfOpen ≤ c.successes + 1 then
        { c with
          state := .closed
          failures := 0
          successes := 0
          consecutiveStalenessFailures := 0 }
      else { c with successes := c.successes + 1, consecutiveStalenessFailures := 0 } := by
  simp only [settle, succeed, h, Settings.config, Nat.cast_le]
  split
  · rfl
  · rfl

variable (s finished) in
/-- A failure in the half-open state. -/
theorem settle_halfOpen_failure (h : c.state = .halfOpen) (isStaleness : Bool) :
    (settle s.config finished (.failure isStaleness) c).state = .opened ∧
      (settle s.config finished (.failure isStaleness) c).nextAttemptTime =
        some ((finished : ℚ) + s.resetTimeoutMs) := by
  simp only [settle, fail, h, Settings.config, and_self]

end

/-! ## What a step does to a circuit -/

section
variable {s : Settings} {name : String} {h : List ServiceStep} {t : ServiceStep}

/-- What a step can do to the circuit of a name: it is about another circuit, it is a call that is
refused or one that is made and completes, or it is a reset. -/
inductive CircuitStep (s : Settings) (name : String) (t : ServiceStep) : Prop where
  | other (hname : t.input.name ≠ name) (hpost : t.post name = t.pre name)
  | refused (started finished : ℕ) (outcome : Outcome)
      (hinput : t.input = .execute name started finished outcome) (hinvoked : ¬ Invoked t)
      (henter : enter started (getOrCreateCircuit t.pre name) = none)
      (hpost : getOrCreateCircuit t.post name = getOrCreateCircuit t.pre name)
  | completed (started finished : ℕ) (outcome : Outcome) (c : Circuit)
      (hinput : t.input = .execute name started finished outcome) (hinvoked : Invoked t)
      (henter : enter started (getOrCreateCircuit t.pre name) = some c)
      (hpost : getOrCreateCircuit t.post name = settle s.config finished outcome c)
  | reset (hinput : t.input = .reset name)
      (hpost : getOrCreateCircuit t.post name =
        CircuitBreaker.reset (getOrCreateCircuit t.pre name))

/-- The circuit that was written. -/
theorem getOrCreateCircuit_update_self (circuits : Circuits) (name : String) (c : Circuit) :
    getOrCreateCircuit (Function.update circuits name (some c)) name = c := by
  rw [getOrCreateCircuit, Function.update_self, Option.getD_some]

variable (s name) in
/-- Every step is such a step. -/
theorem circuitStep (a : Action) (circuits : Circuits) :
    CircuitStep s name ((service s).step a circuits) := by
  cases a with
  | reset n =>
    by_cases hn : n = name
    · subst hn
      exact .reset rfl (getOrCreateCircuit_update_self ..)
    · exact .other hn (Function.update_of_ne (Ne.symm hn) ..)
  | execute n started finished outcome =>
    by_cases hn : n = name
    · subst hn
      cases henter : enter started (getOrCreateCircuit circuits n) with
      | none =>
        have hperform : perform s.config circuits (.execute n started finished outcome) =
            (false, Function.update circuits n (some (getOrCreateCircuit circuits n))) := by
          simp only [perform, execute, henter]
        have hstep : (service s).step (.execute n started finished outcome) circuits =
            ⟨circuits, .execute n started finished outcome, .ok false, _⟩ :=
          Machine.step_of_ok (congrArg Except.ok hperform)
        rw [hstep]
        exact .refused started finished outcome rfl nofun henter
          (getOrCreateCircuit_update_self ..)
      | some c =>
        have hperform : perform s.config circuits (.execute n started finished outcome) =
            (true, Function.update circuits n (some (settle s.config finished outcome c))) := by
          simp only [perform, execute, henter]
        have hstep : (service s).step (.execute n started finished outcome) circuits =
            ⟨circuits, .execute n started finished outcome, .ok true, _⟩ :=
          Machine.step_of_ok (congrArg Except.ok hperform)
        rw [hstep]
        exact .completed started finished outcome c rfl rfl henter
          (getOrCreateCircuit_update_self ..)
    · exact .other hn (Function.update_of_ne (Ne.symm hn) ..)

/-- A step that the circuit does not see leaves its notes. -/
theorem notes_concat_none (h : List ServiceStep) (ht : note name t = none) :
    notes name (h ++ [t]) = notes name h := by
  simp [notes, ht]

/-- A run after one more note. -/
theorem run_concat (p : Note → Bool) (h : List ServiceStep) {x : Note} (ht : note name t = some x) :
    ((notes name (h ++ [t])).rtakeWhile p).length =
      if p x then ((notes name h).rtakeWhile p).length + 1 else 0 := by
  have hnotes : notes name (h ++ [t]) = notes name h ++ [x] := by simp [notes, ht]
  rw [hnotes, List.rtakeWhile_concat]
  split
  · rw [List.length_append, List.length_singleton]
  · rfl

/-- The runs after a success. -/
theorem runs_of_success (h : List ServiceStep) (ht : note name t = some (.completed .success)) :
    failureRun name (h ++ [t]) = 0 ∧ stalenessRun name (h ++ [t]) = 0 ∧
      successRun name (h ++ [t]) = successRun name h + 1 :=
  ⟨run_concat Note.isFailure h ht, run_concat Note.isStaleness h ht,
    run_concat Note.isSuccess h ht⟩

/-- The runs after a failure. -/
theorem runs_of_failure (h : List ServiceStep) {isStaleness : Bool}
    (ht : note name t = some (.completed (.failure isStaleness))) :
    failureRun name (h ++ [t]) = failureRun name h + 1 ∧
      stalenessRun name (h ++ [t]) = (if isStaleness then stalenessRun name h + 1 else 0) ∧
      successRun name (h ++ [t]) = 0 := by
  have hstale := run_concat Note.isStaleness h ht
  refine ⟨run_concat Note.isFailure h ht, ?_, run_concat Note.isSuccess h ht⟩
  cases isStaleness with
  | true => exact hstale
  | false => exact hstale

/-! ## The counters hold the runs -/

/-- The circuit of the name tracks the history: while it is closed its counters are the runs of
failures and of staleness failures, while it is half-open its counter is the run of successes, and
none of these has reached its threshold; while it is open no success has come since it opened, and
the next attempt is due after the time-out. -/
structure Tracked (s : Settings) (name : String) (h : List ServiceStep) (c : Circuit) : Prop where
  closed : c.state = .closed → c.failures = failureRun name h ∧
    c.consecutiveStalenessFailures = stalenessRun name h ∧
    failureRun name h < s.failureThreshold ∧ stalenessRun name h < s.stalenessFailureThreshold
  halfOpen : c.state = .halfOpen → c.successes = successRun name h ∧
    successRun name h < s.successThresholdHalfOpen
  opened : c.state = .opened → successRun name h = 0 ∧ ∃ opened, openedAt name h = some opened ∧
    c.nextAttemptTime = some ((opened : ℚ) + s.resetTimeoutMs)

variable {started finished : ℕ} {outcome : Outcome} {c c' : Circuit}

/-- Before the first call. -/
theorem Tracked.created (s : Settings) (name : String) : Tracked s name [] .created :=
  ⟨fun _ => ⟨rfl, rfl, s.failureThreshold_pos, s.stalenessFailureThreshold_pos⟩, nofun, nofun⟩

/-- An open circuit is due exactly when the time-out has passed since it opened. -/
theorem due_iff {opened : ℕ}
    (hnext : c.nextAttemptTime = some ((opened : ℚ) + s.resetTimeoutMs)) :
    c.due started = true ↔ opened + s.resetTimeoutMs ≤ started := by
  have hpos := s.resetTimeoutMs_pos
  have hne : (opened : ℚ) + s.resetTimeoutMs ≠ 0 := by
    rw [← Nat.cast_add, Nat.cast_ne_zero]
    omega
  rw [Circuit.due, hnext, decide_eq_true_eq, ← Nat.cast_add, Nat.cast_le]
  rw [← Nat.cast_add] at hne
  exact ⟨And.right, fun h => ⟨hne, h⟩⟩

/-- The circuit with which a call is made tracks the history as well: it is the circuit as it was,
or one that begins a trial. -/
theorem Tracked.enter (hc : Tracked s name h c) (henter : enter started c = some c') :
    Tracked s name h c' ∧ c'.state ≠ .opened ∧ (c'.state = .closed ↔ c.state = .closed) := by
  rw [CircuitBreaker.enter] at henter
  split at henter
  · next hopen =>
    split at henter
    · cases henter
      obtain ⟨hrun, -⟩ := hc.opened hopen
      refine ⟨⟨?_, fun _ => ⟨hrun.symm, hrun ▸ s.successThresholdHalfOpen_pos⟩, ?_⟩, ?_, ?_⟩
      · intro hclosed
        cases hclosed
      · intro hopened
        cases hopened
      · intro hopened
        cases hopened
      · rw [hopen]
        exact iff_of_false (fun hclosed => by cases hclosed) (by decide)
    · cases henter
  · next hclosed =>
    cases henter
    exact ⟨hc, hclosed, Iff.rfl⟩

/-- A step that the circuit does not see. -/
theorem Tracked.unseen (hc : Tracked s name h c) (hnote : note name t = none)
    (hopens : opensAt name t = none) : Tracked s name (h ++ [t]) c := by
  have hopened : openedAt name (h ++ [t]) = openedAt name h := by
    rw [openedAt, Machine.latest_concat, hopens, Option.none_or, ← openedAt]
  have hnotes := notes_concat_none h hnote
  refine ⟨fun hs => ?_, fun hs => ?_, fun hs => ?_⟩
  · rw [failureRun, stalenessRun, hnotes]
    exact hc.closed hs
  · rw [successRun, hnotes]
    exact hc.halfOpen hs
  · rw [successRun, hnotes, hopened]
    exact hc.opened hs

/-- A circuit that has just closed, or been reset. -/
theorem Tracked.of_closed (hstate : c.state = .closed) (hfailures : c.failures = 0)
    (hstale : c.consecutiveStalenessFailures = 0) (hf : failureRun name h = 0)
    (hs : stalenessRun name h = 0) : Tracked s name h c := by
  refine ⟨fun _ => ?_, fun h' => ?_, fun h' => ?_⟩
  · rw [hf, hs]
    exact ⟨hfailures, hstale, s.failureThreshold_pos, s.stalenessFailureThreshold_pos⟩
  · rw [hstate] at h'
    cases h'
  · rw [hstate] at h'
    cases h'

/-- A circuit that has just opened. -/
theorem Tracked.of_opened (hstate : c.state = .opened)
    (hnext : c.nextAttemptTime = some ((finished : ℚ) + s.resetTimeoutMs))
    (hrun : successRun name h = 0) (hopened : openedAt name h = some finished) :
    Tracked s name h c := by
  refine ⟨fun h' => ?_, fun h' => ?_, fun _ => ⟨hrun, finished, hopened, hnext⟩⟩
  · rw [hstate] at h'
    cases h'
  · rw [hstate] at h'
    cases h'

/-- A step that opens the circuit is its last opening. -/
theorem openedAt_concat (h : List ServiceStep) (ht : opensAt name t = some finished) :
    openedAt name (h ++ [t]) = some finished := by
  rw [openedAt, Machine.latest_concat, ht, Option.some_or]

/-- A success keeps track of a closed circuit, and leaves it closed. -/
theorem Tracked.closed_success (hstate : c.state = .closed)
    (hnote : note name t = some (.completed .success)) :
    Tracked s name (h ++ [t]) (settle s.config finished .success c) ∧
      (settle s.config finished .success c).state =
        if failureRun name (h ++ [t]) = s.failureThreshold ∨
            stalenessRun name (h ++ [t]) = s.stalenessFailureThreshold then .opened
        else .closed := by
  obtain ⟨hf, hs, -⟩ := runs_of_success h hnote
  have hfpos := s.failureThreshold_pos
  have hspos := s.stalenessFailureThreshold_pos
  rw [settle_closed_success hstate]
  refine ⟨.of_closed hstate rfl rfl hf hs, ?_⟩
  rw [hf, hs, if_neg (by omega)]
  exact hstate

/-- A failure keeps track of a closed circuit, and opens it exactly when it completes a run. -/
theorem Tracked.closed_failure (hc : Tracked s name h c) (hstate : c.state = .closed)
    {isStaleness : Bool} (hnote : note name t = some (.completed (.failure isStaleness)))
    (hopens : (settle s.config finished (.failure isStaleness) c).state = .opened →
      opensAt name t = some finished) :
    Tracked s name (h ++ [t]) (settle s.config finished (.failure isStaleness) c) ∧
      (settle s.config finished (.failure isStaleness) c).state =
        if failureRun name (h ++ [t]) = s.failureThreshold ∨
            stalenessRun name (h ++ [t]) = s.stalenessFailureThreshold then .opened
        else .closed := by
  obtain ⟨hfailures, hstale, hfless, hsless⟩ := hc.closed hstate
  have hfpos := s.failureThreshold_pos
  have hspos := s.stalenessFailureThreshold_pos
  obtain ⟨hf, hs, hn⟩ := runs_of_failure h hnote
  rw [← hfailures] at hf hfless
  rw [← hstale] at hs hsless
  -- a run that had not reached its threshold reaches it when it gets there
  have htrips : (isStaleness = true ∧ s.stalenessFailureThreshold ≤
        if isStaleness then c.consecutiveStalenessFailures + 1 else 0) ∨
      s.failureThreshold ≤ c.failures + 1 ↔
        failureRun name (h ++ [t]) = s.failureThreshold ∨
          stalenessRun name (h ++ [t]) = s.stalenessFailureThreshold := by
    rw [hf, hs]
    cases isStaleness with
    | true =>
      simp only [if_true, true_and]
      omega
    | false =>
      simp only [Bool.false_eq_true, if_false, false_and, false_or]
      omega
  have hsle : stalenessRun name (h ++ [t]) ≤ c.consecutiveStalenessFailures + 1 := by
    rw [hs]
    split
    · omega
    · omega
  have hsettled := settle_closed_failure s finished hstate isStaleness
  by_cases htrip : failureRun name (h ++ [t]) = s.failureThreshold ∨
      stalenessRun name (h ++ [t]) = s.stalenessFailureThreshold
  · have hsettled := hsettled.trans (if_pos (htrips.2 htrip))
    have hopen := congrArg Circuit.state hsettled
    rw [if_pos htrip]
    exact ⟨.of_opened hopen (congrArg Circuit.nextAttemptTime hsettled) hn
      (openedAt_concat h (hopens hopen)), hopen⟩
  · have hsettled := hsettled.trans (if_neg fun hle => htrip (htrips.1 hle))
    rw [if_neg htrip, hsettled]
    refine ⟨⟨fun _ => ⟨hf.symm, hs.symm, by omega, by omega⟩, fun h' => ?_, fun h' => ?_⟩, hstate⟩
    · exact absurd (hstate.symm.trans h') nofun
    · exact absurd (hstate.symm.trans h') nofun

/-- The state that a completed call on trial leaves, by the run of successes with it. -/
def trialState (s : Settings) (successes : ℕ) : Outcome → CircuitState
  | .success => if successes = s.successThresholdHalfOpen then .closed else .halfOpen
  | .failure _ => .opened

/-- A success on trial keeps track of the circuit, and closes it when it is the last of enough. -/
theorem Tracked.halfOpen_success (hc : Tracked s name h c) (hstate : c.state = .halfOpen)
    (hnote : note name t = some (.completed .success)) :
    Tracked s name (h ++ [t]) (settle s.config finished .success c) ∧
      (settle s.config finished .success c).state =
        trialState s (successRun name (h ++ [t])) .success := by
  obtain ⟨hsuccesses, hless⟩ := hc.halfOpen hstate
  obtain ⟨hf, hs, hn⟩ := runs_of_success h hnote
  rw [← hsuccesses] at hn hless
  rw [settle_halfOpen_success hstate, trialState]
  by_cases hdone : successRun name (h ++ [t]) = s.successThresholdHalfOpen
  · rw [if_pos hdone, if_pos (by omega)]
    exact ⟨.of_closed rfl rfl rfl hf hs, rfl⟩
  · have hfew : ¬ s.successThresholdHalfOpen ≤ c.successes + 1 := by omega
    rw [if_neg hdone, if_neg hfew]
    refine ⟨⟨fun h' => ?_, fun _ => ⟨hn.symm, by omega⟩, fun h' => ?_⟩, hstate⟩
    · exact absurd (hstate.symm.trans h') nofun
    · exact absurd (hstate.symm.trans h') nofun

/-- A failure on trial keeps track of the circuit, and opens it. -/
theorem Tracked.halfOpen_failure (hstate : c.state = .halfOpen) {isStaleness : Bool}
    (hnote : note name t = some (.completed (.failure isStaleness)))
    (hopens : (settle s.config finished (.failure isStaleness) c).state = .opened →
      opensAt name t = some finished) :
    Tracked s name (h ++ [t]) (settle s.config finished (.failure isStaleness) c) ∧
      (settle s.config finished (.failure isStaleness) c).state =
        trialState s (successRun name (h ++ [t])) (.failure isStaleness) := by
  obtain ⟨-, -, hn⟩ := runs_of_failure h hnote
  obtain ⟨hopen, hnext⟩ := settle_halfOpen_failure s finished hstate isStaleness
  exact ⟨.of_opened hopen hnext hn (openedAt_concat h (hopens hopen)), hopen⟩

/-! ## One step -/

/-- A step about another circuit is not seen. -/
theorem unseen_of_name (hname : t.input.name ≠ name) :
    note name t = none ∧ opensAt name t = none := by
  obtain ⟨pre, a, result, post⟩ := t
  cases a with
  | reset n => exact ⟨if_neg hname, rfl⟩
  | execute n started finished outcome =>
    refine ⟨if_neg fun hn => hname hn.1, ?_⟩
    cases outcome with
    | success => rfl
    | failure isStaleness => exact if_neg fun hn => hname hn.1

/-- A refused call is not seen. -/
theorem unseen_of_refused (hinput : t.input = .execute name started finished outcome)
    (hinvoked : ¬ Invoked t) : note name t = none ∧ opensAt name t = none := by
  rw [note, opensAt, hinput]
  refine ⟨if_neg fun hn => hinvoked hn.2, ?_⟩
  cases outcome with
  | success => rfl
  | failure isStaleness => exact if_neg fun hn => hinvoked hn.2.1

/-- A call that was made is seen by its outcome. -/
theorem note_of_completed (hinput : t.input = .execute name started finished outcome)
    (hinvoked : Invoked t) : note name t = some (.completed outcome) := by
  rw [note, hinput]
  exact if_pos ⟨rfl, hinvoked⟩

/-- A failed call that leaves the circuit open opened it. -/
theorem opensAt_of_completed {isStaleness : Bool}
    (hinput : t.input = .execute name started finished (.failure isStaleness))
    (hinvoked : Invoked t) (hopen : getState t.post name = .opened) :
    opensAt name t = some finished := by
  rw [opensAt, hinput]
  exact if_pos ⟨rfl, hinvoked, hopen⟩

/-- A call that is made and completes keeps track, and leaves the state that the runs with it
say. -/
theorem Tracked.completed (hc : Tracked s name h (getOrCreateCircuit t.pre name))
    (hinput : t.input = .execute name started finished outcome) (hinvoked : Invoked t)
    (henter : CircuitBreaker.enter started (getOrCreateCircuit t.pre name) = some c)
    (hpost : getOrCreateCircuit t.post name = settle s.config finished outcome c) :
    Tracked s name (h ++ [t]) (getOrCreateCircuit t.post name) ∧
      getState t.post name =
        if getState t.pre name = .closed then
          if failureRun name (h ++ [t]) = s.failureThreshold ∨
              stalenessRun name (h ++ [t]) = s.stalenessFailureThreshold then .opened
          else .closed
        else trialState s (successRun name (h ++ [t])) outcome := by
  obtain ⟨hentered, hstate, hclosed⟩ := hc.enter henter
  have hnote := note_of_completed hinput hinvoked
  have hopen : (settle s.config finished outcome c).state = .opened →
      getState t.post name = .opened := fun hopen => by rw [getState, hpost, hopen]
  rw [getState, hpost]
  cases hs : c.state with
  | closed =>
    have hpre : getState t.pre name = .closed := hclosed.1 hs
    rw [if_pos hpre]
    cases outcome with
    | success => exact Tracked.closed_success hs hnote
    | failure isStaleness =>
      exact hentered.closed_failure hs hnote fun h' =>
        opensAt_of_completed hinput hinvoked (hopen h')
  | halfOpen =>
    have hpre : getState t.pre name ≠ .closed := by
      intro hpre
      rw [hclosed.2 hpre] at hs
      cases hs
    rw [if_neg hpre]
    cases outcome with
    | success => exact hentered.halfOpen_success hs hnote
    | failure isStaleness =>
      exact Tracked.halfOpen_failure hs hnote fun h' =>
        opensAt_of_completed hinput hinvoked (hopen h')
  | opened => exact absurd hs hstate

/-- Every step keeps track. -/
theorem Tracked.step (hc : Tracked s name h (getOrCreateCircuit t.pre name))
    (ht : CircuitStep s name t) :
    Tracked s name (h ++ [t]) (getOrCreateCircuit t.post name) := by
  cases ht with
  | other hname hpost =>
    have hsame : getOrCreateCircuit t.post name = getOrCreateCircuit t.pre name := by
      rw [getOrCreateCircuit, getOrCreateCircuit, hpost]
    rw [hsame]
    exact hc.unseen (unseen_of_name hname).1 (unseen_of_name hname).2
  | refused started finished outcome hinput hinvoked henter hpost =>
    obtain ⟨hnote, hopens⟩ := unseen_of_refused hinput hinvoked
    rw [hpost]
    exact hc.unseen hnote hopens
  | completed started finished outcome c hinput hinvoked henter hpost =>
    exact (hc.completed hinput hinvoked henter hpost).1
  | reset hinput hpost =>
    have hnote : note name t = some .reset := by
      rw [note, hinput]
      exact if_pos rfl
    rw [hpost]
    exact .of_closed rfl rfl rfl (run_concat Note.isFailure h hnote)
      (run_concat Note.isStaleness h hnote)

/-- What a call of the circuit is. -/
theorem CircuitStep.of_execute (ht : CircuitStep s name t)
    (hinput : t.input = .execute name started finished outcome) :
    (¬ Invoked t ∧ enter started (getOrCreateCircuit t.pre name) = none) ∨
    (Invoked t ∧ ∃ c, enter started (getOrCreateCircuit t.pre name) = some c ∧
      getOrCreateCircuit t.post name = settle s.config finished outcome c) := by
  cases ht with
  | other hname hpost => exact absurd (by rw [hinput]; rfl) hname
  | refused st fin o hi hinvoked henter hpost =>
    cases hinput.symm.trans hi
    exact .inl ⟨hinvoked, henter⟩
  | completed st fin o c hi hinvoked henter hpost =>
    cases hinput.symm.trans hi
    exact .inr ⟨hinvoked, c, henter, hpost⟩
  | reset hi hpost => cases hinput.symm.trans hi

/-- A call is refused by an open circuit that is not due. -/
theorem enter_eq_none_iff :
    enter started c = none ↔ c.state = .opened ∧ c.due started = false := by
  rw [CircuitBreaker.enter]
  by_cases hopen : c.state = .opened
  · rw [if_pos hopen]
    cases hdue : c.due started with
    | true => simp
    | false => simp [hopen]
  · simp [hopen]

/-- What a call that was made leaves: the state that the runs with it say. -/
theorem Tracked.state_of_completed (hc : Tracked s name h (getOrCreateCircuit t.pre name))
    (ht : CircuitStep s name t) (hinput : t.input = .execute name started finished outcome)
    (hinvoked : Invoked t) :
    getState t.post name =
      if getState t.pre name = .closed then
        if failureRun name (h ++ [t]) = s.failureThreshold ∨
            stalenessRun name (h ++ [t]) = s.stalenessFailureThreshold then .opened else .closed
      else trialState s (successRun name (h ++ [t])) outcome := by
  rcases ht.of_execute hinput with ⟨hnot, -⟩ | ⟨-, c, henter, hpost⟩
  · exact absurd hinvoked hnot
  · exact (hc.completed hinput hinvoked henter hpost).2

/-- A circuit that is not open lets every call through. -/
theorem CircuitStep.invoked (ht : CircuitStep s name t)
    (hinput : t.input = .execute name started finished outcome)
    (hstate : getState t.pre name ≠ .opened) : Invoked t := by
  rcases ht.of_execute hinput with ⟨-, hnone⟩ | ⟨hinvoked, -⟩
  · exact absurd (enter_eq_none_iff.1 hnone).1 hstate
  · exact hinvoked

/-- An open circuit lets a call through exactly when it is due. -/
theorem CircuitStep.invoked_iff (ht : CircuitStep s name t)
    (hinput : t.input = .execute name started finished outcome)
    (hstate : getState t.pre name = .opened) :
    Invoked t ↔ (getOrCreateCircuit t.pre name).due started = true := by
  rcases ht.of_execute hinput with ⟨hnot, hnone⟩ | ⟨hinvoked, c, henter, -⟩
  · rw [(enter_eq_none_iff.1 hnone).2]
    exact iff_of_false hnot Bool.false_ne_true
  · refine iff_of_true hinvoked ?_
    by_contra hdue
    rw [enter_eq_none_iff.2 ⟨hstate, Bool.eq_false_iff.2 hdue⟩] at henter
    cases henter

/-- A call that is not let through leaves the circuit as it is. -/
theorem CircuitStep.same (ht : CircuitStep s name t) (hnot : ¬ Invoked t)
    (hreset : t.input ≠ .reset name) :
    getOrCreateCircuit t.post name = getOrCreateCircuit t.pre name := by
  cases ht with
  | other hname hpost => rw [getOrCreateCircuit, getOrCreateCircuit, hpost]
  | refused _ _ _ _ _ _ hpost => exact hpost
  | completed _ _ _ _ _ hinvoked _ _ => exact absurd hinvoked hnot
  | reset hinput _ => exact absurd hinput hreset

/-- A step of a circuit that tracks its history follows the documented automaton. -/
theorem Tracked.follows (hc : Tracked s name h (getOrCreateCircuit t.pre name))
    (ht : CircuitStep s name t) : Follows s name h t := by
  constructor
  case invokes => exact fun _ _ _ hinput hstate => ht.invoked hinput hstate
  case waits =>
    intro started finished outcome hinput hstate
    obtain ⟨-, opened, hopened, hnext⟩ := hc.opened hstate
    exact ⟨opened, hopened, (ht.invoked_iff hinput hstate).trans (due_iff hnext)⟩
  case refused => exact ht.same
  case trips =>
    intro started finished outcome hinput hstate
    have hinvoked := ht.invoked hinput (by rw [hstate]; nofun)
    rw [hc.state_of_completed ht hinput hinvoked, if_pos hstate]
  case recovers =>
    intro started finished hinput hinvoked hstate
    rw [hc.state_of_completed ht hinput hinvoked, if_neg hstate, trialState]
  case reopens =>
    intro started finished isStaleness hinput hinvoked hstate
    have hopen : getState t.post name = .opened := by
      rw [hc.state_of_completed ht hinput hinvoked, if_neg hstate, trialState]
    exact ⟨hopen, openedAt_concat h (opensAt_of_completed hinput hinvoked hopen)⟩
  case resets =>
    intro hinput
    cases ht with
    | other hname _ => exact absurd (by rw [hinput]; rfl) hname
    | refused _ _ _ hi _ _ _ => cases hinput.symm.trans hi
    | completed _ _ _ _ hi _ _ _ => cases hinput.symm.trans hi
    | reset _ hpost =>
      rw [getState, hpost]
      rfl
  case apart =>
    intro hname
    cases ht with
    | other _ hpost => exact hpost
    | refused _ _ _ hi _ _ _ => exact absurd (by rw [hi]; rfl) hname
    | completed _ _ _ _ hi _ _ _ => exact absurd (by rw [hi]; rfl) hname
    | reset hi _ => exact absurd (by rw [hi]; rfl) hname

/-! ## Runs -/

/-- After every run every circuit tracks its history. -/
theorem tracked_exec (s : Settings) (name : String) (as : List Action) :
    Tracked s name ((service s).trace (service s).init as)
      (getOrCreateCircuit ((service s).exec (service s).init as) name) := by
  refine Machine.history_of (m := service s)
    (H := fun h circuits => Tracked s name h (getOrCreateCircuit circuits name))
    (P := CircuitStep s name) ?_ (fun h t ht hc => hc.step ht) fun t ht => ?_
  · exact Tracked.created s name
  · obtain ⟨as₁, a, as₂, -, rfl⟩ := Machine.mem_trace.1 ht
    exact circuitStep s name a _

/-- An action leaves of its circuit what it would leave of it among other circuits. -/
theorem perform_congr (config : CircuitBreakerConfig) {circuits circuits' : Circuits} {a : Action}
    (h : circuits a.name = circuits' a.name) :
    (perform config circuits a).2 a.name = (perform config circuits' a).2 a.name := by
  cases a with
  | execute n started finished outcome =>
    have hsame : getOrCreateCircuit circuits n = getOrCreateCircuit circuits' n :=
      congrArg (·.getD .created) h
    simp only [perform, hsame, Action.name, Function.update_self]
  | reset n =>
    have hsame : getOrCreateCircuit circuits n = getOrCreateCircuit circuits' n :=
      congrArg (·.getD .created) h
    simp only [perform, hsame, Action.name, Function.update_self]

/-- The circuit of a name is as if its own actions had been the only ones. -/
theorem exec_own (s : Settings) (as : List Action) (name : String) :
    (service s).exec (service s).init as name =
      (service s).exec (service s).init (as.filter fun a => a.name = name) name := by
  induction as using List.reverseRecOn with
  | nil => rfl
  | append_singleton as a ih =>
    rw [Machine.exec_concat, List.filter_append]
    by_cases hname : a.name = name
    · subst hname
      have hown : [a].filter (fun b => b.name = a.name) = [a] := by simp
      rw [hown, Machine.exec_concat]
      exact perform_congr s.config ih
    · have hother : [a].filter (fun b => b.name = name) = [] := by simp [hname]
      rw [hother, List.append_nil, ← ih]
      have hfollows := (tracked_exec s name as).follows (circuitStep s name a _)
      exact hfollows.apart hname

/-- **The breaker is the documented automaton**, for all positive integer settings and every
sequence of calls and resets, of any circuits at any times. Every step follows the automaton of
every circuit, and the circuit of a name is as if its own actions had been the only ones. -/
theorem documented_automaton (s : Settings) (as : List Action) (name : String) :
    (∀ as₁ a as₂, as = as₁ ++ a :: as₂ →
      Follows s name ((service s).trace (service s).init as₁)
        ((service s).step a ((service s).exec (service s).init as₁))) ∧
    (service s).exec (service s).init as name =
      (service s).exec (service s).init (as.filter fun a => a.name = name) name := by
  refine ⟨fun as₁ a as₂ _ => ?_, exec_own s as name⟩
  exact (tracked_exec s name as₁).follows (circuitStep s name a _)

end

end CircuitBreaker

end Backend

end InvoiceFi
