import InvoiceFi.Lib.Machine
import Mathlib.Data.Rat.Defs
import Mathlib.Algebra.Order.Ring.Rat

/-!
# The circuit breaker (`common/circuit-breaker.service.ts`)

`execute` reads the state of a circuit, awaits the call it protects, and updates the circuit when
the call completes. `breaker` is one circuit as a machine: a call starts, a call that has started
completes, or an operator resets the circuit, in any order and at any time. The phases of a circuit
are the stretches of a run between changes of its state; the machine numbers them, and remembers of
each call in flight the phase it was started in. Nothing of the service reads these numbers.

The service does not ask when a call was started, so a late completion counts in whatever phase it
lands: `counts_own_phase_iff` says that the breaker judges a recovery by the calls of the recovery
exactly as long as every late completion lands where it changes nothing.

The settings are numbers; `timeWindowMs` is read by nothing and left out.
-/

namespace InvoiceFi

namespace Backend

namespace CircuitBreaker

/-! ## Data -/

/-- `CircuitState`. -/
inductive CircuitState where
  | closed
  | opened
  | halfOpen
  deriving DecidableEq, Repr

/-- `CircuitBreakerConfig`. -/
structure CircuitBreakerConfig where
  failureThreshold : ℚ
  resetTimeoutMs : ℚ
  successThresholdHalfOpen : ℚ
  stalenessFailureThreshold : ℚ

/-- `CircuitBreakerInstance`. -/
structure Circuit where
  state : CircuitState
  failures : Nat
  successes : Nat
  lastFailureTime : Option Nat
  nextAttemptTime : Option ℚ
  consecutiveStalenessFailures : Nat
  deriving DecidableEq

/-- The circuit that `getOrCreateCircuit` creates. -/
def Circuit.created : Circuit := ⟨.closed, 0, 0, none, none, 0⟩

/-! ## `execute` -/

/-- The next attempt is due. An attempt time of `0` is never due. -/
def Circuit.due (c : Circuit) (now : Nat) : Bool :=
  match c.nextAttemptTime with
  | none => false
  | some t => decide (t ≠ 0 ∧ t ≤ now)

/-- The part of `execute` before the call: the circuit with which the call is made, or `none` if it
is refused. -/
def enter (now : Nat) (c : Circuit) : Option Circuit :=
  if c.state = .opened then
    if c.due now then
      some { c with
        state := .halfOpen
        successes := 0
        failures := 0
        consecutiveStalenessFailures := 0 }
    else none
  else some c

/-- The part of `execute` after a call that succeeded. -/
def succeed (config : CircuitBreakerConfig) (c : Circuit) : Circuit :=
  let c :=
    match c.state with
    | .halfOpen =>
      let c := { c with successes := c.successes + 1 }
      if config.successThresholdHalfOpen ≤ c.successes then
        { c with
          state := .closed
          failures := 0
          successes := 0
          consecutiveStalenessFailures := 0 }
      else c
    | .closed => { c with failures := 0 }
    | .opened => c
  { c with consecutiveStalenessFailures := 0 }

/-- The part of `execute` after a call that failed, with a staleness error or another one. -/
def fail (config : CircuitBreakerConfig) (now : Nat) (isStaleness : Bool) (c : Circuit) : Circuit :=
  let c := { c with
    failures := c.failures + 1
    lastFailureTime := some now
    consecutiveStalenessFailures :=
      if isStaleness then c.consecutiveStalenessFailures + 1 else 0 }
  match c.state with
  | .halfOpen =>
    { c with
      state := .opened
      nextAttemptTime := some (now + config.resetTimeoutMs) }
  | .closed =>
    if (isStaleness = true ∧
          config.stalenessFailureThreshold ≤ c.consecutiveStalenessFailures) ∨
        config.failureThreshold ≤ c.failures then
      { c with
        state := .opened
        nextAttemptTime := some (now + config.resetTimeoutMs) }
    else c
  | .opened => c

/-- `reset`. -/
def reset (c : Circuit) : Circuit :=
  { c with
    state := .closed
    failures := 0
    successes := 0
    consecutiveStalenessFailures := 0
    nextAttemptTime := none }

/-! ## The circuit as a machine -/

/-- How a call completes. -/
inductive Outcome where
  | success
  | failure (isStaleness : Bool)
  deriving DecidableEq

/-- What happens to the circuit: a call starts, the call of a number completes, or the circuit is
reset. -/
inductive Event where
  | start (now : Nat)
  | complete (k : Nat) (now : Nat) (outcome : Outcome)
  | reset

/-- The circuit, the number of its phase, and the calls made so far: of each one in flight, the
phase it was started in, and `none` for one that was refused or has completed. -/
structure Breaker where
  circuit : Circuit
  phase : Nat
  calls : List (Option Nat)

/-- The breaker with another circuit: a change of the state begins a phase. -/
def Breaker.turn (b : Breaker) (c : Circuit) : Breaker :=
  { b with
    circuit := c
    phase := if c.state = b.circuit.state then b.phase else b.phase + 1 }

/-- The circuit after a completed call. -/
def settle (config : CircuitBreakerConfig) (now : Nat) : Outcome → Circuit → Circuit
  | .success => succeed config
  | .failure isStaleness => fail config now isStaleness

/-- One event. A call that is not in flight does not complete. -/
def handle (config : CircuitBreakerConfig) (b : Breaker) : Event → Breaker
  | .start now =>
    match enter now b.circuit with
    | some c =>
      let b := b.turn c
      { b with calls := b.calls ++ [some b.phase] }
    | none => { b with calls := b.calls ++ [none] }
  | .complete k now outcome =>
    match b.calls[k]? with
    | some (some _) =>
      let b := { b with calls := b.calls.set k none }
      b.turn (settle config now outcome b.circuit)
    | _ => b
  | .reset => b.turn (reset b.circuit)

/-- One circuit, from its creation. -/
def breaker (config : CircuitBreakerConfig) : Machine Breaker Event Empty Unit where
  init := ⟨.created, 0, []⟩
  invoke e b := .ok ((), handle config b e)

/-- A step of the history of a circuit. -/
abbrev BreakerStep := Step Breaker Event Empty Unit

/-! ## Own and late completions -/

/-- The step completes a call, started in the phase `phase`, with the outcome `outcome`. -/
def Completes (t : BreakerStep) (phase : Nat) (outcome : Outcome) : Prop :=
  ∃ k now, t.input = .complete k now outcome ∧ t.pre.calls[k]? = some (some phase)

/-- The step completes a call that was started in an earlier phase. -/
def Late (t : BreakerStep) : Prop :=
  ∃ phase outcome, Completes t phase outcome ∧ phase ≠ t.pre.phase

/-- A late completion that lands where it changes nothing: it is a success, the circuit is not
half-open, no staleness failure is counted and, if the circuit is closed, no failure is. -/
def Harmless (t : BreakerStep) : Prop :=
  (∃ k now, t.input = .complete k now .success) ∧ t.pre.circuit.state ≠ .halfOpen ∧
    t.pre.circuit.consecutiveStalenessFailures = 0 ∧
    (t.pre.circuit.state = .closed → t.pre.circuit.failures = 0)

/-- The number of successes in a row, in a phase, of calls that were started in it, given that
number before a step. -/
def streakStep (n : Nat) (t : BreakerStep) : Nat :=
  if t.post.phase ≠ t.pre.phase then 0
  else
    match t.input with
    | .complete k _ outcome =>
      match t.pre.calls[k]?, outcome with
      | some (some phase), .success => if phase = t.pre.phase then n + 1 else n
      | some (some _), .failure _ => 0
      | _, _ => n
    | _ => n

/-- The number of successes in a row, in the current phase, of calls that were started in it. -/
def streak (h : List BreakerStep) : Nat := h.foldl streakStep 0

/-- A step, after the history `h`, counts the calls of its phase only: a recovery ends well with
the last of enough successes in a row of calls started in it, and badly with the failure of such a
call; and a late completion changes neither the state nor the counters. -/
structure CountsOwnPhase (config : CircuitBreakerConfig) (h : List BreakerStep) (t : BreakerStep) :
    Prop where
  closes : t.pre.circuit.state = .halfOpen → t.post.circuit.state = .closed → t.input ≠ .reset →
    Completes t t.pre.phase .success ∧ config.successThresholdHalfOpen ≤ streak h + 1
  opens : t.pre.circuit.state = .halfOpen → t.post.circuit.state = .opened →
    ∃ isStaleness, Completes t t.pre.phase (.failure isStaleness)
  late : Late t → t.post.circuit.state = t.pre.circuit.state ∧
    t.post.circuit.failures = t.pre.circuit.failures ∧
    t.post.circuit.successes = t.pre.circuit.successes ∧
    t.post.circuit.consecutiveStalenessFailures = t.pre.circuit.consecutiveStalenessFailures

/-! ## What a completion changes -/

section
variable {config : CircuitBreakerConfig} {b : Breaker} {now k phase : Nat} {outcome : Outcome}
  {c : Circuit}

/-- A failure is counted in every state. -/
theorem failures_fail (isStaleness : Bool) :
    (fail config now isStaleness c).failures = c.failures + 1 := by
  unfold fail
  dsimp only
  cases c.state with
  | halfOpen => rfl
  | opened => rfl
  | closed =>
    dsimp only
    rw [apply_ite Circuit.failures, ite_self]

/-- No failure makes the circuit half-open. -/
theorem state_fail_ne_halfOpen (isStaleness : Bool) :
    (fail config now isStaleness c).state ≠ .halfOpen := by
  unfold fail
  dsimp only
  cases hstate : c.state with
  | halfOpen => nofun
  | opened => simp
  | closed =>
    dsimp only
    rw [apply_ite Circuit.state]
    intro h
    by_cases hopens : (isStaleness = true ∧ config.stalenessFailureThreshold ≤
        ↑(if isStaleness = true then c.consecutiveStalenessFailures + 1 else 0)) ∨
          config.failureThreshold ≤ ↑(c.failures + 1)
    · rw [if_pos hopens] at h
      cases h
    · rw [if_neg hopens] at h
      cases h

/-- A completion that changes neither the state nor the counters. -/
theorem settle_unchanged_iff :
    ((settle config now outcome c).state = c.state ∧
      (settle config now outcome c).failures = c.failures ∧
      (settle config now outcome c).successes = c.successes ∧
      (settle config now outcome c).consecutiveStalenessFailures =
        c.consecutiveStalenessFailures) ↔
    outcome = .success ∧ c.state ≠ .halfOpen ∧ c.consecutiveStalenessFailures = 0 ∧
      (c.state = .closed → c.failures = 0) := by
  cases outcome with
  | failure isStaleness =>
    refine iff_of_false ?_ (fun h => nomatch h.1)
    rintro ⟨-, hf, -⟩
    rw [settle, failures_fail] at hf
    omega
  | success =>
    cases hstate : c.state with
    | halfOpen =>
      refine iff_of_false ?_ (fun h => h.2.1 rfl)
      rintro ⟨hs, -, hn, -⟩
      simp only [settle, succeed, hstate] at hs hn
      split at hs
      · cases hs
      · next hfew =>
        rw [if_neg hfew] at hn
        dsimp only at hn
        omega
    | closed => simp [settle, succeed, hstate, eq_comm, and_comm]
    | opened => simp [settle, succeed, hstate, eq_comm]

variable (config now outcome) in
/-- A completion in the half-open state: a failure opens the circuit, the last of enough successes
closes it, and another success is counted. -/
theorem settle_halfOpen (h : c.state = .halfOpen) :
    (∃ isStaleness, outcome = .failure isStaleness ∧
      (settle config now outcome c).state = .opened) ∨
    (outcome = .success ∧ config.successThresholdHalfOpen ≤ (c.successes + 1 : Nat) ∧
      (settle config now outcome c).state = .closed) ∨
    (outcome = .success ∧ (settle config now outcome c).state = .halfOpen ∧
      (settle config now outcome c).successes = c.successes + 1) := by
  cases outcome with
  | failure isStaleness =>
    refine .inl ⟨isStaleness, rfl, ?_⟩
    rw [settle, fail, h]
  | success =>
    by_cases hdone : config.successThresholdHalfOpen ≤ (c.successes + 1 : Nat)
    · refine .inr (.inl ⟨rfl, hdone, ?_⟩)
      rw [settle, succeed, h]
      dsimp only
      rw [if_pos hdone]
    · have hcount : succeed config c =
          { c with successes := c.successes + 1, consecutiveStalenessFailures := 0 } := by
        rw [succeed, h]
        dsimp only
        rw [if_neg hdone]
      rw [settle, hcount]
      exact .inr (.inr ⟨rfl, h, rfl⟩)

/-- No completion makes the circuit half-open. -/
theorem state_of_settle_halfOpen (h : (settle config now outcome c).state = .halfOpen) :
    c.state = .halfOpen := by
  cases outcome with
  | failure isStaleness => exact absurd h (state_fail_ne_halfOpen isStaleness)
  | success =>
    cases hstate : c.state with
    | halfOpen => rfl
    | closed => simp [settle, succeed, hstate] at h
    | opened => simp [settle, succeed, hstate] at h

/-- A completion that leaves the circuit half-open is a success that is counted. -/
theorem settle_stays_halfOpen (h : (settle config now outcome c).state = .halfOpen) :
    c.state = .halfOpen ∧ outcome = .success ∧
      (settle config now outcome c).successes = c.successes + 1 := by
  have hpre := state_of_settle_halfOpen h
  refine ⟨hpre, ?_⟩
  rcases settle_halfOpen config now outcome hpre with
    ⟨_, -, hs⟩ | ⟨-, -, hs⟩ | ⟨rfl, -, hs⟩
  · rw [hs] at h
    cases h
  · rw [hs] at h
    cases h
  · exact ⟨rfl, hs⟩

/-- The call of a half-open circuit is made with the circuit as it is. -/
theorem enter_halfOpen (h : c.state = .halfOpen) : enter now c = some c := by
  rw [enter, if_neg (by rw [h]; decide)]

/-- What a completion of a call in flight leaves. -/
theorem handle_complete (h : b.calls[k]? = some (some phase)) :
    handle config b (.complete k now outcome) =
      ({ b with calls := b.calls.set k none } : Breaker).turn
        (settle config now outcome b.circuit) := by
  rw [handle, h]

/-- A call that is not in flight does not complete. -/
theorem handle_not_in_flight (h : ∀ phase, b.calls[k]? ≠ some (some phase)) :
    handle config b (.complete k now outcome) = b := by
  rw [handle]
  split
  · next phase hk => exact absurd hk (h phase)
  · rfl

/-- Within a phase, only completions of calls of the phase change the streak. -/
theorem streakStep_same_phase {t : BreakerStep} {n : Nat} (h : t.post.phase = t.pre.phase) :
    streakStep n t =
      match t.input with
      | .complete k _ outcome =>
        match t.pre.calls[k]?, outcome with
        | some (some phase), .success => if phase = t.pre.phase then n + 1 else n
        | some (some _), .failure _ => 0
        | _, _ => n
      | _ => n :=
  if_neg (not_not.2 h)

theorem streak_concat (h : List BreakerStep) (t : BreakerStep) :
    streak (h ++ [t]) = streakStep (streak h) t := by
  rw [streak, List.foldl_append]
  rfl

/-- A call that is made while the circuit is not open leaves the circuit as it is. -/
theorem handle_start (h : b.circuit.state ≠ .opened) :
    handle config b (.start now) = { b with calls := b.calls ++ [some b.phase] } := by
  rw [handle, enter, if_neg h]
  simp [Breaker.turn]

/-- A recovery begins with nothing counted. -/
theorem successes_handle_start (h : b.circuit.state = .opened)
    (hpost : (handle config b (.start now)).circuit.state = .halfOpen) :
    (handle config b (.start now)).circuit.successes = 0 := by
  revert hpost
  rw [handle, enter, if_pos h]
  split
  · next c hc =>
    split at hc
    · cases hc
      exact fun _ => rfl
    · cases hc
  · intro hpost
    rw [h] at hpost
    cases hpost

/-- A success of a call of the phase is one more in a row. -/
theorem streakStep_own {n : Nat} (hk : b.calls[k]? = some (some b.phase))
    (hphase : ((breaker config).step (.complete k now .success) b).post.phase = b.phase) :
    streakStep n ((breaker config).step (.complete k now .success) b) = n + 1 := by
  rw [streakStep_same_phase hphase]
  change (match b.calls[k]?, Outcome.success with
    | some (some phase), .success => if phase = b.phase then n + 1 else n
    | some (some _), .failure _ => 0
    | _, _ => n) = _
  rw [hk]
  exact if_pos rfl

/-- A call that is not in flight adds nothing to the streak. -/
theorem streakStep_not_in_flight {n : Nat} (h : ∀ phase, b.calls[k]? ≠ some (some phase)) :
    streakStep n ((breaker config).step (.complete k now outcome) b) = n := by
  rw [streakStep_same_phase (congrArg Breaker.phase (handle_not_in_flight h))]
  change (match b.calls[k]?, outcome with
    | some (some phase), .success => if phase = b.phase then n + 1 else n
    | some (some _), .failure _ => 0
    | _, _ => n) = _
  split
  · next phase hk => exact absurd hk (h phase)
  · next hk => exact absurd hk (h _)
  · rfl

/-- What ends a recovery, other than a reset, is a completion. -/
theorem completes_of_leaving {e : Event} (hpre : b.circuit.state = .halfOpen)
    (hpost : (handle config b e).circuit.state ≠ .halfOpen) (hne : e ≠ .reset) :
    ∃ k now outcome phase, e = .complete k now outcome ∧ b.calls[k]? = some (some phase) ∧
      (handle config b e).circuit = settle config now outcome b.circuit := by
  cases e with
  | reset => exact absurd rfl hne
  | start now =>
    rw [handle, enter_halfOpen hpre] at hpost
    exact absurd hpre hpost
  | complete k now outcome =>
    by_cases hflight : ∃ phase, b.calls[k]? = some (some phase)
    · obtain ⟨phase, hk⟩ := hflight
      exact ⟨k, now, outcome, phase, rfl, hk, congrArg Breaker.circuit (handle_complete hk)⟩
    · rw [handle_not_in_flight fun phase hk => hflight ⟨phase, hk⟩] at hpost
      exact absurd hpre hpost

/-! ## One step -/

/-- A late completion changes neither the state nor the counters exactly if it is harmless. -/
theorem late_unchanged_iff {e : Event} (hlate : Late ((breaker config).step e b)) :
    (((breaker config).step e b).post.circuit.state = b.circuit.state ∧
      ((breaker config).step e b).post.circuit.failures = b.circuit.failures ∧
      ((breaker config).step e b).post.circuit.successes = b.circuit.successes ∧
      ((breaker config).step e b).post.circuit.consecutiveStalenessFailures =
        b.circuit.consecutiveStalenessFailures) ↔ Harmless ((breaker config).step e b) := by
  obtain ⟨phase, outcome, ⟨k, now, rfl, hk⟩, -⟩ := hlate
  have hpost : ((breaker config).step (.complete k now outcome) b).post.circuit =
      settle config now outcome b.circuit :=
    congrArg Breaker.circuit (handle_complete hk)
  rw [hpost, settle_unchanged_iff]
  constructor
  · rintro ⟨rfl, hrest⟩
    exact ⟨⟨k, now, rfl⟩, hrest⟩
  · rintro ⟨⟨k', now', heq⟩, hrest⟩
    cases heq
    exact ⟨rfl, hrest⟩

/-- While the circuit is half-open, it has not counted more successes than calls of the phase have
had in a row. -/
def Counted (h : List BreakerStep) (b : Breaker) : Prop :=
  b.circuit.state = .halfOpen → b.circuit.successes ≤ streak h

/-- A completion in the half-open state that is harmless if it is late is not late. -/
theorem own_of_halfOpen {e : Event} (hstate : b.circuit.state = .halfOpen)
    (hharmless : Late ((breaker config).step e b) → Harmless ((breaker config).step e b))
    (hc : Completes ((breaker config).step e b) phase outcome) : phase = b.phase := by
  by_contra hne
  exact (hharmless ⟨phase, outcome, hc, hne⟩).2.1 hstate

/-- A step whose late completion is harmless keeps the count. -/
theorem Counted.step {h : List BreakerStep} {e : Event} (hcount : Counted h b)
    (hharmless : Late ((breaker config).step e b) → Harmless ((breaker config).step e b)) :
    Counted (h ++ [(breaker config).step e b]) ((breaker config).step e b).post := by
  intro hpost
  rw [streak_concat]
  change (handle config b e).circuit.state = .halfOpen at hpost
  change (handle config b e).circuit.successes ≤ _
  cases e with
  | reset => cases hpost
  | start now =>
    by_cases hopen : b.circuit.state = .opened
    · rw [successes_handle_start hopen hpost]
      exact Nat.zero_le _
    · have hhandle : handle config b (.start now) =
          { b with calls := b.calls ++ [some b.phase] } := handle_start hopen
      have hsame : streakStep (streak h) ((breaker config).step (.start now) b) = streak h :=
        streakStep_same_phase (congrArg Breaker.phase hhandle :)
      rw [hsame, hhandle]
      rw [hhandle] at hpost
      exact hcount hpost
  | complete k now outcome =>
    by_cases hflight : ∃ phase, b.calls[k]? = some (some phase)
    · obtain ⟨phase, hk⟩ := hflight
      rw [handle_complete hk] at hpost ⊢
      obtain ⟨hpre, rfl, hs⟩ := settle_stays_halfOpen hpost
      change (settle config now .success b.circuit).successes ≤ _
      have hown : phase = b.phase := own_of_halfOpen hpre hharmless ⟨k, now, rfl, hk⟩
      have hphase : ((breaker config).step (.complete k now .success) b).post.phase = b.phase := by
        change (handle config b _).phase = _
        rw [handle_complete hk]
        exact if_pos (hpost.trans hpre.symm)
      rw [hown] at hk
      rw [streakStep_own hk hphase, hs]
      exact Nat.succ_le_succ (hcount hpre)
    · have hnot : ∀ phase, b.calls[k]? ≠ some (some phase) := fun phase hk => hflight ⟨phase, hk⟩
      rw [streakStep_not_in_flight hnot, handle_not_in_flight hnot]
      rw [handle_not_in_flight hnot] at hpost
      exact hcount hpost

/-- A recovery whose late completions are harmless ends well with the last of enough successes in a
row of its own calls. -/
theorem Counted.closes {h : List BreakerStep} {e : Event} (hcount : Counted h b)
    (hharmless : Late ((breaker config).step e b) → Harmless ((breaker config).step e b))
    (hpre : b.circuit.state = .halfOpen) (hpost : (handle config b e).circuit.state = .closed)
    (hne : e ≠ .reset) :
    Completes ((breaker config).step e b) b.phase .success ∧
      config.successThresholdHalfOpen ≤ streak h + 1 := by
  have hleft : (handle config b e).circuit.state ≠ .halfOpen := by
    rw [hpost]
    decide
  obtain ⟨k, now, outcome, phase, rfl, hk, hcircuit⟩ := completes_of_leaving hpre hleft hne
  rw [hcircuit] at hpost
  rcases settle_halfOpen config now outcome hpre with ⟨_, -, hs⟩ | ⟨rfl, hdone, -⟩ | ⟨-, hs, -⟩
  · rw [hs] at hpost
    cases hpost
  · have hc : Completes ((breaker config).step (.complete k now .success) b) phase .success :=
      ⟨k, now, rfl, hk⟩
    obtain rfl := own_of_halfOpen hpre hharmless hc
    have hle := hcount hpre
    refine ⟨hc, hdone.trans ?_⟩
    exact_mod_cast Nat.succ_le_succ hle
  · rw [hs] at hpost
    cases hpost

/-- A recovery whose late completions are harmless ends badly with the failure of one of its own
calls. -/
theorem opens_of_harmless {e : Event}
    (hharmless : Late ((breaker config).step e b) → Harmless ((breaker config).step e b))
    (hpre : b.circuit.state = .halfOpen) (hpost : (handle config b e).circuit.state = .opened) :
    ∃ isStaleness, Completes ((breaker config).step e b) b.phase (.failure isStaleness) := by
  have hne : e ≠ .reset := by
    rintro rfl
    cases hpost
  have hleft : (handle config b e).circuit.state ≠ .halfOpen := by
    rw [hpost]
    decide
  obtain ⟨k, now, outcome, phase, rfl, hk, hcircuit⟩ := completes_of_leaving hpre hleft hne
  rw [hcircuit] at hpost
  rcases settle_halfOpen config now outcome hpre with
    ⟨isStaleness, rfl, -⟩ | ⟨-, -, hs⟩ | ⟨-, hs, -⟩
  · have hc : Completes ((breaker config).step (.complete k now (.failure isStaleness)) b) phase
        (.failure isStaleness) := ⟨k, now, rfl, hk⟩
    obtain rfl := own_of_halfOpen hpre hharmless hc
    exact ⟨isStaleness, hc⟩
  · rw [hs] at hpost
    cases hpost
  · rw [hs] at hpost
    cases hpost

/-- A step whose late completion is harmless counts the calls of its phase only. -/
theorem Counted.countsOwnPhase {h : List BreakerStep} {e : Event} (hcount : Counted h b)
    (hharmless : Late ((breaker config).step e b) → Harmless ((breaker config).step e b)) :
    CountsOwnPhase config h ((breaker config).step e b) where
  closes hpre hpost hne := hcount.closes hharmless hpre hpost hne
  opens hpre hpost := opens_of_harmless hharmless hpre hpost
  late hlate := (late_unchanged_iff hlate).2 (hharmless hlate)

end

/-! ## Runs -/

/-- **The breaker counts the calls of the current phase exactly as long as every late completion is
harmless.** In every run of calls that start, complete and overlap in any way, every step counts
the calls of its phase only if and only if every completion of a call of an earlier phase is a
success that finds the circuit not half-open and with no failure counted. -/
theorem counts_own_phase_iff (config : CircuitBreakerConfig) (events : List Event) :
    (∀ es₁ e es₂, events = es₁ ++ e :: es₂ →
      CountsOwnPhase config ((breaker config).trace (breaker config).init es₁)
        ((breaker config).step e ((breaker config).exec (breaker config).init es₁))) ↔
    ∀ t ∈ (breaker config).trace (breaker config).init events, Late t → Harmless t := by
  constructor
  · intro h t ht hlate
    obtain ⟨es₁, e, es₂, hsplit, rfl⟩ := Machine.mem_trace.1 ht
    exact (late_unchanged_iff hlate).1 ((h es₁ e es₂ hsplit).late hlate)
  · rintro h es₁ e es₂ rfl
    have hcount : Counted ((breaker config).trace (breaker config).init es₁)
        ((breaker config).exec (breaker config).init es₁) := by
      refine Machine.history_of (H := Counted)
        (P := fun t => t = (breaker config).step t.input t.pre ∧ (Late t → Harmless t)) ?_ ?_ ?_
      · intro hstate
        cases hstate
      · rintro h t ⟨ht, hharmless⟩ hpre
        rw [ht] at hharmless ⊢
        exact hpre.step hharmless
      · intro t ht
        refine ⟨?_, h t (Machine.mem_trace_append ht)⟩
        obtain ⟨es₃, e', es₄, -, rfl⟩ := Machine.mem_trace.1 ht
        rfl
    exact hcount.countsOwnPhase (h _ (Machine.step_mem_trace _ _ es₁ e es₂))

/-- The default settings. -/
def defaultConfig : CircuitBreakerConfig := ⟨5, 60000, 2, 3⟩

/-- Seven calls start; five of them fail and open the circuit; after the time-out a call of the
recovery starts, and then the two calls that are left of the first phase succeed. -/
def lateSuccesses : List Event :=
  List.replicate 7 (.start 0) ++ (List.range 5).map (.complete · 1 (.failure false)) ++
    [.start 60001, .complete 5 60002 .success, .complete 6 60003 .success]

/-- The two late successes close the circuit, while the only call of the recovery is in flight. -/
theorem closed_by_late_successes :
    ((breaker defaultConfig).exec (breaker defaultConfig).init lateSuccesses).circuit.state =
        .closed ∧
      ¬ ∀ es₁ e es₂, lateSuccesses = es₁ ++ e :: es₂ →
        CountsOwnPhase defaultConfig
          ((breaker defaultConfig).trace (breaker defaultConfig).init es₁)
          ((breaker defaultConfig).step e
            ((breaker defaultConfig).exec (breaker defaultConfig).init es₁)) := by
  refine ⟨by decide +kernel, fun h => ?_⟩
  have hstep := h (lateSuccesses.take 14) (.complete 6 60003 .success) [] rfl
  obtain ⟨⟨k, now, hinput, hk⟩, -⟩ := hstep.closes (by decide +kernel) (by decide +kernel) nofun
  cases hinput
  exact absurd hk (by decide +kernel)

end CircuitBreaker

end Backend

end InvoiceFi
