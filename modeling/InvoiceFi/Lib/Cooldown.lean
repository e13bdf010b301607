import InvoiceFi.Lib.Machine
import Mathlib.Data.Rat.Defs
import Mathlib.Algebra.Order.Ring.Rat
import Mathlib.Logic.Function.Basic
import Mathlib.Tactic.Linarith

/-!
# Machines with a cooldown

A machine with a cooldown is offered keys, each at a time, and lets a key pass unless it has let
the same key pass less than a period before. It remembers the time of the last passage of each key;
a time of 0 counts as none, as in a program that tests the time for truth.

The rules a development uses by name: `Cooldown.sentAt_eq_some_iff` (the time of a key is that of
its last passage), `Cooldown.held_after` (a key that is held has passed less than the period before)
and `Cooldown.apart` (two passages of one key are a period apart, as long as the clock does not go
back). -/

namespace InvoiceFi

/-- The time is less than the period after the last passage. -/
def Within (period : ℚ) (last : Option Nat) (now : Nat) : Prop :=
  match last with
  | none => False
  | some previous => previous ≠ 0 ∧ (now : ℚ) - previous < period

instance (period : ℚ) (last : Option Nat) (now : Nat) : Decidable (Within period last now) := by
  unfold Within
  cases last <;> infer_instance

/-- A machine `m` that is offered keys and lets them pass under a cooldown. -/
structure Cooldown {σ ι ε ρ : Type} (m : Machine σ ι ε ρ) (κ : Type) [DecidableEq κ] where
  period : ℚ
  /-- The last passage of each key. -/
  sentAt : σ → κ → Option Nat
  /-- The key that a step is offered, and the time. -/
  offer : Step σ ι ε ρ → Option (κ × Nat)
  /-- The step lets the key pass. -/
  Passes : Step σ ι ε ρ → Prop
  init : ∀ k, sentAt m.init k = none
  idle : ∀ {i s}, offer (m.step i s) = none → sentAt (m.step i s).post = sentAt s
  held : ∀ {i s k now}, offer (m.step i s) = some (k, now) → ¬ Passes (m.step i s) →
    Within period (sentAt s k) now ∧ sentAt (m.step i s).post = sentAt s
  passed : ∀ {i s k now}, offer (m.step i s) = some (k, now) → Passes (m.step i s) →
    ¬ Within period (sentAt s k) now ∧
      sentAt (m.step i s).post = Function.update (sentAt s) k (some now)

namespace Cooldown

variable {σ ι ε ρ : Type} {m : Machine σ ι ε ρ} {κ : Type} [DecidableEq κ]

/-- The step lets the key pass at the time. -/
def Sends (c : Cooldown m κ) (t : Step σ ι ε ρ) (k : κ) (now : Nat) : Prop :=
  c.offer t = some (k, now) ∧ c.Passes t

/-- A step that does not let a key pass leaves the times as they are, and one that does sets the
time of its key. -/
theorem sentAt_step (c : Cooldown m κ) (i : ι) (s : σ) :
    c.sentAt (m.step i s).post = c.sentAt s ∧ (∀ k now, ¬ c.Sends (m.step i s) k now) ∨
    ∃ k now, c.Sends (m.step i s) k now ∧
      c.sentAt (m.step i s).post = Function.update (c.sentAt s) k (some now) := by
  cases ho : c.offer (m.step i s) with
  | none => exact .inl ⟨c.idle ho, fun k now h => by cases ho.symm.trans h.1⟩
  | some o =>
    obtain ⟨k, now⟩ := o
    by_cases hp : c.Passes (m.step i s)
    · exact .inr ⟨k, now, ⟨ho, hp⟩, (c.passed ho hp).2⟩
    · exact .inl ⟨(c.held ho hp).2, fun k now h => hp h.2⟩

/-- The time of a key is the time of a passage of it. -/
theorem sends_of_sentAt (c : Cooldown m κ) {is : List ι} {k : κ} {previous : Nat}
    (h : c.sentAt (m.exec m.init is) k = some previous) :
    ∃ u ∈ m.trace m.init is, c.Sends u k previous := by
  induction is using List.reverseRecOn with
  | nil => cases (c.init k).symm.trans h
  | append_singleton is i ih =>
    rw [m.exec_concat] at h
    rw [m.trace_concat]
    rcases c.sentAt_step i (m.exec m.init is) with ⟨heq, -⟩ | ⟨k', now, hsends, heq⟩
    · rw [heq] at h
      obtain ⟨u, hu, hsends⟩ := ih h
      exact ⟨u, List.mem_append_left _ hu, hsends⟩
    · rw [heq] at h
      rcases eq_or_ne k k' with rfl | hne
      · rw [Function.update_self, Option.some.injEq] at h
        exact ⟨_, List.mem_append_right _ (.head _), h ▸ hsends⟩
      · rw [Function.update_of_ne hne] at h
        obtain ⟨u, hu, hsends⟩ := ih h
        exact ⟨u, List.mem_append_left _ hu, hsends⟩

/-- A key that is held has passed less than the period before. -/
theorem held_after (c : Cooldown m κ) (is : List ι) (i : ι) {k : κ} {now : Nat}
    (ho : c.offer (m.step i (m.exec m.init is)) = some (k, now))
    (hp : ¬ c.Passes (m.step i (m.exec m.init is))) :
    ∃ u ∈ m.trace m.init is, ∃ previous, c.Sends u k previous ∧ previous ≠ 0 ∧
      (now : ℚ) - previous < c.period := by
  have hwithin := (c.held ho hp).1
  cases hlast : c.sentAt (m.exec m.init is) k with
  | none => rw [hlast] at hwithin; exact hwithin.elim
  | some previous =>
    rw [hlast] at hwithin
    obtain ⟨u, hu, hsends⟩ := c.sends_of_sentAt hlast
    exact ⟨u, hu, previous, hsends, hwithin⟩

/-- The key has last passed at the time. -/
def LastSent (c : Cooldown m κ) (ts : List (Step σ ι ε ρ)) (k : κ) (now : Nat) : Prop :=
  ∃ before u after, ts = before ++ u :: after ∧ c.Sends u k now ∧
    ∀ t ∈ after, ∀ later, ¬ c.Sends t k later

/-- The time of a key is that of its last passage. -/
theorem sentAt_eq_some_iff (c : Cooldown m κ) {is : List ι} {k : κ} {now : Nat} :
    c.sentAt (m.exec m.init is) k = some now ↔ c.LastSent (m.trace m.init is) k now := by
  induction is using List.reverseRecOn with
  | nil =>
    refine ⟨fun h => ?_, fun ⟨before, u, after, h, _⟩ => ?_⟩
    · cases (c.init k).symm.trans h
    · exact absurd h.symm (List.append_ne_nil_of_right_ne_nil _ (List.cons_ne_nil _ _))
  | append_singleton is i ih =>
    rw [m.exec_concat, m.trace_concat]
    constructor
    · intro h
      by_cases hsends : ∃ later, c.Sends (m.step i (m.exec m.init is)) k later
      · obtain ⟨later, hsends⟩ := hsends
        rw [(c.passed hsends.1 hsends.2).2, Function.update_self, Option.some.injEq] at h
        exact ⟨_, _, [], rfl, h ▸ hsends, nofun⟩
      · have hsame : c.sentAt (m.exec m.init is) k = some now := by
          rcases c.sentAt_step i (m.exec m.init is) with ⟨heq, -⟩ | ⟨k', later, hlater, heq⟩
          · rwa [heq] at h
          · rwa [heq, Function.update_of_ne] at h
            rintro rfl
            exact hsends ⟨later, hlater⟩
        obtain ⟨before, u, after, hsplit, hu, hafter⟩ := ih.1 hsame
        refine ⟨before, u, after ++ [m.step i (m.exec m.init is)], by rw [hsplit,
          List.append_assoc, List.cons_append], hu, fun t ht later hlater => ?_⟩
        rcases List.mem_append.1 ht with ht | ht
        · exact hafter t ht later hlater
        · rw [List.mem_singleton.1 ht] at hlater
          exact hsends ⟨later, hlater⟩
    · rintro ⟨before, u, after, hsplit, hu, hafter⟩
      rcases List.eq_nil_or_concat' after with rfl | ⟨after, t, rfl⟩
      · obtain ⟨-, ht⟩ := List.append_inj' hsplit rfl
        cases ht
        rw [(c.passed hu.1 hu.2).2, Function.update_self]
      · rw [← List.cons_append, ← List.append_assoc] at hsplit
        obtain ⟨hbefore, ht⟩ := List.append_inj' hsplit rfl
        cases ht
        have hlast := ih.2 ⟨before, u, after, hbefore, hu,
          fun t ht => hafter t (List.mem_append_left _ ht)⟩
        rcases c.sentAt_step i (m.exec m.init is) with ⟨heq, -⟩ | ⟨k', later, hlater, heq⟩
        · rw [heq, hlast]
        · rw [heq, Function.update_of_ne, hlast]
          rintro rfl
          exact hafter _ (List.mem_append_right _ (.head _)) later hlater

/-- With a period that is not negative, the time of a key that has passed is not before any of its
passages, whatever the clock does. -/
theorem le_sentAt_of_nonneg (c : Cooldown m κ) (hperiod : 0 ≤ c.period) {is : List ι}
    {u : Step σ ι ε ρ} (hu : u ∈ m.trace m.init is) {k : κ} {previous : Nat}
    (hsends : c.Sends u k previous) :
    ∃ last, c.sentAt (m.exec m.init is) k = some last ∧ previous ≤ last := by
  induction is using List.reverseRecOn with
  | nil => cases hu
  | append_singleton is i ih =>
    rw [m.exec_concat]
    rw [m.trace_concat, List.mem_append, List.mem_singleton] at hu
    rcases hu with hu | rfl
    · obtain ⟨last, hlast, hle⟩ := ih hu
      rcases c.sentAt_step i (m.exec m.init is) with ⟨heq, -⟩ | ⟨k', now, hsends', heq⟩
      · exact ⟨last, by rw [heq, hlast], hle⟩
      · rcases eq_or_ne k k' with rfl | hne
        · refine ⟨now, by rw [heq, Function.update_self], ?_⟩
          rcases Nat.eq_zero_or_pos previous with rfl | hpos
          · exact Nat.zero_le _
          -- the passage is a period after the one on record
          have hnot := (c.passed hsends'.1 hsends'.2).1
          rw [hlast] at hnot
          have hnear : ¬ (now : ℚ) - last < c.period := fun h => hnot ⟨by omega, h⟩
          have hcast : (last : ℚ) ≤ now := by linarith
          exact hle.trans (by exact_mod_cast hcast)
        · exact ⟨last, by rw [heq, Function.update_of_ne hne, hlast], hle⟩
    · exact ⟨previous, by rw [(c.passed hsends.1 hsends.2).2, Function.update_self], le_rfl⟩

/-- A clock that does not go back from one passage of a key to the next. -/
def Ordered (c : Cooldown m κ) (is : List ι) : Prop :=
  (m.trace m.init is).Pairwise fun u t =>
    ∀ k previous now, c.Sends u k previous → c.Sends t k now → previous ≤ now

/-- The time of a key that has passed is not before any of its passages. -/
theorem le_sentAt (c : Cooldown m κ) {is : List ι} (hclock : c.Ordered is)
    {u : Step σ ι ε ρ} (hu : u ∈ m.trace m.init is) {k : κ} {previous : Nat}
    (hsends : c.Sends u k previous) :
    ∃ last, c.sentAt (m.exec m.init is) k = some last ∧ previous ≤ last := by
  induction is using List.reverseRecOn with
  | nil => cases hu
  | append_singleton is i ih =>
    rw [Ordered, m.trace_concat, List.pairwise_append] at hclock
    rw [m.exec_concat]
    rw [m.trace_concat, List.mem_append, List.mem_singleton] at hu
    rcases c.sentAt_step i (m.exec m.init is) with ⟨heq, hno⟩ | ⟨k', now, hlast, heq⟩
    · rw [heq]
      rcases hu with hu | rfl
      · exact ih hclock.1 hu
      · exact absurd hsends (hno _ _)
    · rw [heq]
      rcases eq_or_ne k k' with rfl | hne
      · refine ⟨now, Function.update_self .., ?_⟩
        rcases hu with hu | rfl
        · exact hclock.2.2 u hu _ (.head _) _ _ _ hsends hlast
        · cases hsends.1.symm.trans hlast.1
          exact le_rfl
      · rw [Function.update_of_ne hne]
        rcases hu with hu | rfl
        · exact ih hclock.1 hu
        · cases hsends.1.symm.trans hlast.1
          exact absurd rfl hne

/-- **Two passages of one key are a period apart**, if the clock does not go back and the first
one's time counts. -/
theorem apart (c : Cooldown m κ) {is : List ι} (hclock : c.Ordered is) :
    (m.trace m.init is).Pairwise fun u t => ∀ k previous now, c.Sends u k previous →
      c.Sends t k now → previous ≠ 0 → (previous : ℚ) + c.period ≤ now := by
  refine Machine.pairwise_trace fun is₁ i is₂ his u hu k previous now hsends ht h0 => ?_
  have hclock₁ : c.Ordered is₁ := by
    rw [Ordered, his, m.trace_append, List.pairwise_append] at hclock
    exact hclock.1
  obtain ⟨last, hlast, hle⟩ := c.le_sentAt hclock₁ hu hsends
  have hnot := (c.passed ht.1 ht.2).1
  rw [hlast] at hnot
  have hnear : ¬ (now : ℚ) - last < c.period := fun h => hnot ⟨by omega, h⟩
  have hcast : (previous : ℚ) ≤ last := by exact_mod_cast hle
  linarith

end Cooldown

end InvoiceFi
