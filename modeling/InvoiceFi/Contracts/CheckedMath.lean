import InvoiceFi.Contracts.Host
import Mathlib.Algebra.Order.Ring.Int

/-!
# Checked arithmetic (`contracts/common/src/checked_math.rs`)

The four checked operations the contracts compute amounts with. Each wraps the `checked` operation
of `i128` and names the error from the signs of its operands. The contracts only ever ask whether
the operation succeeded and with what, which is the `_eq_ok` lemma of each. That the signs name the
right error is `checked_exact`.
-/

namespace InvoiceFi

/-- `CheckedMathError`. -/
inductive CheckedMathError where
  | overflow
  | underflow
  | divisionByZero
  deriving DecidableEq, Repr

namespace CheckedMath

/-- `checked_add`. -/
def checkedAdd (a b : I128) : Except CheckedMathError I128 :=
  match a.checkedAdd b with
  | some v => .ok v
  | none => if 0 < a.val ∧ 0 < b.val then .error .overflow else .error .underflow

/-- `checked_sub`. -/
def checkedSub (a b : I128) : Except CheckedMathError I128 :=
  match a.checkedSub b with
  | some v => .ok v
  | none => if b.val < 0 then .error .overflow else .error .underflow

/-- `checked_mul`. -/
def checkedMul (a b : I128) : Except CheckedMathError I128 :=
  match a.checkedMul b with
  | some v => .ok v
  | none =>
    if (0 < a.val ∧ 0 < b.val) ∨ (a.val < 0 ∧ b.val < 0) then .error .overflow
    else .error .underflow

/-- `checked_div`. -/
def checkedDiv (a b : I128) : Except CheckedMathError I128 :=
  if b.val = 0 then .error .divisionByZero
  else
    match a.checkedDiv b with
    | some v => .ok v
    | none => .error .overflow

/-- A checked sum that is returned is the sum. -/
@[simp] theorem checkedAdd_eq_ok {a b c : I128} :
    checkedAdd a b = .ok c ↔ c.val = a.val + b.val := by
  rw [checkedAdd, ← I128.ofInt?_eq_some, I128.checkedAdd]
  cases I128.ofInt? (a.val + b.val) with
  | some v => simp
  | none => simp only [reduceCtorEq, iff_false]; split <;> simp

/-- A checked difference that is returned is the difference. -/
@[simp] theorem checkedSub_eq_ok {a b c : I128} :
    checkedSub a b = .ok c ↔ c.val = a.val - b.val := by
  rw [checkedSub, ← I128.ofInt?_eq_some, I128.checkedSub]
  cases I128.ofInt? (a.val - b.val) with
  | some v => simp
  | none => simp only [reduceCtorEq, iff_false]; split <;> simp

/-- A checked product that is returned is the product. -/
@[simp] theorem checkedMul_eq_ok {a b c : I128} :
    checkedMul a b = .ok c ↔ c.val = a.val * b.val := by
  rw [checkedMul, ← I128.ofInt?_eq_some, I128.checkedMul]
  cases I128.ofInt? (a.val * b.val) with
  | some v => simp
  | none => simp only [reduceCtorEq, iff_false]; split <;> simp

/-- A checked quotient that is returned is the truncated quotient by a non-zero divisor. -/
@[simp] theorem checkedDiv_eq_ok {a b c : I128} :
    checkedDiv a b = .ok c ↔ b.val ≠ 0 ∧ c.val = a.val.tdiv b.val := by
  rw [checkedDiv, I128.checkedDiv]
  split
  · next h => simp [h]
  · next h =>
    rw [← I128.ofInt?_eq_some (v := a.val.tdiv b.val)]
    cases I128.ofInt? (a.val.tdiv b.val) with
    | some v => simp [h]
    | none => simp

/-! ## The kind of the error -/

/-- The result returns exactly the value `v`, and says on which side of the range it is if it is not
inside. -/
structure Classifies (r : Except CheckedMathError I128) (v : Int) : Prop where
  ok : ∀ c, r = .ok c ↔ c.val = v
  in_range : (∃ c, r = .ok c) ↔ -2 ^ 127 ≤ v ∧ v < 2 ^ 127
  overflow : r = .error .overflow ↔ 2 ^ 127 ≤ v
  underflow : r = .error .underflow ↔ v < -2 ^ 127

theorem ofInt?_eq_none {v : Int} : I128.ofInt? v = none ↔ 2 ^ 127 ≤ v ∨ v < -2 ^ 127 := by
  unfold I128.ofInt?
  split
  · next h => exact iff_of_false (fun heq => by cases heq) (by omega)
  · next h => exact iff_of_true rfl (by omega)

/-- An operation that tells the two sides apart by a condition on its operands. -/
theorem classifies_of_sign {v : Int} {p : Prop} [Decidable p] (habove : 2 ^ 127 ≤ v → p)
    (hbelow : v < -2 ^ 127 → ¬ p) :
    Classifies (match I128.ofInt? v with
      | some c => .ok c
      | none => if p then .error .overflow else .error .underflow) v := by
  cases hv : I128.ofInt? v with
  | some c =>
    have hc := I128.ofInt?_eq_some.1 hv
    have hlower := c.lower
    have hupper := c.upper
    refine ⟨fun d => ⟨fun h => ?_, fun h => ?_⟩, ?_, ?_, ?_⟩
    · cases h
      exact hc
    · exact congrArg _ (I128.ext_val (hc.trans h.symm))
    · exact iff_of_true ⟨c, rfl⟩ (by omega)
    · exact iff_of_false nofun (by omega)
    · exact iff_of_false nofun (by omega)
  | none =>
    have hout := ofInt?_eq_none.1 hv
    have hnot : ∀ c : I128, c.val ≠ v := fun c hc => by
      have hlower := c.lower
      have hupper := c.upper
      omega
    dsimp only
    by_cases hp : p
    · have habove : 2 ^ 127 ≤ v := hout.resolve_right fun h => hbelow h hp
      rw [if_pos hp]
      refine ⟨fun c => iff_of_false nofun (hnot c), ?_, ?_, ?_⟩
      · exact iff_of_false (fun ⟨_, h⟩ => nomatch h) (by omega)
      · exact iff_of_true rfl habove
      · exact iff_of_false nofun (by omega)
    · have hbelow : v < -2 ^ 127 := hout.resolve_left fun h => hp (habove h)
      rw [if_neg hp]
      refine ⟨fun c => iff_of_false nofun (hnot c), ?_, ?_, ?_⟩
      · exact iff_of_false (fun ⟨_, h⟩ => nomatch h) (by omega)
      · exact iff_of_false nofun (by omega)
      · exact iff_of_true rfl hbelow

/-- A sum above the range has two positive operands. -/
theorem checkedAdd_classifies (a b : I128) : Classifies (checkedAdd a b) (a.val + b.val) := by
  have ha := a.upper
  have hb := b.upper
  exact classifies_of_sign (fun h => by omega) fun h => by omega

/-- A difference above the range has a negative second operand. -/
theorem checkedSub_classifies (a b : I128) : Classifies (checkedSub a b) (a.val - b.val) := by
  have ha := a.upper
  have ha' := a.lower
  exact classifies_of_sign (fun h => by omega) fun h => by omega

/-- A product above the range has operands of one sign. -/
theorem checkedMul_classifies (a b : I128) : Classifies (checkedMul a b) (a.val * b.val) := by
  refine classifies_of_sign (fun h => ?_) fun h hsigns => ?_
  · exact (mul_pos_iff.1 (lt_of_lt_of_le (by decide) h)).imp id id
  · have hpos : 0 < a.val * b.val := mul_pos_iff.2 hsigns
    omega

/-- The quotient of `MIN` by `-1` is the only one out of range. -/
theorem tdiv_out_of_range {a b : I128} (hb : b.val ≠ 0) :
    (2 ^ 127 ≤ a.val.tdiv b.val ∨ a.val.tdiv b.val < -2 ^ 127) ↔
      a.val = -2 ^ 127 ∧ b.val = -1 := by
  have hlower := a.lower
  have hupper := a.upper
  by_cases hone : b.val = 1
  · rw [hone, Int.tdiv_one]
    omega
  by_cases hneg : b.val = -1
  · rw [hneg, Int.tdiv_neg, Int.tdiv_one]
    omega
  · -- the quotient has at most half the size of the dividend
    have habs : (a.val.tdiv b.val).natAbs ≤ a.val.natAbs / 2 := by
      rw [Int.natAbs_tdiv]
      exact Nat.div_le_div_left (by omega) (by decide)
    omega

theorem checkedDiv_eq_overflow {a b : I128} :
    checkedDiv a b = .error .overflow ↔ a.val = -2 ^ 127 ∧ b.val = -1 := by
  unfold checkedDiv I128.checkedDiv
  split
  · next hb => exact iff_of_false nofun (by omega)
  · next hb =>
    rw [← tdiv_out_of_range hb, ← ofInt?_eq_none]
    cases I128.ofInt? (a.val.tdiv b.val) with
    | some c => exact iff_of_false nofun nofun
    | none => exact iff_of_true rfl rfl

theorem checkedDiv_eq_divisionByZero {a b : I128} :
    checkedDiv a b = .error .divisionByZero ↔ b.val = 0 := by
  unfold checkedDiv
  split
  · next h => exact iff_of_true rfl h
  · next h =>
    refine iff_of_false (fun hdiv => ?_) h
    split at hdiv <;> cases hdiv

/-- A quotient is returned by every divisor but zero, and but `-1` for `MIN`. -/
theorem checkedDiv_isOk_iff {a b : I128} :
    (∃ c, checkedDiv a b = .ok c) ↔ b.val ≠ 0 ∧ ¬ (a.val = -2 ^ 127 ∧ b.val = -1) := by
  constructor
  · rintro ⟨c, hc⟩
    have hb := (checkedDiv_eq_ok.1 hc).1
    refine ⟨hb, fun hmin => ?_⟩
    rw [checkedDiv_eq_overflow.2 hmin] at hc
    cases hc
  · rintro ⟨hb, hmin⟩
    have hrange := mt (tdiv_out_of_range hb).1 hmin
    obtain ⟨c, hc⟩ := Option.ne_none_iff_exists'.1 (mt ofInt?_eq_none.1 hrange)
    exact ⟨c, checkedDiv_eq_ok.2 ⟨hb, I128.ofInt?_eq_some.1 hc⟩⟩

/-- **Checked arithmetic is exact, and its errors say what went wrong.** -/
theorem checked_exact (a b : I128) :
    Classifies (checkedAdd a b) (a.val + b.val) ∧ Classifies (checkedSub a b) (a.val - b.val) ∧
      Classifies (checkedMul a b) (a.val * b.val) ∧
      (checkedDiv a b = .error .divisionByZero ↔ b.val = 0) ∧
      (checkedDiv a b = .error .overflow ↔ a.val = -2 ^ 127 ∧ b.val = -1) ∧
      (∀ c, checkedDiv a b = .ok c ↔ b.val ≠ 0 ∧ c.val = a.val.tdiv b.val) ∧
      ((∃ c, checkedDiv a b = .ok c) ↔ b.val ≠ 0 ∧ ¬ (a.val = -2 ^ 127 ∧ b.val = -1)) :=
  ⟨checkedAdd_classifies a b, checkedSub_classifies a b, checkedMul_classifies a b,
    checkedDiv_eq_divisionByZero, checkedDiv_eq_overflow, fun _ => checkedDiv_eq_ok,
    checkedDiv_isOk_iff⟩

end CheckedMath

end InvoiceFi
