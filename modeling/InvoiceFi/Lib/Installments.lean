import InvoiceFi.Lib.Share
import Mathlib.Algebra.Order.BigOperators.Group.List

/-!
# Paying in installments at a rate

An amount is paid off in installments, each of at most a given size and each of which loses its
share at a rate. What the installments leave can be hit exactly, since the rest of an amount grows
by at most one at a time (`exists_rest_eq`). So the number of installments is the only thing that
counts: `installments_iff` says which numbers are possible.
-/

namespace InvoiceFi

/-! ## Sums of bounded parts -/

/-- A number is a sum of `n` parts from `1` to `m` exactly when it lies between `n` ones and `n`
times `m`. -/
theorem exists_parts_iff {n : ℕ} {m R : ℤ} :
    (∃ parts : List ℤ, parts.length = n ∧ (∀ x ∈ parts, 1 ≤ x ∧ x ≤ m) ∧ parts.sum = R) ↔
      n ≤ R ∧ R ≤ n * m := by
  constructor
  · rintro ⟨parts, rfl, hparts, rfl⟩
    have hlower := List.card_nsmul_le_sum parts 1 fun x hx => (hparts x hx).1
    have hupper := List.sum_le_card_nsmul parts m fun x hx => (hparts x hx).2
    simp only [nsmul_eq_mul, mul_one] at hlower hupper
    exact ⟨hlower, hupper⟩
  · induction n generalizing R with
    | zero =>
      rintro ⟨hlower, hupper⟩
      have hzero : R = 0 := by push_cast at hlower hupper; omega
      exact ⟨[], rfl, nofun, hzero.symm⟩
    | succ n ih =>
      rintro ⟨hlower, hupper⟩
      push_cast at hlower hupper
      rw [add_mul, one_mul] at hupper
      have hm : 1 ≤ m := by
        by_contra hm
        have hle : (n : ℤ) * m ≤ 0 := mul_nonpos_of_nonneg_of_nonpos (by omega) (by omega)
        omega
      have hnm : (n : ℤ) ≤ n * m := le_mul_of_one_le_right (by omega) hm
      -- one part takes what the others cannot, and at least one
      obtain ⟨parts, hlength, hparts, hsum⟩ :=
        ih (R := R - max 1 (R - n * m)) ⟨by omega, by omega⟩
      refine ⟨max 1 (R - n * m) :: parts, by rw [List.length_cons, hlength], ?_, ?_⟩
      · intro x hx
        rcases List.mem_cons.1 hx with rfl | hx
        · exact ⟨le_max_left _ _, by omega⟩
        · exact hparts x hx
      · rw [List.sum_cons, hsum]
        omega

/-! ## What an installment leaves -/

section
variable {d r : ℤ}

/-- Below the denominator something is left of every positive amount. -/
theorem rest_pos (hd : 0 < d) (hr : r < d) {a : ℤ} (ha : 0 < a) : 0 < rest d r a := by
  have hlt : share d r a < a := by
    refine Int.ediv_lt_of_lt_mul hd ?_
    exact Int.mul_lt_mul_of_pos_left hr ha
  rw [rest]
  omega

/-- Every number up to what is left of an amount is left of a smaller one. -/
theorem exists_rest_eq (hd : 0 < d) (hr : 0 ≤ r) {a v : ℤ} (ha : 0 ≤ a) (hpos : 0 < v)
    (hle : v ≤ rest d r a) : ∃ b, 0 < b ∧ b ≤ a ∧ rest d r b = v := by
  induction a, ha using Int.leInduction with
  | base =>
    have hzero : rest d r 0 = 0 := by simp [rest, share]
    omega
  | succ a ha ih =>
    by_cases hv : v ≤ rest d r a
    · obtain ⟨b, hb, hba, hrest⟩ := ih hv
      exact ⟨b, hb, by omega, hrest⟩
    · have hstep := rest_succ_le hd hr a
      exact ⟨a + 1, by omega, le_refl _, by omega⟩

/-- Parts up to what is left of an amount are left of amounts up to it. -/
theorem exists_installments (hd : 0 < d) (hr : 0 ≤ r) {a : ℤ} (ha : 0 ≤ a) {parts : List ℤ}
    (hparts : ∀ x ∈ parts, 1 ≤ x ∧ x ≤ rest d r a) :
    ∃ amounts : List ℤ, amounts.map (rest d r) = parts ∧ ∀ g ∈ amounts, 0 < g ∧ g ≤ a := by
  induction parts with
  | nil => exact ⟨[], rfl, nofun⟩
  | cons x parts ih =>
    obtain ⟨hpos, hle⟩ := hparts x (.head _)
    obtain ⟨b, hb, hba, hrest⟩ := exists_rest_eq hd hr ha (by omega) hle
    obtain ⟨amounts, hmap, hamounts⟩ := ih fun y hy => hparts y (.tail _ hy)
    refine ⟨b :: amounts, by rw [List.map_cons, hrest, hmap], ?_⟩
    intro g hg
    rcases List.mem_cons.1 hg with rfl | hg
    · exact ⟨hb, hba⟩
    · exact hamounts g hg

/-- **The numbers of installments.** Of `n` positive amounts up to `a`, exactly `R` can be left
exactly when `n` is at most `R` and `R` at most what is left of `n` amounts of size `a`. -/
theorem installments_iff (hd : 0 < d) (hr : 0 ≤ r) {a R : ℤ} (ha : 0 ≤ a) (hR : 0 < R) {n : ℕ} :
    (∃ amounts : List ℤ, amounts.length = n ∧ (∀ g ∈ amounts, 0 < g ∧ g ≤ a) ∧
      (amounts.map (rest d r)).sum = R) ↔ n ≤ R ∧ R ≤ n * rest d r a := by
  rw [← exists_parts_iff]
  constructor
  · rintro ⟨amounts, hlength, hamounts, hsum⟩
    refine ⟨amounts.map (rest d r), by rw [List.length_map, hlength], ?_, hsum⟩
    have hrate : r < d := by
      by_contra hrate
      have hnonpos : (amounts.map (rest d r)).sum ≤ 0 := by
        have hle := List.sum_le_card_nsmul (amounts.map (rest d r)) 0 fun x hx => by
          obtain ⟨g, hg, rfl⟩ := List.mem_map.1 hx
          exact rest_nonpos hd (by omega) (hamounts g hg).1.le
        simpa using hle
      omega
    intro x hx
    obtain ⟨g, hg, rfl⟩ := List.mem_map.1 hx
    exact ⟨rest_pos hd hrate (hamounts g hg).1, rest_mono hd hrate.le (hamounts g hg).2⟩
  · rintro ⟨parts, hlength, hparts, hsum⟩
    obtain ⟨amounts, hmap, hamounts⟩ := exists_installments hd hr ha hparts
    refine ⟨amounts, ?_, hamounts, by rw [hmap, hsum]⟩
    rw [← hlength, ← hmap, List.length_map]

end

end InvoiceFi
