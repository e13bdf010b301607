import InvoiceFi.Lib.Book
import Mathlib.Algebra.BigOperators.Finprod

/-!
# Totals

A function that is zero outside a finite set has a total (`Totals`). Writing one of its values
moves the total by what it moves the value (`Totals.update`), so the total of a state that is
written one entry at a time is kept along with it. `Book.Owes` is the total of the claims of a
book, measured from what is in its pool: deposits and withdrawals leave what a book owes beyond its
pool alone, and an advance, which leaves the pool and credits a claim, adds to it twice
(`Book.Owes.post`).
-/

namespace InvoiceFi

variable {α M : Type}

/-- The function `f` is zero outside a finite set, and its values add up to `x`. -/
structure Totals [AddCommMonoid M] (f : α → M) (x : M) : Prop where
  finite : f.support.Finite
  total : finsum f = x

/-- The total of the zero function. -/
theorem Totals.zero [AddCommMonoid M] : Totals (fun _ : α => (0 : M)) 0 :=
  ⟨by simp, finsum_zero⟩

/-- Adding to one value adds to the total. -/
theorem Totals.update [DecidableEq α] [AddCommMonoid M] {f : α → M} {x : M} (h : Totals f x)
    (a : α) (y : M) : Totals (Function.update f a (f a + y)) (x + y) := by
  have hsplit : Function.update f a (f a + y) = fun b => f b + (Pi.single a y : α → M) b := by
    funext b
    by_cases hb : b = a
    · subst hb
      rw [Function.update_self, Pi.single_eq_same]
    · rw [Function.update_of_ne hb, Pi.single_eq_of_ne hb, add_zero]
  have hsingle : (Pi.single a y : α → M).support.Finite :=
    (Set.finite_singleton a).subset Pi.support_single_subset
  have hne : ∀ b, b ≠ a → (Pi.single a y : α → M) b = 0 := fun b hb => by
    rw [Pi.single_eq_of_ne hb]
  refine ⟨(h.finite.union (Set.finite_singleton a)).subset fun b hb => ?_, ?_⟩
  · by_contra hn
    obtain ⟨hf, hne⟩ := not_or.1 hn
    exact hb ((Function.update_of_ne hne _ _).trans (Function.notMem_support.1 hf))
  · rw [hsplit, finsum_add_distrib h.finite hsingle, h.total,
      finsum_eq_single _ a hne, Pi.single_eq_same]

variable [DecidableEq α] [AddCommGroup M]

/-- The claims of the book add up to what is in its pool and `x` more. -/
def Book.Owes (b : Book α M) (x : M) : Prop := Totals b.claim (b.pooled + x)

/-- A posting moves what a book owes beyond its pool by twice what it advances. -/
theorem Book.Owes.post {b : Book α M} {x : M} (h : b.Owes x) (p : Posting α M) :
    (b.post p).Owes (x + (p.advanced + p.advanced)) := by
  cases p with
  | idle =>
    have hx : x + (0 + 0) = x := by abel
    show b.Owes (x + (0 + 0))
    rwa [hx]
  | deposit a y =>
    have hx : b.pooled + y + (x + (0 + 0)) = b.pooled + x + y := by abel
    show Totals (Function.update b.claim a (b.claim a + y)) (b.pooled + y + (x + (0 + 0)))
    rw [hx]
    exact h.update a y
  | advance a y =>
    have hx : b.pooled - y + (x + (y + y)) = b.pooled + x + y := by abel
    show Totals (Function.update b.claim a (b.claim a + y)) (b.pooled - y + (x + (y + y)))
    rw [hx]
    exact h.update a y
  | withdraw a y =>
    have hx : b.pooled - y + (x + (0 + 0)) = b.pooled + x + -y := by abel
    show Totals (Function.update b.claim a (b.claim a + -y)) (b.pooled - y + (x + (0 + 0)))
    rw [hx]
    exact h.update a (-y)

end InvoiceFi
