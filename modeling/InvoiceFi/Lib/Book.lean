import Mathlib.Algebra.BigOperators.Group.List.Basic
import Mathlib.Algebra.Order.Group.Defs
import Mathlib.Algebra.Order.Sub.Basic
import Mathlib.Tactic.Abel

/-!
# Pooled claims

A `Book` holds a common pool and the claim of each account on it. Three postings move it: a
deposit pays into the pool and credits an account, an advance takes out of the pool and credits an
account, a withdrawal takes out of the pool and debits an account. `Book.foldl_pooled` and
`Book.foldl_claim` read the book off the postings that made it, and a book stays solvent
(`Book.Solvent`) under postings that are covered when they are made (`Posting.Covered`).
-/

namespace InvoiceFi

/-- A common pool and the claim of each account on it. -/
structure Book (α M : Type) where
  pooled : M
  claim : α → M

/-- What one posting does to a book. -/
inductive Posting (α M : Type) where
  | deposit (a : α) (x : M)
  | advance (a : α) (x : M)
  | withdraw (a : α) (x : M)
  | idle
  deriving DecidableEq

variable {α M : Type} [DecidableEq α] [AddCommGroup M]

namespace Posting

/-- What the posting deposits. -/
def deposited : Posting α M → M
  | .deposit _ x => x
  | _ => 0

/-- What the posting advances. -/
def advanced : Posting α M → M
  | .advance _ x => x
  | _ => 0

/-- What the posting withdraws. -/
def withdrawn : Posting α M → M
  | .withdraw _ x => x
  | _ => 0

/-- The posting, if it is one of the account `a`. -/
def ofAccount (a : α) : Posting α M → Posting α M
  | .deposit b x => if b = a then .deposit b x else .idle
  | .advance b x => if b = a then .advance b x else .idle
  | .withdraw b x => if b = a then .withdraw b x else .idle
  | .idle => .idle

end Posting

namespace Book

/-- The book with `x` added to the claim of `a`. -/
def credit (b : Book α M) (a : α) (x : M) : Book α M :=
  { b with claim := Function.update b.claim a (b.claim a + x) }

/-- The book after a posting. -/
def post (b : Book α M) : Posting α M → Book α M
  | .deposit a x => { (b.credit a x) with pooled := b.pooled + x }
  | .advance a x => { (b.credit a x) with pooled := b.pooled - x }
  | .withdraw a x => { (b.credit a (-x)) with pooled := b.pooled - x }
  | .idle => b

/-- A posting moves the pool by what it deposits less what it advances and withdraws. -/
theorem post_pooled (b : Book α M) (p : Posting α M) :
    (b.post p).pooled = b.pooled + (p.deposited - p.advanced - p.withdrawn) := by
  cases p <;> simp [post, Posting.deposited, Posting.advanced, Posting.withdrawn, sub_eq_add_neg]

/-- A posting moves the claim of `a` by what it deposits and advances to `a` less what it
withdraws for `a`. -/
theorem post_claim (b : Book α M) (p : Posting α M) (a : α) :
    (b.post p).claim a = b.claim a +
      ((p.ofAccount a).deposited + (p.ofAccount a).advanced - (p.ofAccount a).withdrawn) := by
  cases p with
  | idle => simp [post, Posting.ofAccount, Posting.deposited, Posting.advanced, Posting.withdrawn]
  | deposit c x | advance c x | withdraw c x =>
    by_cases h : c = a
    · subst h
      simp [post, credit, Posting.ofAccount, Posting.deposited, Posting.advanced,
        Posting.withdrawn, sub_eq_add_neg]
    · simp [post, credit, Posting.ofAccount, Posting.deposited, Posting.advanced,
        Posting.withdrawn, h, Function.update_of_ne (Ne.symm h)]

/-- The pool after a list of postings: what they deposit, less what they advance, less what they
withdraw. -/
theorem foldl_pooled (b : Book α M) (ps : List (Posting α M)) :
    (ps.foldl post b).pooled = b.pooled + ((ps.map Posting.deposited).sum -
      (ps.map Posting.advanced).sum - (ps.map Posting.withdrawn).sum) := by
  induction ps generalizing b with
  | nil => simp
  | cons p ps ih =>
    rw [List.foldl_cons, ih, post_pooled]
    simp only [List.map_cons, List.sum_cons]
    abel

/-- The claim of `a` after a list of postings: what they deposit and advance to `a`, less what
they withdraw for `a`. -/
theorem foldl_claim (b : Book α M) (ps : List (Posting α M)) (a : α) :
    (ps.foldl post b).claim a = b.claim a +
      ((ps.map fun p => (p.ofAccount a).deposited).sum +
        (ps.map fun p => (p.ofAccount a).advanced).sum -
        (ps.map fun p => (p.ofAccount a).withdrawn).sum) := by
  induction ps generalizing b with
  | nil => simp
  | cons p ps ih =>
    rw [List.foldl_cons, ih, post_claim]
    simp only [List.map_cons, List.sum_cons]
    abel

end Book

/-! ## Solvency -/

section
variable [PartialOrder M]

/-- Neither the pool nor any claim is negative. -/
structure Book.Solvent (b : Book α M) : Prop where
  pooled : 0 ≤ b.pooled
  claim : ∀ a, 0 ≤ b.claim a

/-- The posting is one the book can honour: nothing is deposited or advanced below zero, an
advance is in the pool, and a withdrawal is in the pool and in the claim it debits. -/
def Posting.Covered (b : Book α M) : Posting α M → Prop
  | .deposit _ x => 0 ≤ x
  | .advance _ x => 0 ≤ x ∧ x ≤ b.pooled
  | .withdraw a x => x ≤ b.claim a ∧ x ≤ b.pooled
  | .idle => True

/-- Crediting an account keeps claims non-negative when the account's own stays so. -/
theorem Book.credit_claim_nonneg {b : Book α M} (hb : ∀ a, 0 ≤ b.claim a) {a : α} {x : M}
    (h : 0 ≤ b.claim a + x) (c : α) : 0 ≤ (b.credit a x).claim c := by
  simp only [credit]
  by_cases hc : c = a
  · subst hc; rwa [Function.update_self]
  · rw [Function.update_of_ne hc]; exact hb c

/-- A covered posting keeps a book solvent. -/
theorem Book.Solvent.post [IsOrderedAddMonoid M] {b : Book α M} (hb : b.Solvent)
    {p : Posting α M} (hp : p.Covered b) : (b.post p).Solvent := by
  cases p with
  | deposit a x =>
    exact ⟨add_nonneg hb.pooled hp, credit_claim_nonneg hb.claim (add_nonneg (hb.claim a) hp)⟩
  | advance a x =>
    exact ⟨sub_nonneg.2 hp.2, credit_claim_nonneg hb.claim (add_nonneg (hb.claim a) hp.1)⟩
  | withdraw a x =>
    refine ⟨sub_nonneg.2 hp.2, credit_claim_nonneg hb.claim ?_⟩
    rw [← sub_eq_add_neg]
    exact sub_nonneg.2 hp.1
  | idle => exact hb

/-- Only a withdrawal of an account lowers its claim. -/
theorem Book.withdraw_of_claim_lt [IsOrderedAddMonoid M] {b : Book α M} {p : Posting α M}
    (hp : p.Covered b) {a : α} (h : (b.post p).claim a < b.claim a) : ∃ x, p = .withdraw a x := by
  have hneg : ∀ x : M, 0 ≤ x → ¬ b.claim a + x < b.claim a := fun x hx =>
    not_lt_of_ge (le_add_of_nonneg_right hx)
  rw [Book.post_claim] at h
  cases p with
  | idle =>
    simp [Posting.ofAccount, Posting.deposited, Posting.advanced, Posting.withdrawn] at h
  | deposit c x =>
    have hx : 0 ≤ x := hp
    refine absurd h (hneg _ ?_)
    by_cases hc : c = a
    · simpa [Posting.ofAccount, hc, Posting.deposited, Posting.advanced, Posting.withdrawn] using hx
    · simp [Posting.ofAccount, hc, Posting.deposited, Posting.advanced, Posting.withdrawn]
  | advance c x =>
    refine absurd h (hneg _ ?_)
    by_cases hc : c = a
    · simpa [Posting.ofAccount, hc, Posting.deposited, Posting.advanced, Posting.withdrawn]
        using hp.1
    · simp [Posting.ofAccount, hc, Posting.deposited, Posting.advanced, Posting.withdrawn]
  | withdraw c x =>
    by_cases hc : c = a
    · exact ⟨x, by rw [hc]⟩
    · refine absurd h (hneg _ ?_)
      simp [Posting.ofAccount, hc, Posting.deposited, Posting.advanced, Posting.withdrawn]

/-- Only a withdrawal or an advance lowers the pool. -/
theorem Book.outflow_of_pooled_lt [IsOrderedAddMonoid M] {b : Book α M} {p : Posting α M}
    (hp : p.Covered b) (h : (b.post p).pooled < b.pooled) :
    ∃ a x, p = .withdraw a x ∨ p = .advance a x := by
  cases p with
  | idle => exact absurd h (lt_irrefl _)
  | deposit a x => exact absurd h (not_lt_of_ge (le_add_of_nonneg_right hp))
  | advance a x => exact ⟨a, x, .inr rfl⟩
  | withdraw a x => exact ⟨a, x, .inl rfl⟩

end

end InvoiceFi
