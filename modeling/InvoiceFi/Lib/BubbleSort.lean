import Mathlib.Data.List.Count
import Mathlib.Data.List.Perm.Basic
import Mathlib.Data.Multiset.Sort
import Mathlib.Order.Basic

/-!
# Bubble sort and order statistics

Bubble sort in place, as an imperative program writes it: `compareSwap` at one position,
`bubblePass` for the inner loop over the first positions, and `bubbleSort` for the outer one, which
runs a pass over a prefix that gets shorter by one each time. `bubbleSort_perm` and
`bubbleSort_pairwise` are the two halves of its correctness; both come from `bubblePass_eq`, which
says that a pass carries a maximum of the prefix to its end.

The order statistics of a sorted list are counted: at least `k + 1` entries are at most the one at
position `k`, and all but `k` are at least it. So the entry in the middle lies between two entries
of any majority (`exists_le_middle`, `exists_middle_le`), whatever the others are, and a property
that larger entries have as well is a property of the entry at `k` exactly if enough entries have
it (`getElem?_iff_countP`).
-/

namespace InvoiceFi

section
variable {α : Type} [LinearOrder α]

/-- Comparing the entries at `j` and `j + 1` and swapping them if they are out of order. -/
def compareSwap (v : List α) (j : ℕ) : List α :=
  match v[j]?, v[j + 1]? with
  | some a, some b => if b < a then (v.set j b).set (j + 1) a else v
  | _, _ => v

/-- The inner loop: comparing at `0, …, n - 1`. -/
def bubblePass (v : List α) (n : ℕ) : List α := (List.range n).foldl compareSwap v

/-- The outer loop: passes over shorter and shorter prefixes. -/
def bubbleSort (v : List α) : List α :=
  (List.range v.length).foldl (fun w i => bubblePass w (w.length - 1 - i)) v

/-! ## One pass -/

theorem compareSwap_append (u : List α) (a b : α) (d : List α) :
    compareSwap (u ++ a :: b :: d) u.length =
      if b < a then u ++ b :: a :: d else u ++ a :: b :: d := by
  simp [compareSwap]

@[simp] theorem compareSwap_length (v : List α) (j : ℕ) :
    (compareSwap v j).length = v.length := by
  unfold compareSwap
  split
  · split
    · simp
    · rfl
  · rfl

theorem bubblePass_succ (v : List α) (n : ℕ) :
    bubblePass v (n + 1) = compareSwap (bubblePass v n) n := by
  simp [bubblePass, List.range_succ]

/-- A pass over a prefix permutes it, carries a maximum of it to its end and leaves the rest. -/
theorem bubblePass_eq {n : ℕ} {l : List α} (hl : l.length = n + 1) (d : List α) :
    ∃ u x, bubblePass (l ++ d) n = u ++ x :: d ∧ (u ++ [x]).Perm l ∧ ∀ y ∈ u, y ≤ x := by
  -- the prefix grows at its end, as the loop does
  induction n generalizing l d with
  | zero =>
    obtain ⟨x, rfl⟩ := List.length_eq_one_iff.1 hl
    exact ⟨[], x, rfl, .refl _, nofun⟩
  | succ n ih =>
    rcases List.eq_nil_or_concat l with rfl | ⟨l, b, rfl⟩
    · cases hl
    rw [List.concat_eq_append] at hl ⊢
    have hlen : l.length = n + 1 := by simpa using hl
    obtain ⟨u, x, hpass, hperm, hmax⟩ := ih hlen (b :: d)
    have hu : u.length = n := by
      have := hperm.length_eq
      simp only [List.length_append, List.length_singleton] at this
      omega
    rw [bubblePass_succ, List.append_assoc, List.singleton_append, hpass, ← hu, compareSwap_append]
    have hperm' : (u ++ [x] ++ [b]).Perm (l ++ [b]) := hperm.append_right [b]
    split
    · next hlt =>
      -- the maximum moves on
      refine ⟨u ++ [b], x, by simp, ?_, ?_⟩
      · rw [List.append_assoc] at hperm' ⊢
        exact ((List.Perm.swap x b []).append_left u).trans hperm'
      · intro y hy
        rcases List.mem_append.1 hy with hy | hy
        · exact hmax y hy
        · rw [List.mem_singleton.1 hy]
          exact hlt.le
    · next hle =>
      -- the next entry is the new maximum
      have hxb : x ≤ b := not_lt.1 hle
      refine ⟨u ++ [x], b, by simp, hperm', ?_⟩
      intro y hy
      rcases List.mem_append.1 hy with hy | hy
      · exact (hmax y hy).trans hxb
      · rw [List.mem_singleton.1 hy]
        exact hxb

/-! ## The sort -/

/-- After `k` passes the last `k` entries are in order and none of the others is past them. -/
theorem bubbleSort_invariant (v : List α) {k : ℕ} (hk : k ≤ v.length) :
    ∃ l d, (List.range k).foldl (fun w i => bubblePass w (w.length - 1 - i)) v = l ++ d ∧
      d.length = k ∧ (l ++ d).Perm v ∧ d.Pairwise (· ≤ ·) ∧ ∀ x ∈ l, ∀ y ∈ d, x ≤ y := by
  induction k with
  | zero => exact ⟨v, [], by simp, rfl, by simp, .nil, nofun⟩
  | succ k ih =>
    obtain ⟨l, d, hw, hd, hperm, hsort, hle⟩ := ih (by omega)
    have hlen : l.length + d.length = v.length := by
      rw [← List.length_append]
      exact hperm.length_eq
    obtain ⟨n, hn⟩ : ∃ n, l.length = n + 1 := ⟨l.length - 1, by omega⟩
    obtain ⟨u, x, hpass, hux, hmax⟩ := bubblePass_eq hn d
    have hbound : (l ++ d).length - 1 - k = n := by
      rw [List.length_append]
      omega
    refine ⟨u, x :: d, ?_, by rw [List.length_cons, hd], ?_, ?_, ?_⟩
    · rw [List.range_succ, List.foldl_append, hw]
      simp only [List.foldl_cons, List.foldl_nil]
      rw [hbound, hpass]
    · have : (u ++ [x] ++ d).Perm (l ++ d) := hux.append_right d
      rw [List.append_assoc, List.singleton_append] at this
      exact this.trans hperm
    · refine List.pairwise_cons.2 ⟨fun y hy => hle x ?_ y hy, hsort⟩
      exact hux.subset (List.mem_append_right _ (.head _))
    · intro y hy z hz
      rcases List.mem_cons.1 hz with rfl | hz
      · exact hmax y hy
      · exact hle y (hux.subset (List.mem_append_left _ hy)) z hz

/-- The sort permutes the list. -/
theorem bubbleSort_perm (v : List α) : (bubbleSort v).Perm v := by
  obtain ⟨l, d, hw, -, hperm, -⟩ := bubbleSort_invariant v (Nat.le_refl _)
  rw [bubbleSort, hw]
  exact hperm

/-- The sort puts the list in order. -/
theorem bubbleSort_pairwise (v : List α) : (bubbleSort v).Pairwise (· ≤ ·) := by
  obtain ⟨l, d, hw, hd, hperm, hsort, -⟩ := bubbleSort_invariant v (Nat.le_refl _)
  have hl : l = [] := by
    have := hperm.length_eq
    rw [List.length_append] at this
    exact List.eq_nil_of_length_eq_zero (by omega)
  rw [bubbleSort, hw, hl]
  exact hsort

/-- The sort does not depend on the order of the entries: it lists their multiset in order. -/
theorem bubbleSort_eq_sort (v : List α) : bubbleSort v = (v : Multiset α).sort := by
  have hperm : (bubbleSort v).Perm (v : Multiset α).sort := by
    rw [← Multiset.coe_eq_coe, Multiset.sort_eq, Multiset.coe_eq_coe]
    exact bubbleSort_perm v
  exact hperm.eq_of_pairwise' (bubbleSort_pairwise v) (Multiset.pairwise_sort _ _)

/-! ## Order statistics -/

/-- In a sorted list, `k + 1` entries are at most the one at `k`. -/
theorem succ_le_countP_le {w : List α} (hw : w.Pairwise (· ≤ ·)) {k : ℕ} {x : α}
    (hx : w[k]? = some x) : k + 1 ≤ w.countP (· ≤ x) := by
  obtain ⟨hk, rfl⟩ := List.getElem?_eq_some_iff.1 hx
  have hall : ∀ y ∈ w.take (k + 1), decide (y ≤ w[k]) = true := by
    intro y hy
    obtain ⟨i, hi, rfl⟩ := List.mem_take_iff_getElem.1 hy
    rcases Nat.lt_or_eq_of_le (show i ≤ k by omega) with hik | rfl
    · exact decide_eq_true (List.pairwise_iff_getElem.1 hw i k (by omega) hk hik)
    · exact decide_eq_true le_rfl
  have hcount := (List.take_sublist (k + 1) w).countP_le (p := fun y => decide (y ≤ w[k]))
  rw [List.countP_eq_length.2 hall, List.length_take] at hcount
  omega

/-- In a sorted list, all but `k` entries are at least the one at `k`. -/
theorem length_sub_le_countP_ge {w : List α} (hw : w.Pairwise (· ≤ ·)) {k : ℕ} {x : α}
    (hx : w[k]? = some x) : w.length - k ≤ w.countP (x ≤ ·) := by
  obtain ⟨hk, rfl⟩ := List.getElem?_eq_some_iff.1 hx
  have hall : ∀ y ∈ w.drop k, decide (w[k] ≤ y) = true := by
    intro y hy
    obtain ⟨i, hi, rfl⟩ := List.mem_drop_iff_getElem.1 hy
    rcases Nat.eq_zero_or_pos i with rfl | hpos
    · exact decide_eq_true le_rfl
    · exact decide_eq_true (List.pairwise_iff_getElem.1 hw k (k + i) hk (by omega) (by omega))
  have hcount := (List.drop_sublist k w).countP_le (p := fun y => decide (w[k] ≤ y))
  rwa [List.countP_eq_length.2 hall, List.length_drop] at hcount

/-- In a sorted list, a property that larger entries have as well is one of the entry at `k` exactly
if all entries but at most `k` have it. -/
theorem getElem?_iff_countP {w : List α} (hw : w.Pairwise (· ≤ ·)) {k : ℕ} {x : α}
    (hx : w[k]? = some x) {q : α → Bool} (hq : ∀ a b, a ≤ b → q a = true → q b = true) :
    q x = true ↔ w.length - k ≤ w.countP q := by
  constructor
  · intro hqx
    calc w.length - k ≤ w.countP (x ≤ ·) := length_sub_le_countP_ge hw hx
      _ ≤ w.countP q := List.countP_mono_left fun y _ hy => hq x y (of_decide_eq_true hy) hqx
  · intro hle
    by_contra hne
    -- otherwise none of the first `k + 1` entries has the property
    have hfail : w.countP (· ≤ x) ≤ w.countP fun y => !q y := by
      refine List.countP_mono_left fun y _ hy => ?_
      rw [Bool.not_eq_true', Bool.eq_false_iff]
      exact fun hqy => hne (hq y x (of_decide_eq_true hy) hqy)
    have hk : k < w.length := (List.getElem?_eq_some_iff.1 hx).1
    have hcount := succ_le_countP_le hw hx
    have hsum := List.length_eq_countP_add_countP q (l := w)
    simp only [Bool.not_eq_true, Bool.decide_eq_false] at hsum
    omega

/-- If more entries meet `q` than `p`, some entry meets `q` and not `p`. -/
theorem exists_of_countP_lt {β : Type} {l : List β} {p q : β → Bool}
    (h : l.countP p < l.countP q) : ∃ a ∈ l, p a = false ∧ q a = true := by
  by_contra hnone
  refine Nat.not_le.2 h (List.countP_mono_left fun a ha hq => ?_)
  by_contra hp
  exact hnone ⟨a, ha, Bool.not_eq_true _ ▸ hp, hq⟩

section
variable {β : Type} {l : List β} {key : β → α} {p : β → Bool} {w : List α} {x : α}

/-- Some entry outside a minority is at most the middle one. -/
theorem exists_le_middle (hp : 2 * l.countP p < l.length) (hw : w.Pairwise (· ≤ ·))
    (hperm : w.Perm (l.map key)) (hx : w[w.length / 2]? = some x) :
    ∃ a ∈ l, p a = false ∧ key a ≤ x := by
  have hlen : w.length = l.length := by rw [hperm.length_eq, List.length_map]
  have hcount := succ_le_countP_le hw hx
  rw [hperm.countP_eq, List.countP_map] at hcount
  obtain ⟨a, ha, hpa, hle⟩ := exists_of_countP_lt (l := l) (p := p)
    (q := (fun y => decide (y ≤ x)) ∘ key) (by omega)
  exact ⟨a, ha, hpa, of_decide_eq_true hle⟩

/-- Some entry outside a minority is at least the middle one. -/
theorem exists_middle_le (hp : 2 * l.countP p < l.length) (hw : w.Pairwise (· ≤ ·))
    (hperm : w.Perm (l.map key)) (hx : w[w.length / 2]? = some x) :
    ∃ b ∈ l, p b = false ∧ x ≤ key b := by
  have hlen : w.length = l.length := by rw [hperm.length_eq, List.length_map]
  have hcount := length_sub_le_countP_ge hw hx
  rw [hperm.countP_eq, List.countP_map] at hcount
  obtain ⟨b, hb, hpb, hle⟩ := exists_of_countP_lt (l := l) (p := p)
    (q := (fun y => decide (x ≤ y)) ∘ key) (by omega)
  exact ⟨b, hb, hpb, of_decide_eq_true hle⟩

end

end

end InvoiceFi
