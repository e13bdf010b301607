import Mathlib.Algebra.Order.Group.Defs
import Mathlib.Algebra.Order.Sub.Basic
import Mathlib.Data.List.Induction
import Mathlib.Data.List.Basic

/-!
# Sliding windows

A limiter admits a request at `now` when fewer than `limit` of its earlier admissions lie in the
closed window of length `w` that ends at `now` (`request`). Requests that come in order of time
leave at most `limit` admissions in every closed window of that length, wherever it lies
(`between_admissions_le`): the newest admission of a window was admitted when all the others in it
were already counted. A full window gets room again exactly when its oldest admission has left it
(`room_iff`).
-/

namespace InvoiceFi

namespace SlidingWindow

variable {T : Type} [LinearOrder T]

/-- The times of a list between two times, both included. -/
def between (t u : T) (l : List T) : List T := l.filter fun x => t ≤ x ∧ x ≤ u

@[simp] theorem mem_between {t u x : T} {l : List T} :
    x ∈ between t u l ↔ x ∈ l ∧ t ≤ x ∧ x ≤ u := by
  simp [between]

theorem between_append (t u : T) (l l' : List T) :
    between t u (l ++ l') = between t u l ++ between t u l' :=
  List.filter_append ..

/-- What is left of a list between two times is between them. -/
theorem between_between (t u : T) (l : List T) : between t u (between t u l) = between t u l :=
  List.filter_eq_self.2 fun _ hx => decide_eq_true (mem_between.1 hx).2

/-- An upper end that no time of the list exceeds can be moved up. -/
theorem between_congr_right {t u v : T} {l : List T} (hu : ∀ x ∈ l, x ≤ u) (huv : u ≤ v) :
    between t u l = between t v l := by
  refine List.filter_congr fun x hx => ?_
  have hxu := hu x hx
  simp [hxu, hxu.trans huv]

/-- A window inside another has no more of the list. -/
theorem between_length_le {t u t' u' : T} (ht : t' ≤ t) (hu : u ≤ u') (l : List T) :
    (between t u l).length ≤ (between t' u' l).length := by
  refine (List.monotone_filter_right l fun x hx => ?_).length_le
  have hx := of_decide_eq_true hx
  exact decide_eq_true ⟨ht.trans hx.1, hx.2.trans hu⟩

variable [AddCommGroup T]

/-- The admissions after a request at `now`. -/
def request (w : T) (limit : ℕ) (admitted : List T) (now : T) : List T :=
  if (between (now - w) now admitted).length < limit then admitted ++ [now] else admitted

/-- The admissions of a list of requests. -/
def admissions (w : T) (limit : ℕ) (nows : List T) : List T := nows.foldl (request w limit) []

theorem admissions_concat (w : T) (limit : ℕ) (nows : List T) (now : T) :
    admissions w limit (nows ++ [now]) = request w limit (admissions w limit nows) now := by
  simp [admissions]

/-- What is admitted was requested. -/
theorem admissions_subset (w : T) (limit : ℕ) (nows : List T) :
    ∀ x ∈ admissions w limit nows, x ∈ nows := by
  induction nows using List.reverseRecOn with
  | nil => exact fun x hx => hx
  | append_singleton nows now ih =>
    intro x hx
    rw [admissions_concat, request] at hx
    split at hx
    · rcases List.mem_append.1 hx with hx | hx
      · exact List.mem_append_left _ (ih x hx)
      · exact List.mem_append_right _ hx
    · exact List.mem_append_left _ (ih x hx)

variable [IsOrderedAddMonoid T]

/-- One more request in order keeps every window within the limit. -/
theorem between_request_le {w : T} {limit : ℕ} {admitted : List T} {now : T}
    (hle : ∀ x ∈ admitted, x ≤ now)
    (h : ∀ t, (between t (t + w) admitted).length ≤ limit) (t : T) :
    (between t (t + w) (request w limit admitted now)).length ≤ limit := by
  rw [request]
  split
  · next hroom =>
    rw [between_append, List.length_append]
    by_cases hnow : t ≤ now ∧ now ≤ t + w
    · -- the window holds `now`, so the earlier admissions in it were counted at `now`
      have hcounted : (between t (t + w) admitted).length ≤
          (between (now - w) now admitted).length := by
        rw [between_congr_right hle hnow.2]
        exact between_length_le (sub_le_iff_le_add.2 hnow.2) le_rfl admitted
      have hone : (between t (t + w) [now]).length ≤ 1 := List.length_filter_le _ _
      omega
    · have hnone : between t (t + w) [now] = [] := by simp [between, hnow]
      rw [hnone]
      exact h t
  · exact h t

/-- **Every window is within the limit.** Of requests in order of time, at most `limit` are admitted
in any closed window of length `w`. -/
theorem between_admissions_le {w : T} {limit : ℕ} {nows : List T} (h : nows.Pairwise (· ≤ ·))
    (t : T) : (between t (t + w) (admissions w limit nows)).length ≤ limit := by
  induction nows using List.reverseRecOn generalizing t with
  | nil => exact Nat.zero_le _
  | append_singleton nows now ih =>
    obtain ⟨hnows, -, hnow⟩ := List.pairwise_append.1 h
    rw [admissions_concat]
    refine between_request_le (fun x hx => ?_) (ih hnows) t
    exact hnow x (admissions_subset w limit nows x hx) now (List.mem_singleton_self now)

/-- A later window holds what has not left it of an earlier one that nothing was added to. -/
theorem between_later {w : T} {l : List T} {now u : T} (hle : ∀ x ∈ l, x ≤ now) (hu : now ≤ u) :
    between (u - w) u l = (between (now - w) now l).filter fun x => u - w ≤ x := by
  rw [between, between, List.filter_filter]
  refine List.filter_congr fun x hx => ?_
  have hxn := hle x hx
  have hleft : u - w ≤ x → now - w ≤ x := (sub_le_sub_right hu w).trans
  simp only [hxn, hxn.trans hu, and_true, ← Bool.decide_and]
  exact decide_eq_decide.2 ⟨fun h => ⟨h, hleft h⟩, And.left⟩

/-- A full window has room at a later time exactly when an admission in it has left it by then. -/
theorem room_iff {w : T} {admitted : List T} {now u : T} (hle : ∀ x ∈ admitted, x ≤ now)
    (hu : now ≤ u) :
    (between (u - w) u admitted).length < (between (now - w) now admitted).length ↔
      ∃ x ∈ between (now - w) now admitted, x < u - w := by
  rw [between_later hle hu, List.length_filter_lt_length_iff_exists]
  simp only [decide_eq_true_eq, not_le]

end SlidingWindow

end InvoiceFi
