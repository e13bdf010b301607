import Mathlib.Algebra.BigOperators.Group.List.Basic
import Mathlib.Algebra.Order.Group.Defs
import Mathlib.Algebra.Order.Sub.Basic
import Mathlib.Data.List.Induction
import Mathlib.Data.List.TakeWhile

/-!
# Windows that are trimmed at the front

A queue of timed items that is to hold the items of the last `ttl` appends each item and then drops
items from its front while they are older (`push`). It stops at the first item that is recent, so an
old item that has come behind a recent one stays (`leftover`).

At an item that is the newest so far, the queue is the list of all items without the old ones at its
front (`pushAll_of_newest`), whatever the order was before. So it holds the recent items and the
leftover ones, and a sum over it is right exactly when the leftover items add nothing
(`sum_pushAll_iff`).
-/

namespace InvoiceFi

namespace TrimmedWindow

variable {α T : Type} [LinearOrder T] [AddCommGroup T] (time : α → T) (ttl : T)

/-- The item has left the window that ends at `now`. -/
def stale (now : T) (x : α) : Bool := decide (time x < now - ttl)

/-- Appends an item, and drops items from the front while they are stale. -/
def push (window : List α) (item : α) : List α :=
  (window ++ [item]).dropWhile (stale time ttl (time item))

/-- The window after some items. -/
def pushAll (items : List α) : List α := items.foldl (push time ttl) []

theorem pushAll_concat (items : List α) (item : α) :
    pushAll time ttl (items ++ [item]) = push time ttl (pushAll time ttl items) item :=
  List.foldl_concat ..

/-- The items of the window that ends at `now`. -/
def recent (now : T) (items : List α) : List α := items.filter fun x => !stale time ttl now x

/-- The stale items that have come behind a recent one. -/
def leftover (now : T) (items : List α) : List α :=
  (items.dropWhile (stale time ttl now)).filter (stale time ttl now)

/-- Nothing is left over when every item that comes behind a recent one is recent. -/
theorem leftover_eq_nil_iff {now : T} {items : List α} :
    leftover time ttl now items = [] ↔
      items.Pairwise fun y x => stale time ttl now x = true → stale time ttl now y = true := by
  induction items with
  | nil => exact iff_of_true rfl .nil
  | cons x items ih =>
    rw [leftover, List.pairwise_cons]
    by_cases hx : stale time ttl now x = true
    · rw [List.dropWhile_cons_of_pos hx, ← leftover, ih]
      exact ⟨fun h => ⟨fun _ _ _ => hx, h⟩, fun h => h.2⟩
    · rw [List.dropWhile_cons_of_neg hx, List.filter_eq_nil_iff]
      constructor
      · intro h
        refine ⟨fun y hy hstale => absurd hstale (h y (.tail _ hy)), ?_⟩
        exact List.pairwise_of_forall_mem_list fun _ _ y hy hstale =>
          absurd hstale (h y (.tail _ hy))
      · rintro ⟨h, -⟩ y hy hstale
        rcases List.mem_cons.1 hy with rfl | hy
        · exact hx hstale
        · exact hx (h y hy hstale)

section
variable {M : Type} [AddCommMonoid M] (f : α → M)

/-- What is left after the stale items at the front is recent or left over. -/
theorem sum_dropWhile (now : T) (items : List α) :
    ((items.dropWhile (stale time ttl now)).map f).sum =
      ((recent time ttl now items).map f).sum + ((leftover time ttl now items).map f).sum := by
  have hperm := List.filter_append_perm (stale time ttl now)
    (items.dropWhile (stale time ttl now))
  have hrecent : (items.dropWhile (stale time ttl now)).filter (fun x => !stale time ttl now x) =
      recent time ttl now items := by
    have hfront : (items.takeWhile (stale time ttl now)).filter
        (fun x => !stale time ttl now x) = [] := by
      refine List.filter_eq_nil_iff.2 fun x hx => ?_
      rw [List.mem_takeWhile_imp hx]
      decide
    conv_rhs => rw [recent, ← List.takeWhile_append_dropWhile (p := stale time ttl now) (l := items),
      List.filter_append, hfront, List.nil_append]
  rw [← (hperm.map f).sum_eq, List.map_append, List.sum_append, hrecent, add_comm]
  rfl

end

section
variable [IsOrderedAddMonoid T]

/-- What has left a window has left every later one. -/
theorem stale_mono {now later : T} (hle : now ≤ later) {x : α} (h : stale time ttl now x = true) :
    stale time ttl later x = true :=
  decide_eq_true (lt_of_lt_of_le (of_decide_eq_true h) (sub_le_sub_right hle ttl))

/-- The window is what is left of the items when some stale ones have been dropped from their
front. -/
theorem pushAll_eq_drop {items : List α} {now : T} (hnow : ∀ x ∈ items, time x ≤ now) :
    ∃ dropped, items = dropped ++ pushAll time ttl items ∧
      ∀ x ∈ dropped, stale time ttl now x = true := by
  induction items using List.reverseRecOn with
  | nil => exact ⟨[], rfl, nofun⟩
  | append_singleton items item ih =>
    obtain ⟨dropped, hitems, hdropped⟩ := ih fun x hx => hnow x (List.mem_append_left _ hx)
    refine ⟨dropped ++ (pushAll time ttl items ++ [item]).takeWhile (stale time ttl (time item)),
      ?_, fun x hx => ?_⟩
    · rw [pushAll_concat, push, List.append_assoc, List.takeWhile_append_dropWhile,
        ← List.append_assoc, ← hitems]
    · rcases List.mem_append.1 hx with hx | hx
      · exact hdropped x hx
      · exact stale_mono time ttl (hnow item (List.mem_append_right _ (.head _)))
          (List.mem_takeWhile_imp hx)

/-- **The window at the newest item.** -/
theorem pushAll_of_newest {items : List α} {item : α} (hnewest : ∀ x ∈ items, time x ≤ time item) :
    pushAll time ttl (items ++ [item]) =
      (items ++ [item]).dropWhile (stale time ttl (time item)) := by
  obtain ⟨dropped, hitems, hdropped⟩ := pushAll_eq_drop time ttl hnewest
  rw [pushAll_concat, push]
  conv_rhs => rw [hitems, List.append_assoc, List.dropWhile_append_of_pos hdropped]

/-- **When a sum over the window is right**: at the newest item, exactly when the leftover items add
nothing. -/
theorem sum_pushAll_iff {M : Type} [AddCancelCommMonoid M] (f : α → M) {items : List α}
    {item : α} (hnewest : ∀ x ∈ items, time x ≤ time item) :
    ((pushAll time ttl (items ++ [item])).map f).sum =
        ((recent time ttl (time item) (items ++ [item])).map f).sum ↔
      ((leftover time ttl (time item) (items ++ [item])).map f).sum = 0 := by
  rw [pushAll_of_newest time ttl hnewest, sum_dropWhile, add_eq_left]

/-- The number of items in the window is right exactly when nothing is left over. -/
theorem length_pushAll_iff {items : List α} {item : α}
    (hnewest : ∀ x ∈ items, time x ≤ time item) :
    (pushAll time ttl (items ++ [item])).length =
        (recent time ttl (time item) (items ++ [item])).length ↔
      leftover time ttl (time item) (items ++ [item]) = [] := by
  have hsum := sum_pushAll_iff time ttl (fun _ => 1) hnewest
  simp only [List.map_const', List.sum_replicate_nat, Nat.mul_one] at hsum
  rw [hsum, List.length_eq_zero_iff]

end

end TrimmedWindow

end InvoiceFi
