import Mathlib.Logic.Function.Basic

/-!
# Stores that mark their entries

A store marks an entry by a mark under a key derived from the entry's own. Marks and entries share
one key space, so a mark of one key may stand where another key's entry would. Two facts about the
derived keys keep the entries apart nevertheless (`Markers`): marks of different keys are at
different keys, and no key is its own mark. An entry that is replaced and marked then leaves every
other stored entry as it was (`replace_of_some`), and which other entries are unmarked
(`unmarked_replace_iff`), as long as a mark is only set where nothing was.
-/

namespace InvoiceFi

/-- Where the marks of a store are. -/
structure Markers (κ : Type) where
  key : κ → κ
  injective : Function.Injective key
  ne_self : ∀ k, key k ≠ k

namespace Markers

variable {κ α : Type} [DecidableEq κ] (m : Markers κ)

/-- The store after the entry of a key was replaced and marked. -/
def replace (s : κ → Option α) (k : κ) (entry mark : α) : κ → Option α :=
  Function.update (Function.update s k (some entry)) (m.key k) (some mark)

/-- The key has an entry of the kind `P`, which is not marked. -/
def Unmarked (P : α → Prop) (s : κ → Option α) (k : κ) : Prop :=
  (∃ entry, s k = some entry ∧ P entry) ∧ s (m.key k) = none

variable {m} {s : κ → Option α} {k k' : κ} {entry mark : α} {P : α → Prop}

@[simp] theorem replace_self : m.replace s k entry mark k = some entry := by
  rw [replace, Function.update_of_ne (m.ne_self k).symm, Function.update_self]

@[simp] theorem replace_key : m.replace s k entry mark (m.key k) = some mark :=
  Function.update_self ..

theorem replace_of_ne (hne : k' ≠ k) (hkey : k' ≠ m.key k) :
    m.replace s k entry mark k' = s k' := by
  rw [replace, Function.update_of_ne hkey, Function.update_of_ne hne]

/-- Every other stored entry is left as it was, if the mark is set where nothing was. -/
theorem replace_of_some (hfree : s (m.key k) = none) (hne : k' ≠ k) (h : s k' ≠ none) :
    m.replace s k entry mark k' = s k' := by
  refine replace_of_ne hne ?_
  rintro rfl
  exact h hfree

/-- Other keys are marked as before: their marks are not where the new mark is, nor where the
replaced entry was empty. -/
theorem replace_key_of_ne (hk : s k ≠ none) (hne : k' ≠ k) :
    m.replace s k entry mark (m.key k') = none ↔ s (m.key k') = none := by
  by_cases hself : m.key k' = k
  · rw [hself, replace_self]
    simp [hk]
  · rw [replace_of_ne hself fun h => hne (m.injective h)]

/-- Replacing and marking an entry changes no other key's having an unmarked entry of a kind that a
mark is not of. -/
theorem unmarked_replace_iff (hfree : s (m.key k) = none) (hk : s k ≠ none) (hne : k' ≠ k)
    (hmark : ¬ P mark) : m.Unmarked P (m.replace s k entry mark) k' ↔ m.Unmarked P s k' := by
  unfold Unmarked
  rw [replace_key_of_ne hk hne]
  refine and_congr_left fun _ => ?_
  by_cases hkey : k' = m.key k
  · subst hkey
    rw [replace_key, hfree]
    simp [hmark]
  · rw [replace_of_ne hne hkey]

end Markers

end InvoiceFi
