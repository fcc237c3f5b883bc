import StereoMapping.Proofs.Window.Ring
import StereoMapping.Window.History

/-!
# `Proofs.Window.History` — a history is a bounded list for each category

A category that was never filled is read as an empty ring. With that convention every addition to a category
is an addition to its ring, whether the category is new or not, and all the other categories stay.

## Contents
- `Categories.Holds`: the list that a category stands for.
- `Categories.Holds.push`, `Holds.push_ne`: additions to it and to other categories.
- `Ring.Holds.entry_eq`, `Categories.Holds.entry_eq`: entries that are held are found.
-/

namespace StereoMapping

theorem Ring.Holds.entry_eq {α : Type} {r : Ring α} {xs : List α} {a : α} {k : Nat} (h : r.Holds xs)
    (what : Artifact) (hk : xs[k]? = some a) : r.entry what k = .ok a := by
  have hlt : k < r.count := by
    rw [h.count_eq]
    exact (List.getElem?_eq_some_iff.mp hk).1
  unfold Ring.entry
  rw [if_pos hlt, h.get?_eq, hk]
  rfl

namespace Categories

variable {α : Type}

/-- The ring of a category, an empty one if nothing was added to it. -/
def ringOf (rings : Categories α) (size : Nat) (category : String) : Ring α :=
  rings[category]?.getD (.create size)

/-- A category of rings of a size stands for a list. -/
structure Holds (rings : Categories α) (size : Nat) (category : String) (xs : List α) : Prop where
  capacity_eq : (rings.ringOf size category).capacity = size
  holds : (rings.ringOf size category).Holds xs

theorem holds_empty {size : Nat} {category : String} (h : 0 < size) :
    (∅ : Categories α).Holds size category [] := by
  have hring : (∅ : Categories α).ringOf size category = .create size := by
    unfold ringOf
    rw [Std.HashMap.getElem?_empty]
    rfl
  refine ⟨?_, ?_⟩
  · rw [hring]
    exact Ring.capacity_create
  · rw [hring]
    exact Ring.holds_create h

theorem ringOf_push_self {rings : Categories α} {size : Nat} {category : String} {a : α} :
    (rings.push size category a).ringOf size category = (rings.ringOf size category).push a := by
  unfold ringOf push
  rw [Std.HashMap.getElem?_alter_self]
  rfl

theorem ringOf_push_ne {rings : Categories α} {size : Nat} {category other : String} {a : α}
    (h : other ≠ category) :
    (rings.push size category a).ringOf size other = rings.ringOf size other := by
  have hne : ¬ (category == other) = true := fun hc => h (eq_of_beq hc).symm
  unfold ringOf push
  rw [Std.HashMap.getElem?_alter, if_neg hne]

/-- An addition to a category conses onto its list. -/
theorem Holds.push {rings : Categories α} {size : Nat} {category : String} {xs : List α}
    (h : rings.Holds size category xs) (a : α) :
    (rings.push size category a).Holds size category ((a :: xs).take size) := by
  have hpush := h.holds.push a
  rw [h.capacity_eq] at hpush
  refine ⟨?_, ?_⟩
  · rw [ringOf_push_self, Ring.capacity_push]
    exact h.capacity_eq
  · rw [ringOf_push_self]
    exact hpush

/-- An addition to another category changes nothing. -/
theorem Holds.push_ne {rings : Categories α} {size : Nat} {category other : String} {xs : List α} {a : α}
    (h : rings.Holds size other xs) (hne : other ≠ category) :
    (rings.push size category a).Holds size other xs := by
  refine ⟨?_, ?_⟩
  · rw [ringOf_push_ne hne]
    exact h.capacity_eq
  · rw [ringOf_push_ne hne]
    exact h.holds

theorem Holds.count_eq {rings : Categories α} {size : Nat} {category : String} {xs : List α}
    (h : rings.Holds size category xs) : rings.count category = xs.length := by
  rw [← h.holds.count_eq]
  unfold count ringOf
  cases rings[category]? with
  | none => rfl
  | some ring => rfl

/-- An entry of the list is found in the category. -/
theorem Holds.entry_eq {rings : Categories α} {size : Nat} {category : String} {xs : List α} {a : α} {k : Nat}
    (h : rings.Holds size category xs) (what : Artifact) (hk : xs[k]? = some a) :
    rings.entry what k category = .ok a := by
  have hfound := h.holds.entry_eq what hk
  unfold entry
  unfold ringOf at hfound
  cases hc : rings[category]? with
  | none =>
    -- a ring just created has no entries
    rw [hc] at hfound
    simp [Ring.entry, Ring.create, throw, throwThe, MonadExceptOf.throw] at hfound
  | some ring =>
    rw [hc] at hfound
    exact hfound

end Categories

end StereoMapping
