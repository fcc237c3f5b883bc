import Mathlib.Order.Lattice

/-!
# `Proofs.Sorting` — stable sorts by a falling rank

What is sorted by a rank, the highest first, comes in the order of falling ranks. The sort is stable: elements of one
rank stay in the order that they had, whatever it was. The start of a sorted list has nothing below the rest of it.
-/

namespace StereoMapping

/-- **Sorting by a falling rank keeps the order of what is equal in rank.** -/
theorem pairwise_mergeSort_falling {α β : Type} [LinearOrder β] (rank : α → β) {before : α → α → Prop} {xs : List α}
    (h : xs.Pairwise before) :
    (xs.mergeSort fun a b => decide (rank b ≤ rank a)).Pairwise
      fun a b => rank b ≤ rank a ∧ (rank b = rank a → before a b) := by
  have htrans (a b c : α) : decide (rank b ≤ rank a) = true → decide (rank c ≤ rank b) = true →
      decide (rank c ≤ rank a) = true := by
    simp only [decide_eq_true_eq]
    intro hab hbc
    exact le_trans hbc hab
  have htotal (a b : α) : (decide (rank b ≤ rank a) || decide (rank a ≤ rank b)) = true := by
    simp only [Bool.or_eq_true, decide_eq_true_eq]
    exact le_total (rank b) (rank a)
  induction xs with
  | nil => simp
  | cons first rest ih =>
    obtain ⟨hfirst, hrest⟩ := List.pairwise_cons.mp h
    -- the first element goes behind those of a higher rank, and before the others
    obtain ⟨front, back, hsorted, hsortedRest, hfront⟩ := List.mergeSort_cons htrans htotal first rest
    have hfalling := List.pairwise_mergeSort htrans htotal (first :: rest)
    have ih := ih hrest
    rw [hsortedRest] at ih
    rw [hsorted] at hfalling ⊢
    obtain ⟨hpairsFront, hpairsBack, hacross⟩ := List.pairwise_append.mp ih
    refine List.pairwise_append.mpr ⟨hpairsFront, List.pairwise_cons.mpr ⟨?_, hpairsBack⟩, ?_⟩
    · intro b hb
      have hrank := (List.pairwise_cons.mp (List.pairwise_append.mp hfalling).2.1).1 b hb
      have hmem : b ∈ rest.mergeSort fun a b => decide (rank b ≤ rank a) := by
        rw [hsortedRest]
        exact List.mem_append_right _ hb
      exact ⟨of_decide_eq_true hrank, fun _ => hfirst b (List.mem_mergeSort.mp hmem)⟩
    · intro a ha b hb
      rcases List.mem_cons.mp hb with rfl | hb
      · have hrank := hfront a ha
        simp only [Bool.not_eq_true', decide_eq_false_iff_not, not_le] at hrank
        exact ⟨le_of_lt hrank, fun heq => absurd heq (ne_of_lt hrank)⟩
      · exact hacross a ha b hb

/-- Comparisons that agree on the elements of a list sort it alike. -/
theorem mergeSort_congr {α : Type} {r s : α → α → Bool} {xs : List α} (h : ∀ a ∈ xs, ∀ b ∈ xs, r a b = s a b) :
    xs.mergeSort r = xs.mergeSort s := by
  have hmap := List.map_mergeSort (f := id) h
  simpa using hmap

/-- Pairs of which one element is among the first of a list and the other is not. -/
theorem rel_of_mem_take {α : Type} {r : α → α → Prop} {xs : List α} (h : xs.Pairwise r) {n : Nat} {a b : α}
    (ha : a ∈ xs.take n) (hb : b ∈ xs) (hrest : b ∉ xs.take n) : r a b := by
  rw [← List.take_append_drop n xs] at h hb
  rcases List.mem_append.mp hb with hb | hb
  · exact absurd hb hrest
  · exact (List.pairwise_append.mp h).2.2 a ha b hb

end StereoMapping
