import Mathlib.Data.Multiset.Bind
import StereoMapping.Correspondence.Closure

/-!
# `Proofs.Correspondence.Symmetry` — a closed chain can be followed from any side

The four matches of a closed chain stand around a square, and the search for chains starts at one of its sides.
Followed from the past side the chain leads from the past point to the current one; followed through the right
images first it leads between the same points. Which chains there are does not depend on it, and neither does how
often each occurs: the search nests its loops differently and passes over placeholders at other depths, so the two
lists of chains are permutations of each other.

## Contents
- `PixelMatching.closes`: when four matches close; `mem_closedChains`, `coe_closedChains`: the chains that are found.
- `FourMatches.reversed`, `FourMatches.mirrored`: present and past exchanged, left and right exchanged.
- `closedChains_reversed`, `closedChains_mirrored`, and for points `extraction_symmetric`.
-/

namespace StereoMapping

namespace Correspondence

variable {P S : Type} [Placed P]

@[simp] theorem isValid_flip (c : Correspondence P S) : c.flip.isValid = c.isValid := Bool.and_comm _ _

end Correspondence

namespace Correspondences

variable {P S : Type} [Placed P]

/-- A valid correspondence stands at its index. -/
theorem mem_valid {cs : Correspondences P S} {c : Correspondence P S} {i : Nat} :
    (c, i) ∈ cs.valid ↔ cs[i]? = some c ∧ c.isValid = true := by
  unfold valid
  rw [List.mem_filter, List.mk_mem_zipIdx_iff_getElem?, Array.getElem?_toList]

/-- Exchanging the ends keeps the indices of what is valid. -/
theorem valid_flip (cs : Correspondences P S) :
    cs.flip.valid = cs.valid.map fun entry => (entry.1.flip, entry.2) := by
  unfold valid flip
  rw [Array.toList_map, List.zipIdx_map, List.filter_map]
  congr 1
  apply List.filter_congr
  intro entry _
  exact Correspondence.isValid_flip entry.1

/-- The valid correspondences, in no order. -/
def bag (cs : Correspondences P S) : Multiset (Correspondence P S × Nat) := cs.valid

theorem bag_flip (cs : Correspondences P S) : cs.flip.bag = cs.bag.map fun entry => (entry.1.flip, entry.2) :=
  congrArg _ (valid_flip cs)

end Correspondences

variable {S : Type} [Scalar S]

namespace PixelMatching

/-- Whether four matches close a loop: the temporal matches start at the ends of the current match and stop at the
ends of the past one. -/
def closes (m : PixelMatching S) (now left right past : Correspondence (Vec2 S) S) : Bool :=
  (m.samePixel now.source left.source && m.samePixel now.sink right.source)
    && (m.samePixel past.source left.sink && m.samePixel past.sink right.sink)

/-- A loop closes from its past side as from its current one. -/
theorem closes_reversed (m : PixelMatching S) (now left right past : Correspondence (Vec2 S) S) :
    m.closes past left.flip right.flip now = m.closes now left right past := Bool.and_comm _ _

/-- A loop closes through the right images as through the left ones. -/
theorem closes_mirrored (m : PixelMatching S) (now left right past : Correspondence (Vec2 S) S) :
    m.closes now.flip right left past.flip = m.closes now left right past :=
  congrArg₂ (· && ·) (Bool.and_comm _ _) (Bool.and_comm _ _)

end PixelMatching

namespace FourMatches

/-! ## The chains that are found -/

/-- **A chain is found exactly if its four matches are valid and close.** -/
theorem mem_closedChains {m : PixelMatching S} {f : FourMatches S} {chain : Nat × Nat} :
    chain ∈ f.closedChains m ↔ ∃ now left right past, (now, chain.1) ∈ f.now.valid ∧ left ∈ f.left.valid ∧
      right ∈ f.right.valid ∧ (past, chain.2) ∈ f.past.valid ∧ m.closes now left.1 right.1 past = true := by
  obtain ⟨i, j⟩ := chain
  unfold closedChains PixelMatching.closes
  simp only [List.mem_flatMap, List.mem_filter, List.mem_map, Prod.exists, Prod.mk.injEq, Bool.and_eq_true]
  constructor
  · rintro ⟨now, _, hnow, left, a, ⟨hleft, hl⟩, right, b, ⟨hright, hr⟩, past, _, ⟨hpast, hp⟩, rfl, rfl⟩
    exact ⟨now, left, a, right, b, past, hnow, hleft, hright, hpast, ⟨hl, hr⟩, hp⟩
  · rintro ⟨now, left, a, right, b, past, hnow, hleft, hright, hpast, ⟨hl, hr⟩, hp⟩
    exact ⟨now, i, hnow, left, a, ⟨hleft, hl⟩, right, b, ⟨hright, hr⟩, past, j, ⟨hpast, hp⟩, rfl, rfl⟩

/-- Entries of a list that pass a test, each with what it gives: the others give nothing. -/
theorem coe_flatMap_filter {α β : Type} (test : α → Bool) (l : List α) (g : α → List β) :
    ((l.filter test).flatMap g : Multiset β) = (l : Multiset α).bind fun a => if test a then (g a : Multiset β) else 0 := by
  rw [← Multiset.coe_bind]
  induction l with
  | nil => rfl
  | cons a l ih =>
    rw [← Multiset.cons_coe, Multiset.cons_bind, ← ih]
    by_cases h : test a = true
    · rw [List.filter_cons_of_pos h, if_pos h, ← Multiset.cons_coe, Multiset.cons_bind]
    · rw [List.filter_cons_of_neg h, if_neg h, zero_add]

/-- A test before a choice may as well be made after it. -/
theorem ite_bind {α β : Type} (test : Bool) (s : Multiset α) (g : α → Multiset β) :
    (if test then s.bind g else 0) = s.bind fun a => if test then g a else 0 := by
  cases test with
  | true => rfl
  | false => exact (Multiset.bind_zero s).symm

/-- **The chains with their multiplicities**: one for each four valid matches that close, in whatever order these
are gone through. -/
theorem coe_closedChains (m : PixelMatching S) (f : FourMatches S) :
    (f.closedChains m : Multiset (Nat × Nat)) =
      f.now.bag.bind fun now => f.past.bag.bind fun past => f.left.bag.bind fun left => f.right.bag.bind fun right =>
        if m.closes now.1 left.1 right.1 past.1 then {(now.2, past.2)} else 0 := by
  unfold closedChains
  rw [← Multiset.coe_bind]
  apply Multiset.bind_congr
  rintro ⟨now, i⟩ _
  -- the innermost loop of the search comes second here
  rw [Multiset.bind_bind, coe_flatMap_filter]
  apply Multiset.bind_congr
  rintro ⟨left, a⟩ _
  rw [Multiset.bind_bind, coe_flatMap_filter, ite_bind]
  apply Multiset.bind_congr
  rintro ⟨right, b⟩ _
  dsimp only
  rw [List.map_eq_flatMap, coe_flatMap_filter, ite_bind, ite_bind]
  apply Multiset.bind_congr
  rintro ⟨past, j⟩ _
  unfold PixelMatching.closes
  simp only [Multiset.coe_singleton, Bool.and_eq_true, ite_and]

/-! ## Following the chains from another side -/

/-- Present and past exchanged. -/
def reversed (f : FourMatches S) : FourMatches S where
  now := f.past
  left := f.left.flip
  right := f.right.flip
  past := f.now
  nowCloud := f.pastCloud
  pastCloud := f.nowCloud

/-- Left and right exchanged. -/
def mirrored (f : FourMatches S) : FourMatches S where
  now := f.now.flip
  left := f.right
  right := f.left
  past := f.past.flip
  nowCloud := f.nowCloud
  pastCloud := f.pastCloud

/-- **Backwards in time the same chains are found**, each from its other end. -/
theorem closedChains_reversed (m : PixelMatching S) (f : FourMatches S) :
    (f.reversed.closedChains m).Perm ((f.closedChains m).map Prod.swap) := by
  rw [← Multiset.coe_eq_coe, ← Multiset.map_coe, coe_closedChains, coe_closedChains]
  simp only [Multiset.map_bind]
  rw [Multiset.bind_bind]
  apply Multiset.bind_congr
  intro now _
  apply Multiset.bind_congr
  intro past _
  unfold reversed
  simp only [Correspondences.bag_flip, Multiset.bind_map, PixelMatching.closes_reversed,
    apply_ite (Multiset.map Prod.swap), Multiset.map_singleton, Multiset.map_zero, Prod.swap_prod_mk]

/-- **From the right side the same chains are found.** -/
theorem closedChains_mirrored (m : PixelMatching S) (f : FourMatches S) :
    (f.mirrored.closedChains m).Perm (f.closedChains m) := by
  rw [← Multiset.coe_eq_coe, coe_closedChains, coe_closedChains]
  unfold mirrored
  simp only [Correspondences.bag_flip, Multiset.bind_map]
  apply Multiset.bind_congr
  intro now _
  apply Multiset.bind_congr
  intro past _
  rw [Multiset.bind_bind]
  simp only [PixelMatching.closes_mirrored]

/-- The points of a chain that is followed backwards. -/
theorem correspondence?_reversed (f : FourMatches S) (chain : Nat × Nat) :
    f.reversed.correspondence? chain.swap = (f.correspondence? chain).map Correspondence.flip := by
  unfold correspondence? reversed
  simp only [Prod.fst_swap, Prod.snd_swap]
  cases f.nowCloud.validPoint? chain.1 <;> cases f.pastCloud.validPoint? chain.2 <;> rfl

/-- **Extraction is symmetric in time and in the images.** With present and past exchanged the same spatial
correspondences are found, as often as before, with source and sink exchanged; with left and right exchanged they
are the same as they were. Nothing is asked of the matches, of the clouds or of the comparison of pixels. -/
theorem extraction_symmetric (m : PixelMatching S) (f : FourMatches S) :
    (f.reversed.correspondences m).toList.Perm (f.correspondences m).flip.toList ∧
      (f.mirrored.correspondences m).toList.Perm (f.correspondences m).toList := by
  constructor
  · have hpoints : (f.correspondences m).flip.toList
        = ((f.closedChains m).map Prod.swap).filterMap f.reversed.correspondence? := by
      unfold Correspondences.flip correspondences
      rw [Array.toList_map, List.toList_toArray, List.map_filterMap, List.filterMap_map]
      apply List.filterMap_congr
      intro chain _
      exact (f.correspondence?_reversed chain).symm
    rw [hpoints]
    exact (closedChains_reversed m f).filterMap f.reversed.correspondence?
  · exact (closedChains_mirrored m f).filterMap f.correspondence?

end FourMatches
end StereoMapping
