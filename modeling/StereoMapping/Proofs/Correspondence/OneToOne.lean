import StereoMapping.Proofs.Correspondence.Symmetry
import StereoMapping.Proofs.Number.Equality

/-!
# `Proofs.Correspondence.OneToOne` — one-to-one matches give one-to-one points

If in each of the four matches no pixel is matched twice, then a current match belongs to at most one closed chain:
its source picks one temporal match in the left images, its sink one in the right images, and these pick one past
match. So the chains are found in the order of the current matches, each current match at most once. Followed
backwards the same holds of the past matches, and backwards the same chains are found.

The argument needs no more of the comparison of pixels than that it is symmetric and transitive. Placeholders among
the matches are never compared, and keep the indices of the others.

## Contents
- `Correspondences.OneToOne`, `FourMatches.OneToOne`: no pixel is matched twice.
- `pairwise_closedChains`, `nodup_past_closedChains`: chains by their current and by their past matches.
- `contributions`: the chains that give a correspondence; `exact_extraction_one_to_one`.
-/

namespace StereoMapping

variable {S : Type} [Scalar S]

namespace PixelMatching

variable [Scalar.Equates S]

theorem samePixel_symm {a b : Vec2 S} (h : exact.samePixel a b = true) : exact.samePixel b a = true := by
  simp only [samePixel, Bool.and_eq_true] at h ⊢
  exact ⟨Scalar.Equates.eq_symm _ _ h.1, Scalar.Equates.eq_symm _ _ h.2⟩

theorem samePixel_trans {a b c : Vec2 S} (h : exact.samePixel a b = true) (h' : exact.samePixel b c = true) :
    exact.samePixel a c = true := by
  simp only [samePixel, Bool.and_eq_true] at h h' ⊢
  exact ⟨Scalar.Equates.eq_trans _ _ _ h.1 h'.1, Scalar.Equates.eq_trans _ _ _ h.2 h'.2⟩

end PixelMatching

/-! ## Matches without a pixel in common -/

namespace Correspondences

open PixelMatching

/-- No two valid correspondences share a source pixel, and no two share a sink pixel. -/
structure OneToOne (cs : Correspondences (Vec2 S) S) : Prop where
  source : ∀ a ∈ cs.valid, ∀ b ∈ cs.valid, exact.samePixel a.1.source b.1.source = true → a.2 = b.2
  sink : ∀ a ∈ cs.valid, ∀ b ∈ cs.valid, exact.samePixel a.1.sink b.1.sink = true → a.2 = b.2

theorem OneToOne.flip {cs : Correspondences (Vec2 S) S} (h : cs.OneToOne) : cs.flip.OneToOne := by
  constructor
  · intro a ha b hb hsame
    rw [valid_flip, List.mem_map] at ha hb
    obtain ⟨a, ha, rfl⟩ := ha
    obtain ⟨b, hb, rfl⟩ := hb
    exact h.sink a ha b hb hsame
  · intro a ha b hb hsame
    rw [valid_flip, List.mem_map] at ha hb
    obtain ⟨a, ha, rfl⟩ := ha
    obtain ⟨b, hb, rfl⟩ := hb
    exact h.source a ha b hb hsame

omit [Scalar S] in
/-- Valid correspondences come in the order of their indices. -/
theorem pairwise_valid {P : Type} [Placed P] (cs : Correspondences P S) :
    cs.valid.Pairwise fun a b => a.2 < b.2 := by
  apply List.Pairwise.filter
  rw [← List.pairwise_map, List.zipIdx_map_snd]
  exact List.pairwise_lt_range'

omit [Scalar S] in
/-- A test that no two of them pass leaves nothing to be compared. -/
theorem pairwise_filter_valid {P : Type} [Placed P] {cs : Correspondences P S}
    {test : Correspondence P S × Nat → Bool}
    (h : ∀ a ∈ cs.valid, ∀ b ∈ cs.valid, test a = true → test b = true → a.2 = b.2)
    (R : Correspondence P S × Nat → Correspondence P S × Nat → Prop) : (cs.valid.filter test).Pairwise R := by
  refine (cs.pairwise_valid.filter test).imp_of_mem ?_
  intro a b ha hb hlt
  rw [List.mem_filter] at ha hb
  exact absurd (h a ha.1 b hb.1 ha.2 hb.2) (Nat.ne_of_lt hlt)

end Correspondences

namespace FourMatches

open PixelMatching

/-- In none of the four matches a pixel is matched twice. -/
structure OneToOne (f : FourMatches S) : Prop where
  now : f.now.OneToOne
  left : f.left.OneToOne
  right : f.right.OneToOne
  past : f.past.OneToOne

theorem OneToOne.reversed {f : FourMatches S} (h : f.OneToOne) : f.reversed.OneToOne :=
  ⟨h.past, h.left.flip, h.right.flip, h.now⟩

/-! ## Chains -/

section Chains

variable [Scalar.Equates S] {f : FourMatches S}

/-- **Chains are found in the order of their current matches**, and no current match has two. -/
theorem pairwise_closedChains (h : f.OneToOne) : (f.closedChains .exact).Pairwise fun a b => a.1 < b.1 := by
  unfold closedChains
  rw [List.pairwise_flatMap]
  constructor
  · rintro ⟨now, i⟩ _
    -- of one current match there is nothing to compare, at none of the three inner loops
    rw [List.pairwise_flatMap]
    refine ⟨?_, Correspondences.pairwise_filter_valid ?_ _⟩
    · rintro ⟨left, a⟩ _
      rw [List.pairwise_flatMap]
      refine ⟨?_, Correspondences.pairwise_filter_valid ?_ _⟩
      · rintro ⟨right, b⟩ _
        rw [List.pairwise_map]
        apply Correspondences.pairwise_filter_valid
        intro p hp q hq hsp hsq
        simp only [Bool.and_eq_true] at hsp hsq
        exact h.past.source p hp q hq (samePixel_trans hsp.1 (samePixel_symm hsq.1))
      · intro r hr s hs hsr hss
        exact h.right.source r hr s hs (samePixel_trans (samePixel_symm hsr) hss)
    · intro l hl k hk hsl hsk
      exact h.left.source l hl k hk (samePixel_trans (samePixel_symm hsl) hsk)
  · apply f.now.pairwise_valid.imp
    rintro ⟨now, i⟩ ⟨other, j⟩ hlt x hx y hy
    simp only [List.mem_flatMap, List.mem_map, Prod.exists] at hx hy
    obtain ⟨_, _, _, _, _, _, _, _, _, rfl⟩ := hx
    obtain ⟨_, _, _, _, _, _, _, _, _, rfl⟩ := hy
    exact hlt

/-- **No past match has two chains.** -/
theorem nodup_past_closedChains (h : f.OneToOne) : ((f.closedChains .exact).map Prod.snd).Nodup := by
  have hback : ((f.reversed.closedChains .exact).map Prod.fst).Nodup := by
    apply List.Pairwise.map _ _ (pairwise_closedChains h.reversed)
    intro a b hlt
    exact Nat.ne_of_lt hlt
  have hperm := (closedChains_reversed .exact f).map Prod.fst
  rw [List.map_map] at hperm
  exact hperm.nodup hback

end Chains

/-! ## Points -/

/-- The chains that give a correspondence, by the indices of their current and their past match. -/
def contributions (m : PixelMatching S) (f : FourMatches S) : List (Nat × Nat) :=
  (f.closedChains m).filter fun chain => (f.correspondence? chain).isSome

/-- Each of them gives one, and these are all, in order. -/
theorem map_contributions (m : PixelMatching S) (f : FourMatches S) :
    (f.contributions m).map f.correspondence? = (f.correspondences m).toList.map some := by
  unfold contributions correspondences
  rw [List.toList_toArray, List.map_filterMap]
  induction f.closedChains m with
  | nil => rfl
  | cons chain rest ih =>
    cases hc : f.correspondence? chain with
    | none =>
      rw [List.filter_cons_of_neg (by simp [hc]), List.filterMap_cons_none (by simp [hc])]
      exact ih
    | some c =>
      rw [List.filter_cons_of_pos (by simp [hc]), List.filterMap_cons_some (by rw [hc]; rfl), List.map_cons, ih, hc]

/-- A chain gives a correspondence exactly if both of its points exist. -/
theorem isSome_correspondence? {f : FourMatches S} {chain : Nat × Nat} :
    (f.correspondence? chain).isSome = true ↔
      (f.nowCloud.validPoint? chain.1).isSome = true ∧ (f.pastCloud.validPoint? chain.2).isSome = true := by
  unfold correspondence?
  cases f.nowCloud.validPoint? chain.1 <;> cases f.pastCloud.validPoint? chain.2 <;> simp

/-- A current and a past match are linked if they are valid and two valid temporal matches close the loop. -/
def Linked (m : PixelMatching S) (f : FourMatches S) (i j : Nat) : Prop :=
  ∃ now left right past, f.now[i]? = some now ∧ f.past[j]? = some past ∧ left ∈ f.left ∧ right ∈ f.right ∧
    now.isValid = true ∧ left.isValid = true ∧ right.isValid = true ∧ past.isValid = true ∧
    m.closes now left right past = true

theorem linked_iff {m : PixelMatching S} {f : FourMatches S} {i j : Nat} :
    f.Linked m i j ↔ (i, j) ∈ f.closedChains m := by
  rw [mem_closedChains]
  constructor
  · rintro ⟨now, left, right, past, hnow, hpast, hleft, hright, hn, hl, hr, hp, hclose⟩
    obtain ⟨a, ha⟩ := Array.mem_iff_getElem?.mp hleft
    obtain ⟨b, hb⟩ := Array.mem_iff_getElem?.mp hright
    exact ⟨now, (left, a), (right, b), past, Correspondences.mem_valid.mpr ⟨hnow, hn⟩,
      Correspondences.mem_valid.mpr ⟨ha, hl⟩, Correspondences.mem_valid.mpr ⟨hb, hr⟩,
      Correspondences.mem_valid.mpr ⟨hpast, hp⟩, hclose⟩
  · rintro ⟨now, ⟨left, a⟩, ⟨right, b⟩, past, hnow, hleft, hright, hpast, hclose⟩
    rw [Correspondences.mem_valid] at hnow hleft hright hpast
    exact ⟨now, left, right, past, hnow.1, hpast.1, Array.mem_iff_getElem?.mpr ⟨a, hleft.1⟩,
      Array.mem_iff_getElem?.mpr ⟨b, hright.1⟩, hnow.2, hleft.2, hright.2, hpast.2, hclose⟩

/-- Different indices of matches are at most as many as the matches. -/
theorem length_le_of_nodup {indices : List Nat} {bound : Nat} (h : indices.Nodup) (hlt : ∀ i ∈ indices, i < bound) :
    indices.length ≤ bound := by
  have hsub : indices.Subperm (List.range bound) :=
    h.subperm fun i hi => List.mem_range.mpr (hlt i hi)
  exact (List.length_range (n := bound)) ▸ hsub.length_le

/-- **One-to-one matches give one-to-one points.** The correspondences come from pairs of a current and a past
match, in the order of the current ones; no current match occurs twice among them and no past match does, so they
are as many at most as there are matches on either side. Which pairs these are is said without the search: matches
that are linked, and have valid points in both clouds. -/
theorem exact_extraction_one_to_one [Scalar.Equates S] (f : FourMatches S) (h : f.OneToOne) :
    (f.contributions .exact).map f.correspondence? = (f.correspondences .exact).toList.map some ∧
    ((f.contributions .exact).Pairwise fun a b => a.1 < b.1) ∧
    ((f.contributions .exact).map Prod.snd).Nodup ∧
    (f.correspondences .exact).size ≤ min f.now.size f.past.size ∧
    ∀ i j, (i, j) ∈ f.contributions .exact ↔
      f.Linked .exact i j ∧ (f.nowCloud.validPoint? i).isSome = true ∧ (f.pastCloud.validPoint? j).isSome = true := by
  have hpoints := f.map_contributions .exact
  have hordered : (f.contributions .exact).Pairwise fun a b => a.1 < b.1 := (pairwise_closedChains h).filter _
  have hpast : ((f.contributions .exact).map Prod.snd).Nodup :=
    ((nodup_past_closedChains h).sublist (List.filter_sublist.map _))
  have hmem : ∀ i j, (i, j) ∈ f.contributions .exact ↔ f.Linked .exact i j ∧
      (f.nowCloud.validPoint? i).isSome = true ∧ (f.pastCloud.validPoint? j).isSome = true := by
    intro i j
    unfold contributions
    rw [List.mem_filter, isSome_correspondence?, linked_iff]
  refine ⟨hpoints, hordered, hpast, ?_, hmem⟩
  have hsize : (f.correspondences .exact).size = (f.contributions .exact).length := by
    simpa using (congrArg List.length hpoints).symm
  -- as many correspondences as different indices on either side
  rw [hsize, Nat.le_min]
  constructor
  · have hnow : ((f.contributions .exact).map Prod.fst).Nodup :=
      hordered.map _ fun _ _ hlt => Nat.ne_of_lt hlt
    rw [← List.length_map (f := Prod.fst)]
    apply length_le_of_nodup hnow
    intro i hi
    obtain ⟨⟨i, j⟩, hij, rfl⟩ := List.mem_map.mp hi
    obtain ⟨_, _, _, _, hget, _⟩ := ((hmem i j).mp hij).1
    exact (Array.getElem?_eq_some_iff.mp hget).1
  · rw [← List.length_map (f := Prod.snd)]
    apply length_le_of_nodup hpast
    intro j hj
    obtain ⟨⟨i, j⟩, hij, rfl⟩ := List.mem_map.mp hj
    obtain ⟨_, _, _, _, _, hget, _⟩ := ((hmem i j).mp hij).1
    exact (Array.getElem?_eq_some_iff.mp hget).1

/-- Two current matches and three past ones, of which one pair is linked; a placeholder among the temporal matches
starts at the pixel of another match. -/
def onePair : FourMatches Float32 where
  now := #[⟨⟨50, 50⟩, ⟨40, 50⟩, 1⟩, ⟨⟨10, 10⟩, ⟨4, 10⟩, 1⟩]
  left := #[⟨⟨10, 10⟩, ⟨nan32, 10⟩, 1⟩, ⟨⟨10, 10⟩, ⟨12, 10⟩, 1⟩, ⟨⟨50, 50⟩, ⟨99, 99⟩, 1⟩]
  right := #[⟨⟨40, 50⟩, ⟨42, 50⟩, 1⟩, ⟨⟨4, 10⟩, ⟨6, 10⟩, 1⟩]
  past := #[⟨⟨0, 0⟩, ⟨1, 1⟩, 1⟩, ⟨⟨7, 7⟩, ⟨8, 7⟩, 1⟩, ⟨⟨12, 10⟩, ⟨6, 10⟩, 1⟩]
  nowCloud := .ofPoints #[⟨5, 5, 5⟩, ⟨1, 2, 3⟩]
  pastCloud := .ofPoints #[⟨9, 9, 9⟩, ⟨8, 8, 8⟩, ⟨1, 2, 4⟩]

theorem oneToOne_onePair : onePair.OneToOne := by
  refine ⟨⟨?_, ?_⟩, ⟨?_, ?_⟩, ⟨?_, ?_⟩, ⟨?_, ?_⟩⟩ <;> decide +kernel

/-- The linked pair gives the one correspondence, and the first matches, with points on both sides, are not
linked. -/
theorem exact_extraction_onePair : onePair.OneToOne ∧ onePair.contributions .exact = [(1, 2)] ∧
    (onePair.correspondences .exact).size ≤ min 2 3 ∧ onePair.Linked .exact 1 2 ∧ ¬ onePair.Linked .exact 0 0 := by
  have hfound : onePair.contributions .exact = [(1, 2)] := by decide +kernel
  obtain ⟨_, _, _, hsize, hmem⟩ := exact_extraction_one_to_one onePair oneToOne_onePair
  refine ⟨oneToOne_onePair, hfound, hsize, ?_, ?_⟩
  · apply ((hmem 1 2).mp _).1
    rw [hfound]
    exact List.mem_singleton_self _
  · intro hlinked
    have hnone : (0, 0) ∈ onePair.contributions .exact := (hmem 0 0).mpr ⟨hlinked, by decide +kernel, by decide +kernel⟩
    rw [hfound] at hnone
    exact absurd (List.mem_singleton.mp hnone) (by decide)

end FourMatches
end StereoMapping
