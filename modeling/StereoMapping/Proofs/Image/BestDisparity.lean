import StereoMapping.Proofs.Image.BlockCost

/-!
# `Proofs.Image.BestDisparity` — what the disparity of a pixel is, for any two images

A pixel is searched if its block has room in the left image and, at the largest disparity, in the right one. Then no
index of the whole search leaves the images. The disparity taken is the first of those with the least cost; the pixel
has one if nothing more than one away costs about as little. Since the costs next to it are not less, the vertex of the
parabola is half a step away at most, and as there is no parabola at the ends of the range, the result stays in it.

## Contents
- `Disparity.FirstBest`, `Disparity.StandsOut`: which disparity is taken, and when it counts.
- `Disparity.at?_searched`: the result for a pixel that is searched.
- `disparityGrid_determined`: all pixels.
-/

namespace StereoMapping

namespace Disparity

variable {left right : Grid UInt8}

/-- A disparity of the range with the least cost, and the first of these. -/
structure FirstBest {S : Type} (settings : StereoSettings S) (left right : Grid UInt8) (i j best : Nat) : Prop where
  least_le : settings.least ≤ best
  le_largest : best ≤ settings.largest
  least : ∀ d, settings.least ≤ d → d ≤ settings.largest →
    differenceSum left right settings.blockHalfSize i j best ≤ differenceSum left right settings.blockHalfSize i j d
  first : ∀ d, settings.least ≤ d → d < best →
    differenceSum left right settings.blockHalfSize i j best < differenceSum left right settings.blockHalfSize i j d

/-- Every disparity of the range that is more than one away costs so much that a share of it is above the least cost. -/
def StandsOut {S : Type} (settings : StereoSettings S) (share : ℝ) (left right : Grid UInt8) (i j best : Nat) : Prop :=
  ∀ d, settings.least ≤ d → d ≤ settings.largest → (d + 1 < best ∨ best + 1 < d) →
    (differenceSum left right settings.blockHalfSize i j best : ℝ)
      < share * differenceSum left right settings.blockHalfSize i j d

/-- A number within half a step of the best disparity, and in the range: at its ends, the best disparity itself. -/
structure NearBest {S : Type} (settings : StereoSettings S) (best : Nat) (x : ℝ) : Prop where
  half_step : |x - best| ≤ 1 / 2
  least_le : settings.least ≤ x
  le_largest : x ≤ settings.largest
  at_end : best = settings.least ∨ best = settings.largest → x = best

section Costs

variable {S : Type} {settings : StereoSettings S} {i j k cost : Nat}

/-- Costs of the range by their disparities. -/
theorem getElem?_rangeCosts_iff :
    (rangeCosts settings left right i j)[k]? = some cost ↔ settings.least + k ≤ settings.largest ∧
      differenceSum left right settings.blockHalfSize i j (settings.least + k) = cost := by
  rw [getElem?_rangeCosts, blockCost_eq_differenceSum]

theorem rangeCosts_ne_nil (hrange : settings.least ≤ settings.largest) : rangeCosts settings left right i j ≠ [] := by
  intro hnil
  have hfirst : (rangeCosts settings left right i j)[0]?
      = some (differenceSum left right settings.blockHalfSize i j settings.least) :=
    getElem?_rangeCosts_iff.mpr ⟨hrange, rfl⟩
  rw [hnil] at hfirst
  cases hfirst

/-- The first least cost of the list is that of the first best disparity. -/
theorem firstBest_of_firstLeast (h : FirstLeast (rangeCosts settings left right i j) k cost) :
    FirstBest settings left right i j (settings.least + k) ∧
      differenceSum left right settings.blockHalfSize i j (settings.least + k) = cost := by
  obtain ⟨hrange, hcost⟩ := getElem?_rangeCosts_iff.mp h.here
  have hplace : ∀ d, settings.least ≤ d → d ≤ settings.largest →
      (rangeCosts settings left right i j)[d - settings.least]?
        = some (differenceSum left right settings.blockHalfSize i j d) := by
    intro d hleast hlargest
    rw [getElem?_rangeCosts_iff, Nat.add_sub_cancel' hleast]
    exact ⟨hlargest, rfl⟩
  refine ⟨⟨Nat.le_add_right _ _, hrange, fun d hleast hlargest => ?_, fun d hleast hbefore => ?_⟩, hcost⟩
  · rw [hcost]
    exact h.least _ _ (hplace d hleast hlargest)
  · rw [hcost]
    exact h.first _ _ (hplace d hleast (by omega)) (by omega)

/-- A place in the list is ambiguous unless its disparity stands out. -/
theorem isAmbiguous_rangeCosts (share : ℝ)
    (hcost : differenceSum left right settings.blockHalfSize i j (settings.least + k) = cost) :
    isAmbiguous (Stored.number share) (rangeCosts settings left right i j) k cost = false ↔
      StandsOut settings share left right i j (settings.least + k) := by
  rw [← Bool.not_eq_true, isAmbiguous_iff, ← hcost]
  constructor
  · intro hclear d hleast hlargest hfar
    by_contra hlow
    refine hclear ⟨d - settings.least, _, getElem?_rangeCosts_iff.mpr ⟨?_, rfl⟩, ?_, ?_⟩
    · omega
    · by_contra hnear
      have hnear := areFar_eq_false_iff.mp (Bool.eq_false_of_not_eq_true hnear)
      omega
    · rw [Nat.add_sub_cancel' hleast]
      exact not_lt.mp hlow
  · rintro hout ⟨m, c, hc, hfar, hle⟩
    obtain ⟨hrange, rfl⟩ := getElem?_rangeCosts_iff.mp hc
    refine absurd (hout (settings.least + m) (Nat.le_add_right _ _) hrange ?_) (not_lt.mpr hle)
    by_contra hnear
    rw [areFar_eq_false_iff.mpr (by omega)] at hfar
    cases hfar

/-- The place of the best cost with its fraction, as a disparity. -/
theorem nearBest_of_refined {x : ℝ} (hbest : FirstLeast (rangeCosts settings left right i j) k cost)
    (hx : Refined (rangeCosts settings left right i j) k cost x) :
    NearBest settings (settings.least + k) (settings.least + x) := by
  obtain ⟨hrange, hcost⟩ := getElem?_rangeCosts_iff.mp hbest.here
  have hlargest : (settings.least : ℝ) + k ≤ settings.largest := by
    rw [← Nat.cast_add]
    exact Nat.cast_le.mpr hrange
  have hplace : (0 : ℝ) ≤ k := Nat.cast_nonneg k
  cases hx with
  | atEnd hend =>
    refine ⟨?_, le_add_of_nonneg_right hplace, hlargest, fun _ => (Nat.cast_add _ _).symm⟩
    rw [Nat.cast_add, sub_self, abs_zero]
    norm_num
  | @inside before after hpos hbefore hafter =>
    -- neither end of the range: there is a cost on either side
    have hfrom : (1 : ℝ) ≤ k := Nat.one_le_cast.mpr hpos
    have hbelow : settings.least + (k + 1) ≤ settings.largest := (getElem?_rangeCosts_iff.mp hafter).1
    have hto : (settings.least : ℝ) + (k + 1) ≤ settings.largest := by
      exact_mod_cast hbelow
    have hvertex := abs_vertex_le (a := (before : ℝ)) (b := (cost : ℝ)) (c := (after : ℝ))
      (Nat.cast_le.mpr (hbest.least _ _ hbefore)) (Nat.cast_le.mpr (hbest.least _ _ hafter))
    obtain ⟨hlow, hhigh⟩ := abs_le.mp hvertex
    refine ⟨?_, by linarith, by linarith, fun hend => ?_⟩
    · rw [Nat.cast_add, add_sub_add_left_eq_sub, add_sub_cancel_left]
      exact hvertex
    · omega

end Costs

/-- **The disparity of a pixel that is searched**: there is one exactly if the first best one stands out, and it is near
that one. -/
theorem at?_searched {settings : StereoSettings Stored} {share : ℝ} {i j : Nat} (hrows : left.rows = right.rows)
    (hcols : left.cols = right.cols) (hrange : settings.least ≤ settings.largest)
    (hshare : settings.uniqueness = Stored.number share)
    (hsearched : isSearched settings left.rows left.cols i j = true) :
    ∃ best, FirstBest settings left right i j best ∧
      ((at? id settings left right i j = some Scalar.nan ∧ ¬ StandsOut settings share left right i j best) ∨
        ∃ x : ℝ, at? id settings left right i j = some (Stored.number x)
          ∧ StandsOut settings share left right i j best ∧ NearBest settings best x) := by
  cases hfound : least? (rangeCosts settings left right i j) with
  | none => exact absurd (least?_eq_none hfound) (rangeCosts_ne_nil hrange)
  | some found =>
    obtain ⟨k, cost⟩ := found
    have hleast := firstLeast_of_least? hfound
    obtain ⟨hbest, hcost⟩ := firstBest_of_firstLeast hleast
    have hclear := isAmbiguous_rangeCosts share hcost
    refine ⟨settings.least + k, hbest, ?_⟩
    unfold at?
    rw [if_pos hsearched, costs?_eq id hrows hcols hsearched, List.map_id, Option.map_some, hshare]
    cases hambiguous : isAmbiguous (Stored.number share) (rangeCosts settings left right i j) k cost with
    | true =>
      left
      refine ⟨?_, fun hout => ?_⟩
      · unfold best?
        rw [hfound]
        simp only [hambiguous, if_true]
      · rw [hclear.mpr hout] at hambiguous
        cases hambiguous
    | false =>
      right
      obtain ⟨x, hx, hrefined⟩ := exists_refined hfound hambiguous
      rw [hx]
      exact ⟨settings.least + x, rfl, hclear.mp hambiguous, nearBest_of_refined hleast hrefined⟩

/-- The pixels whose blocks have room, by the loops that run over them. -/
theorem isSearched_iff_sub {S : Type} {settings : StereoSettings S} {rows cols i j : Nat} :
    isSearched settings rows cols i j = true ↔
      settings.blockHalfSize ≤ i ∧ i < rows - settings.blockHalfSize ∧
        settings.blockHalfSize + settings.largest ≤ j ∧ j < cols - settings.blockHalfSize := by
  rw [isSearched_iff, Nat.lt_sub_iff_add_lt, Nat.lt_sub_iff_add_lt]

/-- Images of one shape have disparities. -/
theorem exists_disparities {settings : StereoSettings Stored} {share : ℝ} (hrows : left.rows = right.rows)
    (hcols : left.cols = right.cols) (hrange : settings.least ≤ settings.largest)
    (hshare : settings.uniqueness = Stored.number share) :
    ∃ g, disparityGrid? id settings left right = some g := by
  apply exists_disparityGrid?
  intro i j _ _
  cases hsearched : isSearched settings left.rows left.cols i j with
  | false => exact ⟨_, at?_of_not_searched id left right hsearched⟩
  | true =>
    obtain ⟨best, -, ⟨hnan, -⟩ | ⟨x, hx, -⟩⟩ := at?_searched hrows hcols hrange hshare hsearched
    · exact ⟨_, hnan⟩
    · exact ⟨_, hx⟩

end Disparity

open Disparity in
/-- **The disparities of any two images of one shape.** For every pixel that is searched and every disparity of the
range, no difference of indices is negative and no pixel is read outside the images. The result has their shape. A pixel
has a disparity only if its block and all the blocks it is compared with have room; it then has one if and only if the
first disparity of least cost stands out, namely within half a step of that one, in the range, and without a fraction at
its ends. -/
theorem disparityGrid_determined {settings : StereoSettings Stored} {left right : Grid UInt8} {share : ℝ}
    (hrows : left.rows = right.rows) (hcols : left.cols = right.cols) (hrange : settings.least ≤ settings.largest)
    (hshare : settings.uniqueness = Stored.number share) :
    (∀ i j, isSearched settings left.rows left.cols i j = true →
      (disparities settings).mapM (runningCost? id left right settings.blockHalfSize i j)
          = some ((disparities settings).map (differenceSum left right settings.blockHalfSize i j))
        ∧ costs? id settings left right i j
          = some ((disparities settings).map (differenceSum left right settings.blockHalfSize i j)))
      ∧ ∃ g, disparityGrid? id settings left right = some g ∧ g.rows = left.rows ∧ g.cols = left.cols ∧
        ∀ i j v, g.get? i j = some v →
          (¬ (settings.blockHalfSize ≤ i ∧ i < left.rows - settings.blockHalfSize ∧
              settings.blockHalfSize + settings.largest ≤ j ∧ j < left.cols - settings.blockHalfSize) →
            v = Scalar.nan)
          ∧ (settings.blockHalfSize ≤ i ∧ i < left.rows - settings.blockHalfSize ∧
              settings.blockHalfSize + settings.largest ≤ j ∧ j < left.cols - settings.blockHalfSize →
            ∃ best, FirstBest settings left right i j best
              ∧ (v ≠ Scalar.nan ↔ StandsOut settings share left right i j best)
              ∧ (v ≠ Scalar.nan → ∃ x : ℝ, v = Stored.number x ∧ NearBest settings best x)) := by
  refine ⟨fun i j hsearched => ⟨mapM_runningCost?_eq isWord_id hrows hcols hsearched,
    costs?_eq_sums id hrows hcols hsearched⟩, ?_⟩
  obtain ⟨g, hg⟩ := exists_disparities hrows hcols hrange hshare
  obtain ⟨hgrows, hgcols, hget⟩ := get?_of_disparityGrid? hg
  refine ⟨g, hg, hgrows, hgcols, fun i j v hv => ?_⟩
  obtain ⟨-, -, hat⟩ := (hget i j v).mp hv
  rw [← isSearched_iff_sub]
  refine ⟨fun hout => ?_, fun hsearched => ?_⟩
  · have hnan := at?_of_not_searched id left right (Bool.eq_false_of_not_eq_true hout)
    exact Option.some.inj (hat.symm.trans hnan)
  · obtain ⟨best, hbest, hresult⟩ := at?_searched hrows hcols hrange hshare hsearched
    refine ⟨best, hbest, ?_⟩
    rcases hresult with ⟨hnan, hnot⟩ | ⟨x, hx, hout, hnear⟩
    · obtain rfl := Option.some.inj (hat.symm.trans hnan)
      exact ⟨iff_of_false (fun h => h rfl) hnot, fun h => absurd rfl h⟩
    · obtain rfl := Option.some.inj (hat.symm.trans hx)
      exact ⟨iff_of_true (Option.some_ne_none x) hout, fun _ => ⟨x, rfl, hnear⟩⟩

open Disparity in
/-- The pixel whose block matches at both disparities is given the first one: the two are next to each other. -/
theorem disparityGrid_determined_level :
    levelRowShifted.rows = levelRow.rows ∧ levelRowShifted.cols = levelRow.cols
      ∧ twoDisparities.least ≤ twoDisparities.largest ∧ twoDisparities.uniqueness = Stored.number 1
      ∧ ∃ g, disparityGrid? id twoDisparities levelRowShifted levelRow = some g
        ∧ g.get? 0 2 = some (Stored.number 1) ∧ FirstBest twoDisparities levelRowShifted levelRow 0 2 1
        ∧ StandsOut twoDisparities 1 levelRowShifted levelRow 0 2 1 := by
  obtain ⟨-, g, hg, -, -, hpixels⟩ := @disparityGrid_determined twoDisparities levelRowShifted levelRow 1 rfl rfl
    (by decide) rfl
  have hget : g.get? 0 2 = some (Stored.number 1) :=
    ((get?_of_disparityGrid? hg).2.2 0 2 _).mpr ⟨by decide, by decide, at?_level⟩
  obtain ⟨best, hbest, hdetermined, hvalue⟩ := (hpixels 0 2 _ hget).2 (by decide)
  have hnumber : Stored.number 1 ≠ Scalar.nan := Option.some_ne_none (1 : ℝ)
  obtain ⟨x, hx, hnear⟩ := hvalue hnumber
  obtain rfl : (1 : ℝ) = x := Option.some.inj hx
  obtain rfl : best = 1 := by
    obtain ⟨hlow, hhigh⟩ := abs_le.mp hnear.half_step
    have hfrom : (0 : ℝ) < best := by linarith
    have hto : (best : ℝ) < 2 := by linarith
    have hpos : 0 < best := Nat.cast_pos.mp hfrom
    have htwo : best < 2 := by exact_mod_cast hto
    omega
  exact ⟨rfl, rfl, by decide, rfl, g, hg, hget, hbest, hdetermined.mp hnumber⟩

end StereoMapping
