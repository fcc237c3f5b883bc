import Mathlib.Tactic.FieldSimp
import Mathlib.Tactic.Linarith
import StereoMapping.Image.Disparity
import StereoMapping.Proofs.Number.Stored

/-!
# `Proofs.Image.Disparity` — block matching of a pair that is shifted as a whole

Where the left image shows what the right one does, a number of columns further right, blocks match at that
disparity at no cost. Other disparities may do so too: the texture decides, and the search knows nothing of the
shift. What it returns is still tied to it, by the order of its rules. The first disparity without cost is taken, so
the shift is not below it; any other one without cost makes it ambiguous, unless it is next to it. Therefore the shift
is the disparity taken or the one after. In the first case the parabola moves the result by half a step at most, in
the second by exactly half a step, towards the shift. Only at the start of the range there is no parabola, and the
result may be one step short.

Costs and sizes are natural numbers here, and scalars are real numbers or none (`Proofs.Number.Stored`).

## Contents
- `Grid.get?_of_sequence?`, `get?_of_disparityGrid?`: cells of a grid that is made pixel by pixel.
- `Disparity.blockCost`, `costs?_eq`: costs inside the images, read without failure.
- `FirstLeast`, `Refined`: what is taken of a list of costs; `best?_of_free`, where there is one without cost.
- `ShiftedPair`, `disparities_of_shiftedPair`.
-/

namespace StereoMapping

/-! ## Grids of values that may be missing -/

namespace Grid

variable {α : Type}

theorem get?_eq_some_iff {g : Grid α} {i j : Nat} {a : α} :
    g.get? i j = some a ↔ ∃ (hi : i < g.rows) (hj : j < g.cols), g.get i j hi hj = a := by
  unfold get?
  by_cases h : i < g.rows ∧ j < g.cols
  · rw [dif_pos h, Option.some_inj]
    exact ⟨fun ha => ⟨h.1, h.2, ha⟩, fun ⟨_, _, ha⟩ => ha⟩
  · rw [dif_neg h]
    exact iff_of_false (Option.some_ne_none a).symm fun ⟨hi, hj, _⟩ => h ⟨hi, hj⟩

theorem get?_ofFn_eq_some_iff {rows cols i j : Nat} {f : Nat → Nat → α} {a : α} :
    (ofFn rows cols fun i j _ _ => f i j).get? i j = some a ↔ i < rows ∧ j < cols ∧ f i j = a := by
  rw [get?_eq_some_iff]
  constructor
  · rintro ⟨hi, hj, ha⟩
    rw [get_ofFn] at ha
    exact ⟨hi, hj, ha⟩
  · rintro ⟨hi, hj, ha⟩
    exact ⟨hi, hj, (get_ofFn (f := fun i j _ _ => f i j) hi hj).trans ha⟩

/-- A grid of values has these in its cells. -/
theorem get?_of_sequence? {g : Grid (Option α)} {values : Grid α} (h : g.sequence? = some values) :
    values.rows = g.rows ∧ values.cols = g.cols ∧
      ∀ i j a, values.get? i j = some a ↔ g.get? i j = some (some a) := by
  unfold sequence? at h
  split at h
  · obtain rfl := Option.some.inj h
    refine ⟨rfl, rfl, fun i j a => ?_⟩
    rw [get?_eq_some_iff, get?_eq_some_iff]
    refine exists_congr fun hi => exists_congr fun hj => ?_
    simp only [get, Array.getElem_ofFn]
    constructor
    · rintro rfl
      exact (Option.some_get _).symm
    · intro ha
      exact Option.some.inj ((Option.some_get _).trans ha)
  · cases h

/-- If every cell has a value, there is a grid of them. -/
theorem exists_sequence? {g : Grid (Option α)} (h : ∀ i j hi hj, ∃ a, g.get i j hi hj = some a) :
    ∃ values, g.sequence? = some values := by
  have hcells : ∀ k, (hk : k < g.cells.size) → g.cells[k].isSome := by
    intro k hk
    have hlt : k < g.rows * g.cols := g.size_cells ▸ hk
    have hpos : 0 < g.cols := Nat.pos_of_lt_mul_left hlt
    obtain ⟨a, ha⟩ := h (k / g.cols) (k % g.cols) (Nat.div_lt_of_lt_mul (Nat.mul_comm _ _ ▸ hlt))
      (Nat.mod_lt _ hpos)
    have hk : k / g.cols * g.cols + k % g.cols = k := Nat.div_add_mod' k g.cols
    simp only [get, hk] at ha
    rw [ha]
    rfl
  exact ⟨_, dif_pos hcells⟩

end Grid

/-- Values that can all be had are had in order. -/
theorem mapM_eq_some {α β : Type} {f : α → Option β} {g : α → β} {xs : List α}
    (h : ∀ x ∈ xs, f x = some (g x)) : xs.mapM f = some (xs.map g) := by
  induction xs with
  | nil => rfl
  | cons x xs ih =>
    have hrest : xs.mapM f = some (xs.map g) := ih fun y hy => h y (List.mem_cons_of_mem x hy)
    rw [List.mapM_cons, h x List.mem_cons_self, hrest]
    rfl

namespace Disparity

/-! ## Costs -/

/-- Intensity of a pixel, zero outside. -/
def intensity (image : Grid UInt8) (i j : Nat) : UInt8 := (image.get? i j).getD 0

theorem get?_eq_intensity {image : Grid UInt8} {i j : Nat} (hi : i < image.rows) (hj : j < image.cols) :
    image.get? i j = some (intensity image i j) := by
  have hget := Grid.get?_eq_some_iff.mpr ⟨hi, hj, rfl⟩
  unfold intensity
  rw [hget]
  rfl

/-- Sum of absolute differences of two blocks, whatever there is of them in the images. -/
def blockCost (left right : Grid UInt8) (h i j d : Nat) : Nat :=
  ((List.range (2 * h + 1)).map fun di => (List.range (2 * h + 1)).map fun dj =>
    gap (intensity left (i + di - h) (j + dj - h)) (intensity right (i + di - h) (j + dj - h - d)))
    |>.flatten.foldl (· + ·) 0

variable {left right : Grid UInt8}

/-- Two blocks inside the images have a cost. -/
theorem blockCost?_eq (hrows : left.rows = right.rows) (hcols : left.cols = right.cols) {h i j d : Nat}
    (hbottom : i + h < left.rows) (hright : j + h < left.cols) :
    blockCost? left right h i j d = some (blockCost left right h i j d) := by
  have hgaps : blockGaps? left right h i j d = some
      (((List.range (2 * h + 1)).map fun di => (List.range (2 * h + 1)).map fun dj =>
        gap (intensity left (i + di - h) (j + dj - h)) (intensity right (i + di - h) (j + dj - h - d))).flatten) := by
    unfold blockGaps?
    rw [mapM_eq_some fun di hdi => mapM_eq_some fun dj hdj => ?_]
    · rfl
    · have hdi := List.mem_range.mp hdi
      have hdj := List.mem_range.mp hdj
      have hl : left.get? (i + di - h) (j + dj - h) = some (intensity left (i + di - h) (j + dj - h)) :=
        get?_eq_intensity (by omega) (by omega)
      have hr : right.get? (i + di - h) (j + dj - h - d) = some (intensity right (i + di - h) (j + dj - h - d)) :=
        get?_eq_intensity (by omega) (by omega)
      rw [hl, hr]
      rfl
  unfold blockCost?
  rw [hgaps]
  rfl

theorem blockCost_eq_zero {h i j d : Nat}
    (hsame : ∀ di dj, di ≤ 2 * h → dj ≤ 2 * h →
      intensity left (i + di - h) (j + dj - h) = intensity right (i + di - h) (j + dj - h - d)) :
    blockCost left right h i j d = 0 := by
  have hfold : ∀ gaps : List Nat, (∀ c ∈ gaps, c = 0) → gaps.foldl (· + ·) 0 = 0 := by
    intro gaps hgaps
    induction gaps with
    | nil => rfl
    | cons c gaps ih =>
      rw [List.foldl_cons, hgaps c List.mem_cons_self]
      exact ih fun b hb => hgaps b (List.mem_cons_of_mem c hb)
  refine hfold _ fun c hc => ?_
  obtain ⟨row, hrow, hc⟩ := List.mem_flatten.mp hc
  obtain ⟨di, hdi, rfl⟩ := List.mem_map.mp hrow
  obtain ⟨dj, hdj, rfl⟩ := List.mem_map.mp hc
  rw [hsame di dj (Nat.lt_succ_iff.mp (List.mem_range.mp hdi)) (Nat.lt_succ_iff.mp (List.mem_range.mp hdj))]
  unfold gap
  omega

/-! ## The first least cost -/

/-- A cost of a list, at its place, that is the least one and the first of the least ones. -/
structure FirstLeast (costs : List Nat) (best cost : Nat) : Prop where
  here : costs[best]? = some cost
  least : ∀ (k c : Nat), costs[k]? = some c → cost ≤ c
  first : ∀ (k c : Nat), costs[k]? = some c → k < best → cost < c

theorem FirstLeast.first_le {costs : List Nat} {best cost k : Nat} (h : FirstLeast costs best cost)
    (hk : costs[k]? = some cost) : best ≤ k := by
  by_contra hearly
  exact absurd (h.first k cost hk (Nat.not_le.mp hearly)) (lt_irrefl cost)

theorem least?_eq_none {costs : List Nat} (h : least? costs = none) : costs = [] := by
  cases costs with
  | nil => rfl
  | cons c rest =>
    rw [least?] at h
    cases hrest : least? rest with
    | none =>
      rw [hrest] at h
      cases h
    | some found =>
      rw [hrest] at h
      dsimp only at h
      split at h <;> cases h

theorem firstLeast_of_least? {costs : List Nat} {best cost : Nat} (h : least? costs = some (best, cost)) :
    FirstLeast costs best cost := by
  induction costs generalizing best cost with
  | nil => cases h
  | cons c rest ih =>
    rw [least?] at h
    cases hrest : least? rest with
    | none =>
      rw [hrest] at h
      obtain ⟨rfl, rfl⟩ := Prod.mk.inj (Option.some.inj h)
      obtain rfl := least?_eq_none hrest
      refine ⟨rfl, fun k b hk => ?_, fun k b _ hlt => absurd hlt (Nat.not_lt_zero k)⟩
      cases k with
      | zero => exact (Option.some.inj hk).le
      | succ k => cases hk
    | some found =>
      obtain ⟨k, b⟩ := found
      rw [hrest] at h
      have hfound := ih hrest
      dsimp only at h
      by_cases hlt : b < c
      · -- a later cost is strictly less than the one in front
        rw [if_pos hlt] at h
        obtain ⟨rfl, rfl⟩ := Prod.mk.inj (Option.some.inj h)
        refine ⟨hfound.here, fun m a hm => ?_, fun m a hm hbefore => ?_⟩
        · cases m with
          | zero => exact Option.some.inj hm ▸ hlt.le
          | succ m => exact hfound.least m a hm
        · cases m with
          | zero => exact Option.some.inj hm ▸ hlt
          | succ m => exact hfound.first m a hm (Nat.lt_of_succ_lt_succ hbefore)
      · rw [if_neg hlt] at h
        obtain ⟨rfl, rfl⟩ := Prod.mk.inj (Option.some.inj h)
        refine ⟨rfl, fun m a hm => ?_, fun m a _ hbefore => absurd hbefore (Nat.not_lt_zero m)⟩
        cases m with
        | zero => exact (Option.some.inj hm).le
        | succ m => exact (Nat.not_lt.mp hlt).trans (hfound.least m a hm)

/-! ## The best disparity, in exact arithmetic -/

theorem isAmbiguous_iff {u : ℝ} {costs : List Nat} {best cost : Nat} :
    isAmbiguous (Stored.number u) costs best cost = true ↔
      ∃ k c : Nat, costs[k]? = some c ∧ areFar k best = true ∧ u * c ≤ cost := by
  unfold isAmbiguous
  rw [List.any_eq_true]
  constructor
  · rintro ⟨⟨c, k⟩, hmem, htest⟩
    obtain ⟨hfar, hle⟩ := Bool.and_eq_true_iff.mp htest
    exact ⟨k, c, List.mem_zipIdx_iff_getElem?.mp hmem, hfar, (Scalar.real_le _ _).mp hle⟩
  · rintro ⟨k, c, hc, hfar, hle⟩
    refine ⟨(c, k), List.mem_zipIdx_iff_getElem?.mpr hc, ?_⟩
    exact Bool.and_eq_true_iff.mpr ⟨hfar, (Scalar.real_le _ _).mpr hle⟩

theorem vertex_eq (a b c : ℝ) :
    vertex a b c = if 0 < (a - b) + (c - b) then (a - c) / (2 * ((a - b) + (c - b))) else 0 := by
  have hcurvature : a - 2 * b + c = (a - b) + (c - b) := by ring
  unfold vertex
  simp only [Scalar.real_two, Scalar.real_lt, hcurvature]

theorem vertex_number (a b c : ℝ) :
    vertex (Stored.number a) (Stored.number b) (Stored.number c) = Stored.number (vertex a b c) := by
  unfold vertex
  show (if Scalar.lt (0 : ℝ) (a - Scalar.two * b + c) = true then Stored.number _ else Stored.number 0) = _
  exact (apply_ite Stored.number _ _ _).symm

/-- The vertex of a parabola with its least value in the middle is nearer to the middle than to its neighbours. -/
theorem abs_vertex_le {a b c : ℝ} (ha : b ≤ a) (hc : b ≤ c) : |vertex a b c| ≤ 1 / 2 := by
  rw [vertex_eq]
  split_ifs with hpos
  · rw [abs_le]
    constructor
    · rw [le_div_iff₀ (by linarith)]
      linarith
    · rw [div_le_iff₀ (by linarith)]
      linarith
  · norm_num

/-- Between two equal values it is half way. -/
theorem vertex_of_level {a b : ℝ} (h : b < a) : vertex a b b = 1 / 2 := by
  have hpos : 0 < a - b := sub_pos.mpr h
  rw [vertex_eq, sub_self, add_zero, if_pos hpos]
  field_simp

/-- Position of a best cost with its fraction: none at an end of the list, that of the parabola inside. -/
inductive Refined (costs : List Nat) (best cost : Nat) : ℝ → Prop
  | atEnd (hend : best = 0 ∨ costs[best + 1]? = none) : Refined costs best cost best
  | inside {before after : Nat} (hbest : 0 < best) (hbefore : costs[best - 1]? = some before)
      (hafter : costs[best + 1]? = some after) : Refined costs best cost (best + vertex (before : ℝ) cost after)

/-- A best cost that is unique enough is refined. -/
theorem exists_refined {u : ℝ} {costs : List Nat} {best cost : Nat} (hleast : least? costs = some (best, cost))
    (hclear : isAmbiguous (Stored.number u) costs best cost = false) :
    ∃ x, best? (Stored.number u) costs = some (Stored.number x) ∧ Refined costs best cost x := by
  have hhere := (firstLeast_of_least? hleast).here
  unfold best?
  rw [hleast]
  simp only [hclear, Bool.false_eq_true, if_false]
  cases best with
  | zero => exact ⟨_, rfl, .atEnd (.inl rfl)⟩
  | succ best =>
    obtain ⟨hlength, -⟩ := List.getElem?_eq_some_iff.mp hhere
    have hbound : best < costs.length := by omega
    have hbefore : costs[best + 1 - 1]? = some costs[best] := List.getElem?_eq_getElem hbound
    rw [hbefore]
    cases hafter : costs[best + 1 + 1]? with
    | none => exact ⟨_, rfl, .atEnd (.inr hafter)⟩
    | some after =>
      refine ⟨_, ?_, .inside (Nat.succ_pos best) hbefore hafter⟩
      show some (Stored.number _ + vertex (Stored.number _) (Stored.number _) (Stored.number _)) = _
      rw [vertex_number]
      rfl

/-! ## Pixels -/

section Pixels

variable {S : Type} [Scalar S] {word : Nat → Nat} {settings : StereoSettings S}

/-- The disparities of a pair are those of its pixels. -/
theorem get?_of_disparityGrid? {g : Grid S} (h : disparityGrid? word settings left right = some g) :
    g.rows = left.rows ∧ g.cols = left.cols ∧ ∀ i j d, g.get? i j = some d ↔
      i < left.rows ∧ j < left.cols ∧ at? word settings left right i j = some d := by
  obtain ⟨hrows, hcols, hget⟩ := Grid.get?_of_sequence? h
  refine ⟨hrows, hcols, fun i j d => ?_⟩
  rw [hget, Grid.get?_ofFn_eq_some_iff]

theorem exists_disparityGrid?
    (h : ∀ i j, i < left.rows → j < left.cols → ∃ d, at? word settings left right i j = some d) :
    ∃ g, disparityGrid? word settings left right = some g := by
  apply Grid.exists_sequence?
  intro i j hi hj
  rw [Grid.get_ofFn]
  exact h i j hi hj

end Pixels

/-! ## A shifted pair -/

theorem areFar_eq_false_iff {i j : Nat} : areFar i j = false ↔ i ≤ j + 1 ∧ j ≤ i + 1 := by
  unfold areFar
  rw [Bool.or_eq_false_iff, decide_eq_false_iff_not, decide_eq_false_iff_not]
  omega

/-- A place without cost that is not far from the first such place: the fraction leads half way to it at most, but for
the place after the start of the list. -/
theorem Refined.near {costs : List Nat} {best place : Nat} {x : ℝ} (hx : Refined costs best 0 x)
    (hbest : FirstLeast costs best 0) (hplace : costs[place]? = some 0) (hnear : areFar place best = false) :
    |x - place| ≤ 1 / 2 ∨ (place = 1 ∧ x = 0) := by
  have hlate := hbest.first_le hplace
  have hclose := (areFar_eq_false_iff.mp hnear).1
  obtain rfl | rfl : place = best ∨ place = best + 1 := by omega
  · left
    cases hx with
    | atEnd _ => simp
    | inside hpos hbefore hafter =>
      have hvertex := abs_vertex_le (a := ((_ : Nat) : ℝ)) (b := ((0 : Nat) : ℝ)) (c := ((_ : Nat) : ℝ))
        (Nat.cast_le.mpr (hbest.least _ _ hbefore)) (Nat.cast_le.mpr (hbest.least _ _ hafter))
      rwa [add_sub_cancel_left]
  · cases hx with
    | atEnd hend =>
      -- the next place is in the list, so that this is its start
      obtain rfl | hnone := hend
      · exact .inr ⟨rfl, Nat.cast_zero⟩
      · rw [hnone] at hplace
        cases hplace
    | @inside before after hpos hbefore hafter =>
      left
      obtain rfl : after = 0 := Option.some.inj (hafter.symm.trans hplace)
      have hpositive : 0 < before := hbest.first _ _ hbefore (by omega)
      rw [vertex_of_level (Nat.cast_lt.mpr hpositive), Nat.cast_add, Nat.cast_one, abs_le]
      constructor <;> linarith

/-- Places without cost are next to each other: there are at most two of them. -/
def FreeOnce (costs : List Nat) : Prop :=
  ∀ a b : Nat, costs[a]? = some 0 → costs[b]? = some 0 → a ≤ b + 1

/-- Nothing but another place without cost is as good as one. -/
theorem isAmbiguous_free_iff {u : ℝ} (hu : 0 < u) {costs : List Nat} {best : Nat} :
    isAmbiguous (Stored.number u) costs best 0 = true ↔ ∃ k : Nat, costs[k]? = some 0 ∧ areFar k best = true := by
  rw [isAmbiguous_iff]
  constructor
  · rintro ⟨k, c, hc, hfar, hle⟩
    have hcast : (c : ℝ) ≤ 0 := by
      rw [Nat.cast_zero] at hle
      exact nonpos_of_mul_nonpos_right hle hu
    obtain rfl : c = 0 := Nat.cast_eq_zero.mp (le_antisymm hcast (Nat.cast_nonneg c))
    exact ⟨k, hc, hfar⟩
  · rintro ⟨k, hk, hfar⟩
    exact ⟨k, 0, hk, hfar, by rw [Nat.cast_zero, mul_zero]⟩

/-- **The best disparity where one has no cost.** There is one exactly if no two places without cost are more than one
apart. -/
theorem best?_of_free {u : ℝ} (hu : 0 < u) {costs : List Nat} {place : Nat} (hplace : costs[place]? = some 0) :
    (best? (Stored.number u) costs = none ∧ ¬ FreeOnce costs) ∨
      ∃ x : ℝ, best? (Stored.number u) costs = some (Stored.number x) ∧ FreeOnce costs ∧
        (|x - place| ≤ 1 / 2 ∨ (place = 1 ∧ x = 0)) := by
  cases hfound : least? costs with
  | none =>
    rw [least?_eq_none hfound] at hplace
    cases hplace
  | some found =>
    obtain ⟨best, cost⟩ := found
    have hbest := firstLeast_of_least? hfound
    obtain rfl : cost = 0 := Nat.le_zero.mp (hbest.least _ _ hplace)
    cases hambiguous : isAmbiguous (Stored.number u) costs best 0 with
    | true =>
      left
      obtain ⟨k, hk, hfar⟩ := (isAmbiguous_free_iff hu).mp hambiguous
      refine ⟨?_, fun honce => ?_⟩
      · unfold best?
        rw [hfound]
        simp only [hambiguous, if_true]
      · rw [areFar_eq_false_iff.mpr ⟨honce k best hk hbest.here, honce best k hbest.here hk⟩] at hfar
        cases hfar
    | false =>
      right
      -- all free disparities are next to the best one, which is the first of them
      have hnear : ∀ k : Nat, costs[k]? = some 0 → areFar k best = false := by
        intro k hk
        by_contra hfar
        have htrue := (isAmbiguous_free_iff hu).mpr ⟨k, hk, Bool.eq_true_of_not_eq_false hfar⟩
        rw [hambiguous] at htrue
        cases htrue
      obtain ⟨x, hx, hrefined⟩ := exists_refined hfound hambiguous
      refine ⟨x, hx, fun a b ha hb => ?_, hrefined.near hbest hplace (hnear _ hplace)⟩
      calc a ≤ best + 1 := (areFar_eq_false_iff.mp (hnear a ha)).1
        _ ≤ b + 1 := Nat.succ_le_succ (hbest.first_le hb)

/-- The block around a left pixel, and every block that it is compared with, is inside. -/
theorem isSearched_iff {S : Type} {settings : StereoSettings S} {rows cols i j : Nat} :
    isSearched settings rows cols i j = true ↔ settings.blockHalfSize ≤ i ∧ i + settings.blockHalfSize < rows ∧
      settings.blockHalfSize + settings.largest ≤ j ∧ j + settings.blockHalfSize < cols := by
  unfold isSearched
  simp only [Bool.and_eq_true, decide_eq_true_eq, and_assoc]

/-- Costs of the disparities of the range. -/
def rangeCosts {S : Type} (settings : StereoSettings S) (left right : Grid UInt8) (i j : Nat) : List Nat :=
  (List.range' settings.least (settings.largest + 1 - settings.least)).map
    (blockCost left right settings.blockHalfSize i j)

theorem getElem?_rangeCosts {S : Type} {settings : StereoSettings S} {i j k c : Nat} :
    (rangeCosts settings left right i j)[k]? = some c ↔
      settings.least + k ≤ settings.largest ∧
        blockCost left right settings.blockHalfSize i j (settings.least + k) = c := by
  unfold rangeCosts
  rw [List.getElem?_map]
  by_cases hk : k < settings.largest + 1 - settings.least
  · rw [List.getElem?_range' hk, Nat.one_mul, Option.map_some, Option.some_inj]
    exact (and_iff_right (by omega)).symm
  · rw [List.getElem?_eq_none (by rw [List.length_range']; omega), Option.map_none]
    exact iff_of_false (Option.some_ne_none c).symm fun ⟨hle, _⟩ => hk (by omega)

/-- The costs of a pixel that is searched are there. -/
theorem costs?_eq {S : Type} {settings : StereoSettings S} (word : Nat → Nat) (hrows : left.rows = right.rows)
    (hcols : left.cols = right.cols) {i j : Nat} (hsearched : isSearched settings left.rows left.cols i j = true) :
    costs? word settings left right i j = some ((rangeCosts settings left right i j).map word) := by
  obtain ⟨-, hbottom, -, hright⟩ := isSearched_iff.mp hsearched
  unfold costs? rangeCosts
  rw [List.map_map]
  apply mapM_eq_some
  intro d _
  rw [blockCost?_eq hrows hcols hbottom hright]
  rfl

/-- A left image that shows what the right one does, some columns further right. -/
structure ShiftedPair (left right : Grid UInt8) (s : Nat) : Prop where
  rows_eq : left.rows = right.rows
  cols_eq : left.cols = right.cols
  shifted : ∀ i j, s ≤ j → j < left.cols → left.get? i j = right.get? i (j - s)

/-- At the shift of a pair, blocks match at no cost. -/
theorem ShiftedPair.blockCost_eq {s h i j : Nat} (hpair : ShiftedPair left right s) (hleft : h + s ≤ j)
    (hright : j + h < left.cols) : blockCost left right h i j s = 0 := by
  apply blockCost_eq_zero
  intro di dj _ hdj
  unfold intensity
  rw [hpair.shifted (i + di - h) (j + dj - h) (by omega) (by omega)]

/-- No two disparities of the range that are more than one apart match a pixel at no cost. -/
def MatchesOnce {S : Type} (settings : StereoSettings S) (left right : Grid UInt8) (i j : Nat) : Prop :=
  ∀ a b, settings.least ≤ a → a ≤ settings.largest → settings.least ≤ b → b ≤ settings.largest →
    blockCost? left right settings.blockHalfSize i j a = some 0 →
    blockCost? left right settings.blockHalfSize i j b = some 0 → a ≤ b + 1

theorem matchesOnce_iff {S : Type} {settings : StereoSettings S} (hrows : left.rows = right.rows)
    (hcols : left.cols = right.cols) {i j : Nat} (hsearched : isSearched settings left.rows left.cols i j = true) :
    MatchesOnce settings left right i j ↔ FreeOnce (rangeCosts settings left right i j) := by
  obtain ⟨-, hbottom, -, hright⟩ := isSearched_iff.mp hsearched
  have hfree : ∀ d, settings.least ≤ d → ((rangeCosts settings left right i j)[d - settings.least]? = some 0 ↔
      d ≤ settings.largest ∧ blockCost? left right settings.blockHalfSize i j d = some 0) := by
    intro d hd
    rw [getElem?_rangeCosts, blockCost?_eq hrows hcols hbottom hright, Option.some_inj, Nat.add_sub_cancel' hd]
  constructor
  · intro honce a b ha hb
    rw [← Nat.add_sub_cancel_left (n := settings.least) (m := a), hfree _ (Nat.le_add_right _ _)] at ha
    rw [← Nat.add_sub_cancel_left (n := settings.least) (m := b), hfree _ (Nat.le_add_right _ _)] at hb
    have hab := honce _ _ (Nat.le_add_right _ _) ha.1 (Nat.le_add_right _ _) hb.1 ha.2 hb.2
    omega
  · intro honce a b hla hag hlb hbg ha hb
    have hab := honce _ _ ((hfree a hla).mpr ⟨hag, ha⟩) ((hfree b hlb).mpr ⟨hbg, hb⟩)
    omega

/-- A pixel that is not searched has no disparity. -/
theorem at?_of_not_searched {settings : StereoSettings Stored} (word : Nat → Nat) (left right : Grid UInt8) {i j : Nat}
    (hout : isSearched settings left.rows left.cols i j = false) :
    at? word settings left right i j = some Scalar.nan := by
  unfold at?
  rw [hout]
  rfl

/-- A pixel of a shifted pair that is searched. The list of costs begins at the least disparity. -/
theorem ShiftedPair.at?_searched {settings : StereoSettings Stored} {s : Nat} {u : ℝ}
    (hpair : ShiftedPair left right s) (hleast : settings.least ≤ s) (hlargest : s ≤ settings.largest)
    (huniqueness : settings.uniqueness = Stored.number u) (hu : 0 < u) {i j : Nat}
    (hsearched : isSearched settings left.rows left.cols i j = true) :
    (at? id settings left right i j = some Scalar.nan ∧ ¬ MatchesOnce settings left right i j) ∨
      ∃ x : ℝ, at? id settings left right i j = some (Stored.number x) ∧ MatchesOnce settings left right i j ∧
        (|x - s| ≤ 1 / 2 ∨ (s = settings.least + 1 ∧ x = s - 1)) := by
  have hshift : (rangeCosts settings left right i j)[s - settings.least]? = some 0 := by
    obtain ⟨-, -, hleft, hright⟩ := isSearched_iff.mp hsearched
    rw [getElem?_rangeCosts, Nat.add_sub_cancel' hleast]
    exact ⟨hlargest, hpair.blockCost_eq (by omega) hright⟩
  rw [matchesOnce_iff hpair.rows_eq hpair.cols_eq hsearched]
  unfold at?
  rw [if_pos hsearched, costs?_eq id hpair.rows_eq hpair.cols_eq hsearched, List.map_id, Option.map_some,
    huniqueness]
  rcases best?_of_free hu hshift with ⟨hnone, hnot⟩ | ⟨x, hx, honce, hnear⟩
  · left
    rw [hnone]
    exact ⟨rfl, hnot⟩
  · right
    rw [hx]
    refine ⟨settings.least + x, rfl, honce, ?_⟩
    have hcast : (s : ℝ) = settings.least + ((s - settings.least : Nat) : ℝ) := by
      rw [← Nat.cast_add, Nat.add_sub_cancel' hleast]
    rcases hnear with hhalf | ⟨hplace, rfl⟩
    · left
      rw [hcast, add_sub_add_left_eq_sub]
      exact hhalf
    · right
      refine ⟨by omega, ?_⟩
      rw [hcast, hplace, Nat.cast_one, add_zero, add_sub_cancel_right]

/-- **A pixel of a shifted pair**, whether it is searched or not. -/
theorem ShiftedPair.at?_cases {settings : StereoSettings Stored} {s : Nat} {u : ℝ}
    (hpair : ShiftedPair left right s) (hleast : settings.least ≤ s) (hlargest : s ≤ settings.largest)
    (huniqueness : settings.uniqueness = Stored.number u) (hu : 0 < u) (i j : Nat) :
    (at? id settings left right i j = some Scalar.nan ∧
      ¬ (isSearched settings left.rows left.cols i j = true ∧ MatchesOnce settings left right i j)) ∨
      ∃ x : ℝ, at? id settings left right i j = some (Stored.number x) ∧
        (isSearched settings left.rows left.cols i j = true ∧ MatchesOnce settings left right i j) ∧
        (|x - s| ≤ 1 / 2 ∨ (s = settings.least + 1 ∧ x = s - 1)) := by
  cases hsearched : isSearched settings left.rows left.cols i j with
  | true =>
    rcases hpair.at?_searched hleast hlargest huniqueness hu hsearched with ⟨hnan, hnot⟩ | ⟨x, hx, honce, hnear⟩
    · exact .inl ⟨hnan, fun ⟨_, honce⟩ => hnot honce⟩
    · exact .inr ⟨x, hx, ⟨rfl, honce⟩, hnear⟩
  | false => exact .inl ⟨at?_of_not_searched id left right hsearched, fun ⟨h, _⟩ => nomatch h⟩

end Disparity

open Disparity in
/-- **Block matching finds an exact shift**, for images and blocks of any size, any texture and any range that contains
the shift. No pixel outside the images is read. A pixel has a disparity exactly if it is searched and no two
disparities of the range more than one apart match it at no cost; it then is within half a step of the shift, but for
a shift by one more than the least disparity of the range, where it may be that least disparity. -/
theorem disparities_of_shiftedPair {settings : StereoSettings Stored} {left right : Grid UInt8} {s : Nat} {u : ℝ}
    (hpair : ShiftedPair left right s) (hleast : settings.least ≤ s) (hlargest : s ≤ settings.largest)
    (huniqueness : settings.uniqueness = Stored.number u) (hu : 0 < u) :
    ∃ g, disparityGrid? id settings left right = some g ∧ g.rows = left.rows ∧ g.cols = left.cols ∧
      ∀ i j d, g.get? i j = some d →
        (d ≠ Scalar.nan ↔
          isSearched settings left.rows left.cols i j = true ∧ MatchesOnce settings left right i j) ∧
        (d ≠ Scalar.nan → ∃ x : ℝ, d = Stored.number x ∧
          (|x - s| ≤ 1 / 2 ∨ (s = settings.least + 1 ∧ x = s - 1))) := by
  have hcell := hpair.at?_cases hleast hlargest huniqueness hu
  obtain ⟨g, hg⟩ : ∃ g, disparityGrid? id settings left right = some g := by
    apply exists_disparityGrid?
    intro i j _ _
    rcases hcell i j with ⟨hnan, _⟩ | ⟨x, hx, _⟩
    · exact ⟨_, hnan⟩
    · exact ⟨_, hx⟩
  obtain ⟨hrows, hcols, hget⟩ := get?_of_disparityGrid? hg
  refine ⟨g, hg, hrows, hcols, fun i j d hd => ?_⟩
  obtain ⟨-, -, hat⟩ := (hget i j d).mp hd
  rcases hcell i j with ⟨hnan, hnot⟩ | ⟨x, hx, hsearched, hnear⟩
  · obtain rfl := Option.some.inj (hat.symm.trans hnan)
    exact ⟨iff_of_false (fun h => h rfl) hnot, fun h => absurd rfl h⟩
  · obtain rfl := Option.some.inj (hat.symm.trans hx)
    exact ⟨iff_of_true (Option.some_ne_none x) hsearched, fun _ => ⟨x, rfl, hnear⟩⟩

namespace Disparity

/-- Two disparities to choose from, for blocks of one pixel. -/
noncomputable def twoDisparities : StereoSettings Stored := ⟨.default, 0, 1, 2, .number 1⟩

/-- A row with two equal pixels at its start. -/
def levelRow : Grid UInt8 := ⟨1, 4, #[7, 7, 9, 0], rfl⟩

/-- What a camera two columns to the left of it sees. -/
def levelRowShifted : Grid UInt8 := ⟨1, 4, #[3, 5, 7, 7], rfl⟩

theorem shiftedPair_level : ShiftedPair levelRowShifted levelRow 2 := by
  refine ⟨rfl, rfl, fun i j hj hcols => ?_⟩
  obtain rfl | rfl : j = 2 ∨ j = 3 := by
    have hfour : j < 4 := hcols
    omega
  all_goals
    by_cases hi : i < 1
    · obtain rfl := Nat.lt_one_iff.mp hi
      rfl
    · rw [Grid.get?, Grid.get?, dif_neg fun h => hi h.1, dif_neg fun h => hi h.1]

/-- Of two disparities that match a pixel equally, the lesser one is taken. -/
theorem at?_level : at? id twoDisparities levelRowShifted levelRow 0 2 = some (Stored.number 1) := by
  have hcosts : costs? id twoDisparities levelRowShifted levelRow 0 2 = some [0, 0] := by decide
  have hclear : isAmbiguous (Stored.number 1) [0, 0] 0 0 = false := by
    by_contra h
    obtain ⟨k, hk, hfar⟩ := (isAmbiguous_free_iff one_pos).mp (Bool.eq_true_of_not_eq_false h)
    obtain ⟨hlength, -⟩ := List.getElem?_eq_some_iff.mp hk
    have hone : k ≤ 1 := Nat.lt_succ_iff.mp hlength
    rw [areFar_eq_false_iff.mpr ⟨hone, Nat.zero_le _⟩] at hfar
    cases hfar
  obtain ⟨x, hx, hrefined⟩ := exists_refined (show least? [0, 0] = some (0, 0) from rfl) hclear
  unfold at?
  rw [if_pos (by decide), hcosts, Option.map_some]
  show some (match best? (Stored.number 1) [0, 0] with
    | some d => Stored.number ((1 : Nat) : ℝ) + d
    | none => Scalar.nan) = _
  rw [hx]
  cases hrefined with
  | atEnd _ =>
    show some (Stored.number (((1 : Nat) : ℝ) + ((0 : Nat) : ℝ))) = _
    rw [Nat.cast_one, Nat.cast_zero, add_zero]
  | inside hbest _ _ => exact absurd hbest (lt_irrefl 0)

end Disparity

open Disparity in
/-- The exception: the pixel between equal ones is given the disparity before the shift. -/
theorem disparities_of_shiftedPair_level :
    ShiftedPair levelRowShifted levelRow 2 ∧ twoDisparities.least ≤ 2 ∧ 2 ≤ twoDisparities.largest ∧
    twoDisparities.uniqueness = Stored.number (1) ∧ (0 : ℝ) < 1 ∧
    ∃ g, disparityGrid? id twoDisparities levelRowShifted levelRow = some g ∧
      g.get? 0 2 = some (Stored.number 1) ∧
      ∀ i j d, g.get? i j = some d →
        (d ≠ Scalar.nan ↔ isSearched twoDisparities 1 4 i j = true ∧
          MatchesOnce twoDisparities levelRowShifted levelRow i j) ∧
        (d ≠ Scalar.nan → ∃ x : ℝ, d = Stored.number x ∧
          (|x - 2| ≤ 1 / 2 ∨ (2 = twoDisparities.least + 1 ∧ x = 2 - 1))) := by
  have hpositive : (0 : ℝ) < 1 := one_pos
  have hleast : twoDisparities.least ≤ 2 := by decide
  have hlargest : 2 ≤ twoDisparities.largest := by decide
  obtain ⟨g, hg, _, _, hpixels⟩ := disparities_of_shiftedPair shiftedPair_level hleast hlargest rfl hpositive
  refine ⟨shiftedPair_level, hleast, hlargest, rfl, hpositive, g, hg, ?_, hpixels⟩
  exact ((get?_of_disparityGrid? hg).2.2 0 2 _).mpr ⟨by decide, by decide, at?_level⟩

end StereoMapping
