import Mathlib.Data.Set.Card
import StereoMapping.Image.Corner
import StereoMapping.Proofs.Image.Disparity
import StereoMapping.Proofs.Number.Order
import StereoMapping.Proofs.Sorting

/-!
# `Proofs.Image.Corner` — corners are separate, in order, and the strongest

A pixel is tested on its own: it is a corner if no neighbour is higher and no earlier neighbour is as high. Of two
neighbours one is earlier, and so they are never both corners: if one is higher the other fails the first test, and on a
plateau the later one fails the second. All corners have responses above the threshold. These are numbers, whatever else
the response contains, and numbers are in one line, so the sort has a total order to go by although the comparison that
it is given knows nothing of non-numbers. It is stable, and what is cut off is at its end.

## Contents
- `Corner.Adjacent`, `Corner.Precedes`, `Corner.isPeak_iff`: the window by positions.
- `Corner.IsMaximum`, `Corner.mem_peaks_iff`, `Corner.pairwise_peaks`: what is found, row by row.
- `Corner.IsMaximum.not_adjacent`: separation.
- `Corner.detect_eq`, `detect_spec`: what is kept.
-/

namespace StereoMapping

namespace Corner

/-! ## Windows -/

/-- One of the eight neighbours of a pixel. -/
def Adjacent (i j i' j' : Nat) : Prop :=
  (i' ≠ i ∨ j' ≠ j) ∧ i ≤ i' + 1 ∧ i' ≤ i + 1 ∧ j ≤ j' + 1 ∧ j' ≤ j + 1

/-- A pixel comes before another one, row by row. -/
def Precedes (i j i' j' : Nat) : Prop := i < i' ∨ (i = i' ∧ j < j')

theorem Adjacent.symm {i j i' j' : Nat} (h : Adjacent i j i' j') : Adjacent i' j' i j := by
  unfold Adjacent at h ⊢
  omega

/-- One of two neighbours is the earlier one. -/
theorem Adjacent.precedes_or {i j i' j' : Nat} (h : Adjacent i j i' j') : Precedes i j i' j' ∨ Precedes i' j' i j := by
  unfold Adjacent at h
  unfold Precedes
  omega

theorem mem_ring_iff {row col : Third} : (row, col) ∈ ring ↔ row ≠ .middle ∨ col ≠ .middle := by
  cases row <;> cases col <;> decide

theorem exists_third {i i' : Nat} (hi : 0 < i) (hle : i ≤ i' + 1) (hge : i' ≤ i + 1) :
    ∃ t : Third, i + t.offset - 1 = i' := by
  obtain h | rfl | rfl : i = i' + 1 ∨ i' = i ∨ i' = i + 1 := by omega
  · exact ⟨.first, by simp [Third.offset, h]⟩
  · exact ⟨.middle, by simp [Third.offset]⟩
  · exact ⟨.last, by simp [Third.offset]⟩

/-- The places of the ring are the neighbours of an interior pixel. -/
theorem adjacent_iff {i j i' j' : Nat} (hi : 0 < i) (hj : 0 < j) : Adjacent i j i' j' ↔
    ∃ row col, (row, col) ∈ ring ∧ i + row.offset - 1 = i' ∧ j + col.offset - 1 = j' := by
  constructor
  · rintro ⟨hne, htop, hbottom, hleft, hright⟩
    obtain ⟨row, hrow⟩ := exists_third hi htop hbottom
    obtain ⟨col, hcol⟩ := exists_third hj hleft hright
    refine ⟨row, col, mem_ring_iff.mpr ?_, hrow, hcol⟩
    by_contra hmiddle
    obtain ⟨rfl, rfl⟩ : row = .middle ∧ col = .middle := by simpa using hmiddle
    simp only [Third.offset] at hrow hcol
    omega
  · rintro ⟨row, col, hring, rfl, rfl⟩
    rw [mem_ring_iff] at hring
    unfold Adjacent
    cases row <;> cases col <;> simp only [Third.offset] <;> first | omega | simp at hring

theorem isBefore_iff {i j : Nat} (hi : 0 < i) (hj : 0 < j) {row col : Third} :
    isBefore row col = true ↔ Precedes (i + row.offset - 1) (j + col.offset - 1) i j := by
  unfold Precedes
  cases row <;> cases col <;> simp only [isBefore, Third.offset, true_iff, Bool.false_eq_true, false_iff] <;> omega

variable {S : Type}

theorem get?_window {g : Grid S} {i j : Nat} (h : g.Interior i j) (row col : Third) :
    g.get? (i + row.offset - 1) (j + col.offset - 1) = some (g.window h row col) :=
  Grid.get?_eq_some_iff.mpr ⟨h.row_lt row, h.col_lt col, rfl⟩

/-- The pixels that are tested have all their neighbours inside. -/
theorem interior_of_border {g : Grid S} {i j : Nat} (hi : i ∈ List.range' border (g.rows - 2 * border))
    (hj : j ∈ List.range' border (g.cols - 2 * border)) : g.Interior i j := by
  simp only [List.mem_range'_1, border] at hi hj
  exact ⟨by omega, by omega, by omega, by omega⟩

variable [Scalar S]

/-- No neighbour is higher than `here`, and no earlier neighbour is as high. -/
def IsPeak (g : Grid S) (i j : Nat) (here : S) : Prop :=
  ∀ i' j' r, Adjacent i j i' j' → g.get? i' j' = some r →
    Scalar.lt here r = false ∧ (Precedes i' j' i j → Scalar.eq r here = false)

/-- **The window test by positions.** -/
theorem isPeak_iff {g : Grid S} {i j : Nat} (h : g.Interior i j) :
    isPeak g h = true ↔ IsPeak g i j (g.window h .middle .middle) := by
  unfold isPeak
  simp only [List.all_eq_true, Bool.not_eq_true', Bool.or_eq_false_iff, Bool.and_eq_false_iff]
  constructor
  · intro hall i' j' r hadjacent hr
    obtain ⟨row, col, hring, rfl, rfl⟩ := (adjacent_iff h.top h.left).mp hadjacent
    obtain rfl : g.window h row col = r := Option.some.inj ((get?_window h row col).symm.trans hr)
    obtain ⟨hlower, hother⟩ := hall (row, col) hring
    refine ⟨hlower, ?_⟩
    intro hbefore
    exact hother.resolve_left fun hlater => by
      rw [(isBefore_iff h.top h.left).mpr hbefore] at hlater
      cases hlater
  · rintro hpeak ⟨row, col⟩ hring
    have hadjacent := (adjacent_iff h.top h.left).mpr ⟨row, col, hring, rfl, rfl⟩
    obtain ⟨hlower, hother⟩ := hpeak _ _ _ hadjacent (get?_window h row col)
    refine ⟨hlower, ?_⟩
    by_cases hbefore : isBefore row col = true
    · exact .inr (hother ((isBefore_iff h.top h.left).mp hbefore))
    · exact .inl (Bool.eq_false_of_not_eq_true hbefore)

/-! ## What is found -/

/-- A maximum of the response above the threshold, away from the border. -/
structure IsMaximum (threshold : S) (g : Grid S) (c : Corner S) : Prop where
  top : border ≤ c.row
  bottom : c.row + border < g.rows
  left : border ≤ c.col
  right : c.col + border < g.cols
  response_eq : g.get? c.row c.col = some c.strength
  above : Scalar.lt threshold c.strength = true
  peak : IsPeak g c.row c.col c.strength

theorem at?_eq_some_iff {threshold : S} {g : Grid S} {i j : Nat} (h : g.Interior i j) {c : Corner S} :
    at? threshold g i j = some c ↔ c.row = i ∧ c.col = j ∧ g.get? i j = some c.strength
      ∧ Scalar.lt threshold c.strength = true ∧ IsPeak g i j c.strength := by
  have hhere : g.get? i j = some (g.window h .middle .middle) := by
    simpa [Third.offset] using get?_window h .middle .middle
  unfold at?
  rw [dif_pos h, Option.ite_none_right_eq_some, Bool.and_eq_true, isPeak_iff, hhere, Option.some_inj, Option.some_inj]
  constructor
  · rintro ⟨⟨habove, hpeak⟩, rfl⟩
    exact ⟨rfl, rfl, rfl, habove, hpeak⟩
  · rintro ⟨rfl, rfl, hstrength, habove, hpeak⟩
    rw [hstrength]
    exact ⟨⟨habove, hpeak⟩, rfl⟩

/-- **The maxima are found**, and nothing else. -/
theorem mem_peaks_iff {threshold : S} {g : Grid S} {c : Corner S} :
    c ∈ peaks threshold g ↔ IsMaximum threshold g c := by
  unfold peaks
  simp only [List.mem_flatMap, List.mem_filterMap]
  constructor
  · rintro ⟨i, hi, j, hj, hc⟩
    obtain ⟨rfl, rfl, hresponse, habove, hpeak⟩ := (at?_eq_some_iff (interior_of_border hi hj)).mp hc
    simp only [List.mem_range'_1, border] at hi hj
    exact ⟨hi.1, by unfold border; omega, hj.1, by unfold border; omega, hresponse, habove, hpeak⟩
  · intro h
    have hi : c.row ∈ List.range' border (g.rows - 2 * border) := by
      have htop := h.top
      have hbottom := h.bottom
      simp only [List.mem_range'_1, border] at htop hbottom ⊢
      omega
    have hj : c.col ∈ List.range' border (g.cols - 2 * border) := by
      have hleft := h.left
      have hright := h.right
      simp only [List.mem_range'_1, border] at hleft hright ⊢
      omega
    exact ⟨_, hi, _, hj, (at?_eq_some_iff (interior_of_border hi hj)).mpr ⟨rfl, rfl, h.response_eq, h.above, h.peak⟩⟩

/-- They are found row by row. -/
theorem pairwise_peaks (threshold : S) (g : Grid S) :
    (peaks threshold g).Pairwise fun a b => Precedes a.row a.col b.row b.col := by
  have hplace : ∀ i ∈ List.range' border (g.rows - 2 * border), ∀ j ∈ List.range' border (g.cols - 2 * border),
      ∀ c, at? threshold g i j = some c → c.row = i ∧ c.col = j := by
    intro i hi j hj c hc
    obtain ⟨hrow, hcol, -⟩ := (at?_eq_some_iff (interior_of_border hi hj)).mp hc
    exact ⟨hrow, hcol⟩
  -- within a row by columns, and across rows by rows
  unfold peaks
  rw [List.pairwise_flatMap]
  constructor
  · intro i hi
    rw [List.pairwise_filterMap]
    refine List.Pairwise.imp_of_mem ?_ List.pairwise_lt_range'
    intro j j' hj hj' hlt a ha b hb
    obtain ⟨hrow, hcol⟩ := hplace i hi j hj a ha
    obtain ⟨hrow', hcol'⟩ := hplace i hi j' hj' b hb
    exact .inr ⟨hrow.trans hrow'.symm, by omega⟩
  · refine List.Pairwise.imp_of_mem ?_ List.pairwise_lt_range'
    intro i i' hi hi' hlt a ha b hb
    obtain ⟨j, hj, ha⟩ := List.mem_filterMap.mp ha
    obtain ⟨j', hj', hb⟩ := List.mem_filterMap.mp hb
    have hrow := (hplace i hi j hj a ha).1
    have hrow' := (hplace i' hi' j' hj' b hb).1
    exact .inl (by omega)

/-! ## What is kept -/

section Kept

variable {threshold : Float32} {g : Grid Float32} {a b : Corner Float32}

/-- The response at a maximum is a number, as it is compared with the threshold. -/
theorem IsMaximum.rank_ne_bot (h : IsMaximum threshold g a) : rank32 a.strength ≠ ⊥ :=
  ne_bot_of_gt (lt_iff_rank.mp h.above).2

/-- **No two maxima are neighbours**, also where the response is level. -/
theorem IsMaximum.not_adjacent (ha : IsMaximum threshold g a) (hb : IsMaximum threshold g b) :
    ¬ Adjacent a.row a.col b.row b.col := by
  intro hadjacent
  obtain ⟨hlower, hlater⟩ := ha.peak _ _ _ hadjacent hb.response_eq
  obtain ⟨hlower', hlater'⟩ := hb.peak _ _ _ hadjacent.symm ha.response_eq
  -- neither is higher, so they are level, and the earlier one rules out the later one
  rw [not_lt_iff_rank ha.rank_ne_bot] at hlower
  rw [not_lt_iff_rank hb.rank_ne_bot] at hlower'
  have hlevel := le_antisymm hlower hlower'
  rcases hadjacent.precedes_or with hbefore | hbefore
  · have hequal := eq_iff_rank.mpr ⟨ha.rank_ne_bot, hlevel.symm⟩
    rw [hlater' hbefore] at hequal
    cases hequal
  · have hequal := eq_iff_rank.mpr ⟨hb.rank_ne_bot, hlevel⟩
    rw [hlater hbefore] at hequal
    cases hequal

/-- A pixel above the threshold that is higher than all its neighbours is a maximum. -/
theorem isMaximum_of_strict (htop : border ≤ a.row) (hbottom : a.row + border < g.rows) (hleft : border ≤ a.col)
    (hright : a.col + border < g.cols) (hresponse : g.get? a.row a.col = some a.strength)
    (habove : Scalar.lt threshold a.strength = true)
    (hstrict : ∀ i j r, Adjacent a.row a.col i j → g.get? i j = some r → Scalar.lt r a.strength = true) :
    IsMaximum threshold g a := by
  refine ⟨htop, hbottom, hleft, hright, hresponse, habove, ?_⟩
  intro i j r hadjacent hr
  have hlower := (lt_iff_rank.mp (hstrict i j r hadjacent hr)).2
  have hnumber : rank32 a.strength ≠ ⊥ := ne_bot_of_gt hlower
  refine ⟨(not_lt_iff_rank hnumber).mpr hlower.le, ?_⟩
  intro _
  apply Bool.eq_false_of_not_eq_true
  intro hequal
  exact absurd (eq_iff_rank.mp hequal).2 hlower.ne

/-- **What is kept of a response**: maxima, the strongest of them, in order and separate, as many as there are up to the
limit. -/
structure Keeps (threshold : Float32) (limit : Nat) (g : Grid Float32) (kept : List (Corner Float32)) : Prop where
  maxima : ∀ c ∈ kept, IsMaximum threshold g c
  separate : ∀ a ∈ kept, ∀ b ∈ kept, ¬ Adjacent a.row a.col b.row b.col
  ordered : kept.Pairwise fun a b => Scalar.le b.strength a.strength = true
    ∧ (Scalar.eq b.strength a.strength = true → Precedes a.row a.col b.row b.col)
  length_eq : kept.length = min limit (Set.ncard {c | IsMaximum threshold g c})
  strongest : ∀ a ∈ kept, ∀ b, IsMaximum threshold g b → b ∉ kept → Scalar.le b.strength a.strength = true

/-- Maxima are counted by the list of them. -/
theorem ncard_maxima (threshold : Float32) (g : Grid Float32) :
    Set.ncard {c | IsMaximum threshold g c} = (peaks threshold g).length := by
  classical
  have hnodup : (peaks threshold g).Nodup := by
    refine (pairwise_peaks threshold g).imp ?_
    rintro a _ hbefore rfl
    unfold Precedes at hbefore
    omega
  have hset : {c | IsMaximum threshold g c} = ((peaks threshold g).toFinset : Set (Corner Float32)) := by
    ext c
    simp [mem_peaks_iff]
  rw [hset, Set.ncard_coe_finset, List.toFinset_card_of_nodup hnodup]

/-- The start of the maxima in a stable order of falling ranks. -/
theorem keeps_take (threshold : Float32) (limit : Nat) (g : Grid Float32) :
    Keeps threshold limit g
      (((peaks threshold g).mergeSort fun a b => decide (rank32 b.strength ≤ rank32 a.strength)).take limit) := by
  have hsorted := pairwise_mergeSort_falling (fun c : Corner Float32 => rank32 c.strength) (pairwise_peaks threshold g)
  obtain ⟨sorted, hlist⟩ : ∃ sorted, ((peaks threshold g).mergeSort
      fun a b => decide (rank32 b.strength ≤ rank32 a.strength)) = sorted := ⟨_, rfl⟩
  rw [hlist] at hsorted ⊢
  have hmem : ∀ c, c ∈ sorted ↔ IsMaximum threshold g c := by
    intro c
    rw [← hlist, List.mem_mergeSort, mem_peaks_iff]
  have hmaxima : ∀ c ∈ sorted.take limit, IsMaximum threshold g c := by
    intro c hc
    exact (hmem c).mp (List.mem_of_mem_take hc)
  refine ⟨hmaxima, ?_, ?_, ?_, ?_⟩
  · intro a ha b hb
    exact (hmaxima a ha).not_adjacent (hmaxima b hb)
  · refine List.Pairwise.imp_of_mem ?_ (hsorted.sublist (List.take_sublist limit sorted))
    intro a b ha hb hab
    refine ⟨le_iff_rank.mpr ⟨(hmaxima b hb).rank_ne_bot, hab.1⟩, ?_⟩
    intro hequal
    exact hab.2 (eq_iff_rank.mp hequal).2
  · rw [List.length_take, ncard_maxima, ← hlist, List.length_mergeSort]
  · intro a ha b hb hrest
    have hrank := (rel_of_mem_take hsorted ha ((hmem b).mpr hb) hrest).1
    exact le_iff_rank.mpr ⟨hb.rank_ne_bot, hrank⟩

/-- Maxima are compared by their ranks. -/
theorem detect_eq (settings : CornerSettings Float32) (image : Grid UInt8) :
    detect settings image = ((peaks settings.threshold (response settings.sensitivity image)).mergeSort
      fun a b => decide (rank32 b.strength ≤ rank32 a.strength)).take settings.limit := by
  unfold detect
  refine congrArg (List.take settings.limit) (mergeSort_congr ?_)
  intro a ha b _
  rw [Bool.eq_iff_iff, Bool.not_eq_true', decide_eq_true_iff]
  exact not_lt_iff_rank (mem_peaks_iff.mp ha).rank_ne_bot

end Kept

end Corner

open Corner in
/-- **Corners are separate, in order, and the strongest**, for every image and all settings. The response has the shape
of the image, and the windows of all pixels that are tested are inside. What is returned are maxima of the response,
which are at least two pixels away from each border and above the threshold, and of which no two are neighbours; their
strengths fall, and equally strong ones come row by row; there are as many of them as there are maxima, up to the limit,
and none that is left out is stronger than one that is kept. A pixel above the threshold that is higher than all its
neighbours is such a maximum. -/
theorem corners_separate_strongest (settings : CornerSettings Float32) (image : Grid UInt8) :
    ((response settings.sensitivity image).rows = image.rows ∧ (response settings.sensitivity image).cols = image.cols)
      ∧ (∀ i ∈ List.range' border (image.rows - 2 * border), ∀ j ∈ List.range' border (image.cols - 2 * border),
          ∀ di ≤ 2, ∀ dj ≤ 2, 1 ≤ i + di ∧ 1 ≤ j + dj
            ∧ ∃ r, (response settings.sensitivity image).get? (i + di - 1) (j + dj - 1) = some r)
      ∧ Keeps settings.threshold settings.limit (response settings.sensitivity image) (detect settings image)
      ∧ ∀ c : Corner Float32, border ≤ c.row → c.row + border < image.rows → border ≤ c.col →
          c.col + border < image.cols →
          (response settings.sensitivity image).get? c.row c.col = some c.strength →
          Scalar.lt settings.threshold c.strength = true →
          (∀ i j r, Adjacent c.row c.col i j → (response settings.sensitivity image).get? i j = some r →
            Scalar.lt r c.strength = true) →
          IsMaximum settings.threshold (response settings.sensitivity image) c := by
  refine ⟨⟨rfl, rfl⟩, ?_, ?_, ?_⟩
  · intro i hi j hj di hdi dj hdj
    simp only [List.mem_range'_1, border] at hi hj
    have hrow : i + di - 1 < image.rows := by omega
    have hcol : j + dj - 1 < image.cols := by omega
    exact ⟨by omega, by omega, _, Grid.get?_eq_some_iff.mpr ⟨hrow, hcol, rfl⟩⟩
  · rw [detect_eq]
    exact keeps_take _ _ _
  · intro c htop hbottom hleft hright hresponse habove hstrict
    exact isMaximum_of_strict htop hbottom hleft hright hresponse habove hstrict

/-- Of four level pixels the first is found. -/
example : (Corner.peaks (0 : Float32)
    (Grid.ofFn 6 6 fun i j _ _ => if (i = 2 ∨ i = 3) ∧ (j = 2 ∨ j = 3) then 1 else 0)).map
      (fun c => (c.row, c.col)) = [(2, 2)] := by
  decide +kernel

end StereoMapping
