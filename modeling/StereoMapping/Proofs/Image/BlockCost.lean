import Mathlib.Algebra.BigOperators.Group.Finset.Basic
import Mathlib.Algebra.Order.BigOperators.Group.Finset
import StereoMapping.Proofs.Image.Disparity
import StereoMapping.Proofs.Image.Intensity

/-!
# `Proofs.Image.BlockCost` — sums of absolute differences in words of 32 bits

The differences of two blocks are added up one after the other in a word of 32 bits. What comes out is their sum modulo
`2 ^ 32`, wherever on the way the word wrapped around, and so it is the sum exactly if that is below `2 ^ 32`. A
difference is 255 at most: blocks of up to 4103 pixels on a side are safe, and larger ones are not, since a white block
against a black one reaches the bound. Nothing keeps such blocks away. A frame holds `2 ^ 26` bytes, which is one byte
for each of 8192 by 8192 pixels, and the size of a block is not checked at all. Whether a block has room in an image is
decided in words of 64 bits, so blocks that are too large for any image are only kept away if their size is a word.

## Contents
- `Disparity.differenceSum`, `blockCost_eq_differenceSum`: the cost of a block as a sum over its pixels.
- `Disparity.runningCost?`, `runningCost?_eq`: the sum in words, step by step, with every access checked.
- `Disparity.AcceptedPair`, `AcceptedPair.area_le`, `exists_frame`: images of accepted frames.
- `Disparity.SizesFit`: the sizes that limit a search, in words.
- `Disparity.CostsExact`, `block_costs_exact_iff`: for which settings no cost of any accepted pair wraps around.
-/

namespace StereoMapping

namespace Disparity

variable {left right : Grid UInt8}

/-! ## Costs as sums -/

/-- Absolute difference of the pixels at `(di, dj)` of the block around `(i, j)` and of the one `d` columns further
left. -/
def difference (left right : Grid UInt8) (h i j d di dj : Nat) : Nat :=
  ((intensity left (i + di - h) (j + dj - h)).toNat
    - (intensity right (i + di - h) (j + dj - h - d)).toNat : Int).natAbs

/-- Sum of the absolute differences of two blocks. -/
def differenceSum (left right : Grid UInt8) (h i j d : Nat) : Nat :=
  ∑ di ∈ Finset.range (2 * h + 1), ∑ dj ∈ Finset.range (2 * h + 1), difference left right h i j d di dj

theorem gap_eq (a b : UInt8) : gap a b = (a.toNat - b.toNat : Int).natAbs := by
  unfold gap
  omega

theorem gap_le (a b : UInt8) : gap a b ≤ 255 := by
  have ha := a.toNat_lt
  have hb := b.toNat_lt
  unfold gap
  omega

theorem blockCost_eq_differenceSum (left right : Grid UInt8) (h i j d : Nat) :
    blockCost left right h i j d = differenceSum left right h i j d := by
  unfold blockCost differenceSum
  rw [← List.sum_eq_foldl, List.sum_flatten, List.map_map]
  simp only [gap_eq]
  rfl

theorem difference_le (left right : Grid UInt8) (h i j d di dj : Nat) : difference left right h i j d di dj ≤ 255 := by
  unfold difference
  rw [← gap_eq]
  exact gap_le _ _

/-- Each pixel of a block contributes 255 at most. -/
theorem differenceSum_le (left right : Grid UInt8) (h i j d : Nat) :
    differenceSum left right h i j d ≤ (2 * h + 1) * ((2 * h + 1) * 255) := by
  have hrow : ∀ di, ∑ dj ∈ Finset.range (2 * h + 1), difference left right h i j d di dj ≤ (2 * h + 1) * 255 := by
    intro di
    have hsum := Finset.sum_le_card_nsmul (Finset.range (2 * h + 1)) _ 255 fun dj _ =>
      difference_le left right h i j d di dj
    rwa [Finset.card_range, smul_eq_mul] at hsum
  have hsum := Finset.sum_le_card_nsmul (Finset.range (2 * h + 1)) _ ((2 * h + 1) * 255) fun di _ => hrow di
  rwa [Finset.card_range, smul_eq_mul] at hsum

/-- A pixel of an image of one intensity. -/
theorem intensity_filled {rows cols i j : Nat} {level : UInt8} (hi : i < rows) (hj : j < cols) :
    intensity (Grid.filled rows cols level) i j = level := by
  have hget : (Grid.filled rows cols level).get? i j = some level :=
    Grid.get?_eq_some_iff.mpr ⟨hi, hj, Array.getElem_replicate _⟩
  unfold intensity
  rw [hget]
  rfl

/-- A white image against a black one: each pixel contributes 255. -/
theorem differenceSum_contrast {rows cols h i j : Nat} (hbottom : i + h < rows) (hright : j + h < cols) (d : Nat) :
    differenceSum (Grid.filled rows cols 255) (Grid.filled rows cols 0) h i j d
      = (2 * h + 1) * ((2 * h + 1) * 255) := by
  unfold differenceSum
  have hpixel : ∀ di ∈ Finset.range (2 * h + 1), ∀ dj ∈ Finset.range (2 * h + 1),
      difference (Grid.filled rows cols 255) (Grid.filled rows cols 0) h i j d di dj = 255 := by
    intro di hdi dj hdj
    have hdi := Finset.mem_range.mp hdi
    have hdj := Finset.mem_range.mp hdj
    unfold difference
    rw [intensity_filled (by omega) (by omega), intensity_filled (by omega) (by omega)]
    rfl
  rw [Finset.sum_congr rfl fun di hdi => Finset.sum_congr rfl (hpixel di hdi)]
  simp only [Finset.sum_const, Finset.card_range, smul_eq_mul]

/-! ## The sum, step by step -/

/-- A difference of indices, if it is not negative. -/
def indexLess? (a b : Nat) : Option Nat := if b ≤ a then some (a - b) else none

theorem indexLess?_of_le {a b : Nat} (h : b ≤ a) : indexLess? a b = some (a - b) := if_pos h

/-- What one pixel of a block adds to the cost: nothing can be said if a difference of indices is negative or a pixel is
outside its image. -/
def addend? (left right : Grid UInt8) (h i j d di dj : Nat) : Option Nat := do
  let row ← indexLess? (i + di) h
  let col ← indexLess? (j + dj) h
  let l ← left.get? row col
  let r ← right.get? row (← indexLess? col d)
  return gap l r

/-- A row of a block, added in words to a cost. -/
def runningRow? (word : Nat → Nat) (left right : Grid UInt8) (h i j d cost di : Nat) : Option Nat :=
  (List.range (2 * h + 1)).foldlM (fun cost dj =>
    (addend? left right h i j d di dj).map fun gap => word (cost + gap)) cost

/-- The cost of a block, added up in words pixel by pixel, with every difference of indices and every pixel checked. -/
def runningCost? (word : Nat → Nat) (left right : Grid UInt8) (h i j d : Nat) : Option Nat :=
  (List.range (2 * h + 1)).foldlM (runningRow? word left right h i j d) 0

/-- Inside the images everything that a block needs is there. -/
theorem addend?_eq (hrows : left.rows = right.rows) (hcols : left.cols = right.cols) {h i j d di dj : Nat}
    (htop : h ≤ i) (hbottom : i + h < left.rows) (hreach : h + d ≤ j) (hright : j + h < left.cols)
    (hdi : di < 2 * h + 1) (hdj : dj < 2 * h + 1) :
    addend? left right h i j d di dj = some (difference left right h i j d di dj) := by
  have hl : left.get? (i + di - h) (j + dj - h) = some (intensity left (i + di - h) (j + dj - h)) :=
    get?_eq_intensity (by omega) (by omega)
  have hr : right.get? (i + di - h) (j + dj - h - d) = some (intensity right (i + di - h) (j + dj - h - d)) :=
    get?_eq_intensity (by omega) (by omega)
  unfold addend? difference
  rw [indexLess?_of_le (by omega), indexLess?_of_le (by omega), ← gap_eq]
  show (left.get? (i + di - h) (j + dj - h)).bind _ = _
  rw [hl]
  show (indexLess? (j + dj - h) d).bind _ = _
  rw [indexLess?_of_le (by omega)]
  show (right.get? (i + di - h) (j + dj - h - d)).bind _ = _
  rw [hr]
  rfl

/-- A reduction to words that may be made at every step of a sum. -/
structure IsWord (word : Nat → Nat) : Prop where
  zero : word 0 = 0
  add : ∀ a b, word (word a + b) = word (a + b)

theorem isWord_id : IsWord id := ⟨rfl, fun _ _ => rfl⟩

theorem isWord_word32 : IsWord word32 := ⟨rfl, fun a b => Nat.mod_add_mod a _ b⟩

/-- The word in which something is added up is the word of the sum, all along a loop. -/
theorem foldlM_word {word : Nat → Nat} {f : Nat → Nat → Option Nat} {g : Nat → Nat} {xs : List Nat}
    (hstep : ∀ x ∈ xs, ∀ cost, f (word cost) x = some (word (cost + g x))) (cost : Nat) :
    xs.foldlM f (word cost) = some (word (cost + (xs.map g).sum)) := by
  induction xs generalizing cost with
  | nil => rfl
  | cons x xs ih =>
    rw [List.foldlM_cons, hstep x List.mem_cons_self, List.map_cons, List.sum_cons, ← Nat.add_assoc]
    exact ih (fun y hy => hstep y (List.mem_cons_of_mem x hy)) (cost + g x)

/-- **The cost of a block inside the images, step by step.** No difference of indices is negative and no pixel is
outside; what is added up in words is the sum of absolute differences in one word. -/
theorem runningCost?_eq {word : Nat → Nat} (hword : IsWord word) (hrows : left.rows = right.rows)
    (hcols : left.cols = right.cols) {h i j d : Nat} (htop : h ≤ i) (hbottom : i + h < left.rows)
    (hreach : h + d ≤ j) (hright : j + h < left.cols) :
    runningCost? word left right h i j d = some (word (differenceSum left right h i j d)) := by
  have hrow : ∀ di ∈ List.range (2 * h + 1), ∀ cost,
      runningRow? word left right h i j d (word cost) di
        = some (word (cost + ∑ dj ∈ Finset.range (2 * h + 1), difference left right h i j d di dj)) := by
    intro di hdi
    refine foldlM_word fun dj hdj cost => ?_
    rw [addend?_eq hrows hcols htop hbottom hreach hright (List.mem_range.mp hdi) (List.mem_range.mp hdj),
      Option.map_some, hword.add]
  have hall := foldlM_word hrow 0
  rw [hword.zero, Nat.zero_add] at hall
  exact hall

/-- A cost is below `2 ^ 32` for blocks of up to 4103 pixels on a side. -/
theorem differenceSum_lt {h : Nat} (hh : h ≤ 2051) (left right : Grid UInt8) (i j d : Nat) :
    differenceSum left right h i j d < 2 ^ 32 :=
  calc differenceSum left right h i j d ≤ (2 * h + 1) * ((2 * h + 1) * 255) := differenceSum_le left right h i j d
    _ ≤ 4103 * (4103 * 255) := Nat.mul_le_mul (by omega) (Nat.mul_le_mul_right _ (by omega))
    _ < 2 ^ 32 := by decide

/-! ## Images of accepted frames -/

/-- Two images of one shape, each of them the intensities of an accepted frame. -/
structure AcceptedPair (left right : Grid UInt8) : Prop where
  left_accepted : ∃ f : Frame, f.check = .ok () ∧ intensities f = some left
  right_accepted : ∃ f : Frame, f.check = .ok () ∧ intensities f = some right
  rows_eq : left.rows = right.rows
  cols_eq : left.cols = right.cols

/-- The pixels of an image are no more than the bytes of its frame. -/
theorem area_le_of_intensities {f : Frame} {g : Grid UInt8} (h : intensities f = some g) :
    g.rows * g.cols ≤ f.data.size := by
  unfold intensities at h
  split at h
  · cases h
  · unfold Frame.grayImage at h
    split at h
    · cases h
    · dsimp only at h
      split at h
      · cases h
      · split at h
        · cases h
        · rename_i hlong
          obtain rfl := Option.some.inj h
          have hchannels : 0 < f.mode.channels := by cases f.mode <;> decide
          exact (Nat.le_mul_of_pos_right _ hchannels).trans (Nat.not_lt.mp hlong)

theorem AcceptedPair.area_le (h : AcceptedPair left right) : left.rows * left.cols ≤ Frame.capacity := by
  obtain ⟨f, hcheck, hleft⟩ := h.left_accepted
  exact (area_le_of_intensities hleft).trans (Frame.check_eq_ok_iff.mp hcheck).1

/-- A grid that fits into a frame is the image of one. -/
theorem exists_frame {g : Grid UInt8} (hpos : 0 < g.rows * g.cols) (harea : g.rows * g.cols ≤ Frame.capacity) :
    ∃ f : Frame, f.check = .ok () ∧ intensities f = some g := by
  -- neither side of an image with pixels is longer than its area
  have hword : g.rows * g.cols < 2 ^ 32 := Nat.lt_of_le_of_lt harea (by decide)
  have hrows : g.rows < 2 ^ 32 :=
    Nat.lt_of_le_of_lt (Nat.le_mul_of_pos_right _ (Nat.pos_of_mul_pos_left hpos)) hword
  have hcols : g.cols < 2 ^ 32 :=
    Nat.lt_of_le_of_lt (Nat.le_mul_of_pos_left _ (Nat.pos_of_mul_pos_right hpos)) hword
  have hheight := Frame.toNat_toUInt64_of_lt hrows
  have hwidth := Frame.toNat_toUInt64_of_lt hcols
  refine ⟨⟨g.cols.toUInt64, g.rows.toUInt64, .grayscale, .bits8, 0, #[], g.cells⟩, ?_, ?_⟩
  · rw [Frame.check_eq_ok_iff, Frame.toNat_expectedSize, Frame.neededBytes_grey, hheight, hwidth]
    refine ⟨g.size_cells ▸ harea, .inr ?_⟩
    rw [Nat.mod_eq_of_lt (Nat.mul_comm _ _ ▸ Nat.lt_trans hword (by decide)), Nat.mul_comm]
    exact g.size_cells
  · have hsize : g.cells.size = g.rows.toUInt64.toUInt32.toNat * g.cols.toUInt64.toUInt32.toNat := by
      rw [UInt64.toNat_toUInt32, UInt64.toNat_toUInt32, hheight, hwidth, Nat.mod_eq_of_lt hrows, Nat.mod_eq_of_lt hcols]
      exact g.size_cells
    have hcells : g.cells.isEmpty = false := by
      rw [Array.isEmpty_eq_false_iff_exists_mem]
      exact ⟨_, Array.getElem_mem (g.size_cells ▸ hpos : 0 < g.cells.size)⟩
    unfold intensities Frame.isEmpty
    rw [hcells, if_neg Bool.false_ne_true, Frame.grayImage_grey_of_size rfl rfl hsize]
    refine congrArg some ?_
    congr 1
    · rw [UInt64.toNat_toUInt32, hheight, Nat.mod_eq_of_lt hrows]
    · rw [UInt64.toNat_toUInt32, hwidth, Nat.mod_eq_of_lt hcols]

/-- White and black images of one shape that fit into frames. -/
theorem acceptedPair_contrast (rows cols : Nat) (hpos : 0 < rows * cols) (harea : rows * cols ≤ Frame.capacity) :
    AcceptedPair (Grid.filled rows cols 255) (Grid.filled rows cols 0) :=
  ⟨exists_frame hpos harea, exists_frame hpos harea, rfl, rfl⟩

/-! ## Which costs are exact -/

section Costs

variable {S : Type} {settings : StereoSettings S}

theorem range_of_validate [Scalar S] (h : settings.validate = .ok ()) :
    0 < settings.least ∧ settings.least ≤ settings.largest := by
  unfold StereoSettings.validate at h
  cases hrig : settings.rig.validate with
  | error e =>
    rw [hrig] at h
    cases h
  | ok _ =>
    rw [hrig] at h
    by_cases hrange : settings.least = 0 ∨ settings.largest < settings.least
    · simp only [if_pos hrange] at h
      cases h
    · omega

/-- The disparities that are tried. -/
def disparities (settings : StereoSettings S) : List Nat :=
  List.range' settings.least (settings.largest + 1 - settings.least)

/-- The blocks of a pixel that is searched are inside the images, for every disparity that is tried. -/
theorem mapM_runningCost?_eq {word : Nat → Nat} (hword : IsWord word) (hrows : left.rows = right.rows)
    (hcols : left.cols = right.cols) {i j : Nat} (hsearched : isSearched settings left.rows left.cols i j = true) :
    (disparities settings).mapM (runningCost? word left right settings.blockHalfSize i j)
      = some ((disparities settings).map fun d => word (differenceSum left right settings.blockHalfSize i j d)) := by
  obtain ⟨htop, hbottom, hreach, hright⟩ := isSearched_iff.mp hsearched
  refine mapM_eq_some fun d hd => runningCost?_eq hword hrows hcols htop hbottom ?_ hright
  have hd := List.mem_range'_1.mp hd
  omega

/-- The costs of a pixel that is searched are sums in words. -/
theorem costs?_eq_sums (word : Nat → Nat) (hrows : left.rows = right.rows) (hcols : left.cols = right.cols)
    {i j : Nat} (hsearched : isSearched settings left.rows left.cols i j = true) :
    costs? word settings left right i j = some ((disparities settings).map fun d =>
      word (differenceSum left right settings.blockHalfSize i j d)) := by
  rw [costs?_eq word hrows hcols hsearched]
  unfold rangeCosts disparities
  rw [List.map_map]
  exact congrArg some (List.map_congr_left fun d _ => congrArg word (blockCost_eq_differenceSum _ _ _ _ _ _))

theorem costs?_word32 (hpair : AcceptedPair left right) {i j : Nat}
    (hsearched : isSearched settings left.rows left.cols i j = true) :
    costs? word32 settings left right i j = some ((disparities settings).map fun d =>
      word32 (differenceSum left right settings.blockHalfSize i j d)) :=
  costs?_eq_sums word32 hpair.rows_eq hpair.cols_eq hsearched

/-- A side of a block, and the columns from a pixel to the block furthest away, are counted in words of 64 bits. Beyond,
the comparisons with the size of an image that keep a search inside would wrap around. -/
def SizesFit (settings : StereoSettings S) : Prop :=
  2 * settings.blockHalfSize + 1 < 2 ^ 64 ∧ settings.blockHalfSize + settings.largest < 2 ^ 64

/-- **Nothing wraps around**: neither the sizes that limit a search, nor the costs. Whatever pair is accepted, and
whatever pixel of it is searched, its costs are the sums of absolute differences. -/
structure CostsExact (settings : StereoSettings S) : Prop where
  sizes : SizesFit settings
  costs : ∀ left right : Grid UInt8, AcceptedPair left right → ∀ i j,
    isSearched settings left.rows left.cols i j = true →
      costs? word32 settings left right i j
        = some ((disparities settings).map (differenceSum left right settings.blockHalfSize i j))

/-- Blocks of up to 4103 pixels on a side have costs below `2 ^ 32`. -/
theorem costsExact_of_small (hfit : SizesFit settings) (hsmall : settings.blockHalfSize ≤ 2051) :
    CostsExact settings := by
  refine ⟨hfit, fun left right hpair i j hsearched => ?_⟩
  rw [costs?_word32 hpair hsearched]
  exact congrArg some (List.map_congr_left fun d _ => Nat.mod_eq_of_lt (differenceSum_lt hsmall left right i j d))

/-- What is searched has room in its image. -/
theorem AcceptedPair.room_le (hpair : AcceptedPair left right) {i j : Nat}
    (hsearched : isSearched settings left.rows left.cols i j = true) :
    (2 * settings.blockHalfSize + 1) * (2 * settings.blockHalfSize + 1 + settings.largest) ≤ Frame.capacity := by
  obtain ⟨htop, hbottom, hreach, hright⟩ := isSearched_iff.mp hsearched
  have harea := Nat.mul_le_mul (by omega : 2 * settings.blockHalfSize + 1 ≤ left.rows)
    (by omega : 2 * settings.blockHalfSize + 1 + settings.largest ≤ left.cols)
  exact harea.trans hpair.area_le

/-- So its sizes are words: only where nothing should be searched can they wrap around. -/
theorem AcceptedPair.sizesFit (hpair : AcceptedPair left right) {i j : Nat}
    (hsearched : isSearched settings left.rows left.cols i j = true) : SizesFit settings := by
  have hroom := hpair.room_le hsearched
  have hside := Nat.le_mul_of_pos_left (2 * settings.blockHalfSize + 1 + settings.largest)
    (by omega : 0 < 2 * settings.blockHalfSize + 1)
  unfold Frame.capacity at hroom
  unfold SizesFit
  omega

/-- Blocks that no accepted image has room for are never compared. -/
theorem costsExact_of_roomless (hfit : SizesFit settings) (hroom : Frame.capacity
      < (2 * settings.blockHalfSize + 1) * (2 * settings.blockHalfSize + 1 + settings.largest)) :
    CostsExact settings :=
  ⟨hfit, fun _ _ hpair _ _ hsearched => absurd (hpair.room_le hsearched) (Nat.not_le.mpr hroom)⟩

/-- A block whose differences are all 255 has another cost than their sum if it is larger. -/
theorem word32_contrast_ne {h : Nat} (hlarge : 2051 < h) :
    word32 ((2 * h + 1) * ((2 * h + 1) * 255)) ≠ (2 * h + 1) * ((2 * h + 1) * 255) := by
  have hsum : 2 ^ 32 ≤ (2 * h + 1) * ((2 * h + 1) * 255) :=
    calc 2 ^ 32 ≤ 4105 * (4105 * 255) := by decide
      _ ≤ (2 * h + 1) * ((2 * h + 1) * 255) :=
        Nat.mul_le_mul (by omega) (Nat.mul_le_mul_right _ (by omega))
  have hword : word32 ((2 * h + 1) * ((2 * h + 1) * 255)) < 2 ^ 32 := Nat.mod_lt _ (by decide)
  omega

/-- **Larger blocks that there is room for do wrap around**: in the smallest images that have room for one block and
all its disparities, a white one and a black one. -/
theorem not_costsExact (hrange : settings.least ≤ settings.largest) (hlarge : 2051 < settings.blockHalfSize)
    (hroom : (2 * settings.blockHalfSize + 1) * (2 * settings.blockHalfSize + 1 + settings.largest)
      ≤ Frame.capacity) :
    ¬ CostsExact settings := by
  intro hexact
  obtain ⟨h, hh⟩ : ∃ h, settings.blockHalfSize = h := ⟨_, rfl⟩
  rw [hh] at hlarge hroom
  have hpair := acceptedPair_contrast (2 * h + 1) (2 * h + 1 + settings.largest)
    (Nat.mul_pos (by omega) (by omega)) hroom
  have hsearched : isSearched settings (2 * h + 1) (2 * h + 1 + settings.largest) h (h + settings.largest) = true :=
    isSearched_iff.mpr (by omega)
  have hcosts := (costs?_word32 hpair hsearched).symm.trans (hexact.costs _ _ hpair _ _ hsearched)
  have hleast : settings.least ∈ disparities settings := List.mem_range'_1.mpr (by omega)
  have hsum := List.map_inj_left.mp (Option.some.inj hcosts) _ hleast
  rw [hh, differenceSum_contrast (by omega) (by omega)] at hsum
  exact word32_contrast_ne hlarge hsum

/-- **Block costs are sums modulo `2 ^ 32`, and whether one ever wraps around is a matter of the settings.** For
settings that pass validation, the costs of a searched pixel of an accepted pair are all there: each of them is added up
in words step by step, and it is the sum of absolute differences in one word. Neither these costs nor the sizes that
limit a search wrap around, for any accepted pair, if and only if the sizes are words of 64 bits, and the blocks have at
most 4103 pixels on a side or no accepted image has room for one with all its disparities. -/
theorem block_costs_exact_iff [Scalar S] (hvalid : settings.validate = .ok ()) :
    (∀ left right : Grid UInt8, AcceptedPair left right → ∀ i j,
      isSearched settings left.rows left.cols i j = true →
        SizesFit settings
          ∧ (disparities settings).mapM (runningCost? word32 left right settings.blockHalfSize i j)
            = costs? word32 settings left right i j
          ∧ costs? word32 settings left right i j = some ((disparities settings).map fun d =>
              word32 (differenceSum left right settings.blockHalfSize i j d)))
      ∧ (CostsExact settings ↔ SizesFit settings ∧ (settings.blockHalfSize ≤ 2051
          ∨ Frame.capacity
            < (2 * settings.blockHalfSize + 1) * (2 * settings.blockHalfSize + 1 + settings.largest))) := by
  obtain ⟨-, hrange⟩ := range_of_validate hvalid
  refine ⟨fun left right hpair i j hsearched =>
    ⟨hpair.sizesFit hsearched, ?_, costs?_word32 hpair hsearched⟩, ?_, ?_⟩
  · rw [costs?_word32 hpair hsearched]
    exact mapM_runningCost?_eq isWord_word32 hpair.rows_eq hpair.cols_eq hsearched
  · intro hexact
    refine ⟨hexact.sizes, ?_⟩
    by_contra hlarge
    obtain ⟨hsize, hroom⟩ := not_or.mp hlarge
    exact not_costsExact hrange (Nat.not_le.mp hsize) (Nat.not_lt.mp hroom) hexact
  · rintro ⟨hfit, hsmall | hroomless⟩
    · exact costsExact_of_small hfit hsmall
    · exact costsExact_of_roomless hfit hroomless

/-- The settings as they are by default, with the largest blocks whose costs cannot wrap around. -/
def widestExact : StereoSettings Float32 := { StereoSettings.default with blockHalfSize := 2051 }

theorem block_costs_exact_of_widest :
    widestExact.validate = .ok () ∧ CostsExact widestExact := by
  have hvalid : widestExact.validate = .ok () := by rfl
  have hfit : SizesFit widestExact := ⟨by decide, by decide⟩
  exact ⟨hvalid, (block_costs_exact_iff hvalid).2.mpr ⟨hfit, .inl (Nat.le_refl 2051)⟩⟩

/-- Settings with blocks that are wider by one pixel on each side, and the disparity 1 alone. -/
def tooWide : StereoSettings Float32 :=
  { StereoSettings.default with blockHalfSize := 2052, least := 1, largest := 1 }

/-- A white image of 4105 by 4106 pixels against a black one: the cost of the pixel in the middle is off by `2 ^ 32`. -/
theorem cost_wraps_around :
    tooWide.validate = .ok ()
      ∧ AcceptedPair (Grid.filled 4105 4106 255) (Grid.filled 4105 4106 0)
      ∧ isSearched tooWide 4105 4106 2052 2053 = true
      ∧ differenceSum (Grid.filled 4105 4106 255) (Grid.filled 4105 4106 0) 2052 2052 2053 1 = 4297011375
      ∧ costs? word32 tooWide (Grid.filled 4105 4106 255) (Grid.filled 4105 4106 0) 2052 2053 = some [2044079]
      ∧ ¬ CostsExact tooWide := by
  have hpair := acceptedPair_contrast 4105 4106 (by decide) (by decide)
  have hsearched : isSearched tooWide 4105 4106 2052 2053 = true := isSearched_iff.mpr (by decide)
  have hsum : differenceSum (Grid.filled 4105 4106 255) (Grid.filled 4105 4106 0) 2052 2052 2053 1 = 4297011375 :=
    differenceSum_contrast (by decide) (by decide) 1
  refine ⟨by rfl, hpair, hsearched, hsum, ?_, not_costsExact (by decide) (by decide) (by decide)⟩
  rw [costs?_word32 hpair hsearched]
  exact congrArg (fun sum => some [word32 sum]) hsum

end Costs

end Disparity

end StereoMapping
