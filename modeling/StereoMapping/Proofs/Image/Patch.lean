import StereoMapping.Image.Patch
import StereoMapping.Proofs.Image.BlockCost
import StereoMapping.Proofs.Number.Sum

/-!
# `Proofs.Image.Patch` — a patch that is tested is inside its image

Whether a patch is inside is tested on rounded numbers, and its pixels are then read by whole ones. Rounding cannot let
anything pass along one axis as long as half sizes are exact, which they are up to 24 digits. A greater one passes
neither test unless both dimensions have more than that, and no frame holds so many pixels.

## Contents
- `dims_lt_of_intensities`: dimensions of an image.
- `exists_between`: one axis.
- `fits_of_centre?`: both.
-/

namespace StereoMapping

theorem dims_lt_of_intensities {f : Frame} {g : Grid UInt8} (h : intensities f = some g) :
    g.rows < 2 ^ 32 ∧ g.cols < 2 ^ 32 := by
  unfold intensities at h
  split at h
  · cases h
  · unfold Frame.grayImage at h
    split at h
    · cases h
    · dsimp only at h
      split at h
      · cases h
      · split at h
        · cases h
        · obtain rfl := Option.some.inj h
          exact ⟨UInt32.toNat_lt _, UInt32.toNat_lt _⟩

namespace Patch

/-- Half sizes are told apart up to this one. -/
def exactHalf (h : Nat) : Nat := min h (2 ^ 24 - 1)

theorem capped_natCast {n : Nat} (h : n < 2 ^ 24) : capped ((n : ℚ) : WithTop ℚ) = ((n : ℚ) : WithTop ℚ) := by
  have hn : (n : ℚ) < 2 ^ 24 := by exact_mod_cast h
  exact if_pos (WithTop.coe_lt_coe.mpr (hn.trans (by norm_num)))

/-- **Along one axis** a coordinate that passes both tests is as far inside as half sizes are exact. -/
theorem exists_between {x : Float32} {h n : Nat} (hh : h ≤ largestWord) (hn : n ≤ largestWord)
    (hle : Scalar.le (Scalar.ofNat h) x = true) (hlt : Scalar.lt (x + Scalar.ofNat h) (Scalar.ofNat n) = true) :
    ∃ q : ℚ, Reads x.toModel.unpack (q : WithTop ℚ) ∧ (exactHalf h : ℚ) ≤ q ∧ q + exactHalf h < n := by
  have hexact : exactHalf h < 2 ^ 24 := Nat.lt_of_le_of_lt (Nat.min_le_right _ _) (by decide)
  obtain ⟨w, hrounded, hhalf⟩ := reads_ofNat hh
  have hnonneg : Scalar.le 0 (Scalar.ofNat h : Float32) = true := (reads_zero.scalar_le_iff hhalf).mpr hhalf.nonneg
  obtain ⟨v, hv⟩ := exists_reads (scalar_le_trans hnonneg hle)
  have hwv : capped w ≤ v := (hhalf.scalar_le_iff hv).mp hle
  have hsum := add_lt_of_scalar_lt hv hhalf hn hlt
  have hhalf : ((exactHalf h : ℚ) : WithTop ℚ) ≤ capped w := by
    have hcount : ((exactHalf h : ℚ) : WithTop ℚ) ≤ ((h : ℚ) : WithTop ℚ) :=
      WithTop.coe_le_coe.mpr (Nat.cast_le.mpr (Nat.min_le_left _ _))
    rw [← capped_natCast hexact]
    exact capped_le ((rounded_natCast hexact).le hrounded hcount)
  obtain ⟨q, rfl⟩ := WithTop.ne_top_iff_exists.mp (WithTop.add_ne_top.mp hsum.ne_top).1
  refine ⟨q, hv, WithTop.coe_le_coe.mp (hhalf.trans hwv), ?_⟩
  have hbelow := (add_le_add_right hhalf (q : WithTop ℚ)).trans_lt hsum
  exact_mod_cast hbelow

/-- The pixel of a coordinate is as far inside as the coordinate. -/
theorem inside_of_between {x : Float32} {q : ℚ} {h n : Nat} (hx : Reads x.toModel.unpack (q : WithTop ℚ))
    (hn : n ≤ largestWord) (hlow : (h : ℚ) ≤ q) (hhigh : q + h < n) :
    h ≤ Scalar.truncate x ∧ Scalar.truncate x + h < n := by
  have hfloor : ((⌊q⌋₊ : Nat) : ℚ) ≤ q := Nat.floor_le ((Nat.cast_nonneg h).trans hlow)
  have hbelow : ⌊q⌋₊ + h < n := by
    have hsum : ((⌊q⌋₊ : Nat) : ℚ) + h < n := (add_le_add_left hfloor _).trans_lt hhigh
    exact_mod_cast hsum
  have hwhole : Scalar.truncate x = ⌊q⌋₊ := by
    rw [truncate_of_reads hx]
    exact Nat.min_eq_right (by omega)
  rw [hwhole]
  exact ⟨Nat.le_floor hlow, hbelow⟩

/-- **A patch that passes the test is inside.** -/
theorem fits_of_centre? {image : Grid UInt8} {h row col : Nat} {p : Vec2 Float32} (hh : h ≤ largestWord)
    (hrows : image.rows < 2 ^ 32) (hcols : image.cols < 2 ^ 32) (harea : image.rows * image.cols ≤ Frame.capacity)
    (hcentre : centre? image h p = some (row, col)) : Fits image h row col := by
  unfold centre? at hcentre
  dsimp only at hcentre
  split at hcentre
  · rename_i htest
    simp only [Bool.and_eq_true] at htest
    obtain ⟨⟨⟨hleft, htop⟩, hright⟩, hbottom⟩ := htest
    obtain ⟨x, hx, hleft, hright⟩ := exists_between hh (hcols.le.trans (by decide)) hleft hright
    obtain ⟨y, hy, htop, hbottom⟩ := exists_between hh (hrows.le.trans (by decide)) htop hbottom
    obtain ⟨rfl, rfl⟩ := Prod.mk.inj (Option.some.inj hcentre)
    have hwide : 2 * exactHalf h < image.cols := by
      have hsum : (2 * exactHalf h : ℚ) < image.cols := by linarith
      exact_mod_cast hsum
    have hhigh : 2 * exactHalf h < image.rows := by
      have hsum : (2 * exactHalf h : ℚ) < image.rows := by linarith
      exact_mod_cast hsum
    -- otherwise the image is greater than any frame
    have hexact : exactHalf h = h := by
      unfold exactHalf at hwide hhigh ⊢
      refine Nat.min_eq_left (Nat.le_of_lt_succ (Nat.lt_of_not_le fun hlarge => ?_))
      rw [Nat.min_eq_right (Nat.le_of_succ_le hlarge)] at hwide hhigh
      have hmany := Nat.mul_le_mul hhigh hwide
      exact absurd (hmany.trans harea) (by decide)
    rw [hexact] at hleft hright htop hbottom
    obtain ⟨hleft, hright⟩ := inside_of_between hx (hcols.le.trans (by decide)) hleft hright
    obtain ⟨htop, hbottom⟩ := inside_of_between hy (hrows.le.trans (by decide)) htop hbottom
    exact ⟨htop, hleft, hbottom, hright⟩
  · cases hcentre

end Patch

end StereoMapping
