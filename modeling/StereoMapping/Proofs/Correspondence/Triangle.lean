import Mathlib.Data.Set.Function
import StereoMapping.Proofs.Correspondence.PairTable

/-!
# `Proofs.Correspondence.Triangle` — a pair table is a faithful triangle

The place of a pair is a closed formula with a halving in it, and the pairs are enumerated row by row. Both are the
same order: places count the pairs lexicographically, without a gap and without a pair left over. So a table that has
as many values as there are pairs is a triangle of values, and what an operation does to it is told by its values
alone (`Full.ext`). One step later a triangle of another size is written pair by pair; after many steps a value is
found as many steps further back, until its pair leaves the window.

All this is counted in words. It holds for every number of cameras whose values can be allocated; for some larger
numbers the count wraps around, and a table is created that has no room for its pairs.

## Contents
- `pairPlace_lt_iff`, `bijOn_pairIndex`: all places and all pairs.
- `PairTable.Full.mem_pairs`, `Full.ext`: a full table is told by its values.
- `PairTable.stepsLater`, `Full.stepsLater`, `Full.get_moved`, `Full.stepsLater_set`: many steps.
- `PairTable.Triangle`, `full_tables_are_triangles`: all of it for every full table; `widest_table_lacks_pairs`.
-/

namespace StereoMapping

/-! ## All places -/

/-- **Places are in lexicographic order** of the pairs. -/
theorem pairPlace_lt_iff {n a b c d : Nat} (hab : a < b) (hb : b < n) (hcd : c < d) (hd : d < n) :
    pairPlace n a b < pairPlace n c d ↔ a < c ∨ a = c ∧ b < d := by
  have hbefore : ∀ {a b c d}, a < b → b < n → c < d → d < n → a < c → pairPlace n a b < pairPlace n c d := by
    intro a b c d hab hb hcd hd hac
    exact Nat.lt_of_lt_of_le (pairPlace_lt_rowStart hac hab hb (by omega)) (Nat.le_add_right _ _)
  rcases Nat.lt_trichotomy a c with hlt | rfl | hgt
  · exact iff_of_true (hbefore hab hb hcd hd hlt) (.inl hlt)
  · unfold pairPlace
    omega
  · have hafter := hbefore hcd hd hab hb hgt
    omega

/-- The places are those below the number of pairs, each of one pair. -/
theorem bijOn_pairPlace (n : Nat) :
    Set.BijOn (fun p : Nat × Nat => pairPlace n p.1 p.2) {p | p.1 < p.2 ∧ p.2 < n} (Set.Iio (n * (n - 1) / 2)) := by
  refine ⟨?_, ?_, ?_⟩
  · rintro ⟨source, sink⟩ ⟨hk, hn⟩
    exact pairPlace_lt hk hn
  · rintro ⟨a, b⟩ ⟨hab, hb⟩ ⟨c, d⟩ ⟨hcd, hd⟩ hsame
    obtain ⟨rfl, rfl⟩ := pairPlace_inj hab hb hcd hd hsame
    rfl
  · intro place hplace
    rw [Set.mem_Iio, ← rowStart_self] at hplace
    obtain ⟨source, sink, hk, hn, hp⟩ := exists_pairPlace_eq (Nat.le_refl n) hplace
    exact ⟨(source, sink), ⟨hk, hn⟩, hp⟩

/-- **The positions in words are those below the number of pairs**, each of one pair, if the pairs can be counted. -/
theorem bijOn_pairIndex {n : Nat} (h : n * (n - 1) < 2 ^ 64) :
    Set.BijOn (fun p : Nat × Nat => pairIndex n p.1 p.2) {p | p.1 < p.2 ∧ p.2 < n} (Set.Iio (n * (n - 1) / 2)) :=
  (bijOn_pairPlace n).congr fun _ hpair => (pairIndex_eq h hpair.1 hpair.2).symm

namespace PairTable

variable {α : Type}

/-! ## All values -/

/-- What is listed is what is found. -/
theorem Full.mem_pairs {t : PairTable α} {n a b : Nat} {v : α} (h : t.Full n) :
    ((a, b), v) ∈ t.pairs ↔ t.get a b = .ok v := by
  constructor
  · intro hmem
    have hpair : (a, b) ∈ cameraPairs n := h.map_fst_pairs ▸ List.mem_map_of_mem hmem
    obtain ⟨hab, hb⟩ := mem_cameraPairs.mp hpair
    obtain ⟨w, hget, hplace⟩ := h.listed hab hb
    have hsame := List.inj_on_of_nodup_map (h.map_fst_pairs ▸ nodup_cameraPairs) hmem
      (List.mem_of_getElem? hplace) rfl
    rw [hget, (Prod.mk.inj hsame).2]
  · intro hget
    by_cases hpair : a < b ∧ b < n
    · obtain ⟨w, hfound, hplace⟩ := h.listed hpair.1 hpair.2
      obtain rfl := Except.ok.inj (hfound.symm.trans hget)
      exact List.mem_of_getElem? hplace
    · rw [get_of_invalid (h.cameras_eq ▸ hpair)] at hget
      cases hget

/-- A full table is told by its values. -/
theorem Full.ext {t u : PairTable α} {n : Nat} (ht : t.Full n) (hu : u.Full n)
    (h : ∀ a b, a < b → b < n → t.get a b = u.get a b) : t = u := by
  have hcameras : t.cameras = u.cameras := ht.cameras_eq.trans hu.cameras_eq.symm
  have hvalues : t.values = u.values := by
    refine Array.ext (ht.size_eq.trans hu.size_eq.symm) fun place hplace hplace' => ?_
    obtain ⟨⟨a, b⟩, ⟨hab, hb⟩, rfl⟩ := (bijOn_pairPlace n).2.2 (ht.size_eq ▸ hplace : place ∈ Set.Iio _)
    obtain ⟨v, hv, hleft⟩ := ht.exists_get hab hb
    obtain ⟨w, hw, hright⟩ := hu.exists_get hab hb
    obtain rfl := Except.ok.inj (hv.symm.trans ((h a b hab hb).trans hw))
    rw [(Array.getElem?_eq_some_iff.mp hleft).2, (Array.getElem?_eq_some_iff.mp hright).2]
  cases t
  cases u
  cases hcameras
  cases hvalues
  rfl

/-! ## Many steps -/

/-- The table some steps later, in a window of `m` cameras. -/
def stepsLater (t : PairTable α) (m : Nat) (fresh : α) : Nat → Except Error (PairTable α)
  | 0 => .ok t
  | steps + 1 => do (← t.stepsLater m fresh steps).shift m fresh

/-- **Some steps later** a pair has the value that it had so many steps before, if it was there. -/
theorem Full.stepsLater {t : PairTable α} {n m steps : Nat} (h : t.Full n) (hm : Fits m) (fresh : α)
    (hsteps : 0 < steps) :
    ∃ u, t.stepsLater m fresh steps = .ok u ∧ u.Full m ∧ ∀ a b, a < b → b < m →
      u.get a b = if steps ≤ a ∧ b - steps < n then t.get (a - steps) (b - steps) else .ok fresh := by
  induction steps, hsteps using Nat.le_induction with
  | base => exact h.shift hm fresh
  | succ steps hsteps ih =>
    obtain ⟨v, hv, hvfull, hvget⟩ := ih
    obtain ⟨u, hu, hufull, huget⟩ := hvfull.shift hm fresh
    refine ⟨u, ?_, hufull, fun a b hab hb => ?_⟩
    · unfold PairTable.stepsLater
      rw [hv]
      exact hu
    · rw [huget a b hab hb]
      by_cases hfirst : 0 < a
      · have hpred : (a - 1) - steps = a - (steps + 1) ∧ (b - 1) - steps = b - (steps + 1) := by omega
        rw [if_pos ⟨hfirst, by omega⟩, hvget _ _ (by omega) (by omega), hpred.1, hpred.2]
        congr 1
        exact propext (by omega)
      · rw [if_neg fun hc => hfirst hc.1, if_neg fun hc => by omega]

/-- A pair that stays in the window keeps its value. -/
theorem Full.get_moved {t : PairTable α} {n m a b : Nat} {fresh v : α} (h : t.Full n) (hm : Fits m) (steps : Nat)
    (hv : t.get a b = .ok v) (hb : b + steps < m) :
    ∃ u, t.stepsLater m fresh steps = .ok u ∧ u.get (a + steps) (b + steps) = .ok v := by
  obtain ⟨hab, hbn⟩ := mem_cameraPairs.mp (h.map_fst_pairs ▸ List.mem_map_of_mem (h.mem_pairs.mpr hv))
  cases steps with
  | zero => exact ⟨t, rfl, hv⟩
  | succ steps =>
    obtain ⟨u, hu, _, hget⟩ := h.stepsLater hm fresh (Nat.succ_pos steps)
    refine ⟨u, hu, ?_⟩
    rw [hget _ _ (by omega) hb, if_pos ⟨by omega, by omega⟩, Nat.add_sub_cancel, Nat.add_sub_cancel, hv]

/-- A pair that has left the window leaves no trace: whatever value it is given, the later tables are the same. -/
theorem Full.stepsLater_set {t u : PairTable α} {n m steps a b : Nat} {fresh v : α} (h : t.Full n) (hm : Fits m)
    (hset : t.set a b v = .ok u) (hsteps : 0 < steps) (hgone : m ≤ b + steps) :
    u.stepsLater m fresh steps = t.stepsLater m fresh steps := by
  obtain ⟨hab, hb⟩ := valid_of_set hset
  obtain ⟨w, hw, hfull, hget⟩ := h.set v hab (h.cameras_eq ▸ hb)
  obtain rfl := Except.ok.inj (hw.symm.trans hset)
  obtain ⟨x, hx, hxfull, hxget⟩ := hfull.stepsLater hm fresh hsteps
  obtain ⟨y, hy, hyfull, hyget⟩ := h.stepsLater hm fresh hsteps
  rw [hx, hy]
  refine congrArg Except.ok (hxfull.ext hyfull fun i j hij hj => ?_)
  rw [hxget i j hij hj, hyget i j hij hj]
  by_cases hold : steps ≤ i ∧ j - steps < n
  · rw [if_pos hold, if_pos hold, hget, if_neg]
    rintro ⟨-, hc⟩
    omega
  · rw [if_neg hold, if_neg hold]

/-! ## The triangle -/

/-- **A table is a faithful triangle** of values, one for each pair of `n` cameras. -/
structure Triangle (t : PairTable α) (n : Nat) (fresh : α) : Prop where
  cameras_eq : t.cameras = n
  /-- The positions of the pairs are those below their number, each of one pair. -/
  places : Set.BijOn (fun p : Nat × Nat => pairIndex n p.1 p.2) {p | p.1 < p.2 ∧ p.2 < n}
    (Set.Iio (n * (n - 1) / 2))
  /-- They are in lexicographic order. -/
  ordered : ∀ a b c d, a < b → b < n → c < d → d < n →
    (pairIndex n a b < pairIndex n c d ↔ a < c ∨ a = c ∧ b < d)
  /-- The position of a pair is found, and nothing that is computed on the way leaves the words. -/
  bounded : ∀ a b, a < b → b < n → t.indexOf a b = .ok (pairIndex n a b) ∧
    pairIndex n a b = a * (2 * n - a - 1) / 2 + (b - a - 1) ∧ a * (2 * n - a - 1) < 2 ^ 64
  /-- Each pair is listed at its position, with the value that is found for it. -/
  listed : ∀ a b, a < b → b < n →
    ∃ v, t.get a b = .ok v ∧ t.pairs[pairIndex n a b]? = some ((a, b), v)
  /-- No pair is listed twice, and none that is not a pair of these cameras. -/
  listed_once : (t.pairs.map Prod.fst).Nodup ∧ t.pairs.length = n * (n - 1) / 2
  /-- Setting a value changes it at the one pair. -/
  set : ∀ a b v, a < b → b < n →
    ∃ u, t.set a b v = .ok u ∧ u.Full n ∧ ∀ i j, u.get i j = if i = a ∧ j = b then .ok v else t.get i j
  /-- A window of any size one step later: older cameras have the value they had, the new one has fresh values. -/
  shifted : ∀ m, Fits m → ∃ u, t.shift m fresh = .ok u ∧ u.Full m ∧ ∀ a b, a < b → b < m →
    u.get a b = if 0 < a ∧ b - 1 < n then t.get (a - 1) (b - 1) else .ok fresh
  /-- Many steps later a pair is found further back, as long as it stays in the window. -/
  kept : ∀ m steps a b v, Fits m → t.get a b = .ok v → b + steps < m →
    ∃ u, t.stepsLater m fresh steps = .ok u ∧ u.get (a + steps) (b + steps) = .ok v
  /-- Once it has left the window, no later table depends on its value. -/
  dropped : ∀ m steps a b v u, Fits m → t.set a b v = .ok u → 0 < steps → m ≤ b + steps →
    u.stepsLater m fresh steps = t.stepsLater m fresh steps

theorem Full.triangle {t : PairTable α} {n : Nat} (h : t.Full n) (fresh : α) : t.Triangle n fresh := by
  have hindex : ∀ {a b}, a < b → b < n → pairIndex n a b = pairPlace n a b := pairIndex_eq h.fits.pairs_lt
  refine ⟨h.cameras_eq, bijOn_pairIndex h.fits.pairs_lt, ?ordered, ?bounded, ?listed, ?listed_once,
    fun _ _ v => h.set v, fun _ hm => h.shift hm fresh, fun _ steps _ _ _ hm => h.get_moved hm steps,
    fun _ _ _ _ _ _ => h.stepsLater_set⟩
  case ordered =>
    intro a b c d hab hb hcd hd
    rw [hindex hab hb, hindex hcd hd]
    exact pairPlace_lt_iff hab hb hcd hd
  case bounded =>
    intro a b hab hb
    refine ⟨?_, hindex hab hb, ?_⟩
    · rw [indexOf_eq hab (h.cameras_eq ▸ hb), h.cameras_eq]
    · exact Nat.lt_of_le_of_lt (place_product_le (Nat.lt_trans hab hb)) h.fits.pairs_lt
  case listed =>
    intro a b hab hb
    rw [hindex hab hb]
    exact h.listed hab hb
  case listed_once =>
    refine ⟨h.map_fst_pairs ▸ nodup_cameraPairs, ?_⟩
    have hlength := congrArg List.length h.map_fst_pairs
    rwa [List.length_map, length_cameraPairs] at hlength

/-- **Every full table is a faithful triangle**, and so is each that is made of one by setting a value or by going a
step further: these are full again. Full tables can be created for the numbers of cameras whose values fit, and for no
others. -/
theorem full_tables_are_triangles (n : Nat) (fresh : α) :
    ((∃ t, create n fresh = .ok t ∧ t.Full n) ↔ Fits n) ∧ ∀ t : PairTable α, t.Full n → t.Triangle n fresh :=
  ⟨exists_full_iff_fits, fun _ h => h.triangle fresh⟩

/-- A value that is set for the two newest of four cameras is found two steps further back in a window of four, and
in no table once three steps are made. -/
theorem value_moves_through_four : (filled 4 0).Full 4 ∧
    ∃ u, (filled 4 0).set 0 1 7 = .ok u ∧
      (∃ w, u.stepsLater 4 0 2 = .ok w ∧ w.get 2 3 = .ok 7) ∧
      u.stepsLater 4 0 3 = (filled 4 0).stepsLater 4 0 3 := by
  have hfits : Fits 4 := by decide
  have hfull : (filled 4 0).Full 4 := full_filled hfits 0
  have htriangle := (full_tables_are_triangles 4 0).2 _ hfull
  obtain ⟨u, hset, hu, hget⟩ := htriangle.set 0 1 7 (by decide) (by decide)
  have hvalue : u.get 0 1 = .ok 7 := hget 0 1
  exact ⟨hfull, u, hset, ((full_tables_are_triangles 4 0).2 u hu).kept 4 2 0 1 7 hfits hvalue (by decide),
    htriangle.dropped 4 3 0 1 7 u hfits hset (by decide) (by decide)⟩

/-- **The widest table lacks almost all of its pairs.** For `2 ^ 64 - 1` cameras the count wraps around to one value:
the pair after the first has none, and no table can be brought to that size. -/
theorem widest_table_lacks_pairs :
    create (2 ^ 64 - 1) 0 = .ok (filled (2 ^ 64 - 1) 0) ∧ (filled (2 ^ 64 - 1) 0).values.size = 1 ∧
      (filled (2 ^ 64 - 1) 0).get 0 2 = .error (.breach .indexOutOfRange) ∧
      (filled 2 0).shift (2 ^ 64 - 1) 0 = .error (.breach .indexOutOfRange) := by
  decide

end PairTable
end StereoMapping
