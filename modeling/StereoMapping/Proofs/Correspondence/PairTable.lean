import Mathlib.Algebra.Order.Ring.Nat
import Mathlib.Data.List.Nodup
import Mathlib.Order.Monotone.Basic
import Mathlib.Tactic.Ring
import StereoMapping.Correspondence.PairTable

/-!
# `Proofs.Correspondence.PairTable` — a pair table is a function of pairs

The values of a table lie in one array, row after row. `pairIndex` finds the place of a pair in closed form, in
words. As long as the pairs can be counted in a word, that is the position of the pair in the enumeration
`cameraPairs`, so that different pairs have different places; beyond, a table has too few values. From then on a
table with all its values is read as a function: `PairTable.Holds`.

## Contents
- `rowStart`, `pairPlace`: where the row of a source begins, and the place of a pair in it.
- `cameraPairs`, `getElem?_cameraPairs`: the pair at its place; `pairPlace_inj`, `nodup_cameraPairs`.
- `pairCount_eq_iff`, `pairIndex_eq`: what is counted in words.
- `PairTable.Fits`, `PairTable.Full`: tables with one value for each pair; `exists_full_iff_fits`: which there are.
- `PairTable.Holds` and what `set`, `shift` and a series of `set` do to it.
-/

namespace StereoMapping

/-! ## The place of a pair -/

/-- Pairs before the row of a source. -/
def rowStart (n source : Nat) : Nat := source * (2 * n - source - 1) / 2

/-- Place of a pair of `n` cameras. -/
def pairPlace (n source sink : Nat) : Nat := rowStart n source + (sink - source - 1)

theorem rowStart_zero {n : Nat} : rowStart n 0 = 0 := by
  unfold rowStart
  rw [Nat.zero_mul]

/-- The row of a source holds its pairs with all older cameras. -/
theorem rowStart_succ {n source : Nat} (h : source < n) :
    rowStart n (source + 1) = rowStart n source + (n - (source + 1)) := by
  unfold rowStart
  obtain ⟨d, rfl⟩ : ∃ d, n = source + 1 + d := ⟨n - (source + 1), by omega⟩
  have hrow : 2 * (source + 1 + d) - source - 1 = source + 1 + 2 * d := by omega
  have hnext : 2 * (source + 1 + d) - (source + 1) - 1 = source + 2 * d := by omega
  have hlen : source + 1 + d - (source + 1) = d := by omega
  have hsum : (source + 1) * (source + 2 * d) = source * (source + 1 + 2 * d) + 2 * d := by ring
  rw [hrow, hnext, hlen, hsum, Nat.add_mul_div_left _ _ Nat.two_pos]

/-- The rows of all sources hold all pairs. -/
theorem rowStart_self {n : Nat} : rowStart n n = n * (n - 1) / 2 := by
  unfold rowStart
  congr 2
  omega

theorem rowStart_le_rowStart {n source later : Nat} (h : source ≤ later) (hn : later ≤ n) :
    rowStart n source ≤ rowStart n later := by
  induction later, h using Nat.le_induction with
  | base => exact Nat.le_refl _
  | succ later _ ih =>
    rw [rowStart_succ hn]
    exact Nat.le_trans (ih (Nat.le_of_succ_le hn)) (Nat.le_add_right _ _)

/-- A pair lies before the row of every later source. -/
theorem pairPlace_lt_rowStart {n source sink later : Nat} (h : source < later) (hk : source < sink) (hn : sink < n)
    (hlater : later ≤ n) : pairPlace n source sink < rowStart n later := by
  have hrow := rowStart_le_rowStart (n := n) (Nat.succ_le_of_lt h) hlater
  rw [Nat.succ_eq_add_one, rowStart_succ (Nat.lt_trans hk hn)] at hrow
  unfold pairPlace
  omega

/-- Places are below the number of pairs. -/
theorem pairPlace_lt {n source sink : Nat} (hk : source < sink) (hn : sink < n) :
    pairPlace n source sink < n * (n - 1) / 2 :=
  rowStart_self ▸ pairPlace_lt_rowStart (Nat.lt_trans hk hn) hk hn (Nat.le_refl n)

/-- Every place before the row of a bound is that of a pair of an earlier source. -/
theorem exists_pairPlace_eq {n bound place : Nat} (hb : bound ≤ n) (h : place < rowStart n bound) :
    ∃ source sink, source < sink ∧ sink < n ∧ pairPlace n source sink = place := by
  induction bound with
  | zero =>
    rw [rowStart_zero] at h
    exact absurd h (Nat.not_lt_zero _)
  | succ bound ih =>
    by_cases hearlier : place < rowStart n bound
    · exact ih (Nat.le_of_succ_le hb) hearlier
    · rw [rowStart_succ hb] at h
      refine ⟨bound, bound + 1 + (place - rowStart n bound), by omega, by omega, ?_⟩
      unfold pairPlace
      omega

/-- The product on the way to a place is at most the one that counts the pairs twice. -/
theorem place_product_le {n source : Nat} (h : source < n) : source * (2 * n - source - 1) ≤ n * (n - 1) := by
  obtain ⟨d, rfl⟩ : ∃ d, n = source + 1 + d := ⟨n - (source + 1), by omega⟩
  have hfactor : 2 * (source + 1 + d) - source - 1 = source + 1 + 2 * d := by omega
  have hlast : source + 1 + d - 1 = source + d := by omega
  have hrest : (source + 1 + d) * (source + d) = source * (source + 1 + 2 * d) + d * (d + 1) := by ring
  rw [hfactor, hlast, hrest]
  exact Nat.le_add_right _ _

/-! ## The enumeration of the pairs -/

/-- Pairs of a source with all older cameras. -/
def rowPairs (n source : Nat) : List (Nat × Nat) :=
  (List.range' (source + 1) (n - (source + 1))).map fun sink => (source, sink)

/-- The pairs of the sources below a bound. -/
def pairsBelow (n bound : Nat) : List (Nat × Nat) := (List.range bound).flatMap (rowPairs n)

/-- Pairs of `n` cameras in order. -/
def cameraPairs (n : Nat) : List (Nat × Nat) := pairsBelow n n

theorem pairsBelow_succ {n bound : Nat} : pairsBelow n (bound + 1) = pairsBelow n bound ++ rowPairs n bound := by
  unfold pairsBelow
  rw [List.range_succ, List.flatMap_append, List.flatMap_singleton]

theorem length_pairsBelow {n bound : Nat} (h : bound ≤ n) :
    (pairsBelow n bound).length = rowStart n bound := by
  induction bound with
  | zero => rw [rowStart_zero]; rfl
  | succ bound ih =>
    rw [pairsBelow_succ, List.length_append, ih (Nat.le_of_succ_le h), rowStart_succ h]
    unfold rowPairs
    rw [List.length_map, List.length_range']

theorem length_cameraPairs {n : Nat} : (cameraPairs n).length = n * (n - 1) / 2 :=
  (length_pairsBelow (Nat.le_refl n)).trans rowStart_self

/-- A pair of an earlier source is found at its place: the rows before it fill the places before it. -/
theorem getElem?_pairsBelow {n bound source sink : Nat} (hb : bound ≤ n) (hs : source < bound)
    (hk : source < sink) (hn : sink < n) :
    (pairsBelow n bound)[pairPlace n source sink]? = some (source, sink) := by
  induction bound with
  | zero => exact absurd hs (Nat.not_lt_zero _)
  | succ bound ih =>
    rw [pairsBelow_succ]
    rcases Nat.lt_succ_iff_lt_or_eq.mp hs with hlt | heq
    · have hfound := ih (Nat.le_of_succ_le hb) hlt
      rw [List.getElem?_append_left (List.getElem?_eq_some_iff.mp hfound).1, hfound]
    · subst heq
      have hplace : pairPlace n source sink = (pairsBelow n source).length + (sink - source - 1) := by
        rw [length_pairsBelow (Nat.le_of_succ_le hb)]
        rfl
      have hrow : sink - source - 1 < n - (source + 1) := by omega
      have hsink : source + 1 + 1 * (sink - source - 1) = sink := by omega
      unfold rowPairs
      rw [hplace, List.getElem?_append_right (Nat.le_add_right _ _), Nat.add_sub_cancel_left,
        List.getElem?_map, List.getElem?_range' hrow, hsink]
      rfl

/-- **A pair is at its place** in the enumeration. -/
theorem getElem?_cameraPairs {n source sink : Nat} (hk : source < sink) (hn : sink < n) :
    (cameraPairs n)[pairPlace n source sink]? = some (source, sink) :=
  getElem?_pairsBelow (Nat.le_refl n) (Nat.lt_trans hk hn) hk hn

/-- The pairs are those of a camera with an older one. -/
theorem mem_cameraPairs {n source sink : Nat} :
    (source, sink) ∈ cameraPairs n ↔ source < sink ∧ sink < n := by
  unfold cameraPairs pairsBelow rowPairs
  simp only [List.mem_flatMap, List.mem_range, List.mem_map, List.mem_range'_1, Prod.mk.injEq]
  constructor
  · rintro ⟨_, _, _, _, rfl, rfl⟩
    omega
  · intro h
    exact ⟨source, by omega, sink, by omega, rfl, rfl⟩

/-- Different pairs have different places. -/
theorem pairPlace_inj {n a b a' b' : Nat} (hab : a < b) (hb : b < n) (hab' : a' < b') (hb' : b' < n)
    (h : pairPlace n a b = pairPlace n a' b') : a = a' ∧ b = b' := by
  have hpair : (a, b) = (a', b') := by
    rw [← Option.some_inj, ← getElem?_cameraPairs hab hb, ← getElem?_cameraPairs hab' hb', h]
  exact Prod.mk.inj hpair

/-- No pair is enumerated twice. -/
theorem nodup_cameraPairs {n : Nat} : (cameraPairs n).Nodup := by
  -- an entry is the pair of its place, so it tells the place
  have hplace : ∀ i (hi : i < (cameraPairs n).length),
      pairPlace n (cameraPairs n)[i].1 (cameraPairs n)[i].2 = i := by
    intro i hi
    obtain ⟨source, sink, hk, hn, rfl⟩ :=
      exists_pairPlace_eq (Nat.le_refl n) ((length_pairsBelow (Nat.le_refl n)) ▸ hi)
    rw [(List.getElem?_eq_some_iff.mp (getElem?_cameraPairs hk hn)).2]
  refine List.pairwise_iff_getElem.mpr fun i j hi hj hlt hsame => Nat.ne_of_lt hlt ?_
  rw [← hplace i hi, ← hplace j hj, hsame]

/-! ## Counting in words -/

/-- The product of a count leaves the word by whole turns. -/
theorem pairCount_eq_mod (n : Nat) : pairCount n = n * (n - 1) % 2 ^ 64 / 2 := by
  have hword : ∀ k : Nat, k.toUInt64.toNat = k % 2 ^ 64 := fun k => UInt64.toNat_ofNat'
  unfold pairCount
  rw [UInt64.toNat_div, UInt64.toNat_mul, hword, hword, ← Nat.mul_mod]
  rfl

/-- **The values are counted right** exactly if the ordered pairs can be counted in a word. -/
theorem pairCount_eq_iff {n : Nat} : pairCount n = n * (n - 1) / 2 ↔ n * (n - 1) < 2 ^ 64 := by
  rw [pairCount_eq_mod]
  omega

/-- Cameras whose pairs can be counted fill half a word. -/
theorem le_of_pairs_lt {n : Nat} (h : n * (n - 1) < 2 ^ 64) : n ≤ 2 ^ 32 := by
  by_contra hlarge
  have hproduct : (2 ^ 32 + 1) * 2 ^ 32 ≤ n * (n - 1) := Nat.mul_le_mul (by omega) (by omega)
  omega

theorem pairs_lt_of_le {n : Nat} (h : n ≤ 2 ^ 32) : n * (n - 1) < 2 ^ 64 := by
  have hproduct : n * (n - 1) ≤ 2 ^ 32 * (2 ^ 32 - 1) := Nat.mul_le_mul h (by omega)
  omega

/-- **A place is found in words** if the pairs can be counted in one: nothing on the way is larger. -/
theorem pairIndex_eq {n a b : Nat} (h : n * (n - 1) < 2 ^ 64) (hab : a < b) (hb : b < n) :
    pairIndex n a b = pairPlace n a b := by
  have hn := le_of_pairs_lt h
  have hproduct := place_product_le (Nat.lt_trans hab hb)
  have hplace : pairPlace n a b < n * (n - 1) / 2 := pairPlace_lt hab hb
  have hword : ∀ k, k ≤ 2 ^ 32 → k.toUInt64.toNat = k := by
    intro k hk
    exact UInt64.toNat_ofNat_of_lt' (Nat.lt_of_le_of_lt hk (by decide))
  have hwordn := hword n hn
  have hworda := hword a (by omega)
  have hwordb := hword b (by omega)
  have hone : (1 : UInt64).toNat = 1 := rfl
  have htwice : (2 * n.toUInt64).toNat = 2 * n := by
    rw [UInt64.toNat_mul, hwordn, Nat.mod_eq_of_lt (by show 2 * n < 2 ^ 64; omega)]
    rfl
  have hless : (2 * n.toUInt64 - a.toUInt64).toNat = 2 * n - a := by
    rw [UInt64.toNat_sub_of_le _ _ (UInt64.le_iff_toNat_le.mpr (by rw [htwice, hworda]; omega)), htwice, hworda]
  have hrow : (2 * n.toUInt64 - a.toUInt64 - 1).toNat = 2 * n - a - 1 := by
    rw [UInt64.toNat_sub_of_le _ _ (UInt64.le_iff_toNat_le.mpr (by rw [hless, hone]; omega)), hless, hone]
  have hstart : (a.toUInt64 * (2 * n.toUInt64 - a.toUInt64 - 1) / 2).toNat = rowStart n a := by
    rw [UInt64.toNat_div, UInt64.toNat_mul, hrow, hworda, Nat.mod_eq_of_lt (Nat.lt_of_le_of_lt hproduct h)]
    rfl
  have hgap : (b.toUInt64 - a.toUInt64).toNat = b - a := by
    rw [UInt64.toNat_sub_of_le _ _ (UInt64.le_iff_toNat_le.mpr (by rw [hworda, hwordb]; omega)), hworda, hwordb]
  have hcolumn : (b.toUInt64 - a.toUInt64 - 1).toNat = b - a - 1 := by
    rw [UInt64.toNat_sub_of_le _ _ (UInt64.le_iff_toNat_le.mpr (by rw [hgap, hone]; omega)), hgap, hone]
  unfold pairIndex
  rw [UInt64.toNat_add, hstart, hcolumn]
  refine Nat.mod_eq_of_lt ?_
  unfold pairPlace at hplace
  omega

namespace PairTable

variable {α : Type}

/-! ## Full tables -/

/-- A value for each pair of so many cameras can be allocated. -/
def Fits (n : Nat) : Prop := valueBytes * (n * (n - 1) / 2) < 2 ^ 63

instance (n : Nat) : Decidable (Fits n) := inferInstanceAs (Decidable (_ < _))

/-- Then the pairs can be counted in a word. -/
theorem Fits.pairs_lt {n : Nat} (h : Fits n) : n * (n - 1) < 2 ^ 64 := by
  unfold Fits valueBytes at h
  omega

/-- **A full table** of `n` cameras has one value for each of their pairs, and no other. -/
structure Full (t : PairTable α) (n : Nat) : Prop where
  cameras_eq : t.cameras = n
  size_eq : t.values.size = n * (n - 1) / 2
  fits : Fits n

theorem size_filled {n : Nat} {a : α} : (filled n a).values.size = pairCount n := Array.size_replicate

theorem full_filled {n : Nat} (h : Fits n) (a : α) : (filled n a).Full n :=
  ⟨rfl, size_filled.trans (pairCount_eq_iff.mpr h.pairs_lt), h⟩

theorem create_of_fits {n : Nat} (h : Fits n) (a : α) : create n a = .ok (filled n a) := by
  unfold Fits at h
  unfold create
  rw [if_neg]
  · rfl
  · rw [pairCount_eq_iff.mpr (Fits.pairs_lt h)]
    omega

/-- A table whose values do not fit is refused, if they are counted right. -/
theorem create_of_not_fits {n : Nat} (hcount : n * (n - 1) < 2 ^ 64) (h : ¬Fits n) (a : α) :
    create n a = .error (.breach .capacityOverflow) := by
  unfold Fits at h
  unfold create
  rw [if_pos]
  · rfl
  · rw [pairCount_eq_iff.mpr hcount]
    omega

/-- **Which full tables can be created**: those whose values fit. A table of more cameras is refused, or has too few
values. -/
theorem exists_full_iff_fits {n : Nat} {a : α} : (∃ t, create n a = .ok t ∧ t.Full n) ↔ Fits n :=
  ⟨fun ⟨_, _, hfull⟩ => hfull.fits, fun h => ⟨filled n a, create_of_fits h a, full_filled h a⟩⟩

/-! ## Reading -/

theorem indexOf_eq {t : PairTable α} {a b : Nat} (hab : a < b) (hb : b < t.cameras) :
    t.indexOf a b = .ok (pairIndex t.cameras a b) := by
  unfold indexOf
  rw [if_pos ⟨hab, hb⟩]
  rfl

/-- The value of a pair stands at its index. -/
theorem get_eq_ok_iff {t : PairTable α} {a b : Nat} {v : α} (hab : a < b) (hb : b < t.cameras) :
    t.get a b = .ok v ↔ t.values[pairIndex t.cameras a b]? = some v := by
  unfold get
  rw [indexOf_eq hab hb]
  simp only [bind, Except.bind]
  cases t.values[pairIndex t.cameras a b]? with
  | none => exact iff_of_false (fun h => by cases h) fun h => by cases h
  | some w => exact ⟨fun h => congrArg some (Except.ok.inj h), fun h => congrArg Except.ok (Option.some.inj h)⟩

theorem get_of_invalid {t : PairTable α} {a b : Nat} (h : ¬(a < b ∧ b < t.cameras)) :
    t.get a b = .error (.breach (.cameraPair a b t.cameras)) := by
  unfold get indexOf
  rw [if_neg h]
  rfl

/-- The index of a pair of a full table is its place, and there is a value. -/
theorem Full.index_lt {t : PairTable α} {n a b : Nat} (h : t.Full n) (hab : a < b) (hb : b < n) :
    pairIndex t.cameras a b = pairPlace n a b ∧ pairIndex t.cameras a b < t.values.size := by
  obtain ⟨rfl, hsize, hfits⟩ := h
  have hplace := pairIndex_eq hfits.pairs_lt hab hb
  exact ⟨hplace, by rw [hplace, hsize]; exact pairPlace_lt hab hb⟩

/-- A full table has a value for each pair. -/
theorem Full.exists_get {t : PairTable α} {n a b : Nat} (h : t.Full n) (hab : a < b) (hb : b < n) :
    ∃ v, t.get a b = .ok v ∧ t.values[pairPlace n a b]? = some v := by
  obtain ⟨hplace, hlt⟩ := h.index_lt hab hb
  obtain ⟨v, hv⟩ : ∃ v, t.values[pairIndex t.cameras a b]? = some v := ⟨_, Array.getElem?_eq_getElem hlt⟩
  exact ⟨v, (get_eq_ok_iff hab (h.cameras_eq ▸ hb)).mpr hv, hplace ▸ hv⟩

/-! ## The listed pairs -/

/-- Pairs from one on, which is in the row of its source. -/
def pairsSince (n source sink : Nat) : List (Nat × Nat) :=
  (List.range' sink (n - sink)).map (fun k => (source, k))
    ++ (List.range' (source + 1) (n - (source + 1))).flatMap (rowPairs n)

theorem pairsSince_cons {n source sink : Nat} (h : sink < n) :
    pairsSince n source sink = (source, sink) :: pairsSince n source (sink + 1) := by
  obtain ⟨d, hd⟩ : ∃ d, n - sink = d + 1 := ⟨n - sink - 1, by omega⟩
  have hrest : n - (sink + 1) = d := by omega
  unfold pairsSince
  rw [hd, hrest, List.range'_succ, List.map_cons, List.cons_append]

/-- The row after a full one is that of the next source. -/
theorem pairsSince_row {n source : Nat} : pairsSince n source n = pairsSince n (source + 1) (source + 2) := by
  unfold pairsSince
  rw [Nat.sub_self]
  by_cases hlast : source + 1 < n
  · obtain ⟨d, hd⟩ : ∃ d, n - (source + 1) = d + 1 := ⟨n - (source + 1) - 1, by omega⟩
    have hrest : n - (source + 1 + 1) = d := by omega
    rw [hd, List.range'_succ, List.flatMap_cons, hrest]
    unfold rowPairs
    rw [hrest]
    rfl
  · have hnone : n - (source + 1) = 0 := by omega
    have hnext : n - (source + 2) = 0 := by omega
    rw [hnone, hnext]
    rfl

theorem pairsSince_first {n : Nat} : pairsSince n 0 1 = cameraPairs n := by
  unfold pairsSince cameraPairs pairsBelow
  cases n with
  | zero => rfl
  | succ n =>
    rw [List.range_eq_range', List.range'_succ, List.flatMap_cons]
    rfl

/-- Values are listed with the pairs from the first one on. It is a pair, or the row after it has none either. -/
theorem pairsFrom_eq {n source sink : Nat} {values : List α} (h : sink = source + 1 ∨ sink < n) :
    pairsFrom n source sink values = (pairsSince n source sink).zip values := by
  induction values generalizing source sink with
  | nil => rw [List.zip_nil_right]; rfl
  | cons a rest ih =>
    unfold pairsFrom
    by_cases hsink : sink < n
    · rw [if_pos hsink, pairsSince_cons hsink, List.zip_cons_cons]
      by_cases hnext : sink + 1 < n
      · rw [if_pos hnext, ih (.inr hnext)]
      · have hrow : sink + 1 = n := by omega
        rw [if_neg hnext, ih (.inl rfl), hrow, pairsSince_row]
    · have hnone : pairsSince n source sink = [] := by
        obtain rfl := h.resolve_right hsink
        unfold pairsSince
        rw [Nat.sub_eq_zero_of_le (Nat.le_of_not_lt hsink)]
        rfl
      rw [if_neg hsink, hnone, List.zip_nil_left]

/-- **The pairs are listed with the values in their order**, as far as both go. -/
theorem pairs_eq_zip {t : PairTable α} : t.pairs = (cameraPairs t.cameras).zip t.values.toList := by
  unfold pairs
  rw [pairsFrom_eq (.inl rfl), pairsSince_first]

/-- A full table lists each pair at its place, with the value that is found for it. -/
theorem Full.listed {t : PairTable α} {n a b : Nat} (h : t.Full n) (hab : a < b) (hb : b < n) :
    ∃ v, t.get a b = .ok v ∧ t.pairs[pairPlace n a b]? = some ((a, b), v) := by
  obtain ⟨v, hget, hvalue⟩ := h.exists_get hab hb
  refine ⟨v, hget, ?_⟩
  rw [pairs_eq_zip, List.getElem?_zip_eq_some, h.cameras_eq]
  exact ⟨getElem?_cameraPairs hab hb, by rw [Array.getElem?_toList]; exact hvalue⟩

/-- The pairs are listed in their order. -/
theorem Full.map_fst_pairs {t : PairTable α} {n : Nat} (h : t.Full n) : t.pairs.map Prod.fst = cameraPairs n := by
  rw [pairs_eq_zip, h.cameras_eq]
  refine List.map_fst_zip ?_
  rw [length_cameraPairs, Array.length_toList, h.size_eq]

/-! ## One change -/

theorem valid_of_set {t u : PairTable α} {a b : Nat} {v : α} (h : t.set a b v = .ok u) : a < b ∧ b < t.cameras := by
  unfold PairTable.set indexOf at h
  by_cases hpair : a < b ∧ b < t.cameras
  · exact hpair
  · rw [if_neg hpair] at h
    cases h

/-- **Setting the value of a pair** changes the table at that pair only. -/
theorem Full.set {t : PairTable α} {n a b : Nat} (h : t.Full n) (v : α) (hab : a < b) (hb : b < n) :
    ∃ u, t.set a b v = .ok u ∧ u.Full n ∧ ∀ i j, u.get i j = if i = a ∧ j = b then .ok v else t.get i j := by
  obtain ⟨hplace, hlt⟩ := h.index_lt hab hb
  have hfull : PairTable.Full { t with values := t.values.setIfInBounds (pairIndex t.cameras a b) v } n :=
    ⟨h.cameras_eq, Array.size_setIfInBounds.trans h.size_eq, h.fits⟩
  refine ⟨_, ?_, hfull, fun i j => ?_⟩
  · unfold PairTable.set
    rw [indexOf_eq hab (h.cameras_eq ▸ hb)]
    exact if_pos hlt
  · by_cases hpair : i < j ∧ j < n
    · obtain ⟨hother, hlt'⟩ := h.index_lt hpair.1 hpair.2
      obtain ⟨w, hold, hvalue⟩ := h.exists_get hpair.1 hpair.2
      have hnew : ∀ x, (t.values.setIfInBounds (pairIndex t.cameras a b) v)[pairIndex t.cameras i j]? = some x →
          PairTable.get { t with values := t.values.setIfInBounds (pairIndex t.cameras a b) v } i j = .ok x :=
        fun x => (get_eq_ok_iff hpair.1 (hfull.cameras_eq ▸ hpair.2)).mpr
      -- two pairs that are not the same have not the same place
      by_cases hsame : i = a ∧ j = b
      · obtain ⟨rfl, rfl⟩ := hsame
        rw [if_pos ⟨rfl, rfl⟩]
        exact hnew v (by rw [Array.getElem?_setIfInBounds, if_pos rfl, if_pos hlt])
      · rw [if_neg hsame, hold]
        refine hnew w ?_
        rw [Array.getElem?_setIfInBounds, if_neg, hother, hvalue]
        rw [hplace, hother]
        intro hc
        obtain ⟨ha, hb'⟩ := pairPlace_inj hab hb hpair.1 hpair.2 hc
        exact hsame ⟨ha.symm, hb'.symm⟩
    · have hother : ¬(i = a ∧ j = b) := by
        rintro ⟨rfl, rfl⟩
        exact hpair ⟨hab, hb⟩
      rw [if_neg hother, get_of_invalid (hfull.cameras_eq ▸ hpair), get_of_invalid (h.cameras_eq ▸ hpair)]

/-! ## The values moved one by one -/

theorem Full.moveBack {t : PairTable α} {n a b : Nat} (h : t.Full n) (v : α) (hab : a < b) :
    ∃ u, t.moveBack ((a, b), v) = .ok u ∧ u.Full n ∧
      ∀ i j, i < j → j < n → u.get i j = if i = a + 1 ∧ j = b + 1 then .ok v else t.get i j := by
  unfold PairTable.moveBack
  by_cases hstays : b + 1 < n
  · obtain ⟨u, hset, hfull, hget⟩ := h.set v (Nat.succ_lt_succ hab) hstays
    exact ⟨u, (if_pos (h.cameras_eq.symm ▸ hstays)).trans hset, hfull, fun i j _ _ => hget i j⟩
  · refine ⟨t, if_neg (h.cameras_eq.symm ▸ hstays), h, fun i j _ hj => ?_⟩
    rw [if_neg]
    rintro ⟨-, rfl⟩
    exact hstays hj

/-- Values of different pairs, moved one by one: each is found one step further back, and nothing else changes. -/
theorem Full.foldlM_moveBack {t : PairTable α} {n : Nat} (h : t.Full n) (entries : List ((Nat × Nat) × α))
    (hpairs : ∀ pair ∈ entries.map Prod.fst, pair.1 < pair.2) (hnodup : (entries.map Prod.fst).Nodup) :
    ∃ u, entries.foldlM PairTable.moveBack t = .ok u ∧ u.Full n ∧
      (∀ a b v, ((a, b), v) ∈ entries → b + 1 < n → u.get (a + 1) (b + 1) = .ok v) ∧
      ∀ i j, i < j → j < n → (0 < i → (i - 1, j - 1) ∉ entries.map Prod.fst) → u.get i j = t.get i j := by
  induction entries generalizing t with
  | nil => exact ⟨t, rfl, h, fun _ _ _ hmem => absurd hmem List.not_mem_nil, fun _ _ _ _ _ => rfl⟩
  | cons entry rest ih =>
    obtain ⟨⟨a, b⟩, v⟩ := entry
    obtain ⟨hfresh, hrest⟩ := List.nodup_cons.mp hnodup
    have hab : a < b := hpairs (a, b) List.mem_cons_self
    obtain ⟨w, hmove, hw, hgetw⟩ := h.moveBack v hab
    obtain ⟨u, hfold, hu, hmoved, hkept⟩ :=
      ih hw (fun pair hpair => hpairs pair (List.mem_cons_of_mem _ hpair)) hrest
    refine ⟨u, ?_, hu, ?_, ?_⟩
    · rw [List.foldlM_cons, hmove]
      exact hfold
    · intro i j x hmem hj
      rcases List.mem_cons.mp hmem with heq | hlater
      · -- no later value goes to the same pair
        obtain ⟨⟨rfl, rfl⟩, rfl⟩ : (i = a ∧ j = b) ∧ x = v := by simpa using heq
        rw [hkept (i + 1) (j + 1) (Nat.succ_lt_succ hab) hj fun _ => hfresh,
          hgetw (i + 1) (j + 1) (Nat.succ_lt_succ hab) hj, if_pos ⟨rfl, rfl⟩]
      · exact hmoved i j x hlater hj
    · intro i j hij hj hnone
      have hother : ¬(i = a + 1 ∧ j = b + 1) := by
        rintro ⟨rfl, rfl⟩
        exact hnone (Nat.succ_pos a) List.mem_cons_self
      rw [hkept i j hij hj fun hi => fun hmem => hnone hi (List.mem_cons_of_mem _ hmem), hgetw i j hij hj,
        if_neg hother]

theorem get_filled {n a b : Nat} {v : α} (h : Fits n) (hab : a < b) (hb : b < n) : (filled n v).get a b = .ok v := by
  obtain ⟨w, hget, hvalue⟩ := (full_filled h v).exists_get hab hb
  have hmem : w ∈ (filled n v).values := Array.mem_of_getElem? hvalue
  rw [hget, Array.eq_of_mem_replicate hmem]

/-- **One step later** a pair has the value that it had one step before, if it was there. -/
theorem Full.shift {t : PairTable α} {n m : Nat} (h : t.Full n) (hm : Fits m) (fresh : α) :
    ∃ u, t.shift m fresh = .ok u ∧ u.Full m ∧ ∀ a b, a < b → b < m →
      u.get a b = if 0 < a ∧ b - 1 < n then t.get (a - 1) (b - 1) else .ok fresh := by
  have hpairs : ∀ pair ∈ t.pairs.map Prod.fst, pair.1 < pair.2 := by
    intro pair hpair
    exact (mem_cameraPairs.mp (h.map_fst_pairs ▸ hpair)).1
  obtain ⟨u, hfold, hu, hmoved, hkept⟩ :=
    (full_filled hm fresh).foldlM_moveBack t.pairs hpairs (h.map_fst_pairs ▸ nodup_cameraPairs)
  refine ⟨u, ?_, hu, fun a b hab hb => ?_⟩
  · unfold PairTable.shift
    rw [create_of_fits hm]
    exact hfold
  -- what was moved here stood one camera before; nothing else was written
  by_cases hold : 0 < a ∧ b - 1 < n
  · obtain ⟨v, hv, hplace⟩ := h.listed (show a - 1 < b - 1 by omega) hold.2
    have hfound := hmoved (a - 1) (b - 1) v (List.mem_of_getElem? hplace) (by omega)
    rw [if_pos hold, hv, ← hfound]
    congr 1 <;> omega
  · rw [if_neg hold, hkept a b hab hb, get_filled hm hab hb]
    intro ha hmem
    rw [h.map_fst_pairs, mem_cameraPairs] at hmem
    exact hold ⟨ha, hmem.2⟩

/-! ## The function of a table -/

/-- **A table of `n` cameras stands for a function** of the pairs of these cameras. -/
structure Holds (t : PairTable α) (n : Nat) (f : Nat → Nat → α) : Prop where
  full : t.Full n
  get_eq : ∀ a b, a < b → b < n → t.get a b = .ok (f a b)

theorem holds_filled {n : Nat} (h : Fits n) (a : α) : (filled n a).Holds n fun _ _ => a :=
  ⟨full_filled h a, fun _ _ => get_filled h⟩

/-- A table one step later: a pair of older cameras has the value it had one step before, if it was in the
table, and the new camera has fresh values. -/
theorem Holds.shift {t : PairTable α} {n m : Nat} {f : Nat → Nat → α} (h : t.Holds n f) (hm : Fits m) (fresh : α) :
    ∃ u, t.shift m fresh = .ok u ∧
      u.Holds m fun a b => if 0 < a ∧ b - 1 < n then f (a - 1) (b - 1) else fresh := by
  obtain ⟨u, hshift, hfull, hget⟩ := h.full.shift hm fresh
  refine ⟨u, hshift, hfull, fun a b hab hb => ?_⟩
  rw [hget a b hab hb]
  by_cases hold : 0 < a ∧ b - 1 < n
  · rw [if_pos hold, if_pos hold, h.get_eq (a - 1) (b - 1) (by omega) hold.2]
  · rw [if_neg hold, if_neg hold]

/-- Values set for pairs of the newest camera, each for another camera, one after the other. -/
theorem Holds.foldlM_set {t : PairTable α} {n : Nat} {f : Nat → Nat → α} (maps : List (Nat × α))
    (h : t.Holds n f) (hcameras : ∀ camera ∈ maps.map Prod.fst, 0 < camera ∧ camera < n)
    (hnodup : (maps.map Prod.fst).Nodup) :
    ∃ u, maps.foldlM (fun table (camera, map) => table.set 0 camera map) t = .ok u ∧
      u.Holds n fun a b => if a = 0 then (maps.lookup b).getD (f a b) else f a b := by
  induction maps generalizing t f with
  | nil =>
    refine ⟨t, rfl, h.full, ?_⟩
    intro a b hab hb
    rw [h.get_eq a b hab hb, List.lookup_nil, Option.getD_none, ite_self]
  | cons entry rest ih =>
    obtain ⟨camera, map⟩ := entry
    obtain ⟨hfresh, hrest⟩ := List.nodup_cons.mp hnodup
    obtain ⟨hpos, hlt⟩ := hcameras camera List.mem_cons_self
    obtain ⟨u, hset, hfull, hget⟩ := h.full.set map hpos hlt
    have hu : u.Holds n fun i j => if i = 0 ∧ j = camera then map else f i j := by
      refine ⟨hfull, fun i j hij hj => ?_⟩
      rw [hget i j, h.get_eq i j hij hj, ← apply_ite]
    obtain ⟨w, hfold, hw⟩ := ih hu (fun c hc => hcameras c (List.mem_cons_of_mem _ hc)) hrest
    refine ⟨w, ?_, hw.full, ?_⟩
    · rw [List.foldlM_cons]
      show (t.set 0 camera map >>= fun table => rest.foldlM _ table) = _
      rw [hset]
      exact hfold
    · intro a b hab hb
      rw [hw.get_eq a b hab hb]
      congr 1
      by_cases ha : a = 0
      · rw [if_pos ha, if_pos ha, List.lookup_cons]
        by_cases hcam : b = camera
        · -- no later value is set for this camera
          subst hcam
          have hnone : rest.lookup b = none := by
            rw [List.lookup_eq_none_iff]
            intro entry hentry
            rw [bne_iff_ne]
            intro hc
            have hmem : entry.1 ∈ rest.map Prod.fst := List.mem_map_of_mem hentry
            exact hfresh (hc ▸ hmem)
          rw [hnone, if_pos ⟨ha, rfl⟩, beq_self_eq_true]
          rfl
        · rw [beq_false_of_ne hcam, if_neg (fun hc => hcam hc.2)]
      · rw [if_neg ha, if_neg ha, if_neg (fun hc => ha hc.1)]

end PairTable

end StereoMapping
