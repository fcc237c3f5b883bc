import StereoMapping.Proofs.Keypoint.Matching
import StereoMapping.Proofs.Number.Product

/-!
# `Proofs.Keypoint.Nearest` — the least two distances in one pass

The nearest candidate and the distance of the next one are kept up to date candidate by candidate. A new candidate that
is not nearer may be the next one; one that is nearer makes the one before the next, whatever the next one was. So among
candidates whose distances are numbers the first of the nearest is found, and the least distance of all the others, or
infinity if there are none.

The ratio test looks at the next one only. As shares of distances are in the order of the distances, also after rounding
(`Proofs.Number.Product`), this tests all the others: either the nearest is below the share of each of them, or they
are all infinitely far.

## Contents
- `Scalar.Topped`: scalars with a greatest one, and the instance for 32-bit numbers.
- `eq_infinity32`, `zero_le_sqrt`: what a distance can be.
- `Nearest.TwoLeast`, `Nearest.HoldsTwo.step`, `Nearest.holdsTwo_foldl`: what is held after some candidates.
- `Nearest.TwoLeast.isDistinct_iff`: the ratio test; `among?_two_least`.
-/

namespace StereoMapping

open Float.Model (UnpackedFloat)
open Float.Model.Format (binary32)
open Float.Model.UnpackedFloat (unpack pack unpackExponent unpackMantissa unpackSign)

/-! ## Distances -/

/-- Scalars of which infinity is the greatest. -/
class Scalar.Topped (α : Type) [Scalar α] : Prop where
  isNaN_infinity : Scalar.isNaN (Scalar.infinity : α) = false
  lt_or_eq_infinity : ∀ a : α, Scalar.isNaN a = false → Scalar.lt a Scalar.infinity = true ∨ a = Scalar.infinity

/-- The fields of an infinite pattern. -/
theorem fields_of_infinity {b : BitVec binary32.numBits} (h : unpack binary32 b = .infinity .positive) :
    unpackExponent b = -1#_ ∧ unpackMantissa b = 0#_ ∧ unpackSign b = 0#_ := by
  have hsign : ∀ {x : UnpackedFloat}, Unpacks b x → x = .infinity .positive → unpackExponent b = -1#_ ∧
      unpackMantissa b = 0#_ ∧ unpackSign b = 0#_ := by
    intro x hunpacks hx
    cases hunpacks with
    | infinity hexponent hmantissa =>
      injection hx with hpositive
      refine ⟨hexponent, hmantissa, ?_⟩
      by_contra hne
      rw [UnpackedFloat.Sign.ofBitVec, if_neg hne] at hpositive
      cases hpositive
    | _ => cases hx
  exact hsign (unpacks b) h

/-- A pattern is told by its fields. -/
theorem eq_of_fields {b b' : BitVec binary32.numBits} (hexponent : unpackExponent b = unpackExponent b')
    (hmantissa : unpackMantissa b = unpackMantissa b') (hsign : unpackSign b = unpackSign b') : b = b' := by
  have he := congrArg BitVec.toNat hexponent
  have hm := congrArg BitVec.toNat hmantissa
  have hs := congrArg BitVec.toNat hsign
  unfold unpackExponent at he
  unfold unpackMantissa at hm
  unfold unpackSign at hs
  simp only [BitVec.toNat_cast, BitVec.extractLsb_toNat, Nat.shiftRight_eq_div_pow] at he hm hs
  have hb : b.toNat < 2 ^ 32 := b.isLt
  have hb' : b'.toNat < 2 ^ 32 := b'.isLt
  apply BitVec.eq_of_toNat_eq
  norm_num at he hm hs
  omega

/-- Numbers of one pattern are equal. -/
theorem eq_of_pattern {x y : Float32} (h : x.toModel.toBits.toBitVec = y.toModel.toBits.toBitVec) : x = y := by
  obtain ⟨⟨⟨b⟩, _⟩⟩ := x
  obtain ⟨⟨⟨b'⟩, _⟩⟩ := y
  obtain rfl : b = b' := h
  rfl

/-- There is one pattern of infinity. -/
theorem eq_infinity32 {x : Float32} (h : x.toModel.unpack = .infinity .positive) : x = infinity32 := by
  have hfields := fields_of_infinity h
  have hinfinity : infinity32.toModel.unpack = .infinity .positive := by rfl
  have hfields' := fields_of_infinity hinfinity
  exact eq_of_pattern (eq_of_fields (hfields.1.trans hfields'.1.symm) (hfields.2.1.trans hfields'.2.1.symm)
    (hfields.2.2.trans hfields'.2.2.symm))

/-- Whatever is not the infinite value above zero is below it. -/
theorem lt_infinity_iff {x : UnpackedFloat} : x.lt (.infinity .positive) = true ↔
    x ≠ .notANumber ∧ x ≠ .infinity .positive := by
  cases x with
  | notANumber => exact iff_of_false Bool.false_ne_true fun h => h.1 rfl
  | infinity sign =>
    cases sign with
    | positive => exact iff_of_false Bool.false_ne_true fun h => h.2 rfl
    | negative => exact iff_of_true rfl ⟨nofun, nofun⟩
  | zero sign => exact iff_of_true rfl ⟨nofun, nofun⟩
  | finite sign m e hm => cases sign <;> exact iff_of_true rfl ⟨nofun, nofun⟩

instance : Scalar.Topped Float32 where
  isNaN_infinity := by rfl
  lt_or_eq_infinity x hx := by
    have hnumber : x.toModel.unpack ≠ .notANumber := fun hnan => by
      have hx : x.toModel.unpack.isNaN = false := hx
      rw [hnan] at hx
      cases hx
    by_cases htop : x.toModel.unpack = .infinity .positive
    · exact .inr (eq_infinity32 htop)
    · exact .inl (decide_eq_true_iff.mpr (decide_eq_true_iff.mpr (lt_infinity_iff.mpr ⟨hnumber, htop⟩)))

theorem zero_le_of_sign {x : UnpackedFloat} (h : signOf x = some .positive) :
    (UnpackedFloat.zero .positive).le x = true := by
  cases x with
  | notANumber => cases h
  | infinity sign =>
    obtain rfl := Option.some.inj h
    rfl
  | zero sign => rfl
  | finite sign m e hm =>
    obtain rfl := Option.some.inj h
    rfl

/-- A root is no number, a zero, or above zero. -/
theorem sqrt_cases (x : UnpackedFloat) (spec : Float.Model.Format) :
    x.sqrt spec = .notANumber ∨ (∃ sign, x.sqrt spec = .zero sign) ∨ signOf (x.sqrt spec) = some .positive := by
  cases x with
  | notANumber => exact .inl rfl
  | infinity sign =>
    cases sign with
    | positive => exact .inr (.inr rfl)
    | negative => exact .inl rfl
  | zero sign => exact .inr (.inl ⟨sign, rfl⟩)
  | finite sign m e hm =>
    cases sign with
    | positive => exact .inr (.inr signOf_roundWithAccuracy)
    | negative => exact .inl rfl

/-- A root that is a number is not negative. -/
theorem zero_le_sqrt {x : Float32} (h : Scalar.isNaN (Scalar.sqrt x) = false) : Scalar.le 0 (Scalar.sqrt x) = true := by
  obtain ⟨root, hroot⟩ : ∃ root, x.toModel.unpack.sqrt binary32 = root := ⟨_, rfl⟩
  have hunpack : (Scalar.sqrt x).toModel.unpack = unpack binary32 (pack binary32 root) := by
    rw [← hroot]
    rfl
  have hsign : signOf (Scalar.sqrt x).toModel.unpack = signOf root := by
    rw [hunpack]
    exact signOf_pack root
  have hle : (UnpackedFloat.zero .positive).le (Scalar.sqrt x).toModel.unpack = true := by
    rcases hroot ▸ sqrt_cases x.toModel.unpack binary32 with rfl | ⟨sign, rfl⟩ | hpositive
    · have hnan := eq_notANumber_of_none hsign
      have h : (Scalar.sqrt x).toModel.unpack.isNaN = false := h
      rw [hnan] at h
      cases h
    · rw [hunpack, unpack_pack_zero]
      rfl
    · exact zero_le_of_sign (hsign.trans hpositive)
  exact decide_eq_true_iff.mpr (decide_eq_true_iff.mpr hle)

/-! ## The least two -/

namespace Nearest

variable {S : Type} [Scalar S]

/-- Of some candidates, given by index and distance: the first of the nearest, and the least distance of all the others,
infinite if there are none. -/
structure TwoLeast (isCandidate : Nat → S → Prop) (n : Nearest S) : Prop where
  found : isCandidate n.index n.distance
  least : ∀ k d, isCandidate k d → Scalar.le n.distance d = true
  first : ∀ k d, isCandidate k d → k < n.index → Scalar.lt n.distance d = true
  next_least : ∀ k d, isCandidate k d → k ≠ n.index → Scalar.le n.next d = true
  next_attained : (∃ k d, isCandidate k d ∧ k ≠ n.index ∧ d = n.next)
    ∨ ((∀ k d, isCandidate k d → k = n.index) ∧ n.next = Scalar.infinity)

/-- The lesser of two numbers is the later one if that is below the other. -/
theorem least_cases [Scalar.Ordered S] {a b : S} (ha : Scalar.isNaN a = false) (hb : Scalar.isNaN b = false) :
    (Scalar.lt b a = true ∧ Scalar.least a b = b)
      ∨ (Scalar.lt b a = false ∧ Scalar.le a b = true ∧ Scalar.least a b = a) := by
  unfold Scalar.least
  rw [ha, hb]
  simp only [Bool.false_eq_true, if_false]
  cases hlt : Scalar.lt b a with
  | true => exact .inl ⟨rfl, if_pos rfl⟩
  | false =>
    have hle := (Scalar.Ordered.le_or_lt a b ha hb).resolve_right fun h => Bool.false_ne_true (hlt.symm.trans h)
    exact .inr ⟨rfl, hle, if_neg Bool.false_ne_true⟩

section

variable {cs : List (Nat × S)} {n : Nearest S} {c : Nat × S}

omit [Scalar S] in
/-- What holds of all candidates and of a new one. -/
theorem forall_mem_concat {P : Nat → S → Prop} (h : ∀ k d, (k, d) ∈ cs → P k d) (hc : P c.1 c.2) :
    ∀ k d, (k, d) ∈ cs ++ [c] → P k d := by
  intro k d hmem
  rcases List.mem_append.mp hmem with hmem | hmem
  · exact h k d hmem
  · obtain rfl := List.mem_singleton.mp hmem
    exact hc

/-- The next distance is a number. -/
theorem TwoLeast.isNaN_next [Scalar.Topped S] (hnumbers : ∀ q ∈ cs, Scalar.isNaN q.2 = false)
    (h : TwoLeast (fun k d => (k, d) ∈ cs) n) : Scalar.isNaN n.next = false := by
  rcases h.next_attained with ⟨k, d, hmem, -, hd⟩ | ⟨-, hnext⟩
  · rw [← hd]
    exact hnumbers (k, d) hmem
  · rw [hnext]
    exact Scalar.Topped.isNaN_infinity

variable [Scalar.Ordered S]

/-- The only candidate so far. -/
theorem twoLeast_singleton (hc : Scalar.isNaN c.2 = false) :
    TwoLeast (fun k d => (k, d) ∈ [c]) ⟨c.1, c.2, Scalar.infinity⟩ := by
  have honly : ∀ k d, (k, d) ∈ [c] → k = c.1 ∧ d = c.2 := by
    intro k d hmem
    obtain rfl := List.mem_singleton.mp hmem
    exact ⟨rfl, rfl⟩
  refine ⟨List.mem_singleton_self c, fun k d hmem => ?_, fun k d hmem hlt => ?_, fun k d hmem hne => ?_,
    .inr ⟨fun k d hmem => (honly k d hmem).1, rfl⟩⟩
  · rw [(honly k d hmem).2]
    exact Scalar.Ordered.le_self hc
  · exact absurd (honly k d hmem).1 (Nat.ne_of_lt hlt)
  · exact absurd (honly k d hmem).1 hne

/-- A candidate that is not nearer stays behind, and may be the next one. -/
theorem TwoLeast.concat_behind [Scalar.Topped S] (hnumbers : ∀ q ∈ cs, Scalar.isNaN q.2 = false)
    (h : TwoLeast (fun k d => (k, d) ∈ cs) n) (hc : Scalar.isNaN c.2 = false) (hindex : n.index < c.1)
    (hle : Scalar.le n.distance c.2 = true) :
    TwoLeast (fun k d => (k, d) ∈ cs ++ [c]) { n with next := Scalar.least n.next c.2 } := by
  have hfound : (n.index, n.distance) ∈ cs ++ [c] := List.mem_append_left _ h.found
  have hlast : (c.1, c.2) ∈ cs ++ [c] := List.mem_append_right _ (List.mem_singleton_self c)
  have hleast : ∀ k d, (k, d) ∈ cs ++ [c] → Scalar.le n.distance d = true := forall_mem_concat h.least hle
  have hfirst : ∀ k d, (k, d) ∈ cs ++ [c] → k < n.index → Scalar.lt n.distance d = true :=
    forall_mem_concat h.first fun hlt => absurd hlt (Nat.lt_asymm hindex)
  rcases least_cases (h.isNaN_next hnumbers) hc with ⟨hlt, hnext⟩ | ⟨hnot, habove, hnext⟩
  · rw [hnext]
    refine ⟨hfound, hleast, hfirst, forall_mem_concat ?_ fun _ => Scalar.Ordered.le_self hc,
      .inl ⟨c.1, c.2, hlast, hindex.ne', rfl⟩⟩
    intro k d hmem hne
    have hbelow := Scalar.Ordered.lt_of_lt_of_le _ _ _ hlt (h.next_least k d hmem hne)
    exact Scalar.Ordered.le_of_lt _ _ hbelow
  · rw [hnext]
    refine ⟨hfound, hleast, hfirst, forall_mem_concat h.next_least fun _ => habove, .inl ?_⟩
    rcases h.next_attained with ⟨k, d, hmem, hne, hd⟩ | ⟨-, hinfinity⟩
    · exact ⟨k, d, List.mem_append_left _ hmem, hne, hd⟩
    · -- there was no other one, and the new one is no nearer than infinity
      refine ⟨c.1, c.2, hlast, hindex.ne', ?_⟩
      rw [hinfinity] at hnot ⊢
      exact (Scalar.Topped.lt_or_eq_infinity _ hc).resolve_left fun hlt => Bool.false_ne_true (hnot.symm.trans hlt)

/-- A nearer candidate is found instead, and the one before it is the next one. -/
theorem TwoLeast.concat_ahead (h : TwoLeast (fun k d => (k, d) ∈ cs) n)
    (hnumbers : ∀ q ∈ cs, Scalar.isNaN q.2 = false) (hc : Scalar.isNaN c.2 = false) (hlast : ∀ q ∈ cs, q.1 < c.1)
    (hle : ¬ Scalar.le n.distance c.2 = true) :
    TwoLeast (fun k d => (k, d) ∈ cs ++ [c]) ⟨c.1, c.2, n.distance⟩ := by
  have habove : Scalar.lt c.2 n.distance = true :=
    (Scalar.Ordered.le_or_lt _ _ (hnumbers _ h.found) hc).resolve_left hle
  have hnearer : ∀ k d, (k, d) ∈ cs → Scalar.lt c.2 d = true := fun k d hmem =>
    Scalar.Ordered.lt_of_lt_of_le _ _ _ habove (h.least k d hmem)
  refine ⟨List.mem_append_right _ (List.mem_singleton_self c), forall_mem_concat ?_ (Scalar.Ordered.le_self hc),
    forall_mem_concat ?_ ?_, forall_mem_concat ?_ ?_,
    .inl ⟨n.index, n.distance, List.mem_append_left _ h.found, (hlast _ h.found).ne, rfl⟩⟩
  · intro k d hmem
    exact Scalar.Ordered.le_of_lt _ _ (hnearer k d hmem)
  · intro k d hmem _
    exact hnearer k d hmem
  · intro hlt
    exact absurd hlt (Nat.lt_irrefl c.1)
  · intro k d hmem _
    exact h.least k d hmem
  · intro hne
    exact absurd rfl hne

/-- What is held of some candidates: nothing before the first, and then the least two. -/
def HoldsTwo (cs : List (Nat × S)) : Option (Nearest S) → Prop
  | none => cs = []
  | some n => TwoLeast (fun k d => (k, d) ∈ cs) n

/-- **One more candidate.** -/
theorem HoldsTwo.step [Scalar.Topped S] {found : Option (Nearest S)} (h : HoldsTwo cs found)
    (hnumbers : ∀ q ∈ cs, Scalar.isNaN q.2 = false) (hc : Scalar.isNaN c.2 = false) (hlast : ∀ q ∈ cs, q.1 < c.1) :
    HoldsTwo (cs ++ [c]) (step found c) := by
  cases found with
  | none =>
    obtain rfl : cs = [] := h
    exact twoLeast_singleton hc
  | some n =>
    have h : TwoLeast (fun k d => (k, d) ∈ cs) n := h
    unfold Nearest.step
    dsimp only
    split
    case isTrue hle => exact h.concat_behind hnumbers hc (hlast _ h.found) hle
    case isFalse hle => exact h.concat_ahead hnumbers hc hlast hle

theorem holdsTwo_foldl [Scalar.Topped S] (h : cs.Pairwise fun a b => a.1 < b.1)
    (hnumbers : ∀ q ∈ cs, Scalar.isNaN q.2 = false) : HoldsTwo cs (cs.foldl Nearest.step none) := by
  induction cs using List.reverseRecOn with
  | nil => rfl
  | append_singleton cs c ih =>
    obtain ⟨hsorted, -, hlast⟩ := List.pairwise_append.mp h
    have hc := hnumbers c (List.mem_append_right _ (List.mem_singleton_self c))
    have hnumbers : ∀ q ∈ cs, Scalar.isNaN q.2 = false := fun q hq => hnumbers q (List.mem_append_left _ hq)
    rw [List.foldl_concat]
    exact (ih hsorted hnumbers).step hnumbers hc fun q hq => hlast q hq c (List.mem_singleton_self c)

end

/-- The candidates of a query: the features with a descriptor of its length, by index and distance. -/
def IsCandidate {P : Type} (query : Descriptor S) (fs : Features P S) (index : Nat) (distance : S) : Prop :=
  ∃ f, fs.entries[index]? = some f ∧ f.descriptor.length = query.length
    ∧ Scalar.sqrt (query.squaredDistance f.descriptor) = distance

/-- **A search among candidates at distances that are numbers.** -/
theorem twoLeast_among? [Scalar.Ordered S] [Scalar.Topped S] {P : Type} {query : Descriptor S} {fs : Features P S}
    (hdescribed : query.length ≠ 0) (hnumbers : ∀ k d, IsCandidate query fs k d → Scalar.isNaN d = false) :
    (among? query fs = none ↔ ∀ k d, ¬ IsCandidate query fs k d)
      ∧ ∀ n, among? query fs = some n → TwoLeast (IsCandidate query fs) n := by
  have hempty : ¬ query.isEmpty = true := fun hempty => hdescribed (eq_of_beq hempty)
  -- the loop runs over the features, its result is about the list of candidates
  have hcandidates : (fun k d => (k, d) ∈ candidates query fs) = IsCandidate query fs :=
    funext fun k => funext fun d => propext mem_candidates_iff
  have hfound : HoldsTwo (candidates query fs) (among? query fs) := by
    unfold among?
    rw [if_neg hempty]
    exact holdsTwo_foldl (pairwise_candidates query fs) fun q hq => hnumbers q.1 q.2 (mem_candidates_iff.mp hq)
  cases hamong : among? query fs with
  | none =>
    rw [hamong] at hfound
    refine ⟨iff_of_true rfl fun k d hmem => ?_, fun n hn => nomatch hn⟩
    rw [← hcandidates, (hfound : candidates query fs = [])] at hmem
    cases hmem
  | some n =>
    rw [hamong] at hfound
    have htwo : TwoLeast (IsCandidate query fs) n := hcandidates ▸ hfound
    refine ⟨iff_of_false (Option.some_ne_none n) fun hnone => hnone _ _ htwo.found, fun m hm => ?_⟩
    obtain rfl := Option.some.inj hm
    exact htwo

/-! ## The ratio test -/

section

variable {isCandidate : Nat → Float32 → Prop} {n : Nearest Float32}

/-- Whatever is infinite and not negative is infinity itself. -/
theorem isFinite_eq_false_iff {x : Float32} (h : Scalar.le 0 x = true) :
    Scalar.isFinite x = false ↔ x = Scalar.infinity := by
  constructor
  · intro hinfinite
    have hinfinite : x.toModel.unpack.isFinite = false := hinfinite
    obtain ⟨v, hreads⟩ := exists_reads h
    generalize hx : x.toModel.unpack = unpacked at hreads hinfinite
    cases hreads with
    | zero sign => cases hinfinite
    | finite hm _ => cases hinfinite
    | infinity => exact eq_infinity32 hx
  · rintro rfl
    rfl

/-- Nothing but infinity is as far as it. -/
theorem eq_infinity_of_le {x : Float32} (h : Scalar.le Scalar.infinity x = true) : x = Scalar.infinity := by
  obtain ⟨_, _, _, hplace, _⟩ := le_iff_place.mp h
  have hnumber : Scalar.isNaN x = false := exists_place_iff.mp ⟨_, hplace⟩
  rcases Scalar.Topped.lt_or_eq_infinity x hnumber with hlt | heq
  · have hself : Scalar.lt (Scalar.infinity : Float32) Scalar.infinity = true :=
      Scalar.Ordered.lt_of_le_of_lt _ _ _ h hlt
    exact absurd hself (by decide)
  · exact heq

/-- **The ratio test looks at all other candidates**: the nearest is below the share of each of them, or they are all
infinitely far. -/
theorem TwoLeast.isDistinct_iff {ratio : Float32} (hratio : Scalar.lt 0 ratio = true)
    (hfinite : Scalar.isFinite ratio = true) (hdistances : ∀ k d, isCandidate k d → Scalar.le 0 d = true)
    (h : TwoLeast isCandidate n) :
    n.isDistinct ratio = true ↔
      (∀ k d, isCandidate k d → k ≠ n.index → Scalar.lt n.distance (ratio * d) = true)
        ∨ ∀ k d, isCandidate k d → k ≠ n.index → d = Scalar.infinity := by
  have hnext : Scalar.le 0 n.next = true := by
    rcases h.next_attained with ⟨k, _, hmem, -, rfl⟩ | ⟨-, hinfinity⟩
    · exact hdistances k _ hmem
    · rw [hinfinity]
      rfl
  unfold isDistinct
  rw [Bool.or_eq_true, Bool.not_eq_true', isFinite_eq_false_iff hnext]
  -- the next distance stands for all others: it is the least of them and, if there are any, one of them
  constructor
  · rintro (hinfinity | hbelow)
    · right
      intro k d hmem hne
      have hle := h.next_least k d hmem hne
      rw [hinfinity] at hle
      exact eq_infinity_of_le hle
    · left
      intro k d hmem hne
      exact Scalar.Ordered.lt_of_lt_of_le _ _ _ hbelow
        (mul_le_mul_of_scalar_le hratio hfinite hnext (h.next_least k d hmem hne))
  · intro hall
    rcases h.next_attained with ⟨k, d, hmem, hne, rfl⟩ | ⟨-, hinfinity⟩
    · rcases hall with hbelow | hinfinite
      · exact .inr (hbelow k _ hmem hne)
      · exact .inl (hinfinite k _ hmem hne)
    · exact .inl hinfinity

end

/-- A share that passes validation is finite and above zero. -/
theorem ratio_of_validate {settings : MatchSettings Float32} (h : settings.validate = .ok ()) :
    Scalar.lt 0 settings.ratio = true ∧ Scalar.isFinite settings.ratio = true := by
  have hrange : (Scalar.lt 0 settings.ratio && Scalar.le settings.ratio 1) = true := by
    by_contra hout
    unfold MatchSettings.validate at h
    rw [Bool.eq_false_of_not_eq_true hout] at h
    cases h
  obtain ⟨hpositive, hle⟩ := Bool.and_eq_true_iff.mp hrange
  refine ⟨hpositive, ?_⟩
  by_contra hinfinite
  have hnonneg : Scalar.le 0 settings.ratio = true := Scalar.Ordered.le_of_lt _ _ hpositive
  have htop := (isFinite_eq_false_iff hnonneg).mp (Bool.eq_false_of_not_eq_true hinfinite)
  rw [htop] at hle
  exact absurd hle (by decide)

end Nearest

/-- **A search finds the least two.** For every described query and all features at distances that are numbers, infinite
ones included: nothing is found exactly if no feature has a descriptor of the length of the query; what is found is the
first of the nearest, with the least distance of all the others next to it, infinite if there are none. And with a
validated share the ratio test passes exactly if the nearest is below that share of every other distance, or every
other one is infinite. -/
theorem among?_two_least {P : Type} {settings : MatchSettings Float32} {query : Descriptor Float32}
    {fs : Features P Float32} (hvalid : settings.validate = .ok ()) (hdescribed : query.length ≠ 0)
    (hnumbers : ∀ k d, Nearest.IsCandidate query fs k d → Scalar.isNaN d = false) :
    (Nearest.among? query fs = none ↔ ∀ f ∈ fs.entries, f.descriptor.length ≠ query.length)
      ∧ ∀ n, Nearest.among? query fs = some n →
        Nearest.TwoLeast (Nearest.IsCandidate query fs) n
          ∧ (n.isDistinct settings.ratio = true ↔
            (∀ k d, Nearest.IsCandidate query fs k d → k ≠ n.index →
                Scalar.lt n.distance (settings.ratio * d) = true)
              ∨ ∀ k d, Nearest.IsCandidate query fs k d → k ≠ n.index → d = Scalar.infinity) := by
  obtain ⟨hnone, hsome⟩ := Nearest.twoLeast_among? hdescribed hnumbers
  obtain ⟨hpositive, hfinite⟩ := Nearest.ratio_of_validate hvalid
  have hdistances : ∀ k d, Nearest.IsCandidate query fs k d → Scalar.le 0 d = true := by
    rintro k d hcandidate
    have hnumber := hnumbers k d hcandidate
    obtain ⟨f, -, -, rfl⟩ := hcandidate
    exact zero_le_sqrt hnumber
  refine ⟨hnone.trans ⟨fun h f hf hlength => ?_, fun h k d hcandidate => ?_⟩, fun n hn => ⟨hsome n hn, ?_⟩⟩
  · obtain ⟨k, hk, rfl⟩ := Array.getElem_of_mem hf
    exact h k _ ⟨_, Array.getElem?_eq_getElem hk, hlength, rfl⟩
  · obtain ⟨f, hf, hlength, -⟩ := hcandidate
    exact h f (Array.mem_of_getElem? hf) hlength
  · exact (hsome n hn).isDistinct_iff hpositive hfinite hdistances

/-- Three features to choose from, and one with a longer descriptor. -/
def mixedLengths : Features Unit Float32 :=
  let described (xs : List Float32) : Feature Unit Float32 := ⟨(), (Descriptor.ofList? xs).getD .empty⟩
  ⟨#[described [0], described [1, 1], described [3], described [5]], 4⟩

/-- A query next to the first of them. -/
def firstQuery : Descriptor Float32 := (Descriptor.ofList? [1]).getD .empty

theorem isNaN_mixedLengths (k : Nat) (d : Float32) (h : Nearest.IsCandidate firstQuery mixedLengths k d) :
    Scalar.isNaN d = false := by
  have hall : (Nearest.candidates firstQuery mixedLengths).all (fun q => !Scalar.isNaN q.2) = true := by
    decide +kernel
  have hmem := List.all_eq_true.mp hall (k, d) (Nearest.mem_candidates_iff.mpr h)
  exact Bool.not_eq_true' _ ▸ hmem

/-- The first feature is at distance one, and the next at distance two. -/
theorem among?_mixedLengths :
    (MatchSettings.default : MatchSettings Float32).validate = .ok () ∧ firstQuery.length ≠ 0
      ∧ (∀ k d, Nearest.IsCandidate firstQuery mixedLengths k d → Scalar.isNaN d = false)
      ∧ ∃ n, Nearest.among? firstQuery mixedLengths = some n ∧ n.index = 0
        ∧ Nearest.TwoLeast (Nearest.IsCandidate firstQuery mixedLengths) n
        ∧ (n.isDistinct (MatchSettings.default : MatchSettings Float32).ratio = true ↔
          (∀ k d, Nearest.IsCandidate firstQuery mixedLengths k d → k ≠ n.index →
              Scalar.lt n.distance ((MatchSettings.default : MatchSettings Float32).ratio * d) = true)
            ∨ ∀ k d, Nearest.IsCandidate firstQuery mixedLengths k d → k ≠ n.index → d = Scalar.infinity) := by
  have hvalid : (MatchSettings.default : MatchSettings Float32).validate = .ok () := by rfl
  have hdescribed : firstQuery.length ≠ 0 := by decide +kernel
  have hindex : (Nearest.among? firstQuery mixedLengths).map Nearest.index = some 0 := by decide +kernel
  obtain ⟨n, hn, hzero⟩ := Option.map_eq_some_iff.mp hindex
  obtain ⟨htwo, hratio⟩ := (among?_two_least hvalid hdescribed isNaN_mixedLengths).2 n hn
  exact ⟨hvalid, hdescribed, isNaN_mixedLengths, n, hn, hzero, htwo, hratio⟩

end StereoMapping
