import Mathlib.Data.List.Basic
import Mathlib.Data.List.Induction
import StereoMapping.Keypoint.Matching
import StereoMapping.Proofs.Number.Order

/-!
# `Proofs.Keypoint.Matching` — cross-checked matches are one-to-one

Every described source keypoint searches the sink, and all that the settings do is to reject some of what these
searches find: by the ratio of the distances, by a bound on the distance, and by the search back. So matches of
stricter settings are among those of looser ones. That no sink keypoint is matched twice is not looked after
anywhere: it holds because the search back from a keypoint finds one index, whatever the distances are, equal ones
and non-numbers included.

A search holds the least of the candidates so far, the first one if there are several. A distance that is not a number
is neither above nor below what is held. It takes its place, and gives it to the candidate after it, so that the search
in effect begins again there.

## Contents
- `Nearest.IsLeast`, `Nearest.Holds`, `Nearest.Holds.step`, `Nearest.holds_among?`: what a search finds.
- `nearestOf?`, `searches`, `MatchSettings.accepts`, `matchDescriptors_eq`: matches as accepted searches.
- `DescriptorMatch.Joins`, `DescriptorMatch.IsMutual`: what is matched; `matchDescriptors_crossCheck`,
  `matchDescriptors_maxDistance`: single settings; `matchDescriptors_one_to_one`.
-/

namespace StereoMapping

variable {P S : Type}

theorem Features.mem_zipIdx_entries {fs : Features P S} {f : Feature P S} {index : Nat} :
    (f, index) ∈ fs.entries.toList.zipIdx ↔ fs.entries[index]? = some f := by
  rw [List.mk_mem_zipIdx_iff_getElem?, Array.getElem?_toList]

theorem Features.pairwise_zipIdx_entries (fs : Features P S) :
    fs.entries.toList.zipIdx.Pairwise fun a b => a.2 < b.2 := by
  rw [← List.pairwise_map, List.zipIdx_map_snd]
  exact List.pairwise_lt_range'

variable [Scalar S]

/-! ## A search -/

namespace Nearest

theorem mem_candidates_iff {query : Descriptor S} {fs : Features P S} {index : Nat} {distance : S} :
    (index, distance) ∈ candidates query fs ↔
      ∃ f, fs.entries[index]? = some f ∧ f.descriptor.length = query.length
        ∧ Scalar.sqrt (query.squaredDistance f.descriptor) = distance := by
  unfold candidates
  rw [List.mem_filterMap]
  constructor
  · rintro ⟨⟨f, k⟩, hmem, hsome⟩
    rw [Option.ite_none_right_eq_some] at hsome
    obtain ⟨hlength, hpair⟩ := hsome
    obtain ⟨rfl, rfl⟩ := Prod.mk.inj (Option.some.inj hpair)
    exact ⟨f, Features.mem_zipIdx_entries.mp hmem, hlength, rfl⟩
  · rintro ⟨f, hentry, hlength, rfl⟩
    exact ⟨(f, index), Features.mem_zipIdx_entries.mpr hentry, if_pos hlength⟩

theorem pairwise_candidates (query : Descriptor S) (fs : Features P S) :
    (candidates query fs).Pairwise fun a b => a.1 < b.1 := by
  refine fs.pairwise_zipIdx_entries.filterMap _ ?_
  intro a a' hlt b hb b' hb'
  obtain ⟨-, hb⟩ := Option.ite_none_right_eq_some.mp hb
  obtain ⟨-, hb'⟩ := Option.ite_none_right_eq_some.mp hb'
  rw [← Option.some.inj hb, ← Option.some.inj hb']
  exact hlt

/-- Only a described query finds something. -/
theorem length_ne_zero_of_among? {query : Descriptor S} {fs : Features P S} {n : Nearest S}
    (h : among? query fs = some n) : query.length ≠ 0 := by
  unfold among? at h
  obtain ⟨hdescribed, -⟩ := Option.ite_none_left_eq_some.mp h
  exact fun hzero => hdescribed (beq_iff_eq.mpr hzero)

/-- No candidate is nearer than the one found, and no earlier one is as near. Candidates before a distance that is
not a number are forgotten. -/
def IsLeast (cs : List (Nat × S)) (n : Nearest S) : Prop :=
  ∀ q ∈ cs, (∀ c ∈ cs, q.1 ≤ c.1 → Scalar.isNaN c.2 = false) →
    Scalar.le n.distance q.2 = true ∧ (q.1 < n.index → Scalar.lt n.distance q.2 = true)

/-- What is held after some candidates: nothing before the first, and then the least one of them. -/
def Holds (cs : List (Nat × S)) : Option (Nearest S) → Prop
  | none => cs = []
  | some n => (n.index, n.distance) ∈ cs ∧ IsLeast cs n

/-- The last candidate stays behind the one that was found. -/
theorem IsLeast.concat_behind {cs : List (Nat × S)} {n : Nearest S} (h : IsLeast cs n) {c : Nat × S}
    (hindex : n.index < c.1) (hle : Scalar.le n.distance c.2 = true) : IsLeast (cs ++ [c]) n := by
  intro q hq hnumbers
  rcases List.mem_append.mp hq with hq | hq
  · exact h q hq fun c hc => hnumbers c (List.mem_append_left _ hc)
  · obtain rfl := List.mem_singleton.mp hq
    exact ⟨hle, fun hlt => absurd hlt (Nat.lt_asymm hindex)⟩

section

variable [Scalar.Ordered S]

/-- The last candidate is found instead of the one before. -/
theorem IsLeast.concat_ahead {cs : List (Nat × S)} {n : Nearest S} (h : IsLeast cs n) {c : Nat × S}
    (hlast : ∀ q ∈ cs, q.1 < c.1) (hle : ¬ Scalar.le n.distance c.2 = true) (next : S) :
    IsLeast (cs ++ [c]) ⟨c.1, c.2, next⟩ := by
  intro q hq hnumbers
  have hnumber : Scalar.isNaN c.2 = false := by
    refine hnumbers c (List.mem_append_right _ (List.mem_singleton_self c)) ?_
    rcases List.mem_append.mp hq with hq | hq
    · exact (hlast q hq).le
    · exact List.mem_singleton.mp hq ▸ Nat.le_refl _
  rcases List.mem_append.mp hq with hq | hq
  · -- the one before is a number, as it is compared with others, and so it is above the last
    have hbefore := (h q hq fun c hc => hnumbers c (List.mem_append_left _ hc)).1
    have habove := (Scalar.Ordered.le_or_lt _ _ (Scalar.Ordered.isNaN_of_le _ _ hbefore) hnumber).resolve_left hle
    have hlt := Scalar.Ordered.lt_of_lt_of_le _ _ _ habove hbefore
    exact ⟨Scalar.Ordered.le_of_lt _ _ hlt, fun _ => hlt⟩
  · obtain rfl := List.mem_singleton.mp hq
    exact ⟨Scalar.Ordered.le_self hnumber, fun hlt => absurd hlt (Nat.lt_irrefl _)⟩

/-- **One more candidate.** -/
theorem Holds.step {cs : List (Nat × S)} {found : Option (Nearest S)} (h : Holds cs found) {c : Nat × S}
    (hlast : ∀ q ∈ cs, q.1 < c.1) : Holds (cs ++ [c]) (step found c) := by
  have hmem : c ∈ cs ++ [c] := List.mem_append_right _ (List.mem_singleton_self c)
  cases found with
  | none =>
    obtain rfl : cs = [] := h
    refine ⟨hmem, ?_⟩
    intro q hq hnumbers
    obtain rfl := List.mem_singleton.mp hq
    exact ⟨Scalar.Ordered.le_self (hnumbers q hq (Nat.le_refl _)), fun hlt => absurd hlt (Nat.lt_irrefl _)⟩
  | some n =>
    obtain ⟨hfound, hleast⟩ := h
    unfold Nearest.step
    dsimp only
    split
    case isTrue hle => exact ⟨List.mem_append_left _ hfound, hleast.concat_behind (hlast _ hfound) hle⟩
    case isFalse hle => exact ⟨hmem, hleast.concat_ahead hlast hle _⟩

theorem holds_foldl {cs : List (Nat × S)} (h : cs.Pairwise fun a b => a.1 < b.1) :
    Holds cs (cs.foldl Nearest.step none) := by
  induction cs using List.reverseRecOn with
  | nil => rfl
  | append_singleton cs c ih =>
    obtain ⟨hsorted, -, hlast⟩ := List.pairwise_append.mp h
    rw [List.foldl_concat]
    exact (ih hsorted).step fun q hq => hlast q hq c (List.mem_singleton_self c)

/-- **A search** of a described query finds the least of its candidates, or there is none. -/
theorem holds_among? {query : Descriptor S} {fs : Features P S} (h : query.length ≠ 0) :
    Holds (candidates query fs) (among? query fs) := by
  have hdescribed : ¬ query.isEmpty = true := fun hempty => h (eq_of_beq hempty)
  unfold among?
  rw [if_neg hdescribed]
  exact holds_foldl (pairwise_candidates query fs)

/-- What is found is a candidate. -/
theorem mem_candidates_of_among? {query : Descriptor S} {fs : Features P S} {n : Nearest S}
    (h : among? query fs = some n) : (n.index, n.distance) ∈ candidates query fs := by
  have hholds : Holds (candidates query fs) (among? query fs) := holds_among? (length_ne_zero_of_among? h)
  rw [h] at hholds
  exact hholds.1

end

end Nearest

/-- What the query of an index finds among the candidates. -/
def nearestOf? (queries candidates : Features P S) (query : Nat) : Option (Nearest S) :=
  queries.entries[query]?.bind fun f => Nearest.among? f.descriptor candidates

theorem choosesBack_iff {source sink : Features P S} {query found : Nat} :
    choosesBack source sink query found = true ↔ (nearestOf? sink source found).map Nearest.index = some query := by
  unfold choosesBack nearestOf?
  cases sink.entries[found]? with
  | none => simp
  | some f => cases h : Nearest.among? f.descriptor source <;> simp [h]

/-! ## Matches as accepted searches -/

/-- The queries that find something, with what they find, in their order. -/
def searches (queries candidates : Features P S) : List (Nat × Nearest S) :=
  queries.entries.toList.zipIdx.filterMap fun (f, query) =>
    (Nearest.among? f.descriptor candidates).map fun n => (query, n)

theorem mem_searches_iff {queries candidates : Features P S} {query : Nat} {n : Nearest S} :
    (query, n) ∈ searches queries candidates ↔ nearestOf? queries candidates query = some n := by
  unfold searches nearestOf?
  rw [List.mem_filterMap, Option.bind_eq_some_iff]
  constructor
  · rintro ⟨⟨f, k⟩, hmem, hsome⟩
    obtain ⟨n', hn, hpair⟩ := Option.map_eq_some_iff.mp hsome
    obtain ⟨rfl, rfl⟩ := Prod.mk.inj hpair
    exact ⟨f, Features.mem_zipIdx_entries.mp hmem, hn⟩
  · rintro ⟨f, hentry, hn⟩
    exact ⟨(f, query), Features.mem_zipIdx_entries.mpr hentry, Option.map_eq_some_iff.mpr ⟨n, hn, rfl⟩⟩

theorem pairwise_searches (queries candidates : Features P S) :
    (searches queries candidates).Pairwise fun a b => a.1 < b.1 := by
  refine queries.pairwise_zipIdx_entries.filterMap _ ?_
  intro a a' hlt b hb b' hb'
  obtain ⟨n, -, rfl⟩ := Option.map_eq_some_iff.mp hb
  obtain ⟨n', -, rfl⟩ := Option.map_eq_some_iff.mp hb'
  exact hlt

/-- Whether a search passes all tests. -/
def MatchSettings.accepts (settings : MatchSettings S) (source sink : Features P S) (found : Nat × Nearest S) :
    Bool :=
  found.2.isDistinct settings.ratio && found.2.isWithin settings.maxDistance
    && (!settings.crossCheck || choosesBack source sink found.1 found.2.index)

/-- The match that a search proposes. -/
def DescriptorMatch.ofSearch (found : Nat × Nearest S) : DescriptorMatch S :=
  ⟨found.1, found.2.index, found.2.distance⟩

theorem matchDescriptors_eq (settings : MatchSettings S) (source sink : Features P S) :
    matchDescriptors settings source sink
      = ((searches source sink).filter (settings.accepts source sink)).map DescriptorMatch.ofSearch := by
  unfold matchDescriptors searches
  rw [List.filter_filterMap, List.map_filterMap]
  apply List.filterMap_congr
  rintro ⟨f, query⟩ -
  unfold matchDescriptor?
  dsimp only
  cases Nearest.among? f.descriptor sink with
  | none => rfl
  | some n =>
    rw [Option.map_some, Option.filter_some]
    by_cases haccepts : settings.accepts source sink (query, n) = true
    · rw [if_pos haccepts]
      exact if_pos haccepts
    · rw [if_neg haccepts]
      exact if_neg haccepts

theorem mem_matchDescriptors_iff {settings : MatchSettings S} {source sink : Features P S} {m : DescriptorMatch S} :
    m ∈ matchDescriptors settings source sink ↔
      ∃ n, nearestOf? source sink m.source = some n ∧ settings.accepts source sink (m.source, n) = true
        ∧ DescriptorMatch.ofSearch (m.source, n) = m := by
  rw [matchDescriptors_eq, List.mem_map]
  constructor
  · rintro ⟨⟨query, n⟩, hmem, rfl⟩
    rw [List.mem_filter, mem_searches_iff] at hmem
    exact ⟨n, hmem.1, hmem.2, rfl⟩
  · rintro ⟨n, hn, haccepts, hm⟩
    exact ⟨(m.source, n), List.mem_filter.mpr ⟨mem_searches_iff.mpr hn, haccepts⟩, hm⟩

/-- Of stricter tests the matches are those of the looser ones that pass them too. -/
theorem matchDescriptors_sublist {strict loose : MatchSettings S} {source sink : Features P S}
    (h : ∀ found, strict.accepts source sink found = true → loose.accepts source sink found = true) :
    (matchDescriptors strict source sink).Sublist (matchDescriptors loose source sink) := by
  rw [matchDescriptors_eq, matchDescriptors_eq]
  exact (List.monotone_filter_right _ h).map _

/-! ## What is matched -/

namespace DescriptorMatch

/-- The match is of two described keypoints, with descriptors of one length. -/
def Joins (source sink : Features P S) (m : DescriptorMatch S) : Prop :=
  ∃ f ∈ source.entries[m.source]?, ∃ g ∈ sink.entries[m.sink]?,
    f.descriptor.length = g.descriptor.length ∧ f.descriptor.length ≠ 0

/-- Each of the two keypoints finds the other. -/
def IsMutual (source sink : Features P S) (m : DescriptorMatch S) : Prop :=
  (nearestOf? source sink m.source).map Nearest.index = some m.sink
    ∧ (nearestOf? sink source m.sink).map Nearest.index = some m.source

instance (source sink : Features P S) (m : DescriptorMatch S) : Decidable (m.IsMutual source sink) :=
  inferInstanceAs (Decidable (_ ∧ _))

/-- A sink keypoint belongs to one mutual match only, since it finds one source keypoint only. -/
theorem IsMutual.source_eq {source sink : Features P S} {a b : DescriptorMatch S} (ha : a.IsMutual source sink)
    (hb : b.IsMutual source sink) (h : a.sink = b.sink) : a.source = b.source := by
  have hback := ha.2
  rw [h, hb.2] at hback
  exact (Option.some.inj hback).symm

end DescriptorMatch

section

variable {settings : MatchSettings S} {source sink : Features P S}

theorem pairwise_matchDescriptors :
    (matchDescriptors settings source sink).Pairwise fun a b => a.source < b.source := by
  rw [matchDescriptors_eq, List.pairwise_map]
  exact (pairwise_searches source sink).filter _

theorem joins_of_mem_matchDescriptors [Scalar.Ordered S] {m : DescriptorMatch S} (h : m ∈ matchDescriptors settings source sink) :
    m.Joins source sink := by
  obtain ⟨n, hn, -, hm⟩ := mem_matchDescriptors_iff.mp h
  obtain ⟨f, hf, hfound⟩ := Option.bind_eq_some_iff.mp hn
  obtain ⟨g, hg, hlength, -⟩ := Nearest.mem_candidates_iff.mp (Nearest.mem_candidates_of_among? hfound)
  have hsink : n.index = m.sink := congrArg DescriptorMatch.sink hm
  exact ⟨f, hf, g, hsink ▸ hg, hlength.symm, Nearest.length_ne_zero_of_among? hfound⟩

/-- **The cross check keeps the mutual matches**, and no other. -/
theorem matchDescriptors_crossCheck :
    matchDescriptors { settings with crossCheck := true } source sink
      = (matchDescriptors { settings with crossCheck := false } source sink).filter
          fun m => decide (m.IsMutual source sink) := by
  rw [matchDescriptors_eq, matchDescriptors_eq, List.filter_map, List.filter_filter]
  refine congrArg _ (List.filter_congr ?_)
  rintro ⟨query, n⟩ hmem
  have hfinds : (nearestOf? source sink query).map Nearest.index = some n.index :=
    congrArg (Option.map Nearest.index) (mem_searches_iff.mp hmem)
  have hback : choosesBack source sink query n.index
      = decide ((DescriptorMatch.ofSearch (query, n)).IsMutual source sink) :=
    Bool.eq_iff_iff.mpr (choosesBack_iff.trans
      (Iff.trans ⟨fun h => ⟨hfinds, h⟩, fun h => h.2⟩ decide_eq_true_iff.symm))
  simp [MatchSettings.accepts, hback, Bool.and_comm]

theorem nodup_sinks_crossCheck :
    ((matchDescriptors { settings with crossCheck := true } source sink).map DescriptorMatch.sink).Nodup := by
  rw [List.nodup_iff_pairwise_ne, List.pairwise_map]
  refine pairwise_matchDescriptors.imp_of_mem ?_
  intro a b ha hb hlt hsink
  rw [matchDescriptors_crossCheck, List.mem_filter, decide_eq_true_iff] at ha hb
  exact absurd (ha.2.source_eq hb.2 hsink) (Nat.ne_of_lt hlt)

/-- A search that is accepted with a bound is accepted with one that lets more through. -/
theorem matchDescriptors_maxDistance {strict loose : Option S}
    (h : ∀ n : Nearest S, n.isWithin strict = true → n.isWithin loose = true) :
    (matchDescriptors { settings with maxDistance := strict } source sink).Sublist
      (matchDescriptors { settings with maxDistance := loose } source sink) := by
  apply matchDescriptors_sublist
  intro found haccepts
  simp only [MatchSettings.accepts, Bool.and_eq_true] at haccepts ⊢
  exact ⟨⟨haccepts.1.1, h _ haccepts.1.2⟩, haccepts.2⟩

end

/-- What is within the lower of two bounds is within the higher. -/
theorem Nearest.isWithin_of_le [Scalar.Ordered S] {low high : S} (h : Scalar.le low high = true) (n : Nearest S)
    (hn : n.isWithin (some low) = true) : n.isWithin (some high) = true := by
  unfold isWithin at hn ⊢
  rw [Bool.not_eq_true'] at hn ⊢
  apply Bool.eq_false_of_not_eq_true
  intro habove
  rw [Scalar.Ordered.lt_of_le_of_lt _ _ _ h habove] at hn
  cases hn

/-- **Matching.** A described keypoint finds the least of the candidates of its descriptor length, if there are any,
and a match is a search that passes the tests. Matches come in the order of the source keypoints, each at most
once, and join described keypoints with descriptors of one length. With the cross check no sink is matched twice, and
the matches are the mutual ones among those without it. A bound on the distance, and a lower one still, only removes
matches. -/
theorem matchDescriptors_one_to_one (settings : MatchSettings Float32) (source sink : Features P Float32) :
    (∀ query f, source.entries[query]? = some f → f.descriptor.length ≠ 0 →
        Nearest.Holds (Nearest.candidates f.descriptor sink) (nearestOf? source sink query))
      ∧ (∀ m, m ∈ matchDescriptors settings source sink ↔
          ∃ n, nearestOf? source sink m.source = some n ∧ settings.accepts source sink (m.source, n) = true
            ∧ DescriptorMatch.ofSearch (m.source, n) = m)
      ∧ ((matchDescriptors settings source sink).Pairwise fun a b => a.source < b.source)
      ∧ (∀ m ∈ matchDescriptors settings source sink, m.Joins source sink)
      ∧ ((matchDescriptors { settings with crossCheck := true } source sink).map DescriptorMatch.sink).Nodup
      ∧ (∀ m ∈ matchDescriptors { settings with crossCheck := true } source sink, m.IsMutual source sink)
      ∧ matchDescriptors { settings with crossCheck := true } source sink
          = (matchDescriptors { settings with crossCheck := false } source sink).filter
              (fun m => decide (m.IsMutual source sink))
      ∧ (∀ bound, (matchDescriptors { settings with maxDistance := some bound } source sink).Sublist
          (matchDescriptors { settings with maxDistance := none } source sink))
      ∧ ∀ low high, Scalar.le low high = true →
          (matchDescriptors { settings with maxDistance := some low } source sink).Sublist
            (matchDescriptors { settings with maxDistance := some high } source sink) := by
  refine ⟨?_, fun m => mem_matchDescriptors_iff, pairwise_matchDescriptors, ?_, nodup_sinks_crossCheck, ?_,
    matchDescriptors_crossCheck, ?_, ?_⟩
  · intro query f hf hdescribed
    unfold nearestOf?
    rw [hf]
    exact Nearest.holds_among? hdescribed
  · intro m hm
    exact joins_of_mem_matchDescriptors hm
  · intro m hm
    rw [matchDescriptors_crossCheck, List.mem_filter, decide_eq_true_iff] at hm
    exact hm.2
  · intro bound
    exact matchDescriptors_maxDistance fun _ _ => rfl
  · intro low high h
    exact matchDescriptors_maxDistance (Nearest.isWithin_of_le h)

/-- Two keypoints prefer the only one of the other image, which prefers the second. -/
def oneSided : Features Unit Float32 × Features Unit Float32 :=
  let described (x : Float32) : Feature Unit Float32 := ⟨(), (Descriptor.ofList? [x]).getD .empty⟩
  (⟨#[described 0, described 1], 1⟩, ⟨#[described 2], 1⟩)

example : (matchDescriptors .default oneSided.1 oneSided.2).map (fun m => (m.source, m.sink)) = [(1, 0)] := by
  decide +kernel

end StereoMapping
