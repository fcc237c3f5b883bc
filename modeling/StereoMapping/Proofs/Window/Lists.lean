import Mathlib.Logic.Function.Basic
import StereoMapping.Proofs.Window.History
import StereoMapping.Proofs.Window.Removal

/-!
# `Proofs.Window.Lists` — a history is a family of bounded lists

What a client of a history has to know of it is an independent list for the images and for each category of
each other kind, newest entry first. An addition conses onto one of them and keeps what the size allows; a
removal erases an index, or the last entry, of all of them. `HistoryLists` says just that, and a history that
went through any series of edits counts and answers as the lists do that went through the same edits.

## Contents
- `HistoryEdit`, `History.edit`: the edits of a history.
- `HistoryLists`, `HistoryLists.edit`: the same edits of lists.
- `History.Keeps`: the invariant; `Keeps.edit`, `keeps_edits`: one edit, then any series of them.
- `Answers`, `History.Shows`: what is counted and read; `history_is_lists`.
-/

namespace StereoMapping

variable {S : Type}

/-! ## Edits -/

/-- A change of a history. -/
inductive HistoryEdit (S : Type) where
  | addImages (left right : Frame)
  | addFeatures (category : String) (features : Features (Vec2 S) S)
  | addMatches (category : String) (correspondences : Correspondences (Vec2 S) S)
  | addCloud (category : String) (cloud : Cloud S)
  | removeEntry (steps : Nat)
  | removeOldestEntry

/-- The history after an edit. -/
def History.edit (h : History S) : HistoryEdit S → History S
  | .addImages left right => h.addImages left right
  | .addFeatures category features => h.addFeatures category features
  | .addMatches category correspondences => h.addMatches category correspondences
  | .addCloud category cloud => h.addCloud category cloud
  | .removeEntry steps => h.removeEntry steps
  | .removeOldestEntry => h.removeOldestEntry

/-- A list for the images and for each category of every other kind, newest entry first. -/
structure HistoryLists (S : Type) where
  images : List (Frame × Frame)
  features : String → List (Features (Vec2 S) S)
  correspondences : String → List (Correspondences (Vec2 S) S)
  clouds : String → List (Cloud S)

namespace HistoryLists

def empty : HistoryLists S := ⟨[], fun _ => [], fun _ => [], fun _ => []⟩

/-- A new newest entry of one category, whose list keeps at most `size` entries. -/
def add {α : Type} (size : Nat) (lists : String → List α) (category : String) (a : α) : String → List α :=
  Function.update lists category ((a :: lists category).take size)

/-- One change made to every list. -/
def mapLists (l : HistoryLists S) (change : {α : Type} → List α → List α) : HistoryLists S where
  images := change l.images
  features category := change (l.features category)
  correspondences category := change (l.correspondences category)
  clouds category := change (l.clouds category)

/-- The lists after an edit. Erasing an index leaves a list alone that does not reach it. -/
def edit (size : Nat) (l : HistoryLists S) : HistoryEdit S → HistoryLists S
  | .addImages left right => { l with images := ((left, right) :: l.images).take size }
  | .addFeatures category features => { l with features := add size l.features category features }
  | .addMatches category correspondences =>
    { l with correspondences := add size l.correspondences category correspondences }
  | .addCloud category cloud => { l with clouds := add size l.clouds category cloud }
  | .removeEntry steps => l.mapLists fun xs => xs.eraseIdx steps
  | .removeOldestEntry => l.mapLists List.dropLast

end HistoryLists

/-! ## Every ring stands for its list -/

namespace Categories

variable {α : Type} {rings : Categories α} {size : Nat} {lists : String → List α}

/-- An addition to one category is an addition to its list. -/
theorem holds_add (h : ∀ c, rings.Holds size c (lists c)) (category : String) (a : α) (c : String) :
    (rings.push size category a).Holds size c (HistoryLists.add size lists category a c) := by
  unfold HistoryLists.add
  by_cases hc : c = category
  · subst hc
    rw [Function.update_self]
    exact (h c).push a
  · rw [Function.update_of_ne hc]
    exact (h c).push_ne hc

/-- A change of every ring is that change of every list, if it leaves rings without entries as they are. -/
theorem Holds.map {edit : Ring α → Ring α} {change : List α → List α} {c : String} {xs : List α}
    (h : rings.Holds size c xs) (hnew : edit (.create size) = .create size)
    (hcapacity : ∀ r : Ring α, (edit r).capacity = r.capacity)
    (hedit : ∀ (r : Ring α) (ys : List α), r.Holds ys → (edit r).Holds (change ys)) :
    Categories.Holds (rings.map fun _ ring => edit ring) size c (change xs) := by
  have hring : Categories.ringOf (rings.map fun _ ring => edit ring) size c
      = edit (rings.ringOf size c) := by
    unfold ringOf
    rw [Std.HashMap.getElem?_map]
    cases rings[c]? with
    | none => exact hnew.symm
    | some ring => rfl
  constructor
  · rw [hring, hcapacity]
    exact h.capacity_eq
  · rw [hring]
    exact hedit _ _ h.holds

end Categories

/-- A ring without entries has none to remove. -/
theorem Ring.remove_create {α : Type} {size steps : Nat} :
    (Ring.create size : Ring α).remove steps = .create size :=
  if_pos (Nat.zero_le steps)

theorem Ring.removeOldest_create {α : Type} {size : Nat} :
    (Ring.create size : Ring α).removeOldest = .create size := if_pos rfl

namespace History

/-- **A history keeps lists**: every ring of it stands for its list, and has `size` slots. -/
structure Keeps (h : History S) (size : Nat) (l : HistoryLists S) : Prop where
  size_eq : h.size = size
  images_capacity : h.images.capacity = size
  images : h.images.Holds l.images
  features : ∀ c, h.featureRings.Holds size c (l.features c)
  correspondences : ∀ c, h.matchRings.Holds size c (l.correspondences c)
  clouds : ∀ c, h.cloudRings.Holds size c (l.clouds c)

/-- One change of all rings and all lists. -/
theorem Keeps.mapRings {h : History S} {size : Nat} {l : HistoryLists S} (hk : h.Keeps size l)
    (edit : {α : Type} → Ring α → Ring α) (change : {α : Type} → List α → List α)
    (hnew : ∀ {α : Type}, edit (.create size : Ring α) = .create size)
    (hcapacity : ∀ {α : Type} (r : Ring α), (edit r).capacity = r.capacity)
    (hedit : ∀ {α : Type} (r : Ring α) (ys : List α), r.Holds ys → (edit r).Holds (change ys)) :
    (h.mapRings edit).Keeps size (l.mapLists change) := by
  refine ⟨hk.size_eq, ?_, ?_, ?_, ?_, ?_⟩
  · exact (hcapacity h.images).trans hk.images_capacity
  · exact hedit h.images l.images hk.images
  · exact fun c => (hk.features c).map hnew hcapacity hedit
  · exact fun c => (hk.correspondences c).map hnew hcapacity hedit
  · exact fun c => (hk.clouds c).map hnew hcapacity hedit

/-- **One edit** does to the rings what it does to the lists. -/
theorem Keeps.edit {h : History S} {size : Nat} {l : HistoryLists S} (hk : h.Keeps size l)
    (e : HistoryEdit S) : (h.edit e).Keeps size (l.edit size e) := by
  have hsize := hk.size_eq
  cases e with
  | addImages left right =>
    have hpush := hk.images.push (left, right)
    rw [hk.images_capacity] at hpush
    exact { hk with
      images_capacity := Ring.capacity_push.trans hk.images_capacity
      images := hpush }
  | addFeatures category fs =>
    refine { hk with features := ?_ }
    subst hsize
    exact Categories.holds_add hk.features category fs
  | addMatches category cs =>
    refine { hk with correspondences := ?_ }
    subst hsize
    exact Categories.holds_add hk.correspondences category cs
  | addCloud category cloud =>
    refine { hk with clouds := ?_ }
    subst hsize
    exact Categories.holds_add hk.clouds category cloud
  | removeEntry steps =>
    apply hk.mapRings (fun r => r.remove steps) (fun xs => xs.eraseIdx steps)
    · exact Ring.remove_create
    · exact fun r => Ring.capacity_remove
    · exact fun r ys hr => hr.remove steps
  | removeOldestEntry =>
    apply hk.mapRings Ring.removeOldest List.dropLast
    · exact Ring.removeOldest_create
    · exact fun r => Ring.capacity_removeOldest
    · exact fun r ys hr => hr.removeOldest

/-- **Any series of edits** does. -/
theorem Keeps.edits {h : History S} {size : Nat} {l : HistoryLists S} (hk : h.Keeps size l)
    (edits : List (HistoryEdit S)) :
    (edits.foldl History.edit h).Keeps size (edits.foldl (HistoryLists.edit size) l) := by
  induction edits generalizing h l with
  | nil => exact hk
  | cons e rest ih => exact ih (hk.edit e)

theorem keeps_empty {size : Nat} (hsize : 0 < size) : (empty size : History S).Keeps size .empty := by
  refine ⟨rfl, Ring.capacity_create, Ring.holds_create hsize, ?_, ?_, ?_⟩
  all_goals exact fun c => Categories.holds_empty hsize

end History

/-! ## What is counted and read -/

/-- The answer of a list that is asked for its entry at an index. -/
def answer {α : Type} (xs : List α) (refusal : Breach) (k : Nat) : Except Error α :=
  match xs[k]? with
  | some a => .ok a
  | none => .error (.breach refusal)

/-- The refusal of an entry that a category does not hold. -/
def Categories.refusal {α : Type} (rings : Categories α) (what : Artifact) (k : Nat) (category : String) :
    Breach :=
  if category ∈ rings then .notHeld what k (rings.count category) else .unknownCategory what category

/-- A ring answers as its list does. -/
theorem Ring.Holds.answer_eq {α : Type} {r : Ring α} {xs : List α} (h : r.Holds xs) (what : Artifact)
    (k : Nat) : r.entry what k = answer xs (.notHeld what k xs.length) k := by
  unfold answer
  cases hk : xs[k]? with
  | some a => exact h.entry_eq what hk
  | none =>
    have hlen : ¬ k < r.count := by
      rw [h.count_eq]
      exact Nat.not_lt_of_le (List.getElem?_eq_none_iff.mp hk)
    unfold Ring.entry
    rw [if_neg hlen, h.count_eq]
    rfl

/-- So do the rings of a category; one that is not known has no list, and is named in the refusal. -/
theorem Categories.Holds.answer_eq {α : Type} {rings : Categories α} {size : Nat} {c : String} {xs : List α}
    (h : rings.Holds size c xs) (what : Artifact) (k : Nat) :
    rings.entry what k c = answer xs (rings.refusal what k c) k ∧ (c ∉ rings → xs = []) := by
  have hcount := h.count_eq
  have hring := h.holds.answer_eq what k
  unfold ringOf at hring
  unfold count at hcount
  unfold entry refusal count
  cases hc : rings[c]? with
  | some ring =>
    have hmem : c ∈ rings := Std.HashMap.mem_iff_isSome_getElem?.mpr (hc ▸ rfl)
    rw [hc] at hring hcount
    simp only at hcount
    rw [if_pos hmem]
    refine ⟨?_, fun hnot => absurd hmem hnot⟩
    show ring.entry what k = answer xs (.notHeld what k ring.count) k
    rw [hcount]
    exact hring
  | none =>
    have hmem : c ∉ rings := by
      rw [Std.HashMap.mem_iff_isSome_getElem?, hc]
      exact Bool.false_ne_true
    have hnil : xs = [] := by
      rw [hc] at hcount
      exact List.eq_nil_of_length_eq_zero hcount.symm
    rw [if_neg hmem, hnil]
    exact ⟨rfl, fun _ => rfl⟩

/-- What can be asked of one kind of entries: the categories count and answer as their lists do, and a category
that is not known has an empty one. -/
structure Answers {α : Type} (rings : Categories α) (get : Nat → String → Except Error α) (what : Artifact)
    (lists : String → List α) : Prop where
  count_eq : ∀ c, rings.count c = (lists c).length
  get_eq : ∀ k c, get k c = answer (lists c) (rings.refusal what k c) k
  unknown : ∀ c, c ∉ rings → lists c = []

theorem answers_of_holds {α : Type} {rings : Categories α} {size : Nat} {lists : String → List α}
    (h : ∀ c, rings.Holds size c (lists c)) (what : Artifact) :
    Answers rings (rings.entry what) what lists :=
  ⟨fun c => (h c).count_eq, fun k c => ((h c).answer_eq what k).1, fun c => ((h c).answer_eq what 0).2⟩

namespace History

/-- **A history shows lists**: whatever is counted or asked for, by any number of steps back and in any
category, the answer is that of the lists. -/
structure Shows (h : History S) (l : HistoryLists S) : Prop where
  imageCount_eq : h.images.count = l.images.length
  leftImage_eq : ∀ k,
    h.leftImage k = answer (l.images.map Prod.fst) (.notHeld .leftImage k l.images.length) k
  rightImage_eq : ∀ k,
    h.rightImage k = answer (l.images.map Prod.snd) (.notHeld .rightImage k l.images.length) k
  features : Answers h.featureRings h.features .features l.features
  correspondences : Answers h.matchRings h.matchesBack .correspondences l.correspondences
  clouds : Answers h.cloudRings h.cloud .pointCloud l.clouds

theorem map_answer {α β : Type} {f : α → β} {xs : List α} {refusal : Breach} {k : Nat} :
    f <$> answer xs refusal k = answer (xs.map f) refusal k := by
  unfold answer
  rw [List.getElem?_map]
  cases xs[k]? <;> rfl

theorem Keeps.shows {h : History S} {size : Nat} {l : HistoryLists S} (hk : h.Keeps size l) : h.Shows l := by
  refine ⟨hk.images.count_eq, ?_, ?_, ?_, ?_, ?_⟩
  · intro k
    unfold leftImage
    rw [hk.images.answer_eq, map_answer]
  · intro k
    unfold rightImage
    rw [hk.images.answer_eq, map_answer]
  · exact answers_of_holds hk.features .features
  · exact answers_of_holds hk.correspondences .correspondences
  · exact answers_of_holds hk.clouds .pointCloud

/-- **A history is a family of bounded lists.** Of any positive size and after any edits, it counts the entries
of the lists that went through the same edits, finds each of them at its index, and refuses any other index as
one that is not held. No slot is found empty. It can be created as long as there is memory for its slots. -/
theorem history_is_lists {size : Nat} (hsize : 0 < size) (edits : List (HistoryEdit S)) :
    ((create size : Except Error (History S)) = .ok (.empty size) ↔ size ≤ slotLimit) ∧
      (edits.foldl History.edit (.empty size)).Shows (edits.foldl (HistoryLists.edit size) .empty) := by
  refine ⟨⟨fun hcreate => ?_, create_of_le hsize⟩, ((keeps_empty hsize).edits edits).shows⟩
  by_contra hmany
  obtain ⟨_, _, hrefused⟩ := create_of_gt (S := S) (Nat.lt_of_not_le hmany)
  rw [hrefused] at hcreate
  cases hcreate

/-- Two slots: the third cloud takes the slot of the first, and after a removal the fourth one takes the slot that
the removal freed. -/
theorem history_is_lists_wrapped :
    0 < 2 ∧ (create 2 : Except Error (History Float32)) = .ok (.empty 2) ∧
      ∃ h : History Float32, h = [.addCloud "a" ⟨#[], 1⟩, .addCloud "a" ⟨#[], 2⟩, .addCloud "b" ⟨#[], 5⟩, .addCloud "a" ⟨#[], 3⟩,
          .removeEntry 0, .addCloud "a" ⟨#[], 4⟩].foldl History.edit (.empty 2) ∧
        h.cloudRings.count "a" = 2 ∧ h.cloudRings.count "b" = 0 ∧
        h.cloud 0 "a" = .ok ⟨#[], 4⟩ ∧ h.cloud 1 "a" = .ok ⟨#[], 2⟩ := by
  obtain ⟨hcreate, hshows⟩ := history_is_lists (S := Float32) Nat.two_pos
    [.addCloud "a" ⟨#[], 1⟩, .addCloud "a" ⟨#[], 2⟩, .addCloud "b" ⟨#[], 5⟩, .addCloud "a" ⟨#[], 3⟩,
      .removeEntry 0, .addCloud "a" ⟨#[], 4⟩]
  refine ⟨Nat.two_pos, hcreate.mpr (by decide), _, rfl, ?_, ?_, ?_, ?_⟩
  · exact hshows.clouds.count_eq "a"
  · exact hshows.clouds.count_eq "b"
  · exact hshows.clouds.get_eq 0 "a"
  · exact hshows.clouds.get_eq 1 "a"

end History

end StereoMapping
