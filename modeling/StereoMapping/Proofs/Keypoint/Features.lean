import StereoMapping.Keypoint.Features

/-!
# `Proofs.Keypoint.Features` — which descriptors go into one collection

Descriptors are put into a collection one after the other. The first that is not empty fixes the size, and the
first that is of another length is refused. So they all go in exactly if any two that are not empty have one
length; otherwise the refusal names the first one that differs from those before it.

## Contents
- `OneLength`, `firstLength`: the condition, and the size that a collection takes.
- `Features.Reads`: the entries that are read from a collection.
- `Reads.push`, `Reads.addPoint`, `Reads.addDescribed`, `Reads.addDescribed_refused`: one more entry.
- `addDescribedAll`, `Reads.addDescribedAll`: a series of them.
- `checkDescriptors_eq_ok_iff`, `isProper_iff`: the contract that a whole collection is checked for.
-/

namespace StereoMapping

variable {P S : Type}

/-! ## Lengths -/

/-- Any two descriptors that are not empty have one length. -/
def OneLength (entries : List (P × List S)) : Prop :=
  ∀ a ∈ entries, ∀ b ∈ entries, a.2 ≠ [] → b.2 ≠ [] → a.2.length = b.2.length

/-- The length of the first descriptor that is not empty, zero if there is none. -/
def firstLength : List (P × List S) → Nat
  | [] => 0
  | e :: rest => if e.2 = [] then firstLength rest else e.2.length

theorem firstLength_concat (entries : List (P × List S)) (e : P × List S) :
    firstLength (entries ++ [e])
      = if firstLength entries = 0 then e.2.length else firstLength entries := by
  induction entries with
  | nil =>
    by_cases he : e.2 = []
    · simp [firstLength, he]
    · simp [firstLength, he]
  | cons a rest ih =>
    by_cases ha : a.2 = []
    · simp only [List.cons_append, firstLength, if_pos ha]
      exact ih
    · simp [firstLength, ha]

/-- An entry has the size that the first one fixed. -/
theorem exists_of_firstLength {entries : List (P × List S)} (h : firstLength entries ≠ 0) :
    ∃ e ∈ entries, e.2 ≠ [] ∧ e.2.length = firstLength entries := by
  induction entries with
  | nil => exact absurd rfl h
  | cons a rest ih =>
    by_cases ha : a.2 = []
    · simp only [firstLength, if_pos ha] at h ⊢
      obtain ⟨e, hmem, he⟩ := ih h
      exact ⟨e, List.mem_cons_of_mem _ hmem, he⟩
    · simp only [firstLength, if_neg ha]
      exact ⟨a, List.mem_cons_self, ha, rfl⟩

theorem eq_nil_of_firstLength {entries : List (P × List S)} (h : firstLength entries = 0) :
    ∀ e ∈ entries, e.2 = [] := by
  induction entries with
  | nil => simp
  | cons a rest ih =>
    by_cases ha : a.2 = []
    · simp only [firstLength, if_pos ha] at h
      intro e he
      rcases List.mem_cons.mp he with rfl | hrest
      · exact ha
      · exact ih h e hrest
    · simp only [firstLength, if_neg ha] at h
      exact absurd (List.eq_nil_of_length_eq_zero h) ha

/-- One more descriptor keeps to one length exactly if it is empty, the first one, or of the size there is. -/
theorem oneLength_concat {entries : List (P × List S)} {e : P × List S} :
    OneLength (entries ++ [e]) ↔
      OneLength entries ∧ (e.2 = [] ∨ firstLength entries = 0 ∨ e.2.length = firstLength entries) := by
  constructor
  · intro h
    refine ⟨?_, ?_⟩
    · intro a ha b hb
      exact h a (List.mem_append_left _ ha) b (List.mem_append_left _ hb)
    · by_cases he : e.2 = []
      · exact .inl he
      · by_cases hfirst : firstLength entries = 0
        · exact .inr (.inl hfirst)
        · obtain ⟨a, ha, hne, hlength⟩ := exists_of_firstLength hfirst
          have hlast : e ∈ entries ++ [e] := List.mem_append_right _ List.mem_cons_self
          exact .inr (.inr ((h e hlast a (List.mem_append_left _ ha) he hne).trans hlength))
  · rintro ⟨hold, hnew⟩
    -- an entry that is not empty has the length of the new one
    have hsame : ∀ a ∈ entries, a.2 ≠ [] → e.2 ≠ [] → a.2.length = e.2.length := by
      intro a ha hne hene
      rcases hnew with hempty | hzero | hlength
      · exact absurd hempty hene
      · exact absurd (eq_nil_of_firstLength hzero a ha) hne
      · have hfirst : firstLength entries ≠ 0 := by
          rw [← hlength]
          exact fun hc => hene (List.eq_nil_of_length_eq_zero hc)
        obtain ⟨b, hb, hbne, hblength⟩ := exists_of_firstLength hfirst
        rw [hlength, ← hblength]
        exact hold a ha b hb hne hbne
    intro a ha b hb hane hbne
    rw [List.mem_append, List.mem_singleton] at ha hb
    rcases ha with ha | rfl <;> rcases hb with hb | rfl
    · exact hold a ha b hb hane hbne
    · exact hsame a ha hane hbne
    · exact (hsame b hb hbne hane).symm
    · rfl

namespace Features

/-! ## One entry -/

/-- **What is read from a collection**: its points in order, each with the components of its descriptor. -/
structure Reads (fs : Features P S) (entries : List (P × List S)) : Prop where
  entries_eq : (fs.entries.toList.map fun f => (f.point, f.descriptor.toList)) = entries
  length_eq : ∀ f ∈ fs.entries.toList, f.descriptor.length = f.descriptor.toList.length
  size_eq : fs.descriptorSize = firstLength entries

theorem reads_empty : (empty : Features P S).Reads [] :=
  ⟨rfl, fun _ h => absurd h List.not_mem_nil, rfl⟩

theorem Reads.size_entries {fs : Features P S} {entries : List (P × List S)} (h : fs.Reads entries) :
    fs.entries.size = entries.length := by
  rw [← h.entries_eq, List.length_map, Array.length_toList]

theorem Reads.points_eq {fs : Features P S} {entries : List (P × List S)} (h : fs.Reads entries) :
    fs.points = entries.map Prod.fst := by
  rw [← h.entries_eq, List.map_map]
  rfl

/-- **One more entry** is read behind the others. -/
theorem Reads.push {fs : Features P S} {entries : List (P × List S)} (h : fs.Reads entries) (p : P) {d : Descriptor S}
    (hlength : d.length = d.toList.length) {size : Nat} (hsize : size = firstLength (entries ++ [(p, d.toList)])) :
    (⟨fs.entries.push ⟨p, d⟩, size⟩ : Features P S).Reads (entries ++ [(p, d.toList)]) := by
  refine ⟨?_, ?_, hsize⟩
  · rw [Array.toList_push, List.map_append, h.entries_eq, List.map_singleton]
  · intro f hf
    rw [Array.toList_push] at hf
    rcases List.mem_append.mp hf with hold | hnew
    · exact h.length_eq f hold
    · obtain rfl := List.mem_singleton.mp hnew
      exact hlength

variable [Scalar S]

/-- A keypoint without descriptor leaves the size as it is. -/
theorem Reads.addPoint {fs : Features P S} {entries : List (P × List S)} (h : fs.Reads entries) (p : P) :
    (fs.addPoint p).Reads (entries ++ [(p, [])]) := by
  have hempty : (Descriptor.empty : Descriptor S).toList = [] := Descriptor.toList_empty
  have hsize : fs.descriptorSize = firstLength (entries ++ [(p, (Descriptor.empty : Descriptor S).toList)]) := by
    rw [firstLength_concat, hempty, List.length_nil, h.size_eq]
    split
    · assumption
    · rfl
  rw [← hempty]
  exact h.push p (congrArg List.length hempty.symm) hsize

/-- A descriptor that fits is taken. -/
theorem Reads.addDescribed {fs : Features P S} {entries : List (P × List S)} (h : fs.Reads entries)
    (e : P × List S) (hcapacity : e.2.length ≤ descriptorCapacity)
    (hfits : e.2 = [] ∨ firstLength entries = 0 ∨ e.2.length = firstLength entries) :
    ∃ gs, fs.addDescribed e.1 e.2 = .ok gs ∧ gs.Reads (entries ++ [e]) := by
  obtain ⟨d, hd⟩ := Option.isSome_iff_exists.mp (Descriptor.ofList?_isSome_iff.mpr hcapacity)
  have hlist := Descriptor.toList_of_ofList? hd
  have hlength := Descriptor.length_of_ofList? hd
  -- whichever way the descriptor fits, its entry is appended; the ways differ in the size
  have hreads : ∀ size, size = firstLength (entries ++ [e]) →
      (⟨fs.entries.push ⟨e.1, d⟩, size⟩ : Features P S).Reads (entries ++ [e]) := by
    intro size hsize
    have hentry : (e.1, d.toList) = e := by rw [hlist]
    rw [← hentry] at hsize ⊢
    exact h.push e.1 (hlength.trans (congrArg List.length hlist.symm)) hsize
  have hsize := firstLength_concat entries e
  unfold Features.addDescribed
  simp only [hd, Descriptor.isEmpty, hlength]
  by_cases hempty : e.2 = []
  · refine ⟨_, if_pos (by simp [hempty]), hreads _ ?_⟩
    rw [hsize, h.size_eq, hempty]
    split <;> simp_all
  · have hne : e.2.length ≠ 0 := fun hc => hempty (List.eq_nil_of_length_eq_zero hc)
    rw [if_neg (by simpa using hempty)]
    by_cases hzero : fs.descriptorSize = 0
    · refine ⟨_, if_pos hzero, hreads _ ?_⟩
      rw [hsize, if_pos (h.size_eq ▸ hzero)]
    · have hfirst : firstLength entries ≠ 0 := h.size_eq ▸ hzero
      have hsame : e.2.length = firstLength entries := by
        rcases hfits with hc | hc | hc
        · exact absurd hc hempty
        · exact absurd hc hfirst
        · exact hc
      rw [if_neg hzero, h.size_eq]
      refine ⟨_, if_neg (fun hc => hc hsame.symm), hreads _ ?_⟩
      rw [hsize, if_neg hfirst]

/-- A descriptor of another length is refused, by its place, its length and the size there is. -/
theorem Reads.addDescribed_refused {fs : Features P S} {entries : List (P × List S)} (h : fs.Reads entries)
    (e : P × List S) (hcapacity : e.2.length ≤ descriptorCapacity) (hne : e.2 ≠ [])
    (hsome : firstLength entries ≠ 0) (hother : e.2.length ≠ firstLength entries) :
    fs.addDescribed e.1 e.2
      = .error (.malformedDescriptor entries.length e.2.length (firstLength entries)) := by
  obtain ⟨d, hd⟩ := Option.isSome_iff_exists.mp (Descriptor.ofList?_isSome_iff.mpr hcapacity)
  have hlength := Descriptor.length_of_ofList? hd
  unfold Features.addDescribed
  simp only [hd, Descriptor.isEmpty, hlength, h.size_eq, h.size_entries]
  rw [if_neg (by simpa using hne), if_neg hsome, if_pos (Ne.symm hother)]
  rfl

/-! ## A series of entries -/

/-- Appends keypoints with the components of their descriptors, one after the other. -/
def addDescribedAll (fs : Features P S) (entries : List (P × List S)) : Except Error (Features P S) :=
  entries.foldlM (fun fs e => fs.addDescribed e.1 e.2) fs

/-- **A series of descriptors** is taken as a whole if it keeps to one length. Otherwise the first one is refused
that does not. -/
theorem Reads.addDescribedAll {fs : Features P S} {done : List (P × List S)} (h : fs.Reads done)
    (hone : OneLength done) (rest : List (P × List S))
    (hcapacity : ∀ e ∈ rest, e.2.length ≤ descriptorCapacity) :
    (OneLength (done ++ rest) ∧ ∃ gs, fs.addDescribedAll rest = .ok gs ∧ gs.Reads (done ++ rest)) ∨
      (¬ OneLength (done ++ rest) ∧ ∃ before e after, done ++ rest = before ++ e :: after ∧ OneLength before ∧
        e.2 ≠ [] ∧ firstLength before ≠ 0 ∧ e.2.length ≠ firstLength before ∧
        fs.addDescribedAll rest
          = .error (.malformedDescriptor before.length e.2.length (firstLength before))) := by
  induction rest generalizing fs done with
  | nil =>
    rw [List.append_nil]
    exact .inl ⟨hone, fs, rfl, h⟩
  | cons e rest ih =>
    have hsplit : done ++ e :: rest = (done ++ [e]) ++ rest := by simp
    have hcap := hcapacity e List.mem_cons_self
    -- the first entry that is refused ends the series; what was done before it has one length
    by_cases hfits : e.2 = [] ∨ firstLength done = 0 ∨ e.2.length = firstLength done
    · obtain ⟨next, hadd, hnext⟩ := h.addDescribed e hcap hfits
      have hrest := ih hnext (oneLength_concat.mpr ⟨hone, hfits⟩)
        fun a ha => hcapacity a (List.mem_cons_of_mem e ha)
      have hfold : fs.addDescribedAll (e :: rest) = next.addDescribedAll rest := by
        unfold Features.addDescribedAll
        rw [List.foldlM_cons, hadd]
        rfl
      rw [hsplit, hfold]
      exact hrest
    · rw [not_or, not_or] at hfits
      obtain ⟨hne, hsome, hother⟩ := hfits
      have hadd := h.addDescribed_refused e hcap hne hsome hother
      refine .inr ⟨?_, done, e, rest, rfl, hone, hne, hsome, hother, ?_⟩
      · intro hall
        obtain ⟨a, ha, hane, hlength⟩ := exists_of_firstLength hsome
        have hmem : e ∈ done ++ e :: rest := List.mem_append_right _ List.mem_cons_self
        exact hother ((hall e hmem a (List.mem_append_left _ ha) hne hane).trans hlength)
      · unfold Features.addDescribedAll
        rw [List.foldlM_cons, hadd]
        rfl

/-! ## The contract of the descriptors -/

/-- A collection passes its check if every descriptor is proper. -/
theorem checkDescriptors_eq_ok_iff {fs : Features P S} :
    fs.checkDescriptors = .ok () ↔
      ∀ f ∈ fs.entries.toList, isProper fs.descriptorSize f.descriptor = true := by
  unfold checkDescriptors
  split
  · rename_i f index hfind
    constructor
    · rintro ⟨⟩
    · intro hall
      have hproper := hall f (List.fst_mem_of_mem_zipIdx (List.mem_of_find?_eq_some hfind))
      have hnot := List.find?_some hfind
      simp [hproper] at hnot
  · rename_i hfind
    refine ⟨fun _ => ?_, fun _ => rfl⟩
    intro f hf
    obtain ⟨index, hindex, rfl⟩ := List.mem_iff_getElem.mp hf
    have hmem : (fs.entries.toList[index], index) ∈ fs.entries.toList.zipIdx :=
      List.mk_mem_zipIdx_iff_getElem?.mpr (List.getElem?_eq_getElem hindex)
    simpa using List.find?_eq_none.mp hfind _ hmem

theorem isProper_iff {size : Nat} {d : Descriptor S} :
    isProper size d = true ↔ (d.length = 0 ∨ d.length = size) ∧ d.hasCleanPadding = true := by
  simp [isProper]

end Features

/-- A descriptor with clean padding fits its storage. -/
theorem Descriptor.length_le_of_hasCleanPadding [Scalar S] {d : Descriptor S} (h : d.hasCleanPadding = true) :
    d.length ≤ descriptorCapacity := by
  simp only [hasCleanPadding, Bool.and_eq_true, decide_eq_true_eq] at h
  exact h.1

theorem Descriptor.length_toList_le [Scalar S] (d : Descriptor S) : d.toList.length ≤ descriptorCapacity := by
  unfold toList
  rw [List.length_take, Vector.length_toList]
  exact Nat.min_le_right _ _

theorem Descriptor.length_toList [Scalar S] {d : Descriptor S} (h : d.length ≤ descriptorCapacity) :
    d.toList.length = d.length := by
  unfold toList
  rw [List.length_take, Vector.length_toList]
  exact Nat.min_eq_left h

end StereoMapping
