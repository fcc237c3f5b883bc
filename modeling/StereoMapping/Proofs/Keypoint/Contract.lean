import StereoMapping.Proofs.Keypoint.Features

/-!
# `Proofs.Keypoint.Contract` — collections keep their descriptors in order

The descriptor size of a collection is fixed by the first descriptor that is not empty, and given up only with all the
keypoints. What an edit has to keep is therefore a statement about the whole collection: its descriptors are proper for
that size, and unless it is zero one of them has it. An appended entry keeps it if the size stays, or was zero and
becomes that of the entry; every other edit starts anew.

The program appends in place, and fixes the size before it appends. `describeInPlace` has its steps in that order. It
either refuses before the first of them, or does them all, so that no failure is seen half-way.

## Contents
- `Features.describeInPlace`, `run_describeInPlace`: the steps of an addition, and that they are `addDescribed`.
- `Features.Refuses`, `addDescribed_of_refuses`, `addDescribed_of_not_refuses`: when an addition fails.
- `Features.Contract`: the invariant; `Contract.pushed` for an entry, `Contract.edit` for an edit, `Contract.edits` for
  a series of them.
- `Descriptor.hasCleanPadding_iff`: padding, component by component.
-/

namespace StereoMapping

variable {P S : Type}

/-! ## Padding -/

theorem Descriptor.hasCleanPadding_iff [Scalar S] {d : Descriptor S} : d.hasCleanPadding = true ↔
    d.length ≤ descriptorCapacity ∧
      ∀ k (hk : k < descriptorCapacity), d.length ≤ k → Scalar.eq d.components[k] 0 = true := by
  unfold hasCleanPadding
  rw [Bool.and_eq_true, decide_eq_true_eq, List.all_eq_true]
  refine and_congr_right fun _ => ⟨?_, ?_⟩
  · intro h k hk hle
    refine h _ (List.mem_drop_iff_getElem.mpr ⟨k - d.length, ?_, ?_⟩)
    · rw [Vector.length_toList]
      omega
    · simp only [Nat.add_sub_cancel' hle]
      exact Vector.getElem_toList _
  · intro h c hc
    obtain ⟨k, hk, rfl⟩ := List.mem_drop_iff_getElem.mp hc
    rw [Vector.length_toList] at hk
    rw [Vector.getElem_toList]
    exact h _ _ (Nat.le_add_right _ _)

theorem Descriptor.hasCleanPadding_empty : (Descriptor.empty : Descriptor Float32).hasCleanPadding = true := by
  refine hasCleanPadding_iff.mpr ⟨Nat.zero_le _, fun k hk _ => ?_⟩
  unfold Descriptor.empty
  rw [Vector.getElem_replicate]
  decide +kernel

/-- Beyond the components that are stored there is zero. -/
theorem Descriptor.hasCleanPadding_of_ofList? {values : List Float32} {d : Descriptor Float32}
    (h : ofList? values = some d) : d.hasCleanPadding = true := by
  unfold ofList? at h
  split at h
  · rename_i hfits
    obtain rfl := Option.some.inj h
    refine hasCleanPadding_iff.mpr ⟨hfits, fun k hk hle => ?_⟩
    rw [Vector.getElem_ofFn, List.getD_eq_getElem?_getD, List.getElem?_eq_none hle]
    decide +kernel
  · cases h

namespace Features

/-! ## Additions -/

section Additions

variable [Scalar S]

/-- Appends a keypoint with a descriptor in place. The size is fixed, or compared, before the entry is appended; the
refusal tells of the collection as it was found. -/
def describeInPlace (p : P) (components : List S) : ExceptT Error (StateM (Features P S)) Unit := do
  let found ← get
  let refusal : Error := .malformedDescriptor found.entries.size components.length found.descriptorSize
  match Descriptor.ofList? components with
  | none => throw refusal
  | some d =>
    if !d.isEmpty then
      if found.descriptorSize = 0 then
        modify fun fs => { fs with descriptorSize := d.length }
      else if found.descriptorSize ≠ d.length then
        throw refusal
    modify fun fs => { fs with entries := fs.entries.push ⟨p, d⟩ }

/-- What an addition answers, and the collection that it leaves. -/
def described (fs : Features P S) (p : P) (components : List S) : Except Error Unit × Features P S :=
  (describeInPlace p components).run.run fs

/-- **An addition in place** leaves the collection that `addDescribed` answers, or the one that was found. -/
theorem described_eq (fs : Features P S) (p : P) (components : List S) :
    fs.described p components =
      match fs.addDescribed p components with
      | .ok gs => (.ok (), gs)
      | .error e => (.error e, fs) := by
  -- the body in steps, read off branch by branch: no step before a refusal has changed anything
  unfold described describeInPlace addDescribed
  rw [ExceptT.run_bind, StateT.run_bind]
  show StateT.run (ExceptT.run (match Descriptor.ofList? components with | none => _ | some d => _)) fs = _
  cases Descriptor.ofList? components with
  | none => rfl
  | some d =>
    by_cases hempty : d.isEmpty = true
    · simp only [hempty, Bool.not_true, Bool.false_eq_true, if_false, if_true]
      rfl
    · rw [Bool.not_eq_true] at hempty
      simp only [hempty, Bool.not_false, Bool.false_eq_true, if_false, if_true]
      by_cases hzero : fs.descriptorSize = 0
      · rw [if_pos hzero, if_pos hzero]
        rfl
      · rw [if_neg hzero, if_neg hzero]
        by_cases hother : fs.descriptorSize ≠ d.length
        · rw [if_pos hother, if_pos hother]
          rfl
        · rw [if_neg hother, if_neg hother]
          rfl

/-- The components are too many, or of another length than the descriptors that there are. -/
def Refuses (fs : Features P S) (components : List S) : Prop :=
  descriptorCapacity < components.length ∨
    components ≠ [] ∧ fs.descriptorSize ≠ 0 ∧ components.length ≠ fs.descriptorSize

/-- The collection with one more entry, whose size is that of its descriptor unless that is empty. -/
def pushed (fs : Features P S) (p : P) (d : Descriptor S) : Features P S :=
  ⟨fs.entries.push ⟨p, d⟩, if d.length = 0 then fs.descriptorSize else d.length⟩

theorem addDescribed_of_refuses {fs : Features P S} {p : P} {components : List S} (h : fs.Refuses components) :
    fs.addDescribed p components
      = .error (.malformedDescriptor fs.entries.size components.length fs.descriptorSize) := by
  unfold addDescribed
  cases hd : Descriptor.ofList? components with
  | none => rfl
  | some d =>
    have hfits := Descriptor.ofList?_isSome_iff.mp (Option.isSome_of_eq_some hd)
    have hlength := Descriptor.length_of_ofList? hd
    obtain ⟨hne, hsome, hother⟩ := h.resolve_left (Nat.not_lt.mpr hfits)
    have hempty : ¬ d.isEmpty = true := by
      unfold Descriptor.isEmpty
      rw [hlength, beq_iff_eq]
      exact mt List.eq_nil_of_length_eq_zero hne
    simp only
    rw [if_neg hempty, if_neg hsome, if_pos (hlength ▸ Ne.symm hother)]
    rfl

theorem addDescribed_of_not_refuses {fs : Features P S} {components : List S} (h : ¬ fs.Refuses components) (p : P) :
    ∃ d, Descriptor.ofList? components = some d ∧ fs.addDescribed p components = .ok (fs.pushed p d) := by
  obtain ⟨hfits, hsame⟩ := not_or.mp h
  obtain ⟨d, hd⟩ := Option.isSome_iff_exists.mp (Descriptor.ofList?_isSome_iff.mpr (Nat.not_lt.mp hfits))
  have hlength := Descriptor.length_of_ofList? hd
  refine ⟨d, hd, ?_⟩
  unfold addDescribed pushed
  rw [hd]
  simp only
  by_cases hempty : d.length = 0
  · rw [if_pos hempty]
    exact if_pos (beq_iff_eq.mpr hempty)
  · rw [if_neg hempty]
    refine (if_neg (mt beq_iff_eq.mp hempty)).trans ?_
    by_cases hzero : fs.descriptorSize = 0
    · exact if_pos hzero
    · have hne : components ≠ [] := fun hnil => hempty (hlength.trans (congrArg List.length hnil))
      have hequal : fs.descriptorSize = d.length := by
        rw [hlength]
        exact (Decidable.not_not.mp fun hother => hsame ⟨hne, hzero, hother⟩).symm
      rw [if_neg hzero, if_neg fun hother => hother hequal, ← hequal]
      rfl

end Additions

/-! ## The contract -/

/-- **The descriptors of a collection are in order.** They are proper for its size, and one of them has it. -/
structure Contract (fs : Features P Float32) : Prop where
  proper : ∀ f ∈ fs.entries.toList, isProper fs.descriptorSize f.descriptor = true
  described : fs.descriptorSize = 0 ∨ ∃ f ∈ fs.entries.toList, f.descriptor.length = fs.descriptorSize

theorem contract_empty : (empty : Features P Float32).Contract :=
  ⟨fun _ h => absurd h List.not_mem_nil, .inl rfl⟩

theorem contract_ofPoints (points : List P) : (ofPoints points : Features P Float32).Contract := by
  refine ⟨fun f hf => ?_, .inl rfl⟩
  obtain ⟨p, _, rfl⟩ := List.mem_map.mp (show f ∈ points.map fun p => ⟨p, .empty⟩ from hf)
  exact isProper_iff.mpr ⟨.inl rfl, Descriptor.hasCleanPadding_empty⟩

namespace Contract

variable {fs : Features P Float32}

theorem checkDescriptors (h : fs.Contract) : fs.checkDescriptors = .ok () :=
  checkDescriptors_eq_ok_iff.mpr h.proper

theorem size_eq_zero_iff (h : fs.Contract) :
    fs.descriptorSize = 0 ↔ ∀ f ∈ fs.entries.toList, f.descriptor.length = 0 := by
  constructor
  · intro hzero f hf
    exact (isProper_iff.mp (h.proper f hf)).1.elim id fun heq => heq.trans hzero
  · intro hall
    rcases h.described with hzero | ⟨f, hf, hsize⟩
    · exact hzero
    · exact hsize.symm.trans (hall f hf)

theorem length_eq (h : fs.Contract) {f : Feature P Float32} (hf : f ∈ fs.entries.toList)
    (hne : f.descriptor.length ≠ 0) : f.descriptor.length = fs.descriptorSize :=
  (isProper_iff.mp (h.proper f hf)).1.resolve_left hne

theorem size_le (h : fs.Contract) : fs.descriptorSize ≤ descriptorCapacity := by
  rcases h.described with hzero | ⟨f, hf, hsize⟩
  · rw [hzero]
    exact Nat.zero_le _
  · rw [← hsize]
    exact Descriptor.length_le_of_hasCleanPadding (isProper_iff.mp (h.proper f hf)).2

/-- **One more entry** keeps the contract, if its descriptor is empty or of the size that there is, or the first one. -/
theorem pushed (h : fs.Contract) (p : P) {d : Descriptor Float32} (hclean : d.hasCleanPadding = true)
    (hfits : d.length = 0 ∨ fs.descriptorSize = 0 ∨ d.length = fs.descriptorSize) : (fs.pushed p d).Contract := by
  have hmem : ∀ f, f ∈ (fs.pushed p d).entries.toList ↔ f ∈ fs.entries.toList ∨ f = ⟨p, d⟩ := by
    intro f
    unfold Features.pushed
    rw [Array.toList_push, List.mem_append, List.mem_singleton]
  by_cases hempty : d.length = 0
  · -- the size stays
    have hsize : (fs.pushed p d).descriptorSize = fs.descriptorSize := if_pos hempty
    refine ⟨fun f hf => ?_, ?_⟩
    · rw [hsize]
      rcases (hmem f).mp hf with hold | rfl
      · exact h.proper f hold
      · exact isProper_iff.mpr ⟨.inl hempty, hclean⟩
    · rw [hsize]
      exact h.described.imp_right fun ⟨f, hf, hlength⟩ => ⟨f, (hmem f).mpr (.inl hf), hlength⟩
  · -- the size is that of the entry
    have hsize : (fs.pushed p d).descriptorSize = d.length := if_neg hempty
    refine ⟨fun f hf => ?_, .inr ⟨⟨p, d⟩, (hmem _).mpr (.inr rfl), hsize.symm⟩⟩
    rw [hsize]
    rcases (hmem f).mp hf with hold | rfl
    · obtain ⟨hlength, hpadding⟩ := isProper_iff.mp (h.proper f hold)
      refine isProper_iff.mpr ⟨?_, hpadding⟩
      rcases hfits.resolve_left hempty with hzero | hsame
      · exact .inl (hlength.elim id fun heq => heq.trans hzero)
      · exact hlength.imp_right fun heq => heq.trans hsame.symm
    · exact isProper_iff.mpr ⟨.inr rfl, hclean⟩

theorem addPoint (h : fs.Contract) (p : P) : (fs.addPoint p).Contract :=
  h.pushed p Descriptor.hasCleanPadding_empty (.inl rfl)

theorem addDescribed (h : fs.Contract) {p : P} {components : List Float32} {gs : Features P Float32}
    (hadd : fs.addDescribed p components = .ok gs) : gs.Contract := by
  by_cases hrefuses : fs.Refuses components
  · rw [addDescribed_of_refuses hrefuses] at hadd
    cases hadd
  · obtain ⟨d, hd, hok⟩ := addDescribed_of_not_refuses hrefuses p
    obtain rfl := Except.ok.inj (hok.symm.trans hadd)
    refine h.pushed p (Descriptor.hasCleanPadding_of_ofList? hd) ?_
    rw [Descriptor.length_of_ofList? hd]
    refine Decidable.or_iff_not_imp_left.mpr fun hne => Decidable.or_iff_not_imp_left.mpr fun hsome =>
      Decidable.not_not.mp fun hother => hrefuses (.inr ⟨?_, hsome, hother⟩)
    exact fun hnil => hne (congrArg List.length hnil)

end Contract

end Features

/-! ## Edits -/

/-- What a client does with a collection of keypoints, other than to edit an entry in place. -/
inductive FeatureEdit (P S : Type) where
  | renew
  | ofPoints (points : List P)
  | addPoint (p : P)
  | addDescribed (p : P) (components : List S)
  | clear

namespace Features

/-- The collection after an edit. One that fails leaves what it leaves. -/
def edit [Scalar S] (fs : Features P S) : FeatureEdit P S → Features P S
  | .renew => empty
  | .ofPoints points => ofPoints points
  | .addPoint p => fs.addPoint p
  | .addDescribed p components => (fs.described p components).2
  | .clear => fs.clear

/-- **Every edit keeps the contract.** -/
theorem Contract.edit {fs : Features P Float32} (h : fs.Contract) : ∀ e : FeatureEdit P Float32, (fs.edit e).Contract
  | .renew => contract_empty
  | .ofPoints points => contract_ofPoints points
  | .addPoint p => h.addPoint p
  | .addDescribed p components => by
    show (fs.described p components).2.Contract
    rw [described_eq]
    cases hadd : fs.addDescribed p components with
    | ok gs => exact h.addDescribed hadd
    | error _ => exact h
  | .clear => contract_empty

/-- So does a series of them. -/
theorem Contract.edits {fs : Features P Float32} (h : fs.Contract) (edits : List (FeatureEdit P Float32)) :
    (edits.foldl Features.edit fs).Contract := by
  induction edits generalizing fs with
  | nil => exact h
  | cons e rest ih => exact ih (h.edit e)

/-- **Collections of keypoints keep their descriptor contract**, through any series of edits: their check succeeds, the
descriptor size is zero exactly if all descriptors are empty and else the length of all others, and fits the storage.
An addition is refused exactly for too many components, or some of another length than there is; it leaves the
collection as it was found then, and else appends one entry with the components, and the size of that. Whatever was done
to a collection in place, its check succeeds only if all lengths are zero or its size and everything beyond them is
zero. -/
theorem collections_keep_contract (edits : List (FeatureEdit P Float32)) :
    let fs := edits.foldl edit empty
    (fs.checkDescriptors = .ok () ∧
      (fs.descriptorSize = 0 ↔ ∀ f ∈ fs.entries.toList, f.descriptor.length = 0) ∧
      (∀ f ∈ fs.entries.toList, f.descriptor.length ≠ 0 → f.descriptor.length = fs.descriptorSize) ∧
      fs.descriptorSize ≤ descriptorCapacity) ∧
    (∀ p components,
      (fs.Refuses components → fs.described p components
        = (.error (.malformedDescriptor fs.entries.size components.length fs.descriptorSize), fs)) ∧
      (¬ fs.Refuses components → ∃ d : Descriptor Float32, d.toList = components ∧ fs.described p components
        = (.ok (), ⟨fs.entries.push ⟨p, d⟩, if components = [] then fs.descriptorSize else components.length⟩))) ∧
    ∀ gs : Features P Float32, gs.checkDescriptors = .ok () → ∀ f ∈ gs.entries.toList,
      (f.descriptor.length = 0 ∨ f.descriptor.length = gs.descriptorSize) ∧
        ∀ k (hk : k < descriptorCapacity), f.descriptor.length ≤ k →
          Scalar.eq f.descriptor.components[k] 0 = true := by
  intro fs
  have h : fs.Contract := contract_empty.edits edits
  refine ⟨⟨h.checkDescriptors, h.size_eq_zero_iff, fun _ => h.length_eq, h.size_le⟩, fun p components => ⟨?_, ?_⟩, ?_⟩
  · intro hrefuses
    rw [described_eq, addDescribed_of_refuses hrefuses]
  · intro hrefuses
    obtain ⟨d, hd, hok⟩ := addDescribed_of_not_refuses hrefuses p
    refine ⟨d, Descriptor.toList_of_ofList? hd, ?_⟩
    rw [described_eq, hok]
    unfold pushed
    rw [Descriptor.length_of_ofList? hd]
    simp only [List.length_eq_zero_iff]
  · intro gs hcheck f hf
    obtain ⟨hlength, hclean⟩ := isProper_iff.mp (checkDescriptors_eq_ok_iff.mp hcheck f hf)
    exact ⟨hlength, (Descriptor.hasCleanPadding_iff.mp hclean).2⟩

/-- After a point and two components, one component is refused and two others are taken. -/
theorem collections_keep_contract_pair :
    let fs : Features Nat Float32 := [.addPoint 0, .addDescribed 1 [1, 2]].foldl edit empty
    fs.descriptorSize = 2 ∧ fs.described 2 [3] = (.error (.malformedDescriptor 2 1 2), fs) ∧
      ∃ d : Descriptor Float32, d.toList = [3, 4] ∧ fs.described 2 [3, 4] = (.ok (), ⟨fs.entries.push ⟨2, d⟩, 2⟩) := by
  intro fs
  have hadditions := (collections_keep_contract [.addPoint 0, .addDescribed 1 [1, 2]]).2.1
  have hone : fs.Refuses [3] := .inr ⟨by decide, by decide, by decide⟩
  have htwo : ¬ fs.Refuses [3, 4] := fun h => h.elim (by decide) fun h => h.2.2 (by decide)
  exact ⟨by decide, (hadditions 2 [3]).1 hone, (hadditions 2 [3, 4]).2 htwo⟩

end Features

end StereoMapping
