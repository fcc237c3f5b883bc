import StereoMapping.Proofs.Trajectory.Record

/-!
# `Proofs.Trajectory.Association` — printed lines, and the timestamps they can be printed for

A successful step prints the timestamp of its association with a valid pose. The components of a valid pose are
finite, so they are read back, but a timestamp may be any number the text of an association leads to. Words and signed
decimals of any size are accepted there: what is not a number, infinity and overflowing decimals are printed as words.
A word is read without a sign only, so the line printed for a negative decimal beyond all finite numbers is refused.
Every other line is read back.

## Contents
- `exists_numeral_of_mem`: timestamps are read from numerals.
- `Pose.isFinite_components`: a valid pose.
- `readTrajectory_render`, `readTrajectory_render_negative_infinity`: one printed line.
- `printed_line_of_association`: which printed lines are read back; `printed_line_below_range`: one that is not.
-/

namespace StereoMapping

section Lines

variable {D : Type} [Scalar D]

/-- The timestamp of an association is read from a numeral at the front of its line. -/
theorem exists_numeral_of_mem {line : List Char} {a : StereoAssociation D}
    (h : a ∈ recordsOf scanAssociation? line) : ∃ n rest,
    Numeral.scan? (line.dropWhile isBlank) = some (n, rest) ∧ a.timestamp = Scalar.ofNumeral n := by
  obtain ⟨rest, hscan⟩ := scan_of_mem_recordsOf _ h
  unfold scanAssociation? at hscan
  obtain ⟨⟨n, behind⟩, hn, hscan⟩ := Option.bind_eq_some_iff.mp hscan
  obtain ⟨_, _, hscan⟩ := Option.bind_eq_some_iff.mp hscan
  obtain ⟨_, _, hscan⟩ := Option.bind_eq_some_iff.mp hscan
  obtain ⟨_, _, hscan⟩ := Option.bind_eq_some_iff.mp hscan
  obtain ⟨_, _, hscan⟩ := Option.bind_eq_some_iff.mp hscan
  have ha := (Prod.mk.inj (Option.some.inj hscan)).1
  exact ⟨n, behind, hn, by rw [← ha]⟩

theorem Pose.isFinite_components {pose : Pose D} (h : pose.isValid = true) :
    ∀ x ∈ pose.components, Scalar.isFinite x = true := by
  unfold Pose.isValid Vec3.isFinite Quaternion.isFinite at h
  simp only [Bool.and_eq_true] at h
  obtain ⟨⟨⟨⟨hx, hy⟩, hz⟩, ⟨⟨hqx, hqy⟩, hqz⟩, hqw⟩, _⟩ := h
  unfold Pose.components
  simp only [List.forall_mem_cons]
  exact ⟨hx, hy, hz, hqx, hqy, hqz, hqw, List.forall_mem_nil _⟩

theorem newline_not_mem_render (p : TrajectoryPoint D) : '\n' ∉ p.render.toList := by
  intro h
  rw [toList_render] at h
  rcases isNumeralChar_of_mem_joined h with hnumeral | heq
  · exact absurd hnumeral (by decide)
  · cases heq

/-- A printed line, alone. -/
theorem readTrajectory_render {p : TrajectoryPoint D} (h : ∀ x ∈ p.timestamp :: p.pose.components, ReadsBack x) :
    readTrajectory p.render = .ok [p] := by
  have hplain := isReadable_render h (List.forall_mem_nil _) (List.forall_mem_nil _)
  rw [List.nil_append, List.append_nil] at hplain
  obtain ⟨hreadable, hrecords⟩ := hplain
  have hline := readLines_of_readable_line (newline_not_mem_render p) hreadable
  rw [String.ofList_toList, hrecords] at hline
  exact hline

/-- A text that does not start with a numeral holds no point. -/
theorem scanTrajectoryPoint?_eq_none {cs : List Char} (h : Numeral.scan? cs = none) :
    (scanTrajectoryPoint? cs : Option (TrajectoryPoint D × List Char)) = none := by
  have hscalars : (scanScalars? 7 cs : Option (List D × List Char)) = none := by
    rw [scanScalars?, h]
    rfl
  unfold scanTrajectoryPoint?
  rw [hscalars]

/-- A printed line whose timestamp has a sign before a word. -/
theorem readTrajectory_render_negative_infinity {p : TrajectoryPoint D}
    (h : Scalar.numeral p.timestamp = .infinite true) :
    (readTrajectory p.render : Except Error (List (TrajectoryPoint D))) = .error (.parse 1 p.render) := by
  obtain ⟨rest, hrest⟩ : ∃ rest, p.render.toList = '-' :: 'i' :: 'n' :: 'f' :: rest := by
    have hcomponents : p.pose.components = p.pose.position.x :: p.pose.components.tail := rfl
    rw [toList_render, hcomponents, joined_cons_cons, h]
    exact ⟨_, rfl⟩
  have hnone : (scanTrajectoryPoint? ('-' :: 'i' :: 'n' :: 'f' :: rest) :
      Option (TrajectoryPoint D × List Char)) = none :=
    scanTrajectoryPoint?_eq_none (Numeral.scan?_negative_infinity rest)
  have hunreadable : isReadable (scanTrajectoryPoint? : List Char → Option (TrajectoryPoint D × List Char))
      p.render.toList = false := by
    unfold isReadable
    have hdrop : ('-' :: 'i' :: 'n' :: 'f' :: rest).dropWhile isBlank = '-' :: 'i' :: 'n' :: 'f' :: rest := rfl
    rw [hrest, lineContent?_of_not_comment _ rfl, hdrop, hnone]
    rfl
  have hline := readLines_of_unreadable_line (newline_not_mem_render p) hunreadable
  rw [String.ofList_toList] at hline
  exact hline

end Lines

/-- **Printed lines**: what is printed for an association of a file and a valid pose is read back, unless the timestamp
stands in the file as a negative decimal beyond all finite numbers. Then it is refused. -/
theorem printed_line_of_association {text : String} {as : List (StereoAssociation Float)}
    (h : readAssociations text = .ok as) {a : StereoAssociation Float} (ha : a ∈ as) {pose : Pose Float}
    (hpose : pose.isValid = true) : ∃ line ∈ splitLines text.toList, ∃ n rest,
    a ∈ recordsOf scanAssociation? line ∧ Numeral.scan? (line.dropWhile isBlank) = some (n, rest) ∧
      a.timestamp = n.toFloat ∧
      (¬ n.IsBelowRange →
        readTrajectory (TrajectoryPoint.render ⟨a.timestamp, pose⟩) = .ok [⟨a.timestamp, pose⟩]) ∧
      (n.IsBelowRange → (readTrajectory (TrajectoryPoint.render ⟨a.timestamp, pose⟩) :
          Except Error (List (TrajectoryPoint Float)))
        = .error (.parse 1 (TrajectoryPoint.render ⟨a.timestamp, pose⟩))) := by
  obtain ⟨_, rfl⟩ := readable_of_readLines h
  obtain ⟨line, hline, ha⟩ := List.mem_flatMap.mp ha
  obtain ⟨n, rest, hscan, htime⟩ := exists_numeral_of_mem ha
  change a.timestamp = n.toFloat at htime
  have hinfinity := toFloat_eq_negative_infinity_iff (n := n)
  rw [← htime, or_iff_right (Numeral.ne_of_scan? hscan)] at hinfinity
  refine ⟨line, hline, n, rest, ha, hscan, htime, fun hrange => ?_, fun hrange => ?_⟩
  · refine readTrajectory_render (List.forall_mem_cons.mpr ⟨readsBack_of_ne ?_, fun x hx => ?_⟩)
    · exact fun heq => hrange (hinfinity.mp heq)
    · exact readsBack_of_isFinite (Pose.isFinite_components hpose x hx)
  · exact readTrajectory_render_negative_infinity (numeral64_eq_negative_infinity_iff.mpr (hinfinity.mpr hrange))

/-- A timestamp that overflows above is printed as a word, which is read back. -/
theorem printed_line_of_association_above_range :
    readAssociations "1e999 l r" = .ok [⟨float64 false Format.double.infinity, "l", "r"⟩] ∧
      (Pose.identity : Pose Float).isValid = true ∧
      readTrajectory (TrajectoryPoint.render ⟨float64 false Format.double.infinity, .identity⟩)
        = .ok [⟨float64 false Format.double.infinity, .identity⟩] := by
  have hread : readAssociations "1e999 l r" = .ok [⟨float64 false Format.double.infinity, "l", "r"⟩] := rfl
  have hvalid : (Pose.identity : Pose Float).isValid = true := by decide +kernel
  obtain ⟨_, _, n, _, _, _, htime, hback, _⟩ := printed_line_of_association hread List.mem_cons_self hvalid
  refine ⟨hread, hvalid, hback fun hrange => ?_⟩
  have hinfinity := htime.trans (toFloat_eq_negative_infinity_iff.mpr (.inr hrange))
  rw [float64_inj (Nat.le_refl _) (Nat.le_refl _)] at hinfinity
  exact absurd hinfinity.1 Bool.false_ne_true

/-- A timestamp that overflows below: the association is read, and the line printed for it is refused. -/
theorem printed_line_below_range :
    readAssociations "-1e999 left right" = .ok [⟨float64 true Format.double.infinity, "left", "right"⟩] ∧
      (Pose.identity : Pose Float).isValid = true ∧
      (readTrajectory (TrajectoryPoint.render ⟨float64 true Format.double.infinity, .identity⟩) :
        Except Error (List (TrajectoryPoint Float))) = .error (.parse 1 "-inf 0 0 0 0 0 0 1") := by
  have hprinted : TrajectoryPoint.render ⟨float64 true Format.double.infinity, .identity⟩
      = "-inf 0 0 0 0 0 0 1" := by decide +kernel
  refine ⟨rfl, by decide +kernel, ?_⟩
  rw [← hprinted]
  exact readTrajectory_render_negative_infinity (numeral64_eq_negative_infinity_iff.mpr rfl)

end StereoMapping
